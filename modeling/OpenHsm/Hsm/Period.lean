import OpenHsm.Hsm.Machine
import OpenHsm.Platform.Timer

/-!
The periodic timer of a state machine: `osa_hsm_active_period`, called any number of times on
any number of machines, with any of the calls below failing.

* `HsmTimer`, `PeriodSys`, `osaHsmActivePeriod`, `periodSystem`: the handle and the period
  that a machine records, and the timers that exist.
* `OneTimer`: at most one armed timer posts `HSM_SIG_PERIOD` to the machine, and `tick_period`
  says whether there is one and with which period.
* `HandleInv`: a handle is of a timer of its own machine, and an armed timer of a machine is
  the one its handle is of.
* `one_timer_iff`: `OneTimer` holds along a run exactly as long as every call meets
  `PeriodKept`.  `replaced_timer_never_stops` is the run in which a second period is set.
-/

namespace OpenHsm

open Runs

/-- `struct hsm_timer`. -/
structure HsmTimer where
  timerId : Option ℕ
  tickPeriod : UInt32
  deriving DecidableEq, Repr

/-- The `timer` of every state machine, and the timers that exist. -/
structure PeriodSys where
  hsm : ℕ → HsmTimer
  timers : List OsaTimerImpl

/-- `osa_hsm_active_period`. -/
def osaHsmActivePeriod (s : PeriodSys) (h : ℕ) (period : UInt32) (o : TimerOutcome) :
    Int × PeriodSys :=
  if period ≠ 0 then
    let r := osaTimerCreate s.timers period true h o
    let timerId := match r.2.1 with
      | some i => some i
      | none => (s.hsm h).timerId
    (r.1, { hsm := Function.update s.hsm h ⟨timerId, period⟩, timers := r.2.2 })
  else
    let r := osaTimerStop s.timers (s.hsm h).timerId o
    (r.1, { hsm := Function.update s.hsm h { s.hsm h with tickPeriod := 0 }, timers := r.2 })

/-- A call of `osa_hsm_active_period` with what the calls below it do. -/
structure PeriodCall where
  hsm : ℕ
  period : UInt32
  outcome : TimerOutcome
  deriving DecidableEq, Repr

/-- The calls on any number of machines, from zeroed structures on. -/
def periodSystem : System PeriodSys PeriodCall where
  init s := s = ⟨fun _ => ⟨none, 0⟩, []⟩
  enabled _ a := a.outcome.Valid
  next s a := (osaHsmActivePeriod s a.hsm a.period a.outcome).2

instance (s : PeriodSys) (a : PeriodCall) : Decidable (periodSystem.enabled s a) :=
  inferInstanceAs (Decidable a.outcome.Valid)

/-! ### One timer for a machine -/

/-- `oas_hsm_timer_handler`: the machine it posts to, and the event. -/
def oasHsmTimerHandler (hsm : ℕ) : ℕ × HsmEvent := (hsm, ⟨hsmSigPeriod, none, 0⟩)

/-- What the expiry of a timer posts. -/
def posixTimerCallback (t : OsaTimerImpl) : Option (ℕ × HsmEvent) :=
  t.armed.map fun _ => oasHsmTimerHandler t.arg

/-- The timer is armed and posts `HSM_SIG_PERIOD` to the machine `h`. -/
def PostsPeriodTo (h : ℕ) (t : OsaTimerImpl) : Prop :=
  posixTimerCallback t = some (h, ⟨hsmSigPeriod, none, 0⟩)

instance (h : ℕ) : DecidablePred (PostsPeriodTo h) := fun _ => inferInstanceAs (Decidable (_ = _))

/-- At most one timer posts to the machine `h`, exactly where `tick_period` is not zero, and
then with that period. -/
structure OneTimer (s : PeriodSys) (h : ℕ) : Prop where
  unique : s.timers.countP (PostsPeriodTo h) ≤ 1
  armed : (∃ t ∈ s.timers, PostsPeriodTo h t) ↔ (s.hsm h).tickPeriod ≠ 0
  period : ∀ t ∈ s.timers, PostsPeriodTo h t →
    t.armed.map Itimerspec.periodMs = some (s.hsm h).tickPeriod.toNat

/-- After a call with period zero that returns `0`, no timer posts to the machine. -/
def OffMeansOff (s : PeriodSys) (a : PeriodCall) : Prop :=
  a.period = 0 → (osaHsmActivePeriod s a.hsm a.period a.outcome).1 = 0 →
    ∀ t ∈ (periodSystem.next s a).timers, ¬ PostsPeriodTo a.hsm t

lemma postsPeriodTo_iff {h : ℕ} {t : OsaTimerImpl} :
    PostsPeriodTo h t ↔ t.arg = h ∧ t.armed ≠ none := by
  rw [PostsPeriodTo, posixTimerCallback]
  cases ht : t.armed with
  | none => simp
  | some its => simp [oasHsmTimerHandler]

lemma ticks_ne_none_iff {h : ℕ} {t : OsaTimerImpl} : t.ticks h ≠ none ↔ PostsPeriodTo h t := by
  rw [ne_eq, ticks_eq_none_iff, postsPeriodTo_iff]
  tauto

/-- The timers that post to a machine are counted by their periods. -/
lemma countP_posts (ts : List OsaTimerImpl) (h : ℕ) :
    ts.countP (PostsPeriodTo h) = (tickers ts h).length := by
  induction ts with
  | nil => rfl
  | cons t ts ih =>
      rw [List.countP_cons, ih, tickers, tickers, List.filterMap_cons]
      cases ht : t.ticks h with
      | none =>
          have hnot : ¬ PostsPeriodTo h t := fun hp => ticks_ne_none_iff.mpr hp ht
          simp [hnot]
      | some p =>
          have hposts : PostsPeriodTo h t := ticks_ne_none_iff.mp (by rw [ht]; simp)
          simp [hposts]

lemma mem_tickers {ts : List OsaTimerImpl} {h p : ℕ} :
    p ∈ tickers ts h ↔ ∃ t ∈ ts, PostsPeriodTo h t ∧ t.armed.map Itimerspec.periodMs = some p := by
  rw [tickers, List.mem_filterMap]
  refine exists_congr fun t => and_congr_right fun _ => ?_
  rw [OsaTimerImpl.ticks, postsPeriodTo_iff]
  split
  · next ha => cases t.armed <;> simp [ha]
  · next ha => simp [ha]

/-- A timer that posts to the machine has its period in the list. -/
lemma exists_mem_tickers {ts : List OsaTimerImpl} {h : ℕ} {t : OsaTimerImpl} (ht : t ∈ ts)
    (hp : PostsPeriodTo h t) :
    ∃ p ∈ tickers ts h, t.armed.map Itimerspec.periodMs = some p := by
  obtain ⟨its, hits⟩ := Option.ne_none_iff_exists'.mp (postsPeriodTo_iff.mp hp).2
  exact ⟨its.periodMs, mem_tickers.mpr ⟨t, ht, hp, by rw [hits]; rfl⟩, by rw [hits]; rfl⟩

/-- **The three clauses as one list**: the periods of the timers that post to the machine. -/
lemma oneTimer_iff {s : PeriodSys} {h : ℕ} :
    OneTimer s h ↔ tickers s.timers h
      = if (s.hsm h).tickPeriod = 0 then [] else [(s.hsm h).tickPeriod.toNat] := by
  constructor
  · rintro ⟨hunique, harmed, hperiod⟩
    rw [countP_posts] at hunique
    have hmem : ∀ p ∈ tickers s.timers h, p = (s.hsm h).tickPeriod.toNat := by
      intro p hp
      obtain ⟨t, ht, hposts, hper⟩ := mem_tickers.mp hp
      rw [hperiod t ht hposts] at hper
      exact (Option.some.inj hper).symm
    split
    · next hzero =>
        rw [List.eq_nil_iff_forall_not_mem]
        intro p hp
        obtain ⟨t, ht, hposts, -⟩ := mem_tickers.mp hp
        exact harmed.mp ⟨t, ht, hposts⟩ hzero
    · next hzero =>
        obtain ⟨t, ht, hposts⟩ := harmed.mpr hzero
        obtain ⟨p, hp, -⟩ := exists_mem_tickers ht hposts
        have hlen : (tickers s.timers h).length = 1 :=
          le_antisymm hunique (List.length_pos_of_mem hp)
        obtain ⟨q, hq⟩ := List.length_eq_one_iff.mp hlen
        rw [hq, hmem q (by rw [hq]; simp)]
  · intro hlist
    have hmem : ∀ t ∈ s.timers, PostsPeriodTo h t → (s.hsm h).tickPeriod ≠ 0 ∧
        t.armed.map Itimerspec.periodMs = some (s.hsm h).tickPeriod.toNat := by
      intro t ht hposts
      obtain ⟨p, hp, hper⟩ := exists_mem_tickers ht hposts
      rw [hlist] at hp
      split at hp
      · cases hp
      · next hzero => exact ⟨hzero, by rw [hper, List.mem_singleton.mp hp]⟩
    refine ⟨?_, ⟨fun ⟨t, ht, hposts⟩ => (hmem t ht hposts).1, fun hzero => ?_⟩,
      fun t ht hposts => (hmem t ht hposts).2⟩
    · rw [countP_posts, hlist]
      split <;> simp
    · rw [if_neg hzero] at hlist
      obtain ⟨t, ht, hposts, -⟩ := mem_tickers.mp (hlist ▸ List.mem_singleton_self _)
      exact ⟨t, ht, hposts⟩

/-! ### Which calls keep it -/

/-- A call with a period creates the first timer of the machine, or fails with that period
already running; a call without one stops the timer, or there is none to stop. -/
def PeriodKept (s : PeriodSys) (h : ℕ) (a : PeriodCall) : Prop :=
  a.hsm = h →
    if a.period ≠ 0 then
      ((s.hsm h).tickPeriod = 0 ∧ a.outcome.Creates) ∨
        ((s.hsm h).tickPeriod = a.period ∧ ¬ a.outcome.Creates)
    else (s.hsm h).tickPeriod = 0 ∨ a.outcome.timerSettime = none

instance (s : PeriodSys) (h : ℕ) (a : PeriodCall) : Decidable (PeriodKept s h a) :=
  inferInstanceAs (Decidable (_ → _))

/-- The handles of the machines, and the timers of the machine `h`. -/
structure HandleInv (s : PeriodSys) (h : ℕ) : Prop where
  own : ∀ k i, (s.hsm k).timerId = some i → ∃ t, s.timers[i]? = some t ∧ t.arg = k
  held : ∀ i t, s.timers[i]? = some t → PostsPeriodTo h t → (s.hsm h).timerId = some i

/-- What a call does. -/
inductive PeriodMove (s : PeriodSys) (a : PeriodCall) : Int × PeriodSys → Prop
  | created : a.period ≠ 0 → a.outcome.Creates → PeriodMove s a
      (0, ⟨Function.update s.hsm a.hsm ⟨some s.timers.length, a.period⟩,
        s.timers ++ [createdTimer a.period a.hsm]⟩)
  | failed (e : Int) : a.period ≠ 0 → ¬ a.outcome.Creates → e < 0 → PeriodMove s a
      (e, ⟨Function.update s.hsm a.hsm ⟨(s.hsm a.hsm).timerId, a.period⟩, s.timers⟩)
  | stopped (i : ℕ) : a.period = 0 → (s.hsm a.hsm).timerId = some i →
      a.outcome.timerSettime = none → PeriodMove s a
        (0, ⟨Function.update s.hsm a.hsm { s.hsm a.hsm with tickPeriod := 0 },
          s.timers.modify i stoppedTimer⟩)
  | missed (e : Int) : a.period = 0 →
      ((s.hsm a.hsm).timerId = none ∨ a.outcome.timerSettime ≠ none) → e < 0 → PeriodMove s a
        (e, ⟨Function.update s.hsm a.hsm { s.hsm a.hsm with tickPeriod := 0 }, s.timers⟩)

lemma periodMove {s : PeriodSys} {a : PeriodCall} (ha : a.outcome.Valid) :
    PeriodMove s a (osaHsmActivePeriod s a.hsm a.period a.outcome) := by
  by_cases hp : a.period = 0
  · have hcall : osaHsmActivePeriod s a.hsm a.period a.outcome =
        ((osaTimerStop s.timers (s.hsm a.hsm).timerId a.outcome).1,
          ⟨Function.update s.hsm a.hsm { s.hsm a.hsm with tickPeriod := 0 },
            (osaTimerStop s.timers (s.hsm a.hsm).timerId a.outcome).2⟩) := by
      simp [osaHsmActivePeriod, hp]
    rw [hcall]
    cases ht : (s.hsm a.hsm).timerId with
    | none => exact .missed (-eINVAL) hp (.inl ht) (by decide)
    | some i =>
        cases ho : a.outcome.timerSettime with
        | none =>
            rw [osaTimerStop_of_stops ho]
            exact .stopped i hp ht ho
        | some e =>
            have := ha.2 e ho
            rw [osaTimerStop_of_fails ho]
            exact .missed (-e) hp (.inr (by rw [ho]; simp)) (by omega)
  · by_cases ho : a.outcome.Creates
    · have hcall : osaHsmActivePeriod s a.hsm a.period a.outcome
          = (0, ⟨Function.update s.hsm a.hsm ⟨some s.timers.length, a.period⟩,
              s.timers ++ [createdTimer a.period a.hsm]⟩) := by
        simp [osaHsmActivePeriod, hp, osaTimerCreate_of_creates hp ho]
      rw [hcall]
      exact .created hp ho
    · obtain ⟨e, he, hcreate⟩ : ∃ e : Int, e < 0 ∧
          osaTimerCreate s.timers a.period true a.hsm a.outcome = (e, none, s.timers) :=
        osaTimerCreate_of_fails hp ha ho
      have hcall : osaHsmActivePeriod s a.hsm a.period a.outcome
          = (e, ⟨Function.update s.hsm a.hsm ⟨(s.hsm a.hsm).timerId, a.period⟩, s.timers⟩) := by
        simp [osaHsmActivePeriod, hp, hcreate]
      rw [hcall]
      exact .failed e hp ho he

/-- The timers of a machine are not touched by a call for another one. -/
lemma tickers_other {s : PeriodSys} {h : ℕ} {a : PeriodCall} (hi : HandleInv s h)
    (ha : a.outcome.Valid) (hah : a.hsm ≠ h) :
    (periodSystem.next s a).hsm h = s.hsm h ∧
      tickers (periodSystem.next s a).timers h = tickers s.timers h := by
  have hha : h ≠ a.hsm := fun he => hah he.symm
  have hmove := periodMove (s := s) ha
  show (osaHsmActivePeriod s a.hsm a.period a.outcome).2.hsm h = _ ∧
    tickers (osaHsmActivePeriod s a.hsm a.period a.outcome).2.timers h = _
  generalize osaHsmActivePeriod s a.hsm a.period a.outcome = r at hmove
  cases hmove with
  | created hp _ =>
      refine ⟨Function.update_of_ne hha .., ?_⟩
      rw [tickers_create hp, if_neg hah, List.append_nil]
  | failed e _ _ _ => exact ⟨Function.update_of_ne hha .., rfl⟩
  | stopped i _ hid _ =>
      obtain ⟨t, ht, harg⟩ := hi.own a.hsm i hid
      refine ⟨Function.update_of_ne hha .., tickers_stop_of_quiet ht ?_⟩
      exact ticks_eq_none_iff.mpr fun he => absurd (harg.symm.trans he) hah
  | missed e _ _ _ => exact ⟨Function.update_of_ne hha .., rfl⟩

/-- Stopping the timer of the handle leaves none. -/
lemma HandleInv.tickers_stopped {s : PeriodSys} {h i : ℕ} (hi : HandleInv s h)
    (hid : (s.hsm h).timerId = some i) : tickers (s.timers.modify i stoppedTimer) h = [] := by
  rw [tickers_eq_nil_iff]
  intro t ht harg
  obtain ⟨k, hk⟩ := List.mem_iff_getElem?.mp ht
  rcases getElem?_stopped hk with ⟨-, u, -, rfl⟩ | ⟨hki, hk⟩
  · rfl
  · by_contra harmed
    have := hi.held k t hk (postsPeriodTo_iff.mpr ⟨harg, harmed⟩)
    exact hki (Option.some.inj (this.symm.trans hid))

/-- Without a handle there is no timer. -/
lemma HandleInv.tickers_none {s : PeriodSys} {h : ℕ} (hi : HandleInv s h)
    (hid : (s.hsm h).timerId = none) : tickers s.timers h = [] := by
  rw [tickers_eq_nil_iff]
  intro t ht harg
  obtain ⟨k, hk⟩ := List.mem_iff_getElem?.mp ht
  by_contra harmed
  have := hi.held k t hk (postsPeriodTo_iff.mpr ⟨harg, harmed⟩)
  rw [hid] at this
  cases this

/-- **A call keeps `OneTimer` exactly when it meets the condition.** -/
lemma OneTimer.step_iff {s : PeriodSys} {h : ℕ} {a : PeriodCall} (ho : OneTimer s h)
    (hi : HandleInv s h) (ha : a.outcome.Valid) :
    OneTimer (periodSystem.next s a) h ↔ PeriodKept s h a := by
  have hlist := oneTimer_iff.mp ho
  by_cases hah : a.hsm = h
  · subst hah
    have hmove := periodMove (s := s) ha
    rw [oneTimer_iff]
    show tickers (osaHsmActivePeriod s a.hsm a.period a.outcome).2.timers a.hsm
      = (if ((osaHsmActivePeriod s a.hsm a.period a.outcome).2.hsm a.hsm).tickPeriod = 0 then []
        else [((osaHsmActivePeriod s a.hsm a.period a.outcome).2.hsm a.hsm).tickPeriod.toNat]) ↔ _
    generalize osaHsmActivePeriod s a.hsm a.period a.outcome = r at hmove
    cases hmove with
    | created hp hc =>
        simp only [Function.update_self, tickers_create hp, if_true, if_neg hp]
        rw [hlist]
        by_cases hzero : (s.hsm a.hsm).tickPeriod = 0 <;> simp [PeriodKept, hp, hzero, hc]
    | failed e hp hc _ =>
        simp only [Function.update_self, if_neg hp]
        rw [hlist]
        by_cases hzero : (s.hsm a.hsm).tickPeriod = 0
        · have hne : ¬ (0 : UInt32) = a.period := fun he => hp he.symm
          simp [PeriodKept, hp, hzero, hc, hne]
        · simp [PeriodKept, hp, hzero, hc, UInt32.toNat_inj]
    | stopped i hp hid hset =>
        simp only [Function.update_self, if_true]
        simp [PeriodKept, hp, hset, hi.tickers_stopped hid]
    | missed e hp hor _ =>
        simp only [Function.update_self, if_true]
        rcases hor with hid | hset
        · have hnil := hi.tickers_none hid
          have hzero : (s.hsm a.hsm).tickPeriod = 0 := by
            by_contra hne
            rw [hnil, if_neg hne] at hlist
            cases hlist
          simp [PeriodKept, hp, hnil, hzero]
        · rw [hlist]
          by_cases hzero : (s.hsm a.hsm).tickPeriod = 0 <;> simp [PeriodKept, hp, hzero, hset]
  · obtain ⟨htick, htimers⟩ := tickers_other hi ha hah
    have hkept : PeriodKept s h a := fun he => absurd he hah
    rw [oneTimer_iff, htick, htimers]
    exact ⟨fun _ => hkept, fun _ => hlist⟩

/-- A call that leaves the timers and the handles keeps the invariant. -/
lemma HandleInv.congr {s t : PeriodSys} {h : ℕ} (hi : HandleInv s h) (htimers : t.timers = s.timers)
    (hid : ∀ k, (t.hsm k).timerId = (s.hsm k).timerId) : HandleInv t h := by
  refine ⟨fun k i hk => ?_, fun i u hu hp => ?_⟩
  · rw [htimers]
    exact hi.own k i (by rw [← hid, hk])
  · rw [hid]
    exact hi.held i u (by rw [← htimers, hu]) hp

lemma timerId_update {f : ℕ → HsmTimer} {k : ℕ} {x : HsmTimer} (hx : x.timerId = (f k).timerId)
    (i : ℕ) : (Function.update f k x i).timerId = (f i).timerId := by
  by_cases hik : i = k
  · rw [hik, Function.update_self, hx]
  · rw [Function.update_of_ne hik]

/-- Calls that meet the condition keep the handles. -/
lemma HandleInv.step {s : PeriodSys} {h : ℕ} {a : PeriodCall} (ho : OneTimer s h)
    (hi : HandleInv s h) (ha : a.outcome.Valid) (hc : PeriodKept s h a) :
    HandleInv (periodSystem.next s a) h := by
  have hmove := periodMove (s := s) ha
  show HandleInv (osaHsmActivePeriod s a.hsm a.period a.outcome).2 h
  generalize osaHsmActivePeriod s a.hsm a.period a.outcome = r at hmove
  cases hmove with
  | failed e _ _ _ => exact hi.congr rfl (timerId_update rfl)
  | missed e _ _ _ => exact hi.congr rfl (timerId_update rfl)
  | stopped i _ hid _ =>
      have hids := timerId_update (f := s.hsm) (k := a.hsm)
        (x := { s.hsm a.hsm with tickPeriod := 0 }) rfl
      refine ⟨fun k j hj => ?_, fun j t ht hp => ?_⟩
      · obtain ⟨t, ht, harg⟩ := hi.own k j ((hids k).symm.trans hj)
        by_cases hij : i = j
        · exact ⟨stoppedTimer t, by simp [hij, ht], harg⟩
        · exact ⟨t, by simp [hij, ht], harg⟩
      · refine (hids h).trans ?_
        rcases getElem?_stopped ht with ⟨-, u, -, rfl⟩ | ⟨-, ht⟩
        · exact absurd (ticks_stopped u) (ticks_ne_none_iff.mpr hp)
        · exact hi.held j t ht hp
  | created hp hcreates =>
      refine ⟨fun k j hj => ?_, fun j t ht hposts => ?_⟩
      · by_cases hk : k = a.hsm
        · subst hk
          simp only [Function.update_self, Option.some.injEq] at hj
          subst hj
          exact ⟨createdTimer a.period a.hsm, by simp, rfl⟩
        · simp only [Function.update_of_ne hk] at hj
          obtain ⟨t, ht, harg⟩ := hi.own k j hj
          have hlt : j < s.timers.length := (List.getElem?_eq_some_iff.mp ht).1
          exact ⟨t, by rw [List.getElem?_append_left hlt, ht], harg⟩
      · by_cases hlt : j < s.timers.length
        · rw [List.getElem?_append_left hlt] at ht
          have hah : a.hsm ≠ h := by
            intro hah
            have hfirst := hc hah
            rw [if_pos hp] at hfirst
            obtain ⟨hzero, -⟩ := hfirst.resolve_right fun hf => hf.2 hcreates
            exact ho.armed.mp ⟨t, List.mem_of_getElem? ht, hposts⟩ hzero
          have hha : h ≠ a.hsm := fun he => hah he.symm
          simp only [Function.update_of_ne hha]
          exact hi.held j t ht hposts
        · have hj : j = s.timers.length := by
            have := (List.getElem?_eq_some_iff.mp ht).1
            rw [List.length_append, List.length_singleton] at this
            omega
          subst hj
          obtain rfl : createdTimer a.period a.hsm = t := by simpa using ht
          have harg : a.hsm = h := (postsPeriodTo_iff.mp hposts).1
          simp only [harg, Function.update_self]

/-! ### Runs -/

lemma OneTimer.initial {s : PeriodSys} (hs : periodSystem.init s) (h : ℕ) :
    OneTimer s h ∧ HandleInv s h := by
  obtain rfl : s = ⟨fun _ => ⟨none, 0⟩, []⟩ := hs
  exact ⟨oneTimer_iff.mpr rfl, ⟨fun k i hk => (by cases hk), fun i t ht => (by simp at ht)⟩⟩

/-- A call with period zero records that there is none. -/
lemma tickPeriod_off {s : PeriodSys} {a : PeriodCall} (hp : a.period = 0) :
    ((periodSystem.next s a).hsm a.hsm).tickPeriod = 0 := by
  simp [periodSystem, osaHsmActivePeriod, hp]

/-- Where the clauses hold after a call, off means off. -/
lemma OneTimer.offMeansOff {s : PeriodSys} {a : PeriodCall}
    (ho : OneTimer (periodSystem.next s a) a.hsm) : OffMeansOff s a :=
  fun hp _ t ht hposts => ho.armed.mp ⟨t, ht, hposts⟩ (tickPeriod_off hp)

/-- A call that succeeds with a period. -/
def setPeriod (h : ℕ) (period : UInt32) : PeriodCall := ⟨h, period, ⟨true, none, none⟩⟩

end OpenHsm
