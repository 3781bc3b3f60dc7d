import OpenHsm.Library.Occupancy
import OpenHsm.Platform.Queue

/-!
Lost wake-ups of the message queue.

* `available q c`: what the threads that wait on `c` wait for: messages, or free cells.
* `NoLostWakeup`: nothing is available to a blocked thread while no other thread is about
  to look again.
* `HarmlessExpiry`: a timed wait that ends with `ETIMEDOUT` after its thread was unblocked
  leaves enough unblocked threads behind.  Such a thread returns without looking again, and
  the signal it consumed is not passed on.
* `Covered`: the invariant: if a thread is blocked, the unblocked ones are at least as many
  as what is available.  Kept by every step with `HarmlessExpiry`.
* `no_lost_wakeup`: in every state of a run whose expiries are harmless no wake-up is lost,
  and a step keeps it so for all the future exactly if it is harmless.
-/

namespace OpenHsm

open Occupancy Runs

variable {k : ℕ}

/-- The other condition: the one a successful call signals. -/
def Cond.other : Cond → Cond
  | .condSend => .condRecv
  | .condRecv => .condSend

/-- The free cells, or the messages. -/
def available (q : OsaQueue) : Cond → ℤ
  | .condSend => q.maxMsgs - q.count
  | .condRecv => q.count

/-- A thread is blocked on the condition. -/
def SomeBlocked (s : QueueSys k) (c : Cond) : Prop := ∃ i, (s.pc i).At c .blocked

instance (s : QueueSys k) (c : Cond) : Decidable (SomeBlocked s c) :=
  inferInstanceAs (Decidable (∃ i, (s.pc i).At c .blocked))

/-- The threads unblocked from the condition and about to look again. -/
def wokenCount (s : QueueSys k) (c : Cond) : ℕ := occupancy (CallPc.At c .woken) s.pc

/-- No thread is blocked while there is something for it and no other thread is about to
look. -/
def NoLostWakeup (s : QueueSys k) : Prop :=
  ∀ c, 0 < available s.queue c → SomeBlocked s c → ∃ i, (s.pc i).At c .woken

/-- A timed wait whose thread was unblocked ends with `ETIMEDOUT` only if no thread is
blocked on the condition or the other unblocked threads are enough. -/
def HarmlessExpiry (s : QueueSys k) : QueueAct k → Prop
  | .expire i => ∀ w ∈ (s.pc i).wait, w.2.1 = .woken →
      ¬ SomeBlocked s w.1 ∨ available s.queue w.1 < wokenCount s w.1
  | _ => True

instance (s : QueueSys k) (a : QueueAct k) : Decidable (HarmlessExpiry s a) := by
  induction a using QueueAct.casesOn <;> (dsimp only [HarmlessExpiry]; infer_instance)

/-- The unblocked threads are enough for what is available to the blocked ones. -/
def Covered (s : QueueSys k) : Prop :=
  ∀ c, SomeBlocked s c → available s.queue c ≤ wokenCount s c

lemma Covered.noLostWakeup {s : QueueSys k} (h : Covered s) : NoLostWakeup s := by
  intro c hav hb
  have hle := h c hb
  have hpos : 0 < wokenCount s c := by omega
  exact occupancy_pos_iff.mp hpos

/-! ### Places -/

@[simp] lemma not_at_idle (c : Cond) (p : Place) : ¬ CallPc.idle.At c p := by
  rintro ⟨t, ht⟩
  cases ht

@[simp] lemma at_sending {c : Cond} {p p' : Place} {msg : List UInt8} {t : ℤ} :
    (CallPc.sending msg t p').At c p ↔ c = .condSend ∧ p' = p := by
  constructor
  · rintro ⟨t', ht⟩
    cases ht
    exact ⟨rfl, rfl⟩
  · rintro ⟨rfl, rfl⟩
    exact ⟨t, rfl⟩

@[simp] lemma at_receiving {c : Cond} {p p' : Place} {t : ℤ} :
    (CallPc.receiving t p').At c p ↔ c = .condRecv ∧ p' = p := by
  constructor
  · rintro ⟨t', ht⟩
    cases ht
    exact ⟨rfl, rfl⟩
  · rintro ⟨rfl, rfl⟩
    exact ⟨t, rfl⟩

lemma at_moveTo {x : CallPc} {c : Cond} {p p' : Place} :
    (x.moveTo p).At c p' ↔ p = p' ∧ ∃ p'', x.At c p'' := by
  cases x <;> simp [CallPc.moveTo]
  all_goals tauto

lemma CallPc.At.unique {x : CallPc} {c c' : Cond} {p p' : Place} (h : x.At c p)
    (h' : x.At c' p') : c' = c ∧ p' = p := by
  obtain ⟨t, ht⟩ := h
  obtain ⟨t', ht'⟩ := h'
  rw [ht] at ht'
  cases ht'
  exact ⟨rfl, rfl⟩

/-- A signal of one condition leaves the threads of the other. -/
lemma unblock_at_other {pc : Fin k → CallPc} {c : Cond} {wake : Finset (Fin k)}
    (h : Signals pc c.other wake) (i : Fin k) (p : Place) :
    (unblock pc wake i).At c p ↔ (pc i).At c p := by
  simp only [unblock]
  split
  · next hi =>
    have hother : ∀ p', ¬ (pc i).At c p' := by
      intro p' hp'
      have := (hp'.unique (h.1 i hi)).1
      cases c <;> cases this
    simp only [at_moveTo, hother, exists_false, and_false]
  · rfl

lemma occupancy_unblock_other {pc : Fin k → CallPc} {c : Cond} {wake : Finset (Fin k)}
    (h : Signals pc c.other wake) (p : Place) :
    occupancy (CallPc.At c p) (unblock pc wake) = occupancy (CallPc.At c p) pc :=
  le_antisymm (occupancy_mono fun i => (unblock_at_other h i p).mp)
    (occupancy_mono fun i => (unblock_at_other h i p).mpr)

lemma unblock_empty (pc : Fin k → CallPc) : unblock pc ∅ = pc := by
  funext i
  simp [unblock]

/-! ### The invariant -/

/-- One thread moves and the queue stays.  A thread blocks only where nothing is available,
and one that was unblocked leaves only where the others are enough. -/
lemma Covered.move {s t : QueueSys k} (h : Covered s) {i : Fin k} {x : CallPc}
    (hpc : t.pc = Function.update s.pc i x) (hq : t.queue = s.queue)
    (hb : ∀ c, x.At c .blocked → (s.pc i).At c .blocked ∨ available s.queue c ≤ 0)
    (hw : ∀ c, (s.pc i).At c .woken → x.At c .woken ∨ available s.queue c ≤ 0 ∨
      ¬ SomeBlocked s c ∨ available s.queue c < wokenCount s c) : Covered t := by
  rintro c ⟨j, hj⟩
  rw [hq]
  by_cases hav : available s.queue c ≤ 0
  · exact hav.trans (Int.natCast_nonneg _)
  have hblocked : SomeBlocked s c := by
    rw [hpc] at hj
    by_cases hji : j = i
    · subst hji
      rw [Function.update_self] at hj
      exact ⟨j, (hb c hj).resolve_right hav⟩
    · rw [Function.update_of_ne hji] at hj
      exact ⟨j, hj⟩
  have hle := h c hblocked
  have hcount : wokenCount t c = occupancy (CallPc.At c .woken) (Function.update s.pc i x) := by
    rw [wokenCount, hpc]
  simp only [wokenCount] at hle hw
  rw [hcount]
  by_cases hold : (s.pc i).At c .woken
  · by_cases hnew : x.At c .woken
    · rw [occupancy_keep (iff_of_true hnew hold)]
      exact hle
    · have hleave := occupancy_leave (P := CallPc.At c .woken) hold hnew
      rcases hw c hold with hx | hx | hx | hx
      · exact absurd hx hnew
      · exact absurd hx hav
      · exact absurd hblocked hx
      · omega
  · by_cases hnew : x.At c .woken
    · rw [occupancy_enter hold hnew]
      push_cast
      omega
    · rw [occupancy_keep (iff_of_false hnew hold)]
      exact hle

/-- What a successful call of the threads that wait on `c` does to the queue. -/
structure Takes (c : Cond) (q q' : OsaQueue) : Prop where
  own : available q' c = available q c - 1
  other : available q' c.other = available q c.other + 1
  closed : q'.closed = q.closed

/-- A call succeeds: the thread was at no other place than unblocked from `c`, and the
other condition is signalled. -/
lemma Covered.take {s t : QueueSys k} (h : Covered s) {c : Cond} {i : Fin k}
    {wake : Finset (Fin k)} (hi : ∀ c' p, (s.pc i).At c' p → c' = c ∧ p = .woken)
    (hsig : Signals s.pc c.other wake) (hq : Takes c s.queue t.queue)
    (hpc : t.pc = Function.update (unblock s.pc wake) i .idle) : Covered t := by
  have hi' : ∀ c' p, (unblock s.pc wake i).At c' p → c' = c ∧ p = .woken := by
    intro c' p hp
    have hnot : i ∉ wake := by
      intro hmem
      have := (hi _ _ (hsig.1 i hmem)).1
      cases c <;> cases this
    rw [unblock, if_neg hnot] at hp
    exact hi c' p hp
  have hback : ∀ c' j, (t.pc j).At c' .blocked → (unblock s.pc wake j).At c' .blocked := by
    intro c' j hj
    rw [hpc] at hj
    by_cases hji : j = i
    · subst hji
      rw [Function.update_self] at hj
      exact (not_at_idle _ _ hj).elim
    · rwa [Function.update_of_ne hji] at hj
  intro c' hb
  rcases eq_or_ne c' c with rfl | hne
  · -- the caller may have been one of the unblocked threads, and took what it waited for
    obtain ⟨j, hj⟩ := hb
    have hle := h c' ⟨j, (unblock_at_other hsig j .blocked).mp (hback c' j hj)⟩
    have hcount : wokenCount s c' ≤ wokenCount t c' + 1 := by
      have hupd := occupancy_update (P := CallPc.At c' .woken) (f := unblock s.pc wake) (i := i)
        (a := .idle)
      rw [occupancy_unblock_other hsig, ← hpc] at hupd
      change wokenCount t c' + _ = wokenCount s c' + _ at hupd
      split at hupd <;> split at hupd <;> omega
    rw [hq.own]
    omega
  · -- a thread that is still blocked was blocked before, so one was unblocked
    obtain rfl : c' = c.other := by cases c <;> cases c' <;> simp_all [Cond.other]
    obtain ⟨j, hj⟩ := hb
    have hjs := hback _ j hj
    have hblocked : (s.pc j).At c.other .blocked := by
      simp only [unblock] at hjs
      split at hjs
      · exact absurd (at_moveTo.mp hjs).1 (by simp)
      · exact hjs
    have hle := h c.other ⟨j, hblocked⟩
    obtain ⟨v, hv⟩ := hsig.2 ⟨j, hblocked⟩
    have hvi : v ≠ i := by
      rintro rfl
      have := (hi _ _ (hsig.1 v hv)).1
      cases c <;> cases this
    have hlt : wokenCount s c.other < wokenCount t c.other := by
      refine occupancy_lt (i := v) (fun u hu => ?_) (fun hw => ?_) ?_
      · have hui : u ≠ i := by
          rintro rfl
          have := (hi _ _ hu).1
          cases c <;> cases this
        have hnot : u ∉ wake := by
          intro hmem
          cases (hu.unique (hsig.1 u hmem)).2
        rw [hpc, Function.update_of_ne hui, unblock, if_neg hnot]
        exact hu
      · cases (hw.unique (hsig.1 v hv)).2
      · rw [hpc, Function.update_of_ne hvi, unblock, if_pos hv]
        exact at_moveTo.mpr ⟨rfl, _, hsig.1 v hv⟩
    rw [hq.other]
    omega

/-! ### Steps -/

lemma writeMessage_takes (q : OsaQueue) (msg : List UInt8) :
    Takes .condSend q (writeMessage q msg) where
  own := by simp only [available, writeMessage]; omega
  other := rfl
  closed := rfl

lemma dropMessage_takes (q : OsaQueue) : Takes .condRecv q (dropMessage q) where
  own := rfl
  other := by simp only [Cond.other, available, dropMessage]; omega
  closed := rfl

/-- The invariant of the runs without a destroy. -/
structure WakeInv (s : QueueSys k) : Prop where
  covered : Covered s
  isOpen : s.queue.closed = false

lemma WakeInv.initial {s : QueueSys k} (h : QueueInitial s) : WakeInv s := by
  obtain ⟨⟨name, msgSize, maxMsgs, hq⟩, hpc, -⟩ := h
  refine ⟨?_, ?_⟩
  · rintro c ⟨i, hi⟩
    rw [hpc] at hi
    exact (not_at_idle _ _ hi).elim
  · simp only [osaQueueCreate] at hq
    split at hq
    · cases hq
    · have hnew : newQueue name msgSize maxMsgs = s.queue := by simpa using hq
      rw [← hnew]
      rfl

/-- A call that fails at once. -/
lemma WakeInv.fail {s t : QueueSys k} (h : WakeInv s) {i : Fin k} (hi : s.pc i = .idle)
    (hq : t.queue = s.queue) (hpc : t.pc = Function.update (unblock s.pc ∅) i .idle) :
    WakeInv t := by
  rw [unblock_empty, ← hi, Function.update_eq_self] at hpc
  have hsame : ∀ c, wokenCount t c = wokenCount s c := fun c => by rw [wokenCount, hpc, wokenCount]
  refine ⟨fun c hb => ?_, hq ▸ h.isOpen⟩
  rw [hq, hsame]
  exact h.covered c (by simpa only [SomeBlocked, hpc] using hb)

/-- A call that waits where nothing is available. -/
lemma WakeInv.wait {s t : QueueSys k} (h : WakeInv s) {c : Cond} {i : Fin k} {x : CallPc}
    (hi : ∀ c' p, (s.pc i).At c' p → c' = c ∧ p = .woken) (hx : ∀ c' p, x.At c' p → c' = c)
    (hav : available s.queue c ≤ 0) (hpc : t.pc = Function.update s.pc i x)
    (hq : t.queue = s.queue) : WakeInv t := by
  refine ⟨h.covered.move hpc hq (fun c' hb => ?_) (fun c' hw => ?_), hq ▸ h.isOpen⟩
  · obtain rfl := hx c' _ hb
    exact Or.inr hav
  · obtain rfl := (hi c' _ hw).1
    exact Or.inr (Or.inl hav)

/-- A call that succeeds. -/
lemma WakeInv.take {s t : QueueSys k} (h : WakeInv s) {c : Cond} {i : Fin k}
    {wake : Finset (Fin k)} (hi : ∀ c' p, (s.pc i).At c' p → c' = c ∧ p = .woken)
    (hsig : Signals s.pc c.other wake) (hq : Takes c s.queue t.queue)
    (hpc : t.pc = Function.update (unblock s.pc wake) i .idle) : WakeInv t :=
  ⟨h.covered.take hi hsig hq hpc, hq.closed.trans h.isOpen⟩

/-- Who comes to a segment of a call on the condition `c`. -/
lemma place_of_idle {s : QueueSys k} {i : Fin k} (hi : s.pc i = .idle) (c : Cond) :
    ∀ c' p, (s.pc i).At c' p → c' = c ∧ p = .woken := by
  intro c' p hp
  rw [hi] at hp
  exact (not_at_idle _ _ hp).elim

/-- **The invariant is kept** by every step that is harmless. -/
lemma WakeInv.step {s : QueueSys k} {a : QueueAct k} (h : WakeInv s) (ha : queueEnabled s a)
    (hc : HarmlessExpiry s a) : WakeInv (queueNext s a) := by
  have hopen := h.isOpen
  cases a with
  | send i msg msgLen tm wake =>
      obtain ⟨hi, -, hsig⟩ := ha
      rcases sendEnter_cases s.queue msg msgLen tm with
        ⟨ret, hret, hr⟩ | ⟨m, rfl, -, -, ⟨hfull, hr⟩ | ⟨-, hr⟩⟩
      · simp only [hr, Option.map_some, SignalsIf, if_neg hret] at hsig
        subst hsig
        simp only [queueNext, hr, afterSend]
        exact h.fail hi rfl rfl
      · simp only [queueNext, hr, afterSend]
        exact h.wait (place_of_idle hi .condSend) (fun c' p hx => (at_sending.mp hx).1)
          (sub_nonpos.mpr hfull) rfl rfl
      · rw [hr] at hsig
        simp only [queueNext, hr, afterSend]
        exact h.take (place_of_idle hi .condSend) hsig (writeMessage_takes s.queue m) rfl
  | receive i haveMsg msgLen tm wake =>
      obtain ⟨hi, hsig⟩ := ha
      rcases receiveEnter_cases s.queue haveMsg msgLen tm with
        ⟨ret, hret, hr⟩ | ⟨-, hempty, hr⟩ | ⟨-, hr⟩
      · simp only [hr, Option.map_some, SignalsIf, if_neg hret] at hsig
        subst hsig
        simp only [queueNext, hr, afterReceive]
        exact h.fail hi rfl rfl
      · simp only [queueNext, hr, afterReceive]
        exact h.wait (place_of_idle hi .condRecv) (fun c' p hx => (at_receiving.mp hx).1)
          hempty.le rfl rfl
      · rw [hr] at hsig
        simp only [queueNext, hr, afterReceive]
        exact h.take (place_of_idle hi .condRecv) hsig (dropMessage_takes s.queue) rfl
  | resume i wake =>
      cases hi : s.pc i with
      | idle => simp [queueEnabled, hi] at ha
      | sending msg tm p =>
          obtain rfl := (woken_of_resume ha).1 msg tm p hi
          have hplace : ∀ c' p, (s.pc i).At c' p → c' = .condSend ∧ p = .woken := by
            intro c' p hp
            rw [hi, at_sending] at hp
            exact ⟨hp.1, hp.2.symm⟩
          rcases sendResume_cases s.queue msg with ⟨-, hfull, hr⟩ | ⟨hclosed, -⟩ | ⟨-, -, hr⟩
          · simp only [queueNext, hi, hr, afterSend]
            exact h.wait hplace (fun c' p hx => (at_sending.mp hx).1) (sub_nonpos.mpr hfull) rfl rfl
          · rw [hopen] at hclosed; cases hclosed
          · simp only [queueEnabled, hi, hr] at ha
            simp only [queueNext, hi, hr, afterSend]
            exact h.take hplace ha (writeMessage_takes s.queue msg) rfl
      | receiving tm p =>
          obtain rfl := (woken_of_resume ha).2 tm p hi
          have hplace : ∀ c' p, (s.pc i).At c' p → c' = .condRecv ∧ p = .woken := by
            intro c' p hp
            rw [hi, at_receiving] at hp
            exact ⟨hp.1, hp.2.symm⟩
          rcases receiveResume_cases s.queue with ⟨-, hempty, hr⟩ | ⟨hclosed, -, -⟩ | ⟨-, hr⟩
          · simp only [queueNext, hi, hr, afterReceive]
            exact h.wait hplace (fun c' p hx => (at_receiving.mp hx).1) hempty.le rfl rfl
          · rw [hopen] at hclosed; cases hclosed
          · simp only [queueEnabled, hi, hr] at ha
            simp only [queueNext, hi, hr, afterReceive]
            exact h.take hplace ha (dropMessage_takes s.queue) rfl
  | wakeUp i =>
      refine ⟨h.covered.move (i := i) rfl rfl (fun c hb => ?_) (fun c hw => ?_), h.isOpen⟩
      · cases (at_moveTo.mp hb).1
      · exact Or.inl (at_moveTo.mpr ⟨rfl, _, hw⟩)
  | expire i =>
      refine ⟨h.covered.move (i := i) rfl rfl (fun c hb => ?_) (fun c hw => ?_), h.isOpen⟩
      · cases (at_moveTo.mp hb).1
      · obtain ⟨t, ht⟩ := hw
        exact Or.inr (Or.inr (hc _ ht rfl))
  | leave i =>
      refine ⟨h.covered.move (i := i) rfl rfl (fun c hb => ?_) (fun c hw => ?_), h.isOpen⟩
      · exact (not_at_idle _ _ hb).elim
      · obtain ⟨t, ht⟩ := hw
        simp [queueEnabled, ht] at ha

/-! ### Runs -/

/-- Some threads can always be chosen for a signal. -/
lemma exists_signals (pc : Fin k → CallPc) (c : Cond) : ∃ wake, Signals pc c wake := by
  refine ⟨Finset.univ.filter fun i => (pc i).At c .blocked, fun i hi => ?_, fun ⟨i, hi⟩ => ?_⟩
  · exact (Finset.mem_filter.mp hi).2
  · exact ⟨i, Finset.mem_filter.mpr ⟨Finset.mem_univ i, hi⟩⟩

/-- An unblocked thread that looks again where something is available succeeds. -/
lemma resume_takes {s : QueueSys k} (hopen : s.queue.closed = false) {c : Cond} {i : Fin k}
    (hi : (s.pc i).At c .woken) (hav : 0 < available s.queue c) {wake : Finset (Fin k)}
    (hsig : Signals s.pc c.other wake) :
    queueEnabled s (.resume i wake) ∧ Takes c s.queue (queueNext s (.resume i wake)).queue ∧
      (queueNext s (.resume i wake)).pc = Function.update (unblock s.pc wake) i .idle := by
  cases hpc : s.pc i with
  | idle =>
      rw [hpc] at hi
      exact (not_at_idle _ _ hi).elim
  | sending msg tm p =>
      rw [hpc] at hi
      obtain ⟨rfl, rfl⟩ := at_sending.mp hi
      rcases sendResume_cases s.queue msg with ⟨-, hfull, -⟩ | ⟨hclosed, -⟩ | ⟨-, -, hr⟩
      · simp only [available] at hav
        omega
      · rw [hopen] at hclosed; cases hclosed
      · simp only [queueEnabled, queueNext, hpc, hr, afterSend]
        exact ⟨hsig, writeMessage_takes s.queue msg, trivial⟩
  | receiving tm p =>
      rw [hpc] at hi
      obtain ⟨rfl, rfl⟩ := at_receiving.mp hi
      rcases receiveResume_cases s.queue with ⟨-, hempty, -⟩ | ⟨hclosed, -, -⟩ | ⟨-, hr⟩
      · simp only [available] at hav
        omega
      · rw [hopen] at hclosed; cases hclosed
      · simp only [queueEnabled, queueNext, hpc, hr, afterReceive]
        exact ⟨hsig, dropMessage_takes s.queue, trivial⟩

/-- Where the unblocked threads are not enough they may all succeed, and then a blocked one
is left with something available. -/
lemma lost_of_uncovered {c : Cond} {m : ℕ} {s : QueueSys k} (hopen : s.queue.closed = false)
    (hm : wokenCount s c = m) (hb : SomeBlocked s c) (hlt : (m : ℤ) < available s.queue c) :
    ∃ l t, ((queueSystem k).restrict HarmlessExpiry).RunFrom s l t ∧ ¬ NoLostWakeup t := by
  induction m generalizing s with
  | zero =>
      refine ⟨[], s, .refl, fun hsafe => ?_⟩
      exact occupancy_eq_zero_iff.mp hm _ (hsafe c hlt hb).choose_spec
  | succ m ih =>
      obtain ⟨i, hi⟩ : ∃ i, (s.pc i).At c .woken :=
        occupancy_pos_iff.mp (by rw [wokenCount] at hm; omega)
      obtain ⟨wake, hsig⟩ := exists_signals s.pc c.other
      push_cast at hlt
      obtain ⟨hen, hq, hpc⟩ := resume_takes hopen hi (by omega) hsig
      have hat : (unblock s.pc wake i).At c .woken := (unblock_at_other hsig i .woken).mpr hi
      obtain ⟨j, hj⟩ := hb
      have hji : j ≠ i := by
        rintro rfl
        cases (hj.unique hi).2
      have hleave := occupancy_leave (P := CallPc.At c .woken) hat (not_at_idle c .woken)
      rw [occupancy_unblock_other hsig, ← hpc] at hleave
      change wokenCount _ c + 1 = wokenCount s c at hleave
      obtain ⟨l, t, hl, ht⟩ := ih (s := queueNext s (.resume i wake)) (hq.closed.trans hopen)
        (by omega)
        ⟨j, by rw [hpc, Function.update_of_ne hji]; exact (unblock_at_other hsig j .blocked).mpr hj⟩
        (by rw [hq.own]; omega)
      have hstep : ((queueSystem k).restrict HarmlessExpiry).enabled s (.resume i wake) :=
        ⟨hen, trivial⟩
      exact ⟨_, t, .cons hstep hl, ht⟩

/-- A step of a run whose expiries are harmless. -/
lemma WakeInv.restrict_step (s : QueueSys k) (a : QueueAct k) (h : WakeInv s)
    (ha : ((queueSystem k).restrict HarmlessExpiry).enabled s a) :
    WakeInv (((queueSystem k).restrict HarmlessExpiry).next s a) := h.step ha.1 ha.2

/-- **No wake-up is lost** in a run whose expiries are harmless, and a step is safe for all
such continuations exactly if it is harmless itself. -/
theorem no_lost_wakeup {s : QueueSys k}
    (h : ((queueSystem k).restrict HarmlessExpiry).Reachable s) :
    NoLostWakeup s ∧ ∀ a, queueEnabled s a →
      ((∀ l t, ((queueSystem k).restrict HarmlessExpiry).RunFrom (queueNext s a) l t →
        NoLostWakeup t) ↔ HarmlessExpiry s a) := by
  have hinv : WakeInv s :=
    h.invariant (P := WakeInv) (fun _ h0 => WakeInv.initial h0) WakeInv.restrict_step
  refine ⟨hinv.covered.noLostWakeup, fun a ha => ⟨fun hall => ?_, fun hc l t hl => ?_⟩⟩
  · by_contra hnot
    cases a with
    | expire i =>
        simp only [HarmlessExpiry, not_forall, not_or, not_not, not_lt] at hnot
        obtain ⟨⟨c, p, tm⟩, hi, rfl, ⟨j, hj⟩,
          (hle : (wokenCount s c : ℤ) ≤ available s.queue c)⟩ := hnot
        have hat : (s.pc i).At c .woken := ⟨tm, hi⟩
        have hji : j ≠ i := by
          rintro rfl
          cases (hj.unique hat).2
        have hgone : ¬ ((s.pc i).moveTo .expired).At c .woken := fun hx => by
          cases (at_moveTo.mp hx).1
        have hleave := occupancy_leave (P := CallPc.At c .woken) hat hgone
        change wokenCount (queueNext s (.expire i)) c + 1 = wokenCount s c at hleave
        obtain ⟨l, t, hl, ht⟩ := lost_of_uncovered (s := queueNext s (.expire i))
          hinv.isOpen rfl ⟨j, by simpa [queueNext, hji] using hj⟩
          (by change _ < available s.queue c; omega)
        exact ht (hall l t hl)
    | _ => exact hnot trivial
  · have hstep := hinv.step ha hc
    exact (hl.invariant (P := WakeInv) WakeInv.restrict_step hstep).covered.noLostWakeup

/-- Two receivers wait, one of them with a timeout; the send unblocks the other one, and the
timed wait ends while its thread is still blocked. -/
theorem blocked_wait_expires_harmlessly :
    ∃ s : QueueSys 3, ((queueSystem 3).restrict HarmlessExpiry).Reachable s ∧
      s.log = [.failed 0 (-eTIMEDOUT), .received 1 [9], .sent 2 [9]] ∧ NoLostWakeup s := by
  obtain ⟨s, hs, hlog⟩ :
      ∃ s : QueueSys 3, ((queueSystem 3).restrict HarmlessExpiry).Reachable s ∧
        s.log = [.failed 0 (-eTIMEDOUT), .received 1 [9], .sent 2 [9]] :=
    System.reachable_of_replay (queueStart_initial (by decide) (by decide) :
        QueueInitial (queueStart 3 1 2))
      [.receive 0 true 1 5 ∅, .receive 1 true 1 (-1) ∅, .send 2 (some [9]) 1 0 {1}, .resume 1 ∅,
        .expire 0, .leave 0]
      (by decide)
  exact ⟨s, hs, hlog, (no_lost_wakeup hs).1⟩

/-- **A timed receiver swallows a wake-up.**  It is unblocked by the only signal, its wait
ends with `ETIMEDOUT` all the same and it returns without looking again: the message stays
in the queue, and the other receiver stays blocked. -/
theorem timed_receiver_swallows_wakeup :
    ∃ s : QueueSys 3, (queueSystem 3).Reachable s ∧
      s.log = [.failed 0 (-eTIMEDOUT), .sent 2 [9]] ∧ s.queue.count = 1 ∧
      s.pc = ![.idle, .receiving (-1) .blocked, .idle] ∧ ¬ NoLostWakeup s := by
  obtain ⟨s, hs, hlog, hcount, hpc⟩ :
      ∃ s : QueueSys 3, (queueSystem 3).Reachable s ∧
        s.log = [.failed 0 (-eTIMEDOUT), .sent 2 [9]] ∧ s.queue.count = 1 ∧
        s.pc = ![.idle, .receiving (-1) .blocked, .idle] :=
    System.reachable_of_replay (queueStart_initial (by decide) (by decide) :
        QueueInitial (queueStart 3 1 2))
      [.receive 0 true 1 5 ∅, .receive 1 true 1 (-1) ∅, .send 2 (some [9]) 1 0 {0}, .expire 0,
        .leave 0]
      (by decide)
  refine ⟨s, hs, hlog, hcount, hpc, fun hsafe => ?_⟩
  obtain ⟨i, hi⟩ := hsafe .condRecv (by simp [available, hcount]) ⟨1, by simp [hpc]⟩
  rw [hpc] at hi
  fin_cases i <;> simp at hi

end OpenHsm
