import OpenHsm.Library.Runs
import OpenHsm.Platform.Timer

/-!
The notification threads of the timers.  Each expiry of a POSIX timer starts a thread that runs
`posix_timer_callback`, at any later time; `timer_settime` and `timer_delete` do not wait for
those that were started.

* `NotePc`, `Note`, `CallerPc`, `NoteSys`, `noteSystem`: the notifications that were started,
  and `osa_timer_stop` and `osa_timer_delete` in their two parts, before and after the call into
  the kernel.
* `SafeFor`: no notification of a timer reads its structure once it is freed, or calls back once
  one of the two functions has returned `0`.
* `AllFinished`, `Ended`, `ended_step`: all notifications of a timer have called back, and it is
  disarmed, which it stays.
* `NoteInv`, `noteInv_step`: what holds along every run.
* `timer_silent_iff`: a timer is silent after a return exactly if its notifications have
  finished by then.  `late_notification` is one that has not.
-/

namespace OpenHsm

open Runs

/-! ### The system -/

/-- Where a notification thread is in `posix_timer_callback`. -/
inductive NotePc where
  | started
  /-- `timer->callback` and `timer->arg` are read. -/
  | loaded (arg : ℕ)
  | finished
  deriving DecidableEq, Repr

/-- A notification thread of a timer. -/
structure Note where
  timer : ℕ
  pc : NotePc
  deriving DecidableEq, Repr

/-- Where the caller of `osa_timer_stop` or `osa_timer_delete` is. -/
inductive CallerPc where
  | outside
  /-- Past `timer_settime`. -/
  | stopping
  /-- Past `timer_delete`. -/
  | deleting
  deriving DecidableEq, Repr

/-- The timers that were created, the notifications that were started, and for each timer the
call that is in it, whether a stop or delete of it has returned `0`, and whether it is freed. -/
structure NoteSys where
  timers : List OsaTimerImpl
  notes : List Note
  caller : ℕ → CallerPc
  returned : ℕ → Bool
  freed : ℕ → Bool

/-- One step.  An `errno` is what the call into the kernel fails with. -/
inductive NoteAct where
  | create (periodMs : UInt32) (cycle : Bool) (arg : ℕ) (o : TimerOutcome)
  /-- The timer expires, and its notification thread starts. -/
  | expire (i : ℕ)
  /-- Notification `k` reads the structure. -/
  | read (k : ℕ)
  /-- It calls the callback of the user. -/
  | call (k : ℕ)
  | stop (i : ℕ) (errno : Option Int)
  | stopReturn (i : ℕ)
  | delete (i : ℕ) (errno : Option Int)
  | deleteReturn (i : ℕ)
  deriving DecidableEq, Repr

/-- The handle of a timer may be used: it was created, it is not freed, and no other call is in
it. -/
def NoteSys.Usable (s : NoteSys) (i : ℕ) : Prop :=
  i < s.timers.length ∧ s.freed i = false ∧ s.caller i = .outside

instance (s : NoteSys) (i : ℕ) : Decidable (s.Usable i) := inferInstanceAs (Decidable (_ ∧ _ ∧ _))

/-- When a step can be taken. -/
def noteEnabled (s : NoteSys) : NoteAct → Prop
  | .create _ _ _ _ => True
  | .expire i => ∃ t ∈ s.timers[i]?, t.armed ≠ none
  | .read k => ∃ x ∈ s.notes[k]?, x.pc = .started
  | .call k => ∃ x ∈ s.notes[k]?, x.pc ≠ .started ∧ x.pc ≠ .finished
  | .stop i _ | .delete i _ => s.Usable i
  | .stopReturn i => s.caller i = .stopping
  | .deleteReturn i => s.caller i = .deleting

instance (s : NoteSys) (a : NoteAct) : Decidable (noteEnabled s a) :=
  match a with
  | .create _ _ _ _ => isTrue trivial
  | .expire i => inferInstanceAs (Decidable (∃ t ∈ s.timers[i]?, t.armed ≠ none))
  | .read k => inferInstanceAs (Decidable (∃ x ∈ s.notes[k]?, x.pc = .started))
  | .call k =>
      inferInstanceAs (Decidable (∃ x ∈ s.notes[k]?, x.pc ≠ .started ∧ x.pc ≠ .finished))
  | .stop i _ | .delete i _ => inferInstanceAs (Decidable (s.Usable i))
  | .stopReturn i => inferInstanceAs (Decidable (s.caller i = .stopping))
  | .deleteReturn i => inferInstanceAs (Decidable (s.caller i = .deleting))

/-- What an expiry leaves armed: a timer without an interval runs once. -/
def OsaTimerImpl.expired (t : OsaTimerImpl) : OsaTimerImpl :=
  { t with armed := t.armed.bind fun its => if its.interval = (0, 0) then none else some its }

/-- The call into the kernel disarms the timer. -/
def OsaTimerImpl.disarmed (t : OsaTimerImpl) : OsaTimerImpl := { t with armed := none }

/-- The effect of a step.  Freed memory keeps what was in it. -/
def noteNext (s : NoteSys) : NoteAct → NoteSys
  | .create periodMs cycle arg o =>
      { s with timers := (osaTimerCreate s.timers periodMs cycle arg o).2.2 }
  | .expire i =>
      { s with timers := s.timers.modify i (·.expired), notes := s.notes ++ [⟨i, .started⟩] }
  | .read k =>
      { s with
        notes := s.notes.modify k fun x =>
          { x with pc := .loaded ((s.timers[x.timer]?.map (·.arg)).getD 0) } }
  | .call k => { s with notes := s.notes.modify k fun x => { x with pc := .finished } }
  | .stop _ (some _) | .delete _ (some _) => s
  | .stop i none =>
      { s with
        timers := s.timers.modify i (·.disarmed)
        caller := Function.update s.caller i .stopping }
  | .stopReturn i =>
      { s with
        timers := s.timers.modify i fun t => { t with active := false }
        caller := Function.update s.caller i .outside
        returned := Function.update s.returned i true }
  | .delete i none =>
      { s with
        timers := s.timers.modify i (·.disarmed)
        caller := Function.update s.caller i .deleting }
  | .deleteReturn i =>
      { s with
        caller := Function.update s.caller i .outside
        returned := Function.update s.returned i true
        freed := Function.update s.freed i true }

/-- The timers and their notifications. -/
def noteSystem : System NoteSys NoteAct where
  init s := s.timers = [] ∧ s.notes = [] ∧ s.caller = (fun _ => .outside) ∧
    s.returned = (fun _ => false) ∧ s.freed = fun _ => false
  enabled := noteEnabled
  next := noteNext

instance (s : NoteSys) (a : NoteAct) : Decidable (noteSystem.enabled s a) :=
  inferInstanceAs (Decidable (noteEnabled s a))

/-- The two parts of a stop are `osa_timer_stop`. -/
lemma stop_eq (s : NoteSys) (i : ℕ) (o : TimerOutcome) (ho : o.timerSettime = none) :
    (noteNext (noteNext s (.stop i none)) (.stopReturn i)).timers
      = (osaTimerStop s.timers (some i) o).2 := by
  rw [osaTimerStop_of_stops ho]
  simp only [noteNext, List.modify_modify_eq]
  rfl

/-! ### What is asked -/

/-- The step is a read or a call of a notification of the timer. -/
def NoteOf (s : NoteSys) (i k : ℕ) : Prop := ∃ x ∈ s.notes[k]?, x.timer = i

/-- Along the run no notification of the timer reads its structure once it is freed, and none
calls back once a stop or delete of it has returned `0`. -/
structure SafeFor (i : ℕ) (l : List (NoteSys × NoteAct)) : Prop where
  read : ∀ s k, (s, .read k) ∈ l → NoteOf s i k → s.freed i = false
  call : ∀ s k, (s, .call k) ∈ l → NoteOf s i k → s.returned i = false

/-- All notifications of the timer have called back. -/
def AllFinished (s : NoteSys) (i : ℕ) : Prop := ∀ x ∈ s.notes, x.timer = i → x.pc = .finished

instance (s : NoteSys) (i : ℕ) : Decidable (AllFinished s i) :=
  inferInstanceAs (Decidable (∀ x ∈ s.notes, _))

/-- The timer whose stop or delete returns `0` with the step. -/
def NoteAct.returns : NoteAct → Option ℕ
  | .stopReturn i | .deleteReturn i => some i
  | .create _ _ _ _ | .expire _ | .read _ | .call _ | .stop _ _ | .delete _ _ => none

/-- A stop or delete returns `0` when all notifications of its timer have called back. -/
def ReturnsLast (s : NoteSys) (a : NoteAct) : Prop := ∀ i ∈ a.returns, AllFinished s i

instance (s : NoteSys) (a : NoteAct) : Decidable (ReturnsLast s a) :=
  inferInstanceAs (Decidable (∀ i ∈ a.returns, AllFinished s i))

/-! ### A timer that has ended -/

/-- The timer is disarmed, and all its notifications have called back. -/
structure Ended (s : NoteSys) (i : ℕ) : Prop where
  created : i < s.timers.length
  armed : ∀ t ∈ s.timers[i]?, t.armed = none
  finished : AllFinished s i

lemma mem_of_mem_modify {α : Type*} {l : List α} {k : ℕ} {f : α → α} {y : α}
    (h : y ∈ l.modify k f) : y ∈ l ∨ ∃ x ∈ l[k]?, y = f x := by
  obtain ⟨m, hm⟩ := List.mem_iff_getElem?.mp h
  rw [List.getElem?_modify] at hm
  obtain ⟨x, hx, hy⟩ := Option.map_eq_some_iff.mp hm
  by_cases hk : k = m
  · rw [if_pos hk] at hy
    exact Or.inr ⟨x, by rw [hk]; exact hx, hy.symm⟩
  · rw [if_neg hk] at hy
    exact Or.inl (hy ▸ List.mem_of_getElem? hx)

/-- Nothing but a new timer is armed. -/
lemma armed_modify {ts : List OsaTimerImpl} {f : OsaTimerImpl → OsaTimerImpl} {i j : ℕ}
    (hf : ∀ t, t.armed = none → (f t).armed = none) (h : ∀ t ∈ ts[i]?, t.armed = none) :
    ∀ t ∈ (ts.modify j f)[i]?, t.armed = none := by
  intro t ht
  rw [List.getElem?_modify] at ht
  obtain ⟨u, hu, hut⟩ := Option.map_eq_some_iff.mp ht
  by_cases hj : j = i
  · rw [if_pos hj] at hut
    exact hut ▸ hf u (h u hu)
  · rw [if_neg hj] at hut
    exact hut ▸ h u hu

/-- The timers after a create: as before, or one more. -/
lemma osaTimerCreate_timers (ts : List OsaTimerImpl) (periodMs : UInt32) (cycle : Bool) (arg : ℕ)
    (o : TimerOutcome) : ∃ new, (osaTimerCreate ts periodMs cycle arg o).2.2 = ts ++ new := by
  rw [osaTimerCreate]
  split
  · exact ⟨[], (List.append_nil ts).symm⟩
  split
  · exact ⟨[], (List.append_nil ts).symm⟩
  split
  · exact ⟨[], (List.append_nil ts).symm⟩
  split
  · exact ⟨[], (List.append_nil ts).symm⟩
  · exact ⟨_, rfl⟩

/-- **A timer that has ended has ended for good.** -/
lemma ended_step {s : NoteSys} {a : NoteAct} {i : ℕ} (h : Ended s i) (ha : noteEnabled s a) :
    Ended (noteNext s a) i := by
  cases a with
  | create periodMs cycle arg o =>
      obtain ⟨new, hnew⟩ := osaTimerCreate_timers s.timers periodMs cycle arg o
      have hlt := h.created
      refine ⟨?_, ?_, h.finished⟩
      · show i < (osaTimerCreate s.timers periodMs cycle arg o).2.2.length
        rw [hnew, List.length_append]
        omega
      · show ∀ t ∈ (osaTimerCreate s.timers periodMs cycle arg o).2.2[i]?, t.armed = none
        rw [hnew, List.getElem?_append_left hlt]
        exact h.armed
  | expire j =>
      obtain ⟨t, ht, harmed⟩ := ha
      have hji : j ≠ i := by
        rintro rfl
        exact harmed (h.armed t ht)
      refine ⟨?_, armed_modify (fun t ht => by simp [OsaTimerImpl.expired, ht]) h.armed, ?_⟩
      · simpa [noteNext] using h.created
      · intro x hx hxi
        rcases List.mem_append.mp hx with hx | hx
        · exact h.finished x hx hxi
        · rw [List.mem_singleton.mp hx] at hxi
          exact absurd hxi hji
  | read k =>
      obtain ⟨x, hx, hpc⟩ := ha
      refine ⟨h.created, h.armed, fun y hy hyi => ?_⟩
      rcases mem_of_mem_modify hy with hy | ⟨z, hz, rfl⟩
      · exact h.finished y hy hyi
      · obtain rfl := Option.some.inj (hx.symm.trans hz)
        have hfin := h.finished x (List.mem_of_getElem? hx) hyi
        rw [hpc] at hfin
        cases hfin
  | call k =>
      refine ⟨h.created, h.armed, fun y hy hyi => ?_⟩
      rcases mem_of_mem_modify hy with hy | ⟨z, hz, rfl⟩
      · exact h.finished y hy hyi
      · rfl
  | stop j errno | delete j errno =>
      cases errno with
      | some e => exact h
      | none =>
          refine ⟨?_, armed_modify (fun _ _ => rfl) h.armed, h.finished⟩
          simpa [noteNext] using h.created
  | stopReturn j =>
      refine ⟨?_, armed_modify (fun _ ht => ht) h.armed, h.finished⟩
      simpa [noteNext] using h.created
  | deleteReturn j => exact ⟨h.created, h.armed, h.finished⟩

/-- Nothing of a timer that has ended is read, and it does not call back. -/
lemma Ended.not_noteOf {s : NoteSys} {i k : ℕ} (h : Ended s i)
    (ha : noteEnabled s (.read k) ∨ noteEnabled s (.call k)) : ¬ NoteOf s i k := by
  rintro ⟨x, hx, hxi⟩
  have hfin := h.finished x (List.mem_of_getElem? hx) hxi
  rcases ha with ⟨y, hy, hpc⟩ | ⟨y, hy, -, hpc⟩
  · obtain rfl := Option.some.inj (hy.symm.trans hx)
    rw [hpc] at hfin
    cases hfin
  · obtain rfl := Option.some.inj (hy.symm.trans hx)
    exact hpc hfin

/-- A run from a state in which the timer has ended is safe for it. -/
lemma Ended.safeFor {s t : NoteSys} {i : ℕ} {l : List (NoteSys × NoteAct)} (h : Ended s i)
    (hl : noteSystem.RunFrom s l t) : SafeFor i l := by
  have hall := hl.forall_mem (P := fun u => Ended u i) (fun _ _ hu ha => ended_step hu ha) h
  refine ⟨fun u k hmem hof => ?_, fun u k hmem hof => ?_⟩
  · exact absurd hof ((hall _ hmem).1.not_noteOf (Or.inl (hall _ hmem).2))
  · exact absurd hof ((hall _ hmem).1.not_noteOf (Or.inr (hall _ hmem).2))

/-! ### Runs -/

/-- A timer is disarmed while a stop or delete is in it and after one has returned, and freed
only then. -/
structure NoteInv (s : NoteSys) : Prop where
  fresh : ∀ i, s.timers.length ≤ i → s.caller i = .outside ∧ s.returned i = false
  armed : ∀ i, s.caller i ≠ .outside ∨ s.returned i = true →
    ∀ t ∈ s.timers[i]?, t.armed = none
  freed : ∀ i, s.freed i = true → s.returned i = true

lemma NoteInv.initial {s : NoteSys} (h : noteSystem.init s) : NoteInv s := by
  obtain ⟨-, -, hcaller, hreturned, hfreed⟩ := h
  refine ⟨fun i _ => ⟨congrFun hcaller i, congrFun hreturned i⟩, fun i hi => ?_, fun i hi => ?_⟩
  · rcases hi with hi | hi
    · exact absurd (congrFun hcaller i) hi
    · exact absurd ((congrFun hreturned i).symm.trans hi) (by simp)
  · exact absurd ((congrFun hfreed i).symm.trans hi) (by simp)

/-- A timer with a call in it, or that a call has left, was created. -/
lemma NoteInv.created {s : NoteSys} (h : NoteInv s) {i : ℕ}
    (hi : s.caller i ≠ .outside ∨ s.returned i = true) : i < s.timers.length := by
  by_contra hge
  obtain ⟨hcaller, hreturned⟩ := h.fresh i (not_lt.mp hge)
  rcases hi with hi | hi
  · exact hi hcaller
  · exact absurd (hreturned.symm.trans hi) (by simp)

/-- The call into the kernel of a stop or delete disarms the timer. -/
lemma NoteInv.disarm {s u : NoteSys} (h : NoteInv s) {i : ℕ} {c : CallerPc} (hi : s.Usable i)
    (htimers : u.timers = s.timers.modify i (·.disarmed))
    (hcaller : u.caller = Function.update s.caller i c) (hreturned : u.returned = s.returned)
    (hfreed : u.freed = s.freed) : NoteInv u := by
  have hother : ∀ j, j ≠ i → u.caller j = s.caller j := fun j hj => by
    rw [hcaller, Function.update_of_ne hj]
  refine ⟨fun j hj => ?_, fun j hj => ?_, fun j hj => ?_⟩
  · rw [htimers, List.length_modify] at hj
    have hji : j ≠ i := by
      have := hi.1
      omega
    rw [hother j hji, hreturned]
    exact h.fresh j hj
  · rw [htimers]
    by_cases hji : j = i
    · intro t ht
      rw [hji, List.getElem?_modify_eq] at ht
      obtain ⟨v, -, rfl⟩ := Option.map_eq_some_iff.mp ht
      rfl
    · rw [hother j hji, hreturned] at hj
      exact armed_modify (fun _ _ => rfl) (h.armed j hj)
  · rw [hfreed] at hj
    rw [hreturned]
    exact h.freed j hj

/-- A stop or delete returns. -/
lemma NoteInv.leave {s u : NoteSys} (h : NoteInv s) {i : ℕ} (hi : s.caller i ≠ .outside)
    (hlength : u.timers.length = s.timers.length)
    (harmed : ∀ j : ℕ, (∀ t ∈ s.timers[j]?, t.armed = none) → ∀ t ∈ u.timers[j]?, t.armed = none)
    (hcaller : u.caller = Function.update s.caller i .outside)
    (hreturned : u.returned = Function.update s.returned i true)
    (hfreed : ∀ j, j ≠ i → u.freed j = s.freed j) : NoteInv u := by
  have hlt := h.created (Or.inl hi)
  have hother : ∀ j, j ≠ i → u.caller j = s.caller j ∧ u.returned j = s.returned j := fun j hj => by
    rw [hcaller, hreturned, Function.update_of_ne hj, Function.update_of_ne hj]
    exact ⟨rfl, rfl⟩
  refine ⟨fun j hj => ?_, fun j hj => harmed j ?_, fun j hj => ?_⟩
  · have hji : j ≠ i := by omega
    rw [(hother j hji).1, (hother j hji).2]
    exact h.fresh j (hlength ▸ hj)
  · by_cases hji : j = i
    · exact h.armed j (Or.inl (hji ▸ hi))
    · rw [(hother j hji).1, (hother j hji).2] at hj
      exact h.armed j hj
  · by_cases hji : j = i
    · rw [hji, hreturned, Function.update_self]
    · rw [hfreed j hji] at hj
      rw [(hother j hji).2]
      exact h.freed j hj

/-- **Timers are disarmed before a stop or delete returns, and freed after it only.** -/
lemma noteInv_step {s : NoteSys} {a : NoteAct} (h : NoteInv s) (ha : noteEnabled s a) :
    NoteInv (noteNext s a) := by
  cases a with
  | create periodMs cycle arg o =>
      obtain ⟨new, hnew⟩ := osaTimerCreate_timers s.timers periodMs cycle arg o
      refine ⟨fun i hi => h.fresh i ?_, fun i hi => ?_, h.freed⟩
      · have hle : (osaTimerCreate s.timers periodMs cycle arg o).2.2.length ≤ i := hi
        rw [hnew, List.length_append] at hle
        omega
      · show ∀ t ∈ (osaTimerCreate s.timers periodMs cycle arg o).2.2[i]?, t.armed = none
        rw [hnew, List.getElem?_append_left (h.created hi)]
        exact h.armed i hi
  | expire i =>
      refine ⟨fun j hj => h.fresh j (by simpa [noteNext] using hj), fun j hj => ?_, h.freed⟩
      exact armed_modify (fun t ht => by simp [OsaTimerImpl.expired, ht]) (h.armed j hj)
  | read k | call k => exact ⟨h.fresh, h.armed, h.freed⟩
  | stop i errno | delete i errno =>
      cases errno with
      | some e => exact h
      | none => exact h.disarm ha rfl rfl rfl rfl
  | stopReturn i =>
      refine h.leave (by rw [show s.caller i = .stopping from ha]; simp) (by simp [noteNext])
        (fun j hj => armed_modify (fun _ ht => ht) hj) rfl rfl fun _ _ => rfl
  | deleteReturn i =>
      refine h.leave (by rw [show s.caller i = .deleting from ha]; simp) rfl
        (fun _ hj => hj) rfl rfl fun j hj => Function.update_of_ne hj ..

/-- The timer that a stop or delete returns from is disarmed, and stays as it is. -/
lemma returns_next {s : NoteSys} {a : NoteAct} {i : ℕ} (h : NoteInv s) (ha : noteEnabled s a)
    (hi : a.returns = some i) : (noteNext s a).notes = s.notes ∧
      (noteNext s a).returned i = true ∧ (AllFinished s i → Ended (noteNext s a) i) := by
  cases a with
  | stopReturn j =>
      obtain rfl := Option.some.inj hi
      have hin : s.caller j ≠ .outside := by
        rw [show s.caller j = .stopping from ha]
        simp
      refine ⟨rfl, Function.update_self .., fun hfin => ⟨?_, ?_, hfin⟩⟩
      · simpa [noteNext] using h.created (Or.inl hin)
      · exact armed_modify (fun _ ht => ht) (h.armed j (Or.inl hin))
  | deleteReturn j =>
      obtain rfl := Option.some.inj hi
      have hin : s.caller j ≠ .outside := by
        rw [show s.caller j = .deleting from ha]
        simp
      exact ⟨rfl, Function.update_self .., fun hfin =>
        ⟨h.created (Or.inl hin), h.armed j (Or.inl hin), hfin⟩⟩
  | _ => cases hi

/-- Only a return makes a timer one that was returned from. -/
lemma returned_next {s : NoteSys} {a : NoteAct} {i : ℕ} (h : (noteNext s a).returned i = true) :
    a.returns = some i ∨ s.returned i = true := by
  cases a with
  | stopReturn j | deleteReturn j =>
      by_cases hij : i = j
      · exact Or.inl (by rw [hij]; rfl)
      · exact Or.inr (by simpa [noteNext, Function.update_of_ne hij] using h)
  | stop j errno | delete j errno => cases errno <;> exact Or.inr h
  | create | expire | read | call => exact Or.inr h

/-- **A run whose returns come last is safe.** -/
lemma safeFor_of_returnsLast {s t : NoteSys} {l : List (NoteSys × NoteAct)}
    (hs : noteSystem.init s) (hl : noteSystem.RunFrom s l t)
    (hlast : ∀ p ∈ l, ReturnsLast p.1 p.2) (i : ℕ) : SafeFor i l := by
  have hrun : (noteSystem.restrict ReturnsLast).RunFrom s l t :=
    System.RunFrom.restrict_iff.mpr ⟨hl, hlast⟩
  -- once a call has returned from the timer, it has ended
  have hstep : ∀ u a, NoteInv u ∧ (u.returned i = true → Ended u i) →
      noteEnabled u a ∧ ReturnsLast u a →
      NoteInv (noteNext u a) ∧ ((noteNext u a).returned i = true → Ended (noteNext u a) i) := by
    rintro u a ⟨hinv, hended⟩ ⟨hen, hret⟩
    refine ⟨noteInv_step hinv hen, fun h => ?_⟩
    rcases returned_next h with hi | hi
    · exact (returns_next hinv hen hi).2.2 (hret i hi)
    · exact ended_step (hended hi) hen
  have hall := hrun.forall_mem hstep ⟨NoteInv.initial hs, fun h => by
    rw [hs.2.2.2.1] at h
    cases h⟩
  refine ⟨fun u k hmem hof => ?_, fun u k hmem hof => ?_⟩
  · obtain ⟨⟨hinv, hended⟩, hen, -⟩ := hall _ hmem
    by_contra hfreed
    have hret := hinv.freed i (by simpa using hfreed)
    exact (hended hret).not_noteOf (Or.inl hen) hof
  · obtain ⟨⟨-, hended⟩, hen, -⟩ := hall _ hmem
    by_contra hret
    exact (hended (by simpa using hret)).not_noteOf (Or.inr hen) hof

/-- A notification that has not called back may do so after the return. -/
lemma exists_late_call {s : NoteSys} {i : ℕ} (hret : s.returned i = true)
    (hnot : ¬ AllFinished s i) : ∃ l t, noteSystem.RunFrom s l t ∧ ¬ SafeFor i l := by
  have hcall : ∀ u k x, u.returned i = true → u.notes[k]? = some x → x.timer = i →
      x.pc ≠ .started → x.pc ≠ .finished → noteSystem.enabled u (.call k) ∧
        ∀ l, ¬ SafeFor i ((u, .call k) :: l) := by
    intro u k x hu hx hxi hs hf
    refine ⟨⟨x, hx, hs, hf⟩, fun l hsafe => ?_⟩
    have hfalse := hsafe.call u k (List.mem_cons_self ..) ⟨x, hx, hxi⟩
    exact absurd (hu.symm.trans hfalse) (by simp)
  rw [AllFinished] at hnot
  push Not at hnot
  obtain ⟨x, hx, hxi, hpc⟩ := hnot
  obtain ⟨k, hk⟩ := List.mem_iff_getElem?.mp hx
  by_cases hstarted : x.pc = .started
  · have hread : noteSystem.enabled s (.read k) := ⟨x, hk, hstarted⟩
    have hrun := System.RunFrom.refl.step hread
    obtain ⟨y, hy, hyi, arg, hypc⟩ : ∃ y, (noteNext s (.read k)).notes[k]? = some y ∧
        y.timer = i ∧ ∃ arg, y.pc = .loaded arg := by
      refine ⟨{ x with pc := .loaded ((s.timers[x.timer]?.map (·.arg)).getD 0) }, ?_, hxi, _, rfl⟩
      simp only [noteNext, List.getElem?_modify_eq, hk]
      rfl
    obtain ⟨hen, hunsafe⟩ := hcall (noteNext s (.read k)) k y hret hy hyi (by simp [hypc])
      (by simp [hypc])
    exact ⟨_, _, hrun.step hen, hunsafe _⟩
  · obtain ⟨hen, hunsafe⟩ := hcall s k x hret hk hxi hstarted hpc
    exact ⟨_, _, System.RunFrom.refl.step hen, hunsafe _⟩

/-- **A timer is silent after a stop or delete exactly if its notifications have called back by
then.**  Every run is safe in which the returns come when all notifications of the timer have
called back; and after a return all that can follow is safe exactly if they have. -/
theorem timer_silent_iff {s t : NoteSys} {l : List (NoteSys × NoteAct)}
    (hs : noteSystem.init s) (hl : noteSystem.RunFrom s l t) :
    ((∀ p ∈ l, ReturnsLast p.1 p.2) → ∀ i, SafeFor i l) ∧
      ∀ a i, a.returns = some i → noteEnabled t a →
        ((∀ l' t', noteSystem.RunFrom (noteNext t a) l' t' → SafeFor i l') ↔ AllFinished t i) := by
  refine ⟨fun hlast i => safeFor_of_returnsLast hs hl hlast i, fun a i hi ha => ?_⟩
  have hinv : NoteInv t := hl.invariant (P := NoteInv) (fun _ _ hu ha => noteInv_step hu ha)
    (NoteInv.initial hs)
  obtain ⟨hnotes, hret, hended⟩ := returns_next hinv ha hi
  constructor
  · intro hsafe
    by_contra hnot
    obtain ⟨l', t', hl', hunsafe⟩ := exists_late_call (s := noteNext t a) hret
      (fun hfin => hnot fun x hx => hfin x (by rw [hnotes]; exact hx))
    exact hunsafe (hsafe l' t' hl')
  · exact fun hfin l' t' hl' => (hended hfin).safeFor hl'

/-! ### Two runs -/

/-- No timer was created yet. -/
def noteStart : NoteSys := ⟨[], [], fun _ => .outside, fun _ => false, fun _ => false⟩

/-- A periodic timer of 5 ms is created and expires. -/
def expiryRun : List NoteAct := [.create 5 true 3 ⟨true, none, none⟩, .expire 0]

/-- A notification that calls back before the stop does so once. -/
theorem finished_notification :
    ∃ t l, noteSystem.RunFrom noteStart l t ∧ t.returned 0 = true ∧ SafeFor 0 l := by
  obtain ⟨t, ht, hret, hlast⟩ : ∃ t ∈ noteSystem.replay noteStart
      (expiryRun ++ [.read 0, .call 0, .stop 0 none, .stopReturn 0]), t.returned 0 = true ∧
      ∀ p ∈ noteSystem.history noteStart
        (expiryRun ++ [.read 0, .call 0, .stop 0 none, .stopReturn 0]), ReturnsLast p.1 p.2 := by
    decide +kernel
  have hrun := System.runFrom_of_replay ht
  exact ⟨t, _, hrun, hret, (timer_silent_iff ⟨rfl, rfl, rfl, rfl, rfl⟩ hrun).1 hlast 0⟩

/-- **A notification that is late** reads a timer that was freed, or calls back after its stop
has returned `0`. -/
theorem late_notification :
    (∃ l t, noteSystem.RunFrom noteStart l t ∧ t.freed 0 = true ∧
      noteEnabled t (.read 0) ∧ NoteOf t 0 0 ∧ ¬ SafeFor 0 ((t, .read 0) :: l)) ∧
    ∃ l t, noteSystem.RunFrom noteStart l t ∧ t.returned 0 = true ∧ t.freed 0 = false ∧
      noteEnabled t (.call 0) ∧ NoteOf t 0 0 ∧ ¬ SafeFor 0 ((t, .call 0) :: l) := by
  constructor
  · obtain ⟨t, ht, hfreed, hen, hof⟩ : ∃ t ∈ noteSystem.replay noteStart
        (expiryRun ++ [.delete 0 none, .deleteReturn 0]), t.freed 0 = true ∧
        noteEnabled t (.read 0) ∧ ∃ x ∈ t.notes[0]?, x.timer = 0 := by decide +kernel
    refine ⟨_, t, System.runFrom_of_replay ht, hfreed, hen, hof, fun hsafe => ?_⟩
    have hfalse := hsafe.read t 0 (List.mem_cons_self ..) hof
    exact absurd (hfreed.symm.trans hfalse) (by simp)
  · obtain ⟨t, ht, hret, hfreed, hen, hof⟩ : ∃ t ∈ noteSystem.replay noteStart
        (expiryRun ++ [.read 0, .stop 0 none, .stopReturn 0]), t.returned 0 = true ∧
        t.freed 0 = false ∧ noteEnabled t (.call 0) ∧ ∃ x ∈ t.notes[0]?, x.timer = 0 := by
      decide +kernel
    refine ⟨_, t, System.runFrom_of_replay ht, hret, hfreed, hen, hof, fun hsafe => ?_⟩
    have hfalse := hsafe.call t 0 (List.mem_cons_self ..) hof
    exact absurd (hret.symm.trans hfalse) (by simp)

end OpenHsm
