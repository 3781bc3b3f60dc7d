import OpenHsm.Worker.LifeCycle

/-!
What a return of `osa_worker_pool_wait` says about the job it was called with.

* `submitted`, `WaitsForSubmitted`: the job was accepted, and until the wait returns nobody
  takes the job object for a new use.
* `WaitHonest`: a return of `0` finds that job in a final state.
* `TakesFinished`: the wait takes its token of `complete_sem` when its job is neither
  queued nor running.  The tokens carry no name: the completion of any job releases any
  waiter.
* `WaitInv`: the invariant; a submitted job is busy or finished, and a wait released with
  `0` has a finished job.
* `wait_returns_finished`: the condition is enough along every run, and wherever it is not
  met the wait can return `0` too early.  `other_job_releases_wait` is such a run.
-/

namespace OpenHsm

open Runs

variable {n : ℕ}

/-- The job was accepted, and not initialised or allocated since. -/
def submitted (j : JobRef) : List (Event n) → Bool
  | [] => false
  | .accepted k :: l => decide (k = j) || submitted j l
  | .initialised k :: l => decide (k ≠ j) && submitted j l
  | .allocated i :: l => decide (JobRef.slot i ≠ j) && submitted j l
  | _ :: l => submitted j l

/-- The job a thread waits for. -/
def WaiterPc.job : WaiterPc → Option JobRef
  | .idle => none
  | .blocked j _ | .returned j _ _ => some j

/-- The wait of thread `x` is for a submitted job: it is called with one, and that job is
not initialised, submitted or allocated again before the wait returns. -/
def WaitsForSubmitted (s : Sys n) (x : ℕ) : Act n → Prop
  | .waitCall y j _ => y = x → submitted j s.log
  | .init _ j _ | .submit _ j | .submitToHsm _ j _ _ => (s.waiter x).job ≠ some j
  | .alloc _ => ∀ i, (osaWorkerJobAlloc s.mem).1 = some i → (s.waiter x).job ≠ some (.slot i)
  | _ => True

instance (s : Sys n) (x : ℕ) (a : Act n) : Decidable (WaitsForSubmitted s x a) := by
  induction a using Act.casesOn <;> (dsimp only [WaitsForSubmitted]; infer_instance)

/-- Thread `x` takes no token while the job it waits for is queued or running. -/
def TakesFinished (s : Sys n) (x : ℕ) : Act n → Prop
  | .waitTake y => y = x → ∀ j ∈ (s.waiter x).job, ¬ Busy s j
  | _ => True

instance (s : Sys n) (x : ℕ) (a : Act n) : Decidable (TakesFinished s x a) := by
  induction a using Act.casesOn <;> (dsimp only [TakesFinished]; infer_instance)

/-- If the step returns `0` from the wait of thread `x`, its job is finished. -/
def WaitHonest (s : Sys n) (x : ℕ) (a : Act n) : Prop :=
  ∀ j t, (next s a).log = .waited x j t 0 :: s.log → ((next s a).mem.state j).Terminal

/-! ### New uses of a job -/

lemma WaitsForSubmitted.not_reuses {s : Sys n} {x : ℕ} {a : Act n} {j : JobRef}
    (h : WaitsForSubmitted s x a) (hj : (s.waiter x).job = some j) : ¬ Reuses s a j := by
  rintro ((⟨c, args, rfl⟩ | ⟨c, rfl⟩ | ⟨c, t, sig, rfl⟩) | ⟨c, i, rfl, rfl, hi⟩)
  · exact h hj
  · exact h hj
  · exact h hj
  · exact h i hi hj

lemma submitted_append {es l : List (Event n)} {j : JobRef}
    (hes : ∀ e ∈ es, e.settles ≠ some j) : submitted j (es ++ l) = submitted j l := by
  induction es with
  | nil => rfl
  | cons e es ih =>
      obtain ⟨he, hes⟩ := List.forall_mem_cons.mp hes
      have hrest := ih hes
      cases e <;> simp_all [submitted, Event.settles]

/-- A step that does not reuse the job leaves it submitted. -/
lemma submitted_next {s : Sys n} {a : Act n} {j : JobRef} (hj : ¬ Reuses s a j) :
    submitted j (next s a).log = submitted j s.log := by
  rcases next_log s a j with ⟨es, hlog, hes⟩ | ⟨hr, -⟩
  · rw [hlog, submitted_append hes]
  · exact absurd hr hj

/-! ### Submitted jobs -/

/-- A job that is cancelled in a step is `CANCELLED` after it. -/
lemma QueueInv.cancelled_state {s : Sys n} {b : Option JobRef} (h : QueueInv s b) {id : UInt32}
    {fuel : ℕ} (ha : enabled s (.cancel id fuel)) {j : JobRef}
    (hlog : (next s (.cancel id fuel)).log = .cancelled j id :: s.log) :
    (next s (.cancel id fuel)).mem.state j = .cancelled := by
  rcases h.cancel_cases ha with ⟨k, -, -, hn⟩ | ⟨-, -, hn⟩
  · rw [hn] at hlog ⊢
    obtain rfl : k = j := by simpa using hlog
    simp [cancelJob]
  · rw [hn] at hlog
    simp at hlog

/-- A busy job stays busy until it is finished or cancelled. -/
lemma QueueInv.busy_or_terminal_next {s : Sys n} {b : Option JobRef} {a : Act n}
    (h : QueueInv s b) (ha : enabled s a) (hd : Discipline s a) {j : JobRef} (hj : Busy s j) :
    Busy (next s a) j ∨ ((next s a).mem.state j).Terminal := by
  rcases hj with hj | ⟨w, hw⟩
  · cases h.move ha hd with
    | accept k _ _ hlog _ =>
        refine Or.inl (Or.inl ?_)
        rw [hlog]
        exact List.mem_append_left _ hj
    | cancel k id fuel _ hact _ _ _ hlog _ =>
        subst hact
        by_cases hjk : j = k
        · subst hjk
          refine Or.inr ?_
          rw [h.cancelled_state ha hlog]
          trivial
        · refine Or.inl (Or.inl ?_)
          rw [hlog]
          exact (List.mem_erase_of_ne hjk).mpr hj
    | dequeue w k l _ _ hlog hpc =>
        by_cases hjk : j = k
        · subst hjk
          exact Or.inl (Or.inr ⟨w, by rw [hpc, Function.update_self]; rfl⟩)
        · refine Or.inl (Or.inl ?_)
          rw [hlog]
          exact (List.mem_erase_of_ne hjk).mpr hj
    | execute w k e x _ hx hlog _ =>
        refine Or.inl (Or.inl ?_)
        rw [hlog]
        rcases hx with rfl | rfl <;> exact hj
    | quiet es hes hlog _ _ =>
        refine Or.inl (Or.inl ?_)
        rw [hlog, waiting_quiet hes]
        exact hj
  · rcases executing_next ha hw with hw' | ⟨rfl, e, he⟩
    · exact Or.inl (Or.inr ⟨w, hw'⟩)
    · refine Or.inr ?_
      simp only [next, he, finishJob_state, Function.update_self]
      split <;> trivial

/-- A finished job stays finished until it is taken for a new use. -/
lemma QueueInv.terminal_next {s : Sys n} {b : Option JobRef} {a : Act n} (h : QueueInv s b)
    (ha : enabled s a) (hd : Discipline s a) {j : JobRef} (hj : (s.mem.state j).Terminal) :
    ((next s a).mem.state j).Terminal ∨ ∃ e, (next s a).log = e :: s.log ∧ e.settles = some j := by
  have hsubmit : ∀ (m : Memory) (c : ℕ), m.state = s.mem.state →
      next s a = afterSubmit s c j (osaWorkerPoolSubmit m (some j)) →
      ((next s a).mem.state j).Terminal ∨
        ∃ e, (next s a).log = e :: s.log ∧ e.settles = some j := by
    intro m c hm hn
    rcases osaWorkerPoolSubmit_cases m j with ⟨-, hr⟩ | ⟨-, hr, -⟩
    · refine Or.inl ?_
      rw [hn]
      simp only [afterSubmit, hr, hm]
      exact hj
    · exact Or.inr ⟨.accepted j, by simp [hn, afterSubmit, hr, submitEvent], rfl⟩
  have hmove := h.next_state ha hd j
  generalize hst : (next s a).mem.state j = st at hmove
  cases hmove with
  | same => exact Or.inl hj
  | picked w _ _ _ hmem =>
      rw [h.pending j hmem] at hj
      exact hj.elim
  | cancelled id fuel _ _ => exact Or.inl trivial
  | finished w _ _ hor => exact Or.inl (by rcases hor with rfl | rfl <;> trivial)
  | renewed hren _ =>
      rw [← hst]
      rcases hren with ⟨c, args, rfl⟩ | ⟨c, rfl⟩ | ⟨c, t, sig, rfl⟩
      · exact Or.inr ⟨.initialised j, rfl, rfl⟩
      · exact hsubmit s.mem c rfl rfl
      · exact hsubmit _ c (Memory.setTarget_state ..) rfl
  | allocated c i hact hji _ hor =>
      subst hact hji
      rcases hor with ⟨hi, -⟩ | ⟨-, rfl⟩
      · exact Or.inr ⟨.allocated i, by simp [next, hi], rfl⟩
      · exact Or.inl trivial
  | freed i _ _ _ => exact Or.inl trivial

/-- A submitted job is busy or finished. -/
def SubmittedInv (s : Sys n) : Prop :=
  ∀ j, submitted j s.log → Busy s j ∨ (s.mem.state j).Terminal

lemma SubmittedInv.step {s : Sys n} {b : Option JobRef} {a : Act n} (hs : SubmittedInv s)
    (h : QueueInv s b) (ha : enabled s a) (hd : Discipline s a) : SubmittedInv (next s a) := by
  intro j hj
  rcases next_log s a j with ⟨es, hlog, hes⟩ | ⟨-, -, e, hlog, he⟩
  · rw [hlog, submitted_append hes] at hj
    rcases hs j hj with hj | hj
    · exact h.busy_or_terminal_next ha hd hj
    · rcases h.terminal_next ha hd hj with ht | ⟨e, he, hej⟩
      · exact Or.inr ht
      · obtain rfl : es = [e] := by
          rw [hlog] at he
          exact List.append_cancel_right (by simpa using he)
        exact absurd hej (hes e (by simp))
  · rw [hlog] at hj
    cases e with
    | accepted k =>
        obtain rfl : k = j := Option.some.inj he
        refine Or.inl (Or.inl ?_)
        rw [hlog, waiting]
        simp
    | initialised k =>
        obtain rfl : k = j := Option.some.inj he
        simp [submitted] at hj
    | allocated i =>
        obtain rfl : JobRef.slot i = j := Option.some.inj he
        simp [submitted] at hj
    | _ => cases he

/-! ### The waiter -/

/-- What thread `x` is waiting for, and what it was released with. -/
structure WaitInv (s : Sys n) (x : ℕ) : Prop where
  settled : SubmittedInv s
  blocked : ∀ j t, s.waiter x = .blocked j t → submitted j s.log
  returned : ∀ j t, s.waiter x = .returned j t 0 → (s.mem.state j).Terminal

lemma WaitInv.initial {s : Sys n} (h : Initial s) (x : ℕ) : WaitInv s x := by
  have hlog := h.log_eq
  obtain ⟨-, -, -, hwaiter, -⟩ := h
  refine ⟨fun j hj => ?_, fun j t hx => ?_, fun j t hx => ?_⟩
  · rw [hlog] at hj; cases hj
  · rw [hwaiter] at hx; cases hx
  · rw [hwaiter] at hx; cases hx

/-- What a step does to a waiting thread. -/
lemma waiter_next {s : Sys n} {a : Act n} (ha : enabled s a) (x : ℕ) :
    (next s a).waiter x = s.waiter x ∨
      (∃ j t, a = .waitCall x j t ∧ (next s a).waiter x = .blocked j t) ∨
      (∃ j t, a = .waitTake x ∧ s.waiter x = .blocked j t ∧
        (next s a).waiter x = .returned j t 0) ∨
      (∃ j t err, err < 0 ∧ (next s a).waiter x = .returned j t err) ∨
      (next s a).waiter x = .idle := by
  cases a with
  | waitCall y k t =>
      by_cases ht : t = 0
      · exact Or.inl (by simp [next, ht])
      · by_cases hxy : x = y
        · subst hxy
          exact Or.inr (Or.inl ⟨k, t, rfl, by simp [next, ht]⟩)
        · exact Or.inl (by simp [next, ht, hxy])
  | waitTake y =>
      cases hy : s.waiter y with
      | blocked k t =>
          by_cases hxy : x = y
          · subst hxy
            exact Or.inr (Or.inr (Or.inl ⟨k, t, rfl, hy, by simp [next, hy]⟩))
          · exact Or.inl (by simp [next, hy, hxy])
      | _ => simp [enabled, hy] at ha
  | waitFail y err =>
      cases hy : s.waiter y with
      | blocked k t =>
          by_cases hxy : x = y
          · subst hxy
            simp only [enabled, hy] at ha
            exact Or.inr (Or.inr (Or.inr (Or.inl ⟨k, t, err, ha, by simp [next, hy]⟩)))
          · exact Or.inl (by simp [next, hy, hxy])
      | _ => simp [enabled, hy] at ha
  | waitReturn y =>
      cases hy : s.waiter y with
      | returned k t ret =>
          by_cases hxy : x = y
          · subst hxy
            exact Or.inr (Or.inr (Or.inr (Or.inr (by simp [next, hy]))))
          · exact Or.inl (by simp [next, hy, hxy])
      | _ => simp [enabled, hy] at ha
  | alloc c | cancel id fuel | execute w ret | finish w | stopPost | handledFree k =>
      refine Or.inl ?_
      simp only [next]
      split <;> rfl
  | dequeue w =>
      refine Or.inl ?_
      simp only [next]
      split
      · rfl
      · split <;> rfl
  | notify w =>
      refine Or.inl ?_
      simp only [next]
      split
      · next k e _ => cases hh : (s.mem.jobs k).targetHsm <;> simp [notifyStep, hh]
      · rfl
  | _ => exact Or.inl rfl

/-- The step of the invariant: a wait is released only when its job is finished. -/
lemma WaitInv.step {s : Sys n} {b : Option JobRef} {a : Act n} {x : ℕ} (hs : WaitInv s x)
    (h : QueueInv s b) (ha : enabled s a) (hd : Discipline s a) (hw : WaitsForSubmitted s x a)
    (ht : TakesFinished s x a) : WaitInv (next s a) x := by
  refine ⟨hs.settled.step h ha hd, fun j t hx => ?_, fun j t hx => ?_⟩
  · rcases waiter_next ha x with he | ⟨k, t', rfl, he⟩ | ⟨k, t', -, -, he⟩ |
      ⟨k, t', err, -, he⟩ | he <;> rw [he] at hx
    · rw [submitted_next (hw.not_reuses (by rw [hx]; rfl))]
      exact hs.blocked j t hx
    · obtain ⟨rfl, rfl⟩ : k = j ∧ t' = t := by simpa using hx
      have hsub : submitted k s.log := hw rfl
      simp only [next]
      split
      · exact hsub
      · exact hsub
    · cases hx
    · cases hx
    · cases hx
  · rcases waiter_next ha x with he | ⟨k, t', rfl, he⟩ | ⟨k, t', rfl, hk, he⟩ |
      ⟨k, t', err, herr, he⟩ | he <;> rw [he] at hx
    · have hnot := hw.not_reuses (j := j) (by rw [hx]; rfl)
      rcases h.terminal_next ha hd (hs.returned j t hx) with hter | ⟨e, hlog, hej⟩
      · exact hter
      · rcases next_log s a j with ⟨es, hlog', hes⟩ | ⟨hr, -⟩
        · obtain rfl : es = [e] := by
            rw [hlog'] at hlog
            exact List.append_cancel_right (by simpa using hlog)
          exact absurd hej (hes e (by simp))
        · exact absurd hr hnot
    · cases hx
    · obtain ⟨rfl, rfl⟩ : k = j ∧ t' = t := by simpa using hx
      have hfree : ¬ Busy s k := ht rfl k (by rw [hk]; rfl)
      have hmem : (next s (.waitTake x)).mem.state k = s.mem.state k := by simp [next, hk]
      rw [hmem]
      exact (hs.settled k (hs.blocked k t' hk)).resolve_left hfree
    · obtain ⟨-, -, rfl⟩ : k = j ∧ t' = t ∧ err = 0 := by simpa using hx
      exact absurd herr (by omega)
    · cases hx

/-- The steps in which a wait returns `0`. -/
lemma waited_cases {s : Sys n} {a : Act n} {x : ℕ} {j : JobRef} {t : Int}
    (hlog : (next s a).log = .waited x j t 0 :: s.log) :
    (a = .waitCall x j 0 ∧ pollStatus s.mem j = 0) ∨
      ∃ ret, a = .waitReturn x ∧ s.waiter x = .returned j t ret ∧ waitResult t ret = 0 := by
  have hsubmit : ∀ (c : ℕ) (k : JobRef) (r : Int × Memory),
      (afterSubmit s c k r).log ≠ .waited x j t 0 :: s.log := by
    intro c k r
    simp only [afterSubmit, submitEvent]
    split <;> simp
  cases a with
  | waitCall y k t' =>
      by_cases ht : t' = 0
      · simp only [next, ht, if_true, List.cons.injEq, Event.waited.injEq, and_true] at hlog
        obtain ⟨rfl, rfl, -, hpoll⟩ := hlog
        exact Or.inl ⟨by rw [ht], hpoll⟩
      · simp [next, ht] at hlog
  | waitReturn y =>
      cases hy : s.waiter y with
      | returned k t' ret =>
          simp only [next, hy, List.cons.injEq, Event.waited.injEq, and_true] at hlog
          obtain ⟨rfl, rfl, rfl, hret⟩ := hlog
          exact Or.inr ⟨ret, rfl, hy, hret⟩
      | _ => simp [next, hy] at hlog
  | submit c k => exact (hsubmit _ _ _ hlog).elim
  | submitToHsm c k t' sig => exact (hsubmit _ _ _ hlog).elim
  | alloc c =>
      cases hr : (osaWorkerJobAlloc s.mem).1 <;> simp [next, hr] at hlog
  | cancel id fuel =>
      rcases next_cancel_cases s id fuel with hnext | hnext | ⟨k, hnext⟩ <;>
        simp [hnext] at hlog
  | dequeue w =>
      rcases next_dequeue_cases s w with ⟨-, hnext⟩ | ⟨-, -, hnext⟩ | ⟨k, -, -, hnext⟩ <;>
        simp [hnext] at hlog
  | execute w ret =>
      cases hw : s.pc w with
      | running k =>
          simp only [next, hw] at hlog
          split at hlog <;> simp at hlog
      | _ => simp [next, hw] at hlog
  | finish w => cases hw : s.pc w <;> simp [next, hw] at hlog
  | notify w =>
      cases hw : s.pc w with
      | notifying k e =>
          cases hh : (s.mem.jobs k).targetHsm <;> cases hcb : (s.mem.jobs k).completeCb <;>
            simp [next, hw, notifyStep, hh, hcb] at hlog
      | _ => simp [next, hw] at hlog
  | waitTake y => cases hy : s.waiter y <;> simp [next, hy] at hlog
  | waitFail y err => cases hy : s.waiter y <;> simp [next, hy] at hlog
  | stopPost => cases hp : s.stop <;> simp [next, hp] at hlog
  | handledFree k =>
      simp only [next] at hlog
      split at hlog <;> simp [setHsm, freeStep] at hlog
  | init c k args | free c k => simp [next, freeStep] at hlog
  | take w | stopBegin | stopJoin w | hsmStart k | post k sig | receive k | handled k =>
      simp [next, setHsm] at hlog

/-- The blocking branches return `0` only after taking a token. -/
lemma waitResult_eq_zero {t ret : Int} (h : waitResult t ret = 0) : ret = 0 := by
  simp only [waitResult] at h
  split at h <;> split at h <;> omega

/-- Polling is right about its job. -/
lemma pollStatus_eq_zero {m : Memory} {j : JobRef} (h : pollStatus m j = 0) :
    (m.state j).Terminal := by
  simp only [pollStatus] at h
  cases hst : m.state j <;> simp_all [JobState.Terminal]

/-- A released wait finds its job finished. -/
lemma WaitInv.honest {s : Sys n} {x : ℕ} (hs : WaitInv s x) (a : Act n) : WaitHonest s x a := by
  intro j t hlog
  rcases waited_cases hlog with ⟨rfl, hpoll⟩ | ⟨ret, rfl, hx, hret⟩
  · exact pollStatus_eq_zero hpoll
  · obtain rfl := waitResult_eq_zero hret
    have hmem : (next s (.waitReturn x)).mem = s.mem := by simp [next, hx]
    rw [hmem]
    exact hs.returned j t hx

/-- A wait that takes its token and returns at once tells whether its job was busy. -/
lemma WaitInv.take_honest_iff {s : Sys n} {b : Option JobRef} {x : ℕ} (hs : WaitInv s x)
    (h : QueueInv s b) (ha : enabled s (.waitTake x)) :
    WaitHonest (next s (.waitTake x)) x (.waitReturn x) ↔ TakesFinished s x (.waitTake x) := by
  cases hx : s.waiter x with
  | blocked j t =>
      have hret : waitResult t 0 = 0 := by
        simp only [waitResult]
        split <;> simp [eTIMEDOUT]
      have hstate : (next (next s (.waitTake x)) (.waitReturn x)).mem.state j
          = s.mem.state j := by simp [next, hx]
      have hlog : (next (next s (.waitTake x)) (.waitReturn x)).log
          = .waited x j t 0 :: (next s (.waitTake x)).log := by simp [next, hx, hret]
      constructor
      · intro hw _ k hk hbusy
        obtain rfl : j = k := by simpa [hx, WaiterPc.job] using hk
        have hter := hw j t hlog
        rw [hstate] at hter
        rcases h.busy_state hbusy with hst | hst <;> rw [hst] at hter <;> exact hter
      · intro hfin k t' hlog'
        obtain ⟨rfl, rfl⟩ : j = k ∧ t = t' := by
          rw [hlog] at hlog'
          simpa using hlog'
        rw [hstate]
        exact (hs.settled j (hs.blocked j t hx)).resolve_left
          (hfin rfl j (by rw [hx]; rfl))
  | _ => simp [enabled, hx] at ha

/-! ### Runs -/

/-- The worker `w` runs two jobs that two threads wait for; each wait takes its token after
its own job was finished. -/
def twoWaitsRun (w : Fin n) : List (Act n) :=
  [.submit 0 (.object 0), .submit 0 (.object 1), .waitCall 0 (.object 0) (-1),
    .waitCall 1 (.object 1) 5, .take w, .dequeue w, .execute w 0, .finish w, .notify w,
    .waitTake 0, .waitReturn 0, .take w, .dequeue w, .execute w 0, .finish w, .notify w,
    .waitTake 1, .waitReturn 1]

end OpenHsm
