import OpenHsm.Library.Progress
import OpenHsm.Worker.Delivery
import OpenHsm.Worker.Shutdown

/-!
The tokens of `work_sem` and the way of the workers, step by step, in a pool whose posts
find room.

* `WorkMove`, `workMove`: what one step does to the tokens, to the workers and to the log.
* `idles`, `cancels`: the wake-ups for nothing and the cancels that a log holds.
* `owed`: the steps that the tokens and the workers on their way stand for; `WorkMove.owed_eq`
  is the balance of one step.
-/

namespace OpenHsm

open Occupancy Runs

variable {n : ℕ}

/-! ### One step -/

/-- The event settles or moves no submission and idles no worker. -/
def Event.silent : Event n → Bool
  | .idled _ => false
  | e => e.quiet

/-- What the step `a` from `s` to `t` does to the tokens of `work_sem`, to the workers and
to the submissions. -/
inductive WorkMove (s : Sys n) (a : Act n) (t : Sys n) : Prop
  | accept (j : JobRef) : a.submits j → a.worker = none →
      t.mem.pool.workSem.posixSem = s.mem.pool.workSem.posixSem + 1 → t.pc = s.pc →
      t.log = .accepted j :: s.log → WorkMove s a t
  | cancel (j : JobRef) (id : UInt32) (fuel : ℕ) : a = .cancel id fuel →
      cancelSearch s.mem id fuel s.mem.pool.jobQueueHead = some (some j) →
      t.mem.pool.workSem = s.mem.pool.workSem → t.pc = s.pc →
      t.log = .cancelled j id :: s.log → WorkMove s a t
  | post : a = .stopPost →
      t.mem.pool.workSem.posixSem = s.mem.pool.workSem.posixSem + 1 → t.pc = s.pc →
      t.log = s.log → WorkMove s a t
  | take (w : Fin n) : a = .take w → s.pc w = .waiting →
      t.mem.pool.workSem.posixSem + 1 = s.mem.pool.workSem.posixSem →
      t.pc = Function.update s.pc w .woken → t.log = s.log → WorkMove s a t
  | exit (w : Fin n) : a = .dequeue w → s.pc w = .woken → s.mem.pool.shutdown = true →
      t.mem.pool.workSem = s.mem.pool.workSem → t.pc = Function.update s.pc w .exited →
      t.log = s.log → WorkMove s a t
  | idle (w : Fin n) : a = .dequeue w → s.pc w = .woken → s.mem.pool.jobQueueHead = none →
      t.mem.pool.workSem = s.mem.pool.workSem → t.pc = Function.update s.pc w .waiting →
      t.log = .idled w :: s.log → WorkMove s a t
  | pick (w : Fin n) (j : JobRef) : a = .dequeue w → s.pc w = .woken →
      s.mem.pool.jobQueueHead = some j → t.mem.pool.workSem = s.mem.pool.workSem →
      t.pc = Function.update s.pc w (.running j) → t.log = .dequeued w j :: s.log →
      WorkMove s a t
  | run (w : Fin n) (j : JobRef) (e : Execution) (x : Event n) : a.worker = some w →
      s.pc w = .running j → (x = .called w j ∨ x = .skipped w j) →
      t.mem.pool.workSem = s.mem.pool.workSem →
      t.pc = Function.update s.pc w (.executed j e) → t.log = x :: s.log → WorkMove s a t
  | settle (w : Fin n) (j : JobRef) (e : Execution) : a.worker = some w →
      s.pc w = .executed j e → t.mem.pool.workSem = s.mem.pool.workSem →
      t.pc = Function.update s.pc w (.notifying j e) → t.log = .finished w j :: s.log →
      WorkMove s a t
  | tell (w : Fin n) (j : JobRef) (e : Execution) (es : List (Event n)) : a.worker = some w →
      s.pc w = .notifying j e → t.mem.pool.workSem = s.mem.pool.workSem →
      t.pc = Function.update s.pc w .waiting → (∀ e ∈ es, e.silent) → t.log = es ++ s.log →
      WorkMove s a t
  | other (es : List (Event n)) : a.worker = none → a ≠ .stopPost →
      t.mem.pool.workSem = s.mem.pool.workSem → t.pc = s.pc → (∀ e ∈ es, e.silent) →
      t.log = es ++ s.log → WorkMove s a t

/-- A submit that is accepted posts a token; one that is refused does nothing. -/
lemma WorkMove.of_submit {s : Sys n} {a : Act n} {c : ℕ} {j : JobRef} {m : Memory}
    (hj : a.submits j) (hw : a.worker = none) (hstop : a ≠ .stopPost)
    (hpool : m.pool = s.mem.pool) (hroom : s.mem.pool.workSem.posixSem < semValueMax) :
    WorkMove s a (afterSubmit s c j (osaWorkerPoolSubmit m (some j))) := by
  rcases osaWorkerPoolSubmit_cases m j with ⟨-, hr⟩ | ⟨-, hr1, hr2⟩
  · refine .other [.refused j] hw hstop ?_ rfl (by simp [Event.silent, Event.quiet]) ?_ <;>
      simp [afterSubmit, hr, hpool, submitEvent]
  · refine .accept j hj hw ?_ rfl (by simp [afterSubmit, hr1, submitEvent])
    simp only [afterSubmit, hr2, Memory.modifyPool_pool, Memory.modifyStats_pool,
      enqueueJob_workSem, assignId_pool, hpool]
    exact osaSemPost_posixSem hroom

/-- **What a step does to the tokens, the workers and the submissions.** -/
theorem workMove {s : Sys n} {a : Act n} (ha : enabled s a) (hroom : WorkRoom s a) :
    WorkMove s a (next s a) := by
  -- a step of no worker that is neither a submit, a cancel nor a post
  have hother : ∀ es : List (Event n), a.worker = none → a ≠ .stopPost →
      (frameAfter s a).workSem = s.mem.pool.workSem → (∀ e ∈ es, e.silent) →
      (next s a).log = es ++ s.log → WorkMove s a (next s a) :=
    fun es hw hstop hsem hes hlog =>
      .other es hw hstop ((next_workSem ha).trans hsem) (pc_of_no_worker ha hw) hes hlog
  have hsame : a.worker = none → a ≠ .stopPost →
      (frameAfter s a).workSem = s.mem.pool.workSem → (next s a).log = s.log →
      WorkMove s a (next s a) := fun hw hstop hsem hlog =>
    hother [] hw hstop hsem (by simp) hlog
  have hone : ∀ e : Event n, e.silent → a.worker = none → a ≠ .stopPost →
      (frameAfter s a).workSem = s.mem.pool.workSem → (next s a).log = e :: s.log →
      WorkMove s a (next s a) := fun e he hw hstop hsem hlog =>
    hother [e] hw hstop hsem (by simpa using he) hlog
  cases a with
  | init c j args => exact hone (.initialised j) rfl rfl (by simp) rfl rfl
  | alloc c =>
      cases hr : (osaWorkerJobAlloc s.mem).1 with
      | none => exact hsame rfl (by simp) rfl (by simp [next, hr])
      | some i => exact hone (.allocated i) rfl rfl (by simp) rfl (by simp [next, hr])
  | free c j => exact hone (.freed j) rfl rfl (by simp) rfl rfl
  | submit c j => exact .of_submit (.inl ⟨c, rfl⟩) rfl (by simp) rfl hroom
  | submitToHsm c j t sig =>
      exact .of_submit (m := s.mem.setTarget j t sig) (.inr ⟨c, t, sig, rfl⟩) rfl (by simp) rfl
        hroom
  | cancel id fuel =>
      cases hr : cancelSearch s.mem id fuel s.mem.pool.jobQueueHead with
      | none => simp [enabled, osaWorkerPoolCancel, hr] at ha
      | some r =>
          have hnext := next_cancel_of_search hr
          cases r with
          | none => exact hone (.missed id) rfl rfl (by simp) rfl (by rw [hnext])
          | some j =>
              exact .cancel j id fuel rfl hr (next_workSem ha) (by rw [hnext]) (by rw [hnext])
  | take w =>
      refine .take w rfl ha.1 ?_ rfl rfl
      have hpos : 0 < s.mem.pool.workSem.posixSem := ha.2
      rw [next_workSem ha]
      simp only [frameAfter, Pool.frame, osaSemTake_posixSem]
      omega
  | dequeue w =>
      have hsem : (next s (.dequeue w)).mem.pool.workSem = s.mem.pool.workSem := next_workSem ha
      rcases next_dequeue_cases s w with ⟨hs, hnext⟩ | ⟨-, hhead, hnext⟩ | ⟨j, -, hhead, hnext⟩
      · exact .exit w rfl ha.1 hs hsem (by rw [hnext]) (by rw [hnext])
      · exact .idle w rfl ha.1 hhead hsem (by rw [hnext]) (by rw [hnext])
      · exact .pick w j rfl ha.1 hhead hsem (by rw [hnext]) (by rw [hnext])
  | execute w ret =>
      cases hw : s.pc w with
      | running j =>
          have hsem := next_workSem ha
          simp only [next, hw] at hsem ⊢
          refine .run w j _ _ rfl hw ?_ hsem rfl rfl
          split
          · exact .inr rfl
          · exact .inl rfl
      | _ => simp [enabled, hw] at ha
  | finish w =>
      cases hw : s.pc w with
      | executed j e =>
          have hsem := next_workSem ha
          simp only [next, hw] at hsem ⊢
          exact .settle w j e rfl hw hsem rfl rfl
      | _ => simp [enabled, hw] at ha
  | notify w =>
      cases hw : s.pc w with
      | notifying j e =>
          obtain ⟨es, hes, hlog⟩ : ∃ es : List (Event n), (∀ e ∈ es, e.silent) ∧
              (next s (.notify w)).log = es ++ s.log := by
            simp only [next, hw, notifyStep]
            cases (s.mem.jobs j).targetHsm <;> cases (s.mem.jobs j).completeCb
            · exact ⟨[], by simp, rfl⟩
            · exact ⟨[.calledBack w j _], by simp [Event.silent, Event.quiet], rfl⟩
            · exact ⟨[.announced _ j _], by simp [Event.silent, Event.quiet], rfl⟩
            · exact ⟨[.announced _ j _, .calledBack w j _],
                by simp [Event.silent, Event.quiet], rfl⟩
          refine .tell w j e es rfl hw (next_workSem ha) ?_ hes hlog
          simp only [next, hw, notifyStep_pc]
      | _ => simp [enabled, hw, WorkerPc.holdsLock] at ha
  | waitCall x j t =>
      by_cases ht : t = 0
      · exact hone (.waited x j 0 (pollStatus s.mem j)) rfl rfl (by simp) rfl
          (by simp only [next, if_pos ht])
      · exact hsame rfl (by simp) rfl (by simp only [next, if_neg ht])
  | waitReturn x =>
      cases hx : s.waiter x with
      | returned j t ret =>
          exact hone (.waited x j t (waitResult t ret)) rfl rfl (by simp) rfl
            (by simp only [next, hx])
      | _ => simp [enabled, hx] at ha
  | waitTake x | waitFail x err =>
      refine hsame rfl (by simp) rfl ?_
      simp only [next]
      split <;> rfl
  | stopPost =>
      refine .post rfl ?_ (pc_of_no_worker ha rfl) ?_
      · rw [next_workSem ha]
        exact osaSemPost_posixSem hroom
      · simp only [next]
        split <;> rfl
  | handledFree k =>
      simp only [enabled] at ha
      split at ha
      · next sig j e hk =>
          exact hone (.freed j) rfl rfl (by simp) rfl (by simp only [next, hk]; rfl)
      · exact ha.elim
  | stopBegin | stopJoin w | hsmStart k | post k sig | receive k | handled k =>
      exact hsame rfl (by simp) rfl rfl

/-! ### What is owed -/

/-- The steps of a worker of the pool. -/
def Act.byWorker (a : Act n) : Prop := a.worker ≠ none

instance (a : Act n) : Decidable a.byWorker := inferInstanceAs (Decidable (_ ≠ none))

/-- A worker leaves the waiters alone. -/
lemma waiter_of_worker {s : Sys n} {a : Act n} (ha : a.byWorker) :
    (next s a).waiter = s.waiter := by
  cases a with
  | take w => rfl
  | dequeue w =>
      rcases next_dequeue_cases s w with ⟨-, hnext⟩ | ⟨-, -, hnext⟩ | ⟨j, -, -, hnext⟩ <;>
        rw [hnext]
  | execute w ret | finish w => simp only [next]; split <;> rfl
  | notify w =>
      simp only [next]
      split
      · next j e _ => cases hh : (s.mem.jobs j).targetHsm <;> simp [notifyStep, hh]
      · rfl
  | _ => exact absurd rfl ha

/-- Where all workers have exited, none of them moves. -/
lemma not_byWorker_of_exited {t : Sys n} {a : Act n} (ht : ∀ w, t.pc w = .exited)
    (ha : enabled t a) : ¬ a.byWorker := by
  intro hact
  cases a with
  | take w | dequeue w =>
      have hw := ha.1
      rw [ht w] at hw
      cases hw
  | execute w ret | finish w => simp [enabled, ht w] at ha
  | notify w => simp [enabled, ht w, WorkerPc.holdsLock] at ha
  | _ => exact hact rfl

/-- The steps a worker still has to make before it is back in `osa_sem_wait`. -/
def WorkerPc.owed : WorkerPc → ℕ
  | .waiting | .exited => 0
  | .woken => 4
  | .running _ => 3
  | .executed _ _ => 2
  | .notifying _ _ => 1

/-- The steps the workers still have to make if there is a job for every token. -/
def owed (s : Sys n) : ℕ := 5 * s.mem.pool.workSem.posixSem + load WorkerPc.owed s.pc

/-- The wake-ups to an empty queue. -/
def idles (l : List (Event n)) : ℕ := l.countP fun e => e matches .idled _

/-- The cancels that returned `0`. -/
def cancels (l : List (Event n)) : ℕ := l.countP fun e => e matches .cancelled _ _

lemma idles_silent {es : List (Event n)} (hes : ∀ e ∈ es, e.silent) (l : List (Event n)) :
    idles (es ++ l) = idles l := by
  have hzero : es.countP (fun e => e matches .idled _) = 0 := by
    rw [List.countP_eq_zero]
    intro e he
    have := hes e he
    cases e <;> simp_all [Event.silent]
  rw [idles, List.countP_append, hzero, Nat.zero_add]
  rfl

lemma Event.quiet_of_silent {e : Event n} (he : e.silent) : e.quiet := by
  cases e <;> simp_all [Event.silent]

lemma cancels_silent {es : List (Event n)} (hes : ∀ e ∈ es, e.silent) (l : List (Event n)) :
    cancels (es ++ l) = cancels l := by
  have hzero : es.countP (fun e => e matches .cancelled _ _) = 0 := by
    rw [List.countP_eq_zero]
    intro e he
    have := Event.quiet_of_silent (hes e he)
    cases e <;> simp_all [Event.quiet]
  rw [cancels, List.countP_append, hzero, Nat.zero_add]
  rfl

/-- **The balance of one step**: an accepted job and a post of `osa_worker_pool_stop` are
worth five steps, and a worker that wakes up for nothing saves three. -/
lemma WorkMove.owed_eq {s t : Sys n} {a : Act n} (h : WorkMove s a t) :
    ∃ x, (s.mem.pool.shutdown = false → x = 0) ∧
      owed t + (if a.byWorker then 1 else 0) + 3 * (idles t.log + x)
          + 5 * (accepts s.log).length
        = owed s + 3 * idles s.log + 5 * (accepts t.log).length
          + (if a = .stopPost then 5 else 0) := by
  -- the worker `w` goes from its place to `p`
  have hmove : ∀ (w : Fin n) (p : WorkerPc) (x : ℕ), a.worker = some w →
      t.pc = Function.update s.pc w p → (s.mem.pool.shutdown = false → x = 0) →
      5 * t.mem.pool.workSem.posixSem + p.owed + 1 + 3 * (idles t.log + x)
          + 5 * (accepts s.log).length
        = 5 * s.mem.pool.workSem.posixSem + (s.pc w).owed + 3 * idles s.log
          + 5 * (accepts t.log).length →
      ∃ x, (s.mem.pool.shutdown = false → x = 0) ∧
        owed t + (if a.byWorker then 1 else 0) + 3 * (idles t.log + x)
            + 5 * (accepts s.log).length
          = owed s + 3 * idles s.log + 5 * (accepts t.log).length
            + (if a = .stopPost then 5 else 0) := by
    intro w p x hw hpc hx hbalance
    have hload : load WorkerPc.owed (Function.update s.pc w p) + (s.pc w).owed
        = load WorkerPc.owed s.pc + p.owed := load_update _
    have hstop : a ≠ .stopPost := by rintro rfl; cases hw
    refine ⟨x, hx, ?_⟩
    rw [owed, owed, hpc, if_pos (by simp [Act.byWorker, hw]), if_neg hstop]
    omega
  cases h with
  | accept j hj hw hsem hpc hlog =>
      have hstop : a ≠ .stopPost := by
        rintro rfl
        rcases hj with ⟨_, h⟩ | ⟨_, _, _, h⟩ <;> cases h
      have hacc : (accepts t.log).length = (accepts s.log).length + 1 := by
        rw [hlog, accepts, List.length_append, List.length_singleton]
      have hidle : idles t.log = idles s.log := by rw [hlog]; simp [idles]
      refine ⟨0, fun _ => rfl, ?_⟩
      rw [owed, owed, hsem, hpc, hidle, hacc, if_neg (by simp [Act.byWorker, hw]), if_neg hstop]
      omega
  | cancel j id fuel ha _ hsem hpc hlog =>
      subst ha
      refine ⟨0, fun _ => rfl, ?_⟩
      rw [owed, owed, hsem, hpc, hlog]
      simp [Act.byWorker, Act.worker, idles, accepts]
  | post ha hsem hpc hlog =>
      subst ha
      refine ⟨0, fun _ => rfl, ?_⟩
      rw [owed, owed, hsem, hpc, hlog, if_pos rfl, if_neg (by simp [Act.byWorker, Act.worker])]
      omega
  | take w ha hw hsem hpc hlog =>
      refine hmove w _ 0 (by rw [ha]; rfl) hpc (fun _ => rfl) ?_
      rw [hlog, hw]
      simp only [WorkerPc.owed]
      omega
  | exit w ha hw hs hsem hpc hlog =>
      refine hmove w _ 1 (by rw [ha]; rfl) hpc (fun hf => absurd (hs.symm.trans hf) (by simp)) ?_
      rw [hlog, hw, hsem]
      simp only [WorkerPc.owed]
      omega
  | idle w ha hw _ hsem hpc hlog =>
      have hidle : idles t.log = idles s.log + 1 := by rw [hlog]; simp [idles]
      have hacc : accepts t.log = accepts s.log := by rw [hlog]; rfl
      refine hmove w _ 0 (by rw [ha]; rfl) hpc (fun _ => rfl) ?_
      rw [hidle, hacc, hw, hsem]
      simp only [WorkerPc.owed]
      omega
  | pick w j ha hw _ hsem hpc hlog =>
      have hidle : idles t.log = idles s.log := by rw [hlog]; simp [idles]
      have hacc : accepts t.log = accepts s.log := by rw [hlog]; rfl
      refine hmove w _ 0 (by rw [ha]; rfl) hpc (fun _ => rfl) ?_
      rw [hidle, hacc, hw, hsem]
      simp only [WorkerPc.owed]
      omega
  | run w j e x hact hw hx hsem hpc hlog =>
      have hidle : idles t.log = idles s.log := by
        rw [hlog]; rcases hx with rfl | rfl <;> simp [idles]
      have hacc : accepts t.log = accepts s.log := by
        rw [hlog]; rcases hx with rfl | rfl <;> rfl
      refine hmove w _ 0 hact hpc (fun _ => rfl) ?_
      rw [hidle, hacc, hw, hsem]
      simp only [WorkerPc.owed]
      omega
  | settle w j e hact hw hsem hpc hlog =>
      have hidle : idles t.log = idles s.log := by rw [hlog]; simp [idles]
      have hacc : accepts t.log = accepts s.log := by rw [hlog]; rfl
      refine hmove w _ 0 hact hpc (fun _ => rfl) ?_
      rw [hidle, hacc, hw, hsem]
      simp only [WorkerPc.owed]
      omega
  | tell w j e es hact hw hsem hpc hes hlog =>
      refine hmove w _ 0 hact hpc (fun _ => rfl) ?_
      rw [hlog, idles_silent hes, accepts_quiet fun e he => Event.quiet_of_silent (hes e he), hw,
        hsem]
      simp only [WorkerPc.owed]
      omega
  | other es hw hstop hsem hpc hes hlog =>
      refine ⟨0, fun _ => rfl, ?_⟩
      rw [owed, owed, hsem, hpc, hlog, idles_silent hes,
        accepts_quiet fun e he => Event.quiet_of_silent (hes e he),
        if_neg (by simp [Act.byWorker, hw]), if_neg hstop]
      omega

/-- A step of a worker accepts nothing. -/
lemma WorkMove.accepts_of_byWorker {s t : Sys n} {a : Act n} (h : WorkMove s a t)
    (ha : a.byWorker) : accepts t.log = accepts s.log := by
  cases h with
  | accept _ _ hw | other _ hw => exact absurd hw ha
  | cancel _ _ _ hact | post hact => rw [hact] at ha; exact absurd rfl ha
  | take w _ _ _ _ hlog | exit w _ _ _ _ _ hlog => rw [hlog]
  | idle w _ _ _ _ _ hlog | pick w j _ _ _ _ _ hlog | settle w j e _ _ _ _ hlog =>
      rw [hlog]; rfl
  | run w j e x _ _ hx _ _ hlog => rw [hlog]; rcases hx with rfl | rfl <;> rfl
  | tell w j e es _ _ _ _ hes hlog =>
      rw [hlog, accepts_quiet fun e he => Event.quiet_of_silent (hes e he)]

/-- No step takes a wake-up for nothing back. -/
lemma WorkMove.idles_le {s t : Sys n} {a : Act n} (h : WorkMove s a t) :
    idles s.log ≤ idles t.log := by
  cases h with
  | post _ _ _ hlog | take _ _ _ _ _ hlog | exit _ _ _ _ _ _ hlog => rw [hlog]
  | accept _ _ _ _ _ hlog | cancel _ _ _ _ _ _ _ hlog | idle _ _ _ _ _ _ hlog
  | pick _ _ _ _ _ _ _ hlog | run _ _ _ _ _ _ _ _ _ hlog | settle _ _ _ _ _ _ _ hlog =>
      rw [hlog]
      simp [idles, List.countP_cons]
  | tell _ _ _ es _ _ _ _ hes hlog | other es _ _ _ _ hes hlog => rw [hlog, idles_silent hes]

end OpenHsm
