import OpenHsm.Worker.Invariant

/-!
Submissions that are refused: what `osa_worker_pool_submit` and
`osa_worker_pool_submit_to_hsm` leave behind when they return `-1`.

* `Submission`, `Submission.call`, `afterCall`: a call of either function.
* `SameNotifications`, `Alike`, `LeavesNoTrace`: the memory is as before a refused call, and
  whatever is done next, the notifications are those made without it.
* `Sys.withLog`, `next_withLog`, `alike_withLog`: no step reads the log, so two states that
  differ in it only go on alike.
* `Submission.call_refused_iff`, `Submission.Retargets.refused_iff`: what a refused call has
  written, and when a call is refused.
* `leavesNoTrace_iff`: the exact condition.  `stale_target_is_notified` is the run in which a
  state machine hears of a job that was submitted without one.
-/

namespace OpenHsm

open Runs

variable {n : ℕ}

/-! ### The calls and what they leave -/

/-- A call of `osa_worker_pool_submit` or `osa_worker_pool_submit_to_hsm`; `none` is a `NULL`
job. -/
inductive Submission where
  | plain (job : Option JobRef)
  | toHsm (job : Option JobRef) (targetHsm : Option ℕ) (completionSignal : Int)
  deriving DecidableEq, Repr

namespace Submission

/-- The job of the call. -/
def job : Submission → Option JobRef
  | .plain job | .toHsm job _ _ => job

/-- What the call returns and leaves in memory. -/
def call (m : Memory) : Submission → Int × Memory
  | .plain job => osaWorkerPoolSubmit m job
  | .toHsm job h sig => osaWorkerPoolSubmitToHsm m job h sig

/-- The call asks for another notification than the job has in it. -/
def Retargets (m : Memory) : Submission → Prop
  | .plain _ | .toHsm none _ _ => False
  | .toHsm (some j) h sig => ¬ ((m.jobs j).targetHsm = h ∧ (m.jobs j).completionSignal = sig)

end Submission

/-- The pool after the call of client `c`. -/
def afterCall (s : Sys n) (c : ℕ) (x : Submission) : Sys n :=
  match x.job with
  | some j => afterSubmit s c j (x.call s.mem)
  | none => { s with mem := (x.call s.mem).2 }

/-- The completion events posted so far, with what the posts returned, newest first. -/
def announcements (l : List (Event n)) : List (ℕ × JobRef × Int) :=
  l.filterMap fun
    | .announced h j ret => some (h, j, ret)
    | _ => none

/-- The state machines have the same events, and the same ones were posted. -/
structure SameNotifications (s t : Sys n) : Prop where
  hsm : s.hsm = t.hsm
  announced : announcements s.log = announcements t.log

/-- What can be done from `s` can be done from `t`, with the same notifications. -/
def Alike (s t : Sys n) : Prop :=
  ∀ l u, (poolSystem n).RunFrom s l u → ∃ l' u', (poolSystem n).RunFrom t l' u' ∧
    l'.map Prod.snd = l.map Prod.snd ∧ SameNotifications u u'

/-- If the call returns `-1`, then every field of every job, the queue, the counters and the
semaphores are as before it, and whatever is done next is done as if it had not been made. -/
def LeavesNoTrace (s : Sys n) (c : ℕ) (x : Submission) : Prop :=
  (x.call s.mem).1 = -1 →
    (x.call s.mem).2 = s.mem ∧ Alike (afterCall s c x) s ∧ Alike s (afterCall s c x)

/-! ### The log is a ghost -/

/-- The same state with another log. -/
def Sys.withLog (s : Sys n) (L : List (Event n)) : Sys n := { s with log := L }

/-- The end of a completion section reads no log. -/
lemma notifyStep_withLog (s : Sys n) (w : Fin n) (j : JobRef) (e : Execution) :
    ∃ es, ∀ L, notifyStep (s.withLog L) w j e = (notifyStep s w j e).withLog (es ++ L) := by
  cases hcb : (s.mem.jobs j).completeCb with
  | none =>
      cases hh : (s.mem.jobs j).targetHsm with
      | none => exact ⟨[], fun L => by simp [notifyStep, Sys.withLog, hcb, hh]⟩
      | some h => exact ⟨[_], fun L => by simp [notifyStep, Sys.withLog, hcb, hh]; rfl⟩
  | some f =>
      cases hh : (s.mem.jobs j).targetHsm with
      | none => exact ⟨[_], fun L => by simp [notifyStep, Sys.withLog, hcb, hh]; rfl⟩
      | some h =>
          exact ⟨[_, _], fun L => by simp [notifyStep, Sys.withLog, hcb, hh]; exact ⟨rfl, rfl⟩⟩

/-- **No step reads the log**: it adds the same events to any. -/
lemma next_withLog (s : Sys n) (a : Act n) :
    ∃ es, ∀ L, next (s.withLog L) a = (next s a).withLog (es ++ L) := by
  cases a with
  | init c j args => exact ⟨[.initialised j], fun _ => rfl⟩
  | alloc c =>
      cases hr : osaWorkerJobAlloc s.mem with
      | mk r m =>
          cases r with
          | none => exact ⟨[], fun L => by simp [next, Sys.withLog, hr]⟩
          | some i => exact ⟨[.allocated i], fun L => by simp [next, Sys.withLog, hr]⟩
  | free c j => exact ⟨[.freed j], fun _ => rfl⟩
  | submit c j => exact ⟨[submitEvent (osaWorkerPoolSubmit s.mem (some j)).1 j], fun _ => rfl⟩
  | submitToHsm c j h sig =>
      exact ⟨[submitEvent (osaWorkerPoolSubmitToHsm s.mem (some j) h sig).1 j], fun _ => rfl⟩
  | cancel id fuel =>
      cases hr : osaWorkerPoolCancel s.mem id fuel with
      | none => exact ⟨[], fun L => by simp [next, Sys.withLog, hr]⟩
      | some r => exact ⟨[cancelEvent s.mem id fuel], fun L => by simp [next, Sys.withLog, hr]⟩
  | take w => exact ⟨[], fun _ => rfl⟩
  | dequeue w =>
      cases hsd : s.mem.pool.shutdown with
      | true => exact ⟨[], fun L => by simp [next, Sys.withLog, hsd]⟩
      | false =>
          cases hr : dequeueJob s.mem with
          | mk r m =>
              cases r with
              | none => exact ⟨[.idled w], fun L => by simp [next, Sys.withLog, hsd, hr]⟩
              | some j => exact ⟨[.dequeued w j], fun L => by simp [next, Sys.withLog, hsd, hr]⟩
  | execute w ret =>
      cases hw : s.pc w with
      | running j =>
          by_cases hf : ((executeJob s.mem j ret).jobs j).jobFunc = none
          · exact ⟨[.skipped w j], fun L => by simp [next, Sys.withLog, hw, hf]⟩
          · exact ⟨[.called w j], fun L => by simp [next, Sys.withLog, hw, hf]⟩
      | waiting | woken | executed | notifying | exited =>
          exact ⟨[], fun L => by simp [next, Sys.withLog, hw]⟩
  | finish w =>
      cases hw : s.pc w with
      | executed j e => exact ⟨[.finished w j], fun L => by simp [next, Sys.withLog, hw]⟩
      | waiting | woken | running | notifying | exited =>
          exact ⟨[], fun L => by simp [next, Sys.withLog, hw]⟩
  | notify w =>
      cases hw : s.pc w with
      | notifying j e =>
          obtain ⟨es, hes⟩ := notifyStep_withLog s w j e
          exact ⟨es, fun L => by simpa [next, Sys.withLog, hw] using hes L⟩
      | waiting | woken | running | executed | exited =>
          exact ⟨[], fun L => by simp [next, Sys.withLog, hw]⟩
  | waitCall x j t =>
      by_cases ht : t = 0
      · exact ⟨[.waited x j 0 (pollStatus s.mem j)], fun L => by simp [next, Sys.withLog, ht]⟩
      · exact ⟨[], fun L => by simp [next, Sys.withLog, ht]⟩
  | waitTake x =>
      cases hx : s.waiter x <;> exact ⟨[], fun L => by simp [next, Sys.withLog, hx]⟩
  | waitFail x err =>
      cases hx : s.waiter x <;> exact ⟨[], fun L => by simp [next, Sys.withLog, hx]⟩
  | waitReturn x =>
      cases hx : s.waiter x with
      | returned j t ret =>
          exact ⟨[.waited x j t (waitResult t ret)], fun L => by simp [next, Sys.withLog, hx]⟩
      | idle | blocked => exact ⟨[], fun L => by simp [next, Sys.withLog, hx]⟩
  | stopBegin => exact ⟨[], fun _ => rfl⟩
  | stopPost =>
      cases hp : s.stop <;> exact ⟨[], fun L => by simp [next, Sys.withLog, hp]⟩
  | stopJoin w => exact ⟨[], fun _ => rfl⟩
  | hsmStart h => exact ⟨[], fun _ => rfl⟩
  | post h sig => exact ⟨[], fun _ => rfl⟩
  | receive h => exact ⟨[], fun _ => rfl⟩
  | handled h => exact ⟨[], fun _ => rfl⟩
  | handledFree h =>
      cases hh : (s.hsm h).handling with
      | none => exact ⟨[], fun L => by simp [next, Sys.withLog, hh]⟩
      | some msg =>
          cases msg with
          | completion sig j e =>
              exact ⟨[.freed j], fun L => by simp [next, Sys.withLog, hh, freeStep, setHsm]⟩
          | other sig => exact ⟨[], fun L => by simp [next, Sys.withLog, hh]⟩

/-- Nor does it decide what can be done. -/
lemma enabled_withLog (s : Sys n) (L : List (Event n)) (a : Act n) :
    enabled (s.withLog L) a ↔ enabled s a := by
  cases a <;> exact Iff.rfl

/-- **A run takes place whatever the log was.** -/
lemma runFrom_withLog {s t : Sys n} {l : List (Sys n × Act n)}
    (hl : (poolSystem n).RunFrom s l t) :
    ∃ es, t.log = es ++ s.log ∧ ∀ L, ∃ l', l'.map Prod.snd = l.map Prod.snd ∧
      (poolSystem n).RunFrom (s.withLog L) l' (t.withLog (es ++ L)) := by
  induction hl with
  | refl => exact ⟨[], rfl, fun L => ⟨[], rfl, System.RunFrom.refl⟩⟩
  | @step l u a _ ha ih =>
      obtain ⟨es, hlog, ih⟩ := ih
      obtain ⟨es', hnext⟩ := next_withLog u a
      refine ⟨es' ++ es, ?_, fun L => ?_⟩
      · have hu : (next u a).log = es' ++ u.log := congrArg Sys.log (hnext u.log)
        calc (next u a).log = es' ++ u.log := hu
          _ = es' ++ es ++ s.log := by rw [hlog, List.append_assoc]
      · obtain ⟨l', hl', hrun⟩ := ih L
        refine ⟨(u.withLog (es ++ L), a) :: l', by simp [hl'], ?_⟩
        have hstep := hrun.step ((enabled_withLog u _ a).mpr ha)
        have hto : next (u.withLog (es ++ L)) a = (next u a).withLog (es' ++ es ++ L) := by
          rw [hnext, List.append_assoc]
        exact hto ▸ hstep

/-- **States that differ in what is no notification go on alike.** -/
lemma alike_withLog (s : Sys n) {L L' : List (Event n)}
    (h : announcements L = announcements L') : Alike (s.withLog L) (s.withLog L') := by
  intro l u hl
  obtain ⟨es, hlog, hrun⟩ := runFrom_withLog hl
  obtain ⟨l', hl', hrun⟩ := hrun L'
  refine ⟨l', _, hrun, hl', rfl, ?_⟩
  calc announcements u.log = announcements es ++ announcements L := by
        rw [hlog, announcements, List.filterMap_append]
        rfl
    _ = announcements (es ++ L') := by
        rw [h, announcements, announcements, announcements, List.filterMap_append]

/-! ### What a refused call has written -/

/-- A plain submit that returns `-1` has written nothing. -/
lemma osaWorkerPoolSubmit_refused {m : Memory} {job : Option JobRef}
    (h : (osaWorkerPoolSubmit m job).1 = -1) : osaWorkerPoolSubmit m job = (-1, m) := by
  cases job with
  | none => rfl
  | some j =>
      rcases osaWorkerPoolSubmit_cases m j with ⟨-, hr⟩ | ⟨-, hr, -⟩
      · exact hr
      · rw [hr] at h
        cases h

/-- It returns `-1` where there is no job or no room. -/
lemma osaWorkerPoolSubmit_refused_iff {m : Memory} {j : JobRef} :
    (osaWorkerPoolSubmit m (some j)).1 = -1 ↔
      m.pool.queueSize ≤ m.pool.stats.queueDepth := by
  rcases osaWorkerPoolSubmit_cases m j with ⟨hle, hr⟩ | ⟨hlt, hr, -⟩
  · exact iff_of_true (by rw [hr]) hle
  · exact iff_of_false (by rw [hr]; decide) (UInt32.not_le.mpr hlt)

/-- Writing the target that is there changes nothing, and writing another one does. -/
lemma setTarget_eq_self_iff (m : Memory) (j : JobRef) (h : Option ℕ) (sig : Int) :
    m.setTarget j h sig = m ↔
      (m.jobs j).targetHsm = h ∧ (m.jobs j).completionSignal = sig := by
  constructor
  · intro heq
    have hj : { m.jobs j with targetHsm := h, completionSignal := sig } = m.jobs j :=
      calc { m.jobs j with targetHsm := h, completionSignal := sig }
          = (m.setTarget j h sig).jobs j := (m.modifyJob_jobs_self j fun b =>
            { b with targetHsm := h, completionSignal := sig }).symm
        _ = m.jobs j := by rw [heq]
    exact ⟨(congrArg Job.targetHsm hj).symm, (congrArg Job.completionSignal hj).symm⟩
  · rintro ⟨rfl, rfl⟩
    have hj : Function.update m.jobs j (m.jobs j) = m.jobs := Function.update_eq_self ..
    rw [Memory.setTarget, Memory.modifyJob]
    simp only [hj]

/-- **What a refused call leaves in memory**: nothing, unless it asks for another notification
than the job has in it. -/
lemma Submission.call_refused_iff {m : Memory} {x : Submission} (h : (x.call m).1 = -1) :
    (x.call m).2 = m ↔ ¬ x.Retargets m := by
  cases x with
  | plain job => exact iff_of_true (by rw [Submission.call, osaWorkerPoolSubmit_refused h]) id
  | toHsm job t sig =>
      cases job with
      | none => exact iff_of_true rfl id
      | some j =>
          have hcall : (Submission.toHsm (some j) t sig).call m = (-1, m.setTarget j t sig) :=
            osaWorkerPoolSubmit_refused h
          rw [hcall, Submission.Retargets, not_not]
          exact setTarget_eq_self_iff m j t sig

/-- Such a call has a job, and is refused where the queue is full. -/
lemma Submission.Retargets.refused_iff {m : Memory} {x : Submission} (hx : x.Retargets m) :
    (x.call m).1 = -1 ↔ m.pool.queueSize ≤ m.pool.stats.queueDepth := by
  match x with
  | .toHsm (some j) t sig =>
      exact osaWorkerPoolSubmit_refused_iff (m := m.setTarget j t sig) (j := j)

/-- **A refused submission leaves no trace exactly when there is room for it, or it asks for no
other notification than the job has in it.** -/
theorem leavesNoTrace_iff (s : Sys n) (c : ℕ) (x : Submission) :
    LeavesNoTrace s c x ↔
      s.mem.pool.stats.queueDepth < s.mem.pool.queueSize ∨ ¬ x.Retargets s.mem := by
  constructor
  · intro h
    refine or_iff_not_imp_left.mpr fun hroom hx => ?_
    have href := hx.refused_iff.mpr (UInt32.not_lt.mp hroom)
    exact (Submission.call_refused_iff href).mp (h href).1 hx
  · intro h href
    have hx : ¬ x.Retargets s.mem := fun hx =>
      h.elim (fun hroom => UInt32.not_le.mpr hroom (hx.refused_iff.mp href)) (fun hn => hn hx)
    have hmem : (x.call s.mem).2 = s.mem := (Submission.call_refused_iff href).mpr hx
    -- what is left of the call is an entry of the log
    obtain ⟨L, hL, hafter⟩ : ∃ L, announcements L = announcements s.log ∧
        afterCall s c x = s.withLog L := by
      cases hj : x.job with
      | none => exact ⟨s.log, rfl, by simp [afterCall, hj, hmem, Sys.withLog]⟩
      | some j =>
          refine ⟨.refused j :: s.log, rfl, ?_⟩
          simp [afterCall, hj, afterSubmit, href, hmem, submitEvent, Sys.withLog]
    have hto : Alike (s.withLog L) (s.withLog s.log) := alike_withLog s hL
    have hback : Alike (s.withLog s.log) (s.withLog L) := alike_withLog s hL.symm
    rw [hafter]
    exact ⟨hmem, hto, hback⟩

/-! ### A target that outlives its refusal -/

/-- Job `0` fills the queue of one place, and job `1` is ready. -/
def fullQueueRun : List (Act n) :=
  [.hsmStart 7, .init 0 (.object 0) ⟨some 1, none, none, none⟩, .submit 0 (.object 0),
    .init 0 (.object 1) ⟨some 1, none, none, none⟩]

/-- The worker takes job `0`, job `1` is submitted without a target, and both are done. -/
def plainRetry (w : Fin n) : List (Act n) :=
  [.take w, .dequeue w, .submit 0 (.object 1), .execute w 0, .finish w, .notify w, .take w,
    .dequeue w, .execute w 0, .finish w, .notify w]

/-- **A refused submission with a target makes a later plain one notify that target**: the
queue is full, the call returns `-1`, and the job that is then submitted without a target is
announced to state machine `7`, which hears of nothing if the call is not made. -/
theorem stale_target_is_notified :
    ∃ s, (poolSystem 1).Reachable s ∧
      ((Submission.toHsm (some (.object 1)) (some 7) 42).call s.mem).1 = -1 ∧
      ¬ LeavesNoTrace s 0 (.toHsm (some (.object 1)) (some 7) 42) ∧
      (∃ t ∈ (poolSystem 1).replay
          (afterCall s 0 (.toHsm (some (.object 1)) (some 7) 42)) (plainRetry 0),
        announcements t.log = [(7, .object 1, 0)]) ∧
      ∃ t ∈ (poolSystem 1).replay s (plainRetry 0), announcements t.log = [] := by
  obtain ⟨s, hs, href, htarget, hwith, hwithout⟩ : ∃ s, (poolSystem 1).Reachable s ∧
      ((Submission.toHsm (some (.object 1)) (some 7) 42).call s.mem).1 = -1 ∧
      (((Submission.toHsm (some (.object 1)) (some 7) 42).call s.mem).2.jobs
        (.object 1)).targetHsm ≠ (s.mem.jobs (.object 1)).targetHsm ∧
      (∃ t ∈ (poolSystem 1).replay
          (afterCall s 0 (.toHsm (some (.object 1)) (some 7) 42)) (plainRetry 0),
        announcements t.log = [(7, .object 1, 0)]) ∧
      ∃ t ∈ (poolSystem 1).replay s (plainRetry 0), announcements t.log = [] :=
    System.reachable_of_replay (startState_initial 1 1 1) fullQueueRun (by decide +kernel)
  refine ⟨s, hs, href, fun h => htarget ?_, hwith, hwithout⟩
  rw [(h href).1]

end OpenHsm
