import OpenHsm.Worker.Invariant

/-!
What one step does to the pool outside its queue and its counters: the two semaphores,
the shutdown flag and the sizes.

* `Pool.frame`: the pool without its queue and its counters.
* `frameAfter`, `next_frame`: the frame after a step.  A submit that is accepted and
  `osa_worker_pool_stop` post on `work_sem`, a worker takes from it; an announcement
  posts on `complete_sem`, a waiter takes from it.
-/

namespace OpenHsm

variable {n : ℕ}

/-- The pool without its queue and its counters. -/
def Pool.frame (p : Pool) : Pool :=
  { p with jobQueueHead := none, jobQueueTail := none, stats := ⟨0, 0, 0, 0, 0, 0⟩ }

/-- The frame after a step. -/
def frameAfter (s : Sys n) (a : Act n) : Pool :=
  let p := s.mem.pool.frame
  match a with
  | .submit _ _ | .submitToHsm _ _ _ _ =>
      if s.mem.pool.stats.queueDepth < s.mem.pool.queueSize then
        { p with workSem := osaSemPost p.workSem }
      else p
  | .take _ => { p with workSem := osaSemTake p.workSem }
  | .stopPost => { p with workSem := osaSemPost p.workSem }
  | .stopBegin => { p with shutdown := true }
  | .notify _ => { p with completeSem := osaSemPost p.completeSem }
  | .waitTake _ => { p with completeSem := osaSemTake p.completeSem }
  | _ => p

lemma enqueueJob_frame (m : Memory) (j : JobRef) :
    (enqueueJob m j).pool.frame = m.pool.frame := by
  simp only [enqueueJob, Memory.setPrev_pool, Memory.setNext_pool, Memory.setState_pool]
  cases m.pool.jobQueueTail <;> rfl

lemma dequeueJob_frame (m : Memory) : (dequeueJob m).2.pool.frame = m.pool.frame := by
  cases hh : m.pool.jobQueueHead with
  | none => rw [dequeueJob_none hh]
  | some j => rw [dequeueJob_pool hh]; rfl

lemma cancelJob_frame (m : Memory) (j : JobRef) :
    (cancelJob m j).pool.frame = m.pool.frame := by
  simp only [cancelJob, unlinkJob, unlinkBackward, unlinkForward]
  split <;> split <;> rfl

/-- A submit posts on `work_sem` if it accepts the job. -/
lemma osaWorkerPoolSubmit_frame (m : Memory) (j : JobRef) :
    (osaWorkerPoolSubmit m (some j)).2.pool.frame =
      if m.pool.stats.queueDepth < m.pool.queueSize then
        { m.pool.frame with workSem := osaSemPost m.pool.workSem }
      else m.pool.frame := by
  rcases osaWorkerPoolSubmit_cases m j with ⟨hle, hr⟩ | ⟨hlt, -, hr⟩
  · rw [hr, if_neg (UInt32.not_lt.mpr hle)]
  · have hpool : (enqueueJob (assignId m j) j).pool.frame = m.pool.frame := by
      rw [enqueueJob_frame, assignId_pool]
    have hsem : (enqueueJob (assignId m j) j).pool.workSem = m.pool.workSem :=
      (congrArg Pool.workSem hpool :)
    rw [hr, if_pos hlt, ← hpool, ← hsem]
    rfl

/-- **What a step does to the frame of the pool.** -/
theorem next_frame {s : Sys n} {a : Act n} (ha : enabled s a) :
    (next s a).mem.pool.frame = frameAfter s a := by
  cases a with
  | submit c j => exact osaWorkerPoolSubmit_frame s.mem j
  | submitToHsm c j t sig => exact osaWorkerPoolSubmit_frame (s.mem.setTarget j t sig) j
  | alloc c =>
      rw [next_alloc_mem, osaWorkerJobAlloc_pool]
      rfl
  | cancel id fuel =>
      rcases next_cancel_cases s id fuel with hnext | hnext | ⟨j, hnext⟩ <;> rw [hnext]
      · rfl
      · rfl
      · exact cancelJob_frame s.mem j
  | dequeue w =>
      rcases next_dequeue_cases s w with ⟨-, hnext⟩ | ⟨-, -, hnext⟩ | ⟨j, -, -, hnext⟩ <;>
        rw [hnext]
      · rfl
      · rfl
      · exact dequeueJob_frame s.mem
  | execute w ret => simp only [next]; split <;> rfl
  | finish w =>
      simp only [next]
      split
      · next j e _ => simp only [finishJob, Memory.modifyStats]; rfl
      · rfl
  | notify w =>
      cases hw : s.pc w with
      | notifying j e =>
          simp only [next, hw, notifyStep]
          cases (s.mem.jobs j).targetHsm <;> rfl
      | _ => simp [enabled, hw, WorkerPc.holdsLock] at ha
  | waitTake x =>
      simp only [enabled] at ha
      simp only [next]
      split
      · rfl
      · next hx =>
          split at ha
          · next j t hj => exact absurd hj (hx j t)
          · exact ha.elim
  | stopPost =>
      simp only [enabled] at ha
      simp only [next]
      split
      · rfl
      · next hx =>
          split at ha
          · next k hk => exact absurd hk (hx k)
          · exact ha.elim
  | handledFree k =>
      simp only [next]
      split
      · next j _ _ => cases j <;> rfl
      · rfl
  | free c j => cases j <;> rfl
  | waitCall x j t | waitFail x err | waitReturn x => simp only [next]; split <;> rfl
  | init c j args | take w | stopBegin | stopJoin w | hsmStart k | post k sig | receive k
  | handled k => rfl

/-! ### What the frame holds -/

section Fields

variable {s : Sys n} {a : Act n}

/-- No step changes the number of workers. -/
lemma next_numWorkers (ha : enabled s a) :
    (next s a).mem.pool.numWorkers = s.mem.pool.numWorkers := by
  have hframe : (next s a).mem.pool.numWorkers = (frameAfter s a).numWorkers :=
    (congrArg Pool.numWorkers (next_frame ha) :)
  rw [hframe]
  cases a <;> simp only [frameAfter] <;> (try split) <;> rfl

/-- No step changes the size of the queue. -/
lemma next_queueSize (ha : enabled s a) :
    (next s a).mem.pool.queueSize = s.mem.pool.queueSize := by
  have hframe : (next s a).mem.pool.queueSize = (frameAfter s a).queueSize :=
    (congrArg Pool.queueSize (next_frame ha) :)
  rw [hframe]
  cases a <;> simp only [frameAfter] <;> (try split) <;> rfl

/-- The shutdown flag is set by `osa_worker_pool_stop` and never cleared. -/
lemma next_shutdown (ha : enabled s a) : (next s a).mem.pool.shutdown = true ↔
    (s.mem.pool.shutdown = true ∨ a = .stopBegin) := by
  have hframe : (next s a).mem.pool.shutdown = (frameAfter s a).shutdown :=
    (congrArg Pool.shutdown (next_frame ha) :)
  rw [hframe]
  cases a <;> simp only [frameAfter] <;> (try split) <;> simp [Pool.frame]

lemma next_workSem (ha : enabled s a) :
    (next s a).mem.pool.workSem = (frameAfter s a).workSem :=
  (congrArg Pool.workSem (next_frame ha) :)

lemma next_completeSem (ha : enabled s a) :
    (next s a).mem.pool.completeSem = (frameAfter s a).completeSem :=
  (congrArg Pool.completeSem (next_frame ha) :)

end Fields

end OpenHsm
