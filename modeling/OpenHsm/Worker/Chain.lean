import OpenHsm.Library.DoublyLinked
import OpenHsm.Worker.Pool

/-!
What each critical section of the pool does to the job queue.

* `Memory.Queue`: the queue holds a list of jobs, and the `prev` of the first one is `b`.
  After a dequeue that leaves a job behind, `b` is the job just taken.
* `enqueueJob_queue`, `dequeueJob_queue`, `unlinkJob_queue`: linking, taking and
  unlinking a job are the operations of `Library/DoublyLinked.lean`.
* `cancelSearch_eq`: on a well formed queue the search of a cancel ends, and stops at
  the first job with the id.
-/

namespace OpenHsm

open DoublyLinked

/-- The queue of the pool holds the jobs of `l` in order; the `prev` of its first job is
`b`. -/
def Memory.Queue (m : Memory) (b : Option JobRef) (l : List JobRef) : Prop :=
  DList m.next m.prev m.pool.jobQueueHead m.pool.jobQueueTail b l

/-! ### Submitting -/

@[simp] lemma assignId_pool (m : Memory) (j : JobRef) : (assignId m j).pool = m.pool := by
  simp only [assignId, getNextJobId]; split <;> rfl

@[simp] lemma assignId_initialized (m : Memory) (j : JobRef) :
    (assignId m j).gJobPoolInitialized = m.gJobPoolInitialized := by
  simp only [assignId, getNextJobId]; split <;> rfl

@[simp] lemma assignId_next (m : Memory) (j : JobRef) : (assignId m j).next = m.next := by
  simp only [assignId, getNextJobId]
  split
  · rw [Memory.setId_next]; rfl
  · rfl

@[simp] lemma assignId_prev (m : Memory) (j : JobRef) : (assignId m j).prev = m.prev := by
  simp only [assignId, getNextJobId]
  split
  · rw [Memory.setId_prev]; rfl
  · rfl

@[simp] lemma assignId_state (m : Memory) (j : JobRef) : (assignId m j).state = m.state := by
  simp only [assignId, getNextJobId]
  split
  · rw [Memory.setId_state]; rfl
  · rfl

/-- Linking a job behind the tail appends it to the queue. -/
lemma enqueueJob_queue {m : Memory} {b : Option JobRef} {l : List JobRef} {j : JobRef}
    (h : m.Queue b l) (hj : j ∉ l) :
    (enqueueJob m j).Queue (if m.pool.jobQueueTail = none then none else b) (l ++ [j]) := by
  rw [Memory.Queue] at h ⊢
  cases ht : m.pool.jobQueueTail with
  | none =>
      rw [ht] at h
      simpa [enqueueJob, ht] using h.append_empty
  | some t =>
      rw [ht] at h
      simpa [enqueueJob, ht] using h.append hj

/-- Linking sets the state of the job. -/
@[simp] lemma enqueueJob_state (m : Memory) (j : JobRef) :
    (enqueueJob m j).state = Function.update m.state j .pending := by
  simp only [enqueueJob]
  simp only [Memory.setPrev_pool, Memory.setNext_pool, Memory.setState_pool]
  cases m.pool.jobQueueTail <;> simp

@[simp] lemma enqueueJob_data (m : Memory) (j : JobRef) : (enqueueJob m j).data = m.data := by
  simp only [enqueueJob]
  simp only [Memory.setPrev_pool, Memory.setNext_pool, Memory.setState_pool]
  cases m.pool.jobQueueTail <;> simp

@[simp] lemma enqueueJob_initialized (m : Memory) (j : JobRef) :
    (enqueueJob m j).gJobPoolInitialized = m.gJobPoolInitialized := by
  simp only [enqueueJob]
  simp only [Memory.setPrev_pool, Memory.setNext_pool, Memory.setState_pool]
  cases m.pool.jobQueueTail <;> rfl

@[simp] lemma enqueueJob_stats (m : Memory) (j : JobRef) :
    (enqueueJob m j).pool.stats = m.pool.stats := by
  simp only [enqueueJob]
  simp only [Memory.setPrev_pool, Memory.setNext_pool, Memory.setState_pool]
  cases m.pool.jobQueueTail <;> rfl

@[simp] lemma enqueueJob_queueSize (m : Memory) (j : JobRef) :
    (enqueueJob m j).pool.queueSize = m.pool.queueSize := by
  simp only [enqueueJob]
  simp only [Memory.setPrev_pool, Memory.setNext_pool, Memory.setState_pool]
  cases m.pool.jobQueueTail <;> rfl

/-! ### Taking the head -/

/-- Taking a job off the head; the next job still points back to it. -/
lemma dequeueJob_queue {m : Memory} {b : Option JobRef} {j : JobRef} {l : List JobRef}
    (h : m.Queue b (j :: l)) : (dequeueJob m).2.Queue (some j) l := by
  rw [Memory.Queue] at h ⊢
  have hhead : m.pool.jobQueueHead = some j := h.head_eq
  have hpop := h.pop
  cases hn : m.next j with
  | none =>
      simp only [hn, if_true] at hpop
      simpa [dequeueJob, hhead, hn] using hpop
  | some k =>
      simp only [hn, reduceCtorEq, if_false] at hpop
      simpa [dequeueJob, hhead, hn] using hpop

section Dequeue

variable {m : Memory} {j : JobRef} (hhead : m.pool.jobQueueHead = some j)

lemma dequeueJob_none {m : Memory} (hhead : m.pool.jobQueueHead = none) :
    dequeueJob m = (none, m) := by
  rw [dequeueJob, hhead]

include hhead

lemma dequeueJob_fst : (dequeueJob m).1 = some j := by
  simp [dequeueJob, hhead]

lemma dequeueJob_state : (dequeueJob m).2.state = Function.update m.state j .running := by
  cases hn : m.next j <;> simp [dequeueJob, hhead, hn]

lemma dequeueJob_data : (dequeueJob m).2.data = m.data := by
  cases hn : m.next j <;> simp [dequeueJob, hhead, hn]

lemma dequeueJob_initialized :
    (dequeueJob m).2.gJobPoolInitialized = m.gJobPoolInitialized := by
  cases hn : m.next j <;> simp [dequeueJob, hhead, hn]

lemma dequeueJob_pool : (dequeueJob m).2.pool =
    { m.pool with
      jobQueueHead := m.next j
      jobQueueTail := if m.next j = none then none else m.pool.jobQueueTail
      stats := { m.pool.stats with
        activeWorkers := m.pool.stats.activeWorkers + 1
        queueDepth := m.pool.stats.queueDepth - 1 } } := by
  cases hn : m.next j <;> simp [dequeueJob, hhead, hn]

end Dequeue

/-- A worker that finds the pool shutting down leaves. -/
lemma next_dequeue_exit {s : Sys n} {w : Fin n} (hs : s.mem.pool.shutdown = true) :
    next s (.dequeue w) = { s with pc := Function.update s.pc w .exited } := by
  simp only [next, hs, if_true]

/-- One that finds no job waits for the next token. -/
lemma next_dequeue_idle {s : Sys n} {w : Fin n} (hs : s.mem.pool.shutdown = false)
    (hhead : s.mem.pool.jobQueueHead = none) :
    next s (.dequeue w) =
      { s with pc := Function.update s.pc w .waiting, log := .idled w :: s.log } := by
  simp only [next, hs, dequeueJob_none hhead, Bool.false_eq_true, if_false]

/-- Otherwise it takes the job at the head. -/
lemma next_dequeue_run {s : Sys n} {w : Fin n} {j : JobRef} (hs : s.mem.pool.shutdown = false)
    (hhead : s.mem.pool.jobQueueHead = some j) :
    next s (.dequeue w) =
      { s with
        mem := (dequeueJob s.mem).2
        pc := Function.update s.pc w (.running j)
        log := .dequeued w j :: s.log } := by
  simp only [next, hs, dequeueJob_fst hhead, Bool.false_eq_true, if_false]

/-- **What a dequeue can do.** -/
lemma next_dequeue_cases (s : Sys n) (w : Fin n) :
    (s.mem.pool.shutdown = true ∧
      next s (.dequeue w) = { s with pc := Function.update s.pc w .exited }) ∨
    (s.mem.pool.shutdown = false ∧ s.mem.pool.jobQueueHead = none ∧
      next s (.dequeue w) =
        { s with pc := Function.update s.pc w .waiting, log := .idled w :: s.log }) ∨
    ∃ j, s.mem.pool.shutdown = false ∧ s.mem.pool.jobQueueHead = some j ∧
      next s (.dequeue w) =
        { s with
          mem := (dequeueJob s.mem).2
          pc := Function.update s.pc w (.running j)
          log := .dequeued w j :: s.log } := by
  cases hs : s.mem.pool.shutdown with
  | true => exact .inl ⟨rfl, next_dequeue_exit hs⟩
  | false =>
      cases hhead : s.mem.pool.jobQueueHead with
      | none => exact .inr (.inl ⟨rfl, rfl, next_dequeue_idle hs hhead⟩)
      | some j => exact .inr (.inr ⟨j, rfl, rfl, next_dequeue_run hs hhead⟩)

/-! ### Cancelling -/

/-- Unlinking a job removes it from the queue; at the front this needs the `prev` of the
first job to be null. -/
lemma unlinkJob_queue {m : Memory} {b : Option JobRef} {pre post : List JobRef} {j : JobRef}
    (h : m.Queue b (pre ++ j :: post)) (hb : pre = [] → b = none) :
    (unlinkJob m j).Queue b (pre ++ post) := by
  rw [Memory.Queue] at h ⊢
  have hrem := h.remove hb
  cases hp : m.prev j with
  | none =>
      cases hn : m.next j <;>
        simpa [unlinkJob, unlinkBackward, unlinkForward, hp, hn] using hrem
  | some p =>
      have hself : Function.update m.next p (m.next j) j = m.next j := by
        by_cases he : j = p
        · rw [← he, Function.update_self]
        · rw [Function.update_of_ne he]
      cases hn : m.next j <;> rw [hn] at hself <;>
        simpa [unlinkJob, unlinkBackward, unlinkForward, hp, hn, hself] using hrem

@[simp] lemma unlinkJob_state (m : Memory) (j : JobRef) : (unlinkJob m j).state = m.state := by
  simp only [unlinkJob, unlinkBackward, unlinkForward]
  split <;> split <;> simp

@[simp] lemma unlinkJob_data (m : Memory) (j : JobRef) : (unlinkJob m j).data = m.data := by
  simp only [unlinkJob, unlinkBackward, unlinkForward]
  split <;> split <;> simp

@[simp] lemma unlinkJob_initialized (m : Memory) (j : JobRef) :
    (unlinkJob m j).gJobPoolInitialized = m.gJobPoolInitialized := by
  simp only [unlinkJob, unlinkBackward, unlinkForward]
  split <;> split <;> rfl

@[simp] lemma unlinkJob_stats (m : Memory) (j : JobRef) :
    (unlinkJob m j).pool.stats = m.pool.stats := by
  simp only [unlinkJob, unlinkBackward, unlinkForward]
  split <;> split <;> rfl

@[simp] lemma unlinkJob_queueSize (m : Memory) (j : JobRef) :
    (unlinkJob m j).pool.queueSize = m.pool.queueSize := by
  simp only [unlinkJob, unlinkBackward, unlinkForward]
  split <;> split <;> rfl

/-- On a well formed queue the search ends, and finds the first job with the id. -/
lemma cancelSearch_eq {m : Memory} {id : UInt32} {l : List JobRef} {fuel : ℕ}
    {p : Option JobRef} (h : Path m.next p l none) {r : Option JobRef}
    (hr : cancelSearch m id fuel p = some r) :
    r = l.find? fun j => (m.jobs j).id = id := by
  induction l generalizing p fuel with
  | nil =>
      obtain rfl : p = none := h
      rw [cancelSearch] at hr
      simpa using hr.symm
  | cons j l ih =>
      obtain ⟨rfl, hl⟩ := h
      cases fuel with
      | zero => rw [cancelSearch] at hr; cases hr
      | succ fuel =>
          rw [cancelSearch] at hr
          by_cases hid : (m.jobs j).id = id
          · rw [if_pos hid] at hr
            simpa [hid] using hr.symm
          · rw [if_neg hid] at hr
            simpa [hid] using ih hl hr

/-- The search ends within as many iterations as there are jobs in the queue. -/
lemma cancelSearch_isSome {m : Memory} {id : UInt32} {l : List JobRef} {fuel : ℕ}
    {p : Option JobRef} (h : Path m.next p l none) (hf : l.length ≤ fuel) :
    (cancelSearch m id fuel p).isSome := by
  induction l generalizing p fuel with
  | nil =>
      obtain rfl : p = none := h
      cases fuel <;> rfl
  | cons j l ih =>
      obtain ⟨rfl, hl⟩ := h
      cases fuel with
      | zero => simp at hf
      | succ fuel =>
          rw [cancelSearch]
          split
          · rfl
          · exact ih hl (by simpa using hf)

end OpenHsm
