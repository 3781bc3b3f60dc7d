import OpenHsm.Worker.Chain

/-!
The invariant of the pool that carries the later results.

* `QueueInv s b`: the queue holds exactly the waiting jobs, the depth counts them, the
  waiting jobs are `PENDING` and the running ones `RUNNING`, a busy static slot has an
  owner; `b` is what the first job's `prev` holds.
* `SameQueue`: what a step may do without touching the queue; `QueueInv.frame` is the
  frame rule.
* `CancelFresh`: the condition under which a cancel unlinks the job it found.  A dequeue
  leaves the `prev` of the new first job pointing at the job taken, and a cancel of
  that first job then takes the wrong branch.
* `QueueInv.step`: every step that respects the discipline and `CancelFresh` keeps the
  invariant, `backAfter` being the new value of `b`; `QueueInv.of_reachable` is the run
  lemma.
-/

namespace OpenHsm

open DoublyLinked Runs

variable {n : ℕ}

/-- The invariant of the job queue. -/
structure QueueInv (s : Sys n) (b : Option JobRef) : Prop where
  queue : s.mem.Queue b (waiting s.log)
  depth : s.mem.pool.stats.queueDepth.toNat = (waiting s.log).length
  bound : s.mem.pool.stats.queueDepth ≤ s.mem.pool.queueSize
  pending : ∀ j ∈ waiting s.log, s.mem.state j = .pending
  running : ∀ w j, (s.pc w).executing = some j → s.mem.state j = .running
  distinct : ∀ w w' j, (s.pc w).executing = some j → (s.pc w').executing = some j → w = w'
  owned : ∀ i, Busy s (.slot i) → s.owner i ≠ none
  fresh : s.mem.gJobPoolInitialized = false → ∀ i, s.owner i = none

/-- The invariant holds after `osa_worker_pool_init`. -/
lemma QueueInv.initial {s : Sys n} (h : Initial s) : QueueInv s none := by
  obtain ⟨⟨k, q, hpool⟩, -, hpc, -, -, -, howner, -, hlog⟩ := h
  refine ⟨?_, ?_, ?_, ?_, ?_, ?_, ?_, fun _ i => by rw [howner]⟩
  · rw [Memory.Queue, hpool, hlog]
    exact DList.empty
  · rw [hpool, hlog]; rfl
  · rw [hpool]; exact UInt32.zero_le
  · rw [hlog]; simp [waiting]
  · intro w j hj; rw [hpc] at hj; cases hj
  · intro w w' j hj; rw [hpc] at hj; cases hj
  · rintro i (hi | ⟨w, hw⟩)
    · rw [hlog] at hi; simp [waiting] at hi
    · rw [hpc] at hw; cases hw

/-- A busy job is pending or running, so no finished job is busy. -/
lemma QueueInv.busy_state {s : Sys n} {b : Option JobRef} (h : QueueInv s b) {j : JobRef}
    (hj : Busy s j) : s.mem.state j = .pending ∨ s.mem.state j = .running := by
  rcases hj with hj | ⟨w, hw⟩
  · exact Or.inl (h.pending j hj)
  · exact Or.inr (h.running w j hw)

/-- A waiting job is not being executed. -/
lemma QueueInv.waiting_not_executing {s : Sys n} {b : Option JobRef} (h : QueueInv s b)
    {j : JobRef} (hj : j ∈ waiting s.log) (w : Fin n) : (s.pc w).executing ≠ some j := by
  intro hw
  have := h.running w j hw
  rw [h.pending j hj] at this
  cases this

/-! ### The frame rule -/

/-- The step from `s` to `t` leaves the queue and the busy jobs alone. -/
structure SameQueue (s t : Sys n) : Prop where
  log : waiting t.log = waiting s.log
  pc : ∀ w, (t.pc w).executing = (s.pc w).executing
  head : t.mem.pool.jobQueueHead = s.mem.pool.jobQueueHead
  tail : t.mem.pool.jobQueueTail = s.mem.pool.jobQueueTail
  depth : t.mem.pool.stats.queueDepth = s.mem.pool.stats.queueDepth
  size : t.mem.pool.queueSize = s.mem.pool.queueSize
  next : ∀ j, Busy s j → t.mem.next j = s.mem.next j
  prev : ∀ j, Busy s j → t.mem.prev j = s.mem.prev j
  state : ∀ j, Busy s j → t.mem.state j = s.mem.state j
  owner : ∀ i, Busy s (.slot i) → t.owner i = s.owner i
  fresh : t.mem.gJobPoolInitialized = false → ∀ i, t.owner i = none

/-- Being busy is read off the log and the workers. -/
lemma SameQueue.busy_iff {s t : Sys n} (hs : SameQueue s t) (j : JobRef) :
    Busy t j ↔ Busy s j := by
  simp only [Busy, hs.log, hs.pc]

/-- **The frame rule**: a step that leaves the queue and the busy jobs alone keeps the
invariant. -/
lemma QueueInv.frame {s t : Sys n} {b : Option JobRef} (h : QueueInv s b)
    (hs : SameQueue s t) : QueueInv t b := by
  have hbusy : ∀ j ∈ waiting s.log, Busy s j := fun j hj => Or.inl hj
  refine ⟨?_, ?_, ?_, ?_, ?_, ?_, ?_, hs.fresh⟩
  · rw [Memory.Queue, hs.head, hs.tail, hs.log]
    exact h.queue.congr (fun j hj => hs.next j (hbusy j hj)) (fun j hj => hs.prev j (hbusy j hj))
  · rw [hs.depth, hs.log]; exact h.depth
  · rw [hs.depth, hs.size]; exact h.bound
  · intro j hj
    rw [hs.log] at hj
    rw [hs.state j (hbusy j hj)]
    exact h.pending j hj
  · intro w j hj
    rw [hs.pc] at hj
    rw [hs.state j (Or.inr ⟨w, hj⟩)]
    exact h.running w j hj
  · intro w w' j hj hj'
    rw [hs.pc] at hj hj'
    exact h.distinct w w' j hj hj'
  · intro i hi
    rw [hs.busy_iff] at hi
    rw [hs.owner i hi]
    exact h.owned i hi

/-- A step that changes neither memory nor log nor what is executed nor owned. -/
lemma SameQueue.of_eq {s t : Sys n} {b : Option JobRef} (h : QueueInv s b)
    (hlog : waiting t.log = waiting s.log)
    (hpc : ∀ w, (t.pc w).executing = (s.pc w).executing)
    (hjobs : ∀ j, t.mem.next j = s.mem.next j ∧ t.mem.prev j = s.mem.prev j ∧
      t.mem.state j = s.mem.state j)
    (hhead : t.mem.pool.jobQueueHead = s.mem.pool.jobQueueHead)
    (htail : t.mem.pool.jobQueueTail = s.mem.pool.jobQueueTail)
    (hdepth : t.mem.pool.stats.queueDepth = s.mem.pool.stats.queueDepth)
    (hsize : t.mem.pool.queueSize = s.mem.pool.queueSize)
    (hinit : t.mem.gJobPoolInitialized = s.mem.gJobPoolInitialized)
    (howner : t.owner = s.owner) : SameQueue s t where
  log := hlog
  pc := hpc
  head := hhead
  tail := htail
  depth := hdepth
  size := hsize
  next j _ := (hjobs j).1
  prev j _ := (hjobs j).2.1
  state j _ := (hjobs j).2.2
  owner i _ := by rw [howner]
  fresh hf i := by rw [howner]; exact h.fresh (hinit ▸ hf) i

/-- A worker that moves without taking or finishing a job. -/
lemma executing_update {pc : Fin n → WorkerPc} {w : Fin n} {p : WorkerPc}
    (hp : p.executing = (pc w).executing) (v : Fin n) :
    (Function.update pc w p v).executing = (pc v).executing := by
  by_cases hv : v = w
  · subst hv; rw [Function.update_self, hp]
  · rw [Function.update_of_ne hv]

/-! ### Steps that leave the queue alone -/

lemma osaWorkerJobInit_jobs_of_ne (m : Memory) {j k : JobRef} (args : InitArgs) (hk : k ≠ j) :
    (osaWorkerJobInit m (some j) args).jobs k = m.jobs k := by
  simp [osaWorkerJobInit, getNextJobId, Memory.modifyJob, hk]

/-- Initialising a job that is not busy. -/
lemma QueueInv.initStep {s : Sys n} {b : Option JobRef} (h : QueueInv s b) {c : ℕ}
    {j : JobRef} {args : InitArgs} (hj : ¬ Busy s j) : QueueInv (next s (.init c j args)) b := by
  have hne : ∀ k, Busy s k → (osaWorkerJobInit s.mem (some j) args).jobs k = s.mem.jobs k :=
    fun k hk => osaWorkerJobInit_jobs_of_ne _ _ fun he => hj (he ▸ hk)
  refine h.frame
    { log := rfl, pc := fun _ => rfl, head := rfl, tail := rfl, depth := rfl, size := rfl
      next := fun k hk => congrArg Job.next (hne k hk)
      prev := fun k hk => congrArg Job.prev (hne k hk)
      state := fun k hk => congrArg Job.state (hne k hk)
      owner := fun _ _ => rfl
      fresh := h.fresh }

/-- Freeing a job that is not busy. -/
lemma QueueInv.freeStep {s : Sys n} {b : Option JobRef} (h : QueueInv s b) {j : JobRef}
    (hj : ¬ Busy s j) : QueueInv (freeStep s j) b := by
  cases j with
  | object k => exact h.frame (SameQueue.of_eq h rfl (fun _ => rfl) (fun _ => ⟨rfl, rfl, rfl⟩)
      rfl rfl rfl rfl rfl rfl)
  | slot i =>
      refine h.frame
        { log := rfl, pc := fun _ => rfl, head := rfl, tail := rfl, depth := rfl, size := rfl
          next := fun k _ => by rw [OpenHsm.freeStep, osaWorkerJobFree, Memory.setState_next]
          prev := fun k _ => by rw [OpenHsm.freeStep, osaWorkerJobFree, Memory.setState_prev]
          state := fun k hk => ?_
          owner := fun k hk => ?_
          fresh := fun hf k => ?_ }
      · have hk' : k ≠ .slot i := fun he => hj (he ▸ hk)
        rw [OpenHsm.freeStep, osaWorkerJobFree, Memory.setState_state, Function.update_of_ne hk']
      · have hk' : k ≠ i := fun he => hj (he ▸ hk)
        exact Function.update_of_ne hk' ..
      · by_cases hk : k = i
        · subst hk; exact Function.update_self ..
        · exact (Function.update_of_ne hk ..).trans (h.fresh hf k)

lemma initJobPool_initialized (m : Memory) : (initJobPool m).gJobPoolInitialized = true := by
  simp only [initJobPool]
  split
  · assumption
  · rfl

lemma initJobPool_pool (m : Memory) : (initJobPool m).pool = m.pool := by
  simp only [initJobPool]
  split <;> rfl

/-- The first call of the allocator clears the slots, none of which is busy. -/
lemma QueueInv.initJobPool_jobs {s : Sys n} {b : Option JobRef} (h : QueueInv s b)
    {j : JobRef} (hj : Busy s j) : (initJobPool s.mem).jobs j = s.mem.jobs j := by
  simp only [initJobPool]
  split
  · rfl
  · next hinit =>
      cases j with
      | object k => rfl
      | slot i => exact absurd (h.fresh (by simpa using hinit) i) (h.owned i hj)

lemma findFreeSlot_state {m : Memory} {i : Fin osaJobPoolSize} (h : findFreeSlot m = some i) :
    m.state (.slot i) = .completed ∨ m.state (.slot i) = .cancelled := by
  have := List.find?_some h
  simpa using this

lemma osaWorkerJobAlloc_some {m : Memory} {i : Fin osaJobPoolSize}
    (h : (osaWorkerJobAlloc m).1 = some i) :
    findFreeSlot (initJobPool m) = some i ∧
      (osaWorkerJobAlloc m).2 = claimSlot (initJobPool m) i := by
  simp only [osaWorkerJobAlloc] at h ⊢
  cases hf : findFreeSlot (initJobPool m) with
  | none => rw [hf] at h; cases h
  | some k =>
      rw [hf] at h
      cases h
      exact ⟨rfl, rfl⟩

lemma osaWorkerJobAlloc_none {m : Memory} (h : (osaWorkerJobAlloc m).1 = none) :
    findFreeSlot (initJobPool m) = none ∧ (osaWorkerJobAlloc m).2 = initJobPool m := by
  simp only [osaWorkerJobAlloc] at h ⊢
  cases hf : findFreeSlot (initJobPool m) with
  | none => exact ⟨rfl, rfl⟩
  | some k => rw [hf] at h; cases h

/-- An allocation does not touch a busy job. -/
lemma QueueInv.osaWorkerJobAlloc_jobs {s : Sys n} {b : Option JobRef} (h : QueueInv s b)
    {j : JobRef} (hj : Busy s j) : (osaWorkerJobAlloc s.mem).2.jobs j = s.mem.jobs j := by
  cases hr : (osaWorkerJobAlloc s.mem).1 with
  | none => rw [(osaWorkerJobAlloc_none hr).2, h.initJobPool_jobs hj]
  | some i =>
      obtain ⟨hi, hm⟩ := osaWorkerJobAlloc_some hr
      have hji : j ≠ .slot i := by
        rintro rfl
        have hst := findFreeSlot_state hi
        rw [Memory.state, h.initJobPool_jobs hj] at hst
        rcases h.busy_state hj with hb | hb <;> rw [Memory.state] at hb <;>
          rcases hst with hst | hst <;> rw [hb] at hst <;> cases hst
      rw [hm, ← h.initJobPool_jobs hj]
      exact Function.update_of_ne hji ..

lemma osaWorkerJobAlloc_pool (m : Memory) : (osaWorkerJobAlloc m).2.pool = m.pool := by
  cases hr : (osaWorkerJobAlloc m).1 with
  | none => rw [(osaWorkerJobAlloc_none hr).2, initJobPool_pool]
  | some i => rw [(osaWorkerJobAlloc_some hr).2]; exact initJobPool_pool m

lemma osaWorkerJobAlloc_initialized (m : Memory) :
    (osaWorkerJobAlloc m).2.gJobPoolInitialized = true := by
  cases hr : (osaWorkerJobAlloc m).1 with
  | none => rw [(osaWorkerJobAlloc_none hr).2, initJobPool_initialized]
  | some i => rw [(osaWorkerJobAlloc_some hr).2]; exact initJobPool_initialized m

/-- An allocated slot was not busy. -/
lemma QueueInv.alloc_not_busy {s : Sys n} {b : Option JobRef} (h : QueueInv s b)
    {i : Fin osaJobPoolSize} (hr : (osaWorkerJobAlloc s.mem).1 = some i) :
    ¬ Busy s (.slot i) := by
  intro hi
  have hst := findFreeSlot_state (osaWorkerJobAlloc_some hr).1
  rw [Memory.state, h.initJobPool_jobs hi] at hst
  rcases h.busy_state hi with hb | hb <;> rw [Memory.state] at hb <;>
    rcases hst with hst | hst <;> rw [hb] at hst <;> cases hst

/-- Allocating a slot. -/
lemma QueueInv.allocStep {s : Sys n} {b : Option JobRef} (h : QueueInv s b) {c : ℕ} :
    QueueInv (next s (.alloc c)) b := by
  have hjobs : ∀ j, Busy s j → (next s (.alloc c)).mem.jobs j = s.mem.jobs j := fun j hj => by
    rw [next_alloc_mem, h.osaWorkerJobAlloc_jobs hj]
  have hpool : (next s (.alloc c)).mem.pool = s.mem.pool := by
    rw [next_alloc_mem, osaWorkerJobAlloc_pool]
  have hinit : (next s (.alloc c)).mem.gJobPoolInitialized = true := by
    rw [next_alloc_mem, osaWorkerJobAlloc_initialized]
  -- only the slot that is handed out gets another owner, and it is not busy
  obtain ⟨hlog, hpc, howner⟩ : waiting (next s (.alloc c)).log = waiting s.log ∧
      (next s (.alloc c)).pc = s.pc ∧
      ∀ k, Busy s (.slot k) → (next s (.alloc c)).owner k = s.owner k := by
    cases hr : (osaWorkerJobAlloc s.mem).1 with
    | none => refine ⟨?_, ?_, fun _ _ => ?_⟩ <;> simp only [next, hr]
    | some i =>
        refine ⟨by simp only [next, hr]; rfl, by simp only [next, hr], fun k hk => ?_⟩
        have hne : k ≠ i := fun he => h.alloc_not_busy hr (he ▸ hk)
        simp only [next, hr]
        exact Function.update_of_ne hne ..
  exact h.frame
    { log := hlog, pc := fun w => by rw [hpc]
      head := congrArg Pool.jobQueueHead hpool, tail := congrArg Pool.jobQueueTail hpool
      depth := congrArg (·.stats.queueDepth) hpool, size := congrArg Pool.queueSize hpool
      next := fun j hj => congrArg Job.next (hjobs j hj)
      prev := fun j hj => congrArg Job.prev (hjobs j hj)
      state := fun j hj => congrArg Job.state (hjobs j hj)
      owner := howner
      fresh := fun hf => by rw [hinit] at hf; cases hf }

/-! ### Steps on the queue -/

/-- In an empty queue there is no first job. -/
lemma QueueInv.rebase {s : Sys n} {b : Option JobRef} (h : QueueInv s b)
    (hl : waiting s.log = []) (b' : Option JobRef) : QueueInv s b' := by
  refine { h with queue := ?_ }
  have hq := h.queue
  rw [hl] at hq ⊢
  exact ⟨hq.path, trivial, hq.last, hq.nodup⟩

lemma QueueInv.rebase_tail {s : Sys n} {b : Option JobRef} (h : QueueInv s b) :
    QueueInv s (if s.mem.pool.jobQueueTail = none then none else b) := by
  split
  · next ht => exact h.rebase (h.queue.tail_none_iff.mp ht) none
  · exact h

/-- The two outcomes of a submit. -/
lemma osaWorkerPoolSubmit_cases (m : Memory) (j : JobRef) :
    (m.pool.queueSize ≤ m.pool.stats.queueDepth ∧ osaWorkerPoolSubmit m (some j) = (-1, m)) ∨
    (m.pool.stats.queueDepth < m.pool.queueSize ∧
      (osaWorkerPoolSubmit m (some j)).1 = 0 ∧
      (osaWorkerPoolSubmit m (some j)).2 =
        ((enqueueJob (assignId m j) j).modifyStats fun s =>
          { s with queueDepth := s.queueDepth + 1, totalSubmitted := s.totalSubmitted + 1 }
        ).modifyPool fun p => { p with workSem := osaSemPost p.workSem }) := by
  rcases UInt32.le_or_lt m.pool.queueSize m.pool.stats.queueDepth with hle | hlt
  · refine Or.inl ⟨hle, ?_⟩
    simp [osaWorkerPoolSubmit, hle]
  · refine Or.inr ⟨hlt, ?_⟩
    have hnle : ¬ m.pool.queueSize ≤ m.pool.stats.queueDepth := UInt32.not_le.mpr hlt
    simp [osaWorkerPoolSubmit, hnle]

/-- Submitting a job that is not busy.  The memory `m` may differ from the one of `s` in
the fields of the job that `osa_worker_pool_submit_to_hsm` sets. -/
lemma QueueInv.submitStep {s : Sys n} {b : Option JobRef} (h : QueueInv s b) {c : ℕ}
    {j : JobRef} {m : Memory} (hj : ¬ Busy s j) (hown : ∀ i, j = .slot i → s.owner i ≠ none)
    (hnext : m.next = s.mem.next) (hprev : m.prev = s.mem.prev)
    (hstate : m.state = s.mem.state) (hpool : m.pool = s.mem.pool)
    (hinit : m.gJobPoolInitialized = s.mem.gJobPoolInitialized) :
    QueueInv (afterSubmit s c j (osaWorkerPoolSubmit m (some j)))
      (if s.mem.pool.jobQueueTail = none then none else b) := by
  have hm : m.Queue b (waiting s.log) := by
    rw [Memory.Queue, hnext, hprev, hpool]; exact h.queue
  have hjw : j ∉ waiting s.log := fun hw => hj (Or.inl hw)
  rcases osaWorkerPoolSubmit_cases m j with ⟨-, hr⟩ | ⟨hlt, hr1, hr2⟩
  · rw [hr]
    refine h.rebase_tail.frame (SameQueue.of_eq h rfl (fun _ => rfl) (fun k => ?_) ?_ ?_ ?_ ?_
      hinit rfl)
    · exact ⟨congrFun hnext k, congrFun hprev k, congrFun hstate k⟩
    all_goals simp only [afterSubmit, hpool]
  · have hlog : waiting (afterSubmit s c j (osaWorkerPoolSubmit m (some j))).log
        = waiting s.log ++ [j] := by
      simp [afterSubmit, hr1, submitEvent, waiting]
    have hlt' : s.mem.pool.stats.queueDepth.toNat < s.mem.pool.queueSize.toNat := by
      rw [hpool] at hlt; exact UInt32.lt_iff_toNat_lt.mp hlt
    have hdepth : (s.mem.pool.stats.queueDepth + 1).toNat
        = s.mem.pool.stats.queueDepth.toNat + 1 := by
      have := s.mem.pool.queueSize.toNat_lt
      rw [UInt32.toNat_add, UInt32.toNat_one]
      omega
    have hst : (afterSubmit s c j (osaWorkerPoolSubmit m (some j))).mem.state
        = Function.update s.mem.state j .pending := by
      simp [afterSubmit, hr2, hstate]
    refine ⟨?_, ?_, ?_, ?_, ?_, h.distinct, ?_, ?_⟩
    · rw [hlog, Memory.Queue]
      have := enqueueJob_queue (m := assignId m j) (b := b) (j := j)
        (by simpa [Memory.Queue] using hm) hjw
      simpa [afterSubmit, hr2, Memory.Queue, hpool] using this
    · rw [hlog, List.length_append, ← h.depth]
      simpa [afterSubmit, hr2, hpool] using hdepth
    · simp only [afterSubmit, hr2, Memory.modifyPool_pool, Memory.modifyStats_pool,
        enqueueJob_stats, enqueueJob_queueSize, assignId_pool, hpool]
      rw [UInt32.le_iff_toNat_le, hdepth]
      omega
    · intro k hk
      rw [hlog, List.mem_append, List.mem_singleton] at hk
      rw [hst]
      by_cases hkj : k = j
      · rw [hkj, Function.update_self]
      · rw [Function.update_of_ne hkj]
        exact h.pending k (hk.resolve_right hkj)
    · intro w k hk
      have hkj : k ≠ j := fun he => hj (Or.inr ⟨w, he ▸ hk⟩)
      rw [hst, Function.update_of_ne hkj]
      exact h.running w k hk
    · rintro i (hi | hw)
      · rw [hlog, List.mem_append, List.mem_singleton] at hi
        rcases hi with hi | hi
        · exact h.owned i (Or.inl hi)
        · exact hown i hi.symm
      · exact h.owned i (Or.inr hw)
    · intro hf i
      refine h.fresh ?_ i
      simpa [afterSubmit, hr2, hinit] using hf

/-- What a waiting list looks like around a job it contains. -/
lemma mem_split_erase {l : List JobRef} {j : JobRef} (hj : j ∈ l) (hl : l.Nodup) :
    ∃ pre post, l = pre ++ j :: post ∧ l.erase j = pre ++ post := by
  obtain ⟨pre, post, rfl⟩ := List.append_of_mem hj
  refine ⟨pre, post, rfl, ?_⟩
  rw [List.erase_append_right _ fun h => ?_, List.erase_cons_head]
  rw [List.nodup_append] at hl
  exact hl.2.2 j h j (by simp) rfl

lemma QueueInv.depth_pred {s : Sys n} {b : Option JobRef} (h : QueueInv s b) {j : JobRef}
    (hj : j ∈ waiting s.log) :
    (s.mem.pool.stats.queueDepth - 1).toNat = ((waiting s.log).erase j).length ∧
      s.mem.pool.stats.queueDepth - 1 ≤ s.mem.pool.queueSize := by
  have hpos := List.length_pos_of_mem hj
  have hd := h.depth
  have hb := UInt32.le_iff_toNat_le.mp h.bound
  have h1 : (1 : UInt32) ≤ s.mem.pool.stats.queueDepth := by
    rw [UInt32.le_iff_toNat_le, UInt32.toNat_one]; omega
  have hsub : (s.mem.pool.stats.queueDepth - 1).toNat = s.mem.pool.stats.queueDepth.toNat - 1 := by
    rw [UInt32.toNat_sub_of_le _ _ h1, UInt32.toNat_one]
  refine ⟨?_, ?_⟩
  · rw [hsub, List.length_erase_of_mem hj, hd]
  · rw [UInt32.le_iff_toNat_le, hsub]; omega

/-- Cancelling a waiting job, the first one only if its `prev` is null. -/
lemma QueueInv.cancelled {s : Sys n} {b : Option JobRef} (h : QueueInv s b) {j : JobRef}
    {id : UInt32} (hj : j ∈ waiting s.log)
    (hb : s.mem.pool.jobQueueHead = some j → b = none) :
    QueueInv { s with mem := cancelJob s.mem j, log := .cancelled j id :: s.log } b := by
  obtain ⟨pre, post, hl, herase⟩ := mem_split_erase hj h.queue.nodup
  have hst : (cancelJob s.mem j).state = Function.update s.mem.state j .cancelled := by
    simp [cancelJob]
  have hsub : ∀ k ∈ (waiting s.log).erase j, k ∈ waiting s.log ∧ k ≠ j := fun k hk =>
    ⟨List.mem_of_mem_erase hk, fun he => h.queue.nodup.not_mem_erase (he ▸ hk)⟩
  obtain ⟨hd, hbd⟩ := h.depth_pred hj
  refine ⟨?_, ?_, ?_, ?_, ?_, h.distinct, ?_, ?_⟩
  · have hq := h.queue
    rw [hl] at hq
    have hpre : pre = [] → b = none := by
      rintro rfl
      exact hb hq.head_eq
    have := unlinkJob_queue hq hpre
    show (cancelJob s.mem j).Queue b ((waiting s.log).erase j)
    rw [herase]
    simpa [cancelJob, Memory.Queue] using this
  · show _ = ((waiting s.log).erase j).length
    simpa [cancelJob] using hd
  · simpa [cancelJob] using hbd
  · intro k hk
    obtain ⟨hkw, hkj⟩ := hsub k hk
    show (cancelJob s.mem j).state k = _
    rw [hst, Function.update_of_ne hkj]
    exact h.pending k hkw
  · intro w k hk
    have hkj : k ≠ j := fun he => h.waiting_not_executing hj w (he ▸ hk)
    show (cancelJob s.mem j).state k = _
    rw [hst, Function.update_of_ne hkj]
    exact h.running w k hk
  · rintro i (hi | hw)
    · exact h.owned i (Or.inl (hsub _ hi).1)
    · exact h.owned i (Or.inr hw)
  · intro hf
    exact h.fresh (by simpa [cancelJob] using hf)

/-- Taking the first job. -/
lemma QueueInv.dequeued {s : Sys n} {b : Option JobRef} (h : QueueInv s b) {j : JobRef}
    {w : Fin n} (hw : (s.pc w).executing = none) (hhead : s.mem.pool.jobQueueHead = some j) :
    QueueInv
      { s with
        mem := (dequeueJob s.mem).2
        pc := Function.update s.pc w (.running j)
        log := .dequeued w j :: s.log } (some j) := by
  obtain ⟨l, hl⟩ : ∃ l, waiting s.log = j :: l := by
    have := h.queue.head_eq.symm.trans hhead
    exact List.head?_eq_some_iff.mp this
  have hj : j ∈ waiting s.log := by rw [hl]; simp
  have hjl : j ∉ l := (List.nodup_cons.mp (hl ▸ h.queue.nodup)).1
  have herase : (waiting s.log).erase j = l := by rw [hl, List.erase_cons_head]
  have hst := dequeueJob_state hhead
  obtain ⟨hd, hbd⟩ := h.depth_pred hj
  have hpool := dequeueJob_pool hhead
  have hpc : ∀ v k, (Function.update s.pc w (.running j) v).executing = some k →
      (v = w ∧ k = j) ∨ (v ≠ w ∧ (s.pc v).executing = some k) := by
    intro v k hk
    by_cases hv : v = w
    · subst hv
      rw [Function.update_self] at hk
      exact Or.inl ⟨rfl, (Option.some.inj hk).symm⟩
    · rw [Function.update_of_ne hv] at hk
      exact Or.inr ⟨hv, hk⟩
  refine ⟨?_, ?_, ?_, ?_, ?_, ?_, ?_, ?_⟩
  · show (dequeueJob s.mem).2.Queue (some j) ((waiting s.log).erase j)
    rw [herase]
    exact dequeueJob_queue (hl ▸ h.queue)
  · show (dequeueJob s.mem).2.pool.stats.queueDepth.toNat = ((waiting s.log).erase j).length
    rw [hpool]; exact hd
  · show (dequeueJob s.mem).2.pool.stats.queueDepth ≤ (dequeueJob s.mem).2.pool.queueSize
    rw [hpool]; exact hbd
  · intro k hk
    have hk' : k ∈ l := by rw [← herase]; exact hk
    show (dequeueJob s.mem).2.state k = _
    rw [hst, Function.update_of_ne (ne_of_mem_of_not_mem hk' hjl)]
    exact h.pending k (by rw [hl]; exact List.mem_cons_of_mem j hk')
  · intro v k hk
    show (dequeueJob s.mem).2.state k = _
    rw [hst]
    rcases hpc v k hk with ⟨-, rfl⟩ | ⟨-, hk'⟩
    · exact Function.update_self ..
    · have hkj : k ≠ j := fun he => h.waiting_not_executing hj v (he ▸ hk')
      rw [Function.update_of_ne hkj]
      exact h.running v k hk'
  · intro v v' k hk hk'
    rcases hpc v k hk with ⟨rfl, rfl⟩ | ⟨-, h1⟩ <;> rcases hpc v' _ hk' with ⟨rfl, h2⟩ | ⟨-, h2⟩
    · rfl
    · exact absurd h2 (h.waiting_not_executing hj v')
    · exact absurd (h2 ▸ h1) (h.waiting_not_executing hj v)
    · exact h.distinct v v' k h1 h2
  · rintro i (hi | ⟨v, hv⟩)
    · exact h.owned i (Or.inl (List.mem_of_mem_erase hi))
    · rcases hpc v _ hv with ⟨-, hij⟩ | ⟨-, hv'⟩
      · exact h.owned i (Or.inl (hij ▸ hj))
      · exact h.owned i (Or.inr ⟨v, hv'⟩)
  · intro hf
    refine h.fresh ?_
    rw [← dequeueJob_initialized hhead]
    exact hf

@[simp] lemma finishJob_next (m : Memory) (j : JobRef) : (finishJob m j).next = m.next := by
  simp [finishJob]

@[simp] lemma finishJob_prev (m : Memory) (j : JobRef) : (finishJob m j).prev = m.prev := by
  simp [finishJob]

@[simp] lemma finishJob_data (m : Memory) (j : JobRef) : (finishJob m j).data = m.data := by
  simp [finishJob]

@[simp] lemma finishJob_initialized (m : Memory) (j : JobRef) :
    (finishJob m j).gJobPoolInitialized = m.gJobPoolInitialized := rfl

lemma finishJob_state (m : Memory) (j : JobRef) :
    (finishJob m j).state
      = Function.update m.state j (if (m.jobs j).result < 0 then .error else .completed) := by
  simp [finishJob]

lemma finishJob_queueDepth (m : Memory) (j : JobRef) :
    (finishJob m j).pool.stats.queueDepth = m.pool.stats.queueDepth := by
  simp only [finishJob]
  by_cases hr : (m.jobs j).result < 0 <;> simp [hr]

/-- The completion section takes the job off the worker. -/
lemma QueueInv.finished {s : Sys n} {b : Option JobRef} (h : QueueInv s b) {j : JobRef}
    {w : Fin n} {e : Execution} (hw : s.pc w = .executed j e) :
    QueueInv
      { s with
        mem := finishJob s.mem j
        pc := Function.update s.pc w (.notifying j e)
        log := .finished w j :: s.log } b := by
  have hex : (s.pc w).executing = some j := by rw [hw]; rfl
  have hjw : j ∉ waiting s.log := fun hj => h.waiting_not_executing hj w hex
  have hpc : ∀ v k, (Function.update s.pc w (.notifying j e) v).executing = some k →
      v ≠ w ∧ (s.pc v).executing = some k := by
    intro v k hk
    by_cases hv : v = w
    · subst hv; rw [Function.update_self] at hk; cases hk
    · rw [Function.update_of_ne hv] at hk
      exact ⟨hv, hk⟩
  refine ⟨?_, ?_, ?_, ?_, ?_, ?_, ?_, h.fresh⟩
  · show (finishJob s.mem j).Queue b (waiting s.log)
    simpa [Memory.Queue, finishJob] using h.queue
  · show (finishJob s.mem j).pool.stats.queueDepth.toNat = _
    rw [finishJob_queueDepth]; exact h.depth
  · show (finishJob s.mem j).pool.stats.queueDepth ≤ _
    rw [finishJob_queueDepth]; exact h.bound
  · intro k hk
    show (finishJob s.mem j).state k = _
    rw [finishJob_state, Function.update_of_ne (ne_of_mem_of_not_mem hk hjw)]
    exact h.pending k hk
  · intro v k hk
    obtain ⟨hv, hk'⟩ := hpc v k hk
    have hkj : k ≠ j := fun he => hv (h.distinct v w j (he ▸ hk') hex)
    show (finishJob s.mem j).state k = _
    rw [finishJob_state, Function.update_of_ne hkj]
    exact h.running v k hk'
  · intro v v' k hk hk'
    exact h.distinct v v' k (hpc v k hk).2 (hpc v' k hk').2
  · rintro i (hi | ⟨v, hv⟩)
    · exact h.owned i (Or.inl hi)
    · exact h.owned i (Or.inr ⟨v, (hpc v _ hv).2⟩)

/-! ### Every step -/

/-- A cancel does not find the first job of the queue with a stale `prev`. -/
def CancelFresh (s : Sys n) : Act n → Prop
  | .cancel id _ => ∀ j ∈ s.mem.pool.jobQueueHead, (s.mem.jobs j).id = id →
      s.mem.prev j = none
  | _ => True

instance (s : Sys n) (a : Act n) : Decidable (CancelFresh s a) := by
  induction a using Act.casesOn <;> (dsimp only [CancelFresh]; infer_instance)

/-- What the `prev` of the first job holds after a step. -/
def backAfter (s : Sys n) (b : Option JobRef) : Act n → Option JobRef
  | .submit _ _ | .submitToHsm _ _ _ _ => if s.mem.pool.jobQueueTail = none then none else b
  | .dequeue _ => if s.mem.pool.shutdown then b else s.mem.pool.jobQueueHead
  | _ => b

/-- The two outcomes of a cancel, on a well formed queue: it stops at the first job with
the id, or there is none. -/
lemma QueueInv.cancel_cases {s : Sys n} {b : Option JobRef} (h : QueueInv s b)
    {id : UInt32} {fuel : ℕ} (ha : enabled s (.cancel id fuel)) :
    (∃ j, (waiting s.log).find? (fun j => (s.mem.jobs j).id = id) = some j ∧
      osaWorkerPoolCancel s.mem id fuel = some (0, cancelJob s.mem j) ∧
      next s (.cancel id fuel)
        = { s with mem := cancelJob s.mem j, log := .cancelled j id :: s.log }) ∨
    ((waiting s.log).find? (fun j => (s.mem.jobs j).id = id) = none ∧
      osaWorkerPoolCancel s.mem id fuel = some (-1, s.mem) ∧
      next s (.cancel id fuel) = { s with log := .missed id :: s.log }) := by
  cases hr : cancelSearch s.mem id fuel s.mem.pool.jobQueueHead with
  | none => simp [enabled, osaWorkerPoolCancel, hr] at ha
  | some r =>
      have hfind := cancelSearch_eq h.queue.path hr
      cases r with
      | none =>
          exact Or.inr ⟨hfind.symm, by rw [osaWorkerPoolCancel, hr], next_cancel_of_search hr⟩
      | some j =>
          exact Or.inl ⟨j, hfind.symm, by rw [osaWorkerPoolCancel, hr], next_cancel_of_search hr⟩

/-- A job a cancel may unlink: it waits, and at the front its `prev` is null. -/
lemma QueueInv.cancelFresh_back {s : Sys n} {b : Option JobRef} (h : QueueInv s b)
    {id : UInt32} {fuel : ℕ} (hc : CancelFresh s (.cancel id fuel)) {j : JobRef}
    (hj : (waiting s.log).find? (fun j => (s.mem.jobs j).id = id) = some j)
    (hhead : s.mem.pool.jobQueueHead = some j) : b = none := by
  have hid : (s.mem.jobs j).id = id := by simpa using List.find?_some hj
  rw [← h.queue.prev_head hhead]
  exact hc j hhead hid

/-- A slot that may be submitted has an owner. -/
lemma owner_ne_none {s : Sys n} {c : ℕ} {j : JobRef} (h : Owns s c j) :
    ∀ i, j = .slot i → s.owner i ≠ none := by
  rintro i rfl
  rw [Owns] at h
  simp [h]

/-- A change of the queues of the state machines, of the waiters or of the stopping
thread. -/
lemma QueueInv.congr_threads {s : Sys n} {b : Option JobRef} (h : QueueInv s b)
    (hsm : ℕ → HsmQueue) (waiter : ℕ → WaiterPc) (stop : StopPc) :
    QueueInv { s with hsm := hsm, waiter := waiter, stop := stop } b := by
  exact h.frame (SameQueue.of_eq h rfl (fun _ => rfl) (fun _ => ⟨rfl, rfl, rfl⟩)
    rfl rfl rfl rfl rfl rfl)

/-- **The step lemma**: every step keeps the invariant. -/
theorem QueueInv.step {s : Sys n} {b : Option JobRef} {a : Act n} (h : QueueInv s b)
    (ha : enabled s a) (hd : Discipline s a) (hc : CancelFresh s a) :
    QueueInv (next s a) (backAfter s b a) := by
  cases a with
  | init c j args => exact h.initStep hd.2
  | alloc c => exact h.allocStep
  | free c j => exact h.freeStep hd.2
  | submit c j => exact h.submitStep hd.2 (owner_ne_none hd.1) rfl rfl rfl rfl rfl
  | submitToHsm c j t sig =>
      exact h.submitStep hd.2 (owner_ne_none hd.1) (Memory.setTarget_next ..)
        (Memory.setTarget_prev ..) (Memory.setTarget_state ..) rfl rfl
  | cancel id fuel =>
      rcases h.cancel_cases ha with ⟨j, hj, -, hn⟩ | ⟨-, -, hn⟩
      · rw [hn]
        exact h.cancelled (List.mem_of_find?_eq_some hj) (h.cancelFresh_back hc hj)
      · rw [hn]
        exact h.frame (SameQueue.of_eq h rfl (fun _ => rfl) (fun _ => ⟨rfl, rfl, rfl⟩)
          rfl rfl rfl rfl rfl rfl)
  | take w =>
      exact h.frame (SameQueue.of_eq h rfl (executing_update (by rw [ha.1]; rfl))
        (fun _ => ⟨rfl, rfl, rfl⟩) rfl rfl rfl rfl rfl rfl)
  | dequeue w =>
      have hw : (s.pc w).executing = none := by rw [ha.1]; rfl
      rcases next_dequeue_cases s w with
        ⟨hs, hnext⟩ | ⟨hs, hhead, hnext⟩ | ⟨j, hs, hhead, hnext⟩
      · rw [hnext, backAfter, if_pos hs]
        exact h.frame (SameQueue.of_eq h rfl (executing_update (by rw [hw]; rfl))
          (fun _ => ⟨rfl, rfl, rfl⟩) rfl rfl rfl rfl rfl rfl)
      · have hempty : waiting s.log = [] :=
          List.head?_eq_none_iff.mp (h.queue.head_eq.symm.trans hhead)
        rw [hnext, backAfter, if_neg (by simp [hs]), hhead]
        exact (h.rebase hempty none).frame (SameQueue.of_eq h rfl
          (executing_update (by rw [hw]; rfl)) (fun _ => ⟨rfl, rfl, rfl⟩)
          rfl rfl rfl rfl rfl rfl)
      · rw [hnext, backAfter, if_neg (by simp [hs]), hhead]
        exact h.dequeued hw hhead
  | execute w ret =>
      simp only [enabled] at ha
      split at ha
      · next j hj =>
          simp only [next, hj, backAfter]
          refine h.frame (SameQueue.of_eq h ?_ (executing_update (by rw [hj]; rfl))
            (fun k => ⟨?_, ?_, ?_⟩) rfl rfl rfl rfl rfl rfl)
          · split <;> rfl
          · exact congrFun (Memory.setResult_next ..) k
          · exact congrFun (Memory.setResult_prev ..) k
          · exact congrFun (Memory.setResult_state ..) k
      · exact ha.elim
  | finish w =>
      simp only [enabled] at ha
      split at ha
      · next j e hj =>
          simp only [next, hj, backAfter]
          exact h.finished hj
      · exact ha.elim
  | notify w =>
      cases hw : s.pc w with
      | notifying j e =>
          simp only [next, hw, backAfter, notifyStep]
          have hlog : waiting (if (s.mem.jobs j).completeCb = none then s.log
              else .calledBack w j (s.mem.jobs j).result :: s.log) = waiting s.log := by
            split <;> rfl
          cases (s.mem.jobs j).targetHsm <;>
            exact h.frame (SameQueue.of_eq h hlog (executing_update (by rw [hw]; rfl))
              (fun _ => ⟨rfl, rfl, rfl⟩) rfl rfl rfl rfl rfl rfl)
      | _ => simp [enabled, hw, WorkerPc.holdsLock] at ha
  | waitCall x j t =>
      simp only [next, backAfter]
      split
      · exact h.frame (SameQueue.of_eq h rfl (fun _ => rfl) (fun _ => ⟨rfl, rfl, rfl⟩)
          rfl rfl rfl rfl rfl rfl)
      · exact h.congr_threads _ _ _
  | waitTake x | waitReturn x | stopPost =>
      simp only [next, backAfter]
      split
      · exact h.frame (SameQueue.of_eq h rfl (fun _ => rfl) (fun _ => ⟨rfl, rfl, rfl⟩)
          rfl rfl rfl rfl rfl rfl)
      · exact h
  | waitFail x err =>
      simp only [next, backAfter]
      split
      · exact h.congr_threads _ _ _
      · exact h
  | stopBegin =>
      exact h.frame (SameQueue.of_eq h rfl (fun _ => rfl) (fun _ => ⟨rfl, rfl, rfl⟩)
        rfl rfl rfl rfl rfl rfl)
  | stopJoin w => exact h.congr_threads _ _ _
  | hsmStart k => exact h.congr_threads _ _ _
  | post k sig => exact h.congr_threads _ _ _
  | receive k => exact h.congr_threads _ _ _
  | handled k => exact h.congr_threads _ _ _
  | handledFree k =>
      simp only [enabled] at ha
      simp only [Discipline] at hd
      split at ha
      · next sig j e hh =>
          rw [hh] at hd
          simp only [next, hh, backAfter]
          exact (h.freeStep hd.2).congr_threads _ _ _
      · exact ha.elim

/-- **The run lemma**: with callers that keep the discipline and cancels that are fresh,
the invariant holds in every reachable state. -/
theorem QueueInv.of_reachable {t : Sys n}
    (h : ((poolSystem n).restrict fun s a => Discipline s a ∧ CancelFresh s a).Reachable t) :
    ∃ b, QueueInv t b := by
  refine h.invariant (P := fun s => ∃ b, QueueInv s b)
    (fun s hs => ⟨none, QueueInv.initial hs⟩) ?_
  rintro s a ⟨b, hb⟩ ⟨ha, hd, hc⟩
  exact ⟨backAfter s b a, hb.step ha hd hc⟩

end OpenHsm
