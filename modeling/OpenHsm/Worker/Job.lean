import OpenHsm.Platform.Sync

/-!
The data of `core/osa_worker.h` and the critical sections of `core/osa_worker.c` as
functions on the shared memory.

* `Job`, `PoolStats`, `Pool`, `Memory`: `struct osa_worker_job`,
  `struct osa_worker_pool_stats`, `struct osa_worker_pool` and everything the
  functions share, the static slots and the id counter included.
* `osaWorkerJobAlloc`, `osaWorkerJobFree`, `osaWorkerJobInit`,
  `osaWorkerPoolSubmit`, `osaWorkerPoolSubmitToHsm`, `osaWorkerPoolCancel`: the
  functions of the interface, each with its return value and the memory after it.
  The search of a cancel is the source's loop and need not end, so it is run with a
  number of iterations.
* `dequeueJob`, `executeJob`, `finishJob`: the three parts of the body of
  `osa_worker_pool_thread` that touch a job before it is announced.

Pointers to a job are `JobRef`s, so only the owner of a name can be confused, never
the pointee; `NULL` is `none`.
-/

namespace OpenHsm

/-- `OSA_JOB_POOL_SIZE`. -/
def osaJobPoolSize : ℕ := 32

instance : NeZero osaJobPoolSize := ⟨by decide⟩

/-- A pointer to a job: an element of `g_job_pool`, or an object of the caller. -/
inductive JobRef where
  | slot (i : Fin osaJobPoolSize)
  | object (n : ℕ)
  deriving DecidableEq, Repr

/-- `enum osa_worker_job_state`. -/
inductive JobState where
  | pending | running | completed | cancelled | error
  deriving DecidableEq, Repr

/-- The states in which a job is finished with. -/
def JobState.Terminal : JobState → Prop
  | .completed | .cancelled | .error => True
  | .pending | .running => False

instance : DecidablePred JobState.Terminal
  | .completed | .cancelled | .error => isTrue trivial
  | .pending | .running => isFalse id

/-- `struct osa_worker_job`.  Functions and contexts are opaque addresses. -/
structure Job where
  id : UInt32
  state : JobState
  jobFunc : Option ℕ
  jobCtx : Option ℕ
  completeCb : Option ℕ
  completeCtx : Option ℕ
  targetHsm : Option ℕ
  completionSignal : Int
  result : Int
  next : Option JobRef
  prev : Option JobRef
  deriving DecidableEq, Repr

/-- What `memset(job, 0, sizeof *job)` leaves. -/
def Job.zero : Job where
  id := 0
  state := .pending
  jobFunc := none
  jobCtx := none
  completeCb := none
  completeCtx := none
  targetHsm := none
  completionSignal := 0
  result := 0
  next := none
  prev := none

/-- The fields of a job besides its state and its links. -/
def Job.data (b : Job) : Job := { b with state := .pending, next := none, prev := none }

/-- `struct osa_worker_pool_stats`. -/
structure PoolStats where
  totalSubmitted : UInt32
  totalCompleted : UInt32
  totalCancelled : UInt32
  totalErrors : UInt32
  queueDepth : UInt32
  activeWorkers : UInt32
  deriving DecidableEq, Repr

/-- `struct osa_worker_pool`, without its handles. -/
structure Pool where
  jobQueueHead : Option JobRef
  jobQueueTail : Option JobRef
  workSem : OsaSem
  completeSem : OsaSem
  numWorkers : UInt32
  queueSize : UInt32
  shutdown : Bool
  stats : PoolStats
  deriving DecidableEq, Repr

/-- What the threads share: the job objects, the pool, `g_job_id_counter` and
`g_job_pool_initialized`. -/
structure Memory where
  jobs : JobRef → Job
  pool : Pool
  gJobIdCounter : UInt32
  gJobPoolInitialized : Bool

namespace Memory

/-- `job->next` of every job. -/
def next (m : Memory) (j : JobRef) : Option JobRef := (m.jobs j).next

/-- `job->prev` of every job. -/
def prev (m : Memory) (j : JobRef) : Option JobRef := (m.jobs j).prev

/-- `job->state` of every job. -/
def state (m : Memory) (j : JobRef) : JobState := (m.jobs j).state

/-- Every other field of every job. -/
def data (m : Memory) (j : JobRef) : Job := (m.jobs j).data

/-- Write to the fields of one job. -/
def modifyJob (m : Memory) (j : JobRef) (f : Job → Job) : Memory :=
  { m with jobs := Function.update m.jobs j (f (m.jobs j)) }

/-- Write to the fields of the pool. -/
def modifyPool (m : Memory) (f : Pool → Pool) : Memory := { m with pool := f m.pool }

/-- Write to the counters of the pool. -/
def modifyStats (m : Memory) (f : PoolStats → PoolStats) : Memory :=
  m.modifyPool fun p => { p with stats := f p.stats }

/-- `job->next = v`. -/
def setNext (m : Memory) (j : JobRef) (v : Option JobRef) : Memory :=
  m.modifyJob j fun b => { b with next := v }

/-- `job->prev = v`. -/
def setPrev (m : Memory) (j : JobRef) (v : Option JobRef) : Memory :=
  m.modifyJob j fun b => { b with prev := v }

/-- `job->state = v`. -/
def setState (m : Memory) (j : JobRef) (v : JobState) : Memory :=
  m.modifyJob j fun b => { b with state := v }

/-- `job->id = v`. -/
def setId (m : Memory) (j : JobRef) (v : UInt32) : Memory :=
  m.modifyJob j fun b => { b with id := v }

/-- `job->result = v`. -/
def setResult (m : Memory) (j : JobRef) (v : Int) : Memory :=
  m.modifyJob j fun b => { b with result := v }

/-- `job->target_hsm = h; job->completion_signal = sig`. -/
def setTarget (m : Memory) (j : JobRef) (h : Option ℕ) (sig : Int) : Memory :=
  m.modifyJob j fun b => { b with targetHsm := h, completionSignal := sig }

variable (m : Memory) (j : JobRef)

lemma modifyJob_jobs_self (f : Job → Job) : (m.modifyJob j f).jobs j = f (m.jobs j) :=
  Function.update_self ..

lemma modifyJob_jobs_of_ne (f : Job → Job) {k : JobRef} (hk : k ≠ j) :
    (m.modifyJob j f).jobs k = m.jobs k :=
  Function.update_of_ne hk ..

/-- A write leaves what it does not write to. -/
lemma modifyJob_view {β : Type*} (v : Job → β) {f : Job → Job} (h : ∀ b, v (f b) = v b) :
    (fun k => v ((m.modifyJob j f).jobs k)) = fun k => v (m.jobs k) := by
  funext k
  by_cases hk : k = j
  · subst hk; rw [modifyJob_jobs_self, h]
  · rw [modifyJob_jobs_of_ne _ _ _ hk]

/-- What a write does to the field it writes to. -/
lemma modifyJob_field {β : Type*} (v : Job → β) (f : Job → Job) :
    (fun k => v ((m.modifyJob j f).jobs k))
      = Function.update (fun k => v (m.jobs k)) j (v (f (m.jobs j))) := by
  funext k
  by_cases hk : k = j
  · subst hk; rw [modifyJob_jobs_self, Function.update_self]
  · rw [modifyJob_jobs_of_ne _ _ _ hk, Function.update_of_ne hk]

section Views

variable (v : Option JobRef) (st : JobState) (id : UInt32) (r : Int) (h : Option ℕ)
  (g : Pool → Pool) (k : PoolStats → PoolStats)

@[simp] lemma setNext_next : (m.setNext j v).next = Function.update m.next j v :=
  modifyJob_field m j Job.next _
@[simp] lemma setNext_prev : (m.setNext j v).prev = m.prev :=
  modifyJob_view m j Job.prev fun _ => rfl
@[simp] lemma setNext_state : (m.setNext j v).state = m.state :=
  modifyJob_view m j Job.state fun _ => rfl
@[simp] lemma setNext_data : (m.setNext j v).data = m.data :=
  modifyJob_view m j Job.data fun _ => rfl
@[simp] lemma setNext_pool : (m.setNext j v).pool = m.pool := rfl
@[simp] lemma setNext_initialized :
    (m.setNext j v).gJobPoolInitialized = m.gJobPoolInitialized := rfl

@[simp] lemma setPrev_next : (m.setPrev j v).next = m.next :=
  modifyJob_view m j Job.next fun _ => rfl
@[simp] lemma setPrev_prev : (m.setPrev j v).prev = Function.update m.prev j v :=
  modifyJob_field m j Job.prev _
@[simp] lemma setPrev_state : (m.setPrev j v).state = m.state :=
  modifyJob_view m j Job.state fun _ => rfl
@[simp] lemma setPrev_data : (m.setPrev j v).data = m.data :=
  modifyJob_view m j Job.data fun _ => rfl
@[simp] lemma setPrev_pool : (m.setPrev j v).pool = m.pool := rfl
@[simp] lemma setPrev_initialized :
    (m.setPrev j v).gJobPoolInitialized = m.gJobPoolInitialized := rfl

@[simp] lemma setState_next : (m.setState j st).next = m.next :=
  modifyJob_view m j Job.next fun _ => rfl
@[simp] lemma setState_prev : (m.setState j st).prev = m.prev :=
  modifyJob_view m j Job.prev fun _ => rfl
@[simp] lemma setState_state : (m.setState j st).state = Function.update m.state j st :=
  modifyJob_field m j Job.state _
@[simp] lemma setState_data : (m.setState j st).data = m.data :=
  modifyJob_view m j Job.data fun _ => rfl
@[simp] lemma setState_pool : (m.setState j st).pool = m.pool := rfl
@[simp] lemma setState_initialized :
    (m.setState j st).gJobPoolInitialized = m.gJobPoolInitialized := rfl

@[simp] lemma setId_next : (m.setId j id).next = m.next :=
  modifyJob_view m j Job.next fun _ => rfl
@[simp] lemma setId_prev : (m.setId j id).prev = m.prev :=
  modifyJob_view m j Job.prev fun _ => rfl
@[simp] lemma setId_state : (m.setId j id).state = m.state :=
  modifyJob_view m j Job.state fun _ => rfl
@[simp] lemma setId_pool : (m.setId j id).pool = m.pool := rfl
@[simp] lemma setId_initialized :
    (m.setId j id).gJobPoolInitialized = m.gJobPoolInitialized := rfl

@[simp] lemma setResult_next : (m.setResult j r).next = m.next :=
  modifyJob_view m j Job.next fun _ => rfl
@[simp] lemma setResult_prev : (m.setResult j r).prev = m.prev :=
  modifyJob_view m j Job.prev fun _ => rfl
@[simp] lemma setResult_state : (m.setResult j r).state = m.state :=
  modifyJob_view m j Job.state fun _ => rfl
@[simp] lemma setResult_pool : (m.setResult j r).pool = m.pool := rfl
@[simp] lemma setResult_initialized :
    (m.setResult j r).gJobPoolInitialized = m.gJobPoolInitialized := rfl

@[simp] lemma setTarget_next : (m.setTarget j h r).next = m.next :=
  modifyJob_view m j Job.next fun _ => rfl
@[simp] lemma setTarget_prev : (m.setTarget j h r).prev = m.prev :=
  modifyJob_view m j Job.prev fun _ => rfl
@[simp] lemma setTarget_state : (m.setTarget j h r).state = m.state :=
  modifyJob_view m j Job.state fun _ => rfl
@[simp] lemma setTarget_pool : (m.setTarget j h r).pool = m.pool := rfl
@[simp] lemma setTarget_initialized :
    (m.setTarget j h r).gJobPoolInitialized = m.gJobPoolInitialized := rfl

@[simp] lemma modifyPool_jobs : (m.modifyPool g).jobs = m.jobs := rfl
@[simp] lemma modifyPool_next : (m.modifyPool g).next = m.next := rfl
@[simp] lemma modifyPool_prev : (m.modifyPool g).prev = m.prev := rfl
@[simp] lemma modifyPool_state : (m.modifyPool g).state = m.state := rfl
@[simp] lemma modifyPool_data : (m.modifyPool g).data = m.data := rfl
@[simp] lemma modifyPool_pool : (m.modifyPool g).pool = g m.pool := rfl
@[simp] lemma modifyPool_initialized :
    (m.modifyPool g).gJobPoolInitialized = m.gJobPoolInitialized := rfl

@[simp] lemma modifyStats_next : (m.modifyStats k).next = m.next := rfl
@[simp] lemma modifyStats_prev : (m.modifyStats k).prev = m.prev := rfl
@[simp] lemma modifyStats_state : (m.modifyStats k).state = m.state := rfl
@[simp] lemma modifyStats_data : (m.modifyStats k).data = m.data := rfl
@[simp] lemma modifyStats_pool :
    (m.modifyStats k).pool = { m.pool with stats := k m.pool.stats } := rfl
@[simp] lemma modifyStats_initialized :
    (m.modifyStats k).gJobPoolInitialized = m.gJobPoolInitialized := rfl

end Views

end Memory

/-! ### The static slots -/

/-- `get_next_job_id`: the counter after the increment, which wraps. -/
def getNextJobId (m : Memory) : UInt32 × Memory :=
  (m.gJobIdCounter + 1, { m with gJobIdCounter := m.gJobIdCounter + 1 })

/-- `init_job_pool`. -/
def initJobPool (m : Memory) : Memory :=
  if m.gJobPoolInitialized then m
  else
    { m with
      jobs := fun j => match j with
        | .slot _ => { Job.zero with state := .completed }
        | .object n => m.jobs (.object n)
      gJobPoolInitialized := true }

/-- The loop of `job_pool_alloc`: the first slot in a state it takes for free. -/
def findFreeSlot (m : Memory) : Option (Fin osaJobPoolSize) :=
  (List.finRange osaJobPoolSize).find? fun i =>
    m.state (.slot i) = .completed ∨ m.state (.slot i) = .cancelled

/-- Lines 71 to 73: the slot is cleared and given an id. -/
def claimSlot (m : Memory) (i : Fin osaJobPoolSize) : Memory :=
  let (id, m) := getNextJobId m
  m.modifyJob (.slot i) fun _ => { Job.zero with id := id, state := .pending }

/-- `osa_worker_job_alloc`, that is `job_pool_alloc`. -/
def osaWorkerJobAlloc (m : Memory) : Option (Fin osaJobPoolSize) × Memory :=
  match findFreeSlot (initJobPool m) with
  | none => (none, initJobPool m)
  | some i => (some i, claimSlot (initJobPool m) i)

/-- `osa_worker_job_free`, that is `job_pool_free`: only an element of `g_job_pool`
is written. -/
def osaWorkerJobFree (m : Memory) : Option JobRef → Memory
  | some (.slot i) => m.setState (.slot i) .completed
  | _ => m

/-! ### Jobs -/

/-- The arguments of `osa_worker_job_init` behind the job. -/
structure InitArgs where
  jobFunc : Option ℕ
  jobCtx : Option ℕ
  completeCb : Option ℕ
  completeCtx : Option ℕ
  deriving DecidableEq, Repr

/-- `osa_worker_job_init`. -/
def osaWorkerJobInit (m : Memory) (job : Option JobRef) (args : InitArgs) : Memory :=
  match job with
  | none => m
  | some j =>
      let m := m.modifyJob j fun _ => Job.zero
      let (id, m) := getNextJobId m
      m.modifyJob j fun _ =>
        { id := id
          state := .pending
          jobFunc := args.jobFunc
          jobCtx := args.jobCtx
          completeCb := args.completeCb
          completeCtx := args.completeCtx
          targetHsm := none
          completionSignal := 0
          result := 0
          next := none
          prev := none }

/-! ### The pool -/

/-- `OSA_WORKER_POOL_DEFAULT_WORKERS`, `OSA_WORKER_POOL_MAX_WORKERS` and
`OSA_WORKER_POOL_QUEUE_SIZE`. -/
def osaWorkerPoolDefaultWorkers : UInt32 := 4
def osaWorkerPoolMaxWorkers : UInt32 := 16
def osaWorkerPoolQueueSize : UInt32 := 64

/-- An `unsigned` argument read as an `int`. -/
def toCInt (n : UInt32) : Int := (n.toNat : Int).bmod (2 ^ 32)

/-- `osa_worker_pool_init` where every allocation succeeds. -/
def osaWorkerPoolInit (numWorkers queueSize : UInt32) : Pool :=
  let workers := if numWorkers = 0 then osaWorkerPoolDefaultWorkers else numWorkers
  let size := if queueSize = 0 then osaWorkerPoolQueueSize else queueSize
  { jobQueueHead := none
    jobQueueTail := none
    workSem := ⟨0, toCInt size⟩
    completeSem := ⟨0, toCInt size⟩
    numWorkers := if workers > osaWorkerPoolMaxWorkers then osaWorkerPoolMaxWorkers else workers
    queueSize := size
    shutdown := false
    stats := ⟨0, 0, 0, 0, 0, 0⟩ }

/-- Lines 369 to 372: an id is assigned if none is set. -/
def assignId (m : Memory) (j : JobRef) : Memory :=
  if (m.jobs j).id = 0 then
    let (id, m) := getNextJobId m
    m.setId j id
  else m

/-- Lines 374 to 386: the job is linked behind the tail. -/
def enqueueJob (m : Memory) (j : JobRef) : Memory :=
  let m := m.setState j .pending
  let m := m.setNext j none
  let m := m.setPrev j none
  match m.pool.jobQueueTail with
  | none => m.modifyPool fun p => { p with jobQueueHead := some j, jobQueueTail := some j }
  | some t =>
      let m := m.setNext t (some j)
      let m := m.setPrev j (some t)
      m.modifyPool fun p => { p with jobQueueTail := some j }

/-- `osa_worker_pool_submit`. -/
def osaWorkerPoolSubmit (m : Memory) (job : Option JobRef) : Int × Memory :=
  match job with
  | none => (-1, m)
  | some j =>
      if m.pool.stats.queueDepth ≥ m.pool.queueSize then (-1, m)
      else
        let m := enqueueJob (assignId m j) j
        let m := m.modifyStats fun s =>
          { s with queueDepth := s.queueDepth + 1, totalSubmitted := s.totalSubmitted + 1 }
        (0, m.modifyPool fun p => { p with workSem := osaSemPost p.workSem })

/-- `osa_worker_pool_submit_to_hsm`. -/
def osaWorkerPoolSubmitToHsm (m : Memory) (job : Option JobRef) (targetHsm : Option ℕ)
    (completionSignal : Int) : Int × Memory :=
  match job with
  | none => (-1, m)
  | some j =>
      osaWorkerPoolSubmit (m.setTarget j targetHsm completionSignal) (some j)

/-- The loop of `osa_worker_pool_cancel`, from the node `p` on and for at most `fuel`
iterations: the job it stops at, `none` inside if it reaches the end of the chain, and
`none` outside if it is still running. -/
def cancelSearch (m : Memory) (id : UInt32) : ℕ → Option JobRef → Option (Option JobRef)
  | _, none => some none
  | 0, some _ => none
  | fuel + 1, some j =>
      if (m.jobs j).id = id then some (some j) else cancelSearch m id fuel (m.next j)

/-- Lines 430 to 434: the walk forward skips the job. -/
def unlinkForward (m : Memory) (j : JobRef) : Memory :=
  match m.prev j with
  | some p => m.setNext p (m.next j)
  | none => m.modifyPool fun p => { p with jobQueueHead := m.next j }

/-- Lines 436 to 440: the walk backward skips the job. -/
def unlinkBackward (m : Memory) (j : JobRef) : Memory :=
  match m.next j with
  | some n => m.setPrev n (m.prev j)
  | none => m.modifyPool fun p => { p with jobQueueTail := m.prev j }

/-- Lines 430 to 440: the job is unlinked. -/
def unlinkJob (m : Memory) (j : JobRef) : Memory := unlinkBackward (unlinkForward m j) j

/-- What `osa_worker_pool_cancel` does with the job its search stops at. -/
def cancelJob (m : Memory) (j : JobRef) : Memory :=
  let m := unlinkJob m j
  let m := m.setState j .cancelled
  m.modifyStats fun s =>
    { s with queueDepth := s.queueDepth - 1, totalCancelled := s.totalCancelled + 1 }

/-- `osa_worker_pool_cancel`, `none` if the search does not end in `fuel` iterations. -/
def osaWorkerPoolCancel (m : Memory) (id : UInt32) (fuel : ℕ) : Option (Int × Memory) :=
  match cancelSearch m id fuel m.pool.jobQueueHead with
  | none => none
  | some none => some (-1, m)
  | some (some j) => some (0, cancelJob m j)

/-- `osa_worker_pool_get_stats`. -/
def osaWorkerPoolGetStats (m : Memory) : PoolStats := m.pool.stats

/-! ### The body of a worker -/

/-- Lines 118 to 129 of `osa_worker_pool_thread`: the head of the queue is taken.  The
links of the new head are left as they are. -/
def dequeueJob (m : Memory) : Option JobRef × Memory :=
  match m.pool.jobQueueHead with
  | none => (none, m)
  | some j =>
      let m := m.modifyPool fun p => { p with jobQueueHead := m.next j }
      let m := if m.pool.jobQueueHead = none then
          m.modifyPool fun p => { p with jobQueueTail := none }
        else m
      let m := m.setNext j none
      let m := m.setPrev j none
      let m := m.setState j .running
      (some j, m.modifyStats fun s =>
        { s with activeWorkers := s.activeWorkers + 1, queueDepth := s.queueDepth - 1 })

/-- Lines 137 to 142: the result of an execution, `ret` being what `job_func` returns. -/
def executeJob (m : Memory) (j : JobRef) (ret : Int) : Memory :=
  m.setResult j (if (m.jobs j).jobFunc = none then -1 else ret)

/-- Lines 145 to 152: the final state and the counters. -/
def finishJob (m : Memory) (j : JobRef) : Memory :=
  let m := m.setState j (if (m.jobs j).result < 0 then .error else .completed)
  m.modifyStats fun s =>
    let s := { s with activeWorkers := s.activeWorkers - 1 }
    if m.state j = .error then { s with totalErrors := s.totalErrors + 1 }
    else { s with totalCompleted := s.totalCompleted + 1 }

/-! ### Waiting for a job -/

/-- The polling branch of `osa_worker_pool_wait`. -/
def pollStatus (m : Memory) (j : JobRef) : Int :=
  if m.state j ≠ .completed ∧ m.state j ≠ .cancelled then -1 else 0

/-- What the blocking branches of `osa_worker_pool_wait` make of the value `ret` that
`osa_sem_wait` returned. -/
def waitResult (timeoutMs : Int) (ret : Int) : Int :=
  if timeoutMs < 0 then (if ret ≠ 0 then -1 else ret)
  else if ret = -eTIMEDOUT then -1 else ret

end OpenHsm
