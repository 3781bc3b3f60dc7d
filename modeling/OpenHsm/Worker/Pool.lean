import OpenHsm.Library.Runs
import OpenHsm.Worker.Job

/-!
The worker pool as a transition system: the memory of `Worker/Job.lean` shared by any
number of clients, `n` worker threads, waiters, the dispatcher threads of the state
machines and one call of `osa_worker_pool_stop`.

* `WorkerPc`, `WaiterPc`, `HsmQueue`, `StopPc`: where each thread is.  A step is one
  critical section under `pool->lock`, one semaphore operation, or one call that takes
  no lock.  The completion section of a worker is two steps, `finish` and `notify`,
  with the lock held between them, because slots are allocated and freed without it.
* `Act`, `enabled`, `next`, `poolSystem`: the steps.  A cancel carries the number of
  iterations its search is given, and can be taken where the search ends within them.
* `Event`: what a run has done so far, newest first, as ghost state.  `waiting`,
  `accepts`, `dequeues` and `settlements` read it; no step does.
* `Busy`, `Discipline`: what the interface asks of its callers.  A job is initialised,
  submitted and freed only by a client that owns it and only while it is neither
  queued nor running.
-/

namespace OpenHsm

open Runs

/-! ### The threads -/

/-- What an execution of a job was: ghost data that travels with its announcement. -/
structure Execution where
  client : Option ℕ
  id : UInt32
  jobCtx : Option ℕ
  result : Int
  deriving DecidableEq, Repr

/-- Where a worker is in `osa_worker_pool_thread`. -/
inductive WorkerPc where
  /-- In `osa_sem_wait(pool->work_sem, -1)`. -/
  | waiting
  /-- Past it, before the lock. -/
  | woken
  /-- Past the first critical section, with a job. -/
  | running (j : JobRef)
  /-- `job->result` is written. -/
  | executed (j : JobRef) (e : Execution)
  /-- In the second critical section, past the counters. -/
  | notifying (j : JobRef) (e : Execution)
  | exited
  deriving DecidableEq, Repr

/-- The job a worker is executing: from its dequeue to its final state. -/
def WorkerPc.executing : WorkerPc → Option JobRef
  | .running j | .executed j _ => some j
  | _ => none

/-- The worker is inside its completion section. -/
def WorkerPc.holdsLock : WorkerPc → Bool
  | .notifying _ _ => true
  | _ => false

/-- Where a caller is in `osa_worker_pool_wait`. -/
inductive WaiterPc where
  | idle
  /-- In `osa_sem_wait(pool->complete_sem, timeout_ms)`. -/
  | blocked (j : JobRef) (timeoutMs : Int)
  /-- `osa_sem_wait` returned `ret`; the lock is still to be taken again. -/
  | returned (j : JobRef) (timeoutMs : Int) (ret : Int)
  deriving DecidableEq, Repr

/-- What waits in the queue of a state machine: a completion event, with the execution
it announces as ghost data, or any other event. -/
inductive Message where
  | completion (signal : Int) (data : JobRef) (e : Execution)
  | other (signal : Int)
  deriving DecidableEq, Repr

/-- The message queue of a state machine, as the bounded first-in first-out list it is,
and the event its handler is working on. -/
structure HsmQueue where
  capacity : ℕ
  created : Bool
  messages : List Message
  handling : Option Message
  deriving DecidableEq, Repr

/-- `osa_hsm_active_event_post` with timeout `0`. -/
def HsmQueue.post (q : HsmQueue) (msg : Message) : Int × HsmQueue :=
  if q.created = false then (-1, q)
  else if q.capacity ≤ q.messages.length then (-eAGAIN, q)
  else (0, { q with messages := q.messages ++ [msg] })

/-- The dispatcher takes the oldest event. -/
def HsmQueue.receive (q : HsmQueue) : HsmQueue :=
  { q with messages := q.messages.tail, handling := q.messages.head? }

/-- Where `osa_worker_pool_stop` is: `k` posts made, `k` workers joined. -/
inductive StopPc where
  | notCalled
  | posting (k : ℕ)
  | joining (k : ℕ)
  deriving DecidableEq, Repr

/-- What has happened, as far as a client can tell. -/
inductive Event (n : ℕ) where
  | initialised (j : JobRef)
  | allocated (i : Fin osaJobPoolSize)
  | freed (j : JobRef)
  /-- A submit of the job returned `0`. -/
  | accepted (j : JobRef)
  /-- A submit of the job returned `-1`. -/
  | refused (j : JobRef)
  /-- A cancel of the id returned `0`, its search having stopped at the job. -/
  | cancelled (j : JobRef) (id : UInt32)
  /-- A cancel returned `-1`. -/
  | missed (id : UInt32)
  | dequeued (w : Fin n) (j : JobRef)
  /-- A worker woke up to an empty queue. -/
  | idled (w : Fin n)
  /-- `job_func` was called. -/
  | called (w : Fin n) (j : JobRef)
  /-- The job has no `job_func`. -/
  | skipped (w : Fin n) (j : JobRef)
  | finished (w : Fin n) (j : JobRef)
  | calledBack (w : Fin n) (j : JobRef) (result : Int)
  | announced (h : ℕ) (j : JobRef) (ret : Int)
  | waited (x : ℕ) (j : JobRef) (timeoutMs : Int) (ret : Int)
  deriving DecidableEq, Repr

/-- The state of the pool and its threads. -/
structure Sys (n : ℕ) where
  mem : Memory
  pc : Fin n → WorkerPc
  waiter : ℕ → WaiterPc
  hsm : ℕ → HsmQueue
  stop : StopPc
  /-- Who owns a static slot: set by an allocation, cleared by a free. -/
  owner : Fin osaJobPoolSize → Option ℕ
  /-- Who made the latest accepted submission of a job. -/
  submitter : JobRef → Option ℕ
  log : List (Event n)

variable {n : ℕ}

/-! ### The steps -/

/-- One step of one thread. -/
inductive Act (n : ℕ) where
  | init (c : ℕ) (j : JobRef) (args : InitArgs)
  | alloc (c : ℕ)
  | free (c : ℕ) (j : JobRef)
  | submit (c : ℕ) (j : JobRef)
  | submitToHsm (c : ℕ) (j : JobRef) (targetHsm : Option ℕ) (completionSignal : Int)
  | cancel (id : UInt32) (fuel : ℕ)
  | take (w : Fin n)
  | dequeue (w : Fin n)
  | execute (w : Fin n) (ret : Int)
  | finish (w : Fin n)
  | notify (w : Fin n)
  | waitCall (x : ℕ) (j : JobRef) (timeoutMs : Int)
  | waitTake (x : ℕ)
  | waitFail (x : ℕ) (err : Int)
  | waitReturn (x : ℕ)
  | stopBegin
  | stopPost
  | stopJoin (w : Fin n)
  | hsmStart (h : ℕ)
  | post (h : ℕ) (signal : Int)
  | receive (h : ℕ)
  /-- The handler is done with its event. -/
  | handled (h : ℕ)
  /-- The handler frees `event->data` and is done. -/
  | handledFree (h : ℕ)
  deriving DecidableEq, Repr

/-- No thread is inside a critical section under `pool->lock`. -/
def LockFree (s : Sys n) : Prop := ∀ w, (s.pc w).holdsLock = false

instance (s : Sys n) : Decidable (LockFree s) :=
  inferInstanceAs (Decidable (∀ w, (s.pc w).holdsLock = false))

/-- When a step can be taken. -/
def enabled (s : Sys n) : Act n → Prop
  | .init _ _ _ | .alloc _ | .free _ _ => True
  | .submit _ _ | .submitToHsm _ _ _ _ => LockFree s
  | .cancel id fuel => LockFree s ∧ (osaWorkerPoolCancel s.mem id fuel).isSome
  | .take w => s.pc w = .waiting ∧ 0 < s.mem.pool.workSem.posixSem
  | .dequeue w => s.pc w = .woken ∧ LockFree s
  | .execute w _ => match s.pc w with
      | .running _ => True
      | _ => False
  | .finish w => match s.pc w with
      | .executed _ _ => LockFree s
      | _ => False
  | .notify w => (s.pc w).holdsLock
  | .waitCall x _ _ => s.waiter x = .idle ∧ LockFree s
  | .waitTake x => match s.waiter x with
      | .blocked _ _ => 0 < s.mem.pool.completeSem.posixSem
      | _ => False
  | .waitFail x err => match s.waiter x with
      | .blocked _ _ => err < 0
      | _ => False
  | .waitReturn x => match s.waiter x with
      | .returned _ _ _ => LockFree s
      | _ => False
  | .stopBegin => s.stop = .notCalled ∧ LockFree s
  | .stopPost => match s.stop with
      | .posting k => k < s.mem.pool.numWorkers.toNat
      | _ => False
  | .stopJoin w => s.pc w = .exited ∧ match s.stop with
      | .posting k => k = s.mem.pool.numWorkers.toNat ∧ w.val = 0
      | .joining k => w.val = k
      | .notCalled => False
  | .hsmStart h => (s.hsm h).created = false
  | .post _ _ => True
  | .receive h => (s.hsm h).handling = none ∧ (s.hsm h).messages ≠ []
  | .handled h => (s.hsm h).handling ≠ none
  | .handledFree h => match (s.hsm h).handling with
      | some (.completion _ _ _) => True
      | _ => False

instance (s : Sys n) (a : Act n) : Decidable (enabled s a) := by
  cases a <;> simp only [enabled] <;> first
    | infer_instance
    | (split <;> infer_instance)

/-- The event of a submit that returned `ret`. -/
def submitEvent (ret : Int) (j : JobRef) : Event n :=
  if ret = 0 then .accepted j else .refused j

/-- The event of a cancel. -/
def cancelEvent (m : Memory) (id : UInt32) (fuel : ℕ) : Event n :=
  match cancelSearch m id fuel m.pool.jobQueueHead with
  | some (some j) => .cancelled j id
  | _ => .missed id

/-- The effect of a submit that returned `ret` and left the memory `m`. -/
def afterSubmit (s : Sys n) (c : ℕ) (j : JobRef) (r : Int × Memory) : Sys n :=
  { s with
    mem := r.2
    submitter := if r.1 = 0 then Function.update s.submitter j (some c) else s.submitter
    log := submitEvent r.1 j :: s.log }

/-- Lines 154 to 174 of `osa_worker_pool_thread`: the callback, the event for the target
and the post on `complete_sem`. -/
def notifyStep (s : Sys n) (w : Fin n) (j : JobRef) (e : Execution) : Sys n :=
  let b := s.mem.jobs j
  let log := if b.completeCb = none then s.log else .calledBack w j b.result :: s.log
  let mem := s.mem.modifyPool fun p => { p with completeSem := osaSemPost p.completeSem }
  let pc := Function.update s.pc w .waiting
  match b.targetHsm with
  | none => { s with mem := mem, pc := pc, log := log }
  | some h =>
      let r := (s.hsm h).post (.completion b.completionSignal j e)
      { s with
        mem := mem
        pc := pc
        hsm := Function.update s.hsm h r.2
        log := .announced h j r.1 :: log }

/-- `osa_worker_job_free`. -/
def freeStep (s : Sys n) (j : JobRef) : Sys n :=
  { s with
    mem := osaWorkerJobFree s.mem (some j)
    owner := match j with
      | .slot i => Function.update s.owner i none
      | .object _ => s.owner
    log := .freed j :: s.log }

/-- The effect of a step on the queue of one state machine. -/
def setHsm (s : Sys n) (h : ℕ) (q : HsmQueue) : Sys n :=
  { s with hsm := Function.update s.hsm h q }

/-- The effect of a step. -/
def next (s : Sys n) : Act n → Sys n
  | .init _ j args =>
      { s with mem := osaWorkerJobInit s.mem (some j) args, log := .initialised j :: s.log }
  | .alloc c =>
      let r := osaWorkerJobAlloc s.mem
      match r.1 with
      | none => { s with mem := r.2 }
      | some i =>
          { s with
            mem := r.2
            owner := Function.update s.owner i (some c)
            log := .allocated i :: s.log }
  | .free _ j => freeStep s j
  | .submit c j => afterSubmit s c j (osaWorkerPoolSubmit s.mem (some j))
  | .submitToHsm c j h sig =>
      afterSubmit s c j (osaWorkerPoolSubmitToHsm s.mem (some j) h sig)
  | .cancel id fuel =>
      match osaWorkerPoolCancel s.mem id fuel with
      | some r => { s with mem := r.2, log := cancelEvent s.mem id fuel :: s.log }
      | none => s
  | .take w =>
      { s with
        mem := s.mem.modifyPool fun p => { p with workSem := osaSemTake p.workSem }
        pc := Function.update s.pc w .woken }
  | .dequeue w =>
      if s.mem.pool.shutdown then { s with pc := Function.update s.pc w .exited }
      else
        let r := dequeueJob s.mem
        match r.1 with
        | none =>
            { s with
              mem := r.2
              pc := Function.update s.pc w .waiting
              log := .idled w :: s.log }
        | some j =>
            { s with
              mem := r.2
              pc := Function.update s.pc w (.running j)
              log := .dequeued w j :: s.log }
  | .execute w ret =>
      match s.pc w with
      | .running j =>
          let m := executeJob s.mem j ret
          let b := m.jobs j
          { s with
            mem := m
            pc := Function.update s.pc w
              (.executed j ⟨s.submitter j, b.id, b.jobCtx, b.result⟩)
            log := (if b.jobFunc = none then .skipped w j else .called w j) :: s.log }
      | _ => s
  | .finish w =>
      match s.pc w with
      | .executed j e =>
          { s with
            mem := finishJob s.mem j
            pc := Function.update s.pc w (.notifying j e)
            log := .finished w j :: s.log }
      | _ => s
  | .notify w =>
      match s.pc w with
      | .notifying j e => notifyStep s w j e
      | _ => s
  | .waitCall x j timeoutMs =>
      if timeoutMs = 0 then { s with log := .waited x j 0 (pollStatus s.mem j) :: s.log }
      else { s with waiter := Function.update s.waiter x (.blocked j timeoutMs) }
  | .waitTake x =>
      match s.waiter x with
      | .blocked j t =>
          { s with
            mem := s.mem.modifyPool fun p => { p with completeSem := osaSemTake p.completeSem }
            waiter := Function.update s.waiter x (.returned j t 0) }
      | _ => s
  | .waitFail x err =>
      match s.waiter x with
      | .blocked j t => { s with waiter := Function.update s.waiter x (.returned j t err) }
      | _ => s
  | .waitReturn x =>
      match s.waiter x with
      | .returned j t ret =>
          { s with
            waiter := Function.update s.waiter x .idle
            log := .waited x j t (waitResult t ret) :: s.log }
      | _ => s
  | .stopBegin =>
      { s with mem := s.mem.modifyPool fun p => { p with shutdown := true }, stop := .posting 0 }
  | .stopPost =>
      match s.stop with
      | .posting k =>
          { s with
            mem := s.mem.modifyPool fun p => { p with workSem := osaSemPost p.workSem }
            stop := .posting (k + 1) }
      | _ => s
  | .stopJoin w => { s with stop := .joining (w.val + 1) }
  | .hsmStart h => setHsm s h { s.hsm h with created := true }
  | .post h sig => setHsm s h ((s.hsm h).post (.other sig)).2
  | .receive h => setHsm s h (s.hsm h).receive
  | .handled h => setHsm s h { s.hsm h with handling := none }
  | .handledFree h =>
      match (s.hsm h).handling with
      | some (.completion _ j _) =>
          setHsm (freeStep s j) h { s.hsm h with handling := none }
      | _ => s

/-- An allocation, whether it finds a slot or not. -/
lemma next_alloc_mem (s : Sys n) (c : ℕ) :
    (next s (.alloc c)).mem = (osaWorkerJobAlloc s.mem).2 := by
  simp only [next]
  split <;> rfl

/-- A cancel whose search ends has found a job or none. -/
lemma next_cancel_of_search {s : Sys n} {id : UInt32} {fuel : ℕ} {r : Option JobRef}
    (hr : cancelSearch s.mem id fuel s.mem.pool.jobQueueHead = some r) :
    next s (.cancel id fuel) = match r with
      | none => { s with log := .missed id :: s.log }
      | some j => { s with mem := cancelJob s.mem j, log := .cancelled j id :: s.log } := by
  cases r <;> simp only [next, osaWorkerPoolCancel, cancelEvent, hr]

/-- **What a cancel can do.** -/
lemma next_cancel_cases (s : Sys n) (id : UInt32) (fuel : ℕ) :
    next s (.cancel id fuel) = s ∨
    next s (.cancel id fuel) = { s with log := .missed id :: s.log } ∨
    ∃ j, next s (.cancel id fuel) =
      { s with mem := cancelJob s.mem j, log := .cancelled j id :: s.log } := by
  cases hr : cancelSearch s.mem id fuel s.mem.pool.jobQueueHead with
  | none => exact .inl (by simp only [next, osaWorkerPoolCancel, hr])
  | some r =>
      cases r with
      | none => exact .inr (.inl (next_cancel_of_search hr))
      | some j => exact .inr (.inr ⟨j, next_cancel_of_search hr⟩)

/-- Right after a successful `osa_worker_pool_init` and the creation of `n` workers: the
job objects and the id counter are whatever they were, the static slots untouched. -/
def Initial (s : Sys n) : Prop :=
  (∃ numWorkers queueSize, s.mem.pool = osaWorkerPoolInit numWorkers queueSize) ∧
  s.mem.gJobPoolInitialized = false ∧
  s.pc = (fun _ => .waiting) ∧ s.waiter = (fun _ => .idle) ∧
  (∀ h, (s.hsm h).messages = [] ∧ (s.hsm h).handling = none) ∧
  s.stop = .notCalled ∧ s.owner = (fun _ => none) ∧ s.submitter = (fun _ => none) ∧
  s.log = []

lemma Initial.log_eq {s : Sys n} (h : Initial s) : s.log = [] := h.2.2.2.2.2.2.2.2

/-- The initial state in which all memory was zero and the state machines have queues of
`capacity` events. -/
def startState (n : ℕ) (numWorkers queueSize : UInt32) (capacity : ℕ) : Sys n where
  mem :=
    { jobs := fun _ => Job.zero
      pool := osaWorkerPoolInit numWorkers queueSize
      gJobIdCounter := 0
      gJobPoolInitialized := false }
  pc := fun _ => .waiting
  waiter := fun _ => .idle
  hsm := fun _ => ⟨capacity, false, [], none⟩
  stop := .notCalled
  owner := fun _ => none
  submitter := fun _ => none
  log := []

lemma startState_initial (numWorkers queueSize : UInt32) (capacity : ℕ) :
    Initial (startState n numWorkers queueSize capacity) :=
  ⟨⟨numWorkers, queueSize, rfl⟩, rfl, rfl, rfl, fun _ => ⟨rfl, rfl⟩, rfl, rfl, rfl, rfl⟩

/-- The pool. -/
def poolSystem (n : ℕ) : System (Sys n) (Act n) where
  init := Initial
  enabled := enabled
  next := next

instance (s : Sys n) (a : Act n) : Decidable ((poolSystem n).enabled s a) :=
  inferInstanceAs (Decidable (enabled s a))

/-! ### Reading the log -/

/-- The jobs accepted and not yet dequeued or cancelled, in acceptance order. -/
def waiting : List (Event n) → List JobRef
  | [] => []
  | .accepted j :: l => waiting l ++ [j]
  | .dequeued _ j :: l | .cancelled j _ :: l => (waiting l).erase j
  | _ :: l => waiting l

/-- The accepted submissions, oldest first. -/
def accepts : List (Event n) → List JobRef
  | [] => []
  | .accepted j :: l => accepts l ++ [j]
  | _ :: l => accepts l

/-- The dequeues, oldest first. -/
def dequeues : List (Event n) → List (Fin n × JobRef)
  | [] => []
  | .dequeued w j :: l => dequeues l ++ [(w, j)]
  | _ :: l => dequeues l

/-- The number of the latest accepted submission of a job. -/
def serial (j : JobRef) : List (Event n) → Option ℕ
  | [] => none
  | .accepted k :: l => if k = j then some (accepts l).length else serial j l
  | _ :: l => serial j l

lemma serial_accepted_of_ne {j k : JobRef} (h : k ≠ j) (l : List (Event n)) :
    serial k (.accepted j :: l) = serial k l := by
  rw [serial, if_neg (Ne.symm h)]

/-- What became of a submission: it was cancelled, or a worker called its function. -/
inductive Settlement (n : ℕ) where
  | cancelled
  | called (w : Fin n)
  deriving DecidableEq, Repr

/-- The submissions whose cancel returned `0` or whose `job_func` was called, with the
number of the submission, newest first. -/
def settlements : List (Event n) → List (Option ℕ × Settlement n)
  | [] => []
  | .cancelled j _ :: l => (serial j l, .cancelled) :: settlements l
  | .called w j :: l => (serial j l, .called w) :: settlements l
  | _ :: l => settlements l

/-! ### What is asked of the callers -/

/-- The job is queued or being executed. -/
def Busy (s : Sys n) (j : JobRef) : Prop :=
  j ∈ waiting s.log ∨ ∃ w, (s.pc w).executing = some j

instance (s : Sys n) (j : JobRef) : Decidable (Busy s j) :=
  inferInstanceAs (Decidable (j ∈ waiting s.log ∨ ∃ w, (s.pc w).executing = some j))

/-- The client may use the job object: a static slot is its own. -/
def Owns (s : Sys n) (c : ℕ) : JobRef → Prop
  | .slot i => s.owner i = some c
  | .object _ => True

instance (s : Sys n) (c : ℕ) : DecidablePred (Owns s c)
  | .slot i => inferInstanceAs (Decidable (s.owner i = some c))
  | .object _ => isTrue trivial

/-- Callers initialise, submit and free only jobs they own that are neither queued nor
running. -/
def Discipline (s : Sys n) : Act n → Prop
  | .init c j _ | .free c j | .submit c j | .submitToHsm c j _ _ => Owns s c j ∧ ¬ Busy s j
  | .handledFree h => match (s.hsm h).handling with
      | some (.completion _ j _) => Owns s h j ∧ ¬ Busy s j
      | _ => True
  | _ => True

instance (s : Sys n) (a : Act n) : Decidable (Discipline s a) := by
  cases a <;> simp only [Discipline] <;> first
    | infer_instance
    | (split <;> infer_instance)

end OpenHsm
