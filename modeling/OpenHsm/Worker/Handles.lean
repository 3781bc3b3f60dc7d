import OpenHsm.Library.Runs
import OpenHsm.Worker.Job

/-!
The platform handles of a worker pool: its lock, its two semaphores and the threads in the
slots of `pool->workers`, over any sequence of calls of the life cycle and any steps of the
workers in between.

* `HandleState`, `Resource`, `ThreadState`, `PoolLife`: what each handle refers to and where
  each thread is.  The log records every handle that is passed to a platform operation, with
  its state at that moment.
* `LifeAct`, `lifeEnabled`, `lifeNext`, `lifeSystem`: the calls, step by step where they
  block, and the workers.  Whether a submit finds room, and a worker a job, is left open.
  `completion_thread`, which `osa_thread_join` refuses while it is `NULL`, is not among the
  handles.
* `Safe`: every handle used is live, no thread is joined twice, and none runs when the lock
  and the semaphores are destroyed.
* `Proper`, `LifeInv`, `handles_live`: the order of calls in which a run is safe.
  `unsafe_life_cycles` has the pool that is stopped without a start, as one of the
  repository's tests does, and the pool that is started twice.
-/

namespace OpenHsm

open Runs

/-! ### Handles and threads -/

/-- What a handle refers to. -/
inductive HandleState where
  | undefined
  | live
  /-- Destroyed, or joined. -/
  | destroyed
  deriving DecidableEq, Repr

/-- What a handle of the pool is for. -/
inductive Resource where
  | lock
  | workSem
  | completeSem
  /-- `pool->workers[i]`. -/
  | worker (i : ℕ)
  deriving DecidableEq, Repr

/-- Where a worker thread is. -/
inductive ThreadState where
  | absent
  /-- Before `osa_sem_wait(pool->work_sem, -1)`. -/
  | idle
  /-- In it, on the semaphore of one initialisation of the pool. -/
  | blocked (generation : ℕ)
  | woken
  /-- Running a job. -/
  | busy
  | exited
  | joined
  deriving DecidableEq, Repr

/-- The thread has not left `osa_worker_pool_thread`. -/
def ThreadState.runs : ThreadState → Bool
  | .idle | .blocked _ | .woken | .busy => true
  | .absent | .exited | .joined => false

/-- Where the caller is in a call that takes more than one step. -/
inductive LifePc where
  | none
  /-- In `osa_worker_pool_start`, with `i` workers created. -/
  | starting (i : ℕ)
  /-- In `osa_worker_pool_wait`, on `complete_sem`. -/
  | waiting
  /-- In `osa_worker_pool_stop`, with `k` posts made. -/
  | posting (k : ℕ)
  /-- In `osa_worker_pool_stop`, with `k` slots joined. -/
  | joining (k : ℕ)
  deriving DecidableEq, Repr

/-- What happens to the handles. -/
inductive LifeEvent where
  /-- The handle is passed to a platform operation. -/
  | used (r : Resource) (st : HandleState)
  /-- The thread is joined. -/
  | joined (t : ℕ)
  /-- The lock and the semaphores are destroyed, with or without a worker running. -/
  | destroyed (running : Bool)
  deriving DecidableEq, Repr

/-- The pool, its handles and its threads. -/
structure PoolLife where
  pool : Pool
  lock : HandleState
  workSem : HandleState
  completeSem : HandleState
  /-- `pool->workers` is not `NULL`. -/
  workers : Bool
  /-- The thread that `osa_thread_create` stored in a slot. -/
  slots : ℕ → Option ℕ
  threads : ℕ → ThreadState
  created : ℕ
  generation : ℕ
  call : LifePc
  log : List LifeEvent

namespace PoolLife

variable (s : PoolLife)

/-- The number of slots. -/
def size : ℕ := s.pool.numWorkers.toNat

/-- What the handle refers to. -/
def handle : Resource → HandleState
  | .lock => s.lock
  | .workSem => s.workSem
  | .completeSem => s.completeSem
  | .worker i => match s.slots i with
      | none => .undefined
      | some t => if s.threads t = .joined then .destroyed else .live

/-- The handle is passed to a platform operation. -/
def use (r : Resource) : PoolLife := { s with log := .used r (s.handle r) :: s.log }

/-- `osa_mutex_lock` and `osa_mutex_unlock` around a critical section. -/
def critical : PoolLife := (s.use .lock).use .lock

/-- A worker thread moves. -/
def moveThread (t : ℕ) (p : ThreadState) : PoolLife :=
  { s with threads := Function.update s.threads t p }

/-- The handle is given a new object, or its object is destroyed. -/
def setHandle (st : HandleState) : Resource → PoolLife
  | .lock => { s with lock := st }
  | .workSem => { s with workSem := st }
  | .completeSem => { s with completeSem := st }
  | .worker _ => s

/-- `osa_mutex_destroy` or `osa_sem_destroy`. -/
def destroy (r : Resource) : PoolLife := (s.use r).setHandle .destroyed r

@[simp] lemma use_threads (r : Resource) : (s.use r).threads = s.threads := rfl

@[simp] lemma moveThread_self (t : ℕ) (p : ThreadState) : (s.moveThread t p).threads t = p :=
  Function.update_self ..

lemma moveThread_of_ne {t u : ℕ} (p : ThreadState) (hu : u ≠ t) :
    (s.moveThread t p).threads u = s.threads u :=
  Function.update_of_ne hu ..

/-- Some worker thread has not exited. -/
def anyRuns : Bool := decide (∃ t < s.created, (s.threads t).runs = true)

end PoolLife

/-! ### The calls -/

/-- The first call below `osa_worker_pool_init` that fails, if one does. -/
inductive InitOutcome where
  | ok | noLock | noWorkSem | noCompleteSem | noMemory
  deriving DecidableEq, Repr

/-- `osa_worker_pool_init`. -/
def initPool (s : PoolLife) (numWorkers queueSize : UInt32) (out : InitOutcome) : PoolLife :=
  let s := { s with
    pool := osaWorkerPoolInit numWorkers queueSize
    lock := .undefined
    workSem := .undefined
    completeSem := .undefined
    workers := false
    slots := fun _ => none
    generation := s.generation + 1 }
  match out with
  | .noLock => s
  | .noWorkSem => (s.setHandle .live .lock).destroy .lock
  | .noCompleteSem =>
      (((s.setHandle .live .lock).setHandle .live .workSem).destroy .workSem).destroy .lock
  | .noMemory =>
      (((((s.setHandle .live .lock).setHandle .live .workSem).setHandle .live .completeSem).destroy
        .completeSem).destroy .workSem).destroy .lock
  | .ok =>
      { ((s.setHandle .live .lock).setHandle .live .workSem).setHandle .live .completeSem with
        workers := true }

/-- The last lines of `osa_worker_pool_stop`. -/
def destroyPool (s : PoolLife) : PoolLife :=
  let s := { s with workers := false, slots := fun _ => none, call := .none }
  let s := { s with log := .destroyed s.anyRuns :: s.log }
  ((s.destroy .completeSem).destroy .workSem).destroy .lock

/-- Where `osa_worker_pool_stop` is after `k` posts. -/
def afterPosts (n k : ℕ) : LifePc := if k < n then .posting k else .joining 0

/-- One step of the caller or of a worker thread. -/
inductive LifeAct where
  | init (numWorkers queueSize : UInt32) (out : InitOutcome)
  | startBegin
  /-- The next `osa_thread_create` returns `0`, or it fails. -/
  | startWorker (succeeds : Bool)
  | startEnd
  | submit (accepted : Bool)
  | cancel
  | waitBegin (timeoutMs : Int)
  | waitTake
  | waitExpire
  | stopBegin
  | stopPost
  | stopJoin
  | stopEnd
  | workerWait (t : ℕ)
  | workerWake (t : ℕ)
  /-- The first critical section of a worker, which finds a job or none. -/
  | workerSection (t : ℕ) (job : Bool)
  | workerFinish (t : ℕ)
  deriving DecidableEq, Repr

/-- When a step can be taken. -/
def lifeEnabled (s : PoolLife) : LifeAct → Prop
  | .init _ _ _ | .startBegin | .submit _ | .cancel | .waitBegin _ | .stopBegin => s.call = .none
  | .startWorker _ => match s.call with
      | .starting i => i < s.size
      | _ => False
  | .startEnd => match s.call with
      | .starting i => s.size ≤ i
      | _ => False
  | .waitTake => s.call = .waiting ∧ 0 < s.pool.completeSem.posixSem
  | .waitExpire => s.call = .waiting
  | .stopPost => match s.call with
      | .posting _ => True
      | _ => False
  | .stopJoin => match s.call with
      | .joining k => k < s.size ∧
          ∀ t ∈ s.slots k, s.threads t = .exited ∨ s.threads t = .joined
      | _ => False
  | .stopEnd => match s.call with
      | .joining k => s.size ≤ k
      | _ => False
  | .workerWait t => s.threads t = .idle
  | .workerWake t => s.threads t = .blocked s.generation ∧ 0 < s.pool.workSem.posixSem
  | .workerSection t _ => s.threads t = .woken
  | .workerFinish t => s.threads t = .busy

instance (s : PoolLife) (a : LifeAct) : Decidable (lifeEnabled s a) := by
  cases a <;> simp only [lifeEnabled] <;> first | infer_instance | (split <;> infer_instance)

/-- `osa_thread_join(pool->workers[k])`. -/
def joinSlot (s : PoolLife) (k : ℕ) : PoolLife :=
  let u := s.use (.worker k)
  match s.slots k with
  | some t => { u.moveThread t .joined with log := .joined t :: u.log }
  | none => u

/-- `osa_sem_post(pool->work_sem)`. -/
def postWork (s : PoolLife) : PoolLife :=
  let u := s.use .workSem
  { u with pool := { u.pool with workSem := osaSemPost u.pool.workSem } }

/-- One step. -/
def lifeNext (s : PoolLife) : LifeAct → PoolLife
  | .init numWorkers queueSize out => initPool s numWorkers queueSize out
  | .startBegin => if s.workers then { s with call := .starting 0 } else s
  | .startWorker succeeds => match s.call with
      | .starting i =>
          if succeeds then
            { s with
              slots := Function.update s.slots i (some s.created)
              threads := Function.update s.threads s.created .idle
              created := s.created + 1
              call := .starting (i + 1) }
          else { s with call := .none }
      | _ => s
  | .startEnd => { s with call := .none }
  | .submit accepted => if accepted then (postWork (s.use .lock)).use .lock else s.critical
  | .cancel => s.critical
  | .waitBegin timeoutMs =>
      if timeoutMs = 0 then s.critical else { s.critical.use .completeSem with call := .waiting }
  | .waitTake =>
      { s.critical with
        pool := { s.pool with completeSem := osaSemTake s.pool.completeSem }
        call := .none }
  | .waitExpire => { s.critical with call := .none }
  | .stopBegin =>
      { s.critical with
        pool := { s.pool with shutdown := true }
        call := afterPosts s.size 0 }
  | .stopPost => match s.call with
      | .posting k => { postWork s with call := afterPosts s.size (k + 1) }
      | _ => s
  | .stopJoin => match s.call with
      | .joining k => { joinSlot s k with call := .joining (k + 1) }
      | _ => s
  | .stopEnd => destroyPool s
  | .workerWait t => (s.use .workSem).moveThread t (.blocked s.generation)
  | .workerWake t =>
      { s.moveThread t .woken with
        pool := { s.pool with workSem := osaSemTake s.pool.workSem } }
  | .workerSection t job =>
      s.critical.moveThread t
        (if s.pool.shutdown then .exited else if job then .busy else .idle)
  | .workerFinish t =>
      let u := (s.use .lock).use .completeSem
      let u := { u with pool := { u.pool with completeSem := osaSemPost u.pool.completeSem } }
      (u.use .lock).moveThread t .idle

/-- Zeroed memory: no handle is defined and no thread exists. -/
def noPool : PoolLife where
  pool := ⟨none, none, ⟨0, 0⟩, ⟨0, 0⟩, 0, 0, false, ⟨0, 0, 0, 0, 0, 0⟩⟩
  lock := .undefined
  workSem := .undefined
  completeSem := .undefined
  workers := false
  slots := fun _ => none
  threads := fun _ => .absent
  created := 0
  generation := 0
  call := .none
  log := []

/-- The calls on one pool, in any order, with the steps of the workers in between. -/
def lifeSystem : System PoolLife LifeAct where
  init s := s = noPool
  enabled := lifeEnabled
  next := lifeNext

instance (s : PoolLife) (a : LifeAct) : Decidable (lifeSystem.enabled s a) :=
  inferInstanceAs (Decidable (lifeEnabled s a))

/-! ### What is safe -/

/-- A handle that is used is live, and no worker runs when the handles are destroyed. -/
def LifeEvent.SafeEvent : LifeEvent → Prop
  | .used _ st => st = .live
  | .joined _ => True
  | .destroyed running => running = false

/-- No event of the log is unsafe, and no thread is joined twice. -/
structure Safe (s : PoolLife) : Prop where
  events : ∀ e ∈ s.log, e.SafeEvent
  joins : ∀ t, s.log.count (.joined t) ≤ 1

/-- The lock and the semaphores are live. -/
def PoolLife.Alive (s : PoolLife) : Prop :=
  s.lock = .live ∧ s.workSem = .live ∧ s.completeSem = .live

/-- Every slot of the pool holds a worker that is not joined. -/
def PoolLife.SlotsLive (s : PoolLife) : Prop :=
  ∀ i < s.size, s.handle (.worker i) = .live

/-- Every worker that runs is in a slot of the pool. -/
def PoolLife.RunningInSlots (s : PoolLife) : Prop :=
  ∀ t < s.created, (s.threads t).runs = true → ∃ i < s.size, s.slots i = some t

instance (s : PoolLife) : Decidable s.Alive := inferInstanceAs (Decidable (_ ∧ _))

instance (s : PoolLife) : Decidable s.SlotsLive := inferInstanceAs (Decidable (∀ i < s.size, _))

instance (s : PoolLife) : Decidable s.RunningInSlots :=
  inferInstanceAs (Decidable (∀ t < s.created, _))

/-- The condition on a call: no worker runs at an `init`; `submit`, `cancel`, `wait` and `stop`
come between a successful `init` and the next `stop`; and at a `stop` each slot holds a worker,
and each worker that runs is in a slot. -/
def Proper (s : PoolLife) : LifeAct → Prop
  | .init _ _ _ => s.anyRuns = false
  | .submit _ | .cancel | .waitBegin _ => s.Alive
  | .stopBegin => s.Alive ∧ s.SlotsLive ∧ s.RunningInSlots
  | _ => True

instance (s : PoolLife) (a : LifeAct) : Decidable (Proper s a) := by
  cases a <;> simp only [Proper] <;> infer_instance

/-! ### The invariant -/

/-- The first slot that `osa_worker_pool_stop` has not joined. -/
def LifePc.stopSlot : LifePc → Option ℕ
  | .posting _ => some 0
  | .joining k => some k
  | .none | .starting _ | .waiting => Option.none

/-- How often the thread has been joined. -/
def ThreadState.joins : ThreadState → ℕ
  | .joined => 1
  | _ => 0

lemma ThreadState.joins_of_runs {p : ThreadState} (hp : p.runs = true) : p.joins = 0 := by
  cases p <;> first | rfl | cases hp

lemma ThreadState.joins_le_one (p : ThreadState) : p.joins ≤ 1 := by
  cases p <;> simp [ThreadState.joins]

/-- From slot `k` on, each slot holds a worker to join, and all that run are among them. -/
structure StopsAt (s : PoolLife) (k : ℕ) : Prop where
  held : ∀ i, k ≤ i → i < s.size → ∃ t, s.slots i = some t ∧ s.threads t ≠ .joined
  running : ∀ t, (s.threads t).runs = true → ∃ i, k ≤ i ∧ i < s.size ∧ s.slots i = some t

/-- **The invariant of the handles.**  Where a call is under way, the pool can be started, or
a worker runs, the lock and the semaphores are live. -/
structure LifeInv (s : PoolLife) : Prop where
  safe : ∀ e ∈ s.log, e.SafeEvent
  joins : ∀ t, s.log.count (.joined t) = (s.threads t).joins
  calls : s.call ≠ .none → s.Alive
  starts : s.workers = true → s.Alive
  runs : ∀ t, (s.threads t).runs = true → s.Alive
  fresh : ∀ t, s.created ≤ t → s.threads t = .absent
  bound : ∀ i t, s.slots i = some t → t < s.created
  distinct : ∀ i j t, s.slots i = some t → s.slots j = some t → i = j
  stops : ∀ k, s.call.stopSlot = some k → StopsAt s k

namespace LifeInv

variable {s : PoolLife}

lemma lt_created (h : LifeInv s) {t : ℕ} (ht : (s.threads t).runs = true) : t < s.created := by
  by_contra hle
  rw [h.fresh t (by omega)] at ht
  cases ht

/-- Using a live handle only adds to the log. -/
lemma use (h : LifeInv s) {r : Resource} (hr : s.handle r = .live) : LifeInv (s.use r) where
  safe := List.forall_mem_cons.mpr ⟨hr, h.safe⟩
  joins t := (List.count_cons_of_ne (by simp)).trans (h.joins t)
  calls := h.calls
  starts := h.starts
  runs := h.runs
  fresh := h.fresh
  bound := h.bound
  distinct := h.distinct
  stops k hk := ⟨(h.stops k hk).held, (h.stops k hk).running⟩

lemma critical (h : LifeInv s) (ha : s.Alive) : LifeInv s.critical :=
  (h.use (r := .lock) ha.1).use (r := .lock) ha.1

/-- The counters and the flags of the pool are not handles. -/
lemma setPool (h : LifeInv s) {p : Pool} (hp : p.numWorkers = s.pool.numWorkers) :
    LifeInv { s with pool := p } where
  safe := h.safe
  joins := h.joins
  calls := h.calls
  starts := h.starts
  runs := h.runs
  fresh := h.fresh
  bound := h.bound
  distinct := h.distinct
  stops k hk := by
    have hsize : PoolLife.size { s with pool := p } = s.size := congrArg UInt32.toNat hp
    obtain ⟨hheld, hrunning⟩ := h.stops k hk
    exact ⟨fun i => hsize ▸ hheld i, fun t => hsize ▸ hrunning t⟩

lemma setCall (h : LifeInv s) {c : LifePc} (ha : c ≠ .none → s.Alive)
    (hc : ∀ k, c.stopSlot = some k → StopsAt s k) : LifeInv { s with call := c } where
  safe := h.safe
  joins := h.joins
  calls := ha
  starts := h.starts
  runs := h.runs
  fresh := h.fresh
  bound := h.bound
  distinct := h.distinct
  stops k hk := ⟨(hc k hk).held, (hc k hk).running⟩

lemma returns (h : LifeInv s) : LifeInv { s with call := .none } :=
  h.setCall (fun hne => absurd rfl hne) fun _ hk => by cases hk

/-- A worker that runs, or has exited, moves on. -/
lemma moveThread (h : LifeInv s) {t : ℕ} {p : ThreadState} (ht : (s.threads t).runs = true)
    (hp : p.joins = 0) : LifeInv (s.moveThread t p) where
  safe := h.safe
  joins u := by
    refine (h.joins u).trans ?_
    by_cases hu : u = t
    · subst hu
      rw [PoolLife.moveThread_self, hp, ThreadState.joins_of_runs ht]
    · rw [PoolLife.moveThread_of_ne _ _ hu]
  calls := h.calls
  starts := h.starts
  runs _ _ := h.runs t ht
  fresh u hu := by
    have hne : u ≠ t := by
      have := h.lt_created ht
      have hle : s.created ≤ u := hu
      omega
    simpa [PoolLife.moveThread_of_ne _ _ hne] using h.fresh u hu
  bound := h.bound
  distinct := h.distinct
  stops k hk := by
    obtain ⟨hheld, hrunning⟩ := h.stops k hk
    refine ⟨fun i hki hi => ?_, fun u hu => ?_⟩
    · obtain ⟨u, hslot, hne⟩ := hheld i hki hi
      refine ⟨u, hslot, ?_⟩
      by_cases hut : u = t
      · rw [hut, PoolLife.moveThread_self]
        rintro rfl
        cases hp
      · simpa [PoolLife.moveThread_of_ne _ _ hut] using hne
    · by_cases hut : u = t
      · exact hrunning u (hut ▸ ht)
      · exact hrunning u (by simpa [PoolLife.moveThread_of_ne _ _ hut] using hu)

/-- A new worker is put in a slot. -/
lemma startWorker (h : LifeInv s) {i : ℕ} (hc : s.call = .starting i) :
    LifeInv { s with
      slots := Function.update s.slots i (some s.created)
      threads := Function.update s.threads s.created .idle
      created := s.created + 1
      call := .starting (i + 1) } := by
  have ha : s.Alive := h.calls (by rw [hc]; simp)
  have habsent : s.threads s.created = .absent := h.fresh s.created le_rfl
  refine ⟨h.safe, fun t => ?_, fun _ => ha, fun _ => ha, fun _ _ => ha, fun t ht => ?_,
    fun j t hj => ?_, fun j k t hj hk => ?_, fun k hk => by cases hk⟩
  · refine (h.joins t).trans ?_
    by_cases ht : t = s.created
    · simp [ht, habsent, ThreadState.joins]
    · simp [ht]
  · have hlt : s.created + 1 ≤ t := ht
    have hne : t ≠ s.created := by omega
    simpa [hne] using h.fresh t (by omega)
  · show t < s.created + 1
    by_cases hji : j = i
    · simp only [hji, Function.update_self, Option.some.injEq] at hj
      omega
    · simp only [Function.update_of_ne hji] at hj
      have := h.bound j t hj
      omega
  · -- the new worker is in no other slot
    by_cases hji : j = i <;> by_cases hki : k = i
    · rw [hji, hki]
    · simp only [hji, Function.update_self, Option.some.injEq] at hj
      simp only [Function.update_of_ne hki] at hk
      have := h.bound k t hk
      omega
    · simp only [hki, Function.update_self, Option.some.injEq] at hk
      simp only [Function.update_of_ne hji] at hj
      have := h.bound j t hj
      omega
    · simp only [Function.update_of_ne hji] at hj
      simp only [Function.update_of_ne hki] at hk
      exact h.distinct j k t hj hk

/-- The next slot is joined: its worker has exited, and the others are in later slots. -/
lemma stopJoin (h : LifeInv s) {k : ℕ} (hc : s.call = .joining k) (hk : k < s.size)
    (hexit : ∀ t ∈ s.slots k, s.threads t = .exited ∨ s.threads t = .joined) :
    LifeInv { joinSlot s k with call := .joining (k + 1) } := by
  have ha : s.Alive := h.calls (by rw [hc]; simp)
  obtain ⟨hheld, hrunning⟩ := h.stops k (by rw [hc]; rfl)
  obtain ⟨t, hslot, hne⟩ := hheld k le_rfl hk
  have hex : s.threads t = .exited := (hexit t hslot).resolve_right hne
  have hlive : s.handle (.worker k) = .live := by simp [PoolLife.handle, hslot, hne]
  have hjoin : joinSlot s k = { (s.use (.worker k)).moveThread t .joined with
      log := .joined t :: (s.use (.worker k)).log } := by
    simp only [joinSlot, hslot]
  have hu := h.use hlive
  rw [hjoin]
  refine ⟨List.forall_mem_cons.mpr ⟨trivial, hu.safe⟩, fun u => ?_, fun _ => ha, h.starts,
    fun _ _ => ha, fun u hle => ?_, h.bound, h.distinct, fun j hj => ?_⟩
  · have hcount := hu.joins u
    by_cases hut : u = t
    · subst hut
      rw [PoolLife.use_threads, hex] at hcount
      exact List.count_cons_self.trans (by rw [hcount, PoolLife.moveThread_self]; rfl)
    · have htu : LifeEvent.joined t ≠ .joined u := fun he => hut (LifeEvent.joined.inj he).symm
      refine (List.count_cons_of_ne htu).trans (hcount.trans ?_)
      rw [PoolLife.moveThread_of_ne _ _ hut]
  · have hne' : u ≠ t := by
      rintro rfl
      have := h.fresh u hle
      rw [hex] at this
      cases this
    simpa [PoolLife.moveThread_of_ne _ _ hne'] using h.fresh u hle
  · obtain rfl : k + 1 = j := Option.some.inj hj
    refine ⟨fun i hki hi => ?_, fun u hrun => ?_⟩
    · obtain ⟨u, hslot', hne'⟩ := hheld i (by omega) hi
      have hut : u ≠ t := by
        rintro rfl
        have := h.distinct i k u hslot' hslot
        omega
      exact ⟨u, hslot', by simpa [PoolLife.moveThread_of_ne _ _ hut] using hne'⟩
    · have hut : u ≠ t := by
        rintro rfl
        simp [ThreadState.runs] at hrun
      have hrun' : (s.threads u).runs = true := by
        simpa [PoolLife.moveThread_of_ne _ _ hut] using hrun
      obtain ⟨i, hki, hi, hslot'⟩ := hrunning u hrun'
      refine ⟨i, ?_, hi, hslot'⟩
      have hne' : i ≠ k := by
        rintro rfl
        exact hut (Option.some.inj (hslot'.symm.trans hslot))
      omega

/-- What a state without calls and workers needs. -/
lemma of_quiet (hsafe : ∀ e ∈ s.log, e.SafeEvent)
    (hjoins : ∀ t, s.log.count (.joined t) = (s.threads t).joins)
    (hfresh : ∀ t, s.created ≤ t → s.threads t = .absent)
    (hruns : ∀ t, (s.threads t).runs = false) (hslots : s.slots = fun _ => none)
    (hcall : s.call = .none) (halive : s.workers = true → s.Alive) : LifeInv s where
  safe := hsafe
  joins := hjoins
  calls hne := absurd hcall hne
  starts := halive
  runs t ht := by
    rw [hruns t] at ht
    cases ht
  fresh := hfresh
  bound i t hi := by
    rw [hslots] at hi
    cases hi
  distinct i j t hi _ := by
    rw [hslots] at hi
    cases hi
  stops k hk := by
    rw [hcall] at hk
    cases hk

/-- The paths of `osa_worker_pool_init` destroy what they created, and nothing else. -/
lemma init (h : LifeInv s) (hcall : s.call = .none) (hany : s.anyRuns = false)
    (numWorkers queueSize : UInt32) (out : InitOutcome) :
    LifeInv (initPool s numWorkers queueSize out) := by
  have hruns : ∀ t, (s.threads t).runs = false := by
    intro t
    by_contra hrun
    rw [PoolLife.anyRuns, decide_eq_false_iff_not] at hany
    exact hany ⟨t, h.lt_created (by simpa using hrun), by simpa using hrun⟩
  cases out with
  | ok => exact of_quiet h.safe h.joins h.fresh hruns rfl hcall fun _ => ⟨rfl, rfl, rfl⟩
  | noLock => exact of_quiet h.safe h.joins h.fresh hruns rfl hcall fun hw => by cases hw
  | noWorkSem =>
      refine of_quiet ?_ (fun t => (List.count_cons_of_ne (by simp)).trans (h.joins t)) h.fresh
        hruns rfl hcall fun hw => by cases hw
      exact List.forall_mem_cons.mpr ⟨rfl, h.safe⟩
  | noCompleteSem =>
      refine of_quiet ?_ (fun t => ?_) h.fresh hruns rfl hcall fun hw => by cases hw
      · exact List.forall_mem_cons.mpr ⟨rfl, List.forall_mem_cons.mpr ⟨rfl, h.safe⟩⟩
      · exact (List.count_cons_of_ne (by simp)).trans
          ((List.count_cons_of_ne (by simp)).trans (h.joins t))
  | noMemory =>
      refine of_quiet ?_ (fun t => ?_) h.fresh hruns rfl hcall fun hw => by cases hw
      · exact List.forall_mem_cons.mpr ⟨rfl, List.forall_mem_cons.mpr ⟨rfl,
          List.forall_mem_cons.mpr ⟨rfl, h.safe⟩⟩⟩
      · exact (List.count_cons_of_ne (by simp)).trans ((List.count_cons_of_ne (by simp)).trans
          ((List.count_cons_of_ne (by simp)).trans (h.joins t)))

/-- Once every slot is joined no worker runs, and the handles can be destroyed. -/
lemma stopEnd (h : LifeInv s) {k : ℕ} (hc : s.call = .joining k) (hk : s.size ≤ k) :
    LifeInv (destroyPool s) := by
  obtain ⟨hlock, hwork, hcomplete⟩ : s.Alive := h.calls (by rw [hc]; simp)
  have hruns : ∀ t, (s.threads t).runs = false := by
    intro t
    by_contra hrun
    obtain ⟨i, hki, hi, -⟩ := (h.stops k (by rw [hc]; rfl)).running t (by simpa using hrun)
    omega
  have hany : s.anyRuns = false := by
    rw [PoolLife.anyRuns, decide_eq_false_iff_not]
    rintro ⟨t, -, ht⟩
    rw [hruns t] at ht
    cases ht
  refine of_quiet ?_ (fun t => ?_) h.fresh hruns rfl rfl fun hw => by cases hw
  · refine List.forall_mem_cons.mpr ⟨hlock, List.forall_mem_cons.mpr ⟨hwork,
      List.forall_mem_cons.mpr ⟨hcomplete, List.forall_mem_cons.mpr ⟨hany, h.safe⟩⟩⟩⟩
  · exact (List.count_cons_of_ne (by simp)).trans ((List.count_cons_of_ne (by simp)).trans
      ((List.count_cons_of_ne (by simp)).trans
        ((List.count_cons_of_ne (by simp)).trans (h.joins t))))

/-- A post of `work_sem`. -/
lemma postWork (h : LifeInv s) (ha : s.Alive) : LifeInv (OpenHsm.postWork s) :=
  (h.use (r := .workSem) ha.2.1).setPool rfl

/-- `osa_worker_pool_stop` goes on to its next post, or to the joins. -/
lemma posting (h : LifeInv s) (ha : s.Alive) (hs : StopsAt s 0) (k : ℕ) :
    LifeInv { s with call := afterPosts s.size k } := by
  refine h.setCall (fun _ => ha) fun j hj => ?_
  rw [afterPosts] at hj
  split at hj <;> exact Option.some.inj hj ▸ hs

/-- **Each step keeps the invariant.** -/
lemma step {a : LifeAct} (h : LifeInv s) (ha : lifeEnabled s a) (hp : Proper s a) :
    LifeInv (lifeNext s a) := by
  cases a with
  | init numWorkers queueSize out => exact h.init ha hp numWorkers queueSize out
  | startBegin =>
      rw [lifeNext]
      split
      · next hw => exact h.setCall (fun _ => h.starts hw) fun _ hk => by cases hk
      · exact h
  | startWorker succeeds =>
      simp only [lifeEnabled] at ha
      split at ha
      · next i hc =>
          simp only [lifeNext, hc]
          cases succeeds with
          | true => exact h.startWorker hc
          | false => exact h.returns
      · exact ha.elim
  | startEnd => exact h.returns
  | submit accepted =>
      have halive : s.Alive := hp
      cases accepted with
      | true => exact ((h.use (r := .lock) halive.1).postWork halive).use (r := .lock) halive.1
      | false => exact h.critical halive
  | cancel => exact h.critical hp
  | waitBegin timeoutMs =>
      have halive : s.Alive := hp
      have hcrit := h.critical halive
      rw [lifeNext]
      split
      · exact hcrit
      · exact (hcrit.use (r := .completeSem) halive.2.2).setCall (fun _ => halive)
          fun _ hk => by cases hk
  | waitTake =>
      have halive : s.Alive := h.calls (by rw [ha.1]; simp)
      exact ((h.critical halive).setPool
        (p := { s.pool with completeSem := osaSemTake s.pool.completeSem }) rfl).returns
  | waitExpire =>
      have halive : s.Alive := h.calls (by rw [show s.call = .waiting from ha]; simp)
      exact (h.critical halive).returns
  | stopBegin =>
      obtain ⟨halive, hslots, hrunning⟩ := hp
      have hstop : StopsAt s 0 := by
        refine ⟨fun i _ hi => ?_, fun t ht => ?_⟩
        · have hlive := hslots i hi
          rw [PoolLife.handle] at hlive
          split at hlive
          · cases hlive
          · next t hslot => exact ⟨t, hslot, fun hj => by rw [if_pos hj] at hlive; cases hlive⟩
        · obtain ⟨i, hi, hslot⟩ := hrunning t (h.lt_created ht) ht
          exact ⟨i, Nat.zero_le i, hi, hslot⟩
      exact ((h.critical halive).setPool (p := { s.pool with shutdown := true }) rfl).posting
        halive ⟨hstop.held, hstop.running⟩ 0
  | stopPost =>
      simp only [lifeEnabled] at ha
      split at ha
      · next k hc =>
          have halive : s.Alive := h.calls (by rw [hc]; simp)
          have hstop : StopsAt s 0 := h.stops 0 (by rw [hc]; rfl)
          simp only [lifeNext, hc]
          exact (h.postWork halive).posting halive ⟨hstop.held, hstop.running⟩ (k + 1)
      · exact ha.elim
  | stopJoin =>
      simp only [lifeEnabled] at ha
      split at ha
      · next k hc =>
          simp only [lifeNext, hc]
          exact h.stopJoin hc ha.1 ha.2
      · exact ha.elim
  | stopEnd =>
      simp only [lifeEnabled] at ha
      split at ha
      · next k hc => exact h.stopEnd hc ha
      · exact ha.elim
  | workerWait t =>
      have ht : (s.threads t).runs = true := by rw [show s.threads t = .idle from ha]; rfl
      exact (h.use (r := .workSem) (h.runs t ht).2.1).moveThread ht rfl
  | workerWake t =>
      have ht : (s.threads t).runs = true := by rw [ha.1]; rfl
      exact (h.moveThread ht rfl).setPool rfl
  | workerSection t job =>
      have ht : (s.threads t).runs = true := by rw [show s.threads t = .woken from ha]; rfl
      refine (h.critical (h.runs t ht)).moveThread ht ?_
      split_ifs <;> rfl
  | workerFinish t =>
      have ht : (s.threads t).runs = true := by rw [show s.threads t = .busy from ha]; rfl
      have halive := h.runs t ht
      have hpost := ((h.use (r := .lock) halive.1).use (r := .completeSem) halive.2.2).setPool
        (p := { s.pool with completeSem := osaSemPost s.pool.completeSem }) rfl
      exact (hpost.use (r := .lock) halive.1).moveThread ht rfl

lemma noPool : LifeInv OpenHsm.noPool :=
  of_quiet (by intro e he; cases he) (fun _ => rfl) (fun _ _ => rfl) (fun _ => rfl) rfl rfl
    fun hw => by cases hw

/-- **Every state of a proper run satisfies the invariant.** -/
lemma of_reachable (hs : (lifeSystem.restrict Proper).Reachable s) : LifeInv s :=
  hs.invariant (fun _ h0 => (show _ = OpenHsm.noPool from h0) ▸ noPool)
    fun _ _ hi ha => hi.step ha.1 ha.2

end LifeInv

/-! ### Runs -/

/-- **Pool handles are used only while they are live**, in every run whose calls are proper,
whatever fails in them and whatever the workers do. -/
theorem handles_live {s : PoolLife} (hs : (lifeSystem.restrict Proper).Reachable s) : Safe s :=
  have h := LifeInv.of_reachable hs
  ⟨h.safe, fun t => (h.joins t).trans_le (ThreadState.joins_le_one _)⟩

/-- A pool with one worker is started, runs one job and is stopped. -/
theorem started_pool_stops_safely :
    ∃ s, (lifeSystem.restrict Proper).Reachable s ∧
      (s.log.count (.joined 0) = 1 ∧ s.lock = .destroyed) ∧ Safe s := by
  obtain ⟨s, hs, hlog⟩ : ∃ s, (lifeSystem.restrict Proper).Reachable s ∧
      (s.log.count (.joined 0) = 1 ∧ s.lock = .destroyed) :=
    System.reachable_of_replay rfl [.init 1 4 .ok, .startBegin, .startWorker true, .startEnd,
      .submit true, .workerWait 0, .workerWake 0, .workerSection 0 true, .workerFinish 0,
      .waitBegin (-1), .waitTake, .stopBegin, .workerWait 0, .stopPost, .workerWake 0,
      .workerSection 0 false, .stopJoin, .stopEnd] (by decide +kernel)
  exact ⟨s, hs, hlog, handles_live hs⟩

/-- **Two life cycles that are not safe.**  A pool that is initialised and stopped without a
start joins a slot that `malloc` left undefined; and a pool that is started twice destroys its
lock and its semaphores while the first worker runs. -/
theorem unsafe_life_cycles :
    (∃ s, lifeSystem.Reachable s ∧ .used (.worker 0) .undefined ∈ s.log ∧ ¬ Safe s) ∧
    ∃ s, lifeSystem.Reachable s ∧ .destroyed true ∈ s.log ∧ ¬ Safe s := by
  constructor
  · obtain ⟨s, hs, hlog⟩ : ∃ s, lifeSystem.Reachable s ∧
        .used (.worker 0) .undefined ∈ s.log :=
      System.reachable_of_replay rfl [.init 2 8 .ok, .stopBegin, .stopPost, .stopPost, .stopJoin]
        (by decide)
    exact ⟨s, hs, hlog, fun h => absurd (h.events _ hlog) (by simp [LifeEvent.SafeEvent])⟩
  · obtain ⟨s, hs, hlog⟩ : ∃ s, lifeSystem.Reachable s ∧ .destroyed true ∈ s.log :=
      System.reachable_of_replay rfl [.init 1 4 .ok, .startBegin, .startWorker true, .startEnd,
        .startBegin, .startWorker true, .startEnd, .stopBegin, .stopPost, .workerWait 1,
        .workerWake 1, .workerSection 1 false, .stopJoin, .stopEnd] (by decide +kernel)
    exact ⟨s, hs, hlog, fun h => absurd (h.events _ hlog) (by simp [LifeEvent.SafeEvent])⟩

end OpenHsm
