import OpenHsm.Hsm.Dispatcher
import OpenHsm.Library.LockOrder

/-!
The locks of any number of worker pools and queues of state machines, and the threads that take
them: `core/osa_worker.c`, `core/osa_hsm.c` and `platform/linux/osa_queue.c` at the level of
`osa_mutex_lock` and `pthread_mutex_lock`.

* `PoolSection`, `PoolPc`: the critical sections of `pool->lock`.  Handlers and job functions
  run outside of them; `complete_cb` and the post to `target_hsm` run inside.
* `QueueOp`, `QueuePc`, `queueSegment`: a call of the queue, between its lock, its condition
  waits and its unlock, with the segments of `Queue`.
* `LockSys`, `LockAct`, `lockEnabled`, `lockNext`, `lockSystem`: the threads.  What the code
  between the locks does is left open, and a wait may end at any time.
* `NoDeadlock`, `LockInv`, `no_lock_cycle`: no cycle of threads, no `pool->lock` asked for under
  a queue mutex, and a wait for queue space under `pool->lock` only in a post of `complete_cb`.
  `callback_waits_under_lock` is the run with such a post.
-/

namespace OpenHsm

open LockOrder Runs

/-! ### The pools -/

/-- How far a worker is in the section that follows a job. -/
inductive CompleteStage where
  /-- `complete_cb` runs. -/
  | callback
  /-- Before the post to `target_hsm`. -/
  | notify
  /-- After it. -/
  | finish
  deriving DecidableEq, Repr

/-- The sections between `osa_mutex_lock(pool->lock)` and its unlock. -/
inductive PoolSection where
  /-- Of `osa_worker_pool_submit`, which `osa_worker_pool_submit_to_hsm` calls. -/
  | submit
  | cancel
  | getStats
  /-- Of `osa_worker_pool_wait`. -/
  | wait
  /-- The two of `osa_worker_pool_thread`. -/
  | takeJob
  | complete (st : CompleteStage)
  deriving DecidableEq, Repr

namespace PoolSection

/-- The section begins there. -/
def begins : PoolSection → Bool
  | .complete .notify | .complete .finish => false
  | .submit | .cancel | .getStats | .wait | .takeJob | .complete .callback => true

/-- The section ends there. -/
def ends : PoolSection → Bool
  | .complete .callback | .complete .notify => false
  | .submit | .cancel | .getStats | .wait | .takeJob | .complete .finish => true

/-- Only the workers of the pool have the section. -/
def ofWorker : PoolSection → Bool
  | .takeJob | .complete _ => true
  | .submit | .cancel | .getStats | .wait => false

end PoolSection

/-- Where a thread is. -/
inductive PoolPc (P : Type*) where
  /-- In no section: here handlers, job functions and the code of other threads run. -/
  | outside
  /-- At `osa_mutex_lock(pool->lock)`. -/
  | asking (p : P) (f : PoolSection)
  | inside (p : P) (f : PoolSection)
  deriving DecidableEq, Repr

namespace PoolPc

variable {P : Type*}

/-- The lock that the thread asks for. -/
def asks : PoolPc P → Option P
  | .asking p _ => some p
  | .outside | .inside _ _ => none

/-- The lock that the thread has taken and not given back. -/
def holds : PoolPc P → Option P
  | .inside p _ => some p
  | .outside | .asking _ _ => none

/-- The next stage of a completion. -/
def onward : PoolPc P → Option (PoolPc P)
  | .inside p (.complete .callback) => some (.inside p (.complete .notify))
  | .inside p (.complete .notify) => some (.inside p (.complete .finish))
  | _ => none

/-- The thread comes to the unlock. -/
def atEnd : PoolPc P → Bool
  | .inside _ f => f.ends
  | .outside | .asking _ _ => false

/-- Code that may post runs there: code of the user, or the post to `target_hsm`, which does
not wait. -/
def mayPost (timeoutMs : ℤ) : PoolPc P → Bool
  | .outside | .inside _ (.complete .callback) => true
  | .inside _ (.complete .notify) => timeoutMs = 0
  | _ => false

/-- The post to `target_hsm` is made once. -/
def posted : PoolPc P → PoolPc P
  | .inside p (.complete .notify) => .inside p (.complete .finish)
  | x => x

lemma posted_holds (x : PoolPc P) : x.posted.holds = x.holds := by
  unfold posted
  split <;> rfl

end PoolPc

/-! ### The queues -/

/-- A call of the queue: of a post, or of the loop of a dispatcher. -/
inductive QueueOp where
  | send (r : RawEvent) (timeoutMs : ℤ)
  | receive
  deriving DecidableEq

/-- The timeout of the call. -/
def QueueOp.timeoutMs : QueueOp → ℤ
  | .send _ t => t
  | .receive => -1

/-- What a thread does with the mutex of the queue. -/
inductive Look where
  | first
  /-- Its condition wait has ended. -/
  | again
  /-- Its condition wait has ended with `ETIMEDOUT`. -/
  | expired
  deriving DecidableEq, Repr

/-- Where a thread is in a call of a queue. -/
inductive QueuePc (H : Type*) where
  | idle
  /-- At `pthread_mutex_lock`, or at the end of a condition wait. -/
  | asking (h : H) (c : QueueOp) (k : Look)
  | inside (h : H) (c : QueueOp) (k : Look)
  /-- In a condition wait, which has released the mutex. -/
  | waiting (h : H) (c : QueueOp)
  deriving DecidableEq

namespace QueuePc

variable {H : Type*}

/-- The mutex that the thread asks for. -/
def asks : QueuePc H → Option H
  | .asking h _ _ => some h
  | .idle | .inside _ _ _ | .waiting _ _ => none

/-- The mutex that the thread has taken and not given back. -/
def holds : QueuePc H → Option H
  | .inside h _ _ => some h
  | .idle | .asking _ _ _ | .waiting _ _ => none

/-- The call the thread is in, and whether it has not waited yet. -/
def tries : QueuePc H → Option (QueueOp × Bool)
  | .idle => none
  | .asking _ c k | .inside _ c k => some (c, k = .first)
  | .waiting _ c => some (c, false)

/-- The wait may end, with `ETIMEDOUT` if it is timed. -/
def mayWake (expired : Bool) : QueuePc H → Bool
  | .waiting _ c => !expired || decide (0 < c.timeoutMs)
  | .idle | .asking _ _ _ | .inside _ _ _ => false

end QueuePc

/-- The code of a call while it holds the mutex; `none` is the condition wait. -/
def queueSegment (q : OsaQueue) : QueueOp → Look → Option OsaQueue
  | .send r t, .first => (sendEnter q (some r.bytes) sizeofHsmEvent t).map Prod.snd
  | .send r _, .again => (sendResume q r.bytes).map Prod.snd
  | .receive, .first => (receiveEnter q true sizeofHsmEvent (-1)).map fun x => x.2.2
  | .receive, .again => (receiveResume q).map fun x => x.2.2
  | .send _ _, .expired | .receive, .expired => some q

/-- A call that has not waited yet waits only if it has a timeout. -/
lemma timeoutMs_ne_zero_of_first {q : OsaQueue} {c : QueueOp}
    (h : queueSegment q c .first = none) : c.timeoutMs ≠ 0 := by
  cases c with
  | receive => decide
  | send r t =>
      rintro rfl
      rw [queueSegment, Option.map_eq_none_iff, sendEnter] at h
      split_ifs at h with _ _ _ hzero
      exact hzero rfl

/-! ### The threads -/

/-- What a thread was created for. -/
inductive Role (P H : Type*) where
  | worker (p : P)
  | dispatcher (h : H)
  | other
  deriving DecidableEq, Repr

variable {T P H : Type*}

/-- The threads `T`, the pools `P` and the machines `H`, with their queues. -/
structure LockSys (T P H : Type*) where
  pool : T → PoolPc P
  call : T → QueuePc H
  /-- The owner of each `pool->lock`, and of each queue mutex. -/
  lock : P → Option T
  mutex : H → Option T
  queue : H → OsaQueue

/-- One step of one thread. -/
inductive LockAct (T P H : Type*) where
  /-- It comes to a section of a pool. -/
  | call (t : T) (p : P) (f : PoolSection)
  | lock (t : T)
  /-- It comes to the next stage of a completion. -/
  | onward (t : T)
  | unlock (t : T)
  /-- It calls `osa_hsm_active_event_post`. -/
  | post (t : T) (h : H) (r : RawEvent) (timeout : UInt32)
  /-- It calls `osa_queue_receive`. -/
  | receive (t : T) (h : H)
  | lockQueue (t : T)
  /-- It runs to the unlock of the mutex, or to a condition wait. -/
  | segment (t : T)
  | wake (t : T) (expired : Bool)
  deriving DecidableEq

section System

variable [DecidableEq T] [DecidableEq P] [DecidableEq H] (role : T → Role P H)

/-- When a step can be taken. -/
def lockEnabled (s : LockSys T P H) : LockAct T P H → Prop
  | .call t p f => s.pool t = .outside ∧ s.call t = .idle ∧ f.begins ∧
      (f.ofWorker → role t = .worker p)
  | .lock t => ∃ p ∈ (s.pool t).asks, s.lock p = none
  | .onward t => (s.pool t).onward.isSome ∧ s.call t = .idle
  | .unlock t => (s.pool t).atEnd ∧ s.call t = .idle
  | .post t _ _ timeout => (s.pool t).mayPost timeout.toInt32.toInt ∧ s.call t = .idle
  | .receive t h => s.pool t = .outside ∧ s.call t = .idle ∧ role t = .dispatcher h
  | .lockQueue t => ∃ h ∈ (s.call t).asks, s.mutex h = none
  | .segment t => (s.call t).holds.isSome
  | .wake t expired => (s.call t).mayWake expired

instance (s : LockSys T P H) (a : LockAct T P H) : Decidable (lockEnabled role s a) := by
  cases a <;> simp only [lockEnabled] <;> infer_instance

/-- The effect of a step. -/
def lockNext (s : LockSys T P H) : LockAct T P H → LockSys T P H
  | .call t p f => { s with pool := Function.update s.pool t (.asking p f) }
  | .lock t => match s.pool t with
      | .asking p f =>
          { s with
            pool := Function.update s.pool t (.inside p f)
            lock := Function.update s.lock p (some t) }
      | _ => s
  | .onward t => match (s.pool t).onward with
      | some x => { s with pool := Function.update s.pool t x }
      | none => s
  | .unlock t => match s.pool t with
      | .inside p _ =>
          { s with
            pool := Function.update s.pool t .outside
            lock := Function.update s.lock p none }
      | _ => s
  | .post t h r timeout =>
      { s with
        pool := Function.update s.pool t (s.pool t).posted
        call := Function.update s.call t (.asking h (.send r timeout.toInt32.toInt) .first) }
  | .receive t h => { s with call := Function.update s.call t (.asking h .receive .first) }
  | .lockQueue t => match s.call t with
      | .asking h c k =>
          { s with
            call := Function.update s.call t (.inside h c k)
            mutex := Function.update s.mutex h (some t) }
      | _ => s
  | .segment t => match s.call t with
      | .inside h c k =>
          match queueSegment (s.queue h) c k with
          | some q =>
              { s with
                call := Function.update s.call t .idle
                mutex := Function.update s.mutex h none
                queue := Function.update s.queue h q }
          | none =>
              { s with
                call := Function.update s.call t (.waiting h c)
                mutex := Function.update s.mutex h none }
      | _ => s
  | .wake t expired => match s.call t with
      | .waiting h c =>
          { s with
            call := Function.update s.call t (.asking h c (if expired then .expired else .again)) }
      | _ => s

/-- All threads are outside of all sections, and all queues are new. -/
def LockInitial (s : LockSys T P H) : Prop :=
  s.pool = (fun _ => .outside) ∧ s.call = (fun _ => .idle) ∧ s.lock = (fun _ => none) ∧
    s.mutex = (fun _ => none) ∧ ∀ h, ∃ name maxMsgs,
      osaQueueCreate (some name) sizeofHsmEvent maxMsgs true true = .ok (s.queue h)

/-- The threads with their roles. -/
def lockSystem : System (LockSys T P H) (LockAct T P H) where
  init := LockInitial
  enabled := lockEnabled role
  next := lockNext

instance (s : LockSys T P H) (a : LockAct T P H) : Decidable ((lockSystem role).enabled s a) :=
  inferInstanceAs (Decidable (lockEnabled role s a))

end System

/-! ### What is safe -/

/-- A lock of a pool, or of the queue of a machine. -/
inductive Lock (P H : Type*) where
  | pool (p : P)
  | queue (h : H)
  deriving DecidableEq, Repr

/-- A `pool->lock` ranks below the queue mutexes. -/
def Lock.rank : Lock P H → ℕ
  | .pool _ => 0
  | .queue _ => 1

namespace LockSys

/-- The lock that a thread asks for. -/
def wants (s : LockSys T P H) (t : T) : Option (Lock P H) :=
  match (s.pool t).asks with
  | some p => some (.pool p)
  | none => (s.call t).asks.map .queue

/-- The thread that has taken a lock and not given it back. -/
def owner (s : LockSys T P H) : Lock P H → Option T
  | .pool p => s.lock p
  | .queue h => s.mutex h

end LockSys

/-- No threads wait for each other in a circle, none asks for a `pool->lock` under a queue
mutex, and one that holds a `pool->lock` waits for queue space only in a post that `complete_cb`
makes with a timeout. -/
structure NoDeadlock (s : LockSys T P H) : Prop where
  noCycle : ∀ t, ¬ Relation.TransGen (WaitsFor s.wants s.owner) t t
  poolFirst : ∀ t p h, s.wants t = some (.pool p) → s.owner (.queue h) ≠ some t
  noWait : ∀ t p h r timeoutMs, s.owner (.pool p) = some t →
    s.call t = .waiting h (.send r timeoutMs) →
      s.pool t = .inside p (.complete .callback) ∧ timeoutMs ≠ 0

/-! ### The invariant -/

/-- What a thread is in at the same time: it asks for a `pool->lock` in no call of a queue, and
under one it calls a queue only in a post of `complete_cb`, or in one that does not wait. -/
structure ThreadOk (x : PoolPc P) (y : QueuePc H) : Prop where
  asking : x.asks ≠ none → y = .idle
  inside : ∀ p f c b, x = .inside p f → y.tries = some (c, b) →
    f = .complete .callback ∨ c.timeoutMs = 0
  waited : ∀ c, y.tries = some (c, false) → c.timeoutMs ≠ 0

/-- The owners are the threads inside, and every thread is where it may be. -/
structure LockInv (s : LockSys T P H) : Prop where
  pools : Owned s.lock fun t => (s.pool t).holds
  queues : Owned s.mutex fun t => (s.call t).holds
  threads : ∀ t, ThreadOk (s.pool t) (s.call t)

namespace LockInv

variable {s : LockSys T P H}

/-- The three clauses follow from the invariant. -/
lemma noDeadlock (h : LockInv s) : NoDeadlock s := by
  have hmutex : ∀ t p, s.wants t = some (.pool p) → ∀ m, s.mutex m ≠ some t := by
    intro t p hwant m hm
    have hasks : (s.pool t).asks ≠ none := by
      intro hnone
      rw [LockSys.wants, hnone] at hwant
      cases hc : (s.call t).asks <;> simp [hc] at hwant
    have hidle := (h.threads t).asking hasks
    have hholds : (s.call t).holds = some m := (h.queues m t).mp hm
    rw [hidle] at hholds
    cases hholds
  have hpool : ∀ t m, s.wants t = some (.queue m) → ∀ k, s.mutex k ≠ some t := by
    intro t m hwant k hk
    have hcall : (s.call t).asks = some m := by
      rw [LockSys.wants] at hwant
      split at hwant
      · cases hwant
      · simpa using hwant
    have hholds : (s.call t).holds = some k := (h.queues k t).mp hk
    cases hc : s.call t with
    | asking m' c k' =>
        rw [hc] at hholds
        cases hholds
    | idle | inside m' c k' | waiting m' c =>
        rw [hc] at hcall
        cases hcall
  have hinside : ∀ t p, s.lock p = some t → ∃ f, s.pool t = .inside p f := by
    intro t p hp
    have hholds : (s.pool t).holds = some p := (h.pools p t).mp hp
    cases hx : s.pool t with
    | inside p' f =>
        rw [hx] at hholds
        exact ⟨f, by rw [← Option.some.inj hholds]⟩
    | outside | asking p' f =>
        rw [hx] at hholds
        cases hholds
  have hordered : Ordered Lock.rank s.wants s.owner := by
    intro t l m hl hm
    cases m with
    | queue k =>
        cases l with
        | pool p => exact absurd hm (hmutex t p hl k)
        | queue n => exact absurd hm (hpool t n hl k)
    | pool p =>
        cases l with
        | queue n => exact Nat.zero_lt_one
        | pool p' =>
            -- a thread that asks for one `pool->lock` is inside no section of another
            obtain ⟨f, hf⟩ := hinside t p hm
            rw [LockSys.wants, hf] at hl
            cases hc : (s.call t).asks <;> simp [PoolPc.asks, hc] at hl
  refine ⟨hordered.acyclic, fun t p m hwant => hmutex t p hwant m,
    fun t p m r timeoutMs hp hwait => ?_⟩
  obtain ⟨f, hf⟩ := hinside t p hp
  have htries : (s.call t).tries = some (.send r timeoutMs, false) := by rw [hwait]; rfl
  have hne : timeoutMs ≠ 0 := (h.threads t).waited _ htries
  obtain rfl := ((h.threads t).inside p f _ _ hf htries).resolve_right hne
  exact ⟨hf, hne⟩

variable [DecidableEq T]

/-- One thread goes elsewhere in its section, or in its call. -/
lemma threads_pool {a : T → PoolPc P} {b : T → QueuePc H} (h : ∀ u, ThreadOk (a u) (b u)) {t : T}
    {x : PoolPc P} (hx : ThreadOk x (b t)) : ∀ u, ThreadOk (Function.update a t x u) (b u) := by
  intro u
  by_cases hu : u = t
  · rw [hu, Function.update_self]
    exact hx
  · rw [Function.update_of_ne hu]
    exact h u

lemma threads_call {a : T → PoolPc P} {b : T → QueuePc H} (h : ∀ u, ThreadOk (a u) (b u)) {t : T}
    {y : QueuePc H} (hy : ThreadOk (a t) y) : ∀ u, ThreadOk (a u) (Function.update b t y u) := by
  intro u
  by_cases hu : u = t
  · rw [hu, Function.update_self]
    exact hy
  · rw [Function.update_of_ne hu]
    exact h u

/-- Outside of all calls a thread may be anywhere. -/
lemma ok_idle (x : PoolPc P) : ThreadOk x (.idle : QueuePc H) :=
  ⟨fun _ => rfl, fun _ _ _ _ _ hb => (by cases hb), fun _ hb => (by cases hb)⟩

/-- A thread in a call goes on in it, and has waited only in a call with a timeout. -/
lemma ok_tries {x : PoolPc P} {y y' : QueuePc H} (h : ThreadOk x y) {c : QueueOp} {b b' : Bool}
    (hy : y.tries = some (c, b)) (hy' : y'.tries = some (c, b'))
    (hb : b' = false → c.timeoutMs ≠ 0) : ThreadOk x y' where
  asking hx := by
    rw [h.asking hx] at hy
    cases hy
  inside p f d e hx he := by
    obtain ⟨rfl, -⟩ := Prod.mk.inj (Option.some.inj (hy'.symm.trans he))
    exact h.inside p f c b hx hy
  waited d hd := by
    obtain ⟨rfl, hfalse⟩ := Prod.mk.inj (Option.some.inj (hy'.symm.trans hd))
    exact hb hfalse

/-- A post begins where code that may post runs. -/
lemma ok_post {x : PoolPc P} {h : H} {r : RawEvent} {timeoutMs : ℤ}
    (hx : x.mayPost timeoutMs = true) :
    ThreadOk x.posted (.asking h (.send r timeoutMs) .first) := by
  have hwaited : ∀ c, (QueuePc.asking h (.send r timeoutMs) .first).tries = some (c, false) →
      c.timeoutMs ≠ 0 := fun c hc => by simp [QueuePc.tries] at hc
  cases x with
  | outside => exact ⟨fun hne => absurd rfl hne, fun _ _ _ _ he => (by cases he), hwaited⟩
  | asking p f => cases hx
  | inside p f =>
      have htries : ∀ c b, (QueuePc.asking h (.send r timeoutMs) .first).tries = some (c, b) →
          c.timeoutMs = timeoutMs := fun c b hc => by
        obtain ⟨rfl, -⟩ := Prod.mk.inj (Option.some.inj hc)
        rfl
      cases f with
      | submit | cancel | getStats | wait | takeJob => cases hx
      | complete st =>
          cases st with
          | callback =>
              refine ⟨fun hne => absurd rfl hne, fun p' f c b he _ => ?_, hwaited⟩
              obtain ⟨-, rfl⟩ := PoolPc.inside.inj he
              exact .inl rfl
          | notify =>
              have hzero : timeoutMs = 0 := of_decide_eq_true hx
              exact ⟨fun hne => absurd rfl hne,
                fun _ _ c b _ hc => .inr ((htries c b hc).trans hzero), hwaited⟩
          | finish => cases hx

/-- **Each step keeps the invariant.** -/
lemma step [DecidableEq P] [DecidableEq H] {role : T → Role P H} {a : LockAct T P H}
    (h : LockInv s) (ha : lockEnabled role s a) : LockInv (lockNext s a) := by
  cases a with
  | call t p f =>
      obtain ⟨hpool, hcall, -, -⟩ := ha
      refine ⟨h.pools.keep_at (by rw [hpool]; rfl), h.queues, threads_pool h.threads ?_⟩
      rw [hcall]
      exact ok_idle _
  | lock t =>
      obtain ⟨p, hp, hfree⟩ := ha
      cases hpool : s.pool t with
      | outside | inside p' f =>
          rw [hpool] at hp
          cases hp
      | asking p' f =>
          rw [hpool] at hp
          obtain rfl : p' = p := Option.some.inj hp
          have hidle := (h.threads t).asking (by rw [hpool]; exact Option.some_ne_none _)
          simp only [lockNext, hpool]
          refine ⟨h.pools.acquire_at hfree (by rw [hpool]; rfl) rfl, h.queues,
            threads_pool h.threads ?_⟩
          rw [hidle]
          exact ok_idle _
  | onward t =>
      obtain ⟨hsome, hcall⟩ := ha
      obtain ⟨x, hx⟩ := Option.isSome_iff_exists.mp hsome
      have hholds : x.holds = (s.pool t).holds := by
        cases hpool : s.pool t with
        | outside | asking p f =>
            rw [hpool] at hx
            cases hx
        | inside p f =>
            rw [hpool] at hx
            cases f with
            | submit | cancel | getStats | wait | takeJob => cases hx
            | complete st => cases st <;> cases hx <;> rfl
      simp only [lockNext, hx]
      refine ⟨h.pools.keep_at hholds, h.queues, threads_pool h.threads ?_⟩
      rw [hcall]
      exact ok_idle _
  | unlock t =>
      obtain ⟨hend, hcall⟩ := ha
      cases hpool : s.pool t with
      | outside | asking p f =>
          rw [hpool] at hend
          cases hend
      | inside p f =>
          simp only [lockNext, hpool]
          refine ⟨h.pools.release_at (by rw [hpool]; rfl) rfl, h.queues,
            threads_pool h.threads ?_⟩
          rw [hcall]
          exact ok_idle _
  | post t m r timeout =>
      obtain ⟨hmay, hcall⟩ := ha
      refine ⟨h.pools.keep_at (s.pool t).posted_holds, h.queues.keep_at (by rw [hcall]; rfl), ?_⟩
      have hpool := threads_pool (t := t) (x := (s.pool t).posted) h.threads
        (by rw [hcall]; exact ok_idle _)
      refine threads_call hpool ?_
      rw [Function.update_self]
      exact ok_post hmay
  | receive t m =>
      obtain ⟨hpool, hcall, -⟩ := ha
      refine ⟨h.pools, h.queues.keep_at (by rw [hcall]; rfl), threads_call h.threads ?_⟩
      rw [hpool]
      exact ⟨fun hne => absurd rfl hne, fun _ _ _ _ he => (by cases he),
        fun c hc => by simp [QueuePc.tries] at hc⟩
  | lockQueue t =>
      obtain ⟨m, hm, hfree⟩ := ha
      cases hcall : s.call t with
      | idle | inside m' c k | waiting m' c =>
          rw [hcall] at hm
          cases hm
      | asking m' c k =>
          rw [hcall] at hm
          obtain rfl : m' = m := Option.some.inj hm
          have htries : (s.call t).tries = some (c, decide (k = .first)) := by rw [hcall]; rfl
          simp only [lockNext, hcall]
          refine ⟨h.pools, h.queues.acquire_at hfree (by rw [hcall]; rfl) rfl,
            threads_call h.threads (ok_tries (h.threads t) htries rfl fun hfalse => ?_)⟩
          exact (h.threads t).waited c (htries.trans (by rw [hfalse]))
  | segment t =>
      cases hcall : s.call t with
      | idle | asking m c k | waiting m c =>
          simp [lockEnabled, hcall, QueuePc.holds] at ha
      | inside m c k =>
          have hholds : (s.call t).holds = some m := by rw [hcall]; rfl
          have htries : (s.call t).tries = some (c, decide (k = .first)) := by rw [hcall]; rfl
          cases hseg : queueSegment (s.queue m) c k with
          | some q =>
              simp only [lockNext, hcall, hseg]
              exact ⟨h.pools, h.queues.release_at hholds rfl, threads_call h.threads (ok_idle _)⟩
          | none =>
              simp only [lockNext, hcall, hseg]
              refine ⟨h.pools, h.queues.release_at hholds rfl,
                threads_call h.threads (ok_tries (h.threads t) htries rfl fun _ => ?_)⟩
              by_cases hk : k = .first
              · exact timeoutMs_ne_zero_of_first (hk ▸ hseg)
              · exact (h.threads t).waited c (htries.trans (by simp [hk]))
  | wake t expired =>
      cases hcall : s.call t with
      | idle | asking m c k | inside m c k =>
          simp [lockEnabled, hcall, QueuePc.mayWake] at ha
      | waiting m c =>
          have htries : (s.call t).tries = some (c, false) := by rw [hcall]; rfl
          simp only [lockNext, hcall]
          exact ⟨h.pools, h.queues.keep_at (by rw [hcall]; rfl),
            threads_call h.threads (ok_tries (h.threads t) htries rfl fun _ =>
              (h.threads t).waited c htries)⟩

omit [DecidableEq T] in
lemma initial (hs : LockInitial s) : LockInv s := by
  obtain ⟨hpool, hcall, hlock, hmutex, -⟩ := hs
  refine ⟨fun l t => ?_, fun l t => ?_, fun t => ?_⟩
  · simp [hlock, hpool, PoolPc.holds]
  · simp [hmutex, hcall, QueuePc.holds]
  · rw [hcall]
    exact ok_idle _

end LockInv

/-! ### Runs -/

/-- **The locks of pools and machines do not deadlock**, for any number of them, of threads and
of calls: in every reachable state no threads wait for each other in a circle, none asks for a
`pool->lock` under a queue mutex, and one that holds a `pool->lock` waits for queue space only
in a post that `complete_cb` makes with a timeout. -/
theorem no_lock_cycle [DecidableEq T] [DecidableEq P] [DecidableEq H] {role : T → Role P H}
    {s : LockSys T P H} (hs : (lockSystem role).Reachable s) : NoDeadlock s := by
  have hinv : LockInv s :=
    hs.invariant (P := LockInv) (fun _ h0 => LockInv.initial h0) fun _ _ h ha => h.step ha
  exact hinv.noDeadlock

/-- New queues for `maxMsgs` events, and no thread in any call. -/
def lockStart (T P H : Type*) (maxMsgs : ℤ) : LockSys T P H where
  pool := fun _ => .outside
  call := fun _ => .idle
  lock := fun _ => none
  mutex := fun _ => none
  queue := fun _ => newQueue [] sizeofHsmEvent maxMsgs

lemma lockStart_initial {maxMsgs : ℤ} (hmax : 0 < maxMsgs) :
    LockInitial (lockStart T P H maxMsgs) := by
  refine ⟨rfl, rfl, rfl, rfl, fun _ => ⟨[], maxMsgs, ?_⟩⟩
  have hbad : ¬ (sizeofHsmEvent = 0 ∨ maxMsgs ≤ 0) := by
    rw [sizeofHsmEvent]
    omega
  simp [osaQueueCreate, hbad, lockStart]

/-- The first thread is a worker of the only pool. -/
def firstWorks : Fin 2 → Role Unit Unit := fun t => if t = 0 then .worker () else .other

/-- While another thread waits for space in a full queue, the post of a completed job returns
at once, under the lock of its pool. -/
theorem completion_does_not_wait :
    ∃ s : LockSys (Fin 2) Unit Unit, (lockSystem firstWorks).Reachable s ∧
      (s.call 1 = .waiting () (.send startWork.raw 5) ∧ s.call 0 = .idle ∧
        s.pool 0 = .inside () (.complete .finish)) ∧ NoDeadlock s := by
  obtain ⟨s, hs, hcalls⟩ : ∃ s : LockSys (Fin 2) Unit Unit,
      (lockSystem firstWorks).Reachable s ∧
      (s.call 1 = .waiting () (.send startWork.raw 5) ∧ s.call 0 = .idle ∧
        s.pool 0 = .inside () (.complete .finish)) :=
    System.reachable_of_replay (lockStart_initial (by decide) : LockInitial (lockStart _ _ _ 1))
      [.post 1 () startWork.raw 0, .lockQueue 1, .segment 1, .post 1 () startWork.raw 5,
        .lockQueue 1, .segment 1, .call 0 () .takeJob, .lock 0, .unlock 0,
        .call 0 () (.complete .callback), .lock 0, .onward 0, .post 0 () startWork.raw 0,
        .lockQueue 0, .segment 0]
      (by decide +kernel)
  exact ⟨s, hs, hcalls, no_lock_cycle hs⟩

/-- **A completion callback can make its worker wait for queue space under `pool->lock`**: it
posts with a timeout to a machine whose queue is full. -/
theorem callback_waits_under_lock :
    ∃ s : LockSys (Fin 2) Unit Unit, (lockSystem firstWorks).Reachable s ∧
      s.owner (.pool ()) = some 0 ∧ s.call 0 = .waiting () (.send startWork.raw 5) :=
  System.reachable_of_replay (lockStart_initial (by decide) : LockInitial (lockStart _ _ _ 1))
    [.post 1 () startWork.raw 0, .lockQueue 1, .segment 1, .call 0 () (.complete .callback),
      .lock 0, .post 0 () startWork.raw 5, .lockQueue 0, .segment 0]
    (by decide +kernel)

end OpenHsm
