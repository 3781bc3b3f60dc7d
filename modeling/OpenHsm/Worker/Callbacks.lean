import OpenHsm.Worker.Clients

/-!
Completion callbacks that use the pool.  A worker calls `complete_cb` between the lock and the
unlock of its completion section, and `pool->lock` is a `pthread_mutex_t` with default
attributes: a thread that locks it while it is its owner waits for itself.

* `PoolOp`, `CallbackPc`, `CallbackSys`: what a callback may call, where the callback of each
  worker is, and the owner of the lock beside the pool of `Pool`.
* `Act.takesLock`, `callbackEnabled`, `callbackNext`, `callbackSystem`: the steps; the
  completion section ends only when its callback has returned.
* `SelfBlocked`: a thread waits for a lock that it holds itself.
* `LockOwned`, `lockOwned_step`: callbacks run in a worker that owns the lock.
* `callback_calls_iff`: no thread blocks itself exactly when no callback gets to the lock, and
  one that does stops the pool for good.  `chained_job_blocks` is a callback that submits the
  next job.
-/

namespace OpenHsm

open Runs

variable {n : ℕ}

/-! ### The system -/

/-- A call that a callback makes on the pool that is completing the job; `none` is a `NULL`
argument. -/
inductive PoolOp where
  | submit (job : Option JobRef)
  | submitToHsm (job : Option JobRef) (targetHsm : Option ℕ) (completionSignal : Int)
  | cancel (id : UInt32) (fuel : ℕ)
  | getStats (haveStats : Bool)
  /-- `osa_worker_pool_wait` with timeout `0`. -/
  | poll (job : Option JobRef)
  deriving DecidableEq, Repr

/-- The call gets to `osa_mutex_lock(pool->lock)`. -/
def PoolOp.locks : PoolOp → Bool
  | .submit job | .submitToHsm job _ _ | .poll job => job.isSome
  | .cancel _ _ => true
  | .getStats haveStats => haveStats

/-- What the call writes before it comes to the lock. -/
def PoolOp.before (m : Memory) : PoolOp → Memory
  | .submitToHsm (some j) h sig => m.setTarget j h sig
  | .submitToHsm none _ _ | .submit _ | .cancel _ _ | .getStats _ | .poll _ => m

/-- What the call does with the lock, on behalf of client `c`. -/
def PoolOp.effect (s : Sys n) (c : ℕ) : PoolOp → Sys n
  | .submit (some j) | .submitToHsm (some j) _ _ => next s (.submit c j)
  | .cancel id fuel => next s (.cancel id fuel)
  | .poll (some j) => next s (.waitCall c j 0)
  | .submit none | .submitToHsm none _ _ | .poll none | .getStats _ => s

/-- Where the callback of a worker is. -/
inductive CallbackPc where
  | outside
  | running
  /-- In `osa_mutex_lock(pool->lock)` of a call. -/
  | blocked (op : PoolOp)
  | returned
  deriving DecidableEq, Repr

/-- The pool, the owner of its lock and the callbacks. -/
structure CallbackSys (n : ℕ) where
  sys : Sys n
  lock : Option (Fin n)
  callback : Fin n → CallbackPc

/-- One step. -/
inductive CallbackAct (n : ℕ) where
  | pool (a : Act n)
  /-- Line 155: the callback is called. -/
  | enter (w : Fin n)
  | call (w : Fin n) (op : PoolOp)
  /-- The call of a callback has the lock: it does its work and unlocks. -/
  | acquire (w : Fin n) (c : ℕ)
  | leave (w : Fin n)
  deriving DecidableEq, Repr

/-- The step begins with `osa_mutex_lock(pool->lock)`. -/
def Act.takesLock : Act n → Bool
  | .submit _ _ | .submitToHsm _ _ _ _ | .cancel _ _ | .dequeue _ | .finish _ | .waitCall _ _ _
  | .waitReturn _ | .stopBegin => true
  | .init _ _ _ | .alloc _ | .free _ _ | .take _ | .execute _ _ | .notify _ | .waitTake _
  | .waitFail _ _ | .stopPost | .stopJoin _ | .hsmStart _ | .post _ _ | .receive _ | .handled _
  | .handledFree _ => false

/-- The callback of worker `w` is over, or its job has none. -/
def CalledBack (s : CallbackSys n) (w : Fin n) : Prop :=
  s.callback w = .returned ∨ s.callback w = .outside ∧
    ∃ j ∈ (s.sys.pc w).announcing, (s.sys.mem.jobs j).completeCb = none

/-- The callback of worker `w` is to be called. -/
def CallbackDue (s : CallbackSys n) (w : Fin n) : Prop :=
  s.callback w = .outside ∧
    ∃ j ∈ (s.sys.pc w).announcing, (s.sys.mem.jobs j).completeCb ≠ none

instance (s : CallbackSys n) (w : Fin n) : Decidable (CalledBack s w) :=
  inferInstanceAs (Decidable (_ ∨ _ ∧ ∃ j ∈ (s.sys.pc w).announcing, _))

instance (s : CallbackSys n) (w : Fin n) : Decidable (CallbackDue s w) :=
  inferInstanceAs (Decidable (_ ∧ ∃ j ∈ (s.sys.pc w).announcing, _))

/-- When a step can be taken. -/
def callbackEnabled (s : CallbackSys n) : CallbackAct n → Prop
  | .pool a =>
      enabled s.sys a ∧ (a.takesLock = true → s.lock = none) ∧
        ∀ w, a = .notify w → CalledBack s w
  | .enter w => CallbackDue s w
  | .call w _ => s.callback w = .running
  | .acquire w _ => s.lock = none ∧ match s.callback w with
      | .blocked (.cancel id fuel) => (osaWorkerPoolCancel s.sys.mem id fuel).isSome
      | .blocked _ => True
      | .outside | .running | .returned => False
  | .leave w => s.callback w = .running

instance (s : CallbackSys n) (a : CallbackAct n) : Decidable (callbackEnabled s a) := by
  cases a <;> simp only [callbackEnabled] <;> first
    | infer_instance
    | (refine @instDecidableAnd _ _ ?_ ?_ <;> first | infer_instance | (split <;> infer_instance))

/-- Who owns the lock after a step. -/
def lockAfter (lock : Option (Fin n)) : Act n → Option (Fin n)
  | .finish w => some w
  | .notify _ => none
  | .init _ _ _ | .alloc _ | .free _ _ | .submit _ _ | .submitToHsm _ _ _ _ | .cancel _ _
  | .take _ | .dequeue _ | .execute _ _ | .waitCall _ _ _ | .waitTake _ | .waitFail _ _
  | .waitReturn _ | .stopBegin | .stopPost | .stopJoin _ | .hsmStart _ | .post _ _ | .receive _
  | .handled _ | .handledFree _ => lock

/-- Where the callbacks are after a step: the next job of a worker gets its own. -/
def callbackAfter (callback : Fin n → CallbackPc) : Act n → Fin n → CallbackPc
  | .notify w => Function.update callback w .outside
  | .init _ _ _ | .alloc _ | .free _ _ | .submit _ _ | .submitToHsm _ _ _ _ | .cancel _ _
  | .take _ | .dequeue _ | .execute _ _ | .finish _ | .waitCall _ _ _ | .waitTake _
  | .waitFail _ _ | .waitReturn _ | .stopBegin | .stopPost | .stopJoin _ | .hsmStart _
  | .post _ _ | .receive _ | .handled _ | .handledFree _ => callback

/-- The effect of a step. -/
def callbackNext (s : CallbackSys n) : CallbackAct n → CallbackSys n
  | .pool a => ⟨next s.sys a, lockAfter s.lock a, callbackAfter s.callback a⟩
  | .enter w => { s with callback := Function.update s.callback w .running }
  | .call w op =>
      if op.locks then
        { s with
          sys := { s.sys with mem := op.before s.sys.mem }
          callback := Function.update s.callback w (.blocked op) }
      else s
  | .acquire w c => match s.callback w with
      | .blocked op =>
          { s with
            sys := op.effect s.sys c
            callback := Function.update s.callback w .running }
      | .outside | .running | .returned => s
  | .leave w => { s with callback := Function.update s.callback w .returned }

/-- The pool with its callbacks. -/
def callbackSystem (n : ℕ) : System (CallbackSys n) (CallbackAct n) where
  init s := Initial s.sys ∧ s.lock = none ∧ s.callback = fun _ => .outside
  enabled := callbackEnabled
  next := callbackNext

instance (s : CallbackSys n) (a : CallbackAct n) : Decidable ((callbackSystem n).enabled s a) :=
  inferInstanceAs (Decidable (callbackEnabled s a))

/-- A thread waits for the lock that it holds itself. -/
def SelfBlocked (s : CallbackSys n) : Prop :=
  ∃ w op, s.lock = some w ∧ s.callback w = .blocked op

/-- The step is a call of a callback that gets to the lock. -/
def CallbackAct.callsPool : CallbackAct n → Prop
  | .call _ op => op.locks = true
  | .pool _ | .enter _ | .acquire _ _ | .leave _ => False

/-- A step in which some thread takes the lock. -/
def CallbackAct.locks : CallbackAct n → Prop
  | .pool a => a.takesLock = true
  | .acquire _ _ => True
  | .enter _ | .call _ _ | .leave _ => False

/-! ### The owner of the lock -/

/-- The lock is owned by the worker in its completion section, and callbacks run there. -/
structure LockOwned (s : CallbackSys n) : Prop where
  holds : ∀ w, (s.sys.pc w).holdsLock = true ↔ s.lock = some w
  callback : ∀ w, s.callback w ≠ .outside → s.lock = some w

lemma LockOwned.initial {s : CallbackSys n} (h : (callbackSystem n).init s) : LockOwned s := by
  obtain ⟨⟨-, -, hpc, -⟩, hlock, hcb⟩ := h
  refine ⟨fun w => ?_, fun w hw => absurd (congrFun hcb w) hw⟩
  simp [hpc, hlock, WorkerPc.holdsLock]

/-- One worker moves between places outside its completion section. -/
lemma holdsLock_update {pc : Fin n → WorkerPc} {w : Fin n} {x : WorkerPc}
    (hold : (pc w).holdsLock = false) (hnew : x.holdsLock = false) (v : Fin n) :
    (Function.update pc w x v).holdsLock = (pc v).holdsLock := by
  by_cases hv : v = w
  · rw [hv, Function.update_self, hold, hnew]
  · rw [Function.update_of_ne hv]

/-- A step that is neither the begin nor the end of a completion section leaves the workers in
and out of theirs. -/
lemma next_holdsLock {s : Sys n} {a : Act n} (ha : enabled s a) (hf : ∀ w, a ≠ .finish w)
    (hn : ∀ w, a ≠ .notify w) (v : Fin n) :
    ((next s a).pc v).holdsLock = (s.pc v).holdsLock := by
  cases a with
  | finish w => exact absurd rfl (hf w)
  | notify w => exact absurd rfl (hn w)
  | take w => exact holdsLock_update (by rw [ha.1]; rfl) rfl v
  | dequeue w =>
      have hw : (s.pc w).holdsLock = false := by rw [ha.1]; rfl
      simp only [next]
      split
      · exact holdsLock_update hw rfl v
      · split
        · exact holdsLock_update hw rfl v
        · exact holdsLock_update hw rfl v
  | execute w ret =>
      cases hw : s.pc w with
      | running j =>
          simp only [next, hw]
          exact holdsLock_update (by rw [hw]; rfl) rfl v
      | waiting | woken | executed | notifying | exited => simp [enabled, hw] at ha
  | cancel id fuel =>
      simp only [next]
      split <;> rfl
  | alloc c =>
      simp only [next]
      split <;> rfl
  | waitCall x j t =>
      simp only [next]
      split <;> rfl
  | waitTake x =>
      simp only [next]
      split <;> rfl
  | waitFail x err =>
      simp only [next]
      split <;> rfl
  | waitReturn x =>
      simp only [next]
      split <;> rfl
  | stopPost =>
      simp only [next]
      split <;> rfl
  | handledFree h =>
      simp only [next]
      split <;> rfl
  | init | free | submit | submitToHsm | stopBegin | stopJoin | hsmStart | post | receive
  | handled => rfl

/-- The lock and the callbacks change only with the completion sections. -/
lemma lockAfter_of_ne {lock : Option (Fin n)} {a : Act n} (hf : ∀ w, a ≠ .finish w)
    (hn : ∀ w, a ≠ .notify w) : lockAfter lock a = lock := by
  cases a with
  | finish w => exact absurd rfl (hf w)
  | notify w => exact absurd rfl (hn w)
  | _ => rfl

lemma callbackAfter_of_ne {callback : Fin n → CallbackPc} {a : Act n}
    (hn : ∀ w, a ≠ .notify w) : callbackAfter callback a = callback := by
  cases a with
  | notify w => exact absurd rfl (hn w)
  | _ => rfl

/-- The begin of a completion section. -/
lemma LockOwned.finish {s : CallbackSys n} (h : LockOwned s) {w : Fin n}
    (ha : callbackEnabled s (.pool (.finish w))) :
    LockOwned (callbackNext s (.pool (.finish w))) := by
  obtain ⟨hen, hfree, -⟩ := ha
  have hnone : s.lock = none := hfree rfl
  obtain ⟨j, e, hw⟩ : ∃ j e, s.sys.pc w = .executed j e := by
    cases hw : s.sys.pc w with
    | executed j e => exact ⟨j, e, rfl⟩
    | waiting | woken | running | notifying | exited => simp [enabled, hw] at hen
  have hpc : (next s.sys (.finish w)).pc = Function.update s.sys.pc w (.notifying j e) := by
    simp only [next, hw]
  refine ⟨fun v => ?_, fun v hv => ?_⟩
  · show ((next s.sys (.finish w)).pc v).holdsLock = true ↔ some w = some v
    rw [hpc, Option.some.injEq]
    by_cases hvw : v = w
    · simp [hvw, WorkerPc.holdsLock]
    · rw [Function.update_of_ne hvw, h.holds v, hnone]
      simpa using Ne.symm hvw
  · exact absurd (hnone.symm.trans (h.callback v hv)) (by simp)

/-- Its end. -/
lemma LockOwned.notify {s : CallbackSys n} (h : LockOwned s) {w : Fin n}
    (ha : callbackEnabled s (.pool (.notify w))) :
    LockOwned (callbackNext s (.pool (.notify w))) := by
  have hlock : s.lock = some w := (h.holds w).mp ha.1
  obtain ⟨j, e, hw⟩ : ∃ j e, s.sys.pc w = .notifying j e := by
    have hen := ha.1
    cases hw : s.sys.pc w with
    | notifying j e => exact ⟨j, e, rfl⟩
    | waiting | woken | running | executed | exited => simp [enabled, hw, WorkerPc.holdsLock] at hen
  have hpc : (next s.sys (.notify w)).pc = Function.update s.sys.pc w .waiting := by
    simp only [next, hw, notifyStep]
    split <;> rfl
  refine ⟨fun v => ?_, fun v hv => ?_⟩
  · show ((next s.sys (.notify w)).pc v).holdsLock = true ↔ none = some v
    rw [hpc]
    by_cases hvw : v = w
    · simp [hvw, WorkerPc.holdsLock]
    · rw [Function.update_of_ne hvw, h.holds v, hlock]
      simpa using Ne.symm hvw
  · by_cases hvw : v = w
    · exact absurd (by simp [callbackNext, callbackAfter, hvw]) hv
    · have hv' : s.callback v ≠ .outside := by
        simpa [callbackNext, callbackAfter, hvw] using hv
      have hsome := h.callback v hv'
      rw [hlock, Option.some.injEq] at hsome
      exact absurd hsome.symm hvw

/-- The callback of the worker that owns the lock goes on. -/
lemma LockOwned.move {s t : CallbackSys n} (h : LockOwned s) {w : Fin n} {x : CallbackPc}
    (hw : s.lock = some w) (hpc : t.sys.pc = s.sys.pc) (hlock : t.lock = s.lock)
    (hcb : t.callback = Function.update s.callback w x) : LockOwned t := by
  refine ⟨fun v => by rw [hpc, hlock]; exact h.holds v, fun v hv => ?_⟩
  rw [hlock]
  by_cases hvw : v = w
  · rw [hvw, hw]
  · rw [hcb, Function.update_of_ne hvw] at hv
    exact h.callback v hv

/-- **Callbacks run in the worker that owns the lock.** -/
lemma lockOwned_step {s : CallbackSys n} {a : CallbackAct n} (h : LockOwned s)
    (ha : callbackEnabled s a) : LockOwned (callbackNext s a) := by
  cases a with
  | pool a =>
      by_cases hf : ∃ w, a = .finish w
      · obtain ⟨w, rfl⟩ := hf
        exact h.finish ha
      by_cases hn : ∃ w, a = .notify w
      · obtain ⟨w, rfl⟩ := hn
        exact h.notify ha
      push Not at hf hn
      refine ⟨fun v => ?_, fun v hv => ?_⟩
      · show ((next s.sys a).pc v).holdsLock = true ↔ lockAfter s.lock a = some v
        rw [next_holdsLock ha.1 hf hn, lockAfter_of_ne hf hn]
        exact h.holds v
      · show lockAfter s.lock a = some v
        rw [lockAfter_of_ne hf hn]
        exact h.callback v (by simpa [callbackNext, callbackAfter_of_ne hn] using hv)
  | enter w =>
      obtain ⟨-, j, hj, -⟩ := ha
      have hholds : (s.sys.pc w).holdsLock = true := by
        cases hw : s.sys.pc w with
        | notifying j e => rfl
        | waiting | woken | running | executed | exited => simp [hw, WorkerPc.announcing] at hj
      exact h.move ((h.holds w).mp hholds) rfl rfl rfl
  | call w op =>
      have hw : s.lock = some w := h.callback w (by rw [show s.callback w = .running from ha]; simp)
      rw [callbackNext]
      split
      · exact h.move hw rfl rfl rfl
      · exact h
  | acquire w c =>
      obtain ⟨hnone, -⟩ := ha
      cases hw : s.callback w with
      | blocked op =>
          have hlock := h.callback w (by rw [hw]; simp)
          exact absurd (hnone.symm.trans hlock) (by simp)
      | outside | running | returned => simpa only [callbackNext, hw] using h
  | leave w =>
      have hw : s.lock = some w := h.callback w (by rw [show s.callback w = .running from ha]; simp)
      exact h.move hw rfl rfl rfl

/-! ### Threads that wait for themselves -/

/-- A callback that waits for the lock waits for itself. -/
lemma LockOwned.selfBlocked_iff {s : CallbackSys n} (h : LockOwned s) :
    SelfBlocked s ↔ ∃ w op, s.callback w = .blocked op := by
  constructor
  · rintro ⟨w, op, -, hw⟩
    exact ⟨w, op, hw⟩
  · rintro ⟨w, op, hw⟩
    exact ⟨w, op, h.callback w (by rw [hw]; simp), hw⟩

/-- **A step blocks a thread on its own lock exactly when it is the call of a callback that
gets to the lock.** -/
lemma selfBlocked_next_iff {s : CallbackSys n} {a : CallbackAct n} (hfree : ¬ SelfBlocked s)
    (h : LockOwned s) (ha : callbackEnabled s a) :
    ¬ SelfBlocked (callbackNext s a) ↔ ¬ a.callsPool := by
  rw [(lockOwned_step h ha).selfBlocked_iff]
  rw [h.selfBlocked_iff] at hfree
  push Not at hfree ⊢
  -- whoever goes on without waiting leaves the others where they are
  have hmove : ∀ w x, (∀ op, x ≠ .blocked op) → ∀ v op,
      Function.update s.callback w x v ≠ .blocked op := by
    intro w x hx v op
    by_cases hvw : v = w
    · rw [hvw, Function.update_self]
      exact hx op
    · rw [Function.update_of_ne hvw]
      exact hfree v op
  cases a with
  | call w op =>
      by_cases hop : op.locks = true
      · refine iff_of_false (fun hnext => ?_) (not_not.mpr hop)
        exact hnext w op (by simp [callbackNext, hop])
      · refine iff_of_true ?_ hop
        rw [callbackNext, if_neg hop]
        exact hfree
  | pool a =>
      refine iff_of_true ?_ id
      show ∀ v op, callbackAfter s.callback a v ≠ .blocked op
      cases a with
      | notify w => exact hmove w .outside (by simp)
      | _ => exact hfree
  | enter w => exact iff_of_true (hmove w .running (by simp)) id
  | leave w => exact iff_of_true (hmove w .returned (by simp)) id
  | acquire w c =>
      refine iff_of_true ?_ id
      cases hw : s.callback w with
      | blocked op => exact absurd hw (hfree w op)
      | outside | running | returned => simpa only [callbackNext, hw] using hfree

/-- A worker that waits for itself does so for ever, and nobody takes the lock again. -/
lemma selfBlocked_step {s : CallbackSys n} {a : CallbackAct n} {w : Fin n} {op : PoolOp}
    (h : LockOwned s) (hlock : s.lock = some w) (hw : s.callback w = .blocked op)
    (ha : callbackEnabled s a) :
    ¬ a.locks ∧ (callbackNext s a).lock = some w ∧
      (callbackNext s a).callback w = .blocked op := by
  have hne : ∀ v, s.callback v ≠ .blocked op → w ≠ v := by
    rintro v hv rfl
    exact hv hw
  cases a with
  | pool a =>
      have htake : ¬ a.takesLock = true := fun ht => by
        have hnone := ha.2.1 ht
        rw [hlock] at hnone
        cases hnone
      have hf : ∀ v, a ≠ .finish v := by
        rintro v rfl
        exact htake rfl
      have hn : ∀ v, a ≠ .notify v := by
        rintro v rfl
        have hv := (h.holds v).mp ha.1
        rw [hlock, Option.some.injEq] at hv
        rcases ha.2.2 v rfl with hcb | ⟨hcb, -⟩ <;> rw [← hv, hw] at hcb <;> cases hcb
      refine ⟨htake, ?_, ?_⟩
      · exact (lockAfter_of_ne hf hn).trans hlock
      · exact (congrFun (callbackAfter_of_ne hn) w).trans hw
  | enter v =>
      have hwv := hne v (by rw [ha.1]; simp)
      exact ⟨id, hlock, (Function.update_of_ne hwv ..).trans hw⟩
  | call v op' =>
      have hwv := hne v (by rw [show s.callback v = .running from ha]; simp)
      refine ⟨id, ?_⟩
      rw [callbackNext]
      split
      · exact ⟨hlock, (Function.update_of_ne hwv ..).trans hw⟩
      · exact ⟨hlock, hw⟩
  | acquire v c =>
      have hnone := ha.1
      rw [hlock] at hnone
      cases hnone
  | leave v =>
      have hwv := hne v (by rw [show s.callback v = .running from ha]; simp)
      exact ⟨id, hlock, (Function.update_of_ne hwv ..).trans hw⟩

/-- **Completion callbacks may not use the pool.**  Along every run, no thread waits for a
`pool->lock` that it holds itself exactly as long as no callback makes a call that gets to the
lock; from a state where one does, it waits for ever and no thread ever takes the lock again,
so that its operation never takes effect. -/
theorem callback_calls_iff {s t : CallbackSys n} {l : List (CallbackSys n × CallbackAct n)}
    (hs : (callbackSystem n).init s) (hl : (callbackSystem n).RunFrom s l t) :
    ((¬ SelfBlocked t ∧ ∀ p ∈ l, ¬ SelfBlocked p.1) ↔ ∀ p ∈ l, ¬ p.2.callsPool) ∧
      (SelfBlocked t → ∀ l' t', (callbackSystem n).RunFrom t l' t' →
        SelfBlocked t' ∧ ∀ p ∈ l', ¬ p.2.locks) := by
  have howned : LockOwned t :=
    hl.invariant (P := LockOwned) (fun _ _ hu ha => lockOwned_step hu ha) (LockOwned.initial hs)
  refine ⟨hl.forall_iff (P := fun u => ¬ SelfBlocked u) (J := LockOwned)
    (c := fun _ (a : CallbackAct n) => ¬ a.callsPool) ?_ (LockOwned.initial hs)
    (fun u a hP hJ ha => selfBlocked_next_iff hP hJ ha)
    (fun u a _ hJ ha _ => lockOwned_step hJ ha), ?_⟩
  · rintro ⟨w, op, -, hw⟩
    simp [hs.2.2] at hw
  · rintro ⟨w, op, hlock, hw⟩ l' t' hl'
    have hstep : ∀ u a, LockOwned u ∧ u.lock = some w ∧ u.callback w = .blocked op →
        (callbackSystem n).enabled u a → LockOwned (callbackNext u a) ∧
          (callbackNext u a).lock = some w ∧ (callbackNext u a).callback w = .blocked op :=
      fun u a hu ha => ⟨lockOwned_step hu.1 ha, (selfBlocked_step hu.1 hu.2.1 hu.2.2 ha).2⟩
    obtain ⟨-, hlock', hw'⟩ := hl'.invariant hstep ⟨howned, hlock, hw⟩
    refine ⟨⟨w, op, hlock', hw'⟩, fun p hp => ?_⟩
    obtain ⟨⟨hu, hulock, huw⟩, ha⟩ := hl'.forall_mem hstep ⟨howned, hlock, hw⟩ p hp
    exact (selfBlocked_step hu hulock huw ha).1

/-! ### Chaining a job from a callback -/

/-- The pool with its callbacks before anything has happened. -/
def callbackStart (n : ℕ) (numWorkers queueSize : UInt32) : CallbackSys n :=
  ⟨startState n numWorkers queueSize 1, none, fun _ => .outside⟩

/-- Worker `w` completes job `0`, whose callback makes the call `op`. -/
def callbackRun (w : Fin n) (op : PoolOp) : List (CallbackAct n) :=
  [.pool (.init 0 (.object 0) ⟨some 1, none, some 2, none⟩), .pool (.submit 0 (.object 0)),
    .pool (.take w), .pool (.dequeue w), .pool (.execute w 7), .pool (.finish w), .enter w,
    .call w op]

/-- A callback whose call is refused before the lock lets the pool go on. -/
theorem refused_call_returns :
    ∃ t l, (callbackSystem 1).RunFrom (callbackStart 1 1 4) l t ∧ t.callback 0 = .running ∧
      ¬ SelfBlocked t := by
  obtain ⟨t, ht, hcb⟩ : ∃ t ∈ (callbackSystem 1).replay (callbackStart 1 1 4)
      (callbackRun 0 (.submit none)), t.callback 0 = .running := by decide +kernel
  have hrun := System.runFrom_of_replay ht
  refine ⟨t, _, hrun, hcb, (((callback_calls_iff
    ⟨startState_initial 1 4 1, rfl, rfl⟩ hrun).1).mpr ?_).1⟩
  simp [callbackRun, System.history, CallbackAct.callsPool, PoolOp.locks]

/-- **A callback that submits the next job stops the pool**: the worker waits for the lock of
its own completion section. -/
theorem chained_job_blocks :
    ∃ t, (callbackSystem 1).Reachable t ∧ t.lock = some 0 ∧
      t.callback 0 = .blocked (.submit (some (.object 1))) ∧
      (t.sys.pc 0).holdsLock = true ∧ SelfBlocked t := by
  obtain ⟨t, ht, hlock, hcb, hpc⟩ : ∃ t, (callbackSystem 1).Reachable t ∧ t.lock = some 0 ∧
      t.callback 0 = .blocked (.submit (some (.object 1))) ∧ (t.sys.pc 0).holdsLock = true :=
    System.reachable_of_replay (s := callbackStart 1 1 4) ⟨startState_initial 1 4 1, rfl, rfl⟩
      (callbackRun 0 (.submit (some (.object 1)))) (by decide +kernel)
  exact ⟨t, ht, hlock, hcb, hpc, 0, _, hlock, hcb⟩

end OpenHsm
