import OpenHsm.Library.Runs
import OpenHsm.Library.SlotTable
import OpenHsm.Platform.Semaphore
import OpenHsm.Platform.TaskSlots

/-!
The static objects of `platform/esp32`: `mutex_pool` and `sem_pool` of `osa_sync.c`, `queue_pool`
of `osa_queue.c` and `timer_pool` of `osa_timer.c`.

* `ObjectKind`, `ObjectPool`: the four tables, which differ in their size and in what a slot holds
  besides the handle.
* `createObject`, `destroyObject`: what their functions share, and under the names of the source
  `espMutexCreate`, `espSemCreateIn`, `espQueueCreate`, `espTimerCreate` and the four that destroy.
* `timerCallbackWrapper`: the callback that the timer daemon makes when a timer expires.
* `objectSystem`: objects of all kinds are created and destroyed, and timers expire.
* `HoldsLive`, `pools_hold_live_objects`: each live object has a slot to itself, the used slots are
  those of the live objects, and a create is refused for lack of a slot exactly while as many
  objects of its kind are live as there are slots.
* `registered`, `timer_calls_registered`: the callbacks of a whole run are those that the timers
  which expired were last created with, and none for a timer that was destroyed.
-/

namespace OpenHsm

open Runs SlotTable

/-! ### The tables -/

/-- `OSA_MAX_MUTEXES`, `OSA_MAX_SEMAPHORES`, `OSA_MAX_QUEUES` and `OSA_MAX_TIMERS`. -/
def osaMaxMutexes : ℕ := 16
def osaMaxSemaphores : ℕ := 16
def osaMaxQueues : ℕ := 8
def osaMaxTimers : ℕ := 8

/-- The fields `callback` and `arg` of a slot of `timer_pool`, as addresses. -/
structure TimerEntry where
  callback : Option ℕ
  arg : ℕ
  deriving DecidableEq, Repr

/-- What there is a table of. -/
inductive ObjectKind where
  | mutex | sem | queue | timer
  deriving DecidableEq, Repr

instance : Fintype ObjectKind :=
  ⟨{.mutex, .sem, .queue, .timer}, fun k => by cases k <;> simp⟩

/-- The number of slots. -/
def ObjectKind.slots : ObjectKind → ℕ
  | .mutex => osaMaxMutexes
  | .sem => osaMaxSemaphores
  | .queue => osaMaxQueues
  | .timer => osaMaxTimers

/-- What a slot holds besides `handle` and `used`: a queue its `msg_size`. -/
def ObjectKind.Data : ObjectKind → Type
  | .mutex | .sem => Unit
  | .queue => ℕ
  | .timer => TimerEntry

/-- What `memset` makes of it. -/
def ObjectKind.zero : (k : ObjectKind) → k.Data
  | .mutex | .sem => ()
  | .queue => (0 : ℕ)
  | .timer => ⟨none, 0⟩

/-- What is left of it in a slot that is given back. -/
def ObjectKind.wiped : (k : ObjectKind) → k.Data → k.Data
  | .mutex | .sem | .queue => id
  | .timer => fun e => { e with callback := none }

/-- The table of a kind. -/
abbrev ObjectPool (H : Type*) (k : ObjectKind) := Table k.slots H k.Data

variable {H : Type*} {k : ObjectKind}

/-! ### Creating and destroying -/

/-- A create function: `valid` is its check of the arguments, and `handle` what the kernel answers,
which makes the object in the memory of the slot. -/
def createObject (p : ObjectPool H k) (valid : Bool) (handle : Option H) (d : k.Data) :
    Option (H × Fin k.slots) × ObjectPool H k :=
  let p := initOnce k.zero p
  if valid then
    match findFree p with
    | none => (none, p)
    | some slot =>
        match handle with
        | none => (none, p)
        | some handle => (some (handle, slot), occupy p slot handle d)
  else (none, p)

/-- A destroy function: what it returns, the handle it gives to the kernel, and the table. -/
def destroyObject [DecidableEq H] (p : ObjectPool H k) (object : Option H) :
    ℤ × Option H × ObjectPool H k :=
  match object with
  | none => (osaErrInvalidParam, none, p)
  | some handle => (osaOk, some handle, release k.wiped p handle)

/-- `OSA_QUEUE_MAX_SIZE` and `OSA_QUEUE_MAX_MSG_SIZE`, which a build has to define, and
`pdMS_TO_TICKS`. -/
structure EspConfig where
  queueMaxSize : ℕ
  queueMaxMsgSize : ℕ
  queueMaxSize_pos : 0 < queueMaxSize
  queueMaxMsgSize_pos : 0 < queueMaxMsgSize
  pdMsToTicks : UInt32 → UInt32

/-- The `msg_size` and `max_msgs` of a queue, cut down to the memory of a slot. -/
def EspConfig.itemSize (C : EspConfig) (msgSize : ℕ) : ℕ :=
  if msgSize > C.queueMaxMsgSize then C.queueMaxMsgSize else msgSize
def EspConfig.length (C : EspConfig) (maxMsgs : ℤ) : ℤ :=
  if maxMsgs > C.queueMaxSize then C.queueMaxSize else maxMsgs

/-- `osa_mutex_create`. -/
def espMutexCreate (p : ObjectPool H .mutex) (handle : Option H) :
    Option (H × Fin osaMaxMutexes) × ObjectPool H .mutex :=
  createObject p true handle ()

/-- `osa_sem_create` with its slot. -/
def espSemCreateIn (p : ObjectPool H .sem) (initCount maxCount : ℤ) (handle : Option H) :
    Option (H × Fin osaMaxSemaphores × RtosSem) × ObjectPool H .sem :=
  let r := createObject p true handle ()
  (r.1.map fun o => (o.1, o.2, espSemCreate initCount maxCount), r.2)

/-- What `xQueueCreateStatic` is called with, besides the memory of the slot. -/
structure StaticQueue where
  length : UInt32
  itemSize : ℕ
  deriving DecidableEq, Repr

/-- `osa_queue_create`, with the `StaticQueue` it makes. -/
def espQueueCreate (C : EspConfig) (p : ObjectPool H .queue) (msgSize : ℕ) (maxMsgs : ℤ)
    (handle : Option H) : Option (H × Fin osaMaxQueues × StaticQueue) × ObjectPool H .queue :=
  let r := createObject p (!decide (msgSize = 0 ∨ maxMsgs = 0)) handle (C.itemSize msgSize)
  (r.1.map fun o => (o.1, o.2, ⟨UInt32.ofInt (C.length maxMsgs), C.itemSize msgSize⟩), r.2)

/-- What `xTimerCreateStatic` is called with, besides the memory of the slot. -/
structure StaticTimer where
  name : String
  periodTicks : UInt32
  autoReload : Bool
  deriving DecidableEq, Repr

/-- `osa_timer_create`, with the `StaticTimer` it makes. -/
def espTimerCreate (C : EspConfig) (p : ObjectPool H .timer) (name : Option String)
    (periodMs : UInt32) (periodic : Bool) (callback : Option ℕ) (arg : ℕ) (handle : Option H) :
    Option (H × Fin osaMaxTimers × StaticTimer) × ObjectPool H .timer :=
  let ticks := C.pdMsToTicks periodMs
  let periodTicks := if ticks = 0 then 1 else ticks
  let r := createObject p (!decide (periodMs = 0 ∨ callback = none)) handle ⟨callback, arg⟩
  (r.1.map fun o => (o.1, o.2, ⟨name.getD "osa_timer", periodTicks, periodic⟩), r.2)

/-- `osa_mutex_destroy`, `osa_sem_destroy`, `osa_queue_destroy` and `osa_timer_destroy`. -/
def espMutexDestroy [DecidableEq H] (p : ObjectPool H .mutex) (mutex : Option H) :
    ℤ × Option H × ObjectPool H .mutex :=
  destroyObject p mutex
def espSemDestroy [DecidableEq H] (p : ObjectPool H .sem) (sem : Option H) :
    ℤ × Option H × ObjectPool H .sem :=
  destroyObject p sem
def espQueueDestroy [DecidableEq H] (p : ObjectPool H .queue) (queue : Option H) :
    ℤ × Option H × ObjectPool H .queue :=
  destroyObject p queue
def espTimerDestroy [DecidableEq H] (p : ObjectPool H .timer) (timer : Option H) :
    ℤ × Option H × ObjectPool H .timer :=
  destroyObject p timer

/-- `timer_callback_wrapper`: the callback it makes and the argument. -/
def timerCallbackWrapper [DecidableEq H] (p : ObjectPool H .timer) (xTimer : H) :
    Option (ℕ × ℕ) :=
  match lookup p xTimer with
  | some e => e.callback.map fun callback => (callback, e.arg)
  | none => none

/-! ### The system -/

/-- The tables, the live objects with their handles, and the callbacks that were made, newest
first. -/
structure EspObjects (H : Type*) where
  pools : (k : ObjectKind) → ObjectPool H k
  live : (k : ObjectKind) → H → Option k.Data
  calls : List (ℕ × ℕ)

/-- One step.  `handle` is what the kernel answers. -/
inductive ObjectAct (H : Type*) where
  | mutexCreate (handle : Option H)
  | semCreate (initCount maxCount : ℤ) (handle : Option H)
  | queueCreate (msgSize : ℕ) (maxMsgs : ℤ) (handle : Option H)
  | timerCreate (name : Option String) (periodMs : UInt32) (periodic : Bool)
      (callback : Option ℕ) (arg : ℕ) (handle : Option H)
  | destroy (k : ObjectKind) (object : Option H)
  /-- The daemon calls the wrapper with a timer, or with one that was destroyed since it expired. -/
  | expire (xTimer : H)
  deriving DecidableEq, Repr

/-- The handle that the kernel answers in the step. -/
def ObjectAct.handle : ObjectAct H → Option H
  | .mutexCreate handle | .semCreate _ _ handle | .queueCreate _ _ handle
  | .timerCreate _ _ _ _ _ handle => handle
  | .destroy _ _ | .expire _ => none

/-- When a step can be taken: a new object has a handle that no live object has, and an object is
destroyed as what it was created as. -/
def objectEnabled (s : EspObjects H) (a : ObjectAct H) : Prop :=
  (∀ h ∈ a.handle, ∀ k, (s.live k h).isNone = true) ∧
    match a with
    | .destroy k object => ∀ h ∈ object, (s.live k h).isSome = true
    | _ => True

instance (s : EspObjects H) (a : ObjectAct H) : Decidable (objectEnabled s a) := by
  unfold objectEnabled
  induction a using ObjectAct.casesOn <;> (dsimp only; infer_instance)

variable [DecidableEq H]

/-- The state when a create function has returned. -/
def EspObjects.created (s : EspObjects H) (handle : Option H) (p : ObjectPool H k) (d : k.Data) :
    EspObjects H :=
  { s with
    pools := Function.update s.pools k p
    live := match handle with
      | some h => Function.update s.live k (Function.update (s.live k) h (some d))
      | none => s.live }

/-- The state when a destroy function has returned. -/
def EspObjects.destroyed (s : EspObjects H) (handle : Option H) (p : ObjectPool H k) :
    EspObjects H :=
  { s with
    pools := Function.update s.pools k p
    live := match handle with
      | some h => Function.update s.live k (Function.update (s.live k) h none)
      | none => s.live }

/-- The effect of a step. -/
def objectNext (C : EspConfig) (s : EspObjects H) : ObjectAct H → EspObjects H
  | .mutexCreate handle =>
      let r := espMutexCreate (s.pools .mutex) handle
      s.created (r.1.map Prod.fst) r.2 ()
  | .semCreate initCount maxCount handle =>
      let r := espSemCreateIn (s.pools .sem) initCount maxCount handle
      s.created (r.1.map Prod.fst) r.2 ()
  | .queueCreate msgSize maxMsgs handle =>
      let r := espQueueCreate C (s.pools .queue) msgSize maxMsgs handle
      s.created (r.1.map Prod.fst) r.2 (C.itemSize msgSize)
  | .timerCreate name periodMs periodic callback arg handle =>
      let r := espTimerCreate C (s.pools .timer) name periodMs periodic callback arg handle
      s.created (r.1.map Prod.fst) r.2 ⟨callback, arg⟩
  | .destroy .mutex object =>
      let r := espMutexDestroy (s.pools .mutex) object
      s.destroyed r.2.1 r.2.2
  | .destroy .sem object =>
      let r := espSemDestroy (s.pools .sem) object
      s.destroyed r.2.1 r.2.2
  | .destroy .queue object =>
      let r := espQueueDestroy (s.pools .queue) object
      s.destroyed r.2.1 r.2.2
  | .destroy .timer object =>
      let r := espTimerDestroy (s.pools .timer) object
      s.destroyed r.2.1 r.2.2
  | .expire xTimer =>
      { s with calls := (timerCallbackWrapper (s.pools .timer) xTimer).toList ++ s.calls }

/-- Nothing was created yet. -/
def ObjectsInitial (s : EspObjects H) : Prop :=
  (∀ k, s.pools k = ⟨fun _ => ⟨none, false, k.zero⟩, false⟩) ∧ (∀ k h, s.live k h = none) ∧
    s.calls = []

/-- The tables and the objects. -/
def objectSystem (C : EspConfig) : System (EspObjects H) (ObjectAct H) where
  init := ObjectsInitial
  enabled := objectEnabled
  next := objectNext C

instance (C : EspConfig) (s : EspObjects H) (a : ObjectAct H) :
    Decidable ((objectSystem C).enabled s a) :=
  inferInstanceAs (Decidable (objectEnabled s a))

/-! ### What is asked -/

/-- The table of the kind holds the live objects: each has a slot to itself, with its handle and its
data, and the used slots are theirs.  Where its arguments are fine and the kernel answers, a create
is refused exactly while as many objects are live as there are slots. -/
structure HoldsLive (s : EspObjects H) (k : ObjectKind) : Prop where
  slot : ∀ h d, s.live k h = some d → ∃! i, (s.pools k).slots i = ⟨some h, true, d⟩
  used : ∀ i, ((s.pools k).slots i).used = true →
    ∃ h d, s.live k h = some d ∧ (s.pools k).slots i = ⟨some h, true, d⟩
  bound : {h | (s.live k h).isSome = true}.ncard ≤ k.slots
  refused : ∀ h d, (createObject (s.pools k) true (some h) d).1 = none ↔
    {h | (s.live k h).isSome = true}.ncard = k.slots

/-- The callback and the argument of a timer after the steps `l`, newest first: those of the last
`osa_timer_create` that returned the handle, unless it was destroyed since. -/
def registered (C : EspConfig) : List (EspObjects H × ObjectAct H) → H → Option (ℕ × ℕ)
  | [], _ => none
  | (s, .timerCreate name periodMs periodic callback arg handle) :: l, h =>
      if (espTimerCreate C (s.pools .timer) name periodMs periodic callback arg handle).1.map
          Prod.fst = some h then
        callback.map fun callback => (callback, arg)
      else registered C l h
  | (_, .destroy .timer object) :: l, h => if object = some h then none else registered C l h
  | _ :: l, h => registered C l h

/-- The callbacks that the steps should have made, newest first. -/
def registeredCalls (C : EspConfig) : List (EspObjects H × ObjectAct H) → List (ℕ × ℕ)
  | [] => []
  | (_, .expire h) :: l => (registered C l h).toList ++ registeredCalls C l
  | _ :: l => registeredCalls C l

/-! ### The steps -/

section

omit [DecidableEq H]

variable {p : ObjectPool H k}

lemma initOnce_init {n : ℕ} {δ : Type*} (zero : δ) (t : Table n H δ) :
    (initOnce zero t).init = true := by
  rw [initOnce]
  split
  · next h => exact h
  · rfl

/-- A create that fails leaves the table; one that succeeds has found a free slot. -/
lemma createObject_cases (p : ObjectPool H k) (valid : Bool) (handle : Option H) (d : k.Data) :
    createObject p valid handle d = (none, initOnce k.zero p) ∨
    ∃ h slot, handle = some h ∧ findFree (initOnce k.zero p) = some slot ∧
      createObject p valid handle d
        = (some (h, slot), occupy (initOnce k.zero p) slot h d) := by
  cases valid with
  | false => exact Or.inl rfl
  | true =>
      rw [createObject]
      cases hfind : findFree (initOnce k.zero p) with
      | none => exact Or.inl rfl
      | some slot =>
          cases handle with
          | none => exact Or.inl rfl
          | some h => exact Or.inr ⟨h, slot, rfl, rfl, rfl⟩

lemma createObject_none_iff {h : H} {d : k.Data} :
    (createObject p true (some h) d).1 = none ↔ findFree (initOnce k.zero p) = none := by
  rw [createObject]
  cases findFree (initOnce k.zero p) <;> simp

end

/-- What a create function is called for: the kind, whether its arguments are fine, and the
data. -/
def ObjectAct.request (C : EspConfig) : ObjectAct H → Option ((k : ObjectKind) × Bool × k.Data)
  | .mutexCreate _ => some ⟨.mutex, true, ()⟩
  | .semCreate _ _ _ => some ⟨.sem, true, ()⟩
  | .queueCreate msgSize maxMsgs _ =>
      some ⟨.queue, !decide (msgSize = 0 ∨ maxMsgs = 0), C.itemSize msgSize⟩
  | .timerCreate _ periodMs _ callback arg _ =>
      some ⟨.timer, !decide (periodMs = 0 ∨ callback = none), ⟨callback, arg⟩⟩
  | .destroy _ _ | .expire _ => none

variable {C : EspConfig} {s t : EspObjects H} {a : ObjectAct H}

/-- The create functions differ in what they ask for. -/
lemma objectNext_create {valid : Bool} {d : k.Data} (ha : a.request C = some ⟨k, valid, d⟩) :
    objectNext C s a = s.created ((createObject (s.pools k) valid a.handle d).1.map Prod.fst)
      (createObject (s.pools k) valid a.handle d).2 d := by
  cases a with
  | mutexCreate handle =>
      cases ha
      rfl
  | semCreate initCount maxCount handle =>
      cases ha
      simp only [objectNext, espSemCreateIn, Option.map_map]
      rfl
  | queueCreate msgSize maxMsgs handle =>
      cases ha
      simp only [objectNext, espQueueCreate, Option.map_map]
      rfl
  | timerCreate name periodMs periodic callback arg handle =>
      cases ha
      simp only [objectNext, espTimerCreate, Option.map_map]
      rfl
  | destroy k object => cases ha
  | expire xTimer => cases ha

/-- The destroy functions are one. -/
lemma objectNext_destroy (k : ObjectKind) (object : Option H) :
    objectNext C s (.destroy k object) = s.destroyed (destroyObject (s.pools k) object).2.1
      (destroyObject (s.pools k) object).2.2 := by
  cases k <;> rfl

/-- Every table represents the live objects of its kind. -/
def PoolsKeep (s : EspObjects H) : Prop := ∀ k, Represents (s.pools k) (s.live k)

omit [DecidableEq H] in
lemma ObjectsInitial.keep (hs : ObjectsInitial s) : PoolsKeep s := by
  obtain ⟨hpools, hlive, -⟩ := hs
  intro k
  have hnone : s.live k = fun _ => none := funext (hlive k)
  rw [hnone, hpools k]
  exact represents_empty fun _ => rfl

omit [DecidableEq H] in
/-- The step changes one table only. -/
lemma PoolsKeep.update {q : ObjectPool H k} {m : H → Option k.Data} (hs : PoolsKeep s)
    (hk : Represents q m) (calls : List (ℕ × ℕ)) :
    PoolsKeep ⟨Function.update s.pools k q, Function.update s.live k m, calls⟩ := by
  intro j
  by_cases hj : j = k
  · subst hj
    simp only [Function.update_self]
    exact hk
  · simp only [Function.update_of_ne hj]
    exact hs j

/-- **A create keeps the live objects.** -/
lemma PoolsKeep.created (hs : PoolsKeep s) {valid : Bool} {handle : Option H} {d : k.Data}
    (hfresh : ∀ h ∈ handle, (s.live k h).isNone = true) :
    PoolsKeep (s.created ((createObject (s.pools k) valid handle d).1.map Prod.fst)
      (createObject (s.pools k) valid handle d).2 d) := by
  have hinit := (hs k).initOnce k.zero
  rcases createObject_cases (s.pools k) valid handle d with hno | ⟨h, slot, rfl, hfind, hyes⟩
  · rw [hno]
    have hkeep := hs.update hinit s.calls
    rwa [Function.update_eq_self] at hkeep
  · rw [hyes]
    have hnew : s.live k h = none := by simpa using hfresh h rfl
    exact hs.update (hinit.occupy (initOnce_init _ _) (findFree_some hfind) hnew d) s.calls

/-- **A destroy takes its object away.** -/
lemma PoolsKeep.destroyed (hs : PoolsKeep s) (object : Option H) :
    PoolsKeep (s.destroyed (destroyObject (s.pools k) object).2.1
      (destroyObject (s.pools k) object).2.2) := by
  cases object with
  | none =>
      have hkeep := hs.update (hs k) s.calls
      rwa [Function.update_eq_self (f := s.live)] at hkeep
  | some h => exact hs.update ((hs k).release k.wiped h) s.calls

lemma PoolsKeep.next (hs : PoolsKeep s) (ha : objectEnabled s a) :
    PoolsKeep (objectNext C s a) := by
  cases hreq : a.request C with
  | some r =>
      obtain ⟨k, valid, d⟩ := r
      rw [objectNext_create hreq]
      exact hs.created fun h hh => ha.1 h hh k
  | none =>
      cases a with
      | destroy k object =>
          rw [objectNext_destroy]
          exact hs.destroyed object
      | expire xTimer => exact hs
      | mutexCreate | semCreate | queueCreate | timerCreate => cases hreq

/-! ### Runs -/

omit [DecidableEq H] in
/-- A table that represents the live objects holds them. -/
lemma PoolsKeep.holdsLive (hs : PoolsKeep s) (k : ObjectKind) : HoldsLive s k := by
  have hk := hs k
  refine ⟨fun h d hd => ?_, fun i hi => ?_, hk.ncard_le, fun h d => ?_⟩
  · obtain ⟨i, hi⟩ := (hk.data h d).mp hd
    refine ⟨i, hi, fun j hj => ?_⟩
    exact hk.alone j i h (congrArg Slot.used hj) (congrArg Slot.used hi) (congrArg Slot.key hj)
      (congrArg Slot.key hi)
  · obtain ⟨h, hh⟩ := Option.isSome_iff_exists.mp (hk.named i hi)
    exact ⟨h, _, hk.mem hh hi, slot_eq hh hi⟩
  · rw [createObject_none_iff]
    exact (hk.initOnce k.zero).findFree_none_iff

/-- **The tables hold the live objects**, in every state of a run, whatever was created and
destroyed in it. -/
theorem pools_hold_live_objects (ht : (objectSystem C).Reachable t) (k : ObjectKind) :
    HoldsLive t k := by
  have hkeep : PoolsKeep t := System.Reachable.invariant (S := objectSystem C) (P := PoolsKeep)
    (fun _ hs => ObjectsInitial.keep hs) (fun _ _ hs ha => PoolsKeep.next hs ha) ht
  exact hkeep.holdsLive k

/-- The callback that a slot's data stand for. -/
def TimerEntry.call (e : TimerEntry) : Option (ℕ × ℕ) :=
  e.callback.map fun callback => (callback, e.arg)

/-- The wrapper finds the live timer. -/
lemma timerCallbackWrapper_eq (hs : PoolsKeep s) (h : H) :
    timerCallbackWrapper (s.pools .timer) h = (s.live .timer h).bind TimerEntry.call := by
  have hlookup := (hs .timer).lookup_eq h
  rw [timerCallbackWrapper, hlookup]
  cases s.live .timer h <;> rfl

/-- The live timers are the registered ones. -/
def Registers (C : EspConfig) (l : List (EspObjects H × ObjectAct H)) (t : EspObjects H) : Prop :=
  ∀ h, (t.live .timer h).bind TimerEntry.call = registered C l h

/-- Creating an object of another kind registers nothing. -/
lemma Registers.created {l : List (EspObjects H × ObjectAct H)} (hreg : Registers C l s)
    (hk : .timer ≠ k) (handle : Option H) (q : ObjectPool H k) (d : k.Data) :
    Registers C l (s.created handle q d) := by
  intro h
  cases handle with
  | none => exact hreg h
  | some new =>
      rw [EspObjects.created]
      simp only [Function.update_of_ne hk]
      exact hreg h

/-- **The live timers stay the registered ones.** -/
lemma Registers.next {l : List (EspObjects H × ObjectAct H)} (hreg : Registers C l s)
    (a : ObjectAct H) : Registers C ((s, a) :: l) (objectNext C s a) := by
  intro h
  cases a with
  | mutexCreate | semCreate | queueCreate => exact hreg.created (by decide) _ _ _ h
  | expire xTimer => exact hreg h
  | timerCreate name periodMs periodic callback arg handle =>
      simp only [registered, objectNext, EspObjects.created]
      cases hret : (espTimerCreate C (s.pools .timer) name periodMs periodic callback arg
        handle).1.map Prod.fst with
      | none =>
          rw [if_neg (by simp)]
          exact hreg h
      | some new =>
          simp only [Function.update_self]
          by_cases hnew : h = new
          · subst hnew
            rw [if_pos rfl, Function.update_self]
            rfl
          · rw [if_neg (by simpa using Ne.symm hnew), Function.update_of_ne hnew]
            exact hreg h
  | destroy k object =>
      rw [objectNext_destroy]
      cases k with
      | mutex | sem | queue =>
          cases object with
          | none => exact hreg h
          | some old =>
              simp only [registered, EspObjects.destroyed, destroyObject]
              rw [Function.update_of_ne (by decide)]
              exact hreg h
      | timer =>
          cases object with
          | none =>
              rw [registered, if_neg (by simp)]
              exact hreg h
          | some old =>
              simp only [registered, EspObjects.destroyed, destroyObject, Function.update_self]
              by_cases hold : h = old
              · subst hold
                rw [if_pos rfl, Function.update_self]
                rfl
              · rw [if_neg (by simpa using Ne.symm hold), Function.update_of_ne hold]
                exact hreg h

/-- **The callbacks of a step are those that are registered.** -/
lemma objectNext_calls {l : List (EspObjects H × ObjectAct H)} (hs : PoolsKeep s)
    (hreg : Registers C l s) (hcalls : s.calls = registeredCalls C l) (a : ObjectAct H) :
    (objectNext C s a).calls = registeredCalls C ((s, a) :: l) := by
  cases a with
  | expire h =>
      calc (objectNext C s (.expire h)).calls
          = (timerCallbackWrapper (s.pools .timer) h).toList ++ s.calls := rfl
        _ = (registered C l h).toList ++ registeredCalls C l := by
            rw [timerCallbackWrapper_eq hs, hreg h, hcalls]
  | destroy k object =>
      rw [objectNext_destroy]
      exact hcalls
  | mutexCreate | semCreate | queueCreate | timerCreate => exact hcalls

/-- **A run makes the callbacks that its timers were created with.**  In every run, each expiry
calls the function that the timer was last created with, with its argument, if it was not destroyed
since, and no other; nothing else makes a callback. -/
theorem timer_calls_registered {l : List (EspObjects H × ObjectAct H)}
    (hs : (objectSystem C).init s) (hl : (objectSystem C).RunFrom s l t) :
    t.calls = registeredCalls C l := by
  have key : PoolsKeep t ∧ Registers C l t ∧ t.calls = registeredCalls C l := by
    induction hl with
    | refl =>
        refine ⟨ObjectsInitial.keep hs, fun h => ?_, hs.2.2⟩
        rw [hs.2.1 .timer h]
        rfl
    | step _ ha ih =>
        obtain ⟨hkeep, hreg, hcalls⟩ := ih
        exact ⟨hkeep.next ha, hreg.next _, objectNext_calls hkeep hreg hcalls _⟩
  exact key.2.2

/-- Before the first call. -/
def objectsStart (H : Type*) : EspObjects H where
  pools k := ⟨fun _ => ⟨none, false, k.zero⟩, false⟩
  live _ _ := none
  calls := []

omit [DecidableEq H] in
lemma objectsStart_initial : ObjectsInitial (objectsStart H) :=
  ⟨fun _ => rfl, fun _ _ => rfl, rfl⟩

/-- Queues of at most 20 messages of at most 64 bytes, and a tick of ten milliseconds. -/
def espDefaults : EspConfig := ⟨20, 64, by decide, by decide, fun ms => ms / 10⟩

/-- A timer that calls the function at 100 with `arg`. -/
def createTimer (arg handle : ℕ) : ObjectAct ℕ :=
  .timerCreate none 500 true (some 100) arg (some handle)

/-- A mutex that is destroyed gives its slot to the next one. -/
theorem mutex_slot_used_again :
    ∃ t, (objectSystem espDefaults).Reachable t ∧ (t.live .mutex 2).isSome = true ∧
      ((t.pools .mutex).slots ⟨0, by decide⟩).key = some 2 ∧ HoldsLive t .mutex := by
  obtain ⟨t, ht, hlive, hslot⟩ : ∃ t, (objectSystem espDefaults).Reachable t ∧
      (t.live .mutex 2).isSome = true ∧
      ((t.pools .mutex).slots ⟨0, by decide⟩).key = some 2 :=
    System.reachable_of_replay (s := objectsStart ℕ) objectsStart_initial
      [.mutexCreate (some 1), .destroy .mutex (some 1), .mutexCreate (some 2)] (by decide +kernel)
  exact ⟨t, ht, hlive, hslot, pools_hold_live_objects ht .mutex⟩

/-- Two timers, one of which is destroyed and another created with its handle. -/
theorem timers_call_their_own :
    ∃ t l, (objectSystem espDefaults).RunFrom (objectsStart ℕ) l t ∧
      t.calls = [(100, 8), (100, 9), (100, 7)] ∧ t.calls = registeredCalls espDefaults l := by
  obtain ⟨t, ht, hcalls⟩ : ∃ t ∈ (objectSystem espDefaults).replay (objectsStart ℕ)
      [createTimer 7 1, createTimer 8 2, .expire 1, .destroy .timer (some 1), .expire 1,
        createTimer 9 1, .expire 1, .expire 2],
      t.calls = [(100, 8), (100, 9), (100, 7)] := by decide +kernel
  have hrun := System.runFrom_of_replay ht
  exact ⟨t, _, hrun, hcalls, timer_calls_registered objectsStart_initial hrun⟩

end OpenHsm
