import OpenHsm.Library.Assignment
import OpenHsm.Library.Runs

/-!
The task slots of `platform/esp32/osa_thread.c`, each with a stack and a control block.

* `TaskSlot`, `TaskPool`: `task_pool`, a slot's handle and whether it is used.
* `findFreeTaskSlot`, `osaThreadCreate`, `freeTaskSlot`, `osaThreadDestroy`: the functions of the
  file.  `TaskSys.taskWrapperEnd` is what `task_wrapper` does when its function has returned.
* `taskSystem`: threads are created, return and are destroyed, one call after another.
* `SlotsTrack`: the slots that are marked are those of the live tasks.
* `Assigned`: the live tasks as an assignment of handles to slots, which the marks cover.
* `live_tasks_hold_slots`: no two live tasks ever share a slot.
* `marks_eq_live_add_returns`, `exhausted_by_returns`: every task that returns leaves its mark, and
  sixteen that do are the last.  `task_slots_track_iff`: the slots keep track exactly if none does.
-/

namespace OpenHsm

open Assignment Runs

/-! ### The table -/

/-- `OSA_MAX_TASKS`. -/
def osaMaxTasks : ℕ := 16

/-- `OSA_OK` and `OSA_ERR_INVALID_PARAM`. -/
def osaOk : ℤ := 0
def osaErrInvalidParam : ℤ := -2

/-- An entry of `task_pool`; a `NULL` handle is `none`. -/
structure TaskSlot (H : Type*) where
  handle : Option H
  used : Bool
  deriving DecidableEq, Repr

/-- `task_pool` and `task_pool_init`. -/
structure TaskPool (H : Type*) where
  slots : Fin osaMaxTasks → TaskSlot H
  init : Bool

variable {H : Type*}

/-- What `memset` makes of it, and what it is before. -/
def zeroSlots : Fin osaMaxTasks → TaskSlot H := fun _ => ⟨none, false⟩

/-- `task_pool_init_once`. -/
def taskPoolInitOnce (p : TaskPool H) : TaskPool H :=
  if p.init then p else ⟨zeroSlots, true⟩

/-- `find_free_task_slot`; `none` is `-1`. -/
def findFreeTaskSlot (p : TaskPool H) : Option (Fin osaMaxTasks) :=
  (List.finRange osaMaxTasks).find? fun i => !(p.slots i).used

def TaskPool.set (p : TaskPool H) (i : Fin osaMaxTasks) (slot : TaskSlot H) : TaskPool H :=
  { p with slots := Function.update p.slots i slot }

/-! ### Creating and destroying -/

/-- `struct osa_thread_param`, of which `osa_thread_create` does not read `stack_buf`. -/
structure OsaThreadParam where
  name : Option String
  stackSize : ℤ
  priority : ℤ
  deriving DecidableEq, Repr

/-- `configMAX_PRIORITIES` and `sizeof(StackType_t)`. -/
structure RtosConfig where
  configMaxPriorities : UInt32
  sizeofStackType : UInt32

/-- `struct task_wrapper_arg`, the function and its argument as addresses. -/
structure TaskWrapperArg where
  func : ℕ
  arg : ℕ
  deriving DecidableEq, Repr

/-- What `xTaskCreateStatic` is called with; the stack and the control block are those of
`slot`. -/
structure StaticTask where
  name : String
  stackDepth : UInt32
  wrapper : TaskWrapperArg
  priority : UInt32
  slot : Fin osaMaxTasks
  deriving DecidableEq, Repr

def staticTask (C : RtosConfig) (param : OsaThreadParam) (func arg : ℕ)
    (slot : Fin osaMaxTasks) : StaticTask :=
  let freertosPriority := UInt32.ofInt (param.priority + 1)
  { name := param.name.getD "osa_task"
    stackDepth := UInt32.ofInt param.stackSize / C.sizeofStackType
    wrapper := ⟨func, arg⟩
    priority := if freertosPriority > C.configMaxPriorities - 1 then C.configMaxPriorities - 1
      else freertosPriority
    slot }

/-- The kernel has the priority that the task is created with. -/
lemma staticTask_priority_lt {C : RtosConfig} (hC : 0 < C.configMaxPriorities)
    (param : OsaThreadParam) (func arg : ℕ) (slot : Fin osaMaxTasks) :
    (staticTask C param func arg slot).priority < C.configMaxPriorities := by
  have hlast : C.configMaxPriorities - 1 < C.configMaxPriorities := by grind
  simp only [staticTask]
  split
  · exact hlast
  · next hle => exact UInt32.lt_of_le_of_lt (UInt32.not_lt.mp hle) hlast

/-- `osa_thread_create`, with what `malloc` and `xTaskCreateStatic` answer: the handle it returns
with the task it has created, and the table. -/
def osaThreadCreate (C : RtosConfig) (p : TaskPool H) (param : Option OsaThreadParam)
    (func : Option ℕ) (arg : ℕ) (mallocOk : Bool) (handle : Option H) :
    Option (H × StaticTask) × TaskPool H :=
  let p := taskPoolInitOnce p
  match param, func with
  | some param, some func =>
      match findFreeTaskSlot p with
      | none => (none, p)
      | some slot =>
          if mallocOk then
            match handle with
            | none => (none, p)
            | some handle =>
                (some (handle, staticTask C param func arg slot), p.set slot ⟨some handle, true⟩)
          else (none, p)
  | _, _ => (none, p)

/-- The loop of `osa_thread_destroy`. -/
def freeTaskSlot [DecidableEq H] (p : TaskPool H) (handle : H) : TaskPool H :=
  match (List.finRange osaMaxTasks).find?
    fun i => decide ((p.slots i).handle = some handle) && (p.slots i).used with
  | some i => p.set i ⟨none, false⟩
  | none => p

/-- `osa_thread_destroy`: what it returns, the handle it gives to `vTaskDelete`, and the
table. -/
def osaThreadDestroy [DecidableEq H] (p : TaskPool H) (thread : Option H) :
    ℤ × Option H × TaskPool H :=
  match thread with
  | none => (osaErrInvalidParam, none, p)
  | some handle => (osaOk, some handle, freeTaskSlot p handle)

/-! ### The tasks -/

/-- A live task: one of `osa_thread_create`, or one that was made elsewhere. -/
inductive LiveTask where
  | pooled (task : StaticTask)
  | other
  deriving DecidableEq, Repr

def LiveTask.slot : LiveTask → Option (Fin osaMaxTasks)
  | .pooled task => some task.slot
  | .other => none

/-- The table, and the live tasks by their handles. -/
structure TaskSys (H : Type*) where
  pool : TaskPool H
  tasks : H → Option LiveTask

/-- `vTaskDelete`; with `NULL` it is the task that calls it. -/
def TaskSys.vTaskDelete [DecidableEq H] (s : TaskSys H) (handle : H) : TaskSys H :=
  { s with tasks := Function.update s.tasks handle none }

/-- The end of `task_wrapper`, in the task with the handle `self`. -/
def TaskSys.taskWrapperEnd [DecidableEq H] (s : TaskSys H) (self : H) : TaskSys H :=
  s.vTaskDelete self

/-- One step of the system.  `mallocOk` and `handle` are what `malloc` and `xTaskCreateStatic`
answer. -/
inductive TaskAct (H : Type*) where
  | create (param : Option OsaThreadParam) (func : Option ℕ) (arg : ℕ) (mallocOk : Bool)
      (handle : Option H)
  /-- The function of a thread returns. -/
  | returns (handle : H)
  | destroy (thread : Option H)
  deriving DecidableEq, Repr

def TaskAct.isReturn : TaskAct H → Bool
  | .returns _ => true
  | .create .. | .destroy _ => false

/-- The task is live, on the stack and the control block of the slot. -/
def RunsIn (s : TaskSys H) (h : H) (i : Fin osaMaxTasks) : Prop :=
  (s.tasks h).bind LiveTask.slot = some i

/-- When a step can be taken: `xTaskCreateStatic` gives a new task a handle that no live task
has. -/
def taskEnabled (s : TaskSys H) : TaskAct H → Prop
  | .create _ _ _ _ handle => ∀ h ∈ handle, s.tasks h = none
  | .returns handle => ((s.tasks handle).bind LiveTask.slot).isSome = true
  | .destroy thread => ∀ h ∈ thread, (s.tasks h).isSome = true

instance (s : TaskSys H) (a : TaskAct H) : Decidable (taskEnabled s a) :=
  match a with
  | .create _ _ _ _ handle => inferInstanceAs (Decidable (∀ h ∈ handle, s.tasks h = none))
  | .returns handle =>
      inferInstanceAs (Decidable (((s.tasks handle).bind LiveTask.slot).isSome = true))
  | .destroy thread => inferInstanceAs (Decidable (∀ h ∈ thread, (s.tasks h).isSome = true))

/-- The effect of a step. -/
def taskNext [DecidableEq H] (C : RtosConfig) (s : TaskSys H) : TaskAct H → TaskSys H
  | .create param func arg mallocOk handle =>
      match osaThreadCreate C s.pool param func arg mallocOk handle with
      | (some (h, task), pool) => ⟨pool, Function.update s.tasks h (some (.pooled task))⟩
      | (none, pool) => { s with pool }
  | .returns handle => s.taskWrapperEnd handle
  | .destroy thread =>
      match osaThreadDestroy s.pool thread with
      | (_, some h, pool) => { s with pool }.vTaskDelete h
      | (_, none, pool) => { s with pool }

/-- No thread was created yet. -/
def TaskInitial (s : TaskSys H) : Prop :=
  s.pool.init = false ∧ s.pool.slots = zeroSlots ∧ ∀ h i, ¬ RunsIn s h i

/-- The table and the tasks. -/
def taskSystem [DecidableEq H] (C : RtosConfig) : System (TaskSys H) (TaskAct H) where
  init := TaskInitial
  enabled := taskEnabled
  next := taskNext C

instance [DecidableEq H] (C : RtosConfig) (s : TaskSys H) (a : TaskAct H) :
    Decidable ((taskSystem C).enabled s a) :=
  inferInstanceAs (Decidable (taskEnabled s a))

/-! ### What is asked -/

/-- There is no slot for `osa_thread_create`. -/
def LacksSlot (p : TaskPool H) : Prop := findFreeTaskSlot (taskPoolInitOnce p) = none

/-- The slots keep track of the live tasks: those that are marked are theirs, no two tasks share
one, and there is none left only where each is the slot of a live task. -/
structure SlotsTrack (s : TaskSys H) : Prop where
  used : ∀ i, (s.pool.slots i).used = true ↔ ∃ h, RunsIn s h i
  alone : ∀ i h k, RunsIn s h i → RunsIn s k i → h = k
  full : LacksSlot s.pool → ∀ i, ∃ h, RunsIn s h i

/-! ### The functions -/

/-- The handle that marks a slot. -/
def TaskSlot.mark (slot : TaskSlot H) : Option H := if slot.used then slot.handle else none

/-- The marks of the table. -/
def TaskPool.mark (p : TaskPool H) (i : Fin osaMaxTasks) : Option H := (p.slots i).mark

/-- The table is zero until its first use, and a slot that is used has a handle. -/
structure PoolOk (p : TaskPool H) : Prop where
  fresh : p.init = false → p.slots = zeroSlots
  named : ∀ i, (p.slots i).used = true → (p.slots i).handle.isSome = true

variable {C : RtosConfig} {p : TaskPool H} {i : Fin osaMaxTasks} {h : H}

lemma mark_eq_some_iff :
    p.mark i = some h ↔ (p.slots i).handle = some h ∧ (p.slots i).used = true := by
  rw [TaskPool.mark, TaskSlot.mark]
  cases hused : (p.slots i).used <;> simp

/-- The marks show which slots are used. -/
lemma PoolOk.used_iff (hp : PoolOk p) : (p.slots i).used = true ↔ (p.mark i).isSome = true := by
  constructor
  · intro hused
    obtain ⟨k, hk⟩ := Option.isSome_iff_exists.mp (hp.named i hused)
    rw [mark_eq_some_iff.mpr ⟨hk, hused⟩]
    rfl
  · intro hmark
    obtain ⟨k, hk⟩ := Option.isSome_iff_exists.mp hmark
    exact (mark_eq_some_iff.mp hk).2

/-- The first call finds the table as it would make it. -/
lemma PoolOk.init_slots (hp : PoolOk p) : (taskPoolInitOnce p).slots = p.slots := by
  rw [taskPoolInitOnce]
  split
  · rfl
  · next hinit => exact (hp.fresh (by simpa using hinit)).symm

lemma PoolOk.initOnce (hp : PoolOk p) : PoolOk (taskPoolInitOnce p) := by
  refine ⟨fun hinit => ?_, fun i => ?_⟩
  · by_cases hb : p.init = true <;> simp [taskPoolInitOnce, hb] at hinit
  · rw [hp.init_slots]
    exact hp.named i

lemma PoolOk.mark_initOnce (hp : PoolOk p) : (taskPoolInitOnce p).mark = p.mark := by
  funext i
  rw [TaskPool.mark, TaskPool.mark, hp.init_slots]

lemma mark_set (slot : TaskSlot H) : (p.set i slot).mark = Function.update p.mark i slot.mark :=
  Function.comp_update TaskSlot.mark p.slots i slot

/-- `osa_thread_create` marks a slot. -/
lemma PoolOk.mark_start (hp : PoolOk p) : ((taskPoolInitOnce p).set i ⟨some h, true⟩).mark =
    Function.update p.mark i (some h) := by
  rw [mark_set, hp.mark_initOnce]
  rfl

/-- `osa_thread_destroy` wipes a mark. -/
lemma mark_wipe : (p.set i ⟨none, false⟩).mark = Function.update p.mark i none := mark_set _

/-- A slot is written, of a table in use. -/
lemma PoolOk.set (hp : PoolOk p) (hinit : p.init = true) {slot : TaskSlot H}
    (hslot : slot.used = true → slot.handle.isSome = true) : PoolOk (p.set i slot) := by
  refine ⟨fun hno => ?_, ?_⟩
  · rw [TaskPool.set, hinit] at hno
    cases hno
  · exact (Function.forall_update_iff p.slots fun _ slot => slot.used = true →
      slot.handle.isSome = true).mpr ⟨hslot, fun j _ => hp.named j⟩

/-- A mark shows that the table is in use. -/
lemma PoolOk.init_of_mark (hp : PoolOk p) (hmark : p.mark i = some h) : p.init = true := by
  by_contra hinit
  rw [TaskPool.mark, hp.fresh (by simpa using hinit)] at hmark
  cases hmark

/-- The slot that the search finds has no mark. -/
lemma PoolOk.mark_free (hp : PoolOk p) (hfind : findFreeTaskSlot (taskPoolInitOnce p) = some i) :
    p.mark i = none := by
  have hfree : ((taskPoolInitOnce p).slots i).used = false := by simpa using List.find?_some hfind
  rw [← hp.mark_initOnce, TaskPool.mark, TaskSlot.mark, hfree]
  rfl

lemma findFreeTaskSlot_none : findFreeTaskSlot p = none ↔ ∀ i, (p.slots i).used = true := by
  rw [findFreeTaskSlot, List.find?_eq_none]
  simp

/-- A call that creates nothing leaves the table; one that creates a task has found a free slot
for it, and marks that. -/
lemma osaThreadCreate_cases (C : RtosConfig) (p : TaskPool H) (param : Option OsaThreadParam)
    (func : Option ℕ) (arg : ℕ) (mallocOk : Bool) (handle : Option H) :
    osaThreadCreate C p param func arg mallocOk handle = (none, taskPoolInitOnce p) ∨
    ∃ h task, handle = some h ∧ findFreeTaskSlot (taskPoolInitOnce p) = some task.slot ∧
      osaThreadCreate C p param func arg mallocOk handle
        = (some (h, task), (taskPoolInitOnce p).set task.slot ⟨some h, true⟩) := by
  cases param with
  | none => exact Or.inl rfl
  | some param =>
      cases func with
      | none => exact Or.inl rfl
      | some func =>
          rw [osaThreadCreate]
          cases hfind : findFreeTaskSlot (taskPoolInitOnce p) with
          | none => exact Or.inl rfl
          | some slot =>
              cases mallocOk with
              | false => exact Or.inl rfl
              | true =>
                  cases handle with
                  | none => exact Or.inl rfl
                  | some h => exact Or.inr ⟨h, staticTask C param func arg slot, rfl, rfl, rfl⟩

/-- Where its arguments, the memory and the kernel are as it needs them, it fails for lack of a
slot. -/
lemma osaThreadCreate_none_iff {param : OsaThreadParam} {func arg : ℕ} :
    (osaThreadCreate C p (some param) (some func) arg true (some h)).1 = none ↔ LacksSlot p := by
  rw [osaThreadCreate, LacksSlot]
  cases hfind : findFreeTaskSlot (taskPoolInitOnce p) <;> simp

/-- The loop of `osa_thread_destroy` wipes a mark with the handle, if there is one. -/
lemma freeTaskSlot_cases [DecidableEq H] (p : TaskPool H) (h : H) :
    (∃ i, p.mark i = some h ∧ freeTaskSlot p h = p.set i ⟨none, false⟩) ∨
    (∀ i, p.mark i ≠ some h) ∧ freeTaskSlot p h = p := by
  rw [freeTaskSlot]
  split
  · next i hfind =>
      have hi := List.find?_some hfind
      rw [Bool.and_eq_true, decide_eq_true_eq] at hi
      exact Or.inl ⟨i, mark_eq_some_iff.mpr hi, rfl⟩
  · next hfind =>
      refine Or.inr ⟨fun i hi => ?_, rfl⟩
      have hno := List.find?_eq_none.mp hfind i (List.mem_finRange i)
      rw [Bool.and_eq_true, decide_eq_true_eq] at hno
      exact hno (mark_eq_some_iff.mp hi)

/-! ### The live tasks as an assignment -/

/-- The handles of the live tasks at their slots, which the marks cover.  No task that was made
elsewhere has a handle that marks a slot. -/
structure Assigned (s : TaskSys H) (e : Fin osaMaxTasks ≃. H) : Prop where
  tasks : ∀ h i, RunsIn s h i ↔ h ∈ e i
  pool : PoolOk s.pool
  covers : Covers s.pool.mark e
  own : ∀ i h, s.pool.mark i = some h → s.tasks h ≠ some .other

variable {s : TaskSys H} {e : Fin osaMaxTasks ≃. H}

/-- The slots keep track exactly if there are no more marks than live tasks. -/
lemma Assigned.slotsTrack_iff (hA : Assigned s e) :
    SlotsTrack s ↔ taken s.pool.mark = taken e := by
  have hshows : (∀ i, (s.pool.slots i).used = true ↔ ∃ h, RunsIn s h i) ↔
      taken s.pool.mark = taken e := by
    rw [← hA.covers.shows_iff]
    refine forall_congr' fun i => ?_
    rw [hA.pool.used_iff, exists_congr fun h => hA.tasks h i]
  rw [← hshows]
  refine ⟨SlotsTrack.used, fun hused => ⟨hused, fun i h k hh hk => ?_, fun hlacks i => ?_⟩⟩
  · exact Option.mem_unique ((hA.tasks h i).mp hh) ((hA.tasks k i).mp hk)
  · have hall := findFreeTaskSlot_none.mp hlacks i
    rw [hA.pool.init_slots] at hall
    exact (hused i).mp hall

/-- There are `n` more marks than live tasks. -/
def Lost (s : TaskSys H) (n : ℕ) : Prop :=
  ∃ e, Assigned s e ∧ taken s.pool.mark = taken e + n

variable {n : ℕ}

lemma Lost.slotsTrack_iff (hlost : Lost s n) : SlotsTrack s ↔ n = 0 := by
  obtain ⟨e, hA, hcount⟩ := hlost
  rw [hA.slotsTrack_iff]
  omega

variable [DecidableEq H]

lemma runsIn_start {pool : TaskPool H} {task : StaticTask} {k : H} {j : Fin osaMaxTasks}
    (hfresh : s.tasks h = none) :
    RunsIn ⟨pool, Function.update s.tasks h (some (.pooled task))⟩ k j ↔
      (j = task.slot ∧ k = h) ∨ RunsIn s k j := by
  rw [RunsIn, RunsIn]
  by_cases hk : k = h
  · subst hk
    simp [hfresh, LiveTask.slot, eq_comm]
  · simp [hk]

lemma runsIn_vTaskDelete {pool : TaskPool H} {k : H} {j : Fin osaMaxTasks} :
    RunsIn (({ s with pool } : TaskSys H).vTaskDelete h) k j ↔ k ≠ h ∧ RunsIn s k j := by
  rw [RunsIn, RunsIn, TaskSys.vTaskDelete]
  by_cases hk : k = h
  · subst hk
    simp
  · simp [hk]

/-- Where no task of elsewhere has a handle, none has it when a task of a slot starts or ends. -/
lemma update_ne_other {tasks : H → Option LiveTask} {live : Option LiveTask} {k : H}
    (hlive : live ≠ some .other) (hk : k ≠ h → tasks k ≠ some .other) :
    Function.update tasks h live k ≠ some .other := by
  by_cases hkh : k = h
  · subst hkh
    rwa [Function.update_self]
  · rw [Function.update_of_ne hkh]
    exact hk hkh

/-- A task starts in a free slot, which is marked with its handle. -/
lemma Assigned.start (hA : Assigned s e) {task : StaticTask} (hfresh : s.tasks h = none)
    (hfind : findFreeTaskSlot (taskPoolInitOnce s.pool) = some task.slot) :
    ∃ e', Assigned ⟨(taskPoolInitOnce s.pool).set task.slot ⟨some h, true⟩,
        Function.update s.tasks h (some (.pooled task))⟩ e' ∧ taken e' = taken e + 1 := by
  have hmark := hA.pool.mark_free hfind
  have hkey : e.symm h = none := by
    rw [Option.eq_none_iff_forall_not_mem]
    intro i hi
    have hruns : RunsIn s h i := (hA.tasks h i).mpr (e.mem_iff_mem.mp hi)
    rw [RunsIn, hfresh] at hruns
    cases hruns
  refine ⟨put e task.slot h (hA.covers.free hmark) hkey, ⟨fun k j => ?_, ?_, ?_, ?_⟩,
    taken_put (hA.covers.free hmark)⟩
  · rw [runsIn_start hfresh, mem_put, hA.tasks]
  · refine hA.pool.initOnce.set ?_ fun _ => rfl
    rw [taskPoolInitOnce]
    split
    · assumption
    · rfl
  · rw [hA.pool.mark_start]
    exact hA.covers.enter hmark hkey
  · intro j k hk
    rw [hA.pool.mark_start] at hk
    rcases marked_of_put hk with hkh | hold
    · exact update_ne_other (by simp) fun hne => absurd hkh hne
    · exact update_ne_other (by simp) fun _ => hA.own j k hold

/-- A task ends, whatever the call that ended it has wiped of the table, as long as the marks
cover what is left. -/
lemma Assigned.vTaskDelete (hA : Assigned s e) {pool : TaskPool H} {e' : Fin osaMaxTasks ≃. H}
    (he : ∀ k j, k ∈ e' j ↔ k ≠ h ∧ k ∈ e j) (hpool : PoolOk pool) (hcov : Covers pool.mark e')
    (hmark : ∀ i k, pool.mark i = some k → s.pool.mark i = some k) :
    Assigned (({ s with pool } : TaskSys H).vTaskDelete h) e' := by
  refine ⟨fun k j => ?_, hpool, hcov, fun i k hk => ?_⟩
  · rw [runsIn_vTaskDelete, he, hA.tasks]
  · exact update_ne_other (by simp) fun _ => hA.own i k (hmark i k hk)

/-- A task of a slot ends, and a mark with its handle is wiped. -/
lemma Assigned.wipe (hA : Assigned s e) {j : Fin osaMaxTasks} (hmem : h ∈ e i)
    (hj : s.pool.mark j = some h) :
    Assigned (({ s with pool := s.pool.set j ⟨none, false⟩ } : TaskSys H).vTaskDelete h)
      (vacate e i) := by
  refine hA.vTaskDelete (fun k j => mem_vacate_iff hmem)
    (hA.pool.set (hA.pool.init_of_mark hj) fun hused => by cases hused) ?_ fun a k hk => ?_
  · rw [mark_wipe]
    exact hA.covers.release hmem hj
  · rw [mark_wipe] at hk
    exact marked_of_clear hk

/-! ### Steps -/

/-- `osa_thread_create` marks a slot for every task that it creates. -/
lemma Lost.create (hlost : Lost s n) {param : Option OsaThreadParam} {func : Option ℕ} {arg : ℕ}
    {mallocOk : Bool} {handle : Option H} (hfresh : ∀ h ∈ handle, s.tasks h = none) :
    Lost (taskNext C s (.create param func arg mallocOk handle)) n := by
  obtain ⟨e, hA, hcount⟩ := hlost
  rw [taskNext]
  rcases osaThreadCreate_cases C s.pool param func arg mallocOk handle with
    hno | ⟨h, task, hhandle, hfind, hcreate⟩
  · rw [hno]
    refine ⟨e, ⟨hA.tasks, hA.pool.initOnce, ?_, ?_⟩, ?_⟩
    all_goals simp only [hA.pool.mark_initOnce]
    · exact hA.covers
    · exact hA.own
    · exact hcount
  · rw [hcreate]
    obtain ⟨e', hA', htaken⟩ := hA.start (hfresh h hhandle) hfind
    refine ⟨e', hA', ?_⟩
    calc taken ((taskPoolInitOnce s.pool).set task.slot ⟨some h, true⟩).mark
        = taken (Function.update s.pool.mark task.slot (some h)) := by rw [hA.pool.mark_start]
      _ = taken e + n + 1 := by rw [taken_put (hA.pool.mark_free hfind), hcount]
      _ = taken e' + n := by rw [htaken]; omega

/-- **A task that returns leaves its mark.** -/
lemma Lost.returns (hlost : Lost s n) (hlive : ((s.tasks h).bind LiveTask.slot).isSome = true) :
    Lost (taskNext C s (.returns h)) (n + 1) := by
  obtain ⟨e, hA, hcount⟩ := hlost
  obtain ⟨i, hi⟩ := Option.isSome_iff_exists.mp hlive
  have hmem : h ∈ e i := (hA.tasks h i).mp hi
  refine ⟨vacate e i, hA.vTaskDelete (fun k j => mem_vacate_iff hmem) hA.pool
    (hA.covers.leave i) (fun _ _ => id), ?_⟩
  have htaken := taken_vacate hmem
  show taken s.pool.mark = _
  omega

/-- `osa_thread_destroy` wipes a mark for every task of a slot that it ends. -/
lemma Lost.destroy (hlost : Lost s n) {thread : Option H}
    (hlive : ∀ h ∈ thread, (s.tasks h).isSome = true) :
    Lost (taskNext C s (.destroy thread)) n := by
  obtain ⟨e, hA, hcount⟩ := hlost
  cases thread with
  | none => exact ⟨e, hA, hcount⟩
  | some h =>
      obtain ⟨live, htask⟩ := Option.isSome_iff_exists.mp (hlive h rfl)
      rcases freeTaskSlot_cases s.pool h with ⟨j, hj, hfree⟩ | ⟨hno, hfree⟩
      all_goals simp only [taskNext, osaThreadDestroy, hfree]
      · cases live with
        | other => exact absurd htask (hA.own j h hj)
        | pooled task =>
            have hmem : h ∈ e task.slot := by
              rw [← hA.tasks, RunsIn, htask]
              rfl
            refine ⟨vacate e task.slot, hA.wipe hmem hj, ?_⟩
            have hwiped := taken_clear hj
            have htaken := taken_vacate hmem
            show taken (s.pool.set j ⟨none, false⟩).mark = _
            rw [mark_wipe]
            omega
      · -- the handle marks no slot, so the task was made elsewhere
        have hnot : ∀ i, h ∉ e i := fun i hi => hno i (hA.covers i h hi)
        refine ⟨e, hA.vTaskDelete (fun k j => ?_) hA.pool hA.covers fun _ _ => id, hcount⟩
        refine ⟨fun hk => ⟨?_, hk⟩, And.right⟩
        rintro rfl
        exact hnot j hk

/-- **A slot is lost with every task that returns, and with nothing else.** -/
lemma Lost.next (hlost : Lost s n) {a : TaskAct H} (ha : taskEnabled s a) :
    Lost (taskNext C s a) (n + if a.isReturn then 1 else 0) := by
  cases a with
  | create param func arg mallocOk handle => exact hlost.create ha
  | returns handle => exact hlost.returns ha
  | destroy thread => exact hlost.destroy ha

/-! ### Runs -/

omit [DecidableEq H] in
lemma TaskInitial.lost (hs : TaskInitial s) : Lost s 0 := by
  obtain ⟨-, hzero, hnone⟩ := hs
  have hmark : ∀ i, s.pool.mark i = none := fun i => by
    rw [TaskPool.mark, hzero]
    rfl
  refine ⟨⊥, ⟨fun h i => ?_, ⟨fun _ => hzero, fun i => ?_⟩, fun i h hi => ?_, fun i h hi => ?_⟩, ?_⟩
  · exact iff_of_false (hnone h i) (by simp)
  · rw [hzero]
    exact fun hused => by cases hused
  · cases hi
  · rw [hmark i] at hi
    cases hi
  · exact congrArg taken (funext hmark)

/-- **Each task that returns costs a slot.**  In every state of a run, the live tasks are at slots
of their own, each marked with its handle, and the slots that are marked besides are as many as the
tasks that have returned. -/
theorem marks_eq_live_add_returns {t : TaskSys H} {l : List (TaskSys H × TaskAct H)}
    (hs : (taskSystem C).init s) (hl : (taskSystem C).RunFrom s l t) :
    Lost t (l.countP fun p => p.2.isReturn) := by
  induction hl with
  | refl => exact TaskInitial.lost hs
  | step _ ha ih =>
      rw [List.countP_cons]
      exact ih.next ha

/-- **A live task has a slot to itself**, whatever has returned: it is marked with the handle of
the task, and no other live task is in it. -/
theorem live_tasks_hold_slots {t : TaskSys H} {l : List (TaskSys H × TaskAct H)}
    (hs : (taskSystem C).init s) (hl : (taskSystem C).RunFrom s l t) (hruns : RunsIn t h i) :
    t.pool.slots i = ⟨some h, true⟩ ∧ ∀ k, RunsIn t k i → k = h := by
  obtain ⟨e, hA, -⟩ := marks_eq_live_add_returns hs hl
  have hmem : h ∈ e i := (hA.tasks h i).mp hruns
  obtain ⟨hhandle, hused⟩ := mark_eq_some_iff.mp (hA.covers i h hmem)
  refine ⟨?_, fun k hk => Option.mem_unique ((hA.tasks k i).mp hk) hmem⟩
  rw [← hhandle, ← hused]

/-- **No thread is created after sixteen returns**, whatever was destroyed in between. -/
theorem exhausted_by_returns {t : TaskSys H} {l : List (TaskSys H × TaskAct H)}
    (hs : (taskSystem C).init s) (hl : (taskSystem C).RunFrom s l t)
    (hreturns : osaMaxTasks ≤ l.countP fun p => p.2.isReturn) (param : Option OsaThreadParam)
    (func : Option ℕ) (arg : ℕ) (mallocOk : Bool) (handle : Option H) :
    (osaThreadCreate C t.pool param func arg mallocOk handle).1 = none := by
  obtain ⟨e, hA, hcount⟩ := marks_eq_live_add_returns hs hl
  rcases osaThreadCreate_cases C t.pool param func arg mallocOk handle with
    hno | ⟨h, task, -, hfind, -⟩
  · rw [hno]
  · have hcard : Fintype.card (Fin osaMaxTasks) ≤ taken t.pool.mark := by
      rw [Fintype.card_fin]
      omega
    have hmark := isSome_of_card_le_taken hcard task.slot
    rw [hA.pool.mark_free hfind] at hmark
    cases hmark

/-- **The slots keep track of the live tasks exactly as long as no task returns.**  In a state of a
run, the slots that are marked are those of the live tasks, exactly if no step so far was the
return of a task's function, which ends the task and leaves its slot marked. -/
theorem task_slots_track_iff {t : TaskSys H} {l : List (TaskSys H × TaskAct H)}
    (hs : (taskSystem C).init s) (hl : (taskSystem C).RunFrom s l t) :
    SlotsTrack t ↔ ∀ p ∈ l, p.2.isReturn = false := by
  rw [(marks_eq_live_add_returns hs hl).slotsTrack_iff, List.countP_eq_zero]
  simp

/-- Before the first call, with no task. -/
def taskStart (H : Type*) : TaskSys H := ⟨⟨zeroSlots, false⟩, fun _ => none⟩

omit [DecidableEq H] in
lemma taskStart_initial : TaskInitial (taskStart H) :=
  ⟨rfl, rfl, fun _ _ hruns => by cases hruns⟩

/-- 25 priorities and a stack of bytes. -/
def espConfig : RtosConfig := ⟨25, 1⟩

/-- A `worker` is created, and its handle is the control block of its slot. -/
def createWorker (handle : Fin osaMaxTasks) : TaskAct (Fin osaMaxTasks) :=
  .create (some ⟨some "worker", 4096, 5⟩) (some 1) 0 true (some handle)

/-- A pool of threads that are destroyed in any order gets its slots back. -/
theorem destroyed_tasks_free_slots :
    ∃ t l, (taskSystem espConfig).RunFrom (taskStart (Fin osaMaxTasks)) l t ∧
      (∃ h i, RunsIn t h i) ∧ SlotsTrack t := by
  obtain ⟨t, ht, hruns, hnone⟩ : ∃ t ∈ (taskSystem espConfig).replay (taskStart _)
      ([createWorker ⟨0, by decide⟩, createWorker ⟨1, by decide⟩, .destroy (some ⟨0, by decide⟩),
        .destroy none, createWorker ⟨0, by decide⟩, .destroy (some ⟨1, by decide⟩)]),
      (t.tasks ⟨0, by decide⟩).bind LiveTask.slot = some ⟨0, by decide⟩ ∧
      ∀ p ∈ (taskSystem espConfig).history (taskStart _)
        [createWorker ⟨0, by decide⟩, createWorker ⟨1, by decide⟩, .destroy (some ⟨0, by decide⟩),
          .destroy none, createWorker ⟨0, by decide⟩, .destroy (some ⟨1, by decide⟩)],
        p.2.isReturn = false := by decide +kernel
  have hrun := System.runFrom_of_replay ht
  exact ⟨t, _, hrun, ⟨_, _, hruns⟩, (task_slots_track_iff taskStart_initial hrun).mpr hnone⟩

/-- **Sixteen tasks that return use up the table**: no task is live, and no thread can be
created. -/
theorem returned_tasks_use_up_slots :
    ∃ t, (taskSystem espConfig).Reachable t ∧ (∀ h : Fin osaMaxTasks, t.tasks h = none) ∧
      (∀ param func arg h,
        (osaThreadCreate espConfig t.pool (some param) (some func) arg true (some h)).1 = none) ∧
      ¬ SlotsTrack t := by
  obtain ⟨t, ht, hnone, hfull⟩ : ∃ t, (taskSystem espConfig).Reachable t ∧
      (∀ h : Fin osaMaxTasks, t.tasks h = none) ∧
      findFreeTaskSlot (taskPoolInitOnce t.pool) = none :=
    System.reachable_of_replay (s := taskStart _) taskStart_initial
      ((List.finRange osaMaxTasks).flatMap fun k => [createWorker k, .returns k])
      (by decide +kernel)
  refine ⟨t, ht, hnone, fun _ _ _ _ => osaThreadCreate_none_iff.mpr hfull, fun htrack => ?_⟩
  obtain ⟨h, hruns⟩ := htrack.full hfull ⟨0, by decide⟩
  rw [RunsIn, hnone h] at hruns
  cases hruns

end OpenHsm
