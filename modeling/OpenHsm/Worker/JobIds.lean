import OpenHsm.Worker.Slots

/-!
The ids of jobs over runs of any length.  They come from three places over one counter of 32
bits, and `0` doubles as "not set".

* `IdSys`, `issuedTo`, `admits`, `idSystem`: the pool with the ids that were given out, and
  which job a step gives an id, or puts in the queue.
* `Belongs`, `Identified`: an id is the job's own, and the jobs that wait have such ids.
* `next_id`, `idInv_step`: only the three places write ids.
* `GoodIds`, `identified_next_iff`, `job_ids_identify_iff`: the exact condition on a step, and
  along a run.
* `goodIds_of_few`: the first `2 ^ 32 - 1` ids meet it.  `wrapped_ids_collide` is the run that
  goes on.
-/

namespace OpenHsm

open Runs

variable {n : ℕ}

/-! ### The ids that were given out -/

/-- The pool and the ids given out so far, each with the job it was given to. -/
structure IdSys (n : ℕ) where
  sys : Sys n
  issued : List (UInt32 × JobRef)

/-- The id of a job. -/
def IdSys.id (s : IdSys n) (j : JobRef) : UInt32 := (s.sys.mem.jobs j).id

/-- The jobs that were accepted and still wait. -/
def IdSys.queue (s : IdSys n) : List JobRef := waiting s.sys.log

/-- The job that the step puts in the queue. -/
def admits (m : Memory) : Act n → Option JobRef
  | .submit _ j | .submitToHsm _ j _ _ =>
      if m.pool.stats.queueDepth < m.pool.queueSize then some j else none
  | _ => none

/-- The job that the step gives the next id. -/
def issuedTo (m : Memory) : Act n → Option JobRef
  | .init _ j _ => some j
  | .alloc _ => (findFreeSlot (initJobPool m)).map .slot
  | .submit _ j | .submitToHsm _ j _ _ =>
      if m.pool.stats.queueDepth < m.pool.queueSize ∧ (m.jobs j).id = 0 then some j else none
  | _ => none

/-- The step names a slot of `g_job_pool`. -/
def Act.namesSlot : Act n → Bool
  | .init _ (.slot _) _ | .submit _ (.slot _) | .submitToHsm _ (.slot _) _ _ => true
  | _ => false

/-- Slots are named only where the allocator was called before, which is where their addresses
come from. -/
def Named (m : Memory) (a : Act n) : Prop := a.namesSlot = true → m.gJobPoolInitialized = true

instance (m : Memory) (a : Act n) : Decidable (Named m a) :=
  inferInstanceAs (Decidable (_ → _))

/-- The pool from the start of the program on, with the ids that are given out. -/
def idSystem (n : ℕ) : System (IdSys n) (Act n) where
  init s := Initial s.sys ∧ (∀ j, s.id j = 0) ∧ s.sys.mem.gJobIdCounter = 0 ∧ s.issued = []
  enabled s a := enabled s.sys a ∧ Named s.sys.mem a
  next s a :=
    ⟨next s.sys a, ((issuedTo s.sys.mem a).map fun j => (s.sys.mem.gJobIdCounter + 1, j)).toList
      ++ s.issued⟩

instance (s : IdSys n) (a : Act n) : Decidable ((idSystem n).enabled s a) :=
  inferInstanceAs (Decidable (enabled s.sys a ∧ Named s.sys.mem a))

/-- The id is set, and was given to no other job. -/
def Belongs (s : IdSys n) (id : UInt32) (j : JobRef) : Prop :=
  id ≠ 0 ∧ ∀ p ∈ s.issued, p.1 = id → p.2 = j

/-- The jobs that wait have ids that are set and pairwise distinct, and whichever of them has
an id is the job that was given it. -/
structure Identified (s : IdSys n) : Prop where
  nonzero : ∀ j ∈ s.queue, s.id j ≠ 0
  distinct : ∀ j ∈ s.queue, ∀ k ∈ s.queue, s.id j = s.id k → j = k
  given : ∀ p ∈ s.issued, ∀ k ∈ s.queue, s.id k = p.1 → k = p.2

/-- The ids that the step gives out or accepts are good: a job enters the queue with an id of
its own, and no job is given the id of one that waits. -/
def GoodIds (s : IdSys n) (a : Act n) : Prop :=
  (∀ j ∈ admits s.sys.mem a,
    Belongs s (if s.id j = 0 then s.sys.mem.gJobIdCounter + 1 else s.id j) j) ∧
  ∀ j ∈ issuedTo s.sys.mem a,
    (∀ k ∈ s.queue, k ≠ j → s.id k ≠ s.sys.mem.gJobIdCounter + 1) ∧
    (j ∈ s.queue → Belongs s (s.sys.mem.gJobIdCounter + 1) j)

/-! ### What a step does to the ids -/

lemma assignId_id (m : Memory) (j : JobRef) :
    ((assignId m j).jobs j).id
      = if (m.jobs j).id = 0 then m.gJobIdCounter + 1 else (m.jobs j).id := by
  simp only [assignId, getNextJobId]
  split
  · exact congrArg Job.id (Memory.modifyJob_jobs_self ..)
  · rfl

/-- A submit gives an id to the job if it has none and there is room. -/
lemma osaWorkerPoolSubmit_id_eq (m : Memory) (j k : JobRef) :
    ((osaWorkerPoolSubmit m (some j)).2.jobs k).id
      = if k = j ∧ m.pool.stats.queueDepth < m.pool.queueSize ∧ (m.jobs j).id = 0
        then m.gJobIdCounter + 1 else (m.jobs k).id := by
  by_cases hkj : k = j
  · subst hkj
    rcases osaWorkerPoolSubmit_cases m k with ⟨hle, hr⟩ | ⟨hlt, hr, -⟩
    · rw [hr, if_neg]
      exact fun h => UInt32.not_le.mpr h.2.1 hle
    · rw [osaWorkerPoolSubmit_id m k hr, assignId_id]
      simp [hlt]
  · rw [if_neg fun h => hkj h.1]
    exact Memory.id_of_data (osaWorkerPoolSubmit_data_of_ne m hkj)

/-- Setting the target of a job does not write to its id. -/
lemma setTarget_id (m : Memory) (j : JobRef) (h : Option ℕ) (sig : Int) (k : JobRef) :
    ((m.setTarget j h sig).jobs k).id = (m.jobs k).id := by
  have hid : (fun k => ((m.setTarget j h sig).jobs k).id) = fun k => (m.jobs k).id :=
    m.modifyJob_view j Job.id fun _ => rfl
  exact congrFun hid k

/-- Nor does an execution. -/
lemma executeJob_id (m : Memory) (j : JobRef) (ret : Int) (k : JobRef) :
    ((executeJob m j ret).jobs k).id = (m.jobs k).id := by
  by_cases hk : k = j
  · rw [hk, executeJob, Memory.setResult, Memory.modifyJob_jobs_self]
  · rw [executeJob_jobs_of_ne m ret hk]

lemma initJobPool_counter (m : Memory) : (initJobPool m).gJobIdCounter = m.gJobIdCounter := by
  simp only [initJobPool]
  split <;> rfl

lemma initJobPool_id {m : Memory} (hz : m.gJobPoolInitialized = false →
    ∀ i, (m.jobs (.slot i)).id = 0) (k : JobRef) :
    ((initJobPool m).jobs k).id = (m.jobs k).id := by
  simp only [initJobPool]
  split
  · rfl
  · next hinit =>
      cases k with
      | object i => rfl
      | slot i => exact (hz (by simpa using hinit) i).symm

/-- An allocation gives an id to the slot it returns. -/
lemma osaWorkerJobAlloc_id {m : Memory} (hz : m.gJobPoolInitialized = false →
    ∀ i, (m.jobs (.slot i)).id = 0) (k : JobRef) :
    ((osaWorkerJobAlloc m).2.jobs k).id
      = if (findFreeSlot (initJobPool m)).map .slot = some k then m.gJobIdCounter + 1
        else (m.jobs k).id := by
  simp only [osaWorkerJobAlloc]
  cases hf : findFreeSlot (initJobPool m) with
  | none => exact initJobPool_id hz k
  | some i =>
      simp only [Option.map_some, Option.some.injEq]
      by_cases hk : JobRef.slot i = k
      · rw [if_pos hk, ← hk, ← initJobPool_counter m]
        simp [claimSlot, getNextJobId, Memory.modifyJob]
      · rw [if_neg hk, ← initJobPool_id hz k]
        simp only [claimSlot, getNextJobId]
        exact congrArg Job.id (Memory.modifyJob_jobs_of_ne _ _ _ (Ne.symm hk))

/-- **A step writes no id but that of the job it gives the next one.** -/
lemma next_id {s : Sys n} {a : Act n}
    (hz : s.mem.gJobPoolInitialized = false → ∀ i, (s.mem.jobs (.slot i)).id = 0) (k : JobRef) :
    ((next s a).mem.jobs k).id
      = if issuedTo s.mem a = some k then s.mem.gJobIdCounter + 1 else (s.mem.jobs k).id := by
  cases a with
  | init c j args =>
      simp only [issuedTo, Option.some.injEq]
      by_cases hk : j = k
      · rw [if_pos hk, ← hk]
        simp [next, osaWorkerJobInit, getNextJobId, Memory.modifyJob]
      · rw [if_neg hk]
        exact congrArg Job.id (osaWorkerJobInit_jobs_of_ne s.mem args (Ne.symm hk))
  | alloc c =>
      rw [next_alloc_mem]
      exact osaWorkerJobAlloc_id hz k
  | submit c j =>
      refine (osaWorkerPoolSubmit_id_eq s.mem j k).trans (if_congr ?_ rfl rfl)
      simp only [issuedTo, Option.ite_none_right_eq_some, Option.some.injEq]
      exact ⟨fun h => ⟨h.2, h.1.symm⟩, fun h => ⟨h.2.symm, h.1⟩⟩
  | submitToHsm c j h sig =>
      refine (osaWorkerPoolSubmit_id_eq _ j k).trans ?_
      simp only [setTarget_id, Memory.setTarget_pool]
      refine if_congr ?_ rfl rfl
      simp only [issuedTo, Option.ite_none_right_eq_some, Option.some.injEq]
      exact ⟨fun h => ⟨h.2, h.1.symm⟩, fun h => ⟨h.2.symm, h.1⟩⟩
  | execute w ret =>
      simp only [next]
      split
      · exact executeJob_id s.mem _ ret k
      · rfl
  | _ => exact Memory.id_of_data (next_data (fun h => h))

/-- The slots stay initialised. -/
lemma next_initialized {s : Sys n} {a : Act n} (h : s.mem.gJobPoolInitialized = true) :
    (next s a).mem.gJobPoolInitialized = true := by
  cases slotMove s a with
  | same _ hinit => exact hinit.trans h
  | alloc c _ hmem _ _ =>
      rw [hmem]
      exact osaWorkerJobAlloc_initialized s.mem
  | free j _ hmem _ =>
      rw [hmem]
      cases j <;> exact h

/-! ### What a step does to the queue -/

/-- Only an acceptance of the job puts it in the queue. -/
lemma mem_waiting_of_append {es l : List (Event n)} {j : JobRef}
    (hes : ∀ e ∈ es, e.settles ≠ some j) (hj : j ∈ waiting (es ++ l)) : j ∈ waiting l := by
  induction es with
  | nil => exact hj
  | cons e es ih =>
      obtain ⟨he, hes⟩ := List.forall_mem_cons.mp hes
      refine ih hes ?_
      cases e with
      | accepted k =>
          have hjk : j ≠ k := by
            rintro rfl
            exact he rfl
          simpa [waiting, hjk] using hj
      | dequeued w k => exact List.mem_of_mem_erase hj
      | cancelled k id => exact List.mem_of_mem_erase hj
      | _ => exact hj

lemma admits_eq_of_accepted {s : Sys n} {a : Act n} {j : JobRef} (h : a.submits j)
    (hlog : (next s a).log = .accepted j :: s.log) : admits s.mem a = some j := by
  have hroom : ∀ (m : Memory) (c : ℕ), m.pool = s.mem.pool →
      (afterSubmit s c j (osaWorkerPoolSubmit m (some j))).log = .accepted j :: s.log →
      s.mem.pool.stats.queueDepth < s.mem.pool.queueSize := by
    intro m c hm hl
    rcases osaWorkerPoolSubmit_cases m j with ⟨-, hr⟩ | ⟨hlt, -, -⟩
    · simp [afterSubmit, hr, submitEvent] at hl
    · exact hm ▸ hlt
  rcases h with ⟨c, rfl⟩ | ⟨c, t, sig, rfl⟩
  · exact if_pos (hroom _ c rfl hlog)
  · exact if_pos (hroom _ c (Memory.setTarget_pool ..) hlog)

/-- A job that waits after a step waited before, or the step put it in the queue. -/
lemma mem_waiting_next {s : Sys n} {a : Act n} {j : JobRef} (hj : j ∈ waiting (next s a).log) :
    j ∈ waiting s.log ∨ admits s.mem a = some j := by
  rcases next_log s a j with ⟨es, hlog, hes⟩ | ⟨hreuse, -, e, hlog, he⟩
  · rw [hlog] at hj
    exact Or.inl (mem_waiting_of_append hes hj)
  · cases e with
    | accepted k =>
        obtain rfl : k = j := Option.some.inj he
        rcases hreuse with (⟨c, args, rfl⟩ | hsub) | ⟨c, i, rfl, -, hr⟩
        · cases (List.cons.inj hlog).1
        · exact Or.inr (admits_eq_of_accepted hsub hlog)
        · simp [next, hr] at hlog
    | initialised k =>
        rw [hlog] at hj
        exact Or.inl hj
    | allocated i =>
        rw [hlog] at hj
        exact Or.inl hj
    | _ => cases he

lemma waiting_next_of_admits {s : Sys n} {a : Act n} {j : JobRef}
    (h : admits s.mem a = some j) : waiting (next s a).log = waiting s.log ++ [j] := by
  have hwait : ∀ (m : Memory) (c : ℕ), m.pool = s.mem.pool →
      s.mem.pool.stats.queueDepth < s.mem.pool.queueSize →
      waiting (afterSubmit s c j (osaWorkerPoolSubmit m (some j))).log = waiting s.log ++ [j] := by
    intro m c hm hroom
    rcases osaWorkerPoolSubmit_cases m j with ⟨hle, -⟩ | ⟨-, hr, -⟩
    · exact absurd (hm ▸ hroom) (UInt32.not_lt.mpr hle)
    · simp [afterSubmit, hr, submitEvent, waiting]
  cases a with
  | submit c k =>
      obtain ⟨hroom, hk⟩ := Option.ite_none_right_eq_some.mp h
      obtain rfl := Option.some.inj hk
      exact hwait _ c rfl hroom
  | submitToHsm c k t sig =>
      obtain ⟨hroom, hk⟩ := Option.ite_none_right_eq_some.mp h
      obtain rfl := Option.some.inj hk
      exact hwait _ c (Memory.setTarget_pool ..) hroom
  | _ => cases h

/-- An init or an allocation leaves the queue. -/
lemma waiting_next_of_issued {s : Sys n} {a : Act n} {j : JobRef}
    (h : issuedTo s.mem a = some j) (hadm : admits s.mem a = none) :
    waiting (next s a).log = waiting s.log := by
  cases a with
  | init c k args => rfl
  | alloc c =>
      simp only [next]
      split <;> rfl
  | submit c k =>
      obtain ⟨hroom, -⟩ := Option.ite_none_right_eq_some.mp h
      simp [admits, hroom.1] at hadm
  | submitToHsm c k t sig =>
      obtain ⟨hroom, -⟩ := Option.ite_none_right_eq_some.mp h
      simp [admits, hroom.1] at hadm
  | _ => cases h

/-- A job is put in the queue with the next id if it has none. -/
lemma issuedTo_of_admits {m : Memory} {a : Act n} {j : JobRef} (h : admits m a = some j) :
    issuedTo m a = if (m.jobs j).id = 0 then some j else none := by
  cases a with
  | submit c k =>
      obtain ⟨hroom, hk⟩ := Option.ite_none_right_eq_some.mp h
      obtain rfl := Option.some.inj hk
      simp [issuedTo, hroom]
  | submitToHsm c k t sig =>
      obtain ⟨hroom, hk⟩ := Option.ite_none_right_eq_some.mp h
      obtain rfl := Option.some.inj hk
      simp [issuedTo, hroom]
  | _ => cases h

/-! ### One step -/

/-- Ids are written where they are given out only, and the slots have none before the allocator
is called. -/
structure IdInv (s : IdSys n) : Prop where
  issued : ∀ j, s.id j ≠ 0 → (s.id j, j) ∈ s.issued
  fresh : s.sys.mem.gJobPoolInitialized = false → ∀ i, s.id (.slot i) = 0

lemma IdInv.initial {s : IdSys n} (h : (idSystem n).init s) : IdInv s :=
  ⟨fun j hj => absurd (h.2.1 j) hj, fun _ _ => h.2.1 _⟩

lemma idSystem_id {s : IdSys n} {a : Act n} (h : IdInv s) (k : JobRef) :
    ((idSystem n).next s a).id k
      = if issuedTo s.sys.mem a = some k then s.sys.mem.gJobIdCounter + 1 else s.id k :=
  next_id h.fresh k

lemma mem_issued_next {s : IdSys n} {a : Act n} {p : UInt32 × JobRef} :
    p ∈ ((idSystem n).next s a).issued ↔
      (issuedTo s.sys.mem a = some p.2 ∧ p.1 = s.sys.mem.gJobIdCounter + 1) ∨ p ∈ s.issued := by
  show p ∈ (((issuedTo s.sys.mem a).map fun j => (s.sys.mem.gJobIdCounter + 1, j)).toList
    ++ s.issued) ↔ _
  rw [List.mem_append, Option.mem_toList, Option.map_eq_some_iff]
  refine or_congr_left ⟨?_, ?_⟩
  · rintro ⟨j, hj, rfl⟩
    exact ⟨hj, rfl⟩
  · rintro ⟨hj, hp⟩
    exact ⟨p.2, hj, by rw [← hp]⟩

/-- A slot that gets an id was asked of the allocator. -/
lemma issuedTo_slot {m : Memory} {a : Act n} {i : Fin osaJobPoolSize}
    (h : issuedTo m a = some (.slot i)) (hn : Named m a) :
    m.gJobPoolInitialized = true ∨ ∃ c, a = .alloc c := by
  cases a with
  | init c k args =>
      obtain rfl := Option.some.inj h
      exact Or.inl (hn rfl)
  | alloc c => exact Or.inr ⟨c, rfl⟩
  | submit c k =>
      obtain ⟨-, hk⟩ := Option.ite_none_right_eq_some.mp h
      obtain rfl := Option.some.inj hk
      exact Or.inl (hn rfl)
  | submitToHsm c k t sig =>
      obtain ⟨-, hk⟩ := Option.ite_none_right_eq_some.mp h
      obtain rfl := Option.some.inj hk
      exact Or.inl (hn rfl)
  | _ => cases h

/-- **Ids are given out and kept.** -/
lemma idInv_step {s : IdSys n} {a : Act n} (h : IdInv s) (ha : (idSystem n).enabled s a) :
    IdInv ((idSystem n).next s a) := by
  refine ⟨fun j hj => ?_, fun hinit i => ?_⟩
  · rw [mem_issued_next, idSystem_id h]
    rw [idSystem_id h] at hj
    by_cases hij : issuedTo s.sys.mem a = some j
    · exact Or.inl ⟨hij, if_pos hij⟩
    · rw [if_neg hij] at hj ⊢
      exact Or.inr (h.issued j hj)
  · have hold : s.sys.mem.gJobPoolInitialized = false := by
      by_contra htrue
      have hnext := next_initialized (a := a) (by simpa using htrue)
      exact absurd (hnext.symm.trans hinit) (by simp)
    rw [idSystem_id h, if_neg, h.fresh hold]
    intro hij
    rcases issuedTo_slot hij ha.2 with htrue | ⟨c, rfl⟩
    · exact absurd (htrue.symm.trans hold) (by simp)
    · have hnext : (next s.sys (.alloc c)).mem.gJobPoolInitialized = true := by
        rw [next_alloc_mem]
        exact osaWorkerJobAlloc_initialized _
      exact absurd (hnext.symm.trans hinit) (by simp)

/-- The jobs that wait are identified exactly if each has an id of its own. -/
lemma identified_iff {s : IdSys n} (h : IdInv s) :
    Identified s ↔ ∀ j ∈ s.queue, Belongs s (s.id j) j := by
  constructor
  · intro hs j hj
    exact ⟨hs.nonzero j hj, fun p hp hid => (hs.given p hp j hj hid.symm).symm⟩
  · intro hs
    refine ⟨fun j hj => (hs j hj).1, fun j hj k hk hid => ?_, fun p hp k hk hid => ?_⟩
    · have hkid := h.issued k (hs k hk).1
      exact ((hs j hj).2 _ hkid hid.symm).symm
    · exact ((hs k hk).2 p hp hid.symm).symm

/-- An id that was the job's own and is not given to another one stays so. -/
lemma belongs_next_iff {s : IdSys n} {a : Act n} {id : UInt32} {j : JobRef} :
    Belongs ((idSystem n).next s a) id j ↔ Belongs s id j ∧
      ∀ k, issuedTo s.sys.mem a = some k → s.sys.mem.gJobIdCounter + 1 = id → k = j := by
  constructor
  · rintro ⟨hid, hown⟩
    refine ⟨⟨hid, fun p hp => hown p (mem_issued_next.mpr (Or.inr hp))⟩, fun k hk he => ?_⟩
    exact hown (s.sys.mem.gJobIdCounter + 1, k) (mem_issued_next.mpr (Or.inl ⟨hk, rfl⟩)) he
  · rintro ⟨⟨hid, hown⟩, hnew⟩
    refine ⟨hid, fun p hp he => ?_⟩
    rcases mem_issued_next.mp hp with ⟨hp, hp1⟩ | hp
    · exact hnew p.2 hp (hp1 ▸ he)
    · exact hown p hp he

/-- The jobs that wait keep ids of their own exactly if no other job is given one of them, and
the one that is given the next id may have it. -/
lemma queue_belongs_next_iff {s : IdSys n} {a : Act n} (h : IdInv s)
    (hown : ∀ j ∈ s.queue, Belongs s (s.id j) j) :
    (∀ j ∈ s.queue, Belongs ((idSystem n).next s a) (((idSystem n).next s a).id j) j) ↔
      ∀ k ∈ issuedTo s.sys.mem a,
        (∀ j ∈ s.queue, j ≠ k → s.id j ≠ s.sys.mem.gJobIdCounter + 1) ∧
        (k ∈ s.queue → Belongs s (s.sys.mem.gJobIdCounter + 1) k) := by
  constructor
  · intro hnext k hk
    refine ⟨fun j hj hne he => ?_, fun hkq => ?_⟩
    · have hj' : issuedTo s.sys.mem a ≠ some j := fun hj' =>
        hne (Option.some.inj (hj'.symm.trans hk))
      have hb := hnext j hj
      rw [idSystem_id h, if_neg hj', belongs_next_iff] at hb
      exact hne (hb.2 k hk he.symm).symm
    · have hb := hnext k hkq
      rw [idSystem_id h, if_pos (Option.mem_def.mp hk), belongs_next_iff] at hb
      exact hb.1
  · intro hgood j hj
    rw [idSystem_id h, belongs_next_iff]
    by_cases hj' : issuedTo s.sys.mem a = some j
    · rw [if_pos hj']
      exact ⟨(hgood j hj').2 hj, fun k hk _ => Option.some.inj (hk.symm.trans hj')⟩
    · rw [if_neg hj']
      refine ⟨hown j hj, fun k hk he => ?_⟩
      have hne : j ≠ k := by
        rintro rfl
        exact hj' hk
      exact absurd he.symm ((hgood k hk).1 j hj hne)

/-- So does the job that is put in the queue. -/
lemma admitted_belongs_iff {s : IdSys n} {a : Act n} {j : JobRef} (h : IdInv s)
    (hadm : admits s.sys.mem a = some j) :
    Belongs ((idSystem n).next s a) (((idSystem n).next s a).id j) j ↔
      Belongs s (if s.id j = 0 then s.sys.mem.gJobIdCounter + 1 else s.id j) j := by
  have hissued := issuedTo_of_admits hadm
  rw [idSystem_id h, belongs_next_iff]
  by_cases hz : s.id j = 0
  · have hto : issuedTo s.sys.mem a = some j := hissued.trans (if_pos hz)
    rw [if_pos hto, if_pos hz]
    exact and_iff_left fun k hk _ => Option.some.inj (hk.symm.trans hto)
  · have hto : issuedTo s.sys.mem a = none := hissued.trans (if_neg hz)
    rw [hto, if_neg (by simp), if_neg hz]
    exact and_iff_left fun k hk => by cases hk

/-- **A step keeps the jobs that wait identified exactly if the ids it gives out or accepts are
good.** -/
lemma identified_next_iff {s : IdSys n} {a : Act n} (hs : Identified s) (h : IdInv s)
    (ha : (idSystem n).enabled s a) :
    Identified ((idSystem n).next s a) ↔ GoodIds s a := by
  have hown := (identified_iff h).mp hs
  rw [identified_iff (idInv_step h ha), GoodIds, ← queue_belongs_next_iff h hown]
  cases hadm : admits s.sys.mem a with
  | none =>
      rw [and_iff_right (fun j hj => by cases hj)]
      cases hissued : issuedTo s.sys.mem a with
      | none =>
          -- nothing enters the queue and no id is given out
          have hkeep := (queue_belongs_next_iff (a := a) h hown).mpr
            (fun k hk => by rw [hissued] at hk; cases hk)
          refine iff_of_true (fun j hj => hkeep j ?_) hkeep
          rcases mem_waiting_next hj with hj | hj
          · exact hj
          · rw [hadm] at hj
            cases hj
      | some k =>
          have hq : ((idSystem n).next s a).queue = s.queue := waiting_next_of_issued hissued hadm
          rw [hq]
  | some j =>
      have hq : ((idSystem n).next s a).queue = s.queue ++ [j] := waiting_next_of_admits hadm
      rw [hq, List.forall_mem_append, List.forall_mem_singleton, admitted_belongs_iff h hadm,
        and_comm]
      exact and_congr_left fun _ => ⟨fun hb k hk => by obtain rfl := Option.some.inj hk; exact hb,
        fun hb => hb j rfl⟩

/-! ### Runs of any length -/

/-- The search of a cancel stops at a job with the id. -/
lemma cancelSearch_id {m : Memory} {id : UInt32} {fuel : ℕ} {p : Option JobRef} {k : JobRef}
    (h : cancelSearch m id fuel p = some (some k)) : (m.jobs k).id = id := by
  induction fuel generalizing p with
  | zero => cases p <;> cases h
  | succ fuel ih =>
      cases p with
      | none => cases h
      | some j =>
          rw [cancelSearch] at h
          by_cases hid : (m.jobs j).id = id
          · rw [if_pos hid, Option.some.injEq, Option.some.injEq] at h
            exact h ▸ hid
          · rw [if_neg hid] at h
            exact ih h

/-- A cancel that stops at a job that waits stops at the one that was given the id, and there
is no other that waits with it. -/
lemma Identified.cancel {s : IdSys n} (h : Identified s) {id : UInt32} {fuel : ℕ} {k : JobRef}
    (hc : cancelSearch s.sys.mem id fuel s.sys.mem.pool.jobQueueHead = some (some k))
    (hk : k ∈ s.queue) :
    (∀ j ∈ s.queue, s.id j = id → j = k) ∧ ∀ j, (id, j) ∈ s.issued → j = k := by
  have hid : s.id k = id := cancelSearch_id hc
  exact ⟨fun j hj hj' => h.distinct j hj k hk (hj'.trans hid.symm),
    fun j hj => (h.given _ hj k hk hid).symm⟩

/-- **Job ids identify jobs exactly along the runs that give out and accept good ids.**  In
every state of a run the jobs that wait have ids that are set and pairwise distinct, and
whichever has an id is the job that was given it, exactly if each step meets `GoodIds`; a cancel
can then match one waiting job at most, and no other than the job that was given the id. -/
theorem job_ids_identify_iff {s t : IdSys n} {l : List (IdSys n × Act n)}
    (hs : (idSystem n).init s) (hl : (idSystem n).RunFrom s l t) :
    ((Identified t ∧ ∀ p ∈ l, Identified p.1) ↔ ∀ p ∈ l, GoodIds p.1 p.2) ∧
      (Identified t → ∀ id fuel k,
        cancelSearch t.sys.mem id fuel t.sys.mem.pool.jobQueueHead = some (some k) →
        k ∈ t.queue →
        (∀ j ∈ t.queue, t.id j = id → j = k) ∧ ∀ j, (id, j) ∈ t.issued → j = k) := by
  have hempty : s.queue = [] := by rw [IdSys.queue, hs.1.log_eq, waiting]
  have hstart : Identified s := (identified_iff (IdInv.initial hs)).mpr (by simp [hempty])
  exact ⟨hl.forall_iff hstart (IdInv.initial hs)
      (fun u a hP hJ ha => identified_next_iff hP hJ ha) (fun u a _ hJ ha _ => idInv_step hJ ha),
    fun ht id fuel k hc hk => ht.cancel hc hk⟩

/-! ### The first ids -/

lemma enqueueJob_counter (m : Memory) (j : JobRef) :
    (enqueueJob m j).gJobIdCounter = m.gJobIdCounter := by
  simp only [enqueueJob]
  split <;> rfl

lemma cancelJob_counter (m : Memory) (j : JobRef) :
    (cancelJob m j).gJobIdCounter = m.gJobIdCounter := by
  simp only [cancelJob, unlinkJob, unlinkBackward, unlinkForward]
  split <;> split <;> rfl

lemma dequeueJob_counter (m : Memory) : (dequeueJob m).2.gJobIdCounter = m.gJobIdCounter := by
  rw [dequeueJob]
  split
  · rfl
  · dsimp only
    split <;> rfl

lemma osaWorkerPoolSubmit_counter (m : Memory) (j : JobRef) :
    (osaWorkerPoolSubmit m (some j)).2.gJobIdCounter
      = if m.pool.stats.queueDepth < m.pool.queueSize ∧ (m.jobs j).id = 0
        then m.gJobIdCounter + 1 else m.gJobIdCounter := by
  rcases osaWorkerPoolSubmit_cases m j with ⟨hle, hr⟩ | ⟨hlt, -, hr⟩
  · rw [hr, if_neg fun h => UInt32.not_le.mpr h.1 hle]
  · rw [hr]
    refine (enqueueJob_counter _ j).trans ?_
    rw [assignId]
    by_cases hz : (m.jobs j).id = 0
    · rw [if_pos hz, if_pos ⟨hlt, hz⟩]
      rfl
    · rw [if_neg hz, if_neg fun h => hz h.2]

lemma osaWorkerJobAlloc_counter (m : Memory) :
    (osaWorkerJobAlloc m).2.gJobIdCounter
      = if (findFreeSlot (initJobPool m)).isSome then m.gJobIdCounter + 1
        else m.gJobIdCounter := by
  rw [osaWorkerJobAlloc, ← initJobPool_counter m]
  cases findFreeSlot (initJobPool m) <;> rfl

/-- The counter counts the ids that are given out. -/
lemma next_counter (s : Sys n) (a : Act n) :
    (next s a).mem.gJobIdCounter
      = if (issuedTo s.mem a).isSome then s.mem.gJobIdCounter + 1 else s.mem.gJobIdCounter := by
  cases a with
  | init c j args => rfl
  | alloc c =>
      rw [next_alloc_mem, osaWorkerJobAlloc_counter, issuedTo, Option.isSome_map]
  | submit c j =>
      refine (osaWorkerPoolSubmit_counter s.mem j).trans ?_
      simp [issuedTo]
  | submitToHsm c j h sig =>
      refine (osaWorkerPoolSubmit_counter _ j).trans ?_
      simp [issuedTo, Memory.setTarget, Memory.modifyJob]
  | cancel id fuel =>
      rcases next_cancel_cases s id fuel with hnext | hnext | ⟨j, hnext⟩ <;> rw [hnext]
      · rfl
      · rfl
      · exact cancelJob_counter s.mem j
  | free c j => cases j <;> rfl
  | dequeue w =>
      rcases next_dequeue_cases s w with ⟨-, hnext⟩ | ⟨-, -, hnext⟩ | ⟨j, -, -, hnext⟩ <;>
        rw [hnext]
      · rfl
      · rfl
      · exact dequeueJob_counter s.mem
  | notify w =>
      cases hw : s.pc w with
      | notifying j e =>
          simp only [next, hw, notifyStep]
          split <;> rfl
      | _ => simp [next, hw, issuedTo]
  | handledFree h =>
      simp only [next]
      split
      · next j _ _ => cases j <;> rfl
      · rfl
  | execute w ret | finish w | waitCall x j t | waitTake x | waitFail x err | waitReturn x
  | stopPost =>
      simp only [next]
      split <;> rfl
  | take w | stopBegin | stopJoin w | hsmStart h | post h sig | receive h | handled h => rfl

/-- As long as fewer than `2 ^ 32` ids were given out, they are `1`, `2`, and so on. -/
structure Counted (s : IdSys n) : Prop where
  counter : s.sys.mem.gJobIdCounter.toNat = s.issued.length
  range : ∀ p ∈ s.issued, p.1 ≠ 0 ∧ p.1.toNat ≤ s.issued.length
  once : (s.issued.map Prod.fst).Nodup

/-- The next id is set and new as long as the counter does not wrap. -/
lemma Counted.fresh {s : IdSys n} (h : Counted s) (hfew : s.issued.length + 1 < 2 ^ 32) :
    (s.sys.mem.gJobIdCounter + 1).toNat = s.issued.length + 1 ∧
      s.sys.mem.gJobIdCounter + 1 ≠ 0 ∧
      ∀ p ∈ s.issued, p.1 ≠ s.sys.mem.gJobIdCounter + 1 := by
  have hnew : (s.sys.mem.gJobIdCounter + 1).toNat = s.issued.length + 1 := by
    rw [UInt32.toNat_add, UInt32.toNat_one, h.counter]
    omega
  refine ⟨hnew, fun hz => ?_, fun p hp he => ?_⟩
  · have hzero : (s.sys.mem.gJobIdCounter + 1).toNat = 0 := congrArg UInt32.toNat hz
    omega
  · have hle := (h.range p hp).2
    have heq : p.1.toNat = (s.sys.mem.gJobIdCounter + 1).toNat := congrArg UInt32.toNat he
    omega

/-- A step that gives out an id puts it in front of the others. -/
lemma idSystem_issued {s : IdSys n} {a : Act n} :
    ((idSystem n).next s a).issued = s.issued ∧ issuedTo s.sys.mem a = none ∨
      ∃ j, ((idSystem n).next s a).issued = (s.sys.mem.gJobIdCounter + 1, j) :: s.issued ∧
        issuedTo s.sys.mem a = some j := by
  have hnext : ((idSystem n).next s a).issued
      = ((issuedTo s.sys.mem a).map fun j => (s.sys.mem.gJobIdCounter + 1, j)).toList
        ++ s.issued := rfl
  cases hto : issuedTo s.sys.mem a with
  | none => exact Or.inl ⟨by rw [hnext, hto]; rfl, rfl⟩
  | some j => exact Or.inr ⟨j, by rw [hnext, hto]; rfl, rfl⟩

lemma Counted.next {s : IdSys n} {a : Act n} (h : Counted s)
    (hfew : ((idSystem n).next s a).issued.length < 2 ^ 32) :
    Counted ((idSystem n).next s a) := by
  have hcounter : ((idSystem n).next s a).sys.mem.gJobIdCounter = _ := next_counter s.sys a
  rcases idSystem_issued (s := s) (a := a) with ⟨hissued, hto⟩ | ⟨j, hissued, hto⟩
  · rw [hto, if_neg (by simp)] at hcounter
    refine ⟨?_, ?_, ?_⟩
    · rw [hcounter, hissued, h.counter]
    · rw [hissued]
      exact h.range
    · rw [hissued]
      exact h.once
  · rw [hto, if_pos (by simp)] at hcounter
    rw [hissued, List.length_cons] at hfew
    obtain ⟨hnew, hnz, hne⟩ := h.fresh hfew
    refine ⟨?_, ?_, ?_⟩
    · rw [hcounter, hissued, hnew, List.length_cons]
    · rw [hissued, List.length_cons]
      refine List.forall_mem_cons.mpr ⟨⟨hnz, hnew.le⟩, fun p hp => ?_⟩
      obtain ⟨hpz, hle⟩ := h.range p hp
      exact ⟨hpz, by omega⟩
    · rw [hissued, List.map_cons, List.nodup_cons]
      refine ⟨fun hmem => ?_, h.once⟩
      obtain ⟨p, hp, he⟩ := List.mem_map.mp hmem
      exact hne p hp he

/-- A step that keeps to the first ids keeps to good ones. -/
lemma Counted.goodIds {s : IdSys n} {a : Act n} (h : Counted s) (hinv : IdInv s)
    (hfew : ((idSystem n).next s a).issued.length < 2 ^ 32) : GoodIds s a := by
  have hfresh : ∀ k, issuedTo s.sys.mem a = some k → s.sys.mem.gJobIdCounter + 1 ≠ 0 ∧
      ∀ p ∈ s.issued, p.1 ≠ s.sys.mem.gJobIdCounter + 1 := by
    intro k hk
    rcases idSystem_issued (s := s) (a := a) with ⟨-, hto⟩ | ⟨j, hissued, -⟩
    · rw [hto] at hk
      cases hk
    · rw [hissued, List.length_cons] at hfew
      exact (h.fresh hfew).2
  have hbelongs : ∀ k, issuedTo s.sys.mem a = some k →
      Belongs s (s.sys.mem.gJobIdCounter + 1) k := fun k hk =>
    ⟨(hfresh k hk).1, fun p hp he => absurd he ((hfresh k hk).2 p hp)⟩
  refine ⟨fun j hj => ?_, fun k hk => ⟨fun j _ _ he => ?_, fun _ => hbelongs k hk⟩⟩
  · have hto := issuedTo_of_admits hj
    by_cases hz : s.id j = 0
    · rw [if_pos hz]
      exact hbelongs j (hto.trans (if_pos hz))
    · rw [if_neg hz]
      refine ⟨hz, fun p hp he => ?_⟩
      -- an id that was given out once was given to the job that has it
      exact congrArg Prod.snd (List.inj_on_of_nodup_map h.once hp (hinv.issued j hz) he)
  · have hj : s.id j ≠ 0 := he ▸ (hfresh k hk).1
    exact (hfresh k hk).2 _ (hinv.issued j hj) he

lemma Counted.initial {s : IdSys n} (h : (idSystem n).init s) : Counted s := by
  obtain ⟨-, -, hcounter, hissued⟩ := h
  refine ⟨?_, ?_, ?_⟩
  · rw [hcounter, hissued]
    rfl
  · simp [hissued]
  · simp [hissued]

/-- **The first `2 ^ 32 - 1` ids are good.** -/
theorem goodIds_of_few {s t : IdSys n} {l : List (IdSys n × Act n)} (hs : (idSystem n).init s)
    (hl : (idSystem n).RunFrom s l t) (hfew : t.issued.length < 2 ^ 32) :
    ∀ p ∈ l, GoodIds p.1 p.2 := by
  have key : IdInv t ∧ Counted t ∧ ∀ p ∈ l, GoodIds p.1 p.2 := by
    induction hl with
    | refl => exact ⟨IdInv.initial hs, Counted.initial hs, by simp⟩
    | @step l u a _ ha ih =>
        have hle : u.issued.length ≤ ((idSystem n).next u a).issued.length := by
          rcases idSystem_issued (s := u) (a := a) with ⟨hissued, -⟩ | ⟨j, hissued, -⟩
          · rw [hissued]
          · rw [hissued, List.length_cons]
            omega
        obtain ⟨hinv, hc, hgood⟩ := ih (hle.trans_lt hfew)
        exact ⟨idInv_step hinv ha, hc.next hfew,
          List.forall_mem_cons.mpr ⟨hc.goodIds hinv hfew, hgood⟩⟩
  exact key.2.2

/-- The pool at the start of the program, all memory zero. -/
def idStart (n : ℕ) : IdSys n := ⟨startState n 1 64 1, []⟩

lemma idStart_init : (idSystem n).init (idStart n) :=
  ⟨startState_initial 1 64 1, fun _ => rfl, rfl, rfl⟩

/-- A slot that is allocated and an object that is zeroed wait with the ids `1` and `2`. -/
theorem first_ids_identify :
    ∃ t l, (idSystem 1).RunFrom (idStart 1) l t ∧ t.queue = [.slot 0, .object 0] ∧
      t.id (.slot 0) = 1 ∧ t.id (.object 0) = 2 ∧ Identified t := by
  obtain ⟨t, ht, hq, hslot, hobject, hfew⟩ : ∃ t ∈ (idSystem 1).replay (idStart 1)
      [.alloc 0, .submit 0 (.slot 0), .submit 1 (.object 0)], t.queue = [.slot 0, .object 0] ∧
      t.id (.slot 0) = 1 ∧ t.id (.object 0) = 2 ∧ t.issued.length < 2 ^ 32 := by decide +kernel
  have hrun := System.runFrom_of_replay ht
  have hgood := goodIds_of_few idStart_init hrun hfew
  exact ⟨t, _, hrun, hq, hslot, hobject,
    ((job_ids_identify_iff idStart_init hrun).1.mpr hgood).1⟩

/-! ### Past the last id -/

lemma idSystem_idInv {s : IdSys n} (h : (idSystem n).Reachable s) : IdInv s :=
  h.invariant (fun _ hs => IdInv.initial hs) (fun _ _ hu ha => idInv_step hu ha)

/-- Job object `0` is initialised `k` times over. -/
lemma init_many {s : IdSys n} (hs : (idSystem n).Reachable s) (hfree : LockFree s.sys) (k : ℕ) :
    ∃ t, (idSystem n).Reachable t ∧ LockFree t.sys ∧
      t.sys.mem.gJobIdCounter = s.sys.mem.gJobIdCounter + UInt32.ofNat k ∧
      t.sys.mem.pool = s.sys.mem.pool ∧ t.queue = s.queue ∧
      ∀ j, j ≠ .object 0 → t.id j = s.id j := by
  induction k with
  | zero => exact ⟨s, hs, hfree, by simp, rfl, rfl, fun _ _ => rfl⟩
  | succ k ih =>
      obtain ⟨t, ht, hfree', hcounter, hpool, hqueue, hid⟩ := ih
      have hen : (idSystem n).enabled t (.init 0 (.object 0) ⟨none, none, none, none⟩) :=
        ⟨trivial, fun h => by cases h⟩
      refine ⟨_, ht.next hen, hfree', ?_, hpool, hqueue, fun j hj => ?_⟩
      · show t.sys.mem.gJobIdCounter + 1 = _
        rw [hcounter, UInt32.ofNat_add, UInt32.add_assoc]
        rfl
      · rw [idSystem_id (idSystem_idInv ht), if_neg, hid j hj]
        intro hto
        exact hj (Option.some.inj hto).symm

/-- A zeroed job object is submitted, and there is room. -/
lemma submit_zeroed {s : IdSys n} (hs : (idSystem n).Reachable s) (hfree : LockFree s.sys)
    {x : ℕ} (hx : s.id (.object x) = 0)
    (hroom : s.sys.mem.pool.stats.queueDepth < s.sys.mem.pool.queueSize) :
    ∃ t, (idSystem n).Reachable t ∧ LockFree t.sys ∧
      t.sys.mem.gJobIdCounter = s.sys.mem.gJobIdCounter + 1 ∧
      t.sys.mem.pool.queueSize = s.sys.mem.pool.queueSize ∧
      t.sys.mem.pool.stats.queueDepth = s.sys.mem.pool.stats.queueDepth + 1 ∧
      t.queue = s.queue ++ [.object x] ∧ t.id (.object x) = s.sys.mem.gJobIdCounter + 1 ∧
      ∀ j, j ≠ .object x → t.id j = s.id j := by
  have hen : (idSystem n).enabled s (.submit 0 (.object x)) :=
    ⟨hfree, fun h => by cases h⟩
  have hadm : admits s.sys.mem (.submit 0 (.object x) : Act n) = some (.object x) := if_pos hroom
  have hto : issuedTo s.sys.mem (.submit 0 (.object x) : Act n) = some (.object x) :=
    (issuedTo_of_admits hadm).trans (if_pos hx)
  have hinv := idSystem_idInv hs
  refine ⟨_, hs.next hen, hfree, ?_, ?_, ?_, waiting_next_of_admits hadm, ?_, fun j hj => ?_⟩
  · refine (next_counter s.sys _).trans ?_
    rw [hto]
    rfl
  · show (osaWorkerPoolSubmit s.sys.mem (some (.object x))).2.pool.queueSize = _
    rcases osaWorkerPoolSubmit_cases s.sys.mem (.object x) with ⟨-, hr⟩ | ⟨-, -, hr⟩
    · rw [hr]
    · rw [hr]
      simp
  · show (osaWorkerPoolSubmit s.sys.mem (some (.object x))).2.pool.stats.queueDepth = _
    rcases osaWorkerPoolSubmit_cases s.sys.mem (.object x) with ⟨hle, -⟩ | ⟨-, -, hr⟩
    · exact absurd hroom (UInt32.not_lt.mpr hle)
    · rw [hr]
      simp
  · rw [idSystem_id hinv, if_pos hto]
  · rw [idSystem_id hinv, if_neg]
    intro hto'
    exact hj (Option.some.inj (hto.symm.trans hto')).symm

/-- **After `2 ^ 32` ids a job waits without an id, and another one with an id that is taken**:
job `1` waits with id `1` while job object `0` is initialised `2 ^ 32 - 2` times; the jobs `2`
and `3` that are submitted then get the ids `0` and `1`. -/
theorem wrapped_ids_collide :
    ∃ t, (idSystem 1).Reachable t ∧ t.queue = [.object 1, .object 2, .object 3] ∧
      t.id (.object 1) = 1 ∧ t.id (.object 2) = 0 ∧ t.id (.object 3) = 1 ∧ ¬ Identified t := by
  have h0 : (idSystem 1).Reachable (idStart 1) := ⟨_, [], idStart_init, System.RunFrom.refl⟩
  obtain ⟨s₁, h₁, hf₁, hc₁, hsize₁, hd₁, hq₁, hid₁, hothers₁⟩ :=
    submit_zeroed h0 (x := 1) (fun _ => rfl) rfl (by decide)
  obtain ⟨s₂, h₂, hf₂, hc₂, hp₂, hq₂, hothers₂⟩ := init_many h₁ hf₁ (2 ^ 32 - 2)
  have hcounter : s₂.sys.mem.gJobIdCounter + 1 = 0 := by
    rw [hc₂, hc₁]
    decide
  obtain ⟨s₃, h₃, hf₃, hc₃, hsize₃, hd₃, hq₃, hid₃, hothers₃⟩ :=
    submit_zeroed h₂ hf₂ (x := 2)
      ((hothers₂ _ (by decide)).trans (hothers₁ _ (by decide)))
      (by rw [hp₂, hsize₁, hd₁]; decide)
  obtain ⟨t, ht, -, -, -, -, hqt, hidt, hotherst⟩ :=
    submit_zeroed h₃ hf₃ (x := 3)
      ((hothers₃ _ (by decide)).trans
        ((hothers₂ _ (by decide)).trans (hothers₁ _ (by decide))))
      (by rw [hd₃, hsize₃, hp₂, hsize₁, hd₁]; decide)
  have hqueue : t.queue = [.object 1, .object 2, .object 3] := by
    rw [hqt, hq₃, hq₂, hq₁]
    rfl
  have hid1 : t.id (.object 1) = 1 := by
    rw [hotherst _ (by decide), hothers₃ _ (by decide), hothers₂ _ (by decide), hid₁]
    rfl
  have hid2 : t.id (.object 2) = 0 := by
    rw [hotherst _ (by decide), hid₃, hcounter]
  have hid3 : t.id (.object 3) = 1 := by
    rw [hidt, hc₃, hcounter]
    rfl
  refine ⟨t, ht, hqueue, hid1, hid2, hid3, fun h => ?_⟩
  exact h.nonzero (.object 2) (by rw [hqueue]; simp) hid2

end OpenHsm
