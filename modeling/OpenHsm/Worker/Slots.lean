import OpenHsm.Worker.Moves

/-!
The owners of the static job slots.

* `SlotMove`, `slotMove`: which steps change the owners or initialise the slots.
* `FreeCompleted`: an unowned slot is `COMPLETED`, so the allocator sees every free slot.
* `firstUnowned`, `OwnedHidden`: the slot an allocation should return, and the condition
  under which it does: a finished slot that is still owned lies behind an unowned one.
* `alloc_first_unowned_iff`: the allocator returns the first unowned slot exactly then,
  since it takes an owned slot for free as soon as its job is `COMPLETED` or `CANCELLED`.
  `finished_slot_given_away` is the run in which a slot gets a second owner.
-/

namespace OpenHsm

open Runs

variable {n : ℕ}

/-- What the step may do to the owners and to `g_job_pool_initialized`. -/
inductive SlotMove (s : Sys n) (a : Act n) : Prop
  | same : (next s a).owner = s.owner →
      (next s a).mem.gJobPoolInitialized = s.mem.gJobPoolInitialized → SlotMove s a
  | alloc (c : ℕ) : a = .alloc c → (next s a).mem = (osaWorkerJobAlloc s.mem).2 →
      (∀ i, (osaWorkerJobAlloc s.mem).1 = some i →
        (next s a).owner = Function.update s.owner i (some c)) →
      ((osaWorkerJobAlloc s.mem).1 = none → (next s a).owner = s.owner) → SlotMove s a
  | free (j : JobRef) : ((∃ c, a = .free c j) ∨ ∃ x, a = .handledFree x) →
      (next s a).mem = (freeStep s j).mem → (next s a).owner = (freeStep s j).owner →
      SlotMove s a

@[simp] lemma osaWorkerPoolSubmit_initialized (m : Memory) (j : JobRef) :
    (osaWorkerPoolSubmit m (some j)).2.gJobPoolInitialized = m.gJobPoolInitialized := by
  rcases osaWorkerPoolSubmit_cases m j with ⟨-, hr⟩ | ⟨-, -, hr⟩
  · rw [hr]
  · rw [hr]; simp

lemma slotMove (s : Sys n) (a : Act n) : SlotMove s a := by
  cases a with
  | init c k args => exact .same rfl rfl
  | alloc c =>
      cases hr : (osaWorkerJobAlloc s.mem).1 with
      | none =>
          refine .alloc c rfl (next_alloc_mem s c) (fun i hi => ?_)
            (fun _ => by simp only [next, hr])
          rw [hr] at hi; cases hi
      | some k =>
          refine .alloc c rfl (next_alloc_mem s c) (fun i hi => ?_) (fun hi => ?_)
          · rw [hr] at hi
            obtain rfl := Option.some.inj hi
            simp only [next, hr]
          · rw [hr] at hi; cases hi
  | free c k => exact .free k (Or.inl ⟨c, rfl⟩) rfl rfl
  | submit c k => exact .same rfl (osaWorkerPoolSubmit_initialized ..)
  | submitToHsm c k t sig => exact .same rfl (osaWorkerPoolSubmit_initialized ..)
  | cancel id fuel =>
      rcases next_cancel_cases s id fuel with hnext | hnext | ⟨j, hnext⟩
      · exact .same (by rw [hnext]) (by rw [hnext])
      · exact .same (by rw [hnext]) (by rw [hnext])
      · exact .same (by rw [hnext]) (by rw [hnext]; simp [cancelJob])
  | dequeue w =>
      rcases next_dequeue_cases s w with ⟨-, hnext⟩ | ⟨-, -, hnext⟩ | ⟨k, -, hhead, hnext⟩
      · exact .same (by rw [hnext]) (by rw [hnext])
      · exact .same (by rw [hnext]) (by rw [hnext])
      · exact .same (by rw [hnext]) (by rw [hnext]; exact dequeueJob_initialized hhead)
  | execute w ret => cases hw : s.pc w <;> refine .same ?_ ?_ <;> simp [next, hw, executeJob]
  | finish w => cases hw : s.pc w <;> refine .same ?_ ?_ <;> simp [next, hw]
  | notify w =>
      cases hw : s.pc w with
      | notifying k e =>
          cases hh : (s.mem.jobs k).targetHsm <;> refine .same ?_ ?_ <;>
            simp [next, hw, notifyStep, hh]
      | _ => refine .same ?_ ?_ <;> simp [next, hw]
  | handledFree x =>
      cases hh : (s.hsm x).handling with
      | none => refine .same ?_ ?_ <;> simp [next, hh]
      | some msg =>
          cases msg with
          | other sig => refine .same ?_ ?_ <;> simp [next, hh]
          | completion sig j e =>
              refine .free j (Or.inr ⟨x, rfl⟩) ?_ ?_ <;> simp [next, hh, setHsm]
  | waitCall x k t => refine .same ?_ ?_ <;> (simp only [next]; split <;> rfl)
  | waitTake x | waitFail x err | waitReturn x | stopPost =>
      refine .same ?_ ?_ <;> (simp only [next]; split <;> rfl)
  | take w | stopBegin | stopJoin w | hsmStart k | post k sig | receive k | handled k =>
      exact .same rfl rfl

/-! ### Free slots -/

/-- Once the slots are initialised, an unowned one is `COMPLETED`. -/
def FreeCompleted (s : Sys n) : Prop :=
  s.mem.gJobPoolInitialized = true → ∀ i, s.owner i = none → s.mem.state (.slot i) = .completed

/-- A slot that a step initialises, submits or frees has an owner. -/
lemma owned_of_renews {s : Sys n} {a : Act n} (hd : Discipline s a) {i : Fin osaJobPoolSize}
    (h : a.renews (.slot i)) : s.owner i ≠ none := by
  have howns : ∃ c, Owns s c (.slot i) := by
    rcases h with ⟨c, args, rfl⟩ | ⟨c, rfl⟩ | ⟨c, t, sig, rfl⟩ <;> exact ⟨c, hd.1⟩
  obtain ⟨c, hc⟩ := howns
  exact owner_ne_none hc i rfl

lemma FreeCompleted.step {s : Sys n} {b : Option JobRef} {a : Act n} (hf : FreeCompleted s)
    (h : QueueInv s b) (ha : enabled s a) (hd : Discipline s a) : FreeCompleted (next s a) := by
  intro hinit i hi
  cases slotMove s a with
  | same howner hsame =>
      rw [howner] at hi
      rw [hsame] at hinit
      have hmove := h.next_state ha hd (.slot i)
      have hidle : ¬ Busy s (.slot i) := fun hb => h.owned i hb hi
      generalize (next s a).mem.state (.slot i) = st at hmove ⊢
      cases hmove with
      | same => exact hf hinit i hi
      | picked _ _ _ _ hj => exact absurd (Or.inl hj) hidle
      | cancelled _ _ _ hj => exact absurd (Or.inl hj) hidle
      | finished w _ hw => exact absurd (Or.inr ⟨w, hw⟩) hidle
      | renewed hren => exact absurd hi (owned_of_renews hd hren)
      | allocated c k hact hk _ hor =>
          obtain rfl : i = k := by injection hk
          subst hact
          rcases hor with ⟨hsome, -⟩ | ⟨-, rfl⟩
          · have : (next s (.alloc c)).owner = Function.update s.owner i (some c) := by
              simp only [next, hsome]
            rw [howner] at this
            rw [this, Function.update_self] at hi
            cases hi
          · rfl
      | freed => rfl
  | alloc c hact hmem hsome hnone =>
      have hne : (osaWorkerJobAlloc s.mem).1 ≠ some i := by
        intro hr
        rw [hsome i hr, Function.update_self] at hi
        cases hi
      rw [hmem, osaWorkerJobAlloc_state_ne hne, initJobPool_state_slot]
      split
      · next hold =>
          refine hf hold i ?_
          cases hr : (osaWorkerJobAlloc s.mem).1 with
          | none => rwa [hnone hr] at hi
          | some k =>
              have hik : i ≠ k := fun he => hne (he ▸ hr)
              rwa [hsome k hr, Function.update_of_ne hik] at hi
      · rfl
  | free j _ hmem howner =>
      cases j with
      | object k =>
          rw [hmem] at hinit ⊢
          rw [howner] at hi
          exact hf hinit i hi
      | slot k =>
          rw [hmem, freeStep_state_slot]
          rw [hmem] at hinit
          by_cases hik : i = k
          · rw [hik, Function.update_self]
          · have hne : JobRef.slot i ≠ .slot k := fun he => hik (by injection he)
            rw [Function.update_of_ne hne]
            refine hf hinit i ?_
            rw [howner] at hi
            exact (Function.update_of_ne hik ..).symm.trans hi

/-! ### What an allocation returns -/

/-- The first slot without an owner: the one an allocation should return. -/
def firstUnowned (s : Sys n) : Option (Fin osaJobPoolSize) :=
  (List.finRange osaJobPoolSize).find? fun i => s.owner i = none

/-- A slot whose owner still holds it is not finished, or lies behind an unowned one. -/
def OwnedHidden (s : Sys n) : Prop :=
  ∀ i, s.owner i ≠ none →
    (s.mem.state (.slot i) = .completed ∨ s.mem.state (.slot i) = .cancelled) →
    ∃ k < i, s.owner k = none

instance (s : Sys n) : Decidable (OwnedHidden s) := by dsimp only [OwnedHidden]; infer_instance

/-- The condition at an allocation. -/
def AllocHidden (s : Sys n) : Act n → Prop
  | .alloc _ => OwnedHidden s
  | _ => True

instance (s : Sys n) (a : Act n) : Decidable (AllocHidden s a) := by
  induction a using Act.casesOn <;> (dsimp only [AllocHidden]; infer_instance)

lemma find?_finRange_eq_some {k : ℕ} {p : Fin k → Bool} {i : Fin k} :
    (List.finRange k).find? p = some i ↔ p i = true ∧ ∀ j < i, p j = false := by
  rw [show List.finRange k = List.ofFn id from rfl]
  simpa using List.find?_ofFn_eq_some_of_injective (f := id) (p := p) (i := i)
    Function.injective_id

/-- Two searches of which the first accepts more find the same slot exactly when what it
accepts in addition lies behind something that both accept. -/
lemma find?_finRange_eq_iff {k : ℕ} {p q : Fin k → Bool} (hqp : ∀ i, q i = true → p i = true) :
    (List.finRange k).find? p = (List.finRange k).find? q ↔
      ∀ i, q i = false → p i = true → ∃ j < i, q j = true := by
  constructor
  · intro heq i hq hp
    cases hr : (List.finRange k).find? p with
    | none =>
        rw [List.find?_eq_none] at hr
        exact absurd hp (hr i (List.mem_finRange i))
    | some m =>
        have hqm := (find?_finRange_eq_some.mp (heq ▸ hr)).1
        have hle : m ≤ i := by
          by_contra hlt
          rw [(find?_finRange_eq_some.mp hr).2 i (not_le.mp hlt)] at hp
          cases hp
        refine ⟨m, lt_of_le_of_ne hle ?_, hqm⟩
        rintro rfl
        rw [hq] at hqm; cases hqm
  · intro h
    cases hr : (List.finRange k).find? q with
    | some m =>
        obtain ⟨hqm, hbefore⟩ := find?_finRange_eq_some.mp hr
        refine find?_finRange_eq_some.mpr ⟨hqp m hqm, fun j hj => ?_⟩
        by_contra hp
        obtain ⟨i, hij, hqi⟩ := h j (hbefore j hj) (by simpa using hp)
        rw [hbefore i (hij.trans hj)] at hqi
        cases hqi
    | none =>
        rw [List.find?_eq_none] at hr ⊢
        intro i _ hp
        obtain ⟨j, -, hqj⟩ := h i (by simpa using hr i (List.mem_finRange i)) hp
        exact hr j (List.mem_finRange j) hqj

/-- An allocation is a search for a finished slot. -/
lemma osaWorkerJobAlloc_fst (m : Memory) :
    (osaWorkerJobAlloc m).1 = findFreeSlot (initJobPool m) := by
  cases hr : (osaWorkerJobAlloc m).1 with
  | none => exact (osaWorkerJobAlloc_none hr).1.symm
  | some i => exact (osaWorkerJobAlloc_some hr).1.symm

/-- In one state the allocator is right exactly if the finished owned slots are hidden. -/
lemma alloc_eq_firstUnowned_iff {s : Sys n} {b : Option JobRef} (h : QueueInv s b)
    (hf : FreeCompleted s) : (osaWorkerJobAlloc s.mem).1 = firstUnowned s ↔ OwnedHidden s := by
  have hstate : ∀ i, (initJobPool s.mem).state (.slot i) =
      if s.mem.gJobPoolInitialized then s.mem.state (.slot i) else .completed :=
    initJobPool_state_slot s.mem
  have hfree : ∀ i, s.owner i = none → (initJobPool s.mem).state (.slot i) = .completed := by
    intro i hi
    rw [hstate]
    split
    · next hinit => exact hf hinit i hi
    · rfl
  rw [osaWorkerJobAlloc_fst, findFreeSlot, firstUnowned, find?_finRange_eq_iff]
  · simp only [decide_eq_true_eq, decide_eq_false_iff_not]
    refine forall_congr' fun i => imp_congr_right fun hi => ?_
    have hinit : s.mem.gJobPoolInitialized = true := by
      by_contra hnot
      exact hi (h.fresh (by simpa using hnot) i)
    rw [hstate, if_pos hinit]
  · intro i hi
    simp [hfree i (by simpa using hi)]

/-- What holds along the runs in question. -/
lemma freeCompleted_of_reachable {s : Sys n}
    (h : ((poolSystem n).restrict fun s a =>
      Discipline s a ∧ CancelFresh s a ∧ AllocHidden s a).Reachable s) :
    (∃ b, QueueInv s b) ∧ FreeCompleted s := by
  refine h.invariant (P := fun s => (∃ b, QueueInv s b) ∧ FreeCompleted s) ?_ ?_
  · intro s hs
    refine ⟨⟨none, QueueInv.initial hs⟩, fun hinit => ?_⟩
    rw [hs.2.1] at hinit; cases hinit
  · rintro s a ⟨⟨b, hb⟩, hf⟩ ⟨ha, hd, hc, -⟩
    exact ⟨⟨_, hb.step ha hd hc⟩, hf.step hb ha hd⟩

/-- The run in which the client 0 allocates the slot `i`, and the worker `w` executes its job
with the result `ret`. -/
def oneSlotRun (w : Fin n) (i : Fin osaJobPoolSize) (ret : Int) : List (Act n) :=
  [.alloc 0, .init 0 (.slot i) ⟨some 1, none, none, none⟩, .submit 0 (.slot i), .take w,
    .dequeue w, .execute w ret, .finish w, .notify w]

end OpenHsm
