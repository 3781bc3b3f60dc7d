import Mathlib.Tactic

/-!
Threads and locks, over arbitrary types of both.

* `Owned`: a table of owners agrees with what each thread holds; `Owned.acquire` and
  `Owned.release` keep it.
* `WaitsFor`: a thread asks for a lock that another one holds.
* `Ordered`, `Ordered.acyclic`: where every thread asks only for locks that rank above those it
  holds, no cycle of threads wait for each other.
-/

namespace LockOrder

variable {T L R : Type*}

/-! ### Owners -/

/-- The owner of a lock is the thread that holds it. -/
def Owned (owner : L → Option T) (holds : T → Option L) : Prop :=
  ∀ l t, owner l = some t ↔ holds t = some l

namespace Owned

variable [DecidableEq T] [DecidableEq L] {owner : L → Option T} {holds : T → Option L}
  {l : L} {t : T}

/-- A thread that holds nothing takes a free lock. -/
lemma acquire (h : Owned owner holds) (hl : owner l = none) (ht : holds t = none) :
    Owned (Function.update owner l (some t)) (Function.update holds t (some l)) := by
  intro m u
  by_cases hm : m = l <;> by_cases hu : u = t
  · simp [hm, hu]
  · have hne : holds u ≠ some l := fun he => by
      rw [← h l u, hl] at he
      cases he
    have htu : t ≠ u := fun he => hu he.symm
    simp [hm, hu, htu, hne]
  · have hne : owner m ≠ some t := fun he => by
      rw [h m t, ht] at he
      cases he
    have hlm : l ≠ m := fun he => hm he.symm
    simp [hm, hu, hlm, hne]
  · simpa [hm, hu] using h m u

/-- A thread gives back the lock it holds. -/
lemma release (h : Owned owner holds) (ht : holds t = some l) :
    Owned (Function.update owner l none) (Function.update holds t none) := by
  have hl : owner l = some t := (h l t).mpr ht
  intro m u
  by_cases hm : m = l <;> by_cases hu : u = t
  · simp [hm, hu]
  · have hne : holds u ≠ some l := fun he => by
      rw [← h l u, hl] at he
      exact hu (Option.some.inj he).symm
    simp [hm, hu, hne]
  · have hne : owner m ≠ some t := fun he => by
      rw [h m t, ht] at he
      exact hm (Option.some.inj he).symm
    simp [hm, hu, hne]
  · simpa [hm, hu] using h m u

/-! What a thread holds is often read off where it is. -/

variable {S : Type*} {pc : T → S} {g : S → Option L} {x : S}

lemma acquire_at (h : Owned owner fun u => g (pc u)) (hl : owner l = none)
    (ht : g (pc t) = none) (hx : g x = some l) :
    Owned (Function.update owner l (some t)) fun u => g (Function.update pc t x u) := by
  have hholds : (fun u => g (Function.update pc t x u))
      = Function.update (fun u => g (pc u)) t (some l) := hx ▸ Function.comp_update g pc t x
  rw [hholds]
  exact h.acquire hl ht

lemma release_at (h : Owned owner fun u => g (pc u)) (ht : g (pc t) = some l)
    (hx : g x = none) :
    Owned (Function.update owner l none) fun u => g (Function.update pc t x u) := by
  have hholds : (fun u => g (Function.update pc t x u))
      = Function.update (fun u => g (pc u)) t none := hx ▸ Function.comp_update g pc t x
  rw [hholds]
  exact h.release ht

omit [DecidableEq L] in
lemma keep_at (h : Owned owner fun u => g (pc u)) (hx : g x = g (pc t)) :
    Owned owner fun u => g (Function.update pc t x u) := by
  have hholds : (fun u => g (Function.update pc t x u)) = fun u => g (pc u) :=
    (Function.comp_update g pc t x).trans (hx ▸ Function.update_eq_self t _)
  rw [hholds]
  exact h

end Owned

/-! ### Waiting -/

/-- The thread `t` asks for a lock that `u` holds. -/
def WaitsFor (wants : T → Option L) (owner : L → Option T) (t u : T) : Prop :=
  ∃ l, wants t = some l ∧ owner l = some u

/-- Every thread asks only for locks that rank above those it holds. -/
def Ordered [Preorder R] (rank : L → R) (wants : T → Option L) (owner : L → Option T) : Prop :=
  ∀ t l m, wants t = some l → owner m = some t → rank m < rank l

section Waiting

variable [Preorder R] {rank : L → R} {wants : T → Option L} {owner : L → Option T}

/-- Along a chain of waiting threads the ranks do not fall: the last one holds a lock that ranks
at least as high as the one the first asks for. -/
lemma Ordered.le_of_transGen (h : Ordered rank wants owner) {t u : T}
    (htu : Relation.TransGen (WaitsFor wants owner) t u) :
    ∃ l m, wants t = some l ∧ owner m = some u ∧ rank l ≤ rank m := by
  induction htu with
  | single hstep =>
      obtain ⟨l, hl, hu⟩ := hstep
      exact ⟨l, l, hl, hu, le_rfl⟩
  | tail _ hstep ih =>
      obtain ⟨l, m, hl, hm, hle⟩ := ih
      obtain ⟨n, hn, hv⟩ := hstep
      exact ⟨l, n, hl, hv, hle.trans (h _ n m hn hm).le⟩

/-- **No cycle of threads wait for each other.** -/
theorem Ordered.acyclic (h : Ordered rank wants owner) (t : T) :
    ¬ Relation.TransGen (WaitsFor wants owner) t t := by
  intro hcycle
  obtain ⟨l, m, hl, hm, hle⟩ := h.le_of_transGen hcycle
  exact absurd (h t l m hl hm) (not_lt_of_ge hle)

end Waiting

end LockOrder
