import Mathlib.Tactic

/-!
Who waits for whom, where everyone waits for at most one other, over an arbitrary type.

* `WaitsOn f i j`: `i` waits for `j`.
* `OnCycle f i`: following the waits from `i` leads back to `i`.
* `Doomed f i`: they lead to such a cycle; `Doomed.next`: so do those of the one it waits for.
  `Doomed.mono`: only the waits of the doomed decide who is doomed.
* `end_or_cycle`: among finitely many, they lead to one that waits for nobody, or to a cycle.
* `not_doomed_of_rank`: where every wait goes down in rank, there is no cycle.
-/

namespace WaitChain

variable {ι R : Type*}

/-- `i` waits for `j`. -/
def WaitsOn (f : ι → Option ι) (i j : ι) : Prop := f i = some j

/-- The waits from `i` lead back to `i`. -/
def OnCycle (f : ι → Option ι) (i : ι) : Prop := Relation.TransGen (WaitsOn f) i i

/-- The waits from `i` lead to a cycle. -/
def Doomed (f : ι → Option ι) (i : ι) : Prop :=
  ∃ j, Relation.ReflTransGen (WaitsOn f) i j ∧ OnCycle f j

variable {f g : ι → Option ι} {i j : ι}

/-- One on a cycle waits for one on the cycle. -/
lemma OnCycle.next (h : OnCycle f i) : ∃ j, WaitsOn f i j ∧ OnCycle f j := by
  obtain ⟨j, hij, hji⟩ := Relation.TransGen.head'_iff.mp h
  exact ⟨j, hij, Relation.TransGen.tail' hji hij⟩

/-- One that is doomed waits for one that is doomed. -/
lemma Doomed.next (h : Doomed f i) : ∃ j, WaitsOn f i j ∧ Doomed f j := by
  obtain ⟨k, hik, hk⟩ := h
  rcases Relation.ReflTransGen.cases_head hik with rfl | ⟨j, hij, hjk⟩
  · obtain ⟨j, hij, hj⟩ := hk.next
    exact ⟨j, hij, j, Relation.ReflTransGen.refl, hj⟩
  · exact ⟨j, hij, k, hjk, hk⟩

/-- What the doomed wait for is all that decides who is doomed. -/
lemma Doomed.mono (hfg : ∀ i, Doomed f i → g i = f i) (h : Doomed f i) : Doomed g i := by
  have hstep : ∀ {i j}, Doomed f i → WaitsOn f i j → WaitsOn g i j ∧ Doomed f j := by
    intro i j hi hij
    obtain ⟨j', hij', hj'⟩ := hi.next
    obtain rfl : j' = j := Option.some.inj (hij'.symm.trans hij)
    exact ⟨(hfg i hi).trans hij, hj'⟩
  have hpath : ∀ {i j}, Doomed f i → Relation.ReflTransGen (WaitsOn f) i j →
      Relation.ReflTransGen (WaitsOn g) i j ∧ Doomed f j := by
    intro i j hi hij
    induction hij with
    | refl => exact ⟨Relation.ReflTransGen.refl, hi⟩
    | tail _ hbc ih =>
        obtain ⟨hpath, hb⟩ := ih
        obtain ⟨hbc, hc⟩ := hstep hb hbc
        exact ⟨hpath.tail hbc, hc⟩
  obtain ⟨k, hik, hk⟩ := h
  have hi : Doomed f i := ⟨k, hik, hk⟩
  obtain ⟨hik, hdk⟩ := hpath hi hik
  obtain ⟨l, hkl, hlk⟩ := Relation.TransGen.head'_iff.mp hk
  obtain ⟨hkl, hl⟩ := hstep hdk hkl
  exact ⟨k, hik, Relation.TransGen.head' hkl (hpath hl hlk).1⟩

/-- **The end of the waits**: among finitely many, the waits from `i` lead to one that waits
for nobody, or to a cycle. -/
theorem end_or_cycle [Finite ι] (f : ι → Option ι) (i : ι) :
    (∃ j, Relation.ReflTransGen (WaitsOn f) i j ∧ f j = none) ∨ Doomed f i := by
  -- one that waits for nobody is taken to stay where it is
  let step : ι → ι := fun j => (f j).getD j
  have hstep : ∀ k, f (step^[k] i) ≠ none → WaitsOn f (step^[k] i) (step^[k + 1] i) := by
    intro k hk
    obtain ⟨j, hj⟩ := Option.ne_none_iff_exists'.mp hk
    rw [Function.iterate_succ_apply']
    simp [step, WaitsOn, hj]
  by_cases hend : ∃ k, f (step^[k] i) = none
  · classical
    have hpath : ∀ k ≤ Nat.find hend, Relation.ReflTransGen (WaitsOn f) i (step^[k] i) := by
      intro k hk
      induction k with
      | zero => exact Relation.ReflTransGen.refl
      | succ k ih => exact (ih (by omega)).tail (hstep k (Nat.find_min hend hk))
    exact .inl ⟨_, hpath _ le_rfl, Nat.find_spec hend⟩
  · have hgo : ∀ k, WaitsOn f (step^[k] i) (step^[k + 1] i) :=
      fun k => hstep k fun hk => hend ⟨k, hk⟩
    have hpath : ∀ a k, Relation.ReflTransGen (WaitsOn f) (step^[a] i) (step^[a + k] i) := by
      intro a k
      induction k with
      | zero => exact Relation.ReflTransGen.refl
      | succ k ih => exact ih.tail (hgo (a + k))
    obtain ⟨a, b, hne, hab⟩ := Finite.exists_ne_map_eq_of_infinite fun k => step^[k] i
    have hcycle : ∀ a b, a < b → step^[a] i = step^[b] i → Doomed f i := by
      intro a b hlt hab
      have hlong := hpath (a + 1) (b - (a + 1))
      rw [Nat.add_sub_cancel' (by omega), ← hab] at hlong
      refine ⟨step^[a] i, ?_, Relation.TransGen.head' (hgo a) hlong⟩
      have hfirst := hpath 0 a
      rwa [Nat.zero_add] at hfirst
    rcases Nat.lt_or_gt_of_ne hne with hlt | hgt
    · exact .inr (hcycle a b hlt hab)
    · exact .inr (hcycle b a hgt hab.symm)

/-- **No cycle under a rank**: where every wait goes down in rank, nobody waits in a cycle. -/
theorem not_doomed_of_rank [Preorder R] {rank : ι → R}
    (hrank : ∀ i j, WaitsOn f i j → rank j < rank i) (i : ι) : ¬ Doomed f i := by
  rintro ⟨k, -, hk⟩
  have hlt : ∀ {a b}, Relation.TransGen (WaitsOn f) a b → rank b < rank a := by
    intro a b hab
    induction hab with
    | single h => exact hrank _ _ h
    | tail _ h ih => exact (hrank _ _ h).trans ih
  exact lt_irrefl _ (hlt hk)

end WaitChain
