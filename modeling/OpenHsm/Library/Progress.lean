import OpenHsm.Library.Runs

/-!
How long the runs of a transition system can be, and where they come to rest, over
arbitrary state and action types.

* `System.AtRest`: no action of a kind can be taken.
* `RunFrom.balance`: a potential that every step pays its cost from bounds the cost of a
  whole run by what the run started with and was given on the way.
* `RunFrom.length_le`: a run of steps that all cost something is no longer than the
  potential it starts with.
* `exists_run_to_rest`: such steps can be taken until none is left.
-/

namespace Runs

namespace System

variable {σ α : Type*} {S : System σ α}

/-- No action of the kind `A` can be taken. -/
def AtRest (S : System σ α) (A : α → Prop) (s : σ) : Prop := ∀ a, A a → ¬ S.enabled s a

/-- What a run costs, or what it is given: the sum over its steps. -/
def total (f : σ → α → ℕ) (l : List (σ × α)) : ℕ := (l.map fun p => f p.1 p.2).sum

@[simp] lemma total_nil (f : σ → α → ℕ) : total f [] = 0 := rfl

@[simp] lemma total_cons (f : σ → α → ℕ) (s : σ) (a : α) (l : List (σ × α)) :
    total f ((s, a) :: l) = f s a + total f l := by
  simp [total]

/-- A run may be continued. -/
lemma RunFrom.append {s t u : σ} {l l' : List (σ × α)} (hl : S.RunFrom s l t)
    (hl' : S.RunFrom t l' u) : S.RunFrom s (l' ++ l) u := by
  induction hl' with
  | refl => exact hl
  | step _ ha ih => exact ih.step ha

/-- Steps that each cost one cost together their number. -/
lemma total_eq_length {f : σ → α → ℕ} {l : List (σ × α)} (h : ∀ p ∈ l, f p.1 p.2 = 1) :
    total f l = l.length := by
  induction l with
  | nil => rfl
  | cons p l ih =>
      obtain ⟨hp, hl⟩ := List.forall_mem_cons.mp h
      rw [total_cons, hp, ih hl, List.length_cons, Nat.add_comm]

section Potential

variable {P : σ → Prop} {μ : σ → ℕ} {cost gain : σ → α → ℕ} {A : α → Prop} {s t : σ}
  {l : List (σ × α)}

/-- **The balance of a run**: if no step costs more than the potential it uses up and the
gain it brings, no run does. -/
theorem RunFrom.balance
    (hstep : ∀ s a, P s → S.enabled s a →
      P (S.next s a) ∧ μ (S.next s a) + cost s a ≤ μ s + gain s a)
    (hl : S.RunFrom s l t) (hs : P s) : μ t + total cost l ≤ μ s + total gain l := by
  induction hl with
  | refl => exact le_rfl
  | @step l u a hl ha ih =>
      have hu : P u := hl.invariant (fun v b hv hb => (hstep v b hv hb).1) hs
      have := (hstep u a hu ha).2
      rw [total_cons, total_cons]
      omega

/-- A run of steps that each use up some of the potential ends before the potential does. -/
theorem RunFrom.length_le
    (hstep : ∀ s a, P s → S.enabled s a → A a →
      P (S.next s a) ∧ μ (S.next s a) < μ s)
    (hl : S.RunFrom s l t) (hs : P s) (hA : ∀ p ∈ l, A p.2) : μ t + l.length ≤ μ s := by
  have hrun : (S.restrict fun _ a => A a).RunFrom s l t := RunFrom.restrict_iff.mpr ⟨hl, hA⟩
  have hbalance : μ t + total (fun _ _ => 1) l ≤ μ s + total (fun _ _ => 0) l := by
    refine hrun.balance (P := P) (fun u a hu ha => ?_) hs
    obtain ⟨hP, hlt⟩ := hstep u a hu ha.1 ha.2
    exact ⟨hP, hlt⟩
  have hzero : total (fun (_ : σ) (_ : α) => 0) l = 0 := by simp [total]
  rw [total_eq_length (fun _ _ => rfl), hzero] at hbalance
  exact hbalance

/-- **Such steps come to an end**: they can be taken until none is left. -/
theorem exists_run_to_rest
    (hstep : ∀ s a, P s → S.enabled s a → A a →
      P (S.next s a) ∧ μ (S.next s a) < μ s)
    (hs : P s) : ∃ l t, S.RunFrom s l t ∧ (∀ p ∈ l, A p.2) ∧ S.AtRest A t := by
  induction hn : μ s using Nat.strong_induction_on generalizing s with
  | _ k ih =>
      by_cases hrest : S.AtRest A s
      · exact ⟨[], s, RunFrom.refl, by simp, hrest⟩
      · obtain ⟨a, hA, ha⟩ : ∃ a, A a ∧ S.enabled s a := by
          simpa [AtRest, not_forall] using hrest
        obtain ⟨hP, hlt⟩ := hstep s a hs ha hA
        obtain ⟨l, t, hl, hall, ht⟩ := ih _ (hn ▸ hlt) hP rfl
        refine ⟨l ++ [(s, a)], t, RunFrom.cons ha hl, fun p hp => ?_, ht⟩
        rcases List.mem_append.mp hp with hp | hp
        · exact hall p hp
        · rw [List.mem_singleton.mp hp]
          exact hA

end Potential

end System

end Runs
