import Mathlib.Tactic

/-!
Transition systems with guarded actions and their finite runs, over arbitrary
state and action types.

* `System.RunFrom`: a finite run, kept as the list of the states it left and the
  actions it took there, newest first.
* `System.restrict`: the system whose runs take only actions that meet a condition.
* `Reachable.invariant`: the induction over a run, stated once.
* `RunFrom.forall_iff`: when one step keeps a property exactly under a condition,
  a whole run keeps it exactly when every step meets the condition.
* `System.replay`: executing a list of actions, so that a concrete run is checked
  by evaluation (`runFrom_of_replay`, `reachable_of_replay`).
-/

namespace Runs

/-- A transition system: the initial states, when an action can be taken, and the
state it leads to. -/
structure System (σ α : Type*) where
  init : σ → Prop
  enabled : σ → α → Prop
  next : σ → α → σ

namespace System

variable {σ α : Type*} {S : System σ α}

/-- A finite run from `s`, with its steps newest first. -/
inductive RunFrom (S : System σ α) (s : σ) : List (σ × α) → σ → Prop
  | refl : RunFrom S s [] s
  | step {h : List (σ × α)} {t : σ} {a : α} : RunFrom S s h t → S.enabled t a →
      RunFrom S s ((t, a) :: h) (S.next t a)

/-- A state is reachable if a run from an initial state ends in it. -/
def Reachable (S : System σ α) (t : σ) : Prop :=
  ∃ s h, S.init s ∧ S.RunFrom s h t

/-- **The invariant rule**: what holds initially and is kept by every step holds of
every reachable state. -/
theorem Reachable.invariant {P : σ → Prop} (h0 : ∀ s, S.init s → P s)
    (hstep : ∀ s a, P s → S.enabled s a → P (S.next s a)) {t : σ} (ht : S.Reachable t) :
    P t := by
  obtain ⟨s, l, hs, hl⟩ := ht
  induction hl with
  | refl => exact h0 s hs
  | step _ ha ih => exact hstep _ _ ih ha

/-- One step further. -/
lemma Reachable.next {s : σ} {a : α} (h : S.Reachable s) (ha : S.enabled s a) :
    S.Reachable (S.next s a) := by
  obtain ⟨s₀, l, hs, hl⟩ := h
  exact ⟨s₀, _, hs, hl.step ha⟩

/-- A property kept by every step is kept by every run. -/
lemma RunFrom.invariant {P : σ → Prop} (hstep : ∀ s a, P s → S.enabled s a → P (S.next s a))
    {s t : σ} {l : List (σ × α)} (hl : S.RunFrom s l t) (hs : P s) : P t := by
  induction hl with
  | refl => exact hs
  | step _ ha ih => exact hstep _ _ ih ha

/-- It then holds in every state that the run left by a step. -/
lemma RunFrom.forall_mem {P : σ → Prop} (hstep : ∀ s a, P s → S.enabled s a → P (S.next s a))
    {s t : σ} {l : List (σ × α)} (hl : S.RunFrom s l t) (hs : P s) :
    ∀ p ∈ l, P p.1 ∧ S.enabled p.1 p.2 := by
  induction hl with
  | refl => simp
  | step hl ha ih => exact List.forall_mem_cons.mpr ⟨⟨hl.invariant hstep hs, ha⟩, ih⟩

/-- What holds in every state of a run holds after every step of it. -/
lemma RunFrom.forall_next {P : σ → Prop} {s t : σ} {l : List (σ × α)} (hl : S.RunFrom s l t)
    (ht : P t) (hall : ∀ p ∈ l, P p.1) : ∀ p ∈ l, P (S.next p.1 p.2) := by
  induction hl with
  | refl => simp
  | step _ _ ih =>
      obtain ⟨hu, hall⟩ := List.forall_mem_cons.mp hall
      exact List.forall_mem_cons.mpr ⟨ht, ih hu hall⟩

/-! ### Runs whose steps meet a condition -/

/-- The system that takes an action only where it meets the condition. -/
def restrict (S : System σ α) (c : σ → α → Prop) : System σ α where
  init := S.init
  enabled s a := S.enabled s a ∧ c s a
  next := S.next

instance {c : σ → α → Prop} [∀ s a, Decidable (S.enabled s a)] [∀ s a, Decidable (c s a)]
    (s : σ) (a : α) : Decidable ((S.restrict c).enabled s a) :=
  inferInstanceAs (Decidable (S.enabled s a ∧ c s a))

@[simp] lemma restrict_init (c : σ → α → Prop) : (S.restrict c).init = S.init := rfl

@[simp] lemma restrict_next (c : σ → α → Prop) : (S.restrict c).next = S.next := rfl

@[simp] lemma restrict_enabled (c : σ → α → Prop) (s : σ) (a : α) :
    (S.restrict c).enabled s a ↔ S.enabled s a ∧ c s a := Iff.rfl

/-- A run of the restricted system is a run whose steps all meet the condition. -/
lemma RunFrom.restrict_iff {c : σ → α → Prop} {s t : σ} {l : List (σ × α)} :
    (S.restrict c).RunFrom s l t ↔ S.RunFrom s l t ∧ ∀ p ∈ l, c p.1 p.2 := by
  constructor
  · intro h
    induction h with
    | refl => exact ⟨RunFrom.refl, by simp⟩
    | step _ ha ih => exact ⟨ih.1.step ha.1, List.forall_mem_cons.mpr ⟨ha.2, ih.2⟩⟩
  · rintro ⟨h, hc⟩
    induction h with
    | refl => exact RunFrom.refl
    | step _ ha ih =>
        obtain ⟨hca, hc⟩ := List.forall_mem_cons.mp hc
        exact (ih hc).step ⟨ha, hca⟩

/-- **Exact conditions lift from a step to a run.** Suppose that, as long as `J` holds,
a step keeps `P` exactly when it meets `c`, and that steps which meet `c` keep `J`.
Then `P` holds in every state of a run exactly when every step of the run meets `c`. -/
theorem RunFrom.forall_iff {P J : σ → Prop} {c : σ → α → Prop} {s t : σ}
    {l : List (σ × α)} (hl : S.RunFrom s l t) (hP : P s) (hJ : J s)
    (hstep : ∀ u a, P u → J u → S.enabled u a → (P (S.next u a) ↔ c u a))
    (hkeep : ∀ u a, P u → J u → S.enabled u a → c u a → J (S.next u a)) :
    (P t ∧ ∀ p ∈ l, P p.1) ↔ ∀ p ∈ l, c p.1 p.2 := by
  have key : ((P t ∧ ∀ p ∈ l, P p.1) ↔ ∀ p ∈ l, c p.1 p.2) ∧
      ((∀ p ∈ l, c p.1 p.2) → J t) := by
    induction hl with
    | refl => simp [hP, hJ]
    | @step h u a _ ha ih =>
        obtain ⟨hiff, hJu⟩ := ih
        simp only [List.forall_mem_cons]
        refine ⟨⟨?_, ?_⟩, ?_⟩
        · rintro ⟨hnext, hu, hall⟩
          have hc : ∀ p ∈ h, c p.1 p.2 := hiff.mp ⟨hu, hall⟩
          exact ⟨(hstep u a hu (hJu hc) ha).mp hnext, hc⟩
        · rintro ⟨hca, hc⟩
          obtain ⟨hu, hall⟩ := hiff.mpr hc
          exact ⟨(hstep u a hu (hJu hc) ha).mpr hca, hu, hall⟩
        · rintro ⟨hca, hc⟩
          exact hkeep u a (hiff.mpr hc).1 (hJu hc) ha hca
  exact key.1

/-! ### Concrete runs -/

/-- Take the actions of a list in order, `none` as soon as one is not enabled. -/
def replay (S : System σ α) [∀ s a, Decidable (S.enabled s a)] : σ → List α → Option σ
  | s, [] => some s
  | s, a :: as => if S.enabled s a then replay S (S.next s a) as else none

/-- The steps of a replay, newest first. -/
def history (S : System σ α) : σ → List α → List (σ × α)
  | _, [] => []
  | s, a :: as => history S (S.next s a) as ++ [(s, a)]

/-- A run may be extended at its beginning. -/
lemma RunFrom.cons {s t : σ} {a : α} {l : List (σ × α)} (ha : S.enabled s a)
    (hl : S.RunFrom (S.next s a) l t) : S.RunFrom s (l ++ [(s, a)]) t := by
  induction hl with
  | refl => exact RunFrom.refl.step ha
  | step _ hb ih => exact ih.step hb

/-- A list of actions that can be taken in order is a run. -/
theorem runFrom_of_replay [∀ s a, Decidable (S.enabled s a)] {s t : σ} {as : List α}
    (h : S.replay s as = some t) : S.RunFrom s (S.history s as) t := by
  induction as generalizing s with
  | nil =>
      rw [replay, Option.some.injEq] at h
      exact h ▸ RunFrom.refl
  | cons a as ih =>
      rw [replay] at h
      split at h
      · next ha => exact RunFrom.cons ha (ih h)
      · cases h

/-- A state that a list of actions leads to is reachable. -/
theorem reachable_of_replay [∀ s a, Decidable (S.enabled s a)] {s : σ} {Q : σ → Prop}
    (hs : S.init s) (as : List α) (h : ∃ t ∈ S.replay s as, Q t) :
    ∃ t, S.Reachable t ∧ Q t := by
  obtain ⟨t, ht, hQ⟩ := h
  exact ⟨t, ⟨s, _, hs, runFrom_of_replay ht⟩, hQ⟩

end System

end Runs
