import Mathlib.Algebra.BigOperators.Group.Finset.Basic
import OpenHsm.Library.Progress

/-!
Infinite runs of a transition system, over arbitrary state and action types, and what must
happen in them.

* `System.Behaviour`: an infinite run; a run that has ended goes on by steps that change
  nothing.
* `Behaviour.eventually_not`: steps that bring a measure down in a well-founded relation come
  to an end if from some time on the other steps leave the measure as it is.
* `System.Fair`: weak fairness towards each of several parties.
* `Behaviour.rest_of_fair`: if a fair run has no more steps of the parties, none can be taken.
* `exists_behaviour`: a finite run goes on for ever by an action that changes nothing.
* `sum_apply_update`: a sum over a family of parts one of which has changed.
-/

namespace Runs

/-- A sum over parts, after one of them has changed. -/
lemma sum_apply_update {ι β M : Type*} [Fintype ι] [DecidableEq ι] [AddCommMonoid M]
    (f : ι → β → M) (s : ι → β) (i : ι) (b : β) :
    ∑ k, f k (Function.update s i b k) + f i (s i) = ∑ k, f k (s k) + f i b := by
  have hrest : ∑ k ∈ Finset.univ.erase i, f k (Function.update s i b k) =
      ∑ k ∈ Finset.univ.erase i, f k (s k) :=
    Finset.sum_congr rfl fun k hk => by rw [Function.update_of_ne (Finset.ne_of_mem_erase hk)]
  calc ∑ k, f k (Function.update s i b k) + f i (s i)
      = f i b + ∑ k ∈ Finset.univ.erase i, f k (s k) + f i (s i) := by
        rw [← Finset.add_sum_erase _ _ (Finset.mem_univ i), Function.update_self, hrest]
    _ = f i (s i) + ∑ k ∈ Finset.univ.erase i, f k (s k) + f i b := by
        rw [add_right_comm, add_comm (f i b), add_right_comm]
    _ = ∑ k, f k (s k) + f i b := by
        rw [Finset.add_sum_erase _ (fun k => f k (s k)) (Finset.mem_univ i)]

namespace System

variable {σ α κ : Type*} {S : System σ α} {x : ℕ → σ} {a : ℕ → α}

/-- An infinite run: the states `x` and the actions `a`. -/
structure Behaviour (S : System σ α) (x : ℕ → σ) (a : ℕ → α) : Prop where
  init : S.init (x 0)
  enabled : ∀ n, S.enabled (x n) (a n)
  next : ∀ n, x (n + 1) = S.next (x n) (a n)

namespace Behaviour

/-- Its states are reachable. -/
lemma reachable (h : S.Behaviour x a) (n : ℕ) : S.Reachable (x n) := by
  induction n with
  | zero => exact ⟨x 0, [], h.init, RunFrom.refl⟩
  | succ n ih =>
      rw [h.next n]
      exact ih.next (h.enabled n)

/-- A run of the restricted system is a run whose steps all meet the condition. -/
lemma restrict_iff {c : σ → α → Prop} :
    (S.restrict c).Behaviour x a ↔ S.Behaviour x a ∧ ∀ n, c (x n) (a n) := by
  constructor
  · intro h
    exact ⟨⟨h.init, fun n => (h.enabled n).1, h.next⟩, fun n => (h.enabled n).2⟩
  · rintro ⟨h, hc⟩
    exact ⟨h.init, fun n => ⟨h.enabled n, hc n⟩, h.next⟩

/-- **Steps that use something up come to an end**, if from the time `N` on each of them brings
the measure `μ` down and the other steps leave it as it is. -/
theorem eventually_not {W : Type*} {r : W → W → Prop} (hr : WellFounded r) {μ : σ → W}
    {A : α → Prop} {N : ℕ} (hdown : ∀ n ≥ N, A (a n) → r (μ (x (n + 1))) (μ (x n)))
    (hkeep : ∀ n ≥ N, ¬ A (a n) → μ (x (n + 1)) = μ (x n)) : ∃ M ≥ N, ∀ n ≥ M, ¬ A (a n) := by
  -- from the least value on the measure stays as it is
  obtain ⟨w, ⟨M, hM, rfl⟩, hmin⟩ :=
    hr.has_min {w | ∃ n ≥ N, μ (x n) = w} ⟨_, N, le_rfl, rfl⟩
  have hconst : ∀ n ≥ M, μ (x n) = μ (x M) ∧ ¬ A (a n) := by
    intro n hn
    induction n, hn using Nat.le_induction with
    | base => exact ⟨rfl, fun hA => hmin _ ⟨M + 1, by omega, rfl⟩ (hdown M hM hA)⟩
    | succ n hn ih =>
        have heq : μ (x (n + 1)) = μ (x M) := (hkeep n (by omega) ih.2).trans ih.1
        refine ⟨heq, fun hA => hmin _ ⟨n + 1 + 1, by omega, rfl⟩ ?_⟩
        rw [← heq]
        exact hdown (n + 1) (by omega) hA
  exact ⟨M, hM, fun n hn => (hconst n hn).2⟩

end Behaviour

/-- A party that can take a step at every time from some time on takes one later. -/
def Fair (S : System σ α) (party : α → Option κ) (x : ℕ → σ) (a : ℕ → α) : Prop :=
  ∀ k n, (∀ m ≥ n, ∃ b, party b = some k ∧ S.enabled (x m) b) → ∃ m ≥ n, party (a m) = some k

/-- **A fair run rests only where it must**: if the parties take no step from the time `M` on,
and the other steps disable none of theirs, they can take none. -/
theorem rest_of_fair {party : α → Option κ} {M : ℕ} (hfair : S.Fair party x a)
    (hquiet : ∀ n ≥ M, party (a n) = none)
    (hkeep : ∀ n ≥ M, ∀ b, party b ≠ none → S.enabled (x n) b → S.enabled (x (n + 1)) b) :
    ∀ n ≥ M, S.AtRest (fun b => party b ≠ none) (x n) := by
  intro n hn b hb hen
  obtain ⟨k, hk⟩ := Option.ne_none_iff_exists'.mp hb
  have hstays : ∀ m ≥ n, S.enabled (x m) b := by
    intro m hm
    induction m, hm using Nat.le_induction with
    | base => exact hen
    | succ m hm ih => exact hkeep m (by omega) b hb ih
  obtain ⟨m, hm, hparty⟩ := hfair k n fun m hm => ⟨b, hk, hstays m hm⟩
  rw [hquiet m (by omega)] at hparty
  cases hparty

/-- A run that comes to rest is fair. -/
lemma fair_of_rest {party : α → Option κ} {N : ℕ}
    (hrest : ∀ n ≥ N, S.AtRest (fun b => party b ≠ none) (x n)) : S.Fair party x a := by
  intro k n hen
  obtain ⟨b, hb, hen⟩ := hen (max n N) (by omega)
  exact absurd hen (hrest (max n N) (by omega) b (by simp [hb]))

/-- **A finite run goes on for ever** by an action that changes nothing. -/
theorem exists_behaviour [∀ s a, Decidable (S.enabled s a)] {s t : σ} {as : List α} {b : α}
    (hs : S.init s) (h : S.replay s as = some t) (hb : S.enabled t b) (hstay : S.next t b = t) :
    ∃ (x : ℕ → σ) (a : ℕ → α), S.Behaviour x a ∧ ∀ n ≥ as.length, x n = t ∧ a n = b := by
  obtain ⟨x, a, h0, hsteps, hend⟩ : ∃ (x : ℕ → σ) (a : ℕ → α), x 0 = s ∧
      (∀ n, S.enabled (x n) (a n) ∧ x (n + 1) = S.next (x n) (a n)) ∧
      ∀ n ≥ as.length, x n = t ∧ a n = b := by
    clear hs
    induction as generalizing s with
    | nil =>
        obtain rfl : s = t := Option.some.inj h
        exact ⟨fun _ => s, fun _ => b, rfl, fun _ => ⟨hb, hstay.symm⟩, fun _ _ => ⟨rfl, rfl⟩⟩
    | cons c as ih =>
        rw [replay] at h
        split at h
        swap
        · cases h
        next hc =>
          obtain ⟨x, a, h0, hsteps, hend⟩ := ih h
          refine ⟨fun n => n.casesOn s x, fun n => n.casesOn c a, rfl, fun n => ?_, fun n hn => ?_⟩
          · cases n with
            | zero => exact ⟨hc, h0⟩
            | succ n => exact hsteps n
          · cases n with
            | zero => simp at hn
            | succ n => exact hend n (Nat.le_of_succ_le_succ hn)
  exact ⟨x, a, ⟨by rw [h0]; exact hs, fun n => (hsteps n).1, fun n => (hsteps n).2⟩, hend⟩

end System

end Runs
