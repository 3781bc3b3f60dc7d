import OpenHsm.Hsm.Machine

/-!
Delegation along the parent chain.

* `Body.Plain`, `Body.Delegates`: a handler that handles its event by code of its own,
  and one that delegates it with one `STATE_SUPER`.
* `DelegatingHierarchy`: an acyclic hierarchy all of whose handlers are of the one kind
  or of the other; `climb` is the list of states a delegated event should visit.
* `dispatch_climbs_iff`: the dispatch of an event visits this list and ends exactly when
  the current state handles the event or its parent, if it has one, does.  A parent that
  delegates too is called again and again, since `STATE_SUPER` asks for the parent of
  the *current* state: `grandchild_never_returns` is the shortest case.
-/

namespace OpenHsm

variable {σ υ : Type*}

/-- A body without macros. -/
def Body.Plain : Body σ υ → Prop
  | .ret _ => True
  | .read k => ∀ u h, (k u h).Plain
  | .act _ k => k.Plain
  | .transit _ _ | .super _ _ => False

/-- A body that expands `STATE_SUPER(e)` once and no other macro. -/
def Body.Delegates (e : HsmEvent) : Body σ υ → Prop
  | .ret _ | .transit _ _ => False
  | .read k => ∀ u h, (k u h).Delegates e
  | .act _ k => k.Delegates e
  | .super e' k => e' = e ∧ k.Plain

/-- A hierarchy of finite depth in which a handler either handles an event or delegates
it, and does nothing else. -/
structure DelegatingHierarchy (σ υ : Type*) where
  state : σ → HsmState σ υ
  depth : σ → ℕ
  depth_lt : ∀ s p, (state s).parent = some p → depth p < depth s
  handles : σ → HsmEvent → Bool
  plain : ∀ s e, handles s e = true → ((state s).handler e).Plain
  delegates : ∀ s e, handles s e = false → ((state s).handler e).Delegates e

namespace DelegatingHierarchy

variable (H : DelegatingHierarchy σ υ)

/-- The states an event visits from `s` on: up the hierarchy, to the first one that
handles it or else to the root. -/
def climb (e : HsmEvent) (s : σ) : List σ :=
  if H.handles s e then [s]
  else
    match _h : (H.state s).parent with
    | none => [s]
    | some p => s :: climb e p
termination_by H.depth s
decreasing_by exact H.depth_lt s p _h

/-- The event gets no further than the parent of the current state. -/
def HandledBelow (e : HsmEvent) (s : σ) : Prop :=
  H.handles s e = true ∨ ∀ p ∈ (H.state s).parent, H.handles p e = true

end DelegatingHierarchy

/-- The states whose handlers were called, oldest first. -/
def callees (l : List (HsmLog σ)) : List σ :=
  (l.filterMap fun
    | .called s _ _ => some s
    | .switched _ _ => none).reverse

@[simp] lemma callees_called (s : σ) (e : HsmEvent) (o : Caller) (l : List (HsmLog σ)) :
    callees (.called s e o :: l) = callees l ++ [s] := by
  simp [callees]

/-! ### Handlers that return -/

variable {S : σ → HsmState σ υ}

/-- A plain body returns, having changed nothing but the data and the error. -/
lemma Body.Plain.returns {b : Body σ υ} (hb : b.Plain) (c : HsmThread σ υ) (o : Caller)
    (rest : List (Frame σ υ)) :
    ∃ u v, Reaches S { c with stack := ⟨b, o⟩ :: rest }
      { c with hsm := { c.hsm with error := v }, user := u, stack := rest } := by
  induction b generalizing c with
  | ret v =>
      cases ho : o.storesError with
      | true => exact ⟨c.user, v, 1, by simp [stepHandler, ho]⟩
      | false => exact ⟨c.user, c.hsm.error, 1, by simp [stepHandler, ho]⟩
  | read k ih =>
      obtain ⟨u, v, h⟩ := ih c.user c.hsm (hb c.user c.hsm) c
      exact ⟨u, v, h.head⟩
  | act f k ih =>
      obtain ⟨u, v, h⟩ := ih hb { c with user := f c.user }
      exact ⟨u, v, h.head⟩
  | transit t k => exact hb.elim
  | super e k => exact hb.elim

/-- A delegating body gets to its `STATE_SUPER`. -/
lemma Body.Delegates.reaches {b : Body σ υ} {e : HsmEvent} (hb : b.Delegates e)
    (c : HsmThread σ υ) (o : Caller) (rest : List (Frame σ υ)) :
    ∃ u k, k.Plain ∧ Reaches S { c with stack := ⟨b, o⟩ :: rest }
      { c with user := u, stack := ⟨.super e k, o⟩ :: rest } := by
  induction b generalizing c with
  | ret v => exact hb.elim
  | read k ih =>
      obtain ⟨u, k', hk, h⟩ := ih c.user c.hsm (hb c.user c.hsm) c
      exact ⟨u, k', hk, h.head⟩
  | act f k ih =>
      obtain ⟨u, k', hk, h⟩ := ih hb { c with user := f c.user }
      exact ⟨u, k', hk, h.head⟩
  | transit t k => exact hb.elim
  | super e' k =>
      obtain ⟨rfl, hk⟩ := hb
      exact ⟨c.user, k, hk, Reaches.refl⟩

/-- At the root a delegating body returns as a plain one does. -/
lemma Body.Delegates.returns_root {b : Body σ υ} {e : HsmEvent} (hb : b.Delegates e)
    (c : HsmThread σ υ) (o : Caller) (rest : List (Frame σ υ))
    (hp : (S c.hsm.current).parent = none) :
    ∃ u v, Reaches S { c with stack := ⟨b, o⟩ :: rest }
      { c with hsm := { c.hsm with error := v }, user := u, stack := rest } := by
  obtain ⟨u, k, hk, hreach⟩ := hb.reaches (S := S) c o rest
  obtain ⟨u', v, hret⟩ := hk.returns (S := S) { c with user := u } o rest
  refine ⟨u', v, hreach.trans (Reaches.head ?_)⟩
  simpa [stepHandler, stateSuper, hp] using hret

/-- Under a parent that handles the event a delegating body calls it once and returns. -/
lemma Body.Delegates.returns_parent {b : Body σ υ} {e : HsmEvent} (hb : b.Delegates e)
    (c : HsmThread σ υ) (o : Caller) (rest : List (Frame σ υ)) {p : σ}
    (hp : (S c.hsm.current).parent = some p) (hplain : ((S p).handler e).Plain) :
    ∃ u v, Reaches S { c with stack := ⟨b, o⟩ :: rest }
      { hsm := { c.hsm with error := v }, user := u, stack := rest,
        log := .called p e .super :: c.log } := by
  obtain ⟨u, k, hk, hreach⟩ := hb.reaches (S := S) c o rest
  obtain ⟨u', v, hparent⟩ := hplain.returns (S := S)
    { c with user := u, log := .called p e .super :: c.log } .super (⟨k, o⟩ :: rest)
  obtain ⟨u'', v', hret⟩ := hk.returns (S := S)
    { hsm := { c.hsm with error := v }, user := u', stack := rest,
      log := .called p e .super :: c.log } o rest
  refine ⟨u'', v', hreach.trans (Reaches.head ?_)⟩
  simpa [stepHandler, stateSuper, callHandler, hp] using hparent.trans hret

/-! ### Handlers that do not -/

/-- The handler on top of the stack delegates the event, and so does the parent of the
current state. -/
def Recurs (S : σ → HsmState σ υ) (e : HsmEvent) (c : HsmThread σ υ) : Prop :=
  (∃ b o rest, c.stack = ⟨b, o⟩ :: rest ∧ b.Delegates e) ∧
    ∃ p, (S c.hsm.current).parent = some p ∧ ((S p).handler e).Delegates e

/-- Every step of such a handler leads to such a handler: the parent is called, and asks
for the parent of the current state, itself. -/
lemma Recurs.step {e : HsmEvent} {c : HsmThread σ υ} (h : Recurs S e c) :
    Recurs S e (stepHandler S c) := by
  obtain ⟨⟨b, o, rest, hstack, hb⟩, p, hp, hpe⟩ := h
  cases b with
  | ret v => exact hb.elim
  | read k =>
      simp only [stepHandler, hstack]
      exact ⟨⟨_, _, _, rfl, hb c.user c.hsm⟩, p, hp, hpe⟩
  | act f k =>
      simp only [stepHandler, hstack]
      exact ⟨⟨_, _, _, rfl, hb⟩, p, hp, hpe⟩
  | transit t k => exact hb.elim
  | super e' k =>
      obtain ⟨rfl, -⟩ := hb
      simp only [stepHandler, hstack, stateSuper, hp]
      exact ⟨⟨_, _, _, rfl, hpe⟩, p, hp, hpe⟩

lemma Recurs.never_returns {e : HsmEvent} {c d : HsmThread σ υ} (h : Recurs S e c)
    (hd : Reaches S c d) : d.stack ≠ [] := by
  obtain ⟨⟨b, o, rest, hstack, -⟩, -⟩ := hd.invariant (P := Recurs S e) (fun _ => Recurs.step) h
  rw [hstack]
  simp

/-! ### The exact condition -/

variable (H : DelegatingHierarchy σ υ) {e : HsmEvent}

namespace DelegatingHierarchy

lemma climb_of_handles {s : σ} (h : H.handles s e = true) : H.climb e s = [s] := by
  rw [climb, if_pos h]

lemma climb_root {s : σ} (hp : (H.state s).parent = none) : H.climb e s = [s] := by
  rw [climb]
  split
  · rfl
  · split
    · rfl
    · next p hp' => rw [hp] at hp'; cases hp'

lemma climb_parent {s p : σ} (h : H.handles s e = false) (hp : (H.state s).parent = some p) :
    H.climb e s = s :: H.climb e p := by
  rw [climb, h, if_neg Bool.false_ne_true]
  split
  · next hp' => rw [hp] at hp'; cases hp'
  · next q hq =>
      rw [hp] at hq
      rw [Option.some.inj hq]

end DelegatingHierarchy

/-- The dispatch of an event that gets no further than the parent. -/
lemma dispatch_climbs (c : HsmThread σ υ) (h : H.HandledBelow e c.hsm.current) :
    ∃ d, Reaches H.state (dispatchEvent H.state e c) d ∧ d.stack = c.stack ∧
      callees d.log = callees c.log ++ H.climb e c.hsm.current := by
  cases hc : H.handles c.hsm.current e with
  | true =>
      obtain ⟨u, v, hret⟩ := (H.plain _ _ hc).returns (S := H.state)
        { c with log := .called c.hsm.current e .queue :: c.log } .queue c.stack
      exact ⟨_, hret, rfl, by simp [H.climb_of_handles hc]⟩
  | false =>
      have hdel := H.delegates _ _ hc
      cases hp : (H.state c.hsm.current).parent with
      | none =>
          obtain ⟨u, v, hret⟩ := hdel.returns_root (S := H.state)
            { c with log := .called c.hsm.current e .queue :: c.log } .queue c.stack hp
          exact ⟨_, hret, rfl, by simp [H.climb_root hp]⟩
      | some p =>
          have hpe : H.handles p e = true := by
            rcases h with h | h
            · rw [hc] at h; cases h
            · exact h p hp
          obtain ⟨u, v, hret⟩ := hdel.returns_parent (S := H.state)
            { c with log := .called c.hsm.current e .queue :: c.log } .queue c.stack hp
            (H.plain p e hpe)
          exact ⟨_, hret, rfl, by simp [H.climb_parent hc hp, H.climb_of_handles hpe]⟩

/-- **Delegation climbs the hierarchy exactly when it ends at the parent.**  A dispatch
calls the handlers of the current state and its ancestors in order, each once, up to the
first that handles the event, and ends, if and only if the current state handles the
event or its parent, if any, does. -/
theorem dispatch_climbs_iff (c : HsmThread σ υ) (hidle : c.stack = []) :
    (∃ d, Reaches H.state (dispatchEvent H.state e c) d ∧ d.stack = [] ∧
      callees d.log = callees c.log ++ H.climb e c.hsm.current) ↔
    H.HandledBelow e c.hsm.current := by
  refine ⟨?_, fun h => ?_⟩
  · rintro ⟨d, hd, hstack, -⟩
    by_contra hnot
    simp only [DelegatingHierarchy.HandledBelow, not_or, not_forall, Option.mem_def,
      Bool.not_eq_true] at hnot
    obtain ⟨hc, p, hp, hpe⟩ := hnot
    have hrec : Recurs H.state e (dispatchEvent H.state e c) :=
      ⟨⟨_, _, _, rfl, H.delegates _ _ hc⟩, p, hp, H.delegates _ _ hpe⟩
    exact hrec.never_returns hd hstack
  · obtain ⟨d, hd, hstack, hlog⟩ := dispatch_climbs H c h
    exact ⟨d, hd, hstack.trans hidle, hlog⟩

/-- A chain of states numbered from the root `0` on; only the root handles events. -/
def chain : DelegatingHierarchy ℕ Unit where
  state s :=
    { handler := fun e => match s with
        | 0 => .ret 0
        | _ + 1 => .super e (.ret 0)
      parent := match s with
        | 0 => none
        | p + 1 => some p }
  depth s := s
  depth_lt s p h := by
    cases s with
    | zero => cases h
    | succ s => obtain rfl : s = p := Option.some.inj h; exact Nat.lt_succ_self s
  handles s _ := s = 0
  plain s e h := by
    cases s with
    | zero => trivial
    | succ s => simp at h
  delegates s e h := by
    cases s with
    | zero => simp at h
    | succ s => exact ⟨rfl, trivial⟩

/-- One level below the handler a dispatch ends: the case the examples run. -/
theorem chain_child_climbs :
    ∃ d, Reaches chain.state (dispatchEvent chain.state ⟨hsmUserSig, none, 0⟩
        ⟨osaHsmActiveInit 1, (), [], []⟩) d ∧ d.stack = [] ∧
      callees d.log = callees [] ++ chain.climb ⟨hsmUserSig, none, 0⟩ 1 :=
  (dispatch_climbs_iff chain ⟨osaHsmActiveInit 1, (), [], []⟩ rfl).mpr
    (Or.inr fun p hp => by cases hp; rfl)

/-- **Two levels below the handler a dispatch never ends**: the state 1 is called again
and again, the root never. -/
theorem grandchild_never_returns :
    (∀ d, Reaches chain.state (dispatchEvent chain.state ⟨hsmUserSig, none, 0⟩
        ⟨osaHsmActiveInit 2, (), [], []⟩) d → d.stack ≠ []) ∧
      chain.climb ⟨hsmUserSig, none, 0⟩ 2 = [2, 1, 0] := by
  have hrec : Recurs chain.state ⟨hsmUserSig, none, 0⟩
      (dispatchEvent chain.state ⟨hsmUserSig, none, 0⟩ ⟨osaHsmActiveInit 2, (), [], []⟩) :=
    ⟨⟨_, _, _, rfl, rfl, trivial⟩, 1, rfl, rfl, trivial⟩
  refine ⟨fun d => hrec.never_returns, ?_⟩
  · rw [chain.climb_parent rfl rfl, chain.climb_parent rfl rfl, chain.climb_of_handles rfl]

end OpenHsm
