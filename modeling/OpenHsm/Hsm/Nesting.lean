import OpenHsm.Library.CallTree
import OpenHsm.Hsm.History

/-!
Transitions inside transitions: the `ENTRY` handler of a target may expand `STATE_TRANSIT`
again, and each of the nested macros reads and overwrites the same three fields, before and
after the ones inside it.

* `TransitTree`, `transitMarks`: the transitions of a run as a tree of nested calls, and the
  beginnings and ends of transitions that the steps of the run are.
* `Encloses`, `Nested`, `nested_step`: the invariant of a run inside a transition: the
  handlers on the stack belong to the transitions still open.
* `Body.relays`: a handler that transits ends by returning `STATE_ERROR()`; `Pending` is the
  invariant of such handlers, `pending_step` what one step keeps.
* `nested_transitions_settle`: `current` and `histroy` are those of the transition begun
  last, `error` is the result of the outermost one, which ends last, and of the innermost
  one if every handler relays it.  `workerHsm` is the machine of the example.
-/

namespace OpenHsm

open Runs Calls

variable {σ υ : Type*} {S : σ → HsmState σ υ} {init : σ}

/-! ### The transitions of a run -/

/-- A `STATE_TRANSIT` with the state it leaves and its target, the transitions made by the
`ENTRY` handler, and the value the handler returned. -/
abbrev TransitTree (σ : Type*) := CallTree (σ × σ) Int

/-- A transition that is not over, with those its `ENTRY` handler has made so far. -/
abbrev OpenTransit (σ : Type*) := (σ × σ) × List (TransitTree σ)

/-- Whether the step begins or ends a `STATE_TRANSIT`. -/
def transitMark : HsmThread σ υ × HsmAct υ → Option (Mark (σ × σ) Int)
  | (c, .handler) =>
      match c.stack with
      | ⟨.transit t _, _⟩ :: _ =>
          some (.begun (c.hsm.current, t { c.hsm with histroy := c.hsm.current }))
      | ⟨.ret v, .transit⟩ :: _ => some (.ended v)
      | _ => none
  | (_, .dispatch _) | (_, .world _) => none

/-- The beginnings and ends of transitions in a run, newest first. -/
def transitMarks (l : List (HsmThread σ υ × HsmAct υ)) : List (Mark (σ × σ) Int) :=
  l.filterMap transitMark

lemma transitMarks_cons (p : HsmThread σ υ × HsmAct υ) (l : List (HsmThread σ υ × HsmAct υ)) :
    transitMarks (p :: l) = (transitMark p).toList ++ transitMarks l := by
  cases h : transitMark p <;> simp [transitMarks, h]

/-- The fields when the transitions of the tree are over. -/
structure SettlesOnInnermost (T : TransitTree σ) (h : HsmActive σ) : Prop where
  current : h.current = T.last.arg.2
  histroy : h.histroy = T.last.arg.1
  error : lastEnded T.trace = some h.error

/-! ### Inside a transition -/

/-- The handlers on the stack and the transitions that called them, innermost first.  The
outermost handler is that of a transition; `STATE_SUPER` calls come in between. -/
inductive Encloses : List (OpenTransit σ) → List (Frame σ υ) → Prop
  | outermost (o : OpenTransit σ) (b : Body σ υ) : Encloses [o] [⟨b, .transit⟩]
  | transit {os : List (OpenTransit σ)} {fs : List (Frame σ υ)}
      (o : OpenTransit σ) (b : Body σ υ) :
      Encloses os fs → Encloses (o :: os) (⟨b, .transit⟩ :: fs)
  | super {os : List (OpenTransit σ)} {fs : List (Frame σ υ)} (b : Body σ υ) :
      Encloses os fs → Encloses os (⟨b, .super⟩ :: fs)

/-- The handler on top goes on. -/
lemma Encloses.body {os : List (OpenTransit σ)} {b : Body σ υ} {o : Caller}
    {fs : List (Frame σ υ)} (h : Encloses os (⟨b, o⟩ :: fs)) (b' : Body σ υ) :
    Encloses os (⟨b', o⟩ :: fs) := by
  cases h with
  | outermost o => exact .outermost o b'
  | transit o _ h => exact .transit o b' h
  | super _ h => exact .super b' h

/-- The innermost transition may have made any calls. -/
lemma Encloses.calls {o : OpenTransit σ} {os : List (OpenTransit σ)}
    {fs : List (Frame σ υ)} (h : Encloses (o :: os) fs) (o' : OpenTransit σ) :
    Encloses (o' :: os) fs := by
  induction fs with
  | nil => cases h
  | cons f fs ih =>
      cases h with
      | outermost _ b => exact .outermost o' b
      | transit _ b h => exact .transit o' b h
      | super b h => exact .super b (ih h)

/-- Some transition is open. -/
lemma Encloses.exists_open {os : List (OpenTransit σ)} {fs : List (Frame σ υ)}
    (h : Encloses os fs) : ∃ a ts os', os = (a, ts) :: os' := by
  induction h with
  | outermost o => exact ⟨o.1, o.2, [], rfl⟩
  | transit o => exact ⟨o.1, o.2, _, rfl⟩
  | super _ _ ih => exact ih

/-- A transition from above `base` is not over, and `m` are the marks since it began. -/
def Nested (base : List (Frame σ υ)) (m : List (Mark (σ × σ) Int)) (c : HsmThread σ υ) : Prop :=
  ∃ fs os, c.stack = fs ++ base ∧ Encloses os fs ∧ openTrace os = m

/-- It is over, and its tree is known. -/
def Finished (base : List (Frame σ υ)) (m : List (Mark (σ × σ) Int)) (c : HsmThread σ υ) : Prop :=
  c.stack = base ∧ ∃ T : TransitTree σ, T.trace = m ∧ lastEnded m = some c.hsm.error

/-- A step inside a transition. -/
lemma nested_step {base : List (Frame σ υ)} {m : List (Mark (σ × σ) Int)} {c : HsmThread σ υ}
    (h : Nested base m c) :
    Nested base ((transitMark (c, HsmAct.handler)).toList ++ m) (stepHandler S c) ∨
      Finished base ((transitMark (c, HsmAct.handler)).toList ++ m) (stepHandler S c) := by
  obtain ⟨fs, os, hstack, henc, rfl⟩ := h
  rcases fs with _ | ⟨⟨b, o⟩, fs⟩
  · cases henc
  rw [List.cons_append] at hstack
  cases b with
  | read k =>
      refine .inl ⟨⟨k c.user c.hsm, o⟩ :: fs, os, ?_, henc.body _, ?_⟩
      · simp [stepHandler, hstack]
      · simp [transitMark, hstack]
  | act f k =>
      refine .inl ⟨⟨k, o⟩ :: fs, os, ?_, henc.body _, ?_⟩
      · simp [stepHandler, hstack]
      · simp [transitMark, hstack]
  | super e k =>
      have hmark : transitMark (c, HsmAct.handler) = none := by simp [transitMark, hstack]
      rw [hmark]
      cases hp : (S c.hsm.current).parent with
      | none =>
          refine .inl ⟨⟨k, o⟩ :: fs, os, ?_, henc.body _, rfl⟩
          simp [stepHandler, hstack, stateSuper, hp]
      | some p =>
          refine .inl ⟨⟨(S p).handler e, .super⟩ :: ⟨k, o⟩ :: fs, os, ?_, .super _ (henc.body _),
            rfl⟩
          simp [stepHandler, hstack, stateSuper, hp, callHandler]
  | transit t k =>
      -- a new call of the tree opens above the ones that are open
      let s := t { c.hsm with histroy := c.hsm.current }
      refine .inl ⟨⟨(S s).handler entryEvent, .transit⟩ :: ⟨k, o⟩ :: fs,
        ((c.hsm.current, s), []) :: os, ?_, .transit _ _ (henc.body k), ?_⟩
      · simp only [stepHandler, hstack, stateTransit, callHandler]
        rfl
      · simp only [transitMark, hstack, Option.toList_some, List.cons_append, List.nil_append]
        exact (openTrace_begun _ _).symm
  | ret v =>
      cases henc with
      | outermost o =>
          obtain ⟨a, ts⟩ := o
          have htrace : (CallTree.node a ts v).trace
              = (transitMark (c, HsmAct.handler)).toList ++ openTrace [(a, ts)] := by
            simp only [transitMark, hstack, Option.toList_some, List.cons_append,
              List.nil_append]
            exact (openTrace_outermost a v ts).symm
          refine .inr ⟨by simp [stepHandler, hstack], .node a ts v, htrace, ?_⟩
          rw [← htrace, ← List.append_nil (CallTree.trace _), lastEnded_trace]
          simp [stepHandler, hstack, Caller.storesError, CallTree.result]
      | transit o _ henc =>
          obtain ⟨a, ts⟩ := o
          obtain ⟨a', ts', os', rfl⟩ := henc.exists_open
          refine .inl ⟨fs, (a', .node a ts v :: ts') :: os', by simp [stepHandler, hstack],
            henc.calls _, ?_⟩
          simp only [transitMark, hstack, Option.toList_some, List.cons_append, List.nil_append]
          exact (openTrace_ended a a' v ts ts' os').symm
      | super _ henc =>
          refine .inl ⟨fs, os, by simp [stepHandler, hstack], henc, ?_⟩
          simp [transitMark, hstack]

/-- What the marks tell about the fields, in every state after the first transition. -/
def FieldsOfLast (m : List (Mark (σ × σ) Int)) (c : HsmThread σ υ) : Prop :=
  lastBegun m = some (c.hsm.histroy, c.hsm.current)

/-- A step sets both fields as it marks the beginning of a transition, or leaves them. -/
lemma fieldsOfLast_step {m : List (Mark (σ × σ) Int)} {c : HsmThread σ υ}
    (h : FieldsOfLast m c) (a : HsmAct υ) :
    FieldsOfLast ((transitMark (c, a)).toList ++ m) ((hsmSystem S init).next c a) := by
  cases a with
  | dispatch e => exact h
  | world u => exact h
  | handler =>
      rcases hstack : c.stack with _ | ⟨⟨b, o⟩, rest⟩
      · simpa [FieldsOfLast, transitMark, hsmSystem, stepHandler, hstack] using h
      cases b with
      | transit t k =>
          simp [FieldsOfLast, transitMark, hsmSystem, stepHandler, hstack, stateTransit,
            callHandler]
      | super e k =>
          cases hp : (S c.hsm.current).parent <;>
            simpa [FieldsOfLast, transitMark, hsmSystem, stepHandler, hstack, stateSuper, hp,
              callHandler] using h
      | read k => simpa [FieldsOfLast, transitMark, hsmSystem, stepHandler, hstack] using h
      | act f k => simpa [FieldsOfLast, transitMark, hsmSystem, stepHandler, hstack] using h
      | ret v =>
          cases o <;> simpa [FieldsOfLast, transitMark, hsmSystem, stepHandler, hstack,
            Caller.storesError] using h

/-! ### Handlers that return `STATE_ERROR()` -/

/-- The handler relays the error: once it has transited, it delegates nothing and ends by
returning `STATE_ERROR()`.  A call of the parent may transit as well.  The first argument is
the error after the last transition of the handler. -/
def Body.relays : Option Int → Body σ υ → Prop
  | r, .ret v => ∀ x ∈ r, v = x
  | r, .read k => ∀ u h, (∀ x ∈ r, h.error = x) → (k u h).relays r
  | r, .act _ k => k.relays r
  | _, .transit _ k => ∀ x, k.relays (some x)
  | r, .super e k => r = none ∧ e = entryEvent ∧ k.relays none ∧ ∀ x, k.relays (some x)

/-- Every `ENTRY` handler that transits ends by returning `STATE_ERROR()`. -/
def RelaysError (S : σ → HsmState σ υ) : Prop := ∀ s, ((S s).handler entryEvent).relays none

/-- The handlers wait for a transition to be over. -/
def Awaits (fs : List (Frame σ υ)) : Prop := ∀ f ∈ fs, ∀ x, f.body.relays (some x)

/-- Relaying handlers on the stack: while the transition begun last is not over, and then,
with the result of its `ENTRY` handler. -/
inductive Pending : Option Int → List (Frame σ υ) → Prop
  | over (r : Option Int) : Pending r []
  | entering {b : Body σ υ} {fs : List (Frame σ υ)} :
      b.relays none → Awaits fs → Pending none (⟨b, .transit⟩ :: fs)
  | delegating {b : Body σ υ} {fs : List (Frame σ υ)} :
      b.relays none → Awaits fs → Pending none fs → Pending none (⟨b, .super⟩ :: fs)
  | returned {b : Body σ υ} {o : Caller} {fs : List (Frame σ υ)} {x : Int} :
      b.relays (some x) → Awaits fs → Pending (some x) (⟨b, o⟩ :: fs)

/-- The handler on top relays, and goes on. -/
lemma Pending.top {r : Option Int} {b : Body σ υ} {o : Caller} {fs : List (Frame σ υ)}
    (h : Pending r (⟨b, o⟩ :: fs)) :
    b.relays r ∧ Awaits fs ∧ ∀ b' : Body σ υ, b'.relays r → Pending r (⟨b', o⟩ :: fs) := by
  cases h with
  | entering hb hfs => exact ⟨hb, hfs, fun b' hb' => .entering hb' hfs⟩
  | delegating hb hfs h => exact ⟨hb, hfs, fun b' hb' => .delegating hb' hfs h⟩
  | returned hb hfs => exact ⟨hb, hfs, fun b' hb' => .returned hb' hfs⟩

/-- The handlers below go on with the result of the transition. -/
lemma Awaits.pending {fs : List (Frame σ υ)} (h : Awaits fs) (x : Int) : Pending (some x) fs := by
  cases fs with
  | nil => exact .over _
  | cons f fs => exact .returned (h f (by simp) x) fun g hg => h g (by simp [hg])

lemma awaits_cons {b : Body σ υ} {o : Caller} {fs : List (Frame σ υ)} :
    Awaits (⟨b, o⟩ :: fs) ↔ (∀ x, b.relays (some x)) ∧ Awaits fs :=
  List.forall_mem_cons

/-- The relaying handlers above `base`, and the error they relay. -/
def Relaying (base : List (Frame σ υ)) (m : List (Mark (σ × σ) Int)) (c : HsmThread σ υ) : Prop :=
  ∃ fs, c.stack = fs ++ base ∧ (∀ f ∈ fs, f.caller.storesError) ∧ Pending (lastResult m) fs ∧
    ∀ x ∈ lastResult m, c.hsm.error = x

/-- A step of a relaying handler. -/
lemma relaying_step (hS : RelaysError S) {base : List (Frame σ υ)}
    {m : List (Mark (σ × σ) Int)} {c : HsmThread σ υ} (h : Relaying base m c)
    (hbase : c.stack ≠ base) :
    Relaying base ((transitMark (c, HsmAct.handler)).toList ++ m) (stepHandler S c) := by
  obtain ⟨fs, hstack, hstores, hpend, herror⟩ := h
  rcases fs with _ | ⟨⟨b, o⟩, fs⟩
  · exact absurd hstack hbase
  rw [List.cons_append] at hstack
  obtain ⟨ho, hcallers⟩ := List.forall_mem_cons.mp hstores
  obtain ⟨hb, hfs, hgo⟩ := hpend.top
  cases b with
  | read k =>
      simp only [transitMark, stepHandler, hstack]
      exact ⟨⟨k c.user c.hsm, o⟩ :: fs, rfl, List.forall_mem_cons.mpr ⟨ho, hcallers⟩,
        hgo _ (hb _ _ herror), herror⟩
  | act f k =>
      simp only [transitMark, stepHandler, hstack]
      exact ⟨⟨k, o⟩ :: fs, rfl, List.forall_mem_cons.mpr ⟨ho, hcallers⟩, hgo _ hb, herror⟩
  | transit t k =>
      -- whatever the handlers above return, `k` awaits it
      simp only [transitMark, stepHandler, hstack]
      refine ⟨_ :: ⟨k, o⟩ :: fs, rfl, ?_, .entering (hS _) (awaits_cons.mpr ⟨hb, hfs⟩),
        by simp⟩
      exact List.forall_mem_cons.mpr ⟨rfl, List.forall_mem_cons.mpr ⟨ho, hcallers⟩⟩
  | super e k =>
      obtain ⟨hnone, rfl, hk, hkx⟩ := hb
      simp only [transitMark, stepHandler, hstack, stateSuper]
      cases hp : (S c.hsm.current).parent with
      | none =>
          exact ⟨⟨k, o⟩ :: fs, rfl, List.forall_mem_cons.mpr ⟨ho, hcallers⟩,
            hgo _ (hnone ▸ hk), herror⟩
      | some p =>
          refine ⟨⟨(S p).handler entryEvent, .super⟩ :: ⟨k, o⟩ :: fs, rfl, ?_, ?_, herror⟩
          · exact List.forall_mem_cons.mpr ⟨rfl, List.forall_mem_cons.mpr ⟨ho, hcallers⟩⟩
          · have htop := hgo k (hnone ▸ hk)
            rw [Option.toList_none, List.nil_append, hnone] at *
            exact .delegating (hS p) (awaits_cons.mpr ⟨hkx, hfs⟩) htop
  | ret v =>
      have hstack' : (stepHandler S c).stack = fs ++ base := by simp only [stepHandler, hstack]
      have herror' : (stepHandler S c).hsm.error = v := by simp [stepHandler, hstack, ho]
      generalize hr : lastResult m = r at hb hpend herror
      cases hpend with
      | entering _ _ =>
          -- the transition begun last is over, with the result `v`
          refine ⟨fs, hstack', hcallers, ?_, ?_⟩ <;>
            simp only [transitMark, hstack, Option.toList_some, List.cons_append,
              List.nil_append, lastResult_ended, hr, Option.getD_none]
          · exact hfs.pending v
          · simpa using herror'
      | delegating _ _ hpend =>
          refine ⟨fs, hstack', hcallers, ?_, ?_⟩ <;>
            simp only [transitMark, hstack, Option.toList_none, List.nil_append, hr]
          · exact hpend
          · simp
      | @returned _ _ _ x _ _ =>
          -- `v` is the error the handler read
          obtain rfl : v = x := hb x rfl
          have hr' : lastResult ((transitMark (c, HsmAct.handler)).toList ++ m) = some v := by
            cases o <;> simp [transitMark, hstack, hr]
          refine ⟨fs, hstack', hcallers, ?_, ?_⟩ <;> rw [hr']
          · exact hfs.pending v
          · simpa using herror'

/-! ### The whole transition -/

/-- From its beginning until it is over, the marks of a transition are those of open calls. -/
lemma nested_run {base : List (Frame σ υ)} {m : List (Mark (σ × σ) Int)} {c d : HsmThread σ υ}
    {l : List (HsmThread σ υ × HsmAct υ)} (hc : Nested base m c)
    (hl : (hsmSystem S init).RunFrom c l d) (hbase : ∀ p ∈ l, p.1.stack ≠ base) :
    Nested base (transitMarks l ++ m) d ∨ Finished base (transitMarks l ++ m) d := by
  induction hl with
  | refl => exact .inl hc
  | @step l d a _ ha ih =>
      obtain ⟨hd, hbase⟩ := List.forall_mem_cons.mp hbase
      rcases ih hbase with hnest | ⟨hstack, -⟩
      · rw [transitMarks_cons, List.append_assoc]
        cases a with
        | handler => exact nested_step hnest
        | world u => exact .inl hnest
        | dispatch e =>
            obtain ⟨fs, os, hstack, henc, -⟩ := hnest
            have hnil : d.stack = [] := ha
            rw [hnil, eq_comm, List.append_eq_nil_iff] at hstack
            obtain ⟨rfl, -⟩ := hstack
            cases henc
      · exact absurd hstack hd

/-- A transition over, its run has a tree. -/
lemma nested_run_over {base : List (Frame σ υ)} {m : List (Mark (σ × σ) Int)}
    {c d : HsmThread σ υ} {l : List (HsmThread σ υ × HsmAct υ)} (hc : Nested base m c)
    (hl : (hsmSystem S init).RunFrom c l d) (hbase : ∀ p ∈ l, p.1.stack ≠ base)
    (hd : d.stack = base) : Finished base (transitMarks l ++ m) d := by
  rcases nested_run hc hl hbase with ⟨fs, os, hstack, henc, -⟩ | hfin
  · have hnil : fs = [] := by
      rw [hd] at hstack
      exact List.self_eq_append_left.mp hstack
    subst hnil
    cases henc
  · exact hfin

lemma fieldsOfLast_run {m : List (Mark (σ × σ) Int)} {c d : HsmThread σ υ}
    {l : List (HsmThread σ υ × HsmAct υ)} (hc : FieldsOfLast m c)
    (hl : (hsmSystem S init).RunFrom c l d) : FieldsOfLast (transitMarks l ++ m) d := by
  induction hl with
  | refl => exact hc
  | step _ _ ih =>
      rw [transitMarks_cons, List.append_assoc]
      exact fieldsOfLast_step ih _

lemma relaying_run (hS : RelaysError S) {base : List (Frame σ υ)}
    {m : List (Mark (σ × σ) Int)} {c d : HsmThread σ υ} {l : List (HsmThread σ υ × HsmAct υ)}
    (hc : Relaying base m c) (hl : (hsmSystem S init).RunFrom c l d)
    (hbase : ∀ p ∈ l, p.1.stack ≠ base) : Relaying base (transitMarks l ++ m) d := by
  induction hl with
  | refl => exact hc
  | @step l d a _ ha ih =>
      obtain ⟨hd, hrest⟩ := List.forall_mem_cons.mp hbase
      rw [transitMarks_cons, List.append_assoc]
      cases a with
      | handler => exact relaying_step hS (ih hrest) hd
      | world u => exact ih hrest
      | dispatch e =>
          obtain ⟨fs, hstack, -⟩ := ih hrest
          have hnil : d.stack = [] := ha
          rw [hnil, eq_comm, List.append_eq_nil_iff] at hstack
          exact absurd (hnil.trans hstack.2.symm) hd

/-- **Nested transitions settle on the innermost one.**  Whenever a `STATE_TRANSIT` is over,
its run is that of a tree of transitions: `current` is the target of the transition begun
last, `histroy` the state it left, `error` what the `ENTRY` handler of the transition that
ended last returned.  If every `ENTRY` handler that transits ends by returning
`STATE_ERROR()`, `error` is the result of the transition begun last. -/
theorem nested_transitions_settle {c d : HsmThread σ υ} {t : HsmActive σ → σ} {k : Body σ υ}
    {o : Caller} {rest : List (Frame σ υ)} {l : List (HsmThread σ υ × HsmAct υ)}
    (hc : c.stack = ⟨.transit t k, o⟩ :: rest)
    (hl : (hsmSystem S init).RunFrom (stepHandler S c) l d)
    (hd : d.stack = ⟨k, o⟩ :: rest) (hbase : ∀ p ∈ l, p.1.stack ≠ ⟨k, o⟩ :: rest) :
    ∃ T : TransitTree σ, T.trace = transitMarks (l ++ [(c, .handler)]) ∧
      SettlesOnInnermost T d.hsm ∧ (RelaysError S → d.hsm.error = T.last.result) := by
  set s := t { c.hsm with histroy := c.hsm.current } with hs
  have hmark : transitMarks [(c, HsmAct.handler)] = [.begun (c.hsm.current, s)] := by
    simp [transitMarks, transitMark, hc, hs]
  have hmarks : transitMarks (l ++ [(c, .handler)]) =
      transitMarks l ++ [.begun (c.hsm.current, s)] := by
    rw [transitMarks, List.filterMap_append, ← transitMarks, ← transitMarks, hmark]
  have hstart : (stepHandler S c).stack =
      [⟨(S s).handler entryEvent, .transit⟩] ++ ⟨k, o⟩ :: rest := by
    simp only [stepHandler, hc, stateTransit, callHandler]
    rfl
  have hnest : Nested (⟨k, o⟩ :: rest) [.begun (c.hsm.current, s)] (stepHandler S c) :=
    ⟨_, [((c.hsm.current, s), [])], hstart, .outermost _ _, rfl⟩
  have hfields : FieldsOfLast [.begun (c.hsm.current, s)] (stepHandler S c) := by
    simp [FieldsOfLast, stepHandler, hc, stateTransit, callHandler, hs]
  obtain ⟨-, T, hT, herror⟩ := nested_run_over hnest hl hbase hd
  have hlast := fieldsOfLast_run hfields hl
  rw [← hmarks] at hT herror hlast
  have hends : T.last.arg = (d.hsm.histroy, d.hsm.current) := by
    have htree := lastBegun_trace T []
    rw [List.append_nil, hT, hlast] at htree
    exact (Option.some.inj htree).symm
  refine ⟨T, hT, ⟨by rw [hends], by rw [hends], hT ▸ herror⟩, fun hS => ?_⟩
  have hrelay : Relaying (⟨k, o⟩ :: rest) [.begun (c.hsm.current, s)] (stepHandler S c) :=
    ⟨_, hstart, by simp [Caller.storesError], .entering (hS s) (by simp [Awaits]), by simp⟩
  obtain ⟨-, -, -, -, hresult⟩ := relaying_run hS hrelay hl hbase
  refine hresult _ ?_
  rw [← hmarks, ← hT, Option.mem_def, ← lastResult_trace T [], List.append_nil]

/-! ### The machine of the worker example -/

/-- The states of the example. -/
inductive WorkState where
  | idle | working | processing
  deriving DecidableEq, Repr

/-- `struct worker_pool_example`, and what the calls of the worker pool answer. -/
structure WorkerPoolExample where
  /-- `osa_worker_job_alloc`. -/
  alloc : Option ℕ
  /-- `osa_worker_pool_submit_to_hsm`. -/
  submit : Int
  /-- `job->result` of a completed job. -/
  jobResult : ℕ → Int
  currentJob : Option ℕ
  jobCount : ℕ
  completedCount : ℕ
  errorCount : ℕ
  operationProgress : Int
  operationResult : Int

/-- The signals its handlers react to. -/
def sigWorkStart : Int := hsmUserSig
def sigWorkComplete : Int := hsmUserSig + 1
def sigWorkCancel : Int := hsmUserSig + 2
def sigWorkProgress : Int := hsmUserSig + 3
def sigWorkError : Int := hsmUserSig + 4

/-- `STATE_TRANSIT(s); ret = STATE_ERROR(); … return ret`. -/
def transitRelay (s : WorkState) : Body WorkState WorkerPoolExample :=
  .transit (fun _ => s) (.read fun _ h => .ret h.error)

/-- `state_idle_handler`. -/
def stateIdleHandler (e : HsmEvent) : Body WorkState WorkerPoolExample :=
  if e.signal = hsmSigEntry then
    .act (fun u => { u with operationProgress := 0, operationResult := 0 }) (.ret 0)
  else if e.signal = sigWorkStart then transitRelay .working
  else .ret 0

/-- The submission of the job in the `HSM_SIG_ENTRY` case of `state_working_handler`. -/
def workingSubmit (job : ℕ) : Body WorkState WorkerPoolExample :=
  .act (fun u => { u with currentJob := some job }) <|
  .read fun u _ =>
    if u.submit ≠ 0 then
      .act (fun u => { u with currentJob := none }) (transitRelay .idle)
    else transitRelay .processing

/-- The `HSM_SIG_ENTRY` case of `state_working_handler`. -/
def workingEntry : Body WorkState WorkerPoolExample :=
  .act (fun u => { u with jobCount := u.jobCount + 1 }) <|
  .read fun u _ =>
    match u.alloc with
    | none => transitRelay .idle
    | some job => workingSubmit job

/-- The `SIG_WORK_COMPLETE` case. -/
def workComplete (data : Option ℕ) : Body WorkState WorkerPoolExample :=
  match data with
  | none => transitRelay .idle
  | some job =>
      .act (fun u =>
        if u.jobResult job < 0 then
          { u with errorCount := u.errorCount + 1, currentJob := none }
        else { u with completedCount := u.completedCount + 1, currentJob := none })
        (transitRelay .idle)

/-- `state_working_handler`; the cancellation of a job changes nothing the handlers read. -/
def stateWorkingHandler (e : HsmEvent) : Body WorkState WorkerPoolExample :=
  if e.signal = hsmSigEntry then workingEntry
  else if e.signal = sigWorkComplete then workComplete e.data
  else if e.signal = sigWorkCancel ∨ e.signal = sigWorkStart then .ret 0
  else .super e (.ret 0)

/-- `state_processing_handler`. -/
def stateProcessingHandler (e : HsmEvent) : Body WorkState WorkerPoolExample :=
  if e.signal = hsmSigEntry ∨ e.signal = hsmSigPeriod ∨ e.signal = sigWorkProgress then .ret 0
  else if e.signal = sigWorkError then
    .act (fun u => { u with errorCount := u.errorCount + 1 }) (transitRelay .working)
  else .super e (.ret 0)

/-- The machine of the example. -/
def workerHsm : WorkState → HsmState WorkState WorkerPoolExample
  | .idle => ⟨stateIdleHandler, none⟩
  | .working => ⟨stateWorkingHandler, none⟩
  | .processing => ⟨stateProcessingHandler, some .working⟩

lemma transitRelay_relays (s : WorkState) : (transitRelay s).relays none :=
  fun _ _ _ herror => herror

lemma workingSubmit_relays (job : ℕ) : (workingSubmit job).relays none := by
  intro u h _
  by_cases hsubmit : u.submit ≠ 0
  · simp only [if_pos hsubmit]
    exact transitRelay_relays .idle
  · simp only [if_neg hsubmit]
    exact transitRelay_relays .processing

/-- Every `ENTRY` handler of the example that transits ends by returning `STATE_ERROR()`. -/
lemma workerHsm_relaysError : RelaysError workerHsm := by
  intro s
  cases s with
  | idle => simp [workerHsm, stateIdleHandler, entryEvent, Body.relays]
  | processing => simp [workerHsm, stateProcessingHandler, entryEvent, Body.relays]
  | working =>
      intro u h _
      cases hu : u.alloc with
      | none =>
          simp only [hu]
          exact transitRelay_relays .idle
      | some job =>
          simp only [hu]
          exact workingSubmit_relays job

instance (c : HsmThread WorkState WorkerPoolExample) (a : HsmAct WorkerPoolExample) :
    Decidable ((hsmSystem workerHsm .idle).enabled c a) := by
  induction a using HsmAct.casesOn <;> (dsimp only [hsmSystem]; infer_instance)

/-- The thread of the example at the `STATE_TRANSIT(&state_working)` of the idle state. -/
def workStarted : HsmThread WorkState WorkerPoolExample :=
  dispatchEvent workerHsm ⟨sigWorkStart, none, 0⟩
    ⟨osaHsmActiveInit .idle, ⟨some 0, 0, fun _ => 0, none, 0, 0, 0, 0, 0⟩, [], []⟩

/-- The start of a job goes through the working state to the processing one. -/
theorem work_start_settles :
    ∃ d : HsmThread WorkState WorkerPoolExample, ∃ T : TransitTree WorkState,
      T.trace = [.ended 0, .ended 0, .begun (.working, .processing), .begun (.idle, .working)] ∧
        SettlesOnInnermost T d.hsm ∧ d.hsm.error = T.last.result := by
  have hreplay : (hsmSystem workerHsm .idle).replay (stepHandler workerHsm workStarted)
      (List.replicate 8 .handler) = some ((stepHandler workerHsm)^[9] workStarted) := rfl
  have hrun := System.runFrom_of_replay hreplay
  obtain ⟨T, hT, hsettles, hrelay⟩ := nested_transitions_settle (c := workStarted) rfl hrun rfl
    (by
      intro p hp heq
      have hlen := congrArg List.length heq
      simp only [System.history, List.replicate] at hp
      fin_cases hp <;> exact absurd hlen (by decide))
  exact ⟨_, T, hT.trans rfl, hsettles, hrelay workerHsm_relaysError⟩

end OpenHsm
