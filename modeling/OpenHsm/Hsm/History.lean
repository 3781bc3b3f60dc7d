import OpenHsm.Hsm.Transition

/-!
The history state: `STATE_TRANSIT(entry->histroy)`, whose argument the macro evaluates after
it wrote `histroy`.

* `lastSwitch`, `lastSwitch_fields`: `current` and `histroy` are the two ends of the last
  transition, in every reachable state.
* `Body.quiet`, `QuietEntries`: entry actions that do not transit; `QuietAbove` is the
  invariant of the handlers a transition has called, `quiet_run` that they leave both
  fields alone until the transition returns.
* `ReturnsToHistory`, `EntersDenoted`: what a return to the history state should do, and
  what a transition with any target expression should do.
* `return_to_history_iff`: it does so exactly when the last transition was from a state to
  itself, and any other target exactly when overwriting `histroy` does not change it.
  `back_stays_on` is the run of a machine that means to go back.
-/

namespace OpenHsm

open Runs

variable {σ υ : Type*} {S : σ → HsmState σ υ} {init : σ}

/-! ### The last transition -/

/-- The last change of `current`. -/
def lastSwitch : List (HsmLog σ) → Option (σ × σ)
  | [] => none
  | .switched s t :: _ => some (s, t)
  | .called _ _ _ :: l => lastSwitch l

@[simp] lemma lastSwitch_switched (s t : σ) (l : List (HsmLog σ)) :
    lastSwitch (.switched s t :: l) = some (s, t) := rfl

@[simp] lemma lastSwitch_called (s : σ) (e : HsmEvent) (o : Caller) (l : List (HsmLog σ)) :
    lastSwitch (.called s e o :: l) = lastSwitch l := rfl

/-- What a step does to the two fields of the machine. -/
lemma nextFields_cases (S : σ → HsmState σ υ) (init : σ) (c : HsmThread σ υ) (a : HsmAct υ) :
    (((hsmSystem S init).next c a).hsm.current = c.hsm.current ∧
      ((hsmSystem S init).next c a).hsm.histroy = c.hsm.histroy ∧
      lastSwitch ((hsmSystem S init).next c a).log = lastSwitch c.log) ∨
    (Transits c a ∧ ((hsmSystem S init).next c a).hsm.histroy = c.hsm.current ∧
      lastSwitch ((hsmSystem S init).next c a).log
        = some (c.hsm.current, ((hsmSystem S init).next c a).hsm.current)) := by
  cases a with
  | dispatch e => exact .inl ⟨rfl, rfl, rfl⟩
  | world u => exact .inl ⟨rfl, rfl, rfl⟩
  | handler =>
      rcases hstack : c.stack with _ | ⟨⟨b, o⟩, rest⟩
      · exact .inl (by simp [hsmSystem, stepHandler, hstack])
      · cases b with
        | transit t k =>
            refine .inr ⟨⟨t, k, o, rest, hstack⟩, ?_⟩
            simp [hsmSystem, stepHandler, hstack, stateTransit, callHandler]
        | super e k =>
            refine .inl ?_
            cases hp : (S c.hsm.current).parent <;>
              simp [hsmSystem, stepHandler, hstack, stateSuper, hp, callHandler]
        | ret v =>
            refine .inl ?_
            cases ho : o.storesError <;> simp [hsmSystem, stepHandler, hstack, ho]
        | read k => exact .inl (by simp [hsmSystem, stepHandler, hstack])
        | act f k => exact .inl (by simp [hsmSystem, stepHandler, hstack])

/-- **`current` and `histroy` are the ends of the last transition.** -/
lemma lastSwitch_fields {c : HsmThread σ υ} (h : (hsmSystem S init).Reachable c) :
    ∀ s t, lastSwitch c.log = some (s, t) → c.hsm.histroy = s ∧ c.hsm.current = t := by
  refine h.invariant
    (P := fun c => ∀ s t, lastSwitch c.log = some (s, t) → c.hsm.histroy = s ∧ c.hsm.current = t)
    ?_ ?_
  · rintro _ ⟨u, rfl⟩ s t hst
    simp [startThread, callHandler, lastSwitch] at hst
  · intro c a ih _ s t hst
    rcases nextFields_cases S init c a with ⟨hcur, hhis, hlog⟩ | ⟨-, hhis, hlog⟩
    · rw [hhis, hcur]
      exact ih s t (hlog ▸ hst)
    · rw [hlog] at hst
      obtain ⟨rfl, rfl⟩ : c.hsm.current = s ∧ ((hsmSystem S init).next c a).hsm.current = t := by
        simpa using hst
      exact ⟨hhis, rfl⟩

/-! ### Entry actions that do not transit -/

/-- The body makes no transition, and delegates nothing but the entry event. -/
def Body.quiet : Body σ υ → Prop
  | .ret _ => True
  | .read k => ∀ u h, (k u h).quiet
  | .act _ k => k.quiet
  | .transit _ _ => False
  | .super e k => e = entryEvent ∧ k.quiet

/-- No entry action of the machine makes a transition. -/
def QuietEntries (S : σ → HsmState σ υ) : Prop := ∀ s, ((S s).handler entryEvent).quiet

/-- The handlers above `base` are quiet. -/
def QuietAbove (base : List (Frame σ υ)) (c : HsmThread σ υ) : Prop :=
  ∃ fs, c.stack = fs ++ base ∧ ∀ f ∈ fs, f.body.quiet

/-- A step of a quiet handler leaves both fields, and calls quiet handlers only. -/
lemma QuietAbove.step {base : List (Frame σ υ)} {c : HsmThread σ υ} (hS : QuietEntries S)
    (h : QuietAbove base c) (hbase : c.stack ≠ base) :
    QuietAbove base (stepHandler S c) ∧ (stepHandler S c).hsm.current = c.hsm.current ∧
      (stepHandler S c).hsm.histroy = c.hsm.histroy := by
  obtain ⟨fs, hstack, hquiet⟩ := h
  rcases fs with _ | ⟨⟨b, o⟩, fs⟩
  · exact absurd hstack hbase
  · rw [List.cons_append] at hstack
    obtain ⟨hb, hfs⟩ := List.forall_mem_cons.mp hquiet
    cases b with
    | ret v =>
        simp only [stepHandler, hstack]
        refine ⟨⟨fs, rfl, hfs⟩, ?_⟩
        cases o.storesError <;> exact ⟨rfl, rfl⟩
    | read k =>
        simp only [stepHandler, hstack]
        exact ⟨⟨⟨k c.user c.hsm, o⟩ :: fs, rfl, List.forall_mem_cons.mpr ⟨hb _ _, hfs⟩⟩,
          trivial, trivial⟩
    | act f k =>
        simp only [stepHandler, hstack]
        exact ⟨⟨⟨k, o⟩ :: fs, rfl, List.forall_mem_cons.mpr ⟨hb, hfs⟩⟩, trivial, trivial⟩
    | transit t k => exact hb.elim
    | super e k =>
        obtain ⟨rfl, hk⟩ := hb
        simp only [stepHandler, hstack, stateSuper]
        cases hp : (S c.hsm.current).parent with
        | none => exact ⟨⟨⟨k, o⟩ :: fs, rfl, List.forall_mem_cons.mpr ⟨hk, hfs⟩⟩, rfl, rfl⟩
        | some p =>
            refine ⟨⟨⟨(S p).handler entryEvent, .super⟩ :: ⟨k, o⟩ :: fs, rfl, ?_⟩, rfl, rfl⟩
            exact List.forall_mem_cons.mpr ⟨hS p, List.forall_mem_cons.mpr ⟨hk, hfs⟩⟩

/-- Until the stack is back at `base`, the handlers above it leave both fields alone,
whatever other threads do. -/
lemma quiet_run {base : List (Frame σ υ)} {c d : HsmThread σ υ}
    {l : List (HsmThread σ υ × HsmAct υ)} (hS : QuietEntries S) (hc : QuietAbove base c)
    (hl : (hsmSystem S init).RunFrom c l d) (hbase : ∀ p ∈ l, p.1.stack ≠ base) :
    QuietAbove base d ∧ d.hsm.current = c.hsm.current ∧ d.hsm.histroy = c.hsm.histroy := by
  induction hl with
  | refl => exact ⟨hc, rfl, rfl⟩
  | @step l d a _ ha ih =>
      obtain ⟨hd, hbase⟩ := List.forall_mem_cons.mp hbase
      obtain ⟨hquiet, hcur, hhis⟩ := ih hbase
      cases a with
      | handler =>
          obtain ⟨hquiet', hcur', hhis'⟩ := hquiet.step hS hd
          exact ⟨hquiet', hcur'.trans hcur, hhis'.trans hhis⟩
      | world u => exact ⟨hquiet, hcur, hhis⟩
      | dispatch e =>
          obtain ⟨fs, hstack, -⟩ := hquiet
          have hnil : d.stack = [] := ha
          rw [hnil, eq_comm, List.append_eq_nil_iff] at hstack
          exact absurd (hnil.trans hstack.2.symm) hd

/-! ### Returning -/

/-- `STATE_TRANSIT(e)` enters the state that `e` denoted when it was requested. -/
structure EntersDenoted (S : σ → HsmState σ υ) (e : HsmActive σ → σ) (c : HsmThread σ υ) :
    Prop where
  current : (stateTransit S e c).hsm.current = e c.hsm
  entry : (stateTransit S e c).log.head? = some (.called (e c.hsm) entryEvent .transit)

/-- After a transition from `h` to `t`, `STATE_TRANSIT(entry->histroy)` goes back to `h`, and
once its entry action is over another one goes back to `t`. -/
structure ReturnsToHistory (S : σ → HsmState σ υ) (init : σ) (c : HsmThread σ υ) (h t : σ) :
    Prop where
  once : EntersDenoted S HsmActive.histroy c ∧
    (stateTransit S HsmActive.histroy c).hsm.current = h ∧
    (stateTransit S HsmActive.histroy c).hsm.histroy = t
  twice : ∀ l d, (hsmSystem S init).RunFrom (stateTransit S HsmActive.histroy c) l d →
    d.stack = c.stack → (∀ p ∈ l, p.1.stack ≠ c.stack) →
    (stateTransit S HsmActive.histroy d).hsm.current = t ∧
      (stateTransit S HsmActive.histroy d).hsm.histroy = h

lemma entersDenoted_iff (S : σ → HsmState σ υ) (e : HsmActive σ → σ) (c : HsmThread σ υ) :
    EntersDenoted S e c ↔ e { c.hsm with histroy := c.hsm.current } = e c.hsm :=
  ⟨fun h => h.current, fun h => ⟨h, by rw [← h]; rfl⟩⟩

/-- The handlers a transition calls are quiet. -/
lemma quietAbove_transit (hS : QuietEntries S) (e : HsmActive σ → σ) (c : HsmThread σ υ) :
    QuietAbove c.stack (stateTransit S e c) :=
  ⟨[_], rfl, fun f hf => by
    obtain rfl := List.mem_singleton.mp hf
    exact hS _⟩

lemma returnsToHistory_iff (hS : QuietEntries S) {c : HsmThread σ υ}
    (hc : (hsmSystem S init).Reachable c) {h t : σ} (hlast : lastSwitch c.log = some (h, t)) :
    ReturnsToHistory S init c h t ↔ h = t := by
  obtain ⟨hhis, hcur⟩ := lastSwitch_fields hc h t hlast
  constructor
  · rintro ⟨⟨-, hback, -⟩, -⟩
    exact hback.symm.trans hcur
  · rintro rfl
    refine ⟨⟨(entersDenoted_iff S _ c).mpr (hcur.trans hhis.symm), hcur, hcur⟩, ?_⟩
    intro l d hl _ hbase
    obtain ⟨-, hd, -⟩ := quiet_run hS (quietAbove_transit hS _ c) hl hbase
    have hdcur : d.hsm.current = h := hd.trans hcur
    exact ⟨hdcur, hdcur⟩

/-- **A return to the history state works exactly after a transition from a state to itself**,
in every reachable state of every machine whose entry actions do not transit; and
`STATE_TRANSIT(e)` enters the state `e` denoted exactly when `e` does not change with
`histroy` overwritten. -/
theorem return_to_history_iff (hS : QuietEntries S) {c : HsmThread σ υ}
    (hc : (hsmSystem S init).Reachable c) {h t : σ} (hlast : lastSwitch c.log = some (h, t)) :
    (ReturnsToHistory S init c h t ↔ h = t) ∧
      ∀ e, EntersDenoted S e c ↔ e { c.hsm with histroy := c.hsm.current } = e c.hsm :=
  ⟨returnsToHistory_iff hS hc hlast, fun e => entersDenoted_iff S e c⟩

/-- A target expression is safe in every state exactly when it does not read `histroy`. -/
theorem enters_denoted_always_iff [Nonempty υ] (S : σ → HsmState σ υ) (e : HsmActive σ → σ) :
    (∀ c, EntersDenoted S e c) ↔ ∀ (a : HsmActive σ) (s : σ), e { a with histroy := s } = e a := by
  simp only [entersDenoted_iff]
  constructor
  · intro h a s
    obtain ⟨u⟩ := ‹Nonempty υ›
    have h1 := h ⟨{ a with histroy := s }, u, [], []⟩
    have h2 := h ⟨a, u, [], []⟩
    exact h1.symm.trans h2
  · exact fun h c => h c.hsm c.hsm.current

/-! ### A machine that means to go back -/

/-- The signal to go back to the state before. -/
def hsmSigBack : Int := hsmUserSig + 1

/-- A state of a switch: the first user signal flips it, the second goes back. -/
def switchState (level : Bool) (e : HsmEvent) : Body Bool Unit :=
  if e.signal = hsmSigEntry then .ret 0
  else if e.signal = hsmUserSig then .transit (fun _ => !level) (.ret 0)
  else if e.signal = hsmSigBack then .transit HsmActive.histroy (.ret 0)
  else .super e (.ret 0)

/-- The switch. -/
def switchHsm (level : Bool) : HsmState Bool Unit := ⟨switchState level, none⟩

lemma switchHsm_quiet : QuietEntries switchHsm := fun _ => trivial

instance (c : HsmThread Bool Unit) (a : HsmAct Unit) :
    Decidable ((hsmSystem switchHsm false).enabled c a) := by
  induction a using HsmAct.casesOn <;> (dsimp only [hsmSystem]; infer_instance)

/-- The steps in which the switch handles one transition. -/
def switchOn (signal : Int) : List (HsmAct Unit) :=
  [.dispatch ⟨signal, none, 0⟩, .handler, .handler, .handler]

/-- After a flip the machine cannot go back, and can flip. -/
theorem flip_enters_denoted :
    ∃ c, (hsmSystem switchHsm false).Reachable c ∧ lastSwitch c.log = some (false, true) ∧
      ¬ ReturnsToHistory switchHsm false c false true ∧
      EntersDenoted switchHsm (fun _ => false) c := by
  obtain ⟨c, hc, hlast⟩ : ∃ c, (hsmSystem switchHsm false).Reachable c ∧
      lastSwitch c.log = some (false, true) :=
    System.reachable_of_replay ⟨(), rfl⟩ (.handler :: switchOn hsmUserSig) (by decide)
  obtain ⟨hreturn, henters⟩ := return_to_history_iff switchHsm_quiet hc hlast
  exact ⟨c, hc, hlast, fun h => absurd (hreturn.mp h) (by decide), (henters _).mpr rfl⟩

/-- **Going back stays where it is.**  The switch was flipped on, `histroy` is off, and the
handler of the back signal executes `STATE_TRANSIT(entry->histroy)`: the machine enters the
on state again, and the off state is forgotten. -/
theorem back_stays_on :
    ∃ c, (hsmSystem switchHsm false).Reachable c ∧ lastSwitch c.log = some (false, true) ∧
      c.hsm.histroy = false ∧
      (∃ k o rest, c.stack = ⟨.transit HsmActive.histroy k, o⟩ :: rest) ∧
      (stepHandler switchHsm c).hsm.current = true ∧
      (stepHandler switchHsm c).hsm.histroy = true ∧
      ¬ ReturnsToHistory switchHsm false c false true := by
  obtain ⟨c, hc, hlast, hhis, hstack, hcur, hforgotten⟩ :
      ∃ c, (hsmSystem switchHsm false).Reachable c ∧ lastSwitch c.log = some (false, true) ∧
        c.hsm.histroy = false ∧
        (∃ k o rest, c.stack = ⟨.transit HsmActive.histroy k, o⟩ :: rest) ∧
        (stepHandler switchHsm c).hsm.current = true ∧
        (stepHandler switchHsm c).hsm.histroy = true :=
    System.reachable_of_replay ⟨(), rfl⟩
      (.handler :: switchOn hsmUserSig ++ [.dispatch ⟨hsmSigBack, none, 0⟩])
      ⟨_, rfl, rfl, rfl, ⟨_, _, _, rfl⟩, rfl, rfl⟩
  refine ⟨c, hc, hlast, hhis, hstack, hcur, hforgotten, fun h => ?_⟩
  exact absurd ((returnsToHistory_iff switchHsm_quiet hc hlast).mp h) (by decide)

end OpenHsm
