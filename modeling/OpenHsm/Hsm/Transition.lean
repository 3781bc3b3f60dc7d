import OpenHsm.Hsm.Machine

/-!
Transitions, and the exit actions that are not run.

* `macroSignal`, `exitsSince`: the entry and exit events the macros themselves send, and
  how many exits a state got since the last change of `current`.
* `TransitionLaw`: every transition was preceded by one exit of the state it left,
  followed by one entry of the state it went to and recorded in `histroy`; and for every
  state entries and exits alternate.
* `nextLog_cases`: what one step of the thread adds to the log.
* `exit_never_sent`: no step sends `HSM_SIG_EXIT`, so `transition_law_iff`: the law holds
  along a run exactly when no handler executes `STATE_TRANSIT` in it.
* `ledHsm`: the machine of the ESP32 example; `blinking_timer_keeps_ticking` is the run in
  which the timer of a state outlives it.
-/

namespace OpenHsm

open Runs

variable {σ υ : Type*} [DecidableEq σ]

/-- The caller makes up the event it sends. -/
def Caller.makesEvent : Caller → Bool
  | .init | .transit => true
  | .queue | .super => false

/-- The entry or exit event a macro sent to the state `s`. -/
def macroSignal (s : σ) : HsmLog σ → Option Int
  | .called t e o =>
      if t = s ∧ o.makesEvent ∧ (e.signal = hsmSigEntry ∨ e.signal = hsmSigExit) then
        some e.signal
      else none
  | .switched _ _ => none

/-- The entry and exit events the macros sent to `s`, oldest first. -/
def macroSignals (s : σ) (l : List (HsmLog σ)) : List Int := (l.filterMap (macroSignal s)).reverse

/-- The entry is a change of `current`. -/
def HsmLog.isSwitch : HsmLog σ → Bool
  | .switched _ _ => true
  | .called _ _ _ => false

/-- The exit events `s` got since the last change of `current`. -/
def exitsSince (s : σ) (l : List (HsmLog σ)) : ℕ :=
  ((l.takeWhile fun x => !x.isSwitch).filterMap (macroSignal s)).count hsmSigExit

/-- The list reads `a`, `b`, `a`, `b`, and so on. -/
def Alternates : Int → Int → List Int → Prop
  | _, _, [] => True
  | a, b, x :: l => x = a ∧ Alternates b a l

/-- What transitions should do. -/
structure TransitionLaw (c : HsmThread σ υ) : Prop where
  exits : ∀ post pre s t, c.log = post ++ .switched s t :: pre → exitsSince s pre = 1
  enters : ∀ post pre s t, c.log = post ++ .switched s t :: pre →
    ∃ post', post = post' ++ [.called t entryEvent .transit]
  records : ∀ post pre s t, c.log = post ++ .switched s t :: pre →
    (∀ x ∈ post, x.isSwitch = false) → c.hsm.histroy = s ∧ c.hsm.current = t
  alternates : ∀ s, Alternates hsmSigEntry hsmSigExit (macroSignals s c.log)

/-! ### One step -/

variable {S : σ → HsmState σ υ} {init : σ}

/-- The step is one of a handler at a `STATE_TRANSIT`. -/
def Transits (c : HsmThread σ υ) : HsmAct υ → Prop
  | .handler => ∃ t k o rest, c.stack = ⟨.transit t k, o⟩ :: rest
  | .dispatch _ | .world _ => False

omit [DecidableEq σ] in
/-- What a step adds to the log. -/
lemma nextLog_cases (S : σ → HsmState σ υ) (init : σ) (c : HsmThread σ υ) (a : HsmAct υ) :
    (Transits c a ∧ ∃ t, ((hsmSystem S init).next c a).log =
      .called t entryEvent .transit :: .switched c.hsm.current t :: c.log) ∨
    (¬ Transits c a ∧ (((hsmSystem S init).next c a).log = c.log ∨
      ∃ s e o, o.makesEvent = false ∧
        ((hsmSystem S init).next c a).log = .called s e o :: c.log)) := by
  cases a with
  | dispatch e => exact Or.inr ⟨id, Or.inr ⟨c.hsm.current, e, .queue, rfl, rfl⟩⟩
  | world u => exact Or.inr ⟨id, Or.inl rfl⟩
  | handler =>
      rcases hstack : c.stack with _ | ⟨⟨b, o⟩, rest⟩
      · exact Or.inr ⟨by simp [Transits, hstack], Or.inl (by simp [hsmSystem, stepHandler, hstack])⟩
      · cases b with
        | transit t k =>
            refine Or.inl ⟨⟨t, k, o, rest, hstack⟩,
              t { c.hsm with histroy := c.hsm.current }, ?_⟩
            simp [hsmSystem, stepHandler, hstack, stateTransit, callHandler]
        | super e k =>
            refine Or.inr ⟨by simp [Transits, hstack], ?_⟩
            cases hp : (S c.hsm.current).parent with
            | none => exact Or.inl (by simp [hsmSystem, stepHandler, hstack, stateSuper, hp])
            | some p =>
                exact Or.inr ⟨p, e, .super, rfl,
                  by simp [hsmSystem, stepHandler, hstack, stateSuper, hp, callHandler]⟩
        | ret v => exact Or.inr ⟨by simp [Transits, hstack], Or.inl (by
            simp [hsmSystem, stepHandler, hstack])⟩
        | read k => exact Or.inr ⟨by simp [Transits, hstack], Or.inl (by
            simp [hsmSystem, stepHandler, hstack])⟩
        | act f k => exact Or.inr ⟨by simp [Transits, hstack], Or.inl (by
            simp [hsmSystem, stepHandler, hstack])⟩

lemma macroSignal_of_not_makesEvent (s t : σ) (e : HsmEvent) {o : Caller}
    (ho : o.makesEvent = false) : macroSignal s (.called t e o) = none := by
  simp [macroSignal, ho]

lemma macroSignal_entry (s t : σ) (o : Caller) :
    macroSignal s (.called t entryEvent o) ≠ some hsmSigExit := by
  simp only [macroSignal]
  split
  · exact fun h => absurd (Option.some.inj h) (by decide)
  · simp

/-- **No macro sends `HSM_SIG_EXIT`**, in any run of any machine. -/
theorem exit_never_sent {c : HsmThread σ υ} (h : (hsmSystem S init).Reachable c) (s : σ) :
    ∀ x ∈ c.log, macroSignal s x ≠ some hsmSigExit := by
  refine h.invariant (P := fun c => ∀ x ∈ c.log, macroSignal s x ≠ some hsmSigExit) ?_ ?_
  · rintro _ ⟨u, rfl⟩ x hx
    obtain rfl : x = .called init entryEvent .init := by
      simpa [startThread, callHandler] using hx
    exact macroSignal_entry s _ _
  · intro c a ih _ x hx
    rcases nextLog_cases S init c a with
      ⟨-, t, hlog⟩ | ⟨-, hlog | ⟨t, e, o, ho, hlog⟩⟩
    · rw [hlog] at hx
      simp only [List.mem_cons] at hx
      rcases hx with rfl | rfl | hx
      · exact macroSignal_entry s _ _
      · simp [macroSignal]
      · exact ih x hx
    · exact ih x (hlog ▸ hx)
    · rw [hlog, List.mem_cons] at hx
      rcases hx with rfl | hx
      · simp [macroSignal_of_not_makesEvent s t e ho]
      · exact ih x hx

/-- A state that got no exit at all got none since the last change of `current`. -/
lemma exitsSince_eq_zero {s : σ} {l : List (HsmLog σ)}
    (h : ∀ x ∈ l, macroSignal s x ≠ some hsmSigExit) : exitsSince s l = 0 := by
  rw [exitsSince, List.count_eq_zero, List.mem_filterMap]
  rintro ⟨x, hx, hsig⟩
  exact h x ((List.takeWhile_sublist _).subset hx) hsig

/-! ### Runs without transitions -/

/-- Since the start of the thread no transition was made. -/
def Settled (init : σ) (c : HsmThread σ υ) : Prop :=
  ∃ l, c.log = l ++ [.called init entryEvent .init] ∧
    ∀ x ∈ l, ∃ s e o, x = .called s e o ∧ o.makesEvent = false

omit [DecidableEq σ] in
lemma Settled.start (u : υ) : Settled init (startThread S init u) := ⟨[], rfl, by simp⟩

omit [DecidableEq σ] in
lemma Settled.not_switched {c : HsmThread σ υ} (h : Settled init c) (s t : σ) :
    HsmLog.switched s t ∉ c.log := by
  obtain ⟨l, hlog, hl⟩ := h
  rw [hlog]
  intro hmem
  rcases List.mem_append.mp hmem with hmem | hmem
  · obtain ⟨s', e, o, heq, -⟩ := hl _ hmem
    cases heq
  · simp at hmem

/-- Without transitions the law holds. -/
lemma Settled.law {c : HsmThread σ υ} (h : Settled init c) : TransitionLaw c := by
  have hsw : ∀ post pre s t, c.log ≠ post ++ .switched s t :: pre :=
    fun post pre s t heq => h.not_switched s t (by rw [heq]; simp)
  refine ⟨fun _ _ _ _ heq => (hsw _ _ _ _ heq).elim, fun _ _ _ _ heq => (hsw _ _ _ _ heq).elim,
    fun _ _ _ _ heq => (hsw _ _ _ _ heq).elim, fun s => ?_⟩
  obtain ⟨l, hlog, hl⟩ := h
  have hnone : l.filterMap (macroSignal s) = [] := by
    rw [List.filterMap_eq_nil_iff]
    intro x hx
    obtain ⟨t, e, o, rfl, ho⟩ := hl x hx
    exact macroSignal_of_not_makesEvent s t e ho
  by_cases hs : init = s
  · simp [macroSignals, hlog, hnone, macroSignal, hs, entryEvent, Caller.makesEvent, Alternates]
  · simp [macroSignals, hlog, hnone, macroSignal, hs, Alternates]

omit [DecidableEq σ] in
lemma Settled.step {c : HsmThread σ υ} {a : HsmAct υ} (h : Settled init c)
    (ha : ¬ Transits c a) : Settled init ((hsmSystem S init).next c a) := by
  obtain ⟨l, hlog, hl⟩ := h
  rcases nextLog_cases S init c a with
    ⟨htr, -⟩ | ⟨-, hnext | ⟨s, e, o, ho, hnext⟩⟩
  · exact absurd htr ha
  · exact ⟨l, hnext.trans hlog, hl⟩
  · refine ⟨.called s e o :: l, by rw [hnext, hlog]; rfl, ?_⟩
    intro x hx
    rcases List.mem_cons.mp hx with rfl | hx
    · exact ⟨s, e, o, rfl, ho⟩
    · exact hl x hx

/-- The first transition breaks the law: the state it leaves got no exit. -/
lemma Settled.not_law {c : HsmThread σ υ} {a : HsmAct υ} (h : Settled init c)
    (ha : Transits c a) : ¬ TransitionLaw ((hsmSystem S init).next c a) := by
  intro hlaw
  rcases nextLog_cases S init c a with ⟨-, t, hnext⟩ | ⟨hnot, -⟩
  · have hone := hlaw.exits [_] c.log c.hsm.current t hnext
    obtain ⟨l, hlog, hl⟩ := h
    have hzero : exitsSince c.hsm.current c.log = 0 := by
      refine exitsSince_eq_zero fun x hx => ?_
      rw [hlog, List.mem_append, List.mem_singleton] at hx
      rcases hx with hx | rfl
      · obtain ⟨s, e, o, rfl, ho⟩ := hl x hx
        simp [macroSignal_of_not_makesEvent _ s e ho]
      · exact macroSignal_entry c.hsm.current _ _
    omega
  · exact hnot ha

/-- **Transitions exit before they enter exactly in the runs without transitions.** -/
theorem transition_law_iff {c d : HsmThread σ υ} {l : List (HsmThread σ υ × HsmAct υ)}
    (hc : (hsmSystem S init).init c) (hl : (hsmSystem S init).RunFrom c l d) :
    (TransitionLaw d ∧ ∀ p ∈ l, TransitionLaw p.1) ↔ ∀ p ∈ l, ¬ Transits p.1 p.2 := by
  obtain ⟨u, rfl⟩ := hc
  have hstart : Settled init (startThread S init u) := Settled.start u
  refine hl.forall_iff (J := Settled init) (c := fun c a => ¬ Transits c a)
    hstart.law hstart ?_ ?_
  · exact fun c a _ hJ _ => ⟨fun hlaw htr => hJ.not_law htr hlaw, fun hn => (hJ.step hn).law⟩
  · exact fun c a _ hJ _ hn => hJ.step hn

/-! ### The machine of the ESP32 example -/

/-- The states of the example. -/
inductive LedState where
  | off | on | blinking
  deriving DecidableEq, Repr

/-- What its handlers work on: `led_state`, and whether the periodic timer runs. -/
structure LedHsm where
  ledState : Bool
  ticking : Bool
  deriving DecidableEq, Repr

/-- The signals its handlers react to. -/
def hsmSigButtonPress : Int := hsmUserSig
def hsmSigToggleLed : Int := hsmUserSig + 4

/-- `led_off_state` and `led_on_state`, which differ in the level they set and in the
states they go to. -/
def ledLevelState (level : Bool) (onPress onToggle : LedState) (e : HsmEvent) :
    Body LedState LedHsm :=
  if e.signal = hsmSigEntry then .act (fun u => { u with ledState := level }) (.ret 0)
  else if e.signal = hsmSigExit then .ret 0
  else if e.signal = hsmSigButtonPress then .transit (fun _ => onPress) (.ret 0)
  else if e.signal = hsmSigToggleLed then .transit (fun _ => onToggle) (.ret 0)
  else .super e (.ret 0)

/-- `led_off_state`. -/
def ledOffState : HsmEvent → Body LedState LedHsm := ledLevelState false .on .on

/-- `led_on_state`. -/
def ledOnState : HsmEvent → Body LedState LedHsm := ledLevelState true .blinking .off

/-- `led_blinking_state`: the timer is started on entry and stopped on exit. -/
def ledBlinkingState (e : HsmEvent) : Body LedState LedHsm :=
  if e.signal = hsmSigEntry then .act (fun u => { u with ticking := true }) (.ret 0)
  else if e.signal = hsmSigExit then .act (fun u => { u with ticking := false }) (.ret 0)
  else if e.signal = hsmSigPeriod then
    .act (fun u => { u with ledState := !u.ledState }) (.ret 0)
  else if e.signal = hsmSigButtonPress then .transit (fun _ => .off) (.ret 0)
  else .super e (.ret 0)

/-- `led_off`, `led_on` and `led_blinking`. -/
def ledHsm : LedState → HsmState LedState LedHsm
  | .off => ⟨ledOffState, none⟩
  | .on => ⟨ledOnState, none⟩
  | .blinking => ⟨ledBlinkingState, none⟩

instance (c : HsmThread LedState LedHsm) (a : HsmAct LedHsm) :
    Decidable ((hsmSystem ledHsm .off).enabled c a) := by
  cases a <;> (simp only [hsmSystem]; infer_instance)

/-- A press of the button. -/
def buttonPress : HsmAct LedHsm := .dispatch ⟨hsmSigButtonPress, none, 0⟩

/-- Until the first press the law holds. -/
theorem led_start_law :
    ∃ d, (hsmSystem ledHsm .off).RunFrom (startThread ledHsm .off ⟨true, false⟩)
        [(startThread ledHsm .off ⟨true, false⟩, .handler)] d ∧ TransitionLaw d := by
  have hrun : (hsmSystem ledHsm .off).RunFrom (startThread ledHsm .off ⟨true, false⟩)
      [(startThread ledHsm .off ⟨true, false⟩, .handler)] _ :=
    System.RunFrom.refl.step (by simp [hsmSystem, startThread, callHandler])
  refine ⟨_, hrun, ((transition_law_iff ⟨⟨true, false⟩, rfl⟩ hrun).mpr ?_).1⟩
  simp [Transits, startThread, callHandler, ledHsm, ledOffState, ledLevelState, entryEvent]

/-- **Three presses leave the blinking state without its exit action**: the machine is off
again, the state it left got an entry and no exit, and its timer still runs. -/
theorem blinking_timer_keeps_ticking :
    ∃ c, (hsmSystem ledHsm .off).Reachable c ∧
      (c.stack = [] ∧ c.hsm.current = .off ∧ .switched .blinking .off ∈ c.log ∧
        macroSignals .blinking c.log = [hsmSigEntry] ∧ c.user.ticking = true) ∧
      ¬ TransitionLaw c := by
  obtain ⟨c, hc, hfacts⟩ : ∃ c, (hsmSystem ledHsm .off).Reachable c ∧
      (c.stack = [] ∧ c.hsm.current = .off ∧ .switched .blinking .off ∈ c.log ∧
        macroSignals .blinking c.log = [hsmSigEntry] ∧ c.user.ticking = true) :=
    System.reachable_of_replay ⟨⟨false, false⟩, rfl⟩
      [.handler, .handler, buttonPress, .handler, .handler, .handler, .handler,
        buttonPress, .handler, .handler, .handler, .handler,
        buttonPress, .handler, .handler, .handler, .handler]
      (by decide)
  refine ⟨c, hc, hfacts, fun hlaw => ?_⟩
  obtain ⟨post, pre, hlog⟩ := List.append_of_mem hfacts.2.2.1
  have hone := hlaw.exits post pre _ _ hlog
  have hzero : exitsSince LedState.blinking pre = 0 :=
    exitsSince_eq_zero fun x hx => exit_never_sent hc _ x (by rw [hlog]; simp [hx])
  omega

end OpenHsm
