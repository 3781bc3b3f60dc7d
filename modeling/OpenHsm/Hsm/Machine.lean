import OpenHsm.Library.Runs

/-!
The state machine of `core/hsm.h` and its dispatcher thread in `core/osa_hsm.c`, with
the calls of the handlers on an explicit stack, since the macros call handlers from
inside handlers and nothing bounds how deep.

* `HsmEvent`, `HsmActive`, `HsmState`: the structures of `hsm.h`; a state is a pointer,
  an element of an arbitrary type.
* `Body`: what a handler does until it returns.  Besides code of its own it may expand
  `STATE_TRANSIT` and `STATE_SUPER` any number of times and anywhere.
* `HsmThread`, `stateTransit`, `stateSuper`, `stepHandler`: the dispatcher thread and
  one step of the handler on top of its stack.
* `hsmSystem`: from the start of the thread on, the dispatcher takes an event whenever
  no handler is running, and other threads change the data of the handlers at any time.
-/

namespace OpenHsm

open Runs

/-- `enum hsm_signal`, past `HSM_SIG_INIT`. -/
def hsmSigEntry : Int := 1
def hsmSigExit : Int := 2
def hsmSigPeriod : Int := 3
def hsmUserSig : Int := 4

/-- `struct hsm_event`. -/
structure HsmEvent where
  signal : Int
  data : Option ℕ
  size : Int
  deriving DecidableEq, Repr

/-- The event of `STATE_INIT`. -/
def entryEvent : HsmEvent := ⟨hsmSigEntry, none, 0⟩

/-- `struct hsm_active`; the spelling of `histroy` is the source's. -/
structure HsmActive (σ : Type*) where
  error : Int
  current : σ
  histroy : σ
  deriving DecidableEq, Repr

/-- What a handler does until it returns.  `υ` is the data its own code works on. -/
inductive Body (σ υ : Type*) where
  | ret (v : Int)
  /-- Go on depending on the data and on `entry`. -/
  | read (k : υ → HsmActive σ → Body σ υ)
  /-- Change the data. -/
  | act (f : υ → υ) (k : Body σ υ)
  /-- `STATE_TRANSIT(t)`; the macro evaluates `t` after it wrote `histroy`. -/
  | transit (t : HsmActive σ → σ) (k : Body σ υ)
  /-- `STATE_SUPER(e)`. -/
  | super (e : HsmEvent) (k : Body σ υ)

/-- `struct hsm_state`. -/
structure HsmState (σ υ : Type*) where
  handler : HsmEvent → Body σ υ
  parent : Option σ

/-- Where a handler is called from. -/
inductive Caller where
  /-- `STATE_INIT` at the start of the thread. -/
  | init
  /-- `STATE_DISPATCH` of an event from the queue. -/
  | queue
  | transit
  | super
  deriving DecidableEq, Repr

/-- Whether the caller stores the value of the handler in `entry->error`. -/
def Caller.storesError : Caller → Bool
  | .transit | .super => true
  | .init | .queue => false

/-- What the thread has done: ghost data. -/
inductive HsmLog (σ : Type*) where
  | called (s : σ) (e : HsmEvent) (o : Caller)
  /-- `current` was `s` and became `t`. -/
  | switched (s t : σ)
  deriving DecidableEq, Repr

/-- A running handler and who called it. -/
structure Frame (σ υ : Type*) where
  body : Body σ υ
  caller : Caller

/-- The dispatcher thread, with what it has done newest first. -/
structure HsmThread (σ υ : Type*) where
  hsm : HsmActive σ
  user : υ
  stack : List (Frame σ υ)
  log : List (HsmLog σ)

variable {σ υ : Type*} (S : σ → HsmState σ υ)

/-- `s->handler(entry, e)`. -/
def callHandler (s : σ) (e : HsmEvent) (o : Caller) (c : HsmThread σ υ) : HsmThread σ υ :=
  { c with
    stack := ⟨(S s).handler e, o⟩ :: c.stack
    log := .called s e o :: c.log }

/-- `STATE_TRANSIT`, up to the call of `STATE_INIT`. -/
def stateTransit (t : HsmActive σ → σ) (c : HsmThread σ υ) : HsmThread σ υ :=
  let h := { c.hsm with histroy := c.hsm.current }
  let h := { h with current := t h }
  callHandler S h.current entryEvent .transit
    { c with hsm := h, log := .switched c.hsm.current h.current :: c.log }

/-- `STATE_SUPER`, up to the call of the parent's handler. -/
def stateSuper (e : HsmEvent) (c : HsmThread σ υ) : HsmThread σ υ :=
  match (S c.hsm.current).parent with
  | some p => callHandler S p e .super c
  | none => c

/-- One step of the handler on top of the stack. -/
def stepHandler (c : HsmThread σ υ) : HsmThread σ υ :=
  match c.stack with
  | [] => c
  | ⟨.ret v, o⟩ :: rest =>
      { c with
        hsm := if o.storesError then { c.hsm with error := v } else c.hsm
        stack := rest }
  | ⟨.read k, o⟩ :: rest => { c with stack := ⟨k c.user c.hsm, o⟩ :: rest }
  | ⟨.act f k, o⟩ :: rest => { c with user := f c.user, stack := ⟨k, o⟩ :: rest }
  | ⟨.transit t k, o⟩ :: rest => stateTransit S t { c with stack := ⟨k, o⟩ :: rest }
  | ⟨.super e k, o⟩ :: rest => stateSuper S e { c with stack := ⟨k, o⟩ :: rest }

/-- `osa_hsm_active_init`. -/
def osaHsmActiveInit (init : σ) : HsmActive σ := ⟨0, init, init⟩

/-- `osa_hsm_active_run` at its `STATE_INIT`. -/
def startThread (init : σ) (user : υ) : HsmThread σ υ :=
  callHandler S init entryEvent .init ⟨osaHsmActiveInit init, user, [], []⟩

/-- The loop of `osa_hsm_active_run` with an event from the queue. -/
def dispatchEvent (e : HsmEvent) (c : HsmThread σ υ) : HsmThread σ υ :=
  callHandler S c.hsm.current e .queue c

/-- A step of the dispatcher thread, or of another thread on the data. -/
inductive HsmAct (υ : Type*) where
  | dispatch (e : HsmEvent)
  | handler
  | world (u : υ)

/-- The dispatcher thread of a machine that starts in the state `init`. -/
def hsmSystem (init : σ) : System (HsmThread σ υ) (HsmAct υ) where
  init c := ∃ u, c = startThread S init u
  enabled c
    | .dispatch _ => c.stack = []
    | .handler => c.stack ≠ []
    | .world _ => True
  next c
    | .dispatch e => dispatchEvent S e c
    | .handler => stepHandler S c
    | .world u => { c with user := u }

/-! ### Running a handler -/

/-- Steps of the handlers lead from `c` to `d`. -/
def Reaches (c d : HsmThread σ υ) : Prop := ∃ k, (stepHandler S)^[k] c = d

variable {S} {c d e : HsmThread σ υ}

lemma Reaches.refl : Reaches S c c := ⟨0, rfl⟩

lemma Reaches.head (h : Reaches S (stepHandler S c) d) : Reaches S c d := by
  obtain ⟨k, hk⟩ := h
  exact ⟨k + 1, hk⟩

lemma Reaches.trans (h : Reaches S c d) (h' : Reaches S d e) : Reaches S c e := by
  obtain ⟨k, rfl⟩ := h
  obtain ⟨l, rfl⟩ := h'
  exact ⟨l + k, Function.iterate_add_apply ..⟩

/-- What every step keeps is kept along a run of the handlers. -/
lemma Reaches.invariant {P : HsmThread σ υ → Prop} (hstep : ∀ c, P c → P (stepHandler S c))
    (h : Reaches S c d) (hc : P c) : P d := by
  obtain ⟨k, rfl⟩ := h
  induction k generalizing c with
  | zero => exact hc
  | succ k ih => exact ih (hstep c hc)

end OpenHsm
