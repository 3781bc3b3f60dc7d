import OpenHsm.Hsm.History
import OpenHsm.Library.Bytes
import OpenHsm.Platform.QueueFifo

/-!
The dispatcher thread with its message queue: `osa_hsm_active_run` and
`osa_hsm_active_event_post` over `platform/linux/osa_queue.c`, with any number of threads that
post events.

* `readEvent`, `eventBytes`, `RawEvent`: `struct hsm_event` as the queue copies it.
* `HandlerData`, `RunPc`, `DispatcherSys`: the thread of `Machine`, whose handlers may ask for
  a post to their own machine, where `osa_hsm_active_run` is, and the queue of `Queue` once it
  is created.  `posts` records what every post returned.
* `DispatcherAct`, `dispatcherEnabled`, `dispatcherNext`, `dispatcherSystem`: one step of the
  dispatcher, of a handler, or of a thread that posts.
* `topCalls`, `Dispatches`, `DispatchStep`: which calls the dispatcher makes itself, and to
  which states.
* `ThreadInv`, `CallInv`, `Account`, `dispatcher_is_fifo`: the events are dispatched in the
  order in which their posts were accepted, each once the handlers of the one before have
  returned.
-/

namespace OpenHsm

open Bytes Runs

/-! ### Events as bytes -/

/-- `sizeof(struct hsm_event)`: an `int`, a pointer and an `int`, aligned to eight bytes. -/
def sizeofHsmEvent : ℕ := 24

/-- A pointer, `none` for `NULL`. -/
def lePointer (l : List UInt8) : Option ℕ := if leValue l = 0 then none else some (leValue l)

/-- The members of a `struct hsm_event` in memory. -/
def readEvent (l : List UInt8) : HsmEvent where
  signal := leInt (field l 0 4)
  data := lePointer (field l 8 8)
  size := leInt (field l 16 4)

/-- An event in memory, with zeros for the padding. -/
def eventBytes (e : HsmEvent) : List UInt8 :=
  intBytes 4 e.signal ++ List.replicate 4 0 ++ leBytes 8 (e.data.getD 0) ++ intBytes 4 e.size
    ++ List.replicate 4 0

/-- The members are an `int`, a pointer and an `int`. -/
structure HsmEvent.Fits (e : HsmEvent) : Prop where
  signal : -2 ^ 31 ≤ e.signal ∧ e.signal < 2 ^ 31
  data : ∀ p ∈ e.data, 0 < p ∧ p < 2 ^ 64
  size : -2 ^ 31 ≤ e.size ∧ e.size < 2 ^ 31

/-- An event as a caller of `osa_hsm_active_event_post` has it in memory. -/
structure RawEvent where
  bytes : List UInt8
  length_bytes : bytes.length = sizeofHsmEvent
  deriving DecidableEq

/-- What the event says. -/
def RawEvent.event (r : RawEvent) : HsmEvent := readEvent r.bytes

/-- An event put in memory. -/
def HsmEvent.raw (e : HsmEvent) : RawEvent := ⟨eventBytes e, by simp [eventBytes, sizeofHsmEvent]⟩

lemma leInt_int32 {x : ℤ} (hx : -2 ^ 31 ≤ x ∧ x < 2 ^ 31) : leInt (intBytes 4 x) = x := by
  rw [leInt_intBytes]
  exact Int.bmod_eq_of_le (by norm_num; omega) (by norm_num; omega)

/-- **Every event survives the copies.** -/
lemma HsmEvent.raw_event {e : HsmEvent} (h : e.Fits) : e.raw.event = e := by
  obtain ⟨signal, data, size⟩ := e
  have hsignal := field_append [] (intBytes 4 signal)
    (List.replicate 4 0 ++ leBytes 8 (data.getD 0) ++ intBytes 4 size ++ List.replicate 4 0)
  have hdata := field_append (intBytes 4 signal ++ List.replicate 4 0) (leBytes 8 (data.getD 0))
    (intBytes 4 size ++ List.replicate 4 0)
  have hsize := field_append
    (intBytes 4 signal ++ List.replicate 4 0 ++ leBytes 8 (data.getD 0)) (intBytes 4 size)
    (List.replicate 4 0)
  simp only [length_intBytes, length_leBytes, List.length_append, List.length_replicate,
    List.length_nil, List.nil_append, List.append_assoc] at hsignal hdata hsize
  rw [RawEvent.event, readEvent]
  simp only [HsmEvent.raw, eventBytes, List.append_assoc, HsmEvent.mk.injEq]
  refine ⟨?_, ?_, ?_⟩
  · rw [hsignal, leInt_int32 h.signal]
  · rw [hdata, lePointer, leValue_leBytes]
    cases data with
    | none => rfl
    | some p =>
        obtain ⟨hpos, hlt⟩ := h.data p rfl
        have hmod : p % 256 ^ 8 = p := Nat.mod_eq_of_lt (by norm_num; omega)
        rw [Option.getD_some, hmod, if_neg hpos.ne']
  · rw [hsize, leInt_int32 h.size]

/-! ### The threads -/

/-- What the handlers work on: data of their own, the post they have asked for, if it has not
returned, and what the last one returned. -/
structure HandlerData (υ : Type*) where
  user : υ
  request : Option (RawEvent × UInt32)
  result : ℤ
  deriving DecidableEq

/-- A handler calls `osa_hsm_active_event_post` with its own machine, and goes on with what the
post returns. -/
def postSelf {σ υ : Type*} (r : RawEvent) (timeout : UInt32) (k : ℤ → Body σ (HandlerData υ)) :
    Body σ (HandlerData υ) :=
  .act (fun u => { u with request := some (r, timeout) }) (.read fun u _ => k u.result)

/-- Where `osa_hsm_active_run` is. -/
inductive RunPc where
  /-- Before `osa_queue_create`. -/
  | entry
  /-- In the loop, at `osa_queue_receive` or in a handler. -/
  | loop
  /-- `event` is received and not dispatched. -/
  | holding (msg : List UInt8)
  /-- `osa_queue_create` has failed. -/
  | exited
  deriving DecidableEq, Repr

/-- The event that is received and not dispatched. -/
def RunPc.hand : RunPc → List HsmEvent
  | .holding msg => [readEvent msg]
  | .entry | .loop | .exited => []

/-- The dispatcher `d` and the threads that post. -/
structure DispatcherSys (σ υ : Type*) (k : ℕ) where
  thread : HsmThread σ (HandlerData υ)
  pc : RunPc
  msgQ : Option (QueueSys k)
  /-- The post that each thread is in. -/
  calls : Fin k → Option RawEvent
  /-- The posts that have returned, with what they returned, newest first. -/
  posts : List (RawEvent × ℤ)

/-- One step. -/
inductive DispatcherAct (υ : Type*) (k : ℕ) where
  /-- The data of the handlers are changed. -/
  | world (u : υ)
  /-- A step of the handler on top of the stack. -/
  | handler
  | createQueue (name : List UInt8) (structOk bufferOk : Bool)
  /-- A thread calls `osa_hsm_active_event_post`. -/
  | post (i : Fin k) (r : RawEvent) (timeout : UInt32) (wake : Finset (Fin k))
  /-- The dispatcher calls `osa_queue_receive`. -/
  | receive (wake : Finset (Fin k))
  /-- A thread in the queue goes on. -/
  | goOn (a : QueueAct k)
  /-- `STATE_DISPATCH` of the event in hand. -/
  | dispatch

variable {σ υ : Type*} {k : ℕ}

/-- The step is one of a thread that is in a call. -/
def QueueAct.inCall : QueueAct k → Bool
  | .send _ _ _ _ _ | .receive _ _ _ _ _ => false
  | .resume _ _ | .wakeUp _ | .expire _ | .leave _ => true

/-- The call of `osa_queue_send` in a post. -/
def sendOf (i : Fin k) (r : RawEvent) (timeout : UInt32) (wake : Finset (Fin k)) : QueueAct k :=
  .send i (some r.bytes) sizeofHsmEvent timeout.toInt32.toInt wake

/-- The call of `osa_queue_receive` in the loop. -/
def receiveOf (d : Fin k) (wake : Finset (Fin k)) : QueueAct k :=
  .receive d true sizeofHsmEvent (-1) wake

/-- A handler that has asked for a post waits for it. -/
def HsmThread.posting (c : HsmThread σ (HandlerData υ)) : Bool := c.user.request.isSome

/-- The post of a handler has returned. -/
def postReturned (ret : ℤ) (c : HsmThread σ (HandlerData υ)) : HsmThread σ (HandlerData υ) :=
  { c with user := { c.user with request := none, result := ret } }

/-- A call of thread `i` returns `ret`: a post, or a receive that has failed. -/
def callReturns (d : Fin k) (s : DispatcherSys σ υ k) (i : Fin k) (ret : ℤ) :
    DispatcherSys σ υ k :=
  match s.calls i with
  | some r =>
      { s with
        thread := if i = d then postReturned ret s.thread else s.thread
        calls := Function.update s.calls i none
        posts := (r, ret) :: s.posts }
  | none => s

/-- What the last step of the queue told a thread. -/
def lastTold (q t : QueueSys k) : Option (QueueEvent k) :=
  if q.log.length < t.log.length then t.log.head? else none

/-- The queue has gone from `q` to `t`. -/
def afterQueue (d : Fin k) (s : DispatcherSys σ υ k) (q t : QueueSys k) : DispatcherSys σ υ k :=
  let u := { s with msgQ := some t }
  match lastTold q t with
  | some (.sent i _) => callReturns d u i 0
  | some (.failed i ret) => callReturns d u i ret
  | some (.received _ msg) => { u with pc := .holding msg }
  | none => u

/-- When a step can be taken. -/
def dispatcherEnabled (d : Fin k) (s : DispatcherSys σ υ k) : DispatcherAct υ k → Prop
  | .world _ => True
  | .handler => s.thread.stack ≠ [] ∧ s.thread.posting = false
  | .createQueue _ _ _ => s.pc = .entry ∧ s.thread.stack = []
  | .post i r timeout wake =>
      s.calls i = none ∧ (i = d → s.thread.user.request = some (r, timeout)) ∧
        ∀ q ∈ s.msgQ, queueEnabled q (sendOf i r timeout wake)
  | .receive wake =>
      s.pc = .loop ∧ s.thread.stack = [] ∧ ∃ q ∈ s.msgQ, queueEnabled q (receiveOf d wake)
  | .goOn a => a.inCall ∧ ∃ q ∈ s.msgQ, queueEnabled q a
  | .dispatch => s.pc.hand ≠ []

instance (c : HsmThread σ (HandlerData υ)) : Decidable (c.stack = []) :=
  decidable_of_iff (c.stack.isEmpty = true) List.isEmpty_iff

instance (d : Fin k) (s : DispatcherSys σ υ k) (a : DispatcherAct υ k) :
    Decidable (dispatcherEnabled d s a) := by
  cases a <;> simp only [dispatcherEnabled] <;> infer_instance

variable (S : σ → HsmState σ (HandlerData υ))

/-- The effect of a step. -/
def dispatcherNext (d : Fin k) (msgQSize : ℤ) (s : DispatcherSys σ υ k) :
    DispatcherAct υ k → DispatcherSys σ υ k
  | .world u => { s with thread := { s.thread with user := { s.thread.user with user := u } } }
  | .handler => { s with thread := stepHandler S s.thread }
  | .createQueue name structOk bufferOk =>
      match osaQueueCreate (some name) sizeofHsmEvent msgQSize structOk bufferOk with
      | .ok q => { s with pc := .loop, msgQ := some ⟨q, fun _ => .idle, []⟩ }
      | .error _ => { s with pc := .exited }
  | .post i r timeout wake =>
      let s := { s with calls := Function.update s.calls i (some r) }
      match s.msgQ with
      | some q => afterQueue d s q (queueNext q (sendOf i r timeout wake))
      | none => callReturns d s i (-1)
  | .receive wake => match s.msgQ with
      | some q => afterQueue d s q (queueNext q (receiveOf d wake))
      | none => s
  | .goOn a => match s.msgQ with
      | some q => afterQueue d s q (queueNext q a)
      | none => s
  | .dispatch => match s.pc with
      | .holding msg => { s with pc := .loop, thread := dispatchEvent S (readEvent msg) s.thread }
      | _ => s

/-- The machine that starts in the state `init`, with dispatcher `d` and a queue for `msgQSize`
events. -/
def dispatcherSystem (init : σ) (d : Fin k) (msgQSize : ℤ) :
    System (DispatcherSys σ υ k) (DispatcherAct υ k) where
  init s := ∃ u, s = ⟨startThread S init ⟨u, none, 0⟩, .entry, none, fun _ => none, []⟩
  enabled := dispatcherEnabled d
  next := dispatcherNext S d msgQSize

/-! ### What the dispatcher calls -/

/-- The dispatcher calls the handler itself. -/
def Caller.topLevel : Caller → Bool
  | .init | .queue => true
  | .transit | .super => false

/-- The state and the event of a call that the dispatcher makes itself. -/
def topCall : HsmLog σ → Option (σ × HsmEvent)
  | .called s e o => if o.topLevel then some (s, e) else none
  | .switched _ _ => none

/-- The calls that the dispatcher has made itself, oldest first. -/
def topCalls (l : List (HsmLog σ)) : List (σ × HsmEvent) := (l.filterMap topCall).reverse

/-- The state that is current after what the log tells. -/
def currentAfter (init : σ) (l : List (HsmLog σ)) : σ :=
  match lastSwitch l with
  | some (_, t) => t
  | none => init

namespace DispatcherSys

/-- The events in the queue, oldest first. -/
def pending (s : DispatcherSys σ υ k) : List HsmEvent :=
  match s.msgQ with
  | some q => (content q.log).map readEvent
  | none => []

/-- The events whose post has returned `0`, in this order. -/
def accepted (s : DispatcherSys σ υ k) : List HsmEvent :=
  ((s.posts.filter fun p => p.2 = 0).map fun p => p.1.event).reverse

end DispatcherSys

/-- The dispatcher has called the initial state with `HSM_SIG_ENTRY`, and then the accepted
events in order, up to those in its hand and in the queue; each call went to the state that was
current after all that had happened before it. -/
structure Dispatches (init : σ) (s : DispatcherSys σ υ k) : Prop where
  calls : ∃ l, topCalls s.thread.log = (init, entryEvent) :: l ∧
    l.map Prod.snd ++ s.pc.hand ++ s.pending = s.accepted
  current : ∀ post pre t e o, o.topLevel = true →
    s.thread.log = post ++ .called t e o :: pre → t = currentAfter init pre

/-- The step makes no call of the dispatcher, or the one with the event in its hand to the
state that is current, while no handler is running. -/
def DispatchStep (s t : DispatcherSys σ υ k) : Prop :=
  topCalls t.thread.log = topCalls s.thread.log ∨
    s.thread.stack = [] ∧ ∃ e, s.pc.hand = [e] ∧
      topCalls t.thread.log = topCalls s.thread.log ++ [(s.thread.hsm.current, e)]

/-! ### The handlers -/

/-- The log tells which state is current, and each call of the dispatcher went to it. -/
structure ThreadInv {ω : Type*} (init : σ) (c : HsmThread σ ω) : Prop where
  current : c.hsm.current = currentAfter init c.log
  called : ∀ post pre t e o, o.topLevel = true →
    c.log = post ++ .called t e o :: pre → t = currentAfter init pre

section Handlers

variable {ω : Type*} {T : σ → HsmState σ ω} {init : σ} {c : HsmThread σ ω}

lemma ThreadInv.congr {c' : HsmThread σ ω} (h : ThreadInv init c) (hlog : c'.log = c.log)
    (hcur : c'.hsm.current = c.hsm.current) : ThreadInv init c' := by
  refine ⟨by rw [hlog, hcur]; exact h.current, fun post pre t e o ho heq => ?_⟩
  exact h.called post pre t e o ho (hlog ▸ heq)

/-- The handlers make no call of the dispatcher. -/
lemma stepHandler_log (T : σ → HsmState σ ω) (c : HsmThread σ ω) :
    ∃ l, (stepHandler T c).log = l ++ c.log ∧ ∀ x ∈ l, topCall x = none := by
  rcases hstack : c.stack with _ | ⟨⟨b, o⟩, rest⟩
  · exact ⟨[], by simp [stepHandler, hstack], by simp⟩
  · cases b with
    | transit t k =>
        refine ⟨[.called (t { c.hsm with histroy := c.hsm.current }) entryEvent .transit,
          .switched c.hsm.current (t { c.hsm with histroy := c.hsm.current })], ?_, ?_⟩
        · simp [stepHandler, hstack, stateTransit, callHandler]
        · simp [topCall, Caller.topLevel]
    | super e k =>
        cases hp : (T c.hsm.current).parent with
        | none => exact ⟨[], by simp [stepHandler, hstack, stateSuper, hp], by simp⟩
        | some p =>
            refine ⟨[.called p e .super], ?_, by simp [topCall, Caller.topLevel]⟩
            simp [stepHandler, hstack, stateSuper, hp, callHandler]
    | ret v => exact ⟨[], by simp [stepHandler, hstack], by simp⟩
    | read k => exact ⟨[], by simp [stepHandler, hstack], by simp⟩
    | act f k => exact ⟨[], by simp [stepHandler, hstack], by simp⟩

lemma topCalls_append {l m : List (HsmLog σ)} (hl : ∀ x ∈ l, topCall x = none) :
    topCalls (l ++ m) = topCalls m := by
  rw [topCalls, List.filterMap_append, List.filterMap_eq_nil_iff.mpr hl, List.nil_append, topCalls]

/-- What is not among the new entries was there before. -/
lemma exists_eq_append_cons {α : Type*} {l m post pre : List α} {x : α} (hx : x ∉ l)
    (h : l ++ m = post ++ x :: pre) : ∃ post', m = post' ++ x :: pre := by
  rcases List.append_eq_append_iff.mp h with ⟨a, rfl, ha⟩ | ⟨a, rfl, ha⟩
  · exact ⟨a, ha⟩
  · cases a with
    | nil => exact ⟨[], ha.symm⟩
    | cons y a =>
        obtain ⟨rfl, -⟩ := List.cons.inj ha
        exact absurd (by simp) hx

lemma ThreadInv.handler (h : ThreadInv init c) : ThreadInv init (stepHandler T c) := by
  obtain ⟨l, hlog, hl⟩ := stepHandler_log T c
  refine ⟨?_, fun post pre t e o ho heq => ?_⟩
  · rcases nextFields_cases T init c .handler with ⟨hcur, -, hlast⟩ | ⟨-, -, hlast⟩
    · calc (stepHandler T c).hsm.current
          = c.hsm.current := hcur
        _ = currentAfter init c.log := h.current
        _ = currentAfter init (stepHandler T c).log := by
            rw [currentAfter, currentAfter, show lastSwitch (stepHandler T c).log = _ from hlast]
    · rw [currentAfter, show lastSwitch (stepHandler T c).log = _ from hlast]
      rfl
  · have hx : (.called t e o : HsmLog σ) ∉ l := fun hmem => by
      have := hl _ hmem
      simp [topCall, ho] at this
    obtain ⟨post', hpost⟩ := exists_eq_append_cons hx (hlog.symm.trans heq)
    exact h.called post' pre t e o ho hpost

lemma ThreadInv.dispatch (h : ThreadInv init c) (e : HsmEvent) :
    ThreadInv init (dispatchEvent T e c) := by
  refine ⟨h.current, fun post pre t e' o ho heq => ?_⟩
  have hlog : .called c.hsm.current e .queue :: c.log = post ++ .called t e' o :: pre := heq
  rcases List.cons_eq_append_iff.mp hlog with ⟨-, hcons⟩ | ⟨post', -, hpost⟩
  · obtain ⟨hhead, rfl⟩ := List.cons.inj hcons
    obtain ⟨rfl, -, -⟩ := HsmLog.called.inj hhead
    exact h.current
  · exact h.called post' pre t e' o ho hpost

lemma ThreadInv.start (u : ω) : ThreadInv init (startThread T init u) := by
  refine ⟨rfl, fun post pre t e o ho heq => ?_⟩
  have hlog : [.called init entryEvent .init] = post ++ .called t e o :: pre := heq
  rcases List.cons_eq_append_iff.mp hlog with ⟨-, hcons⟩ | ⟨post', -, hpost⟩
  · obtain ⟨hhead, rfl⟩ := List.cons.inj hcons
    obtain ⟨rfl, -, -⟩ := HsmLog.called.inj hhead
    rfl
  · simp at hpost

end Handlers

/-! ### The threads in the queue -/

section Queue

variable {q : QueueSys k}

/-- The thread that a return was told to. -/
def QueueEvent.thread : QueueEvent k → Fin k
  | .sent i _ | .received i _ | .failed i _ => i

/-- The thread is in the same call as before. -/
def SameCall (x y : CallPc) : Prop :=
  (∀ msg t p, y = .sending msg t p → ∃ p', x = .sending msg t p') ∧
    ∀ t p, y = .receiving t p → ∃ p', x = .receiving t p'

lemma SameCall.refl (x : CallPc) : SameCall x x :=
  ⟨fun _ _ p h => ⟨p, h⟩, fun _ p h => ⟨p, h⟩⟩

lemma SameCall.idle (x : CallPc) : SameCall x .idle :=
  ⟨fun _ _ _ h => (by cases h), fun _ _ h => (by cases h)⟩

lemma SameCall.moveTo (x : CallPc) (p : Place) : SameCall x (x.moveTo p) := by
  cases x with
  | idle => exact SameCall.refl _
  | sending msg t p' =>
      exact ⟨fun _ _ _ h => (by cases h; exact ⟨p', rfl⟩), fun _ _ h => (by cases h)⟩
  | receiving t p' =>
      exact ⟨fun _ _ _ h => (by cases h), fun _ _ h => (by cases h; exact ⟨p', rfl⟩)⟩

lemma SameCall.unblock (pc : Fin k → CallPc) (wake : Finset (Fin k)) (j : Fin k) :
    SameCall (pc j) (unblock pc wake j) := by
  rw [OpenHsm.unblock]
  split
  · exact SameCall.moveTo _ _
  · exact SameCall.refl _

/-- One thread goes to `x`, the others stay in their calls. -/
lemma SameCall.update {pc pc' : Fin k → CallPc} {i : Fin k} {x : CallPc}
    (hpc : ∀ j, SameCall (pc j) (pc' j)) (hx : SameCall (pc i) x) (j : Fin k) :
    SameCall (pc j) (Function.update pc' i x j) := by
  by_cases hj : j = i
  · rw [hj, Function.update_self]
    exact hx
  · rw [Function.update_of_ne hj]
    exact hpc j

/-- A step of a thread in a call leaves all threads in their calls, or out of them. -/
lemma queueNext_inCall {a : QueueAct k} (ha : a.inCall) (j : Fin k) :
    SameCall (q.pc j) ((queueNext q a).pc j) := by
  cases a with
  | send i msg n t w => cases ha
  | receive i h n t w => cases ha
  | resume i w =>
      cases hi : q.pc i with
      | idle =>
          simp only [queueNext, hi]
          exact SameCall.refl _
      | sending msg t p =>
          simp only [queueNext, hi]
          cases sendResume q.queue msg with
          | none =>
              refine SameCall.update (fun j => SameCall.refl _) ?_ j
              exact ⟨fun _ _ _ h => (by cases h; exact ⟨p, hi⟩), fun _ _ h => (by cases h)⟩
          | some r => exact SameCall.update (SameCall.unblock q.pc w) (SameCall.idle _) j
      | receiving t p =>
          simp only [queueNext, hi]
          cases receiveResume q.queue with
          | none =>
              refine SameCall.update (fun j => SameCall.refl _) ?_ j
              exact ⟨fun _ _ _ h => (by cases h), fun _ _ h => (by cases h; exact ⟨p, hi⟩)⟩
          | some r => exact SameCall.update (SameCall.unblock q.pc w) (SameCall.idle _) j
  | wakeUp i => exact SameCall.update (fun j => SameCall.refl _) (SameCall.moveTo _ _) j
  | expire i => exact SameCall.update (fun j => SameCall.refl _) (SameCall.moveTo _ _) j
  | leave i => exact SameCall.update (fun j => SameCall.refl _) (SameCall.idle _) j

/-- A send that does not return waits with its message; the others stay in their calls. -/
lemma afterSend_pc (i : Fin k) (msg : List UInt8) (t : ℤ) (w : Finset (Fin k))
    (r : Option (ℤ × OsaQueue)) (j : Fin k) :
    (j = i ∧ (afterSend q i msg t w r).pc j = .sending msg t .blocked) ∨
      SameCall (q.pc j) ((afterSend q i msg t w r).pc j) := by
  cases r with
  | none =>
      by_cases hj : j = i
      · exact .inl ⟨hj, by simp [afterSend, hj]⟩
      · exact .inr (by simpa [afterSend, hj] using SameCall.refl (q.pc j))
  | some r => exact .inr (SameCall.update (SameCall.unblock q.pc w) (SameCall.idle _) j)

lemma afterReceive_pc (i : Fin k) (t : ℤ) (w : Finset (Fin k))
    (r : Option (ℤ × List UInt8 × OsaQueue)) (j : Fin k) :
    (j = i ∧ (afterReceive q i t w r).pc j = .receiving t .blocked) ∨
      SameCall (q.pc j) ((afterReceive q i t w r).pc j) := by
  cases r with
  | none =>
      by_cases hj : j = i
      · exact .inl ⟨hj, by simp [afterReceive, hj]⟩
      · exact .inr (by simpa [afterReceive, hj] using SameCall.refl (q.pc j))
  | some r => exact .inr (SameCall.update (SameCall.unblock q.pc w) (SameCall.idle _) j)

lemma ne_cons_self {α : Type*} (x : α) (l : List α) : l ≠ x :: l := fun h => by
  have := congrArg List.length h
  simp at this

/-- A thread whose send returns is out of it, and gets no message. -/
lemma afterSend_told {i : Fin k} {msg : List UInt8} {t : ℤ} {w : Finset (Fin k)}
    {r : Option (ℤ × OsaQueue)} {x : QueueEvent k}
    (h : (afterSend q i msg t w r).log = x :: q.log) :
    (afterSend q i msg t w r).pc x.thread = .idle ∧ ∀ j m, x ≠ .received j m := by
  cases r with
  | none => exact absurd h (ne_cons_self _ _)
  | some r =>
      obtain ⟨hx, -⟩ := List.cons.inj h
      have hthread : x.thread = i := by
        rw [← hx]
        split <;> rfl
      refine ⟨by rw [hthread]; exact Function.update_self .., fun j m he => ?_⟩
      rw [he] at hx
      split at hx <;> cases hx

/-- A thread whose receive returns is out of it. -/
lemma afterReceive_told {i : Fin k} {t : ℤ} {w : Finset (Fin k)}
    {r : Option (ℤ × List UInt8 × OsaQueue)} {x : QueueEvent k}
    (h : (afterReceive q i t w r).log = x :: q.log) :
    (afterReceive q i t w r).pc x.thread = .idle ∧ x.thread = i := by
  cases r with
  | none => exact absurd h (ne_cons_self _ _)
  | some r =>
      have hthread : x.thread = i := by
        rw [← (List.cons.inj h).1]
        split <;> rfl
      exact ⟨by rw [hthread]; exact Function.update_self .., hthread⟩

/-- A thread that is told something is out of its call, and a message is given to a thread
that is in a receive. -/
lemma queueNext_told {a : QueueAct k} {x : QueueEvent k}
    (hx : (queueNext q a).log = x :: q.log) :
    (queueNext q a).pc x.thread = .idle ∧ ∀ i msg, x = .received i msg →
      (∃ h n t w, a = .receive i h n t w) ∨ a.inCall ∧ ∃ t p, q.pc i = .receiving t p := by
  cases a with
  | send i msg n t w =>
      obtain ⟨hidle, hne⟩ := afterSend_told hx
      exact ⟨hidle, fun j m he => absurd he (hne j m)⟩
  | receive i h n t w =>
      obtain ⟨hidle, hthread⟩ := afterReceive_told hx
      refine ⟨hidle, fun j m he => .inl ⟨h, n, t, w, ?_⟩⟩
      rw [← hthread, he]
      rfl
  | resume i w =>
      cases hi : q.pc i with
      | idle =>
          simp only [queueNext, hi] at hx
          exact absurd hx (ne_cons_self _ _)
      | sending msg t p =>
          simp only [queueNext, hi] at hx ⊢
          obtain ⟨hidle, hne⟩ := afterSend_told hx
          exact ⟨hidle, fun j m he => absurd he (hne j m)⟩
      | receiving t p =>
          simp only [queueNext, hi] at hx ⊢
          obtain ⟨hidle, hthread⟩ := afterReceive_told hx
          refine ⟨hidle, fun j m he => .inr ⟨rfl, t, p, ?_⟩⟩
          rw [he] at hthread
          exact (congrArg q.pc hthread).trans hi
  | wakeUp i => exact absurd hx (ne_cons_self _ _)
  | expire i => exact absurd hx (ne_cons_self _ _)
  | leave i =>
      obtain ⟨rfl, -⟩ := List.cons.inj hx
      exact ⟨Function.update_self .., fun j m he => by cases he⟩

end Queue

/-! ### The invariant -/

/-- The state of the thread, and which thread is in which call. -/
structure CallInv (init : σ) (d : Fin k) (s : DispatcherSys σ υ k) : Prop where
  thread : ThreadInv init s.thread
  hold : ∀ msg, s.pc = .holding msg → s.thread.stack = []
  entry : s.pc = .entry → s.msgQ = none
  fifo : ∀ q, s.msgQ = some q → FifoInv q
  sending : ∀ q, s.msgQ = some q → ∀ i msg t p, q.pc i = .sending msg t p →
    ∃ r, s.calls i = some r ∧ r.bytes = msg
  receiving : ∀ q, s.msgQ = some q → ∀ i t p, q.pc i = .receiving t p →
    i = d ∧ s.pc = .loop ∧ s.thread.stack = []

/-- The events that are dispatched, in hand and in the queue are those that were accepted. -/
def Account (init : σ) (s : DispatcherSys σ υ k) : Prop :=
  ∃ l, topCalls s.thread.log = (init, entryEvent) :: l ∧
    l.map Prod.snd ++ s.pc.hand ++ s.pending = s.accepted

section Calls

variable {init : σ} {d i : Fin k} {s : DispatcherSys σ υ k} {ret : ℤ}

lemma callReturns_of_none (hi : s.calls i = none) : callReturns d s i ret = s := by
  simp [callReturns, hi]

lemma callReturns_of_some {r : RawEvent} (hi : s.calls i = some r) :
    callReturns d s i ret = { s with
      thread := if i = d then postReturned ret s.thread else s.thread
      calls := Function.update s.calls i none
      posts := (r, ret) :: s.posts } := by
  simp [callReturns, hi]

/-- A return leaves the machine and the handlers where they are. -/
lemma callReturns_fields (d i : Fin k) (s : DispatcherSys σ υ k) (ret : ℤ) :
    (callReturns d s i ret).thread.log = s.thread.log ∧
      (callReturns d s i ret).thread.hsm = s.thread.hsm ∧
      (callReturns d s i ret).thread.stack = s.thread.stack ∧
      (callReturns d s i ret).pc = s.pc ∧ (callReturns d s i ret).msgQ = s.msgQ := by
  cases hi : s.calls i with
  | none =>
      rw [callReturns_of_none hi]
      exact ⟨rfl, rfl, rfl, rfl, rfl⟩
  | some r =>
      rw [callReturns_of_some hi]
      by_cases hid : i = d <;> simp [hid, postReturned]

lemma pending_congr {t : DispatcherSys σ υ k} (h : t.msgQ = s.msgQ) : t.pending = s.pending := by
  rw [DispatcherSys.pending, DispatcherSys.pending, h]

/-- A post that fails is not accepted. -/
lemma accepted_callReturns_of_ne (hret : ret ≠ 0) :
    (callReturns d s i ret).accepted = s.accepted := by
  cases hi : s.calls i with
  | none => rw [callReturns_of_none hi]
  | some r =>
      rw [callReturns_of_some hi]
      simp [DispatcherSys.accepted, hret]

/-- A post that returns `0` is. -/
lemma accepted_callReturns {r : RawEvent} (hi : s.calls i = some r) :
    (callReturns d s i 0).accepted = s.accepted ++ [r.event] := by
  rw [callReturns_of_some hi]
  simp [DispatcherSys.accepted]

/-- A thread that is not in a call begins or ends one. -/
lemma CallInv.updateCalls (h : CallInv init d s) (x : Option RawEvent)
    (hidle : ∀ q, s.msgQ = some q → q.pc i = .idle) :
    CallInv init d { s with calls := Function.update s.calls i x } where
  thread := h.thread
  hold := h.hold
  entry := h.entry
  fifo := h.fifo
  sending q hq j msg t p hj := by
    have hji : j ≠ i := by
      rintro rfl
      rw [hidle q hq] at hj
      cases hj
    obtain ⟨r, hr, hbytes⟩ := h.sending q hq j msg t p hj
    exact ⟨r, (Function.update_of_ne hji ..).trans hr, hbytes⟩
  receiving := h.receiving

/-- The invariant does not depend on the data of the handlers, nor on the posts. -/
lemma CallInv.congr {t : DispatcherSys σ υ k} (h : CallInv init d s)
    (hlog : t.thread.log = s.thread.log) (hhsm : t.thread.hsm = s.thread.hsm)
    (hstack : t.thread.stack = s.thread.stack) (hpc : t.pc = s.pc) (hq : t.msgQ = s.msgQ)
    (hcalls : t.calls = s.calls) : CallInv init d t where
  thread := h.thread.congr hlog (by rw [hhsm])
  hold := by rw [hpc, hstack]; exact h.hold
  entry := by rw [hpc, hq]; exact h.entry
  fifo := by rw [hq]; exact h.fifo
  sending := by rw [hq, hcalls]; exact h.sending
  receiving := by rw [hq, hpc, hstack]; exact h.receiving

lemma CallInv.callReturns (h : CallInv init d s)
    (hidle : ∀ q, s.msgQ = some q → q.pc i = .idle) :
    CallInv init d (callReturns d s i ret) := by
  obtain ⟨hlog, hhsm, hstack, hpc, hq⟩ := callReturns_fields d i s ret
  cases hi : s.calls i with
  | none => rwa [callReturns_of_none hi]
  | some r =>
      refine (h.updateCalls none hidle).congr hlog hhsm hstack hpc hq ?_
      rw [callReturns_of_some hi]

lemma Account.callReturns_of_ne (h : Account init s) (hret : ret ≠ 0) :
    Account init (callReturns d s i ret) := by
  obtain ⟨hlog, -, -, hpc, hq⟩ := callReturns_fields d i s ret
  obtain ⟨l, hl, hacc⟩ := h
  refine ⟨l, by rw [hlog, hl], ?_⟩
  rw [hpc, pending_congr hq, accepted_callReturns_of_ne hret, hacc]

end Calls

/-! ### The steps -/

section Steps

variable {init : σ} {d : Fin k} {s : DispatcherSys σ υ k} {q : QueueSys k} {a : QueueAct k}

lemma lastTold_of_eq {t : QueueSys k} (h : t.log = q.log) : lastTold q t = none := by
  rw [lastTold, h, if_neg (lt_irrefl _)]

lemma lastTold_of_cons {t : QueueSys k} {x : QueueEvent k} (h : t.log = x :: q.log) :
    lastTold q t = some x := by
  rw [lastTold, h, if_pos (by simp)]
  rfl

lemma afterQueue_of_sent {t : QueueSys k} {i : Fin k} {msg : List UInt8}
    (h : t.log = .sent i msg :: q.log) :
    afterQueue d s q t = callReturns d { s with msgQ := some t } i 0 := by
  rw [afterQueue, lastTold_of_cons h]

/-- The thread that steps is in the call that the step is of. -/
structure StepsIn (d : Fin k) (s : DispatcherSys σ υ k) (a : QueueAct k) : Prop where
  sends : ∀ i m n t w, a = .send i m n t w → ∃ r, s.calls i = some r ∧ m = some r.bytes
  receives : ∀ i h n t w, a = .receive i h n t w →
    i = d ∧ s.pc = .loop ∧ s.thread.stack = []

/-- After a step of the queue its threads are still in the calls that are recorded. -/
lemma CallInv.queueStep (h : CallInv init d s) (hq : s.msgQ = some q) (ha : queueEnabled q a)
    (hin : StepsIn d s a) : CallInv init d { s with msgQ := some (queueNext q a) } := by
  have hpc : ∀ j, (∃ r msg t p, s.calls j = some r ∧ r.bytes = msg ∧
        (queueNext q a).pc j = .sending msg t p) ∨
      (j = d ∧ s.pc = .loop ∧ s.thread.stack = [] ∧
        ∃ t p, (queueNext q a).pc j = .receiving t p) ∨
      SameCall (q.pc j) ((queueNext q a).pc j) := by
    intro j
    cases a with
    | send i m n t w =>
        obtain ⟨r, hr, rfl⟩ := hin.sends i m n t w rfl
        rcases afterSend_pc i r.bytes t w (sendEnter q.queue (some r.bytes) n t) j with
          ⟨rfl, hj⟩ | hsame
        · exact .inl ⟨r, r.bytes, t, .blocked, hr, rfl, hj⟩
        · exact .inr (.inr hsame)
    | receive i hm n t w =>
        rcases afterReceive_pc i t w (receiveEnter q.queue hm n t) j with ⟨rfl, hj⟩ | hsame
        · obtain ⟨hd, hloop, hstack⟩ := hin.receives j hm n t w rfl
          exact .inr (.inl ⟨hd, hloop, hstack, t, .blocked, hj⟩)
        · exact .inr (.inr hsame)
    | resume i w => exact .inr (.inr (queueNext_inCall rfl j))
    | wakeUp i => exact .inr (.inr (queueNext_inCall rfl j))
    | expire i => exact .inr (.inr (queueNext_inCall rfl j))
    | leave i => exact .inr (.inr (queueNext_inCall rfl j))
  refine ⟨h.thread, h.hold, fun he => ?_, fun t ht => ?_, fun t ht j msg tm p hj => ?_,
    fun t ht j tm p hj => ?_⟩
  · have := h.entry he
    rw [hq] at this
    cases this
  · obtain rfl := Option.some.inj ht
    exact ((h.fifo q hq).step ha).1
  · obtain rfl := Option.some.inj ht
    rcases hpc j with ⟨r, msg', tm', p', hr, hbytes, hj'⟩ | ⟨-, -, -, tm', p', hj'⟩ | hsame
    · obtain ⟨rfl, -, -⟩ := CallPc.sending.inj (hj'.symm.trans hj)
      exact ⟨r, hr, hbytes⟩
    · cases hj'.symm.trans hj
    · obtain ⟨p', hp'⟩ := hsame.1 msg tm p hj
      exact h.sending q hq j msg tm p' hp'
  · obtain rfl := Option.some.inj ht
    rcases hpc j with ⟨r, msg', tm', p', -, -, hj'⟩ | ⟨hd, hloop, hstack, -⟩ | hsame
    · cases hj'.symm.trans hj
    · exact ⟨hd, hloop, hstack⟩
    · obtain ⟨p', hp'⟩ := hsame.2 tm p hj
      exact h.receiving q hq j tm p' hp'

/-- **A step of the queue keeps the account**: an accepted event goes behind those in the
queue, and the dispatcher takes the first of them in its hand. -/
lemma CallInv.afterQueue (h : CallInv init d s) (hacc : Account init s) (hq : s.msgQ = some q)
    (ha : queueEnabled q a) (hin : StepsIn d s a) :
    CallInv init d (afterQueue d s q (queueNext q a)) ∧
      Account init (afterQueue d s q (queueNext q a)) ∧
      (OpenHsm.afterQueue d s q (queueNext q a)).thread.log = s.thread.log := by
  have hcall := h.queueStep hq ha hin
  have hpending : s.pending = (content q.log).map readEvent := by rw [DispatcherSys.pending, hq]
  have hidle : ∀ x, (queueNext q a).log = x :: q.log → ∀ t, some (queueNext q a) = some t →
      t.pc x.thread = .idle := by
    rintro x hx _ ⟨⟩
    exact (queueNext_told hx).1
  obtain ⟨l, hl, hsum⟩ := hacc
  rw [hpending] at hsum
  cases ((h.fifo q hq).step ha).2 with
  | silent _ hlog =>
      rw [OpenHsm.afterQueue, lastTold_of_eq hlog]
      refine ⟨hcall, ⟨l, hl, ?_⟩, rfl⟩
      show l.map Prod.snd ++ s.pc.hand ++ (content (queueNext q a).log).map readEvent = s.accepted
      rw [hlog, hsum]
  | failed i ret hret _ hlog hcontent =>
      rw [OpenHsm.afterQueue, lastTold_of_cons hlog]
      refine ⟨hcall.callReturns (hidle _ hlog), ?_, (callReturns_fields d i _ ret).1⟩
      refine Account.callReturns_of_ne ⟨l, hl, ?_⟩ hret
      show l.map Prod.snd ++ s.pc.hand ++ (content (queueNext q a).log).map readEvent = s.accepted
      rw [hcontent, hsum]
  | sent i msg hby _ hlog hcontent =>
      obtain ⟨r, hr, rfl⟩ : ∃ r, s.calls i = some r ∧ r.bytes = msg := by
        rcases hby with ⟨n, tm, w, rfl⟩ | ⟨tm, w, -, hi⟩
        · obtain ⟨r, hr, hm⟩ := hin.sends i _ n tm w rfl
          exact ⟨r, hr, (Option.some.inj hm).symm⟩
        · exact h.sending q hq i msg tm _ hi
      rw [afterQueue_of_sent hlog]
      obtain ⟨hthread, -, -, hpc, hmsgQ⟩ :=
        callReturns_fields d i { s with msgQ := some (queueNext q a) } 0
      refine ⟨hcall.callReturns (hidle _ hlog), ⟨l, by rw [hthread, hl], ?_⟩, hthread⟩
      rw [hpc, pending_congr hmsgQ,
        accepted_callReturns (s := { s with msgQ := some (queueNext q a) }) hr]
      calc l.map Prod.snd ++ s.pc.hand ++ (content (queueNext q a).log).map readEvent
          = l.map Prod.snd ++ s.pc.hand ++ (content q.log).map readEvent ++ [r.event] := by
            rw [hcontent, List.map_append, ← List.append_assoc]
            rfl
        _ = s.accepted ++ [r.event] := by rw [hsum]
  | received i msg hlog hcontent =>
      obtain ⟨hidlei, hby⟩ := queueNext_told hlog
      obtain ⟨rfl, hloop, hstack⟩ : i = d ∧ s.pc = .loop ∧ s.thread.stack = [] := by
        rcases hby i msg rfl with ⟨hm, n, tm, w, rfl⟩ | ⟨-, tm, p, hi⟩
        · exact hin.receives i hm n tm w rfl
        · exact h.receiving q hq i tm p hi
      rw [OpenHsm.afterQueue, lastTold_of_cons hlog]
      refine ⟨⟨hcall.thread, fun _ _ => hstack, fun he => (by cases he), hcall.fifo,
        hcall.sending, fun t ht j tm p hj => ?_⟩, ⟨l, hl, ?_⟩, rfl⟩
      · obtain rfl := Option.some.inj ht
        obtain ⟨rfl, -, -⟩ := hcall.receiving _ rfl j tm p hj
        cases hidlei.symm.trans hj
      · show l.map Prod.snd ++ [readEvent msg] ++ (content (queueNext q a).log).map readEvent
          = s.accepted
        rw [← hsum, hloop, hcontent, List.map_cons, List.append_assoc]
        simp [RunPc.hand]

/-- What a step from `s` to `t` keeps, and does to the calls of the dispatcher. -/
structure Keeps (init : σ) (d : Fin k) (s t : DispatcherSys σ υ k) : Prop where
  inv : CallInv init d t
  account : Account init t
  step : DispatchStep s t

/-- A step of the queue leaves the handlers alone. -/
lemma CallInv.queue_keeps (h : CallInv init d s) (hacc : Account init s) (hq : s.msgQ = some q)
    (ha : queueEnabled q a) (hin : StepsIn d s a) :
    Keeps init d s (OpenHsm.afterQueue d s q (queueNext q a)) := by
  obtain ⟨hinv, hacc', hlog⟩ := h.afterQueue hacc hq ha hin
  exact ⟨hinv, hacc', .inl (congrArg topCalls hlog)⟩

variable {S : σ → HsmState σ (HandlerData υ)} {msgQSize : ℤ}

/-- Before its return a handler keeps the thread busy. -/
lemma CallInv.handler_keeps (h : CallInv init d s) (hacc : Account init s)
    (hstack : s.thread.stack ≠ []) :
    Keeps init d s { s with thread := stepHandler S s.thread } := by
  obtain ⟨l, hlog, hl⟩ := stepHandler_log S s.thread
  have htop : topCalls (stepHandler S s.thread).log = topCalls s.thread.log := by
    rw [hlog, topCalls_append hl]
  obtain ⟨m, hm, hsum⟩ := hacc
  refine ⟨⟨h.thread.handler, fun msg hpc => absurd (h.hold msg hpc) hstack, h.entry, h.fifo,
    h.sending, fun q hq i t p hi => ?_⟩, ⟨m, htop.trans hm, hsum⟩, .inl htop⟩
  exact absurd (h.receiving q hq i t p hi).2.2 hstack

/-- The queue is created empty, or the thread ends. -/
lemma CallInv.create_keeps (h : CallInv init d s) (hacc : Account init s) (hpc : s.pc = .entry)
    (hstack : s.thread.stack = []) (name : List UInt8) (structOk bufferOk : Bool) :
    Keeps init d s (dispatcherNext S d msgQSize s (.createQueue name structOk bufferOk)) := by
  have hnone : s.msgQ = none := h.entry hpc
  have hpending : s.pending = [] := by rw [DispatcherSys.pending, hnone]
  obtain ⟨l, hl, hsum⟩ := hacc
  rw [hpending, hpc] at hsum
  rw [dispatcherNext]
  split
  · next q hq =>
      have hfifo : FifoInv (k := k) ⟨q, fun _ => .idle, []⟩ :=
        ⟨RingInv.create hq, fun i msg t p hi => by cases hi⟩
      refine ⟨⟨h.thread, fun _ _ => hstack, fun he => (by cases he), ?_, ?_, ?_⟩,
        ⟨l, hl, hsum⟩, .inl rfl⟩
      · rintro _ ⟨⟩
        exact hfifo
      · rintro _ ⟨⟩ i msg t p hi
        cases hi
      · rintro _ ⟨⟩ i t p hi
        cases hi
  · refine ⟨⟨h.thread, fun _ _ => hstack, fun _ => hnone, h.fifo, h.sending, fun q hq => ?_⟩,
      ⟨l, hl, ?_⟩, .inl rfl⟩
    · rw [hnone] at hq
      cases hq
    · show l.map Prod.snd ++ [] ++ s.pending = s.accepted
      rw [hpending]
      exact hsum

/-- A post calls the queue, or is refused before there is one. -/
lemma CallInv.post_keeps (h : CallInv init d s) (hacc : Account init s) (i : Fin k)
    (r : RawEvent) (timeout : UInt32) (wake : Finset (Fin k))
    (hen : ∀ q ∈ s.msgQ, queueEnabled q (sendOf i r timeout wake)) :
    Keeps init d s (dispatcherNext S d msgQSize s (.post i r timeout wake)) := by
  have hcall : CallInv init d { s with calls := Function.update s.calls i (some r) } :=
    h.updateCalls (some r) fun q hq => (hen q hq).1
  cases hq : s.msgQ with
  | some q =>
      have hin : StepsIn d { s with calls := Function.update s.calls i (some r) }
          (sendOf i r timeout wake) := by
        refine ⟨fun j m n t w he => ?_, fun j m n t w he => by cases he⟩
        obtain ⟨rfl, rfl, -, -, -⟩ := QueueAct.send.inj he
        exact ⟨r, Function.update_self .., rfl⟩
      have hnext : dispatcherNext S d msgQSize s (.post i r timeout wake)
          = OpenHsm.afterQueue d { s with calls := Function.update s.calls i (some r) } q
              (queueNext q (sendOf i r timeout wake)) := by simp [dispatcherNext, hq]
      obtain ⟨hinv, hacc', hlog⟩ := hcall.afterQueue hacc hq (hen q hq) hin
      rw [hnext]
      exact ⟨hinv, hacc', .inl (congrArg topCalls hlog)⟩
  | none =>
      have hnext : dispatcherNext S d msgQSize s (.post i r timeout wake)
          = OpenHsm.callReturns d { s with calls := Function.update s.calls i (some r) } i
              (-1) := by simp [dispatcherNext, hq]
      have hlog := (callReturns_fields d i
        { s with calls := Function.update s.calls i (some r) } (-1)).1
      rw [hnext]
      refine ⟨hcall.callReturns fun t ht => ?_, ?_, .inl (congrArg topCalls hlog)⟩
      · rw [hq] at ht
        cases ht
      · exact Account.callReturns_of_ne hacc (by decide)

/-- **The event in hand is dispatched** to the state that is current, with an empty stack. -/
lemma CallInv.dispatch_keeps (h : CallInv init d s) (hacc : Account init s) {msg : List UInt8}
    (hpc : s.pc = .holding msg) :
    Keeps init d s
      { s with pc := .loop, thread := dispatchEvent S (readEvent msg) s.thread } := by
  have hstack := h.hold msg hpc
  obtain ⟨l, hl, hsum⟩ := hacc
  have htop : topCalls (dispatchEvent S (readEvent msg) s.thread).log
      = topCalls s.thread.log ++ [(s.thread.hsm.current, readEvent msg)] := by
    simp [topCalls, dispatchEvent, callHandler, topCall, Caller.topLevel]
  refine ⟨⟨h.thread.dispatch _, fun _ he => (by cases he), fun he => (by cases he), h.fifo,
    h.sending, fun q hq i t p hi => ?_⟩,
    ⟨l ++ [(s.thread.hsm.current, readEvent msg)], by rw [htop, hl]; rfl, ?_⟩,
    .inr ⟨hstack, readEvent msg, by rw [hpc]; rfl, htop⟩⟩
  · have hloop := (h.receiving q hq i t p hi).2.1
    rw [hpc] at hloop
    cases hloop
  · show (l ++ [(s.thread.hsm.current, readEvent msg)]).map Prod.snd ++ [] ++ s.pending
      = s.accepted
    rw [hpc] at hsum
    simpa [RunPc.hand] using hsum

/-- **Each step keeps the invariant**, and makes a call of the dispatcher only to the current
state and when no handler is running. -/
lemma CallInv.step (h : CallInv init d s) (hacc : Account init s) {a : DispatcherAct υ k}
    (ha : dispatcherEnabled d s a) : Keeps init d s (dispatcherNext S d msgQSize s a) := by
  cases a with
  | world u => exact ⟨h.congr rfl rfl rfl rfl rfl rfl, hacc, .inl rfl⟩
  | handler => exact h.handler_keeps hacc ha.1
  | createQueue name structOk bufferOk => exact h.create_keeps hacc ha.1 ha.2 ..
  | post i r timeout wake => exact h.post_keeps hacc i r timeout wake ha.2.2
  | receive wake =>
      obtain ⟨hloop, hstack, q, hq, hen⟩ := ha
      have hin : StepsIn d s (receiveOf d wake) := by
        refine ⟨fun j m n t w he => (by cases he), fun j m n t w he => ?_⟩
        obtain ⟨rfl, -⟩ := QueueAct.receive.inj he
        exact ⟨rfl, hloop, hstack⟩
      rw [dispatcherNext, show s.msgQ = some q from hq]
      exact h.queue_keeps hacc hq hen hin
  | goOn a =>
      obtain ⟨hcall, q, hq, hen⟩ := ha
      have hin : StepsIn d s a := by
        refine ⟨fun j m n t w he => ?_, fun j m n t w he => ?_⟩ <;>
        · rw [he] at hcall
          cases hcall
      rw [dispatcherNext, show s.msgQ = some q from hq]
      exact h.queue_keeps hacc hq hen hin
  | dispatch =>
      cases hpc : s.pc with
      | entry | loop | exited => simp [dispatcherEnabled, hpc, RunPc.hand] at ha
      | holding msg =>
          simp only [dispatcherNext, hpc]
          exact h.dispatch_keeps hacc hpc

end Steps

/-! ### Runs -/

variable {S}

lemma CallInv.initial {init : σ} {d : Fin k} {msgQSize : ℤ} {s : DispatcherSys σ υ k}
    (hs : (dispatcherSystem S init d msgQSize).init s) : CallInv init d s ∧ Account init s := by
  obtain ⟨u, rfl⟩ := hs
  exact ⟨⟨ThreadInv.start _, fun _ he => (by cases he), fun _ => rfl, fun q hq => (by cases hq),
    fun q hq => (by cases hq), fun q hq => (by cases hq)⟩, [], rfl, rfl⟩

/-- **The dispatcher is first-in first-out and runs to completion**: for all handlers, all
threads that post and all interleavings, its own calls are the entry of the initial state and
then the accepted events in order, each to the state that is current once all handlers of the
events before it have returned. -/
theorem dispatcher_is_fifo {init : σ} {d : Fin k} {msgQSize : ℤ} {s : DispatcherSys σ υ k}
    (hs : (dispatcherSystem S init d msgQSize).Reachable s) :
    Dispatches init s ∧ ∀ a, dispatcherEnabled d s a →
      DispatchStep s (dispatcherNext S d msgQSize s a) := by
  have hinv : CallInv init d s ∧ Account init s := by
    refine hs.invariant (P := fun s => CallInv init d s ∧ Account init s)
      (fun _ h0 => CallInv.initial h0) ?_
    rintro s a ⟨hcall, hacc⟩ ha
    have hkeeps : Keeps init d s (dispatcherNext S d msgQSize s a) := hcall.step hacc ha
    exact ⟨hkeeps.inv, hkeeps.account⟩
  exact ⟨⟨hinv.2, hinv.1.thread.called⟩, fun a ha => (hinv.1.step hinv.2 ha).step⟩

/-- The two states of a machine that starts work and is told by itself when it is done. -/
inductive RelayState where
  | ready | busy
  deriving DecidableEq, Repr

/-- The events of the machine. -/
def startWork : HsmEvent := ⟨hsmUserSig, none, 0⟩
def workDone : HsmEvent := ⟨hsmUserSig + 1, none, 0⟩

/-- At `startWork` it posts `workDone` to itself and goes to the other state. -/
def relayHsm : RelayState → HsmState RelayState (HandlerData Unit)
  | .ready => ⟨fun e =>
      if e.signal = hsmUserSig then
        postSelf workDone.raw 0 fun _ => .transit (fun _ => .busy) (.ret 0)
      else .ret 0, none⟩
  | .busy => ⟨fun _ => .ret 0, none⟩

instance (d : Fin k) (msgQSize : ℤ) (init : σ) (s : DispatcherSys σ υ k) (a : DispatcherAct υ k) :
    Decidable ((dispatcherSystem S init d msgQSize).enabled s a) :=
  inferInstanceAs (Decidable (dispatcherEnabled d s a))

/-- With a queue for one event, the second of two posts is refused and never dispatched; the
event that the handler posts itself is given to the state it goes to. -/
theorem relay_dispatches :
    ∃ s : DispatcherSys RelayState Unit 2,
      (dispatcherSystem relayHsm .ready 0 1).Reachable s ∧
      (s.posts.map Prod.snd = [0, -eAGAIN, 0] ∧ topCalls s.thread.log =
        [(.ready, entryEvent), (.ready, startWork), (.busy, workDone)]) ∧
      Dispatches .ready s := by
  obtain ⟨s, hs, hcalls⟩ : ∃ s : DispatcherSys RelayState Unit 2,
      (dispatcherSystem relayHsm .ready 0 1).Reachable s ∧
      (s.posts.map Prod.snd = [0, -eAGAIN, 0] ∧ topCalls s.thread.log =
        [(.ready, entryEvent), (.ready, startWork), (.busy, workDone)]) :=
    System.reachable_of_replay ⟨(), rfl⟩
      [.handler, .createQueue [] true true, .post 1 startWork.raw 0 ∅, .post 1 startWork.raw 0 ∅,
        .receive ∅, .dispatch, .handler, .post 0 workDone.raw 0 ∅, .handler, .handler, .handler,
        .handler, .receive ∅, .dispatch]
      (by decide +kernel)
  exact ⟨s, hs, hcalls, (dispatcher_is_fifo hs).1⟩

end OpenHsm
