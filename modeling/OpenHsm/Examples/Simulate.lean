import OpenHsm.Hsm.Cascades
import OpenHsm.Hsm.Contracts

/-!
The two machines of `examples/linux/hsm_simulate.c`, which post to each other: a periodic timer
makes the first one send, until it stops the timer.

* `Simulate`, `HsmSimulate`, `simulateHsm`: the machines and their handlers.
* `simulateContract`: what each of them makes of the events it is sent.
* `simulateSystem`: the program after `main` has started them; only the timer posts to them from
  outside.
* `simulate_comesOf`: what a tick leads to comes to an end.
* `simulate_comes_to_rest`: in every fair run the timer is stopped after twelve ticks or more
  and all events are handled.
-/

namespace OpenHsm

open Runs System WaitChain

/-! ### The machines -/

/-- `g_simulate1` and `g_simulate2`. -/
inductive Simulate where
  | simulate1 | simulate2
  deriving DecidableEq

namespace Simulate

instance : Fintype Simulate where
  elems := {simulate1, simulate2}
  complete i := by cases i <;> decide

/-- `simulate->watcher`. -/
def watcher : Simulate → Simulate
  | simulate1 => simulate2
  | simulate2 => simulate1

end Simulate

/-- The states of both. -/
inductive SimulateState where
  | init | working | idle
  deriving DecidableEq

/-- `struct hsm_simulate`. -/
structure HsmSimulate where
  cnt : ℤ
  sendCnt : ℤ
  /-- The periodic timer of the machine runs. -/
  periodic : Bool
  deriving DecidableEq

/-- `SIMULATE_SIG_SEND`, `SIMULATE_SIG_RECV` and `SIMULATE_SIG_IDLE`. -/
def simulateSigSend : Int := hsmUserSig + 1
def simulateSigRecv : Int := hsmUserSig + 2
def simulateSigIdle : Int := hsmUserSig + 3

/-- An event with nothing but a signal. -/
def signalEvent (signal : Int) : RawEvent := HsmEvent.raw ⟨signal, none, 0⟩

/-- A handler changes the structure of its machine. -/
def setSimulate (f : HsmSimulate → HsmSimulate)
    (k : Body SimulateState (PostData HsmSimulate Simulate)) :
    Body SimulateState (PostData HsmSimulate Simulate) :=
  .act (fun u => { u with user := f u.user }) k

/-- `simulate_init_state_handler`. -/
def simulateInitStateHandler (_ : HsmEvent) : Body SimulateState (PostData HsmSimulate Simulate) :=
  setSimulate (fun d => { d with cnt := 0 }) <|
  .transit (fun _ => .working) <| .read fun _ h => .ret h.error

/-- `do_period`; its caller ignores what it returns. -/
def doPeriod (i : Simulate) : Body SimulateState (PostData HsmSimulate Simulate) :=
  postTo i.watcher (signalEvent simulateSigSend) 5 fun _ =>
  .read fun u _ =>
  setSimulate (fun d => { d with cnt := d.cnt + 1 }) <|
  if u.user.cnt > 10 then setSimulate (fun d => { d with periodic := false }) (.ret 0)
  else .ret 0

/-- `do_send`; its caller ignores what it returns. -/
def doSend (i : Simulate) : Body SimulateState (PostData HsmSimulate Simulate) :=
  postTo i.watcher (signalEvent simulateSigRecv) 5 fun _ =>
  setSimulate (fun d => { d with sendCnt := d.sendCnt + 1 }) <|
  .read fun u _ =>
  if u.user.sendCnt % 5 = 0 then postTo i (signalEvent simulateSigIdle) 5 fun _ => .ret 0
  else .ret 0

/-- `simulate_working_state_handler`. -/
def simulateWorkingStateHandler (i : Simulate) (e : HsmEvent) :
    Body SimulateState (PostData HsmSimulate Simulate) :=
  if e.signal = hsmSigEntry then .ret 0
  else if e.signal = hsmSigPeriod then doPeriod i
  else if e.signal = simulateSigSend then doSend i
  else if e.signal = simulateSigRecv then .ret 0
  else if e.signal = simulateSigIdle then
    .transit (fun _ => .idle) <| .read fun _ h => .ret h.error
  else .ret 0

/-- `simulate_state_idle_handler`. -/
def simulateStateIdleHandler (_ : HsmEvent) : Body SimulateState (PostData HsmSimulate Simulate) :=
  .ret 0

/-- The states of `i`. -/
def simulateHsm (i : Simulate) :
    SimulateState → HsmState SimulateState (PostData HsmSimulate Simulate)
  | .init => ⟨simulateInitStateHandler, none⟩
  | .working => ⟨simulateWorkingStateHandler i, none⟩
  | .idle => ⟨simulateStateIdleHandler, none⟩

/-- `SIMULATE_TASK_MSG_Q_SIZE`. -/
def simulateTaskMsgQSize : ℤ := 20

/-- The sizes of the queues. -/
abbrev simulateSize (_ : Simulate) : ℤ := simulateTaskMsgQSize

/-! ### What a tick leads to -/

/-- The signals of the program. -/
lemma signalEvent_event {signal : Int} (h : 0 ≤ signal ∧ signal < 8) :
    (signalEvent signal).event = ⟨signal, none, 0⟩ :=
  HsmEvent.raw_event ⟨by constructor <;> dsimp only <;> omega, by simp, by norm_num⟩

@[simp] lemma signalEvent_send : (signalEvent simulateSigSend).event = ⟨5, none, 0⟩ :=
  signalEvent_event (by decide)

@[simp] lemma signalEvent_recv : (signalEvent simulateSigRecv).event = ⟨6, none, 0⟩ :=
  signalEvent_event (by decide)

@[simp] lemma signalEvent_idle : (signalEvent simulateSigIdle).event = ⟨7, none, 0⟩ :=
  signalEvent_event (by decide)

@[simp] lemma signalEvent_period : (signalEvent hsmSigPeriod).event = ⟨3, none, 0⟩ :=
  signalEvent_event (by decide)

/-- The initial state leads to the working one. -/
lemma acc_init (i : Simulate) (e : HsmEvent) :
    Acc (ComesOf simulateHsm) (.run i ((simulateHsm i .init).handler e)) :=
  acc_act (fun _ hu => hu) (acc_transit (fun _ => acc_ret 0) (acc_read fun _ _ => acc_ret _))

/-- Events that make no machine post lead to nothing endless. -/
lemma acc_quiet {e : HsmEvent} (hperiod : e.signal ≠ hsmSigPeriod)
    (hsend : e.signal ≠ simulateSigSend) (i : Simulate) (s : SimulateState) :
    Acc (ComesOf simulateHsm) (.run i ((simulateHsm i s).handler e)) := by
  cases s with
  | init => exact acc_init i e
  | idle => exact acc_ret 0
  | working =>
      simp only [simulateHsm, simulateWorkingStateHandler, if_neg hperiod, if_neg hsend]
      split_ifs
      · exact acc_ret 0
      · exact acc_ret 0
      · exact acc_transit (fun _ => acc_ret 0) (acc_read fun _ _ => acc_ret _)
      · exact acc_ret 0

/-- `SIMULATE_SIG_SEND` leads to quiet events. -/
lemma acc_send {e : HsmEvent} (hsend : e.signal = simulateSigSend) (i : Simulate)
    (s : SimulateState) :
    Acc (ComesOf simulateHsm) (.run i ((simulateHsm i s).handler e)) := by
  cases s with
  | init => exact acc_init i e
  | idle => exact acc_ret 0
  | working =>
      have hbody : (simulateHsm i .working).handler e = doSend i := by
        simp [simulateHsm, simulateWorkingStateHandler, hsend, simulateSigSend, hsmUserSig,
          hsmSigEntry, hsmSigPeriod]
      rw [hbody]
      refine acc_postTo (fun s => ?_) fun _ => acc_act (fun _ hu => hu) (acc_read fun u _ => ?_)
      · rw [signalEvent_recv]
        exact acc_quiet (by decide) (by decide) i.watcher s
      · split
        · refine acc_postTo (fun s => ?_) fun _ => acc_ret 0
          rw [signalEvent_idle]
          exact acc_quiet (by decide) (by decide) i s
        · exact acc_ret 0

/-- `HSM_SIG_PERIOD` leads to `SIMULATE_SIG_SEND`. -/
lemma acc_period {e : HsmEvent} (hperiod : e.signal = hsmSigPeriod) (i : Simulate)
    (s : SimulateState) :
    Acc (ComesOf simulateHsm) (.run i ((simulateHsm i s).handler e)) := by
  cases s with
  | init => exact acc_init i e
  | idle => exact acc_ret 0
  | working =>
      have hbody : (simulateHsm i .working).handler e = doPeriod i := by
        simp [simulateHsm, simulateWorkingStateHandler, hperiod, hsmSigPeriod, hsmSigEntry]
      rw [hbody]
      refine acc_postTo (fun s => ?_) fun _ => acc_read fun u _ => acc_act (fun _ hu => hu) ?_
      · exact acc_send (by rw [signalEvent_send]; rfl) i.watcher s
      · split
        · exact acc_act (fun _ hu => hu) (acc_ret 0)
        · exact acc_ret 0

/-- **What a tick leads to comes to an end.** -/
lemma simulate_comesOf : WellFounded (ComesOf simulateHsm) := by
  refine comesOf_wellFounded fun i s e => ?_
  by_cases hperiod : e.signal = hsmSigPeriod
  · exact acc_period hperiod i s
  · by_cases hsend : e.signal = simulateSigSend
    · exact acc_send hsend i s
    · exact acc_quiet hperiod hsend i s

/-! ### What the machines make of their events -/

/-- How many ticks. -/
def ticks (es : List HsmEvent) : ℕ := es.countP fun e => e.signal = hsmSigPeriod

/-- The signals that a machine is sent. -/
def Simulate.takes : Simulate → List Int
  | simulate1 => [hsmSigPeriod, simulateSigRecv]
  | simulate2 => [simulateSigSend, simulateSigIdle]

/-- What has become of a machine after the events `es`. -/
def simulateAfter (i : Simulate) (es : List HsmEvent) (h : HsmActive SimulateState)
    (d : HsmSimulate) : Prop :=
  match i with
  | .simulate1 => h.current = .working ∧ d.cnt = ticks es ∧ d.periodic = decide (ticks es < 12)
  | .simulate2 => h.current ≠ .init ∧ (h.current = .idle ↔ ∃ e ∈ es, e.signal = simulateSigIdle)

/-- The posts of the handlers. -/
def simulatePosts (p : Simulate × RawEvent × UInt32) : Prop :=
  p.2.2 = 5 ∧ p.2.1.event.signal ∈ p.1.takes ∧ p.2.1.event.signal ≠ hsmSigPeriod

/-- Each starts in the initial state and ends up in the working one. -/
lemma simulate_starts (i : Simulate) :
    Completes (simulateHsm i) simulatePosts (simulateAfter i [])
      (startThread (simulateHsm i) .init ⟨⟨0, 0, decide (i = .simulate1)⟩, none, 0⟩) := by
  refine .act rfl (.transit rfl fun _ => .ret rfl (.read rfl (.ret rfl (.done rfl rfl ?_))))
  cases i <;> simp [simulateAfter, ticks, Caller.storesError]

/-- A tick at the first machine. -/
lemma simulate_period {es : List HsmEvent} {e : HsmEvent} (he : e.signal = hsmSigPeriod)
    {h : HsmActive SimulateState} {u : PostData HsmSimulate Simulate} (hu : u.request = none)
    (hafter : simulateAfter .simulate1 es h u.user) (log : List (HsmLog SimulateState)) :
    Completes (simulateHsm .simulate1) simulatePosts (simulateAfter .simulate1 (es ++ [e]))
      ⟨h, u, [⟨doPeriod .simulate1, .queue⟩], log⟩ := by
  obtain ⟨hcur, hcnt, hperiodic⟩ := hafter
  have hticks : ticks (es ++ [e]) = ticks es + 1 := by simp [ticks, he]
  have hpost : simulatePosts (.simulate2, signalEvent simulateSigSend, 5) := by
    refine ⟨rfl, ?_⟩
    rw [signalEvent_send]
    decide
  refine .postTo hu hpost fun ret => .read rfl (.act rfl ?_)
  dsimp only
  split
  · next hlast =>
      refine .act rfl (.ret rfl (.done rfl rfl ⟨hcur, ?_, ?_⟩))
      · simp [hticks, hcnt]
      · rw [hcnt] at hlast
        simp only [hticks]
        symm
        rw [decide_eq_false_iff_not]
        omega
  · next hmore =>
      refine .ret rfl (.done rfl rfl ⟨hcur, ?_, ?_⟩)
      · simp [hticks, hcnt]
      · rw [hcnt] at hmore
        have hboth : (ticks es < 12) ∧ ticks es + 1 < 12 := by omega
        simp [hticks, hperiodic, hboth]

/-- Another event at the first machine. -/
lemma ticks_append_of_ne {es : List HsmEvent} {e : HsmEvent} (he : e.signal ≠ hsmSigPeriod) :
    ticks (es ++ [e]) = ticks es := by
  simp [ticks, he]

/-- An event that is not `SIMULATE_SIG_IDLE` leaves the second machine in its state. -/
lemma simulateAfter_append {es : List HsmEvent} {e : HsmEvent} {h : HsmActive SimulateState}
    {d d' : HsmSimulate} (he : e.signal ≠ simulateSigIdle)
    (hafter : simulateAfter .simulate2 es h d) : simulateAfter .simulate2 (es ++ [e]) h d' := by
  obtain ⟨hinit, hidle⟩ := hafter
  refine ⟨hinit, hidle.trans ?_⟩
  simp [he]

/-- `SIMULATE_SIG_SEND` at the second machine. -/
lemma simulate_send {es : List HsmEvent} {e : HsmEvent} (he : e.signal = simulateSigSend)
    {h : HsmActive SimulateState} {u : PostData HsmSimulate Simulate} (hu : u.request = none)
    (hafter : simulateAfter .simulate2 es h u.user) (log : List (HsmLog SimulateState)) :
    Completes (simulateHsm .simulate2) simulatePosts (simulateAfter .simulate2 (es ++ [e]))
      ⟨h, u, [⟨doSend .simulate2, .queue⟩], log⟩ := by
  have hidle : e.signal ≠ simulateSigIdle := by rw [he]; decide
  have hrecv : simulatePosts (.simulate1, signalEvent simulateSigRecv, 5) := by
    refine ⟨rfl, ?_⟩
    rw [signalEvent_recv]
    decide
  have hself : simulatePosts (.simulate2, signalEvent simulateSigIdle, 5) := by
    refine ⟨rfl, ?_⟩
    rw [signalEvent_idle]
    decide
  refine .postTo hu hrecv fun ret => .act rfl (.read rfl ?_)
  split
  · exact .postTo rfl hself fun ret' =>
      .ret rfl (.done rfl rfl (simulateAfter_append hidle hafter))
  · exact .ret rfl (.done rfl rfl (simulateAfter_append hidle hafter))

/-- `SIMULATE_SIG_IDLE` at the second machine. -/
lemma simulate_idle {es : List HsmEvent} {e : HsmEvent} (he : e.signal = simulateSigIdle)
    {h : HsmActive SimulateState} {u : PostData HsmSimulate Simulate} (hu : u.request = none)
    (log : List (HsmLog SimulateState)) :
    Completes (simulateHsm .simulate2) simulatePosts (simulateAfter .simulate2 (es ++ [e]))
      ⟨h, u, [⟨.transit (fun _ => .idle) (.read fun _ h => .ret h.error), .queue⟩], log⟩ := by
  refine .transit hu fun _ => .ret hu (.read hu (.ret hu (.done rfl hu ?_)))
  simp [simulateAfter, Caller.storesError, he]

/-- **Each handler keeps the contract** by itself. -/
lemma simulate_handles (i : Simulate) (es : List HsmEvent) (e : HsmEvent)
    (c : HsmThread SimulateState (PostData HsmSimulate Simulate)) (hstack : c.stack = [])
    (hreq : c.user.request = none) (hafter : simulateAfter i es c.hsm c.user.user)
    (he : e.signal ∈ i.takes) :
    Completes (simulateHsm i) simulatePosts (simulateAfter i (es ++ [e]))
      (dispatchEvent (simulateHsm i) e c) := by
  obtain ⟨h, u, stack, log⟩ := c
  obtain rfl : stack = [] := hstack
  cases i with
  | simulate1 =>
      obtain ⟨hcur, hcnt, hperiodic⟩ := hafter
      dsimp only at hcur hcnt hperiodic
      rw [dispatchEvent, callHandler]
      dsimp only
      rw [hcur]
      rcases List.mem_cons.mp he with he | he
      · have hbody : (simulateHsm .simulate1 .working).handler e = doPeriod .simulate1 := by
          simp [simulateHsm, simulateWorkingStateHandler, he, hsmSigPeriod, hsmSigEntry]
        rw [hbody]
        exact simulate_period he hreq ⟨hcur, hcnt, hperiodic⟩ _
      · have he : e.signal = simulateSigRecv := List.mem_singleton.mp he
        have hbody : (simulateHsm .simulate1 .working).handler e = .ret 0 := by
          simp [simulateHsm, simulateWorkingStateHandler, he, hsmSigPeriod, hsmSigEntry,
            simulateSigRecv, simulateSigSend, hsmUserSig]
        rw [hbody]
        have hticks : ticks (es ++ [e]) = ticks es := ticks_append_of_ne (by rw [he]; decide)
        refine .ret hreq (.done rfl hreq ⟨hcur, ?_, ?_⟩)
        · rw [hticks]; exact hcnt
        · rw [hticks]; exact hperiodic
  | simulate2 =>
      rw [dispatchEvent, callHandler]
      dsimp only at hafter ⊢
      cases hcur : h.current with
      | init => exact absurd hcur hafter.1
      | idle =>
          obtain ⟨e', he', hidle⟩ := hafter.2.mp hcur
          have hstill : simulateAfter .simulate2 (es ++ [e]) h u.user :=
            ⟨hafter.1, fun _ => ⟨e', List.mem_append_left _ he', hidle⟩, fun _ => hcur⟩
          exact .ret hreq (.done rfl hreq hstill)
      | working =>
          rcases List.mem_cons.mp he with he | he
          · have hbody : (simulateHsm .simulate2 .working).handler e = doSend .simulate2 := by
              simp [simulateHsm, simulateWorkingStateHandler, he, hsmSigPeriod, hsmSigEntry,
                simulateSigSend, hsmUserSig]
            rw [hbody]
            exact simulate_send he hreq hafter _
          · have he : e.signal = simulateSigIdle := List.mem_singleton.mp he
            have hbody : (simulateHsm .simulate2 .working).handler e =
                .transit (fun _ => .idle) (.read fun _ h => .ret h.error) := by
              simp [simulateHsm, simulateWorkingStateHandler, he, hsmSigPeriod, hsmSigEntry,
                simulateSigRecv, simulateSigSend, simulateSigIdle, hsmUserSig]
            rw [hbody]
            exact simulate_idle he hreq _

/-- What the machines are sent and what they make of it. -/
def simulateContract : Contract simulateHsm fun _ => .init where
  allowed i e := e.signal ∈ i.takes
  posts := simulatePosts
  initial i d := d = ⟨0, 0, decide (i = .simulate1)⟩
  after := simulateAfter
  posts_allowed _ hp := hp.2.1
  starts i _ hu := hu ▸ simulate_starts i
  handles := simulate_handles

/-! ### The program -/

/-- The steps that the program can take: only the timer of the first machine posts from outside,
with `oas_hsm_timer_handler`. -/
def TicksOnly (_ : Simulate → ActiveObject SimulateState HsmSimulate Simulate) :
    ActiveAct HsmSimulate Simulate → Prop
  | .outside j r => j = .simulate1 ∧ r = signalEvent hsmSigPeriod
  | _ => True

/-- Both machines and the timer. -/
def simulateSystem : System (Simulate → ActiveObject SimulateState HsmSimulate Simulate)
    (ActiveAct HsmSimulate Simulate) :=
  (simulateContract.system simulateSize).restrict TicksOnly

variable {s t : Simulate → ActiveObject SimulateState HsmSimulate Simulate}
  {a : ActiveAct HsmSimulate Simulate}
  {x : ℕ → Simulate → ActiveObject SimulateState HsmSimulate Simulate}
  {b : ℕ → ActiveAct HsmSimulate Simulate}

/-- The timer of the first machine runs. -/
def TimerOn (s : Simulate → ActiveObject SimulateState HsmSimulate Simulate) : Prop :=
  (s .simulate1).thread.user.user.periodic = true

instance (s : Simulate → ActiveObject SimulateState HsmSimulate Simulate) :
    Decidable (TimerOn s) :=
  inferInstanceAs (Decidable (_ = _))

/-- What the timer does in a run. -/
structure TimerRuns (x : ℕ → Simulate → ActiveObject SimulateState HsmSimulate Simulate)
    (b : ℕ → ActiveAct HsmSimulate Simulate) : Prop where
  /-- Once it is stopped, its late notifications come to an end. -/
  stops : ∀ N, ¬ TimerOn (x N) → ∃ M, ∀ n ≥ M, ∀ j r, b n ≠ .outside j r
  /-- While it runs and the queue has room, there is another tick. -/
  ticks : ∀ N, (∀ n ≥ N, TimerOn (x n) ∧
    HasRoom simulateSize (x n) .simulate1) → ∃ n ≥ N, ∃ j r, b n = .outside j r

/-- All is done: both machines are idle, are as their contract says after all the events that
they have accepted, and the timer is stopped after twelve ticks, if the first machine has a
queue. -/
structure SimulateDone (s : Simulate → ActiveObject SimulateState HsmSimulate Simulate) :
    Prop where
  idle : ∀ i, IsIdle (s i)
  handled : ∀ i, simulateAfter i (s i).accepted (s i).thread.hsm (s i).thread.user.user
  stopped : (s .simulate1).pc = .exited ∨
    ¬ TimerOn s ∧ 12 ≤ (s .simulate1).thread.user.user.cnt

/-- In a run of the program every machine keeps its contract. -/
lemma simulate_run (hrun : simulateSystem.Behaviour x b) :
    (activeSystem simulateHsm simulateSize fun _ => .init).Behaviour x b ∧
      ∀ n, (∀ i, simulateContract.Kept i (x n i)) ∧ simulateContract.Permits (x n) (b n) ∧
        TicksOnly (x n) (b n) := by
  obtain ⟨hsystem, hticks⟩ := Behaviour.restrict_iff.mp hrun
  exact ⟨⟨hsystem.init.1, fun n => (hsystem.enabled n).1, hsystem.next⟩, fun n =>
    ⟨simulateContract.kept (hsystem.reachable n), (hsystem.enabled n).2, hticks n⟩⟩

lemma ticks_append (es es' : List HsmEvent) : ticks (es ++ es') = ticks es + ticks es' :=
  List.countP_append

/-- The handlers post no ticks. -/
lemma accepted_ticks (hinv : ActiveInv simulateSize s)
    (hkept : ∀ i, simulateContract.Kept i (s i))
    (hm : ActiveMove simulateHsm simulateSize s a t)
    (hout : ∀ j r, a ≠ .outside j r) :
    ticks (t .simulate1).accepted = ticks (s .simulate1).accepted := by
  rcases hm.accepted hinv .simulate1 with h | ⟨r, h, ha | ⟨i, timeout, -, hreq⟩⟩
  · rw [h]
  · exact absurd ha (hout _ _)
  · rw [h]
    exact ticks_append_of_ne ((hkept i).running.of_request hreq).1.2.2

/-- A machine that has dispatched twelve ticks at most and has room has not accepted many. -/
lemma accepted_ticks_le {A : ActiveObject SimulateState HsmSimulate Simulate}
    (hticks : ticks (dispatched A.thread.log) ≤ 12) {l : List RawEvent} (hq : A.queue = some l)
    (hroom : (l.length : ℤ) < simulateTaskMsgQSize) : ticks A.accepted ≤ 32 := by
  have hhand : ticks A.pc.hand ≤ 1 := by
    refine List.countP_le_length.trans ?_
    cases A.pc <;> simp [RunPc.hand]
  have hqueue : ticks (l.map RawEvent.event) ≤ l.length := by
    have hlength : (l.map RawEvent.event).length = l.length := List.length_map _
    exact hlength ▸ List.countP_le_length
  rw [simulateTaskMsgQSize] at hroom
  rw [ActiveObject.accepted, hq, Option.getD_some, ticks_append, ticks_append]
  omega

/-- While the timer runs the first machine has dispatched twelve ticks at most. -/
lemma dispatched_ticks_le (hrun : simulateSystem.Behaviour x b) (hon : ∀ n, TimerOn (x n)) (n : ℕ) :
    ticks (dispatched (x n .simulate1).thread.log) ≤ 12 := by
  obtain ⟨hactive, hkeeps⟩ := simulate_run hrun
  induction n with
  | zero =>
      obtain ⟨u, hu⟩ := hactive.init
      rw [hu]
      exact Nat.zero_le _
  | succ n ih =>
      have hinv := ActiveInv.of_reachable (hactive.reachable n)
      have hm := activeMove (S := simulateHsm) (hactive.enabled n)
      rw [hactive.next n]
      rcases hm.dispatches hinv .simulate1 with h | ⟨hstack, e, -, h⟩
      · exact h.symm ▸ ih
      · have hafter := ((hkeeps n).1 .simulate1).running.of_stack_nil hstack
          ((hinv.own .simulate1).no_request hstack)
        have hlt : ticks (dispatched (x n .simulate1).thread.log) < 12 :=
          of_decide_eq_true (hafter.2.2 ▸ hon n)
        have hone : ticks [e] ≤ 1 := List.countP_le_length
        have heq : ticks (dispatched (activeNext simulateHsm simulateSize (x n)
            (b n) .simulate1).thread.log) = _ := congrArg ticks h
        rw [ticks_append] at heq
        show ticks (dispatched (activeNext simulateHsm _ (x n) (b n) .simulate1).thread.log) ≤ 12
        omega

/-- A tick is accepted. -/
lemma accepted_tick {j : Simulate} {r : RawEvent}
    (ha : activeEnabled simulateSize s (.outside j r))
    (htick : TicksOnly s (.outside j r)) :
    ticks (activeNext simulateHsm simulateSize s (.outside j r)
        .simulate1).accepted = ticks (s .simulate1).accepted + 1 ∧
      ∃ l, (s .simulate1).queue = some l ∧ (l.length : ℤ) < simulateTaskMsgQSize := by
  obtain ⟨rfl, rfl⟩ := htick
  simp only [activeEnabled, HasRoom] at ha
  split at ha
  · next l hl =>
      refine ⟨?_, l, hl, ha⟩
      simp only [activeNext, hl]
      rw [accepted_setQueue hl, if_pos rfl, ticks_append, signalEvent_period]
      rfl
  · exact ha.elim

/-- **The ticks come to an end**, since the twelfth one stops the timer. -/
lemma ticks_end (hrun : simulateSystem.Behaviour x b) (htimer : TimerRuns x b) :
    ∃ N, ∀ n ≥ N, ∀ j r, b n ≠ .outside j r := by
  by_cases hon : ∀ n, TimerOn (x n)
  swap
  · push Not at hon
    obtain ⟨N, hN⟩ := hon
    exact htimer.stops N hN
  obtain ⟨hactive, hkeeps⟩ := simulate_run hrun
  obtain ⟨M, -, hM⟩ : ∃ M ≥ 0, ∀ n ≥ M, ¬ ∃ j r, b n = .outside j r := by
    refine Behaviour.eventually_not (x := x) wellFounded_lt
      (A := fun a : ActiveAct HsmSimulate Simulate => ∃ j r, a = .outside j r)
      (μ := fun s => 33 - ticks (s .simulate1).accepted) (fun n _ hout => ?_) fun n _ hout => ?_
    · obtain ⟨j, r, hjr⟩ := hout
      have ha := hactive.enabled n
      have htick := (hkeeps n).2.2
      rw [hactive.next n]
      rw [hjr] at ha htick ⊢
      obtain ⟨hmore, l, hl, hroom⟩ := accepted_tick ha htick
      have hle := accepted_ticks_le (dispatched_ticks_le hrun hon n) hl hroom
      show 33 - ticks (activeNext simulateHsm simulateSize (x n) (.outside j r)
        .simulate1).accepted < _
      omega
    · rw [hactive.next n]
      have hsame := accepted_ticks (ActiveInv.of_reachable (hactive.reachable n)) (hkeeps n).1
        (activeMove (hactive.enabled n)) fun j r h => hout ⟨j, r, h⟩
      exact congrArg (33 - ·) hsame
  exact ⟨M, fun n hn j r h => hM n hn ⟨j, r, h⟩⟩

/-- The posts of the handlers end within five milliseconds, so that none is stuck. -/
lemma simulate_not_doomed (hkept : ∀ i, simulateContract.Kept i (s i)) (i : Simulate) :
    ¬ Doomed (waitsOn simulateSize s) i := by
  intro hdoomed
  obtain ⟨j, hij, -⟩ := hdoomed.next
  obtain ⟨-, ⟨r, timeout, hreq, ht⟩, -⟩ := waitsOn_iff.mp hij
  obtain rfl : timeout = 5 := ((hkept i).running.of_request hreq).1.1
  exact absurd ht (by decide)

/-- An idle machine has dispatched all the events that it has accepted. -/
lemma IsIdle.dispatched_eq {A : ActiveObject SimulateState HsmSimulate Simulate} {n : ℤ}
    (h : IsIdle A) (hA : A.Inv n) : dispatched A.thread.log = A.accepted := by
  obtain ⟨-, hpc | ⟨hpc, hq⟩⟩ := h
  · have hq := hA.created.mpr (.inr hpc)
    simp [ActiveObject.accepted, hpc, hq, RunPc.hand]
  · simp [ActiveObject.accepted, hpc, hq, RunPc.hand]

/-- **The program comes to rest.** In every infinite run of `g_simulate1` and `g_simulate2` in
which no dispatcher is held back for ever and the timer runs as it should, from some time on
both machines are idle, having handled all events that they accepted, the first one in its
working state, the second one in its idle state if it was sent there; and the timer is stopped,
after twelve ticks or more, unless the first machine has got no queue. -/
theorem simulate_comes_to_rest (hrun : simulateSystem.Behaviour x b)
    (hfair : (activeSystem simulateHsm simulateSize fun _ => .init).Fair
      ActiveAct.dispatcher x b) (htimer : TimerRuns x b) : ∃ M, ∀ n ≥ M, SimulateDone (x n) := by
  obtain ⟨hactive, hkeeps⟩ := simulate_run hrun
  have hinv : ∀ n, ActiveInv simulateSize (x n) := fun n =>
    .of_reachable (hactive.reachable n)
  obtain ⟨N, hN⟩ := ticks_end hrun htimer
  obtain ⟨M, hM, hquiet⟩ := dispatchers_end simulate_comesOf hactive hN
  have hout : ∀ n ≥ M, ∀ j r, b n ≠ .outside j r := fun n hn => hN n (hM.trans hn)
  have hidle : ∀ n ≥ M, ∀ i, IsIdle (x n i) := fun n hn i =>
    (idle_or_doomed_of_quiet hactive hfair hout hquiet n hn i).resolve_right
      (simulate_not_doomed (hkeeps n).1 i)
  have hhandled : ∀ n ≥ M, ∀ i,
      simulateAfter i (x n i).accepted (x n i).thread.hsm (x n i).thread.user.user := by
    intro n hn i
    have hstack := (hidle n hn i).1
    rw [← (hidle n hn i).dispatched_eq ((hinv n).own i)]
    exact ((hkeeps n).1 i).running.of_stack_nil hstack (((hinv n).own i).no_request hstack)
  refine ⟨M, fun n hn => ⟨hidle n hn, hhandled n hn, ?_⟩⟩
  rcases (hidle n hn .simulate1).2 with hpc | ⟨-, hq⟩
  · exact .inl hpc
  -- nothing changes any more, so that a timer that runs would tick again
  have hconst : ∀ m ≥ n, x m = x n := by
    intro m hm
    induction m, hm using Nat.le_induction with
    | base => rfl
    | succ m hm ih =>
        obtain ⟨i, u, hu⟩ := ActiveAct.eq_world (hout m (hn.trans hm)) (hquiet m (hn.trans hm))
        have hsame : u = (x m i).thread.user.user := by
          have hpermits := (hkeeps m).2.1
          rw [hu] at hpermits
          exact hpermits
        rw [hactive.next m, hu, hsame]
        exact (Function.update_eq_self i (x m)).trans ih
  have hoff : ¬ TimerOn (x n) := by
    intro hon
    obtain ⟨m, hm, j, r, hjr⟩ := htimer.ticks n fun m hm => by
      rw [hconst m hm, HasRoom, hq]
      exact ⟨hon, by decide⟩
    exact hout m (hn.trans hm) j r hjr
  obtain ⟨-, hcnt, hperiodic⟩ := hhandled n hn .simulate1
  refine .inr ⟨hoff, ?_⟩
  rw [TimerOn, hperiodic, decide_eq_true_iff] at hoff
  rw [hcnt]
  omega

/-- The start of the program. -/
def simulateStart (i : Simulate) : ActiveObject SimulateState HsmSimulate Simulate :=
  ⟨startThread (simulateHsm i) .init ⟨⟨0, 0, decide (i = .simulate1)⟩, none, 0⟩, .entry, false,
    none⟩

lemma simulateStart_init : simulateSystem.init simulateStart :=
  ⟨⟨fun i => ⟨0, 0, decide (i = .simulate1)⟩, rfl⟩, fun _ => rfl⟩

instance (s : Simulate → ActiveObject SimulateState HsmSimulate Simulate)
    (a : ActiveAct HsmSimulate Simulate) : Decidable (simulateContract.Permits s a) := by
  induction a using ActiveAct.casesOn <;>
    (dsimp only [Contract.Permits, simulateContract]; infer_instance)

instance (s : Simulate → ActiveObject SimulateState HsmSimulate Simulate)
    (a : ActiveAct HsmSimulate Simulate) : Decidable (TicksOnly s a) := by
  induction a using ActiveAct.casesOn <;> (dsimp only [TicksOnly]; infer_instance)

instance (s : Simulate → ActiveObject SimulateState HsmSimulate Simulate)
    (a : ActiveAct HsmSimulate Simulate) : Decidable (simulateSystem.enabled s a) :=
  inferInstanceAs (Decidable ((activeEnabled simulateSize s a ∧ simulateContract.Permits s a) ∧
    TicksOnly s a))

/-- `k` steps of the handlers of `i`. -/
def handlerSteps (i : Simulate) (k : ℕ) : List (ActiveAct HsmSimulate Simulate) :=
  List.replicate k (.handler i)

/-- An event in the queue of `i` is handled by the steps `l`. -/
def served (i : Simulate) (l : List (ActiveAct HsmSimulate Simulate)) :
    List (ActiveAct HsmSimulate Simulate) :=
  .receive i :: .dispatch i :: l

/-- The `k`th tick and all that comes of it. -/
def tickRun (k : ℕ) : List (ActiveAct HsmSimulate Simulate) :=
  .outside .simulate1 (signalEvent hsmSigPeriod) ::
    served .simulate1
      (.handler .simulate1 :: .post .simulate1 ::
        handlerSteps .simulate1 (if k = 12 then 5 else 4)) ++
    if k < 5 then
      served .simulate2 (.handler .simulate2 :: .post .simulate2 :: handlerSteps .simulate2 4) ++
        served .simulate1 (handlerSteps .simulate1 1)
    else if k = 5 then
      served .simulate2 (.handler .simulate2 :: .post .simulate2 ::
        handlerSteps .simulate2 4 ++ .post .simulate2 :: handlerSteps .simulate2 2) ++
        served .simulate2 (handlerSteps .simulate2 4) ++
        served .simulate1 (handlerSteps .simulate1 1)
    else served .simulate2 (handlerSteps .simulate2 1)

/-- Both machines start, and each tick is handled before the next one. -/
def simulateRun : List (ActiveAct HsmSimulate Simulate) :=
  handlerSteps .simulate1 5 ++ handlerSteps .simulate2 5 ++
    [.createQueue .simulate1 [] true true, .createQueue .simulate2 [] true true] ++
    (List.range 12).flatMap fun k => tickRun (k + 1)

/-- A run in which both machines get their queues and the timer ticks twelve times. -/
theorem simulate_twelve_ticks :
    ∃ x b, simulateSystem.Behaviour x b ∧
      (activeSystem simulateHsm simulateSize fun _ => .init).Fair ActiveAct.dispatcher x b ∧
      TimerRuns x b ∧ ∃ M, ∀ n ≥ M, SimulateDone (x n) := by
  obtain ⟨t, ht, hidle, hoff⟩ : ∃ t ∈ simulateSystem.replay simulateStart simulateRun,
      (∀ i, IsIdle (t i)) ∧ ¬ TimerOn t := by decide +kernel
  have hstay : simulateSystem.enabled t (.world .simulate1 (t .simulate1).thread.user.user) :=
    ⟨⟨trivial, rfl⟩, trivial⟩
  obtain ⟨x, b, hrun, hend⟩ :=
    exists_behaviour simulateStart_init ht hstay (Function.update_eq_self _ t)
  have hfair : (activeSystem simulateHsm simulateSize fun _ => .init).Fair
      ActiveAct.dispatcher x b := by
    refine fair_of_rest (N := simulateRun.length) fun n hn c hc => ?_
    obtain ⟨i, hi⟩ := Option.ne_none_iff_exists'.mp hc
    have hinv := ActiveInv.of_reachable ((simulate_run hrun).1.reachable n)
    exact hinv.idle ((hend n hn).1 ▸ hidle i) hi
  have htimer : TimerRuns x b := by
    refine ⟨fun _ _ => ⟨simulateRun.length, fun n hn j r => ?_⟩, fun N hon => ?_⟩
    · rw [(hend n hn).2]
      simp
    · have hn := hon (max N simulateRun.length) (le_max_left _ _)
      rw [(hend _ (le_max_right _ _)).1] at hn
      exact absurd hn.1 hoff
  exact ⟨x, b, hrun, hfair, htimer, simulate_comes_to_rest hrun hfair htimer⟩

end OpenHsm
