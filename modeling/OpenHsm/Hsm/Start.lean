import OpenHsm.Hsm.Dispatcher

/-!
The start of a machine: `osa_hsm_active_start`, which creates the dispatcher thread and
returns, while the message queue is created by that thread once the entry action of the
initial state is over.

* `StartPc`, `StartSys`, `startSystem`: the caller of `osa_hsm_active_start` beside the
  threads of `Dispatcher`; other threads may post at any time.
* `Due`, `PostAccepted`, `AcceptsEvents`: what a started machine owes to a post.
* `QueueInv`, `start_step`: the queue that the dispatcher made keeps its size.
* `started_hsm_accepts_iff`: the posts are accepted exactly when none of them comes before
  the queue; `first_event_is_lost` is the run of a program that posts right after the start.
-/

namespace OpenHsm

open Runs

variable {σ υ : Type*} {k : ℕ}

/-! ### The system -/

/-- Where `osa_hsm_active_start` is. -/
inductive StartPc where
  | before
  /-- The thread is created. -/
  | created
  | returned (ret : ℤ)
  deriving DecidableEq, Repr

/-- The dispatcher thread exists. -/
def StartPc.running : StartPc → Bool
  | .before => false
  | .created => true
  | .returned ret => ret = 0

/-- The machine and the thread that starts it. -/
structure StartSys (σ υ : Type*) (k : ℕ) where
  start : StartPc
  sys : DispatcherSys σ υ k

/-- One step. -/
inductive StartAct (υ : Type*) (k : ℕ) where
  /-- `osa_thread_create` in `osa_hsm_active_start`. -/
  | createThread (ok : Bool)
  | startReturns
  | run (a : DispatcherAct υ k)

/-- The step is one the dispatcher takes while it has no queue. -/
def DispatcherAct.byDispatcher (d : Fin k) : DispatcherAct υ k → Prop
  | .handler | .createQueue _ _ _ | .receive _ | .dispatch => True
  | .post i _ _ _ => i = d
  | .world _ | .goOn _ => False

instance (d : Fin k) (a : DispatcherAct υ k) : Decidable (a.byDispatcher d) :=
  match a with
  | .handler | .createQueue _ _ _ | .receive _ | .dispatch => inferInstanceAs (Decidable True)
  | .post i _ _ _ => inferInstanceAs (Decidable (i = d))
  | .world _ | .goOn _ => inferInstanceAs (Decidable False)

/-- When a step can be taken. -/
def startEnabled (d : Fin k) (s : StartSys σ υ k) : StartAct υ k → Prop
  | .createThread _ => s.start = .before
  | .startReturns => s.start = .created
  | .run a => dispatcherEnabled d s.sys a ∧ (a.byDispatcher d → s.start.running)

instance (d : Fin k) (s : StartSys σ υ k) (a : StartAct υ k) : Decidable (startEnabled d s a) := by
  cases a <;> simp only [startEnabled] <;> infer_instance

variable (S : σ → HsmState σ (HandlerData υ))

/-- The effect of a step. -/
def startNext (d : Fin k) (msgQSize : ℤ) (s : StartSys σ υ k) : StartAct υ k → StartSys σ υ k
  | .createThread ok => { s with start := if ok then .created else .returned (-1) }
  | .startReturns => { s with start := .returned 0 }
  | .run a => { s with sys := dispatcherNext S d msgQSize s.sys a }

/-- The machine, zero-initialised and given to `osa_hsm_active_init`, and its start. -/
def startSystem (init : σ) (d : Fin k) (msgQSize : ℤ) :
    System (StartSys σ υ k) (StartAct υ k) where
  init s := s.start = .before ∧ (dispatcherSystem S init d msgQSize).init s.sys
  enabled := startEnabled d
  next := startNext S d msgQSize

instance (d : Fin k) (msgQSize : ℤ) (init : σ) (s : StartSys σ υ k) (a : StartAct υ k) :
    Decidable ((startSystem S init d msgQSize).enabled s a) :=
  inferInstanceAs (Decidable (startEnabled d s a))

/-! ### What a started machine owes -/

/-- The step is a post that must be accepted: it is made after the start or by a handler,
and fewer than `msgQSize` accepted events are waiting. -/
def Due (d : Fin k) (msgQSize : ℤ) (s : StartSys σ υ k) : StartAct υ k → Prop
  | .run (.post i _ _ _) =>
      (s.start = .returned 0 ∨ i = d) ∧ (s.sys.pending.length : ℤ) < msgQSize
  | .run (.world _) | .run .handler | .run (.createQueue _ _ _) | .run (.receive _)
  | .run (.goOn _) | .run .dispatch | .createThread _ | .startReturns => False

/-- The post returns `0`, and its event is behind those that wait. -/
def PostAccepted (d : Fin k) (msgQSize : ℤ) (s : StartSys σ υ k) : StartAct υ k → Prop
  | .run (.post i r timeout wake) =>
      let t := dispatcherNext S d msgQSize s.sys (.post i r timeout wake)
      t.posts = (r, 0) :: s.sys.posts ∧ t.pending = s.sys.pending ++ [r.event]
  | .run (.world _) | .run .handler | .run (.createQueue _ _ _) | .run (.receive _)
  | .run (.goOn _) | .run .dispatch | .createThread _ | .startReturns => True

/-- In the run `l` to `s` every post that must be accepted is, and the dispatcher takes the
accepted events in order. -/
structure AcceptsEvents (init : σ) (d : Fin k) (msgQSize : ℤ)
    (l : List (StartSys σ υ k × StartAct υ k)) (s : StartSys σ υ k) : Prop where
  accepted : ∀ p ∈ l, Due d msgQSize p.1 p.2 → PostAccepted S d msgQSize p.1 p.2
  inOrder : Dispatches init s.sys

/-- The allocations of `osa_queue_create` succeed. -/
def StartAct.allocates : StartAct υ k → Prop
  | .run (.createQueue _ structOk bufferOk) => structOk = true ∧ bufferOk = true
  | .run (.world _) | .run .handler | .run (.post _ _ _ _) | .run (.receive _)
  | .run (.goOn _) | .run .dispatch | .createThread _ | .startReturns => True

/-! ### The queue of the machine -/

variable {S} {init : σ} {d : Fin k} {msgQSize : ℤ}

/-- The queue is one for `msgQSize` events, and open. -/
structure QueueMade (msgQSize : ℤ) (q : OsaQueue) : Prop where
  msgSize : q.msgSize = sizeofHsmEvent
  maxMsgs : q.maxMsgs = msgQSize
  isOpen : q.closed = false

lemma QueueMade.queueNext {q : QueueSys k} (h : QueueMade msgQSize q.queue) (a : QueueAct k) :
    QueueMade msgQSize (queueNext q a).queue := by
  obtain ⟨hsize, hmax, hopen⟩ := h
  rcases queueNext_queue q a with hq | ⟨msg, hq⟩ | hq <;> rw [hq] <;> exact ⟨hsize, hmax, hopen⟩

/-- What the system knows of the queue. -/
structure HasQueue (msgQSize : ℤ) (s : DispatcherSys σ υ k) : Prop where
  made : ∀ q, s.msgQ = some q → QueueMade msgQSize q.queue
  created : s.pc ≠ .entry → s.msgQ ≠ none

lemma afterQueue_msgQ (s : DispatcherSys σ υ k) (q t : QueueSys k) :
    (afterQueue d s q t).msgQ = some t := by
  rw [afterQueue]
  split
  · exact (callReturns_fields d _ _ _).2.2.2.2
  · exact (callReturns_fields d _ _ _).2.2.2.2
  · rfl
  · rfl

lemma HasQueue.afterQueue {s : DispatcherSys σ υ k} (h : HasQueue msgQSize s) {q : QueueSys k}
    (hq : s.msgQ = some q) (a : QueueAct k) (c : Fin k → Option RawEvent) :
    HasQueue msgQSize (afterQueue d { s with calls := c } q (queueNext q a)) := by
  refine ⟨fun t ht => ?_, fun _ => by rw [afterQueue_msgQ]; simp⟩
  rw [afterQueue_msgQ, Option.some.injEq] at ht
  exact ht ▸ (h.made q hq).queueNext a

/-- A step of the threads keeps the queue, or creates it. -/
lemma HasQueue.step {s : DispatcherSys σ υ k} (h : HasQueue msgQSize s) (hsize : 0 < msgQSize)
    {a : DispatcherAct υ k} (halloc : StartAct.allocates (.run a)) :
    HasQueue msgQSize (dispatcherNext S d msgQSize s a) := by
  cases a with
  | world u => exact ⟨h.made, h.created⟩
  | handler => exact ⟨h.made, h.created⟩
  | createQueue name structOk bufferOk =>
      obtain ⟨rfl, rfl⟩ := halloc
      have hbad : ¬ (sizeofHsmEvent = 0 ∨ msgQSize ≤ 0) := by
        rw [sizeofHsmEvent]
        omega
      simp only [dispatcherNext, osaQueueCreate, if_neg hbad, Bool.true_eq_false, if_false]
      refine ⟨fun q hq => ?_, by simp⟩
      obtain rfl := Option.some.inj hq
      exact ⟨rfl, rfl, rfl⟩
  | post i r timeout wake =>
      cases hq : s.msgQ with
      | none =>
          have hnext : dispatcherNext S d msgQSize s (.post i r timeout wake) = callReturns d
              { s with calls := Function.update s.calls i (some r) } i (-1) := by
            simp [dispatcherNext, hq]
          obtain ⟨-, -, -, hpc, hmsgQ⟩ := callReturns_fields d i
            { s with calls := Function.update s.calls i (some r) } (-1)
          rw [hnext]
          exact ⟨by rw [hmsgQ]; exact h.made, by rw [hpc, hmsgQ]; exact h.created⟩
      | some q =>
          simp only [dispatcherNext, hq]
          exact h.afterQueue hq _ _
  | receive _ | goOn _ =>
      cases hq : s.msgQ with
      | none => simpa only [dispatcherNext, hq] using h
      | some q =>
          simp only [dispatcherNext, hq]
          exact h.afterQueue hq _ s.calls
  | dispatch =>
      cases hpc : s.pc with
      | holding msg =>
          simp only [dispatcherNext, hpc]
          exact ⟨h.made, fun _ => h.created (by simp [hpc])⟩
      | entry | loop | exited => simpa only [dispatcherNext, hpc] using h

/-- The state of a machine whose queue can be allocated. -/
structure StartInv (init : σ) (d : Fin k) (msgQSize : ℤ) (s : StartSys σ υ k) : Prop where
  call : CallInv init d s.sys
  account : Account init s.sys
  queue : HasQueue msgQSize s.sys

lemma StartInv.initial {s : StartSys σ υ k} (h : (startSystem S init d msgQSize).init s) :
    StartInv init d msgQSize s := by
  obtain ⟨hcall, hacc⟩ := CallInv.initial h.2
  obtain ⟨-, u, hu⟩ := h
  exact ⟨hcall, hacc, by simp [hu], by simp [hu]⟩

lemma start_step (hsize : 0 < msgQSize) {s : StartSys σ υ k} {a : StartAct υ k}
    (h : StartInv init d msgQSize s)
    (ha : ((startSystem S init d msgQSize).restrict fun _ a => a.allocates).enabled s a) :
    StartInv init d msgQSize (startNext S d msgQSize s a) := by
  obtain ⟨ha, halloc⟩ := ha
  cases a with
  | createThread ok => exact ⟨h.call, h.account, h.queue⟩
  | startReturns => exact ⟨h.call, h.account, h.queue⟩
  | run a =>
      have hkeeps : Keeps init d s.sys (dispatcherNext S d msgQSize s.sys a) :=
        h.call.step h.account ha.1
      exact ⟨hkeeps.inv, hkeeps.account, h.queue.step hsize halloc⟩

/-! ### Posts -/

/-- With a queue that has room, a post is accepted. -/
lemma post_accepted {s : DispatcherSys σ υ k} {q : QueueSys k} (hq : s.msgQ = some q)
    (hfifo : FifoInv q) (hmade : QueueMade msgQSize q.queue)
    (hroom : (s.pending.length : ℤ) < msgQSize) (i : Fin k) (r : RawEvent) (timeout : UInt32)
    (wake : Finset (Fin k)) :
    (dispatcherNext S d msgQSize s (.post i r timeout wake)).posts = (r, 0) :: s.posts ∧
      (dispatcherNext S d msgQSize s (.post i r timeout wake)).pending
        = s.pending ++ [r.event] := by
  have hpending : s.pending = (content q.log).map readEvent := by rw [DispatcherSys.pending, hq]
  have hcount : q.queue.count < q.queue.maxMsgs := by
    rw [hpending, List.length_map] at hroom
    rw [hfifo.ring.count, hmade.maxMsgs]
    exact hroom
  have hsend : sendEnter q.queue (some r.bytes) sizeofHsmEvent timeout.toInt32.toInt
      = some (0, writeMessage q.queue r.bytes) := by
    simp [sendEnter, sendFinish, hmade.msgSize, hmade.isOpen, not_le.mpr hcount]
  have hlog : (queueNext q (sendOf i r timeout wake)).log = .sent i r.bytes :: q.log := by
    simp [queueNext, sendOf, afterSend, hsend]
  have hnext : dispatcherNext S d msgQSize s (.post i r timeout wake) =
      callReturns d { s with
        calls := Function.update s.calls i (some r)
        msgQ := some (queueNext q (sendOf i r timeout wake)) } i 0 := by
    simp only [dispatcherNext, hq]
    exact afterQueue_of_sent hlog
  rw [hnext]
  refine ⟨by simp [callReturns], ?_⟩
  rw [pending_congr (callReturns_fields d i _ 0).2.2.2.2, hpending]
  show (content (queueNext q (sendOf i r timeout wake)).log).map readEvent = _
  rw [hlog, content, List.map_append]
  rfl

/-- Before the queue is created, a post is refused. -/
lemma post_refused {s : DispatcherSys σ υ k} (hq : s.msgQ = none) (i : Fin k) (r : RawEvent)
    (timeout : UInt32) (wake : Finset (Fin k)) :
    (dispatcherNext S d msgQSize s (.post i r timeout wake)).posts = (r, -1) :: s.posts := by
  simp [dispatcherNext, hq, callReturns]

/-- A post that must be accepted is, exactly when the dispatcher has created its queue. -/
lemma postAccepted_iff {s : StartSys σ υ k} {a : StartAct υ k} (h : StartInv init d msgQSize s)
    (hdue : Due d msgQSize s a) : PostAccepted S d msgQSize s a ↔ s.sys.pc ≠ .entry := by
  match a, hdue with
  | .run (.post i r timeout wake), ⟨_, hroom⟩ =>
      constructor
      · rintro ⟨hposts, -⟩ hentry
        rw [post_refused (h.call.entry hentry)] at hposts
        simp at hposts
      · intro hpc
        obtain ⟨q, hq⟩ := Option.ne_none_iff_exists'.mp (h.queue.created hpc)
        exact post_accepted hq (h.call.fifo q hq) (h.queue.made q hq) hroom i r timeout wake

/-- **A started machine accepts events exactly from the creation of its queue on.**  For every
machine, every interleaving of its dispatcher with the threads that start it and post, and
allocations that succeed: all posts that must be accepted are, in order, if and only if none
of them is made while the dispatcher is still before its `osa_queue_create`. -/
theorem started_hsm_accepts_iff (hsize : 0 < msgQSize) {s₀ s : StartSys σ υ k}
    {l : List (StartSys σ υ k × StartAct υ k)} (h0 : (startSystem S init d msgQSize).init s₀)
    (hl : (startSystem S init d msgQSize).RunFrom s₀ l s) (halloc : ∀ p ∈ l, p.2.allocates) :
    AcceptsEvents S init d msgQSize l s ↔
      ∀ p ∈ l, Due d msgQSize p.1 p.2 → p.1.sys.pc ≠ .entry := by
  have hrun : ((startSystem S init d msgQSize).restrict fun _ a => a.allocates).RunFrom s₀ l s :=
    System.RunFrom.restrict_iff.mpr ⟨hl, halloc⟩
  have hstep : ∀ u a, StartInv init d msgQSize u →
      ((startSystem S init d msgQSize).restrict fun _ a => a.allocates).enabled u a →
      StartInv init d msgQSize (startNext S d msgQSize u a) :=
    fun _ _ hu ha => start_step hsize hu ha
  have hinv := hrun.forall_mem (P := StartInv init d msgQSize) hstep (StartInv.initial h0)
  have hs : StartInv init d msgQSize s := hrun.invariant hstep (StartInv.initial h0)
  constructor
  · intro h p hp hdue
    exact (postAccepted_iff (hinv p hp).1 hdue).mp (h.accepted p hp hdue)
  · intro h
    exact ⟨fun p hp hdue => (postAccepted_iff (hinv p hp).1 hdue).mpr (h p hp hdue),
      hs.account, hs.call.thread.called⟩

/-- The machine of the relay before its start. -/
def relayStart : StartSys RelayState Unit 2 :=
  ⟨.before, startThread relayHsm .ready ⟨(), none, 0⟩, .entry, none, fun _ => none, []⟩

/-- Thread `i` posts after the start, and after the queue is created. -/
def latePost (i : Fin 2) : List (StartAct Unit 2) :=
  [.createThread true, .startReturns, .run .handler, .run (.createQueue [] true true),
    .run (.post i startWork.raw 0 ∅)]

/-- The event of that thread is accepted. -/
theorem late_post_accepted :
    ∃ s : StartSys RelayState Unit 2, ∃ l,
      (startSystem relayHsm .ready 0 1).RunFrom relayStart l s ∧ s.start = .returned 0 ∧
        s.sys.pending.length = 1 ∧ AcceptsEvents relayHsm .ready 0 1 l s := by
  obtain ⟨s, hs, hfacts⟩ : ∃ s ∈ (startSystem relayHsm .ready 0 1).replay relayStart (latePost 1),
      s.start = .returned 0 ∧ s.sys.pending.length = 1 := by
    decide +kernel
  have hrun := System.runFrom_of_replay hs
  refine ⟨s, _, hrun, hfacts.1, hfacts.2,
    (started_hsm_accepts_iff (by decide) ⟨rfl, (), rfl⟩ hrun ?_).mpr ?_⟩
  · simp [latePost, System.history, StartAct.allocates]
  · simp only [latePost, System.history, List.nil_append, List.cons_append, List.forall_mem_cons]
    exact ⟨fun _ => by decide, fun h => h.elim, fun h => h.elim, fun h => h.elim,
      fun h => h.elim, by simp⟩

/-- Thread `i` posts before the dispatcher runs, which then creates its queue and waits. -/
def earlyPost (i : Fin 2) : List (StartAct Unit 2) :=
  [.createThread true, .startReturns, .run (.post i startWork.raw 0 ∅), .run .handler,
    .run (.createQueue [] true true), .run (.receive ∅)]

/-- **The first event of a started machine is lost**: `osa_hsm_active_start` has returned `0`,
the post that follows it returns `-1`, and the dispatcher waits in an empty queue. -/
theorem first_event_is_lost :
    ∃ s : StartSys RelayState Unit 2, ∃ l,
      (startSystem relayHsm .ready 0 1).RunFrom relayStart l s ∧ (∀ p ∈ l, p.2.allocates) ∧
        (s.start = .returned 0 ∧ s.sys.posts.map Prod.snd = [-1] ∧ s.sys.pc = .loop ∧
          s.sys.pending = [] ∧ topCalls s.sys.thread.log = [(.ready, entryEvent)]) ∧
        ¬ AcceptsEvents relayHsm .ready 0 1 l s := by
  obtain ⟨s, hs, hfacts⟩ : ∃ s ∈ (startSystem relayHsm .ready 0 1).replay relayStart (earlyPost 1),
      s.start = .returned 0 ∧ s.sys.posts.map Prod.snd = [-1] ∧ s.sys.pc = .loop ∧
        s.sys.pending = [] ∧ topCalls s.sys.thread.log = [(.ready, entryEvent)] := by
    decide +kernel
  have hrun := System.runFrom_of_replay hs
  refine ⟨s, _, hrun, by simp [earlyPost, System.history, StartAct.allocates], hfacts, ?_⟩
  intro h
  have hmem : (⟨.returned 0, relayStart.sys⟩, .run (.post 1 startWork.raw 0 ∅)) ∈
      (startSystem relayHsm .ready 0 1).history relayStart (earlyPost 1) := by
    simp [earlyPost, System.history, startSystem, startNext]
  obtain ⟨hposts, -⟩ := h.accepted _ hmem ⟨.inl rfl, by decide⟩
  exact absurd (congrArg (List.map Prod.snd) hposts) (by decide)

end OpenHsm
