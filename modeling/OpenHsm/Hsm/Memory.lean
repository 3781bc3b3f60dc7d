import OpenHsm.Hsm.Dispatcher
import OpenHsm.Hsm.Period

/-!
What a machine does with the memory it is made in: `struct osa_hsm_active` with all its
members, of which `osa_hsm_active_init` sets only those of `struct hsm_active`.

* `OsaHsmActive`, `PlatformCall`: the structure, and the calls below `core/osa_hsm.c`.
* `HsmProcess`, `HsmProcess.start`, `.post`, `.period`, `.run`: the threads that call
  `osa_hsm_active_start`, `_event_post` and `_period`, and any number of dispatchers, each
  reading and writing the one structure.  What a platform call answers is part of the schedule.
* `SameBehaviour`, `StartsClean`: two contents of the memory cannot be told apart; nothing
  reaches a queue or a timer that was never created.
* `Twins`: what two such runs agree on, `twins_next` the step, `sameBehaviour_iff` the exact
  condition.
* `memory_irrelevant_iff`: both hold exactly when the two handles that are read before they
  are written were `NULL`; `stray_post` is a post to whatever the memory held.
-/

namespace OpenHsm

/-! ### The structure and the calls -/

/-- `struct hsm_dispatcher`; a handle is `none` when it is `NULL`. -/
structure HsmDispatcher where
  taskRef : Option ℕ
  msgQ : Option ℕ
  msgQSize : ℤ
  deriving DecidableEq, Repr

/-- `struct osa_hsm_active`. -/
structure OsaHsmActive (σ : Type*) where
  super : HsmActive σ
  name : Option (List Char)
  disp : HsmDispatcher
  timer : HsmTimer
  deriving DecidableEq, Repr

/-- A call of the platform layer, with the arguments it is given. -/
inductive PlatformCall where
  | threadCreate (name : Option (List Char)) (stackSize priority : ℤ)
  | queueCreate (name : List Char) (msgSize : ℕ) (maxMsgs : ℤ)
  | queueSend (q : ℕ) (e : RawEvent) (msgLen : ℕ) (timeoutMs : ℤ)
  | queueReceive (q : Option ℕ) (msgLen : ℕ) (timeoutMs : ℤ)
  | timerCreate (periodMs : UInt32) (cycle : Bool)
  | timerStop (t : Option ℕ)
  deriving DecidableEq

/-- What can be seen from outside. -/
inductive HsmTrace where
  | called (c : PlatformCall)
  | queueCreated (q : ℕ)
  | timerCreated (t : ℕ)
  /-- A call of thread `i` returned `ret`. -/
  | returned (i : ℕ) (ret : ℤ)
  deriving DecidableEq

/-- The call a thread is in, waiting for the platform. -/
inductive HsmCall where
  | start
  | post
  | period (p : UInt32)
  deriving DecidableEq, Repr

/-- Where a dispatcher is. -/
inductive DispatchPc where
  /-- Before `STATE_INIT`. -/
  | fresh
  /-- In the entry action, or after it. -/
  | entry
  /-- In `osa_queue_create`. -/
  | creating
  | loop
  /-- In `osa_queue_receive`. -/
  | receiving
  | exited
  deriving DecidableEq, Repr

/-- A thread in `osa_hsm_active_run`. -/
structure Dispatcher (σ υ : Type*) where
  stack : List (Frame σ υ)
  pc : DispatchPc

/-- The structure and the threads that use it, with what could be seen, newest first. -/
structure HsmProcess (σ υ : Type*) where
  hsm : OsaHsmActive σ
  user : υ
  threads : List (Dispatcher σ υ)
  calls : ℕ → Option HsmCall
  trace : List HsmTrace

/-- One step of one thread.  A handler that calls one of the three functions does so as one
of the threads `i`. -/
inductive HsmStep (υ : Type*) where
  | start (i : ℕ) (stackSize priority msgqSize : ℤ)
  /-- The thread that `osa_thread_create` makes begins to run. -/
  | spawn (i : ℕ)
  | post (i : ℕ) (event : Option RawEvent) (timeout : UInt32)
  | period (i : ℕ) (period : UInt32)
  /-- The platform call of thread `i` returns. -/
  | answer (i : ℕ) (ret : ℤ) (handle : ℕ)
  /-- Dispatcher `j` goes on. -/
  | run (j : ℕ)
  /-- The platform call of dispatcher `j` returns. -/
  | runAnswer (j : ℕ) (ret : ℤ) (handle : ℕ) (msg : RawEvent)
  /-- The data of the handlers are changed. -/
  | world (u : υ)

variable {σ υ : Type*}

namespace HsmProcess

/-- Thread `i` calls the platform. -/
def call (s : HsmProcess σ υ) (i : ℕ) (h : HsmCall) (c : PlatformCall) : HsmProcess σ υ :=
  { s with calls := Function.update s.calls i (some h), trace := .called c :: s.trace }

/-- The call of thread `i` returns `ret`. -/
def ret (s : HsmProcess σ υ) (i : ℕ) (ret : ℤ) : HsmProcess σ υ :=
  { s with calls := Function.update s.calls i none, trace := .returned i ret :: s.trace }

/-- `osa_hsm_active_start`, to the call of `osa_thread_create`. -/
def start (s : HsmProcess σ υ) (i : ℕ) (stackSize priority msgqSize : ℤ) : HsmProcess σ υ :=
  let s := { s with hsm := { s.hsm with disp := { s.hsm.disp with msgQSize := msgqSize } } }
  s.call i .start (.threadCreate s.hsm.name stackSize priority)

/-- `osa_hsm_active_event_post`, to its return or the call of `osa_queue_send`. -/
def post (s : HsmProcess σ υ) (i : ℕ) (event : Option RawEvent) (timeout : UInt32) :
    HsmProcess σ υ :=
  match event, s.hsm.disp.msgQ with
  | none, _ => s.ret i (-1)
  | some _, none => s.ret i (-1)
  | some e, some q => s.call i .post (.queueSend q e sizeofHsmEvent timeout.toInt32.toInt)

/-- `osa_hsm_active_period`, to the call of `osa_timer_create` or `osa_timer_stop`. -/
def period (s : HsmProcess σ υ) (i : ℕ) (p : UInt32) : HsmProcess σ υ :=
  if p ≠ 0 then s.call i (.period p) (.timerCreate p true)
  else s.call i (.period p) (.timerStop s.hsm.timer.timerId)

/-- The platform has answered the call `c` of thread `i`. -/
def answer (s : HsmProcess σ υ) (i : ℕ) (c : HsmCall) (ret : ℤ) (handle : ℕ) :
    HsmProcess σ υ :=
  match c with
  | .start =>
      if ret = 0 then
        { s with hsm := { s.hsm with disp := { s.hsm.disp with taskRef := some handle } } }.ret i 0
      else s.ret i (-1)
  | .post => s.ret i ret
  | .period p =>
      if p ≠ 0 then
        if ret = 0 then
          { s with
            hsm := { s.hsm with timer := ⟨some handle, p⟩ }
            trace := .timerCreated handle :: s.trace }.ret i ret
        else { s with hsm := { s.hsm with timer := ⟨s.hsm.timer.timerId, p⟩ } }.ret i ret
      else { s with hsm := { s.hsm with timer := ⟨s.hsm.timer.timerId, 0⟩ } }.ret i ret

end HsmProcess

/-- The name of the queue: `"hsm_%s_q"` of the name, or `"hsm_%d_q"` of the process. -/
def queueName (name : Option (List Char)) (pid : ℕ) : List Char :=
  ("hsm_".toList ++ name.getD (Nat.repr pid).toList ++ "_q".toList).take 31

namespace HsmProcess

variable (S : σ → HsmState σ υ) (pid : ℕ)

/-- Dispatcher `j` is `t` from now on. -/
def setThread (s : HsmProcess σ υ) (j : ℕ) (t : Dispatcher σ υ) : HsmProcess σ υ :=
  { s with threads := s.threads.set j t }

/-- The handler on top of the stack of dispatcher `j` goes on. -/
def handler (s : HsmProcess σ υ) (j : ℕ) (t : Dispatcher σ υ) : HsmProcess σ υ :=
  let c := stepHandler S ⟨s.hsm.super, s.user, t.stack, []⟩
  { s with hsm := { s.hsm with super := c.hsm }, user := c.user }.setThread j ⟨c.stack, t.pc⟩

/-- `osa_hsm_active_run`, to the next call of the platform. -/
def run (s : HsmProcess σ υ) (j : ℕ) (t : Dispatcher σ υ) : HsmProcess σ υ :=
  match t.pc, t.stack with
  | .fresh, _ => s.setThread j ⟨[⟨(S s.hsm.super.current).handler entryEvent, .init⟩], .entry⟩
  | .entry, [] =>
      { s with
        trace := .called (.queueCreate (queueName s.hsm.name pid) sizeofHsmEvent
          s.hsm.disp.msgQSize) :: s.trace }.setThread j ⟨[], .creating⟩
  | .loop, [] =>
      { s with
        trace := .called (.queueReceive s.hsm.disp.msgQ sizeofHsmEvent (-1)) ::
          s.trace }.setThread j ⟨[], .receiving⟩
  | .entry, _ :: _ | .loop, _ :: _ => s.handler S j t
  | .creating, _ | .receiving, _ | .exited, _ => s

/-- The platform has answered dispatcher `j`. -/
def runAnswer (s : HsmProcess σ υ) (j : ℕ) (t : Dispatcher σ υ) (ret : ℤ) (handle : ℕ)
    (msg : RawEvent) : HsmProcess σ υ :=
  match t.pc with
  | .creating =>
      if ret = 0 then
        { s with
          hsm := { s.hsm with disp := { s.hsm.disp with msgQ := some handle } }
          trace := .queueCreated handle :: s.trace }.setThread j ⟨[], .loop⟩
      else s.setThread j ⟨[], .exited⟩
  | .receiving =>
      if ret = 0 then
        s.setThread j ⟨[⟨(S s.hsm.super.current).handler msg.event, .queue⟩], .loop⟩
      else s.setThread j ⟨[], .loop⟩
  | .fresh | .entry | .loop | .exited => s

/-- The effect of a step; a step whose thread is elsewhere has none. -/
def next (s : HsmProcess σ υ) : HsmStep υ → HsmProcess σ υ
  | .start i stackSize priority msgqSize =>
      if s.calls i = none then s.start i stackSize priority msgqSize else s
  | .spawn i =>
      if s.calls i = some .start then { s with threads := s.threads ++ [⟨[], .fresh⟩] } else s
  | .post i event timeout => if s.calls i = none then s.post i event timeout else s
  | .period i p => if s.calls i = none then s.period i p else s
  | .answer i ret handle => match s.calls i with
      | some c => s.answer i c ret handle
      | none => s
  | .run j => match s.threads[j]? with
      | some t => s.run S pid j t
      | none => s
  | .runAnswer j ret handle msg => match s.threads[j]? with
      | some t => s.runAnswer S j t ret handle msg
      | none => s
  | .world u => { s with user := u }

/-- The memory `m` after `osa_hsm_active_init` and the assignment of the name. -/
def made (m : OsaHsmActive σ) (init : σ) (name : Option (List Char)) (u : υ) :
    HsmProcess σ υ where
  hsm := { m with super := osaHsmActiveInit init, name := name }
  user := u
  threads := []
  calls := fun _ => none
  trace := []

/-- The run with the given schedule. -/
def steps (s : HsmProcess σ υ) (as : List (HsmStep υ)) : HsmProcess σ υ :=
  as.foldl (next S pid) s

end HsmProcess

/-! ### Two contents of the memory -/

variable (S : σ → HsmState σ υ) (pid : ℕ) (init : σ) (name : Option (List Char)) (u : υ)

/-- With the same schedule, both return the same and call the platform in the same way. -/
def SameBehaviour (m₁ m₂ : OsaHsmActive σ) : Prop :=
  ∀ as, ((HsmProcess.made m₁ init name u).steps S pid as).trace =
    ((HsmProcess.made m₂ init name u).steps S pid as).trace

/-- As long as no queue was created, a post returns `-1` and reaches none; as long as no timer
was created, the end of the period stops none. -/
structure StartsClean (m : OsaHsmActive σ) : Prop where
  post : ∀ as, let s := (HsmProcess.made m init name u).steps S pid as
    (∀ q, .queueCreated q ∉ s.trace) → ∀ i e timeout, s.calls i = none →
      (s.next S pid (.post i e timeout)).trace = .returned i (-1) :: s.trace
  period : ∀ as, let s := (HsmProcess.made m init name u).steps S pid as
    (∀ t, .timerCreated t ∉ s.trace) → ∀ i, s.calls i = none →
      (s.next S pid (.period i 0)).trace = .called (.timerStop none) :: s.trace

/-- Two runs agree on all but what is written before it is read: the handle of the thread,
the size of the queue before the first start, and the period that is recorded. -/
structure Twins (s t : HsmProcess σ υ) : Prop where
  super : s.hsm.super = t.hsm.super
  name : s.hsm.name = t.hsm.name
  msgQ : s.hsm.disp.msgQ = t.hsm.disp.msgQ
  timerId : s.hsm.timer.timerId = t.hsm.timer.timerId
  user : s.user = t.user
  threads : s.threads = t.threads
  calls : s.calls = t.calls
  trace : s.trace = t.trace
  size : s.hsm.disp.msgQSize = t.hsm.disp.msgQSize ∨
    s.threads = [] ∧ ∀ i, s.calls i ≠ some .start

variable {S pid init name u}

namespace Twins

variable {s t : HsmProcess σ υ}

lemma call (h : Twins s t) (i : ℕ) {c : HsmCall} (hc : c ≠ .start) (p : PlatformCall) :
    Twins (s.call i c p) (t.call i c p) where
  super := h.super
  name := h.name
  msgQ := h.msgQ
  timerId := h.timerId
  user := h.user
  threads := h.threads
  calls := by simp only [HsmProcess.call, h.calls]
  trace := congrArg (HsmTrace.called p :: ·) h.trace
  size := h.size.imp_right fun ⟨hnil, hnone⟩ => ⟨hnil, fun j => by
    by_cases hj : j = i
    · simp [HsmProcess.call, hj, hc]
    · simpa [HsmProcess.call, hj] using hnone j⟩

lemma ret (h : Twins s t) (i : ℕ) (r : ℤ) : Twins (s.ret i r) (t.ret i r) where
  super := h.super
  name := h.name
  msgQ := h.msgQ
  timerId := h.timerId
  user := h.user
  threads := h.threads
  calls := by simp only [HsmProcess.ret, h.calls]
  trace := congrArg (HsmTrace.returned i r :: ·) h.trace
  size := h.size.imp_right fun ⟨hnil, hnone⟩ => ⟨hnil, fun j => by
    by_cases hj : j = i
    · simp [HsmProcess.ret, hj]
    · simpa [HsmProcess.ret, hj] using hnone j⟩

lemma setThread (h : Twins s t) (j : ℕ) (x : Dispatcher σ υ) :
    Twins (s.setThread j x) (t.setThread j x) where
  super := h.super
  name := h.name
  msgQ := h.msgQ
  timerId := h.timerId
  user := h.user
  threads := congrArg (fun l => l.set j x) h.threads
  calls := h.calls
  trace := h.trace
  size := h.size.imp_right fun ⟨hnil, hnone⟩ => ⟨by simp [HsmProcess.setThread, hnil], hnone⟩

/-- A dispatcher exists, so the size of the queue was written. -/
lemma size_eq (h : Twins s t) {j : ℕ} {x : Dispatcher σ υ} (hj : s.threads[j]? = some x) :
    s.hsm.disp.msgQSize = t.hsm.disp.msgQSize :=
  h.size.resolve_right fun hnone => by simp [hnone.1] at hj

lemma start (h : Twins s t) (i : ℕ) (stackSize priority msgqSize : ℤ) :
    Twins (s.start i stackSize priority msgqSize) (t.start i stackSize priority msgqSize) where
  super := h.super
  name := h.name
  msgQ := h.msgQ
  timerId := h.timerId
  user := h.user
  threads := h.threads
  calls := by simp only [HsmProcess.start, HsmProcess.call, h.calls]
  trace := by simp only [HsmProcess.start, HsmProcess.call, h.name, h.trace]
  size := .inl rfl

lemma post (h : Twins s t) (i : ℕ) (event : Option RawEvent) (timeout : UInt32) :
    Twins (s.post i event timeout) (t.post i event timeout) := by
  cases event with
  | none => exact h.ret i _
  | some e =>
      cases hq : s.hsm.disp.msgQ with
      | none =>
          simp only [HsmProcess.post, ← h.msgQ, hq]
          exact h.ret i _
      | some q =>
          simp only [HsmProcess.post, ← h.msgQ, hq]
          exact h.call i (by simp) _

lemma period (h : Twins s t) (i : ℕ) (p : UInt32) : Twins (s.period i p) (t.period i p) := by
  rw [HsmProcess.period, HsmProcess.period, ← h.timerId]
  split
  · exact h.call i (by simp) _
  · exact h.call i (by simp) _

lemma answer (h : Twins s t) (i : ℕ) (c : HsmCall) (ret : ℤ) (handle : ℕ) :
    Twins (s.answer i c ret handle) (t.answer i c ret handle) := by
  cases c with
  | start =>
      by_cases hret : ret = 0
      · simp only [HsmProcess.answer, if_pos hret]
        refine Twins.ret ?_ i 0
        exact ⟨h.super, h.name, h.msgQ, h.timerId, h.user, h.threads, h.calls, h.trace, h.size⟩
      · simp only [HsmProcess.answer, if_neg hret]
        exact h.ret i _
  | post => exact h.ret i ret
  | period p =>
      by_cases hp : p ≠ 0
      · by_cases hret : ret = 0
        · simp only [HsmProcess.answer, if_pos hp, if_pos hret]
          refine Twins.ret ?_ i ret
          exact ⟨h.super, h.name, h.msgQ, rfl, h.user, h.threads, h.calls,
            congrArg (HsmTrace.timerCreated handle :: ·) h.trace, h.size⟩
        · simp only [HsmProcess.answer, if_pos hp, if_neg hret]
          refine Twins.ret ?_ i ret
          exact ⟨h.super, h.name, h.msgQ, h.timerId, h.user, h.threads, h.calls, h.trace, h.size⟩
      · simp only [HsmProcess.answer, if_neg hp]
        refine Twins.ret ?_ i ret
        exact ⟨h.super, h.name, h.msgQ, h.timerId, h.user, h.threads, h.calls, h.trace, h.size⟩

/-- The handlers read and write members that agree. -/
lemma handler (h : Twins s t) (j : ℕ) (x : Dispatcher σ υ) :
    Twins (s.handler S j x) (t.handler S j x) := by
  rw [HsmProcess.handler, HsmProcess.handler, ← h.super, ← h.user]
  refine Twins.setThread ?_ j _
  exact ⟨rfl, h.name, h.msgQ, h.timerId, rfl, h.threads, h.calls, h.trace, h.size⟩

lemma run (h : Twins s t) {j : ℕ} {x : Dispatcher σ υ} (hj : s.threads[j]? = some x) :
    Twins (s.run S pid j x) (t.run S pid j x) := by
  have hsize := h.size_eq hj
  rw [HsmProcess.run, HsmProcess.run, ← h.super, ← h.name, ← h.msgQ, ← hsize, ← h.trace]
  split
  · exact h.setThread j _
  · refine Twins.setThread ?_ j _
    exact ⟨h.super, h.name, h.msgQ, h.timerId, h.user, h.threads, h.calls, rfl, h.size⟩
  · refine Twins.setThread ?_ j _
    exact ⟨h.super, h.name, h.msgQ, h.timerId, h.user, h.threads, h.calls, rfl, h.size⟩
  · exact h.handler j x
  · exact h.handler j x
  · exact h
  · exact h
  · exact h

lemma runAnswer (h : Twins s t) (j : ℕ) (x : Dispatcher σ υ) (ret : ℤ) (handle : ℕ)
    (msg : RawEvent) :
    Twins (s.runAnswer S j x ret handle msg) (t.runAnswer S j x ret handle msg) := by
  rw [HsmProcess.runAnswer, HsmProcess.runAnswer, ← h.super]
  split
  · split
    · refine Twins.setThread ?_ j _
      exact ⟨h.super, h.name, rfl, h.timerId, h.user, h.threads, h.calls,
        congrArg (HsmTrace.queueCreated handle :: ·) h.trace, h.size⟩
    · exact h.setThread j _
  · split
    · exact h.setThread j _
    · exact h.setThread j _
  all_goals exact h

end Twins

/-- **A step of two runs that agree.** -/
lemma twins_next {s t : HsmProcess σ υ} (h : Twins s t) (a : HsmStep υ) :
    Twins (s.next S pid a) (t.next S pid a) := by
  cases a with
  | world u =>
      exact ⟨h.super, h.name, h.msgQ, h.timerId, rfl, h.threads, h.calls, h.trace, h.size⟩
  | start i stackSize priority msgqSize =>
      rw [HsmProcess.next, HsmProcess.next, ← h.calls]
      split
      · exact h.start i stackSize priority msgqSize
      · exact h
  | spawn i =>
      rw [HsmProcess.next, HsmProcess.next, ← h.calls]
      split
      · next hi =>
          have hsize := h.size.resolve_right fun hnone => hnone.2 i hi
          exact ⟨h.super, h.name, h.msgQ, h.timerId, h.user,
            congrArg (· ++ [⟨[], DispatchPc.fresh⟩]) h.threads, rfl, h.trace, .inl hsize⟩
      · exact h
  | post i event timeout =>
      rw [HsmProcess.next, HsmProcess.next, ← h.calls]
      split
      · exact h.post i event timeout
      · exact h
  | period i p =>
      rw [HsmProcess.next, HsmProcess.next, ← h.calls]
      split
      · exact h.period i p
      · exact h
  | answer i ret handle =>
      rw [HsmProcess.next, HsmProcess.next, ← h.calls]
      split
      · exact h.answer i _ ret handle
      · exact h
  | run j =>
      rw [HsmProcess.next, HsmProcess.next, ← h.threads]
      split
      · next hj => exact h.run hj
      · exact h
  | runAnswer j ret handle msg =>
      rw [HsmProcess.next, HsmProcess.next, ← h.threads]
      split
      · exact h.runAnswer j _ ret handle msg
      · exact h

/-- What two runs agree on stays so. -/
lemma twins_steps (as : List (HsmStep υ)) {s t : HsmProcess σ υ} (h : Twins s t) :
    Twins (s.steps S pid as) (t.steps S pid as) := by
  induction as generalizing s t with
  | nil => exact h
  | cons a as ih => exact ih (twins_next h a)

/-- **Two contents of the memory behave alike exactly when they agree on the two handles.** -/
lemma sameBehaviour_iff (m₁ m₂ : OsaHsmActive σ) :
    SameBehaviour S pid init name u m₁ m₂ ↔
      m₁.disp.msgQ = m₂.disp.msgQ ∧ m₁.timer.timerId = m₂.timer.timerId := by
  constructor
  · intro h
    have hpost := h [.post 0 (some entryEvent.raw) 0]
    have hperiod := h [.period 0 0]
    simp only [HsmProcess.steps, List.foldl_cons, List.foldl_nil, HsmProcess.next,
      HsmProcess.made, if_true] at hpost hperiod
    refine ⟨?_, by simpa [HsmProcess.period, HsmProcess.call] using hperiod⟩
    cases h₁ : m₁.disp.msgQ <;> cases h₂ : m₂.disp.msgQ <;>
      simp_all [HsmProcess.post, HsmProcess.call, HsmProcess.ret]
  · rintro ⟨hq, ht⟩ as
    have hmade : Twins (.made m₁ init name u) (.made m₂ init name u : HsmProcess σ υ) :=
      ⟨rfl, rfl, hq, ht, rfl, rfl, rfl, rfl, .inr ⟨rfl, fun _ h => by cases h⟩⟩
    exact (twins_steps as hmade).trace

/-! ### Handles that were never written -/

/-- From `s` to `t` the two handles are as they were, or a queue or a timer was created. -/
structure KeepsHandles (s t : HsmProcess σ υ) : Prop where
  trace : s.trace <:+ t.trace
  msgQ : t.hsm.disp.msgQ = s.hsm.disp.msgQ ∨ ∃ q, .queueCreated q ∈ t.trace
  timerId : t.hsm.timer.timerId = s.hsm.timer.timerId ∨ ∃ x, .timerCreated x ∈ t.trace

namespace KeepsHandles

variable {s t r : HsmProcess σ υ}

lemma refl : KeepsHandles s s := ⟨List.suffix_refl _, .inl rfl, .inl rfl⟩

lemma trans (h : KeepsHandles s t) (h' : KeepsHandles t r) : KeepsHandles s r := by
  refine ⟨h.trace.trans h'.trace, ?_, ?_⟩
  · rcases h'.msgQ with hq | hq
    · rcases h.msgQ with hq' | ⟨q, hmem⟩
      · exact .inl (hq.trans hq')
      · exact .inr ⟨q, h'.trace.subset hmem⟩
    · exact .inr hq
  · rcases h'.timerId with ht | ht
    · rcases h.timerId with ht' | ⟨x, hmem⟩
      · exact .inl (ht.trans ht')
      · exact .inr ⟨x, h'.trace.subset hmem⟩
    · exact .inr ht

/-- Both members are left alone. -/
lemma of_eq (htrace : s.trace <:+ t.trace) (hq : t.hsm.disp.msgQ = s.hsm.disp.msgQ)
    (ht : t.hsm.timer.timerId = s.hsm.timer.timerId) : KeepsHandles s t :=
  ⟨htrace, .inl hq, .inl ht⟩

lemma call (i : ℕ) (c : HsmCall) (p : PlatformCall) : KeepsHandles s (s.call i c p) :=
  of_eq (List.suffix_cons _ _) rfl rfl

lemma ret (i : ℕ) (x : ℤ) : KeepsHandles s (s.ret i x) := of_eq (List.suffix_cons _ _) rfl rfl

lemma setThread (j : ℕ) (x : Dispatcher σ υ) : KeepsHandles s (s.setThread j x) :=
  of_eq (List.suffix_refl _) rfl rfl

end KeepsHandles

lemma post_keepsHandles (s : HsmProcess σ υ) (i : ℕ) (event : Option RawEvent)
    (timeout : UInt32) : KeepsHandles s (s.post i event timeout) := by
  cases event with
  | none => exact .ret i _
  | some e =>
      cases hq : s.hsm.disp.msgQ with
      | none =>
          simp only [HsmProcess.post, hq]
          exact .ret i _
      | some q =>
          simp only [HsmProcess.post, hq]
          exact .call i _ _

lemma period_keepsHandles (s : HsmProcess σ υ) (i : ℕ) (p : UInt32) :
    KeepsHandles s (s.period i p) := by
  rw [HsmProcess.period]
  split <;> exact .call i _ _

lemma answer_keepsHandles (s : HsmProcess σ υ) (i : ℕ) (c : HsmCall) (ret : ℤ) (handle : ℕ) :
    KeepsHandles s (s.answer i c ret handle) := by
  cases c with
  | start =>
      rw [HsmProcess.answer]
      split <;> exact .of_eq (List.suffix_cons _ _) rfl rfl
  | post => exact .ret i ret
  | period p =>
      rw [HsmProcess.answer]
      split
      · split
        · -- the handle of the timer that was created
          refine ⟨(List.suffix_cons _ _).trans (List.suffix_cons _ _), .inl rfl,
            .inr ⟨handle, ?_⟩⟩
          simp [HsmProcess.ret]
        · exact .of_eq (List.suffix_cons _ _) rfl rfl
      · exact .of_eq (List.suffix_cons _ _) rfl rfl

lemma run_keepsHandles (s : HsmProcess σ υ) (j : ℕ) (x : Dispatcher σ υ) :
    KeepsHandles s (s.run S pid j x) := by
  rw [HsmProcess.run]
  split
  · exact .setThread j _
  · exact .of_eq (List.suffix_cons _ _) rfl rfl
  · exact .of_eq (List.suffix_cons _ _) rfl rfl
  · exact .of_eq (List.suffix_refl _) rfl rfl
  · exact .of_eq (List.suffix_refl _) rfl rfl
  all_goals exact .refl

lemma runAnswer_keepsHandles (s : HsmProcess σ υ) (j : ℕ) (x : Dispatcher σ υ) (ret : ℤ)
    (handle : ℕ) (msg : RawEvent) : KeepsHandles s (s.runAnswer S j x ret handle msg) := by
  rw [HsmProcess.runAnswer]
  split
  · split
    · -- the handle of the queue that was created
      exact ⟨List.suffix_cons _ _, .inr ⟨handle, by simp [HsmProcess.setThread]⟩, .inl rfl⟩
    · exact .setThread j _
  · split
    · exact .setThread j _
    · exact .setThread j _
  all_goals exact .refl

lemma next_keepsHandles (s : HsmProcess σ υ) (a : HsmStep υ) :
    KeepsHandles s (s.next S pid a) := by
  cases a with
  | world u => exact .of_eq (List.suffix_refl _) rfl rfl
  | start i stackSize priority msgqSize =>
      rw [HsmProcess.next]
      split
      · exact .of_eq (List.suffix_cons _ _) rfl rfl
      · exact .refl
  | spawn i =>
      rw [HsmProcess.next]
      split
      · exact .of_eq (List.suffix_refl _) rfl rfl
      · exact .refl
  | post i event timeout =>
      rw [HsmProcess.next]
      split
      · exact post_keepsHandles s i event timeout
      · exact .refl
  | period i p =>
      rw [HsmProcess.next]
      split
      · exact period_keepsHandles s i p
      · exact .refl
  | answer i ret handle =>
      rw [HsmProcess.next]
      split
      · exact answer_keepsHandles s i _ ret handle
      · exact .refl
  | run j =>
      rw [HsmProcess.next]
      split
      · exact run_keepsHandles s j _
      · exact .refl
  | runAnswer j ret handle msg =>
      rw [HsmProcess.next]
      split
      · exact runAnswer_keepsHandles s j _ ret handle msg
      · exact .refl

lemma steps_keepsHandles (as : List (HsmStep υ)) (s : HsmProcess σ υ) :
    KeepsHandles s (s.steps S pid as) := by
  induction as generalizing s with
  | nil => exact .refl
  | cons a as ih => exact (next_keepsHandles s a).trans (ih _)

/-- Nothing is reached by a handle that is `NULL`. -/
lemma startsClean_iff (m : OsaHsmActive σ) :
    StartsClean S pid init name u m ↔ m.disp.msgQ = none ∧ m.timer.timerId = none := by
  constructor
  · intro h
    have hpost := h.post [] (by simp [HsmProcess.steps, HsmProcess.made]) 0 (some entryEvent.raw)
      0 rfl
    have hperiod := h.period [] (by simp [HsmProcess.steps, HsmProcess.made]) 0 rfl
    simp only [HsmProcess.steps, List.foldl_nil, HsmProcess.next, HsmProcess.made, if_true]
      at hpost hperiod
    refine ⟨?_, by simpa [HsmProcess.period, HsmProcess.call] using hperiod⟩
    cases hq : m.disp.msgQ with
    | none => rfl
    | some q => simp [HsmProcess.post, hq, HsmProcess.call] at hpost
  · rintro ⟨hq, ht⟩
    have hkeep : ∀ as, KeepsHandles (.made m init name u)
        ((HsmProcess.made m init name u).steps S pid as) := fun as => steps_keepsHandles as _
    refine ⟨fun as hnone i e timeout hi => ?_, fun as hnone i hi => ?_⟩
    · rcases (hkeep as).msgQ with hmsgQ | ⟨q, hmem⟩
      · have hmsgQ' := hmsgQ.trans hq
        rw [HsmProcess.next, if_pos hi]
        cases e <;> simp only [HsmProcess.post, hmsgQ'] <;> rfl
      · exact absurd hmem (hnone q)
    · rcases (hkeep as).timerId with htimer | ⟨x, hmem⟩
      · have htimer' := htimer.trans ht
        rw [HsmProcess.next, if_pos hi]
        simp [HsmProcess.period, HsmProcess.call, htimer']
      · exact absurd hmem (hnone x)

/-- **What a machine does depends on the memory it is made in**, and does not exactly when the
members that `osa_hsm_active_init` leaves alone, and that are read before they are written,
were `NULL`: the handle of the queue and the handle of the timer. -/
theorem memory_irrelevant_iff (S : σ → HsmState σ υ) (pid : ℕ) (init : σ)
    (name : Option (List Char)) (u : υ) (m₁ m₂ : OsaHsmActive σ) :
    (SameBehaviour S pid init name u m₁ m₂ ∧ StartsClean S pid init name u m₁ ∧
      StartsClean S pid init name u m₂) ↔
    (m₁.disp.msgQ = none ∧ m₁.timer.timerId = none) ∧
      m₂.disp.msgQ = none ∧ m₂.timer.timerId = none := by
  rw [sameBehaviour_iff, startsClean_iff, startsClean_iff]
  constructor
  · rintro ⟨-, h₁, h₂⟩
    exact ⟨h₁, h₂⟩
  · rintro ⟨⟨hq₁, ht₁⟩, hq₂, ht₂⟩
    exact ⟨⟨hq₁.trans hq₂.symm, ht₁.trans ht₂.symm⟩, ⟨hq₁, ht₁⟩, hq₂, ht₂⟩

/-! ### A machine on the stack -/

/-- The memory of a machine with the given handles in it. -/
def memory (msgQ timerId : Option ℕ) : OsaHsmActive Bool :=
  ⟨⟨0, false, false⟩, none, ⟨none, msgQ, 0⟩, ⟨timerId, 0⟩⟩

/-- The machine is started, and a thread posts before the dispatcher has run. -/
def startAndPost : List (HsmStep Unit) :=
  [.start 0 4096 50 10, .spawn 0, .answer 0 0 7,
    .post 0 (some (HsmEvent.raw ⟨hsmUserSig, none, 0⟩)) 0]

/-- **A post to whatever the memory held.**  In zeroed memory the post right after the start
returns `-1`; in memory that is not, it hands the event to the queue at the address it finds,
and the end of a period that was never set stops the timer it finds. -/
theorem stray_post :
    ((HsmProcess.made (memory none none) false none ()).steps switchHsm 1 startAndPost).trace =
        [.returned 0 (-1), .returned 0 0, .called (.threadCreate none 4096 50)] ∧
      ((HsmProcess.made (memory (some 64) (some 72)) false none ()).steps switchHsm 1
          startAndPost).trace =
        [.called (.queueSend 64 (HsmEvent.raw ⟨hsmUserSig, none, 0⟩) sizeofHsmEvent 0),
          .returned 0 0, .called (.threadCreate none 4096 50)] ∧
      ((HsmProcess.made (memory (some 64) (some 72)) false none ()).steps switchHsm 1
          [.period 0 0]).trace = [.called (.timerStop (some 72))] ∧
      ¬ SameBehaviour switchHsm 1 false none () (memory none none)
        (memory (some 64) (some 72)) ∧
      ¬ StartsClean switchHsm 1 false none () (memory (some 64) (some 72)) := by
  refine ⟨by decide, by decide, by decide, fun h => ?_, fun h => ?_⟩
  · exact absurd ((sameBehaviour_iff _ _).mp h).1 (by decide)
  · exact absurd ((startsClean_iff _).mp h).1 (by decide)

end OpenHsm
