import OpenHsm.Library.Ring
import OpenHsm.Library.Runs
import OpenHsm.Platform.Sync

/-!
The message queue of `platform/linux/osa_queue.c` and any number of threads that use it.

* `OsaQueue`: `struct osa_queue_impl`, a ring of `max_msgs` cells of `msg_size` bytes in one
  flat buffer.  The indices are C `int`s and `%` is their remainder.
* `sendEnter`, `sendResume`, `receiveEnter`, `receiveResume`: the segments of the two
  calls from a lock to the next unlock or condition wait; `none` is the wait.  The lemmas
  `sendEnter_cases` to `receiveEnter_cases` say all that each can do.
* `Place`, `CallPc`, `QueueAct`, `queueSystem`: the threads.  A thread in a condition wait
  is blocked, or unblocked and about to take the mutex and look again, or its wait has
  ended with `ETIMEDOUT` and it is about to leave.
* `Signals`: what POSIX promises of `pthread_cond_signal`: if a thread is blocked, at least
  one is unblocked.  Unblocking without a signal is the step `wakeUp`, and a timed wait may
  end with `ETIMEDOUT` after its thread was unblocked.
* `content`: the ghost list of the messages sent and not yet received.
-/

namespace OpenHsm

open Ring Runs

/-- `OSA_QUEUE_NAME_LEN`. -/
def osaQueueNameLen : ℕ := 32

/-- `struct osa_queue_impl`; the mutex and the conditions are in `queueSystem`. -/
structure OsaQueue where
  name : List UInt8
  msgSize : ℕ
  maxMsgs : ℤ
  buffer : List UInt8
  head : ℤ
  tail : ℤ
  count : ℤ
  closed : Bool
  deriving DecidableEq, Repr

/-! ### The code -/

/-- The fields as `osa_queue_create` sets them. -/
def newQueue (name : List UInt8) (msgSize : ℕ) (maxMsgs : ℤ) : OsaQueue where
  name := name.take (osaQueueNameLen - 1)
  msgSize := msgSize
  maxMsgs := maxMsgs
  buffer := List.replicate (maxMsgs.toNat * msgSize) 0
  head := 0
  tail := 0
  count := 0
  closed := false

/-- `osa_queue_create` with a place for the handle; `structOk` and `bufferOk` say whether
the two allocations succeed. -/
def osaQueueCreate (name : Option (List UInt8)) (msgSize : ℕ) (maxMsgs : ℤ)
    (structOk bufferOk : Bool) : Except ℤ OsaQueue :=
  match name with
  | none => .error (-eINVAL)
  | some name =>
      if msgSize = 0 ∨ maxMsgs ≤ 0 then .error (-eINVAL)
      else if structOk = false then .error (-eNOMEM)
      else if bufferOk = false then .error (-eNOMEM)
      else .ok (newQueue name msgSize maxMsgs)

/-- The message is copied to the cell at `tail`. -/
def writeMessage (q : OsaQueue) (msg : List UInt8) : OsaQueue :=
  { q with
    buffer := store q.buffer (q.tail.toNat * q.msgSize) (msg.take q.msgSize)
    tail := (q.tail + 1).tmod q.maxMsgs
    count := q.count + 1 }

/-- The last part of `osa_queue_send`: the checks after the wait, and the write. -/
def sendFinish (q : OsaQueue) (msg : List UInt8) : ℤ × OsaQueue :=
  if q.closed then (-ePIPE, q)
  else if q.maxMsgs ≤ q.count then (-eAGAIN, q)
  else (0, writeMessage q msg)

/-- The loop of `osa_queue_send` is entered again after a wake-up. -/
def sendResume (q : OsaQueue) (msg : List UInt8) : Option (ℤ × OsaQueue) :=
  if q.maxMsgs ≤ q.count ∧ q.closed = false then none else some (sendFinish q msg)

/-- `osa_queue_send`, to its return or its first wait. -/
def sendEnter (q : OsaQueue) (msg : Option (List UInt8)) (msgLen : ℕ) (timeoutMs : ℤ) :
    Option (ℤ × OsaQueue) :=
  match msg with
  | none => some (-eINVAL, q)
  | some msg =>
      if msgLen ≠ q.msgSize then some (-eINVAL, q)
      else if q.closed then some (-ePIPE, q)
      else if q.maxMsgs ≤ q.count then
        if timeoutMs = 0 then some (-eAGAIN, q) else sendResume q msg
      else some (sendFinish q msg)

/-- The message in the cell at `head`. -/
def frontMessage (q : OsaQueue) : List UInt8 := cell q.msgSize q.buffer q.head.toNat

/-- The cell at `head` is given back. -/
def dropMessage (q : OsaQueue) : OsaQueue :=
  { q with
    head := (q.head + 1).tmod q.maxMsgs
    count := q.count - 1 }

/-- The last part of `osa_queue_receive`, with the bytes it copies to `msg`. -/
def receiveFinish (q : OsaQueue) : ℤ × List UInt8 × OsaQueue :=
  if q.closed = true ∧ q.count = 0 then (-ePIPE, [], q)
  else if q.count = 0 then (-eAGAIN, [], q)
  else (0, frontMessage q, dropMessage q)

/-- The loop of `osa_queue_receive` is entered again after a wake-up. -/
def receiveResume (q : OsaQueue) : Option (ℤ × List UInt8 × OsaQueue) :=
  if q.count = 0 ∧ q.closed = false then none else some (receiveFinish q)

/-- `osa_queue_receive`, to its return or its first wait; `haveMsg` says that there is a
place for the message. -/
def receiveEnter (q : OsaQueue) (haveMsg : Bool) (msgLen : ℕ) (timeoutMs : ℤ) :
    Option (ℤ × List UInt8 × OsaQueue) :=
  if haveMsg = false then some (-eINVAL, [], q)
  else if msgLen ≠ q.msgSize then some (-eINVAL, [], q)
  else if q.closed = true ∧ q.count = 0 then some (-ePIPE, [], q)
  else if q.count = 0 then
    if timeoutMs = 0 then some (-eAGAIN, [], q) else receiveResume q
  else some (receiveFinish q)

/-- `osa_queue_count`. -/
def osaQueueCount : Option OsaQueue → ℤ
  | none => -eINVAL
  | some q => q.count

/-- `osa_queue_is_full`. -/
def osaQueueIsFull : Option OsaQueue → Bool
  | none => false
  | some q => decide (q.maxMsgs ≤ q.count)

/-- `osa_queue_is_empty`. -/
def osaQueueIsEmpty : Option OsaQueue → Bool
  | none => true
  | some q => decide (q.count = 0)

/-! ### What the segments can do -/

/-- A queue is created from arguments that it can be created from. -/
lemma osaQueueCreate_ok {name : Option (List UInt8)} {msgSize : ℕ} {maxMsgs : ℤ}
    {structOk bufferOk : Bool} {q : OsaQueue}
    (h : osaQueueCreate name msgSize maxMsgs structOk bufferOk = .ok q) :
    0 < msgSize ∧ 0 < maxMsgs ∧ ∃ name, q = newQueue name msgSize maxMsgs := by
  cases name with
  | none => cases h
  | some name =>
      simp only [osaQueueCreate] at h
      split at h
      · cases h
      split at h
      · cases h
      split at h
      · cases h
      next hbad _ _ =>
        rw [not_or, not_le] at hbad
        cases h
        exact ⟨Nat.pos_of_ne_zero hbad.1, hbad.2, name, rfl⟩

/-- A send that looks again waits in a full queue, fails in a closed one, or writes. -/
lemma sendResume_cases (q : OsaQueue) (msg : List UInt8) :
    (q.closed = false ∧ q.maxMsgs ≤ q.count ∧ sendResume q msg = none) ∨
      (q.closed = true ∧ sendResume q msg = some (-ePIPE, q)) ∨
      (q.closed = false ∧ q.count < q.maxMsgs ∧
        sendResume q msg = some (0, writeMessage q msg)) := by
  cases hclosed : q.closed with
  | true => exact Or.inr (Or.inl ⟨rfl, by simp [sendResume, sendFinish, hclosed]⟩)
  | false =>
      by_cases hfull : q.maxMsgs ≤ q.count
      · exact Or.inl ⟨rfl, hfull, by rw [sendResume, if_pos ⟨hfull, hclosed⟩]⟩
      · exact Or.inr (Or.inr ⟨rfl, not_le.mp hfull, by
          simp [sendResume, sendFinish, hclosed, hfull]⟩)

/-- A send fails and leaves the queue, or it comes with a message of the right length and
waits in a full queue or writes. -/
lemma sendEnter_cases (q : OsaQueue) (msg : Option (List UInt8)) (msgLen : ℕ) (timeoutMs : ℤ) :
    (∃ ret, ret ≠ 0 ∧ sendEnter q msg msgLen timeoutMs = some (ret, q)) ∨
      ∃ m, msg = some m ∧ msgLen = q.msgSize ∧ q.closed = false ∧
        ((q.maxMsgs ≤ q.count ∧ sendEnter q msg msgLen timeoutMs = none) ∨
          (q.count < q.maxMsgs ∧
            sendEnter q msg msgLen timeoutMs = some (0, writeMessage q m))) := by
  cases msg with
  | none => exact Or.inl ⟨-eINVAL, by simp [eINVAL], rfl⟩
  | some m =>
      by_cases hlen : msgLen = q.msgSize
      swap
      · exact Or.inl ⟨-eINVAL, by simp [eINVAL], by simp [sendEnter, hlen]⟩
      cases hclosed : q.closed with
      | true => exact Or.inl ⟨-ePIPE, by simp [ePIPE], by simp [sendEnter, hlen, hclosed]⟩
      | false =>
          by_cases hfull : q.maxMsgs ≤ q.count
          · by_cases ht : timeoutMs = 0
            · exact Or.inl ⟨-eAGAIN, by simp [eAGAIN], by
                simp [sendEnter, hlen, hclosed, hfull, ht]⟩
            · exact Or.inr ⟨m, rfl, hlen, rfl, Or.inl ⟨hfull, by
                simp [sendEnter, sendResume, hlen, hclosed, hfull, ht]⟩⟩
          · exact Or.inr ⟨m, rfl, hlen, rfl, Or.inr ⟨not_le.mp hfull, by
              simp [sendEnter, sendFinish, hlen, hclosed, hfull]⟩⟩

/-- A receive that looks again waits in an empty queue, fails if it is closed too, or takes
the message at `head`. -/
lemma receiveResume_cases (q : OsaQueue) :
    (q.closed = false ∧ q.count = 0 ∧ receiveResume q = none) ∨
      (q.closed = true ∧ q.count = 0 ∧ receiveResume q = some (-ePIPE, [], q)) ∨
      (q.count ≠ 0 ∧ receiveResume q = some (0, frontMessage q, dropMessage q)) := by
  by_cases hempty : q.count = 0
  · cases hclosed : q.closed with
    | true => exact Or.inr (Or.inl ⟨rfl, hempty, by
        simp [receiveResume, receiveFinish, hempty, hclosed]⟩)
    | false => exact Or.inl ⟨rfl, hempty, by rw [receiveResume, if_pos ⟨hempty, hclosed⟩]⟩
  · exact Or.inr (Or.inr ⟨hempty, by simp [receiveResume, receiveFinish, hempty]⟩)

/-- A receive fails and leaves the queue, waits in an empty queue, or takes the message at
`head`. -/
lemma receiveEnter_cases (q : OsaQueue) (haveMsg : Bool) (msgLen : ℕ) (timeoutMs : ℤ) :
    (∃ ret, ret ≠ 0 ∧ receiveEnter q haveMsg msgLen timeoutMs = some (ret, [], q)) ∨
      (q.closed = false ∧ q.count = 0 ∧ receiveEnter q haveMsg msgLen timeoutMs = none) ∨
      (q.count ≠ 0 ∧ receiveEnter q haveMsg msgLen timeoutMs
        = some (0, frontMessage q, dropMessage q)) := by
  cases haveMsg with
  | false => exact Or.inl ⟨-eINVAL, by simp [eINVAL], rfl⟩
  | true =>
      by_cases hlen : msgLen = q.msgSize
      swap
      · exact Or.inl ⟨-eINVAL, by simp [eINVAL], by simp [receiveEnter, hlen]⟩
      by_cases hempty : q.count = 0
      swap
      · exact Or.inr (Or.inr ⟨hempty, by simp [receiveEnter, receiveFinish, hlen, hempty]⟩)
      cases hclosed : q.closed with
      | true => exact Or.inl ⟨-ePIPE, by simp [ePIPE], by
          simp [receiveEnter, hlen, hempty, hclosed]⟩
      | false =>
          by_cases ht : timeoutMs = 0
          · exact Or.inl ⟨-eAGAIN, by simp [eAGAIN], by
              simp [receiveEnter, hlen, hempty, hclosed, ht]⟩
          · exact Or.inr (Or.inl ⟨rfl, hempty, by
              simp [receiveEnter, receiveResume, hlen, hempty, hclosed, ht]⟩)

/-! ### The threads -/

/-- Where a thread is in a condition wait. -/
inductive Place where
  | blocked
  /-- Unblocked, about to take the mutex and look again. -/
  | woken
  /-- The wait has ended with `ETIMEDOUT`; the mutex is still to be taken. -/
  | expired
  deriving DecidableEq, Repr

/-- What a thread is doing with the queue. -/
inductive CallPc where
  | idle
  | sending (msg : List UInt8) (timeoutMs : ℤ) (p : Place)
  | receiving (timeoutMs : ℤ) (p : Place)
  deriving DecidableEq, Repr

/-- The two conditions of the queue. -/
inductive Cond where
  | condSend | condRecv
  deriving DecidableEq, Repr

/-- The condition a thread waits on, where it is in the wait, and the timeout. -/
def CallPc.wait : CallPc → Option (Cond × Place × ℤ)
  | .idle => none
  | .sending _ t p => some (.condSend, p, t)
  | .receiving t p => some (.condRecv, p, t)

/-- The thread moved to another place in its wait. -/
def CallPc.moveTo (p : Place) : CallPc → CallPc
  | .idle => .idle
  | .sending msg t _ => .sending msg t p
  | .receiving t _ => .receiving t p

/-- The thread is at the place `p` of a wait on `c`. -/
def CallPc.At (c : Cond) (p : Place) (x : CallPc) : Prop := ∃ t, x.wait = some (c, p, t)

/-- What the threads have been told, newest first. -/
inductive QueueEvent (k : ℕ) where
  /-- A send of `msg` returned `0`. -/
  | sent (i : Fin k) (msg : List UInt8)
  /-- A receive returned `0` with `msg`. -/
  | received (i : Fin k) (msg : List UInt8)
  /-- A call returned the error `ret`. -/
  | failed (i : Fin k) (ret : ℤ)
  deriving DecidableEq, Repr

/-- The state of the queue and its threads. -/
structure QueueSys (k : ℕ) where
  queue : OsaQueue
  pc : Fin k → CallPc
  log : List (QueueEvent k)

variable {k : ℕ}

/-- One step of one thread; `wake` are the threads that the signal of a successful call
unblocks. -/
inductive QueueAct (k : ℕ) where
  | send (i : Fin k) (msg : Option (List UInt8)) (msgLen : ℕ) (timeoutMs : ℤ)
      (wake : Finset (Fin k))
  | receive (i : Fin k) (haveMsg : Bool) (msgLen : ℕ) (timeoutMs : ℤ) (wake : Finset (Fin k))
  /-- An unblocked thread takes the mutex and looks again. -/
  | resume (i : Fin k) (wake : Finset (Fin k))
  /-- A thread is unblocked without a signal. -/
  | wakeUp (i : Fin k)
  /-- A timed wait ends with `ETIMEDOUT`. -/
  | expire (i : Fin k)
  /-- The thread whose wait has ended so returns. -/
  | leave (i : Fin k)
  deriving DecidableEq

instance (c : Cond) (p : Place) (x : CallPc) : Decidable (x.At c p) :=
  decidable_of_iff (x.wait.map (fun w => (w.1, w.2.1)) = some (c, p)) (by
    cases x <;> simp [CallPc.At, CallPc.wait])

/-- What a signal of `c` may do: it unblocks blocked threads, at least one if there is one. -/
def Signals (pc : Fin k → CallPc) (c : Cond) (wake : Finset (Fin k)) : Prop :=
  (∀ i ∈ wake, (pc i).At c .blocked) ∧ ((∃ i, (pc i).At c .blocked) → wake.Nonempty)

instance (pc : Fin k → CallPc) (c : Cond) (wake : Finset (Fin k)) :
    Decidable (Signals pc c wake) := inferInstanceAs (Decidable (_ ∧ (_ → _)))

/-- The threads after a signal. -/
def unblock (pc : Fin k → CallPc) (wake : Finset (Fin k)) (i : Fin k) : CallPc :=
  if i ∈ wake then (pc i).moveTo .woken else pc i

/-- A call that returned `ret` has signalled `c` if it succeeded. -/
def SignalsIf (pc : Fin k → CallPc) (c : Cond) (wake : Finset (Fin k)) : Option ℤ → Prop
  | some ret => if ret = 0 then Signals pc c wake else wake = ∅
  | none => wake = ∅

instance (pc : Fin k → CallPc) (c : Cond) (wake : Finset (Fin k)) (r : Option ℤ) :
    Decidable (SignalsIf pc c wake r) :=
  match r with
  | none => inferInstanceAs (Decidable (wake = ∅))
  | some ret => inferInstanceAs (Decidable (if ret = 0 then Signals pc c wake else wake = ∅))

/-- When a step can be taken.  The message of a send has the length its caller says. -/
def queueEnabled (s : QueueSys k) : QueueAct k → Prop
  | .send i msg msgLen timeoutMs wake =>
      s.pc i = .idle ∧ (∀ m ∈ msg, m.length = msgLen) ∧
        SignalsIf s.pc .condRecv wake ((sendEnter s.queue msg msgLen timeoutMs).map Prod.fst)
  | .receive i haveMsg msgLen timeoutMs wake =>
      s.pc i = .idle ∧
        SignalsIf s.pc .condSend wake
          ((receiveEnter s.queue haveMsg msgLen timeoutMs).map Prod.fst)
  | .resume i wake => match s.pc i with
      | .sending msg _ .woken =>
          SignalsIf s.pc .condRecv wake ((sendResume s.queue msg).map Prod.fst)
      | .receiving _ .woken =>
          SignalsIf s.pc .condSend wake ((receiveResume s.queue).map Prod.fst)
      | _ => False
  | .wakeUp i => match (s.pc i).wait with
      | some (_, .blocked, _) => True
      | _ => False
  | .expire i => match (s.pc i).wait with
      | some (_, .blocked, t) | some (_, .woken, t) => 0 < t
      | _ => False
  | .leave i => match (s.pc i).wait with
      | some (_, .expired, _) => True
      | _ => False

instance (s : QueueSys k) (a : QueueAct k) : Decidable (queueEnabled s a) := by
  cases a <;> simp only [queueEnabled] <;> first
    | infer_instance
    | (split <;> infer_instance)

/-- A thread that looks again was unblocked. -/
lemma woken_of_resume {s : QueueSys k} {i : Fin k} {wake : Finset (Fin k)}
    (ha : queueEnabled s (.resume i wake)) :
    (∀ msg t p, s.pc i = .sending msg t p → p = .woken) ∧
      ∀ t p, s.pc i = .receiving t p → p = .woken := by
  constructor
  · intro msg t p hi
    cases p <;> simp [queueEnabled, hi] at ha ⊢
  · intro t p hi
    cases p <;> simp [queueEnabled, hi] at ha ⊢

/-- The effect of a segment of `osa_queue_send` of thread `i`. -/
def afterSend (s : QueueSys k) (i : Fin k) (msg : List UInt8) (timeoutMs : ℤ)
    (wake : Finset (Fin k)) : Option (ℤ × OsaQueue) → QueueSys k
  | none => { s with pc := Function.update s.pc i (.sending msg timeoutMs .blocked) }
  | some (ret, q) =>
      { s with
        queue := q
        pc := Function.update (unblock s.pc wake) i .idle
        log := (if ret = 0 then .sent i msg else .failed i ret) :: s.log }

/-- The effect of a segment of `osa_queue_receive` of thread `i`. -/
def afterReceive (s : QueueSys k) (i : Fin k) (timeoutMs : ℤ) (wake : Finset (Fin k)) :
    Option (ℤ × List UInt8 × OsaQueue) → QueueSys k
  | none => { s with pc := Function.update s.pc i (.receiving timeoutMs .blocked) }
  | some (ret, msg, q) =>
      { s with
        queue := q
        pc := Function.update (unblock s.pc wake) i .idle
        log := (if ret = 0 then .received i msg else .failed i ret) :: s.log }

/-- The effect of a step. -/
def queueNext (s : QueueSys k) : QueueAct k → QueueSys k
  | .send i msg msgLen timeoutMs wake =>
      afterSend s i (msg.getD []) timeoutMs wake (sendEnter s.queue msg msgLen timeoutMs)
  | .receive i haveMsg msgLen timeoutMs wake =>
      afterReceive s i timeoutMs wake (receiveEnter s.queue haveMsg msgLen timeoutMs)
  | .resume i wake => match s.pc i with
      | .sending msg t _ => afterSend s i msg t wake (sendResume s.queue msg)
      | .receiving t _ => afterReceive s i t wake (receiveResume s.queue)
      | .idle => s
  | .wakeUp i => { s with pc := Function.update s.pc i ((s.pc i).moveTo .woken) }
  | .expire i => { s with pc := Function.update s.pc i ((s.pc i).moveTo .expired) }
  | .leave i =>
      { s with pc := Function.update s.pc i .idle, log := .failed i (-eTIMEDOUT) :: s.log }

/-- The queue after a step: as it was, or with one message more or less. -/
lemma queueNext_queue (s : QueueSys k) (a : QueueAct k) :
    (queueNext s a).queue = s.queue ∨ (∃ msg, (queueNext s a).queue = writeMessage s.queue msg) ∨
      (queueNext s a).queue = dropMessage s.queue := by
  cases a with
  | send i msg msgLen tm wake =>
      rcases sendEnter_cases s.queue msg msgLen tm with
        ⟨ret, -, hr⟩ | ⟨m, -, -, -, ⟨-, hr⟩ | ⟨-, hr⟩⟩
      · exact .inl (by simp only [queueNext, afterSend, hr])
      · exact .inl (by simp only [queueNext, afterSend, hr])
      · exact .inr (.inl ⟨m, by simp only [queueNext, afterSend, hr]⟩)
  | receive i haveMsg msgLen tm wake =>
      rcases receiveEnter_cases s.queue haveMsg msgLen tm with
        ⟨ret, -, hr⟩ | ⟨-, -, hr⟩ | ⟨-, hr⟩
      · exact .inl (by simp only [queueNext, afterReceive, hr])
      · exact .inl (by simp only [queueNext, afterReceive, hr])
      · exact .inr (.inr (by simp only [queueNext, afterReceive, hr]))
  | resume i wake =>
      cases hi : s.pc i with
      | idle => exact .inl (by simp only [queueNext, hi])
      | sending msg t p =>
          rcases sendResume_cases s.queue msg with ⟨-, -, hr⟩ | ⟨-, hr⟩ | ⟨-, -, hr⟩
          · exact .inl (by simp only [queueNext, hi, afterSend, hr])
          · exact .inl (by simp only [queueNext, hi, afterSend, hr])
          · exact .inr (.inl ⟨msg, by simp only [queueNext, hi, afterSend, hr]⟩)
      | receiving t p =>
          rcases receiveResume_cases s.queue with ⟨-, -, hr⟩ | ⟨-, -, hr⟩ | ⟨-, hr⟩
          · exact .inl (by simp only [queueNext, hi, afterReceive, hr])
          · exact .inl (by simp only [queueNext, hi, afterReceive, hr])
          · exact .inr (.inr (by simp only [queueNext, hi, afterReceive, hr]))
  | wakeUp i => exact .inl rfl
  | expire i => exact .inl rfl
  | leave i => exact .inl rfl

/-- Right after a successful `osa_queue_create`. -/
def QueueInitial (s : QueueSys k) : Prop :=
  (∃ name msgSize maxMsgs, osaQueueCreate (some name) msgSize maxMsgs true true = .ok s.queue) ∧
    s.pc = (fun _ => .idle) ∧ s.log = []

/-- A new queue, with `k` threads. -/
def queueStart (k msgSize : ℕ) (maxMsgs : ℤ) : QueueSys k where
  queue := newQueue [] msgSize maxMsgs
  pc := fun _ => .idle
  log := []

lemma queueStart_initial {msgSize : ℕ} {maxMsgs : ℤ} (hsize : 0 < msgSize) (hmax : 0 < maxMsgs) :
    QueueInitial (queueStart k msgSize maxMsgs) := by
  refine ⟨⟨[], msgSize, maxMsgs, ?_⟩, rfl, rfl⟩
  have hbad : ¬ (msgSize = 0 ∨ maxMsgs ≤ 0) := by omega
  simp [osaQueueCreate, hbad, queueStart]

/-- The queue and its threads. -/
def queueSystem (k : ℕ) : System (QueueSys k) (QueueAct k) where
  init := QueueInitial
  enabled := queueEnabled
  next := queueNext

instance (s : QueueSys k) (a : QueueAct k) : Decidable ((queueSystem k).enabled s a) :=
  inferInstanceAs (Decidable (queueEnabled s a))

/-- The messages whose send returned `0` and which have not been received, oldest first. -/
def content : List (QueueEvent k) → List (List UInt8)
  | [] => []
  | .sent _ msg :: l => content l ++ [msg]
  | .received _ _ :: l => (content l).tail
  | .failed _ _ :: l => content l

end OpenHsm
