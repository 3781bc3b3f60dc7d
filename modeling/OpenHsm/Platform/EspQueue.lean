import OpenHsm.Library.Answers
import OpenHsm.Library.MachineInt
import OpenHsm.Platform.ObjectPools
import OpenHsm.Platform.QueueFifo

/-!
The message queue of `platform/esp32/osa_queue.c` beside that of `platform/linux/osa_queue.c`.

* `RtosQueues`, `Documented`: what FreeRTOS has of queues, and what it promises of them.
* `espQueueSend` to `espQueueFlush`: the functions of the file.
* `PortableOp`, `linuxQueueOp`, `espQueueOp`: the calls of both platforms, made one after another;
  one that finds no room or no message waits in vain.  `EspQueueOp` adds what only one has.
* `byteQueueOp`: the bounded queue of byte strings that both are, cut off at their capacity and at
  the size of their items: `linux_queue_answers`, `esp_queue_answers`.
* `queues_agree_iff`: created with the same arguments they answer alike exactly if these are
  within the limits of the static memory.
-/

namespace OpenHsm

open Answers MachineInt

/-! ### FreeRTOS -/

/-- The functions of FreeRTOS.  A call with a delay has waited in vain at its end. -/
structure RtosQueues (Q : Type*) where
  xQueueCreateStatic : StaticQueue → Q
  /-- `false` is `errQUEUE_FULL`. -/
  xQueueSend : Q → List UInt8 → Bool × Q
  xQueueSendFromISR : Q → List UInt8 → Bool × Q
  /-- The bytes that it copies. -/
  xQueueReceive : Q → Option (List UInt8 × Q)
  xQueuePeek : Q → Option (List UInt8)
  uxQueueMessagesWaiting : Q → ℕ
  uxQueueSpacesAvailable : Q → ℕ
  xQueueReset : Q → Q

variable {Q H : Type*}

/-- What FreeRTOS promises: a queue holds items of a fixed size, which it copies, up to its length,
and gives them back in their order. -/
structure RtosQueues.Documented (R : RtosQueues Q) (shape : Q → StaticQueue)
    (items : Q → List (List UInt8)) : Prop where
  create : ∀ c, 0 < c.length.toNat → 0 < c.itemSize →
    shape (R.xQueueCreateStatic c) = c ∧ items (R.xQueueCreateStatic c) = []
  send : ∀ q msg, (items q).length < (shape q).length.toNat → (R.xQueueSend q msg).1 = true ∧
    shape (R.xQueueSend q msg).2 = shape q ∧
    items (R.xQueueSend q msg).2 = items q ++ [msg.take (shape q).itemSize]
  full : ∀ q msg, (shape q).length.toNat ≤ (items q).length → R.xQueueSend q msg = (false, q)
  sendFromISR : ∀ q msg, R.xQueueSendFromISR q msg = R.xQueueSend q msg
  receive : ∀ q msg l, items q = msg :: l → ∃ q', R.xQueueReceive q = some (msg, q') ∧
    shape q' = shape q ∧ items q' = l
  empty : ∀ q, items q = [] → R.xQueueReceive q = none
  peek : ∀ q, R.xQueuePeek q = (items q).head?
  waiting : ∀ q, R.uxQueueMessagesWaiting q = (items q).length
  spaces : ∀ q, R.uxQueueSpacesAvailable q = (shape q).length.toNat - (items q).length
  reset : ∀ q, shape (R.xQueueReset q) = shape q ∧ items (R.xQueueReset q) = []

/-! ### The functions -/

/-- `OSA_ERR_QUEUE_FULL`. -/
def osaErrQueueFull : ℤ := -401

/-- The buffer of a caller after `msg` is copied to it. -/
def copyTo (buf msg : List UInt8) : List UInt8 := msg ++ buf.drop msg.length

/-- `osa_queue_send`; `inIsr` is `xPortInIsrContext`.  It does not read the length of the
message. -/
def espQueueSend (R : RtosQueues Q) (q : Q) (msg : Option (List UInt8)) (timeoutMs : ℤ)
    (inIsr : Bool) : ℤ × Q :=
  match msg with
  | none => (osaErrInvalidParam, q)
  | some msg =>
      let r := if inIsr then R.xQueueSendFromISR q msg else R.xQueueSend q msg
      (if r.1 then osaOk else if timeoutMs = 0 then osaErrQueueFull else osaErrTimeout, r.2)

/-- `osa_queue_receive`, with the buffer that it leaves. -/
def espQueueReceive (R : RtosQueues Q) (q : Q) (buf : Option (List UInt8)) (timeoutMs : ℤ) :
    ℤ × Option (List UInt8) × Q :=
  match buf with
  | none => (osaErrInvalidParam, none, q)
  | some buf =>
      match R.xQueueReceive q with
      | none => (if timeoutMs = 0 then osaErrTimeout else osaErrGeneric, some buf, q)
      | some (msg, q') => (osaOk, some (copyTo buf msg), q')

/-- `osa_queue_peek`. -/
def espQueuePeek (R : RtosQueues Q) (q : Q) (buf : Option (List UInt8)) :
    ℤ × Option (List UInt8) :=
  match buf with
  | none => (osaErrInvalidParam, none)
  | some buf =>
      match R.xQueuePeek q with
      | none => (osaErrGeneric, some buf)
      | some msg => (osaOk, some (copyTo buf msg))

/-- `osa_queue_get_count` and `osa_queue_get_space`, with a place for the answer. -/
def espQueueGetCount (R : RtosQueues Q) (q : Q) : ℤ × ℤ := (osaOk, R.uxQueueMessagesWaiting q)
def espQueueGetSpace (R : RtosQueues Q) (q : Q) : ℤ × ℤ := (osaOk, R.uxQueueSpacesAvailable q)

/-- `osa_queue_flush`. -/
def espQueueFlush (R : RtosQueues Q) (q : Q) : ℤ × Q := (osaOk, R.xQueueReset q)

/-! ### The operations -/

/-- A call that both platforms have, with a message and a buffer. -/
inductive PortableOp where
  | send (msg : List UInt8) (timeoutMs : ℤ) (inIsr : Bool)
  | receive (buf : List UInt8) (timeoutMs : ℤ)
  | count
  deriving DecidableEq, Repr

/-- A call that the ESP32 has. -/
inductive EspQueueOp where
  | shared (op : PortableOp)
  | peek (buf : List UInt8)
  | getSpace
  | flush
  deriving DecidableEq, Repr

/-- What the caller is told. -/
inductive QueueAnswer where
  | sent (ok : Bool)
  /-- The buffer after a receive or a peek, if that has succeeded. -/
  | received (buf : Option (List UInt8))
  | count (n : ℤ)
  | flushed
  deriving DecidableEq, Repr

/-- The message or the buffer is of the size that the queue was created with, and the wait
ends. -/
def PortableOp.Fits (msgSize : ℕ) : PortableOp → Prop
  | .send msg timeoutMs _ => msg.length = msgSize ∧ 0 ≤ timeoutMs
  | .receive buf timeoutMs => buf.length = msgSize ∧ 0 ≤ timeoutMs
  | .count => True

/-- The call on Linux; `none` is a wait, which ends with `ETIMEDOUT`. -/
def linuxQueueOp (q : OsaQueue) : PortableOp → QueueAnswer × OsaQueue
  | .send msg timeoutMs _ =>
      match sendEnter q (some msg) msg.length timeoutMs with
      | some (ret, q') => (.sent (decide (ret = 0)), q')
      | none => (.sent false, q)
  | .receive buf timeoutMs =>
      match receiveEnter q true buf.length timeoutMs with
      | some (ret, msg, q') => (.received (if ret = 0 then some (copyTo buf msg) else none), q')
      | none => (.received none, q)
  | .count => (.count (osaQueueCount (some q)), q)

/-- The call on the ESP32. -/
def espQueueOp (R : RtosQueues Q) (q : Q) : EspQueueOp → QueueAnswer × Q
  | .shared (.send msg timeoutMs inIsr) =>
      let r := espQueueSend R q (some msg) timeoutMs inIsr
      (.sent (decide (r.1 = 0)), r.2)
  | .shared (.receive buf timeoutMs) =>
      let r := espQueueReceive R q (some buf) timeoutMs
      (.received (if r.1 = 0 then r.2.1 else none), r.2.2)
  | .shared .count => (.count (espQueueGetCount R q).2, q)
  | .peek buf =>
      let r := espQueuePeek R q (some buf)
      (.received (if r.1 = 0 then r.2 else none), q)
  | .getSpace => (.count (espQueueGetSpace R q).2, q)
  | .flush => (.flushed, (espQueueFlush R q).2)

/-- The bounded queue of byte strings: at most `cap` of them, of `size` bytes. -/
def byteQueueOp (cap size : ℕ) (l : List (List UInt8)) :
    EspQueueOp → QueueAnswer × List (List UInt8)
  | .shared (.send msg _ _) =>
      if l.length < cap then (.sent true, l ++ [msg.take size]) else (.sent false, l)
  | .shared (.receive buf _) => (.received (l.head?.map (copyTo buf)), l.tail)
  | .shared .count => (.count l.length, l)
  | .peek buf => (.received (l.head?.map (copyTo buf)), l)
  | .getSpace => (.count (cap - l.length : ℕ), l)
  | .flush => (.flushed, [])

/-! ### Linux -/

/-- The ring holds the messages of the bounded queue. -/
structure LinuxHolds (cap size : ℕ) (q : OsaQueue) (l : List (List UInt8)) : Prop where
  ring : RingInv q l
  cap : q.maxMsgs = cap
  size : q.msgSize = size
  opened : q.closed = false

variable {cap size : ℕ} {q : OsaQueue} {l : List (List UInt8)}

lemma LinuxHolds.send (h : LinuxHolds cap size q l) {msg : List UInt8} (hmsg : msg.length = size)
    (timeoutMs : ℤ) (inIsr : Bool) :
    (linuxQueueOp q (.send msg timeoutMs inIsr)).1
        = (byteQueueOp cap size l (.shared (.send msg timeoutMs inIsr))).1 ∧
      LinuxHolds cap size (linuxQueueOp q (.send msg timeoutMs inIsr)).2
        (byteQueueOp cap size l (.shared (.send msg timeoutMs inIsr))).2 := by
  have hcount := h.ring.count
  have hcap := h.cap
  have hlen : msg.length = q.msgSize := by rw [hmsg, h.size]
  have htake : msg.take size = msg := by rw [← hmsg, List.take_length]
  by_cases hroom : l.length < cap
  · have hnotfull : ¬ q.maxMsgs ≤ q.count := by omega
    have hsend : sendEnter q (some msg) msg.length timeoutMs = some (0, writeMessage q msg) := by
      simp [sendEnter, sendFinish, hlen, h.opened, hnotfull]
    simp only [linuxQueueOp, byteQueueOp, hsend, if_pos hroom, htake]
    exact ⟨by simp, h.ring.write hlen (by omega), h.cap, h.size, h.opened⟩
  · have hfull : q.maxMsgs ≤ q.count := by omega
    have hfails : linuxQueueOp q (.send msg timeoutMs inIsr) = (.sent false, q) := by
      rw [linuxQueueOp]
      by_cases ht : timeoutMs = 0
      · simp [sendEnter, hlen, h.opened, hfull, ht, eAGAIN]
      · simp [sendEnter, sendResume, hlen, h.opened, hfull, ht]
    simp only [hfails, byteQueueOp, if_neg hroom, true_and]
    exact h

lemma LinuxHolds.receive (h : LinuxHolds cap size q l) {buf : List UInt8}
    (hbuf : buf.length = size) (timeoutMs : ℤ) :
    (linuxQueueOp q (.receive buf timeoutMs)).1
        = (byteQueueOp cap size l (.shared (.receive buf timeoutMs))).1 ∧
      LinuxHolds cap size (linuxQueueOp q (.receive buf timeoutMs)).2
        (byteQueueOp cap size l (.shared (.receive buf timeoutMs))).2 := by
  have hcount := h.ring.count
  have hlen : buf.length = q.msgSize := by rw [hbuf, h.size]
  by_cases hempty : q.count = 0
  · obtain rfl : l = [] := List.eq_nil_of_length_eq_zero (by omega)
    have hfails : linuxQueueOp q (.receive buf timeoutMs) = (.received none, q) := by
      rw [linuxQueueOp]
      by_cases ht : timeoutMs = 0
      · simp [receiveEnter, hlen, h.opened, hempty, ht, eAGAIN]
      · simp [receiveEnter, receiveResume, hlen, h.opened, hempty, ht]
    rw [hfails]
    exact ⟨rfl, h⟩
  · obtain ⟨l', rfl, hring⟩ := h.ring.read hempty
    have hreceive : receiveEnter q true buf.length timeoutMs
        = some (0, frontMessage q, dropMessage q) := by
      simp [receiveEnter, receiveFinish, hlen, hempty]
    simp only [linuxQueueOp, hreceive]
    exact ⟨rfl, hring, h.cap, h.size, h.opened⟩

/-- The ring does what the bounded queue does. -/
lemma LinuxHolds.step (h : LinuxHolds cap size q l) {op : PortableOp} (hop : op.Fits size) :
    (linuxQueueOp q op).1 = (byteQueueOp cap size l (.shared op)).1 ∧
      LinuxHolds cap size (linuxQueueOp q op).2 (byteQueueOp cap size l (.shared op)).2 := by
  cases op with
  | send msg timeoutMs inIsr => exact h.send hop.1 timeoutMs inIsr
  | receive buf timeoutMs => exact h.receive hop.1 timeoutMs
  | count => exact ⟨congrArg QueueAnswer.count h.ring.count, h⟩

/-- **The Linux queue is the bounded queue of the arguments it was created with.** -/
theorem linux_queue_answers {name : Option (List UInt8)} {msgSize : ℕ} {maxMsgs : ℤ}
    {structOk bufferOk : Bool}
    (hq : osaQueueCreate name msgSize maxMsgs structOk bufferOk = .ok q) {ops : List PortableOp}
    (hops : ∀ op ∈ ops, op.Fits msgSize) :
    answers linuxQueueOp q ops = answers (byteQueueOp maxMsgs.toNat msgSize) []
      (ops.map .shared) := by
  have hring := RingInv.create hq
  obtain ⟨-, hmax, name, rfl⟩ := osaQueueCreate_ok hq
  have hstart : LinuxHolds maxMsgs.toNat msgSize (newQueue name msgSize maxMsgs) [] :=
    ⟨hring, (Int.toNat_of_nonneg hmax.le).symm, rfl, rfl⟩
  rw [answers_map]
  exact answers_eq_of_simulation (fun _ _ _ h hop => h.step hop) hstart hops

/-! ### The ESP32 -/

variable {R : RtosQueues Q} {shape : Q → StaticQueue} {items : Q → List (List UInt8)}

/-- The queue of FreeRTOS does what the bounded queue of its length and item size does. -/
lemma RtosQueues.Documented.step (hR : R.Documented shape items) (q : Q) (op : EspQueueOp) :
    (espQueueOp R q op).1
        = (byteQueueOp (shape q).length.toNat (shape q).itemSize (items q) op).1 ∧
      shape (espQueueOp R q op).2 = shape q ∧
      items (espQueueOp R q op).2
        = (byteQueueOp (shape q).length.toNat (shape q).itemSize (items q) op).2 := by
  cases op with
  | shared op =>
      cases op with
      | send msg timeoutMs inIsr =>
          have hsend : espQueueSend R q (some msg) timeoutMs inIsr
              = (if (R.xQueueSend q msg).1 then osaOk else
                  if timeoutMs = 0 then osaErrQueueFull else osaErrTimeout,
                (R.xQueueSend q msg).2) := by
            cases inIsr <;> simp [espQueueSend, hR.sendFromISR]
          simp only [espQueueOp, hsend, byteQueueOp]
          by_cases hroom : (items q).length < (shape q).length.toNat
          · obtain ⟨htrue, hshape, hitems⟩ := hR.send q msg hroom
            simp [htrue, hshape, hitems, hroom, osaOk]
          · rw [hR.full q msg (not_lt.mp hroom)]
            by_cases ht : timeoutMs = 0 <;> simp [hroom, ht, osaErrQueueFull, osaErrTimeout]
      | receive buf timeoutMs =>
          cases hitems : items q with
          | nil =>
              by_cases ht : timeoutMs = 0 <;>
                simp [espQueueOp, espQueueReceive, byteQueueOp, hR.empty q hitems, ht, hitems,
                  osaErrTimeout, osaErrGeneric]
          | cons msg l =>
              obtain ⟨q', hreceive, hshape, hrest⟩ := hR.receive q msg l hitems
              simp [espQueueOp, espQueueReceive, byteQueueOp, hreceive, hshape, hrest, osaOk]
      | count =>
          simp [espQueueOp, espQueueGetCount, byteQueueOp, hR.waiting]
  | peek buf =>
      simp only [espQueueOp, espQueuePeek, byteQueueOp, hR.peek]
      cases (items q).head? <;> simp [osaErrGeneric, osaOk]
  | getSpace => simp [espQueueOp, espQueueGetSpace, byteQueueOp, hR.spaces]
  | flush =>
      obtain ⟨hshape, hitems⟩ := hR.reset q
      exact ⟨rfl, hshape, hitems⟩

/-- **The ESP32 queue is the bounded queue of the length and the item size it was created with**,
peeks and flushes included. -/
theorem esp_queue_answers (hR : R.Documented shape items) {c : StaticQueue}
    (hlength : 0 < c.length.toNat) (hitem : 0 < c.itemSize) (ops : List EspQueueOp) :
    answers (espQueueOp R) (R.xQueueCreateStatic c) ops
      = answers (byteQueueOp c.length.toNat c.itemSize) [] ops := by
  obtain ⟨hshape, hitems⟩ := hR.create c hlength hitem
  have hsim : ∀ q l op, shape q = c ∧ items q = l → True →
      (espQueueOp R q op).1 = (byteQueueOp c.length.toNat c.itemSize l op).1 ∧
        shape (espQueueOp R q op).2 = c ∧
        items (espQueueOp R q op).2 = (byteQueueOp c.length.toNat c.itemSize l op).2 := by
    rintro q l op ⟨rfl, rfl⟩ -
    exact hR.step q op
  exact answers_eq_of_simulation hsim ⟨hshape, hitems⟩ fun _ _ => trivial

/-! ### The limits -/

/-- A call that sends without waiting. -/
def sendNow (msg : List UInt8) : EspQueueOp := .shared (.send msg 0 false)

/-- Sends that find room. -/
lemma answers_sends {n : ℕ} (hn : l.length + n ≤ cap) (msg : List UInt8) :
    answers (byteQueueOp cap size) l (List.replicate n (sendNow msg))
        = List.replicate n (.sent true) ∧
      after (byteQueueOp cap size) l (List.replicate n (sendNow msg))
        = l ++ List.replicate n (msg.take size) := by
  induction n generalizing l with
  | zero => simp [answers, after]
  | succ n ih =>
      have hroom : l.length < cap := by omega
      have hrest := ih (l := l ++ [msg.take size]) (by
        rw [List.length_append, List.length_singleton]
        omega)
      simp only [List.replicate_succ, answers, after, sendNow, byteQueueOp, if_pos hroom]
      exact ⟨congrArg _ hrest.1, hrest.2.trans (by simp)⟩

/-- A smaller capacity shows when the queue is filled. -/
lemma capacity_le_of_answers {cap' size' : ℕ} {msg : List UInt8}
    (h : ∀ n, answers (byteQueueOp cap size) [] (List.replicate n (sendNow msg))
      = answers (byteQueueOp cap' size') [] (List.replicate n (sendNow msg))) : cap ≤ cap' := by
  by_contra hlt
  have hall : answers (byteQueueOp cap size) [] (List.replicate (cap' + 1) (sendNow msg))
      = List.replicate (cap' + 1) (.sent true) :=
    (answers_sends (by rw [List.length_nil]; omega) msg).1
  obtain ⟨hfill, hfull⟩ : answers (byteQueueOp cap' size') [] (List.replicate cap' (sendNow msg))
      = List.replicate cap' (.sent true) ∧
    after (byteQueueOp cap' size') [] (List.replicate cap' (sendNow msg))
      = [] ++ List.replicate cap' (msg.take size') := answers_sends (by simp) msg
  -- the last of `cap' + 1` sends finds the smaller queue full
  have hlast : answers (byteQueueOp cap' size') [] (List.replicate (cap' + 1) (sendNow msg))
      = List.replicate cap' (.sent true) ++ [.sent false] := by
    rw [List.replicate_succ', answers_append, hfill, hfull]
    simp [answers, sendNow, byteQueueOp]
  rw [h (cap' + 1), hlast, List.replicate_succ', List.append_cancel_left_eq] at hall
  simp at hall

/-- A smaller item size shows when a message is received. -/
lemma size_le_of_answers {cap' size' n : ℕ} (hcap : 0 < cap) (hcap' : 0 < cap') (hn : n = size)
    (h : answers (byteQueueOp cap size) []
        [sendNow (List.replicate n 1), .shared (.receive (List.replicate n 0) 0)]
      = answers (byteQueueOp cap' size') []
        [sendNow (List.replicate n 1), .shared (.receive (List.replicate n 0) 0)]) :
    size ≤ size' := by
  subst hn
  by_contra hlt
  have hreceived : copyTo (List.replicate n 0) (List.replicate n 1)
      = copyTo (List.replicate n 0) ((List.replicate n 1).take size') := by
    simpa [answers, sendNow, byteQueueOp, hcap, hcap'] using h
  -- the first byte that was cut off
  have hbyte := congrArg (fun buf => buf[size']?) hreceived
  rw [not_le] at hlt
  simp [copyTo, hlt, hlt.le] at hbyte

/-- **Bounded queues agree exactly if neither is smaller**: one that holds less is full first, and
one with smaller items cuts messages off. -/
theorem byteQueues_agree_iff {cap' size' : ℕ} (hcap' : 0 < cap') (hcap : cap' ≤ cap)
    (hsize : size' ≤ size) :
    (∀ ops : List PortableOp, (∀ op ∈ ops, op.Fits size) →
      answers (byteQueueOp cap size) [] (ops.map .shared)
        = answers (byteQueueOp cap' size') [] (ops.map .shared)) ↔
    cap ≤ cap' ∧ size ≤ size' := by
  constructor
  · intro hagree
    have hfill : ∀ n, answers (byteQueueOp cap size) []
        (List.replicate n (sendNow (List.replicate size 0)))
        = answers (byteQueueOp cap' size') []
          (List.replicate n (sendNow (List.replicate size 0))) := by
      intro n
      have hsends := hagree (List.replicate n (.send (List.replicate size 0) 0 false))
        fun op hop => by
          rw [List.eq_of_mem_replicate hop]
          exact ⟨List.length_replicate, le_rfl⟩
      rwa [List.map_replicate] at hsends
    have hbytes := hagree [.send (List.replicate size 1) 0 false,
      .receive (List.replicate size 0) 0] (by simp [PortableOp.Fits])
    exact ⟨capacity_le_of_answers hfill, size_le_of_answers (hcap'.trans_le hcap) hcap' rfl hbytes⟩
  · rintro ⟨hcaps, hsizes⟩ ops -
    rw [le_antisymm hcaps hcap, le_antisymm hsizes hsize]

/-- What a queue that was created has of the arguments. -/
lemma espQueueCreate_some {C : EspConfig} {p : ObjectPool H .queue} {msgSize : ℕ} {maxMsgs : ℤ}
    {handle : Option H} {h : H} {slot : Fin osaMaxQueues} {c : StaticQueue}
    (hc : (espQueueCreate C p msgSize maxMsgs handle).1 = some (h, slot, c)) :
    msgSize ≠ 0 ∧ maxMsgs ≠ 0 ∧ c = ⟨UInt32.ofInt (C.length maxMsgs), C.itemSize msgSize⟩ := by
  by_cases hbad : msgSize = 0 ∨ maxMsgs = 0
  · simp [espQueueCreate, createObject, hbad] at hc
  · rw [not_or] at hbad
    simp only [espQueueCreate, Option.map_eq_some_iff] at hc
    obtain ⟨o, -, ho⟩ := hc
    cases ho
    exact ⟨hbad.1, hbad.2, rfl⟩

/-- **A queue has the static memory it needs exactly if its `max_msgs` is positive**: a negative
one is not refused, and FreeRTOS takes it for a huge one. -/
theorem static_queue_fits_iff {C : EspConfig} {p : ObjectPool H .queue} {msgSize : ℕ}
    {maxMsgs : ℤ} {handle : Option H} {h : H} {slot : Fin osaMaxQueues} {c : StaticQueue}
    (hc : (espQueueCreate C p msgSize maxMsgs handle).1 = some (h, slot, c))
    (hint : -2 ^ 31 ≤ maxMsgs ∧ maxMsgs < 2 ^ 31)
    (hsmall : C.queueMaxSize * C.queueMaxMsgSize < 2 ^ 31) :
    c.length.toNat * c.itemSize ≤ C.queueMaxSize * C.queueMaxMsgSize ↔ 0 < maxMsgs := by
  obtain ⟨hsize, hmsgs, rfl⟩ := espQueueCreate_some hc
  have hlength := toNat_ofInt (C.length maxMsgs)
  have hitem : 0 < C.itemSize msgSize ∧ C.itemSize msgSize ≤ C.queueMaxMsgSize := by
    have hpos := C.queueMaxMsgSize_pos
    rw [EspConfig.itemSize]
    split <;> omega
  show (UInt32.ofInt (C.length maxMsgs)).toNat * C.itemSize msgSize ≤ _ ↔ _
  rw [hlength]
  constructor
  · intro hle
    by_contra hneg
    have hcut : C.length maxMsgs = maxMsgs := if_neg (by omega)
    have hhuge : 2 ^ 31 ≤ (C.length maxMsgs % 2 ^ 32).toNat := by
      rw [hcut]
      omega
    have hmul := Nat.le_mul_of_pos_right (C.length maxMsgs % 2 ^ 32).toNat hitem.1
    omega
  · intro hpos
    refine Nat.mul_le_mul ?_ hitem.2
    rw [EspConfig.length]
    split <;> omega

/-- Queues of FreeRTOS as lists. -/
def listQueues : RtosQueues (StaticQueue × List (List UInt8)) where
  xQueueCreateStatic c := (c, [])
  xQueueSend q msg :=
    if q.2.length < q.1.length.toNat then (true, q.1, q.2 ++ [msg.take q.1.itemSize])
    else (false, q)
  xQueueSendFromISR q msg :=
    if q.2.length < q.1.length.toNat then (true, q.1, q.2 ++ [msg.take q.1.itemSize])
    else (false, q)
  xQueueReceive q := q.2.head?.map fun msg => (msg, q.1, q.2.tail)
  xQueuePeek q := q.2.head?
  uxQueueMessagesWaiting q := q.2.length
  uxQueueSpacesAvailable q := q.1.length.toNat - q.2.length
  xQueueReset q := (q.1, [])

lemma listQueues_documented : listQueues.Documented Prod.fst Prod.snd := by
  refine ⟨fun c _ _ => ⟨rfl, rfl⟩, fun q msg hroom => ?_,
    fun q msg hfull => if_neg (not_lt.mpr hfull), fun _ _ => rfl, fun q msg l hl => ?_,
    fun q hq => ?_, fun _ => rfl, fun _ => rfl, fun _ => rfl, fun _ => ⟨rfl, rfl⟩⟩
  · have hsend : listQueues.xQueueSend q msg = (true, q.1, q.2 ++ [msg.take q.1.itemSize]) :=
      if_pos hroom
    rw [hsend]
    exact ⟨rfl, rfl, rfl⟩
  · exact ⟨(q.1, l), by simp [listQueues, hl], rfl, rfl⟩
  · simp [listQueues, hq]

/-- A message is sent from an interrupt, counted and received. -/
def oneMessage : List PortableOp :=
  [.send (List.replicate 16 7) 0 true, .count, .receive (List.replicate 16 0) 100,
    .receive (List.replicate 16 0) 0]

end OpenHsm
