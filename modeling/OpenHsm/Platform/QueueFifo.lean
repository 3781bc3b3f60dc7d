import OpenHsm.Platform.Queue

/-!
The message queue is a bounded first-in first-out list.

* `RingInv q l`: the ring holds the messages of `l`; `RingInv.write` appends one, and
  `RingInv.read` takes off the oldest.
* `FifoInv`: the ring holds the `content` of the log.
* `IsFifo`, `FifoStep`: what the invariant says of a state, and what a step does to the
  list.
* `queue_is_fifo`: both, in every reachable state.
-/

namespace OpenHsm

open Ring Runs

variable {k : ℕ}

/-! ### The ring -/

/-- The ring holds the messages `l`. -/
structure RingInv (q : OsaQueue) (l : List (List UInt8)) : Prop where
  size : 0 < q.msgSize
  max : 0 < q.maxMsgs
  buffer : q.buffer.length = q.maxMsgs.toNat * q.msgSize
  head_nonneg : 0 ≤ q.head
  head_lt : q.head < q.maxMsgs
  tail : q.tail = (q.head + q.count) % q.maxMsgs
  count : q.count = l.length
  count_le : q.count ≤ q.maxMsgs
  cells : Holds (cell q.msgSize q.buffer) q.maxMsgs.toNat q.head.toNat l

/-- A new queue is empty. -/
lemma RingInv.create {name : Option (List UInt8)} {msgSize : ℕ} {maxMsgs : ℤ}
    {structOk bufferOk : Bool} {q : OsaQueue}
    (h : osaQueueCreate name msgSize maxMsgs structOk bufferOk = .ok q) : RingInv q [] := by
  cases name with
  | none => cases h
  | some name =>
      simp only [osaQueueCreate] at h
      split at h
      · cases h
      split at h
      · cases h
      split at h
      · cases h
      next hbad _ _ =>
        rw [not_or, not_le] at hbad
        cases h
        refine ⟨Nat.pos_of_ne_zero hbad.1, hbad.2, ?_, le_refl _, hbad.2, ?_, rfl, hbad.2.le,
          Holds.nil⟩
        · exact List.length_replicate
        · show (0 : ℤ) = (0 + 0) % maxMsgs
          simp

/-- The successor of a position, cyclically, as a natural number. -/
lemma toNat_add_emod {h m : ℤ} (hh : 0 ≤ h) (hm : 0 < m) (c : ℕ) :
    ((h + c) % m).toNat = (h.toNat + c) % m.toNat := by
  have hcast : (((h + c) % m).toNat : ℤ) = ((h.toNat + c) % m.toNat : ℕ) := by
    rw [Int.toNat_of_nonneg (Int.emod_nonneg _ hm.ne'), Int.natCast_emod, Nat.cast_add,
      Int.toNat_of_nonneg hh, Int.toNat_of_nonneg hm.le]
  exact_mod_cast hcast

namespace RingInv

variable {q : OsaQueue} {l : List (List UInt8)}

lemma tail_nonneg (h : RingInv q l) : 0 ≤ q.tail := by
  rw [h.tail]
  exact Int.emod_nonneg _ h.max.ne'

lemma tail_lt (h : RingInv q l) : q.tail < q.maxMsgs := by
  rw [h.tail]
  exact Int.emod_lt_of_pos _ h.max

/-- `tail` is the cell behind the last message. -/
lemma tail_toNat (h : RingInv q l) :
    q.tail.toNat = (q.head.toNat + l.length) % q.maxMsgs.toNat := by
  rw [h.tail, h.count, toNat_add_emod h.head_nonneg h.max]

/-- A cell of the ring lies within the buffer. -/
lemma cell_le (h : RingInv q l) {i : ℤ} (hi : i < q.maxMsgs) (h0 : 0 ≤ i) :
    (i.toNat + 1) * q.msgSize ≤ q.buffer.length := by
  rw [h.buffer]
  exact Nat.mul_le_mul_right _ (by omega)

/-- A write appends its message. -/
lemma write (h : RingInv q l) {msg : List UInt8} (hmsg : msg.length = q.msgSize)
    (hroom : q.count < q.maxMsgs) : RingInv (writeMessage q msg) (l ++ [msg]) := by
  have htake : msg.take q.msgSize = msg := by rw [← hmsg, List.take_length]
  have hin := h.cell_le h.tail_lt h.tail_nonneg
  have hlen : l.length < q.maxMsgs.toNat := by have := h.count; omega
  refine ⟨h.size, h.max, ?_, h.head_nonneg, h.head_lt, ?_, ?_, ?_, ?_⟩
  · rw [writeMessage, htake, length_store (by rw [hmsg, ← Nat.succ_mul]; exact hin)]
    exact h.buffer
  · show (q.tail + 1).tmod q.maxMsgs = (q.head + (q.count + 1)) % q.maxMsgs
    calc (q.tail + 1).tmod q.maxMsgs
        = (q.tail + 1) % q.maxMsgs :=
          Int.tmod_eq_emod_of_nonneg (by have := h.tail_nonneg; omega)
      _ = (q.head + q.count + 1) % q.maxMsgs := by rw [h.tail, Int.emod_add_emod]
      _ = (q.head + (q.count + 1)) % q.maxMsgs := by rw [Int.add_assoc]
  · show q.count + 1 = ((l ++ [msg]).length : ℤ)
    rw [h.count, List.length_append, List.length_singleton]
    rfl
  · show q.count + 1 ≤ q.maxMsgs
    omega
  · rw [writeMessage, htake]
    refine h.cells.push hlen ?_ fun j hj => ?_
    · rw [← h.tail_toNat]
      exact cell_store_self hmsg hin
    · rw [← h.tail_toNat] at hj
      exact cell_store_of_ne hmsg hin hj

/-- The message at `head` is the oldest one, and the others follow it. -/
lemma read (h : RingInv q l) (hne : q.count ≠ 0) :
    ∃ l', l = frontMessage q :: l' ∧ RingInv (dropMessage q) l' := by
  have hcount := h.count
  obtain ⟨msg, l', rfl⟩ : ∃ msg l', l = msg :: l' := by
    refine List.exists_cons_of_ne_nil ?_
    rintro rfl
    exact hne hcount
  have hlt : q.head.toNat < q.maxMsgs.toNat := by
    have := h.head_lt
    have := h.head_nonneg
    omega
  have hmod : (q.head + 1).tmod q.maxMsgs = (q.head + 1) % q.maxMsgs :=
    Int.tmod_eq_emod_of_nonneg (by have := h.head_nonneg; omega)
  refine ⟨l', by rw [frontMessage, h.cells.front hlt], h.size, h.max, h.buffer, ?_, ?_, ?_, ?_,
    ?_, ?_⟩
  · show 0 ≤ (q.head + 1).tmod q.maxMsgs
    rw [hmod]
    exact Int.emod_nonneg _ h.max.ne'
  · show (q.head + 1).tmod q.maxMsgs < q.maxMsgs
    rw [hmod]
    exact Int.emod_lt_of_pos _ h.max
  · show q.tail = ((q.head + 1).tmod q.maxMsgs + (q.count - 1)) % q.maxMsgs
    rw [hmod, h.tail, Int.emod_add_emod]
    congr 1
    omega
  · show q.count - 1 = (l'.length : ℤ)
    rw [List.length_cons] at hcount
    omega
  · show q.count - 1 ≤ q.maxMsgs
    have := h.count_le
    omega
  · have hnat : ((q.head + 1).tmod q.maxMsgs).toNat = (q.head.toNat + 1) % q.maxMsgs.toNat := by
      rw [hmod]
      exact toNat_add_emod h.head_nonneg h.max 1
    show Holds (cell q.msgSize q.buffer) q.maxMsgs.toNat
      ((q.head + 1).tmod q.maxMsgs).toNat l'
    rw [hnat]
    exact h.cells.pop

end RingInv

/-! ### The threads -/

/-- The ring holds the content, and the threads that wait to send hold messages of the
right length. -/
structure FifoInv (s : QueueSys k) : Prop where
  ring : RingInv s.queue (content s.log)
  msgs : ∀ i msg t p, s.pc i = .sending msg t p → msg.length = s.queue.msgSize

/-- What the step `a` does to the list of messages. -/
inductive FifoStep (s : QueueSys k) (a : QueueAct k) (t : QueueSys k) : Prop
  /-- No call returns. -/
  | silent : t.queue = s.queue → t.log = s.log → FifoStep s a t
  /-- A send appends the message it was called with. -/
  | sent (i : Fin k) (msg : List UInt8) :
      ((∃ n tm w, a = .send i (some msg) n tm w) ∨
        ∃ tm w, a = .resume i w ∧ s.pc i = .sending msg tm .woken) →
      s.queue.count < s.queue.maxMsgs → t.log = .sent i msg :: s.log →
      content t.log = content s.log ++ [msg] → FifoStep s a t
  /-- A receive takes off the oldest message. -/
  | received (i : Fin k) (msg : List UInt8) : t.log = .received i msg :: s.log →
      content s.log = msg :: content t.log → FifoStep s a t
  /-- A call that returns an error changes nothing. -/
  | failed (i : Fin k) (ret : ℤ) : ret ≠ 0 → t.queue = s.queue →
      t.log = .failed i ret :: s.log → content t.log = content s.log → FifoStep s a t

lemma moveTo_sending {x : CallPc} {p p' : Place} {msg : List UInt8} {t : ℤ}
    (h : x.moveTo p = .sending msg t p') : ∃ p'', x = .sending msg t p'' := by
  cases x with
  | idle => cases h
  | receiving t' q => cases h
  | sending msg' t' q =>
      obtain ⟨rfl, rfl, -⟩ : msg' = msg ∧ t' = t ∧ p = p' := by
        simpa [CallPc.moveTo] using h
      exact ⟨q, rfl⟩

lemma unblock_sending {pc : Fin k → CallPc} {wake : Finset (Fin k)} {i : Fin k} {p : Place}
    {msg : List UInt8} {t : ℤ} (h : unblock pc wake i = .sending msg t p) :
    ∃ p', pc i = .sending msg t p' := by
  rw [unblock] at h
  split at h
  · exact moveTo_sending h
  · exact ⟨p, h⟩

namespace FifoInv

variable {s : QueueSys k}

lemma initial (h : QueueInitial s) : FifoInv s := by
  obtain ⟨⟨name, msgSize, maxMsgs, hq⟩, hpc, hlog⟩ := h
  refine ⟨?_, fun i msg t p hi => ?_⟩
  · rw [hlog]
    exact RingInv.create hq
  · rw [hpc] at hi
    cases hi

/-- One thread goes elsewhere in its wait, or stops waiting. -/
lemma move (h : FifoInv s) {i : Fin k} {x : CallPc} {t : QueueSys k}
    (hx : ∀ msg tm p, x = .sending msg tm p → msg.length = s.queue.msgSize)
    (hq : t.queue = s.queue) (hlog : content t.log = content s.log)
    (hpc : t.pc = Function.update s.pc i x) : FifoInv t := by
  refine ⟨by rw [hq, hlog]; exact h.ring, fun j msg tm p hj => ?_⟩
  rw [hq]
  rw [hpc] at hj
  by_cases hji : j = i
  · subst hji
    rw [Function.update_self] at hj
    exact hx msg tm p hj
  · rw [Function.update_of_ne hji] at hj
    exact h.msgs j msg tm p hj

/-- A call returns and leaves a ring that holds the content. -/
lemma finish (h : FifoInv s) {i : Fin k} {wake : Finset (Fin k)} {t : QueueSys k}
    (hring : RingInv t.queue (content t.log)) (hsize : t.queue.msgSize = s.queue.msgSize)
    (hpc : t.pc = Function.update (unblock s.pc wake) i .idle) : FifoInv t := by
  refine ⟨hring, fun j msg tm p hj => ?_⟩
  rw [hsize]
  rw [hpc] at hj
  by_cases hji : j = i
  · subst hji
    rw [Function.update_self] at hj
    cases hj
  · rw [Function.update_of_ne hji] at hj
    obtain ⟨p', hp'⟩ := unblock_sending hj
    exact h.msgs j msg tm p' hp'

/-- A call fails. -/
lemma fail (h : FifoInv s) {a : QueueAct k} {i : Fin k} {wake : Finset (Fin k)} {ret : ℤ}
    {t : QueueSys k} (hret : ret ≠ 0) (hq : t.queue = s.queue)
    (hpc : t.pc = Function.update (unblock s.pc wake) i .idle)
    (hlog : t.log = .failed i ret :: s.log) : FifoInv t ∧ FifoStep s a t := by
  refine ⟨h.finish ?_ (by rw [hq]) hpc, .failed i ret hret hq hlog (by rw [hlog]; rfl)⟩
  rw [hq, hlog]
  exact h.ring

/-- A send writes its message. -/
lemma write (h : FifoInv s) {a : QueueAct k} {i : Fin k} {msg : List UInt8}
    {wake : Finset (Fin k)} {t : QueueSys k} (hmsg : msg.length = s.queue.msgSize)
    (hroom : s.queue.count < s.queue.maxMsgs)
    (ha : (∃ n tm w, a = .send i (some msg) n tm w) ∨
      ∃ tm w, a = .resume i w ∧ s.pc i = .sending msg tm .woken)
    (hq : t.queue = writeMessage s.queue msg)
    (hpc : t.pc = Function.update (unblock s.pc wake) i .idle)
    (hlog : t.log = .sent i msg :: s.log) : FifoInv t ∧ FifoStep s a t := by
  refine ⟨h.finish ?_ (by rw [hq]; rfl) hpc, .sent i msg ha hroom hlog (by rw [hlog]; rfl)⟩
  rw [hq, hlog]
  exact h.ring.write hmsg hroom

/-- A receive takes the message at `head`. -/
lemma read (h : FifoInv s) {a : QueueAct k} {i : Fin k} {wake : Finset (Fin k)} {t : QueueSys k}
    (hne : s.queue.count ≠ 0) (hq : t.queue = dropMessage s.queue)
    (hpc : t.pc = Function.update (unblock s.pc wake) i .idle)
    (hlog : t.log = .received i (frontMessage s.queue) :: s.log) :
    FifoInv t ∧ FifoStep s a t := by
  obtain ⟨l, hl, hring⟩ := h.ring.read hne
  have hcontent : content t.log = l := by rw [hlog, content, hl, List.tail_cons]
  refine ⟨h.finish ?_ (by rw [hq]; rfl) hpc, .received i _ hlog (by rw [hcontent, ← hl])⟩
  rw [hq, hcontent]
  exact hring

/-- **Every step keeps the invariant** and does to the list what a bounded first-in
first-out list allows. -/
lemma step (h : FifoInv s) {a : QueueAct k} (ha : queueEnabled s a) :
    FifoInv (queueNext s a) ∧ FifoStep s a (queueNext s a) := by
  cases a with
  | send i msg msgLen tm wake =>
      obtain ⟨-, hlen, -⟩ := ha
      rcases sendEnter_cases s.queue msg msgLen tm with
        ⟨ret, hret, hr⟩ | ⟨m, rfl, hm, -, ⟨-, hr⟩ | ⟨hroom, hr⟩⟩
      · simp only [queueNext, hr, afterSend, if_neg hret]
        exact h.fail hret rfl rfl rfl
      · simp only [queueNext, hr, afterSend, Option.getD_some]
        refine ⟨h.move (i := i) ?_ rfl rfl rfl, .silent rfl rfl⟩
        rintro _ _ _ ⟨⟩
        rw [hlen m rfl, hm]
      · simp only [queueNext, hr, afterSend, Option.getD_some, if_true]
        exact h.write (by rw [hlen m rfl, hm]) hroom (Or.inl ⟨_, _, _, rfl⟩) rfl rfl rfl
  | receive i haveMsg msgLen tm wake =>
      rcases receiveEnter_cases s.queue haveMsg msgLen tm with
        ⟨ret, hret, hr⟩ | ⟨-, -, hr⟩ | ⟨hne, hr⟩
      · simp only [queueNext, hr, afterReceive, if_neg hret]
        exact h.fail hret rfl rfl rfl
      · simp only [queueNext, hr, afterReceive]
        exact ⟨h.move (i := i) (fun _ _ _ hx => by cases hx) rfl rfl rfl, .silent rfl rfl⟩
      · simp only [queueNext, hr, afterReceive, if_true]
        exact h.read hne rfl rfl rfl
  | resume i wake =>
      cases hi : s.pc i with
      | idle => simp [queueEnabled, hi] at ha
      | sending msg tm p =>
          obtain rfl := (woken_of_resume ha).1 msg tm p hi
          have hmsg := h.msgs i msg tm _ hi
          rcases sendResume_cases s.queue msg with ⟨-, -, hr⟩ | ⟨-, hr⟩ | ⟨-, hroom, hr⟩
          · simp only [queueNext, hi, hr, afterSend]
            refine ⟨h.move (i := i) ?_ rfl rfl rfl, .silent rfl rfl⟩
            rintro _ _ _ ⟨⟩
            exact hmsg
          · have hret : -ePIPE ≠ 0 := by simp [ePIPE]
            simp only [queueNext, hi, hr, afterSend, if_neg hret]
            exact h.fail hret rfl rfl rfl
          · simp only [queueNext, hi, hr, afterSend, if_true]
            exact h.write hmsg hroom (Or.inr ⟨_, _, rfl, hi⟩) rfl rfl rfl
      | receiving tm p =>
          rcases receiveResume_cases s.queue with ⟨-, -, hr⟩ | ⟨-, -, hr⟩ | ⟨hne, hr⟩
          · simp only [queueNext, hi, hr, afterReceive]
            exact ⟨h.move (i := i) (fun _ _ _ hx => by cases hx) rfl rfl rfl, .silent rfl rfl⟩
          · have hret : -ePIPE ≠ 0 := by simp [ePIPE]
            simp only [queueNext, hi, hr, afterReceive, if_neg hret]
            exact h.fail hret rfl rfl rfl
          · simp only [queueNext, hi, hr, afterReceive, if_true]
            exact h.read hne rfl rfl rfl
  | wakeUp i | expire i =>
      refine ⟨h.move (i := i) (fun msg tm p hx => ?_) rfl rfl rfl, .silent rfl rfl⟩
      obtain ⟨p', hp'⟩ := moveTo_sending hx
      exact h.msgs i msg tm p' hp'
  | leave i =>
      exact ⟨h.move (i := i) (fun _ _ _ hx => by cases hx) rfl rfl rfl,
        .failed i _ (by simp [eTIMEDOUT]) rfl rfl rfl⟩

/-- It holds in every reachable state. -/
lemma of_reachable (h : (queueSystem k).Reachable s) : FifoInv s :=
  h.invariant (P := FifoInv) (fun _ h0 => initial h0) fun _ _ hs ha => (hs.step ha).1

end FifoInv

/-! ### Runs -/

/-- The indices are in range, the cells hold the content byte for byte, and the three
queries report its length. -/
structure IsFifo (s : QueueSys k) : Prop where
  head : 0 ≤ s.queue.head ∧ s.queue.head < s.queue.maxMsgs
  tail : 0 ≤ s.queue.tail ∧ s.queue.tail < s.queue.maxMsgs
  count : 0 ≤ s.queue.count ∧ s.queue.count ≤ s.queue.maxMsgs
  tail_eq : s.queue.tail = (s.queue.head + s.queue.count) % s.queue.maxMsgs
  cells : ∀ i (h : i < (content s.log).length),
    cell s.queue.msgSize s.queue.buffer ((s.queue.head.toNat + i) % s.queue.maxMsgs.toNat)
      = (content s.log)[i]
  counted : osaQueueCount (some s.queue) = (content s.log).length
  full : osaQueueIsFull (some s.queue) = decide (((content s.log).length : ℤ) = s.queue.maxMsgs)
  empty : osaQueueIsEmpty (some s.queue) = (content s.log).isEmpty

lemma FifoInv.isFifo {s : QueueSys k} (h : FifoInv s) : IsFifo s := by
  have hring := h.ring
  have hcount := hring.count
  have hle := hring.count_le
  refine ⟨⟨hring.head_nonneg, hring.head_lt⟩, ⟨hring.tail_nonneg, hring.tail_lt⟩,
    ⟨by omega, hle⟩, hring.tail, hring.cells, hcount, ?_, ?_⟩
  · rw [osaQueueIsFull, decide_eq_decide]
    omega
  · rw [osaQueueIsEmpty, hcount, Bool.eq_iff_iff, decide_eq_true_iff, List.isEmpty_iff]
    rw [Nat.cast_eq_zero, List.length_eq_zero_iff]

/-- **The message queue is a linearizable bounded first-in first-out list**: in every
reachable state the ring holds the messages sent and not yet received, and every step
appends the message of a send that returns `0`, takes off the oldest one for a receive that
returns `0`, or leaves the list. -/
theorem queue_is_fifo {s : QueueSys k} (h : (queueSystem k).Reachable s) :
    IsFifo s ∧ ∀ a, queueEnabled s a → FifoStep s a (queueNext s a) := by
  have hinv := FifoInv.of_reachable h
  exact ⟨hinv.isFifo, fun a ha => (hinv.step ha).2⟩

/-- A ring of two cells wraps around: a receive that waits gets the first of four messages,
and the other three follow in order. -/
theorem wrapped_queue_is_fifo :
    ∃ s : QueueSys 2, (queueSystem 2).Reachable s ∧
      s.log = [.received 1 [7], .sent 0 [8], .received 1 [6], .failed 0 (-eAGAIN), .sent 0 [7],
        .sent 0 [6], .received 1 [5], .sent 0 [5]] ∧
      (s.queue.head, s.queue.tail, s.queue.count) = (1, 0, 1) ∧ IsFifo s := by
  obtain ⟨s, hs, hlog, hring⟩ :
      ∃ s : QueueSys 2, (queueSystem 2).Reachable s ∧
        s.log = [.received 1 [7], .sent 0 [8], .received 1 [6], .failed 0 (-eAGAIN), .sent 0 [7],
          .sent 0 [6], .received 1 [5], .sent 0 [5]] ∧
        (s.queue.head, s.queue.tail, s.queue.count) = (1, 0, 1) :=
    System.reachable_of_replay (queueStart_initial (by decide) (by decide) :
        QueueInitial (queueStart 2 1 2))
      [.receive 1 true 1 (-1) ∅, .send 0 (some [5]) 1 0 {1}, .resume 1 ∅,
        .send 0 (some [6]) 1 0 ∅, .send 0 (some [7]) 1 5 ∅, .send 0 (some [8]) 1 0 ∅,
        .receive 1 true 1 0 ∅, .send 0 (some [8]) 1 0 ∅, .receive 1 true 1 (-1) ∅]
      (by decide)
  exact ⟨s, hs, hlog, hring, (queue_is_fifo hs).1⟩

end OpenHsm
