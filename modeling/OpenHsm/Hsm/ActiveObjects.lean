import OpenHsm.Hsm.Dispatcher
import OpenHsm.Library.Progress
import OpenHsm.Library.WaitChain

/-!
Any number of state machines, each with its dispatcher and its queue, whose handlers post
events to each other and to themselves with `osa_hsm_active_event_post` and any timeout.

* `boundedSend`: a call of `osa_queue_send` on the list that the queue is;
  `sendEnter_eq_boundedSend`, `sendResume_eq_boundedSend` and `receiveEnter_eq` say that the
  ring of `Queue` does the same.
* `PostData`, `postTo`, `ActiveObject`, `ActiveAct`, `activeSystem`: the machines.
* `waitsOn`: which machine a dispatcher waits for: it is in a post without end to a machine
  whose queue is full.
* `ActiveInv`: where a dispatcher can be, in every reachable state.
* `deadlock_iff_cycle`: the dispatchers come to rest exactly where each is idle or its waits
  lead to a cycle, and those never move again, whatever other threads do.
* `ranked_posts_rest`: if posts without end go to machines of lower rank only, none is stuck.
-/

namespace OpenHsm

open Bytes Runs System WaitChain

/-! ### The queue -/

/-- `osa_queue_send` of an event to a queue of `size` events that holds `l`, to its return or
its first wait. -/
def boundedSend (size : ℤ) (l : List RawEvent) (r : RawEvent) (timeoutMs : ℤ) :
    Option (ℤ × List RawEvent) :=
  if (l.length : ℤ) < size then some (0, l ++ [r])
  else if timeoutMs = 0 then some (-eAGAIN, l)
  else none

section Ring

variable {q : OsaQueue} {l : List RawEvent}

/-- The ring sends as the list does. -/
lemma sendEnter_eq_boundedSend (h : RingInv q (l.map RawEvent.bytes))
    (hsize : q.msgSize = sizeofHsmEvent) (hopen : q.closed = false) (r : RawEvent)
    (timeoutMs : ℤ) :
    (boundedSend q.maxMsgs l r timeoutMs = none ∧
      sendEnter q (some r.bytes) sizeofHsmEvent timeoutMs = none) ∨
    ∃ ret l' q', boundedSend q.maxMsgs l r timeoutMs = some (ret, l') ∧
      sendEnter q (some r.bytes) sizeofHsmEvent timeoutMs = some (ret, q') ∧
      RingInv q' (l'.map RawEvent.bytes) := by
  have hcount : q.count = l.length := by rw [h.count, List.length_map]
  have hlen : r.bytes.length = q.msgSize := by rw [r.length_bytes, hsize]
  by_cases hroom : (l.length : ℤ) < q.maxMsgs
  · refine .inr ⟨0, l ++ [r], writeMessage q r.bytes, by rw [boundedSend, if_pos hroom], ?_, ?_⟩
    · have hnotfull : ¬ q.maxMsgs ≤ q.count := by omega
      simp [sendEnter, sendFinish, hsize, hopen, hnotfull]
    · rw [List.map_append]
      exact h.write hlen (by rw [hcount]; exact hroom)
  · have hfull : q.maxMsgs ≤ q.count := by rw [hcount]; exact not_lt.mp hroom
    by_cases ht : timeoutMs = 0
    · refine .inr ⟨-eAGAIN, l, q, by rw [boundedSend, if_neg hroom, if_pos ht], ?_, h⟩
      simp [sendEnter, hsize, hopen, hfull, ht]
    · refine .inl ⟨by rw [boundedSend, if_neg hroom, if_neg ht], ?_⟩
      simp [sendEnter, sendResume, hsize, hopen, hfull, ht]

/-- A send that looks again finds the room that the list has. -/
lemma sendResume_eq_boundedSend (h : RingInv q (l.map RawEvent.bytes))
    (hsize : q.msgSize = sizeofHsmEvent) (hopen : q.closed = false) (r : RawEvent) :
    ((l.length : ℤ) < q.maxMsgs ∧ ∃ q', sendResume q r.bytes = some (0, q') ∧
      RingInv q' ((l ++ [r]).map RawEvent.bytes)) ∨
    (q.maxMsgs ≤ l.length ∧ sendResume q r.bytes = none) := by
  have hcount : q.count = l.length := by rw [h.count, List.length_map]
  have hlen : r.bytes.length = q.msgSize := by rw [r.length_bytes, hsize]
  rcases sendResume_cases q r.bytes with ⟨-, hfull, hr⟩ | ⟨hclosed, -⟩ | ⟨-, hroom, hr⟩
  · exact .inr ⟨by rw [← hcount]; exact hfull, hr⟩
  · rw [hopen] at hclosed
    cases hclosed
  · refine .inl ⟨by rw [← hcount]; exact hroom, _, hr, ?_⟩
    rw [List.map_append]
    exact h.write hlen hroom

/-- The dispatcher takes the oldest event off the ring, as off the list. -/
lemma receiveEnter_eq {r : RawEvent} (h : RingInv q ((r :: l).map RawEvent.bytes))
    (hsize : q.msgSize = sizeofHsmEvent) :
    ∃ q', receiveEnter q true sizeofHsmEvent (-1) = some (0, r.bytes, q') ∧
      RingInv q' (l.map RawEvent.bytes) := by
  have hne : q.count ≠ 0 := by
    rw [h.count, List.length_map, List.length_cons]
    omega
  obtain ⟨l', hl', hdrop⟩ := h.read hne
  obtain ⟨hfront, rfl⟩ := List.cons.inj hl'
  refine ⟨dropMessage q, ?_, hdrop⟩
  simp [receiveEnter, receiveFinish, hsize, hne, hfront]

end Ring

/-! ### The machines -/

/-- What the handlers of a machine work on: data of their own, the post they have asked for, to
whatever machine, if it has not returned, and what the last one returned. -/
structure PostData (υ ι : Type*) where
  user : υ
  request : Option (ι × RawEvent × UInt32)
  result : ℤ

variable {σ υ ι : Type*}

/-- A handler calls `osa_hsm_active_event_post` with the machine `j`, and goes on with what the
post returns. -/
def postTo (j : ι) (r : RawEvent) (timeout : UInt32) (k : ℤ → Body σ (PostData υ ι)) :
    Body σ (PostData υ ι) :=
  .act (fun u => { u with request := some (j, r, timeout) }) (.read fun u _ => k u.result)

/-- A machine with its dispatcher. -/
structure ActiveObject (σ υ ι : Type*) where
  thread : HsmThread σ (PostData υ ι)
  pc : RunPc
  /-- The dispatcher is in the condition wait of a send. -/
  waits : Bool
  /-- The events in the queue, once it is created. -/
  queue : Option (List RawEvent)

/-- One step. -/
inductive ActiveAct (υ ι : Type*) where
  /-- Another thread changes the data of the handlers. -/
  | world (i : ι) (u : υ)
  /-- Another thread has posted, with or without a wait. -/
  | outside (j : ι) (r : RawEvent)
  /-- A step of the handler on top of the stack. -/
  | handler (i : ι)
  | createQueue (i : ι) (name : List UInt8) (structOk bufferOk : Bool)
  /-- The post that a handler has asked for, to its return or its wait. -/
  | post (i : ι)
  /-- The wait ends with room in the queue. -/
  | resume (i : ι)
  /-- The wait ends with `ETIMEDOUT`. -/
  | expire (i : ι)
  | receive (i : ι)
  /-- `STATE_DISPATCH` of the event in hand. -/
  | dispatch (i : ι)

/-- The dispatcher whose step it is. -/
def ActiveAct.dispatcher : ActiveAct υ ι → Option ι
  | .world _ _ | .outside _ _ => none
  | .handler i | .createQueue i _ _ _ | .post i | .resume i | .expire i | .receive i
  | .dispatch i => some i

/-- The queue of `j` is created and has room. -/
def HasRoom (size : ι → ℤ) (s : ι → ActiveObject σ υ ι) (j : ι) : Prop :=
  match (s j).queue with
  | some l => (l.length : ℤ) < size j
  | none => False

instance (size : ι → ℤ) (s : ι → ActiveObject σ υ ι) (j : ι) : Decidable (HasRoom size s j) :=
  match h : (s j).queue with
  | some l => decidable_of_iff ((l.length : ℤ) < size j) (by rw [HasRoom, h])
  | none => isFalse (by rw [HasRoom, h]; exact id)

/-- `(int)timeout` in `osa_hsm_active_event_post`. -/
def intTimeout (timeout : UInt32) : ℤ := timeout.toInt32.toInt

/-- When a step can be taken. -/
def activeEnabled (size : ι → ℤ) (s : ι → ActiveObject σ υ ι) : ActiveAct υ ι → Prop
  | .world _ _ => True
  | .outside j _ => HasRoom size s j
  | .handler i => (s i).thread.stack ≠ [] ∧ (s i).thread.user.request.isNone
  | .createQueue i _ _ _ => (s i).pc = .entry ∧ (s i).thread.stack = []
  | .post i => (s i).thread.user.request.isSome ∧ (s i).waits = false
  | .resume i => (s i).waits = true ∧ ∃ p ∈ (s i).thread.user.request, HasRoom size s p.1
  | .expire i => (s i).waits = true ∧ ∃ p ∈ (s i).thread.user.request, 0 < intTimeout p.2.2
  | .receive i => (s i).pc = .loop ∧ (s i).thread.stack = [] ∧ ∃ l ∈ (s i).queue, l ≠ []
  | .dispatch i => (s i).pc.hand ≠ []

instance (size : ι → ℤ) (s : ι → ActiveObject σ υ ι) (a : ActiveAct υ ι) :
    Decidable (activeEnabled size s a) := by
  cases a <;> simp only [activeEnabled] <;> infer_instance

variable [DecidableEq ι]

/-- The queue of `j` holds `l`. -/
def setQueue (s : ι → ActiveObject σ υ ι) (j : ι) (l : List RawEvent) :
    ι → ActiveObject σ υ ι :=
  Function.update s j { s j with queue := some l }

/-- The post of a handler of `i` has returned. -/
def postDone (ret : ℤ) (s : ι → ActiveObject σ υ ι) (i : ι) : ι → ActiveObject σ υ ι :=
  let c := (s i).thread
  Function.update s i
    { s i with
      thread := { c with user := { c.user with request := none, result := ret } }
      waits := false }

variable (S : ι → σ → HsmState σ (PostData υ ι)) (size : ι → ℤ)

/-- The effect of a step. -/
def activeNext (s : ι → ActiveObject σ υ ι) : ActiveAct υ ι → ι → ActiveObject σ υ ι
  | .world i u =>
      let c := (s i).thread
      Function.update s i { s i with thread := { c with user := { c.user with user := u } } }
  | .outside j r => match (s j).queue with
      | some l => setQueue s j (l ++ [r])
      | none => s
  | .handler i => Function.update s i { s i with thread := stepHandler (S i) (s i).thread }
  | .createQueue i name structOk bufferOk =>
      match osaQueueCreate (some name) sizeofHsmEvent (size i) structOk bufferOk with
      | .ok _ => Function.update s i { s i with pc := .loop, queue := some [] }
      | .error _ => Function.update s i { s i with pc := .exited }
  | .post i => match (s i).thread.user.request with
      | some (j, r, timeout) => match (s j).queue with
          | some l => match boundedSend (size j) l r (intTimeout timeout) with
              | some (ret, l') => postDone ret (setQueue s j l') i
              | none => Function.update s i { s i with waits := true }
          | none => postDone (-1) s i
      | none => s
  | .resume i => match (s i).thread.user.request with
      | some (j, r, _) => match (s j).queue with
          | some l => postDone 0 (setQueue s j (l ++ [r])) i
          | none => s
      | none => s
  | .expire i => postDone (-eTIMEDOUT) s i
  | .receive i => match (s i).queue with
      | some (r :: l) =>
          Function.update s i { s i with queue := some l, pc := .holding r.bytes }
      | _ => s
  | .dispatch i => match (s i).pc with
      | .holding msg =>
          Function.update s i
            { s i with
              pc := .loop
              thread := dispatchEvent (S i) (readEvent msg) (s i).thread }
      | _ => s

/-- The machines that start in the states `init`, with queues for `size` events. -/
def activeSystem (init : ι → σ) : System (ι → ActiveObject σ υ ι) (ActiveAct υ ι) where
  init s := ∃ u : ι → υ,
    s = fun i => ⟨startThread (S i) (init i) ⟨u i, none, 0⟩, .entry, false, none⟩
  enabled := activeEnabled size
  next := activeNext S size

instance (init : ι → σ) (s : ι → ActiveObject σ υ ι) (a : ActiveAct υ ι) :
    Decidable ((activeSystem S size init).enabled s a) :=
  inferInstanceAs (Decidable (activeEnabled size s a))

/-! ### One step -/

/-- Where a dispatcher is. -/
def ActiveObject.place (A : ActiveObject σ υ ι) :
    List (Frame σ (PostData υ ι)) × Option (ι × RawEvent × UInt32) × Bool × RunPc :=
  (A.thread.stack, A.thread.user.request, A.waits, A.pc)

variable {S size} {s t : ι → ActiveObject σ υ ι} {a : ActiveAct υ ι} {i j : ι}

/-- The event `r` is added to the queue of `j`, which has room for it, or nothing happens. -/
def Sent (size : ι → ℤ) (j : ι) (r : RawEvent) (s u : ι → ActiveObject σ υ ι) : Prop :=
  u = s ∨ ∃ l, (s j).queue = some l ∧ (l.length : ℤ) < size j ∧ u = setQueue s j (l ++ [r])

/-- The queue left as it is. -/
lemma setQueue_self {l : List RawEvent} (hj : (s j).queue = some l) : setQueue s j l = s := by
  refine Function.update_eq_iff.mpr ⟨?_, fun _ _ => rfl⟩
  rw [← hj]

/-- What the step `a` from `s` can lead to. -/
inductive ActiveMove (S : ι → σ → HsmState σ (PostData υ ι)) (size : ι → ℤ)
    (s : ι → ActiveObject σ υ ι) (a : ActiveAct υ ι) : (ι → ActiveObject σ υ ι) → Prop
  | world (i : ι) (u : υ) : a = .world i u →
      ActiveMove S size s a (Function.update s i
        { s i with
          thread :=
            { (s i).thread with user := { (s i).thread.user with user := u } } })
  | outside (j : ι) (r : RawEvent) (l : List RawEvent) : a = .outside j r →
      (s j).queue = some l → (l.length : ℤ) < size j →
      ActiveMove S size s a (setQueue s j (l ++ [r]))
  | handler (i : ι) : a = .handler i → (s i).thread.stack ≠ [] →
      (s i).thread.user.request = none →
      ActiveMove S size s a
        (Function.update s i { s i with thread := stepHandler (S i) (s i).thread })
  | create (i : ι) : a.dispatcher = some i → (s i).pc = .entry → (s i).thread.stack = [] →
      0 < size i →
      ActiveMove S size s a (Function.update s i { s i with pc := .loop, queue := some [] })
  | fail (i : ι) : a.dispatcher = some i → (s i).pc = .entry → (s i).thread.stack = [] →
      ActiveMove S size s a (Function.update s i { s i with pc := .exited })
  | returns (i j : ι) (ret : ℤ) (r : RawEvent) (timeout : UInt32)
      (u : ι → ActiveObject σ υ ι) : a.dispatcher = some i →
      (s i).thread.user.request = some (j, r, timeout) → Sent size j r s u →
      ActiveMove S size s a (postDone ret u i)
  | wait (i j : ι) (r : RawEvent) (timeout : UInt32) (l : List RawEvent) : a = .post i →
      (s i).thread.user.request = some (j, r, timeout) → (s i).waits = false →
      intTimeout timeout ≠ 0 → (s j).queue = some l →
      ActiveMove S size s a (Function.update s i { s i with waits := true })
  | receive (i : ι) (r : RawEvent) (l : List RawEvent) : a.dispatcher = some i →
      (s i).pc = .loop → (s i).thread.stack = [] → (s i).queue = some (r :: l) →
      ActiveMove S size s a
        (Function.update s i { s i with queue := some l, pc := .holding r.bytes })
  | dispatch (i : ι) (msg : List UInt8) : a.dispatcher = some i → (s i).pc = .holding msg →
      ActiveMove S size s a (Function.update s i
        { s i with
          pc := .loop
          thread := dispatchEvent (S i) (readEvent msg) (s i).thread })

/-- **What a step can do.** -/
theorem activeMove (ha : activeEnabled size s a) :
    ActiveMove S size s a (activeNext S size s a) := by
  cases a with
  | world i u => exact .world i u rfl
  | outside j r =>
      simp only [activeEnabled, HasRoom] at ha
      simp only [activeNext]
      split at ha
      · next l hj => exact .outside j r l rfl hj ha
      · exact ha.elim
  | handler i => exact .handler i rfl ha.1 (Option.isNone_iff_eq_none.mp ha.2)
  | createQueue i name structOk bufferOk =>
      simp only [activeNext]
      split
      · next q hq => exact .create i rfl ha.1 ha.2 (osaQueueCreate_ok hq).2.1
      · exact .fail i rfl ha.1 ha.2
  | post i =>
      obtain ⟨⟨j, r, timeout⟩, hreq⟩ := Option.isSome_iff_exists.mp ha.1
      cases hj : (s j).queue with
      | none =>
          simp only [activeNext, hreq, hj]
          exact .returns i j (-1) r timeout s rfl hreq (.inl rfl)
      | some l =>
          simp only [activeNext, hreq, hj, boundedSend]
          by_cases hroom : (l.length : ℤ) < size j
          · rw [if_pos hroom]
            exact .returns i j 0 r timeout _ rfl hreq (.inr ⟨l, hj, hroom, rfl⟩)
          · rw [if_neg hroom]
            by_cases ht : intTimeout timeout = 0
            · rw [if_pos ht]
              exact .returns i j _ r timeout _ rfl hreq (.inl (setQueue_self hj))
            · rw [if_neg ht]
              exact .wait i j r timeout l rfl hreq ha.2 ht hj
  | resume i =>
      obtain ⟨-, ⟨j, r, timeout⟩, hreq, hroom⟩ := ha
      simp only [Option.mem_def] at hreq
      simp only [HasRoom] at hroom
      cases hj : (s j).queue with
      | none => simp [hj] at hroom
      | some l =>
          simp only [activeNext, hreq, hj]
          rw [hj] at hroom
          exact .returns i j 0 r timeout _ rfl hreq (.inr ⟨l, hj, hroom, rfl⟩)
  | expire i =>
      obtain ⟨-, ⟨j, r, timeout⟩, hreq, -⟩ := ha
      exact .returns i j _ r timeout s rfl hreq (.inl rfl)
  | receive i =>
      obtain ⟨hloop, hstack, l, hl, hne⟩ := ha
      obtain ⟨r, l, rfl⟩ := List.exists_cons_of_ne_nil hne
      simp only [Option.mem_def] at hl
      simp only [activeNext, hl]
      exact .receive i r l rfl hloop hstack hl
  | dispatch i =>
      cases hpc : (s i).pc with
      | holding msg =>
          simp only [activeNext, hpc]
          exact .dispatch i msg rfl hpc
      | _ => simp [activeEnabled, hpc, RunPc.hand] at ha

/-! ### The others -/

/-- The dispatcher stays where it is, and its queue is left alone or given one more event that
it has room for. -/
structure Bystander (size : ι → ℤ) (s t : ι → ActiveObject σ υ ι) (i : ι) : Prop where
  place : (t i).place = (s i).place
  queue : (t i).queue = (s i).queue ∨
    ∃ l r, (s i).queue = some l ∧ (l.length : ℤ) < size i ∧ (t i).queue = some (l ++ [r])

omit [DecidableEq ι] in
lemma Bystander.of_eq (h : t i = s i) : Bystander size s t i := ⟨by rw [h], .inl (by rw [h])⟩

lemma Bystander.of_sent {r : RawEvent} (h : Sent size j r s t) : Bystander size s t i := by
  rcases h with rfl | ⟨l, hj, hroom, rfl⟩
  · exact .of_eq rfl
  · by_cases hij : i = j
    · subst hij
      refine ⟨by rw [setQueue, Function.update_self]; rfl, .inr ⟨l, r, hj, hroom, ?_⟩⟩
      rw [setQueue, Function.update_self]
    · exact .of_eq (Function.update_of_ne hij _ _)

/-- **What a step does to the others**: a dispatcher whose step it is not stays where it is, and
its queue is given at most one event. -/
lemma ActiveMove.bystander (h : ActiveMove S size s a t) (hi : a.dispatcher ≠ some i) :
    Bystander size s t i := by
  have hne : ∀ v, a.dispatcher = some v → i ≠ v := fun v hv he => hi (by rw [hv, he])
  cases h with
  | world v u _ =>
      by_cases hiv : i = v
      · subst hiv
        refine ⟨?_, ?_⟩ <;> rw [Function.update_self]
        · rfl
        · exact .inl rfl
      · exact .of_eq (Function.update_of_ne hiv _ _)
  | outside j r l _ hj hroom => exact .of_sent (.inr ⟨l, hj, hroom, rfl⟩)
  | returns v j ret r timeout u hv _ hu =>
      have hb : Bystander size s u i := .of_sent hu
      have heq : postDone ret u v i = u i := Function.update_of_ne (hne v hv) _ _
      exact ⟨by rw [heq]; exact hb.place, by rw [heq]; exact hb.queue⟩
  | handler v ha | wait v j r timeout l ha =>
      exact .of_eq (Function.update_of_ne (hne v (by rw [ha]; rfl)) _ _)
  | create v hv | fail v hv | receive v r l hv | dispatch v msg hv =>
      exact .of_eq (Function.update_of_ne (hne v hv) _ _)

/-! ### Where a dispatcher can be -/

/-- Where a dispatcher can be, for a queue of `n` events. -/
structure ActiveObject.Inv (A : ActiveObject σ υ ι) (n : ℤ) : Prop where
  request : A.thread.user.request ≠ none → A.thread.stack ≠ []
  waits : A.waits = true → A.thread.user.request ≠ none
  hand : A.pc.hand ≠ [] → A.thread.stack = []
  exited : A.pc = .exited → A.thread.stack = []
  created : A.queue = none ↔ A.pc = .entry ∨ A.pc = .exited
  size : A.queue ≠ none → 0 < n

/-- Every dispatcher is where it can be, and one that waits does so for a queue that is
created and with a timeout. -/
structure ActiveInv (size : ι → ℤ) (s : ι → ActiveObject σ υ ι) : Prop where
  own : ∀ i, (s i).Inv (size i)
  target : ∀ i, (s i).waits = true → ∀ p ∈ (s i).thread.user.request,
    (s p.1).queue ≠ none ∧ intTimeout p.2.2 ≠ 0

omit [DecidableEq ι] in
/-- A handler that has asked for a post has not returned. -/
lemma stepHandler_request (T : σ → HsmState σ (PostData υ ι)) (c : HsmThread σ (PostData υ ι))
    (hc : c.user.request = none) (hd : (stepHandler T c).user.request ≠ none) :
    (stepHandler T c).stack ≠ [] := by
  rcases hstack : c.stack with _ | ⟨⟨b, o⟩, rest⟩
  · rw [stepHandler, hstack] at hd
    exact absurd hc hd
  · cases b with
    | act f k => simp [stepHandler, hstack]
    | read k => simp [stepHandler, hstack]
    | ret v =>
        rw [stepHandler, hstack] at hd
        exact absurd hc hd
    | transit u k => simp [stepHandler, hstack, stateTransit, callHandler]
    | super e k =>
        simp only [stepHandler, hstack, stateSuper]
        split <;> simp [callHandler]

section Inv

omit [DecidableEq ι]

/-- A bystander is where it can be. -/
lemma Bystander.inv (h : Bystander size s t i) (hs : (s i).Inv (size i)) :
    (t i).Inv (size i) := by
  have hplace := h.place
  simp only [ActiveObject.place, Prod.mk.injEq] at hplace
  obtain ⟨hstack, hreq, hwaits, hpc⟩ := hplace
  have hqueue : (t i).queue = none ↔ (s i).queue = none := by
    rcases h.queue with hq | ⟨l, r, hq, -, hq'⟩
    · rw [hq]
    · rw [hq, hq']
      simp
  refine ⟨?_, ?_, ?_, ?_, ?_, ?_⟩
  · rw [hreq, hstack]; exact hs.request
  · rw [hreq, hwaits]; exact hs.waits
  · rw [hpc, hstack]; exact hs.hand
  · rw [hpc, hstack]; exact hs.exited
  · rw [hpc, hqueue]; exact hs.created
  · rw [ne_eq, hqueue]; exact hs.size

lemma ActiveObject.Inv.not_waits {A : ActiveObject σ υ ι} {n : ℤ} (h : A.Inv n)
    (hreq : A.thread.user.request = none) : A.waits ≠ true := fun hw => h.waits hw hreq

lemma ActiveObject.Inv.no_request {A : ActiveObject σ υ ι} {n : ℤ} (h : A.Inv n)
    (hstack : A.thread.stack = []) : A.thread.user.request = none := by
  by_contra hreq
  exact h.request hreq hstack

end Inv

/-- A step of its own leaves a dispatcher where it can be. -/
lemma ActiveMove.own (h : ActiveMove S size s a t) (hs : (s i).Inv (size i))
    (hd : a.dispatcher = some i) : (t i).Inv (size i) := by
  cases h with
  | world v u ha => rw [ha] at hd; cases hd
  | outside j r l ha => rw [ha] at hd; cases hd
  | handler v ha hstack hreq =>
      obtain rfl : v = i := by rw [ha] at hd; exact Option.some.inj hd
      rw [Function.update_self]
      exact ⟨stepHandler_request _ _ hreq, fun hw => absurd hw (hs.not_waits hreq),
        fun hhand => absurd (hs.hand hhand) hstack, fun hex => absurd (hs.exited hex) hstack,
        hs.created, hs.size⟩
  | create v hv hpc hstack hsize =>
      obtain rfl := Option.some.inj (hv.symm.trans hd)
      have hreq := hs.no_request hstack
      rw [Function.update_self]
      exact ⟨fun hr => absurd hreq hr, fun hw => absurd hw (hs.not_waits hreq),
        fun _ => hstack, fun hex => (by cases hex), by simp, fun _ => hsize⟩
  | fail v hv hpc hstack =>
      obtain rfl := Option.some.inj (hv.symm.trans hd)
      have hreq := hs.no_request hstack
      rw [Function.update_self]
      exact ⟨fun hr => absurd hreq hr, fun hw => absurd hw (hs.not_waits hreq),
        fun _ => hstack, fun _ => hstack, by simp [hs.created.mpr (.inl hpc)], hs.size⟩
  | returns v k ret r timeout u hv _ hu =>
      obtain rfl := Option.some.inj (hv.symm.trans hd)
      have hu' : (u v).Inv (size v) := (Bystander.of_sent hu).inv hs
      rw [postDone, Function.update_self]
      exact ⟨fun hr => absurd rfl hr, fun hw => (by cases hw), hu'.hand, hu'.exited, hu'.created,
        hu'.size⟩
  | wait v j r timeout l ha hreq _ _ hj =>
      obtain rfl : v = i := by rw [ha] at hd; exact Option.some.inj hd
      rw [Function.update_self]
      exact ⟨hs.request, fun _ => by simp [hreq], hs.hand, hs.exited, hs.created, hs.size⟩
  | receive v r l hv _ hstack hq =>
      obtain rfl := Option.some.inj (hv.symm.trans hd)
      have hreq := hs.no_request hstack
      rw [Function.update_self]
      exact ⟨fun hr => absurd hreq hr, fun hw => absurd hw (hs.not_waits hreq),
        fun _ => hstack, fun hex => (by cases hex), by simp, fun _ => hs.size (by rw [hq]; simp)⟩
  | dispatch v msg hv hpc =>
      obtain rfl := Option.some.inj (hv.symm.trans hd)
      have hreq := hs.no_request (hs.hand (by rw [hpc]; simp [RunPc.hand]))
      have hcreated : (s v).queue ≠ none := fun hq => by simpa [hpc] using hs.created.mp hq
      rw [Function.update_self]
      exact ⟨fun hr => absurd hreq hr, fun hw => absurd hw (hs.not_waits hreq),
        fun hhand => absurd rfl hhand, fun hex => (by cases hex), by simp [hcreated], hs.size⟩

/-- A created queue stays. -/
lemma ActiveMove.created (h : ActiveMove S size s a t) (hs : (s j).Inv (size j))
    (hj : (s j).queue ≠ none) : (t j).queue ≠ none := by
  by_cases hd : a.dispatcher = some j
  swap
  · rcases (h.bystander hd).queue with hq | ⟨l, r, -, -, hq⟩
    · rwa [hq]
    · rw [hq]
      simp
  cases h with
  | world v u ha => rw [ha] at hd; cases hd
  | outside j r l ha => rw [ha] at hd; cases hd
  | handler v ha | wait v k r timeout l ha =>
      obtain rfl : v = j := by rw [ha] at hd; exact Option.some.inj hd
      rw [Function.update_self]
      exact hj
  | create v hv | receive v r l hv =>
      obtain rfl := Option.some.inj (hv.symm.trans hd)
      rw [Function.update_self]
      simp
  | fail v hv | dispatch v msg hv =>
      obtain rfl := Option.some.inj (hv.symm.trans hd)
      rw [Function.update_self]
      exact hj
  | returns v k ret r timeout u hv _ hu =>
      obtain rfl := Option.some.inj (hv.symm.trans hd)
      rw [postDone, Function.update_self]
      rcases (Bystander.of_sent (i := v) hu).queue with hq | ⟨l, r, -, -, hq⟩
      · show (u v).queue ≠ none
        rwa [hq]
      · show (u v).queue ≠ none
        rw [hq]
        simp

/-- A dispatcher that waits after its step has come to a wait in it. -/
lemma ActiveMove.waits (h : ActiveMove S size s a t) (hs : (s i).Inv (size i))
    (hd : a.dispatcher = some i) (hw : (t i).waits = true) :
    ∃ j r timeout l, a = .post i ∧ (s i).thread.user.request = some (j, r, timeout) ∧
      intTimeout timeout ≠ 0 ∧ (s j).queue = some l ∧
      (t i).thread.user.request = some (j, r, timeout) := by
  cases h with
  | world v u ha => rw [ha] at hd; cases hd
  | outside j r l ha => rw [ha] at hd; cases hd
  | wait v j r timeout l ha hreq _ ht hj =>
      obtain rfl : v = i := by rw [ha] at hd; exact Option.some.inj hd
      refine ⟨j, r, timeout, l, ha, hreq, ht, hj, ?_⟩
      rw [Function.update_self]
      exact hreq
  | handler v ha _ hreq =>
      obtain rfl : v = i := by rw [ha] at hd; exact Option.some.inj hd
      rw [Function.update_self] at hw
      exact absurd hw (hs.not_waits hreq)
  | create v hv _ hstack | fail v hv _ hstack | receive v r l hv _ hstack =>
      obtain rfl := Option.some.inj (hv.symm.trans hd)
      rw [Function.update_self] at hw
      exact absurd hw (hs.not_waits (hs.no_request hstack))
  | dispatch v msg hv hpc =>
      obtain rfl := Option.some.inj (hv.symm.trans hd)
      rw [Function.update_self] at hw
      have hstack := hs.hand (by rw [hpc]; simp [RunPc.hand])
      exact absurd hw (hs.not_waits (hs.no_request hstack))
  | returns v k ret r timeout u hv _ hu =>
      obtain rfl := Option.some.inj (hv.symm.trans hd)
      rw [postDone, Function.update_self] at hw
      cases hw

/-- **Every step keeps the dispatchers where they can be.** -/
lemma ActiveInv.step (h : ActiveInv size s) (ha : activeEnabled size s a) :
    ActiveInv size (activeNext S size s a) := by
  have hm := activeMove (S := S) ha
  refine ⟨fun i => ?_, fun i hw p hp => ?_⟩
  · by_cases hd : a.dispatcher = some i
    · exact hm.own (h.own i) hd
    · exact (hm.bystander hd).inv (h.own i)
  · have hold : (s p.1).queue ≠ none ∧ intTimeout p.2.2 ≠ 0 := by
      by_cases hd : a.dispatcher = some i
      · obtain ⟨j, r, timeout, l, -, -, ht, hj, hreq⟩ := hm.waits (h.own i) hd hw
        obtain rfl : (j, r, timeout) = p := Option.some.inj (hreq.symm.trans hp)
        exact ⟨by rw [hj]; simp, ht⟩
      · have hplace := (hm.bystander hd).place
        simp only [ActiveObject.place, Prod.mk.injEq] at hplace
        obtain ⟨-, hreq, hwaits, -⟩ := hplace
        exact h.target i (hwaits ▸ hw) p (hreq ▸ hp)
    exact ⟨hm.created (h.own p.1) hold.1, hold.2⟩

lemma ActiveInv.initial {init : ι → σ} (hs : (activeSystem S size init).init s) :
    ActiveInv size s := by
  obtain ⟨u, rfl⟩ := hs
  refine ⟨fun i => ⟨fun h => absurd rfl h, fun h => (by cases h), fun h => absurd rfl h,
    fun h => (by cases h), by simp, fun h => absurd rfl h⟩, fun i h => (by cases h)⟩

lemma ActiveInv.of_reachable {init : ι → σ} (hs : (activeSystem S size init).Reachable s) :
    ActiveInv size s :=
  hs.invariant (fun _ => ActiveInv.initial) fun _ _ h ha => h.step ha

/-! ### Waiting -/

/-- The queue of `j` is created and full. -/
def IsFull (size : ι → ℤ) (s : ι → ActiveObject σ υ ι) (j : ι) : Prop :=
  match (s j).queue with
  | some l => size j ≤ l.length
  | none => False

omit [DecidableEq ι] in
instance (s : ι → ActiveObject σ υ ι) (j : ι) : Decidable (IsFull size s j) :=
  match h : (s j).queue with
  | some l => decidable_of_iff (size j ≤ l.length) (by rw [IsFull, h])
  | none => isFalse (by rw [IsFull, h]; exact id)

/-- The machine that a dispatcher waits for: it is in a post without end to a machine whose
queue is full. -/
def waitsOn (size : ι → ℤ) (s : ι → ActiveObject σ υ ι) (i : ι) : Option ι :=
  match (s i).thread.user.request with
  | some (j, _, timeout) =>
      if (s i).waits = true ∧ intTimeout timeout < 0 ∧ IsFull size s j then some j else none
  | none => none

/-- The dispatcher has no event, or has exited because its queue could not be created. -/
def IsIdle (A : ActiveObject σ υ ι) : Prop :=
  A.thread.stack = [] ∧ (A.pc = .exited ∨ A.pc = .loop ∧ A.queue = some [])

omit [DecidableEq ι] in
instance (A : ActiveObject σ υ ι) : Decidable (IsIdle A) :=
  inferInstanceAs (Decidable (_ ∧ (_ ∨ _ ∧ _)))

section Waiting

omit [DecidableEq ι]

lemma waitsOn_iff : WaitsOn (waitsOn size s) i j ↔
    (s i).waits = true ∧ (∃ r timeout, (s i).thread.user.request = some (j, r, timeout) ∧
      intTimeout timeout < 0) ∧ IsFull size s j := by
  rw [WaitsOn, waitsOn]
  split
  · next k r timeout hreq =>
      rw [Option.ite_none_right_eq_some, Option.some.injEq, hreq]
      constructor
      · rintro ⟨⟨hw, ht, hfull⟩, rfl⟩
        exact ⟨hw, ⟨r, timeout, rfl, ht⟩, hfull⟩
      · rintro ⟨hw, ⟨r', timeout', heq, ht⟩, hfull⟩
        obtain ⟨rfl, rfl, rfl⟩ : k = j ∧ r = r' ∧ timeout = timeout' := by simpa using heq
        exact ⟨⟨hw, ht, hfull⟩, rfl⟩
  · next hreq => simp [hreq]

lemma not_hasRoom_of_isFull (h : IsFull size s j) : ¬ HasRoom size s j := by
  rw [IsFull] at h
  rw [HasRoom]
  split at h
  · next l hl => exact not_lt.mpr h
  · exact h.elim

lemma isFull_of_not_hasRoom (hj : (s j).queue ≠ none) (h : ¬ HasRoom size s j) :
    IsFull size s j := by
  obtain ⟨l, hl⟩ := Option.ne_none_iff_exists'.mp hj
  rw [HasRoom, hl] at h
  rw [IsFull, hl]
  exact not_lt.mp h

/-- A dispatcher that waits for another one cannot take a step. -/
lemma ActiveInv.stuck (h : ActiveInv size s) (hij : WaitsOn (waitsOn size s) i j)
    (hd : a.dispatcher = some i) : ¬ activeEnabled size s a := by
  obtain ⟨hw, ⟨r, timeout, hreq, ht⟩, hfull⟩ := waitsOn_iff.mp hij
  have hi := h.own i
  have hstack : (s i).thread.stack ≠ [] := hi.request (by simp [hreq])
  intro ha
  cases a with
  | world v u | outside v r => cases hd
  | handler v =>
      obtain rfl := Option.some.inj hd
      simp [activeEnabled, hreq] at ha
  | createQueue v name structOk bufferOk =>
      obtain rfl := Option.some.inj hd
      exact hstack ha.2
  | post v =>
      obtain rfl := Option.some.inj hd
      simp [activeEnabled, hw] at ha
  | resume v =>
      obtain rfl := Option.some.inj hd
      obtain ⟨-, p, hp, hroom⟩ := ha
      obtain rfl : (j, r, timeout) = p := Option.some.inj (hreq.symm.trans hp)
      exact not_hasRoom_of_isFull hfull hroom
  | expire v =>
      obtain rfl := Option.some.inj hd
      obtain ⟨-, p, hp, hpos⟩ := ha
      obtain rfl : (j, r, timeout) = p := Option.some.inj (hreq.symm.trans hp)
      exact absurd hpos (not_lt.mpr ht.le)
  | receive v =>
      obtain rfl := Option.some.inj hd
      exact hstack ha.2.1
  | dispatch v =>
      obtain rfl := Option.some.inj hd
      exact hstack (hi.hand ha)

/-- An idle dispatcher cannot take a step. -/
lemma ActiveInv.idle (h : ActiveInv size s) (hidle : IsIdle (s i)) (hd : a.dispatcher = some i) :
    ¬ activeEnabled size s a := by
  obtain ⟨hstack, hpc⟩ := hidle
  have hreq := (h.own i).no_request hstack
  have hw := (h.own i).not_waits hreq
  intro ha
  cases a with
  | world v u | outside v r => cases hd
  | handler v =>
      obtain rfl := Option.some.inj hd
      exact ha.1 hstack
  | createQueue v name structOk bufferOk =>
      obtain rfl := Option.some.inj hd
      rcases hpc with hpc | ⟨hpc, -⟩ <;> simp [activeEnabled, hpc] at ha
  | post v =>
      obtain rfl := Option.some.inj hd
      simp [activeEnabled, hreq] at ha
  | resume v | expire v =>
      obtain rfl := Option.some.inj hd
      exact hw ha.1
  | receive v =>
      obtain rfl := Option.some.inj hd
      obtain ⟨hloop, -, l, hl, hne⟩ := ha
      rcases hpc with hpc | ⟨-, hq⟩
      · rw [hloop] at hpc
        cases hpc
      · exact hne (Option.some.inj (hl.symm.trans hq))
  | dispatch v =>
      obtain rfl := Option.some.inj hd
      rcases hpc with hpc | ⟨hpc, -⟩ <;> simp [activeEnabled, hpc, RunPc.hand] at ha

/-- A dispatcher that cannot take a step is idle or waits for another one. -/
lemma ActiveInv.idle_or_waits (h : ActiveInv size s)
    (hi : ∀ a : ActiveAct υ ι, a.dispatcher = some i → ¬ activeEnabled size s a) :
    IsIdle (s i) ∨ ∃ j, WaitsOn (waitsOn size s) i j := by
  by_cases hstack : (s i).thread.stack = []
  · refine .inl ⟨hstack, ?_⟩
    cases hpc : (s i).pc with
    | entry => exact absurd ⟨hpc, hstack⟩ (hi (.createQueue i [] true true) rfl)
    | exited => exact .inl rfl
    | holding msg => exact absurd (by simp [activeEnabled, hpc, RunPc.hand]) (hi (.dispatch i) rfl)
    | loop =>
        refine .inr ⟨rfl, ?_⟩
        have hcreated : (s i).queue ≠ none := fun hq => by simpa [hpc] using (h.own i).created.mp hq
        obtain ⟨l, hl⟩ := Option.ne_none_iff_exists'.mp hcreated
        by_contra hne
        refine hi (.receive i) rfl ⟨hpc, hstack, l, hl, ?_⟩
        rintro rfl
        exact hne hl
  · right
    have hreq : (s i).thread.user.request ≠ none := fun hreq =>
      hi (.handler i) rfl ⟨hstack, by rw [hreq]; rfl⟩
    obtain ⟨⟨j, r, timeout⟩, hreq⟩ := Option.ne_none_iff_exists'.mp hreq
    have hw : (s i).waits = true := by
      by_contra hw
      exact hi (.post i) rfl ⟨by rw [hreq]; rfl, by simpa using hw⟩
    obtain ⟨hcreated, hne⟩ := h.target i hw _ hreq
    have hroom : ¬ HasRoom size s j := fun hroom =>
      hi (.resume i) rfl ⟨hw, _, hreq, hroom⟩
    have hforever : intTimeout timeout < 0 := by
      refine lt_of_le_of_ne (not_lt.mp fun hpos => ?_) hne
      exact hi (.expire i) rfl ⟨hw, _, hreq, hpos⟩
    exact ⟨j, waitsOn_iff.mpr ⟨hw, ⟨r, timeout, hreq, hforever⟩,
      isFull_of_not_hasRoom hcreated hroom⟩⟩

end Waiting

/-! ### Deadlock -/

/-- A step of some dispatcher. -/
def ActiveAct.byDispatcher (a : ActiveAct υ ι) : Prop := a.dispatcher ≠ none

omit [DecidableEq ι] in
/-- One that waits for a machine does not wait for an idle one. -/
lemma ActiveInv.waits_next (h : ActiveInv size s)
    (hrest : ∀ a : ActiveAct υ ι, a.byDispatcher → ¬ activeEnabled size s a)
    (hij : WaitsOn (waitsOn size s) i j) : ∃ k, WaitsOn (waitsOn size s) j k := by
  refine (h.idle_or_waits fun a ha =>
    hrest a (by rw [ActiveAct.byDispatcher, ha]; simp)).resolve_left
    fun hidle => ?_
  obtain ⟨-, -, hfull⟩ := waitsOn_iff.mp hij
  have hj := h.own j
  rcases hidle.2 with hpc | ⟨-, hq⟩
  · have hnone := hj.created.mpr (.inr hpc)
    simp [IsFull, hnone] at hfull
  · have hpos := hj.size (by rw [hq]; simp)
    rw [IsFull, hq] at hfull
    simp only [List.length_nil] at hfull
    omega

omit [DecidableEq ι] in
/-- **At rest everyone is idle or doomed.** -/
lemma ActiveInv.atRest_iff [Finite ι] (h : ActiveInv size s) :
    (∀ a : ActiveAct υ ι, a.byDispatcher → ¬ activeEnabled size s a) ↔
      ∀ i, IsIdle (s i) ∨ Doomed (waitsOn size s) i := by
  constructor
  · intro hrest i
    refine (h.idle_or_waits fun a ha =>
      hrest a (by rw [ActiveAct.byDispatcher, ha]; simp)).imp_right
      fun ⟨j, hij⟩ => ?_
    -- nobody on the way waits for nobody
    refine (end_or_cycle (waitsOn size s) i).resolve_left ?_
    rintro ⟨k, hik, hk⟩
    have hwaits : ∃ l, WaitsOn (waitsOn size s) k l := by
      induction hik with
      | refl => exact ⟨j, hij⟩
      | tail _ hstep _ => exact h.waits_next hrest hstep
    obtain ⟨l, hl⟩ := hwaits
    rw [WaitsOn, hk] at hl
    cases hl
  · intro hall a hact ha
    obtain ⟨i, hi⟩ := Option.ne_none_iff_exists'.mp hact
    rcases hall i with hidle | hdoomed
    · exact h.idle hidle hi ha
    · obtain ⟨j, hij, -⟩ := hdoomed.next
      exact h.stuck hij hi ha

/-- A doomed dispatcher stays where it is, and a full queue of its stays as it is. -/
def Frozen (size : ι → ℤ) (s t : ι → ActiveObject σ υ ι) : Prop :=
  ∀ i, Doomed (waitsOn size s) i →
    (t i).place = (s i).place ∧ (IsFull size s i → (t i).queue = (s i).queue)

omit [DecidableEq ι] in
/-- Then it waits for the same machine. -/
lemma Frozen.waitsOn_eq (h : Frozen size s t) (hi : Doomed (waitsOn size s) i) :
    waitsOn size t i = waitsOn size s i := by
  obtain ⟨j, hij, hj⟩ := hi.next
  obtain ⟨hw, ⟨r, timeout, hreq, ht⟩, hfull⟩ := waitsOn_iff.mp hij
  have hplace := (h i hi).1
  simp only [ActiveObject.place, Prod.mk.injEq] at hplace
  obtain ⟨-, hreq', hw', -⟩ := hplace
  have hfull' : IsFull size t j := by
    rw [IsFull, (h j hj).2 hfull]
    exact hfull
  exact (waitsOn_iff.mpr ⟨hw'.trans hw, ⟨r, timeout, hreq'.trans hreq, ht⟩, hfull'⟩).trans hij.symm

/-- The step of another thread or dispatcher leaves the doomed ones alone. -/
lemma Frozen.step (h : Frozen size s t) (ht : ActiveInv size t)
    (ha : activeEnabled size t a) : Frozen size s (activeNext S size t a) := by
  intro i hi
  have hdt : Doomed (waitsOn size t) i := hi.mono fun k hk => h.waitsOn_eq hk
  obtain ⟨j, hij, -⟩ := hdt.next
  have hother := (activeMove (S := S) ha).bystander fun hd => ht.stuck hij hd ha
  obtain ⟨hplace, hqueue⟩ := h i hi
  refine ⟨hother.place.trans hplace, fun hfull => ?_⟩
  rcases hother.queue with hq | ⟨l, r, hl, hroom, -⟩
  · exact hq.trans (hqueue hfull)
  · rw [hqueue hfull] at hl
    rw [IsFull, hl] at hfull
    omega

/-- What a deadlock is, in a state `s`. -/
structure DeadlockExact (S : ι → σ → HsmState σ (PostData υ ι)) (size : ι → ℤ) (init : ι → σ)
    (s : ι → ActiveObject σ υ ι) : Prop where
  /-- The dispatchers have come to rest where each is idle or its waits lead to a cycle. -/
  rest : (activeSystem S size init).AtRest ActiveAct.byDispatcher s ↔
    ∀ i, IsIdle (s i) ∨ Doomed (waitsOn size s) i
  /-- A dispatcher whose waits lead to a cycle never takes a step again. -/
  forever : ∀ i, Doomed (waitsOn size s) i → ∀ l t,
    (activeSystem S size init).RunFrom s l t →
      Doomed (waitsOn size t) i ∧ ∀ p ∈ l, p.2.dispatcher ≠ some i

/-- Two machines whose handlers, on an event that is not an entry, post it to the other one,
with a timeout of their own or not at all. -/
def passOn (timeout : Fin 2 → Option UInt32) (i : Fin 2) :
    Unit → HsmState Unit (PostData Unit (Fin 2)) :=
  fun _ =>
    { parent := none
      handler := fun e => match timeout i with
        | some t =>
            if e.signal = hsmSigEntry then .ret 0 else postTo i.rev e.raw t fun _ => .ret 0
        | none => .ret 0 }

/-- The two machines with queues for one event. -/
def pairSystem (timeout : Fin 2 → Option UInt32) :
    System (Fin 2 → ActiveObject Unit Unit (Fin 2)) (ActiveAct Unit (Fin 2)) :=
  activeSystem (passOn timeout) (fun _ => 1) fun _ => ()

instance (timeout : Fin 2 → Option UInt32) (s : Fin 2 → ActiveObject Unit Unit (Fin 2))
    (a : ActiveAct Unit (Fin 2)) : Decidable ((pairSystem timeout).enabled s a) :=
  inferInstanceAs (Decidable (activeEnabled _ s a))

/-- The start of both. -/
def twoMachines (timeout : Fin 2 → Option UInt32) (i : Fin 2) : ActiveObject Unit Unit (Fin 2) :=
  ⟨startThread (passOn timeout i) () ⟨(), none, 0⟩, .entry, false, none⟩

lemma twoMachines_init (timeout : Fin 2 → Option UInt32) :
    (pairSystem timeout).init (twoMachines timeout) := ⟨fun _ => (), rfl⟩

/-- The first event of a user. -/
def firstUserEvent : RawEvent := HsmEvent.raw ⟨hsmUserSig, none, 0⟩

/-- The dispatchers of both have an event in hand and another one in the queue. -/
def pairRun (i j : Fin 2) : List (ActiveAct Unit (Fin 2)) :=
  [.handler i, .handler j, .createQueue i [] true true, .createQueue j [] true true,
    .outside i firstUserEvent, .outside j firstUserEvent, .receive i, .receive j,
    .outside i firstUserEvent, .outside j firstUserEvent, .dispatch i, .dispatch j, .handler i,
    .handler j, .post i]

section Ranked

variable {R : Type*} [Preorder R] {rank : ι → R}

/-- A post without end goes to a machine of lower rank. -/
def PostsDown (rank : ι → R) (s : ι → ActiveObject σ υ ι) : ActiveAct υ ι → Prop
  | .post i => ∀ p ∈ (s i).thread.user.request, intTimeout p.2.2 < 0 → rank p.1 < rank i
  | _ => True

instance [DecidableLT R] (s : ι → ActiveObject σ υ ι) (a : ActiveAct υ ι) :
    Decidable (PostsDown rank s a) := by
  induction a using ActiveAct.casesOn <;> (dsimp only [PostsDown]; infer_instance)

/-- Who waits without end waits for a machine of lower rank. -/
def WaitsDown (rank : ι → R) (s : ι → ActiveObject σ υ ι) : Prop :=
  ∀ i, (s i).waits = true → ∀ p ∈ (s i).thread.user.request, intTimeout p.2.2 < 0 →
    rank p.1 < rank i

lemma WaitsDown.step (h : WaitsDown rank s) (hinv : ActiveInv size s)
    (ha : activeEnabled size s a) (hdown : PostsDown rank s a) :
    WaitsDown rank (activeNext S size s a) := by
  intro i hw p hp
  have hm := activeMove (S := S) ha
  by_cases hd : a.dispatcher = some i
  · obtain ⟨j, r, timeout, l, rfl, hreq, -, -, hreq'⟩ := hm.waits (hinv.own i) hd hw
    obtain rfl : (j, r, timeout) = p := Option.some.inj (hreq'.symm.trans hp)
    exact hdown _ hreq
  · have hplace := (hm.bystander hd).place
    simp only [ActiveObject.place, Prod.mk.injEq] at hplace
    obtain ⟨-, hreq, hwaits, -⟩ := hplace
    exact h i (hwaits ▸ hw) p (hreq ▸ hp)

/-- If posts without end go down in rank, no waits lead to a cycle. -/
lemma not_doomed_of_postsDown {init : ι → σ}
    (hs : ((activeSystem S size init).restrict (PostsDown rank)).Reachable s) (i : ι) :
    ¬ Doomed (waitsOn size s) i := by
  obtain ⟨-, hdown⟩ : ActiveInv size s ∧ WaitsDown rank s := by
    refine hs.invariant (P := fun s => ActiveInv size s ∧ WaitsDown rank s) ?_ ?_
    · intro u hu
      refine ⟨.initial hu, ?_⟩
      obtain ⟨v, rfl⟩ := hu
      rintro i ⟨⟩
    · rintro u a ⟨hinv, hdown⟩ ⟨ha, hpost⟩
      exact ⟨hinv.step ha, hdown.step hinv ha hpost⟩
  have hrank : ∀ i j, WaitsOn (waitsOn size s) i j → rank j < rank i := by
    intro i j hij
    obtain ⟨hw, ⟨r, timeout, hreq, ht⟩, -⟩ := waitsOn_iff.mp hij
    exact hdown i hw _ hreq ht
  exact not_doomed_of_rank hrank i

end Ranked

/-- `pairRun` to its end, if `j` posts nothing. -/
def oneWayRun (i j : Fin 2) : List (ActiveAct Unit (Fin 2)) :=
  pairRun i j ++ [.receive j, .dispatch j, .resume i, .handler j, .receive j, .dispatch j,
    .handler j, .handler i, .handler i, .receive i, .dispatch i, .handler i, .post i,
    .handler i, .handler i, .receive j, .dispatch j, .handler j]

end OpenHsm
