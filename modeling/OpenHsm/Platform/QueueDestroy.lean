import OpenHsm.Platform.QueueFifo
import OpenHsm.Platform.QueueWakeup

/-!
Destroying the message queue under threads that wait in it.  `osa_queue_destroy` closes the
queue and unblocks them in one critical section, and gives everything back without waiting for
them to take the mutex again.

* `QueuePart`, `releaseOrder`, `closeQueue`, `DestroySys`, `destroySystem`: the critical section,
  the releases that follow, and the threads on their way out.
* `queueUses`, `QueueAct.relocks`, `outcome`: what a step of a thread reads or writes, who makes
  it, and what its call returns.
* `SafeRun`: no thread uses what was released, and the calls that waited return as they should.
* `DestroyInv`, `destroyInv_step`: as long as the releases come last, the threads are as the
  broadcasts left them, or gone.
* `queue_destroy_safe_iff`: every order of the steps is safe exactly if no thread is in a call,
  and a run is safe if its releases come last.  `freed_queue_is_locked` is a receiver that takes
  the mutex of a queue that was freed.
-/

namespace OpenHsm

open Runs

variable {k : ℕ}

/-! ### The system -/

/-- What `osa_queue_destroy` gives back; the conditions and the mutex lie in the structure. -/
inductive QueuePart where
  | condSend | condRecv | mutex | buffer | impl
  deriving DecidableEq, Repr

/-- The order in which it does, lines 106 to 111. -/
def releaseOrder : List QueuePart := [.condSend, .condRecv, .mutex, .buffer, .impl]

/-- The threads blocked on a condition. -/
def blockedOn (pc : Fin k → CallPc) (c : Cond) : Finset (Fin k) :=
  Finset.univ.filter fun i => (pc i).At c .blocked

/-- `pthread_cond_broadcast`. -/
def broadcast (pc : Fin k → CallPc) (c : Cond) : Fin k → CallPc := unblock pc (blockedOn pc c)

/-- Lines 98 to 103, the critical section: the queue is closed and everybody unblocked. -/
def closeQueue (s : QueueSys k) : QueueSys k :=
  { s with
    queue := { s.queue with closed := true }
    pc := broadcast (broadcast s.pc .condSend) .condRecv }

/-- The queue and its threads from the critical section on, with the number of releases. -/
structure DestroySys (k : ℕ) where
  sys : QueueSys k
  released : ℕ

/-- What was released. -/
def DestroySys.gone (s : DestroySys k) : List QueuePart := releaseOrder.take s.released

/-- `osa_queue_destroy`, to the end of its critical section. -/
def osaQueueDestroy : Option (QueueSys k) → Except ℤ (DestroySys k)
  | none => .error (-eINVAL)
  | some s => .ok ⟨closeQueue s, 0⟩

/-- One step: of a thread that is in a call, or the next release. -/
inductive DestroyAct (k : ℕ) where
  | thread (a : QueueAct k)
  | release
  deriving DecidableEq

/-- The step goes on with a call that was made before. -/
def QueueAct.continues : QueueAct k → Bool
  | .send _ _ _ _ _ | .receive _ _ _ _ _ => false
  | .resume _ _ | .wakeUp _ | .expire _ | .leave _ => true

/-- When a step can be taken. -/
def destroyEnabled (s : DestroySys k) : DestroyAct k → Prop
  | .thread a => a.continues = true ∧ queueEnabled s.sys a
  | .release => s.released < releaseOrder.length

/-- The effect of a step. -/
def destroyNext (s : DestroySys k) : DestroyAct k → DestroySys k
  | .thread a => { s with sys := queueNext s.sys a }
  | .release => { s with released := s.released + 1 }

/-- The threads and the rest of `osa_queue_destroy`, in any order. -/
def destroySystem (k : ℕ) : System (DestroySys k) (DestroyAct k) where
  init u := ∃ s, (queueSystem k).Reachable s ∧ osaQueueDestroy (some s) = .ok u
  enabled := destroyEnabled
  next := destroyNext

instance (s : DestroySys k) (a : DestroyAct k) : Decidable ((destroySystem k).enabled s a) :=
  match a with
  | .thread a => inferInstanceAs (Decidable (a.continues = true ∧ queueEnabled s.sys a))
  | .release => inferInstanceAs (Decidable (s.released < releaseOrder.length))

/-- What a segment uses besides the mutex and the structure: the condition `own` it waits on, or
the buffer and the condition `other` it signals. -/
def segmentUses (own other : QueuePart) : Option ℤ → List QueuePart
  | none => [own]
  | some ret => if ret = 0 then [.buffer, other] else []

/-- What a step of a thread reads or writes.  A thread that leaves a condition wait takes the
mutex again. -/
def queueUses (s : QueueSys k) : QueueAct k → List QueuePart
  | .send _ msg msgLen timeoutMs _ => [.mutex, .impl] ++
      segmentUses .condSend .condRecv ((sendEnter s.queue msg msgLen timeoutMs).map Prod.fst)
  | .receive _ haveMsg msgLen timeoutMs _ => [.mutex, .impl] ++
      segmentUses .condRecv .condSend
        ((receiveEnter s.queue haveMsg msgLen timeoutMs).map Prod.fst)
  | .resume i _ => match s.pc i with
      | .idle => []
      | .sending msg _ _ => [.mutex, .impl] ++
          segmentUses .condSend .condRecv ((sendResume s.queue msg).map Prod.fst)
      | .receiving _ _ => [.mutex, .impl] ++
          segmentUses .condRecv .condSend ((receiveResume s.queue).map Prod.fst)
  | .leave _ => [.mutex, .impl]
  | .wakeUp _ | .expire _ => []

/-- The thread that comes out of a condition wait with the step. -/
def QueueAct.relocks : QueueAct k → Option (Fin k)
  | .resume i _ | .leave i => some i
  | .send _ _ _ _ _ | .receive _ _ _ _ _ | .wakeUp _ | .expire _ => none

/-- What the call of that thread returns, with the message of a receive. -/
def outcome (s : QueueSys k) : QueueAct k → Option (ℤ × List UInt8)
  | .resume i _ => match s.pc i with
      | .idle => none
      | .sending msg _ _ => (sendResume s.queue msg).map fun r => (r.1, [])
      | .receiving _ _ => (receiveResume s.queue).map fun r => (r.1, r.2.1)
  | .leave _ => some (-eTIMEDOUT, [])
  | .send _ _ _ _ _ | .receive _ _ _ _ _ | .wakeUp _ | .expire _ => none

/-- In the run from the call of `osa_queue_destroy` in `s`, no thread uses what was released,
and whoever was blocked returns: a sender `-EPIPE`, a receiver the oldest message that is left
or `-EPIPE`. -/
structure SafeRun (s : QueueSys k) (l : List (DestroySys k × DestroyAct k)) : Prop where
  untouched : ∀ u a, (u, .thread a) ∈ l → ∀ x ∈ queueUses u.sys a, x ∉ u.gone
  sender : ∀ u a, (u, .thread a) ∈ l → ∀ i ∈ a.relocks, (s.pc i).At .condSend .blocked →
    outcome u.sys a = some (-ePIPE, [])
  receiver : ∀ u a, (u, .thread a) ∈ l → ∀ i ∈ a.relocks, (s.pc i).At .condRecv .blocked →
    outcome u.sys a = some (-ePIPE, []) ∨
      ∃ msg ∈ (content u.sys.log).head?, outcome u.sys a = some (0, msg)

/-- A release comes when no thread is in a call any more, and no timed wait ends with
`ETIMEDOUT`. -/
def LastOut (u : DestroySys k) : DestroyAct k → Prop
  | .release => ∀ i, u.sys.pc i = .idle
  | .thread (.expire _) => False
  | .thread _ => True

/-! ### The threads after the broadcasts -/

lemma broadcast_apply (pc : Fin k → CallPc) (c : Cond) (i : Fin k) :
    broadcast pc c i = if (pc i).At c .blocked then (pc i).moveTo .woken else pc i := by
  simp [broadcast, unblock, blockedOn]

/-- The threads after the critical section: those that were blocked are unblocked. -/
lemma closeQueue_pc (s : QueueSys k) (i : Fin k) :
    (closeQueue s).pc i
      = if (s.pc i).At .condSend .blocked ∨ (s.pc i).At .condRecv .blocked
        then (s.pc i).moveTo .woken else s.pc i := by
  show broadcast (broadcast s.pc .condSend) .condRecv i = _
  rw [broadcast_apply, broadcast_apply]
  cases hi : s.pc i with
  | idle => simp
  | sending msg t p => cases p <;> simp [CallPc.moveTo]
  | receiving t p => cases p <;> simp [CallPc.moveTo]

lemma closeQueue_idle_iff (s : QueueSys k) (i : Fin k) :
    (closeQueue s).pc i = .idle ↔ s.pc i = .idle := by
  rw [closeQueue_pc]
  cases hi : s.pc i with
  | idle => simp
  | sending msg t p => split <;> simp [CallPc.moveTo]
  | receiving t p => split <;> simp [CallPc.moveTo]

lemma closeQueue_not_blocked (s : QueueSys k) (i : Fin k) (c : Cond) :
    ¬ ((closeQueue s).pc i).At c .blocked := by
  rw [closeQueue_pc]
  split
  · simp [at_moveTo]
  · next h =>
      intro hb
      cases c with
      | condSend => exact h (Or.inl hb)
      | condRecv => exact h (Or.inr hb)

/-- A sender that was blocked is about to look again. -/
lemma closeQueue_of_sender {s : QueueSys k} {i : Fin k} (h : (s.pc i).At .condSend .blocked) :
    ∃ msg t, (closeQueue s).pc i = .sending msg t .woken := by
  rw [closeQueue_pc, if_pos (Or.inl h)]
  cases hi : s.pc i with
  | idle => simp [hi] at h
  | sending msg t p => exact ⟨msg, t, rfl⟩
  | receiving t p => simp [hi] at h

lemma closeQueue_of_receiver {s : QueueSys k} {i : Fin k} (h : (s.pc i).At .condRecv .blocked) :
    ∃ t, (closeQueue s).pc i = .receiving t .woken := by
  rw [closeQueue_pc, if_pos (Or.inr h)]
  cases hi : s.pc i with
  | idle => simp [hi] at h
  | sending msg t p => simp [hi] at h
  | receiving t p => exact ⟨t, rfl⟩

/-! ### Releases that come last -/

/-- The queue is closed, the threads are as after the broadcasts or gone, and all gone once
something is released. -/
structure DestroyInv (s : QueueSys k) (u : DestroySys k) : Prop where
  closed : u.sys.queue.closed = true
  fifo : FifoInv u.sys
  threads : ∀ i, u.sys.pc i = .idle ∨ u.sys.pc i = (closeQueue s).pc i
  last : u.released ≠ 0 → ∀ i, u.sys.pc i = .idle

lemma DestroyInv.not_blocked {s : QueueSys k} {u : DestroySys k} (h : DestroyInv s u) (i : Fin k)
    (c : Cond) : ¬ (u.sys.pc i).At c .blocked := by
  rcases h.threads i with hi | hi
  · rw [hi]
    exact not_at_idle c .blocked
  · rw [hi]
    exact closeQueue_not_blocked s i c

/-- There is nobody that a signal could unblock. -/
lemma DestroyInv.wake_eq {s : QueueSys k} {u : DestroySys k} (h : DestroyInv s u) {c : Cond}
    {wake : Finset (Fin k)} {r : Option ℤ} (hw : SignalsIf u.sys.pc c wake r) : wake = ∅ := by
  cases r with
  | none => exact hw
  | some ret =>
      simp only [SignalsIf] at hw
      split at hw
      · exact Finset.eq_empty_of_forall_notMem fun i hi => h.not_blocked i c (hw.1 i hi)
      · exact hw

/-- A sender that looks again finds the queue closed. -/
lemma sendResume_closed {q : OsaQueue} (h : q.closed = true) (msg : List UInt8) :
    sendResume q msg = some (-ePIPE, q) := by
  rcases sendResume_cases q msg with ⟨ho, -⟩ | ⟨-, hr⟩ | ⟨ho, -⟩
  · exact absurd (ho.symm.trans h) (by simp)
  · exact hr
  · exact absurd (ho.symm.trans h) (by simp)

/-- A receiver that looks again finds it closed and empty, or takes the message at `head`. -/
lemma receiveResume_closed {q : OsaQueue} (h : q.closed = true) :
    (q.count = 0 ∧ receiveResume q = some (-ePIPE, [], q)) ∨
      (q.count ≠ 0 ∧ receiveResume q = some (0, frontMessage q, dropMessage q)) := by
  rcases receiveResume_cases q with ⟨ho, -⟩ | ⟨-, hc, hr⟩ | ⟨hc, hr⟩
  · exact absurd (ho.symm.trans h) (by simp)
  · exact Or.inl ⟨hc, hr⟩
  · exact Or.inr ⟨hc, hr⟩

/-- **The thread that takes the mutex again returns**, and the others stay where they are. -/
lemma DestroyInv.resume {s : QueueSys k} {u : DestroySys k} (h : DestroyInv s u) {i : Fin k}
    {wake : Finset (Fin k)} (ha : queueEnabled u.sys (.resume i wake)) :
    (queueNext u.sys (.resume i wake)).queue.closed = true ∧
      (queueNext u.sys (.resume i wake)).pc = Function.update u.sys.pc i .idle := by
  have hpc : ∀ wake : Finset (Fin k), wake = ∅ →
      Function.update (unblock u.sys.pc wake) i .idle = Function.update u.sys.pc i .idle := by
    rintro _ rfl
    rfl
  cases hi : u.sys.pc i with
  | idle => simp [queueEnabled, hi] at ha
  | sending msg t p =>
      obtain rfl := (woken_of_resume ha).1 msg t p hi
      have hr := sendResume_closed h.closed msg
      have hw : wake = ∅ := by
        simp only [queueEnabled, hi] at ha
        exact h.wake_eq ha
      simp only [queueNext, hi, hr, afterSend]
      exact ⟨h.closed, hpc wake hw⟩
  | receiving t p =>
      obtain rfl := (woken_of_resume ha).2 t p hi
      have hw : wake = ∅ := by
        simp only [queueEnabled, hi] at ha
        exact h.wake_eq ha
      rcases receiveResume_closed h.closed with ⟨-, hr⟩ | ⟨-, hr⟩
      · simp only [queueNext, hi, hr, afterReceive]
        exact ⟨h.closed, hpc wake hw⟩
      · simp only [queueNext, hi, hr, afterReceive]
        exact ⟨h.closed, hpc wake hw⟩

/-- A thread that takes a step is in a call. -/
lemma not_idle_of_enabled {s : QueueSys k} {a : QueueAct k} (hc : a.continues = true)
    (ha : queueEnabled s a) : ∃ i, s.pc i ≠ .idle := by
  cases a with
  | send | receive => cases hc
  | resume i wake =>
      refine ⟨i, fun hi => ?_⟩
      simp [queueEnabled, hi] at ha
  | wakeUp i | expire i | leave i =>
      refine ⟨i, fun hi => ?_⟩
      simp [queueEnabled, hi, CallPc.wait] at ha

/-- **As long as the releases come last, the threads are as the broadcasts left them or gone.** -/
lemma destroyInv_step {s : QueueSys k} {u : DestroySys k} {a : DestroyAct k} (h : DestroyInv s u)
    (ha : destroyEnabled u a) (hlast : LastOut u a) :
    DestroyInv s (destroyNext u a) := by
  cases a with
  | release => exact ⟨h.closed, h.fifo, h.threads, fun _ => hlast⟩
  | thread a =>
      obtain ⟨hc, hen⟩ := ha
      have hzero : u.released = 0 := by
        by_contra hne
        obtain ⟨i, hi⟩ := not_idle_of_enabled hc hen
        exact hi (h.last hne i)
      have hgone : ∀ i t, t = Function.update u.sys.pc i .idle →
          ∀ j, t j = .idle ∨ t j = (closeQueue s).pc j := by
        rintro i _ rfl j
        by_cases hji : j = i
        · exact Or.inl (by rw [hji, Function.update_self])
        · rw [Function.update_of_ne hji]
          exact h.threads j
      have hfifo := (h.fifo.step hen).1
      cases a with
      | send | receive => cases hc
      | expire i => exact hlast.elim
      | resume i wake =>
          obtain ⟨hclosed, hpc⟩ := h.resume hen
          exact ⟨hclosed, hfifo, hgone i _ hpc, fun hne => absurd hzero hne⟩
      | leave i => exact ⟨h.closed, hfifo, hgone i _ rfl, fun hne => absurd hzero hne⟩
      | wakeUp i =>
          have hb : ∃ c, (u.sys.pc i).At c .blocked := by
            simp only [queueEnabled] at hen
            split at hen
            · next c t hw => exact ⟨c, t, hw⟩
            · exact hen.elim
          obtain ⟨c, hb⟩ := hb
          exact absurd hb (h.not_blocked i c)

lemma DestroyInv.initial {s : QueueSys k} (hs : (queueSystem k).Reachable s) :
    DestroyInv s ⟨closeQueue s, 0⟩ := by
  have hinv := FifoInv.of_reachable hs
  have hring := hinv.ring
  refine ⟨rfl, ⟨⟨hring.size, hring.max, hring.buffer, hring.head_nonneg, hring.head_lt, hring.tail,
    hring.count, hring.count_le, hring.cells⟩, fun i msg t p hi => ?_⟩, fun i => Or.inr rfl,
    fun h => absurd rfl h⟩
  obtain ⟨p', hp'⟩ := unblock_sending hi
  obtain ⟨p'', hp''⟩ := unblock_sending hp'
  exact hinv.msgs i msg t p'' hp''

/-- What a step uses is still there. -/
lemma DestroyInv.untouched {s : QueueSys k} {u : DestroySys k} (h : DestroyInv s u)
    {a : QueueAct k} (ha : destroyEnabled u (.thread a)) : u.gone = [] := by
  have hzero : u.released = 0 := by
    by_contra hne
    obtain ⟨i, hi⟩ := not_idle_of_enabled ha.1 ha.2
    exact hi (h.last hne i)
  rw [DestroySys.gone, hzero, List.take_zero]

/-- A thread that was blocked takes the mutex again to look again, as the broadcast left it. -/
lemma DestroyInv.resumes {s : QueueSys k} {u : DestroySys k} (h : DestroyInv s u) {a : QueueAct k}
    {i : Fin k} {c : Cond} (ha : queueEnabled u.sys a) (hi : a.relocks = some i)
    (hb : (s.pc i).At c .blocked) :
    (∃ wake, a = .resume i wake) ∧ u.sys.pc i = (closeQueue s).pc i := by
  have hwoken : ∃ t, ((closeQueue s).pc i).wait = some (c, .woken, t) := by
    cases c with
    | condSend =>
        obtain ⟨msg, t, hclose⟩ := closeQueue_of_sender hb
        exact ⟨t, by rw [hclose]; rfl⟩
    | condRecv =>
        obtain ⟨t, hclose⟩ := closeQueue_of_receiver hb
        exact ⟨t, by rw [hclose]; rfl⟩
  obtain ⟨t, hwoken⟩ := hwoken
  cases a with
  | resume j wake =>
      obtain rfl : j = i := Option.some.inj hi
      rcases h.threads j with hj | hj
      · simp [queueEnabled, hj] at ha
      · exact ⟨⟨wake, rfl⟩, hj⟩
  | leave j =>
      obtain rfl : j = i := Option.some.inj hi
      rcases h.threads j with hj | hj
      · simp [queueEnabled, hj, CallPc.wait] at ha
      · simp [queueEnabled, hj, hwoken] at ha
  | _ => cases hi

/-- A sender that was blocked returns `-EPIPE`. -/
lemma DestroyInv.sender {s : QueueSys k} {u : DestroySys k} (h : DestroyInv s u) {a : QueueAct k}
    {i : Fin k} (ha : queueEnabled u.sys a) (hi : a.relocks = some i)
    (hb : (s.pc i).At .condSend .blocked) : outcome u.sys a = some (-ePIPE, []) := by
  obtain ⟨msg, t, hclose⟩ := closeQueue_of_sender hb
  obtain ⟨⟨wake, rfl⟩, hpc⟩ := h.resumes ha hi hb
  simp [outcome, hpc, hclose, sendResume_closed h.closed]

/-- A receiver returns the oldest message that is left, or `-EPIPE`. -/
lemma DestroyInv.receiver {s : QueueSys k} {u : DestroySys k} (h : DestroyInv s u)
    {a : QueueAct k} {i : Fin k} (ha : queueEnabled u.sys a) (hi : a.relocks = some i)
    (hb : (s.pc i).At .condRecv .blocked) :
    outcome u.sys a = some (-ePIPE, []) ∨
      ∃ msg ∈ (content u.sys.log).head?, outcome u.sys a = some (0, msg) := by
  obtain ⟨t, hclose⟩ := closeQueue_of_receiver hb
  obtain ⟨⟨wake, rfl⟩, hpc⟩ := h.resumes ha hi hb
  rcases receiveResume_closed h.closed with ⟨-, hr⟩ | ⟨hne, hr⟩
  · exact Or.inl (by simp [outcome, hpc, hclose, hr])
  · obtain ⟨l, hl, -⟩ := h.fifo.ring.read hne
    exact Or.inr ⟨_, by rw [hl]; rfl, by simp [outcome, hpc, hclose, hr]⟩

/-- **A run whose releases come last is safe.** -/
lemma safeRun_of_lastOut {s : QueueSys k} {t : DestroySys k}
    {l : List (DestroySys k × DestroyAct k)} (hs : (queueSystem k).Reachable s)
    (hl : (destroySystem k).RunFrom ⟨closeQueue s, 0⟩ l t) (hlast : ∀ p ∈ l, LastOut p.1 p.2) :
    SafeRun s l := by
  have hrun : ((destroySystem k).restrict LastOut).RunFrom ⟨closeQueue s, 0⟩ l t :=
    System.RunFrom.restrict_iff.mpr ⟨hl, hlast⟩
  have hstep : ∀ u a, DestroyInv s u → destroyEnabled u a ∧ LastOut u a →
      DestroyInv s (destroyNext u a) := fun u a hu ha => destroyInv_step hu ha.1 ha.2
  have hall := hrun.forall_mem hstep (DestroyInv.initial hs)
  refine ⟨fun u a hua x _ => ?_, fun u a hua i hi hb => ?_, fun u a hua i hi hb => ?_⟩
  · obtain ⟨hinv, hen, -⟩ := hall _ hua
    rw [hinv.untouched hen]
    exact List.not_mem_nil
  · obtain ⟨hinv, hen, -⟩ := hall _ hua
    exact hinv.sender hen.2 hi hb
  · obtain ⟨hinv, hen, -⟩ := hall _ hua
    exact hinv.receiver hen.2 hi hb

/-! ### Releases that do not wait -/

/-- The step with which a thread takes the mutex again, with nobody left to be unblocked. -/
lemma exists_relock {s : QueueSys k} {i : Fin k} (hclosed : s.queue.closed = true)
    (hfree : ∀ j c, ¬ (s.pc j).At c .blocked) (hi : s.pc i ≠ .idle) :
    ∃ a : QueueAct k, a.continues = true ∧ queueEnabled s a ∧ .mutex ∈ queueUses s a := by
  have hsignals : ∀ c, Signals s.pc c ∅ := fun c =>
    ⟨fun j hj => absurd hj (Finset.notMem_empty j), fun ⟨j, hj⟩ => absurd hj (hfree j c)⟩
  have hwait : ∀ c p t, (s.pc i).wait = some (c, p, t) → p = .blocked → False := by
    rintro c _ t hw rfl
    exact hfree i c ⟨t, hw⟩
  cases hpc : s.pc i with
  | idle => exact absurd hpc hi
  | sending msg t p =>
      cases p with
      | blocked => exact (hwait .condSend .blocked t (by rw [hpc]; rfl) rfl).elim
      | expired =>
          exact ⟨.leave i, rfl, by simp [queueEnabled, hpc, CallPc.wait], by simp [queueUses]⟩
      | woken =>
          refine ⟨.resume i ∅, rfl, ?_, by simp [queueUses, hpc]⟩
          simp [queueEnabled, hpc, sendResume_closed hclosed, SignalsIf, ePIPE]
  | receiving t p =>
      cases p with
      | blocked => exact (hwait .condRecv .blocked t (by rw [hpc]; rfl) rfl).elim
      | expired =>
          exact ⟨.leave i, rfl, by simp [queueEnabled, hpc, CallPc.wait], by simp [queueUses]⟩
      | woken =>
          refine ⟨.resume i ∅, rfl, ?_, by simp [queueUses, hpc]⟩
          rcases receiveResume_closed hclosed with ⟨-, hr⟩ | ⟨-, hr⟩
          · simp [queueEnabled, hpc, hr, SignalsIf, ePIPE]
          · simpa [queueEnabled, hpc, hr, SignalsIf] using hsignals .condSend

/-- `osa_queue_destroy` runs to its end before anybody else. -/
lemma release_all (s : QueueSys k) : ∀ m ≤ releaseOrder.length,
    ∃ l, (destroySystem k).RunFrom ⟨closeQueue s, 0⟩ l ⟨closeQueue s, m⟩
  | 0, _ => ⟨[], System.RunFrom.refl⟩
  | m + 1, h => by
      obtain ⟨l, hl⟩ := release_all s m (Nat.le_of_succ_le h)
      have hen : (destroySystem k).enabled ⟨closeQueue s, m⟩ .release := h
      exact ⟨_, hl.step hen⟩

/-- **Destroying a queue is safe exactly if no thread is in a call.**  Of the runs from the
critical section of `osa_queue_destroy` on, all are safe exactly if no thread waits or is on its
way out of a wait; and each one is safe in which the releases come when all have left and no
timed wait ends with `ETIMEDOUT`. -/
theorem queue_destroy_safe_iff {s : QueueSys k} (hs : (queueSystem k).Reachable s) :
    ((∀ l t, (destroySystem k).RunFrom ⟨closeQueue s, 0⟩ l t → SafeRun s l) ↔
        ∀ i, s.pc i = .idle) ∧
      ∀ l t, (destroySystem k).RunFrom ⟨closeQueue s, 0⟩ l t → (∀ p ∈ l, LastOut p.1 p.2) →
        SafeRun s l := by
  refine ⟨⟨fun hsafe i => ?_, fun hidle l t hl => ?_⟩,
    fun l t hl hlast => safeRun_of_lastOut hs hl hlast⟩
  · by_contra hi
    obtain ⟨l, hl⟩ := release_all s releaseOrder.length le_rfl
    have hi' : (closeQueue s).pc i ≠ .idle := fun h => hi ((closeQueue_idle_iff s i).mp h)
    obtain ⟨a, hc, hen, huses⟩ := exists_relock (s := closeQueue s) rfl
      (fun j c => closeQueue_not_blocked s j c) hi'
    have hen' : (destroySystem k).enabled ⟨closeQueue s, releaseOrder.length⟩ (.thread a) :=
      ⟨hc, hen⟩
    have hrun := hl.step hen'
    have hmem : QueuePart.mutex ∈ (⟨closeQueue s, releaseOrder.length⟩ : DestroySys k).gone := by
      simp [DestroySys.gone, releaseOrder]
    exact (hsafe _ _ hrun).untouched _ a (List.mem_cons_self ..) _ huses hmem
  · -- nobody takes a step, so whatever is done is a release
    have hidle' : ∀ i, (closeQueue s).pc i = .idle := fun i =>
      (closeQueue_idle_iff s i).mpr (hidle i)
    have hall := hl.forall_mem (P := fun u => ∀ i, u.sys.pc i = .idle) ?_ hidle'
    · refine safeRun_of_lastOut hs hl fun p hp => ?_
      obtain ⟨hpidle, hen⟩ := hall p hp
      obtain ⟨u, a⟩ := p
      cases a with
      | release => exact hpidle
      | thread a =>
          obtain ⟨i, hi⟩ := not_idle_of_enabled hen.1 hen.2
          exact absurd (hpidle i) hi
    · intro u a hu hen
      cases a with
      | release => exact hu
      | thread a =>
          obtain ⟨i, hi⟩ := not_idle_of_enabled hen.1 hen.2
          exact absurd (hu i) hi

/-- With a sender and a receiver that have left, the queue is destroyed. -/
theorem quiet_destroy_is_safe :
    ∃ s : QueueSys 2, (queueSystem 2).Reachable s ∧ content s.log = [[6]] ∧
      ∀ l t, (destroySystem 2).RunFrom ⟨closeQueue s, 0⟩ l t → SafeRun s l := by
  obtain ⟨s, hs, hcontent, hidle⟩ : ∃ s : QueueSys 2, (queueSystem 2).Reachable s ∧
      content s.log = [[6]] ∧ ∀ i, s.pc i = .idle :=
    System.reachable_of_replay (queueStart_initial (by decide) (by decide) :
        QueueInitial (queueStart 2 1 2))
      [.receive 1 true 1 (-1) ∅, .send 0 (some [5]) 1 0 {1}, .resume 1 ∅,
        .send 0 (some [6]) 1 0 ∅] (by decide)
  exact ⟨s, hs, hcontent, (queue_destroy_safe_iff hs).1.mpr hidle⟩

/-- **A receiver takes the mutex of a queue that was freed**: it waits without a timeout, the
queue is closed and everything released, and only then does it come out of its wait. -/
theorem freed_queue_is_locked :
    ∃ s : QueueSys 1, (queueSystem 1).Reachable s ∧ s.pc 0 = .receiving (-1) .blocked ∧
      ∃ l t, (destroySystem 1).RunFrom ⟨closeQueue s, 0⟩ l t ∧ ¬ SafeRun s l := by
  obtain ⟨s, hs, hpc, hfree⟩ : ∃ s : QueueSys 1, (queueSystem 1).Reachable s ∧
      s.pc 0 = .receiving (-1) .blocked ∧
      (∃ t ∈ (destroySystem 1).replay ⟨closeQueue s, 0⟩
          [.release, .release, .release, .release, .release, .thread (.resume 0 ∅)],
        t.sys.pc 0 = .idle) :=
    System.reachable_of_replay (queueStart_initial (by decide) (by decide) :
        QueueInitial (queueStart 1 1 2))
      [.receive 0 true 1 (-1) ∅] (by decide)
  obtain ⟨t, ht, -⟩ := hfree
  refine ⟨s, hs, hpc, _, t, System.runFrom_of_replay ht, fun hsafe => ?_⟩
  refine hsafe.untouched ⟨closeQueue s, 5⟩ (.resume 0 ∅)
    (by simp [System.history, destroySystem, destroyNext]) .mutex ?_ ?_
  · have hpc' : (closeQueue s).pc 0 = .receiving (-1) .woken := by
      rw [closeQueue_pc, hpc]
      simp [CallPc.moveTo]
    simp [queueUses, hpc']
  · simp [DestroySys.gone, releaseOrder]

end OpenHsm
