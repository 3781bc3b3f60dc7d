import OpenHsm.Worker.Slots

/-!
The documented protocol of asynchronous jobs: a client allocates a slot, initialises it,
submits it with its own state machine as the target, and its handler of the completion
event reads the job and frees it.  The client of the state machine `h` is `h`.

* `outstanding`, `Protocol`: the slots submitted and not freed since, and what a client
  that follows the protocol does; `AllocQuiet` is what the allocator would have to
  respect on top of it.
* `Carried`, `ClientInv`: a slot is carried by the queue, a worker or a state machine from
  its submission to its free, by one of them only, and until then its fields are those of
  its own execution.
* `SameClients`, `ClientInv.frame`: the frame rule; `ClientInv.step` adds the five steps in
  which a slot is handed on.
* `client_gets_own_result`: with quiet allocations every completion event is about the
  client's own execution.  `stolen_slot_delivered` is the run in which a slot is given away
  while its event waits.
-/

namespace OpenHsm

open Runs

variable {n : ℕ}

/-- The slots submitted and not freed or handed out since. -/
def outstanding : List (Event n) → List JobRef
  | [] => []
  | .accepted j :: l => j :: outstanding l
  | .freed j :: l => (outstanding l).filter (· ≠ j)
  | .allocated i :: l => (outstanding l).filter (· ≠ .slot i)
  | _ :: l => outstanding l

/-- The client owns the slot and no submission of it is outstanding. -/
def MayUse (s : Sys n) (c : ℕ) : JobRef → Prop
  | .slot i => s.owner i = some c ∧ .slot i ∉ outstanding s.log
  | .object _ => False

instance (s : Sys n) (c : ℕ) : DecidablePred (MayUse s c)
  | .slot i => inferInstanceAs (Decidable (s.owner i = some c ∧ .slot i ∉ outstanding s.log))
  | .object _ => isFalse id

/-- The event announces no job. -/
def Message.isOther : Message → Bool
  | .completion _ _ _ => false
  | .other _ => true

/-- The step of a client that follows the protocol, or of another thread.  A handler of a
completion event frees its slot. -/
def Protocol (s : Sys n) : Act n → Prop
  | .init c j _ | .free c j => MayUse s c j
  | .submitToHsm c j h _ => MayUse s c j ∧ h = some c
  | .submit _ _ | .cancel _ _ => False
  | .handled h => ∀ msg ∈ (s.hsm h).handling, msg.isOther
  | _ => True

instance (s : Sys n) (a : Act n) : Decidable (Protocol s a) := by
  induction a using Act.casesOn <;> (dsimp only [Protocol]; infer_instance)

/-- The completion events a state machine holds, the one in its handler first. -/
def HsmQueue.events (q : HsmQueue) : List (JobRef × Execution) :=
  (q.handling.toList ++ q.messages).filterMap fun
    | .completion _ j e => some (j, e)
    | .other _ => none

/-- The execution a worker has still to announce. -/
def WorkerPc.execution : WorkerPc → Option (JobRef × Execution)
  | .executed j e | .notifying j e => some (j, e)
  | _ => none

/-- The finished job a worker is announcing. -/
def WorkerPc.announcing : WorkerPc → Option JobRef
  | .notifying j _ => some j
  | _ => none

/-- The slot an allocation returns is not being announced, and its owner has no completion
event of it, queued or in its handler. -/
def AllocQuiet (s : Sys n) : Act n → Prop
  | .alloc _ => ∀ i ∈ (osaWorkerJobAlloc s.mem).1,
      (∀ w, (s.pc w).announcing ≠ some (.slot i)) ∧
      ∀ c ∈ s.owner i, .slot i ∉ (s.hsm c).events.map Prod.fst
  | _ => True

instance (s : Sys n) (a : Act n) : Decidable (AllocQuiet s a) := by
  induction a using Act.casesOn <;> (dsimp only [AllocQuiet]; infer_instance)

/-- The job still carries the id, the context and the result of the execution. -/
def Matches (m : Memory) (j : JobRef) (e : Execution) : Prop :=
  (m.jobs j).id = e.id ∧ (m.jobs j).jobCtx = e.jobCtx ∧ (m.jobs j).result = e.result

instance (m : Memory) (j : JobRef) (e : Execution) : Decidable (Matches m j e) :=
  inferInstanceAs (Decidable (_ ∧ _ ∧ _))

lemma Matches.congr {m m' : Memory} {j : JobRef} {e : Execution} (h : Matches m j e)
    (hd : m'.data j = m.data j) : Matches m' j e := by
  obtain ⟨h1, h2, h3⟩ := h
  refine ⟨?_, ?_, ?_⟩
  · rw [← h1]; exact (congrArg Job.id hd :)
  · rw [← h2]; exact (congrArg Job.jobCtx hd :)
  · rw [← h3]; exact (congrArg Job.result hd :)

lemma Memory.targetHsm_of_data {m m' : Memory} {j : JobRef} (h : m.data j = m'.data j) :
    (m.jobs j).targetHsm = (m'.jobs j).targetHsm := (congrArg Job.targetHsm h :)

/-- The job is queued, in the hands of a worker or in a completion event. -/
def Carried (s : Sys n) (j : JobRef) : Prop :=
  Busy s j ∨ (∃ w, (s.pc w).announcing = some j) ∨ ∃ h, ∃ p ∈ (s.hsm h).events, p.1 = j

/-- The invariant of the protocol. -/
structure ClientInv (s : Sys n) : Prop where
  out : ∀ j, Carried s j → j ∈ outstanding s.log
  busy : ∀ j, Busy s j → ∃ i c, j = .slot i ∧ s.owner i = some c ∧
    s.submitter j = some c ∧ (s.mem.jobs j).targetHsm = some c
  executed : ∀ w j e, (s.pc w).execution = some (j, e) → Matches s.mem j e ∧
    ∃ i c, j = .slot i ∧ s.owner i = some c ∧ e.client = some c ∧
      (s.mem.jobs j).targetHsm = some c
  held : ∀ h, ∀ p ∈ (s.hsm h).events, Matches s.mem p.1 p.2 ∧ p.2.client = some h ∧
    ∃ i, p.1 = .slot i ∧ s.owner i = some h
  announcer : ∀ w w' j, (s.pc w).announcing = some j → (s.pc w').announcing = some j → w = w'
  announced : ∀ w j, (s.pc w).announcing = some j → ¬ Busy s j
  alone : ∀ h, ∀ p ∈ (s.hsm h).events, ¬ Busy s p.1 ∧ ∀ w, (s.pc w).announcing ≠ some p.1
  nodup : ∀ h, ((s.hsm h).events.map Prod.fst).Nodup

lemma ClientInv.initial {s : Sys n} (h : Initial s) : ClientInv s := by
  obtain ⟨-, -, hpc, -, hhsm, -, -, -, hlog⟩ := h
  have hbusy : ∀ j, ¬ Busy s j := by
    rintro j (hj | ⟨w, hw⟩)
    · rw [hlog] at hj; cases hj
    · rw [hpc] at hw; cases hw
  have hann : ∀ w j, (s.pc w).announcing ≠ some j := by
    intro w j hw
    rw [hpc] at hw; cases hw
  have hev : ∀ h, (s.hsm h).events = [] := by
    intro h
    rw [HsmQueue.events, (hhsm h).1, (hhsm h).2]
    rfl
  refine ⟨?_, fun j hj => absurd hj (hbusy j), ?_, ?_, fun w w' j hw => absurd hw (hann w j),
    fun w j hw => absurd hw (hann w j), ?_, ?_⟩
  · rintro j (hj | ⟨w, hw⟩ | ⟨h, p, hp, -⟩)
    · exact absurd hj (hbusy j)
    · exact absurd hw (hann w j)
    · rw [hev] at hp; cases hp
  · intro w j e hw
    rw [hpc] at hw; cases hw
  · intro h p hp
    rw [hev] at hp; cases hp
  · intro h p hp
    rw [hev] at hp; cases hp
  · intro h
    rw [hev]
    exact List.nodup_nil

lemma WorkerPc.carried_of_execution {s : Sys n} {w : Fin n} {j : JobRef} {e : Execution}
    (h : (s.pc w).execution = some (j, e)) : Carried s j := by
  cases hw : s.pc w with
  | executed k e' =>
      rw [hw] at h
      cases h
      exact Or.inl (Or.inr ⟨w, by rw [hw]; rfl⟩)
  | notifying k e' =>
      rw [hw] at h
      cases h
      exact Or.inr (Or.inl ⟨w, by rw [hw]; rfl⟩)
  | _ => rw [hw] at h; cases h

lemma WorkerPc.execution_of_announcing {p : WorkerPc} {j : JobRef}
    (h : p.announcing = some j) : ∃ e, p.execution = some (j, e) := by
  cases p with
  | notifying k e => cases h; exact ⟨e, rfl⟩
  | _ => cases h

/-- A carried job is a slot with an owner. -/
lemma ClientInv.carried_owner {s : Sys n} (h : ClientInv s) {j : JobRef} (hj : Carried s j) :
    ∃ i c, j = .slot i ∧ s.owner i = some c := by
  rcases hj with hj | ⟨w, hw⟩ | ⟨k, p, hp, rfl⟩
  · obtain ⟨i, c, hi, howner, -⟩ := h.busy j hj
    exact ⟨i, c, hi, howner⟩
  · obtain ⟨e, he⟩ := WorkerPc.execution_of_announcing hw
    obtain ⟨-, i, c, hi, howner, -⟩ := h.executed w j e he
    exact ⟨i, c, hi, howner⟩
  · obtain ⟨-, -, i, hi, howner⟩ := h.held k p hp
    exact ⟨i, k, hi, howner⟩

/-! ### The frame rule -/

/-- The step from `s` to `t` takes up no slot and leaves those alone that are still carried
after it. -/
structure SameClients (s t : Sys n) : Prop where
  busy : ∀ j, Busy t j → Busy s j
  execution : ∀ w p, (t.pc w).execution = some p → (s.pc w).execution = some p
  announcing : ∀ w j, (t.pc w).announcing = some j → (s.pc w).announcing = some j
  events : ∀ h, (t.hsm h).events.Sublist (s.hsm h).events
  out : ∀ j, Carried t j → j ∈ outstanding s.log → j ∈ outstanding t.log
  owner : ∀ i, Carried t (.slot i) → t.owner i = s.owner i
  submitter : ∀ j, Busy t j → t.submitter j = s.submitter j
  data : ∀ j, Carried t j → t.mem.data j = s.mem.data j

lemma SameClients.carried {s t : Sys n} (hs : SameClients s t) {j : JobRef}
    (hj : Carried t j) : Carried s j := by
  rcases hj with hj | ⟨w, hw⟩ | ⟨k, p, hp, hpj⟩
  · exact Or.inl (hs.busy j hj)
  · exact Or.inr (Or.inl ⟨w, hs.announcing w j hw⟩)
  · exact Or.inr (Or.inr ⟨k, p, (hs.events k).subset hp, hpj⟩)

/-- **The frame rule.** -/
lemma ClientInv.frame {s t : Sys n} (h : ClientInv s) (hs : SameClients s t) : ClientInv t := by
  refine ⟨?_, ?_, ?_, ?_, ?_, ?_, ?_, ?_⟩
  · exact fun j hj => hs.out j hj (h.out j (hs.carried hj))
  · intro j hj
    obtain ⟨i, c, rfl, howner, hsub, htgt⟩ := h.busy j (hs.busy j hj)
    refine ⟨i, c, rfl, (hs.owner i (Or.inl hj)).trans howner, (hs.submitter _ hj).trans hsub, ?_⟩
    rw [Memory.targetHsm_of_data (hs.data _ (Or.inl hj))]
    exact htgt
  · intro w j e hw
    have hcar := WorkerPc.carried_of_execution hw
    obtain ⟨hm, i, c, rfl, howner, hc, htgt⟩ := h.executed w j e (hs.execution w _ hw)
    refine ⟨hm.congr (hs.data _ hcar), i, c, rfl, (hs.owner i hcar).trans howner, hc, ?_⟩
    rw [Memory.targetHsm_of_data (hs.data _ hcar)]
    exact htgt
  · intro k p hp
    have hcar : Carried t p.1 := Or.inr (Or.inr ⟨k, p, hp, rfl⟩)
    obtain ⟨hm, hc, i, hi, howner⟩ := h.held k p ((hs.events k).subset hp)
    exact ⟨hm.congr (hs.data _ hcar), hc, i, hi, (hs.owner i (hi ▸ hcar)).trans howner⟩
  · intro w w' j hw hw'
    exact h.announcer w w' j (hs.announcing w j hw) (hs.announcing w' j hw')
  · exact fun w j hw hb => h.announced w j (hs.announcing w j hw) (hs.busy j hb)
  · intro k p hp
    obtain ⟨hidle, hann⟩ := h.alone k p ((hs.events k).subset hp)
    exact ⟨fun hb => hidle (hs.busy _ hb), fun w hw => hann w (hs.announcing w _ hw)⟩
  · exact fun k => (h.nodup k).sublist ((hs.events k).map Prod.fst)

/-! ### What the protocol leaves alone -/

/-- A client uses no carried slot. -/
lemma ClientInv.not_carried {s : Sys n} (h : ClientInv s) {c : ℕ} {j : JobRef}
    (hj : MayUse s c j) : ¬ Carried s j := by
  intro hcar
  cases j with
  | object k => exact hj
  | slot i => exact hj.2 (h.out _ hcar)

/-- A quiet allocation returns no carried slot. -/
lemma ClientInv.alloc_not_carried {s : Sys n} {b : Option JobRef} (h : ClientInv s)
    (hq : QueueInv s b) {c : ℕ} (hquiet : AllocQuiet s (.alloc c)) {i : Fin osaJobPoolSize}
    (hi : (osaWorkerJobAlloc s.mem).1 = some i) : ¬ Carried s (.slot i) := by
  obtain ⟨hann, hev⟩ := hquiet i hi
  rintro (hb | ⟨w, hw⟩ | ⟨k, p, hp, hpi⟩)
  · exact hq.alloc_not_busy hi hb
  · exact hann w hw
  · obtain ⟨-, -, i', hi', howner⟩ := h.held k p hp
    obtain rfl : i = i' := by
      rw [hpi] at hi'
      injection hi'
    exact hev k howner (List.mem_map.mpr ⟨p, hp, hpi⟩)

/-- The data of a carried job are written by its execution only. -/
lemma ClientInv.carried_data {s : Sys n} {b : Option JobRef} {a : Act n} (h : ClientInv s)
    (hq : QueueInv s b) (hp : Protocol s a) (hquiet : AllocQuiet s a) {j : JobRef}
    (hj : Carried s j) (hex : ∀ w ret, a = .execute w ret → (s.pc w).executing ≠ some j) :
    (next s a).mem.data j = s.mem.data j := by
  refine next_data fun hw => ?_
  cases a with
  | init c k args => exact h.not_carried hp (hw ▸ hj)
  | submit c k => exact hp
  | submitToHsm c k t sig => exact h.not_carried hp.1 (hw ▸ hj)
  | execute w ret => exact hex w ret rfl hw
  | alloc c =>
      obtain ⟨i, rfl, hi⟩ := hw
      rcases hi with hi | hi
      · obtain ⟨i', c', hii, howner⟩ := h.carried_owner hj
        rw [hq.fresh hi i'] at howner
        cases howner
      · exact h.alloc_not_carried hq hquiet hi hj
  | _ => exact hw

/-- A completion event in the handler is one of the events of the state machine. -/
lemma HsmQueue.mem_events_of_handling {q : HsmQueue} {sig : Int} {j : JobRef} {e : Execution}
    (h : q.handling = some (.completion sig j e)) : (j, e) ∈ q.events := by
  rw [HsmQueue.events, h]
  simp

/-- The protocol respects the discipline of the interface. -/
lemma ClientInv.discipline {s : Sys n} {a : Act n} (h : ClientInv s) (hp : Protocol s a) :
    Discipline s a := by
  have huse : ∀ c j, MayUse s c j → Owns s c j ∧ ¬ Busy s j := by
    intro c j hj
    refine ⟨?_, fun hb => h.not_carried hj (Or.inl hb)⟩
    cases j with
    | object k => trivial
    | slot i => exact hj.1
  cases a with
  | init c k args => exact huse c k hp
  | free c k => exact huse c k hp
  | submit c k => exact hp.elim
  | submitToHsm c k t sig => exact huse c k hp.1
  | handledFree k =>
      simp only [Discipline]
      split
      · next sig j e hh =>
          have hmem := HsmQueue.mem_events_of_handling hh
          obtain ⟨-, -, i, hi, howner⟩ := h.held k _ hmem
          refine ⟨?_, (h.alone k _ hmem).1⟩
          simp only at hi
          rw [hi]
          exact howner
      · trivial
  | _ => trivial

lemma cancelFresh_of_protocol {s : Sys n} {a : Act n} (hp : Protocol s a) : CancelFresh s a := by
  cases a with
  | cancel id fuel => exact hp.elim
  | _ => trivial

/-! ### Steps that hand no slot on -/

/-- A step that is no execution, accepts no job and lets workers and state machines at most
let go of slots. -/
lemma ClientInv.stay {s : Sys n} {b : Option JobRef} {a : Act n} (h : ClientInv s)
    (hq : QueueInv s b) (ha : enabled s a) (hp : Protocol s a) (hquiet : AllocQuiet s a)
    (hex : ∀ w ret, a ≠ .execute w ret) (hacc : ∀ j, (next s a).log ≠ .accepted j :: s.log)
    (hpc : ∀ w p, ((next s a).pc w).execution = some p → (s.pc w).execution = some p)
    (hann : ∀ w j, ((next s a).pc w).announcing = some j → (s.pc w).announcing = some j)
    (hev : ∀ k, ((next s a).hsm k).events.Sublist (s.hsm k).events)
    (hout : ∀ j, Carried s j → Carried (next s a) j → j ∈ outstanding s.log →
      j ∈ outstanding (next s a).log)
    (howner : ∀ i, Carried s (.slot i) → Carried (next s a) (.slot i) →
      (next s a).owner i = s.owner i)
    (hsub : (next s a).submitter = s.submitter) : ClientInv (next s a) := by
  have hbusy : ∀ j, Busy (next s a) j → Busy s j := by
    intro j hj
    rcases hq.busy_next ha (h.discipline hp) hj with hj | ⟨-, hlog⟩
    · exact hj
    · exact absurd hlog (hacc j)
  have hcar : ∀ j, Carried (next s a) j → Carried s j := by
    rintro j (hj | ⟨w, hw⟩ | ⟨k, p, hp, hpj⟩)
    · exact Or.inl (hbusy j hj)
    · exact Or.inr (Or.inl ⟨w, hann w j hw⟩)
    · exact Or.inr (Or.inr ⟨k, p, (hev k).subset hp, hpj⟩)
  exact h.frame
    { busy := hbusy, execution := hpc, announcing := hann, events := hev
      out := fun j hj => hout j (hcar j hj) hj
      owner := fun i hi => howner i (hcar _ hi) hi
      submitter := fun j _ => congrFun hsub j
      data := fun j hj => h.carried_data hq hp hquiet (hcar j hj)
        fun w ret heq => absurd heq (hex w ret) }

/-- A worker that moves without a job to announce before or after. -/
lemma execution_update {pc : Fin n → WorkerPc} {w : Fin n} {p : WorkerPc}
    (hp : p.execution = none) (v : Fin n) (x : JobRef × Execution)
    (hx : (Function.update pc w p v).execution = some x) : (pc v).execution = some x := by
  by_cases hv : v = w
  · subst hv; rw [Function.update_self, hp] at hx; cases hx
  · rwa [Function.update_of_ne hv] at hx

lemma announcing_update {pc : Fin n → WorkerPc} {w : Fin n} {p : WorkerPc}
    (hp : p.announcing = none) (v : Fin n) (j : JobRef)
    (hj : (Function.update pc w p v).announcing = some j) : (pc v).announcing = some j := by
  by_cases hv : v = w
  · subst hv; rw [Function.update_self, hp] at hj; cases hj
  · rwa [Function.update_of_ne hv] at hj

/-- A worker moves without a job to announce before or after, while no job is accepted. -/
lemma ClientInv.moved {s : Sys n} {b : Option JobRef} {a : Act n} (h : ClientInv s)
    (hq : QueueInv s b) (ha : enabled s a) (hp : Protocol s a) (hquiet : AllocQuiet s a)
    (hex : ∀ w ret, a ≠ .execute w ret) {w : Fin n} {p : WorkerPc} {m : Memory}
    {l : List (Event n)} (hnext : next s a = { s with
      mem := m, pc := Function.update s.pc w p, log := l })
    (hexec : p.execution = none) (hann : p.announcing = none)
    (hacc : ∀ j, l ≠ .accepted j :: s.log) (hout : ∀ j ∈ outstanding s.log, j ∈ outstanding l) :
    ClientInv (next s a) := by
  refine h.stay hq ha hp hquiet hex ?_ ?_ ?_ ?_ ?_ ?_ ?_ <;> rw [hnext]
  · exact hacc
  · exact execution_update hexec
  · exact announcing_update hann
  · exact fun _ => List.Sublist.refl _
  · exact fun j _ _ hj => hout j hj
  · exact fun _ _ _ => rfl

/-- A state machine that holds no more completion events than before. -/
lemma events_update {hsm : ℕ → HsmQueue} {h : ℕ} {q : HsmQueue}
    (hq : q.events.Sublist (hsm h).events) (k : ℕ) :
    (Function.update hsm h q k).events.Sublist (hsm k).events := by
  by_cases hk : k = h
  · subst hk; rwa [Function.update_self]
  · rw [Function.update_of_ne hk]

lemma HsmQueue.post_other_events (q : HsmQueue) (sig : Int) :
    (q.post (.other sig)).2.events = q.events := by
  simp only [HsmQueue.post]
  split
  · rfl
  · split
    · rfl
    · simp [HsmQueue.events]

/-- A completion event goes to the end of the queue, or is lost. -/
lemma HsmQueue.post_completion_events (q : HsmQueue) (sig : Int) (j : JobRef) (e : Execution) :
    (q.post (.completion sig j e)).2.events = q.events ∨
      (q.post (.completion sig j e)).2.events = q.events ++ [(j, e)] := by
  simp only [HsmQueue.post]
  split
  · exact Or.inl rfl
  · split
    · exact Or.inl rfl
    · exact Or.inr (by simp [HsmQueue.events])

/-- Taking an event into the handler keeps the events and their order. -/
lemma HsmQueue.receive_events {q : HsmQueue} (h : q.handling = none) :
    q.receive.events = q.events := by
  cases hm : q.messages <;> simp [HsmQueue.events, HsmQueue.receive, h, hm]

lemma HsmQueue.handled_events (q : HsmQueue) :
    ({ q with handling := none } : HsmQueue).events.Sublist q.events := by
  simp only [HsmQueue.events]
  exact (List.sublist_append_right ..).filterMap _

/-- The allocation step. -/
lemma ClientInv.allocStep {s : Sys n} {b : Option JobRef} {c : ℕ} (h : ClientInv s)
    (hq : QueueInv s b) (hquiet : AllocQuiet s (.alloc c)) : ClientInv (next s (.alloc c)) := by
  cases hr : (osaWorkerJobAlloc s.mem).1 with
  | none =>
      refine h.stay hq trivial trivial hquiet (by simp) ?_ ?_ ?_ ?_ ?_ ?_ ?_ <;>
        simp [next, hr]
  | some i =>
      have hi := h.alloc_not_carried hq hquiet hr
      refine h.stay hq trivial trivial hquiet (by simp) ?_ ?_ ?_ ?_ ?_ ?_ ?_ <;>
        simp only [next, hr]
      · simp
      · exact fun _ _ hx => hx
      · exact fun _ _ hx => hx
      · exact fun _ => List.Sublist.refl _
      · intro j hj _ hout
        have hji : j ≠ .slot i := fun he => hi (he ▸ hj)
        simpa [outstanding, hji] using hout
      · intro k hk _
        have hki : k ≠ i := fun he => hi (he ▸ hk)
        exact Function.update_of_ne hki ..

/-- A slot given back is no longer carried, so the others keep what they need. -/
lemma outstanding_freed {s : Sys n} {j k : JobRef} (hjk : k ≠ j)
    (hk : k ∈ outstanding s.log) : k ∈ outstanding (freeStep s j).log := by
  simpa [freeStep, outstanding, hjk] using hk

lemma freeStep_owner_of_ne {s : Sys n} {j : JobRef} {i : Fin osaJobPoolSize}
    (hij : JobRef.slot i ≠ j) : (freeStep s j).owner i = s.owner i := by
  cases j with
  | object k => rfl
  | slot k =>
      have hik : i ≠ k := fun he => hij (by rw [he])
      exact Function.update_of_ne hik ..

/-- The handler frees its slot: the event leaves the state machine. -/
lemma ClientInv.handledFreeStep {s : Sys n} {b : Option JobRef} {k : ℕ} (h : ClientInv s)
    (hq : QueueInv s b) (ha : enabled s (.handledFree k)) :
    ClientInv (next s (.handledFree k)) := by
  simp only [enabled] at ha
  split at ha
  · next sig j e hh =>
      have hmem := HsmQueue.mem_events_of_handling hh
      obtain ⟨hidle, hann⟩ := h.alone k _ hmem
      have hnext : next s (.handledFree k)
          = setHsm (freeStep s j) k { s.hsm k with handling := none } := by
        simp only [next, hh]
      have hevents : (s.hsm k).events
          = (j, e) :: ({ s.hsm k with handling := none } : HsmQueue).events := by
        simp [HsmQueue.events, hh]
      -- after the step nothing carries the slot any more
      have hgone : ¬ Carried (next s (.handledFree k)) j := by
        rw [hnext]
        rintro (hb | ⟨w, hw⟩ | ⟨k', p, hp, hpj⟩)
        · exact hidle hb
        · exact hann w hw
        · by_cases hk : k' = k
          · subst hk
            have hnodup := h.nodup k'
            rw [hevents, List.map_cons, List.nodup_cons] at hnodup
            simp only [setHsm, Function.update_self] at hp
            exact hnodup.1 (List.mem_map.mpr ⟨p, hp, hpj⟩)
          · simp only [setHsm, Function.update_of_ne hk] at hp
            obtain ⟨-, -, i, hi, howner⟩ := h.held k _ hmem
            obtain ⟨-, -, i', hi', howner'⟩ := h.held k' p hp
            obtain rfl : i' = i := by
              rw [hpj] at hi'
              exact JobRef.slot.inj (hi'.symm.trans hi)
            rw [howner] at howner'
            exact hk (Option.some.inj howner').symm
      have hne : ∀ j', Carried (next s (.handledFree k)) j' → j' ≠ j := by
        rintro j' hj' rfl
        exact hgone hj'
      refine h.stay hq (by simp [enabled, hh]) trivial trivial (by simp) ?_ ?_ ?_ ?_ ?_ ?_ ?_
      · rw [hnext]; simp [setHsm, freeStep]
      · rw [hnext]; exact fun _ _ hx => hx
      · rw [hnext]; exact fun _ _ hx => hx
      · rw [hnext]; exact events_update (HsmQueue.handled_events _)
      · intro j' _ hj' hout
        have := outstanding_freed (hne j' hj') hout
        rw [hnext]; exact this
      · intro i _ hi
        have := freeStep_owner_of_ne (s := s) (hne _ hi)
        rw [hnext]; exact this
      · rw [hnext]; rfl
  · exact ha.elim

/-! ### Steps that hand a slot on -/

lemma osaWorkerPoolSubmit_targetHsm (m : Memory) (j : JobRef) :
    ((osaWorkerPoolSubmit m (some j)).2.jobs j).targetHsm = (m.jobs j).targetHsm := by
  have hassign : ((assignId m j).jobs j).targetHsm = (m.jobs j).targetHsm := by
    simp only [assignId, getNextJobId]
    split <;> simp [Memory.setId, Memory.modifyJob]
  rcases osaWorkerPoolSubmit_cases m j with ⟨-, hr⟩ | ⟨-, -, hr⟩
  · rw [hr]
  · rw [← hassign, hr]
    refine Memory.targetHsm_of_data ?_
    rw [Memory.modifyPool_data, Memory.modifyStats_data, enqueueJob_data]

/-- The submission of a slot: the queue carries it from now on. -/
lemma ClientInv.submitStep {s : Sys n} {b : Option JobRef} {c : ℕ} {j : JobRef} {t : Option ℕ}
    {sig : Int} (h : ClientInv s) (hq : QueueInv s b)
    (ha : enabled s (.submitToHsm c j t sig)) (hp : Protocol s (.submitToHsm c j t sig)) :
    ClientInv (next s (.submitToHsm c j t sig)) := by
  have hnot := h.not_carried hp.1
  rcases osaWorkerPoolSubmit_cases (s.mem.setTarget j t sig) j with ⟨-, hr⟩ | ⟨-, hr, -⟩
  · have hnext : next s (.submitToHsm c j t sig)
        = { s with mem := s.mem.setTarget j t sig, log := .refused j :: s.log } := by
      simp [next, osaWorkerPoolSubmitToHsm, afterSubmit, hr, submitEvent]
    refine h.stay hq ha hp trivial (by simp) ?_ ?_ ?_ ?_ ?_ ?_ ?_ <;> rw [hnext]
    · simp
    · exact fun _ _ hx => hx
    · exact fun _ _ hx => hx
    · exact fun _ => List.Sublist.refl _
    · exact fun _ _ _ hout => hout
    · exact fun _ _ _ => rfl
  · have hlog : (next s (.submitToHsm c j t sig)).log = .accepted j :: s.log := by
      simp [next, osaWorkerPoolSubmitToHsm, afterSubmit, hr, submitEvent]
    have hsub : (next s (.submitToHsm c j t sig)).submitter
        = Function.update s.submitter j (some c) := by
      simp [next, osaWorkerPoolSubmitToHsm, afterSubmit, hr]
    have htgt : ((next s (.submitToHsm c j t sig)).mem.jobs j).targetHsm = some c := by
      refine (osaWorkerPoolSubmit_targetHsm _ j).trans ?_
      rw [← hp.2]
      simp [Memory.setTarget, Memory.modifyJob]
    have hne : ∀ k, Carried s k → k ≠ j := fun k hk he => hnot (he ▸ hk)
    have hdata : ∀ k, Carried s k →
        (next s (.submitToHsm c j t sig)).mem.data k = s.mem.data k := fun k hk =>
      h.carried_data hq hp trivial hk fun w ret heq => by cases heq
    have hbusy : ∀ k, Busy (next s (.submitToHsm c j t sig)) k → Busy s k ∨ k = j := by
      intro k hk
      rcases hq.busy_next ha (h.discipline hp) hk with hk | ⟨-, hlog'⟩
      · exact Or.inl hk
      · rw [hlog] at hlog'
        have := (List.cons.inj hlog').1
        injection this with this
        exact Or.inr this.symm
    obtain ⟨i, rfl⟩ : ∃ i, j = .slot i := by
      cases j with
      | object k => exact hp.1.elim
      | slot i => exact ⟨i, rfl⟩
    refine ⟨?_, ?_, ?_, ?_, h.announcer, ?_, ?_, h.nodup⟩
    · intro k hk
      rw [hlog, outstanding, List.mem_cons]
      rcases hk with hk | hk
      · rcases hbusy k hk with hk | hk
        · exact Or.inr (h.out k (Or.inl hk))
        · exact Or.inl hk
      · exact Or.inr (h.out k (Or.inr hk))
    · intro k hk
      rcases hbusy k hk with hk | rfl
      · obtain ⟨i', c', rfl, howner, hc', htgt'⟩ := h.busy k hk
        refine ⟨i', c', rfl, howner, ?_, ?_⟩
        · rw [hsub, Function.update_of_ne (hne _ (Or.inl hk)), hc']
        · rw [Memory.targetHsm_of_data (hdata _ (Or.inl hk)), htgt']
      · exact ⟨i, c, rfl, hp.1.1, by rw [hsub, Function.update_self], htgt⟩
    · intro w k e hw
      have hcar : Carried s k := WorkerPc.carried_of_execution (s := s) hw
      obtain ⟨hm, i', c', rfl, howner, hc', htgt'⟩ := h.executed w k e hw
      refine ⟨hm.congr (hdata _ hcar), i', c', rfl, howner, hc', ?_⟩
      rw [Memory.targetHsm_of_data (hdata _ hcar), htgt']
    · intro k p hpk
      have hcar : Carried s p.1 := Or.inr (Or.inr ⟨k, p, hpk, rfl⟩)
      obtain ⟨hm, hrest⟩ := h.held k p hpk
      exact ⟨hm.congr (hdata _ hcar), hrest⟩
    · intro w k hw hk
      have hcar : Carried s k := Or.inr (Or.inl ⟨w, hw⟩)
      rcases hbusy k hk with hk | hk
      · exact h.announced w k hw hk
      · exact hne k hcar hk
    · intro k p hpk
      have hcar : Carried s p.1 := Or.inr (Or.inr ⟨k, p, hpk, rfl⟩)
      refine ⟨fun hk => ?_, (h.alone k p hpk).2⟩
      rcases hbusy p.1 hk with hk | hk
      · exact (h.alone k p hpk).1 hk
      · exact hne p.1 hcar hk

/-- The execution of a job: its result is recorded. -/
lemma ClientInv.executeStep {s : Sys n} {b : Option JobRef} {w : Fin n} {ret : Int}
    (h : ClientInv s) (hq : QueueInv s b) (ha : enabled s (.execute w ret)) :
    ClientInv (next s (.execute w ret)) := by
  cases hw : s.pc w with
  | running j =>
      have hex : (s.pc w).executing = some j := by rw [hw]; rfl
      have hbj : Busy s j := Or.inr ⟨w, hex⟩
      obtain ⟨i, c, rfl, howner, hsub, htgt⟩ := h.busy j hbj
      set m := executeJob s.mem (.slot i) ret with hm
      have hpc : (next s (.execute w ret)).pc = Function.update s.pc w
          (.executed (.slot i) ⟨s.submitter (.slot i), (m.jobs (.slot i)).id,
            (m.jobs (.slot i)).jobCtx, (m.jobs (.slot i)).result⟩) := by
        simp only [next, hw, hm]
      have hmem : (next s (.execute w ret)).mem = m := by simp only [next, hw, hm]
      have hsame : (next s (.execute w ret)).hsm = s.hsm ∧
          (next s (.execute w ret)).owner = s.owner ∧
          (next s (.execute w ret)).submitter = s.submitter := by simp only [next, hw, and_self]
      obtain ⟨hhsm, hown, hsubm⟩ := hsame
      have hout : outstanding (next s (.execute w ret)).log = outstanding s.log := by
        simp only [next, hw]
        split <;> rfl
      have hbusy : ∀ k, Busy (next s (.execute w ret)) k → Busy s k := fun k hk =>
        hq.busy_of_next ha trivial (by simp [Act.submits]) hk
      have hann : ∀ v k, ((next s (.execute w ret)).pc v).announcing = some k →
          (s.pc v).announcing = some k := by
        rw [hpc]; exact announcing_update rfl
      have hdata : ∀ k, k ≠ .slot i → m.data k = s.mem.data k := fun k hk =>
        Memory.data_of_jobs (executeJob_jobs_of_ne s.mem ret hk)
      have htgt' : (m.jobs (.slot i)).targetHsm = some c := by
        rw [← htgt, hm]
        simp [executeJob, Memory.setResult, Memory.modifyJob]
      refine ⟨?_, ?_, ?_, ?_, ?_, ?_, ?_, by rw [hhsm]; exact h.nodup⟩
      · intro k hk
        rw [hout]
        refine h.out k ?_
        rcases hk with hk | ⟨v, hv⟩ | hk
        · exact Or.inl (hbusy k hk)
        · exact Or.inr (Or.inl ⟨v, hann v k hv⟩)
        · rw [hhsm] at hk; exact Or.inr (Or.inr hk)
      · intro k hk
        obtain ⟨i', c', rfl, howner', hsub', htgt''⟩ := h.busy k (hbusy k hk)
        refine ⟨i', c', rfl, by rw [hown, howner'], by rw [hsubm, hsub'], ?_⟩
        rw [hmem]
        by_cases hii : JobRef.slot i' = .slot i
        · rw [hii] at htgt'' ⊢
          rw [htgt', ← htgt'', htgt]
        · rw [Memory.targetHsm_of_data (hdata _ hii), htgt'']
      · intro v k e hv
        rw [hpc] at hv
        by_cases hvw : v = w
        · rw [hvw, Function.update_self] at hv
          cases hv
          rw [hmem]
          exact ⟨⟨rfl, rfl, rfl⟩, i, c, rfl, by rw [hown, howner], hsub, htgt'⟩
        · rw [Function.update_of_ne hvw] at hv
          obtain ⟨hmat, i', c', rfl, howner', hc', htgt''⟩ := h.executed v k e hv
          have hne : JobRef.slot i' ≠ .slot i := by
            intro he
            cases hpv : s.pc v with
            | executed k' e' =>
                rw [hpv] at hv
                cases hv
                exact hvw (hq.distinct v w _ (by rw [hpv]; rfl) (he ▸ hex))
            | notifying k' e' =>
                rw [hpv] at hv
                cases hv
                exact h.announced v _ (by rw [hpv]; rfl) (he ▸ hbj)
            | _ => rw [hpv] at hv; cases hv
          rw [hmem]
          refine ⟨hmat.congr (hdata _ hne), i', c', rfl, by rw [hown, howner'], hc', ?_⟩
          rw [Memory.targetHsm_of_data (hdata _ hne), htgt'']
      · intro k p hp
        rw [hhsm] at hp
        obtain ⟨hmat, hc', i', hi', howner'⟩ := h.held k p hp
        have hne : p.1 ≠ .slot i := fun he => (h.alone k p hp).1 (he ▸ hbj)
        rw [hmem]
        exact ⟨hmat.congr (hdata _ hne), hc', i', hi', by rw [hown, howner']⟩
      · exact fun v v' k hv hv' => h.announcer v v' k (hann v k hv) (hann v' k hv')
      · exact fun v k hv hk => h.announced v k (hann v k hv) (hbusy k hk)
      · intro k p hp
        rw [hhsm] at hp
        obtain ⟨hidle, hnone⟩ := h.alone k p hp
        exact ⟨fun hk => hidle (hbusy _ hk), fun v hv => hnone v (hann v _ hv)⟩
  | _ => simp [enabled, hw] at ha

/-- The completion section: the worker goes on to announce the job. -/
lemma ClientInv.finishStep {s : Sys n} {b : Option JobRef} {w : Fin n}
    (h : ClientInv s) (hq : QueueInv s b) (ha : enabled s (.finish w)) :
    ClientInv (next s (.finish w)) := by
  cases hw : s.pc w with
  | executed j e =>
      have hex : (s.pc w).executing = some j := by rw [hw]; rfl
      have hbj : Busy s j := Or.inr ⟨w, hex⟩
      have hnext : next s (.finish w) =
          { s with
            mem := finishJob s.mem j
            pc := Function.update s.pc w (.notifying j e)
            log := .finished w j :: s.log } := by simp only [next, hw]
      have hbusy : ∀ k, Busy (next s (.finish w)) k → Busy s k ∧ k ≠ j := by
        rw [hnext]
        rintro k (hk | ⟨v, hv⟩)
        · refine ⟨Or.inl hk, ?_⟩
          rintro rfl
          exact hq.waiting_not_executing hk w hex
        · by_cases hvw : v = w
          · subst hvw
            simp only [Function.update_self] at hv
            cases hv
          · simp only [Function.update_of_ne hvw] at hv
            refine ⟨Or.inr ⟨v, hv⟩, ?_⟩
            rintro rfl
            exact hvw (hq.distinct v w k hv hex)
      have hexec : ∀ v, ((next s (.finish w)).pc v).execution = (s.pc v).execution := by
        intro v
        rw [hnext]
        show (Function.update s.pc w (.notifying j e) v).execution = (s.pc v).execution
        by_cases hvw : v = w
        · subst hvw; rw [Function.update_self, hw]; rfl
        · rw [Function.update_of_ne hvw]
      have hann : ∀ v k, ((next s (.finish w)).pc v).announcing = some k →
          (v = w ∧ k = j) ∨ (s.pc v).announcing = some k := by
        intro v k hv
        rw [hnext] at hv
        by_cases hvw : v = w
        · subst hvw
          simp only [Function.update_self] at hv
          exact Or.inl ⟨rfl, (Option.some.inj hv).symm⟩
        · simp only [Function.update_of_ne hvw] at hv
          exact Or.inr hv
      have hdata : ∀ k, (next s (.finish w)).mem.data k = s.mem.data k := fun k =>
        next_data (a := .finish w) fun hwr => hwr
      have hbusyold : ∀ v, (s.pc v).announcing = some j → False := fun v hv =>
        h.announced v j hv hbj
      refine ⟨?_, ?_, ?_, ?_, ?_, ?_, ?_, by rw [hnext]; exact h.nodup⟩
      · intro k hk
        have hout : outstanding (next s (.finish w)).log = outstanding s.log := by
          rw [hnext]; rfl
        rw [hout]
        refine h.out k ?_
        rcases hk with hk | ⟨v, hv⟩ | hk
        · exact Or.inl (hbusy k hk).1
        · rcases hann v k hv with ⟨-, rfl⟩ | hv
          · exact Or.inl hbj
          · exact Or.inr (Or.inl ⟨v, hv⟩)
        · rw [hnext] at hk; exact Or.inr (Or.inr hk)
      · intro k hk
        obtain ⟨i, c, rfl, howner, hsub, htgt⟩ := h.busy k (hbusy k hk).1
        refine ⟨i, c, rfl, by rw [hnext]; exact howner, by rw [hnext]; exact hsub, ?_⟩
        rw [Memory.targetHsm_of_data (hdata _), htgt]
      · intro v k e' hv
        rw [hexec] at hv
        obtain ⟨hmat, i, c, rfl, howner, hc, htgt⟩ := h.executed v k e' hv
        refine ⟨hmat.congr (hdata _), i, c, rfl, by rw [hnext]; exact howner, hc, ?_⟩
        rw [Memory.targetHsm_of_data (hdata _), htgt]
      · intro k p hp
        have hp' : p ∈ (s.hsm k).events := by rw [hnext] at hp; exact hp
        obtain ⟨hmat, hc, i, hi, howner⟩ := h.held k p hp'
        exact ⟨hmat.congr (hdata _), hc, i, hi, by rw [hnext]; exact howner⟩
      · intro v v' k hv hv'
        rcases hann v k hv with ⟨hvw, hkj⟩ | hvs <;> rcases hann v' k hv' with ⟨hvw', hkj'⟩ | hvs'
        · rw [hvw, hvw']
        · exact (hbusyold v' (hkj ▸ hvs')).elim
        · exact (hbusyold v (hkj' ▸ hvs)).elim
        · exact h.announcer v v' k hvs hvs'
      · intro v k hv hk
        obtain ⟨hk, hkj⟩ := hbusy k hk
        rcases hann v k hv with ⟨-, hkj'⟩ | hv
        · exact hkj hkj'
        · exact h.announced v k hv hk
      · intro k p hp
        have hp' : p ∈ (s.hsm k).events := by rw [hnext] at hp; exact hp
        obtain ⟨hidle, hnone⟩ := h.alone k p hp'
        refine ⟨fun hk => hidle (hbusy _ hk).1, fun v hv => ?_⟩
        rcases hann v _ hv with ⟨-, hpj⟩ | hv
        · exact hidle (hpj ▸ hbj)
        · exact hnone v hv
  | _ => simp [enabled, hw] at ha

/-- The announcement: the event goes to the state machine of the owner, or is lost. -/
lemma ClientInv.notifyStep {s : Sys n} {b : Option JobRef} {w : Fin n}
    (h : ClientInv s) (hq : QueueInv s b) (ha : enabled s (.notify w)) :
    ClientInv (next s (.notify w)) := by
  cases hw : s.pc w with
  | notifying j e =>
      have hannw : (s.pc w).announcing = some j := by rw [hw]; rfl
      obtain ⟨hmat, i, c, rfl, howner, hc, htgt⟩ := h.executed w j e (by rw [hw]; rfl)
      set q := ((s.hsm c).post (.completion
        (s.mem.jobs (.slot i)).completionSignal (.slot i) e)).2 with hpost
      have hpc : (next s (.notify w)).pc = Function.update s.pc w .waiting := by
        simp only [next, hw, OpenHsm.notifyStep, htgt]
      have hhsm : (next s (.notify w)).hsm = Function.update s.hsm c q := by
        simp only [next, hw, OpenHsm.notifyStep, htgt, hpost]
      have hsame : (next s (.notify w)).owner = s.owner ∧
          (next s (.notify w)).submitter = s.submitter := by
        simp only [next, hw, OpenHsm.notifyStep, htgt, and_self]
      obtain ⟨hown, hsubm⟩ := hsame
      have hout : outstanding (next s (.notify w)).log = outstanding s.log := by
        simp only [next, hw, OpenHsm.notifyStep, htgt]
        split <;> rfl
      have hbusy : ∀ k, Busy (next s (.notify w)) k → Busy s k := fun k hk =>
        hq.busy_of_next ha trivial (by simp [Act.submits]) hk
      have hexec : ∀ v x, ((next s (.notify w)).pc v).execution = some x →
          (s.pc v).execution = some x := by rw [hpc]; exact execution_update rfl
      have hann : ∀ v k, ((next s (.notify w)).pc v).announcing = some k →
          v ≠ w ∧ (s.pc v).announcing = some k := by
        intro v k hv
        rw [hpc] at hv
        refine ⟨?_, announcing_update rfl v k hv⟩
        rintro rfl
        rw [Function.update_self] at hv
        cases hv
      have hdata : ∀ k, (next s (.notify w)).mem.data k = s.mem.data k := fun k =>
        next_data (a := .notify w) fun hwr => hwr
      -- the new event is the one announced, at the end of the queue
      have hev : q.events = (s.hsm c).events ∨
          q.events = (s.hsm c).events ++ [(.slot i, e)] :=
        HsmQueue.post_completion_events ..
      have hmem : ∀ k p, p ∈ ((next s (.notify w)).hsm k).events →
          p ∈ (s.hsm k).events ∨ (k = c ∧ p = (.slot i, e)) := by
        intro k p hp
        rw [hhsm] at hp
        by_cases hk : k = c
        · subst hk
          rw [Function.update_self] at hp
          rcases hev with hev | hev <;> rw [hev] at hp
          · exact Or.inl hp
          · rcases List.mem_append.mp hp with hp | hp
            · exact Or.inl hp
            · exact Or.inr ⟨rfl, List.mem_singleton.mp hp⟩
        · rw [Function.update_of_ne hk] at hp
          exact Or.inl hp
      have hidle : ¬ Busy s (.slot i) := h.announced w _ hannw
      refine ⟨?_, ?_, ?_, ?_, ?_, ?_, ?_, ?_⟩
      · intro k hk
        rw [hout]
        refine h.out k ?_
        rcases hk with hk | ⟨v, hv⟩ | ⟨x, p, hp, hpk⟩
        · exact Or.inl (hbusy k hk)
        · exact Or.inr (Or.inl ⟨v, (hann v k hv).2⟩)
        · rcases hmem x p hp with hp | ⟨-, rfl⟩
          · exact Or.inr (Or.inr ⟨x, p, hp, hpk⟩)
          · exact Or.inr (Or.inl ⟨w, hpk ▸ hannw⟩)
      · intro k hk
        obtain ⟨i', c', rfl, howner', hsub, htgt'⟩ := h.busy k (hbusy k hk)
        refine ⟨i', c', rfl, by rw [hown, howner'], by rw [hsubm, hsub], ?_⟩
        rw [Memory.targetHsm_of_data (hdata _), htgt']
      · intro v k e' hv
        obtain ⟨hmat', i', c', rfl, howner', hc', htgt'⟩ := h.executed v k e' (hexec v _ hv)
        refine ⟨hmat'.congr (hdata _), i', c', rfl, by rw [hown, howner'], hc', ?_⟩
        rw [Memory.targetHsm_of_data (hdata _), htgt']
      · intro k p hp
        rcases hmem k p hp with hp | ⟨rfl, rfl⟩
        · obtain ⟨hmat', hc', i', hi', howner'⟩ := h.held k p hp
          exact ⟨hmat'.congr (hdata _), hc', i', hi', by rw [hown, howner']⟩
        · exact ⟨hmat.congr (hdata _), hc, i, rfl, by rw [hown, howner]⟩
      · exact fun v v' k hv hv' => h.announcer v v' k (hann v k hv).2 (hann v' k hv').2
      · exact fun v k hv hk => h.announced v k (hann v k hv).2 (hbusy k hk)
      · intro k p hp
        rcases hmem k p hp with hp | ⟨rfl, rfl⟩
        · obtain ⟨hno, hnone⟩ := h.alone k p hp
          exact ⟨fun hk => hno (hbusy _ hk), fun v hv => hnone v (hann v _ hv).2⟩
        · refine ⟨fun hk => hidle (hbusy _ hk), fun v hv => ?_⟩
          obtain ⟨hvw, hv⟩ := hann v _ hv
          exact hvw (h.announcer v w _ hv hannw)
      · intro k
        rw [hhsm]
        by_cases hk : k = c
        · subst hk
          rw [Function.update_self]
          rcases hev with hev | hev <;> rw [hev]
          · exact h.nodup k
          · rw [List.map_append, List.nodup_append]
            refine ⟨h.nodup k, by simp, ?_⟩
            rintro x hx y hy rfl
            obtain ⟨p, hp, rfl⟩ := List.mem_map.mp hx
            have hpi : p.1 = .slot i := by simpa using hy
            exact (h.alone k p hp).2 w (hpi ▸ hannw)
        · rw [Function.update_of_ne hk]
          exact h.nodup k
  | _ => simp [enabled, hw, WorkerPc.holdsLock] at ha

/-! ### Every step -/

/-- **The step lemma**: steps by the protocol, with quiet allocations, keep the invariant. -/
theorem ClientInv.step {s : Sys n} {b : Option JobRef} {a : Act n} (h : ClientInv s)
    (hq : QueueInv s b) (ha : enabled s a) (hp : Protocol s a) (hquiet : AllocQuiet s a) :
    ClientInv (next s a) := by
  cases a with
  | submit c k => exact hp.elim
  | cancel id fuel => exact hp.elim
  | alloc c => exact h.allocStep hq hquiet
  | submitToHsm c k t sig => exact h.submitStep hq ha hp
  | execute w ret => exact h.executeStep hq ha
  | finish w => exact h.finishStep hq ha
  | notify w => exact h.notifyStep hq ha
  | handledFree k => exact h.handledFreeStep hq ha
  | init c k args =>
      exact h.stay hq ha hp hquiet (by simp) (by simp [next]) (fun _ _ hx => hx)
        (fun _ _ hx => hx) (fun _ => List.Sublist.refl _) (fun _ _ _ hout => hout)
        (fun _ _ _ => rfl) rfl
  | free c k =>
      have hnot := h.not_carried hp
      have hne : ∀ j, Carried s j → j ≠ k := fun j hj he => hnot (he ▸ hj)
      exact h.stay hq ha hp hquiet (by simp) (by simp [next, freeStep]) (fun _ _ hx => hx)
        (fun _ _ hx => hx) (fun _ => List.Sublist.refl _)
        (fun j hj _ hout => outstanding_freed (hne j hj) hout)
        (fun i hi _ => freeStep_owner_of_ne (hne _ hi)) rfl
  | take w =>
      exact h.stay hq ha hp hquiet (by simp) (by simp [next]) (execution_update rfl)
        (announcing_update rfl) (fun _ => List.Sublist.refl _) (fun _ _ _ hout => hout)
        (fun _ _ _ => rfl) rfl
  | dequeue w =>
      rcases next_dequeue_cases s w with ⟨-, hnext⟩ | ⟨-, -, hnext⟩ | ⟨k, -, -, hnext⟩
      · exact h.moved hq ha hp hquiet (by simp) hnext rfl rfl (by simp) fun _ hj => hj
      · exact h.moved hq ha hp hquiet (by simp) hnext rfl rfl (by simp) fun _ hj => hj
      · exact h.moved hq ha hp hquiet (by simp) hnext rfl rfl (by simp) fun _ hj => hj
  | waitCall x k t =>
      refine h.stay hq ha hp hquiet (by simp) ?_ ?_ ?_ ?_ ?_ ?_ ?_ <;> simp only [next] <;>
        split <;> simp [outstanding]
  | waitReturn x | waitTake x | waitFail x err | stopPost =>
      refine h.stay hq ha hp hquiet (by simp) ?_ ?_ ?_ ?_ ?_ ?_ ?_ <;> simp only [next] <;>
        split <;> simp [outstanding]
  | stopBegin | stopJoin w =>
      exact h.stay hq ha hp hquiet (by simp) (by simp [next]) (fun _ _ hx => hx)
        (fun _ _ hx => hx) (fun _ => List.Sublist.refl _) (fun _ _ _ hout => hout)
        (fun _ _ _ => rfl) rfl
  | hsmStart k =>
      exact h.stay hq ha hp hquiet (by simp) (by simp [next, setHsm]) (fun _ _ hx => hx)
        (fun _ _ hx => hx) (events_update (List.Sublist.refl _)) (fun _ _ _ hout => hout)
        (fun _ _ _ => rfl) rfl
  | post k sig =>
      exact h.stay hq ha hp hquiet (by simp) (by simp [next, setHsm]) (fun _ _ hx => hx)
        (fun _ _ hx => hx)
        (events_update (by rw [HsmQueue.post_other_events])) (fun _ _ _ hout => hout)
        (fun _ _ _ => rfl) rfl
  | receive k =>
      exact h.stay hq ha hp hquiet (by simp) (by simp [next, setHsm]) (fun _ _ hx => hx)
        (fun _ _ hx => hx)
        (events_update (by rw [HsmQueue.receive_events ha.1])) (fun _ _ _ hout => hout)
        (fun _ _ _ => rfl) rfl
  | handled k =>
      exact h.stay hq ha hp hquiet (by simp) (by simp [next, setHsm]) (fun _ _ hx => hx)
        (fun _ _ hx => hx) (events_update (HsmQueue.handled_events _)) (fun _ _ _ hout => hout)
        (fun _ _ _ => rfl) rfl

/-- What holds along the runs in question. -/
lemma ClientInv.of_reachable {s : Sys n}
    (h : ((poolSystem n).restrict fun s a => Protocol s a ∧ AllocQuiet s a).Reachable s) :
    (∃ b, QueueInv s b) ∧ ClientInv s := by
  refine h.invariant (P := fun s => (∃ b, QueueInv s b) ∧ ClientInv s) ?_ ?_
  · exact fun s hs => ⟨⟨none, QueueInv.initial hs⟩, ClientInv.initial hs⟩
  · rintro s a ⟨⟨b, hb⟩, hc⟩ ⟨ha, hp, hquiet⟩
    exact ⟨⟨_, hb.step ha (hc.discipline hp) (cancelFresh_of_protocol hp)⟩,
      hc.step hb ha hp hquiet⟩

/-- The client 0 submits a job in the slot `i` with the context `10`, which the worker `w`
executes with the result `5` and announces to the client's state machine. -/
def announcedRun (w : Fin n) (i : Fin osaJobPoolSize) : List (Act n) :=
  [.hsmStart 0, .alloc 0, .init 0 (.slot i) ⟨some 1, some 10, none, none⟩,
    .submitToHsm 0 (.slot i) (some 0) 7, .take w, .dequeue w, .execute w 5, .finish w, .notify w]

end OpenHsm
