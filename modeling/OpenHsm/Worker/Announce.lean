import OpenHsm.Worker.Statistics

/-!
The announcement of an execution: the callback, the event for the target and the token on
`complete_sem`, in the second half of the completion section.

* `touched`, `LeftAlone`, `NoCancel`: a job is left alone by its owner and by
  `osa_worker_job_alloc` until it is announced, and no cancel succeeds.
* `AnnounceInv`: a job that is being announced carries its own execution, its state is
  final and nobody uses it.
* `Announcement`, `Silent`: what the announcing step does, and that no other step does any
  of it.
* `completeTokens_step`, `holding_step`: the tokens of `complete_sem` and the finished
  executions against the announcements made.
* `announced_once`: all of it along a run.  `announcements_lost` has the two runs that break
  the account: a slot is handed out between its final state and its announcement, and a token
  is dropped at `SEM_VALUE_MAX`.
-/

namespace OpenHsm

open Occupancy Runs

variable {n : ℕ}

/-! ### Jobs that are left alone -/

/-- A worker has finished the job and is about to announce it. -/
def Announcing (s : Sys n) (j : JobRef) : Prop := ∃ w, (s.pc w).announcing = some j

instance (s : Sys n) (j : JobRef) : Decidable (Announcing s j) :=
  inferInstanceAs (Decidable (∃ _, _))

/-- The job a caller or the allocator writes to. -/
def touched (s : Sys n) : Act n → Option JobRef
  | .init _ j _ | .free _ j | .submit _ j | .submitToHsm _ j _ _ => some j
  | .alloc _ => (osaWorkerJobAlloc s.mem).1.map .slot
  | .handledFree h => match (s.hsm h).handling with
      | some (.completion _ j _) => some j
      | _ => none
  | _ => none

/-- Callers keep the discipline and leave a job alone until it is announced, and so does the
allocator. -/
def LeftAlone (s : Sys n) (a : Act n) : Prop :=
  Discipline s a ∧ ∀ j ∈ touched s a, ¬ Announcing s j

instance (s : Sys n) (a : Act n) : Decidable (LeftAlone s a) :=
  inferInstanceAs (Decidable (_ ∧ ∀ _, _))

/-- A cancel, if the step is one, returns `-1`. -/
def NoCancel (s : Sys n) : Act n → Prop
  | .cancel id fuel => ∀ r ∈ osaWorkerPoolCancel s.mem id fuel, r.1 ≠ 0
  | _ => True

instance (s : Sys n) (a : Act n) : Decidable (NoCancel s a) := by
  induction a using Act.casesOn <;> (dsimp only [NoCancel]; infer_instance)

/-- A cancel that fails is fresh: it does not stop at the first job. -/
lemma NoCancel.fresh {s : Sys n} {a : Act n} (h : NoCancel s a) (ha : enabled s a) :
    CancelFresh s a := by
  cases a with
  | cancel id fuel =>
      intro j hj hid
      rw [Option.mem_def] at hj
      have hsome : (osaWorkerPoolCancel s.mem id fuel).isSome := ha.2
      cases fuel with
      | zero => simp [osaWorkerPoolCancel, hj, cancelSearch] at hsome
      | succ fuel =>
          have hfound : osaWorkerPoolCancel s.mem id (fuel + 1) = some (0, cancelJob s.mem j) := by
            simp [osaWorkerPoolCancel, hj, cancelSearch, hid]
          exact absurd rfl (h _ hfound)
  | _ => trivial

/-- The state an execution leaves. -/
def Execution.finalState (e : Execution) : JobState :=
  if e.result < 0 then .error else .completed

/-- What a worker is about to announce is its own execution. -/
structure AnnounceInv (s : Sys n) : Prop where
  recorded : Recorded s
  own : ∀ w j e, s.pc w = .notifying j e → Matches s.mem j e ∧ s.mem.state j = e.finalState
  unused : ∀ j, Announcing s j → ¬ Busy s j
  initialised : ∀ i, Announcing s (.slot i) → s.mem.gJobPoolInitialized = true

lemma AnnounceInv.initial {s : Sys n} (h : Initial s) : AnnounceInv s := by
  obtain ⟨-, -, hpc, -⟩ := id h
  have hnone : ∀ j, ¬ Announcing s j := by
    rintro j ⟨w, hw⟩
    rw [hpc] at hw
    cases hw
  refine ⟨Recorded.initial h, ?_, fun j hj => absurd hj (hnone j),
    fun i hi => absurd hi (hnone _)⟩
  intro w j e hw
  rw [hpc] at hw
  cases hw

/-- Nobody writes to a job that is being announced. -/
lemma AnnounceInv.not_writesData {s : Sys n} {a : Act n} {j : JobRef} (h : AnnounceInv s)
    (hl : LeftAlone s a) (hj : Announcing s j) : ¬ WritesData s a j := by
  intro hw
  cases a with
  | init c k args => exact hl.2 k rfl (hw ▸ hj)
  | submit c k => exact hl.2 k rfl (hw ▸ hj)
  | submitToHsm c k t sig => exact hl.2 k rfl (hw ▸ hj)
  | execute w ret => exact h.unused j hj (Or.inr ⟨w, hw⟩)
  | alloc c =>
      obtain ⟨i, rfl, hi⟩ := hw
      rcases hi with hi | hi
      · rw [h.initialised i hj] at hi
        cases hi
      · exact hl.2 (.slot i) (by simp [touched, hi]) hj
  | _ => exact hw

/-- Freeing another job leaves the state of a job. -/
lemma freeStep_state_of_ne (s : Sys n) {j k : JobRef} (hjk : j ≠ k) :
    (freeStep s k).mem.state j = s.mem.state j := by
  cases k with
  | object i => rfl
  | slot i => rw [freeStep_state_slot, Function.update_of_ne hjk]

/-- The state of a job that is being announced stays final. -/
lemma AnnounceInv.state_keep {s : Sys n} {b : Option JobRef} {a : Act n} {j : JobRef}
    (h : AnnounceInv s) (hq : QueueInv s b) (ha : enabled s a) (hl : LeftAlone s a)
    (hj : Announcing s j) : (next s a).mem.state j = s.mem.state j := by
  by_cases hk : ∃ k, a = .handledFree k
  · obtain ⟨k, rfl⟩ := hk
    simp only [next]
    split
    · next sig i e hh =>
        refine freeStep_state_of_ne s fun hji => hl.2 i ?_ (hji ▸ hj)
        simp [touched, hh]
    · rfl
  · have hfree := h.unused j hj
    have hmove := hq.next_state ha hl.1 j
    generalize (next s a).mem.state j = st at hmove
    cases hmove with
    | same => rfl
    | picked w _ _ _ hw => exact absurd (Or.inl hw) hfree
    | cancelled id fuel _ hw => exact absurd (Or.inl hw) hfree
    | finished w _ hw _ => exact absurd (Or.inr ⟨w, hw⟩) hfree
    | renewed hr _ =>
        rcases hr with ⟨c, args, rfl⟩ | ⟨c, rfl⟩ | ⟨c, t, sig, rfl⟩ <;>
          exact absurd hj (hl.2 j rfl)
    | allocated c i hact hji _ hor =>
        subst hact hji
        rcases hor with ⟨hi, -⟩ | ⟨hi, -⟩
        · exact absurd hj (hl.2 (.slot i) (by simp [touched, hi]))
        · rw [h.initialised i hj] at hi
          cases hi
    | freed i hor hji _ =>
        rcases hor with ⟨c, rfl⟩ | hor
        · exact absurd hj (hl.2 j rfl)
        · exact absurd hor hk

/-- The slots stay initialised. -/
lemma initialised_keep {s : Sys n} {a : Act n} (h : s.mem.gJobPoolInitialized = true) :
    (next s a).mem.gJobPoolInitialized = true := by
  cases slotMove s a with
  | same _ hi => rw [hi, h]
  | alloc c _ hmem _ _ => rw [hmem, osaWorkerJobAlloc_initialized]
  | free j _ hmem _ =>
      rw [hmem]
      cases j <;> simpa [freeStep, osaWorkerJobFree] using h

/-- A worker starts to announce a job at the first half of its completion section. -/
lemma announcing_next {s : Sys n} {a : Act n} (ha : enabled s a) {w : Fin n} {j : JobRef}
    {e : Execution} (hw : (next s a).pc w = .notifying j e) :
    s.pc w = .notifying j e ∨ (a = .finish w ∧ s.pc w = .executed j e) := by
  have hmove := pcMove ha w
  rw [hw] at hmove
  generalize hp : WorkerPc.notifying j e = p at hmove
  cases hmove with
  | same _ => exact .inl rfl
  | settle k e' hact hk => cases hp; exact .inr ⟨hact, hk⟩
  | _ => cases hp

lemma announcing_iff {s : Sys n} {j : JobRef} :
    Announcing s j ↔ ∃ w e, s.pc w = .notifying j e := by
  constructor
  · rintro ⟨w, hw⟩
    cases hp : s.pc w with
    | notifying k e =>
        rw [hp] at hw
        cases hw
        exact ⟨w, e, hp⟩
    | _ => rw [hp] at hw; cases hw
  · rintro ⟨w, e, hw⟩
    exact ⟨w, by rw [hw]; rfl⟩

/-- Every step keeps the invariant. -/
lemma AnnounceInv.step {s : Sys n} {b : Option JobRef} {a : Act n} (h : AnnounceInv s)
    (hq : QueueInv s b) (ha : enabled s a) (hl : LeftAlone s a) : AnnounceInv (next s a) := by
  have hbusy : ∀ w j e, a = .finish w → s.pc w = .executed j e → Busy s j := fun w j e _ hw =>
    Or.inr ⟨w, by rw [hw]; rfl⟩
  refine ⟨h.recorded.step hq ha hl.1, ?_, ?_, ?_⟩
  · intro w j e hw
    rcases announcing_next ha hw with hold | ⟨rfl, hex⟩
    · have hj : Announcing s j := announcing_iff.mpr ⟨w, e, hold⟩
      obtain ⟨hm, hst⟩ := h.own w j e hold
      exact ⟨hm.congr (next_data (h.not_writesData hl hj)), (h.state_keep hq ha hl hj).trans hst⟩
    · obtain ⟨-, -, hres⟩ := h.recorded w j e hex
      refine ⟨(h.recorded w j e hex).congr (next_data (by simp [WritesData])), ?_⟩
      simp only [next, hex]
      rw [finishJob_state, Function.update_self, hres, Execution.finalState]
  · intro j hj hb
    obtain ⟨w, e, hw⟩ := announcing_iff.mp hj
    rcases announcing_next ha hw with hold | ⟨rfl, hex⟩
    · have hj' : Announcing s j := announcing_iff.mpr ⟨w, e, hold⟩
      rcases hq.busy_next ha hl.1 hb with hb' | ⟨hsub, -⟩
      · exact h.unused j hj' hb'
      · rcases hsub with ⟨c, rfl⟩ | ⟨c, t, sig, rfl⟩ <;> exact hl.2 j rfl hj'
    · have hex' : (s.pc w).executing = some j := by rw [hex]; rfl
      rcases hb with hb | ⟨v, hv⟩
      · simp only [next, hex, waiting] at hb
        exact hq.waiting_not_executing hb w hex'
      · simp only [next, hex] at hv
        by_cases hvw : v = w
        · subst hvw
          rw [Function.update_self] at hv
          cases hv
        · rw [Function.update_of_ne hvw] at hv
          exact hvw (hq.distinct v w j hv hex')
  · intro i hi
    obtain ⟨w, e, hw⟩ := announcing_iff.mp hi
    refine initialised_keep ?_
    rcases announcing_next ha hw with hold | ⟨rfl, hex⟩
    · exact h.initialised i (announcing_iff.mpr ⟨w, e, hold⟩)
    · have howner := hq.owned i (hbusy w _ e rfl hex)
      by_contra hf
      exact howner (hq.fresh (by simpa using hf) i)

/-! ### What a step announces -/

/-- The completion events that wait for a state machine. -/
def HsmQueue.completions (q : HsmQueue) : List (Int × JobRef × Execution) :=
  q.messages.filterMap fun
    | .completion sig j e => some (sig, j, e)
    | .other _ => none

/-- Worker `w` announces the execution `e` of the job `j` in the step from `s` to `t`. -/
structure Announcement (s t : Sys n) (w : Fin n) (j : JobRef) (e : Execution) : Prop where
  /-- The state and the counters are final. -/
  state : s.mem.state j = e.finalState
  stats : t.mem.pool.stats = s.mem.pool.stats
  /-- The callback is called once, if there is one, with the result of the execution. -/
  callback : callbacks t.log
    = (if (s.mem.jobs j).completeCb = none then [] else [(w, j, e.result)]) ++ callbacks s.log
  /-- `osa_sem_post` is called once. -/
  token : t.mem.pool.completeSem = osaSemPost s.mem.pool.completeSem
  /-- The target gets one event, if its queue exists and is not full, and nobody else. -/
  event : ∀ h, t.hsm h =
    if (s.mem.jobs j).targetHsm = some h ∧ (s.hsm h).created = true ∧
        (s.hsm h).messages.length < (s.hsm h).capacity then
      { s.hsm h with
        messages := (s.hsm h).messages ++ [.completion (s.mem.jobs j).completionSignal j e] }
    else s.hsm h

/-- The step from `s` to `t` announces nothing: events and tokens are only taken. -/
structure Silent (s t : Sys n) : Prop where
  callback : callbacks t.log = callbacks s.log
  token : t.mem.pool.completeSem.posixSem ≤ s.mem.pool.completeSem.posixSem
  event : ∀ h, (t.hsm h).completions <:+ (s.hsm h).completions

lemma HsmQueue.post_snd (q : HsmQueue) (msg : Message) :
    (q.post msg).2 = if q.created = true ∧ q.messages.length < q.capacity then
      { q with messages := q.messages ++ [msg] } else q := by
  rw [HsmQueue.post]
  by_cases hc : q.created = true
  · by_cases hlen : q.messages.length < q.capacity
    · simp [hc, hlen, Nat.not_le.mpr hlen]
    · simp [hc, hlen, Nat.not_lt.mp hlen]
  · simp [hc]

/-- **What an announcement does.** -/
lemma AnnounceInv.announcement {s : Sys n} (h : AnnounceInv s) {a : Act n} {w : Fin n}
    {j : JobRef} {e : Execution} (hold : told s a = some (w, j, e)) :
    Announcement s (next s a) w j e := by
  obtain ⟨rfl, hw⟩ := told_eq_some hold
  obtain ⟨⟨-, -, hres⟩, hst⟩ := h.own w j e hw
  simp only [next, hw]
  refine ⟨hst, ?_, ?_, ?_, fun k => ?_⟩
  · simp only [notifyStep]
    cases (s.mem.jobs j).targetHsm <;> rfl
  · rw [callbacks_notifyStep, hres]
  · simp only [notifyStep]
    cases (s.mem.jobs j).targetHsm <;> rfl
  · simp only [notifyStep]
    cases htgt : (s.mem.jobs j).targetHsm with
    | none => simp
    | some i =>
        by_cases hik : i = k
        · subst hik
          simp only [Function.update_self, HsmQueue.post_snd, true_and]
        · have hki : k ≠ i := fun he => hik he.symm
          simp only [Function.update_of_ne hki, Option.some.injEq, hik, false_and, if_false]

/-- Changing one queue in a way that adds no completion event. -/
lemma completions_update {f : ℕ → HsmQueue} {k : ℕ} {q : HsmQueue}
    (h : q.completions <:+ (f k).completions) (i : ℕ) :
    (Function.update f k q i).completions <:+ (f i).completions := by
  by_cases hik : i = k
  · subst hik
    rwa [Function.update_self]
  · rw [Function.update_of_ne hik]

/-- Another event is no completion event. -/
lemma HsmQueue.completions_post_other (q : HsmQueue) (sig : Int) :
    (q.post (.other sig)).2.completions = q.completions := by
  rw [HsmQueue.post_snd]
  split
  · simp [HsmQueue.completions]
  · rfl

lemma HsmQueue.completions_receive (q : HsmQueue) : q.receive.completions <:+ q.completions := by
  rw [HsmQueue.completions, HsmQueue.completions, HsmQueue.receive]
  exact (List.tail_suffix _).filterMap _

/-- Every second half of a completion section announces. -/
lemma ne_notify_of_told {s : Sys n} {a : Act n} (ha : enabled s a) (hold : told s a = none)
    (w : Fin n) : a ≠ .notify w := by
  rintro rfl
  cases hw : s.pc w with
  | notifying j e => simp [told, hw] at hold
  | _ => simp [enabled, hw, WorkerPc.holdsLock] at ha

/-- No other step calls a callback. -/
lemma callbacks_next {s : Sys n} {a : Act n} (ha : enabled s a) (hold : told s a = none) :
    callbacks (next s a).log = callbacks s.log := by
  cases a with
  | notify w => exact absurd rfl (ne_notify_of_told ha hold w)
  | submit c j | submitToHsm c j t sig =>
      simp only [next, afterSubmit, submitEvent]
      split <;> rfl
  | cancel id fuel =>
      simp only [next, cancelEvent]
      split
      · split <;> rfl
      · rfl
  | dequeue w =>
      simp only [next]
      split
      · rfl
      · split <;> rfl
  | execute w ret =>
      simp only [next]
      split
      · simp only []
        split <;> rfl
      · rfl
  | alloc c | finish w | waitCall x j t | waitTake x | waitFail x err | waitReturn x | stopPost
  | handledFree k => simp only [next]; split <;> rfl
  | _ => rfl

/-- No other step posts a completion event. -/
lemma completions_next {s : Sys n} {a : Act n} (ha : enabled s a) (hold : told s a = none)
    (h : ℕ) : ((next s a).hsm h).completions <:+ (s.hsm h).completions := by
  cases a with
  | notify w => exact absurd rfl (ne_notify_of_told ha hold w)
  | hsmStart k =>
      exact completions_update (q := { s.hsm k with created := true }) (List.suffix_refl _) h
  | post k sig => exact completions_update (by rw [HsmQueue.completions_post_other]) h
  | receive k => exact completions_update (HsmQueue.completions_receive _) h
  | handled k =>
      exact completions_update (q := { s.hsm k with handling := none }) (List.suffix_refl _) h
  | handledFree k =>
      simp only [next]
      split
      · exact completions_update (q := { s.hsm k with handling := none }) (List.suffix_refl _) h
      · exact List.suffix_refl _
  | cancel id fuel | alloc c | execute w ret | finish w | waitCall x j t | waitTake x
  | waitFail x err | waitReturn x | stopPost =>
      simp only [next]
      split <;> exact List.suffix_refl _
  | dequeue w =>
      simp only [next]
      split
      · exact List.suffix_refl _
      · split <;> exact List.suffix_refl _
  | _ => exact List.suffix_refl _

/-- **No other step announces anything.** -/
lemma silent {s : Sys n} {a : Act n} (ha : enabled s a) (hold : told s a = none) :
    Silent s (next s a) := by
  refine ⟨callbacks_next ha hold, ?_, completions_next ha hold⟩
  rw [next_completeSem ha]
  cases a with
  | notify w => exact absurd rfl (ne_notify_of_told ha hold w)
  | submit c j | submitToHsm c j t sig => simp only [frameAfter]; split <;> simp [Pool.frame]
  | _ => simp [frameAfter, Pool.frame]

/-! ### The fields of a submission -/

/-- What a submission asks for: the fields of the job besides its state, its links and its
result. -/
def Memory.request (m : Memory) (j : JobRef) : Job := { m.data j with result := 0 }

lemma Memory.request_of_data {m m' : Memory} {j : JobRef} (h : m.data j = m'.data j) :
    m.request j = m'.request j := by
  rw [Memory.request, h, Memory.request]

/-- The job is queued, in the hands of a worker, or about to be announced. -/
def Held (s : Sys n) (j : JobRef) : Prop := Busy s j ∨ Announcing s j

/-- From its submission to its announcement a job keeps its function, its callback, its
target and its signal. -/
lemma AnnounceInv.request_next {s : Sys n} {b : Option JobRef} {a : Act n} {j : JobRef}
    (h : AnnounceInv s) (hq : QueueInv s b) (hl : LeftAlone s a) (hj : Held s j) :
    (next s a).mem.request j = s.mem.request j := by
  by_cases hex : ∃ w ret, a = .execute w ret ∧ (s.pc w).executing = some j
  · obtain ⟨w, ret, rfl, hw⟩ := hex
    cases hp : s.pc w with
    | running k =>
        rw [hp] at hw
        cases hw
        simp only [next, hp]
        simp [Memory.request, Memory.data, Job.data, executeJob, Memory.setResult,
          Memory.modifyJob]
    | executed k e => simp [next, hp]
    | _ => rw [hp] at hw; cases hw
  · simp only [not_exists, not_and] at hex
    refine Memory.request_of_data ?_
    rcases hj with hj | hj
    · exact hq.busy_data hl.1 hj fun w ret hact => hex w ret hact
    · exact next_data (h.not_writesData hl hj)

/-! ### The account of the tokens -/

/-- A call of `osa_worker_pool_wait` takes a token. -/
def took (_ : Sys n) : Act n → Option ℕ
  | .waitTake x => some x
  | _ => none

/-- The post on `complete_sem`, if the step makes one, does not find it at
`SEM_VALUE_MAX`. -/
def CompleteRoom (s : Sys n) : Act n → Prop
  | .notify _ => s.mem.pool.completeSem.posixSem < semValueMax
  | _ => True

instance (s : Sys n) (a : Act n) : Decidable (CompleteRoom s a) := by
  induction a using Act.casesOn <;> (dsimp only [CompleteRoom]; infer_instance)

lemma along_length_cons {β : Type*} (f : Sys n → Act n → Option β) (s : Sys n) (a : Act n)
    (l : List (Sys n × Act n)) :
    (along f ((s, a) :: l)).length = (along f l).length + (f s a).toList.length := by
  cases h : f s a with
  | none => rw [along_cons_none h]; rfl
  | some x => rw [along_cons_some h]; rfl

/-- Announcements make tokens, waits take them. -/
lemma completeTokens_step {s : Sys n} {a : Act n} (ha : enabled s a) (hroom : CompleteRoom s a) :
    (next s a).mem.pool.completeSem.posixSem + (took s a).toList.length
      = s.mem.pool.completeSem.posixSem + (told s a).toList.length := by
  rw [next_completeSem ha]
  cases a with
  | notify w =>
      cases hw : s.pc w with
      | notifying j e =>
          simp only [frameAfter, told, took, hw]
          rw [osaSemPost_posixSem (by exact hroom)]
          simp [Pool.frame]
      | _ => simp [enabled, hw, WorkerPc.holdsLock] at ha
  | waitTake x =>
      have hpos : 0 < s.mem.pool.completeSem.posixSem := by
        simp only [enabled] at ha
        split at ha
        · exact ha
        · exact ha.elim
      have htake : (osaSemTake s.mem.pool.completeSem).posixSem + 1
          = s.mem.pool.completeSem.posixSem := Nat.sub_add_cancel hpos
      exact htake
  | submit c j | submitToHsm c j t sig =>
      simp only [frameAfter, took, told]
      split <;> simp [Pool.frame]
  | _ => simp [frameAfter, took, told, Pool.frame]

/-- The worker is inside its completion section. -/
def WorkerPc.Holding (p : WorkerPc) : Prop := p.holdsLock = true

instance : DecidablePred WorkerPc.Holding := fun _ => inferInstanceAs (Decidable (_ = _))

/-- A completion section is open from its first half to its second. -/
lemma holding_step {s : Sys n} {a : Act n} (ha : enabled s a) :
    occupancy WorkerPc.Holding (next s a).pc + (told s a).toList.length
      = occupancy WorkerPc.Holding s.pc + (settled s a).toList.length := by
  cases hw : a.worker with
  | none =>
      rw [pc_of_no_worker ha hw]
      cases a <;> first | rfl | cases hw
  | some w =>
      have hmove := pcMove ha w
      rw [pc_of_worker ha hw]
      generalize (next s a).pc w = p at hmove
      cases hmove with
      | same h => exact absurd hw h
      | take hact hp | exit hact hp | idle hact hp | pick j hact hp | run j ret hact hp =>
          subst hact
          rw [occupancy_keep (by rw [hp]; simp [WorkerPc.Holding, WorkerPc.holdsLock])]
          rfl
      | settle j e hact hp =>
          subst hact
          have henter := occupancy_enter (P := WorkerPc.Holding) (f := s.pc) (i := w)
            (a := .notifying j e) (by rw [hp]; simp [WorkerPc.Holding, WorkerPc.holdsLock]) rfl
          simpa [told, settled, hp] using henter
      | tell j e hact hp =>
          subst hact
          have hleave := occupancy_leave (P := WorkerPc.Holding) (f := s.pc) (i := w)
            (a := .waiting) (by rw [hp]; rfl) (by simp [WorkerPc.Holding, WorkerPc.holdsLock])
          simpa [told, settled, hp] using hleave

/-- The finished executions are announced or about to be. -/
lemma holding_count {s t : Sys n} {l : List (Sys n × Act n)} (hs : Initial s)
    (hl : (poolSystem n).RunFrom s l t) :
    occupancy WorkerPc.Holding t.pc + (along told l).length = (along settled l).length := by
  induction hl with
  | refl =>
      obtain ⟨-, -, hpc, -⟩ := hs
      have hzero : occupancy WorkerPc.Holding s.pc = 0 := by
        rw [occupancy_eq_zero_iff, hpc]
        exact fun _ h => by cases h
      rw [hzero]
      rfl
  | @step l u a _ ha ih =>
      have hstep := holding_step ha
      rw [along_length_cons, along_length_cons]
      show occupancy WorkerPc.Holding (next u a).pc + _ = _
      omega

/-- While the lock is free all of them are announced. -/
lemma told_eq_settled {s t : Sys n} {l : List (Sys n × Act n)} (hs : Initial s)
    (hl : (poolSystem n).RunFrom s l t) (hfree : LockFree t) :
    (along told l).length = (along settled l).length := by
  have hzero : occupancy WorkerPc.Holding t.pc = 0 := by
    rw [occupancy_eq_zero_iff]
    intro w hw
    rw [WorkerPc.Holding, hfree w] at hw
    cases hw
  have hcount := holding_count hs hl
  omega

/-- The tokens that are left and those that were taken are those that were posted. -/
lemma tokens_count {s t : Sys n} {l : List (Sys n × Act n)} (hs : Initial s)
    (hl : (poolSystem n).RunFrom s l t) (hroom : ∀ p ∈ l, CompleteRoom p.1 p.2) :
    t.mem.pool.completeSem.posixSem + (along took l).length = (along told l).length := by
  induction hl with
  | refl =>
      obtain ⟨⟨k, q, hpool⟩, -⟩ := hs
      rw [hpool]
      rfl
  | @step l u a _ ha ih =>
      obtain ⟨hr, hroom⟩ := List.forall_mem_cons.mp hroom
      have hstep := completeTokens_step ha hr
      have hold := ih hroom
      rw [along_length_cons, along_length_cons]
      show (next u a).mem.pool.completeSem.posixSem + _ = _
      omega

/-! ### Runs -/

/-- What holds along a run `l` to the state `t`. -/
structure AnnouncedOnce (l : List (Sys n × Act n)) (t : Sys n) : Prop where
  /-- Every worker announces what it executed, once and before it dequeues again. -/
  account : ∀ w, Sections w l t
  announcement : ∀ p ∈ l, ∀ w j e, told p.1 p.2 = some (w, j, e) →
    Announcement p.1 (next p.1 p.2) w j e
  silent : ∀ p ∈ l, told p.1 p.2 = none → Silent p.1 (next p.1 p.2)
  /-- What is announced is what was submitted. -/
  request : ∀ p ∈ l, ∀ j, Held p.1 j → (next p.1 p.2).mem.request j = p.1.mem.request j
  /-- Tokens are dropped only at `SEM_VALUE_MAX`. -/
  tokens : (∀ p ∈ l, CompleteRoom p.1 p.2) → LockFree t →
    UInt32.ofNat (t.mem.pool.completeSem.posixSem + (along took l).length)
      = t.mem.pool.stats.totalCompleted + t.mem.pool.stats.totalErrors

/-- **Every execution is announced exactly once**, in every run in which no cancel succeeds
and jobs are left alone until they are announced. -/
theorem announced_once {s t : Sys n} {l : List (Sys n × Act n)} (hs : Initial s)
    (hl : ((poolSystem n).restrict fun s a => LeftAlone s a ∧ NoCancel s a).RunFrom s l t) :
    AnnouncedOnce l t := by
  obtain ⟨hrun, -⟩ := System.RunFrom.restrict_iff.mp hl
  have hsteps : ((∃ b, QueueInv t b) ∧ AnnounceInv t) ∧
      ∀ p ∈ l, (∃ b, QueueInv p.1 b) ∧ AnnounceInv p.1 ∧ enabled p.1 p.2 ∧ LeftAlone p.1 p.2 := by
    clear hrun
    induction hl with
    | refl => exact ⟨⟨⟨none, QueueInv.initial hs⟩, AnnounceInv.initial hs⟩, by simp⟩
    | step _ ha ih =>
        obtain ⟨⟨⟨b, hq⟩, hinv⟩, hall⟩ := ih
        obtain ⟨ha, hleft, hcancel⟩ := ha
        exact ⟨⟨⟨_, hq.step ha hleft.1 (hcancel.fresh ha)⟩, hinv.step hq ha hleft⟩,
          List.forall_mem_cons.mpr ⟨⟨⟨b, hq⟩, hinv, ha, hleft⟩, hall⟩⟩
  refine ⟨sections hs hrun, ?_, ?_, ?_, ?_⟩
  · intro p hp w j e hold
    obtain ⟨-, hinv, -⟩ := hsteps.2 p hp
    exact hinv.announcement hold
  · intro p hp hold
    obtain ⟨-, -, ha, -⟩ := hsteps.2 p hp
    exact OpenHsm.silent ha hold
  · intro p hp j hj
    obtain ⟨⟨b, hq⟩, hinv, -, hleft⟩ := hsteps.2 p hp
    exact hinv.request_next hq hleft hj
  · intro hroom hfree
    rw [tokens_count hs hrun hroom, (statsInv hs hrun).finished, told_eq_settled hs hrun hfree]

/-- A job with a callback and a target is run while another client waits for a token. -/
def announceRun (w : Fin n) : List (Act n) :=
  [.hsmStart 7, .init 0 (.object 0) ⟨some 1, none, some 1, none⟩,
    .submitToHsm 0 (.object 0) (some 7) 42, .waitCall 1 (.object 0) (-1), .take w, .dequeue w,
    .execute w 3, .finish w, .notify w, .waitTake 1, .waitReturn 1, .receive 7]

/-- The job of `announceRun` is announced once. -/
theorem job_announced_to_target :
    ∃ t, ((poolSystem 1).restrict fun s a => LeftAlone s a ∧ NoCancel s a).RunFrom
        (startState 1 1 2 1) ((poolSystem 1).history (startState 1 1 2 1) (announceRun 0)) t ∧
      callbacks t.log = [(0, .object 0, 3)] ∧
      AnnouncedOnce ((poolSystem 1).history (startState 1 1 2 1) (announceRun 0)) t := by
  have hrun : ∃ t ∈ ((poolSystem 1).restrict fun s a => LeftAlone s a ∧ NoCancel s a).replay
      (startState 1 1 2 1) (announceRun 0), callbacks t.log = [(0, .object 0, 3)] := by decide
  obtain ⟨t, ht, hcb⟩ := hrun
  have hl := System.runFrom_of_replay ht
  exact ⟨t, hl, hcb, announced_once (startState_initial ..) hl⟩

/-! ### Announcements that are lost -/

/-- A worker finishes a job with a callback, and before it calls it another client is given
the slot. -/
def stolenRun (w : Fin n) : List (Act n) :=
  [.alloc 0, .init 0 (.slot 0) ⟨some 1, none, some 1, none⟩, .submit 0 (.slot 0), .take w,
    .dequeue w, .execute w 0, .finish w, .alloc 1, .notify w]

/-- One round of a worker with one job: where the worker is, what waits, and the tokens of
`work_sem`. -/
structure Round (s : Sys 1) (p : WorkerPc) (q : List JobRef) (k : ℕ) : Prop where
  inv : ∃ b, QueueInv s b
  pc : s.pc 0 = p
  waiting : waiting s.log = q
  work : s.mem.pool.workSem.posixSem = k
  size : s.mem.pool.queueSize = 1
  shutdown : s.mem.pool.shutdown = false

/-- What a step changes is given by its frame. -/
lemma Round.step {s : Sys 1} {p p' : WorkerPc} {q q' : List JobRef} {k k' : ℕ}
    (h : Round s p q k) {a : Act 1} (ha : enabled s a) (hl : LeftAlone s a) (hc : NoCancel s a)
    (hpc : (next s a).pc 0 = p') (hq : OpenHsm.waiting (next s a).log = q')
    (hframe : (frameAfter s a).workSem.posixSem = k' ∧ (frameAfter s a).queueSize = 1 ∧
      (frameAfter s a).shutdown = false) : Round (next s a) p' q' k' := by
  obtain ⟨b, hb⟩ := h.inv
  obtain ⟨hk, hsize, hflag⟩ := hframe
  rw [← next_frame ha] at hk hsize hflag
  exact ⟨⟨_, hb.step ha hl.1 (hc.fresh ha)⟩, hpc, hq, hk, hsize, hflag⟩

lemma Round.lockFree {s : Sys 1} {p : WorkerPc} {q : List JobRef} {k : ℕ} (h : Round s p q k)
    (hp : p.holdsLock = false) : LockFree s := by
  intro w
  rw [Subsingleton.elim w 0, h.pc, hp]

/-- The steps of a worker touch no job from outside. -/
lemma leftAlone_of_worker {s : Sys n} {a : Act n} {w : Fin n} (h : a.worker = some w) :
    LeftAlone s a ∧ NoCancel s a := by
  cases a with
  | take v | dequeue v | execute v ret | finish v | notify v =>
      exact ⟨⟨trivial, fun j hj => by cases hj⟩, trivial⟩
  | _ => cases h

/-- An idle worker is given a job. -/
lemma Round.submit {s : Sys 1} (h : Round s .waiting [] 0) :
    (enabled s (.submit 0 (.object 0)) ∧ LeftAlone s (.submit 0 (.object 0)) ∧
      NoCancel s (.submit 0 (.object 0))) ∧
    Round (next s (.submit 0 (.object 0))) .waiting [.object 0] 1 := by
  obtain ⟨b, hb⟩ := h.inv
  have hpc : ∀ w, s.pc w = .waiting := fun w => by rw [Subsingleton.elim w 0, h.pc]
  have hfree : LockFree s := h.lockFree rfl
  have hbusy : ¬ Busy s (.object 0) := by
    rintro (hj | ⟨w, hw⟩)
    · rw [h.waiting] at hj; cases hj
    · rw [hpc] at hw; cases hw
  have hann : ∀ j, ¬ Announcing s j := by
    rintro j ⟨w, hw⟩
    rw [hpc] at hw; cases hw
  have hleft : LeftAlone s (.submit 0 (.object 0)) := ⟨⟨trivial, hbusy⟩, fun j _ => hann j⟩
  have hdepth : s.mem.pool.stats.queueDepth < s.mem.pool.queueSize := by
    have := hb.depth
    rw [h.waiting] at this
    rw [UInt32.lt_iff_toNat_lt, this, h.size]
    decide
  have hret : (osaWorkerPoolSubmit s.mem (some (.object 0))).1 = 0 := by
    rcases osaWorkerPoolSubmit_cases s.mem (.object 0) with ⟨hle, -⟩ | ⟨-, hr, -⟩
    · exact absurd hdepth (UInt32.not_lt.mpr hle)
    · exact hr
  refine ⟨⟨hfree, hleft, trivial⟩, h.step hfree hleft trivial h.pc ?_ ?_⟩
  · simp [next, afterSubmit, submitEvent, hret, OpenHsm.waiting, h.waiting]
  · simp only [frameAfter, if_pos hdepth]
    refine ⟨?_, h.size, h.shutdown⟩
    rw [osaSemPost_posixSem (by simp [Pool.frame, h.work, semValueMax])]
    simp [Pool.frame, h.work]

/-- A step of the worker in a round. -/
lemma Round.work_step {s : Sys 1} {p p' : WorkerPc} {q q' : List JobRef} {k k' : ℕ}
    (h : Round s p q k) {a : Act 1} (hw : a.worker = some 0) (ha : enabled s a)
    (hpc : (next s a).pc 0 = p') (hq : OpenHsm.waiting (next s a).log = q')
    (hk : (frameAfter s a).workSem.posixSem = k') : Round (next s a) p' q' k' := by
  obtain ⟨hl, hc⟩ := leftAlone_of_worker (s := s) hw
  refine h.step ha hl hc hpc hq ⟨hk, ?_, ?_⟩
  · cases a <;> first | exact h.size | cases hw
  · cases a <;> first | exact h.shutdown | cases hw

/-- **One round**: an idle worker is given the job, runs it and announces it. -/
lemma Round.round {s₀ s : Sys 1} {l : List (Sys 1 × Act 1)} (h : Round s .waiting [] 0)
    (hl : ((poolSystem 1).restrict fun s a => LeftAlone s a ∧ NoCancel s a).RunFrom s₀ l s) :
    ∃ l' t, ((poolSystem 1).restrict fun s a => LeftAlone s a ∧ NoCancel s a).RunFrom s₀ l' t ∧
      Round t .waiting [] 0 ∧ (along told l').length = (along told l).length + 1 ∧
      (along took l').length = (along took l).length := by
  obtain ⟨ha₁, h₁⟩ := h.submit
  set s₁ := next s (.submit 0 (.object 0))
  have ha₂ : enabled s₁ (.take 0) := ⟨h₁.pc, by rw [h₁.work]; decide⟩
  have h₂ : Round (next s₁ (.take 0)) .woken [.object 0] 0 :=
    h₁.work_step rfl ha₂ (by simp [next]) h₁.waiting (by simp [frameAfter, Pool.frame, h₁.work])
  set s₂ := next s₁ (.take 0)
  have ha₃ : enabled s₂ (.dequeue 0) := ⟨h₂.pc, h₂.lockFree rfl⟩
  have hhead : s₂.mem.pool.jobQueueHead = some (.object 0) := by
    obtain ⟨b, hb⟩ := h₂.inv
    rw [hb.queue.head_eq, h₂.waiting]
    rfl
  have h₃ : Round (next s₂ (.dequeue 0)) (.running (.object 0)) [] 0 :=
    h₂.work_step rfl ha₃ (by simp [next_dequeue_run h₂.shutdown hhead])
      (by simp [next_dequeue_run h₂.shutdown hhead, OpenHsm.waiting, h₂.waiting]) h₂.work
  set s₃ := next s₂ (.dequeue 0)
  have ha₄ : enabled s₃ (.execute 0 0) := by simp [enabled, h₃.pc]
  have h₄ : Round (next s₃ (.execute 0 0)) (.executed (.object 0) (executionOf s₃ (.object 0) 0))
      [] 0 :=
    h₃.work_step rfl ha₄ (by simp [next, h₃.pc, executionOf])
      (by simp only [next, h₃.pc]; split <;> exact h₃.waiting) h₃.work
  set s₄ := next s₃ (.execute 0 0)
  have ha₅ : enabled s₄ (.finish 0) := by simpa [enabled, h₄.pc] using h₄.lockFree rfl
  have h₅ : Round (next s₄ (.finish 0)) (.notifying (.object 0) (executionOf s₃ (.object 0) 0))
      [] 0 :=
    h₄.work_step rfl ha₅ (by simp [next, h₄.pc])
      (by simpa [next, h₄.pc, OpenHsm.waiting] using h₄.waiting) h₄.work
  set s₅ := next s₄ (.finish 0)
  have ha₆ : enabled s₅ (.notify 0) := by simp [enabled, h₅.pc, WorkerPc.holdsLock]
  have h₆ : Round (next s₅ (.notify 0)) .waiting [] 0 := by
    refine h₅.work_step rfl ha₆ (by simp [next, h₅.pc, notifyStep_pc]) ?_ h₅.work
    simp only [next, h₅.pc, notifyStep]
    cases (s₅.mem.jobs (.object 0)).targetHsm <;>
      cases (s₅.mem.jobs (.object 0)).completeCb <;> exact h₅.waiting
  have hstep : ∀ {u : Sys 1} {l : List (Sys 1 × Act 1)} {a : Act 1},
      ((poolSystem 1).restrict fun s a => LeftAlone s a ∧ NoCancel s a).RunFrom s₀ l u →
      enabled u a → LeftAlone u a ∧ NoCancel u a →
      ((poolSystem 1).restrict fun s a => LeftAlone s a ∧ NoCancel s a).RunFrom s₀ ((u, a) :: l)
        (next u a) := fun hl ha hc => hl.step ⟨ha, hc⟩
  have hr₁ := hstep hl ha₁.1 ha₁.2
  have hr₂ := hstep hr₁ ha₂ (leftAlone_of_worker rfl)
  have hr₃ := hstep hr₂ ha₃ (leftAlone_of_worker rfl)
  have hr₄ := hstep hr₃ ha₄ (leftAlone_of_worker rfl)
  have hr₅ := hstep hr₄ ha₅ (leftAlone_of_worker rfl)
  have hr₆ := hstep hr₅ ha₆ (leftAlone_of_worker rfl)
  refine ⟨_, _, hr₆, h₆, ?_, ?_⟩
  · have htold : told s₅ (.notify 0) = some (0, .object 0, executionOf s₃ (.object 0) 0) := by
      simp [told, h₅.pc]
    have hlen := along_length_cons told s₅ (.notify 0) ((s₄, .finish 0) :: (s₃, .execute 0 0) ::
      (s₂, .dequeue 0) :: (s₁, .take 0) :: (s, .submit 0 (.object 0)) :: l)
    rw [htold] at hlen
    exact hlen
  · simp only [along_length_cons]
    rfl

/-- Any number of rounds. -/
lemma rounds (k : ℕ) :
    ∃ l t, ((poolSystem 1).restrict fun s a => LeftAlone s a ∧ NoCancel s a).RunFrom
        (startState 1 1 1 0) l t ∧
      Round t .waiting [] 0 ∧ (along told l).length = k ∧ (along took l).length = 0 := by
  induction k with
  | zero =>
      have hinit : Initial (startState 1 1 1 0) := startState_initial ..
      exact ⟨[], startState 1 1 1 0, System.RunFrom.refl,
        ⟨⟨none, QueueInv.initial hinit⟩, rfl, rfl, rfl, rfl, rfl⟩, rfl, rfl⟩
  | succ k ih =>
      obtain ⟨l, t, hl, hround, htold, htook⟩ := ih
      obtain ⟨l', t', hl', hround', htold', htook'⟩ := hround.round hl
      exact ⟨l', t', hl', hround', by rw [htold', htold], by rw [htook', htook]⟩

/-- The value of `complete_sem` stays below `SEM_VALUE_MAX`. -/
lemma completeSem_le {s t : Sys n} {l : List (Sys n × Act n)} (hs : Initial s)
    (hl : (poolSystem n).RunFrom s l t) : t.mem.pool.completeSem.posixSem ≤ semValueMax := by
  have hpost : ∀ x : OsaSem, x.posixSem ≤ semValueMax → (osaSemPost x).posixSem ≤ semValueMax := by
    intro x hx
    rw [osaSemPost]
    split
    · next hlt => exact hlt
    · exact hx
  refine hl.invariant (P := fun s => s.mem.pool.completeSem.posixSem ≤ semValueMax)
    (fun u a hu ha => ?_) ?_
  · show (next u a).mem.pool.completeSem.posixSem ≤ semValueMax
    rw [next_completeSem ha]
    cases a with
    | notify w => exact hpost _ hu
    | waitTake x => exact (Nat.sub_le _ _).trans hu
    | submit c j | submitToHsm c j t sig => simp only [frameAfter]; split <;> exact hu
    | _ => exact hu
  · obtain ⟨⟨k, q, hpool⟩, -⟩ := hs
    rw [hpool]
    exact Nat.zero_le _

/-- **Two ways to lose an announcement.**  A slot is handed out between the final state of
its job and the announcement, and the callback of the job is never called.  And when
`2^31` executions have been announced and no token taken, `complete_sem` is one behind. -/
theorem announcements_lost :
    (∃ t, ((poolSystem 1).restrict fun s a => Discipline s a ∧ NoCancel s a).RunFrom
        (startState 1 1 1 0) ((poolSystem 1).history (startState 1 1 1 0) (stolenRun 0)) t ∧
      along told ((poolSystem 1).history (startState 1 1 1 0) (stolenRun 0))
        = [(0, .slot 0, ⟨some 0, 2, none, 0⟩)] ∧
      callbacks t.log = []) ∧
    ∃ l t, ((poolSystem 1).restrict fun s a => LeftAlone s a ∧ NoCancel s a).RunFrom
        (startState 1 1 1 0) l t ∧ LockFree t ∧
      UInt32.ofNat (t.mem.pool.completeSem.posixSem + (along took l).length)
        ≠ t.mem.pool.stats.totalCompleted + t.mem.pool.stats.totalErrors := by
  constructor
  · have hrun : ∃ t ∈ ((poolSystem 1).restrict fun s a => Discipline s a ∧ NoCancel s a).replay
        (startState 1 1 1 0) (stolenRun 0), callbacks t.log = [] := by decide
    obtain ⟨t, ht, hcb⟩ := hrun
    exact ⟨t, System.runFrom_of_replay ht, by decide, hcb⟩
  · obtain ⟨l, t, hl, hround, htold, htook⟩ := rounds 2147483648
    have hinit : Initial (startState 1 1 1 0) := startState_initial ..
    obtain ⟨hrun, -⟩ := System.RunFrom.restrict_iff.mp hl
    have hfree : LockFree t := hround.lockFree rfl
    have hle : t.mem.pool.completeSem.posixSem ≤ 2147483647 := completeSem_le hinit hrun
    refine ⟨l, t, hl, hfree, fun he => ?_⟩
    rw [(statsInv hinit hrun).finished, ← told_eq_settled hinit hrun hfree, htold, htook] at he
    have htoNat := congrArg UInt32.toNat he
    rw [UInt32.toNat_ofNat_of_lt' (by rw [UInt32.size]; omega),
      UInt32.toNat_ofNat_of_lt' (by rw [UInt32.size]; omega)] at htoNat
    omega

end OpenHsm
