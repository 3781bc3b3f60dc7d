import OpenHsm.Worker.Invariant

/-!
What one step of the pool can do, said once, for the results that follow.

* `WritesData`, `next_data`: which steps write to a job besides its state and its links.
* `StateMove`, `QueueInv.next_state`: what a step may do to the state of a job.
* `Reuses`, `next_log`: which steps take a job object for a new use.
* `Move`, `QueueInv.move`: what a step does to the log and to the workers that hold a
  job: it accepts, cancels, dequeues or executes one job, or does none of this
  (`Event.quiet`).
-/

namespace OpenHsm

open Runs

variable {n : ℕ}

/-! ### The fields of a job -/

/-- The step writes to the job besides its state and its links. -/
def WritesData (s : Sys n) (a : Act n) (j : JobRef) : Prop :=
  match a with
  | .init _ k _ | .submit _ k | .submitToHsm _ k _ _ => j = k
  | .alloc _ => ∃ i, j = .slot i ∧
      (s.mem.gJobPoolInitialized = false ∨ (osaWorkerJobAlloc s.mem).1 = some i)
  | .execute w _ => (s.pc w).executing = some j
  | _ => False

lemma Memory.data_of_jobs {m m' : Memory} {j : JobRef} (h : m.jobs j = m'.jobs j) :
    m.data j = m'.data j := congrArg Job.data h

lemma Memory.id_of_data {m m' : Memory} {j : JobRef} (h : m.data j = m'.data j) :
    (m.jobs j).id = (m'.jobs j).id := (congrArg Job.id h :)

lemma assignId_jobs_of_ne (m : Memory) {j k : JobRef} (hk : k ≠ j) :
    (assignId m j).jobs k = m.jobs k := by
  simp only [assignId, getNextJobId]
  split
  · exact Memory.modifyJob_jobs_of_ne _ _ _ hk
  · rfl

lemma executeJob_jobs_of_ne (m : Memory) {j k : JobRef} (ret : Int) (hk : k ≠ j) :
    (executeJob m j ret).jobs k = m.jobs k := by
  rw [executeJob, Memory.setResult, Memory.modifyJob_jobs_of_ne _ _ _ hk]

lemma osaWorkerPoolSubmit_data_of_ne (m : Memory) {j k : JobRef} (hk : k ≠ j) :
    (osaWorkerPoolSubmit m (some j)).2.data k = m.data k := by
  rcases osaWorkerPoolSubmit_cases m j with ⟨-, hr⟩ | ⟨-, -, hr⟩
  · rw [hr]
  · rw [hr, Memory.modifyPool_data, Memory.modifyStats_data, enqueueJob_data]
    exact Memory.data_of_jobs (assignId_jobs_of_ne m hk)

lemma osaWorkerJobAlloc_jobs_object (m : Memory) (k : ℕ) :
    (osaWorkerJobAlloc m).2.jobs (.object k) = m.jobs (.object k) := by
  have hinit : (initJobPool m).jobs (.object k) = m.jobs (.object k) := by
    simp only [initJobPool]
    split <;> rfl
  cases hr : (osaWorkerJobAlloc m).1 with
  | none => rw [(osaWorkerJobAlloc_none hr).2, hinit]
  | some i => rw [(osaWorkerJobAlloc_some hr).2, ← hinit]; rfl

lemma osaWorkerJobAlloc_jobs_slot {m : Memory} {i : Fin osaJobPoolSize}
    (hinit : m.gJobPoolInitialized = true) (hi : (osaWorkerJobAlloc m).1 ≠ some i) :
    (osaWorkerJobAlloc m).2.jobs (.slot i) = m.jobs (.slot i) := by
  have hpool : initJobPool m = m := by rw [initJobPool, if_pos hinit]
  cases hr : (osaWorkerJobAlloc m).1 with
  | none => rw [(osaWorkerJobAlloc_none hr).2, hpool]
  | some k =>
      have hik : JobRef.slot i ≠ .slot k := by
        rintro ⟨⟩
        exact hi hr
      rw [(osaWorkerJobAlloc_some hr).2, hpool]
      exact Function.update_of_ne hik ..

/-- A step that does not write to the fields of a job leaves them. -/
lemma next_data {s : Sys n} {a : Act n} {j : JobRef} (h : ¬ WritesData s a j) :
    (next s a).mem.data j = s.mem.data j := by
  cases a with
  | init c k args => exact Memory.data_of_jobs (osaWorkerJobInit_jobs_of_ne s.mem args h)
  | alloc c =>
      rw [next_alloc_mem]
      cases j with
      | object k => exact Memory.data_of_jobs (osaWorkerJobAlloc_jobs_object s.mem k)
      | slot i =>
          have hnot : ¬ (s.mem.gJobPoolInitialized = false ∨
              (osaWorkerJobAlloc s.mem).1 = some i) := fun hor => h ⟨i, rfl, hor⟩
          rw [not_or, Bool.not_eq_false] at hnot
          exact Memory.data_of_jobs (osaWorkerJobAlloc_jobs_slot hnot.1 hnot.2)
  | free c k => cases k <;> simp [next, freeStep, osaWorkerJobFree]
  | submit c k => exact osaWorkerPoolSubmit_data_of_ne s.mem h
  | submitToHsm c k t sig =>
      refine (osaWorkerPoolSubmit_data_of_ne _ h).trans ?_
      exact Memory.data_of_jobs (Memory.modifyJob_jobs_of_ne _ _ _ h)
  | cancel id fuel =>
      rcases next_cancel_cases s id fuel with hnext | hnext | ⟨k, hnext⟩
      · rw [hnext]
      · rw [hnext]
      · rw [hnext]
        simp [cancelJob]
  | dequeue w =>
      rcases next_dequeue_cases s w with ⟨-, hnext⟩ | ⟨-, -, hnext⟩ | ⟨k, -, hhead, hnext⟩
      · rw [hnext]
      · rw [hnext]
      · rw [hnext]
        exact congrFun (dequeueJob_data hhead) j
  | execute w ret =>
      cases hw : s.pc w with
      | running k =>
          have hk : j ≠ k := by
            rintro rfl
            exact h (by rw [WritesData, hw]; rfl)
          simp only [next, hw]
          exact Memory.data_of_jobs (executeJob_jobs_of_ne s.mem ret hk)
      | _ => simp [next, hw]
  | finish w => cases hw : s.pc w <;> simp [next, hw]
  | notify w =>
      cases hw : s.pc w with
      | notifying k e => cases hh : (s.mem.jobs k).targetHsm <;> simp [next, hw, notifyStep, hh]
      | _ => simp [next, hw]
  | waitCall x k t => simp only [next]; split <;> rfl
  | handledFree k =>
      simp only [next]
      split
      · next i _ _ => cases i <;> simp [setHsm, freeStep, osaWorkerJobFree]
      · rfl
  | waitTake x | waitFail x err | waitReturn x | stopPost => simp only [next]; split <;> rfl
  | take w | stopBegin | stopJoin w | hsmStart k | post k sig | receive k | handled k => rfl

/-- The data of a busy job are written by its execution only. -/
lemma QueueInv.busy_data {s : Sys n} {b : Option JobRef} {a : Act n} (h : QueueInv s b)
    (hd : Discipline s a) {j : JobRef} (hj : Busy s j)
    (hex : ∀ w ret, a = .execute w ret → (s.pc w).executing ≠ some j) :
    (next s a).mem.data j = s.mem.data j := by
  refine next_data fun hw => ?_
  cases a with
  | init c k args => exact hd.2 (hw ▸ hj)
  | submit c k => exact hd.2 (hw ▸ hj)
  | submitToHsm c k t sig => exact hd.2 (hw ▸ hj)
  | execute w ret => exact hex w ret rfl hw
  | alloc c =>
      obtain ⟨i, rfl, hi⟩ := hw
      rcases hi with hi | hi
      · exact h.owned i hj (h.fresh hi i)
      · exact h.alloc_not_busy hi hj
  | _ => exact hw

/-- The data of a waiting job stay as they are. -/
lemma QueueInv.waiting_data {s : Sys n} {b : Option JobRef} {a : Act n} (h : QueueInv s b)
    (hd : Discipline s a) {j : JobRef} (hj : j ∈ waiting s.log) :
    (next s a).mem.data j = s.mem.data j :=
  h.busy_data hd (Or.inl hj) fun w _ _ => h.waiting_not_executing hj w

/-- The step submits the job. -/
def Act.submits (a : Act n) (j : JobRef) : Prop :=
  (∃ c, a = .submit c j) ∨ ∃ c t sig, a = .submitToHsm c j t sig

/-- The step is an explicit init or submit of the job. -/
def Act.renews (a : Act n) (j : JobRef) : Prop := (∃ c args, a = .init c j args) ∨ a.submits j

lemma osaWorkerPoolSubmit_id (m : Memory) (j : JobRef)
    (hr : (osaWorkerPoolSubmit m (some j)).1 = 0) :
    ((osaWorkerPoolSubmit m (some j)).2.jobs j).id = ((assignId m j).jobs j).id := by
  rcases osaWorkerPoolSubmit_cases m j with ⟨-, h⟩ | ⟨-, -, h⟩
  · rw [h] at hr; cases hr
  · refine Memory.id_of_data ?_
    rw [h, Memory.modifyPool_data, Memory.modifyStats_data, enqueueJob_data]

/-- The id under which a job is queued. -/
lemma next_id_of_submits {s : Sys n} {a : Act n} {j : JobRef} (h : a.submits j)
    (hlog : (next s a).log = .accepted j :: s.log) :
    ((next s a).mem.jobs j).id = ((assignId s.mem j).jobs j).id := by
  have hret : ∀ (m : Memory) (c : ℕ),
      (afterSubmit s c j (osaWorkerPoolSubmit m (some j))).log = .accepted j :: s.log →
      (osaWorkerPoolSubmit m (some j)).1 = 0 := by
    intro m c hl
    rcases osaWorkerPoolSubmit_cases m j with ⟨-, hr⟩ | ⟨-, hr, -⟩
    · simp [afterSubmit, hr, submitEvent] at hl
    · exact hr
  rcases h with ⟨c, rfl⟩ | ⟨c, t, sig, rfl⟩
  · exact osaWorkerPoolSubmit_id _ j (hret _ c hlog)
  · refine (osaWorkerPoolSubmit_id _ j (hret _ c hlog)).trans ?_
    simp only [assignId, getNextJobId]
    simp only [Memory.setTarget, Memory.modifyJob_jobs_self]
    split <;> simp [Memory.setId, Memory.modifyJob]

/-! ### The state of a job -/

/-- What the step may make of the state of the job. -/
inductive StateMove (s : Sys n) (a : Act n) (j : JobRef) : JobState → Prop
  | same : StateMove s a j (s.mem.state j)
  | picked (w : Fin n) : a = .dequeue w → s.pc w = .woken → (next s a).pc w = .running j →
      j ∈ waiting s.log → StateMove s a j .running
  | cancelled (id : UInt32) (fuel : ℕ) : a = .cancel id fuel → j ∈ waiting s.log →
      StateMove s a j .cancelled
  | finished (w : Fin n) {st : JobState} : a = .finish w → (s.pc w).executing = some j →
      (st = .completed ∨ st = .error) → StateMove s a j st
  | renewed : a.renews j → ¬ Busy s j → StateMove s a j .pending
  | allocated (c : ℕ) (i : Fin osaJobPoolSize) {st : JobState} : a = .alloc c → j = .slot i →
      ¬ Busy s j → ((osaWorkerJobAlloc s.mem).1 = some i ∧ st = .pending ∨
        s.mem.gJobPoolInitialized = false ∧ st = .completed) → StateMove s a j st
  | freed (i : Fin osaJobPoolSize) : ((∃ c, a = .free c j) ∨ ∃ k, a = .handledFree k) →
      j = .slot i → ¬ Busy s j → StateMove s a j .completed

lemma initJobPool_state_slot (m : Memory) (i : Fin osaJobPoolSize) :
    (initJobPool m).state (.slot i) =
      if m.gJobPoolInitialized then m.state (.slot i) else .completed := by
  simp only [initJobPool]
  split <;> rfl

lemma osaWorkerJobAlloc_state_some {m : Memory} {i : Fin osaJobPoolSize}
    (h : (osaWorkerJobAlloc m).1 = some i) :
    (osaWorkerJobAlloc m).2.state (.slot i) = .pending := by
  rw [(osaWorkerJobAlloc_some h).2]
  simp [claimSlot, getNextJobId, Memory.state, Memory.modifyJob]

lemma osaWorkerJobAlloc_state_ne {m : Memory} {i : Fin osaJobPoolSize}
    (h : (osaWorkerJobAlloc m).1 ≠ some i) :
    (osaWorkerJobAlloc m).2.state (.slot i) = (initJobPool m).state (.slot i) := by
  cases hr : (osaWorkerJobAlloc m).1 with
  | none => rw [(osaWorkerJobAlloc_none hr).2]
  | some k =>
      have hik : JobRef.slot i ≠ .slot k := by
        rintro ⟨⟩
        exact h hr
      rw [(osaWorkerJobAlloc_some hr).2]
      exact congrArg Job.state (Function.update_of_ne hik ..)

lemma freeStep_state_slot (s : Sys n) (i : Fin osaJobPoolSize) :
    (freeStep s (.slot i)).mem.state = Function.update s.mem.state (.slot i) .completed := by
  simp [freeStep, osaWorkerJobFree]

lemma freeStep_state_object (s : Sys n) (k : ℕ) :
    (freeStep s (.object k)).mem.state = s.mem.state := rfl

lemma osaWorkerPoolSubmit_state (m : Memory) (k : JobRef) :
    (osaWorkerPoolSubmit m (some k)).2.state = m.state ∨
      (osaWorkerPoolSubmit m (some k)).2.state = Function.update m.state k .pending := by
  rcases osaWorkerPoolSubmit_cases m k with ⟨-, hr⟩ | ⟨-, -, hr⟩
  · exact Or.inl (by rw [hr])
  · exact Or.inr (by rw [hr]; simp)

/-- One job is given a state. -/
lemma StateMove.update {s : Sys n} {a : Act n} {j k : JobRef} {st : JobState}
    (hk : j = k → StateMove s a k st) :
    StateMove s a j (Function.update s.mem.state k st j) := by
  by_cases hjk : j = k
  · subst hjk
    rw [Function.update_self]
    exact hk rfl
  · rw [Function.update_of_ne hjk]
    exact .same

/-- **What a step does to the state of a job.** -/
lemma QueueInv.next_state {s : Sys n} {b : Option JobRef} {a : Act n} (h : QueueInv s b)
    (ha : enabled s a) (hd : Discipline s a) (j : JobRef) :
    StateMove s a j ((next s a).mem.state j) := by
  have hsubmit : ∀ (m : Memory) (c : ℕ) (k : JobRef), m.state = s.mem.state → ¬ Busy s k →
      a.submits k →
      StateMove s a j ((osaWorkerPoolSubmit m (some k)).2.state j) := by
    intro m c k hm hk hak
    rcases osaWorkerPoolSubmit_state m k with hr | hr
    · rw [hr, hm]; exact .same
    · rw [hr, hm]
      exact .update fun _ => .renewed (Or.inr hak) hk
  have hfree : ∀ k, ((∃ c, a = .free c k) ∨ ∃ x, a = .handledFree x) → ¬ Busy s k →
      StateMove s a j ((OpenHsm.freeStep s k).mem.state j) := by
    intro k hak hk
    cases k with
    | object i => rw [freeStep_state_object]; exact .same
    | slot i =>
        rw [freeStep_state_slot]
        exact .update fun _ => .freed i hak rfl hk
  cases a with
  | init c k args =>
      by_cases hjk : j = k
      · subst hjk
        have hst : (next s (.init c j args)).mem.state j = .pending := by
          simp [next, osaWorkerJobInit, Memory.state, Memory.modifyJob]
        rw [hst]
        exact .renewed (Or.inl ⟨c, args, rfl⟩) hd.2
      · have hst : (next s (.init c k args)).mem.state j = s.mem.state j :=
          congrArg Job.state (osaWorkerJobInit_jobs_of_ne s.mem args hjk)
        rw [hst]
        exact .same
  | alloc c =>
      rw [next_alloc_mem]
      by_cases hj : Busy s j
      · have hst : (osaWorkerJobAlloc s.mem).2.state j = s.mem.state j :=
          congrArg Job.state (h.osaWorkerJobAlloc_jobs hj)
        rw [hst]
        exact .same
      · cases j with
        | object k =>
            have hst : (osaWorkerJobAlloc s.mem).2.state (.object k) = s.mem.state (.object k) :=
              congrArg Job.state (osaWorkerJobAlloc_jobs_object s.mem k)
            rw [hst]
            exact .same
        | slot i =>
            by_cases hi : (osaWorkerJobAlloc s.mem).1 = some i
            · rw [osaWorkerJobAlloc_state_some hi]
              exact .allocated c i rfl rfl hj (Or.inl ⟨hi, rfl⟩)
            · rw [osaWorkerJobAlloc_state_ne hi, initJobPool_state_slot]
              split
              · exact .same
              · next hinit => exact .allocated c i rfl rfl hj (Or.inr ⟨by simpa using hinit, rfl⟩)
  | free c k => exact hfree k (Or.inl ⟨c, rfl⟩) hd.2
  | submit c k => exact hsubmit s.mem c k rfl hd.2 (Or.inl ⟨c, rfl⟩)
  | submitToHsm c k t sig =>
      exact hsubmit _ c k (Memory.setTarget_state ..) hd.2 (Or.inr ⟨c, t, sig, rfl⟩)
  | cancel id fuel =>
      rcases h.cancel_cases ha with ⟨k, hk, -, hn⟩ | ⟨-, -, hn⟩
      · have hst : (cancelJob s.mem k).state = Function.update s.mem.state k .cancelled := by
          simp [cancelJob]
        simp only [hn, hst]
        exact .update fun _ => .cancelled id fuel rfl (List.mem_of_find?_eq_some hk)
      · rw [hn]; exact .same
  | dequeue w =>
      rcases next_dequeue_cases s w with ⟨-, hnext⟩ | ⟨-, -, hnext⟩ | ⟨k, -, hhead, hnext⟩
      · rw [hnext]; exact .same
      · rw [hnext]; exact .same
      · have hst : (next s (.dequeue w)).mem.state = Function.update s.mem.state k .running := by
          rw [hnext]
          exact dequeueJob_state hhead
        have hpc : (next s (.dequeue w)).pc w = .running k := by
          rw [hnext]
          exact Function.update_self ..
        have hk : k ∈ waiting s.log :=
          List.mem_of_mem_head? (h.queue.head_eq.symm.trans hhead)
        rw [hst]
        exact .update fun _ => .picked w rfl ha.1 hpc hk
  | execute w ret =>
      have hst : (next s (.execute w ret)).mem.state = s.mem.state := by
        cases hw : s.pc w <;> simp [next, hw, executeJob]
      rw [hst]; exact .same
  | finish w =>
      cases hw : s.pc w with
      | executed k e =>
          simp only [next, hw, finishJob_state]
          refine .update fun _ => .finished w rfl (by rw [hw]; rfl) ?_
          split
          · exact Or.inr rfl
          · exact Or.inl rfl
      | _ => simp [enabled, hw] at ha
  | notify w =>
      have hst : (next s (.notify w)).mem.state = s.mem.state := by
        cases hw : s.pc w with
        | notifying k e => cases hh : (s.mem.jobs k).targetHsm <;> simp [next, hw, notifyStep, hh]
        | _ => simp [next, hw]
      rw [hst]; exact .same
  | handledFree i =>
      simp only [enabled] at ha
      simp only [Discipline] at hd
      split at ha
      · next sig k e hh =>
          rw [hh] at hd
          simp only [next, hh]
          exact hfree k (Or.inr ⟨i, rfl⟩) hd.2
      · exact ha.elim
  | waitCall x k t =>
      have hst : (next s (.waitCall x k t)).mem = s.mem := by simp only [next]; split <;> rfl
      rw [hst]; exact .same
  | waitTake x =>
      have hst : (next s (.waitTake x)).mem.state = s.mem.state := by
        simp only [next]; split <;> rfl
      rw [hst]; exact .same
  | waitFail x err =>
      have hst : (next s (.waitFail x err)).mem = s.mem := by simp only [next]; split <;> rfl
      rw [hst]; exact .same
  | waitReturn x =>
      have hst : (next s (.waitReturn x)).mem = s.mem := by simp only [next]; split <;> rfl
      rw [hst]; exact .same
  | stopPost =>
      have hst : (next s .stopPost).mem.state = s.mem.state := by
        simp only [next]; split <;> rfl
      rw [hst]; exact .same
  | take w => exact .same
  | stopBegin => exact .same
  | stopJoin w => exact .same
  | hsmStart k => exact .same
  | post k sig => exact .same
  | receive k => exact .same
  | handled k => exact .same

/-! ### The log -/

/-- The job an event puts into a known state. -/
def Event.settles : Event n → Option JobRef
  | .initialised j | .accepted j => some j
  | .allocated i => some (.slot i)
  | _ => none

/-- The step takes the job for a new use. -/
def Reuses (s : Sys n) (a : Act n) (j : JobRef) : Prop :=
  a.renews j ∨ ∃ c i, a = .alloc c ∧ j = .slot i ∧ (osaWorkerJobAlloc s.mem).1 = some i

/-- What a step logs about a job: no new use of it, or one that leaves it pending. -/
lemma next_log (s : Sys n) (a : Act n) (j : JobRef) :
    (∃ es, (next s a).log = es ++ s.log ∧ ∀ e ∈ es, e.settles ≠ some j) ∨
      (Reuses s a j ∧ (next s a).mem.state j = .pending ∧
        ∃ e, (next s a).log = e :: s.log ∧ e.settles = some j) := by
  have hone : ∀ e : Event n, (next s a).log = e :: s.log → e.settles = none →
      ∃ es, (next s a).log = es ++ s.log ∧ ∀ e ∈ es, e.settles ≠ some j :=
    fun e he hn => ⟨[e], he, by simp [hn]⟩
  have hnone : (next s a).log = s.log →
      ∃ es, (next s a).log = es ++ s.log ∧ ∀ e ∈ es, e.settles ≠ some j :=
    fun he => ⟨[], he, by simp⟩
  have hsubmit : ∀ (m : Memory) (c : ℕ) (k : JobRef), a.submits k →
      next s a = afterSubmit s c k (osaWorkerPoolSubmit m (some k)) →
      (∃ es, (next s a).log = es ++ s.log ∧ ∀ e ∈ es, e.settles ≠ some j) ∨
        (Reuses s a j ∧ (next s a).mem.state j = .pending ∧
          ∃ e, (next s a).log = e :: s.log ∧ e.settles = some j) := by
    intro m c k hak hn
    rcases osaWorkerPoolSubmit_cases m k with ⟨-, hr⟩ | ⟨-, hr, hr2⟩
    · exact Or.inl (hone (.refused k) (by simp [hn, afterSubmit, hr, submitEvent]) rfl)
    · have hlog : (next s a).log = .accepted k :: s.log := by
        simp [hn, afterSubmit, hr, submitEvent]
      by_cases hkj : k = j
      · subst hkj
        refine Or.inr ⟨Or.inl (Or.inr hak), ?_, _, hlog, rfl⟩
        simp [hn, afterSubmit, hr2]
      · exact Or.inl ⟨[.accepted k], hlog, by simpa [Event.settles] using hkj⟩
  cases a with
  | init c k args =>
      by_cases hkj : k = j
      · subst hkj
        refine Or.inr ⟨Or.inl (Or.inl ⟨c, args, rfl⟩), ?_, .initialised k, rfl, rfl⟩
        simp [next, osaWorkerJobInit, Memory.state, Memory.modifyJob]
      · exact Or.inl ⟨[.initialised k], rfl, by simpa [Event.settles] using hkj⟩
  | alloc c =>
      cases hr : (osaWorkerJobAlloc s.mem).1 with
      | none => exact Or.inl (hnone (by simp [next, hr]))
      | some i =>
          have hlog : (next s (.alloc c)).log = .allocated i :: s.log := by simp [next, hr]
          by_cases hij : JobRef.slot i = j
          · subst hij
            refine Or.inr ⟨Or.inr ⟨c, i, rfl, rfl, hr⟩, ?_, _, hlog, rfl⟩
            simp only [next, hr]
            exact osaWorkerJobAlloc_state_some hr
          · exact Or.inl ⟨[.allocated i], hlog, by simpa [Event.settles] using hij⟩
  | submit c k => exact hsubmit s.mem c k (Or.inl ⟨c, rfl⟩) rfl
  | submitToHsm c k t sig => exact hsubmit _ c k (Or.inr ⟨c, t, sig, rfl⟩) rfl
  | free c k => exact Or.inl (hone (.freed k) rfl rfl)
  | cancel id fuel =>
      refine Or.inl ?_
      rcases next_cancel_cases s id fuel with hnext | hnext | ⟨k, hnext⟩
      · exact ⟨[], by rw [hnext]; rfl, by simp⟩
      · exact ⟨[.missed id], by rw [hnext]; rfl, by simp [Event.settles]⟩
      · exact ⟨[.cancelled k id], by rw [hnext]; rfl, by simp [Event.settles]⟩
  | dequeue w =>
      refine Or.inl ?_
      rcases next_dequeue_cases s w with ⟨-, hnext⟩ | ⟨-, -, hnext⟩ | ⟨k, -, -, hnext⟩
      · exact ⟨[], by rw [hnext]; rfl, by simp⟩
      · exact ⟨[.idled w], by rw [hnext]; rfl, by simp [Event.settles]⟩
      · exact ⟨[.dequeued w k], by rw [hnext]; rfl, by simp [Event.settles]⟩
  | execute w ret =>
      refine Or.inl ?_
      simp only [next]
      split
      · split
        · exact ⟨[.skipped w _], rfl, by simp [Event.settles]⟩
        · exact ⟨[.called w _], rfl, by simp [Event.settles]⟩
      · exact ⟨[], rfl, by simp⟩
  | finish w =>
      refine Or.inl ?_
      simp only [next]
      split
      · exact ⟨[.finished w _], rfl, by simp [Event.settles]⟩
      · exact ⟨[], rfl, by simp⟩
  | notify w =>
      refine Or.inl ?_
      simp only [next]
      split
      · next k e _ =>
          simp only [notifyStep]
          cases (s.mem.jobs k).targetHsm <;> cases (s.mem.jobs k).completeCb
          · exact ⟨[], rfl, by simp⟩
          · exact ⟨[.calledBack w k _], rfl, by simp [Event.settles]⟩
          · exact ⟨[.announced _ k _], rfl, by simp [Event.settles]⟩
          · exact ⟨[.announced _ k _, .calledBack w k _], rfl, by simp [Event.settles]⟩
      · exact ⟨[], rfl, by simp⟩
  | waitCall x k t =>
      refine Or.inl ?_
      simp only [next]
      split
      · exact ⟨[.waited x k 0 _], rfl, by simp [Event.settles]⟩
      · exact ⟨[], rfl, by simp⟩
  | waitReturn x =>
      refine Or.inl ?_
      simp only [next]
      split
      · exact ⟨[.waited x _ _ _], rfl, by simp [Event.settles]⟩
      · exact ⟨[], rfl, by simp⟩
  | handledFree k =>
      refine Or.inl ?_
      simp only [next]
      split
      · exact ⟨[.freed _], rfl, by simp [Event.settles]⟩
      · exact ⟨[], rfl, by simp⟩
  | waitTake x | waitFail x err | stopPost =>
      refine Or.inl ?_
      simp only [next]
      split <;> exact ⟨[], rfl, by simp⟩
  | take w | stopBegin | stopJoin w | hsmStart k | post k sig | receive k | handled k =>
      exact Or.inl (hnone rfl)

/-- The event neither settles nor moves a submission. -/
def Event.quiet : Event n → Bool
  | .accepted _ | .cancelled _ _ | .dequeued _ _ | .called _ _ | .skipped _ _ => false
  | _ => true

/-- What the step `a` from `s` to `t` does to the log and to the workers that hold a job. -/
inductive Move (s : Sys n) (a : Act n) (t : Sys n) : Prop
  | accept (j : JobRef) : a.submits j → ¬ Busy s j → t.log = .accepted j :: s.log →
      t.pc = s.pc → Move s a t
  | cancel (j : JobRef) (id : UInt32) (fuel : ℕ) (m : Memory) : a = .cancel id fuel →
      osaWorkerPoolCancel s.mem id fuel = some (0, m) → (s.mem.jobs j).id = id →
      j ∈ waiting s.log → t.log = .cancelled j id :: s.log → t.pc = s.pc → Move s a t
  | dequeue (w : Fin n) (j : JobRef) (l : List JobRef) : s.pc w = .woken →
      waiting s.log = j :: l → t.log = .dequeued w j :: s.log →
      t.pc = Function.update s.pc w (.running j) → Move s a t
  | execute (w : Fin n) (j : JobRef) (e : Execution) (x : Event n) : s.pc w = .running j →
      (x = .called w j ∨ x = .skipped w j) → t.log = x :: s.log →
      t.pc = Function.update s.pc w (.executed j e) → Move s a t
  | quiet (es : List (Event n)) : (∀ e ∈ es, e.quiet) → t.log = es ++ s.log →
      (∀ w j, t.pc w = .running j → s.pc w = .running j) →
      (∀ w j, (t.pc w).executing = some j → (s.pc w).executing = some j) → Move s a t

/-- A step that leaves the log and moves no worker that holds a job. -/
lemma Move.of_log_eq {s t : Sys n} {a : Act n} (hlog : t.log = s.log) (hpc : t.pc = s.pc) :
    Move s a t :=
  .quiet [] (by simp) hlog (fun w j h => hpc ▸ h) (fun w j h => by rwa [hpc] at h)

/-- A step that logs one quiet event. -/
lemma Move.of_quiet {s t : Sys n} {a : Act n} (e : Event n) (he : e.quiet)
    (hlog : t.log = e :: s.log) (hpc : t.pc = s.pc) : Move s a t :=
  .quiet [e] (by simpa using he) hlog (fun w j h => hpc ▸ h) (fun w j h => by rwa [hpc] at h)

/-- A step in which one worker goes on without a job to run. -/
lemma Move.of_worker {s t : Sys n} {a : Act n} {w : Fin n} {p : WorkerPc}
    (es : List (Event n)) (hes : ∀ e ∈ es, e.quiet) (hlog : t.log = es ++ s.log)
    (hpc : t.pc = Function.update s.pc w p) (hrun : ∀ j, p ≠ .running j)
    (hexec : ∀ j, p.executing = some j → (s.pc w).executing = some j) : Move s a t := by
  refine .quiet es hes hlog (fun v j hv => ?_) (fun v j hv => ?_)
  all_goals
    rw [hpc] at hv
    by_cases hvw : v = w
    · subst hvw
      rw [Function.update_self] at hv
      first | exact absurd hv (hrun j) | exact hexec j hv
    · rw [Function.update_of_ne hvw] at hv
      exact hv

/-- **What a step does to the log.** -/
lemma QueueInv.move {s : Sys n} {b : Option JobRef} {a : Act n} (h : QueueInv s b)
    (ha : enabled s a) (hd : Discipline s a) : Move s a (next s a) := by
  have hsubmit : ∀ (m : Memory) (c : ℕ) (k : JobRef), a.submits k → ¬ Busy s k →
      Move s a (afterSubmit s c k (osaWorkerPoolSubmit m (some k))) := by
    intro m c k hak hk
    rcases osaWorkerPoolSubmit_cases m k with ⟨-, hr⟩ | ⟨-, hr, -⟩
    · exact .of_quiet (.refused k) rfl (by simp [afterSubmit, hr, submitEvent]) rfl
    · exact .accept k hak hk (by simp [afterSubmit, hr, submitEvent]) rfl
  cases a with
  | init c k args => exact .of_quiet (.initialised k) rfl rfl rfl
  | alloc c =>
      simp only [next]
      split
      · exact .of_log_eq rfl rfl
      · exact .of_quiet (.allocated _) rfl rfl rfl
  | free c k => exact .of_quiet (.freed k) rfl rfl rfl
  | submit c k => exact hsubmit s.mem c k (Or.inl ⟨c, rfl⟩) hd.2
  | submitToHsm c k t sig => exact hsubmit _ c k (Or.inr ⟨c, t, sig, rfl⟩) hd.2
  | cancel id fuel =>
      rcases h.cancel_cases ha with ⟨j, hj, hr, hn⟩ | ⟨-, -, hn⟩
      · have hid : (s.mem.jobs j).id = id := by simpa using List.find?_some hj
        exact .cancel j id fuel _ rfl hr hid (List.mem_of_find?_eq_some hj) (by rw [hn])
          (by rw [hn])
      · exact .of_quiet (.missed id) rfl (by rw [hn]) (by rw [hn])
  | take w =>
      exact .of_worker (w := w) (p := .woken) [] (by simp) rfl rfl (by simp)
        (fun j hj => by cases hj)
  | dequeue w =>
      rcases next_dequeue_cases s w with ⟨-, hnext⟩ | ⟨-, -, hnext⟩ | ⟨j, -, hhead, hnext⟩
      · rw [hnext]
        exact .of_worker (w := w) (p := .exited) [] (by simp) rfl rfl (by simp)
          (fun j hj => by cases hj)
      · rw [hnext]
        exact .of_worker (w := w) (p := .waiting) [.idled w] (by simp [Event.quiet]) rfl rfl
          (by simp) (fun j hj => by cases hj)
      · obtain ⟨l, hl⟩ : ∃ l, waiting s.log = j :: l :=
          List.head?_eq_some_iff.mp (h.queue.head_eq.symm.trans hhead)
        rw [hnext]
        exact .dequeue w j l ha.1 hl rfl rfl
  | execute w ret =>
      cases hw : s.pc w with
      | running j =>
          simp only [next, hw]
          refine .execute w j _ _ hw ?_ rfl rfl
          split
          · exact Or.inr rfl
          · exact Or.inl rfl
      | _ => simp [enabled, hw] at ha
  | finish w =>
      cases hw : s.pc w with
      | executed j e =>
          simp only [next, hw]
          exact .of_worker (w := w) (p := .notifying j e) [.finished w j] (by simp [Event.quiet])
            rfl rfl (by simp) (fun j hj => by cases hj)
      | _ => simp [enabled, hw] at ha
  | notify w =>
      cases hw : s.pc w with
      | notifying j e =>
          obtain ⟨es, hes, hlog⟩ : ∃ es : List (Event n), (∀ e ∈ es, e.quiet) ∧
              (next s (.notify w)).log = es ++ s.log := by
            simp only [next, hw, notifyStep]
            cases (s.mem.jobs j).targetHsm <;> cases (s.mem.jobs j).completeCb
            · exact ⟨[], by simp, rfl⟩
            · exact ⟨[.calledBack w j _], by simp [Event.quiet], rfl⟩
            · exact ⟨[.announced _ j _], by simp [Event.quiet], rfl⟩
            · exact ⟨[.announced _ j _, .calledBack w j _], by simp [Event.quiet], rfl⟩
          refine .of_worker (w := w) (p := .waiting) es hes hlog ?_ (by simp)
            (fun j hj => by cases hj)
          simp only [next, hw, notifyStep]
          cases (s.mem.jobs j).targetHsm <;> rfl
      | _ => simp [enabled, hw, WorkerPc.holdsLock] at ha
  | waitCall x k t =>
      simp only [next]
      split
      · exact .of_quiet (.waited x k 0 _) rfl rfl rfl
      · exact .of_log_eq rfl rfl
  | waitReturn x =>
      simp only [next]
      split
      · exact .of_quiet (.waited x _ _ _) rfl rfl rfl
      · exact .of_log_eq rfl rfl
  | handledFree k =>
      simp only [next]
      split
      · exact .of_quiet (.freed _) rfl rfl rfl
      · exact .of_log_eq rfl rfl
  | waitTake x | waitFail x err | stopPost =>
      simp only [next]
      split <;> exact .of_log_eq rfl rfl
  | stopBegin | stopJoin w | hsmStart k | post k sig | receive k | handled k =>
      exact .of_log_eq rfl rfl

/-- What skips quiet events one by one skips a list of them. -/
lemma quiet_append {β : Sort*} {f : List (Event n) → β}
    (hf : ∀ e l, e.quiet = true → f (e :: l) = f l) {es : List (Event n)}
    (hes : ∀ e ∈ es, e.quiet) (l : List (Event n)) : f (es ++ l) = f l := by
  induction es with
  | nil => rfl
  | cons e es ih =>
      obtain ⟨he, hes⟩ := List.forall_mem_cons.mp hes
      exact (hf e _ he).trans (ih hes)

section Quiet

variable {es : List (Event n)} (hes : ∀ e ∈ es, e.quiet) (l : List (Event n))
include hes

lemma waiting_quiet : waiting (es ++ l) = waiting l :=
  quiet_append (fun e _ he => by cases e <;> first | rfl | simp [Event.quiet] at he) hes l

lemma accepts_quiet : accepts (es ++ l) = accepts l :=
  quiet_append (fun e _ he => by cases e <;> first | rfl | simp [Event.quiet] at he) hes l

lemma dequeues_quiet : dequeues (es ++ l) = dequeues l :=
  quiet_append (fun e _ he => by cases e <;> first | rfl | simp [Event.quiet] at he) hes l

lemma serial_quiet (j : JobRef) : serial j (es ++ l) = serial j l :=
  quiet_append (fun e _ he => by cases e <;> first | rfl | simp [Event.quiet] at he) hes l

lemma settlements_quiet : settlements (es ++ l) = settlements l :=
  quiet_append (fun e _ he => by cases e <;> first | rfl | simp [Event.quiet] at he) hes l

end Quiet

/-- Along a quiet step no job becomes busy. -/
lemma Busy.of_quiet {s t : Sys n} {es : List (Event n)} (hes : ∀ e ∈ es, e.quiet)
    (hlog : t.log = es ++ s.log)
    (hexec : ∀ w j, (t.pc w).executing = some j → (s.pc w).executing = some j)
    {j : JobRef} (h : Busy t j) : Busy s j := by
  rcases h with h | ⟨w, hw⟩
  · rw [hlog, waiting_quiet hes] at h
    exact Or.inl h
  · exact Or.inr ⟨w, hexec w j hw⟩

/-- Who is busy after a job was taken off the queue. -/
lemma Busy.of_dequeue {s t : Sys n} {w : Fin n} {j : JobRef}
    (hj : j ∈ waiting s.log) (hlog : t.log = .dequeued w j :: s.log)
    (hpc : t.pc = Function.update s.pc w (.running j)) {k : JobRef} (h : Busy t k) :
    Busy s k := by
  rcases h with h | ⟨v, hv⟩
  · rw [hlog] at h
    exact Or.inl (List.mem_of_mem_erase h)
  · rw [hpc] at hv
    by_cases hvw : v = w
    · subst hvw
      rw [Function.update_self] at hv
      obtain rfl : j = k := Option.some.inj hv
      exact Or.inl hj
    · rw [Function.update_of_ne hvw] at hv
      exact Or.inr ⟨v, hv⟩

lemma Busy.of_execute {s t : Sys n} {w : Fin n} {j : JobRef} {e : Execution} {x : Event n}
    (hw : s.pc w = .running j) (hx : x = .called w j ∨ x = .skipped w j) (hlog : t.log = x :: s.log)
    (hpc : t.pc = Function.update s.pc w (.executed j e)) {k : JobRef} (h : Busy t k) :
    Busy s k := by
  rcases h with h | ⟨v, hv⟩
  · rw [hlog] at h
    rcases hx with rfl | rfl <;> exact Or.inl h
  · rw [hpc] at hv
    by_cases hvw : v = w
    · subst hvw
      rw [Function.update_self] at hv
      exact Or.inr ⟨v, by rw [hw]; exact hv⟩
    · rw [Function.update_of_ne hvw] at hv
      exact Or.inr ⟨v, hv⟩

/-- A cancelled job neither waits after the cancel nor is in the hands of a worker, whatever
worker `P` counts. -/
lemma QueueInv.open_cancel {s t : Sys n} {b : Option JobRef} (h : QueueInv s b) {j : JobRef}
    {id : UInt32} (hj : j ∈ waiting s.log) (hlog : t.log = .cancelled j id :: s.log)
    (hpc : t.pc = s.pc) {P : WorkerPc → JobRef → Prop}
    (hP : ∀ p k, P p k → p.executing = some k) {k : JobRef}
    (hk : k ∈ waiting t.log ∨ ∃ w, P (t.pc w) k) :
    k ≠ j ∧ (k ∈ waiting s.log ∨ ∃ w, P (s.pc w) k) := by
  rcases hk with hk | ⟨w, hw⟩
  · rw [hlog] at hk
    refine ⟨?_, Or.inl (List.mem_of_mem_erase hk)⟩
    rintro rfl
    exact h.queue.nodup.not_mem_erase hk
  · rw [hpc] at hw
    refine ⟨?_, Or.inr ⟨w, hw⟩⟩
    rintro rfl
    exact h.waiting_not_executing hj w (hP _ _ hw)

/-- A cancelled job is not busy after the cancel. -/
lemma QueueInv.busy_cancel {s t : Sys n} {b : Option JobRef} (h : QueueInv s b) {j : JobRef}
    {id : UInt32} (hj : j ∈ waiting s.log) (hlog : t.log = .cancelled j id :: s.log)
    (hpc : t.pc = s.pc) {k : JobRef} (hk : Busy t k) : k ≠ j ∧ Busy s k :=
  h.open_cancel hj hlog hpc (P := fun p k => p.executing = some k) (fun _ _ hp => hp) hk

/-- A job that is busy after a step was busy before, or the step accepted it. -/
lemma QueueInv.busy_next {s : Sys n} {b : Option JobRef} {a : Act n} (h : QueueInv s b)
    (ha : enabled s a) (hd : Discipline s a) {j : JobRef} (hj : Busy (next s a) j) :
    Busy s j ∨ (a.submits j ∧ (next s a).log = .accepted j :: s.log) := by
  cases h.move ha hd with
  | accept k hsub _ hlog hpc =>
      rcases hj with hj | ⟨w, hw⟩
      · rw [hlog, waiting, List.mem_append, List.mem_singleton] at hj
        rcases hj with hj | rfl
        · exact Or.inl (Or.inl hj)
        · exact Or.inr ⟨hsub, hlog⟩
      · exact Or.inl (Or.inr ⟨w, hpc ▸ hw⟩)
  | cancel k id _ _ _ _ _ hk hlog hpc => exact Or.inl (h.busy_cancel hk hlog hpc hj).2
  | dequeue w k l _ hl hlog hpc => exact Or.inl (hj.of_dequeue (by rw [hl]; simp) hlog hpc)
  | execute w k e x hw hx hlog hpc => exact Or.inl (hj.of_execute hw hx hlog hpc)
  | quiet es hes hlog _ hexec => exact Or.inl (hj.of_quiet hes hlog hexec)

/-- A step that submits nothing makes no job busy. -/
lemma QueueInv.busy_of_next {s : Sys n} {b : Option JobRef} {a : Act n} (h : QueueInv s b)
    (ha : enabled s a) (hd : Discipline s a) (hno : ∀ j, ¬ a.submits j) {j : JobRef}
    (hj : Busy (next s a) j) : Busy s j :=
  (h.busy_next ha hd hj).resolve_right fun hsub => hno j hsub.1

end OpenHsm
