import OpenHsm.Worker.Moves

/-!
The life cycle of a job.

* `LifeCycleEdge`, `FollowsLifeCycle`: the documented machine, and a step all of whose
  changes of states are edges of it.
* `revoked`, `NeverCalled`, `NeverCancelledAgain`: the jobs cancelled and not accepted
  since; their functions are not called and their ids not cancelled again.
* `RunningKnown`, `Revoked`, `Accounted`, `DistinctIds`: the invariants, each kept by every
  step (`QueueInv.next_state` and `QueueInv.move` say what a step is).
* `life_cycle`: along a run whose cancels are fresh all of this holds, the last point if
  the ids are distinct too.  `cancelled_job_runs` is the run in which a cancelled job
  stays queued and is run.
-/

namespace OpenHsm

open Runs

variable {n : ℕ}

/-- The edges of the documented machine. -/
inductive LifeCycleEdge : JobState → JobState → Prop
  | pick : LifeCycleEdge .pending .running
  | cancel : LifeCycleEdge .pending .cancelled
  | success : LifeCycleEdge .running .completed
  | failure : LifeCycleEdge .running .error
  | again {st : JobState} : st.Terminal → LifeCycleEdge st .pending

/-- The job was initialised, allocated or accepted before; its memory is not what it
happened to be at the start. -/
def Known (l : List (Event n)) (j : JobRef) : Prop := ∃ e ∈ l, e.settles = some j

/-- The step hands a slot out or takes it back. -/
def Act.recycles : Act n → Bool
  | .alloc _ | .free _ _ | .handledFree _ => true
  | _ => false

/-- Every change of a state is an edge of the machine, and only an explicit init or submit
makes a job pending again. -/
def FollowsLifeCycle (s : Sys n) (a : Act n) : Prop :=
  a.recycles = false → ∀ j, Known s.log j → (next s a).mem.state j ≠ s.mem.state j →
    LifeCycleEdge (s.mem.state j) ((next s a).mem.state j) ∧
      ((next s a).mem.state j = .pending → a.renews j)

/-- The jobs cancelled and not accepted since, with the ids they were cancelled under. -/
def revoked : List (Event n) → List (JobRef × UInt32)
  | [] => []
  | .cancelled j id :: l => (j, id) :: revoked l
  | .accepted j :: l => (revoked l).filter (·.1 ≠ j)
  | _ :: l => revoked l

/-- No function of a job was called between a cancel of the job and its next acceptance. -/
def NeverCalled : List (Event n) → Prop
  | [] => True
  | .called _ j :: l => (∀ p ∈ revoked l, p.1 ≠ j) ∧ NeverCalled l
  | _ :: l => NeverCalled l

/-- No id under which a job was cancelled was cancelled again before the job's next
acceptance. -/
def NeverCancelledAgain : List (Event n) → Prop
  | [] => True
  | .cancelled _ id :: l => (∀ p ∈ revoked l, p.2 ≠ id) ∧ NeverCancelledAgain l
  | _ :: l => NeverCancelledAgain l

/-- A job is submitted under an id that no queued job has and under which no other job
was cancelled. -/
def FreshId (s : Sys n) : Act n → Prop
  | .submit _ j | .submitToHsm _ j _ _ =>
      (∀ k ∈ waiting s.log, (s.mem.jobs k).id ≠ ((assignId s.mem j).jobs j).id) ∧
        ∀ p ∈ revoked s.log, p.2 = ((assignId s.mem j).jobs j).id → p.1 = j
  | _ => True

/-! ### States -/

/-- A worker keeps its job until it finishes it. -/
lemma executing_next {s : Sys n} {a : Act n} (ha : enabled s a) {w : Fin n} {j : JobRef}
    (hw : (s.pc w).executing = some j) :
    ((next s a).pc w).executing = some j ∨ (a = .finish w ∧ ∃ e, s.pc w = .executed j e) := by
  have hkeep : ∀ (v : Fin n) (p : WorkerPc), (s.pc v).executing = none ∨
      p.executing = (s.pc v).executing → (Function.update s.pc v p w).executing = some j := by
    intro v p hp
    by_cases hwv : w = v
    · subst hwv
      rw [Function.update_self]
      rcases hp with hp | hp
      · rw [hw] at hp; cases hp
      · rw [hp, hw]
    · rw [Function.update_of_ne hwv, hw]
  cases a with
  | take v => exact Or.inl (hkeep v _ (Or.inl (by rw [ha.1]; rfl)))
  | dequeue v =>
      have hv : (s.pc v).executing = none := by rw [ha.1]; rfl
      simp only [next]
      split
      · exact Or.inl (hkeep v _ (Or.inl hv))
      · split <;> exact Or.inl (hkeep v _ (Or.inl hv))
  | execute v ret =>
      simp only [next]
      split
      · next k hk => exact Or.inl (hkeep v _ (Or.inr (by rw [hk]; rfl)))
      · exact Or.inl hw
  | finish v =>
      cases hv : s.pc v with
      | executed k e =>
          by_cases hwv : w = v
          · subst hwv
            rw [hv] at hw
            obtain rfl : k = j := Option.some.inj hw
            exact Or.inr ⟨rfl, e, hv⟩
          · simp only [next, hv]
            exact Or.inl (by rw [Function.update_of_ne hwv, hw])
      | _ => simp [enabled, hv] at ha
  | notify v =>
      cases hv : s.pc v with
      | notifying k e =>
          have hpc : (next s (.notify v)).pc = Function.update s.pc v .waiting := by
            simp only [next, hv, notifyStep]
            cases (s.mem.jobs k).targetHsm <;> rfl
          rw [hpc]
          exact Or.inl (hkeep v _ (Or.inl (by rw [hv]; rfl)))
      | _ => simp [enabled, hv, WorkerPc.holdsLock] at ha
  | submit c k | submitToHsm c k t sig => exact Or.inl hw
  | alloc c | cancel id fuel | waitCall x k t | waitTake x | waitFail x err | waitReturn x
  | stopPost | handledFree k =>
      simp only [next]
      split <;> exact Or.inl hw
  | init c k args | free c k | stopBegin | stopJoin v | hsmStart k | post k sig | receive k
  | handled k => exact Or.inl hw

/-- A known job in the state `RUNNING` is held by a worker. -/
def RunningKnown (s : Sys n) : Prop :=
  ∀ j, Known s.log j → s.mem.state j = .running → ∃ w, (s.pc w).executing = some j

/-- A job that becomes known in a step is pending after it. -/
lemma Known.of_next {s : Sys n} {a : Act n} {j : JobRef} (h : Known (next s a).log j) :
    Known s.log j ∨ (next s a).mem.state j = .pending := by
  rcases next_log s a j with ⟨es, hlog, hes⟩ | ⟨-, hst, -⟩
  · obtain ⟨e, he, hj⟩ := h
    rw [hlog] at he
    rcases List.mem_append.mp he with he | he
    · exact absurd hj (hes e he)
    · exact Or.inl ⟨e, he, hj⟩
  · exact Or.inr hst

lemma RunningKnown.step {s : Sys n} {b : Option JobRef} {a : Act n} (hr : RunningKnown s)
    (h : QueueInv s b) (ha : enabled s a) (hd : Discipline s a) :
    RunningKnown (next s a) := by
  intro j hj hst
  rcases hj.of_next with hk | hp
  · have hfinish : ∀ w e, a = .finish w → s.pc w = .executed j e →
        (next s a).mem.state j ≠ .running := by
      rintro w e rfl hw
      simp only [next, hw, finishJob_state, Function.update_self]
      split <;> simp
    have hmove := h.next_state ha hd j
    generalize hnew : (next s a).mem.state j = st at hmove hst hfinish
    cases hmove with
    | same =>
        obtain ⟨w, hw⟩ := hr j hk hst
        rcases executing_next ha hw with hw | ⟨hfin, e, he⟩
        · exact ⟨w, hw⟩
        · exact absurd hst (hfinish w e hfin he)
    | picked w _ _ hpc => exact ⟨w, by rw [hpc]; rfl⟩
    | finished w _ _ hor => rcases hor with rfl | rfl <;> cases hst
    | allocated c i _ _ _ hor => rcases hor with ⟨-, rfl⟩ | ⟨-, rfl⟩ <;> cases hst
    | cancelled | renewed | freed => cases hst
  · rw [hst] at hp; cases hp

lemma RunningKnown.initial {s : Sys n} (h : Initial s) : RunningKnown s := by
  rintro j ⟨e, he, -⟩
  rw [h.log_eq] at he
  cases he

/-- Every step follows the life cycle. -/
lemma QueueInv.followsLifeCycle {s : Sys n} {b : Option JobRef} {a : Act n} (h : QueueInv s b)
    (hr : RunningKnown s) (ha : enabled s a) (hd : Discipline s a) : FollowsLifeCycle s a := by
  intro hrec j hk hne
  have hmove := h.next_state ha hd j
  generalize (next s a).mem.state j = st at hmove hne ⊢
  cases hmove with
  | same => exact absurd rfl hne
  | picked w _ _ _ hj => rw [h.pending j hj]; exact ⟨.pick, by simp⟩
  | cancelled id fuel _ hj => rw [h.pending j hj]; exact ⟨.cancel, by simp⟩
  | finished w _ hw hor =>
      rw [h.running w j hw]
      rcases hor with rfl | rfl
      · exact ⟨.success, by simp⟩
      · exact ⟨.failure, by simp⟩
  | renewed hren hj =>
      refine ⟨.again ?_, fun _ => hren⟩
      cases hst : s.mem.state j with
      | pending => exact absurd hst.symm hne
      | running => exact absurd (Or.inr (hr j hk hst)) hj
      | completed | cancelled | error => trivial
  | allocated c i hact => subst hact; cases hrec
  | freed i hor =>
      rcases hor with ⟨c, rfl⟩ | ⟨k, rfl⟩ <;> cases hrec

/-! ### Cancelled jobs -/

/-- A job cancelled and not accepted since is not busy. -/
def Revoked (s : Sys n) : Prop := ∀ p ∈ revoked s.log, ¬ Busy s p.1

lemma revoked_quiet {es : List (Event n)} (hes : ∀ e ∈ es, e.quiet) (l : List (Event n)) :
    revoked (es ++ l) = revoked l :=
  quiet_append (fun e _ he => by cases e <;> first | rfl | simp [Event.quiet] at he) hes l

lemma neverCalled_quiet {es : List (Event n)} (hes : ∀ e ∈ es, e.quiet) (l : List (Event n)) :
    NeverCalled (es ++ l) = NeverCalled l :=
  quiet_append (fun e _ he => by cases e <;> first | rfl | simp [Event.quiet] at he) hes l

/-- A move keeps the jobs that were cancelled out of the workers' hands. -/
lemma Revoked.move {s t : Sys n} {b : Option JobRef} (hr : Revoked s) (h : QueueInv s b)
    {a : Act n} (hn : NeverCalled s.log) (hm : Move s a t) : Revoked t ∧ NeverCalled t.log := by
  cases hm with
  | accept j _ _ hlog hpc =>
      refine ⟨fun p hp hb => ?_, by rw [hlog]; exact hn⟩
      rw [hlog, revoked, List.mem_filter] at hp
      obtain ⟨hp, hpj⟩ := hp
      have hpj : p.1 ≠ j := by simpa using hpj
      rcases hb with hb | ⟨w, hw⟩
      · rw [hlog, waiting, List.mem_append, List.mem_singleton] at hb
        exact hr p hp (Or.inl (hb.resolve_right hpj))
      · exact hr p hp (Or.inr ⟨w, hpc ▸ hw⟩)
  | cancel j id _ _ _ _ _ hj hlog hpc =>
      refine ⟨fun p hp hb => ?_, by rw [hlog]; exact hn⟩
      obtain ⟨hpj, hb⟩ := h.busy_cancel hj hlog hpc hb
      rw [hlog, revoked, List.mem_cons] at hp
      rcases hp with rfl | hp
      · exact hpj rfl
      · exact hr p hp hb
  | dequeue w j l _ hl hlog hpc =>
      have hj : j ∈ waiting s.log := by rw [hl]; simp
      refine ⟨fun p hp hb => ?_, by rw [hlog]; exact hn⟩
      rw [hlog] at hp
      exact hr p hp (hb.of_dequeue hj hlog hpc)
  | execute w j e x hw hx hlog hpc =>
      refine ⟨fun p hp hb => ?_, ?_⟩
      · have hrev : revoked t.log = revoked s.log := by rw [hlog]; rcases hx with rfl | rfl <;> rfl
        rw [hrev] at hp
        exact hr p hp (hb.of_execute hw hx hlog hpc)
      · rw [hlog]
        rcases hx with rfl | rfl
        · refine ⟨fun p hp hpj => hr p hp (Or.inr ⟨w, ?_⟩), hn⟩
          rw [hpj, hw]; rfl
        · exact hn
  | quiet es hes hlog _ hexec =>
      refine ⟨fun p hp hb => ?_, by rw [hlog, neverCalled_quiet hes]; exact hn⟩
      rw [hlog, revoked_quiet hes] at hp
      exact hr p hp (hb.of_quiet hes hlog hexec)

/-! ### Submissions -/

/-- Every submission has a number of its own, and the latest submission of a job that
waits or is about to be run is settled by nobody. -/
structure Accounted (s : Sys n) : Prop where
  below : ∀ j m, serial j s.log = some m → m < (accepts s.log).length
  inj : ∀ j k m, serial j s.log = some m → serial k s.log = some m → j = k
  settled : ∀ x ∈ settlements s.log, ∃ m, x.1 = some m ∧ m < (accepts s.log).length
  unsettled : ∀ j, (j ∈ waiting s.log ∨ ∃ w, s.pc w = .running j) →
    ∃ m, serial j s.log = some m ∧ some m ∉ (settlements s.log).map Prod.fst
  nodup : ((settlements s.log).map Prod.fst).Nodup

lemma Accounted.initial {s : Sys n} (h : Initial s) : Accounted s := by
  obtain ⟨-, -, hpc, -⟩ := id h
  refine ⟨?_, ?_, ?_, ?_, ?_⟩ <;> rw [h.log_eq]
  · rintro j m ⟨⟩
  · rintro j k m ⟨⟩
  · rintro x ⟨⟩
  · rintro j (hj | ⟨w, hw⟩)
    · cases hj
    · rw [hpc] at hw; cases hw
  · exact List.nodup_nil

/-- Settling the latest submission of a job that was unsettled until now. -/
lemma Accounted.settle {s t : Sys n} (h : Accounted s) {j : JobRef} {x : Settlement n}
    (hj : j ∈ waiting s.log ∨ ∃ w, s.pc w = .running j)
    (hacc : accepts t.log = accepts s.log) (hser : ∀ k, serial k t.log = serial k s.log)
    (hset : settlements t.log = (serial j s.log, x) :: settlements s.log)
    (hopen : ∀ k, (k ∈ waiting t.log ∨ ∃ w, t.pc w = .running k) →
      k ≠ j ∧ (k ∈ waiting s.log ∨ ∃ w, s.pc w = .running k)) : Accounted t := by
  obtain ⟨m, hm, hnot⟩ := h.unsettled j hj
  refine ⟨?_, ?_, ?_, ?_, ?_⟩
  · intro k m'; rw [hser, hacc]; exact h.below k m'
  · intro k k' m'; rw [hser, hser]; exact h.inj k k' m'
  · intro y hy
    rw [hset, List.mem_cons] at hy
    rw [hacc]
    rcases hy with rfl | hy
    · exact ⟨m, hm, h.below j m hm⟩
    · exact h.settled y hy
  · intro k hk
    obtain ⟨hkj, hk⟩ := hopen k hk
    obtain ⟨m', hm', hnot'⟩ := h.unsettled k hk
    refine ⟨m', by rw [hser, hm'], ?_⟩
    rw [hset, List.map_cons, List.mem_cons, not_or]
    refine ⟨fun he => hkj (h.inj k j m' hm' ?_), hnot'⟩
    exact he.symm
  · rw [hset, List.map_cons, List.nodup_cons]
    exact ⟨hm ▸ hnot, h.nodup⟩

/-- Settling nothing. -/
lemma Accounted.same {s t : Sys n} (h : Accounted s) (hacc : accepts t.log = accepts s.log)
    (hser : ∀ k, serial k t.log = serial k s.log) (hset : settlements t.log = settlements s.log)
    (hopen : ∀ k, (k ∈ waiting t.log ∨ ∃ w, t.pc w = .running k) →
      k ∈ waiting s.log ∨ ∃ w, s.pc w = .running k) : Accounted t := by
  refine ⟨?_, ?_, ?_, ?_, hset ▸ h.nodup⟩
  · intro k m; rw [hser, hacc]; exact h.below k m
  · intro k k' m; rw [hser, hser]; exact h.inj k k' m
  · rw [hset, hacc]; exact h.settled
  · intro k hk
    rw [hser, hset]
    exact h.unsettled k (hopen k hk)

/-- A move settles at most the latest submission of one job, and that only once. -/
lemma Accounted.move {s t : Sys n} {b : Option JobRef} {a : Act n} (hs : Accounted s)
    (h : QueueInv s b) (hm : Move s a t) : Accounted t := by
  cases hm with
  | accept j _ hj hlog hpc =>
      have hser : ∀ k, k ≠ j → serial k t.log = serial k s.log := fun k hk => by
        rw [hlog, serial_accepted_of_ne hk]
      have hserj : serial j t.log = some (accepts s.log).length := by
        rw [hlog, serial, if_pos rfl]
      have hacc : (accepts t.log).length = (accepts s.log).length + 1 := by
        rw [hlog, accepts, List.length_append]; rfl
      have hset : settlements t.log = settlements s.log := by rw [hlog]; rfl
      refine ⟨?_, ?_, ?_, ?_, hset ▸ hs.nodup⟩
      · intro k m hk
        rw [hacc]
        by_cases hkj : k = j
        · rw [hkj, hserj] at hk; obtain rfl := Option.some.inj hk; omega
        · rw [hser k hkj] at hk; have := hs.below k m hk; omega
      · intro k k' m hk hk'
        by_cases hkj : k = j <;> by_cases hkj' : k' = j
        · rw [hkj, hkj']
        · rw [hkj, hserj] at hk
          rw [hser k' hkj'] at hk'
          have := hs.below k' m hk'
          obtain rfl := Option.some.inj hk; omega
        · rw [hkj', hserj] at hk'
          rw [hser k hkj] at hk
          have := hs.below k m hk
          obtain rfl := Option.some.inj hk'; omega
        · rw [hser k hkj] at hk
          rw [hser k' hkj'] at hk'
          exact hs.inj k k' m hk hk'
      · intro x hx
        rw [hset] at hx
        obtain ⟨m, hm, hlt⟩ := hs.settled x hx
        exact ⟨m, hm, by omega⟩
      · intro k hk
        rw [hset]
        by_cases hkj : k = j
        · refine ⟨_, by rw [hkj, hserj], fun hmem => ?_⟩
          obtain ⟨x, hx, hx1⟩ := List.mem_map.mp hmem
          obtain ⟨m, hm, hlt⟩ := hs.settled x hx
          rw [hm] at hx1
          obtain rfl := Option.some.inj hx1; omega
        · rw [hser k hkj]
          refine hs.unsettled k (hk.imp (fun hw => ?_) fun hw => hpc ▸ hw)
          rw [hlog, waiting, List.mem_append, List.mem_singleton] at hw
          exact hw.resolve_right hkj
  | cancel j id _ _ _ _ _ hj hlog hpc =>
      refine hs.settle (j := j) (x := .cancelled) (Or.inl hj) (by rw [hlog]; rfl)
        (fun k => by rw [hlog]; rfl) (by rw [hlog]; rfl) fun k hk => ?_
      exact h.open_cancel hj hlog hpc (P := fun p k => p = .running k)
        (fun _ _ hp => by rw [hp]; rfl) hk
  | dequeue w j l _ hl hlog hpc =>
      refine hs.same (by rw [hlog]; rfl) (fun k => by rw [hlog]; rfl) (by rw [hlog]; rfl)
        fun k hk => ?_
      rcases hk with hk | ⟨v, hv⟩
      · rw [hlog] at hk
        exact Or.inl (List.mem_of_mem_erase hk)
      · rw [hpc] at hv
        by_cases hvw : v = w
        · rw [hvw, Function.update_self] at hv
          cases hv
          exact Or.inl (by rw [hl]; simp)
        · rw [Function.update_of_ne hvw] at hv
          exact Or.inr ⟨v, hv⟩
  | execute w j e x hw hx hlog hpc =>
      have hex : (s.pc w).executing = some j := by rw [hw]; rfl
      have hopen : ∀ k, (k ∈ waiting t.log ∨ ∃ v, t.pc v = .running k) →
          k ≠ j ∧ (k ∈ waiting s.log ∨ ∃ v, s.pc v = .running k) := by
        rintro k (hk | ⟨v, hv⟩)
        · have hwait : waiting t.log = waiting s.log := by
            rw [hlog]; rcases hx with rfl | rfl <;> rfl
          rw [hwait] at hk
          refine ⟨?_, Or.inl hk⟩
          rintro rfl
          exact h.waiting_not_executing hk w hex
        · rw [hpc] at hv
          by_cases hvw : v = w
          · rw [hvw, Function.update_self] at hv; cases hv
          · rw [Function.update_of_ne hvw] at hv
            refine ⟨?_, Or.inr ⟨v, hv⟩⟩
            rintro rfl
            exact hvw (h.distinct v w k (by rw [hv]; rfl) hex)
      rcases hx with rfl | rfl
      · exact hs.settle (j := j) (x := .called w) (Or.inr ⟨w, hw⟩) (by rw [hlog]; rfl)
          (fun k => by rw [hlog]; rfl) (by rw [hlog]; rfl) hopen
      · exact hs.same (by rw [hlog]; rfl) (fun k => by rw [hlog]; rfl) (by rw [hlog]; rfl)
          fun k hk => (hopen k hk).2
  | quiet es hes hlog hrun hexec =>
      refine hs.same (by rw [hlog, accepts_quiet hes]) (fun k => by rw [hlog, serial_quiet hes])
        (by rw [hlog, settlements_quiet hes]) fun k hk => ?_
      rcases hk with hk | ⟨w, hw⟩
      · rw [hlog, waiting_quiet hes] at hk
        exact Or.inl hk
      · exact Or.inr ⟨w, hrun w k hw⟩

/-! ### Ids -/

/-- The queued jobs have ids of their own, under which no job was cancelled. -/
structure DistinctIds (s : Sys n) : Prop where
  waiting : ∀ j ∈ waiting s.log, ∀ k ∈ waiting s.log,
    (s.mem.jobs j).id = (s.mem.jobs k).id → j = k
  revoked : ∀ p ∈ revoked s.log, ∀ j ∈ OpenHsm.waiting s.log, (s.mem.jobs j).id ≠ p.2

lemma DistinctIds.initial {s : Sys n} (h : Initial s) : DistinctIds s := by
  refine ⟨?_, ?_⟩ <;> rw [h.log_eq]
  · rintro j ⟨⟩
  · rintro p ⟨⟩

/-- Taking jobs off the queue keeps the ids distinct. -/
lemma DistinctIds.mono {s t : Sys n} (h : DistinctIds s)
    (hid : ∀ j ∈ OpenHsm.waiting s.log, (t.mem.jobs j).id = (s.mem.jobs j).id)
    (hsub : ∀ j ∈ OpenHsm.waiting t.log, j ∈ OpenHsm.waiting s.log)
    (hrev : OpenHsm.revoked t.log = OpenHsm.revoked s.log) : DistinctIds t := by
  refine ⟨fun j hj k hk he => ?_, fun p hp j hj => ?_⟩
  · rw [hid j (hsub j hj), hid k (hsub k hk)] at he
    exact h.waiting j (hsub j hj) k (hsub k hk) he
  · rw [hrev] at hp
    rw [hid j (hsub j hj)]
    exact h.revoked p hp j (hsub j hj)

lemma neverCancelledAgain_quiet {es : List (Event n)} (hes : ∀ e ∈ es, e.quiet)
    (l : List (Event n)) : NeverCancelledAgain (es ++ l) = NeverCancelledAgain l :=
  quiet_append (fun e _ he => by cases e <;> first | rfl | simp [Event.quiet] at he) hes l

/-- A step that submits under fresh ids only keeps the ids distinct, and cancels no id
under which a job stays cancelled. -/
lemma DistinctIds.step {s : Sys n} {b : Option JobRef} {a : Act n} (hs : DistinctIds s)
    (h : QueueInv s b) (ha : enabled s a) (hd : Discipline s a) (hf : FreshId s a)
    (hn : NeverCancelledAgain s.log) :
    DistinctIds (next s a) ∧ NeverCancelledAgain (next s a).log := by
  have hid : ∀ j ∈ OpenHsm.waiting s.log,
      ((next s a).mem.jobs j).id = (s.mem.jobs j).id :=
    fun j hj => Memory.id_of_data (h.waiting_data hd hj)
  cases h.move ha hd with
  | accept j hsub hj hlog hpc =>
      have hnew := next_id_of_submits hsub hlog
      obtain ⟨hfw, hfr⟩ : (∀ k ∈ OpenHsm.waiting s.log,
          (s.mem.jobs k).id ≠ ((assignId s.mem j).jobs j).id) ∧
          ∀ p ∈ OpenHsm.revoked s.log, p.2 = ((assignId s.mem j).jobs j).id → p.1 = j := by
        rcases hsub with ⟨c, rfl⟩ | ⟨c, t, sig, rfl⟩ <;> exact hf
      have hmem : ∀ k ∈ OpenHsm.waiting (next s a).log, k ∈ OpenHsm.waiting s.log ∨ k = j := by
        intro k hk
        rw [hlog, OpenHsm.waiting, List.mem_append, List.mem_singleton] at hk
        exact hk
      refine ⟨⟨fun k hk k' hk' he => ?_, fun p hp k hk => ?_⟩, by rw [hlog]; exact hn⟩
      · rcases hmem k hk with hk | rfl <;> rcases hmem k' hk' with hk' | rfl
        · rw [hid k hk, hid k' hk'] at he
          exact hs.waiting k hk k' hk' he
        · rw [hid k hk, hnew] at he
          exact absurd he (hfw k hk)
        · rw [hid k' hk', hnew] at he
          exact absurd he.symm (hfw k' hk')
        · rfl
      · rw [hlog, OpenHsm.revoked, List.mem_filter] at hp
        obtain ⟨hp, hpj⟩ := hp
        rcases hmem k hk with hk | rfl
        · rw [hid k hk]
          exact hs.revoked p hp k hk
        · rw [hnew]
          exact fun he => absurd (hfr p hp he.symm) (by simpa using hpj)
  | cancel j id _ _ _ _ hjid hj hlog hpc =>
      have hsub : ∀ k ∈ OpenHsm.waiting (next s a).log, k ∈ OpenHsm.waiting s.log ∧ k ≠ j := by
        intro k hk
        rw [hlog] at hk
        exact ⟨List.mem_of_mem_erase hk, fun he => h.queue.nodup.not_mem_erase (he ▸ hk)⟩
      refine ⟨⟨fun k hk k' hk' he => ?_, fun p hp k hk => ?_⟩, ?_⟩
      · rw [hid k (hsub k hk).1, hid k' (hsub k' hk').1] at he
        exact hs.waiting k (hsub k hk).1 k' (hsub k' hk').1 he
      · rw [hlog, OpenHsm.revoked, List.mem_cons] at hp
        rw [hid k (hsub k hk).1]
        rcases hp with rfl | hp
        · exact fun he => (hsub k hk).2 (hs.waiting k (hsub k hk).1 j hj (he.trans hjid.symm))
        · exact hs.revoked p hp k (hsub k hk).1
      · rw [hlog]
        exact ⟨fun p hp he => hs.revoked p hp j hj (hjid.trans he.symm), hn⟩
  | dequeue w j l _ hl hlog hpc =>
      refine ⟨hs.mono hid (fun k hk => ?_) (by rw [hlog]; rfl), by rw [hlog]; exact hn⟩
      rw [hlog] at hk
      exact List.mem_of_mem_erase hk
  | execute w j e x hw hx hlog hpc =>
      rcases hx with rfl | rfl <;>
        exact ⟨hs.mono hid (fun k hk => by rw [hlog] at hk; exact hk) (by rw [hlog]; rfl),
          by rw [hlog]; exact hn⟩
  | quiet es hes hlog _ _ =>
      refine ⟨hs.mono hid (fun k hk => ?_) (by rw [hlog, revoked_quiet hes]),
        by rw [hlog, neverCancelledAgain_quiet hes]; exact hn⟩
      rwa [hlog, waiting_quiet hes] at hk

/-! ### Runs -/

/-- **A job follows the documented life cycle** along every run whose cancels are fresh:
all changes of states are edges of the machine, the function of a cancelled job is not
called before the job is accepted again, and a submission is cancelled or called at most
once.  If the ids of the jobs are distinct, no cancelled id is cancelled again either. -/
theorem life_cycle {s t : Sys n} {l : List (Sys n × Act n)} (hs : Initial s)
    (hl : ((poolSystem n).restrict fun s a => Discipline s a ∧ CancelFresh s a).RunFrom s l t) :
    (∀ p ∈ l, FollowsLifeCycle p.1 p.2) ∧ NeverCalled t.log ∧
      ((settlements t.log).map Prod.fst).Nodup ∧
      ((∀ p ∈ l, FreshId p.1 p.2) → NeverCancelledAgain t.log) := by
  have hlog := hs.log_eq
  suffices h : (∃ b, QueueInv t b) ∧ RunningKnown t ∧ Revoked t ∧ Accounted t ∧
      (∀ p ∈ l, FollowsLifeCycle p.1 p.2) ∧ NeverCalled t.log ∧
      ((∀ p ∈ l, FreshId p.1 p.2) → DistinctIds t ∧ NeverCancelledAgain t.log) by
    obtain ⟨-, -, -, hacc, hfol, hcall, hids⟩ := h
    exact ⟨hfol, hcall, hacc.nodup, fun hf => (hids hf).2⟩
  induction hl with
  | refl =>
      refine ⟨⟨none, QueueInv.initial hs⟩, RunningKnown.initial hs, ?_, Accounted.initial hs,
        by simp, ?_, fun _ => ⟨DistinctIds.initial hs, ?_⟩⟩
      · rw [Revoked, hlog]; simp [revoked]
      · rw [hlog]; trivial
      · rw [hlog]; trivial
  | @step l u a _ ha ih =>
      obtain ⟨⟨b, hq⟩, hrun, hrev, hacc, hfol, hcall, hids⟩ := ih
      obtain ⟨hen, hd, hc⟩ := ha
      have hmove := hq.move hen hd
      have hrev' := hrev.move hq hcall hmove
      refine ⟨⟨_, hq.step hen hd hc⟩, hrun.step hq hen hd, hrev'.1, hacc.move hq hmove, ?_,
        hrev'.2, fun hf => ?_⟩
      · exact List.forall_mem_cons.mpr ⟨hq.followsLifeCycle hrun hen hd, hfol⟩
      · obtain ⟨hfa, hf⟩ := List.forall_mem_cons.mp hf
        obtain ⟨hdist, hagain⟩ := hids hf
        exact hdist.step hq hen hd hfa hagain

/-- The life of one job that is run, with a cancel that comes too late. -/
theorem one_job_life_cycle :
    ∃ t, ((poolSystem 1).restrict fun s a => Discipline s a ∧ CancelFresh s a).RunFrom
        (startState 1 1 2 0) ((poolSystem 1).history (startState 1 1 2 0)
          [.init 0 (.object 0) ⟨some 1, none, none, none⟩, .submit 0 (.object 0), .take 0,
            .dequeue 0, .cancel 1 0, .execute 0 7, .finish 0]) t ∧
      t.mem.state (.object 0) = .completed ∧
      ((settlements t.log).map Prod.fst).Nodup := by
  have hrun : ∃ t ∈ ((poolSystem 1).restrict fun s a => Discipline s a ∧ CancelFresh s a).replay
      (startState 1 1 2 0) [.init 0 (.object 0) ⟨some 1, none, none, none⟩,
        .submit 0 (.object 0), .take 0, .dequeue 0, .cancel 1 0, .execute 0 7, .finish 0],
      t.mem.state (.object 0) = .completed := by decide
  obtain ⟨t, ht, hst⟩ := hrun
  have hl := System.runFrom_of_replay ht
  exact ⟨t, hl, hst, (life_cycle (startState_initial ..) hl).2.2.1⟩

/-- **A cancelled job is run.**  The second of two jobs is cancelled while it is first in
the queue with a stale `prev`; it stays there, and the next worker takes it from
`CANCELLED` to `RUNNING` and calls its function. -/
theorem cancelled_job_runs :
    ∃ s : Sys 2, ((poolSystem 2).restrict Discipline).Reachable s ∧
      s.mem.state (.object 1) = .cancelled ∧ (.object 1, 2) ∈ revoked s.log ∧
      enabled s (.dequeue 1) ∧ (next s (.dequeue 1)).mem.state (.object 1) = .running ∧
      ¬ FollowsLifeCycle s (.dequeue 1) ∧
      ¬ NeverCalled (next (next s (.dequeue 1)) (.execute 1 0)).log := by
  obtain ⟨s, hs, hst, hrev, hknown, hen, hst', hlog⟩ :
      ∃ s : Sys 2, ((poolSystem 2).restrict Discipline).Reachable s ∧
        s.mem.state (.object 1) = .cancelled ∧ (.object 1, 2) ∈ revoked s.log ∧
        .accepted (.object 1) ∈ s.log ∧ enabled s (.dequeue 1) ∧
        (next s (.dequeue 1)).mem.state (.object 1) = .running ∧
        (next (next s (.dequeue 1)) (.execute 1 0)).log =
          .called 1 (.object 1) :: .dequeued 1 (.object 1) :: s.log :=
    System.reachable_of_replay (startState_initial 2 2 0)
      [.init 0 (.object 0) ⟨some 1, none, none, none⟩,
        .init 0 (.object 1) ⟨some 1, none, none, none⟩,
        .submit 0 (.object 0), .submit 0 (.object 1), .take 0, .dequeue 0, .cancel 2 1, .take 1]
      (by decide)
  refine ⟨s, hs, hst, hrev, hen, hst', fun hfol => ?_, fun hcall => ?_⟩
  · have hedge := (hfol rfl (.object 1) ⟨_, hknown, rfl⟩ (by rw [hst, hst']; simp)).1
    rw [hst, hst'] at hedge
    cases hedge
  · rw [hlog] at hcall
    exact hcall.1 (.object 1, 2) hrev rfl

end OpenHsm
