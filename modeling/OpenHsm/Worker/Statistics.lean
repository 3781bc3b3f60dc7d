import OpenHsm.Library.Occupancy
import OpenHsm.Worker.Clients
import OpenHsm.Worker.Sections
import OpenHsm.Worker.Tokens

/-!
The counters of `struct osa_worker_pool_stats`.

* `StatsMove`, `statsMove`: what one step does to the six counters, with the worker that
  dequeues or settles a job.
* `Balanced`, `StatsInv`: the balance of the counters, and what they count: executions
  settled and workers at work.  Both are kept by every step, with any callers.
* `Recorded`: a job still carries the result of the execution that is about to be
  settled.  This takes callers that leave busy jobs alone and cancels that are fresh:
  a cancel that corrupts the queue can give one job to two workers.
* `statistics_balance`: the counters along a run; `failed_execution_counted_as_success` the run in
  which two workers execute one job and the failure of one of them is not counted.
-/

namespace OpenHsm

open Occupancy Runs

variable {n : ℕ}

/-! ### What a step does to the counters -/

/-- The counters after the first half of a completion section. -/
def settleStats (failed : Bool) (p : PoolStats) : PoolStats :=
  let p := { p with activeWorkers := p.activeWorkers - 1 }
  if failed then { p with totalErrors := p.totalErrors + 1 }
  else { p with totalCompleted := p.totalCompleted + 1 }

/-- What the step `a` from `s` to `t` does to the counters and to the workers at work. -/
inductive StatsMove (s : Sys n) (a : Act n) (t : Sys n) : Prop
  | quiet : t.mem.pool.stats = s.mem.pool.stats →
      (∀ w, (t.pc w).executing = (s.pc w).executing) → settled s a = none → StatsMove s a t
  | accept : t.mem.pool.stats = { s.mem.pool.stats with
        queueDepth := s.mem.pool.stats.queueDepth + 1
        totalSubmitted := s.mem.pool.stats.totalSubmitted + 1 } →
      t.pc = s.pc → settled s a = none → StatsMove s a t
  | cancel : t.mem.pool.stats = { s.mem.pool.stats with
        queueDepth := s.mem.pool.stats.queueDepth - 1
        totalCancelled := s.mem.pool.stats.totalCancelled + 1 } →
      t.pc = s.pc → settled s a = none → StatsMove s a t
  | pick (w : Fin n) (j : JobRef) : s.pc w = .woken → t.mem.pool.stats = { s.mem.pool.stats with
        activeWorkers := s.mem.pool.stats.activeWorkers + 1
        queueDepth := s.mem.pool.stats.queueDepth - 1 } →
      t.pc = Function.update s.pc w (.running j) → settled s a = none → StatsMove s a t
  | settle (w : Fin n) (j : JobRef) (e : Execution) : s.pc w = .executed j e →
      t.mem.pool.stats = settleStats (decide ((s.mem.jobs j).result < 0)) s.mem.pool.stats →
      t.pc = Function.update s.pc w (.notifying j e) → settled s a = some (w, j, e) →
      StatsMove s a t

lemma finishJob_stats (m : Memory) (j : JobRef) :
    (finishJob m j).pool.stats
      = settleStats (decide ((m.jobs j).result < 0)) m.pool.stats := by
  by_cases hr : (m.jobs j).result < 0 <;> simp [finishJob, settleStats, hr]

lemma cancelJob_stats (m : Memory) (j : JobRef) :
    (cancelJob m j).pool.stats = { m.pool.stats with
      queueDepth := m.pool.stats.queueDepth - 1
      totalCancelled := m.pool.stats.totalCancelled + 1 } := by
  simp [cancelJob]

/-- A submit counts the job if it accepts it. -/
lemma StatsMove.submit {s : Sys n} {a : Act n} {c : ℕ} {j : JobRef} {m : Memory}
    (hpool : m.pool = s.mem.pool) (ha : settled s a = none) :
    StatsMove s a (afterSubmit s c j (osaWorkerPoolSubmit m (some j))) := by
  rcases osaWorkerPoolSubmit_cases m j with ⟨-, hr⟩ | ⟨-, -, hr⟩
  · exact .quiet (by simp [afterSubmit, hr, hpool]) (fun _ => rfl) ha
  · exact .accept (by simp [afterSubmit, hr, hpool]) rfl ha

/-- **What a step does to the counters.** -/
theorem statsMove {s : Sys n} {a : Act n} (ha : enabled s a) : StatsMove s a (next s a) := by
  cases a with
  | submit c j => exact .submit rfl rfl
  | submitToHsm c j t sig => exact .submit (m := s.mem.setTarget j t sig) rfl rfl
  | alloc c =>
      have hpool := osaWorkerJobAlloc_pool s.mem
      simp only [next]
      split <;> exact .quiet (congrArg Pool.stats hpool) (fun _ => rfl) rfl
  | cancel id fuel =>
      rcases next_cancel_cases s id fuel with hnext | hnext | ⟨j, hnext⟩ <;> rw [hnext]
      · exact .quiet rfl (fun _ => rfl) rfl
      · exact .quiet rfl (fun _ => rfl) rfl
      · exact .cancel (cancelJob_stats s.mem j) rfl rfl
  | take w => exact .quiet rfl (executing_update (by rw [ha.1]; rfl)) rfl
  | dequeue w =>
      rcases next_dequeue_cases s w with ⟨-, hnext⟩ | ⟨-, -, hnext⟩ | ⟨j, -, hhead, hnext⟩
      · rw [hnext]
        exact .quiet rfl (executing_update (by rw [ha.1]; rfl)) rfl
      · rw [hnext]
        exact .quiet rfl (executing_update (by rw [ha.1]; rfl)) rfl
      · rw [hnext]
        refine .pick w j ha.1 ?_ rfl rfl
        show (dequeueJob s.mem).2.pool.stats = _
        rw [dequeueJob_pool hhead]
  | execute w ret =>
      cases hw : s.pc w with
      | running j =>
          simp only [next, hw]
          exact .quiet rfl (executing_update (by rw [hw]; rfl)) rfl
      | _ => simp [enabled, hw] at ha
  | finish w =>
      cases hw : s.pc w with
      | executed j e =>
          simp only [next, hw]
          exact .settle w j e hw (finishJob_stats s.mem j) rfl (by simp [settled, hw])
      | _ => simp [enabled, hw] at ha
  | notify w =>
      cases hw : s.pc w with
      | notifying j e =>
          refine .quiet ?_ ?_ rfl
          · simp only [next, hw, notifyStep]
            cases (s.mem.jobs j).targetHsm <;> rfl
          · simp only [next, hw, notifyStep_pc]
            exact executing_update (by rw [hw]; rfl)
      | _ => simp [enabled, hw, WorkerPc.holdsLock] at ha
  | waitCall x j t | waitTake x | waitFail x err | waitReturn x | stopPost =>
      simp only [next]
      split <;> exact .quiet rfl (fun _ => rfl) rfl
  | handledFree k =>
      simp only [next]
      split
      · next j _ _ => cases j <;> exact .quiet rfl (fun _ => rfl) rfl
      · exact .quiet rfl (fun _ => rfl) rfl
  | free c j => cases j <;> exact .quiet rfl (fun _ => rfl) rfl
  | init c j args | stopBegin | stopJoin w | hsmStart k | post k sig | receive k | handled k =>
      exact .quiet rfl (fun _ => rfl) rfl

/-! ### The balance -/

/-- Every submitted job is accounted for, modulo `2^32`. -/
def Balanced (p : PoolStats) : Prop :=
  p.totalSubmitted
    = p.totalCompleted + p.totalErrors + p.totalCancelled + p.queueDepth + p.activeWorkers

instance (p : PoolStats) : Decidable (Balanced p) := inferInstanceAs (Decidable (_ = _))

/-- The worker is between its dequeue and the final state of its job. -/
def WorkerPc.AtWork (p : WorkerPc) : Prop := p.executing ≠ none

instance : DecidablePred WorkerPc.AtWork := fun _ => inferInstanceAs (Decidable (_ ≠ _))

/-- What the counters count, in every state of a run. -/
structure StatsInv (l : List (Sys n × Act n)) (t : Sys n) : Prop where
  balanced : Balanced t.mem.pool.stats
  finished : t.mem.pool.stats.totalCompleted + t.mem.pool.stats.totalErrors
    = UInt32.ofNat (along settled l).length
  active : t.mem.pool.stats.activeWorkers = UInt32.ofNat (occupancy WorkerPc.AtWork t.pc)

lemma StatsInv.initial {s : Sys n} (h : Initial s) : StatsInv [] s := by
  obtain ⟨⟨k, q, hpool⟩, -, hpc, -⟩ := h
  have hzero : occupancy WorkerPc.AtWork s.pc = 0 := by
    rw [occupancy_eq_zero_iff, hpc]
    exact fun _ h => h rfl
  refine ⟨?_, ?_, ?_⟩
  · rw [hpool]; rfl
  · rw [hpool]; rfl
  · rw [hzero, hpool]; rfl

lemma settleStats_cases (failed : Bool) (p : PoolStats) :
    (settleStats failed p).totalSubmitted = p.totalSubmitted ∧
      (settleStats failed p).totalCancelled = p.totalCancelled ∧
      (settleStats failed p).queueDepth = p.queueDepth ∧
      (settleStats failed p).activeWorkers = p.activeWorkers - 1 ∧
      (settleStats failed p).totalErrors = p.totalErrors + (if failed then 1 else 0) ∧
      (settleStats failed p).totalCompleted = p.totalCompleted + (if failed then 0 else 1) := by
  cases failed <;> simp [settleStats]

/-- Only a cancel counts a cancelled job. -/
lemma next_totalCancelled {s : Sys n} {a : Act n} (ha : ∀ id fuel, a ≠ .cancel id fuel) :
    (next s a).mem.pool.stats.totalCancelled = s.mem.pool.stats.totalCancelled := by
  cases a with
  | submit c j =>
      rcases osaWorkerPoolSubmit_cases s.mem j with ⟨-, hr⟩ | ⟨-, -, hr⟩ <;>
        simp [next, afterSubmit, hr]
  | submitToHsm c j t sig =>
      rcases osaWorkerPoolSubmit_cases (s.mem.setTarget j t sig) j with ⟨-, hr⟩ | ⟨-, -, hr⟩ <;>
        simp [next, osaWorkerPoolSubmitToHsm, afterSubmit, hr]
  | alloc c => rw [next_alloc_mem, osaWorkerJobAlloc_pool]
  | cancel id fuel => exact absurd rfl (ha id fuel)
  | dequeue w =>
      rcases next_dequeue_cases s w with ⟨-, hnext⟩ | ⟨-, -, hnext⟩ | ⟨j, -, hhead, hnext⟩
      · rw [hnext]
      · rw [hnext]
      · rw [hnext]
        show (dequeueJob s.mem).2.pool.stats.totalCancelled = _
        rw [dequeueJob_pool hhead]
  | finish w =>
      simp only [next]
      split
      · next j e _ =>
          have hstats := finishJob_stats s.mem j
          simp only [hstats]
          exact (settleStats_cases _ _).2.1
      · rfl
  | notify w =>
      simp only [next]
      split
      · next j e _ => cases hh : (s.mem.jobs j).targetHsm <;> simp [notifyStep, hh]
      · rfl
  | free c j => cases j <;> rfl
  | handledFree k =>
      simp only [next]
      split
      · next j _ _ => cases j <;> rfl
      · rfl
  | execute w ret | waitCall x j t | waitTake x | waitFail x err | waitReturn x | stopPost =>
      simp only [next]
      split <;> rfl
  | init c j args | take w | stopBegin | stopJoin w | hsmStart k | post k sig | receive k
  | handled k => rfl

/-- Every step keeps the balance. -/
lemma StatsInv.step {l : List (Sys n × Act n)} {s : Sys n} {a : Act n} (h : StatsInv l s)
    (ha : enabled s a) : StatsInv ((s, a) :: l) (next s a) := by
  obtain ⟨hb, hf, hact⟩ := h
  rw [Balanced] at hb
  cases statsMove ha with
  | quiet hst hex hset =>
      have hocc : occupancy WorkerPc.AtWork (next s a).pc = occupancy WorkerPc.AtWork s.pc :=
        le_antisymm
          (occupancy_mono fun w => by rw [WorkerPc.AtWork, WorkerPc.AtWork, hex w]; exact id)
          (occupancy_mono fun w => by rw [WorkerPc.AtWork, WorkerPc.AtWork, hex w]; exact id)
      refine ⟨?_, ?_, ?_⟩
      · rw [hst]; exact hb
      · rw [hst, along_cons_none hset]; exact hf
      · rw [hst, hocc]; exact hact
  | accept hst hpc hset =>
      refine ⟨?_, ?_, ?_⟩
      · rw [Balanced, hst, hb]; grind
      · rw [hst, along_cons_none hset]; exact hf
      · rw [hst, hpc]; exact hact
  | cancel hst hpc hset =>
      refine ⟨?_, ?_, ?_⟩
      · rw [Balanced, hst, hb]; grind
      · rw [hst, along_cons_none hset]; exact hf
      · rw [hst, hpc]; exact hact
  | pick w j hw hst hpc hset =>
      have hocc : occupancy WorkerPc.AtWork (next s a).pc = occupancy WorkerPc.AtWork s.pc + 1 := by
        rw [hpc]
        exact occupancy_enter (by rw [hw]; exact fun h => h rfl)
          (by simp [WorkerPc.AtWork, WorkerPc.executing])
      refine ⟨?_, ?_, ?_⟩
      · rw [Balanced, hst, hb]; grind
      · rw [hst, along_cons_none hset]; exact hf
      · rw [hst, hocc, UInt32.ofNat_add, ← hact]; rfl
  | settle w j e hw hst hpc hset =>
      have hocc : occupancy WorkerPc.AtWork (next s a).pc + 1 = occupancy WorkerPc.AtWork s.pc := by
        rw [hpc]
        exact occupancy_leave (by rw [hw]; simp [WorkerPc.AtWork, WorkerPc.executing])
          (fun h => h rfl)
      obtain ⟨h1, h2, h3, h4, h5, h6⟩ :=
        settleStats_cases (decide ((s.mem.jobs j).result < 0)) s.mem.pool.stats
      refine ⟨?_, ?_, ?_⟩
      · rw [Balanced, hst, h1, h2, h3, h4, h5, h6, hb]
        split <;> grind
      · rw [hst, h5, h6, along_cons_some hset, List.length_cons, UInt32.ofNat_add, ← hf]
        split <;> grind
      · rw [hst, h4, hact, ← hocc, UInt32.ofNat_add]
        grind

/-- The counters balance in every run. -/
lemma statsInv {s t : Sys n} {l : List (Sys n × Act n)} (hs : Initial s)
    (hl : (poolSystem n).RunFrom s l t) : StatsInv l t := by
  induction hl with
  | refl => exact StatsInv.initial hs
  | step _ ha ih => exact ih.step ha

/-! ### The results -/

/-- What an execution leaves as its result. -/
lemma executionOf_result (s : Sys n) (j : JobRef) (ret : Int) :
    (executionOf s j ret).result = if (s.mem.jobs j).jobFunc = none then -1 else ret := by
  simp [executionOf, executeJob, Memory.setResult, Memory.modifyJob]

/-- A job still carries the execution that is about to be settled. -/
def Recorded (s : Sys n) : Prop := ∀ w j e, s.pc w = .executed j e → Matches s.mem j e

lemma Recorded.initial {s : Sys n} (h : Initial s) : Recorded s := by
  obtain ⟨-, -, hpc, -⟩ := h
  intro w j e hw
  rw [hpc] at hw; cases hw

/-- Nobody writes to the fields of a job between its execution and its final state. -/
lemma Recorded.step {s : Sys n} {b : Option JobRef} {a : Act n} (hr : Recorded s)
    (h : QueueInv s b) (ha : enabled s a) (hd : Discipline s a) : Recorded (next s a) := by
  intro w j e hw
  have hmove := pcMove ha w
  rw [hw] at hmove
  generalize hp : WorkerPc.executed j e = p at hmove
  cases hmove with
  | same hworker =>
      have hex : (s.pc w).executing = some j := by rw [← hp]; rfl
      refine (hr w j e hp.symm).congr (h.busy_data hd (Or.inr ⟨w, hex⟩) ?_)
      rintro v ret rfl hv
      exact hworker (congrArg some (h.distinct v w j hv hex))
  | run k ret hact hk =>
      obtain ⟨rfl, rfl⟩ : j = k ∧ e = executionOf s k ret := by simpa using hp
      have hmem : (next s a).mem = executeJob s.mem j ret := by simp [hact, next, hk]
      rw [hmem]
      exact ⟨rfl, rfl, rfl⟩
  | _ => cases hp

/-- The number of settled executions whose result was negative. -/
def failures (l : List (Sys n × Act n)) : ℕ :=
  (along settled l).countP fun x => x.2.2.result < 0

/-- The errors are counted right, as long as the jobs carry their own executions. -/
lemma errors_step {l : List (Sys n × Act n)} {s : Sys n} {a : Act n} (hr : Recorded s)
    (h : s.mem.pool.stats.totalErrors = UInt32.ofNat (failures l)) (ha : enabled s a) :
    (next s a).mem.pool.stats.totalErrors = UInt32.ofNat (failures ((s, a) :: l)) := by
  cases statsMove ha with
  | quiet hst _ hset => rw [hst, failures, along_cons_none hset]; exact h
  | accept hst _ hset => rw [hst, failures, along_cons_none hset]; exact h
  | cancel hst _ hset => rw [hst, failures, along_cons_none hset]; exact h
  | pick w j _ hst _ hset => rw [hst, failures, along_cons_none hset]; exact h
  | settle w j e hw hst _ hset =>
      obtain ⟨-, -, hres⟩ := hr w j e hw
      obtain ⟨-, -, -, -, herr, -⟩ :=
        settleStats_cases (decide ((s.mem.jobs j).result < 0)) s.mem.pool.stats
      rw [hst, herr, failures, along_cons_some hset, List.countP_cons, UInt32.ofNat_add, h, hres,
        failures]
      by_cases hneg : e.result < 0 <;> simp [hneg]

/-! ### Runs -/

/-- What the counters say in a state `t` that the run `l` reaches. -/
structure StatsExact (l : List (Sys n × Act n)) (t : Sys n) : Prop where
  /-- Every snapshot balances. -/
  balanced : Balanced (osaWorkerPoolGetStats t.mem)
  finished : t.mem.pool.stats.totalCompleted + t.mem.pool.stats.totalErrors
    = UInt32.ofNat (along settled l).length
  /-- The workers at work are counted exactly, and there are no more than workers. -/
  active : t.mem.pool.stats.activeWorkers.toNat = occupancy WorkerPc.AtWork t.pc
  bound : t.mem.pool.stats.activeWorkers ≤ t.mem.pool.numWorkers

lemma StatsInv.exact {l : List (Sys n × Act n)} {t : Sys n} (h : StatsInv l t)
    (hn : n ≤ t.mem.pool.numWorkers.toNat) : StatsExact l t := by
  have hle : occupancy WorkerPc.AtWork t.pc ≤ n := by
    have := Finset.card_le_univ (Finset.univ.filter fun w => (t.pc w).AtWork)
    rwa [Fintype.card_fin] at this
  have hactive : t.mem.pool.stats.activeWorkers.toNat = occupancy WorkerPc.AtWork t.pc := by
    have := t.mem.pool.numWorkers.toNat_lt
    rw [h.active, UInt32.toNat_ofNat_of_lt' (by rw [UInt32.size]; omega)]
  refine ⟨h.balanced, h.finished, hactive, ?_⟩
  rw [UInt32.le_iff_toNat_le, hactive]
  omega

/-- Along a run whose callers leave busy jobs alone and whose cancels are fresh, the errors are
counted right. -/
lemma errors_count {s t : Sys n} {l : List (Sys n × Act n)} (hs : Initial s)
    (hl : (poolSystem n).RunFrom s l t) (hc : ∀ p ∈ l, Discipline p.1 p.2 ∧ CancelFresh p.1 p.2) :
    (∃ b, QueueInv t b) ∧ Recorded t ∧
      t.mem.pool.stats.totalErrors = UInt32.ofNat (failures l) := by
  induction hl with
  | refl =>
      obtain ⟨⟨k, q, hpool⟩, -⟩ := id hs
      refine ⟨⟨none, QueueInv.initial hs⟩, Recorded.initial hs, ?_⟩
      rw [hpool]
      rfl
  | @step l u a _ ha ih =>
      obtain ⟨⟨hd, hf⟩, hc⟩ := List.forall_mem_cons.mp hc
      obtain ⟨⟨b, hq⟩, hr, he⟩ := ih hc
      exact ⟨⟨_, hq.step ha hd hf⟩, hr.step hq ha hd, errors_step hr he ha⟩

/-- **The statistics balance in every run**, with any callers: the counters, what they
count, and the workers at work.  The errors are exactly the executions whose result was
negative, or that had no function (`executionOf_result`), as long as busy jobs are left
alone and every cancel is fresh. -/
theorem statistics_balance {s t : Sys n} {l : List (Sys n × Act n)} (hs : Initial s)
    (hn : n ≤ s.mem.pool.numWorkers.toNat) (hl : (poolSystem n).RunFrom s l t) :
    StatsExact l t ∧ ((∀ p ∈ l, Discipline p.1 p.2 ∧ CancelFresh p.1 p.2) →
      t.mem.pool.stats.totalErrors = UInt32.ofNat (failures l)) := by
  have hworkers : n ≤ t.mem.pool.numWorkers.toNat :=
    hl.invariant (P := fun u : Sys n => n ≤ u.mem.pool.numWorkers.toNat)
      (fun u a hu ha => (next_numWorkers ha).symm ▸ hu) hn
  exact ⟨(statsInv hs hl).exact hworkers, fun hc => (errors_count hs hl hc).2.2⟩

/-- A worker runs a job that fails, and another one is cancelled while it does. -/
def failedJobRun (w : Fin n) : List (Act n) :=
  [.init 0 (.object 0) ⟨some 1, none, none, none⟩, .init 0 (.object 1) ⟨some 1, none, none, none⟩,
    .submit 0 (.object 0), .take w, .dequeue w, .submit 0 (.object 1), .execute w (-5),
    .cancel 2 1, .finish w, .notify w]

/-- The counters after a failed and a cancelled job. -/
theorem failed_job_counted :
    ∃ t, ((poolSystem 1).RunFrom (startState 1 1 2 0)
        ((poolSystem 1).history (startState 1 1 2 0) (failedJobRun 0)) t) ∧
      t.mem.pool.stats = ⟨2, 0, 1, 1, 0, 0⟩ ∧
      StatsExact ((poolSystem 1).history (startState 1 1 2 0) (failedJobRun 0)) t ∧
      t.mem.pool.stats.totalErrors
        = UInt32.ofNat
            (failures ((poolSystem 1).history (startState 1 1 2 0) (failedJobRun 0))) := by
  have hrun : ∃ t ∈ (poolSystem 1).replay (startState 1 1 2 0) (failedJobRun 0),
      t.mem.pool.stats = ⟨2, 0, 1, 1, 0, 0⟩ := by decide
  obtain ⟨t, ht, hstats⟩ := hrun
  have hl := System.runFrom_of_replay ht
  obtain ⟨hexact, herr⟩ := statistics_balance (startState_initial ..) (by decide) hl
  exact ⟨t, hl, hstats, hexact, herr (by decide)⟩

/-- Three jobs are queued, and the last but one, which a worker took before and which was
submitted again, is given to two workers: the cancel of the job in front of it writes
through a stale `prev` and links it to itself. -/
def doubleRun (w₀ w₁ w₂ : Fin n) : List (Act n) :=
  [.init 0 (.object 0) ⟨some 1, none, none, none⟩, .init 0 (.object 1) ⟨some 1, none, none, none⟩,
    .init 0 (.object 2) ⟨some 1, none, none, none⟩, .submit 0 (.object 0), .submit 0 (.object 1),
    .take w₀, .dequeue w₀, .execute w₀ 0, .finish w₀, .notify w₀,
    .submit 0 (.object 0), .submit 0 (.object 2), .cancel 2 1,
    .take w₀, .dequeue w₀, .take w₁, .dequeue w₁, .take w₂, .dequeue w₂,
    .execute w₁ (-1), .execute w₂ 0, .finish w₁, .notify w₁, .finish w₂, .notify w₂]

/-- **A failed execution counted as a success.**  Two workers execute one job at the same
time; the first execution fails, the second overwrites its result with `0`, and both are
counted as completed. -/
theorem failed_execution_counted_as_success :
    ∃ t, ((poolSystem 3).restrict Discipline).RunFrom (startState 3 3 4 0)
        ((poolSystem 3).history (startState 3 3 4 0) (doubleRun 0 1 2)) t ∧ LockFree t ∧
      t.mem.pool.stats.totalErrors = 0 ∧
      failures ((poolSystem 3).history (startState 3 3 4 0) (doubleRun 0 1 2)) = 1 ∧
      t.mem.pool.stats.totalErrors
        ≠ UInt32.ofNat
            (failures ((poolSystem 3).history (startState 3 3 4 0) (doubleRun 0 1 2))) := by
  have hrun : ∃ t ∈ ((poolSystem 3).restrict Discipline).replay (startState 3 3 4 0)
      (doubleRun 0 1 2), LockFree t ∧ t.mem.pool.stats.totalErrors = 0 := by decide
  have hfail : failures ((poolSystem 3).history (startState 3 3 4 0) (doubleRun 0 1 2)) = 1 := by
    decide
  obtain ⟨t, ht, hfree, herr⟩ := hrun
  refine ⟨t, System.runFrom_of_replay ht, hfree, herr, hfail, ?_⟩
  rw [herr, hfail]
  decide

end OpenHsm
