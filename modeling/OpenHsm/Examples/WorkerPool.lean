import OpenHsm.Worker.StopReturns

/-!
`main` of `examples/linux/worker_pool.c`: it submits a number of jobs to a pool, waits on
`complete_sem` as many times, reads the statistics and stops the pool.

* `MainConfig`, `workerPoolConfig`: the constants of the program.
* `MainPc`, `MainState`, `mainSystem`: `main` beside the workers of the pool.  A call that
  blocks is the step in which it goes on; the result of a wait is ignored.
* `MainPc.submitted`, `MainPc.waited`, `MainPc.owed`: what `main` has done at each of its places,
  and what it has left.
* `MainStep`: the steps of the program in the pool, with the place that `main` goes to.
-/

namespace OpenHsm

open Runs System

variable {n : ℕ}

/-! ### The program -/

/-- What `main` and `test_job_func` are made of. -/
structure MainConfig where
  /-- The number of jobs. -/
  jobs : ℕ
  /-- The `queue_size` of the pool. -/
  queueSize : UInt32
  /-- What `test_job_func` returns on `&ids[i]`. -/
  testJobFunc : ℕ → Int

/-- The constants of the source: five jobs, and `ids[i] * 10` with `ids[i] = i + 1`. -/
def workerPoolConfig : MainConfig := ⟨5, 16, fun i => (i + 1) * 10⟩

/-- Where `main` is, in its two loops the index with it. -/
inductive MainPc where
  /-- At `osa_worker_job_init` of `job_items[i]`. -/
  | init (i : ℕ)
  | submit (i : ℕ)
  | wait (i : ℕ)
  /-- In `osa_sem_wait`, called from `osa_worker_pool_wait`. -/
  | blocked (i : ℕ)
  /-- Past `osa_sem_wait`. -/
  | released (i : ℕ)
  /-- At `osa_worker_pool_get_stats`. -/
  | stats
  /-- In `osa_worker_pool_stop`. -/
  | stopping
  | done (ret : Int)
  deriving DecidableEq, Repr

/-- `main`, the pool, and the variables they share. -/
structure MainState (n : ℕ) where
  sys : Sys n
  pc : MainPc
  jobCount : ℕ
  stats : Option PoolStats

/-- A step: of a worker, a step of `main` in the pool, or one of its own. -/
inductive MainAct (n : ℕ) where
  | worker (a : Act n)
  | call (a : Act n)
  | getStats
  | finish
  deriving DecidableEq, Repr

/-- The arguments of `osa_worker_job_init`: `test_job_func` with `&ids[i]`, and
`completion_callback`. -/
def jobArgs (i : ℕ) : InitArgs := ⟨some 0, some i, some 0, none⟩

/-- The head of the loop over the waits. -/
def waitLoop (cfg : MainConfig) (i : ℕ) : MainPc := if i < cfg.jobs then .wait i else .stats

/-- The head of the loop over the submits. -/
def submitLoop (cfg : MainConfig) (i : ℕ) : MainPc :=
  if i < cfg.jobs then .init i else waitLoop cfg 0

/-- The step of the pool that `main` makes. -/
def MainPc.Calls : MainPc → Act n → Prop
  | .init i, a => a = .init 0 (.object i) (jobArgs i)
  | .submit i, a => a = .submit 0 (.object i)
  | .wait i, a => a = .waitCall 0 (.object i) (-1)
  | .blocked _, a => a = .waitTake 0 ∨ ∃ err, a = .waitFail 0 err
  | .released _, a => a = .waitReturn 0
  | .stopping, a => a.byStop = true
  | _, _ => False

/-- Where `main` goes on. -/
def MainPc.after (cfg : MainConfig) : MainPc → MainPc
  | .init i => .submit i
  | .submit i => submitLoop cfg (i + 1)
  | .wait i => .blocked i
  | .blocked i => .released i
  | .released i => waitLoop cfg (i + 1)
  | p => p

/-- An execution returns what `test_job_func` returns. -/
def ReturnsTest (cfg : MainConfig) (s : Sys n) : Act n → Prop
  | .execute w ret => ∀ j ∈ (s.pc w).toRun, ∀ i ∈ (s.mem.jobs j).jobCtx, ret = cfg.testJobFunc i
  | _ => True

/-- `job_count++`, under `result_lock`. -/
def counted (s : Sys n) : Act n → ℕ
  | .execute w _ => match (s.pc w).toRun with
      | some j => if (s.mem.jobs j).jobFunc = some 0 then 1 else 0
      | none => 0
  | _ => 0

/-- When a step can be taken. -/
def mainEnabled (cfg : MainConfig) (s : MainState n) : MainAct n → Prop
  | .worker a => a.byWorker ∧ enabled s.sys a ∧ ReturnsTest cfg s.sys a
  | .call a => s.pc.Calls a ∧ enabled s.sys a
  | .getStats => s.pc = .stats ∧ LockFree s.sys
  | .finish => s.pc = .stopping ∧ s.sys.stop.returned n

/-- The effect of a step. -/
def mainNext (cfg : MainConfig) (s : MainState n) : MainAct n → MainState n
  | .worker a => { s with sys := next s.sys a, jobCount := s.jobCount + counted s.sys a }
  | .call a => { s with sys := next s.sys a, pc := s.pc.after cfg }
  | .getStats => { s with pc := .stopping, stats := some (osaWorkerPoolGetStats s.sys.mem) }
  | .finish => { s with pc := .done (if s.jobCount = cfg.jobs then 0 else -1) }

/-- After `osa_worker_pool_start`. -/
def MainInitial (cfg : MainConfig) (s : MainState n) : Prop :=
  Initial s.sys ∧ s.sys.mem.pool.numWorkers.toNat = n ∧
    s.sys.mem.pool.queueSize = cfg.queueSize ∧ s.pc = submitLoop cfg 0 ∧ s.jobCount = 0 ∧
    s.stats = none

/-- The program. -/
def mainSystem (n : ℕ) (cfg : MainConfig) : System (MainState n) (MainAct n) where
  init := MainInitial cfg
  enabled := mainEnabled cfg
  next := mainNext cfg

/-- No wait of `main` is interrupted. -/
def MainAct.uninterrupted : MainAct n → Prop
  | .call (.waitFail _ _) => False
  | _ => True

/-! ### What is written into a job -/

lemma Memory.call_of_data {m m' : Memory} {j : JobRef} (h : m.data j = m'.data j) :
    (m.jobs j).jobFunc = (m'.jobs j).jobFunc ∧ (m.jobs j).jobCtx = (m'.jobs j).jobCtx :=
  ⟨(congrArg Job.jobFunc h :), (congrArg Job.jobCtx h :)⟩

/-- A submit leaves the function of a job and its argument alone. -/
lemma osaWorkerPoolSubmit_call (m : Memory) (j k : JobRef) :
    (((osaWorkerPoolSubmit m (some j)).2.jobs k).jobFunc = (m.jobs k).jobFunc) ∧
      ((osaWorkerPoolSubmit m (some j)).2.jobs k).jobCtx = (m.jobs k).jobCtx := by
  by_cases hk : k = j
  · have hassign : ((assignId m j).jobs k).jobFunc = (m.jobs k).jobFunc ∧
        ((assignId m j).jobs k).jobCtx = (m.jobs k).jobCtx := by
      simp only [assignId, getNextJobId, hk]
      split
      · simp [Memory.setId, Memory.modifyJob]
      · exact ⟨rfl, rfl⟩
    rcases osaWorkerPoolSubmit_cases m j with ⟨-, hr⟩ | ⟨-, -, hr⟩
    · rw [hr]
      exact ⟨rfl, rfl⟩
    · rw [hr, ← hassign.1, ← hassign.2]
      refine Memory.call_of_data ?_
      rw [Memory.modifyPool_data, Memory.modifyStats_data, enqueueJob_data]
  · exact Memory.call_of_data (osaWorkerPoolSubmit_data_of_ne m hk)

/-- Only `osa_worker_job_init` writes the function of a job that is not a slot. -/
lemma next_call_object (s : Sys n) {a : Act n} {k : ℕ}
    (ha : ∀ c args, a ≠ .init c (.object k) args) :
    ((next s a).mem.jobs (.object k)).jobFunc = (s.mem.jobs (.object k)).jobFunc ∧
      ((next s a).mem.jobs (.object k)).jobCtx = (s.mem.jobs (.object k)).jobCtx := by
  by_cases hw : WritesData s a (.object k)
  · cases a with
    | init c j args =>
        obtain rfl : JobRef.object k = j := hw
        exact absurd rfl (ha c args)
    | alloc c =>
        obtain ⟨i, hi, -⟩ := hw
        cases hi
    | submit c j => exact osaWorkerPoolSubmit_call s.mem j _
    | submitToHsm c j t sig =>
        have hset : ((s.mem.setTarget j t sig).jobs (.object k)).jobFunc
              = (s.mem.jobs (.object k)).jobFunc ∧
            ((s.mem.setTarget j t sig).jobs (.object k)).jobCtx
              = (s.mem.jobs (.object k)).jobCtx := by
          by_cases hj : JobRef.object k = j
          · rw [hj]
            simp [Memory.setTarget, Memory.modifyJob]
          · rw [Memory.setTarget, Memory.modifyJob_jobs_of_ne _ _ _ hj]
            exact ⟨rfl, rfl⟩
        have hsub := osaWorkerPoolSubmit_call (s.mem.setTarget j t sig) j (.object k)
        exact ⟨hsub.1.trans hset.1, hsub.2.trans hset.2⟩
    | execute w ret =>
        cases hp : s.pc w with
        | running j =>
            simp only [next, hp, executeJob]
            by_cases hj : JobRef.object k = j
            · rw [hj]
              simp [Memory.setResult, Memory.modifyJob]
            · rw [Memory.setResult, Memory.modifyJob_jobs_of_ne _ _ _ hj]
              exact ⟨rfl, rfl⟩
        | _ => simp [next, hp]
    | _ => exact hw.elim
  · exact Memory.call_of_data (next_data hw)

/-! ### The places of `main` -/

/-- The index of a loop is within the loop. -/
def MainPc.InRange (cfg : MainConfig) : MainPc → Prop
  | .init i | .submit i | .wait i | .blocked i | .released i => i < cfg.jobs
  | _ => True

/-- What `osa_worker_pool_wait` is doing for `main`. -/
def MainPc.Waits : MainPc → WaiterPc → Prop
  | .blocked i, p => p = .blocked (.object i) (-1)
  | .released i, p => ∃ ret, p = .returned (.object i) (-1) ret
  | _, p => p = .idle

/-- The jobs that are initialised. -/
def MainPc.initialised (cfg : MainConfig) : MainPc → ℕ
  | .init i => i
  | .submit i => i + 1
  | _ => cfg.jobs

/-- The jobs that were submitted. -/
def MainPc.submitted (cfg : MainConfig) : MainPc → ℕ
  | .init i | .submit i => i
  | _ => cfg.jobs

/-- The waits that are over. -/
def MainPc.waited (cfg : MainConfig) : MainPc → ℕ
  | .init _ | .submit _ => 0
  | .wait i | .blocked i => i
  | .released i => i + 1
  | _ => cfg.jobs

/-- The submits are over. -/
def MainPc.Past : MainPc → Prop
  | .init _ | .submit _ => False
  | _ => True

/-- `osa_worker_pool_stop` is still to come. -/
def MainPc.beforeStop : MainPc → Prop
  | .stopping | .done _ => False
  | _ => True

/-- The steps that `main` has left, a submit with the five steps that a worker takes for it. -/
def MainPc.owed (cfg : MainConfig) : MainPc → ℕ
  | .init i => 7 * (cfg.jobs - i) + 3 * cfg.jobs + 2
  | .submit i => 7 * (cfg.jobs - i) + 3 * cfg.jobs + 1
  | .wait i => 3 * (cfg.jobs - i) + 2
  | .blocked i => 3 * (cfg.jobs - i) + 1
  | .released i => 3 * (cfg.jobs - i)
  | .stats => 2
  | .stopping => 1
  | .done _ => 0

section Loops

variable {cfg : MainConfig} {i : ℕ}

lemma waitLoop_inRange : (waitLoop cfg i).InRange cfg := by
  rw [waitLoop]
  split
  · next h => exact h
  · trivial

lemma submitLoop_inRange : (submitLoop cfg i).InRange cfg := by
  rw [submitLoop]
  split
  · next h => exact h
  · exact waitLoop_inRange

lemma waitLoop_waits {p : WaiterPc} : (waitLoop cfg i).Waits p ↔ p = .idle := by
  rw [waitLoop]
  split <;> rfl

lemma submitLoop_waits {p : WaiterPc} : (submitLoop cfg i).Waits p ↔ p = .idle := by
  rw [submitLoop]
  split
  · rfl
  · exact waitLoop_waits

lemma waitLoop_submitted : (waitLoop cfg i).submitted cfg = cfg.jobs ∧
    (waitLoop cfg i).initialised cfg = cfg.jobs := by
  rw [waitLoop]
  split <;> exact ⟨rfl, rfl⟩

lemma submitLoop_submitted (hi : i ≤ cfg.jobs) : (submitLoop cfg i).submitted cfg = i ∧
    (submitLoop cfg i).initialised cfg = i := by
  rw [submitLoop]
  split
  · exact ⟨rfl, rfl⟩
  · have hi : cfg.jobs = i := by omega
    exact ⟨waitLoop_submitted.1.trans hi, waitLoop_submitted.2.trans hi⟩

lemma waitLoop_waited (hi : i ≤ cfg.jobs) : (waitLoop cfg i).waited cfg = i := by
  rw [waitLoop]
  split
  · rfl
  · exact (show cfg.jobs = i by omega)

lemma submitLoop_waited : (submitLoop cfg i).waited cfg = 0 := by
  rw [submitLoop]
  split
  · rfl
  · exact waitLoop_waited (Nat.zero_le _)

lemma waitLoop_beforeStop : (waitLoop cfg i).beforeStop := by
  rw [waitLoop]
  split <;> trivial

lemma submitLoop_beforeStop : (submitLoop cfg i).beforeStop := by
  rw [submitLoop]
  split
  · trivial
  · exact waitLoop_beforeStop

lemma waitLoop_owed : (waitLoop cfg i).owed cfg ≤ 3 * (cfg.jobs - i) + 2 := by
  rw [waitLoop]
  split <;> simp only [MainPc.owed] <;> omega

lemma submitLoop_owed : (submitLoop cfg i).owed cfg ≤ 7 * (cfg.jobs - i) + 3 * cfg.jobs + 2 := by
  rw [submitLoop]
  split
  · exact le_rfl
  · have hwait : (waitLoop cfg 0).owed cfg ≤ _ := waitLoop_owed
    omega

end Loops

lemma MainPc.Calls.no_worker {p : MainPc} {a : Act n} (h : p.Calls a) : a.worker = none := by
  cases p <;> simp only [MainPc.Calls] at h
  case stopping => cases a <;> first | rfl | cases h
  case blocked i => rcases h with rfl | ⟨err, rfl⟩ <;> rfl
  all_goals rw [h]; rfl

/-- The step `a` of the pool, by a worker or by `main`, and where `main` is after it. -/
inductive MainStep (cfg : MainConfig) (s : MainState n) (a : Act n) : MainPc → Prop
  | worker : a.byWorker → ReturnsTest cfg s.sys a → MainStep cfg s a s.pc
  | init (i : ℕ) : s.pc = .init i → a = .init 0 (.object i) (jobArgs i) →
      MainStep cfg s a (.submit i)
  | submit (i : ℕ) : s.pc = .submit i → a = .submit 0 (.object i) →
      MainStep cfg s a (submitLoop cfg (i + 1))
  | wait (i : ℕ) : s.pc = .wait i → a = .waitCall 0 (.object i) (-1) →
      MainStep cfg s a (.blocked i)
  | take (i : ℕ) : s.pc = .blocked i → a = .waitTake 0 → MainStep cfg s a (.released i)
  | fail (i : ℕ) (err : Int) : s.pc = .blocked i → a = .waitFail 0 err →
      MainStep cfg s a (.released i)
  | back (i : ℕ) : s.pc = .released i → a = .waitReturn 0 →
      MainStep cfg s a (waitLoop cfg (i + 1))
  | stop : s.pc = .stopping → a.byStop = true → MainStep cfg s a .stopping

/-- What `main` calls is one of its steps. -/
lemma MainPc.Calls.step {cfg : MainConfig} {s : MainState n} {a : Act n} (h : s.pc.Calls a) :
    MainStep cfg s a (s.pc.after cfg) := by
  cases hp : s.pc with
  | init i => rw [hp] at h; exact .init i hp h
  | submit i => rw [hp] at h; exact .submit i hp h
  | wait i => rw [hp] at h; exact .wait i hp h
  | blocked i =>
      rw [hp] at h
      rcases h with h | ⟨err, h⟩
      · exact .take i hp h
      · exact .fail i err hp h
  | released i => rw [hp] at h; exact .back i hp h
  | stopping => rw [hp] at h; exact .stop hp h
  | stats => rw [hp] at h; exact h.elim
  | done r => rw [hp] at h; exact h.elim

end OpenHsm
