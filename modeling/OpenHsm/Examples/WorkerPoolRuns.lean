import OpenHsm.Examples.WorkerPoolInvariant

/-!
The runs of `worker_pool.c`.

* `finalStats`, `MainInv.stats_eq`: the statistics that `main` reads after as many waits as
  jobs.
* `mainOwed`, `MainInv.owed_lt`: the steps that the program has left, and that every step is one
  of them.
* `MainInv.done_of_atRest`: where nothing can move any more `main` has returned, if its jobs fit
  into the queue.
* `main_returns_iff`: under every schedule `main` comes to its end with all jobs executed and
  counted, exactly if the jobs fit into the queue.
-/

namespace OpenHsm

open Occupancy Runs System

variable {n : ℕ}

section Step

variable {cfg : MainConfig} {s₀ : Sys n} {l : List (Sys n × Act n)} {s : MainState n}

/-! ### What `main` finds -/

/-- The statistics when every job is executed. -/
def finalStats (cfg : MainConfig) : PoolStats where
  totalSubmitted := UInt32.ofNat cfg.jobs
  totalCompleted := UInt32.ofNat ((List.range cfg.jobs).countP fun i => 0 ≤ cfg.testJobFunc i)
  totalCancelled := 0
  totalErrors := UInt32.ofNat ((List.range cfg.jobs).countP fun i => cfg.testJobFunc i < 0)
  queueDepth := 0
  activeWorkers := 0

/-- Nothing weighs anything where nothing is queued and no worker has a job. -/
lemma heldWeight_zero {t : Sys n} (h : heldWeight (fun _ => 1) .tell t = 0) :
    waiting t.log = [] ∧ (∀ w, (t.pc w).before .tell = none) ∧
      ∀ (f : JobRef → ℕ) (g : Stage), heldWeight f g t = 0 := by
  rw [heldWeight, weigh_one] at h
  have hnil : waiting t.log = [] := List.length_eq_zero_iff.mp (by omega)
  have hload := (load_eq_zero_iff (f := t.pc) fun p => worth (fun _ => 1) (p.before .tell)).mp
    (by omega)
  have hnone : ∀ w, (t.pc w).before .tell = none := by
    intro w
    have hw := hload w
    cases hb : (t.pc w).before .tell with
    | none => rfl
    | some j => rw [hb] at hw; cases hw
  refine ⟨hnil, hnone, fun f g => ?_⟩
  have hzero : load (fun p => worth f (p.before g)) t.pc = 0 := by
    refine (load_eq_zero_iff _).mpr fun w => ?_
    have hw := hnone w
    cases hp : t.pc w <;> rw [hp] at hw <;> first | cases g <;> rfl | cases hw
  rw [heldWeight, hnil, hzero]
  rfl

/-- **As many waits as jobs**: when none of the waits was interrupted, every job was accepted,
executed and announced. -/
lemma MainInv.all_done (h : MainInv cfg s₀ l s) (hs : Initial s₀)
    (hwaited : s.pc.waited cfg = cfg.jobs) (hno : along interrupted l = []) :
    accepts s.sys.log = (List.range cfg.jobs).map JobRef.object ∧
      heldWeight (fun _ => 1) .tell s.sys = 0 ∧ s.jobCount = cfg.jobs := by
  have htokens := tokens_count hs (RunFrom.restrict_iff.mp h.run).1 h.room
  obtain ⟨hrun, htell⟩ := h.counts hs
  have hwaits := h.waits
  have hle := h.accepts_length_le.trans (MainPc.submitted_le h.range)
  rw [hno, hwaited, List.length_nil] at hwaits
  have hheld : heldWeight (fun _ => 1) .tell s.sys = 0 := by omega
  have hzero := (heldWeight_zero hheld).2.2 (fun _ => 1) .run
  have hsub : s.pc.submitted cfg = cfg.jobs := by
    have := h.accepts_length_le
    have := MainPc.submitted_le h.range
    omega
  refine ⟨?_, hheld, by rw [h.count]; omega⟩
  have haccepted := h.accepted
  rw [hsub] at haccepted
  refine haccepted.eq_of_length ?_
  rw [List.length_map, List.length_range]
  omega

/-- The jobs settled failed as often as `test_job_func` does. -/
lemma MainInv.failures_eq (h : MainInv cfg s₀ l s) :
    failures l = weigh (failing cfg) (along (fun s a => Stage.settle.passed s a) l) := by
  have hmap : along (fun s a => Stage.settle.passed s a) l
      = (along settled l).map fun x => x.2.1 := along_map settled _ l
  have hright := h.right
  rw [failures, hmap]
  generalize along settled l = xs at hright
  induction xs with
  | nil => rfl
  | cons x xs ih =>
      obtain ⟨⟨i, -, hj, hres⟩, hall⟩ := List.forall_mem_cons.mp hright
      have hcons : weigh (failing cfg) ((x :: xs).map fun x => x.2.1)
          = failing cfg x.2.1 + weigh (failing cfg) (xs.map fun x => x.2.1) := by
        simp [weigh]
      rw [List.countP_cons, hcons, ih hall, hj, failing, hres, Nat.add_comm]
      simp

lemma weigh_failing (cfg : MainConfig) (k : ℕ) :
    weigh (failing cfg) ((List.range k).map JobRef.object)
      = (List.range k).countP fun i => cfg.testJobFunc i < 0 := by
  induction k with
  | zero => rfl
  | succ k ih =>
      rw [List.range_succ, List.map_append, List.map_singleton, weigh_append, ih,
        List.countP_append, List.countP_singleton, failing]
      simp

/-- Counters that balance, with nothing cancelled and nothing in the pool. -/
lemma PoolStats.eq_of_balanced {p : PoolStats} {good bad : ℕ} (hb : Balanced p)
    (hf : p.totalCompleted + p.totalErrors = UInt32.ofNat (good + bad))
    (he : p.totalErrors = UInt32.ofNat bad) (hc : p.totalCancelled = 0) (hd : p.queueDepth = 0)
    (ha : p.activeWorkers = 0) :
    p = ⟨UInt32.ofNat (good + bad), UInt32.ofNat good, 0, UInt32.ofNat bad, 0, 0⟩ := by
  cases p with
  | mk submitted completed cancelled errors depth active =>
      simp only [Balanced] at hb hf he hc hd ha
      rw [hf, hc, hd, ha] at hb
      rw [he, UInt32.ofNat_add] at hf
      have hcompleted : completed = UInt32.ofNat good := by grind
      have hsubmitted : submitted = UInt32.ofNat (good + bad) := by grind
      rw [hsubmitted, hcompleted, hc, he, hd, ha]

/-- The jobs that fail and the others are all jobs. -/
lemma countP_good_add_bad (r : ℕ → Int) (k : ℕ) :
    ((List.range k).countP fun i => 0 ≤ r i) + (List.range k).countP (fun i => r i < 0) = k := by
  induction k with
  | zero => rfl
  | succ k ih =>
      rw [List.range_succ, List.countP_append, List.countP_append, List.countP_singleton,
        List.countP_singleton]
      by_cases hk : r k < 0
      · have hnot : ¬ 0 ≤ r k := by omega
        simp only [hk, hnot, decide_true, decide_false, if_true]
        simp only [Bool.false_eq_true, if_false]
        omega
      · have hnonneg : 0 ≤ r k := by omega
        simp only [hk, hnonneg, decide_true, decide_false, if_true]
        simp only [Bool.false_eq_true, if_false]
        omega

/-- **The statistics of `main`** are those of all its jobs. -/
lemma MainInv.stats_eq (h : MainInv cfg s₀ l s) (hs : Initial s₀)
    (hwaited : s.pc.waited cfg = cfg.jobs) (hno : along interrupted l = []) :
    osaWorkerPoolGetStats s.sys.mem = finalStats cfg := by
  obtain ⟨hrun, horder⟩ := RunFrom.restrict_iff.mp h.run
  obtain ⟨hacc, hheld, -⟩ := h.all_done hs hwaited hno
  obtain ⟨hnil, hnone, hzero⟩ := heldWeight_zero hheld
  obtain ⟨⟨b, hq⟩, -, herrors⟩ := errors_count hs hrun fun p hp =>
    ⟨(horder p hp).1, (horder p hp).2.1⟩
  obtain ⟨hbalanced, hfinished, hactive⟩ := statsInv hs hrun
  -- the executions settled, counted and weighed
  have hsettled := h.account hs (fun _ => 1) .settle
  have hfailed := h.account hs (failing cfg) .settle
  have hmap : along (fun s a => Stage.settle.passed s a) l
      = (along settled l).map fun x => x.2.1 := along_map settled _ l
  rw [hacc, hzero, weigh_one, hmap, weigh_one, List.length_map, List.length_map,
    List.length_range, Nat.zero_add] at hsettled
  rw [hacc, hzero, weigh_failing, ← h.failures_eq, Nat.zero_add] at hfailed
  have hdepth : s.sys.mem.pool.stats.queueDepth = 0 := by
    have := hq.depth
    rw [hnil] at this
    exact UInt32.toNat_inj.mp this
  have hwork : s.sys.mem.pool.stats.activeWorkers = 0 := by
    have hocc : occupancy WorkerPc.AtWork s.sys.pc = 0 := by
      rw [occupancy_eq_zero_iff]
      intro w hw
      have hb := hnone w
      cases hp : s.sys.pc w <;> rw [hp] at hb hw <;> first | exact hw rfl | cases hb
    rw [hactive, hocc]
    rfl
  have hgood := countP_good_add_bad cfg.testJobFunc cfg.jobs
  rw [← hfailed] at herrors
  rw [← hsettled, ← hgood] at hfinished
  have hstats := PoolStats.eq_of_balanced hbalanced hfinished herrors h.kept.2 hdepth hwork
  rw [hgood] at hstats
  exact hstats

/-! ### To the end -/

/-- The steps that the workers, `osa_worker_pool_stop` and `main` have left. -/
def mainOwed (cfg : MainConfig) (s : MainState n) : ℕ := poolOwed s.sys + s.pc.owed cfg

/-- **Every step uses up what is owed.** -/
lemma MainInv.owed_lt {a : MainAct n} (h : MainInv cfg s₀ l s) (hs : Initial s₀)
    (hsem : cfg.jobs + n ≤ semValueMax) (ha : mainEnabled cfg s a) :
    mainOwed cfg (mainNext cfg s a) < mainOwed cfg s := by
  have hrange := h.range
  cases a with
  | worker a =>
      obtain ⟨hw, ha, hret⟩ := ha
      have hroom := (h.orderly hs hsem ha (.worker hw hret)).1.2.2
      have hbalance := stopBalance h.stop ha hroom
      rw [(workMove ha hroom).accepts_of_byWorker hw, if_pos (.inl hw)] at hbalance
      show poolOwed (next s.sys a) + s.pc.owed cfg < poolOwed s.sys + s.pc.owed cfg
      omega
  | call a =>
      obtain ⟨hcall, ha⟩ := ha
      have hm : MainStep cfg s a (s.pc.after cfg) := hcall.step
      have hroom := (h.orderly hs hsem ha hm).1.2.2
      have hbalance := stopBalance h.stop ha hroom
      show poolOwed (next s.sys a) + (s.pc.after cfg).owed cfg < poolOwed s.sys + s.pc.owed cfg
      -- a call other than a submit is worth no step of a worker
      have hsame : (∀ j, ¬ a.submits j) →
          poolOwed (next s.sys a) + (if a.ofPool then 1 else 0) ≤ poolOwed s.sys := by
        intro hno
        rcases (workMove ha hroom).accepts_cases with ⟨j, hj, -⟩ | ⟨hacc, -⟩
        · exact absurd hj (hno j)
        · rw [hacc] at hbalance
          omega
      cases hp : s.pc with
      | submit i =>
          rw [hp] at hrange
          have hi : i < cfg.jobs := hrange
          have hloop : (submitLoop cfg (i + 1)).owed cfg ≤ _ := submitLoop_owed
          have hgrow : (accepts (next s.sys a).log).length ≤ (accepts s.sys.log).length + 1 := by
            rcases (workMove ha hroom).accepts_cases with ⟨j, -, hacc, -⟩ | ⟨hacc, -⟩ <;> rw [hacc]
            · rw [List.length_append, List.length_singleton]
            · exact Nat.le_succ _
          show _ + (submitLoop cfg (i + 1)).owed cfg
            < _ + (7 * (cfg.jobs - i) + 3 * cfg.jobs + 1)
          omega
      | stopping =>
          rw [hp] at hcall
          have hstop : a.ofPool := .inr hcall
          have := hsame fun j hj => by
            rcases hj with ⟨c, rfl⟩ | ⟨c, t, sig, rfl⟩ <;> cases hcall
          rw [if_pos hstop] at this
          simp only [MainPc.after, MainPc.owed]
          omega
      | released i =>
          rw [hp] at hcall hrange
          have hi : i < cfg.jobs := hrange
          have hloop : (waitLoop cfg (i + 1)).owed cfg ≤ _ := waitLoop_owed
          have := hsame fun j hj => by
            rw [show a = .waitReturn 0 from hcall] at hj
            rcases hj with ⟨c, hj⟩ | ⟨c, t, sig, hj⟩ <;> cases hj
          show _ + (waitLoop cfg (i + 1)).owed cfg < _ + 3 * (cfg.jobs - i)
          omega
      | init i =>
          rw [hp] at hcall hrange
          have hi : i < cfg.jobs := hrange
          have := hsame fun j hj => by
            rw [show a = .init 0 (.object i) (jobArgs i) from hcall] at hj
            rcases hj with ⟨c, hj⟩ | ⟨c, t, sig, hj⟩ <;> cases hj
          simp only [MainPc.after, MainPc.owed]
          omega
      | wait i =>
          rw [hp] at hcall hrange
          have hi : i < cfg.jobs := hrange
          have := hsame fun j hj => by
            rw [show a = .waitCall 0 (.object i) (-1) from hcall] at hj
            rcases hj with ⟨c, hj⟩ | ⟨c, t, sig, hj⟩ <;> cases hj
          simp only [MainPc.after, MainPc.owed]
          omega
      | blocked i =>
          rw [hp] at hcall hrange
          have hi : i < cfg.jobs := hrange
          have := hsame fun j hj => by
            rcases hcall with rfl | ⟨err, rfl⟩ <;>
              rcases hj with ⟨c, hj⟩ | ⟨c, t, sig, hj⟩ <;> cases hj
          simp only [MainPc.after, MainPc.owed]
          omega
      | stats => rw [hp] at hcall; exact hcall.elim
      | done ret => rw [hp] at hcall; exact hcall.elim
  | getStats =>
      obtain ⟨hp, -⟩ := ha
      simp [mainOwed, mainNext, hp, MainPc.owed]
  | finish =>
      obtain ⟨hp, -⟩ := ha
      simp [mainOwed, mainNext, hp, MainPc.owed]

/-- At rest no worker can move. -/
lemma MainInv.pool_atRest (h : MainInv cfg s₀ l s) (hs : Initial s₀)
    (hrest : (mainSystem n cfg).AtRest MainAct.uninterrupted s) :
    (poolSystem n).AtRest Act.byWorker s.sys := by
  intro a hact ha
  by_cases hret : ReturnsTest cfg s.sys a
  · exact hrest (.worker a) trivial ⟨hact, ha, hret⟩
  · cases a with
    | execute w ret =>
        cases hw : s.sys.pc w with
        | running j =>
            -- the worker can move, and returns what `test_job_func` returns
            obtain ⟨i, hi, rfl⟩ := h.busy hs (j := j) (.inr ⟨w, by rw [hw]; rfl⟩)
            have hlt : i < s.pc.initialised cfg := by
              cases hp : s.pc <;> rw [hp] at hi <;> simp only [MainPc.submitted] at hi <;>
                simp only [MainPc.initialised] <;> omega
            refine hrest (.worker (.execute w (cfg.testJobFunc i))) trivial
              ⟨hact, by simp [enabled, hw], fun k hk m hm => ?_⟩
            rw [hw] at hk
            obtain rfl := Option.some.inj hk
            rw [(h.written i hlt).2] at hm
            rw [Option.some.inj hm]
        | _ => simp [poolSystem, enabled, hw] at ha
    | _ => exact hret trivial

/-- **Where the program rests, `main` has returned**, if the jobs fit into the queue and no
wait was interrupted. -/
lemma MainInv.done_of_atRest (h : MainInv cfg s₀ l s) (hs : Initial s₀) (hn : 0 < n)
    (hno : along interrupted l = []) (hfit : cfg.jobs ≤ cfg.queueSize.toNat)
    (hrest : (mainSystem n cfg).AtRest MainAct.uninterrupted s) : ∃ ret, s.pc = .done ret := by
  have hpool := h.pool_atRest hs hrest
  have hfree : LockFree s.sys := by
    intro w
    by_contra hw
    exact hpool (.notify w) (by simp [Act.byWorker, Act.worker])
      (by simpa [poolSystem, enabled] using hw)
  -- the call that `main` has reached cannot be taken
  have hcall : ∀ a, s.pc.Calls a → MainAct.uninterrupted (.call a) → ¬ enabled s.sys a :=
    fun a hc hu ha => hrest (.call a) hu ⟨hc, ha⟩
  have hplace := h.place
  have hrange := h.range
  cases hp : s.pc with
  | init i =>
      rw [hp] at hcall
      exact absurd trivial (hcall _ rfl trivial)
  | submit i =>
      rw [hp] at hcall
      exact absurd hfree (hcall _ rfl trivial)
  | wait i =>
      rw [hp] at hcall hplace
      exact absurd ⟨hplace, hfree⟩ (hcall _ rfl trivial)
  | blocked i =>
      exfalso
      rw [hp] at hcall hplace hrange
      have hplace : s.sys.waiter 0 = .blocked (.object i) (-1) := hplace
      have hi : i < cfg.jobs := hrange
      have hserving := h.serving (by rw [hp]; trivial)
      obtain ⟨hnil, hwaiting, -⟩ := hserving.all_resolved ((hserving.atRest_iff hn).mp hpool)
      have hload : load (fun p => worth (fun _ => 1) (p.before .tell)) s.sys.pc = 0 :=
        (load_eq_zero_iff _).mpr fun w => by rw [hwaiting w]; rfl
      have htokens := tokens_count hs (RunFrom.restrict_iff.mp h.run).1 h.room
      have hcount := (h.counts hs).2
      have hwaits := h.waits
      have hall := h.complete hfit
      rw [hp] at hwaits hall
      rw [heldWeight, hnil, hload] at hcount
      simp only [MainPc.waited, MainPc.submitted, hno, List.length_nil] at hwaits hall
      simp only [weigh, List.map_nil, List.sum_nil] at hcount
      refine hcall (.waitTake 0) (.inl rfl) trivial ?_
      simp only [enabled, hplace]
      omega
  | released i =>
      rw [hp] at hcall hplace
      obtain ⟨ret, hplace⟩ := hplace
      exact absurd (by simpa only [enabled, hplace] using hfree) (hcall _ rfl trivial)
  | stats => exact absurd ⟨hp, hfree⟩ (hrest .getStats trivial)
  | stopping =>
      exfalso
      have hcalled : s.sys.stop.called := by
        cases hstop : s.sys.stop with
        | notCalled =>
            rw [hp] at hcall
            exact (hcall .stopBegin rfl trivial ⟨hstop, hfree⟩).elim
        | _ => trivial
      have hall : (poolSystem n).AtRest Act.ofPool s.sys := by
        intro a hact ha
        rcases hact with hact | hact
        · exact hpool a hact ha
        · rw [hp] at hcall
          refine hcall a hact ?_ ha
          cases a <;> trivial
      exact hrest .finish trivial ⟨hp, h.stop.returned_of_atRest h.joins hcalled hall⟩
  | done ret => exact ⟨ret, rfl⟩

/-! ### Runs of the program -/

/-- `main` has returned `0`, after all its jobs. -/
structure MainReturned (cfg : MainConfig) (t : MainState n) : Prop where
  pc : t.pc = .done 0
  jobCount : t.jobCount = cfg.jobs
  stats : t.stats = some (finalStats cfg)
  exited : ∀ w, t.sys.pc w = .exited

/-- What holds along a run without an interrupted wait. -/
def Uninterrupted (cfg : MainConfig) (s₀ : Sys n) (t : MainState n) : Prop :=
  ∃ l, MainInv cfg s₀ l t ∧ along interrupted l = [] ∧
    (¬ t.pc.beforeStop → t.stats = some (finalStats cfg))

lemma Uninterrupted.step {a : MainAct n} (h : Uninterrupted cfg s₀ s) (hs : Initial s₀)
    (hsem : cfg.jobs + n ≤ semValueMax) (ha : mainEnabled cfg s a) (hu : a.uninterrupted) :
    Uninterrupted cfg s₀ (mainNext cfg s a) := by
  obtain ⟨l, hinv, hno, hstats⟩ := h
  refine ⟨_, hinv.step hs hsem ha, ?_, ?_⟩
  · cases a with
    | worker a =>
        have hnone : interrupted s.sys a = none := by
          cases a <;> first | rfl | exact absurd rfl ha.1
        exact (along_cons_none hnone).trans hno
    | call a =>
        have hnone : interrupted s.sys a = none := by
          cases a <;> first | rfl | exact hu.elim
        exact (along_cons_none hnone).trans hno
    | getStats | finish => exact hno
  · cases a with
    | worker a => exact hstats
    | call a =>
        intro hp
        by_cases hbefore : (s.pc.after cfg).beforeStop
        · exact absurd hbefore hp
        · refine hstats fun hb => hbefore ?_
          cases hp : s.pc <;> rw [hp] at hb <;> first | exact hb | skip
          · exact submitLoop_beforeStop
          · exact waitLoop_beforeStop
    | getStats =>
        obtain ⟨hp, -⟩ := ha
        exact fun _ => congrArg some (hinv.stats_eq hs (by rw [hp]; rfl) hno)
    | finish =>
        obtain ⟨hp, -⟩ := ha
        exact fun _ => hstats (by rw [hp]; exact id)

/-- Where `main` has returned it has returned `0`. -/
lemma Uninterrupted.returned (h : Uninterrupted cfg s₀ s) (hs : Initial s₀) {ret : Int}
    (hp : s.pc = .done ret) : MainReturned cfg s := by
  obtain ⟨l, hinv, hno, hstats⟩ := h
  obtain ⟨-, -, hcount⟩ := hinv.all_done hs (by rw [hp]; rfl) hno
  obtain ⟨hstop, hret⟩ := hinv.returned ret hp
  rw [if_pos hcount] at hret
  exact ⟨by rw [hp, hret], hcount, hstats (by rw [hp]; exact id),
    hinv.stop.exited_of_returned hstop⟩

/-- **A schedule for a queue that is too small**: `main` makes all its submits before a worker
wakes up. -/
lemma exists_crowded_run (h : MainInitial cfg s) {i : ℕ} (hi : i ≤ cfg.jobs) :
    ∃ l u, ((mainSystem n cfg).restrict fun _ a => a.uninterrupted).RunFrom s l u ∧
      u.pc = submitLoop cfg i ∧ u.sys.pc = (fun _ => .waiting) ∧
      waiting u.sys.log = accepts u.sys.log := by
  induction i with
  | zero =>
      obtain ⟨hinit, -, -, hpc, -⟩ := h
      exact ⟨[], s, RunFrom.refl, hpc, hinit.2.2.1, by rw [hinit.log_eq]; rfl⟩
  | succ i ih =>
      obtain ⟨l, u, hl, hpc, hworkers, hwait⟩ := ih (by omega)
      rw [submitLoop, if_pos (by omega)] at hpc
      have hinit : mainEnabled cfg u (.call (.init 0 (.object i) (jobArgs i))) :=
        ⟨by rw [hpc]; rfl, trivial⟩
      set v := mainNext cfg u (.call (.init 0 (.object i) (jobArgs i))) with hv
      have hvpc : v.pc = .submit i := by rw [hv]; show u.pc.after cfg = _; rw [hpc]; rfl
      have hfree : LockFree v.sys := fun w => by
        show (u.sys.pc w).holdsLock = false
        rw [hworkers]
        rfl
      have hsubmit : mainEnabled cfg v (.call (.submit 0 (.object i))) :=
        ⟨by rw [hvpc]; rfl, hfree⟩
      have hrun : ((mainSystem n cfg).restrict fun _ a => a.uninterrupted).RunFrom s _ v :=
        RunFrom.step hl (show mainEnabled cfg u _ ∧ _ from ⟨hinit, trivial⟩)
      refine ⟨_, _, RunFrom.step hrun (show mainEnabled cfg v _ ∧ _ from ⟨hsubmit, trivial⟩), ?_,
        hworkers, ?_⟩
      · show v.pc.after cfg = _
        rw [hvpc]
        rfl
      · have hlog : waiting v.sys.log = accepts v.sys.log := hwait
        show waiting (submitEvent _ _ :: v.sys.log) = accepts (submitEvent _ _ :: v.sys.log)
        rw [submitEvent]
        split
        · rw [waiting, accepts, hlog]
        · exact hlog

/-- `main` is past its submits, and the queue held what was accepted. -/
lemma crowded_keep {q : ℕ} {a : MainAct n} (h : MainInv cfg s₀ l s) (hs : Initial s₀)
    (hsem : cfg.jobs + n ≤ semValueMax) (ha : mainEnabled cfg s a)
    (hacc : (accepts s.sys.log).length ≤ q) (hpc : s.pc.Past) :
    (accepts (mainNext cfg s a).sys.log).length ≤ q ∧ (mainNext cfg s a).pc.Past := by
  have hpool : ∀ (b : Act n) (p : MainPc), enabled s.sys b → MainStep cfg s b p →
      (accepts (next s.sys b).log).length ≤ q ∧ p.Past := by
    intro b p hb hm
    have hroom := (h.orderly hs hsem hb hm).1.2.2
    have hno : ∀ j, ¬ b.submits j := by
      rintro j (⟨c, rfl⟩ | ⟨c, t, sig, rfl⟩)
      · cases hm with
        | worker hw _ => exact hw rfl
        | submit i hp _ => rw [hp] at hpc; exact hpc
        | init i _ hact | wait i _ hact | take i _ hact | fail i err _ hact | back i _ hact
        | stop _ hact => cases hact
      · cases hm with
        | worker hw _ => exact hw rfl
        | init i _ hact | submit i _ hact | wait i _ hact | take i _ hact | fail i err _ hact
        | back i _ hact | stop _ hact => cases hact
    refine ⟨?_, ?_⟩
    · rcases (workMove hb hroom).accepts_cases with ⟨j, hj, -⟩ | ⟨hsame, -⟩
      · exact absurd hj (hno j)
      · rw [hsame]
        exact hacc
    · cases hm with
      | worker _ _ => exact hpc
      | init i hp _ => rw [hp] at hpc; exact hpc.elim
      | submit i hp _ => rw [hp] at hpc; exact hpc.elim
      | back i _ _ =>
          rw [waitLoop]
          split <;> trivial
      | wait _ _ _ | take _ _ _ | fail _ _ _ _ | stop _ _ => trivial
  cases a with
  | worker a => exact hpool a s.pc ha.2.1 (.worker ha.1 ha.2.2)
  | call a => exact hpool a _ ha.2 ha.1.step
  | getStats | finish => exact ⟨hacc, trivial⟩

end Step

/-- **What the runs of `main` are.** -/
structure MainRuns (cfg : MainConfig) (s : MainState n) : Prop where
  /-- Every run ends, also when waits are interrupted. -/
  bounded : ∀ l t, (mainSystem n cfg).RunFrom s l t →
    l.length + mainOwed cfg t ≤ 10 * cfg.jobs + 7 * n + 3
  /-- Without an interrupted wait `main` returns `0`, after all its jobs. -/
  right : ∀ l t ret, ((mainSystem n cfg).restrict fun _ a => a.uninterrupted).RunFrom s l t →
    t.pc = .done ret → MainReturned cfg t
  /-- Under every schedule it returns, exactly if the jobs fit into the queue. -/
  returns_iff : (∀ l t, ((mainSystem n cfg).restrict fun _ a => a.uninterrupted).RunFrom s l t →
    (mainSystem n cfg).AtRest MainAct.uninterrupted t → MainReturned cfg t) ↔
      cfg.jobs ≤ cfg.queueSize.toNat

/-- **`worker_pool.c` is right exactly if its jobs fit into the queue.** For any number of
workers, jobs and results: every run is finite; where no wait is interrupted and `main`
returns, it returns `0` with all jobs executed and the statistics those of all jobs; and it
returns under every schedule if and only if there are no more jobs than the queue holds. -/
theorem main_returns_iff {cfg : MainConfig} {s : MainState n} (hn : 0 < n)
    (hsem : cfg.jobs + n ≤ semValueMax) (h : MainInitial cfg s) : MainRuns cfg s := by
  have hs : Initial s.sys := h.1
  have hinv : ∀ (u : MainState n) (a : MainAct n), (∃ l, MainInv cfg s.sys l u) →
      mainEnabled cfg u a →
      (∃ l, MainInv cfg s.sys l (mainNext cfg u a)) ∧
        mainOwed cfg (mainNext cfg u a) < mainOwed cfg u := by
    rintro u a ⟨l, hu⟩ ha
    exact ⟨⟨_, hu.step hs hsem ha⟩, hu.owed_lt hs hsem ha⟩
  have hquiet : ∀ l t, ((mainSystem n cfg).restrict fun _ a => a.uninterrupted).RunFrom s l t →
      Uninterrupted cfg s.sys t := by
    intro l t hl
    have hkeep : ∀ (u : MainState n) (a : MainAct n), Uninterrupted cfg s.sys u →
        mainEnabled cfg u a ∧ a.uninterrupted → Uninterrupted cfg s.sys (mainNext cfg u a) :=
      fun u a hu ha => hu.step hs hsem ha.1 ha.2
    refine hl.invariant hkeep ⟨[], .initial h, rfl, fun hp => ?_⟩
    exact absurd (h.2.2.2.1 ▸ submitLoop_beforeStop) hp
  refine ⟨fun l t hl => ?_, fun l t ret hl hp => (hquiet l t hl).returned hs hp, ?_, ?_⟩
  · have hlen := hl.length_le (μ := mainOwed cfg) (A := fun _ => True)
      (fun u a hu ha _ => hinv u a hu ha) ⟨[], .initial h⟩ (fun _ _ => trivial)
    have hstart : mainOwed cfg s ≤ 10 * cfg.jobs + 7 * n + 3 := by
      have hloop : (submitLoop cfg 0).owed cfg ≤ _ := submitLoop_owed
      rw [mainOwed, poolOwed_initial hs, h.2.2.2.1]
      omega
    omega
  · -- a queue that is too small is filled before a worker wakes up
    intro hall
    by_contra hfit
    obtain ⟨l, u, hl, hpc, -, hwait⟩ := exists_crowded_run h le_rfl
    obtain ⟨k, hu, -⟩ := hquiet l u hl
    have hcrowd : (accepts u.sys.log).length ≤ cfg.queueSize.toNat := by
      obtain ⟨b, hb⟩ := queueInv_of_orderly hs hu.run
      have hbound := UInt32.le_iff_toNat_le.mp hb.bound
      rw [hb.depth, hwait, hu.size] at hbound
      exact hbound
    have hpast : u.pc.Past := by
      rw [hpc, submitLoop, if_neg (lt_irrefl _), waitLoop, if_pos (by omega)]
      trivial
    have hkeep : ∀ v a, (∃ k, MainInv cfg s.sys k v) ∧
        (accepts v.sys.log).length ≤ cfg.queueSize.toNat ∧ v.pc.Past → mainEnabled cfg v a →
        (∃ k, MainInv cfg s.sys k (mainNext cfg v a)) ∧
          (accepts (mainNext cfg v a).sys.log).length ≤ cfg.queueSize.toNat ∧
          (mainNext cfg v a).pc.Past := by
      rintro v a ⟨⟨k, hv⟩, hacc, hp⟩ ha
      exact ⟨⟨_, hv.step hs hsem ha⟩, crowded_keep hv hs hsem ha hacc hp⟩
    obtain ⟨l', t, hl', hun, hrest⟩ := exists_run_to_rest (S := mainSystem n cfg)
      (μ := mainOwed cfg) (A := MainAct.uninterrupted)
      (fun v a hv ha _ => ⟨hkeep v a hv ha, (hinv v a hv.1 ha).2⟩) ⟨⟨k, hu⟩, hcrowd, hpast⟩
    obtain ⟨⟨k', ht⟩, hacc, -⟩ := hl'.invariant hkeep ⟨⟨k, hu⟩, hcrowd, hpast⟩
    have hret := hall _ t (hl.append (RunFrom.restrict_iff.mpr ⟨hl', hun⟩)) hrest
    have hcount := (ht.counts hs).1
    have hjobs := ht.count
    rw [hret.jobCount] at hjobs
    omega
  · intro hfit l t hl hrest
    obtain ⟨k, ht, hno, hstats⟩ := hquiet l t hl
    obtain ⟨ret, hret⟩ := ht.done_of_atRest hs hn hno hfit hrest
    exact (hquiet l t hl).returned hs hret

/-- The start of the program on a pool of two workers. -/
def mainStart (cfg : MainConfig) : MainState 2 where
  sys := startState 2 2 cfg.queueSize 0
  pc := submitLoop cfg 0
  jobCount := 0
  stats := none

/-- **The program of the source returns `0` under every schedule**: five jobs, two workers, a
queue of sixteen. -/
theorem five_jobs_returned :
    MainRuns workerPoolConfig (mainStart workerPoolConfig) ∧
      (∀ l t, ((mainSystem 2 workerPoolConfig).restrict fun _ a => a.uninterrupted).RunFrom
          (mainStart workerPoolConfig) l t →
        (mainSystem 2 workerPoolConfig).AtRest MainAct.uninterrupted t →
        t.pc = .done 0 ∧ t.stats = some ⟨5, 5, 0, 0, 0, 0⟩) := by
  have hruns : MainRuns workerPoolConfig (mainStart workerPoolConfig) :=
    main_returns_iff (by decide) (by decide)
      ⟨startState_initial .., by decide, by decide, rfl, rfl, rfl⟩
  refine ⟨hruns, fun l t hl hrest => ?_⟩
  obtain ⟨hpc, -, hstats, -⟩ := hruns.returns_iff.mpr (by decide) l t hl hrest
  exact ⟨hpc, hstats.trans (by decide)⟩

end OpenHsm
