import OpenHsm.Examples.WorkerPool
import OpenHsm.Worker.Announce
import OpenHsm.Worker.Drain
import OpenHsm.Worker.Stages
import OpenHsm.Worker.Wait

/-!
What the pool has gone through when `main` of `worker_pool.c` is at one of its places.

* `RightResult`, `failing`: what `test_job_func` returns on the jobs of `main`.
* `MainInv`: the history of the pool under `main`, and what it says of the jobs, of the waits
  and of `job_count`.
* `MainInv.orderly`: `main` keeps to the interface of the pool.
* `MainInv.pool_step`, `MainInv.step`: every step of the program keeps the invariant.
-/

namespace OpenHsm

open Occupancy Runs System

variable {n : ℕ}

/-! ### The history of the pool under `main` -/

/-- The wait of `main` is interrupted. -/
def interrupted (_ : Sys n) : Act n → Option Int
  | .waitFail _ err => some err
  | _ => none

/-- An execution of a job of `main` has the result of `test_job_func`. -/
def RightResult (cfg : MainConfig) (j : JobRef) (e : Execution) : Prop :=
  ∃ i < cfg.jobs, j = .object i ∧ e.result = cfg.testJobFunc i

/-- The jobs whose `test_job_func` fails, as a weight. -/
def failing (cfg : MainConfig) : JobRef → ℕ
  | .object i => if cfg.testJobFunc i < 0 then 1 else 0
  | .slot _ => 0

/-- `main` is where it is, and the pool has gone through the run `l` from `s₀`. -/
structure MainInv (cfg : MainConfig) (s₀ : Sys n) (l : List (Sys n × Act n)) (s : MainState n) :
    Prop where
  run : ((poolSystem n).restrict Orderly).RunFrom s₀ l s.sys
  room : ∀ p ∈ l, CompleteRoom p.1 p.2
  stop : StopInv s.sys
  joins : JoinsInRange s.sys
  serving : s.pc.beforeStop → ServingInv s.sys
  size : s.sys.mem.pool.queueSize = cfg.queueSize
  range : s.pc.InRange cfg
  place : s.pc.Waits (s.sys.waiter 0)
  written : ∀ i < s.pc.initialised cfg, (s.sys.mem.jobs (.object i)).jobFunc = some 0 ∧
    (s.sys.mem.jobs (.object i)).jobCtx = some i
  accepted : (accepts s.sys.log).Sublist ((List.range (s.pc.submitted cfg)).map JobRef.object)
  complete : cfg.jobs ≤ cfg.queueSize.toNat → (accepts s.sys.log).length = s.pc.submitted cfg
  kept : discards s.sys.log = [] ∧ s.sys.mem.pool.stats.totalCancelled = 0
  tokens : s.sys.mem.pool.workSem.posixSem ≤ (accepts s.sys.log).length + s.sys.stop.posted n
  executed : ∀ w j e, s.sys.pc w = .executed j e → RightResult cfg j e
  right : ∀ x ∈ along settled l, RightResult cfg x.2.1 x.2.2
  count : s.jobCount = (along ran l).length
  waits : (along took l).length + (along interrupted l).length = s.pc.waited cfg
  returned : ∀ ret, s.pc = .done ret →
    s.sys.stop.returned n ∧ ret = if s.jobCount = cfg.jobs then 0 else -1

section Step

variable {cfg : MainConfig} {s₀ : Sys n} {l : List (Sys n × Act n)} {s : MainState n}

/-- What is accepted is queued, in the hands of a worker, or past the stage. -/
lemma MainInv.account (h : MainInv cfg s₀ l s) (hs : Initial s₀) (f : JobRef → ℕ) (g : Stage) :
    weigh f (accepts s.sys.log) = heldWeight f g s.sys
      + weigh f (along (fun s a => g.passed s a) l) := by
  have hflow := flow_along hs h.run f g
  rw [h.kept.1] at hflow
  exact hflow

lemma MainInv.accepts_length_le (h : MainInv cfg s₀ l s) :
    (accepts s.sys.log).length ≤ s.pc.submitted cfg := by
  have := h.accepted.length_le
  rwa [List.length_map, List.length_range] at this

lemma MainPc.submitted_le {p : MainPc} (h : p.InRange cfg) : p.submitted cfg ≤ cfg.jobs := by
  cases p <;> simp only [MainPc.InRange] at h <;> simp only [MainPc.submitted] <;> omega

/-- The executions, and the announcements, are at most the accepted jobs. -/
lemma MainInv.counts (h : MainInv cfg s₀ l s) (hs : Initial s₀) :
    (accepts s.sys.log).length
        = heldWeight (fun _ => 1) .run s.sys + (along ran l).length ∧
      (accepts s.sys.log).length
        = heldWeight (fun _ => 1) .tell s.sys + (along told l).length := by
  have hrun := h.account hs (fun _ => 1) .run
  have htell := h.account hs (fun _ => 1) .tell
  have hr : along (fun s a => Stage.run.passed s a) l = (along ran l).map fun x => x.2.1 :=
    along_map ran _ l
  have ht : along (fun s a => Stage.tell.passed s a) l = (along told l).map fun x => x.2.1 :=
    along_map told _ l
  rw [weigh_one, hr, weigh_one, List.length_map] at hrun
  rw [weigh_one, ht, weigh_one, List.length_map] at htell
  exact ⟨hrun, htell⟩

/-- A busy job is one of those submitted. -/
lemma MainInv.busy (h : MainInv cfg s₀ l s) (hs : Initial s₀) {j : JobRef} (hj : Busy s.sys j) :
    ∃ i < s.pc.submitted cfg, j = .object i := by
  have hmem := h.accepted.subset (busy_accepted hs h.run hj)
  obtain ⟨i, hi, rfl⟩ := List.mem_map.mp hmem
  exact ⟨i, List.mem_range.mp hi, rfl⟩

/-- The steps of the program keep to the interface of the pool, and its posts find room. -/
lemma MainInv.orderly {a : Act n} {p : MainPc} (h : MainInv cfg s₀ l s) (hs : Initial s₀)
    (hsem : cfg.jobs + n ≤ semValueMax) (ha : enabled s.sys a) (hm : MainStep cfg s a p) :
    Orderly s.sys a ∧ CompleteRoom s.sys a := by
  have hle := h.accepts_length_le
  have hrange := h.range
  have hnot : ∀ i, s.pc.submitted cfg = i → ¬ Busy s.sys (.object i) := by
    intro i hi hbusy
    obtain ⟨k, hk, he⟩ := h.busy hs hbusy
    obtain rfl := JobRef.object.inj he
    omega
  cases hm with
  | worker hw _ =>
      obtain ⟨hd, hc, hroom, -⟩ := serving_of_byWorker (s := s.sys) hw
      refine ⟨⟨hd, hc, hroom⟩, ?_⟩
      cases a with
      | notify w =>
          have hn := w.isLt
          have htokens := tokens_count hs (RunFrom.restrict_iff.mp h.run).1 h.room
          have hcount := (h.counts hs).2
          have hsub := MainPc.submitted_le hrange
          show s.sys.mem.pool.completeSem.posixSem < semValueMax
          omega
      | _ => trivial
  | init i hp hact =>
      subst hact
      exact ⟨⟨⟨trivial, hnot i (by rw [hp]; rfl)⟩, trivial, trivial⟩, trivial⟩
  | submit i hp hact =>
      subst hact
      have hstop := (h.serving (by rw [hp]; trivial)).stop
      have htokens := h.tokens
      rw [hp] at hle hrange
      rw [hstop] at htokens
      have hi : i < cfg.jobs := hrange
      have hle : (accepts s.sys.log).length ≤ i := hle
      refine ⟨⟨⟨trivial, hnot i (by rw [hp]; rfl)⟩, trivial, ?_⟩, trivial⟩
      show s.sys.mem.pool.workSem.posixSem < semValueMax
      simp only [StopPc.posted] at htokens
      omega
  | wait i _ hact => subst hact; exact ⟨⟨trivial, trivial, trivial⟩, trivial⟩
  | take i _ hact => subst hact; exact ⟨⟨trivial, trivial, trivial⟩, trivial⟩
  | fail i err _ hact => subst hact; exact ⟨⟨trivial, trivial, trivial⟩, trivial⟩
  | back i _ hact => subst hact; exact ⟨⟨trivial, trivial, trivial⟩, trivial⟩
  | stop hp hact =>
      cases a with
      | stopBegin => exact ⟨⟨trivial, trivial, trivial⟩, trivial⟩
      | stopPost =>
          have htokens := h.tokens
          have hsub := MainPc.submitted_le hrange
          refine ⟨⟨trivial, trivial, ?_⟩, trivial⟩
          show s.sys.mem.pool.workSem.posixSem < semValueMax
          cases hstop : s.sys.stop with
          | posting k =>
              simp only [enabled, hstop, h.stop.workers] at ha
              rw [hstop, StopPc.posted] at htokens
              omega
          | _ => simp [enabled, hstop] at ha
      | stopJoin w => exact ⟨⟨trivial, trivial, trivial⟩, trivial⟩
      | _ => cases hact

/-- A step of the pool keeps what is written into the jobs, but for the one it initialises. -/
lemma MainInv.written_next {a : Act n} {p : MainPc} (h : MainInv cfg s₀ l s)
    (hm : MainStep cfg s a p) :
    ∀ i < p.initialised cfg, ((next s.sys a).mem.jobs (.object i)).jobFunc = some 0 ∧
      ((next s.sys a).mem.jobs (.object i)).jobCtx = some i := by
  have hkeep : (∀ i c args, a ≠ .init c (.object i) args) →
      p.initialised cfg = s.pc.initialised cfg →
      ∀ i < p.initialised cfg, ((next s.sys a).mem.jobs (.object i)).jobFunc = some 0 ∧
        ((next s.sys a).mem.jobs (.object i)).jobCtx = some i := by
    intro hno hsame i hi
    obtain ⟨hfunc, hctx⟩ := next_call_object s.sys (k := i) (hno i)
    rw [hfunc, hctx]
    exact h.written i (hsame ▸ hi)
  have hrange := h.range
  cases hm with
  | worker hw _ =>
      refine hkeep ?_ rfl
      rintro i c args rfl
      exact hw rfl
  | init i hp hact =>
      subst hact
      intro k hk
      by_cases hki : k = i
      · subst hki
        simp [next, osaWorkerJobInit, getNextJobId, jobArgs, Memory.modifyJob]
      · obtain ⟨hfunc, hctx⟩ := next_call_object s.sys (a := .init 0 (.object i) (jobArgs i))
          (k := k) (by rintro c args he; cases he; exact hki rfl)
        rw [hfunc, hctx]
        refine h.written k ?_
        rw [hp]
        have hk : k < i + 1 := hk
        show k < i
        omega
  | submit i hp hact =>
      rw [hp] at hrange
      refine hkeep (by rw [hact]; simp) ?_
      rw [hp, (submitLoop_submitted (Nat.succ_le_of_lt hrange)).2]
      rfl
  | wait i hp hact | take i hp hact | fail i err hp hact =>
      exact hkeep (by rw [hact]; simp) (by rw [hp]; rfl)
  | back i hp hact =>
      refine hkeep (by rw [hact]; simp) ?_
      rw [hp, waitLoop_submitted.2]
      rfl
  | stop hp hact =>
      refine hkeep ?_ (by rw [hp])
      rintro i c args rfl
      cases hact

/-- `main` submits its jobs in order, each once. -/
lemma MainInv.accepted_next {a : Act n} {p : MainPc} (h : MainInv cfg s₀ l s)
    (ha : enabled s.sys a) (hroom : WorkRoom s.sys a) (hm : MainStep cfg s a p) :
    (accepts (next s.sys a).log).Sublist ((List.range (p.submitted cfg)).map JobRef.object) := by
  have hrange := h.range
  have hold := h.accepted
  have hkeep : (∀ j, ¬ a.submits j) → p.submitted cfg = s.pc.submitted cfg →
      (accepts (next s.sys a).log).Sublist ((List.range (p.submitted cfg)).map JobRef.object) := by
    intro hno hsame
    rcases (workMove ha hroom).accepts_cases with ⟨j, hj, -⟩ | ⟨hacc, -⟩
    · exact absurd hj (hno j)
    · rw [hacc, hsame]
      exact hold
  cases hm with
  | worker hw _ =>
      refine hkeep ?_ rfl
      rintro j (⟨c, rfl⟩ | ⟨c, t, sig, rfl⟩) <;> exact hw rfl
  | submit i hp hact =>
      subst hact
      rw [hp] at hrange hold
      rw [(submitLoop_submitted (Nat.succ_le_of_lt hrange)).1, List.range_succ, List.map_append]
      rcases (workMove ha hroom).accepts_cases with ⟨j, hj, hacc, -⟩ | ⟨hacc, -⟩
      · have hj : j = .object i := by
          rcases hj with ⟨c, hj⟩ | ⟨c, t, sig, hj⟩ <;> cases hj
          rfl
        rw [hacc, hj]
        exact hold.append (List.Sublist.refl _)
      · rw [hacc]
        exact hold.trans (List.sublist_append_left _ _)
  | init i hp hact | wait i hp hact | take i hp hact | fail i err hp hact =>
      refine hkeep ?_ (by rw [hp]; rfl)
      rw [hact]
      rintro j (⟨c, hj⟩ | ⟨c, t, sig, hj⟩) <;> cases hj
  | back i hp hact =>
      refine hkeep ?_ (by rw [hp, waitLoop_submitted.1]; rfl)
      rw [hact]
      rintro j (⟨c, hj⟩ | ⟨c, t, sig, hj⟩) <;> cases hj
  | stop hp hact =>
      refine hkeep ?_ (by rw [hp])
      rintro j (⟨c, rfl⟩ | ⟨c, t, sig, rfl⟩) <;> cases hact

/-- What `osa_worker_pool_wait` does for `main`. -/
lemma MainInv.place_next {a : Act n} {p : MainPc} (h : MainInv cfg s₀ l s)
    (hm : MainStep cfg s a p) : p.Waits ((next s.sys a).waiter 0) := by
  have hplace := h.place
  have hkeep : (next s.sys a).waiter = s.sys.waiter → (p.Waits (s.sys.waiter 0)) →
      p.Waits ((next s.sys a).waiter 0) := fun he hp => he ▸ hp
  cases hm with
  | worker hw _ => exact hkeep (waiter_of_worker hw) hplace
  | init i hp hact =>
      subst hact
      rw [hp] at hplace
      exact hkeep rfl hplace
  | submit i hp hact =>
      subst hact
      rw [hp] at hplace
      exact hkeep rfl (submitLoop_waits.mpr hplace)
  | wait i hp hact =>
      subst hact
      show (next s.sys _).waiter 0 = _
      simp [next]
  | take i hp hact =>
      subst hact
      rw [hp] at hplace
      have hplace : s.sys.waiter 0 = .blocked (.object i) (-1) := hplace
      refine ⟨0, ?_⟩
      simp [next, hplace]
  | fail i err hp hact =>
      subst hact
      rw [hp] at hplace
      have hplace : s.sys.waiter 0 = .blocked (.object i) (-1) := hplace
      refine ⟨err, ?_⟩
      simp [next, hplace]
  | back i hp hact =>
      subst hact
      rw [hp] at hplace
      obtain ⟨ret, hplace⟩ := hplace
      refine waitLoop_waits.mpr ?_
      simp [next, hplace]
  | stop hp hact =>
      rw [hp] at hplace
      refine hkeep ?_ hplace
      cases a with
      | stopBegin | stopJoin w => rfl
      | stopPost => simp only [next]; split <;> rfl
      | _ => cases hact

/-- A worker runs `test_job_func` with the argument of its job. -/
lemma MainInv.execution (h : MainInv cfg s₀ l s) (hs : Initial s₀) {w : Fin n} {j : JobRef}
    {ret : Int} (hw : s.sys.pc w = .running j) (hret : ReturnsTest cfg s.sys (.execute w ret)) :
    RightResult cfg j (executionOf s.sys j ret) ∧ (s.sys.mem.jobs j).jobFunc = some 0 := by
  obtain ⟨i, hi, rfl⟩ := h.busy hs (j := j) (.inr ⟨w, by rw [hw]; rfl⟩)
  have hlt : i < s.pc.initialised cfg := by
    cases hp : s.pc <;> rw [hp] at hi <;> simp only [MainPc.submitted] at hi <;>
      simp only [MainPc.initialised] <;> omega
  obtain ⟨hfunc, hctx⟩ := h.written i hlt
  have hval : ret = cfg.testJobFunc i := hret _ (by rw [hw]; rfl) i hctx
  refine ⟨⟨i, lt_of_lt_of_le hi (MainPc.submitted_le h.range), rfl, ?_⟩, hfunc⟩
  rw [executionOf_result, if_neg (by rw [hfunc]; simp), hval]

/-- Only a worker executes. -/
lemma MainStep.returns {a : Act n} {p : MainPc} (hm : MainStep cfg s a p) :
    ReturnsTest cfg s.sys a := by
  cases hm with
  | worker _ hret => exact hret
  | init i _ hact | submit i _ hact | wait i _ hact | take i _ hact | fail i err _ hact
  | back i _ hact => subst hact; trivial
  | stop _ hact => cases a <;> trivial

lemma MainInv.executed_next {a : Act n} {p : MainPc} (h : MainInv cfg s₀ l s) (hs : Initial s₀)
    (ha : enabled s.sys a) (hm : MainStep cfg s a p) (w : Fin n) (j : JobRef) (e : Execution)
    (hw : (next s.sys a).pc w = .executed j e) : RightResult cfg j e := by
  have hmove := pcMove ha w
  rw [hw] at hmove
  generalize hp : WorkerPc.executed j e = q at hmove
  cases hmove with
  | same _ => exact h.executed w j e hp.symm
  | run k ret hact hk =>
      obtain ⟨rfl, rfl⟩ : j = k ∧ e = executionOf s.sys k ret := by simpa using hp
      exact (h.execution hs hk (hact ▸ hm.returns)).1
  | _ => cases hp

lemma MainInv.right_next {a : Act n} (h : MainInv cfg s₀ l s) :
    ∀ x ∈ along settled ((s.sys, a) :: l), RightResult cfg x.2.1 x.2.2 := by
  cases hx : settled s.sys a with
  | none =>
      rw [along_cons_none hx]
      exact h.right
  | some x =>
      rw [along_cons_some hx]
      obtain ⟨w, j, e⟩ := x
      obtain ⟨-, hw⟩ := settled_eq_some hx
      exact List.forall_mem_cons.mpr ⟨h.executed w j e hw, h.right⟩

/-- `job_count` counts the executions. -/
lemma MainInv.count_next {a : Act n} {p : MainPc} (h : MainInv cfg s₀ l s) (hs : Initial s₀)
    (ha : enabled s.sys a) (hm : MainStep cfg s a p) :
    s.jobCount + counted s.sys a = (along ran ((s.sys, a) :: l)).length := by
  have hran : counted s.sys a = (ran s.sys a).toList.length := by
    cases a with
    | execute w ret =>
        cases hw : s.sys.pc w with
        | running j =>
            have hfunc := (h.execution hs hw hm.returns).2
            simp [counted, ran, hw, WorkerPc.toRun, hfunc]
        | _ => simp [enabled, hw] at ha
    | _ => rfl
  rw [along_length_cons, ← h.count, hran]

/-- `main` counts its waits. -/
lemma MainInv.waits_next {a : Act n} {p : MainPc} (h : MainInv cfg s₀ l s)
    (hm : MainStep cfg s a p) :
    (along took ((s.sys, a) :: l)).length + (along interrupted ((s.sys, a) :: l)).length
      = p.waited cfg := by
  have hwaits := h.waits
  have hrange := h.range
  rw [along_length_cons, along_length_cons]
  -- a step that is no end of a wait
  have hkeep : took s.sys a = none → interrupted s.sys a = none →
      p.waited cfg = s.pc.waited cfg →
      (along took l).length + (took s.sys a).toList.length
        + ((along interrupted l).length + (interrupted s.sys a).toList.length)
        = p.waited cfg := by
    intro htook hfail hsame
    rw [htook, hfail, hsame, ← hwaits]
    rfl
  cases hm with
  | worker hw _ =>
      refine hkeep ?_ ?_ rfl <;> cases a <;> first | rfl | exact absurd rfl hw
  | init i hp hact => exact hkeep (by rw [hact]; rfl) (by rw [hact]; rfl) (by rw [hp]; rfl)
  | submit i hp hact =>
      exact hkeep (by rw [hact]; rfl) (by rw [hact]; rfl) (by rw [hp, submitLoop_waited]; rfl)
  | wait i hp hact => exact hkeep (by rw [hact]; rfl) (by rw [hact]; rfl) (by rw [hp]; rfl)
  | take i hp hact =>
      rw [hp] at hwaits
      subst hact
      simp only [took, interrupted, MainPc.waited, Option.toList_some, Option.toList_none,
        List.length_singleton, List.length_nil] at hwaits ⊢
      omega
  | fail i err hp hact =>
      rw [hp] at hwaits
      subst hact
      simp only [took, interrupted, MainPc.waited, Option.toList_some, Option.toList_none,
        List.length_singleton, List.length_nil] at hwaits ⊢
      omega
  | back i hp hact =>
      rw [hp] at hrange
      refine hkeep (by rw [hact]; rfl) (by rw [hact]; rfl) ?_
      rw [hp, waitLoop_waited (Nat.succ_le_of_lt hrange)]
      rfl
  | stop hp hact =>
      refine hkeep ?_ ?_ (by rw [hp]) <;> cases a <;> first | rfl | cases hact

/-- The tokens of `work_sem` come from the submits and from `osa_worker_pool_stop`. -/
lemma MainInv.tokens_next {a : Act n} (h : MainInv cfg s₀ l s) (ha : enabled s.sys a)
    (hroom : WorkRoom s.sys a) :
    (next s.sys a).mem.pool.workSem.posixSem
      ≤ (accepts (next s.sys a).log).length + (next s.sys a).stop.posted n := by
  have htokens := h.tokens
  have hposted : s.sys.stop.posted n + (if a = .stopPost then 1 else 0)
      ≤ (next s.sys a).stop.posted n := by
    have hmove := stopMove ha
    have hle := h.stop.posted
    generalize (next s.sys a).stop = q at hmove
    cases hmove with
    | quiet hne _ => rw [if_neg hne, Nat.add_zero]
    | begin hact => subst hact; rw [ha.1]; simp [StopPc.posted]
    | post k hact hk hk' => subst hact; simp [hk, StopPc.posted]
    | join w hact _ hj =>
        subst hact
        simp only [StopPc.posted, reduceCtorEq, if_false, Nat.add_zero] at hle ⊢
        exact hle
  rcases (workMove ha hroom).accepts_cases with ⟨j, -, hacc, hsem⟩ | ⟨hacc, hsem⟩
  · rw [hacc, List.length_append, List.length_singleton, hsem]
    omega
  · rw [hacc]
    omega

/-- No step of the program is a cancel. -/
lemma MainStep.ne_cancel {a : Act n} {p : MainPc} (hm : MainStep cfg s a p) (id : UInt32)
    (fuel : ℕ) : a ≠ .cancel id fuel := by
  rintro rfl
  cases hm with
  | worker hw _ => exact hw rfl
  | init i _ hact | submit i _ hact | wait i _ hact | take i _ hact | fail i err _ hact
  | back i _ hact | stop _ hact => cases hact

/-- Jobs that fit into the queue are all accepted. -/
lemma MainInv.complete_next {a : Act n} {p : MainPc} (h : MainInv cfg s₀ l s) (hs : Initial s₀)
    (ha : enabled s.sys a) (hroom : WorkRoom s.sys a) (hm : MainStep cfg s a p)
    (hfit : cfg.jobs ≤ cfg.queueSize.toNat) :
    (accepts (next s.sys a).log).length = p.submitted cfg := by
  have hold := h.complete hfit
  have hrange := h.range
  have hle := (h.accepted_next ha hroom hm).length_le
  rw [List.length_map, List.length_range] at hle
  have hgrow : (accepts s.sys.log).length ≤ (accepts (next s.sys a).log).length := by
    rcases (workMove ha hroom).accepts_cases with ⟨j, -, hacc, -⟩ | ⟨hacc, -⟩ <;> rw [hacc]
    rw [List.length_append]
    exact Nat.le_add_right _ _
  refine le_antisymm hle ?_
  cases hm with
  | worker _ _ => omega
  | init i hp _ | wait i hp _ | take i hp _ | fail i err hp _ =>
      rw [hp] at hold
      exact hold ▸ hgrow
  | back i hp _ =>
      rw [hp] at hold
      have hold : (accepts s.sys.log).length = cfg.jobs := hold
      rw [waitLoop_submitted.1]
      omega
  | stop hp _ =>
      rw [hp] at hold
      exact hold ▸ hgrow
  | submit i hp hact =>
      rw [hp] at hold hrange
      have hold : (accepts s.sys.log).length = i := hold
      have hi : i < cfg.jobs := hrange
      rw [(submitLoop_submitted (Nat.succ_le_of_lt hi)).1]
      -- what waits was accepted, so the queue has room
      obtain ⟨b, hb⟩ := queueInv_of_orderly hs h.run
      have hwait : (waiting s.sys.log).length ≤ i := by
        have hcount := (h.counts hs).1
        rw [heldWeight, weigh_one] at hcount
        omega
      have hdepth := hb.depth
      rcases osaWorkerPoolSubmit_cases s.sys.mem (.object i) with ⟨hge, -⟩ | ⟨-, hret, -⟩
      · exfalso
        rw [UInt32.le_iff_toNat_le, h.size, hdepth] at hge
        omega
      · have hlog : (next s.sys a).log = .accepted (.object i) :: s.sys.log := by
          rw [hact]
          simp [next, afterSubmit, submitEvent, hret]
        rw [hlog, accepts, List.length_append, List.length_singleton, hold]

lemma MainStep.beforeStop {a : Act n} {p : MainPc} (hm : MainStep cfg s a p)
    (hp : p.beforeStop) : s.pc.beforeStop ∧ a ≠ .stopBegin := by
  cases hm with
  | worker hw _ => exact ⟨hp, by rintro rfl; exact hw rfl⟩
  | init i he hact | submit i he hact | wait i he hact | take i he hact | fail i err he hact
  | back i he hact => exact ⟨by rw [he]; trivial, by rw [hact]; simp⟩
  | stop _ _ => exact hp.elim

lemma MainStep.inRange {a : Act n} {p : MainPc} (hm : MainStep cfg s a p)
    (hs : s.pc.InRange cfg) : p.InRange cfg := by
  cases hm with
  | worker _ _ => exact hs
  | init i he _ | wait i he _ | take i he _ | fail i err he _ => rw [he] at hs; exact hs
  | submit i _ _ => exact submitLoop_inRange
  | back i _ _ => exact waitLoop_inRange
  | stop _ _ => trivial

/-- A step of the pool. -/
lemma MainInv.pool_step {a : Act n} {p : MainPc} (h : MainInv cfg s₀ l s) (hs : Initial s₀)
    (hsem : cfg.jobs + n ≤ semValueMax) (ha : enabled s.sys a) (hm : MainStep cfg s a p) :
    MainInv cfg s₀ ((s.sys, a) :: l)
      ⟨next s.sys a, p, s.jobCount + counted s.sys a, s.stats⟩ := by
  obtain ⟨horder, hcroom⟩ := h.orderly hs hsem ha hm
  obtain ⟨hd, hc, hroom⟩ := horder
  exact
    { run := h.run.step ⟨ha, hd, hc, hroom⟩
      room := List.forall_mem_cons.mpr ⟨hcroom, h.room⟩
      stop := h.stop.step ha hroom
      joins := h.joins.step ha
      serving := fun hp => by
        obtain ⟨hbefore, hbegin⟩ := hm.beforeStop hp
        exact (h.serving hbefore).step ha ⟨hd, hc, hroom, hbegin⟩
      size := (next_queueSize ha).trans h.size
      range := hm.inRange h.range
      place := h.place_next hm
      written := h.written_next hm
      accepted := h.accepted_next ha hroom hm
      complete := h.complete_next hs ha hroom hm
      kept := ⟨((workMove ha hroom).discards_eq hm.ne_cancel).trans h.kept.1,
        (next_totalCancelled hm.ne_cancel).trans h.kept.2⟩
      tokens := h.tokens_next ha hroom
      executed := h.executed_next hs ha hm
      right := h.right_next
      count := h.count_next hs ha hm
      waits := h.waits_next hm
      returned := fun ret hp => by
        -- where `main` has returned no worker is left to move
        exfalso
        cases hm with
        | worker hw _ =>
            have hexit := h.stop.exited_of_returned (h.returned ret hp).1
            exact not_byWorker_of_exited hexit ha hw
        | submit i _ _ =>
            have hbefore : (submitLoop cfg (i + 1)).beforeStop := submitLoop_beforeStop
            rw [show submitLoop cfg (i + 1) = .done ret from hp] at hbefore
            exact hbefore
        | back i _ _ =>
            have hbefore : (waitLoop cfg (i + 1)).beforeStop := waitLoop_beforeStop
            rw [show waitLoop cfg (i + 1) = .done ret from hp] at hbefore
            exact hbefore
        | _ => cases hp }

/-- After `osa_worker_pool_start`. -/
lemma MainInv.initial (h : MainInitial cfg s) : MainInv cfg s.sys [] s := by
  obtain ⟨hinit, hn, hsize, hpc, hcount, -⟩ := h
  obtain ⟨⟨k, q, hpool⟩, -, hworkers, hwaiter, -, hstop, -⟩ := id hinit
  have hloop : (submitLoop cfg 0).submitted cfg = 0 ∧ (submitLoop cfg 0).initialised cfg = 0 :=
    submitLoop_submitted (Nat.zero_le _)
  obtain ⟨hsubmitted, hwritten⟩ := hloop
  exact
    { run := RunFrom.refl
      room := by simp
      stop := .initial hinit hn
      joins := fun k hk => by rw [hstop] at hk; cases hk
      serving := fun _ => .initial hinit
      size := hsize
      range := hpc ▸ submitLoop_inRange
      place := by rw [hpc, hwaiter]; exact submitLoop_waits.mpr rfl
      written := by rw [hpc, hwritten]; intro i hi; omega
      accepted := by rw [hinit.log_eq]; exact List.nil_sublist _
      complete := fun _ => by rw [hinit.log_eq, hpc, hsubmitted]; rfl
      kept := ⟨by rw [hinit.log_eq]; rfl, by rw [hpool]; rfl⟩
      tokens := by rw [hpool]; exact Nat.zero_le _
      executed := fun w j e hw => by rw [hworkers] at hw; cases hw
      right := by simp [along]
      count := hcount
      waits := by rw [hpc, submitLoop_waited]; rfl
      returned := fun ret hret => by
        have hbefore : (submitLoop cfg 0).beforeStop := submitLoop_beforeStop
        rw [← hpc, hret] at hbefore
        exact hbefore.elim }

/-- The run of the pool that a step of the program adds. -/
def MainAct.adds (s : MainState n) : MainAct n → List (Sys n × Act n)
  | .worker a | .call a => [(s.sys, a)]
  | _ => []

lemma counted_of_no_worker {t : Sys n} {a : Act n} (ha : a.worker = none) : counted t a = 0 := by
  cases a <;> first | rfl | cases ha

lemma MainInv.step {a : MainAct n} (h : MainInv cfg s₀ l s) (hs : Initial s₀)
    (hsem : cfg.jobs + n ≤ semValueMax) (ha : mainEnabled cfg s a) :
    MainInv cfg s₀ (a.adds s ++ l) (mainNext cfg s a) := by
  cases a with
  | worker a =>
      obtain ⟨hw, ha, hret⟩ := ha
      exact h.pool_step hs hsem ha (.worker hw hret)
  | call a =>
      obtain ⟨hcall, ha⟩ := ha
      have hstep := h.pool_step hs hsem ha hcall.step
      rw [counted_of_no_worker hcall.no_worker, Nat.add_zero] at hstep
      exact hstep
  | getStats =>
      obtain ⟨hp, -⟩ := ha
      obtain ⟨hrun, hroom, hstop, hjoins, -, hsize, -, hplace, hwritten, haccepted, hcomplete,
        hkept, htokens, hexecuted, hright, hcount, hwaits, -⟩ := h
      rw [hp] at hplace hwritten haccepted hcomplete hwaits
      exact ⟨hrun, hroom, hstop, hjoins, fun h => h.elim, hsize, trivial, hplace, hwritten,
        haccepted, hcomplete, hkept, htokens, hexecuted, hright, hcount, hwaits,
        fun _ h => nomatch h⟩
  | finish =>
      obtain ⟨hp, hret⟩ := ha
      obtain ⟨hrun, hroom, hstop, hjoins, -, hsize, -, hplace, hwritten, haccepted, hcomplete,
        hkept, htokens, hexecuted, hright, hcount, hwaits, -⟩ := h
      rw [hp] at hplace hwritten haccepted hcomplete hwaits
      exact ⟨hrun, hroom, hstop, hjoins, fun h => h.elim, hsize, trivial, hplace, hwritten,
        haccepted, hcomplete, hkept, htokens, hexecuted, hright, hcount, hwaits,
        fun ret h => ⟨hret, (MainPc.done.inj h).symm⟩⟩

end Step

end OpenHsm
