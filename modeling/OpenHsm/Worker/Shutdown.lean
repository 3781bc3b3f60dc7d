import OpenHsm.Worker.Statistics

/-!
`osa_worker_pool_stop` against the workers: it sets the shutdown flag under the lock, posts
once for every worker on `work_sem`, and joins the workers in order.

* `Unreleased`: a worker that has neither exited nor taken the token with which it will
  exit.  A worker that holds a token when the flag is set exits with it.
* `StopInv`: once the flag is set, the posts made and the unreleased workers are together
  at most the tokens on `work_sem` and the workers.  Tokens of queued, cancelled or
  refused jobs only help.
* `shutdown_quiescent`: what holds along any run with one `osa_worker_pool_stop`, whatever
  the callers do, as long as no post finds `work_sem` at `SEM_VALUE_MAX`.
-/

namespace OpenHsm

open Occupancy Runs

variable {n : ℕ}

/-! ### Tokens and workers -/

/-- The worker still needs a token of `work_sem` to exit. -/
def WorkerPc.Unreleased (p : WorkerPc) : Prop := p ≠ .woken ∧ p ≠ .exited

instance : DecidablePred WorkerPc.Unreleased := fun _ => inferInstanceAs (Decidable (_ ∧ _))

/-- The posts `osa_worker_pool_stop` has made. -/
def StopPc.posted (n : ℕ) : StopPc → ℕ
  | .notCalled => 0
  | .posting k => k
  | .joining _ => n

/-- `osa_worker_pool_stop` has set the flag. -/
def StopPc.called : StopPc → Prop
  | .notCalled => False
  | _ => True

/-- The next worker `osa_worker_pool_stop` joins: it has made its posts and has joined the
workers before. -/
def JoinsNext (s : Sys n) (w : Fin n) : Prop :=
  (s.stop = .posting n ∧ w.val = 0) ∨ s.stop = .joining w.val

/-- No post on `work_sem` finds it at `SEM_VALUE_MAX`. -/
def WorkRoom (s : Sys n) : Act n → Prop
  | .submit _ _ | .submitToHsm _ _ _ _ | .stopPost => s.mem.pool.workSem.posixSem < semValueMax
  | _ => True

instance (s : Sys n) (a : Act n) : Decidable (WorkRoom s a) := by
  induction a using Act.casesOn <;> (dsimp only [WorkRoom]; infer_instance)

lemma occupancy_unreleased_le (s : Sys n) : occupancy WorkerPc.Unreleased s.pc ≤ n := by
  have := Finset.card_le_univ (Finset.univ.filter fun w => (s.pc w).Unreleased)
  rwa [Fintype.card_fin] at this

/-- A worker that takes no token stays unreleased, or stays released. -/
lemma unreleased_keep {s : Sys n} {a : Act n} {w : Fin n} (ha : enabled s a)
    (hflag : s.mem.pool.shutdown = true) (htake : a ≠ .take w) :
    ((next s a).pc w).Unreleased ↔ (s.pc w).Unreleased := by
  have hmove := pcMove ha w
  generalize (next s a).pc w = p at hmove
  cases hmove with
  | same _ => rfl
  | take h => exact absurd h htake
  | exit _ hw => rw [hw]; simp [WorkerPc.Unreleased]
  | idle _ _ hs => rw [hflag] at hs; cases hs
  | pick j _ _ hs => rw [hflag] at hs; cases hs
  | run j ret _ hw | settle j e _ hw | tell j e _ hw => rw [hw]; simp [WorkerPc.Unreleased]

/-- **Tokens cover the unreleased workers**: past the flag, no step releases a token
without a worker, and a post of `osa_worker_pool_stop` adds one. -/
lemma tokens_step {s : Sys n} {a : Act n} (ha : enabled s a) (hroom : WorkRoom s a)
    (hflag : s.mem.pool.shutdown = true) :
    occupancy WorkerPc.Unreleased (next s a).pc + s.mem.pool.workSem.posixSem
        + (if a = .stopPost then 1 else 0)
      ≤ occupancy WorkerPc.Unreleased s.pc + (next s a).mem.pool.workSem.posixSem := by
  by_cases htake : ∃ w, a = .take w
  · obtain ⟨w, rfl⟩ := htake
    have hocc : occupancy WorkerPc.Unreleased (next s (.take w)).pc + 1
        = occupancy WorkerPc.Unreleased s.pc :=
      occupancy_leave (by rw [ha.1]; simp [WorkerPc.Unreleased]) (by simp [WorkerPc.Unreleased])
    have hpos : 0 < s.mem.pool.workSem.posixSem := ha.2
    rw [next_workSem ha]
    simp only [frameAfter, Pool.frame, osaSemTake_posixSem, reduceCtorEq, if_false]
    omega
  · rw [not_exists] at htake
    have hocc : occupancy WorkerPc.Unreleased (next s a).pc
        ≤ occupancy WorkerPc.Unreleased s.pc :=
      occupancy_mono fun w => (unreleased_keep ha hflag (htake w)).mp
    have hsem : s.mem.pool.workSem.posixSem + (if a = .stopPost then 1 else 0)
        ≤ (next s a).mem.pool.workSem.posixSem := by
      rw [next_workSem ha]
      cases a with
      | take w => exact absurd rfl (htake w)
      | submit c j | submitToHsm c j t sig =>
          simp only [frameAfter, reduceCtorEq, if_false]
          split
          · rw [osaSemPost_posixSem (by exact hroom)]; simp [Pool.frame]
          · simp [Pool.frame]
      | stopPost =>
          simp only [frameAfter, if_true]
          rw [osaSemPost_posixSem (by exact hroom)]
          simp [Pool.frame]
      | _ => simp [frameAfter, Pool.frame]
    omega

/-! ### The invariant -/

/-- What one step does to `osa_worker_pool_stop`. -/
inductive StopMove (s : Sys n) (a : Act n) : StopPc → Prop
  | quiet : a ≠ .stopPost → a ≠ .stopBegin → StopMove s a s.stop
  | begin : a = .stopBegin → StopMove s a (.posting 0)
  | post (k : ℕ) : a = .stopPost → s.stop = .posting k → k < s.mem.pool.numWorkers.toNat →
      StopMove s a (.posting (k + 1))
  | join (w : Fin n) : a = .stopJoin w → s.pc w = .exited →
      (s.stop = .posting s.mem.pool.numWorkers.toNat ∧ w.val = 0 ∨ s.stop = .joining w.val) →
      StopMove s a (.joining (w.val + 1))

lemma notifyStep_stop (s : Sys n) (w : Fin n) (j : JobRef) (e : Execution) :
    (notifyStep s w j e).stop = s.stop := by
  simp only [notifyStep]
  cases (s.mem.jobs j).targetHsm <;> rfl

lemma stopMove {s : Sys n} {a : Act n} (ha : enabled s a) : StopMove s a (next s a).stop := by
  have hquiet : a ≠ .stopPost → a ≠ .stopBegin → (next s a).stop = s.stop →
      StopMove s a (next s a).stop := fun h1 h2 h => h ▸ .quiet h1 h2
  cases a with
  | stopBegin => exact .begin rfl
  | stopPost =>
      cases hs : s.stop with
      | posting k =>
          simp only [enabled, hs] at ha
          simp only [next, hs]
          exact .post k rfl hs ha
      | _ => simp [enabled, hs] at ha
  | stopJoin w =>
      obtain ⟨hw, hj⟩ := ha
      refine .join w rfl hw ?_
      cases hs : s.stop with
      | posting k =>
          simp only [hs] at hj
          exact .inl ⟨by rw [hj.1], hj.2⟩
      | joining k =>
          simp only [hs] at hj
          exact .inr (by rw [hj])
      | notCalled => simp [hs] at hj
  | notify w =>
      refine hquiet (by simp) (by simp) ?_
      simp only [next]
      split
      · exact notifyStep_stop ..
      · rfl
  | dequeue w =>
      refine hquiet (by simp) (by simp) ?_
      simp only [next]
      split
      · rfl
      · split <;> rfl
  | handledFree k =>
      refine hquiet (by simp) (by simp) ?_
      simp only [next]
      split <;> rfl
  | execute w ret | finish w | alloc c | cancel id fuel | waitCall x j t | waitTake x
  | waitFail x err | waitReturn x =>
      refine hquiet (by simp) (by simp) ?_
      simp only [next]
      split <;> rfl
  | init c j args | free c j | submit c j | submitToHsm c j t sig | take w | hsmStart k
  | post k sig | receive k | handled k => exact hquiet (by simp) (by simp) rfl

/-- Where `osa_worker_pool_stop` and the workers are, in every state of a run. -/
structure StopInv (s : Sys n) : Prop where
  workers : s.mem.pool.numWorkers.toNat = n
  flag : s.stop.called → s.mem.pool.shutdown = true
  posted : s.stop.posted n ≤ n
  tokens : s.stop.called → s.stop.posted n + occupancy WorkerPc.Unreleased s.pc
    ≤ s.mem.pool.workSem.posixSem + n
  joined : ∀ k, s.stop = .joining k → ∀ w : Fin n, w.val < k → s.pc w = .exited

lemma StopInv.initial {s : Sys n} (h : Initial s) (hn : s.mem.pool.numWorkers.toNat = n) :
    StopInv s := by
  obtain ⟨-, -, -, -, -, hstop, -⟩ := h
  have hcalled : ¬ s.stop.called := fun h => by rwa [hstop] at h
  refine ⟨hn, fun h => absurd h hcalled, ?_, fun h => absurd h hcalled, fun k hk => ?_⟩
  · rw [hstop]; exact Nat.zero_le n
  · rw [hstop] at hk; cases hk

/-- A worker that has exited stays where it is. -/
lemma exited_keep {s : Sys n} {a : Act n} {w : Fin n} (ha : enabled s a)
    (hw : s.pc w = .exited) : (next s a).pc w = .exited := by
  have hmove := pcMove ha w
  generalize (next s a).pc w = p at hmove
  cases hmove with
  | same _ => exact hw
  | exit _ _ => rfl
  | take _ h | idle _ h | pick j _ h | run j ret _ h | settle j e _ h | tell j e _ h =>
      rw [hw] at h; cases h

/-- Every step keeps the invariant. -/
lemma StopInv.step {s : Sys n} {a : Act n} (h : StopInv s) (ha : enabled s a)
    (hroom : WorkRoom s a) : StopInv (next s a) := by
  obtain ⟨hn, hflag, hposted, htokens, hjoined⟩ := h
  have hflag' : (next s a).stop.called → (next s a).mem.pool.shutdown = true := by
    intro hc
    rw [next_shutdown ha]
    have hmove := stopMove ha
    generalize (next s a).stop = q at hmove hc
    cases hmove with
    | quiet _ _ => exact .inl (hflag hc)
    | begin hact => exact .inr hact
    | post k _ hs => exact .inl (hflag (by rw [hs]; trivial))
    | join w _ _ hs =>
        refine .inl (hflag ?_)
        rcases hs with ⟨hs, -⟩ | hs <;> rw [hs] <;> trivial
  have hunreleased := occupancy_unreleased_le (next s a)
  have hmove := stopMove ha
  generalize hq : (next s a).stop = q at hmove
  refine ⟨(next_numWorkers ha).symm ▸ hn, hflag', ?_, ?_, ?_⟩
  · rw [hq]
    cases hmove with
    | quiet _ _ => exact hposted
    | begin _ => exact Nat.zero_le n
    | post k _ _ hk => rw [hn] at hk; exact hk
    | join w _ _ _ => exact le_rfl
  · intro hc
    rw [hq]
    cases hmove with
    | quiet hpost _ =>
        rw [hq] at hc
        have hstep := tokens_step ha hroom (hflag hc)
        rw [if_neg hpost] at hstep
        have := htokens hc
        omega
    | begin _ =>
        simp only [StopPc.posted]
        omega
    | post k hact hs _ =>
        have hcalled : s.stop.called := by rw [hs]; trivial
        have hstep := tokens_step ha hroom (hflag hcalled)
        have hold := htokens hcalled
        rw [if_pos hact] at hstep
        rw [hs] at hold
        simp only [StopPc.posted] at hold ⊢
        omega
    | join w hact _ hs =>
        have hcalled : s.stop.called := by rcases hs with ⟨hs, -⟩ | hs <;> rw [hs] <;> trivial
        have hall : s.stop.posted n = n := by
          rcases hs with ⟨hs, -⟩ | hs <;> rw [hs]
          · exact hn
          · rfl
        have hstep := tokens_step ha hroom (hflag hcalled)
        have hold := htokens hcalled
        rw [if_neg (by rw [hact]; simp)] at hstep
        rw [hall] at hold
        simp only [StopPc.posted]
        omega
  · intro k hk v hv
    rw [hq] at hk
    subst hk
    generalize hk : StopPc.joining k = q at hmove
    cases hmove with
    | quiet _ _ => exact exited_keep ha (hjoined k hk.symm v hv)
    | begin _ => cases hk
    | post i _ _ _ => cases hk
    | join w _ hw hs =>
        obtain rfl : k = w.val + 1 := by simpa using hk
        refine exited_keep ha ?_
        rcases Nat.lt_succ_iff_lt_or_eq.mp hv with hlt | heq
        · rcases hs with ⟨-, h0⟩ | hs
          · omega
          · exact hjoined _ hs v hlt
        · rw [Fin.ext heq]
          exact hw

/-! ### What the stop can rely on -/

/-- Once the posts are made, every unreleased worker has a token. -/
lemma StopInv.covered {s : Sys n} (h : StopInv s) (hall : s.stop.posted n = n)
    (hc : s.stop.called) :
    occupancy WorkerPc.Unreleased s.pc ≤ s.mem.pool.workSem.posixSem := by
  have := h.tokens hc
  omega

lemma JoinsNext.posted {s : Sys n} {w : Fin n} (hw : JoinsNext s w) :
    s.stop.posted n = n ∧ s.stop.called := by
  rcases hw with ⟨hs, -⟩ | hs <;> rw [hs] <;> exact ⟨rfl, trivial⟩

/-- A worker that is waited for does not wait for a token that is not there. -/
lemma StopInv.awake {s : Sys n} (h : StopInv s) {w : Fin n} (hw : JoinsNext s w)
    (hpc : s.pc w = .waiting) : 0 < s.mem.pool.workSem.posixSem := by
  obtain ⟨hall, hc⟩ := hw.posted
  have hpos : 0 < occupancy WorkerPc.Unreleased s.pc :=
    occupancy_pos_iff.mpr ⟨w, by rw [hpc]; simp [WorkerPc.Unreleased]⟩
  exact hpos.trans_le (h.covered hall hc)

/-- While `osa_worker_pool_stop` waits for a worker, a worker can move, or the worker has
exited and is joined. -/
lemma StopInv.progress {s : Sys n} (h : StopInv s) {w : Fin n} (hw : JoinsNext s w) :
    ∃ a, enabled s a ∧ (a.worker ≠ none ∨ a = .stopJoin w) := by
  by_cases hfree : LockFree s
  · cases hpc : s.pc w with
    | waiting => exact ⟨.take w, ⟨hpc, h.awake hw hpc⟩, .inl (by simp [Act.worker])⟩
    | woken => exact ⟨.dequeue w, ⟨hpc, hfree⟩, .inl (by simp [Act.worker])⟩
    | running j => exact ⟨.execute w 0, by simp [enabled, hpc], .inl (by simp [Act.worker])⟩
    | executed j e => exact ⟨.finish w, by simpa [enabled, hpc], .inl (by simp [Act.worker])⟩
    | notifying j e => exact absurd (hfree w) (by simp [hpc, WorkerPc.holdsLock])
    | exited =>
        refine ⟨.stopJoin w, ⟨hpc, ?_⟩, .inr rfl⟩
        rcases hw with ⟨hs, h0⟩ | hs <;> simp only [hs]
        exact ⟨h.workers.symm, h0⟩
  · -- the worker that holds the lock is past the counters
    obtain ⟨v, hv⟩ := not_forall.mp hfree
    exact ⟨.notify v, by simpa [enabled] using hv, .inl (by simp [Act.worker])⟩

/-- What holds in every state `t` that a run `l` of a started pool reaches. -/
structure Quiescent (l : List (Sys n × Act n)) (t : Sys n) : Prop where
  /-- Past the flag no worker gets a job. -/
  closed : t.stop.called → ∀ a w j, enabled t a → (next t a).pc w = .running j →
    t.pc w = .running j
  /-- Past the posts there is a token for every unreleased worker. -/
  covered : t.stop.posted n = n → t.stop.called →
    occupancy WorkerPc.Unreleased t.pc ≤ t.mem.pool.workSem.posixSem
  /-- The worker that is to be joined next is not stuck, and some thread can move. -/
  awake : ∀ w, JoinsNext t w → ¬ (t.pc w = .waiting ∧ t.mem.pool.workSem.posixSem = 0)
  progress : ∀ w, JoinsNext t w → ∃ a, enabled t a ∧ (a.worker ≠ none ∨ a = .stopJoin w)
  /-- What a worker does with the jobs it takes, at any time. -/
  account : ∀ w, Sections w l t
  /-- When the joins are done, every dequeue has had its completion section. -/
  settled : t.stop = .joining n → ∀ w,
    byWorker w (along picked l) = (byWorker w (along told l)).map Prod.fst ∧
    byWorker w (along OpenHsm.settled l) = byWorker w (along told l)
  atRest : t.stop = .joining n → t.mem.pool.stats.activeWorkers = 0

/-- **Shutdown is quiescent and does not hang**, in every run of a pool with all its workers
whose posts find room on `work_sem`: with any callers, jobs and cancels, from the flag on no
worker takes a job, from the posts on every worker that still has to exit has a token, and
when the joins are done every job taken has been settled and announced once by its worker. -/
theorem shutdown_quiescent {s t : Sys n} {l : List (Sys n × Act n)} (hs : Initial s)
    (hn : s.mem.pool.numWorkers.toNat = n)
    (hl : ((poolSystem n).restrict WorkRoom).RunFrom s l t) :
    Quiescent l t ∧ ∀ p ∈ l, SectionDone p.1 p.2 := by
  have hkeep : ∀ (u : Sys n) (a : Act n), StopInv u →
      ((poolSystem n).restrict WorkRoom).enabled u a → StopInv (next u a) :=
    fun _ _ h ha => h.step ha.1 ha.2
  have hinv : StopInv t := hl.invariant hkeep (StopInv.initial hs hn)
  have hrun : (poolSystem n).RunFrom s l t := (System.RunFrom.restrict_iff.mp hl).1
  have hsections : ∀ w, Sections w l t := sections hs hrun
  have hexited : t.stop = .joining n → ∀ w, t.pc w = .exited := fun hj w =>
    hinv.joined n hj w w.isLt
  refine ⟨⟨?_, fun h1 h2 => hinv.covered h1 h2, ?_, fun w => hinv.progress, hsections, ?_, ?_⟩,
    fun p _ => sectionDone p.1 p.2⟩
  · intro hc a w j ha hnext
    have hmove := pcMove ha w
    rw [hnext] at hmove
    generalize hp : WorkerPc.running j = p at hmove
    cases hmove with
    | same _ => rfl
    | pick k _ _ hflag => rw [hinv.flag hc] at hflag; cases hflag
    | _ => cases hp
  · rintro w hw ⟨hpc, hzero⟩
    exact absurd (hinv.awake hw hpc) (by omega)
  · intro hj w
    obtain ⟨hpicks, hruns, hends⟩ := hsections w
    rw [hexited hj w] at hpicks hruns hends
    simp only [WorkerPc.toRun, WorkerPc.toSettle, WorkerPc.toTell, Option.toList_none,
      List.nil_append] at hpicks hruns hends
    exact ⟨by rw [hpicks, hruns, hends], hends⟩
  · intro hj
    have hzero : occupancy WorkerPc.AtWork t.pc = 0 := by
      rw [occupancy_eq_zero_iff]
      intro w hw
      rw [hexited hj w] at hw
      exact hw rfl
    have hstats : StatsInv l t := statsInv hs hrun
    rw [hstats.active, hzero]
    rfl

/-- A pool with two workers is stopped while a job runs, another one is queued and the
token of a cancelled one is left. -/
def stopRun (w₀ w₁ : Fin n) : List (Act n) :=
  [.init 0 (.object 0) ⟨some 1, none, some 1, none⟩, .init 0 (.object 1) ⟨none, none, none, none⟩,
    .init 0 (.object 2) ⟨none, none, none, none⟩, .submit 0 (.object 0), .submit 0 (.object 1),
    .take w₀, .dequeue w₀, .submit 0 (.object 2), .cancel 2 1, .take w₁, .stopBegin, .stopPost,
    .dequeue w₁, .execute w₀ 0, .stopPost, .finish w₀, .notify w₀, .take w₀, .dequeue w₀,
    .stopJoin w₀, .stopJoin w₁]

/-- The pool of `stopRun` is at rest once it is joined. -/
theorem running_job_settled_before_join :
    ∃ t, ((poolSystem 2).restrict WorkRoom).RunFrom (startState 2 2 4 0)
        ((poolSystem 2).history (startState 2 2 4 0) (stopRun 0 1)) t ∧
      t.stop = .joining 2 ∧
      Quiescent ((poolSystem 2).history (startState 2 2 4 0) (stopRun 0 1)) t := by
  have hrun : ∃ t ∈ ((poolSystem 2).restrict WorkRoom).replay (startState 2 2 4 0) (stopRun 0 1),
      t.stop = .joining 2 := by decide
  obtain ⟨t, ht, hjoined⟩ := hrun
  have hl := System.runFrom_of_replay ht
  exact ⟨t, hl, hjoined, (shutdown_quiescent (startState_initial ..) (by decide) hl).1⟩

end OpenHsm
