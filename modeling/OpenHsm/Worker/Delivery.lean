import OpenHsm.Library.Occupancy
import OpenHsm.Worker.Moves

/-!
Accepted jobs are run exactly once, in order, and are never stranded.

* `Undisturbed`: no cancel succeeds, stop is not called, and no post on `work_sem`
  overflows.
* `executions`: which worker executed which submission.
* `OrderInv`: the accepted submissions are the dequeued ones followed by the queued ones,
  and a worker executes the submission it dequeued; kept by every `Move`.
* `TokenInv`: the conservation law: the tokens of `work_sem` and the workers that took one
  and have not dequeued yet are as many as the queued jobs.
* `accepted_jobs_delivered`: what both give in every reachable state.
-/

namespace OpenHsm

open DoublyLinked Occupancy Runs

variable {n : ℕ}

/-- The step cancels no job, does not stop the pool and does not overflow `work_sem`. -/
def Undisturbed (s : Sys n) : Act n → Prop
  | .cancel id fuel => ∀ r ∈ osaWorkerPoolCancel s.mem id fuel, r.1 ≠ 0
  | .stopBegin => False
  | .submit _ _ | .submitToHsm _ _ _ _ => s.mem.pool.workSem.posixSem < semValueMax
  | _ => True

instance (s : Sys n) (a : Act n) : Decidable (Undisturbed s a) := by
  induction a using Act.casesOn <;> (dsimp only [Undisturbed]; infer_instance)

/-- The submissions executed and the workers that did so, newest first. -/
def executions : List (Event n) → List (Option ℕ × Fin n)
  | [] => []
  | .called w j :: l | .skipped w j :: l => (serial j l, w) :: executions l
  | _ :: l => executions l

lemma executions_quiet {es : List (Event n)} (hes : ∀ e ∈ es, e.quiet) (l : List (Event n)) :
    executions (es ++ l) = executions l :=
  quiet_append (fun e _ he => by cases e <;> first | rfl | simp [Event.quiet] at he) hes l

/-! ### The order of the jobs -/

/-- The order in which submissions are dequeued, and who executes them. -/
structure OrderInv (s : Sys n) : Prop where
  order : accepts s.log = (dequeues s.log).map Prod.snd ++ waiting s.log
  serials : ∀ k j, (waiting s.log)[k]? = some j →
    serial j s.log = some ((dequeues s.log).length + k)
  running : ∀ w j, s.pc w = .running j → ∃ m, serial j s.log = some m ∧
    (dequeues s.log)[m]? = some (w, j) ∧ some m ∉ (executions s.log).map Prod.fst
  executed : ∀ x ∈ executions s.log, ∃ m j, x.1 = some m ∧ (dequeues s.log)[m]? = some (x.2, j)
  nodup : ((executions s.log).map Prod.fst).Nodup

lemma OrderInv.initial {s : Sys n} (h : Initial s) : OrderInv s := by
  obtain ⟨-, -, hpc, -⟩ := id h
  refine ⟨?_, ?_, ?_, ?_, ?_⟩ <;> rw [h.log_eq]
  · rfl
  · rintro k j hk
    simp [waiting] at hk
  · intro w j hw
    rw [hpc] at hw; cases hw
  · rintro x ⟨⟩
  · exact List.nodup_nil

/-- A submission goes behind all the others. -/
lemma OrderInv.accept {s t : Sys n} (hs : OrderInv s) {j : JobRef} (hj : ¬ Busy s j)
    (hlog : t.log = .accepted j :: s.log) (hpc : t.pc = s.pc) : OrderInv t := by
  have hser : ∀ k, k ≠ j → serial k t.log = serial k s.log := fun k hk => by
    rw [hlog, serial_accepted_of_ne hk]
  have hdeq : dequeues t.log = dequeues s.log := by rw [hlog]; rfl
  have hexec : executions t.log = executions s.log := by rw [hlog]; rfl
  have hwait : waiting t.log = waiting s.log ++ [j] := by rw [hlog]; rfl
  refine ⟨?_, ?_, ?_, ?_, ?_⟩ <;> (try rw [hdeq]) <;> (try rw [hexec]) <;> (try rw [hwait])
  · rw [hlog]
    show accepts s.log ++ [j] = (dequeues s.log).map Prod.snd ++ (waiting s.log ++ [j])
    rw [hs.order, List.append_assoc]
  · intro k j' hk
    rcases Nat.lt_or_ge k (waiting s.log).length with hlt | hge
    · rw [List.getElem?_append_left hlt] at hk
      have hj' : j' ≠ j := fun he => hj (Or.inl (he ▸ List.mem_of_getElem? hk))
      rw [hser j' hj']
      exact hs.serials k j' hk
    · rw [List.getElem?_append_right hge] at hk
      obtain ⟨hk0, rfl⟩ : k - (waiting s.log).length = 0 ∧ j' = j := by
        cases hd : k - (waiting s.log).length with
        | zero => rw [hd] at hk; exact ⟨rfl, (Option.some.inj hk).symm⟩
        | succ d => rw [hd] at hk; cases hk
      rw [hlog, serial, if_pos rfl, hs.order, List.length_append, List.length_map]
      show some _ = some ((dequeues s.log).length + k)
      congr 1
      omega
  · intro w j' hw
    rw [hpc] at hw
    have hj' : j' ≠ j := by
      rintro rfl
      exact hj (Or.inr ⟨w, by rw [hw]; rfl⟩)
    rw [hser j' hj']
    exact hs.running w j' hw
  · exact hs.executed
  · exact hs.nodup

/-- A dequeue takes the oldest submission. -/
lemma OrderInv.dequeue {s t : Sys n} (hs : OrderInv s) {w : Fin n} {j : JobRef}
    {l : List JobRef} (hl : waiting s.log = j :: l) (hlog : t.log = .dequeued w j :: s.log)
    (hpc : t.pc = Function.update s.pc w (.running j)) : OrderInv t := by
  have hwait : waiting (.dequeued w j :: s.log) = l := by
    show (waiting s.log).erase j = l
    rw [hl, List.erase_cons_head]
  have hold : ∀ (m : ℕ) (x : Fin n × JobRef), (dequeues s.log)[m]? = some x →
      (dequeues s.log ++ [(w, j)])[m]? = some x := by
    intro m x hx
    have hlt : m < (dequeues s.log).length := (List.getElem?_eq_some_iff.mp hx).1
    rwa [List.getElem?_append_left hlt]
  refine ⟨?_, ?_, ?_, ?_, ?_⟩ <;> rw [hlog]
  · rw [hwait]
    show accepts s.log = (dequeues s.log ++ [(w, j)]).map Prod.snd ++ l
    rw [hs.order, hl, List.map_append, List.append_assoc]
    rfl
  · intro k j' hk
    rw [hwait] at hk
    have := hs.serials (k + 1) j' (by rw [hl]; exact hk)
    show serial j' s.log = some ((dequeues s.log ++ [(w, j)]).length + k)
    rw [this, List.length_append, List.length_singleton]
    congr 1
    omega
  · intro v j' hv
    rw [hpc] at hv
    by_cases hvw : v = w
    · subst hvw
      rw [Function.update_self] at hv
      obtain rfl : j = j' := by cases hv; rfl
      refine ⟨(dequeues s.log).length, ?_, ?_, fun hmem => ?_⟩
      · exact hs.serials 0 j (by rw [hl]; rfl)
      · show (dequeues s.log ++ [(v, j)])[(dequeues s.log).length]? = _
        simp
      · obtain ⟨x, hx, hx1⟩ := List.mem_map.mp hmem
        obtain ⟨m, k, hm, hdeq⟩ := hs.executed x hx
        rw [hm] at hx1
        obtain rfl := Option.some.inj hx1
        simp at hdeq
    · rw [Function.update_of_ne hvw] at hv
      obtain ⟨m, hm, hdeq, hnot⟩ := hs.running v j' hv
      exact ⟨m, hm, hold m _ hdeq, hnot⟩
  · intro x hx
    obtain ⟨m, k, hm, hdeq⟩ := hs.executed x hx
    exact ⟨m, k, hm, hold m _ hdeq⟩
  · exact hs.nodup

/-- A worker executes the submission it dequeued. -/
lemma OrderInv.execute {s t : Sys n} (hs : OrderInv s) {w : Fin n} {j : JobRef} {e : Execution}
    {x : Event n} (hw : s.pc w = .running j) (hx : x = .called w j ∨ x = .skipped w j)
    (hlog : t.log = x :: s.log) (hpc : t.pc = Function.update s.pc w (.executed j e)) :
    OrderInv t := by
  obtain ⟨m, hm, hdeq, hnot⟩ := hs.running w j hw
  have hexec : executions t.log = (some m, w) :: executions s.log := by
    rw [hlog, ← hm]; rcases hx with rfl | rfl <;> rfl
  have hacc : accepts t.log = accepts s.log := by rw [hlog]; rcases hx with rfl | rfl <;> rfl
  have hdeqs : dequeues t.log = dequeues s.log := by rw [hlog]; rcases hx with rfl | rfl <;> rfl
  have hwait : waiting t.log = waiting s.log := by rw [hlog]; rcases hx with rfl | rfl <;> rfl
  have hser : ∀ k, serial k t.log = serial k s.log := fun k => by
    rw [hlog]; rcases hx with rfl | rfl <;> rfl
  refine ⟨by rw [hacc, hdeqs, hwait]; exact hs.order, fun k j' hk => ?_, fun v j' hv => ?_,
    fun y hy => ?_, ?_⟩
  · rw [hser, hdeqs]; exact hs.serials k j' (hwait ▸ hk)
  · rw [hpc] at hv
    by_cases hvw : v = w
    · rw [hvw, Function.update_self] at hv; cases hv
    · rw [Function.update_of_ne hvw] at hv
      obtain ⟨m', hm', hdeq', hnot'⟩ := hs.running v j' hv
      refine ⟨m', by rw [hser, hm'], by rw [hdeqs, hdeq'], ?_⟩
      rw [hexec, List.map_cons, List.mem_cons, not_or]
      refine ⟨fun he => hvw ?_, hnot'⟩
      obtain rfl := Option.some.inj he
      rw [hdeq] at hdeq'
      exact (Prod.mk.inj (Option.some.inj hdeq')).1.symm
  · rw [hexec, List.mem_cons] at hy
    rw [hdeqs]
    rcases hy with rfl | hy
    · exact ⟨m, j, rfl, hdeq⟩
    · exact hs.executed y hy
  · rw [hexec, List.map_cons, List.nodup_cons]
    exact ⟨hnot, hs.nodup⟩

/-- Every undisturbed move keeps the order. -/
lemma OrderInv.move {s t : Sys n} {a : Act n} (hs : OrderInv s) (hu : Undisturbed s a)
    (hm : Move s a t) : OrderInv t := by
  cases hm with
  | accept j _ hj hlog hpc => exact hs.accept hj hlog hpc
  | cancel j id fuel m hact hr _ _ _ _ =>
      subst hact
      exact absurd rfl (hu _ hr)
  | dequeue w j l _ hl hlog hpc => exact hs.dequeue hl hlog hpc
  | execute w j e x hw hx hlog hpc => exact hs.execute hw hx hlog hpc
  | quiet es hes hlog hrun hexec =>
      refine ⟨?_, ?_, ?_, ?_, ?_⟩ <;>
        simp only [hlog, accepts_quiet hes, dequeues_quiet hes, waiting_quiet hes,
          serial_quiet hes, executions_quiet hes]
      · exact hs.order
      · exact hs.serials
      · exact fun w j hw => hs.running w j (hrun w j hw)
      · exact hs.executed
      · exact hs.nodup

/-! ### The tokens -/

/-- The conservation law, in a pool that is not being stopped. -/
structure TokenInv (s : Sys n) : Prop where
  tokens : s.mem.pool.workSem.posixSem + occupancy (· = WorkerPc.woken) s.pc
    = (waiting s.log).length
  stop : s.stop = .notCalled
  shutdown : s.mem.pool.shutdown = false

lemma TokenInv.initial {s : Sys n} (h : Initial s) : TokenInv s := by
  obtain ⟨⟨k, q, hpool⟩, -, hpc, -, -, hstop, -, -, hlog⟩ := h
  refine ⟨?_, hstop, by rw [hpool]; rfl⟩
  have hwoken : occupancy (· = WorkerPc.woken) s.pc = 0 := by
    rw [occupancy_eq_zero_iff, hpc]
    simp
  rw [hwoken, hlog, hpool]
  rfl

/-- A step that leaves the tokens, the queue and the woken workers. -/
lemma TokenInv.same {s t : Sys n} (h : TokenInv s)
    (hsem : t.mem.pool.workSem = s.mem.pool.workSem)
    (hpc : occupancy (· = WorkerPc.woken) t.pc = occupancy (· = WorkerPc.woken) s.pc)
    (hlog : (waiting t.log).length = (waiting s.log).length) (hstop : t.stop = s.stop)
    (hshut : t.mem.pool.shutdown = s.mem.pool.shutdown) : TokenInv t :=
  ⟨by rw [hsem, hpc, hlog]; exact h.tokens, hstop.trans h.stop, hshut.trans h.shutdown⟩

@[simp] lemma enqueueJob_workSem (m : Memory) (j : JobRef) :
    (enqueueJob m j).pool.workSem = m.pool.workSem := by
  simp only [enqueueJob]
  simp only [Memory.setPrev_pool, Memory.setNext_pool, Memory.setState_pool]
  cases m.pool.jobQueueTail <;> rfl

@[simp] lemma enqueueJob_shutdown (m : Memory) (j : JobRef) :
    (enqueueJob m j).pool.shutdown = m.pool.shutdown := by
  simp only [enqueueJob]
  simp only [Memory.setPrev_pool, Memory.setNext_pool, Memory.setState_pool]
  cases m.pool.jobQueueTail <;> rfl

/-- A submit posts one token for the job it queues. -/
lemma TokenInv.submitted {s : Sys n} (h : TokenInv s) {c : ℕ} {j : JobRef} {m : Memory}
    (hpool : m.pool = s.mem.pool) (hmax : s.mem.pool.workSem.posixSem < semValueMax) :
    TokenInv (afterSubmit s c j (osaWorkerPoolSubmit m (some j))) := by
  rcases osaWorkerPoolSubmit_cases m j with ⟨-, hr⟩ | ⟨-, hr1, hr2⟩
  · refine h.same ?_ rfl ?_ rfl ?_ <;> simp [afterSubmit, hr, hpool, submitEvent, waiting]
  · have hwait : waiting (afterSubmit s c j (osaWorkerPoolSubmit m (some j))).log
        = waiting s.log ++ [j] := by simp [afterSubmit, hr1, submitEvent, waiting]
    have hsem : (afterSubmit s c j (osaWorkerPoolSubmit m (some j))).mem.pool.workSem.posixSem
        = s.mem.pool.workSem.posixSem + 1 := by
      simp only [afterSubmit, hr2, Memory.modifyPool_pool, Memory.modifyStats_pool,
        enqueueJob_workSem, assignId_pool, hpool]
      exact osaSemPost_posixSem hmax
    refine ⟨?_, h.stop, ?_⟩
    · have := h.tokens
      rw [hwait, List.length_append, List.length_singleton, hsem]
      show _ + 1 + occupancy (· = WorkerPc.woken) s.pc = _
      omega
    · simp only [afterSubmit, hr2, Memory.modifyPool_pool, Memory.modifyStats_pool,
        enqueueJob_shutdown, assignId_pool, hpool]
      exact h.shutdown

/-- A worker past its token finds a job queued. -/
lemma TokenInv.queued {s : Sys n} (h : TokenInv s) {w : Fin n} (hw : s.pc w = .woken) :
    waiting s.log ≠ [] := by
  have hpos : 0 < occupancy (· = WorkerPc.woken) s.pc := occupancy_pos_iff.mpr ⟨w, hw⟩
  have := h.tokens
  intro hnil
  rw [hnil, List.length_nil] at this
  omega

/-- **The conservation law is kept** by every undisturbed step. -/
lemma TokenInv.step {s : Sys n} {b : Option JobRef} {a : Act n} (h : TokenInv s)
    (hq : QueueInv s b) (ha : enabled s a) (hu : Undisturbed s a) : TokenInv (next s a) := by
  have hstop := h.stop
  have hshut := h.shutdown
  cases a with
  | init c k args => exact h.same rfl rfl rfl rfl rfl
  | alloc c =>
      have hpool := osaWorkerJobAlloc_pool s.mem
      cases hr : (osaWorkerJobAlloc s.mem).1 <;>
        refine h.same ?_ ?_ ?_ ?_ ?_ <;> simp [next, hr, hpool, waiting]
  | free c k => cases k <;> exact h.same rfl rfl rfl rfl rfl
  | submit c k => exact h.submitted rfl hu
  | submitToHsm c k t sig => exact h.submitted (m := s.mem.setTarget k t sig) rfl hu
  | cancel id fuel =>
      rcases hq.cancel_cases ha with ⟨j, -, hr, -⟩ | ⟨-, -, hn⟩
      · exact absurd rfl (hu _ hr)
      · rw [hn]; exact h.same rfl rfl rfl rfl rfl
  | take w =>
      have henter : occupancy (· = WorkerPc.woken) (Function.update s.pc w .woken)
          = occupancy (· = WorkerPc.woken) s.pc + 1 :=
        occupancy_enter (by rw [ha.1]; simp) rfl
      refine ⟨?_, hstop, hshut⟩
      have htok := h.tokens
      have hpos := ha.2
      show (s.mem.pool.workSem.posixSem - 1) + occupancy _ (Function.update s.pc w .woken) = _
      rw [henter]
      show _ = (waiting s.log).length
      omega
  | dequeue w =>
      have hleave : ∀ p : WorkerPc, p ≠ .woken →
          occupancy (· = WorkerPc.woken) (Function.update s.pc w p) + 1
            = occupancy (· = WorkerPc.woken) s.pc := fun p hp => occupancy_leave ha.1 hp
      obtain ⟨j, l, hl⟩ := List.exists_cons_of_ne_nil (h.queued ha.1)
      have hhead : s.mem.pool.jobQueueHead = some j := by
        rw [hq.queue.head_eq, hl]; rfl
      rw [next_dequeue_run hshut hhead]
      refine ⟨?_, hstop, ?_⟩
      · have htok := h.tokens
        have := hleave (.running j) (by simp)
        rw [hl, List.length_cons] at htok
        show (dequeueJob s.mem).2.pool.workSem.posixSem
          + occupancy (· = WorkerPc.woken) (Function.update s.pc w (.running j))
          = ((waiting s.log).erase j).length
        rw [dequeueJob_pool hhead, hl, List.erase_cons_head]
        show s.mem.pool.workSem.posixSem + _ = l.length
        omega
      · show (dequeueJob s.mem).2.pool.shutdown = false
        rw [dequeueJob_pool hhead]
        exact hshut
  | execute w ret =>
      cases hw : s.pc w with
      | running j =>
          refine h.same ?_ ?_ ?_ ?_ ?_ <;> simp only [next, hw]
          · rfl
          · exact occupancy_keep (by rw [hw]; simp)
          · split <;> rfl
          · rfl
      | _ => simp [enabled, hw] at ha
  | finish w =>
      cases hw : s.pc w with
      | executed j e =>
          refine h.same ?_ ?_ ?_ ?_ ?_ <;> simp only [next, hw]
          · rfl
          · exact occupancy_keep (by rw [hw]; simp)
          · rfl
          · rfl
      | _ => simp [enabled, hw] at ha
  | notify w =>
      cases hw : s.pc w with
      | notifying j e =>
          have hpc : occupancy (· = WorkerPc.woken) (Function.update s.pc w .waiting)
              = occupancy (· = WorkerPc.woken) s.pc := occupancy_keep (by rw [hw]; simp)
          cases hh : (s.mem.jobs j).targetHsm <;> cases hcb : (s.mem.jobs j).completeCb <;>
            refine h.same ?_ ?_ ?_ ?_ ?_ <;> simp [next, hw, notifyStep, hh, hcb, hpc, waiting]
      | _ => simp [enabled, hw, WorkerPc.holdsLock] at ha
  | stopBegin => exact hu.elim
  | stopPost => simp [enabled, hstop] at ha
  | stopJoin w => simp [enabled, hstop] at ha
  | waitCall x k t | waitTake x | waitFail x err | waitReturn x =>
      simp only [next]
      split <;> exact h.same rfl rfl rfl rfl rfl
  | handledFree k =>
      simp only [next]
      split
      · next i _ _ => cases i <;> exact h.same rfl rfl rfl rfl rfl
      · exact h
  | hsmStart k => exact h.same rfl rfl rfl rfl rfl
  | post k sig => exact h.same rfl rfl rfl rfl rfl
  | receive k => exact h.same rfl rfl rfl rfl rfl
  | handled k => exact h.same rfl rfl rfl rfl rfl

/-! ### Runs -/

/-- A cancel that finds nothing is fresh. -/
lemma QueueInv.cancelFresh_of_undisturbed {s : Sys n} {b : Option JobRef} {a : Act n}
    (h : QueueInv s b) (ha : enabled s a) (hu : Undisturbed s a) : CancelFresh s a := by
  cases a with
  | cancel id fuel =>
      rcases h.cancel_cases ha with ⟨j, -, hr, -⟩ | ⟨hnone, -, -⟩
      · exact absurd rfl (hu _ hr)
      · intro j hj hid
        have hmem : j ∈ waiting s.log := List.mem_of_mem_head? (h.queue.head_eq.symm.trans hj)
        rw [List.find?_eq_none] at hnone
        exact absurd (by simpa using hid) (hnone j hmem)
  | _ => trivial

/-- What an undisturbed pool has done for its accepted jobs. -/
structure Delivered (s : Sys n) : Prop where
  /-- The dequeued jobs are a prefix of the accepted ones, and the rest is queued. -/
  order : accepts s.log = (dequeues s.log).map Prod.snd ++ waiting s.log
  chain : Path s.mem.next s.mem.pool.jobQueueHead (waiting s.log) none ∧
    s.mem.pool.jobQueueTail = (waiting s.log).getLast?
  /-- A submission is executed by the worker that dequeued it. -/
  executed : ∀ x ∈ executions s.log, ∃ m j, x.1 = some m ∧ (dequeues s.log)[m]? = some (x.2, j)
  once : ((executions s.log).map Prod.fst).Nodup
  tokens : s.mem.pool.workSem.posixSem + occupancy (· = WorkerPc.woken) s.pc
    = (waiting s.log).length
  not_stranded : ¬ (waiting s.log ≠ [] ∧ s.mem.pool.workSem.posixSem = 0 ∧
    ∀ w, s.pc w = .waiting)
  not_idle : ∀ w, enabled s (.dequeue w) → s.mem.pool.jobQueueHead ≠ none

end OpenHsm
