import OpenHsm.Worker.Statistics
import OpenHsm.Worker.Work

/-!
Where the accepted jobs are, weighted in any way, in a pool whose posts find room.

* `Stage`: how far a worker has to take a job, to its execution, to the counters or to the
  announcement.
* `worth`, `weigh`, `heldWeight`: what a job, the queue and the hands of the workers weigh.
* `QueueInv.flow`: what one step moves.
* `flow_along`: in every run, what is accepted and neither queued, cancelled nor in the hands
  of a worker has passed the stage.
-/

namespace OpenHsm

open Occupancy Runs

variable {n : ℕ}

/-- A point that a worker takes its job to. -/
inductive Stage where
  /-- The call of `job_func`. -/
  | run
  /-- The final state and the counters. -/
  | settle
  /-- The callback, the event and the post on `complete_sem`. -/
  | tell
  deriving DecidableEq, Repr

/-- The job that a worker still has to take to the stage. -/
def WorkerPc.before : Stage → WorkerPc → Option JobRef
  | .run, .running j => some j
  | .settle, .running j | .settle, .executed j _ => some j
  | .tell, .running j | .tell, .executed j _ | .tell, .notifying j _ => some j
  | _, _ => none

/-- The job that the step takes past the stage. -/
def Stage.passed (s : Sys n) (a : Act n) : Stage → Option JobRef
  | .run => (ran s a).map fun x => x.2.1
  | .settle => (settled s a).map fun x => x.2.1
  | .tell => (told s a).map fun x => x.2.1

/-- The jobs cancelled, newest first. -/
def discards : List (Event n) → List JobRef
  | [] => []
  | .cancelled j _ :: l => j :: discards l
  | _ :: l => discards l

lemma discards_quiet {es : List (Event n)} (hes : ∀ e ∈ es, e.quiet) (l : List (Event n)) :
    discards (es ++ l) = discards l :=
  quiet_append (fun e _ he => by cases e <;> first | rfl | simp [Event.quiet] at he) hes l

section Weight

variable (f : JobRef → ℕ)

/-- What a place with a job or none in it weighs. -/
def worth (o : Option JobRef) : ℕ := o.elim 0 f

/-- What a list of jobs weighs. -/
def weigh (l : List JobRef) : ℕ := (l.map f).sum

@[simp] lemma worth_none : worth f none = 0 := rfl

@[simp] lemma worth_some (j : JobRef) : worth f (some j) = f j := rfl

lemma weigh_append (l : List JobRef) (j : JobRef) : weigh f (l ++ [j]) = weigh f l + f j := by
  simp [weigh]

lemma weigh_erase {l : List JobRef} {j : JobRef} (hj : j ∈ l) :
    weigh f (l.erase j) + f j = weigh f l := by
  rw [weigh, weigh, ← List.sum_map_erase f hj, Nat.add_comm]

lemma weigh_one (l : List JobRef) : weigh (fun _ => 1) l = l.length := by simp [weigh]

/-- What is on its way to the stage: queued or in the hands of a worker. -/
def heldWeight (g : Stage) (s : Sys n) : ℕ :=
  weigh f (waiting s.log) + load (fun p => worth f (p.before g)) s.pc

end Weight

/-- Only a worker takes a job past a stage. -/
lemma Stage.passed_of_no_worker {s : Sys n} {a : Act n} (ha : a.worker = none) (g : Stage) :
    g.passed s a = none := by
  cases g <;> cases a <;> first | rfl | cases ha

/-- A worker takes its job past a stage when it leaves the last place before it; a dequeue
brings a new one. -/
lemma Stage.passed_worth {s : Sys n} {a : Act n} {w : Fin n} (ha : enabled s a)
    (hw : a.worker = some w) (hrun : ∀ j, (next s a).pc w ≠ .running j) (f : JobRef → ℕ)
    (g : Stage) :
    worth f (g.passed s a) + worth f (((next s a).pc w).before g)
      = worth f ((s.pc w).before g) := by
  cases a with
  | take v =>
      cases hw
      have hpc : (next s (.take w)).pc w = .woken := by simp [next]
      rw [hpc, ha.1]
      cases g <;> rfl
  | dequeue v =>
      cases hw
      rw [ha.1]
      rcases next_dequeue_cases s w with ⟨-, hnext⟩ | ⟨-, -, hnext⟩ | ⟨j, -, -, hnext⟩
      · rw [hnext]
        cases g <;> simp [Stage.passed, ran, settled, told, WorkerPc.before]
      · rw [hnext]
        cases g <;> simp [Stage.passed, ran, settled, told, WorkerPc.before]
      · exact absurd (by simp [hnext]) (hrun j)
  | execute v ret =>
      cases hw
      cases hp : s.pc w with
      | running j =>
          cases g <;> simp [next, hp, Stage.passed, ran, settled, told, WorkerPc.before]
      | _ => simp [enabled, hp] at ha
  | finish v =>
      cases hw
      cases hp : s.pc w with
      | executed j e =>
          cases g <;> simp [next, hp, Stage.passed, ran, settled, told, WorkerPc.before]
      | _ => simp [enabled, hp] at ha
  | notify v =>
      cases hw
      cases hp : s.pc w with
      | notifying j e =>
          cases g <;> simp [next, hp, Stage.passed, ran, settled, told, WorkerPc.before,
            notifyStep_pc]
      | _ => simp [enabled, hp, WorkerPc.holdsLock] at ha
  | _ => cases hw

/-- **What one step moves**: an accepted job joins the queue, a cancelled one leaves it, a
dequeued one goes from the queue to a worker, and the rest is what passes the stage. -/
lemma QueueInv.flow {s : Sys n} {b : Option JobRef} {a : Act n} (h : QueueInv s b)
    (ha : enabled s a) (hroom : WorkRoom s a) (f : JobRef → ℕ) (g : Stage) :
    weigh f (accepts (next s a).log) + heldWeight f g s + weigh f (discards s.log)
      = weigh f (accepts s.log) + heldWeight f g (next s a) + weigh f (discards (next s a).log)
        + worth f (g.passed s a) := by
  have hquiet : ∀ {es : List (Event n)}, (∀ e ∈ es, e.silent) → ∀ e ∈ es, e.quiet :=
    fun hes e he => Event.quiet_of_silent (hes e he)
  -- the worker `w` goes on, and no job enters or leaves the queue
  have hmove : ∀ (w : Fin n) (p : WorkerPc), a.worker = some w →
      (next s a).pc = Function.update s.pc w p → (∀ j, p ≠ .running j) →
      accepts (next s a).log = accepts s.log → waiting (next s a).log = waiting s.log →
      discards (next s a).log = discards s.log →
      weigh f (accepts (next s a).log) + heldWeight f g s + weigh f (discards s.log)
        = weigh f (accepts s.log) + heldWeight f g (next s a) + weigh f (discards (next s a).log)
          + worth f (g.passed s a) := by
    intro w p hw hpc hp hacc hwait hdis
    have hnew : (next s a).pc w = p := by rw [hpc, Function.update_self]
    have hworth := g.passed_worth ha hw (by rw [hnew]; exact hp) f
    have hload := load_update (f := s.pc) (i := w) (a := p) fun p => worth f (p.before g)
    rw [hnew] at hworth
    rw [hacc, hdis, heldWeight, heldWeight, hwait, hpc]
    omega
  have hm := workMove ha hroom
  cases hm with
  | accept j _ hw _ hpc hlog =>
      have hacc : accepts (next s a).log = accepts s.log ++ [j] := by rw [hlog]; rfl
      have hwait : waiting (next s a).log = waiting s.log ++ [j] := by rw [hlog]; rfl
      have hdis : discards (next s a).log = discards s.log := by rw [hlog]; rfl
      rw [Stage.passed_of_no_worker hw, hacc, hdis, heldWeight, heldWeight, hwait, hpc,
        weigh_append, weigh_append, worth_none]
      omega
  | cancel j id fuel hact hr _ hpc hlog =>
      have hj : j ∈ waiting s.log :=
        List.mem_of_find?_eq_some (cancelSearch_eq h.queue.path hr).symm
      have hacc : accepts (next s a).log = accepts s.log := by rw [hlog]; rfl
      have hwait : waiting (next s a).log = (waiting s.log).erase j := by rw [hlog]; rfl
      have hdis : discards (next s a).log = j :: discards s.log := by rw [hlog]; rfl
      have herase := weigh_erase f hj
      have hcons : weigh f (j :: discards s.log) = f j + weigh f (discards s.log) := by
        simp [weigh]
      rw [Stage.passed_of_no_worker (by rw [hact]; rfl), hacc, hdis, heldWeight, heldWeight, hwait,
        hpc, hcons, worth_none]
      omega
  | pick w j hact hw hhead _ hpc hlog =>
      obtain ⟨l, hl⟩ : ∃ l, waiting s.log = j :: l :=
        List.head?_eq_some_iff.mp (h.queue.head_eq.symm.trans hhead)
      have hacc : accepts (next s a).log = accepts s.log := by rw [hlog]; rfl
      have hwait : waiting (next s a).log = (waiting s.log).erase j := by rw [hlog]; rfl
      have hdis : discards (next s a).log = discards s.log := by rw [hlog]; rfl
      have herase := weigh_erase f (l := waiting s.log) (j := j) (by rw [hl]; simp)
      have hload := load_update (f := s.pc) (i := w) (a := .running j) fun p => worth f (p.before g)
      have hpass : g.passed s a = none := by rw [hact]; cases g <;> rfl
      have hold : (s.pc w).before g = none := by rw [hw]; cases g <;> rfl
      have hnew : (WorkerPc.running j).before g = some j := by cases g <;> rfl
      simp only [hold, hnew, worth_none, worth_some] at hload
      rw [hpass, hacc, hdis, heldWeight, heldWeight, hwait, hpc, worth_none]
      omega
  | post hact _ hpc hlog =>
      rw [Stage.passed_of_no_worker (by rw [hact]; rfl), heldWeight, heldWeight, hlog, hpc,
        worth_none]
      omega
  | other es hw _ _ hpc hes hlog =>
      rw [Stage.passed_of_no_worker hw, heldWeight, heldWeight, hlog, hpc,
        accepts_quiet (hquiet hes), waiting_quiet (hquiet hes), discards_quiet (hquiet hes),
        worth_none]
      omega
  | take w hact _ _ hpc hlog =>
      exact hmove w _ (by rw [hact]; rfl) hpc (by simp) (by rw [hlog]) (by rw [hlog])
        (by rw [hlog])
  | exit w hact _ _ _ hpc hlog =>
      exact hmove w _ (by rw [hact]; rfl) hpc (by simp) (by rw [hlog]) (by rw [hlog])
        (by rw [hlog])
  | idle w hact _ _ _ hpc hlog =>
      exact hmove w _ (by rw [hact]; rfl) hpc (by simp) (by rw [hlog]; rfl) (by rw [hlog]; rfl)
        (by rw [hlog]; rfl)
  | run w j e x hw _ hx _ hpc hlog =>
      refine hmove w _ hw hpc (by simp) ?_ ?_ ?_ <;> rw [hlog] <;> rcases hx with rfl | rfl <;> rfl
  | settle w j e hw _ _ hpc hlog =>
      exact hmove w _ hw hpc (by simp) (by rw [hlog]; rfl) (by rw [hlog]; rfl) (by rw [hlog]; rfl)
  | tell w j e es hw _ _ hpc hes hlog =>
      exact hmove w _ hw hpc (by simp) (by rw [hlog, accepts_quiet (hquiet hes)])
        (by rw [hlog, waiting_quiet (hquiet hes)]) (by rw [hlog, discards_quiet (hquiet hes)])

/-- What a step does to what was accepted, and to the tokens: a submit that returns `0` adds
to both, and a post of `osa_worker_pool_stop` to the tokens. -/
lemma WorkMove.accepts_cases {s t : Sys n} {a : Act n} (h : WorkMove s a t) :
    (∃ j, a.submits j ∧ accepts t.log = accepts s.log ++ [j] ∧
      t.mem.pool.workSem.posixSem = s.mem.pool.workSem.posixSem + 1) ∨
    (accepts t.log = accepts s.log ∧ t.mem.pool.workSem.posixSem
      ≤ s.mem.pool.workSem.posixSem + (if a = .stopPost then 1 else 0)) := by
  have hquiet : ∀ {es : List (Event n)}, (∀ e ∈ es, e.silent) → ∀ e ∈ es, e.quiet :=
    fun hes e he => Event.quiet_of_silent (hes e he)
  cases h with
  | accept j hj _ hsem _ hlog => exact .inl ⟨j, hj, by rw [hlog]; rfl, hsem⟩
  | post ha hsem _ hlog => exact .inr ⟨by rw [hlog], by rw [hsem, if_pos ha]⟩
  | take w _ _ hsem _ hlog => exact .inr ⟨by rw [hlog], by omega⟩
  | cancel j id fuel _ _ hsem _ hlog => exact .inr ⟨by rw [hlog]; rfl, by rw [hsem]; omega⟩
  | exit w _ _ _ hsem _ hlog => exact .inr ⟨by rw [hlog], by rw [hsem]; omega⟩
  | idle w _ _ _ hsem _ hlog | pick w j _ _ _ hsem _ hlog | settle w j e _ _ hsem _ hlog =>
      exact .inr ⟨by rw [hlog]; rfl, by rw [hsem]; omega⟩
  | run w j e x _ _ hx hsem _ hlog =>
      exact .inr ⟨by rw [hlog]; rcases hx with rfl | rfl <;> rfl, by rw [hsem]; omega⟩
  | tell w j e es _ _ hsem _ hes hlog | other es _ _ hsem _ hes hlog =>
      exact .inr ⟨by rw [hlog, accepts_quiet (hquiet hes)], by rw [hsem]; omega⟩

/-- Only a cancel discards a job. -/
lemma WorkMove.discards_eq {s t : Sys n} {a : Act n} (h : WorkMove s a t)
    (ha : ∀ id fuel, a ≠ .cancel id fuel) : discards t.log = discards s.log := by
  have hquiet : ∀ {es : List (Event n)}, (∀ e ∈ es, e.silent) → ∀ e ∈ es, e.quiet :=
    fun hes e he => Event.quiet_of_silent (hes e he)
  cases h with
  | cancel j id fuel hact => exact absurd hact (ha id fuel)
  | post _ _ _ hlog | take _ _ _ _ _ hlog | exit _ _ _ _ _ _ hlog => rw [hlog]
  | accept _ _ _ _ _ hlog | idle _ _ _ _ _ _ hlog | pick _ _ _ _ _ _ _ hlog
  | settle _ _ _ _ _ _ _ hlog => rw [hlog]; rfl
  | run _ _ _ _ _ _ hx _ _ hlog => rw [hlog]; rcases hx with rfl | rfl <;> rfl
  | tell _ _ _ es _ _ _ _ hes hlog | other es _ _ _ _ hes hlog =>
      rw [hlog, discards_quiet (hquiet hes)]

/-! ### Runs -/

/-- The callers keep to the interface, cancels are fresh and posts find room. -/
def Orderly (s : Sys n) (a : Act n) : Prop := Discipline s a ∧ CancelFresh s a ∧ WorkRoom s a

instance (s : Sys n) (a : Act n) : Decidable (Orderly s a) :=
  inferInstanceAs (Decidable (_ ∧ _ ∧ _))

section Run

variable {s t : Sys n} {l : List (Sys n × Act n)}

lemma queueInv_of_orderly (hs : Initial s) (hl : ((poolSystem n).restrict Orderly).RunFrom s l t) :
    ∃ b, QueueInv t b := by
  refine hl.invariant (P := fun u => ∃ b, QueueInv u b) ?_ ⟨none, .initial hs⟩
  rintro u a ⟨b, hb⟩ ha
  exact ⟨_, hb.step ha.1 ha.2.1 ha.2.2.1⟩

/-- **Nothing is lost**: every accepted job is on its way to the stage, was cancelled, or has
passed it. -/
theorem flow_along (hs : Initial s) (hl : ((poolSystem n).restrict Orderly).RunFrom s l t)
    (f : JobRef → ℕ) (g : Stage) :
    weigh f (accepts t.log) = heldWeight f g t + weigh f (discards t.log)
      + weigh f (along (fun s a => g.passed s a) l) := by
  induction hl with
  | refl =>
      obtain ⟨-, -, hpc, -⟩ := id hs
      have hload : load (fun p => worth f (p.before g)) s.pc = 0 :=
        (load_eq_zero_iff _).mpr fun w => by rw [hpc]; cases g <;> rfl
      rw [heldWeight, hload, hs.log_eq]
      rfl
  | @step l u a hl ha ih =>
      obtain ⟨b, hb⟩ := queueInv_of_orderly hs hl
      have hstep := hb.flow ha.1 ha.2.2.2 f g
      have hcons : weigh f (along (fun s a => g.passed s a) ((u, a) :: l))
          = weigh f (along (fun s a => g.passed s a) l) + worth f (g.passed u a) := by
        cases hg : g.passed u a with
        | none => rw [along_cons_none hg, worth_none, Nat.add_zero]
        | some j =>
            rw [along_cons_some hg, worth_some, Nat.add_comm]
            simp [weigh]
      rw [hcons]
      show weigh f (accepts (next u a).log) = heldWeight f g (next u a)
        + weigh f (discards (next u a).log) + _
      omega

/-- A busy job was accepted. -/
lemma busy_accepted (hs : Initial s) (hl : ((poolSystem n).restrict Orderly).RunFrom s l t)
    {j : JobRef} (hj : Busy t j) : j ∈ accepts t.log := by
  by_contra hnot
  have hflow := flow_along hs hl (fun k => if k = j then 1 else 0) .settle
  have hzero : weigh (fun k => if k = j then 1 else 0) (accepts t.log) = 0 := by
    simp only [weigh, List.sum_eq_zero_iff, List.mem_map]
    rintro _ ⟨k, hk, rfl⟩
    have hkj : k ≠ j := by
      rintro rfl
      exact hnot hk
    rw [if_neg hkj]
  rw [hzero, heldWeight] at hflow
  rcases hj with hj | ⟨w, hw⟩
  · have hpos : 0 < weigh (fun k => if k = j then 1 else 0) (waiting t.log) := by
      rw [← weigh_erase _ hj, if_pos rfl]
      omega
    omega
  · have hpos : ¬ load (fun p => worth (fun k => if k = j then 1 else 0)
        (WorkerPc.before .settle p)) t.pc = 0 := by
      rw [load_eq_zero_iff]
      intro h
      have hworth := h w
      cases hp : t.pc w <;> rw [hp] at hw hworth <;>
        simp [WorkerPc.executing, WorkerPc.before] at hw hworth
      all_goals exact hworth hw
    omega

end Run

end OpenHsm
