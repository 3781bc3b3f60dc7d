import OpenHsm.Worker.Chain

/-!
What each worker has done along a run, read off the steps of the run and not off the
shared state, so that it holds in every run, whatever the callers do.

* `PcMove`, `pcMove`: what one step does to one worker.
* `picked`, `ran`, `settled`, `told`: the four steps of a worker that carry a job: the
  dequeue, the execution and the two halves of the completion section; `along` collects
  them over a run and `byWorker` those of one worker.
* `Sections`, `sections`: every dequeue of a worker is followed by one execution of the
  same job, one final state and one announcement, before the worker dequeues again.
* `callbacks`, `SectionDone`, `sectionDone`: what the two halves of a completion section do.
-/

namespace OpenHsm

open Runs

variable {n : ℕ}

/-! ### One worker, one step -/

/-- The worker whose step it is. -/
def Act.worker : Act n → Option (Fin n)
  | .take w | .dequeue w | .execute w _ | .finish w | .notify w => some w
  | _ => none

/-- What an execution of the job is that returns `ret`. -/
def executionOf (s : Sys n) (j : JobRef) (ret : Int) : Execution :=
  let b := (executeJob s.mem j ret).jobs j
  ⟨s.submitter j, b.id, b.jobCtx, b.result⟩

/-- What the step `a` may make of the place of the worker `w`. -/
inductive PcMove (s : Sys n) (a : Act n) (w : Fin n) : WorkerPc → Prop
  | same : a.worker ≠ some w → PcMove s a w (s.pc w)
  | take : a = .take w → s.pc w = .waiting → 0 < s.mem.pool.workSem.posixSem →
      PcMove s a w .woken
  | exit : a = .dequeue w → s.pc w = .woken → s.mem.pool.shutdown = true →
      PcMove s a w .exited
  | idle : a = .dequeue w → s.pc w = .woken → s.mem.pool.shutdown = false →
      s.mem.pool.jobQueueHead = none → PcMove s a w .waiting
  | pick (j : JobRef) : a = .dequeue w → s.pc w = .woken → s.mem.pool.shutdown = false →
      s.mem.pool.jobQueueHead = some j → PcMove s a w (.running j)
  | run (j : JobRef) (ret : Int) : a = .execute w ret → s.pc w = .running j →
      PcMove s a w (.executed j (executionOf s j ret))
  | settle (j : JobRef) (e : Execution) : a = .finish w → s.pc w = .executed j e →
      PcMove s a w (.notifying j e)
  | tell (j : JobRef) (e : Execution) : a = .notify w → s.pc w = .notifying j e →
      PcMove s a w .waiting

lemma notifyStep_pc (s : Sys n) (w : Fin n) (j : JobRef) (e : Execution) :
    (notifyStep s w j e).pc = Function.update s.pc w .waiting := by
  simp only [notifyStep]
  cases (s.mem.jobs j).targetHsm <;> rfl

/-- **What a step does to a worker.** -/
theorem pcMove {s : Sys n} {a : Act n} (ha : enabled s a) (w : Fin n) :
    PcMove s a w ((next s a).pc w) := by
  -- the steps of a worker `v` move `v` only
  have hmove : ∀ (v : Fin n) (p : WorkerPc), a.worker = some v → PcMove s a v p →
      PcMove s a w (Function.update s.pc v p w) := by
    intro v p hv hp
    by_cases hwv : w = v
    · rw [hwv, Function.update_self]
      exact hp
    · rw [Function.update_of_ne hwv]
      exact .same (by rw [hv]; exact fun he => hwv (Option.some.inj he).symm)
  have hsame : a.worker = none → (next s a).pc = s.pc → PcMove s a w ((next s a).pc w) := by
    intro hn hpc
    rw [hpc]
    exact .same (by rw [hn]; simp)
  cases a with
  | take v => exact hmove v .woken rfl (.take rfl ha.1 ha.2)
  | dequeue v =>
      rcases next_dequeue_cases s v with
        ⟨hs, hnext⟩ | ⟨hs, hhead, hnext⟩ | ⟨j, hs, hhead, hnext⟩
      · rw [hnext]
        exact hmove v .exited rfl (.exit rfl ha.1 hs)
      · rw [hnext]
        exact hmove v .waiting rfl (.idle rfl ha.1 hs hhead)
      · rw [hnext]
        exact hmove v (.running j) rfl (.pick j rfl ha.1 hs hhead)
  | execute v ret =>
      cases hv : s.pc v with
      | running j =>
          simp only [next, hv]
          exact hmove v _ rfl (.run j ret rfl hv)
      | _ => simp [enabled, hv] at ha
  | finish v =>
      cases hv : s.pc v with
      | executed j e =>
          simp only [next, hv]
          exact hmove v _ rfl (.settle j e rfl hv)
      | _ => simp [enabled, hv] at ha
  | notify v =>
      cases hv : s.pc v with
      | notifying j e =>
          simp only [next, hv, notifyStep_pc]
          exact hmove v .waiting rfl (.tell j e rfl hv)
      | _ => simp [enabled, hv, WorkerPc.holdsLock] at ha
  | alloc c | cancel id fuel | waitCall x j t | waitTake x | waitFail x err | waitReturn x
  | stopPost | handledFree k =>
      refine hsame rfl ?_
      simp only [next]
      split <;> rfl
  | init c j args | free c j | submit c j | submitToHsm c j t sig | stopBegin | stopJoin v
  | hsmStart k | post k sig | receive k | handled k => exact hsame rfl rfl

/-- A step moves the worker whose step it is and no other. -/
lemma pc_of_worker_ne {s : Sys n} {a : Act n} (ha : enabled s a) {w : Fin n}
    (hw : a.worker ≠ some w) : (next s a).pc w = s.pc w := by
  have hmove := pcMove ha w
  generalize (next s a).pc w = p at hmove
  cases hmove with
  | same _ => rfl
  | take h | exit h | idle h | pick j h | run j ret h | settle j e h | tell j e h =>
      exact absurd (by rw [h]; rfl) hw

lemma pc_of_worker {s : Sys n} {a : Act n} (ha : enabled s a) {w : Fin n}
    (hw : a.worker = some w) :
    (next s a).pc = Function.update s.pc w ((next s a).pc w) := by
  funext v
  by_cases hv : v = w
  · subst hv
    rw [Function.update_self]
  · rw [Function.update_of_ne hv]
    exact pc_of_worker_ne ha fun he => hv (Option.some.inj (he.symm.trans hw))

lemma pc_of_no_worker {s : Sys n} {a : Act n} (ha : enabled s a) (hw : a.worker = none) :
    (next s a).pc = s.pc := by
  funext v
  exact pc_of_worker_ne ha (by rw [hw]; simp)

/-! ### The steps that carry a job -/

/-- The dequeue of a job. -/
def picked (s : Sys n) : Act n → Option (Fin n × JobRef)
  | .dequeue w => if s.mem.pool.shutdown then none else s.mem.pool.jobQueueHead.map (w, ·)
  | _ => none

/-- The execution of a job. -/
def ran (s : Sys n) : Act n → Option (Fin n × JobRef × Execution)
  | .execute w ret => match s.pc w with
      | .running j => some (w, j, executionOf s j ret)
      | _ => none
  | _ => none

/-- The first half of a completion section: the final state and the counters. -/
def settled (s : Sys n) : Act n → Option (Fin n × JobRef × Execution)
  | .finish w => match s.pc w with
      | .executed j e => some (w, j, e)
      | _ => none
  | _ => none

/-- The second half: the announcement. -/
def told (s : Sys n) : Act n → Option (Fin n × JobRef × Execution)
  | .notify w => match s.pc w with
      | .notifying j e => some (w, j, e)
      | _ => none
  | _ => none

/-- What the steps of a run did, newest first. -/
def along {β : Type*} (f : Sys n → Act n → Option β) (l : List (Sys n × Act n)) : List β :=
  l.filterMap fun p => f p.1 p.2

/-- What one worker did. -/
def byWorker {β : Type*} (w : Fin n) (l : List (Fin n × β)) : List β :=
  (l.filter fun x => x.1 = w).map Prod.snd

section Along

variable {β : Type*} {f : Sys n → Act n → Option β} {s : Sys n} {a : Act n}
  {l : List (Sys n × Act n)}

@[simp] lemma along_nil : along f [] = [] := rfl

lemma along_cons_some {x : β} (h : f s a = some x) : along f ((s, a) :: l) = x :: along f l := by
  simp [along, h]

lemma along_cons_none (h : f s a = none) : along f ((s, a) :: l) = along f l := by
  simp [along, h]

/-- What is read off a step may be mapped afterwards. -/
lemma along_map {γ : Type*} (f : Sys n → Act n → Option β) (π : β → γ)
    (l : List (Sys n × Act n)) :
    along (fun s a => (f s a).map π) l = (along f l).map π := by
  rw [along, along, List.map_filterMap]

end Along

section ByWorker

variable {β : Type*} {f : Sys n → Act n → Option (Fin n × β)} {s : Sys n} {a : Act n} {w : Fin n}
  {l : List (Sys n × Act n)}

lemma byWorker_along_self {x : β} (h : f s a = some (w, x)) :
    byWorker w (along f ((s, a) :: l)) = x :: byWorker w (along f l) := by
  rw [along_cons_some h]
  simp [byWorker]

lemma byWorker_along_other (h : ∀ x, f s a ≠ some (w, x)) :
    byWorker w (along f ((s, a) :: l)) = byWorker w (along f l) := by
  cases hf : f s a with
  | none => rw [along_cons_none hf]
  | some x =>
      have hx : x.1 ≠ w := by
        rintro rfl
        exact h x.2 hf
      rw [along_cons_some hf]
      simp [byWorker, hx]

end ByWorker

/-! ### Runs -/

/-- The job a worker is about to execute. -/
def WorkerPc.toRun : WorkerPc → Option JobRef
  | .running j => some j
  | _ => none

/-- The execution whose completion section is still to come. -/
def WorkerPc.toSettle : WorkerPc → Option (JobRef × Execution)
  | .executed j e => some (j, e)
  | _ => none

/-- The execution whose announcement is still to come. -/
def WorkerPc.toTell : WorkerPc → Option (JobRef × Execution)
  | .notifying j e => some (j, e)
  | _ => none

/-- In the run `l` to `t` the worker has executed what it dequeued, settled what it executed
and announced what it settled, each once and in order, but for the job in its hands. -/
structure Sections (w : Fin n) (l : List (Sys n × Act n)) (t : Sys n) : Prop where
  picks : byWorker w (along picked l)
    = (t.pc w).toRun.toList ++ (byWorker w (along ran l)).map Prod.fst
  runs : byWorker w (along ran l) = (t.pc w).toSettle.toList ++ byWorker w (along settled l)
  ends : byWorker w (along settled l) = (t.pc w).toTell.toList ++ byWorker w (along told l)

/-- Only the steps of a worker carry a job of it. -/
lemma worker_of_carries {s : Sys n} {a : Act n} {w : Fin n} (h : a.worker ≠ some w) :
    (∀ x, picked s a ≠ some (w, x)) ∧ (∀ x, ran s a ≠ some (w, x)) ∧
      (∀ x, settled s a ≠ some (w, x)) ∧ ∀ x, told s a ≠ some (w, x) := by
  refine ⟨fun x hx => h ?_, fun x hx => h ?_, fun x hx => h ?_, fun x hx => h ?_⟩
  · cases a with
    | dequeue v =>
        simp only [picked] at hx
        split at hx
        · cases hx
        · obtain ⟨j, -, hj⟩ := Option.map_eq_some_iff.mp hx
          cases hj
          rfl
    | _ => cases hx
  · cases a with
    | execute v ret =>
        simp only [ran] at hx
        split at hx <;> cases hx
        rfl
    | _ => cases hx
  · cases a with
    | finish v =>
        simp only [settled] at hx
        split at hx <;> cases hx
        rfl
    | _ => cases hx
  · cases a with
    | notify v =>
        simp only [told] at hx
        split at hx <;> cases hx
        rfl
    | _ => cases hx

section Quiet

variable {w : Fin n} {l : List (Sys n × Act n)} {s t : Sys n} {a : Act n} (h : Sections w l s)
include h

/-! Each half of the account stands when the step carries nothing of it. -/

lemma Sections.picks_quiet (hpicked : ∀ x, picked s a ≠ some (w, x))
    (hran : ∀ x, ran s a ≠ some (w, x)) (hrun : (t.pc w).toRun = (s.pc w).toRun) :
    byWorker w (along picked ((s, a) :: l))
      = (t.pc w).toRun.toList ++ (byWorker w (along ran ((s, a) :: l))).map Prod.fst := by
  rw [byWorker_along_other hpicked, byWorker_along_other hran, hrun]
  exact h.picks

lemma Sections.runs_quiet (hran : ∀ x, ran s a ≠ some (w, x))
    (hsettled : ∀ x, settled s a ≠ some (w, x))
    (hsettle : (t.pc w).toSettle = (s.pc w).toSettle) :
    byWorker w (along ran ((s, a) :: l))
      = (t.pc w).toSettle.toList ++ byWorker w (along settled ((s, a) :: l)) := by
  rw [byWorker_along_other hran, byWorker_along_other hsettled, hsettle]
  exact h.runs

lemma Sections.ends_quiet (hsettled : ∀ x, settled s a ≠ some (w, x))
    (htold : ∀ x, told s a ≠ some (w, x)) (htell : (t.pc w).toTell = (s.pc w).toTell) :
    byWorker w (along settled ((s, a) :: l))
      = (t.pc w).toTell.toList ++ byWorker w (along told ((s, a) :: l)) := by
  rw [byWorker_along_other hsettled, byWorker_along_other htold, htell]
  exact h.ends

/-- A step that carries no job of the worker keeps its account. -/
lemma Sections.quiet (hpicked : ∀ x, picked s a ≠ some (w, x))
    (hran : ∀ x, ran s a ≠ some (w, x)) (hsettled : ∀ x, settled s a ≠ some (w, x))
    (htold : ∀ x, told s a ≠ some (w, x)) (hrun : (t.pc w).toRun = (s.pc w).toRun)
    (hsettle : (t.pc w).toSettle = (s.pc w).toSettle)
    (htell : (t.pc w).toTell = (s.pc w).toTell) : Sections w ((s, a) :: l) t :=
  ⟨h.picks_quiet hpicked hran hrun, h.runs_quiet hran hsettled hsettle,
    h.ends_quiet hsettled htold htell⟩

end Quiet

/-- Every step keeps the account of every worker. -/
lemma Sections.step {w : Fin n} {l : List (Sys n × Act n)} {s : Sys n} {a : Act n}
    (h : Sections w l s) (ha : enabled s a) : Sections w ((s, a) :: l) (next s a) := by
  have hmove := pcMove ha w
  generalize hnew : (next s a).pc w = p at hmove
  cases hmove with
  | same hw =>
      obtain ⟨h1, h2, h3, h4⟩ := worker_of_carries (s := s) hw
      exact h.quiet h1 h2 h3 h4 (by rw [hnew]) (by rw [hnew]) (by rw [hnew])
  | take hact hw _ =>
      subst hact
      refine h.quiet ?_ ?_ ?_ ?_ ?_ ?_ ?_ <;> simp [picked, ran, settled, told, hnew, hw] <;> rfl
  | exit hact hw hs =>
      subst hact
      refine h.quiet ?_ ?_ ?_ ?_ ?_ ?_ ?_ <;> simp [picked, ran, settled, told, hnew, hw, hs] <;>
        rfl
  | idle hact hw hs hhead =>
      subst hact
      refine h.quiet ?_ ?_ ?_ ?_ ?_ ?_ ?_ <;>
        simp [picked, ran, settled, told, hnew, hw, hs, hhead] <;> rfl
  | pick j hact hw hs hhead =>
      subst hact
      refine ⟨?_, h.runs_quiet (by simp [ran]) (by simp [settled]) (by rw [hnew, hw]; rfl),
        h.ends_quiet (by simp [settled]) (by simp [told]) (by rw [hnew, hw]; rfl)⟩
      have hp := h.picks
      rw [hw] at hp
      rw [hnew, byWorker_along_self (x := j) (by simp [picked, hs, hhead]), hp,
        byWorker_along_other (f := ran) (by simp [ran])]
      rfl
  | run j ret hact hw =>
      subst hact
      refine ⟨?_, ?_, h.ends_quiet (by simp [settled]) (by simp [told]) (by rw [hnew, hw]; rfl)⟩
      · have hp := h.picks
        rw [hw] at hp
        rw [hnew, byWorker_along_other (f := picked) (by simp [picked]), hp,
          byWorker_along_self (f := ran) (x := (j, executionOf s j ret)) (by simp [ran, hw])]
        rfl
      · have hr := h.runs
        rw [hw] at hr
        rw [hnew, byWorker_along_self (f := ran) (x := (j, executionOf s j ret))
          (by simp [ran, hw]), byWorker_along_other (f := settled) (by simp [settled]), hr]
        rfl
  | settle j e hact hw =>
      subst hact
      refine ⟨h.picks_quiet (by simp [picked]) (by simp [ran]) (by rw [hnew, hw]; rfl), ?_, ?_⟩
      · have hr := h.runs
        rw [hw] at hr
        rw [hnew, byWorker_along_other (f := ran) (by simp [ran]), hr,
          byWorker_along_self (f := settled) (x := (j, e)) (by simp [settled, hw])]
        rfl
      · have he := h.ends
        rw [hw] at he
        rw [hnew, byWorker_along_self (f := settled) (x := (j, e)) (by simp [settled, hw]),
          byWorker_along_other (f := told) (by simp [told]), he]
        rfl
  | tell j e hact hw =>
      subst hact
      refine ⟨h.picks_quiet (by simp [picked]) (by simp [ran]) (by rw [hnew, hw]; rfl),
        h.runs_quiet (by simp [ran]) (by simp [settled]) (by rw [hnew, hw]; rfl), ?_⟩
      have he := h.ends
      rw [hw] at he
      rw [hnew, byWorker_along_other (f := settled) (by simp [settled]), he,
        byWorker_along_self (f := told) (x := (j, e)) (by simp [told, hw])]
      rfl

/-- **The account of every worker, in every run** from the start of the pool on. -/
theorem sections {s t : Sys n} {l : List (Sys n × Act n)} (hs : Initial s)
    (hl : (poolSystem n).RunFrom s l t) (w : Fin n) : Sections w l t := by
  induction hl with
  | refl =>
      obtain ⟨-, -, hpc, -⟩ := hs
      refine ⟨?_, ?_, ?_⟩ <;> rw [hpc] <;> rfl
  | step _ ha ih => exact ih.step ha

/-! ### The completion section -/

/-- The calls of completion callbacks, newest first. -/
def callbacks : List (Event n) → List (Fin n × JobRef × Int)
  | [] => []
  | .calledBack w j r :: l => (w, j, r) :: callbacks l
  | _ :: l => callbacks l

/-- The first half of a completion section leaves the job in a final state, the second one
calls its callback once, if it has one. -/
structure SectionDone (s : Sys n) (a : Act n) : Prop where
  state : ∀ w j e, settled s a = some (w, j, e) → ((next s a).mem.state j).Terminal
  callback : ∀ w j e, told s a = some (w, j, e) → callbacks (next s a).log
    = (if (s.mem.jobs j).completeCb = none then [] else [(w, j, (s.mem.jobs j).result)])
      ++ callbacks s.log

lemma callbacks_notifyStep (s : Sys n) (w : Fin n) (j : JobRef) (e : Execution) :
    callbacks (notifyStep s w j e).log
      = (if (s.mem.jobs j).completeCb = none then [] else [(w, j, (s.mem.jobs j).result)])
        ++ callbacks s.log := by
  simp only [notifyStep]
  cases (s.mem.jobs j).targetHsm <;> cases (s.mem.jobs j).completeCb <;> rfl

lemma settled_eq_some {s : Sys n} {a : Act n} {w : Fin n} {j : JobRef} {e : Execution}
    (h : settled s a = some (w, j, e)) : a = .finish w ∧ s.pc w = .executed j e := by
  cases a with
  | finish v =>
      simp only [settled] at h
      split at h
      · next k e' hv => cases h; exact ⟨rfl, hv⟩
      · cases h
  | _ => cases h

lemma told_eq_some {s : Sys n} {a : Act n} {w : Fin n} {j : JobRef} {e : Execution}
    (h : told s a = some (w, j, e)) : a = .notify w ∧ s.pc w = .notifying j e := by
  cases a with
  | notify v =>
      simp only [told] at h
      split at h
      · next k e' hv => cases h; exact ⟨rfl, hv⟩
      · cases h
  | _ => cases h

lemma sectionDone (s : Sys n) (a : Act n) : SectionDone s a := by
  refine ⟨fun w j e h => ?_, fun w j e h => ?_⟩
  · obtain ⟨rfl, hw⟩ := settled_eq_some h
    simp only [next, hw]
    simp only [finishJob, Memory.modifyStats_state, Memory.setState_state, Function.update_self]
    split <;> trivial
  · obtain ⟨rfl, hw⟩ := told_eq_some h
    simp only [next, hw]
    exact callbacks_notifyStep s w j e

end OpenHsm
