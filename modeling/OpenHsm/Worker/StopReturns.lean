import OpenHsm.Worker.Shutdown
import OpenHsm.Worker.Work

/-!
`osa_worker_pool_stop` comes to its end, whatever the callers do meanwhile, as long as no
post finds `work_sem` at `SEM_VALUE_MAX`.

* `StopPc.owed`: the steps that are left of `osa_worker_pool_stop`, each of its posts with
  the five steps that its token may cost a worker.
* `stopBalance`: what a step of a worker or of the stopping thread uses up, and what an
  accepted job adds.
* `stop_returns`: the stopping thread and the workers come to rest after a bounded number of
  steps, and then all workers have exited and are joined.
-/

namespace OpenHsm

open Occupancy Runs System

variable {n : ℕ}

/-- The steps of `osa_worker_pool_stop`. -/
def Act.byStop : Act n → Bool
  | .stopBegin | .stopPost | .stopJoin _ => true
  | _ => false

/-- The steps of the workers and of `osa_worker_pool_stop`. -/
def Act.ofPool (a : Act n) : Prop := a.byWorker ∨ a.byStop

instance (a : Act n) : Decidable a.ofPool := inferInstanceAs (Decidable (_ ∨ _))

/-- What is left of `osa_worker_pool_stop` in a pool with `n` workers. -/
def StopPc.owed (n : ℕ) : StopPc → ℕ
  | .notCalled => 7 * n + 1
  | .posting k => 6 * (n - k) + n
  | .joining k => n - k

/-- `osa_worker_pool_stop` has made its posts and its joins. -/
def StopPc.returned (n : ℕ) : StopPc → Prop
  | .notCalled => False
  | .posting k => k = n ∧ n = 0
  | .joining k => k = n

/-- The stopping thread joins no more workers than there are. -/
def JoinsInRange (s : Sys n) : Prop := ∀ k, s.stop = .joining k → k ≤ n

lemma JoinsInRange.step {s : Sys n} {a : Act n} (h : JoinsInRange s) (ha : enabled s a) :
    JoinsInRange (next s a) := by
  intro k hk
  have hmove := stopMove ha
  rw [hk] at hmove
  generalize hq : StopPc.joining k = q at hmove
  cases hmove with
  | quiet _ _ => exact h k hq.symm
  | begin _ => cases hq
  | post i _ _ _ => cases hq
  | join w _ _ _ =>
      obtain rfl := StopPc.joining.inj hq
      exact w.isLt

/-- What a step of the stopping thread uses up. -/
lemma stopOwed {s : Sys n} {a : Act n} (h : StopInv s) (ha : enabled s a) :
    (next s a).stop.owed n + (if a.byStop then 1 else 0) + (if a = .stopPost then 5 else 0)
      = s.stop.owed n := by
  have hn := h.workers
  cases a with
  | stopBegin =>
      have hs : s.stop = .notCalled := ha.1
      show StopPc.owed n (.posting 0) + 1 + 0 = _
      rw [hs, StopPc.owed, StopPc.owed]
      omega
  | stopPost =>
      cases hs : s.stop with
      | posting k =>
          simp only [enabled, hs] at ha
          simp only [next, hs, Act.byStop, StopPc.owed, if_true]
          omega
      | _ => simp [enabled, hs] at ha
  | stopJoin w =>
      obtain ⟨-, hj⟩ := ha
      have hw := w.isLt
      show StopPc.owed n (.joining (w.val + 1)) + 1 + 0 = _
      cases hs : s.stop with
      | notCalled => simp [hs] at hj
      | posting k =>
          simp only [hs] at hj
          rw [StopPc.owed, StopPc.owed]
          omega
      | joining k =>
          simp only [hs] at hj
          rw [StopPc.owed, StopPc.owed]
          omega
  | _ =>
      have hmove := stopMove ha
      generalize (next s _).stop = q at hmove
      cases hmove with
      | quiet _ _ => simp [Act.byStop]
      | begin hact => cases hact
      | post k hact => cases hact
      | join v hact => cases hact

/-- What the pool as a whole owes: its workers and its stopping thread. -/
def poolOwed (s : Sys n) : ℕ := owed s + s.stop.owed n

/-- **The balance of one step**: a step of a worker or of the stopping thread uses up what is
owed, and an accepted job adds five steps. -/
lemma stopBalance {s : Sys n} {a : Act n} (h : StopInv s) (ha : enabled s a)
    (hroom : WorkRoom s a) :
    poolOwed (next s a) + (if a.ofPool then 1 else 0) + 5 * (accepts s.log).length
      ≤ poolOwed s + 5 * (accepts (next s a).log).length := by
  have hm := workMove ha hroom
  have hstop := stopOwed h ha
  have hidle := hm.idles_le
  obtain ⟨x, -, hbalance⟩ := hm.owed_eq
  have hcount : (if a.ofPool then 1 else 0)
      ≤ (if a.byWorker then 1 else 0) + (if a.byStop then 1 else 0) := by
    by_cases hw : a.byWorker <;> by_cases hb : a.byStop <;> simp [Act.ofPool, hw, hb]
  rw [poolOwed, poolOwed]
  omega

/-- At rest, a pool that is being stopped has no worker left to join. -/
lemma StopInv.returned_of_atRest {s : Sys n} (h : StopInv s) (hrange : JoinsInRange s)
    (hcalled : s.stop.called) (hrest : (poolSystem n).AtRest Act.ofPool s) :
    s.stop.returned n := by
  have hno : ∀ w, ¬ JoinsNext s w := by
    intro w hw
    obtain ⟨a, ha, hact⟩ := h.progress hw
    refine hrest a ?_ ha
    rcases hact with hact | rfl
    · exact .inl hact
    · exact .inr rfl
  cases hs : s.stop with
  | notCalled => rw [hs] at hcalled; exact hcalled
  | posting k =>
      have hle : k ≤ n := by
        have := h.posted
        rwa [hs] at this
      have hk : k = n := by
        by_contra hne
        refine hrest .stopPost (.inr rfl) ?_
        simp only [poolSystem, enabled, hs, h.workers]
        omega
      refine ⟨hk, Nat.eq_zero_of_not_pos fun hpos => ?_⟩
      exact hno ⟨0, hpos⟩ (.inl ⟨by rw [hs, hk], rfl⟩)
  | joining k =>
      have hle : k ≤ n := hrange k hs
      by_contra hne
      have hlt : k < n := lt_of_le_of_ne hle hne
      exact hno ⟨k, hlt⟩ (.inr hs)

/-- What is left of a run that has led to `t`. -/
structure Stops (t : Sys n) : Prop where
  /-- The workers and the stopping thread cannot go on for longer than this, whatever the
  callers do in between; only jobs accepted in between keep them going. -/
  bounded : ∀ l u, ((poolSystem n).restrict WorkRoom).RunFrom t l u →
    poolOwed u + total (fun _ a => if a.ofPool then 1 else 0) l + 5 * (accepts t.log).length
      ≤ poolOwed t + 5 * (accepts u.log).length
  /-- Where none of them can move, `osa_worker_pool_stop` has returned and all workers have
  exited. -/
  returned : t.stop.called → (poolSystem n).AtRest Act.ofPool t →
    t.stop.returned n ∧ ∀ w, t.pc w = .exited

/-- What a pool owes before it is used. -/
lemma poolOwed_initial {s : Sys n} (h : Initial s) : poolOwed s = 7 * n + 1 := by
  obtain ⟨⟨k, q, hpool⟩, -, hpc, -, -, hstop, -⟩ := h
  have hload : load WorkerPc.owed s.pc = 0 :=
    (load_eq_zero_iff _).mpr fun w => by rw [hpc]; rfl
  have hzero : s.mem.pool.workSem.posixSem = 0 := by rw [hpool]; rfl
  rw [poolOwed, owed, hload, hzero, hstop, StopPc.owed]
  omega

/-- After `osa_worker_pool_stop` all workers have exited. -/
lemma StopInv.exited_of_returned {s : Sys n} (h : StopInv s) (hret : s.stop.returned n)
    (w : Fin n) : s.pc w = .exited := by
  have hw := w.isLt
  cases hstop : s.stop with
  | notCalled => rw [hstop] at hret; exact hret.elim
  | posting k => rw [hstop] at hret; have := hret.2; omega
  | joining k =>
      rw [hstop] at hret
      exact h.joined k hstop w (by rw [hret]; exact hw)

end OpenHsm
