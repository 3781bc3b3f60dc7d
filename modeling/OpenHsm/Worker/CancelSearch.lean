import OpenHsm.Worker.Invariant

/-!
The loop of `osa_worker_pool_cancel`, which follows `next` from `job_queue_head` with the
lock held and has no bound of its own.

* `OnChain`, `SearchEnds`: the jobs that following `next` meets, and that a search ends
  within as many iterations as there are of them.
* `cancel_search_ends`: it does, for every id, as long as every cancel is fresh.
* `cancel_search_hangs`: a cancel of the first job, whose `prev` is left from the job that
  was taken before it, links that job to itself once it is queued again; the next search
  for an id that is not there runs forever.
-/

namespace OpenHsm

open DoublyLinked Runs

variable {n : ℕ}

/-- Following `next` from the head of the queue arrives at the job. -/
def OnChain (m : Memory) (j : JobRef) : Prop :=
  ∃ l, Path m.next m.pool.jobQueueHead l (some j)

/-- The search for the id ends within as many iterations as there are jobs in the queue. -/
def SearchEnds (m : Memory) (id : UInt32) : Prop :=
  ∃ jobs : List JobRef, jobs.Nodup ∧ (∀ j, j ∈ jobs ↔ OnChain m j) ∧
    (cancelSearch m id jobs.length m.pool.jobQueueHead).isSome

/-- On a queue that ends, every search does. -/
lemma SearchEnds.of_path {m : Memory} {jobs : List JobRef}
    (h : Path m.next m.pool.jobQueueHead jobs none) (id : UInt32) : SearchEnds m id :=
  ⟨jobs, h.nodup, fun _ => h.mem_iff, cancelSearch_isSome h le_rfl⟩

/-- **Every cancel's search ends**, in every state that callers with the discipline and
fresh cancels can reach, within as many iterations as there are jobs in the queue. -/
theorem cancel_search_ends {s : Sys n}
    (h : ((poolSystem n).restrict fun s a => Discipline s a ∧ CancelFresh s a).Reachable s)
    (id : UInt32) : SearchEnds s.mem id := by
  obtain ⟨b, hb⟩ := QueueInv.of_reachable h
  exact SearchEnds.of_path hb.queue.path id

/-- With two jobs in the queue a search for an absent id ends. -/
theorem absent_search_ends :
    ∃ s : Sys 1, ((poolSystem 1).restrict fun s a => Discipline s a ∧ CancelFresh s a).Reachable s ∧
      waiting s.log = [.object 0, .object 1] ∧ SearchEnds s.mem 9 := by
  obtain ⟨s, hs, hw⟩ :
      ∃ s : Sys 1,
        ((poolSystem 1).restrict fun s a => Discipline s a ∧ CancelFresh s a).Reachable s ∧
        waiting s.log = [.object 0, .object 1] :=
    System.reachable_of_replay (startState_initial 1 2 0)
      [.init 0 (.object 0) ⟨some 1, none, none, none⟩,
        .init 0 (.object 1) ⟨some 1, none, none, none⟩,
        .submit 0 (.object 0), .submit 0 (.object 1), .cancel 9 2]
      (by decide)
  exact ⟨s, hs, hw, cancel_search_ends hs 9⟩

/-! ### A search that does not end -/

/-- From a job that is linked to itself, the search for another id never ends. -/
lemma cancelSearch_loop {m : Memory} {j : JobRef} {id : UInt32} (hnext : m.next j = some j)
    (hid : (m.jobs j).id ≠ id) (fuel : ℕ) : cancelSearch m id fuel (some j) = none := by
  induction fuel with
  | zero => rfl
  | succ fuel ih => rw [cancelSearch, if_neg hid, hnext, ih]

/-- **A cancel that hangs with the lock held.**  Two jobs are queued, a worker takes the
first and finishes it; the job is initialised and submitted again and ends up behind the
second one, whose `prev` still points at it.  The cancel of the second job links the first
one to itself, and the next cancel, of an id that was never given out, does not end. -/
theorem cancel_search_hangs :
    ∃ s : Sys 1, ((poolSystem 1).restrict Discipline).Reachable s ∧
      (∀ fuel, cancelSearch s.mem 9 fuel s.mem.pool.jobQueueHead = none) ∧
      ¬ SearchEnds s.mem 9 := by
  obtain ⟨s, hs, hhead, hnext, hloop, hid, hid'⟩ :
      ∃ s : Sys 1, ((poolSystem 1).restrict Discipline).Reachable s ∧
        s.mem.pool.jobQueueHead = some (.object 1) ∧
        s.mem.next (.object 1) = some (.object 0) ∧
        s.mem.next (.object 0) = some (.object 0) ∧
        (s.mem.jobs (.object 1)).id ≠ 9 ∧ (s.mem.jobs (.object 0)).id ≠ 9 :=
    System.reachable_of_replay (startState_initial 1 4 0)
      [.init 0 (.object 0) ⟨some 1, none, none, none⟩,
        .init 0 (.object 1) ⟨some 1, none, none, none⟩,
        .submit 0 (.object 0), .submit 0 (.object 1), .take 0, .dequeue 0, .execute 0 0,
        .finish 0, .notify 0, .init 0 (.object 0) ⟨some 1, none, none, none⟩,
        .submit 0 (.object 0), .cancel 2 1]
      (by decide)
  have hnever : ∀ fuel, cancelSearch s.mem 9 fuel s.mem.pool.jobQueueHead = none := by
    intro fuel
    rw [hhead]
    cases fuel with
    | zero => rfl
    | succ fuel => rw [cancelSearch, if_neg hid, hnext, cancelSearch_loop hloop hid']
  refine ⟨s, hs, hnever, ?_⟩
  rintro ⟨jobs, -, -, hends⟩
  rw [hnever] at hends
  cases hends

end OpenHsm
