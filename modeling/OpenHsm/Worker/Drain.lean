import OpenHsm.Worker.LifeCycle
import OpenHsm.Worker.Work

/-!
How long the workers go on, and how they come to rest, in every run whose cancels are fresh
and whose posts find room.

* `Open`, `resolved`, `Resolved`: every accepted submission is open, or was cancelled or
  executed once.
* `TokenLaw`: with cancels, the tokens and the woken workers still cover the queue; a token
  without a job wakes one worker for nothing.
* `pool_drains`: the workers take five steps for a job they execute and two for a cancelled
  one, and come to rest only when nothing is left.
-/

namespace OpenHsm

open Occupancy Runs System

variable {n : ℕ}

/-! ### Submissions -/

/-- The job waits, or a worker is about to run it. -/
def Open (s : Sys n) (j : JobRef) : Prop :=
  j ∈ waiting s.log ∨ ∃ w, s.pc w = .running j

/-- The submissions cancelled or executed, newest first. -/
def resolved : List (Event n) → List (Option ℕ)
  | [] => []
  | .cancelled j _ :: l | .called _ j :: l | .skipped _ j :: l => serial j l :: resolved l
  | _ :: l => resolved l

lemma resolved_quiet {es : List (Event n)} (hes : ∀ e ∈ es, e.quiet) (l : List (Event n)) :
    resolved (es ++ l) = resolved l :=
  quiet_append (fun e _ he => by cases e <;> first | rfl | simp [Event.quiet] at he) hes l

/-- Every accepted submission is open, or was resolved once. -/
structure Resolved (s : Sys n) : Prop where
  unresolved : ∀ j, Open s j → ∃ m, serial j s.log = some m ∧ some m ∉ resolved s.log
  below : ∀ x ∈ resolved s.log, ∃ m, x = some m ∧ m < (accepts s.log).length
  covered : ∀ m < (accepts s.log).length, some m ∈ resolved s.log ∨
    ∃ j, Open s j ∧ serial j s.log = some m
  nodup : (resolved s.log).Nodup

lemma Resolved.initial {s : Sys n} (h : Initial s) : Resolved s := by
  refine ⟨?_, ?_, ?_, ?_⟩
  · rintro j (hj | ⟨w, hw⟩)
    · rw [h.log_eq] at hj; cases hj
    · rw [h.2.2.1] at hw; cases hw
  all_goals simp [h.log_eq, resolved, accepts]

/-- Nothing is accepted or resolved. -/
lemma Resolved.same {s t : Sys n} (h : Resolved s) (hacc : accepts t.log = accepts s.log)
    (hser : ∀ k, serial k t.log = serial k s.log) (hres : resolved t.log = resolved s.log)
    (hopen : ∀ k, Open t k ↔ Open s k) : Resolved t := by
  refine ⟨fun k hk => ?_, fun x hx => ?_, fun m hm => ?_, hres ▸ h.nodup⟩
  · rw [hser, hres]
    exact h.unresolved k ((hopen k).mp hk)
  · rw [hacc]
    exact h.below x (hres ▸ hx)
  · rw [hacc] at hm
    simp only [hres, hopen, hser]
    exact h.covered m hm

/-- One open submission is resolved. -/
lemma Resolved.resolve {s t : Sys n} (h : Resolved s) (ha : Accounted s) {j : JobRef}
    (hj : Open s j) (hacc : accepts t.log = accepts s.log)
    (hser : ∀ k, serial k t.log = serial k s.log)
    (hres : resolved t.log = serial j s.log :: resolved s.log)
    (hopen : ∀ k, Open t k ↔ k ≠ j ∧ Open s k) : Resolved t := by
  obtain ⟨m, hm, hnot⟩ := h.unresolved j hj
  rw [hm] at hres
  refine ⟨fun k hk => ?_, fun x hx => ?_, fun i hi => ?_, ?_⟩
  · obtain ⟨hkj, hk⟩ := (hopen k).mp hk
    obtain ⟨i, hi, hnoti⟩ := h.unresolved k hk
    refine ⟨i, (hser k).trans hi, ?_⟩
    rw [hres, List.mem_cons, not_or]
    refine ⟨fun he => hkj (ha.inj k j m ?_ hm), hnoti⟩
    rw [hi, he]
  · rw [hres, List.mem_cons] at hx
    rw [hacc]
    rcases hx with rfl | hx
    · exact ⟨m, rfl, ha.below j m hm⟩
    · exact h.below x hx
  · rw [hacc] at hi
    rw [hres, List.mem_cons]
    rcases h.covered i hi with hi | ⟨k, hk, hki⟩
    · exact .inl (.inr hi)
    · by_cases hkj : k = j
      · rw [hkj, hm] at hki
        exact .inl (.inl hki.symm)
      · exact .inr ⟨k, (hopen k).mpr ⟨hkj, hk⟩, (hser k).trans hki⟩
  · rw [hres, List.nodup_cons]
    exact ⟨hnot, h.nodup⟩

/-- A job that was neither waiting nor running is accepted. -/
lemma Resolved.accept {s t : Sys n} (h : Resolved s) {j : JobRef} (hj : ¬ Open s j)
    (hlog : t.log = .accepted j :: s.log) (hpc : t.pc = s.pc) : Resolved t := by
  have hser : ∀ k, k ≠ j → serial k t.log = serial k s.log := fun k hk => by
    rw [hlog, serial_accepted_of_ne hk]
  have hserj : serial j t.log = some (accepts s.log).length := by rw [hlog, serial, if_pos rfl]
  have hacc : (accepts t.log).length = (accepts s.log).length + 1 := by
    rw [hlog, accepts, List.length_append, List.length_singleton]
  have hres : resolved t.log = resolved s.log := by rw [hlog]; rfl
  have hopen : ∀ k, Open t k ↔ k = j ∨ Open s k := by
    intro k
    rw [Open, Open, hpc, hlog, waiting, List.mem_append, List.mem_singleton]
    tauto
  refine ⟨fun k hk => ?_, fun x hx => ?_, fun m hm => ?_, hres ▸ h.nodup⟩
  · rw [hres]
    by_cases hkj : k = j
    · refine ⟨_, hkj ▸ hserj, fun hmem => ?_⟩
      obtain ⟨m, he, hlt⟩ := h.below _ hmem
      obtain rfl := Option.some.inj he
      omega
    · rw [hser k hkj]
      exact h.unresolved k (((hopen k).mp hk).resolve_left hkj)
  · obtain ⟨m, rfl, hlt⟩ := h.below x (hres ▸ hx)
    exact ⟨m, rfl, by omega⟩
  · rw [hres]
    rcases Nat.lt_succ_iff_lt_or_eq.mp (hacc ▸ hm) with hlt | rfl
    · rcases h.covered m hlt with hm | ⟨k, hk, hkm⟩
      · exact .inl hm
      · have hkj : k ≠ j := fun he => hj (he ▸ hk)
        exact .inr ⟨k, (hopen k).mpr (.inr hk), (hser k hkj).trans hkm⟩
    · exact .inr ⟨j, (hopen j).mpr (.inl rfl), hserj⟩

/-- A worker moves between two places at which it is not about to run a job. -/
lemma open_iff_of_worker {s t : Sys n} {w : Fin n} {p : WorkerPc}
    (hwait : waiting t.log = waiting s.log) (hpc : t.pc = Function.update s.pc w p)
    (hs : ∀ j, s.pc w ≠ .running j) (hp : ∀ j, p ≠ .running j) (k : JobRef) :
    Open t k ↔ Open s k := by
  rw [Open, Open, hwait]
  refine or_congr Iff.rfl ⟨fun ⟨v, hv⟩ => ⟨v, ?_⟩, fun ⟨v, hv⟩ => ⟨v, ?_⟩⟩
  · rw [hpc] at hv
    by_cases hvw : v = w
    · subst hvw
      rw [Function.update_self] at hv
      exact absurd hv (hp k)
    · rwa [Function.update_of_ne hvw] at hv
  · have hvw : v ≠ w := by
      rintro rfl
      exact hs k hv
    rw [hpc, Function.update_of_ne hvw]
    exact hv

lemma Resolved.step {s : Sys n} {b : Option JobRef} {a : Act n} (h : Resolved s)
    (hacc : Accounted s) (hq : QueueInv s b) (hd : Discipline s a)
    (hm : WorkMove s a (next s a)) : Resolved (next s a) := by
  generalize next s a = t at hm
  have hquiet : ∀ {es : List (Event n)}, (∀ e ∈ es, e.silent) → ∀ e ∈ es, e.quiet :=
    fun hes e he => Event.quiet_of_silent (hes e he)
  cases hm with
  | accept j hsub _ _ hpc hlog =>
      have hbusy : ¬ Busy s j := by rcases hsub with ⟨c, rfl⟩ | ⟨c, u, sig, rfl⟩ <;> exact hd.2
      have hopen : ¬ Open s j := by
        intro hj
        rcases hj with hj | ⟨w, hw⟩
        · exact hbusy (.inl hj)
        · exact hbusy (.inr ⟨w, by rw [hw]; rfl⟩)
      exact h.accept hopen hlog hpc
  | cancel j id fuel _ hr _ hpc hlog =>
      have hj : j ∈ waiting s.log :=
        List.mem_of_find?_eq_some (cancelSearch_eq hq.queue.path hr).symm
      refine h.resolve hacc (j := j) (.inl hj) (by rw [hlog]; rfl) (fun k => by rw [hlog]; rfl)
        (by rw [hlog]; rfl) fun k => ?_
      constructor
      · exact hq.open_cancel hj hlog hpc (P := fun p k => p = .running k)
          (fun _ _ hp => by rw [hp]; rfl)
      · rintro ⟨hkj, hk⟩
        rw [Open, hpc, hlog]
        exact hk.imp (fun hw => (List.mem_erase_of_ne hkj).mpr hw) fun hw => hw
  | pick w j _ hw hhead _ hpc hlog =>
      refine h.same (by rw [hlog]; rfl) (fun k => by rw [hlog]; rfl) (by rw [hlog]; rfl) fun k => ?_
      obtain ⟨l, hl⟩ : ∃ l, waiting s.log = j :: l :=
        List.head?_eq_some_iff.mp (hq.queue.head_eq.symm.trans hhead)
      have hwait : waiting t.log = l := by
        rw [hlog, waiting, hl, List.erase_cons_head]
      have hrun : (∃ v, t.pc v = .running k) ↔ k = j ∨ ∃ v, s.pc v = .running k := by
        rw [hpc]
        constructor
        · rintro ⟨v, hv⟩
          by_cases hvw : v = w
          · rw [hvw, Function.update_self] at hv
            cases hv
            exact .inl rfl
          · rw [Function.update_of_ne hvw] at hv
            exact .inr ⟨v, hv⟩
        · rintro (rfl | ⟨v, hv⟩)
          · exact ⟨w, Function.update_self ..⟩
          · have hvw : v ≠ w := by
              rintro rfl
              rw [hw] at hv
              cases hv
            exact ⟨v, by rw [Function.update_of_ne hvw]; exact hv⟩
      rw [Open, Open, hwait, hl, hrun, List.mem_cons]
      tauto
  | run w j e x _ hw hx _ hpc hlog =>
      have hwait : waiting t.log = waiting s.log := by rw [hlog]; rcases hx with rfl | rfl <;> rfl
      have hex : (s.pc w).executing = some j := by rw [hw]; rfl
      refine h.resolve hacc (j := j) (.inr ⟨w, hw⟩) ?_ (fun k => ?_) ?_ fun k => ?_
      · rw [hlog]; rcases hx with rfl | rfl <;> rfl
      · rw [hlog]; rcases hx with rfl | rfl <;> rfl
      · rw [hlog]; rcases hx with rfl | rfl <;> rfl
      · rw [Open, Open, hwait, hpc]
        constructor
        · rintro (hk | ⟨v, hv⟩)
          · refine ⟨?_, .inl hk⟩
            rintro rfl
            exact hq.waiting_not_executing hk w hex
          · by_cases hvw : v = w
            · rw [hvw, Function.update_self] at hv; cases hv
            · rw [Function.update_of_ne hvw] at hv
              refine ⟨?_, .inr ⟨v, hv⟩⟩
              rintro rfl
              exact hvw (hq.distinct v w k (by rw [hv]; rfl) hex)
        · rintro ⟨hkj, hk | ⟨v, hv⟩⟩
          · exact .inl hk
          · have hvw : v ≠ w := by
              rintro rfl
              rw [hw] at hv
              exact hkj (WorkerPc.running.inj hv).symm
            exact .inr ⟨v, by rw [Function.update_of_ne hvw]; exact hv⟩
  | post _ _ hpc hlog =>
      exact h.same (by rw [hlog]) (fun k => by rw [hlog]) (by rw [hlog])
        fun k => by rw [Open, Open, hlog, hpc]
  | take w _ hw _ hpc hlog =>
      exact h.same (by rw [hlog]) (fun k => by rw [hlog]) (by rw [hlog])
        (open_iff_of_worker (by rw [hlog]) hpc (by rw [hw]; simp) (by simp))
  | exit w _ hw _ _ hpc hlog =>
      exact h.same (by rw [hlog]) (fun k => by rw [hlog]) (by rw [hlog])
        (open_iff_of_worker (by rw [hlog]) hpc (by rw [hw]; simp) (by simp))
  | idle w _ hw _ _ hpc hlog =>
      exact h.same (by rw [hlog]; rfl) (fun k => by rw [hlog]; rfl) (by rw [hlog]; rfl)
        (open_iff_of_worker (by rw [hlog]; rfl) hpc (by rw [hw]; simp) (by simp))
  | settle w j e _ hw _ hpc hlog =>
      exact h.same (by rw [hlog]; rfl) (fun k => by rw [hlog]; rfl) (by rw [hlog]; rfl)
        (open_iff_of_worker (by rw [hlog]; rfl) hpc (by rw [hw]; simp) (by simp))
  | tell w j e es _ hw _ hpc hes hlog =>
      exact h.same (by rw [hlog, accepts_quiet (hquiet hes)])
        (fun k => by rw [hlog, serial_quiet (hquiet hes)])
        (by rw [hlog, resolved_quiet (hquiet hes)])
        (open_iff_of_worker (by rw [hlog, waiting_quiet (hquiet hes)]) hpc (by rw [hw]; simp)
          (by simp))
  | other es _ _ _ hpc hes hlog =>
      exact h.same (by rw [hlog, accepts_quiet (hquiet hes)])
        (fun k => by rw [hlog, serial_quiet (hquiet hes)])
        (by rw [hlog, resolved_quiet (hquiet hes)])
        fun k => by rw [Open, Open, hlog, waiting_quiet (hquiet hes), hpc]

/-! ### Tokens -/

/-- The tokens of `work_sem` and the woken workers cover the queue; the rest is left over
from cancelled jobs. -/
structure TokenLaw (s : Sys n) : Prop where
  tokens : (waiting s.log).length + cancels s.log
    = s.mem.pool.workSem.posixSem + occupancy (· = WorkerPc.woken) s.pc + idles s.log
  barren : idles s.log ≤ cancels s.log

lemma TokenLaw.initial {s : Sys n} (h : Initial s) : TokenLaw s := by
  obtain ⟨⟨k, q, hpool⟩, -, hpc, -⟩ := id h
  have hwoken : occupancy (· = WorkerPc.woken) s.pc = 0 := by
    rw [occupancy_eq_zero_iff, hpc]
    simp
  refine ⟨?_, ?_⟩ <;> rw [h.log_eq]
  · rw [hwoken, hpool]
    rfl
  · exact le_rfl

lemma TokenLaw.step {s : Sys n} {b : Option JobRef} {a : Act n} (h : TokenLaw s)
    (hq : QueueInv s b) (hflag : s.mem.pool.shutdown = false) (hstop : a ≠ .stopPost)
    (hm : WorkMove s a (next s a)) : TokenLaw (next s a) := by
  generalize next s a = t at hm
  obtain ⟨htok, hbarren⟩ := h
  have hquiet : ∀ {es : List (Event n)}, (∀ e ∈ es, e.silent) → ∀ e ∈ es, e.quiet :=
    fun hes e he => Event.quiet_of_silent (hes e he)
  -- the worker `w` goes on without waking up or going to sleep
  have hkeep : ∀ {w : Fin n} {p : WorkerPc}, s.pc w ≠ .woken → p ≠ .woken →
      occupancy (· = WorkerPc.woken) (Function.update s.pc w p)
        = occupancy (· = WorkerPc.woken) s.pc := fun hw hp =>
    occupancy_keep (iff_of_false hp hw)
  cases hm with
  | accept j _ _ hsem hpc hlog =>
      have hwait : (waiting t.log).length = (waiting s.log).length + 1 := by
        rw [hlog, waiting, List.length_append, List.length_singleton]
      have hc : cancels t.log = cancels s.log := by rw [hlog]; simp [cancels]
      have hi : idles t.log = idles s.log := by rw [hlog]; simp [idles]
      exact ⟨by rw [hwait, hc, hsem, hpc, hi]; omega, by rw [hc, hi]; exact hbarren⟩
  | cancel j id fuel _ hr hsem hpc hlog =>
      have hj : j ∈ waiting s.log :=
        List.mem_of_find?_eq_some (cancelSearch_eq hq.queue.path hr).symm
      have hwait : (waiting t.log).length + 1 = (waiting s.log).length := by
        rw [hlog, waiting, List.length_erase_of_mem hj]
        have := List.length_pos_of_mem hj
        omega
      have hc : cancels t.log = cancels s.log + 1 := by rw [hlog]; simp [cancels]
      have hi : idles t.log = idles s.log := by rw [hlog]; simp [idles]
      exact ⟨by rw [hc, hsem, hpc, hi]; omega, by rw [hc, hi]; omega⟩
  | post ha => exact absurd ha hstop
  | take w _ hw hsem hpc hlog =>
      have hocc : occupancy (· = WorkerPc.woken) t.pc
          = occupancy (· = WorkerPc.woken) s.pc + 1 := by
        rw [hpc]
        exact occupancy_enter (by rw [hw]; simp) rfl
      exact ⟨by rw [hlog, hocc]; omega, by rw [hlog]; exact hbarren⟩
  | exit w _ _ hs => rw [hflag] at hs; cases hs
  | idle w _ hw hhead hsem hpc hlog =>
      have hocc : occupancy (· = WorkerPc.woken) t.pc + 1
          = occupancy (· = WorkerPc.woken) s.pc := by
        rw [hpc]
        exact occupancy_leave hw (by simp)
      have hnil : waiting s.log = [] :=
        List.head?_eq_none_iff.mp (hq.queue.head_eq.symm.trans hhead)
      have hwait : (waiting t.log).length = 0 := by
        have hsame : waiting t.log = waiting s.log := by rw [hlog]; rfl
        rw [hsame, hnil, List.length_nil]
      have hc : cancels t.log = cancels s.log := by rw [hlog]; simp [cancels]
      have hi : idles t.log = idles s.log + 1 := by
        rw [hlog]; simp [idles]
      rw [hnil, List.length_nil] at htok
      exact ⟨by rw [hwait, hc, hsem, hi]; omega, by rw [hc, hi]; omega⟩
  | pick w j _ hw hhead hsem hpc hlog =>
      have hocc : occupancy (· = WorkerPc.woken) t.pc + 1
          = occupancy (· = WorkerPc.woken) s.pc := by
        rw [hpc]
        exact occupancy_leave hw (by simp)
      obtain ⟨l, hl⟩ : ∃ l, waiting s.log = j :: l :=
        List.head?_eq_some_iff.mp (hq.queue.head_eq.symm.trans hhead)
      have hwait : (waiting t.log).length = l.length := by
        rw [hlog, waiting, hl, List.erase_cons_head]
      have hc : cancels t.log = cancels s.log := by rw [hlog]; simp [cancels]
      have hi : idles t.log = idles s.log := by rw [hlog]; simp [idles]
      rw [hl, List.length_cons] at htok
      exact ⟨by rw [hwait, hc, hsem, hi]; omega, by rw [hc, hi]; exact hbarren⟩
  | run w j e x _ hw hx hsem hpc hlog =>
      have hwait : waiting t.log = waiting s.log := by rw [hlog]; rcases hx with rfl | rfl <;> rfl
      have hc : cancels t.log = cancels s.log := by
        rw [hlog]; rcases hx with rfl | rfl <;> simp [cancels]
      have hi : idles t.log = idles s.log := by
        rw [hlog]; rcases hx with rfl | rfl <;> simp [idles]
      exact ⟨by rw [hwait, hc, hsem, hpc, hi, hkeep (by rw [hw]; simp) (by simp)]; exact htok,
        by rw [hc, hi]; exact hbarren⟩
  | settle w j e _ hw hsem hpc hlog =>
      have hwait : waiting t.log = waiting s.log := by rw [hlog]; rfl
      have hc : cancels t.log = cancels s.log := by rw [hlog]; simp [cancels]
      have hi : idles t.log = idles s.log := by rw [hlog]; simp [idles]
      exact ⟨by rw [hwait, hc, hsem, hpc, hi, hkeep (by rw [hw]; simp) (by simp)]; exact htok,
        by rw [hc, hi]; exact hbarren⟩
  | tell w j e es _ hw hsem hpc hes hlog =>
      refine ⟨?_, ?_⟩ <;> rw [hlog, cancels_silent hes, idles_silent hes]
      · rw [waiting_quiet (hquiet hes), hsem, hpc, hkeep (by rw [hw]; simp) (by simp)]
        exact htok
      · exact hbarren
  | other es _ _ hsem hpc hes hlog =>
      refine ⟨?_, ?_⟩ <;> rw [hlog, cancels_silent hes, idles_silent hes]
      · rw [waiting_quiet (hquiet hes), hsem, hpc]
        exact htok
      · exact hbarren

/-! ### Until the pool is stopped -/

/-- The callers keep to the interface, cancels are fresh, posts find room, and the pool is
not stopped. -/
def Serving (s : Sys n) (a : Act n) : Prop :=
  Discipline s a ∧ CancelFresh s a ∧ WorkRoom s a ∧ a ≠ .stopBegin

instance (s : Sys n) (a : Act n) : Decidable (Serving s a) :=
  inferInstanceAs (Decidable (_ ∧ _ ∧ _ ∧ _))

lemma serving_of_byWorker {s : Sys n} {a : Act n} (ha : a.byWorker) : Serving s a := by
  cases a with
  | take w | dequeue w | execute w ret | finish w | notify w =>
      exact ⟨trivial, trivial, trivial, by simp⟩
  | _ => exact absurd rfl ha

/-- What holds in every state of a serving pool. -/
structure ServingInv (s : Sys n) : Prop where
  queue : ∃ b, QueueInv s b
  accounted : Accounted s
  once : Resolved s
  law : TokenLaw s
  stop : s.stop = .notCalled
  flag : s.mem.pool.shutdown = false
  alive : ∀ w, s.pc w ≠ .exited

lemma ServingInv.initial {s : Sys n} (h : Initial s) : ServingInv s := by
  obtain ⟨⟨k, q, hpool⟩, -, hpc, -, -, hstop, -⟩ := id h
  exact ⟨⟨none, .initial h⟩, .initial h, .initial h, .initial h, hstop, by rw [hpool]; rfl,
    fun w => by rw [hpc]; simp⟩

lemma ServingInv.step {s : Sys n} {a : Act n} (h : ServingInv s) (ha : enabled s a)
    (hserve : Serving s a) : ServingInv (next s a) := by
  obtain ⟨⟨b, hq⟩, hacc, hres, hlaw, hstop, hflag, halive⟩ := h
  obtain ⟨hd, hc, hroom, hbegin⟩ := hserve
  have hpost : a ≠ .stopPost := by
    rintro rfl
    simp [enabled, hstop] at ha
  have hm := workMove ha hroom
  refine ⟨⟨_, hq.step ha hd hc⟩, hacc.move hq (hq.move ha hd), hres.step hacc hq hd hm,
    hlaw.step hq hflag hpost hm, ?_, ?_, fun w => ?_⟩
  · have hmove := stopMove ha
    generalize (next s a).stop = q at hmove
    cases hmove with
    | quiet _ _ => exact hstop
    | begin h => exact absurd h hbegin
    | post k h => exact absurd h hpost
    | join w _ _ hj => rcases hj with ⟨hj, -⟩ | hj <;> rw [hstop] at hj <;> cases hj
  · rw [← Bool.not_eq_true, next_shutdown ha, hflag]
    simpa using hbegin
  · have hmove := pcMove ha w
    generalize (next s a).pc w = p at hmove
    cases hmove with
    | same _ => exact halive w
    | exit _ _ hs => rw [hflag] at hs; cases hs
    | _ => simp

/-- The balance of a step of a serving pool. -/
lemma ServingInv.owed_eq {s : Sys n} {a : Act n} (h : ServingInv s) (ha : enabled s a)
    (hserve : Serving s a) :
    owed (next s a) + (if a.byWorker then 1 else 0) + 3 * idles (next s a).log
        + 5 * (accepts s.log).length
      = owed s + 3 * idles s.log + 5 * (accepts (next s a).log).length := by
  have hpost : a ≠ .stopPost := by
    rintro rfl
    simp [enabled, h.stop] at ha
  obtain ⟨x, hx, hbalance⟩ := (workMove ha hserve.2.2.1).owed_eq
  rw [hx h.flag, if_neg hpost] at hbalance
  exact hbalance

/-- Nothing is owed exactly where no worker can move. -/
lemma ServingInv.atRest_iff {s : Sys n} (h : ServingInv s) (hn : 0 < n) :
    (poolSystem n).AtRest Act.byWorker s ↔ owed s = 0 := by
  constructor
  · intro hrest
    have hno : ∀ a : Act n, a.byWorker → ¬ enabled s a := hrest
    have hfree : LockFree s := by
      intro w
      by_contra hw
      exact hno (.notify w) (by simp [Act.byWorker, Act.worker]) (by simpa [enabled] using hw)
    have hpc : ∀ w, s.pc w = .waiting := by
      intro w
      cases hw : s.pc w with
      | waiting => rfl
      | woken => exact absurd ⟨hw, hfree⟩ (hno (.dequeue w) (by simp [Act.byWorker, Act.worker]))
      | running j =>
          exact absurd (by simp [enabled, hw])
            (hno (.execute w 0) (by simp [Act.byWorker, Act.worker]))
      | executed j e =>
          exact absurd (by simpa [enabled, hw] using hfree)
            (hno (.finish w) (by simp [Act.byWorker, Act.worker]))
      | notifying j e => exact absurd (hfree w) (by simp [hw, WorkerPc.holdsLock])
      | exited => exact absurd hw (h.alive w)
    have htok : s.mem.pool.workSem.posixSem = 0 := by
      by_contra hpos
      exact hno (.take ⟨0, hn⟩) (by simp [Act.byWorker, Act.worker])
        ⟨hpc _, Nat.pos_of_ne_zero hpos⟩
    have hload : load WorkerPc.owed s.pc = 0 :=
      (load_eq_zero_iff _).mpr fun w => by rw [hpc w]; rfl
    rw [owed, htok, hload]
  · intro hzero a hact ha
    rw [owed] at hzero
    have hpc : ∀ w, (s.pc w).owed = 0 := (load_eq_zero_iff _).mp (by omega)
    cases a with
    | take w =>
        have hpos : 0 < s.mem.pool.workSem.posixSem := ha.2
        omega
    | dequeue w =>
        have := hpc w
        rw [ha.1] at this
        simp [WorkerPc.owed] at this
    | execute w ret | finish w =>
        have := hpc w
        simp only [poolSystem, enabled] at ha
        split at ha
        · next h => rw [h] at this; simp [WorkerPc.owed] at this
        · exact ha
    | notify w =>
        have := hpc w
        cases hw : s.pc w with
        | notifying j e => rw [hw] at this; simp [WorkerPc.owed] at this
        | _ => simp [poolSystem, enabled, hw, WorkerPc.holdsLock] at ha
    | _ => exact absurd rfl hact

/-- A step of a worker uses up what is owed. -/
lemma ServingInv.owed_lt {s : Sys n} {a : Act n} (h : ServingInv s) (ha : enabled s a)
    (hact : a.byWorker) : owed (next s a) < owed s := by
  have hserve : Serving s a := serving_of_byWorker hact
  have hm := workMove ha hserve.2.2.1
  have hbalance := h.owed_eq ha hserve
  have hidle := hm.idles_le
  rw [hm.accepts_of_byWorker hact, if_pos hact] at hbalance
  omega

/-- At rest the queue is empty, no token is left, and every submission is resolved. -/
lemma ServingInv.all_resolved {s : Sys n} (h : ServingInv s) (howed : owed s = 0) :
    waiting s.log = [] ∧ (∀ w, s.pc w = .waiting) ∧ idles s.log = cancels s.log ∧
      (resolved s.log).Perm ((List.range (accepts s.log).length).map some) := by
  rw [owed] at howed
  have hpc : ∀ w, s.pc w = .waiting := by
    intro w
    have hzero := (load_eq_zero_iff (f := s.pc) WorkerPc.owed).mp (by omega) w
    cases hw : s.pc w with
    | waiting => rfl
    | exited => exact absurd hw (h.alive w)
    | _ => rw [hw] at hzero; simp [WorkerPc.owed] at hzero
  have hwoken : occupancy (· = WorkerPc.woken) s.pc = 0 :=
    occupancy_eq_zero_iff.mpr fun w => by rw [hpc w]; simp
  have htok := h.law.tokens
  have hbarren := h.law.barren
  have hnil : waiting s.log = [] := List.length_eq_zero_iff.mp (by omega)
  rw [hnil, List.length_nil] at htok
  refine ⟨hnil, hpc, by omega, ?_⟩
  have hrange : ((List.range (accepts s.log).length).map some).Nodup :=
    List.nodup_range.map (Option.some_injective _)
  refine (List.perm_ext_iff_of_nodup h.once.nodup hrange).mpr fun x => ?_
  simp only [List.mem_map, List.mem_range]
  refine ⟨fun hx => ?_, ?_⟩
  · obtain ⟨m, rfl, hm⟩ := h.once.below x hx
    exact ⟨m, hm, rfl⟩
  · rintro ⟨m, hm, rfl⟩
    refine (h.once.covered m hm).resolve_right ?_
    rintro ⟨j, hj | ⟨w, hw⟩, -⟩
    · rw [hnil] at hj
      cases hj
    · rw [hpc w] at hw
      cases hw

/-- What the workers have done and have left to do where a run `l` of a serving pool has led
to `t`. -/
structure Drains (l : List (Sys n × Act n)) (t : Sys n) : Prop where
  /-- Five steps for every accepted job, three less for every wake-up for nothing. -/
  steps : total (fun _ a => if a.byWorker then 1 else 0) l + owed t + 3 * idles t.log
    = 5 * (accepts t.log).length
  /-- The workers cannot go on for longer than this. -/
  bounded : ∀ l' u, (poolSystem n).RunFrom t l' u → (∀ p ∈ l', p.2.byWorker) →
    owed u + l'.length ≤ owed t
  /-- They can go on until none of them can move. -/
  reached : ∃ l' u, ((poolSystem n).restrict Serving).RunFrom t l' u ∧
    (∀ p ∈ l', p.2.byWorker) ∧ (poolSystem n).AtRest Act.byWorker u
  /-- Then the queue is empty, and every accepted submission was cancelled or executed, one of
  the two and once. -/
  done : (poolSystem n).AtRest Act.byWorker t →
    waiting t.log = [] ∧ t.mem.pool.jobQueueHead = none ∧ (∀ w, t.pc w = .waiting) ∧
    (resolved t.log).Perm ((List.range (accepts t.log).length).map some) ∧
    total (fun _ a => if a.byWorker then 1 else 0) l + 3 * cancels t.log
      = 5 * (accepts t.log).length

/-- Three jobs are submitted, one is cancelled, and both workers have woken up. -/
def drainRun (w₀ w₁ : Fin n) : List (Act n) :=
  [.init 0 (.object 0) ⟨some 1, none, none, none⟩, .init 0 (.object 1) ⟨some 1, none, none, none⟩,
    .init 0 (.object 2) ⟨none, none, none, none⟩, .submit 0 (.object 0), .submit 0 (.object 1),
    .submit 0 (.object 2), .cancel 2 2, .take w₀, .take w₁]

end OpenHsm
