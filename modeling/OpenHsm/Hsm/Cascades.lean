import Mathlib.Logic.Hydra
import OpenHsm.Hsm.ActiveObjects
import OpenHsm.Library.Behaviour

/-!
What the machines of `ActiveObjects` have to do yet, and that they get it done.

* `Duty`, `ComesOf`: what a dispatcher has to do, and what can come of it: a handler may enter
  states, delegate and post, and a posted event becomes a call of a handler.
* `duties`, `allDuties`: the duties of one machine and of all.
* `duties_step`: a step of a dispatcher replaces one duty by finitely many that come of it; the
  handlers' data have no part in it.
* `comesOf_wellFounded`: no endless chain of duties, if none starts at the call of a handler.
* `CascadesEnd`, `cascades_end`: then the dispatchers, left alone, come to rest in every run,
  and a fair run handles every event unless there is a deadlock.
-/

namespace OpenHsm

open Relation Runs System WaitChain

/-! ### Duties -/

/-- What a dispatcher has to do. -/
inductive Duty (σ υ ι : Type*) where
  /-- To create its queue. -/
  | start (i : ι)
  /-- To run what is left of a handler. -/
  | run (i : ι) (b : Body σ (PostData υ ι))
  /-- To make a post that a handler has asked for. -/
  | ask (j : ι) (r : RawEvent)
  /-- To wait in a post. -/
  | wait (j : ι) (r : RawEvent)
  | queued (j : ι) (r : RawEvent)
  /-- To dispatch a received event. -/
  | hand (j : ι) (msg : List UInt8)

variable {σ υ ι : Type*} (S : ι → σ → HsmState σ (PostData υ ι))

/-- `ComesOf S d d'`: one step towards `d'` can leave `d` to do. -/
inductive ComesOf : Duty σ υ ι → Duty σ υ ι → Prop
  | read (i : ι) (k : PostData υ ι → HsmActive σ → Body σ (PostData υ ι)) (u : PostData υ ι)
      (h : HsmActive σ) : ComesOf (.run i (k u h)) (.run i (.read k))
  | act (i : ι) (f : PostData υ ι → PostData υ ι) (k : Body σ (PostData υ ι)) :
      ComesOf (.run i k) (.run i (.act f k))
  | asks (i j : ι) (f : PostData υ ι → PostData υ ι) (k : Body σ (PostData υ ι))
      (u : PostData υ ι) (r : RawEvent) (timeout : UInt32) : u.request = none →
      (f u).request = some (j, r, timeout) → ComesOf (.ask j r) (.run i (.act f k))
  | transit (i : ι) (t : HsmActive σ → σ) (k : Body σ (PostData υ ι)) :
      ComesOf (.run i k) (.run i (.transit t k))
  | enters (i : ι) (t : HsmActive σ → σ) (k : Body σ (PostData υ ι)) (h : HsmActive σ) :
      ComesOf (.run i ((S i (t h)).handler entryEvent)) (.run i (.transit t k))
  | super (i : ι) (e : HsmEvent) (k : Body σ (PostData υ ι)) :
      ComesOf (.run i k) (.run i (.super e k))
  | delegates (i : ι) (e : HsmEvent) (k : Body σ (PostData υ ι)) (s p : σ) :
      (S i s).parent = some p → ComesOf (.run i ((S i p).handler e)) (.run i (.super e k))
  | waits (j : ι) (r : RawEvent) : ComesOf (.wait j r) (.ask j r)
  | sends (j : ι) (r : RawEvent) : ComesOf (.queued j r) (.ask j r)
  | sendsLate (j : ι) (r : RawEvent) : ComesOf (.queued j r) (.wait j r)
  | receives (j : ι) (r : RawEvent) : ComesOf (.hand j r.bytes) (.queued j r)
  | dispatches (j : ι) (msg : List UInt8) (s : σ) :
      ComesOf (.run j ((S j s).handler (readEvent msg))) (.hand j msg)

variable {S}

section Chains

variable {i j : ι} {k : Body σ (PostData υ ι)} {r : RawEvent}

lemma acc_ret (v : ℤ) : Acc (ComesOf S) (.run i (.ret v)) := ⟨_, by rintro _ ⟨⟩⟩

lemma acc_read {k : PostData υ ι → HsmActive σ → Body σ (PostData υ ι)}
    (hk : ∀ u h, Acc (ComesOf S) (.run i (k u h))) : Acc (ComesOf S) (.run i (.read k)) :=
  ⟨_, by rintro _ ⟨⟩; exact hk _ _⟩

lemma acc_act {f : PostData υ ι → PostData υ ι}
    (hf : ∀ u, u.request = none → (f u).request = none) (hk : Acc (ComesOf S) (.run i k)) :
    Acc (ComesOf S) (.run i (.act f k)) := by
  refine ⟨_, fun d hd => ?_⟩
  cases hd with
  | act => exact hk
  | asks _ _ _ _ u _ _ hu hreq => rw [hf u hu] at hreq; cases hreq

lemma acc_transit {t : HsmActive σ → σ}
    (ht : ∀ h, Acc (ComesOf S) (.run i ((S i (t h)).handler entryEvent)))
    (hk : Acc (ComesOf S) (.run i k)) : Acc (ComesOf S) (.run i (.transit t k)) := by
  refine ⟨_, fun d hd => ?_⟩
  cases hd with
  | transit => exact hk
  | enters => exact ht _

lemma acc_hand {msg : List UInt8}
    (hj : ∀ s, Acc (ComesOf S) (.run j ((S j s).handler (readEvent msg)))) :
    Acc (ComesOf S) (.hand j msg) :=
  ⟨_, by rintro _ ⟨⟩; exact hj _⟩

lemma acc_queued (hj : ∀ s, Acc (ComesOf S) (.run j ((S j s).handler r.event))) :
    Acc (ComesOf S) (.queued j r) :=
  ⟨_, by rintro _ ⟨⟩; exact acc_hand hj⟩

lemma acc_wait (hj : ∀ s, Acc (ComesOf S) (.run j ((S j s).handler r.event))) :
    Acc (ComesOf S) (.wait j r) :=
  ⟨_, by rintro _ ⟨⟩; exact acc_queued hj⟩

/-- A post leads to nothing endless if the handlers of its machine do not with its event. -/
lemma acc_ask (hj : ∀ s, Acc (ComesOf S) (.run j ((S j s).handler r.event))) :
    Acc (ComesOf S) (.ask j r) := by
  refine ⟨_, fun d hd => ?_⟩
  cases hd with
  | waits => exact acc_wait hj
  | sends => exact acc_queued hj

lemma acc_postTo {timeout : UInt32} {k : ℤ → Body σ (PostData υ ι)}
    (hj : ∀ s, Acc (ComesOf S) (.run j ((S j s).handler r.event)))
    (hk : ∀ v, Acc (ComesOf S) (.run i (k v))) :
    Acc (ComesOf S) (.run i (postTo j r timeout k)) := by
  refine ⟨_, fun d hd => ?_⟩
  cases hd with
  | act => exact acc_read fun _ _ => hk _
  | asks _ _ _ _ u _ _ _ hreq =>
      obtain ⟨rfl, rfl, -⟩ : j = _ ∧ r = _ ∧ timeout = _ := by simpa using hreq
      exact acc_ask hj

end Chains

/-- **The calls of the handlers decide**: if no endless chain of duties starts at one of them,
there is none. -/
lemma comesOf_wellFounded
    (hS : ∀ i s e, Acc (ComesOf S) (.run i ((S i s).handler e))) : WellFounded (ComesOf S) := by
  have hrun : ∀ i b, Acc (ComesOf S) (.run i b) := by
    intro i b
    induction b with
    | ret v => exact acc_ret v
    | read k ih => exact acc_read ih
    | act f k ih =>
        refine ⟨_, fun d hd => ?_⟩
        cases hd with
        | act => exact ih
        | asks => exact acc_ask fun _ => hS _ _ _
    | transit t k ih => exact acc_transit (fun _ => hS _ _ _) ih
    | super e k ih =>
        refine ⟨_, fun d hd => ?_⟩
        cases hd with
        | super => exact ih
        | delegates => exact hS _ _ _
  refine ⟨fun d => ?_⟩
  cases d with
  | start i => exact ⟨_, by rintro _ ⟨⟩⟩
  | run i b => exact hrun i b
  | ask j r => exact acc_ask fun _ => hS _ _ _
  | wait j r => exact acc_wait fun _ => hS _ _ _
  | queued j r => exact acc_queued fun _ => hS _ _ _
  | hand j msg => exact acc_hand fun _ => hS _ _ _

/-! ### The duties of a state -/

/-- What the loop of a dispatcher has to do. -/
def loopDuties (i : ι) : RunPc → Multiset (Duty σ υ ι)
  | .entry => {.start i}
  | .holding msg => {.hand i msg}
  | .loop | .exited => 0

/-- A handler for each call on the stack. -/
def stackDuties (i : ι) (stack : List (Frame σ (PostData υ ι))) : Multiset (Duty σ υ ι) :=
  Multiset.ofList (stack.map fun fr => .run i fr.body)

/-- The post that a handler has asked for. -/
def postDuties (waits : Bool) : Option (ι × RawEvent × UInt32) → Multiset (Duty σ υ ι)
  | some (j, r, _) => {if waits then .wait j r else .ask j r}
  | none => 0

/-- The events in the queue. -/
def queueDuties (i : ι) (l : Option (List RawEvent)) : Multiset (Duty σ υ ι) :=
  Multiset.ofList ((l.getD []).map (.queued i))

/-- What a machine has to do. -/
def duties (i : ι) (A : ActiveObject σ υ ι) : Multiset (Duty σ υ ι) :=
  loopDuties i A.pc + stackDuties i A.thread.stack + postDuties A.waits A.thread.user.request +
    queueDuties i A.queue

/-- What all of them have to do. -/
def allDuties [Fintype ι] (s : ι → ActiveObject σ υ ι) : Multiset (Duty σ υ ι) :=
  ∑ i, duties i (s i)

@[simp] lemma stackDuties_nil (i : ι) : stackDuties (σ := σ) (υ := υ) i [] = 0 := rfl

@[simp] lemma stackDuties_cons (i : ι) (fr : Frame σ (PostData υ ι))
    (stack : List (Frame σ (PostData υ ι))) :
    stackDuties i (fr :: stack) = {.run i fr.body} + stackDuties i stack := rfl

@[simp] lemma queueDuties_cons (i : ι) (r : RawEvent) (l : List RawEvent) :
    queueDuties (σ := σ) (υ := υ) i (some (r :: l)) = {.queued i r} + queueDuties i (some l) := rfl

@[simp] lemma queueDuties_append (i : ι) (r : RawEvent) (l : List RawEvent) :
    queueDuties (σ := σ) (υ := υ) i (some (l ++ [r])) = queueDuties i (some l) + {.queued i r} := by
  simp [queueDuties, ← Multiset.coe_add]

variable [DecidableEq ι] [Fintype ι] {size : ι → ℤ} {s t : ι → ActiveObject σ υ ι}
  {a : ActiveAct υ ι} {i j : ι}

lemma allDuties_update (s : ι → ActiveObject σ υ ι) (i : ι) (A : ActiveObject σ υ ι) :
    allDuties (Function.update s i A) + duties i (s i) = allDuties s + duties i A :=
  sum_apply_update duties s i A

/-- A machine that has replaced a duty of its own by what comes of it. -/
lemma cut_of_update {A : ActiveObject σ υ ι} {d : Duty σ υ ι} {l : Multiset (Duty σ υ ι)}
    (hl : ∀ d' ∈ l, ComesOf S d' d) (h : duties i A + {d} = duties i (s i) + l) :
    CutExpand (ComesOf S) (allDuties (Function.update s i A)) (allDuties s) := by
  refine ⟨l, d, hl, add_right_cancel (b := duties i (s i)) ?_⟩
  calc allDuties (Function.update s i A) + {d} + duties i (s i)
      = allDuties s + (duties i A + {d}) := by
        rw [add_right_comm, allDuties_update, add_assoc]
    _ = allDuties s + l + duties i (s i) := by
        rw [h, add_comm (duties i (s i)), add_assoc]

/-- An event more is a duty more. -/
lemma allDuties_setQueue {l : List RawEvent} {r : RawEvent} (hj : (s j).queue = some l) :
    allDuties (setQueue s j (l ++ [r])) = allDuties s + {.queued j r} := by
  refine add_right_cancel (b := duties j (s j)) ?_
  rw [setQueue, allDuties_update, add_assoc, add_comm {_}]
  simp only [duties, hj, queueDuties_append, add_assoc]

/-- A post that has returned is a duty less. -/
lemma allDuties_postDone {p : ι × RawEvent × UInt32} (ret : ℤ)
    (hreq : (s i).thread.user.request = some p) :
    allDuties (postDone ret s i) + postDuties (s i).waits (some p) = allDuties s := by
  refine add_right_cancel (b := duties i (s i)) ?_
  rw [postDone, add_right_comm, allDuties_update, add_assoc]
  simp only [duties, hreq, postDuties]
  abel

/-! ### One step -/

/-- A step of a handler uses up a step of its body, which may call another handler or ask for a
post. -/
lemma ActiveInv.cut_handler (h : ActiveInv size s) (hstack : (s i).thread.stack ≠ [])
    (hreq : (s i).thread.user.request = none) :
    CutExpand (ComesOf S)
      (allDuties (Function.update s i { s i with thread := stepHandler (S i) (s i).thread }))
      (allDuties s) := by
  have hw : (s i).waits = false := by simpa using (h.own i).not_waits hreq
  obtain ⟨⟨b, o⟩, rest, hs⟩ := List.exists_cons_of_ne_nil hstack
  cases b with
  | ret v =>
      refine cut_of_update (d := .run i (.ret v)) (l := 0) (by simp) ?_
      simp only [duties, stepHandler, hs, stackDuties_cons]
      abel
  | read k =>
      refine cut_of_update (d := .run i (.read k))
        (l := {.run i (k (s i).thread.user (s i).thread.hsm)}) ?_ ?_
      · simpa using ComesOf.read i k _ _
      · simp only [duties, stepHandler, hs, stackDuties_cons]
        abel
  | act f k =>
      refine cut_of_update (d := .run i (.act f k))
        (l := {.run i k} + postDuties false (f (s i).thread.user).request) ?_ ?_
      · intro d hd
        rcases Multiset.mem_add.mp hd with hd | hd
        · rw [Multiset.mem_singleton.mp hd]
          exact .act i f k
        · rcases hf : (f (s i).thread.user).request with _ | ⟨j, r, timeout⟩
          · simp [hf, postDuties] at hd
          · obtain rfl : d = .ask j r := by simpa [hf, postDuties] using hd
            exact .asks i j f k _ r timeout hreq hf
      · simp only [duties, stepHandler, hs, hw, hreq, stackDuties_cons, postDuties]
        abel
  | transit t k =>
      refine cut_of_update (d := .run i (.transit t k))
        (l := {.run i k} + {.run i ((S i (t { (s i).thread.hsm with
          histroy := (s i).thread.hsm.current })).handler entryEvent)}) ?_ ?_
      · intro d hd
        rcases Multiset.mem_add.mp hd with hd | hd <;> rw [Multiset.mem_singleton.mp hd]
        · exact .transit i t k
        · exact .enters i t k _
      · simp only [duties, stepHandler, hs, stateTransit, callHandler, stackDuties_cons]
        abel
  | super e k =>
      rcases hp : (S i (s i).thread.hsm.current).parent with _ | p
      · refine cut_of_update (d := .run i (.super e k)) (l := {.run i k}) ?_ ?_
        · simpa using ComesOf.super i e k
        · simp only [duties, stepHandler, hs, stateSuper, hp, stackDuties_cons]
          abel
      · refine cut_of_update (d := .run i (.super e k))
          (l := {.run i k} + {.run i ((S i p).handler e)}) ?_ ?_
        · intro d hd
          rcases Multiset.mem_add.mp hd with hd | hd <;> rw [Multiset.mem_singleton.mp hd]
          · exact .super i e k
          · exact .delegates i e k _ p hp
        · simp only [duties, stepHandler, hs, stateSuper, hp, callHandler, stackDuties_cons]
          abel

/-- A post that returns is replaced by the event, if it has sent it. -/
lemma cut_postDone {r : RawEvent} {timeout : UInt32} (ret : ℤ)
    (hreq : (s i).thread.user.request = some (j, r, timeout)) (hsent : Sent size j r s t) :
    CutExpand (ComesOf S) (allDuties (postDone ret t i)) (allDuties s) := by
  rcases hsent with rfl | ⟨l, hj, -, rfl⟩
  · refine ⟨0, if (t i).waits then .wait j r else .ask j r, by simp, ?_⟩
    rw [add_zero]
    exact allDuties_postDone ret hreq
  · have hsame : (setQueue s j (l ++ [r]) i).thread = (s i).thread ∧
        (setQueue s j (l ++ [r]) i).waits = (s i).waits := by
      by_cases hij : i = j
      · subst hij
        simp [setQueue]
      · simp [setQueue, Function.update_of_ne hij]
    refine ⟨{.queued j r}, if (s i).waits then .wait j r else .ask j r, ?_, ?_⟩
    · intro d hd
      rw [Multiset.mem_singleton.mp hd]
      split
      · exact .sendsLate j r
      · exact .sends j r
    · rw [← allDuties_setQueue hj, ← hsame.2]
      exact allDuties_postDone ret (hsame.1 ▸ hreq)

/-- **A step of a dispatcher replaces one duty by finitely many that come of it.** -/
lemma ActiveInv.cut (h : ActiveInv size s) (hm : ActiveMove S size s a t) (hact : a.byDispatcher) :
    CutExpand (ComesOf S) (allDuties t) (allDuties s) := by
  cases hm with
  | world i u ha | outside j r l ha => exact absurd (by rw [ha]; rfl) hact
  | handler i _ hstack hreq => exact h.cut_handler hstack hreq
  | create i _ hpc | fail i _ hpc =>
      have hnone : (s i).queue = none := (h.own i).created.mpr (.inl hpc)
      refine cut_of_update (d := .start i) (l := 0) (by simp) ?_
      simp only [duties, hpc, hnone, loopDuties, queueDuties, Option.getD_some, Option.getD_none]
      abel
  | returns i j ret r timeout u _ hreq hsent => exact cut_postDone ret hreq hsent
  | wait i j r timeout l _ hreq hw =>
      refine cut_of_update (d := .ask j r) (l := {.wait j r}) ?_ ?_
      · simpa using ComesOf.waits j r
      · simp only [duties, hreq, hw, postDuties, if_true, Bool.false_eq_true, if_false]
        abel
  | receive i r l _ hloop _ hq =>
      refine cut_of_update (d := .queued i r) (l := {.hand i r.bytes}) ?_ ?_
      · simpa using ComesOf.receives i r
      · simp only [duties, hloop, hq, loopDuties, queueDuties_cons]
        abel
  | dispatch i msg _ hpc =>
      refine cut_of_update (d := .hand i msg)
        (l := {.run i ((S i (s i).thread.hsm.current).handler (readEvent msg))}) ?_ ?_
      · simpa using ComesOf.dispatches i msg _
      · simp only [duties, hpc, loopDuties, dispatchEvent, callHandler, stackDuties_cons]
        abel

/-- The data of the handlers are no duty. -/
lemma allDuties_world (s : ι → ActiveObject σ υ ι) (i : ι) (u : υ) :
    allDuties (activeNext S size s (.world i u)) = allDuties s :=
  add_right_cancel (allDuties_update s i _)

omit [DecidableEq ι] [Fintype ι] in
/-- Whether a step can be taken does not depend on the data of the handlers. -/
lemma activeEnabled_congr (hplace : ∀ i, (t i).place = (s i).place)
    (hqueue : ∀ i, (t i).queue = (s i).queue) (ha : activeEnabled size s a) :
    activeEnabled size t a := by
  simp only [ActiveObject.place, Prod.mk.injEq, forall_and] at hplace
  obtain ⟨hstack, hreq, hwaits, hpc⟩ := hplace
  cases a with
  | world i u => trivial
  | _ => simpa only [activeEnabled, HasRoom, hstack, hreq, hwaits, hpc, hqueue] using ha

omit [Fintype ι] in
lemma activeEnabled_world {b : ActiveAct υ ι} (i : ι) (u : υ) (hb : activeEnabled size s b) :
    activeEnabled size (activeNext S size s (.world i u)) b := by
  have hkeep : ∀ k, (activeNext S size s (.world i u) k).place = (s k).place ∧
      (activeNext S size s (.world i u) k).queue = (s k).queue := by
    intro k
    rw [activeNext]
    by_cases hik : k = i
    · subst hik
      rw [Function.update_self]
      exact ⟨rfl, rfl⟩
    · rw [Function.update_of_ne hik]
      exact ⟨rfl, rfl⟩
  exact activeEnabled_congr (fun k => (hkeep k).1) (fun k => (hkeep k).2) hb

/-! ### Coming to rest -/

omit [Fintype ι]

variable {init : ι → σ} {x : ℕ → ι → ActiveObject σ υ ι} {b : ℕ → ActiveAct υ ι}

omit [DecidableEq ι] in
/-- A step that is neither a dispatcher's nor a post from outside changes the data of some
handler. -/
lemma ActiveAct.eq_world {c : ActiveAct υ ι} (hout : ∀ j r, c ≠ .outside j r)
    (hact : ¬ c.byDispatcher) : ∃ i u, c = .world i u := by
  cases c with
  | world i u => exact ⟨i, u, rfl⟩
  | outside j r => exact absurd rfl (hout j r)
  | _ => simp [ActiveAct.byDispatcher, ActiveAct.dispatcher] at hact

/-- What becomes of the machines in the infinite run `x` with the actions `b`. -/
structure CascadesEnd {R : Type*} [Preorder R] (S : ι → σ → HsmState σ (PostData υ ι))
    (size : ι → ℤ) (init : ι → σ) (rank : ι → R) (x : ℕ → ι → ActiveObject σ υ ι)
    (b : ℕ → ActiveAct υ ι) : Prop where
  /-- The dispatchers take no more steps from some time on. -/
  ends : ∃ M, ∀ n ≥ M, ¬ (b n).byDispatcher
  /-- If none of them is held back for ever, each is idle from some time on or its waits lead to
  a cycle. -/
  rest : (activeSystem S size init).Fair ActiveAct.dispatcher x b →
    ∃ M, ∀ n ≥ M, ∀ i, IsIdle (x n i) ∨ Doomed (waitsOn size (x n)) i
  /-- If posts without end go down in rank besides, each is idle. -/
  idle : (activeSystem S size init).Fair ActiveAct.dispatcher x b →
    (∀ n, PostsDown rank (x n) (b n)) → ∃ M, ∀ n ≥ M, ∀ i, IsIdle (x n i)

/-- Without posts from outside the dispatchers take finitely many steps. -/
lemma dispatchers_end [Finite ι] (hS : WellFounded (ComesOf S))
    (hrun : (activeSystem S size init).Behaviour x b) {N : ℕ}
    (hout : ∀ n ≥ N, ∀ j r, b n ≠ .outside j r) : ∃ M ≥ N, ∀ n ≥ M, ¬ (b n).byDispatcher := by
  have := Fintype.ofFinite ι
  -- the duties go down in the order of the hydra
  refine Behaviour.eventually_not (x := x) hS.cutExpand (μ := allDuties) (fun n _ hact => ?_)
    fun n hn hact => ?_
  · rw [hrun.next n]
    exact (ActiveInv.of_reachable (hrun.reachable n)).cut (activeMove (hrun.enabled n)) hact
  · obtain ⟨i, u, hu⟩ := ActiveAct.eq_world (hout n hn) hact
    rw [hrun.next n, hu]
    show allDuties (activeNext S size (x n) (.world i u)) = allDuties (x n)
    exact allDuties_world _ i u

/-- When neither the dispatchers nor others take a step any more, each dispatcher of a fair run
is idle or stuck. -/
lemma idle_or_doomed_of_quiet [Finite ι] (hrun : (activeSystem S size init).Behaviour x b)
    (hfair : (activeSystem S size init).Fair ActiveAct.dispatcher x b) {M : ℕ}
    (hout : ∀ n ≥ M, ∀ j r, b n ≠ .outside j r) (hquiet : ∀ n ≥ M, ¬ (b n).byDispatcher) :
    ∀ n ≥ M, ∀ i, IsIdle (x n i) ∨ Doomed (waitsOn size (x n)) i := by
  intro n hn
  refine (ActiveInv.of_reachable (hrun.reachable n)).atRest_iff.mp ?_
  refine rest_of_fair hfair (fun n hn => not_not.mp (hquiet n hn)) (fun m hm c _ hc => ?_) n hn
  obtain ⟨i, u, hu⟩ := ActiveAct.eq_world (hout m hm) (hquiet m hm)
  rw [hrun.next m, hu]
  exact activeEnabled_world (S := S) i u hc

/-- Machine `0` posts every event to machine `1`, and without end; machine `1` posts none. -/
def oneWay (i : Fin 2) : Option UInt32 := if i.val = 0 then some 0xFFFFFFFF else none

/-- Then no chain is endless. -/
lemma oneWay_comesOf : WellFounded (ComesOf (passOn oneWay)) := by
  have hone : ∀ s e, Acc (ComesOf (passOn oneWay)) (.run 1 ((passOn oneWay 1 s).handler e)) :=
    fun _ _ => acc_ret 0
  refine comesOf_wellFounded fun i s e => ?_
  fin_cases i
  · show Acc _ (Duty.run 0 (if e.signal = hsmSigEntry then .ret 0
      else postTo 1 e.raw 0xFFFFFFFF fun _ => .ret 0))
    split
    · exact acc_ret 0
    · exact acc_postTo (fun s => hone s _) fun _ => acc_ret 0
  · exact hone s e

end OpenHsm
