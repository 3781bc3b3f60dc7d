import OpenHsm.Hsm.ActiveObjects

/-!
Handlers verified one at a time.  A contract says which events a machine may be sent and what
has become of its state and its data after which events; every handler has to keep it by
itself, whatever its posts return.

* `Completes`: from here the handlers on the stack return, with posts of a kind only, and then
  a condition holds.  `Completes.ret`, `Completes.read`, `Completes.act` and
  `Completes.transit` are the rules for what a handler does, `Completes.postTo` the one for a
  post.
* `Contract`: what each handler has to do by itself.
* `Contract.system`: the machines of `ActiveObjects`, while other threads post allowed events
  and leave the data of the handlers alone.
* `Contract.kept`: then every machine keeps its contract, with any number of machines and under
  any interleaving: the events wait in queues and hands of machines that allow them, and a
  machine whose handlers have returned is as its contract says.
-/

namespace OpenHsm

open Runs System

variable {σ υ ι : Type*}

/-! ### Handlers by themselves -/

/-- The post that a handler has asked for has returned `ret`. -/
def HsmThread.returned (ret : ℤ) (c : HsmThread σ (PostData υ ι)) : HsmThread σ (PostData υ ι) :=
  { c with user := { c.user with request := none, result := ret } }

/-- Whatever the posts return, the handlers on the stack return, all their posts are among
`posts`, and `Q` holds in the end. -/
inductive Completes (T : σ → HsmState σ (PostData υ ι)) (posts : ι × RawEvent × UInt32 → Prop)
    (Q : HsmActive σ → υ → Prop) : HsmThread σ (PostData υ ι) → Prop
  | done {c : HsmThread σ (PostData υ ι)} : c.stack = [] → c.user.request = none →
      Q c.hsm c.user.user → Completes T posts Q c
  | step {c : HsmThread σ (PostData υ ι)} : c.stack ≠ [] → c.user.request = none →
      Completes T posts Q (stepHandler T c) → Completes T posts Q c
  | post {c : HsmThread σ (PostData υ ι)} (p : ι × RawEvent × UInt32) :
      c.user.request = some p → posts p → (∀ ret, Completes T posts Q (c.returned ret)) →
      Completes T posts Q c

namespace Completes

variable {T : σ → HsmState σ (PostData υ ι)} {posts : ι × RawEvent × UInt32 → Prop}
  {Q : HsmActive σ → υ → Prop}

section Rules

variable {h : HsmActive σ} {u : PostData υ ι} {o : Caller} {rest : List (Frame σ (PostData υ ι))}
  {log : List (HsmLog σ)} {k : Body σ (PostData υ ι)}

lemma ret {v : ℤ} (hu : u.request = none)
    (hc : Completes T posts Q
      ⟨if o.storesError then { h with error := v } else h, u, rest, log⟩) :
    Completes T posts Q ⟨h, u, ⟨.ret v, o⟩ :: rest, log⟩ :=
  .step (by simp) hu hc

lemma read {k : PostData υ ι → HsmActive σ → Body σ (PostData υ ι)} (hu : u.request = none)
    (hc : Completes T posts Q ⟨h, u, ⟨k u h, o⟩ :: rest, log⟩) :
    Completes T posts Q ⟨h, u, ⟨.read k, o⟩ :: rest, log⟩ :=
  .step (by simp) hu hc

lemma act {f : PostData υ ι → PostData υ ι} (hu : u.request = none)
    (hc : Completes T posts Q ⟨h, f u, ⟨k, o⟩ :: rest, log⟩) :
    Completes T posts Q ⟨h, u, ⟨.act f k, o⟩ :: rest, log⟩ :=
  .step (by simp) hu hc

lemma transit {t : HsmActive σ → σ} (hu : u.request = none)
    (hc : ∀ log', Completes T posts Q
      ⟨{ h with histroy := h.current, current := t { h with histroy := h.current } }, u,
        ⟨(T (t { h with histroy := h.current })).handler entryEvent, .transit⟩ :: ⟨k, o⟩ :: rest,
        log'⟩) :
    Completes T posts Q ⟨h, u, ⟨.transit t k, o⟩ :: rest, log⟩ :=
  .step (by simp) hu (hc _)

/-- After a post the handler goes on with whatever it returns. -/
lemma postTo {j : ι} {r : RawEvent} {timeout : UInt32} {k : ℤ → Body σ (PostData υ ι)}
    (hu : u.request = none) (hp : posts (j, r, timeout))
    (hc : ∀ ret, Completes T posts Q
      ⟨h, { u with request := none, result := ret }, ⟨k ret, o⟩ :: rest, log⟩) :
    Completes T posts Q ⟨h, u, ⟨OpenHsm.postTo j r timeout k, o⟩ :: rest, log⟩ :=
  .act hu (.post _ rfl hp fun ret => .read rfl (hc ret))

end Rules

variable {c : HsmThread σ (PostData υ ι)}

/-- With no handler on the stack `Q` holds. -/
lemma of_stack_nil (hc : Completes T posts Q c) (hstack : c.stack = [])
    (hreq : c.user.request = none) : Q c.hsm c.user.user := by
  cases hc with
  | done _ _ hQ => exact hQ
  | step hne => exact absurd hstack hne
  | post p hp => rw [hreq] at hp; cases hp

lemma next (hc : Completes T posts Q c) (hstack : c.stack ≠ []) (hreq : c.user.request = none) :
    Completes T posts Q (stepHandler T c) := by
  cases hc with
  | done hnil => exact absurd hnil hstack
  | step _ _ hnext => exact hnext
  | post p hp => rw [hreq] at hp; cases hp

/-- A post that is asked for is one of `posts`, and the handlers go on when it returns. -/
lemma of_request {p : ι × RawEvent × UInt32} (hc : Completes T posts Q c)
    (hreq : c.user.request = some p) :
    posts p ∧ ∀ ret, Completes T posts Q (c.returned ret) := by
  cases hc with
  | done _ hnone => rw [hreq] at hnone; cases hnone
  | step _ hnone => rw [hreq] at hnone; cases hnone
  | post q hq hposts hreturns =>
      obtain rfl : q = p := Option.some.inj (hq.symm.trans hreq)
      exact ⟨hposts, hreturns⟩

end Completes

/-! ### What a machine has been sent -/

/-- The event of a call that the dispatcher makes with an event from the queue. -/
def queueCall : HsmLog σ → Option HsmEvent
  | .called _ e .queue => some e
  | .called _ _ _ | .switched _ _ => none

/-- The events that have been dispatched, oldest first. -/
def dispatched (l : List (HsmLog σ)) : List HsmEvent := (l.filterMap queueCall).reverse

/-- The handlers dispatch nothing. -/
lemma dispatched_stepHandler (T : σ → HsmState σ (PostData υ ι))
    (c : HsmThread σ (PostData υ ι)) :
    dispatched (stepHandler T c).log = dispatched c.log := by
  obtain ⟨l, hlog, hl⟩ := stepHandler_log T c
  have hnone : l.filterMap queueCall = [] := by
    refine List.filterMap_eq_nil_iff.mpr fun x hx => ?_
    have htop := hl x hx
    cases x with
    | switched s t => rfl
    | called s e o => cases o <;> simp_all [topCall, Caller.topLevel, queueCall]
  rw [dispatched, hlog, List.filterMap_append, hnone, List.nil_append, dispatched]

lemma dispatched_dispatchEvent (T : σ → HsmState σ (PostData υ ι)) (e : HsmEvent)
    (c : HsmThread σ (PostData υ ι)) :
    dispatched (dispatchEvent T e c).log = dispatched c.log ++ [e] := by
  simp [dispatched, dispatchEvent, callHandler, queueCall]

/-- The events that a machine has accepted: those dispatched, the one in its hand and those in its
queue, oldest first. -/
def ActiveObject.accepted (A : ActiveObject σ υ ι) : List HsmEvent :=
  dispatched A.thread.log ++ A.pc.hand ++ (A.queue.getD []).map RawEvent.event

section Accepted

variable [DecidableEq ι] {S : ι → σ → HsmState σ (PostData υ ι)} {size : ι → ℤ}
  {s t : ι → ActiveObject σ υ ι} {a : ActiveAct υ ι} {i j k : ι}

lemma accepted_update {A : ActiveObject σ υ ι} (hA : A.accepted = (s i).accepted) :
    (Function.update s i A k).accepted = (s k).accepted := by
  by_cases hk : k = i
  · subst hk
    rwa [Function.update_self]
  · rw [Function.update_of_ne hk]

lemma dispatched_update {A : ActiveObject σ υ ι}
    (hA : dispatched A.thread.log = dispatched (s i).thread.log) :
    dispatched (Function.update s i A k).thread.log = dispatched (s k).thread.log := by
  by_cases hk : k = i
  · subst hk
    rwa [Function.update_self]
  · rw [Function.update_of_ne hk]

lemma accepted_setQueue {r : RawEvent} {l : List RawEvent} (hj : (s j).queue = some l) :
    (setQueue s j (l ++ [r]) k).accepted = (s k).accepted ++ if k = j then [r.event] else [] := by
  by_cases hk : k = j
  · subst hk
    simp [setQueue, ActiveObject.accepted, hj]
  · simp [setQueue, hk]

/-- **Events are dispatched in the order in which they are accepted**: a step accepts one event
that another thread or a handler posts, or none, and loses none. -/
lemma ActiveMove.accepted (hinv : ActiveInv size s) (hm : ActiveMove S size s a t) (k : ι) :
    (t k).accepted = (s k).accepted ∨
      ∃ r, (t k).accepted = (s k).accepted ++ [r.event] ∧
        (a = .outside k r ∨
          ∃ i timeout, a.dispatcher = some i ∧
            (s i).thread.user.request = some (k, r, timeout)) := by
  cases hm with
  | world i u => exact .inl (accepted_update rfl)
  | outside j r l ha hj =>
      rw [accepted_setQueue hj]
      by_cases hk : k = j
      · subst hk
        exact .inr ⟨r, by rw [if_pos rfl], .inl ha⟩
      · exact .inl (by rw [if_neg hk, List.append_nil])
  | handler i =>
      refine .inl (accepted_update ?_)
      simp only [ActiveObject.accepted, dispatched_stepHandler]
  | create i _ hpc =>
      have hnone : (s i).queue = none := (hinv.own i).created.mpr (.inl hpc)
      exact .inl (accepted_update (by simp [ActiveObject.accepted, hpc, hnone, RunPc.hand]))
  | fail i _ hpc =>
      exact .inl (accepted_update (by simp [ActiveObject.accepted, hpc, RunPc.hand]))
  | returns i j ret r timeout u hd hreq hsent =>
      have hpost : (postDone ret u i k).accepted = (u k).accepted := accepted_update rfl
      rw [hpost]
      rcases hsent with rfl | ⟨l, hj, -, rfl⟩
      · exact .inl rfl
      · rw [accepted_setQueue hj]
        by_cases hk : k = j
        · subst hk
          exact .inr ⟨r, by rw [if_pos rfl], .inr ⟨i, timeout, hd, hreq⟩⟩
        · exact .inl (by rw [if_neg hk, List.append_nil])
  | wait i => exact .inl (accepted_update rfl)
  | receive i r l _ hloop _ hq =>
      refine .inl (accepted_update ?_)
      simp [ActiveObject.accepted, hloop, hq, RunPc.hand, RawEvent.event]
  | dispatch i msg _ hpc =>
      refine .inl (accepted_update ?_)
      simp [ActiveObject.accepted, hpc, RunPc.hand, dispatched_dispatchEvent]

/-- A step dispatches one event, while no handler of its machine is running, or none. -/
lemma ActiveMove.dispatches (hinv : ActiveInv size s) (hm : ActiveMove S size s a t) (k : ι) :
    dispatched (t k).thread.log = dispatched (s k).thread.log ∨
      (s k).thread.stack = [] ∧ ∃ e ∈ (s k).pc.hand,
        dispatched (t k).thread.log = dispatched (s k).thread.log ++ [e] := by
  cases hm with
  | handler i => exact .inl (dispatched_update (dispatched_stepHandler _ _))
  | dispatch i msg _ hpc =>
      by_cases hk : k = i
      · subst hk
        have hhand : readEvent msg ∈ (s k).pc.hand := by rw [hpc]; simp [RunPc.hand]
        refine .inr ⟨(hinv.own k).hand (List.ne_nil_of_mem hhand), _, hhand, ?_⟩
        rw [Function.update_self]
        exact dispatched_dispatchEvent _ _ _
      · rw [Function.update_of_ne hk]
        exact .inl rfl
  | returns i j ret r timeout u hd hreq hsent =>
      have hpost : dispatched (postDone ret u i k).thread.log =
          dispatched (u k).thread.log := dispatched_update rfl
      rw [hpost]
      rcases hsent with rfl | ⟨l, -, -, rfl⟩
      · exact .inl rfl
      · exact .inl (dispatched_update rfl)
  | world | outside | create | fail | wait | receive => exact .inl (dispatched_update rfl)

end Accepted

/-! ### Contracts -/

/-- What the handlers of each machine have to do by themselves. -/
structure Contract (S : ι → σ → HsmState σ (PostData υ ι)) (init : ι → σ) where
  /-- What a machine may be sent. -/
  allowed : ι → HsmEvent → Prop
  /-- What the handlers post. -/
  posts : ι × RawEvent × UInt32 → Prop
  /-- The data at the start. -/
  initial : ι → υ → Prop
  /-- What has become of the state and the data after the events. -/
  after : ι → List HsmEvent → HsmActive σ → υ → Prop
  posts_allowed : ∀ p, posts p → allowed p.1 p.2.1.event
  starts : ∀ i u, initial i u →
    Completes (S i) posts (after i []) (startThread (S i) (init i) ⟨u, none, 0⟩)
  handles : ∀ i es e (c : HsmThread σ (PostData υ ι)), c.stack = [] → c.user.request = none →
    after i es c.hsm c.user.user → allowed i e →
    Completes (S i) posts (after i (es ++ [e])) (dispatchEvent (S i) e c)

namespace Contract

variable {S : ι → σ → HsmState σ (PostData υ ι)} {init : ι → σ} [DecidableEq ι]

/-- Other threads post allowed events only and leave the data of the handlers alone. -/
def Permits (C : Contract S init) (s : ι → ActiveObject σ υ ι) : ActiveAct υ ι → Prop
  | .world i u => u = (s i).thread.user.user
  | .outside j r => C.allowed j r.event
  | _ => True

/-- The machines with data as the contract has them at the start. -/
def system (C : Contract S init) (size : ι → ℤ) :
    System (ι → ActiveObject σ υ ι) (ActiveAct υ ι) where
  init s := (activeSystem S size init).init s ∧ ∀ i, C.initial i (s i).thread.user.user
  enabled s a := activeEnabled size s a ∧ C.Permits s a
  next := activeNext S size

/-- The machine `i` keeps the contract. -/
structure Kept (C : Contract S init) (i : ι) (A : ActiveObject σ υ ι) : Prop where
  running : Completes (S i) C.posts (C.after i (dispatched A.thread.log)) A.thread
  waiting : ∀ e ∈ A.pc.hand ++ (A.queue.getD []).map RawEvent.event, C.allowed i e

variable {C : Contract S init} {size : ι → ℤ} {s t : ι → ActiveObject σ υ ι} {a : ActiveAct υ ι} {i j : ι}

/-- One machine has changed and still keeps the contract. -/
lemma kept_update {A : ActiveObject σ υ ι} (h : ∀ k, C.Kept k (s k)) (hA : C.Kept i A) (k : ι) :
    C.Kept k (Function.update s i A k) := by
  by_cases hk : k = i
  · subst hk
    rwa [Function.update_self]
  · rw [Function.update_of_ne hk]
    exact h k

/-- An allowed event more in a queue. -/
lemma kept_sent {r : RawEvent} (h : ∀ k, C.Kept k (s k)) (hr : C.allowed j r.event)
    (hsent : Sent size j r s t) (k : ι) : C.Kept k (t k) := by
  rcases hsent with rfl | ⟨l, hj, -, rfl⟩
  · exact h k
  · refine kept_update h ?_ k
    refine ⟨(h j).running, fun e he => ?_⟩
    have hold := (h j).waiting e
    simp only [hj, Option.getD_some, List.map_append, List.map_cons, List.map_nil,
      List.mem_append, List.mem_singleton] at hold he
    rcases he with he | he | rfl
    · exact hold (.inl he)
    · exact hold (.inr he)
    · exact hr

/-- A step keeps all contracts. -/
lemma kept_move (hinv : ActiveInv size s) (h : ∀ k, C.Kept k (s k))
    (hm : ActiveMove S size s a t) (ha : C.Permits s a) (k : ι) : C.Kept k (t k) := by
  cases hm with
  | world i u hau =>
      subst hau
      obtain rfl : u = _ := ha
      exact kept_update h (h i) k
  | outside j r l hau hj hroom =>
      subst hau
      exact kept_sent h ha (.inr ⟨l, hj, hroom, rfl⟩) k
  | handler i _ hstack hreq =>
      refine kept_update h ?_ k
      refine ⟨?_, (h i).waiting⟩
      rw [dispatched_stepHandler]
      exact (h i).running.next hstack hreq
  | create i =>
      refine kept_update h ?_ k
      exact ⟨(h i).running, by simp [RunPc.hand]⟩
  | fail i =>
      refine kept_update h ?_ k
      refine ⟨(h i).running, fun e he => ?_⟩
      exact (h i).waiting e (List.mem_append_right _ he)
  | returns i j ret r timeout u _ hreq hsent =>
      obtain ⟨hposts, hreturns⟩ := (h i).running.of_request hreq
      have hu : ∀ k, C.Kept k (u k) := kept_sent h (C.posts_allowed _ hposts) hsent
      have hthread : (u i).thread = (s i).thread := by
        rcases hsent with rfl | ⟨l, -, -, rfl⟩
        · rfl
        · by_cases hij : i = j
          · subst hij
            rw [setQueue, Function.update_self]
          · rw [setQueue, Function.update_of_ne hij]
      refine kept_update hu ?_ k
      refine ⟨?_, (hu i).waiting⟩
      simp only [hthread]
      exact hreturns ret
  | wait i =>
      refine kept_update h ?_ k
      exact ⟨(h i).running, (h i).waiting⟩
  | receive i r l _ _ _ hq =>
      refine kept_update h ?_ k
      refine ⟨(h i).running, fun e he => (h i).waiting e ?_⟩
      simp only [hq, Option.getD_some, List.map_cons]
      exact List.mem_append_right _ he
  | dispatch i msg _ hpc =>
      have hstack : (s i).thread.stack = [] := (hinv.own i).hand (by rw [hpc]; simp [RunPc.hand])
      have hreq := (hinv.own i).no_request hstack
      have hafter := (h i).running.of_stack_nil hstack hreq
      have hallowed : C.allowed i (readEvent msg) :=
        (h i).waiting _ (by rw [hpc]; simp [RunPc.hand])
      refine kept_update h ?_ k
      refine ⟨?_, fun e he => ?_⟩
      · rw [dispatched_dispatchEvent]
        exact C.handles i _ _ _ hstack hreq hafter hallowed
      · exact (h i).waiting e (List.mem_append_right _ he)

/-- **Contracts kept by each handler are kept by the system**, under every interleaving. -/
theorem kept (hs : (C.system size).Reachable s) (i : ι) : C.Kept i (s i) := by
  obtain ⟨-, hall⟩ : ActiveInv size s ∧ ∀ i, C.Kept i (s i) := by
    refine hs.invariant (P := fun s => ActiveInv size s ∧ ∀ i, C.Kept i (s i)) ?_ ?_
    · rintro u ⟨hu, hinitial⟩
      refine ⟨.initial hu, fun i => ?_⟩
      obtain ⟨v, rfl⟩ := hu
      exact ⟨C.starts i _ (hinitial i), by simp [RunPc.hand]⟩
    · rintro u a ⟨hinv, hkept⟩ ⟨ha, hpermits⟩
      exact ⟨hinv.step ha, kept_move hinv hkept (activeMove ha) hpermits⟩
  exact hall i

end Contract

end OpenHsm
