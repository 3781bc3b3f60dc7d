import Mathlib.Tactic

/-!
Trees of nested calls, and the marks that the beginnings and the ends of the calls leave
while they run, over arbitrary argument and result types.

* `CallTree`: a call with its argument, the calls it made and its result;
  `CallTree.last` is the call of a tree that was begun last.
* `Mark`, `CallTree.trace`: a run sees the marks, newest first, and not the tree.
* `lastBegun`, `lastEnded`, `lastResult`: what the marks tell about a tree
  (`lastBegun_trace`, `lastEnded_trace`, `lastResult_trace`).
* `openTrace`: the marks left while calls are still open, and what the next mark does to
  the open calls (`openTrace_begun`, `openTrace_ended`, `openTrace_outermost`): the way to
  find the tree of a run by induction.
-/

namespace Calls

variable {α β : Type*}

/-- A call with its argument, the calls it made, newest first, and its result. -/
inductive CallTree (α β : Type*) where
  | node (arg : α) (inner : List (CallTree α β)) (result : β)

/-- The beginning or the end of a call. -/
inductive Mark (α β : Type*) where
  | begun (a : α)
  | ended (b : β)
  deriving DecidableEq, Repr

namespace CallTree

/-- The argument of the outermost call. -/
def arg : CallTree α β → α
  | .node a _ _ => a

/-- The result of the outermost call. -/
def result : CallTree α β → β
  | .node _ _ b => b

/-- The call that was begun last: no call was made from inside it. -/
def last : CallTree α β → CallTree α β
  | .node a [] b => .node a [] b
  | .node _ (t :: _) _ => t.last

mutual

/-- The marks of a call, newest first. -/
def trace : CallTree α β → List (Mark α β)
  | .node a ts b => .ended b :: (traceAll ts ++ [.begun a])

/-- The marks of calls made one after the other. -/
def traceAll : List (CallTree α β) → List (Mark α β)
  | [] => []
  | t :: ts => t.trace ++ traceAll ts

end

end CallTree

/-! ### What the marks tell -/

/-- The argument of the call that was begun last. -/
def lastBegun : List (Mark α β) → Option α
  | [] => none
  | .begun a :: _ => some a
  | .ended _ :: m => lastBegun m

/-- The result of the call that ended last. -/
def lastEnded : List (Mark α β) → Option β
  | [] => none
  | .begun _ :: m => lastEnded m
  | .ended b :: _ => some b

/-- The result of the call that was begun last, once it has ended. -/
def lastResult : List (Mark α β) → Option β
  | [] => none
  | .begun _ :: _ => none
  | .ended b :: m => (lastResult m).getD b

@[simp] lemma lastBegun_begun (a : α) (m : List (Mark α β)) :
    lastBegun (.begun a :: m) = some a := rfl

@[simp] lemma lastBegun_ended (b : β) (m : List (Mark α β)) :
    lastBegun (.ended b :: m) = lastBegun m := rfl

@[simp] lemma lastResult_begun (a : α) (m : List (Mark α β)) :
    lastResult (.begun a :: m) = none := rfl

@[simp] lemma lastResult_ended (b : β) (m : List (Mark α β)) :
    lastResult (.ended b :: m) = some ((lastResult m).getD b) := rfl

/-- The call begun last is the last one of the tree. -/
lemma lastBegun_trace (t : CallTree α β) (m : List (Mark α β)) :
    lastBegun (t.trace ++ m) = some t.last.arg := by
  induction t using CallTree.last.induct generalizing m with
  | case1 a b => simp [CallTree.trace, CallTree.traceAll, CallTree.last, CallTree.arg]
  | case2 a t ts b ih =>
      simp only [CallTree.trace, CallTree.traceAll, List.cons_append, List.append_assoc,
        lastBegun_ended, CallTree.last]
      exact ih _

/-- The call that ends last is the outermost one. -/
lemma lastEnded_trace (t : CallTree α β) (m : List (Mark α β)) :
    lastEnded (t.trace ++ m) = some t.result := by
  cases t with | node a ts b => simp [CallTree.trace, lastEnded, CallTree.result]

/-- The result of the call begun last is that of the last one of the tree. -/
lemma lastResult_trace (t : CallTree α β) (m : List (Mark α β)) :
    lastResult (t.trace ++ m) = some t.last.result := by
  induction t using CallTree.last.induct generalizing m with
  | case1 a b => simp [CallTree.trace, CallTree.traceAll, CallTree.last, CallTree.result]
  | case2 a t ts b ih =>
      simp only [CallTree.trace, CallTree.traceAll, List.cons_append, List.append_assoc,
        lastResult_ended, CallTree.last, ih, Option.getD_some]

/-! ### Calls that are still open -/

/-- The marks left so far, when the calls of the list are open, the innermost one first,
each with its argument and the calls it already made. -/
def openTrace : List (α × List (CallTree α β)) → List (Mark α β)
  | [] => []
  | (a, ts) :: os => CallTree.traceAll ts ++ .begun a :: openTrace os

/-- A new call opens. -/
lemma openTrace_begun (a : α) (os : List (α × List (CallTree α β))) :
    .begun a :: openTrace os = openTrace ((a, []) :: os) := by
  simp [openTrace, CallTree.traceAll]

/-- The innermost call ends, and is one more call of the one around it. -/
lemma openTrace_ended (a a' : α) (b : β) (ts ts' : List (CallTree α β))
    (os : List (α × List (CallTree α β))) :
    .ended b :: openTrace ((a, ts) :: (a', ts') :: os) =
      openTrace ((a', .node a ts b :: ts') :: os) := by
  simp [openTrace, CallTree.traceAll, CallTree.trace]

/-- The outermost call ends, and its tree is complete. -/
lemma openTrace_outermost (a : α) (b : β) (ts : List (CallTree α β)) :
    .ended b :: openTrace [(a, ts)] = (CallTree.node a ts b).trace := by
  simp [openTrace, CallTree.trace]

end Calls
