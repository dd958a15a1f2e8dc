import MaterialLowering.Lowering.Walk

/-!
# Lowering without memory

A way of lowering that remembers nothing. It has the tasks and plans of the walk, but no cache, no
sub-nodes that are known, no arguments in frames and no stack that changes: it carries the calls
around an output along, the innermost first, lowers an output every time that it is asked for, and
looks for cycles on the path of the outputs that wait for one another.

Main definitions:

* `Plan.evaluate`: carries a plan out and remembers nothing.
* `Reference.lower`: what an output comes to inside given calls.
-/

namespace MaterialLowering

/-- A computation that may fail. All that it changes is the recording. -/
abbrev Direct (α : Type) : Type := Recording → Except Failure α × Recording

/-- Carries a plan out. Nothing is known of sub-nodes, and nothing is kept of them. -/
def Plan.evaluate {α : Type} (visit : NodeId → String → Direct Value) : Plan α → Direct α
  | .done result, r => (.ok result, r)
  | .fail failure, r => (.error failure, r)
  | .visit node output next, r =>
    match visit node output r with
    | (.ok value, r) => (next value).evaluate visit r
    | (.error failure, r) => (.error failure, r)
  | .create kind params next, r =>
    (next (r.create kind params).1).evaluate visit (r.create kind params).2
  | .image descriptor next, r =>
    (next (r.materialize descriptor).1.toOption).evaluate visit (r.materialize descriptor).2
  | .report _ next, r => next.evaluate visit r
  | .known _ _ _ next, r => (next none).evaluate visit r
  | .remember _ _ _ _ next, r => next.evaluate visit r

theorem Plan.evaluate_bind {α β : Type} (visit : NodeId → String → Direct Value) (p : Plan α)
    (f : α → Plan β) (r : Recording) :
    (p >>= f).evaluate visit r =
      match p.evaluate visit r with
      | (.ok a, r) => (f a).evaluate visit r
      | (.error failure, r) => (.error failure, r) := by
  show (p.bind f).evaluate visit r = _
  induction p generalizing r with
  | done | fail => rfl
  | visit node output next ih =>
    simp only [bind, evaluate]
    rcases visit node output r with ⟨_ | value, r⟩
    · rfl
    · exact ih value r
  | create kind params next ih => exact ih _ _
  | image descriptor next ih => exact ih _ _
  | report notice next ih => exact ih r
  | known node output subNode next ih => exact ih none r
  | remember node output subNode value next ih => exact ih r

/-- What is kept in the end makes no difference. -/
theorem Plan.evaluate_remember (visit : NodeId → String → Direct Value) (p : Plan Value)
    (node : NodeId) (output name : String) (r : Recording) :
    (p >>= fun value => .remember node output name value (.done value)).evaluate visit r =
      p.evaluate visit r := by
  rw [evaluate_bind]
  rcases p.evaluate visit r with ⟨_ | _, _⟩ <;> rfl

namespace Reference

/-- How the outputs of nodes are found inside given calls, the innermost first. -/
abbrev Visit : Type := List NodeId → NodeId → String → Direct Value

/-- A call comes to what the output node of the group comes to inside the call. A group that is
being lowered cannot be called from inside. -/
def call (g : HostGraph) (visit : Visit) (chain : List NodeId) (callSite : NodeId)
    (output : String) : Direct Value := fun r =>
  match g.groupTree callSite with
  | none =>
    (.error (.unresolvableGroupBoundary (g.label callSite) "group node references no node tree"), r)
  | some tree =>
    if chain.any fun other => g.groupTree other = some tree then
      (.error (.cyclicGraph (g.label callSite) output), r)
    else
      match g.groupOutput tree with
      | none =>
        (.error (.unresolvableGroupBoundary (g.label callSite) "group has no output node"), r)
      | some groupOutput => visit (callSite :: chain) groupOutput output r

/-- A formal input comes to the argument of the innermost call, read around that call, or to the
formal's own default where the argument is nothing. -/
def formal (g : HostGraph) (visit : Visit) (chain : List NodeId) (groupInput : NodeId)
    (name : String) : Direct Value := fun r =>
  match chain with
  | [] =>
    (.error (.unresolvableGroupBoundary (g.label groupInput)
      "group input reached outside of a group call"), r)
  | callSite :: around =>
    match (Walk.argument g callSite name).evaluate (visit around) r with
    | (.ok found, r) => (.ok (found.or (.ofLanes? (g.outputDefault groupInput name))), r)
    | (.error failure, r) => (.error failure, r)

/-- What an output comes to, given how other outputs are found. -/
def expand (s : Setting) (visit : Visit) (chain : List NodeId) (node : NodeId) (output : String) :
    Direct Value :=
  match bypass? s.graph node with
  | some plan => plan.evaluate (visit chain)
  | none =>
    match s.table.task s.graph node output with
    | .plan plan => plan.evaluate (visit chain)
    | .call => call s.graph visit chain node output
    | .formal => formal s.graph visit chain node output

/-- What an output comes to inside given calls, when outputs may be nested `depth` deep. The
outputs on the path wait for this one. -/
def lower (s : Setting) : Nat → List Key → Visit
  | 0, _, _, node, output, r => (.error (.tooDeep (s.graph.label node) output), r)
  | depth + 1, path, chain, node, output, r =>
    let key : Key := ⟨node, output, chain, s.graph.material⟩
    if key ∈ path then (.error (.cyclicGraph (s.graph.label node) output), r)
    else expand s (lower s depth (key :: path)) chain node output r

end Reference

end MaterialLowering
