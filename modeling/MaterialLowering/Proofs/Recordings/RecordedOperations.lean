import MaterialLowering.Native.Emission
import MaterialLowering.Proofs.Walks.Control

/-!
# What can be done to a recording

A recording is changed by operations: a node is created or a parameter of it set, an image is asked
for, a root is registered. A *step* is an operation together with the recording that it is done to, and
steps that follow each other lead from one recording to another. Steps that only add to the recording
create every node that is there in the end and was not there before.

Main definitions:
* `Recording.Operation`, `Recording.performAll`: operations, and what they lead to.
* `Recording.Step`, `Recording.Follow`: operations with the recordings that they are done to.
* `Emission.steps`: the steps of an emission.

Results:
* `Recording.Follow.eq_performAll`: steps that follow each other lead to what their operations do.
* `Recording.Follow.exists_makes`: where a new node comes from.
* `Emission.follow_steps`: an emission does its steps and nothing else.
-/

namespace MaterialLowering

/-- What can be done to a recording. -/
inductive Recording.Operation where
  | create (kind : NativeKind) (params : List (String × Value))
  | assign (handle : NodeHandle) (name : String) (param : Param)
  | materialize (descriptor : ImageDescriptor)
  | register (material : String) (root : NodeHandle)
  deriving DecidableEq

namespace Recording

/-- Nodes and images are added, and nothing else is changed. -/
def Operation.Adds : Operation → Prop
  | .create .. | .materialize _ => True
  | .assign .. | .register .. => False

/-- The recording after an operation. -/
def perform (r : Recording) : Operation → Recording
  | .create kind params => (r.create kind params).2
  | .assign handle name param => r.assign handle name param
  | .materialize descriptor => (r.materialize descriptor).2
  | .register material root => r.register material root

/-- The recording after operations, one after another. -/
def performAll (r : Recording) (operations : List Operation) : Recording := operations.foldl perform r

@[simp] theorem performAll_nil (r : Recording) : r.performAll [] = r := rfl

@[simp] theorem performAll_cons (r : Recording) (operation : Operation)
    (operations : List Operation) :
    r.performAll (operation :: operations) = (r.perform operation).performAll operations := rfl

@[simp] theorem performAll_append (r : Recording) (before after : List Operation) :
    r.performAll (before ++ after) = (r.performAll before).performAll after := List.foldl_append

theorem perform_extends {r : Recording} {operation : Operation} (adds : operation.Adds) :
    r.Extends (r.perform operation) := by
  cases operation with
  | create kind params => exact r.create_extends kind params
  | materialize descriptor => exact r.materialize_extends descriptor
  | assign | register => exact adds.elim

/-! ## Steps -/

/-- An operation and the recording that it is done to. -/
structure Step where
  operation : Operation
  before : Recording
  deriving DecidableEq

/-- The step creates the node, in this place. -/
def Step.Makes (step : Step) (n : Nat) (node : RecordedNode) : Prop :=
  ∃ kind params, step.operation = .create kind params ∧ step.before.nodes.size = n ∧
    node = .withParams kind params

/-- Steps that follow each other, from one recording to another. -/
inductive Follow : Recording → List Step → Recording → Prop
  | nil (r : Recording) : Follow r [] r
  | cons {r r' : Recording} {operation : Operation} {rest : List Step}
      (h : Follow (r.perform operation) rest r') : Follow r (⟨operation, r⟩ :: rest) r'

namespace Follow

variable {r r' r'' : Recording} {steps steps' : List Step}

theorem append (h : Follow r steps r') (h' : Follow r' steps' r'') :
    Follow r (steps ++ steps') r'' := by
  induction h with
  | nil => exact h'
  | cons _ ih => exact .cons (ih h')

/-- The operations of the steps are all that is done. -/
theorem eq_performAll (h : Follow r steps r') : r' = r.performAll (steps.map Step.operation) := by
  induction h with
  | nil => rfl
  | cons _ ih => exact ih

theorem extends_of_adds (h : Follow r steps r') (adds : ∀ step ∈ steps, step.operation.Adds) :
    r.Extends r' := by
  induction h with
  | nil r => exact .refl r
  | cons _ ih =>
    obtain ⟨own, others⟩ := List.forall_mem_cons.1 adds
    exact (perform_extends own).trans (ih others)

/-- A new node was created by one of the steps, if these only add to the recording. -/
theorem exists_makes (h : Follow r steps r') (adds : ∀ step ∈ steps, step.operation.Adds) {n : Nat}
    {node : RecordedNode} (new : r.nodes.size ≤ n) (hn : r'.nodes[n]? = some node) :
    ∃ step ∈ steps, step.Makes n node := by
  induction h with
  | nil r =>
    rw [Array.getElem?_eq_none new] at hn
    cases hn
  | @cons r r' operation rest follow ih =>
    obtain ⟨own, others⟩ := List.forall_mem_cons.1 adds
    have later : (r.perform operation).nodes.size ≤ n →
        ∃ step ∈ ⟨operation, r⟩ :: rest, step.Makes n node := by
      intro new
      obtain ⟨step, hs, makes⟩ := ih others new hn
      exact ⟨step, List.mem_cons_of_mem _ hs, makes⟩
    cases operation with
    | assign | register => exact own.elim
    | materialize descriptor => exact later (by rw [perform, materialize_nodes]; exact new)
    | create kind params =>
      have size : (r.perform (.create kind params)).nodes.size = r.nodes.size + 1 := Array.size_push _
      rcases Nat.lt_or_ge r.nodes.size n with further | here
      · exact later (by omega)
      · obtain rfl : r.nodes.size = n := Nat.le_antisymm new here
        have made : (r.perform (.create kind params)).nodes[r.nodes.size]? =
            some (.withParams kind params) := Array.getElem?_push_size
        rw [(follow.extends_of_adds others).getElem?_nodes (by omega), made] at hn
        exact ⟨_, List.mem_cons_self, kind, params, rfl, rfl, (Option.some.inj hn).symm⟩

end Follow

end Recording

/-! ## Emissions -/

namespace Emission

variable {α : Type}

/-- The steps of an emission, each the creation of a node. -/
def steps : Emission α → Recording → List Recording.Step
  | .done _, _ => []
  | .create kind params next, r =>
    ⟨.create kind params, r⟩ :: (next (r.create kind params).1).steps (r.create kind params).2

theorem follow_steps (e : Emission α) (r : Recording) : r.Follow (e.steps r) (e.run r).2 := by
  induction e generalizing r with
  | done => exact .nil r
  | create kind params next ih => exact .cons (ih _ _)

theorem run_extends (e : Emission α) (r : Recording) : r.Extends (e.run r).2 := by
  induction e generalizing r with
  | done => exact .refl r
  | create kind params next ih => exact (r.create_extends kind params).trans (ih _ _)

end Emission

end MaterialLowering
