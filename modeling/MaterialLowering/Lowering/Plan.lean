import MaterialLowering.Lowering.Notice
import MaterialLowering.Native.Emission

/-!
# Plans

A plan says how one output of a node comes to a value: which other outputs it asks for, which
native nodes and images it creates, what it reports, and when it fails. A plan does not know how
the outputs it asks for are found, so the same plans serve every way of walking a graph.

Main results:

* `Plan.bind_assoc` — plans compose as programs do.
-/

namespace MaterialLowering

/-- How an output comes to a value. -/
inductive Plan (α : Type) where
  | done (result : α)
  | fail (failure : Failure)
  /-- Asks for an output. -/
  | visit (node : NodeId) (output : String) (next : Value → Plan α)
  | create (kind : NativeKind) (params : List (String × Value)) (next : NodeHandle → Plan α)
  /-- Asks for an image, which there may not be. -/
  | image (descriptor : ImageDescriptor) (next : Option ImageHandle → Plan α)
  | report (notice : Notice) (next : Plan α)
  /-- Asks what a sub-node of the node's rule came to for an output, if it did before. -/
  | known (node : NodeId) (output subNode : String) (next : Option Value → Plan α)
  /-- Keeps what a sub-node came to. -/
  | remember (node : NodeId) (output subNode : String) (value : Value) (next : Plan α)

namespace Plan

variable {α β γ : Type}

def bind : Plan α → (α → Plan β) → Plan β
  | .done result, f => f result
  | .fail failure, _ => .fail failure
  | .visit node output next, f => .visit node output fun value => bind (next value) f
  | .create kind params next, f => .create kind params fun handle => bind (next handle) f
  | .image descriptor next, f => .image descriptor fun image => bind (next image) f
  | .report notice next, f => .report notice (bind next f)
  | .known node output subNode next, f =>
    .known node output subNode fun value => bind (next value) f
  | .remember node output subNode value next, f => .remember node output subNode value (bind next f)

instance : Monad Plan where
  pure := .done
  bind := bind

theorem bind_assoc (p : Plan α) (f : α → Plan β) (g : β → Plan γ) :
    (p.bind f).bind g = p.bind fun a => (f a).bind g := by
  induction p with
  | done | fail => rfl
  | visit _ _ _ ih | create _ _ _ ih | image _ _ ih | known _ _ _ _ ih =>
    simp only [bind]; congr; exact funext ih
  | report _ _ ih | remember _ _ _ _ _ ih => simp only [bind, ih]

/-- The value of an output. -/
def output (node : NodeId) (output : String) : Plan Value := .visit node output .done

/-- A notice. -/
def say (notice : Notice) : Plan Unit := .report notice (.done ())

/-- A new native node with these parameters. -/
def node (kind : NativeKind) (params : List (String × Value)) : Plan Value :=
  .create kind params fun handle => .done (.node handle)

/-- What is already known, or a failure. -/
def ofExcept : Except Failure α → Plan α
  | .ok result => .done result
  | .error failure => .fail failure

/-- An emission is a plan that only creates nodes. -/
def ofEmission : Emission α → Plan α
  | .done result => .done result
  | .create kind params next => .create kind params fun handle => ofEmission (next handle)

instance : MonadLift Emission Plan := ⟨ofEmission⟩

end Plan

end MaterialLowering
