import MaterialLowering.Proofs.Walks.Events

/-!
# Reading off what was found

What outputs were found to come to says whether another output comes to a value: its plan is read with
the outputs that it asks for in a table, and it does not matter which handles it gets on the way. More
findings never turn a value into a failure.

Main definitions:
* `Plan.read`: what a plan comes to with a table.
* `Setting.leads`: the findings lead to an output.

Results:
* `Plan.read_mono`: with more findings a plan comes to the same.
-/

namespace MaterialLowering

open Walk (on)

/-! ## Findings -/

/-- What outputs were found to come to. -/
abbrev Findings : Type := Key → Option Value

namespace Findings

/-- What is in a list of entries. -/
def ofEntries (entries : List (Key × Value)) : Findings := fun key => Memo.find? key entries

/-- The outputs of nodes inside given calls. -/
def inside (found : Findings) (g : HostGraph) (scope : List NodeId) (node : NodeId) (output : String) :
    Option Value := found ⟨node, output, scope, g.material⟩

/-- The entries are among the findings. -/
def Cover (found : Findings) (entries : List (Key × Value)) : Prop :=
  ∀ entry ∈ entries, found entry.1 = some entry.2

/-- There are at least the same findings. -/
def Grow (found found' : Findings) : Prop :=
  ∀ key value, found key = some value → found' key = some value

variable {found found' : Findings} {entries entries' : List (Key × Value)}

theorem Cover.of_subset (h : found.Cover entries') (he : entries ⊆ entries') : found.Cover entries :=
  fun entry hm => h entry (he hm)

theorem Cover.grow (h : found.Cover entries) : (ofEntries entries).Grow found :=
  fun _ _ hf => h _ (Memo.mem_entries_of_get? (m := ⟨entries⟩) hf)

/-- Entries of different keys are all found. -/
theorem cover_ofEntries (h : (entries.map Prod.fst).Nodup) : (ofEntries entries).Cover entries :=
  fun _ hm => Memo.get?_of_mem (m := ⟨entries⟩) h hm

end Findings

/-! ## Plans -/

namespace Plan

variable {α β : Type} {failing : SortedMap String Unit} {found found' : NodeId → String → Option Value}

/-- What a plan comes to with the outputs of a table and the images that can be loaded, if it does not
    fail. Handles are all the same, nothing is known of sub-nodes, and nothing is kept of them. -/
def read (failing : SortedMap String Unit) (found : NodeId → String → Option Value) :
    Plan α → Option α
  | .done result => some result
  | .fail _ => none
  | .visit node output next => (found node output).bind fun value => (next value).read failing found
  | .create _ _ next => (next ⟨0⟩).read failing found
  | .image descriptor next =>
    (next (if failing.contains descriptor.name then none else some ⟨0⟩)).read failing found
  | .report _ next => next.read failing found
  | .known _ _ _ next => (next none).read failing found
  | .remember _ _ _ _ next => next.read failing found

theorem read_bind (p : Plan α) (f : α → Plan β) :
    (p >>= f).read failing found = (p.read failing found).bind fun a => (f a).read failing found := by
  show (p.bind f).read failing found = _
  induction p with
  | done | fail => rfl
  | visit node output next ih =>
    simp only [bind, read]
    cases found node output with
    | none => rfl
    | some value => exact ih value
  | create kind params next ih => exact ih _
  | image descriptor next ih => exact ih _
  | report notice next ih => exact ih
  | known node output name next ih => exact ih _
  | remember node output name value next ih => exact ih

/-- What is kept in the end makes no difference. -/
theorem read_remember (p : Plan Value) (node : NodeId) (output name : String) :
    (p >>= fun value => .remember node output name value (.done value)).read failing found =
      p.read failing found := by
  rw [read_bind]
  cases p.read failing found <;> rfl

/-- With more findings a plan comes to the same. -/
theorem read_mono (more : ∀ node output value, found node output = some value →
      found' node output = some value)
    {plan : Plan α} {a : α} (h : plan.read failing found = some a) :
    plan.read failing found' = some a := by
  induction plan with
  | done | fail => exact h
  | visit node output next ih =>
    obtain ⟨value, hv, h⟩ := Option.bind_eq_some_iff.1 h
    exact Option.bind_eq_some_iff.2 ⟨value, more node output value hv, ih value h⟩
  | create kind params next ih => exact ih _ h
  | image descriptor next ih => exact ih _ h
  | report notice next ih => exact ih h
  | known node output name next ih => exact ih _ h
  | remember node output name value next ih => exact ih h

end Plan

theorem Findings.Grow.read {found found' : Findings} (more : found.Grow found') {α : Type} {g : HostGraph}
    {failing : SortedMap String Unit} {scope : List NodeId} {plan : Plan α} {a : α}
    (h : plan.read failing (found.inside g scope) = some a) :
    plan.read failing (found'.inside g scope) = some a :=
  plan.read_mono (fun _ _ value => more _ value) h

/-! ## Outputs -/

/-- The findings lead to an output: it comes to a value where others come to what was found. -/
def Setting.leads (s : Setting) (failing : SortedMap String Unit) (found : Findings) (key : Key) : Bool :=
  match bypass? s.graph key.node with
  | some plan => (plan.read failing (found.inside s.graph key.scope)).isSome
  | none =>
    match s.table.task s.graph key.node key.output with
    | .plan plan => (plan.read failing (found.inside s.graph key.scope)).isSome
    | .call =>
      match s.graph.groupTree key.node with
      | none => false
      | some tree =>
        if key.scope.any fun other => s.graph.groupTree other = some tree then false
        else
          match s.graph.groupOutput tree with
          | none => false
          | some groupOutput =>
            (found.inside s.graph (key.node :: key.scope) groupOutput key.output).isSome
    | .formal =>
      match key.scope with
      | [] => false
      | callSite :: around =>
        ((Walk.argument s.graph callSite key.output).read failing (found.inside s.graph around)).isSome

end MaterialLowering
