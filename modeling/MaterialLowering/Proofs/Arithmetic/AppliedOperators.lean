import MaterialLowering.Proofs.Arithmetic.Interpretation
import MaterialLowering.Proofs.Plans.WiredPlans

/-!
# Operators that are applied

An arithmetic node applies its operator to operands. It has as many parameters as the operator takes
operands, in their order: an operand that is nothing has become the constant zero, and every other one is
the parameter itself. The emissions of operators create such a node unless their operands are all
constants.

Main definitions:
* `RecordedNode.Applies`: a node that applies an operator to operands.
* `Emission.Applies`: an emission that creates one.

Results:
* `Emission.arithmetic_applies`: the emission of an arithmetic node.
* `Emission.unary_applies`, `Emission.binary_applies`, `Emission.ternary_applies`: those of operators.
-/

namespace MaterialLowering

/-- The node applies the operator to the operands, and has no parameters but these. -/
structure RecordedNode.Applies (op : Operator) (operands : List Value) (node : RecordedNode) : Prop where
  kind : node.kind = .arithmetic op
  full : operands.length = op.arity
  names : node.params.keys = (List.range op.arity).map Operator.operandName
  /-- An operand that is nothing has become zero. -/
  unset : ∀ index : Nat, operands[index]? = some .unset →
    node.params.get? (Operator.operandName index) = some (.constant .zero)
  /-- Every other operand is the parameter itself. -/
  set : ∀ (index : Nat) operand param, operands[index]? = some operand →
    Param.ofValue? operand = some param →
      node.params.get? (Operator.operandName index) = some param

/-- In every recording the emission creates one node, which applies the operator to the operands, and
    comes to it. -/
def Emission.Applies (op : Operator) (operands : List Value) (e : Emission Value) : Prop :=
  ∀ r : Recording, ∃ node, node.Applies op operands ∧
    e.run r = (.node ⟨r.nodes.size⟩, { r with nodes := r.nodes.push node })

namespace RecordedNode

/-- Operands are wired in the order of their names. -/
theorem operandNames_sorted {count : Nat} (h : count ≤ 3) :
    ((List.range count).map Operator.operandName).Pairwise fun a b => compare a b = .lt := by
  obtain rfl | rfl | rfl | rfl : count = 0 ∨ count = 1 ∨ count = 2 ∨ count = 3 := by omega
  · decide
  · decide
  · decide
  · decide

/-- A new node whose parameters are all set, in the order of their names, has them all. -/
theorem withParams_keys (kind : NativeKind) {params : List (String × Value)}
    (set : ∀ p ∈ params, p.2 ≠ .unset)
    (sorted : (params.map Prod.fst).Pairwise fun a b => compare a b = .lt) :
    (withParams kind params).params.keys = params.map Prod.fst := by
  have kept : (params.filterMap fun p => (Param.ofValue? p.2).map fun param => (p.1, param)).map
      Prod.fst = params.map Prod.fst := by
    clear sorted
    induction params with
    | nil => rfl
    | cons p rest ih =>
      obtain ⟨name, v⟩ := p
      have later := ih fun q hq => set q (List.mem_cons_of_mem _ hq)
      have here : v ≠ .unset := set (name, v) List.mem_cons_self
      cases v with
      | unset => exact (here rfl).elim
      | constant | node | image => simpa [Param.ofValue?] using later
  have entries : (withParams kind params).params.entries =
      params.filterMap fun p => (Param.ofValue? p.2).map fun param => (p.1, param) :=
    congrArg SortedMap.entries (SortedMap.ofList_entries ⟨_, List.pairwise_map.1 (kept ▸ sorted)⟩)
  rw [SortedMap.keys, entries, kept]

/-- A new node has the parameter of a value, where every name is there once. -/
theorem withParams_get?_of_mem (kind : NativeKind) {params : List (String × Value)}
    (nodup : (params.map Prod.fst).Nodup) {name : String} {value : Value} {param : Param}
    (hm : (name, value) ∈ params) (set : Param.ofValue? value = some param) :
    (withParams kind params).params.get? name = some param :=
  SortedMap.get?_ofList (Recording.nodup_set nodup) (List.mem_filterMap.2 ⟨_, hm, by simp [set]⟩)

/-- The parameters of operands. -/
abbrev operandParams (operands : List Value) : List (String × Value) :=
  operands.mapIdx fun index operand => (Operator.operandName index, operand.or (.constant .zero))

theorem map_operandParams (operands : List Value) :
    (operandParams operands).map Prod.fst = (List.range operands.length).map Operator.operandName := by
  refine List.ext_getElem (by simp) fun i hi hi' => ?_
  simp

/-- A new node with the parameters of operands applies its operator to them. -/
theorem withParams_applies {op : Operator} {operands : List Value} (full : operands.length = op.arity) :
    (withParams (.arithmetic op) (operandParams operands)).Applies op operands := by
  have sorted : ((operandParams operands).map Prod.fst).Pairwise fun a b => compare a b = .lt := by
    rw [map_operandParams, full]
    exact operandNames_sorted (Emission.arity_le op)
  have nodup : ((operandParams operands).map Prod.fst).Nodup :=
    sorted.imp fun {a b} less same => by
      subst same
      simp at less
  have given : ∀ {index : Nat} {operand : Value}, operands[index]? = some operand →
      (Operator.operandName index, operand.or (.constant .zero)) ∈ operandParams operands := by
    intro index operand there
    exact List.mem_of_getElem? (i := index) (by rw [List.getElem?_mapIdx, there]; rfl)
  refine ⟨rfl, full, ?_, fun index there => ?_, fun index operand param there set => ?_⟩
  · rw [withParams_keys _ _ sorted, map_operandParams, full]
    intro p hp
    obtain ⟨i, hi, rfl⟩ := List.mem_mapIdx.1 hp
    generalize operands[i] = operand
    cases operand <;> exact Value.noConfusion
  · exact withParams_get?_of_mem _ nodup (given there) rfl
  · refine withParams_get?_of_mem _ nodup (given there) ?_
    cases operand with
    | unset => cases set
    | constant | node | image => exact set

end RecordedNode

namespace Emission

variable {op : Operator} {operands : List Value} {a b choice : Value}

theorem arithmetic_applies (full : operands.length = op.arity) :
    (arithmetic op operands).Applies op operands :=
  fun _ => ⟨_, RecordedNode.withParams_applies full, rfl⟩

theorem unary_applies (one : op.arity = 1) (h : a.isConstant = false) :
    (unary op a).Applies op [a] := by
  have whole : (arithmetic op [a]).Applies op [a] := arithmetic_applies one.symm
  cases a with
  | constant => cases h
  | node | image | unset => exact whole

theorem binary_applies (two : op.arity = 2) (h : (a.isConstant && b.isConstant) = false) :
    (binary op a b).Applies op [a, b] := by
  have whole : (arithmetic op [a, b]).Applies op [a, b] := arithmetic_applies two.symm
  unfold binary
  split
  · cases h
  · exact whole

theorem ternary_applies (h : (choice.isConstant && a.isConstant && b.isConstant) = false) :
    (ternary choice a b).Applies .ternary [choice, a, b] := by
  have whole : (arithmetic .ternary [choice, a, b]).Applies .ternary [choice, a, b] :=
    arithmetic_applies rfl
  unfold ternary
  split
  · cases h
  · exact whole

end Emission

end MaterialLowering
