import MaterialLowering.Proofs.Arithmetic.EmittedArithmetic
import MaterialLowering.Proofs.Rules.RuleOrder

/-!
# Folded and emitted arithmetic

An operation folds where all of its operands are constants and emits nodes otherwise; composite
operations do some of both. The lanes of a recording are computed node by node: what no arithmetic
decides, images and nodes of other kinds, has any lanes. Every operation comes to the same lanes on
both paths, at whatever arity an operator is used and whatever its operands are.

Results:
* `Recording.lanesAt_eq`: the lanes of a node are computed from those of its parameters.
* `Recording.Extends.lanesAt_eq`: what is added to a recording leaves the lanes of its nodes alone.
* `Operation.folded_agrees_emitted`: an operation, and the same operation on the constants that its
  operands stand for, come to values of the same lanes.
-/

namespace MaterialLowering

open Numeric (Single)

/-! ## The lanes of a recording -/

/-- Lanes for all that arithmetic does not decide. -/
structure Outside where
  node : NodeHandle → Lanes
  image : ImageHandle → Lanes

namespace Outside

/-- The lanes of a parameter, given those of the nodes; zero where it is not set. -/
def param (outside : Outside) (nodes : NodeHandle → Lanes) : Option Param → Lanes
  | some (.constant lanes) => lanes
  | some (.node handle) => nodes handle
  | some (.image handle) => outside.image handle
  | none => .zero

/-- The lanes of a node of some kind, given those of its parameters. -/
def compute (outside : Outside) (handle : NodeHandle) (kind : NativeKind) (lanes : String → Lanes) :
    Lanes :=
  (kind.compute? (fun _ => outside.node handle) lanes).getD (outside.node handle)

end Outside

/-- A parameter refers to no node or to one of the first `n`. -/
def Param.Before (n : Nat) : Param → Prop
  | .node handle => handle.index < n
  | _ => True

instance (n : Nat) : DecidablePred (Param.Before n)
  | .node handle => inferInstanceAs (Decidable (handle.index < n))
  | .constant _ | .image _ => isTrue trivial

/-- A value is no node or one of the first `n`. -/
def Value.Before (n : Nat) (v : Value) : Prop := ∀ p ∈ Param.ofValue? v, p.Before n

instance (n : Nat) (v : Value) : Decidable (v.Before n) :=
  inferInstanceAs (Decidable (∀ p ∈ Param.ofValue? v, p.Before n))

namespace Recording

/-- References to nodes lead to earlier nodes. -/
def Backward (r : Recording) : Prop :=
  ∀ n (h : n < r.nodes.size), ∀ e ∈ r.nodes[n].params.entries, e.2.Before n

instance (r : Recording) : Decidable r.Backward :=
  inferInstanceAs (Decidable (∀ n (h : n < r.nodes.size), ∀ e ∈ r.nodes[n].params.entries,
    e.2.Before n))

/-- The lanes of the node in place `n`. Only earlier nodes are looked at. -/
def lanesAt (r : Recording) (outside : Outside) (n : Nat) : Lanes :=
  match r.nodes[n]? with
  | none => outside.node ⟨n⟩
  | some node =>
    outside.compute ⟨n⟩ node.kind fun name =>
      outside.param (fun a => if a.index < n then lanesAt r outside a.index else .zero)
        (node.params.get? name)
termination_by n

/-- The lanes of a value. -/
def lanes (r : Recording) (outside : Outside) (v : Value) : Lanes :=
  outside.param (fun a => r.lanesAt outside a.index) (Param.ofValue? v)

variable {r r' : Recording} {outside : Outside}

theorem Backward.before (h : r.Backward) {n : Nat} {node : RecordedNode} {name : String} {p : Param}
    (hn : r.nodes[n]? = some node) (hp : node.params.get? name = some p) : p.Before n := by
  obtain ⟨hlt, rfl⟩ := Array.getElem?_eq_some_iff.1 hn
  exact h n hlt _ (SortedMap.mem_entries_of_get? hp)

/-- The lanes of a parameter depend on the lanes of the nodes before it only. -/
theorem param_congr {nodes nodes' : NodeHandle → Lanes} {n : Nat} {p : Option Param}
    (hp : ∀ q ∈ p, q.Before n) (h : ∀ a : NodeHandle, a.index < n → nodes a = nodes' a) :
    outside.param nodes p = outside.param nodes' p := by
  cases p with
  | none => rfl
  | some p =>
    cases p with
    | node handle => exact h handle (hp _ rfl)
    | constant lanes => rfl
    | image handle => rfl

/-- Where references lead back, the lanes of a node are computed from those of its parameters. -/
theorem lanesAt_eq (h : r.Backward) {n : Nat} {node : RecordedNode} (hn : r.nodes[n]? = some node) :
    r.lanesAt outside n = outside.compute ⟨n⟩ node.kind fun name =>
      outside.param (fun a => r.lanesAt outside a.index) (node.params.get? name) := by
  rw [lanesAt, hn]
  dsimp only
  congr 1
  funext name
  exact param_congr (fun p hp => h.before hn hp) fun a ha => if_pos ha

theorem Extends.lanesAt_eq (h : r.Extends r') {n : Nat} (hn : n < r.nodes.size) :
    r'.lanesAt outside n = r.lanesAt outside n := by
  induction n using Nat.strongRecOn with
  | ind n ih =>
    rw [lanesAt, lanesAt, h.getElem?_nodes hn]
    have earlier :
        (fun a : NodeHandle => if a.index < n then r'.lanesAt outside a.index else .zero) =
          fun a => if a.index < n then r.lanesAt outside a.index else .zero := by
      funext a
      split
      · rename_i ha
        exact ih a.index ha (Nat.lt_trans ha hn)
      · rfl
    rw [earlier]

end Recording

/-! ## New nodes -/

namespace SortedMap

variable {κ α : Type} [Ord κ] [Std.TransOrd κ] [Std.LawfulEqOrd κ]

/-- Where every key is there once, it is found as in the list. -/
theorem get?_ofList_eq_lookup [DecidableEq κ] {entries : List (κ × α)}
    (nodup : (entries.map Prod.fst).Nodup) (key : κ) :
    (ofList entries).get? key = entries.lookup key := by
  cases h : entries.lookup key with
  | none =>
    refine get?_foldl_insert_of_notMem (fun hm => ?_) _
    obtain ⟨e, he, rfl⟩ := List.mem_map.1 hm
    simpa using List.lookup_eq_none_iff.1 h e he
  | some value =>
    obtain ⟨before, after, rfl, -⟩ := List.lookup_eq_some_iff.1 h
    exact get?_ofList nodup (List.mem_append_right _ List.mem_cons_self)

end SortedMap

namespace RecordedNode

/-- The parameter of a name is the value of the name. -/
theorem withParams_get? (kind : NativeKind) {params : List (String × Value)}
    (nodup : (params.map Prod.fst).Nodup) (name : String) :
    (withParams kind params).params.get? name = (params.lookup name).bind Param.ofValue? := by
  refine (SortedMap.get?_ofList_eq_lookup (Recording.nodup_set nodup) name).trans ?_
  induction params with
  | nil => rfl
  | cons e rest ih =>
    obtain ⟨key, value⟩ := e
    rw [List.map_cons, List.nodup_cons] at nodup
    have absent : rest.lookup key = none := by
      refine List.lookup_eq_none_iff.2 fun e he => ?_
      simpa using fun same : key = e.1 => nodup.1 (List.mem_map.2 ⟨e, he, same.symm⟩)
    rw [List.filterMap_cons, List.lookup_cons]
    by_cases hk : name = key
    · subst hk
      cases hv : Param.ofValue? value with
      | none => simp [hv, ih nodup.2, absent]
      | some p => simp [hv]
    · have other : (name == key) = false := by simpa using hk
      cases Param.ofValue? value with
      | none => simpa [other] using ih nodup.2
      | some p => simpa [other, List.lookup_cons] using ih nodup.2

end RecordedNode

namespace Recording

variable {r r' : Recording} {outside : Outside} {v a b c : Value} {x y z : Lanes}

theorem lanes_extends (h : r.Extends r') (hv : v.Before r.nodes.size) :
    r'.lanes outside v = r.lanes outside v :=
  param_congr hv fun _ ha => h.lanesAt_eq ha

/-- The nodes of a list of parameters are there. -/
theorem create_backward {kind : NativeKind} {params : List (String × Value)} (h : r.Backward)
    (hp : ∀ e ∈ params, e.2.Before r.nodes.size) : (r.create kind params).2.Backward := by
  intro n hn e he
  simp only [create_nodes, Array.getElem_push] at he hn
  split at he
  · rename_i old
    exact h n old e he
  · rename_i new
    obtain rfl : n = r.nodes.size := by
      rw [Array.size_push] at hn
      omega
    obtain ⟨e', he', hset⟩ := List.mem_filterMap.1 (SortedMap.mem_of_mem_ofList he)
    obtain ⟨p, hp', rfl⟩ := Option.map_eq_some_iff.1 hset
    exact hp e' he' p hp'

/-- The lanes of a new node are computed from those of its values. -/
theorem lanes_created {kind : NativeKind} {params : List (String × Value)} (h : r.Backward)
    (hp : ∀ e ∈ params, e.2.Before r.nodes.size) (nodup : (params.map Prod.fst).Nodup) :
    (r.create kind params).2.lanes outside (.node (r.create kind params).1) =
      outside.compute ⟨r.nodes.size⟩ kind fun name =>
        r.lanes outside ((params.lookup name).getD .unset) := by
  have created : (r.create kind params).2.nodes[r.nodes.size]? = some (.withParams kind params) :=
    Array.getElem?_push_size
  refine (lanesAt_eq (create_backward h hp) created).trans ?_
  refine congrArg (outside.compute _ kind) (funext fun name => ?_)
  rw [RecordedNode.withParams_get? kind nodup]
  cases found : params.lookup name with
  | none => rfl
  | some v =>
    obtain ⟨before, after, rfl, -⟩ := List.lookup_eq_some_iff.1 found
    exact lanes_extends (r.create_extends kind _)
      (hp (name, v) (List.mem_append_right _ List.mem_cons_self))

end Recording

/-! ## The two paths -/

/-- A value of the recording, and the lanes that it stands for. -/
structure Recording.Stands (r : Recording) (outside : Outside) (v : Value) (lanes : Lanes) :
    Prop where
  backward : r.Backward
  before : v.Before r.nodes.size
  lanes_eq : r.lanes outside v = lanes

namespace Recording.Stands

variable {r r' : Recording} {outside : Outside} {v : Value} {x y : Lanes}

theorem mono (h : r.Stands outside v x) (hr : r.Extends r') (backward : r'.Backward) :
    r'.Stands outside v x where
  backward := backward
  before p hp := by
    have := h.before p hp
    have := hr.size_le
    cases p <;> simp only [Param.Before] at *
    omega
  lanes_eq := (lanes_extends hr h.before).trans h.lanes_eq

theorem constant (backward : r.Backward) (lanes : Lanes) :
    r.Stands outside (.constant lanes) lanes :=
  ⟨backward, fun _ hp => Option.some.inj hp ▸ trivial, rfl⟩

theorem eq_of_constant (h : r.Stands outside (.constant x) y) : x = y := h.lanes_eq

/-- Nothing is wired as zero. -/
theorem or_zero (h : r.Stands outside v x) : r.Stands outside (v.or (.constant .zero)) x := by
  cases v with
  | unset => exact h.lanes_eq ▸ constant h.backward .zero
  | _ => exact h

end Recording.Stands

namespace Emission

/-- One emission comes to a value with `P`, the other one emits nothing and comes to the lanes of
that value. -/
structure Parallel (outside : Outside) (P : Value → Prop) (r : Recording)
    (e folded : Emission Value) : Prop where
  extending : r.Extends (e.run r).2
  result : P (e.run r).1
  folds : ∃ lanes, folded = pure (.constant lanes) ∧ (e.run r).2.Stands outside (e.run r).1 lanes

variable {r : Recording} {outside : Outside} {P Q : Value → Prop} {e folded : Emission Value}
  {f g : Value → Emission Value} {v a b c : Value} {x y z : Lanes}

theorem Parallel.done (h : r.Stands outside v x) (result : P v) :
    Parallel outside P r (pure v) (pure (.constant x)) :=
  ⟨.refl r, result, x, rfl, h⟩

theorem Parallel.imp (h : Parallel outside P r e folded) (hpq : ∀ v, P v → Q v) :
    Parallel outside Q r e folded :=
  ⟨h.extending, hpq _ h.result, h.folds⟩

theorem Parallel.bind (h : Parallel outside P r e folded)
    (go : ∀ r', r.Extends r' → ∀ v x, P v → r'.Stands outside v x →
      Parallel outside Q r' (f v) (g (.constant x))) :
    Parallel outside Q r (e >>= f) (folded >>= g) := by
  obtain ⟨extending, result, lanes, rfl, stands⟩ := h
  have rest := go _ extending _ _ result stands
  have run := run_bind e f r
  exact ⟨run ▸ extending.trans rest.extending, run ▸ rest.result, run ▸ rest.folds⟩

/-! ## Operators -/

/-- The value is something. -/
abbrev Given (v : Value) : Prop := v.isUnset = false

theorem node_parallel {kind : NativeKind} {params : List (String × Value)} (h : r.Backward)
    (hp : ∀ e ∈ params, e.2.Before r.nodes.size) (nodup : (params.map Prod.fst).Nodup)
    (hx : outside.compute ⟨r.nodes.size⟩ kind
      (fun name => r.lanes outside ((params.lookup name).getD .unset)) = x) :
    Parallel outside Given r (node kind params) (pure (.constant x)) where
  extending := r.create_extends kind params
  result := rfl
  folds := by
    refine ⟨x, rfl, Recording.create_backward h hp, ?_, ?_⟩
    · rintro p ⟨⟩
      show r.nodes.size < (r.nodes.push _).size
      simp
    · exact (Recording.lanes_created h hp nodup).trans hx

/-- Every operator evaluates all three operands of a node: those beyond its arity make no
difference. -/
theorem compute_arithmetic (outside : Outside) (handle : NodeHandle) (op : Operator)
    (lanes : String → Lanes) :
    outside.compute handle (.arithmetic op) lanes =
      Folding.evaluate op (lanes "color0") (lanes "color1") (lanes "color2") := by
  cases op <;> rfl

theorem arithmetic_parallel (op : Operator) {operands : List Value} {lanes : List Lanes}
    (h : r.Backward) (few : operands.length ≤ 3)
    (stands : List.Forall₂ (r.Stands outside) operands lanes) :
    Parallel outside Given r (arithmetic op operands)
      (pure (.constant (Folding.evaluate op (lanes.getD 0 .zero) (lanes.getD 1 .zero)
        (lanes.getD 2 .zero)))) := by
  have unset : r.lanes outside .unset = .zero := rfl
  rcases stands with _ | ⟨ha, _ | ⟨hb, _ | ⟨hc, _ | ⟨hd, rest⟩⟩⟩⟩
  · exact node_parallel h (by simp) (by simp) (by simp [compute_arithmetic, unset])
  · refine node_parallel h ?_ ?_ ?_
    · simpa using ha.or_zero.before
    · simp
    · simp [compute_arithmetic, unset, color_names, List.lookup_cons, ha.or_zero.lanes_eq]
  · refine node_parallel h ?_ ?_ ?_
    · simpa using ⟨ha.or_zero.before, hb.or_zero.before⟩
    · simp [color_names]
    · simp [compute_arithmetic, unset, color_names, List.lookup_cons, ha.or_zero.lanes_eq,
        hb.or_zero.lanes_eq]
  · refine node_parallel h ?_ ?_ ?_
    · simpa using ⟨ha.or_zero.before, hb.or_zero.before, hc.or_zero.before⟩
    · simp [color_names]
    · simp [compute_arithmetic, color_names, List.lookup_cons, ha.or_zero.lanes_eq,
        hb.or_zero.lanes_eq, hc.or_zero.lanes_eq]
  · simp only [List.length_cons] at few
    omega

theorem unary_parallel (op : Operator) (ha : r.Stands outside a x) :
    Parallel outside Given r (unary op a) (unary op (.constant x)) := by
  have emitted := arithmetic_parallel op ha.backward (by simp) (.cons ha .nil)
  cases a with
  | constant =>
    obtain rfl := ha.eq_of_constant
    exact .done (.constant ha.backward _) rfl
  | _ => exact emitted

theorem binary_parallel (op : Operator) (ha : r.Stands outside a x) (hb : r.Stands outside b y) :
    Parallel outside Given r (binary op a b) (binary op (.constant x) (.constant y)) := by
  have emitted := arithmetic_parallel op ha.backward (by simp) (.cons ha (.cons hb .nil))
  cases a with
  | constant =>
    cases b with
    | constant =>
      obtain rfl := ha.eq_of_constant
      obtain rfl := hb.eq_of_constant
      exact .done (.constant ha.backward _) rfl
    | _ => exact emitted
  | _ => exact emitted

theorem ternary_parallel (ha : r.Stands outside a x) (hb : r.Stands outside b y)
    (hc : r.Stands outside c z) :
    Parallel outside Given r (ternary a b c)
      (ternary (.constant x) (.constant y) (.constant z)) := by
  have emitted :=
    arithmetic_parallel .ternary ha.backward (by simp) (.cons ha (.cons hb (.cons hc .nil)))
  cases a with
  | constant =>
    cases b with
    | constant =>
      cases c with
      | constant =>
        obtain rfl := ha.eq_of_constant
        obtain rfl := hb.eq_of_constant
        obtain rfl := hc.eq_of_constant
        exact .done (.constant ha.backward _) rfl
      | _ => exact emitted
    | _ => exact emitted
  | _ => exact emitted

theorem apply_parallel (op : Operator) (ha : r.Stands outside a x) (hb : r.Stands outside b y) :
    Parallel outside Given r (apply op a b) (apply op (.constant x) (.constant y)) := by
  unfold apply
  split
  · exact unary_parallel op ha
  · exact binary_parallel op ha hb

/-! ## Composite operations -/

theorem fract_parallel (ha : r.Stands outside a x) :
    Parallel outside Given r (fract a) (fract (.constant x)) := by
  refine (unary_parallel .floor ha).bind fun _ hr _ _ _ floor => ?_
  exact binary_parallel .sub (ha.mono hr floor.backward) floor

theorem ceil_parallel (ha : r.Stands outside a x) :
    Parallel outside Given r (ceil a) (ceil (.constant x)) := by
  refine (unary_parallel .floor ha).bind fun _ h₁ _ _ _ floor => ?_
  replace ha := ha.mono h₁ floor.backward
  refine (binary_parallel .equal ha floor).bind fun _ h₂ _ _ _ isWhole => ?_
  replace floor := floor.mono h₂ isWhole.backward
  refine (binary_parallel .add floor (.constant floor.backward _)).bind fun _ h₃ _ _ _ next => ?_
  replace isWhole := isWhole.mono h₃ next.backward
  exact ternary_parallel isWhole (ha.mono (h₂.trans h₃) next.backward) next

theorem round_parallel (ha : r.Stands outside a x) :
    Parallel outside Given r (round a) (round (.constant x)) := by
  refine (unary_parallel .floor ha).bind fun _ h₁ _ _ _ floor => ?_
  refine (fract_parallel (ha.mono h₁ floor.backward)).bind fun _ h₂ _ _ _ fract => ?_
  replace floor := floor.mono h₂ fract.backward
  refine (binary_parallel .lower fract (.constant fract.backward _)).bind fun _ h₃ _ _ _ down => ?_
  replace floor := floor.mono h₃ down.backward
  refine (binary_parallel .add floor (.constant floor.backward _)).bind fun _ h₄ _ _ _ next => ?_
  exact ternary_parallel (down.mono h₄ next.backward) (floor.mono h₄ next.backward) next

theorem clamp_parallel (ha : r.Stands outside a x) :
    Parallel outside Given r (clamp a) (clamp (.constant x)) := by
  refine (binary_parallel .min ha (.constant ha.backward _)).bind fun _ _ _ _ _ upper => ?_
  exact binary_parallel .max upper (.constant upper.backward _)

theorem combine_parallel (ha : r.Stands outside a x) (hb : r.Stands outside b y)
    (hc : r.Stands outside c z) :
    Parallel outside Given r (combine a b c)
      (combine (.constant x) (.constant y) (.constant z)) := by
  have lane : ∀ {q v l} (mask : Lanes), q.Stands outside v l →
      Parallel outside Given q (mul v (.constant mask)) (mul (.constant l) (.constant mask)) :=
    fun mask h => binary_parallel .mul h (.constant h.backward mask)
  refine (lane _ ha).bind fun _ h₁ _ _ _ first => ?_
  refine (lane _ (hb.mono h₁ first.backward)).bind fun _ h₂ _ _ _ second => ?_
  replace first := first.mono h₂ second.backward
  refine (lane _ (hc.mono (h₁.trans h₂) second.backward)).bind fun _ h₃ _ _ _ third => ?_
  replace first := first.mono h₃ third.backward
  replace second := second.mono h₃ third.backward
  refine (binary_parallel .add first second).bind fun _ h₄ _ _ _ two => ?_
  refine (binary_parallel .add two (third.mono h₄ two.backward)).bind fun _ _ _ _ _ three => ?_
  exact binary_parallel .add three (.constant three.backward _)

theorem weighted_parallel (lane : Nat) (weight : Single) (ha : r.Stands outside a x) :
    Parallel outside Given r (weighted a lane weight) (weighted (.constant x) lane weight) := by
  refine (unary_parallel (.select lane) ha).bind fun _ _ _ _ _ channel => ?_
  exact binary_parallel .mul channel (.constant channel.backward _)

/-- Once the first channel is there, every further one is added to the sum. -/
theorem luminance_parallel {sum : Value} (set : Given sum) (lane : Nat) (weights : List Single)
    (ha : r.Stands outside a x) (hs : r.Stands outside sum y) :
    Parallel outside Given r (luminance a sum lane weights)
      (luminance (.constant x) (.constant y) lane weights) := by
  induction weights generalizing r sum y lane with
  | nil => exact .done hs set
  | cons weight rest ih =>
    refine (weighted_parallel lane weight ha).bind fun _ h₁ _ _ _ channel => ?_
    rw [set]
    replace hs := hs.mono h₁ channel.backward
    refine (binary_parallel .add hs channel).bind fun _ h₂ _ _ set sum => ?_
    exact ih set (lane + 1) (ha.mono (h₁.trans h₂) sum.backward) sum

/-- The first channel is the sum. -/
theorem luminance_start (lane : Nat) (weight : Single) (rest : List Single)
    (ha : r.Stands outside a x) :
    Parallel outside Given r (luminance a .unset lane (weight :: rest))
      (luminance (.constant x) .unset lane (weight :: rest)) := by
  refine (weighted_parallel lane weight ha).bind fun _ hr _ _ set first => ?_
  exact luminance_parallel set (lane + 1) rest (ha.mono hr first.backward) first

theorem toBw_parallel (ha : r.Stands outside a x) :
    Parallel outside Given r (toBw a) (toBw (.constant x)) := by
  refine (luminance_start 0 _ _ ha).bind fun _ h₁ _ _ _ gray => ?_
  refine (unary_parallel (.select 3) (ha.mono h₁ gray.backward)).bind fun _ h₂ _ _ _ alpha => ?_
  replace gray := gray.mono h₂ alpha.backward
  refine (binary_parallel .mul alpha (.constant alpha.backward _)).bind fun _ h₃ _ _ _ alpha => ?_
  exact binary_parallel .add (gray.mono h₃ alpha.backward) alpha

theorem blend_constant (x y z : Lanes) :
    blend (.constant x) (.constant y) (.constant z) = pure (.constant (Lanes.mix x y z)) := by
  rw [blend, Lanes.mix, isSplat_constant, isSplat_constant]
  by_cases zero : x.eq (.splat .zero)
  · rw [if_pos zero, if_pos zero]
  · by_cases one : x.eq (.splat .one)
    · rw [if_neg zero, if_neg zero, if_pos one, if_pos one]
    · rw [if_neg zero, if_neg zero, if_neg one, if_neg one]

theorem blend_parallel (ha : r.Stands outside a x) (hb : r.Stands outside b y)
    (hc : r.Stands outside c z) :
    Parallel outside (fun _ => True) r (blend a b c)
      (blend (.constant x) (.constant y) (.constant z)) := by
  rw [blend_constant]
  have emitted : Parallel outside (fun _ => True) r
      (node .blendValue [("weight", a), ("color0", b), ("color1", c)])
      (pure (.constant (Lanes.mix x y z))) := by
    refine (node_parallel ha.backward ?_ ?_ ?_).imp fun _ _ => trivial
    · simpa using ⟨ha.before, hb.before, hc.before⟩
    · simp
    · simp [Outside.compute, NativeKind.compute?, List.lookup_cons, ha.lanes_eq, hb.lanes_eq,
        hc.lanes_eq]
  cases a with
  | constant =>
    obtain rfl := ha.eq_of_constant
    unfold blend
    rw [isSplat_constant, isSplat_constant]
    split
    · rename_i zero
      rw [Lanes.mix, if_pos zero]
      exact .done hb trivial
    · rename_i zero
      split
      · rename_i one
        rw [Lanes.mix, if_neg zero, if_pos one]
        exact .done hc trivial
      · rename_i one
        cases b with
        | constant =>
          cases c with
          | constant =>
            obtain rfl := hb.eq_of_constant
            obtain rfl := hc.eq_of_constant
            rw [Lanes.mix, if_neg zero, if_neg one]
            exact .done (.constant ha.backward _) trivial
          | _ => exact emitted
        | _ => exact emitted
  | _ => exact emitted

end Emission

/-! ## All operations -/

/-- The operations of arithmetic. Each takes the first of three operands that it needs. -/
inductive Operation where
  | unary (op : Operator)
  | binary (op : Operator)
  | apply (op : Operator)
  | ternary
  | add
  | sub
  | mul
  | div
  | min
  | max
  | floor
  | neg
  | fract
  | ceil
  | round
  | clamp
  | select (lane : Nat)
  | combine
  | toBw
  | blend
  deriving DecidableEq

namespace Operation

/-- The operation on three operands. -/
def emit : Operation → Value → Value → Value → Emission Value
  | .unary op, a, _, _ => Emission.unary op a
  | .binary op, a, b, _ => Emission.binary op a b
  | .apply op, a, b, _ => Emission.apply op a b
  | .ternary, a, b, c => Emission.ternary a b c
  | .add, a, b, _ => Emission.add a b
  | .sub, a, b, _ => Emission.sub a b
  | .mul, a, b, _ => Emission.mul a b
  | .div, a, b, _ => Emission.div a b
  | .min, a, b, _ => Emission.min a b
  | .max, a, b, _ => Emission.max a b
  | .floor, a, _, _ => Emission.floor a
  | .neg, a, _, _ => Emission.neg a
  | .fract, a, _, _ => Emission.fract a
  | .ceil, a, _, _ => Emission.ceil a
  | .round, a, _, _ => Emission.round a
  | .clamp, a, _, _ => Emission.clamp a
  | .select lane, a, _, _ => Emission.select a lane
  | .combine, a, b, c => Emission.combine a b c
  | .toBw, a, _, _ => Emission.toBw a
  | .blend, a, b, c => Emission.blend a b c

variable {r : Recording} {outside : Outside} {a b c : Value} {x y z : Lanes}

theorem parallel (op : Operation) (ha : r.Stands outside a x) (hb : r.Stands outside b y)
    (hc : r.Stands outside c z) :
    Emission.Parallel outside (fun _ => True) r (op.emit a b c)
      (op.emit (.constant x) (.constant y) (.constant z)) := by
  have any : ∀ {e folded}, Emission.Parallel outside Emission.Given r e folded →
      Emission.Parallel outside (fun _ => True) r e folded := fun h => h.imp fun _ _ => trivial
  cases op with
  | unary op => exact any (Emission.unary_parallel op ha)
  | binary op => exact any (Emission.binary_parallel op ha hb)
  | apply op => exact any (Emission.apply_parallel op ha hb)
  | ternary => exact any (Emission.ternary_parallel ha hb hc)
  | add | sub | mul | div | min | max => exact any (Emission.binary_parallel _ ha hb)
  | floor => exact any (Emission.unary_parallel _ ha)
  | neg => exact any (Emission.binary_parallel .sub (.constant ha.backward _) ha)
  | fract => exact any (Emission.fract_parallel ha)
  | ceil => exact any (Emission.ceil_parallel ha)
  | round => exact any (Emission.round_parallel ha)
  | clamp => exact any (Emission.clamp_parallel ha)
  | select lane => exact any (Emission.unary_parallel _ ha)
  | combine => exact any (Emission.combine_parallel ha hb hc)
  | toBw => exact any (Emission.toBw_parallel ha)
  | blend => exact Emission.blend_parallel ha hb hc

/-- In every recording whose references lead back, an operation on any values of the recording comes
to the lanes that the same operation folds to on the constants that these values stand for. What it
emits refers back, and constants emit nothing. -/
theorem folded_agrees_emitted (op : Operation) (outside : Outside) (r : Recording)
    (backward : r.Backward) (a b c : Value) (ha : a.Before r.nodes.size) (hb : b.Before r.nodes.size)
    (hc : c.Before r.nodes.size) :
    ∃ lanes : Lanes,
      (∀ q : Recording, (op.emit (.constant (r.lanes outside a)) (.constant (r.lanes outside b))
        (.constant (r.lanes outside c))).run q = (.constant lanes, q)) ∧
      ((op.emit a b c).run r).2.lanes outside ((op.emit a b c).run r).1 = lanes ∧
      r.Extends ((op.emit a b c).run r).2 ∧ ((op.emit a b c).run r).2.Backward ∧
      ((op.emit a b c).run r).1.Before ((op.emit a b c).run r).2.nodes.size ∧
      (a.isConstant → b.isConstant → c.isConstant → ((op.emit a b c).run r).2 = r) := by
  have stands : ∀ {v : Value}, v.Before r.nodes.size → r.Stands outside v (r.lanes outside v) :=
    fun hv => ⟨backward, hv, rfl⟩
  obtain ⟨extending, -, lanes, folds, stands⟩ := op.parallel (stands ha) (stands hb) (stands hc)
  refine ⟨lanes, fun q => by rw [folds]; rfl, stands.lanes_eq, extending, stands.backward,
    stands.before, fun constA constB constC => ?_⟩
  cases a <;> cases b <;> cases c <;> cases constA <;> cases constB <;> cases constC
  exact congrArg (fun e => (Emission.run e r).2) folds

/-- A texture, rounded down, weighs an image against nothing. -/
theorem folded_agrees_emitted_blend :
    let r : Recording := ⟨#[⟨.imageTexture, .empty⟩, .withParams (.arithmetic .floor)
      [("color0", .node ⟨0⟩)]], [⟨"wood", .repeat⟩], .empty, .empty⟩
    let outside : Outside := ⟨fun _ => .splat Folding.half, fun _ => .splat .one⟩
    r.Backward ∧ (Value.node ⟨1⟩).Before r.nodes.size ∧ (Value.image ⟨0⟩).Before r.nodes.size ∧
      Value.unset.Before r.nodes.size ∧
      ∃ lanes : Lanes,
        (∀ q : Recording, (Operation.blend.emit (.constant (r.lanes outside (.node ⟨1⟩)))
          (.constant (r.lanes outside (.image ⟨0⟩))) (.constant (r.lanes outside .unset))).run q =
            (.constant lanes, q)) ∧
        ((Operation.blend.emit (.node ⟨1⟩) (.image ⟨0⟩) .unset).run r).2.lanes outside
          ((Operation.blend.emit (.node ⟨1⟩) (.image ⟨0⟩) .unset).run r).1 = lanes := by
  intro r outside
  have backward : r.Backward := by decide +kernel
  have weight : (Value.node ⟨1⟩).Before r.nodes.size := by decide +kernel
  have image : (Value.image ⟨0⟩).Before r.nodes.size := by decide +kernel
  have unset : Value.unset.Before r.nodes.size := by decide +kernel
  obtain ⟨lanes, folded, emitted, -⟩ := folded_agrees_emitted .blend outside r backward
    (.node ⟨1⟩) (.image ⟨0⟩) .unset weight image unset
  exact ⟨backward, weight, image, unset, lanes, folded, emitted⟩

end Operation

end MaterialLowering
