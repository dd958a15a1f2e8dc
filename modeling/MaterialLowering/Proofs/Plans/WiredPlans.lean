import MaterialLowering.Proofs.Plans.PlansAlike

/-!
# Operands of arithmetic nodes

Operators are chosen by properties and by rules, and their nodes are created in many ways. In each of
them an arithmetic node gets one parameter for every operand that its operator takes, and an operand
that is nothing is wired as zero.

Main definitions:
* `NativeKind.Takes`: a node of the kind may have these parameters.
* `Emission.Wired`, `Plan.Wired`: whatever it is answered, it creates no other nodes.

Results:
* `Handler.ofKind?_wired`: the handlers.
* `RuleSite.plan_wired`: the rules of an entry whose nodes are not arithmetic themselves.
-/

namespace MaterialLowering

open Numeric (Single)

/-- The name of an operand. -/
def Operator.operandName (index : Nat) : String := "color" ++ toString index

/-- A node of this kind may have these parameters: an arithmetic node has those of its operator for as
    many operands as it takes. -/
def NativeKind.Takes (kind : NativeKind) (params : List (String × Value)) : Prop :=
  ∀ op, kind = .arithmetic op → ∃ operands : List Value, operands.length = op.arity ∧
    Emission.arithmetic op operands = .node (.arithmetic op) params

/-! ## Emissions -/

namespace Emission

variable {α β : Type}

/-- Every arithmetic node that is created has the operands of its operator. -/
inductive Wired : Emission α → Prop
  | done (a : α) : Wired (.done a)
  | create {kind : NativeKind} {params : List (String × Value)} {next : NodeHandle → Emission α}
      (takes : kind.Takes params) (go : ∀ handle, Wired (next handle)) :
      Wired (.create kind params next)

theorem Wired.bind {e : Emission α} {f : α → Emission β} (h : Wired e) (hf : ∀ a, Wired (f a)) :
    Wired (e >>= f) := by
  induction h with
  | done a => exact hf a
  | create takes _ ih => exact .create takes ih

/-! ### Operators -/

theorem operands_wired {op : Operator} {operands : List Value}
    (full : operands.length = op.arity) : Wired (arithmetic op operands) := by
  refine .create (fun other same => ?_) fun _ => .done _
  cases same
  exact ⟨operands, full, rfl⟩

theorem unary_wired {op : Operator} (one : op.arity = 1) (a : Value) : Wired (unary op a) := by
  unfold unary
  split
  · exact .done _
  · exact operands_wired one.symm

theorem binary_wired {op : Operator} (two : op.arity = 2) (a b : Value) : Wired (binary op a b) := by
  unfold binary
  split
  · exact .done _
  · exact operands_wired two.symm

theorem ternary_wired (choice a b : Value) : Wired (ternary choice a b) := by
  unfold ternary
  split
  · exact .done _
  · exact operands_wired rfl

theorem arity_pos (op : Operator) : 0 < op.arity := by cases op <;> decide

theorem arity_le (op : Operator) : op.arity ≤ 3 := by cases op <;> decide

/-- An operator of at most two operands gets all of them. -/
theorem apply_wired {op : Operator} (few : op.arity ≤ 2) (a b : Value) : Wired (apply op a b) := by
  have some := arity_pos op
  unfold apply
  by_cases one : op.arity = 1
  · rw [if_pos one]
    exact unary_wired one a
  · rw [if_neg one]
    exact binary_wired (by omega) a b

theorem select_wired (a : Value) (lane : Nat) : Wired (select a lane) := by
  refine unary_wired ?_ a
  unfold Operator.select
  split <;> rfl

/-! ### Composite operations -/

theorem fract_wired (a : Value) : Wired (fract a) :=
  (unary_wired rfl a).bind fun _ => binary_wired rfl _ _

theorem ceil_wired (a : Value) : Wired (ceil a) := by
  refine (unary_wired rfl a).bind fun floor => ?_
  refine (binary_wired rfl a floor).bind fun isWhole => ?_
  exact (binary_wired rfl floor one).bind fun next => ternary_wired isWhole a next

theorem round_wired (a : Value) : Wired (round a) := by
  refine (unary_wired rfl a).bind fun floor => (fract_wired a).bind fun fract => ?_
  refine (binary_wired rfl fract half).bind fun roundsDown => ?_
  exact (binary_wired rfl floor one).bind fun next => ternary_wired roundsDown floor next

theorem clamp_wired (a : Value) : Wired (clamp a) :=
  (binary_wired rfl a one).bind fun _ => binary_wired rfl _ _

theorem combine_wired (x y z : Value) : Wired (combine x y z) := by
  refine (binary_wired rfl x _).bind fun x => ?_
  refine (binary_wired rfl y _).bind fun y => ?_
  refine (binary_wired rfl z _).bind fun z => ?_
  refine (binary_wired rfl x y).bind fun xy => ?_
  exact (binary_wired rfl xy z).bind fun xyz => binary_wired rfl xyz _

theorem luminance_wired (color sum : Value) (lane : Nat) (weights : List Single) :
    Wired (luminance color sum lane weights) := by
  induction weights generalizing sum lane with
  | nil => exact .done sum
  | cons weight rest ih =>
    have channel : Wired (weighted color lane weight) :=
      (select_wired color lane).bind fun _ => binary_wired rfl _ _
    refine channel.bind fun channel => ?_
    dsimp only
    split
    · exact ih channel (lane + 1)
    · exact (binary_wired rfl sum channel).bind fun sum => ih sum (lane + 1)

theorem toBw_wired (color : Value) : Wired (toBw color) := by
  refine (luminance_wired color .unset 0 Folding.luma).bind fun gray => ?_
  refine (select_wired color 3).bind fun alpha => ?_
  exact (binary_wired rfl alpha _).bind fun alpha => binary_wired rfl gray alpha

theorem blend_wired (weight a b : Value) : Wired (blend weight a b) := by
  unfold blend
  split
  · exact .done a
  split
  · exact .done b
  split
  · exact .done _
  · exact .create (fun _ same => by cases same) fun _ => .done _

end Emission

/-! ## Plans -/

namespace Plan

variable {α β : Type}

/-- Whatever the plan is answered, every arithmetic node that it creates has the operands of its
    operator. -/
inductive Wired : Plan α → Prop
  | done (a : α) : Wired (.done a)
  | fail (failure : Failure) : Wired (.fail failure)
  | visit {node : NodeId} {output : String} {next : Value → Plan α} (go : ∀ v, Wired (next v)) :
      Wired (.visit node output next)
  | create {kind : NativeKind} {params : List (String × Value)} {next : NodeHandle → Plan α}
      (takes : kind.Takes params) (go : ∀ handle, Wired (next handle)) :
      Wired (.create kind params next)
  | image {descriptor : ImageDescriptor} {next : Option ImageHandle → Plan α}
      (go : ∀ image, Wired (next image)) : Wired (.image descriptor next)
  | report {notice : Notice} {next : Plan α} (go : Wired next) : Wired (.report notice next)
  | known {node : NodeId} {output name : String} {next : Option Value → Plan α}
      (go : ∀ found, Wired (next found)) : Wired (.known node output name next)
  | remember {node : NodeId} {output name : String} {value : Value} {next : Plan α}
      (go : Wired next) : Wired (.remember node output name value next)

theorem Wired.bind {p : Plan α} {f : α → Plan β} (h : Wired p) (hf : ∀ a, Wired (f a)) :
    Wired (p >>= f) := by
  induction h with
  | done a => exact hf a
  | fail failure => exact .fail failure
  | visit _ ih => exact .visit ih
  | create takes _ ih => exact .create takes ih
  | image _ ih => exact .image ih
  | report _ ih => exact .report ih
  | known _ ih => exact .known ih
  | remember _ ih => exact .remember ih

theorem Wired.ofEmission {e : Emission α} (h : e.Wired) : Wired (Plan.ofEmission e) := by
  induction h with
  | done a => exact .done a
  | create takes _ ih => exact .create takes ih

theorem node_wired {kind : NativeKind} (other : ∀ op, kind ≠ .arithmetic op)
    (params : List (String × Value)) : Wired (Plan.node kind params) :=
  .create (fun op same => (other op same).elim) fun _ => .done _

/-! ### Inputs -/

variable {g : HostGraph} {node : NodeId}

theorem throughLink_wired (key : SocketKey) (unlinked : Socket → Value) :
    Wired (throughLink g node key unlinked) := by
  rw [throughLink_eq]
  split
  · exact .fail _
  · split
    · exact .fail _
    · exact .done _
    · exact .visit .done

theorem input_wired (key : SocketKey) : Wired (input g node key) := throughLink_wired key _

theorem inputLink_wired (key : SocketKey) : Wired (inputLink g node key) := throughLink_wired key _

theorem inputDefault_wired (key : SocketKey) : Wired (inputDefault g node key) := by
  unfold inputDefault HostGraph.socket
  cases g.input node key with
  | none => exact .fail _
  | some socket => exact .done _

theorem optionalLink_wired (name : String) : Wired (optionalLink g node name) := by
  unfold optionalLink
  split
  · exact .done _
  · exact inputLink_wired _

theorem requiredLink_wired (key : SocketKey) : Wired (requiredLink g node key) := by
  refine (inputLink_wired key).bind fun value => ?_
  split
  · exact .fail _
  · exact .done value

end Plan

theorem argument_wired {g : HostGraph} {callSite : NodeId} (formal : String) :
    (Walk.argument g callSite formal).Wired := by
  unfold Walk.argument
  split
  · exact Plan.input_wired _
  · exact .fail _

/-- A node that only hands a value on creates nothing. -/
theorem bypass?_wired {g : HostGraph} {node : NodeId} {plan : Plan Value}
    (h : bypass? g node = some plan) : plan.Wired := by
  unfold bypass? at h
  split at h
  · cases h
    refine (Plan.inputLink_wired _).bind fun value => ?_
    dsimp only
    split
    · exact .report (.done value)
    · exact .done value
  · split at h
    · cases h
      unfold Plan.muted
      split
      · exact Plan.inputLink_wired _
      · exact .done _
    · cases h

/-! ## Handlers -/

namespace Handler

open Plan (input_wired inputLink_wired optionalLink_wired node_wired)
open Plan.Wired (ofEmission)

variable {g : HostGraph} {node : NodeId} {output : String}

theorem clamped_wired (value : Value) : (clamped g node value).Wired := by
  unfold clamped
  split
  · exact ofEmission (Emission.clamp_wired value)
  · exact .done value

theorem materialOutput_wired : (materialOutput g node output).Wired := by
  refine (inputLink_wired _).bind fun surface => ?_
  cases surface with
  | constant | image => exact .fail _
  | node handle => exact .done _
  | unset =>
    dsimp only
    split
    · exact .report (node_wired (by simp) _)
    · exact .fail _

/-- No operation that the host names takes three operands. -/
theorem mathOperator?_arity {operation : String} {op : Operator}
    (h : mathOperator? operation = some op) : op.arity ≤ 2 := by
  unfold mathOperator? at h
  split at h <;> cases h <;> decide

theorem mathResult_wired (operation : String) (a : Value) :
    (mathResult g node operation a).Wired := by
  unfold mathResult
  split
  · exact ofEmission (Emission.fract_wired a)
  · exact ofEmission (Emission.ceil_wired a)
  · exact ofEmission (Emission.round_wired a)
  · cases h : mathOperator? operation with
    | none => exact .fail _
    | some op =>
      have few := mathOperator?_arity h
      dsimp only
      split
      · exact (input_wired _).bind fun b => ofEmission (Emission.apply_wired few a b)
      · exact ofEmission (Emission.apply_wired few a .unset)

theorem math_wired : (math g node output).Wired :=
  (input_wired _).bind fun a => (mathResult_wired _ a).bind clamped_wired

theorem vectorResult_wired (operation : String) (a : Value) :
    (vectorResult g node operation a).Wired := by
  have withSecond : ∀ op : Operator, op.arity = 2 →
      Plan.Wired (do let b ← Plan.input g node (.index 1); (Emission.binary op a b : Plan Value)) :=
    fun op two => (input_wired _).bind fun b => ofEmission (Emission.binary_wired two a b)
  unfold vectorResult
  dsimp only
  split
  · exact ofEmission (Emission.unary_wired rfl a)
  · exact ofEmission (Emission.unary_wired rfl a)
  · exact withSecond .add rfl
  · exact withSecond .sub rfl
  · exact withSecond .average rfl
  · exact withSecond .dot3 rfl
  · exact withSecond .cross3 rfl
  · exact .fail _

theorem vectorMath_wired : (vectorMath g node output).Wired := by
  refine (input_wired _).bind fun a => (vectorResult_wired _ a).bind fun result => ?_
  split
  · exact ofEmission (Emission.toBw_wired result)
  · exact .done result

theorem mixResult_wired {fac color1 color2 : Value} {blend : String} {emission : Emission Value}
    (h : mixResult fac color1 color2 blend = some emission) : emission.Wired := by
  have mixed : ∀ {mix : Emission Value}, mix.Wired →
      (mix >>= fun mixed => Emission.blend fac color1 mixed).Wired :=
    fun wired => wired.bind fun _ => Emission.blend_wired _ _ _
  unfold mixResult at h
  dsimp only at h
  split at h <;> cases h
  · exact Emission.blend_wired _ _ _
  · exact Emission.blend_wired _ _ _
  · exact mixed (Emission.binary_wired rfl _ _)
  · exact mixed (Emission.binary_wired rfl _ _)
  · exact mixed (Emission.binary_wired rfl _ _)
  · exact mixed (Emission.binary_wired rfl _ _)
  · exact mixed ((Emission.binary_wired rfl _ _).bind fun _ => Emission.unary_wired rfl _)
  · exact mixed (Emission.binary_wired rfl _ _)
  · exact mixed (Emission.binary_wired rfl _ _)
  · exact .done _

theorem mixRgb_wired : (mixRgb g node output).Wired := by
  refine (input_wired _).bind fun fac => (input_wired _).bind fun color1 =>
    (input_wired _).bind fun color2 => ?_
  cases h : mixResult fac color1 color2 (g.text node "blend_type" "MIX") with
  | none =>
    simp only [h]
    exact .report (.done _)
  | some emission =>
    simp only [h]
    exact (ofEmission (mixResult_wired h)).bind clamped_wired

theorem mixShader_wired : (mixShader g node output).Wired := by
  refine (input_wired _).bind fun factor => (inputLink_wired _).bind fun shader1 =>
    (inputLink_wired _).bind fun shader2 => ?_
  split
  · exact .fail _
  · exact .done _
  · exact .done _
  · split
    · exact .done _
    split
    · exact .done _
    exact node_wired (by simp) _

theorem addShader_wired : (addShader g node output).Wired := by
  refine (inputLink_wired _).bind fun shader1 => (inputLink_wired _).bind fun shader2 => ?_
  split
  · exact .done _
  · exact .done _
  · exact node_wired (by simp) _

theorem imageDescriptor_wired (name : String) : (imageDescriptor g node name).Wired := by
  unfold imageDescriptor
  dsimp only
  split <;> split <;> split <;> repeat (first | exact .done _ | refine .report ?_)

theorem texImage_wired : (texImage g node output).Wired := by
  unfold texImage
  split
  · exact .done _
  refine (imageDescriptor_wired _).bind fun descriptor => .image fun image => ?_
  cases image with
  | none => exact .report (.done _)
  | some image =>
    refine (optionalLink_wired _).bind fun uv => (node_wired (by simp) _).bind fun texture => ?_
    split
    · exact ofEmission (Emission.select_wired texture 3)
    · exact .done _

theorem texChecker_wired : (texChecker g node output).Wired := by
  have colored : ∀ scale vector : Value, Plan.Wired (do
      let uv ← (Emission.mul scale vector : Plan Value)
      let checker ← Plan.node .checkerTexture [("uv", uv)]
      if output = "Fac" then return checker
      else do
        let color1 ← Plan.input g node (.name "Color1")
        let color2 ← Plan.input g node (.name "Color2")
        Emission.blend checker color1 color2) := by
    intro scale vector
    refine (ofEmission (Emission.binary_wired rfl _ _)).bind fun uv =>
      (node_wired (by simp) _).bind fun checker => ?_
    split
    · exact .done _
    · exact (input_wired _).bind fun _ => (input_wired _).bind fun _ =>
        ofEmission (Emission.blend_wired _ _ _)
  refine (input_wired _).bind fun scale =>
    (ofEmission (Emission.binary_wired rfl _ _)).bind fun scale =>
      (optionalLink_wired _).bind fun linked => ?_
  dsimp only
  split
  · exact (node_wired (by simp) _).bind (colored scale)
  · exact colored scale linked

theorem combine_wired : (combine g node output).Wired :=
  (input_wired _).bind fun x => (input_wired _).bind fun y => (input_wired _).bind fun z =>
    ofEmission (Emission.combine_wired x y z)

theorem separate_wired : (separate g node output).Wired :=
  (input_wired _).bind fun value => ofEmission (Emission.select_wired value _)

theorem rgbToBw_wired : (rgbToBw g node output).Wired :=
  (input_wired _).bind fun color => ofEmission (Emission.toBw_wired color)

theorem brightContrast_wired : (brightContrast g node output).Wired := by
  have second : ∀ {op : Operator}, op.arity = 2 → ∀ a b,
      Plan.Wired (Plan.ofEmission (Emission.binary op a b)) :=
    fun two a b => ofEmission (Emission.binary_wired two a b)
  refine (input_wired _).bind fun bright => (input_wired _).bind fun color =>
    (input_wired _).bind fun contrast => ?_
  refine (second rfl color Emission.half).bind fun centered => ?_
  refine (second rfl contrast Emission.one).bind fun gain => ?_
  refine (second rfl centered gain).bind fun scaled => ?_
  refine (second rfl bright scaled).bind fun shifted => ?_
  exact (second rfl shifted Emission.half).bind fun result => second rfl result Emission.zero

theorem bump_wired : (bump g node output).Wired := by
  have last : ∀ strength signed : Value, Plan.Wired (do
      let normal ← Plan.optionalLink g node "Normal"
      if !normal.isUnset then Plan.say (.bumpNormalIgnored (g.label node))
      Plan.node .bumpMap [("color", signed), ("bumpscale", strength)]) := by
    intro strength signed
    refine (optionalLink_wired _).bind fun normal => ?_
    dsimp only
    split
    · exact .report (node_wired (by simp) _)
    · exact node_wired (by simp) _
  have signed : ∀ strength scaled : Value, Plan.Wired (do
      let signed ← if g.flag node "invert" then Emission.neg scaled else pure scaled
      let normal ← Plan.optionalLink g node "Normal"
      if !normal.isUnset then Plan.say (.bumpNormalIgnored (g.label node))
      Plan.node .bumpMap [("color", signed), ("bumpscale", strength)]) := by
    intro strength scaled
    dsimp only
    split
    · exact (ofEmission (Emission.binary_wired rfl _ _)).bind (last strength)
    · exact last strength scaled
  refine (input_wired _).bind fun strength => (input_wired _).bind fun distance =>
    (optionalLink_wired _).bind fun height => ?_
  dsimp only
  split
  · exact signed strength distance
  · exact (ofEmission (Emission.binary_wired rfl _ _)).bind (signed strength)

theorem normalMap_wired : (normalMap g node output).Wired := by
  refine (input_wired _).bind fun color => (input_wired _).bind fun strength => ?_
  have mapped : Plan.Wired (Plan.node .normalMap [("color", color), ("bumpscale", strength)]) :=
    node_wired (by simp) _
  dsimp only
  split <;> split <;> repeat (first | exact mapped | refine .report ?_)

theorem ofKind?_wired {kind : HostKind} {handler : Handler} (h : ofKind? kind = some handler) :
    (handler g node output).Wired := by
  unfold ofKind? at h
  split at h <;> cases h
  · exact materialOutput_wired
  · exact math_wired
  · exact vectorMath_wired
  · exact mixRgb_wired
  · exact mixShader_wired
  · exact addShader_wired
  · exact texImage_wired
  · exact texChecker_wired
  · exact .done _
  · exact .done _
  · exact combine_wired
  · exact combine_wired
  · exact separate_wired
  · exact separate_wired
  · exact rgbToBw_wired
  · exact brightContrast_wired
  · exact bump_wired
  · exact normalMap_wired
  · exact .report (Plan.inputDefault_wired _)

end Handler

/-! ## Rules -/

/-- No sub-node of the entry is an arithmetic node by its type. -/
def NodeRules.NamesNoOperator (rules : NodeRules) : Prop :=
  ∀ name rule op, rules.get? name = some rule → rule.type ≠ .native (.arithmetic op)

/-- No sub-node of the table is an arithmetic node by its type. -/
def RuleTable.NamesNoOperator (table : RuleTable) : Prop :=
  ∀ kind rules, table.get? kind = some rules → rules.NamesNoOperator

namespace RuleSite

variable {site : RuleSite} {subNode : String → Plan Value}

theorem emission_wired (op : FoldOp) (params : List (String × Value)) : (op.emission params).Wired := by
  cases op with
  | blend => exact Emission.blend_wired _ _ _
  | add | sub | mul | div | max | min | pow => exact Emission.binary_wired rfl _ _

theorem source_wired (source : ValueSource) (hs : ∀ name, (subNode name).Wired) :
    (site.source subNode source).Wired := by
  cases source with
  | input socket => exact Plan.input_wired _
  | link socket => exact Plan.inputLink_wired _
  | default socket => exact Plan.inputDefault_wired _
  | node name => exact hs name
  | literal literal => exact .done _

theorem params_wired (params : List (String × ValueSource)) (hs : ∀ name, (subNode name).Wired) :
    (site.params subNode params).Wired := by
  induction params with
  | nil => exact .done _
  | cons param rest ih =>
    exact (source_wired param.2 hs).bind fun _ => ih.bind fun _ => .done _

theorem fresh_wired (plain : site.rules.NamesNoOperator) (name : String)
    (hs : ∀ name, (subNode name).Wired) : (site.fresh subNode name).Wired := by
  unfold fresh
  cases h : site.rules.get? name with
  | none => exact .fail _
  | some rule =>
    have typed : ∀ values, (rule.type.plan values).Wired := by
      intro values
      cases ht : rule.type with
      | native kind =>
        exact Plan.node_wired (fun op same => plain name rule op h (by rw [ht, same])) values
      | fold op => exact .ofEmission (emission_wired op values)
    have evaluated : Plan.Wired (do
        let values ← site.params subNode rule.params
        let value ← rule.type.plan values
        Plan.remember site.node site.output name value (.done value)) :=
      (params_wired rule.params hs).bind fun values => (typed values).bind fun value =>
        .remember (.done value)
    dsimp only
    cases rule.warn with
    | none => exact evaluated
    | some message => exact .report evaluated

theorem subNode_wired (plain : site.rules.NamesNoOperator) (fuel : Nat) (name : String) :
    (site.subNode fuel name).Wired := by
  induction fuel generalizing name with
  | zero => exact .fail _
  | succ fuel ih =>
    refine .known fun found => ?_
    cases found with
    | some value => exact .done value
    | none => exact fresh_wired plain name ih

theorem plan_wired (plain : site.rules.NamesNoOperator) : site.plan.Wired := by
  unfold plan
  split
  · exact subNode_wired plain _ _
  · exact .report (.done _)

end RuleSite

/-- Whatever there is to do for an output that is not bypassed. -/
theorem task_wired {table : RuleTable} (plain : table.NamesNoOperator) {g : HostGraph} {node : NodeId}
    {output : String} {plan : Plan Value} (h : table.task g node output = .plan plan) : plan.Wired := by
  unfold RuleTable.task RuleTable.resolve? at h
  dsimp only at h
  cases hk : table.get? (g.kind node) with
  | some rules =>
    rw [hk] at h
    cases h
    have ofEntry : (RuleSite.mk g (g.kind node) rules node output).rules.NamesNoOperator :=
      plain _ _ hk
    exact RuleSite.plan_wired ofEntry
  | none =>
    rw [hk] at h
    cases hh : Handler.ofKind? (g.kind node) with
    | some handler =>
      rw [hh] at h
      cases h
      exact Handler.ofKind?_wired hh
    | none =>
      rw [hh] at h
      generalize g.kind node = kind at h
      cases kind <;> cases h <;> first | exact Plan.input_wired _ | exact .fail _

end MaterialLowering
