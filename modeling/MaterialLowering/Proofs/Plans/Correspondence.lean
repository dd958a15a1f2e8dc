import Mathlib.Data.List.Forall2
import Mathlib.Order.Basic
import MaterialLowering.Lowering.Plan

/-!
# Plans that are alike

Two walks of one graph ask the same questions and create the same nodes, but the handles that they
get need not be the same. A `Correspondence` says which handles of two native graphs stand for each
other; it grows while the walks go on. Emissions and plans are *alike* when they differ in handles
that correspond and in nothing else, whatever the correspondence grows to.

Results:
* `Emission.Alike.bind`, `Plan.Alike.bind`: programs made of alike parts are alike.
* `Emission.binary_alike`, …, `Emission.blend_alike`: arithmetic looks at no handle.
-/

namespace MaterialLowering

open Numeric (Single)

/-- Handles of two native graphs that stand for each other. -/
structure Correspondence where
  node : NodeHandle → NodeHandle → Prop
  image : ImageHandle → ImageHandle → Prop

namespace Correspondence

instance : Preorder Correspondence where
  le w w' := (∀ a b, w.node a b → w'.node a b) ∧ ∀ a b, w.image a b → w'.image a b
  le_refl _ := ⟨fun _ _ h => h, fun _ _ h => h⟩
  le_trans _ _ _ h h' := ⟨fun _ _ hab => h'.1 _ _ (h.1 _ _ hab), fun _ _ hab => h'.2 _ _ (h.2 _ _ hab)⟩

variable {w w' : Correspondence}

/-- The same value up to handles. An output never comes to an image. -/
inductive Answer (w : Correspondence) : Value → Value → Prop
  | constant (lanes : Lanes) : Answer w (.constant lanes) (.constant lanes)
  | node {a b : NodeHandle} (h : w.node a b) : Answer w (.node a) (.node b)
  | unset : Answer w .unset .unset

/-- The same parameter up to handles. Only the data of an image texture is an image. -/
inductive Parameter (w : Correspondence) (kind : NativeKind) : String × Value → String × Value → Prop
  | answer {name : String} {a b : Value} (h : w.Answer a b) : Parameter w kind (name, a) (name, b)
  | image {a b : ImageHandle} (hk : kind = .imageTexture) (h : w.image a b) :
    Parameter w kind ("data", .image a) ("data", .image b)

theorem Answer.mono {a b : Value} (hw : w ≤ w') (h : w.Answer a b) : w'.Answer a b := by
  cases h with
  | constant lanes => exact .constant lanes
  | node h => exact .node (hw.1 _ _ h)
  | unset => exact .unset

theorem Parameter.mono {kind : NativeKind} {p q : String × Value} (hw : w ≤ w')
    (h : w.Parameter kind p q) : w'.Parameter kind p q := by
  cases h with
  | answer h => exact .answer (h.mono hw)
  | image hk h => exact .image hk (hw.2 _ _ h)

theorem Answer.scalar (v : Single) : w.Answer (.scalar v) (.scalar v) := .constant _

theorem Answer.vec4 (x y z t : Single) : w.Answer (.vec4 x y z t) (.vec4 x y z t) := .constant _

theorem Answer.ofLanes? (lanes : Option Lanes) : w.Answer (.ofLanes? lanes) (.ofLanes? lanes) := by
  cases lanes with
  | none => exact .unset
  | some lanes => exact .constant lanes

theorem Answer.isUnset_eq {a b : Value} (h : w.Answer a b) : a.isUnset = b.isUnset := by
  cases h <;> rfl

theorem Answer.isSplat_eq {a b : Value} (h : w.Answer a b) (v : Single) :
    a.isSplat v = b.isSplat v := by
  cases h <;> rfl

theorem Answer.or {a b c d : Value} (h : w.Answer a b) (h' : w.Answer c d) :
    w.Answer (a.or c) (b.or d) := by
  cases h with
  | constant lanes => exact .constant lanes
  | node h => exact .node h
  | unset => exact h'

end Correspondence

/-! ## Emissions -/

namespace Emission

variable {α β α' β' : Type}

/-- Emissions that differ in corresponding handles only. `P` relates their results. -/
inductive Alike (P : Correspondence → α → β → Prop) : Correspondence → Emission α → Emission β → Prop
  | done {w : Correspondence} {a : α} {b : β} (h : P w a b) : Alike P w (.done a) (.done b)
  | create {w : Correspondence} {kind : NativeKind} {ps qs : List (String × Value)}
      {next : NodeHandle → Emission α} {next' : NodeHandle → Emission β}
      (params : List.Forall₂ (w.Parameter kind) ps qs)
      (go : ∀ w', w ≤ w' → ∀ a b, w'.node a b → Alike P w' (next a) (next' b)) :
      Alike P w (.create kind ps next) (.create kind qs next')

/-- Emissions whose values differ in corresponding handles only. -/
abbrev Agree (w : Correspondence) (e e' : Emission Value) : Prop :=
  Alike Correspondence.Answer w e e'

theorem Alike.bind {P : Correspondence → α → β → Prop} {P' : Correspondence → α' → β' → Prop}
    {w : Correspondence} {e : Emission α} {e' : Emission β} {f : α → Emission α'}
    {f' : β → Emission β'} (h : Alike P w e e')
    (hf : ∀ w', w ≤ w' → ∀ a b, P w' a b → Alike P' w' (f a) (f' b)) :
    Alike P' w (e >>= f) (e' >>= f') := by
  induction h with
  | done h => exact hf _ le_rfl _ _ h
  | create params _ ih =>
    exact .create params fun w' hw a b hab => ih w' hw a b hab fun w'' hw' => hf w'' (hw.trans hw')

variable {w : Correspondence} {a a' b b' c c' : Value}

theorem node_alike (kind : NativeKind) {ps qs : List (String × Value)}
    (params : List.Forall₂ (w.Parameter kind) ps qs) : Agree w (node kind ps) (node kind qs) :=
  .create params fun _ _ _ _ h => .done (.node h)

/-! ### Operators -/

theorem forall₂_mapIdx_operands {kind : NativeKind} {operands operands' : List Value}
    (h : List.Forall₂ w.Answer operands operands') (name : Nat → String) :
    List.Forall₂ (w.Parameter kind)
      (operands.mapIdx fun index operand => (name index, operand.or (.constant .zero)))
      (operands'.mapIdx fun index operand => (name index, operand.or (.constant .zero))) := by
  induction h generalizing name with
  | nil => exact .nil
  | cons h _ ih =>
    simp only [List.mapIdx_cons]
    exact .cons (.answer (h.or (.constant _))) (ih fun index => name (index + 1))

theorem arithmetic_alike (op : Operator) {operands operands' : List Value}
    (h : List.Forall₂ w.Answer operands operands') :
    Agree w (arithmetic op operands) (arithmetic op operands') :=
  node_alike _ (forall₂_mapIdx_operands h fun index => "color" ++ toString index)

theorem unary_alike (op : Operator) (ha : w.Answer a a') :
    Agree w (unary op a) (unary op a') := by
  cases ha with
  | constant lanes => exact .done (.constant _)
  | node h => exact arithmetic_alike op (.cons (.node h) .nil)
  | unset => exact arithmetic_alike op (.cons .unset .nil)

theorem binary_alike (op : Operator) (ha : w.Answer a a') (hb : w.Answer b b') :
    Agree w (binary op a b) (binary op a' b') := by
  have emitted := arithmetic_alike op (.cons ha (.cons hb .nil))
  cases ha with
  | constant lanes =>
    cases hb with
    | constant => exact .done (.constant _)
    | node | unset => exact emitted
  | node | unset => exact emitted

theorem ternary_alike (ha : w.Answer a a') (hb : w.Answer b b') (hc : w.Answer c c') :
    Agree w (ternary a b c) (ternary a' b' c') := by
  have emitted := arithmetic_alike .ternary (.cons ha (.cons hb (.cons hc .nil)))
  cases ha with
  | constant lanes =>
    cases hb with
    | constant =>
      cases hc with
      | constant => exact .done (.constant _)
      | node | unset => exact emitted
    | node | unset => exact emitted
  | node | unset => exact emitted

theorem apply_alike (op : Operator) (ha : w.Answer a a') (hb : w.Answer b b') :
    Agree w (apply op a b) (apply op a' b') := by
  unfold apply
  split
  · exact unary_alike op ha
  · exact binary_alike op ha hb

/-! ### Composite operations -/

theorem fract_alike (ha : w.Answer a a') : Agree w (fract a) (fract a') :=
  (unary_alike .floor ha).bind fun _ hw _ _ floor => binary_alike .sub (ha.mono hw) floor

theorem ceil_alike (ha : w.Answer a a') : Agree w (ceil a) (ceil a') := by
  refine (unary_alike .floor ha).bind fun _ h₁ _ _ floor => ?_
  refine (binary_alike .equal (ha.mono h₁) floor).bind fun _ h₂ _ _ isWhole => ?_
  refine (binary_alike .add (floor.mono h₂) (.scalar .one)).bind fun _ h₃ _ _ next => ?_
  exact ternary_alike (isWhole.mono h₃) ((ha.mono h₁).mono (h₂.trans h₃)) next

theorem round_alike (ha : w.Answer a a') : Agree w (round a) (round a') := by
  refine (unary_alike .floor ha).bind fun _ h₁ _ _ floor => ?_
  refine (fract_alike (ha.mono h₁)).bind fun _ h₂ _ _ fract => ?_
  refine (binary_alike .lower fract (.scalar Folding.half)).bind fun _ h₃ _ _ roundsDown => ?_
  refine (binary_alike .add (floor.mono (h₂.trans h₃)) (.scalar .one)).bind fun _ h₄ _ _ next => ?_
  exact ternary_alike (roundsDown.mono h₄) (floor.mono (h₂.trans (h₃.trans h₄))) next

theorem clamp_alike (ha : w.Answer a a') : Agree w (clamp a) (clamp a') :=
  (binary_alike .min ha (.scalar .one)).bind fun _ _ _ _ upper =>
    binary_alike .max upper (.scalar .zero)

theorem combine_alike (ha : w.Answer a a') (hb : w.Answer b b') (hc : w.Answer c c') :
    Agree w (combine a b c) (combine a' b' c') := by
  refine (binary_alike .mul ha (.vec4 ..)).bind fun _ h₁ _ _ x => ?_
  refine (binary_alike .mul (hb.mono h₁) (.vec4 ..)).bind fun _ h₂ _ _ y => ?_
  refine (binary_alike .mul (hc.mono (h₁.trans h₂)) (.vec4 ..)).bind fun _ h₃ _ _ z => ?_
  refine (binary_alike .add (x.mono (h₂.trans h₃)) (y.mono h₃)).bind fun _ h₄ _ _ xy => ?_
  refine (binary_alike .add xy (z.mono h₄)).bind fun _ _ _ _ xyz => ?_
  exact binary_alike .add xyz (.vec4 ..)

theorem luminance_alike (weights : List Single) {sum sum' : Value} (ha : w.Answer a a')
    (hs : w.Answer sum sum') (lane : Nat) :
    Agree w (luminance a sum lane weights) (luminance a' sum' lane weights) := by
  induction weights generalizing w sum sum' lane with
  | nil => exact .done hs
  | cons weight rest ih =>
    have channel : Agree w (weighted a lane weight) (weighted a' lane weight) :=
      (unary_alike _ ha).bind fun _ _ _ _ channel => binary_alike .mul channel (.vec4 ..)
    refine channel.bind fun w₁ h₁ x x' channel => ?_
    dsimp only
    rw [hs.isUnset_eq]
    split
    · exact ih (ha.mono h₁) channel (lane + 1)
    · exact (binary_alike .add (hs.mono h₁) channel).bind fun _ h₂ _ _ sum =>
        ih ((ha.mono h₁).mono h₂) sum (lane + 1)

theorem toBw_alike (ha : w.Answer a a') : Agree w (toBw a) (toBw a') := by
  refine (luminance_alike Folding.luma ha .unset 0).bind fun _ h₁ _ _ gray => ?_
  refine (unary_alike _ (ha.mono h₁)).bind fun _ h₂ _ _ alpha => ?_
  refine (binary_alike .mul alpha (.vec4 ..)).bind fun _ h₃ _ _ alpha => ?_
  exact binary_alike .add (gray.mono (h₂.trans h₃)) alpha

theorem blend_alike (ha : w.Answer a a') (hb : w.Answer b b') (hc : w.Answer c c') :
    Agree w (blend a b c) (blend a' b' c') := by
  have emitted : Agree w (node .blendValue [("weight", a), ("color0", b), ("color1", c)])
      (node .blendValue [("weight", a'), ("color0", b'), ("color1", c')]) :=
    node_alike _ (.cons (.answer ha) (.cons (.answer hb) (.cons (.answer hc) .nil)))
  unfold blend
  rw [ha.isSplat_eq, ha.isSplat_eq]
  split
  · exact .done hb
  split
  · exact .done hc
  cases ha with
  | constant lanes =>
    cases hb with
    | constant =>
      cases hc with
      | constant => exact .done (.constant _)
      | node | unset => exact emitted
    | node | unset => exact emitted
  | node | unset => exact emitted

end Emission

/-! ## Plans -/

/-- The notice shows a handle. -/
def Notice.ShowsHandle : Notice → Prop
  | .unknownNode .. | .finished .. => True
  | _ => False

/-- The walk was not allowed to go on. -/
def Failure.IsTooDeep : Failure → Prop
  | .tooDeep .. => True
  | _ => False

namespace Plan

variable {α β α' β' : Type}

/-- Plans that differ in corresponding handles only. They ask for no output outside of `asks`, and
    unless `keeps` holds they neither ask for nor keep what sub-nodes come to. `P` relates their
    results. -/
inductive Alike (asks : NodeId → String → Prop) (keeps : Prop) (P : Correspondence → α → β → Prop) :
    Correspondence → Plan α → Plan β → Prop
  | done {w : Correspondence} {a : α} {b : β} (h : P w a b) : Alike asks keeps P w (.done a) (.done b)
  | fail {w : Correspondence} {failure : Failure} (h : ¬ failure.IsTooDeep) :
      Alike asks keeps P w (.fail failure) (.fail failure)
  | visit {w : Correspondence} {node : NodeId} {output : String} {next : Value → Plan α}
      {next' : Value → Plan β} (asked : asks node output)
      (go : ∀ w', w ≤ w' → ∀ a b, w'.Answer a b → Alike asks keeps P w' (next a) (next' b)) :
      Alike asks keeps P w (.visit node output next) (.visit node output next')
  | create {w : Correspondence} {kind : NativeKind} {ps qs : List (String × Value)}
      {next : NodeHandle → Plan α} {next' : NodeHandle → Plan β}
      (params : List.Forall₂ (w.Parameter kind) ps qs)
      (go : ∀ w', w ≤ w' → ∀ a b, w'.node a b → Alike asks keeps P w' (next a) (next' b)) :
      Alike asks keeps P w (.create kind ps next) (.create kind qs next')
  | image {w : Correspondence} {descriptor : ImageDescriptor} {next : Option ImageHandle → Plan α}
      {next' : Option ImageHandle → Plan β}
      (go : ∀ w', w ≤ w' → ∀ a b, Option.Rel w'.image a b → Alike asks keeps P w' (next a) (next' b)) :
      Alike asks keeps P w (.image descriptor next) (.image descriptor next')
  | report {w : Correspondence} {notice : Notice} {next : Plan α} {next' : Plan β}
      (h : ¬ notice.ShowsHandle) (go : Alike asks keeps P w next next') :
      Alike asks keeps P w (.report notice next) (.report notice next')
  | known {w : Correspondence} {node : NodeId} {output subNode : String}
      {next : Option Value → Plan α} {next' : Option Value → Plan β} (h : keeps)
      (go : ∀ w', w ≤ w' → ∀ a b, Option.Rel w'.Answer a b →
        Alike asks keeps P w' (next a) (next' b)) :
      Alike asks keeps P w (.known node output subNode next) (.known node output subNode next')
  | remember {w : Correspondence} {node : NodeId} {output subNode : String} {a b : Value}
      {next : Plan α} {next' : Plan β} (h : keeps) (value : w.Answer a b)
      (go : Alike asks keeps P w next next') :
      Alike asks keeps P w (.remember node output subNode a next)
        (.remember node output subNode b next')

/-- Plans whose values differ in corresponding handles only. -/
abbrev Agree (asks : NodeId → String → Prop) (keeps : Prop) (w : Correspondence)
    (p q : Plan Value) : Prop :=
  Alike asks keeps Correspondence.Answer w p q

variable {asks : NodeId → String → Prop} {keeps : Prop} {w : Correspondence}

theorem Alike.bind {P : Correspondence → α → β → Prop} {P' : Correspondence → α' → β' → Prop}
    {p : Plan α} {q : Plan β} {f : α → Plan α'} {f' : β → Plan β'} (h : Alike asks keeps P w p q)
    (hf : ∀ w', w ≤ w' → ∀ a b, P w' a b → Alike asks keeps P' w' (f a) (f' b)) :
    Alike asks keeps P' w (p >>= f) (q >>= f') := by
  induction h with
  | done h => exact hf _ le_rfl _ _ h
  | fail h => exact .fail h
  | visit asked _ ih =>
    exact .visit asked fun w' hw a b hab => ih w' hw a b hab fun w'' hw' => hf w'' (hw.trans hw')
  | create params _ ih =>
    exact .create params fun w' hw a b hab => ih w' hw a b hab fun w'' hw' => hf w'' (hw.trans hw')
  | image _ ih =>
    exact .image fun w' hw a b hab => ih w' hw a b hab fun w'' hw' => hf w'' (hw.trans hw')
  | report h _ ih => exact .report h (ih hf)
  | known h _ ih =>
    exact .known h fun w' hw a b hab => ih w' hw a b hab fun w'' hw' => hf w'' (hw.trans hw')
  | remember h value _ ih => exact .remember h value (ih hf)

theorem Alike.ofEmission {P : Correspondence → α → β → Prop} {e : Emission α} {e' : Emission β}
    (h : Emission.Alike P w e e') : Alike asks keeps P w (Plan.ofEmission e) (Plan.ofEmission e') := by
  induction h with
  | done h => exact .done h
  | create params _ ih => exact .create params ih

end Plan

end MaterialLowering
