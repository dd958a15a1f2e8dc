import MaterialLowering.Proofs.Arithmetic.Interpretation

/-!
# Emitted arithmetic

Arithmetic on values means the same whether it is folded or emitted: operands that stand for lanes
give a value that stands for what the operation makes of those lanes. Where nothing may be looked
up, all operands are constants and nothing is emitted.

Results:
* `Emission.unary_means`, …, `Emission.ternary_means`: operators.
* `Emission.round_means`, …, `Emission.blend_means`: composite operations.
-/

namespace MaterialLowering

open Numeric (Single)

namespace Emission

variable {looks : Prop} {quantities : Lookup → Lanes} {α β : Type}

/-- An emission whose nodes have meanings, and whose result has `P`. -/
inductive Computes (looks : Prop) (quantities : Lookup → Lanes) (P : NodeMeaning → α → Prop) :
    NodeMeaning → Emission α → Prop
  | done {m : NodeMeaning} {a : α} (h : P m a) : Computes looks quantities P m (.done a)
  | create {m : NodeMeaning} {kind : NativeKind} {params : List (String × Value)} {result : Lanes}
      {next : NodeHandle → Emission α} (h : kind.Computes looks quantities m params result)
      (go : ∀ m', m ≤ m' → ∀ a, m' a result → Computes looks quantities P m' (next a)) :
      Computes looks quantities P m (.create kind params next)

/-- An emission that comes to a value of these lanes. -/
abbrev Means (looks : Prop) (quantities : Lookup → Lanes) (m : NodeMeaning) (e : Emission Value)
    (lanes : Lanes) : Prop :=
  Computes looks quantities (fun m v => Denotes looks m v lanes) m e

theorem Computes.bind {P : NodeMeaning → α → Prop} {P' : NodeMeaning → β → Prop} {m : NodeMeaning}
    {e : Emission α} {f : α → Emission β} (h : Computes looks quantities P m e)
    (hf : ∀ m', m ≤ m' → ∀ a, P m' a → Computes looks quantities P' m' (f a)) :
    Computes looks quantities P' m (e >>= f) := by
  induction h with
  | done h => exact hf _ le_rfl _ h
  | create h _ ih =>
    exact .create h fun m' hm a ha => ih m' hm a ha fun m'' hm' => hf m'' (hm.trans hm')

variable {m : NodeMeaning} {a b c : Value} {x y z : Lanes}

theorem node_means {kind : NativeKind} {params : List (String × Value)} {result : Lanes}
    (h : kind.Computes looks quantities m params result) :
    Means looks quantities m (node kind params) result :=
  .create h fun _ _ _ means => .done (.node h.allowed means)

/-! ## Operators -/

theorem color_names : "color" ++ Nat.repr 0 = "color0" ∧ "color" ++ Nat.repr 1 = "color1" ∧
    "color" ++ Nat.repr 2 = "color2" := by decide

/-- A value that stands for lanes is wired as it is. -/
theorem or_zero (h : Denotes looks m a x) : a.or (.constant .zero) = a := by cases h <;> rfl

theorem arithmetic_one {op : Operator} (one : op.arity = 1) (allowed : looks)
    (ha : Denotes looks m a x) :
    Means looks quantities m (arithmetic op [a]) (Folding.unary op x) := by
  have wired : arithmetic op [a] = node (.arithmetic op) [("color0", a)] := by
    simp [arithmetic, color_names, or_zero ha]
  rw [wired]
  refine node_means ⟨allowed, by simp, fun _ => x, ?_, ?_⟩
  · simp only [NativeKind.compute?, one]
  · simpa [NativeKind.inputs, one] using ha

theorem arithmetic_two {op : Operator} (two : op.arity = 2) (allowed : looks)
    (ha : Denotes looks m a x) (hb : Denotes looks m b y) :
    Means looks quantities m (arithmetic op [a, b]) (Folding.binary op x y) := by
  have wired : arithmetic op [a, b] = node (.arithmetic op) [("color0", a), ("color1", b)] := by
    simp [arithmetic, color_names, or_zero ha, or_zero hb]
  rw [wired]
  refine node_means ⟨allowed, by simp, fun name => if name = "color0" then x else y, ?_, ?_⟩
  · simp [NativeKind.compute?, two]
  · simpa [NativeKind.inputs, two] using ⟨ha, hb⟩

theorem arithmetic_three (allowed : looks) (ha : Denotes looks m a x) (hb : Denotes looks m b y)
    (hc : Denotes looks m c z) :
    Means looks quantities m (arithmetic .ternary [a, b, c]) (Folding.ternary x y z) := by
  have wired : arithmetic .ternary [a, b, c] =
      node (.arithmetic .ternary) [("color0", a), ("color1", b), ("color2", c)] := by
    simp [arithmetic, color_names, or_zero ha, or_zero hb, or_zero hc]
  rw [wired]
  refine node_means ⟨allowed, by simp, fun name => if name = "color0" then x else
    if name = "color1" then y else z, ?_, ?_⟩
  · simp [NativeKind.compute?, Operator.arity]
  · simpa [NativeKind.inputs, Operator.arity] using ⟨ha, hb, hc⟩

theorem unary_means {op : Operator} (one : op.arity = 1) (ha : Denotes looks m a x) :
    Means looks quantities m (unary op a) (Folding.unary op x) := by
  cases ha with
  | constant => exact .done (.constant _)
  | node allowed h => exact arithmetic_one one allowed (.node allowed h)

theorem binary_means {op : Operator} (two : op.arity = 2) (ha : Denotes looks m a x)
    (hb : Denotes looks m b y) :
    Means looks quantities m (binary op a b) (Folding.binary op x y) := by
  cases ha with
  | constant =>
    cases hb with
    | constant => exact .done (.constant _)
    | node allowed h => exact arithmetic_two two allowed (.constant _) (.node allowed h)
  | node allowed h => exact arithmetic_two two allowed (.node allowed h) hb

theorem ternary_means (ha : Denotes looks m a x) (hb : Denotes looks m b y)
    (hc : Denotes looks m c z) :
    Means looks quantities m (ternary a b c) (Folding.ternary x y z) := by
  cases ha with
  | constant =>
    cases hb with
    | constant =>
      cases hc with
      | constant => exact .done (.constant _)
      | node allowed h =>
        exact arithmetic_three allowed (.constant _) (.constant _) (.node allowed h)
    | node allowed h => exact arithmetic_three allowed (.constant _) (.node allowed h) hc
  | node allowed h => exact arithmetic_three allowed (.node allowed h) hb hc

theorem select_means (lane : Nat) (ha : Denotes looks m a x) :
    Means looks quantities m (select a lane) (Folding.unary (.select lane) x) :=
  unary_means (by unfold Operator.select; split <;> rfl) ha

/-! ## Composite operations -/

/-- One emission after another one that comes to lanes. -/
theorem Means.bind {e : Emission Value} {f : Value → Emission Value} (h : Means looks quantities m e x)
    (hf : ∀ m', m ≤ m' → ∀ v, Denotes looks m' v x → Means looks quantities m' (f v) y) :
    Means looks quantities m (e >>= f) y :=
  Computes.bind h hf

theorem fract_means (ha : Denotes looks m a x) : Means looks quantities m (fract a) x.fract := by
  have lanes : Folding.binary .sub x (Folding.unary .floor x) = x.fract := by
    simp only [Folding.binary, Folding.unary, Folding.evaluate, Lanes.map, Lanes.map2, Lanes.fract]
  rw [← lanes]
  exact (unary_means rfl ha).bind fun _ hm _ floor => binary_means rfl (ha.mono hm) floor

theorem choose_flag (holds : Bool) (u v : Single) :
    Folding.choose (Folding.flag holds) u v = if holds then u else v := by
  have zero : Single.zero.eq .zero = true := by decide +kernel
  have one : Single.one.eq .zero = false := by decide +kernel
  cases holds <;> simp [Folding.choose, Folding.flag, zero, one]

theorem ceil_means (ha : Denotes looks m a x) : Means looks quantities m (ceil a) x.ceil := by
  have lanes : Folding.ternary (Folding.binary .equal x (Folding.unary .floor x)) x
      (Folding.binary .add (Folding.unary .floor x) (.splat .one)) = x.ceil := by
    simp only [Folding.ternary, Folding.binary, Folding.unary, Folding.evaluate, Lanes.map,
      Lanes.map2, Lanes.map3, Lanes.ceil, Lanes.splat, choose_flag]
  rw [← lanes]
  refine (unary_means rfl ha).bind fun _ h₁ _ floor => ?_
  refine (binary_means rfl (ha.mono h₁) floor).bind fun _ h₂ _ isWhole => ?_
  refine (binary_means rfl (floor.mono h₂) (.constant _)).bind fun _ h₃ _ next => ?_
  exact ternary_means (isWhole.mono h₃) ((ha.mono h₁).mono (h₂.trans h₃)) next

theorem round_means (ha : Denotes looks m a x) : Means looks quantities m (round a) x.round := by
  have lanes : Folding.ternary (Folding.binary .lower x.fract (.splat Folding.half))
      (Folding.unary .floor x) (Folding.binary .add (Folding.unary .floor x) (.splat .one)) =
        x.round := by
    simp only [Folding.ternary, Folding.binary, Folding.unary, Folding.evaluate, Lanes.map,
      Lanes.map2, Lanes.map3, Lanes.fract, Lanes.round, Lanes.splat, choose_flag]
  rw [← lanes]
  refine (unary_means rfl ha).bind fun _ h₁ _ floor => ?_
  refine (fract_means (ha.mono h₁)).bind fun _ h₂ _ fract => ?_
  refine (binary_means rfl fract (.constant _)).bind fun _ h₃ _ roundsDown => ?_
  refine (binary_means rfl (floor.mono (h₂.trans h₃)) (.constant _)).bind fun _ h₄ _ next => ?_
  exact ternary_means (roundsDown.mono h₄) (floor.mono (h₂.trans (h₃.trans h₄))) next

theorem clamp_means (ha : Denotes looks m a x) : Means looks quantities m (clamp a) x.clamp :=
  (binary_means rfl ha (.constant _)).bind fun _ _ _ upper => binary_means rfl upper (.constant _)

theorem combine_means (ha : Denotes looks m a x) (hb : Denotes looks m b y)
    (hc : Denotes looks m c z) :
    Means looks quantities m (combine a b c) (Lanes.combine x y z) := by
  refine (binary_means rfl ha (.constant _)).bind fun _ h₁ _ first => ?_
  refine (binary_means rfl (hb.mono h₁) (.constant _)).bind fun _ h₂ _ second => ?_
  refine (binary_means rfl (hc.mono (h₁.trans h₂)) (.constant _)).bind fun _ h₃ _ third => ?_
  refine (binary_means rfl (first.mono (h₂.trans h₃)) (second.mono h₃)).bind fun _ h₄ _ two => ?_
  refine (binary_means rfl two (third.mono h₄)).bind fun _ _ _ three => ?_
  exact binary_means rfl three (.constant _)

theorem weighted_means (lane : Nat) (weight : Single) (ha : Denotes looks m a x) :
    Means looks quantities m (weighted a lane weight)
      ((Folding.unary (.select lane) x).map2 (· * ·) ⟨weight, weight, weight, .zero⟩) :=
  (select_means lane ha).bind fun _ _ _ channel => binary_means rfl channel (.constant _)

theorem toBw_means (ha : Denotes looks m a x) : Means looks quantities m (toBw a) x.toBw := by
  have gray : Means looks quantities m (luminance a .unset 0 Folding.luma)
      (((Lanes.weighted x.x (.ofRatio 2126 10000)).map2 (· + ·)
        (Lanes.weighted x.y (.ofRatio 7152 10000))).map2 (· + ·)
          (Lanes.weighted x.z (.ofRatio 722 10000))) := by
    refine (weighted_means 0 _ ha).bind fun _ h₁ r red => ?_
    have red_set : r.isUnset = false := by cases red <;> rfl
    show Means looks quantities _ (luminance a r 1 _) _
    refine (weighted_means 1 _ (ha.mono h₁)).bind fun _ h₂ _ green => ?_
    rw [red_set]
    refine (binary_means rfl (red.mono h₂) green).bind fun _ h₃ s sum => ?_
    have sum_set : s.isUnset = false := by cases sum <;> rfl
    refine (weighted_means 2 _ (ha.mono (h₁.trans (h₂.trans h₃)))).bind fun _ h₄ _ blue => ?_
    rw [sum_set]
    exact (binary_means rfl (sum.mono h₄) blue).bind fun _ _ _ sum => .done sum
  refine gray.bind fun _ h₁ _ gray => ?_
  refine (select_means 3 (ha.mono h₁)).bind fun _ h₂ _ alpha => ?_
  refine (binary_means rfl alpha (.constant _)).bind fun _ h₃ _ alpha => ?_
  exact binary_means rfl (gray.mono (h₂.trans h₃)) alpha

theorem isSplat_constant (v : Single) : (Value.constant x).isSplat v = x.eq (.splat v) := rfl

theorem blend_means (ha : Denotes looks m a x) (hb : Denotes looks m b y)
    (hc : Denotes looks m c z) : Means looks quantities m (blend a b c) (Lanes.mix x y z) := by
  have emitted : ∀ allowed : looks, Means looks quantities m
      (node .blendValue [("weight", a), ("color0", b), ("color1", c)]) (Lanes.mix x y z) := by
    intro allowed
    refine node_means ⟨allowed, by simp, fun name => if name = "weight" then x else
      if name = "color0" then y else z, by simp [NativeKind.compute?], ?_⟩
    simpa [NativeKind.inputs] using ⟨ha, hb, hc⟩
  unfold blend
  cases ha with
  | node allowed h =>
    exact emitted allowed
  | constant =>
    rw [isSplat_constant, isSplat_constant]
    split
    · rename_i hzero
      rw [Lanes.mix, if_pos hzero]
      exact .done hb
    · rename_i hzero
      split
      · rename_i hone
        rw [Lanes.mix, if_neg hzero, if_pos hone]
        exact .done hc
      · rename_i hone
        cases hb with
        | node allowed h => exact emitted allowed
        | constant =>
          cases hc with
          | node allowed h => exact emitted allowed
          | constant =>
            rw [Lanes.mix, if_neg hzero, if_neg hone]
            exact .done (.constant _)

end Emission

end MaterialLowering
