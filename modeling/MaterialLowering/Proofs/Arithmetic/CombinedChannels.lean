import MaterialLowering.Proofs.Arithmetic.BinaryFormats
import MaterialLowering.Proofs.Rules.ArithmeticRules
import MaterialLowering.Proofs.Texts.RecordingRoundTrip
import MaterialLowering.Proofs.Walks.Events

/-!
# Which channels are combined

Three values are combined by masks: each is multiplied by ones and zeros, and what is left is added up.
Of finite lanes a mask leaves nothing but what it is one for, so the first lane is that of the first
value, the second that of the second value, and the third that of the third. It is not the first lane of
each: these are taken only of values whose lanes are alike, and a color that leads into all three inputs
of a combine node comes out of it as it was.

Main definitions:
* `Lanes.assembled`: what three numbers are put together to.
* `Plan.channels`: reading the three inputs of a combine node.

Results:
* `Lanes.combine_eq`: which lanes are combined.
* `Handler.on_combine`: what a combine node does with them.
* `Emission.channels_combined`: what constants come to, and combine nodes that they are led into.
-/

namespace MaterialLowering

open Numeric (Single binary32)
open Walk (on)

/-! ## Masks -/

namespace Numeric.Single

variable {x y : Single} {v : Int}

/-- Nothing is added. -/
theorem value?_add_nothing (hx : x.value? = some v) (held : binary32.Holds v.natAbs)
    (hy : y.value? = some 0) : (x + y).value? = some v := by
  have sum := value?_add hx hy (by rwa [Int.add_zero])
  rwa [Int.add_zero] at sum

/-- It is added to nothing. -/
theorem value?_nothing_add (hx : x.value? = some 0) (hy : y.value? = some v)
    (held : binary32.Holds v.natAbs) : (x + y).value? = some v := by
  have sum := value?_add hx hy (by rwa [Int.zero_add])
  rwa [Int.zero_add] at sum

/-- A mask leaves nothing of a finite number that it is zero for. -/
theorem value?_masked (h : x.isFinite) : (x * zero).value? = some 0 := by
  obtain ⟨v, hx, -⟩ := exists_value h
  exact value?_mul_zero hx

/-- A number that is added to zero is numerically itself. -/
theorem add_zero_eq (h : x.isFinite) (y : Single) : (x + zero).eq y = x.eq y := by
  obtain ⟨v, hx, held⟩ := exists_value h
  have sum := value?_add_nothing hx held value?_zero
  obtain ⟨s, m, atX, rfl⟩ := Datum.value?_eq_some.1 hx
  obtain ⟨t, n, atSum, same⟩ := Datum.value?_eq_some.1 sum
  rw [Single.eq, Single.eq, atX, atSum]
  cases y.toDatum with
  | nan | infinite => rfl
  | finite => simp only [Datum.eq, same]

end Numeric.Single

namespace Lanes

theorem forall_finite {lanes : Lanes} (h : lanes.Finite) :
    lanes.x.isFinite ∧ lanes.y.isFinite ∧ lanes.z.isFinite ∧ lanes.w.isFinite := by
  simpa [Finite, toList] using h

/-- Three numbers and a one. A number that is minus zero loses its sign. -/
def assembled (x y z : Single) : Lanes := .point (x + .zero) (y + .zero) (z + .zero)

/-- Finite values are combined by the first lane of the first one, the second of the second one and the
    third of the third one. -/
theorem combine_eq {x y z : Lanes} (hx : x.Finite) (hy : y.Finite) (hz : z.Finite) :
    combine x y z = .assembled x.x y.y z.z := by
  obtain ⟨x₁, x₂, x₃, x₄⟩ := forall_finite hx
  obtain ⟨y₁, y₂, y₃, y₄⟩ := forall_finite hy
  obtain ⟨z₁, z₂, z₃, z₄⟩ := forall_finite hz
  obtain ⟨u, hu, heldU⟩ := Single.exists_value x₁
  obtain ⟨v, hv, heldV⟩ := Single.exists_value y₂
  obtain ⟨w, hw, heldW⟩ := Single.exists_value z₃
  -- Three masked numbers are added up in each lane before the last mask adds a zero or a one.
  have first : (x.x * .one + y.x * .zero + z.x * .zero).value? = some u :=
    Single.value?_add_nothing (Single.value?_add_nothing (Single.value?_mul_one hu heldU) heldU
      (Single.value?_masked y₁)) heldU (Single.value?_masked z₁)
  have second : (x.y * .zero + y.y * .one + z.y * .zero).value? = some v :=
    Single.value?_add_nothing (Single.value?_nothing_add (Single.value?_masked x₂)
      (Single.value?_mul_one hv heldV) heldV) heldV (Single.value?_masked z₂)
  have third : (x.z * .zero + y.z * .zero + z.z * .one).value? = some w :=
    Single.value?_nothing_add (Single.value?_add_nothing (Single.value?_masked x₃)
      (Numeric.Format.holds_zero _) (Single.value?_masked y₃)) (Single.value?_mul_one hw heldW) heldW
  have last : (x.w * .zero + y.w * .zero + z.w * .zero).value? = some 0 :=
    Single.value?_add_nothing (Single.value?_add_nothing (Single.value?_masked x₄)
      (Numeric.Format.holds_zero _) (Single.value?_masked y₄)) (Numeric.Format.holds_zero _)
      (Single.value?_masked z₄)
  have zero : Single.zero.toDatum = .finite false 0 := by decide +kernel
  have one : Single.one.toDatum = .finite false binary32.one := by decide +kernel
  have whole : Single.zero + Single.one = Single.one := by decide +kernel
  have lanes : combine x y z =
      ⟨x.x * .one + y.x * .zero + z.x * .zero + .zero, x.y * .zero + y.y * .one + z.y * .zero + .zero,
        x.z * .zero + y.z * .zero + z.z * .one + .zero,
        x.w * .zero + y.w * .zero + z.w * .zero + .one⟩ := rfl
  rw [lanes, Single.add_congr first hu zero, Single.add_congr second hv zero,
    Single.add_congr third hw zero, Single.add_congr last Single.value?_zero one, whole]
  rfl

/-- What is put together equals a point where its numbers do. -/
theorem assembled_eq {x y z : Single} (hx : x.isFinite) (hy : y.isFinite) (hz : z.isFinite)
    (a b c : Single) : (assembled x y z).eq (.point a b c) = (x.eq a && y.eq b && z.eq c) := by
  have one : Single.one.eq .one = true := by decide +kernel
  simp only [Lanes.eq, assembled, point, Single.add_zero_eq hx, Single.add_zero_eq hy,
    Single.add_zero_eq hz, one, Bool.and_true]

end Lanes

/-! ## Combine nodes -/

/-- The values of the first three inputs of a node, read one after another. -/
def Plan.channels (g : HostGraph) (node : NodeId) : Plan (Value × Value × Value) := do
  let x ← input g node (.index 0)
  let y ← input g node (.index 1)
  let z ← input g node (.index 2)
  return (x, y, z)

namespace Handler

/-- A combine node reads its three inputs first. -/
theorem combine_eq (g : HostGraph) (node : NodeId) (output : String) :
    combine g node output =
      (Plan.channels g node >>= fun c => Plan.ofEmission (Emission.combine c.1 c.2.1 c.2.2)) := by
  have assoc : ∀ (p : Plan Value) (f : Value → Plan (Value × Value × Value))
      (k : Value × Value × Value → Plan Value), (p >>= f) >>= k = p >>= fun a => f a >>= k :=
    Plan.bind_assoc
  simp only [combine, Plan.channels, assoc]
  rfl

/-- Constants that a combine node reads are combined, and nothing else is done. -/
theorem on_combine {g : HostGraph} {visit : NodeId → String → Walk Value} {node : NodeId}
    {σ σ' : WalkState} {x y z : Lanes}
    (reads : on (Walk.carryOut g visit (Plan.channels g node)) σ =
      (.ok (.constant x, .constant y, .constant z), σ')) (output : String) :
    on (Walk.carryOut g visit (combine g node output)) σ =
      (.ok (.constant (Lanes.combine x y z)), σ') := by
  rw [combine_eq, Walk.on_carryOut_bind, reads]
  rfl

end Handler

/-- The state in which an output of a node begins to be lowered. -/
def WalkState.visiting (s : Setting) (node : NodeId) (output : String) (σ : WalkState) : WalkState :=
  { σ.noting (.visiting (s.graph.kind node) (s.graph.label node) output) with
    active := ⟨node, output, σ.scope, s.graph.material⟩ :: σ.active }

/-- The output of a node begins to be lowered, and the first three inputs of the node come to constants
    of these lanes. -/
structure Walk.ReadsChannels (s : Setting) (depth : Nat) (node : NodeId) (output : String) (σ : WalkState)
    (x y z : Lanes) (σ' : WalkState) : Prop where
  unknown : σ.cache.get? ⟨node, output, σ.scope, s.graph.material⟩ = none
  unmet : ⟨node, output, σ.scope, s.graph.material⟩ ∉ σ.active
  reads : on (carryOut s.graph (lower s depth) (Plan.channels s.graph node)) (σ.visiting s node output) =
    (.ok (.constant x, .constant y, .constant z), σ')

theorem Walk.ReadsChannels.of_read {s : Setting} {depth : Nat} {node : NodeId} {output : String}
    {σ : WalkState} {x y z : Lanes}
    (unknown : σ.cache.get? ⟨node, output, σ.scope, s.graph.material⟩ = none)
    (unmet : ⟨node, output, σ.scope, s.graph.material⟩ ∉ σ.active)
    (read : (on (carryOut s.graph (lower s depth) (Plan.channels s.graph node))
      (σ.visiting s node output)).1 = .ok (.constant x, .constant y, .constant z)) :
    ReadsChannels s depth node output σ x y z (on (carryOut s.graph (lower s depth)
      (Plan.channels s.graph node)) (σ.visiting s node output)).2 :=
  ⟨unknown, unmet, by rw [← read]⟩

/-- The kinds of nodes that combine. -/
def HostKind.Combines (kind : HostKind) : Prop := kind = .combineXyz ∨ kind = .combineRgb

/-- A combine node that is fed with constants comes to a constant. -/
theorem Walk.ReadsChannels.on_lower {s : Setting} {depth : Nat} {node : NodeId} {output : String}
    {σ σ' : WalkState} {x y z : Lanes} (h : ReadsChannels s depth node output σ x y z σ')
    (combines : (s.graph.kind node).Combines) (unmuted : s.graph.muted node = false)
    (plain : s.table.get? (s.graph.kind node) = none) :
    on (lower s (depth + 1) node output) σ =
      (.ok (.constant (Lanes.combine x y z)),
        σ'.finished ⟨node, output, σ.scope, s.graph.material⟩
          (.ok (.constant (Lanes.combine x y z)))) := by
  have passed : bypass? s.graph node = none := by
    unfold bypass?
    rcases combines with kind | kind <;> rw [kind, unmuted] <;> rfl
  have handled : Handler.ofKind? (s.graph.kind node) = some Handler.combine := by
    rcases combines with kind | kind <;> rw [kind] <;> rfl
  have task : s.table.task s.graph node output = .plan (Handler.combine s.graph node output) :=
    task_of_handler plain handled
  have expanded : on (expand s (lower s depth) node output)
      { σ with active := ⟨node, output, σ.scope, s.graph.material⟩ :: σ.active } =
        (.ok (.constant (Lanes.combine x y z)), σ') := by
    rw [on_expand, passed]
    dsimp only
    rw [task]
    exact Handler.on_combine h.reads output
  show on (step s (lower s depth) node output) σ = _
  rw [on_step]
  dsimp only
  rw [h.unknown]
  dsimp only
  rw [if_neg h.unmet, expanded]
  rfl

namespace Emission

/-- Constants of finite lanes are combined by the first lane of the first one, the second of the second
    one and the third of the third one, and so they are by a combine node that they are led into. That is
    the first lane of each just where the lanes that are taken equal the first ones. -/
theorem channels_combined {x y z : Lanes} (hx : x.Finite) (hy : y.Finite) (hz : z.Finite) :
    (∀ r, (combine (.constant x) (.constant y) (.constant z)).run r =
      (.constant (.assembled x.x y.y z.z), r)) ∧
    (Lanes.assembled x.x y.y z.z).eq (.point x.x y.y z.z) = true ∧
    (Lanes.assembled x.x y.y z.z).eq (.point x.x y.x z.x) = (y.y.eq y.x && z.z.eq z.x) ∧
    ∀ (d : Document) (table : RuleTable) (depth : Nat) (node : NodeId) (output : String)
      (σ σ' : WalkState), (d.graph.kind node).Combines → d.graph.muted node = false →
      table.get? (d.graph.kind node) = none →
      Walk.ReadsChannels (d.setting table) depth node output σ x y z σ' →
      on (Walk.lower (d.setting table) (depth + 1) node output) σ =
        (.ok (.constant (.assembled x.x y.y z.z)),
          σ'.finished ⟨node, output, σ.scope, d.name⟩ (.ok (.constant (.assembled x.x y.y z.z)))) := by
  obtain ⟨x₁, -⟩ := Lanes.forall_finite hx
  obtain ⟨-, y₂, -⟩ := Lanes.forall_finite hy
  obtain ⟨-, -, z₃, -⟩ := Lanes.forall_finite hz
  have reflexive : ∀ v : Single, v.isFinite → v.eq v = true := by
    intro v hv
    obtain ⟨value, h, -⟩ := Single.exists_value hv
    simp [Single.eq_of_value? h h]
  have combined : Lanes.combine x y z = .assembled x.x y.y z.z := Lanes.combine_eq hx hy hz
  refine ⟨fun r => ?_, ?_, ?_, fun d table depth node output σ σ' combines unmuted plain reads => ?_⟩
  · rw [← combined]
    rfl
  · rw [Lanes.assembled_eq x₁ y₂ z₃, reflexive _ x₁, reflexive _ y₂, reflexive _ z₃]
    rfl
  · rw [Lanes.assembled_eq x₁ y₂ z₃, reflexive _ x₁, Bool.true_and]
  · rw [← combined]
    exact reads.on_lower combines unmuted plain

/-- A quarter, a half, three quarters and a one. -/
def quarters : Lanes := ⟨.ofRatio 1 4, .ofRatio 1 2, .ofRatio 3 4, .one⟩

/-- A color that leads into all three inputs of a combine node. -/
def recombining : Document where
  name := "recombining"
  tree :=
    { nodes :=
        [⟨"color", .rgb, [], [⟨"Color", some (.vector quarters.toList), false⟩], .ofList [], false⟩,
          ⟨"join", .combineRgb, [⟨"R", none, false⟩, ⟨"G", none, false⟩, ⟨"B", none, false⟩],
            [⟨"Image", none, false⟩], .ofList [], false⟩]
      links :=
        [⟨"color", "Color", "join", .name "R", false⟩, ⟨"color", "Color", "join", .name "G", false⟩,
          ⟨"color", "Color", "join", .name "B", false⟩] }
  groups := []

/-- The color is read three times, and its channels are put together again. -/
theorem channels_combined_quarters :
    let s := recombining.setting .builtin
    quarters.Finite ∧ (recombining.graph.kind ⟨.material, 1⟩).Combines ∧
      recombining.graph.muted ⟨.material, 1⟩ = false ∧ RuleTable.builtin.get? .combineRgb = none ∧
      ∃ σ', Walk.ReadsChannels s 1 ⟨.material, 1⟩ "Image" (.start .empty) quarters quarters quarters σ' ∧
        on (Walk.lower s 2 ⟨.material, 1⟩ "Image") (.start .empty) =
          (.ok (.constant (.assembled quarters.x quarters.y quarters.z)),
            σ'.finished ⟨⟨.material, 1⟩, "Image", [], "recombining"⟩
              (.ok (.constant (.assembled quarters.x quarters.y quarters.z)))) := by
  intro s
  have finite : quarters.Finite := by decide +kernel
  have combines : (recombining.graph.kind ⟨.material, 1⟩).Combines := .inr (by decide +kernel)
  have unmuted : recombining.graph.muted ⟨.material, 1⟩ = false := by decide +kernel
  have plain : RuleTable.builtin.get? .combineRgb = none := builtin_get?_eq_none (by decide)
  have read : (on (Walk.carryOut s.graph (Walk.lower s 1) (Plan.channels s.graph ⟨.material, 1⟩))
      ((WalkState.start .empty).visiting s ⟨.material, 1⟩ "Image")).1 =
        .ok (.constant quarters, .constant quarters, .constant quarters) := by
    decide +kernel
  obtain ⟨σ', reads⟩ : ∃ σ', Walk.ReadsChannels s 1 ⟨.material, 1⟩ "Image" (.start .empty) quarters
      quarters quarters σ' := ⟨_, .of_read rfl List.not_mem_nil read⟩
  exact ⟨finite, combines, unmuted, plain, σ', reads,
    (channels_combined finite finite finite).2.2.2 recombining .builtin 1 ⟨.material, 1⟩ "Image"
      (.start .empty) σ' combines unmuted plain reads⟩

/-- A color that is combined with itself comes out as it was, and not as three times its first lane. -/
theorem channels_combined_recombining :
    quarters.Finite ∧
      ((combine (.constant quarters) (.constant quarters) (.constant quarters)).run .empty).1 =
        .constant quarters ∧
      (on (Walk.output (recombining.setting .builtin) ⟨.material, 1⟩ "Image") (.start .empty)).1 =
        .ok (.constant quarters) ∧
      quarters.eq (.point quarters.x quarters.x quarters.x) = false := by
  decide +kernel

end Emission

end MaterialLowering
