import MaterialLowering.Native.RecordingJson
import MaterialLowering.Proofs.Texts.Decoding

/-!
# Recordings survive their texts, or are refused

A recording is written as a text and read again. Kinds and parameters are told apart by their tags
alone, so nodes, images and roots come back as they are. Only constants can be lost: a lane that is not
finite is written as `null`, which is no number, and then the whole text is refused for its shape. No
text of a recording reads as another recording.

Main definitions:
* `Json.ComesBack`: a value is read back exactly on a condition, and refused for its shape otherwise.

Results:
* `Json.ComesBack.bind`, `Json.comesBack_list`, `Json.comesBack_entries`: wholes come back where their
  parts do.
* `NativeKind.decode_reread`: every kind comes back.
* `Param.comesBack`: a parameter comes back where its lanes are finite.
* `Recording.round_trip_exact`: so does a recording.
-/

namespace MaterialLowering

open Numeric (Single)
open Json

/-! ## Values and refusals -/

namespace Json

/-- The value is read where `whole` holds. Otherwise it is refused for its shape. -/
structure ComesBack {α : Type} (decoded : Except Refusal α) (a : α) (whole : Prop) : Prop where
  ok : whole → decoded = .ok a
  refused : ¬ whole → decoded = .error .shape

section

variable {α β : Type} {decoded : Except Refusal α} {a : α} {b : β} {whole whole' : Prop}

theorem ComesBack.of_ok (h : decoded = .ok a) : ComesBack decoded a True :=
  ⟨fun _ => h, fun no => (no trivial).elim⟩

theorem ComesBack.congr (h : ComesBack decoded a whole) (same : whole ↔ whole') :
    ComesBack decoded a whole' :=
  ⟨fun w => h.ok (same.2 w), fun w => h.refused fun w' => w (same.1 w')⟩

/-- One value after another comes back where both do. -/
theorem ComesBack.bind {next : α → Except Refusal β} (h : ComesBack decoded a whole)
    (then_ : ComesBack (next a) b whole') : ComesBack (decoded >>= next) b (whole ∧ whole') := by
  by_cases hw : whole
  · rw [h.ok hw, Except.ok_bind]
    exact then_.congr (by simp [hw])
  · rw [h.refused hw, Except.error_bind]
    exact ⟨fun both => (hw both.1).elim, fun _ => rfl⟩

theorem ComesBack.map (h : ComesBack decoded a whole) (f : α → β) :
    ComesBack (f <$> decoded) (f a) whole := by
  constructor
  · intro w
    rw [h.ok w]
    rfl
  · intro w
    rw [h.refused w]
    rfl

/-- What is read is the value, if anything is. -/
theorem ComesBack.eq {found : α} (h : ComesBack decoded a whole) (read : decoded = .ok found) :
    found = a := by
  by_cases hw : whole
  · rw [h.ok hw] at read
    exact (Except.ok.inj read).symm
  · rw [h.refused hw] at read
    cases read

/-- Items come back where all of them do. -/
theorem comesBack_mapM {γ : Type} {decode : γ → Except Refusal α} {value : α → γ} {whole : α → Prop}
    {l : List α} (each : ∀ a ∈ l, ComesBack (decode (value a)) a (whole a)) :
    ComesBack ((l.map value).mapM decode) l (∀ a ∈ l, whole a) := by
  induction l with
  | nil => exact ⟨fun _ => rfl, fun h => (h fun _ hm => (by cases hm)).elim⟩
  | cons a l ih =>
    have rest := ih fun b hb => each b (List.mem_cons_of_mem _ hb)
    rw [List.map_cons, List.mapM_cons]
    refine .congr (.bind (each a List.mem_cons_self) (.bind rest (.of_ok rfl))) ?_
    rw [and_true, List.forall_mem_cons]

variable {decode : Json → Except Refusal α} (encode : α → Json) (whole : α → Prop)

theorem comesBack_list {l : List α} (each : ∀ a ∈ l, ComesBack (decode (encode a)) a (whole a)) :
    ComesBack (asList decode (.array (l.map encode))) l (∀ a ∈ l, whole a) :=
  comesBack_mapM each

/-- Entries come back where all their values do. -/
theorem comesBack_entries {l : List (String × α)}
    (named : ∀ e ∈ l, (encode e.2).checkNamed = .ok ())
    (each : ∀ e ∈ l, ComesBack (decode (encode e.2)) e.2 (whole e.2)) :
    ComesBack (asEntries decode (.object (l.map fun e => (e.1, encode e.2)))) l
      (∀ e ∈ l, whole e.2) := by
  have members : asEntries decode (.object (l.map fun e => (e.1, encode e.2))) =
      (l.map fun e => (e.1, encode e.2)).mapM fun m => do
        m.2.checkNamed
        return (m.1, ← decode m.2) := rfl
  rw [members]
  refine comesBack_mapM fun e he => ?_
  dsimp only
  rw [named e he, Except.ok_bind]
  exact .congr (.bind (each e he) (.of_ok rfl)) (iff_of_eq (and_true _))

end

/-! ## Tags -/

section

variable {α : Type} {tag : String} {value : Json}
  {decode : String → Option (Option Json → Except Refusal α)}

/-- A tag with its payload. -/
theorem asTagged_object {read : Json → Except Refusal α} (h : decode tag = some (withPayload read))
    (named : value.checkNamed = .ok ()) :
    asTagged decode (.object [(tag, value)]) = read value := by
  rw [asTagged, named, h]
  simp only [Except.ok_bind, withPayload, List.isEmpty_nil, if_true]
  cases read value <;> rfl

end

end Json

/-! ## Kinds and images -/

theorem Operator.decode_encode (op : Operator) : decode op.encode = .ok op := by
  cases op <;> rfl

theorem Lookup.decode_encode (quantity : Lookup) : decode quantity.encode = .ok quantity := by
  cases quantity <;> rfl

theorem WrapMode.decode_encode (wrap : WrapMode) : decode wrap.encode = .ok wrap := by
  cases wrap <;> rfl

/-- Every kind comes back: the names of kinds that stand alone are no tags of others. -/
theorem NativeKind.decode_reread (kind : NativeKind) : decode kind.encode.reread = .ok kind := by
  cases kind with
  | arithmetic op =>
    have tagged : (encode (.arithmetic op)).reread = .object [("arithmetic", op.encode)] := rfl
    rw [tagged, decode, asTagged_object rfl rfl, Operator.decode_encode]
    rfl
  | inputLookup quantity =>
    have tagged : (encode (.inputLookup quantity)).reread =
      .object [("input_lookup", quantity.encode)] := rfl
    rw [tagged, decode, asTagged_object rfl rfl, Lookup.decode_encode]
    rfl
  | _ => rfl

theorem NativeKind.numbers_encode (kind : NativeKind) : kind.encode.numbers = [] := by
  cases kind <;> rfl

theorem ImageDescriptor.decode_reread (descriptor : ImageDescriptor) :
    decode descriptor.encode.reread = .ok descriptor := by
  obtain ⟨name, wrap⟩ := descriptor
  have first : fieldDecoders.lookup "name" = some fun v => .name <$> v.asString := rfl
  have second : fieldDecoders.lookup "wrap" = some fun v => .wrap <$> WrapMode.decode v := rfl
  have tree : (encode ⟨name, wrap⟩).reread = .object [("name", .string name), ("wrap", wrap.encode)] :=
    rfl
  have named : wrap.encode.checkNamed = .ok () := rfl
  simp [tree, decode, fields, fieldsAmong, first, second, asString, named, WrapMode.decode_encode,
    required, pure, Except.pure]

theorem ImageDescriptor.numbers_encode (descriptor : ImageDescriptor) :
    descriptor.encode.numbers = [] := rfl

/-! ## Handles and lanes -/

/-- A handle is a number of 32 bits. -/
def NodeHandle.Narrow (handle : NodeHandle) : Prop := handle.index < handleLimit

/-- A handle is a number of 32 bits. -/
def ImageHandle.Narrow (handle : ImageHandle) : Prop := handle.index < handleLimit

theorem asNatural_handle {index : Nat} (narrow : index < handleLimit) :
    asNatural handleLimit (Json.number (.natural index)).reread = .ok index := by
  have small : index ≤ naturalLimit := Nat.le_trans (Nat.le_of_lt narrow) (by decide)
  rw [Json.Number.reread_natural small, asNatural, if_pos narrow]

theorem legible_handle {index : Nat} (narrow : index < handleLimit) :
    (Json.Number.natural index).Legible :=
  Json.Number.legible_natural (Nat.le_trans (Nat.le_of_lt narrow) (by decide))

theorem NodeHandle.decode_reread {handle : NodeHandle} (narrow : handle.Narrow) :
    decode handle.encode.reread = .ok handle := by
  rw [decode, encode, asNatural_handle narrow]
  rfl

theorem ImageHandle.decode_reread {handle : ImageHandle} (narrow : handle.Narrow) :
    decode handle.encode.reread = .ok handle := by
  rw [decode, encode, asNatural_handle narrow]
  rfl

namespace Lanes

/-- No lane is infinite or no number. -/
def Finite (lanes : Lanes) : Prop := ∀ x ∈ lanes.toList, x.isFinite

/-- The lanes that are finite come back from their texts. -/
def Carried (lanes : Lanes) : Prop := ∀ x ∈ lanes.toList, x.isFinite → x.ReadsBack

instance : DecidablePred Finite := fun lanes =>
  inferInstanceAs (Decidable (∀ x ∈ lanes.toList, x.isFinite))

instance : DecidablePred Carried := fun lanes =>
  inferInstanceAs (Decidable (∀ x ∈ lanes.toList, x.isFinite → x.ReadsBack))

theorem comesBack_single {x : Single} (carried : x.isFinite → x.ReadsBack) :
    ComesBack (Json.number (.single x)).reread.asSingle x x.isFinite := by
  refine ⟨(Literal.asSingle_reread carried).2, fun infinite => ?_⟩
  rw [Json.Number.reread_null (Json.Number.text_single (by simpa using infinite))]
  rfl

/-- Lanes come back where they are finite. -/
theorem comesBack {lanes : Lanes} (carried : lanes.Carried) :
    ComesBack (decode lanes.encode.reread) lanes lanes.Finite := by
  obtain ⟨x, y, z, w⟩ := lanes
  have each : ∀ v ∈ [x, y, z, w], ComesBack (Json.number (.single v)).reread.asSingle v v.isFinite :=
    fun v hv => comesBack_single (carried v hv)
  have tree : (encode ⟨x, y, z, w⟩).reread =
      .array ([x, y, z, w].map fun v => (Json.number (.single v)).reread) := by
    rw [encode, reread_array]
    rfl
  have run : ∀ a b c d : Json, decode (.array [a, b, c, d]) = do
      let x ← a.asSingle
      let y ← b.asSingle
      let z ← c.asSingle
      let w ← d.asSingle
      return ⟨x, y, z, w⟩ := fun _ _ _ _ => rfl
  rw [tree, List.map_cons, List.map_cons, List.map_cons, List.map_cons, List.map_nil, run]
  refine .congr (.bind (each x (by simp)) (.bind (each y (by simp)) (.bind (each z (by simp))
    (.bind (each w (by simp)) (.of_ok rfl))))) ?_
  simp [Finite, toList]

theorem legible {lanes : Lanes} (carried : lanes.Carried) : ∀ n ∈ lanes.encode.numbers, n.Legible := by
  intro n hn
  rw [encode, numbers_array, List.flatMap_map] at hn
  obtain ⟨x, hx, hn⟩ := List.mem_flatMap.1 hn
  obtain rfl : n = .single x := by simpa [numbers] using hn
  exact Json.Number.legible_single (carried x hx)

end Lanes

/-! ## Parameters and nodes -/

namespace Param

/-- A parameter that the text layer carries: its handle is a number of 32 bits, or those of its lanes
    that are finite come back from their texts. -/
def Carried : Param → Prop
  | .constant lanes => lanes.Carried
  | .node handle => handle.Narrow
  | .image handle => handle.Narrow

/-- No lane of a constant is infinite or no number. -/
def Finite : Param → Prop
  | .constant lanes => lanes.Finite
  | .node _ | .image _ => True

instance : DecidablePred Carried
  | .constant lanes => inferInstanceAs (Decidable lanes.Carried)
  | .node handle => inferInstanceAs (Decidable (handle.index < handleLimit))
  | .image handle => inferInstanceAs (Decidable (handle.index < handleLimit))

instance : DecidablePred Finite
  | .constant lanes => inferInstanceAs (Decidable lanes.Finite)
  | .node _ | .image _ => isTrue trivial

/-- A parameter comes back where its lanes are finite. -/
theorem comesBack {param : Param} (carried : param.Carried) :
    ComesBack (decode param.encode.reread) param param.Finite := by
  have tree : ∀ tag value, (Json.object [(tag, value)]).reread = .object [(tag, value.reread)] :=
    fun _ _ => rfl
  cases param with
  | constant lanes =>
    rw [encode, tree, decode, asTagged_object rfl (checkNamed_reread _)]
    exact (Lanes.comesBack carried).map Param.constant
  | node handle =>
    rw [encode, tree, decode, asTagged_object rfl (checkNamed_reread _),
      NodeHandle.decode_reread carried]
    exact .of_ok rfl
  | image handle =>
    rw [encode, tree, decode, asTagged_object rfl (checkNamed_reread _),
      ImageHandle.decode_reread carried]
    exact .of_ok rfl

theorem legible {param : Param} (carried : param.Carried) : ∀ n ∈ param.encode.numbers, n.Legible := by
  intro n hn
  cases param with
  | constant lanes =>
    refine Lanes.legible carried n ?_
    simpa [encode, numbers, numbersOfMembers] using hn
  | node handle =>
    obtain rfl : n = .natural handle.index := by
      simpa [encode, NodeHandle.encode, numbers, numbersOfMembers] using hn
    exact legible_handle carried
  | image handle =>
    obtain rfl : n = .natural handle.index := by
      simpa [encode, ImageHandle.encode, numbers, numbersOfMembers] using hn
    exact legible_handle carried

end Param

namespace RecordedNode

/-- The text layer carries all parameters. -/
def Carried (node : RecordedNode) : Prop := ∀ e ∈ node.params.entries, e.2.Carried

/-- No lane of a parameter is infinite or no number. -/
def Finite (node : RecordedNode) : Prop := ∀ e ∈ node.params.entries, e.2.Finite

instance : DecidablePred Carried := fun node =>
  inferInstanceAs (Decidable (∀ e ∈ node.params.entries, e.2.Carried))

instance : DecidablePred Finite := fun node =>
  inferInstanceAs (Decidable (∀ e ∈ node.params.entries, e.2.Finite))

/-- A node comes back where its parameters do. -/
theorem comesBack {node : RecordedNode} (carried : node.Carried) :
    ComesBack (decode node.encode.reread) node node.Finite := by
  obtain ⟨kind, params⟩ := node
  have first : fieldDecoders.lookup "kind" = some fun v => .kind <$> NativeKind.decode v := rfl
  have second : fieldDecoders.lookup "params" =
    some fun v => (.params ∘ .ofList) <$> v.asEntries Param.decode := rfl
  have tree : (encode ⟨kind, params⟩).reread = .object [("kind", kind.encode.reread),
      ("params", .object (params.entries.map fun e => (e.1, e.2.encode.reread)))] := by
    simp [encode, reread, rereadMembers, rereadMembers_eq_map]
  have run : ∀ members, decode (.object [("kind", kind.encode.reread), ("params", .object members)]) = do
      let entries ← asEntries Param.decode (.object members)
      return ⟨kind, .ofList entries⟩ := by
    intro members
    have object : (Json.object members).checkNamed = .ok () := rfl
    cases entries : asEntries Param.decode (.object members) <;>
      simp [decode, fields, fieldsAmong, first, second, checkNamed_reread, object, entries,
        NativeKind.decode_reread, required, pure, Except.pure]
  have entries := comesBack_entries (fun param => param.encode.reread) Param.Finite
    (fun _ _ => checkNamed_reread _) fun e he => Param.comesBack (carried e he)
  rw [tree, run]
  refine .congr (.bind entries (.of_ok ?_)) (iff_of_eq (and_true _))
  simp [SortedMap.ofList_entries, pure, Except.pure]

theorem legible {node : RecordedNode} (carried : node.Carried) :
    ∀ n ∈ node.encode.numbers, n.Legible := by
  intro n hn
  have inside : n ∈ node.params.entries.flatMap fun e => e.2.encode.numbers := by
    simpa [encode, numbers, numbersOfMembers, NativeKind.numbers_encode, numbersOfMembers_eq_flatMap,
      List.flatMap_map] using hn
  obtain ⟨e, he, hn⟩ := List.mem_flatMap.1 inside
  exact Param.legible (carried e he) n hn

end RecordedNode

/-! ## Recordings -/

namespace Recording

variable {r : Recording}

/-- The text layer carries all parameters and roots. -/
structure Carried (r : Recording) : Prop where
  nodes : ∀ node ∈ r.nodes.toList, node.Carried
  roots : ∀ root ∈ r.roots.entries, root.2.Narrow

/-- No lane of a constant is infinite or no number. -/
def Finite (r : Recording) : Prop := ∀ node ∈ r.nodes.toList, node.Finite

instance : DecidablePred Finite := fun r =>
  inferInstanceAs (Decidable (∀ node ∈ r.nodes.toList, node.Finite))

/-- The tree of a recording comes back where the constants are finite; all images can be loaded then. -/
theorem comesBack (carried : r.Carried) :
    ComesBack (decode r.encode.reread) { r with failing := .empty } r.Finite := by
  obtain ⟨nodes, images, roots, failing⟩ := r
  have first : fieldDecoders.lookup "nodes" =
    some fun v => .nodes <$> v.asList RecordedNode.decode := rfl
  have second : fieldDecoders.lookup "images" =
    some fun v => .images <$> v.asList ImageDescriptor.decode := rfl
  have third : fieldDecoders.lookup "roots" =
    some fun v => (.roots ∘ .ofList) <$> v.asEntries NodeHandle.decode := rfl
  have tree : (encode ⟨nodes, images, roots, failing⟩).reread =
      .object [("nodes", .array (nodes.toList.map fun node => node.encode.reread)),
        ("images", .array (images.map fun image => image.encode.reread)),
        ("roots", .object (roots.entries.map fun e => (e.1, e.2.encode.reread)))] := by
    simp [encode, reread, rereadMembers, rereadItems_eq_map, rereadMembers_eq_map]
  have run : ∀ nodes images roots, decode (.object [("nodes", .array nodes), ("images", .array images),
      ("roots", .object roots)]) = do
        let nodes ← asList RecordedNode.decode (.array nodes)
        let images ← asList ImageDescriptor.decode (.array images)
        let roots ← asEntries NodeHandle.decode (.object roots)
        return ⟨nodes.toArray, images, .ofList roots, .empty⟩ := by
    intro nodes images roots
    have array : ∀ items, (Json.array items).checkNamed = .ok () := fun _ => rfl
    have object : ∀ members, (Json.object members).checkNamed = .ok () := fun _ => rfl
    cases hn : asList RecordedNode.decode (.array nodes) with
    | error refusal => simp [decode, fields, fieldsAmong, first, array, hn]
    | ok nodes =>
      cases hi : asList ImageDescriptor.decode (.array images) with
      | error refusal => simp [decode, fields, fieldsAmong, first, second, array, hn, hi]
      | ok images =>
        cases hr : asEntries NodeHandle.decode (.object roots) <;>
          simp [decode, fields, fieldsAmong, first, second, third, array, object, hn, hi, hr, required,
            pure, Except.pure]
  have nodesBack := comesBack_list (fun node => node.encode.reread) RecordedNode.Finite
    fun node hn => RecordedNode.comesBack (carried.nodes node hn)
  have imagesBack := comesBack_list (fun image => image.encode.reread) (fun _ => True)
    (l := images) fun image _ => .of_ok image.decode_reread
  have rootsBack := comesBack_entries (fun root => root.encode.reread) (fun _ => True)
    (fun _ _ => checkNamed_reread _)
    fun e he => .of_ok (NodeHandle.decode_reread (carried.roots e he))
  rw [tree, run]
  refine .congr (.bind nodesBack (.bind imagesBack (.bind rootsBack (.of_ok ?_)))) ?_
  · simp [SortedMap.ofList_entries, pure, Except.pure]
  · simp [Finite]

theorem legible (carried : r.Carried) : ∀ n ∈ r.encode.numbers, n.Legible := by
  intro n hn
  have inside : n ∈ r.nodes.toList.flatMap (fun node => node.encode.numbers) ∨
      n ∈ r.roots.entries.flatMap fun e => e.2.encode.numbers := by
    simpa [encode, numbers, numbersOfMembers, numbersOfItems_eq_flatMap, numbersOfMembers_eq_flatMap,
      List.flatMap_map, ImageDescriptor.numbers_encode] using hn
  rcases inside with hn | hn
  · obtain ⟨node, hnode, hn⟩ := List.mem_flatMap.1 hn
    exact RecordedNode.legible (carried.nodes node hnode) n hn
  · obtain ⟨root, hr, hn⟩ := List.mem_flatMap.1 hn
    obtain rfl : n = .natural root.2.index := by simpa [NodeHandle.encode, numbers] using hn
    exact legible_handle (carried.roots root hr)

/-- Recordings survive their texts, or are refused. A recording whose handles are numbers of 32 bits, and
    whose finite lanes come back from their texts, is read back from its text with its nodes, images
    and roots, and with no image that fails, if every lane is finite; otherwise the text is refused
    for its shape. So nothing is ever read that differs from the recording. -/
theorem round_trip_exact (carried : r.Carried) :
    (r.Finite → ofText r.toText = .ok { r with failing := .empty }) ∧
    (¬ r.Finite → ofText r.toText = .error .shape) ∧
    ∀ found, ofText r.toText = .ok found →
      found.nodes = r.nodes ∧ found.images = r.images ∧ found.roots = r.roots := by
  have back : ComesBack (ofText r.toText) { r with failing := .empty } r.Finite := by
    rw [ofText, toText, decodeText, read_compact _ (legible carried)]
    exact .congr (.bind (comesBack carried) (.of_ok rfl)) (iff_of_eq (and_true _))
  refine ⟨back.ok, back.refused, fun found read => ?_⟩
  obtain rfl := back.eq read
  exact ⟨rfl, rfl, rfl⟩

/-- Wood whose color is scaled, in a recording in which another image fails. -/
def scaled (x : Single) : Recording where
  nodes := #[⟨.inputLookup .uv, .empty⟩,
    ⟨.imageTexture, .ofList [("coordinates", .node ⟨0⟩), ("image", .image ⟨0⟩)]⟩,
    ⟨.arithmetic .mul, .ofList [("a", .node ⟨1⟩), ("b", .constant (.splat x))]⟩]
  images := [⟨"wood \"dark\".png", .clampToEdge⟩]
  roots := .ofList [("Wood", ⟨2⟩)]
  failing := .ofList [("lost.png", ())]

/-- Scaled by one it comes back, scaled by infinity it is refused. -/
theorem round_trip_exact_scaled :
    ofText (scaled .one).toText = .ok { scaled .one with failing := .empty } ∧
    ofText (scaled (.ofDatum (.infinite false))).toText = .error .shape := by
  have carried : ∀ x ∈ [Single.one, .ofDatum (.infinite false)],
      (∀ node ∈ (scaled x).nodes.toList, node.Carried) ∧
        ∀ root ∈ (scaled x).roots.entries, root.2.index < handleLimit := by decide +kernel
  have one := carried .one (by simp)
  have infinite := carried (.ofDatum (.infinite false)) (by simp)
  exact ⟨(round_trip_exact ⟨one.1, one.2⟩).1 (by decide +kernel),
    (round_trip_exact ⟨infinite.1, infinite.2⟩).2.1 (by decide +kernel)⟩

end Recording

end MaterialLowering
