import MaterialLowering.Host.DocumentJson
import MaterialLowering.Proofs.Texts.Decoding
import MaterialLowering.Proofs.Texts.FiniteNumbers

/-!
# Documents survive their texts

A document is written as a text and read again. Every record is taken apart into what its parts are
read as, so that it comes back where its parts do. The only parts that can be lost are literals: a
number that is not finite is written as `null`, which is no number, and no literal at all in the place
of a default.

Results:
* `SocketDecl.decode_reread`: a socket comes back where its default is finite, and only there.
* `Document.decode_reread`: so does a document with all its trees.
* `Document.round_trip_iff_finite`: a text of a document reads as the document exactly where its
  literals are finite.
-/

namespace MaterialLowering

open Numeric (Single Double)
open Json

/-! ## Sockets -/

namespace SocketDecl

/-- The numbers of a default. -/
def singles (socket : SocketDecl) : List Single := (socket.default.map Literal.singles).getD []

/-- The fields of a socket are read one by one. -/
theorem decode_record (name : String) (default : Option Json) (shader : Bool)
    (named : ∀ value ∈ default, value.checkNamed = .ok ()) :
    decode (.object ([("name", .string name)] ++ Json.optional "default" default ++
        whenTrue "shader" shader)) =
      default.elim (.ok ⟨name, none, shader⟩) fun value =>
        (fun literal => ⟨name, literal, shader⟩) <$> value.asOption Literal.ofJson := by
  have first : fieldDecoders.lookup "name" = some fun v => .name <$> v.asString := rfl
  have second : fieldDecoders.lookup "default" =
      some fun v => .default <$> v.asOption Literal.ofJson := rfl
  have third : fieldDecoders.lookup "shader" = some fun v => .shader <$> v.asBool := rfl
  cases default with
  | none =>
    cases shader <;>
      simp [decode, fields, fieldsAmong, Json.optional, whenTrue, first, third, required, asString,
        asBool, pure, Except.pure]
  | some value =>
    cases hv : value.asOption Literal.ofJson with
    | error refusal =>
      simp [decode, fields, fieldsAmong, Json.optional, whenTrue, first, second, required, asString,
        named value rfl, hv]
    | ok literal =>
      cases shader <;>
        simp [decode, fields, fieldsAmong, Json.optional, whenTrue, first, second, third, required,
          asString, asBool, named value rfl, hv, pure, Except.pure]

/-- A socket comes back where its default is finite, and only there. -/
theorem decode_reread {socket : SocketDecl}
    (layer : ∀ x ∈ socket.singles, x.isFinite → x.ReadsBack) :
    decode socket.encode.reread = .ok socket ↔ ∀ x ∈ socket.singles, x.isFinite := by
  obtain ⟨name, default, shader⟩ := socket
  have tree : (encode ⟨name, default, shader⟩).reread = .object ([("name", .string name)] ++
      Json.optional "default" (default.map fun l => l.encode.reread) ++ whenTrue "shader" shader) := by
    cases default <;> cases shader <;> rfl
  rw [tree, decode_record _ _ _ fun value hv => by
    obtain ⟨l, -, rfl⟩ := Option.map_eq_some_iff.1 hv
    exact checkNamed_reread _]
  cases default with
  | none => simp [singles]
  | some l =>
    have back := Literal.asOption_eq_some.trans (Literal.ofJson_reread (l := l) layer)
    simpa [singles] using back

theorem legible {socket : SocketDecl} (layer : ∀ x ∈ socket.singles, x.isFinite → x.ReadsBack) :
    ∀ n ∈ socket.encode.numbers, n.Legible := by
  obtain ⟨name, default, shader⟩ := socket
  cases default with
  | none =>
    cases shader <;> simp [encode, Json.optional, whenTrue, numbers, numbersOfMembers]
  | some l =>
    have inside := Literal.legible (l := l) layer
    cases shader <;>
      simpa [encode, Json.optional, whenTrue, numbers, numbersOfMembers] using inside

theorem faultWithin_reread (socket : SocketDecl) {depth : Nat} (shallow : depth + 1 < nestingLimit) :
    socket.encode.reread.faultWithin depth = none := by
  refine faultWithin_reread_object (Nat.lt_of_succ_lt shallow) ?_
  cases socket.default <;> cases socket.shader <;>
    simp [Json.optional, whenTrue, Literal.faultWithin_reread _ shallow]

end SocketDecl

/-! ## Nodes -/

namespace Property

/-- The number of a property. -/
def doubles : Property → List Double
  | .number x => [x]
  | _ => []

theorem ofJson_reread {property : Property} (layer : ∀ x ∈ property.doubles, x.ReadsBack) :
    ofJson property.encode.reread = .ok property := by
  cases property with
  | number x =>
    obtain ⟨n, hn, hx⟩ := Json.Number.reread_double (layer x List.mem_cons_self)
    rw [encode, hn, ofJson, hx]
  | _ => rfl

theorem legible {property : Property} (layer : ∀ x ∈ property.doubles, x.ReadsBack) :
    ∀ n ∈ property.encode.numbers, n.Legible := by
  cases property with
  | number x => simpa [encode, numbers] using Json.Number.legible_double (layer x List.mem_cons_self)
  | _ => simp [encode, numbers]

theorem faultWithin_reread (property : Property) (depth : Nat) :
    property.encode.reread.faultWithin depth = none := by
  cases property with
  | number x => exact faultWithin_number depth _
  | _ => rfl

/-- A property that was read has a finite number, or none. -/
theorem finite_of_ofJson {value : Json} {property : Property} (finite : value.Finite)
    (h : ofJson value = .ok property) : ∀ x ∈ property.doubles, x.isFinite := by
  cases value <;> cases h <;> simp [doubles]
  rename_i n
  exact finite n (by simp [numbers])

end Property

namespace NodeDecl

/-- The numbers of the defaults. -/
def singles (node : NodeDecl) : List Single :=
  (node.inputs ++ node.outputs).flatMap SocketDecl.singles

/-- The numbers of the properties. -/
def doubles (node : NodeDecl) : List Double :=
  node.properties.entries.flatMap fun p => p.2.doubles

/-- The fields of a node are read one by one. -/
theorem decode_record (name id : String) (ins outs : List Json) (properties : List (String × Json))
    (mute : Bool) :
    decode (.object ([("name", .string name), ("type", .string id), ("inputs", .array ins),
        ("outputs", .array outs), ("properties", .object properties)] ++ whenTrue "mute" mute)) = (do
      let inputs ← asList SocketDecl.decode (.array ins)
      let outputs ← asList SocketDecl.decode (.array outs)
      let entries ← asEntries Property.ofJson (.object properties)
      return ⟨name, .ofId id, inputs, outputs, .ofList entries, mute⟩) := by
  have h₁ : fieldDecoders.lookup "name" = some fun v => .name <$> v.asString := rfl
  have h₂ : fieldDecoders.lookup "type" = some fun v => (.kind ∘ .ofId) <$> v.asString := rfl
  have h₃ : fieldDecoders.lookup "inputs" =
    some fun v => .inputs <$> v.asList SocketDecl.decode := rfl
  have h₄ : fieldDecoders.lookup "outputs" =
    some fun v => .outputs <$> v.asList SocketDecl.decode := rfl
  have h₅ : fieldDecoders.lookup "properties" =
    some fun v => (.properties ∘ .ofList) <$> v.asEntries Property.ofJson := rfl
  have h₆ : fieldDecoders.lookup "mute" = some fun v => .mute <$> v.asBool := rfl
  have array : ∀ items, (Json.array items).checkNamed = .ok () := fun _ => rfl
  have object : ∀ members, (Json.object members).checkNamed = .ok () := fun _ => rfl
  cases hi : asList SocketDecl.decode (.array ins) with
  | error refusal => simp [decode, fields, fieldsAmong, h₁, h₂, h₃, array, asString, hi]
  | ok inputs =>
    cases ho : asList SocketDecl.decode (.array outs) with
    | error refusal => simp [decode, fields, fieldsAmong, h₁, h₂, h₃, h₄, array, asString, hi, ho]
    | ok outputs =>
      cases hp : asEntries Property.ofJson (.object properties) with
      | error refusal =>
        simp [decode, fields, fieldsAmong, h₁, h₂, h₃, h₄, h₅, array, object, asString, hi, ho, hp]
      | ok entries =>
        cases mute <;>
          simp [decode, fields, fieldsAmong, whenTrue, h₁, h₂, h₃, h₄, h₅, h₆, array, object, asString,
            asBool, hi, ho, hp, required, pure, Except.pure]

/-- The trees of sockets come back where their defaults are finite. -/
theorem sockets_reread {sockets : List SocketDecl}
    (layer : ∀ x ∈ sockets.flatMap SocketDecl.singles, x.isFinite → x.ReadsBack) :
    asList SocketDecl.decode (.array (sockets.map fun socket => socket.encode.reread)) = .ok sockets ↔
      ∀ x ∈ sockets.flatMap SocketDecl.singles, x.isFinite := by
  have each : ∀ socket ∈ sockets, SocketDecl.decode socket.encode.reread = .ok socket ↔
      ∀ x ∈ socket.singles, x.isFinite := fun socket hs =>
    SocketDecl.decode_reread fun x hx => layer x (List.mem_flatMap.2 ⟨socket, hs, hx⟩)
  rw [asList_map, List.forall_mem_flatMap]
  exact forall₂_congr each

/-- A node comes back where the defaults of its sockets are finite, and only there. -/
theorem decode_reread {node : NodeDecl} (known : ∃ id, node.kind = .ofId id)
    (layer : ∀ x ∈ node.singles, x.isFinite → x.ReadsBack)
    (plain : ∀ x ∈ node.doubles, x.ReadsBack) :
    decode node.encode.reread = .ok node ↔ ∀ x ∈ node.singles, x.isFinite := by
  obtain ⟨name, kind, inputs, outputs, properties, mute⟩ := node
  obtain ⟨kindId, rfl⟩ := known
  have entries : asEntries Property.ofJson
      (.object (properties.entries.map fun p => (p.1, p.2.encode.reread))) =
        .ok properties.entries := by
    have all := (asEntries_map Property.ofJson (fun p : Property => p.encode.reread) id
      (l := properties.entries) fun p _ => checkNamed_reread _).2
      fun p hp => Property.ofJson_reread fun x hx => plain x (List.mem_flatMap.2 ⟨p, hp, hx⟩)
    simpa using all
  have tree : (encode ⟨name, .ofId kindId, inputs, outputs, properties, mute⟩).reread =
      .object ([("name", .string name), ("type", .string kindId),
        ("inputs", .array (inputs.map fun socket => socket.encode.reread)),
        ("outputs", .array (outputs.map fun socket => socket.encode.reread)),
        ("properties", .object (properties.entries.map fun p => (p.1, p.2.encode.reread)))] ++
        whenTrue "mute" mute) := by
    cases mute <;>
      simp [encode, whenTrue, reread, rereadMembers, rereadItems_eq_map, rereadMembers_eq_map,
        HostKind.id_ofId]
  simp only [tree, decode_record, entries, Except.ok_bind, SortedMap.ofList_entries]
  simp only [singles, List.flatMap_append, List.mem_append, or_imp, forall_and] at layer ⊢
  rw [← sockets_reread layer.1, ← sockets_reread layer.2]
  simp [Except.bind_eq_ok, pure, Except.pure]

theorem legible {node : NodeDecl} (layer : ∀ x ∈ node.singles, x.isFinite → x.ReadsBack)
    (plain : ∀ x ∈ node.doubles, x.ReadsBack) : ∀ n ∈ node.encode.numbers, n.Legible := by
  intro n hn
  have inside : n ∈ (node.inputs ++ node.outputs).flatMap (fun socket => socket.encode.numbers) ∨
      n ∈ node.properties.entries.flatMap (fun p => p.2.encode.numbers) := by
    cases hm : node.mute <;>
      simpa [encode, hm, whenTrue, numbers, numbersOfMembers, numbersOfItems_eq_flatMap,
        numbersOfMembers_eq_flatMap, List.flatMap_map, or_assoc, or_and_right, exists_or] using hn
  rcases inside with hn | hn
  · obtain ⟨socket, hs, hn⟩ := List.mem_flatMap.1 hn
    exact SocketDecl.legible (fun x hx => layer x (List.mem_flatMap.2 ⟨socket, hs, hx⟩)) n hn
  · obtain ⟨p, hp, hn⟩ := List.mem_flatMap.1 hn
    exact Property.legible (fun x hx => plain x (List.mem_flatMap.2 ⟨p, hp, hx⟩)) n hn

theorem faultWithin_reread (node : NodeDecl) {depth : Nat} (shallow : depth + 3 < nestingLimit) :
    node.encode.reread.faultWithin depth = none := by
  have sockets : ∀ l : List SocketDecl,
      (Json.array (l.map SocketDecl.encode)).reread.faultWithin (depth + 1) = none := fun l =>
    faultWithin_reread_array (by omega)
      (List.forall_mem_map.2 fun socket _ => socket.faultWithin_reread (by omega))
  have properties : (Json.object (node.properties.entries.map fun p =>
      (p.1, p.2.encode))).reread.faultWithin (depth + 1) = none :=
    faultWithin_reread_object (by omega)
      (List.forall_mem_map.2 fun p _ => p.2.faultWithin_reread _)
  refine faultWithin_reread_object (by omega) ?_
  cases node.mute <;> simp [whenTrue, sockets, properties]

/-- What every node has that was read: a kind that an identifier means, and finite numbers for
properties. -/
structure Plain (node : NodeDecl) : Prop where
  known : ∃ id, node.kind = .ofId id
  finite : ∀ x ∈ node.doubles, x.isFinite

/-- What a field has that was read. -/
def Field.Plain : Field → Prop
  | .kind meant => ∃ id, meant = .ofId id
  | .properties map => ∀ p ∈ map.entries, ∀ x ∈ p.2.doubles, x.isFinite
  | _ => True

theorem plain_of_fields {value : Json} {surplus : Refusal} {fs : List Field} (finite : value.Finite)
    (h : fields fieldDecoders surplus value = .ok fs) : ∀ a ∈ fs, a.Plain := by
  intro a ha
  obtain ⟨d, hd, v, inside, hv⟩ := mem_fields h ha
  simp only [fieldDecoders, List.mem_cons, List.not_mem_nil, or_false] at hd
  obtain rfl | rfl | rfl | rfl | rfl | rfl := hd <;> obtain ⟨part, hp, rfl⟩ := Except.map_eq_ok.1 hv
  case inr.inl => exact ⟨part, rfl⟩
  case inr.inr.inr.inr.inl =>
    intro p mem
    obtain ⟨v', inside', hv'⟩ := mem_asEntries hp (SortedMap.mem_of_mem_ofList mem)
    exact Property.finite_of_ofJson (fun n hn => finite n (inside (inside' hn))) hv'
  all_goals trivial

theorem plain_of_decode {value : Json} {node : NodeDecl} (finite : value.Finite)
    (h : decode value = .ok node) : node.Plain := by
  obtain ⟨fs, hfs, h⟩ := Except.bind_eq_ok.1 h
  obtain ⟨name, hn, h⟩ := Except.bind_eq_ok.1 h
  obtain ⟨kind, hk, h⟩ := Except.bind_eq_ok.1 h
  cases h
  have plain := plain_of_fields finite hfs
  constructor
  · obtain ⟨a, ha, found⟩ := List.exists_of_findSome?_eq_some (required_eq_ok.1 hk)
    cases a <;> cases found
    exact plain _ ha
  · show ∀ x ∈ (Option.getD (fs.findSome? _) SortedMap.empty).entries.flatMap _, _
    rcases hp : List.findSome? _ fs with _ | properties
    · simp [SortedMap.empty]
    · obtain ⟨a, ha, found⟩ := List.exists_of_findSome?_eq_some hp
      cases a <;> cases found
      exact List.forall_mem_flatMap.2 (plain _ ha)

end NodeDecl

/-! ## Links -/

/-- A place among the inputs is a number of 64 bits. -/
def SocketKey.Placed : SocketKey → Prop
  | .index i => i < placeLimit
  | .name _ => True

namespace SocketKey

theorem decode_reread {key : SocketKey} (placed : key.Placed) : decode key.encode.reread = .ok key := by
  cases key with
  | name s => rfl
  | index i =>
    have small : i ≤ naturalLimit := Nat.le_pred_of_lt placed
    rw [encode, Json.Number.reread_natural small]
    simp [decode, asNatural, show i < placeLimit from placed]

theorem legible {key : SocketKey} (placed : key.Placed) : ∀ n ∈ key.encode.numbers, n.Legible := by
  cases key with
  | name s => simp [encode, numbers]
  | index i =>
    simpa [encode, numbers] using Json.Number.legible_natural (Nat.le_pred_of_lt placed)

theorem placed_of_decode {value : Json} {key : SocketKey} (h : decode value = .ok key) :
    key.Placed := by
  cases value with
  | string s =>
    cases h
    trivial
  | number n =>
    obtain ⟨i, hi, rfl⟩ := Except.map_eq_ok.1 h
    cases n with
    | natural n =>
      simp only [asNatural] at hi
      split at hi
      · cases hi
        assumption
      · cases hi
    | _ => cases hi
  | _ => cases h

end SocketKey

namespace LinkDecl

/-- The fields of a link are read one by one. -/
theorem decode_record (fromNode fromSocket toNode : String) (socket : Json) (hidden : Bool)
    (named : socket.checkNamed = .ok ()) :
    decode (.object ([("from_node", .string fromNode), ("from_socket", .string fromSocket),
        ("to_node", .string toNode), ("to_socket", socket)] ++ whenTrue "hidden" hidden)) =
      (fun key => ⟨fromNode, fromSocket, toNode, key, hidden⟩) <$> SocketKey.decode socket := by
  have h₁ : fieldDecoders.lookup "from_node" = some fun v => .fromNode <$> v.asString := rfl
  have h₂ : fieldDecoders.lookup "from_socket" = some fun v => .fromSocket <$> v.asString := rfl
  have h₃ : fieldDecoders.lookup "to_node" = some fun v => .toNode <$> v.asString := rfl
  have h₄ : fieldDecoders.lookup "to_socket" = some fun v => .toSocket <$> SocketKey.decode v := rfl
  have h₅ : fieldDecoders.lookup "hidden" = some fun v => .hidden <$> v.asBool := rfl
  cases hs : SocketKey.decode socket with
  | error refusal =>
    simp [decode, fields, fieldsAmong, h₁, h₂, h₃, h₄, named, asString, hs]
  | ok key =>
    cases hidden <;>
      simp [decode, fields, fieldsAmong, whenTrue, h₁, h₂, h₃, h₄, h₅, named, asString, asBool, hs,
        required, pure, Except.pure]

/-- A link comes back. -/
theorem decode_reread {link : LinkDecl} (placed : link.toSocket.Placed) :
    decode link.encode.reread = .ok link := by
  have tree : link.encode.reread = .object ([("from_node", .string link.fromNode),
      ("from_socket", .string link.fromSocket), ("to_node", .string link.toNode),
      ("to_socket", link.toSocket.encode.reread)] ++ whenTrue "hidden" link.hidden) := by
    cases hh : link.hidden <;> simp [encode, hh, whenTrue, reread, rereadMembers]
  rw [tree, decode_record _ _ _ _ _ (checkNamed_reread _), SocketKey.decode_reread placed]
  rfl

theorem legible {link : LinkDecl} (placed : link.toSocket.Placed) :
    ∀ n ∈ link.encode.numbers, n.Legible := by
  intro n hn
  have inside : n ∈ link.toSocket.encode.numbers := by
    cases hh : link.hidden <;> simpa [encode, hh, whenTrue, numbers, numbersOfMembers] using hn
  exact SocketKey.legible placed n inside

theorem faultWithin_reread (link : LinkDecl) {depth : Nat} (shallow : depth < nestingLimit) :
    link.encode.reread.faultWithin depth = none := by
  have socket : link.toSocket.encode.reread.faultWithin (depth + 1) = none := by
    cases link.toSocket with
    | name s => rfl
    | index i => exact faultWithin_number _ _
  refine faultWithin_reread_object shallow ?_
  cases link.hidden <;> simp [whenTrue, socket]

theorem placed_of_decode {value : Json} {link : LinkDecl} (h : decode value = .ok link) :
    link.toSocket.Placed := by
  obtain ⟨fs, hfs, h⟩ := Except.bind_eq_ok.1 h
  obtain ⟨fromNode, -, h⟩ := Except.bind_eq_ok.1 h
  obtain ⟨fromSocket, -, h⟩ := Except.bind_eq_ok.1 h
  obtain ⟨toNode, -, h⟩ := Except.bind_eq_ok.1 h
  obtain ⟨key, hk, h⟩ := Except.bind_eq_ok.1 h
  cases h
  obtain ⟨a, ha, found⟩ := List.exists_of_findSome?_eq_some (required_eq_ok.1 hk)
  obtain ⟨d, hd, v, -, hv⟩ := mem_fields hfs ha
  simp only [fieldDecoders, List.mem_cons, List.not_mem_nil, or_false] at hd
  obtain rfl | rfl | rfl | rfl | rfl := hd <;>
    obtain ⟨part, hp, rfl⟩ := Except.map_eq_ok.1 hv <;> cases found
  exact SocketKey.placed_of_decode hp

end LinkDecl

/-! ## Trees -/

namespace NodeTree

/-- The numbers of the defaults. -/
def singles (tree : NodeTree) : List Single := tree.nodes.flatMap NodeDecl.singles

/-- The numbers of the properties. -/
def doubles (tree : NodeTree) : List Double := tree.nodes.flatMap NodeDecl.doubles

/-- What every tree has that was read. -/
structure Plain (tree : NodeTree) : Prop where
  nodes : ∀ node ∈ tree.nodes, node.Plain
  links : ∀ link ∈ tree.links, link.toSocket.Placed

/-- The numbers of the tree that are finite come back from their texts. -/
structure Carried (tree : NodeTree) : Prop where
  singles : ∀ x ∈ tree.singles, x.isFinite → x.ReadsBack
  doubles : ∀ x ∈ tree.doubles, x.isFinite → x.ReadsBack

/-- The fields of a tree are read one by one, and other members are left alone. -/
theorem decodeMembers_record (name : Json) (nodes links : List Json) (rest : List (String × Json))
    (named : name.checkNamed = .ok ())
    (others : fieldsAmong fieldDecoders (fun _ => .ok ()) ["links", "nodes"] rest = .ok []) :
    decodeMembers (("name", name) :: ("nodes", .array nodes) :: ("links", .array links) :: rest) = (do
      let nodes ← asList NodeDecl.decode (.array nodes)
      let links ← asList LinkDecl.decode (.array links)
      return ⟨nodes, links⟩) := by
  have h₁ : fieldDecoders.lookup "name" = none := rfl
  have h₂ : fieldDecoders.lookup "nodes" = some fun v => .nodes <$> v.asList NodeDecl.decode := rfl
  have h₃ : fieldDecoders.lookup "links" = some fun v => .links <$> v.asList LinkDecl.decode := rfl
  have array : ∀ items, (Json.array items).checkNamed = .ok () := fun _ => rfl
  rw [decodeMembers, fieldsAmong_other h₁ named, Except.ok_bind,
    fieldsAmong_known h₂ (array _) (by simp)]
  cases hn : asList NodeDecl.decode (.array nodes) with
  | error refusal => simp
  | ok nodes =>
    simp only [Except.map_ok, Except.ok_bind]
    rw [fieldsAmong_known h₃ (array _) (by simp), others]
    cases hl : asList LinkDecl.decode (.array links) with
    | error refusal => simp
    | ok links => simp [pure, Except.pure]

variable {tree : NodeTree}

/-- The tree comes back where the defaults of its sockets are finite, and only there. -/
theorem decodeMembers_reread (plain : tree.Plain) (carried : tree.Carried) (name : Json)
    (rest : List (String × Json)) (named : name.checkNamed = .ok ())
    (others : fieldsAmong fieldDecoders (fun _ => .ok ()) ["links", "nodes"] rest = .ok []) :
    decodeMembers (("name", name) ::
        ("nodes", .array (tree.nodes.map fun node => node.encode.reread)) ::
        ("links", .array (tree.links.map fun link => link.encode.reread)) :: rest) = .ok tree ↔
      ∀ x ∈ tree.singles, x.isFinite := by
  have nodes : asList NodeDecl.decode (.array (tree.nodes.map fun node => node.encode.reread)) =
      .ok tree.nodes ↔ ∀ x ∈ tree.singles, x.isFinite := by
    rw [asList_map, singles, List.forall_mem_flatMap]
    exact forall₂_congr fun node hn => NodeDecl.decode_reread (plain.nodes node hn).known
      (fun x hx => carried.singles x (List.mem_flatMap.2 ⟨node, hn, hx⟩))
      fun x hx => carried.doubles x (List.mem_flatMap.2 ⟨node, hn, hx⟩)
        ((plain.nodes node hn).finite x hx)
  have links : asList LinkDecl.decode (.array (tree.links.map fun link => link.encode.reread)) =
      .ok tree.links :=
    asList_map.2 fun link hl => LinkDecl.decode_reread (plain.links link hl)
  rw [decodeMembers_record name _ _ rest named others, links, ← nodes]
  obtain ⟨nodes, links⟩ := tree
  simp [Except.bind_eq_ok, pure, Except.pure]

theorem legible (plain : tree.Plain) (carried : tree.Carried) :
    ∀ m ∈ tree.encodeMembers, ∀ n ∈ m.2.numbers, n.Legible := by
  have nodes : ∀ n ∈ (Json.array (tree.nodes.map NodeDecl.encode)).numbers, n.Legible := by
    intro n hn
    rw [numbers_array, List.flatMap_map] at hn
    obtain ⟨node, hnode, hn⟩ := List.mem_flatMap.1 hn
    exact NodeDecl.legible (fun x hx => carried.singles x (List.mem_flatMap.2 ⟨node, hnode, hx⟩))
      (fun x hx => carried.doubles x (List.mem_flatMap.2 ⟨node, hnode, hx⟩)
        ((plain.nodes node hnode).finite x hx)) n hn
  have links : ∀ n ∈ (Json.array (tree.links.map LinkDecl.encode)).numbers, n.Legible := by
    intro n hn
    rw [numbers_array, List.flatMap_map] at hn
    obtain ⟨link, hl, hn⟩ := List.mem_flatMap.1 hn
    exact LinkDecl.legible (plain.links link hl) n hn
  simpa [encodeMembers] using ⟨nodes, links⟩

theorem whole_nodes (tree : NodeTree) {depth : Nat} (shallow : depth + 4 < nestingLimit) :
    (Json.array (tree.nodes.map fun node => node.encode.reread)).whole depth = .ok () :=
  whole_eq_ok (faultWithin_array (by omega)
    (List.forall_mem_map.2 fun node _ => node.faultWithin_reread (by omega)))

theorem whole_links (tree : NodeTree) {depth : Nat} (shallow : depth + 4 < nestingLimit) :
    (Json.array (tree.links.map fun link => link.encode.reread)).whole depth = .ok () :=
  whole_eq_ok (faultWithin_array (by omega)
    (List.forall_mem_map.2 fun link _ => link.faultWithin_reread (by omega)))

theorem plain_of_decodeMembers {members : List (String × Json)} (finite : ∀ m ∈ members, m.2.Finite)
    (h : decodeMembers members = .ok tree) : tree.Plain := by
  obtain ⟨fs, hfs, h⟩ := Except.bind_eq_ok.1 h
  cases h
  have source : ∀ a ∈ fs, ∃ d ∈ fieldDecoders, ∃ m ∈ members, d.2 m.2 = .ok a :=
    fun a ha => mem_fieldsAmong hfs ha
  simp only [fieldDecoders, List.mem_cons, List.not_mem_nil, or_false] at source
  constructor
  · show ∀ node ∈ Option.getD (fs.findSome? _) [], _
    rcases hn : List.findSome? _ fs with _ | nodes
    · simp
    · obtain ⟨a, ha, found⟩ := List.exists_of_findSome?_eq_some hn
      obtain ⟨d, rfl | rfl, m, hm, hv⟩ := source a ha <;>
        obtain ⟨part, hp, rfl⟩ := Except.map_eq_ok.1 hv <;> cases found
      intro node mem
      obtain ⟨v, inside, hv⟩ := mem_asList hp mem
      exact NodeDecl.plain_of_decode (fun n hn => finite m hm n (inside hn)) hv
  · show ∀ link ∈ Option.getD (fs.findSome? _) [], _
    rcases hl : List.findSome? _ fs with _ | links
    · simp
    · obtain ⟨a, ha, found⟩ := List.exists_of_findSome?_eq_some hl
      obtain ⟨d, rfl | rfl, m, hm, hv⟩ := source a ha <;>
        obtain ⟨part, hp, rfl⟩ := Except.map_eq_ok.1 hv <;> cases found
      intro link mem
      obtain ⟨v, -, hv⟩ := mem_asList hp mem
      exact LinkDecl.placed_of_decode hv

end NodeTree

/-! ## Groups -/

namespace NodeGroup

/-- A group comes back where the defaults in its tree are finite, and only there. -/
theorem decode_reread {group : NodeGroup} {depth : Nat} (shallow : depth + 5 < nestingLimit)
    (plain : group.tree.Plain) (carried : group.tree.Carried) :
    decode depth group.encode.reread = .ok group ↔ ∀ x ∈ group.tree.singles, x.isFinite := by
  have members := NodeTree.decodeMembers_reread plain carried (.string group.name) [] rfl rfl
  have name : fieldDecoders.lookup "name" = some asString := rfl
  have nodes : fieldDecoders.lookup "nodes" = none := rfl
  have links : fieldDecoders.lookup "links" = none := rfl
  have array : ∀ items, (Json.array items).checkNamed = .ok () := fun _ => rfl
  have tree : group.encode.reread = .object (("name", .string group.name) ::
      ("nodes", .array (group.tree.nodes.map fun node => node.encode.reread)) ::
      ("links", .array (group.tree.links.map fun link => link.encode.reread)) :: []) := by
    simp [encode, NodeTree.encodeMembers, reread, rereadMembers, rereadItems_eq_map]
  have inside : depth + 1 + 4 < nestingLimit := by omega
  have head : fieldsAmong fieldDecoders (whole (depth + 1)) [] (("name", .string group.name) ::
      ("nodes", .array (group.tree.nodes.map fun node => node.encode.reread)) ::
      ("links", .array (group.tree.links.map fun link => link.encode.reread)) :: []) =
        .ok [group.name] := by
    simp [fieldsAmong, name, nodes, links, array, asString, pure, Except.pure,
      group.tree.whole_nodes inside, group.tree.whole_links inside]
  rw [tree, decode]
  simp only [asMembers, Except.ok_bind, head, required, List.head?_cons]
  rw [← members]
  obtain ⟨name, tree⟩ := group
  simp [Except.bind_eq_ok, pure, Except.pure]

theorem legible {group : NodeGroup} (plain : group.tree.Plain) (carried : group.tree.Carried) :
    ∀ n ∈ group.encode.numbers, n.Legible := by
  intro n hn
  rw [encode, numbers_object] at hn
  obtain ⟨m, hm, hn⟩ := List.mem_flatMap.1 hn
  rcases List.mem_cons.1 hm with rfl | hm
  · simp [numbers] at hn
  · exact NodeTree.legible plain carried m hm n hn

theorem plain_of_decode {value : Json} {group : NodeGroup} {depth : Nat} (finite : value.Finite)
    (h : decode depth value = .ok group) : group.tree.Plain := by
  obtain ⟨members, hm, h⟩ := Except.bind_eq_ok.1 h
  obtain ⟨names, -, h⟩ := Except.bind_eq_ok.1 h
  obtain ⟨name, -, h⟩ := Except.bind_eq_ok.1 h
  obtain ⟨tree, ht, h⟩ := Except.bind_eq_ok.1 h
  cases h
  cases value <;> cases hm
  exact NodeTree.plain_of_decodeMembers
    (fun m hm n hn => finite n (numbers_subset_of_mem_members hm hn)) ht

end NodeGroup

/-! ## Documents -/

namespace Document

/-- The numbers of the defaults in all trees. -/
def singles (d : Document) : List Single := d.trees.flatMap NodeTree.singles

/-- The fields of a document are read one by one, those of its tree in a pass of their own. -/
theorem decode_record (name : String) (nodes links groups : List Json)
    (wholeNodes : (Json.array nodes).whole 1 = .ok ())
    (wholeLinks : (Json.array links).whole 1 = .ok ()) :
    decode (.object (("name", .string name) :: ("nodes", .array nodes) :: ("links", .array links) ::
        [("groups", .array groups)])) = (do
      let groups' ← asList (NodeGroup.decode 2) (.array groups)
      let tree ← NodeTree.decodeMembers (("name", .string name) :: ("nodes", .array nodes) ::
        ("links", .array links) :: [("groups", .array groups)])
      return ⟨name, tree, groups'⟩) := by
  have h₁ : fieldDecoders.lookup "name" = some fun v => .name <$> v.asString := rfl
  have h₂ : fieldDecoders.lookup "nodes" = none := rfl
  have h₃ : fieldDecoders.lookup "links" = none := rfl
  have h₄ : fieldDecoders.lookup "groups" =
    some fun v => .groups <$> v.asList (NodeGroup.decode 2) := rfl
  have array : ∀ items, (Json.array items).checkNamed = .ok () := fun _ => rfl
  cases hg : asList (NodeGroup.decode 2) (.array groups) with
  | error refusal =>
    simp [decode, asMembers, fieldsAmong, h₁, h₂, h₃, h₄, array, asString, wholeNodes, wholeLinks, hg]
  | ok decoded =>
    simp [decode, asMembers, fieldsAmong, h₁, h₂, h₃, h₄, array, asString, wholeNodes, wholeLinks, hg,
      required, pure, Except.pure]

variable {d : Document}

/-- The tree of a document comes back as the document where all defaults are finite. -/
theorem decode_reread (plain : ∀ tree ∈ d.trees, tree.Plain)
    (carried : ∀ tree ∈ d.trees, tree.Carried) :
    decode d.encode.reread = .ok d ↔ ∀ x ∈ d.singles, x.isFinite := by
  have own : d.tree ∈ d.trees := List.mem_cons_self
  have called : ∀ group ∈ d.groups, group.tree ∈ d.trees := fun group hg =>
    List.mem_cons_of_mem _ (List.mem_map_of_mem hg)
  have members := NodeTree.decodeMembers_reread (plain _ own) (carried _ own) (.string d.name)
    [("groups", .array (d.groups.map fun group => group.encode.reread))] rfl rfl
  have groups : asList (NodeGroup.decode 2) (.array (d.groups.map fun group => group.encode.reread)) =
      .ok d.groups ↔ ∀ group ∈ d.groups, ∀ x ∈ group.tree.singles, x.isFinite :=
    asList_map.trans (forall₂_congr fun group hg =>
      NodeGroup.decode_reread (by decide) (plain _ (called group hg)) (carried _ (called group hg)))
  have tree : d.encode.reread = .object (("name", .string d.name) ::
      ("nodes", .array (d.tree.nodes.map fun node => node.encode.reread)) ::
      ("links", .array (d.tree.links.map fun link => link.encode.reread)) ::
      [("groups", .array (d.groups.map fun group => group.encode.reread))]) := by
    simp [encode, NodeTree.encodeMembers, reread, rereadMembers, rereadItems_eq_map]
  rw [tree, decode_record _ _ _ _ (d.tree.whole_nodes (by decide)) (d.tree.whole_links (by decide)),
    singles, trees, List.flatMap_cons, List.flatMap_map]
  simp only [List.mem_append, or_imp, forall_and, List.forall_mem_flatMap]
  rw [← groups, ← members]
  obtain ⟨name, tree, gs⟩ := d
  simp [Except.bind_eq_ok, pure, Except.pure, and_comm]

theorem legible (plain : ∀ tree ∈ d.trees, tree.Plain) (carried : ∀ tree ∈ d.trees, tree.Carried) :
    ∀ n ∈ d.encode.numbers, n.Legible := by
  intro n hn
  rw [encode, numbers_object] at hn
  obtain ⟨m, hm, hn⟩ := List.mem_flatMap.1 hn
  rcases List.mem_append.1 hm with hm | hm
  · rcases List.mem_cons.1 hm with rfl | hm
    · simp [numbers] at hn
    · exact NodeTree.legible (plain _ List.mem_cons_self) (carried _ List.mem_cons_self) m hm n hn
  · obtain rfl := List.mem_singleton.1 hm
    rw [numbers_array, List.flatMap_map] at hn
    obtain ⟨group, hg, hn⟩ := List.mem_flatMap.1 hn
    have called := List.mem_cons_of_mem d.tree (List.mem_map_of_mem (f := NodeGroup.tree) hg)
    exact NodeGroup.legible (plain _ called) (carried _ called) n hn

/-- What every document has that was read from a text. -/
theorem plain_of_ofText {text : String} (h : ofText text = .ok d) : ∀ tree ∈ d.trees, tree.Plain := by
  have finite := finite_read text
  obtain ⟨h, -⟩ := decodeText_eq_ok.1 h
  generalize (Json.read text).value = value at finite h
  obtain ⟨members, hm, h⟩ := Except.bind_eq_ok.1 h
  obtain ⟨fs, hfs, h⟩ := Except.bind_eq_ok.1 h
  obtain ⟨name, -, h⟩ := Except.bind_eq_ok.1 h
  obtain ⟨tree, ht, h⟩ := Except.bind_eq_ok.1 h
  cases h
  cases value <;> cases hm
  have parts : ∀ m ∈ members, m.2.Finite := fun m hm n hn =>
    finite n (numbers_subset_of_mem_members hm hn)
  refine List.forall_mem_cons.2 ⟨NodeTree.plain_of_decodeMembers parts ht, List.forall_mem_map.2 ?_⟩
  show ∀ group ∈ Option.getD (fs.findSome? _) [], _
  rcases hg : List.findSome? _ fs with _ | groups
  · simp
  · obtain ⟨a, ha, found⟩ := List.exists_of_findSome?_eq_some hg
    obtain ⟨d, hd, m, hm, hv⟩ := mem_fieldsAmong hfs ha
    simp only [fieldDecoders, List.mem_cons, List.not_mem_nil, or_false] at hd
    obtain rfl | rfl := hd <;> obtain ⟨part, hp, rfl⟩ := Except.map_eq_ok.1 hv <;> cases found
    intro group mem
    obtain ⟨v, inside, hv⟩ := mem_asList hp mem
    exact NodeGroup.plain_of_decode (fun n hn => parts m hm n (inside hn)) hv

/-- Documents survive their texts. Of a document that has what every document has that was read from
a text, and whose finite numbers come back from their texts, the text reads as the document exactly
where the defaults of its sockets are finite, in its own tree and in its groups. -/
theorem round_trip_iff_finite : ((∀ tree ∈ d.trees, tree.Carried) → (∀ tree ∈ d.trees, tree.Plain) →
      (ofText d.toText = .ok d ↔ ∀ x ∈ d.singles, x.isFinite)) ∧
    ∀ text, ofText text = .ok d → ∀ tree ∈ d.trees, tree.Plain := by
  refine ⟨fun carried plain => ?_, fun text => plain_of_ofText⟩
  rw [ofText, decodeText_eq_ok, toText, read_pretty _ (legible plain carried)]
  simpa using decode_reread plain carried

/-- A node with a number in the place of a default and one in a property. -/
def lamp (x : Single) : NodeDecl :=
  ⟨"Lamp", .value, [⟨"Strength", some (.scalar x), false⟩], [⟨"Value", none, true⟩],
    .ofList [("power", .number (.ofNat 2))], false⟩

/-- A document with a node in its own tree and one in a group. -/
def lamps (x : Single) : Document :=
  ⟨"Lamps", ⟨[lamp .one], [⟨"Lamp", "Value", "Lamp", .index 0, true⟩]⟩, [⟨"Inner", ⟨[lamp x], []⟩⟩]⟩

theorem lamps_plain (x : Single) : ∀ tree ∈ (lamps x).trees, tree.Plain := by
  have lamp : ∀ x, (lamp x).Plain := fun x => ⟨⟨"ShaderNodeValue", rfl⟩, fun y hy => by
    obtain rfl : y = .ofNat 2 := List.mem_singleton.1 hy
    decide +kernel⟩
  have placed : (SocketKey.index 0).Placed := show 0 < placeLimit by decide
  simpa [lamps, trees] using
    And.intro (NodeTree.Plain.mk (by simpa using lamp .one) (by simpa using placed))
      (NodeTree.Plain.mk (by simpa using lamp x) (by simp))

/-- One comes back, infinity does not. -/
theorem round_trip_lamps : ofText (lamps .one).toText = .ok (lamps .one) ∧
    ofText (lamps (.ofDatum (.infinite false))).toText ≠ .ok (lamps (.ofDatum (.infinite false))) ∧
    ∀ tree ∈ (lamps .one).trees, tree.Plain := by
  have carried : ∀ x ∈ [Single.one, .ofDatum (.infinite false)],
      ∀ tree ∈ (lamps x).trees, (∀ y ∈ tree.singles, y.isFinite → y.ReadsBack) ∧
        ∀ y ∈ tree.doubles, y.isFinite → y.ReadsBack := by decide +kernel
  have exact := (@round_trip_iff_finite (lamps .one)).1
    (fun tree h => ⟨(carried _ (by simp) tree h).1, (carried _ (by simp) tree h).2⟩) (lamps_plain _)
  have lost := (@round_trip_iff_finite (lamps (.ofDatum (.infinite false)))).1
    (fun tree h => ⟨(carried _ (by simp) tree h).1, (carried _ (by simp) tree h).2⟩) (lamps_plain _)
  have back := exact.2 (by decide +kernel)
  refine ⟨back, fun h => ?_, (@round_trip_iff_finite (lamps .one)).2 _ back⟩
  exact absurd (lost.1 h) (by decide +kernel)

end Document

end MaterialLowering
