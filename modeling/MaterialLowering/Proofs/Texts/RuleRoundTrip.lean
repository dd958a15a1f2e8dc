import MaterialLowering.Proofs.Texts.Decoding
import MaterialLowering.Rules.Json

/-!
# Rule tables survive their texts

A table is written as a text and read again. Sources and types are told apart by their texts alone:
a source by how it begins, a type by its name. The names of operations and of native kinds share
one name, `blend`, and it is read as the operation. Everything else comes back.

Results:
* `ValueSource.ofText?_shown`: a source that is no literal is known by its text.
* `RuleType.ofName_name`: the name of a type names it, or the operation of the same name.
* `RuleTable.ofText_toText`: what the text of a table reads as.
* `RuleTable.accepted_of_ofText`: what every table has that was read from a text.
* `RuleTable.round_trip_iff_withoutBlend`: exactly the tables without the native kind `blend` come
  back, in particular all tables that were read from a text.
-/

namespace MaterialLowering

open Numeric (Single)
open Json

/-! ## Sources -/

theorem behind?_append (start text : String) : behind? start (start ++ text) = some text := by
  simp [behind?]

/-- A text that begins with another letter has nothing behind the beginning. -/
theorem behind?_eq_none {start text : String} {c d : Char} (first : start.toList.head? = some c)
    (other : text.toList.head? = some d) (h : c ≠ d) : behind? start text = none := by
  obtain ⟨rest, hs⟩ := List.head?_eq_some_iff.1 first
  obtain ⟨more, ht⟩ := List.head?_eq_some_iff.1 other
  simp [behind?, hs, ht, List.isPrefixOf?, h]

namespace ValueSource

/-- The numbers of a source. -/
def singles : ValueSource → List Single
  | .literal l => l.singles
  | _ => []

/-- A source that is no literal is known by its text: no two of the beginnings share a letter. -/
theorem ofText?_shown {source : ValueSource} (h : ∀ l, source ≠ .literal l) :
    ofText? source.shown = some source := by
  have input : inputStart.toList.head? = some 'i' := by decide
  have link : linkStart.toList.head? = some 'l' := by decide
  have default : defaultStart.toList.head? = some 'd' := by decide
  cases source with
  | literal l => exact absurd rfl (h l)
  | input socket => simp [ofText?, shown, behind?_append]
  | link socket =>
    have first : (linkStart ++ socket).toList.head? = some 'l' := by simp [linkStart]
    simp [ofText?, shown, behind?_append, behind?_eq_none input first (by decide)]
  | default socket =>
    have first : (defaultStart ++ socket).toList.head? = some 'd' := by simp [defaultStart]
    simp [ofText?, shown, behind?_append, behind?_eq_none input first (by decide),
      behind?_eq_none link first (by decide)]
  | node subNode =>
    have first : (nodeStart ++ subNode).toList.head? = some 'n' := by simp [nodeStart]
    simp [ofText?, shown, behind?_append, behind?_eq_none input first (by decide),
      behind?_eq_none link first (by decide), behind?_eq_none default first (by decide)]

theorem encode_eq_string {source : ValueSource} (h : ∀ l, source ≠ .literal l) :
    source.encode = .string source.shown := by
  cases source with
  | literal l => exact absurd rfl (h l)
  | _ => rfl

theorem decode_string {depth : Nat} {text : String} {source : ValueSource}
    (h : ofText? text = some source) : decode depth (.string text) = .ok source := by
  have whole : (Json.string text).whole depth = .ok () := rfl
  simp only [decode, whole, h]
  rfl

/-- What is no text is read as a literal. -/
theorem decode_literal {depth : Nat} {value : Json} {l : Literal}
    (sound : value.faultWithin depth = none) (h : Literal.ofJson value = .ok l) :
    decode depth value = .ok (.literal l) := by
  have whole : value.whole depth = .ok () := by rw [Json.whole, sound]; rfl
  cases value with
  | string text => cases h
  | _ => simp [decode, whole, h, pure, Except.pure]

/-- A source comes back with the numbers of its literal. -/
theorem decode_reread {source : ValueSource} {depth : Nat} (shallow : depth < nestingLimit)
    (layer : ∀ x ∈ source.singles, x.isFinite → x.ReadsBack)
    (finite : ∀ x ∈ source.singles, x.isFinite) :
    decode depth source.encode.reread = .ok source := by
  by_cases literal : ∃ l, source = .literal l
  · obtain ⟨l, rfl⟩ := literal
    exact decode_literal (l.faultWithin_reread shallow) ((Literal.ofJson_reread layer).2 finite)
  · have other : ∀ l, source ≠ .literal l := fun l hl => literal ⟨l, hl⟩
    rw [encode_eq_string other, reread]
    exact decode_string (ofText?_shown other)

theorem legible {source : ValueSource} (layer : ∀ x ∈ source.singles, x.isFinite → x.ReadsBack) :
    ∀ n ∈ source.encode.numbers, n.Legible := by
  cases source with
  | literal l => exact Literal.legible layer
  | _ => simp [encode, numbers]

end ValueSource

/-! ## Types -/

namespace RuleType

/-- The type that the name of a type means. -/
def folded : RuleType → RuleType
  | .native .blend => .fold .blend
  | type => type

theorem ofName_name (type : RuleType) : ofName type.name = .ok type.folded := by
  cases type with
  | fold op => cases op <;> rfl
  | native kind =>
    cases kind with
    | arithmetic op => cases op <;> rfl
    | inputLookup quantity => cases quantity <;> rfl
    | _ => rfl

theorem name_folded (type : RuleType) : type.folded.name = type.name := by
  cases type with
  | fold op => rfl
  | native kind => cases kind <;> rfl

theorem folded_eq_iff {type : RuleType} : type.folded = type ↔ type ≠ .native .blend := by
  cases type with
  | fold op => simp [folded]
  | native kind => cases kind <;> simp [folded]

/-- No name means the native kind `blend`. -/
theorem ofName_ne_blend {name : String} : ofName name ≠ .ok (.native .blend) := by
  intro h
  unfold ofName at h
  cases hop : FoldOp.all.find? fun op => op.symbol = name with
  | some op => simp [hop] at h
  | none =>
    have kind : NativeKind.ofName name = .ok .blend := by simpa [hop] using h
    unfold NativeKind.ofName at kind
    split at kind
    · split at kind <;> cases kind
    · split at kind
      · rename_i found
        cases kind
        obtain rfl : NativeKind.blend.name = name := by simpa using List.find?_some found
        cases hop
      · cases kind

end RuleType

/-! ## Sub-nodes -/

namespace SubNodeRule

def singles (rule : SubNodeRule) : List Single := rule.params.flatMap fun p => p.2.singles

/-- The sub-node with what the name of its type means. -/
def folded (rule : SubNodeRule) : SubNodeRule := { rule with type := rule.type.folded }

theorem folded_eq_iff {rule : SubNodeRule} : rule.folded = rule ↔ rule.type ≠ .native .blend := by
  rw [← RuleType.folded_eq_iff]
  exact ⟨congrArg SubNodeRule.type, fun h => by rw [folded, h]⟩

theorem encode_folded (rule : SubNodeRule) : rule.folded.encode = rule.encode := by
  simp [encode, folded, RuleType.encode, RuleType.name_folded]

theorem putInPlace_of_not_mem {α : Type} {name : String} {value : α} {l : List (String × α)}
    (h : name ∉ l.map Prod.fst) : putInPlace name value l = l ++ [(name, value)] := by
  induction l with
  | nil => rfl
  | cons head rest ih =>
    have other : head.1 ≠ name ∧ name ∉ rest.map Prod.fst := by simpa [eq_comm] using h
    simp [putInPlace, other.1, ih other.2]

theorem foldl_putInPlace {α : Type} (l placed : List (String × α))
    (h : ((placed ++ l).map Prod.fst).Nodup) :
    l.foldl (fun l e => putInPlace e.1 e.2 l) placed = placed ++ l := by
  induction l generalizing placed with
  | nil => simp
  | cons e rest ih =>
    have fresh : e.1 ∉ placed.map Prod.fst := by
      rw [List.map_append, List.nodup_append] at h
      exact fun he => h.2.2 _ he _ (by simp) rfl
    rw [List.foldl_cons, putInPlace_of_not_mem fresh, ih _ (by simpa using h), List.append_assoc,
      List.singleton_append]

theorem mem_names_putInPlace {α : Type} {name other : String} {value : α} {l : List (String × α)} :
    other ∈ (putInPlace name value l).map Prod.fst ↔ other = name ∨ other ∈ l.map Prod.fst := by
  induction l with
  | nil => simp [putInPlace]
  | cons head rest ih => grind [putInPlace]

theorem nodup_putInPlace {α : Type} {name : String} {value : α} {l : List (String × α)}
    (h : (l.map Prod.fst).Nodup) : ((putInPlace name value l).map Prod.fst).Nodup := by
  induction l with
  | nil => simp [putInPlace]
  | cons head rest ih =>
    have apart : head.1 ∉ rest.map Prod.fst ∧ (rest.map Prod.fst).Nodup := List.nodup_cons.1 h
    unfold putInPlace
    split
    · exact h
    · rename_i other
      refine List.nodup_cons.2 ⟨?_, ih apart.2⟩
      rw [mem_names_putInPlace]
      exact not_or.2 ⟨other, apart.1⟩

/-- The parameters come back in their order. -/
theorem decodeParams_reread {params : List (String × ValueSource)}
    (distinct : (params.map Prod.fst).Nodup)
    (layer : ∀ p ∈ params, ∀ x ∈ p.2.singles, x.isFinite → x.ReadsBack)
    (finite : ∀ p ∈ params, ∀ x ∈ p.2.singles, x.isFinite) :
    decodeParams (object (params.map fun p => (p.1, p.2.encode.reread))) = .ok params := by
  have entries := (asEntries_map (ValueSource.decode paramDepth)
    (fun source : ValueSource => source.encode.reread) id fun p _ => checkNamed_reread _).2 fun p hp =>
      ValueSource.decode_reread (by decide) (layer p hp) (finite p hp)
  rw [decodeParams, entries]
  simpa [pure, Except.pure] using foldl_putInPlace params [] distinct

/-- The fields of a sub-node are read one by one. -/
theorem decode_record (name : String) (value : Json) (warn : Option String)
    (named : value.checkNamed = .ok ()) :
    decode (object ([("type", .string name), ("params", value)] ++
        (warn.map fun message => ("warn", Json.string message)).toList)) = (do
      let type ← RuleType.decode (.string name)
      let params ← decodeParams value
      return { type, params, warn }) := by
  have type : fieldDecoders.lookup "type" = some fun v => .type <$> RuleType.decode v := rfl
  have params : fieldDecoders.lookup "params" = some fun v => .params <$> decodeParams v := rfl
  have message : fieldDecoders.lookup "warn" = some fun v => .warn <$> v.asOption asString := rfl
  cases ht : RuleType.decode (.string name) with
  | error refusal => simp [decode, fields, fieldsAmong, type, ht]
  | ok decodedType =>
    cases hp : decodeParams value with
    | error refusal => simp [decode, fields, fieldsAmong, type, params, named, ht, hp]
    | ok decodedParams =>
      cases warn <;>
        simp [decode, fields, fieldsAmong, type, params, message, named, ht, hp, required,
          asOption, asString, pure, Except.pure]

/-- A sub-node comes back, with what the name of its type means. -/
theorem decode_reread {rule : SubNodeRule} (distinct : (rule.params.map Prod.fst).Nodup)
    (layer : ∀ x ∈ rule.singles, x.isFinite → x.ReadsBack)
    (finite : ∀ x ∈ rule.singles, x.isFinite) : decode rule.encode.reread = .ok rule.folded := by
  have params := decodeParams_reread distinct
    (fun p hp x hx => layer x (List.mem_flatMap.2 ⟨p, hp, hx⟩))
    (fun p hp x hx => finite x (List.mem_flatMap.2 ⟨p, hp, hx⟩))
  have type : RuleType.decode (.string rule.type.name) = .ok rule.type.folded := by
    simp [RuleType.decode, asString, RuleType.ofName_name, pure, Except.pure]
  have tree : rule.encode.reread = object ([("type", .string rule.type.name),
      ("params", object (rule.params.map fun p => (p.1, p.2.encode.reread)))] ++
        (rule.warn.map fun message => ("warn", Json.string message)).toList) := by
    cases hw : rule.warn <;>
      simp [encode, RuleType.encode, reread, rereadMembers_eq_map, hw]
  rw [tree, decode_record _ _ _ rfl, type, params]
  rfl

theorem legible {rule : SubNodeRule} (layer : ∀ x ∈ rule.singles, x.isFinite → x.ReadsBack) :
    ∀ n ∈ rule.encode.numbers, n.Legible := by
  intro n hn
  have inside : n ∈ rule.params.flatMap fun p => p.2.encode.numbers := by
    cases hw : rule.warn <;>
      simpa [encode, RuleType.encode, numbers_object, numbersOfMembers_eq_flatMap, numbers, hw,
        List.flatMap_map] using hn
  obtain ⟨p, hp, hn⟩ := List.mem_flatMap.1 inside
  exact ValueSource.legible (fun x hx => layer x (List.mem_flatMap.2 ⟨p, hp, hx⟩)) n hn

theorem nodup_foldl_putInPlace {α : Type} {l placed : List (String × α)}
    (h : (placed.map Prod.fst).Nodup) :
    ((l.foldl (fun l e => putInPlace e.1 e.2 l) placed).map Prod.fst).Nodup := by
  induction l generalizing placed with
  | nil => exact h
  | cons e rest ih => exact ih (nodup_putInPlace h)

theorem nodup_of_decodeParams {value : Json} {params : List (String × ValueSource)}
    (h : decodeParams value = .ok params) : (params.map Prod.fst).Nodup := by
  obtain ⟨entries, -, h⟩ := Except.bind_eq_ok.1 h
  cases h
  exact nodup_foldl_putInPlace List.nodup_nil

theorem ne_blend_of_decodeType {value : Json} {type : RuleType} (h : RuleType.decode value = .ok type) :
    type ≠ .native .blend := by
  rintro rfl
  obtain ⟨name, -, h⟩ := Except.bind_eq_ok.1 h
  cases hn : RuleType.ofName name with
  | error unknown => simp [hn, throw, throwThe, MonadExceptOf.throw] at h
  | ok type =>
    have named : type = .native .blend := by simpa [hn, pure, Except.pure] using h
    exact RuleType.ofName_ne_blend (hn.trans (congrArg _ named))

/-- What a sub-node has that was read: each parameter once, and a type that a name means. -/
def Sound (rule : SubNodeRule) : Prop :=
  (rule.params.map Prod.fst).Nodup ∧ rule.type ≠ .native .blend

/-- What a field has that was read. -/
def Field.Sound : Field → Prop
  | .type meant => meant ≠ .native .blend
  | .params placed => (placed.map Prod.fst).Nodup
  | .warn _ => True

theorem sound_of_fields {value : Json} {surplus : Refusal} {fs : List Field}
    (h : fields fieldDecoders surplus value = .ok fs) : ∀ a ∈ fs, a.Sound := by
  intro a ha
  obtain ⟨d, hd, v, -, hv⟩ := mem_fields h ha
  simp only [fieldDecoders, List.mem_cons, List.not_mem_nil, or_false] at hd
  obtain rfl | rfl | rfl := hd
  · obtain ⟨type, ht, rfl⟩ := Except.map_eq_ok.1 hv
    exact ne_blend_of_decodeType ht
  · obtain ⟨params, hp, rfl⟩ := Except.map_eq_ok.1 hv
    exact nodup_of_decodeParams hp
  · obtain ⟨warn, -, rfl⟩ := Except.map_eq_ok.1 hv
    trivial

theorem sound_of_decode {value : Json} {rule : SubNodeRule} (h : decode value = .ok rule) :
    rule.Sound := by
  obtain ⟨fs, hfs, h⟩ := Except.bind_eq_ok.1 h
  obtain ⟨type, ht, h⟩ := Except.bind_eq_ok.1 h
  cases h
  have sound := sound_of_fields hfs
  constructor
  · show ((Option.getD (fs.findSome? _) []).map Prod.fst).Nodup
    rcases hp : List.findSome? _ fs with _ | params
    · exact List.nodup_nil
    · obtain ⟨a, ha, found⟩ := List.exists_of_findSome?_eq_some hp
      cases a <;> cases found
      exact sound _ ha
  · obtain ⟨a, ha, found⟩ := List.exists_of_findSome?_eq_some (required_eq_ok.1 ht)
    cases a <;> cases found
    exact sound _ ha

end SubNodeRule

/-! ## Entries -/

namespace NodeRules

def singles (rules : NodeRules) : List Single := rules.entries.flatMap fun s => s.2.singles

/-- The entry with what the names of its types mean. -/
def folded (rules : NodeRules) : NodeRules := rules.map SubNodeRule.folded

/-- An entry comes back, with what the names of its types mean. -/
theorem decode_reread {rules : NodeRules}
    (distinct : ∀ s ∈ rules.entries, (s.2.params.map Prod.fst).Nodup)
    (layer : ∀ x ∈ rules.singles, x.isFinite → x.ReadsBack)
    (finite : ∀ x ∈ rules.singles, x.isFinite) :
    decode (encode rules).reread = .ok rules.folded := by
  have entries := (asEntries_map SubNodeRule.decode (fun rule : SubNodeRule => rule.encode.reread)
    SubNodeRule.folded (l := rules.entries) fun s _ => checkNamed_reread _).2 fun s hs =>
      SubNodeRule.decode_reread (distinct s hs)
        (fun x hx => layer x (List.mem_flatMap.2 ⟨s, hs, hx⟩))
        (fun x hx => finite x (List.mem_flatMap.2 ⟨s, hs, hx⟩))
  have tree : (encode rules).reread =
      object (rules.entries.map fun s => (s.1, s.2.encode.reread)) := by
    simp [encode, reread, rereadMembers_eq_map]
  rw [tree, decode, entries]
  exact congrArg Except.ok (SortedMap.ofList_entries rules.folded)

theorem legible {rules : NodeRules} (layer : ∀ x ∈ rules.singles, x.isFinite → x.ReadsBack) :
    ∀ n ∈ (encode rules).numbers, n.Legible := by
  intro n hn
  rw [encode, numbers_object, List.flatMap_map] at hn
  obtain ⟨s, hs, hn⟩ := List.mem_flatMap.1 hn
  exact SubNodeRule.legible (fun x hx => layer x (List.mem_flatMap.2 ⟨s, hs, hx⟩)) n hn

theorem encode_folded (rules : NodeRules) : encode rules.folded = encode rules := by
  simp [encode, folded, SortedMap.map, SubNodeRule.encode_folded]

theorem sound_of_decode {value : Json} {rules : NodeRules} (h : decode value = .ok rules) :
    ∀ s ∈ rules.entries, s.2.Sound := by
  obtain ⟨entries, he, rfl⟩ := Except.map_eq_ok.1 h
  intro s hs
  obtain ⟨v, -, hv⟩ := mem_asEntries he (SortedMap.mem_of_mem_ofList hs)
  exact SubNodeRule.sound_of_decode hv

/-! The check looks at names and references alone. -/

variable (rules : NodeRules)

theorem references_folded : rules.folded.references = rules.references := by
  funext name
  rw [references, folded, SortedMap.get?_map, Option.map_map]
  rfl

theorem danglingReference?_folded : rules.folded.danglingReference? = rules.danglingReference? := by
  have contains : ∀ name, rules.folded.contains name = rules.contains name := fun name => by
    rw [SortedMap.contains, folded, SortedMap.get?_map, Option.isSome_map, SortedMap.contains]
  unfold danglingReference?
  simp only [contains]
  rw [folded, SortedMap.map, List.findSome?_map]
  rfl

theorem search_folded : ∀ (fuel : Nat) (path done : List String) (name : String),
    search rules.folded fuel path done name = search rules fuel path done name
  | 0, _, _, _ => rfl
  | fuel + 1, path, done, name => by
    have deeper : search rules.folded fuel (name :: path) = search rules fuel (name :: path) :=
      funext fun done => funext (search_folded fuel _ done)
    rw [search, search, references_folded, deeper]

theorem check_folded (kind : HostKind) : rules.folded.check kind = rules.check kind := by
  have size : rules.folded.size = rules.size := List.length_map _
  have keys : rules.folded.keys = rules.keys := List.map_map
  have all : rules.folded.searchAll = rules.searchAll := by
    have same : search rules.folded (rules.size + 1) [] = search rules (rules.size + 1) [] :=
      funext fun done => funext (search_folded rules _ [] done)
    rw [searchAll, searchAll, size, keys, same]
  rw [check, check, danglingReference?_folded, all]

end NodeRules

/-! ## Tables -/

namespace RuleTable

def singles (table : RuleTable) : List Single := table.entries.flatMap fun e => NodeRules.singles e.2

/-- The table with what the names of its types mean. -/
def folded (table : RuleTable) : RuleTable := table.map NodeRules.folded

/-- No sub-node has a parameter twice. -/
def Distinct (table : RuleTable) : Prop :=
  ∀ e ∈ table.entries, ∀ s ∈ e.2.entries, (s.2.params.map Prod.fst).Nodup

/-- No sub-node has the type whose name is taken. -/
def WithoutBlend (table : RuleTable) : Prop :=
  ∀ e ∈ table.entries, ∀ s ∈ e.2.entries, s.2.type ≠ .native .blend

instance : DecidablePred Distinct := fun table =>
  inferInstanceAs (Decidable
    (∀ e ∈ table.entries, ∀ s ∈ e.2.entries, (s.2.params.map Prod.fst).Nodup))

instance : DecidablePred WithoutBlend := fun table =>
  inferInstanceAs (Decidable (∀ e ∈ table.entries, ∀ s ∈ e.2.entries, s.2.type ≠ .native .blend))

variable {table : RuleTable}

theorem folded_eq_iff : table.folded = table ↔ table.WithoutBlend := by
  have entry : ∀ rules : NodeRules,
      rules.folded = rules ↔ ∀ s ∈ rules.entries, s.2.type ≠ .native .blend := fun rules => by
    rw [NodeRules.folded, SortedMap.map_eq_iff]
    exact forall₂_congr fun s _ => SubNodeRule.folded_eq_iff
  rw [folded, SortedMap.map_eq_iff]
  exact forall₂_congr fun e _ => entry e.2

theorem encode_folded : encode table.folded = encode table := by
  simp [encode, folded, SortedMap.map, NodeRules.encode_folded]

theorem check_folded : table.folded.check = table.check := by
  simp only [check, folded, SortedMap.map]
  induction table.entries with
  | nil => rfl
  | cons e rest ih =>
    simp only [List.map_cons, List.forM_eq_forM, List.forM_cons, NodeRules.check_folded] at ih ⊢
    rw [ih]

/-- What the tree of a table is decoded to. -/
theorem decode_reread (named : ∀ e ∈ table.entries, ∃ id, e.1 = .ofId id) (distinct : table.Distinct)
    (layer : ∀ x ∈ table.singles, x.isFinite → x.ReadsBack)
    (finite : ∀ x ∈ table.singles, x.isFinite) :
    decode (encode table).reread = .ok table.folded := by
  have entries := (asEntries_map NodeRules.decode
    (fun rules : NodeRules => (NodeRules.encode rules).reread) NodeRules.folded
    (l := table.entries.map fun e => (e.1.id, e.2)) fun e _ => checkNamed_reread _).2 <| by
      intro e he
      obtain ⟨e, mem, rfl⟩ := List.mem_map.1 he
      exact NodeRules.decode_reread (distinct e mem)
        (fun x hx => layer x (List.mem_flatMap.2 ⟨e, mem, hx⟩))
        (fun x hx => finite x (List.mem_flatMap.2 ⟨e, mem, hx⟩))
  have tree : (encode table).reread = object ((table.entries.map fun e => (e.1.id, e.2)).map
      fun e => (e.1, (NodeRules.encode e.2).reread)) := by
    simp [encode, reread, rereadMembers_eq_map]
  have kinds : (table.entries.map fun e => (HostKind.ofId e.1.id, e.2.folded)) =
      table.folded.entries := List.map_congr_left fun e he => by
    obtain ⟨id, hid⟩ := named e he
    rw [hid, HostKind.id_ofId]
  rw [tree, decode, entries, Except.ok_bind]
  simpa [pure, Except.pure, Function.comp_def, kinds] using SortedMap.ofList_entries table.folded

theorem legible (layer : ∀ x ∈ table.singles, x.isFinite → x.ReadsBack) :
    ∀ n ∈ (encode table).numbers, n.Legible := by
  intro n hn
  rw [encode, numbers_object, List.flatMap_map] at hn
  obtain ⟨e, he, hn⟩ := List.mem_flatMap.1 hn
  exact NodeRules.legible (fun x hx => layer x (List.mem_flatMap.2 ⟨e, he, hx⟩)) n hn

/-- What the text of an accepted table reads as. -/
theorem ofText_toText (named : ∀ e ∈ table.entries, ∃ id, e.1 = .ofId id) (distinct : table.Distinct)
    (layer : ∀ x ∈ table.singles, x.isFinite → x.ReadsBack)
    (finite : ∀ x ∈ table.singles, x.isFinite) (accepted : table.check = .ok ()) :
    ofText table.toText = .ok table.folded := by
  rw [ofText, toText, decodeText, read_pretty _ (legible layer)]
  simp [decode_reread named distinct layer finite, Except.mapError, check_folded, accepted, pure,
    Except.pure]

/-- What every table has that was read from a text. -/
theorem accepted_of_ofText {text : String} (h : ofText text = .ok table) :
    (∀ e ∈ table.entries, ∃ id, e.1 = .ofId id) ∧ table.Distinct ∧ table.WithoutBlend ∧
      table.check = .ok () := by
  obtain ⟨found, hf, h⟩ := Except.bind_eq_ok.1 h
  obtain ⟨⟨⟩, accepted, h⟩ := Except.bind_eq_ok.1 h
  cases h
  obtain ⟨hd, -⟩ := decodeText_eq_ok.1 (Except.mapError_eq_ok.1 hf)
  obtain ⟨entries, he, h⟩ := Except.bind_eq_ok.1 hd
  cases h
  have source : ∀ e ∈ (SortedMap.ofList (entries.map fun e => (HostKind.ofId e.1, e.2))).entries,
      (∃ id, e.1 = .ofId id) ∧ ∀ s ∈ e.2.entries, s.2.Sound := by
    intro e inside
    obtain ⟨e, mem, rfl⟩ := List.mem_map.1 (SortedMap.mem_of_mem_ofList inside)
    obtain ⟨v, -, hv⟩ := mem_asEntries he mem
    exact ⟨⟨_, rfl⟩, NodeRules.sound_of_decode hv⟩
  exact ⟨fun e he => (source e he).1, fun e he s hs => ((source e he).2 s hs).1,
    fun e he s hs => ((source e he).2 s hs).2, accepted⟩

/-- Tables survive their texts. Of a table of named kinds that is accepted, the text reads as the
table with what the names of its types mean, and that table has the same text; it is the table
itself unless a sub-node has the native kind `blend`. A table that was read from a text always
comes back. Only the numbers of the table are taken for finite, and for numbers whose texts are read
back. -/
theorem round_trip_iff_withoutBlend {table : RuleTable}
    (layer : ∀ x ∈ table.singles, x.isFinite → x.ReadsBack)
    (finite : ∀ x ∈ table.singles, x.isFinite) :
    ((∀ e ∈ table.entries, ∃ id, e.1 = .ofId id) → table.Distinct → table.check = .ok () →
      ofText table.toText = .ok table.folded ∧ table.folded.toText = table.toText ∧
        (ofText table.toText = .ok table ↔ table.WithoutBlend)) ∧
    (∀ text, ofText text = .ok table → ofText table.toText = .ok table) := by
  constructor
  · intro named distinct accepted
    have back := ofText_toText named distinct layer finite accepted
    refine ⟨back, by rw [toText, encode_folded, toText], ?_⟩
    rw [back, Except.ok.injEq, folded_eq_iff]
  · intro text h
    obtain ⟨named, distinct, without, accepted⟩ := accepted_of_ofText h
    rw [ofText_toText named distinct layer finite accepted, folded_eq_iff.2 without]

/-- A mix as the native kind `blend`, with a number of its own. -/
def mixing : RuleTable := .ofList
  [(.mixRgb, .ofList [("Color", ⟨.native .blend,
    [("color1", .input "Color1"), ("color2", .link "Color2"), ("amount", .literal (.scalar .one))],
    some "mixed"⟩)])]

/-- The mix is read as the operation, and the table with the operation comes back. -/
theorem round_trip_mixing : ofText mixing.toText = .ok mixing.folded ∧
    ofText mixing.toText ≠ .ok mixing ∧ ofText mixing.folded.toText = .ok mixing.folded := by
  have back := (@round_trip_iff_withoutBlend mixing (by decide +kernel) (by decide +kernel)).1
    (fun e he => ⟨"ShaderNodeMixRGB", by
      obtain rfl : e = _ := List.mem_singleton.1 he
      rfl⟩) (by decide +kernel) (by decide +kernel)
  have taken : ¬ mixing.WithoutBlend := by decide +kernel
  exact ⟨back.1, fun h => taken (back.2.2.1 h),
    (@round_trip_iff_withoutBlend mixing.folded (by decide +kernel) (by decide +kernel)).2 _ back.1⟩

end RuleTable

end MaterialLowering
