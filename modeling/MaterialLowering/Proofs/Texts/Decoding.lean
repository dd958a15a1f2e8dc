import Mathlib.Data.List.Forall2
import MaterialLowering.Literal
import MaterialLowering.Proofs.Texts.JsonText

/-!
# Taking apart what was put together

What decoders make of trees that encoders built and a text has carried. Lists, entries and records
are decoded part by part, so that a whole comes back exactly where its parts do.

Results:
* `asList_map`, `asEntries_map`: a list comes back where its items do.
* `fieldsAmong_known`, `fieldsAmong_other`: the members of a record are decoded one after another.
* `Literal.ofJson_reread`: a literal comes back where its numbers are finite, and only there.
-/

namespace MaterialLowering

open Numeric (Single Double)

/-! ## Results and refusals -/

namespace Except

variable {ε α β : Type}

@[simp] theorem ok_bind (a : α) (f : α → Except ε β) : (Except.ok a >>= f) = f a := rfl

@[simp] theorem error_bind (e : ε) (f : α → Except ε β) :
    ((Except.error e : Except ε α) >>= f) = .error e := rfl

@[simp] theorem map_eq_ok {f : α → β} {r : Except ε α} {b : β} :
    f <$> r = .ok b ↔ ∃ a, r = .ok a ∧ f a = b := by
  cases r with
  | error e => simp [Functor.map, Except.map]
  | ok a => simp [Functor.map, Except.map]

@[simp] theorem mapError_eq_ok {ε' : Type} {f : ε → ε'} {r : Except ε α} {a : α} :
    r.mapError f = .ok a ↔ r = .ok a := by
  cases r <;> simp [Except.mapError]

theorem bind_eq_ok {r : Except ε α} {f : α → Except ε β} {b : β} :
    r >>= f = .ok b ↔ ∃ a, r = .ok a ∧ f a = .ok b := by
  cases r <;> simp

end Except

theorem mapM_eq_ok {ε α β : Type} {f : α → Except ε β} {l : List α} {l' : List β} :
    l.mapM f = .ok l' ↔ List.Forall₂ (fun a b => f a = .ok b) l l' := by
  induction l generalizing l' with
  | nil => cases l' <;> simp [pure, Except.pure]
  | cons a rest ih =>
    cases l' with
    | nil => simp [List.mapM_cons, Except.bind_eq_ok, pure, Except.pure]
    | cons b more =>
      rw [List.forall₂_cons, ← ih]
      simp [List.mapM_cons, Except.bind_eq_ok, pure, Except.pure]

theorem exists_of_mem_mapM {ε α β : Type} {f : α → Except ε β} {l : List α} {l' : List β}
    (h : l.mapM f = .ok l') {b : β} (hb : b ∈ l') : ∃ a ∈ l, f a = .ok b := by
  induction mapM_eq_ok.1 h with
  | nil => cases hb
  | cons first rest ih =>
    rcases List.mem_cons.1 hb with rfl | hb
    · exact ⟨_, List.mem_cons_self, first⟩
    · obtain ⟨a, ha, hf⟩ := ih (mapM_eq_ok.2 rest) hb
      exact ⟨a, List.mem_cons_of_mem _ ha, hf⟩

namespace Json

/-! ## Lists and records -/

section

variable {α β : Type} {decode : Json → Except Refusal α}

theorem asList_map {encode : α → Json} {l : List α} :
    asList decode (.array (l.map encode)) = .ok l ↔ ∀ a ∈ l, decode (encode a) = .ok a := by
  show (l.map encode).mapM decode = .ok l ↔ _
  rw [mapM_eq_ok, List.forall₂_map_left_iff, List.forall₂_same]

theorem asEntries_map (decode : Json → Except Refusal α) (encode : β → Json) (f : β → α)
    {l : List (String × β)} (named : ∀ e ∈ l, (encode e.2).checkNamed = .ok ()) :
    asEntries decode (.object (l.map fun e => (e.1, encode e.2))) =
        .ok (l.map fun e => (e.1, f e.2)) ↔
      ∀ e ∈ l, decode (encode e.2) = .ok (f e.2) := by
  have members : ∀ l : List (String × Json), asEntries decode (.object l) = l.mapM fun m => do
      m.2.checkNamed
      return (m.1, ← decode m.2) := fun _ => rfl
  rw [members, mapM_eq_ok, List.forall₂_map_left_iff, List.forall₂_map_right_iff, List.forall₂_same]
  refine forall₂_congr fun e he => ?_
  rw [named e he]
  simp [Except.bind_eq_ok, pure, Except.pure]

variable {known : Fields α} {other : Json → Except Refusal Unit} {name : String} {value : Json}
  {seen : List String}

theorem fieldsAmong_known (h : known.lookup name = some decode) (named : value.checkNamed = .ok ())
    (fresh : name ∉ seen) (rest : List (String × Json)) :
    fieldsAmong known other seen ((name, value) :: rest) = (do
      let first ← decode value
      let more ← fieldsAmong known other (name :: seen) rest
      return first :: more) := by
  rw [fieldsAmong, named, Except.ok_bind, h]
  simp [fresh]

theorem fieldsAmong_other (h : known.lookup name = none) (named : value.checkNamed = .ok ())
    (rest : List (String × Json)) :
    fieldsAmong known other seen ((name, value) :: rest) = (do
      other value
      fieldsAmong known other seen rest) := by
  rw [fieldsAmong, named, Except.ok_bind, h]

theorem decodeText_eq_ok {text : String} {a : α} :
    decodeText decode text = .ok a ↔ decode (read text).value = .ok a ∧ (read text).ended := by
  cases h : (read text).ended <;>
    simp [decodeText, h, Except.bind_eq_ok, pure, Except.pure, throw, throwThe, MonadExceptOf.throw]

theorem required_eq_ok {field : Option α} {a : α} : required field = .ok a ↔ field = some a := by
  cases field <;> simp [required]

end

/-! ## Trees that come from a text -/

@[simp] theorem checkNamed_string (text : String) : (string text).checkNamed = .ok () := rfl

@[simp] theorem checkNamed_bool (flag : Bool) : (bool flag).checkNamed = .ok () := rfl

theorem checkNamed_reread (t : Json) : t.reread.checkNamed = .ok () := by
  cases t with
  | number n =>
    rw [reread, Number.reread]
    split <;> rfl
  | _ => rfl

theorem reread_array (items : List Json) : (array items).reread = .array (items.map reread) := by
  rw [reread, rereadItems_eq_map]

theorem reread_object (members : List (String × Json)) :
    (object members).reread = .object (members.map fun m => (m.1, m.2.reread)) := by
  rw [reread, rereadMembers_eq_map]

theorem numbersOfItems_eq_flatMap (items : List Json) :
    numbersOfItems items = items.flatMap numbers := by
  induction items with
  | nil => rfl
  | cons item rest ih => rw [numbersOfItems, ih, List.flatMap_cons]

theorem numbersOfMembers_eq_flatMap (members : List (String × Json)) :
    numbersOfMembers members = members.flatMap fun m => m.2.numbers := by
  induction members with
  | nil => rfl
  | cons m rest ih => rw [numbersOfMembers, ih, List.flatMap_cons]

theorem numbers_array (items : List Json) : (array items).numbers = items.flatMap numbers := by
  rw [numbers, numbersOfItems_eq_flatMap]

theorem numbers_object (members : List (String × Json)) :
    (object members).numbers = members.flatMap fun m => m.2.numbers := by
  rw [numbers, numbersOfMembers_eq_flatMap]

theorem faultWithin_array {depth : Nat} {items : List Json} (shallow : depth < nestingLimit)
    (h : ∀ item ∈ items, item.faultWithin (depth + 1) = none) :
    (array items).faultWithin depth = none := by
  have inside : faultInItems (depth + 1) items = none := by
    induction items with
    | nil => rfl
    | cons item rest ih =>
      rw [faultInItems, h item List.mem_cons_self, Option.none_or]
      exact ih fun item hi => h item (List.mem_cons_of_mem _ hi)
  rw [faultWithin, if_neg (by omega), inside]

theorem faultWithin_object {depth : Nat} {members : List (String × Json)}
    (shallow : depth < nestingLimit) (h : ∀ m ∈ members, m.2.faultWithin (depth + 1) = none) :
    (object members).faultWithin depth = none := by
  have inside : faultInMembers (depth + 1) members = none := by
    induction members with
    | nil => rfl
    | cons m rest ih =>
      rw [faultInMembers, h m List.mem_cons_self, Option.none_or]
      exact ih fun m hm => h m (List.mem_cons_of_mem _ hm)
  rw [faultWithin, if_neg (by omega), inside]

/-- An array that was carried by a text has no fault where its items have none. -/
theorem faultWithin_reread_array {depth : Nat} {items : List Json} (shallow : depth < nestingLimit)
    (h : ∀ item ∈ items, item.reread.faultWithin (depth + 1) = none) :
    (array items).reread.faultWithin depth = none := by
  rw [reread_array]
  exact faultWithin_array shallow (List.forall_mem_map.2 h)

/-- An object that was carried by a text has no fault where its members have none. -/
theorem faultWithin_reread_object {depth : Nat} {members : List (String × Json)}
    (shallow : depth < nestingLimit)
    (h : ∀ m ∈ members, m.2.reread.faultWithin (depth + 1) = none) :
    (object members).reread.faultWithin depth = none := by
  rw [reread_object]
  exact faultWithin_object shallow (List.forall_mem_map.2 h)

theorem whole_eq_ok {depth : Nat} {value : Json} (h : value.faultWithin depth = none) :
    value.whole depth = .ok () := by
  rw [whole, h, checkFault]

@[simp] theorem faultWithin_string (depth : Nat) (text : String) :
    (string text).reread.faultWithin depth = none := rfl

@[simp] theorem faultWithin_bool (depth : Nat) (flag : Bool) :
    (bool flag).reread.faultWithin depth = none := rfl

theorem faultWithin_number (depth : Nat) (n : Json.Number) :
    (number n).reread.faultWithin depth = none := by
  rw [reread, Number.reread]
  split <;> rfl

/-! ## Where what was read comes from -/

section

variable {α : Type} {known : Fields α} {other : Json → Except Refusal Unit}
  {decode : Json → Except Refusal α} {value : Json} {l : List α} {a : α}

theorem mem_fieldsAmong {seen : List String} {members : List (String × Json)}
    (h : fieldsAmong known other seen members = .ok l) (ha : a ∈ l) :
    ∃ d ∈ known, ∃ m ∈ members, d.2 m.2 = .ok a := by
  induction members generalizing seen l with
  | nil =>
    cases h
    cases ha
  | cons m rest ih =>
    have later : (∃ d ∈ known, ∃ m ∈ rest, d.2 m.2 = .ok a) →
        ∃ d ∈ known, ∃ m' ∈ m :: rest, d.2 m'.2 = .ok a := fun ⟨d, hd, m', hm, hv⟩ =>
      ⟨d, hd, m', List.mem_cons_of_mem _ hm, hv⟩
    rw [fieldsAmong, Except.bind_eq_ok] at h
    obtain ⟨-, -, h⟩ := h
    cases hd : known.lookup m.1 with
    | none =>
      rw [hd] at h
      obtain ⟨-, -, h⟩ := Except.bind_eq_ok.1 h
      exact later (ih h ha)
    | some d =>
      rw [hd] at h
      by_cases again : m.1 ∈ seen
      · simp [again] at h
        cases h
      · simp only [again, if_false] at h
        obtain ⟨first, hf, h⟩ := Except.bind_eq_ok.1 h
        obtain ⟨more, hm, h⟩ := Except.bind_eq_ok.1 h
        cases h
        rcases List.mem_cons.1 ha with rfl | ha
        · obtain ⟨before, after, rfl, -⟩ := List.lookup_eq_some_iff.1 hd
          exact ⟨(m.1, d), by simp, m, List.mem_cons_self, hf⟩
        · exact later (ih hm ha)

theorem mem_fieldsInOrder {surplus : Refusal} {items : List Json}
    (h : fieldsInOrder surplus known items = .ok l) (ha : a ∈ l) :
    ∃ d ∈ known, ∃ item ∈ items, d.2 item = .ok a := by
  induction items generalizing known l with
  | nil =>
    cases known <;> cases h <;> cases ha
  | cons item rest ih =>
    cases known with
    | nil => cases h
    | cons d known =>
      obtain ⟨first, hf, h⟩ := Except.bind_eq_ok.1 h
      obtain ⟨more, hm, h⟩ := Except.bind_eq_ok.1 h
      cases h
      rcases List.mem_cons.1 ha with rfl | ha
      · exact ⟨d, List.mem_cons_self, item, List.mem_cons_self, hf⟩
      · obtain ⟨d, hd, v, hv, found⟩ := ih hm ha
        exact ⟨d, List.mem_cons_of_mem _ hd, v, List.mem_cons_of_mem _ hv, found⟩

theorem numbers_subset_of_mem_members {members : List (String × Json)} {m : String × Json}
    (h : m ∈ members) : m.2.numbers ⊆ (object members).numbers := by
  intro n hn
  rw [numbers_object]
  exact List.mem_flatMap.2 ⟨m, h, hn⟩

theorem numbers_subset_of_mem_items {items : List Json} {item : Json} (h : item ∈ items) :
    item.numbers ⊆ (array items).numbers := by
  intro n hn
  rw [numbers_array]
  exact List.mem_flatMap.2 ⟨item, h, hn⟩

/-- Every field that was read is what one of the decoders made of a part of the tree. -/
theorem mem_fields {surplus : Refusal} (h : fields known surplus value = .ok l) (ha : a ∈ l) :
    ∃ d ∈ known, ∃ v, v.numbers ⊆ value.numbers ∧ d.2 v = .ok a := by
  cases value with
  | object members =>
    obtain ⟨d, hd, m, hm, found⟩ := mem_fieldsAmong h ha
    exact ⟨d, hd, m.2, numbers_subset_of_mem_members hm, found⟩
  | array items =>
    obtain ⟨d, hd, item, hi, found⟩ := mem_fieldsInOrder h ha
    exact ⟨d, hd, item, numbers_subset_of_mem_items hi, found⟩
  | _ => cases h

/-- Every item that was read is what the decoder made of a part of the tree. -/
theorem mem_asList (h : asList decode value = .ok l) (ha : a ∈ l) :
    ∃ v, v.numbers ⊆ value.numbers ∧ decode v = .ok a := by
  obtain ⟨items, hi, h⟩ := Except.bind_eq_ok.1 h
  obtain ⟨item, mem, found⟩ := exists_of_mem_mapM h ha
  cases value <;> cases hi
  exact ⟨item, numbers_subset_of_mem_items mem, found⟩

/-- Every entry that was read is what the decoder made of a part of the tree. -/
theorem mem_asEntries {l : List (String × α)} {e : String × α} (h : asEntries decode value = .ok l)
    (he : e ∈ l) : ∃ v, v.numbers ⊆ value.numbers ∧ decode v = .ok e.2 := by
  obtain ⟨members, hm, h⟩ := Except.bind_eq_ok.1 h
  obtain ⟨m, mem, found⟩ := exists_of_mem_mapM h he
  obtain ⟨-, -, found⟩ := Except.bind_eq_ok.1 found
  obtain ⟨a, ha, found⟩ := Except.bind_eq_ok.1 found
  cases value <;> cases hm
  cases found
  exact ⟨m.2, numbers_subset_of_mem_members mem, ha⟩

end

end Json

/-! ## Numbers -/

/-- The text of the number is read back as the number. -/
def Numeric.Single.ReadsBack (x : Single) : Prop :=
  (Json.Number.read? (Json.Number.single x).text).map Json.Number.toSingle = some x

/-- The text of the number is read back as the number. -/
def Numeric.Double.ReadsBack (x : Double) : Prop :=
  (Json.Number.read? (Json.Number.double x).text).map Json.Number.toDouble = some x

instance : DecidablePred Single.ReadsBack := fun x =>
  inferInstanceAs (Decidable
    ((Json.Number.read? (Json.Number.single x).text).map Json.Number.toSingle = some x))

instance : DecidablePred Double.ReadsBack := fun x =>
  inferInstanceAs (Decidable
    ((Json.Number.read? (Json.Number.double x).text).map Json.Number.toDouble = some x))

namespace Json.Number

theorem reread_single {x : Single} (h : x.ReadsBack) :
    ∃ n, (Json.number (.single x)).reread = .number n ∧ n.toSingle = x := by
  obtain ⟨n, hn, hx⟩ := Option.map_eq_some_iff.1 h
  exact ⟨n, by rw [Json.reread, reread, hn], hx⟩

theorem reread_double {x : Double} (h : x.ReadsBack) :
    ∃ n, (Json.number (.double x)).reread = .number n ∧ n.toDouble = x := by
  obtain ⟨n, hn, hx⟩ := Option.map_eq_some_iff.1 h
  exact ⟨n, by rw [Json.reread, reread, hn], hx⟩

/-- A number that is not finite is written as `null`. -/
theorem text_single {x : Single} (h : x.isFinite = false) : (Json.Number.single x).text = "null" := by
  unfold Single.isFinite at h
  rw [text]
  cases datum : x.toDatum with
  | finite minus units =>
    rw [datum] at h
    cases h
  | infinite minus => rfl
  | nan => rfl

theorem reread_null {n : Json.Number} (h : n.text = "null") : (Json.number n).reread = .null := by
  have unread : read? "null" = none := by rfl
  rw [Json.reread, reread, h, unread]

theorem legible_single {x : Single} (h : x.isFinite → x.ReadsBack) :
    (Json.Number.single x).Legible := by
  cases finite : x.isFinite with
  | true =>
    obtain ⟨n, hn, -⟩ := Option.map_eq_some_iff.1 (h finite)
    exact .inr (Option.isSome_iff_exists.2 ⟨n, hn⟩)
  | false => exact .inl (text_single finite)

theorem legible_double {x : Double} (h : x.ReadsBack) : (Json.Number.double x).Legible := by
  obtain ⟨n, hn, -⟩ := Option.map_eq_some_iff.1 h
  exact .inr (Option.isSome_iff_exists.2 ⟨n, hn⟩)

theorem legible_natural {n : Nat} (h : n ≤ naturalLimit) : (Json.Number.natural n).Legible :=
  .inr (Option.isSome_iff_exists.2 ⟨_, read?_natural h⟩)

theorem reread_natural {n : Nat} (h : n ≤ naturalLimit) :
    (Json.number (.natural n)).reread = .number (.natural n) := by
  have read : read? (Json.Number.natural n).text = some (.natural n) := read?_natural h
  rw [Json.reread, reread, read]

end Json.Number

/-! ## Literals -/

namespace Literal

/-- The numbers of a literal. -/
def singles : Literal → List Single
  | .scalar v => [v]
  | .vector items => items

variable {l : Literal}

theorem encode_vector (items : List Single) :
    (vector items).encode.reread =
      .array (items.map fun x => (Json.number (.single x)).reread) := by
  rw [encode, Json.reread_array, List.map_map]
  rfl

theorem legible (h : ∀ x ∈ l.singles, x.isFinite → x.ReadsBack) :
    ∀ n ∈ l.encode.numbers, n.Legible := by
  cases l with
  | scalar v => simpa [encode, Json.numbers] using Json.Number.legible_single (h v (by simp [singles]))
  | vector items =>
    rw [encode, Json.numbers_array]
    intro n hn
    obtain ⟨item, hi, hn⟩ := List.mem_flatMap.1 hn
    obtain ⟨x, hx, rfl⟩ := List.mem_map.1 hi
    obtain rfl : n = .single x := by simpa [Json.numbers] using hn
    exact Json.Number.legible_single (h x hx)

theorem faultWithin_reread (l : Literal) {depth : Nat} (shallow : depth < Json.nestingLimit) :
    l.encode.reread.faultWithin depth = none := by
  cases l with
  | scalar v => exact Json.faultWithin_number depth _
  | vector items =>
    exact Json.faultWithin_reread_array shallow
      (List.forall_mem_map.2 fun x _ => Json.faultWithin_number _ _)

/-- A number of a vector comes back where it is finite. -/
theorem asSingle_reread {x : Single} (h : x.isFinite → x.ReadsBack) :
    (Json.number (.single x)).reread.asSingle = .ok x ↔ x.isFinite := by
  cases finite : x.isFinite with
  | true =>
    obtain ⟨n, hn, hx⟩ := Json.Number.reread_single (h finite)
    simp [hn, Json.asSingle, hx]
  | false =>
    rw [Json.Number.reread_null (Json.Number.text_single finite)]
    simp [Json.asSingle]

/-- A literal comes back where its numbers are finite, and only there. -/
theorem ofJson_reread (h : ∀ x ∈ l.singles, x.isFinite → x.ReadsBack) :
    ofJson l.encode.reread = .ok l ↔ ∀ x ∈ l.singles, x.isFinite := by
  cases l with
  | scalar v =>
    cases finite : v.isFinite with
    | true =>
      obtain ⟨n, hn, hx⟩ := Json.Number.reread_single (h v List.mem_cons_self finite)
      simp [encode, hn, ofJson, hx, singles, finite]
    | false =>
      rw [encode, Json.Number.reread_null (Json.Number.text_single finite)]
      simp [ofJson, singles, finite]
  | vector items =>
    have items_iff : (items.map fun x => (Json.number (.single x)).reread).mapM Json.asSingle =
        .ok items ↔ ∀ x ∈ items, x.isFinite := by
      rw [mapM_eq_ok, List.forall₂_map_left_iff, List.forall₂_same]
      exact forall₂_congr fun x hx => asSingle_reread (h x hx)
    rw [encode_vector, ofJson, Except.map_eq_ok]
    simpa [singles] using items_iff

/-- A literal that is not written as `null` is not taken for nothing. -/
theorem asOption_eq_some {value : Json} :
    value.asOption ofJson = .ok (some l) ↔ ofJson value = .ok l := by
  cases value <;> simp [Json.asOption, ofJson]

end Literal

end MaterialLowering
