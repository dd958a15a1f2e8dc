import Mathlib.Data.List.DropRight
import Mathlib.Data.String.Basic
import MaterialLowering.Json.Reader
import MaterialLowering.Json.Writer

/-!
# Texts that are read back

The reader takes the text of a tree to the tree again. Strings come back as they are, whatever is in
them, and so do integers of 64 bits. A number in floating point comes back as what its own text
reads as, and one that is not finite has no text of its own: it is written as `null`. So the tree
that comes back is known from the readings of single numbers, wherever they stand.

Results:
* `numeral_append`: a numeral ends where its text ends, whatever follows that is no part of one.
* `Number.read?_natural`: the text of an integer of 64 bits reads as the integer.
* `quotedFrom_escaped`: a string is read back.
* `Layout.valueFrom_text`: a value is read back, wherever there is white space.
* `read_compact`, `read_pretty`: the texts of a tree read as the tree of the readings of its numbers.
-/

namespace MaterialLowering.Json

open Numeric (Single Double)

/-! ## Numerals -/

/-- No numeral goes on here. -/
def Stops (text : List Char) : Prop :=
  ∀ c ∈ text.head?, c.isDigit = false ∧ c ≠ '.' ∧ c ≠ 'e' ∧ c ≠ 'E'

instance (text : List Char) : Decidable (Stops text) :=
  inferInstanceAs (Decidable (∀ c ∈ text.head?, c.isDigit = false ∧ c ≠ '.' ∧ c ≠ 'e' ∧ c ≠ 'E'))

section

variable {more : List Char} (stops : Stops more)

include stops

theorem digit?_of_stops {c : Char} {rest : List Char} (h : more = c :: rest) : digit? c = none := by
  subst h
  simp [digit?, (stops c rfl).1]

theorem takeDigits_append (significand count : Nat) (text : List Char) :
    takeDigits significand count (text ++ more) =
      ((takeDigits significand count text).1, (takeDigits significand count text).2.1,
        (takeDigits significand count text).2.2 ++ more) := by
  induction text generalizing significand count with
  | nil =>
    cases more with
    | nil => rfl
    | cons c rest => simp [takeDigits, digit?_of_stops stops rfl]
  | cons c rest ih =>
    rw [List.cons_append, takeDigits, takeDigits]
    cases digit? c with
    | none => rfl
    | some d =>
      dsimp only
      split
      · rfl
      · exact ih _ _

theorem skipDigits_append (text : List Char) :
    skipDigits (text ++ more) = ((skipDigits text).1, (skipDigits text).2 ++ more) := by
  induction text with
  | nil =>
    cases more with
    | nil => rfl
    | cons c rest => simp [skipDigits, (stops c rfl).1]
  | cons c rest ih =>
    rw [List.cons_append, skipDigits, skipDigits, ih]
    split <;> rfl

theorem allDigits_append (value : Nat) (text : List Char) :
    allDigits value (text ++ more) = ((allDigits value text).1, (allDigits value text).2 ++ more) := by
  induction text generalizing value with
  | nil =>
    cases more with
    | nil => rfl
    | cons c rest => simp [allDigits, digit?_of_stops stops rfl]
  | cons c rest ih =>
    rw [List.cons_append, allDigits, allDigits]
    cases digit? c with
    | none => rfl
    | some d => exact ih _

variable {negative down : Bool} {significand : Nat} {power : Int} {text after : List Char}
  {value : Numeral}

theorem exponentDigits_append
    (h : exponentDigits negative significand power down text = .ok (value, after)) :
    exponentDigits negative significand power down (text ++ more) = .ok (value, after ++ more) := by
  cases text with
  | nil => cases h
  | cons c rest =>
    have digits := allDigits_append stops 0 (c :: rest)
    rw [List.cons_append] at digits ⊢
    simp only [exponentDigits, digits] at h ⊢
    grind

theorem exponentPart_append
    (h : exponentPart negative significand power text = .ok (value, after)) :
    exponentPart negative significand power (text ++ more) = .ok (value, after ++ more) := by
  unfold exponentPart at h
  split at h
  · exact exponentDigits_append stops h
  · exact exponentDigits_append stops h
  · rename_i plus minus
    cases text with
    | nil => cases h
    | cons c rest =>
      have hplus : c ≠ '+' := fun h => plus rest (h ▸ rfl)
      have hminus : c ≠ '-' := fun h => minus rest (h ▸ rfl)
      rw [← exponentDigits_append stops h, List.cons_append]
      unfold exponentPart
      split <;> simp_all

omit stops in
/-- Without the letter of an exponent there is none. -/
theorem scaledPart_of_head (h : ∀ c ∈ text.head?, c ≠ 'e' ∧ c ≠ 'E') :
    scaledPart negative significand power text = .ok (scaled negative significand power, text) := by
  unfold scaledPart
  split <;> simp_all

theorem scaledPart_append (h : scaledPart negative significand power text = .ok (value, after)) :
    scaledPart negative significand power (text ++ more) = .ok (value, after ++ more) := by
  unfold scaledPart at h
  split at h
  · exact exponentPart_append stops h
  · exact exponentPart_append stops h
  · rename_i lower upper
    cases h
    refine scaledPart_of_head fun c hc => ?_
    cases text with
    | nil => exact (stops c hc).2.2
    | cons d rest =>
      cases hc
      exact ⟨fun h => lower rest (h ▸ rfl), fun h => upper rest (h ▸ rfl)⟩

theorem fractionPart_append (h : fractionPart negative significand power text = .ok (value, after)) :
    fractionPart negative significand power (text ++ more) = .ok (value, after ++ more) := by
  unfold fractionPart at h ⊢
  rw [takeDigits_append stops]
  dsimp only at h ⊢
  rw [skipDigits_append stops]
  dsimp only
  split at h
  · cases h
  · rename_i digits
    rw [if_neg digits]
    exact scaledPart_append stops h

omit stops in
/-- Without a point or an exponent the numeral ends. -/
theorem afterWhole_of_head {dropped : Nat} (h : ∀ c ∈ text.head?, c ≠ '.' ∧ c ≠ 'e' ∧ c ≠ 'E') :
    afterWhole negative significand dropped text =
      .ok (if dropped = 0 then .number (integral negative significand)
        else scaled negative significand dropped, text) := by
  unfold afterWhole
  split
  · simp at h
  · split
    · simp at h
    · simp at h
    · split <;> rfl

theorem afterWhole_append {dropped : Nat}
    (h : afterWhole negative significand dropped text = .ok (value, after)) :
    afterWhole negative significand dropped (text ++ more) = .ok (value, after ++ more) := by
  by_cases special : ∀ c ∈ text.head?, c ≠ '.' ∧ c ≠ 'e' ∧ c ≠ 'E'
  · rw [afterWhole_of_head special] at h
    cases h
    refine afterWhole_of_head fun c hc => ?_
    cases text with
    | nil => exact (stops c hc).2
    | cons d rest => exact special c hc
  · cases text with
    | nil => simp at special
    | cons c rest =>
      obtain rfl | rfl | rfl : c = '.' ∨ c = 'e' ∨ c = 'E' := by
        simp at special
        tauto
      · exact fractionPart_append stops h
      · simp only [List.cons_append, afterWhole] at h ⊢
        exact scaledPart_append stops h
      · simp only [List.cons_append, afterWhole] at h ⊢
        exact scaledPart_append stops h

omit stops in
/-- No digit follows a leading zero. -/
theorem numeral_zero (h : ∀ c ∈ text.head?, c.isDigit = false) :
    numeral negative ('0' :: text) = afterWhole negative 0 0 text := by
  cases text with
  | nil => rfl
  | cons c rest => simp [numeral, h c rfl]

omit stops in
theorem numeral_digits {c : Char} {rest : List Char} (digit : c.isDigit) (zero : c ≠ '0') :
    numeral negative (c :: rest) =
      afterWhole negative (takeDigits 0 0 (c :: rest)).1
        (skipDigits (takeDigits 0 0 (c :: rest)).2.2).1
        (skipDigits (takeDigits 0 0 (c :: rest)).2.2).2 := by
  unfold numeral
  split <;> simp_all

theorem numeral_append (h : numeral negative text = .ok (value, after)) :
    numeral negative (text ++ more) = .ok (value, after ++ more) := by
  cases text with
  | nil => cases h
  | cons c rest =>
    by_cases zero : c = '0'
    · subst zero
      have last : ∀ c ∈ rest.head?, c.isDigit = false := by
        cases rest with
        | nil => simp
        | cons c rest =>
          simp only [numeral] at h
          grind
      rw [numeral_zero last] at h
      rw [List.cons_append, numeral_zero, afterWhole_append stops h]
      cases rest with
      | nil => exact fun c hc => (stops c hc).1
      | cons c rest => exact last
    · by_cases digit : c.isDigit
      · rw [numeral_digits digit zero] at h
        have digits := takeDigits_append stops 0 0 (c :: rest)
        rw [List.cons_append] at digits ⊢
        rw [numeral_digits digit zero, digits]
        dsimp only
        rw [skipDigits_append stops]
        exact afterWhole_append stops h
      · unfold numeral at h
        split at h <;> simp_all

end

/-! ## Integers -/

/-- Digits that stay within 64 bits are all taken. -/
theorem takeDigits_digits {digits : List Char} (h : ∀ c ∈ digits, c.isDigit) (significand count : Nat)
    (fits : Nat.ofDigitChars 10 digits significand ≤ naturalLimit) :
    takeDigits significand count digits =
      (Nat.ofDigitChars 10 digits significand, count + digits.length, []) := by
  induction digits generalizing significand count with
  | nil => rfl
  | cons c rest ih =>
    have digit : digit? c = some (c.toNat - '0'.toNat) := if_pos (h c List.mem_cons_self)
    rw [Nat.ofDigitChars_cons, Nat.mul_comm] at fits ⊢
    have least : Nat.ofDigitChars 10 rest (significand * 10 + (c.toNat - '0'.toNat)) =
        10 ^ rest.length * (significand * 10 + (c.toNat - '0'.toNat)) + Nat.ofDigitChars 10 rest 0 :=
      Nat.ofDigitChars_eq_ofDigitChars_zero
    have power : 1 ≤ 10 ^ rest.length := Nat.one_le_pow _ _ (by decide)
    have fits' : significand * 10 + (c.toNat - '0'.toNat) ≤ naturalLimit :=
      Nat.le_trans (Nat.le_mul_of_pos_left _ power) (by omega)
    rw [takeDigits, digit]
    dsimp only
    rw [if_neg (by omega), ih (fun c hc => h c (List.mem_cons_of_mem _ hc)) _ _ fits,
      List.length_cons, Nat.add_assoc, Nat.add_comm 1]

/-- Only zero begins with a zero. -/
theorem head_toDigits {n : Nat} (h : 0 < n) : ∀ c ∈ (Nat.toDigits 10 n).head?, c ≠ '0' := by
  induction n using Nat.strongRecOn with
  | ind n ih =>
    rw [Nat.toDigits_eq_if (by decide)]
    split
    · rename_i small
      intro c hc
      obtain rfl := Option.some.inj hc
      exact (by decide : ∀ n < 10, 0 < n → n.digitChar ≠ '0') n small h
    · rename_i large
      have first := ih (n / 10) (by omega) (by omega)
      rw [List.head?_append]
      cases digits : Nat.toDigits 10 (n / 10) with
      | nil => exact absurd digits Nat.toDigits_ne_nil
      | cons c rest => simpa [digits] using first

/-- The digits of an integer of 64 bits are a numeral of it. -/
theorem numeral_toDigits {n : Nat} (h : n ≤ naturalLimit) :
    numeral false (Nat.toDigits 10 n) = .ok (.number (.natural n), []) := by
  have whole : ∀ m, afterWhole false m 0 [] = .ok (.number (.natural m), []) := fun m => rfl
  rcases Nat.eq_zero_or_pos n with rfl | positive
  · exact (numeral_zero (by simp)).trans (whole 0)
  · have digits : ∀ c ∈ Nat.toDigits 10 n, c.isDigit := fun c hc =>
      Nat.isDigit_of_mem_toDigits (by decide) (by decide) hc
    have back : Nat.ofDigitChars 10 (Nat.toDigits 10 n) 0 = n :=
      Nat.ofDigitChars_toDigits (by decide) (by decide)
    have nonzero := head_toDigits positive
    have taken := takeDigits_digits digits 0 0 (by omega)
    cases hd : Nat.toDigits 10 n with
    | nil => exact absurd hd Nat.toDigits_ne_nil
    | cons c rest =>
      rw [hd] at digits back nonzero taken
      rw [numeral_digits (digits c List.mem_cons_self) (nonzero c rfl), taken, back]
      exact whole n

/-! ## The texts of numbers -/

/-- The number that a text is. -/
def Number.read? (text : String) : Option Json.Number :=
  match valueFrom (3 * text.toList.length + 3) text.toList with
  | (.number n, some []) => some n
  | _ => none

theorem isBlank_of_isDigit {c : Char} (h : c.isDigit) : isBlank c = false := by
  have other : ∀ d : Char, d.isDigit = false → c ≠ d := by
    rintro d hd rfl
    exact absurd h (by simp [hd])
  simp [isBlank, other ' ' rfl, other '\n' rfl, other '\t' rfl, other '\r' rfl]

theorem skipBlank_cons {c : Char} {rest : List Char} (h : isBlank c = false) :
    skipBlank (c :: rest) = c :: rest := by simp [skipBlank, h]

/-- Where there is something but white space, it is found whatever follows. -/
theorem skipBlank_append {c : Char} {text rest : List Char} (h : skipBlank text = c :: rest)
    (more : List Char) : skipBlank (text ++ more) = c :: (rest ++ more) := by
  rw [skipBlank, List.dropWhile_append]
  simp_all [skipBlank]

theorem valueFrom_digit (fuel : Nat) {c : Char} {text rest : List Char} (h : c.isDigit)
    (hc : skipBlank text = c :: rest) :
    valueFrom (fuel + 1) text = numeralValue false (c :: rest) := by
  unfold valueFrom
  rw [hc]
  split <;> simp_all

theorem valueFrom_minus (fuel : Nat) {text rest : List Char} (hc : skipBlank text = '-' :: rest) :
    valueFrom (fuel + 1) text = numeralValue true rest := by
  unfold valueFrom
  rw [hc]
  rfl

theorem numeralValue_append {negative : Bool} {text after more : List Char} {n : Json.Number}
    (h : numeralValue negative text = (.number n, some after)) (stops : Stops more) :
    numeralValue negative (text ++ more) = (.number n, some (after ++ more)) := by
  unfold numeralValue at h
  split at h <;> cases h
  rename_i read
  rw [numeralValue, numeral_append stops read]

/-- A value that is a word is no number. -/
theorem word_ne_number {value : Json} {spelling : String} {text after : List Char} {n : Json.Number}
    (hv : ∀ m, value ≠ .number m) : word value spelling text ≠ (.number n, some after) := by
  unfold word
  split
  · exact fun h => hv n (congrArg Prod.fst h)
  · exact fun h => by cases h

/-- A number reads the same where something else follows. -/
theorem valueFrom_number {fuel fuel' : Nat} {text after more : List Char} {n : Json.Number}
    (h : valueFrom fuel' text = (.number n, some after)) (stops : Stops more) :
    valueFrom (fuel + 1) (text ++ more) = (.number n, some (after ++ more)) := by
  cases fuel' with
  | zero => cases h
  | succ fuel' =>
    unfold valueFrom at h
    split at h
    · cases h
    · exact absurd h (word_ne_number (fun m => by simp))
    · exact absurd h (word_ne_number (fun m => by simp))
    · exact absurd h (word_ne_number (fun m => by simp))
    · rename_i rest _
      unfold stringValue at h
      dsimp only at h
      split at h
      · split at h <;> cases h
      · cases h
    · rename_i hc
      rw [valueFrom_minus fuel (skipBlank_append hc more)]
      exact numeralValue_append h stops
    · cases h
    · cases h
    · rename_i hc
      split at h
      · rename_i digit
        rw [valueFrom_digit fuel digit (skipBlank_append hc more)]
        exact numeralValue_append h stops
      · cases h

namespace Number

theorem valueFrom_of_read? {fuel : Nat} {text : String} {n : Json.Number} (h : read? text = some n)
    {more : List Char} (stops : Stops more) :
    valueFrom (fuel + 1) (text.toList ++ more) = (.number n, some more) := by
  unfold read? at h
  split at h
  · rename_i read
    obtain rfl := Option.some.inj h
    exact valueFrom_number read stops
  · cases h

theorem read?_natural {n : Nat} (h : n ≤ naturalLimit) : read? (toString n) = some (.natural n) := by
  have text : (toString n).toList = Nat.toDigits 10 n := by simp
  cases digits : Nat.toDigits 10 n with
  | nil => exact absurd digits Nat.toDigits_ne_nil
  | cons c rest =>
    have digit : c.isDigit := Nat.isDigit_of_mem_toDigits (by decide) (by decide)
      (digits ▸ List.mem_cons_self)
    have first : skipBlank (Nat.toDigits 10 n) = c :: rest := by
      rw [digits]
      exact skipBlank_cons (isBlank_of_isDigit digit)
    rw [read?, text, valueFrom_digit _ digit first, ← digits, numeralValue, numeral_toDigits h]

/-- The number is written as `null`, or its text is a number. -/
def Legible (n : Json.Number) : Prop := n.text = "null" ∨ (read? n.text).isSome

instance : DecidablePred Legible := fun n =>
  inferInstanceAs (Decidable (n.text = "null" ∨ (read? n.text).isSome))

/-- What the text of a number reads as. -/
def reread (n : Json.Number) : Json :=
  match read? n.text with
  | some m => .number m
  | none => .null

theorem valueFrom_text (fuel : Nat) {n : Json.Number} (h : n.Legible) {more : List Char}
    (stops : Stops more) : valueFrom (fuel + 1) (n.text.toList ++ more) = (n.reread, some more) := by
  rcases h with none | some
  · have unread : read? "null" = .none := by rfl
    rw [reread, none, unread]
    rfl
  · obtain ⟨m, hm⟩ := Option.isSome_iff_exists.1 some
    rw [valueFrom_of_read? hm stops, reread, hm]

end Number

/-! ## Strings -/

theorem quotedFrom_quote (read : List Char) (readable : Bool) (rest : List Char) :
    quotedFrom read readable ('"' :: rest) = ⟨String.ofList read.reverse, readable, .ok rest⟩ := by
  rw [quotedFrom]

theorem quotedFrom_escape {text rest : List Char} {c : Char} (h : escape text = .ok (some c, rest))
    (read : List Char) (readable : Bool) :
    quotedFrom read readable ('\\' :: text) = quotedFrom (c :: read) readable rest := by
  rw [quotedFrom]
  split <;> simp_all

theorem quotedFrom_plain {c : Char} (quote : c ≠ '"') (slash : c ≠ '\\') (control : ¬ c.toNat < 0x20)
    (read : List Char) (readable : Bool) (rest : List Char) :
    quotedFrom read readable (c :: rest) = quotedFrom (c :: read) readable rest := by
  rw [quotedFrom]
  · rw [if_neg control]
  · exact quote
  · exact slash

/-- Four characters are four bytes at least. -/
theorem hexQuad_digits {p q r s : Char} {a b c d : Nat} (ha : hexDigit? p = some a)
    (hb : hexDigit? q = some b) (hc : hexDigit? r = some c) (hd : hexDigit? s = some d)
    (rest : List Char) :
    hexQuad (p :: q :: r :: s :: rest) = .ok (((a * 16 + b) * 16 + c) * 16 + d, rest) := by
  have long : ¬ (String.ofList ((p :: q :: r :: s :: rest).take 4)).utf8ByteSize < 4 := by
    have := p.utf8Size_pos
    have := q.utf8Size_pos
    have := r.utf8Size_pos
    have := s.utf8Size_pos
    simp only [List.take_succ_cons, List.take_zero, String.utf8ByteSize_ofList, String.utf8Len]
    omega
  rw [hexQuad, if_neg long, ha, hb, hc, hd]

/-- A control character is written as its number. -/
theorem escape_control {n : Nat} (h : n < 0x20) (rest : List Char) :
    escape ('u' :: '0' :: '0' :: hexDigits.getD (n / 16) '0' :: hexDigits.getD (n % 16) '0' :: rest) =
      .ok (some (Char.ofNat n), rest) := by
  have digit : ∀ d < 16, hexDigit? (hexDigits.getD d '0') = some d := by decide
  have number : ((0 * 16 + 0) * 16 + n / 16) * 16 + n % 16 = n := by omega
  have quad := hexQuad_digits (p := '0') (q := '0') (a := 0) (b := 0) rfl rfl (digit (n / 16) (by omega))
    (digit (n % 16) (by omega)) rest
  rw [number] at quad
  have high : isHighSurrogate n = false := by
    simp only [isHighSurrogate]
    simp
    omega
  have low : isLowSurrogate n = false := by
    simp only [isLowSurrogate]
    simp
    omega
  rw [escape, quad]
  simp [bind, Except.bind, high, low, pure, Except.pure]

theorem quotedFrom_escaped_append (c : Char) (read : List Char) (readable : Bool) (rest : List Char) :
    quotedFrom read readable (escaped c ++ rest) = quotedFrom (c :: read) readable rest := by
  unfold escaped
  split_ifs with quote slash back tab line form carriage control
  · subst quote
    exact quotedFrom_escape rfl read readable
  · subst slash
    exact quotedFrom_escape rfl read readable
  · exact back ▸ quotedFrom_escape rfl read readable
  · exact tab ▸ quotedFrom_escape rfl read readable
  · exact line ▸ quotedFrom_escape rfl read readable
  · exact form ▸ quotedFrom_escape rfl read readable
  · exact carriage ▸ quotedFrom_escape rfl read readable
  · have escaped := quotedFrom_escape (escape_control control rest) read readable
    rwa [Char.ofNat_toNat] at escaped
  · exact quotedFrom_plain quote slash control read readable rest

/-- A string reads as it is, whatever is in it. -/
theorem quotedFrom_escaped (text read : List Char) (readable : Bool) (rest : List Char) :
    quotedFrom read readable (text.flatMap escaped ++ '"' :: rest) =
      ⟨String.ofList (read.reverse ++ text), readable, .ok rest⟩ := by
  induction text generalizing read with
  | nil => simp [quotedFrom_quote]
  | cons c text ih =>
    rw [List.flatMap_cons, List.append_assoc, quotedFrom_escaped_append, ih]
    simp

theorem stringValue_quote (text : String) (more : List Char) :
    stringValue (text.toList.flatMap escaped ++ '"' :: more) = (.string text, some more) := by
  have read : quoted (text.toList.flatMap escaped ++ '"' :: more) = ⟨text, true, .ok more⟩ := by
    rw [quoted, quotedFrom_escaped]
    simp
  simp [stringValue, read]

/-! ## Trees -/

mutual

/-- The numbers of a tree. -/
def numbers : Json → List Json.Number
  | .number n => [n]
  | .array items => numbersOfItems items
  | .object members => numbersOfMembers members
  | _ => []

def numbersOfItems : List Json → List Json.Number
  | [] => []
  | item :: rest => numbers item ++ numbersOfItems rest

def numbersOfMembers : List (String × Json) → List Json.Number
  | [] => []
  | (_, value) :: rest => numbers value ++ numbersOfMembers rest

end

mutual

/-- The tree of the readings of the numbers. -/
def reread : Json → Json
  | .null | .broken _ _ | .nameless _ _ => .null
  | .bool flag => .bool flag
  | .number n => n.reread
  | .string text => .string text
  | .array items => .array (rereadItems items)
  | .object members => .object (rereadMembers members)

def rereadItems : List Json → List Json
  | [] => []
  | item :: rest => reread item :: rereadItems rest

def rereadMembers : List (String × Json) → List (String × Json)
  | [] => []
  | (name, value) :: rest => (name, reread value) :: rereadMembers rest

end

theorem rereadItems_eq_map (items : List Json) : rereadItems items = items.map reread := by
  induction items with
  | nil => rfl
  | cons item rest ih => rw [rereadItems, ih, List.map_cons]

theorem rereadMembers_eq_map (members : List (String × Json)) :
    rereadMembers members = members.map fun m => (m.1, reread m.2) := by
  induction members with
  | nil => rfl
  | cons m rest ih => rw [rereadMembers, ih, List.map_cons]

/-- Nothing but white space. -/
def Blank (text : List Char) : Prop := ∀ c ∈ text, isBlank c = true

theorem Blank.skipBlank_append {blank : List Char} (h : Blank blank) (text : List Char) :
    skipBlank (blank ++ text) = skipBlank text := by
  induction blank with
  | nil => rfl
  | cons c blank ih =>
    have first : isBlank c = true := h c List.mem_cons_self
    rw [List.cons_append, skipBlank, List.dropWhile_cons_of_pos first]
    exact ih fun c hc => h c (List.mem_cons_of_mem _ hc)

/-- No numeral goes on in white space. -/
theorem Blank.stops {blank text : List Char} (h : Blank blank) (stops : Stops text) :
    Stops (blank ++ text) := by
  cases blank with
  | nil => exact stops
  | cons c blank =>
    intro d hd
    obtain rfl : c = d := Option.some.inj hd
    have first : isBlank c = true := h c List.mem_cons_self
    have white : c = ' ' ∨ c = '\n' ∨ c = '\t' ∨ c = '\r' := by
      simpa [isBlank, or_assoc] using first
    rcases white with rfl | rfl | rfl | rfl <;> decide

theorem skipBlank_idem (text : List Char) : skipBlank (skipBlank text) = skipBlank text :=
  List.dropWhile_idempotent _ _

/-- White space before a value makes no difference. -/
theorem valueFrom_skipBlank (fuel : Nat) (text : List Char) :
    valueFrom fuel (skipBlank text) = valueFrom fuel text := by
  cases fuel with
  | zero => rfl
  | succ fuel => rw [valueFrom, valueFrom, skipBlank_idem]

theorem itemFrom_skipBlank (fuel : Nat) (text : List Char) :
    itemFrom fuel (skipBlank text) = itemFrom fuel text := by
  cases fuel with
  | zero => rfl
  | succ fuel => rw [itemFrom, itemFrom, valueFrom_skipBlank]

/-- A value begins here. -/
def Opens (text : List Char) : Prop := ∃ c rest, skipBlank text = c :: rest ∧ c ≠ ']' ∧ c ≠ ','

theorem Opens.append {text : List Char} (h : Opens text) (more : List Char) : Opens (text ++ more) := by
  obtain ⟨c, rest, hc, first⟩ := h
  exact ⟨c, rest ++ more, skipBlank_append hc more, first⟩

theorem valueFrom_array (fuel : Nat) (text : List Char) :
    valueFrom (fuel + 1) ('[' :: text) =
      (.array (itemsFrom fuel true text).1, (itemsFrom fuel true text).2) := by
  rw [valueFrom, skipBlank_cons (by decide)]
  rfl

theorem valueFrom_object (fuel : Nat) (text : List Char) :
    valueFrom (fuel + 1) ('{' :: text) =
      (.object (membersFrom fuel true text).1, (membersFrom fuel true text).2) := by
  rw [valueFrom, skipBlank_cons (by decide)]
  rfl

theorem itemsFrom_first (fuel : Nat) {text : List Char} (h : Opens text) :
    itemsFrom (fuel + 1) true text = itemFrom fuel text := by
  obtain ⟨c, rest, hc, bracket, comma⟩ := h
  rw [← itemFrom_skipBlank fuel text]
  unfold itemsFrom
  rw [hc]
  split <;> simp_all

theorem itemsFrom_next (fuel : Nat) {text : List Char} (h : Opens text) :
    itemsFrom (fuel + 1) false (',' :: text) = itemFrom fuel text := by
  obtain ⟨c, rest, hc, bracket, comma⟩ := h
  rw [itemsFrom, skipBlank_cons (by decide)]
  simp only [Bool.false_eq_true, if_false, hc]
  split <;> simp_all

theorem itemsFrom_end (fuel : Nat) (first : Bool) {text rest : List Char}
    (h : skipBlank text = ']' :: rest) : itemsFrom (fuel + 1) first text = ([], some rest) := by
  rw [itemsFrom, h]
  rfl

theorem itemFrom_value (fuel : Nat) {blank text rest : List Char} {value : Json} (white : Blank blank)
    (h : valueFrom fuel text = (value, some rest)) :
    itemFrom (fuel + 1) (blank ++ text) =
      (value :: (itemsFrom fuel false rest).1, (itemsFrom fuel false rest).2) := by
  have below : valueFrom fuel (blank ++ text) = (value, some rest) := by
    rw [← valueFrom_skipBlank, white.skipBlank_append, valueFrom_skipBlank, h]
  rw [itemFrom]
  simp only [below]

theorem membersFrom_first (fuel : Nat) {text rest : List Char} (h : skipBlank text = '"' :: rest) :
    membersFrom (fuel + 1) true text = memberFrom fuel rest := by
  rw [membersFrom, h]
  rfl

theorem membersFrom_next (fuel : Nat) {text rest : List Char} (h : skipBlank text = '"' :: rest) :
    membersFrom (fuel + 1) false (',' :: text) = memberFrom fuel rest := by
  rw [membersFrom, skipBlank_cons (by decide)]
  simp only [Bool.false_eq_true, if_false, h]

theorem membersFrom_end (fuel : Nat) (first : Bool) {text rest : List Char}
    (h : skipBlank text = '}' :: rest) : membersFrom (fuel + 1) first text = ([], some rest) := by
  rw [membersFrom, h]
  rfl

theorem memberFrom_value (fuel : Nat) (name : String) {text rest : List Char} {value : Json}
    (h : valueFrom fuel text = (value, some rest)) :
    memberFrom (fuel + 1) (name.toList.flatMap escaped ++ '"' :: ':' :: text) =
      ((name, value) :: (membersFrom fuel false rest).1, (membersFrom fuel false rest).2) := by
  rw [memberFrom, stringValue_quote]
  dsimp only
  rw [skipBlank_cons (by decide)]
  simp only [h, member]

/-- A number begins with a digit or a sign. -/
theorem opens_of_number {fuel : Nat} {text after : List Char} {n : Json.Number}
    (h : valueFrom fuel text = (.number n, some after)) : Opens text := by
  cases fuel with
  | zero => cases h
  | succ fuel =>
    unfold valueFrom at h
    cases first : skipBlank text with
    | nil =>
      rw [first] at h
      cases h
    | cons c rest =>
      rw [first] at h
      refine ⟨c, rest, first, ?_, ?_⟩
      · rintro rfl
        cases h
      · rintro rfl
        cases h

/-! ## Layouts -/

/-- Where white space stands in a text. -/
structure Layout where
  /-- What stands before an item or a member, inside so many containers, or before their end. -/
  line : Nat → List Char
  /-- What stands behind a colon. -/
  gap : List Char
  line_blank : ∀ depth, Blank (line depth)
  gap_blank : Blank gap

mutual

/-- The text of a tree inside `depth` containers. -/
def Layout.text (layout : Layout) (depth : Nat) : Json → List Char
  | .null | .broken _ _ | .nameless _ _ => "null".toList
  | .bool flag => (if flag then "true" else "false").toList
  | .number n => n.text.toList
  | .string text => '"' :: (text.toList.flatMap escaped ++ ['"'])
  | .array [] => ['[', ']']
  | .array (item :: rest) =>
    '[' :: (layout.line (depth + 1) ++
      (layout.text (depth + 1) item ++ layout.itemsAfter depth rest))
  | .object [] => ['{', '}']
  | .object ((name, value) :: rest) =>
    '{' :: (layout.line (depth + 1) ++ '"' :: (name.toList.flatMap escaped ++ '"' :: ':' ::
      (layout.gap ++ (layout.text (depth + 1) value ++ layout.membersAfter depth rest))))

/-- The text behind an item: the other items and the end of the array. -/
def Layout.itemsAfter (layout : Layout) (depth : Nat) : List Json → List Char
  | [] => layout.line depth ++ [']']
  | item :: rest =>
    ',' :: (layout.line (depth + 1) ++
      (layout.text (depth + 1) item ++ layout.itemsAfter depth rest))

/-- The text behind a member: the other members and the end of the object. -/
def Layout.membersAfter (layout : Layout) (depth : Nat) : List (String × Json) → List Char
  | [] => layout.line depth ++ ['}']
  | (name, value) :: rest =>
    ',' :: (layout.line (depth + 1) ++ '"' :: (name.toList.flatMap escaped ++ '"' :: ':' ::
      (layout.gap ++ (layout.text (depth + 1) value ++ layout.membersAfter depth rest))))

end

namespace Layout

variable (layout : Layout)

/-- The text of a value begins a value. -/
theorem opens_text (depth : Nat) (t : Json) (legible : ∀ n ∈ t.numbers, n.Legible) :
    Opens (layout.text depth t) := by
  have first : ∀ (c : Char) {text : List Char}, text.head? = some c →
      isBlank c = false ∧ c ≠ ']' ∧ c ≠ ',' → Opens text := by
    intro c text ht h
    obtain ⟨rest, rfl⟩ := List.head?_eq_some_iff.1 ht
    exact ⟨c, rest, skipBlank_cons h.1, h.2⟩
  have null : Opens "null".toList := first 'n' (by simp) (by decide)
  cases t with
  | number n =>
    rcases legible n (by simp [numbers]) with none | some
    · rw [text, none]
      exact null
    · obtain ⟨m, hm⟩ := Option.isSome_iff_exists.1 some
      unfold Number.read? at hm
      split at hm
      · rename_i read
        exact opens_of_number read
      · cases hm
  | null | broken | nameless => exact null
  | bool flag =>
    cases flag with
    | true => exact first 't' (by simp [text]) (by decide)
    | false => exact first 'f' (by simp [text]) (by decide)
  | string s => exact first '"' (by simp [text]) (by decide)
  | array items => exact first '[' (by cases items <;> simp [text]) (by decide)
  | object members =>
    exact first '{' (by rcases members with _ | ⟨⟨_, _⟩, _⟩ <;> simp [text]) (by decide)

/-- The text of a value is not empty. -/
theorem length_text (depth : Nat) (t : Json) (legible : ∀ n ∈ t.numbers, n.Legible) :
    0 < (layout.text depth t).length := by
  obtain ⟨c, rest, hc, -⟩ := layout.opens_text depth t legible
  cases h : layout.text depth t with
  | nil =>
    rw [h] at hc
    cases hc
  | cons => exact Nat.succ_pos _

theorem opens_line (depth : Nat) {text : List Char} (h : Opens text) :
    Opens (layout.line depth ++ text) := by
  rwa [Opens, (layout.line_blank depth).skipBlank_append]

theorem skipBlank_line (depth : Nat) {c : Char} {text : List Char} (h : isBlank c = false) :
    skipBlank (layout.line depth ++ c :: text) = c :: text :=
  ((layout.line_blank depth).skipBlank_append _).trans (skipBlank_cons h)

theorem stops_itemsAfter (depth : Nat) (items : List Json) (more : List Char) :
    Stops (layout.itemsAfter depth items ++ more) := by
  cases items with
  | nil =>
    rw [itemsAfter, List.append_assoc]
    exact (layout.line_blank depth).stops fun c hc => Option.some.inj hc ▸ by decide
  | cons => exact fun c hc => Option.some.inj hc ▸ by decide

theorem stops_membersAfter (depth : Nat) (members : List (String × Json)) (more : List Char) :
    Stops (layout.membersAfter depth members ++ more) := by
  rcases members with _ | ⟨⟨_, _⟩, _⟩
  · rw [membersAfter, List.append_assoc]
    exact (layout.line_blank depth).stops fun c hc => Option.some.inj hc ▸ by decide
  · exact fun c hc => Option.some.inj hc ▸ by decide

theorem memberFrom_text {fuel : Nat} {name : String} {value value' : Json} {depth : Nat}
    {after rest : List Char}
    (h : valueFrom fuel (layout.text depth value ++ after) = (value', some rest)) :
    memberFrom (fuel + 1) (name.toList.flatMap escaped ++ '"' :: ':' ::
        (layout.gap ++ (layout.text depth value ++ after))) =
      ((name, value') :: (membersFrom fuel false rest).1, (membersFrom fuel false rest).2) := by
  refine memberFrom_value fuel name ?_
  rw [← valueFrom_skipBlank, layout.gap_blank.skipBlank_append, valueFrom_skipBlank, h]

mutual

/-- A value is read back, whatever follows that is no part of a numeral. -/
theorem valueFrom_text (t : Json) (depth fuel : Nat) (more : List Char)
    (legible : ∀ n ∈ t.numbers, n.Legible) (stops : Stops more)
    (enough : 3 * (layout.text depth t).length ≤ fuel) :
    valueFrom fuel (layout.text depth t ++ more) = (t.reread, some more) := by
  have positive := layout.length_text depth t legible
  obtain ⟨fuel, rfl⟩ : ∃ f, fuel = f + 3 := ⟨fuel - 3, by omega⟩
  cases t with
  | null | broken | nameless =>
    rw [text, reread]
    rfl
  | bool flag =>
    rw [text, reread]
    cases flag <;> rfl
  | number n => exact Number.valueFrom_text _ (legible n (by simp [numbers])) stops
  | string s =>
    rw [text, List.cons_append, List.append_assoc, valueFrom, skipBlank_cons (by decide)]
    exact stringValue_quote s more
  | array items =>
    cases items with
    | nil =>
      rw [text, List.cons_append, valueFrom_array, List.cons_append,
        itemsFrom_end _ true (skipBlank_cons (by decide))]
      rfl
    | cons item rest =>
      have first : ∀ n ∈ item.numbers, n.Legible := fun n hn =>
        legible n (by simp [numbers, numbersOfItems, hn])
      simp only [text, List.length_cons, List.length_append] at enough
      have value := valueFrom_text item (depth + 1) fuel (layout.itemsAfter depth rest ++ more) first
        (layout.stops_itemsAfter depth rest more) (by omega)
      have others := itemsFrom_itemsAfter rest depth fuel more
        (fun n hn => legible n (by simp [numbers, numbersOfItems, hn])) (by omega)
      have opens := layout.opens_line (depth + 1)
        ((layout.opens_text (depth + 1) item first).append (layout.itemsAfter depth rest ++ more))
      rw [text, List.cons_append, List.append_assoc, List.append_assoc, valueFrom_array,
        itemsFrom_first _ opens, itemFrom_value _ (layout.line_blank _) value, others]
      rfl
  | object members =>
    rcases members with _ | ⟨⟨name, value⟩, rest⟩
    · rw [text, List.cons_append, valueFrom_object, List.cons_append,
        membersFrom_end _ true (skipBlank_cons (by decide))]
      rfl
    · simp only [text, List.length_cons, List.length_append] at enough
      have inside := valueFrom_text value (depth + 1) fuel (layout.membersAfter depth rest ++ more)
        (fun n hn => legible n (by simp [numbers, numbersOfMembers, hn]))
        (layout.stops_membersAfter depth rest more) (by omega)
      have others := membersFrom_membersAfter rest depth fuel more
        (fun n hn => legible n (by simp [numbers, numbersOfMembers, hn])) (by omega)
      simp only [text, List.cons_append, List.append_assoc]
      rw [valueFrom_object, membersFrom_first _ (layout.skipBlank_line _ (by decide)),
        layout.memberFrom_text inside, others]
      rfl

/-- The items of an array are read back. -/
theorem itemsFrom_itemsAfter (items : List Json) (depth fuel : Nat) (more : List Char)
    (legible : ∀ n ∈ numbersOfItems items, n.Legible)
    (enough : 3 * (layout.itemsAfter depth items).length ≤ fuel) :
    itemsFrom fuel false (layout.itemsAfter depth items ++ more) = (rereadItems items, some more) := by
  cases items with
  | nil =>
    obtain ⟨fuel, rfl⟩ : ∃ f, fuel = f + 1 := ⟨fuel - 1, by simp [itemsAfter] at enough; omega⟩
    rw [itemsAfter, List.append_assoc]
    exact itemsFrom_end fuel false (layout.skipBlank_line depth (by decide))
  | cons item rest =>
    have own : ∀ n ∈ item.numbers, n.Legible := fun n hn =>
      legible n (by simp [numbersOfItems, hn])
    obtain ⟨fuel, rfl⟩ : ∃ f, fuel = f + 2 := ⟨fuel - 2, by simp [itemsAfter] at enough; omega⟩
    simp only [itemsAfter, List.length_cons, List.length_append] at enough
    have value := valueFrom_text item (depth + 1) fuel (layout.itemsAfter depth rest ++ more) own
      (layout.stops_itemsAfter depth rest more) (by omega)
    have others := itemsFrom_itemsAfter rest depth fuel more
      (fun n hn => legible n (by simp [numbersOfItems, hn])) (by omega)
    have opens := layout.opens_line (depth + 1)
      ((layout.opens_text (depth + 1) item own).append (layout.itemsAfter depth rest ++ more))
    rw [itemsAfter, List.cons_append, List.append_assoc, List.append_assoc, itemsFrom_next _ opens,
      itemFrom_value _ (layout.line_blank _) value, others]
    rfl

/-- The members of an object are read back. -/
theorem membersFrom_membersAfter (members : List (String × Json)) (depth fuel : Nat)
    (more : List Char) (legible : ∀ n ∈ numbersOfMembers members, n.Legible)
    (enough : 3 * (layout.membersAfter depth members).length ≤ fuel) :
    membersFrom fuel false (layout.membersAfter depth members ++ more) =
      (rereadMembers members, some more) := by
  rcases members with _ | ⟨⟨name, value⟩, rest⟩
  · obtain ⟨fuel, rfl⟩ : ∃ f, fuel = f + 1 := ⟨fuel - 1, by simp [membersAfter] at enough; omega⟩
    rw [membersAfter, List.append_assoc]
    exact membersFrom_end fuel false (layout.skipBlank_line depth (by decide))
  · obtain ⟨fuel, rfl⟩ : ∃ f, fuel = f + 2 := ⟨fuel - 2, by simp [membersAfter] at enough; omega⟩
    simp only [membersAfter, List.length_cons, List.length_append] at enough
    have inside := valueFrom_text value (depth + 1) fuel (layout.membersAfter depth rest ++ more)
      (fun n hn => legible n (by simp [numbersOfMembers, hn]))
      (layout.stops_membersAfter depth rest more) (by omega)
    have others := membersFrom_membersAfter rest depth fuel more
      (fun n hn => legible n (by simp [numbersOfMembers, hn])) (by omega)
    simp only [membersAfter, List.cons_append, List.append_assoc]
    rw [membersFrom_next _ (layout.skipBlank_line _ (by decide)), layout.memberFrom_text inside, others]
    rfl

end

/-- The text of a tree reads as the tree of the readings of its numbers, and nothing follows it. -/
theorem read_text (t : Json) (legible : ∀ n ∈ t.numbers, n.Legible) {text : String}
    (h : text.toList = layout.text 0 t) : read text = ⟨t.reread, true⟩ := by
  have value := layout.valueFrom_text t 0 (3 * text.toList.length + 3) [] legible (by simp [Stops])
    (by rw [h]; omega)
  rw [List.append_nil, ← h] at value
  simp only [read, value]
  rfl

/-- No white space at all. -/
def compact : Layout where
  line _ := []
  gap := []
  line_blank _ _ hc := by cases hc
  gap_blank _ hc := by cases hc

@[simp] theorem compact_line (depth : Nat) : compact.line depth = [] := rfl

@[simp] theorem compact_gap : compact.gap = [] := rfl

/-- Items and members on lines of their own. -/
def pretty : Layout where
  line depth := (newLine depth).toList
  gap := [' ']
  line_blank depth c hc := by
    simp only [newLine, String.toList_append, String.toList_ofList, List.mem_append] at hc
    rcases hc with hc | hc
    · obtain rfl : c = '\n' := by simpa using hc
      rfl
    · obtain rfl := List.eq_of_mem_replicate hc
      rfl
  gap_blank c hc := by
    obtain rfl := List.mem_singleton.1 hc
    rfl

@[simp] theorem pretty_line (depth : Nat) : pretty.line depth = (newLine depth).toList := rfl

@[simp] theorem pretty_gap : pretty.gap = [' '] := rfl

end Layout

mutual

theorem toList_compact (t : Json) (depth : Nat) : t.compact.toList = Layout.compact.text depth t := by
  cases t with
  | null | broken | nameless | bool | number => rw [compact, Layout.text]
  | string s => simp [compact, Layout.text, quote]
  | array items =>
    cases items with
    | nil => simp [compact, compactItems, Layout.text]
    | cons item rest => simp [compact, Layout.text, toList_compactItems item rest depth]
  | object members =>
    rcases members with _ | ⟨⟨name, value⟩, rest⟩
    · simp [compact, compactMembers, Layout.text]
    · simp [compact, Layout.text, toList_compactMembers name value rest depth]
termination_by sizeOf t

theorem toList_compactItems (item : Json) (rest : List Json) (depth : Nat) :
    (compactItems (item :: rest)).toList ++ [']'] =
      Layout.compact.text (depth + 1) item ++ Layout.compact.itemsAfter depth rest := by
  cases rest with
  | nil => simp [compactItems, toList_compact item (depth + 1), Layout.itemsAfter]
  | cons next rest =>
    simp [compactItems, toList_compact item (depth + 1), Layout.itemsAfter,
      toList_compactItems next rest depth]
termination_by sizeOf item + sizeOf rest

theorem toList_compactMembers (name : String) (value : Json) (rest : List (String × Json))
    (depth : Nat) :
    (compactMembers ((name, value) :: rest)).toList ++ ['}'] =
      '"' :: (name.toList.flatMap escaped ++ '"' :: ':' ::
        (Layout.compact.text (depth + 1) value ++ Layout.compact.membersAfter depth rest)) := by
  rcases rest with _ | ⟨⟨name', value'⟩, rest⟩
  · simp [compactMembers, quote, toList_compact value (depth + 1), Layout.membersAfter]
  · simp [compactMembers, quote, toList_compact value (depth + 1), Layout.membersAfter,
      toList_compactMembers name' value' rest depth]
termination_by sizeOf value + sizeOf rest

end

mutual

theorem toList_prettyAt (t : Json) (depth : Nat) :
    (prettyAt depth t).toList = Layout.pretty.text depth t := by
  cases t with
  | null | broken | nameless | bool | number => rw [prettyAt, Layout.text]
  | string s => simp [prettyAt, Layout.text, quote]
  | array items =>
    cases items with
    | nil => simp [prettyAt, Layout.text]
    | cons item rest => simp [prettyAt, Layout.text, toList_prettyItems item rest depth]
  | object members =>
    rcases members with _ | ⟨⟨name, value⟩, rest⟩
    · simp [prettyAt, Layout.text]
    · simp [prettyAt, Layout.text, toList_prettyMembers name value rest depth]
termination_by sizeOf t

theorem toList_prettyItems (item : Json) (rest : List Json) (depth : Nat) :
    (prettyItems (depth + 1) (item :: rest)).toList ++ ((newLine depth).toList ++ [']']) =
      (newLine (depth + 1)).toList ++
        (Layout.pretty.text (depth + 1) item ++ Layout.pretty.itemsAfter depth rest) := by
  cases rest with
  | nil => simp [prettyItems, toList_prettyAt item (depth + 1), Layout.itemsAfter]
  | cons next rest =>
    simp [prettyItems, toList_prettyAt item (depth + 1), Layout.itemsAfter,
      toList_prettyItems next rest depth]
termination_by sizeOf item + sizeOf rest

theorem toList_prettyMembers (name : String) (value : Json) (rest : List (String × Json))
    (depth : Nat) :
    (prettyMembers (depth + 1) ((name, value) :: rest)).toList ++
        ((newLine depth).toList ++ ['}']) =
      (newLine (depth + 1)).toList ++ '"' :: (name.toList.flatMap escaped ++ '"' :: ':' :: ' ' ::
        (Layout.pretty.text (depth + 1) value ++ Layout.pretty.membersAfter depth rest)) := by
  rcases rest with _ | ⟨⟨name', value'⟩, rest⟩
  · simp [prettyMembers, quote, toList_prettyAt value (depth + 1), Layout.membersAfter]
  · simp [prettyMembers, quote, toList_prettyAt value (depth + 1), Layout.membersAfter,
      toList_prettyMembers name' value' rest depth]
termination_by sizeOf value + sizeOf rest

end

/-- The text of a tree without white space reads as the tree of the readings of its numbers. -/
theorem read_compact (t : Json) (legible : ∀ n ∈ t.numbers, n.Legible) :
    read t.compact = ⟨t.reread, true⟩ :=
  Layout.compact.read_text t legible (toList_compact t 0)

/-- So does its text with one item or member on a line. -/
theorem read_pretty (t : Json) (legible : ∀ n ∈ t.numbers, n.Legible) :
    read t.pretty = ⟨t.reread, true⟩ :=
  Layout.pretty.read_text t legible (toList_prettyAt t 0)

end MaterialLowering.Json
