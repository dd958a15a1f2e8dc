import MaterialLowering.Json.Numeral

/-!
# Reading JSON texts

`Json.read` gives the tree of any text. Where the text stops making sense the tree gets a
`broken` or a `nameless` leaf, and what was read before it stays.
-/

namespace MaterialLowering.Json

/-- The white space of a JSON text. -/
def isBlank (c : Char) : Bool := c = ' ' || c = '\n' || c = '\t' || c = '\r'

/-- The text from the first character on that is not white space. -/
def skipBlank (text : List Char) : List Char := text.dropWhile isBlank

/-! ## Strings -/

/-- A string as far as it could be read. -/
structure Quoted where
  text : String
  /-- Every escape stands for a character. -/
  readable : Bool
  /-- What follows the closing quote. -/
  rest : Except Fault (List Char)

/-- The value of a hexadecimal digit. -/
def hexDigit? (c : Char) : Option Nat :=
  if c.isDigit then some (c.toNat - '0'.toNat)
  else if 'a' ≤ c ∧ c ≤ 'f' then some (c.toNat - 'a'.toNat + 10)
  else if 'A' ≤ c ∧ c ≤ 'F' then some (c.toNat - 'A'.toNat + 10)
  else none

/-- Four hexadecimal digits. They are missing when fewer than four bytes follow. -/
def hexQuad (text : List Char) : Except Fault (Nat × List Char) :=
  if (String.ofList (text.take 4)).utf8ByteSize < 4 then .error .truncated
  else
    match text with
    | a :: b :: c :: d :: rest =>
      match hexDigit? a, hexDigit? b, hexDigit? c, hexDigit? d with
      | some a, some b, some c, some d => .ok (((a * 16 + b) * 16 + c) * 16 + d, rest)
      | _, _, _, _ => .error .malformed
    | _ => .error .malformed

def isHighSurrogate (unit : Nat) : Bool := 0xD800 ≤ unit && unit ≤ 0xDBFF

def isLowSurrogate (unit : Nat) : Bool := 0xDC00 ≤ unit && unit ≤ 0xDFFF

/-- The character of two surrogates. -/
def surrogatePair (high low : Nat) : Char :=
  Char.ofNat ((high - 0xD800) * 0x400 + (low - 0xDC00) + 0x10000)

/-- The low surrogate that has to follow a high one: `ok none` when something else follows. -/
def pairedWith (text : List Char) : Except Fault (Option (Nat × List Char)) :=
  match text with
  | [] | ['\\'] => .error .truncated
  | '\\' :: 'u' :: rest => do
    let (unit, after) ← hexQuad rest
    return if isLowSurrogate unit then some (unit, after) else none
  | _ => .ok none

/-- One escape, from behind the backslash on: its character, if it stands for one. -/
def escape : List Char → Except Fault (Option Char × List Char)
  | [] => .error .truncated
  | '"' :: rest => .ok (some '"', rest)
  | '\\' :: rest => .ok (some '\\', rest)
  | '/' :: rest => .ok (some '/', rest)
  | 'b' :: rest => .ok (some '\x08', rest)
  | 'f' :: rest => .ok (some '\x0c', rest)
  | 'n' :: rest => .ok (some '\n', rest)
  | 'r' :: rest => .ok (some '\r', rest)
  | 't' :: rest => .ok (some '\t', rest)
  | 'u' :: rest => do
    let (unit, after) ← hexQuad rest
    if isHighSurrogate unit then
      match ← pairedWith after with
      | some (low, after) => return (some (surrogatePair unit low), after)
      | none => return (none, after)
    else if isLowSurrogate unit then return (none, after)
    else return (some (Char.ofNat unit), after)
  | _ :: _ => .error .malformed

/-- Four digits are followed by less text than they are read from. -/
theorem length_of_hexQuad {text rest : List Char} {unit : Nat}
    (h : hexQuad text = .ok (unit, rest)) : rest.length < text.length := by
  unfold hexQuad at h
  grind

/-- A low surrogate is followed by less text than it is read from. -/
theorem length_of_pairedWith {text rest : List Char} {unit : Nat}
    (h : pairedWith text = .ok (some (unit, rest))) : rest.length < text.length := by
  unfold pairedWith at h
  split at h
  case h_3 after =>
    cases hq : hexQuad after with
    | error fault => simp [hq, bind, Except.bind] at h
    | ok found =>
      have := length_of_hexQuad hq
      simp only [hq, bind, Except.bind, pure, Except.pure] at h
      grind
  all_goals cases h

/-- An escape is followed by less text than it is read from. -/
theorem length_of_escape {text rest : List Char} {c : Option Char}
    (h : escape text = .ok (c, rest)) : rest.length < text.length := by
  unfold escape at h
  split at h
  case h_10 after =>
    cases hq : hexQuad after with
    | error fault => simp [hq, bind, Except.bind] at h
    | ok found =>
      have := length_of_hexQuad hq
      simp only [hq, bind, Except.bind, pure, Except.pure] at h
      cases hp : pairedWith found.2 with
      | error fault =>
        rw [hp] at h
        grind
      | ok low =>
        rw [hp] at h
        cases low with
        | none => grind
        | some low =>
          have := length_of_pairedWith hp
          grind
  all_goals grind

/-- A string from behind its opening quote on; `read` holds what was read, backwards. -/
def quotedFrom (read : List Char) (readable : Bool) (text : List Char) : Quoted :=
  match text with
  | [] => ⟨"", readable, .error .truncated⟩
  | '"' :: rest => ⟨String.ofList read.reverse, readable, .ok rest⟩
  | '\\' :: rest =>
    match _h : escape rest with
    | .error fault => ⟨"", readable, .error fault⟩
    | .ok (some c, after) => quotedFrom (c :: read) readable after
    | .ok (none, after) => quotedFrom read false after
  | c :: rest =>
    if c.toNat < 0x20 then ⟨"", readable, .error .malformed⟩
    else quotedFrom (c :: read) readable rest
termination_by text.length
decreasing_by
  · have := length_of_escape _h
    grind
  · have := length_of_escape _h
    grind
  · simp

/-- A string from behind its opening quote on. -/
def quoted (text : List Char) : Quoted := quotedFrom [] true text

/-! ## Values -/

/-- The rest of a text behind a word. -/
def afterWord : List Char → List Char → Except Fault (List Char)
  | [], rest => .ok rest
  | _ :: _, [] => .error .truncated
  | c :: word, d :: rest => if c = d then afterWord word rest else .error .malformed

/-- A value that is a word. -/
def word (value : Json) (spelling : String) (text : List Char) : Json × Option (List Char) :=
  match afterWord spelling.toList text with
  | .ok rest => (value, some rest)
  | .error fault => (stop fault, none)

/-- A value that is a numeral, from behind its sign on. -/
def numeralValue (negative : Bool) (text : List Char) : Json × Option (List Char) :=
  match numeral negative text with
  | .ok (.number n, rest) => (.number n, some rest)
  | .ok (.outOfRange, rest) => (.broken .malformed none, some rest)
  | .error fault => (stop fault, none)

/-- A value that is a string, from behind its opening quote on. -/
def stringValue (text : List Char) : Json × Option (List Char) :=
  let string := quoted text
  match string.rest with
  | .ok rest =>
    (if string.readable then .string string.text else .broken .malformed none, some rest)
  | .error fault => (.broken (if string.readable then fault else .malformed) (some fault), none)

/-- A member with what was read in the place of its name. -/
def member (name value : Json) : String × Json :=
  match name with
  | .string text => (text, value)
  | .broken fault _ => ("", .nameless fault value.faultSkipping)
  | _ => ("", .nameless .malformed value.faultSkipping)

/-- A place where no member begins ends its object. -/
def stopMember (fault : Fault) : List (String × Json) × Option (List Char) :=
  ([("", .nameless fault (some fault))], none)

mutual

/-- A value and the rest of the text, if it goes on. -/
def valueFrom : Nat → List Char → Json × Option (List Char)
  | 0, _ => (stop .malformed, none)
  | fuel + 1, text =>
    match skipBlank text with
    | [] => (stop .truncated, none)
    | 'n' :: rest => word .null "ull" rest
    | 't' :: rest => word (.bool true) "rue" rest
    | 'f' :: rest => word (.bool false) "alse" rest
    | '"' :: rest => stringValue rest
    | '-' :: rest => numeralValue true rest
    | '[' :: rest =>
      let (items, after) := itemsFrom fuel true rest
      (.array items, after)
    | '{' :: rest =>
      let (members, after) := membersFrom fuel true rest
      (.object members, after)
    | c :: rest => if c.isDigit then numeralValue false (c :: rest) else (stop .malformed, none)

/-- The items of an array from here to its end; `first` before the first one. -/
def itemsFrom : Nat → Bool → List Char → List Json × Option (List Char)
  | 0, _, _ => ([stop .malformed], none)
  | fuel + 1, first, text =>
    match skipBlank text with
    | [] => ([stop .truncated], none)
    | ']' :: rest => ([], some rest)
    | ',' :: rest =>
      if first then ([stop .malformed], none)
      else
        match skipBlank rest with
        | ']' :: _ => ([stop .malformed], none)
        | _ => itemFrom fuel rest
    | rest => if first then itemFrom fuel rest else ([stop .malformed], none)

/-- One item of an array, and those behind it. -/
def itemFrom : Nat → List Char → List Json × Option (List Char)
  | 0, _ => ([stop .malformed], none)
  | fuel + 1, text =>
    match valueFrom fuel text with
    | (value, none) => ([value], none)
    | (value, some rest) =>
      let (items, after) := itemsFrom fuel false rest
      (value :: items, after)

/-- The members of an object from here to its end; `first` before the first one. -/
def membersFrom : Nat → Bool → List Char → List (String × Json) × Option (List Char)
  | 0, _, _ => stopMember .malformed
  | fuel + 1, first, text =>
    match skipBlank text with
    | [] => stopMember .truncated
    | '}' :: rest => ([], some rest)
    | ',' :: rest =>
      if first then stopMember .malformed
      else
        match skipBlank rest with
        | [] => stopMember .truncated
        | '"' :: rest => memberFrom fuel rest
        | _ => stopMember .malformed
    | '"' :: rest => if first then memberFrom fuel rest else stopMember .malformed
    | _ => stopMember .malformed

/-- One member of an object, from behind the opening quote of its name on, and those behind it. -/
def memberFrom : Nat → List Char → List (String × Json) × Option (List Char)
  | 0, _ => stopMember .malformed
  | fuel + 1, text =>
    match stringValue text with
    | (name, none) => ([member name name], none)
    | (name, some rest) =>
      match skipBlank rest with
      | [] => ([member name (stop .truncated)], none)
      | ':' :: rest =>
        match valueFrom fuel rest with
        | (value, none) => ([member name value], none)
        | (value, some rest) =>
          let (members, after) := membersFrom fuel false rest
          (member name value :: members, after)
      | _ => ([member name (stop .malformed)], none)

end

/-- A text: its tree, and whether nothing but white space follows it. -/
structure Text where
  value : Json
  ended : Bool

/-- The tree of a text. No step goes down more than three calls for a character. -/
def read (text : String) : Text :=
  let chars := text.toList
  match valueFrom (3 * chars.length + 3) chars with
  | (value, none) => ⟨value, true⟩
  | (value, some rest) => ⟨value, (skipBlank rest).isEmpty⟩

end MaterialLowering.Json
