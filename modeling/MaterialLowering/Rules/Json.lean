import MaterialLowering.Json.Writer
import MaterialLowering.Rules.Check

/-!
# Rule tables as JSON

A table is an object of entries, an entry an object of sub-nodes. Of several entries for a kind,
sub-nodes or parameters of a name the last one counts; a parameter keeps its first place.
-/

namespace MaterialLowering

open Json

namespace ValueSource

/-- The message for a text that is no source. -/
def refused (text : String) : Refusal := .named ("invalid value source '" ++ text ++ "'")

def encode : ValueSource → Json
  | .literal value => value.encode
  | source => .string source.shown

/-- A source inside `depth` containers: a literal, or the text of another source. -/
def decode (depth : Nat) (value : Json) : Except Refusal ValueSource := do
  value.whole depth
  match value with
  | .string text =>
    match ofText? text with
    | some source => return source
    | none => throw (refused text)
  | other => return .literal (← Literal.ofJson other)

end ValueSource

namespace RuleType

def encode (type : RuleType) : Json := .string type.name

def decode (value : Json) : Except Refusal RuleType := do
  match ofName (← value.asString) with
  | .ok type => return type
  | .error unknown => throw (.named unknown.message)

end RuleType

namespace SubNodeRule

/-- The list with `value` for `name`, in the place that the name has already. -/
def putInPlace (name : String) (value : α) : List (String × α) → List (String × α)
  | [] => [(name, value)]
  | (n, v) :: rest => if n = name then (n, value) :: rest else (n, v) :: putInPlace name value rest

/-- A parameter is inside four containers: its object, the sub-node, the entry and the table. -/
def paramDepth : Nat := 4

def encode (rule : SubNodeRule) : Json :=
  .object ([("type", rule.type.encode),
    ("params", .object (rule.params.map fun (name, source) => (name, source.encode)))] ++
    (rule.warn.map fun message => ("warn", Json.string message)).toList)

/-- A field of the record. -/
inductive Field where
  | type (type : RuleType)
  | params (params : List (String × ValueSource))
  | warn (message : Option String)

def decodeParams (value : Json) : Except Refusal (List (String × ValueSource)) := do
  let entries ← value.asEntries (ValueSource.decode paramDepth)
  return entries.foldl (fun params (name, source) => putInPlace name source params) []

def fieldDecoders : Fields Field :=
  [("type", fun value => .type <$> RuleType.decode value),
    ("params", fun value => .params <$> decodeParams value),
    ("warn", fun value => .warn <$> value.asOption asString)]

def decode (value : Json) : Except Refusal SubNodeRule := do
  let fields ← fields fieldDecoders unended value
  let type ← required (fields.findSome? fun | .type type => some type | _ => none)
  let params := fields.findSome? fun | .params params => some params | _ => none
  let warn := fields.findSome? fun | .warn message => some message | _ => none
  return { type, params := params.getD [], warn := warn.join }

end SubNodeRule

namespace NodeRules

def encode (rules : NodeRules) : Json :=
  .object (rules.entries.map fun (name, rule) => (name, rule.encode))

def decode (value : Json) : Except Refusal NodeRules :=
  SortedMap.ofList <$> value.asEntries SubNodeRule.decode

end NodeRules

namespace RuleTable

def encode (table : RuleTable) : Json :=
  .object (table.entries.map fun (kind, rules) => (kind.id, NodeRules.encode rules))

def decode (value : Json) : Except Refusal RuleTable := do
  let entries ← value.asEntries NodeRules.decode
  return .ofList (entries.map fun (id, rules) => (.ofId id, rules))

/-- The table of a text, if it is accepted (`RuleSet.from_json_str`). -/
def ofText (text : String) : Except RuleError RuleTable := do
  let table ← (decodeText decode text).mapError .refused
  table.check
  return table

/-- The table as a text, one member on a line (`RuleSet.to_json_string`). -/
def toText (table : RuleTable) : String := (encode table).pretty

end RuleTable

end MaterialLowering
