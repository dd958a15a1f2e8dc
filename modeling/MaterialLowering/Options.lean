import MaterialLowering.Json.Decode
import MaterialLowering.Json.Writer

/-!
# Options

What a user sets: which fallback a failed material gets, and a file of rules to use in place of
the built-in ones.
-/

namespace MaterialLowering

open Json

/-- What a user sets (`TranslateOptions`). -/
structure Options where
  /-- A failed material shows as a magenta light in place of neutral gray. -/
  showErrors : Bool := false
  /-- Where the rules are. -/
  rulesPath : Option String := none
  deriving DecidableEq

namespace Options

def encode (options : Options) : Json :=
  .object [("show_errors", .bool options.showErrors),
    ("rules_path", (options.rulesPath.map Json.string).getD .null)]

private inductive Field where
  | showErrors (flag : Bool)
  | rulesPath (path : Option String)

private def fieldDecoders : Fields Field :=
  [("show_errors", fun value => .showErrors <$> value.asBool),
    ("rules_path", fun value => .rulesPath <$> value.asOption asString)]

def decode (value : Json) : Except Refusal Options := do
  let fields ← fields fieldDecoders unended value
  let showErrors := fields.findSome? fun | .showErrors flag => some flag | _ => none
  let rulesPath := fields.findSome? fun | .rulesPath path => some path | _ => none
  return { showErrors := showErrors.getD false, rulesPath := rulesPath.join }

/-- The options of a text (`TranslateOptions.from_json_str`); what it does not set is as it is by
default. -/
def ofText (text : String) : Except Refusal Options := decodeText decode text

/-- The options as a text on one line. -/
def toText (options : Options) : String := options.encode.compact

end Options

end MaterialLowering
