import MaterialLowering.Json.Decode
import MaterialLowering.Rules.Basic

/-!
# Checking rule tables

A table is accepted when every reference names a sub-node of the same entry and no sub-node
depends on itself. Entries are checked one after another, first their references, then, by a
depth-first search, their cycles.

Main definitions:

* `RuleTable.check`: the check.
* `NodeRules.search`: the search from one sub-node, which remembers what it is done with.
-/

namespace MaterialLowering

/-- Why there is no rule table. -/
inductive RuleError where
  | unreadable (path : String)
  | refused (refusal : Refusal)
  | unknownSubNode (kind subNode reference : String)
  | cyclicSubNodes (kind subNode : String)
  deriving DecidableEq

def RuleError.message : RuleError → String
  | .unreadable path => "failed to read rule file '" ++ path ++ "'"
  | .refused _ => "malformed rule data"
  | .unknownSubNode kind subNode reference =>
    "rule '" ++ kind ++ "." ++ subNode ++ "' references unknown sub-node '" ++ reference ++ "'"
  | .cyclicSubNodes kind subNode =>
    "rule '" ++ kind ++ "' has a sub-node cycle through '" ++ subNode ++ "'"

namespace NodeRules

/-- The first reference to a sub-node that is not there, with the sub-node that makes it. -/
def danglingReference? (rules : NodeRules) : Option (String × String) :=
  rules.entries.findSome? fun (name, rule) =>
    (rule.references.find? fun reference => !rules.contains reference).map fun reference =>
      (name, reference)

/-- Depth-first search from a sub-node (`check_acyclic`). `path` is how it was reached and `done`
what cannot reach a cycle; the answer is what is done now, or a sub-node that was reached from
itself. -/
def search (rules : NodeRules) :
    Nat → List String → List String → String → Except String (List String)
  | 0, _, _, name => .error name
  | fuel + 1, path, done, name =>
    if name ∈ done then .ok done
    else if name ∈ path then .error name
    else do
      let done ← (rules.references name).foldlM (search rules fuel (name :: path)) done
      return name :: done

/-- The search from every sub-node. A path holds no sub-node twice, so it is never longer than the
entry. -/
def searchAll (rules : NodeRules) : Except String (List String) :=
  rules.keys.foldlM (search rules (rules.size + 1) []) []

/-- Checks the entry of a kind, as `validate` does. -/
def check (kind : HostKind) (rules : NodeRules) : Except RuleError Unit :=
  match rules.danglingReference? with
  | some (name, reference) => .error (.unknownSubNode kind.id name reference)
  | none =>
    match rules.searchAll with
    | .ok _ => .ok ()
    | .error name => .error (.cyclicSubNodes kind.id name)

end NodeRules

namespace RuleTable

/-- Checks every entry (`validate`). -/
def check (table : RuleTable) : Except RuleError Unit :=
  table.entries.forM fun (kind, rules) => rules.check kind

end RuleTable

end MaterialLowering
