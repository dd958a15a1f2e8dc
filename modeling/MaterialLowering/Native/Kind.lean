import MaterialLowering.Native.Operator

/-!
# Kinds of native nodes

The nodes that the renderer's graph is made of, and the names that rule files give them.

Main results:

* `NativeKind.ofName_name` — the name of a kind names it.
-/

namespace MaterialLowering

/-- A geometric quantity that a lookup node reads. -/
inductive Lookup where
  | uv
  | normal
  | position
  | incoming
  deriving DecidableEq, Repr

/-- The kind of a native node (`NativeNodeKind`). -/
inductive NativeKind where
  | diffuse
  | reflection
  | microfacet
  | microfacetRefraction
  | microfacetAnisotropicReflection
  | diffuseRefraction
  | transparent
  | emissive
  | twosided
  | fresnel
  | uber
  | blend
  | blendValue
  | add
  | arithmetic (op : Operator)
  | imageTexture
  | checkerTexture
  | inputLookup (quantity : Lookup)
  | normalMap
  | bumpMap
  | passthrough
  deriving DecidableEq, Repr

/-- A name that stands for no native kind. -/
inductive NativeKind.NameError where
  | kind (name : String)
  | operator (name : String)
  deriving DecidableEq, Repr

def NativeKind.NameError.message : NativeKind.NameError → String
  | .kind name => "unknown native node kind '" ++ name ++ "'"
  | .operator name => "unknown arithmetic operator '" ++ name ++ "'"

/-- The text behind a fixed beginning, if the text begins so. -/
def behind? (start text : String) : Option String :=
  (start.toList.isPrefixOf? text.toList).map String.ofList

namespace Lookup

def all : List Lookup := [.uv, .normal, .position, .incoming]

def name : Lookup → String
  | .uv => "uv"
  | .normal => "normal"
  | .position => "position"
  | .incoming => "incoming"

end Lookup

namespace NativeKind

/-- The kinds without an operator or a quantity. -/
def plain : List NativeKind :=
  [.diffuse, .reflection, .microfacet, .microfacetRefraction, .microfacetAnisotropicReflection,
   .diffuseRefraction, .transparent, .emissive, .twosided, .fresnel, .uber, .blend,
   .blendValue, .add, .imageTexture, .checkerTexture, .normalMap, .bumpMap, .passthrough]

/-- What the names of arithmetic kinds begin with. -/
def arithmeticStart : String := "arithmetic."

/-- The name of a kind (`NativeNodeKind.rule_name`). -/
def name : NativeKind → String
  | .diffuse => "diffuse"
  | .reflection => "reflection"
  | .microfacet => "microfacet"
  | .microfacetRefraction => "microfacet_refraction"
  | .microfacetAnisotropicReflection => "microfacet_anisotropic_reflection"
  | .diffuseRefraction => "diffuse_refraction"
  | .transparent => "transparent"
  | .emissive => "emissive"
  | .twosided => "twosided"
  | .fresnel => "fresnel"
  | .uber => "uber"
  | .blend => "blend"
  | .blendValue => "blend_value"
  | .add => "add"
  | .arithmetic op => arithmeticStart ++ op.name
  | .imageTexture => "image_texture"
  | .checkerTexture => "checker_texture"
  | .inputLookup quantity => "lookup_" ++ quantity.name
  | .normalMap => "normal_map"
  | .bumpMap => "bump_map"
  | .passthrough => "passthrough"

/-- The kinds that are not arithmetic. -/
def named : List NativeKind := plain ++ Lookup.all.map .inputLookup

/-- The kind of a name (`NativeNodeKind.from_str`). -/
def ofName (name : String) : Except NameError NativeKind :=
  match behind? arithmeticStart name with
  | some operator =>
    match Operator.ofName? operator with
    | some op => .ok (.arithmetic op)
    | none => .error (.operator operator)
  | none =>
    match named.find? fun kind => kind.name = name with
    | some kind => .ok kind
    | none => .error (.kind name)

theorem ofName_name (kind : NativeKind) : ofName kind.name = .ok kind := by
  cases kind with
  | arithmetic op => cases op <;> rfl
  | inputLookup quantity => cases quantity <;> rfl
  | _ => rfl

end NativeKind

end MaterialLowering
