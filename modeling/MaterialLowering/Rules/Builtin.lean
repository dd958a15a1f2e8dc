import MaterialLowering.Rules.Basic

/-!
# The built-in rules

The table that is used where no other is given: shaders, coordinates, and the color nodes that
are a small fixed graph of native nodes.
-/

namespace MaterialLowering

namespace RuleTable.Builtin

/-- A sub-node without a warning. -/
def plain (type : RuleType) (params : List (String × ValueSource)) : SubNodeRule :=
  ⟨type, params, none⟩

def bsdfDiffuse : NodeRules := .ofList
  [("BSDF", plain (.native .diffuse)
      [("color", .input "Color"), ("roughness", .input "Roughness"), ("normal", .link "Normal")])]

def bsdfGlossy : NodeRules := .ofList
  [("BSDF", plain (.native .microfacet)
      [("color", .input "Color"), ("roughness", .input "Roughness"), ("normal", .link "Normal")])]

def bsdfGlass : NodeRules := .ofList
  [("BSDF", ⟨.native .microfacetRefraction,
      [("color", .input "Color"), ("roughness", .input "Roughness"),
        ("normal", .link "Normal"), ("ior", .input "IOR")],
      some "Glass BSDF is approximated by a refraction BSDF"⟩)]

def bsdfRefraction : NodeRules := .ofList
  [("BSDF", plain (.native .microfacetRefraction)
      [("color", .input "Color"), ("roughness", .input "Roughness"),
        ("normal", .link "Normal"), ("ior", .input "IOR")])]

def bsdfTranslucent : NodeRules := .ofList
  [("BSDF", plain (.native .diffuseRefraction)
      [("color", .input "Color"), ("normal", .link "Normal")])]

def bsdfTransparent : NodeRules := .ofList
  [("BSDF", plain (.native .transparent)
      [("color", .input "Color")])]

def bsdfAnisotropic : NodeRules := .ofList
  [("BSDF", plain (.native .microfacetAnisotropicReflection)
      [("color", .input "Color"), ("roughness", .input "Roughness"),
        ("anisotropic", .input "Anisotropy"), ("rotation", .input "Rotation"),
        ("normal", .link "Normal")])]

def bsdfVelvet : NodeRules := .ofList
  [("BSDF", plain (.native .uber)
      [("uber.diffuse_color", .input "Color"), ("uber.diffuse_weight", .input "Sigma"),
        ("uber.diffuse_normal", .link "Normal"),
        ("uber.reflection_weight", .literal (.scalar .zero)),
        ("uber.sheen_weight", .literal (.scalar .one)), ("uber.sheen_tint", .input "Sigma"),
        ("uber.sheen", .input "Color")])]

def emission : NodeRules := .ofList
  [("emission_color", plain (.fold .mul)
      [("color0", .input "Color"), ("color1", .input "Strength")]),
    ("emission_node", plain (.native .emissive)
      [("color", .node "emission_color")]),
    ("Emission", plain (.native .twosided)
      [("frontface", .node "emission_node"), ("backface", .node "emission_node")])]

def fresnel : NodeRules := .ofList
  [("Fac", plain (.native .fresnel)
      [("ior", .input "IOR"), ("normal", .link "Normal")])]

def gamma : NodeRules := .ofList
  [("Color", plain (.fold .pow)
      [("color0", .input "Color"), ("color1", .input "Gamma")])]

def invert : NodeRules := .ofList
  [("invert", plain (.fold .sub)
      [("color0", .literal (.scalar .one)), ("color1", .input "Color")]),
    ("Color", plain (.fold .blend)
      [("color0", .input "Color"), ("color1", .node "invert"), ("weight", .input "Fac")])]

def texCoord : NodeRules := .ofList
  [("Generated", ⟨.native (.inputLookup .uv), [],
      some "Texture Coordinate 'Generated' output is not supported, UV is used instead"⟩),
    ("Normal", plain (.native (.inputLookup .normal)) []),
    ("UV", plain (.native (.inputLookup .uv)) []),
    ("Object", ⟨.native (.inputLookup .position), [],
      some "Texture Coordinate 'Object' output is not supported, world position is used instead"⟩)]

def newGeometry : NodeRules := .ofList
  [("Position", plain (.native (.inputLookup .position)) []),
    ("Normal", plain (.native (.inputLookup .normal)) []),
    ("invec", plain (.native (.inputLookup .incoming)) []),
    ("Incoming", plain (.fold .mul)
      [("color0", .literal (.scalar (-.one))), ("color1", .node "invec")])]

def subsurfaceScattering : NodeRules := .ofList
  [("radius_scale", plain (.fold .mul)
      [("color0", .input "Scale"), ("color1", .input "Radius")]),
    ("radius", plain (.fold .max)
      [("color0", .node "radius_scale"), ("color1", .literal (.scalar (.ofRatio 1 10000)))]),
    ("BSSRDF", plain (.native .uber)
      [("uber.diffuse_weight", .literal (.scalar .one)),
        ("uber.reflection_weight", .literal (.scalar .zero)),
        ("uber.backscatter_weight", .literal (.scalar .one)),
        ("uber.backscatter_color", .literal (.vector [.one, .one, .one, .one])),
        ("uber.sss_weight", .literal (.scalar .one)),
        ("uber.sss_scatter_color", .input "Color"),
        ("uber.sss_scatter_distance", .node "radius"), ("uber.diffuse_normal", .link "Normal")])]

end RuleTable.Builtin

namespace RuleTable

open Builtin

/-- The built-in table (`RuleSet.builtin`). -/
def builtin : RuleTable := .ofList
  [(.bsdfDiffuse, bsdfDiffuse),
    (.bsdfGlossy, bsdfGlossy),
    (.bsdfGlass, bsdfGlass),
    (.bsdfRefraction, bsdfRefraction),
    (.bsdfTranslucent, bsdfTranslucent),
    (.bsdfTransparent, bsdfTransparent),
    (.bsdfAnisotropic, bsdfAnisotropic),
    (.bsdfVelvet, bsdfVelvet),
    (.emission, emission),
    (.fresnel, fresnel),
    (.gamma, gamma),
    (.invert, invert),
    (.texCoord, texCoord),
    (.newGeometry, newGeometry),
    (.subsurfaceScattering, subsurfaceScattering)]

end RuleTable

end MaterialLowering
