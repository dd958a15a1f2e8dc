/-!
# Kinds of host nodes

A host names the kind of a node by an identifier. The kinds that have a meaning here are listed;
any other identifier is kept as it is.

Main results:

* `HostKind.id_ofId` — the identifier of a kind read from an identifier is that identifier.
-/

namespace MaterialLowering

/-- The kind of a node in a host graph (`NodeKind`). -/
inductive HostKind where
  | outputMaterial
  | reroute
  | group
  | groupInput
  | groupOutput
  | math
  | vectorMath
  | mixRgb
  | mixShader
  | addShader
  | texImage
  | texChecker
  | value
  | rgb
  | combineXyz
  | combineRgb
  | separateXyz
  | separateRgb
  | rgbToBw
  | brightContrast
  | bump
  | normalMap
  | lightFalloff
  | bsdfDiffuse
  | bsdfGlossy
  | bsdfGlass
  | bsdfRefraction
  | bsdfTranslucent
  | bsdfTransparent
  | bsdfAnisotropic
  | bsdfVelvet
  | emission
  | fresnel
  | gamma
  | invert
  | texCoord
  | newGeometry
  | subsurfaceScattering
  | unknown (id : String)
  deriving DecidableEq, Repr

namespace HostKind

/-- The kinds that are not unknown, in their order. -/
def known : List HostKind :=
  [.outputMaterial, .reroute, .group, .groupInput, .groupOutput, .math, .vectorMath, .mixRgb,
   .mixShader, .addShader, .texImage, .texChecker, .value, .rgb, .combineXyz, .combineRgb,
   .separateXyz, .separateRgb, .rgbToBw, .brightContrast, .bump, .normalMap, .lightFalloff,
   .bsdfDiffuse, .bsdfGlossy, .bsdfGlass, .bsdfRefraction, .bsdfTranslucent, .bsdfTransparent,
   .bsdfAnisotropic, .bsdfVelvet, .emission, .fresnel, .gamma, .invert, .texCoord,
   .newGeometry, .subsurfaceScattering]

/-- The identifier of a kind (`NodeKind.host_id`). -/
def id : HostKind → String
  | .outputMaterial => "ShaderNodeOutputMaterial"
  | .reroute => "NodeReroute"
  | .group => "ShaderNodeGroup"
  | .groupInput => "NodeGroupInput"
  | .groupOutput => "NodeGroupOutput"
  | .math => "ShaderNodeMath"
  | .vectorMath => "ShaderNodeVectorMath"
  | .mixRgb => "ShaderNodeMixRGB"
  | .mixShader => "ShaderNodeMixShader"
  | .addShader => "ShaderNodeAddShader"
  | .texImage => "ShaderNodeTexImage"
  | .texChecker => "ShaderNodeTexChecker"
  | .value => "ShaderNodeValue"
  | .rgb => "ShaderNodeRGB"
  | .combineXyz => "ShaderNodeCombineXYZ"
  | .combineRgb => "ShaderNodeCombineRGB"
  | .separateXyz => "ShaderNodeSeparateXYZ"
  | .separateRgb => "ShaderNodeSeparateRGB"
  | .rgbToBw => "ShaderNodeRGBToBW"
  | .brightContrast => "ShaderNodeBrightContrast"
  | .bump => "ShaderNodeBump"
  | .normalMap => "ShaderNodeNormalMap"
  | .lightFalloff => "ShaderNodeLightFalloff"
  | .bsdfDiffuse => "ShaderNodeBsdfDiffuse"
  | .bsdfGlossy => "ShaderNodeBsdfGlossy"
  | .bsdfGlass => "ShaderNodeBsdfGlass"
  | .bsdfRefraction => "ShaderNodeBsdfRefraction"
  | .bsdfTranslucent => "ShaderNodeBsdfTranslucent"
  | .bsdfTransparent => "ShaderNodeBsdfTransparent"
  | .bsdfAnisotropic => "ShaderNodeBsdfAnisotropic"
  | .bsdfVelvet => "ShaderNodeBsdfVelvet"
  | .emission => "ShaderNodeEmission"
  | .fresnel => "ShaderNodeFresnel"
  | .gamma => "ShaderNodeGamma"
  | .invert => "ShaderNodeInvert"
  | .texCoord => "ShaderNodeTexCoord"
  | .newGeometry => "ShaderNodeNewGeometry"
  | .subsurfaceScattering => "ShaderNodeSubsurfaceScattering"
  | .unknown id => id

/-- The kind of an identifier (`NodeKind.from_host_id`). -/
def ofId (id : String) : HostKind :=
  (known.find? fun kind => kind.id = id).getD (.unknown id)

theorem id_ofId (id : String) : (ofId id).id = id := by
  unfold ofId
  cases h : known.find? fun kind => kind.id = id with
  | none => rfl
  | some kind => simpa using List.find?_some h

/-- The place of a kind in the order of kinds: unknown kinds come last. -/
def rank (kind : HostKind) : Nat := known.idxOf kind

/-- Kinds are ordered by rank, unknown kinds among themselves by identifier. -/
instance : Ord HostKind := ⟨compareLex (compareOn rank) (compareOn id)⟩

instance : Std.TransOrd HostKind :=
  inferInstanceAs (Std.TransCmp (compareLex (compareOn rank) (compareOn id)))

/-- Kinds whose nodes only hand on a value, whatever it carries: their links are not typed. -/
def isTypeless : HostKind → Bool
  | .reroute | .groupInput => true
  | _ => false

end HostKind

end MaterialLowering
