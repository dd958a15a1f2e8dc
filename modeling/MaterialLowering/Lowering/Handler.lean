import MaterialLowering.Lowering.Input

/-!
# Handlers

Kinds of nodes whose meaning hangs on their properties or on the values of their inputs. A
handler is the plan of such a node's outputs.
-/

namespace MaterialLowering

open Numeric (Single)

/-- The plan of an output of a node. -/
abbrev Handler := HostGraph → NodeId → String → Plan Value

/-- Magenta: shown for what went wrong. -/
def errorColor : Lanes := ⟨.one, .zero, .one, .one⟩

/-- Gray: shown for a material that could not be lowered. -/
def fallbackColor : Lanes := ⟨Folding.half, Folding.half, Folding.half, .one⟩

namespace Handler

/-- The failure of an operation that the node has and that is not supported (`unsupported`). -/
def unsupported (g : HostGraph) (node : NodeId) (operation : String) : Plan α :=
  .fail (.unsupportedOperation (g.label node) operation)

/-- The value, moved into `[0, 1]` if the node says so. -/
def clamped (g : HostGraph) (node : NodeId) (value : Value) : Plan Value :=
  if g.flag node "use_clamp" then Emission.clamp value else return value

/-! ## Material output -/

/-- The surface has to be a shader (`material_output`). Volumes are not lowered: a material with
nothing but a volume gets a clear surface. -/
def materialOutput : Handler := fun g node _ => do
  let surface ← Plan.inputLink g node (.name "Surface")
  match surface with
  | .node _ => return surface
  | .unset =>
    if g.hasLink node (.name "Volume") then
      Plan.say (.volumeIgnored (g.label node))
      Plan.node .transparent [("color", .vec4 .one .one .one .one)]
    else Plan.fail (.missingRequiredLink (g.label node) "Surface")
  | _ => Plan.fail (.invalidLink (g.label node) "Surface")

/-! ## Math -/

/-- The operator of the host's name for it (`math_op`). -/
def mathOperator? : String → Option Operator
  | "ADD" => some .add
  | "SUBTRACT" => some .sub
  | "MULTIPLY" => some .mul
  | "DIVIDE" => some .div
  | "POWER" => some .pow
  | "LOGARITHM" => some .log
  | "MINIMUM" => some .min
  | "MAXIMUM" => some .max
  | "LESS_THAN" => some .lower
  | "GREATER_THAN" => some .greater
  | "MODULO" => some .mod
  | "ABSOLUTE" => some .abs
  | "FLOOR" => some .floor
  | "SINE" => some .sin
  | "COSINE" => some .cos
  | "TANGENT" => some .tan
  | "ARCSINE" => some .asin
  | "ARCCOSINE" => some .acos
  | "ARCTANGENT" => some .atan
  | _ => none

/-- The second operand is read only by an operation that has one. -/
def mathResult (g : HostGraph) (node : NodeId) (operation : String) (a : Value) :
    Plan Value :=
  match operation with
  | "FRACT" => Emission.fract a
  | "CEIL" => Emission.ceil a
  | "ROUND" => Emission.round a
  | _ => do
    match mathOperator? operation with
    | none => unsupported g node operation
    | some op =>
      let b ← if 1 < op.arity then Plan.input g node (.index 1) else pure .unset
      Emission.apply op a b

/-- A math node: an operation on one or two numbers (`math`). -/
def math : Handler := fun g node _ => do
  let a ← Plan.input g node (.index 0)
  let result ← mathResult g node (g.text node "operation" "ADD") a
  clamped g node result

def vectorResult (g : HostGraph) (node : NodeId) (operation : String) (a : Value) :
    Plan Value := do
  let withSecond := fun (op : Operator) => do
    let b ← Plan.input g node (.index 1)
    (Emission.binary op a b : Plan Value)
  match operation with
  | "NORMALIZE" => Emission.unary .normalize3 a
  | "LENGTH" => Emission.unary .length3 a
  | "ADD" => withSecond .add
  | "SUBTRACT" => withSecond .sub
  | "AVERAGE" => withSecond .average
  | "DOT_PRODUCT" => withSecond .dot3
  | "CROSS_PRODUCT" => withSecond .cross3
  | _ => unsupported g node operation

/-- The output `Value` is the gray of the result (`vector_math`). -/
def vectorMath : Handler := fun g node output => do
  let a ← Plan.input g node (.index 0)
  let result ← vectorResult g node (g.text node "operation" "ADD") a
  if output = "Value" then Emission.toBw result else return result

/-! ## Mixing -/

/-- What a second color is mixed in as; nothing for a way of mixing that is not supported. -/
def mixResult (fac color1 color2 : Value) (blend : String) : Option (Emission Value) :=
  let mixed := fun (mix : Emission Value) => some do
    let mixed ← mix
    Emission.blend fac color1 mixed
  match blend with
  | "MIX" | "COLOR" => some (Emission.blend fac color1 color2)
  | "ADD" => mixed (Emission.add color1 color2)
  | "MULTIPLY" => mixed (Emission.mul color1 color2)
  | "SUBTRACT" => mixed (Emission.sub color1 color2)
  | "DIVIDE" => mixed (Emission.div color1 color2)
  | "DIFFERENCE" => mixed do
    let difference ← Emission.sub color1 color2
    Emission.unary .abs difference
  | "DARKEN" => mixed (Emission.min color1 color2)
  | "LIGHTEN" => mixed (Emission.max color1 color2)
  | "VALUE" => some (pure color1)
  | _ => none

/-- A node that mixes colors (`mix_rgb`). -/
def mixRgb : Handler := fun g node _ => do
  let fac ← Plan.input g node (.name "Fac")
  let color1 ← Plan.input g node (.name "Color1")
  let color2 ← Plan.input g node (.name "Color2")
  let blend := g.text node "blend_type" "MIX"
  match mixResult fac color1 color2 blend with
  | some emission =>
    let result ← (emission : Plan Value)
    clamped g node result
  | none =>
    Plan.say (.blendIgnored blend node)
    return .unset

/-- Both branches are read (`mix_shader`). A missing branch or a factor of exactly zero or one
decides, and only otherwise is there a node that blends. -/
def mixShader : Handler := fun g node _ => do
  let factor ← Plan.input g node (.name "Fac")
  let shader1 ← Plan.inputLink g node (.index 1)
  let shader2 ← Plan.inputLink g node (.index 2)
  match shader1, shader2 with
  | .unset, .unset => Plan.fail (.missingRequiredLink (g.label node) "Shader")
  | .unset, shader | shader, .unset => return shader
  | _, _ =>
    if factor.isSplat .zero then return shader1
    else if factor.isSplat .one then return shader2
    else Plan.node .blend [("weight", factor), ("color0", shader1), ("color1", shader2)]

/-- Both branches are read, and added if both are there (`add_shader`). -/
def addShader : Handler := fun g node _ => do
  let shader1 ← Plan.inputLink g node (.index 0)
  let shader2 ← Plan.inputLink g node (.index 1)
  match shader1, shader2 with
  | .unset, shader | shader, .unset => return shader
  | _, _ => Plan.node .add [("color0", shader1), ("color1", shader2)]

/-! ## Textures -/

/-- What stands for an image that is not there (`error_value`). -/
def errorValue (output : String) : Value :=
  if output = "Alpha" then .scalar errorColor.w else .constant errorColor

/-- The descriptor of a node's image. Settings without a counterpart are reported. -/
def imageDescriptor (g : HostGraph) (node : NodeId) (name : String) :
    Plan ImageDescriptor := do
  let extension := g.text node "extension" "REPEAT"
  let wrap ← match WrapMode.ofExtension? extension with
    | some wrap => pure wrap
    | none => do
      Plan.say (.extensionUnknown extension)
      pure .repeat
  let interpolation := g.text node "interpolation" "Linear"
  if interpolation ≠ "Linear" then Plan.say (.interpolationIgnored interpolation)
  let projection := g.text node "projection" "FLAT"
  if projection ≠ "FLAT" then Plan.say (.projectionIgnored projection)
  return { name, wrap }

/-- A node without an image, or whose image cannot be loaded, has the error color, and its
coordinates are not read (`tex_image`). -/
def texImage : Handler := fun g node output => do
  match (g.property node "image").bind Property.asText with
  | none => return errorValue output
  | some name =>
    let descriptor ← imageDescriptor g node name
    match ← (Plan.image descriptor .done : Plan (Option ImageHandle)) with
    | none =>
      Plan.say (.imageMissing (g.label node) descriptor)
      return errorValue output
    | some image =>
      let uv ← Plan.optionalLink g node "Vector"
      let texture ← Plan.node .imageTexture [("data", .image image), ("uv", uv)]
      if output = "Alpha" then Emission.select texture 3 else return texture

/-- How many times denser the native checker is tiled. -/
def checkerDensity : Nat := 8

/-- Without coordinates the surface's own are looked up (`tex_checker`). -/
def texChecker : Handler := fun g node output => do
  let scale ← Plan.input g node (.name "Scale")
  let scale ← Emission.mul scale (.scalar (.ofRatio 1 checkerDensity))
  let linked ← Plan.optionalLink g node "Vector"
  let vector ← if linked.isUnset then Plan.node (.inputLookup .uv) [] else pure linked
  let uv ← Emission.mul scale vector
  let checker ← Plan.node .checkerTexture [("uv", uv)]
  if output = "Fac" then return checker
  else do
    let color1 ← Plan.input g node (.name "Color1")
    let color2 ← Plan.input g node (.name "Color2")
    Emission.blend checker color1 color2

/-! ## Channels and colors -/

/-- A node whose output is what it was set to (`output_default`). -/
def outputDefault : Handler := fun g node output => return .ofLanes? (g.outputDefault node output)

/-- One channel each of three inputs (`combine`). -/
def combine : Handler := fun g node _ => do
  let x ← Plan.input g node (.index 0)
  let y ← Plan.input g node (.index 1)
  let z ← Plan.input g node (.index 2)
  Emission.combine x y z

/-- The lane of an output's name; every other name means the third lane. -/
def outputLane : String → Nat
  | "R" | "X" => 0
  | "G" | "Y" => 1
  | _ => 2

/-- One channel of the input, in all lanes (`separate`). -/
def separate : Handler := fun g node output => do
  let value ← Plan.input g node (.index 0)
  Emission.select value (outputLane output)

/-- The gray of a color (`rgb_to_bw`). -/
def rgbToBw : Handler := fun g node _ => do
  let color ← Plan.input g node (.name "Color")
  Emission.toBw color

/-- `max (bright + (color - 0.5) * (contrast + 1) + 0.5) 0` (`bright_contrast`). -/
def brightContrast : Handler := fun g node _ => do
  let bright ← Plan.input g node (.name "Bright")
  let color ← Plan.input g node (.name "Color")
  let contrast ← Plan.input g node (.name "Contrast")
  let centered ← Emission.sub color Emission.half
  let gain ← Emission.add contrast Emission.one
  let scaled ← Emission.mul centered gain
  let shifted ← Emission.add bright scaled
  let result ← Emission.add shifted Emission.half
  Emission.max result Emission.zero

/-! ## Surface detail -/

/-- The distance is scaled by the height, if there is one (`bump`). The normal is evaluated and
ignored. -/
def bump : Handler := fun g node _ => do
  let strength ← Plan.input g node (.name "Strength")
  let distance ← Plan.input g node (.name "Distance")
  let height ← Plan.optionalLink g node "Height"
  let scaled ← if height.isUnset then pure distance else Emission.mul distance height
  let signed ← if g.flag node "invert" then Emission.neg scaled else pure scaled
  let normal ← Plan.optionalLink g node "Normal"
  if !normal.isUnset then Plan.say (.bumpNormalIgnored (g.label node))
  Plan.node .bumpMap [("color", signed), ("bumpscale", strength)]

/-- A normal from a color (`normal_map`). -/
def normalMap : Handler := fun g node _ => do
  let color ← Plan.input g node (.name "Color")
  let strength ← Plan.input g node (.name "Strength")
  let space := g.text node "space" "TANGENT"
  if space ≠ "TANGENT" then Plan.say (.mapSpaceIgnored space)
  let uvMap := g.text node "uv_map" ""
  if !uvMap.isEmpty && uvMap ≠ "UVMap" then Plan.say (.mapUvIgnored uvMap)
  Plan.node .normalMap [("color", color), ("bumpscale", strength)]

/-- Light does not fall off here (`light_falloff`): only the strength is handed on. -/
def lightFalloff : Handler := fun g node _ => do
  Plan.say (.falloffReduced (g.label node))
  Plan.inputDefault g node (.name "Strength")

/-- The handler of a kind (`handler`). -/
def ofKind? : HostKind → Option Handler
  | .outputMaterial => some materialOutput
  | .math => some math
  | .vectorMath => some vectorMath
  | .mixRgb => some mixRgb
  | .mixShader => some mixShader
  | .addShader => some addShader
  | .texImage => some texImage
  | .texChecker => some texChecker
  | .value | .rgb => some outputDefault
  | .combineXyz | .combineRgb => some combine
  | .separateXyz | .separateRgb => some separate
  | .rgbToBw => some rgbToBw
  | .brightContrast => some brightContrast
  | .bump => some bump
  | .normalMap => some normalMap
  | .lightFalloff => some lightFalloff
  | _ => none

end Handler

end MaterialLowering
