import Mathlib.Logic.Relation
import MaterialLowering.Lowering.Dispatch
import MaterialLowering.Lowering.Key

/-!
# The meaning of arithmetic graphs

What an output of an arithmetic host graph means, without any native graph: four lanes, computed
directly from the lanes of the sockets that the node reads. Nothing is folded and nothing is
emitted here, and nothing is remembered.

Main definitions:

* `HostGraph.formula`: the sockets that an output reads, and what it makes of their lanes.
* `HostGraph.meaning`: the lanes of an output inside given calls.
* `HostGraph.Arithmetic`: everything that an output reads is arithmetic and has a value.
-/

namespace MaterialLowering

open Numeric (Single)

/-! ## Functions of lanes -/

namespace Lanes

/-- The value between `a` and `b`. A weight of exactly zero or one is one of the two. -/
def mix (weight a b : Lanes) : Lanes :=
  if weight.eq (.splat .zero) then a
  else if weight.eq (.splat .one) then b
  else Folding.blend weight a b

/-- The part after the point. -/
def fract (a : Lanes) : Lanes := a.map fun x => x - x.floor

/-- Up to the next whole number. -/
def ceil (a : Lanes) : Lanes := a.map fun x => if x.eq x.floor then x else x.floor + .one

/-- To the nearest whole number, a half goes up. -/
def round (a : Lanes) : Lanes :=
  a.map fun x => if (x - x.floor).lt Folding.half then x.floor else x.floor + .one

/-- Into `[0, 1]`. -/
def clamp (a : Lanes) : Lanes := a.map fun x => (x.min .one).max .zero

/-- One channel each of three values, and a one. -/
def combine (a b c : Lanes) : Lanes :=
  (((a.map2 (· * ·) ⟨.one, .zero, .zero, .zero⟩).map2 (· + ·)
    (b.map2 (· * ·) ⟨.zero, .one, .zero, .zero⟩)).map2 (· + ·)
      (c.map2 (· * ·) ⟨.zero, .zero, .one, .zero⟩)).map2 (· + ·) ⟨.zero, .zero, .zero, .one⟩

/-- A channel, weighted by its part in luminance. -/
def weighted (channel weight : Single) : Lanes :=
  (splat channel).map2 (· * ·) ⟨weight, weight, weight, .zero⟩

/-- Luminance in the color lanes; the last lane is kept. -/
def toBw (a : Lanes) : Lanes :=
  (((weighted a.x (.ofRatio 2126 10000)).map2 (· + ·)
    (weighted a.y (.ofRatio 7152 10000))).map2 (· + ·)
      (weighted a.z (.ofRatio 722 10000))).map2 (· + ·)
        ((splat a.w).map2 (· * ·) ⟨.zero, .zero, .zero, .one⟩)

/-- Brightness and contrast around the middle gray. -/
def brightContrast (bright color contrast : Lanes) : Lanes :=
  bright.map3 (fun b c k => (b + (c - Folding.half) * (k + .one) + Folding.half).max .zero)
    color contrast

end Lanes

/-! ## Formulas -/

/-- How an output gets its lanes. -/
inductive Formula where
  /-- Lanes that the node is set to. -/
  | given (lanes : Option Lanes)
  /-- A geometric quantity. -/
  | lookup (quantity : Lookup) (f : Lanes → Lanes)
  /-- The lanes of the link of a socket. -/
  | handOn (key : SocketKey)
  | unary (key : SocketKey) (f : Lanes → Lanes)
  | binary (first second : SocketKey) (f : Lanes → Lanes → Lanes)
  | ternary (first second third : SocketKey) (f : Lanes → Lanes → Lanes → Lanes)
  /-- What the output node of a group means inside the call. -/
  | call
  /-- What the argument of the innermost call means around it. -/
  | formal
  /-- Lowering reads the first input and refuses the node. -/
  | refused
  /-- The output is not arithmetic. -/
  | foreign

namespace Formula

/-- The same sockets, and something done to the result. -/
def andThen (f : Lanes → Lanes) : Formula → Formula
  | .unary key g => .unary key fun a => f (g a)
  | .binary first second g => .binary first second fun a b => f (g a b)
  | .ternary first second third g => .ternary first second third fun a b c => f (g a b c)
  | formula => formula

/-- The sockets that are read. -/
def operands : Formula → List SocketKey
  | .handOn key | .unary key _ => [key]
  | .binary first second _ => [first, second]
  | .ternary first second third _ => [first, second, third]
  | .refused => [.index 0]
  | _ => []

/-- A function of the first input. -/
def ofFirst (f : Lanes → Lanes) : Formula := .unary (.index 0) f

/-- A function of the first two inputs. -/
def ofTwo (f : Lanes → Lanes → Lanes) : Formula := .binary (.index 0) (.index 1) f

/-- The operations of math nodes. -/
def math : String → Formula
  | "ADD" => ofTwo (Folding.binary .add)
  | "SUBTRACT" => ofTwo (Folding.binary .sub)
  | "MULTIPLY" => ofTwo (Folding.binary .mul)
  | "DIVIDE" => ofTwo (Folding.binary .div)
  | "POWER" => ofTwo (Folding.binary .pow)
  | "LOGARITHM" => ofFirst (Folding.unary .log)
  | "MINIMUM" => ofTwo (Folding.binary .min)
  | "MAXIMUM" => ofTwo (Folding.binary .max)
  | "LESS_THAN" => ofTwo (Folding.binary .lower)
  | "GREATER_THAN" => ofTwo (Folding.binary .greater)
  | "MODULO" => ofTwo (Folding.binary .mod)
  | "ABSOLUTE" => ofFirst (Folding.unary .abs)
  | "FLOOR" => ofFirst (Folding.unary .floor)
  | "SINE" => ofFirst (Folding.unary .sin)
  | "COSINE" => ofFirst (Folding.unary .cos)
  | "TANGENT" => ofFirst (Folding.unary .tan)
  | "ARCSINE" => ofFirst (Folding.unary .asin)
  | "ARCCOSINE" => ofFirst (Folding.unary .acos)
  | "ARCTANGENT" => ofFirst (Folding.unary .atan)
  | "FRACT" => ofFirst Lanes.fract
  | "CEIL" => ofFirst Lanes.ceil
  | "ROUND" => ofFirst Lanes.round
  | _ => .refused

/-- The operations of vector math nodes. -/
def vectorMath : String → Formula
  | "NORMALIZE" => ofFirst (Folding.unary .normalize3)
  | "LENGTH" => ofFirst (Folding.unary .length3)
  | "ADD" => ofTwo (Folding.binary .add)
  | "SUBTRACT" => ofTwo (Folding.binary .sub)
  | "AVERAGE" => ofTwo (Folding.binary .average)
  | "DOT_PRODUCT" => ofTwo (Folding.binary .dot3)
  | "CROSS_PRODUCT" => ofTwo (Folding.binary .cross3)
  | _ => .refused

/-- What a way of mixing makes of a factor and two colors. -/
def mixing (f : Lanes → Lanes → Lanes → Lanes) : Formula :=
  .ternary (.name "Fac") (.name "Color1") (.name "Color2") f

/-- The ways of mixing. -/
def mixRgb : String → Formula
  | "MIX" | "COLOR" => mixing Lanes.mix
  | "ADD" => mixing fun t a b => Lanes.mix t a (Folding.binary .add a b)
  | "MULTIPLY" => mixing fun t a b => Lanes.mix t a (Folding.binary .mul a b)
  | "SUBTRACT" => mixing fun t a b => Lanes.mix t a (Folding.binary .sub a b)
  | "DIVIDE" => mixing fun t a b => Lanes.mix t a (Folding.binary .div a b)
  | "DIFFERENCE" =>
    mixing fun t a b => Lanes.mix t a (Folding.unary .abs (Folding.binary .sub a b))
  | "DARKEN" => mixing fun t a b => Lanes.mix t a (Folding.binary .min a b)
  | "LIGHTEN" => mixing fun t a b => Lanes.mix t a (Folding.binary .max a b)
  | "VALUE" => mixing fun _ a _ => a
  | _ => .foreign

/-- One channel in all lanes. -/
def separate : String → Formula
  | "R" | "X" => ofFirst fun a => .splat a.x
  | "G" | "Y" => ofFirst fun a => .splat a.y
  | _ => ofFirst fun a => .splat a.z

def gamma : String → Formula
  | "Color" => .binary (.name "Color") (.name "Gamma") (Folding.binary .pow)
  | _ => .foreign

/-- One minus the color. -/
def inverted (color : Lanes) : Lanes := Folding.binary .sub (.splat .one) color

def invert : String → Formula
  | "invert" => .unary (.name "Color") inverted
  | "Color" =>
    .binary (.name "Color") (.name "Fac") fun color fac => Lanes.mix fac color (inverted color)
  | _ => .foreign

def texCoord : String → Formula
  | "Generated" | "UV" => .lookup .uv id
  | "Normal" => .lookup .normal id
  | "Object" => .lookup .position id
  | _ => .foreign

def newGeometry : String → Formula
  | "Position" => .lookup .position id
  | "Normal" => .lookup .normal id
  | "invec" => .lookup .incoming id
  | "Incoming" => .lookup .incoming (Folding.binary .mul (.splat (-.one)))
  | _ => .foreign

end Formula

namespace HostGraph

variable (g : HostGraph)

/-- Into `[0, 1]`, if the node says so. -/
def clamping (node : NodeId) (a : Lanes) : Lanes := if g.flag node "use_clamp" then a.clamp else a

/-- How an output of a node that is not bypassed gets its lanes. -/
def formulaOf (node : NodeId) (output : String) : HostKind → Formula
  | .math => (Formula.math (g.text node "operation" "ADD")).andThen (g.clamping node)
  | .vectorMath =>
    (Formula.vectorMath (g.text node "operation" "ADD")).andThen
      (if output = "Value" then Lanes.toBw else id)
  | .mixRgb => (Formula.mixRgb (g.text node "blend_type" "MIX")).andThen (g.clamping node)
  | .value | .rgb => .given (g.outputDefault node output)
  | .combineXyz | .combineRgb => .ternary (.index 0) (.index 1) (.index 2) Lanes.combine
  | .separateXyz | .separateRgb => .separate output
  | .rgbToBw => .unary (.name "Color") Lanes.toBw
  | .brightContrast =>
    .ternary (.name "Bright") (.name "Color") (.name "Contrast") Lanes.brightContrast
  | .gamma => .gamma output
  | .invert => .invert output
  | .lightFalloff => .given ((g.input node (.name "Strength")).bind Socket.default)
  | .texCoord => .texCoord output
  | .newGeometry => .newGeometry output
  | .group => .call
  | .groupInput => .formal
  | .groupOutput => .unary (.name output) id
  | _ => .foreign

/-- How an output gets its lanes. Reroutes and muted nodes hand the lanes of a link on. -/
def formula (node : NodeId) (output : String) : Formula :=
  if g.kind node = .reroute then .handOn (.index 0)
  else if g.muted node then
    match (List.range (g.inputCount node)).find? fun index => g.hasLink node (.index index) with
    | some index => .handOn (.index index)
    | none => .foreign
  else g.formulaOf node output (g.kind node)

/-! ## Lanes of outputs -/

/-- The lanes of a socket: those of its link, or its default. `lanes` finds those of outputs. -/
def read (lanes : NodeId → String → Option Lanes) (node : NodeId) (key : SocketKey) :
    Option Lanes :=
  (g.input node key).bind fun socket =>
    match socket.visibleLink with
    | some link => lanes link.node link.output
    | none => socket.default

/-- The lanes of the link of a socket. -/
def follow (lanes : NodeId → String → Option Lanes) (node : NodeId) (key : SocketKey) :
    Option Lanes :=
  ((g.input node key).bind Socket.visibleLink).bind fun link => lanes link.node link.output

end HostGraph

/-- The lanes of an output by its formula. `lanes` finds those of outputs inside calls. -/
def Formula.evaluate (g : HostGraph) (quantities : Lookup → Lanes)
    (lanes : List NodeId → NodeId → String → Option Lanes) (chain : List NodeId) (node : NodeId)
    (output : String) : Formula → Option Lanes
  | .given lanes => lanes
  | .lookup quantity f => some (f (quantities quantity))
  | .handOn key => g.follow (lanes chain) node key
  | .unary key f => (g.read (lanes chain) node key).map f
  | .binary first second f =>
    (g.read (lanes chain) node first).bind fun a =>
      (g.read (lanes chain) node second).map fun b => f a b
  | .ternary first second third f =>
    (g.read (lanes chain) node first).bind fun a =>
      (g.read (lanes chain) node second).bind fun b =>
        (g.read (lanes chain) node third).map fun c => f a b c
  | .call =>
    ((g.groupTree node).bind g.groupOutput).bind fun groupOutput =>
      lanes (node :: chain) groupOutput output
  | .formal =>
    match chain with
    | [] => none
    | callSite :: around =>
      (g.read (lanes around) callSite (.name output)).or (g.outputDefault node output)
  | .refused | .foreign => none

/-- The lanes of an output inside given calls, the innermost first, when outputs may be nested
`depth` deep. -/
def HostGraph.meaning (g : HostGraph) (quantities : Lookup → Lanes) :
    Nat → List NodeId → NodeId → String → Option Lanes
  | 0, _, _, _ => none
  | depth + 1, chain, node, output =>
    (g.formula node output).evaluate g quantities (g.meaning quantities depth) chain node output

/-! ## Arithmetic graphs -/

namespace HostGraph

variable (g : HostGraph)

/-- An output reads another one: through the link of an operand, by calling a group, or through an
argument of the call around it. -/
inductive Reads : Key → Key → Prop
  | operand {node : NodeId} {output : String} {chain : List NodeId} {material : String}
      {key : SocketKey} {socket : Socket} {link : LinkSource}
      (operand : key ∈ (g.formula node output).operands) (hs : g.input node key = some socket)
      (hl : socket.visibleLink = some link) :
      Reads ⟨node, output, chain, material⟩ ⟨link.node, link.output, chain, material⟩
  | call {callSite groupOutput : NodeId} {tree : TreeId} {output : String} {chain : List NodeId}
      {material : String} (call : g.formula callSite output = .call)
      (ht : g.groupTree callSite = some tree) (ho : g.groupOutput tree = some groupOutput) :
      Reads ⟨callSite, output, chain, material⟩ ⟨groupOutput, output, callSite :: chain, material⟩
  | argument {groupInput callSite : NodeId} {name : String} {around : List NodeId}
      {material : String} {socket : Socket} {link : LinkSource}
      (formal : g.formula groupInput name = .formal)
      (hs : g.input callSite (.name name) = some socket) (hl : socket.visibleLink = some link) :
      Reads ⟨groupInput, name, callSite :: around, material⟩
        ⟨link.node, link.output, around, material⟩

/-- A socket without a link has a default. -/
def HasValue (node : NodeId) (key : SocketKey) : Prop :=
  ∀ socket, g.input node key = some socket → socket.visibleLink = none → socket.default.isSome

end HostGraph

namespace Formula

variable (g : HostGraph)

/-- A formula says something, and what it reads in its own node has a value. A formal input has a
    value where the call gives it one or its own node does, as all others in the group. -/
def Fits (chain : List NodeId) (node : NodeId) (output : String) : Formula → Prop
  | .given lanes => lanes.isSome
  | .handOn key => g.hasLink node key
  | .formal =>
    (∀ callSite around, chain = callSite :: around →
      g.HasValue callSite (.name output) ∨ (g.outputDefault node output).isSome) ∧
    ∀ other, g.formula other output = .formal → other.tree = node.tree →
      g.outputDefault other output = g.outputDefault node output
  | .foreign => False
  | formula => ∀ key ∈ formula.operands, g.HasValue node key

variable {g} {chain : List NodeId} {node : NodeId} {output : String} {formula : Formula}

theorem Fits.ne_foreign (h : formula.Fits g chain node output) : formula ≠ .foreign := by
  rintro rfl
  exact h

theorem Fits.hasValue (h : formula.Fits g chain node output) :
    ∀ key ∈ formula.operands, g.HasValue node key := by
  cases formula with
  | handOn key =>
    intro other ho socket hs unlinked
    obtain rfl := List.mem_singleton.1 ho
    have linked : g.hasLink node other = true := h
    rw [HostGraph.hasLink, hs, Option.bind_some, unlinked] at linked
    cases linked
  | unary | binary | ternary | refused => exact h
  | given | lookup | call | formal | foreign => exact fun _ hk => by cases hk

end Formula

namespace HostGraph

variable (g : HostGraph)

/-- An output is arithmetic, and what it reads in its own node has a value. -/
def Fits (key : Key) : Prop := (g.formula key.node key.output).Fits g key.scope key.node key.output

/-- A formal input has the same default in the whole group. -/
def Settled (key : Key) : Prop :=
  g.formula key.node key.output = .formal → ∀ other, g.formula other key.output = .formal →
    other.tree = key.node.tree → g.outputDefault other key.output = g.outputDefault key.node key.output

/-- An output and all that it reads are arithmetic and have values. -/
def Arithmetic (key : Key) : Prop := ∀ other, Relation.ReflTransGen g.Reads key other → g.Fits other

/-- `looks` holds if an output reads a geometric quantity, itself or through others. -/
def Looking (looks : Prop) (key : Key) : Prop :=
  ∀ other, Relation.ReflTransGen g.Reads key other →
    ∀ quantity f, g.formula other.node other.output = .lookup quantity f → looks

/-- An output reads no geometric quantity, not even through others. -/
abbrev LookupFree (key : Key) : Prop := g.Looking False key

variable {g}

theorem Fits.settled {key : Key} (h : g.Fits key) : g.Settled key := by
  intro formal
  rw [Fits, formal] at h
  exact h.2

theorem Arithmetic.fits {key : Key} (h : g.Arithmetic key) : g.Fits key := h key .refl

theorem Arithmetic.of_reads {key other : Key} (h : g.Arithmetic key) (hr : g.Reads key other) :
    g.Arithmetic other := fun _ reached => h _ (.head hr reached)

/-- Outputs that fit and read only one another are arithmetic. -/
theorem Arithmetic.of_closed {P : Key → Prop}
    (closed : ∀ key, P key → g.Fits key ∧ ∀ other, g.Reads key other → P other) {key : Key}
    (h : P key) : g.Arithmetic key := by
  intro other reached
  have within : P other := by
    induction reached with
    | refl => exact h
    | tail _ reads ih => exact (closed _ ih).2 _ reads
  exact (closed other within).1

theorem Looking.of_reads {looks : Prop} {key other : Key} (h : g.Looking looks key)
    (hr : g.Reads key other) : g.Looking looks other := fun _ reached => h _ (.head hr reached)

end HostGraph

end MaterialLowering
