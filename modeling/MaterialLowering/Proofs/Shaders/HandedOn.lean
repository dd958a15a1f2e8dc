import Mathlib.Logic.Relation
import MaterialLowering.Proofs.Rules.ArithmeticRules
import MaterialLowering.Proofs.Walks.TwinWalks

/-!
# What is handed on as a shader

An output may come to what another output comes to: a reroute and a muted node hand on what a link
leads to, a group hands on what its output node does and its arguments, and where shaders are mixed or
added one of them may be handed on alone. Links are checked one by one, the two ends of each must both
be shaders or both be none. Where no node on the way is a reroute, muted, or at the border of a group,
this makes up a discipline of types: what is handed on to a shader is a shader.

An output *draws on* the outputs that it reads to that end, whatever it comes to. It *hands on* the value
of one of them where the two came to the same.

Main definitions:
* `HostGraph.DrawsOn`, `HostGraph.Leads`: an output that reads another one, to hand it on or not.
* `HostGraph.HandedOn`: a value that outputs have handed on to each other.
* `HostGraph.Strays`: a value that was handed on from an output that is no shader.
* `HostGraph.Refused`: an output draws on an input into which a link leads that is not one of equals.
* `HostGraph.ShaderTyped`: shaders are declared as such.

Results:
* `HostGraph.ShaderTyped.untyped_of_handedOn`: what is handed on to a shader and is none has passed a
  reroute, a muted node, or the border of a group.
* `HostGraph.ShaderTyped.refused`: an output that is no shader is refused where it is linked straight
  to an input that a shader is read from.
-/

namespace MaterialLowering

/-! ## Kinds -/

/-- Native nodes that are shaders. -/
def NativeKind.isShader : NativeKind → Bool
  | .diffuse | .microfacet | .microfacetRefraction | .microfacetAnisotropicReflection
  | .diffuseRefraction | .transparent | .emissive | .twosided | .uber | .blend | .add => true
  | _ => false

namespace HostKind

/-- Nodes whose outputs are shaders. -/
def isShader : HostKind → Bool
  | .bsdfDiffuse | .bsdfGlossy | .bsdfGlass | .bsdfRefraction | .bsdfTranslucent | .bsdfTransparent
  | .bsdfAnisotropic | .bsdfVelvet | .emission | .subsurfaceScattering | .mixShader
  | .addShader => true
  | _ => false

/-- Reroutes and the borders of groups: their outputs are whatever is handed on to them. -/
def isPassage : HostKind → Bool
  | .reroute | .group | .groupInput | .groupOutput => true
  | _ => false

/-- Links of nodes that let anything pass may be typed, but links of other nodes are. -/
theorem isTypeless_of_isPassage {kind : HostKind} (h : kind.isPassage = false) :
    kind.isTypeless = false := by
  cases kind <;> first | rfl | cases h

/-- The inputs that a shader is read from. -/
def shaderInputs : HostKind → List SocketKey
  | .outputMaterial => [.name "Surface"]
  | .mixShader => [.index 1, .index 2]
  | .addShader => [.index 0, .index 1]
  | _ => []

/-- Sub-nodes of the rules for a shader that are none themselves. Every sub-node is an output too. -/
def innerOutputs : HostKind → List String
  | .emission => ["emission_color"]
  | .subsurfaceScattering => ["radius_scale", "radius"]
  | _ => []

end HostKind

namespace HostGraph

variable {g : HostGraph}

/-! ## Links -/

/-- A link that is one of equals leads from an output into an input. -/
def Joins (g : HostGraph) (node : NodeId) (key : SocketKey) (source : NodeId) (output : String) :
    Prop :=
  ∃ socket link, g.input node key = some socket ∧ g.checkedLink node socket = .ok (some link) ∧
    link.node = source ∧ link.output = output

/-- The link into an input is not one of equals. -/
def Clashes (g : HostGraph) (node : NodeId) (key : SocketKey) : Prop :=
  ∃ socket failure, g.input node key = some socket ∧ g.checkedLink node socket = .error failure

/-! ## Drawing on -/

/-- The inputs that an output reads, outside of calls, to hand one of their values on or to make a
    shader of them. -/
def draws (g : HostGraph) (node : NodeId) (output : String) : List SocketKey :=
  if g.kind node = .reroute then [.index 0]
  else if g.muted node then
    (((List.range (g.inputCount node)).find? fun index => g.hasLink node (.index index)).map
      SocketKey.index).toList
  else if g.kind node = .groupOutput then [.name output]
  else (g.kind node).shaderInputs

/-- Those inputs with the calls that they are read in: of the node itself, or the argument of the
    innermost call. -/
inductive Draws (g : HostGraph) : Key → NodeId → SocketKey → List NodeId → Prop
  | own {node : NodeId} {output : String} {scope : List NodeId} {key : SocketKey}
      (h : key ∈ g.draws node output) : Draws g ⟨node, output, scope, g.material⟩ node key scope
  | argument {node callSite : NodeId} {formal : String} {scope around : List NodeId}
      (unmuted : g.muted node = false) (kind : g.kind node = .groupInput)
      (call : g.callOf? node.tree scope = some (callSite, around)) :
      Draws g ⟨node, formal, scope, g.material⟩ callSite (.name formal) around

/-- An output reads what another one comes to: along a link, or at a call. -/
inductive DrawsOn (g : HostGraph) : Key → Key → Prop
  | link {key : Key} {reader source : NodeId} {input : SocketKey} {output : String}
      {scope : List NodeId} (h : g.Draws key reader input scope)
      (joins : g.Joins reader input source output) : DrawsOn g key ⟨source, output, scope, g.material⟩
  | call {callSite inner : NodeId} {output : String} {scope : List NodeId} {tree : TreeId}
      (unmuted : g.muted callSite = false) (kind : g.kind callSite = .group)
      (calls : g.groupTree callSite = some tree) (h : g.groupOutput tree = some inner) :
      DrawsOn g ⟨callSite, output, scope, g.material⟩ ⟨inner, output, callSite :: scope, g.material⟩

/-- An output draws on another one, itself or through others. -/
abbrev Leads (g : HostGraph) : Key → Key → Prop := Relation.ReflTransGen g.DrawsOn

/-- The value of an output that another one draws on is handed on to that. `carries` holds of the outputs
    that came to the value. -/
def HandsOn (g : HostGraph) (carries : Key → Prop) (key next : Key) : Prop :=
  g.DrawsOn key next ∧ carries next

/-- A value is handed on to an output from another one: all outputs on the way came to it. -/
abbrev HandedOn (g : HostGraph) (carries : Key → Prop) : Key → Key → Prop :=
  Relation.ReflTransGen (g.HandsOn carries)

/-- A reroute, a muted node, or a node at the border of a group: what it hands on may be anything. -/
def Untyped (g : HostGraph) (node : NodeId) : Prop :=
  (g.kind node).isPassage = true ∨ g.muted node = true

instance (g : HostGraph) (node : NodeId) : Decidable (g.Untyped node) :=
  inferInstanceAs (Decidable (_ ∨ _))

/-- An output of a node that is no shader and hands nothing on. -/
structure NonShader (g : HostGraph) (key : Key) : Prop where
  typed : ¬ g.Untyped key.node
  notShader : (g.kind key.node).isShader = false
  notOutput : g.kind key.node ≠ .outputMaterial

/-- An output of a shader that is an inner sub-node of its rules. -/
structure Inner (g : HostGraph) (key : Key) : Prop where
  typed : ¬ g.Untyped key.node
  inner : key.output ∈ (g.kind key.node).innerOutputs

/-- The value was handed on from an output that is no shader. -/
def Strays (g : HostGraph) (carries : Key → Prop) (key : Key) : Prop :=
  ∃ last, g.HandedOn carries key last ∧ (g.NonShader last ∨ g.Inner last)

/-- A link that is not one of equals leads into an input that the output draws on. -/
def Refused (g : HostGraph) (key : Key) : Prop :=
  ∃ last reader input scope, g.Leads key last ∧ g.Draws last reader input scope ∧
    g.Clashes reader input

/-- An output that is no shader is linked straight to an input that a shader is read from. -/
def Mismatches (g : HostGraph) (node : NodeId) : Prop :=
  ¬ g.Untyped node ∧ ∃ input ∈ (g.kind node).shaderInputs, ∃ socket link,
    g.input node input = some socket ∧ socket.visibleLink = some link ∧
    (g.kind link.node).isShader = false ∧ (g.kind link.node).isPassage = false

theorem Leads.material {key last : Key} (h : g.Leads key last) (material : key.material = g.material) :
    last.material = g.material := by
  cases h with
  | refl => exact material
  | tail _ draws => cases draws <;> rfl

theorem HandedOn.mono {carries carries' : Key → Prop} (more : ∀ key, carries key → carries' key)
    {key last : Key} (h : g.HandedOn carries key last) : g.HandedOn carries' key last :=
  Relation.ReflTransGen.mono (fun _ _ hands => ⟨hands.1, more _ hands.2⟩) _ _ h

theorem Strays.mono {carries carries' : Key → Prop} (more : ∀ key, carries key → carries' key) {key : Key}
    (h : g.Strays carries key) : g.Strays carries' key := by
  obtain ⟨last, handed, strays⟩ := h
  exact ⟨last, HandedOn.mono more handed, strays⟩

theorem Strays.of_drawsOn {carries : Key → Prop} {key next : Key} (draws : g.DrawsOn key next)
    (came : carries next) (h : g.Strays carries next) : g.Strays carries key := by
  obtain ⟨last, handed, strays⟩ := h
  exact ⟨last, .head ⟨draws, came⟩ handed, strays⟩

/-- Nothing is refused that is refused neither at once nor further on. -/
theorem not_refused {key : Key}
    (here : ∀ reader input scope, g.Draws key reader input scope → ¬ g.Clashes reader input)
    (next : ∀ other, g.DrawsOn key other → ¬ g.Refused other) : ¬ g.Refused key := by
  rintro ⟨last, reader, input, scope, leads, draws, clashes⟩
  rcases Relation.ReflTransGen.cases_head leads with rfl | ⟨other, drawsOn, leads⟩
  · exact here reader input scope draws clashes
  · exact next other drawsOn ⟨last, reader, input, scope, leads, draws, clashes⟩

/-- A node that is not at the border of a group draws on its own inputs only. -/
theorem Draws.eq_own {node reader : NodeId} {output : String} {scope scope' : List NodeId}
    {input : SocketKey} (h : g.Draws ⟨node, output, scope, g.material⟩ reader input scope')
    (inside : g.muted node = true ∨ g.kind node ≠ .groupInput) :
    reader = node ∧ scope' = scope ∧ input ∈ g.draws node output := by
  cases h with
  | own h => exact ⟨rfl, rfl, h⟩
  | argument unmuted kind =>
    rcases inside with muted | other
    · rw [unmuted] at muted
      cases muted
    · exact absurd kind other

/-- An output draws on others along links, but for calls. -/
theorem DrawsOn.exists_link {key next : Key} (h : g.DrawsOn key next)
    (uncalled : g.muted key.node = true ∨ g.kind key.node ≠ .group) :
    ∃ reader input scope source output, g.Draws key reader input scope ∧
      g.Joins reader input source output ∧ next = ⟨source, output, scope, g.material⟩ := by
  cases h with
  | link h joins => exact ⟨_, _, _, _, _, h, joins, rfl⟩
  | call unmuted kind =>
    rcases uncalled with muted | other
    · rw [unmuted] at muted
      cases muted
    · exact absurd kind other

/-! ## Nodes that are not passed through -/

theorem passage_of_typed {node : NodeId} (h : ¬ g.Untyped node) : (g.kind node).isPassage = false := by
  simpa using fun passage => h (.inl passage)

theorem draws_of_typed {node : NodeId} (h : ¬ g.Untyped node) (output : String) :
    g.draws node output = (g.kind node).shaderInputs := by
  have reroute : g.kind node ≠ .reroute := fun kind => h (.inl (by rw [kind]; rfl))
  have unmuted : ¬ g.muted node = true := fun muted => h (.inr muted)
  have groupOutput : g.kind node ≠ .groupOutput := fun kind => h (.inl (by rw [kind]; rfl))
  rw [draws, if_neg reroute, if_neg unmuted, if_neg groupOutput]

/-- Where no shader is read, nothing is drawn on. -/
theorem not_draws {key : Key} (typed : ¬ g.Untyped key.node)
    (none : (g.kind key.node).shaderInputs = []) {reader : NodeId} {input : SocketKey}
    {scope : List NodeId} : ¬ g.Draws key reader input scope := by
  intro h
  cases h with
  | own h =>
    rw [draws_of_typed typed, none] at h
    cases h
  | argument unmuted kind => exact typed (.inl (by simp only [kind]; rfl))

theorem not_refused_of_typed {key : Key} (typed : ¬ g.Untyped key.node)
    (none : (g.kind key.node).shaderInputs = []) : ¬ g.Refused key := by
  refine not_refused (fun _ _ _ h => absurd h (not_draws typed none)) fun other draws => ?_
  have uncalled : g.kind key.node ≠ .group := fun kind => typed (.inl (by rw [kind]; rfl))
  obtain ⟨reader, input, scope, source, output, h, -, -⟩ := draws.exists_link (.inr uncalled)
  exact absurd h (not_draws typed none)

/-! ## Types -/

/-- Shaders are declared as such: what shows as a shader is one, unless a reroute or the border of a
    group says so, and the inputs that shaders are read from are declared for shaders. -/
structure ShaderTyped (g : HostGraph) : Prop where
  source : ∀ {node key socket link}, g.input node key = some socket →
    socket.visibleLink = some link → link.shader = true → (g.kind link.node).isPassage = false →
    (g.kind link.node).isShader = true
  input : ∀ {node key socket}, key ∈ (g.kind node).shaderInputs → g.input node key = some socket →
    socket.shader = true

namespace ShaderTyped

variable (typed : g.ShaderTyped)

include typed

/-- Into the shader's input of a shader, or of a material, a link leads from a shader, or else from a
    node that hands on anything. -/
theorem isShader_of_joins {node source : NodeId} {key : SocketKey} {output : String}
    (reader : ¬ g.Untyped node) (hk : key ∈ (g.kind node).shaderInputs)
    (h : g.Joins node key source output) (hs : ¬ g.Untyped source) :
    (g.kind source).isShader = true := by
  obtain ⟨socket, link, hinput, hlink, rfl, rfl⟩ := h
  have visible := visibleLink_of_checkedLink hlink
  have passage := passage_of_typed hs
  have same : link.shader = socket.shader := by
    have here := HostKind.isTypeless_of_isPassage (passage_of_typed reader)
    have there := HostKind.isTypeless_of_isPassage passage
    by_contra other
    simp [checkedLink, visible, here, there, other] at hlink
  exact typed.source hinput visible (same.trans (typed.input hk hinput)) passage

/-- Whatever is handed on to a shader or a material is a shader, back to the last node that hands on
    anything. -/
theorem untyped_of_handedOn {carries : Key → Prop} {key last : Key}
    (first : (g.kind key.node).isShader = true ∨ g.kind key.node = .outputMaterial)
    (handed : g.HandedOn carries key last) (stray : g.NonShader last) :
    ∃ mid, g.HandedOn carries key mid ∧ g.Untyped mid.node ∧ g.HandedOn carries mid last := by
  induction handed using Relation.ReflTransGen.head_induction_on with
  | refl =>
    rcases first with shader | output
    · rw [stray.notShader] at shader
      cases shader
    · exact absurd output stray.notOutput
  | @head key next hands handed ih =>
    by_cases passed : g.Untyped key.node
    · exact ⟨key, .refl, passed, .head hands handed⟩
    by_cases passed' : g.Untyped next.node
    · exact ⟨next, .single hands, passed', handed⟩
    have uncalled : g.kind key.node ≠ .group := fun kind => passed (.inl (by rw [kind]; rfl))
    obtain ⟨reader, input, scope, source, output, draws, joins, rfl⟩ :=
      hands.1.exists_link (.inr uncalled)
    have shader : (g.kind source).isShader = true := by
      cases draws with
      | own h =>
        rw [draws_of_typed passed] at h
        exact typed.isShader_of_joins passed h joins passed'
      | argument unmuted kind => exact absurd (.inl (by simp only [kind]; rfl)) passed
    obtain ⟨mid, before, untyped, after⟩ := ih (.inl shader)
    exact ⟨mid, .head hands before, untyped, after⟩

/-- A mismatched link is not one of equals. -/
theorem clashes_of_mismatches {node : NodeId} (h : g.Mismatches node) :
    ∃ input ∈ (g.kind node).shaderInputs, g.Clashes node input := by
  obtain ⟨reader, input, hi, socket, link, hs, hl, notShader, notPassage⟩ := h
  have here := HostKind.isTypeless_of_isPassage (passage_of_typed reader)
  have there := HostKind.isTypeless_of_isPassage notPassage
  have declared : link.shader = false := by
    by_contra shown
    have shader := typed.source hs hl (by simpa using shown) notPassage
    rw [notShader] at shader
    cases shader
  refine ⟨input, hi, socket, .invalidLink (g.label node) socket.name, hs, ?_⟩
  simp [checkedLink, hl, here, there, declared, typed.input hi hs]

/-- What leads to a mismatched link is refused. -/
theorem refused {key last : Key} (material : key.material = g.material) (leads : g.Leads key last)
    (h : g.Mismatches last.node) : g.Refused key := by
  obtain ⟨input, hi, clashes⟩ := typed.clashes_of_mismatches h
  have draws : g.Draws ⟨last.node, last.output, last.scope, g.material⟩ last.node input
      last.scope := .own (by rw [draws_of_typed h.1]; exact hi)
  refine ⟨last, last.node, input, last.scope, leads, ?_, clashes⟩
  rwa [← leads.material material] at draws

end ShaderTyped

end HostGraph

end MaterialLowering
