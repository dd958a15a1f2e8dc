import MaterialLowering.Host.Document
import MaterialLowering.Proofs.Plans.PlansAlike

/-!
# Plans of two graphs

Two graphs may answer alike what is asked about a node, though the nodes have other addresses or other
names, or some of what is asked of one node makes no difference. Then the plans of the node's outputs
are *twins*: they ask for outputs that stand for each other, create the same native nodes with the same
handles, and fail over the same thing. What they report is left open.

Main definitions:
* `Pairing`: which outputs and labels of two graphs stand for each other.
* `Plan.Twin`: plans that differ in paired outputs, labels and notices only.
* `HostGraph.ReadsAs`: a node that answers as another one does.

Results:
* `Handler.ofKind?_twin`, `RuleSite.plan_twin`, `bypass?_twin`: nodes that answer alike have twin plans.
-/

namespace MaterialLowering

/-! ## Failures -/

namespace Failure

/-- The label of the node that the failure is over. -/
def label? : Failure → Option String
  | .missingOutputNode _ | .rules _ => none
  | .missingRequiredLink node _ | .unsupportedNodeKind node _ | .unresolvableGroupBoundary node _
  | .cyclicGraph node _ | .invalidSocket node _ | .invalidLink node _ | .unsupportedOperation node _
  | .tooDeep node _ => some node

/-- The same failure over a node of another label. -/
def relabel (rename : String → String) : Failure → Failure
  | .missingOutputNode material => .missingOutputNode material
  | .missingRequiredLink node socket => .missingRequiredLink (rename node) socket
  | .unsupportedNodeKind node kind => .unsupportedNodeKind (rename node) kind
  | .unresolvableGroupBoundary node reason => .unresolvableGroupBoundary (rename node) reason
  | .cyclicGraph node output => .cyclicGraph (rename node) output
  | .invalidSocket node socket => .invalidSocket (rename node) socket
  | .invalidLink node socket => .invalidLink (rename node) socket
  | .unsupportedOperation node operation => .unsupportedOperation (rename node) operation
  | .rules error => .rules error
  | .tooDeep node output => .tooDeep (rename node) output

/-- The same failure over nodes whose labels are related. -/
def Like (label : String → String → Prop) (failure failure' : Failure) : Prop :=
  ∃ rename, failure' = failure.relabel rename ∧
    ∀ name, failure.label? = some name → label name (rename name)

variable {label : String → String → Prop} {failure failure' : Failure}

theorem Like.about {a b : String} (h : label a b) (about : failure.label? = some a)
    (same : failure' = failure.relabel fun _ => b) : Like label failure failure' := by
  refine ⟨fun _ => b, same, fun name hn => ?_⟩
  obtain rfl : a = name := Option.some.inj (about.symm.trans hn)
  exact h

/-- A failure over no node. -/
theorem Like.about_none (about : failure.label? = none) : Like label failure failure := by
  refine ⟨id, ?_, fun name hn => ?_⟩
  · cases failure <;> rfl
  · rw [about] at hn
    cases hn

theorem relabel_congr {rename rename' : String → String}
    (h : ∀ name, failure.label? = some name → rename name = rename' name) :
    failure.relabel rename = failure.relabel rename' := by
  cases failure <;> simp_all [relabel, label?]

theorem relabel_id (failure : Failure) : failure.relabel id = failure := by
  cases failure <;> rfl

/-- Where labels stand for themselves only, the failures are equal. -/
theorem Like.eq (h : Like Eq failure failure') : failure' = failure := by
  obtain ⟨rename, rfl, same⟩ := h
  have unchanged : failure.relabel rename = failure.relabel id :=
    relabel_congr fun name hn => (same name hn).symm
  rw [unchanged, relabel_id]

end Failure

/-! ## Twin plans -/

/-- What stands for what in two graphs: outputs that are asked for in each other's place, and labels
    that are shown in each other's place. Images that cannot be loaded are known. Where the first graph
    is known to do without some outputs, or without the links that it refuses, the second one may do as
    it likes with them. -/
structure Pairing where
  output : NodeId → String → NodeId → String → Prop
  label : String → String → Prop
  failing : SortedMap String Unit
  /-- Outputs that nothing asks for in the first graph. -/
  unasked : NodeId → String → Prop := fun _ _ => False
  /-- Nothing comes to a link that the first graph refuses. -/
  lenient : Prop := False

namespace Plan

variable {α β : Type} {p : Pairing}

/-- Plans that differ in paired outputs, in labels, and in what they report. One of them may ask for an
    image that cannot be loaded where the other one knows that there is none. Any plan is a twin of one
    that nothing comes to. -/
inductive Twin (p : Pairing) : Plan α → Plan α → Prop
  | done (a : α) : Twin p (.done a) (.done a)
  | fail {failure failure' : Failure} (h : failure.Like p.label failure') :
      Twin p (.fail failure) (.fail failure')
  | refused {node socket : String} {plan : Plan α} (h : p.lenient) :
      Twin p (.fail (.invalidLink node socket)) plan
  | unasked {node : NodeId} {output : String} {next : Value → Plan α} {plan : Plan α}
      (h : p.unasked node output) : Twin p (.visit node output next) plan
  | visit {node node' : NodeId} {output output' : String} {next next' : Value → Plan α}
      (asked : p.output node output node' output') (go : ∀ value, Twin p (next value) (next' value)) :
      Twin p (.visit node output next) (.visit node' output' next')
  | create (kind : NativeKind) (params : List (String × Value)) {next next' : NodeHandle → Plan α}
      (go : ∀ handle, Twin p (next handle) (next' handle)) :
      Twin p (.create kind params next) (.create kind params next')
  | image (descriptor : ImageDescriptor) {next next' : Option ImageHandle → Plan α}
      (go : ∀ image, Twin p (next image) (next' image)) :
      Twin p (.image descriptor next) (.image descriptor next')
  | noImage {descriptor : ImageDescriptor} {next : Option ImageHandle → Plan α} {plan : Plan α}
      (h : p.failing.contains descriptor.name = true) (go : Twin p (next none) plan) :
      Twin p (.image descriptor next) plan
  | reportLeft (notice : Notice) {next plan : Plan α} (go : Twin p next plan) :
      Twin p (.report notice next) plan
  | reportRight (notice : Notice) {next plan : Plan α} (go : Twin p plan next) :
      Twin p plan (.report notice next)
  | known {node node' : NodeId} {output output' : String} (name : String)
      {next next' : Option Value → Plan α} (own : p.output node output node' output')
      (go : ∀ value, Twin p (next value) (next' value)) :
      Twin p (.known node output name next) (.known node' output' name next')
  | remember {node node' : NodeId} {output output' : String} (name : String) (value : Value)
      {next next' : Plan α} (own : p.output node output node' output') (go : Twin p next next') :
      Twin p (.remember node output name value next) (.remember node' output' name value next')

theorem Twin.report (notice notice' : Notice) {next next' : Plan α} (h : Twin p next next') :
    Twin p (.report notice next) (.report notice' next') :=
  .reportLeft notice (.reportRight notice' h)

theorem Twin.bind {plan plan' : Plan α} {f f' : α → Plan β} (h : Twin p plan plan')
    (hf : ∀ a, Twin p (f a) (f' a)) : Twin p (plan >>= f) (plan' >>= f') := by
  induction h with
  | done a => exact hf a
  | fail h => exact .fail h
  | refused h => exact .refused h
  | unasked h => exact .unasked h
  | visit asked _ ih => exact .visit asked ih
  | create kind params _ ih => exact .create kind params ih
  | image descriptor _ ih => exact .image descriptor ih
  | noImage h _ ih => exact .noImage h ih
  | reportLeft notice _ ih => exact .reportLeft notice ih
  | reportRight notice _ ih => exact .reportRight notice ih
  | known name own _ ih => exact .known name own ih
  | remember name value own _ ih => exact .remember name value own ih

theorem Twin.ofEmission (e : Emission α) : Twin p (Plan.ofEmission e) (Plan.ofEmission e) := by
  induction e with
  | done a => exact .done a
  | create kind params _ ih => exact .create kind params ih

theorem node_twin (kind : NativeKind) (params : List (String × Value)) :
    Twin p (Plan.node kind params) (Plan.node kind params) :=
  .create kind params fun _ => .done _

/-- A failure over nodes whose labels are paired. -/
theorem fail_twin {a b : String} {failure failure' : Failure} (h : p.label a b)
    (about : failure.label? = some a) (same : failure' = failure.relabel fun _ => b) :
    Twin p (.fail failure : Plan α) (.fail failure') :=
  .fail (.about h about same)

end Plan

/-! ## Nodes that answer alike -/

namespace HostGraph

/-- One end of the link carries a shader and the other one none, and neither end is a node that only
    hands a value on: the link may not lead into a socket with this flag of a node of this kind. -/
def unequal (g : HostGraph) (kind : HostKind) (shader : Bool) (link : LinkSource) : Bool :=
  !(g.kind link.node).isTypeless && !kind.isTypeless && link.shader != shader

/-- Links that come from paired outputs and are checked alike, or nothing comes to the first one. -/
structure LinksAlike (p : Pairing) (g g' : HostGraph) (kind : HostKind) (shader : Bool)
    (link link' : LinkSource) : Prop where
  asked : p.output link.node link.output link'.node link'.output
  checked : g'.unequal kind shader link' = g.unequal kind shader link ∨
    p.lenient ∧ (g.unequal kind shader link = true ∨ p.unasked link.node link.output)

/-- Links from outputs with one flag of nodes that are both checked, or both not. -/
theorem LinksAlike.of_same {p : Pairing} {g g' : HostGraph} {link link' : LinkSource}
    (asked : p.output link.node link.output link'.node link'.output)
    (flag : link'.shader = link.shader)
    (typeless : (g'.kind link'.node).isTypeless = (g.kind link.node).isTypeless) (kind : HostKind)
    (shader : Bool) : LinksAlike p g g' kind shader link link' :=
  ⟨asked, .inl (by rw [unequal, unequal, flag, typeless])⟩

/-- Sockets of nodes of a kind that differ in hidden links and paired outputs only. -/
structure SocketsAlike (p : Pairing) (g g' : HostGraph) (kind : HostKind) (socket socket' : Socket) :
    Prop where
  name : socket'.name = socket.name
  default : socket'.default = socket.default
  shader : socket'.shader = socket.shader
  link : Option.Rel (LinksAlike p g g' kind socket.shader) socket.visibleLink socket'.visibleLink

/-- Names of images in each other's place: an image that cannot be loaded may be missing. -/
inductive ImagesAlike (p : Pairing) : Option String → Option String → Prop
  | same (name : Option String) : ImagesAlike p name name
  | missing {name : String} (h : p.failing.contains name = true) : ImagesAlike p (some name) none

/-- The property in which an image texture names its image. -/
def imageProperty : String := "image"

/-- The node answers as the other one does, so far as its plans ask. A group's name is not among what
    they ask for. -/
structure ReadsAs (p : Pairing) (g g' : HostGraph) (node node' : NodeId) : Prop where
  kind : g'.kind node' = g.kind node
  label : p.label (g.label node) (g'.label node')
  muted : g'.muted node' = g.muted node
  inputCount : g'.inputCount node' = g.inputCount node
  input : ∀ key, Option.Rel (SocketsAlike p g g' (g.kind node)) (g.input node key) (g'.input node' key)
  outputDefault : ∀ output, g'.outputDefault node' output = g.outputDefault node output
  property : ∀ name, name ≠ Document.groupProperty → name ≠ imageProperty →
    g'.property node' name = g.property node name
  image : ImagesAlike p ((g.property node imageProperty).bind Property.asText)
    ((g'.property node' imageProperty).bind Property.asText)

namespace ReadsAs

variable {p : Pairing} {g g' : HostGraph} {node node' : NodeId}

theorem text (h : ReadsAs p g g' node node') {name : String} (hg : name ≠ Document.groupProperty)
    (hi : name ≠ imageProperty) (default : String) :
    g'.text node' name default = g.text node name default := by
  rw [HostGraph.text, HostGraph.text, h.property name hg hi]

theorem flag (h : ReadsAs p g g' node node') {name : String} (hg : name ≠ Document.groupProperty)
    (hi : name ≠ imageProperty) : g'.flag node' name = g.flag node name := by
  rw [HostGraph.flag, HostGraph.flag, h.property name hg hi]

theorem hasLink (h : ReadsAs p g g' node node') (key : SocketKey) :
    g'.hasLink node' key = g.hasLink node key := by
  unfold HostGraph.hasLink
  have sockets := h.input key
  generalize g.input node key = socket, g'.input node' key = socket' at sockets
  cases sockets with
  | none => rfl
  | @some socket socket' sockets =>
    have links := sockets.link
    simp only [Option.bind_some]
    generalize socket.visibleLink = link, socket'.visibleLink = link' at links
    cases links <;> rfl

theorem isNone_input (h : ReadsAs p g g' node node') (key : SocketKey) :
    (g'.input node' key).isNone = (g.input node key).isNone := by
  have sockets := h.input key
  generalize g.input node key = socket, g'.input node' key = socket' at sockets
  cases sockets <;> rfl

end ReadsAs

end HostGraph

open HostGraph (ReadsAs SocketsAlike)

/-! ## Inputs -/

namespace Plan

variable {p : Pairing} {g g' : HostGraph} {node node' : NodeId}

/-- A socket is read alike in nodes of one kind that have paired labels. -/
theorem throughLink_twin {key : SocketKey} {unlinked : Socket → Value}
    (kind : g'.kind node' = g.kind node) (label : p.label (g.label node) (g'.label node'))
    (sockets : Option.Rel (SocketsAlike p g g' (g.kind node)) (g.input node key) (g'.input node' key))
    (same : ∀ socket socket' : Socket, socket'.default = socket.default →
      unlinked socket' = unlinked socket) :
    Twin p (throughLink g node key unlinked) (throughLink g' node' key unlinked) := by
  rw [throughLink_eq, throughLink_eq]
  generalize g.input node key = socket, g'.input node' key = socket' at sockets
  cases sockets with
  | none => exact fail_twin label rfl rfl
  | @some socket socket' sockets =>
    have links := sockets.link
    dsimp only
    unfold HostGraph.checkedLink
    generalize socket.visibleLink = link, socket'.visibleLink = link' at links
    cases links with
    | none =>
      dsimp only
      rw [same socket socket' sockets.default]
      exact .done _
    | @some link link' links =>
      have checked := links.checked
      unfold HostGraph.unequal at checked
      dsimp only
      rw [kind, sockets.shader, sockets.name]
      generalize (!(g.kind link.node).isTypeless && !(g.kind node).isTypeless &&
          link.shader != socket.shader) = wrong,
        (!(g'.kind link'.node).isTypeless && !(g.kind node).isTypeless &&
          link'.shader != socket.shader) = wrong' at checked ⊢
      rcases checked with rfl | ⟨lenient, nothing⟩
      · cases wrong' with
        | true => exact fail_twin label rfl rfl
        | false => exact .visit links.asked fun value => .done value
      · cases wrong with
        | true => exact .refused lenient
        | false => exact .unasked (nothing.resolve_left Bool.false_ne_true)

theorem input_twin_of {key : SocketKey} (kind : g'.kind node' = g.kind node)
    (label : p.label (g.label node) (g'.label node'))
    (sockets : Option.Rel (SocketsAlike p g g' (g.kind node)) (g.input node key) (g'.input node' key)) :
    Twin p (input g node key) (input g' node' key) :=
  throughLink_twin kind label sockets fun _ _ same => congrArg Value.ofLanes? same

variable (h : ReadsAs p g g' node node')

include h

theorem input_twin (key : SocketKey) : Twin p (input g node key) (input g' node' key) :=
  input_twin_of h.kind h.label (h.input key)

theorem inputLink_twin (key : SocketKey) : Twin p (inputLink g node key) (inputLink g' node' key) :=
  throughLink_twin h.kind h.label (h.input key) fun _ _ _ => rfl

theorem inputDefault_twin (key : SocketKey) :
    Twin p (inputDefault g node key) (inputDefault g' node' key) := by
  unfold inputDefault HostGraph.socket
  have sockets := h.input key
  generalize g.input node key = socket, g'.input node' key = socket' at sockets
  cases sockets with
  | none => exact fail_twin h.label rfl rfl
  | @some socket socket' sockets =>
    show Twin p (.done (Value.ofLanes? socket.default)) (.done (Value.ofLanes? socket'.default))
    rw [sockets.default]
    exact .done _

theorem optionalLink_twin (name : String) :
    Twin p (optionalLink g node name) (optionalLink g' node' name) := by
  unfold optionalLink
  rw [h.isNone_input]
  split
  · exact .done _
  · exact inputLink_twin h _

/-! ## Ways past a node -/

theorem reroute_twin : Twin p (reroute g node) (reroute g' node') := by
  refine (inputLink_twin h _).bind fun value => ?_
  dsimp only
  split
  · exact .report _ _ (.done value)
  · exact .done value

theorem muted_twin : Twin p (muted g node) (muted g' node') := by
  unfold muted
  simp only [h.inputCount, h.hasLink]
  split
  · exact inputLink_twin h _
  · exact .done _

end Plan

/-- Nodes that answer alike are passed by alike, if they are. -/
theorem bypass?_twin {p : Pairing} {g g' : HostGraph} {node node' : NodeId}
    (h : ReadsAs p g g' node node') :
    Option.Rel (Plan.Twin p) (bypass? g node) (bypass? g' node') := by
  unfold bypass?
  rw [h.kind, h.muted]
  split
  · exact .some (Plan.reroute_twin h)
  · split
    · exact .some (Plan.muted_twin h)
    · exact .none

/-! ## Handlers -/

namespace Handler

open Plan (input_twin inputLink_twin optionalLink_twin node_twin fail_twin)
open Plan.Twin (ofEmission)

variable {p : Pairing} {g g' : HostGraph} {node node' : NodeId} (output : String)
  (h : ReadsAs p g g' node node')

include h

theorem clamped_twin (value : Value) : Plan.Twin p (clamped g node value) (clamped g' node' value) := by
  unfold clamped
  rw [h.flag (by decide) (by decide)]
  split
  · exact ofEmission _
  · exact .done value

theorem materialOutput_twin :
    Plan.Twin p (materialOutput g node output) (materialOutput g' node' output) := by
  refine (inputLink_twin h _).bind fun surface => ?_
  cases surface with
  | constant | image => exact fail_twin h.label rfl rfl
  | node handle => exact .done _
  | unset =>
    dsimp only
    rw [h.hasLink]
    split
    · exact .report _ _ (node_twin _ _)
    · exact fail_twin h.label rfl rfl

theorem mathResult_twin (operation : String) (a : Value) :
    Plan.Twin p (mathResult g node operation a) (mathResult g' node' operation a) := by
  unfold mathResult
  split
  · exact ofEmission _
  · exact ofEmission _
  · exact ofEmission _
  · split
    · exact fail_twin h.label rfl rfl
    · dsimp only
      split
      · exact (input_twin h _).bind fun _ => ofEmission _
      · exact ofEmission _

theorem math_twin : Plan.Twin p (math g node output) (math g' node' output) := by
  refine (input_twin h _).bind fun a => ?_
  rw [h.text (by decide) (by decide)]
  exact (mathResult_twin h _ a).bind (clamped_twin h)

theorem vectorResult_twin (operation : String) (a : Value) :
    Plan.Twin p (vectorResult g node operation a) (vectorResult g' node' operation a) := by
  have withSecond : ∀ op : Operator, Plan.Twin p
      (do let b ← Plan.input g node (.index 1); (Emission.binary op a b : Plan Value))
      (do let b ← Plan.input g' node' (.index 1); (Emission.binary op a b : Plan Value)) := fun _ =>
    (input_twin h _).bind fun _ => ofEmission _
  unfold vectorResult
  dsimp only
  split
  · exact ofEmission _
  · exact ofEmission _
  · exact withSecond .add
  · exact withSecond .sub
  · exact withSecond .average
  · exact withSecond .dot3
  · exact withSecond .cross3
  · exact fail_twin h.label rfl rfl

theorem vectorMath_twin : Plan.Twin p (vectorMath g node output) (vectorMath g' node' output) := by
  refine (input_twin h _).bind fun a => ?_
  rw [h.text (by decide) (by decide)]
  refine (vectorResult_twin h _ a).bind fun result => ?_
  split
  · exact ofEmission _
  · exact .done result

theorem mixRgb_twin : Plan.Twin p (mixRgb g node output) (mixRgb g' node' output) := by
  refine (input_twin h _).bind fun fac => (input_twin h _).bind fun color1 =>
    (input_twin h _).bind fun color2 => ?_
  dsimp only
  rw [h.text (by decide) (by decide)]
  split
  · exact (ofEmission _).bind (clamped_twin h)
  · exact .report _ _ (.done _)

theorem mixShader_twin : Plan.Twin p (mixShader g node output) (mixShader g' node' output) := by
  refine (input_twin h _).bind fun factor => (inputLink_twin h _).bind fun shader1 =>
    (inputLink_twin h _).bind fun shader2 => ?_
  split
  · exact fail_twin h.label rfl rfl
  · exact .done _
  · exact .done _
  · split
    · exact .done _
    split
    · exact .done _
    exact node_twin _ _

theorem addShader_twin : Plan.Twin p (addShader g node output) (addShader g' node' output) := by
  refine (inputLink_twin h _).bind fun shader1 => (inputLink_twin h _).bind fun shader2 => ?_
  split
  · exact .done _
  · exact .done _
  · exact node_twin _ _

theorem imageDescriptor_twin (name : String) :
    Plan.Twin p (imageDescriptor g node name) (imageDescriptor g' node' name) := by
  unfold imageDescriptor
  dsimp only
  rw [h.text (by decide) (by decide), h.text (by decide) (by decide), h.text (by decide) (by decide)]
  split <;> split <;> split <;> repeat (first | exact .done _ | refine .report _ _ ?_)

omit h in
/-- What is found out about an image makes no difference where it cannot be loaded. -/
theorem imageDescriptor_lost {name : String} (lost : p.failing.contains name = true)
    {next : ImageDescriptor → Option ImageHandle → Plan Value} {plan : Plan Value}
    (go : ∀ descriptor, Plan.Twin p (next descriptor none) plan) :
    Plan.Twin p (imageDescriptor g node name >>= fun descriptor => .image descriptor (next descriptor))
      plan := by
  unfold imageDescriptor
  dsimp only
  split <;> split <;> split <;>
    repeat (first | exact .noImage lost (go _) | refine .reportLeft _ ?_)

theorem texImage_twin : Plan.Twin p (texImage g node output) (texImage g' node' output) := by
  have images := h.image
  unfold texImage
  unfold HostGraph.imageProperty at images
  generalize (g.property node "image").bind Property.asText = image,
    (g'.property node' "image").bind Property.asText = image' at images
  cases images with
  | missing lost => exact imageDescriptor_lost lost fun _ => .reportLeft _ (.done _)
  | same =>
    cases image with
    | none => exact .done _
    | some name =>
      refine (imageDescriptor_twin h name).bind fun descriptor => .image descriptor fun image => ?_
      cases image with
      | none => exact .report _ _ (.done _)
      | some image =>
        refine (optionalLink_twin h _).bind fun uv => (node_twin _ _).bind fun texture => ?_
        split
        · exact ofEmission _
        · exact .done _

theorem texChecker_twin : Plan.Twin p (texChecker g node output) (texChecker g' node' output) := by
  have colored : ∀ scale vector : Value, Plan.Twin p
      (do
        let uv ← (Emission.mul scale vector : Plan Value)
        let checker ← Plan.node .checkerTexture [("uv", uv)]
        if output = "Fac" then return checker
        else do
          let color1 ← Plan.input g node (.name "Color1")
          let color2 ← Plan.input g node (.name "Color2")
          Emission.blend checker color1 color2)
      (do
        let uv ← (Emission.mul scale vector : Plan Value)
        let checker ← Plan.node .checkerTexture [("uv", uv)]
        if output = "Fac" then return checker
        else do
          let color1 ← Plan.input g' node' (.name "Color1")
          let color2 ← Plan.input g' node' (.name "Color2")
          Emission.blend checker color1 color2) := by
    intro scale vector
    refine (ofEmission _).bind fun uv => (node_twin _ _).bind fun checker => ?_
    split
    · exact .done _
    · exact (input_twin h _).bind fun _ => (input_twin h _).bind fun _ => ofEmission _
  refine (input_twin h _).bind fun scale => (ofEmission _).bind fun scale =>
    (optionalLink_twin h _).bind fun linked => ?_
  dsimp only
  split
  · exact (node_twin _ _).bind (colored scale)
  · exact colored scale linked

theorem outputDefault_twin :
    Plan.Twin p (outputDefault g node output) (outputDefault g' node' output) := by
  unfold outputDefault
  rw [h.outputDefault]
  exact .done _

theorem combine_twin : Plan.Twin p (combine g node output) (combine g' node' output) :=
  (input_twin h _).bind fun _ => (input_twin h _).bind fun _ => (input_twin h _).bind fun _ =>
    ofEmission _

theorem separate_twin : Plan.Twin p (separate g node output) (separate g' node' output) :=
  (input_twin h _).bind fun _ => ofEmission _

theorem rgbToBw_twin : Plan.Twin p (rgbToBw g node output) (rgbToBw g' node' output) :=
  (input_twin h _).bind fun _ => ofEmission _

theorem brightContrast_twin :
    Plan.Twin p (brightContrast g node output) (brightContrast g' node' output) :=
  (input_twin h _).bind fun _ => (input_twin h _).bind fun _ => (input_twin h _).bind fun _ =>
    (ofEmission _).bind fun _ => (ofEmission _).bind fun _ => (ofEmission _).bind fun _ =>
      (ofEmission _).bind fun _ => (ofEmission _).bind fun _ => ofEmission _

theorem bump_twin : Plan.Twin p (bump g node output) (bump g' node' output) := by
  have last : ∀ strength signed : Value, Plan.Twin p
      (do
        let normal ← Plan.optionalLink g node "Normal"
        if !normal.isUnset then Plan.say (.bumpNormalIgnored (g.label node))
        Plan.node .bumpMap [("color", signed), ("bumpscale", strength)])
      (do
        let normal ← Plan.optionalLink g' node' "Normal"
        if !normal.isUnset then Plan.say (.bumpNormalIgnored (g'.label node'))
        Plan.node .bumpMap [("color", signed), ("bumpscale", strength)]) := by
    intro strength signed
    refine (optionalLink_twin h _).bind fun normal => ?_
    dsimp only
    split
    · exact .report _ _ (node_twin _ _)
    · exact node_twin _ _
  refine (input_twin h _).bind fun strength => (input_twin h _).bind fun distance =>
    (optionalLink_twin h _).bind fun height => ?_
  dsimp only
  rw [h.flag (by decide) (by decide)]
  split <;> split
  · exact (ofEmission _).bind (last strength)
  · exact last strength distance
  · exact (ofEmission _).bind fun scaled => (ofEmission _).bind (last strength)
  · exact (ofEmission _).bind (last strength)

theorem normalMap_twin : Plan.Twin p (normalMap g node output) (normalMap g' node' output) := by
  refine (input_twin h _).bind fun color => (input_twin h _).bind fun strength => ?_
  dsimp only
  rw [h.text (by decide) (by decide), h.text (by decide) (by decide)]
  split <;> split <;> repeat (first | exact node_twin _ _ | refine .report _ _ ?_)

theorem lightFalloff_twin :
    Plan.Twin p (lightFalloff g node output) (lightFalloff g' node' output) :=
  .report _ _ (Plan.inputDefault_twin h _)

theorem ofKind?_twin {kind : HostKind} {handler : Handler} (hk : ofKind? kind = some handler) :
    Plan.Twin p (handler g node output) (handler g' node' output) := by
  unfold ofKind? at hk
  split at hk <;> cases hk
  · exact materialOutput_twin output h
  · exact math_twin output h
  · exact vectorMath_twin output h
  · exact mixRgb_twin output h
  · exact mixShader_twin output h
  · exact addShader_twin output h
  · exact texImage_twin output h
  · exact texChecker_twin output h
  · exact outputDefault_twin output h
  · exact outputDefault_twin output h
  · exact combine_twin output h
  · exact combine_twin output h
  · exact separate_twin output h
  · exact separate_twin output h
  · exact rgbToBw_twin output h
  · exact brightContrast_twin output h
  · exact bump_twin output h
  · exact normalMap_twin output h
  · exact lightFalloff_twin output h

end Handler

/-! ## Rules -/

namespace RuleSite

variable {p : Pairing} {g g' : HostGraph} {node node' : NodeId} {kind : HostKind} {rules : NodeRules}
  {output : String} (h : ReadsAs p g g' node node')

include h

theorem source_twin {subNode subNode' : String → Plan Value} (source : ValueSource)
    (hs : ∀ name, Plan.Twin p (subNode name) (subNode' name)) :
    Plan.Twin p (RuleSite.source ⟨g, kind, rules, node, output⟩ subNode source)
      (RuleSite.source ⟨g', kind, rules, node', output⟩ subNode' source) := by
  cases source with
  | input socket => exact Plan.input_twin h _
  | link socket => exact Plan.inputLink_twin h _
  | default socket => exact Plan.inputDefault_twin h _
  | node name => exact hs name
  | literal literal => exact .done _

theorem params_twin {subNode subNode' : String → Plan Value} (params : List (String × ValueSource))
    (hs : ∀ name, Plan.Twin p (subNode name) (subNode' name)) :
    Plan.Twin p (RuleSite.params ⟨g, kind, rules, node, output⟩ subNode params)
      (RuleSite.params ⟨g', kind, rules, node', output⟩ subNode' params) := by
  induction params with
  | nil => exact .done _
  | cons param rest ih =>
    exact (source_twin h param.2 hs).bind fun value => ih.bind fun values => .done _

omit h in
theorem typePlan_twin (type : RuleType) (params : List (String × Value)) :
    Plan.Twin p (type.plan params) (type.plan params) := by
  cases type with
  | native kind => exact Plan.node_twin kind params
  | fold op => exact .ofEmission _

theorem subNode_twin (own : p.output node output node' output) (fuel : Nat) (name : String) :
    Plan.Twin p (RuleSite.subNode ⟨g, kind, rules, node, output⟩ fuel name)
      (RuleSite.subNode ⟨g', kind, rules, node', output⟩ fuel name) := by
  induction fuel generalizing name with
  | zero => exact .fail (.about_none rfl)
  | succ fuel ih =>
    refine .known name own fun known => ?_
    cases known with
    | some value => exact .done value
    | none =>
      dsimp only
      unfold fresh
      dsimp only
      split
      · exact .fail (.about_none rfl)
      · rename_i rule _
        have params : Plan.Twin p
            (RuleSite.params ⟨g, kind, rules, node, output⟩
              (RuleSite.subNode ⟨g, kind, rules, node, output⟩ fuel) rule.params)
            (RuleSite.params ⟨g', kind, rules, node', output⟩
              (RuleSite.subNode ⟨g', kind, rules, node', output⟩ fuel) rule.params) :=
          params_twin h rule.params ih
        have evaluated := params.bind fun values =>
          (typePlan_twin rule.type values).bind fun value =>
            Plan.Twin.remember name value own (.done value)
        split
        · exact .report _ _ evaluated
        · exact evaluated

theorem plan_twin (own : p.output node output node' output) :
    Plan.Twin p (RuleSite.plan ⟨g, kind, rules, node, output⟩)
      (RuleSite.plan ⟨g', kind, rules, node', output⟩) := by
  unfold plan
  dsimp only
  split
  · exact subNode_twin h own _ _
  · exact .report _ _ (.done _)

end RuleSite

end MaterialLowering
