import MaterialLowering.Proofs.Documents.Matchings

/-!
# What a material asks for

Lowering is lazy: it asks for what the surface needs and for nothing else. A node needs what its links
lead to, but at the border of a group it is told which output is wanted: a call needs that output of the
group alone, not its arguments; an output node of a group needs the input of that name; an input node
needs the one argument, at the call. So an output is needed in a chain of calls, and what a graph
answers about anything else makes no difference.

Main definitions:
* `HostGraph.Demanded`: an output that is needed, in a chain of calls.
* `HostGraph.AgreesOnDemand`: a graph that answers alike what is asked about needed outputs.

Results:
* `HostGraph.AgreesOnDemand.twins`: graphs that agree on what is needed have twin walks.
* `HostGraph.lower_lazy`: they are lowered to the same.
* `Document.callOf?_of_demanded`: the call that an argument is read at is the innermost one.
-/

namespace MaterialLowering

open HostGraph (ReadsAs SocketsAlike LinksAlike)
open Walk (on)

namespace HostGraph

/-! ## Demand -/

/-- A visible link leads from an output into a socket. -/
def FeedsInto (g : HostGraph) (node : NodeId) (key : SocketKey) (source : NodeId) (output : String) :
    Prop :=
  ∃ socket link, g.input node key = some socket ∧ socket.visibleLink = some link ∧
    link.node = source ∧ link.output = output

/-- The node calls a group, or is the way in or out of one, and is not muted. -/
def AtBorder (g : HostGraph) (node : NodeId) : Prop :=
  g.muted node = false ∧
    (g.kind node = .group ∨ g.kind node = .groupInput ∨ g.kind node = .groupOutput)

/-- The outputs that the surface needs, each in the chain of calls around it, the innermost first. -/
inductive Demanded (g : HostGraph) : NodeId → String → List NodeId → Prop
  | surface {node : NodeId} (h : g.outputNode = some node) : Demanded g node Walk.surface []
  /-- A node needs what feeds it. -/
  | link {node source : NodeId} {output other : String} {chain : List NodeId} {key : SocketKey}
      (demanded : Demanded g node output chain) (inside : ¬ g.AtBorder node)
      (h : g.FeedsInto node key source other) : Demanded g source other chain
  /-- A call needs the output of the group's output node, and none of its own inputs. -/
  | call {callSite inner : NodeId} {output : String} {chain : List NodeId} {tree : TreeId}
      (demanded : Demanded g callSite output chain) (unmuted : g.muted callSite = false)
      (kind : g.kind callSite = .group) (calls : g.groupTree callSite = some tree)
      (h : g.groupOutput tree = some inner) : Demanded g inner output (callSite :: chain)
  /-- The output node of a group needs its input of the name. -/
  | leave {node source : NodeId} {output other : String} {chain : List NodeId}
      (demanded : Demanded g node output chain) (unmuted : g.muted node = false)
      (kind : g.kind node = .groupOutput) (h : g.FeedsInto node (.name output) source other) :
      Demanded g source other chain
  /-- A formal input needs the argument of its call, outside of the call. -/
  | formal {node callSite source : NodeId} {formal other : String} {chain around : List NodeId}
      (demanded : Demanded g node formal chain) (unmuted : g.muted node = false)
      (kind : g.kind node = .groupInput) (call : g.callOf? node.tree chain = some (callSite, around))
      (h : g.FeedsInto callSite (.name formal) source other) : Demanded g source other around

/-- The calls of a chain are needed themselves. -/
theorem Demanded.caller {g : HostGraph} {node : NodeId} {output : String} {chain : List NodeId}
    (h : g.Demanded node output chain) {callSite : NodeId} {around : List NodeId}
    (hc : callSite :: around <:+ chain) :
    ∃ other, g.Demanded callSite other around ∧ g.muted callSite = false ∧
      g.kind callSite = .group := by
  induction h with
  | surface => simp at hc
  | link _ _ _ ih | leave _ _ _ _ ih => exact ih hc
  | @call caller _ output chain _ demanded unmuted kind _ _ ih =>
    rcases List.suffix_cons_iff.1 hc with same | inner
    · obtain ⟨rfl, rfl⟩ := List.cons.inj same
      exact ⟨output, demanded, unmuted, kind⟩
    · exact ih inner
  | formal _ _ _ call _ ih =>
    exact ih (hc.trans ((List.suffix_cons _ _).trans (callOf?_suffix call)))

/-- A graph that answers alike every question about needed outputs' nodes, except that about a call it
    need only be alike what kind of node it is, which group it calls, and what its needed arguments are;
    and that has the same output nodes in the groups that are called. -/
structure AgreesOnDemand (g g' : HostGraph) : Prop where
  material : g'.material = g.material
  outputNode : g'.outputNode = g.outputNode
  kind : ∀ {node output chain}, g.Demanded node output chain → g'.kind node = g.kind node
  name : ∀ {node output chain}, g.Demanded node output chain → g'.name node = g.name node
  muted : ∀ {node output chain}, g.Demanded node output chain → g'.muted node = g.muted node
  groupTree : ∀ {node output chain}, g.Demanded node output chain →
    g'.groupTree node = g.groupTree node
  answers : ∀ {node output chain}, g.Demanded node output chain →
    ¬ (g.muted node = false ∧ g.kind node = .group) →
      g'.input node = g.input node ∧ g'.inputCount node = g.inputCount node ∧
      g'.outputDefault node = g.outputDefault node ∧ g'.property node = g.property node
  argument : ∀ {node formal chain callSite around}, g.Demanded node formal chain →
    g.muted node = false → g.kind node = .groupInput →
    g.callOf? node.tree chain = some (callSite, around) →
      g'.input callSite (.name formal) = g.input callSite (.name formal)
  groupOutput : ∀ {node output chain tree}, g.Demanded node output chain →
    g.muted node = false → g.kind node = .group → g.groupTree node = some tree →
      g'.groupOutput tree = g.groupOutput tree

end HostGraph

/-! ## Walks -/

/-- Needed outputs stand for themselves. -/
def HostGraph.demandTwinning (g : HostGraph) (failing : SortedMap String Unit) : Twinning where
  key k k' := k' = k ∧ g.Demanded k.node k.output k.scope
  tree := Eq
  label := Eq
  failing := failing

/-- By the built-in rules, the nodes at the border of a group are lowered as such. -/
theorem HostGraph.atBorder_iff {g : HostGraph} {depth : Nat} {node : NodeId} :
    g.AtBorder node ↔ Setting.Crosses ⟨g, .builtin, depth⟩ node := by
  refine and_congr_right fun _ => ⟨fun kinds => ?_, fun boundary => ?_⟩
  · rcases kinds with kind | kind | kind <;>
      rw [kind, RuleTable.resolve?, builtin_get?_eq_none (by decide)] <;> rfl
  · exact (RuleTable.boundary_of_resolve? boundary).2.2

namespace HostGraph.AgreesOnDemand

variable {g g' : HostGraph} (h : g.AgreesOnDemand g') {failing : SortedMap String Unit}

include h

theorem label {node : NodeId} {output : String} {chain : List NodeId}
    (demanded : g.Demanded node output chain) : g'.label node = g.label node := by
  unfold HostGraph.label
  rw [h.name demanded]

/-- Sockets are alike if what feeds them is needed. -/
theorem sockets_alike {around : List NodeId} {node : NodeId} {key : SocketKey}
    (same : g'.input node key = g.input node key)
    (feeds : ∀ source other, g.FeedsInto node key source other → g.Demanded source other around) :
    Option.Rel (SocketsAlike ((g.demandTwinning failing).within g g' around around) g g' (g.kind node))
      (g.input node key) (g'.input node key) := by
  rw [same]
  cases hs : g.input node key with
  | none => exact .none
  | some socket =>
    refine .some (.of_visibleLink rfl rfl rfl rfl fun link hl => ?_)
    have demanded := feeds link.node link.output ⟨socket, link, hs, hl, rfl, rfl⟩
    exact ⟨⟨by rw [h.material], demanded⟩, h.kind demanded⟩

theorem reads {node : NodeId} {output : String} {chain : List NodeId}
    (demanded : g.Demanded node output chain) (inside : ¬ g.AtBorder node) :
    ReadsAs ((g.demandTwinning failing).within g g' chain chain) g g' node node := by
  obtain ⟨input, inputCount, outputDefault, property⟩ :=
    h.answers demanded fun call => inside ⟨call.1, .inl call.2⟩
  exact
    { kind := h.kind demanded
      label := (h.label demanded).symm
      muted := h.muted demanded
      inputCount := inputCount
      input := fun key => h.sockets_alike (congrFun input key) fun _ _ feeds =>
        .link demanded inside feeds
      outputDefault := congrFun outputDefault
      property := fun name _ _ => congrFun property name
      image := by rw [property]; exact .same _ }

theorem calls_alike {k : Key} (demanded : g.Demanded k.node k.output k.scope)
    (unmuted : g.muted k.node = false) (kind : g.kind k.node = .group) :
    CallsAlike (g.demandTwinning failing) g g' k k := by
  unfold CallsAlike
  rw [h.groupTree demanded]
  cases ht : g.groupTree k.node with
  | none => exact .none
  | some tree =>
    refine .some ⟨rfl, ?_⟩
    rw [h.groupOutput demanded unmuted kind ht]
    cases ho : g.groupOutput tree with
    | none => exact .none
    | some inner => exact .some ⟨by rw [h.material], .call demanded unmuted kind ht ho⟩

theorem formals_alike {k : Key} (demanded : g.Demanded k.node k.output k.scope)
    (unmuted : g.muted k.node = false) (kind : g.kind k.node = .groupInput) :
    FormalsAlike (g.demandTwinning failing) g g' k k where
  tree := rfl
  default := by
    obtain ⟨-, -, outputDefault, -⟩ := h.answers demanded fun call => by
      rw [kind] at call
      cases call.2
    exact congrFun outputDefault k.output
  argument := by
    intro callSite around callSite' around' call suffix length
    obtain ⟨rfl, rfl⟩ : callSite' = callSite ∧ around' = around := by
      have same := List.suffix_of_suffix_length_le suffix (HostGraph.callOf?_suffix call) (by simp [length])
      exact List.cons.inj (same.eq_of_length (by simp [length]))
    obtain ⟨other, caller, -, -⟩ := demanded.caller (HostGraph.callOf?_suffix call)
    refine argument_twin (h.kind caller) (h.label caller).symm ?_
    exact h.sockets_alike (h.argument demanded unmuted kind call) fun _ _ feeds =>
      .formal demanded unmuted kind call feeds

/-- Graphs that agree on what is needed have twin walks. -/
theorem twins (depth : Nat) :
    Setting.Twins (g.demandTwinning failing) ⟨g, .builtin, depth⟩ ⟨g', .builtin, depth⟩ where
  keys := ⟨fun _ _ _ ac bc => ac.1.symm.trans bc.1, fun _ _ _ ab ac => ab.1.trans ac.1.symm⟩
  trees := ⟨fun _ _ _ ac bc => ac.trans bc.symm, fun _ _ _ ab ac => ab.symm.trans ac⟩
  output := by
    rintro _ k ⟨rfl, -⟩
    rfl
  label := by
    rintro _ k ⟨rfl, demanded⟩
    exact (h.label demanded).symm
  course := by
    rintro _ k ⟨rfl, demanded⟩
    have own : ((g.demandTwinning failing).within g g' k.scope k.scope).output k.node k.output k.node
        k.output := ⟨by rw [h.material], demanded⟩
    have alike : OutputsAlike (g.demandTwinning failing) ⟨g, .builtin, depth⟩ ⟨g', .builtin, depth⟩ k k :=
      { kind := h.kind demanded
        label := (h.label demanded).symm
        muted := h.muted demanded
        reads := fun inside => h.reads demanded fun border => inside (HostGraph.atBorder_iff.1 border)
        call := fun crosses kind => h.calls_alike demanded crosses.1 kind
        formal := fun crosses kind => h.formals_alike demanded crosses.1 kind
        leave := fun crosses kind => by
          obtain ⟨input, -⟩ := h.answers demanded fun call => by
            dsimp only at kind
            rw [kind] at call
            cases call.2
          exact h.sockets_alike (congrFun input _) fun _ _ feeds =>
            .leave demanded crosses.1 kind feeds }
    exact Setting.course_twin (by rfl) own rfl alike

theorem same (depth : Nat) (r : Recording) :
    Setting.Same Eq ⟨g, .builtin, depth⟩ ⟨g', .builtin, depth⟩ r := by
  have twins : Setting.Twins (g.demandTwinning r.failing) ⟨g, .builtin, depth⟩ ⟨g', .builtin, depth⟩ :=
    h.twins depth
  refine twins.lower rfl h.material ?_ rfl
  dsimp only
  rw [h.outputNode]
  cases ho : g.outputNode with
  | none => exact .none
  | some node => exact .some ⟨by rw [h.material], .surface ho⟩

end HostGraph.AgreesOnDemand

/-! ## Demand in documents -/

namespace Document

variable {d d' : Document}

/-- A node is in the tree that is called innermost, and so are the calls of its chain. -/
def Standing (d : Document) (node : NodeId) : List NodeId → Prop
  | [] => True
  | callSite :: around => d.graph.groupTree callSite = some node.tree ∧ d.Standing callSite around

theorem callOf?_eq_head {node callSite : NodeId} {around : List NodeId}
    (h : d.Standing node (callSite :: around)) :
    d.graph.callOf? node.tree (callSite :: around) = some (callSite, around) := by
  rw [HostGraph.callOf?, if_pos h.1]

theorem standing_of_demanded {node : NodeId} {output : String} {chain : List NodeId}
    (h : d.graph.Demanded node output chain) : d.Standing node chain := by
  have stay : ∀ {node source : NodeId} {key : SocketKey} {other : String} {chain : List NodeId},
      d.graph.FeedsInto node key source other → d.Standing node chain → d.Standing source chain := by
    intro node source key other chain feeds stands
    have tree : source.tree = node.tree := (feeds_spec ⟨key, feeds⟩).1
    cases chain with
    | nil => trivial
    | cons callSite around => exact ⟨tree ▸ stands.1, stands.2⟩
  induction h with
  | surface => trivial
  | link _ _ feeds ih | leave _ _ _ feeds ih => exact stay feeds ih
  | call _ _ _ calls inner ih => exact ⟨(groupOutput_spec inner).1 ▸ calls, ih⟩
  | @formal node _ _ _ _ chain _ _ _ _ call feeds ih =>
    cases chain with
    | nil => cases call
    | cons first rest =>
      obtain ⟨rfl, rfl⟩ := Prod.mk.inj (Option.some.inj ((callOf?_eq_head ih).symm.trans call))
      exact stay feeds ih.2

/-- In a document, the innermost call of a needed node's tree is the innermost one of all. -/
theorem callOf?_of_demanded {node callSite : NodeId} {output : String} {around : List NodeId}
    (h : d.graph.Demanded node output (callSite :: around)) :
    d.graph.callOf? node.tree (callSite :: around) = some (callSite, around) :=
  callOf?_eq_head (standing_of_demanded h)

/-! ## Checking -/

/-- A socket of a document is found by its place. -/
theorem input?_eq_bind (d : Document) (node : NodeId) (key : SocketKey) :
    d.input? node key =
      ((d.node? node).bind fun decl => decl.inputIndex? key).bind fun index =>
        d.input? node (.index index) := by
  unfold input? node?
  cases d.tree? node.tree with
  | none => rfl
  | some tree =>
    simp only [Option.bind_eq_bind, Option.bind_some]
    cases tree.nodes[node.index]? with
    | none => rfl
    | some decl =>
      simp only [Option.bind_some]
      cases hi : decl.inputIndex? key with
      | none => rfl
      | some index =>
        have inside : index < decl.inputs.length := NodeDecl.lt_length_of_inputIndex? hi
        simp [NodeDecl.inputIndex?, inside]

/-- Nodes of one declaration are read alike if their sockets are, place by place. -/
theorem input?_congr {node : NodeId} (decl : d'.node? node = d.node? node)
    (same : ∀ index < d.graph.inputCount node,
      d'.input? node (.index index) = d.input? node (.index index)) :
    d'.input? node = d.input? node := by
  funext key
  rw [input?_eq_bind d', input?_eq_bind d, decl]
  cases hd : d.node? node with
  | none => rfl
  | some decl =>
    simp only [Option.bind_some]
    cases hi : decl.inputIndex? key with
    | none => rfl
    | some index =>
      have count : d.graph.inputCount node = decl.inputs.length := by simp [graph, hd]
      exact same index (count ▸ NodeDecl.lt_length_of_inputIndex? hi)

/-- What feeds a node of a document feeds one of its places. -/
theorem exists_index_of_feedsInto {node source : NodeId} {key : SocketKey} {other : String}
    (h : d.graph.FeedsInto node key source other) :
    ∃ index < d.graph.inputCount node, d.graph.FeedsInto node (.index index) source other := by
  obtain ⟨socket, link, input, rest⟩ := h
  replace input : d.input? node key = some socket := input
  rw [input?_eq_bind] at input
  obtain ⟨index, found, input⟩ := Option.bind_eq_some_iff.1 input
  obtain ⟨decl, hd, found⟩ := Option.bind_eq_some_iff.1 found
  have count : d.graph.inputCount node = decl.inputs.length := by simp [graph, hd]
  exact ⟨index, count ▸ NodeDecl.lt_length_of_inputIndex? found, socket, link, input, rest⟩

end Document

namespace HostGraph

instance (g : HostGraph) (node : NodeId) : Decidable (g.AtBorder node) :=
  inferInstanceAs (Decidable (_ ∧ _))

/-- The output from which a visible link leads into a socket, if there is one. -/
def sources (g : HostGraph) (node : NodeId) (key : SocketKey) : List (NodeId × String) :=
  ((g.input node key).bind Socket.visibleLink).toList.map fun link => (link.node, link.output)

theorem FeedsInto.mem_sources {g : HostGraph} {node source : NodeId} {key : SocketKey}
    {other : String} (h : g.FeedsInto node key source other) :
    (source, other) ∈ g.sources node key := by
  obtain ⟨socket, link, input, visible, rfl, rfl⟩ := h
  simp [sources, input, visible]

/-- What an output needs. Inputs are looked at place by place. -/
def demands (g : HostGraph) (node : NodeId) (output : String) (chain : List NodeId) :
    List (NodeId × String × List NodeId) :=
  let within (chain : List NodeId) (sources : List (NodeId × String)) :=
    sources.map fun (source, other) => (source, other, chain)
  if g.AtBorder node then
    match g.kind node with
    | .group =>
      ((g.groupTree node).bind g.groupOutput).toList.map fun inner => (inner, output, node :: chain)
    | .groupInput =>
      match g.callOf? node.tree chain with
      | some (callSite, around) => within around (g.sources callSite (.name output))
      | none => []
    | _ => within chain (g.sources node (.name output))
  else
    within chain ((List.range (g.inputCount node)).flatMap fun index => g.sources node (.index index))

end HostGraph

namespace Document

variable {d d' : Document}

/-- A list that holds what the surface needs, and with an output what that needs. -/
structure Covers (d : Document) (needed : List (NodeId × String × List NodeId)) : Prop where
  surface : ∀ node ∈ d.graph.outputNode, (node, Walk.surface, []) ∈ needed
  closed : ∀ x ∈ needed, ∀ y ∈ d.graph.demands x.1 x.2.1 x.2.2, y ∈ needed

theorem Covers.mem {needed : List (NodeId × String × List NodeId)} (h : d.Covers needed)
    {node : NodeId} {output : String} {chain : List NodeId}
    (demanded : d.graph.Demanded node output chain) : (node, output, chain) ∈ needed := by
  induction demanded with
  | surface here => exact h.surface _ here
  | link _ inside feeds ih =>
    obtain ⟨index, hi, feeds⟩ := exists_index_of_feedsInto feeds
    refine h.closed _ ih _ ?_
    rw [HostGraph.demands, if_neg inside]
    refine List.mem_map.2 ⟨_, List.mem_flatMap.2 ⟨index, List.mem_range.2 hi, feeds.mem_sources⟩, rfl⟩
  | call _ unmuted kind calls inner ih =>
    refine h.closed _ ih _ ?_
    rw [HostGraph.demands, if_pos ⟨unmuted, .inl kind⟩]
    simp [kind, calls, inner]
  | leave _ unmuted kind feeds ih =>
    refine h.closed _ ih _ ?_
    rw [HostGraph.demands, if_pos ⟨unmuted, .inr (.inr kind)⟩]
    simp only [kind]
    exact List.mem_map.2 ⟨_, feeds.mem_sources, rfl⟩
  | formal _ unmuted kind call feeds ih =>
    refine h.closed _ ih _ ?_
    rw [HostGraph.demands, if_pos ⟨unmuted, .inr (.inl kind)⟩]
    simp only [kind, call]
    exact List.mem_map.2 ⟨_, feeds.mem_sources, rfl⟩

/-- The documents answer alike what is asked about an output that is needed. -/
structure AnswersAlike (d d' : Document) (node : NodeId) (output : String) (chain : List NodeId) :
    Prop where
  kind : d'.graph.kind node = d.graph.kind node
  name : d'.graph.name node = d.graph.name node
  muted : d'.graph.muted node = d.graph.muted node
  groupTree : d'.groupTree? node = d.groupTree? node
  answers : ¬ (d.graph.muted node = false ∧ d.graph.kind node = .group) →
    d'.node? node = d.node? node ∧ ∀ index < d.graph.inputCount node,
      d'.input? node (.index index) = d.input? node (.index index)
  argument : d.graph.muted node = false → d.graph.kind node = .groupInput →
    ∀ call ∈ d.graph.callOf? node.tree chain,
      d'.input? call.1 (.name output) = d.input? call.1 (.name output)
  groupOutput : d.graph.muted node = false → d.graph.kind node = .group →
    ∀ tree ∈ d.graph.groupTree node, d'.graph.groupOutput tree = d.graph.groupOutput tree

instance (d d' : Document) (node : NodeId) (output : String) (chain : List NodeId) :
    Decidable (d.AnswersAlike d' node output chain) :=
  decidable_of_iff
    (d'.graph.kind node = d.graph.kind node ∧ d'.graph.name node = d.graph.name node ∧
      d'.graph.muted node = d.graph.muted node ∧ d'.groupTree? node = d.groupTree? node ∧
      (¬ (d.graph.muted node = false ∧ d.graph.kind node = .group) →
        d'.node? node = d.node? node ∧ ∀ index < d.graph.inputCount node,
          d'.input? node (.index index) = d.input? node (.index index)) ∧
      (d.graph.muted node = false → d.graph.kind node = .groupInput →
        ∀ call ∈ d.graph.callOf? node.tree chain,
          d'.input? call.1 (.name output) = d.input? call.1 (.name output)) ∧
      (d.graph.muted node = false → d.graph.kind node = .group →
        ∀ tree ∈ d.graph.groupTree node, d'.graph.groupOutput tree = d.graph.groupOutput tree))
    ⟨fun ⟨kind, name, muted, groupTree, answers, argument, groupOutput⟩ =>
      ⟨kind, name, muted, groupTree, answers, argument, groupOutput⟩,
      fun ⟨kind, name, muted, groupTree, answers, argument, groupOutput⟩ =>
        ⟨kind, name, muted, groupTree, answers, argument, groupOutput⟩⟩

/-- Documents agree on what is needed if they do on a list that holds that. -/
theorem agreesOnDemand_of_covers (name : d'.name = d.name)
    (outputNode : d'.graph.outputNode = d.graph.outputNode)
    {needed : List (NodeId × String × List NodeId)} (covers : d.Covers needed)
    (alike : ∀ x ∈ needed, d.AnswersAlike d' x.1 x.2.1 x.2.2) :
    d.graph.AgreesOnDemand d'.graph where
  material := name
  outputNode := outputNode
  kind demanded := (alike _ (covers.mem demanded)).kind
  name demanded := (alike _ (covers.mem demanded)).name
  muted demanded := (alike _ (covers.mem demanded)).muted
  groupTree demanded := (alike _ (covers.mem demanded)).groupTree
  answers := by
    intro node output chain demanded other
    obtain ⟨decl, same⟩ := (alike _ (covers.mem demanded)).answers other
    dsimp only at decl same
    refine ⟨input?_congr decl same, ?_, ?_, ?_⟩
    · simp only [graph, decl]
    · funext name
      simp only [graph, outputDefault?, decl]
    · funext name
      simp only [graph, property?, decl]
  argument demanded unmuted kind call :=
    (alike _ (covers.mem demanded)).argument unmuted kind _ call
  groupOutput demanded unmuted kind calls :=
    (alike _ (covers.mem demanded)).groupOutput unmuted kind _ calls

end Document

/-! ## Laziness -/

/-- Only what is needed matters: graphs that agree on what the surface needs are lowered to the same root
    or the same failure, and to the same native nodes and images, into every recording. Documents are
    so although how deep they are walked depends on all of them. -/
theorem HostGraph.lower_lazy {g g' : HostGraph} (h : g.AgreesOnDemand g') :
    (∀ depth r, Setting.Indistinct ⟨g, .builtin, depth⟩ ⟨g', .builtin, depth⟩ r) ∧
    ∀ d d' : Document, d.graph = g → d'.graph = g' → ∀ r,
      (d.setting .builtin).Indistinct (d'.setting .builtin) r := by
  refine ⟨fun depth r => (h.same depth r).indistinct, ?_⟩
  rintro d d' rfl rfl r
  exact (Document.same_of_depth RuleTable.builtin_check (fun depth => h.same depth r)
    h.material).indistinct

/-- A color goes through a group that has no use for its other argument. -/
def Document.thrifty (broken : NodeDecl) (arguments : List SocketDecl) (spare : NodeDecl) :
    Document where
  name := "thrifty"
  tree :=
    { nodes :=
        [⟨"output", .outputMaterial, [⟨"Surface", none, true⟩], [], .ofList [], false⟩,
          ⟨"surface", .bsdfTransparent, [⟨"Color", none, false⟩], [⟨"BSDF", none, true⟩], .ofList [],
            false⟩,
          ⟨"call", .group, ⟨"Used", some (.scalar .one), false⟩ :: arguments,
            [⟨"Value", none, false⟩], .ofList [(groupProperty, .text "first")], false⟩,
          broken]
      links :=
        [⟨"surface", "BSDF", "output", .name "Surface", false⟩,
          ⟨"call", "Value", "surface", .name "Color", false⟩,
          ⟨broken.name, "Color", "call", .name "Unused", false⟩] }
  groups :=
    [⟨"first",
      { nodes :=
          [⟨"in", .groupInput, [], [⟨"Used", none, false⟩, ⟨"Unused", none, false⟩], .ofList [], false⟩,
            spare,
            ⟨"out", .groupOutput, [⟨"Value", none, false⟩, ⟨"Spare", none, false⟩], [], .ofList [],
              false⟩]
        links :=
          [⟨"in", "Used", "out", .name "Value", false⟩,
            ⟨spare.name, "Color", "out", .name "Spare", false⟩] }⟩]

/-- It makes no difference whether the other argument and the other output of the group are supported,
    or there at all. -/
theorem HostGraph.lower_lazy_thrifty :
    let d := Document.thrifty ⟨"noise", .unknown "Noise", [], [⟨"Color", none, false⟩], .ofList [], false⟩
      [⟨"Unused", none, false⟩] ⟨"spare", .unknown "Voronoi", [], [], .ofList [], true⟩
    let d' := Document.thrifty ⟨"loop", .reroute, [⟨"Input", none, false⟩], [], .ofList [], false⟩ []
      ⟨"other", .value, [], [⟨"Color", some (.scalar .one), false⟩], .ofList [], false⟩
    d.graph.AgreesOnDemand d'.graph ∧
    (∀ depth r, Setting.Indistinct ⟨d.graph, .builtin, depth⟩ ⟨d'.graph, .builtin, depth⟩ r) ∧
    ∀ r, (d.setting .builtin).Indistinct (d'.setting .builtin) r := by
  intro d d'
  have covers : d.Covers [(⟨.material, 0⟩, "Surface", []), (⟨.material, 1⟩, "BSDF", []),
      (⟨.material, 2⟩, "Value", []), (⟨⟨1⟩, 2⟩, "Value", [⟨.material, 2⟩]),
      (⟨⟨1⟩, 0⟩, "Used", [⟨.material, 2⟩])] := ⟨by decide +kernel, by decide +kernel⟩
  have agrees : d.graph.AgreesOnDemand d'.graph :=
    Document.agreesOnDemand_of_covers rfl rfl covers (by decide +kernel)
  obtain ⟨graphs, documents⟩ := HostGraph.lower_lazy agrees
  exact ⟨agrees, graphs, documents d d' rfl rfl⟩

end MaterialLowering
