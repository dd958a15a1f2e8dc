import Mathlib.Logic.Relation
import MaterialLowering.Proofs.Documents.Detours

/-!
# Reroutes may be put into links

A reroute hands on what its link comes from, and so it makes no difference where one is put into a link:
a fresh node at the end of the tree, to which the old link now leads, while a new link at the end leads
from it to where the old one led. Only the check of the two ends of a link is told apart, as nothing is
checked at a reroute; so the old link has to be one that passes, or that is not checked. Any number of
reroutes may be put into the links of the material and its groups, one after the other, also into links
from and to reroutes that were put in before.

Main definitions:
* `NodeTree.Rerouting`: a link of a tree, and the reroute that is put into it.
* `Document.Rerouted`: reroutes are put into links of a document, one after the other.
* `Setting.SameButCycles`: two settings come to the same, but for the node at which a cycle is noticed.

Results:
* `Document.Inserts.detours`: the graphs of the two documents.
* `Document.lower_rerouted`: the documents are lowered to the same.
-/

namespace MaterialLowering

open HostGraph (LinksAlike ReadsAs SocketsAlike)
open Relation (ReflTransGen)
open Walk (on)

/-! ## Trees -/

/-- The first output of a name carries a shader. -/
def NodeDecl.carriesShader (node : NodeDecl) (output : String) : Bool :=
  ((node.outputs.find? fun socket => socket.name = output).map SocketDecl.shader).getD false

/-- A visible link of a tree that may have a reroute in it, and the reroute: a fresh node with one
    input. The two sockets of the link carry a shader both or none of them, or one of its nodes only hands
    a value on. -/
structure NodeTree.Rerouting (tree : NodeTree) where
  before : List LinkDecl
  link : LinkDecl
  after : List LinkDecl
  links : tree.links = before ++ link :: after
  visible : link.hidden = false
  /-- The node that the link comes from, and its place. -/
  source : NodeDecl
  place : Nat
  first : tree.nodeIndex? link.fromNode = some place
  there : tree.nodes[place]? = some source
  agree : ∀ target ∈ tree.nodes, ∀ index < target.inputs.length, link.leadsTo target index = true →
    ∀ socket ∈ target.inputs[index]?, source.kind.isTypeless = true ∨ target.kind.isTypeless = true ∨
      source.carriesShader link.fromSocket = socket.shader
  reroute : NodeDecl
  kind : reroute.kind = .reroute
  input : SocketDecl
  inputs : reroute.inputs = [input]
  /-- The input as the new link names it. -/
  entry : SocketKey
  enters : entry = .index 0 ∨ entry = .name input.name
  /-- The output of the reroute that the link now comes from. -/
  output : String
  freshNode : ∀ node ∈ tree.nodes, node.name ≠ reroute.name
  freshLink : ∀ other ∈ tree.links, other.fromNode ≠ reroute.name ∧ other.toNode ≠ reroute.name

namespace NodeTree.Rerouting

variable {tree : NodeTree} (ρ : tree.Rerouting)

/-- The link, where it now comes from the reroute. -/
def rerouted : LinkDecl := { ρ.link with fromNode := ρ.reroute.name, fromSocket := ρ.output }

/-- The link into the reroute. -/
def feed : LinkDecl where
  fromNode := ρ.link.fromNode
  fromSocket := ρ.link.fromSocket
  toNode := ρ.reroute.name
  toSocket := ρ.entry
  hidden := false

/-- The tree with the reroute in the link. -/
def result : NodeTree where
  nodes := tree.nodes ++ [ρ.reroute]
  links := ρ.before ++ ρ.rerouted :: ρ.after ++ [ρ.feed]

theorem link_mem : ρ.link ∈ tree.links := by simp [ρ.links]

/-! ### Nodes -/

theorem getElem?_result {index : Nat} (other : index ≠ tree.nodes.length) :
    ρ.result.nodes[index]? = tree.nodes[index]? := by
  rcases Nat.lt_or_gt_of_ne other with inside | outside
  · exact List.getElem?_append_left inside
  · have beyond : ρ.result.nodes.length ≤ index := by
      simp only [result, List.length_append, List.length_singleton]
      omega
    rw [List.getElem?_eq_none beyond, List.getElem?_eq_none (Nat.le_of_lt outside)]

theorem getElem?_reroute : ρ.result.nodes[tree.nodes.length]? = some ρ.reroute := by
  simp [result]

theorem place_lt : ρ.place < tree.nodes.length := (List.getElem?_eq_some_iff.1 ρ.there).1

theorem nodeIndex?_result {name : String} (other : name ≠ ρ.reroute.name) :
    ρ.result.nodeIndex? name = tree.nodeIndex? name := by
  simp [result, nodeIndex?, List.findIdx?_append, Ne.symm other]

theorem nodeIndex?_reroute : ρ.result.nodeIndex? ρ.reroute.name = some tree.nodes.length := by
  have absent : tree.nodes.findIdx? (fun node => node.name = ρ.reroute.name) = none :=
    List.findIdx?_eq_none_iff.2 fun node hn => by simpa using ρ.freshNode node hn
  simp [result, nodeIndex?, List.findIdx?_append, absent]

theorem firstOfKind?_result {kind : HostKind} (other : kind ≠ .reroute) :
    ρ.result.firstOfKind? kind = tree.firstOfKind? kind := by
  simp [result, firstOfKind?, List.findIdx?_append, ρ.kind, Ne.symm other]

/-! ### Links -/

/-- A link that was there comes from the same output as before. -/
theorem source?_result {other : LinkDecl} (old : other ∈ tree.links) (id : TreeId) :
    ρ.result.source? id other = tree.source? id other := by
  unfold source?
  rw [ρ.nodeIndex?_result (ρ.freshLink other old).1]
  cases hi : tree.nodeIndex? other.fromNode with
  | none => rfl
  | some index =>
    have inside : index < tree.nodes.length := (List.findIdx?_eq_some_iff_getElem.1 hi).1
    simp only [Option.bind_eq_bind, Option.bind_some, ρ.getElem?_result (Nat.ne_of_lt inside)]

theorem source?_link (id : TreeId) : tree.source? id ρ.link =
    some ⟨⟨id, ρ.place⟩, ρ.link.fromSocket, ρ.source.carriesShader ρ.link.fromSocket, false⟩ := by
  simp [source?, ρ.first, ρ.there, ρ.visible, NodeDecl.carriesShader]

theorem source?_rerouted (id : TreeId) : ρ.result.source? id ρ.rerouted =
    some ⟨⟨id, tree.nodes.length⟩, ρ.output, ρ.reroute.carriesShader ρ.output, false⟩ := by
  simp [source?, rerouted, ρ.nodeIndex?_reroute, ρ.getElem?_reroute, ρ.visible, NodeDecl.carriesShader]

theorem source?_feed (id : TreeId) : ρ.result.source? id ρ.feed =
    some ⟨⟨id, ρ.place⟩, ρ.link.fromSocket, ρ.source.carriesShader ρ.link.fromSocket, false⟩ := by
  have known := ρ.freshLink ρ.link ρ.link_mem
  simp [source?, feed, ρ.nodeIndex?_result known.1, ρ.getElem?_result (Nat.ne_of_lt ρ.place_lt),
    ρ.first, ρ.there, NodeDecl.carriesShader]
  rfl

/-- Into an input that was there the same link leads first, or it is the one with the reroute. -/
theorem linkInto?_result {node : NodeDecl} (old : node ∈ tree.nodes) (index : Nat) :
    ρ.result.linkInto? node index = tree.linkInto? node index ∨
      tree.linkInto? node index = some ρ.link ∧ ρ.result.linkInto? node index = some ρ.rerouted := by
  have leads : ρ.rerouted.leadsTo node index = ρ.link.leadsTo node index := rfl
  have apart : ρ.feed.leadsTo node index = false := by
    have fresh := ρ.freshNode node old
    simp [LinkDecl.leadsTo, feed, Ne.symm fresh]
  simp only [linkInto?, result, ρ.links, List.find?_append, List.find?_cons, leads, apart,
    List.find?_nil, Option.or_none]
  cases ρ.before.find? fun link => link.leadsTo node index with
  | some other => exact .inl rfl
  | none =>
    cases ρ.link.leadsTo node index with
    | true => exact .inr ⟨rfl, rfl⟩
    | false => exact .inl rfl

/-- The link into the reroute is the only one. -/
theorem linkInto?_reroute : ρ.result.linkInto? ρ.reroute 0 = some ρ.feed := by
  have others : ∀ other ∈ ρ.before ++ ρ.rerouted :: ρ.after, other.leadsTo ρ.reroute 0 = false := by
    intro other ho
    have apart : other.toNode ≠ ρ.reroute.name := by
      rcases List.mem_append.1 ho with hb | hr
      · exact (ρ.freshLink other (by simp [ρ.links, hb])).2
      · rcases List.mem_cons.1 hr with rfl | ha
        · exact (ρ.freshLink ρ.link ρ.link_mem).2
        · exact (ρ.freshLink other (by simp [ρ.links, ha])).2
    simp [LinkDecl.leadsTo, apart]
  have leads : ρ.feed.leadsTo ρ.reroute 0 = true := by
    rcases ρ.enters with entry | entry <;>
      simp [LinkDecl.leadsTo, feed, entry, NodeDecl.inputIndex?, ρ.inputs]
  have absent : (ρ.before ++ ρ.rerouted :: ρ.after).find? (fun link => link.leadsTo ρ.reroute 0) =
      none := List.find?_eq_none.2 fun other ho => by simp [others other ho]
  rw [linkInto?, result, List.find?_append, absent]
  simp [leads]

end NodeTree.Rerouting

/-- The reroute, seen from the walk. -/
def NodeTree.Rerouting.detour {tree : NodeTree} (ρ : tree.Rerouting) (id : TreeId) : Detour where
  node := ⟨id, tree.nodes.length⟩
  source := ⟨id, ρ.place⟩
  output := ρ.link.fromSocket

/-! ## Documents -/

namespace Document

/-- The document with another tree in the place of one. -/
def setTree (d : Document) (id : TreeId) (tree : NodeTree) : Document :=
  match id.number with
  | 0 => { d with tree }
  | n + 1 => { d with groups := d.groups.modify n fun group => { group with tree } }

section

variable {d : Document} {id : TreeId} {tree : NodeTree}

theorem tree?_setTree_self (found : d.tree? id = some tree) (tree' : NodeTree) :
    (d.setTree id tree').tree? id = some tree' := by
  obtain ⟨_ | n⟩ := id
  · rfl
  · obtain ⟨group, hg, -⟩ := Option.map_eq_some_iff.1 found
    show ((d.groups.modify n _)[n]?.map NodeGroup.tree) = some tree'
    simp [List.getElem?_modify_eq, hg]

theorem tree?_setTree_of_ne {other : TreeId} (h : other ≠ id) (tree' : NodeTree) :
    (d.setTree id tree').tree? other = d.tree? other := by
  obtain ⟨n⟩ := id
  obtain ⟨m⟩ := other
  cases n with
  | zero =>
    cases m with
    | zero => exact absurd rfl h
    | succ m => rfl
  | succ n =>
    cases m with
    | zero => rfl
    | succ m =>
      have apart : n ≠ m := fun same => h (by rw [same])
      show ((d.groups.modify n _)[m]?.map NodeGroup.tree) = d.groups[m]?.map NodeGroup.tree
      rw [List.getElem?_modify_ne _ _ apart]

@[simp] theorem name_setTree (d : Document) (id : TreeId) (tree : NodeTree) :
    (d.setTree id tree).name = d.name := by
  unfold setTree
  split <;> rfl

@[simp] theorem groupId?_setTree (d : Document) (id : TreeId) (tree : NodeTree) :
    (d.setTree id tree).groupId? = d.groupId? := by
  refine groupId?_congr ?_
  obtain ⟨_ | n⟩ := id
  · rfl
  · refine List.ext_getElem? fun m => ?_
    show ((d.groups.modify n _).map NodeGroup.name)[m]? = _
    by_cases same : n = m
    · subst same
      simp [Function.comp_def]
    · simp [List.getElem?_modify_ne _ _ same]

end

section

variable {d : Document} {id : TreeId} {tree : NodeTree} (found : d.tree? id = some tree)
  (ρ : tree.Rerouting)

include found

/-! ### Nodes of the document with the reroute -/

theorem node?_of_ne {node : NodeId} (other : node ≠ (ρ.detour id).node) :
    (d.setTree id ρ.result).node? node = d.node? node := by
  unfold node?
  by_cases same : node.tree = id
  · have apart : node.index ≠ tree.nodes.length := by
      intro hi
      exact other (NodeId.eq_of same hi)
    rw [same, tree?_setTree_self found, found]
    exact ρ.getElem?_result apart
  · rw [tree?_setTree_of_ne same]

theorem node?_reroute : (d.setTree id ρ.result).node? (ρ.detour id).node = some ρ.reroute := by
  show ((d.setTree id ρ.result).tree? id).bind _ = _
  rw [tree?_setTree_self found]
  exact ρ.getElem?_reroute

theorem node?_absent : d.node? (ρ.detour id).node = none := by
  show (d.tree? id).bind _ = _
  rw [found]
  exact List.getElem?_eq_none (Nat.le_refl _)

theorem node?_source : d.node? (ρ.detour id).source = some ρ.source := by
  show (d.tree? id).bind _ = _
  rw [found]
  exact ρ.there

theorem firstOfKind?_setTree (other : TreeId) {kind : HostKind} (apart : kind ≠ .reroute) :
    (d.setTree id ρ.result).firstOfKind? other kind = d.firstOfKind? other kind := by
  unfold firstOfKind?
  by_cases same : other = id
  · rw [same, tree?_setTree_self found, found]
    simp only [Option.bind_eq_bind, Option.bind_some, ρ.firstOfKind?_result apart]
  · rw [tree?_setTree_of_ne same]

theorem firstOfKind?_ne (other : TreeId) (kind : HostKind) :
    d.firstOfKind? other kind ≠ some (ρ.detour id).node := by
  intro first
  simp only [firstOfKind?, Option.bind_eq_bind, Option.bind_eq_some_iff, Option.pure_def,
    Option.some.injEq] at first
  obtain ⟨nodes, htree, index, hindex, same⟩ := first
  obtain ⟨rfl, rfl⟩ : other = id ∧ index = tree.nodes.length := by
    simpa [NodeTree.Rerouting.detour] using same
  rw [found] at htree
  cases htree
  exact Nat.lt_irrefl _ (List.findIdx?_eq_some_iff_getElem.1 hindex).1

/-- Nothing comes from the reroute as long as it is not there. -/
theorem ne_of_feeds {node source : NodeId} {output : String} (feeds : d.graph.Feeds node source output) :
    source ≠ (ρ.detour id).node := by
  rintro rfl
  obtain ⟨nodes, -, -, htree, -, -, -, -, inside, same, -⟩ := exists_link_of_feeds feeds
  rw [← same] at htree
  rw [show (ρ.detour id).node.tree = id from rfl, found] at htree
  cases htree
  exact Nat.lt_irrefl _ inside

/-! ### Inputs of the document with the reroute -/

/-- Inputs are what they were, except for those that the rerouted link leads into. -/
theorem input?_setTree {node : NodeId} (other : node ≠ (ρ.detour id).node) (key : SocketKey) :
    (d.setTree id ρ.result).input? node key = d.input? node key ∨
    ∃ socket : Socket,
      d.input? node key = some { socket with
        link := some ⟨(ρ.detour id).source, (ρ.detour id).output,
          ρ.source.carriesShader ρ.link.fromSocket, false⟩ } ∧
      (d.setTree id ρ.result).input? node key = some { socket with
        link := some ⟨(ρ.detour id).node, ρ.output, ρ.reroute.carriesShader ρ.output, false⟩ } ∧
      (ρ.source.kind.isTypeless = true ∨ (d.graph.kind node).isTypeless = true ∨
        ρ.source.carriesShader ρ.link.fromSocket = socket.shader) := by
  by_cases same : node.tree = id
  · have apart : node.index ≠ tree.nodes.length := fun hi => other (NodeId.eq_of same hi)
    have kinds : d.graph.kind node = ((tree.nodes[node.index]?).map NodeDecl.kind).getD (.unknown "") := by
      simp only [graph, node?, same, found, Option.bind_eq_bind, Option.bind_some]
    unfold input?
    rw [same, tree?_setTree_self found, found]
    simp only [Option.bind_eq_bind, Option.bind_some, ρ.getElem?_result apart]
    cases hd : tree.nodes[node.index]? with
    | none => exact .inl rfl
    | some decl =>
      have hm : decl ∈ tree.nodes := List.mem_of_getElem? hd
      simp only [Option.bind_some]
      cases decl.inputIndex? key with
      | none => exact .inl rfl
      | some index =>
        simp only [Option.bind_some]
        cases hs : decl.inputs[index]? with
        | none => exact .inl rfl
        | some socket =>
          simp only [Option.bind_some]
          rcases ρ.linkInto?_result hm index with unchanged | ⟨old, new⟩
          · left
            rw [unchanged]
            cases hl : tree.linkInto? decl index with
            | none => rfl
            | some link => rw [Option.bind_some, Option.bind_some,
                ρ.source?_result (List.mem_of_find?_eq_some hl)]
          · right
            refine ⟨⟨socket.name, socket.default.map Literal.toLanes, socket.shader, none⟩, ?_, ?_, ?_⟩
            · rw [old, Option.bind_some, ρ.source?_link]
              rfl
            · rw [new, Option.bind_some, ρ.source?_rerouted]
              rfl
            · rw [kinds, hd]
              have leads : ρ.link.leadsTo decl index = true := by simpa using List.find?_some old
              exact ρ.agree decl hm index (List.getElem?_eq_some_iff.1 hs).1 leads socket hs
  · left
    unfold input?
    rw [tree?_setTree_of_ne same]

/-- The reroute reads what the link came from. -/
theorem input?_reroute : (d.setTree id ρ.result).input? (ρ.detour id).node (.index 0) =
    some ⟨ρ.input.name, ρ.input.default.map Literal.toLanes, ρ.input.shader,
      some ⟨(ρ.detour id).source, (ρ.detour id).output, ρ.source.carriesShader ρ.link.fromSocket,
        false⟩⟩ := by
  unfold input?
  rw [show (ρ.detour id).node.tree = id from rfl, tree?_setTree_self found]
  simp only [Option.bind_eq_bind, Option.bind_some]
  rw [show (ρ.detour id).node.index = tree.nodes.length from rfl, ρ.getElem?_reroute]
  simp only [Option.bind_some, NodeDecl.inputIndex?, ρ.inputs, List.length_singleton, Nat.lt_one_iff,
    if_true, List.getElem?_cons_zero, ρ.linkInto?_reroute, ρ.source?_feed]
  rfl

/-! ### The graph of the document with the reroute -/

theorem kind_of_ne {node : NodeId} (other : node ≠ (ρ.detour id).node) :
    (d.setTree id ρ.result).graph.kind node = d.graph.kind node := by
  simp only [graph, node?_of_ne found ρ other]

theorem kind_reroute : (d.setTree id ρ.result).graph.kind (ρ.detour id).node = .reroute := by
  simp only [graph, node?_reroute found ρ, Option.map_some, Option.getD_some, ρ.kind]

theorem sockets_alike {node : NodeId} (other : node ≠ (ρ.detour id).node) (key : SocketKey) :
    Option.Rel (SocketsAlike (ρ.detour id).pairing d.graph (d.setTree id ρ.result).graph
        (d.graph.kind node))
      (d.input? node key) ((d.setTree id ρ.result).input? node key) := by
  rcases input?_setTree found ρ other key with same | ⟨socket, old, new, agree⟩
  · rw [same]
    cases hs : d.input? node key with
    | none => exact .none
    | some socket =>
      refine .some (.of_visibleLink rfl rfl rfl rfl fun link hl => ?_)
      have apart := ne_of_feeds found ρ ⟨key, socket, link, hs, hl, rfl, rfl⟩
      exact ⟨.same apart _, kind_of_ne found ρ apart⟩
  · rw [old, new]
    refine .some ⟨rfl, rfl, rfl, .some ⟨.through _, .inl ?_⟩⟩
    have source : d.graph.kind (ρ.detour id).source = ρ.source.kind := by
      simp only [graph, node?_source found ρ, Option.map_some, Option.getD_some]
    have unchecked : HostKind.reroute.isTypeless = true := rfl
    rw [HostGraph.unequal, HostGraph.unequal, kind_reroute found ρ, source]
    rcases agree with typeless | typeless | same
    · simp [unchecked, typeless]
    · simp [typeless]
    · simp [unchecked, same]

/-- The graph of the document with the reroute is that of the document, with a detour. -/
theorem detours : d.graph.Detours (ρ.detour id) (d.setTree id ρ.result).graph where
  apart := fun same => Nat.ne_of_lt ρ.place_lt (congrArg NodeId.index same)
  material := name_setTree d id ρ.result
  outputNode := firstOfKind?_setTree found ρ _ (by decide)
  root := firstOfKind?_ne found ρ _ _
  groupTree node other := by
    simp only [graph, groupTree?, property?, node?_of_ne found ρ other, groupId?_setTree]
  calls := by simp only [graph, groupTree?, property?, node?_absent found ρ, Option.bind_eq_bind,
    Option.bind_none]
  groupOutput := funext fun other => firstOfKind?_setTree found ρ other (by decide)
  leaves other := firstOfKind?_ne found ρ other _
  reads node other :=
    { kind := kind_of_ne found ρ other
      label := by
        show d.graph.label node = (d.setTree id ρ.result).graph.label node
        have name : (d.setTree id ρ.result).graph.name node = d.graph.name node := by
          simp only [graph, node?_of_ne found ρ other]
        rw [HostGraph.label, HostGraph.label, name]
      muted := by simp only [graph, node?_of_ne found ρ other]
      inputCount := by simp only [graph, node?_of_ne found ρ other]
      input := sockets_alike found ρ other
      outputDefault := fun output => by
        simp only [graph, outputDefault?, node?_of_ne found ρ other]
      property := fun name _ _ => by simp only [graph, property?, node?_of_ne found ρ other]
      image := by
        simp only [graph, property?, node?_of_ne found ρ other]
        exact .same _ }
  kind := kind_reroute found ρ
  forwards := by
    rw [Plan.inputLink, Plan.throughLink_eq]
    rw [show (d.setTree id ρ.result).graph.input (ρ.detour id).node (.index 0) = _ from
      input?_reroute found ρ]
    simp only [HostGraph.checkedLink, Socket.visibleLink, Option.filter_some, Bool.not_false, if_true,
      kind_reroute found ρ, HostKind.isTypeless, Bool.not_true, Bool.and_false, Bool.false_and,
      Bool.false_eq_true, if_false]

end

end Document

/-! ## Lowering -/

/-- Nothing tells two settings apart, in what they make of a recording, but for the node at which a cycle
    is noticed: the walk comes to the same root or to the same failure, or to cycles of which the second
    one is `noticed`; and the walk and the material leave the same recording. -/
structure Setting.SameButCycles (noticed : String → Prop) (s s' : Setting) (r : Recording) : Prop where
  walk : (on (Walk.root s') (.start r)).1 = (on (Walk.root s) (.start r)).1 ∨
    ∃ node output node' output', (on (Walk.root s) (.start r)).1 = .error (.cyclicGraph node output) ∧
      (on (Walk.root s') (.start r)).1 = .error (.cyclicGraph node' output') ∧ noticed node'
  walked : (on (Walk.root s') (.start r)).2.recording = (on (Walk.root s) (.start r)).2.recording
  root : ∀ showErrors, (s'.lower showErrors r).root = (s.lower showErrors r).root
  recording : ∀ showErrors, (s'.lower showErrors r).recording = (s.lower showErrors r).recording

namespace Setting.SameButCycles

variable {noticed noticed' : String → Prop} {s s' s'' : Setting} {r : Recording}

theorem refl (noticed : String → Prop) (s : Setting) (r : Recording) :
    s.SameButCycles noticed s r :=
  ⟨.inl rfl, rfl, fun _ => rfl, fun _ => rfl⟩

theorem mono (h : s.SameButCycles noticed s' r) (le : ∀ name, noticed name → noticed' name) :
    s.SameButCycles noticed' s' r :=
  { h with
    walk := h.walk.imp_right fun ⟨node, output, node', output', left, right, new⟩ =>
      ⟨node, output, node', output', left, right, le node' new⟩ }

theorem trans (h : s.SameButCycles noticed s' r) (h' : s'.SameButCycles noticed s'' r) :
    s.SameButCycles noticed s'' r where
  walk := by
    rcases h'.walk with same' | ⟨node, output, node', output', left', right', new'⟩
    · rw [same']
      exact h.walk
    · -- Both walks of the second pair end in cycles, and so the first walk does too.
      rcases h.walk with same | ⟨first, firstOutput, -, -, left, -, -⟩
      · exact .inr ⟨node, output, node', output', same ▸ left', right', new'⟩
      · exact .inr ⟨first, firstOutput, node', output', left, right', new'⟩
  walked := h'.walked.trans h.walked
  root showErrors := (h'.root showErrors).trans (h.root showErrors)
  recording showErrors := (h'.recording showErrors).trans (h.recording showErrors)

end Setting.SameButCycles

namespace Detour

/-- Walks that end alike come to the same, unless the first one is stopped. -/
theorem Ends.same {δ : Detour} {s s' : Setting} {r : Recording} {noticed : String → Prop}
    (ends : δ.Ends s.graph s'.graph none (on (Walk.root s) (.start r)) (on (Walk.root s') (.start r)))
    (material : s'.graph.material = s.graph.material)
    (unstopped : ∀ label name, (on (Walk.root s) (.start r)).1 ≠ .error (.tooDeep label name))
    (new : noticed (s'.graph.label δ.node)) : s.SameButCycles noticed s' r := by
  have lowered := Setting.lower_congr (r := r) material
  generalize hrun : on (Walk.root s) (.start r) = run, hrun' : on (Walk.root s') (.start r) = run'
    at ends unstopped lowered
  cases ends with
  | ok root state =>
    have lowered := lowered rfl state.recording
    refine ⟨.inl ?_, ?_, fun e => (lowered e).1, fun e => (lowered e).2⟩
    · rw [hrun, hrun']
    · rw [hrun, hrun', state.recording]
  | @error failure failure' σ σ' fails state =>
    have lowered := lowered rfl state.recording
    refine ⟨?_, ?_, fun e => (lowered e).1, fun e => (lowered e).2⟩
    · rw [hrun, hrun']
      cases fails with
      | same => exact .inl rfl
      | later output => exact .inr ⟨_, _, _, _, rfl, rfl, new⟩
    · rw [hrun, hrun', state.recording]
  | @stopped failure deep =>
    cases failure with
    | tooDeep label name => exact absurd rfl (unstopped label name)
    | _ => exact deep.elim

end Detour

namespace Document

/-- A reroute is put into a link of one of the trees. -/
inductive Inserts : Document → Document → Prop
  | reroute {d : Document} (id : TreeId) {tree : NodeTree} (found : d.tree? id = some tree)
      (ρ : tree.Rerouting) : Inserts d (d.setTree id ρ.result)

/-- Reroutes are put into links, one after the other. -/
def Rerouted : Document → Document → Prop := ReflTransGen Inserts

/-- The label is that of a reroute that is in the second document alone. -/
def NewReroute (d d' : Document) (label : String) : Prop :=
  ∃ node reroute, d.node? node = none ∧ d'.node? node = some reroute ∧ reroute.kind = .reroute ∧
    d'.graph.label node = label

variable {d d' d'' : Document} {label : String}

theorem Inserts.keeps (h : d.Inserts d') {node : NodeId} {decl : NodeDecl}
    (there : d.node? node = some decl) : d'.node? node = some decl := by
  cases h with
  | reroute id found ρ =>
    have other : node ≠ (ρ.detour id).node := by
      rintro rfl
      rw [node?_absent found ρ] at there
      cases there
    rw [node?_of_ne found ρ other, there]

theorem Rerouted.keeps (h : d.Rerouted d') {node : NodeId} {decl : NodeDecl}
    (there : d.node? node = some decl) : d'.node? node = some decl := by
  induction h with
  | refl => exact there
  | tail _ step ih => exact step.keeps ih

/-- A reroute that was put in stays. -/
theorem NewReroute.kept (new : d.NewReroute d' label) (h : d'.Inserts d'') :
    d.NewReroute d'' label := by
  obtain ⟨node, reroute, absent, there, kind, named⟩ := new
  refine ⟨node, reroute, absent, h.keeps there, kind, ?_⟩
  rw [← named, HostGraph.label, HostGraph.label]
  simp only [graph, there, h.keeps there]

/-- A reroute that is put in last was not there in the beginning. -/
theorem NewReroute.since (new : d'.NewReroute d'' label) (h : d.Rerouted d') :
    d.NewReroute d'' label := by
  obtain ⟨node, reroute, absent, rest⟩ := new
  refine ⟨node, reroute, ?_, rest⟩
  cases there : d.node? node with
  | none => rfl
  | some decl => rw [h.keeps there] at absent; cases absent

/-- A reroute may be put into a link. -/
theorem Inserts.same (h : d.Inserts d') {table : RuleTable} (checked : table.check = .ok ())
    (r : Recording) :
    (d.setting table).SameButCycles (d.NewReroute d') (d'.setting table) r := by
  cases h with
  | @reroute id tree found ρ =>
    have new : d.NewReroute (d.setTree id ρ.result)
        ((d.setTree id ρ.result).graph.label (ρ.detour id).node) :=
      ⟨_, ρ.reroute, node?_absent found ρ, node?_reroute found ρ, ρ.kind, rfl⟩
    generalize hd : d.setTree id ρ.result = d' at new
    have detours : d.graph.Detours (ρ.detour id) d'.graph := hd ▸ Document.detours found ρ
    -- The walk by the reroute may go as deep as it needs to, and twice as deep as the other one.
    have run := root_eq_of_le checked (Nat.le_max_left d'.walkDepth (2 * d.walkDepth)) r
    have ends := @Walk.root_detours _ (d.setting table)
      ⟨d'.graph, table, max d'.walkDepth (2 * d.walkDepth)⟩ detours rfl
      (fun _ _ => RuleTable.accepted_of_check checked) (Nat.le_max_right _ _) r
    rw [run] at ends
    have settles : Walk.Settles (d.setting table) Walk.root (.start r) := Walk.root_settles fun node =>
      (d.sufficient checked rfl rfl node Walk.surface).settles
    exact ends.same detours.material settles.1 new

/-- Reroutes are transparent: a document is lowered as it is with any number of reroutes put into its
    visible links, by any rules, to the same root and to the same native nodes, images and roots in the same
    order, and the walk comes to the same root or the same failure; only where links go round, it may be
    noticed at one of the reroutes. -/
theorem lower_rerouted (h : d.Rerouted d') {table : RuleTable} (checked : table.check = .ok ())
    (r : Recording) :
    (d.setting table).SameButCycles (d.NewReroute d') (d'.setting table) r := by
  induction h with
  | refl => exact .refl _ _ r
  | tail before step ih =>
    exact (ih.mono fun _ new => new.kept step).trans
      ((step.same checked r).mono fun _ new => new.since before)

/-- A plain reroute. -/
def plainReroute (name : String) : NodeDecl :=
  ⟨name, .reroute, [⟨"Input", none, false⟩], [⟨"Output", none, false⟩], .ofList [], false⟩

/-- A group that tints: its paint goes through a muted node. -/
def tint : NodeTree where
  nodes :=
    [⟨"paint", .rgb, [], [⟨"Color", some (.vector [.one, .zero, .zero]), false⟩], .ofList [], false⟩,
      ⟨"mute", .invert, [⟨"Fac", none, false⟩, ⟨"Color", none, false⟩], [⟨"Color", none, false⟩],
        .ofList [], true⟩,
      ⟨"out", .groupOutput, [⟨"Color", none, false⟩], [], .ofList [], false⟩]
  links :=
    [⟨"mute", "Color", "out", .index 0, false⟩, ⟨"paint", "Color", "mute", .name "Color", false⟩]

/-- A material that glows in the color that the group comes to. -/
def tinted : Document where
  name := "tinted"
  tree :=
    { nodes :=
        [⟨"output", .outputMaterial, [⟨"Surface", none, true⟩], [], .ofList [], false⟩,
          ⟨"glow", .emission, [⟨"Color", none, false⟩, ⟨"Strength", none, false⟩],
            [⟨"Emission", none, true⟩], .ofList [], false⟩,
          ⟨"call", .group, [], [⟨"Color", none, false⟩],
            .ofList [(groupProperty, .text "tint")], false⟩]
      links :=
        [⟨"glow", "Emission", "output", .name "Surface", false⟩,
          ⟨"call", "Color", "glow", .name "Color", false⟩] }
  groups := [⟨"tint", tint⟩]

/-- A reroute in the link into the muted node. -/
def firstBend : tint.Rerouting where
  before := [⟨"mute", "Color", "out", .index 0, false⟩]
  link := ⟨"paint", "Color", "mute", .name "Color", false⟩
  after := []
  links := rfl
  visible := rfl
  source := ⟨"paint", .rgb, [], [⟨"Color", some (.vector [.one, .zero, .zero]), false⟩], .ofList [], false⟩
  place := 0
  first := by decide
  there := rfl
  agree := by decide
  reroute := plainReroute "bend"
  kind := rfl
  input := ⟨"Input", none, false⟩
  inputs := rfl
  entry := .index 0
  enters := .inl rfl
  output := "Output"
  freshNode := by decide
  freshLink := by decide

/-- Another one, between the first one and the muted node. -/
def secondBend : firstBend.result.Rerouting where
  before := [⟨"mute", "Color", "out", .index 0, false⟩]
  link := ⟨"bend", "Output", "mute", .name "Color", false⟩
  after := [⟨"paint", "Color", "bend", .index 0, false⟩]
  links := rfl
  visible := rfl
  source := plainReroute "bend"
  place := 3
  first := by decide
  there := rfl
  agree := by decide
  reroute := plainReroute "turn"
  kind := rfl
  input := ⟨"Input", none, false⟩
  inputs := rfl
  entry := .name "Input"
  enters := .inr rfl
  output := "Output"
  freshNode := by decide
  freshLink := by decide

/-- The material with both reroutes in the group. -/
def tintedRerouted : Document :=
  (tinted.setTree ⟨1⟩ firstBend.result).setTree ⟨1⟩ secondBend.result

/-- Two reroutes, one after the other, between the paint and the muted node of the group: the material
    glows. -/
theorem lower_rerouted_chain :
    tinted.Rerouted tintedRerouted ∧ RuleTable.builtin.check = .ok () ∧
      (tinted.setting .builtin).SameButCycles (tinted.NewReroute tintedRerouted)
        (tintedRerouted.setting .builtin) .empty ∧
      (on (Walk.root (tintedRerouted.setting .builtin)) (.start .empty)).1 = .ok ⟨2⟩ := by
  have rerouted : tinted.Rerouted tintedRerouted :=
    ReflTransGen.tail (ReflTransGen.tail .refl (.reroute ⟨1⟩ rfl firstBend)) (.reroute ⟨1⟩ rfl secondBend)
  exact ⟨rerouted, RuleTable.builtin_check, lower_rerouted rerouted RuleTable.builtin_check .empty,
    by decide +kernel⟩

/-- A surface that glows in a channel of its own other channel, with or without a reroute in the link
    that is asked for twice. -/
def circling (rerouted : Bool) : Document where
  name := "circling"
  tree :=
    { nodes :=
        [⟨"output", .outputMaterial, [⟨"Surface", none, true⟩], [], .ofList [], false⟩,
          ⟨"glow", .emission, [⟨"Color", none, false⟩, ⟨"Strength", none, false⟩],
            [⟨"Emission", none, true⟩], .ofList [], false⟩,
          ⟨"split", .separateRgb, [⟨"Image", none, false⟩], [⟨"R", none, false⟩, ⟨"G", none, false⟩],
            .ofList [], false⟩,
          ⟨"gray", .rgbToBw, [⟨"Color", none, false⟩], [⟨"Val", none, false⟩], .ofList [], false⟩,
          plainReroute "bend"]
      links :=
        [⟨"glow", "Emission", "output", .name "Surface", false⟩,
          ⟨"split", "R", "glow", .name "Color", false⟩, ⟨"split", "G", "gray", .name "Color", false⟩,
          if rerouted then ⟨"bend", "Output", "split", .index 0, false⟩
          else ⟨"gray", "Val", "split", .index 0, false⟩,
          ⟨"gray", "Val", "bend", .index 0, false⟩] }
  groups := []

example :
    (on (Walk.root ((circling false).setting .builtin)) (.start .empty)).1 =
        .error (.cyclicGraph "gray" "Val") ∧
      (on (Walk.root ((circling true).setting .builtin)) (.start .empty)).1 =
        .error (.cyclicGraph "bend" "Output") := by
  decide +kernel

end Document

end MaterialLowering
