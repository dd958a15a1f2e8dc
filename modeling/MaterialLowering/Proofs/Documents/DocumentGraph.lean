import MaterialLowering.Proofs.Walks.SoundWalk

/-!
# The graph of a document

What can be relied on in the graph of every document: links stay in their tree, the output node of
a group is in its tree, and calls lead to groups. There are finitely many nodes, outputs that links
name, and chains of calls of pairwise different groups.

Results:
* `Document.feeds_spec`, `Document.groupOutput_spec`, `Document.groupTree_spec`: where links and calls
  lead.
* `Document.mem_chains`, `Document.length_chains_le`: chains of calls.
-/

namespace MaterialLowering

theorem NodeId.eq_of {node node' : NodeId} (tree : node.tree = node'.tree)
    (index : node.index = node'.index) : node = node' := by
  cases node
  cases node'
  exact congr (congrArg NodeId.mk tree) index

namespace Document

variable {d : Document}

/-! ## Nodes -/

/-- The addresses of all nodes. -/
def nodeIds (d : Document) : List NodeId :=
  d.trees.zipIdx.flatMap fun (tree, number) => (List.range tree.nodes.length).map (⟨⟨number⟩, ·⟩)

/-- The outputs that links name. -/
def outputNames (d : Document) : List String := (d.trees.flatMap NodeTree.links).map LinkDecl.fromSocket

theorem tree?_eq_getElem? (id : TreeId) : d.tree? id = d.trees[id.number]? := by
  obtain ⟨_ | n⟩ := id
  · rfl
  · simp [tree?, trees]

theorem length_nodeIds : d.nodeIds.length = d.nodeCount := by
  have lengths : d.trees.zipIdx.map (fun p : NodeTree × Nat => p.1.nodes.length) =
      d.trees.map fun tree => tree.nodes.length := by
    conv_rhs => rw [← List.zipIdx_map_fst 0 d.trees, List.map_map]
    rfl
  simp [nodeIds, nodeCount, List.length_flatMap, lengths]

theorem length_outputNames : d.outputNames.length = d.linkCount := by simp [outputNames, linkCount]

theorem mem_nodeIds {id : TreeId} {tree : NodeTree} {index : Nat} (h : d.tree? id = some tree)
    (hi : index < tree.nodes.length) : ⟨id, index⟩ ∈ d.nodeIds := by
  rw [tree?_eq_getElem?] at h
  refine List.mem_flatMap.2 ⟨(tree, id.number), List.mem_zipIdx_iff_getElem?.2 h, ?_⟩
  exact List.mem_map.2 ⟨index, List.mem_range.2 hi, rfl⟩

/-! ## Links -/

/-- What feeds a node is found by a link of its tree. -/
theorem exists_link_of_feeds {node source : NodeId} {output : String}
    (h : d.graph.Feeds node source output) :
    ∃ tree decl link, d.tree? node.tree = some tree ∧ tree.nodes[node.index]? = some decl ∧
      link ∈ tree.links ∧ link.toNode = decl.name ∧ tree.nodeIndex? link.fromNode = some source.index ∧
      source.index < tree.nodes.length ∧ source.tree = node.tree ∧ link.fromSocket = output := by
  obtain ⟨key, socket, link, hinput, hlink, rfl, rfl⟩ := h
  have hlink : socket.link = some link := (Option.filter_eq_some_iff.1 hlink).1
  simp only [graph, input?, Option.bind_eq_bind, Option.bind_eq_some_iff, Option.pure_def,
    Option.some.injEq] at hinput
  obtain ⟨tree, htree, decl, hdecl, index, -, socketDecl, -, rfl⟩ := hinput
  obtain ⟨linkDecl, hinto, hsource⟩ := Option.bind_eq_some_iff.1 hlink
  simp only [NodeTree.source?, Option.bind_eq_bind, Option.bind_eq_some_iff, Option.pure_def,
    Option.some.injEq] at hsource
  obtain ⟨place, hplace, from', hfrom, rfl⟩ := hsource
  have leads : linkDecl.leadsTo decl index = true := by
    simpa using List.find?_some hinto
  simp only [LinkDecl.leadsTo, Bool.and_eq_true, decide_eq_true_eq] at leads
  exact ⟨tree, decl, linkDecl, htree, hdecl, List.mem_of_find?_eq_some hinto, leads.1, hplace,
    (List.getElem?_eq_some_iff.1 hfrom).1, rfl, rfl⟩

/-- A link comes from a node in its own tree, and from an output that it names. -/
theorem feeds_spec {node source : NodeId} {output : String} (h : d.graph.Feeds node source output) :
    source.tree = node.tree ∧ source ∈ d.nodeIds ∧ output ∈ d.outputNames := by
  obtain ⟨tree, decl, link, htree, -, hlink, -, -, inside, same, rfl⟩ := exists_link_of_feeds h
  refine ⟨same, mem_nodeIds (same ▸ htree) inside, List.mem_map.2 ⟨link, ?_, rfl⟩⟩
  exact List.mem_flatMap.2 ⟨tree, List.mem_of_getElem? (tree?_eq_getElem? node.tree ▸ htree), hlink⟩

/-! ## Groups -/

/-- Groups are found by their names alone. -/
theorem groupId?_congr {d' : Document}
    (names : d'.groups.map NodeGroup.name = d.groups.map NodeGroup.name) :
    d'.groupId? = d.groupId? := by
  have place : ∀ (groups : List NodeGroup) name, (groups.findIdx? fun group => group.name = name) =
      (groups.map NodeGroup.name).findIdx? fun other => other = name := by
    intro groups name
    rw [List.findIdx?_map]
    rfl
  funext name
  rw [groupId?, groupId?, place, place, names]

/-- The first node of a kind is in the tree that it is looked for in, and of that kind. -/
theorem firstOfKind?_spec {tree : TreeId} {kind : HostKind} {node : NodeId}
    (h : d.firstOfKind? tree kind = some node) :
    node.tree = tree ∧ node ∈ d.nodeIds ∧ d.graph.kind node = kind := by
  simp only [firstOfKind?, Option.bind_eq_bind, Option.bind_eq_some_iff, Option.pure_def,
    Option.some.injEq] at h
  obtain ⟨nodes, htree, index, hindex, rfl⟩ := h
  obtain ⟨inside, same, -⟩ := List.findIdx?_eq_some_iff_getElem.1 hindex
  have there : d.node? ⟨tree, index⟩ = some nodes.nodes[index] := by
    simp [node?, htree, inside]
  refine ⟨rfl, mem_nodeIds htree inside, ?_⟩
  simpa [graph, there] using same

/-- The output node of a group is in the tree of the group. -/
theorem groupOutput_spec {tree : TreeId} {node : NodeId} (h : d.graph.groupOutput tree = some node) :
    node.tree = tree ∧ node ∈ d.nodeIds :=
  ⟨(firstOfKind?_spec h).1, (firstOfKind?_spec h).2.1⟩

/-- A call leads to a group. -/
theorem groupTree_spec {callSite : NodeId} {tree : TreeId}
    (h : d.graph.groupTree callSite = some tree) :
    callSite ∈ d.nodeIds ∧ ∃ n < d.groups.length, tree = ⟨n + 1⟩ := by
  simp only [graph, groupTree?, property?, node?, groupId?, Option.bind_eq_bind,
    Option.bind_eq_some_iff, Option.map_eq_some_iff] at h
  obtain ⟨-, ⟨decl, ⟨nodes, htree, hdecl⟩, -⟩, name, -, n, hn, rfl⟩ := h
  exact ⟨mem_nodeIds htree (List.getElem?_eq_some_iff.1 hdecl).1, n,
    (List.findIdx?_eq_some_iff_getElem.1 hn).1, rfl⟩

/-! ## What walks rely on -/

/-- The group-input nodes of a group agree on the default of each formal. -/
def FormalsAgree (d : Document) : Prop :=
  ∀ a b : NodeId, a.tree = b.tree → a.tree ≠ .material → d.graph.kind a = .groupInput →
    d.graph.kind b = .groupInput → ∀ name, d.graph.outputDefault a name = d.graph.outputDefault b name

theorem setting_regular (d : Document) {table : RuleTable} (hc : table.check = .ok ())
    {fixed : Key → Prop}
    (formals : ∀ a b : NodeId, a.tree = b.tree → a.tree ≠ .material → d.graph.IsGroupInput a →
      d.graph.IsGroupInput b → ∀ name scope, fixed ⟨b, name, scope, d.name⟩ →
        d.graph.outputDefault a name = d.graph.outputDefault b name) :
    (d.setting table).Regular fixed where
  rules _ _ h := RuleTable.accepted_of_check hc h
  feeds _ _ _ h := (feeds_spec h).1
  groupOutput _ _ h := (groupOutput_spec h).1
  formals callSite tree h a b ha hb hta htb name scope hf := by
    obtain ⟨-, n, -, rfl⟩ := groupTree_spec h
    refine formals a b (hta.trans htb.symm) (fun hm => ?_) ha hb name scope hf
    rw [hta] at hm
    cases hm

/-! ## Chains of calls -/

/-- The chains of at most `n` calls. -/
def chains (d : Document) : Nat → List (List NodeId)
  | 0 => [[]]
  | n + 1 => [] :: d.nodeIds.flatMap fun callSite => (d.chains n).map (callSite :: ·)

theorem mem_chains {n : Nat} {chain : List NodeId} (hn : chain.length ≤ n)
    (h : ∀ callSite ∈ chain, callSite ∈ d.nodeIds) : chain ∈ d.chains n := by
  induction n generalizing chain with
  | zero =>
    obtain rfl := List.length_eq_zero_iff.1 (Nat.le_zero.1 hn)
    exact List.mem_singleton.2 rfl
  | succ n ih =>
    cases chain with
    | nil => exact List.mem_cons_self
    | cons callSite around =>
      obtain ⟨hc, ha⟩ := List.forall_mem_cons.1 h
      have inner := ih (Nat.le_of_succ_le_succ hn) ha
      exact List.mem_cons_of_mem _
        (List.mem_flatMap.2 ⟨callSite, hc, List.mem_map.2 ⟨around, inner, rfl⟩⟩)

theorem length_chains_le (n : Nat) : (d.chains n).length ≤ Nat.pow (d.nodeCount + 2) n := by
  induction n with
  | zero => simp [chains]
  | succ n ih =>
    have length : (d.chains (n + 1)).length = 1 + d.nodeCount * (d.chains n).length := by
      simp [chains, List.length_flatMap, length_nodeIds, Nat.add_comm]
    have pos : 0 < Nat.pow (d.nodeCount + 2) n := Nat.pow_pos (Nat.succ_pos _)
    calc (d.chains (n + 1)).length
        = 1 + d.nodeCount * (d.chains n).length := length
      _ ≤ Nat.pow (d.nodeCount + 2) n + d.nodeCount * Nat.pow (d.nodeCount + 2) n :=
        Nat.add_le_add pos (Nat.mul_le_mul_left _ ih)
      _ = (d.nodeCount + 1) * Nat.pow (d.nodeCount + 2) n := by
        rw [Nat.add_mul, Nat.one_mul, Nat.add_comm]
      _ ≤ (d.nodeCount + 2) * Nat.pow (d.nodeCount + 2) n := Nat.mul_le_mul_right _ (by omega)
      _ = Nat.pow (d.nodeCount + 2) (n + 1) := Nat.mul_comm _ _

/-- Calls of pairwise different groups are no more than there are groups. -/
theorem length_le_groups {chain : List NodeId} (nodup : (chain.map d.graph.groupTree).Nodup)
    (h : ∀ callSite ∈ chain, (d.graph.groupTree callSite).isSome) :
    chain.length ≤ d.groups.length := by
  have subset : chain.map d.graph.groupTree ⊆
      (List.range d.groups.length).map fun n => some (⟨n + 1⟩ : TreeId) := by
    intro tree ht
    obtain ⟨callSite, hc, rfl⟩ := List.mem_map.1 ht
    obtain ⟨tree, ht⟩ := Option.isSome_iff_exists.1 (h callSite hc)
    obtain ⟨-, n, hn, rfl⟩ := groupTree_spec ht
    exact List.mem_map.2 ⟨n, List.mem_range.2 hn, ht.symm⟩
  simpa using nodup.length_le_of_subset subset

end Document

end MaterialLowering
