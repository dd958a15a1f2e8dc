import MaterialLowering.Proofs.Documents.Renaming

/-!
# Lowering does not depend on how a document is written down

A well-named document may be written down with its nodes, groups and links in another order and with
other names for nodes and groups. The nodes and trees of the two documents then stand for each other,
wherever they are in the lists, and all that is asked about one of them is answered alike for the other.
So the documents are lowered to the same, but for the names that failures show.

Main definitions:
* `Document.Rewriting`: a well-named document, other names that fit it, and another order.
* `Document.matching`: the trees and nodes that stand for each other.

Results:
* `Document.Rewriting.graph_matches`: the graphs of the documents match.
* `Document.lower_rewritten`: the documents are lowered to the same.
-/

namespace MaterialLowering

open HostGraph (ImagesAlike LinksAlike ReadsAs SocketsAlike imageProperty)
open Walk (on)

/-! ## Parts that stand for each other -/

/-- A tree and its group's name are the same but for names and order. -/
structure PartsAlike (ρ : Renaming) (part part' : Option String × NodeTree) : Prop where
  name : part'.1 = part.1.map ρ.group
  tree : part.2.Rewritten (ρ.node part.1) ρ.group part'.2

namespace Document

theorem tree?_eq_parts (d : Document) (id : TreeId) :
    d.tree? id = d.parts[id.number]?.map Prod.snd := by
  obtain ⟨_ | n⟩ := id
  · rfl
  · simp only [tree?, parts, List.getElem?_cons_succ, List.getElem?_map, Option.map_map, Function.comp_def]

/-- Groups are found among all trees. -/
theorem groupId?_eq_parts (d : Document) (name : String) :
    d.groupId? name = (d.parts.findIdx? fun part => part.1 = some name).map TreeId.mk := by
  rw [groupId?, parts, List.findIdx?_cons, if_neg (by simp), List.findIdx?_map, Option.map_map]
  simp only [Function.comp_def, Option.some.injEq]

theorem mem_trees {d : Document} {part : Option String × NodeTree} (hp : part ∈ d.parts) :
    part.2 ∈ d.trees := by
  rcases List.mem_cons.1 hp with rfl | hg
  · exact List.mem_cons_self
  · obtain ⟨group, found, rfl⟩ := List.mem_map.1 hg
    exact List.mem_cons_of_mem _ (List.mem_map_of_mem found)

theorem mem_groupNames {d : Document} {part : Option String × NodeTree} (hp : part ∈ d.parts)
    {name : String}
    (key : part.1 = some name) : name ∈ d.groupNames := by
  rcases List.mem_cons.1 hp with rfl | hg
  · cases key
  · obtain ⟨group, found, rfl⟩ := List.mem_map.1 hg
    obtain rfl := Option.some.inj key
    exact List.mem_append_left _ (List.mem_map_of_mem found)

/-- A well-named document, other names that fit it, and the document with these names in another
    order. -/
structure Rewriting (ρ : Renaming) (d d' : Document) : Prop where
  named : d.WellNamed
  fits : ρ.Fits d
  order : (d.renamed ρ).Reordered d'

/-- Trees stand for each other if they are the same but for names and order, nodes if they are the same
    but for names in such trees, and labels if the names in some tree do. -/
def matching (ρ : Renaming) (d d' : Document) (failing : SortedMap String Unit) : Matching where
  node node node' := ∃ part part', d.parts[node.tree.number]? = some part ∧
    d'.parts[node'.tree.number]? = some part' ∧ PartsAlike ρ part part' ∧
    part.2.NodesStandFor (ρ.node part.1) ρ.group part'.2 node.index node'.index
  tree tree tree' := StandFor (PartsAlike ρ) d.parts d'.parts tree.number tree'.number
  label a b := ∃ part ∈ d.parts, b = ρ.node part.1 a
  failing := failing

namespace Rewriting

variable {ρ : Renaming} {d d' : Document} {failing : SortedMap String Unit}

section Parts

variable (h : d.Rewriting ρ d')

include h

theorem parts : Shuffled (PartsAlike ρ) d.parts d'.parts := by
  obtain ⟨between, alike, perm⟩ := h.order.groups
  refine ⟨(none, d'.tree) :: between.map fun group => (some group.name, group.tree),
    .cons ⟨rfl, h.order.tree⟩ ?_, (perm.map _).cons _⟩
  refine List.forall₂_map_left_iff.2 (List.forall₂_map_right_iff.2 ?_)
  refine (List.forall₂_map_left_iff.1 alike).imp fun group group' same => ⟨?_, same.2⟩
  exact congrArg some same.1

theorem keys_nodup : (d.parts.map Prod.fst).Nodup := by
  have keys : d.parts.map Prod.fst = none :: (d.groups.map NodeGroup.name).map some := by
    simp [Document.parts]
  rw [keys, List.nodup_cons]
  exact ⟨by simp, h.named.groups.map fun _ _ => Option.some.inj⟩

theorem wellNamed {part : Option String × NodeTree} (hp : part ∈ d.parts) : part.2.WellNamed :=
  h.named.trees _ (mem_trees hp)

/-- A group is found by its other name. -/
theorem groupId? {name : String} (occurs : name ∈ d.groupNames) :
    Option.Rel (matching ρ d d' failing).tree (d.groupId? name) (d'.groupId? (ρ.group name)) := by
  have found : Option.Rel (StandFor (PartsAlike ρ) d.parts d'.parts)
      (d.parts.findIdx? fun part => part.1 = some name)
      (d'.parts.findIdx? fun part => part.1 = some (ρ.group name)) := by
    refine h.parts.findIdx? (countP_le_one_of_nodup h.keys_nodup (some name)) fun part hp part' alike =>
      decide_eq_decide.2 ?_
    rw [alike.name, Option.map_eq_some_iff]
    constructor
    · rintro ⟨other, key, same⟩
      rw [key, h.fits.groups _ (mem_groupNames hp key) _ occurs same]
    · rintro key
      exact ⟨name, key, rfl⟩
  rw [groupId?_eq_parts, groupId?_eq_parts]
  generalize d.parts.findIdx? _ = i, d'.parts.findIdx? _ = j at found
  cases found with
  | none => exact .none
  | some here => exact .some here

theorem trees_biUnique : Relator.BiUnique (matching ρ d d' failing).tree := by
  have places : Relator.BiUnique (StandFor (PartsAlike ρ) d.parts d'.parts) := by
    refine h.parts.biUnique Prod.fst Prod.fst (Option.map ρ.group) (fun _ _ alike => alike.name)
      h.keys_nodup fun a ha b hb same => ?_
    rcases hka : a.1 with _ | name <;> rcases hkb : b.1 with _ | other <;> rw [hka, hkb] at same
    · cases same
    · cases same
    · have occurs := mem_groupNames ha hka
      rw [h.fits.groups _ occurs _ (mem_groupNames hb hkb) (Option.some.inj same)]
  exact ⟨fun a b c ac bc => congrArg TreeId.mk (places.1 ac bc),
    fun a b c ab ac => congrArg TreeId.mk (places.2 ab ac)⟩

omit h in
/-- Nodes that stand for each other are in trees that do. -/
theorem tree_of_node {node node' : NodeId} (here : (matching ρ d d' failing).node node node') :
    (matching ρ d d' failing).tree node.tree node'.tree := by
  obtain ⟨part, part', place, place', alike, -⟩ := here
  exact ⟨part, part', place, place', alike⟩

theorem nodes_biUnique : Relator.BiUnique (matching ρ d d' failing).node := by
  have trees : Relator.BiUnique (matching ρ d d' failing).tree := h.trees_biUnique
  have indices : ∀ {a b a' b' : NodeId}, (matching ρ d d' failing).node a a' →
      (matching ρ d d' failing).node b b' → a.tree = b.tree → a'.tree = b'.tree →
        (a.index = b.index ↔ a'.index = b'.index) := by
    rintro ⟨id, i⟩ ⟨id₂, i₂⟩ ⟨id', j⟩ ⟨id₂', j₂⟩ ⟨part, part', place, place', alike, here⟩
      ⟨part₂, part₂', place₂, place₂', -, here₂⟩ same same'
    obtain rfl : id = id₂ := same
    obtain rfl : id' = id₂' := same'
    obtain rfl : part = part₂ := Option.some.inj (place.symm.trans place₂)
    obtain rfl : part' = part₂' := Option.some.inj (place'.symm.trans place₂')
    have hp : part ∈ d.parts := List.mem_of_getElem? place
    exact Relator.rel_eq (alike.tree.nodes_biUnique (h.wellNamed hp) (h.fits.nodes part hp)) here here₂
  refine ⟨fun a b c ac bc => ?_, fun a b c ab ac => ?_⟩
  · have same : a.tree = b.tree := trees.1 (tree_of_node ac) (tree_of_node bc)
    exact NodeId.eq_of same ((indices ac bc same rfl).2 rfl)
  · have same : b.tree = c.tree := trees.2 (tree_of_node ab) (tree_of_node ac)
    exact NodeId.eq_of same ((indices ab ac rfl same).1 rfl)

end Parts

/-- A node that is found by its kind stands for the one that is found in the tree that stands for its
    tree. -/
theorem firstOfKind? {tree tree' : TreeId} (here : (matching ρ d d' failing).tree tree tree')
    {kind : HostKind}
    (once : ∀ part ∈ d.parts, part.2.nodes.countP (fun decl => decl.kind = kind) ≤ 1) :
    Option.Rel (matching ρ d d' failing).node (d.firstOfKind? tree kind)
      (d'.firstOfKind? tree' kind) := by
  obtain ⟨part, part', place, place', alike⟩ := here
  have found := alike.tree.firstOfKind? (once part (List.mem_of_getElem? place))
  unfold Document.firstOfKind?
  rw [tree?_eq_parts, tree?_eq_parts, place, place']
  simp only [Option.map_some, Option.bind_eq_bind, Option.bind_some]
  generalize part.2.firstOfKind? kind = i, part'.2.firstOfKind? kind = j at found
  cases found with
  | none => exact .none
  | some here => exact .some ⟨part, part', place, place', alike, here⟩

/-! ## Nodes that stand for each other -/

section Nodes

variable {node node' : NodeId} (here : (matching ρ d d' failing).node node node')

include here

/-- Nodes that stand for each other are the same but for names. -/
theorem exists_decl : ∃ part ∈ d.parts, ∃ decl ∈ part.2.nodes, d.node? node = some decl ∧
    d'.node? node' = some (decl.renamed (ρ.node part.1) ρ.group) := by
  obtain ⟨part, part', place, place', -, decl, _, there, there', rfl⟩ := here
  refine ⟨part, List.mem_of_getElem? place, decl, List.mem_of_getElem? there, ?_, ?_⟩
  · rw [node?, tree?_eq_parts, place]
    exact there
  · rw [node?, tree?_eq_parts, place']
    exact there'

theorem kind_eq : d'.graph.kind node' = d.graph.kind node := by
  obtain ⟨part, -, decl, -, there, there'⟩ := exists_decl here
  simp only [graph, there, there']
  rfl

theorem property?_eq {name : String} (other : name ≠ groupProperty) :
    d'.property? node' name = d.property? node name := by
  obtain ⟨part, -, decl, -, there, there'⟩ := exists_decl here
  rw [property?, property?, there, there']
  exact decl.get?_properties_renamed _ _ other

variable (h : d.Rewriting ρ d')

include h

theorem label : (matching ρ d d' failing).label (d.graph.label node) (d'.graph.label node') := by
  obtain ⟨part, hp, decl, hd, there, there'⟩ := exists_decl here
  have named : decl.name ≠ "" := (h.wellNamed hp).nonempty decl hd
  have renamed : ρ.node part.1 decl.name ≠ "" :=
    h.fits.nonempty part hp _ (NodeTree.name_mem_names hd)
  have name : d.graph.name node = decl.name := by simp [graph, there]
  have name' : d'.graph.name node' = ρ.node part.1 decl.name := by
    simp only [graph, there']
    rfl
  refine ⟨part, hp, ?_⟩
  rw [HostGraph.label, HostGraph.label, name, name', if_neg (by simpa using renamed),
    if_neg (by simpa using named)]

/-- Inputs are the same, and links into them come from nodes that stand for each other. -/
theorem input? (key : SocketKey) :
    Option.Rel (SocketsAlike (matching ρ d d' failing).pairing d.graph d'.graph (d.graph.kind node))
      (d.input? node key) (d'.input? node' key) := by
  obtain ⟨part, part', place, place', alike, decl, _, there, there', rfl⟩ := here
  have hp := List.mem_of_getElem? place
  have hd := List.mem_of_getElem? there
  have injective := h.fits.nodes part hp
  unfold Document.input?
  rw [tree?_eq_parts, tree?_eq_parts, place, place']
  simp only [Option.map_some, Option.bind_eq_bind, Option.bind_some, there, there',
    NodeDecl.inputIndex?_renamed]
  cases decl.inputIndex? key with
  | none => exact .none
  | some input =>
    simp only [Option.bind_some]
    show Option.Rel _ (decl.inputs[input]?.bind _) (decl.inputs[input]?.bind _)
    cases decl.inputs[input]? with
    | none => exact .none
    | some socket =>
      refine .some ⟨rfl, rfl, rfl, ?_⟩
      show Option.Rel _ (Option.filter _ _) (Option.filter _ _)
      rw [alike.tree.linkInto? injective hd]
      cases hl : part.2.linkInto? decl input with
      | none => exact .none
      | some link =>
        have sources := alike.tree.source? (h.wellNamed hp) injective (List.mem_of_find?_eq_some hl)
          node.tree node'.tree
        simp only [Option.map_some, Option.bind_some]
        generalize part.2.source? node.tree link = source,
          part'.2.source? node'.tree (link.renamed (ρ.node part.1)) = source' at sources
        cases sources with
        | none => exact .none
        | @some source source' same =>
          obtain ⟨tree, tree', stands, output, shader, hidden⟩ := same
          rw [Option.filter_some, Option.filter_some, hidden]
          have asked : (matching ρ d d' failing).node source.node source'.node :=
            ⟨part, part', tree ▸ place, tree' ▸ place', alike, stands⟩
          cases source.hidden with
          | true => exact .none
          | false =>
            exact .some (.of_same (p := (matching ρ d d' failing).pairing) ⟨asked, output⟩ shader
              (by rw [kind_eq asked]) _ _)

theorem reads :
    ReadsAs (matching ρ d d' failing).pairing d.graph d'.graph node node' := by
  obtain ⟨part, -, decl, -, there, there'⟩ := exists_decl here
  exact
    { kind := kind_eq here
      label := label here h
      muted := by
        simp only [graph, there, there']
        rfl
      inputCount := by
        simp only [graph, there, there']
        rfl
      input := input? here h
      outputDefault := fun output => by
        show d'.outputDefault? node' output = d.outputDefault? node output
        rw [outputDefault?, outputDefault?, there, there']
        rfl
      property := fun name other _ => property?_eq here other
      image := by
        have image : d'.graph.property node' imageProperty = d.graph.property node imageProperty :=
          property?_eq here (by decide)
        rw [image]
        exact .same _ }

/-- Group nodes call groups that stand for each other. -/
theorem groupTree? (kind : d.graph.kind node = .group) :
    Option.Rel (matching ρ d d' failing).tree (d.groupTree? node) (d'.groupTree? node') := by
  obtain ⟨part, hp, decl, hd, there, there'⟩ := exists_decl here
  have kind : decl.kind = .group := by simpa [graph, there] using kind
  have called : (d.property? node groupProperty).bind Property.asText = decl.groupName? := by
    rw [property?, there, NodeDecl.groupName?, if_pos kind]
    rfl
  have called' : (d'.property? node' groupProperty).bind Property.asText =
      decl.groupName?.map ρ.group := by
    rw [property?, there', ← NodeDecl.groupName?_renamed (ρ.node part.1), NodeDecl.groupName?,
      if_pos (show (decl.renamed _ _).kind = .group from kind)]
    rfl
  have lookup : ∀ (e : Document) (n : NodeId), e.groupTree? n =
      ((e.property? n groupProperty).bind Property.asText).bind e.groupId? := by
    intro e n
    rw [Document.groupTree?, Option.bind_eq_bind, Option.bind_eq_bind, Option.bind_assoc]
  rw [lookup, lookup, called, called']
  cases hg : decl.groupName? with
  | none => exact .none
  | some name =>
    refine h.groupId? (List.mem_append_right _ (List.mem_filterMap.2 ⟨decl, ?_, hg⟩))
    exact List.mem_flatMap.2 ⟨part.2, mem_trees hp, hd⟩

end Nodes

/-! ## Documents -/

/-- The graphs of a document and of another way of writing it down match. -/
theorem graph_matches (h : d.Rewriting ρ d') (failing : SortedMap String Unit) :
    d.graph.Matches (matching ρ d d' failing) d'.graph where
  nodes := h.nodes_biUnique
  trees := h.trees_biUnique
  material := h.order.name
  outputNode := by
    have material : (matching ρ d d' failing).tree .material .material :=
      ⟨(none, d.tree), (none, d'.tree), rfl, rfl, rfl, h.order.tree⟩
    exact firstOfKind? material fun part hp => (h.wellNamed hp).outputMaterial
  reads here := reads here h
  within := tree_of_node
  groupTree here kind := groupTree? here h kind
  groupOutput here := firstOfKind? here fun part hp => (h.wellNamed hp).groupOutput

/-- Results that are alike are the same but for the other names of the nodes in one tree. -/
theorem exists_relabel {α : Type} {result result' : Except Failure α}
    (alike : ResultsAlike (matching ρ d d' failing).label result result') :
    ∃ part ∈ d.parts, result' = result.mapError (Failure.relabel (ρ.node part.1)) := by
  have material : (none, d.tree) ∈ d.parts := List.mem_cons_self
  cases alike with
  | ok a => exact ⟨_, material, rfl⟩
  | @error failure failure' like =>
    obtain ⟨rename, rfl, about⟩ := like
    cases named : failure.label? with
    | none =>
      refine ⟨_, material, congrArg Except.error (Failure.relabel_congr fun name hn => ?_)⟩
      rw [named] at hn
      cases hn
    | some label =>
      obtain ⟨part, hp, other⟩ := about label named
      refine ⟨part, hp, congrArg Except.error (Failure.relabel_congr fun name hn => ?_)⟩
      obtain rfl : label = name := Option.some.inj (named.symm.trans hn)
      exact other

end Rewriting

end Document

/-- A table that was read is accepted. -/
theorem RuleTable.check_of_ofText {text : String} {table : RuleTable} (h : ofText text = .ok table) :
    table.check = .ok () := by
  unfold ofText at h
  cases read : (Json.decodeText decode text).mapError RuleError.refused with
  | error error => simp [read, bind, Except.bind] at h
  | ok found =>
    cases checked : found.check with
    | error error => simp [read, checked, bind, Except.bind] at h
    | ok =>
      simp only [read, checked, bind, Except.bind, pure, Except.pure, Except.ok.injEq] at h
      exact h ▸ checked

namespace Document

/-- Lowering does not depend on how a document is written down. Let the nodes of each tree have names of
    their own, and the groups too, with one node at most of the kinds that are looked up. If nodes and
    groups get other names, different ones for different ones, and nodes, groups and links are listed in
    another order, but links into one node in the same, then by any rules the walk comes to the same root,
    or to the same failure but for the name of the node that it shows; it leaves the same native nodes
    and images; and the material has the same root whatever the options are. -/
theorem lower_rewritten {d d' : Document} {ρ : Renaming} (named : d.WellNamed) (fits : ρ.Fits d)
    (order : (d.renamed ρ).Reordered d') {table : RuleTable} (checked : table.check = .ok ())
    (r : Recording) :
    (∃ part ∈ d.parts, (on (Walk.root (d'.setting table)) (.start r)).1 =
      (on (Walk.root (d.setting table)) (.start r)).1.mapError (Failure.relabel (ρ.node part.1))) ∧
    (on (Walk.root (d'.setting table)) (.start r)).2.recording =
      (on (Walk.root (d.setting table)) (.start r)).2.recording ∧
    (∀ showErrors, (d'.lower table showErrors r).root = (d.lower table showErrors r).root ∧
      (d'.lower table showErrors r).recording = (d.lower table showErrors r).recording) ∧
    ∀ options files,
      (d'.lowerWith options files r).2.map (fun lowered => (lowered.root, lowered.recording)) =
        (d.lowerWith options files r).2.map fun lowered => (lowered.root, lowered.recording) := by
  have found := (Rewriting.mk named fits order).graph_matches r.failing
  have same := found.same checked rfl
  refine ⟨Rewriting.exists_relabel same.walk, same.walked, fun e => ⟨same.root e, same.recording e⟩,
    fun options files => ?_⟩
  have lowered : ∀ table : RuleTable, table.check = .ok () →
      ((d'.lower table options.showErrors r).root, (d'.lower table options.showErrors r).recording) =
        ((d.lower table options.showErrors r).root, (d.lower table options.showErrors r).recording) := by
    intro table checked
    have same := found.same checked rfl
    exact Prod.ext (same.root _) (same.recording _)
  unfold lowerWith
  cases options.rulesPath with
  | none => exact congrArg Except.ok (lowered _ RuleTable.builtin_check)
  | some path =>
    dsimp only
    cases files path with
    | none => rfl
    | some text =>
      cases read : RuleTable.ofText text with
      | error error => simp only [RuleTable.load, read]
      | ok table =>
        simp only [RuleTable.load, read]
        exact congrArg Except.ok (lowered table (RuleTable.check_of_ofText read))

/-- A material with a group that it calls and one that it does not. -/
def framed : Document where
  name := "framed"
  tree :=
    { nodes :=
        [⟨"output", .outputMaterial, [⟨"Surface", none, true⟩], [], .ofList [], false⟩,
          ⟨"frame", .group, [⟨"Tint", none, false⟩], [⟨"Shader", none, true⟩],
            .ofList [("node_tree", .text "Frame")], false⟩]
      links :=
        [⟨"frame", "Shader", "output", .name "Surface", false⟩,
          ⟨"missing", "Color", "frame", .name "Tint", false⟩] }
  groups :=
    [⟨"Spare", .empty⟩,
      ⟨"Frame",
        { nodes :=
            [⟨"inside", .groupOutput, [⟨"Shader", none, true⟩], [], .ofList [], false⟩,
              ⟨"mix", .mixShader, [⟨"Fac", none, false⟩, ⟨"Shader", none, true⟩, ⟨"Shader", none, true⟩],
                [⟨"Shader", none, true⟩], .ofList [], false⟩]
          links := [⟨"mix", "Shader", "inside", .name "Shader", false⟩] }⟩]

/-- The same material in other words. -/
def reworded : Document where
  name := "framed"
  tree :=
    { nodes :=
        [⟨"the frame", .group, [⟨"Tint", none, false⟩], [⟨"Shader", none, true⟩],
            .ofList [("node_tree", .text "Frame 2")], false⟩,
          ⟨"the output", .outputMaterial, [⟨"Surface", none, true⟩], [], .ofList [], false⟩]
      links :=
        [⟨"the missing", "Color", "the frame", .name "Tint", false⟩,
          ⟨"the frame", "Shader", "the output", .name "Surface", false⟩] }
  groups :=
    [⟨"Frame 2",
        { nodes :=
            [⟨"a mix", .mixShader, [⟨"Fac", none, false⟩, ⟨"Shader", none, true⟩, ⟨"Shader", none, true⟩],
                [⟨"Shader", none, true⟩], .ofList [], false⟩,
              ⟨"a inside", .groupOutput, [⟨"Shader", none, true⟩], [], .ofList [], false⟩]
          links := [⟨"a mix", "Shader", "a inside", .name "Shader", false⟩] }⟩,
      ⟨"Spare 2", .empty⟩]

/-- How names are reworded. -/
def rewording : Renaming where
  node within name := (if within.isNone then "the " else "a ") ++ name
  group name := name ++ " 2"

/-- In both ways the material fails over the same node of its group, by the name that it has there. -/
theorem lower_rewritten_reworded :
    framed.WellNamed ∧ rewording.Fits framed ∧ (framed.renamed rewording).Reordered reworded ∧
      RuleTable.builtin.check = .ok () ∧
      (on (Walk.root (framed.setting .builtin)) (.start .empty)).1 =
        .error (.missingRequiredLink "mix" "Shader") ∧
      (on (Walk.root (reworded.setting .builtin)) (.start .empty)).1 =
        .error (.missingRequiredLink "a mix" "Shader") ∧
      (reworded.lowerBuiltin .empty).root = (framed.lowerBuiltin .empty).root := by
  have named : framed.WellNamed := by
    refine ⟨fun tree ht => ?_, by decide⟩
    simp only [trees, framed, List.map_cons, List.map_nil, List.mem_cons, List.not_mem_nil, or_false] at ht
    rcases ht with rfl | rfl | rfl <;> exact ⟨by decide, by decide, by decide, by decide⟩
  have fits : rewording.Fits framed := ⟨by decide, by decide, by decide⟩
  have order : (framed.renamed rewording).Reordered reworded :=
    ⟨rfl, ⟨by decide, by decide, by decide⟩, reworded.groups.reverse,
      .cons ⟨rfl, by decide, by decide, by decide⟩
        (.cons ⟨rfl, by decide, by decide, by decide⟩ .nil), by decide⟩
  exact ⟨named, fits, order, RuleTable.builtin_check, by decide +kernel, by decide +kernel,
    ((lower_rewritten named fits order RuleTable.builtin_check .empty).2.2.1 false).1⟩

end Document

end MaterialLowering
