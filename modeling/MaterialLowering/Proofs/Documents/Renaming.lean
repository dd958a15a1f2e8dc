import Mathlib.Data.List.Find
import MaterialLowering.Proofs.Documents.Matchings

/-!
# Documents written down in another way

The nodes, groups and links of a document may be listed in another order, and nodes and groups may have
other names. A document is *well named* if everything in it is found by what it is looked up by, wherever
it stands: names are found once, and so are the nodes of the kinds that are looked up. Then what is found
in a document stands for what is found in another way of writing it down.

Main definitions:
* `Shuffled`: lists of items that stand for each other, in any order.
* `Document.renamed`: the document with other names.
* `Document.Reordered`: the same document with lists in another order; links into one node stay in order.
* `Document.WellNamed`: the document does not depend on first ones.
* `Renaming.Fits`: different names stay different and are not lost.

Results:
* `Shuffled.findIdx?`: what is there once is found in places that stand for each other.
* `NodeTree.Rewritten.nodeIndex?`, `NodeTree.Rewritten.firstOfKind?`, `NodeTree.Rewritten.linkInto?`,
  `NodeTree.Rewritten.source?`: what is found in trees.
-/

namespace MaterialLowering

/-! ## Lists in another order -/

/-- The items of the second list stand for those of the first one, in any order. -/
def Shuffled {α β : Type} (R : α → β → Prop) (l : List α) (l' : List β) : Prop :=
  ∃ between, List.Forall₂ R l between ∧ between.Perm l'

/-- The items in these places stand for each other. -/
def StandFor {α β : Type} (R : α → β → Prop) (l : List α) (l' : List β) (i j : Nat) : Prop :=
  ∃ a b, l[i]? = some a ∧ l'[j]? = some b ∧ R a b

section Lists

variable {α β κ : Type} {R : α → β → Prop} {l : List α} {l' : List β}

/-- An item that is there once is the first one. -/
theorem findIdx?_of_countP_le_one {p : α → Bool} (once : l.countP p ≤ 1) {i : Nat} {a : α}
    (place : l[i]? = some a) (hit : p a = true) : l.findIdx? p = some i := by
  induction l generalizing i with
  | nil => simp at place
  | cons first rest ih =>
    cases i with
    | zero =>
      obtain rfl : first = a := by simpa using place
      rw [List.findIdx?_cons, if_pos hit]
    | succ i =>
      have place : rest[i]? = some a := by simpa using place
      have later : 0 < rest.countP p := List.countP_pos_iff.2 ⟨a, List.mem_of_getElem? place, hit⟩
      have miss : ¬ p first = true := by
        intro first
        rw [List.countP_cons_of_pos first] at once
        omega
      rw [List.countP_cons_of_neg miss] at once
      rw [List.findIdx?_cons, if_neg miss, ih once place]
      rfl

/-- Where keys differ, each is there at most once. -/
theorem countP_le_one_of_nodup [DecidableEq κ] {key : α → κ} (nodup : (l.map key).Nodup) (k : κ) :
    l.countP (fun a => key a = k) ≤ 1 := by
  have once := List.nodup_iff_count_le_one.1 nodup k
  rw [List.count, List.countP_map] at once
  exact once

namespace Shuffled

variable (h : Shuffled R l l')

include h

theorem exists_right {i : Nat} {a : α} (place : l[i]? = some a) :
    ∃ (j : Nat) (b : β), l'[j]? = some b ∧ R a b := by
  obtain ⟨between, related, perm⟩ := h
  have there := forall₂_getElem? related i
  rw [place] at there
  generalize found : between[i]? = other at there
  cases there with
  | @some a b here =>
    obtain ⟨j, place'⟩ := List.mem_iff_getElem?.1 (perm.subset (List.mem_of_getElem? found))
    exact ⟨j, b, place', here⟩

theorem countP_eq {p : α → Bool} {p' : β → Bool} (same : ∀ a ∈ l, ∀ b, R a b → p' b = p a) :
    l'.countP p' = l.countP p := by
  obtain ⟨between, related, perm⟩ := h
  rw [← perm.countP_eq p']
  clear perm
  induction related with
  | nil => rfl
  | cons here _ ih =>
    rw [List.countP_cons, List.countP_cons, same _ List.mem_cons_self _ here,
      ih fun a ha => same a (List.mem_cons_of_mem _ ha)]

/-- What is there once is found in places that stand for each other. -/
theorem findIdx? {p : α → Bool} {p' : β → Bool} (once : l.countP p ≤ 1)
    (same : ∀ a ∈ l, ∀ b, R a b → p' b = p a) :
    Option.Rel (StandFor R l l') (l.findIdx? p) (l'.findIdx? p') := by
  have count := h.countP_eq same
  cases found : l.findIdx? p with
  | none =>
    have misses := List.countP_eq_zero.2 fun a ha => by
      simpa using List.findIdx?_eq_none_iff.1 found a ha
    rw [misses] at count
    rw [List.findIdx?_eq_none_iff.2 fun b hb => by simpa using List.countP_eq_zero.1 count b hb]
    exact .none
  | some i =>
    obtain ⟨inside, hit, -⟩ := List.findIdx?_eq_some_iff_getElem.1 found
    have place : l[i]? = some l[i] := List.getElem?_eq_getElem inside
    obtain ⟨j, b, place', here⟩ := h.exists_right place
    rw [findIdx?_of_countP_le_one (count ▸ once) place'
      ((same _ (List.getElem_mem inside) b here).trans hit)]
    exact .some ⟨_, b, place, place', here⟩

/-- Where keys differ and are renamed to different ones, places stand for one place each. -/
theorem biUnique (key : α → κ) (key' : β → κ) (rename : κ → κ)
    (keys : ∀ a b, R a b → key' b = rename (key a)) (nodup : (l.map key).Nodup)
    (injective : ∀ a ∈ l, ∀ b ∈ l, rename (key a) = rename (key b) → key a = key b) :
    Relator.BiUnique (StandFor R l l') := by
  have nodup' : (l'.map key').Nodup := by
    obtain ⟨between, related, perm⟩ := h
    have renamed : between.map key' = l.map fun a => rename (key a) := by
      clear perm injective nodup
      induction related with
      | nil => rfl
      | cons here _ ih => rw [List.map_cons, List.map_cons, keys _ _ here, ih]
    rw [← (perm.map key').nodup_iff, renamed]
    have renamed := nodup.map_on (f := rename) fun k hk k' hk' same => by
      obtain ⟨a, ha, rfl⟩ := List.mem_map.1 hk
      obtain ⟨a', ha', rfl⟩ := List.mem_map.1 hk'
      exact injective a ha a' ha' same
    rwa [List.map_map] at renamed
  refine ⟨?_, ?_⟩
  · rintro i i' j ⟨a, b, place, there, here⟩ ⟨a', b', place', there', here'⟩
    obtain rfl : b = b' := Option.some.inj (there.symm.trans there')
    have same : key a = key a' := injective a (List.mem_of_getElem? place) a'
      (List.mem_of_getElem? place') ((keys a b here).symm.trans (keys a' b here'))
    have inside : i < (l.map key).length := by
      simpa using (List.getElem?_eq_some_iff.1 place).1
    exact (List.getElem?_inj inside nodup).1 (by simp [place, place', same])
  · rintro i j j' ⟨a, b, place, there, here⟩ ⟨a', b', place', there', here'⟩
    obtain rfl : a = a' := Option.some.inj (place.symm.trans place')
    have inside : j < (l'.map key').length := by
      simpa using (List.getElem?_eq_some_iff.1 there).1
    exact (List.getElem?_inj inside nodup').1 (by simp [there, there', keys a _ here, keys a _ here'])

end Shuffled

end Lists

/-! ## Other names -/

/-- What nodes and groups are called instead. -/
structure Renaming where
  /-- The names of nodes: in the material's own tree, or in that of the group of a name. -/
  node : Option String → String → String
  group : String → String

/-- The group that the node calls, if it is a group node that names one. -/
def NodeDecl.groupName? (decl : NodeDecl) : Option String :=
  if decl.kind = .group then (decl.properties.get? Document.groupProperty).bind Property.asText else none

/-- The node by another name, calling its group by another name. -/
def NodeDecl.renamed (node group : String → String) (decl : NodeDecl) : NodeDecl :=
  { decl with
    name := node decl.name
    properties := match decl.groupName? with
      | some name => decl.properties.insert Document.groupProperty (.text (group name))
      | none => decl.properties }

/-- The link between nodes of other names. -/
def LinkDecl.renamed (node : String → String) (link : LinkDecl) : LinkDecl :=
  { link with fromNode := node link.fromNode, toNode := node link.toNode }

/-- The tree with other names. -/
def NodeTree.renamed (node group : String → String) (tree : NodeTree) : NodeTree where
  nodes := tree.nodes.map (NodeDecl.renamed node group)
  links := tree.links.map (LinkDecl.renamed node)

/-- The document with other names. -/
def Document.renamed (ρ : Renaming) (d : Document) : Document where
  name := d.name
  tree := d.tree.renamed (ρ.node none) ρ.group
  groups := d.groups.map fun group =>
    ⟨ρ.group group.name, group.tree.renamed (ρ.node (some group.name)) ρ.group⟩

/-- The names of nodes that occur in a tree, of nodes that are there and of others that links name. -/
def NodeTree.names (tree : NodeTree) : List String :=
  tree.nodes.map NodeDecl.name ++ tree.links.flatMap fun link => [link.fromNode, link.toNode]

namespace Document

/-- The trees, each with the name of its group. -/
def parts (d : Document) : List (Option String × NodeTree) :=
  (none, d.tree) :: d.groups.map fun group => (some group.name, group.tree)

/-- The names of groups that occur, of groups that are there and of others that nodes call. -/
def groupNames (d : Document) : List String :=
  d.groups.map NodeGroup.name ++ (d.trees.flatMap NodeTree.nodes).filterMap NodeDecl.groupName?

end Document

/-- Different names stay different. -/
def InjectiveOn (names : List String) (rename : String → String) : Prop :=
  ∀ a ∈ names, ∀ b ∈ names, rename a = rename b → a = b

instance (names : List String) (rename : String → String) : Decidable (InjectiveOn names rename) :=
  inferInstanceAs (Decidable (∀ a ∈ names, ∀ b ∈ names, rename a = rename b → a = b))

/-- Different names in a document stay different, and nodes are not called nothing. -/
structure Renaming.Fits (ρ : Renaming) (d : Document) : Prop where
  nodes : ∀ part ∈ d.parts, InjectiveOn part.2.names (ρ.node part.1)
  nonempty : ∀ part ∈ d.parts, ∀ name ∈ part.2.names, ρ.node part.1 name ≠ ""
  groups : InjectiveOn d.groupNames ρ.group

/-! ## Another order -/

/-- The same nodes in any order, and the same links in any order that keeps those into one node in
    order. -/
structure NodeTree.Reordered (tree tree' : NodeTree) : Prop where
  nodes : tree.nodes.Perm tree'.nodes
  links : tree.links.Perm tree'.links
  into : ∀ link ∈ tree.links, (tree'.links.filter fun other => other.toNode = link.toNode) =
    tree.links.filter fun other => other.toNode = link.toNode

/-- The same document with nodes, groups and links in another order. -/
structure Document.Reordered (d d' : Document) : Prop where
  name : d'.name = d.name
  tree : d.tree.Reordered d'.tree
  groups : Shuffled (fun group group' => group'.name = group.name ∧ group.tree.Reordered group'.tree)
    d.groups d'.groups

/-! ## Names and kinds that are there once -/

/-- Nodes have names of their own, and there is at most one node of the kinds that are looked up. -/
structure NodeTree.WellNamed (tree : NodeTree) : Prop where
  nonempty : ∀ decl ∈ tree.nodes, decl.name ≠ ""
  distinct : (tree.nodes.map NodeDecl.name).Nodup
  outputMaterial : tree.nodes.countP (fun decl => decl.kind = .outputMaterial) ≤ 1
  groupOutput : tree.nodes.countP (fun decl => decl.kind = .groupOutput) ≤ 1

/-- Groups have names of their own, and so have the nodes in each tree. -/
structure Document.WellNamed (d : Document) : Prop where
  trees : ∀ tree ∈ d.trees, tree.WellNamed
  groups : (d.groups.map NodeGroup.name).Nodup

/-! ## Trees -/

theorem NodeDecl.inputIndex?_renamed (node group : String → String) (decl : NodeDecl) (key : SocketKey) :
    (decl.renamed node group).inputIndex? key = decl.inputIndex? key := by
  cases key <;> rfl

/-- Properties are the same, but for names of groups. -/
theorem NodeDecl.get?_properties_renamed (node group : String → String) (decl : NodeDecl) {name : String}
    (other : name ≠ Document.groupProperty) :
    (decl.renamed node group).properties.get? name = decl.properties.get? name := by
  unfold renamed
  dsimp only
  split
  · rw [SortedMap.get?_insert, if_neg fun same => other (Std.LawfulEqOrd.eq_of_compare same)]
  · rfl

theorem NodeDecl.groupName?_renamed (node group : String → String) (decl : NodeDecl) :
    (decl.renamed node group).groupName? = decl.groupName?.map group := by
  cases called : decl.groupName? with
  | none =>
    have same : (decl.renamed node group).properties = decl.properties := by
      unfold renamed
      rw [called]
    unfold groupName? at called ⊢
    rw [same]
    exact called
  | some name =>
    have kind : decl.kind = .group := by
      unfold groupName? at called
      split at called
      · assumption
      · cases called
    have inserted : (decl.renamed node group).properties =
        decl.properties.insert Document.groupProperty (.text (group name)) := by
      unfold renamed
      rw [called]
    rw [groupName?, if_pos (show (decl.renamed node group).kind = .group from kind), inserted,
      SortedMap.get?_insert, if_pos Std.ReflCmp.compare_self]
    rfl

namespace NodeTree

/-- The tree with other names and in another order. -/
def Rewritten (node group : String → String) (tree tree' : NodeTree) : Prop :=
  (tree.renamed node group).Reordered tree'

/-- Nodes that are the same but for names. -/
def NodesStandFor (node group : String → String) (tree tree' : NodeTree) : Nat → Nat → Prop :=
  StandFor (fun decl decl' => decl' = decl.renamed node group) tree.nodes tree'.nodes

variable {node group : String → String} {tree tree' : NodeTree} {decl : NodeDecl}

theorem name_mem_names (hd : decl ∈ tree.nodes) : decl.name ∈ tree.names :=
  List.mem_append_left _ (List.mem_map_of_mem hd)

theorem ends_mem_names {link : LinkDecl} (hl : link ∈ tree.links) :
    link.fromNode ∈ tree.names ∧ link.toNode ∈ tree.names := by
  have ends : ∀ name ∈ [link.fromNode, link.toNode], name ∈ tree.names := fun name hn =>
    List.mem_append_right _ (List.mem_flatMap.2 ⟨link, hl, hn⟩)
  exact ⟨ends _ (by simp), ends _ (by simp)⟩

/-- Links lead into the inputs that they led into. -/
theorem leadsTo_renamed (injective : InjectiveOn tree.names node) {link : LinkDecl}
    (hl : link ∈ tree.links) (hd : decl ∈ tree.nodes) (input : Nat) :
    (link.renamed node).leadsTo (decl.renamed node group) input = link.leadsTo decl input := by
  have names : node link.toNode = node decl.name ↔ link.toNode = decl.name :=
    ⟨injective _ (ends_mem_names hl).2 _ (name_mem_names hd), congrArg node⟩
  have inputs := NodeDecl.inputIndex?_renamed node group decl
  unfold LinkDecl.leadsTo
  simp only [inputs]
  simp only [LinkDecl.renamed, NodeDecl.renamed, names]

namespace Rewritten

variable (h : tree.Rewritten node group tree')

include h

theorem nodes : Shuffled (fun decl decl' => decl' = decl.renamed node group) tree.nodes tree'.nodes :=
  ⟨_, List.forall₂_map_right_iff.2 (List.forall₂_same.2 fun _ _ => rfl), Reordered.nodes h⟩

theorem nodes_biUnique (named : tree.WellNamed) (injective : InjectiveOn tree.names node) :
    Relator.BiUnique (tree.NodesStandFor node group tree') := by
  refine h.nodes.biUnique NodeDecl.name NodeDecl.name node ?_ named.distinct
    fun a ha b hb => injective _ (name_mem_names ha) _ (name_mem_names hb)
  rintro decl _ rfl
  rfl

/-- Nodes are found by their other names. -/
theorem nodeIndex? (named : tree.WellNamed) (injective : InjectiveOn tree.names node) {name : String}
    (occurs : name ∈ tree.names) :
    Option.Rel (tree.NodesStandFor node group tree') (tree.nodeIndex? name)
      (tree'.nodeIndex? (node name)) := by
  refine h.nodes.findIdx? (countP_le_one_of_nodup named.distinct name) ?_
  rintro decl hd _ rfl
  exact decide_eq_decide.2 ⟨injective _ (name_mem_names hd) _ occurs, congrArg node⟩

/-- A node is found by its kind where there is at most one. -/
theorem firstOfKind? {kind : HostKind} (once : tree.nodes.countP (fun decl => decl.kind = kind) ≤ 1) :
    Option.Rel (tree.NodesStandFor node group tree') (tree.firstOfKind? kind)
      (tree'.firstOfKind? kind) := by
  refine h.nodes.findIdx? once ?_
  rintro decl - _ rfl
  rfl

/-- The first link into an input is the first one into it. -/
theorem linkInto? (injective : InjectiveOn tree.names node) (hd : decl ∈ tree.nodes) (input : Nat) :
    tree'.linkInto? (decl.renamed node group) input =
      (tree.linkInto? decl input).map (LinkDecl.renamed node) := by
  -- Only links into the node count, and these are in order.
  have inOrder : (tree'.links.filter fun link => link.toNode = node decl.name) =
      (tree.links.map (LinkDecl.renamed node)).filter fun link => link.toNode = node decl.name := by
    by_cases some : ∃ link ∈ (tree.renamed node group).links, link.toNode = node decl.name
    · obtain ⟨link, hl, leads⟩ := some
      have into := Reordered.into h link hl
      rw [leads] at into
      exact into
    · have none : ∀ link ∈ (tree.renamed node group).links, link.toNode ≠ node decl.name :=
        fun link hl leads => some ⟨link, hl, leads⟩
      rw [List.filter_eq_nil_iff.2 fun link hl => by
          simpa using none link ((Reordered.links h).mem_iff.2 hl)]
      exact (List.filter_eq_nil_iff.2 fun link hl => by simpa using none link hl).symm
  have only : ∀ links : List LinkDecl,
      links.find? (fun link => link.leadsTo (decl.renamed node group) input) =
        (links.filter fun link => link.toNode = node decl.name).find? fun link =>
          link.leadsTo (decl.renamed node group) input := by
    intro links
    rw [List.find?_filter]
    congr 1
    funext link
    simp only [LinkDecl.leadsTo, NodeDecl.renamed]
    grind
  have leads : ∀ link ∈ tree.links, (link.renamed node).leadsTo (decl.renamed node group) input =
      link.leadsTo decl input := fun link hl => leadsTo_renamed injective hl hd input
  unfold NodeTree.linkInto?
  rw [only, inOrder, ← only, List.find?_map]
  exact congrArg _ (List.find?_congr leads)

/-- Links come from nodes that stand for each other. -/
theorem source? (named : tree.WellNamed) (injective : InjectiveOn tree.names node) {link : LinkDecl}
    (hl : link ∈ tree.links) (id id' : TreeId) :
    Option.Rel
      (fun source source' => source.node.tree = id ∧ source'.node.tree = id' ∧
        tree.NodesStandFor node group tree' source.node.index source'.node.index ∧
        source'.output = source.output ∧ source'.shader = source.shader ∧
        source'.hidden = source.hidden)
      (tree.source? id link) (tree'.source? id' (link.renamed node)) := by
  have places := h.nodeIndex? named injective (ends_mem_names hl).1
  unfold NodeTree.source?
  have name : (link.renamed node).fromNode = node link.fromNode := rfl
  rw [name]
  generalize tree.nodeIndex? link.fromNode = i, tree'.nodeIndex? (node link.fromNode) = j at places
  cases places with
  | none => exact .none
  | some here =>
    obtain ⟨decl, _, place, place', rfl⟩ := here
    simp only [Option.bind_eq_bind, Option.bind_some, place, place', Option.pure_def]
    exact .some ⟨rfl, rfl, ⟨decl, _, place, place', rfl⟩, rfl, rfl, rfl⟩

end Rewritten

end NodeTree

end MaterialLowering
