import MaterialLowering.Proofs.Documents.Matchings

/-!
# Hidden links

A link that is hidden counts as none, but it is found all the same: the first link into an input is
looked up, and it is then that it counts as none if it is hidden. So what an input reads is decided by
the first link into it alone. Hidden links behind it may be deleted, and so may a hidden link that is
the only one; but where a hidden link stands before one that shows, the input reads its default, and
after the hidden link is deleted it reads the other link.

Main definitions:
* `Document.ShowsSame`: a document with the same first links, so far as they show.
* `Document.withoutHidden`: the document without its hidden links.
* `Document.Unshadowed`: no hidden link is the first one before a link that shows.

Results:
* `Document.ShowsSame.graph_matches`: only the first link into an input matters, and only if it shows.
* `Document.lower_withoutHidden`: hidden links may be deleted where they hide no other link.
* `Document.lower_withoutHidden_shadowed`: they may not be where they do.
-/

namespace MaterialLowering

open HostGraph (ImagesAlike)
open Walk (on)

/-! ## Links that show -/

/-- The first link into an input, unless it is hidden. -/
def NodeTree.shownLink? (tree : NodeTree) (decl : NodeDecl) (input : Nat) : Option LinkDecl :=
  (tree.linkInto? decl input).filter fun link => !link.hidden

/-- The same nodes, and into each input the same first link, so far as it shows. -/
structure NodeTree.ShowsSame (tree tree' : NodeTree) : Prop where
  nodes : tree'.nodes = tree.nodes
  links : ∀ decl ∈ tree.nodes, ∀ input < decl.inputs.length,
    tree'.shownLink? decl input = tree.shownLink? decl input

/-- The same document but for links that make no difference. -/
structure Document.ShowsSame (d d' : Document) : Prop where
  name : d'.name = d.name
  tree : d.tree.ShowsSame d'.tree
  groups : List.Forall₂ (fun group group' => group'.name = group.name ∧ group.tree.ShowsSame group'.tree)
    d.groups d'.groups

namespace NodeTree

variable {tree tree' : NodeTree}

/-- A link comes from the same output in trees of the same nodes. -/
theorem ShowsSame.source?_eq (h : tree.ShowsSame tree') (id : TreeId) (link : LinkDecl) :
    tree'.source? id link = tree.source? id link := by
  unfold source? nodeIndex?
  rw [h.nodes]

/-- A source is visible where its link shows. -/
theorem visible_source? (tree : NodeTree) (id : TreeId) (decl : NodeDecl) (input : Nat) :
    ((tree.linkInto? decl input).bind (tree.source? id)).filter (fun source => !source.hidden) =
      (tree.shownLink? decl input).bind (tree.source? id) := by
  unfold shownLink?
  cases tree.linkInto? decl input with
  | none => rfl
  | some link =>
    have hidden : ∀ source, tree.source? id link = some source → source.hidden = link.hidden := by
      intro source found
      simp only [source?, Option.bind_eq_bind, Option.bind_eq_some_iff, Option.pure_def,
        Option.some.injEq] at found
      obtain ⟨index, -, node, -, rfl⟩ := found
      rfl
    cases hs : tree.source? id link with
    | none => cases hl : link.hidden <;> simp [Option.filter_some, hs, hl]
    | some source =>
      have same := hidden source hs
      cases hl : link.hidden <;> rw [hl] at same <;> simp [Option.filter_some, hs, hl, same]

end NodeTree

namespace Document

variable {d d' : Document}

namespace ShowsSame

variable (h : d.ShowsSame d')

include h

theorem tree? (id : TreeId) : Option.Rel NodeTree.ShowsSame (d.tree? id) (d'.tree? id) := by
  obtain ⟨_ | n⟩ := id
  · exact .some h.tree
  · show Option.Rel _ (d.groups[n]?.map NodeGroup.tree) (d'.groups[n]?.map NodeGroup.tree)
    have groups := forall₂_getElem? h.groups n
    generalize d.groups[n]? = group, d'.groups[n]? = group' at groups
    cases groups with
    | none => exact .none
    | some same => exact .some same.2

theorem node?_eq (node : NodeId) : d'.node? node = d.node? node := by
  unfold Document.node?
  have trees := h.tree? node.tree
  generalize d.tree? node.tree = tree, d'.tree? node.tree = tree' at trees
  cases trees with
  | none => rfl
  | some same => exact congrArg (·[node.index]?) same.nodes

theorem firstOfKind?_eq (id : TreeId) (kind : HostKind) :
    d'.firstOfKind? id kind = d.firstOfKind? id kind := by
  unfold Document.firstOfKind?
  have trees := h.tree? id
  generalize d.tree? id = tree, d'.tree? id = tree' at trees
  cases trees with
  | none => rfl
  | some same =>
    simp only [Option.bind_eq_bind, Option.bind_some, NodeTree.firstOfKind?, same.nodes]

theorem groupTree?_eq (node : NodeId) : d'.groupTree? node = d.groupTree? node := by
  have names : d'.groups.map NodeGroup.name = d.groups.map NodeGroup.name := by
    have groups := h.groups
    generalize d.groups = groups₁, d'.groups = groups₂ at groups
    induction groups with
    | nil => rfl
    | cons same _ ih => rw [List.map_cons, List.map_cons, same.1, ih]
  unfold groupTree? property?
  rw [h.node?_eq, groupId?_congr names]

/-- Inputs read the same, but for links that do not show. -/
theorem input? (node : NodeId) (key : SocketKey) :
    Option.Rel
      (fun socket socket' => socket'.name = socket.name ∧ socket'.default = socket.default ∧
        socket'.shader = socket.shader ∧ socket'.visibleLink = socket.visibleLink)
      (d.input? node key) (d'.input? node key) := by
  unfold Document.input?
  have trees := h.tree? node.tree
  generalize d.tree? node.tree = tree, d'.tree? node.tree = tree' at trees
  cases trees with
  | none => exact .none
  | @some tree tree' same =>
    simp only [Option.bind_eq_bind, Option.bind_some, same.nodes]
    cases hd : tree.nodes[node.index]? with
    | none => exact .none
    | some decl =>
      simp only [Option.bind_some]
      cases decl.inputIndex? key with
      | none => exact .none
      | some input =>
        simp only [Option.bind_some]
        cases hs : decl.inputs[input]? with
        | none => exact .none
        | some socket =>
          refine .some ⟨rfl, rfl, rfl, ?_⟩
          have inside : input < decl.inputs.length := (List.getElem?_eq_some_iff.1 hs).1
          have sources : tree'.source? node.tree = tree.source? node.tree :=
            funext (same.source?_eq node.tree)
          show Option.filter _ _ = Option.filter _ _
          rw [NodeTree.visible_source?, NodeTree.visible_source?, sources,
            same.links decl (List.mem_of_getElem? hd) input inside]

/-- Only the first links into inputs are told apart, and only if they show. -/
theorem graph_matches (failing : SortedMap String Unit) : d.graph.Matches (.same failing) d'.graph := by
  have nodes : d'.node? = d.node? := funext h.node?_eq
  have properties : d'.property? = d.property? := by
    funext node name
    rw [Document.property?, Document.property?, nodes]
  refine HostGraph.matches_same h.name (h.firstOfKind?_eq _ _) ?_ ?_ ?_ ?_ ?_ h.input?
    (fun node name _ => ?_) (fun node => ?_) (funext h.groupTree?_eq)
    (funext fun id => h.firstOfKind?_eq id _)
  · simp only [graph, nodes]
  · simp only [graph, nodes]
  · simp only [graph, nodes]
  · simp only [graph, nodes]
  · funext node output
    simp only [graph, outputDefault?, nodes]
  · simp only [graph, properties]
  · simp only [graph, properties]
    exact .same _

end ShowsSame

end Document

/-! ## Deleting hidden links -/

/-- The tree without its hidden links. -/
def NodeTree.withoutHidden (tree : NodeTree) : NodeTree :=
  { tree with links := tree.links.filter fun link => !link.hidden }

/-- The document without its hidden links. -/
def Document.withoutHidden (d : Document) : Document :=
  { d with
    tree := d.tree.withoutHidden
    groups := d.groups.map fun group => { group with tree := group.tree.withoutHidden } }

/-- Where the first link into an input is hidden, so are the others. -/
def NodeTree.Unshadowed (tree : NodeTree) : Prop :=
  ∀ decl ∈ tree.nodes, ∀ input < decl.inputs.length, ∀ first ∈ tree.linkInto? decl input,
    first.hidden = true → ∀ link ∈ tree.links, link.leadsTo decl input = true → link.hidden = true

instance (tree : NodeTree) : Decidable tree.Unshadowed :=
  inferInstanceAs (Decidable (∀ decl ∈ tree.nodes, ∀ input < decl.inputs.length,
    ∀ first ∈ tree.linkInto? decl input, first.hidden = true →
      ∀ link ∈ tree.links, link.leadsTo decl input = true → link.hidden = true))

/-- In no tree a hidden link is the first one into an input before a link that shows. -/
def Document.Unshadowed (d : Document) : Prop := ∀ tree ∈ d.trees, tree.Unshadowed

instance (d : Document) : Decidable d.Unshadowed :=
  inferInstanceAs (Decidable (∀ tree ∈ d.trees, tree.Unshadowed))

/-- The first of some items is the first one of all, if it is one of them or there are none. -/
theorem find?_filter_of_first {α : Type} {p q : α → Bool} {l : List α}
    (h : ∀ a, l.find? q = some a → p a = false → ∀ b ∈ l, q b = true → p b = false) :
    (l.filter p).find? q = (l.find? q).filter p := by
  rw [List.find?_filter]
  cases found : l.find? q with
  | none =>
    rw [List.find?_eq_none] at found
    exact List.find?_eq_none.2 fun b hb both => found b hb (by grind)
  | some a =>
    cases ha : p a with
    | false =>
      rw [Option.filter_some, if_neg (by simp [ha])]
      refine List.find?_eq_none.2 fun b hb both => ?_
      have hits : p b = true ∧ q b = true := by simpa using both
      exact absurd hits.1 (by simp [h a found ha b hb hits.2])
    | true =>
      rw [Option.filter_some, if_pos ha]
      obtain ⟨hq, before, after, rfl, none⟩ := List.find?_eq_some_iff_append.1 found
      refine List.find?_eq_some_iff_append.2 ⟨by simp [ha, hq], before, after, rfl, fun b hb => ?_⟩
      simp [none b hb]

/-- Hidden links may be deleted from a tree. -/
theorem NodeTree.Unshadowed.showsSame {tree : NodeTree} (h : tree.Unshadowed) :
    tree.ShowsSame tree.withoutHidden where
  nodes := rfl
  links := by
    intro decl hd input inside
    have first : tree.withoutHidden.linkInto? decl input = tree.shownLink? decl input :=
      find?_filter_of_first fun link found hidden other hm leads => by
        have hidden : link.hidden = true := by simpa using hidden
        simpa using h decl hd input inside link found hidden other hm leads
    show Option.filter _ (tree.withoutHidden.linkInto? decl input) = _
    rw [first, shownLink?, Option.filter_filter]
    simp only [Bool.and_self]

namespace Document

variable {d : Document}

theorem Unshadowed.showsSame (h : d.Unshadowed) : d.ShowsSame d.withoutHidden where
  name := rfl
  tree := (h d.tree List.mem_cons_self).showsSame
  groups := by
    refine List.forall₂_map_right_iff.2 (List.forall₂_same.2 fun group hg => ⟨rfl, ?_⟩)
    exact (h group.tree (List.mem_cons_of_mem _ (List.mem_map_of_mem hg))).showsSame

/-- Hidden links may be deleted where they hide no other link: a document in which no hidden link is the
    first one into an input before one that shows is lowered as it is without its hidden links, by any
    rules, to the same root or the same failure and to the same native nodes, images and roots; and so is
    each of its outputs. -/
theorem lower_withoutHidden (unshadowed : d.Unshadowed) {table : RuleTable}
    (checked : table.check = .ok ()) (r : Recording) :
    (d.setting table).Indistinct (d.withoutHidden.setting table) r ∧
    ∀ node output,
      (on (Walk.output (d.withoutHidden.setting table) node output) (.start r)).1 =
        (on (Walk.output (d.setting table) node output) (.start r)).1 ∧
      (on (Walk.output (d.withoutHidden.setting table) node output) (.start r)).2.recording =
        (on (Walk.output (d.setting table) node output) (.start r)).2.recording :=
  (unshadowed.showsSame.graph_matches r.failing).indistinct checked

/-- A surface with two links into it, the first of them from emission and the second from a transparent
    shader; each may be hidden. -/
def twoSurfaces (firstHidden secondHidden : Bool) : Document where
  name := "surfaces"
  tree :=
    { nodes :=
        [⟨"output", .outputMaterial, [⟨"Surface", none, true⟩], [], .ofList [], false⟩,
          ⟨"glow", .emission, [⟨"Color", none, false⟩, ⟨"Strength", none, false⟩],
            [⟨"Emission", none, true⟩], .ofList [], false⟩,
          ⟨"glass", .bsdfTransparent, [⟨"Color", none, false⟩], [⟨"BSDF", none, true⟩], .ofList [],
            false⟩]
      links :=
        [⟨"glow", "Emission", "output", .name "Surface", firstHidden⟩,
          ⟨"glass", "BSDF", "output", .name "Surface", secondHidden⟩] }
  groups := []

/-- Without the hidden second link the material glows all the same. -/
theorem lower_withoutHidden_glowing :
    (twoSurfaces false true).Unshadowed ∧ RuleTable.builtin.check = .ok () ∧
      ((twoSurfaces false true).setting .builtin).Indistinct
        ((twoSurfaces false true).withoutHidden.setting .builtin) .empty := by
  have unshadowed : (twoSurfaces false true).Unshadowed := by decide
  exact ⟨unshadowed, RuleTable.builtin_check,
    (lower_withoutHidden unshadowed RuleTable.builtin_check .empty).1⟩

/-- Without the hidden first link the material is glass, and with it the walk fails: the surface counts
    as not linked. -/
theorem lower_withoutHidden_shadowed :
    let d := twoSurfaces true false
    (on (Walk.root (d.setting .builtin)) (.start .empty)).1 =
        .error (.missingRequiredLink "output" "Surface") ∧
      (on (Walk.root (d.withoutHidden.setting .builtin)) (.start .empty)).1 = .ok ⟨0⟩ := by
  decide +kernel

end Document

end MaterialLowering
