import MaterialLowering.Proofs.Recordings.Isomorphism

/-!
# Lowering into a recording that holds something

What a recording holds makes no difference to a material: lowered into it, the material adds the
nodes that it would add to an empty recording, moved up, and the images that are not there yet. So
the order in which materials are lowered does not matter to their graphs.

Results:
* `Document.lower_moved`: the nodes, images and roots after lowering, by those of a lowering alone.
* `Document.lower_relocates`: the same, and materials lowered in two orders.
-/

namespace MaterialLowering

/-- An empty recording in which the same images cannot be loaded. -/
def Recording.cleared (r : Recording) : Recording := { Recording.empty with failing := r.failing }

/-! ## Moving -/

theorem SortedMap.ext_entries {κ α : Type} [Ord κ] {m m' : SortedMap κ α} (h : m.entries = m'.entries) :
    m = m' := by
  cases m; cases m'; simpa using h

theorem eq_map_of_forall₂ {α β : Type} {f : α → β} {l : List α} {l' : List β}
    (h : List.Forall₂ (fun a b => b = f a) l l') : l' = l.map f := by
  induction h with
  | nil => rfl
  | cons h _ ih => rw [List.map_cons, h, ih]

/-- A parameter that corresponds to one is the moved one where the left side began with nothing. -/
theorem Correspondence.Parameter.eq_moved {b b' r r' : Recording} {kind : NativeKind}
    {name name' : String} {p q : Param} (hb : b.nodes.size = 0)
    (h : (Recording.since b b' r r').Parameter kind (name, p.value) (name', q.value)) :
    name = name' ∧ q = p.moved b'.nodes.size r.images r'.images := by
  refine ⟨h.name_eq, ?_⟩
  generalize hv : p.value = v at h
  generalize hv' : q.value = v' at h
  cases h with
  | answer h =>
    cases h with
    | constant lanes =>
      rw [Param.value_eq_constant] at hv hv'
      rw [hv, hv']
      rfl
    | @node a a' h =>
      rw [Param.value_eq_node] at hv hv'
      obtain ⟨i, hi, hi', -, -⟩ := h
      have index : a'.index = a.index + b'.nodes.size := by omega
      rw [hv, hv']
      exact congrArg Param.node (congrArg NodeHandle.mk index)
    | unset => exact absurd hv Param.value_ne_unset
  | @image i i' _ h =>
    rw [Param.value_eq_image] at hv hv'
    obtain ⟨descriptor, hm, -, hi, hi'⟩ := h
    have hd : r.images[i.index]? = some descriptor := hi ▸ List.getElem?_idxOf hm
    rw [hv, hv']
    simp only [Param.moved, ImageHandle.moved, hd]
    exact congrArg Param.image (congrArg ImageHandle.mk hi')

/-- Corresponding nodes are moved ones where the left side began with nothing. -/
theorem RecordedNode.Alike.eq_moved {b b' r r' : Recording} {node node' : RecordedNode}
    (hb : b.nodes.size = 0) (h : RecordedNode.Alike (Recording.since b b' r r') node node') :
    node' = node.moved b'.nodes.size r.images r'.images := by
  have params : node'.params = node.params.map (Param.moved b'.nodes.size r.images r'.images) := by
    refine SortedMap.ext_entries (eq_map_of_forall₂ (List.Forall₂.imp ?_ h.params))
    rintro ⟨name, p⟩ ⟨name', q⟩ hp
    obtain ⟨rfl, rfl⟩ := hp.eq_moved hb
    rfl
  obtain ⟨kind, params'⟩ := node'
  obtain rfl := h.kind
  exact congrArg _ params

/-! ## One material -/

/-- `lowered` is what lowering a material into `r` comes to where `own` is what it comes to alone:
    the nodes are moved up, and the images that are not there yet are added. -/
structure Lowered.Moved (material : String) (r : Recording) (own lowered : Lowered) : Prop where
  nodes : lowered.recording.nodes = r.nodes ++ own.recording.nodes.map
    (RecordedNode.moved r.nodes.size own.recording.images lowered.recording.images)
  images : lowered.recording.images =
    r.images ++ own.recording.images.filter fun descriptor => descriptor ∉ r.images
  root : lowered.root = ⟨own.root.index + r.nodes.size⟩
  roots : lowered.recording.roots = r.roots.insert material lowered.root
  failing : lowered.recording.failing = r.failing

theorem Document.lower_moved (d : Document) (table : RuleTable) (showErrors : Bool) (r : Recording) :
    Lowered.Moved d.name r (d.lower table showErrors r.cleared) (d.lower table showErrors r) := by
  obtain ⟨after, after', grown, root, hown, hlowered, -⟩ :=
    (d.setting table).lower_lockstep showErrors r.cleared r rfl
  replace hown : (d.lower table showErrors r.cleared).recording = after.register d.name _ := hown
  replace hlowered : (d.lower table showErrors r).recording = after'.register d.name _ := hlowered
  refine ⟨?_, ?_, ?_, ?_, by rw [hlowered]; exact grown.right.failing⟩
  · have fresh := eq_map_of_forall₂
      (List.Forall₂.imp (fun _ _ h => h.eq_moved rfl) grown.nodes_alike)
    rw [show r.cleared.nodes.size = 0 from rfl, List.drop_zero] at fresh
    obtain ⟨rest, hrest⟩ := grown.right.nodes
    rw [← hrest, List.drop_left' (by simp)] at fresh
    rw [hown, hlowered]
    refine Array.ext' ?_
    show after'.nodes.toList = _
    rw [← hrest, fresh, Array.toList_append, Array.toList_map]
    rfl
  · rw [hown, hlowered]
    exact grown.images_eq rfl rfl
  · obtain ⟨i, hi, hi', -, -⟩ := root
    replace hi : (d.lower table showErrors r.cleared).root.index = 0 + i := hi
    replace hi' : (d.lower table showErrors r).root.index = r.nodes.size + i := hi'
    have index : (d.lower table showErrors r).root.index =
        (d.lower table showErrors r.cleared).root.index + r.nodes.size := by omega
    exact congrArg NodeHandle.mk index
  · rw [hlowered]
    show after'.roots.insert d.name _ = _
    rw [grown.right.roots]
    rfl

/-! ## Several materials -/

namespace Document

variable (table : RuleTable) (showErrors : Bool)

/-- Lowers materials one after another. -/
def lowerAll (r : Recording) (documents : List Document) : Recording :=
  documents.foldl (fun r d => (d.lower table showErrors r).recording) r

/-- A recording holds what it held after nodes and images were added. -/
theorem holds_of_gains {own r r' : Recording} {material : String} {root : NodeHandle} {shift : Nat}
    (h : own.Holds shift r) (hw : own.WellFormed) (gains : r.Gains material root r') :
    own.Holds shift r' := by
  refine ⟨fun n node hn => ?_, fun _ hm => gains.images.subset (h.images hm)⟩
  have old := h.nodes n node hn
  rw [← Array.getElem?_toList] at old ⊢
  rw [prefix_getElem? gains.nodes old]
  -- The images that the node refers to are in the same places.
  have same : node.params.map (Param.moved shift own.images r'.images) =
      node.params.map (Param.moved shift own.images r.images) := by
    refine SortedMap.ext_entries (List.map_congr_left fun e he => ?_)
    obtain ⟨name, p⟩ := e
    cases p with
    | constant lanes => rfl
    | node a => rfl
    | image i =>
      have hlt := ((hw n node hn).image_lt name i he).1
      have hd : own.images[i.index]? = some own.images[i.index] := List.getElem?_eq_getElem hlt
      have hm := h.images (List.getElem_mem hlt)
      simp only [Param.moved, ImageHandle.moved, hd, prefix_idxOf gains.images hm]
  simp only [RecordedNode.moved, same]

theorem lowerAll_keeps {own r : Recording} {shift : Nat} (h : own.Holds shift r)
    (hw : own.WellFormed) {material : String} (documents : List Document)
    (others : material ∉ documents.map Document.name) :
    own.Holds shift (lowerAll table showErrors r documents) ∧
      (lowerAll table showErrors r documents).root? material = r.root? material := by
  induction documents generalizing r with
  | nil => exact ⟨h, rfl⟩
  | cons d rest ih =>
    rw [List.map_cons, List.mem_cons, not_or] at others
    have gains := d.gains_of_lower table showErrors r
    obtain ⟨holds, root⟩ := ih (holds_of_gains h hw gains) others.2
    exact ⟨holds, root.trans (gains.others material others.1)⟩

/-- Lowered into a recording, a material's nodes are in it. -/
theorem holds_of_lower (d : Document) (r : Recording) :
    (d.lower table showErrors r.cleared).recording.Holds r.nodes.size
      (d.lower table showErrors r).recording := by
  obtain ⟨nodes, images, -, -, -⟩ := lower_moved d table showErrors r
  refine ⟨fun n node hn => ?_, fun descriptor hm => ?_⟩
  · rw [nodes, Array.getElem?_append_right (by omega), Nat.add_sub_cancel, Array.getElem?_map, hn]
    rfl
  · rw [images]
    by_cases hr : descriptor ∈ r.images
    · exact List.mem_append_left _ hr
    · exact List.mem_append_right _ (List.mem_filter.2 ⟨hm, by simpa using hr⟩)

/-- After several materials, the graph of each is the one that it comes to alone. -/
theorem lowerAll_isomorphic (r : Recording) (documents : List Document)
    (distinct : (documents.map Document.name).Nodup) {d : Document} (hd : d ∈ documents) :
    ∃ root, (lowerAll table showErrors r documents).root? d.name = some root ∧
      (d.lower table showErrors r.cleared).recording.Isomorphic
        (d.lower table showErrors r.cleared).root (lowerAll table showErrors r documents) root := by
  induction documents generalizing r with
  | nil => cases hd
  | cons first rest ih =>
    rw [List.map_cons, List.nodup_cons] at distinct
    have gains := first.gains_of_lower table showErrors r
    rcases List.mem_cons.1 hd with rfl | hd
    · have hw : (d.lower table showErrors r.cleared).recording.WellFormed :=
        d.wellFormed_of_lower table showErrors rfl
      obtain ⟨holds, root⟩ := lowerAll_keeps table showErrors
        (holds_of_lower table showErrors d r) hw rest distinct.1
      refine ⟨_, root.trans gains.registered, ?_⟩
      rw [(lower_moved d table showErrors r).root]
      exact holds.isomorphic hw (d.gains_of_lower table showErrors r.cleared).root_lt
    · have cleared : (first.lower table showErrors r).recording.cleared = r.cleared := by
        simp [Recording.cleared, gains.failing]
      exact cleared ▸ ih (first.lower table showErrors r).recording distinct.2 hd

/-- What a recording holds makes no difference to a material, and the order of materials makes no
    difference to their graphs. -/
theorem lower_relocates :
    (∀ (d : Document) (r : Recording),
      Lowered.Moved d.name r (d.lower table showErrors r.cleared) (d.lower table showErrors r)) ∧
    ∀ (r : Recording) (documents documents' : List Document),
      (documents.map Document.name).Nodup → documents.Perm documents' → ∀ d ∈ documents,
        ∃ root root', (lowerAll table showErrors r documents).root? d.name = some root ∧
          (lowerAll table showErrors r documents').root? d.name = some root' ∧
          (lowerAll table showErrors r documents).Isomorphic root
            (lowerAll table showErrors r documents') root' := by
  refine ⟨fun d r => lower_moved d table showErrors r, ?_⟩
  intro r documents documents' distinct perm d hd
  have distinct' : (documents'.map Document.name).Nodup := (perm.map _).nodup_iff.1 distinct
  obtain ⟨root, hroot, iso⟩ := lowerAll_isomorphic table showErrors r documents distinct hd
  obtain ⟨root', hroot', iso'⟩ := lowerAll_isomorphic table showErrors r documents' distinct'
    (perm.mem_iff.1 hd)
  exact ⟨root, root', hroot, hroot', iso.symm.trans iso'⟩

/-- Two materials that share an image, in both orders, after a third one. -/
theorem lower_relocates_papered :
    let floor := papered "floor" "wood.png"
    let wall := papered "wall" "wood.png"
    let r := ((papered "door" "stone.png").lower .builtin false .empty).recording
    let first := lowerAll .builtin false r [floor, wall]
    let second := lowerAll .builtin false r [wall, floor]
    ([floor, wall].map name).Nodup ∧ [floor, wall].Perm [wall, floor] ∧
      first.root? "floor" = some ⟨3⟩ ∧ second.root? "floor" = some ⟨5⟩ ∧
      first.Isomorphic ⟨3⟩ second ⟨5⟩ ∧ first.nodes.size = 6 ∧
      first.images = [⟨"stone.png", .repeat⟩, ⟨"wood.png", .repeat⟩] := by
  intro floor wall r first second
  have distinct : ([floor, wall].map name).Nodup := by decide
  have perm : [floor, wall].Perm [wall, floor] := .swap _ _ _
  have here : first.root? "floor" = some ⟨3⟩ := by decide +kernel
  have there : second.root? "floor" = some ⟨5⟩ := by decide +kernel
  obtain ⟨root, root', hr, hr', same⟩ :=
    (lower_relocates .builtin false).2 r _ _ distinct perm floor List.mem_cons_self
  obtain rfl := Option.some.inj (hr.symm.trans here)
  obtain rfl := Option.some.inj (hr'.symm.trans there)
  exact ⟨distinct, perm, here, there, same, by decide +kernel, by decide +kernel⟩

end Document

end MaterialLowering
