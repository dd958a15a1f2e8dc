import Mathlib.Data.Set.Function
import Mathlib.Logic.Relation
import MaterialLowering.Proofs.Recordings.Growth

/-!
# Native graphs up to handles

The part of a native graph that a root needs is what can be reached from it along parameters. Two
such parts are the same graph when their nodes can be matched so that kinds, constants and the
descriptors of images agree and references lead to matching nodes.

Results:
* `Recording.Isomorphic.symm`, `Recording.Isomorphic.trans`.
* `Recording.Holds.isomorphic`: a recording that holds all nodes of a well-formed one in a row.
-/

namespace MaterialLowering

open Relation (ReflTransGen)

namespace Recording

/-! ## Reachable nodes -/

/-- A parameter of the first node is the second one. -/
def Refers (r : Recording) (a b : NodeHandle) : Prop :=
  ∃ node name, r.node? a = some node ∧ (name, Param.node b) ∈ node.params.entries

/-- The nodes that a root needs. -/
def Reachable (r : Recording) (root : NodeHandle) : Set NodeHandle :=
  {a | ReflTransGen r.Refers root a}

/-- The same parameter where nodes are matched by `f`. -/
inductive ParamMatch (f : NodeHandle → NodeHandle) (images images' : List ImageDescriptor) :
    Param → Param → Prop
  | constant (lanes : Lanes) : ParamMatch f images images' (.constant lanes) (.constant lanes)
  | node (handle : NodeHandle) : ParamMatch f images images' (.node handle) (.node (f handle))
  | image {i i' : ImageHandle} {descriptor : ImageDescriptor}
      (h : images[i.index]? = some descriptor) (h' : images'[i'.index]? = some descriptor) :
      ParamMatch f images images' (.image i) (.image i')

/-- The same node where nodes are matched by `f`. -/
structure NodeMatch (f : NodeHandle → NodeHandle) (images images' : List ImageDescriptor)
    (node node' : RecordedNode) : Prop where
  kind : node.kind = node'.kind
  params : List.Forall₂ (fun e e' => e.1 = e'.1 ∧ ParamMatch f images images' e.2 e'.2)
    node.params.entries node'.params.entries

/-- `f` matches the nodes that two roots need. -/
structure Isomorphism (f : NodeHandle → NodeHandle) (r : Recording) (root : NodeHandle)
    (r' : Recording) (root' : NodeHandle) : Prop where
  root_eq : f root = root'
  bijOn : Set.BijOn f (r.Reachable root) (r'.Reachable root')
  nodes : ∀ a ∈ r.Reachable root, ∃ node node', r.node? a = some node ∧
    r'.node? (f a) = some node' ∧ NodeMatch f r.images r'.images node node'

/-- The graphs that two roots need are the same up to handles. -/
def Isomorphic (r : Recording) (root : NodeHandle) (r' : Recording) (root' : NodeHandle) : Prop :=
  ∃ f, Isomorphism f r root r' root'

variable {f g : NodeHandle → NodeHandle} {images images' images'' : List ImageDescriptor}

theorem NodeMatch.symm {node node' : RecordedNode} (h : NodeMatch f images images' node node')
    (hg : ∀ e ∈ node.params.entries, ∀ a, e.2 = .node a → g (f a) = a) :
    NodeMatch g images' images node' node := by
  refine ⟨h.kind.symm, ?_⟩
  have params := h.params
  generalize node.params.entries = l at params hg
  generalize node'.params.entries = l' at params
  induction params with
  | nil => exact .nil
  | @cons e e' _ _ he _ ih =>
    obtain ⟨name, p⟩ := e
    obtain ⟨name', p'⟩ := e'
    obtain ⟨rfl, hp⟩ : name = name' ∧ ParamMatch f images images' p p' := he
    refine .cons ⟨rfl, ?_⟩ (ih fun e he => hg e (List.mem_cons_of_mem _ he))
    cases hp with
    | constant lanes => exact .constant lanes
    | node a =>
      have back : ParamMatch g images' images (.node (f a)) (.node (g (f a))) := .node (f a)
      rwa [hg _ List.mem_cons_self a rfl] at back
    | image hi hi' => exact .image hi' hi

theorem NodeMatch.trans {node node' node'' : RecordedNode}
    (h : NodeMatch f images images' node node') (h' : NodeMatch g images' images'' node' node'') :
    NodeMatch (g ∘ f) images images'' node node'' := by
  refine ⟨h.kind.trans h'.kind, ?_⟩
  have params := h.params
  have params' := h'.params
  generalize node.params.entries = l at params
  generalize node'.params.entries = l' at params params'
  generalize node''.params.entries = l'' at params'
  induction params generalizing l'' with
  | nil => cases params'; exact .nil
  | @cons e e' _ _ he _ ih =>
    cases params' with
    | @cons _ e'' _ _ he' hrest' =>
      refine .cons ⟨he.1.trans he'.1, ?_⟩ (ih _ hrest')
      obtain ⟨name, p⟩ := e
      obtain ⟨name', p'⟩ := e'
      obtain ⟨name'', p''⟩ := e''
      obtain ⟨-, hp⟩ : name = name' ∧ ParamMatch f images images' p p' := he
      obtain ⟨-, hp'⟩ : name' = name'' ∧ ParamMatch g images' images'' p' p'' := he'
      cases hp with
      | constant lanes => cases hp'; exact .constant lanes
      | node a => cases hp'; exact .node a
      | image hi hi' =>
        cases hp' with
        | image hj hj' =>
          rw [hi'] at hj
          obtain rfl := Option.some.inj hj
          exact .image hi hj'

variable {r r' r'' : Recording} {root root' root'' : NodeHandle}

theorem mem_reachable_root (r : Recording) (root : NodeHandle) : root ∈ r.Reachable root :=
  ReflTransGen.refl

theorem mem_reachable_of_param {a b : NodeHandle} {node : RecordedNode} {name : String}
    (ha : a ∈ r.Reachable root) (hn : r.node? a = some node)
    (hm : (name, Param.node b) ∈ node.params.entries) : b ∈ r.Reachable root :=
  ReflTransGen.tail ha ⟨node, name, hn, hm⟩

theorem Isomorphic.symm (h : Isomorphic r root r' root') : Isomorphic r' root' r root := by
  obtain ⟨f, h⟩ := h
  have : Nonempty NodeHandle := ⟨root⟩
  obtain ⟨g, hg⟩ : ∃ g : NodeHandle → NodeHandle, Set.InvOn g f (r.Reachable root)
      (r'.Reachable root') := ⟨_, h.bijOn.invOn_invFunOn⟩
  refine ⟨g, ?_, h.bijOn.symm hg.symm, fun a ha => ?_⟩
  · rw [← h.root_eq, hg.1 (mem_reachable_root r root)]
  obtain ⟨b, hb, rfl⟩ := h.bijOn.surjOn ha
  obtain ⟨node, node', hn, hn', same⟩ := h.nodes b hb
  refine ⟨node', node, hn', by rwa [hg.1 hb], same.symm fun e he c hc => ?_⟩
  obtain ⟨name, p⟩ := e
  obtain rfl : p = .node c := hc
  exact hg.1 (mem_reachable_of_param hb hn he)

theorem Isomorphic.trans (h : Isomorphic r root r' root') (h' : Isomorphic r' root' r'' root'') :
    Isomorphic r root r'' root'' := by
  obtain ⟨f, h⟩ := h
  obtain ⟨g, h'⟩ := h'
  refine ⟨g ∘ f, by simp [h.root_eq, h'.root_eq], h'.bijOn.comp h.bijOn, fun a ha => ?_⟩
  obtain ⟨node, node', hn, hn', same⟩ := h.nodes a ha
  obtain ⟨again, node'', ha', hn'', same'⟩ := h'.nodes (f a) (h.bijOn.mapsTo ha)
  obtain rfl : node' = again := Option.some.inj (hn'.symm.trans ha')
  exact ⟨node, node'', hn, hn'', same.trans same'⟩

end Recording

/-! ## Copies -/

/-- The place in `images'` of an image of `images`. -/
def ImageHandle.moved (images images' : List ImageDescriptor) (image : ImageHandle) : ImageHandle :=
  match images[image.index]? with
  | some descriptor => ⟨images'.idxOf descriptor⟩
  | none => image

/-- A parameter after the nodes moved up by `shift` and the images moved to their places in
    `images'`. -/
def Param.moved (shift : Nat) (images images' : List ImageDescriptor) : Param → Param
  | .constant lanes => .constant lanes
  | .node handle => .node ⟨handle.index + shift⟩
  | .image handle => .image (handle.moved images images')

/-- A node after the nodes and images moved. -/
def RecordedNode.moved (shift : Nat) (images images' : List ImageDescriptor) (node : RecordedNode) :
    RecordedNode :=
  { kind := node.kind, params := node.params.map (Param.moved shift images images') }

/-- `r` holds the nodes of `own` in a row, moved up by `shift`, and its images. -/
structure Recording.Holds (own : Recording) (shift : Nat) (r : Recording) : Prop where
  nodes : ∀ (n : Nat) (node : RecordedNode), own.nodes[n]? = some node →
    r.nodes[n + shift]? = some (node.moved shift own.images r.images)
  images : own.images ⊆ r.images

namespace Recording

variable {own r : Recording} {shift : Nat}

theorem reachable_lt (hw : own.WellFormed) {root a : NodeHandle} (hr : root.index < own.nodes.size)
    (ha : a ∈ own.Reachable root) : a.index < own.nodes.size := by
  induction ha with
  | refl => exact hr
  | @tail b c _ hbc ih =>
    obtain ⟨node, name, hn, hm⟩ := hbc
    exact Nat.lt_trans ((hw _ _ hn).node_lt name c hm) ih

theorem nodeMatch_moved (hi : own.images ⊆ r.images) {n : Nat} {node : RecordedNode}
    (hn : node.Backward n own.images.length) :
    NodeMatch (fun a => ⟨a.index + shift⟩) own.images r.images node
      (node.moved shift own.images r.images) := by
  refine ⟨rfl, List.forall₂_map_right_iff.2 (List.forall₂_same.2 fun e he => ⟨rfl, ?_⟩)⟩
  obtain ⟨name, p⟩ := e
  cases p with
  | constant lanes => exact .constant lanes
  | node a => exact .node a
  | image i =>
    have hlt := (hn.image_lt name i he).1
    have hd : own.images[i.index]? = some own.images[i.index] := List.getElem?_eq_getElem hlt
    have hm : own.images[i.index] ∈ r.images := hi (List.getElem_mem hlt)
    refine .image hd ?_
    simp only [ImageHandle.moved, hd]
    exact List.getElem?_idxOf hm

/-- A recording that holds another one has its graphs. -/
theorem Holds.isomorphic (h : own.Holds shift r) (hw : own.WellFormed) {root : NodeHandle}
    (hr : root.index < own.nodes.size) : Isomorphic own root r ⟨root.index + shift⟩ := by
  have moved : ∀ a ∈ own.Reachable root, ∃ node, own.node? a = some node ∧
      r.node? ⟨a.index + shift⟩ = some (node.moved shift own.images r.images) := by
    intro a ha
    have hlt := reachable_lt hw hr ha
    exact ⟨own.nodes[a.index], Array.getElem?_eq_getElem hlt,
      h.nodes _ _ (Array.getElem?_eq_getElem hlt)⟩
  refine ⟨fun a => ⟨a.index + shift⟩, rfl, ⟨?_, ?_, ?_⟩, fun a ha => ?_⟩
  · intro a ha
    induction ha with
    | refl => exact mem_reachable_root _ _
    | @tail b c hb hbc ih =>
      obtain ⟨node, name, hn, hm⟩ := hbc
      obtain ⟨node', hn', hmoved⟩ := moved b hb
      obtain rfl : node = node' := Option.some.inj (hn.symm.trans hn')
      exact mem_reachable_of_param ih hmoved (List.mem_map.2 ⟨(name, .node c), hm, rfl⟩)
  · rintro ⟨a⟩ _ ⟨b⟩ _ hab
    simpa using hab
  · intro c hc
    induction hc with
    | refl => exact ⟨root, mem_reachable_root _ _, rfl⟩
    | @tail b c _ hbc ih =>
      obtain ⟨a, ha, rfl⟩ := ih
      obtain ⟨node, name, hn, hm⟩ := hbc
      obtain ⟨node', hn', hmoved⟩ := moved a ha
      obtain rfl : node = _ := Option.some.inj (hn.symm.trans hmoved)
      obtain ⟨⟨name', p⟩, he, hp⟩ := List.mem_map.1 hm
      cases p with
      | constant lanes => cases hp
      | image i => cases hp
      | node d =>
        cases hp
        exact ⟨d, mem_reachable_of_param ha hn' he, rfl⟩
  · obtain ⟨node, hn, hmoved⟩ := moved a ha
    exact ⟨node, _, hn, hmoved, nodeMatch_moved h.images (hw _ _ hn)⟩

end Recording

end MaterialLowering
