import MaterialLowering.Lowering.Material
import MaterialLowering.Proofs.Walks.Lockstep

/-!
# What lowering adds to a recording

Two recordings to which the same was done have gained the same nodes up to handles. Taken with
itself, a recording shows that its new nodes refer to earlier nodes only, and to images where an
image texture reads its data.

Results:
* `Grown.nodes_alike`, `Grown.images_eq`: what is gained.
* `Grown.backward`: references of new nodes lead back.
* `Recording.create_eq_setAll`: a creation, and the parameters that are set after it.
* `Setting.lower_lockstep`: one material, lowered into two recordings.
* `Document.lower_gains`: lowering adds well-formed nodes and leaves the rest as it was.
-/

namespace MaterialLowering

/-! ## Parameters -/

/-- Maps whose entries are related have related entries after related ones are inserted. -/
theorem SortedMap.forall₂_insertEntry {κ α β : Type} [Ord κ] {R : κ × α → κ × β → Prop}
    (hkey : ∀ e e', R e e' → e.1 = e'.1) {key : κ} {a : α} {b : β} (h : R (key, a) (key, b))
    {l : List (κ × α)} {l' : List (κ × β)} (hl : List.Forall₂ R l l') :
    List.Forall₂ R (insertEntry key a l) (insertEntry key b l') := by
  induction hl with
  | nil => exact .cons h .nil
  | @cons e e' rest rest' he hrest ih =>
    obtain ⟨k, x⟩ := e
    obtain ⟨k', y⟩ := e'
    obtain rfl : k = k' := hkey _ _ he
    simp only [insertEntry]
    cases compare key k with
    | lt => exact .cons h (.cons he hrest)
    | eq => exact .cons h hrest
    | gt => exact .cons he ih

theorem SortedMap.forall₂_ofList {κ α β : Type} [Ord κ] [Std.TransOrd κ] {R : κ × α → κ × β → Prop}
    (hkey : ∀ e e', R e e' → e.1 = e'.1) {l : List (κ × α)} {l' : List (κ × β)}
    (h : List.Forall₂ R l l') : List.Forall₂ R (ofList l).entries (ofList l').entries := by
  have inserted : ∀ (m : SortedMap κ α) (m' : SortedMap κ β), List.Forall₂ R m.entries m'.entries →
      List.Forall₂ R (l.foldl (fun m e => m.insert e.1 e.2) m).entries
        (l'.foldl (fun m e => m.insert e.1 e.2) m').entries := by
    induction h with
    | nil => exact fun _ _ hm => hm
    | @cons e e' _ _ he _ ih =>
      obtain ⟨k, x⟩ := e
      obtain ⟨k', y⟩ := e'
      obtain rfl : k = k' := hkey _ _ he
      exact fun m m' hm => ih _ _ (forall₂_insertEntry hkey he hm)
  exact inserted .empty .empty .nil

/-- The value that a parameter is set to. -/
def Param.value : Param → Value
  | .constant lanes => .constant lanes
  | .node handle => .node handle
  | .image handle => .image handle

namespace Param

@[simp] theorem value_eq_constant {p : Param} {lanes : Lanes} :
    p.value = .constant lanes ↔ p = .constant lanes := by
  cases p <;> simp [value]

@[simp] theorem value_eq_node {p : Param} {a : NodeHandle} : p.value = .node a ↔ p = .node a := by
  cases p <;> simp [value]

@[simp] theorem value_eq_image {p : Param} {i : ImageHandle} :
    p.value = .image i ↔ p = .image i := by
  cases p <;> simp [value]

@[simp] theorem value_ne_unset {p : Param} : p.value ≠ .unset := by
  cases p <;> simp [value]

end Param

/-- The same node up to handles. -/
structure RecordedNode.Alike (w : Correspondence) (node node' : RecordedNode) : Prop where
  kind : node.kind = node'.kind
  params : List.Forall₂ (fun e e' => w.Parameter node.kind (e.1, e.2.value) (e'.1, e'.2.value))
    node.params.entries node'.params.entries

theorem RecordedNode.Alike.mono {w w' : Correspondence} {node node' : RecordedNode} (hw : w ≤ w')
    (h : node.Alike w node') : node.Alike w' node' :=
  ⟨h.kind, List.Forall₂.imp (fun _ _ he => he.mono hw) h.params⟩

theorem Correspondence.Parameter.name_eq {w : Correspondence} {kind : NativeKind}
    {p q : String × Value} (h : w.Parameter kind p q) : p.1 = q.1 := by
  cases h <;> rfl

theorem RecordedNode.withParams_alike {w : Correspondence} {kind : NativeKind}
    {ps qs : List (String × Value)} (h : List.Forall₂ (w.Parameter kind) ps qs) :
    (withParams kind ps).Alike w (withParams kind qs) := by
  refine ⟨rfl, SortedMap.forall₂_ofList (fun _ _ he => he.name_eq) ?_⟩
  induction h with
  | nil => exact .nil
  | cons hp _ ih =>
    cases hp with
    | answer h =>
      cases h with
      | constant lanes => exact .cons (.answer (.constant lanes)) ih
      | node h => exact .cons (.answer (.node h)) ih
      | unset => exact ih
    | image hk h => exact .cons (.image hk h) ih

namespace Grown

variable {b b' r r' : Recording}

/-! ## Nodes -/

/-- Since the beginning the same nodes were created, up to handles. -/
theorem nodes_alike (h : Grown b b' r r') :
    List.Forall₂ (RecordedNode.Alike (Recording.since b b' r r'))
      (r.nodes.toList.drop b.nodes.size) (r'.nodes.toList.drop b'.nodes.size) := by
  induction h with
  | start =>
    rw [List.drop_eq_nil_of_le (by simp), List.drop_eq_nil_of_le (by simp)]
    exact .nil
  | @create r r' kind ps qs h params ih =>
    have hw := Recording.since_mono b b' (r.create_extends kind ps)
      (r'.create_extends kind qs)
    simp only [Recording.create_nodes, Array.toList_push]
    rw [List.drop_append_of_le_length (by simpa using h.left.size_le),
      List.drop_append_of_le_length (by simpa using h.right.size_le)]
    refine List.rel_append (List.Forall₂.imp (fun _ _ hn => hn.mono hw) ih) (.cons ?_ .nil)
    exact (RecordedNode.withParams_alike params).mono hw
  | @materialize r r' h descriptor ih =>
    have hw := Recording.since_mono b b' (r.materialize_extends descriptor)
      (r'.materialize_extends descriptor)
    simp only [Recording.materialize_nodes]
    exact List.Forall₂.imp (fun _ _ hn => hn.mono hw) ih

end Grown

/-- The node in place `n` refers to earlier nodes, and to one of so many images where an image
    texture reads its data. -/
structure RecordedNode.Backward (n images : Nat) (node : RecordedNode) : Prop where
  node_lt : ∀ name handle, (name, Param.node handle) ∈ node.params.entries → handle.index < n
  image_lt : ∀ name handle, (name, Param.image handle) ∈ node.params.entries →
    handle.index < images ∧ name = "data" ∧ node.kind = .imageTexture

/-- All references lead back. -/
def Recording.WellFormed (r : Recording) : Prop :=
  ∀ (n : Nat) (node : RecordedNode), r.nodes[n]? = some node → node.Backward n r.images.length

theorem RecordedNode.Alike.backward {b b' r r' : Recording} {node node' : RecordedNode}
    (h : RecordedNode.Alike (Recording.since b b' r r') node node') :
    node.Backward r.nodes.size r.images.length := by
  have related : ∀ e ∈ node.params.entries, ∃ e' : String × Param,
      (Recording.since b b' r r').Parameter node.kind (e.1, e.2.value) (e'.1, e'.2.value) := by
    intro e he
    obtain ⟨n, hn, rfl⟩ := List.mem_iff_getElem.1 he
    exact ⟨_, h.params.get hn (h.params.length_eq ▸ hn)⟩
  constructor
  · intro name handle he
    obtain ⟨⟨name', param⟩, hp⟩ := related _ he
    generalize param.value = value at hp
    cases hp with
    | answer h =>
      cases h with
      | node h => exact h.choose_spec.2.2.1
  · intro name handle he
    obtain ⟨⟨name', param⟩, hp⟩ := related _ he
    generalize param.value = value at hp
    cases hp with
    | answer h => cases h
    | image hk h =>
      obtain ⟨descriptor, hm, -, hi, -⟩ := h
      exact ⟨hi ▸ List.idxOf_lt_length_iff.2 hm, rfl, hk⟩

theorem RecordedNode.Backward.mono {n images images' : Nat} {node : RecordedNode}
    (h : node.Backward n images) (hi : images ≤ images') : node.Backward n images' :=
  ⟨h.node_lt, fun name handle he =>
    ⟨Nat.lt_of_lt_of_le (h.image_lt name handle he).1 hi, (h.image_lt name handle he).2⟩⟩

/-- References of the nodes that were created since the beginning lead back. -/
theorem Grown.backward {b b' r r' : Recording} (h : Grown b b' r r') {n : Nat} {node : RecordedNode}
    (hb : b.nodes.size ≤ n) (hn : r.nodes[n]? = some node) : node.Backward n r.images.length := by
  induction h with
  | start =>
    rw [Array.getElem?_eq_none hb] at hn
    cases hn
  | @create r r' kind ps qs h params ih =>
    rw [Recording.create_nodes, Array.getElem?_push] at hn
    split at hn
    · rename_i hlast
      obtain rfl : RecordedNode.withParams kind ps = node := by simpa using hn
      exact hlast ▸ (RecordedNode.withParams_alike params).backward
    · exact ih hn
  | @materialize r r' h descriptor ih =>
    rw [Recording.materialize_nodes] at hn
    exact (ih hn).mono (r.materialize_extends descriptor).images.length_le

/-! ## Images -/

/-- Since an empty list of images, the images that were asked for and not there yet were added. -/
theorem Grown.images_eq {b b' r r' : Recording} (h : Grown b b' r r') (hb : b.images = [])
    (hf : b.failing = b'.failing) :
    r'.images = b'.images ++ r.images.filter fun descriptor => descriptor ∉ b'.images := by
  induction h with
  | start => simp [hb]
  | create _ _ ih => exact ih
  | @materialize r r' h descriptor ih =>
    have failing : r.failing = r'.failing := by rw [h.left.failing, h.right.failing, hf]
    unfold Recording.materialize
    rw [failing]
    split
    · exact ih
    simp only [List.idxOf_lt_length_iff]
    by_cases hm : descriptor ∈ r.images
    · have hm' : descriptor ∈ r'.images := by rw [ih]; by_cases descriptor ∈ b'.images <;> simp [*]
      simpa only [if_pos hm, if_pos hm'] using ih
    · by_cases hb' : descriptor ∈ b'.images
      · have hm' : descriptor ∈ r'.images := by rw [ih]; simp [hb']
        simp only [if_neg hm, if_pos hm', List.filter_append]
        simpa [hb'] using ih
      · have hm' : descriptor ∉ r'.images := by rw [ih]; simp [hb', hm]
        simp only [if_neg hm, if_neg hm', List.filter_append]
        simp [hb', ih]

/-! ## Setting parameters -/

/-- Sets the parameters of a node one after another. -/
def Recording.setAll (r : Recording) (handle : NodeHandle) (params : List (String × Value)) :
    Recording × List Notice :=
  params.foldl (fun (r, log) (name, value) =>
    match Param.ofValue? value with
    | some param => ((r.set handle name param).1, log ++ (r.set handle name param).2)
    | none => (r, log)) (r, [])

/-- The parameter of a new node. -/
theorem Recording.set_push (r : Recording) (node : RecordedNode) (name : String) (param : Param) :
    { r with nodes := r.nodes.push node }.set ⟨r.nodes.size⟩ name param =
      ({ r with nodes := r.nodes.push { node with params := node.params.insert name param } }, []) := by
  have modified : (r.nodes.push node).modify r.nodes.size
      (fun node => { node with params := node.params.insert name param }) =
      r.nodes.push { node with params := node.params.insert name param } := by
    refine Array.ext (by simp) fun n hn hn' => ?_
    rw [Array.getElem_modify, Array.getElem_push, Array.getElem_push]
    by_cases hlt : n < r.nodes.size
    · simp [hlt, Nat.ne_of_gt hlt]
    · obtain rfl : n = r.nodes.size := by simp at hn'; omega
      simp
  simp [Recording.set, Recording.assign, modified]

/-- Creating a node with parameters is creating it without any and then setting them. No parameter
    is set on a node that is not there. -/
theorem Recording.create_eq_setAll (r : Recording) (kind : NativeKind)
    (params : List (String × Value)) :
    (r.create kind []).2.setAll (r.create kind []).1 params = ((r.create kind params).2, []) := by
  have all : ∀ m : SortedMap String Param,
      { r with nodes := r.nodes.push ⟨kind, m⟩ }.setAll ⟨r.nodes.size⟩ params =
        ({ r with nodes := r.nodes.push ⟨kind, (params.filterMap fun p =>
            (Param.ofValue? p.2).map fun param => (p.1, param)).foldl
              (fun m e => m.insert e.1 e.2) m⟩ }, []) := by
    unfold setAll
    induction params with
    | nil => exact fun _ => rfl
    | cons head rest ih =>
      intro m
      obtain ⟨name, value⟩ := head
      rw [List.foldl_cons]
      dsimp only
      cases hv : Param.ofValue? value with
      | none =>
        dsimp only
        rw [ih m]
        simp [hv]
      | some param =>
        dsimp only
        rw [set_push]
        simpa [hv] using ih (m.insert name param)
  exact all .empty

/-- The node in place `n` was created without parameters; its parameters were set right after, and no
    notice said that it was not there. -/
def Recording.Made (r r' : Recording) (n : Nat) (node : RecordedNode) : Prop :=
  ∃ before params, r.Extends before ∧ before.nodes.size = n ∧
    (before.create node.kind []).2.setAll ⟨n⟩ params =
      ({ before with nodes := before.nodes.push node }, []) ∧
    (before.nodes.push node).toList <+: r'.nodes.toList

/-- The nodes that were created since the beginning were made. -/
theorem Grown.made {b b' r r' : Recording} (h : Grown b b' r r') {n : Nat} {node : RecordedNode}
    (hb : b.nodes.size ≤ n) (hn : r.nodes[n]? = some node) : b.Made r n node := by
  induction h with
  | start =>
    rw [Array.getElem?_eq_none hb] at hn
    cases hn
  | @create r r' kind ps qs h params ih =>
    rw [Recording.create_nodes, Array.getElem?_push] at hn
    split at hn
    · rename_i last
      obtain rfl : RecordedNode.withParams kind ps = node := by simpa using hn
      exact ⟨r, ps, h.left, last.symm, last ▸ r.create_eq_setAll kind ps, List.prefix_rfl⟩
    · obtain ⟨before, params, since, place, set, within⟩ := ih hn
      exact ⟨before, params, since, place, set, within.trans (r.create_extends kind ps).nodes⟩
  | @materialize r r' h descriptor ih =>
    rw [Recording.materialize_nodes] at hn
    obtain ⟨before, params, since, place, set, within⟩ := ih hn
    exact ⟨before, params, since, place, set, within.trans (r.materialize_extends descriptor).nodes⟩

/-! ## Materials -/

/-- A failed material gets a node of its own on both sides. -/
theorem fallbackShader_grown {b b' r r' : Recording} (h : Grown b b' r r') (showErrors : Bool) :
    Grown b b' (fallbackShader r showErrors).2 (fallbackShader r' showErrors).2 ∧
      (Recording.since b b' (fallbackShader r showErrors).2 (fallbackShader r' showErrors).2).node
        (fallbackShader r showErrors).1 (fallbackShader r' showErrors).1 := by
  unfold fallbackShader
  split
  · exact ⟨h.create (.cons (.answer (.constant _)) .nil), h.created _ _ _⟩
  · exact ⟨h.create (.cons (.answer (.constant _)) .nil), h.created _ _ _⟩

/-- A material, lowered into two recordings in which the same images cannot be loaded: the same is
    done to both, and the roots were created at the same time. -/
theorem Setting.lower_lockstep (s : Setting) (showErrors : Bool) (b b' : Recording)
    (hf : b.failing = b'.failing) :
    ∃ r r', Grown b b' r r' ∧
      (Recording.since b b' r r').node (s.lower showErrors b).root (s.lower showErrors b').root ∧
      (s.lower showErrors b).recording =
        r.register s.graph.material (s.lower showErrors b).root ∧
      (s.lower showErrors b').recording =
        r'.register s.graph.material (s.lower showErrors b').root ∧
      ∀ notice ∈ (s.lower showErrors b).log,
        ¬ notice.ShowsHandle ∨ notice = .finished s.graph.material (s.lower showErrors b).root := by
  have both := Walk.root_lockstep s hf
  have quiet : ∀ {state : WalkState} {recovery : List Notice},
      (∀ notice ∈ state.log, ¬ notice.ShowsHandle) → (∀ notice ∈ recovery, ¬ notice.ShowsHandle) →
      ∀ root, ∀ notice ∈ [.started s.graph.material, .walking] ++ state.log.toList ++
        [.resolved state.cache.size] ++ recovery ++ [.finished s.graph.material root],
        ¬ notice.ShowsHandle ∨ notice = .finished s.graph.material root := by
    intro state recovery hs hr root notice hn
    simp only [List.mem_append, List.mem_cons, List.not_mem_nil, or_false] at hn
    rcases hn with ((((rfl | rfl) | hn) | rfl) | hn) | rfl
    · exact .inl id
    · exact .inl id
    · exact .inl (hs notice (by simpa using hn))
    · exact .inl id
    · exact .inl (hr notice hn)
    · exact .inr rfl
  unfold Setting.lower
  show ∃ r r', _
  simp only [Walk.on] at both
  generalize (Walk.root s).run (.start b) = run at both ⊢
  generalize (Walk.root s).run (.start b') = run' at both ⊢
  cases both with
  | @ok root root' σ σ' _ state result =>
    exact ⟨σ.recording, σ'.recording, state.recording, result, rfl, rfl,
      quiet state.quiet (by simp) root⟩
  | @error failure σ σ' _ state =>
    obtain ⟨grown, roots⟩ := fallbackShader_grown state.recording showErrors
    refine ⟨_, _, grown, roots, rfl, rfl, quiet state.quiet ?_ _⟩
    intro notice hn
    rcases List.mem_pair.1 hn with rfl | rfl
    · exact id
    · exact id

/-- What lowering a material may do to a recording. -/
structure Recording.Gains (material : String) (root : NodeHandle) (r r' : Recording) : Prop where
  /-- The nodes that were there keep their kinds and parameters. -/
  nodes : r.nodes.toList <+: r'.nodes.toList
  images : r.images <+: r'.images
  failing : r'.failing = r.failing
  /-- The other materials keep their roots. -/
  others : ∀ other, other ≠ material → r'.root? other = r.root? other
  registered : r'.root? material = some root
  /-- The root is a new node. -/
  root_ge : r.nodes.size ≤ root.index
  root_lt : root.index < r'.nodes.size
  /-- New nodes refer to earlier nodes, and to images where an image texture reads its data. -/
  backward : ∀ (n : Nat) (node : RecordedNode), r.nodes.size ≤ n → r'.nodes[n]? = some node →
    node.Backward n r'.images.length

theorem Recording.Gains.wellFormed {material : String} {root : NodeHandle} {r r' : Recording}
    (h : Gains material root r r') (hr : r.WellFormed) : r'.WellFormed := by
  intro n node hn
  by_cases hlt : n < r.nodes.size
  · have old : r.nodes[n]? = some node := by
      have := List.prefix_iff_getElem?.1 h.nodes n (by simpa using hlt)
      rw [← Array.getElem?_toList, this] at hn
      simpa [hlt] using hn
    exact (hr n node old).mono h.images.length_le
  · exact h.backward n node (Nat.le_of_not_lt hlt) hn

namespace Document

/-- A material only adds nodes, images and its root. -/
theorem gains_of_lower (d : Document) (table : RuleTable) (showErrors : Bool) (r : Recording) :
    r.Gains d.name (d.lower table showErrors r).root (d.lower table showErrors r).recording := by
  obtain ⟨after, after', grown, root, recording, -⟩ :=
    (d.setting table).lower_lockstep showErrors r r rfl
  obtain ⟨i, hi, -, hlt, -⟩ := root
  have recorded : (d.lower table showErrors r).recording =
      after.register d.name (d.lower table showErrors r).root := recording
  have get : ∀ other, (after.register d.name (d.lower table showErrors r).root).root? other =
      if compare other d.name = .eq then some (d.lower table showErrors r).root
      else r.root? other := fun other => by
    rw [Recording.root?, Recording.register, SortedMap.get?_insert, grown.left.roots]
    rfl
  rw [recorded]
  refine ⟨grown.left.nodes, grown.left.images, grown.left.failing, fun other ho => ?_, ?_, ?_, hlt,
    fun n node hb hn => grown.backward hb hn⟩
  · rw [get, if_neg (by simpa using ho)]
  · rw [get, if_pos (by simp)]
  · exact hi ▸ Nat.le_add_right _ _

/-- Alone, a material comes to a well-formed recording. -/
theorem wellFormed_of_lower (d : Document) (table : RuleTable) (showErrors : Bool) {r : Recording}
    (alone : r.nodes = #[]) : (d.lower table showErrors r).recording.WellFormed :=
  (d.gains_of_lower table showErrors r).wellFormed fun n node hn => by simp [alone] at hn

/-- A material, lowered by any rules into any recording: the recording only gains nodes, images and
    the root, and its references lead back. No parameter is set on a node that is not there: no notice
    says so, also where the new nodes are created without parameters and these are set afterwards. -/
theorem lower_gains (d : Document) (table : RuleTable) (showErrors : Bool) (r : Recording) :
    r.Gains d.name (d.lower table showErrors r).root (d.lower table showErrors r).recording ∧
      (∀ param handle, .unknownNode param handle ∉ (d.lower table showErrors r).log) ∧
      (∀ n node, r.nodes.size ≤ n → (d.lower table showErrors r).recording.nodes[n]? = some node →
        r.Made (d.lower table showErrors r).recording n node) ∧
      (r.WellFormed → (d.lower table showErrors r).recording.WellFormed) := by
  have gains := d.gains_of_lower table showErrors r
  obtain ⟨after, after', grown, -, recording, -, quiet⟩ :=
    (d.setting table).lower_lockstep showErrors r r rfl
  have recorded : (d.lower table showErrors r).recording =
      after.register d.name (d.lower table showErrors r).root := recording
  refine ⟨gains, fun param handle hm => ?_, fun n node hb hn => ?_, gains.wellFormed⟩
  · rcases quiet _ hm with hn | hn
    · exact hn trivial
    · cases hn
  · rw [recorded] at hn ⊢
    exact grown.made hb hn

/-- A shader that shows an image. -/
def papered (name image : String) : Document where
  name
  tree :=
    { nodes :=
        [⟨"output", .outputMaterial, [⟨"Surface", none, true⟩], [], .ofList [], false⟩,
          ⟨"surface", .bsdfTransparent, [⟨"Color", none, false⟩], [⟨"BSDF", none, true⟩], .ofList [],
            false⟩,
          ⟨"texture", .texImage, [⟨"Vector", none, false⟩], [⟨"Color", none, false⟩],
            .ofList [("image", .text image)], false⟩]
      links :=
        [⟨"surface", "BSDF", "output", .name "Surface", false⟩,
          ⟨"texture", "Color", "surface", .name "Color", false⟩] }
  groups := []

/-- A second material gets a texture and a shader of its own, and the image that is not there yet. -/
theorem lower_gains_papered :
    let r := ((papered "floor" "wood.png").lower .builtin false .empty).recording
    let lowered := (papered "wall" "stone.png").lower .builtin false r
    r.WellFormed ∧ r.nodes.size = 2 ∧ r.images = [⟨"wood.png", .repeat⟩] ∧
      r.Gains "wall" ⟨3⟩ lowered.recording ∧ lowered.recording.WellFormed ∧
      lowered.recording.nodes.size = 4 ∧
      lowered.recording.images = [⟨"wood.png", .repeat⟩, ⟨"stone.png", .repeat⟩] := by
  intro r lowered
  have before : r.WellFormed := (papered "floor" "wood.png").wellFormed_of_lower .builtin false rfl
  obtain ⟨gains, -, -, wellFormed⟩ := (papered "wall" "stone.png").lower_gains .builtin false r
  have root : lowered.root = ⟨3⟩ := by decide +kernel
  have own : r.Gains "wall" lowered.root lowered.recording := gains
  rw [root] at own
  exact ⟨before, by decide +kernel, by decide +kernel, own, wellFormed before, by decide +kernel,
    by decide +kernel⟩

end Document

end MaterialLowering
