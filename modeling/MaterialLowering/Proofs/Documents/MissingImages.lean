import MaterialLowering.Proofs.Documents.Matchings
import MaterialLowering.Proofs.Walks.Histories

/-!
# Images that cannot be loaded

An image that cannot be loaded does no harm beyond the texture that shows it. That texture is lowered to
the error color, as if it had no image, and everything else is lowered as it is then.

Main definitions:
* `Document.withoutImages`: the document with no image assigned where it cannot be loaded.
* `HostGraph.LosesImage`: a texture whose image cannot be loaded.

Results:
* `Walk.expand_lost`: such a texture reads none of its inputs and creates nothing.
* `Document.lower_withoutImages`: documents are lowered as they are without these images.
-/

namespace MaterialLowering

open HostGraph (ReadsAs ImagesAlike imageProperty)
open Walk (on)

/-! ## Properties -/

namespace SortedMap

variable {κ α : Type} [Ord κ]

/-- The map without a key. -/
def erase (m : SortedMap κ α) (key : κ) : SortedMap κ α :=
  ⟨m.entries.filter fun entry => compare key entry.1 ≠ .eq, m.sorted.filter _⟩

theorem get?_erase [Std.TransOrd κ] (m : SortedMap κ α) (key other : κ) :
    (m.erase key).get? other = if compare other key = .eq then none else m.get? other := by
  obtain ⟨entries, sorted⟩ := m
  show find? other (entries.filter _) = if _ then none else find? other entries
  clear sorted
  induction entries with
  | nil => simp [find?]
  | cons entry rest ih =>
    obtain ⟨k, v⟩ := entry
    by_cases same : compare other key = .eq
    · by_cases hk : compare key k = .eq
      · simpa [hk, same] using ih
      · have apart : compare other k ≠ .eq := fun h =>
          hk (Std.TransCmp.eq_trans (Std.OrientedCmp.eq_symm same) h)
        simpa [hk, same, find?, apart] using ih
    · by_cases hk : compare key k = .eq
      · have apart : compare other k ≠ .eq := fun h =>
          same (Std.TransCmp.eq_trans h (Std.OrientedCmp.eq_symm hk))
        simpa [hk, same, find?, apart] using ih
      · by_cases ho : compare other k = .eq
        · simp [hk, same, find?, ho]
        · simpa [hk, same, find?, ho] using ih

end SortedMap

/-- The node with other properties. -/
def NodeDecl.withProperties (decl : NodeDecl) (properties : SortedMap String Property) : NodeDecl :=
  { decl with properties }

/-- The tree with other properties of its nodes. -/
def NodeTree.mapProperties (change : NodeDecl → SortedMap String Property) (tree : NodeTree) :
    NodeTree :=
  { tree with nodes := tree.nodes.map fun decl => decl.withProperties (change decl) }

namespace Document

/-- The document with other properties of its nodes. -/
def mapProperties (change : NodeDecl → SortedMap String Property) (d : Document) : Document :=
  { d with
    tree := d.tree.mapProperties change
    groups := d.groups.map fun group => { group with tree := group.tree.mapProperties change } }

variable (change : NodeDecl → SortedMap String Property) (d : Document)

@[simp] theorem tree?_mapProperties (id : TreeId) :
    (d.mapProperties change).tree? id = (d.tree? id).map (NodeTree.mapProperties change) := by
  obtain ⟨_ | n⟩ := id
  · rfl
  · simp [tree?, mapProperties, Function.comp_def]

@[simp] theorem node?_mapProperties (node : NodeId) :
    (d.mapProperties change).node? node =
      (d.node? node).map fun decl => decl.withProperties (change decl) := by
  unfold node?
  rw [tree?_mapProperties]
  cases d.tree? node.tree <;> simp [NodeTree.mapProperties]

theorem nodeIndex?_mapProperties (tree : NodeTree) (name : String) :
    (tree.mapProperties change).nodeIndex? name = tree.nodeIndex? name := by
  simp [NodeTree.nodeIndex?, NodeTree.mapProperties, List.findIdx?_map, Function.comp_def,
    NodeDecl.withProperties]

theorem firstOfKind?_mapProperties (tree : NodeTree) (kind : HostKind) :
    (tree.mapProperties change).firstOfKind? kind = tree.firstOfKind? kind := by
  simp [NodeTree.firstOfKind?, NodeTree.mapProperties, List.findIdx?_map, Function.comp_def,
    NodeDecl.withProperties]

theorem source?_mapProperties (tree : NodeTree) (id : TreeId) (link : LinkDecl) :
    (tree.mapProperties change).source? id link = tree.source? id link := by
  unfold NodeTree.source?
  rw [nodeIndex?_mapProperties]
  cases tree.nodeIndex? link.fromNode with
  | none => rfl
  | some index =>
    simp only [Option.bind_eq_bind, Option.bind_some, NodeTree.mapProperties, List.getElem?_map]
    cases tree.nodes[index]? <;> rfl

/-- Links and sockets are not properties. -/
theorem input?_mapProperties (node : NodeId) (key : SocketKey) :
    (d.mapProperties change).input? node key = d.input? node key := by
  unfold input?
  rw [tree?_mapProperties]
  cases d.tree? node.tree with
  | none => rfl
  | some tree =>
    simp only [Option.map_some, Option.bind_eq_bind, Option.bind_some]
    have sources : (tree.mapProperties change).source? node.tree = tree.source? node.tree :=
      funext (source?_mapProperties change tree node.tree)
    rw [sources]
    simp only [NodeTree.mapProperties, List.getElem?_map]
    cases tree.nodes[node.index]? with
    | none => rfl
    | some decl => cases key <;> rfl

end Document

/-! ## Documents without images -/

/-- The name of the image that a node is to show. -/
def NodeDecl.image? (decl : NodeDecl) : Option String :=
  (decl.properties.get? imageProperty).bind Property.asText

/-- The node is an image texture whose image cannot be loaded. -/
def NodeDecl.LosesImage (failing : SortedMap String Unit) (decl : NodeDecl) : Prop :=
  decl.kind = .texImage ∧ ∃ name ∈ decl.image?, failing.contains name = true

instance (failing : SortedMap String Unit) (decl : NodeDecl) : Decidable (decl.LosesImage failing) :=
  inferInstanceAs (Decidable (_ ∧ _))

/-- The document with no image assigned to the textures whose images cannot be loaded. -/
def Document.withoutImages (failing : SortedMap String Unit) (d : Document) : Document :=
  d.mapProperties fun decl =>
    if decl.LosesImage failing then decl.properties.erase imageProperty else decl.properties

namespace Document

variable (failing : SortedMap String Unit) (d : Document)

theorem property?_withoutImages (node : NodeId) {name : String} (other : name ≠ imageProperty) :
    (d.withoutImages failing).property? node name = d.property? node name := by
  unfold property? withoutImages
  rw [node?_mapProperties]
  cases d.node? node with
  | none => rfl
  | some decl =>
    simp only [Option.map_some, Option.bind_eq_bind, Option.bind_some, NodeDecl.withProperties]
    split
    · rw [SortedMap.get?_erase, if_neg]
      exact fun same => other (Std.LawfulEqOrd.eq_of_compare same)
    · rfl

theorem groupTree?_withoutImages (node : NodeId) :
    (d.withoutImages failing).groupTree? node = d.groupTree? node := by
  have groups : (d.withoutImages failing).groupId? = d.groupId? := by
    funext name
    simp [groupId?, withoutImages, mapProperties, List.findIdx?_map, Function.comp_def]
  unfold groupTree?
  rw [property?_withoutImages failing d node (by decide), groups]

/-- An image is missing where it could not be loaded. -/
theorem images_withoutImages (node : NodeId) :
    ImagesAlike (Matching.same failing).pairing
      ((d.property? node imageProperty).bind Property.asText)
      (((d.withoutImages failing).property? node imageProperty).bind Property.asText) := by
  unfold property? withoutImages
  rw [node?_mapProperties]
  cases d.node? node with
  | none => exact .same _
  | some decl =>
    simp only [Option.map_some, Option.bind_eq_bind, Option.bind_some, NodeDecl.withProperties]
    by_cases loses : decl.LosesImage failing
    · obtain ⟨name, image, lost⟩ := loses.2
      have image : (decl.properties.get? imageProperty).bind Property.asText = some name := image
      have erased : (decl.properties.erase imageProperty).get? imageProperty = none := by
        rw [SortedMap.get?_erase, if_pos Std.ReflCmp.compare_self]
      rw [if_pos loses, image, erased]
      exact .missing lost
    · rw [if_neg loses]
      exact .same _

/-- The document without its lost images matches it. -/
theorem withoutImages_matches :
    d.graph.Matches (.same failing) (d.withoutImages failing).graph := by
  have decl := node?_mapProperties
    (fun decl => if decl.LosesImage failing then decl.properties.erase imageProperty else
      decl.properties) d
  have first : ∀ id kind, (d.withoutImages failing).firstOfKind? id kind = d.firstOfKind? id kind := by
    intro id kind
    unfold firstOfKind? withoutImages
    rw [tree?_mapProperties]
    cases d.tree? id with
    | none => rfl
    | some tree => simp [firstOfKind?_mapProperties]
  have keep : ∀ {α : Type} (answer : NodeDecl → α) (missing : α),
      (∀ decl properties, answer (decl.withProperties properties) = answer decl) →
      (fun node => (((d.withoutImages failing).node? node).map answer).getD missing) =
        fun node => ((d.node? node).map answer).getD missing := by
    intro α answer missing same
    funext node
    rw [withoutImages, decl]
    cases d.node? node with
    | none => rfl
    | some decl => exact same decl _
  refine HostGraph.matches_same rfl (first _ _) (keep _ _ fun _ _ => rfl) (keep _ _ fun _ _ => rfl)
    (keep _ _ fun _ _ => rfl) (keep _ _ fun _ _ => rfl) ?_ ?_
    (fun node name other => property?_withoutImages failing d node other)
    (images_withoutImages failing d) (funext (groupTree?_withoutImages failing d))
    (funext fun id => first id _)
  · funext node output
    simp only [graph, outputDefault?, withoutImages, decl]
    cases d.node? node <;> rfl
  · intro node key
    simp only [graph, withoutImages, input?_mapProperties]
    cases d.input? node key with
    | none => exact .none
    | some socket => exact .some ⟨rfl, rfl, rfl, rfl⟩

end Document

/-! ## Textures without their images -/

/-- The node is an image texture whose image cannot be loaded, and is not muted. -/
def HostGraph.LosesImage (g : HostGraph) (failing : SortedMap String Unit) (node : NodeId) : Prop :=
  g.kind node = .texImage ∧ g.muted node = false ∧
    ∃ name ∈ (g.property node imageProperty).bind Property.asText, failing.contains name = true

namespace Walk

variable {g : HostGraph} {visit : NodeId → String → Walk Value} {node : NodeId} {output : String}

/-- What an image is asked for as is found out without a change, but to the log. -/
theorem on_carryOut_imageDescriptor (name : String) (next : ImageDescriptor → Plan Value)
    (σ : WalkState) :
    ∃ log wrap, on (carryOut g visit (Handler.imageDescriptor g node name >>= next)) σ =
      on (carryOut g visit (next ⟨name, wrap⟩)) { σ with log } := by
  unfold Handler.imageDescriptor
  dsimp only
  split <;> split <;> split <;> exact ⟨_, _, rfl⟩

theorem on_carryOut_image_lost {descriptor : ImageDescriptor} {σ : WalkState}
    (lost : σ.recording.failing.contains descriptor.name = true)
    (next : Option ImageHandle → Plan Value) :
    on (carryOut g visit (.image descriptor next)) σ = on (carryOut g visit (next none)) σ := by
  have missing : σ.recording.materialize descriptor = _ := Recording.materialize_failing lost
  simp only [carryOut, on_bind, on_get, on_modify, missing]
  rfl

theorem on_carryOut_texImage_lost {name : String} {σ : WalkState}
    (image : (g.property node imageProperty).bind Property.asText = some name)
    (lost : σ.recording.failing.contains name = true) :
    ∃ log, on (carryOut g visit (Handler.texImage g node output)) σ =
      (.ok (Handler.errorValue output), { σ with log }) := by
  unfold imageProperty at image
  unfold Handler.texImage
  simp only [image]
  obtain ⟨log, wrap, found⟩ := on_carryOut_imageDescriptor (g := g) name _ σ
  rw [found]
  exact ⟨_, (on_carryOut_image_lost lost _).trans rfl⟩

/-- A texture without its image comes to the error color. Whatever its inputs would come to, they are
    not read, and nothing is created. -/
theorem expand_lost {s : Setting} (texture : s.table.get? .texImage = none) {σ : WalkState}
    (lost : s.graph.LosesImage σ.recording.failing node) :
    ∃ log, on (expand s visit node output) σ = (.ok (Handler.errorValue output), { σ with log }) := by
  obtain ⟨kind, unmuted, name, image, failing⟩ := lost
  have passed : bypass? s.graph node = none := by
    rw [bypass?, kind, if_neg (by decide), if_neg (by rw [unmuted]; decide)]
  have task : s.table.task s.graph node output = .plan (Handler.texImage s.graph node output) :=
    task_of_handler (by rw [kind]; exact texture) (by rw [kind]; rfl)
  obtain ⟨log, followed⟩ := on_expand_follow s visit node output σ
  rw [followed, Setting.course, passed]
  dsimp only
  rw [task]
  exact on_carryOut_texImage_lost image failing

variable {s : Setting}

/-- Whenever a texture is lowered without its image, it comes to the error color. -/
theorem events_lost (accepted : ∀ kind rules, s.table.get? kind = some rules → rules.Accepted)
    (texture : s.table.get? .texImage = none) {depth : Nat} {σ : WalkState} {key : Key}
    {result : Except Failure Value} (lost : s.graph.LosesImage σ.recording.failing key.node)
    (told : .lowered key result ∈ events s depth node output σ) :
    result = .ok (Handler.errorValue key.output) := by
  induction depth generalizing node output σ with
  | zero => cases told
  | succ depth ih =>
    have lowering := lowering s depth node output σ
    generalize on (lower s (depth + 1) node output) σ = run, events s (depth + 1) node output σ = told'
      at lowering told
    cases lowering with
    | known | waiting => cases told
    | @new own result' σ' same _ _ ran =>
      rcases List.mem_cons.1 told with here | inside
      · obtain ⟨this, rfl⟩ := Event.lowered.inj here
        rw [this, ← same] at lost ⊢
        obtain ⟨log, found⟩ : ∃ log, on (expand s (lower s depth) node output)
            { σ with active := own :: σ.active } = (.ok (Handler.errorValue output), { σ with
              active := own :: σ.active, log }) := expand_lost texture lost
        exact congrArg Prod.fst (ran.symm.trans found)
      · obtain ⟨source, other, τ, asked, told⟩ := Moment.exists_of_lowered inside
        obtain ⟨_, _, evolves⟩ :=
          (expansion accepted node output _).evolves (lower_evolves s depth) asked
        exact ih (evolves.recording.failing.symm ▸ lost) told

end Walk

/-- Whatever was asked, and whenever a texture was lowered without its image, it came to the error
    color. -/
theorem Lived.lost {s : Setting} {σ : WalkState} {events : List Event} (lived : Lived s σ events)
    (accepted : ∀ kind rules, s.table.get? kind = some rules → rules.Accepted)
    (texture : s.table.get? .texImage = none) {key : Key} {result : Except Failure Value}
    (lost : s.graph.LosesImage σ.recording.failing key.node) (told : .lowered key result ∈ events) :
    result = .ok (Handler.errorValue key.output) := by
  induction lived with
  | start => cases told
  | recorded _ hr ih => exact ih (hr.failing ▸ lost) told
  | @ask σ events lived question ih =>
    have same := (Walk.ask_evolves s question σ).recording.failing
    rw [same] at lost
    rcases List.mem_append.1 told with told | told
    · rw [question.events_eq] at told
      obtain ⟨source, other, τ, asked, told⟩ := Moment.exists_of_lowered told
      obtain ⟨asks, own⟩ := question.plan_local s.graph
      have evolves := (Plan.moments_evolve own (Walk.lower_evolves s s.depth) σ asked).1
      exact Walk.events_lost accepted texture (evolves.recording.failing.symm ▸ lost) told
    · exact ih lost told

/-- Texts that begin with other letters are not the same. -/
theorem append_ne_append {p q : String} (hp : 2 ≤ p.toList.length) (hq : 2 ≤ q.toList.length)
    (h : p.toList.take 2 ≠ q.toList.take 2) (x y : String) : p ++ x ≠ q ++ y := by
  intro same
  have first := congrArg (fun text : String => text.toList.take 2) same
  simp only [String.toList_append, List.take_append_of_le_length hp,
    List.take_append_of_le_length hq] at first
  exact h first

/-- A failure is not that an image could not be loaded. -/
theorem Failure.message_ne_image (failure : Failure) (label : String) :
    failure.message ≠ "image for node '" ++ label ++ "' failed to load" := by
  unfold message
  cases failure <;> dsimp only <;> repeat rw [String.append_assoc]
  all_goals exact append_ne_append (by decide) (by decide) (by decide) _ _

/-! ## Documents -/

namespace Document

/-- In every state between questions, a texture without its image comes to the error color, and adds
    nothing to the recording. -/
theorem output_lost (d : Document) {σ : WalkState} {events : List Event}
    (lived : Lived (d.setting .builtin) σ events) {node : NodeId}
    (lost : d.graph.LosesImage σ.recording.failing node) (output : String) :
    (on (Walk.output (d.setting .builtin) node output) σ).1 = .ok (Handler.errorValue output) ∧
      (on (Walk.output (d.setting .builtin) node output) σ).2.recording = σ.recording := by
  have regular : (d.setting .builtin).Regular fun _ => False :=
    d.setting_regular RuleTable.builtin_check fun _ _ _ _ _ _ _ _ no => no.elim
  have texture : (d.setting .builtin).table.get? .texImage = none := builtin_get?_eq_none (by decide)
  obtain ⟨failing, chronicle⟩ := lived.chronicle regular (d.unstopped RuleTable.builtin_check)
  obtain ⟨-, active⟩ := (reached_iff_lived.2 ⟨_, lived⟩).idle
  obtain ⟨depth, hd⟩ : ∃ n, d.walkDepth = n + 1 :=
    ⟨d.walkDepth - 1, by have := length_keysBelow_lt (d := d) node output; omega⟩
  show (on (Walk.lower _ d.walkDepth node output) σ).1 = _ ∧
    (on (Walk.lower _ d.walkDepth node output) σ).2.recording = _
  rw [hd]
  have lowering := Walk.lowering (d.setting .builtin) depth node output σ
  generalize on (Walk.lower (d.setting .builtin) (depth + 1) node output) σ = run, Walk.events _ _ _ _ _
    = told at lowering ⊢
  cases lowering with
  | @known value known =>
    have told : _ ∈ events.filterMap Event.output? :=
      chronicle.outputs ▸ Memo.mem_entries_of_get? known
    refine ⟨lived.lost regular.rules texture ?_ (Event.mem_output?.1 told), rfl⟩
    exact lost
  | waiting _ waits =>
    rw [active] at waits
    cases waits
  | @new key result σ' _ _ _ ran =>
    obtain ⟨log, found⟩ : ∃ log, on (Walk.expand (d.setting .builtin) (Walk.lower _ depth) node output)
        { σ with active := key :: σ.active } = (.ok (Handler.errorValue output), { σ with
          active := key :: σ.active, log }) := Walk.expand_lost texture lost
    obtain ⟨rfl, rfl⟩ := Prod.mk.inj (ran.symm.trans found)
    exact ⟨rfl, rfl⟩

/-- Images that cannot be loaded are isolated to their textures: a document is lowered by the built-in
    rules as it is with these images not assigned, to the same root or the same failure and to the same
    native nodes, images and roots; and so is each of its outputs. A texture without its image is the
    error color wherever it is used; its inputs are not read, and nothing is created for it. No failure
    is about an image. -/
theorem lower_withoutImages (d : Document) (r : Recording) :
    let s := d.setting .builtin
    let s' := (d.withoutImages r.failing).setting .builtin
    s.Indistinct s' r ∧
    (∀ node output,
      (on (Walk.output s' node output) (.start r)).1 = (on (Walk.output s node output) (.start r)).1 ∧
      (on (Walk.output s' node output) (.start r)).2.recording =
        (on (Walk.output s node output) (.start r)).2.recording) ∧
    (∀ node, d.graph.LosesImage r.failing node →
      (∀ visit output (σ : WalkState), σ.recording.failing = r.failing →
        ∃ log, on (Walk.expand s visit node output) σ =
          (.ok (Handler.errorValue output), { σ with log })) ∧
      ∀ σ events, Lived s σ events → σ.recording.failing = r.failing →
        (∀ key result, .lowered key result ∈ events → key.node = node →
          result = .ok (Handler.errorValue key.output)) ∧
        ∀ output, (on (Walk.output s node output) σ).1 = .ok (Handler.errorValue output) ∧
          (on (Walk.output s node output) σ).2.recording = σ.recording) ∧
    ∀ node output failure label, (on (Walk.output s node output) (.start r)).1 = .error failure →
      failure.message ≠ "image for node '" ++ label ++ "' failed to load" := by
  intro s s'
  have found := withoutImages_matches r.failing d
  have checked := RuleTable.builtin_check
  have texture : s.table.get? .texImage = none := builtin_get?_eq_none (by decide)
  have regular : s.Regular fun _ => False :=
    d.setting_regular checked fun _ _ _ _ _ _ _ _ no => no.elim
  obtain ⟨indistinct, outputs⟩ := found.indistinct checked
  refine ⟨indistinct, outputs, fun node lost => ⟨?_, ?_⟩,
    fun _ _ failure label _ => failure.message_ne_image label⟩
  · intro visit output σ same
    exact Walk.expand_lost texture (same.symm ▸ lost)
  · intro σ events lived same
    refine ⟨fun key result told here => ?_, fun output => d.output_lost lived (same.symm ▸ lost) output⟩
    subst here
    exact lived.lost regular.rules texture (same.symm ▸ lost) told

/-- A texture whose image is lost, and whose coordinates are not supported. -/
def faded : Document where
  name := "faded"
  tree :=
    { nodes :=
        [⟨"output", .outputMaterial, [⟨"Surface", none, true⟩], [], .ofList [], false⟩,
          ⟨"surface", .bsdfTransparent, [⟨"Color", none, false⟩], [⟨"BSDF", none, true⟩], .ofList [],
            false⟩,
          ⟨"texture", .texImage, [⟨"Vector", none, false⟩], [⟨"Color", none, false⟩],
            .ofList [("image", .text "lost.png")], false⟩,
          ⟨"noise", .unknown "Noise", [], [⟨"Vector", none, false⟩], .ofList [], false⟩]
      links :=
        [⟨"surface", "BSDF", "output", .name "Surface", false⟩,
          ⟨"texture", "Color", "surface", .name "Color", false⟩,
          ⟨"noise", "Vector", "texture", .name "Vector", false⟩] }
  groups := []

/-- The material is lowered although the coordinates could not be, and the texture is magenta. -/
theorem lower_withoutImages_faded :
    let r := Recording.empty.withFailingImage "lost.png"
    let s := faded.setting .builtin
    faded.graph.LosesImage r.failing ⟨.material, 2⟩ ∧
      s.Indistinct ((faded.withoutImages r.failing).setting .builtin) r ∧
      (on (Walk.output s ⟨.material, 2⟩ "Color") (.start r)).1 = .ok (.constant errorColor) := by
  have lost : faded.graph.LosesImage (Recording.empty.withFailingImage "lost.png").failing
      ⟨.material, 2⟩ := ⟨rfl, rfl, "lost.png", rfl, by decide +kernel⟩
  obtain ⟨same, -, textures, -⟩ :=
    faded.lower_withoutImages (Recording.empty.withFailingImage "lost.png")
  exact ⟨lost, same, (((textures _ lost).2 _ _ (.start _) rfl).2 "Color").1⟩

end Document

end MaterialLowering
