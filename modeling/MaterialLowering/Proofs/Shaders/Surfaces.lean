import MaterialLowering.Proofs.Shaders.SurfacePlans

/-!
# The surface of a material is a shader

By the built-in rules every output suits a surface. So the root of a material is a shader if shaders are
declared as such, unless it was handed on from an output that is none, unchanged, past a reroute, a muted
node or the border of a group. A material with a link of its own that leads straight from anything else
to its surface fails, and is given a plain shader in its place.

Main definitions:
* `Document.ShaderTyped`: the outputs and inputs of a document are declared as they should.

Results:
* `keeps_surfacePromise`: by the built-in rules outputs suit a surface.
* `Document.surface_isShader`: the root of a material.
* `Document.surface_isShader_rerouted`: through a reroute a texture is handed on as a surface.
-/

namespace MaterialLowering

open Walk (on)

/-! ## The built-in rules -/

/-- The sub-node of every output of a shader is a shader, but for inner ones. -/
theorem RuleTable.builtin_outputs : ∀ entry ∈ RuleTable.builtin.entries,
    entry.1.isPassage = false ∧ entry.1.shaderInputs = [] ∧ (entry.1.isShader = true →
      ∀ rule ∈ entry.2.entries, rule.2.type.isShader = true ∨ rule.1 ∈ entry.1.innerOutputs) := by
  decide +kernel

/-- All other shaders have an entry. -/
theorem RuleTable.builtin_shaders {kind : HostKind} (h : RuleTable.builtin.get? kind = none)
    (shader : kind.isShader = true) : kind = .mixShader ∨ kind = .addShader := by
  cases kind <;> first
    | exact .inl rfl
    | exact .inr rfl
    | exact absurd h (by decide +kernel)
    | cases shader

/-! ## Settings -/

section

variable {g : HostGraph} {depth : Nat} {node : NodeId} {output : String} {scope : List NodeId}
  {st : Stock}

/-- A node that is not passed by. -/
theorem unmuted_of_bypass?_eq_none (h : bypass? g node = none) :
    g.kind node ≠ .reroute ∧ g.muted node = false := by
  unfold bypass? at h
  split at h
  · cases h
  · rename_i reroute
    exact ⟨reroute, by simpa using h⟩

theorem typed_of_bypass?_eq_none (h : bypass? g node = none)
    (passage : (g.kind node).isPassage = false) :
    ¬ g.Untyped node := by
  rw [HostGraph.Untyped, passage, (unmuted_of_bypass?_eq_none h).2]
  simp

/-- The plan of an output that is neither passed by nor at the border of a group. -/
theorem task_suits {plan : Plan Value} (h : RuleTable.builtin.task g node output = .plan plan)
    (typed : ¬ g.Untyped node) :
    plan.Suited g ⟨node, output, scope, g.material⟩ st := by
  cases hr : RuleTable.builtin.get? (g.kind node) with
  | some rules =>
    obtain ⟨-, none, outputs⟩ :=
      RuleTable.builtin_outputs _ (SortedMap.mem_entries_of_get? hr)
    rw [task_of_rules hr] at h
    cases h
    have accepted : ¬ g.Refused ⟨node, output, scope, g.material⟩ :=
      HostGraph.not_refused_of_typed typed none
    refine @RuleSite.plan_suits ⟨g, g.kind node, rules, node, output⟩ scope st accepted ?_
    intro rule hrule
    by_cases shader : (g.kind node).isShader = true
    · refine (outputs shader _ (SortedMap.mem_entries_of_get? hrule)).imp id fun inner => ?_
      exact .inr ⟨typed, inner⟩
    · refine .inr (.inl ⟨typed, by simpa using shader, fun kind => ?_⟩)
      rw [show g.kind node = .outputMaterial from kind] at none
      cases none
  | none =>
    by_cases materialOutput : g.kind node = .outputMaterial
    · rw [task_of_handler hr (by rw [materialOutput]; rfl)] at h
      cases h
      exact Handler.materialOutput_suits typed materialOutput
    by_cases shader : (g.kind node).isShader = true
    · rcases RuleTable.builtin_shaders hr shader with kind | kind
      · rw [task_of_handler hr (by rw [kind]; rfl)] at h
        cases h
        exact Handler.mixShader_suits typed kind
      · rw [task_of_handler hr (by rw [kind]; rfl)] at h
        cases h
        exact Handler.addShader_suits typed kind
    · have notShader : (g.kind node).isShader = false := by simpa using shader
      have none : (g.kind node).shaderInputs = [] := by
        generalize g.kind node = kind at materialOutput notShader
        cases kind <;> first | rfl | exact absurd rfl materialOutput | cases notShader
      rcases task_local_cases h with ⟨rules, found, -⟩ | ⟨-, own⟩
      · rw [hr] at found
        cases found
      · exact (own _).ensures fun _ _ _ => .of_stray (HostGraph.not_refused_of_typed typed none)
          (.inl ⟨typed, notShader, materialOutput⟩)

theorem course_suits {plan : Plan Value}
    (h : Setting.course ⟨g, .builtin, depth⟩ node output = .plan plan) :
    plan.Suited g ⟨node, output, scope, g.material⟩ st := by
  unfold Setting.course at h
  cases hb : bypass? g node with
  | some other =>
    rw [hb] at h
    cases h
    exact bypass?_suits hb
  | none =>
    rw [hb] at h
    cases passage : (g.kind node).isPassage with
    | false => exact task_suits h (typed_of_bypass?_eq_none hb passage)
    | true =>
      have kinds := unmuted_of_bypass?_eq_none hb
      generalize hk : g.kind node = kind at passage kinds
      cases kind with
      | reroute => exact absurd rfl kinds.1
      | group =>
        have task : RuleTable.builtin.task g node output = .call :=
          task_of_boundary (builtin_get?_eq_none (by decide)) rfl rfl hk
        cases task.symm.trans h
      | groupInput =>
        have task : RuleTable.builtin.task g node output = .formal :=
          task_of_boundary (builtin_get?_eq_none (by decide)) rfl rfl hk
        cases task.symm.trans h
      | groupOutput =>
        have task : RuleTable.builtin.task g node output = .plan (Plan.input g node (.name output)) :=
          task_of_boundary (builtin_get?_eq_none (by decide)) rfl rfl hk
        cases task.symm.trans h
        exact groupOutput_suits kinds.2 hk
      | _ => cases passage

/-- A call hands on what the output node of the group comes to. -/
theorem Suits.of_call {tree : TreeId} {inner : NodeId} {v : Value} (unmuted : g.muted node = false)
    (kind : g.kind node = .group) (calls : g.groupTree node = some tree)
    (ho : g.groupOutput tree = some inner)
    (h : Suits g st ⟨inner, output, node :: scope, g.material⟩ v)
    (there : (⟨inner, output, node :: scope, g.material⟩, v) ∈ st.outputs) :
    Suits g st ⟨node, output, scope, g.material⟩ v := by
  have nothing : ∀ reader input scope', ¬ g.Draws ⟨node, output, scope, g.material⟩ reader input
      scope' := by
    intro reader input scope' draws
    obtain ⟨-, -, draws⟩ := draws.eq_own (.inr (by simp [kind]))
    simp [HostGraph.draws, kind, unmuted, HostKind.shaderInputs] at draws
  refine ⟨HostGraph.not_refused (fun _ _ _ h => absurd h (nothing _ _ _)) fun other drawsOn => ?_,
    fun handle hv => ?_⟩
  · cases drawsOn with
    | link draws => exact absurd draws (nothing _ _ _)
    | call _ _ calls' ho' =>
      obtain rfl := Option.some.inj (calls.symm.trans calls')
      obtain rfl := Option.some.inj (ho.symm.trans ho')
      exact h.accepted
  · subst hv
    exact (h.shader handle rfl).imp id (.of_drawsOn (.call unmuted kind calls ho) there)

/-- A formal input hands on the argument of the innermost call. -/
theorem Suits.of_argument {callSite : NodeId} {around : List NodeId} {v : Value}
    (unmuted : g.muted node = false) (kind : g.kind node = .groupInput)
    (call : g.callOf? node.tree scope = some (callSite, around))
    (h : Received g st callSite (.name output) around v) :
    Suits g st ⟨node, output, scope, g.material⟩ v := by
  refine .of_received (.inr (by simp [kind])) (fun reader input scope' draws => ?_) fun _ _ =>
    .inr ⟨_, _, _, .argument unmuted kind call, h⟩
  cases draws with
  | own draws => simp [HostGraph.draws, kind, unmuted, HostKind.shaderInputs] at draws
  | argument _ _ call' =>
    cases call.symm.trans call'
    exact ⟨v, h⟩

/-- What is not planned is to be done for a node that is not muted. -/
theorem unmuted_of_course {task : Task} (h : Setting.course ⟨g, .builtin, depth⟩ node output = task)
    (unplanned : ∀ plan, task ≠ .plan plan) :
    g.muted node = false ∧ RuleTable.builtin.task g node output = task := by
  unfold Setting.course at h
  cases hb : bypass? g node with
  | some plan =>
    rw [hb] at h
    exact absurd h.symm (unplanned plan)
  | none =>
    rw [hb] at h
    exact ⟨(unmuted_of_bypass?_eq_none hb).2, h⟩

/-- By the built-in rules outputs keep the promise that they suit a surface. -/
theorem keeps_surfacePromise (g : HostGraph) (depth : Nat) :
    Setting.Keeps ⟨g, .builtin, depth⟩ g.surfacePromise where
  plan course scope st := course_suits course
  call course calls ho _ _ _ h there := by
    obtain ⟨unmuted, task⟩ := unmuted_of_course course fun _ => nofun
    exact Suits.of_call unmuted (kind_of_task_call task) calls ho h there
  argument callSite formal around st := by
    unfold Walk.argument
    split
    · exact (Plan.input_received _).weaken fun _ _ _ received => received.or
    · trivial
  formal course _ _ _ call _ _ h := by
    obtain ⟨unmuted, task⟩ := unmuted_of_course course fun _ => nofun
    exact Suits.of_argument unmuted (kind_of_task_formal task) call h

end

/-! ## Materials -/

/-- The surface of a material that came to a node suits, and is known to have come to it. -/
theorem Reached.root_suits {g : HostGraph} {depth : Nat} {σ σ' : WalkState} {output : NodeId}
    {root : NodeHandle} (reached : Reached ⟨g, .builtin, depth⟩ σ) (ho : g.outputNode = some output)
    (h : on (Walk.root ⟨g, .builtin, depth⟩) σ = (.ok root, σ')) :
    Suits g σ'.stock ⟨output, Walk.surface, [], g.material⟩ (.node root) ∧
      σ'.stock.Carries root ⟨output, Walk.surface, [], g.material⟩ := by
  have keeps := keeps_surfacePromise g depth
  have lowered := Walk.lower_keeps keeps depth output Walk.surface σ (reached.kept keeps)
  rw [WalkState.scope, reached.idle.1] at lowered
  unfold Walk.root at h
  simp only [ho, Walk.on_bind, Walk.output] at h
  generalize on (Walk.lower ⟨g, .builtin, depth⟩ depth output Walk.surface) σ = run at h lowered
  obtain ⟨failure | value, after⟩ := run
  · cases h
  · cases value with
    | node handle =>
      cases h
      exact lowered.result _ rfl
    | constant | image | unset => cases h

/-- The material failed and got a plain shader in its place. -/
def Lowered.FellBack (lowered : Lowered) (material : String) (showErrors : Bool) : Prop :=
  (∃ failure, .failed material failure ∈ lowered.log) ∧ .fallingBack ∈ lowered.log ∧
    lowered.recording.node? lowered.root = some (if showErrors
      then .withParams .emissive [("color", .constant errorColor)]
      else .withParams .diffuse [("color", .constant fallbackColor)])

theorem Setting.lower_fellBack {s : Setting} {r : Recording} {failure : Failure}
    (h : (on (Walk.root s) (.start r)).1 = .error failure) (showErrors : Bool) :
    (s.lower showErrors r).FellBack s.graph.material showErrors := by
  unfold Setting.lower Lowered.FellBack
  unfold Walk.on at h
  generalize (Walk.root s).run (.start r) = run at h
  obtain ⟨result, σ⟩ := run
  obtain rfl : result = .error failure := h
  refine ⟨⟨failure, by simp⟩, by simp, ?_⟩
  cases showErrors <;> exact Array.getElem?_push_size

/-! ## Documents -/

/-- No output is declared a shader that is none, unless it is handed on, and every input that a shader
    is read from is declared for one. -/
def NodeDecl.ShaderTyped (node : NodeDecl) : Prop :=
  (node.kind.isPassage = false → ∀ output ∈ node.outputs, output.shader = true →
    node.kind.isShader = true) ∧
  ∀ key ∈ node.kind.shaderInputs, ∀ index ∈ node.inputIndex? key, ∀ socket ∈ node.inputs[index]?,
    socket.shader = true

instance (node : NodeDecl) : Decidable node.ShaderTyped := inferInstanceAs (Decidable (_ ∧ _))

/-- Shaders are declared as such. -/
def Document.ShaderTyped (d : Document) : Prop :=
  ∀ tree ∈ d.trees, ∀ node ∈ tree.nodes, node.ShaderTyped

instance (d : Document) : Decidable d.ShaderTyped :=
  inferInstanceAs (Decidable (∀ tree ∈ d.trees, ∀ node ∈ tree.nodes, node.ShaderTyped))

namespace Document

variable {d : Document}

theorem shaderTyped_of_node? (typed : d.ShaderTyped) {node : NodeId} {decl : NodeDecl}
    (h : d.node? node = some decl) : decl.ShaderTyped := by
  obtain ⟨tree, htree, hdecl⟩ := Option.bind_eq_some_iff.1 h
  rw [tree?_eq_getElem?] at htree
  exact typed tree (List.mem_of_getElem? htree) decl (List.mem_of_getElem? hdecl)

theorem kind_of_node? {node : NodeId} {decl : NodeDecl} (h : d.node? node = some decl) :
    d.graph.kind node = decl.kind := by
  simp only [graph, h, Option.map_some, Option.getD_some]

/-- Where an input and its link are declared. -/
theorem exists_decl_of_input {node : NodeId} {key : SocketKey} {socket : Socket}
    (h : d.graph.input node key = some socket) :
    ∃ decl index input, d.node? node = some decl ∧ decl.inputIndex? key = some index ∧
      decl.inputs[index]? = some input ∧ socket.shader = input.shader ∧
      ∀ link, socket.visibleLink = some link → ∃ source, d.node? link.node = some source ∧
        (link.shader = true → ∃ output ∈ source.outputs, output.shader = true) := by
  simp only [graph, input?, Option.bind_eq_bind, Option.bind_eq_some_iff, Option.pure_def,
    Option.some.injEq] at h
  obtain ⟨tree, htree, decl, hdecl, index, hindex, input, hinput, rfl⟩ := h
  refine ⟨decl, index, input, Option.bind_eq_some_iff.2 ⟨tree, htree, hdecl⟩, hindex, hinput, rfl,
    fun link hl => ?_⟩
  obtain ⟨linkDecl, -, hsource⟩ := Option.bind_eq_some_iff.1 (Option.filter_eq_some_iff.1 hl).1
  simp only [NodeTree.source?, Option.bind_eq_bind, Option.bind_eq_some_iff, Option.pure_def,
    Option.some.injEq] at hsource
  obtain ⟨place, -, source, hplace, rfl⟩ := hsource
  refine ⟨source, Option.bind_eq_some_iff.2 ⟨tree, htree, hplace⟩, fun shader => ?_⟩
  cases found : source.outputs.find? fun output => output.name = linkDecl.fromSocket with
  | none => simp [found] at shader
  | some output => exact ⟨output, List.mem_of_find?_eq_some found, by simpa [found] using shader⟩

theorem graph_shaderTyped (typed : d.ShaderTyped) : d.graph.ShaderTyped where
  source hinput hl shader passage := by
    obtain ⟨-, -, -, -, -, -, -, links⟩ := exists_decl_of_input hinput
    obtain ⟨source, hsource, outputs⟩ := links _ hl
    obtain ⟨output, ho, declared⟩ := outputs shader
    rw [kind_of_node? hsource] at passage ⊢
    exact (shaderTyped_of_node? typed hsource).1 passage output ho declared
  input hkey hinput := by
    obtain ⟨decl, index, input, hdecl, hindex, hi, shader, -⟩ := exists_decl_of_input hinput
    rw [kind_of_node? hdecl] at hkey
    rw [shader]
    exact (shaderTyped_of_node? typed hdecl).2 _ hkey index hindex input hi

/-- A texture that is linked to the surface, straight or through a node in between: into the first input
    of that node, and from its output of a name. A group is there for it to call. -/
def textured (between : Option (NodeDecl × String)) : Document where
  name := "textured"
  tree :=
    { nodes :=
        [⟨"output", .outputMaterial, [⟨"Surface", none, true⟩], [], .ofList [], false⟩,
          ⟨"wood", .texImage, [⟨"Vector", none, false⟩], [⟨"Color", none, false⟩],
            .ofList [("image", .text "wood.png")], false⟩] ++ (between.map Prod.fst).toList
      links :=
        match between with
        | none => [⟨"wood", "Color", "output", .name "Surface", false⟩]
        | some (node, output) =>
          [⟨"wood", "Color", node.name, .index 0, false⟩,
            ⟨node.name, output, "output", .name "Surface", false⟩] }
  groups :=
    [⟨"id",
      { nodes :=
          [⟨"in", .groupInput, [], [⟨"Shader", none, false⟩], .ofList [], false⟩,
            ⟨"out", .groupOutput, [⟨"Shader", none, false⟩], [], .ofList [], false⟩]
        links := [⟨"in", "Shader", "out", .name "Shader", false⟩] }⟩]

/-- A reroute. -/
def passage : NodeDecl :=
  ⟨"passage", .reroute, [⟨"Input", none, false⟩], [⟨"Output", none, false⟩], .ofList [], false⟩

-- So it is past a muted node, past the border of a group, and with an inner sub-node.
example : ∀ between ∈ ([
      (⟨"mix", .mixShader, [⟨"Fac", none, false⟩, ⟨"Shader", none, true⟩, ⟨"Shader", none, true⟩],
        [⟨"Shader", none, true⟩], .ofList [], true⟩, "Shader"),
      (⟨"call", .group, [⟨"Shader", none, false⟩], [⟨"Shader", none, true⟩],
        .ofList [(groupProperty, .text "id")], false⟩, "Shader"),
      (⟨"glow", .emission, [⟨"Color", none, false⟩, ⟨"Strength", none, false⟩],
        [⟨"emission_color", none, true⟩], .ofList [], false⟩, "emission_color")] :
          List (NodeDecl × String)),
    (textured (some between)).ShaderTyped ∧
      let run := on (Walk.root ((textured (some between)).setting .builtin)) (.start .empty)
      (run.1.toOption.bind run.2.recording.node?).map (·.kind.isShader) = some false := by
  decide +kernel

end Document

end MaterialLowering
