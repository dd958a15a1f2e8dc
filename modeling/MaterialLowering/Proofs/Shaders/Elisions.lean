import MaterialLowering.Proofs.Documents.Redirections
import MaterialLowering.Proofs.Documents.Reroutes
import MaterialLowering.Proofs.Shaders.MixedShaders

/-!
# Mix shaders may be left out

Where one branch of a mix shader decides in every call context in which the mix shader is reached, the
links that leave it may as well leave what the branch comes from: the material comes to the same tree.
The other branch is still lowered by the mix shader as long as it is asked for, but nothing hangs on it.

Main definitions:
* `NodeTree.Mix`: a mix shader of a tree.
* `NodeTree.Mix.Elision`: a branch of a mix shader, and the links that may go past it.

Results:
* `Document.redirects_elided`: the graphs of the two documents.
* `Document.mixShader_elided`: a mix shader of which one branch decides may be left out, and any other
  one blends.
-/

namespace MaterialLowering

open HostGraph (SocketsAlike)
open Walk (on)

/-! ## Trees -/

/-- A mix shader of a tree. -/
structure NodeTree.Mix (tree : NodeTree) where
  place : Nat
  node : NodeDecl
  there : tree.nodes[place]? = some node
  kind : node.kind = .mixShader
  unmuted : node.mute = false

/-- A branch of a mix shader, the link into it, and an output of the mix shader. The output and the
    socket of the branch carry a shader both or none of them. -/
structure NodeTree.Mix.Elision {tree : NodeTree} (μ : tree.Mix) where
  branch : Branch
  link : LinkDecl
  leads : tree.linkInto? μ.node branch.place = some link
  /-- The node that the link comes from, and its place. -/
  source : NodeDecl
  origin : Nat
  first : tree.nodeIndex? link.fromNode = some origin
  there : tree.nodes[origin]? = some source
  /-- The output that other links leave. -/
  output : String
  agree : ∀ socket ∈ μ.node.inputs[branch.place]?, socket.shader = μ.node.carriesShader output

namespace NodeTree.Mix.Elision

variable {tree : NodeTree} {μ : tree.Mix} (ε : μ.Elision)

/-- A link that leaves the output, where it leaves what the branch comes from. -/
def redirected (link : LinkDecl) : LinkDecl :=
  if tree.nodeIndex? link.fromNode = some μ.place ∧ link.fromSocket = ε.output then
    { link with fromNode := ε.link.fromNode, fromSocket := ε.link.fromSocket }
  else link

/-- The tree in which all links that left the output leave what the branch comes from. -/
def result : NodeTree := { tree with links := tree.links.map ε.redirected }

/-- What stands for an output: what the branch comes from stands for the output. -/
def stand (id : TreeId) (node : NodeId) (output : String) : NodeId × String :=
  if node = ⟨id, μ.place⟩ ∧ output = ε.output then (⟨id, ε.origin⟩, ε.link.fromSocket)
  else (node, output)

/-- The link into the branch is one of equals, or not checked. -/
def Fits : Prop :=
  ε.source.kind.isTypeless = true ∨
    ε.source.carriesShader ε.link.fromSocket = μ.node.carriesShader ε.output

/-- The output, if nothing comes to the link into the branch. -/
def Unasked (id : TreeId) (node : NodeId) (output : String) : Prop :=
  (node = ⟨id, μ.place⟩ ∧ output = ε.output) ∧ ¬ ε.Fits

/-- Where a link comes from in the end. -/
def lead (id : TreeId) (link : LinkSource) : LinkSource :=
  if link.node = ⟨id, μ.place⟩ ∧ link.output = ε.output then
    ⟨⟨id, ε.origin⟩, ε.link.fromSocket, ε.source.carriesShader ε.link.fromSocket, link.hidden⟩
  else link

theorem lead_output (id : TreeId) (link : LinkSource) :
    ε.stand id link.node link.output = ((ε.lead id link).node, (ε.lead id link).output) := by
  unfold stand lead
  split <;> rfl

@[simp] theorem hidden_lead (id : TreeId) (link : LinkSource) : (ε.lead id link).hidden = link.hidden := by
  unfold lead
  split <;> rfl

theorem stand_stand (id : TreeId) (node : NodeId) (output : String) :
    ε.stand id (ε.stand id node output).1 (ε.stand id node output).2 = ε.stand id node output := by
  unfold stand
  split
  · split <;> rfl
  · rfl

theorem stand_of_ne {id : TreeId} {node : NodeId} (other : node ≠ ⟨id, μ.place⟩) (output : String) :
    ε.stand id node output = (node, output) := if_neg fun same => other same.1

/-! ### Links -/

theorem linkInto?_result (node : NodeDecl) (index : Nat) :
    ε.result.linkInto? node index = (tree.linkInto? node index).map ε.redirected := by
  have leads : ∀ link : LinkDecl, (ε.redirected link).leadsTo node index = link.leadsTo node index := by
    intro link
    unfold redirected
    split <;> rfl
  unfold linkInto? result
  rw [List.find?_map]
  simp only [Function.comp_def, leads]

theorem source?_link (id : TreeId) : tree.source? id ε.link =
    some ⟨⟨id, ε.origin⟩, ε.link.fromSocket, ε.source.carriesShader ε.link.fromSocket, ε.link.hidden⟩ := by
  simp [source?, ε.first, ε.there, NodeDecl.carriesShader]

theorem source?_result (id : TreeId) (link : LinkDecl) :
    ε.result.source? id (ε.redirected link) = (tree.source? id link).map (ε.lead id) := by
  by_cases leaves : tree.nodeIndex? link.fromNode = some μ.place ∧ link.fromSocket = ε.output
  · have before : tree.source? id link =
        some ⟨⟨id, μ.place⟩, ε.output, μ.node.carriesShader ε.output, link.hidden⟩ := by
      simp [source?, leaves, μ.there, NodeDecl.carriesShader]
    have after : ε.result.source? id (ε.redirected link) =
        some ⟨⟨id, ε.origin⟩, ε.link.fromSocket, ε.source.carriesShader ε.link.fromSocket,
          link.hidden⟩ := by
      have first : ε.result.nodeIndex? ε.link.fromNode = some ε.origin := ε.first
      have there : ε.result.nodes[ε.origin]? = some ε.source := ε.there
      simp [source?, redirected, leaves, first, there, NodeDecl.carriesShader]
    rw [before, after, Option.map_some, lead, if_pos ⟨rfl, rfl⟩]
  · rw [redirected, if_neg leaves]
    show tree.source? id link = _
    cases hs : tree.source? id link with
    | none => rfl
    | some source =>
      simp only [source?, Option.bind_eq_bind, Option.bind_eq_some_iff, Option.pure_def,
        Option.some.injEq] at hs
      obtain ⟨index, hi, decl, -, rfl⟩ := hs
      refine congrArg some (if_neg ?_).symm
      rintro ⟨same, output⟩
      cases same
      exact leaves ⟨hi, output⟩

end NodeTree.Mix.Elision

/-! ## Documents -/

namespace Document

variable {d : Document}

/-- A link carries a shader if the output does that it comes from. -/
theorem shader_of_input? {node : NodeId} {key : SocketKey} {socket : Socket} {link : LinkSource}
    (input : d.input? node key = some socket) (linked : socket.link = some link) :
    link.node.tree = node.tree ∧
      ∃ decl, d.node? link.node = some decl ∧ link.shader = decl.carriesShader link.output := by
  simp only [input?, Option.bind_eq_bind, Option.bind_eq_some_iff, Option.pure_def,
    Option.some.injEq] at input
  obtain ⟨tree, found, decl, -, index, -, socketDecl, -, rfl⟩ := input
  obtain ⟨linkDecl, -, source⟩ := Option.bind_eq_some_iff.1 linked
  simp only [NodeTree.source?, Option.bind_eq_bind, Option.bind_eq_some_iff, Option.pure_def,
    Option.some.injEq] at source
  obtain ⟨place, -, from', there, rfl⟩ := source
  refine ⟨rfl, from', ?_, rfl⟩
  simp [node?, found, there]

/-- Inside given calls, the branch comes to a value by its link. -/
structure Brings (d : Document) (id : TreeId) {tree : NodeTree} {μ : tree.Mix} (ε : μ.Elision)
    (known : Findings) (scope : List NodeId) (value : Value) : Prop where
  input : ∃ socket, d.input? ⟨id, μ.place⟩ (.index ε.branch.place) = some socket
  shown : ε.link.hidden = false
  came : known.inside d.graph scope ⟨id, ε.origin⟩ ε.link.fromSocket = some value

/-- In the cache, the mix shader came to what its branch comes to, wherever it was reached. -/
structure Passes (d : Document) (id : TreeId) {tree : NodeTree} {μ : tree.Mix} (ε : μ.Elision)
    (entries : List (Key × Value)) : Prop where
  cover : (Findings.ofEntries entries).Cover entries
  brings : ∀ e ∈ entries, e.1.node = ⟨id, μ.place⟩ →
    d.Brings id ε (.ofEntries entries) e.1.scope e.2

section

variable {id : TreeId} {tree : NodeTree} (found : d.tree? id = some tree) {μ : tree.Mix}

include found

theorem node?_mix : d.node? ⟨id, μ.place⟩ = some μ.node := by
  simp [node?, found, μ.there]

theorem kind_mix : d.graph.kind ⟨id, μ.place⟩ = .mixShader := by
  simp [graph, node?_mix found, μ.kind]

theorem muted_mix : d.graph.muted ⟨id, μ.place⟩ = false := by
  simp [graph, node?_mix found, μ.unmuted]

variable (ε : μ.Elision)

theorem kind_source : d.graph.kind ⟨id, ε.origin⟩ = ε.source.kind := by
  simp [graph, node?, found, ε.there]

/-- The nodes of the document stay as they are. -/
theorem node?_elided : (d.setTree id ε.result).node? = d.node? := by
  funext node
  unfold node?
  by_cases same : node.tree = id
  · rw [same, tree?_setTree_self found, found]
    rfl
  · rw [tree?_setTree_of_ne same]

theorem firstOfKind?_elided : (d.setTree id ε.result).firstOfKind? = d.firstOfKind? := by
  funext other kind
  unfold firstOfKind?
  by_cases same : other = id
  · rw [same, tree?_setTree_self found, found]
    rfl
  · rw [tree?_setTree_of_ne same]

/-- Inputs are what they were, but for where their links come from. -/
theorem input?_elided (node : NodeId) (key : SocketKey) :
    (d.setTree id ε.result).input? node key =
      (d.input? node key).map fun socket => { socket with link := socket.link.map (ε.lead id) } := by
  by_cases same : node.tree = id
  · unfold input?
    rw [same, tree?_setTree_self found, found]
    simp only [Option.bind_eq_bind, Option.bind_some]
    show (tree.nodes[node.index]?.bind _) = _
    cases tree.nodes[node.index]? with
    | none => rfl
    | some decl =>
      simp only [Option.bind_some]
      cases decl.inputIndex? key with
      | none => rfl
      | some index =>
        simp only [Option.bind_some]
        cases decl.inputs[index]? with
        | none => rfl
        | some socket =>
          simp only [Option.bind_some, Option.pure_def, Option.map_some, ε.linkInto?_result]
          cases tree.linkInto? decl index with
          | none => rfl
          | some link => simp only [Option.map_some, Option.bind_some, ε.source?_result]
  · have unchanged : (d.setTree id ε.result).input? node key = d.input? node key := by
      unfold input?
      rw [tree?_setTree_of_ne same]
    rw [unchanged]
    cases input : d.input? node key with
    | none => rfl
    | some socket =>
      cases linked : socket.link with
      | none => simp only [Option.map_some, linked, Option.map_none]; rw [← linked]
      | some link =>
        have other : link.node ≠ ⟨id, μ.place⟩ := by
          intro same'
          refine same ((shader_of_input? input linked).1.symm.trans ?_)
          rw [same']
        have stays : ε.lead id link = link := if_neg fun leaves => other leaves.1
        simp only [Option.map_some, linked, stays]
        rw [← linked]

theorem kind_elided (node : NodeId) :
    (d.setTree id ε.result).graph.kind node = d.graph.kind node := by
  simp only [graph, node?_elided found]

/-- A link past the mix shader is checked as the one that left it, unless that one came to nothing. -/
theorem checked_elided {link : LinkSource}
    (declared : ∃ decl, d.node? link.node = some decl ∧ link.shader = decl.carriesShader link.output)
    (kind : HostKind) (shader : Bool) :
    (d.setTree id ε.result).graph.unequal kind shader (ε.lead id link) =
        d.graph.unequal kind shader link ∨
      d.graph.unequal kind shader link = true ∨ ε.Unasked id link.node link.output := by
  by_cases leaves : link.node = ⟨id, μ.place⟩ ∧ link.output = ε.output
  · by_cases fits : ε.Fits
    · cases refused : d.graph.unequal kind shader link with
      | true => exact .inr (.inl rfl)
      | false =>
        obtain ⟨decl, there, flag⟩ := declared
        rw [leaves.1, node?_mix found] at there
        cases there
        have typed : HostKind.mixShader.isTypeless = false := rfl
        rw [HostGraph.unequal, leaves.1, kind_mix found, flag, leaves.2, typed] at refused
        left
        rw [NodeTree.Mix.Elision.lead, if_pos leaves, HostGraph.unequal, kind_elided found,
          kind_source found]
        rcases fits with typeless | same
        · simp [typeless]
        · rw [Bool.not_false, Bool.true_and] at refused
          rw [same, Bool.and_assoc, refused, Bool.and_false]
    · exact .inr (.inr ⟨leaves, fits⟩)
  · left
    rw [HostGraph.unequal, HostGraph.unequal, kind_elided found,
      NodeTree.Mix.Elision.lead, if_neg leaves]

theorem sockets_elided (node : NodeId) (key : SocketKey) :
    Option.Rel (SocketsAlike (.redirecting (ε.stand id) (ε.Unasked id)) d.graph
        (d.setTree id ε.result).graph (d.graph.kind node))
      (d.input? node key) ((d.setTree id ε.result).input? node key) := by
  rw [input?_elided found]
  cases input : d.input? node key with
  | none => exact .none
  | some socket =>
    refine .some ⟨rfl, rfl, rfl, ?_⟩
    have visible : ({ socket with link := socket.link.map (ε.lead id) } : Socket).visibleLink =
        socket.visibleLink.map (ε.lead id) := by
      simp [Socket.visibleLink, Option.filter_map, Function.comp_def]
    rw [visible]
    cases shown : socket.visibleLink with
    | none => exact .none
    | some link =>
      refine .some ⟨ε.lead_output id link, ?_⟩
      have source := (shader_of_input? input (Option.filter_eq_some_iff.1 shown).1).2
      exact (checked_elided found ε source _ _).imp_right fun nothing => ⟨trivial, nothing⟩

/-- The graph of the document with the links past the mix shader. -/
theorem redirects_elided :
    d.graph.Redirects (ε.stand id) (ε.Unasked id) (d.setTree id ε.result).graph where
  settled := ε.stand_stand id
  material := name_setTree d id ε.result
  outputNode := by simp only [graph, firstOfKind?_elided found]
  surface node out := by
    refine ε.stand_of_ne (fun same => ?_) _
    have kind := (firstOfKind?_spec out).2.2
    rw [same, kind_mix found] at kind
    cases kind
  groupTree := by
    funext node
    simp only [graph, groupTree?, property?, node?_elided found, groupId?_setTree]
  groupOutput := by simp only [graph, firstOfKind?_elided found]
  leaves other node output inner := by
    refine ε.stand_of_ne (fun same => ?_) output
    have kind := (firstOfKind?_spec inner).2.2
    rw [same, kind_mix found] at kind
    cases kind
  reads node :=
    { kind := kind_elided found ε node
      label := by
        show d.graph.label node = (d.setTree id ε.result).graph.label node
        have name : (d.setTree id ε.result).graph.name = d.graph.name := by
          simp only [graph, node?_elided found]
        rw [HostGraph.label, HostGraph.label, name]
      muted := by simp only [graph, node?_elided found]
      inputCount := by simp only [graph, node?_elided found]
      input := sockets_elided found ε node
      outputDefault := fun output => by simp only [graph, outputDefault?, node?_elided found]
      property := fun name _ _ => by simp only [graph, property?, node?_elided found]
      image := by
        simp only [graph, property?, node?_elided found]
        exact .same _ }

/-! ### What came into the cache -/

/-- The socket of the branch. -/
theorem input?_branch {socket : Socket}
    (input : d.input? ⟨id, μ.place⟩ (.index ε.branch.place) = some socket) :
    socket.shader = μ.node.carriesShader ε.output ∧
      socket.link = some ⟨⟨id, ε.origin⟩, ε.link.fromSocket,
        ε.source.carriesShader ε.link.fromSocket, ε.link.hidden⟩ := by
  simp only [input?, found, μ.there, Option.bind_eq_bind, Option.bind_some, Option.bind_eq_some_iff,
    Option.pure_def, Option.some.injEq, NodeDecl.inputIndex?] at input
  obtain ⟨index, place, socketDecl, there, rfl⟩ := input
  obtain rfl : ε.branch.place = index := by
    split at place <;> cases place
    rfl
  refine ⟨ε.agree socketDecl there, ?_⟩
  show (tree.linkInto? μ.node ε.branch.place).bind (tree.source? id) = _
  rw [ε.leads, Option.bind_some, ε.source?_link]

/-- Findings that lead to the mix shader have what the branch comes from, and its link was not
    refused. -/
theorem leads_branch {failing : SortedMap String Unit} {known all : Findings} {key : Key} {value : Value}
    (own : key.node = ⟨id, μ.place⟩) (leads : (d.setting .builtin).leads failing known key = true)
    (brings : d.Brings id ε all key.scope value) :
    ε.Fits ∧ (known.inside d.graph key.scope ⟨id, ε.origin⟩ ε.link.fromSocket).isSome = true := by
  have kind : d.graph.kind key.node = .mixShader := own ▸ kind_mix found
  have unmuted : d.graph.muted key.node = false := own ▸ muted_mix found
  rw [Setting.leads_eq_read (Setting.course_mixShader (s := d.setting .builtin) rfl kind unmuted
    key.output)] at leads
  obtain ⟨socket, input⟩ := brings.input
  obtain ⟨flag, link⟩ := input?_branch found ε input
  have visible : socket.visibleLink = some ⟨⟨id, ε.origin⟩, ε.link.fromSocket,
      ε.source.carriesShader ε.link.fromSocket, ε.link.hidden⟩ := by
    rw [Socket.visibleLink, link, Option.filter_some, brings.shown]
    rfl
  rw [← own] at input
  obtain ⟨equal, there⟩ := Plan.read_throughLink (Handler.read_mixShader leads ε.branch) input visible
  refine ⟨?_, there⟩
  have typed : HostKind.mixShader.isTypeless = false := rfl
  change d.graph.unequal (d.graph.kind key.node) socket.shader _ = false at equal
  rw [HostGraph.unequal, kind_source found, kind, typed, flag] at equal
  unfold NodeTree.Mix.Elision.Fits
  by_cases typeless : ε.source.kind.isTypeless = true
  · exact .inl typeless
  · exact .inr (by simpa [typeless] using equal)

/-- What the branch comes to, if it is there, is what its link comes from. -/
theorem brings_of_mixes {known : Findings} {scope : List NodeId} {factor first second : Value}
    (mixes : d.graph.Mixes known ⟨id, μ.place⟩ scope factor first second)
    (there : ε.branch.pick first second ≠ .unset) :
    d.Brings id ε known scope (ε.branch.pick first second) := by
  have received : d.graph.receives? known scope ⟨id, μ.place⟩ (.index ε.branch.place)
      (fun _ => .unset) = some (ε.branch.pick first second) := by
    cases ε.branch with
    | first => exact mixes.first
    | second => exact mixes.second
  obtain ⟨socket, input, came⟩ := Option.bind_eq_some_iff.1 received
  rw [Socket.visibleLink, (input?_branch found ε input).2, Option.filter_some] at came
  cases hidden : ε.link.hidden with
  | true =>
    rw [hidden] at came
    exact absurd (Option.some.inj came).symm there
  | false =>
    rw [hidden] at came
    exact ⟨⟨socket, input⟩, hidden, came⟩

variable {failing : SortedMap String Unit} {older entries : List (Key × Value)}

/-- The link into the branch was not refused where the mix shader was reached. -/
theorem asked_of_passes (led : Led (d.setting .builtin) failing older) (sub : older ⊆ entries)
    (passes : d.Passes id ε entries) :
    ∀ e ∈ older, ¬ ε.Unasked id e.1.node e.1.output := by
  induction led with
  | nil => simp
  | @cons key value older _ _ _ leads ih =>
    refine List.forall_mem_cons.2 ⟨?_, ih fun e he => sub (List.mem_cons_of_mem _ he)⟩
    rintro ⟨⟨own, -⟩, unfit⟩
    have mem := sub (List.mem_cons_self (a := (key, value)) (l := older))
    exact unfit (leads_branch found ε own leads (passes.brings _ mem own)).1

/-- What the branch comes from came into the cache before. -/
theorem supplied_of_passes (led : Led (d.setting .builtin) failing older) (sub : older ⊆ entries)
    (material : ∀ e ∈ older, e.1.material = d.name) (passes : d.Passes id ε entries) :
    Supplied (ε.stand id) older := by
  induction led with
  | nil => trivial
  | @cons key value older _ _ _ leads ih =>
    obtain ⟨here, material⟩ := List.forall_mem_cons.1 material
    refine ⟨fun moved => ?_, ih (fun e he => sub (List.mem_cons_of_mem _ he)) material⟩
    have own : key.node = ⟨id, μ.place⟩ ∧ key.output = ε.output := by
      by_contra other
      exact moved (if_neg other)
    have mem := sub (List.mem_cons_self (a := (key, value)) (l := older))
    have brings := passes.brings _ mem own.1
    obtain ⟨came, hw⟩ := Option.isSome_iff_exists.1 (leads_branch found ε own.1 leads brings).2
    have before : ((⟨⟨id, ε.origin⟩, ε.link.fromSocket, key.scope, d.name⟩ : Key), came) ∈ older :=
      Memo.mem_entries_of_get? (m := ⟨older⟩) hw
    obtain rfl : came = value := Option.some.inj
      ((passes.cover _ (sub (List.mem_cons_of_mem _ before))).symm.trans brings.came)
    have stands : key.standIn (ε.stand id) =
        ⟨⟨id, ε.origin⟩, ε.link.fromSocket, key.scope, d.name⟩ := by
      rw [Key.standIn, NodeTree.Mix.Elision.stand, if_pos own, here]
    rw [stands]
    exact before

end

/-- A mix shader may be left out if one of its branches decides, and it blends if none does. The shares
    of outputs make up all that is done to the recording. Wherever the mix shader came to a value, in
    whatever call context and for whatever output, it did nothing and came to the value of the branch
    that decides; or, with both branches there and a factor that is neither all zeros nor all ones, it
    created just one node, which blends the branches by the factor. If one branch decides in every
    context in which the mix shader is reached, and the material comes to a root, then it comes to one
    with every link that left the mix shader leaving what the branch comes from, and the two roots unfold
    to the same tree. -/
theorem mixShader_elided (d : Document) (formals : d.FormalsAgree) {id : TreeId} {tree : NodeTree}
    (found : d.tree? id = some tree) (μ : tree.Mix) (r : Recording) :
    let s := d.setting .builtin
    let σ := Walk.ask s .root (.start r)
    let mixes := d.graph.Mixes (.ofEntries σ.cache.outputs.entries) ⟨id, μ.place⟩
    (σ.recording = r.performAll (Question.root.operations s (.start r)) ∧
      (Question.root.operations s (.start r)).Perm
        ((Question.root.shares s (.start r)).flatMap Prod.snd)) ∧
    (∀ key value, key.node = ⟨id, μ.place⟩ → σ.cache.get? key = some value →
      ∃ factor first second, mixes key.scope factor first second ∧
        (∀ branch : Branch, branch.Decides factor first second →
          Question.root.share s (.start r) key = [] ∧ value = branch.pick first second) ∧
        (first ≠ .unset → second ≠ .unset → factor.isSplat .zero = false → factor.isSplat .one = false →
          Question.root.share s (.start r) key =
              [.create .blend [("weight", factor), ("color0", first), ("color1", second)]] ∧
            ∃ handle node, value = .node handle ∧ σ.recording.node? handle = some node ∧
              node.Blends factor first second)) ∧
    ∀ ε : μ.Elision,
      (∀ key value, key.node = ⟨id, μ.place⟩ → σ.cache.get? key = some value →
        ∃ factor first second, mixes key.scope factor first second ∧
          ε.branch.Decides factor first second) →
      ∀ root, (on (Walk.root s) (.start r)).1 = .ok root →
        let walked := on (Walk.root ((d.setTree id ε.result).setting .builtin)) (.start r)
        ∃ root', walked.1 = .ok root' ∧ (σ.recording.unfolding walked.2.recording).node root root' := by
  intro s σ mixes
  have mixed : ∀ key value, key.node = ⟨id, μ.place⟩ → σ.cache.get? key = some value →
      ∃ factor first second, mixes key.scope factor first second ∧
        Mixed σ.recording factor first second (Question.root.share s (.start r) key) value :=
    fun key value own known => d.mixed (kind_mix found) (muted_mix found) .root
      (σ := .start r) rfl List.nodup_nil own rfl known
  have accepted : ∀ kind rules, s.table.get? kind = some rules → rules.Accepted :=
    fun _ _ => RuleTable.accepted_of_check RuleTable.builtin_check
  refine ⟨⟨Question.root.replays s rfl, Question.operations_perm accepted .root _⟩,
    fun key value own known => ?_, fun ε decided root came => ?_⟩
  · obtain ⟨factor, first, second, mix, did⟩ := mixed key value own known
    refine ⟨factor, first, second, mix, fun branch decides => did.of_decides decides,
      fun there₁ there₂ zero one => did.blends fun branch decides => ?_⟩
    cases branch with
    | first =>
      rw [decides.2.resolve_left there₂] at zero
      cases zero
    | second =>
      rw [decides.2.resolve_left there₁] at one
      cases one
  · have regular : s.Regular fun _ => True := d.setting_regular RuleTable.builtin_check
      fun a b tree called ha hb name _ _ => formals a b tree called ha.1 hb.1 name
    have sound := (((Reached.start r).ask .root).resting regular).sound.outputs
    obtain ⟨failing, chronicle⟩ := ((Lived.start r).ask .root).chronicle regular
      (d.unstopped RuleTable.builtin_check)
    have led : Led s failing σ.cache.outputs.entries := chronicle.legible.outputs
    have passes : d.Passes id ε σ.cache.outputs.entries := by
      refine ⟨led.cover, fun e he own => ?_⟩
      have known : σ.cache.get? e.1 = some e.2 := led.cover e he
      obtain ⟨factor, first, second, mix, did⟩ := mixed e.1 e.2 own known
      obtain ⟨factor', first', second', mix', decides⟩ := decided e.1 e.2 own known
      obtain ⟨rfl, rfl, rfl⟩ := mix.unique mix'
      rw [(did.of_decides decides).2]
      exact brings_of_mixes found ε mix decides.ne_unset
    exact root_redirected formals RuleTable.builtin_check (redirects_elided found ε) r
      (supplied_of_passes found ε led (List.Subset.refl _) sound.material passes)
      (asked_of_passes found ε led (List.Subset.refl _) passes) came

/-- The formals of groups agree where no tree has two nodes for them. -/
theorem formalsAgree_of_single (single : ∀ a ∈ d.nodeIds, ∀ b ∈ d.nodeIds, a.tree = b.tree →
    d.graph.kind a = .groupInput → d.graph.kind b = .groupInput → a = b) : d.FormalsAgree := by
  have there : ∀ node : NodeId, d.graph.kind node = .groupInput → node ∈ d.nodeIds := by
    intro node kind
    simp only [graph, node?, Option.bind_eq_bind] at kind
    cases found : d.tree? node.tree with
    | none => simp [found] at kind
    | some tree =>
      cases here : tree.nodes[node.index]? with
      | none => simp [found, here] at kind
      | some decl => exact mem_nodeIds found (List.getElem?_eq_some_iff.1 here).1
  intro a b same _ ha hb name
  rw [single a (there a ha) b (there b hb) same ha hb]

/-- A group that covers a surface with light, by a factor. -/
def veil : NodeTree where
  nodes :=
    [⟨"in", .groupInput, [], [⟨"Fac", none, false⟩, ⟨"Shader", none, true⟩], .ofList [], false⟩,
      ⟨"light", .emission, [⟨"Color", none, false⟩, ⟨"Strength", none, false⟩],
        [⟨"Emission", none, true⟩], .ofList [], false⟩,
      ⟨"mix", .mixShader, [⟨"Fac", none, false⟩, ⟨"Shader", none, true⟩, ⟨"Shader", none, true⟩],
        [⟨"Shader", none, true⟩], .ofList [], false⟩,
      ⟨"out", .groupOutput, [⟨"Shader", none, true⟩], [], .ofList [], false⟩]
  links :=
    [⟨"in", "Fac", "mix", .name "Fac", false⟩, ⟨"in", "Shader", "mix", .index 1, false⟩,
      ⟨"light", "Emission", "mix", .index 2, false⟩, ⟨"mix", "Shader", "out", .name "Shader", false⟩]

/-- A material that mixes two surfaces, which the group leaves uncovered. -/
def veiled : Document where
  name := "veiled"
  tree :=
    let call (name : String) : NodeDecl := ⟨name, .group,
      [⟨"Fac", some (.scalar .zero), false⟩, ⟨"Shader", none, true⟩], [⟨"Shader", none, true⟩],
      .ofList [(groupProperty, .text "veil")], false⟩
    { nodes :=
        [⟨"output", .outputMaterial, [⟨"Surface", none, true⟩], [], .ofList [], false⟩,
          ⟨"both", .mixShader, [⟨"Fac", none, false⟩, ⟨"Shader", none, true⟩, ⟨"Shader", none, true⟩],
            [⟨"Shader", none, true⟩], .ofList [], false⟩,
          call "left", call "right",
          ⟨"clear", .bsdfTransparent, [⟨"Color", none, false⟩], [⟨"BSDF", none, true⟩], .ofList [], false⟩,
          ⟨"matt", .bsdfDiffuse,
            [⟨"Color", none, false⟩, ⟨"Roughness", none, false⟩, ⟨"Normal", none, false⟩],
            [⟨"BSDF", none, true⟩], .ofList [], false⟩]
      links :=
        [⟨"both", "Shader", "output", .name "Surface", false⟩, ⟨"left", "Shader", "both", .index 1, false⟩,
          ⟨"right", "Shader", "both", .index 2, false⟩, ⟨"clear", "BSDF", "left", .name "Shader", false⟩,
          ⟨"matt", "BSDF", "right", .name "Shader", false⟩] }
  groups := [⟨"veil", veil⟩]

/-- The mix shader of the group. -/
def covering : veil.Mix where
  place := 2
  node := ⟨"mix", .mixShader,
    [⟨"Fac", none, false⟩, ⟨"Shader", none, true⟩, ⟨"Shader", none, true⟩], [⟨"Shader", none, true⟩],
    .ofList [], false⟩
  there := rfl
  kind := rfl
  unmuted := rfl

/-- Its first branch is what the group is called with. -/
def uncovering : covering.Elision where
  branch := .first
  link := ⟨"in", "Shader", "mix", .index 1, false⟩
  leads := by decide
  source := ⟨"in", .groupInput, [], [⟨"Fac", none, false⟩, ⟨"Shader", none, true⟩], .ofList [], false⟩
  origin := 0
  first := by decide
  there := rfl
  output := "Shader"
  agree := by decide

/-- The mix shader of the material. -/
def mixing : veiled.tree.Mix where
  place := 1
  node := ⟨"both", .mixShader,
    [⟨"Fac", none, false⟩, ⟨"Shader", none, true⟩, ⟨"Shader", none, true⟩], [⟨"Shader", none, true⟩],
    .ofList [], false⟩
  there := rfl
  kind := rfl
  unmuted := rfl

/-- In both calls nothing is left of the light, and the group hands on what it is called with. The two
    surfaces are blended, without a weight. -/
theorem mixShader_elided_veiled :
    veiled.FormalsAgree ∧ veiled.tree? ⟨1⟩ = some veil ∧ veiled.tree? .material = some veiled.tree ∧
      (on (Walk.root (veiled.setting .builtin)) (.start .empty)).1 = .ok ⟨8⟩ ∧
      (∃ root, (on (Walk.root ((veiled.setTree ⟨1⟩ uncovering.result).setting .builtin))
          (.start .empty)).1 = .ok root ∧
        ((Walk.ask (veiled.setting .builtin) .root (.start .empty)).recording.unfolding
          (on (Walk.root ((veiled.setTree ⟨1⟩ uncovering.result).setting .builtin))
            (.start .empty)).2.recording).node ⟨8⟩ root) ∧
      (∀ call ∈ [2, 3], Question.root.share (veiled.setting .builtin) (.start .empty)
        ⟨⟨⟨1⟩, 2⟩, "Shader", [⟨.material, call⟩], "veiled"⟩ = []) ∧
      Question.root.share (veiled.setting .builtin) (.start .empty)
          ⟨⟨.material, 1⟩, "Shader", [], "veiled"⟩ =
        [.create .blend [("weight", .unset), ("color0", .node ⟨0⟩), ("color1", .node ⟨4⟩)]] := by
  have formals : veiled.FormalsAgree := formalsAgree_of_single (by decide +kernel)
  have inner : veiled.tree? ⟨1⟩ = some veil := rfl
  have outer : veiled.tree? .material = some veiled.tree := rfl
  have came : (on (Walk.root (veiled.setting .builtin)) (.start .empty)).1 = .ok ⟨8⟩ := by
    decide +kernel
  have mixes : ∀ e ∈ (Walk.ask (veiled.setting .builtin) .root (.start .empty)).cache.outputs.entries,
      e.1.node = ⟨⟨1⟩, covering.place⟩ →
        ∃ branches ∈ [(Value.node ⟨0⟩, Value.node ⟨3⟩), (.node ⟨4⟩, .node ⟨7⟩)],
          veiled.graph.Mixes (.ofEntries
              (Walk.ask (veiled.setting .builtin) .root (.start .empty)).cache.outputs.entries)
            ⟨⟨1⟩, covering.place⟩ e.1.scope (.scalar .zero) branches.1 branches.2 ∧
          uncovering.branch.Decides (.scalar .zero) branches.1 branches.2 := by decide +kernel
  obtain ⟨-, covered, elided⟩ := mixShader_elided veiled formals inner covering .empty
  obtain ⟨-, mixed, -⟩ := mixShader_elided veiled formals outer mixing .empty
  refine ⟨formals, inner, outer, came, elided uncovering (fun key value own known => ?_) _ came,
    fun call hc => ?_, ?_⟩
  · obtain ⟨branches, -, both⟩ := mixes (key, value) (Memo.mem_entries_of_get? known) own
    exact ⟨_, _, _, both⟩
  · have known : ∃ value, (Walk.ask (veiled.setting .builtin) .root (.start .empty)).cache.get?
        ⟨⟨⟨1⟩, 2⟩, "Shader", [⟨.material, call⟩], "veiled"⟩ = some value := by
      refine Option.isSome_iff_exists.1 ?_
      revert call
      decide +kernel
    obtain ⟨value, known⟩ := known
    obtain ⟨factor, first, second, mix, alone, -⟩ := covered _ value rfl known
    obtain ⟨branches, -, mix', decides⟩ := mixes (_, value) (Memo.mem_entries_of_get? known) rfl
    obtain ⟨rfl, rfl, rfl⟩ := mix.unique mix'
    exact (alone _ decides).1
  · have known : (Walk.ask (veiled.setting .builtin) .root (.start .empty)).cache.get?
        ⟨⟨.material, 1⟩, "Shader", [], "veiled"⟩ = some (.node ⟨8⟩) := by decide +kernel
    have mix' : veiled.graph.Mixes (.ofEntries
          (Walk.ask (veiled.setting .builtin) .root (.start .empty)).cache.outputs.entries)
        ⟨.material, mixing.place⟩ [] .unset (.node ⟨0⟩) (.node ⟨4⟩) := by decide +kernel
    obtain ⟨factor, first, second, mix, -, blends⟩ := mixed _ _ rfl known
    obtain ⟨rfl, rfl, rfl⟩ := mix.unique mix'
    exact (blends (by decide) (by decide) rfl rfl).1

end Document

end MaterialLowering
