import MaterialLowering.Proofs.Rules.ArithmeticRules
import MaterialLowering.Proofs.Walks.Termination
import MaterialLowering.Proofs.Walks.TwinWalks

/-!
# Graphs that match

Nodes that answer alike are lowered by twin plans, except where they cross the border of a group: there
the walk itself goes on in the group or at the call. With what is asked for at borders, twins of
settings are found by looking at single nodes. Where all nodes of two graphs answer alike and lead to
each other, the graphs match, and lowering does not tell them apart.

Main definitions:
* `Setting.Crosses`: a node at the border of a group, which is not passed by.
* `HostGraph.Matches`: two graphs with nodes and trees that stand for each other.

Results:
* `Setting.course_twin`: outputs with courses alike.
* `HostGraph.Matches.same`, `HostGraph.Matches.same_output`: documents whose graphs match are lowered
  alike.
* `HostGraph.Matches.indistinct`: and to the same, if the nodes are the same.
* `Document.same_of_depth`: how deep documents are lowered plays no role.
-/

namespace MaterialLowering

open HostGraph (ReadsAs SocketsAlike LinksAlike)
open Walk (on)

/-! ## Courses -/

/-- The node calls a group, or is the way in or out of one, and is lowered as such. -/
def Setting.Crosses (s : Setting) (node : NodeId) : Prop :=
  s.graph.muted node = false ∧ s.table.resolve? (s.graph.kind node) = some .boundary

namespace RuleTable

variable {table : RuleTable} {kind : HostKind}

/-- Nodes at the border of a group have no entry and no handler. -/
theorem boundary_of_resolve? (h : table.resolve? kind = some .boundary) :
    table.get? kind = none ∧ Handler.ofKind? kind = none ∧
      (kind = .group ∨ kind = .groupInput ∨ kind = .groupOutput) := by
  unfold resolve? at h
  split at h
  · cases h
  · split at h
    · cases h
    · split at h
      · exact ⟨‹_›, ‹_›, .inl rfl⟩
      · exact ⟨‹_›, ‹_›, .inr (.inl rfl)⟩
      · exact ⟨‹_›, ‹_›, .inr (.inr rfl)⟩
      · cases h

end RuleTable

namespace Setting

variable {s s' : Setting} {node : NodeId}

/-- Nothing leads past a node at the border of a group. -/
theorem Crosses.bypass?_eq_none (h : s.Crosses node) : bypass? s.graph node = none := by
  have kinds := (RuleTable.boundary_of_resolve? h.2).2.2
  have reroute : s.graph.kind node ≠ .reroute := by
    rintro same
    rw [same] at kinds
    simp at kinds
  rw [bypass?, if_neg reroute, if_neg (by rw [h.1]; decide)]

/-- What there is to do at the border of a group. -/
theorem Crosses.course_eq (h : s.Crosses node) (output : String) :
    some (s.course node output) = Task.ofBoundary? s.graph node output (s.graph.kind node) := by
  obtain ⟨no, handler, kinds⟩ := RuleTable.boundary_of_resolve? h.2
  rw [course, h.bypass?_eq_none]
  rcases kinds with kind | kind | kind <;> rw [kind] at no handler ⊢ <;>
    exact congrArg some (task_of_boundary no handler rfl kind)

end Setting

/-- Nodes that answer alike have twin plans, unless they are at the border of a group. -/
theorem RuleTable.task_twin {table : RuleTable} {p : Pairing} {g g' : HostGraph} {node node' : NodeId}
    {output : String} (inside : table.resolve? (g.kind node) ≠ some .boundary)
    (reads : ReadsAs p g g' node node') (own : p.output node output node' output) :
    ∃ plan plan', table.task g node output = .plan plan ∧ table.task g' node' output = .plan plan' ∧
      Plan.Twin p plan plan' := by
  unfold task
  dsimp only
  rw [reads.kind]
  cases hr : table.resolve? (g.kind node) with
  | none => exact ⟨_, _, rfl, rfl, Plan.fail_twin reads.label rfl rfl⟩
  | some resolution =>
    cases resolution with
    | declarative rules => exact ⟨_, _, rfl, rfl, RuleSite.plan_twin reads own⟩
    | boundary => exact absurd hr inside
    | procedural handler =>
      have found : Handler.ofKind? (g.kind node) = some handler := by
        unfold resolve? at hr
        split at hr
        · cases hr
        · split at hr
          · cases hr
            assumption
          · split at hr <;> cases hr
      exact ⟨_, _, rfl, rfl, Handler.ofKind?_twin output reads found⟩

/-- What is needed of outputs to have courses alike: their nodes answer alike, or lead on alike at the
    border of a group. -/
structure OutputsAlike (t : Twinning) (s s' : Setting) (k k' : Key) : Prop where
  kind : s'.graph.kind k'.node = s.graph.kind k.node
  label : t.label (s.graph.label k.node) (s'.graph.label k'.node)
  muted : s'.graph.muted k'.node = s.graph.muted k.node
  reads : ¬ s.Crosses k.node →
    ReadsAs (t.within s.graph s'.graph k.scope k'.scope) s.graph s'.graph k.node k'.node
  call : s.Crosses k.node → s.graph.kind k.node = .group → CallsAlike t s.graph s'.graph k k'
  formal : s.Crosses k.node → s.graph.kind k.node = .groupInput →
    FormalsAlike t s.graph s'.graph k k'
  leave : s.Crosses k.node → s.graph.kind k.node = .groupOutput →
    Option.Rel (SocketsAlike (t.within s.graph s'.graph k.scope k'.scope) s.graph s'.graph
        (s.graph.kind k.node))
      (s.graph.input k.node (.name k.output)) (s'.graph.input k'.node (.name k.output))

theorem Setting.course_twin {t : Twinning} {s s' : Setting} (table : s'.table = s.table) {k k' : Key}
    (own : (t.within s.graph s'.graph k.scope k'.scope).output k.node k.output k'.node k.output)
    (output : k'.output = k.output) (h : OutputsAlike t s s' k k') :
    CoursesAlike t s.graph s'.graph k k' (s.course k.node k.output) (s'.course k'.node k'.output) := by
  rw [output]
  obtain ⟨kind, label, muted, reads, call, formal, leave⟩ := h
  by_cases crosses : s.Crosses k.node
  · have crosses' : s'.Crosses k'.node := by
      refine ⟨muted.trans crosses.1, ?_⟩
      rw [table, kind]
      exact crosses.2
    have course := crosses.course_eq k.output
    have course' := crosses'.course_eq k.output
    rw [kind] at course'
    rcases (RuleTable.boundary_of_resolve? crosses.2).2.2 with hk | hk | hk <;>
      rw [hk] at course course' <;> rw [Option.some.inj course, Option.some.inj course']
    · exact .call (call crosses hk)
    · exact .formal (formal crosses hk)
    · exact .plan (Plan.input_twin_of kind label (leave crosses hk))
  · have reads := reads crosses
    have passed := bypass?_twin reads
    have unmuted : bypass? s.graph k.node = none → s.graph.muted k.node = false := by
      intro none
      unfold bypass? at none
      split at none
      · cases none
      · simpa using none
    unfold course
    generalize bypass? s.graph k.node = plan, bypass? s'.graph k'.node = plan' at passed unmuted
    cases passed with
    | some twin => exact .plan twin
    | none =>
      have inside : s.table.resolve? (s.graph.kind k.node) ≠ some .boundary := fun boundary =>
        crosses ⟨unmuted rfl, boundary⟩
      obtain ⟨plan, plan', task, task', twin⟩ := RuleTable.task_twin inside reads own
      dsimp only
      rw [table, task, task']
      exact .plan twin

/-! ## Graphs that match -/

theorem Key.eq_of {k k' : Key} (node : k.node = k'.node) (output : k.output = k'.output)
    (scope : k.scope = k'.scope) (material : k.material = k'.material) : k = k' := by
  obtain ⟨_, _, _, _⟩ := k
  obtain ⟨_, _, _, _⟩ := k'
  simp_all

/-- Nodes, trees and labels that stand for each other, and images that cannot be loaded. -/
structure Matching where
  node : NodeId → NodeId → Prop
  tree : TreeId → TreeId → Prop
  label : String → String → Prop
  failing : SortedMap String Unit

namespace Matching

/-- Outputs of one name stand for each other if their nodes do. -/
def pairing (m : Matching) : Pairing where
  output node output node' output' := m.node node node' ∧ output' = output
  label := m.label
  failing := m.failing

/-- Keys stand for each other if their nodes and calls do. -/
def twinning (m : Matching) : Twinning where
  key k k' := m.node k.node k'.node ∧ k'.output = k.output ∧ List.Forall₂ m.node k.scope k'.scope ∧
    k'.material = k.material
  tree := m.tree
  label := m.label
  failing := m.failing

end Matching

namespace HostGraph

/-- The nodes of two graphs answer alike and lead to each other. -/
structure Matches (m : Matching) (g g' : HostGraph) : Prop where
  nodes : Relator.BiUnique m.node
  trees : Relator.BiUnique m.tree
  material : g'.material = g.material
  outputNode : Option.Rel m.node g.outputNode g'.outputNode
  reads : ∀ {node node'}, m.node node node' → ReadsAs m.pairing g g' node node'
  within : ∀ {node node'}, m.node node node' → m.tree node.tree node'.tree
  groupTree : ∀ {node node'}, m.node node node' → g.kind node = .group →
    Option.Rel m.tree (g.groupTree node) (g'.groupTree node')
  groupOutput : ∀ {tree tree'}, m.tree tree tree' →
    Option.Rel m.node (g.groupOutput tree) (g'.groupOutput tree')

/-- Sockets into which the same visible link leads. -/
theorem SocketsAlike.of_visibleLink {p : Pairing} {g g' : HostGraph} {kind : HostKind}
    {socket socket' : Socket} (name : socket'.name = socket.name)
    (default : socket'.default = socket.default) (shader : socket'.shader = socket.shader)
    (same : socket'.visibleLink = socket.visibleLink)
    (leads : ∀ link, socket.visibleLink = some link →
      p.output link.node link.output link.node link.output ∧ g'.kind link.node = g.kind link.node) :
    SocketsAlike p g g' kind socket socket' := by
  refine ⟨name, default, shader, ?_⟩
  rw [same]
  cases hl : socket.visibleLink with
  | none => exact .none
  | some link =>
    obtain ⟨asked, unchanged⟩ := leads link hl
    exact .some (.of_same asked rfl (by rw [unchanged]) kind _)

theorem SocketsAlike.mono {p q : Pairing} {g g' : HostGraph} {kind : HostKind}
    {socket socket' : Socket} (h : SocketsAlike p g g' kind socket socket')
    (le : ∀ {node output node' output'},
      p.output node output node' output' → q.output node output node' output')
    (strict : ¬ p.lenient) : SocketsAlike q g g' kind socket socket' := by
  refine ⟨h.name, h.default, h.shader, ?_⟩
  have links := h.link
  generalize socket.visibleLink = link, socket'.visibleLink = link' at links
  cases links with
  | none => exact .none
  | some link => exact .some ⟨le link.asked, link.checked.imp_right fun loose => absurd loose.1 strict⟩

theorem ReadsAs.mono {p q : Pairing} {g g' : HostGraph} {node node' : NodeId}
    (h : ReadsAs p g g' node node') (le : ∀ {node output node' output'},
      p.output node output node' output' → q.output node output node' output')
    (label : q.label = p.label) (failing : q.failing = p.failing) (strict : ¬ p.lenient) :
    ReadsAs q g g' node node' where
  kind := h.kind
  label := label ▸ h.label
  muted := h.muted
  inputCount := h.inputCount
  input key := by
    have sockets := h.input key
    generalize g.input node key = socket, g'.input node' key = socket' at sockets
    cases sockets with
    | none => exact .none
    | some sockets => exact .some (sockets.mono le strict)
  outputDefault := h.outputDefault
  property := h.property
  image := by
    have images := h.image
    generalize (g.property node imageProperty).bind Property.asText = image,
      (g'.property node' imageProperty).bind Property.asText = image' at images
    cases images with
    | same => exact .same _
    | missing lost => exact .missing (failing ▸ lost)

namespace Matches

variable {m : Matching} {g g' : HostGraph}

/-- Nodes that answer alike do so in calls that stand for each other. -/
theorem reads_within (h : g.Matches m g') {node node' : NodeId} (here : m.node node node')
    {scope scope' : List NodeId} (around : List.Forall₂ m.node scope scope') :
    ReadsAs (m.twinning.within g g' scope scope') g g' node node' :=
  (h.reads here).mono (fun asked => ⟨asked.1, asked.2, around, h.material⟩) rfl rfl id

end Matches

/-- The innermost call of a tree is one of the calls. -/
theorem callOf?_suffix {g : HostGraph} {tree : TreeId} {chain around : List NodeId}
    {callSite : NodeId} (h : g.callOf? tree chain = some (callSite, around)) :
    callSite :: around <:+ chain := by
  induction chain with
  | nil => cases h
  | cons first rest ih =>
    unfold callOf? at h
    split at h
    · obtain ⟨rfl, rfl⟩ := Prod.mk.inj (Option.some.inj h)
      exact List.suffix_rfl
    · exact (ih h).trans (List.suffix_cons first rest)

/-- The node of a call calls the tree. -/
theorem groupTree_of_callOf? {g : HostGraph} {tree : TreeId} {chain around : List NodeId}
    {callSite : NodeId} (h : g.callOf? tree chain = some (callSite, around)) :
    g.groupTree callSite = some tree := by
  induction chain with
  | nil => cases h
  | cons first rest ih =>
    unfold callOf? at h
    split at h
    · rename_i called
      obtain ⟨rfl, -⟩ := Prod.mk.inj (Option.some.inj h)
      exact called
    · exact ih h

end HostGraph

/-- Ends of one length of lists that stand for each other. -/
theorem forall₂_of_suffix {α β : Type} {R : α → β → Prop} {l l₁ : List α} {l' l₂ : List β}
    (h : List.Forall₂ R l l') (h₁ : l₁ <:+ l) (h₂ : l₂ <:+ l') (length : l₂.length = l₁.length) :
    List.Forall₂ R l₁ l₂ := by
  rw [List.suffix_iff_eq_drop.1 h₁, List.suffix_iff_eq_drop.1 h₂, length, h.length_eq]
  exact List.forall₂_drop _ h

theorem forall₂_getElem? {α β : Type} {R : α → β → Prop} {l : List α} {l' : List β}
    (h : List.Forall₂ R l l') (n : Nat) : Option.Rel R l[n]? l'[n]? := by
  induction h generalizing n with
  | nil => exact .none
  | cons here _ ih =>
    cases n with
    | zero => exact .some here
    | succ n => exact ih n

/-- Arguments of calls that answer alike are read alike. -/
theorem argument_twin {p : Pairing} {g g' : HostGraph} {callSite callSite' : NodeId} {formal : String}
    (kind : g'.kind callSite' = g.kind callSite)
    (label : p.label (g.label callSite) (g'.label callSite'))
    (sockets : Option.Rel (SocketsAlike p g g' (g.kind callSite)) (g.input callSite (.name formal))
      (g'.input callSite' (.name formal))) :
    Plan.Twin p (Walk.argument g callSite formal) (Walk.argument g' callSite' formal) := by
  have read : Plan.Twin p (Plan.input g callSite (.name formal))
      (Plan.input g' callSite' (.name formal)) := Plan.input_twin_of kind label sockets
  unfold Walk.argument
  generalize g.input callSite (.name formal) = socket, g'.input callSite' (.name formal) = socket'
    at sockets
  cases sockets with
  | none => exact Plan.fail_twin label rfl rfl
  | some => exact read

namespace HostGraph.Matches

variable {m : Matching} {s s' : Setting} (h : s.graph.Matches m s'.graph)

include h

theorem calls_alike {k k' : Key} (here : m.twinning.key k k') (kind : s.graph.kind k.node = .group) :
    CallsAlike m.twinning s.graph s'.graph k k' := by
  obtain ⟨node, output, scope, -⟩ := here
  have trees := h.groupTree node kind
  unfold CallsAlike
  generalize s.graph.groupTree k.node = tree, s'.graph.groupTree k'.node = tree' at trees
  cases trees with
  | none => exact .none
  | @some tree tree' trees =>
    refine .some ⟨trees, ?_⟩
    have outputs := h.groupOutput trees
    generalize s.graph.groupOutput tree = inner, s'.graph.groupOutput tree' = inner' at outputs
    cases outputs with
    | none => exact .none
    | some inner => exact .some ⟨inner, output, .cons node scope, h.material⟩

theorem formals_alike {k k' : Key} (here : m.twinning.key k k') :
    FormalsAlike m.twinning s.graph s'.graph k k' where
  tree := h.within here.1
  default := by rw [here.2.1, (h.reads here.1).outputDefault]
  argument := by
    intro callSite around callSite' around' found suffix length
    have calls : List.Forall₂ m.node (callSite :: around) (callSite' :: around') :=
      forall₂_of_suffix here.2.2.1 (callOf?_suffix found) suffix (by simpa using length)
    cases calls with
    | cons call around =>
      have reads := h.reads_within call around
      rw [here.2.1]
      exact argument_twin reads.kind reads.label (reads.input _)

/-- Graphs that match have twin walks, whatever the rules. -/
theorem twins (table : s'.table = s.table) : s.Twins m.twinning s' where
  keys := by
    obtain ⟨left, right⟩ := h.nodes
    refine ⟨fun a b c ac bc => ?_, fun a b c ab ac => ?_⟩
    · exact Key.eq_of (left ac.1 bc.1) (ac.2.1.symm.trans bc.2.1)
        (h.nodes.forall₂.1 ac.2.2.1 bc.2.2.1) (ac.2.2.2.symm.trans bc.2.2.2)
    · exact Key.eq_of (right ab.1 ac.1) (ab.2.1.trans ac.2.1.symm)
        (h.nodes.forall₂.2 ab.2.2.1 ac.2.2.1) (ab.2.2.2.trans ac.2.2.2.symm)
  trees := h.trees
  output here := here.2.1
  label here := (h.reads here.1).label
  course := by
    intro k k' here
    have reads := h.reads_within here.1 here.2.2.1
    refine Setting.course_twin table ⟨here.1, rfl, here.2.2.1, h.material⟩ here.2.1 ?_
    exact ⟨reads.kind, reads.label, reads.muted, fun _ => reads, fun _ => h.calls_alike here,
      fun _ _ => h.formals_alike here, fun _ _ => reads.input _⟩

end HostGraph.Matches

/-- Nodes stand for themselves. -/
def Matching.same (failing : SortedMap String Unit) : Matching := ⟨Eq, Eq, Eq, failing⟩

/-- Graphs with the same nodes, into which the same visible links lead, match but for images that cannot
    be loaded. -/
theorem HostGraph.matches_same {failing : SortedMap String Unit} {g g' : HostGraph}
    (material : g'.material = g.material) (outputNode : g'.outputNode = g.outputNode)
    (kind : g'.kind = g.kind) (name : g'.name = g.name) (muted : g'.muted = g.muted)
    (inputCount : g'.inputCount = g.inputCount) (outputDefault : g'.outputDefault = g.outputDefault)
    (input : ∀ node key, Option.Rel
      (fun socket socket' => socket'.name = socket.name ∧ socket'.default = socket.default ∧
        socket'.shader = socket.shader ∧ socket'.visibleLink = socket.visibleLink)
      (g.input node key) (g'.input node key))
    (property : ∀ node name, name ≠ imageProperty → g'.property node name = g.property node name)
    (image : ∀ node, ImagesAlike (Matching.same failing).pairing
      ((g.property node imageProperty).bind Property.asText)
      ((g'.property node imageProperty).bind Property.asText))
    (groupTree : g'.groupTree = g.groupTree) (groupOutput : g'.groupOutput = g.groupOutput) :
    g.Matches (.same failing) g' where
  nodes := ⟨fun _ _ _ ac bc => ac.trans bc.symm, fun _ _ _ ab ac => ab.symm.trans ac⟩
  trees := ⟨fun _ _ _ ac bc => ac.trans bc.symm, fun _ _ _ ab ac => ab.symm.trans ac⟩
  material := material
  outputNode := by
    rw [outputNode]
    cases g.outputNode with
    | none => exact .none
    | some node => exact .some rfl
  reads := by
    rintro node _ rfl
    exact
      { kind := by rw [kind]
        label := by
          show g.label node = g'.label node
          rw [label, label, name]
        muted := by rw [muted]
        inputCount := by rw [inputCount]
        input := fun key => by
          have sockets := input node key
          generalize g.input node key = socket, g'.input node key = socket' at sockets
          cases sockets with
          | none => exact .none
          | some sockets =>
            obtain ⟨name, default, shader, same⟩ := sockets
            exact .some (.of_visibleLink name default shader same fun _ _ =>
              ⟨⟨rfl, rfl⟩, by rw [kind]⟩)
        outputDefault := by simp [outputDefault]
        property := fun name _ hi => property node name hi
        image := image node }
  within := by
    rintro node _ rfl
    rfl
  groupTree := by
    rintro node _ rfl -
    rw [groupTree]
    cases g.groupTree node with
    | none => exact .none
    | some tree => exact .some rfl
  groupOutput := by
    rintro tree _ rfl
    rw [groupOutput]
    cases g.groupOutput tree with
    | none => exact .none
    | some node => exact .some rfl

/-! ## Documents -/

namespace Document

variable {d d' : Document} {table : RuleTable}

/-- An output may be lowered to any depth that is enough for the document. -/
theorem output_eq_of_le (hc : table.check = .ok ()) {depth : Nat} (enough : d.walkDepth ≤ depth)
    (node : NodeId) (output : String) (r : Recording) :
    on (Walk.output ⟨d.graph, table, depth⟩ node output) (.start r) =
      on (Walk.output (d.setting table) node output) (.start r) :=
  (d.sufficient hc rfl rfl node output).settles.2 depth enough

/-- A material may be lowered to any depth that is enough for the document. -/
theorem root_eq_of_le (hc : table.check = .ok ()) {depth : Nat} (enough : d.walkDepth ≤ depth)
    (r : Recording) :
    on (Walk.root ⟨d.graph, table, depth⟩) (.start r) =
      on (Walk.root (d.setting table)) (.start r) :=
  (Walk.root_settles fun node =>
    (d.sufficient hc rfl rfl node Walk.surface).settles).2 depth enough

/-- Documents are lowered to the same if they are to any depth. -/
theorem same_of_depth (hc : table.check = .ok ()) {label : String → String → Prop} {r : Recording}
    (h : ∀ depth, Setting.Same label ⟨d.graph, table, depth⟩ ⟨d'.graph, table, depth⟩ r)
    (name : d'.name = d.name) : (d.setting table).Same label (d'.setting table) r := by
  have deep := h (max d.walkDepth d'.walkDepth)
  have run := root_eq_of_le hc (Nat.le_max_left d.walkDepth d'.walkDepth) r
  have run' := root_eq_of_le hc (Nat.le_max_right d.walkDepth d'.walkDepth) r
  refine .of_walk name ?_ ?_
  · rw [← run, ← run']
    exact deep.walk
  · rw [← run, ← run']
    exact deep.walked

end Document

namespace HostGraph.Matches

variable {m : Matching} {d d' : Document} (h : d.graph.Matches m d'.graph) {table : RuleTable}
  (hc : table.check = .ok ()) {r : Recording} (failing : r.failing = m.failing)

include h hc failing

/-- Documents whose graphs match are lowered to the same. -/
theorem same : (d.setting table).Same m.label (d'.setting table) r :=
  Document.same_of_depth hc (fun depth => by
    have twins : Setting.Twins m.twinning ⟨d.graph, table, depth⟩ ⟨d'.graph, table, depth⟩ :=
      twins h rfl
    refine twins.lower rfl h.material ?_ failing
    have outputs := h.outputNode
    dsimp only
    generalize d.graph.outputNode = node, d'.graph.outputNode = node' at outputs
    cases outputs with
    | none => exact .none
    | some here => exact .some ⟨here, rfl, .nil, h.material⟩) h.material

/-- Outputs of nodes that stand for each other come to the same. -/
theorem same_output {node node' : NodeId} (here : m.node node node') (output : String) :
    ResultsAlike m.label (on (Walk.output (d.setting table) node output) (.start r)).1
        (on (Walk.output (d'.setting table) node' output) (.start r)).1 ∧
      (on (Walk.output (d'.setting table) node' output) (.start r)).2.recording =
        (on (Walk.output (d.setting table) node output) (.start r)).2.recording := by
  have run := Document.output_eq_of_le hc (Nat.le_max_left d.walkDepth d'.walkDepth) node output r
  have run' := Document.output_eq_of_le hc (Nat.le_max_right d.walkDepth d'.walkDepth) node' output r
  generalize max d.walkDepth d'.walkDepth = depth at run run'
  have twins : Setting.Twins m.twinning ⟨d.graph, table, depth⟩ ⟨d'.graph, table, depth⟩ :=
    twins h rfl
  rw [← run, ← run']
  exact (Walk.lower_twin twins depth (.start failing) ⟨here, rfl, .nil, h.material⟩).results

end HostGraph.Matches

/-- Documents with the same nodes, of which nothing tells the graphs apart, are lowered to the same, and
    so is each of their outputs. -/
theorem HostGraph.Matches.indistinct {d d' : Document} {r : Recording}
    (h : d.graph.Matches (.same r.failing) d'.graph) {table : RuleTable} (hc : table.check = .ok ()) :
    (d.setting table).Indistinct (d'.setting table) r ∧
    ∀ node output,
      (on (Walk.output (d'.setting table) node output) (.start r)).1 =
        (on (Walk.output (d.setting table) node output) (.start r)).1 ∧
      (on (Walk.output (d'.setting table) node output) (.start r)).2.recording =
        (on (Walk.output (d.setting table) node output) (.start r)).2.recording := by
  refine ⟨(h.same hc rfl).indistinct, fun node output => ?_⟩
  have here : (Matching.same r.failing).node node node := rfl
  obtain ⟨results, recordings⟩ := h.same_output hc rfl here output
  exact ⟨results.eq, recordings⟩

end MaterialLowering
