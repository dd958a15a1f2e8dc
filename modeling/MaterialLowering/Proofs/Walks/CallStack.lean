import MaterialLowering.Proofs.Documents.FormalDefaults
import MaterialLowering.Proofs.Walks.Acyclicity

/-!
# The stack says where the walk is

Links do not leave a tree. A walk goes on in another tree only where it enters a call, which is put on
the stack, and where it reads an argument of a call, which it does with that call taken off the stack. So
the stack leads from the tree where the walk began to the node that it has come to: every call on it
stands in the tree of the call around it, and no two of them are of one tree. Rules do not matter for
that, not even those that are refused by the check.

Main definitions:
* `Question.asked`: the outputs that are asked for while a question is answered, and their states.
* `Walk.lowerWhere`: the walk, with a condition on every output that is asked for.
* `Spans`: a stack that leads from a tree to a node, call by call.
* `StackMirrors`: the same, read off the stack as a whole.

Results:
* `RuleTable.asks_of_task`: plans ask for what links lead from, whatever the rules.
* `Question.asked_of_lowered`: every output that is lowered was asked for.
* `Question.lowerWhere_eq`: a walk depends on nothing but the outputs that were asked for.
* `Walk.spans_of_asks`: one step keeps the stack in line with the node.
* `Document.stack_mirrors`: so does every walk that begins outside of all calls.
* `Document.lowerWhere_eq`: so a walk may insist on it.
-/

namespace MaterialLowering

open Walk (on)

/-! ## What plans ask for -/

/-- However it is carried out, the plan asks for no output outside of `asks`. -/
def Plan.AsksAmong {α : Type} (g : HostGraph) (visit : NodeId → String → Walk Value)
    (asks : NodeId → String → Prop) (plan : Plan α) : Prop :=
  ∀ σ node output τ, .asks node output τ ∈ plan.moments g visit σ → asks node output

section

variable {α β : Type} {g : HostGraph} {visit : NodeId → String → Walk Value}
  {asks : NodeId → String → Prop}

theorem Plan.Local.asksAmong {keeps : NodeId → String → String → Prop} {plan : Plan α}
    (own : Plan.Local asks keeps plan) : plan.AsksAmong g visit asks :=
  fun σ _ _ _ hm => own.within σ hm

theorem Plan.AsksAmong.report {notice : Notice} {next : Plan α} (h : next.AsksAmong g visit asks) :
    (Plan.report notice next).AsksAmong g visit asks := by
  intro σ
  rw [Plan.moments_report]
  exact h (σ.noting notice)

theorem Plan.AsksAmong.known {node : NodeId} {output name : String} {next : Option Value → Plan α}
    (h : ∀ found, (next found).AsksAmong g visit asks) :
    (Plan.known node output name next).AsksAmong g visit asks := by
  intro σ
  rw [Plan.moments_known]
  exact h _ σ

theorem Plan.AsksAmong.bind {p : Plan α} {f : α → Plan β} (hp : p.AsksAmong g visit asks)
    (hf : ∀ a, (f a).AsksAmong g visit asks) : (p >>= f).AsksAmong g visit asks := by
  intro σ node output τ hm
  rw [Plan.moments_bind] at hm
  generalize on (Walk.carryOut g visit p) σ = run at hm
  obtain ⟨failure | a, σ'⟩ := run
  · exact hp σ node output τ hm
  · rcases List.mem_append.1 hm with hm | hm
    · exact hf a σ' node output τ hm
    · exact hp σ node output τ hm

end

namespace RuleSite

variable {site : RuleSite} {visit : NodeId → String → Walk Value} {subNode : String → Plan Value}
  (hs : ∀ name, (subNode name).AsksAmong site.graph visit site.Asks)

include hs

theorem source_asks (source : ValueSource) :
    (site.source subNode source).AsksAmong site.graph visit site.Asks := by
  have nothing : NodeId → String → String → Prop := fun _ _ _ => False
  cases source with
  | input socket => exact (Plan.input_local _ : Plan.Local _ nothing _).asksAmong
  | link socket => exact (Plan.inputLink_local _ : Plan.Local _ nothing _).asksAmong
  | default socket => exact (Plan.inputDefault_local _ : Plan.Local _ nothing _).asksAmong
  | node name => exact hs name
  | literal literal => exact (.done _ : Plan.Local _ nothing _).asksAmong

theorem params_asks (params : List (String × ValueSource)) :
    (site.params subNode params).AsksAmong site.graph visit site.Asks := by
  induction params with
  | nil => intro σ node output τ hm; cases hm
  | cons param rest ih =>
    refine (source_asks hs param.2).bind fun value => ih.bind fun values => ?_
    intro σ node output τ hm
    cases hm

theorem fresh_asks (name : String) :
    (site.fresh subNode name).AsksAmong site.graph visit site.Asks := by
  unfold fresh
  split
  · intro σ node output τ hm
    cases hm
  rename_i rule _
  have evaluated : Plan.AsksAmong site.graph visit site.Asks
      (do
        let values ← site.params subNode rule.params
        let value ← rule.type.plan values
        Plan.remember site.node site.output name value (.done value)) := by
    refine (params_asks hs rule.params).bind fun values => ?_
    have typed : Plan.Local site.Asks (fun _ _ _ => True) (rule.type.plan values) :=
      typePlan_local rule.type values
    exact (typed.bind fun value => .remember trivial (.done value)).asksAmong
  split
  · exact evaluated.report
  · exact evaluated

omit hs in
/-- However often references may be followed, sub-nodes ask for what feeds the node. -/
theorem subNode_asks (fuel : Nat) (name : String) :
    (site.subNode fuel name).AsksAmong site.graph visit site.Asks := by
  induction fuel generalizing name with
  | zero =>
    intro σ node output τ hm
    cases hm
  | succ fuel ih =>
    refine Plan.AsksAmong.known fun found => ?_
    cases found with
    | some value =>
      intro σ node output τ hm
      cases hm
    | none => exact fresh_asks ih name

omit hs in
theorem plan_asks (site : RuleSite) : site.plan.AsksAmong site.graph visit site.Asks := by
  unfold plan
  split
  · exact subNode_asks _ _
  · intro σ node output τ hm
    cases hm

end RuleSite

/-- Whatever the rules are, the plan of an output asks for outputs that links lead from. -/
theorem RuleTable.asks_of_task {g : HostGraph} {visit : NodeId → String → Walk Value}
    {table : RuleTable} {node : NodeId} {output : String} {plan : Plan Value}
    (h : table.task g node output = .plan plan) : plan.AsksAmong g visit (g.Feeds node) := by
  rcases task_local_cases h with ⟨rules, -, rfl⟩ | ⟨-, own⟩
  · exact RuleSite.plan_asks ⟨g, g.kind node, rules, node, output⟩
  · exact (own fun _ _ _ => False).asksAmong

/-! ## Stacks that lead to a node -/

/-- The tree in which the outermost call stands, or else the node. -/
def outermostTree : List Frame → NodeId → TreeId
  | [], node => node.tree
  | frame :: around, _ => outermostTree around frame.callSite

/-- The stack leads from the tree to the node: every call on it is in the tree of the next call around
    it, and the outermost one is in that tree. -/
structure Spans (g : HostGraph) (start : TreeId) (stack : List Frame) (node : NodeId) : Prop where
  placed : Placed g stack node
  outermost : outermostTree stack node = start

namespace Spans

variable {g : HostGraph} {start : TreeId} {stack stack' around : List Frame} {frame : Frame}
  {node other : NodeId}

/-- Outside of all calls the walk is where it began. -/
theorem outside (node : NodeId) : Spans g node.tree [] node := ⟨trivial, rfl⟩

/-- Links do not matter. -/
theorem of_tree (h : Spans g start stack node) (same : other.tree = node.tree) :
    Spans g start stack other := by
  refine ⟨h.placed.of_tree same, ?_⟩
  have outermost := h.outermost
  cases stack with
  | nil => exact same.trans outermost
  | cons frame around => exact outermost

/-- Arguments that are remembered do not matter. -/
theorem of_extends (h : Spans g start stack node) (more : StackExtends stack stack') :
    Spans g start stack' node := by
  refine ⟨h.placed.of_extends more, ?_⟩
  have outermost := h.outermost
  clear h
  induction more generalizing node with
  | nil => exact outermost
  | @cons frame frame' _ _ same _ ih =>
    have rest : outermostTree _ frame.callSite = start := ih outermost
    rwa [← same.callSite] at rest

/-- A call is put on the stack. -/
theorem enter (h : Spans g start stack node) (kind : g.kind node = .group) {tree : TreeId}
    (calls : g.groupTree node = some tree) (new : tree ∉ stack.map Frame.tree)
    (within : other.tree = tree) (arguments : Memo String Value) :
    Spans g start (⟨node, tree, arguments⟩ :: stack) other :=
  ⟨⟨within, kind, calls, new, h.placed⟩, h.outermost⟩

/-- The innermost call is taken off the stack. -/
theorem leave (h : Spans g start (frame :: around) node) : Spans g start around frame.callSite :=
  ⟨h.placed.2.2.2.2, h.outermost⟩

end Spans

/-! ## Steps -/

/-- Links stay in their tree, and the output node of a group is in the tree of the group. -/
structure HostGraph.Separate (g : HostGraph) : Prop where
  feeds : ∀ {node source : NodeId} {output : String}, g.Feeds node source output →
    source.tree = node.tree
  groupOutput : ∀ {tree : TreeId} {node : NodeId}, g.groupOutput tree = some node → node.tree = tree

theorem Document.graph_separate (d : Document) : d.graph.Separate :=
  ⟨fun h => (feeds_spec h).1, fun h => (groupOutput_spec h).1⟩

section

variable {s : Setting} {start : TreeId} {visit : NodeId → String → Walk Value} {node source : NodeId}
  {output other : String} {σ τ : WalkState}

/-- A plan stays in the tree. -/
theorem Plan.spans_of_asks {α : Type} {g : HostGraph} (separate : g.Separate)
    (steady : ∀ node output, Walk.Steady (visit node output)) {plan : Plan α}
    (among : plan.AsksAmong g visit (g.Feeds node)) (h : Spans g start σ.stack node)
    (hm : .asks source other τ ∈ plan.moments g visit σ) : Spans g start τ.stack source := by
  have evolves := Plan.evolves_moment steady plan σ hm
  exact (h.of_tree (separate.feeds (among σ source other τ hm))).of_extends evolves.stack

/-- Wherever a step asks for an output, the stack leads to its node. -/
theorem Walk.spans_of_asks (separate : s.graph.Separate)
    (steady : ∀ node output, Walk.Steady (visit node output)) (h : Spans s.graph start σ.stack node)
    (hm : .asks source other τ ∈ moments s visit node output σ) : Spans s.graph start τ.stack source := by
  rw [moments_eq] at hm
  cases passed : bypass? s.graph node with
  | some plan =>
    have own : Plan.Local (s.graph.Feeds node) (fun _ _ _ => False) plan := bypass?_local passed
    rw [passed] at hm
    exact Plan.spans_of_asks separate steady own.asksAmong h hm
  | none =>
    rw [passed] at hm
    dsimp only at hm
    have noted : Spans s.graph start
      (σ.noting (.visiting (s.graph.kind node) (s.graph.label node) output)).stack node := h
    cases task : s.table.task s.graph node output with
    | plan plan =>
      rw [task] at hm
      exact Plan.spans_of_asks separate steady (RuleTable.asks_of_task task) noted hm
    | call =>
      have kind := kind_of_task_call task
      rw [task] at hm
      dsimp only at hm
      rw [callMoments_eq] at hm
      split at hm
      · cases hm
      rename_i tree calls
      split at hm
      · cases hm
      rename_i new
      split at hm
      · cases hm
      rename_i groupOutput leads
      obtain ⟨rfl, rfl, rfl⟩ := Moment.asks.inj (List.mem_singleton.1 hm)
      exact h.enter kind calls (by simpa using new) (separate.groupOutput leads) _
    | formal =>
      rw [task] at hm
      dsimp only at hm
      rw [formalMoments_eq] at hm
      split at hm
      · cases hm
      rename_i inside frame around call
      -- The argument is read outside of the innermost call, where its call site stands.
      obtain ⟨-, stack⟩ := h.placed.innermostCall? call
      split at hm
      · cases hm
      have own : Plan.Local (s.graph.Feeds frame.callSite) (fun _ _ _ => False)
        (argument s.graph frame.callSite output) := argument_local output
      have around : Spans s.graph start around frame.callSite := (stack ▸ h).leave
      exact Plan.spans_of_asks separate steady own.asksAmong around hm

end

/-! ## Walks -/

/-- The outputs that are asked for while an output is lowered, itself among them, and their states. -/
def Setting.asked (s : Setting) (depth : Nat) (call : NodeId × String × WalkState) :
    List (NodeId × String × WalkState) :=
  call :: (Walk.events s depth call.1 call.2.1 call.2.2).filterMap Event.asked?

/-- The outputs that are asked for while a question is answered outside of all calls, and their states. -/
def Question.asked (s : Setting) (question : Question) (σ : WalkState) :
    List (NodeId × String × WalkState) :=
  (question.events s σ).filterMap Event.asked?

section

variable {s : Setting}

/-- What is asked for at moments, and what is asked for where an output is asked for. -/
theorem Setting.mem_asked_of_moments {depth : Nat} {moments : List Moment}
    {call : NodeId × String × WalkState} :
    call ∈ (moments.flatMap (Moment.events (Walk.events s depth))).filterMap Event.asked? ↔
      ∃ source other τ, .asks source other τ ∈ moments ∧ call ∈ s.asked depth (source, other, τ) := by
  rw [Event.mem_asked?, Moment.asked_mem]
  constructor
  · rintro (hm | ⟨source, other, τ, hm, asked⟩)
    · exact ⟨_, _, _, hm, List.mem_cons_self⟩
    · exact ⟨source, other, τ, hm, List.mem_cons_of_mem _ (Event.mem_asked?.2 asked)⟩
  · rintro ⟨source, other, τ, hm, asked⟩
    rcases List.mem_cons.1 asked with rfl | asked
    · exact .inl hm
    · exact .inr ⟨source, other, τ, hm, Event.mem_asked?.1 asked⟩

/-- What is asked for while an output is lowered is asked for below what it asks for itself. -/
theorem Setting.mem_asked_succ {depth : Nat} {first call : NodeId × String × WalkState} :
    call ∈ s.asked (depth + 1) first ↔
      call = first ∨ ∃ next ∈ s.asksFor depth first, call ∈ s.asked depth next := by
  obtain ⟨node, output, σ⟩ := first
  refine List.mem_cons.trans (or_congr_right ?_)
  dsimp only
  rw [Walk.events_succ]
  dsimp only
  split
  · rename_i met
    refine iff_of_false List.not_mem_nil ?_
    rintro ⟨⟨source, other, τ⟩, next, -⟩
    obtain ⟨unknown, unmet, -⟩ := Setting.mem_asksFor.1 next
    exact WalkState.unlowered_iff.2 ⟨unknown, unmet⟩ met
  · rename_i unmet
    rw [List.filterMap_cons_none rfl, Setting.mem_asked_of_moments]
    constructor
    · rintro ⟨source, other, τ, hm, asked⟩
      exact ⟨_, Setting.mem_asksFor.2 (and_assoc.1 ⟨WalkState.unlowered_iff.1 unmet, hm⟩), asked⟩
    · rintro ⟨⟨source, other, τ⟩, next, asked⟩
      exact ⟨source, other, τ, (Setting.mem_asksFor.1 next).2.2, asked⟩

theorem Question.mem_asked {question : Question} {σ : WalkState}
    {call : NodeId × String × WalkState} :
    call ∈ question.asked s σ ↔ ∃ node name τ,
      .asks node name τ ∈ (question.plan s.graph).moments s.graph (Walk.lower s s.depth) σ ∧
        call ∈ s.asked s.depth (node, name, τ) := by
  rw [Question.asked, question.events_eq, Setting.mem_asked_of_moments]

/-- Outputs that are lowered were asked for. -/
theorem Setting.asked_of_lowered {depth : Nat} {node : NodeId} {output : String} {σ : WalkState}
    {key : Key} {result : Except Failure Value}
    (h : .lowered key result ∈ Walk.events s depth node output σ) :
    ∃ call ∈ s.asked depth (node, output, σ),
      (⟨call.1, call.2.1, call.2.2.scope, s.graph.material⟩ : Key) = key := by
  induction depth generalizing node output σ with
  | zero => cases h
  | succ depth ih =>
    rw [Walk.events_succ] at h
    dsimp only at h
    split at h
    · cases h
    · rename_i fresh
      rcases List.mem_cons.1 h with same | h
      · exact ⟨_, List.mem_cons_self, (Event.lowered.inj same).1.symm⟩
      · obtain ⟨source, other, τ, hm, h⟩ := Moment.exists_of_lowered h
        obtain ⟨call, asked, own⟩ := ih h
        have next : (source, other, τ) ∈ s.asksFor depth (node, output, σ) :=
          Setting.mem_asksFor.2 (and_assoc.1 ⟨WalkState.unlowered_iff.1 fresh, hm⟩)
        exact ⟨call, Setting.mem_asked_succ.2 (.inr ⟨_, next, asked⟩), own⟩

theorem Question.asked_of_lowered {question : Question} {σ : WalkState} {key : Key}
    {result : Except Failure Value} (h : .lowered key result ∈ question.events s σ) :
    ∃ call ∈ question.asked s σ, (⟨call.1, call.2.1, call.2.2.scope, s.graph.material⟩ : Key) = key := by
  rw [question.events_eq] at h
  obtain ⟨node, name, τ, hm, h⟩ := Moment.exists_of_lowered h
  obtain ⟨call, asked, own⟩ := Setting.asked_of_lowered h
  exact ⟨call, Question.mem_asked.2 ⟨node, name, τ, hm, asked⟩, own⟩

/-! ## What a walk depends on -/

section

variable {visit visit' : NodeId → String → Walk Value} {node : NodeId} {output : String} {σ : WalkState}

theorem Walk.call_congr {g : HostGraph} (same : ∀ source other τ,
      .asks source other τ ∈ callMoments g visit node output σ →
        on (visit' source other) τ = on (visit source other) τ) :
    on (call g visit' node output) σ = on (call g visit node output) σ := by
  simp only [on_call, WalkState.noting_stack]
  simp only [callMoments_eq] at same
  cases calls : g.groupTree node with
  | none => rfl
  | some tree =>
    rw [calls] at same
    dsimp only at same ⊢
    split
    · rfl
    · rename_i new
      rw [if_neg new] at same
      cases leads : g.groupOutput tree with
      | none => rfl
      | some groupOutput =>
        rw [leads] at same
        dsimp only
        rw [same _ _ _ (List.mem_singleton.2 rfl)]

theorem Walk.formal_congr {g : HostGraph} (same : ∀ source other τ,
      .asks source other τ ∈ formalMoments g visit node output σ →
        on (visit' source other) τ = on (visit source other) τ) :
    on (formal g visit' node output) σ = on (formal g visit node output) σ := by
  simp only [on_formal]
  simp only [formalMoments_eq] at same
  rcases call : innermostCall? node.tree σ.stack with _ | ⟨inside, frame, around⟩
  · rfl
  rw [call] at same
  dsimp only at same ⊢
  cases known : frame.arguments.get? output with
  | some value => rfl
  | none =>
    rw [known] at same
    dsimp only
    rw [Plan.carryOut_congr _ _ same]

/-- A step does not change with the way of finding outputs where that comes to the same for what it asks
    for, whatever the rules are. -/
theorem Walk.expand_congr (same : ∀ source other τ, .asks source other τ ∈ moments s visit node output σ →
      on (visit' source other) τ = on (visit source other) τ) :
    on (expand s visit' node output) σ = on (expand s visit node output) σ := by
  simp only [on_expand]
  simp only [moments_eq] at same
  cases passed : bypass? s.graph node with
  | some plan =>
    rw [passed] at same
    exact Plan.carryOut_congr plan σ same
  | none =>
    rw [passed] at same
    dsimp only at same ⊢
    cases task : s.table.task s.graph node output with
    | plan plan =>
      rw [task] at same
      exact Plan.carryOut_congr plan _ same
    | call =>
      rw [task] at same
      exact call_congr same
    | formal =>
      rw [task] at same
      exact formal_congr same

end

/-- Outputs are found only where the condition holds. -/
def Walk.checked (may : NodeId → String → WalkState → Bool) (visit : NodeId → String → Walk Value)
    (node : NodeId) (output : String) : Walk Value := do
  if may node output (← get) then visit node output else throw (.cyclicGraph "" output)

theorem Walk.on_checked {may : NodeId → String → WalkState → Bool} {visit : NodeId → String → Walk Value}
    {node : NodeId} {output : String} {σ : WalkState} (h : may node output σ = true) :
    on (checked may visit node output) σ = on (visit node output) σ := by
  simp only [checked, on_bind, on_get, h, if_true]

/-- The walk, where it may go on only if the condition holds of the output that is asked for and of the
    state. -/
def Walk.lowerWhere (s : Setting) (may : NodeId → String → WalkState → Bool) :
    Nat → NodeId → String → Walk Value
  | 0 => checked may (lower s 0)
  | depth + 1 => checked may (step s (lowerWhere s may depth))

theorem Setting.lowerWhere_eq {may : NodeId → String → WalkState → Bool} {depth : Nat} {node : NodeId}
    {output : String} {σ : WalkState}
    (h : ∀ call ∈ s.asked depth (node, output, σ), may call.1 call.2.1 call.2.2 = true) :
    on (Walk.lowerWhere s may depth node output) σ = on (Walk.lower s depth node output) σ := by
  induction depth generalizing node output σ with
  | zero => exact Walk.on_checked (h _ List.mem_cons_self)
  | succ depth ih =>
    refine (Walk.on_checked (h _ List.mem_cons_self)).trans ?_
    show on (Walk.step s (Walk.lowerWhere s may depth) node output) σ =
      on (Walk.step s (Walk.lower s depth) node output) σ
    simp only [Walk.on_step]
    cases known : σ.cache.get? ⟨node, output, σ.scope, s.graph.material⟩ with
    | some value => rfl
    | none =>
      dsimp only
      split
      · rfl
      rename_i unmet
      rw [Walk.expand_congr fun source other τ hm => ih fun call asked => ?_]
      have next : (source, other, τ) ∈ s.asksFor depth (node, output, σ) :=
        Setting.mem_asksFor.2 ⟨known, unmet, hm⟩
      exact h call (Setting.mem_asked_succ.2 (.inr ⟨_, next, asked⟩))

/-- A walk depends on nothing but the outputs that were asked for: a condition that holds of them all
    changes nothing. -/
theorem Question.lowerWhere_eq {may : NodeId → String → WalkState → Bool} {question : Question}
    {σ : WalkState} (h : ∀ call ∈ question.asked s σ, may call.1 call.2.1 call.2.2 = true) :
    on (Walk.carryOut s.graph (Walk.lowerWhere s may s.depth) (question.plan s.graph)) σ =
      on (Walk.planned s (question.plan s.graph)) σ := by
  refine Plan.carryOut_congr _ _ fun node output τ hm => Setting.lowerWhere_eq fun call asked => ?_
  exact h call (Question.mem_asked.2 ⟨node, output, τ, hm, asked⟩)

end

/-! ## The stack along a walk -/

/-- Wherever an output is asked for while another one is lowered, the stack leads to its node. -/
theorem Setting.spans_of_asked {s : Setting} (separate : s.graph.Separate) {start : TreeId} {depth : Nat}
    {node : NodeId} {output : String} {σ : WalkState} (h : Spans s.graph start σ.stack node) :
    ∀ call ∈ s.asked depth (node, output, σ), Spans s.graph start call.2.2.stack call.1 := by
  induction depth generalizing node output σ with
  | zero =>
    intro call hm
    rw [List.mem_singleton.1 hm]
    exact h
  | succ depth ih =>
    intro call hm
    rcases Setting.mem_asked_succ.1 hm with rfl | ⟨⟨source, other, τ⟩, asked, hm⟩
    · exact h
    · have begun : Spans s.graph start { σ with active :=
        ⟨node, output, σ.scope, s.graph.material⟩ :: σ.active }.stack node := h
      have moment := (Setting.mem_asksFor.1 asked).2.2
      exact ih (Walk.spans_of_asks separate (Walk.lower_evolves s depth) begun moment) call hm

namespace Question

/-- The tree of the node that is asked about. The node of the root is in the material's own tree. -/
def tree : Question → TreeId
  | .root => .material
  | .output node _ | .input node _ | .inputLink node _ | .inputDefault node _ | .requiredLink node _
  | .groupInput node _ => node.tree

/-- A question asks for outputs in the tree of its node. -/
theorem plan_asks (d : Document) {visit : NodeId → String → Walk Value} (question : Question) :
    (question.plan d.graph).AsksAmong d.graph visit fun source _ => source.tree = question.tree := by
  have nothing : NodeId → String → String → Prop := fun _ _ _ => False
  have fed : ∀ {node : NodeId} {plan : Plan Value}, plan.AsksAmong d.graph visit (d.graph.Feeds node) →
      plan.AsksAmong d.graph visit fun source _ => source.tree = node.tree :=
    fun asks σ source output τ hm => d.graph_separate.feeds (asks σ source output τ hm)
  have single : ∀ (node : NodeId) name, (Plan.output node name).AsksAmong d.graph visit
      fun source _ => source.tree = node.tree := by
    intro node name
    have own : Plan.Local (fun source _ => source.tree = node.tree) nothing (Plan.output node name) :=
      .visit rfl .done
    exact own.asksAmong
  cases question with
  | root =>
    unfold plan
    cases found : d.graph.outputNode with
    | none =>
      intro σ node name τ hm
      cases hm
    | some node =>
      have inside : node.tree = .material := (Document.firstOfKind?_spec found).1
      have asks := single node Walk.surface
      rwa [inside] at asks
  | output node name => exact single node name
  | input node key => exact fed (Plan.input_local key : Plan.Local _ nothing _).asksAmong
  | inputLink node key => exact fed (Plan.inputLink_local key : Plan.Local _ nothing _).asksAmong
  | inputDefault node key => exact fed (Plan.inputDefault_local key : Plan.Local _ nothing _).asksAmong
  | requiredLink node key => exact fed (Plan.requiredLink_local key : Plan.Local _ nothing _).asksAmong
  | groupInput node name =>
    intro σ node name τ hm
    cases hm

end Question

/-- Wherever a question asks for an output, the stack leads to its node. -/
theorem Question.spans_of_asked (d : Document) {table : RuleTable} {depth : Nat} (question : Question)
    {σ : WalkState} (outside : σ.stack = []) :
    ∀ call ∈ question.asked { d.setting table with depth } σ,
      Spans d.graph question.tree call.2.2.stack call.1 := by
  intro call hm
  obtain ⟨node, name, τ, asked, hm⟩ := Question.mem_asked.1 hm
  have steady := Walk.lower_evolves { d.setting table with depth } depth
  have evolves := Plan.evolves_moment steady _ σ asked
  have inside : node.tree = question.tree := question.plan_asks d σ node name τ asked
  have stack : τ.stack = [] := evolves.stack_eq_nil outside
  have begun : Spans d.graph question.tree τ.stack node := by
    rw [stack, ← inside]
    exact .outside node
  have separate : Setting.graph { d.setting table with depth } |>.Separate := d.graph_separate
  exact Setting.spans_of_asked separate begun call hm

/-! ## The stack as a whole -/

/-- The stack mirrors how a walk that began in the tree came to the node. -/
structure StackMirrors (g : HostGraph) (start : TreeId) (stack : List Frame) (node : NodeId) : Prop where
  /-- The node is in the tree of the innermost call, or where the walk began. -/
  innermost : node.tree = (stack.head?.map Frame.tree).getD start
  /-- The outermost call stands where the walk began. -/
  outermost : ∀ frame ∈ stack.getLast?, frame.callSite.tree = start
  /-- Every other call stands in the tree of the next call around it. -/
  between : stack.IsChain fun inner around => inner.callSite.tree = around.tree
  /-- The trees are those that the calls lead to. -/
  calls : ∀ frame ∈ stack, g.groupTree frame.callSite = some frame.tree
  /-- No two calls are of one tree. -/
  apart : (stack.map Frame.tree).Nodup

namespace Spans

variable {g : HostGraph} {start : TreeId} {stack : List Frame} {node : NodeId}

/-- A stack that leads from a tree to a node mirrors the way. -/
theorem mirrors (h : Spans g start stack node) : StackMirrors g start stack node := by
  induction stack generalizing node with
  | nil => exact ⟨h.outermost, nofun, .nil, nofun, .nil⟩
  | cons frame around ih =>
    have rest := ih h.leave
    obtain ⟨⟨within, -, calls, new, -⟩, -⟩ := h
    refine ⟨within, ?_, ?_, List.forall_mem_cons.2 ⟨calls, rest.calls⟩,
      List.nodup_cons.2 ⟨new, rest.apart⟩⟩
    · cases around with
      | nil =>
        intro outer hm
        obtain rfl : frame = outer := Option.some.inj hm
        exact rest.innermost
      | cons next further =>
        rw [List.getLast?_cons_cons]
        exact rest.outermost
    · cases around with
      | nil => exact .singleton frame
      | cons next further => exact .cons_cons rest.innermost rest.between

end Spans

/-- A call without the arguments that it remembers. -/
def Frame.bare (frame : Frame) : Frame := { frame with arguments := .empty }

/-- The calls of nodes, none of whose arguments are known. -/
def HostGraph.framesOf (g : HostGraph) (scope : List NodeId) : List Frame :=
  scope.filterMap fun callSite => (g.groupTree callSite).map fun tree => ⟨callSite, tree, .empty⟩

namespace StackMirrors

variable {g : HostGraph} {start : TreeId} {stack : List Frame} {node : NodeId}

/-- The innermost call of the node's tree is the innermost one of all, if there is any. -/
theorem innermostCall?_eq (h : StackMirrors g start stack node) :
    Walk.innermostCall? node.tree stack =
      stack.head?.map fun frame => ([], frame, stack.tail) := by
  have innermost := h.innermost
  cases stack with
  | nil => rfl
  | cons frame around => exact if_pos innermost.symm

/-- Arguments aside, the stack can be told from its call sites. -/
theorem map_bare (h : StackMirrors g start stack node) :
    stack.map Frame.bare = g.framesOf (stack.map Frame.callSite) := by
  have calls := h.calls
  clear h
  unfold HostGraph.framesOf
  rw [List.filterMap_map]
  induction stack with
  | nil => rfl
  | cons frame around ih =>
    obtain ⟨call, rest⟩ := List.forall_mem_cons.1 calls
    have here : ((fun callSite => (g.groupTree callSite).map fun tree =>
        (⟨callSite, tree, .empty⟩ : Frame)) ∘ Frame.callSite) frame = some frame.bare := by
      simp only [Function.comp_apply, call]
      rfl
    rw [List.map_cons, List.filterMap_cons_some here, ih rest]

end StackMirrors

/-! ## Documents -/

namespace Document

/-- Wherever a walk that begins outside of all calls asks for an output, the stack mirrors how it came to
    the node from the tree where it began, whatever the rules are and whatever was asked before. So the
    innermost call of the node's tree, from which a formal input takes its argument, is the topmost one
    or there is none; and the call sites in the key of an output determine the whole stack but for the
    arguments that are remembered. -/
theorem stack_mirrors (d : Document) (table : RuleTable) (depth : Nat) (question : Question)
    {σ : WalkState} (outside : σ.stack = []) {node : NodeId} {output : String} {τ : WalkState}
    (asked : (node, output, τ) ∈ question.asked { d.setting table with depth } σ) :
    StackMirrors d.graph question.tree τ.stack node ∧
      Walk.innermostCall? node.tree τ.stack =
        τ.stack.head?.map (fun frame => ([], frame, τ.stack.tail)) ∧
      τ.stack.map Frame.bare = d.graph.framesOf τ.scope := by
  have mirrors := (question.spans_of_asked d outside _ asked).mirrors
  exact ⟨mirrors, mirrors.innermostCall?_eq, mirrors.map_bare⟩

/-- Inside the group that is called by a node of a group that is called. -/
theorem stack_mirrors_nested :
    let question : Question := .output ⟨.material, 2⟩ "y"
    (WalkState.start .empty).stack = [] ∧
      ∃ node output τ, (node, output, τ) ∈ question.asked (nested.setting .builtin) (.start .empty) ∧
        τ.stack.length = 2 ∧ StackMirrors nested.graph .material τ.stack node := by
  intro question
  have deep : ∃ call ∈ question.asked (nested.setting .builtin) (.start .empty),
      call.2.2.stack.length = 2 := by
    decide +kernel
  obtain ⟨⟨node, output, τ⟩, asked, two⟩ := deep
  exact ⟨rfl, node, output, τ, asked, two,
    (nested.stack_mirrors .builtin nested.walkDepth question rfl asked).1⟩

/-- A walk that goes on only where the stack mirrors how it came to the node comes to the same. -/
theorem lowerWhere_eq (d : Document) (table : RuleTable) (question : Question) {σ : WalkState}
    (outside : σ.stack = []) {may : NodeId → String → WalkState → Bool}
    (lets : ∀ node output (τ : WalkState), StackMirrors d.graph question.tree τ.stack node →
      may node output τ = true) :
    on (Walk.carryOut d.graph (Walk.lowerWhere (d.setting table) may d.walkDepth)
        (question.plan d.graph)) σ =
      on (Walk.planned (d.setting table) (question.plan d.graph)) σ :=
  question.lowerWhere_eq fun call asked =>
    lets call.1 call.2.1 call.2.2 (question.spans_of_asked d outside call asked).mirrors

end Document

end MaterialLowering
