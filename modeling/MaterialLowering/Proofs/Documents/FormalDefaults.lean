import MaterialLowering.Proofs.Rules.Accounts

/-!
# Defaults of formal inputs

A formal input comes to the argument of the call, and to a default where that is nothing. The frame of
the call remembers what it came to under the name of the formal alone: where a tree has several
group-input nodes, the default is that of the one which was read first. So a formal input comes to the
default that its own node declares as long as the group-input nodes of the tree agree on it.

Main definitions:
* `HostGraph.Fills`: the value of a formal input in a call.
* `Filled`: everything that is remembered of formal inputs has such a value.
* `Asked`: the states in which a walk asks for an output.

Results:
* `Walk.lower_filled`: a walk keeps formal inputs filled.
* `Asked.situated`: what holds wherever an output is asked for.
* `Document.formal_default`: a formal input whose argument is nothing comes to its own default.
-/

namespace MaterialLowering

open Walk (on)

/-! ## Formal inputs -/

/-- The value of a formal input in a call of a tree, inside the calls of `scope`: what the call site
    receives for it, or else the default that some group-input node of the tree declares. -/
def HostGraph.Fills (g : HostGraph) (entries : List (Key × Value)) (tree : TreeId) (callSite : NodeId)
    (scope : List NodeId) (name : String) (v : Value) : Prop :=
  ∃ input found, g.IsGroupInput input ∧ input.tree = tree ∧
    g.Receives (fun key v => (key, v) ∈ entries) callSite scope name
      (fun socket => .ofLanes? socket.default) found ∧
    v = found.or (.ofLanes? (g.outputDefault input name))

/-- The arguments that calls remember are values of their formal inputs. -/
def FramesFilled (g : HostGraph) (entries : List (Key × Value)) : List Frame → Prop
  | [] => True
  | frame :: around =>
    (∀ name v, frame.arguments.get? name = some v →
      g.Fills entries frame.tree frame.callSite (around.map Frame.callSite) name v) ∧
    FramesFilled g entries around

/-- Everything that is remembered of formal inputs is a value of theirs, and no output is in the cache
    twice. -/
structure Filled (g : HostGraph) (cache : Cache) (stack : List Frame) : Prop where
  distinct : cache.outputs.Distinct
  outputs : ∀ node callSite scope name v, g.IsGroupInput node →
    (⟨node, name, callSite :: scope, g.material⟩, v) ∈ cache.outputs.entries →
      g.Fills cache.outputs.entries node.tree callSite scope name v
  stack : FramesFilled g cache.outputs.entries stack

section

variable {g : HostGraph} {entries entries' : List (Key × Value)} {cache : Cache}
  {stack inside around : List Frame} {frame : Frame}

theorem HostGraph.Fills.mono {tree : TreeId} {callSite : NodeId} {scope : List NodeId} {name : String}
    {v : Value} (h : g.Fills entries tree callSite scope name v) (more : entries ⊆ entries') :
    g.Fills entries' tree callSite scope name v := by
  obtain ⟨input, found, reads, within, received, value⟩ := h
  exact ⟨input, found, reads, within, received.mono fun _ _ hm => more hm, value⟩

/-- Where the argument is nothing and the tree agrees on the default of a formal input, that is its
    value. -/
theorem HostGraph.Fills.eq_default {tree : TreeId} {callSite : NodeId} {scope : List NodeId}
    {name : String} {v : Value} (h : g.Fills entries tree callSite scope name v) {default : Option Lanes}
    (alike : ∀ input, g.IsGroupInput input → input.tree = tree → g.outputDefault input name = default)
    (nothing : ∀ found, g.Receives (fun key v => (key, v) ∈ entries) callSite scope name
      (fun socket => .ofLanes? socket.default) found → found = .unset) : v = .ofLanes? default := by
  obtain ⟨input, found, reads, within, received, rfl⟩ := h
  rw [nothing found received, alike input reads within]
  rfl

theorem FramesFilled.mono (h : FramesFilled g entries stack) (more : entries ⊆ entries') :
    FramesFilled g entries' stack := by
  induction stack with
  | nil => trivial
  | cons frame around ih => exact ⟨fun name v hv => (h.1 name v hv).mono more, ih h.2⟩

/-- The calls around an innermost one may change, as long as they are the same calls. -/
theorem FramesFilled.behind {frame : Frame} {around around' : List Frame}
    (h : FramesFilled g entries (frame :: around)) (more : entries ⊆ entries')
    (calls : around'.map Frame.callSite = around.map Frame.callSite)
    (rest : FramesFilled g entries' around') : FramesFilled g entries' (frame :: around') :=
  ⟨fun name v hv => calls ▸ (h.1 name v hv).mono more, rest⟩

/-- The innermost call remembers one more value of its formal inputs. -/
theorem FramesFilled.remember {frame : Frame} {around : List Frame}
    (h : FramesFilled g entries (frame :: around)) {name : String} {v : Value}
    (fills : g.Fills entries frame.tree frame.callSite (around.map Frame.callSite) name v) :
    FramesFilled g entries ({ frame with arguments := frame.arguments.put name v } :: around) := by
  refine ⟨fun other w hw => ?_, h.2⟩
  rw [Memo.get?_put] at hw
  split at hw
  · rename_i same
    cases hw
    exact same ▸ fills
  · exact h.1 other w hw

theorem FramesFilled.tail (h : FramesFilled g entries stack) : FramesFilled g entries stack.tail := by
  cases stack with
  | nil => trivial
  | cons frame around => exact h.2

namespace Filled

theorem start (g : HostGraph) : Filled g .empty [] := ⟨.nil, fun _ _ _ _ _ _ h => (by cases h), trivial⟩

theorem withStack (h : Filled g cache stack) {stack' : List Frame}
    (hs : FramesFilled g cache.outputs.entries stack') : Filled g cache stack' :=
  ⟨h.distinct, h.outputs, hs⟩

/-- An output comes into the cache, which has a value of the formal input if it is one. -/
theorem put (h : Filled g cache stack) {key : Key} {value : Value} (new : cache.get? key = none)
    (own : ∀ callSite scope, g.IsGroupInput key.node → key.scope = callSite :: scope →
      g.Fills cache.outputs.entries key.node.tree callSite scope key.output value) :
    Filled g (cache.put key value) stack := by
  have entries : (cache.put key value).outputs.entries = (key, value) :: cache.outputs.entries :=
    Memo.entries_put_of_get?_eq_none value new
  have more : cache.outputs.entries ⊆ (cache.put key value).outputs.entries := by
    rw [entries]
    exact List.subset_cons_self _ _
  refine ⟨h.distinct.put key value, fun node callSite scope name v reads hm => ?_, h.stack.mono more⟩
  rw [entries] at hm
  rcases List.mem_cons.1 hm with hm | hm
  · obtain ⟨rfl, rfl⟩ := Prod.mk.inj hm
    exact (own callSite scope reads rfl).mono more
  · exact (h.outputs node callSite scope name v reads hm).mono more

end Filled

end

/-! ## Plans -/

/-- Every output keeps formal inputs filled, down to a depth. -/
def LowersFilled (s : Setting) (depth : Nat) : Prop :=
  ∀ node output σ, Placed s.graph σ.stack node → Filled s.graph σ.cache σ.stack →
    Filled s.graph (on (Walk.lower s depth node output) σ).2.cache
      (on (Walk.lower s depth node output) σ).2.stack

variable {s : Setting} {fixed : Key → Prop} {depth : Nat} {σ : WalkState}

/-- A plan keeps formal inputs filled if the outputs do that it asks for. -/
theorem Plan.filled {α : Type} (hv : LowersFilled s depth) {asks : NodeId → String → Prop}
    {keeps : NodeId → String → String → Prop} {plan : Plan α} (own : Plan.Local asks keeps plan)
    (within : ∀ source output, asks source output → Placed s.graph σ.stack source)
    (h : Filled s.graph σ.cache σ.stack) :
    Filled s.graph (on (Walk.carryOut s.graph (Walk.lower s depth) plan) σ).2.cache
        (on (Walk.carryOut s.graph (Walk.lower s depth) plan) σ).2.stack ∧
      ∀ moment ∈ plan.moments s.graph (Walk.lower s depth) σ,
        Filled s.graph moment.state.cache moment.state.stack := by
  induction own generalizing σ with
  | done | fail => exact ⟨h, fun _ hm => (by cases hm)⟩
  | @visit source output next asked _ ih =>
    have here := hv source output σ (within source output asked) h
    have evolves := Walk.lower_evolves s depth source output σ
    simp only [Walk.carryOut, Walk.on_bind, moments_visit]
    generalize on (Walk.lower s depth source output) σ = run at here evolves ⊢
    obtain ⟨failure | value, σ'⟩ := run
    · exact ⟨here, List.forall_mem_singleton.2 h⟩
    · obtain ⟨later, states⟩ := ih value (fun source output asked =>
        (within source output asked).of_extends evolves.stack) here
      exact ⟨later, List.forall_mem_append.2 ⟨states, List.forall_mem_singleton.2 h⟩⟩
  | @create kind params next _ ih =>
    obtain ⟨later, states⟩ := @ih _ { σ with recording := (σ.recording.create kind params).2 } within h
    rw [moments_create]
    exact ⟨later, List.forall_mem_append.2 ⟨states, List.forall_mem_singleton.2 h⟩⟩
  | @image descriptor next _ ih =>
    obtain ⟨later, states⟩ :=
      @ih _ { σ with recording := (σ.recording.materialize descriptor).2 } within h
    rw [moments_image]
    exact ⟨later, List.forall_mem_append.2 ⟨states, List.forall_mem_singleton.2 h⟩⟩
  | report _ ih =>
    rw [moments_report]
    exact ih within h
  | known _ _ ih =>
    rw [moments_known]
    exact ih _ within h
  | @remember node output name value next _ _ ih =>
    let key : Key := ⟨node, output, σ.scope, s.graph.material⟩
    obtain ⟨later, states⟩ := @ih { σ with cache := σ.cache.putSubNode key name value } within
      ⟨h.distinct, h.outputs, h.stack⟩
    rw [moments_remember]
    exact ⟨later, List.forall_mem_append.2 ⟨states, List.forall_mem_singleton.2 h⟩⟩

namespace Walk

variable {callSite : NodeId} {name : String}

/-- An argument is what the call site received. -/
theorem receives_of_argument {v : Value} {σ' : WalkState}
    (run : on (carryOut s.graph (lower s depth) (argument s.graph callSite name)) σ = (.ok v, σ')) :
    s.graph.Receives (fun key v => (key, v) ∈ σ'.cache.outputs.entries) callSite σ.scope name
      (fun socket => .ofLanes? socket.default) v := by
  unfold argument at run
  split at run
  · exact receives_of_throughLink run
  · cases run

/-- An argument that was received before is found again. -/
theorem argument_received {found v : Value} (distinct : σ.cache.outputs.Distinct)
    (received : s.graph.Receives (fun key v => (key, v) ∈ σ.cache.outputs.entries) callSite σ.scope name
      (fun socket => .ofLanes? socket.default) found)
    (run : (on (carryOut s.graph (lower s depth) (argument s.graph callSite name)) σ).1 = .ok v) :
    found = v := by
  obtain ⟨socket, hs, received⟩ := received
  unfold argument at run
  rw [hs, Option.isSome_some, if_pos rfl, Plan.input, Plan.throughLink_eq, hs] at run
  dsimp only at run
  cases checked : s.graph.checkedLink callSite socket with
  | error failure =>
    rw [checked] at run
    cases run
  | ok link =>
    rw [checked] at run
    cases link with
    | none =>
      rw [HostGraph.visibleLink_of_checkedLink_none checked] at received
      cases run
      exact received
    | some link =>
      rw [HostGraph.visibleLink_of_checkedLink checked] at received
      have known : σ.cache.get? ⟨link.node, link.output, σ.scope, s.graph.material⟩ = some found :=
        Memo.get?_of_mem distinct received
      cases depth with
      | zero => cases run
      | succ depth =>
        have here : on (lower s (depth + 1) link.node link.output) σ = _ :=
          on_step s link.node link.output σ
        simp only [known] at here
        simp only [carryOut, on_bind, here] at run
        cases run
        rfl

/-- An argument asks for nothing but the output that its link leads from. -/
theorem asks_of_argument {visit : NodeId → String → Walk Value} {source : NodeId} {output : String}
    {τ : WalkState}
    (hm : .asks source output τ ∈ (argument s.graph callSite name).moments s.graph visit σ) :
    ∃ socket link, s.graph.input callSite (.name name) = some socket ∧ socket.visibleLink = some link ∧
      link.node = source ∧ link.output = output ∧ τ = σ := by
  unfold argument at hm
  split at hm
  · rw [Plan.input, Plan.throughLink_eq] at hm
    cases hs : s.graph.input callSite (.name name) with
    | none =>
      rw [hs] at hm
      cases hm
    | some socket =>
      rw [hs] at hm
      dsimp only at hm
      cases checked : s.graph.checkedLink callSite socket with
      | error failure =>
        rw [checked] at hm
        cases hm
      | ok link =>
        rw [checked] at hm
        cases link with
        | none => cases hm
        | some link =>
          have single : (.asks source output τ : Moment) ∈ [.asks link.node link.output σ] := by
            rw [Plan.moments_visit] at hm
            split at hm <;> exact hm
          obtain ⟨rfl, rfl, rfl⟩ := Moment.asks.inj (List.mem_singleton.1 single)
          exact ⟨socket, link, rfl, HostGraph.visibleLink_of_checkedLink checked, rfl, rfl, rfl⟩
  · cases hm

/-- The argument of a formal input is read around the call, and the call may remember it. -/
theorem argument_filled (regular : s.Regular fixed) (hv : LowersFilled s depth) {node : NodeId}
    {frame : Frame} (placed : Placed s.graph (frame :: σ.stack) node)
    (before : Filled s.graph σ.cache (frame :: σ.stack)) (name : String)
    {run : Except Failure Value × WalkState}
    (ran : on (carryOut s.graph (lower s depth) (argument s.graph frame.callSite name)) σ = run) :
    Filled s.graph run.2.cache (frame :: run.2.stack) ∧
      (∀ moment ∈ (argument s.graph frame.callSite name).moments s.graph (lower s depth) σ,
        Filled s.graph moment.state.cache moment.state.stack) ∧
      ∀ found, run.1 = .ok found → s.graph.IsGroupInput node →
        s.graph.Fills run.2.cache.outputs.entries frame.tree frame.callSite σ.scope name
          (found.or (.ofLanes? (s.graph.outputDefault node name))) := by
  have own : Plan.Local (s.graph.Feeds frame.callSite) (fun _ _ _ => False)
    (argument s.graph frame.callSite name) := argument_local name
  obtain ⟨after, states⟩ := Plan.filled hv own
    (fun _ _ feeds => placed.2.2.2.2.of_tree (regular.feeds _ _ _ feeds))
    (before.withStack before.stack.2)
  have evolves := carryOut_evolves (g := s.graph) (lower_evolves s depth)
    (argument s.graph frame.callSite name) σ
  have received : ∀ {v σ'}, on (carryOut s.graph (lower s depth)
      (argument s.graph frame.callSite name)) σ = (.ok v, σ') →
        s.graph.Receives _ frame.callSite σ.scope name _ v := receives_of_argument
  rw [ran] at after evolves
  refine ⟨after.withStack (.behind before.stack evolves.cache_subset evolves.stack.callSites after.stack),
    states, fun found ok input => ?_⟩
  -- The value is remembered under the formal's name, with the default of the node that was asked.
  exact ⟨node, found, input, placed.1, received (ran.trans (Prod.ext ok rfl)), rfl⟩

end Walk

/-! ## Steps -/

/-- Formal inputs are filled at the end of a step and at its moments, and it comes to a value of the
    formal input if the node is a group-input node. -/
structure StepFilled (s : Setting) (node : NodeId) (output : String) (σ : WalkState)
    (run : Except Failure Value × WalkState) (moments : List Moment) : Prop where
  filled : Filled s.graph run.2.cache run.2.stack
  states : ∀ moment ∈ moments, Filled s.graph moment.state.cache moment.state.stack
  own : ∀ v callSite scope, run.1 = .ok v → s.graph.IsGroupInput node → σ.scope = callSite :: scope →
    s.graph.Fills run.2.cache.outputs.entries node.tree callSite scope output v

/-- A formal input is no rule's. -/
theorem RuleTable.task_of_isGroupInput {table : RuleTable} (plain : table.get? .groupInput = none)
    {g : HostGraph} {node : NodeId} (input : g.IsGroupInput node) (output : String) :
    table.task g node output = .formal := by
  unfold task resolve?
  simp only [input.1, plain]
  rfl

namespace Expansion

variable {node : NodeId} {output : String}
  {run : (NodeId → String → Walk Value) → Except Failure Value × WalkState}
  {moments : (NodeId → String → Walk Value) → List Moment}

/-- A step keeps formal inputs filled if the outputs do that it asks for. -/
theorem filled (h : Expansion s node output σ run moments) (regular : s.Regular fixed)
    (plain : s.table.get? .groupInput = none) (hv : LowersFilled s depth)
    (placed : Placed s.graph σ.stack node) (before : Filled s.graph σ.cache σ.stack) :
    StepFilled s node output σ (run (Walk.lower s depth)) (moments (Walk.lower s depth)) := by
  cases h with
  | @planned plan log origin own =>
    obtain ⟨after, states⟩ := Plan.filled (σ := { σ with log }) hv own
      (fun _ _ feeds => placed.of_tree (regular.feeds _ _ _ feeds)) before
    refine ⟨after, states, fun v callSite scope _ input => ?_⟩
    rcases origin with bypassed | task
    · rw [input.2] at bypassed
      cases bypassed
    · rw [RuleTable.task_of_isGroupInput plain input] at task
      cases task
  | stopped | reentered => exact ⟨before, fun _ hm => (by cases hm), fun _ _ _ no => by cases no⟩
  | @called tree groupOutput log kind calls new leads =>
    have entered : Filled s.graph σ.cache (⟨node, tree, .empty⟩ :: σ.stack) :=
      before.withStack ⟨fun _ _ h => (by cases h), before.stack⟩
    have inside := hv groupOutput output
      { σ with log, stack := ⟨node, tree, .empty⟩ :: σ.stack }
      ⟨regular.groupOutput _ _ leads, kind, calls, new, placed⟩ entered
    refine ⟨?_, List.forall_mem_singleton.2 entered, fun v callSite scope _ input => ?_⟩
    · dsimp only
      rw [WalkState.leaving_cache, WalkState.leaving_stack]
      exact inside.withStack inside.stack.tail
    · rw [input.1] at kind
      cases kind
  | @supplied inside around frame value log input call known =>
    obtain ⟨-, stack⟩ := placed.innermostCall? call
    refine ⟨before, fun _ hm => (by cases hm), fun v callSite scope ok _ inner => ?_⟩
    have frames := before.stack
    rw [WalkState.scope] at inner
    rw [stack] at frames placed inner
    obtain ⟨rfl, rfl⟩ : frame.callSite = callSite ∧ around.map Frame.callSite = scope := by
      simpa using inner
    cases ok
    rw [placed.1]
    exact frames.1 output value known
  | @argued inside around frame log input call unknown =>
    obtain ⟨rfl, stack⟩ := placed.innermostCall? call
    have scope : σ.scope = frame.callSite :: around.map Frame.callSite := by
      rw [WalkState.scope, stack, List.map_cons]
    rw [stack] at before placed
    obtain ⟨after, states, fills⟩ := Walk.argument_filled (σ := { σ with log, stack := around })
      regular hv placed before output rfl
    have evolves := Walk.carryOut_evolves (g := s.graph) (Walk.lower_evolves s depth)
      (Walk.argument s.graph frame.callSite output) { σ with log, stack := around }
    dsimp only
    generalize on (Walk.carryOut s.graph (Walk.lower s depth) (Walk.argument s.graph frame.callSite
      output)) { σ with log, stack := around } = argument at after evolves fills ⊢
    obtain ⟨failure | found, σ'⟩ := argument
    · exact ⟨after, states, fun _ _ _ no => by cases no⟩
    · have fills := fills found rfl input
      have calls : σ'.stack.map Frame.callSite = around.map Frame.callSite := evolves.stack.callSites
      rw [WalkState.scope, ← calls] at fills
      have remembered := after.stack.remember fills
      refine ⟨after.withStack remembered, states, fun v callSite scope' ok _ inner => ?_⟩
      rw [scope] at inner
      obtain ⟨rfl, rfl⟩ := List.cons.inj inner
      cases ok
      rw [placed.1, ← calls]
      exact fills

/-- A formal input that asks for an output waits for what the call site's link leads from. -/
theorem asks_formal (h : Expansion s node output σ run moments) (plain : s.table.get? .groupInput = none)
    (input : s.graph.IsGroupInput node) (placed : Placed s.graph σ.stack node)
    {visit : NodeId → String → Walk Value} {source : NodeId} {other : String} {τ : WalkState}
    (hm : .asks source other τ ∈ moments visit) {callSite : NodeId} {scope : List NodeId}
    (inner : σ.scope = callSite :: scope) :
    ∃ socket link, s.graph.input callSite (.name output) = some socket ∧
      socket.visibleLink = some link ∧ link.node = source ∧ link.output = other ∧ τ.scope = scope := by
  cases h with
  | planned _ origin =>
    rcases origin with bypassed | task
    · rw [input.2] at bypassed
      cases bypassed
    · rw [RuleTable.task_of_isGroupInput plain input] at task
      cases task
  | stopped | reentered | supplied => cases hm
  | called _ kind =>
    rw [input.1] at kind
    cases kind
  | @argued inside around frame _ _ call _ =>
    obtain ⟨-, stack⟩ := placed.innermostCall? call
    rw [WalkState.scope, stack] at inner
    obtain ⟨rfl, rfl⟩ : frame.callSite = callSite ∧ around.map Frame.callSite = scope := by
      simpa using inner
    obtain ⟨socket, link, found, visible, source, output, rfl⟩ := Walk.asks_of_argument hm
    exact ⟨socket, link, found, visible, source, output, rfl⟩

end Expansion

/-! ## Walks -/

/-- Every output keeps formal inputs filled. -/
theorem Walk.lower_filled (regular : s.Regular fixed) (plain : s.table.get? .groupInput = none)
    (depth : Nat) : LowersFilled s depth := by
  induction depth with
  | zero => exact fun _ _ _ _ h => h
  | succ depth ih =>
    intro node output σ placed before
    have lowering := lowering s depth node output σ
    generalize on (lower s (depth + 1) node output) σ = run, events s (depth + 1) node output σ = told
      at lowering ⊢
    cases lowering with
    | known | waiting => exact before
    | @new key result σ' own unknown unmet ran =>
      subst own
      have step := (expansion regular.rules node output
        { σ with active := ⟨node, output, σ.scope, s.graph.material⟩ :: σ.active }).filled regular plain
          ih placed before
      have evolves := expand_evolves s (lower_evolves s depth) node output
        { σ with active := ⟨node, output, σ.scope, s.graph.material⟩ :: σ.active }
      rw [ran] at step evolves
      cases result with
      | error failure => exact step.filled
      | ok value =>
        have absent := evolves.notMem_keys List.mem_cons_self unknown
        refine step.filled.put (Memo.get?_eq_none.2 fun entry he same => absent ?_) fun callSite scope =>
          step.own value callSite scope rfl
        exact List.mem_map.2 ⟨entry, he, same⟩

/-- A question keeps formal inputs filled, and they are filled wherever it asks for an output. -/
theorem Question.filled (regular : s.Regular fixed) (plain : s.table.get? .groupInput = none)
    (question : Question) (outside : σ.stack = []) (h : Filled s.graph σ.cache σ.stack) :
    Filled s.graph (Walk.ask s question σ).cache (Walk.ask s question σ).stack ∧
      ∀ moment ∈ (question.plan s.graph).moments s.graph (Walk.lower s s.depth) σ,
        Filled s.graph moment.state.cache moment.state.stack := by
  obtain ⟨asks, own⟩ := question.plan_local s.graph
  rw [question.ask_eq outside]
  exact Plan.filled (Walk.lower_filled regular plain s.depth) own
    (fun _ _ _ => by rw [outside]; trivial) h

/-- Formal inputs are filled between questions. -/
theorem Reached.filled (reached : Reached s σ) (regular : s.Regular fixed)
    (plain : s.table.get? .groupInput = none) : Filled s.graph σ.cache σ.stack := by
  induction reached with
  | start r => exact .start s.graph
  | ask reached question ih => exact (question.filled regular plain reached.idle.1 ih).1
  | recorded _ _ ih => exact ih

/-! ## Where outputs are asked for -/

/-- The states in which a walk asks for an output, and how deep it may still go there: while it answers
    a question, or while it lowers an output that it asked for. -/
inductive Asked (s : Setting) : Nat → NodeId → String → WalkState → Prop
  | answering {σ τ : WalkState} {node : NodeId} {output : String} (reached : Reached s σ)
      (question : Question)
      (hm : .asks node output τ ∈ (question.plan s.graph).moments s.graph (Walk.lower s s.depth) σ) :
      Asked s s.depth node output τ
  | lowering {depth : Nat} {σ τ : WalkState} {node source : NodeId} {output other : String}
      (h : Asked s (depth + 1) node output σ)
      (unknown : σ.cache.get? ⟨node, output, σ.scope, s.graph.material⟩ = none)
      (unmet : ⟨node, output, σ.scope, s.graph.material⟩ ∉ σ.active)
      (hm : .asks source other τ ∈ Walk.moments s (Walk.lower s depth) node output
        { σ with active := ⟨node, output, σ.scope, s.graph.material⟩ :: σ.active }) :
      Asked s depth source other τ

/-- What an output asks for when it is lowered, and in which states. -/
def Setting.asksFor (s : Setting) (depth : Nat) :
    NodeId × String × WalkState → List (NodeId × String × WalkState)
  | (node, output, σ) =>
    let key : Key := ⟨node, output, σ.scope, s.graph.material⟩
    if (σ.cache.get? key).isSome ∨ key ∈ σ.active then []
    else
      (Walk.moments s (Walk.lower s depth) node output { σ with active := key :: σ.active }).filterMap
        fun
          | .asks source other τ => some (source, other, τ)
          | .does .. | .keeps .. => none

/-- What is neither known nor being lowered. -/
theorem WalkState.unlowered_iff {σ : WalkState} {key : Key} :
    ¬((σ.cache.get? key).isSome ∨ key ∈ σ.active) ↔ σ.cache.get? key = none ∧ key ∉ σ.active := by
  rw [not_or, Bool.not_eq_true, Option.isSome_eq_false_iff, Option.isNone_iff_eq_none]

theorem Setting.mem_asksFor {depth : Nat} {σ τ : WalkState} {node source : NodeId}
    {output other : String} : (source, other, τ) ∈ s.asksFor depth (node, output, σ) ↔
      σ.cache.get? ⟨node, output, σ.scope, s.graph.material⟩ = none ∧
      ⟨node, output, σ.scope, s.graph.material⟩ ∉ σ.active ∧
      .asks source other τ ∈ Walk.moments s (Walk.lower s depth) node output
        { σ with active := ⟨node, output, σ.scope, s.graph.material⟩ :: σ.active } := by
  rw [← and_assoc, ← WalkState.unlowered_iff]
  unfold Setting.asksFor
  dsimp only
  split
  · rename_i met
    exact ⟨nofun, fun h => absurd met h.1⟩
  · rename_i unmet
    refine ⟨fun hm => ⟨unmet, ?_⟩, fun hm => List.mem_filterMap.2 ⟨_, hm.2, rfl⟩⟩
    obtain ⟨moment, asked, same⟩ := List.mem_filterMap.1 hm
    cases moment with
    | asks =>
      cases same
      exact asked
    | does | keeps => cases same

theorem Asked.of_asksFor {depth : Nat} {σ τ : WalkState} {node source : NodeId} {output other : String}
    (h : Asked s (depth + 1) node output σ)
    (hm : (source, other, τ) ∈ s.asksFor depth (node, output, σ)) : Asked s depth source other τ := by
  obtain ⟨unknown, unmet, asked⟩ := Setting.mem_asksFor.1 hm
  exact h.lowering unknown unmet asked

/-- What holds where an output of a node is asked for. -/
structure Situated (s : Setting) (node : NodeId) (output : String) (σ : WalkState) : Prop where
  placed : Placed s.graph σ.stack node
  filled : Filled s.graph σ.cache σ.stack
  unknown : ∀ key ∈ σ.active, σ.cache.get? key = none
  /-- A formal input that is being lowered waits for the output that its argument's link leads from. -/
  waits : ∀ input callSite scope name, s.graph.IsGroupInput input →
    ⟨input, name, callSite :: scope, s.graph.material⟩ ∈ σ.active →
      ∃ socket link, s.graph.input callSite (.name name) = some socket ∧
        socket.visibleLink = some link ∧
        ⟨link.node, link.output, scope, s.graph.material⟩ ∈
          (⟨node, output, σ.scope, s.graph.material⟩ :: σ.active : List Key)

theorem Asked.situated {node : NodeId} {output : String} (asked : Asked s depth node output σ)
    (regular : s.Regular fixed) (plain : s.table.get? .groupInput = none) : Situated s node output σ := by
  induction asked with
  | @answering σ τ node output reached question hm =>
    obtain ⟨outside, idle⟩ := reached.idle
    obtain ⟨asks, own⟩ := question.plan_local s.graph
    have evolves := (Plan.moments_evolve own (Walk.lower_evolves s s.depth) σ hm).1
    have stack : τ.stack = [] := evolves.stack_eq_nil outside
    have active : τ.active = [] := evolves.active.trans idle
    have filled := (question.filled regular plain outside (reached.filled regular plain)).2 _ hm
    refine ⟨by rw [stack]; trivial, filled, ?_, ?_⟩ <;> rw [active]
    · exact fun _ no => by cases no
    · exact fun _ _ _ _ _ no => by cases no
  | @lowering depth σ τ node source output other _ unknown unmet hm ih =>
    have step := Walk.expansion regular.rules node output
      { σ with active := ⟨node, output, σ.scope, s.graph.material⟩ :: σ.active }
    have steady := Walk.lower_evolves s depth
    have filled := (step.filled regular plain (Walk.lower_filled regular plain depth) ih.placed
      ih.filled).states _ hm
    obtain ⟨log, stack, evolves⟩ := step.evolves steady hm
    have active : τ.active = ⟨node, output, σ.scope, s.graph.material⟩ :: σ.active := evolves.active
    refine ⟨(step.asks regular steady ih.placed hm).1, filled, fun key waiting => ?_, ?_⟩ <;>
      rw [active] at *
    · have before : σ.cache.get? key = none := by
        rcases List.mem_cons.1 waiting with rfl | waiting
        · exact unknown
        · exact ih.unknown key waiting
      have absent := evolves.notMem_keys waiting before
      exact Memo.get?_eq_none.2 fun entry he same => absent (List.mem_map.2 ⟨entry, he, same⟩)
    · intro input callSite scope name reads waiting
      rcases List.mem_cons.1 waiting with own | waiting
      · obtain ⟨rfl, rfl, inner, -⟩ := Key.mk.inj own
        obtain ⟨socket, link, found, visible, rfl, rfl, rfl⟩ :=
          step.asks_formal plain reads ih.placed hm inner.symm
        exact ⟨socket, link, found, visible, List.mem_cons_self⟩
      · obtain ⟨socket, link, found, visible, awaited⟩ := ih.waits input callSite scope name reads waiting
        exact ⟨socket, link, found, visible, List.mem_cons_of_mem _ awaited⟩

/-- An output that is asked for fails as what it asks for does. -/
theorem Asked.unstopped {node : NodeId} {output : String} (asked : Asked s depth node output σ)
    (regular : s.Regular fixed) (unstopped : Walk.Unstopped s) {failure : Failure}
    (failed : (on (Walk.lower s depth node output) σ).1 = .error failure) : ¬ failure.IsTooDeep := by
  induction asked with
  | @answering σ τ node output reached question hm =>
    obtain ⟨outside, idle⟩ := reached.idle
    obtain ⟨asks, own⟩ := question.plan_local s.graph
    have evolves := (Plan.moments_evolve own (Walk.lower_evolves s s.depth) σ hm).1
    exact unstopped node output (evolves.stack_eq_nil outside) (evolves.active.trans idle) failed
  | @lowering depth σ τ node source output other _ unknown unmet hm ih =>
    have fails := ((Walk.expansion regular.rules node output
      { σ with active := ⟨node, output, σ.scope, s.graph.material⟩ :: σ.active }).fails hm failed).1
    refine ih ?_
    have lowering := Walk.lowering s depth node output σ
    generalize on (Walk.lower s (depth + 1) node output) σ = run,
      Walk.events s (depth + 1) node output σ = told at lowering ⊢
    cases lowering with
    | known known =>
      rw [unknown] at known
      cases known
    | waiting _ active => exact (unmet active).elim
    | new own _ _ ran =>
      subst own
      rw [ran] at fails
      exact fails

/-! ## Defaults -/

/-- The state in which a formal input reads its argument: outside of the innermost call, while the
    formal input is being lowered. -/
def WalkState.reading (s : Setting) (input : NodeId) (name : String) (σ : WalkState) : WalkState :=
  { σ.noting (.visiting (s.graph.kind input) (s.graph.label input) name) with
    stack := σ.stack.tail
    active := ⟨input, name, σ.scope, s.graph.material⟩ :: σ.active }

section

variable {node input : NodeId} {output name : String} {frame : Frame} {around : List Frame}

/-- Where a formal input is being lowered already, its argument does not come to a value. -/
theorem Situated.argument_waiting (h : Situated s node output σ) (stack : σ.stack = frame :: around)
    (reads : s.graph.IsGroupInput input)
    (waiting : ⟨input, name, σ.scope, s.graph.material⟩ ∈ σ.active) (v : Value) :
    (on (Walk.carryOut s.graph (Walk.lower s depth) (Walk.argument s.graph frame.callSite name))
      (σ.reading s input name)).1 ≠ .ok v := by
  intro run
  have inner : σ.scope = frame.callSite :: around.map Frame.callSite := by
    rw [WalkState.scope, stack, List.map_cons]
  have outside : (σ.reading s input name).scope = around.map Frame.callSite :=
    congrArg (fun frames => frames.tail.map Frame.callSite) stack
  rw [inner] at waiting
  obtain ⟨socket, link, found, visible, awaited⟩ := h.waits _ _ _ _ reads waiting
  -- What is asked for here is inside the call, and the argument's link is not.
  have active : ⟨link.node, link.output, around.map Frame.callSite, s.graph.material⟩ ∈ σ.active := by
    refine (List.mem_cons.1 awaited).resolve_left fun same => ?_
    have scope := congrArg List.length (Key.mk.inj same).2.2.1
    rw [inner, List.length_cons] at scope
    omega
  have evolves := Walk.carryOut_evolves (g := s.graph) (Walk.lower_evolves s depth)
    (Walk.argument s.graph frame.callSite name) (σ.reading s input name)
  have absent := evolves.notMem_keys (List.mem_cons_of_mem _ active) (h.unknown _ active)
  obtain ⟨socket', found', received⟩ := Walk.receives_of_argument (Prod.ext run rfl)
  obtain rfl : socket = socket' := Option.some.inj (found.symm.trans found')
  rw [visible, outside] at received
  exact absent (List.mem_map.2 ⟨_, received, rfl⟩)

/-- Inside a call, a formal input that is lowered anew comes to what the call remembers, and otherwise to
    what it reads. -/
theorem Walk.expand_formal (depth : Nat) (name : String) (plain : s.table.get? .groupInput = none)
    (stack : σ.stack = frame :: around) (reads : s.graph.IsGroupInput input)
    (within : input.tree = frame.tree) :
    (on (expand s (lower s depth) input name)
      { σ with active := ⟨input, name, σ.scope, s.graph.material⟩ :: σ.active }).1 =
      match frame.arguments.get? name with
      | some v => .ok v
      | none => (on (carryOut s.graph (lower s depth) (argument s.graph frame.callSite name))
          (σ.reading s input name)).1.map fun found =>
            found.or (.ofLanes? (s.graph.outputDefault input name)) := by
  have call : innermostCall? input.tree σ.stack = some ([], frame, around) := by
    rw [stack, innermostCall?_cons_self around within.symm]
  have read : { ({ σ with active := ⟨input, name, σ.scope, s.graph.material⟩ :: σ.active } :
      WalkState).noting (.visiting (s.graph.kind input) (s.graph.label input) name) with
        stack := around } = σ.reading s input name := by
    unfold WalkState.reading
    rw [stack]
    rfl
  rw [on_expand, reads.2]
  simp only [RuleTable.task_of_isGroupInput plain reads, on_formal, WalkState.noting_stack, call]
  cases frame.arguments.get? name with
  | some v => rfl
  | none =>
    dsimp only
    rw [read]
    rcases on (carryOut s.graph (lower s depth) (argument s.graph frame.callSite name))
      (σ.reading s input name) with ⟨_ | _, _⟩ <;> rfl

/-- Wherever an output is asked for inside a call, a formal input whose argument is nothing comes to its
    default. -/
theorem Situated.formal_value (h : Situated s node output σ) (plain : s.table.get? .groupInput = none)
    (stack : σ.stack = frame :: around) (reads : s.graph.IsGroupInput input)
    (within : input.tree = frame.tree)
    (alike : ∀ other, s.graph.IsGroupInput other → other.tree = input.tree →
      s.graph.outputDefault other name = s.graph.outputDefault input name)
    (nothing : (on (Walk.carryOut s.graph (Walk.lower s depth)
      (Walk.argument s.graph frame.callSite name)) (σ.reading s input name)).1 = .ok .unset) :
    (on (Walk.lower s (depth + 1) input name) σ).1 =
      .ok (.ofLanes? (s.graph.outputDefault input name)) := by
  have inner : σ.scope = frame.callSite :: around.map Frame.callSite := by
    rw [WalkState.scope, stack, List.map_cons]
  have outside : (σ.reading s input name).scope = around.map Frame.callSite :=
    congrArg (fun frames => frames.tail.map Frame.callSite) stack
  -- Whatever is remembered of the formal input is the default, since nothing was received.
  have remembered : ∀ v, s.graph.Fills σ.cache.outputs.entries input.tree frame.callSite
      (around.map Frame.callSite) name v → v = .ofLanes? (s.graph.outputDefault input name) := by
    intro v fills
    refine fills.eq_default alike fun found received => ?_
    rw [← outside] at received
    exact Walk.argument_received (σ := σ.reading s input name) h.filled.distinct received nothing
  have lowering := Walk.lowering s depth input name σ
  generalize on (Walk.lower s (depth + 1) input name) σ = run,
    Walk.events s (depth + 1) input name σ = told at lowering ⊢
  cases lowering with
  | @known v known =>
    rw [inner] at known
    exact congrArg Except.ok
      (remembered v (h.filled.outputs _ _ _ _ v reads (Memo.mem_entries_of_get? known)))
  | waiting _ active => exact (h.argument_waiting stack reads active .unset nothing).elim
  | @new key result σ' own _ _ ran =>
    subst own
    have frames := h.filled.stack
    rw [stack] at frames
    have came := Walk.expand_formal depth name plain stack reads within
    rw [ran] at came
    refine came.trans ?_
    cases known : frame.arguments.get? name with
    | some v => exact congrArg Except.ok (remembered v (within ▸ frames.1 name v known))
    | none =>
      dsimp only
      rw [nothing]
      rfl

end

/-! ## Documents -/

namespace Document

/-- A formal input whose argument comes to nothing comes to the default that its own node declares,
    wherever a walk asks for an output inside the call: whatever group-input nodes of the tree were read
    before in the call, and whatever outputs of the call site. The group-input nodes of the tree have to
    agree on the default, since a call remembers the value under the name of the formal alone. -/
theorem formal_default (d : Document) (table : RuleTable) (hc : table.check = .ok ())
    (plain : table.get? .groupInput = none) {depth : Nat} {node : NodeId} {output : String}
    {σ : WalkState} (asked : Asked (d.setting table) depth node output σ) {frame : Frame}
    {around : List Frame} (stack : σ.stack = frame :: around) {input : NodeId} {formal : String}
    (kind : d.graph.kind input = .groupInput) (unmuted : d.graph.muted input = false)
    (within : input.tree = frame.tree)
    (alike : ∀ other, d.graph.kind other = .groupInput → d.graph.muted other = false →
      other.tree = input.tree → d.graph.outputDefault other formal = d.graph.outputDefault input formal)
    (nothing : (on (Walk.carryOut d.graph (Walk.lower (d.setting table) (depth - 1))
      (Walk.argument d.graph frame.callSite formal)) (σ.reading (d.setting table) input formal)).1 =
        .ok .unset) :
    (on (Walk.lower (d.setting table) depth input formal) σ).1 =
      .ok (.ofLanes? (d.graph.outputDefault input formal)) := by
  have regular : (d.setting table).Regular fun _ => False :=
    d.setting_regular hc fun _ _ _ _ _ _ _ _ no => no.elim
  have reads : ∀ other, d.graph.IsGroupInput other ↔
      d.graph.kind other = .groupInput ∧ d.graph.muted other = false := by
    intro other
    unfold HostGraph.IsGroupInput bypass?
    refine and_congr_right fun kind => ?_
    rw [kind, if_neg (by decide)]
    cases d.graph.muted other <;> simp
  -- A walk is never stopped, so that it may still go on where an output is asked for.
  cases depth with
  | zero =>
    have stopped := asked.unstopped regular (d.unstopped hc) rfl
    exact (stopped trivial).elim
  | succ depth =>
    exact (asked.situated regular plain).formal_value plain stack ((reads input).2 ⟨kind, unmuted⟩)
      within (fun other h => alike other ((reads other).1 h).1 ((reads other).1 h).2) nothing

/-- A call of a group that adds a formal input to itself, read from two group-input nodes. -/
def doubling (first second : Numeric.Single) : Document where
  name := "doubling"
  tree :=
    { nodes :=
        [⟨"output", .outputMaterial, [⟨"Surface", none, true⟩], [], .ofList [], false⟩,
          ⟨"glow", .emission, [⟨"Color", none, false⟩, ⟨"Strength", none, false⟩],
            [⟨"Emission", none, true⟩], .ofList [], false⟩,
          ⟨"call", .group, [⟨"x", none, false⟩], [⟨"y", none, false⟩],
            .ofList [(groupProperty, .text "double")], false⟩]
      links :=
        [⟨"glow", "Emission", "output", .name "Surface", false⟩,
          ⟨"call", "y", "glow", .name "Strength", false⟩] }
  groups :=
    [⟨"double",
      { nodes :=
          [⟨"first", .groupInput, [], [⟨"x", some (.scalar first), false⟩], .ofList [], false⟩,
            ⟨"second", .groupInput, [], [⟨"x", some (.scalar second), false⟩], .ofList [], false⟩,
            ⟨"sum", .math, [⟨"Value", none, false⟩, ⟨"Value", none, false⟩], [⟨"Value", none, false⟩],
              .ofList [], false⟩,
            ⟨"out", .groupOutput, [⟨"y", none, false⟩], [], .ofList [], false⟩]
        links :=
          [⟨"first", "x", "sum", .index 0, false⟩, ⟨"second", "x", "sum", .index 1, false⟩,
            ⟨"sum", "Value", "out", .name "y", false⟩] }⟩]

theorem doubling_alike (default : Numeric.Single) (other : NodeId)
    (kind : (doubling default default).graph.kind other = .groupInput) :
    (doubling default default).graph.outputDefault other "x" = some (.splat default) := by
  obtain ⟨⟨tree⟩, index⟩ := other
  rcases tree with _ | _ | tree
  · rcases index with _ | _ | _ | index <;> simp [graph, node?, tree?, doubling] at kind
  · rcases index with _ | _ | _ | _ | index
    · rfl
    · rfl
    all_goals simp [graph, node?, tree?, doubling] at kind
  · simp [graph, node?, tree?, doubling] at kind

/-- The second node comes to the default, read after the first one in the same call. -/
theorem formal_default_doubling :
    let d := doubling .one .one
    let s := d.setting .builtin
    RuleTable.builtin.check = .ok () ∧ RuleTable.builtin.get? .groupInput = none ∧
      (∀ other, d.graph.kind other = .groupInput →
        d.graph.outputDefault other "x" = d.graph.outputDefault ⟨⟨1⟩, 1⟩ "x") ∧
      ∃ depth σ frame, Asked s depth ⟨⟨1⟩, 1⟩ "x" σ ∧ σ.stack = [frame] ∧ frame.tree = ⟨1⟩ ∧
        frame.arguments.get? "x" = some (.constant (.splat .one)) ∧
        (on (Walk.carryOut d.graph (Walk.lower s (depth - 1)) (Walk.argument d.graph frame.callSite "x"))
          (σ.reading s ⟨⟨1⟩, 1⟩ "x")).1 = .ok .unset ∧
        (on (Walk.lower s depth ⟨⟨1⟩, 1⟩ "x") σ).1 = .ok (.constant (.splat .one)) := by
  intro d s
  have plain : RuleTable.builtin.get? .groupInput = none := by decide +kernel
  have alike : ∀ other, d.graph.kind other = .groupInput →
      d.graph.outputDefault other "x" = d.graph.outputDefault ⟨⟨1⟩, 1⟩ "x" := doubling_alike .one
  obtain ⟨n, deep⟩ : ∃ n, s.depth = n + 3 := ⟨s.depth - 3, by decide +kernel⟩
  have call : Asked s s.depth ⟨.material, 2⟩ "y" (.start .empty) :=
    .answering (.start .empty) (.output ⟨.material, 2⟩ "y") List.mem_cons_self
  -- From the call to its output node, the sum, and the second of its operands.
  have way : ∃ out ∈ s.asksFor (s.depth - 1) (⟨.material, 2⟩, "y", .start .empty),
      ∃ sum ∈ s.asksFor (s.depth - 2) out, ∃ second ∈ s.asksFor (s.depth - 3) sum,
        second.1 = ⟨⟨1⟩, 1⟩ ∧ second.2.1 = "x" ∧ ∃ frame ∈ second.2.2.stack.head?,
          second.2.2.stack = [frame] ∧ frame.tree = ⟨1⟩ ∧
          frame.arguments.get? "x" = some (.constant (.splat .one)) ∧
          (on (Walk.carryOut d.graph (Walk.lower s (s.depth - 3 - 1))
            (Walk.argument d.graph frame.callSite "x")) (second.2.2.reading s ⟨⟨1⟩, 1⟩ "x")).1 =
              .ok .unset := by
    decide +kernel
  rw [deep] at way call
  obtain ⟨⟨out, y, σ₁⟩, hout, ⟨sum, value, σ₂⟩, hsum, ⟨second, x, σ⟩, hsecond, rfl, rfl, frame, -, stack,
    tree, remembered, nothing⟩ := way
  have asked := ((call.of_asksFor hout).of_asksFor hsum).of_asksFor hsecond
  exact ⟨RuleTable.builtin_check, plain, alike, _, σ, frame, asked, stack, tree, remembered, nothing,
    d.formal_default .builtin RuleTable.builtin_check plain asked stack rfl rfl tree.symm
      (fun other kind _ _ => alike other kind) nothing⟩

/-- The second node is read after the first one, which declares another default: it comes to that one,
    although the argument is nothing. -/
theorem formal_default_remembered :
    let d := doubling .zero .one
    let s := d.setting .builtin
    let question : Question := .output ⟨.material, 2⟩ "y"
    (on (Walk.carryOut d.graph (Walk.lower s s.depth) (Walk.argument d.graph ⟨.material, 2⟩ "x"))
        (.start .empty)).1 = .ok .unset ∧
      d.graph.outputDefault ⟨⟨1⟩, 1⟩ "x" = some (.splat .one) ∧
      (⟨⟨⟨1⟩, 1⟩, "x", [⟨.material, 2⟩], "doubling"⟩, .constant (.splat .zero)) ∈
        (question.events s (.start .empty)).filterMap Event.output? := by
  decide +kernel

end Document

end MaterialLowering
