import MaterialLowering.Proofs.Arithmetic.AppliedOperators
import MaterialLowering.Proofs.Walks.Operations
import MaterialLowering.Proofs.Walks.Promises

/-!
# Arithmetic nodes are wired

Whatever a walk is asked and however that ends, every arithmetic node that it creates has just the
operands of its operator, each of which is a constant or an earlier node. The values that a walk goes
on with are constants, nodes that are there, or nothing, and never images; that is a promise which all
outputs keep. At the moments of a walk it makes every new node refer to earlier ones.

Main definitions:
* `Promise.present`: values are constants, nodes that are there, or nothing.
* `RecordedNode.Wired`: an arithmetic node with the operands of its operator.

Results:
* `Setting.keeps_present`: the outputs of every setting keep the promise.
* `Walk.lower_wired`: what a walk does to the recording.
* `Document.arithmetic_wired`: the arithmetic nodes of a document.
-/

namespace MaterialLowering

open Walk (on)

/-! ## Values that are there -/

/-- Every node that is there stands for itself. -/
def Recording.present (r : Recording) : Correspondence :=
  ⟨fun a b => a = b ∧ a.index < r.nodes.size, Eq⟩

namespace Recording

variable {r r' : Recording} {v : Value}

theorem present_mono (h : r.Extends r') : r.present ≤ r'.present :=
  ⟨fun _ _ hab => ⟨hab.1, Nat.lt_of_lt_of_le hab.2 h.size_le⟩, fun _ _ hab => hab⟩

theorem present_created (r : Recording) (kind : NativeKind) (params : List (String × Value)) :
    (r.create kind params).2.present.node (r.create kind params).1 (r.create kind params).1 := by
  refine ⟨rfl, ?_⟩
  show r.nodes.size < (r.nodes.push _).size
  rw [Array.size_push]
  omega

theorem rel_present_image (r : Recording) (image : Option ImageHandle) :
    Option.Rel r.present.image image image := by
  cases image with
  | none => exact .none
  | some handle => exact .some rfl

theorem rel_present_found (r : Recording) {found : Option Value}
    (h : ∀ v, found = some v → r.present.Answer v v) : Option.Rel r.present.Answer found found := by
  cases found with
  | none => exact .none
  | some v => exact .some (h v rfl)

end Recording

/-- Values are constants, nodes that are there, or nothing. -/
def Promise.present : Promise where
  output st _ v := st.recording.present.Answer v v
  subNode st _ _ v := st.recording.present.Answer v v
  argument st _ _ _ v := st.recording.present.Answer v v
  output_mono more h := h.mono (Recording.present_mono more.recording)
  subNode_mono more h := h.mono (Recording.present_mono more.recording)
  argument_mono more h := h.mono (Recording.present_mono more.recording)

section

variable {α : Type} {asks : NodeId → String → Prop} {keeps : Prop} {g : HostGraph}
  {scope : List NodeId}

/-- A plan that looks at no handle goes on with the nodes that are there. -/
theorem Plan.Alike.ensures {P : Correspondence → α → α → Prop} {plan : Plan α} {st : Stock}
    (alike : Plan.Alike asks keeps P st.recording.present plan plan) :
    plan.Ensures .present g scope (fun st a => P st.recording.present a a) st := by
  induction plan generalizing st with
  | done a =>
    cases alike with
    | done h => exact h
  | fail failure => trivial
  | visit node output next ih =>
    cases alike with
    | visit _ go =>
      exact fun st' v more hv _ => ih v (go _ (Recording.present_mono more.recording) v v hv)
  | create kind params next ih =>
    cases alike with
    | create _ go =>
      exact ih _ (go _ (Recording.present_mono (st.recording.create_extends kind params)) _ _
        (st.recording.present_created kind params))
  | image descriptor next ih =>
    cases alike with
    | image go =>
      exact ih _ (go _ (Recording.present_mono (st.recording.materialize_extends descriptor)) _ _
        (Recording.rel_present_image _ _))
  | report notice next ih =>
    cases alike with
    | report _ go => exact ih go
  | known node output name next ih =>
    cases alike with
    | known _ go => exact fun found hf => ih found (go _ le_rfl _ _ (st.recording.rel_present_found hf))
  | remember node output name value next ih =>
    cases alike with
    | remember _ answer go => exact ⟨answer, ih go⟩

end

/-- The plan of an output looks at no handle. -/
theorem Setting.course_alike {s : Setting} {node : NodeId} {output : String} {plan : Plan Value}
    (h : s.course node output = .plan plan) (w : Correspondence) :
    Plan.Agree (s.graph.Feeds node) True w plan plan := by
  unfold course at h
  cases hb : bypass? s.graph node with
  | some bypass =>
    rw [hb] at h
    cases h
    exact bypass?_alike hb
  | none =>
    rw [hb] at h
    exact task_alike h

/-- All outputs come to constants, nodes that are there, or nothing. -/
theorem Setting.keeps_present (s : Setting) : s.Keeps .present where
  plan h scope st := (s.course_alike h st.recording.present).ensures
  call _ _ _ _ _ _ h _ := h
  argument callSite formal around st := by
    have alike : Plan.Agree (s.graph.Feeds callSite) False st.recording.present
        (Walk.argument s.graph callSite formal) (Walk.argument s.graph callSite formal) :=
      argument_alike formal
    exact alike.ensures.weaken fun _ found _ hf default => hf.or (.ofLanes? default)
  formal _ _ _ _ _ _ _ h := h

/-! ## Operations -/

/-- The operation creates a node out of what is there, with all its operands if it is arithmetic, or it
    asks for an image. -/
def Recording.Operation.Wired (r : Recording) : Recording.Operation → Prop
  | .create kind params =>
    kind.Takes params ∧ List.Forall₂ (r.present.Parameter kind) params params
  | .materialize _ => True
  | .assign .. | .register .. => False

/-- Outputs are asked for where all values are there, and what is done is wired. -/
def Moment.Wired (g : HostGraph) : Moment → Prop
  | .asks _ _ σ => σ.Keeps .present g
  | .does operation σ => operation.Wired σ.recording
  | .keeps .. => True

/-- What was done is wired. -/
def Event.Wired : Event → Prop
  | .did _ step => step.operation.Wired step.before
  | .asked .. | .kept .. | .lowered .. => True

section

variable {α : Type} {g : HostGraph} {s : Setting} {visit : NodeId → String → Walk Value}
  {told : NodeId → String → WalkState → List Event} {σ : WalkState}

/-- The moments of a wired plan. -/
theorem Plan.moments_wired (delivers : Walk.Delivers .present g visit)
    (steady : ∀ node output, Walk.Steady (visit node output)) {asks : NodeId → String → Prop}
    {keeps : Prop} {P : Correspondence → α → α → Prop} {plan : Plan α} (wired : plan.Wired)
    (alike : Plan.Alike asks keeps P σ.recording.present plan plan) (h : σ.Keeps .present g) :
    ∀ moment ∈ plan.moments g visit σ, moment.Wired g := by
  induction wired generalizing σ with
  | done | fail => simp
  | @visit node output next _ ih =>
    cases alike with
    | visit _ go =>
      have first := delivers node output σ h
      have evolves := steady node output σ
      rw [moments_visit]
      generalize on (visit node output) σ = run at first evolves
      obtain ⟨failure | v, σ'⟩ := run
      · exact List.forall_mem_singleton.2 h
      · have alike := go _ (Recording.present_mono evolves.recording) v v (first.result v rfl).1
        exact List.forall_mem_append.2 ⟨ih v alike first.keeps, List.forall_mem_singleton.2 h⟩
  | @create kind params next takes _ ih =>
    cases alike with
    | create there go =>
      have more := σ.recording.create_extends kind params
      have alike := go _ (Recording.present_mono more) _ _ (σ.recording.present_created kind params)
      rw [moments_create]
      exact List.forall_mem_append.2
        ⟨ih _ alike (h.recorded more), List.forall_mem_singleton.2 ⟨takes, there⟩⟩
  | @image descriptor next _ ih =>
    cases alike with
    | image go =>
      have more := σ.recording.materialize_extends descriptor
      have alike := go _ (Recording.present_mono more) _ _
        (Recording.rel_present_image _ (σ.recording.materialize descriptor).1.toOption)
      rw [moments_image]
      exact List.forall_mem_append.2
        ⟨ih _ alike (h.recorded more), List.forall_mem_singleton.2 trivial⟩
  | @report notice next _ ih =>
    cases alike with
    | report _ go =>
      have noted : (σ.noting notice).Keeps .present g := h.relogged _ σ.active
      rw [moments_report]
      exact ih (σ := σ.noting notice) go noted
  | @known node output name next _ ih =>
    cases alike with
    | known _ go =>
      have found := σ.recording.rel_present_found fun v hv =>
        h.subNodes ⟨node, output, σ.scope, g.material⟩ name v hv
      rw [moments_known]
      exact ih _ (go _ le_rfl _ _ found) h
  | @remember node output name value next _ ih =>
    cases alike with
    | remember _ answer go =>
      let key : Key := ⟨node, output, σ.scope, g.material⟩
      have kept : WalkState.Keeps .present g { σ with cache := σ.cache.putSubNode key name value } :=
        h.putSubNode answer
      rw [moments_remember]
      exact List.forall_mem_append.2
        ⟨ih (σ := { σ with cache := σ.cache.putSubNode key name value }) go kept,
          List.forall_mem_singleton.2 trivial⟩

namespace Walk

theorem callMoments_wired (callSite : NodeId) (output : String) (h : σ.Keeps .present g) :
    ∀ moment ∈ callMoments g visit callSite output σ, moment.Wired g := by
  rw [callMoments_eq]
  cases calls : g.groupTree callSite with
  | none => simp
  | some tree =>
    dsimp only
    split
    · simp
    cases g.groupOutput tree with
    | none => simp
    | some groupOutput =>
      have entered : Promise.present.KeptBy g σ.stock (⟨callSite, tree, .empty⟩ :: σ.stack) :=
        ⟨calls, fun _ _ h => (by cases h), h.stack⟩
      have noted : (σ.noting (.enteringGroup (g.label callSite) (σ.stack.length + 1))).Keeps
          .present g := h.relogged _ σ.active
      exact List.forall_mem_singleton.2 (noted.withStack entered)

theorem formalMoments_wired (delivers : Delivers .present g visit)
    (steady : ∀ node output, Steady (visit node output)) (groupInput : NodeId) (name : String)
    (h : σ.Keeps .present g) : ∀ moment ∈ formalMoments g visit groupInput name σ, moment.Wired g := by
  rw [formalMoments_eq]
  rcases hc : innermostCall? groupInput.tree σ.stack with _ | ⟨inside, frame, around⟩
  · simp
  dsimp only
  cases frame.arguments.get? name with
  | some value => simp
  | none =>
    have stack := h.stack
    rw [(innermostCall?_spec hc).1] at stack
    have alike : Plan.Agree (g.Feeds frame.callSite) False σ.recording.present
        (argument g frame.callSite name) (argument g frame.callSite name) := argument_alike name
    have outside : WalkState.Keeps .present g { σ with stack := around } :=
      h.withStack stack.behind.2.2
    exact Plan.moments_wired (σ := { σ with stack := around }) delivers steady (argument_wired name)
      alike outside

theorem moments_wired (plain : s.table.NamesNoOperator) (delivers : Delivers .present s.graph visit)
    (steady : ∀ node output, Steady (visit node output)) (node : NodeId) (output : String)
    (h : σ.Keeps .present s.graph) : ∀ moment ∈ moments s visit node output σ, moment.Wired s.graph := by
  rw [moments_eq]
  cases hb : bypass? s.graph node with
  | some plan =>
    have alike : Plan.Agree (s.graph.Feeds node) False σ.recording.present plan plan := bypass?_alike hb
    exact Plan.moments_wired delivers steady (bypass?_wired hb) alike h
  | none =>
    have noted : (σ.noting (.visiting (s.graph.kind node) (s.graph.label node) output)).Keeps
        .present s.graph := h.relogged _ σ.active
    dsimp only
    cases ht : s.table.task s.graph node output with
    | plan plan => exact Plan.moments_wired delivers steady (task_wired plain ht) (task_alike ht) noted
    | call => exact callMoments_wired node output noted
    | formal => exact formalMoments_wired delivers steady node output noted

end Walk

/-- What is told at wired moments is wired, if that goes for what is told where all values are there. -/
theorem Moment.events_wired {moments : List Moment} (h : ∀ moment ∈ moments, moment.Wired g)
    (ht : ∀ node output (σ : WalkState), σ.Keeps .present g → ∀ event ∈ told node output σ, event.Wired) :
    ∀ event ∈ moments.flatMap (Moment.events told), event.Wired := by
  intro event he
  obtain ⟨moment, hm, he⟩ := List.mem_flatMap.1 he
  have here := h moment hm
  cases moment with
  | asks node output σ =>
    rcases List.mem_append.1 he with he | he
    · exact ht node output σ here event he
    · obtain rfl := List.mem_singleton.1 he
      trivial
  | does operation σ =>
    obtain rfl := List.mem_singleton.1 he
    exact here
  | keeps =>
    obtain rfl := List.mem_singleton.1 he
    trivial

/-- Whatever a walk does is wired: one step does nothing else if the outputs that it asks for do not,
    however deep the walk may go. -/
theorem Walk.lower_wired (plain : s.table.NamesNoOperator) (depth : Nat) (node : NodeId)
    (output : String) (σ : WalkState) (h : σ.Keeps .present s.graph) :
    ∀ event ∈ events s depth node output σ, event.Wired := by
  induction depth generalizing node output σ with
  | zero => simp
  | succ depth ih =>
    have begun : WalkState.Keeps .present s.graph
        { σ with active := ⟨node, output, σ.scope, s.graph.material⟩ :: σ.active } :=
      h.relogged σ.log _
    rw [events_succ]
    dsimp only
    split
    · simp
    · refine List.forall_mem_cons.2 ⟨trivial, Moment.events_wired ?_ ih⟩
      exact moments_wired plain (lower_keeps s.keeps_present depth) (lower_evolves s depth) node output
        begun

end

/-! ## Questions -/

theorem Question.plan_wired (g : HostGraph) (question : Question) : (question.plan g).Wired := by
  cases question with
  | root =>
    unfold plan
    cases g.outputNode with
    | none => exact .fail _
    | some node => exact .visit .done
  | output node name => exact .visit .done
  | input node key => exact Plan.input_wired key
  | inputLink node key => exact Plan.inputLink_wired key
  | inputDefault node key => exact Plan.inputDefault_wired key
  | requiredLink node key => exact Plan.requiredLink_wired key
  | groupInput node name => exact .fail _

/-- Whatever is done while a question is answered between others is wired. -/
theorem Question.steps_wired {s : Setting} (plain : s.table.NamesNoOperator) (question : Question)
    {σ : WalkState} (h : σ.Keeps .present s.graph) :
    ∀ step ∈ Event.steps (question.events s σ), step.operation.Wired step.before := by
  obtain ⟨asks, alike⟩ := question.plan_alike s.graph σ.recording.present
  have moments := Plan.moments_wired (Walk.lower_keeps s.keeps_present s.depth)
    (Walk.lower_evolves s s.depth) (question.plan_wired s.graph) alike h
  have events := Moment.events_wired moments (Walk.lower_wired plain s.depth)
  intro step hs
  obtain ⟨output, he⟩ := Event.mem_steps.1 hs
  rw [question.events_eq] at he
  exact events _ he

/-! ## Nodes -/

/-- The node in place `n` applies an operator: it has the operands of the operator and no other
    parameters. It was emitted for operands, of which one that was nothing is zero, and each is a
    constant or an earlier node. -/
structure RecordedNode.Wired (n : Nat) (op : Operator) (node : RecordedNode) : Prop where
  names : node.params.keys = (List.range op.arity).map Operator.operandName
  emitted : ∃ operands r, node.Applies op operands ∧ r.nodes.size = n ∧
    (Emission.arithmetic op operands).run r = (.node ⟨n⟩, { r with nodes := r.nodes.push node })
  backward : ∀ name param, (name, param) ∈ node.params.entries →
    (∃ lanes, param = .constant lanes) ∨ ∃ handle, param = .node handle ∧ handle.index < n

/-- A new arithmetic node is wired. -/
theorem RecordedNode.wired_withParams {r : Recording} {op : Operator} {params : List (String × Value)}
    (takes : (NativeKind.arithmetic op).Takes params)
    (there : List.Forall₂ (r.present.Parameter (.arithmetic op)) params params) :
    (withParams (.arithmetic op) params).Wired r.nodes.size op := by
  obtain ⟨operands, full, same⟩ := takes op rfl
  obtain ⟨-, rfl, -⟩ := Emission.create.inj same
  have applies := withParams_applies full
  refine ⟨applies.names, ⟨operands, r, applies, rfl, rfl⟩, fun name param hp => ?_⟩
  obtain ⟨⟨name', v⟩, hv, hset⟩ := List.mem_filterMap.1 (SortedMap.mem_of_mem_ofList hp)
  obtain ⟨param', hp', same⟩ := Option.map_eq_some_iff.1 hset
  obtain ⟨rfl, rfl⟩ := Prod.mk.inj same
  obtain ⟨i, hi, hget⟩ := List.mem_iff_getElem.1 hv
  have own := there.get hi hi
  rw [List.get_eq_getElem, hget] at own
  cases own with
  | answer h =>
    cases h with
    | constant lanes => cases hp'; exact .inl ⟨lanes, rfl⟩
    | node h => cases hp'; exact .inr ⟨_, rfl, h.2⟩
    | unset => cases hp'
  | image kind => cases kind

namespace Recording

theorem Operation.Wired.adds {r : Recording} {operation : Operation} (h : operation.Wired r) :
    operation.Adds := by
  cases operation with
  | create | materialize => trivial
  | assign | register => exact h.elim

/-- The arithmetic nodes that wired steps create. -/
theorem Follow.wired {r r' : Recording} {steps : List Step} (h : r.Follow steps r')
    (wired : ∀ step ∈ steps, step.operation.Wired step.before) {n : Nat} {node : RecordedNode}
    {op : Operator} (new : r.nodes.size ≤ n) (hn : r'.nodes[n]? = some node)
    (kind : node.kind = .arithmetic op) : node.Wired n op := by
  obtain ⟨⟨operation, before⟩, hs, kind', params, same, rfl, rfl⟩ :=
    h.exists_makes (fun step hs => (wired step hs).adds) new hn
  obtain rfl : operation = .create kind' params := same
  obtain rfl : kind' = .arithmetic op := kind
  obtain ⟨takes, there⟩ : NativeKind.Takes _ params ∧ _ := wired _ hs
  exact RecordedNode.wired_withParams takes there

end Recording

/-! ## Documents -/

/-- The plain shader of a material that failed is not arithmetic. -/
theorem fallbackShader_wired (r : Recording) (showErrors : Bool) :
    ∃ steps, r.Follow steps (fallbackShader r showErrors).2 ∧
      ∀ step ∈ steps, step.operation.Wired step.before := by
  have plain : ∀ kind color, (∀ op, kind ≠ .arithmetic op) →
      ∀ step ∈ [(⟨.create kind [("color", .constant color)], r⟩ : Recording.Step)],
        step.operation.Wired step.before := by
    refine fun kind color other => List.forall_mem_singleton.2 ⟨fun op same => ?_, ?_⟩
    · exact absurd same (other op)
    · exact .cons (.answer (.constant _)) .nil
  cases showErrors with
  | true => exact ⟨_, .cons (.nil _), plain .emissive errorColor nofun⟩
  | false => exact ⟨_, .cons (.nil _), plain .diffuse fallbackColor nofun⟩

namespace Document

/-- Every arithmetic node is wired. Whatever was asked before, and whether the question is answered or
    fails: an arithmetic node that is created meanwhile has the parameters `color0`, `color1` and
    `color2` as far as its operator takes so many operands, and no other ones; it was emitted for
    operands, and each parameter is a constant or an earlier node. The same holds where a material is
    lowered as a whole. No output ever comes to an image. And whatever operands an operator is emitted
    for, its node has them for its parameters, where an operand that is nothing has become the constant
    zero: on its own, and where one, two or three operands are not all constants. -/
theorem arithmetic_wired (d : Document) {table : RuleTable} (plain : table.NamesNoOperator) :
    (∀ σ, Reached (d.setting table) σ →
      (∀ question n node op, σ.recording.nodes.size ≤ n →
        (Walk.ask (d.setting table) question σ).recording.nodes[n]? = some node →
        node.kind = .arithmetic op → node.Wired n op) ∧
      ∀ node output image,
        (on (Walk.output (d.setting table) node output) σ).1 ≠ .ok (.image image)) ∧
    (∀ showErrors r n node op, r.nodes.size ≤ n →
      (d.lower table showErrors r).recording.nodes[n]? = some node →
      node.kind = .arithmetic op → node.Wired n op) ∧
    (∀ op operands, operands.length = op.arity →
      (Emission.arithmetic op operands).Applies op operands) ∧
    ∀ op a b c,
      (op.arity = 1 → a.isConstant = false → (Emission.unary op a).Applies op [a]) ∧
      (op.arity = 2 → (a.isConstant && b.isConstant) = false →
        (Emission.binary op a b).Applies op [a, b]) ∧
      ((a.isConstant && b.isConstant && c.isConstant) = false →
        (Emission.ternary a b c).Applies .ternary [a, b, c]) := by
  have steps : ∀ σ, Reached (d.setting table) σ → ∀ question : Question,
      ∀ step ∈ Event.steps (question.events (d.setting table) σ), step.operation.Wired step.before :=
    fun σ reached question =>
      question.steps_wired plain (reached.kept (d.setting table).keeps_present)
  refine ⟨fun σ reached => ⟨fun asked n node op new hn kind => ?_, fun node output image found => ?_⟩,
    fun showErrors r n node op new hn kind => ?_, fun _ _ => Emission.arithmetic_applies,
    fun _ _ _ _ => ⟨Emission.unary_applies, Emission.binary_applies, Emission.ternary_applies⟩⟩
  · exact (asked.follows _ reached.idle.1).wired (steps σ reached asked) new hn kind
  · have keeps := reached.kept (d.setting table).keeps_present
    have promised := ((Walk.lower_keeps (d.setting table).keeps_present (d.setting table).depth node
      output σ keeps).result (.image image) found).1
    cases promised
  · have walked : r.Follow (Event.steps (Question.root.events (d.setting table) (.start r)))
        (on (Walk.root (d.setting table)) (.start r)).2.recording :=
      Question.root.follows (d.setting table) (σ := .start r) rfl
    have wired := steps (.start r) (.start r) .root
    unfold lower Setting.lower at hn
    unfold Walk.on at walked
    dsimp only at hn walked
    generalize (Walk.root (d.setting table)).run (.start r) = run at hn walked
    obtain ⟨failure | root, σ⟩ := run
    · obtain ⟨fallback, follows, apart⟩ := fallbackShader_wired σ.recording showErrors
      exact (walked.append follows).wired (List.forall_mem_append.2 ⟨wired, apart⟩) new hn kind
    · exact walked.wired wired new hn kind

end Document

/-- The type is that of an arithmetic node. -/
def RuleType.namesOperator : RuleType → Bool
  | .native (.arithmetic _) => true
  | _ => false

/-- The built-in rules create arithmetic nodes by folding alone. -/
theorem RuleTable.builtin_namesNoOperator : builtin.NamesNoOperator := by
  have all : ∀ entry ∈ builtin.entries, ∀ subNode ∈ entry.2.entries,
      subNode.2.type.namesOperator = false := by
    decide +kernel
  intro kind rules found name rule op there named
  have := all _ (SortedMap.mem_entries_of_get? found) _ (SortedMap.mem_entries_of_get? there)
  rw [named] at this
  cases this

namespace Document

/-- A checker to which nothing is added. -/
def chequered : Document where
  name := "chequered"
  tree :=
    { nodes :=
        [⟨"checker", .texChecker, [⟨"Vector", none, false⟩, ⟨"Scale", some (.scalar .one), false⟩],
            [⟨"Fac", none, false⟩], .ofList [], false⟩,
          ⟨"sum", .math, [⟨"Value", none, false⟩, ⟨"Value", none, false⟩], [⟨"Value", none, false⟩],
            .ofList [("operation", .text "ADD")], false⟩]
      links := [⟨"checker", "Fac", "sum", .index 0, false⟩] }
  groups := []

/-- The sum has both operands, of which the second is zero. -/
theorem arithmetic_wired_chequered :
    let s := chequered.setting .builtin
    let σ := Walk.ask s (.output ⟨.material, 1⟩ "Value") (.start .empty)
    RuleTable.builtin.NamesNoOperator ∧ Reached s (.start .empty) ∧
      (∃ sum, σ.recording.nodes[3]? = some sum ∧ sum.Wired 3 .add ∧
        sum.params.get? "color1" = some (.constant .zero)) ∧
      (Emission.binary .add (.node ⟨2⟩) .unset).Applies .add [.node ⟨2⟩, .unset] := by
  intro s σ
  obtain ⟨asked, -, -, operators⟩ := chequered.arithmetic_wired RuleTable.builtin_namesNoOperator
  have wired := (asked _ (.start .empty)).1 (.output ⟨.material, 1⟩ "Value")
  have made : (σ.recording.nodes[3]?.map fun sum => (sum.kind, sum.params.get? "color1")) =
      some (.arithmetic .add, some (.constant .zero)) := by decide +kernel
  obtain ⟨sum, hn, facts⟩ := Option.map_eq_some_iff.1 made
  obtain ⟨kind, second⟩ := Prod.mk.inj facts
  exact ⟨RuleTable.builtin_namesNoOperator, .start .empty,
    ⟨sum, hn, wired 3 sum .add (Nat.zero_le _) hn kind, second⟩,
    (operators .add (.node ⟨2⟩) .unset .unset).2.1 rfl rfl⟩

end Document

end MaterialLowering
