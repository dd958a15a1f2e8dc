import MaterialLowering.Proofs.Arithmetic.FoldedEmitted
import MaterialLowering.Proofs.Rules.RuleCheck
import MaterialLowering.Proofs.Walks.Operations

/-!
# Accounts of sub-nodes

The account of a walk says of every sub-node in the cache how it was evaluated: from which values, and
by which steps. Each step of the walk keeps it. A sub-node is entered when it is kept: those that it
refers to were entered before, and it was not there itself. In the history of the walk there are no
other steps for an output that an entry lowers, whether it came to a value or failed.

Main definitions:
* `ValueSource.Given`: the value that a source has.
* `Making`, `Making.Follows`: how a sub-node was evaluated, and that it was as its rule says.
* `Accounted`: a cache all of whose sub-nodes were evaluated as their rules say, and by nothing else.

Results:
* `Walk.subNode_runs`: what a walk does at a sub-node.
* `Walk.lower_accounted`: every output keeps account.
* `Lived.accounted`: so it is between questions.
-/

namespace MaterialLowering

open Walk (on)
open Relation (ReflTransGen)

/-! ## Sub-nodes on their own -/

/-- What a sub-node creates, given its parameters. -/
def RuleType.emission (type : RuleType) (params : List (String × Value)) : Emission Value :=
  match type with
  | .native kind => .node kind params
  | .fold op => op.emission params

theorem RuleType.plan_eq (type : RuleType) (params : List (String × Value)) :
    type.plan params = .ofEmission (type.emission params) := by
  cases type <;> rfl

theorem Walk.on_carryOut_ofEmission {α : Type} {g : HostGraph} {visit : NodeId → String → Walk Value}
    (e : Emission α) (σ : WalkState) :
    on (Walk.carryOut g visit (.ofEmission e)) σ =
      (.ok (e.run σ.recording).1, { σ with recording := (e.run σ.recording).2 }) := by
  induction e generalizing σ with
  | done => rfl
  | create kind params next ih => exact ih _ _

/-- An emission tells its steps, and nothing else. -/
theorem Plan.events_ofEmission {α : Type} {g : HostGraph} {visit : NodeId → String → Walk Value}
    {told : NodeId → String → WalkState → List Event} (e : Emission α) (σ : WalkState) :
    (Plan.ofEmission e).events g visit told σ =
      ((e.steps σ.recording).map (.did σ.active.head?)).reverse := by
  induction e generalizing σ with
  | done => rfl
  | create kind params next ih =>
    rw [Emission.steps, List.map_cons, List.reverse_cons]
    show (Plan.create kind params fun handle => .ofEmission (next handle)).events g visit told σ = _
    rw [Plan.events_create, ih]

theorem Recording.Valid.before {r : Recording} {v : Value} (h : r.Valid v) :
    v.Before r.nodes.size := by
  cases h with
  | node h =>
    cases h with
    | node found =>
      rintro p hp
      obtain rfl := Option.some.inj hp
      exact (Array.getElem?_eq_some_iff.1 found).1
  | constant =>
    rintro p hp
    obtain rfl := Option.some.inj hp
    trivial
  | unset => exact fun p hp => (by cases hp)

/-- The value of an input in the calls of `scope`: what the output comes to that its link leads from,
    or what `unlinked` makes of the socket. -/
def HostGraph.Receives (g : HostGraph) (outputs : Key → Value → Prop) (node : NodeId)
    (scope : List NodeId) (name : String) (unlinked : Socket → Value) (v : Value) : Prop :=
  ∃ socket, g.input node (.name name) = some socket ∧
    match socket.visibleLink with
    | some link => outputs ⟨link.node, link.output, scope, g.material⟩ v
    | none => v = unlinked socket

/-- The value that a source has for an output, where outputs and the sub-nodes of the output come to
    what `outputs` and `subNodes` say. -/
def ValueSource.Given (g : HostGraph) (outputs : Key → Value → Prop) (subNodes : String → Value → Prop)
    (key : Key) : ValueSource → Value → Prop
  | .input name, v => g.Receives outputs key.node key.scope name (fun socket => .ofLanes? socket.default) v
  | .link name, v => g.Receives outputs key.node key.scope name (fun _ => .unset) v
  | .default name, v =>
    ∃ socket, g.input key.node (.name name) = some socket ∧ v = .ofLanes? socket.default
  | .node name, v => subNodes name v
  | .literal value, v => v = .ofLiteral value

/-- How a sub-node was evaluated. -/
structure Making where
  /-- The values of its parameters. -/
  params : List (String × Value)
  /-- The recording once the parameters were known. -/
  before : Recording
  /-- What was done to it. -/
  steps : List Recording.Step
  value : Value
  after : Recording

/-- A sub-node was evaluated as its rule says, where sources have the values that are `given`. -/
structure Making.Follows (making : Making) (given : ValueSource → Value → Prop) (rule : SubNodeRule) :
    Prop where
  params : List.Forall₂ (fun param value => value.1 = param.1 ∧ given param.2 value.2) rule.params
    making.params
  /-- The nodes that it refers to were there before. -/
  before : ∀ param ∈ making.params, param.2.Before making.before.nodes.size
  steps : making.steps = (rule.type.emission making.params).steps making.before
  made : (rule.type.emission making.params).run making.before = (making.value, making.after)

section

variable {g : HostGraph} {outputs outputs' : Key → Value → Prop}
  {subNodes subNodes' : String → Value → Prop} {key : Key}

theorem HostGraph.Receives.mono {node : NodeId} {scope : List NodeId} {name : String}
    {unlinked : Socket → Value} {v : Value} (h : g.Receives outputs node scope name unlinked v)
    (more : ∀ key v, outputs key v → outputs' key v) : g.Receives outputs' node scope name unlinked v := by
  obtain ⟨socket, found, receives⟩ := h
  refine ⟨socket, found, ?_⟩
  cases hl : socket.visibleLink with
  | none => rwa [hl] at receives
  | some link =>
    rw [hl] at receives
    exact more _ _ receives

theorem ValueSource.Given.mono {source : ValueSource} {v : Value}
    (h : source.Given g outputs subNodes key v) (more : ∀ key v, outputs key v → outputs' key v)
    (moreSubNodes : ∀ name v, subNodes name v → subNodes' name v) :
    source.Given g outputs' subNodes' key v := by
  cases source with
  | input name =>
    have receives : g.Receives outputs key.node key.scope name _ v := h
    exact receives.mono more
  | link name =>
    have receives : g.Receives outputs key.node key.scope name _ v := h
    exact receives.mono more
  | default | literal => exact h
  | node name => exact moreSubNodes name v h

theorem Making.Follows.mono {making : Making} {given given' : ValueSource → Value → Prop}
    {rule : SubNodeRule} (h : making.Follows given rule)
    (more : ∀ source v, given source v → given' source v) : making.Follows given' rule :=
  ⟨h.params.imp fun _ _ same => ⟨same.1, more _ _ same.2⟩, h.before, h.steps, h.made⟩

/-- A native sub-node is one new node, also when more was recorded since. -/
theorem Making.Follows.native {making : Making} {given : ValueSource → Value → Prop} {rule : SubNodeRule}
    (h : making.Follows given rule) {kind : NativeKind} (native : rule.type = .native kind)
    {r : Recording} (within : making.after.Extends r) :
    making.value = .node ⟨making.before.nodes.size⟩ ∧
      making.after.nodes.size = making.before.nodes.size + 1 ∧
      ∃ node, r.nodes[making.before.nodes.size]? = some node ∧ node.kind = kind ∧
        ((rule.params.map Prod.fst).Nodup → ∀ param, node.params.get? param =
          (making.params.lookup param).bind Param.ofValue?) := by
  have made := h.made
  rw [native] at made
  obtain ⟨value, after⟩ : .node ⟨making.before.nodes.size⟩ = making.value ∧
    (making.before.create kind making.params).2 = making.after := Prod.mk.inj made
  have names : making.params.map Prod.fst = rule.params.map Prod.fst := by
    have related := h.params
    generalize making.params = values, rule.params = params at related ⊢
    induction related with
    | nil => rfl
    | cons here _ ih => rw [List.map_cons, List.map_cons, here.1, ih]
  rw [← after] at within ⊢
  have size : (making.before.create kind making.params).2.nodes.size = making.before.nodes.size + 1 :=
    Array.size_push _
  have last : (making.before.create kind making.params).2.nodes[making.before.nodes.size]? =
      some (.withParams kind making.params) := Array.getElem?_push_size
  refine ⟨value.symm, size, _, (within.getElem?_nodes (by omega)).trans last, rfl, fun nodup => ?_⟩
  exact RecordedNode.withParams_get? kind (names ▸ nodup)

end

/-! ## Accounts -/

/-- The output of a key is lowered by an entry of the table. -/
structure Setting.Ruled (s : Setting) (key : Key) (rules : NodeRules) : Prop where
  kind : s.graph.kind key.node ≠ .reroute
  unmuted : s.graph.muted key.node = false
  entry : s.table.get? (s.graph.kind key.node) = some rules
  output : rules.contains key.output = true

/-- The walk does not pass its node by. -/
theorem Setting.Ruled.bypass?_eq_none {s : Setting} {key : Key} {rules : NodeRules}
    (h : s.Ruled key rules) : bypass? s.graph key.node = none := by
  rw [bypass?, if_neg h.kind, h.unmuted]
  rfl

/-- The evaluations of sub-nodes, the latest first: each of a sub-node that the output refers to, after
    those that it refers to itself. -/
inductive Evaluated (s : Setting) (outputs : List (Key × Value)) :
    List ((Key × String) × Making) → Prop
  | nil : Evaluated s outputs []
  | cons {key : Key} {name : String} {rules : NodeRules} {rule : SubNodeRule} {making : Making}
      {earlier : List ((Key × String) × Making)} (rest : Evaluated s outputs earlier)
      (entry : s.table.get? (s.graph.kind key.node) = some rules) (found : rules.get? name = some rule)
      (reached : ReflTransGen rules.Refers key.output name)
      (follows : making.Follows
        (ValueSource.Given s.graph (fun other v => (other, v) ∈ outputs)
          (fun reference v => ∃ m, ((key, reference), m) ∈ earlier ∧ m.value = v) key) rule)
      (later : ∀ e ∈ earlier, e.2.after.Extends making.before) :
      Evaluated s outputs (((key, name), making) :: earlier)

/-- The steps of the evaluations for an output, in their order. -/
def Making.stepsFor (key : Key) (makings : List ((Key × String) × Making)) : List Recording.Step :=
  (makings.filter fun e => e.1.1 = key).reverse.flatMap fun e => e.2.steps

theorem Making.stepsFor_cons (key : Key) (e : (Key × String) × Making)
    (earlier : List ((Key × String) × Making)) :
    stepsFor key (e :: earlier) =
      stepsFor key earlier ++ if some e.1.1 = some key then e.2.steps else [] := by
  unfold stepsFor
  by_cases own : e.1.1 = key
  · rw [List.filter_cons_of_pos (by simpa using own), if_pos (congrArg some own), List.reverse_cons,
      List.flatMap_append, List.flatMap_singleton]
  · rw [List.filter_cons_of_neg (by simpa using own), if_neg fun same => own (Option.some.inj same),
      List.append_nil]

/-- It is known of all sub-nodes in the cache how they were evaluated, and what an entry lowers is in
    the cache together with its sub-node. For an output that an entry lowers nothing else was done. -/
structure Accounted (s : Setting) (cache : Cache) (r : Recording) (history : List Event) : Prop where
  evaluated : ∃ makings, Evaluated s cache.outputs.entries makings ∧
    makings.map (fun e => (e.1, e.2.value)) = cache.subNodes.entries ∧
    (∀ e ∈ makings, e.2.after.Extends r) ∧
    ∀ key rules, s.Ruled key rules → Event.stepsFor key history = Making.stepsFor key makings
  outputs : ∀ key v rules, (key, v) ∈ cache.outputs.entries → s.Ruled key rules →
    ((key, key.output), v) ∈ cache.subNodes.entries

section

variable {s : Setting} {cache : Cache} {r r' : Recording} {history : List Event}

theorem Evaluated.mono {outputs outputs' : List (Key × Value)} {makings : List ((Key × String) × Making)}
    (h : Evaluated s outputs makings) (more : outputs ⊆ outputs') : Evaluated s outputs' makings := by
  induction h with
  | nil => exact .nil
  | cons _ entry found reached follows later ih =>
    refine .cons ih entry found reached (follows.mono fun source v given => ?_) later
    exact given.mono (fun _ _ hm => more hm) fun _ _ => id

namespace Accounted

theorem empty (s : Setting) (r : Recording) : Accounted s .empty r [] :=
  ⟨⟨[], .nil, rfl, fun _ h => (by cases h), fun _ _ _ => rfl⟩, fun _ _ _ h => (by cases h)⟩

theorem recorded (h : Accounted s cache r history) (hr : r.Extends r') :
    Accounted s cache r' history := by
  obtain ⟨makings, evaluated, same, within, steps⟩ := h.evaluated
  exact ⟨⟨makings, evaluated, same, fun e he => (within e he).trans hr, steps⟩, h.outputs⟩

/-- Nothing is done for an output that an entry lowers. -/
theorem told (h : Accounted s cache r history) {later : List Event}
    (quiet : ∀ key rules, s.Ruled key rules → Event.stepsFor key later = []) :
    Accounted s cache r (later ++ history) := by
  obtain ⟨makings, evaluated, same, within, steps⟩ := h.evaluated
  refine ⟨⟨makings, evaluated, same, within, fun key rules ruled => ?_⟩, h.outputs⟩
  rw [Event.stepsFor_append, quiet key rules ruled, List.append_nil]
  exact steps key rules ruled

/-- Something is done for an output that no entry lowers. -/
theorem did (h : Accounted s cache r history) {output : Option Key}
    (unruled : ∀ key ∈ output, ∀ rules, ¬ s.Ruled key rules) (step : Recording.Step) :
    Accounted s cache r (.did output step :: history) := by
  have quiet : ∀ key rules, s.Ruled key rules → Event.stepsFor key [.did output step] = [] := by
    intro key rules ruled
    have other : output ≠ some key := fun same => unruled key same rules ruled
    simp [Event.stepsFor, other]
  exact h.told quiet

/-- An output comes into the cache that no entry lowers, or whose sub-node is known. -/
theorem put (h : Accounted s cache r history) {key : Key} {value : Value} (new : cache.get? key = none)
    (own : ∀ rules, s.Ruled key rules → ((key, key.output), value) ∈ cache.subNodes.entries) :
    Accounted s (cache.put key value) r history := by
  have entries : (cache.put key value).outputs.entries = (key, value) :: cache.outputs.entries :=
    Memo.entries_put_of_get?_eq_none value new
  obtain ⟨makings, evaluated, same, within, steps⟩ := h.evaluated
  refine ⟨⟨makings, ?_, same, within, steps⟩, ?_⟩
  · rw [entries]
    exact evaluated.mono (List.subset_cons_self _ _)
  · intro other v rules hm ruled
    rw [entries] at hm
    rcases List.mem_cons.1 hm with hm | hm
    · obtain ⟨rfl, rfl⟩ := Prod.mk.inj hm
      exact own rules ruled
    · exact h.outputs other v rules hm ruled

end Accounted

end

/-! ## Plans -/

/-- Every output keeps account, down to a depth. -/
def LowersAccounted (s : Setting) (fixed : Key → Prop) (depth : Nat) : Prop :=
  ∀ node output σ history, Sound s fixed σ → Stands σ.stack node →
    Accounted s σ.cache σ.recording history →
      Accounted s (on (Walk.lower s depth node output) σ).2.cache
        (on (Walk.lower s depth node output) σ).2.recording
        (Walk.events s depth node output σ ++ history)

/-- The output of a key is the one that is being lowered, and the state is sound and accounted for. -/
structure Ready (s : Setting) (fixed : Key → Prop) (key : Key) (σ : WalkState) (history : List Event) :
    Prop where
  material : key.material = s.graph.material
  scope : σ.scope = key.scope
  stands : Stands σ.stack key.node
  active : σ.active.head? = some key
  sound : Sound s fixed σ
  accounted : Accounted s σ.cache σ.recording history

/-- The value that a source has for an output, as a cache says. -/
abbrev Cache.Gives (g : HostGraph) (key : Key) (cache : Cache) : ValueSource → Value → Prop :=
  ValueSource.Given g (fun other v => (other, v) ∈ cache.outputs.entries)
    (fun reference v => ((key, reference), v) ∈ cache.subNodes.entries) key

/-- The events while a plan is carried out. -/
abbrev Setting.told (s : Setting) (depth : Nat) {α : Type} (plan : Plan α) (σ : WalkState) : List Event :=
  plan.events s.graph (Walk.lower s depth) (Walk.events s depth) σ

/-- A plan, carried out while the output of a key is being lowered: the walk is ready to go on, nothing
    in the cache is lost, and the cache in the end gives the result. -/
structure Runs (s : Setting) (fixed : Key → Prop) (depth : Nat) (key : Key) {α : Type} (σ : WalkState)
    (history : List Event) (Q : Cache → α → Prop) (plan : Plan α) : Prop where
  ready : Ready s fixed key (on (Walk.carryOut s.graph (Walk.lower s depth) plan) σ).2
    (s.told depth plan σ ++ history)
  grows : σ.cache.Grows (on (Walk.carryOut s.graph (Walk.lower s depth) plan) σ).2.cache
  result : ∀ a, (on (Walk.carryOut s.graph (Walk.lower s depth) plan) σ).1 = .ok a →
    Q (on (Walk.carryOut s.graph (Walk.lower s depth) plan) σ).2.cache a

/-- A run that keeps account, loses nothing of the cache, and has its result in the cache in the end. -/
structure Proceeds (s : Setting) {α : Type} (σ : WalkState) (history : List Event)
    (Q : Cache → α → Prop) (run : Except Failure α × WalkState) : Prop where
  accounted : Accounted s run.2.cache run.2.recording history
  grows : σ.cache.Grows run.2.cache
  result : ∀ a, run.1 = .ok a → Q run.2.cache a

theorem Cache.Grows.refl (cache : Cache) : cache.Grows cache :=
  ⟨List.suffix_refl _, List.suffix_refl _⟩

theorem Cache.Grows.trans {a b c : Cache} (h : a.Grows b) (h' : b.Grows c) : a.Grows c :=
  ⟨h.1.trans h'.1, h.2.trans h'.2⟩

theorem Cache.Grows.gives {g : HostGraph} {key : Key} {cache cache' : Cache} (h : cache.Grows cache')
    {source : ValueSource} {v : Value} (given : cache.Gives g key source v) :
    cache'.Gives g key source v :=
  ValueSource.Given.mono given (fun _ _ hm => h.1.subset hm) fun _ _ hm => h.2.subset hm

variable {s : Setting} {fixed : Key → Prop} {depth : Nat} {key : Key} {node : NodeId} {σ : WalkState}
  {history : List Event} {α β : Type}

namespace Ready

theorem key_eq (h : Ready s fixed key σ history) :
    (⟨key.node, key.output, σ.scope, s.graph.material⟩ : Key) = key := by
  rw [h.scope, ← h.material]

theorem noting (h : Ready s fixed key σ history) (notice : Notice) :
    Ready s fixed key (σ.noting notice) history :=
  ⟨h.material, h.scope, h.stands, h.active, h.sound.noting notice, h.accounted⟩

theorem of_evolves {σ' : WalkState} {history' : List Event} (h : Ready s fixed key σ history)
    (evolves : σ.Evolves σ') (sound : Sound s fixed σ')
    (accounted : Accounted s σ'.cache σ'.recording history') : Ready s fixed key σ' history' :=
  ⟨h.material, evolves.scope_eq.trans h.scope, h.stands.of_extends evolves.stack,
    evolves.active ▸ h.active, sound, accounted⟩

end Ready

namespace Runs

variable {Q : Cache → α → Prop} {R : Cache → β → Prop}

theorem of_proceeds {plan : Plan α} (ready : Ready s fixed key σ history)
    (sound : Sound s fixed (on (Walk.carryOut s.graph (Walk.lower s depth) plan) σ).2)
    (h : Proceeds s σ (s.told depth plan σ ++ history) Q
      (on (Walk.carryOut s.graph (Walk.lower s depth) plan) σ)) :
    Runs s fixed depth key σ history Q plan :=
  ⟨ready.of_evolves (Walk.carryOut_evolves (Walk.lower_evolves s depth) plan σ) sound h.accounted,
    h.grows, h.result⟩

theorem done (ready : Ready s fixed key σ history) {a : α} (h : Q σ.cache a) :
    Runs s fixed depth key σ history Q (.done a) :=
  ⟨ready, .refl _, fun _ ha => by cases ha; exact h⟩

theorem bind {plan : Plan α} {f : α → Plan β} (h : Runs s fixed depth key σ history Q plan)
    (hf : ∀ a σ' history', Ready s fixed key σ' history' → σ.cache.Grows σ'.cache → Q σ'.cache a →
      Runs s fixed depth key σ' history' R (f a)) :
    Runs s fixed depth key σ history R (plan >>= f) := by
  have run : on (Walk.carryOut s.graph (Walk.lower s depth) (plan >>= f)) σ = _ :=
    Walk.on_carryOut_bind plan f σ
  have told : s.told depth (plan >>= f) σ = _ := Plan.events_bind plan f σ
  obtain ⟨ready, grows, result⟩ := h
  generalize on (Walk.carryOut s.graph (Walk.lower s depth) plan) σ = first
    at ready grows result run told
  obtain ⟨failure | a, σ'⟩ := first
  · exact ⟨run ▸ told ▸ ready, run ▸ grows, fun b hb => by rw [run] at hb; cases hb⟩
  · obtain ⟨ready', grows', result'⟩ := hf a σ' _ ready grows (result a rfl)
    replace told : s.told depth (plan >>= f) σ = s.told depth (f a) σ' ++ s.told depth plan σ := told
    rw [← List.append_assoc, ← told] at ready'
    exact ⟨run ▸ ready', run ▸ grows.trans grows', run ▸ result'⟩

end Runs

namespace Walk

/-- A plan that keeps no sub-nodes keeps account if the outputs do that it asks for, and if it does
    nothing or no entry lowers its output. -/
theorem carryOut_accounted (regular : s.Regular fixed) (hv : LowersAccounted s fixed depth)
    {asks : NodeId → String → Prop} {plan : Plan α} (own : Plan.Local asks (fun _ _ _ => False) plan)
    (quiet : plan.Idle ∨ ∀ key ∈ σ.active.head?, ∀ rules, ¬ s.Ruled key rules)
    (within : ∀ source output, asks source output → ∀ stack, StackExtends σ.stack stack →
      Stands stack source)
    (sound : Sound s fixed σ) (h : Accounted s σ.cache σ.recording history) :
    Sound s fixed (on (carryOut s.graph (lower s depth) plan) σ).2 ∧
      Accounted s (on (carryOut s.graph (lower s depth) plan) σ).2.cache
        (on (carryOut s.graph (lower s depth) plan) σ).2.recording (s.told depth plan σ ++ history) := by
  induction own generalizing σ history with
  | done | fail => exact ⟨sound, h⟩
  | @visit source output next asked _ ih =>
    have stands := within source output asked σ.stack (.refl _)
    have sound' := (lowersSoundly regular depth source output σ sound stands).1
    have evolves := lower_evolves s depth source output σ
    have begun : Accounted s σ.cache σ.recording ([.asked source output σ] ++ history) :=
      h.told fun _ _ _ => rfl
    have accounted := hv source output σ _ sound stands begun
    have told : s.told depth (.visit source output next) σ = _ := Plan.events_visit _ _ _ _ _ _ next
    simp only [carryOut, on_bind]
    generalize on (lower s depth source output) σ = run at sound' evolves accounted told ⊢
    obtain ⟨failure | value, σ'⟩ := run
    · rw [told, List.append_assoc]
      exact ⟨sound', accounted⟩
    · have quiet' : (next value).Idle ∨ ∀ key ∈ σ'.active.head?, ∀ rules, ¬ s.Ruled key rules := by
        rw [evolves.active]
        refine quiet.imp_left fun idle => ?_
        cases idle with
        | visit _ _ go => exact go value
      have rest := ih value quiet' (fun source output asked stack extends' =>
        within source output asked stack (evolves.stack.trans extends')) sound' accounted
      rw [told, List.append_assoc, List.append_assoc]
      exact rest
  | @create kind params next _ ih =>
    have unruled := quiet.resolve_left fun idle => by cases idle
    have more := σ.recording.create_extends kind params
    have created := (h.did unruled ⟨.create kind params, σ.recording⟩).recorded more
    have rest := ih (σ.recording.create kind params).1
      (σ := { σ with recording := (σ.recording.create kind params).2 }) (.inr unruled) within
      (sound.recorded more) created
    have told : s.told depth (.create kind params next) σ = _ := Plan.events_create _ _ _ _ _ _ next
    rw [told, List.append_assoc]
    exact rest
  | @image descriptor next _ ih =>
    have unruled := quiet.resolve_left fun idle => by cases idle
    have more := σ.recording.materialize_extends descriptor
    have asked := (h.did unruled ⟨.materialize descriptor, σ.recording⟩).recorded more
    have rest := ih (σ.recording.materialize descriptor).1.toOption
      (σ := { σ with recording := (σ.recording.materialize descriptor).2 }) (.inr unruled) within
      (sound.recorded more) asked
    have told : s.told depth (.image descriptor next) σ = _ := Plan.events_image _ _ _ _ _ next
    rw [told, List.append_assoc]
    exact rest
  | @report notice next _ ih =>
    have told : s.told depth (.report notice next) σ = _ := Plan.events_report _ _ _ _ _ next
    rw [told]
    refine ih (quiet.imp_left fun idle => ?_) within (sound.noting _) h
    cases idle with
    | report _ go => exact go
  | known kept => exact kept.elim
  | remember kept => exact kept.elim

/-- Whatever feeds a node stands where the node does, also after the walk has gone on. -/
theorem stands_of_feeds (regular : s.Regular fixed) {stack : List Frame} (stands : Stands stack node)
    (source : NodeId) (output : String) (asked : s.graph.Feeds node source output) (stack' : List Frame)
    (extends' : StackExtends stack stack') : Stands stack' source :=
  (stands.of_extends extends').of_tree (regular.feeds node source output asked)

/-- Nothing is done while a plan reads inputs. -/
theorem runs_of_idle (regular : s.Regular fixed) (hv : LowersAccounted s fixed depth) {plan : Plan α}
    (own : Plan.Local (s.graph.Feeds key.node) (fun _ _ _ => False) plan) (idle : plan.Idle)
    (ready : Ready s fixed key σ history) {Q : Cache → α → Prop}
    (result : ∀ a σ', on (carryOut s.graph (lower s depth) plan) σ = (.ok a, σ') → Q σ'.cache a) :
    Runs s fixed depth key σ history Q plan := by
  obtain ⟨sound, accounted⟩ := carryOut_accounted regular hv own (.inl idle)
    (stands_of_feeds regular ready.stands) ready.sound ready.accounted
  exact ⟨ready.of_evolves (carryOut_evolves (lower_evolves s depth) plan σ) sound accounted,
    (Plan.events_told (lower_told regular.rules depth) own).grows,
    fun a ha => result a _ (Prod.ext ha rfl)⟩

/-- What reading a socket comes to. -/
theorem receives_of_throughLink {name : String} {unlinked : Socket → Value} {v : Value} {σ' : WalkState}
    (run : on (carryOut s.graph (lower s depth) (Plan.throughLink s.graph node (.name name) unlinked)) σ =
      (.ok v, σ')) :
    s.graph.Receives (fun other v => (other, v) ∈ σ'.cache.outputs.entries) node σ.scope name unlinked
      v := by
  rw [Plan.throughLink_eq] at run
  cases found : s.graph.input node (.name name) with
  | none =>
    rw [found] at run
    cases run
  | some socket =>
    refine ⟨socket, found, ?_⟩
    rw [found] at run
    dsimp only at run
    cases checked : s.graph.checkedLink node socket with
    | error failure =>
      rw [checked] at run
      cases run
    | ok link =>
      rw [checked] at run
      cases link with
      | none =>
        rw [HostGraph.visibleLink_of_checkedLink_none checked]
        cases run
        rfl
      | some link =>
        rw [HostGraph.visibleLink_of_checkedLink checked]
        dsimp only [carryOut] at run ⊢
        rw [on_bind] at run
        have known : (on (lower s depth link.node link.output) σ).1 = .ok v → _ := mem_cache_of_lower
        generalize on (lower s depth link.node link.output) σ = asked at run known
        obtain ⟨failure | value, σ''⟩ := asked
        · cases run
        · cases run
          exact known rfl

variable {rules : NodeRules} {subNode : String → Plan Value}

/-- The value of a parameter is that of its source. -/
theorem source_runs (regular : s.Regular fixed) (hv : LowersAccounted s fixed depth)
    (source : ValueSource)
    (hs : ∀ reference, source.reference? = some reference → ∀ σ history,
      Ready s fixed key σ history → Runs s fixed depth key σ history
        (fun cache v => ((key, reference), v) ∈ cache.subNodes.entries) (subNode reference))
    (ready : Ready s fixed key σ history) :
    Runs s fixed depth key σ history (fun cache v => cache.Gives s.graph key source v)
      ((s.site rules key.node key.output).source subNode source) := by
  cases source with
  | input name =>
    refine runs_of_idle regular hv (Plan.input_local _) (Plan.throughLink_idle _ _) ready
      fun v σ' run => ?_
    have receives := receives_of_throughLink run
    rw [ready.scope] at receives
    exact receives
  | link name =>
    refine runs_of_idle regular hv (Plan.inputLink_local _) (Plan.throughLink_idle _ _) ready
      fun v σ' run => ?_
    have receives := receives_of_throughLink run
    rw [ready.scope] at receives
    exact receives
  | default name =>
    refine runs_of_idle regular hv (Plan.inputDefault_local _) (Plan.inputDefault_idle _) ready
      fun v σ' run => ?_
    unfold Setting.site Plan.inputDefault HostGraph.socket at run
    dsimp only at run
    cases found : s.graph.input key.node (.name name) with
    | none =>
      rw [found] at run
      cases run
    | some socket =>
      rw [found] at run
      cases run
      exact ⟨socket, found, rfl⟩
  | node reference => exact hs reference rfl σ history ready
  | literal value => exact .done ready rfl

theorem params_runs (regular : s.Regular fixed) (hv : LowersAccounted s fixed depth)
    (params : List (String × ValueSource))
    (hs : ∀ param ∈ params, ∀ reference, param.2.reference? = some reference →
      ∀ σ history, Ready s fixed key σ history → Runs s fixed depth key σ history
        (fun cache v => ((key, reference), v) ∈ cache.subNodes.entries) (subNode reference))
    (ready : Ready s fixed key σ history) :
    Runs s fixed depth key σ history
      (fun cache => List.Forall₂ (fun param value => value.1 = param.1 ∧
        cache.Gives s.graph key param.2 value.2) params)
      ((s.site rules key.node key.output).params subNode params) := by
  induction params generalizing σ history with
  | nil => exact .done ready .nil
  | cons param rest ih =>
    have head : Runs s fixed depth key σ history _
        ((s.site rules key.node key.output).source subNode param.2) :=
      source_runs regular hv param.2 (hs param List.mem_cons_self) ready
    refine head.bind fun value σ' _ ready' _ given => ?_
    have tail := ih (fun other ho => hs other (List.mem_cons_of_mem _ ho)) ready'
    refine tail.bind fun values σ'' _ ready'' grows values_given => .done ready'' ?_
    exact .cons ⟨rfl, grows.gives given⟩ values_given

/-- A sub-node that was not known is evaluated as its rule says, and kept. -/
theorem evaluated_of_run (accounted : Accounted s σ.cache σ.recording history) {name : String}
    {rule : SubNodeRule} (entry : s.table.get? (s.graph.kind key.node) = some rules)
    (found : rules.get? name = some rule) (reached : ReflTransGen rules.Refers key.output name)
    (unknown : σ.cache.subNode? key name = none) {values : List (String × Value)}
    (valid : ∀ e ∈ values, e.2.Before σ.recording.nodes.size)
    (given : List.Forall₂ (fun param value => value.1 = param.1 ∧
      σ.cache.Gives s.graph key param.2 value.2) rule.params values) {value : Value} {r : Recording}
    (made : (rule.type.emission values).run σ.recording = (value, r)) :
    Accounted s (σ.cache.putSubNode key name value) r
      (.kept key name value ::
        ((((rule.type.emission values).steps σ.recording).map (.did (some key))).reverse ++ history)) := by
  obtain ⟨⟨makings, evaluated, same, within, steps⟩, outputs⟩ := accounted
  have entries : (σ.cache.putSubNode key name value).subNodes.entries =
      ((key, name), value) :: σ.cache.subNodes.entries :=
    Memo.entries_put_of_get?_eq_none value unknown
  have extends' : σ.recording.Extends r := by
    have grown := (rule.type.emission values).run_extends σ.recording
    rwa [made] at grown
  let making : Making :=
    ⟨values, σ.recording, (rule.type.emission values).steps σ.recording, value, r⟩
  refine ⟨⟨((key, name), making) :: makings, ?_, ?_, ?_, fun other rules ruled => ?_⟩, ?_⟩
  · refine .cons evaluated entry found reached
      ⟨given.imp fun param value here => ⟨here.1, ?_⟩, valid, rfl, made⟩ within
    refine here.2.mono (fun _ _ => id) fun reference v hm => ?_
    rw [← same] at hm
    obtain ⟨⟨_, making⟩, he, heq⟩ := List.mem_map.1 hm
    obtain ⟨rfl, rfl⟩ := Prod.mk.inj heq
    exact ⟨making, he, rfl⟩
  · rw [entries, List.map_cons, same]
  · exact List.forall_mem_cons.2 ⟨.refl r, fun e he => (within e he).trans extends'⟩
  · have kept : Event.stepsFor other [.kept key name value] = [] := rfl
    rw [Making.stepsFor_cons, ← steps other rules ruled, ← Event.stepsFor_did other (some key),
      ← List.singleton_append, Event.stepsFor_append, Event.stepsFor_append, kept, List.append_nil]
  · intro other v rules hm ruled
    rw [entries]
    exact List.mem_cons_of_mem _ (outputs other v rules hm ruled)

/-- A sub-node is created and kept. -/
abbrev making (key : Key) (name : String) (rule : SubNodeRule) (values : List (String × Value)) :
    Plan Value :=
  rule.type.plan values >>= fun value => .remember key.node key.output name value (.done value)

/-- Once the parameters of a sub-node are known, it is created and kept. -/
theorem making_proceeds (depth : Nat) {name : String} {rule : SubNodeRule}
    (entry : s.table.get? (s.graph.kind key.node) = some rules) (found : rules.get? name = some rule)
    (reached : ReflTransGen rules.Refers key.output name) (ready : Ready s fixed key σ history)
    (unknown : σ.cache.subNode? key name = none) {values : List (String × Value)}
    (valid : ∀ e ∈ values, e.2.Before σ.recording.nodes.size)
    (given : List.Forall₂ (fun param value => value.1 = param.1 ∧
      σ.cache.Gives s.graph key param.2 value.2) rule.params values) :
    Proceeds s σ (s.told depth (making key name rule values) σ ++ history)
      (fun cache v => ((key, name), v) ∈ cache.subNodes.entries)
      (on (carryOut s.graph (lower s depth) (making key name rule values)) σ) := by
  have told : s.told depth (making key name rule values) σ = _ := Plan.events_bind _ _ σ
  rw [told, on_carryOut_bind, RuleType.plan_eq, on_carryOut_ofEmission, Plan.events_ofEmission,
    ready.active]
  have accounted := evaluated_of_run ready.accounted entry found reached unknown valid given rfl
  generalize (rule.type.emission values).run σ.recording = made at accounted ⊢
  obtain ⟨value, r⟩ := made
  have kept : (σ.cache.putSubNode key name value).subNodes.entries =
      ((key, name), value) :: σ.cache.subNodes.entries :=
    Memo.entries_put_of_get?_eq_none value unknown
  have run : on (carryOut s.graph (lower s depth)
      (.remember key.node key.output name value (.done value))) { σ with recording := r } =
      (.ok value, { σ with recording := r, cache := σ.cache.putSubNode key name value }) := by
    conv_rhs => rw [← ready.key_eq]
    rfl
  have remembered : Plan.events s.graph (lower s depth) (events s depth)
      (.remember key.node key.output name value (.done value)) { σ with recording := r } =
        [.kept key name value] := by
    conv_rhs => rw [← ready.key_eq]
    exact Plan.events_remember _ _ _ _ _ _ _ _ _
  dsimp only
  rw [run, remembered, List.append_assoc]
  refine ⟨accounted, ⟨List.suffix_refl _, ?_⟩, fun v hv => ?_⟩
  · rw [kept]
    exact List.suffix_cons _ _
  · cases hv
    rw [kept]
    exact List.mem_cons_self

/-- What there is to do for a sub-node that was not known, its warning aside. -/
abbrev evaluation (s : Setting) (rules : NodeRules) (key : Key) (name : String) (rule : SubNodeRule) :
    Plan Value :=
  ((s.site rules key.node key.output).params (s.subNode rules key.node key.output) rule.params >>=
    rule.type.plan) >>= fun value => .remember key.node key.output name value (.done value)

theorem evaluation_eq (s : Setting) (rules : NodeRules) (key : Key) (name : String)
    (rule : SubNodeRule) : evaluation s rules key name rule =
      ((s.site rules key.node key.output).params (s.subNode rules key.node key.output) rule.params >>=
        making key name rule) := Plan.bind_assoc _ _ _

theorem evaluation_proceeds (regular : s.Regular fixed) (hv : LowersAccounted s fixed depth)
    {name : String} {rule : SubNodeRule} (entry : s.table.get? (s.graph.kind key.node) = some rules)
    (found : rules.get? name = some rule) (reached : ReflTransGen rules.Refers key.output name)
    (hs : ∀ param ∈ rule.params, ∀ reference, param.2.reference? = some reference →
      ∀ σ history, Ready s fixed key σ history → Runs s fixed depth key σ history
        (fun cache v => ((key, reference), v) ∈ cache.subNodes.entries)
        (s.subNode rules key.node key.output reference))
    (ready : Ready s fixed key σ history)
    (fresh : Plan.KeepsFresh s.graph (lower s depth) (evaluation s rules key name rule) σ) :
    Proceeds s σ (s.told depth (evaluation s rules key name rule) σ ++ history)
      (fun cache v => ((key, name), v) ∈ cache.subNodes.entries)
      (on (carryOut s.graph (lower s depth) (evaluation s rules key name rule)) σ) := by
  have tracked : Tracked s fixed depth RuleSite.ParamsAlike σ
      ((s.site rules key.node key.output).params (s.subNode rules key.node key.output) rule.params) :=
    params_tracked regular (lowersSoundly regular depth) rule.params (fun param hp reference hr σ =>
      subNode_tracked regular (lowersSoundly regular depth) entry reference
        ((regular.rules _ _ entry).closed name reference (RuleSite.mem_references found hp hr)))
      ready.sound ready.stands
  obtain ⟨ready', grows, given⟩ := params_runs regular hv rule.params hs ready
  have valid := tracked.kept.valid
  -- What is kept was not known at the moment when it is kept.
  have absent : ∀ {value : Value} {τ : WalkState}, on (carryOut s.graph (lower s depth)
      ((s.site rules key.node key.output).params (s.subNode rules key.node key.output) rule.params >>=
        rule.type.plan)) σ = (.ok value, τ) →
      τ.cache.subNode? ⟨key.node, key.output, τ.scope, s.graph.material⟩ name = none := by
    intro value τ run
    refine fresh _ name value τ ?_
    rw [Plan.moments_bind, run]
    exact List.mem_append_left _ (Plan.mem_moments_remember.2 (.inl rfl))
  simp only [on_carryOut_bind] at absent
  rw [evaluation_eq, on_carryOut_bind]
  have told : s.told depth ((s.site rules key.node key.output).params
    (s.subNode rules key.node key.output) rule.params >>= making key name rule) σ = _ :=
    Plan.events_bind _ _ σ
  rw [told]
  clear told
  generalize on (carryOut s.graph (lower s depth) ((s.site rules key.node key.output).params
    (s.subNode rules key.node key.output) rule.params)) σ = first
    at ready' grows given valid absent ⊢
  obtain ⟨failure | values, σ₁⟩ := first
  · exact ⟨ready'.accounted, grows, fun v hv => by cases hv⟩
  · simp only [RuleType.plan_eq, on_carryOut_ofEmission] at absent
    have before : ∀ e ∈ values, e.2.Before σ₁.recording.nodes.size := by
      intro e he
      obtain ⟨n, hn, rfl⟩ := List.mem_iff_getElem.1 he
      exact Recording.Valid.before ((valid values rfl).get hn hn).2
    have unknown : σ₁.cache.subNode? key name = none := by
      have new := absent rfl
      rwa [show (⟨key.node, key.output, _, s.graph.material⟩ : Key) = key from ready'.key_eq] at new
    have made := making_proceeds depth entry found reached ready' unknown before (given values rfl)
    rw [← List.append_assoc] at made
    exact ⟨made.accounted, grows.trans made.grows, made.result⟩

/-- A sub-node that the output refers to, whether it is known or not. -/
theorem subNode_runs (regular : s.Regular fixed) (hv : LowersAccounted s fixed depth)
    (entry : s.table.get? (s.graph.kind key.node) = some rules) (name : String)
    (hn : rules.contains name = true) (reached : ReflTransGen rules.Refers key.output name)
    (ready : Ready s fixed key σ history) :
    Runs s fixed depth key σ history (fun cache v => ((key, name), v) ∈ cache.subNodes.entries)
      (s.subNode rules key.node key.output name) := by
  have accepted : rules.Accepted := regular.rules _ _ entry
  have every : ∀ name, rules.contains name = true → ReflTransGen rules.Refers key.output name →
      ∀ σ history, Ready s fixed key σ history →
        Runs s fixed depth key σ history (fun cache v => ((key, name), v) ∈ cache.subNodes.entries)
          (s.subNode rules key.node key.output name) := by
    refine accepted.induction fun name hn ih reached σ history ready => ?_
    have tracked : Tracked s fixed depth Correspondence.Answer σ
        (s.subNode rules key.node key.output name) :=
      subNode_tracked regular (lowersSoundly regular depth) entry name hn ready.sound ready.stands
    refine .of_proceeds ready tracked.kept.sound ?_
    clear tracked
    obtain ⟨rule, found⟩ := Option.isSome_iff_exists.1 hn
    obtain ⟨done, searched, all⟩ := accepted.exists_order
    have active : RuleSite.Active (s.site rules key.node key.output) σ := by
      show (⟨key.node, key.output, σ.scope, s.graph.material⟩ : Key) ∈ σ.active
      rw [ready.key_eq]
      exact List.mem_of_mem_head? ready.active
    have fresh : Plan.KeepsFresh s.graph (lower s depth) (s.subNode rules key.node key.output name) σ :=
      RuleSite.subNode_keepsFresh (lower_told regular.rules depth) accepted searched.ordered
        searched.nodup searched.known (all name hn) active
    have refers : ∀ param ∈ rule.params, ∀ reference, param.2.reference? = some reference →
        rules.Refers name reference := fun param hp reference hr => RuleSite.mem_references found hp hr
    have before := fun param hp reference hr =>
      ih reference (refers param hp reference hr) (reached.tail (refers param hp reference hr))
    have equation : (s.site rules key.node key.output).fresh
        (s.subNode rules key.node key.output) name = _ := RuleSite.fresh_eq found
    cases known : σ.cache.subNode? ⟨key.node, key.output, σ.scope, s.graph.material⟩ name with
    | some value =>
      have moments : (s.subNode rules key.node key.output name).moments s.graph (lower s depth) σ = [] :=
        RuleSite.moments_known (s.site rules key.node key.output) accepted known
      rw [on_subNode_known _ accepted known, Setting.told, Plan.events, moments]
      rw [ready.key_eq] at known
      exact ⟨ready.accounted, .refl _, fun v hv => by cases hv; exact Memo.mem_entries_of_get? known⟩
    | none =>
      have moments : (s.subNode rules key.node key.output name).moments s.graph (lower s depth) σ =
          ((s.site rules key.node key.output).fresh (s.subNode rules key.node key.output) name).moments
            s.graph (lower s depth) σ :=
        RuleSite.moments_unknown (s.site rules key.node key.output) accepted known
      unfold Plan.KeepsFresh at fresh
      rw [moments, equation] at fresh
      rw [on_subNode_unknown _ accepted known, Setting.told, Plan.events, moments, equation]
      cases warn : rule.warn with
      | none =>
        rw [warn] at fresh
        exact evaluation_proceeds regular hv entry found reached before ready fresh
      | some message =>
        rw [warn] at fresh
        dsimp only at fresh ⊢
        rw [Plan.moments_report] at fresh ⊢
        obtain ⟨accounted, grows, result⟩ :=
          evaluation_proceeds regular hv entry found reached before (ready.noting _) fresh
        exact ⟨accounted, grows, result⟩
  exact every name hn reached σ history ready

end Walk

/-! ## Outputs -/

/-- The rules of an entry, applied to an output. -/
theorem RuleSite.plan_accounted (regular : s.Regular fixed) (hv : LowersAccounted s fixed depth)
    {rules : NodeRules} (entry : s.table.get? (s.graph.kind key.node) = some rules)
    (ready : Ready s fixed key σ history) :
    Runs s fixed depth key σ history
      (fun cache v => rules.contains key.output = true → ((key, key.output), v) ∈ cache.subNodes.entries)
      (RuleSite.plan ⟨s.graph, s.graph.kind key.node, rules, key.node, key.output⟩) := by
  unfold RuleSite.plan
  dsimp only
  cases has : rules.contains key.output with
  | true =>
    obtain ⟨ready', grows, result⟩ := Walk.subNode_runs regular hv entry key.output has .refl ready
    exact ⟨ready', grows, fun v hv _ => result v hv⟩
  | false => exact ⟨ready.noting _, .refl _, fun _ _ no => by cases no⟩

namespace Expansion

variable {output : String} {run : (NodeId → String → Walk Value) → Except Failure Value × WalkState}
  {moments : (NodeId → String → Walk Value) → List Moment}

/-- A step keeps account if the outputs do that it asks for. -/
theorem accounted (h : Expansion s node output σ run moments) (regular : s.Regular fixed)
    (hv : LowersAccounted s fixed depth)
    (ready : Ready s fixed ⟨node, output, σ.scope, s.graph.material⟩ σ history) :
    Accounted s (run (Walk.lower s depth)).2.cache (run (Walk.lower s depth)).2.recording
      ((moments (Walk.lower s depth)).flatMap (Moment.events (Walk.events s depth)) ++ history) := by
  obtain ⟨-, -, stands, active, sound, accounted⟩ := ready
  cases h with
  | @planned plan log origin own =>
    have noted : Ready s fixed ⟨node, output, σ.scope, s.graph.material⟩ { σ with log } history :=
      ⟨rfl, rfl, stands, active, ⟨sound.outputs, sound.waiting, sound.subNodes, sound.stack⟩, accounted⟩
    have unruled : Plan.Local (s.graph.Feeds node) (fun _ _ _ => False) plan →
        (∀ rules, ¬ s.Ruled ⟨node, output, σ.scope, s.graph.material⟩ rules) →
        Accounted s (on (Walk.carryOut s.graph (Walk.lower s depth) plan) { σ with log }).2.cache
          (on (Walk.carryOut s.graph (Walk.lower s depth) plan) { σ with log }).2.recording
          (s.told depth plan { σ with log } ++ history) := by
      intro own unruled
      have quiet : ∀ key ∈ σ.active.head?, ∀ rules, ¬ s.Ruled key rules := by
        rw [active]
        intro key same
        obtain rfl := Option.some.inj same
        exact unruled
      exact (Walk.carryOut_accounted (σ := { σ with log }) regular hv own (.inr quiet)
        (Walk.stands_of_feeds regular noted.stands) noted.sound accounted).2
    rcases origin with bypassed | task
    · refine unruled (bypass?_local bypassed) fun rules ruled => ?_
      rw [ruled.bypass?_eq_none] at bypassed
      cases bypassed
    · rcases task_local_cases task with ⟨rules, entry, rfl⟩ | ⟨absent, own⟩
      · exact (RuleSite.plan_accounted regular hv entry noted).ready.accounted
      · refine unruled (own _) fun rules ruled => ?_
        rw [ruled.entry] at absent
        cases absent
  | stopped | reentered | supplied => exact accounted
  | @called tree groupOutput log kind calls new leads =>
    have noted : Sound s fixed { σ with log } :=
      ⟨sound.outputs, sound.waiting, sound.subNodes, sound.stack⟩
    have begun : Accounted s σ.cache σ.recording ([.asked groupOutput output
        { σ with log, stack := ⟨node, tree, .empty⟩ :: σ.stack }] ++ history) :=
      accounted.told fun _ _ _ => rfl
    have inside := hv _ output _ _ (noted.calling calls stands) (regular.stands_groupOutput leads) begun
    simpa [List.append_assoc] using inside
  | @argued inside around frame log input call unknown =>
    obtain ⟨recording, cache, stack, lowering, log'⟩ := σ
    cases stack with
    | nil => cases call
    | cons first rest =>
      rw [Walk.innermostCall?_of_stands stands] at call
      obtain ⟨rfl, rfl, rfl⟩ : [] = inside ∧ first = frame ∧ rest = around := by simpa using call
      obtain ⟨-, site, -, around⟩ := sound.stack
      have outside : Sound s fixed ⟨recording, cache, rest, lowering, log⟩ :=
        ⟨sound.outputs, sound.waiting, sound.subNodes, around⟩
      have own : Plan.Local (s.graph.Feeds first.callSite) (fun _ _ _ => False)
        (Walk.argument s.graph first.callSite output) := argument_local output
      have argument := (Walk.carryOut_accounted regular hv own (.inl (argument_idle output))
        (Walk.stands_of_feeds regular site) outside accounted).2
      dsimp only
      generalize on (Walk.carryOut s.graph (Walk.lower s depth) (Walk.argument s.graph first.callSite
        output)) ⟨recording, cache, rest, lowering, log⟩ = run at argument ⊢
      obtain ⟨failure | found, σ'⟩ := run <;> exact argument

end Expansion

namespace Walk

/-- An output that an entry lowers comes to what its sub-node comes to. -/
theorem expand_of_ruled (regular : s.Regular fixed) (hv : LowersAccounted s fixed depth)
    {rules : NodeRules} (ruled : s.Ruled key rules) (ready : Ready s fixed key σ history) {v : Value}
    (run : (on (expand s (lower s depth) key.node key.output) σ).1 = .ok v) :
    ((key, key.output), v) ∈
      (on (expand s (lower s depth) key.node key.output) σ).2.cache.subNodes.entries := by
  have task : s.table.task s.graph key.node key.output =
      .plan (RuleSite.plan ⟨s.graph, s.graph.kind key.node, rules, key.node, key.output⟩) := by
    unfold RuleTable.task RuleTable.resolve?
    simp only [ruled.entry]
  rw [on_expand] at run ⊢
  simp only [ruled.bypass?_eq_none, task] at run ⊢
  exact (RuleSite.plan_accounted regular hv ruled.entry (ready.noting _)).result v run ruled.output

/-- Every output keeps account. -/
theorem lower_accounted (regular : s.Regular fixed) (depth : Nat) : LowersAccounted s fixed depth := by
  induction depth with
  | zero => exact fun _ _ _ _ _ _ h => h
  | succ depth ih =>
    intro node output σ history sound stands accounted
    have lowering := lowering s depth node output σ
    generalize on (lower s (depth + 1) node output) σ = run, events s (depth + 1) node output σ = told
      at lowering ⊢
    cases lowering with
    | known | waiting => exact accounted
    | @new key result σ' own unknown unmet ran =>
      subst own
      have ready : Ready s fixed ⟨node, output, σ.scope, s.graph.material⟩
          { σ with active := ⟨node, output, σ.scope, s.graph.material⟩ :: σ.active } history :=
        ⟨rfl, rfl, stands, rfl, sound.entered unknown, accounted⟩
      have step := (expansion regular.rules node output
        { σ with active := ⟨node, output, σ.scope, s.graph.material⟩ :: σ.active }).accounted regular ih
          ready
      have evolves := expand_evolves s (lower_evolves s depth) node output
        { σ with active := ⟨node, output, σ.scope, s.graph.material⟩ :: σ.active }
      have kept := fun rules (ruled : s.Ruled ⟨node, output, σ.scope, s.graph.material⟩ rules) v =>
        expand_of_ruled regular ih ruled ready (v := v)
      dsimp only at kept step
      rw [ran] at step evolves kept
      have ended : Accounted s σ'.cache σ'.recording
          ([.lowered ⟨node, output, σ.scope, s.graph.material⟩ result] ++ _) :=
        step.told fun _ _ _ => rfl
      cases result with
      | error failure => exact ended
      | ok value =>
        have absent := evolves.notMem_keys List.mem_cons_self unknown
        refine ended.put (Memo.get?_eq_none.2 fun entry he same => absent ?_) fun rules ruled =>
          kept rules ruled value rfl
        exact List.mem_map.2 ⟨entry, he, same⟩

end Walk

/-- Between questions all sub-nodes are accounted for. -/
theorem Lived.accounted (lived : Lived s σ history) (regular : s.Regular fixed) :
    Accounted s σ.cache σ.recording history := by
  induction lived with
  | start r => exact .empty s r
  | @ask σ history lived question ih =>
    have resting := (reached_iff_lived.2 ⟨_, lived⟩).resting regular
    obtain ⟨asks, own⟩ := question.plan_local s.graph
    -- No output is being lowered between questions.
    have quiet : ∀ key ∈ σ.active.head?, ∀ rules, ¬ s.Ruled key rules := by
      rw [(reached_iff_lived.2 ⟨_, lived⟩).idle.2]
      exact nofun
    rw [question.ask_eq resting.stack, question.events_eq]
    refine (Walk.carryOut_accounted regular (Walk.lower_accounted regular s.depth) own (.inr quiet) ?_
      resting.sound ih).2
    intro source _ _ stack extends'
    exact (resting.stands source).of_extends extends'
  | recorded _ hr ih => exact ih.recorded hr

end MaterialLowering
