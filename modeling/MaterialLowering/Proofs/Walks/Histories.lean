import Mathlib.Data.Finset.Card
import MaterialLowering.Proofs.Walks.Setbacks
import MaterialLowering.Proofs.Walks.Termination

/-!
# Whole histories

One question after the other is put to a walk, and some may fail. The events until then are the history
of a state, and the cache is what the history says: it has the outputs that came to a value, each of
which was lowered once and is found from then on, and none that failed.

Main definitions:
* `Question.events`: the events while a question is answered.
* `Lived`: the states between questions, with their histories.

Results:
* `reached_iff_lived`: every state between questions has a history.
* `Lived.chronicle`: what a history tells of the state that it led to.
* `Document.lowered_once`: every output of a document is lowered at most once.
-/

namespace MaterialLowering

open Walk (on)

variable {s : Setting} {fixed : Key → Prop} {failing : SortedMap String Unit} {σ : WalkState}

/-! ## Questions -/

/-- No output is stopped that is asked for while nothing is being lowered. -/
def Walk.Unstopped (s : Setting) : Prop :=
  ∀ node output {σ : WalkState} {failure : Failure}, σ.stack = [] → σ.active = [] →
    (on (Walk.output s node output) σ).1 = .error failure → ¬ failure.IsTooDeep

namespace Question

/-- What is carried out to answer a question outside of all calls. -/
def plan (g : HostGraph) : Question → Plan Value
  | .root =>
    match g.outputNode with
    | none => .fail (.missingOutputNode g.material)
    | some node => Plan.output node Walk.surface
  | .output node name => Plan.output node name
  | .input node key => Plan.input g node key
  | .inputLink node key => Plan.inputLink g node key
  | .inputDefault node key => Plan.inputDefault g node key
  | .requiredLink node key => Plan.requiredLink g node key
  | .groupInput node _ =>
    .fail (.unresolvableGroupBoundary (g.label node) "group input reached outside of a group call")

theorem plan_local (g : HostGraph) (question : Question) :
    ∃ asks, Plan.Local asks (fun _ _ _ => False) (question.plan g) := by
  have single : ∀ node name,
      Plan.Local (fun _ _ => True) (fun _ _ _ => False) (Plan.output node name) :=
    fun _ _ => .visit trivial .done
  cases question with
  | root =>
    refine ⟨fun _ _ => True, ?_⟩
    unfold plan
    cases g.outputNode with
    | none => exact .fail trivial
    | some node => exact single node Walk.surface
  | output node name => exact ⟨_, single node name⟩
  | input node key => exact ⟨g.Feeds node, Plan.input_local key⟩
  | inputLink node key => exact ⟨g.Feeds node, Plan.inputLink_local key⟩
  | inputDefault node key => exact ⟨g.Feeds node, Plan.inputDefault_local key⟩
  | requiredLink node key => exact ⟨g.Feeds node, Plan.requiredLink_local key⟩
  | groupInput node name => exact ⟨fun _ _ => True, .fail trivial⟩

theorem plan_alike (g : HostGraph) (question : Question) (w : Correspondence) :
    ∃ asks, Plan.Agree asks False w (question.plan g) (question.plan g) := by
  have single : ∀ node name,
      Plan.Agree (fun _ _ => True) False w (Plan.output node name) (Plan.output node name) :=
    fun _ _ => .visit trivial fun _ _ _ _ h => .done h
  cases question with
  | root =>
    refine ⟨fun _ _ => True, ?_⟩
    unfold plan
    cases g.outputNode with
    | none => exact .fail id
    | some node => exact single node Walk.surface
  | output node name => exact ⟨_, single node name⟩
  | input node key => exact ⟨g.Feeds node, Plan.input_alike key⟩
  | inputLink node key => exact ⟨g.Feeds node, Plan.inputLink_alike key⟩
  | inputDefault node key => exact ⟨g.Feeds node, Plan.inputDefault_alike key⟩
  | requiredLink node key => exact ⟨g.Feeds node, Plan.requiredLink_alike key⟩
  | groupInput node name => exact ⟨fun _ _ => True, .fail id⟩

/-- Outside of all calls a question is answered by carrying its plan out. -/
theorem ask_eq (question : Question) (stack : σ.stack = []) :
    Walk.ask s question σ = (on (Walk.planned s (question.plan s.graph)) σ).2 := by
  have single : ∀ node name, on (Walk.planned s (Plan.output node name)) σ =
      on (Walk.output s node name) σ := by
    intro node name
    show on (Walk.lower s s.depth node name >>= pure) σ = _
    rw [bind_pure]
    rfl
  cases question with
  | root =>
    unfold Walk.ask Walk.root plan
    dsimp only
    cases s.graph.outputNode with
    | none => rfl
    | some node =>
      dsimp only
      rw [single, Walk.on_bind]
      rcases on (Walk.output s node Walk.surface) σ with ⟨failure | value, σ'⟩
      · rfl
      · cases value <;> rfl
  | output node name => exact congrArg Prod.snd (single node name).symm
  | input | inputLink | inputDefault | requiredLink => rfl
  | groupInput node name =>
    unfold Walk.ask Walk.groupInput
    dsimp only
    rw [Walk.on_formal, stack]
    rfl

/-- The walk that answers a question outside of all calls, and its events. -/
def traced (s : Setting) (question : Question) : Traced Event Value :=
  .carryOut s.graph Moment.event (.lower s s.depth) (question.plan s.graph)

/-- The events while a question is answered outside of all calls, the latest first. -/
def events (s : Setting) (question : Question) (σ : WalkState) : List Event := (question.traced s).told σ

theorem traced_walk (s : Setting) (question : Question) :
    (question.traced s).walk = Walk.planned s (question.plan s.graph) := by
  simp only [traced, Traced.carryOut_walk, Traced.lower_walk]
  rfl

/-- They are those of the plan. -/
theorem events_eq (s : Setting) (question : Question) (σ : WalkState) :
    question.events s σ =
      (question.plan s.graph).events s.graph (Walk.lower s s.depth) (Walk.events s s.depth) σ := by
  simp only [events, traced, Traced.told_carryOut, Traced.lower_walk]
  rfl

theorem told (accepted : ∀ kind rules, s.table.get? kind = some rules → rules.Accepted)
    (question : Question) (σ : WalkState) :
    Told σ (on (Walk.planned s (question.plan s.graph)) σ) (question.events s σ) := by
  obtain ⟨asks, own⟩ := question.plan_local s.graph
  rw [events_eq]
  exact Plan.events_told (Walk.lower_told accepted s.depth) own

/-- No sub-node is in the cache twice after a question. -/
theorem distinct (accepted : ∀ kind rules, s.table.get? kind = some rules → rules.Accepted)
    (question : Question) (h : σ.cache.subNodes.Distinct) :
    (on (Walk.planned s (question.plan s.graph)) σ).2.cache.subNodes.Distinct := by
  have put : ∀ (cache : Cache) key value, cache.subNodes.Distinct →
      (cache.put key value).subNodes.Distinct := fun _ _ _ h => h
  have keep : ∀ (cache : Cache) key name value, cache.subNodes.Distinct →
      (cache.putSubNode key name value).subNodes.Distinct :=
    fun _ key name value h => h.put (key, name) value
  exact Plan.carryOut_preserves keep (fun _ _ _ => Walk.lower_preserves accepted put keep) _ σ h

/-- No output is. -/
theorem outputs_distinct (accepted : ∀ kind rules, s.table.get? kind = some rules → rules.Accepted)
    (question : Question) (h : σ.cache.outputs.Distinct) :
    (on (Walk.planned s (question.plan s.graph)) σ).2.cache.outputs.Distinct := by
  have put : ∀ (cache : Cache) key value, cache.outputs.Distinct →
      (cache.put key value).outputs.Distinct := fun _ key value h => h.put key value
  have keep : ∀ (cache : Cache) key name value, cache.outputs.Distinct →
      (cache.putSubNode key name value).outputs.Distinct := fun _ _ _ _ h => h
  exact Plan.carryOut_preserves keep (fun _ _ _ => Walk.lower_preserves accepted put keep) _ σ h

/-- What can be read off the cache can be read off it after a question. -/
theorem legible (regular : s.Regular fixed) (question : Question) (h : Legible s failing σ)
    (stack : σ.stack = []) :
    Legible s failing (on (Walk.planned s (question.plan s.graph)) σ).2 ∧
      ∀ moment ∈ (question.plan s.graph).moments s.graph (Walk.lower s s.depth) σ,
        Legible s failing moment.state := by
  obtain ⟨asks, alike⟩ := question.plan_alike s.graph .total
  have back := Walk.readsBack_of_asks (Walk.lower_legible regular s.depth) alike rfl h
    fun _ _ _ => by rw [stack]; trivial
  exact ⟨back.legible, back.states⟩

/-- No findings lead to an output that failed while a question was answered, unless they have one of
    those that did. -/
theorem setback (regular : s.Regular fixed) (unstopped : Walk.Unstopped s) (question : Question)
    (h : Legible s failing σ) (stack : σ.stack = []) (active : σ.active = []) {found : Findings}
    (cover : found.Cover (on (Walk.planned s (question.plan s.graph)) σ).2.cache.outputs.entries)
    (lacks : ∀ key ∈ (question.events s σ).filterMap Event.failed?, found key = none) {key : Key}
    (failed : key ∈ (question.events s σ).filterMap Event.failed?) : s.leads failing found key = false := by
  obtain ⟨failure, failed⟩ := Event.mem_failed?.1 failed
  rw [events_eq] at failed lacks
  obtain ⟨source, other, τ, asked, failed⟩ := Moment.exists_of_lowered failed
  obtain ⟨asks, own⟩ := question.plan_local s.graph
  obtain ⟨evolves, -⟩ := Plan.moments_evolve own (Walk.lower_evolves s s.depth) σ asked
  have outside : τ.stack = [] := evolves.stack_eq_nil stack
  have idle : τ.active = [] := evolves.active.trans active
  have result := (Walk.lower_told regular.rules s.depth source other τ).failed failed
  have ended := (Plan.carryOut_fails _ σ asked result).2
  have placed : Placed s.graph τ.stack source := by rw [outside]; trivial
  have cover : found.Cover (on (Walk.lower s s.depth source other) τ).2.cache.outputs.entries := by
    rw [← ended]
    exact cover
  have lacks : found.Lacks τ (Walk.events s s.depth source other τ) := by
    refine ⟨by rw [idle]; exact fun _ hm => (by cases hm), fun key failure he => ?_⟩
    exact lacks key (Event.mem_failed?.2 ⟨failure, Moment.mem_of_asks asked he⟩)
  exact Walk.lower_setback regular ((question.legible regular h stack).2 _ asked) placed failed
    (unstopped source other outside idle result) cover lacks

end Question

/-- Between questions no output is in the cache twice. -/
theorem Reached.outputs_distinct (reached : Reached s σ)
    (accepted : ∀ kind rules, s.table.get? kind = some rules → rules.Accepted) :
    σ.cache.outputs.Distinct := by
  induction reached with
  | start r => exact List.nodup_nil
  | ask reached question ih =>
    rw [question.ask_eq reached.idle.1]
    exact question.outputs_distinct accepted ih
  | recorded _ _ ih => exact ih

/-! ## Histories -/

/-- The states between questions, each with its history: the events until then, the latest first. -/
inductive Lived (s : Setting) : WalkState → List Event → Prop
  | start (r : Recording) : Lived s (.start r) []
  | ask {σ : WalkState} {events : List Event} (h : Lived s σ events) (question : Question) :
    Lived s (Walk.ask s question σ) (question.events s σ ++ events)
  | recorded {σ : WalkState} {events : List Event} (h : Lived s σ events) {r : Recording}
      (hr : σ.recording.Extends r) : Lived s { σ with recording := r } events

/-- Every state between questions has a history. -/
theorem reached_iff_lived : Reached s σ ↔ ∃ events, Lived s σ events := by
  constructor
  · intro reached
    induction reached with
    | start r => exact ⟨_, .start r⟩
    | ask _ question ih =>
      obtain ⟨events, lived⟩ := ih
      exact ⟨_, lived.ask question⟩
    | recorded _ hr ih =>
      obtain ⟨events, lived⟩ := ih
      exact ⟨events, lived.recorded hr⟩
  · rintro ⟨events, lived⟩
    induction lived with
    | start r => exact .start r
    | ask _ question ih => exact ih.ask question
    | recorded _ hr ih => exact ih.recorded hr

/-- No findings that have all the entries and none of the lost outputs lead to a lost output. -/
def Barred (s : Setting) (failing : SortedMap String Unit) (entries : List (Key × Value))
    (lost : List Key) : Prop :=
  ∀ found : Findings, found.Cover entries → (∀ key ∈ lost, found key = none) →
    ∀ key ∈ lost, s.leads failing found key = false

/-- Outputs that are lost never get into the cache: every entry is led to by those before it. -/
theorem Barred.notMem {entries older : List (Key × Value)} {lost : List Key}
    (barred : Barred s failing entries lost) (led : Led s failing (older ++ entries))
    (apart : ∀ key ∈ lost, key ∉ entries.map Prod.fst) :
    ∀ key ∈ lost, key ∉ (older ++ entries).map Prod.fst := by
  induction older with
  | nil => exact apart
  | cons entry older ih =>
    cases led with
    | @cons key value _ led fresh answer leads =>
      have absent := ih led
      rintro other lost hm
      rcases List.mem_cons.1 hm with same | hm
      · obtain rfl : other = key := same
        have unled := barred _ (led.cover.of_subset (List.subset_append_right _ _)) ?_ other lost
        · rw [leads] at unled
          cases unled
        · intro key lost
          exact Memo.get?_eq_none.2 fun entry he same =>
            absent key lost (List.mem_map.2 ⟨entry, he, same⟩)
      · exact absent other lost hm

/-- What a history tells of the state that it led to. -/
structure Chronicle (s : Setting) (failing : SortedMap String Unit) (σ : WalkState)
    (events : List Event) : Prop where
  legible : Legible s failing σ
  outputs : σ.cache.outputs.entries = events.filterMap Event.output?
  subNodes : σ.cache.subNodes.entries = events.filterMap Event.subNode?
  /-- No sub-node was kept twice. -/
  distinct : σ.cache.subNodes.Distinct
  /-- No output that failed is known, -/
  apart : ∀ key ∈ events.filterMap Event.failed?, key ∉ σ.cache.outputs.entries.map Prod.fst
  /-- nor will it ever be. -/
  barred : Barred s failing σ.cache.outputs.entries (events.filterMap Event.failed?)

namespace Chronicle

variable {events : List Event}

theorem start (r : Recording) : Chronicle s r.failing (.start r) [] :=
  ⟨.start r, rfl, rfl, .nil, fun _ h => (by cases h), fun _ _ _ _ h => (by cases h)⟩

theorem recorded (h : Chronicle s failing σ events) {r : Recording} (hr : σ.recording.Extends r) :
    Chronicle s failing { σ with recording := r } events :=
  ⟨h.legible.recorded hr, h.outputs, h.subNodes, h.distinct, h.apart, h.barred⟩

/-- The history goes on with the events of a question. -/
theorem ask (h : Chronicle s failing σ events) (regular : s.Regular fixed) (unstopped : Walk.Unstopped s)
    (stack : σ.stack = []) (active : σ.active = []) (question : Question) :
    Chronicle s failing (Walk.ask s question σ) (question.events s σ ++ events) := by
  have told := question.told regular.rules σ
  have legible := (question.legible regular h.legible stack).1
  have setback : ∀ found : Findings,
      found.Cover (on (Walk.planned s (question.plan s.graph)) σ).2.cache.outputs.entries →
      (∀ key ∈ (question.events s σ).filterMap Event.failed?, found key = none) →
      ∀ key ∈ (question.events s σ).filterMap Event.failed?, s.leads failing found key = false :=
    fun _ cover lacks _ => question.setback regular unstopped h.legible stack active cover lacks
  have distinct := question.distinct regular.rules h.distinct
  rw [question.ask_eq stack]
  generalize on (Walk.planned s (question.plan s.graph)) σ = run at told legible setback distinct ⊢
  have led := legible.outputs
  have outputs := told.outputs
  rw [outputs] at led
  refine ⟨legible, ?_, ?_, distinct, ?_, ?_⟩
  · rw [outputs, h.outputs, List.filterMap_append]
  · rw [told.subNodes, h.subNodes, List.filterMap_append]
  · intro key lost
    rw [outputs]
    rw [List.filterMap_append] at lost
    rcases List.mem_append.1 lost with lost | lost
    · obtain ⟨failure, failed⟩ := Event.mem_failed?.1 lost
      intro known
      obtain ⟨⟨_, value⟩, hm, rfl⟩ := List.mem_map.1 known
      rcases List.mem_append.1 hm with found | found
      · cases Event.result_unique told.once failed (Event.mem_output?.1 found)
      · exact Memo.get?_eq_none.1 (told.fresh failed).2 _ found rfl
    · exact h.barred.notMem led h.apart key lost
  · intro found cover lacks key lost
    rw [List.filterMap_append] at lacks lost
    rcases List.mem_append.1 lost with lost | lost
    · exact setback found cover (fun key lost => lacks key (List.mem_append_left _ lost)) key lost
    · rw [outputs] at cover
      exact h.barred found (cover.of_subset (List.subset_append_right _ _))
        (fun key lost => lacks key (List.mem_append_right _ lost)) key lost

end Chronicle

/-- Every history tells of the state that it led to. -/
theorem Lived.chronicle {events : List Event} (lived : Lived s σ events) (regular : s.Regular fixed)
    (unstopped : Walk.Unstopped s) : ∃ failing, Chronicle s failing σ events := by
  induction lived with
  | start r => exact ⟨_, .start r⟩
  | ask lived question ih =>
    obtain ⟨failing, chronicle⟩ := ih
    obtain ⟨stack, active⟩ := (reached_iff_lived.2 ⟨_, lived⟩).idle
    exact ⟨failing, chronicle.ask regular unstopped stack active question⟩
  | recorded _ hr ih =>
    obtain ⟨failing, chronicle⟩ := ih
    exact ⟨failing, chronicle.recorded hr⟩

/-- What is known is not lowered again, and nothing changes. -/
theorem Walk.output_known {node : NodeId} {output : String} {value : Value} (deep : 0 < s.depth)
    (known : σ.cache.get? ⟨node, output, σ.scope, s.graph.material⟩ = some value) :
    on (Walk.output s node output) σ = (.ok value, σ) := by
  obtain ⟨depth, hd⟩ : ∃ n, s.depth = n + 1 := ⟨s.depth - 1, by omega⟩
  unfold Walk.output
  rw [hd]
  show on (step s (lower s depth) node output) σ = _
  rw [on_step]
  simp only [known]

/-! ## Documents -/

/-- Outputs and sub-nodes were added to a cache in front of those that it had. -/
def Cache.Grows (cache cache' : Cache) : Prop :=
  cache.outputs.entries <:+ cache'.outputs.entries ∧ cache.subNodes.entries <:+ cache'.subNodes.entries

theorem Told.grows {α : Type} {run : Except Failure α × WalkState} {events : List Event}
    (told : Told σ run events) : σ.cache.Grows run.2.cache :=
  ⟨⟨_, told.outputs.symm⟩, ⟨_, told.subNodes.symm⟩⟩

namespace Document

variable {d : Document} {table : RuleTable}

theorem unstopped (d : Document) (hc : table.check = .ok ()) : Walk.Unstopped (d.setting table) :=
  fun node output _ _ stack active => (d.sufficient hc stack active node output).stopped _

/-- Each output is lowered at most once. A question lowers no output twice, and none that is known, and
    whatever is lowered, nothing in the cache is changed or removed. At any time the cache has just the
    outputs that came to a value and the sub-nodes that were kept, each once, and no output that failed,
    neither before nor since. What is known in some state is not lowered again there, and nothing
    changes. -/
theorem lowered_once (d : Document) (table : RuleTable) (hc : table.check = .ok ())
    {σ : WalkState} {events : List Event} (lived : Lived (d.setting table) σ events) :
    (∀ question : Question, ((question.events (d.setting table) σ).filterMap Event.lowered?).Nodup ∧
      ∀ key result, .lowered key result ∈ question.events (d.setting table) σ →
        σ.cache.get? key = none) ∧
    (∀ question, σ.cache.Grows (Walk.ask (d.setting table) question σ).cache) ∧
    (∀ depth node output (τ : WalkState),
      τ.cache.Grows (on (Walk.lower (d.setting table) depth node output) τ).2.cache) ∧
    σ.cache.outputs.Distinct ∧ σ.cache.subNodes.Distinct ∧
    (∀ key value, σ.cache.get? key = some value ↔ .lowered key (.ok value) ∈ events) ∧
    (∀ key name value, σ.cache.subNode? key name = some value ↔ .kept key name value ∈ events) ∧
    (∀ key failure, .lowered key (.error failure) ∈ events → σ.cache.get? key = none) ∧
    σ.cache.size = ((events.filterMap Event.output?).map Prod.fst).toFinset.card ∧
    ∀ node output (τ : WalkState) value, τ.cache.get? ⟨node, output, τ.scope, d.name⟩ = some value →
      on (Walk.output (d.setting table) node output) τ = (.ok value, τ) := by
  have regular : (d.setting table).Regular fun _ => False :=
    d.setting_regular hc fun _ _ _ _ _ _ _ _ no => no.elim
  obtain ⟨failing, chronicle⟩ := lived.chronicle regular (d.unstopped hc)
  obtain ⟨stack, -⟩ := (reached_iff_lived.2 ⟨_, lived⟩).idle
  have distinct : σ.cache.outputs.Distinct := chronicle.legible.outputs.nodup
  have deep : ∀ node output, 0 < (d.setting table).depth := fun node output =>
    Nat.zero_lt_of_lt (length_keysBelow_lt node output)
  refine ⟨fun question => ?_, fun question => ?_, fun depth node output τ => ?_, distinct,
    chronicle.distinct, fun key value => ?_, fun key name value => ?_, fun key failure failed => ?_, ?_,
    fun node output _ _ => Walk.output_known (s := d.setting table) (deep node output)⟩
  · have told := question.told regular.rules σ
    exact ⟨told.once, fun key result he => (told.fresh he).2⟩
  · rw [question.ask_eq stack]
    exact (question.told regular.rules σ).grows
  · exact (Walk.lower_told regular.rules depth node output τ).grows
  · rw [← Event.mem_output?, ← chronicle.outputs]
    exact ⟨Memo.mem_entries_of_get?, Memo.get?_of_mem distinct⟩
  · have kept : ((key, name), value) ∈ events.filterMap Event.subNode? ↔ _ := Event.mem_subNode?
    rw [← kept, ← chronicle.subNodes]
    exact ⟨Memo.mem_entries_of_get?, Memo.get?_of_mem chronicle.distinct⟩
  · have apart := chronicle.apart key (Event.mem_failed?.2 ⟨failure, failed⟩)
    exact Memo.get?_eq_none.2 fun entry he same => apart (List.mem_map.2 ⟨entry, he, same⟩)
  · rw [← chronicle.outputs, List.toFinset_card_of_nodup distinct, List.length_map]
    rfl

/-- After a color went through a group, an output failed that does not exist. -/
theorem lowered_once_passing :
    let s := passing.setting .builtin
    let call : Question := .output ⟨.material, 1⟩ "y"
    let missing : Question := .output ⟨⟨9⟩, 9⟩ "z"
    let σ := Walk.ask s call (.start .empty)
    let τ := Walk.ask s missing σ
    RuleTable.builtin.check = .ok () ∧
      Lived s τ (missing.events s σ ++ (call.events s (.start .empty) ++ [])) ∧
      (∃ value, τ.cache.get? ⟨⟨.material, 1⟩, "y", [], "passing"⟩ = some value ∧
        on (Walk.output s ⟨.material, 1⟩ "y") τ = (.ok value, τ)) ∧
      ⟨⟨⟨9⟩, 9⟩, "z", [], "passing"⟩ ∈ (missing.events s σ).filterMap Event.failed? ∧
      τ.cache.get? ⟨⟨⟨9⟩, 9⟩, "z", [], "passing"⟩ = none := by
  intro s call missing σ τ
  have lived : Lived s τ (missing.events s σ ++ (call.events s (.start .empty) ++ [])) :=
    ((Lived.start .empty).ask call).ask missing
  obtain ⟨-, -, -, -, -, -, -, apart, -, stays⟩ :=
    passing.lowered_once .builtin RuleTable.builtin_check lived
  have failed : ⟨⟨⟨9⟩, 9⟩, "z", [], "passing"⟩ ∈ (missing.events s σ).filterMap Event.failed? := by
    decide +kernel
  have known : (τ.cache.get? ⟨⟨.material, 1⟩, "y", [], "passing"⟩).isSome = true := by decide +kernel
  obtain ⟨value, hv⟩ := Option.isSome_iff_exists.1 known
  obtain ⟨failure, he⟩ := Event.mem_failed?.1 failed
  have outside : τ.stack = [] := (reached_iff_lived.2 ⟨_, lived⟩).idle.1
  have here : τ.cache.get? ⟨⟨.material, 1⟩, "y", τ.scope, passing.name⟩ = some value := by
    rw [WalkState.scope, outside]
    exact hv
  have again := stays ⟨.material, 1⟩ "y" τ value here
  have absent := apart ⟨⟨⟨9⟩, 9⟩, "z", [], "passing"⟩ failure (List.mem_append_left _ he)
  exact ⟨RuleTable.builtin_check, lived, ⟨value, hv, again⟩, failed, absent⟩

end Document

end MaterialLowering
