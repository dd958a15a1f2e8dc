import MaterialLowering.Proofs.Walks.Operations
import MaterialLowering.Proofs.Walks.TwinWalks

/-!
# What each output does

Whatever a walk does to the recording it does for an output that it lowers. Each of these outputs has
its *share*: the operations of its own plan, without those of the outputs that it asks for. As no output
is lowered twice, the shares make up all the operations. An output whose plan comes to a value does what
the plan does where the outputs that it asks for come to what is in the cache in the end.

Main definitions:
* `Event.Attributed`: all that was done was done for an output that was lowered.
* `Question.share`, `Question.shares`: what each output does itself.
* `Plan.Course`: what a plan does, and comes to, where outputs come to what was found.

Results:
* `Walk.attributed`: the events of a walk are attributed.
* `Question.operations_perm`: the shares make up all the operations.
* `Question.exists_course`: what is in the cache came about by a course of its plan.
-/

namespace MaterialLowering

open Walk (on)

/-! ## Attribution -/

namespace Event

variable {events : List Event} {key : Key}

/-- Whatever was done was done for an output that was lowered. -/
def Attributed (events : List Event) : Prop :=
  ∀ output step, .did output step ∈ events → ∃ key ∈ events.filterMap lowered?, output = some key

theorem stepsFor_eq_nil (h : ∀ step, .did (some key) step ∉ events) : stepsFor key events = [] := by
  refine List.reverse_eq_nil_iff.2 (List.filterMap_eq_nil_iff.2 fun event he => ?_)
  cases event with
  | asked | kept | lowered => rfl
  | did output step => exact if_neg fun own => h step (by rwa [own] at he)

/-- Where all was done for some of these outputs, what was done for each of them is all that was done. -/
theorem steps_perm {keys : List Key} (once : keys.Nodup)
    (h : ∀ output step, .did output step ∈ events → ∃ key ∈ keys, output = some key) :
    (steps events).Perm (keys.flatMap fun key => stepsFor key events) := by
  induction events with
  | nil => simp
  | cons event earlier ih =>
    have latest : steps [event] = keys.flatMap fun key => stepsFor key [event] := by
      cases event with
      | asked | kept | lowered => exact (List.flatMap_eq_nil_iff.2 fun _ _ => rfl).symm
      | did output step =>
        obtain ⟨own, hk, rfl⟩ := h output step List.mem_cons_self
        obtain ⟨before, after, rfl⟩ := List.append_of_mem hk
        have others : ∀ key ∈ before ++ after, stepsFor key [.did (some own) step] = [] := by
          refine fun key hm => stepsFor_eq_nil fun other he => ?_
          obtain ⟨same, -⟩ := Event.did.inj (List.mem_singleton.1 he)
          obtain rfl := Option.some.inj same
          exact (List.nodup_cons.1 (List.nodup_middle.1 once)).1 hm
        obtain ⟨left, right⟩ := List.forall_mem_append.1 others
        rw [List.flatMap_append, List.flatMap_cons, List.flatMap_eq_nil_iff.2 left,
          List.flatMap_eq_nil_iff.2 right, List.nil_append, List.append_nil]
        simp [steps, stepsFor]
    rw [← List.singleton_append, steps_append, latest]
    simp only [stepsFor_append]
    have before := ih fun output step he => h output step (List.mem_cons_of_mem _ he)
    exact (before.append_right _).trans (List.flatMap_append_perm ..)

end Event

/-! ## Walks -/

section

variable {told : NodeId → String → WalkState → List Event} {moments : List Moment} {key : Key}

/-- What is done at moments is attributed, if what is done there itself is done for an output that was
    lowered. -/
theorem Moment.attributed {events : List Event}
    (own : ∀ operation τ, .does operation τ ∈ moments →
      ∃ key ∈ events.filterMap Event.lowered?, τ.active.head? = some key)
    (others : ∀ node output τ, .asks node output τ ∈ moments →
      Event.Attributed (told node output τ) ∧ told node output τ ⊆ events) :
    ∀ output step, .did output step ∈ moments.flatMap (Moment.events told) →
      ∃ key ∈ events.filterMap Event.lowered?, output = some key := by
  intro output step he
  rcases Moment.exists_of_did he with ⟨operation, τ, hm, rfl⟩ | ⟨node, other, τ, hm, he⟩
  · exact own operation τ hm
  · obtain ⟨attributed, within⟩ := others node other τ hm
    obtain ⟨key, lowered, same⟩ := attributed output step he
    exact ⟨key, List.filterMap_subset _ within lowered, same⟩

/-- What is done for an output is done at the moment at which it is lowered. -/
theorem Moment.stepsFor_asked (once : ((moments.flatMap (Moment.events told)).filterMap
      Event.lowered?).Nodup)
    (others : ∀ operation τ, .does operation τ ∈ moments → τ.active.head? ≠ some key)
    (attributed : ∀ node output τ, Event.Attributed (told node output τ)) {node : NodeId}
    {output : String} {τ : WalkState} (asked : .asks node output τ ∈ moments)
    {result : Except Failure Value} (lowered : .lowered key result ∈ told node output τ) :
    Event.stepsFor key (moments.flatMap (Moment.events told)) =
      Event.stepsFor key (told node output τ) := by
  have elsewhere : ∀ moments' ⊆ moments,
      key ∉ (moments'.flatMap (Moment.events told)).filterMap Event.lowered? →
      Event.stepsFor key (moments'.flatMap (Moment.events told)) = [] := by
    refine fun moments' part absent => Event.stepsFor_eq_nil fun step he => ?_
    rcases Moment.exists_of_did he with ⟨operation, τ', hm, same⟩ | ⟨source, other, τ', hm, he⟩
    · exact others operation τ' (part hm) same.symm
    · obtain ⟨_, again, same⟩ := attributed source other τ' _ step he
      obtain rfl := Option.some.inj same
      obtain ⟨result', again⟩ := Event.mem_lowered?.1 again
      exact absent (Event.mem_lowered?.2 ⟨result', Moment.mem_of_asks hm again⟩)
  obtain ⟨later, earlier, rfl⟩ := List.append_of_mem asked
  have here : key ∈ (Moment.events told (.asks node output τ)).filterMap Event.lowered? :=
    Event.mem_lowered?.2 ⟨result, List.mem_append_left _ lowered⟩
  rw [List.flatMap_append, List.flatMap_cons, List.filterMap_append, List.filterMap_append] at once
  have before := List.disjoint_of_nodup_append once.of_append_right here
  have after := fun hm => List.disjoint_of_nodup_append once hm (List.mem_append_left _ here)
  rw [List.flatMap_append, List.flatMap_cons, Event.stepsFor_append, Event.stepsFor_append,
    elsewhere later (List.subset_append_left _ _) after,
    elsewhere earlier (List.subset_append_of_subset_right _ (List.subset_cons_self _ _)) before]
  simp [Event.stepsFor]

end

namespace Walk

variable {s : Setting} (accepted : ∀ kind rules, s.table.get? kind = some rules → rules.Accepted)

include accepted

/-- What a step does itself it does for its own output. -/
theorem moments_own {depth : Nat} {node : NodeId} {output : String} {σ : WalkState}
    {operation : Recording.Operation} {τ : WalkState}
    (hm : .does operation τ ∈ moments s (lower s depth) node output σ) : τ.active = σ.active := by
  obtain ⟨log, stack, evolves⟩ :=
    (expansion accepted node output σ).evolves (lower_evolves s depth) hm
  exact evolves.active

/-- Whatever a walk does it does for outputs that it lowers. -/
theorem attributed (depth : Nat) (node : NodeId) (output : String) (σ : WalkState) :
    Event.Attributed (events s depth node output σ) := by
  induction depth generalizing node output σ with
  | zero => exact fun _ _ he => (by cases he)
  | succ depth ih =>
    rw [events_succ]
    dsimp only
    split
    · exact fun _ _ he => (by cases he)
    · intro other step he
      rcases List.mem_cons.1 he with he | he
      · cases he
      · refine Moment.attributed (fun operation τ hm => ?_) (fun source name τ hm => ?_) other step he
        · exact ⟨_, List.mem_cons_self, by rw [moments_own accepted hm]; rfl⟩
        · refine ⟨ih source name τ, fun event he => List.mem_cons_of_mem _ ?_⟩
          exact Moment.mem_of_asks hm he

/-- Nothing is done for an output that was begun before. -/
theorem stepsFor_eq_nil {depth : Nat} {node : NodeId} {output : String} {σ : WalkState} {key : Key}
    (waits : key ∈ σ.active) : Event.stepsFor key (events s depth node output σ) = [] := by
  refine Event.stepsFor_eq_nil fun step he => ?_
  obtain ⟨own, lowered, same⟩ := attributed accepted depth node output σ _ step he
  obtain rfl := Option.some.inj same
  obtain ⟨result, lowered⟩ := Event.mem_lowered?.1 lowered
  exact ((lower_told accepted depth node output σ).fresh lowered).1 waits

end Walk

/-! ## Courses -/

namespace Plan

variable {α : Type}

/-- Where outputs come to what was found, the plan does these operations and comes to this value. The
    nodes that it creates are in the recording. -/
inductive Course (found : NodeId → String → Option Value) (r : Recording) :
    Plan α → List Recording.Operation → α → Prop
  | done (a : α) : Course found r (.done a) [] a
  | visit {node : NodeId} {output : String} {next : Value → Plan α} {value : Value}
      {operations : List Recording.Operation} {a : α} (known : found node output = some value)
      (go : Course found r (next value) operations a) :
      Course found r (.visit node output next) operations a
  | create {kind : NativeKind} {params : List (String × Value)} {next : NodeHandle → Plan α}
      {handle : NodeHandle} {operations : List Recording.Operation} {a : α}
      (made : r.node? handle = some (.withParams kind params))
      (go : Course found r (next handle) operations a) :
      Course found r (.create kind params next) (.create kind params :: operations) a
  | image {descriptor : ImageDescriptor} {next : Option ImageHandle → Plan α}
      (image : Option ImageHandle) {operations : List Recording.Operation} {a : α}
      (go : Course found r (next image) operations a) :
      Course found r (.image descriptor next) (.materialize descriptor :: operations) a
  | report (notice : Notice) {next : Plan α} {operations : List Recording.Operation} {a : α}
      (go : Course found r next operations a) : Course found r (.report notice next) operations a
  | known {node : NodeId} {output name : String} {next : Option Value → Plan α}
      (value : Option Value) {operations : List Recording.Operation} {a : α}
      (go : Course found r (next value) operations a) :
      Course found r (.known node output name next) operations a
  | remember (node : NodeId) (output name : String) (value : Value) {next : Plan α}
      {operations : List Recording.Operation} {a : α} (go : Course found r next operations a) :
      Course found r (.remember node output name value next) operations a

/-- The course of a plan in two parts. -/
theorem Course.of_bind {β : Type} {found : NodeId → String → Option Value} {r : Recording}
    {p : Plan α} {f : α → Plan β} {operations : List Recording.Operation} {b : β}
    (h : Course found r (p >>= f) operations b) :
    ∃ before after a, Course found r p before a ∧ Course found r (f a) after b ∧
      operations = before ++ after := by
  replace h : Course found r (p.bind f) operations b := h
  induction p generalizing operations with
  | done a => exact ⟨[], operations, a, .done a, h, rfl⟩
  | fail failure => cases h
  | visit node output next ih =>
    cases h with
    | visit known go =>
      obtain ⟨before, after, a, first, rest, same⟩ := ih _ go
      exact ⟨before, after, a, .visit known first, rest, same⟩
  | create kind params next ih =>
    cases h with
    | create made go =>
      obtain ⟨before, after, a, first, rest, same⟩ := ih _ go
      exact ⟨_ :: before, after, a, .create made first, rest, congrArg _ same⟩
  | image descriptor next ih =>
    cases h with
    | image image go =>
      obtain ⟨before, after, a, first, rest, same⟩ := ih _ go
      exact ⟨_ :: before, after, a, .image image first, rest, congrArg _ same⟩
  | report notice next ih =>
    cases h with
    | report _ go =>
      obtain ⟨before, after, a, first, rest, same⟩ := ih go
      exact ⟨before, after, a, .report notice first, rest, same⟩
  | known node output name next ih =>
    cases h with
    | known value go =>
      obtain ⟨before, after, a, first, rest, same⟩ := ih _ go
      exact ⟨before, after, a, .known value first, rest, same⟩
  | remember node output name value next ih =>
    cases h with
    | remember _ _ _ _ go =>
      obtain ⟨before, after, a, first, rest, same⟩ := ih go
      exact ⟨before, after, a, .remember node output name value first, rest, same⟩

end Plan

/-- What is in a state is found, and the recording has its nodes. -/
structure Findings.Reach (found : Findings) (r : Recording) (σ : WalkState) : Prop where
  cover : found.Cover σ.cache.outputs.entries
  recording : σ.recording.Extends r

theorem Findings.Reach.of_within {found : Findings} {r : Recording} {σ σ' : WalkState}
    (h : found.Reach r σ') (within : σ.stock.Within σ'.stock) : found.Reach r σ :=
  ⟨h.cover.of_subset within.outputs, within.recording.trans h.recording⟩

section

variable {α : Type} {s : Setting} {visit : NodeId → String → Walk Value} {depth : Nat}
  {found : Findings} {r : Recording} {σ : WalkState}

/-- A plan takes its course where outputs come to what is found in the end. -/
theorem Plan.carryOut_course (accepted : ∀ kind rules, s.table.get? kind = some rules → rules.Accepted)
    {plan : Plan α} {a : α} {key : Key} (own : σ.active.head? = some key)
    (ran : (on (Walk.carryOut s.graph (Walk.lower s depth) plan) σ).1 = .ok a)
    (reach : found.Reach r (on (Walk.carryOut s.graph (Walk.lower s depth) plan) σ).2) :
    plan.Course (found.inside s.graph σ.scope) r
      ((Event.stepsFor key (plan.events s.graph (Walk.lower s depth) (Walk.events s depth) σ)).map
        Recording.Step.operation) a := by
  induction plan generalizing σ with
  | done b =>
    obtain rfl : b = a := Except.ok.inj ran
    exact .done b
  | fail failure => cases ran
  | visit node output next ih =>
    have evolves := Walk.lower_evolves s depth node output σ
    have kept : ∀ {value}, (on (Walk.lower s depth node output) σ).1 = .ok value →
        (⟨node, output, σ.scope, s.graph.material⟩, value) ∈
          (on (Walk.lower s depth node output) σ).2.cache.outputs.entries := Walk.mem_cache_of_lower
    have apart : Event.stepsFor key (Walk.events s depth node output σ ++ [.asked node output σ]) = [] := by
      rw [Event.stepsFor_append, Walk.stepsFor_eq_nil accepted (List.mem_of_head? own)]
      rfl
    simp only [Walk.carryOut, Walk.on_bind] at ran reach
    rw [events_visit]
    rcases hl : on (Walk.lower s depth node output) σ with ⟨failure | value, σ'⟩ <;>
      rw [hl] at evolves kept ran reach
    · cases ran
    · have rest := Walk.carryOut_evolves (g := s.graph) (Walk.lower_evolves s depth) (next value) σ'
      have known := (reach.of_within rest.stock).cover _ (kept rfl)
      have later := ih value (evolves.active ▸ own) ran reach
      rw [evolves.scope_eq] at later
      rw [Event.stepsFor_append, apart]
      exact .visit known later
  | create kind params next ih =>
    have rest := Walk.carryOut_evolves (g := s.graph) (Walk.lower_evolves s depth)
      (next (σ.recording.create kind params).1)
      { σ with recording := (σ.recording.create kind params).2 }
    rw [events_create, Event.stepsFor_append, own, Event.stepsFor_own]
    refine .create ?_ (ih _ ?_ ran reach)
    · exact (rest.recording.trans reach.recording).node?_eq Array.getElem?_push_size
    · exact own
  | image descriptor next ih =>
    rw [events_image, Event.stepsFor_append, own, Event.stepsFor_own]
    refine .image _ (ih _ ?_ ran reach)
    exact own
  | report notice next ih =>
    rw [events_report]
    refine .report notice (ih ?_ ran reach)
    exact own
  | known node output name next ih =>
    rw [events_known]
    exact .known _ (ih _ own ran reach)
  | remember node output name value next ih =>
    rw [events_remember, Event.stepsFor_append]
    refine .remember _ _ _ _ (ih ?_ ran reach)
    exact own

/-- The state in which an output is found that a plan asks for is before the one that the plan ends in. -/
theorem Plan.stock_asked {g : HostGraph} (steady : ∀ node output, Walk.Steady (visit node output))
    (plan : Plan α) {source : NodeId} {other : String} {τ : WalkState}
    (hm : .asks source other τ ∈ plan.moments g visit σ) :
    (on (visit source other) τ).2.stock.Within (on (Walk.carryOut g visit plan) σ).2.stock := by
  induction plan generalizing σ with
  | done | fail => cases hm
  | visit node output next ih =>
    simp only [Walk.carryOut, Walk.on_bind]
    obtain here | ⟨value, σ', ran, hm⟩ := mem_moments_visit.1 hm
    · obtain ⟨rfl, rfl, rfl⟩ := Moment.asks.inj here
      rcases on (visit source other) τ with ⟨failure | value, σ'⟩
      · exact .refl _
      · exact (Walk.carryOut_evolves steady (next value) σ').stock
    · rw [ran]
      exact ih value hm
  | create kind params next ih =>
    rcases mem_moments_create.1 hm with other | hm
    · cases other
    · exact ih _ hm
  | image descriptor next ih =>
    rcases mem_moments_image.1 hm with other | hm
    · cases other
    · exact ih _ hm
  | report notice next ih =>
    rw [moments_report] at hm
    exact ih hm
  | known node output name next ih =>
    rw [moments_known] at hm
    exact ih _ hm
  | remember node output name value next ih =>
    rcases mem_moments_remember.1 hm with other | hm
    · cases other
    · exact ih hm

/-- So it is before the one that a step ends in. -/
theorem Expansion.stock_asked {node source : NodeId} {output other : String} {τ : WalkState}
    {run : (NodeId → String → Walk Value) → Except Failure Value × WalkState}
    {moments : (NodeId → String → Walk Value) → List Moment}
    (h : Expansion s node output σ run moments)
    (steady : ∀ node output, Walk.Steady (visit node output))
    (hm : .asks source other τ ∈ moments visit) :
    (on (visit source other) τ).2.stock.Within (run visit).2.stock := by
  cases h with
  | planned log _ _ => exact Plan.stock_asked steady _ hm
  | stopped | reentered | supplied => cases hm
  | called =>
    obtain ⟨rfl, rfl, rfl⟩ := Moment.asks.inj (List.mem_singleton.1 hm)
    rw [WalkState.leaving_stock]
    exact .refl _
  | @argued inside around frame log _ _ _ =>
    have before := Plan.stock_asked steady _ hm
    dsimp only
    generalize on (Walk.carryOut s.graph visit (Walk.argument s.graph frame.callSite output)) _ = run
      at before ⊢
    obtain ⟨failure | found, σ'⟩ := run
    · exact before
    · exact before

end

namespace Walk

variable {s : Setting} (accepted : ∀ kind rules, s.table.get? kind = some rules → rules.Accepted)
  {depth : Nat} {node : NodeId} {output : String} {σ : WalkState}

include accepted

/-- An output with a plan takes the course of the plan. -/
theorem expand_course {plan : Plan Value} (course : s.course node output = .plan plan)
    {found : Findings} {r : Recording} {key : Key} {value : Value} (own : σ.active.head? = some key)
    (ran : (on (expand s (lower s depth) node output) σ).1 = .ok value)
    (reach : found.Reach r (on (expand s (lower s depth) node output) σ).2) :
    plan.Course (found.inside s.graph σ.scope) r
      ((Event.stepsFor key ((moments s (lower s depth) node output σ).flatMap
        (Moment.events (events s depth)))).map Recording.Step.operation) value := by
  rw [on_expand] at ran reach
  rw [moments_eq]
  unfold Setting.course at course
  cases hb : bypass? s.graph node with
  | some bypass =>
    rw [hb] at course ran reach
    cases course
    exact plan.carryOut_course accepted own ran reach
  | none =>
    rw [hb] at course ran reach
    dsimp only at course ran reach ⊢
    rw [course] at ran reach ⊢
    exact plan.carryOut_course accepted (σ := σ.noting _) own ran reach

/-- An output that was lowered to a value took the course of its plan, where outputs come to what is
    found in the end, and what was done for it is what the plan did. -/
theorem lower_course {found : Findings} {r : Recording}
    (reach : found.Reach r (on (lower s depth node output) σ).2) {key : Key} {value : Value}
    (lowered : .lowered key (.ok value) ∈ events s depth node output σ) {plan : Plan Value}
    (course : s.course key.node key.output = .plan plan) :
    plan.Course (found.inside s.graph key.scope) r
      ((Event.stepsFor key (events s depth node output σ)).map Recording.Step.operation) value := by
  induction depth generalizing node output σ with
  | zero => cases lowered
  | succ depth ih =>
    have once := (lower_told accepted (depth + 1) node output σ).once
    have lowering := lowering s depth node output σ
    generalize on (lower s (depth + 1) node output) σ = run, events s (depth + 1) node output σ = told
      at reach lowered lowering once ⊢
    cases lowering with
    | known | waiting => cases lowered
    | @new own result σ' here unknown unmet ran =>
      have evolves := expand_evolves s (lower_evolves s depth) node output
        { σ with active := own :: σ.active }
      rw [ran] at evolves
      have fresh := evolves.notMem_keys List.mem_cons_self unknown
      have within : found.Reach r σ' := reach.of_within (σ'.stock_finished result fresh)
      obtain ⟨apart, once⟩ := List.nodup_cons.1 once
      rw [← List.singleton_append, Event.stepsFor_append, show Event.stepsFor key
        [.lowered own result] = [] from rfl, List.append_nil]
      rcases List.mem_cons.1 lowered with head | nested
      · obtain ⟨rfl, rfl⟩ := Event.lowered.inj head
        subst here
        exact expand_course accepted (σ := { σ with active := _ :: σ.active }) course rfl
          (by rw [ran]) (by rw [ran]; exact within)
      · obtain ⟨source, other, τ, asked, told⟩ := Moment.exists_of_lowered nested
        have others : ∀ operation τ, .does operation τ ∈ moments s (lower s depth) node output
            { σ with active := own :: σ.active } → τ.active.head? ≠ some key := by
          intro operation τ hm same
          rw [moments_own accepted hm] at same
          obtain rfl : own = key := Option.some.inj same
          exact apart (Event.mem_lowered?.2 ⟨_, nested⟩)
        rw [Moment.stepsFor_asked once others (attributed accepted depth) asked told]
        have before := (expansion accepted node output
          { σ with active := own :: σ.active }).stock_asked (lower_evolves s depth) asked
        rw [ran] at before
        exact ih (within.of_within before) told

end Walk

/-! ## Questions -/

namespace Question

/-- Nothing is done for a question itself. -/
theorem plan_idle (g : HostGraph) (question : Question) : (question.plan g).Idle := by
  have single : ∀ node name, (Plan.output node name).Idle := fun _ _ => .visit _ _ fun _ => .done _
  cases question with
  | root =>
    unfold plan
    cases g.outputNode with
    | none => exact .fail _
    | some node => exact single node Walk.surface
  | output node name => exact single node name
  | input node key => exact Plan.throughLink_idle _ _
  | inputLink node key => exact Plan.throughLink_idle _ _
  | inputDefault node key => exact Plan.inputDefault_idle key
  | requiredLink node key => exact Plan.requiredLink_idle key
  | groupInput node name => exact .fail _

/-- What an output does itself while a question is answered outside of all calls. -/
def share (s : Setting) (question : Question) (σ : WalkState) (key : Key) : List Recording.Operation :=
  (Event.stepsFor key (question.events s σ)).map Recording.Step.operation

/-- What the outputs do themselves that are lowered while a question is answered. -/
def shares (s : Setting) (question : Question) (σ : WalkState) : List (Key × List Recording.Operation) :=
  ((question.events s σ).filterMap Event.lowered?).map fun key => (key, question.share s σ key)

variable {s : Setting} (accepted : ∀ kind rules, s.table.get? kind = some rules → rules.Accepted)

include accepted

/-- Whatever is done for a question is done for outputs that are lowered. -/
theorem attributed (question : Question) (σ : WalkState) : Event.Attributed (question.events s σ) := by
  rw [events_eq]
  refine Moment.attributed (fun operation τ hm => ?_) fun node output τ hm => ?_
  · exact ((question.plan_idle s.graph).moments hm).elim
  · exact ⟨Walk.attributed accepted s.depth node output τ, fun _ => Moment.mem_of_asks hm⟩

/-- The shares make up all the operations of a question. -/
theorem operations_perm (question : Question) (σ : WalkState) :
    (question.operations s σ).Perm ((question.shares s σ).flatMap Prod.snd) := by
  have perm := Event.steps_perm (question.told accepted σ).once (question.attributed accepted σ)
  rw [shares, List.flatMap_map]
  exact (perm.map _).trans (.of_eq List.map_flatMap)

/-- What came into the cache by a question came about by a course of its plan, where outputs come to
    what is in the cache in the end; and its share is what the plan did. -/
theorem exists_course {question : Question} {σ : WalkState} (stack : σ.stack = [])
    (distinct : σ.cache.outputs.Distinct) {key : Key} {value : Value}
    (unknown : σ.cache.get? key = none)
    (known : (Walk.ask s question σ).cache.get? key = some value) {plan : Plan Value}
    (course : s.course key.node key.output = .plan plan) :
    plan.Course ((Findings.ofEntries (Walk.ask s question σ).cache.outputs.entries).inside s.graph
      key.scope) (Walk.ask s question σ).recording (question.share s σ key) value := by
  have told := question.told accepted σ
  have distinct := question.outputs_distinct accepted distinct
  rw [question.ask_eq stack] at known ⊢
  generalize hrun : on (Walk.planned s (question.plan s.graph)) σ = run at told known distinct ⊢
  have lowered : .lowered key (.ok value) ∈ question.events s σ := by
    have mem := Memo.mem_entries_of_get? known
    rw [told.outputs] at mem
    rcases List.mem_append.1 mem with mem | mem
    · exact Event.mem_output?.1 mem
    · exact (Memo.get?_eq_none.1 unknown _ mem rfl).elim
  have once := told.once
  rw [events_eq] at lowered once
  obtain ⟨source, other, τ, asked, mine⟩ := Moment.exists_of_lowered lowered
  have before := Plan.stock_asked (g := s.graph) (Walk.lower_evolves s s.depth) _ asked
  change (on (Walk.lower s s.depth source other) τ).2.stock.Within
    (on (Walk.planned s (question.plan s.graph)) σ).2.stock at before
  rw [hrun] at before
  have others : ∀ operation τ, .does operation τ ∈
      (question.plan s.graph).moments s.graph (Walk.lower s s.depth) σ → τ.active.head? ≠ some key :=
    fun operation τ hm => ((question.plan_idle s.graph).moments hm).elim
  rw [share, events_eq, Moment.stepsFor_asked once others (Walk.attributed accepted s.depth) asked mine]
  exact Walk.lower_course accepted
    (Findings.Reach.of_within ⟨Findings.cover_ofEntries distinct, .refl _⟩ before) mine course

end Question

end MaterialLowering
