import MaterialLowering.Proofs.Plans.PlansLocal
import MaterialLowering.Proofs.Walks.Depth
import MaterialLowering.Proofs.Walks.Traces

/-!
# The moments of a step

While one output is lowered, other outputs are asked for, things are done to the recording and sub-nodes
are kept, each in a state of its own. These moments are all that matters of a step: what it comes to
depends on nothing but what the outputs come to that it asks for, and it fails where one of them fails or
over its own node.

Main definitions:
* `Plan.moments`, `Walk.moments`: what a plan tells, and what a step does.
* `Expansion`: the ways in which an output comes to something.

Results:
* `Traced.told_carryOut`, `Traced.told_expand`: what is told is told at the moments.
* `Walk.expansion`: what a step is.
* `Expansion.congr`: ways of finding outputs that agree at the moments of a step.
* `Expansion.error`, `Expansion.fails`: when a step fails.
* `Expansion.account`: what a step adds to the cache.
* `Expansion.evolves`, `Expansion.asks`: in which states, and where, a step goes on.
-/

namespace MaterialLowering

open Walk (on)

/-- The state in which it happens. -/
def Moment.state : Moment → WalkState
  | .asks _ _ state => state
  | .does _ state => state
  | .keeps _ _ _ state => state

/-- It is no more than what is allowed: outputs are asked for among `asks`, and sub-nodes are kept among
    `keeps`, in the calls around that state. -/
def Moment.Within (g : HostGraph) (asks : NodeId → String → Prop)
    (keeps : NodeId → String → String → Prop) : Moment → Prop
  | .asks node output _ => asks node output
  | .does .. => True
  | .keeps key name _ τ =>
    keeps key.node key.output name ∧ key.scope = τ.scope ∧ key.material = g.material

/-- The moments at which a plan is carried out, the latest first. -/
def Plan.moments {α : Type} (g : HostGraph) (visit : NodeId → String → Walk Value) (plan : Plan α)
    (σ : WalkState) : List Moment :=
  (Traced.carryOut g id (fun node output => .silent (visit node output)) plan).told σ

/-- The moments of an output that has not been lowered yet. -/
def Walk.moments (s : Setting) (visit : NodeId → String → Walk Value) (node : NodeId) (output : String)
    (σ : WalkState) : List Moment :=
  (Traced.expand id (fun node output => .silent (visit node output)) s node output).told σ

namespace Plan

variable {α β : Type} (g : HostGraph) (visit : NodeId → String → Walk Value) (σ : WalkState)

@[simp] theorem moments_done (a : α) : (Plan.done a).moments g visit σ = [] := rfl

@[simp] theorem moments_fail (failure : Failure) : (Plan.fail failure : Plan α).moments g visit σ = [] :=
  rfl

theorem moments_visit (node : NodeId) (output : String) (next : Value → Plan α) :
    (Plan.visit node output next).moments g visit σ =
      match on (visit node output) σ with
      | (.ok value, σ') => (next value).moments g visit σ' ++ [.asks node output σ]
      | (.error _, _) => [.asks node output σ] := by
  simp only [moments, Traced.carryOut, Traced.told_bind, Traced.walk_tell, Walk.on_pure,
    Traced.told_tell, Traced.walk_silent, Traced.told_silent]
  rcases on (visit node output) σ with ⟨failure | value, σ'⟩ <;> simp

theorem moments_create (kind : NativeKind) (params : List (String × Value))
    (next : NodeHandle → Plan α) :
    (Plan.create kind params next).moments g visit σ =
      (next (σ.recording.create kind params).1).moments g visit
        { σ with recording := (σ.recording.create kind params).2 } ++ [.does (.create kind params) σ] := by
  simp [moments, Traced.carryOut]

theorem moments_image (descriptor : ImageDescriptor) (next : Option ImageHandle → Plan α) :
    (Plan.image descriptor next).moments g visit σ =
      (next (σ.recording.materialize descriptor).1.toOption).moments g visit
        { σ with recording := (σ.recording.materialize descriptor).2 } ++
          [.does (.materialize descriptor) σ] := by
  simp [moments, Traced.carryOut]

theorem moments_report (notice : Notice) (next : Plan α) :
    (Plan.report notice next).moments g visit σ = next.moments g visit (σ.noting notice) := by
  simp [moments, Traced.carryOut]

theorem moments_known (node : NodeId) (output name : String) (next : Option Value → Plan α) :
    (Plan.known node output name next).moments g visit σ =
      (next (σ.cache.subNode? ⟨node, output, σ.scope, g.material⟩ name)).moments g visit σ := by
  simp [moments, Traced.carryOut]

theorem moments_remember (node : NodeId) (output name : String) (value : Value) (next : Plan α) :
    (Plan.remember node output name value next).moments g visit σ =
      next.moments g visit { σ with
        cache := σ.cache.putSubNode ⟨node, output, σ.scope, g.material⟩ name value } ++
          [.keeps ⟨node, output, σ.scope, g.material⟩ name value σ] := by
  simp [moments, Traced.carryOut]

variable {g visit σ} {moment : Moment}

theorem mem_moments_visit {node : NodeId} {output : String} {next : Value → Plan α} :
    moment ∈ (Plan.visit node output next).moments g visit σ ↔
      moment = .asks node output σ ∨ ∃ value σ', on (visit node output) σ = (.ok value, σ') ∧
        moment ∈ (next value).moments g visit σ' := by
  rw [moments_visit]
  rcases on (visit node output) σ with ⟨failure | value, σ'⟩
  · simp
  · simp [or_comm]

theorem mem_moments_create {kind : NativeKind} {params : List (String × Value)}
    {next : NodeHandle → Plan α} :
    moment ∈ (Plan.create kind params next).moments g visit σ ↔
      moment = .does (.create kind params) σ ∨
        moment ∈ (next (σ.recording.create kind params).1).moments g visit
          { σ with recording := (σ.recording.create kind params).2 } := by
  simp [moments_create, or_comm]

theorem mem_moments_image {descriptor : ImageDescriptor} {next : Option ImageHandle → Plan α} :
    moment ∈ (Plan.image descriptor next).moments g visit σ ↔
      moment = .does (.materialize descriptor) σ ∨
        moment ∈ (next (σ.recording.materialize descriptor).1.toOption).moments g visit
          { σ with recording := (σ.recording.materialize descriptor).2 } := by
  simp [moments_image, or_comm]

theorem mem_moments_remember {node : NodeId} {output name : String} {value : Value} {next : Plan α} :
    moment ∈ (Plan.remember node output name value next).moments g visit σ ↔
      moment = .keeps ⟨node, output, σ.scope, g.material⟩ name value σ ∨
        moment ∈ next.moments g visit { σ with
          cache := σ.cache.putSubNode ⟨node, output, σ.scope, g.material⟩ name value } := by
  simp [moments_remember, or_comm]

end Plan

/-- One plan after another. -/
theorem Plan.moments_bind {α β : Type} {g : HostGraph} {visit : NodeId → String → Walk Value}
    (p : Plan α) (f : α → Plan β) (σ : WalkState) :
    (p >>= f).moments g visit σ =
      match on (Walk.carryOut g visit p) σ with
      | (.ok a, σ') => (f a).moments g visit σ' ++ p.moments g visit σ
      | (.error _, _) => p.moments g visit σ := by
  show (p.bind f).moments g visit σ = _
  induction p generalizing σ with
  | done a => exact (List.append_nil _).symm
  | fail => rfl
  | visit node output next ih =>
    simp only [Plan.bind, moments_visit, Walk.carryOut, Walk.on_bind]
    rcases on (visit node output) σ with ⟨failure | value, σ'⟩
    · rfl
    · dsimp only
      rw [ih]
      rcases on (Walk.carryOut g visit (next value)) σ' with ⟨failure | a, σ''⟩
      · rfl
      · exact List.append_assoc _ _ _
  | create kind params next ih =>
    simp only [Plan.bind, moments_create, Walk.carryOut, Walk.on_bind, Walk.on_get, Walk.on_modify]
    rw [ih]
    rcases on (Walk.carryOut g visit _) _ with ⟨failure | a, σ'⟩
    · rfl
    · exact List.append_assoc _ _ _
  | image descriptor next ih =>
    simp only [Plan.bind, moments_image, Walk.carryOut, Walk.on_bind, Walk.on_get, Walk.on_modify]
    rw [ih]
    rcases on (Walk.carryOut g visit _) _ with ⟨failure | a, σ'⟩
    · rfl
    · exact List.append_assoc _ _ _
  | report notice next ih =>
    simp only [Plan.bind, moments_report, Walk.carryOut, Walk.on_bind, Walk.on_say]
    exact ih _
  | known node output name next ih =>
    simp only [Plan.bind, moments_known, Walk.carryOut, Walk.on_bind, Walk.on_key, Walk.on_get]
    exact ih _ _
  | remember node output name value next ih =>
    simp only [Plan.bind, moments_remember, Walk.carryOut, Walk.on_bind, Walk.on_key, Walk.on_modify]
    rw [ih]
    rcases on (Walk.carryOut g visit next) _ with ⟨failure | a, σ'⟩
    · rfl
    · exact List.append_assoc _ _ _

namespace Walk

/-- The moments of a call. -/
def callMoments (g : HostGraph) (visit : NodeId → String → Walk Value) (callSite : NodeId)
    (output : String) (σ : WalkState) : List Moment :=
  (Traced.call g id (fun node output => .silent (visit node output)) callSite output).told σ

/-- The moments at which a formal input is read. -/
def formalMoments (g : HostGraph) (visit : NodeId → String → Walk Value) (groupInput : NodeId)
    (name : String) (σ : WalkState) : List Moment :=
  (Traced.formal g id (fun node output => .silent (visit node output)) groupInput name).told σ

variable (s : Setting) (g : HostGraph) (visit : NodeId → String → Walk Value) (node : NodeId)
  (output : String) (σ : WalkState)

theorem callMoments_eq :
    callMoments g visit node output σ =
      match g.groupTree node with
      | none => []
      | some tree =>
        if σ.stack.any fun frame => frame.tree = tree then []
        else
          match g.groupOutput tree with
          | none => []
          | some groupOutput =>
            [.asks groupOutput output
              { σ.noting (.enteringGroup (g.label node) (σ.stack.length + 1)) with
                stack := ⟨node, tree, .empty⟩ :: σ.stack }] := by
  unfold callMoments Traced.call enter
  cases g.groupTree node with
  | none => rfl
  | some tree =>
    by_cases h : (σ.stack.any fun frame => frame.tree = tree) = true
    · simp only [Traced.told_bind, Traced.walk_lift, Traced.told_lift, on_bind, on_get, if_pos h, on_throw]
    · simp only [Traced.told_bind, Traced.walk_lift, Traced.told_lift, on_bind, on_get, if_neg h, on_say,
        on_pure]
      cases g.groupOutput tree with
      | none => rfl
      | some groupOutput =>
        simp

theorem formalMoments_eq :
    formalMoments g visit node output σ =
      match innermostCall? node.tree σ.stack with
      | none => []
      | some (_, frame, around) =>
        match frame.arguments.get? output with
        | some _ => []
        | none => (argument g frame.callSite output).moments g visit { σ with stack := around } := by
  unfold formalMoments Traced.formal
  simp only [Traced.told_bind, Traced.walk_lift, Traced.told_lift, on_get]
  rcases innermostCall? node.tree σ.stack with _ | ⟨inside, frame, around⟩
  · rfl
  dsimp only
  cases frame.arguments.get? output with
  | some value => rfl
  | none =>
    simp only [Traced.told_bind, Traced.walk_lift, Traced.told_lift, on_modify, Traced.walk_attempt,
      Traced.told_attempt, on_attempt, on_settle, Traced.told_pure]
    rcases on _ { σ with stack := around } with ⟨failure | found, σ'⟩ <;> simp [Plan.moments]

theorem moments_eq :
    moments s visit node output σ =
      match bypass? s.graph node with
      | some plan => plan.moments s.graph visit σ
      | none =>
        let σ := σ.noting (.visiting (s.graph.kind node) (s.graph.label node) output)
        match s.table.task s.graph node output with
        | .plan plan => plan.moments s.graph visit σ
        | .call => callMoments s.graph visit node output σ
        | .formal => formalMoments s.graph visit node output σ := by
  unfold moments Traced.expand
  dsimp only
  cases bypass? s.graph node with
  | some plan => rfl
  | none =>
    simp only [Traced.told_bind, Traced.walk_lift, Traced.told_lift, on_say, List.append_nil]
    cases s.table.task s.graph node output <;> rfl

end Walk

/-- An idle plan does nothing at any moment. -/
theorem Plan.Idle.moments {α : Type} {g : HostGraph} {visit : NodeId → String → Walk Value}
    {plan : Plan α} (idle : plan.Idle) {σ : WalkState} {operation : Recording.Operation} {τ : WalkState} :
    .does operation τ ∉ plan.moments g visit σ := by
  induction idle generalizing σ with
  | done | fail => exact List.not_mem_nil
  | visit node output _ ih =>
    rw [moments_visit]
    rcases on (visit node output) σ with ⟨failure | value, σ'⟩
    · simp
    · simpa using ih value
  | report notice _ ih =>
    rw [moments_report]
    exact ih
  | known node output name _ ih =>
    rw [moments_known]
    exact ih _
  | remember node output name value _ ih =>
    rw [moments_remember]
    simpa using ih

/-! ## What is told at moments -/

namespace Traced

variable {ε α : Type} {g : HostGraph} {say : Moment → ε} {visit : NodeId → String → Traced ε Value}

/-- What is told while a plan is carried out is told at its moments. -/
theorem told_carryOut (plan : Plan α) (σ : WalkState) :
    (carryOut g say visit plan).told σ =
      (plan.moments g (fun node output => (visit node output).walk) σ).flatMap
        (Moment.told say fun node output => (visit node output).told) := by
  induction plan generalizing σ with
  | done | fail => rfl
  | visit node output next ih =>
    simp only [carryOut, told_bind, walk_tell, Walk.on_pure, told_tell, Plan.moments_visit]
    rcases on (visit node output).walk σ with ⟨failure | value, σ'⟩
    · simp [Moment.told]
    · simp [Moment.told, ih]
  | create kind params next ih => simp [carryOut, Plan.moments_create, Moment.told, ih]
  | image descriptor next ih => simp [carryOut, Plan.moments_image, Moment.told, ih]
  | report notice next ih => simp [carryOut, Plan.moments_report, ih]
  | known node output name next ih => simp [carryOut, Plan.moments_known, ih]
  | remember node output name value next ih =>
    simp [carryOut, Plan.moments_remember, Moment.told, ih]

theorem told_call (callSite : NodeId) (output : String) (σ : WalkState) :
    (call g say visit callSite output).told σ =
      (Walk.callMoments g (fun node output => (visit node output).walk) callSite output σ).flatMap
        (Moment.told say fun node output => (visit node output).told) := by
  rw [Walk.callMoments_eq]
  unfold call Walk.enter
  cases g.groupTree callSite with
  | none => rfl
  | some tree =>
    by_cases h : (σ.stack.any fun frame => frame.tree = tree) = true
    · simp only [told_bind, walk_lift, told_lift, Walk.on_bind, Walk.on_get, if_pos h, Walk.on_throw,
        List.flatMap_nil]
    · simp only [told_bind, walk_lift, told_lift, Walk.on_bind, Walk.on_get, if_neg h, Walk.on_say,
        Walk.on_pure]
      cases g.groupOutput tree with
      | none => rfl
      | some groupOutput => simp [Moment.told]

theorem told_formal (groupInput : NodeId) (name : String) (σ : WalkState) :
    (formal g say visit groupInput name).told σ =
      (Walk.formalMoments g (fun node output => (visit node output).walk) groupInput name σ).flatMap
        (Moment.told say fun node output => (visit node output).told) := by
  rw [Walk.formalMoments_eq]
  unfold formal
  simp only [told_bind, walk_lift, told_lift, Walk.on_get]
  rcases Walk.innermostCall? groupInput.tree σ.stack with _ | ⟨inside, frame, around⟩
  · rfl
  dsimp only
  cases frame.arguments.get? name with
  | some value => rfl
  | none =>
    simp only [told_bind, walk_lift, told_lift, Walk.on_modify, walk_attempt, told_attempt,
      Walk.on_attempt, Walk.on_settle, told_pure]
    rcases on _ { σ with stack := around } with ⟨failure | found, σ'⟩ <;> simp [told_carryOut]

/-- What is told while an output is lowered is told at its moments. -/
theorem told_expand (s : Setting) (node : NodeId) (output : String) (σ : WalkState) :
    (expand say visit s node output).told σ =
      (Walk.moments s (fun node output => (visit node output).walk) node output σ).flatMap
        (Moment.told say fun node output => (visit node output).told) := by
  rw [Walk.moments_eq]
  unfold expand
  dsimp only
  cases bypass? s.graph node with
  | some plan => exact told_carryOut plan σ
  | none =>
    simp only [told_bind, walk_lift, told_lift, Walk.on_say, List.append_nil]
    cases s.table.task s.graph node output with
    | plan plan => exact told_carryOut plan _
    | call => exact told_call node output _
    | formal => exact told_formal node output _

end Traced

namespace RuleSite

variable (site : RuleSite) {visit : NodeId → String → Walk Value} {σ : WalkState} {name : String}

/-- Nothing happens at a sub-node that is known. -/
theorem moments_known (accepted : site.rules.Accepted) {value : Value}
    (found : σ.cache.subNode? ⟨site.node, site.output, σ.scope, site.graph.material⟩ name = some value) :
    (site.subNode (site.rules.size + 1) name).moments site.graph visit σ = [] := by
  rw [subNode_unfold accepted, Plan.moments_known, found]
  rfl

/-- At a sub-node that is not known it is evaluated. -/
theorem moments_unknown (accepted : site.rules.Accepted)
    (found : σ.cache.subNode? ⟨site.node, site.output, σ.scope, site.graph.material⟩ name = none) :
    (site.subNode (site.rules.size + 1) name).moments site.graph visit σ =
      (site.fresh (site.subNode (site.rules.size + 1)) name).moments site.graph visit σ := by
  rw [subNode_unfold accepted, Plan.moments_known, found]

end RuleSite

/-! ## What a step depends on -/

section

variable {α : Type} {g : HostGraph} {visit visit' : NodeId → String → Walk Value}

theorem Plan.carryOut_congr (plan : Plan α) (σ : WalkState)
    (h : ∀ node output τ, .asks node output τ ∈ plan.moments g visit σ →
      on (visit' node output) τ = on (visit node output) τ) :
    on (Walk.carryOut g visit' plan) σ = on (Walk.carryOut g visit plan) σ := by
  induction plan generalizing σ with
  | done | fail => rfl
  | visit node output next ih =>
    have here := h node output σ (mem_moments_visit.2 (.inl rfl))
    simp only [Walk.carryOut, Walk.on_bind, here]
    rcases ran : on (visit node output) σ with ⟨failure | value, σ'⟩
    · rfl
    · exact ih value σ' fun node output τ hm =>
        h node output τ (mem_moments_visit.2 (.inr ⟨value, σ', ran, hm⟩))
  | create kind params next ih =>
    exact ih _ _ fun node output τ hm => h node output τ (mem_moments_create.2 (.inr hm))
  | image descriptor next ih =>
    exact ih _ _ fun node output τ hm => h node output τ (mem_moments_image.2 (.inr hm))
  | report notice next ih =>
    rw [moments_report] at h
    exact ih _ h
  | known node output name next ih =>
    rw [moments_known] at h
    exact ih _ _ h
  | remember node output name value next ih =>
    exact ih _ fun node output τ hm => h node output τ (mem_moments_remember.2 (.inr hm))

/-- A plan fails over its own node or where an output fails that it asks for. -/
theorem Plan.carryOut_error {asks : NodeId → String → Prop}
    {keeps : NodeId → String → String → Prop} {plan : Plan α}
    (own : Plan.Local asks keeps plan) (σ : WalkState) {failure : Failure}
    (h : (on (Walk.carryOut g visit plan) σ).1 = .error failure) :
    failure.IsLocal ∨ ∃ node output τ, .asks node output τ ∈ plan.moments g visit σ ∧
      (on (visit node output) τ).1 = .error failure := by
  induction own generalizing σ with
  | done => cases h
  | fail here => cases h; exact .inl here
  | @visit node output next _ _ ih =>
    simp only [Walk.carryOut, Walk.on_bind] at h
    rcases ran : on (visit node output) σ with ⟨other | value, σ'⟩ <;> rw [ran] at h
    · cases h
      exact .inr ⟨node, output, σ, mem_moments_visit.2 (.inl rfl), by rw [ran]⟩
    · obtain here | ⟨source, other, τ, hm, failed⟩ := ih value σ' h
      · exact .inl here
      · exact .inr ⟨source, other, τ, mem_moments_visit.2 (.inr ⟨value, σ', ran, hm⟩), failed⟩
  | create _ ih =>
    obtain here | ⟨source, other, τ, hm, failed⟩ := ih _ _ h
    · exact .inl here
    · exact .inr ⟨source, other, τ, mem_moments_create.2 (.inr hm), failed⟩
  | image _ ih =>
    obtain here | ⟨source, other, τ, hm, failed⟩ := ih _ _ h
    · exact .inl here
    · exact .inr ⟨source, other, τ, mem_moments_image.2 (.inr hm), failed⟩
  | report _ ih =>
    rw [moments_report]
    exact ih _ h
  | known _ _ ih =>
    rw [moments_known]
    exact ih _ _ h
  | remember _ _ ih =>
    obtain here | ⟨source, other, τ, hm, failed⟩ := ih _ h
    · exact .inl here
    · exact .inr ⟨source, other, τ, mem_moments_remember.2 (.inr hm), failed⟩

/-- A plan ends where an output fails that it asks for. -/
theorem Plan.carryOut_fails (plan : Plan α) (σ : WalkState) {node : NodeId} {output : String}
    {τ : WalkState} (hm : .asks node output τ ∈ plan.moments g visit σ) {failure : Failure}
    (hf : (on (visit node output) τ).1 = .error failure) :
    (on (Walk.carryOut g visit plan) σ).1 = .error failure ∧
      (on (Walk.carryOut g visit plan) σ).2 = (on (visit node output) τ).2 := by
  induction plan generalizing σ with
  | done | fail => cases hm
  | visit node' output' next ih =>
    simp only [Walk.carryOut, Walk.on_bind]
    obtain here | ⟨value, σ', ran, hm⟩ := mem_moments_visit.1 hm
    · obtain ⟨rfl, rfl, rfl⟩ := Moment.asks.inj here
      generalize on (visit node output) τ = run at hf ⊢
      obtain ⟨result, τ'⟩ := run
      obtain rfl : result = .error failure := hf
      exact ⟨rfl, rfl⟩
    · rw [ran]
      exact ih value σ' hm
  | create kind params next ih =>
    rcases mem_moments_create.1 hm with other | hm
    · cases other
    · exact ih _ _ hm
  | image descriptor next ih =>
    rcases mem_moments_image.1 hm with other | hm
    · cases other
    · exact ih _ _ hm
  | report notice next ih =>
    rw [moments_report] at hm
    exact ih _ hm
  | known node' output' name next ih =>
    rw [moments_known] at hm
    exact ih _ _ hm
  | remember node' output' name value next ih =>
    rcases mem_moments_remember.1 hm with other | hm
    · cases other
    · exact ih _ hm

/-- A plan is carried out in states that have evolved from the first one. -/
theorem Plan.evolves_moment (hv : ∀ node output, Walk.Steady (visit node output)) (plan : Plan α)
    (σ : WalkState) {moment : Moment} (hm : moment ∈ plan.moments g visit σ) :
    σ.Evolves moment.state := by
  induction plan generalizing σ with
  | done | fail => cases hm
  | visit node output next ih =>
    obtain rfl | ⟨value, σ', ran, hm⟩ := mem_moments_visit.1 hm
    · exact .refl σ
    · have steady := hv node output σ
      rw [ran] at steady
      exact steady.trans (ih value σ' hm)
  | create kind params next ih =>
    obtain rfl | hm := mem_moments_create.1 hm
    · exact .refl σ
    · exact (WalkState.Evolves.of_recording (σ.recording.create_extends kind params)).trans (ih _ _ hm)
  | image descriptor next ih =>
    obtain rfl | hm := mem_moments_image.1 hm
    · exact .refl σ
    · exact (WalkState.Evolves.of_recording (σ.recording.materialize_extends descriptor)).trans
        (ih _ _ hm)
  | report notice next ih =>
    rw [moments_report] at hm
    exact (WalkState.Evolves.noting σ notice).trans (ih _ hm)
  | known node output name next ih =>
    rw [moments_known] at hm
    exact ih _ σ hm
  | remember node output name value next ih =>
    obtain rfl | hm := mem_moments_remember.1 hm
    · exact .refl σ
    · exact (WalkState.Evolves.of_putSubNode σ _ name value).trans (ih _ hm)

/-- A plan asks for what it may ask for. -/
theorem Plan.Local.within {asks : NodeId → String → Prop} {keeps : NodeId → String → String → Prop}
    {plan : Plan α} (own : Plan.Local asks keeps plan) (σ : WalkState) {moment : Moment}
    (hm : moment ∈ plan.moments g visit σ) : moment.Within g asks keeps := by
  induction own generalizing σ with
  | done | fail => cases hm
  | visit asked _ ih =>
    obtain rfl | ⟨value, σ', -, hm⟩ := mem_moments_visit.1 hm
    · exact asked
    · exact ih value σ' hm
  | create _ ih =>
    obtain rfl | hm := mem_moments_create.1 hm
    · trivial
    · exact ih _ _ hm
  | image _ ih =>
    obtain rfl | hm := mem_moments_image.1 hm
    · trivial
    · exact ih _ _ hm
  | report _ ih =>
    rw [moments_report] at hm
    exact ih _ hm
  | known _ _ ih =>
    rw [moments_known] at hm
    exact ih _ σ hm
  | remember kept _ ih =>
    obtain rfl | hm := mem_moments_remember.1 hm
    · exact ⟨kept, rfl, rfl⟩
    · exact ih _ hm

/-- A plan is carried out in states that have evolved from the first one, and it asks for what it may
    ask for. -/
theorem Plan.moments_evolve {asks : NodeId → String → Prop}
    {keeps : NodeId → String → String → Prop} {plan : Plan α}
    (own : Plan.Local asks keeps plan) (hv : ∀ node output, Walk.Steady (visit node output))
    (σ : WalkState) {moment : Moment} (hm : moment ∈ plan.moments g visit σ) :
    σ.Evolves moment.state ∧ moment.Within g asks keeps :=
  ⟨Plan.evolves_moment hv plan σ hm, own.within σ hm⟩

/-- The cache after a moment. -/
def Moment.cacheAfter (visit : NodeId → String → Walk Value) : Moment → Cache
  | .asks node output τ => (on (visit node output) τ).2.cache
  | .does _ τ => τ.cache
  | .keeps key name value τ => τ.cache.putSubNode key name value

/-- What a list in the cache gains while a plan is carried out, it gains at its moments. -/
theorem Plan.carryOut_account {β : Type} (view : Cache → List β) (gain : Moment → List β)
    (plan : Plan α) (σ : WalkState)
    (h : ∀ moment ∈ plan.moments g visit σ,
      view (moment.cacheAfter visit) = gain moment ++ view moment.state.cache) :
    view (on (Walk.carryOut g visit plan) σ).2.cache =
      (plan.moments g visit σ).flatMap gain ++ view σ.cache := by
  induction plan generalizing σ with
  | done | fail => rfl
  | visit node output next ih =>
    simp only [Walk.carryOut, Walk.on_bind]
    have here := h _ (mem_moments_visit.2 (.inl rfl))
    rw [moments_visit]
    rcases ran : on (visit node output) σ with ⟨failure | value, σ'⟩ <;>
      simp only [Moment.cacheAfter, ran] at here
    · rw [List.flatMap_singleton]
      exact here
    · have later := ih value σ' fun moment hm =>
        h moment (mem_moments_visit.2 (.inr ⟨value, σ', ran, hm⟩))
      rw [List.flatMap_append, List.flatMap_singleton, List.append_assoc]
      exact later.trans (congrArg _ here)
  | create kind params next ih =>
    have later := ih _ _ fun moment hm => h moment (mem_moments_create.2 (.inr hm))
    have here := h _ (mem_moments_create.2 (.inl rfl))
    rw [moments_create, List.flatMap_append, List.flatMap_singleton, List.append_assoc]
    exact later.trans (congrArg _ here)
  | image descriptor next ih =>
    have later := ih _ _ fun moment hm => h moment (mem_moments_image.2 (.inr hm))
    have here := h _ (mem_moments_image.2 (.inl rfl))
    rw [moments_image, List.flatMap_append, List.flatMap_singleton, List.append_assoc]
    exact later.trans (congrArg _ here)
  | report notice next ih =>
    rw [moments_report] at h ⊢
    exact ih _ h
  | known node output name next ih =>
    rw [moments_known] at h ⊢
    exact ih _ _ h
  | remember node output name value next ih =>
    have later := ih _ fun moment hm => h moment (mem_moments_remember.2 (.inr hm))
    have here := h _ (mem_moments_remember.2 (.inl rfl))
    rw [moments_remember, List.flatMap_append, List.flatMap_singleton, List.append_assoc]
    exact later.trans (congrArg _ here)

/-- What holds of every cache that sub-nodes and outputs are put into holds after a plan. -/
theorem Plan.carryOut_preserves {I : Cache → Prop}
    (keep : ∀ cache key name value, I cache → I (cache.putSubNode key name value))
    (hv : ∀ node output τ, I τ.cache → I (on (visit node output) τ).2.cache) (plan : Plan α)
    (σ : WalkState) (h : I σ.cache) : I (on (Walk.carryOut g visit plan) σ).2.cache := by
  induction plan generalizing σ with
  | done | fail => exact h
  | visit node output next ih =>
    have here := hv node output σ h
    simp only [Walk.carryOut, Walk.on_bind]
    generalize on (visit node output) σ = run at here ⊢
    obtain ⟨failure | value, σ'⟩ := run
    · exact here
    · exact ih value σ' here
  | create kind params next ih => exact ih _ _ h
  | image descriptor next ih => exact ih _ _ h
  | report notice next ih => exact ih _ h
  | known node output name next ih => exact ih _ _ h
  | remember node output name value next ih => exact ih _ (keep _ _ name value h)

end

/-! ## Steps -/

/-- The ways in which an output that has not been lowered comes to something: with every way of
    finding other outputs, how the step runs and what its moments are. Notices aside, each begins in
    the state `σ`. -/
inductive Expansion (s : Setting) (node : NodeId) (output : String) (σ : WalkState) :
    ((NodeId → String → Walk Value) → Except Failure Value × WalkState) →
    ((NodeId → String → Walk Value) → List Moment) → Prop
  | planned {plan : Plan Value} (log : Array Notice)
      (origin : bypass? s.graph node = some plan ∨ s.table.task s.graph node output = .plan plan)
      (own : Plan.Local (s.graph.Feeds node) (fun other name _ => other = node ∧ name = output) plan) :
      Expansion s node output σ
        (fun visit => on (Walk.carryOut s.graph visit plan) { σ with log })
        (fun visit => plan.moments s.graph visit { σ with log })
  | stopped {failure : Failure} (log : Array Notice) (h : failure.IsLocal) :
      Expansion s node output σ (fun _ => (.error failure, { σ with log })) (fun _ => [])
  /-- The group is being lowered already. -/
  | reentered {tree : TreeId} (log : Array Notice) (kind : s.graph.kind node = .group)
      (calls : s.graph.groupTree node = some tree) (within : tree ∈ σ.stack.map Frame.tree) :
      Expansion s node output σ
        (fun _ => (.error (.cyclicGraph (s.graph.label node) output), { σ with log })) (fun _ => [])
  | called {tree : TreeId} {groupOutput : NodeId} (log : Array Notice)
      (kind : s.graph.kind node = .group) (calls : s.graph.groupTree node = some tree)
      (new : tree ∉ σ.stack.map Frame.tree)
      (leads : s.graph.groupOutput tree = some groupOutput) :
      Expansion s node output σ
        (fun visit =>
          let after := on (visit groupOutput output)
            { σ with log, stack := ⟨node, tree, .empty⟩ :: σ.stack }
          (after.1, after.2.leaving s.graph))
        (fun _ => [.asks groupOutput output { σ with log, stack := ⟨node, tree, .empty⟩ :: σ.stack }])
  /-- The argument is known. -/
  | supplied {inside around : List Frame} {frame : Frame} {value : Value} (log : Array Notice)
      (input : s.graph.IsGroupInput node)
      (call : Walk.innermostCall? node.tree σ.stack = some (inside, frame, around))
      (known : frame.arguments.get? output = some value) :
      Expansion s node output σ (fun _ => (.ok value, { σ with log })) (fun _ => [])
  | argued {inside around : List Frame} {frame : Frame} (log : Array Notice)
      (input : s.graph.IsGroupInput node)
      (call : Walk.innermostCall? node.tree σ.stack = some (inside, frame, around))
      (unknown : frame.arguments.get? output = none) :
      Expansion s node output σ
        (fun visit =>
          match on (Walk.carryOut s.graph visit (Walk.argument s.graph frame.callSite output))
            { σ with log, stack := around } with
          | (.error failure, σ') =>
            (.error failure, { σ' with stack := inside ++ frame :: σ'.stack })
          | (.ok found, σ') =>
            let value := found.or (.ofLanes? (s.graph.outputDefault node output))
            let frame := { frame with arguments := frame.arguments.put output value }
            (.ok value, { σ' with stack := inside ++ frame :: σ'.stack }))
        (fun visit => (Walk.argument s.graph frame.callSite output).moments s.graph visit
          { σ with log, stack := around })

/-- The calls on a stack, down to a node: each call is in the tree of the next call around it, the node
    is in the tree of the innermost one, and no two calls are of one tree. -/
def Placed (g : HostGraph) : List Frame → NodeId → Prop
  | [], _ => True
  | frame :: around, node =>
    node.tree = frame.tree ∧ g.kind frame.callSite = .group ∧
      g.groupTree frame.callSite = some frame.tree ∧ frame.tree ∉ around.map Frame.tree ∧
      Placed g around frame.callSite

/-- The trees of the calls on two stacks are the same. -/
theorem StackExtends.trees {stack stack' : List Frame} (h : StackExtends stack stack') :
    stack'.map Frame.tree = stack.map Frame.tree := by
  induction h with
  | nil => rfl
  | cons hf _ ih => simp [hf.tree, ih]

namespace Placed

variable {g : HostGraph} {stack stack' inside around : List Frame} {frame : Frame} {node other : NodeId}

theorem of_tree (h : Placed g stack node) (ht : other.tree = node.tree) : Placed g stack other := by
  cases stack with
  | nil => trivial
  | cons frame around => exact ⟨ht.trans h.1, h.2⟩

theorem of_extends (h : Placed g stack node) (hs : StackExtends stack stack') :
    Placed g stack' node := by
  induction hs generalizing node with
  | nil => trivial
  | @cons f f' l l' hf hs ih =>
    obtain ⟨tree, kind, calls, apart, rest⟩ := h
    refine ⟨tree.trans hf.tree.symm, by rw [hf.callSite, kind], by rw [hf.callSite, hf.tree, calls], ?_,
      hf.callSite ▸ ih rest⟩
    rw [hf.tree, StackExtends.trees hs]
    exact apart

/-- The innermost call of a node's tree is the innermost one of all. -/
theorem innermostCall? (h : Placed g stack node)
    (hc : Walk.innermostCall? node.tree stack = some (inside, frame, around)) :
    inside = [] ∧ stack = frame :: around := by
  cases stack with
  | nil => simp [Walk.innermostCall?] at hc
  | cons first rest =>
    simp only [Walk.innermostCall?, if_pos h.1.symm, Option.some.injEq, Prod.mk.injEq] at hc
    obtain ⟨rfl, rfl, rfl⟩ := hc
    exact ⟨rfl, rfl⟩

/-- A call of a tree that is not on the stack is no call of a tree that is called there. -/
theorem groupTree_ne (h : Placed g stack node) {tree : TreeId} (new : tree ∉ stack.map Frame.tree) :
    ∀ callSite ∈ stack.map Frame.callSite, g.groupTree callSite ≠ some tree := by
  induction stack generalizing node with
  | nil => simp
  | cons frame around ih =>
    obtain ⟨-, -, calls, -, rest⟩ := h
    rw [List.map_cons, List.mem_cons, not_or] at new
    refine List.forall_mem_cons.2 ⟨fun same => new.1 ?_, ih rest new.2⟩
    rw [calls] at same
    exact (Option.some.inj same).symm

end Placed

namespace Expansion

variable {s : Setting} {fixed : Key → Prop} {node source : NodeId} {output other : String}
  {σ τ : WalkState} {visit visit' : NodeId → String → Walk Value}
  {run : (NodeId → String → Walk Value) → Except Failure Value × WalkState}
  {moments : (NodeId → String → Walk Value) → List Moment}

/-- A step does not change with the way of finding outputs where that comes to the same at its
    moments. -/
theorem congr (h : Expansion s node output σ run moments)
    (same : ∀ source other τ, .asks source other τ ∈ moments visit →
      on (visit' source other) τ = on (visit source other) τ) : run visit' = run visit := by
  cases h with
  | planned log _ _ => exact Plan.carryOut_congr _ _ same
  | stopped | reentered | supplied => rfl
  | called => simp only [same _ _ _ (List.mem_singleton.2 rfl)]
  | argued => simp only [Plan.carryOut_congr _ _ same]

/-- A step fails over its own node, where an output fails that it asks for, or where it would enter a
    group that is being lowered. -/
theorem error (h : Expansion s node output σ run moments) {failure : Failure}
    (hf : (run visit).1 = .error failure) :
    failure.IsLocal ∨
      (∃ source other τ, .asks source other τ ∈ moments visit ∧
        (on (visit source other) τ).1 = .error failure) ∨
      ∃ tree, s.graph.kind node = .group ∧ s.graph.groupTree node = some tree ∧
        tree ∈ σ.stack.map Frame.tree ∧ failure = .cyclicGraph (s.graph.label node) output := by
  cases h with
  | planned log _ own => exact (Plan.carryOut_error own _ hf).imp id .inl
  | stopped log here => cases hf; exact .inl here
  | reentered log kind calls within =>
    cases hf
    exact .inr (.inr ⟨_, kind, calls, within, rfl⟩)
  | called => exact .inr (.inl ⟨_, _, _, List.mem_singleton.2 rfl, hf⟩)
  | supplied => cases hf
  | @argued inside around frame log _ _ _ =>
    have own : Plan.Local (s.graph.Feeds frame.callSite) (fun _ _ _ => False)
      (Walk.argument s.graph frame.callSite output) := argument_local output
    have failed : (on (Walk.carryOut s.graph visit (Walk.argument s.graph frame.callSite output))
        { σ with log, stack := around }).1 = .error failure := by
      dsimp only at hf
      split at hf
      · rename_i failed
        cases hf
        rw [failed]
      · cases hf
    exact (Plan.carryOut_error own _ failed).imp id .inl

/-- A step ends where an output fails that it asks for. -/
theorem fails (h : Expansion s node output σ run moments) (hm : .asks source other τ ∈ moments visit)
    {failure : Failure} (hf : (on (visit source other) τ).1 = .error failure) :
    (run visit).1 = .error failure ∧ (run visit).2.cache = (on (visit source other) τ).2.cache := by
  cases h with
  | planned =>
    obtain ⟨failed, state⟩ := Plan.carryOut_fails _ _ hm hf
    exact ⟨failed, by rw [state]⟩
  | stopped | reentered | supplied => cases hm
  | called =>
    obtain ⟨rfl, rfl, rfl⟩ := Moment.asks.inj (List.mem_singleton.1 hm)
    exact ⟨hf, WalkState.leaving_cache _ _⟩
  | argued =>
    obtain ⟨failed, state⟩ := Plan.carryOut_fails _ _ hm hf
    dsimp only
    rw [← state]
    generalize on _ _ = argument at failed ⊢
    obtain ⟨result, σ'⟩ := argument
    obtain rfl : result = .error failure := failed
    exact ⟨rfl, rfl⟩

/-- What a list in the cache gains in a step, it gains at its moments. -/
theorem account (h : Expansion s node output σ run moments) {β : Type} (view : Cache → List β)
    (gain : Moment → List β)
    (hm : ∀ moment ∈ moments visit,
      view (moment.cacheAfter visit) = gain moment ++ view moment.state.cache) :
    view (run visit).2.cache = (moments visit).flatMap gain ++ view σ.cache := by
  cases h with
  | planned => exact Plan.carryOut_account view gain _ _ hm
  | stopped | reentered | supplied => rfl
  | called =>
    have here := hm _ (List.mem_singleton.2 rfl)
    dsimp only
    rw [WalkState.leaving_cache, List.flatMap_singleton]
    exact here
  | argued =>
    refine Eq.trans (congrArg view ?_) (Plan.carryOut_account view gain _ _ hm)
    dsimp only
    generalize on _ _ = argument
    obtain ⟨failure | found, σ'⟩ := argument <;> rfl

/-- What holds of every cache that sub-nodes and outputs are put into holds after a step. -/
theorem preserves (h : Expansion s node output σ run moments) {I : Cache → Prop}
    (keep : ∀ cache key name value, I cache → I (cache.putSubNode key name value))
    (hv : ∀ source other τ, I τ.cache → I (on (visit source other) τ).2.cache) (hI : I σ.cache) :
    I (run visit).2.cache := by
  cases h with
  | planned log _ _ => exact Plan.carryOut_preserves keep hv _ _ hI
  | stopped | reentered | supplied => exact hI
  | called =>
    rw [WalkState.leaving_cache]
    exact hv _ _ _ hI
  | @argued inside around frame log _ _ _ =>
    have argument := Plan.carryOut_preserves (g := s.graph) keep hv
      (Walk.argument s.graph frame.callSite output) { σ with log, stack := around } hI
    dsimp only
    generalize on _ _ = run at argument ⊢
    obtain ⟨failure | found, σ'⟩ := run <;> exact argument

/-- The moments of a step are in states that differ from its own in the calls around and in what has
    been found meanwhile. -/
theorem evolves (h : Expansion s node output σ run moments)
    (steady : ∀ node output, Walk.Steady (visit node output)) {moment : Moment}
    (hm : moment ∈ moments visit) : ∃ log stack, { σ with log, stack }.Evolves moment.state := by
  cases h with
  | planned log _ own => exact ⟨_, _, (Plan.moments_evolve own steady _ hm).1⟩
  | stopped | reentered | supplied => cases hm
  | called =>
    obtain rfl := List.mem_singleton.1 hm
    exact ⟨_, _, .refl _⟩
  | @argued inside around frame log _ call _ =>
    have own : Plan.Local (s.graph.Feeds frame.callSite) (fun _ _ _ => False)
      (Walk.argument s.graph frame.callSite output) := argument_local output
    exact ⟨_, _, (Plan.moments_evolve own steady _ hm).1⟩

/-- A step asks for outputs that it waits for. -/
theorem asks (h : Expansion s node output σ run moments) (regular : s.Regular fixed)
    (steady : ∀ node output, Walk.Steady (visit node output)) (placed : Placed s.graph σ.stack node)
    (hm : .asks source other τ ∈ moments visit) :
    Placed s.graph τ.stack source ∧
      WaitsFor s.graph ⟨node, output, σ.scope, s.graph.material⟩
        ⟨source, other, τ.scope, s.graph.material⟩ := by
  cases h with
  | planned log _ own =>
    obtain ⟨evolves, feeds⟩ := Plan.moments_evolve own steady _ hm
    have scope : τ.scope = σ.scope := evolves.scope_eq
    rw [scope]
    exact ⟨(placed.of_tree (regular.feeds _ _ _ feeds)).of_extends evolves.stack, .link feeds⟩
  | stopped | reentered | supplied => cases hm
  | called log kind calls new leads =>
    obtain ⟨rfl, rfl, rfl⟩ := Moment.asks.inj (List.mem_singleton.1 hm)
    exact ⟨⟨regular.groupOutput _ _ leads, kind, calls, new, placed⟩,
      .call calls (placed.groupTree_ne new) leads⟩
  | @argued inside around frame log _ call _ =>
    have own : Plan.Local (s.graph.Feeds frame.callSite) (fun _ _ _ => False)
      (Walk.argument s.graph frame.callSite output) := argument_local output
    obtain ⟨evolves, feeds⟩ := Plan.moments_evolve own steady _ hm
    obtain ⟨-, stack⟩ := placed.innermostCall? call
    rw [stack] at placed
    have within := placed.2.2.2.2.of_tree (regular.feeds _ _ _ feeds)
    have scope : τ.scope = around.map Frame.callSite := evolves.scope_eq
    have inner : σ.scope = frame.callSite :: around.map Frame.callSite := by
      rw [WalkState.scope, stack, List.map_cons]
    rw [scope, inner]
    exact ⟨within.of_extends evolves.stack, .formal feeds⟩

end Expansion

namespace Walk

variable {s : Setting} {node : NodeId} {output : String} {σ : WalkState}

/-- What a step is. -/
theorem expansion (accepted : ∀ kind rules, s.table.get? kind = some rules → rules.Accepted)
    (node : NodeId) (output : String) (σ : WalkState) :
    Expansion s node output σ (fun visit => on (expand s visit node output) σ)
      (fun visit => moments s visit node output σ) := by
  simp only [on_expand, moments_eq]
  cases hb : bypass? s.graph node with
  | some plan => exact .planned σ.log (.inl hb) (bypass?_local hb)
  | none =>
    dsimp only
    cases ht : s.table.task s.graph node output with
    | plan plan => exact .planned _ (.inr ht) (task_local accepted ht)
    | call =>
      have kind := kind_of_task_call ht
      simp only [on_call, callMoments_eq]
      cases hg : s.graph.groupTree node with
      | none => exact .stopped _ trivial
      | some tree =>
        dsimp only
        by_cases hc : (σ.stack.any fun frame => frame.tree = tree) = true
        · obtain ⟨frame, hm, same⟩ := List.any_eq_true.1 hc
          simp only [WalkState.noting_stack, hc, if_true]
          exact .reentered _ kind hg (List.mem_map.2 ⟨frame, hm, of_decide_eq_true same⟩)
        · simp only [WalkState.noting_stack, hc]
          cases ho : s.graph.groupOutput tree with
          | none =>
            have own : Failure.IsLocal (.unresolvableGroupBoundary (s.graph.label node)
              "group has no output node") := trivial
            exact .stopped _ own
          | some groupOutput => exact .called _ kind hg (by simpa using hc) ho
    | formal =>
      have input : s.graph.IsGroupInput node := ⟨kind_of_task_formal ht, hb⟩
      simp only [on_formal, formalMoments_eq, WalkState.noting_stack]
      rcases hc : innermostCall? node.tree σ.stack with _ | ⟨inside, frame, around⟩
      · exact .stopped _ trivial
      dsimp only
      cases hf : frame.arguments.get? output with
      | some value => exact .supplied _ input hc hf
      | none => exact .argued _ input hc hf

end Walk

end MaterialLowering
