import Mathlib.Data.List.Nodup
import MaterialLowering.Proofs.Walks.Moments

/-!
# The events of a walk

A walk lowers outputs, each of which comes to a value or a failure, and it keeps sub-nodes. The events of
a walk account for everything in its cache: the outputs in it are those that came to a value, the
sub-nodes in it are those that were kept, in their order, and nothing was ever put in the place of
something else.

Main definitions:
* `Walk.events`: the events while an output is lowered.
* `Told`: what events tell of a run.

Results:
* `Walk.events_succ`, `Walk.lowering`: the events of one step of the walk.
* `Walk.lower_told`: what the events of an output tell.
-/

namespace MaterialLowering

open Walk (on)

namespace Event

/-- The output that was lowered. -/
@[simp] def lowered? : Event → Option Key
  | .lowered key _ => some key
  | .asked .. | .did .. | .kept .. => none

/-- The output that was lowered, with the value that it came to. -/
@[simp] def output? : Event → Option (Key × Value)
  | .lowered key (.ok value) => some (key, value)
  | .lowered _ (.error _) | .asked .. | .did .. | .kept .. => none

/-- The output that failed. -/
@[simp] def failed? : Event → Option Key
  | .lowered key (.error _) => some key
  | .lowered _ (.ok _) | .asked .. | .did .. | .kept .. => none

/-- The sub-node that was kept, with its value. -/
@[simp] def subNode? : Event → Option ((Key × String) × Value)
  | .kept key name value => some ((key, name), value)
  | .asked .. | .did .. | .lowered .. => none

/-- The output that was asked for, and the state. -/
@[simp] def asked? : Event → Option (NodeId × String × WalkState)
  | .asked node output σ => some (node, output, σ)
  | .did .. | .kept .. | .lowered .. => none

/-- What was done to the recording. -/
@[simp] def step? : Event → Option Recording.Step
  | .did _ step => some step
  | .asked .. | .kept .. | .lowered .. => none

/-- What was done to the recording for an output. -/
@[simp] def stepFor? (key : Key) : Event → Option Recording.Step
  | .did output step => if output = some key then some step else none
  | .asked .. | .kept .. | .lowered .. => none

theorem mem_lowered? {events : List Event} {key : Key} :
    key ∈ events.filterMap lowered? ↔ ∃ result, .lowered key result ∈ events := by
  constructor
  · intro h
    obtain ⟨event, hm, he⟩ := List.mem_filterMap.1 h
    match event, he with
    | .lowered _ result, he => cases he; exact ⟨result, hm⟩
  · rintro ⟨result, hm⟩
    exact List.mem_filterMap.2 ⟨_, hm, rfl⟩

theorem mem_failed? {events : List Event} {key : Key} :
    key ∈ events.filterMap failed? ↔ ∃ failure, .lowered key (.error failure) ∈ events := by
  constructor
  · intro h
    obtain ⟨event, hm, he⟩ := List.mem_filterMap.1 h
    match event, he with
    | .lowered _ (.error failure), he => cases he; exact ⟨failure, hm⟩
  · rintro ⟨failure, hm⟩
    exact List.mem_filterMap.2 ⟨_, hm, rfl⟩

theorem mem_output? {events : List Event} {key : Key} {value : Value} :
    (key, value) ∈ events.filterMap output? ↔ .lowered key (.ok value) ∈ events := by
  constructor
  · intro h
    obtain ⟨event, hm, he⟩ := List.mem_filterMap.1 h
    match event, he with
    | .lowered _ (.ok _), he => cases he; exact hm
  · exact fun hm => List.mem_filterMap.2 ⟨_, hm, rfl⟩

theorem mem_subNode? {events : List Event} {entry : (Key × String) × Value} :
    entry ∈ events.filterMap subNode? ↔ .kept entry.1.1 entry.1.2 entry.2 ∈ events := by
  constructor
  · intro h
    obtain ⟨event, hm, he⟩ := List.mem_filterMap.1 h
    match event, he with
    | .kept .., he => cases he; exact hm
  · exact fun hm => List.mem_filterMap.2 ⟨_, hm, rfl⟩

theorem mem_asked? {events : List Event} {call : NodeId × String × WalkState} :
    call ∈ events.filterMap asked? ↔ .asked call.1 call.2.1 call.2.2 ∈ events := by
  constructor
  · intro h
    obtain ⟨event, hm, he⟩ := List.mem_filterMap.1 h
    match event, he with
    | .asked .., he => cases he; exact hm
  · exact fun hm => List.mem_filterMap.2 ⟨_, hm, rfl⟩

/-- An output that was lowered once came to one result. -/
theorem result_unique {events : List Event} (once : (events.filterMap lowered?).Nodup) {key : Key}
    {result result' : Except Failure Value} (h : .lowered key result ∈ events)
    (h' : .lowered key result' ∈ events) : result = result' := by
  induction events with
  | nil => cases h
  | cons event rest ih =>
    cases event with
    | asked | did | kept =>
      refine ih once ?_ ?_
      · simpa using h
      · simpa using h'
    | lowered other first =>
      obtain ⟨apart, once⟩ := List.nodup_cons.1 once
      rcases List.mem_cons.1 h with same | h <;> rcases List.mem_cons.1 h' with same' | h'
      · exact (Event.lowered.inj same).2.trans (Event.lowered.inj same').2.symm
      · exact (apart (mem_lowered?.2 ⟨_, (Event.lowered.inj same).1 ▸ h'⟩)).elim
      · exact (apart (mem_lowered?.2 ⟨_, (Event.lowered.inj same').1 ▸ h⟩)).elim
      · exact ih once h h'

end Event

/-! ## Events at moments -/

/-- The events of a moment, given those of outputs that are asked for. -/
abbrev Moment.events (told : NodeId → String → WalkState → List Event) : Moment → List Event :=
  Moment.told Moment.event told

section

variable {told : NodeId → String → WalkState → List Event} {moments : List Moment} {key : Key}

/-- What happens where an output is asked for happens at that moment. -/
theorem Moment.mem_of_asks {node : NodeId} {output : String} {τ : WalkState}
    (asked : .asks node output τ ∈ moments) {event : Event} (he : event ∈ told node output τ) :
    event ∈ moments.flatMap (Moment.events told) :=
  List.mem_flatMap.2 ⟨_, asked, List.mem_append_left _ he⟩

/-- What is lowered is lowered where an output is asked for. -/
theorem Moment.exists_of_lowered {result : Except Failure Value}
    (h : .lowered key result ∈ moments.flatMap (Moment.events told)) :
    ∃ node output τ, .asks node output τ ∈ moments ∧ .lowered key result ∈ told node output τ := by
  obtain ⟨moment, hm, he⟩ := List.mem_flatMap.1 h
  cases moment with
  | asks node output τ =>
    exact ⟨node, output, τ, hm, by simpa using he⟩
  | does | keeps => simp at he

/-- Something is done at a moment of its own, or where an output is asked for. -/
theorem Moment.exists_of_did {output : Option Key} {step : Recording.Step}
    (h : .did output step ∈ moments.flatMap (Moment.events told)) :
    (∃ operation τ, .does operation τ ∈ moments ∧ output = τ.active.head?) ∨
      ∃ node other τ, .asks node other τ ∈ moments ∧ .did output step ∈ told node other τ := by
  obtain ⟨moment, hm, he⟩ := List.mem_flatMap.1 h
  cases moment with
  | asks node other τ =>
    exact .inr ⟨node, other, τ, hm, by simpa using he⟩
  | does operation τ =>
    obtain ⟨rfl, -⟩ := Event.did.inj (List.mem_singleton.1 he)
    exact .inl ⟨operation, τ, hm, rfl⟩
  | keeps => simp at he

/-- A sub-node is kept at a moment of its own, or where an output is asked for. -/
theorem Moment.exists_of_kept {name : String} {value : Value}
    (h : .kept key name value ∈ moments.flatMap (Moment.events told)) :
    (∃ τ, .keeps key name value τ ∈ moments) ∨
      ∃ node output τ, .asks node output τ ∈ moments ∧ .kept key name value ∈ told node output τ := by
  obtain ⟨moment, hm, he⟩ := List.mem_flatMap.1 h
  cases moment with
  | asks node output τ =>
    exact .inr ⟨node, output, τ, hm, by simpa using he⟩
  | does => simp at he
  | keeps key' name' value' τ =>
    obtain ⟨rfl, rfl, rfl⟩ := Event.kept.inj (List.mem_singleton.1 he)
    exact .inl ⟨τ, hm⟩

/-- An output is asked for at a moment of its own, or where another one is asked for. -/
theorem Moment.asked_mem {node : NodeId} {output : String} {τ : WalkState} :
    .asked node output τ ∈ moments.flatMap (Moment.events told) ↔ .asks node output τ ∈ moments ∨
      ∃ source other σ, .asks source other σ ∈ moments ∧ .asked node output τ ∈ told source other σ := by
  constructor
  · intro h
    obtain ⟨moment, hm, he⟩ := List.mem_flatMap.1 h
    cases moment with
    | asks source other σ =>
      rcases List.mem_append.1 he with he | he
      · exact .inr ⟨source, other, σ, hm, he⟩
      · obtain ⟨rfl, rfl, rfl⟩ := Event.asked.inj (List.mem_singleton.1 he)
        exact .inl hm
    | does | keeps => cases List.mem_singleton.1 he
  · rintro (hm | ⟨source, other, σ, hm, he⟩)
    · exact List.mem_flatMap.2 ⟨_, hm, List.mem_append_right _ (List.mem_singleton.2 rfl)⟩
    · exact List.mem_flatMap.2 ⟨_, hm, List.mem_append_left _ he⟩

end

/-- The events while an output is lowered, the latest first. -/
def Walk.events (s : Setting) (depth : Nat) (node : NodeId) (output : String) (σ : WalkState) :
    List Event := (Traced.lower s depth node output).told σ

@[simp] theorem Walk.events_zero (s : Setting) (node : NodeId) (output : String) (σ : WalkState) :
    events s 0 node output σ = [] := rfl

/-- There are no events when an output is known, or already being lowered. Otherwise it is lowered, after
    what happens at the moments of its step. -/
theorem Walk.events_succ (s : Setting) (depth : Nat) (node : NodeId) (output : String) (σ : WalkState) :
    events s (depth + 1) node output σ =
      let key : Key := ⟨node, output, σ.scope, s.graph.material⟩
      if (σ.cache.get? key).isSome ∨ key ∈ σ.active then []
      else
        let τ := { σ with active := key :: σ.active }
        .lowered key (on (expand s (lower s depth) node output) τ).1 ::
          (moments s (lower s depth) node output τ).flatMap (Moment.events (events s depth)) := by
  show (Traced.step s (Traced.lower s depth) node output).told σ = _
  unfold Traced.step
  simp only [Traced.told_bind, Traced.walk_lift, Traced.told_lift, on_key, on_get, List.append_nil]
  cases σ.cache.get? ⟨node, output, σ.scope, s.graph.material⟩ with
  | some value => simp
  | none =>
    simp only [Traced.told_bind, Traced.walk_lift, Traced.told_lift, on_get, Option.isSome_none,
      Bool.false_eq_true, false_or, List.append_nil]
    split
    · rfl
    · simp only [Traced.told_bind, Traced.walk_lift, Traced.told_lift, on_modify, Traced.walk_attempt,
        Traced.told_attempt, on_attempt, Traced.walk_tell, on_pure, Traced.told_tell, Traced.expand_walk,
        Traced.lower_walk, on_settle, Traced.told_pure, Traced.told_expand]
      generalize on (expand s (lower s depth) node output) _ = run
      obtain ⟨failure | value, σ'⟩ := run <;> exact List.append_nil _

/-- What events tell of a run that began in the state `σ`. -/
structure Told {α : Type} (σ : WalkState) (run : Except Failure α × WalkState) (events : List Event) :
    Prop where
  evolves : σ.Evolves run.2
  /-- The outputs that came to a value were put into the cache. -/
  outputs : run.2.cache.outputs.entries =
    events.filterMap Event.output? ++ σ.cache.outputs.entries
  /-- The sub-nodes that were kept were put into the cache. -/
  subNodes : run.2.cache.subNodes.entries =
    events.filterMap Event.subNode? ++ σ.cache.subNodes.entries
  /-- An output was lowered that was not known and not being lowered. -/
  fresh : ∀ {key result}, .lowered key result ∈ events → key ∉ σ.active ∧ σ.cache.get? key = none
  /-- A sub-node was kept of an output that was not being lowered before. -/
  kept : ∀ {key name value}, .kept key name value ∈ events → key ∉ σ.active
  /-- No output was lowered twice. -/
  once : (events.filterMap Event.lowered?).Nodup
  /-- Where an output failed, the run did in the same way. -/
  failed : ∀ {key failure}, .lowered key (.error failure) ∈ events → run.1 = .error failure

/-- A run that changes nothing has no events. -/
theorem Told.refl {α : Type} (σ : WalkState) (result : Except Failure α) : Told σ (result, σ) [] :=
  ⟨.refl σ, rfl, rfl, fun h => (by cases h), fun h => (by cases h), .nil, fun h => (by cases h)⟩

/-- The events of outputs tell of a way of finding them. -/
abbrev Tells (visit : NodeId → String → Walk Value)
    (told : NodeId → String → WalkState → List Event) : Prop :=
  ∀ node output σ, Told σ (on (visit node output) σ) (told node output σ)

theorem Tells.steady {visit : NodeId → String → Walk Value}
    {told : NodeId → String → WalkState → List Event} (tells : Tells visit told) (node : NodeId)
    (output : String) : Walk.Steady (visit node output) :=
  fun σ => (tells node output σ).evolves

/-! ## Plans -/

namespace Plan

variable {α β : Type} {g : HostGraph} {visit : NodeId → String → Walk Value}
  {told : NodeId → String → WalkState → List Event} {σ : WalkState}
  {asks : NodeId → String → Prop} {keeps : NodeId → String → String → Prop}

/-- The events while a plan is carried out. -/
abbrev events (g : HostGraph) (visit : NodeId → String → Walk Value)
    (told : NodeId → String → WalkState → List Event) (plan : Plan α) (σ : WalkState) : List Event :=
  (plan.moments g visit σ).flatMap (Moment.events told)

section

variable (g visit told σ)

theorem events_visit (node : NodeId) (output : String) (next : Value → Plan α) :
    (Plan.visit node output next).events g visit told σ =
      match on (visit node output) σ with
      | (.ok value, σ') =>
        (next value).events g visit told σ' ++ (told node output σ ++ [.asked node output σ])
      | (.error _, _) => told node output σ ++ [.asked node output σ] := by
  rw [events, moments_visit]
  rcases on (visit node output) σ with ⟨failure | value, σ'⟩ <;> simp

theorem events_create (kind : NativeKind) (params : List (String × Value))
    (next : NodeHandle → Plan α) :
    (Plan.create kind params next).events g visit told σ =
      (next (σ.recording.create kind params).1).events g visit told
        { σ with recording := (σ.recording.create kind params).2 } ++
          [.did σ.active.head? ⟨.create kind params, σ.recording⟩] := by
  rw [events, moments_create, List.flatMap_append, List.flatMap_singleton]
  rfl

theorem events_image (descriptor : ImageDescriptor) (next : Option ImageHandle → Plan α) :
    (Plan.image descriptor next).events g visit told σ =
      (next (σ.recording.materialize descriptor).1.toOption).events g visit told
        { σ with recording := (σ.recording.materialize descriptor).2 } ++
          [.did σ.active.head? ⟨.materialize descriptor, σ.recording⟩] := by
  rw [events, moments_image, List.flatMap_append, List.flatMap_singleton]
  rfl

theorem events_report (notice : Notice) (next : Plan α) :
    (Plan.report notice next).events g visit told σ = next.events g visit told (σ.noting notice) := by
  rw [events, moments_report]

theorem events_known (node : NodeId) (output name : String) (next : Option Value → Plan α) :
    (Plan.known node output name next).events g visit told σ =
      (next (σ.cache.subNode? ⟨node, output, σ.scope, g.material⟩ name)).events g visit told σ := by
  rw [events, moments_known]

theorem events_remember (node : NodeId) (output name : String) (value : Value) (next : Plan α) :
    (Plan.remember node output name value next).events g visit told σ =
      next.events g visit told { σ with
        cache := σ.cache.putSubNode ⟨node, output, σ.scope, g.material⟩ name value } ++
          [.kept ⟨node, output, σ.scope, g.material⟩ name value] := by
  rw [events, moments_remember, List.flatMap_append, List.flatMap_singleton]
  rfl

end

/-- One plan after another. -/
theorem events_bind (p : Plan α) (f : α → Plan β) (σ : WalkState) :
    (p >>= f).events g visit told σ =
      match on (Walk.carryOut g visit p) σ with
      | (.ok a, σ') => (f a).events g visit told σ' ++ p.events g visit told σ
      | (.error _, _) => p.events g visit told σ := by
  rw [events, moments_bind]
  rcases on (Walk.carryOut g visit p) σ with ⟨failure | a, σ'⟩
  · rfl
  · exact List.flatMap_append

/-- Every sub-node that the plan keeps was not known before. -/
def KeepsFresh (g : HostGraph) (visit : NodeId → String → Walk Value) (plan : Plan α)
    (σ : WalkState) : Prop :=
  ∀ key name value τ, .keeps key name value τ ∈ plan.moments g visit σ →
    τ.cache.subNode? key name = none

theorem KeepsFresh.bind {p : Plan α} {f : α → Plan β} (h : KeepsFresh g visit p σ)
    (hf : ∀ a σ', on (Walk.carryOut g visit p) σ = (.ok a, σ') → KeepsFresh g visit (f a) σ') :
    KeepsFresh g visit (p >>= f) σ := by
  intro key name value τ hm
  rw [moments_bind] at hm
  rcases hp : on (Walk.carryOut g visit p) σ with ⟨failure | a, σ'⟩ <;> rw [hp] at hm
  · exact h key name value τ hm
  · rcases List.mem_append.1 hm with hm | hm
    · exact hf a σ' hp key name value τ hm
    · exact h key name value τ hm

/-- A plan that keeps nothing. -/
theorem KeepsFresh.of_local (tells : Tells visit told) {plan : Plan α}
    (own : Plan.Local asks (fun _ _ _ => False) plan) : KeepsFresh g visit plan σ :=
  fun _ _ _ _ hm => (moments_evolve own tells.steady σ hm).2.1.elim

/-- Outputs that are lowered while a plan is carried out were neither known nor being lowered. -/
theorem events_fresh (tells : Tells visit told) {plan : Plan α} (own : Plan.Local asks keeps plan)
    {key : Key} {result : Except Failure Value} (h : .lowered key result ∈ plan.events g visit told σ) :
    key ∉ σ.active ∧ σ.cache.get? key = none := by
  obtain ⟨node, output, τ, hm, he⟩ := Moment.exists_of_lowered h
  obtain ⟨evolves, -⟩ := moments_evolve own tells.steady σ hm
  obtain ⟨waits, unknown⟩ := (tells node output τ).fresh he
  refine ⟨evolves.active ▸ waits, Memo.get?_eq_none.2 fun entry hm => ?_⟩
  exact Memo.get?_eq_none.1 unknown entry (evolves.cache_subset hm)

/-- No output is lowered twice while a plan is carried out: the first time it came to a value, since
    the plan went on, and is known from then on. -/
theorem events_once (tells : Tells visit told) {plan : Plan α} (own : Plan.Local asks keeps plan) :
    ((plan.events g visit told σ).filterMap Event.lowered?).Nodup := by
  induction own generalizing σ with
  | done | fail => exact .nil
  | @visit node output next _ go ih =>
    have first := tells node output σ
    rw [events_visit]
    rcases hv : on (visit node output) σ with ⟨failure | value, σ'⟩ <;> rw [hv] at first
    · simpa [List.filterMap_cons] using first.once
    · have own : (told node output σ ++ [Event.asked node output σ]).filterMap Event.lowered? =
          (told node output σ).filterMap Event.lowered? := by simp [List.filterMap_cons]
      rw [List.filterMap_append, own]
      refine List.Nodup.append (ih value) first.once fun key later earlier => ?_
      obtain ⟨result, later⟩ := Event.mem_lowered?.1 later
      obtain ⟨result', earlier⟩ := Event.mem_lowered?.1 earlier
      cases result' with
      | error failure => cases first.failed earlier
      | ok value' =>
        have known : (key, value') ∈ σ'.cache.outputs.entries := by
          rw [first.outputs]
          exact List.mem_append_left _ (Event.mem_output?.2 earlier)
        exact Memo.get?_eq_none.1 (events_fresh tells (go value) later).2 _ known rfl
  | create _ ih => simpa [events_create, List.filterMap_cons] using ih _
  | image _ ih => simpa [events_image, List.filterMap_cons] using ih _
  | report _ ih => simpa only [events_report] using ih
  | known _ _ ih => simpa only [events_known] using ih _
  | remember _ _ ih => simpa [events_remember, List.filterMap_cons] using ih

/-- What a plan adds to the sub-nodes that are known. -/
theorem subNodes_account (tells : Tells visit told) {plan : Plan α} (fresh : KeepsFresh g visit plan σ) :
    (on (Walk.carryOut g visit plan) σ).2.cache.subNodes.entries =
      (plan.events g visit told σ).filterMap Event.subNode? ++ σ.cache.subNodes.entries := by
  rw [List.filterMap_flatMap]
  refine carryOut_account (fun cache => cache.subNodes.entries) _ plan σ fun moment hm => ?_
  cases moment with
  | asks node output τ =>
    simpa [Moment.cacheAfter, Moment.state, List.filterMap_cons] using (tells node output τ).subNodes
  | does => rfl
  | keeps key name value τ =>
    exact Memo.entries_put_of_get?_eq_none value (fresh key name value τ hm)

/-- A sub-node of an output that is being lowered stays unknown unless the plan keeps it. -/
theorem subNode?_eq_none (tells : Tells visit told) {plan : Plan α} (own : Plan.Local asks keeps plan)
    (fresh : KeepsFresh g visit plan σ) {key : Key} {name : String} (active : key ∈ σ.active)
    (apart : ¬ keeps key.node key.output name) (unknown : σ.cache.subNode? key name = none) :
    (on (Walk.carryOut g visit plan) σ).2.cache.subNode? key name = none := by
  refine Memo.get?_eq_none.2 fun entry he same => ?_
  rw [subNodes_account tells fresh] at he
  rcases List.mem_append.1 he with he | he
  · rw [Event.mem_subNode?, same] at he
    rcases Moment.exists_of_kept he with ⟨τ, hm⟩ | ⟨node, output, τ, hm, he⟩
    · exact apart (own.within σ hm).1
    · obtain ⟨evolves, -⟩ := moments_evolve own tells.steady σ hm
      exact (tells node output τ).kept he (evolves.active.symm ▸ active)
  · exact Memo.get?_eq_none.1 unknown entry he same

/-- The events of a plan that keeps nothing tell what happens while it is carried out. -/
theorem events_told (tells : Tells visit told) {plan : Plan α}
    (own : Plan.Local asks (fun _ _ _ => False) plan) :
    Told σ (on (Walk.carryOut g visit plan) σ) (plan.events g visit told σ) where
  evolves := Walk.carryOut_evolves tells.steady plan σ
  outputs := by
    rw [List.filterMap_flatMap]
    refine carryOut_account (fun cache => cache.outputs.entries) _ plan σ fun moment hm => ?_
    cases moment with
    | asks node output τ =>
      simpa [Moment.cacheAfter, Moment.state, List.filterMap_cons] using (tells node output τ).outputs
    | does | keeps => rfl
  subNodes := subNodes_account tells (.of_local tells own)
  fresh := events_fresh tells own
  kept := by
    intro key name value he
    rcases Moment.exists_of_kept he with ⟨τ, hm⟩ | ⟨node, output, τ, hm, he⟩
    · exact (own.within σ hm).1.elim
    · obtain ⟨evolves, -⟩ := moments_evolve own tells.steady σ hm
      exact evolves.active ▸ (tells node output τ).kept he
  once := events_once tells own
  failed := by
    intro key failure he
    obtain ⟨node, output, τ, hm, he⟩ := Moment.exists_of_lowered he
    exact (plan.carryOut_fails σ hm ((tells node output τ).failed he)).1

end Plan

/-! ## Sub-nodes -/

namespace RuleSite

variable {site : RuleSite} {visit : NodeId → String → Walk Value}
  {told : NodeId → String → WalkState → List Event} {σ : WalkState}

/-- The key of the output of a site. -/
def key (site : RuleSite) (σ : WalkState) : Key :=
  ⟨site.node, site.output, σ.scope, site.graph.material⟩

/-- The output of a site is being lowered. -/
def Active (site : RuleSite) (σ : WalkState) : Prop := site.key σ ∈ σ.active

theorem key_of_evolves {σ' : WalkState} (evolves : σ.Evolves σ') : site.key σ' = site.key σ := by
  rw [key, key, evolves.scope_eq]

theorem Active.of_evolves {σ' : WalkState} (h : site.Active σ) (evolves : σ.Evolves σ') :
    site.Active σ' := by
  rw [Active, key_of_evolves evolves, evolves.active]
  exact h

theorem source_keepsFresh (tells : Tells visit told) {subNode : String → Plan Value}
    (source : ValueSource)
    (hs : ∀ reference, source.reference? = some reference →
      Plan.KeepsFresh site.graph visit (subNode reference) σ) :
    Plan.KeepsFresh site.graph visit (site.source subNode source) σ := by
  have nothing : ∀ plan : Plan Value, Plan.Local site.Asks (fun _ _ _ => False) plan →
      Plan.KeepsFresh site.graph visit plan σ := fun _ own => .of_local tells own
  cases source with
  | input socket => exact nothing _ (Plan.input_local _)
  | link socket => exact nothing _ (Plan.inputLink_local _)
  | default socket => exact nothing _ (Plan.inputDefault_local _)
  | node name => exact hs name rfl
  | literal literal => exact nothing _ (.done _)

theorem params_keepsFresh (tells : Tells visit told) {subNode : String → Plan Value}
    (params : List (String × ValueSource)) (active : site.Active σ)
    (hs : ∀ param ∈ params, ∀ reference, param.2.reference? = some reference →
      ∀ σ, site.Active σ → Plan.KeepsFresh site.graph visit (subNode reference) σ) :
    Plan.KeepsFresh site.graph visit (site.params subNode params) σ := by
  induction params generalizing σ with
  | nil => exact fun _ _ _ _ hm => by cases hm
  | cons param rest ih =>
    have head := source_keepsFresh tells param.2 fun reference hr =>
      hs param List.mem_cons_self reference hr σ active
    refine head.bind fun value σ' run => ?_
    have evolves := Walk.carryOut_evolves (g := site.graph) tells.steady
      (site.source subNode param.2) σ
    rw [run] at evolves
    have tail := ih (active.of_evolves evolves) fun other ho => hs other (List.mem_cons_of_mem _ ho)
    exact tail.bind fun values σ'' _ _ _ _ _ hm => by cases hm

theorem body_keepsFresh (tells : Tells visit told) {subNode : String → Plan Value} (rule : SubNodeRule)
    (active : site.Active σ)
    (hs : ∀ param ∈ rule.params, ∀ reference, param.2.reference? = some reference →
      ∀ σ, site.Active σ → Plan.KeepsFresh site.graph visit (subNode reference) σ) :
    Plan.KeepsFresh site.graph visit (site.params subNode rule.params >>= rule.type.plan) σ :=
  (params_keepsFresh tells rule.params active hs).bind fun values _ _ =>
    have own : Plan.Local site.Asks (fun _ _ _ => False) (rule.type.plan values) :=
      typePlan_local rule.type values
    .of_local tells own

/-- A sub-node that was not known is still not known when it is kept: only sub-nodes before it were kept
    in between. -/
theorem remember_keepsFresh (tells : Tells visit told) {earlier : List String} {name : String}
    {body : Plan Value} (own : Plan.Local site.Asks (site.Keeps earlier) body) (apart : name ∉ earlier)
    (fresh : Plan.KeepsFresh site.graph visit body σ) (active : site.Active σ)
    (unknown : σ.cache.subNode? (site.key σ) name = none) :
    Plan.KeepsFresh site.graph visit
      (body >>= fun value => .remember site.node site.output name value (.done value)) σ := by
  refine fresh.bind fun value σ' run key other value' τ hm => ?_
  rw [Plan.moments_remember] at hm
  obtain ⟨rfl, rfl, rfl, rfl⟩ := Moment.keeps.inj (List.mem_singleton.1 hm)
  have evolves := Walk.carryOut_evolves (g := site.graph) tells.steady body σ
  have still := Plan.subNode?_eq_none tells own fresh active (fun keeps => apart keeps.2.2) unknown
  rw [run] at evolves still
  show τ.cache.subNode? (site.key τ) other = none
  rw [key_of_evolves evolves]
  exact still

/-- A sub-node is kept when it was not known before: those that it refers to come before it, and keep
    only sub-nodes that do. -/
theorem subNode_keepsFresh (tells : Tells visit told) (h : site.rules.Accepted) {done : List String}
    (ordered : site.rules.Ordered done) (nodup : done.Nodup)
    (known : ∀ name ∈ done, site.rules.contains name = true) {name : String} (hn : name ∈ done)
    (active : site.Active σ) :
    Plan.KeepsFresh site.graph visit (site.subNode (site.rules.size + 1) name) σ := by
  induction done generalizing name σ with
  | nil => cases hn
  | cons first rest ih =>
    obtain ⟨first_notMem, nodup_rest⟩ := List.nodup_cons.1 nodup
    have known_rest : ∀ name ∈ rest, site.rules.contains name = true := fun name hm =>
      known name (List.mem_cons_of_mem _ hm)
    rcases List.mem_cons.1 hn with rfl | hn
    · obtain ⟨rule, hrule⟩ := Option.isSome_iff_exists.1 (known name List.mem_cons_self)
      have own : Plan.Local site.Asks (site.Keeps rest)
          (site.params (site.subNode (site.rules.size + 1)) rule.params >>= rule.type.plan) :=
        (params_local rule.params fun param hp reference hr =>
          subNode_local h ordered.2 known_rest
            (ordered.1 reference (mem_references hrule hp hr))).bind (typePlan_local rule.type)
      have kept : ∀ σ, site.Active σ → σ.cache.subNode? (site.key σ) name = none →
          Plan.KeepsFresh site.graph visit
            ((site.params (site.subNode (site.rules.size + 1)) rule.params >>= rule.type.plan) >>=
              fun value => .remember site.node site.output name value (.done value)) σ := by
        refine fun σ active unknown => remember_keepsFresh tells own first_notMem ?_ active unknown
        exact body_keepsFresh tells rule active fun param hp reference hr σ active =>
          ih ordered.2 nodup_rest known_rest (ordered.1 reference (mem_references hrule hp hr)) active
      cases found : σ.cache.subNode? (site.key σ) name with
      | some value =>
        intro key other value τ hm
        rw [moments_known site h found] at hm
        cases hm
      | none =>
        unfold Plan.KeepsFresh
        rw [moments_unknown site h found, fresh_eq hrule]
        cases rule.warn with
        | none => exact kept σ active found
        | some message =>
          dsimp only
          rw [Plan.moments_report]
          exact kept (σ.noting _) active found
    · exact ih ordered.2 nodup_rest known_rest hn active

theorem plan_keepsFresh (tells : Tells visit told) (h : site.rules.Accepted) (active : site.Active σ) :
    Plan.KeepsFresh site.graph visit site.plan σ := by
  unfold plan
  split
  · rename_i hn
    obtain ⟨done, searched, all⟩ := h.exists_order
    exact subNode_keepsFresh tells h searched.ordered searched.nodup searched.known
      (all site.output hn) active
  · exact fun _ _ _ _ hm => by cases hm

end RuleSite

/-! ## Steps -/

namespace Expansion

variable {s : Setting} {node : NodeId} {output : String} {σ : WalkState}
  {visit : NodeId → String → Walk Value} {told : NodeId → String → WalkState → List Event}
  {run : (NodeId → String → Walk Value) → Except Failure Value × WalkState}
  {moments : (NodeId → String → Walk Value) → List Moment} {key : Key}

/-- A step keeps sub-nodes of its own output, and none that was known. -/
theorem keeps (h : Expansion s node output σ run moments)
    (accepted : ∀ kind rules, s.table.get? kind = some rules → rules.Accepted)
    (tells : Tells visit told) (active : ⟨node, output, σ.scope, s.graph.material⟩ ∈ σ.active)
    {name : String} {value : Value} {τ : WalkState} (hm : .keeps key name value τ ∈ moments visit) :
    key = ⟨node, output, σ.scope, s.graph.material⟩ ∧ τ.cache.subNode? key name = none := by
  cases h with
  | @planned plan log origin own =>
    obtain ⟨evolves, ⟨hnode, houtput⟩, hscope, hmaterial⟩ := Plan.moments_evolve own tells.steady _ hm
    refine ⟨?_, ?_⟩
    · obtain ⟨node', output', scope', material'⟩ := key
      obtain rfl : scope' = σ.scope := hscope.trans evolves.scope_eq
      simp only at hnode houtput hmaterial
      rw [hnode, houtput, hmaterial]
    · have fresh : Plan.KeepsFresh s.graph visit plan { σ with log } := by
        rcases origin with bypassed | task
        · have nothing : Plan.Local (s.graph.Feeds node) (fun _ _ _ => False) plan :=
            bypass?_local bypassed
          exact .of_local tells nothing
        · rcases task_local_cases task with ⟨rules, hr, rfl⟩ | ⟨-, nothing⟩
          · have ofEntry : (RuleSite.mk s.graph (s.graph.kind node) rules node output).rules.Accepted :=
              accepted _ rules hr
            exact RuleSite.plan_keepsFresh tells ofEntry active
          · exact .of_local tells (nothing fun _ _ _ => False)
      exact fresh key name value τ hm
  | stopped | reentered | supplied => cases hm
  | called => cases List.mem_singleton.1 hm
  | @argued _ _ frame _ _ _ _ =>
    have own : Plan.Local (s.graph.Feeds frame.callSite) (fun _ _ _ => False)
      (Walk.argument s.graph frame.callSite output) := argument_local output
    exact (Plan.moments_evolve own tells.steady _ hm).2.1.elim

/-- Outputs that are lowered in a step were neither known nor being lowered. -/
theorem events_fresh (h : Expansion s node output σ run moments) (tells : Tells visit told)
    {result : Except Failure Value}
    (he : .lowered key result ∈ (moments visit).flatMap (Moment.events told)) :
    key ∉ σ.active ∧ σ.cache.get? key = none := by
  obtain ⟨source, other, τ, hm, he⟩ := Moment.exists_of_lowered he
  obtain ⟨log, stack, evolves⟩ := h.evolves tells.steady hm
  obtain ⟨waits, unknown⟩ := (tells source other τ).fresh he
  refine ⟨evolves.active ▸ waits, Memo.get?_eq_none.2 fun entry hm => ?_⟩
  exact Memo.get?_eq_none.1 unknown entry (evolves.cache_subset hm)

/-- No output is lowered twice in a step. -/
theorem events_once (h : Expansion s node output σ run moments) (tells : Tells visit told) :
    (((moments visit).flatMap (Moment.events told)).filterMap Event.lowered?).Nodup := by
  cases h with
  | planned log _ own => exact Plan.events_once tells own
  | stopped | reentered | supplied => exact .nil
  | called => simpa [List.filterMap_cons] using (tells _ _ _).once
  | @argued _ _ frame _ _ _ _ =>
    have own : Plan.Local (s.graph.Feeds frame.callSite) (fun _ _ _ => False)
      (Walk.argument s.graph frame.callSite output) := argument_local output
    exact Plan.events_once tells own

/-- What a step adds to the cache. -/
theorem events_account (h : Expansion s node output σ run moments)
    (accepted : ∀ kind rules, s.table.get? kind = some rules → rules.Accepted)
    (tells : Tells visit told) (active : ⟨node, output, σ.scope, s.graph.material⟩ ∈ σ.active) :
    (run visit).2.cache.outputs.entries =
        ((moments visit).flatMap (Moment.events told)).filterMap Event.output? ++
          σ.cache.outputs.entries ∧
      (run visit).2.cache.subNodes.entries =
        ((moments visit).flatMap (Moment.events told)).filterMap Event.subNode? ++
          σ.cache.subNodes.entries := by
  rw [List.filterMap_flatMap, List.filterMap_flatMap]
  refine ⟨h.account (fun cache => cache.outputs.entries) _ fun moment hm => ?_,
    h.account (fun cache => cache.subNodes.entries) _ fun moment hm => ?_⟩
  · cases moment with
    | asks source other τ =>
      simpa [Moment.cacheAfter, Moment.state, List.filterMap_cons] using (tells source other τ).outputs
    | does | keeps => rfl
  · cases moment with
    | asks source other τ =>
      simpa [Moment.cacheAfter, Moment.state, List.filterMap_cons] using (tells source other τ).subNodes
    | does => rfl
    | keeps key name value τ =>
      exact Memo.entries_put_of_get?_eq_none value (h.keeps accepted tells active hm).2

/-- A sub-node that is kept in a step belongs to its output, or to one that was not being lowered. -/
theorem events_kept (h : Expansion s node output σ run moments)
    (accepted : ∀ kind rules, s.table.get? kind = some rules → rules.Accepted)
    (tells : Tells visit told) (active : ⟨node, output, σ.scope, s.graph.material⟩ ∈ σ.active)
    {name : String} {value : Value}
    (he : .kept key name value ∈ (moments visit).flatMap (Moment.events told)) :
    key = ⟨node, output, σ.scope, s.graph.material⟩ ∨ key ∉ σ.active := by
  rcases Moment.exists_of_kept he with ⟨τ, hm⟩ | ⟨source, other, τ, hm, he⟩
  · exact .inl (h.keeps accepted tells active hm).1
  · obtain ⟨log, stack, evolves⟩ := h.evolves tells.steady hm
    exact .inr (evolves.active ▸ (tells source other τ).kept he)

/-- A step fails where an output does that it lowers. -/
theorem events_failed (h : Expansion s node output σ run moments) (tells : Tells visit told)
    {failure : Failure}
    (he : .lowered key (.error failure) ∈ (moments visit).flatMap (Moment.events told)) :
    (run visit).1 = .error failure := by
  obtain ⟨source, other, τ, hm, he⟩ := Moment.exists_of_lowered he
  exact (h.fails hm ((tells source other τ).failed he)).1

end Expansion

/-- The state after an output came to a result. -/
def WalkState.finished (key : Key) (result : Except Failure Value) (σ : WalkState) : WalkState :=
  match result with
  | .error _ => { σ with active := σ.active.erase key }
  | .ok value => { σ with active := σ.active.erase key, cache := σ.cache.put key value }

/-- An output that came to something new is added to the cache. -/
theorem WalkState.stock_finished (σ : WalkState) {key : Key} (result : Except Failure Value)
    (fresh : key ∉ σ.cache.outputs.entries.map Prod.fst) :
    σ.stock.Within (σ.finished key result).stock := by
  cases result with
  | error failure => exact .refl _
  | ok value =>
    have unknown : σ.cache.outputs.get? key = none :=
      Memo.get?_eq_none.2 fun entry he same => fresh (List.mem_map.2 ⟨entry, he, same⟩)
    refine ⟨.refl _, ?_⟩
    show σ.cache.outputs.entries ⊆ (σ.cache.outputs.put key value).entries
    rw [Memo.entries_put_of_get?_eq_none value unknown]
    exact List.subset_cons_self _ _

/-- A new output and what happened while it was being lowered. -/
theorem Told.finished {σ σ' : WalkState} {key : Key} {result : Except Failure Value}
    {nested : List Event} (evolves : σ.Evolves (σ'.finished key result))
    (unknown : σ.cache.get? key = none) (unmet : key ∉ σ.active)
    (outputs : σ'.cache.outputs.entries =
      nested.filterMap Event.output? ++ σ.cache.outputs.entries)
    (subNodes : σ'.cache.subNodes.entries =
      nested.filterMap Event.subNode? ++ σ.cache.subNodes.entries)
    (fresh : ∀ {other result}, .lowered other result ∈ nested →
      other ∉ key :: σ.active ∧ σ.cache.get? other = none)
    (kept : ∀ {other name value}, .kept other name value ∈ nested →
      other = key ∨ other ∉ key :: σ.active)
    (once : (nested.filterMap Event.lowered?).Nodup)
    (failed : ∀ {other failure}, .lowered other (.error failure) ∈ nested → result = .error failure) :
    Told σ (result, σ'.finished key result) (.lowered key result :: nested) where
  evolves := evolves
  outputs := by
    cases result with
    | error failure => exact outputs
    | ok value =>
      have absent : σ'.cache.outputs.get? key = none := by
        refine Memo.get?_eq_none.2 fun entry he => ?_
        rw [outputs] at he
        rcases List.mem_append.1 he with he | he
        · rintro rfl
          exact (fresh (Event.mem_output?.1 he)).1 List.mem_cons_self
        · exact Memo.get?_eq_none.1 unknown entry he
      show (σ'.cache.outputs.put key value).entries = (key, value) :: _
      rw [Memo.entries_put_of_get?_eq_none value absent, outputs]
      rfl
  subNodes := by cases result <;> exact subNodes
  fresh := by
    intro other result' he
    rcases List.mem_cons.1 he with he | he
    · obtain ⟨rfl, -⟩ := Event.lowered.inj he
      exact ⟨unmet, unknown⟩
    · exact ⟨fun hm => (fresh he).1 (List.mem_cons_of_mem _ hm), (fresh he).2⟩
  kept := by
    intro other name value he hm
    rcases List.mem_cons.1 he with he | he
    · cases he
    · rcases kept he with rfl | apart
      · exact unmet hm
      · exact apart (List.mem_cons_of_mem _ hm)
  once := by
    refine List.nodup_cons.2 ⟨fun hm => ?_, once⟩
    obtain ⟨result', he⟩ := Event.mem_lowered?.1 hm
    exact (fresh he).1 List.mem_cons_self
  failed := by
    intro other failure he
    rcases List.mem_cons.1 he with he | he
    · obtain ⟨-, rfl⟩ := Event.lowered.inj he
      rfl
    · exact failed he

namespace Walk

variable {s : Setting} {depth : Nat} {node : NodeId} {output : String} {σ : WalkState}

/-- The ways in which an output is lowered, one step of the walk: what that comes to, and its events. -/
inductive Lowering (s : Setting) (depth : Nat) (node : NodeId) (output : String) (σ : WalkState) :
    Except Failure Value × WalkState → List Event → Prop
  /-- An output that is known is not lowered again, and nothing changes. -/
  | known {value : Value} (h : σ.cache.get? ⟨node, output, σ.scope, s.graph.material⟩ = some value) :
      Lowering s depth node output σ (.ok value, σ) []
  /-- An output that is being lowered is a cycle. -/
  | waiting (unknown : σ.cache.get? ⟨node, output, σ.scope, s.graph.material⟩ = none)
      (active : ⟨node, output, σ.scope, s.graph.material⟩ ∈ σ.active) :
      Lowering s depth node output σ (.error (.cyclicGraph (s.graph.label node) output), σ) []
  /-- Any other output is lowered, and is known afterwards if it came to a value. -/
  | new {key : Key} {result : Except Failure Value} {σ' : WalkState}
      (own : ⟨node, output, σ.scope, s.graph.material⟩ = key) (unknown : σ.cache.get? key = none)
      (unmet : key ∉ σ.active)
      (ran : on (expand s (lower s depth) node output) { σ with active := key :: σ.active } =
        (result, σ')) :
      Lowering s depth node output σ (result, σ'.finished key result)
        (.lowered key result ::
          (moments s (lower s depth) node output { σ with active := key :: σ.active }).flatMap
            (Moment.events (events s depth)))

/-- What lowering an output is. -/
theorem lowering (s : Setting) (depth : Nat) (node : NodeId) (output : String) (σ : WalkState) :
    Lowering s depth node output σ (on (lower s (depth + 1) node output) σ)
      (events s (depth + 1) node output σ) := by
  have run : on (lower s (depth + 1) node output) σ = _ := on_step s node output σ
  generalize hkey : (⟨node, output, σ.scope, s.graph.material⟩ : Key) = key at run
  rw [run]
  simp only [events_succ, hkey]
  cases known : σ.cache.get? key with
  | some value => exact .known (hkey ▸ known)
  | none =>
    by_cases active : key ∈ σ.active
    · simpa [active] using Lowering.waiting (hkey ▸ known) (hkey ▸ active)
    · simp only [Option.isSome_none, Bool.false_eq_true, active, or_self, if_false]
      rcases ran : on (expand s (lower s depth) node output) { σ with active := key :: σ.active }
        with ⟨failure | value, σ'⟩ <;> exact .new hkey known active ran

/-- The events of an output tell what happens while it is lowered. -/
theorem lower_told (accepted : ∀ kind rules, s.table.get? kind = some rules → rules.Accepted)
    (depth : Nat) : Tells (lower s depth) (events s depth) := by
  induction depth with
  | zero => exact fun node output σ => .refl σ _
  | succ depth ih =>
    intro node output σ
    have evolves := lower_evolves s (depth + 1) node output σ
    have lowering := lowering s depth node output σ
    generalize on (lower s (depth + 1) node output) σ = run, events s (depth + 1) node output σ = told
      at evolves lowering ⊢
    cases lowering with
    | known | waiting => exact .refl σ _
    | @new key result σ' own unknown unmet ran =>
      have step := expansion accepted node output { σ with active := key :: σ.active }
      have active : (⟨node, output, σ.scope, s.graph.material⟩ : Key) ∈ key :: σ.active :=
        own ▸ List.mem_cons_self
      have account := step.events_account accepted ih active
      rw [ran] at account
      refine .finished evolves unknown unmet account.1 account.2 (step.events_fresh ih)
        (fun he => own ▸ step.events_kept accepted ih active he) (step.events_once ih) fun he => ?_
      have failed := step.events_failed ih he
      rwa [ran] at failed

/-- What holds of every cache that sub-nodes and outputs are put into holds after a walk. -/
theorem lower_preserves (accepted : ∀ kind rules, s.table.get? kind = some rules → rules.Accepted)
    {I : Cache → Prop} (put : ∀ cache key value, I cache → I (cache.put key value))
    (keep : ∀ cache key name value, I cache → I (cache.putSubNode key name value)) (h : I σ.cache) :
    I (on (lower s depth node output) σ).2.cache := by
  induction depth generalizing node output σ with
  | zero => exact h
  | succ depth ih =>
    have lowering := lowering s depth node output σ
    generalize on (lower s (depth + 1) node output) σ = run, events s (depth + 1) node output σ = told
      at lowering ⊢
    cases lowering with
    | known | waiting => exact h
    | @new key result σ' own unknown unmet ran =>
      have step :
          I (on (expand s (lower s depth) node output) { σ with active := key :: σ.active }).2.cache :=
        (expansion accepted node output _).preserves keep (fun _ _ _ => ih) h
      rw [ran] at step
      cases result with
      | error => exact step
      | ok value => exact put _ key value step

/-- A value is in the cache in the end. -/
theorem mem_cache_of_lower {value : Value} (h : (on (lower s depth node output) σ).1 = .ok value) :
    (⟨node, output, σ.scope, s.graph.material⟩, value) ∈
      (on (lower s depth node output) σ).2.cache.outputs.entries := by
  cases depth with
  | zero => cases h
  | succ depth =>
    have lowering := lowering s depth node output σ
    generalize on (lower s (depth + 1) node output) σ = run, events s (depth + 1) node output σ = told
      at h lowering ⊢
    cases lowering with
    | known known =>
      cases h
      exact Memo.mem_entries_of_get? known
    | waiting => cases h
    | new own =>
      obtain rfl := h
      rw [own]
      exact List.mem_cons_self

/-- A failure is that of an output that is already being lowered, or it was lowered, if the walk is not
    stopped. -/
theorem mem_events_of_lower {failure : Failure}
    (h : (on (lower s depth node output) σ).1 = .error failure) (going : ¬ failure.IsTooDeep) :
    ⟨node, output, σ.scope, s.graph.material⟩ ∈ σ.active ∨
      .lowered ⟨node, output, σ.scope, s.graph.material⟩ (.error failure) ∈
        events s depth node output σ := by
  cases depth with
  | zero =>
    cases h
    exact (going trivial).elim
  | succ depth =>
    have lowering := lowering s depth node output σ
    generalize on (lower s (depth + 1) node output) σ = run, events s (depth + 1) node output σ = told
      at h lowering ⊢
    cases lowering with
    | known => cases h
    | waiting unknown active => exact .inl active
    | new own =>
      obtain rfl := h
      rw [own]
      exact .inr List.mem_cons_self

end Walk

end MaterialLowering
