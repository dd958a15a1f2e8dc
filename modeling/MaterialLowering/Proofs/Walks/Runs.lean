import MaterialLowering.Lowering.Walk

/-!
# How a walk runs

A walk as a function from a state to what it comes to and the state that it leaves. Every
computation of the walk has its equation here; later modules rewrite by these and do not unfold the
computations again.

Results:
* `Walk.on_bind`: one computation after another.
* `Walk.on_call`, `Walk.on_formal`, `Walk.on_expand`, `Walk.on_step`: the computations of the walk.
-/

namespace MaterialLowering

namespace WalkState

/-- The calls around the output that is being lowered, the innermost first. -/
abbrev scope (σ : WalkState) : List NodeId := σ.stack.map Frame.callSite

/-- The state after a notice. -/
def noting (σ : WalkState) (notice : Notice) : WalkState := { σ with log := σ.log.push notice }

/-- The state without its innermost frame. -/
def leaving (g : HostGraph) (σ : WalkState) : WalkState :=
  match σ.stack with
  | [] => σ
  | frame :: rest =>
    { σ with stack := rest }.noting (.leavingGroup (g.label frame.callSite) frame.arguments.size)

@[simp] theorem noting_recording (σ : WalkState) (notice : Notice) :
    (σ.noting notice).recording = σ.recording := rfl

@[simp] theorem noting_cache (σ : WalkState) (notice : Notice) :
    (σ.noting notice).cache = σ.cache := rfl

@[simp] theorem noting_stack (σ : WalkState) (notice : Notice) :
    (σ.noting notice).stack = σ.stack := rfl

@[simp] theorem noting_active (σ : WalkState) (notice : Notice) :
    (σ.noting notice).active = σ.active := rfl

@[simp] theorem leaving_recording (g : HostGraph) (σ : WalkState) :
    (σ.leaving g).recording = σ.recording := by
  unfold leaving; split <;> rfl

@[simp] theorem leaving_cache (g : HostGraph) (σ : WalkState) : (σ.leaving g).cache = σ.cache := by
  unfold leaving; split <;> rfl

@[simp] theorem leaving_stack (g : HostGraph) (σ : WalkState) :
    (σ.leaving g).stack = σ.stack.tail := by
  unfold leaving
  split
  · rename_i h; simp [h]
  · rename_i h; simp [h]

@[simp] theorem leaving_active (g : HostGraph) (σ : WalkState) :
    (σ.leaving g).active = σ.active := by
  unfold leaving; split <;> rfl

end WalkState

namespace Walk

variable {α β : Type}

/-- What a computation comes to from a state, and the state that it leaves. -/
def on (walk : Walk α) (σ : WalkState) : Except Failure α × WalkState := walk.run σ

@[simp] theorem on_pure (a : α) (σ : WalkState) : on (pure a) σ = (.ok a, σ) := rfl

@[simp] theorem on_throw (failure : Failure) (σ : WalkState) :
    on (throw failure : Walk α) σ = (.error failure, σ) := rfl

@[simp] theorem on_bind (walk : Walk α) (next : α → Walk β) (σ : WalkState) :
    on (walk >>= next) σ =
      match on walk σ with
      | (.ok a, σ') => on (next a) σ'
      | (.error failure, σ') => (.error failure, σ') := by
  show (ExceptT.bindCont next (on walk σ).1) (on walk σ).2 = _
  rcases on walk σ with ⟨_ | _, _⟩ <;> rfl

@[simp] theorem on_get (σ : WalkState) : on get σ = (.ok σ, σ) := rfl

@[simp] theorem on_modify (f : WalkState → WalkState) (σ : WalkState) :
    on (modify f) σ = (.ok (), f σ) := rfl

@[simp] theorem on_attempt (walk : Walk α) (σ : WalkState) :
    on (attempt walk) σ = (.ok (on walk σ).1, (on walk σ).2) := rfl

@[simp] theorem on_settle (result : Except Failure α) (σ : WalkState) :
    on (settle result) σ = (result, σ) := rfl

@[simp] theorem on_say (notice : Notice) (σ : WalkState) :
    on (say notice) σ = (.ok (), σ.noting notice) := rfl

@[simp] theorem on_key (g : HostGraph) (node : NodeId) (output : String) (σ : WalkState) :
    on (key g node output) σ = (.ok ⟨node, output, σ.scope, g.material⟩, σ) := rfl

@[simp] theorem on_leave (g : HostGraph) (σ : WalkState) :
    on (leave g) σ = (.ok (), σ.leaving g) := by
  obtain ⟨recording, cache, stack, active, log⟩ := σ
  cases stack <;> rfl

/-! ## Groups -/

variable {g : HostGraph} {visit : NodeId → String → Walk Value}

theorem on_call (callSite : NodeId) (output : String) (σ : WalkState) :
    on (call g visit callSite output) σ =
      match g.groupTree callSite with
      | none =>
        (.error (.unresolvableGroupBoundary (g.label callSite)
          "group node references no node tree"), σ)
      | some tree =>
        if σ.stack.any fun frame => frame.tree = tree then
          (.error (.cyclicGraph (g.label callSite) output), σ)
        else
          let σ := σ.noting (.enteringGroup (g.label callSite) (σ.stack.length + 1))
          match g.groupOutput tree with
          | none =>
            (.error (.unresolvableGroupBoundary (g.label callSite) "group has no output node"), σ)
          | some groupOutput =>
            let after := on (visit groupOutput output)
              { σ with stack := ⟨callSite, tree, .empty⟩ :: σ.stack }
            (after.1, after.2.leaving g) := by
  unfold call enter
  cases g.groupTree callSite with
  | none => rfl
  | some tree =>
    simp only [on_bind, on_get]
    by_cases h : (σ.stack.any fun frame => frame.tree = tree) = true
    · simp only [if_pos h, on_bind, on_throw]
    · simp only [if_neg h, on_bind, on_say, on_pure]
      cases g.groupOutput tree with
      | none => rfl
      | some groupOutput =>
        simp only [on_bind, on_modify, on_attempt, on_leave, on_settle, WalkState.noting_stack]

theorem on_formal (groupInput : NodeId) (name : String) (σ : WalkState) :
    on (formal g visit groupInput name) σ =
      match innermostCall? groupInput.tree σ.stack with
      | none =>
        (.error (.unresolvableGroupBoundary (g.label groupInput)
          "group input reached outside of a group call"), σ)
      | some (inside, frame, around) =>
        match frame.arguments.get? name with
        | some value => (.ok value, σ)
        | none =>
          match on (carryOut g visit (argument g frame.callSite name)) { σ with stack := around } with
          | (.error failure, σ') =>
            (.error failure, { σ' with stack := inside ++ frame :: σ'.stack })
          | (.ok found, σ') =>
            let value := found.or (.ofLanes? (g.outputDefault groupInput name))
            let frame := { frame with arguments := frame.arguments.put name value }
            (.ok value, { σ' with stack := inside ++ frame :: σ'.stack }) := by
  unfold formal
  simp only [on_bind, on_get]
  rcases innermostCall? groupInput.tree σ.stack with _ | ⟨inside, frame, around⟩
  · rfl
  dsimp only
  cases frame.arguments.get? name with
  | some value => rfl
  | none =>
    simp only [on_bind, on_modify, on_attempt, on_settle]
    rcases on (carryOut g visit (argument g frame.callSite name)) { σ with stack := around }
      with ⟨_ | found, σ'⟩
    · rfl
    · simp [← List.drop_drop]

/-! ## Outputs -/

theorem on_expand (s : Setting) (node : NodeId) (output : String) (σ : WalkState) :
    on (expand s visit node output) σ =
      match bypass? s.graph node with
      | some plan => on (carryOut s.graph visit plan) σ
      | none =>
        let σ := σ.noting (.visiting (s.graph.kind node) (s.graph.label node) output)
        match s.table.task s.graph node output with
        | .plan plan => on (carryOut s.graph visit plan) σ
        | .call => on (call s.graph visit node output) σ
        | .formal => on (formal s.graph visit node output) σ := by
  unfold expand
  dsimp only
  cases bypass? s.graph node with
  | some plan => rfl
  | none =>
    simp only [on_bind, on_say]
    cases s.table.task s.graph node output <;> rfl

theorem on_step (s : Setting) (node : NodeId) (output : String) (σ : WalkState) :
    on (step s visit node output) σ =
      let key : Key := ⟨node, output, σ.scope, s.graph.material⟩
      match σ.cache.get? key with
      | some value => (.ok value, σ)
      | none =>
        if key ∈ σ.active then (.error (.cyclicGraph (s.graph.label node) output), σ)
        else
          match on (expand s visit node output) { σ with active := key :: σ.active } with
          | (.error failure, σ') => (.error failure, { σ' with active := σ'.active.erase key })
          | (.ok value, σ') =>
            (.ok value,
              { σ' with active := σ'.active.erase key, cache := σ'.cache.put key value }) := by
  unfold step
  simp only [on_bind, on_get, on_key]
  cases σ.cache.get? ⟨node, output, σ.scope, s.graph.material⟩ with
  | some value => rfl
  | none =>
    simp only [on_bind, on_get]
    split
    · rfl
    · simp only [on_bind, on_modify, on_attempt, on_settle]
      rcases on (expand s visit node output) _ with ⟨_ | value, σ'⟩ <;> rfl

end Walk

end MaterialLowering
