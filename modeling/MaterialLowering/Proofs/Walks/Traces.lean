import MaterialLowering.Proofs.Recordings.RecordedOperations

/-!
# Walks that tell what happens

A *traced* walk is a walk that also tells what happens on the way: which outputs are asked for, what is
done to the recording, which sub-nodes are kept, and what every output comes to that is lowered. It is
the walk itself, step by step, with what is told written into it: without that it is the walk. All that
is said of the course of a walk is read off what it tells.

Main definitions:
* `Traced`: a walk and what it tells.
* `Moment`: what happens while one output is lowered.
* `Event`: what happens in a whole walk.
* `Traced.lower`: the walk, with its events.

Results:
* `Traced.expand_walk`, `Traced.lower_walk`: a traced walk is the walk.
-/

namespace MaterialLowering

open Walk (on)

/-- A walk, and what it tells from a state on, the latest first. -/
structure Traced (ε α : Type) where
  walk : Walk α
  told : WalkState → List ε

namespace Traced

variable {ε α β : Type}

/-- A walk that tells nothing. -/
def silent (walk : Walk α) : Traced ε α := ⟨walk, fun _ => []⟩

/-- The second computation tells after the first one. -/
def bind (p : Traced ε α) (f : α → Traced ε β) : Traced ε β where
  walk := p.walk >>= fun a => (f a).walk
  told σ :=
    match on p.walk σ with
    | (.ok a, σ') => (f a).told σ' ++ p.told σ
    | (.error _, _) => p.told σ

instance : Monad (Traced ε) where
  pure a := silent (pure a)
  bind := bind

instance : MonadLift Walk (Traced ε) := ⟨silent⟩

/-- Tells something of the state. -/
def tell (what : WalkState → ε) : Traced ε Unit := ⟨pure (), fun σ => [what σ]⟩

/-- What a computation comes to, whether it fails or not. -/
def attempt (p : Traced ε α) : Traced ε (Except Failure α) := ⟨Walk.attempt p.walk, p.told⟩

end Traced

/-! ## Moments and events -/

/-- What happens while an output is lowered. -/
inductive Moment where
  /-- An output is asked for. -/
  | asks (node : NodeId) (output : String) (state : WalkState)
  /-- Something is done to the recording. -/
  | does (operation : Recording.Operation) (state : WalkState)
  /-- A sub-node is kept. -/
  | keeps (key : Key) (name : String) (value : Value) (state : WalkState)

/-- What happens in a walk. -/
inductive Event where
  /-- An output is asked for. -/
  | asked (node : NodeId) (output : String) (state : WalkState)
  /-- A step is done to the recording for the output that is being lowered, if there is one. -/
  | did (output : Option Key) (step : Recording.Step)
  /-- A sub-node was kept. -/
  | kept (key : Key) (name : String) (value : Value)
  /-- An output that was not known was lowered, and came to this in the end. -/
  | lowered (key : Key) (result : Except Failure Value)

/-- A moment as an event of the walk. What is done is done for the output that was begun last. -/
@[simp] def Moment.event : Moment → Event
  | .asks node output σ => .asked node output σ
  | .does operation σ => .did σ.active.head? ⟨operation, σ.recording⟩
  | .keeps key name value _ => .kept key name value

/-- What is told at a moment, given what is told of outputs that are asked for. -/
@[simp] def Moment.told {ε : Type} (say : Moment → ε) (told : NodeId → String → WalkState → List ε)
    (moment : Moment) : List ε :=
  match moment with
  | .asks node output σ => told node output σ ++ [say moment]
  | .does .. | .keeps .. => [say moment]

/-! ## Steps -/

namespace Traced

variable {ε α : Type} (g : HostGraph) (say : Moment → ε) (visit : NodeId → String → Traced ε Value)

/-- Carries a plan out, and tells of its moments. -/
def carryOut : Plan α → Traced ε α
  | .done result => return result
  | .fail failure => (throw failure : Walk α)
  | .visit node output next => do
    tell fun σ => say (.asks node output σ)
    let value ← visit node output
    carryOut (next value)
  | .create kind params next => do
    tell fun σ => say (.does (.create kind params) σ)
    let (handle, recording) := (← (get : Walk WalkState)).recording.create kind params
    (modify fun state => { state with recording } : Walk Unit)
    carryOut (next handle)
  | .image descriptor next => do
    tell fun σ => say (.does (.materialize descriptor) σ)
    let (image, recording) := (← (get : Walk WalkState)).recording.materialize descriptor
    (modify fun state => { state with recording } : Walk Unit)
    carryOut (next image.toOption)
  | .report notice next => do
    Walk.say notice
    carryOut next
  | .known node output subNode next => do
    let key ← Walk.key g node output
    let value := (← (get : Walk WalkState)).cache.subNode? key subNode
    carryOut (next value)
  | .remember node output subNode value next => do
    let key ← Walk.key g node output
    tell fun σ => say (.keeps key subNode value σ)
    (modify fun state => { state with cache := state.cache.putSubNode key subNode value } : Walk Unit)
    carryOut next

/-- Calls a group. -/
def call (callSite : NodeId) (output : String) : Traced ε Value := do
  let frame ← Walk.enter g callSite output
  match g.groupOutput frame.tree with
  | none =>
    (throw (.unresolvableGroupBoundary (g.label callSite) "group has no output node") : Walk Value)
  | some groupOutput =>
    (modify fun state => { state with stack := frame :: state.stack } : Walk Unit)
    tell fun σ => say (.asks groupOutput output σ)
    let result ← attempt (visit groupOutput output)
    Walk.leave g
    Walk.settle result

/-- Reads a formal input. -/
def formal (groupInput : NodeId) (formal : String) : Traced ε Value := do
  match Walk.innermostCall? groupInput.tree (← (get : Walk WalkState)).stack with
  | none =>
    (throw (.unresolvableGroupBoundary (g.label groupInput)
      "group input reached outside of a group call") : Walk Value)
  | some (inside, frame, around) =>
    match frame.arguments.get? formal with
    | some value => return value
    | none =>
      (modify fun state => { state with stack := around } : Walk Unit)
      let result ← attempt (carryOut g say visit (Walk.argument g frame.callSite formal))
      (modify fun state => { state with stack := inside ++ frame :: state.stack } : Walk Unit)
      let found ← Walk.settle result
      let value := found.or (.ofLanes? (g.outputDefault groupInput formal))
      let frame := { frame with arguments := frame.arguments.put formal value }
      (modify fun state =>
        { state with stack := inside ++ frame :: state.stack.drop (inside.length + 1) } : Walk Unit)
      return value

/-- An output that has not been lowered yet. -/
def expand (s : Setting) (node : NodeId) (output : String) : Traced ε Value := do
  let g := s.graph
  match bypass? g node with
  | some plan => carryOut g say visit plan
  | none =>
    Walk.say (.visiting (g.kind node) (g.label node) output)
    match s.table.task g node output with
    | .plan plan => carryOut g say visit plan
    | .call => call g say visit node output
    | .formal => formal g say visit node output

/-- One step of the walk, and its events. -/
def step (s : Setting) (visit : NodeId → String → Traced Event Value) (node : NodeId)
    (output : String) : Traced Event Value := do
  let g := s.graph
  let key ← Walk.key g node output
  match (← (get : Walk WalkState)).cache.get? key with
  | some value => return value
  | none =>
    if key ∈ (← (get : Walk WalkState)).active then
      (throw (.cyclicGraph (g.label node) output) : Walk Unit)
    (modify fun state => { state with active := key :: state.active } : Walk Unit)
    let result ← attempt (expand Moment.event visit s node output)
    tell fun _ => .lowered key result
    (modify fun state => { state with active := state.active.erase key } : Walk Unit)
    let value ← Walk.settle result
    (modify fun state => { state with cache := state.cache.put key value } : Walk Unit)
    return value

/-- The walk, and its events. -/
def lower (s : Setting) : Nat → NodeId → String → Traced Event Value
  | 0, node, output => (throw (.tooDeep (s.graph.label node) output) : Walk Value)
  | depth + 1, node, output => step s (lower s depth) node output

/-! ## A traced walk is the walk -/

section

variable {β : Type}

@[simp] theorem walk_pure (a : α) : (pure a : Traced ε α).walk = pure a := rfl

@[simp] theorem walk_bind (p : Traced ε α) (f : α → Traced ε β) :
    (p >>= f).walk = p.walk >>= fun a => (f a).walk := rfl

@[simp] theorem walk_silent (walk : Walk α) : (silent walk : Traced ε α).walk = walk := rfl

@[simp] theorem walk_lift (walk : Walk α) : (liftM walk : Traced ε α).walk = walk := rfl

@[simp] theorem walk_get : (get : Traced ε WalkState).walk = get := rfl

@[simp] theorem walk_modify (f : WalkState → WalkState) :
    (modify f : Traced ε PUnit).walk = modify f := rfl

@[simp] theorem walk_tell (what : WalkState → ε) : (tell what).walk = pure () := rfl

@[simp] theorem walk_attempt (p : Traced ε α) : (attempt p).walk = Walk.attempt p.walk := rfl

@[simp] theorem told_pure (a : α) (σ : WalkState) : (pure a : Traced ε α).told σ = [] := rfl

@[simp] theorem told_bind (p : Traced ε α) (f : α → Traced ε β) (σ : WalkState) :
    (p >>= f).told σ =
      match on p.walk σ with
      | (.ok a, σ') => (f a).told σ' ++ p.told σ
      | (.error _, _) => p.told σ := rfl

@[simp] theorem told_silent (walk : Walk α) (σ : WalkState) :
    (silent walk : Traced ε α).told σ = [] := rfl

@[simp] theorem told_lift (walk : Walk α) (σ : WalkState) :
    (liftM walk : Traced ε α).told σ = [] := rfl

@[simp] theorem told_get (σ : WalkState) : (get : Traced ε WalkState).told σ = [] := rfl

@[simp] theorem told_modify (f : WalkState → WalkState) (σ : WalkState) :
    (modify f : Traced ε PUnit).told σ = [] := rfl

@[simp] theorem told_tell (what : WalkState → ε) (σ : WalkState) : (tell what).told σ = [what σ] := rfl

@[simp] theorem told_attempt (p : Traced ε α) (σ : WalkState) : (attempt p).told σ = p.told σ := rfl

end

@[simp] theorem carryOut_walk (plan : Plan α) :
    (carryOut g say visit plan).walk =
      Walk.carryOut g (fun node output => (visit node output).walk) plan := by
  induction plan with
  | done | fail => rfl
  | visit node output next ih =>
    simp only [carryOut, Walk.carryOut, walk_bind, walk_tell, pure_bind, ih]
  | create kind params next ih | image descriptor next ih =>
    simp only [carryOut, Walk.carryOut, walk_bind, walk_tell, walk_lift, pure_bind, ih]
  | report notice next ih => simp only [carryOut, Walk.carryOut, walk_bind, walk_lift, ih]
  | known node output name next ih => simp only [carryOut, Walk.carryOut, walk_bind, walk_lift, ih]
  | remember node output name value next ih =>
    simp only [carryOut, Walk.carryOut, walk_bind, walk_tell, walk_lift, pure_bind, ih]

@[simp] theorem call_walk (callSite : NodeId) (output : String) :
    (call g say visit callSite output).walk =
      Walk.call g (fun node output => (visit node output).walk) callSite output := by
  unfold call Walk.call
  simp only [walk_bind, walk_lift]
  refine bind_congr fun frame => ?_
  cases g.groupOutput frame.tree with
  | none => rfl
  | some groupOutput => simp only [walk_bind, walk_lift, walk_tell, walk_attempt, pure_bind]

@[simp] theorem formal_walk (groupInput : NodeId) (name : String) :
    (formal g say visit groupInput name).walk =
      Walk.formal g (fun node output => (visit node output).walk) groupInput name := by
  unfold formal Walk.formal
  simp only [walk_bind, walk_lift]
  refine bind_congr fun σ => ?_
  rcases Walk.innermostCall? groupInput.tree σ.stack with _ | ⟨inside, frame, around⟩
  · rfl
  dsimp only
  cases frame.arguments.get? name with
  | some value => rfl
  | none => simp only [walk_bind, walk_lift, walk_attempt, carryOut_walk, walk_pure]

@[simp] theorem expand_walk (s : Setting) (node : NodeId) (output : String) :
    (expand say visit s node output).walk =
      Walk.expand s (fun node output => (visit node output).walk) node output := by
  unfold expand Walk.expand
  dsimp only
  cases bypass? s.graph node with
  | some plan => exact carryOut_walk _ _ _ plan
  | none =>
    simp only [walk_bind, walk_lift]
    refine bind_congr fun _ => ?_
    cases s.table.task s.graph node output with
    | plan plan => exact carryOut_walk _ _ _ plan
    | call => exact call_walk _ _ _ node output
    | formal => exact formal_walk _ _ _ node output

theorem step_walk (s : Setting) (visit : NodeId → String → Traced Event Value) (node : NodeId)
    (output : String) :
    (step s visit node output).walk =
      Walk.step s (fun node output => (visit node output).walk) node output := by
  unfold step Walk.step
  simp only [walk_bind, walk_lift]
  refine bind_congr fun key => bind_congr fun σ => ?_
  cases σ.cache.get? key with
  | some value => rfl
  | none =>
    simp only [walk_bind, walk_lift]
    refine bind_congr fun σ => ?_
    split
    · simp only [walk_bind, walk_lift, walk_attempt, walk_tell, walk_pure, expand_walk, pure_bind]
    · simp only [walk_bind, walk_lift, walk_attempt, walk_tell, walk_pure, expand_walk, pure_bind]

/-- Without its events a traced walk is the walk. -/
@[simp] theorem lower_walk (s : Setting) (depth : Nat) (node : NodeId) (output : String) :
    (lower s depth node output).walk = Walk.lower s depth node output := by
  induction depth generalizing node output with
  | zero => rfl
  | succ depth ih =>
    rw [lower, step_walk, Walk.lower]
    simp only [ih]

end Traced

end MaterialLowering
