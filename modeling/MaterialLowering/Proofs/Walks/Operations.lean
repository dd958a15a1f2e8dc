import MaterialLowering.Proofs.Walks.Histories

/-!
# What walks do to a recording

Lowering does to the recording what its events tell, step by step, and nothing else, whether it ends
with a value or a failure. The same goes for questions, for materials as a whole, and for sessions, in
which all of that is mixed with operations of other kinds.

Main definitions:
* `Event.steps`: what was done, in its order.
* `Traced.Complete`: a walk that tells all that it does to the recording.
* `Session`: operations, questions and materials one after another.

Results:
* `Traced.lower_complete`, `Walk.lower_follows`, `Question.follows`: a walk does what its events tell.
* `Setting.lower_replays`: a material does its operations and nothing else.
* `Session.finish_eq`: so does a session.
-/

namespace MaterialLowering

open Walk (on)

namespace Event

/-- What was done to the recording, in its order. -/
def steps (events : List Event) : List Recording.Step := (events.filterMap step?).reverse

@[simp] theorem steps_nil : steps [] = [] := rfl

@[simp] theorem steps_append (later earlier : List Event) :
    steps (later ++ earlier) = steps earlier ++ steps later := by
  simp [steps]

theorem mem_steps {events : List Event} {step : Recording.Step} :
    step ∈ steps events ↔ ∃ output, .did output step ∈ events := by
  rw [steps, List.mem_reverse]
  constructor
  · intro h
    obtain ⟨event, hm, he⟩ := List.mem_filterMap.1 h
    match event, he with
    | .did output _, he => cases he; exact ⟨output, hm⟩
  · rintro ⟨output, hm⟩
    exact List.mem_filterMap.2 ⟨_, hm, rfl⟩

/-- What was done to the recording for an output, in its order. -/
def stepsFor (key : Key) (events : List Event) : List Recording.Step :=
  (events.filterMap (stepFor? key)).reverse

@[simp] theorem stepsFor_nil (key : Key) : stepsFor key [] = [] := rfl

@[simp] theorem stepsFor_append (key : Key) (later earlier : List Event) :
    stepsFor key (later ++ earlier) = stepsFor key earlier ++ stepsFor key later := by
  simp [stepsFor]

theorem stepsFor_own (key : Key) (step : Recording.Step) :
    stepsFor key [.did (some key) step] = [step] := by
  simp [stepsFor]

/-- Steps that were all done for one output. -/
theorem stepsFor_did (key : Key) (output : Option Key) (steps : List Recording.Step) :
    stepsFor key (steps.map (.did output)).reverse = if output = some key then steps else [] := by
  unfold stepsFor
  rw [List.filterMap_reverse, List.reverse_reverse, List.filterMap_map]
  split
  · rename_i own
    rw [show stepFor? key ∘ Event.did output = some from funext fun _ => if_pos own, List.filterMap_some]
  · rename_i other
    rw [show stepFor? key ∘ Event.did output = fun _ => none from funext fun _ => if_neg other]
    simp

end Event

/-! ## Walks -/

/-- The walk tells all that it does to the recording. -/
def Traced.Complete {α : Type} (p : Traced Event α) : Prop :=
  ∀ σ : WalkState, σ.recording.Follow (Event.steps (p.told σ)) (on p.walk σ).2.recording

namespace Traced

section

variable {α β : Type} {p : Traced Event α} {f : α → Traced Event β}

theorem complete_silent {walk : Walk α} (h : ∀ σ, (on walk σ).2.recording = σ.recording) :
    (silent walk : Traced Event α).Complete := by
  intro σ
  rw [walk_silent, h]
  exact .nil _

theorem complete_tell {what : WalkState → Event} (h : ∀ σ, (what σ).step? = none) :
    (tell what).Complete := by
  intro σ
  have nothing : Event.steps [what σ] = [] := by rw [Event.steps, List.filterMap_cons, h]; rfl
  rw [told_tell, nothing]
  exact .nil _

theorem Complete.bind (h : p.Complete) (hf : ∀ a, (f a).Complete) : (p >>= f).Complete := by
  intro σ
  have first := h σ
  rw [told_bind, walk_bind, Walk.on_bind]
  rcases hp : on p.walk σ with ⟨failure | a, σ'⟩ <;> rw [hp] at first
  · exact first
  · rw [Event.steps_append]
    exact first.append (hf a σ')

theorem Complete.attempt (h : p.Complete) : (attempt p).Complete := h

end

variable {α : Type} {g : HostGraph} {visit : NodeId → String → Traced Event Value}
  (complete : ∀ node output, (visit node output).Complete)

include complete

theorem carryOut_complete (plan : Plan α) : (carryOut g Moment.event visit plan).Complete := by
  induction plan with
  | done | fail => exact complete_silent fun _ => rfl
  | visit node output next ih =>
    exact (complete_tell fun _ => rfl).bind fun _ => (complete node output).bind ih
  | create kind params next ih =>
    intro σ
    have created : σ.recording.Follow (⟨.create kind params, σ.recording⟩ :: _) _ :=
      .cons (ih (σ.recording.create kind params).1
        { σ with recording := (σ.recording.create kind params).2 })
    simpa [carryOut, Event.steps] using created
  | image descriptor next ih =>
    intro σ
    have asked : σ.recording.Follow (⟨.materialize descriptor, σ.recording⟩ :: _) _ :=
      .cons (ih (σ.recording.materialize descriptor).1.toOption
        { σ with recording := (σ.recording.materialize descriptor).2 })
    simpa [carryOut, Event.steps] using asked
  | report notice next ih => exact (complete_silent fun _ => rfl).bind fun _ => ih
  | known node output name next ih =>
    exact (complete_silent fun _ => rfl).bind fun _ => (complete_silent fun _ => rfl).bind fun _ => ih _
  | remember node output name value next ih =>
    exact (complete_silent fun _ => rfl).bind fun _ => (complete_tell fun _ => rfl).bind fun _ =>
      (complete_silent fun _ => rfl).bind fun _ => ih

theorem call_complete (callSite : NodeId) (output : String) :
    (call g Moment.event visit callSite output).Complete := by
  have entered : ∀ σ, (on (Walk.enter g callSite output) σ).2.recording = σ.recording := by
    intro σ
    unfold Walk.enter
    cases g.groupTree callSite with
    | none => rfl
    | some tree =>
      by_cases within : (σ.stack.any fun frame => frame.tree = tree) = true
      · simp only [Walk.on_bind, Walk.on_get, if_pos within, Walk.on_throw]
      · simp only [Walk.on_bind, Walk.on_get, if_neg within, Walk.on_say, Walk.on_pure,
          WalkState.noting_recording]
  refine (complete_silent entered).bind fun frame => ?_
  cases g.groupOutput frame.tree with
  | none => exact complete_silent fun _ => rfl
  | some groupOutput =>
    refine (complete_silent fun _ => rfl).bind fun _ => (complete_tell fun _ => rfl).bind fun _ => ?_
    refine (complete groupOutput output).attempt.bind fun result => ?_
    refine (complete_silent fun σ => by simp).bind fun _ => complete_silent fun _ => rfl

theorem formal_complete (groupInput : NodeId) (name : String) :
    (formal g Moment.event visit groupInput name).Complete := by
  refine (complete_silent fun _ => rfl).bind fun σ => ?_
  rcases Walk.innermostCall? groupInput.tree σ.stack with _ | ⟨inside, frame, around⟩
  · exact complete_silent fun _ => rfl
  dsimp only
  cases frame.arguments.get? name with
  | some value => exact complete_silent fun _ => rfl
  | none =>
    refine (complete_silent fun _ => rfl).bind fun _ => ?_
    refine (carryOut_complete complete _).attempt.bind fun result => ?_
    refine (complete_silent fun _ => rfl).bind fun _ => (complete_silent fun _ => rfl).bind fun _ => ?_
    exact (complete_silent fun _ => rfl).bind fun _ => complete_silent fun _ => rfl

theorem expand_complete (s : Setting) (node : NodeId) (output : String) :
    (expand Moment.event visit s node output).Complete := by
  unfold expand
  dsimp only
  cases bypass? s.graph node with
  | some plan => exact carryOut_complete complete plan
  | none =>
    refine (complete_silent fun _ => rfl).bind fun _ => ?_
    cases s.table.task s.graph node output with
    | plan plan => exact carryOut_complete complete plan
    | call => exact call_complete complete node output
    | formal => exact formal_complete complete node output

theorem step_complete (s : Setting) (node : NodeId) (output : String) :
    (step s visit node output).Complete := by
  refine (complete_silent fun _ => rfl).bind fun key => (complete_silent fun _ => rfl).bind fun σ => ?_
  cases σ.cache.get? key with
  | some value => exact complete_silent fun _ => rfl
  | none =>
    refine (complete_silent fun _ => rfl).bind fun σ => ?_
    split
    -- Where the output is waiting for itself, the failure comes first.
    on_goal 1 => refine (complete_silent fun _ => rfl).bind fun _ => ?_
    all_goals
      refine (complete_silent fun _ => rfl).bind fun _ => ?_
      refine (expand_complete complete s node output).attempt.bind fun result => ?_
      refine (complete_tell fun _ => rfl).bind fun _ => (complete_silent fun _ => rfl).bind fun _ => ?_
      refine (complete_silent fun _ => rfl).bind fun value => ?_
      exact (complete_silent fun _ => rfl).bind fun _ => complete_silent fun _ => rfl

omit complete in
/-- A walk tells all that it does to the recording. -/
theorem lower_complete (s : Setting) (depth : Nat) (node : NodeId) (output : String) :
    (lower s depth node output).Complete := by
  induction depth generalizing node output with
  | zero => exact complete_silent fun _ => rfl
  | succ depth ih => exact step_complete ih s node output

end Traced

/-- A walk does what its events tell, one step after another, and nothing else to the recording. -/
theorem Walk.lower_follows (s : Setting) (depth : Nat) (node : NodeId) (output : String)
    (σ : WalkState) :
    σ.recording.Follow (Event.steps (events s depth node output σ))
      (on (lower s depth node output) σ).2.recording := by
  have complete := Traced.lower_complete s depth node output σ
  rwa [Traced.lower_walk] at complete

/-! ## Questions and materials -/

/-- So does a question outside of all calls. -/
theorem Question.follows (s : Setting) (question : Question) {σ : WalkState} (stack : σ.stack = []) :
    σ.recording.Follow (Event.steps (question.events s σ)) (Walk.ask s question σ).recording := by
  have complete := Traced.carryOut_complete (g := s.graph) (Traced.lower_complete s s.depth)
    (question.plan s.graph) σ
  rw [question.ask_eq stack, ← question.traced_walk]
  exact complete

/-- The operations while a question is answered outside of all calls. -/
def Question.operations (s : Setting) (question : Question) (σ : WalkState) : List Recording.Operation :=
  (Event.steps (question.events s σ)).map Recording.Step.operation

theorem Question.replays (s : Setting) (question : Question) {σ : WalkState} (stack : σ.stack = []) :
    (Walk.ask s question σ).recording = σ.recording.performAll (question.operations s σ) :=
  (question.follows s stack).eq_performAll

/-- The operations of questions that are put to a walk one after another. -/
def Walk.operationsOf (s : Setting) : List Question → WalkState → List Recording.Operation
  | [], _ => []
  | question :: rest, σ => question.operations s σ ++ operationsOf s rest (ask s question σ)

theorem Walk.askAll_replays (s : Setting) (questions : List Question) {σ : WalkState}
    (stack : σ.stack = []) :
    (questions.foldl (fun σ question => ask s question σ) σ).recording =
      σ.recording.performAll (operationsOf s questions σ) := by
  induction questions generalizing σ with
  | nil => rfl
  | cons question rest ih =>
    have later := ih ((ask_evolves s question σ).stack_eq_nil stack)
    rw [List.foldl_cons, later, operationsOf, Recording.performAll_append,
      Question.replays s question stack]

/-- The operations of a material: those of its surface, the plain shader if that failed, and the
    registration of its root. -/
def Setting.operations (s : Setting) (showErrors : Bool) (r : Recording) : List Recording.Operation :=
  let fallback : List Recording.Operation :=
    match (on (Walk.root s) (.start r)).1 with
    | .ok _ => []
    | .error _ =>
      if showErrors then [.create .emissive [("color", .constant errorColor)]]
      else [.create .diffuse [("color", .constant fallbackColor)]]
  Question.root.operations s (.start r) ++ fallback ++
    [.register s.graph.material (s.lower showErrors r).root]

theorem Setting.lower_replays (s : Setting) (showErrors : Bool) (r : Recording) :
    (s.lower showErrors r).recording = r.performAll (s.operations showErrors r) := by
  have walked : (on (Walk.root s) (.start r)).2.recording =
      r.performAll (Question.root.operations s (.start r)) :=
    Question.replays s .root rfl
  rw [operations, Recording.performAll_append, Recording.performAll_append, ← walked]
  unfold lower Walk.on
  dsimp only
  generalize (Walk.root s).run (.start r) = run
  obtain ⟨failure | root, σ⟩ := run
  · cases showErrors with
    | true => rfl
    | false => rfl
  · rfl

/-! ## Sessions -/

/-- One move of a session: an operation, the questions that are put to a new walk one after another,
    or a material. -/
inductive Move where
  | perform (operation : Recording.Operation)
  | ask (s : Setting) (questions : List Question)
  | lower (s : Setting) (showErrors : Bool)

namespace Move

/-- The operations of a move. -/
def operations (r : Recording) : Move → List Recording.Operation
  | .perform operation => [operation]
  | .ask s questions => Walk.operationsOf s questions (.start r)
  | .lower s showErrors => s.operations showErrors r

/-- The recording after a move. -/
def apply (r : Recording) : Move → Recording
  | .perform operation => r.perform operation
  | .ask s questions =>
    (questions.foldl (fun σ question => Walk.ask s question σ) (.start r)).recording
  | .lower s showErrors => (s.lower showErrors r).recording

theorem apply_eq (r : Recording) (move : Move) : move.apply r = r.performAll (move.operations r) := by
  cases move with
  | perform operation => rfl
  | ask s questions => exact Walk.askAll_replays s questions rfl
  | lower s showErrors => exact s.lower_replays showErrors r

/-- The operations of moves, one after another. -/
def operationsOf : List Move → Recording → List Recording.Operation
  | [], _ => []
  | move :: rest, r => move.operations r ++ operationsOf rest (move.apply r)

theorem applyAll_eq (moves : List Move) (r : Recording) :
    moves.foldl Move.apply r = r.performAll (operationsOf moves r) := by
  induction moves generalizing r with
  | nil => rfl
  | cons move rest ih =>
    rw [List.foldl_cons, ih, operationsOf, Recording.performAll_append, ← apply_eq]

end Move

/-- Moves, one after another, from an empty recording in which some images cannot be loaded. -/
structure Session where
  failing : List String
  moves : List Move

namespace Session

variable (session : Session)

/-- The recording at the beginning. -/
def start : Recording := session.failing.foldl Recording.withFailingImage .empty

/-- The recording in the end. -/
def finish : Recording := session.moves.foldl Move.apply session.start

/-- All operations, also those inside of walks. -/
def operations : List Recording.Operation := Move.operationsOf session.moves session.start

/-- The recording after so many operations. -/
def after (count : Nat) : Recording := session.start.performAll (session.operations.take count)

theorem finish_eq : session.finish = session.after session.operations.length := by
  rw [after, List.take_length]
  exact Move.applyAll_eq _ _

theorem after_succ {count : Nat} {operation : Recording.Operation}
    (h : session.operations[count]? = some operation) :
    session.after (count + 1) = (session.after count).perform operation := by
  rw [after, after, List.take_add_one, h, Recording.performAll_append]
  rfl

end Session

end MaterialLowering
