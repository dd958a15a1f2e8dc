import Mathlib.Logic.Relator
import MaterialLowering.Lowering.Material
import MaterialLowering.Proofs.Plans.TwinPlans
import MaterialLowering.Proofs.Walks.Control

/-!
# Walks of two graphs

Where the outputs of two graphs that stand for each other have twin plans, call groups that stand for
each other and read arguments alike, walks of the graphs go on side by side: they keep the same
recording, know the same outputs, and come to the same value or to failures over the same thing.

Main definitions:
* `Twinning`: which keys, trees and labels of two graphs stand for each other.
* `Setting.Twins`: what walks of two settings have in common.

Results:
* `Walk.lower_twin`: an output.
* `Walk.root_twin`, `Setting.Twins.lower`: a material.
-/

namespace MaterialLowering

open Walk (on)

/-! ## What stands for what -/

/-- Keys, trees and labels of two graphs that stand for each other, and the images that cannot be
    loaded. -/
structure Twinning where
  key : Key → Key → Prop
  tree : TreeId → TreeId → Prop
  label : String → String → Prop
  failing : SortedMap String Unit

/-- What stands for what in two call contexts. -/
def Twinning.within (t : Twinning) (g g' : HostGraph) (scope scope' : List NodeId) : Pairing where
  output node output node' output' :=
    t.key ⟨node, output, scope, g.material⟩ ⟨node', output', scope', g'.material⟩
  label := t.label
  failing := t.failing

/-- The innermost call of a tree among calls, the innermost first, and those around it. -/
def HostGraph.callOf? (g : HostGraph) (tree : TreeId) : List NodeId → Option (NodeId × List NodeId)
  | [] => none
  | callSite :: around =>
    if g.groupTree callSite = some tree then some (callSite, around) else g.callOf? tree around

/-- What there is to do for an output, also of a node that is passed by. -/
def Setting.course (s : Setting) (node : NodeId) (output : String) : Task :=
  match bypass? s.graph node with
  | some plan => .plan plan
  | none => s.table.task s.graph node output

/-- Calls of groups that stand for each other, read from outputs that do. -/
def CallsAlike (t : Twinning) (g g' : HostGraph) (k k' : Key) : Prop :=
  Option.Rel (fun tree tree' => t.tree tree tree' ∧
      Option.Rel (fun node node' => t.key ⟨node, k.output, k.node :: k.scope, g.material⟩
        ⟨node', k'.output, k'.node :: k'.scope, g'.material⟩) (g.groupOutput tree) (g'.groupOutput tree'))
    (g.groupTree k.node) (g'.groupTree k'.node)

/-- Formal inputs of groups that stand for each other, with arguments that are read alike. -/
structure FormalsAlike (t : Twinning) (g g' : HostGraph) (k k' : Key) : Prop where
  tree : t.tree k.node.tree k'.node.tree
  default : g'.outputDefault k'.node k'.output = g.outputDefault k.node k.output
  /-- The calls that the arguments are read from are in the same place. -/
  argument : ∀ {callSite around callSite' around'},
    g.callOf? k.node.tree k.scope = some (callSite, around) → callSite' :: around' <:+ k'.scope →
    around'.length = around.length →
      Plan.Twin (t.within g g' around around') (Walk.argument g callSite k.output)
        (Walk.argument g' callSite' k'.output)

/-- What there is to do for outputs that stand for each other. -/
inductive CoursesAlike (t : Twinning) (g g' : HostGraph) (k k' : Key) : Task → Task → Prop
  | plan {plan plan' : Plan Value} (h : Plan.Twin (t.within g g' k.scope k'.scope) plan plan') :
      CoursesAlike t g g' k k' (.plan plan) (.plan plan')
  | call (h : CallsAlike t g g' k k') : CoursesAlike t g g' k k' .call .call
  | formal (h : FormalsAlike t g g' k k') : CoursesAlike t g g' k k' .formal .formal

/-- What walks of two settings have in common. -/
structure Setting.Twins (t : Twinning) (s s' : Setting) : Prop where
  keys : Relator.BiUnique t.key
  trees : Relator.BiUnique t.tree
  output : ∀ {k k'}, t.key k k' → k'.output = k.output
  label : ∀ {k k'}, t.key k k' → t.label (s.graph.label k.node) (s'.graph.label k'.node)
  course : ∀ {k k'}, t.key k k' →
    CoursesAlike t s.graph s'.graph k k' (s.course k.node k.output) (s'.course k'.node k'.output)

/-! ## States -/

/-- The same values under keys that stand for each other. -/
def Memo.Paired {κ κ' α : Type} (R : κ → κ' → Prop) (m : Memo κ α) (m' : Memo κ' α) : Prop :=
  List.Forall₂ (fun e e' => R e.1 e'.1 ∧ e'.2 = e.2) m.entries m'.entries

namespace Memo.Paired

variable {κ κ' α : Type} [DecidableEq κ] [DecidableEq κ'] {R : κ → κ' → Prop} {m : Memo κ α}
  {m' : Memo κ' α} {key : κ} {key' : κ'}

theorem get? (h : Memo.Paired R m m') (unique : Relator.BiUnique R) (hk : R key key') :
    m'.get? key' = m.get? key := by
  obtain ⟨entries⟩ := m
  obtain ⟨entries'⟩ := m'
  show find? key' entries' = find? key entries
  replace h : List.Forall₂ (fun e e' => R e.1 e'.1 ∧ e'.2 = e.2) entries entries' := h
  induction h with
  | nil => rfl
  | @cons e e' _ _ he _ ih =>
    have same : e.1 = key ↔ e'.1 = key' := Relator.rel_eq unique he.1 hk
    by_cases hm : e.1 = key
    · simp [find?, hm, same.1 hm, he.2]
    · simp [find?, hm, mt same.2 hm, ih]

theorem put (h : Memo.Paired R m m') (unique : Relator.BiUnique R) (hk : R key key') (value : α) :
    Memo.Paired R (m.put key value) (m'.put key' value) := by
  refine .cons ⟨hk, rfl⟩ (List.rel_filter (fun e e' he => ?_) h)
  simp [Relator.rel_eq unique he.1 hk]

end Memo.Paired

/-- Calls that stand for each other and remember the same arguments. -/
structure FramesAlike (t : Twinning) (g : HostGraph) (f f' : Frame) : Prop where
  called : g.groupTree f.callSite = some f.tree
  tree : t.tree f.tree f'.tree
  arguments : f'.arguments = f.arguments

/-- A sub-node of a key. -/
def Twinning.subNode (t : Twinning) (a b : Key × String) : Prop := t.key a.1 b.1 ∧ b.2 = a.2

theorem Twinning.subNode_unique {t : Twinning} (h : Relator.BiUnique t.key) :
    Relator.BiUnique t.subNode := by
  refine ⟨?_, ?_⟩
  · intro a b c ac bc
    exact Prod.ext (h.1 ac.1 bc.1) (ac.2.symm.trans bc.2)
  · intro a b c ab ac
    exact Prod.ext (h.2 ab.1 ac.1) (ab.2.trans ac.2.symm)

/-- The same recording, and the same known values under keys that stand for each other. -/
structure WalkState.Twin (t : Twinning) (g : HostGraph) (σ σ' : WalkState) : Prop where
  recording : σ'.recording = σ.recording
  failing : σ.recording.failing = t.failing
  outputs : σ.cache.outputs.Paired t.key σ'.cache.outputs
  subNodes : σ.cache.subNodes.Paired t.subNode σ'.cache.subNodes
  stack : List.Forall₂ (FramesAlike t g) σ.stack σ'.stack
  active : List.Forall₂ t.key σ.active σ'.active

namespace WalkState.Twin

variable {t : Twinning} {g g' : HostGraph} {σ σ' : WalkState}

theorem start {r : Recording} (h : r.failing = t.failing) : WalkState.Twin t g (.start r) (.start r) :=
  ⟨rfl, h, .nil, .nil, .nil, .nil⟩

/-- What is reported makes no difference. -/
theorem logged (h : σ.Twin t g σ') (log log' : Array Notice) :
    WalkState.Twin t g { σ with log } { σ' with log := log' } :=
  ⟨h.recording, h.failing, h.outputs, h.subNodes, h.stack, h.active⟩

theorem recorded (h : σ.Twin t g σ') {r : Recording} (hr : σ.recording.Extends r) :
    WalkState.Twin t g { σ with recording := r } { σ' with recording := r } :=
  ⟨rfl, hr.failing.trans h.failing, h.outputs, h.subNodes, h.stack, h.active⟩

theorem withStack (h : σ.Twin t g σ') {stack stack' : List Frame}
    (hs : List.Forall₂ (FramesAlike t g) stack stack') :
    WalkState.Twin t g { σ with stack } { σ' with stack := stack' } :=
  ⟨h.recording, h.failing, h.outputs, h.subNodes, hs, h.active⟩

/-- Outputs that stand for each other are being lowered. -/
theorem withActive (h : σ.Twin t g σ') {active active' : List Key}
    (ha : List.Forall₂ t.key active active') :
    WalkState.Twin t g { σ with active } { σ' with active := active' } :=
  ⟨h.recording, h.failing, h.outputs, h.subNodes, h.stack, ha⟩

/-- Outputs that stand for each other have come to the same value. -/
theorem put (h : σ.Twin t g σ') (unique : Relator.BiUnique t.key) {k k' : Key} (here : t.key k k')
    (value : Value) :
    WalkState.Twin t g { σ with cache := σ.cache.put k value }
      { σ' with cache := σ'.cache.put k' value } :=
  ⟨h.recording, h.failing, h.outputs.put unique here value, h.subNodes, h.stack, h.active⟩

theorem leaving (h : σ.Twin t g σ') : WalkState.Twin t g (σ.leaving g) (σ'.leaving g') := by
  refine ⟨by simpa using h.recording, by simpa using h.failing, by simpa using h.outputs,
    by simpa using h.subNodes, ?_, by simpa using h.active⟩
  have stack := h.stack
  rw [leaving_stack, leaving_stack]
  generalize σ.stack = stack₁, σ'.stack = stack₂ at stack
  cases stack with
  | nil => exact .nil
  | cons _ rest => exact rest

end WalkState.Twin

/-- The innermost calls of trees that stand for each other are in the same place. -/
theorem innermostCall?_twin {t : Twinning} {g : HostGraph} (trees : Relator.BiUnique t.tree)
    {stack stack' : List Frame} (h : List.Forall₂ (FramesAlike t g) stack stack') {tree tree' : TreeId}
    (ht : t.tree tree tree') :
    Option.Rel (fun found found' => List.Forall₂ (FramesAlike t g) found.1 found'.1 ∧
        FramesAlike t g found.2.1 found'.2.1 ∧ List.Forall₂ (FramesAlike t g) found.2.2 found'.2.2)
      (Walk.innermostCall? tree stack) (Walk.innermostCall? tree' stack') := by
  induction h with
  | nil => exact .none
  | @cons f f' rest rest' hf hs ih =>
    have same : f.tree = tree ↔ f'.tree = tree' := Relator.rel_eq trees hf.tree ht
    by_cases hm : f.tree = tree
    · simp only [Walk.innermostCall?, if_pos hm, if_pos (same.1 hm)]
      exact .some ⟨.nil, hf, hs⟩
    · simp only [Walk.innermostCall?, if_neg hm, if_neg (mt same.2 hm)]
      generalize Walk.innermostCall? tree rest = found, Walk.innermostCall? tree' rest' = found' at ih
      cases ih with
      | none => exact .none
      | some call => exact .some ⟨.cons hf call.1, call.2⟩

/-- Among the calls on a stack, the innermost one of a tree is found by the calls alone. -/
theorem callOf?_of_innermostCall? {t : Twinning} {g : HostGraph} {stack stack' : List Frame}
    (h : List.Forall₂ (FramesAlike t g) stack stack') {tree : TreeId} {inside around : List Frame}
    {frame : Frame} (found : Walk.innermostCall? tree stack = some (inside, frame, around)) :
    g.callOf? tree (stack.map Frame.callSite) = some (frame.callSite, around.map Frame.callSite) := by
  induction h generalizing inside with
  | nil => cases found
  | @cons f f' rest rest' hf _ ih =>
    rw [List.map_cons, HostGraph.callOf?, hf.called]
    by_cases hm : f.tree = tree
    · obtain ⟨-, rfl, rfl⟩ : [] = inside ∧ f = frame ∧ rest = around := by
        simpa [Walk.innermostCall?, hm] using found
      rw [if_pos (congrArg some hm)]
    · simp only [Walk.innermostCall?, if_neg hm, Option.map_eq_some_iff] at found
      obtain ⟨⟨inside', frame', around'⟩, found, heq⟩ := found
      obtain ⟨-, rfl, rfl⟩ : f :: inside' = inside ∧ frame' = frame ∧ around' = around := by
        simpa using heq
      rw [if_neg fun same => hm (Option.some.inj same)]
      exact ih found

theorem any_tree_twin {t : Twinning} {g : HostGraph} (trees : Relator.BiUnique t.tree)
    {stack stack' : List Frame} (h : List.Forall₂ (FramesAlike t g) stack stack') {tree tree' : TreeId}
    (ht : t.tree tree tree') :
    (stack'.any fun frame => frame.tree = tree') = stack.any fun frame => frame.tree = tree := by
  induction h with
  | nil => rfl
  | cons hf _ ih => simp [ih, Relator.rel_eq trees hf.tree ht]

/-! ## Runs -/

/-- Two runs end side by side: with one result, or with failures over the same thing. -/
inductive EndsTwin {α : Type} (t : Twinning) (g : HostGraph) :
    Except Failure α × WalkState → Except Failure α × WalkState → Prop
  | ok (a : α) {σ σ' : WalkState} (state : σ.Twin t g σ') : EndsTwin t g (.ok a, σ) (.ok a, σ')
  | error {failure failure' : Failure} {σ σ' : WalkState} (h : failure.Like t.label failure')
      (state : σ.Twin t g σ') : EndsTwin t g (.error failure, σ) (.error failure', σ')

theorem EndsTwin.leaving {α : Type} {t : Twinning} {g : HostGraph} (g' : HostGraph)
    {run run' : Except Failure α × WalkState} (h : EndsTwin t g run run') :
    EndsTwin t g (run.1, run.2.leaving g) (run'.1, run'.2.leaving g') := by
  cases h with
  | ok a state => exact .ok a state.leaving
  | error h state => exact .error h state.leaving

namespace Walk

variable {t : Twinning} {s s' : Setting} {visit visit' : NodeId → String → Walk Value}

/-- Outputs that stand for each other are found side by side. -/
def VisitsTwin (t : Twinning) (g g' : HostGraph) (visit visit' : NodeId → String → Walk Value) : Prop :=
  ∀ {node output node' output' σ σ'}, σ.Twin t g σ' →
    t.key ⟨node, output, σ.scope, g.material⟩ ⟨node', output', σ'.scope, g'.material⟩ →
    EndsTwin t g (on (visit node output) σ) (on (visit' node' output') σ')

/-- What there is to do, carried out. -/
def follow (g : HostGraph) (visit : NodeId → String → Walk Value) (node : NodeId) (output : String) :
    Task → Walk Value
  | .plan plan => carryOut g visit plan
  | .call => call g visit node output
  | .formal => formal g visit node output

/-- An output is lowered by its course. -/
theorem on_expand_follow (s : Setting) (visit : NodeId → String → Walk Value) (node : NodeId)
    (output : String) (σ : WalkState) :
    ∃ log, on (expand s visit node output) σ =
      on (follow s.graph visit node output (s.course node output)) { σ with log } := by
  rw [on_expand]
  unfold Setting.course
  cases bypass? s.graph node with
  | some plan => exact ⟨σ.log, rfl⟩
  | none =>
    refine ⟨σ.log.push (.visiting (s.graph.kind node) (s.graph.label node) output), ?_⟩
    dsimp only
    cases s.table.task s.graph node output <;> rfl

section

variable {g g' : HostGraph} (hv : VisitsTwin t g g' visit visit')
  (steady : ∀ node output, Steady (visit node output))
  (steady' : ∀ node output, Steady (visit' node output))

include hv steady steady'

theorem carryOut_twin {α : Type} (keys : Relator.BiUnique t.key) {plan plan' : Plan α}
    {scope scope' : List NodeId} (h : Plan.Twin (t.within g g' scope scope') plan plan')
    {σ σ' : WalkState} (state : σ.Twin t g σ') (hs : σ.scope = scope) (hs' : σ'.scope = scope') :
    EndsTwin t g (on (carryOut g visit plan) σ) (on (carryOut g' visit' plan') σ') := by
  induction h generalizing σ σ' with
  | done a => exact .ok a state
  | fail h => exact .error h state
  | refused h => exact h.elim
  | unasked h => exact h.elim
  | @visit node node' output output' next next' asked _ ih =>
    have first : EndsTwin t g (on (visit node output) σ) (on (visit' node' output') σ') :=
      hv state (by rw [hs, hs']; exact asked)
    have scopes := (steady node output σ).scope_eq
    have scopes' := (steady' node' output' σ').scope_eq
    simp only [carryOut, on_bind]
    generalize on (visit node output) σ = run, on (visit' node' output') σ' = run'
      at first scopes scopes'
    cases first with
    | ok value state => exact ih value state (scopes.trans hs) (scopes'.trans hs')
    | error h state => exact .error h state
  | create kind params _ ih =>
    simp only [carryOut, on_bind, on_get, on_modify]
    rw [state.recording]
    exact ih _ (state.recorded (σ.recording.create_extends kind params)) hs hs'
  | image descriptor _ ih =>
    simp only [carryOut, on_bind, on_get, on_modify]
    rw [state.recording]
    exact ih _ (state.recorded (σ.recording.materialize_extends descriptor)) hs hs'
  | @noImage descriptor next plan lost _ ih =>
    have missing : σ.recording.materialize descriptor = _ :=
      Recording.materialize_failing (by rw [state.failing]; exact lost)
    simp only [carryOut, on_bind, on_get, on_modify, missing]
    exact ih state hs hs'
  | reportLeft notice _ ih =>
    simp only [carryOut, on_bind, on_say]
    exact ih (state.logged _ _) hs hs'
  | reportRight notice _ ih =>
    simp only [carryOut, on_bind, on_say]
    exact ih (state.logged _ _) hs hs'
  | @known node node' output output' name next next' own _ ih =>
    have here : t.subNode (⟨node, output, scope, g.material⟩, name)
        (⟨node', output', scope', g'.material⟩, name) := ⟨own, rfl⟩
    have found := state.subNodes.get? (Twinning.subNode_unique keys) here
    simp only [carryOut, on_bind, on_key, on_get, Cache.subNode?]
    rw [hs, hs', found]
    exact ih _ state hs hs'
  | @remember node node' output output' name value next next' own _ ih =>
    simp only [carryOut, on_bind, on_key, on_modify]
    have here : t.subNode (⟨node, output, scope, g.material⟩, name)
        (⟨node', output', scope', g'.material⟩, name) := ⟨own, rfl⟩
    rw [hs, hs']
    exact ih ⟨state.recording, state.failing, state.outputs,
      state.subNodes.put (Twinning.subNode_unique keys) here value, state.stack, state.active⟩ hs hs'

omit steady steady' in
theorem call_twin (trees : Relator.BiUnique t.tree) {k k' : Key} (output : k'.output = k.output)
    (label : t.label (g.label k.node) (g'.label k'.node)) (h : CallsAlike t g g' k k') {σ σ' : WalkState}
    (state : σ.Twin t g σ') (hs : σ.scope = k.scope) (hs' : σ'.scope = k'.scope) :
    EndsTwin t g (on (call g visit k.node k.output) σ) (on (call g' visit' k'.node k'.output) σ') := by
  rw [on_call, on_call]
  unfold CallsAlike at h
  generalize hg : g.groupTree k.node = called, g'.groupTree k'.node = called' at h
  cases h with
  | none => exact .error (.about label rfl rfl) state
  | @some tree tree' h =>
    obtain ⟨ht, outputs⟩ := h
    dsimp only
    rw [any_tree_twin trees state.stack ht, output]
    split
    · exact .error (.about label rfl rfl) state
    · have entered := state.logged
        (σ.log.push (.enteringGroup (g.label k.node) (σ.stack.length + 1)))
        (σ'.log.push (.enteringGroup (g'.label k'.node) (σ'.stack.length + 1)))
      generalize g.groupOutput tree = node, g'.groupOutput tree' = node' at outputs
      cases outputs with
      | none => exact .error (.about label rfl rfl) entered
      | @some node node' inner =>
        have frames : FramesAlike t g ⟨k.node, tree, .empty⟩ ⟨k'.node, tree', .empty⟩ := ⟨hg, ht, rfl⟩
        refine (hv (entered.withStack (.cons frames state.stack)) ?_).leaving g'
        rw [output, ← hs, ← hs'] at inner
        exact inner

theorem formal_twin (keys : Relator.BiUnique t.key) (trees : Relator.BiUnique t.tree) {k k' : Key}
    (output : k'.output = k.output) (label : t.label (g.label k.node) (g'.label k'.node))
    (h : FormalsAlike t g g' k k') {σ σ' : WalkState} (state : σ.Twin t g σ') (hs : σ.scope = k.scope)
    (hs' : σ'.scope = k'.scope) :
    EndsTwin t g (on (formal g visit k.node k.output) σ)
      (on (formal g' visit' k'.node k'.output) σ') := by
  rw [on_formal, on_formal]
  have found := innermostCall?_twin trees state.stack h.tree
  generalize hc : innermostCall? k.node.tree σ.stack = call,
    hc' : innermostCall? k'.node.tree σ'.stack = call' at found
  cases found with
  | none => exact .error (.about label rfl rfl) state
  | @some call call' found =>
    obtain ⟨inside, frame, around⟩ := call
    obtain ⟨inside', frame', around'⟩ := call'
    obtain ⟨hi, hf, ha⟩ := found
    dsimp only at hi hf ha ⊢
    rw [hf.arguments, output]
    cases frame.arguments.get? k.output with
    | some value => exact .ok value state
    | none =>
      have site := callOf?_of_innermostCall? state.stack hc
      rw [show σ.stack.map Frame.callSite = k.scope from hs] at site
      have suffix : frame'.callSite :: around'.map Frame.callSite <:+ k'.scope := by
        rw [← hs', WalkState.scope, (innermostCall?_spec hc').1, List.map_append, List.map_cons]
        exact List.suffix_append _ _
      have argument := h.argument site suffix (by simpa using ha.length_eq.symm)
      rw [output] at argument
      have outside := carryOut_twin hv steady steady' keys argument (state.withStack ha) rfl rfl
      dsimp only
      generalize on (carryOut g visit _) _ = run, on (carryOut g' visit' _) _ = run' at outside
      cases outside with
      | error h after =>
        exact .error h (after.withStack (List.rel_append hi (.cons hf after.stack)))
      | ok found after =>
        have default := h.default
        rw [output] at default
        dsimp only
        rw [default]
        refine .ok _ (after.withStack (List.rel_append hi (.cons ?_ after.stack)))
        exact ⟨hf.called, hf.tree, rfl⟩

end

variable (twins : s.Twins t s')

include twins

/-- What outputs that stand for each other come to, given how others are lowered. -/
theorem expand_twin (hv : VisitsTwin t s.graph s'.graph visit visit')
    (steady : ∀ node output, Steady (visit node output))
    (steady' : ∀ node output, Steady (visit' node output)) {node node' : NodeId} {output output' : String}
    {σ σ' : WalkState} (state : σ.Twin t s.graph σ')
    (here : t.key ⟨node, output, σ.scope, s.graph.material⟩
      ⟨node', output', σ'.scope, s'.graph.material⟩) :
    EndsTwin t s.graph (on (expand s visit node output) σ) (on (expand s' visit' node' output') σ') := by
  obtain ⟨log, hl⟩ := on_expand_follow s visit node output σ
  obtain ⟨log', hl'⟩ := on_expand_follow s' visit' node' output' σ'
  rw [hl, hl']
  have logged := state.logged log log'
  have output_eq : output' = output := twins.output here
  have label : t.label (s.graph.label node) (s'.graph.label node') := twins.label here
  have course := twins.course here
  dsimp only at course
  generalize s.course node output = task, s'.course node' output' = task' at course
  cases course with
  | plan h => exact carryOut_twin hv steady steady' twins.keys h logged rfl rfl
  | call h => exact call_twin hv twins.trees output_eq label h logged rfl rfl
  | formal h =>
    exact formal_twin hv steady steady' twins.keys twins.trees output_eq label h logged rfl rfl

theorem step_twin (hv : VisitsTwin t s.graph s'.graph visit visit')
    (steady : ∀ node output, Steady (visit node output))
    (steady' : ∀ node output, Steady (visit' node output)) :
    VisitsTwin t s.graph s'.graph (step s visit) (step s' visit') := by
  intro node output node' output' σ σ' state here
  have output_eq : output' = output := twins.output here
  have label : t.label (s.graph.label node) (s'.graph.label node') := twins.label here
  have own := here
  rw [on_step, on_step]
  generalize hk : (⟨node, output, σ.scope, s.graph.material⟩ : Key) = k,
    hk' : (⟨node', output', σ'.scope, s'.graph.material⟩ : Key) = k' at here
  dsimp only
  rw [show σ'.cache.get? k' = σ.cache.get? k from state.outputs.get? twins.keys here]
  cases σ.cache.get? k with
  | some value => exact .ok value state
  | none =>
    dsimp only
    rw [if_congr (List.rel_mem twins.keys here state.active).symm rfl rfl]
    split
    · rw [output_eq]
      exact .error (.about label rfl rfl) state
    · have inner := expand_twin twins hv steady steady' (state.withActive (.cons here state.active)) own
      have active := (expand_evolves s steady node output { σ with active := k :: σ.active }).active
      have active' :=
        (expand_evolves s' steady' node' output' { σ' with active := k' :: σ'.active }).active
      generalize on (expand s visit node output) _ = run, on (expand s' visit' node' output') _ = run'
        at inner active active'
      -- Both outputs are no longer being lowered.
      have left : List.Forall₂ t.key (run.2.active.erase k) (run'.2.active.erase k') := by
        rw [active, active', List.erase_cons_head, List.erase_cons_head]
        exact state.active
      cases inner with
      | error h after => exact .error h (after.withActive left)
      | ok value after => exact .ok value ((after.put twins.keys here value).withActive left)

/-- Outputs that stand for each other are lowered side by side, to any depth. -/
theorem lower_twin (depth : Nat) :
    VisitsTwin t s.graph s'.graph (lower s depth) (lower s' depth) := by
  induction depth with
  | zero =>
    intro node output node' output' σ σ' state here
    have output_eq : output' = output := twins.output here
    rw [output_eq]
    exact .error (.about (twins.label here) rfl rfl) state
  | succ depth ih => exact step_twin twins ih (lower_evolves s depth) (lower_evolves s' depth)

/-- Materials that are read from outputs that stand for each other are lowered side by side. -/
theorem root_twin (depth : s'.depth = s.depth) (material : s'.graph.material = s.graph.material)
    (outputNode : Option.Rel (fun node node' => t.key ⟨node, surface, [], s.graph.material⟩
      ⟨node', surface, [], s'.graph.material⟩) s.graph.outputNode s'.graph.outputNode)
    {r : Recording} (failing : r.failing = t.failing) :
    EndsTwin t s.graph (on (root s) (.start r)) (on (root s') (.start r)) := by
  have start : WalkState.Twin t s.graph (.start r) (.start r) := .start failing
  unfold root
  dsimp only
  generalize s.graph.outputNode = node, s'.graph.outputNode = node' at outputNode
  cases outputNode with
  | none =>
    rw [material]
    exact .error (.about_none rfl) start
  | @some node node' here =>
    have lowered := lower_twin twins s.depth start here
    dsimp only
    rw [on_bind, on_bind]
    unfold Walk.output
    rw [depth]
    generalize on (lower s s.depth node surface) _ = run, on (lower s' s.depth node' surface) _ = run'
      at lowered
    cases lowered with
    | error h after => exact .error h after
    | ok value after =>
      cases value with
      | node handle => exact .ok handle after
      | constant | image | unset => exact .error (.about (twins.label here) rfl rfl) after

end Walk

/-! ## Materials -/

/-- The same result, or failures over the same thing. -/
inductive ResultsAlike {α : Type} (label : String → String → Prop) :
    Except Failure α → Except Failure α → Prop
  | ok (a : α) : ResultsAlike label (.ok a) (.ok a)
  | error {failure failure' : Failure} (h : failure.Like label failure') :
      ResultsAlike label (.error failure) (.error failure')

theorem ResultsAlike.eq {α : Type} {result result' : Except Failure α}
    (h : ResultsAlike Eq result result') : result' = result := by
  cases h with
  | ok a => rfl
  | error h => rw [h.eq]

theorem EndsTwin.results {α : Type} {t : Twinning} {g : HostGraph}
    {run run' : Except Failure α × WalkState} (h : EndsTwin t g run run') :
    ResultsAlike t.label run.1 run'.1 ∧ run'.2.recording = run.2.recording := by
  cases h with
  | ok a state => exact ⟨.ok a, state.recording⟩
  | error h state => exact ⟨.error h, state.recording⟩

/-- Two settings make the same of a recording: their walks come to the same root, or fail over the same
    thing, and leave the same recording; and the materials, which have a root in any case, do too. -/
structure Setting.Same (label : String → String → Prop) (s s' : Setting) (r : Recording) : Prop where
  walk : ResultsAlike label (on (Walk.root s) (.start r)).1 (on (Walk.root s') (.start r)).1
  walked : (on (Walk.root s') (.start r)).2.recording = (on (Walk.root s) (.start r)).2.recording
  root : ∀ showErrors, (s'.lower showErrors r).root = (s.lower showErrors r).root
  recording : ∀ showErrors, (s'.lower showErrors r).recording = (s.lower showErrors r).recording

/-- Nothing tells two settings apart, in what they make of a recording: the walk comes to the same root
    or to the same failure, and the walk and the material leave the same recording. -/
structure Setting.Indistinct (s s' : Setting) (r : Recording) : Prop where
  walk : (on (Walk.root s') (.start r)).1 = (on (Walk.root s) (.start r)).1
  walked : (on (Walk.root s') (.start r)).2.recording = (on (Walk.root s) (.start r)).2.recording
  root : ∀ showErrors, (s'.lower showErrors r).root = (s.lower showErrors r).root
  recording : ∀ showErrors, (s'.lower showErrors r).recording = (s.lower showErrors r).recording

theorem Setting.Same.indistinct {s s' : Setting} {r : Recording} (h : s.Same Eq s' r) :
    s.Indistinct s' r :=
  ⟨h.walk.eq, h.walked, h.root, h.recording⟩

/-- Materials are lowered to the same if their walks come to the same root, or both to none, and leave
    the same recording. -/
theorem Setting.lower_congr {s s' : Setting} {r : Recording}
    (material : s'.graph.material = s.graph.material)
    (walk : (on (Walk.root s') (.start r)).1.toOption = (on (Walk.root s) (.start r)).1.toOption)
    (walked : (on (Walk.root s') (.start r)).2.recording = (on (Walk.root s) (.start r)).2.recording)
    (showErrors : Bool) : (s'.lower showErrors r).root = (s.lower showErrors r).root ∧
      (s'.lower showErrors r).recording = (s.lower showErrors r).recording := by
  unfold Setting.lower
  unfold Walk.on at walk walked
  generalize (Walk.root s).run (.start r) = run, (Walk.root s').run (.start r) = run' at walk walked
  obtain ⟨result, σ⟩ := run
  obtain ⟨result', σ'⟩ := run'
  dsimp only at walk walked ⊢
  rw [material, walked]
  cases result <;> cases result' <;> cases walk <;> exact ⟨rfl, rfl⟩

/-- Settings make the same of a recording if their walks do. -/
theorem Setting.Same.of_walk {label : String → String → Prop} {s s' : Setting} {r : Recording}
    (material : s'.graph.material = s.graph.material)
    (walk : ResultsAlike label (on (Walk.root s) (.start r)).1 (on (Walk.root s') (.start r)).1)
    (walked : (on (Walk.root s') (.start r)).2.recording = (on (Walk.root s) (.start r)).2.recording) :
    s.Same label s' r := by
  have root : (on (Walk.root s') (.start r)).1.toOption = (on (Walk.root s) (.start r)).1.toOption := by
    generalize (on (Walk.root s) (.start r)).1 = result, (on (Walk.root s') (.start r)).1 = result'
      at walk
    cases walk <;> rfl
  have lowered := Setting.lower_congr material root walked
  exact ⟨walk, walked, fun e => (lowered e).1, fun e => (lowered e).2⟩

/-- Materials that are walked side by side are lowered to the same. -/
theorem Setting.Twins.lower {t : Twinning} {s s' : Setting} (twins : s.Twins t s')
    (depth : s'.depth = s.depth) (material : s'.graph.material = s.graph.material)
    (outputNode : Option.Rel (fun node node' => t.key ⟨node, Walk.surface, [], s.graph.material⟩
      ⟨node', Walk.surface, [], s'.graph.material⟩) s.graph.outputNode s'.graph.outputNode)
    {r : Recording} (failing : r.failing = t.failing) : s.Same t.label s' r := by
  obtain ⟨walk, walked⟩ := (Walk.root_twin twins depth material outputNode failing).results
  exact .of_walk material walk walked

end MaterialLowering
