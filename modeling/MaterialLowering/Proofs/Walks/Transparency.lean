import MaterialLowering.Proofs.Walks.Depth

/-!
# Memory makes no difference

A walk remembers outputs, sub-nodes of rules and arguments of calls, and it takes its stack apart
where an argument is read. Whatever questions were put to it before, an output comes to what
lowering without memory comes to: to the same failure, or to a value that unfolds to the same tree.

Results:
* `Reached.resting`: the states between questions are sound.
* `Document.output_transparent`: memory makes no difference.
-/

namespace MaterialLowering

open Walk (on)

variable {s : Setting} {fixed : Key → Prop}

/-! ## Questions -/

/-- A question that can be put to a walk. -/
inductive Question where
  | root
  | output (node : NodeId) (output : String)
  | input (node : NodeId) (key : SocketKey)
  | inputLink (node : NodeId) (key : SocketKey)
  | inputDefault (node : NodeId) (key : SocketKey)
  | requiredLink (node : NodeId) (key : SocketKey)
  | groupInput (node : NodeId) (name : String)

/-- The state after a question, which may have failed. -/
def Walk.ask (s : Setting) : Question → WalkState → WalkState
  | .root, σ => (on (root s) σ).2
  | .output node output, σ => (on (Walk.output s node output) σ).2
  | .input node key, σ => (on (input s node key) σ).2
  | .inputLink node key, σ => (on (inputLink s node key) σ).2
  | .inputDefault node key, σ => (on (inputDefault s node key) σ).2
  | .requiredLink node key, σ => (on (requiredLink s node key) σ).2
  | .groupInput node name, σ => (on (groupInput s node name) σ).2

/-- The states between questions. Nodes and images may be added to the recording meanwhile. -/
inductive Reached (s : Setting) : WalkState → Prop
  | start (r : Recording) : Reached s (.start r)
  | ask {σ : WalkState} (h : Reached s σ) (question : Question) : Reached s (Walk.ask s question σ)
  | recorded {σ : WalkState} (h : Reached s σ) {r : Recording} (hr : σ.recording.Extends r) :
    Reached s { σ with recording := r }

/-- Between questions nothing is being lowered, and what is remembered is sound. -/
structure Resting (s : Setting) (fixed : Key → Prop) (σ : WalkState) : Prop where
  sound : Sound s fixed σ
  stack : σ.stack = []
  active : σ.active = []

namespace Resting

variable {σ σ' : WalkState}

theorem stands (h : Resting s fixed σ) (node : NodeId) : Stands σ.stack node := by
  intro frame hf
  rw [h.stack] at hf
  cases hf

theorem start (r : Recording) : Resting s fixed (.start r) :=
  ⟨⟨.nil, fun _ h => (by cases h), fun _ _ _ _ _ h => (by cases h), trivial⟩, rfl, rfl⟩

theorem of_evolves (h : Resting s fixed σ) (evolves : σ.Evolves σ') (sound : Sound s fixed σ') :
    Resting s fixed σ' :=
  ⟨sound, evolves.stack_eq_nil h.stack, evolves.active.trans h.active⟩

theorem lower (h : Resting s fixed σ) (regular : s.Regular fixed) (node : NodeId) (output : String) :
    Resting s fixed (on (Walk.lower s s.depth node output) σ).2 :=
  h.of_evolves (Walk.lower_evolves s s.depth node output σ)
    (Walk.lowersSoundly regular s.depth node output σ h.sound (h.stands node)).1

theorem planned (h : Resting s fixed σ) (regular : s.Regular fixed) {node : NodeId} {plan : Plan Value}
    (alike : ∀ w, Plan.Agree (s.graph.Feeds node) False w plan plan) :
    Resting s fixed (on (Walk.planned s plan) σ).2 :=
  h.of_evolves (Walk.carryOut_evolves (Walk.lower_evolves s s.depth) plan σ)
    (Walk.tracked_of_alike regular (Walk.lowersSoundly regular s.depth) alike h.sound
      (h.stands node)).kept.sound

theorem ask (h : Resting s fixed σ) (regular : s.Regular fixed) (question : Question) :
    Resting s fixed (Walk.ask s question σ) := by
  cases question with
  | root =>
    unfold Walk.ask Walk.root
    dsimp only
    split
    · exact h
    · rename_i node _
      have lowered := h.lower regular node Walk.surface
      rw [Walk.on_bind]
      unfold Walk.output
      generalize on (Walk.lower s s.depth node Walk.surface) σ = run at lowered ⊢
      obtain ⟨failure | value, σ'⟩ := run
      · exact lowered
      · cases value <;> exact lowered
  | output node output => exact h.lower regular node output
  | input node key => exact h.planned regular fun w => Plan.input_alike key
  | inputLink node key => exact h.planned regular fun w => Plan.inputLink_alike key
  | inputDefault node key =>
    have alike : ∀ w, Plan.Agree (s.graph.Feeds node) False w (Plan.inputDefault s.graph node key)
        (Plan.inputDefault s.graph node key) := fun w => Plan.inputDefault_alike key
    exact h.planned regular alike
  | requiredLink node key => exact h.planned regular fun w => Plan.requiredLink_alike key
  | groupInput node name =>
    unfold Walk.ask Walk.groupInput
    dsimp only
    rw [Walk.on_formal, h.stack]
    exact h

end Resting

theorem Reached.resting {σ : WalkState} (h : Reached s σ) (regular : s.Regular fixed) :
    Resting s fixed σ := by
  induction h with
  | start r => exact .start r
  | ask _ question ih => exact ih.ask regular question
  | recorded _ hr ih => exact ⟨ih.sound.recorded hr, ih.stack, ih.active⟩

/-- Between questions, an output comes to what lowering without memory comes to, unless that is
    stopped. -/
theorem Resting.agrees {σ : WalkState} (h : Resting s fixed σ) (regular : s.Regular fixed) (depth : Nat)
    (node : NodeId) (output : String) (q : Recording) (hq : q.failing = σ.recording.failing) :
    Agrees Correspondence.Answer (on (Walk.lower s depth node output) σ).2.recording q
      (on (Walk.lower s depth node output) σ).1
      (Reference.lowerWithin s fixed depth [] [] node output q) := by
  obtain ⟨sound, found, failed⟩ := Walk.lowersSoundly regular depth node output σ h.sound
    (h.stands node)
  have evolves := Walk.lower_evolves s depth node output σ
  have scope : σ.scope = [] := by rw [WalkState.scope, h.stack, List.map_nil]
  rw [scope] at found failed
  rw [h.active] at failed
  generalize on (Walk.lower s depth node output) σ = run at sound found failed evolves ⊢
  obtain ⟨failure | v, σ'⟩ := run
  · exact (failed failure rfl q hq).failed
  · have answers := sound.outputs.answers depth [] fun _ h => by cases h
    exact answers _ (found v rfl) q (hq.trans evolves.recording.failing.symm)

/-! ## Documents -/

/-- A walk ends as a direct computation does: with the same failure of the graph, or with values that
    unfold to one tree. -/
inductive EndsTheSame : Except Failure Value × WalkState → Except Failure Value × Recording → Prop
  | ok {v v' : Value} {σ : WalkState} {q : Recording}
      (h : (Recording.unfolding σ.recording q).Answer v v') : EndsTheSame (.ok v, σ) (.ok v', q)
  | error {failure : Failure} {σ : WalkState} {q : Recording} (h : ¬ failure.IsTooDeep) :
      EndsTheSame (.error failure, σ) (.error failure, q)

/-- As deep as the walk of a document goes, an output comes to what lowering without memory comes to. -/
theorem Document.output_endsTheSame (d : Document) (table : RuleTable) (hc : table.check = .ok ())
    (formals : d.FormalsAgree) {σ : WalkState} (reached : Reached (d.setting table) σ)
    (node : NodeId) (output : String) (q : Recording) (hq : q.failing = σ.recording.failing) :
    EndsTheSame (on (Walk.output (d.setting table) node output) σ)
      (Reference.lower (d.setting table) d.walkDepth [] [] node output q) := by
  have regular : (d.setting table).Regular fun _ => True :=
    d.setting_regular hc fun a b tree called ha hb name _ _ =>
      formals a b tree called ha.1 hb.1 name
  have ends := lower_ends table (Nat.le_refl d.walkDepth) node output q
  have agrees := (reached.resting regular).agrees regular d.walkDepth node output q hq
  rw [Reference.lowerWithin_true] at agrees
  show EndsTheSame (on (Walk.lower (d.setting table) d.walkDepth node output) σ) _
  generalize on (Walk.lower (d.setting table) d.walkDepth node output) σ = run at agrees ⊢
  generalize Reference.lower (d.setting table) d.walkDepth [] [] node output q = direct
    at ends agrees ⊢
  obtain ⟨result, σ'⟩ := run
  cases agrees with
  | ok _ answer => exact .ok answer
  | error => exact .error (ends.not_tooDeep rfl)
  | tooDeep h => exact (ends.not_tooDeep rfl h).elim

/-- Whatever questions were put to a walk before, an output comes to what lowering without memory
    comes to, which is never stopped. -/
theorem Document.output_transparent (d : Document) (table : RuleTable) (hc : table.check = .ok ())
    (formals : d.FormalsAgree) {σ : WalkState} (reached : Reached (d.setting table) σ)
    (node : NodeId) (output : String) (q : Recording) (hq : q.failing = σ.recording.failing)
    (depth : Nat) (hd : d.walkDepth ≤ depth) :
    EndsTheSame (on (Walk.output (d.setting table) node output) σ)
      (Reference.lower (d.setting table) depth [] [] node output q) := by
  -- Lowering without memory may go deeper, but it does not.
  have ends := lower_ends table (Nat.le_refl d.walkDepth) node output q
  have deeper := Reference.lower_deeper (s := d.setting table) hd [] [] node output q
    fun failure hf => ends.not_tooDeep hf
  rw [deeper]
  exact d.output_endsTheSame table hc formals reached node output q hq

theorem RuleTable.builtin_check : builtin.check = .ok () := by decide +kernel

/-- A color that goes through a group. -/
def Document.passing : Document where
  name := "passing"
  tree :=
    { nodes :=
        [⟨"color", .rgb, [], [⟨"Color", some (.scalar .one), false⟩], .ofList [], false⟩,
          ⟨"call", .group, [⟨"x", none, false⟩], [⟨"y", none, false⟩],
            .ofList [(groupProperty, .text "id")], false⟩]
      links := [⟨"color", "Color", "call", .name "x", false⟩] }
  groups :=
    [⟨"id",
      { nodes :=
          [⟨"in", .groupInput, [], [⟨"x", some (.scalar .zero), false⟩], .ofList [], false⟩,
            ⟨"out", .groupOutput, [⟨"y", none, false⟩], [], .ofList [], false⟩]
        links := [⟨"in", "x", "out", .name "y", false⟩] }⟩]

theorem Document.passing_formalsAgree : passing.FormalsAgree := by
  have only : ∀ a : NodeId, passing.graph.kind a = .groupInput → a = ⟨⟨1⟩, 0⟩ := by
    rintro ⟨⟨tree⟩, index⟩ h
    rcases tree with _ | _ | tree
    · rcases index with _ | _ | index <;> simp [graph, node?, tree?, passing] at h
    · rcases index with _ | _ | index
      · rfl
      · simp [graph, node?, tree?, passing] at h
      · simp [graph, node?, tree?, passing] at h
    · simp [graph, node?, tree?, passing] at h
  intro a b _ _ ha hb name
  rw [only a ha, only b hb]

/-- The group is read twice, and the second time from memory. -/
theorem Document.output_transparent_passing :
    RuleTable.builtin.check = .ok () ∧ passing.FormalsAgree ∧
      Reached (passing.setting .builtin)
        (Walk.ask (passing.setting .builtin) (.output ⟨.material, 1⟩ "y") (.start .empty)) ∧
      EndsTheSame
        (on (Walk.output (passing.setting .builtin) ⟨.material, 1⟩ "y")
          (Walk.ask (passing.setting .builtin) (.output ⟨.material, 1⟩ "y") (.start .empty)))
        (Reference.lower (passing.setting .builtin) passing.walkDepth [] [] ⟨.material, 1⟩ "y" .empty) := by
  have reached := (Reached.start (s := passing.setting .builtin) .empty).ask (.output ⟨.material, 1⟩ "y")
  refine ⟨RuleTable.builtin_check, passing_formalsAgree, reached, ?_⟩
  refine passing.output_transparent .builtin RuleTable.builtin_check passing_formalsAgree reached _ _
    .empty ?_ _ (Nat.le_refl _)
  exact (Walk.lower_evolves (passing.setting .builtin) _ _ _ (.start .empty)).recording.failing.symm

end MaterialLowering
