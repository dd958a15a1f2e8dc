import MaterialLowering.Proofs.Walks.Transparency

/-!
# Control is given back

A question may step into groups, take the stack apart to read an argument, and fail anywhere on the
way. When it ends, the calls on the stack and the outputs that are being lowered are what they were;
only arguments may have become known.

Results:
* `Walk.ask_evolves`: what a question does to any state.
* `Walk.ask_restores`: a question gives control back, and between questions there is nothing to give.
-/

namespace MaterialLowering

variable {s : Setting} {σ : WalkState}

namespace Walk

theorem root_evolves (s : Setting) : Steady (root s) := by
  unfold root
  dsimp only
  split
  · exact .throw _
  · refine (lower_evolves s s.depth _ surface).bind fun value => ?_
    split
    · exact .pure _
    · exact .throw _

/-- A question evolves the state that it is put to, whatever it comes to. -/
theorem ask_evolves (s : Setting) (question : Question) (σ : WalkState) :
    σ.Evolves (ask s question σ) := by
  have planned : ∀ plan : Plan Value, Steady (planned s plan) :=
    carryOut_evolves (lower_evolves s s.depth)
  cases question with
  | root => exact root_evolves s σ
  | output node output => exact lower_evolves s s.depth node output σ
  | input node key => exact planned (Plan.input s.graph node key) σ
  | inputLink node key => exact planned (Plan.inputLink s.graph node key) σ
  | inputDefault node key => exact planned (Plan.inputDefault s.graph node key) σ
  | requiredLink node key => exact planned (Plan.requiredLink s.graph node key) σ
  | groupInput node name => exact formal_evolves (lower_evolves s s.depth) node name σ

end Walk

/-- Between questions there is no call on the stack, and nothing is being lowered. -/
theorem Reached.idle (h : Reached s σ) : σ.stack = [] ∧ σ.active = [] := by
  induction h with
  | start => exact ⟨rfl, rfl⟩
  | @ask σ _ question ih =>
    have evolves := Walk.ask_evolves s question σ
    exact ⟨evolves.stack_eq_nil ih.1, evolves.active.trans ih.2⟩
  | recorded _ _ ih => exact ih

/-- Whatever a question comes to, in whatever state it is put: afterwards the same calls are on the
    stack, each remembers at least the arguments that it did, and the same outputs are being lowered.
    So between questions there never is a call on the stack, nor an output that is being lowered. -/
theorem Walk.ask_restores (s : Setting) :
    (∀ question σ, StackExtends σ.stack (ask s question σ).stack ∧
      (ask s question σ).active = σ.active) ∧
    ∀ σ, Reached s σ → σ.stack = [] ∧ σ.active = [] := by
  refine ⟨fun question σ => ?_, fun σ reached => reached.idle⟩
  have evolves := ask_evolves s question σ
  exact ⟨evolves.stack, evolves.active⟩

/-- A formal input is read inside the call of the group; and after an output that does not exist was
    asked for, nothing is left of the question. -/
theorem Walk.ask_restores_passing :
    let s := Document.passing.setting .builtin
    let inside : WalkState := { WalkState.start .empty with
      stack := [⟨⟨.material, 1⟩, ⟨1⟩, .empty⟩], active := [⟨⟨.material, 1⟩, "y", [], "passing"⟩] }
    (StackExtends inside.stack (ask s (.groupInput ⟨⟨1⟩, 0⟩ "x") inside).stack ∧
      (ask s (.groupInput ⟨⟨1⟩, 0⟩ "x") inside).active = inside.active) ∧
    Reached s (ask s (.output ⟨⟨9⟩, 9⟩ "z") (.start .empty)) ∧
    (ask s (.output ⟨⟨9⟩, 9⟩ "z") (.start .empty)).stack = [] := by
  have reached := (Reached.start (s := Document.passing.setting .builtin) .empty).ask
    (.output ⟨⟨9⟩, 9⟩ "z")
  exact ⟨(ask_restores _).1 _ _, reached, ((ask_restores _).2 _ reached).1⟩

end MaterialLowering
