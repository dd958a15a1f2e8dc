import MaterialLowering.Proofs.Walks.SoundWalk

/-!
# Walks that add nothing

Lowering without memory may add more to a recording than a walk does, for it lowers an output every
time that it is asked for. The other way round, a walk adds nothing where lowering without memory
adds nothing to the recording that the walk begins with.

Results:
* `Reference.lowerWithin_adds`: lowering without memory only adds to a recording.
* `Walk.lowersStill`: a walk adds nothing where lowering without memory adds nothing.
-/

namespace MaterialLowering

open Walk (on)

theorem Recording.Extends.antisymm {r r' : Recording} (h : r.Extends r') (h' : r'.Extends r) :
    r = r' := by
  obtain ⟨nodes, images, roots, failing⟩ := r
  obtain ⟨nodes', images', roots', failing'⟩ := r'
  obtain ⟨hn, hi, hr, hf⟩ := h
  have sameNodes : nodes = nodes' := Array.toList_inj.1 (hn.eq_of_length_le h'.nodes.length_le)
  have sameImages : images = images' := hi.eq_of_length_le h'.images.length_le
  rw [sameNodes, sameImages, show roots' = roots from hr, show failing' = failing from hf]

/-! ## Lowering without memory -/

/-- A computation that only adds to a recording. -/
def Direct.Adds {α : Type} (direct : Direct α) : Prop := ∀ r : Recording, r.Extends (direct r).2

theorem Plan.evaluate_adds {α : Type} {visit : NodeId → String → Direct Value}
    (hv : ∀ node output, (visit node output).Adds) (p : Plan α) :
    Direct.Adds (p.evaluate visit) := by
  induction p with
  | done | fail => exact fun r => .refl r
  | visit node output next ih =>
    intro r
    have first := hv node output r
    simp only [evaluate]
    generalize visit node output r = direct at first ⊢
    obtain ⟨failure | value, q⟩ := direct
    · exact first
    · exact first.trans (ih value q)
  | create kind params next ih => exact fun r => (r.create_extends kind params).trans (ih _ _)
  | image descriptor next ih => exact fun r => (r.materialize_extends descriptor).trans (ih _ _)
  | report notice next ih => exact ih
  | known node output subNode next ih => exact ih none
  | remember node output subNode value next ih => exact ih

namespace Reference

variable {g : HostGraph} {visit : Visit}

theorem call_adds (hv : ∀ chain node output, (visit chain node output).Adds) (chain : List NodeId)
    (callSite : NodeId) (output : String) : Direct.Adds (call g visit chain callSite output) := by
  intro r
  unfold call
  split
  · exact .refl r
  · split
    · exact .refl r
    · split
      · exact .refl r
      · exact hv _ _ _ r

theorem formal_adds (hv : ∀ chain node output, (visit chain node output).Adds) (chain : List NodeId)
    (groupInput : NodeId) (name : String) : Direct.Adds (formal g visit chain groupInput name) := by
  intro r
  unfold formal
  cases chain with
  | nil => exact .refl r
  | cons callSite around =>
    have adds := Plan.evaluate_adds (hv around) (Walk.argument g callSite name) r
    dsimp only
    generalize (Walk.argument g callSite name).evaluate (visit around) r = direct at adds ⊢
    obtain ⟨failure | found, q⟩ := direct
    · exact adds
    · exact adds

theorem expand_adds (s : Setting) (hv : ∀ chain node output, (visit chain node output).Adds)
    (chain : List NodeId) (node : NodeId) (output : String) :
    Direct.Adds (expand s visit chain node output) := by
  unfold expand
  cases bypass? s.graph node with
  | some plan => exact Plan.evaluate_adds (hv chain) plan
  | none =>
    dsimp only
    cases s.table.task s.graph node output with
    | plan plan => exact Plan.evaluate_adds (hv chain) plan
    | call => exact call_adds hv chain node output
    | formal => exact formal_adds hv chain node output

theorem expandWithin_adds (s : Setting) (fixed : Key → Prop)
    (hv : ∀ chain node output, (visit chain node output).Adds) (chain : List NodeId) (node : NodeId)
    (output : String) : Direct.Adds (expandWithin s fixed visit chain node output) := by
  intro r
  unfold expandWithin
  by_cases allowed : fixed ⟨node, output, chain, s.graph.material⟩
  · rw [Direct.only_pos allowed]
    exact expand_adds s hv chain node output r
  · rw [Direct.only_neg allowed]
    exact .refl r

/-- Lowering without memory only adds to a recording. -/
theorem lowerWithin_adds (s : Setting) (fixed : Key → Prop) (depth : Nat) (path : List Key)
    (chain : List NodeId) (node : NodeId) (output : String) :
    Direct.Adds (lowerWithin s fixed depth path chain node output) := by
  induction depth generalizing path chain node output with
  | zero => exact fun r => .refl r
  | succ depth ih =>
    intro r
    simp only [lowerWithin]
    split
    · exact .refl r
    · exact expandWithin_adds s fixed (ih _) chain node output r

end Reference

/-! ## Plans -/

variable {s : Setting} {fixed : Key → Prop} {depth : Nat} {node : NodeId} {σ : WalkState} {α : Type}

/-- Carrying `p` out leaves the recording as it is, where carrying `p'` out without memory comes to a
    value and leaves it so. -/
def Still (s : Setting) (fixed : Key → Prop) (depth : Nat) (σ : WalkState) (p p' : Plan α) : Prop :=
  ∀ a, p'.evaluate (Reference.lowerWithin s fixed depth σ.active σ.scope) σ.recording =
      (.ok a, σ.recording) →
    (on (Walk.carryOut s.graph (Walk.lower s depth) p) σ).2.recording = σ.recording

/-- Lowering leaves the recording as it is, where lowering without memory does. -/
def LowersStill (s : Setting) (fixed : Key → Prop) (depth : Nat) : Prop :=
  ∀ node output σ, Sound s fixed σ → Stands σ.stack node → ∀ v,
    Reference.lowerWithin s fixed depth σ.active σ.scope node output σ.recording =
        (.ok v, σ.recording) →
      (on (Walk.lower s depth node output) σ).2.recording = σ.recording

/-- What is left as it is in the end was so in between. -/
theorem eq_of_evaluate {visit : NodeId → String → Direct Value}
    (hv : ∀ node output, (visit node output).Adds) {p : Plan α} {r q : Recording} {a : α}
    (h : r.Extends q) (run : p.evaluate visit q = (.ok a, r)) : q = r := by
  have adds := Plan.evaluate_adds hv p q
  rw [run] at adds
  exact adds.antisymm h

namespace Walk

theorem carryOut_still (regular : s.Regular fixed) (still : LowersStill s fixed depth)
    {P : Correspondence → α → α → Prop} {w : Correspondence}
    {p p' : Plan α} (h : Plan.Alike (s.graph.Feeds node) False P w p p') (sound : Sound s fixed σ)
    (stands : Stands σ.stack node) (hw : w = σ.recording.unfolding σ.recording) :
    Still s fixed depth σ p p' := by
  intro a run
  induction h generalizing σ with
  | done => rfl
  | fail => cases run
  | @visit w source output next next' asked _ ih =>
    have within : Stands σ.stack source := stands.of_tree (regular.feeds node source output asked)
    obtain ⟨sound', found, -⟩ := lowersSoundly regular depth source output σ sound within
    have first := still source output σ sound within
    have adds := Reference.lowerWithin_adds s fixed depth σ.active σ.scope source output σ.recording
    have evolves := lower_evolves s depth source output σ
    have answers := sound'.outputs.answers depth _ sound'.waiting
    simp only [Plan.evaluate] at run
    simp only [carryOut, on_bind]
    rw [evolves.active] at answers
    generalize on (lower s depth source output) σ = after at sound' found first evolves answers ⊢
    generalize hdirect :
      Reference.lowerWithin s fixed depth σ.active σ.scope source output σ.recording = direct
      at run adds first
    obtain ⟨failure | v', q⟩ := direct
    · cases run
    obtain rfl := eq_of_evaluate (Reference.lowerWithin_adds s fixed depth σ.active σ.scope) adds run
    have same := first v' rfl
    obtain ⟨failure | v, σ'⟩ := after
    · exact same
    have agrees := answers _ (found v rfl) σ.recording (by rw [← same])
    simp only [hdirect] at agrees
    rw [← evolves.active, ← evolves.scope_eq, ← same] at run
    cases agrees with
    | ok _ answer =>
      rw [← same] at answer
      refine (ih _ ?_ v v' answer sound' (stands.of_extends evolves.stack) rfl run).trans same
      rw [hw, same]
  | @create w kind ps qs next next' params _ ih =>
    -- A node cannot be taken back.
    have adds := Plan.evaluate_adds (Reference.lowerWithin_adds s fixed depth σ.active σ.scope)
      (next' (σ.recording.create kind qs).1) (σ.recording.create kind qs).2
    simp only [Plan.evaluate] at run
    rw [run] at adds
    have size := adds.size_le
    simp only [Recording.create_nodes, Array.size_push] at size
    omega
  | @image w descriptor next next' _ ih =>
    have he := σ.recording.materialize_extends descriptor
    have same : (σ.recording.materialize descriptor).2 = σ.recording :=
      eq_of_evaluate (Reference.lowerWithin_adds s fixed depth σ.active σ.scope) he run
    have images := Recording.unfolding_materialized (q := σ.recording) rfl descriptor
    simp only [Plan.evaluate, same] at run images
    simp only [carryOut, on_bind, on_get, on_modify, same]
    exact ih _ hw.le _ _ images sound stands rfl run
  | @report w notice next next' _ _ ih => exact ih (sound.noting notice) stands hw run
  | known h => exact h.elim
  | remember h => exact h.elim

variable {β γ : Type} {P : Correspondence → β → β → Prop}

/-- One plan after another. -/
theorem still_bind {p : Plan β} {f f' : β → Plan γ} (tracked : Tracked s fixed depth P σ p)
    (h : Still s fixed depth σ p p)
    (hf : ∀ b b' σ', σ.Evolves σ' → Sound s fixed σ' → P (σ'.recording.unfolding σ'.recording) b b' →
      Still s fixed depth σ' (f b) (f' b')) :
    Still s fixed depth σ (p >>= f) (p >>= f') := by
  intro c run
  rw [Plan.evaluate_bind] at run
  rw [on_carryOut_bind]
  have adds := Plan.evaluate_adds (Reference.lowerWithin_adds s fixed depth σ.active σ.scope) p σ.recording
  have first := h
  have evolves := carryOut_evolves (g := s.graph) (lower_evolves s depth) p σ
  obtain ⟨⟨sound, -⟩, agreeing⟩ := tracked
  have answers := sound.outputs.answers depth _ sound.waiting
  rw [evolves.active] at answers
  have agrees := agreeing σ.recording rfl _ answers fun _ _ => rfl
  unfold Still at first
  generalize on (carryOut s.graph (lower s depth) p) σ = after at evolves sound agrees first ⊢
  generalize p.evaluate (Reference.lowerWithin s fixed depth σ.active σ.scope) σ.recording = direct
    at run adds agrees first
  obtain ⟨failure | b', q⟩ := direct
  · cases run
  obtain rfl := eq_of_evaluate (Reference.lowerWithin_adds s fixed depth σ.active σ.scope) adds run
  have same := first b' rfl
  obtain ⟨failure | b, σ'⟩ := after
  · exact same
  rw [← evolves.active, ← evolves.scope_eq, ← same] at run
  cases agrees with
  | ok _ related =>
    rw [← same] at related
    exact (hf b b' σ' evolves sound related c run).trans same

/-! ## Sub-nodes -/

variable {rules : NodeRules} {output : String} {subNode : String → Plan Value}

theorem source_still (regular : s.Regular fixed) (still : LowersStill s fixed depth)
    (source : ValueSource)
    (hs : ∀ reference, source.reference? = some reference →
      Still s fixed depth σ (subNode reference) (subNode reference))
    (sound : Sound s fixed σ) (stands : Stands σ.stack node) :
    Still s fixed depth σ ((s.site rules node output).source subNode source)
      ((s.site rules node output).source subNode source) := by
  cases source with
  | input socket =>
    exact carryOut_still regular still (Plan.input_alike (.name socket)) sound stands rfl
  | link socket =>
    exact carryOut_still regular still (Plan.inputLink_alike (.name socket)) sound stands rfl
  | default socket =>
    exact carryOut_still regular still (Plan.inputDefault_alike (.name socket)) sound stands rfl
  | node reference => exact hs reference rfl
  | literal literal => exact fun _ _ => rfl

theorem params_still (regular : s.Regular fixed) (still : LowersStill s fixed depth)
    (params : List (String × ValueSource))
    (hs : ∀ param ∈ params, ∀ reference, param.2.reference? = some reference →
      ∀ σ, Sound s fixed σ → Stands σ.stack node →
        Tracked s fixed depth Correspondence.Answer σ (subNode reference) ∧
          Still s fixed depth σ (subNode reference) (subNode reference))
    (sound : Sound s fixed σ) (stands : Stands σ.stack node) :
    Still s fixed depth σ ((s.site rules node output).params subNode params)
      ((s.site rules node output).params subNode params) := by
  have sounds := lowersSoundly regular depth
  induction params generalizing σ with
  | nil => exact fun _ _ => rfl
  | cons param rest ih =>
    obtain ⟨first, others⟩ := List.forall_mem_cons.1 hs
    have head : Tracked s fixed depth Correspondence.Answer σ
        ((s.site rules node output).source subNode param.2) :=
      source_tracked regular sounds param.2
        (fun reference hr σ sound stands => (first reference hr σ sound stands).1) sound stands
    have headStill : Still s fixed depth σ ((s.site rules node output).source subNode param.2)
        ((s.site rules node output).source subNode param.2) :=
      source_still regular still param.2
        (fun reference hr => (first reference hr σ sound stands).2) sound stands
    refine still_bind head headStill fun value value' σ' evolves sound' _ => ?_
    have stands' := stands.of_extends evolves.stack
    have tail : Tracked s fixed depth RuleSite.ParamsAlike σ'
        ((s.site rules node output).params subNode rest) :=
      params_tracked regular sounds rest (fun other ho reference hr σ sound stands =>
        (others other ho reference hr σ sound stands).1) sound' stands'
    exact still_bind tail (ih others sound' stands') fun _ _ _ _ _ _ _ _ => rfl

/-- A sub-node that is evaluated and kept. -/
theorem remember_still (regular : s.Regular fixed) (still : LowersStill s fixed depth)
    (rule : SubNodeRule) (name : String)
    (hs : ∀ param ∈ rule.params, ∀ reference, param.2.reference? = some reference →
      ∀ σ, Sound s fixed σ → Stands σ.stack node →
        Tracked s fixed depth Correspondence.Answer σ (subNode reference) ∧
          Still s fixed depth σ (subNode reference) (subNode reference))
    (sound : Sound s fixed σ) (stands : Stands σ.stack node) :
    Still s fixed depth σ
      (((s.site rules node output).params subNode rule.params >>= rule.type.plan) >>= fun value =>
        .remember node output name value (.done value))
      (((s.site rules node output).params subNode rule.params >>= rule.type.plan) >>= fun value =>
        .remember node output name value (.done value)) := by
  have sounds := lowersSoundly regular depth
  have traced := fun param hp reference hr σ sound stands =>
    (hs param hp reference hr σ sound stands).1
  have params : Tracked s fixed depth RuleSite.ParamsAlike σ
      ((s.site rules node output).params subNode rule.params) :=
    params_tracked regular sounds rule.params traced sound stands
  have body : Tracked s fixed depth Correspondence.Answer σ
      ((s.site rules node output).params subNode rule.params >>= rule.type.plan) :=
    body_tracked regular sounds rule traced sound stands
  refine still_bind body ?_ fun _ _ _ _ _ _ _ _ => rfl
  refine still_bind params (params_still regular still rule.params hs sound stands)
    fun values values' σ' evolves sound' hvalues => ?_
  exact carryOut_still regular still (RuleSite.typePlan_alike rule.type hvalues) sound'
    (stands.of_extends evolves.stack) rfl

/-- A sub-node adds nothing where it adds nothing without memory, whether it is known or not. -/
theorem subNode_still (regular : s.Regular fixed) (still : LowersStill s fixed depth)
    (hr : s.table.get? (s.graph.kind node) = some rules) (name : String)
    (hn : rules.contains name = true) (sound : Sound s fixed σ) (stands : Stands σ.stack node) :
    Still s fixed depth σ (s.subNode rules node output name) (s.subNode rules node output name) := by
  have sounds := lowersSoundly regular depth
  have accepted : rules.Accepted := regular.rules _ _ hr
  have every : ∀ name, rules.contains name = true → ∀ σ, Sound s fixed σ → Stands σ.stack node →
      Still s fixed depth σ (s.subNode rules node output name) (s.subNode rules node output name) := by
    refine accepted.induction fun name hn ih σ sound stands a run => ?_
    obtain ⟨rule, hrule⟩ := Option.isSome_iff_exists.1 hn
    have eq : (s.site rules node output).fresh (s.subNode rules node output) name = _ :=
      RuleSite.fresh_eq hrule
    have kept : ∀ σ, Sound s fixed σ → Stands σ.stack node → Still s fixed depth σ
        (((s.site rules node output).params (s.subNode rules node output) rule.params >>=
          rule.type.plan) >>= fun value => .remember node output name value (.done value))
        (((s.site rules node output).params (s.subNode rules node output) rule.params >>=
          rule.type.plan) >>= fun value => .remember node output name value (.done value)) := by
      refine fun σ sound stands => remember_still regular still rule name ?_ sound stands
      intro param hp reference href σ sound stands
      have hm : reference ∈ rules.references name := RuleSite.mem_references hrule hp href
      exact ⟨subNode_tracked regular sounds hr reference (accepted.closed name reference hm) sound stands,
        ih reference hm σ sound stands⟩
    rw [evaluate_subNode accepted, eq] at run
    cases found : σ.cache.subNode? ⟨node, output, σ.scope, s.graph.material⟩ name with
    | some value => rw [on_subNode_known _ accepted found]
    | none =>
      rw [on_subNode_unknown _ accepted found, eq]
      cases hw : rule.warn with
      | none =>
        simp only [hw] at run ⊢
        exact kept σ sound stands a run
      | some message =>
        simp only [hw] at run ⊢
        exact kept (σ.noting _) (sound.noting _) stands a run
  exact every name hn σ sound stands

/-! ## Tasks -/

theorem task_still (regular : s.Regular fixed) (still : LowersStill s fixed depth)
    {plan : Plan Value} (h : s.table.task s.graph node output = .plan plan) (sound : Sound s fixed σ)
    (stands : Stands σ.stack node) : Still s fixed depth σ plan plan := by
  rcases task_plan_cases h with ⟨rules, hr, rfl⟩ | alike
  · unfold RuleSite.plan
    split
    · rename_i hn
      exact subNode_still regular still hr output hn sound stands
    · exact fun _ _ => rfl
  · exact carryOut_still regular still (alike False _) sound stands rfl

theorem call_still (regular : s.Regular fixed) (still : LowersStill s fixed depth)
    (sound : Sound s fixed σ) (stands : Stands σ.stack node) {v : Value}
    (run : Reference.call s.graph (Reference.lowerWithin s fixed depth σ.active) σ.scope node output
      σ.recording = (.ok v, σ.recording)) :
    (on (call s.graph (lower s depth) node output) σ).2.recording = σ.recording := by
  rw [on_call]
  unfold Reference.call at run
  cases htree : s.graph.groupTree node with
  | none => rfl
  | some tree =>
    rw [htree] at run
    simp only [any_tree_eq sound.stack] at run ⊢
    split
    · rfl
    rename_i acyclic
    rw [if_neg acyclic] at run
    cases ho : s.graph.groupOutput tree with
    | none => rfl
    | some groupOutput =>
      rw [ho] at run
      have noted := sound.noting (.enteringGroup (s.graph.label node) (σ.stack.length + 1))
      simp only [WalkState.leaving_recording]
      exact still groupOutput output _ (noted.calling htree stands) (regular.stands_groupOutput ho) v
        run

theorem formal_still (regular : s.Regular fixed) (still : LowersStill s fixed depth)
    {name : String} (sound : Sound s fixed σ) (stands : Stands σ.stack node) {v : Value}
    (run : Reference.formal s.graph (Reference.lowerWithin s fixed depth σ.active) σ.scope node name
      σ.recording = (.ok v, σ.recording)) :
    (on (formal s.graph (lower s depth) node name) σ).2.recording = σ.recording := by
  rw [on_formal]
  obtain ⟨recording, cache, stack, active, log⟩ := σ
  cases stack with
  | nil => rfl
  | cons frame around =>
    obtain ⟨-, hsite, -, rest⟩ := sound.stack
    simp only [innermostCall?_of_stands stands]
    cases frame.arguments.get? name with
    | some value => rfl
    | none =>
      have outside : Sound s fixed ⟨recording, cache, around, active, log⟩ := sound.withStack rest
      have argument : Still s fixed depth ⟨recording, cache, around, active, log⟩
          (argument s.graph frame.callSite name) (argument s.graph frame.callSite name) :=
        carryOut_still regular still (argument_alike name) outside hsite rfl
      simp only [Reference.formal, WalkState.scope, List.map_cons] at run
      unfold Still at argument
      generalize (Walk.argument s.graph frame.callSite name).evaluate _ recording = direct
        at run argument
      obtain ⟨failure | found, q⟩ := direct
      · cases run
      obtain ⟨-, rfl⟩ := Prod.mk.inj run
      have same := argument found rfl
      dsimp only
      generalize on (carryOut s.graph (lower s depth) (Walk.argument s.graph frame.callSite name)) _ =
        after at same ⊢
      obtain ⟨failure | value, σ'⟩ := after
      · exact same
      · exact same

/-! ## Outputs -/

theorem expand_still (regular : s.Regular fixed) (still : LowersStill s fixed depth)
    (sound : Sound s fixed σ) (stands : Stands σ.stack node) {v : Value}
    (run : Reference.expandWithin s fixed (Reference.lowerWithin s fixed depth σ.active) σ.scope node
      output σ.recording = (.ok v, σ.recording)) :
    (on (expand s (lower s depth) node output) σ).2.recording = σ.recording := by
  have allowed : fixed ⟨node, output, σ.scope, s.graph.material⟩ := by
    by_contra stopped
    rw [Reference.expandWithin, Direct.only_neg stopped] at run
    cases run
  rw [Reference.expandWithin, Direct.only_pos allowed] at run
  rw [on_expand]
  unfold Reference.expand at run
  cases hb : bypass? s.graph node with
  | some plan =>
    rw [hb] at run
    exact carryOut_still regular still (bypass?_alike hb) sound stands rfl v run
  | none =>
    rw [hb] at run
    have noted := sound.noting (.visiting (s.graph.kind node) (s.graph.label node) output)
    dsimp only at run ⊢
    cases ht : s.table.task s.graph node output with
    | plan plan =>
      rw [ht] at run
      exact task_still regular still ht noted stands v run
    | call =>
      rw [ht] at run
      exact call_still regular still noted stands run
    | formal =>
      rw [ht] at run
      exact formal_still regular still noted stands run

/-- Down to any depth, a walk adds nothing where lowering without memory adds nothing. -/
theorem lowersStill (regular : s.Regular fixed) (depth : Nat) : LowersStill s fixed depth := by
  induction depth with
  | zero => exact fun node output σ _ _ v run => by cases run
  | succ depth ih =>
    intro node output σ sound stands v run
    have step : lower s (depth + 1) node output = step s (lower s depth) node output := rfl
    rw [step, on_step]
    dsimp only
    cases found : σ.cache.get? ⟨node, output, σ.scope, s.graph.material⟩ with
    | some value => rfl
    | none =>
      dsimp only
      split
      · rfl
      · rename_i unmet
        simp only [Reference.lowerWithin, if_neg unmet] at run
        have same := expand_still regular ih (sound.entered found) stands
          run
        generalize on (expand s (lower s depth) node output) _ = after at same ⊢
        obtain ⟨failure | value, σ'⟩ := after
        · exact same
        · exact same

end Walk

end MaterialLowering
