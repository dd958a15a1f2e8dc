import MaterialLowering.Proofs.Walks.Memory

/-!
# Sound walks

Every step of the walk keeps the state sound. What a step puts into the cache is derived from what
the cache held before, and a step that fails fails as lowering without memory does: the outputs that
are being lowered are the path of the outputs that wait for one another there, and the calls on the
stack are the calls that it carries along.

Results:
* `Walk.expand_mirrors`: one output, given how others are lowered.
* `Walk.lowersSoundly`: every output, down to any depth.
-/

namespace MaterialLowering

open Walk (on)

variable {s : Setting} {fixed : Key → Prop} {depth : Nat} {node : NodeId} {σ : WalkState}

/-- A run that keeps the state sound and comes to what a direct computation comes to, where outputs
    are found as the cache says in the end. Where the run fails, they are found by lowering without
    memory. -/
structure Mirrors (s : Setting) (fixed : Key → Prop) (depth : Nat) (σ : WalkState)
    (run : Except Failure Value × WalkState) (direct : Reference.Visit → Direct Value) : Prop where
  kept : Kept s fixed Correspondence.Answer run
  agrees : ∀ visit, Answers run.2.recording run.2.cache.outputs.entries visit →
    (∀ failure, run.1 = .error failure → visit = Reference.lowerWithin s fixed depth σ.active) →
    ∀ q : Recording, q.failing = σ.recording.failing →
      Agrees Correspondence.Answer run.2.recording q run.1 (direct visit q)

namespace Mirrors

variable {direct : Reference.Visit → Direct Value} {run : Except Failure Value × WalkState}

/-- A failure that leaves the state as it is. -/
theorem fail (sound : Sound s fixed σ) (failure : Failure)
    (h : ∀ visit q, direct visit q = (.error failure, q)) :
    Mirrors s fixed depth σ (.error failure, σ) direct :=
  ⟨⟨sound, fun a ha => by cases ha⟩, fun visit _ _ q _ => by rw [h]; exact .error⟩

theorem only (h : Mirrors s fixed depth σ run direct) (allowed : Prop) :
    Mirrors s fixed depth σ run (fun visit => (direct visit).only allowed) :=
  ⟨h.kept, fun visit answers fails q hq => .only fun _ => h.agrees visit answers fails q hq⟩

/-- What an ending value is derived from. -/
theorem derived (h : Mirrors s fixed depth σ run direct) (evolves : σ.Evolves run.2) {v : Value}
    (hv : run.1 = .ok v) : Derived run.2.recording run.2.cache.outputs.entries direct v := by
  refine ⟨h.kept.valid v hv, fun visit answers q hq => ?_⟩
  have agrees := h.agrees visit answers (fun failure hf => by rw [hv] at hf; cases hf) q
    (hq.trans evolves.recording.failing)
  rwa [hv] at agrees

end Mirrors

theorem Tracked.mirrors {plan : Plan Value} (h : Tracked s fixed depth Correspondence.Answer σ plan) :
    Mirrors s fixed depth σ (on (Walk.carryOut s.graph (Walk.lower s depth) plan) σ)
      (fun visit => plan.evaluate (visit σ.scope)) :=
  ⟨h.kept, fun visit answers fails q hq => h.agreeing q hq visit answers fails⟩

namespace Sound

/-- A call is left. -/
theorem leaving (g : HostGraph) (h : Sound s fixed σ) : Sound s fixed (σ.leaving g) := by
  refine ⟨?_, ?_, ?_, ?_⟩
  · simpa using h.outputs
  · simpa using h.waiting
  · simpa using h.subNodes
  · have stack := h.stack
    simp only [WalkState.leaving_recording, WalkState.leaving_cache, WalkState.leaving_stack]
    cases hs : σ.stack with
    | nil => trivial
    | cons frame around =>
      rw [hs] at stack
      exact stack.2.2.2

/-- The walk steps back into a call. -/
theorem resumed {frame : Frame} {around : List Frame} (h : Sound s fixed σ)
    (hs : StackExtends around σ.stack) (tree : s.graph.groupTree frame.callSite = some frame.tree)
    (stands : Stands around frame.callSite)
    (arguments : ArgumentsDerived s fixed σ.recording σ.cache.outputs.entries frame
      (around.map Frame.callSite)) :
    Sound s fixed { σ with stack := frame :: σ.stack } := by
  rw [← hs.callSites] at arguments
  exact h.withStack ⟨tree, stands.of_extends hs, arguments, h.stack⟩

/-- The walk steps into a group. -/
theorem calling (h : Sound s fixed σ) {tree : TreeId} (ht : s.graph.groupTree node = some tree)
    (stands : Stands σ.stack node) :
    Sound s fixed { σ with stack := ⟨node, tree, .empty⟩ :: σ.stack } := by
  have noArguments : ArgumentsDerived s fixed σ.recording σ.cache.outputs.entries ⟨node, tree, .empty⟩
      σ.scope := fun _ _ h => by cases h
  exact h.withStack ⟨ht, stands, noArguments, h.stack⟩

/-- The lowering of an output that failed is over. -/
theorem failed {key : Key} {waiting : List Key} (h : Sound s fixed σ)
    (active : σ.active = key :: waiting) :
    Sound s fixed { σ with active := σ.active.erase key } := by
  refine ⟨h.outputs, ?_, h.subNodes, h.stack⟩
  have apart := h.waiting
  rw [active] at apart
  simpa [active] using (List.forall_mem_cons.1 apart).2

/-- The value of an output whose lowering is over enters the cache. -/
theorem put {output : String} {scope : List NodeId} {waiting : List Key} {value : Value}
    (h : Sound s fixed σ)
    (active : σ.active = ⟨node, output, scope, s.graph.material⟩ :: waiting)
    (unmet : ⟨node, output, scope, s.graph.material⟩ ∉ waiting)
    (derived : Derived σ.recording σ.cache.outputs.entries (fun visit =>
      Reference.expandWithin s fixed visit scope node output) value) :
    Sound s fixed { σ with
      active := waiting
      cache := σ.cache.put ⟨node, output, scope, s.graph.material⟩ value } := by
  have apart := h.waiting
  rw [active] at apart
  obtain ⟨older, others⟩ := List.forall_mem_cons.1 apart
  have more := List.subset_cons_self
    ((⟨node, output, scope, s.graph.material⟩ : Key), value) σ.cache.outputs.entries
  have entries : (σ.cache.put ⟨node, output, scope, s.graph.material⟩ value).outputs.entries =
      (⟨node, output, scope, s.graph.material⟩, value) :: σ.cache.outputs.entries :=
    Memo.entries_put_of_get?_eq_none value (Memo.get?_eq_none.2 older)
  refine ⟨?_, fun key hk => ?_, ?_, ?_⟩ <;> dsimp only <;> rw [entries]
  · exact .cons h.outputs older derived
  · refine List.forall_mem_cons.2 ⟨?_, others key hk⟩
    rintro rfl
    exact unmet hk
  · exact h.subNodes.mono (.refl _) more h.valid
  · exact h.stack.mono (.refl _) more h.valid

end Sound

/-- An argument that is derived is kept in its frame. -/
theorem ArgumentsDerived.put {r : Recording} {entries : List (Key × Value)} {frame : Frame}
    {around : List NodeId} {name : String} {value : Value}
    (h : ArgumentsDerived s fixed r entries frame around)
    (derived : ∀ groupInput : NodeId, s.graph.IsGroupInput groupInput →
      groupInput.tree = frame.tree → Derived r entries (fun visit =>
        (Reference.formal s.graph visit (frame.callSite :: around) groupInput name).only
          (fixed ⟨groupInput, name, frame.callSite :: around, s.graph.material⟩)) value) :
    ArgumentsDerived s fixed r entries { frame with arguments := frame.arguments.put name value }
      around := by
  intro formal v hv groupInput hk ht
  rw [Memo.get?_put] at hv
  split at hv
  · rename_i hname
    obtain rfl := hname
    obtain rfl := Option.some.inj hv
    exact derived groupInput hk ht
  · exact h formal v hv groupInput hk ht

/-- The output node of a group stands inside its call. -/
theorem Setting.Regular.stands_groupOutput (regular : s.Regular fixed) {tree : TreeId}
    {groupOutput : NodeId} (ho : s.graph.groupOutput tree = some groupOutput) {stack : List Frame} :
    Stands (⟨node, tree, .empty⟩ :: stack) groupOutput := by
  intro frame hf
  obtain rfl := Option.some.inj hf
  exact regular.groupOutput tree groupOutput ho

namespace Walk

/-! ## Tasks -/

theorem task_tracked (regular : s.Regular fixed) (hv : LowersSoundly s fixed depth) {output : String}
    {plan : Plan Value} (h : s.table.task s.graph node output = .plan plan) (sound : Sound s fixed σ)
    (stands : Stands σ.stack node) : Tracked s fixed depth Correspondence.Answer σ plan := by
  rcases task_plan_cases h with ⟨rules, hr, rfl⟩ | alike
  · unfold RuleSite.plan
    split
    · rename_i hn
      exact subNode_tracked regular hv hr output hn sound stands
    · have unset : ∀ w, Plan.Agree (s.graph.Feeds node) False w (.done .unset) (.done .unset) :=
        fun w => .done .unset
      exact report_tracked (tracked_of_alike regular hv unset (sound.noting _) stands)
  · exact tracked_of_alike regular hv (alike False) sound stands

/-! ## Groups -/

/-- An output, where outputs are found as the cache says. -/
theorem lower_mirrors (hv : LowersSoundly s fixed depth) (output : String) (sound : Sound s fixed σ)
    (stands : Stands σ.stack node) :
    Mirrors s fixed depth σ (on (lower s depth node output) σ)
      (fun visit => visit σ.scope node output) := by
  obtain ⟨sound', found, failed⟩ := hv node output σ sound stands
  have evolves := lower_evolves s depth node output σ
  generalize on (lower s depth node output) σ = run at sound' found failed evolves ⊢
  obtain ⟨failure | v, σ'⟩ := run
  · refine ⟨⟨sound', fun a ha => by cases ha⟩, fun visit _ fails q hq => ?_⟩
    obtain rfl := fails failure rfl
    exact (failed failure rfl q hq).failed
  · refine ⟨⟨sound', fun a ha => sound'.valid _ (found a ha)⟩, fun visit answers _ q hq => ?_⟩
    exact answers _ (found v rfl) q (hq.trans evolves.recording.failing.symm)

theorem any_tree_eq {r : Recording} {entries : List (Key × Value)} {stack : List Frame}
    (h : StackDerived s fixed r entries stack) (tree : TreeId) :
    (stack.any fun frame => frame.tree = tree) =
      (stack.map Frame.callSite).any fun other => s.graph.groupTree other = some tree := by
  induction stack with
  | nil => rfl
  | cons frame around ih =>
    obtain ⟨hframe, -, -, rest⟩ := h
    simp [hframe, ih rest]

theorem call_mirrors (regular : s.Regular fixed) (hv : LowersSoundly s fixed depth) (output : String)
    (sound : Sound s fixed σ) (stands : Stands σ.stack node) :
    Mirrors s fixed depth σ (on (call s.graph (lower s depth) node output) σ)
      (fun visit => Reference.call s.graph visit σ.scope node output) := by
  rw [on_call]
  unfold Reference.call
  cases htree : s.graph.groupTree node with
  | none => exact .fail sound _ fun _ _ => rfl
  | some tree =>
    simp only [any_tree_eq sound.stack]
    split
    · exact .fail sound _ fun _ _ => rfl
    have noted := sound.noting (.enteringGroup (s.graph.label node) (σ.stack.length + 1))
    cases ho : s.graph.groupOutput tree with
    | none => exact ⟨⟨noted, fun a ha => by cases ha⟩, fun _ _ _ _ _ => .error⟩
    | some groupOutput =>
      obtain ⟨kept, agrees⟩ := lower_mirrors hv output (noted.calling htree stands)
        (regular.stands_groupOutput ho)
      refine ⟨⟨kept.sound.leaving s.graph, fun a ha => ?_⟩, fun visit answers fails q hq => ?_⟩
      · simpa using kept.valid a ha
      · simp only [WalkState.leaving_recording, WalkState.leaving_cache] at answers ⊢
        exact agrees visit answers fails q hq

/-- The innermost call is the one that the node stands in. -/
theorem innermostCall?_of_stands {frame : Frame} {around : List Frame} {groupInput : NodeId}
    (h : Stands (frame :: around) groupInput) :
    innermostCall? groupInput.tree (frame :: around) = some ([], frame, around) :=
  innermostCall?_cons_self around (h frame rfl).symm

/-- The value of a formal inside a call is derived from its argument around the call, whichever
    fixed node of the group asks for it: they all have one default. -/
theorem argument_derived (regular : s.Regular fixed) {callSite groupInput : NodeId}
    {tree : TreeId} {name : String} (htree : s.graph.groupTree callSite = some tree)
    (hk : s.graph.IsGroupInput groupInput) (ht : groupInput.tree = tree)
    (h : Tracked s fixed depth Correspondence.Answer σ (argument s.graph callSite name))
    (found : Value)
    (hfound : (on (carryOut s.graph (lower s depth) (argument s.graph callSite name)) σ).1 =
      .ok found)
    (other : NodeId) (hk' : s.graph.IsGroupInput other) (ht' : other.tree = tree) :
    Derived (on (carryOut s.graph (lower s depth) (argument s.graph callSite name)) σ).2.recording
      (on (carryOut s.graph (lower s depth)
        (argument s.graph callSite name)) σ).2.cache.outputs.entries
      (fun visit => (Reference.formal s.graph visit (callSite :: σ.scope) other name).only
        (fixed ⟨other, name, callSite :: σ.scope, s.graph.material⟩))
      (found.or (.ofLanes? (s.graph.outputDefault groupInput name))) := by
  refine ⟨(h.kept.valid found hfound).or (.ofLanes? _),
    fun visit answers q hq => .only fun hfixed => ?_⟩
  have evolves := carryOut_evolves (g := s.graph) (lower_evolves s depth)
    (argument s.graph callSite name) σ
  have default := regular.formals callSite tree htree groupInput other hk hk' ht ht' name _ hfixed
  have agrees := h.agreeing q (hq.trans evolves.recording.failing) visit answers fun failure hf => by
    rw [hfound] at hf
    cases hf
  rw [hfound] at agrees
  rw [Reference.formal_cons, ← default]
  exact agrees.goesOn fun v' q' _ answer => .ok (.refl q') (answer.or (.ofLanes? _))

theorem formal_mirrors (regular : s.Regular fixed) (hv : LowersSoundly s fixed depth)
    {groupInput : NodeId} (name : String) (hk : s.graph.IsGroupInput groupInput) (sound : Sound s fixed σ)
    (stands : Stands σ.stack groupInput) :
    Mirrors s fixed depth σ (on (formal s.graph (lower s depth) groupInput name) σ)
      (fun visit => (Reference.formal s.graph visit σ.scope groupInput name).only
        (fixed ⟨groupInput, name, σ.scope, s.graph.material⟩)) := by
  rw [on_formal]
  obtain ⟨recording, cache, stack, active, log⟩ := σ
  cases stack with
  | nil => exact (Mirrors.fail sound _ fun _ _ => rfl).only _
  | cons frame around =>
    obtain ⟨htree, hsite, arguments, rest⟩ := sound.stack
    have ht : groupInput.tree = frame.tree := stands frame rfl
    simp only [innermostCall?_of_stands stands]
    cases hf : frame.arguments.get? name with
    | some value =>
      have derived := arguments name value hf groupInput hk ht
      refine ⟨⟨sound, fun a ha => by cases ha; exact derived.valid⟩, ?_⟩
      exact fun visit answers _ q hq => derived.yields visit answers q hq
    | none =>
      have outside : Sound s fixed ⟨recording, cache, around, active, log⟩ := sound.withStack rest
      have alike : ∀ w, Plan.Agree (s.graph.Feeds frame.callSite) False w
          (argument s.graph frame.callSite name) (argument s.graph frame.callSite name) :=
        fun w => argument_alike name
      have tracked := tracked_of_alike regular hv alike outside hsite
      have derived := argument_derived regular htree hk ht tracked
      obtain ⟨⟨sound', -⟩, agreeing⟩ := tracked
      have evolves := carryOut_evolves (g := s.graph) (lower_evolves s depth)
        (argument s.graph frame.callSite name) ⟨recording, cache, around, active, log⟩
      have known := arguments.mono evolves.recording evolves.cache_subset sound.valid
      have stack' := evolves.stack
      unfold Agreeing at agreeing
      dsimp only
      generalize on (carryOut s.graph (lower s depth) (argument s.graph frame.callSite name))
        ⟨recording, cache, around, active, log⟩ = run at sound' derived agreeing evolves known stack' ⊢
      obtain ⟨failure | found, σ'⟩ := run
      · refine ⟨⟨sound'.resumed stack' htree hsite known, fun a ha => by cases ha⟩,
          fun visit answers fails q hq => .only fun _ => ?_⟩
        have agrees := agreeing q hq visit answers fun _ _ => fails failure rfl
        simp only [WalkState.scope, List.map_cons, Reference.formal_cons]
        exact agrees.stays _
      · have derived := derived found rfl
        have asked := derived groupInput hk ht
        refine ⟨⟨sound'.resumed stack' htree hsite (known.put derived), fun a ha => ?_⟩,
          fun visit answers _ q hq => ?_⟩
        · cases ha
          exact asked.valid
        · exact asked.yields visit answers q (hq.trans evolves.recording.failing.symm)

/-! ## Outputs -/

theorem expand_mirrors (regular : s.Regular fixed) (hv : LowersSoundly s fixed depth) (output : String)
    (sound : Sound s fixed σ) (stands : Stands σ.stack node) :
    Mirrors s fixed depth σ (on (expand s (lower s depth) node output) σ)
      (fun visit => Reference.expandWithin s fixed visit σ.scope node output) := by
  rw [on_expand]
  unfold Reference.expandWithin Reference.expand
  cases hb : bypass? s.graph node with
  | some plan =>
    have alike : ∀ w, Plan.Agree (s.graph.Feeds node) False w plan plan := fun w => bypass?_alike hb
    exact (tracked_of_alike regular hv alike sound stands).mirrors.only _
  | none =>
    have noted := sound.noting (.visiting (s.graph.kind node) (s.graph.label node) output)
    dsimp only
    cases ht : s.table.task s.graph node output with
    | plan plan =>
      obtain ⟨kept, agreeing⟩ := task_tracked regular hv ht noted stands
      exact ⟨kept, fun visit answers fails q hq => .only fun _ =>
        agreeing q hq visit answers fails⟩
    | call =>
      obtain ⟨kept, agrees⟩ := (call_mirrors regular hv output noted stands).only _
      exact ⟨kept, agrees⟩
    | formal =>
      obtain ⟨kept, agrees⟩ := formal_mirrors regular hv output ⟨kind_of_task_formal ht, hb⟩ noted
        stands
      exact ⟨kept, agrees⟩

/-- A step deeper. -/
theorem step_sound (regular : s.Regular fixed) (hv : LowersSoundly s fixed depth) :
    LowersSoundly s fixed (depth + 1) := by
  intro node output σ sound stands
  have step : lower s (depth + 1) node output = step s (lower s depth) node output := rfl
  rw [step, on_step]
  dsimp only
  cases found : σ.cache.get? ⟨node, output, σ.scope, s.graph.material⟩ with
  | some value =>
    refine ⟨sound, fun v hv => ?_, fun failure hf => by cases hf⟩
    cases hv
    exact Memo.mem_entries_of_get? found
  | none =>
    dsimp only
    split
    · rename_i waits
      refine ⟨sound, fun v hv => (by cases hv), fun failure hf q _ => ?_⟩
      cases hf
      simp only [Reference.lowerWithin, if_pos waits]
      exact .error
    · rename_i unmet
      have mirrors := expand_mirrors regular hv output (sound.entered found) stands
      have evolves := expand_evolves s (lower_evolves s depth) node output
        { σ with active := ⟨node, output, σ.scope, s.graph.material⟩ :: σ.active }
      generalize on (expand s (lower s depth) node output)
        { σ with active := ⟨node, output, σ.scope, s.graph.material⟩ :: σ.active } = run
        at mirrors evolves ⊢
      obtain ⟨result, σ'⟩ := run
      have active : σ'.active = ⟨node, output, σ.scope, s.graph.material⟩ :: σ.active :=
        evolves.active
      have sound' : Sound s fixed σ' := mirrors.kept.sound
      cases result with
      | error failure =>
        refine ⟨sound'.failed active, fun v hv => (by cases hv), fun failure' hf q hq => ?_⟩
        cases hf
        -- What was being lowered around the failure is not in the cache.
        have waiting := sound'.waiting
        rw [active] at waiting
        have answers := sound'.outputs.answers depth _ waiting
        simp only [Reference.lowerWithin, if_neg unmet]
        exact (mirrors.agrees _ answers (fun _ _ => rfl) q hq).failed
      | ok value =>
        have derived := mirrors.derived evolves rfl
        have erased : σ'.active.erase ⟨node, output, σ.scope, s.graph.material⟩ = σ.active := by
          rw [active, List.erase_cons_head]
        simp only [erased]
        refine ⟨sound'.put active unmet derived, fun v hv => ?_, fun failure hf => (by cases hf)⟩
        cases hv
        exact Memo.mem_entries_of_get? (by simp [Memo.get?_put, Cache.put])

/-- Outputs are lowered soundly down to any depth. -/
theorem lowersSoundly (regular : s.Regular fixed) (depth : Nat) : LowersSoundly s fixed depth := by
  induction depth with
  | zero =>
    refine fun node output σ sound _ => ⟨sound, fun v hv => (by cases hv), fun failure hf q _ => ?_⟩
    exact .tooDeep trivial
  | succ depth ih => exact step_sound regular ih

end Walk

end MaterialLowering
