import MaterialLowering.Proofs.Walks.Derivation

/-!
# What a walk remembers

The state of a walk is *sound* when everything that it remembers is derived from the outputs in its
cache: those outputs themselves, the sub-nodes of rules, and the arguments of the calls on the
stack. Soundness is kept by every computation of the walk, and a computation agrees with the one
that remembers nothing.

Results:
* `Walk.carryOut_kept`, `Walk.carryOut_agreeing`: plans that keep nothing of sub-nodes.
* `Walk.subNode_tracked`: sub-nodes of rules.
-/

namespace MaterialLowering

open Walk (on)

/-! ## Sound states -/

/-- A group-input node that is not bypassed. -/
def HostGraph.IsGroupInput (g : HostGraph) (node : NodeId) : Prop :=
  g.kind node = .groupInput ∧ bypass? g node = none

/-- What the walk relies on: rules are accepted, links and calls do not leave a tree in other ways
    than into the group that is called, and a formal that is fixed has the same default in the whole
    group. -/
structure Setting.Regular (s : Setting) (fixed : Key → Prop) : Prop where
  rules : ∀ kind rules, s.table.get? kind = some rules → rules.Accepted
  feeds : ∀ node source output, s.graph.Feeds node source output → source.tree = node.tree
  groupOutput : ∀ tree node, s.graph.groupOutput tree = some node → node.tree = tree
  formals : ∀ callSite tree, s.graph.groupTree callSite = some tree → ∀ a b : NodeId,
    s.graph.IsGroupInput a → s.graph.IsGroupInput b → a.tree = tree → b.tree = tree →
    ∀ name scope, fixed ⟨b, name, scope, s.graph.material⟩ →
      s.graph.outputDefault a name = s.graph.outputDefault b name

/-- Inside a call, the node is in the tree that is called. -/
def Stands (stack : List Frame) (node : NodeId) : Prop :=
  ∀ frame, stack.head? = some frame → node.tree = frame.tree

/-- An output whose kind has an entry, as a place where its rules are applied. -/
def Setting.site (s : Setting) (rules : NodeRules) (node : NodeId) (output : String) : RuleSite :=
  ⟨s.graph, s.graph.kind node, rules, node, output⟩

/-- The plan of a sub-node of an entry. -/
abbrev Setting.subNode (s : Setting) (rules : NodeRules) (node : NodeId) (output : String) :
    String → Plan Value := RuleSite.subNode (s.site rules node output) (rules.size + 1)

variable {s : Setting} {fixed : Key → Prop}

/-- The values of sub-nodes are derived. -/
def SubNodesDerived (s : Setting) (r : Recording) (entries : List (Key × Value))
    (subNodes : Memo (Key × String) Value) : Prop :=
  ∀ node output scope name v,
    subNodes.get? (⟨node, output, scope, s.graph.material⟩, name) = some v →
    ∀ rules, s.table.get? (s.graph.kind node) = some rules →
      Derived r entries (fun visit =>
        (s.subNode rules node output name).evaluate (visit scope)) v

/-- The arguments of a call inside the calls `around` are derived, whichever fixed node asks for
    them. -/
def ArgumentsDerived (s : Setting) (fixed : Key → Prop) (r : Recording) (entries : List (Key × Value))
    (frame : Frame) (around : List NodeId) : Prop :=
  ∀ name v, frame.arguments.get? name = some v → ∀ groupInput : NodeId,
    s.graph.IsGroupInput groupInput → groupInput.tree = frame.tree →
      Derived r entries (fun visit =>
        (Reference.formal s.graph visit (frame.callSite :: around) groupInput name).only
          (fixed ⟨groupInput, name, frame.callSite :: around, s.graph.material⟩)) v

/-- Every call on the stack is where it can be, and its arguments are derived. -/
def StackDerived (s : Setting) (fixed : Key → Prop) (r : Recording) (entries : List (Key × Value)) :
    List Frame → Prop
  | [] => True
  | frame :: around =>
    s.graph.groupTree frame.callSite = some frame.tree ∧ Stands around frame.callSite ∧
      ArgumentsDerived s fixed r entries frame (around.map Frame.callSite) ∧
      StackDerived s fixed r entries around

/-- Everything that the walk remembers is derived from the outputs in its cache, and no output in
    the cache is still being lowered. -/
structure Sound (s : Setting) (fixed : Key → Prop) (σ : WalkState) : Prop where
  outputs : Grounded s fixed σ.recording σ.cache.outputs.entries
  waiting : ∀ key ∈ σ.active, ∀ e ∈ σ.cache.outputs.entries, e.1 ≠ key
  subNodes : SubNodesDerived s σ.recording σ.cache.outputs.entries σ.cache.subNodes
  stack : StackDerived s fixed σ.recording σ.cache.outputs.entries σ.stack

section

variable {r r' : Recording} {entries entries' : List (Key × Value)}

theorem SubNodesDerived.mono {subNodes : Memo (Key × String) Value}
    (h : SubNodesDerived s r entries subNodes) (hr : r.Extends r') (he : entries ⊆ entries')
    (hv : ∀ e ∈ entries, r.Valid e.2) : SubNodesDerived s r' entries' subNodes :=
  fun node output scope name v hm rules hk =>
    (h node output scope name v hm rules hk).mono hr he hv

theorem ArgumentsDerived.mono {frame : Frame} {around : List NodeId}
    (h : ArgumentsDerived s fixed r entries frame around) (hr : r.Extends r') (he : entries ⊆ entries')
    (hv : ∀ e ∈ entries, r.Valid e.2) : ArgumentsDerived s fixed r' entries' frame around :=
  fun name v hm groupInput hk ht => (h name v hm groupInput hk ht).mono hr he hv

theorem StackDerived.mono {stack : List Frame} (h : StackDerived s fixed r entries stack)
    (hr : r.Extends r') (he : entries ⊆ entries') (hv : ∀ e ∈ entries, r.Valid e.2) :
    StackDerived s fixed r' entries' stack := by
  induction stack with
  | nil => trivial
  | cons frame around ih =>
    obtain ⟨tree, stands, arguments, rest⟩ := h
    exact ⟨tree, stands, arguments.mono hr he hv, ih rest⟩

end

namespace Sound

variable {σ : WalkState}

theorem valid (h : Sound s fixed σ) : ∀ e ∈ σ.cache.outputs.entries, σ.recording.Valid e.2 :=
  h.outputs.valid

theorem recorded (h : Sound s fixed σ) {r : Recording} (hr : σ.recording.Extends r) :
    Sound s fixed { σ with recording := r } :=
  have same := List.Subset.refl σ.cache.outputs.entries
  ⟨h.outputs.mono hr, h.waiting, h.subNodes.mono hr same h.valid, h.stack.mono hr same h.valid⟩

theorem noting (h : Sound s fixed σ) (notice : Notice) : Sound s fixed (σ.noting notice) :=
  ⟨h.outputs, h.waiting, h.subNodes, h.stack⟩

theorem withStack (h : Sound s fixed σ) {stack : List Frame}
    (hs : StackDerived s fixed σ.recording σ.cache.outputs.entries stack) :
    Sound s fixed { σ with stack } := ⟨h.outputs, h.waiting, h.subNodes, hs⟩

/-- An output that is not in the cache may begin to be lowered. -/
theorem entered (h : Sound s fixed σ) {key : Key} (hk : σ.cache.get? key = none) :
    Sound s fixed { σ with active := key :: σ.active } :=
  ⟨h.outputs, List.forall_mem_cons.2 ⟨Memo.get?_eq_none.1 hk, h.waiting⟩, h.subNodes, h.stack⟩

end Sound

/-! ## Depth by depth -/

/-- Outputs are lowered soundly down to a depth: the state stays sound, a value is in the cache, and
    where lowering fails, lowering without memory fails in the same way. -/
def LowersSoundly (s : Setting) (fixed : Key → Prop) (depth : Nat) : Prop :=
  ∀ node output σ, Sound s fixed σ → Stands σ.stack node →
    Sound s fixed (on (Walk.lower s depth node output) σ).2 ∧
    (∀ v, (on (Walk.lower s depth node output) σ).1 = .ok v →
      (⟨node, output, σ.scope, s.graph.material⟩, v) ∈
        (on (Walk.lower s depth node output) σ).2.cache.outputs.entries) ∧
    ∀ failure, (on (Walk.lower s depth node output) σ).1 = .error failure →
      ∀ q : Recording, q.failing = σ.recording.failing →
        Agrees Correspondence.Answer σ.recording q (.error failure)
          (Reference.lowerWithin s fixed depth σ.active σ.scope node output q)

/-- A run that leaves a sound state, and comes to a result that unfolds to trees. -/
structure Kept (s : Setting) (fixed : Key → Prop) {α : Type} (P : Correspondence → α → α → Prop)
    (run : Except Failure α × WalkState) : Prop where
  sound : Sound s fixed run.2
  valid : ∀ a, run.1 = .ok a → P (run.2.recording.unfolding run.2.recording) a a

/-- Carrying `p` out agrees with carrying `p'` out from `q` without memory, where outputs are found as
    the cache says in the end. Where `p` fails, they are found by lowering without memory. -/
def Agreeing (s : Setting) (fixed : Key → Prop) (depth : Nat) {α : Type}
    (P : Correspondence → α → α → Prop) (σ : WalkState) (p p' : Plan α) (q : Recording) : Prop :=
  ∀ visit,
    Answers (on (Walk.carryOut s.graph (Walk.lower s depth) p) σ).2.recording
      (on (Walk.carryOut s.graph (Walk.lower s depth) p) σ).2.cache.outputs.entries visit →
    (∀ failure, (on (Walk.carryOut s.graph (Walk.lower s depth) p) σ).1 = .error failure →
      visit = Reference.lowerWithin s fixed depth σ.active) →
    Agrees P (on (Walk.carryOut s.graph (Walk.lower s depth) p) σ).2.recording q
      (on (Walk.carryOut s.graph (Walk.lower s depth) p) σ).1 (p'.evaluate (visit σ.scope) q)

/-- A plan that keeps the state sound, comes to a result that unfolds to trees, and agrees with
    carrying it out without memory. -/
structure Tracked (s : Setting) (fixed : Key → Prop) (depth : Nat) {α : Type}
    (P : Correspondence → α → α → Prop) (σ : WalkState) (plan : Plan α) : Prop where
  kept : Kept s fixed P (on (Walk.carryOut s.graph (Walk.lower s depth) plan) σ)
  agreeing : ∀ q : Recording, q.failing = σ.recording.failing → Agreeing s fixed depth P σ plan plan q

theorem Stands.of_extends {stack stack' : List Frame} {node : NodeId} (h : Stands stack node)
    (hs : StackExtends stack stack') : Stands stack' node := by
  cases hs with
  | nil => exact h
  | @cons f f' _ _ hf _ =>
    intro frame hframe
    obtain rfl : f' = frame := by simpa using hframe
    exact (h f rfl).trans hf.tree.symm

/-- Nodes of one tree stand together. -/
theorem Stands.of_tree {stack : List Frame} {node other : NodeId} (h : Stands stack node)
    (same : other.tree = node.tree) : Stands stack other := fun frame hf => same.trans (h frame hf)

namespace Walk

variable {depth : Nat} {node : NodeId} {α : Type}

/-! ## Plans that keep nothing -/

/-- A plan whose values unfold to trees keeps the state sound and comes to such a value. -/
theorem carryOut_kept (regular : s.Regular fixed) (hv : LowersSoundly s fixed depth)
    {P : Correspondence → α → α → Prop} {w : Correspondence} {p q : Plan α}
    (h : Plan.Alike (s.graph.Feeds node) False P w p q) (hpq : p = q) {σ : WalkState}
    (sound : Sound s fixed σ) (stands : Stands σ.stack node)
    (hw : w = σ.recording.unfolding σ.recording) :
    Kept s fixed P (on (carryOut s.graph (lower s depth) p) σ) := by
  induction h generalizing σ with
  | done h =>
    subst hw
    cases hpq
    exact ⟨sound, fun a ha => by cases ha; exact h⟩
  | fail => exact ⟨sound, fun a ha => by cases ha⟩
  | @visit w source output next next' asked _ ih =>
    obtain rfl : next = next' := by injection hpq
    have within : Stands σ.stack source := stands.of_tree (regular.feeds node source output asked)
    obtain ⟨sound', found, -⟩ := hv source output σ sound within
    have evolves := lower_evolves s depth source output σ
    simp only [carryOut, on_bind]
    generalize on (lower s depth source output) σ = run at sound' found evolves ⊢
    obtain ⟨_ | v, σ'⟩ := run
    · exact ⟨sound', fun a ha => by cases ha⟩
    · have valid := sound'.valid _ (found v rfl)
      refine ih _ ?_ v v valid rfl sound' (stands.of_extends evolves.stack) rfl
      exact hw ▸ Recording.unfolding_mono evolves.recording evolves.recording
  | @create w kind ps qs next next' params _ ih =>
    obtain ⟨rfl, rfl⟩ : ps = qs ∧ next = next' := by
      injection hpq with _ hps hnext
      exact ⟨hps, hnext⟩
    subst hw
    have he := σ.recording.create_extends kind ps
    exact ih _ (Recording.unfolding_mono he he) _ _ (Recording.unfolding_created params) rfl
      (sound.recorded he) stands rfl
  | @image w descriptor next next' _ ih =>
    obtain rfl : next = next' := by injection hpq
    subst hw
    have he := σ.recording.materialize_extends descriptor
    exact ih _ (Recording.unfolding_mono he he) _ _ (Recording.unfolding_materialized rfl descriptor)
      rfl (sound.recorded he) stands rfl
  | @report w notice next next' _ _ ih =>
    obtain rfl : next = next' := by injection hpq
    exact ih rfl (sound.noting notice) stands hw
  | known h => exact h.elim
  | remember h => exact h.elim

/-- A plan agrees with an alike one that is carried out without memory. -/
theorem carryOut_agreeing (regular : s.Regular fixed) (hv : LowersSoundly s fixed depth)
    {P : Correspondence → α → α → Prop} {w : Correspondence} {p p' : Plan α}
    (h : Plan.Alike (s.graph.Feeds node) False P w p p') {σ : WalkState} {q : Recording}
    (sound : Sound s fixed σ) (stands : Stands σ.stack node) (hw : w = σ.recording.unfolding q)
    (hq : q.failing = σ.recording.failing) : Agreeing s fixed depth P σ p p' q := by
  intro visit answers fails
  induction h generalizing σ q visit with
  | done h =>
    subst hw
    exact .ok (.refl q) h
  | fail => exact .error
  | @visit w source output next next' asked _ ih =>
    have within : Stands σ.stack source := stands.of_tree (regular.feeds node source output asked)
    obtain ⟨sound', found, failed⟩ := hv source output σ sound within
    have evolves := lower_evolves s depth source output σ
    simp only [carryOut, on_bind] at answers fails ⊢
    generalize on (lower s depth source output) σ = run at sound' found failed evolves answers fails ⊢
    obtain ⟨failure | v, σ'⟩ := run
    · obtain rfl := fails failure rfl
      rw [Plan.evaluate_visit]
      exact (failed failure rfl q hq).stays _
    · have rest := carryOut_evolves (g := s.graph) (lower_evolves s depth) (next v) σ'
      have yields : Yields σ'.recording v (visit σ.scope source output) :=
        (answers _ (rest.cache_subset (found v rfl))).restrict rest.recording
          (sound'.valid _ (found v rfl))
      rw [Plan.evaluate_visit]
      refine (yields q (hq.trans evolves.recording.failing.symm)).goesOn fun v' q' hq' answer => ?_
      have world : w ≤ σ'.recording.unfolding q' :=
        hw ▸ Recording.unfolding_mono evolves.recording hq'
      have failing : q'.failing = σ'.recording.failing := by
        rw [hq'.failing, hq, evolves.recording.failing]
      have agrees := ih _ world v v' answer sound' (stands.of_extends evolves.stack) rfl failing
        visit answers fun failure hf => (fails failure hf).trans (by rw [evolves.active])
      rwa [evolves.scope_eq] at agrees
  | @create w kind ps qs next next' params _ ih =>
    subst hw
    have he := σ.recording.create_extends kind ps
    have he' := q.create_extends kind qs
    have agrees := ih _ (Recording.unfolding_mono he he') _ _ (Recording.unfolding_created params)
      (sound.recorded he) stands rfl hq visit answers fails
    exact agrees.prepend he'
  | @image w descriptor next next' _ ih =>
    subst hw
    have he := σ.recording.materialize_extends descriptor
    have he' := q.materialize_extends descriptor
    have failing : (q.materialize descriptor).2.failing =
        (σ.recording.materialize descriptor).2.failing := by rw [he.failing, he'.failing, hq]
    have agrees := ih _ (Recording.unfolding_mono he he') _ _
      (Recording.unfolding_materialized hq.symm descriptor) (sound.recorded he) stands rfl failing
      visit answers fails
    exact agrees.prepend he'
  | @report w notice next next' _ _ ih =>
    exact ih (sound.noting notice) stands hw hq visit answers fails
  | known h => exact h.elim
  | remember h => exact h.elim

/-! ## One plan after another -/

theorem on_carryOut_bind {β γ : Type} {g : HostGraph} {visit : NodeId → String → Walk Value}
    (p : Plan β) (f : β → Plan γ) (σ : WalkState) :
    on (carryOut g visit (p >>= f)) σ =
      match on (carryOut g visit p) σ with
      | (.ok b, σ') => on (carryOut g visit (f b)) σ'
      | (.error failure, σ') => (.error failure, σ') := by
  show on (carryOut g visit (p.bind f)) σ = _
  induction p generalizing σ with
  | done | fail => rfl
  | visit node output next ih =>
    simp only [Plan.bind, carryOut, on_bind]
    rcases on (visit node output) σ with ⟨_ | value, σ'⟩
    · rfl
    · exact ih value σ'
  | create kind params next ih => exact ih _ _
  | image descriptor next ih => exact ih _ _
  | report notice next ih => exact ih _
  | known node output subNode next ih => exact ih _ _
  | remember node output subNode value next ih => exact ih _

/-- What a sub-node has come to is looked up in the cache. -/
theorem on_carryOut_known {β : Type} {g : HostGraph} {visit : NodeId → String → Walk Value}
    (node : NodeId) (output name : String) (next : Option Value → Plan β) (σ : WalkState) :
    on (carryOut g visit (.known node output name next)) σ =
      on (carryOut g visit (next (σ.cache.subNode? ⟨node, output, σ.scope, g.material⟩ name))) σ :=
  rfl

variable {β γ : Type} {P : Correspondence → β → β → Prop} {P' : Correspondence → γ → γ → Prop}
  {σ : WalkState}

theorem kept_bind {p : Plan β} {f : β → Plan γ}
    (h : Kept s fixed P (on (carryOut s.graph (lower s depth) p) σ))
    (hf : ∀ b σ', σ.Evolves σ' → Sound s fixed σ' → P (σ'.recording.unfolding σ'.recording) b b →
      Kept s fixed P' (on (carryOut s.graph (lower s depth) (f b)) σ')) :
    Kept s fixed P' (on (carryOut s.graph (lower s depth) (p >>= f)) σ) := by
  rw [on_carryOut_bind]
  have evolves := carryOut_evolves (g := s.graph) (lower_evolves s depth) p σ
  obtain ⟨sound, valid⟩ := h
  generalize on (carryOut s.graph (lower s depth) p) σ = run at sound valid evolves ⊢
  obtain ⟨failure | b, σ'⟩ := run
  · exact ⟨sound, fun a ha => by cases ha⟩
  · exact hf b σ' evolves sound (valid b rfl)

theorem agreeing_bind {p p' : Plan β} {f f' : β → Plan γ} {q : Recording}
    (kept : Kept s fixed P (on (carryOut s.graph (lower s depth) p) σ))
    (h : Agreeing s fixed depth P σ p p' q) (hq : q.failing = σ.recording.failing)
    (hf : ∀ b b' σ' q', σ.Evolves σ' → q.Extends q' → Sound s fixed σ' →
      P (σ'.recording.unfolding q') b b' → q'.failing = σ'.recording.failing →
      Agreeing s fixed depth P' σ' (f b) (f' b') q') :
    Agreeing s fixed depth P' σ (p >>= f) (p' >>= f') q := by
  intro visit answers fails
  rw [on_carryOut_bind] at answers fails ⊢
  rw [Plan.evaluate_bind]
  have evolves := carryOut_evolves (g := s.graph) (lower_evolves s depth) p σ
  have first := h visit
  obtain ⟨sound, -⟩ := kept
  generalize on (carryOut s.graph (lower s depth) p) σ = run at sound evolves first answers fails ⊢
  obtain ⟨failure | b, σ'⟩ := run
  · exact (first answers fun _ _ => fails failure rfl).stays _
  · have rest := carryOut_evolves (g := s.graph) (lower_evolves s depth) (f b) σ'
    have agrees := first (answers.restrict rest.recording rest.cache_subset sound.valid)
      fun failure hf => by cases hf
    refine agrees.goesOn fun b' q' hq' hb => ?_
    have failing : q'.failing = σ'.recording.failing := by
      rw [hq'.failing, hq, evolves.recording.failing]
    have agrees := hf b b' σ' q' evolves hq' sound hb failing visit answers fun failure hf =>
      (fails failure hf).trans (by rw [evolves.active])
    rwa [evolves.scope_eq] at agrees

/-- Plans that keep nothing and differ in nothing are tracked. -/
theorem tracked_of_alike (regular : s.Regular fixed) (hv : LowersSoundly s fixed depth) {plan : Plan β}
    (h : ∀ w, Plan.Alike (s.graph.Feeds node) False P w plan plan) (sound : Sound s fixed σ)
    (stands : Stands σ.stack node) : Tracked s fixed depth P σ plan :=
  ⟨carryOut_kept regular hv (h _) rfl sound stands rfl, fun _ hq =>
    carryOut_agreeing regular hv (h _) sound stands rfl hq⟩

/-! ## Sub-nodes -/

variable {rules : NodeRules} {output : String} {subNode : String → Plan Value}

/-- A sub-node that is known is looked up. -/
theorem on_subNode_known (visit : NodeId → String → Walk Value) (accepted : rules.Accepted)
    {name : String} {value : Value}
    (found : σ.cache.subNode? ⟨node, output, σ.scope, s.graph.material⟩ name = some value) :
    on (carryOut s.graph visit (s.subNode rules node output name)) σ = (.ok value, σ) := by
  have unfolded : s.subNode rules node output name = _ := RuleSite.subNode_unfold accepted name
  rw [unfolded, on_carryOut_known]
  simp only [Setting.site, found]
  rfl

/-- A sub-node that is not known is evaluated. -/
theorem on_subNode_unknown (visit : NodeId → String → Walk Value) (accepted : rules.Accepted)
    {name : String}
    (found : σ.cache.subNode? ⟨node, output, σ.scope, s.graph.material⟩ name = none) :
    on (carryOut s.graph visit (s.subNode rules node output name)) σ =
      on (carryOut s.graph visit
        ((s.site rules node output).fresh (s.subNode rules node output) name)) σ := by
  have unfolded : s.subNode rules node output name = _ := RuleSite.subNode_unfold accepted name
  rw [unfolded, on_carryOut_known]
  simp only [Setting.site, found]
  rfl

/-- Without memory a sub-node is always evaluated. -/
theorem evaluate_subNode (accepted : rules.Accepted) (name : String)
    (visit : NodeId → String → Direct Value) (r : Recording) :
    (s.subNode rules node output name).evaluate visit r =
      ((s.site rules node output).fresh (s.subNode rules node output) name).evaluate visit r := by
  have unfolded : s.subNode rules node output name = _ := RuleSite.subNode_unfold accepted name
  rw [unfolded]
  rfl

theorem source_tracked (regular : s.Regular fixed) (hv : LowersSoundly s fixed depth)
    (source : ValueSource)
    (hs : ∀ reference, source.reference? = some reference →
      ∀ σ, Sound s fixed σ → Stands σ.stack node →
        Tracked s fixed depth Correspondence.Answer σ (subNode reference))
    (sound : Sound s fixed σ) (stands : Stands σ.stack node) :
    Tracked s fixed depth Correspondence.Answer σ
      ((s.site rules node output).source subNode source) := by
  cases source with
  | input socket =>
    exact tracked_of_alike regular hv (fun _ => Plan.input_alike (.name socket)) sound stands
  | link socket =>
    exact tracked_of_alike regular hv (fun _ => Plan.inputLink_alike (.name socket)) sound stands
  | default socket =>
    exact tracked_of_alike regular hv (fun _ => Plan.inputDefault_alike (.name socket)) sound stands
  | node reference => exact hs reference rfl σ sound stands
  | literal literal =>
    exact tracked_of_alike regular hv (fun _ => .done (.constant literal.toLanes)) sound stands

theorem params_tracked (regular : s.Regular fixed) (hv : LowersSoundly s fixed depth)
    (params : List (String × ValueSource))
    (hs : ∀ param ∈ params, ∀ reference, param.2.reference? = some reference →
      ∀ σ, Sound s fixed σ → Stands σ.stack node →
        Tracked s fixed depth Correspondence.Answer σ (subNode reference))
    (sound : Sound s fixed σ) (stands : Stands σ.stack node) :
    Tracked s fixed depth RuleSite.ParamsAlike σ
      ((s.site rules node output).params subNode params) := by
  induction params generalizing σ with
  | nil =>
    exact ⟨⟨sound, fun a ha => by cases ha; exact .nil⟩, fun q _ _ _ _ => .ok (.refl q) .nil⟩
  | cons param rest ih =>
    have head : Tracked s fixed depth Correspondence.Answer σ
        ((s.site rules node output).source subNode param.2) :=
      source_tracked regular hv param.2 (hs param List.mem_cons_self) sound stands
    have tail : ∀ σ', σ.Evolves σ' → Sound s fixed σ' → Tracked s fixed depth RuleSite.ParamsAlike σ'
        ((s.site rules node output).params subNode rest) := fun σ' evolves sound' =>
      ih (fun other ho => hs other (List.mem_cons_of_mem _ ho)) sound'
        (stands.of_extends evolves.stack)
    refine ⟨kept_bind head.kept fun value σ' evolves sound' hvalue => ?_, fun q hq =>
      agreeing_bind head.kept (head.agreeing q hq) hq
        fun value value' σ' q' evolves hq' sound' hvalue failing => ?_⟩
    · refine kept_bind (tail σ' evolves sound').kept fun values σ'' evolves' sound'' hvalues =>
        ⟨sound'', fun a ha => ?_⟩
      cases ha
      exact .cons ⟨rfl, Recording.Valid.mono hvalue evolves'.recording⟩ hvalues
    · refine agreeing_bind (tail σ' evolves sound').kept ((tail σ' evolves sound').agreeing q' failing)
        failing fun values values' σ'' q'' evolves' hq'' _ hvalues _ _ _ _ => ?_
      have grown := Recording.unfolding_mono evolves'.recording hq''
      exact .ok (.refl q'') (.cons ⟨rfl, hvalue.mono grown⟩ hvalues)

/-- A notice makes no difference. -/
theorem report_tracked {notice : Notice} {plan : Plan β}
    (h : Tracked s fixed depth P (σ.noting notice) plan) :
    Tracked s fixed depth P σ (.report notice plan) :=
  ⟨h.kept, h.agreeing⟩

theorem body_tracked (regular : s.Regular fixed) (hv : LowersSoundly s fixed depth) (rule : SubNodeRule)
    (hs : ∀ param ∈ rule.params, ∀ reference, param.2.reference? = some reference →
      ∀ σ, Sound s fixed σ → Stands σ.stack node →
        Tracked s fixed depth Correspondence.Answer σ (subNode reference))
    (sound : Sound s fixed σ) (stands : Stands σ.stack node) :
    Tracked s fixed depth Correspondence.Answer σ
      ((s.site rules node output).params subNode rule.params >>= rule.type.plan) := by
  have params : Tracked s fixed depth RuleSite.ParamsAlike σ
      ((s.site rules node output).params subNode rule.params) :=
    params_tracked regular hv rule.params hs sound stands
  refine ⟨kept_bind params.kept fun values σ' evolves sound' hvalues => ?_, fun q hq =>
    agreeing_bind params.kept (params.agreeing q hq) hq
      fun values values' σ' q' evolves _ sound' hvalues failing => ?_⟩
  · exact carryOut_kept regular hv (RuleSite.typePlan_alike rule.type hvalues) rfl sound'
      (stands.of_extends evolves.stack) rfl
  · exact carryOut_agreeing regular hv (RuleSite.typePlan_alike rule.type hvalues) sound'
      (stands.of_extends evolves.stack) rfl failing

/-- The value of a sub-node is kept once the plan has come to it. -/
theorem remember_tracked (hr : s.table.get? (s.graph.kind node) = some rules) {name : String}
    {body : Plan Value} (h : Tracked s fixed depth Correspondence.Answer σ body)
    (hbody : ∀ visit r, (s.subNode rules node output name).evaluate visit r =
      body.evaluate visit r) :
    Tracked s fixed depth Correspondence.Answer σ
      (body >>= fun value => .remember node output name value (.done value)) := by
  refine ⟨?_, fun q hq => agreeing_bind h.kept (h.agreeing q hq) hq
    fun value value' σ' q' _ _ _ hvalue _ _ _ _ => .ok (.refl q') hvalue⟩
  rw [on_carryOut_bind]
  have evolves := carryOut_evolves (g := s.graph) (lower_evolves s depth) body σ
  obtain ⟨⟨sound, valid⟩, agreeing⟩ := h
  unfold Agreeing at agreeing
  generalize on (carryOut s.graph (lower s depth) body) σ = run at sound valid evolves agreeing ⊢
  obtain ⟨failure | value, σ'⟩ := run
  · exact ⟨sound, fun a ha => by cases ha⟩
  have derived : Derived σ'.recording σ'.cache.outputs.entries (fun visit =>
      (s.subNode rules node output name).evaluate (visit σ'.scope)) value := by
    refine ⟨valid value rfl, fun visit answers q hq => ?_⟩
    have agrees := agreeing q (hq.trans evolves.recording.failing) visit answers
      fun failure hf => by cases hf
    rw [hbody, evolves.scope_eq]
    exact agrees
  refine ⟨⟨sound.outputs, sound.waiting, ?_, sound.stack⟩, fun a ha => by cases ha; exact valid _ rfl⟩
  intro node' output' scope' name' value' found rules' hr'
  replace found : (σ'.cache.subNodes.put (⟨node, output, σ'.scope, s.graph.material⟩, name)
    value).get? (⟨node', output', scope', s.graph.material⟩, name') = some value' := found
  rw [Memo.get?_put] at found
  split at found
  · rename_i hkey
    simp only [Prod.mk.injEq, Key.mk.injEq] at hkey
    obtain ⟨⟨rfl, rfl, rfl, -⟩, rfl⟩ := hkey
    obtain rfl := Option.some.inj found
    obtain rfl : rules = rules' := Option.some.inj (hr.symm.trans hr')
    exact derived
  · exact sound.subNodes node' output' scope' name' value' found rules' hr'

/-- A sub-node that is known comes to what it came to. -/
theorem known_tracked (accepted : rules.Accepted)
    (hr : s.table.get? (s.graph.kind node) = some rules) {name : String} {value : Value}
    (found : σ.cache.subNode? ⟨node, output, σ.scope, s.graph.material⟩ name = some value)
    (sound : Sound s fixed σ) :
    Tracked s fixed depth Correspondence.Answer σ (s.subNode rules node output name) := by
  have derived := sound.subNodes node output σ.scope name value found rules hr
  have run := on_subNode_known (lower s depth) accepted found
  refine ⟨?_, fun q hq visit answers _ => ?_⟩
  · rw [run]
    exact ⟨sound, fun a ha => by cases ha; exact derived.valid⟩
  · rw [run] at answers ⊢
    exact derived.yields visit answers q hq

/-- A sub-node that is not known comes to what it comes to anew. -/
theorem unknown_tracked (accepted : rules.Accepted) {name : String}
    (found : σ.cache.subNode? ⟨node, output, σ.scope, s.graph.material⟩ name = none)
    (fresh : Tracked s fixed depth Correspondence.Answer σ
      ((s.site rules node output).fresh (s.subNode rules node output) name)) :
    Tracked s fixed depth Correspondence.Answer σ (s.subNode rules node output name) := by
  have run := on_subNode_unknown (lower s depth) accepted found
  refine ⟨by rw [run]; exact fresh.kept, fun q hq visit answers fails => ?_⟩
  rw [run] at answers fails ⊢
  rw [evaluate_subNode accepted]
  exact fresh.agreeing q hq visit answers fails

/-- A sub-node comes to what it comes to without memory, whether it is known or not. -/
theorem subNode_tracked (regular : s.Regular fixed) (hv : LowersSoundly s fixed depth)
    (hr : s.table.get? (s.graph.kind node) = some rules) (name : String)
    (hn : rules.contains name = true) (sound : Sound s fixed σ) (stands : Stands σ.stack node) :
    Tracked s fixed depth Correspondence.Answer σ
      (s.subNode rules node output name) := by
  have accepted : rules.Accepted := regular.rules _ _ hr
  have every : ∀ name, rules.contains name = true → ∀ σ, Sound s fixed σ → Stands σ.stack node →
      Tracked s fixed depth Correspondence.Answer σ
        (s.subNode rules node output name) := by
    refine accepted.induction fun name hn ih σ sound stands => ?_
    obtain ⟨rule, hrule⟩ := Option.isSome_iff_exists.1 hn
    have eq : (s.site rules node output).fresh (s.subNode rules node output) name = _ :=
      RuleSite.fresh_eq hrule
    have body : ∀ σ, Sound s fixed σ → Stands σ.stack node →
        Tracked s fixed depth Correspondence.Answer σ ((s.site rules node output).params
          (s.subNode rules node output) rule.params >>= rule.type.plan) := fun σ sound stands =>
      body_tracked regular hv rule (fun param hp reference href =>
        ih reference (RuleSite.mem_references hrule hp href)) sound stands
    have direct : ∀ visit r, (s.subNode rules node output name).evaluate visit r =
        ((s.site rules node output).params (s.subNode rules node output) rule.params >>=
          rule.type.plan).evaluate visit r := by
      intro visit r
      rw [evaluate_subNode accepted, eq]
      cases rule.warn <;> exact Plan.evaluate_remember _ _ _ _ _ _
    cases found : σ.cache.subNode? ⟨node, output, σ.scope, s.graph.material⟩ name with
    | some value => exact known_tracked accepted hr found sound
    | none =>
      refine unknown_tracked accepted found ?_
      rw [eq]
      cases rule.warn with
      | none => exact remember_tracked hr (body σ sound stands) direct
      | some message => exact report_tracked (remember_tracked hr (body _ (sound.noting _) stands) direct)
  exact every name hn σ sound stands

end Walk

end MaterialLowering
