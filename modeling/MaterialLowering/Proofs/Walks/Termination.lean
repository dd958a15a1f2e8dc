import MaterialLowering.Proofs.Documents.Bounds
import MaterialLowering.Proofs.Walks.Events
import MaterialLowering.Proofs.Walks.Restoration

/-!
# Every question is answered

Links may go round, groups may call themselves, and an argument may lead back to its own call: a walk
comes to an end all the same. The outputs that are being lowered are pairwise different and wait for
one another, and there are only so many that can. So the bound on how deep a walk may go plays no
role: it is never met, and no walk would do anything else without it.

Results:
* `Walk.lower_suffices`: a walk that may go deeper than there are outputs that can wait.
* `Document.output_settles`: questions that are put to a document.
-/

namespace MaterialLowering

open Walk (on)

/-- The outputs that can wait for one another: there are at most `bound`. -/
structure Confines (g : HostGraph) (P : Key → Prop) (bound : Nat) : Prop where
  closed : ∀ key key', P key → WaitsFor g key key' → P key'
  bounded : ∀ path : List Key, path.Nodup → (∀ key ∈ path, P key) → path.length ≤ bound

/-- An output is asked for in a state in which only such outputs are being lowered, no one twice. -/
structure Confined (s : Setting) (P : Key → Prop) (node : NodeId) (output : String) (σ : WalkState) :
    Prop where
  placed : Placed s.graph σ.stack node
  here : P ⟨node, output, σ.scope, s.graph.material⟩
  nodup : σ.active.Nodup
  waiting : ∀ key ∈ σ.active, P key

namespace Walk

variable {s : Setting} {fixed : Key → Prop} {P : Key → Prop} {bound : Nat}

/-- What a question comes to does not depend on how deep the walk may go, so long as that is no less
    than it is, and the walk is never stopped. -/
def Settles {α : Type} (s : Setting) (question : Setting → Walk α) (σ : WalkState) : Prop :=
  (∀ label name, (on (question s) σ).1 ≠ .error (.tooDeep label name)) ∧
    ∀ depth, s.depth ≤ depth → on (question { s with depth }) σ = on (question s) σ

/-- Outputs that can wait are asked for in states in which only such outputs are being lowered. -/
theorem confined_of_asks (regular : s.Regular fixed) (confines : Confines s.graph P bound)
    {depth : Nat} {node source : NodeId} {output other : String} {σ τ : WalkState} {key : Key}
    (h : Confined s P node output σ) (own : ⟨node, output, σ.scope, s.graph.material⟩ = key)
    (unmet : key ∉ σ.active)
    (asked : .asks source other τ ∈ moments s (lower s depth) node output
      { σ with active := key :: σ.active }) :
    Confined s P source other τ ∧ τ.active.length = σ.active.length + 1 := by
  have step := expansion regular.rules node output { σ with active := key :: σ.active }
  obtain ⟨log, stack, evolves⟩ := step.evolves (lower_evolves s depth) asked
  obtain ⟨placed, waits⟩ := step.asks regular (lower_evolves s depth) h.placed asked
  have active : τ.active = key :: σ.active := evolves.active
  refine ⟨⟨placed, confines.closed _ _ h.here waits, ?_, ?_⟩, ?_⟩
  · rw [active]
    exact List.nodup_cons.2 ⟨unmet, h.nodup⟩
  · rw [active]
    exact List.forall_mem_cons.2 ⟨own ▸ h.here, h.waiting⟩
  · rw [active, List.length_cons]

/-- The depth is enough for an output that is asked for: the walk is not stopped, it does nothing else
    when it may go deeper, and it lowers only outputs that can wait. -/
structure Sufficient (s : Setting) (P : Key → Prop) (depth : Nat) (node : NodeId) (output : String)
    (σ : WalkState) : Prop where
  stopped : ∀ failure, (on (lower s depth node output) σ).1 = .error failure → ¬ failure.IsTooDeep
  deeper : ∀ depth', depth ≤ depth' →
    on (lower s depth' node output) σ = on (lower s depth node output) σ
  below : ∀ key ∈ (events s depth node output σ).filterMap Event.lowered?, P key

section

variable {depth : Nat} {node : NodeId} {output : String} {σ : WalkState}

/-- A step is stopped only where an output is that it asks for. -/
theorem lower_unstopped (accepted : ∀ kind rules, s.table.get? kind = some rules → rules.Accepted)
    (asked : ∀ key source other τ, ⟨node, output, σ.scope, s.graph.material⟩ = key → key ∉ σ.active →
      .asks source other τ ∈ moments s (lower s depth) node output { σ with active := key :: σ.active } →
      ∀ failure, (on (lower s depth source other) τ).1 = .error failure → ¬ failure.IsTooDeep)
    (failure : Failure) (failed : (on (lower s (depth + 1) node output) σ).1 = .error failure) :
    ¬ failure.IsTooDeep := by
  have lowering := lowering s depth node output σ
  generalize on (lower s (depth + 1) node output) σ = run, events s (depth + 1) node output σ = told
    at lowering failed
  cases lowering with
  | known => cases failed
  | waiting =>
    cases failed
    exact id
  | @new key result σ' own _ unmet ran =>
    obtain rfl : result = .error failure := failed
    have failed : (on (expand s (lower s depth) node output)
        { σ with active := key :: σ.active }).1 = .error failure := by rw [ran]
    rcases (expansion accepted node output _).error failed with
      here | ⟨source, other, τ, hm, failed⟩ | ⟨_, -, -, -, rfl⟩
    · exact here.not_tooDeep
    · exact asked key source other τ own unmet hm failure failed
    · exact id

/-- Steps from two depths are the same where the outputs are found alike that they ask for. -/
theorem lower_congr (accepted : ∀ kind rules, s.table.get? kind = some rules → rules.Accepted)
    {depth' : Nat}
    (asked : ∀ key source other τ, ⟨node, output, σ.scope, s.graph.material⟩ = key → key ∉ σ.active →
      .asks source other τ ∈ moments s (lower s depth) node output { σ with active := key :: σ.active } →
      on (lower s depth' source other) τ = on (lower s depth source other) τ) :
    on (lower s (depth' + 1) node output) σ = on (lower s (depth + 1) node output) σ := by
  show on (step s (lower s depth') node output) σ = on (step s (lower s depth) node output) σ
  rw [on_step, on_step]
  generalize hkey : (⟨node, output, σ.scope, s.graph.material⟩ : Key) = key
  dsimp only
  cases σ.cache.get? key with
  | some value => rfl
  | none =>
    dsimp only
    split
    · rfl
    · rename_i unmet
      have same : on (expand s (lower s depth') node output) { σ with active := key :: σ.active } =
          on (expand s (lower s depth) node output) { σ with active := key :: σ.active } :=
        (expansion accepted node output _).congr fun source other τ => asked key source other τ hkey unmet
      rw [same]

/-- A step lowers its own output and those that the outputs lower that it asks for. -/
theorem lowered_below (here : P ⟨node, output, σ.scope, s.graph.material⟩)
    (asked : ∀ key source other τ, ⟨node, output, σ.scope, s.graph.material⟩ = key → key ∉ σ.active →
      .asks source other τ ∈ moments s (lower s depth) node output { σ with active := key :: σ.active } →
      ∀ key ∈ (events s depth source other τ).filterMap Event.lowered?, P key) :
    ∀ key ∈ (events s (depth + 1) node output σ).filterMap Event.lowered?, P key := by
  intro key hm
  obtain ⟨result, hm⟩ := Event.mem_lowered?.1 hm
  have lowering := lowering s depth node output σ
  generalize on (lower s (depth + 1) node output) σ = run, events s (depth + 1) node output σ = told
    at lowering hm
  cases lowering with
  | known | waiting => cases hm
  | @new own _ _ same _ unmet _ =>
    rcases List.mem_cons.1 hm with hm | hm
    · obtain ⟨rfl, -⟩ := Event.lowered.inj hm
      exact same ▸ here
    · obtain ⟨source, other, τ, there, hm⟩ := Moment.exists_of_lowered hm
      exact asked own source other τ same unmet there key (Event.mem_lowered?.2 ⟨_, hm⟩)

/-- A depth is enough that is one more than what is enough for the outputs that are asked for. -/
theorem Sufficient.succ (accepted : ∀ kind rules, s.table.get? kind = some rules → rules.Accepted)
    (here : P ⟨node, output, σ.scope, s.graph.material⟩)
    (ih : ∀ key source other τ, ⟨node, output, σ.scope, s.graph.material⟩ = key → key ∉ σ.active →
      .asks source other τ ∈ moments s (lower s depth) node output { σ with active := key :: σ.active } →
      Sufficient s P depth source other τ) : Sufficient s P (depth + 1) node output σ := by
  refine ⟨lower_unstopped accepted fun key source other τ own unmet asked =>
    (ih key source other τ own unmet asked).stopped, fun depth' hd => ?_,
    lowered_below here fun key source other τ own unmet asked =>
      (ih key source other τ own unmet asked).below⟩
  obtain ⟨n, rfl⟩ : ∃ n, depth' = n + 1 := ⟨depth' - 1, by omega⟩
  exact lower_congr accepted fun key source other τ own unmet asked =>
    (ih key source other τ own unmet asked).deeper n (by omega)

end

/-- A walk may go deep enough if that is deeper than there are outputs that can wait: those that are
    being lowered grow by one where the depth shrinks by one. -/
theorem lower_suffices (regular : s.Regular fixed) (confines : Confines s.graph P bound)
    {depth : Nat} {node : NodeId} {output : String} {σ : WalkState} (h : Confined s P node output σ)
    (enough : bound < depth + σ.active.length) : Sufficient s P depth node output σ := by
  induction depth generalizing node output σ with
  | zero =>
    have := confines.bounded σ.active h.nodup h.waiting
    omega
  | succ depth ih =>
    refine .succ regular.rules h.here fun key source other τ own unmet asked => ?_
    obtain ⟨confined, length⟩ := confined_of_asks regular confines h own unmet asked
    exact ih confined (by omega)

/-- How deep questions may go plays no role for a walk that is told how deep it may go. -/
theorem lower_withDepth (s : Setting) (depth n : Nat) : lower { s with depth } n = lower s n := by
  induction n with
  | zero => rfl
  | succ n ih =>
    funext node output
    show step { s with depth } (lower { s with depth } n) node output = step s (lower s n) node output
    rw [ih]
    rfl

theorem Sufficient.settles {node : NodeId} {output : String} {σ : WalkState}
    (h : Sufficient s P s.depth node output σ) :
    Settles s (fun s => Walk.output s node output) σ := by
  refine ⟨fun label name failed => h.stopped _ failed trivial, fun depth hd => ?_⟩
  show on (lower { s with depth } depth node output) σ = _
  rw [lower_withDepth]
  exact h.deeper depth hd

theorem root_settles {σ : WalkState}
    (h : ∀ node, Settles s (fun s => Walk.output s node surface) σ) : Settles s root σ := by
  unfold Settles root
  dsimp only
  cases s.graph.outputNode with
  | none => exact ⟨fun _ _ failed => (by cases failed), fun _ _ => rfl⟩
  | some node =>
    obtain ⟨stopped, same⟩ := h node
    dsimp only
    refine ⟨fun label name => ?_, fun depth hd => ?_⟩
    · have stopped := stopped label name
      rw [on_bind]
      generalize on (Walk.output s node surface) σ = run at stopped ⊢
      obtain ⟨failure | value, σ'⟩ := run
      · exact fun failed => stopped (by cases failed; rfl)
      · cases value <;> exact fun failed => by cases failed
    · rw [on_bind, on_bind, same depth hd]

end Walk

/-- How often references of an accepted entry may be followed plays no role, if that is more than there
    are sub-nodes. -/
theorem RuleSite.subNode_fuel {site : RuleSite} (h : site.rules.Accepted) {fuel : Nat}
    (hf : site.rules.size < fuel) (name : String) :
    site.subNode fuel name = site.subNode (site.rules.size + 1) name := by
  obtain ⟨done, searched, all⟩ := h.exists_order
  have length := searched.length_le
  obtain ⟨fuel, rfl⟩ : ∃ n, fuel = n + 1 := ⟨fuel - 1, by omega⟩
  have same : site.fresh (site.subNode fuel) name = site.fresh (site.subNode site.rules.size) name :=
    fresh_congr fun reference hr => subNode_eq_of_ordered searched.ordered
      (all reference (h.closed name reference hr)) (by omega) length
  simp only [subNode, same]

namespace Document

variable {d : Document}

/-- The outputs below one that is asked for. -/
theorem confines (node : NodeId) (output : String) :
    Confines d.graph (d.Below node output) (d.keysBelow node output).length where
  closed _ _ := Below.of_waitsFor
  bounded _ nodup below := nodup.length_le_of_subset fun key hk => (below key hk).mem_keysBelow

/-- The walk depth of a document suffices for every output while nothing is being lowered. -/
theorem sufficient (d : Document) {table : RuleTable} (hc : table.check = .ok ()) {σ : WalkState}
    (stack : σ.stack = []) (active : σ.active = []) (node : NodeId) (output : String) :
    Walk.Sufficient (d.setting table) (d.Below node output) d.walkDepth node output σ := by
  have regular : (d.setting table).Regular fun _ => False :=
    d.setting_regular hc fun _ _ _ _ _ _ _ _ no => no.elim
  have scope : σ.scope = [] := by rw [WalkState.scope, stack, List.map_nil]
  have confined : Confined (d.setting table) (d.Below node output) node output σ := by
    refine ⟨by rw [stack]; trivial, ?_, by rw [active]; exact .nil, by simp [active]⟩
    rw [scope]
    exact ⟨List.mem_cons_self, List.mem_cons_self, fun _ h => (by cases h), List.nodup_nil, rfl⟩
  have enough := length_keysBelow_lt (d := d) node output
  exact Walk.lower_suffices regular (confines node output) confined (by omega)

/-- Whatever the document, and whatever was asked before: what an output comes to, and what the
    material does, is the same however much deeper the walk may go, and it is never stopped. On the way
    fewer outputs are lowered than the walk may go deep. References of rules are followed to their ends,
    and no index into a list of nodes, sockets or calls is out of range. -/
theorem output_settles (d : Document) (table : RuleTable) (hc : table.check = .ok ())
    {σ : WalkState} (reached : Reached (d.setting table) σ) :
    (∀ node output, Walk.Settles (d.setting table) (fun s => Walk.output s node output) σ ∧
      ((Walk.events (d.setting table) d.walkDepth node output σ).filterMap Event.lowered?).length <
        d.walkDepth) ∧
    Walk.Settles (d.setting table) Walk.root σ ∧
    (∀ kind rules, table.get? kind = some rules → ∀ node output name fuel, rules.size < fuel →
      RuleSite.subNode ⟨d.graph, kind, rules, node, output⟩ fuel name =
        RuleSite.subNode ⟨d.graph, kind, rules, node, output⟩ (rules.size + 1) name) ∧
    (∀ node key, d.inputAt node key = .ok (d.graph.input node key)) ∧
    ∀ tree stack, Walk.innermostCallAt tree stack.reverse = .ok (Walk.innermostCall? tree stack) := by
  have regular : (d.setting table).Regular fun _ => False :=
    d.setting_regular hc fun _ _ _ _ _ _ _ _ no => no.elim
  obtain ⟨stack, active⟩ := reached.idle
  have settles : ∀ node output, Walk.Settles (d.setting table) (fun s => Walk.output s node output) σ ∧
      ((Walk.events (d.setting table) d.walkDepth node output σ).filterMap Event.lowered?).length <
        d.walkDepth := by
    intro node output
    have enough := d.sufficient hc stack active node output
    refine ⟨enough.settles, ?_⟩
    have once := (Walk.lower_told regular.rules d.walkDepth node output σ).once
    exact Nat.lt_of_le_of_lt ((confines node output).bounded _ once enough.below)
      (length_keysBelow_lt node output)
  exact ⟨settles, Walk.root_settles fun node => (settles node Walk.surface).1,
    fun kind rules hr node output name fuel hf =>
      RuleSite.subNode_fuel (regular.rules kind rules hr) hf name,
    d.inputAt_eq, Walk.innermostCallAt_eq⟩

/-- Reroutes that go round, and a group that calls itself with what it comes to. -/
def looping : Document where
  name := "looping"
  tree :=
    { nodes :=
        [⟨"there", .reroute, [⟨"Input", none, false⟩], [⟨"Output", none, false⟩], .ofList [], false⟩,
          ⟨"back", .reroute, [⟨"Input", none, false⟩], [⟨"Output", none, false⟩], .ofList [], false⟩,
          ⟨"call", .group, [⟨"x", none, false⟩], [⟨"y", none, false⟩],
            .ofList [(groupProperty, .text "self")], false⟩]
      links :=
        [⟨"there", "Output", "back", .name "Input", false⟩,
          ⟨"back", "Output", "there", .name "Input", false⟩, ⟨"call", "y", "call", .name "x", false⟩] }
  groups :=
    [⟨"self",
      { nodes :=
          [⟨"in", .groupInput, [], [⟨"x", none, false⟩], .ofList [], false⟩,
            ⟨"again", .group, [⟨"x", none, false⟩], [⟨"y", none, false⟩],
              .ofList [(groupProperty, .text "self")], false⟩,
            ⟨"out", .groupOutput, [⟨"y", none, false⟩], [], .ofList [], false⟩]
        links :=
          [⟨"in", "x", "again", .name "x", false⟩, ⟨"again", "y", "out", .name "y", false⟩] }⟩]

/-- After the reroutes were gone round, the group is called. -/
theorem output_settles_looping :
    let s := looping.setting .builtin
    let σ := Walk.ask s (.output ⟨.material, 0⟩ "Output") (.start .empty)
    RuleTable.builtin.check = .ok () ∧ Reached s σ ∧
      Walk.Settles s (fun s => Walk.output s ⟨.material, 2⟩ "y") σ ∧ Walk.Settles s Walk.root σ := by
  have reached := (Reached.start (s := looping.setting .builtin) .empty).ask
    (.output ⟨.material, 0⟩ "Output")
  obtain ⟨outputs, root, -⟩ := looping.output_settles .builtin RuleTable.builtin_check reached
  exact ⟨RuleTable.builtin_check, reached, (outputs _ _).1, root⟩

end Document

end MaterialLowering
