import MaterialLowering.Proofs.Documents.DocumentGraph

/-!
# How deep lowering goes

The outputs on a path of lowering without memory wait for one another, and no two of them have one
key. A document has finitely many keys: a node with an output that a link names, or the one that was
asked for, inside calls of pairwise different groups. Lowering that is allowed to go as deep as
there are keys is never stopped.

Results:
* `Reference.lower_deeper`: lowering that is not stopped comes to the same when it may go deeper.
* `Reference.lower_ends`: distinct keys bound the depth.
* `Document.lower_ends`: the walk depth of a document suffices.
-/

namespace MaterialLowering

/-! ## Ends -/

/-- All handles stand for each other. -/
def Correspondence.total : Correspondence := ⟨fun _ _ => True, fun _ _ => True⟩

theorem Correspondence.le_total (w : Correspondence) : w ≤ .total :=
  ⟨fun _ _ _ => trivial, fun _ _ _ => trivial⟩

/-- Lowering came to its end: to a value that is no image, or to a failure of the graph. -/
inductive Ends : Except Failure Value → Prop
  | ok {v : Value} (h : Correspondence.total.Answer v v) : Ends (.ok v)
  | error {failure : Failure} (h : ¬ failure.IsTooDeep) : Ends (.error failure)

theorem Ends.not_tooDeep {result : Except Failure Value} {failure : Failure} (h : Ends result)
    (hf : result = .error failure) : ¬ failure.IsTooDeep := by
  cases h with
  | ok => cases hf
  | error h => cases hf; exact h

theorem Plan.Agree.ends {asks : NodeId → String → Prop} {keeps : Prop} {w : Correspondence}
    {p q : Plan Value} (h : Plan.Agree asks keeps w p q) (hpq : p = q)
    {visit : NodeId → String → Direct Value}
    (hv : ∀ source output r, asks source output → Ends (visit source output r).1) (r : Recording) :
    Ends (p.evaluate visit r).1 := by
  induction h generalizing r with
  | done h =>
    cases hpq
    exact .ok (h.mono (Correspondence.le_total _))
  | fail h => exact .error h
  | @visit w source output next next' asked _ ih =>
    obtain rfl : next = next' := by injection hpq
    have found := hv source output r asked
    simp only [Plan.evaluate]
    generalize visit source output r = run at found ⊢
    obtain ⟨result, r'⟩ := run
    cases found with
    | @ok v answer => exact ih .total w.le_total v v answer rfl r'
    | error h => exact .error h
  | @create w kind ps qs next next' _ _ ih =>
    obtain rfl : next = next' := by injection hpq
    exact ih .total w.le_total _ _ trivial rfl _
  | @image w descriptor next next' _ ih =>
    obtain rfl : next = next' := by injection hpq
    refine ih .total w.le_total _ _ ?_ rfl _
    cases (r.materialize descriptor).1.toOption with
    | none => exact .none
    | some image => exact .some trivial
  | @report w notice next next' _ _ ih =>
    obtain rfl : next = next' := by injection hpq
    exact ih rfl r
  | @known w node output name next next' _ _ ih =>
    obtain rfl : next = next' := by injection hpq
    exact ih .total w.le_total none none .none rfl r
  | @remember w node output name a b next next' _ _ _ ih =>
    obtain rfl : next = next' := by injection hpq
    exact ih rfl r

/-! ## Deeper -/

/-- A way of finding outputs that may go deeper than another one, and comes to the same where the
    other one is not stopped. -/
def Deeper (visit visit' : NodeId → String → Direct Value) : Prop :=
  ∀ node output r, (∀ failure, (visit node output r).1 = .error failure → ¬ failure.IsTooDeep) →
    visit' node output r = visit node output r

theorem Plan.evaluate_deeper {α : Type} {visit visit' : NodeId → String → Direct Value}
    (h : Deeper visit visit') (plan : Plan α) (r : Recording)
    (ends : ∀ failure, (plan.evaluate visit r).1 = .error failure → ¬ failure.IsTooDeep) :
    plan.evaluate visit' r = plan.evaluate visit r := by
  induction plan generalizing r with
  | done | fail => rfl
  | visit node output next ih =>
    simp only [evaluate] at ends ⊢
    have same := h node output r
    generalize visit node output r = run at ends same ⊢
    obtain ⟨failure | value, r'⟩ := run
    · have within : ¬ failure.IsTooDeep := ends failure rfl
      rw [same fun _ hf => by cases hf; exact within]
    · rw [same fun failure hf => by cases hf]
      exact ih value r' ends
  | create kind params next ih => exact ih _ _ ends
  | image descriptor next ih => exact ih _ _ ends
  | report notice next ih => exact ih r ends
  | known node output name next ih => exact ih none r ends
  | remember node output name value next ih => exact ih r ends

namespace Reference

variable {s : Setting} {visit visit' : Visit}

theorem formal_deeper (h : ∀ chain, Deeper (visit chain) (visit' chain)) (chain : List NodeId) :
    Deeper (formal s.graph visit chain) (formal s.graph visit' chain) := by
  intro groupInput name r ends
  unfold formal at ends ⊢
  cases chain with
  | nil => rfl
  | cons callSite around =>
    have same := (Walk.argument s.graph callSite name).evaluate_deeper (h around) r
    dsimp only at ends ⊢
    generalize (Walk.argument s.graph callSite name).evaluate (visit around) r = run at ends same ⊢
    obtain ⟨failure | found, r'⟩ := run
    · dsimp only at ends same
      rw [same ends]
    · rw [same fun failure hf => by cases hf]

theorem call_deeper (h : ∀ chain, Deeper (visit chain) (visit' chain)) (chain : List NodeId) :
    Deeper (call s.graph visit chain) (call s.graph visit' chain) := by
  intro callSite output r ends
  unfold call at ends ⊢
  cases ht : s.graph.groupTree callSite with
  | none => rfl
  | some tree =>
    simp only [ht] at ends ⊢
    by_cases hc : (chain.any fun other => s.graph.groupTree other = some tree) = true
    · rw [if_pos hc, if_pos hc]
    · rw [if_neg hc] at ends ⊢
      rw [if_neg hc]
      cases ho : s.graph.groupOutput tree with
      | none => rfl
      | some groupOutput =>
        simp only [ho] at ends
        exact h (callSite :: chain) groupOutput output r ends

theorem expand_deeper (h : ∀ chain, Deeper (visit chain) (visit' chain)) (chain : List NodeId) :
    Deeper (expand s visit chain) (expand s visit' chain) := by
  intro node output r ends
  unfold expand at ends ⊢
  cases hb : bypass? s.graph node with
  | some plan =>
    rw [hb] at ends
    exact plan.evaluate_deeper (h chain) r ends
  | none =>
    rw [hb] at ends
    dsimp only at ends ⊢
    cases ht : s.table.task s.graph node output with
    | plan plan =>
      rw [ht] at ends
      exact plan.evaluate_deeper (h chain) r ends
    | call =>
      rw [ht] at ends
      exact call_deeper h chain node output r ends
    | formal =>
      rw [ht] at ends
      exact formal_deeper h chain node output r ends

/-- Lowering that is not stopped comes to the same when it may go deeper. -/
theorem lower_deeper {depth depth' : Nat} (hd : depth ≤ depth') (path : List Key)
    (chain : List NodeId) : Deeper (lower s depth path chain) (lower s depth' path chain) := by
  induction depth generalizing depth' path chain with
  | zero => exact fun node output r ends => (ends _ rfl trivial).elim
  | succ depth ih =>
    obtain ⟨depth', rfl⟩ : ∃ n, depth' = n + 1 := ⟨depth' - 1, by omega⟩
    intro node output r ends
    simp only [lower] at ends ⊢
    split at ends
    · rename_i waits
      rw [if_pos waits, if_pos waits]
    · rename_i unmet
      rw [if_neg unmet, if_neg unmet]
      exact expand_deeper (fun chain => ih (by omega) _ chain) chain node output r ends

end Reference

/-! ## Keys that wait -/

/-- One key waits for another while it is lowered. -/
inductive WaitsFor (g : HostGraph) : Key → Key → Prop
  | link {node source : NodeId} {output other : String} {chain : List NodeId} {material : String}
      (h : g.Feeds node source other) :
      WaitsFor g ⟨node, output, chain, material⟩ ⟨source, other, chain, material⟩
  | call {callSite groupOutput : NodeId} {tree : TreeId} {output : String} {chain : List NodeId}
      {material : String} (calls : g.groupTree callSite = some tree)
      (new : ∀ other ∈ chain, g.groupTree other ≠ some tree)
      (h : g.groupOutput tree = some groupOutput) :
      WaitsFor g ⟨callSite, output, chain, material⟩
        ⟨groupOutput, output, callSite :: chain, material⟩
  | formal {groupInput callSite source : NodeId} {output other : String} {around : List NodeId}
      {material : String} (h : g.Feeds callSite source other) :
      WaitsFor g ⟨groupInput, output, callSite :: around, material⟩ ⟨source, other, around, material⟩

namespace Reference

variable {s : Setting} {visit : Visit} {chain : List NodeId} {node : NodeId} {output : String}

theorem call_ends
    (hv : ∀ tree groupOutput r, s.graph.groupTree node = some tree →
      (∀ other ∈ chain, s.graph.groupTree other ≠ some tree) →
      s.graph.groupOutput tree = some groupOutput →
      Ends (visit (node :: chain) groupOutput output r).1) (r : Recording) :
    Ends (call s.graph visit chain node output r).1 := by
  unfold call
  split
  · exact .error id
  · rename_i tree calls
    split
    · exact .error id
    · rename_i new
      have new : ∀ other ∈ chain, s.graph.groupTree other ≠ some tree := by simpa using new
      split
      · exact .error id
      · rename_i groupOutput h
        exact hv tree groupOutput r calls new h

theorem formal_ends
    (hv : ∀ callSite around, chain = callSite :: around → ∀ source other r,
      s.graph.Feeds callSite source other → Ends (visit around source other r).1) (r : Recording) :
    Ends (formal s.graph visit chain node output r).1 := by
  unfold formal
  split
  · exact .error id
  · rename_i callSite around
    have ends : Ends ((Walk.argument s.graph callSite output).evaluate (visit around) r).1 :=
      (argument_alike output : Plan.Agree _ False .total _ _).ends rfl
        (hv callSite around rfl) r
    generalize (Walk.argument s.graph callSite output).evaluate (visit around) r = run at ends ⊢
    obtain ⟨result, r'⟩ := run
    cases ends with
    | ok answer => exact .ok (answer.or (.ofLanes? _))
    | error h => exact .error h

theorem expand_ends
    (hv : ∀ source other inside r,
      WaitsFor s.graph ⟨node, output, chain, s.graph.material⟩
        ⟨source, other, inside, s.graph.material⟩ → Ends (visit inside source other r).1)
    (r : Recording) : Ends (expand s visit chain node output r).1 := by
  have planned : ∀ plan, Plan.Agree (s.graph.Feeds node) True .total plan plan →
      Ends (plan.evaluate (visit chain) r).1 := fun plan alike =>
    alike.ends rfl (fun source other r h => hv source other chain r (.link h)) r
  unfold expand
  cases hb : bypass? s.graph node with
  | some plan => exact planned plan (bypass?_alike hb)
  | none =>
    cases ht : s.table.task s.graph node output with
    | plan plan => exact planned plan (task_alike ht)
    | call =>
      exact call_ends (fun tree groupOutput r calls new h =>
        hv groupOutput output (node :: chain) r (.call calls new h)) r
    | formal =>
      refine formal_ends (fun callSite around hc source other r h => ?_) r
      subst hc
      exact hv source other around r (.formal h)

/-- Where there are at most `bound` keys that can wait, lowering that may go deeper than that comes
    to an end. -/
theorem lower_ends {P : Key → Prop} (closed : ∀ key key', P key → WaitsFor s.graph key key' → P key')
    {bound : Nat} (bounded : ∀ path : List Key, path.Nodup → (∀ key ∈ path, P key) → path.length ≤ bound)
    {depth : Nat} {path : List Key} (nodup : path.Nodup) (hp : ∀ key ∈ path, P key)
    (enough : bound < depth + path.length) (here : P ⟨node, output, chain, s.graph.material⟩)
    (r : Recording) : Ends (lower s depth path chain node output r).1 := by
  induction depth generalizing path chain node output r with
  | zero =>
    have := bounded path nodup hp
    omega
  | succ depth ih =>
    simp only [lower]
    split
    · exact .error id
    · rename_i unmet
      refine expand_ends (fun source other inside r h => ?_) r
      refine ih (List.nodup_cons.2 ⟨unmet, nodup⟩) (List.forall_mem_cons.2 ⟨here, hp⟩) ?_
        (closed _ _ here h) r
      simp only [List.length_cons]
      omega

end Reference

/-! ## Documents -/

namespace Document

variable {d : Document}

/-- The keys that can wait below an output of a node that was asked for. -/
structure Below (d : Document) (node : NodeId) (output : String) (key : Key) : Prop where
  node : key.node ∈ node :: d.nodeIds
  output : key.output ∈ output :: d.outputNames
  calls : ∀ callSite ∈ key.scope, (d.graph.groupTree callSite).isSome
  distinct : (key.scope.map d.graph.groupTree).Nodup
  material : key.material = d.name

theorem Below.of_waitsFor {node : NodeId} {output : String} {key key' : Key}
    (h : d.Below node output key) (waits : WaitsFor d.graph key key') :
    d.Below node output key' := by
  obtain ⟨hnode, houtput, calls, distinct, material⟩ := h
  cases waits with
  | link feeds =>
    obtain ⟨-, source, named⟩ := feeds_spec feeds
    exact ⟨.tail _ source, .tail _ named, calls, distinct, material⟩
  | call tree new groupOutput =>
    refine ⟨.tail _ (groupOutput_spec groupOutput).2, houtput,
      List.forall_mem_cons.2 ⟨by simp [tree], calls⟩, ?_, material⟩
    refine List.nodup_cons.2 ⟨fun hm => ?_, distinct⟩
    obtain ⟨other, ho, same⟩ := List.mem_map.1 hm
    exact new other ho (same.trans tree)
  | formal feeds =>
    obtain ⟨-, source, named⟩ := feeds_spec feeds
    exact ⟨.tail _ source, .tail _ named, (List.forall_mem_cons.1 calls).2,
      (List.nodup_cons.1 distinct).2, material⟩

/-- All keys that can wait. -/
def keysBelow (d : Document) (node : NodeId) (output : String) : List Key :=
  (node :: d.nodeIds).flatMap fun node =>
    (output :: d.outputNames).flatMap fun output =>
      (d.chains d.groups.length).map fun scope => ⟨node, output, scope, d.name⟩

theorem Below.mem_keysBelow {node : NodeId} {output : String} {key : Key}
    (h : d.Below node output key) : key ∈ d.keysBelow node output := by
  obtain ⟨place, name, scope, material⟩ := key
  obtain ⟨hnode, houtput, calls, distinct, hmaterial⟩ := h
  subst hmaterial
  have sites : ∀ callSite ∈ scope, callSite ∈ d.nodeIds := by
    intro callSite hc
    obtain ⟨tree, ht⟩ := Option.isSome_iff_exists.1 (calls callSite hc)
    exact (groupTree_spec ht).1
  exact List.mem_flatMap.2 ⟨place, hnode, List.mem_flatMap.2 ⟨name, houtput,
    List.mem_map.2 ⟨scope, mem_chains (length_le_groups distinct calls) sites, rfl⟩⟩⟩

theorem length_keysBelow_lt (node : NodeId) (output : String) :
    (d.keysBelow node output).length < d.walkDepth := by
  have length : (d.keysBelow node output).length =
      (d.nodeCount + 1) * ((d.linkCount + 1) * (d.chains d.groups.length).length) := by
    simp only [keysBelow, List.length_flatMap, List.length_map, List.map_const', List.sum_replicate_nat,
      List.length_cons, length_nodeIds, length_outputNames]
  have chains := length_chains_le (d := d) d.groups.length
  have pos : 0 < Nat.pow (d.nodeCount + 2) d.groups.length := Nat.pow_pos (by omega)
  calc (d.keysBelow node output).length
      = (d.nodeCount + 1) * ((d.linkCount + 1) * (d.chains d.groups.length).length) := length
    _ ≤ (d.nodeCount + 1) * ((d.linkCount + 1) * Nat.pow (d.nodeCount + 2) d.groups.length) :=
      Nat.mul_le_mul_left _ (Nat.mul_le_mul_left _ chains)
    _ < (d.nodeCount + 2) * ((d.linkCount + 2) * Nat.pow (d.nodeCount + 2) d.groups.length) :=
      Nat.mul_lt_mul_of_lt_of_le (by omega) (Nat.mul_le_mul_right _ (by omega))
        (Nat.mul_pos (by omega) pos)
    _ = d.walkDepth := (Nat.mul_assoc _ _ _).symm

/-- Lowering that may go as deep as the walk depth comes to an end. -/
theorem lower_ends (table : RuleTable) {depth : Nat} (h : d.walkDepth ≤ depth) (node : NodeId)
    (output : String) (r : Recording) :
    Ends (Reference.lower (d.setting table) depth [] [] node output r).1 := by
  refine Reference.lower_ends (P := d.Below node output) (fun _ _ => Below.of_waitsFor)
    (fun path nodup below => nodup.length_le_of_subset fun key hk => (below key hk).mem_keysBelow)
    List.nodup_nil (fun _ h => by cases h) ?_ ?_ r
  · have := length_keysBelow_lt (d := d) node output
    simp only [List.length_nil]
    omega
  · exact ⟨List.mem_cons_self, List.mem_cons_self, fun _ h => (by cases h), List.nodup_nil, rfl⟩

end Document

end MaterialLowering
