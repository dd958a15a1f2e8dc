import MaterialLowering.Proofs.Documents.Matchings
import MaterialLowering.Proofs.Walks.Transparency

/-!
# Redirected links

Where an output came to what another one had come to before, links that leave the first one may leave
the second one instead: the material comes to the same tree. Of links that no walk reads nothing is
asked, nor of links that were refused, as no output came to anything by them.

Main definitions:
* `HostGraph.Redirects`: a graph in which links leave other outputs.
* `Supplied`: outputs came to what those had come to that stand for them.

Results:
* `Plan.Twin.evaluate`: twin plans come to the same, unless the first one fails.
* `Grounded.redirected`: what is in a cache is come to without memory in the graph with other links.
* `Document.root_redirected`: a document that comes to a root does so with other links.
-/

namespace MaterialLowering

open HostGraph (ReadsAs)
open Walk (on)

/-! ## Runs -/

/-- The second run is the first one, unless that one fails over the graph. -/
def Improves {α : Type} (run run' : Except Failure α × Recording) : Prop :=
  run' = run ∨ ∃ failure, run.1 = .error failure ∧ ¬ failure.IsTooDeep

/-- What comes to a value does so where it is improved. -/
theorem Agrees.improved {α : Type} {P : Correspondence → α → α → Prop} {r q : Recording} {a : α}
    {run run' : Except Failure α × Recording} (h : Agrees P r q (.ok a) run)
    (improves : Improves run run') : Agrees P r q (.ok a) run' := by
  rcases improves with rfl | ⟨failure, failed, within⟩
  · exact h
  · cases h with
    | ok => cases failed
    | tooDeep deep =>
      cases failed
      exact absurd deep within

/-- What unfolds to one tree with a third one unfolds to one tree. -/
theorem Recording.Same.of_common {r r' q : Recording} {p p' common : Param} (h : Same r q p common)
    (h' : Same r' q p' common) : Same r r' p p' := by
  induction h generalizing p' with
  | constant lanes =>
    cases h'
    exact .constant lanes
  | image hi hj =>
    cases h' with
    | image hi' hj' =>
      rw [hj] at hj'
      cases hj'
      exact .image hi hi'
  | node ha hb kind names _ ih =>
    cases h' with
    | node ha' hb' kind' names' params' =>
      rw [hb] at hb'
      cases hb'
      refine .node ha ha' (kind.trans kind'.symm) (fun name => (names name).trans (names' name).symm)
        fun name p p' hp hp' => ?_
      -- The third node has the parameter too.
      obtain ⟨there, hm⟩ := Option.isSome_iff_exists.1 ((names name).symm.trans (by rw [hp]; rfl))
      exact ih name p there hp hm (params' name p' there hp' hm)

/-! ## Other links -/

/-- Outputs with those that stand for them. Nothing is asked of outputs that no walk reads, nor of links
    that are refused. -/
def Pairing.redirecting (stand : NodeId → String → NodeId × String) (unasked : NodeId → String → Prop) :
    Pairing where
  output node output node' output' := stand node output = (node', output')
  label := Eq
  failing := .empty
  unasked := unasked
  lenient := True

/-- A graph with the same nodes, in which links leave the outputs that stand for others. Those of nodes
    that are read otherwise than by links stand for themselves. -/
structure HostGraph.Redirects (stand : NodeId → String → NodeId × String)
    (unasked : NodeId → String → Prop) (g g' : HostGraph) : Prop where
  settled : ∀ node output, stand (stand node output).1 (stand node output).2 = stand node output
  material : g'.material = g.material
  outputNode : g'.outputNode = g.outputNode
  surface : ∀ node, g.outputNode = some node → stand node Walk.surface = (node, Walk.surface)
  groupTree : g'.groupTree = g.groupTree
  groupOutput : g'.groupOutput = g.groupOutput
  leaves : ∀ tree node output, g.groupOutput tree = some node → stand node output = (node, output)
  reads : ∀ node, ReadsAs (.redirecting stand unasked) g g' node node

variable {stand : NodeId → String → NodeId × String} {unasked : NodeId → String → Prop}

/-- Outputs are found as those that stand for them are in the second way, or not at all. -/
structure VisitsImprove (stand : NodeId → String → NodeId × String) (unasked : NodeId → String → Prop)
    (visit visit' : NodeId → String → Direct Value) : Prop where
  found : ∀ node output r,
    Improves (visit node output r) (visit' (stand node output).1 (stand node output).2 r)
  unasked : ∀ node output r, unasked node output →
    ∃ failure, (visit node output r).1 = .error failure ∧ ¬ failure.IsTooDeep

/-- Twin plans come to the same, unless the first one fails. -/
theorem Plan.Twin.evaluate {α : Type} {plan plan' : Plan α}
    (h : Plan.Twin (.redirecting stand unasked) plan plan') {visit visit' : NodeId → String → Direct Value}
    (visits : VisitsImprove stand unasked visit visit') (r : Recording) :
    Improves (plan.evaluate visit r) (plan'.evaluate visit' r) := by
  induction h generalizing r with
  | done a => exact .inl rfl
  | fail same =>
    rw [Failure.Like.eq same]
    exact .inl rfl
  | refused => exact .inr ⟨_, rfl, id⟩
  | @unasked node output next plan nothing =>
    obtain ⟨failure, failed, within⟩ := visits.unasked node output r nothing
    refine .inr ⟨failure, ?_, within⟩
    simp only [Plan.evaluate]
    generalize visit node output r = run at failed ⊢
    obtain ⟨result, r'⟩ := run
    obtain rfl : result = .error failure := failed
    rfl
  | @visit node node' output output' next next' asked _ ih =>
    have found := visits.found node output r
    rw [show stand node output = (node', output') from asked] at found
    simp only [Plan.evaluate]
    rcases found with same | ⟨failure, failed, within⟩
    · rw [same]
      rcases visit node output r with ⟨failure | value, r'⟩
      · exact .inl rfl
      · exact ih value r'
    · refine .inr ⟨failure, ?_, within⟩
      generalize visit node output r = run at failed ⊢
      obtain ⟨result, r'⟩ := run
      obtain rfl : result = .error failure := failed
      rfl
  | create kind params _ ih => exact ih _ _
  | image descriptor _ ih => exact ih _ _
  | noImage lost => cases lost
  | reportLeft notice _ ih => exact ih r
  | reportRight notice _ ih => exact ih r
  | known name _ _ ih => exact ih none r
  | remember name value _ _ ih => exact ih r

namespace HostGraph.Redirects

variable {s s' : Setting} (h : s.graph.Redirects stand unasked s'.graph)
  {visit visit' : Reference.Visit}
  (visits : ∀ chain, VisitsImprove stand unasked (visit chain) (visit' chain))

include h

theorem label (node : NodeId) : s'.graph.label node = s.graph.label node := (h.reads node).label.symm

include visits

theorem call_improves (chain : List NodeId) (callSite : NodeId) (output : String) (r : Recording) :
    Improves (Reference.call s.graph visit chain callSite output r)
      (Reference.call s'.graph visit' chain callSite output r) := by
  unfold Reference.call
  rw [h.groupTree, h.label, h.groupOutput]
  cases s.graph.groupTree callSite with
  | none => exact .inl rfl
  | some tree =>
    dsimp only
    split
    · exact .inl rfl
    · cases ho : s.graph.groupOutput tree with
      | none => exact .inl rfl
      | some inner =>
        have found := (visits (callSite :: chain)).found inner output r
        rw [h.leaves tree inner output ho] at found
        exact found

theorem formal_improves (chain : List NodeId) (groupInput : NodeId) (name : String) (r : Recording) :
    Improves (Reference.formal s.graph visit chain groupInput name r)
      (Reference.formal s'.graph visit' chain groupInput name r) := by
  unfold Reference.formal
  rw [h.label, (h.reads groupInput).outputDefault]
  cases chain with
  | nil => exact .inl rfl
  | cons callSite around =>
    have reads := h.reads callSite
    have argument := (argument_twin reads.kind reads.label (reads.input (.name name))).evaluate
      (visits around) r
    dsimp only
    rcases argument with same | ⟨failure, failed, within⟩
    · rw [same]
      exact .inl rfl
    · refine .inr ⟨failure, ?_, within⟩
      generalize (Walk.argument s.graph callSite name).evaluate (visit around) r = run at failed ⊢
      obtain ⟨result, r'⟩ := run
      obtain rfl : result = .error failure := failed
      rfl

/-- An output that stands for itself comes to the same, unless it failed. -/
theorem expand_improves (table : s'.table = s.table) (chain : List NodeId) {node : NodeId}
    {output : String} (own : stand node output = (node, output)) (r : Recording) :
    Improves (Reference.expand s visit chain node output r)
      (Reference.expand s' visit' chain node output r) := by
  have reads := h.reads node
  have passed := bypass?_twin reads
  unfold Reference.expand
  rw [table]
  generalize bypass? s.graph node = plan, bypass? s'.graph node = plan' at passed
  cases passed with
  | some twin => exact twin.evaluate (visits chain) r
  | none =>
    dsimp only
    by_cases border : s.table.resolve? (s.graph.kind node) = some .boundary
    · obtain ⟨no, handler, kinds⟩ := RuleTable.boundary_of_resolve? border
      rcases kinds with kind | kind | kind <;> rw [kind] at no handler <;>
        rw [task_of_boundary no handler rfl kind, task_of_boundary no handler rfl (reads.kind.trans kind)]
      · exact h.call_improves visits chain node output r
      · exact h.formal_improves visits chain node output r
      · exact (Plan.input_twin reads _).evaluate (visits chain) r
    · obtain ⟨plan, plan', ht, ht', twin⟩ := RuleTable.task_twin border reads own
      rw [ht, ht']
      exact twin.evaluate (visits chain) r

end HostGraph.Redirects

/-! ## Caches -/

/-- The key of the output that stands for that of a key. -/
def Key.standIn (stand : NodeId → String → NodeId × String) (key : Key) : Key :=
  { key with node := (stand key.node key.output).1, output := (stand key.node key.output).2 }

/-- Outputs came to what those had come to before that stand for them. -/
def Supplied (stand : NodeId → String → NodeId × String) : List (Key × Value) → Prop
  | [] => True
  | (key, value) :: older =>
    (stand key.node key.output ≠ (key.node, key.output) → (key.standIn stand, value) ∈ older) ∧
      Supplied stand older

theorem Grounded.material {s : Setting} {fixed : Key → Prop} {r : Recording}
    {entries : List (Key × Value)} (h : Grounded s fixed r entries) :
    ∀ e ∈ entries, e.1.material = s.graph.material := by
  induction h with
  | nil => simp
  | cons _ _ _ ih => exact List.forall_mem_cons.2 ⟨rfl, ih⟩

/-- Outputs that are in the cache are found as those are that stand for them, and others are not
    found. -/
def Reference.among (g : HostGraph) (stand : NodeId → String → NodeId × String)
    (entries : List (Key × Value)) (visit : Reference.Visit) : Reference.Visit :=
  fun chain node output r =>
    if (⟨node, output, chain, g.material⟩ : Key) ∈ entries.map Prod.fst then
      visit chain (stand node output).1 (stand node output).2 r
    else (.error (.cyclicGraph (g.label node) output), r)

namespace Reference

variable {g : HostGraph} {entries : List (Key × Value)} {visit : Visit}

theorem among_answers {r : Recording} (material : ∀ e ∈ entries, e.1.material = g.material)
    (yields : ∀ e ∈ entries, Yields r e.2
      (visit e.1.scope (stand e.1.node e.1.output).1 (stand e.1.node e.1.output).2)) :
    Answers r entries (among g stand entries visit) := by
  intro e he q hq
  have there : (⟨e.1.node, e.1.output, e.1.scope, g.material⟩ : Key) ∈ entries.map Prod.fst := by
    rw [← material e he]
    exact List.mem_map_of_mem he
  simp only [among, if_pos there]
  exact yields e he q hq

theorem among_improves (asked : ∀ e ∈ entries, ¬ unasked e.1.node e.1.output) (chain : List NodeId) :
    VisitsImprove stand unasked (among g stand entries visit chain) (visit chain) where
  found node output r := by
    simp only [among]
    split
    · exact .inl rfl
    · exact .inr ⟨_, rfl, id⟩
  unasked node output r nothing := by
    have absent : (⟨node, output, chain, g.material⟩ : Key) ∉ entries.map Prod.fst := by
      intro there
      obtain ⟨e, he, same⟩ := List.mem_map.1 there
      refine asked e he ?_
      rw [same]
      exact nothing
    simp only [among, if_neg absent]
    exact ⟨_, rfl, id⟩

end Reference

/-- In a graph with other links, lowering without memory comes to what is in the cache: it comes to it
    by the outputs that stand for others. -/
theorem Grounded.redirected {s s' : Setting} {r : Recording} {entries : List (Key × Value)}
    (grounded : Grounded s (fun _ => True) r entries) (h : s.graph.Redirects stand unasked s'.graph)
    (table : s'.table = s.table) (supplied : Supplied stand entries)
    (asked : ∀ e ∈ entries, ¬ unasked e.1.node e.1.output) (depth : Nat) (path : List Key)
    (apart : ∀ key ∈ path, ∀ e ∈ entries, e.1 ≠ key) :
    ∀ e ∈ entries, Yields r e.2 (Reference.lower s' depth path e.1.scope
      (stand e.1.node e.1.output).1 (stand e.1.node e.1.output).2) := by
  induction grounded generalizing depth path with
  | nil => simp
  | @cons node output scope v entries older fresh derived ih =>
    obtain ⟨supply, supplied⟩ := supplied
    obtain ⟨-, asked⟩ := List.forall_mem_cons.1 asked
    have others := fun key hk => (List.forall_mem_cons.1 (apart key hk)).2
    refine List.forall_mem_cons.2 ⟨?_, ih supplied asked depth path others⟩
    dsimp only at supply ⊢
    by_cases own : stand node output = (node, output)
    · intro q hq
      rw [own]
      cases depth with
      | zero => exact .tooDeep trivial
      | succ depth =>
        have unmet : (⟨node, output, scope, s.graph.material⟩ : Key) ∉ path := fun hm =>
          (List.forall_mem_cons.1 (apart _ hm)).1 rfl
        have below := ih supplied asked depth (⟨node, output, scope, s.graph.material⟩ :: path)
          (List.forall_mem_cons.2 ⟨fresh, others⟩)
        simp only [Reference.lower, h.material, if_neg unmet]
        generalize Reference.lower s' depth (⟨node, output, scope, s.graph.material⟩ :: path) = visit'
          at below ⊢
        -- Outputs that are not older than this one are not found, so that nothing can hang on them.
        have before := derived.yields (Reference.among s.graph stand entries visit')
          (Reference.among_answers older.material below) q hq
        rw [Reference.expandWithin, Direct.only_pos trivial] at before
        exact before.improved (h.expand_improves (Reference.among_improves asked) table scope own q)
    · have stands := ih supplied asked depth path others _ (supply own)
      rw [Key.standIn, h.settled] at stands
      exact stands

/-! ## Documents -/

/-- A root is what the surface of the output node comes to. -/
theorem Walk.exists_surface_of_root {s : Setting} {σ : WalkState} {root : NodeHandle}
    (came : (on (Walk.root s) σ).1 = .ok root) :
    ∃ node σ', s.graph.outputNode = some node ∧
      on (Walk.output s node Walk.surface) σ = (.ok (.node root), σ') ∧
      on (Walk.root s) σ = (.ok root, σ') := by
  unfold Walk.root at came ⊢
  dsimp only at came ⊢
  cases out : s.graph.outputNode with
  | none =>
    rw [out] at came
    cases came
  | some node =>
    simp only [out, Walk.on_bind] at came ⊢
    rcases run : on (Walk.output s node Walk.surface) σ with ⟨failure | value, σ'⟩ <;>
      rw [run] at came
    · cases came
    · cases value <;> cases came
      exact ⟨node, σ', rfl, run, rfl⟩

/-- The surface of the output node comes to the root. -/
theorem Walk.root_of_surface {s : Setting} {σ σ' : WalkState} {root : NodeHandle} {node : NodeId}
    (out : s.graph.outputNode = some node)
    (run : on (Walk.output s node Walk.surface) σ = (.ok (.node root), σ')) :
    on (Walk.root s) σ = (.ok root, σ') := by
  simp only [Walk.root, out, Walk.on_bind, run]
  rfl

namespace Document

variable {d d' : Document}

theorem formalsAgree_of_redirects (formals : d.FormalsAgree)
    (h : d.graph.Redirects stand unasked d'.graph) : d'.FormalsAgree := by
  intro a b tree called ha hb name
  rw [(h.reads a).outputDefault, (h.reads b).outputDefault]
  exact formals a b tree called ((h.reads a).kind.symm.trans ha) ((h.reads b).kind.symm.trans hb) name

/-- A material that comes to a root comes to one with other links, and the two unfold to the same tree,
    where outputs had come to what those had come to before that stand for them. -/
theorem root_redirected (formals : d.FormalsAgree) {table : RuleTable} (checked : table.check = .ok ())
    (h : d.graph.Redirects stand unasked d'.graph) (r : Recording)
    (supplied : Supplied stand
      (Walk.ask (d.setting table) .root (.start r)).cache.outputs.entries)
    (asked : ∀ e ∈ (Walk.ask (d.setting table) .root (.start r)).cache.outputs.entries,
      ¬ unasked e.1.node e.1.output) {root : NodeHandle}
    (came : (on (Walk.root (d.setting table)) (.start r)).1 = .ok root) :
    ∃ root', (on (Walk.root (d'.setting table)) (.start r)).1 = .ok root' ∧
      ((on (Walk.root (d.setting table)) (.start r)).2.recording.unfolding
        (on (Walk.root (d'.setting table)) (.start r)).2.recording).node root root' := by
  have regular : (d.setting table).Regular fun _ => True :=
    d.setting_regular checked fun a b tree called ha hb name _ _ => formals a b tree called ha.1 hb.1 name
  have grounded := ((Reached.start r).ask .root |>.resting regular).sound.outputs
  obtain ⟨node, σ, out, run, walked⟩ := Walk.exists_surface_of_root came
  rw [Walk.ask, walked] at supplied asked grounded
  rw [walked]
  have lowered : on (Walk.lower (d.setting table) (d.setting table).depth node Walk.surface) (.start r) =
      (.ok (.node root), σ) := run
  have there := Walk.mem_cache_of_lower (congrArg Prod.fst lowered)
  have evolves := Walk.lower_evolves (d.setting table) (d.setting table).depth node Walk.surface (.start r)
  rw [lowered] at there evolves
  -- Lowering without memory comes to the root, with the other links.
  have graphs : (d.setting table).graph.Redirects stand unasked (d'.setting table).graph := h
  have yields := grounded.redirected graphs rfl supplied asked d'.walkDepth [] (fun _ hk => by cases hk)
    _ there r evolves.recording.failing.symm
  dsimp only at yields
  rw [h.surface node out] at yields
  have transparent := d'.output_endsTheSame table checked (formalsAgree_of_redirects formals h)
    (.start r) node Walk.surface r rfl
  change Agrees _ _ _ _ (Reference.lower (d'.setting table) d'.walkDepth [] [] node Walk.surface r)
    at yields
  generalize hrun' : on (Walk.output (d'.setting table) node Walk.surface) (.start r) = run',
    Reference.lower (d'.setting table) d'.walkDepth [] [] node Walk.surface r = direct
    at yields transparent
  cases transparent with
  | error within =>
    cases yields with
    | tooDeep deep => exact absurd deep within
  | ok answer' =>
    cases yields with
    | ok _ answer =>
      cases answer with
      | node same =>
        cases answer' with
        | node same' =>
          rw [Walk.root_of_surface (h.outputNode.trans out) hrun']
          exact ⟨_, rfl, Recording.Same.of_common same same'⟩

end Document

end MaterialLowering
