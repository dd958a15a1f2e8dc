import MaterialLowering.Proofs.Rules.ArithmeticRules
import MaterialLowering.Proofs.Walks.Stillness

/-!
# Lowering keeps the meaning of arithmetic graphs

What an arithmetic output comes to means in the native graph what the output means in the host
graph. Lowering without memory does, down to any depth, and a walk comes to the same as it.

Results:
* `Reference.lower_comeTo`: an output that is lowered without memory.
* `Document.output_preserves`: an output that is lowered by a walk, whatever it remembers.
-/

namespace MaterialLowering

open Walk (on)

variable {looks : Prop} {quantities : Lookup → Lanes}

/-! ## Lowering without memory -/

/-- A recording after a computation. Where nothing may be looked up, it is the one before. -/
structure Recording.Grows (looks : Prop) (r r' : Recording) : Prop where
  grown : r.Extends r'
  still : ¬ looks → r' = r

namespace Recording.Grows

variable {r r' r'' : Recording}

theorem refl (r : Recording) : r.Grows looks r := ⟨.refl r, fun _ => rfl⟩

theorem trans (h : r.Grows looks r') (h' : r'.Grows looks r'') : r.Grows looks r'' :=
  ⟨h.grown.trans h'.grown, fun none => (h'.still none).trans (h.still none)⟩

end Recording.Grows

/-- Two computations that are the same, and where they come to a value come to one of these lanes. -/
structure ComeTo (looks : Prop) (quantities : Lookup → Lanes) (direct direct' : Direct Value)
    (lanes : Option Lanes) : Prop where
  same : direct = direct'
  means : ∀ r v r', direct r = (.ok v, r') →
    r.Grows looks r' ∧ ∃ l, lanes = some l ∧ Denotes looks (r'.meanings quantities) v l

namespace Plan

variable {keeps : Prop} {asks : NodeId → String → Prop} {lanes : NodeId → String → Option Lanes}
  {visit visit' : NodeId → String → Direct Value}

/-- A plan that computes does so where the outputs that it asks for come to their lanes. -/
theorem Computes.evaluates {α : Type} {P : NodeMeaning → α → Prop} {m : NodeMeaning} {plan : Plan α}
    (h : Computes looks keeps quantities asks lanes P m plan)
    (hv : ∀ source output, asks source output →
      ComeTo looks quantities (visit source output) (visit' source output) (lanes source output))
    {r : Recording} (hm : m = r.meanings quantities) :
    plan.evaluate visit r = plan.evaluate visit' r ∧
      ∀ a r', plan.evaluate visit r = (.ok a, r') →
        r.Grows looks r' ∧ P (r'.meanings quantities) a := by
  induction h generalizing r with
  | done h =>
    refine ⟨rfl, fun a r' run => ?_⟩
    cases run
    exact ⟨.refl _, hm ▸ h⟩
  | fail => exact ⟨rfl, fun a r' run => by cases run⟩
  | @visit m source output next asked _ ih =>
    obtain ⟨same, means⟩ := hv source output asked
    replace means := means r
    simp only [evaluate, ← same]
    generalize visit source output r = direct at means ⊢
    obtain ⟨failure | v, q⟩ := direct
    · exact ⟨rfl, fun a r' run => by cases run⟩
    · obtain ⟨grows, l, hl, denotes⟩ := means v q rfl
      have more : m ≤ q.meanings quantities := hm ▸ Recording.meanings_mono grows.grown
      obtain ⟨alike, rest⟩ := ih _ more v l hl denotes rfl
      refine ⟨alike, fun a r' run => ?_⟩
      obtain ⟨later, result⟩ := rest a r' run
      exact ⟨grows.trans later, result⟩
  | @create m kind params result next computes _ ih =>
    subst hm
    have created : r.Extends (r.create kind params).2 := r.create_extends kind params
    obtain ⟨alike, rest⟩ := ih _ (Recording.meanings_mono created) _
      (Recording.means_created computes) rfl
    refine ⟨alike, fun a r' run => ?_⟩
    obtain ⟨later, result⟩ := rest a r' run
    exact ⟨⟨created.trans later.grown, fun none => (none computes.allowed).elim⟩, result⟩
  | report _ ih => exact ih hm
  | known _ _ ih => exact ih hm
  | remember _ _ ih => exact ih hm

/-- A plan that gives lanes comes to them. -/
theorem Gives.comeTo {plan : Plan Value} {result : Option Lanes}
    (h : ∀ m, Gives looks keeps quantities asks lanes m plan result)
    (hv : ∀ source output, asks source output →
      ComeTo looks quantities (visit source output) (visit' source output) (lanes source output)) :
    ComeTo looks quantities (plan.evaluate visit) (plan.evaluate visit') result :=
  ⟨funext fun r => ((h (r.meanings quantities)).evaluates hv rfl).1, fun r =>
    ((h (r.meanings quantities)).evaluates hv rfl).2⟩

end Plan

/-! ## Groups -/

theorem Denotes.or_eq {m : NodeMeaning} {v : Value} {l : Lanes} (h : Denotes looks m v l)
    (w : Value) : v.or w = v := by cases h <;> rfl

variable {g : HostGraph} {callSite : NodeId} {name : String} {visit visit' : Reference.Visit}
  {lanes : List NodeId → NodeId → String → Option Lanes} {chain : List NodeId}

/-- An argument without a value is nothing. -/
theorem argument_unset (unset : ¬ g.HasValue callSite (.name name)) :
    (∀ (visit : NodeId → String → Direct Value) r,
      (Walk.argument g callSite name).evaluate visit r = (.ok .unset, r)) ∧
    ∀ lanes, g.read lanes callSite (.name name) = none := by
  simp only [HostGraph.HasValue, not_forall, Option.not_isSome_iff_eq_none] at unset
  obtain ⟨socket, hs, unlinked, default⟩ := unset
  have checked : g.checkedLink callSite socket = .ok none := by
    rw [HostGraph.checkedLink, unlinked]
  unfold Walk.argument
  rw [if_pos (by rw [hs]; rfl), Plan.input, Plan.throughLink_eq, hs]
  simp only [checked, default]
  refine ⟨fun _ _ => rfl, fun lanes => ?_⟩
  rw [HostGraph.read, hs, Option.bind_some]
  simp only [unlinked, default]

theorem argument_comeTo {around : List NodeId} (has : g.HasValue callSite (.name name))
    (hv : ∀ source output, Plan.Through g callSite [.name name] source output →
      ComeTo looks quantities (visit around source output) (visit' around source output)
        (lanes around source output)) :
    ComeTo looks quantities ((Walk.argument g callSite name).evaluate (visit around))
      ((Walk.argument g callSite name).evaluate (visit' around))
      (g.read (lanes around) callSite (.name name)) := by
  have gives : ∀ m, Plan.Gives looks False quantities (Plan.Through g callSite [.name name])
      (lanes around) m (Walk.argument g callSite name)
      (g.read (lanes around) callSite (.name name)) := by
    intro m
    unfold Walk.argument
    split
    · exact Plan.input_gives List.mem_cons_self has
    · exact .fail
  exact Plan.Gives.comeTo gives hv

/-- A formal input comes to the argument, or to its own default. -/
theorem formal_comeTo {groupInput : NodeId} (fits : Formula.formal.Fits g chain groupInput name)
    (hv : ∀ callSite around, chain = callSite :: around → ∀ source output,
      Plan.Through g callSite [.name name] source output →
        ComeTo looks quantities (visit around source output) (visit' around source output)
          (lanes around source output)) :
    ComeTo looks quantities (Reference.formal g visit chain groupInput name)
      (Reference.formal g visit' chain groupInput name)
      (Formula.formal.evaluate g quantities lanes chain groupInput name) := by
  unfold Reference.formal
  cases chain with
  | nil => exact ⟨rfl, fun r v r' run => by cases run⟩
  | cons callSite around =>
    simp only [Formula.evaluate]
    by_cases has : g.HasValue callSite (.name name)
    · obtain ⟨same, means⟩ := argument_comeTo has (hv callSite around rfl)
      refine ⟨by rw [same], fun r v r' run => ?_⟩
      replace means := means r
      generalize (Walk.argument g callSite name).evaluate (visit around) r = direct at run means
      obtain ⟨failure | found, q⟩ := direct
      · cases run
      · obtain ⟨grows, l, hl, denotes⟩ := means found q rfl
        cases run
        rw [hl, denotes.or_eq]
        exact ⟨grows, l, rfl, denotes⟩
    · obtain ⟨unset, read⟩ := argument_unset has
      obtain ⟨l, hl⟩ := Option.isSome_iff_exists.1 ((fits.1 callSite around rfl).resolve_left has)
      simp only [unset, read]
      refine ⟨rfl, fun r v r' run => ?_⟩
      cases run
      rw [hl]
      exact ⟨.refl _, l, rfl, .constant l⟩

/-- A call comes to what the output of the group comes to inside. -/
theorem call_comeTo {output : String}
    (hv : ∀ tree groupOutput, g.groupTree callSite = some tree →
      g.groupOutput tree = some groupOutput →
        ComeTo looks quantities (visit (callSite :: chain) groupOutput output)
          (visit' (callSite :: chain) groupOutput output)
          (lanes (callSite :: chain) groupOutput output)) :
    ComeTo looks quantities (Reference.call g visit chain callSite output)
      (Reference.call g visit' chain callSite output)
      (Formula.call.evaluate g quantities lanes chain callSite output) := by
  unfold Reference.call Formula.evaluate
  cases ht : g.groupTree callSite with
  | none => exact ⟨rfl, fun r v r' run => by cases run⟩
  | some tree =>
    dsimp only [Option.bind_some]
    split
    · exact ⟨rfl, fun r v r' run => by cases run⟩
    · cases ho : g.groupOutput tree with
      | none => exact ⟨rfl, fun r v r' run => by cases run⟩
      | some groupOutput => exact hv tree groupOutput ht ho

/-! ## Outputs -/

variable {s : Setting}

/-- An output that fits, where what it reads comes to its lanes. -/
theorem expand_comeTo (builtin : s.table = .builtin) {key : Key} (fits : s.graph.Fits key)
    (allowed : s.graph.Looking looks key)
    (hv : ∀ other, s.graph.Reads key other → ComeTo looks quantities
      (visit other.scope other.node other.output) (visit' other.scope other.node other.output)
      (lanes other.scope other.node other.output)) :
    ComeTo looks quantities (Reference.expand s visit key.scope key.node key.output)
      (Reference.expand s visit' key.scope key.node key.output)
      ((s.graph.formula key.node key.output).evaluate s.graph quantities lanes key.scope key.node
        key.output) := by
  obtain ⟨node, output, chain, material⟩ := key
  have asked : ∀ source output', Plan.Through s.graph node (s.graph.formula node output).operands
      source output' → ComeTo looks quantities (visit chain source output')
        (visit' chain source output') (lanes chain source output') := by
    rintro source output' ⟨operand, ho, socket, link, hs, hl, rfl, rfl⟩
    exact hv ⟨link.node, link.output, chain, material⟩ (.operand ho hs hl)
  unfold Reference.expand
  cases hb : bypass? s.graph node with
  | some plan =>
    have follows : ∀ m, Plan.Follows looks True quantities s.graph lanes chain node output m plan
        (s.graph.formula node output) := fun m => bypass?_follows hb fits
    exact Plan.Gives.comeTo follows asked
  | none =>
    have formula : s.graph.formula node output = s.graph.formulaOf node output (s.graph.kind node) :=
      formula_of_bypass?_eq_none hb
    have follows : ∀ m, Task.Follows looks quantities s.graph lanes chain node output m
        (s.table.task s.graph node output) (s.graph.formula node output) := by
      intro m
      rw [builtin, formula]
      exact task_follows rfl (formula ▸ fits) fun quantity f hf =>
        allowed _ .refl quantity f (formula.trans hf)
    dsimp only
    generalize s.table.task s.graph node output = task at follows ⊢
    cases task with
    | plan plan =>
      have same : ∀ m, Plan.Follows looks True quantities s.graph lanes chain node output m plan
          (s.graph.formula node output) := by
        intro m
        cases follows m with
        | plan h => exact h
      exact Plan.Gives.comeTo same asked
    | call =>
      have call : s.graph.formula node output = .call := by
        generalize s.graph.formula node output = formula at follows
        cases follows fun _ _ => False
        rfl
      rw [call]
      exact call_comeTo fun tree groupOutput ht ho => hv _ (.call call ht ho)
    | formal =>
      have formal : s.graph.formula node output = .formal := by
        generalize s.graph.formula node output = formula at follows
        cases follows fun _ _ => False
        rfl
      rw [formal]
      refine formal_comeTo (formal ▸ fits) fun callSite around hc source output' through => ?_
      obtain ⟨operand, ho, socket, link, hs, hl, rfl, rfl⟩ := through
      obtain rfl := List.mem_singleton.1 ho
      subst hc
      exact hv ⟨link.node, link.output, around, material⟩ (.argument formal hs hl)

/-- An arithmetic output that is lowered without memory comes to its meaning. Whether formal inputs
    are settled is not in question there. -/
theorem Reference.lower_comeTo (builtin : s.table = .builtin) (depth : Nat) (path : List Key)
    {key : Key} (arithmetic : s.graph.Arithmetic key) (allowed : s.graph.Looking looks key) :
    ComeTo looks quantities
      (lowerWithin s s.graph.Settled depth path key.scope key.node key.output)
      (lower s depth path key.scope key.node key.output)
      (s.graph.meaning quantities depth key.scope key.node key.output) := by
  induction depth generalizing path key with
  | zero => exact ⟨rfl, fun r v r' run => by cases run⟩
  | succ depth ih =>
    have settled : s.graph.Settled ⟨key.node, key.output, key.scope, s.graph.material⟩ :=
      arithmetic.fits.settled
    have below : ∀ path, ComeTo looks quantities
        (expand s (lowerWithin s s.graph.Settled depth path) key.scope key.node key.output)
        (expand s (lower s depth path) key.scope key.node key.output)
        (s.graph.meaning quantities (depth + 1) key.scope key.node key.output) := fun path =>
      expand_comeTo builtin arithmetic.fits allowed fun other reads =>
        ih path (arithmetic.of_reads reads) (allowed.of_reads reads)
    refine ⟨funext fun r => ?_, fun r v r' run => ?_⟩
    · simp only [lowerWithin, lower, expandWithin, Direct.only_pos settled, (below _).same]
    · simp only [lowerWithin, expandWithin, Direct.only_pos settled] at run
      split at run
      · cases run
      · exact (below _).means r v r' run

/-! ## Walks -/

/-- A value stands for lanes, where lookups have the given ones. -/
def Recording.Interprets (r : Recording) (quantities : Lookup → Lanes) (v : Value) (lanes : Lanes) :
    Prop := ∃ p, Param.ofValue? v = some p ∧ r.Means quantities p lanes

theorem Recording.Interprets.unique {r : Recording} {v : Value} {lanes lanes' : Lanes}
    (h : r.Interprets quantities v lanes) (h' : r.Interprets quantities v lanes') :
    lanes = lanes' := by
  obtain ⟨p, hp, means⟩ := h
  obtain ⟨p', hp', means'⟩ := h'
  obtain rfl : p = p' := Option.some.inj (hp.symm.trans hp')
  exact means.unique means'

/-- Values that unfold to one tree denote the same. -/
theorem Denotes.of_unfolding {r q : Recording} {v v' : Value} {lanes : Lanes}
    (h : Denotes looks (q.meanings quantities) v' lanes) (same : (r.unfolding q).Answer v v') :
    Denotes looks (r.meanings quantities) v lanes := by
  cases h with
  | constant lanes =>
    cases same
    exact .constant lanes
  | node allowed h =>
    cases same with
    | node same => exact .node allowed (h.of_same same)

/-- What denotes lanes stands for them and for no others. -/
theorem Denotes.interprets {r : Recording} {v : Value} {lanes : Lanes}
    (h : Denotes looks (r.meanings quantities) v lanes) (other : Lanes) :
    r.Interprets quantities v other ↔ other = lanes := by
  have own : r.Interprets quantities v lanes := Recording.exists_param h
  exact ⟨fun means => means.unique own, fun same => same ▸ own⟩

/-- Where they are settled, the formals of a document have one default in their group. -/
theorem Document.settled_regular (d : Document) : (d.setting .builtin).Regular d.graph.Settled := by
  have formal : ∀ a : NodeId, d.graph.IsGroupInput a → ∀ name, d.graph.formula a name = .formal := by
    intro a ha name
    rw [formula_of_bypass?_eq_none ha.2, ha.1]
    rfl
  exact d.setting_regular RuleTable.builtin_check fun a b tree _ ha hb name _ settled =>
    settled (formal b hb name) a (formal a ha name) tree

/-- Whatever a walk remembers, an arithmetic output comes to what it means, as it does without
    memory. -/
theorem Document.output_denotes (d : Document) (quantities : Lookup → Lanes) {σ σ' : WalkState}
    (reached : Reached (d.setting .builtin) σ) {node : NodeId} {output : String}
    (arithmetic : d.graph.Arithmetic ⟨node, output, [], d.graph.material⟩)
    (allowed : d.graph.Looking looks ⟨node, output, [], d.graph.material⟩) {v : Value}
    (run : on (Walk.output (d.setting .builtin) node output) σ = (.ok v, σ')) :
    ∃ v' q, Reference.lower (d.setting .builtin) d.walkDepth [] [] node output σ.recording =
        (.ok v', q) ∧
      σ.recording.Grows looks q ∧ ∃ lanes, Denotes looks (σ'.recording.meanings quantities) v lanes ∧
        ∀ depth, d.walkDepth ≤ depth →
          d.graph.meaning quantities depth [] node output = some lanes := by
  have comes : ∀ depth, ComeTo looks quantities
      (Reference.lowerWithin (d.setting .builtin) d.graph.Settled depth [] [] node output)
      (Reference.lower (d.setting .builtin) depth [] [] node output)
      (d.graph.meaning quantities depth [] node output) := fun depth =>
    Reference.lower_comeTo (s := d.setting .builtin) rfl depth [] arithmetic allowed
  have resting := reached.resting d.settled_regular
  have agrees := resting.agrees d.settled_regular d.walkDepth node output σ.recording rfl
  have ends := lower_ends .builtin (Nat.le_refl d.walkDepth) node output σ.recording
  replace run : on (Walk.lower (d.setting .builtin) d.walkDepth node output) σ = (.ok v, σ') := run
  rw [run, (comes d.walkDepth).same] at agrees
  generalize hdirect : Reference.lower (d.setting .builtin) d.walkDepth [] [] node output σ.recording =
    direct at agrees ends
  cases agrees with
  | tooDeep h => exact (ends.not_tooDeep rfl h).elim
  | @ok _ v' q _ answer =>
    obtain ⟨grows, lanes, -, denotes⟩ := (comes d.walkDepth).means σ.recording v' q
      (by rw [(comes d.walkDepth).same, hdirect])
    refine ⟨v', q, rfl, grows, lanes, denotes.of_unfolding answer, fun depth hd => ?_⟩
    have deeper := Reference.lower_deeper (s := d.setting .builtin) hd [] [] node output σ.recording
      fun failure hf => by
        rw [hdirect] at hf
        exact ends.not_tooDeep hf
    obtain ⟨-, lanes', meaning, denotes'⟩ := (comes depth).means σ.recording v' q
      (by rw [(comes depth).same, deeper, hdirect])
    obtain rfl : lanes' = lanes := (denotes.interprets lanes').1 ((denotes'.interprets lanes').2 rfl)
    exact meaning

/-- Where nothing is looked up, nothing is added to the recording. -/
theorem Document.output_still (d : Document) {σ σ' : WalkState}
    (reached : Reached (d.setting .builtin) σ) {node : NodeId} {output : String}
    (arithmetic : d.graph.Arithmetic ⟨node, output, [], d.graph.material⟩)
    (free : d.graph.LookupFree ⟨node, output, [], d.graph.material⟩) {v : Value}
    (run : on (Walk.output (d.setting .builtin) node output) σ = (.ok v, σ')) :
    σ'.recording = σ.recording := by
  have resting := reached.resting d.settled_regular
  have comes : ComeTo False (fun _ => .zero)
      (Reference.lowerWithin (d.setting .builtin) d.graph.Settled d.walkDepth [] [] node output)
      (Reference.lower (d.setting .builtin) d.walkDepth [] [] node output)
      (d.graph.meaning (fun _ => .zero) d.walkDepth [] node output) :=
    Reference.lower_comeTo (s := d.setting .builtin) rfl _ [] arithmetic free
  obtain ⟨v', q, direct, grows, -⟩ := d.output_denotes (fun _ => .zero) reached arithmetic free run
  rw [grows.still id, ← comes.same] at direct
  have still := Walk.lowersStill d.settled_regular d.walkDepth node output σ resting.sound
    (resting.stands node) v'
  rw [resting.active, WalkState.scope, resting.stack] at still
  have same := still direct
  replace run : on (Walk.lower (d.setting .builtin) d.walkDepth node output) σ = (.ok v, σ') := run
  rwa [run] at same

/-- Lowering keeps the meaning of arithmetic outputs. What an output comes to stands for the lanes of
    the output, and for no others. Where nothing is looked up, it is a constant and nothing is added
    to the recording. -/
theorem Document.output_preserves (d : Document) (quantities : Lookup → Lanes) {σ σ' : WalkState}
    (reached : Reached (d.setting .builtin) σ) {node : NodeId} {output : String}
    (arithmetic : d.graph.Arithmetic ⟨node, output, [], d.graph.material⟩) {v : Value}
    (run : on (Walk.output (d.setting .builtin) node output) σ = (.ok v, σ')) :
    ∃ lanes, (∀ depth, d.walkDepth ≤ depth →
        d.graph.meaning quantities depth [] node output = some lanes) ∧
      (∀ other, σ'.recording.Interprets quantities v other ↔ other = lanes) ∧
      (d.graph.LookupFree ⟨node, output, [], d.graph.material⟩ →
        v = .constant lanes ∧ σ'.recording = σ.recording) := by
  have always : d.graph.Looking True ⟨node, output, [], d.graph.material⟩ := fun _ _ _ _ _ => trivial
  obtain ⟨_, _, -, -, lanes, denotes, meaning⟩ :=
    d.output_denotes quantities reached arithmetic always run
  refine ⟨lanes, meaning, denotes.interprets, fun free => ?_⟩
  obtain ⟨_, _, -, -, lanes', constant, -⟩ := d.output_denotes quantities reached arithmetic free run
  obtain rfl : lanes' = lanes := (denotes.interprets lanes').1 ((constant.interprets lanes').2 rfl)
  refine ⟨?_, d.output_still reached arithmetic free run⟩
  cases constant with
  | constant => rfl
  | node none => exact none.elim

namespace Document

/-- A color between the texture coordinates and what they come to when one is added to them. -/
def mapped : Document where
  name := "mapped"
  tree :=
    { nodes :=
        [⟨"coordinates", .texCoord, [], [⟨"UV", none, false⟩], .ofList [], false⟩,
          ⟨"sum", .math, [⟨"Value", none, false⟩, ⟨"Value", some (.scalar .one), false⟩],
            [⟨"Value", none, false⟩], .ofList [("operation", .text "ADD")], false⟩,
          ⟨"mix", .mixRgb,
            [⟨"Fac", some (.scalar Folding.half), false⟩, ⟨"Color1", none, false⟩,
              ⟨"Color2", none, false⟩],
            [⟨"Color", none, false⟩], .ofList [("blend_type", .text "MIX")], false⟩]
      links :=
        [⟨"coordinates", "UV", "sum", .index 0, false⟩, ⟨"coordinates", "UV", "mix", .name "Color1", false⟩,
          ⟨"sum", "Value", "mix", .name "Color2", false⟩] }
  groups := []

/-- The outputs of the mapped document. -/
def mappedKeys : List Key :=
  [⟨⟨.material, 2⟩, "Color", [], "mapped"⟩, ⟨⟨.material, 1⟩, "Value", [], "mapped"⟩,
    ⟨⟨.material, 0⟩, "UV", [], "mapped"⟩]

theorem mapped_arithmetic : ∀ key ∈ mappedKeys, mapped.graph.Arithmetic key := by
  have mixed : mapped.graph.formula ⟨.material, 2⟩ "Color" =
      .ternary (.name "Fac") (.name "Color1") (.name "Color2")
        fun t a b => mapped.graph.clamping ⟨.material, 2⟩ (Lanes.mix t a b) := rfl
  have summed : mapped.graph.formula ⟨.material, 1⟩ "Value" = .binary (.index 0) (.index 1)
      fun a b => mapped.graph.clamping ⟨.material, 1⟩ (Folding.binary .add a b) := rfl
  have looked : mapped.graph.formula ⟨.material, 0⟩ "UV" = .lookup .uv id := rfl
  refine fun key hk => HostGraph.Arithmetic.of_closed (fun key hk => ?_) hk
  unfold mappedKeys at hk
  simp only [List.mem_cons, List.not_mem_nil, or_false] at hk
  rcases hk with rfl | rfl | rfl
  · refine ⟨?_, fun other reads => ?_⟩
    · rw [HostGraph.Fits, mixed]
      intro operand ho socket hs unlinked
      simp only [Formula.operands, List.mem_cons, List.not_mem_nil, or_false] at ho
      rcases ho with rfl | rfl | rfl <;> cases hs
      · rfl
      · cases unlinked
      · cases unlinked
    · cases reads with
      | operand ho hs hl =>
        rw [mixed] at ho
        simp only [Formula.operands, List.mem_cons, List.not_mem_nil, or_false] at ho
        rcases ho with rfl | rfl | rfl <;> cases hs <;> cases hl
        · exact .tail _ (.tail _ List.mem_cons_self)
        · exact .tail _ List.mem_cons_self
      | call call => cases call
  · refine ⟨?_, fun other reads => ?_⟩
    · rw [HostGraph.Fits, summed]
      intro operand ho socket hs unlinked
      simp only [Formula.operands, List.mem_cons, List.not_mem_nil, or_false] at ho
      rcases ho with rfl | rfl <;> cases hs
      · cases unlinked
      · rfl
    · cases reads with
      | operand ho hs hl =>
        rw [summed] at ho
        simp only [Formula.operands, List.mem_cons, List.not_mem_nil, or_false] at ho
        rcases ho with rfl | rfl <;> cases hs <;> cases hl
        exact .tail _ (.tail _ List.mem_cons_self)
      | call call => cases call
  · refine ⟨?_, fun other reads => ?_⟩
    · rw [HostGraph.Fits, looked]
      exact fun _ ho => by cases ho
    · cases reads with
      | operand ho =>
        rw [looked] at ho
        cases ho
      | call call => cases call

/-- Where the coordinates are one, the blend node that the mapped document comes to stands for one and a
    half, and for nothing else. -/
theorem output_preserves_mapped :
    let s := mapped.setting .builtin
    let run := on (Walk.output s ⟨.material, 2⟩ "Color") (.start .empty)
    let ones : Lookup → Lanes := fun _ => .splat .one
    Reached s (.start .empty) ∧ mapped.graph.Arithmetic ⟨⟨.material, 2⟩, "Color", [], "mapped"⟩ ∧
      run = (.ok (.node ⟨2⟩), run.2) ∧
      run.2.recording.nodes.map RecordedNode.kind = #[.inputLookup .uv, .arithmetic .add, .blendValue] ∧
      ∀ other, run.2.recording.Interprets ones (.node ⟨2⟩) other ↔ other = .splat (.ofRatio 3 2) := by
  intro s run ones
  have reached : Reached s (.start .empty) := .start .empty
  have arithmetic : mapped.graph.Arithmetic ⟨⟨.material, 2⟩, "Color", [], "mapped"⟩ :=
    mapped_arithmetic _ List.mem_cons_self
  have value : run.1 = .ok (.node ⟨2⟩) := by decide +kernel
  have ran : run = (.ok (.node ⟨2⟩), run.2) := by rw [← value]
  obtain ⟨lanes, meaning, stands, -⟩ := mapped.output_preserves ones reached arithmetic ran
  have result : mapped.graph.meaning ones mapped.walkDepth [] ⟨.material, 2⟩ "Color" =
      some (.splat (.ofRatio 3 2)) := by decide +kernel
  obtain rfl := Option.some.inj ((meaning _ (Nat.le_refl _)).symm.trans result)
  exact ⟨reached, arithmetic, ran, by decide +kernel, stands⟩

end Document

end MaterialLowering
