import MaterialLowering.Proofs.Plans.ArithmeticPlans

/-!
# Rules of arithmetic outputs

The built-in entries that are arithmetic do what their formulas say. Together with the handlers this
makes up every arithmetic output: what there is to do for it is what its formula says.

Results:
* `RuleSite.subNode_gives`: a sub-node, given what its parameters come to.
* `bypass?_follows`, `task_follows`: an arithmetic output.
-/

namespace MaterialLowering

open Plan

variable {looks keeps : Prop} {quantities : Lookup → Lanes} {g : HostGraph}
  {lanes : List NodeId → NodeId → String → Option Lanes} {chain : List NodeId} {node : NodeId}
  {output : String} {m : NodeMeaning}

namespace RuleSite

variable {site : RuleSite} {asks : NodeId → String → Prop} {found : NodeId → String → Option Lanes}
  {result : Option Lanes}

/-- A sub-node comes to what its type makes of its parameters. -/
theorem subNode_gives {name : String} {rule : SubNodeRule} (h : site.rules.get? name = some rule)
    {fuel : Nat}
    (body : Gives looks True quantities asks found m
      (site.params (site.subNode fuel) rule.params >>= rule.type.plan) result) :
    Gives looks True quantities asks found m (site.subNode (fuel + 1) name) result := by
  have remembered : Gives looks True quantities asks found m
      ((site.params (site.subNode fuel) rule.params >>= rule.type.plan) >>= fun value =>
        .remember site.node site.output name value (.done value)) result :=
    body.bind fun _ _ _ l hl hv => .remember trivial (.done ⟨l, hl, hv⟩)
  refine .known trivial ?_
  show Gives looks True quantities asks found m (site.fresh (site.subNode fuel) name) result
  rw [fresh_eq h]
  cases rule.warn with
  | none => exact remembered
  | some message => exact .report remembered

theorem params_cons_bind {α : Type} {subNode : String → Plan Value} (name : String)
    (source : ValueSource) (rest : List (String × ValueSource))
    (f : List (String × Value) → Plan α) :
    site.params subNode ((name, source) :: rest) >>= f =
      site.source subNode source >>= fun value => site.params subNode rest >>= fun values =>
        f ((name, value) :: values) := by
  show ((site.source subNode source).bind _).bind f = (site.source subNode source).bind _
  rw [Plan.bind_assoc]
  congr
  funext value
  exact Plan.bind_assoc _ _ _

theorem params_nil_bind {α : Type} {subNode : String → Plan Value}
    (f : List (String × Value) → Plan α) : site.params subNode [] >>= f = f [] := rfl

/-- An output that the entry defines comes to what the sub-node of its name comes to. -/
theorem plan_gives {rule : SubNodeRule} (h : site.rules.get? site.output = some rule)
    (body : ∀ fuel, Gives looks True quantities asks found m
      (site.params (site.subNode (fuel + 1)) rule.params >>= rule.type.plan) result) :
    Gives looks True quantities asks found m site.plan result := by
  have defined : site.rules.contains site.output = true := by rw [SortedMap.contains, h]; rfl
  have entry := SortedMap.mem_entries_of_get? h
  obtain ⟨fuel, size⟩ : ∃ fuel, site.rules.size = fuel + 1 :=
    ⟨site.rules.size - 1, (Nat.succ_pred_eq_of_pos (List.length_pos_of_mem entry)).symm⟩
  rw [plan, if_pos defined, size]
  exact subNode_gives h (body fuel)

end RuleSite

/-! ## Entries -/

open RuleTable.Builtin RuleSite

theorem gamma_color : gamma.get? "Color" =
    some (plain (.fold .pow) [("color0", .input "Color"), ("color1", .input "Gamma")]) :=
  SortedMap.get?_ofList (by decide) List.mem_cons_self

theorem gamma_follows (arithmetic : Formula.gamma output ≠ .foreign)
    (has : ∀ key ∈ (Formula.gamma output).operands, g.HasValue node key) :
    Follows looks True quantities g lanes chain node output m
      (RuleSite.plan ⟨g, .gamma, gamma, node, output⟩) (.gamma output) := by
  unfold Formula.gamma at arithmetic has ⊢
  split at arithmetic
  · refine plan_gives gamma_color fun _ => ?_
    simp only [plain, params_cons_bind, params_nil_bind, RuleSite.source]
    exact binary_follows has fun _ _ _ _ _ hx hy => .ofEmission (Emission.binary_means rfl hx hy)
  · exact (arithmetic rfl).elim

theorem invert_invert : invert.get? "invert" =
    some (plain (.fold .sub)
      [("color0", .literal (.scalar .one)), ("color1", .input "Color")]) :=
  SortedMap.get?_ofList (by decide) List.mem_cons_self

theorem invert_color : invert.get? "Color" =
    some (plain (.fold .blend)
      [("color0", .input "Color"), ("color1", .node "invert"), ("weight", .input "Fac")]) :=
  SortedMap.get?_ofList (by decide) (.tail _ List.mem_cons_self)

/-- One minus the color, whichever output reads it. -/
theorem inverted_gives {operands : List SocketKey} (operand : .name "Color" ∈ operands)
    (has : g.HasValue node (.name "Color")) {found : NodeId → String → Option Lanes} (fuel : Nat) :
    Gives looks True quantities (Through g node operands) found m
      (RuleSite.params ⟨g, .invert, invert, node, output⟩
        (RuleSite.subNode ⟨g, .invert, invert, node, output⟩ fuel)
        [("color0", .literal (.scalar .one)), ("color1", .input "Color")] >>=
          (RuleType.fold .sub).plan)
      ((g.read found node (.name "Color")).map Formula.inverted) := by
  simp only [params_cons_bind, params_nil_bind, RuleSite.source]
  refine (input_gives operand has).bind fun _ _ v x hx hv => ?_
  rw [hx]
  exact .ofEmission (Emission.binary_means rfl (.constant _) hv)

theorem invert_follows (arithmetic : Formula.invert output ≠ .foreign)
    (has : ∀ key ∈ (Formula.invert output).operands, g.HasValue node key) :
    Follows looks True quantities g lanes chain node output m
      (RuleSite.plan ⟨g, .invert, invert, node, output⟩) (.invert output) := by
  unfold Formula.invert at arithmetic has ⊢
  split at arithmetic
  · exact plan_gives invert_invert fun _ =>
      inverted_gives List.mem_cons_self (has _ List.mem_cons_self) _
  · refine plan_gives invert_color fun fuel => ?_
    simp only [plain, params_cons_bind, params_nil_bind, RuleSite.source]
    refine (input_gives List.mem_cons_self (has _ List.mem_cons_self)).bind fun m₁ _ v x hx hv => ?_
    refine (subNode_gives invert_invert
      (inverted_gives List.mem_cons_self (has _ List.mem_cons_self) fuel)).bind
        fun m₂ h₂ w y hy hw => ?_
    refine (input_gives (.tail _ List.mem_cons_self) (has _ (.tail _ List.mem_cons_self))).bind
      fun m₃ h₃ u z hz hu => ?_
    rw [hx] at hy
    obtain rfl : Formula.inverted x = y := Option.some.inj hy
    simp only [Formula.evaluate, hx, hz, Option.bind_some, Option.map_some]
    exact .ofEmission (Emission.blend_means hu (hv.mono (h₂.trans h₃)) (hw.mono h₃))
  · exact (arithmetic rfl).elim

/-- A lookup comes to the quantity. -/
theorem lookup_gives {asks : NodeId → String → Prop} {found : NodeId → String → Option Lanes}
    {site : RuleSite} {subNode : String → Plan Value} (quantity : Lookup) (allowed : looks) :
    Gives looks True quantities asks found m
      (site.params subNode [] >>= (RuleType.native (.inputLookup quantity)).plan)
      (some (quantities quantity)) := by
  have computes : (NativeKind.inputLookup quantity).Computes looks quantities m []
      (quantities quantity) :=
    ⟨allowed, List.nodup_nil, fun _ => .zero, rfl, fun name hn => by cases hn⟩
  exact Computes.create computes fun _ _ a ha => Gives.done (.node allowed ha)

/-- An output that is a lookup comes to the quantity. -/
theorem plan_looks_up {site : RuleSite} {quantity : Lookup} {warn : Option String}
    (h : site.rules.get? site.output = some ⟨.native (.inputLookup quantity), [], warn⟩)
    (allowed : looks) :
    Follows looks True quantities g lanes chain node output m site.plan (.lookup quantity id) :=
  plan_gives h fun _ => lookup_gives quantity allowed

theorem texCoord_follows (arithmetic : Formula.texCoord output ≠ .foreign)
    (allowed : ∀ quantity f, Formula.texCoord output = .lookup quantity f → looks) :
    Follows looks True quantities g lanes chain node output m
      (RuleSite.plan ⟨g, .texCoord, texCoord, node, output⟩) (.texCoord output) := by
  have found : ∀ {rule}, (output, rule) ∈ _ → texCoord.get? output = some rule :=
    SortedMap.get?_ofList (by decide)
  unfold Formula.texCoord at arithmetic allowed ⊢
  split at arithmetic
  · exact plan_looks_up (found List.mem_cons_self) (allowed _ _ rfl)
  · exact plan_looks_up (found (.tail _ (.tail _ List.mem_cons_self))) (allowed _ _ rfl)
  · exact plan_looks_up (found (.tail _ List.mem_cons_self)) (allowed _ _ rfl)
  · exact plan_looks_up (found (.tail _ (.tail _ (.tail _ List.mem_cons_self)))) (allowed _ _ rfl)
  · exact (arithmetic rfl).elim

theorem newGeometry_invec : newGeometry.get? "invec" =
    some (plain (.native (.inputLookup .incoming)) []) :=
  SortedMap.get?_ofList (by decide) (.tail _ (.tail _ List.mem_cons_self))

theorem newGeometry_incoming : newGeometry.get? "Incoming" =
    some (plain (.fold .mul)
      [("color0", .literal (.scalar (-.one))), ("color1", .node "invec")]) :=
  SortedMap.get?_ofList (by decide) (.tail _ (.tail _ (.tail _ List.mem_cons_self)))

theorem newGeometry_follows (arithmetic : Formula.newGeometry output ≠ .foreign)
    (allowed : ∀ quantity f, Formula.newGeometry output = .lookup quantity f → looks) :
    Follows looks True quantities g lanes chain node output m
      (RuleSite.plan ⟨g, .newGeometry, newGeometry, node, output⟩) (.newGeometry output) := by
  have found : ∀ {rule}, (output, rule) ∈ _ → newGeometry.get? output = some rule :=
    SortedMap.get?_ofList (by decide)
  unfold Formula.newGeometry at arithmetic allowed ⊢
  split at arithmetic
  · exact plan_looks_up (found List.mem_cons_self) (allowed _ _ rfl)
  · exact plan_looks_up (found (.tail _ List.mem_cons_self)) (allowed _ _ rfl)
  · exact plan_looks_up newGeometry_invec (allowed _ _ rfl)
  · refine plan_gives newGeometry_incoming fun fuel => ?_
    simp only [plain, params_cons_bind, params_nil_bind, RuleSite.source]
    refine (subNode_gives newGeometry_invec (lookup_gives .incoming (allowed _ _ rfl))).bind
      fun _ _ v x hx hv => ?_
    obtain rfl := Option.some.inj hx
    exact .ofEmission (Emission.binary_means rfl (.constant _) hv)
  · exact (arithmetic rfl).elim

/-! ## Outputs -/

theorem reroute_follows (linked : g.hasLink node (.index 0) = true) :
    Follows looks keeps quantities g lanes chain node output m (Plan.reroute g node)
      (.handOn (.index 0)) := by
  refine (inputLink_gives List.mem_cons_self linked).bind fun m' _ v x hx hv => ?_
  rw [show (Formula.handOn (.index 0)).evaluate g quantities lanes chain node output = some x from hx]
  cases hv with
  | constant x => exact .done (.constant x)
  | node allowed h => exact .done (.node allowed h)

variable {plan : Plan Value}

/-- A node that is bypassed hands the lanes of a link on. -/
theorem bypass?_follows (h : bypass? g node = some plan)
    (fits : (g.formula node output).Fits g chain node output) :
    Follows looks keeps quantities g lanes chain node output m plan (g.formula node output) := by
  unfold bypass? at h
  unfold HostGraph.formula at fits ⊢
  split at h
  · rename_i reroute
    cases h
    rw [if_pos reroute] at fits ⊢
    exact reroute_follows fits
  · rename_i other
    split at h
    · rename_i muted
      cases h
      rw [if_neg other, if_pos muted] at fits ⊢
      unfold Plan.muted
      generalize (List.range (g.inputCount node)).find? _ = found at fits ⊢
      cases found with
      | none => exact fits.elim
      | some index => exact inputLink_gives List.mem_cons_self fits
    · cases h

theorem formula_of_bypass?_eq_none (h : bypass? g node = none) :
    g.formula node output = g.formulaOf node output (g.kind node) := by
  unfold bypass? at h
  unfold HostGraph.formula
  split at h
  · cases h
  · split at h
    · cases h
    · rename_i other unmuted
      rw [if_neg other, if_neg unmuted]

theorem lightFalloff_follows
    (has : ((g.input node (.name "Strength")).bind Socket.default).isSome) :
    Follows looks keeps quantities g lanes chain node output m
      (Handler.lightFalloff g node output)
      (.given ((g.input node (.name "Strength")).bind Socket.default)) :=
  .report (inputDefault_gives has)

theorem groupOutput_follows (has : g.HasValue node (.name output)) :
    Follows looks keeps quantities g lanes chain node output m (Plan.input g node (.name output))
      (.unary (.name output) id) := by
  show Gives _ _ _ _ _ _ _ ((g.read (lanes chain) node (.name output)).map id)
  rw [Option.map_id_fun, id_eq]
  exact input_gives List.mem_cons_self has

/-- Kinds that have no entry. -/
theorem builtin_get?_eq_none {kind : HostKind}
    (h : kind ∉ ([.bsdfDiffuse, .bsdfGlossy, .bsdfGlass, .bsdfRefraction, .bsdfTranslucent,
      .bsdfTransparent, .bsdfAnisotropic, .bsdfVelvet, .emission, .fresnel, .gamma, .invert,
      .texCoord, .newGeometry, .subsurfaceScattering] : List HostKind)) :
    RuleTable.builtin.get? kind = none :=
  SortedMap.get?_foldl_insert_of_notMem h .empty

/-- Entries of arithmetic nodes. -/
theorem builtin_get? {kind : HostKind} {rules : NodeRules}
    (h : (kind, rules) ∈ [(.gamma, gamma), (.invert, invert), (.texCoord, texCoord),
      (.newGeometry, newGeometry)]) :
    RuleTable.builtin.get? kind = some rules := by
  refine SortedMap.get?_ofList (by decide) ?_
  simp only [List.mem_cons, List.not_mem_nil, or_false] at h ⊢
  tauto

theorem task_of_rules {table : RuleTable} {rules : NodeRules}
    (h : table.get? (g.kind node) = some rules) :
    table.task g node output = .plan (RuleSite.plan ⟨g, g.kind node, rules, node, output⟩) := by
  simp only [RuleTable.task, RuleTable.resolve?, h]

theorem task_of_handler {table : RuleTable} {handler : Handler}
    (h : table.get? (g.kind node) = none) (hh : Handler.ofKind? (g.kind node) = some handler) :
    table.task g node output = .plan (handler g node output) := by
  simp only [RuleTable.task, RuleTable.resolve?, h, hh]

/-- Calls of groups, and the ways in and out of them. -/
def Task.ofBoundary? (g : HostGraph) (node : NodeId) (output : String) : HostKind → Option Task
  | .group => some .call
  | .groupInput => some .formal
  | .groupOutput => some (.plan (Plan.input g node (.name output)))
  | _ => none

theorem task_of_boundary {table : RuleTable} {kind : HostKind} {task : Task}
    (h : table.get? kind = none) (hh : Handler.ofKind? kind = none)
    (ht : Task.ofBoundary? g node output kind = some task) (hk : g.kind node = kind) :
    table.task g node output = task := by
  cases kind with
  | group | groupInput | groupOutput =>
    cases ht
    simp only [RuleTable.task, RuleTable.resolve?, hk, h, hh]
  | _ => cases ht

/-- What there is to do for an output is what its formula says. -/
inductive Task.Follows (looks : Prop) (quantities : Lookup → Lanes) (g : HostGraph)
    (lanes : List NodeId → NodeId → String → Option Lanes) (chain : List NodeId) (node : NodeId)
    (output : String) (m : NodeMeaning) : Task → Formula → Prop
  | plan {plan : Plan Value} {formula : Formula}
      (h : Plan.Follows looks True quantities g lanes chain node output m plan formula) :
      Follows looks quantities g lanes chain node output m (.plan plan) formula
  | call : Follows looks quantities g lanes chain node output m .call .call
  | formal : Follows looks quantities g lanes chain node output m .formal .formal

theorem task_follows {kind : HostKind} (hk : g.kind node = kind)
    (fits : (g.formulaOf node output kind).Fits g chain node output)
    (allowed : ∀ quantity f, g.formulaOf node output kind = .lookup quantity f → looks) :
    Task.Follows looks quantities g lanes chain node output m
      (RuleTable.builtin.task g node output) (g.formulaOf node output kind) := by
  have has := fits.hasValue
  have arithmetic := fits.ne_foreign
  have handled : ∀ {handler : Handler}, RuleTable.builtin.get? kind = none →
      Handler.ofKind? kind = some handler →
      Plan.Follows looks True quantities g lanes chain node output m (handler g node output)
        (g.formulaOf node output kind) →
      Task.Follows looks quantities g lanes chain node output m
        (RuleTable.builtin.task g node output) (g.formulaOf node output kind) := by
    intro handler hn hh follows
    subst hk
    rw [task_of_handler hn hh]
    exact .plan follows
  have ruled : ∀ {rules : NodeRules}, RuleTable.builtin.get? kind = some rules →
      Plan.Follows looks True quantities g lanes chain node output m
        (RuleSite.plan ⟨g, kind, rules, node, output⟩) (g.formulaOf node output kind) →
      Task.Follows looks quantities g lanes chain node output m
        (RuleTable.builtin.task g node output) (g.formulaOf node output kind) := by
    intro rules hr follows
    subst hk
    rw [task_of_rules hr]
    exact .plan follows
  cases kind with
  | math => exact handled (builtin_get?_eq_none (by decide)) rfl (Handler.math_follows has)
  | vectorMath =>
    exact handled (builtin_get?_eq_none (by decide)) rfl (Handler.vectorMath_follows has)
  | mixRgb =>
    exact handled (builtin_get?_eq_none (by decide)) rfl (Handler.mixRgb_follows arithmetic has)
  | value | rgb =>
    exact handled (builtin_get?_eq_none (by decide)) rfl (Handler.outputDefault_gives fits)
  | combineXyz | combineRgb =>
    exact handled (builtin_get?_eq_none (by decide)) rfl (Handler.combine_follows has)
  | separateXyz | separateRgb =>
    exact handled (builtin_get?_eq_none (by decide)) rfl (Handler.separate_follows has)
  | rgbToBw =>
    exact handled (builtin_get?_eq_none (by decide)) rfl
      (Handler.rgbToBw_follows (has _ List.mem_cons_self))
  | brightContrast =>
    exact handled (builtin_get?_eq_none (by decide)) rfl (Handler.brightContrast_follows has)
  | lightFalloff =>
    exact handled (builtin_get?_eq_none (by decide)) rfl (lightFalloff_follows fits)
  | gamma => exact ruled (builtin_get? (by simp)) (gamma_follows arithmetic has)
  | invert => exact ruled (builtin_get? (by simp)) (invert_follows arithmetic has)
  | texCoord => exact ruled (builtin_get? (by simp)) (texCoord_follows arithmetic allowed)
  | newGeometry => exact ruled (builtin_get? (by simp)) (newGeometry_follows arithmetic allowed)
  | group =>
    rw [task_of_boundary (builtin_get?_eq_none (by decide)) rfl rfl hk]
    exact .call
  | groupInput =>
    rw [task_of_boundary (builtin_get?_eq_none (by decide)) rfl rfl hk]
    exact .formal
  | groupOutput =>
    rw [task_of_boundary (builtin_get?_eq_none (by decide)) rfl rfl hk]
    exact .plan (groupOutput_follows (has _ List.mem_cons_self))
  | _ => exact (arithmetic rfl).elim

end MaterialLowering
