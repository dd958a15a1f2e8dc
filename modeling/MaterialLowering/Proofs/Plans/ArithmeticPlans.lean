import MaterialLowering.Proofs.Arithmetic.EmittedArithmetic

/-!
# Plans of arithmetic outputs

The plan of an arithmetic output comes to what the formula of the output says. A plan *computes*
when it asks for outputs through the operands of its own node only, and comes to a value of the
right lanes wherever those outputs do.

Results:
* `Plan.Computes.bind`: one plan after another.
* `unary_follows`, `binary_follows`, `ternary_follows`: formulas of few operands.
* `Handler.math_follows`, …, `Handler.brightContrast_follows`: handlers.
-/

namespace MaterialLowering

/-! ## Plans -/

namespace Plan

variable {α β : Type} {looks keeps : Prop} {quantities : Lookup → Lanes} {g : HostGraph}
  {asks : NodeId → String → Prop} {lanes : NodeId → String → Option Lanes}

/-- A plan whose nodes have meanings, and whose result has `P`, where the outputs that it asks for have
    the given lanes. It asks for no output outside of `asks`, and keeps nothing unless `keeps`. -/
inductive Computes (looks keeps : Prop) (quantities : Lookup → Lanes) (asks : NodeId → String → Prop)
    (lanes : NodeId → String → Option Lanes) (P : NodeMeaning → α → Prop) :
    NodeMeaning → Plan α → Prop
  | done {m : NodeMeaning} {a : α} (h : P m a) :
      Computes looks keeps quantities asks lanes P m (.done a)
  | fail {m : NodeMeaning} {failure : Failure} :
      Computes looks keeps quantities asks lanes P m (.fail failure)
  | visit {m : NodeMeaning} {source : NodeId} {output : String} {next : Value → Plan α}
      (asked : asks source output)
      (go : ∀ m', m ≤ m' → ∀ v l, lanes source output = some l → Denotes looks m' v l →
        Computes looks keeps quantities asks lanes P m' (next v)) :
      Computes looks keeps quantities asks lanes P m (.visit source output next)
  | create {m : NodeMeaning} {kind : NativeKind} {params : List (String × Value)} {result : Lanes}
      {next : NodeHandle → Plan α} (h : kind.Computes looks quantities m params result)
      (go : ∀ m', m ≤ m' → ∀ a, m' a result →
        Computes looks keeps quantities asks lanes P m' (next a)) :
      Computes looks keeps quantities asks lanes P m (.create kind params next)
  | report {m : NodeMeaning} {notice : Notice} {next : Plan α}
      (go : Computes looks keeps quantities asks lanes P m next) :
      Computes looks keeps quantities asks lanes P m (.report notice next)
  | known {m : NodeMeaning} {node : NodeId} {output subNode : String}
      {next : Option Value → Plan α} (kept : keeps)
      (go : Computes looks keeps quantities asks lanes P m (next none)) :
      Computes looks keeps quantities asks lanes P m (.known node output subNode next)
  | remember {m : NodeMeaning} {node : NodeId} {output subNode : String} {value : Value}
      {next : Plan α} (kept : keeps) (go : Computes looks keeps quantities asks lanes P m next) :
      Computes looks keeps quantities asks lanes P m (.remember node output subNode value next)

/-- A plan that comes to a value of these lanes. -/
abbrev Gives (looks keeps : Prop) (quantities : Lookup → Lanes) (asks : NodeId → String → Prop)
    (lanes : NodeId → String → Option Lanes) (m : NodeMeaning) (plan : Plan Value)
    (result : Option Lanes) : Prop :=
  Computes looks keeps quantities asks lanes (fun m v => ∃ l, result = some l ∧ Denotes looks m v l) m
    plan

theorem Computes.bind {P : NodeMeaning → α → Prop} {P' : NodeMeaning → β → Prop} {m : NodeMeaning}
    {p : Plan α} {f : α → Plan β} (h : Computes looks keeps quantities asks lanes P m p)
    (hf : ∀ m', m ≤ m' → ∀ a, P m' a → Computes looks keeps quantities asks lanes P' m' (f a)) :
    Computes looks keeps quantities asks lanes P' m (p >>= f) := by
  induction h with
  | done h => exact hf _ le_rfl _ h
  | fail => exact .fail
  | visit asked _ ih =>
    exact .visit asked fun m' hm v l hl hv => ih m' hm v l hl hv fun m'' hm' => hf m'' (hm.trans hm')
  | create h _ ih =>
    exact .create h fun m' hm a ha => ih m' hm a ha fun m'' hm' => hf m'' (hm.trans hm')
  | report _ ih => exact .report (ih hf)
  | known kept _ ih => exact .known kept (ih hf)
  | remember kept _ ih => exact .remember kept (ih hf)

variable {m : NodeMeaning} {plan : Plan Value} {result result' : Option Lanes}

theorem Gives.bind {f : Value → Plan Value} (h : Gives looks keeps quantities asks lanes m plan result)
    (hf : ∀ m', m ≤ m' → ∀ v l, result = some l → Denotes looks m' v l →
      Gives looks keeps quantities asks lanes m' (f v) result') :
    Gives looks keeps quantities asks lanes m (plan >>= f) result' :=
  Computes.bind h fun m' hm v ⟨l, hl, hv⟩ => hf m' hm v l hl hv

theorem Gives.done {v : Value} {l : Lanes} (h : Denotes looks m v l) :
    Gives looks keeps quantities asks lanes m (.done v) (some l) := Computes.done ⟨l, rfl, h⟩

/-- What an emission comes to. -/
theorem Gives.ofEmission {e : Emission Value} {l : Lanes} (h : e.Means looks quantities m l) :
    Gives looks keeps quantities asks lanes m (Plan.ofEmission e) (some l) := by
  induction h with
  | done h => exact .done h
  | create h _ ih => exact Computes.create h ih

/-- A plan after an emission that comes to lanes. -/
theorem Gives.emitting {e : Emission Value} {l : Lanes} {f : Value → Plan Value}
    (h : e.Means looks quantities m l)
    (hf : ∀ m', m ≤ m' → ∀ v, Denotes looks m' v l →
      Gives looks keeps quantities asks lanes m' (f v) result) :
    Gives looks keeps quantities asks lanes m (Plan.ofEmission e >>= f) result := by
  refine (Gives.ofEmission h).bind fun m' hm v l' hl hv => ?_
  obtain rfl := Option.some.inj hl
  exact hf m' hm v hv

/-! ## Inputs -/

/-- An output that a link leads from into one of the sockets of a node. -/
def Through (g : HostGraph) (node : NodeId) (operands : List SocketKey) (source : NodeId)
    (output : String) : Prop :=
  ∃ key ∈ operands, ∃ socket link, g.input node key = some socket ∧
    socket.visibleLink = some link ∧ link.node = source ∧ link.output = output

variable {node : NodeId} {operands : List SocketKey} {key : SocketKey}

theorem input_gives (operand : key ∈ operands) (has : g.HasValue node key) :
    Gives looks keeps quantities (Through g node operands) lanes m (input g node key)
      (g.read lanes node key) := by
  rw [input, throughLink_eq]
  unfold HostGraph.read
  cases hs : g.input node key with
  | none => exact .fail
  | some socket =>
    rw [Option.bind_some]
    dsimp only
    cases hc : g.checkedLink node socket with
    | error failure => exact .fail
    | ok link =>
      cases link with
      | none =>
        have unlinked := HostGraph.visibleLink_of_checkedLink_none hc
        obtain ⟨l, hl⟩ := Option.isSome_iff_exists.1 (has socket hs unlinked)
        rw [unlinked, hl]
        exact .done (.constant l)
      | some link =>
        have visible := HostGraph.visibleLink_of_checkedLink hc
        rw [visible]
        exact .visit ⟨key, operand, socket, link, hs, visible, rfl, rfl⟩
          fun m' _ v l hl hv => .done ⟨l, hl, hv⟩

theorem inputLink_gives (operand : key ∈ operands) (linked : g.hasLink node key = true) :
    Gives looks keeps quantities (Through g node operands) lanes m (inputLink g node key)
      (g.follow lanes node key) := by
  rw [inputLink, throughLink_eq]
  unfold HostGraph.hasLink at linked
  unfold HostGraph.follow
  cases hs : g.input node key with
  | none => exact .fail
  | some socket =>
    rw [hs] at linked
    simp only [Option.bind_some] at linked ⊢
    cases hc : g.checkedLink node socket with
    | error failure => exact .fail
    | ok link =>
      cases link with
      | none =>
        rw [HostGraph.visibleLink_of_checkedLink_none hc] at linked
        cases linked
      | some link =>
        have visible := HostGraph.visibleLink_of_checkedLink hc
        rw [visible]
        exact .visit ⟨key, operand, socket, link, hs, visible, rfl, rfl⟩
          fun m' _ v l hl hv => .done ⟨l, hl, hv⟩

theorem inputDefault_gives (has : ((g.input node key).bind Socket.default).isSome) :
    Gives looks keeps quantities asks lanes m (inputDefault g node key)
      ((g.input node key).bind Socket.default) := by
  unfold inputDefault HostGraph.socket
  cases hs : g.input node key with
  | none => exact .fail
  | some socket =>
    rw [hs] at has
    obtain ⟨l, hl⟩ := Option.isSome_iff_exists.1 has
    rw [hl]
    rw [Option.bind_some] at hl
    show Gives _ _ _ _ _ _ (.done (.ofLanes? socket.default)) _
    rw [hl]
    exact .done (.constant l)

/-- The plan comes to what the formula says of the lanes of other outputs. -/
abbrev Follows (looks keeps : Prop) (quantities : Lookup → Lanes) (g : HostGraph)
    (lanes : List NodeId → NodeId → String → Option Lanes) (chain : List NodeId) (node : NodeId)
    (output : String) (m : NodeMeaning) (plan : Plan Value) (formula : Formula) : Prop :=
  Gives looks keeps quantities (Through g node formula.operands) (lanes chain) m plan
    (formula.evaluate g quantities lanes chain node output)

end Plan

open Plan

variable {looks keeps : Prop} {quantities : Lookup → Lanes} {g : HostGraph}
  {lanes : List NodeId → NodeId → String → Option Lanes} {chain : List NodeId} {node : NodeId}
  {output : String} {m : NodeMeaning}

/-! ## Formulas of few operands -/

theorem binary_follows {first second : SocketKey} {f : Lanes → Lanes → Lanes}
    {body : Value → Value → Plan Value} (has : ∀ key ∈ [first, second], g.HasValue node key)
    (h : ∀ m' v w x y, Denotes looks m' v x → Denotes looks m' w y →
      Gives looks keeps quantities (Through g node [first, second]) (lanes chain) m' (body v w)
        (some (f x y))) :
    Follows looks keeps quantities g lanes chain node output m
      (Plan.input g node first >>= fun v => Plan.input g node second >>= body v)
      (.binary first second f) := by
  refine (input_gives List.mem_cons_self (has first (by simp))).bind fun _ _ v x hx hv => ?_
  refine (input_gives (by simp) (has second (by simp))).bind fun m' hm w y hy hw => ?_
  simp only [Formula.evaluate, hx, hy, Option.bind_some, Option.map_some]
  exact h m' v w x y (hv.mono hm) hw

theorem ternary_follows {first second third : SocketKey} {f : Lanes → Lanes → Lanes → Lanes}
    {body : Value → Value → Value → Plan Value}
    (has : ∀ key ∈ [first, second, third], g.HasValue node key)
    (h : ∀ m' u v w x y z, Denotes looks m' u x → Denotes looks m' v y → Denotes looks m' w z →
      Gives looks keeps quantities (Through g node [first, second, third]) (lanes chain) m'
        (body u v w) (some (f x y z))) :
    Follows looks keeps quantities g lanes chain node output m
      (Plan.input g node first >>= fun u => Plan.input g node second >>= fun v =>
        Plan.input g node third >>= body u v)
      (.ternary first second third f) := by
  refine (input_gives List.mem_cons_self (has first (by simp))).bind fun _ _ u x hx hu => ?_
  refine (input_gives (by simp) (has second (by simp))).bind fun _ h₁ v y hy hv => ?_
  refine (input_gives (by simp) (has third (by simp))).bind fun m' h₂ w z hz hw => ?_
  simp only [Formula.evaluate, hx, hy, hz, Option.bind_some, Option.map_some]
  exact h m' u v w x y z (hu.mono (h₁.trans h₂)) (hv.mono h₂) hw

theorem unary_follows {key : SocketKey} {f : Lanes → Lanes} {body : Value → Plan Value}
    (has : g.HasValue node key)
    (h : ∀ m' v x, Denotes looks m' v x →
      Gives looks keeps quantities (Through g node [key]) (lanes chain) m' (body v) (some (f x))) :
    Follows looks keeps quantities g lanes chain node output m (Plan.input g node key >>= body)
      (.unary key f) := by
  refine (input_gives (List.mem_singleton.2 rfl) has).bind fun m' _ v x hx hv => ?_
  simp only [Formula.evaluate, hx, Option.map_some]
  exact h m' v x hv

/-- Something is made of the first input, and then something of the result. -/
theorem ofFirst_follows {f h : Lanes → Lanes} {emission : Value → Emission Value}
    {after : Value → Plan Value}
    (hf : ∀ m v x, Denotes looks m v x → (emission v).Means looks quantities m (f x))
    (ha : ∀ m v x, Denotes looks m v x →
      Gives looks keeps quantities (Through g node [.index 0]) (lanes chain) m (after v) (some (h x)))
    (has : ∀ key ∈ ((Formula.ofFirst f).andThen h).operands, g.HasValue node key) :
    Follows looks keeps quantities g lanes chain node output m
      (Plan.input g node (.index 0) >>= fun a => Plan.ofEmission (emission a) >>= after)
      ((Formula.ofFirst f).andThen h) := by
  refine unary_follows (has _ (List.mem_singleton.2 rfl)) fun m' v x hv => ?_
  exact Gives.emitting (hf m' v x hv) fun m'' _ w hw => ha m'' w _ hw

/-- Something is made of the first two inputs, and then something of the result. -/
theorem ofTwo_follows {f : Lanes → Lanes → Lanes} {h : Lanes → Lanes}
    {emission : Value → Value → Emission Value} {after : Value → Plan Value}
    (hf : ∀ m v w x y, Denotes looks m v x → Denotes looks m w y →
      (emission v w).Means looks quantities m (f x y))
    (ha : ∀ m v x, Denotes looks m v x → Gives looks keeps quantities
      (Through g node [.index 0, .index 1]) (lanes chain) m (after v) (some (h x)))
    (has : ∀ key ∈ ((Formula.ofTwo f).andThen h).operands, g.HasValue node key) :
    Follows looks keeps quantities g lanes chain node output m
      (Plan.input g node (.index 0) >>= fun a =>
        (Plan.input g node (.index 1) >>= fun b => Plan.ofEmission (emission a b)) >>= after)
      ((Formula.ofTwo f).andThen h) := by
  refine (input_gives List.mem_cons_self (has _ List.mem_cons_self)).bind fun m₁ _ v x hx hv => ?_
  have second : Gives looks keeps quantities (Through g node [.index 0, .index 1]) (lanes chain) m₁
      (Plan.input g node (.index 1) >>= fun w => Plan.ofEmission (emission v w))
      ((g.read (lanes chain) node (.index 1)).map (f x)) := by
    refine (input_gives (by simp) (has _ (.tail _ List.mem_cons_self))).bind
      fun m₂ hm w y hy hw => ?_
    rw [hy]
    exact .ofEmission (hf m₂ v w x y (hv.mono hm) hw)
  refine second.bind fun m₂ _ w l hl hw => ?_
  obtain ⟨y, hy, rfl⟩ := Option.map_eq_some_iff.1 hl
  simp only [Formula.evaluate, Formula.ofTwo, Formula.andThen, hx, hy, Option.bind_some,
    Option.map_some]
  exact ha m₂ w _ hw

/-- An operation that is not supported reads the first input and fails. -/
theorem refused_follows {h : Lanes → Lanes} {body : Value → Plan Value}
    (hb : ∀ v, ∃ failure, body v = .fail failure)
    (has : ∀ key ∈ (Formula.refused.andThen h).operands, g.HasValue node key) :
    Follows looks keeps quantities g lanes chain node output m
      (Plan.input g node (.index 0) >>= body) (Formula.refused.andThen h) := by
  refine (input_gives List.mem_cons_self (has _ List.mem_cons_self)).bind fun _ _ v _ _ _ => ?_
  obtain ⟨failure, hv⟩ := hb v
  rw [hv]
  exact .fail

namespace Handler

/-! ## Math -/

theorem clamped_gives {asks : NodeId → String → Prop} {lanes : NodeId → String → Option Lanes}
    {v : Value} {x : Lanes} (hv : Denotes looks m v x) :
    Gives looks keeps quantities asks lanes m (clamped g node v) (some (g.clamping node x)) := by
  unfold clamped HostGraph.clamping
  split
  · exact .ofEmission (Emission.clamp_means hv)
  · exact .done hv

/-- An operator of a math node is in its formula. -/
theorem formula_of_mathOperator? {operation : String} {op : Operator}
    (h : mathOperator? operation = some op) :
    (op.arity = 1 ∧ Formula.math operation = .ofFirst (Folding.unary op)) ∨
      (op.arity = 2 ∧ Formula.math operation = .ofTwo (Folding.binary op)) := by
  unfold mathOperator? at h
  split at h <;> cases h <;> first | exact .inl ⟨rfl, rfl⟩ | exact .inr ⟨rfl, rfl⟩

theorem math_of_not_mathOperator? {operation : String} (h : mathOperator? operation = none)
    (hf : operation ≠ "FRACT") (hc : operation ≠ "CEIL") (hr : operation ≠ "ROUND") :
    Formula.math operation = .refused := by
  unfold Formula.math
  split <;> first | rfl | contradiction

theorem math_follows
    (has : ∀ key ∈ (g.formulaOf node output .math).operands, g.HasValue node key) :
    Follows looks keeps quantities g lanes chain node output m (math g node output)
      (g.formulaOf node output .math) := by
  show Follows _ _ _ _ _ _ _ _ _ _
    ((Formula.math (g.text node "operation" "ADD")).andThen (g.clamping node))
  replace has : ∀ key ∈ ((Formula.math (g.text node "operation" "ADD")).andThen
    (g.clamping node)).operands, g.HasValue node key := has
  unfold math mathResult
  generalize g.text node "operation" "ADD" = operation at has ⊢
  split
  · exact ofFirst_follows (fun _ _ _ => Emission.fract_means) (fun _ _ _ => clamped_gives) has
  · exact ofFirst_follows (fun _ _ _ => Emission.ceil_means) (fun _ _ _ => clamped_gives) has
  · exact ofFirst_follows (fun _ _ _ => Emission.round_means) (fun _ _ _ => clamped_gives) has
  · rename_i hf hc hr
    cases ho : mathOperator? operation with
    | none =>
      rw [math_of_not_mathOperator? ho hf hc hr] at has ⊢
      exact refused_follows (fun _ => ⟨_, rfl⟩) has
    | some op =>
      rcases formula_of_mathOperator? ho with ⟨arity, hm⟩ | ⟨arity, hm⟩
      · rw [hm] at has ⊢
        simp only [arity, Nat.lt_irrefl, if_false, Emission.apply, if_true]
        exact ofFirst_follows (fun _ _ _ => Emission.unary_means arity) (fun _ _ _ => clamped_gives)
          has
      · rw [hm] at has ⊢
        have not_one : ¬ 2 = 1 := by omega
        simp only [arity, Nat.one_lt_two, if_true, Emission.apply, not_one, if_false]
        exact ofTwo_follows (fun _ _ _ _ _ => Emission.binary_means arity)
          (fun _ _ _ => clamped_gives) has

/-- The gray of a result, where the output is called so. -/
theorem asValue_gives {asks : NodeId → String → Prop} {lanes : NodeId → String → Option Lanes}
    {v : Value} {x : Lanes} (hv : Denotes looks m v x) :
    Gives looks keeps quantities asks lanes m
      (if output = "Value" then Plan.ofEmission (Emission.toBw v) else pure v)
      (some ((if output = "Value" then Lanes.toBw else id) x)) := by
  split
  · exact .ofEmission (Emission.toBw_means hv)
  · exact .done hv

theorem vectorMath_follows
    (has : ∀ key ∈ (g.formulaOf node output .vectorMath).operands, g.HasValue node key) :
    Follows looks keeps quantities g lanes chain node output m (vectorMath g node output)
      (g.formulaOf node output .vectorMath) := by
  show Follows _ _ _ _ _ _ _ _ _ _ ((Formula.vectorMath (g.text node "operation" "ADD")).andThen
    (if output = "Value" then Lanes.toBw else id))
  replace has : ∀ key ∈ ((Formula.vectorMath (g.text node "operation" "ADD")).andThen
    (if output = "Value" then Lanes.toBw else id)).operands, g.HasValue node key := has
  unfold vectorMath vectorResult
  generalize g.text node "operation" "ADD" = operation at has ⊢
  have gray : ∀ {asks : NodeId → String → Prop} m' v x, Denotes looks m' v x →
      Gives looks keeps quantities asks (lanes chain) m'
        (if output = "Value" then Plan.ofEmission (Emission.toBw v) else pure v)
        (some ((if output = "Value" then Lanes.toBw else id) x)) := fun _ _ _ => asValue_gives
  dsimp only
  split
  · exact ofFirst_follows (fun _ _ _ => Emission.unary_means rfl) gray has
  · exact ofFirst_follows (fun _ _ _ => Emission.unary_means rfl) gray has
  · exact ofTwo_follows (fun _ _ _ _ _ => Emission.binary_means rfl) gray has
  · exact ofTwo_follows (fun _ _ _ _ _ => Emission.binary_means rfl) gray has
  · exact ofTwo_follows (fun _ _ _ _ _ => Emission.binary_means rfl) gray has
  · exact ofTwo_follows (fun _ _ _ _ _ => Emission.binary_means rfl) gray has
  · exact ofTwo_follows (fun _ _ _ _ _ => Emission.binary_means rfl) gray has
  · rename_i h₁ h₂ h₃ h₄ h₅ h₆ h₇
    have refused : Formula.vectorMath operation = .refused := by
      unfold Formula.vectorMath
      split <;> first | rfl | contradiction
    rw [refused] at has ⊢
    exact refused_follows (fun _ => ⟨_, rfl⟩) has

/-! ## Mixing -/

/-- A color mixed with what an emission makes of both colors. -/
theorem mixed_means {fac color1 : Value} {x y w : Lanes} {emission : Emission Value}
    (hx : Denotes looks m fac x) (hy : Denotes looks m color1 y)
    (he : emission.Means looks quantities m w) :
    (emission >>= fun mixed => Emission.blend fac color1 mixed).Means looks quantities m
      (Lanes.mix x y w) :=
  he.bind fun _ hm _ mixed => Emission.blend_means (hx.mono hm) (hy.mono hm) mixed

/-- A way of mixing does what its formula says. -/
theorem mixResult_means (looks : Prop) (quantities : Lookup → Lanes) {blend : String}
    (supported : Formula.mixRgb blend ≠ .foreign) :
    ∃ f, Formula.mixRgb blend = .mixing f ∧ ∀ (m : NodeMeaning) fac color1 color2 x y z,
      Denotes looks m fac x → Denotes looks m color1 y → Denotes looks m color2 z →
        ∃ emission, mixResult fac color1 color2 blend = some emission ∧
          emission.Means looks quantities m (f x y z) := by
  unfold Formula.mixRgb at supported ⊢
  split
  · exact ⟨_, rfl, fun _ _ _ _ _ _ _ hx hy hz => ⟨_, rfl, Emission.blend_means hx hy hz⟩⟩
  · exact ⟨_, rfl, fun _ _ _ _ _ _ _ hx hy hz => ⟨_, rfl, Emission.blend_means hx hy hz⟩⟩
  · exact ⟨_, rfl, fun _ _ _ _ _ _ _ hx hy hz =>
      ⟨_, rfl, mixed_means hx hy (Emission.binary_means rfl hy hz)⟩⟩
  · exact ⟨_, rfl, fun _ _ _ _ _ _ _ hx hy hz =>
      ⟨_, rfl, mixed_means hx hy (Emission.binary_means rfl hy hz)⟩⟩
  · exact ⟨_, rfl, fun _ _ _ _ _ _ _ hx hy hz =>
      ⟨_, rfl, mixed_means hx hy (Emission.binary_means rfl hy hz)⟩⟩
  · exact ⟨_, rfl, fun _ _ _ _ _ _ _ hx hy hz =>
      ⟨_, rfl, mixed_means hx hy (Emission.binary_means rfl hy hz)⟩⟩
  · refine ⟨_, rfl, fun _ _ _ _ _ _ _ hx hy hz => ⟨_, rfl, ?_⟩⟩
    exact mixed_means hx hy
      ((Emission.binary_means rfl hy hz).bind fun _ _ _ difference =>
        Emission.unary_means rfl difference)
  · exact ⟨_, rfl, fun _ _ _ _ _ _ _ hx hy hz =>
      ⟨_, rfl, mixed_means hx hy (Emission.binary_means rfl hy hz)⟩⟩
  · exact ⟨_, rfl, fun _ _ _ _ _ _ _ hx hy hz =>
      ⟨_, rfl, mixed_means hx hy (Emission.binary_means rfl hy hz)⟩⟩
  · exact ⟨_, rfl, fun _ _ _ _ _ _ _ _ hy _ => ⟨_, rfl, .done hy⟩⟩
  · rename_i h₁ h₂ h₃ h₄ h₅ h₆ h₇ h₈ h₉ h₁₀
    exact (supported (by split <;> first | rfl | contradiction)).elim

theorem mixRgb_follows (arithmetic : g.formulaOf node output .mixRgb ≠ .foreign)
    (has : ∀ key ∈ (g.formulaOf node output .mixRgb).operands, g.HasValue node key) :
    Follows looks keeps quantities g lanes chain node output m (mixRgb g node output)
      (g.formulaOf node output .mixRgb) := by
  have supported : Formula.mixRgb (g.text node "blend_type" "MIX") ≠ .foreign := by
    intro foreign
    refine arithmetic ?_
    show (Formula.mixRgb (g.text node "blend_type" "MIX")).andThen (g.clamping node) = _
    rw [foreign]
    rfl
  obtain ⟨f, hf, means⟩ := mixResult_means looks quantities supported
  have formula : g.formulaOf node output .mixRgb = (Formula.mixing f).andThen (g.clamping node) := by
    rw [← hf]
    rfl
  rw [formula] at has ⊢
  refine ternary_follows has fun m' fac color1 color2 x y z hx hy hz => ?_
  obtain ⟨emission, he, means⟩ := means m' fac color1 color2 x y z hx hy hz
  dsimp only
  rw [he]
  exact Gives.emitting means fun _ _ _ hw => clamped_gives hw

/-! ## Channels and colors -/

theorem outputDefault_gives {asks : NodeId → String → Prop}
    {lanes : NodeId → String → Option Lanes} (has : (g.outputDefault node output).isSome) :
    Gives looks keeps quantities asks lanes m (outputDefault g node output)
      (g.outputDefault node output) := by
  obtain ⟨l, hl⟩ := Option.isSome_iff_exists.1 has
  unfold outputDefault
  rw [hl]
  exact .done (.constant l)

theorem combine_follows (has : ∀ key ∈ [.index 0, .index 1, .index 2], g.HasValue node key) :
    Follows looks keeps quantities g lanes chain node output m (combine g node output)
      (.ternary (.index 0) (.index 1) (.index 2) Lanes.combine) :=
  ternary_follows has fun _ _ _ _ _ _ _ hx hy hz =>
    .ofEmission (Emission.combine_means hx hy hz)

theorem separate_eq (output : String) :
    Formula.separate output = .ofFirst (Folding.unary (.select (outputLane output))) := by
  unfold Formula.separate
  split
  · rfl
  · rfl
  · rfl
  · rfl
  · have lane : outputLane output = 2 := by
      unfold outputLane
      split <;> first | contradiction | rfl
    rw [lane]
    rfl

theorem separate_follows (has : ∀ key ∈ (Formula.separate output).operands, g.HasValue node key) :
    Follows looks keeps quantities g lanes chain node output m (separate g node output)
      (.separate output) := by
  rw [separate_eq] at has ⊢
  exact unary_follows (has _ List.mem_cons_self) fun _ _ _ hv =>
    .ofEmission (Emission.select_means _ hv)

theorem rgbToBw_follows (has : g.HasValue node (.name "Color")) :
    Follows looks keeps quantities g lanes chain node output m (rgbToBw g node output)
      (.unary (.name "Color") Lanes.toBw) :=
  unary_follows has fun _ _ _ hv => .ofEmission (Emission.toBw_means hv)

theorem brightContrast_follows
    (has : ∀ key ∈ [.name "Bright", .name "Color", .name "Contrast"], g.HasValue node key) :
    Follows looks keeps quantities g lanes chain node output m (brightContrast g node output)
      (.ternary (.name "Bright") (.name "Color") (.name "Contrast") Lanes.brightContrast) := by
  refine ternary_follows has fun _ bright color contrast x y z hx hy hz => ?_
  have lanes : Folding.binary .max (Folding.binary .add (Folding.binary .add x (Folding.binary .mul
      (Folding.binary .sub y (.splat Folding.half)) (Folding.binary .add z (.splat .one))))
        (.splat Folding.half)) (.splat .zero) = Lanes.brightContrast x y z := by
    simp only [Folding.binary, Folding.evaluate, Lanes.map2, Lanes.map3, Lanes.splat,
      Lanes.brightContrast]
  rw [← lanes]
  refine .emitting (Emission.binary_means rfl hy (.constant _)) fun _ h₁ _ centered => ?_
  refine .emitting (Emission.binary_means rfl (hz.mono h₁) (.constant _)) fun _ h₂ _ gain => ?_
  refine .emitting (Emission.binary_means rfl (centered.mono h₂) gain) fun _ h₃ _ scaled => ?_
  refine .emitting (Emission.binary_means rfl (hx.mono (h₁.trans (h₂.trans h₃))) scaled)
    fun _ _ _ shifted => ?_
  refine .emitting (Emission.binary_means rfl shifted (.constant _)) fun _ _ _ result => ?_
  exact .ofEmission (Emission.binary_means rfl result (.constant _))

end Handler

end MaterialLowering
