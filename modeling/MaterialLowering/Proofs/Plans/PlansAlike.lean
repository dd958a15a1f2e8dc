import MaterialLowering.Lowering.Walk
import MaterialLowering.Proofs.Plans.Correspondence

/-!
# The plans of a graph are alike

Every plan of an output is alike to itself in every correspondence: it looks at no handle, shows
none in a notice, and asks only for outputs that a visible link leads from. Handlers, rules and the
ways past a node are taken in turn.

Results:
* `Handler.ofKind?_alike`: the handlers.
* `RuleSite.plan_alike`: the rules of an entry.
* `bypass?_alike`, `task_alike`, `argument_alike`: whatever a walk carries out.
-/

namespace MaterialLowering

open Numeric (Single)

/-- A visible link leads from an output of `source` into an input of `node`. -/
def HostGraph.Feeds (g : HostGraph) (node source : NodeId) (output : String) : Prop :=
  ∃ key socket link, g.input node key = some socket ∧ socket.visibleLink = some link ∧
    link.node = source ∧ link.output = output

theorem HostGraph.visibleLink_of_checkedLink {g : HostGraph} {node : NodeId} {socket : Socket}
    {link : LinkSource} (h : g.checkedLink node socket = .ok (some link)) :
    socket.visibleLink = some link := by
  unfold checkedLink at h
  split at h
  · cases h
  · rename_i link' hl
    dsimp only at h
    split at h
    · cases h
    · cases h; exact hl

theorem HostGraph.visibleLink_of_checkedLink_none {g : HostGraph} {node : NodeId} {socket : Socket}
    (h : g.checkedLink node socket = .ok none) : socket.visibleLink = none := by
  unfold checkedLink at h
  split at h
  · assumption
  · dsimp only at h
    split at h <;> cases h

theorem HostGraph.checkedLink_error {g : HostGraph} {node : NodeId} {socket : Socket}
    {failure : Failure} (h : g.checkedLink node socket = .error failure) :
    failure = .invalidLink (g.label node) socket.name := by
  unfold checkedLink at h
  split at h
  · cases h
  · dsimp only at h
    split at h <;> cases h
    rfl

namespace Plan

variable {g : HostGraph} {node : NodeId} {keeps : Prop} {w : Correspondence}

/-! ## Inputs -/

/-- What reading a socket comes down to. -/
theorem throughLink_eq (g : HostGraph) (node : NodeId) (key : SocketKey) (unlinked : Socket → Value) :
    throughLink g node key unlinked =
      match g.input node key with
      | none => .fail (.invalidSocket (g.label node) key.shown)
      | some socket =>
        match g.checkedLink node socket with
        | .error failure => .fail failure
        | .ok none => .done (unlinked socket)
        | .ok (some link) => .visit link.node link.output .done := by
  unfold throughLink HostGraph.socket
  cases g.input node key with
  | none => rfl
  | some socket =>
    dsimp only
    show (ofExcept (g.checkedLink node socket) >>= _) = _
    rcases g.checkedLink node socket with failure | _ | link <;> rfl

theorem throughLink_alike (key : SocketKey) {unlinked : Socket → Value}
    (hu : ∀ (w : Correspondence) socket, w.Answer (unlinked socket) (unlinked socket)) :
    Agree (g.Feeds node) keeps w (throughLink g node key unlinked) (throughLink g node key unlinked) := by
  rw [throughLink_eq]
  split
  · exact .fail id
  · rename_i socket hs
    split
    · rename_i failure hf
      rw [HostGraph.checkedLink_error hf]
      exact .fail id
    · exact .done (hu w socket)
    · rename_i link hl
      have asked : g.Feeds node link.node link.output :=
        ⟨key, socket, link, hs, HostGraph.visibleLink_of_checkedLink hl, rfl, rfl⟩
      exact .visit asked fun _ _ _ _ h => .done h

theorem input_alike (key : SocketKey) :
    Agree (g.Feeds node) keeps w (input g node key) (input g node key) :=
  throughLink_alike key fun _ socket => .ofLanes? socket.default

theorem inputLink_alike (key : SocketKey) :
    Agree (g.Feeds node) keeps w (inputLink g node key) (inputLink g node key) :=
  throughLink_alike key fun _ _ => .unset

theorem inputDefault_alike {asks : NodeId → String → Prop} (key : SocketKey) :
    Agree asks keeps w (inputDefault g node key) (inputDefault g node key) := by
  unfold inputDefault HostGraph.socket
  cases g.input node key with
  | none => exact .fail id
  | some socket => exact .done (.ofLanes? socket.default)

theorem requiredLink_alike (key : SocketKey) :
    Agree (g.Feeds node) keeps w (requiredLink g node key) (requiredLink g node key) := by
  refine (inputLink_alike key).bind fun _ _ _ _ value => ?_
  rw [value.isUnset_eq]
  split
  · exact .fail id
  · exact .done value

theorem optionalLink_alike (name : String) :
    Agree (g.Feeds node) keeps w (optionalLink g node name) (optionalLink g node name) := by
  unfold optionalLink
  split
  · exact .done .unset
  · exact inputLink_alike _

variable {asks : NodeId → String → Prop}

theorem node_alike (kind : NativeKind) {ps qs : List (String × Value)}
    (params : List.Forall₂ (w.Parameter kind) ps qs) :
    Agree asks keeps w (Plan.node kind ps) (Plan.node kind qs) :=
  .create params fun _ _ _ _ h => .done (.node h)

/-- A notice may come before a plan. -/
theorem Alike.say {α β : Type} {P : Correspondence → α → β → Prop} {notice : Notice} {p : Unit → Plan α}
    {q : Unit → Plan β} (hn : ¬ notice.ShowsHandle) (h : Alike asks keeps P w (p ()) (q ())) :
    Alike asks keeps P w (Plan.say notice >>= p) (Plan.say notice >>= q) :=
  .report hn h

/-! ## Ways past a node -/

theorem reroute_alike : Agree (g.Feeds node) keeps w (reroute g node) (reroute g node) := by
  refine (inputLink_alike _).bind fun _ _ _ _ value => ?_
  dsimp only
  rw [value.isUnset_eq]
  split
  · exact .say id (.done value)
  · exact .done value

theorem muted_alike : Agree (g.Feeds node) keeps w (muted g node) (muted g node) := by
  unfold muted
  split
  · exact inputLink_alike _
  · exact .done .unset

end Plan

theorem bypass?_alike {g : HostGraph} {node : NodeId} {keeps : Prop} {w : Correspondence}
    {plan : Plan Value} (h : bypass? g node = some plan) :
    Plan.Agree (g.Feeds node) keeps w plan plan := by
  unfold bypass? at h
  split at h
  · cases h; exact Plan.reroute_alike
  · split at h
    · cases h; exact Plan.muted_alike
    · cases h

theorem argument_alike {g : HostGraph} {callSite : NodeId} {keeps : Prop} {w : Correspondence}
    (formal : String) :
    Plan.Agree (g.Feeds callSite) keeps w (Walk.argument g callSite formal)
      (Walk.argument g callSite formal) := by
  unfold Walk.argument
  split
  · exact Plan.input_alike _
  · exact .fail id

/-! ## Handlers -/

namespace Handler

open Plan (input_alike inputLink_alike optionalLink_alike)
open Plan.Alike (ofEmission)

variable {g : HostGraph} {node : NodeId} {output : String} {keeps : Prop} {w : Correspondence}
  {a a' : Value}

theorem unsupported_alike {α β : Type} {asks : NodeId → String → Prop}
    {P : Correspondence → α → β → Prop} (operation : String) :
    Plan.Alike asks keeps P w (unsupported g node operation) (unsupported g node operation) :=
  .fail id

theorem clamped_alike {asks : NodeId → String → Prop} (ha : w.Answer a a') :
    Plan.Agree asks keeps w (clamped g node a) (clamped g node a') := by
  unfold clamped
  split
  · exact ofEmission (Emission.clamp_alike ha)
  · exact .done ha

theorem materialOutput_alike :
    Plan.Agree (g.Feeds node) keeps w (materialOutput g node output) (materialOutput g node output) := by
  refine (inputLink_alike _).bind fun _ _ _ _ surface => ?_
  cases surface with
  | constant => exact .fail id
  | node h => exact .done (.node h)
  | unset =>
    dsimp only
    split
    · exact .say id (Plan.node_alike _ (.cons (.answer (.vec4 ..)) .nil))
    · exact .fail id

theorem mathResult_alike (operation : String) (ha : w.Answer a a') :
    Plan.Agree (g.Feeds node) keeps w (mathResult g node operation a)
      (mathResult g node operation a') := by
  unfold mathResult
  split
  · exact ofEmission (Emission.fract_alike ha)
  · exact ofEmission (Emission.ceil_alike ha)
  · exact ofEmission (Emission.round_alike ha)
  · split
    · exact unsupported_alike _
    · rename_i op _
      dsimp only
      split
      · exact (input_alike _).bind fun _ hw _ _ b => ofEmission (Emission.apply_alike op (ha.mono hw) b)
      · exact ofEmission (Emission.apply_alike op ha .unset)

theorem math_alike : Plan.Agree (g.Feeds node) keeps w (math g node output) (math g node output) :=
  (input_alike _).bind fun _ _ _ _ a => (mathResult_alike _ a).bind fun _ _ _ _ result =>
    clamped_alike result

theorem vectorResult_alike (operation : String) (ha : w.Answer a a') :
    Plan.Agree (g.Feeds node) keeps w (vectorResult g node operation a)
      (vectorResult g node operation a') := by
  have withSecond : ∀ op : Operator, Plan.Agree (g.Feeds node) keeps w
      (do let b ← Plan.input g node (.index 1); (Emission.binary op a b : Plan Value))
      (do let b ← Plan.input g node (.index 1); (Emission.binary op a' b : Plan Value)) := fun op =>
    (input_alike _).bind fun _ hw _ _ b => ofEmission (Emission.binary_alike op (ha.mono hw) b)
  unfold vectorResult
  dsimp only
  split
  · exact ofEmission (Emission.unary_alike _ ha)
  · exact ofEmission (Emission.unary_alike _ ha)
  · exact withSecond .add
  · exact withSecond .sub
  · exact withSecond .average
  · exact withSecond .dot3
  · exact withSecond .cross3
  · exact unsupported_alike _

theorem vectorMath_alike :
    Plan.Agree (g.Feeds node) keeps w (vectorMath g node output) (vectorMath g node output) := by
  refine (input_alike _).bind fun _ _ _ _ a => (vectorResult_alike _ a).bind fun _ _ _ _ result => ?_
  split
  · exact ofEmission (Emission.toBw_alike result)
  · exact .done result

theorem mixResult_alike {b b' c c' : Value} (blend : String) (ha : w.Answer a a')
    (hb : w.Answer b b') (hc : w.Answer c c') :
    Option.Rel (Emission.Agree w) (mixResult a b c blend) (mixResult a' b' c' blend) := by
  have mixed : ∀ {mix mix' : Emission Value}, Emission.Agree w mix mix' →
      Emission.Agree w (do let mixed ← mix; Emission.blend a b mixed)
        (do let mixed ← mix'; Emission.blend a' b' mixed) := fun h =>
    h.bind fun _ hw _ _ mixed => Emission.blend_alike (ha.mono hw) (hb.mono hw) mixed
  unfold mixResult
  dsimp only
  split
  · exact .some (Emission.blend_alike ha hb hc)
  · exact .some (Emission.blend_alike ha hb hc)
  · exact .some (mixed (Emission.binary_alike .add hb hc))
  · exact .some (mixed (Emission.binary_alike .mul hb hc))
  · exact .some (mixed (Emission.binary_alike .sub hb hc))
  · exact .some (mixed (Emission.binary_alike .div hb hc))
  · exact .some (mixed ((Emission.binary_alike .sub hb hc).bind fun _ _ _ _ difference =>
      Emission.unary_alike .abs difference))
  · exact .some (mixed (Emission.binary_alike .min hb hc))
  · exact .some (mixed (Emission.binary_alike .max hb hc))
  · exact .some (.done hb)
  · exact .none

theorem mixed_alike {asks : NodeId → String → Prop} {blend : String}
    {mix mix' : Option (Emission Value)} : Option.Rel (Emission.Agree w) mix mix' →
    Plan.Agree asks keeps w
      (match mix with
        | some emission => do
          let result ← (emission : Plan Value)
          clamped g node result
        | none => do
          Plan.say (.blendIgnored blend node)
          return .unset)
      (match mix' with
        | some emission => do
          let result ← (emission : Plan Value)
          clamped g node result
        | none => do
          Plan.say (.blendIgnored blend node)
          return .unset) := by
  intro h
  cases h with
  | some emission => exact (ofEmission emission).bind fun _ _ _ _ result => clamped_alike result
  | none => exact .say id (.done .unset)

theorem mixRgb_alike :
    Plan.Agree (g.Feeds node) keeps w (mixRgb g node output) (mixRgb g node output) := by
  refine (input_alike _).bind fun _ _ _ _ fac => ?_
  refine (input_alike _).bind fun _ h₁ _ _ color1 => (input_alike _).bind fun _ h₂ _ _ color2 => ?_
  exact mixed_alike (mixResult_alike _ (fac.mono (h₁.trans h₂)) (color1.mono h₂) color2)

theorem mixShader_alike :
    Plan.Agree (g.Feeds node) keeps w (mixShader g node output) (mixShader g node output) := by
  refine (input_alike _).bind fun _ _ factor factor' hf => ?_
  refine (inputLink_alike _).bind fun _ h₁ shader1 shader1' hs₁ => ?_
  refine (inputLink_alike _).bind fun w₂ h₂ shader2 shader2' hs₂ => ?_
  replace hf := hf.mono (h₁.trans h₂)
  replace hs₁ := hs₁.mono h₂
  have chosen : Plan.Agree (g.Feeds node) keeps w₂
      (if factor.isSplat .zero then return shader1
        else if factor.isSplat .one then return shader2
        else Plan.node .blend [("weight", factor), ("color0", shader1), ("color1", shader2)])
      (if factor'.isSplat .zero then return shader1'
        else if factor'.isSplat .one then return shader2'
        else Plan.node .blend [("weight", factor'), ("color0", shader1'), ("color1", shader2')]) := by
    rw [hf.isSplat_eq, hf.isSplat_eq]
    split
    · exact .done hs₁
    split
    · exact .done hs₂
    exact Plan.node_alike _ (.cons (.answer hf) (.cons (.answer hs₁) (.cons (.answer hs₂) .nil)))
  cases hs₁ with
  | unset =>
    cases hs₂ with
    | unset => exact .fail id
    | constant => exact .done (.constant _)
    | node h => exact .done (.node h)
  | constant =>
    cases hs₂ with
    | unset => exact .done (.constant _)
    | constant | node => exact chosen
  | node h =>
    cases hs₂ with
    | unset => exact .done (.node h)
    | constant | node => exact chosen

theorem addShader_alike :
    Plan.Agree (g.Feeds node) keeps w (addShader g node output) (addShader g node output) := by
  refine (inputLink_alike _).bind fun _ _ shader1 shader1' hs₁ => ?_
  refine (inputLink_alike _).bind fun w₂ h₁ shader2 shader2' hs₂ => ?_
  replace hs₁ := hs₁.mono h₁
  have added : Plan.Agree (g.Feeds node) keeps w₂
      (Plan.node .add [("color0", shader1), ("color1", shader2)])
      (Plan.node .add [("color0", shader1'), ("color1", shader2')]) :=
    Plan.node_alike _ (.cons (.answer hs₁) (.cons (.answer hs₂) .nil))
  cases hs₁ with
  | unset =>
    cases hs₂ with
    | unset => exact .done .unset
    | constant => exact .done (.constant _)
    | node h => exact .done (.node h)
  | constant =>
    cases hs₂ with
    | unset => exact .done (.constant _)
    | constant | node => exact added
  | node h =>
    cases hs₂ with
    | unset => exact .done (.node h)
    | constant | node => exact added

theorem imageDescriptor_alike {α : Type} {asks : NodeId → String → Prop}
    {P : Correspondence → α → α → Prop} (name : String) {f : ImageDescriptor → Plan α}
    (hf : ∀ w' descriptor, w ≤ w' → Plan.Alike asks keeps P w' (f descriptor) (f descriptor)) :
    Plan.Alike asks keeps P w (imageDescriptor g node name >>= f)
      (imageDescriptor g node name >>= f) := by
  have asIs : Plan.Alike asks keeps (fun _ a b => a = b) w (imageDescriptor g node name)
      (imageDescriptor g node name) := by
    unfold imageDescriptor
    dsimp only
    split <;> split <;> split <;> repeat (first | exact .done rfl | refine .report id ?_)
  exact asIs.bind fun w' hw a b hab => hab ▸ hf w' a hw

theorem errorValue_alike : w.Answer (errorValue output) (errorValue output) := by
  unfold errorValue
  split
  · exact .scalar _
  · exact .constant _

theorem texImage_alike :
    Plan.Agree (g.Feeds node) keeps w (texImage g node output) (texImage g node output) := by
  unfold texImage
  split
  · exact .done errorValue_alike
  refine imageDescriptor_alike _ fun _ descriptor _ => .image fun _ _ _ _ image => ?_
  cases image with
  | none => exact .say id (.done errorValue_alike)
  | some hi =>
    refine (optionalLink_alike _).bind fun _ hw _ _ uv => ?_
    refine Plan.Alike.bind (Plan.node_alike _ (.cons (.image rfl (hw.2 _ _ hi)) (.cons (.answer uv) .nil)))
      fun _ _ _ _ texture => ?_
    split
    · exact ofEmission (Emission.unary_alike _ texture)
    · exact .done texture

theorem texChecker_alike :
    Plan.Agree (g.Feeds node) keeps w (texChecker g node output) (texChecker g node output) := by
  refine (input_alike _).bind fun _ _ _ _ scale => ?_
  refine (ofEmission (Emission.binary_alike .mul scale (.scalar _))).bind fun w₁ _ scale scale' hs => ?_
  refine (optionalLink_alike _).bind fun w₂ h₂ linked linked' hl => ?_
  have rest : ∀ w₃, w₂ ≤ w₃ → ∀ vector vector', w₃.Answer vector vector' →
      Plan.Agree (g.Feeds node) keeps w₃
        (do
          let uv ← (Emission.mul scale vector : Plan Value)
          let checker ← Plan.node .checkerTexture [("uv", uv)]
          if output = "Fac" then return checker
          else do
            let color1 ← Plan.input g node (.name "Color1")
            let color2 ← Plan.input g node (.name "Color2")
            Emission.blend checker color1 color2)
        (do
          let uv ← (Emission.mul scale' vector' : Plan Value)
          let checker ← Plan.node .checkerTexture [("uv", uv)]
          if output = "Fac" then return checker
          else do
            let color1 ← Plan.input g node (.name "Color1")
            let color2 ← Plan.input g node (.name "Color2")
            Emission.blend checker color1 color2) := by
    intro w₃ h₃ vector vector' hv
    refine (ofEmission (Emission.binary_alike .mul (hs.mono (h₂.trans h₃)) hv)).bind fun _ _ _ _ uv => ?_
    refine Plan.Alike.bind (Plan.node_alike _ (.cons (.answer uv) .nil)) fun _ _ _ _ checker => ?_
    split
    · exact .done checker
    · refine (input_alike _).bind fun _ h₅ _ _ color1 => (input_alike _).bind fun _ h₆ _ _ color2 => ?_
      exact ofEmission (Emission.blend_alike (checker.mono (h₅.trans h₆)) (color1.mono h₆) color2)
  dsimp only
  rw [hl.isUnset_eq]
  split
  · exact Plan.Alike.bind (Plan.node_alike _ .nil) rest
  · exact rest _ le_rfl _ _ hl

theorem outputDefault_alike {asks : NodeId → String → Prop} :
    Plan.Agree asks keeps w (outputDefault g node output) (outputDefault g node output) :=
  .done (.ofLanes? _)

theorem combine_alike :
    Plan.Agree (g.Feeds node) keeps w (combine g node output) (combine g node output) :=
  (input_alike _).bind fun _ _ _ _ x => (input_alike _).bind fun _ h₂ _ _ y =>
    (input_alike _).bind fun _ h₃ _ _ z =>
      ofEmission (Emission.combine_alike (x.mono (h₂.trans h₃)) (y.mono h₃) z)

theorem separate_alike :
    Plan.Agree (g.Feeds node) keeps w (separate g node output) (separate g node output) :=
  (input_alike _).bind fun _ _ _ _ value => ofEmission (Emission.unary_alike _ value)

theorem rgbToBw_alike :
    Plan.Agree (g.Feeds node) keeps w (rgbToBw g node output) (rgbToBw g node output) :=
  (input_alike _).bind fun _ _ _ _ color => ofEmission (Emission.toBw_alike color)

theorem brightContrast_alike :
    Plan.Agree (g.Feeds node) keeps w (brightContrast g node output) (brightContrast g node output) := by
  refine (input_alike _).bind fun _ _ _ _ bright => ?_
  refine (input_alike _).bind fun _ h₁ _ _ color => (input_alike _).bind fun _ h₂ _ _ contrast => ?_
  refine (ofEmission (Emission.binary_alike .sub (color.mono h₂) (.scalar _))).bind
    fun _ h₃ _ _ centered => ?_
  refine (ofEmission (Emission.binary_alike .add (contrast.mono h₃) (.scalar _))).bind
    fun _ h₄ _ _ gain => ?_
  refine (ofEmission (Emission.binary_alike .mul (centered.mono h₄) gain)).bind
    fun _ h₅ _ _ scaled => ?_
  have bright := bright.mono (h₁.trans (h₂.trans (h₃.trans (h₄.trans h₅))))
  refine (ofEmission (Emission.binary_alike .add bright scaled)).bind fun _ _ _ _ shifted => ?_
  refine (ofEmission (Emission.binary_alike .add shifted (.scalar _))).bind fun _ _ _ _ result => ?_
  exact ofEmission (Emission.binary_alike .max result (.scalar _))

theorem bump_alike :
    Plan.Agree (g.Feeds node) keeps w (bump g node output) (bump g node output) := by
  refine (input_alike _).bind fun w₁ _ strength strength' hs => ?_
  refine (input_alike _).bind fun w₂ h₂ distance distance' hd => ?_
  refine (optionalLink_alike _).bind fun w₃ h₃ height height' hh => ?_
  have last : ∀ w₅, w₃ ≤ w₅ → ∀ signed signed', w₅.Answer signed signed' →
      Plan.Agree (g.Feeds node) keeps w₅
        (do
          let normal ← Plan.optionalLink g node "Normal"
          if !normal.isUnset then Plan.say (.bumpNormalIgnored (g.label node))
          Plan.node .bumpMap [("color", signed), ("bumpscale", strength)])
        (do
          let normal ← Plan.optionalLink g node "Normal"
          if !normal.isUnset then Plan.say (.bumpNormalIgnored (g.label node))
          Plan.node .bumpMap [("color", signed'), ("bumpscale", strength')]) := by
    intro w₅ h₅ signed signed' signedAlike
    refine (optionalLink_alike _).bind fun w₆ h₆ normal normal' hn => ?_
    have bumped : Plan.Agree (g.Feeds node) keeps w₆
        (Plan.node .bumpMap [("color", signed), ("bumpscale", strength)])
        (Plan.node .bumpMap [("color", signed'), ("bumpscale", strength')]) :=
      Plan.node_alike _ (.cons (.answer (signedAlike.mono h₆))
        (.cons (.answer (hs.mono (h₂.trans (h₃.trans (h₅.trans h₆))))) .nil))
    dsimp only
    rw [hn.isUnset_eq]
    split
    · exact .say id bumped
    · exact bumped
  have signed : ∀ w₄, w₃ ≤ w₄ → ∀ scaled scaled', w₄.Answer scaled scaled' →
      Plan.Agree (g.Feeds node) keeps w₄
        (do
          let signed ← if g.flag node "invert" then Emission.neg scaled else pure scaled
          let normal ← Plan.optionalLink g node "Normal"
          if !normal.isUnset then Plan.say (.bumpNormalIgnored (g.label node))
          Plan.node .bumpMap [("color", signed), ("bumpscale", strength)])
        (do
          let signed ← if g.flag node "invert" then Emission.neg scaled' else pure scaled'
          let normal ← Plan.optionalLink g node "Normal"
          if !normal.isUnset then Plan.say (.bumpNormalIgnored (g.label node))
          Plan.node .bumpMap [("color", signed), ("bumpscale", strength')]) := by
    intro w₄ h₄ scaled scaled' scaledAlike
    dsimp only
    split
    · exact (ofEmission (Emission.binary_alike .sub (.scalar _) scaledAlike)).bind
        fun w₅ h₅ => last w₅ (h₄.trans h₅)
    · exact last w₄ h₄ _ _ scaledAlike
  dsimp only
  rw [hh.isUnset_eq]
  split
  · exact signed w₃ le_rfl _ _ (hd.mono h₃)
  · exact (ofEmission (Emission.binary_alike .mul (hd.mono h₃) hh)).bind signed

theorem normalMap_alike :
    Plan.Agree (g.Feeds node) keeps w (normalMap g node output) (normalMap g node output) := by
  refine (input_alike _).bind fun _ _ color color' hc => ?_
  refine (input_alike _).bind fun w₂ h₁ strength strength' hs => ?_
  have mapped : Plan.Agree (g.Feeds node) keeps w₂
      (Plan.node .normalMap [("color", color), ("bumpscale", strength)])
      (Plan.node .normalMap [("color", color'), ("bumpscale", strength')]) :=
    Plan.node_alike _ (.cons (.answer (hc.mono h₁)) (.cons (.answer hs) .nil))
  dsimp only
  split <;> split <;> repeat (first | exact mapped | refine .report id ?_)

theorem lightFalloff_alike :
    Plan.Agree (g.Feeds node) keeps w (lightFalloff g node output) (lightFalloff g node output) :=
  .report id (Plan.inputDefault_alike _)

theorem ofKind?_alike {kind : HostKind} {handler : Handler} (h : ofKind? kind = some handler) :
    Plan.Agree (g.Feeds node) keeps w (handler g node output) (handler g node output) := by
  unfold ofKind? at h
  split at h <;> cases h
  · exact materialOutput_alike
  · exact math_alike
  · exact vectorMath_alike
  · exact mixRgb_alike
  · exact mixShader_alike
  · exact addShader_alike
  · exact texImage_alike
  · exact texChecker_alike
  · exact outputDefault_alike
  · exact outputDefault_alike
  · exact combine_alike
  · exact combine_alike
  · exact separate_alike
  · exact separate_alike
  · exact rgbToBw_alike
  · exact brightContrast_alike
  · exact bump_alike
  · exact normalMap_alike
  · exact lightFalloff_alike

end Handler

/-! ## Rules -/

namespace RuleSite

variable {w : Correspondence}

/-- A site asks for what feeds its node. -/
abbrev Asks (site : RuleSite) : NodeId → String → Prop := site.graph.Feeds site.node

/-- The same parameters up to handles; none of them is an image. -/
def ParamsAlike (w : Correspondence) : List (String × Value) → List (String × Value) → Prop :=
  List.Forall₂ fun p q => p.1 = q.1 ∧ w.Answer p.2 q.2

theorem ParamsAlike.lookup {ps qs : List (String × Value)} (h : ParamsAlike w ps qs) (name : String) :
    w.Answer ((ps.lookup name).getD .unset) ((qs.lookup name).getD .unset) := by
  induction h with
  | nil => exact .unset
  | @cons p q _ _ hpq _ ih =>
    obtain ⟨p, v⟩ := p
    obtain ⟨q, v'⟩ := q
    obtain ⟨rfl, hv⟩ := hpq
    simp only [List.lookup_cons]
    split
    · exact hv
    · exact ih

theorem emission_alike (op : FoldOp) {ps qs : List (String × Value)} (h : ParamsAlike w ps qs) :
    Emission.Agree w (op.emission ps) (op.emission qs) := by
  have a := h.lookup "color0"
  have b := h.lookup "color1"
  cases op with
  | add => exact Emission.binary_alike .add a b
  | sub => exact Emission.binary_alike .sub a b
  | mul => exact Emission.binary_alike .mul a b
  | div => exact Emission.binary_alike .div a b
  | max => exact Emission.binary_alike .max a b
  | min => exact Emission.binary_alike .min a b
  | pow => exact Emission.binary_alike .pow a b
  | blend => exact Emission.blend_alike (h.lookup "weight") a b

theorem typePlan_alike {asks : NodeId → String → Prop} {keeps : Prop} (type : RuleType)
    {ps qs : List (String × Value)} (h : ParamsAlike w ps qs) :
    Plan.Agree asks keeps w (type.plan ps) (type.plan qs) := by
  cases type with
  | native kind =>
    refine Plan.node_alike kind (h.imp fun p q hpq => ?_)
    obtain ⟨p, v⟩ := p
    obtain ⟨q, v'⟩ := q
    obtain ⟨rfl, hv⟩ := hpq
    exact .answer hv
  | fold op => exact .ofEmission (emission_alike op h)

variable {site : RuleSite}

theorem source_alike {keeps : Prop} {subNode subNode' : String → Plan Value} (source : ValueSource)
    (hs : ∀ name, Plan.Agree site.Asks keeps w (subNode name) (subNode' name)) :
    Plan.Agree site.Asks keeps w (site.source subNode source) (site.source subNode' source) := by
  cases source with
  | input socket => exact Plan.input_alike _
  | link socket => exact Plan.inputLink_alike _
  | default socket => exact Plan.inputDefault_alike _
  | node name => exact hs name
  | literal literal => exact .done (.constant _)

theorem params_alike {keeps : Prop} {subNode subNode' : String → Plan Value}
    (hs : ∀ w' name, w ≤ w' → Plan.Agree site.Asks keeps w' (subNode name) (subNode' name))
    (params : List (String × ValueSource)) :
    Plan.Alike site.Asks keeps ParamsAlike w (site.params subNode params)
      (site.params subNode' params) := by
  induction params generalizing w with
  | nil => exact .done .nil
  | cons param rest ih =>
    refine (source_alike param.2 fun name => hs w name le_rfl).bind fun _ h₁ _ _ value => ?_
    refine (ih fun w' name hw => hs w' name (h₁.trans hw)).bind fun _ h₂ _ _ values => ?_
    exact .done (.cons ⟨rfl, value.mono h₂⟩ values)

theorem fresh_alike {subNode : String → Plan Value} (name : String)
    (hs : ∀ w name, Plan.Agree site.Asks True w (subNode name) (subNode name)) :
    Plan.Agree site.Asks True w (site.fresh subNode name) (site.fresh subNode name) := by
  unfold fresh
  split
  · exact .fail id
  rename_i rule _
  have evaluated : Plan.Agree site.Asks True w
      (do
        let values ← site.params subNode rule.params
        let value ← rule.type.plan values
        Plan.remember site.node site.output name value (.done value))
      (do
        let values ← site.params subNode rule.params
        let value ← rule.type.plan values
        Plan.remember site.node site.output name value (.done value)) :=
    (params_alike (fun w' name _ => hs w' name) rule.params).bind fun _ _ _ _ values =>
      (typePlan_alike rule.type values).bind fun _ _ _ _ value =>
        .remember trivial value (.done value)
  split
  · exact .report id evaluated
  · exact evaluated

theorem subNode_alike (fuel : Nat) (name : String) :
    Plan.Agree site.Asks True w (site.subNode fuel name) (site.subNode fuel name) := by
  induction fuel generalizing w name with
  | zero => exact .fail id
  | succ fuel ih =>
    refine .known trivial fun _ _ _ _ known => ?_
    cases known with
    | some h => exact .done h
    | none => exact fresh_alike name fun _ name => ih name

theorem plan_alike (site : RuleSite) : Plan.Agree site.Asks True w site.plan site.plan := by
  unfold plan
  split
  · exact subNode_alike _ _
  · exact .report id (.done .unset)

end RuleSite

/-! ## Tasks -/

/-- A plan for an output is that of an entry, or it keeps nothing of sub-nodes. -/
theorem task_plan_cases {g : HostGraph} {table : RuleTable} {node : NodeId} {output : String}
    {plan : Plan Value} (h : table.task g node output = .plan plan) :
    (∃ rules, table.get? (g.kind node) = some rules ∧
      plan = RuleSite.plan ⟨g, g.kind node, rules, node, output⟩) ∨
    ∀ keeps w, Plan.Agree (g.Feeds node) keeps w plan plan := by
  unfold RuleTable.task RuleTable.resolve? at h
  dsimp only at h
  cases hk : table.get? (g.kind node) with
  | some rules =>
    rw [hk] at h
    cases h
    exact .inl ⟨rules, rfl, rfl⟩
  | none =>
    rw [hk] at h
    refine .inr fun keeps w => ?_
    cases hh : Handler.ofKind? (g.kind node) with
    | some handler =>
      rw [hh] at h
      cases h
      exact Handler.ofKind?_alike hh
    | none =>
      rw [hh] at h
      generalize g.kind node = kind at h
      cases kind <;> cases h <;> first | exact Plan.input_alike _ | exact .fail id

/-- Formal inputs are outputs of group-input nodes. -/
theorem kind_of_task_formal {g : HostGraph} {table : RuleTable} {node : NodeId} {output : String}
    (h : table.task g node output = .formal) : g.kind node = .groupInput := by
  unfold RuleTable.task at h
  dsimp only at h
  split at h
  · cases h
  · cases h
  · split at h
    · cases h
    · assumption
    · cases h
  · cases h

theorem task_alike {g : HostGraph} {table : RuleTable} {node : NodeId} {output : String}
    {w : Correspondence} {plan : Plan Value} (h : table.task g node output = .plan plan) :
    Plan.Agree (g.Feeds node) True w plan plan := by
  rcases task_plan_cases h with ⟨rules, -, rfl⟩ | alike
  · exact RuleSite.plan_alike ⟨g, g.kind node, rules, node, output⟩
  · exact alike True w

end MaterialLowering
