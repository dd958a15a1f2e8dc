import MaterialLowering.Proofs.Rules.RuleOrder

/-!
# Plans mind their own node

Whatever other outputs come to, the plan of an output asks only for outputs that a visible link leads
from, keeps nothing but sub-nodes of its own output, and fails by itself only over what its node is:
its sockets, its links and its settings. Cycles are found by the walk, and an accepted table has no
fault that a plan could come upon.

Results:
* `Handler.ofKind?_local`: the handlers.
* `RuleSite.plan_local`: the rules of an accepted entry.
* `bypass?_local`, `task_local`, `argument_local`: whatever a walk carries out.
* `throughLink_idle`, `argument_idle`: inputs are read without doing anything.
-/

namespace MaterialLowering

/-- A failure over what a node or the material is, whatever else there is in the graph. -/
def Failure.IsLocal : Failure → Prop
  | .missingOutputNode .. | .missingRequiredLink .. | .unsupportedNodeKind ..
  | .unresolvableGroupBoundary .. | .invalidSocket .. | .invalidLink .. | .unsupportedOperation .. => True
  | .cyclicGraph .. | .rules .. | .tooDeep .. => False

theorem Failure.IsLocal.not_tooDeep {failure : Failure} (h : failure.IsLocal) :
    ¬ failure.IsTooDeep := by
  cases failure <;> first | exact id | exact h.elim

/-- Whatever it is answered, the plan asks for no output outside of `asks`, looks up and keeps no
    sub-node of an output outside of `keeps`, and fails only over what a node is. -/
inductive Plan.Local {α : Type} (asks : NodeId → String → Prop)
    (keeps : NodeId → String → String → Prop) : Plan α → Prop
  | done (a : α) : Local asks keeps (.done a)
  | fail {failure : Failure} (h : failure.IsLocal) : Local asks keeps (.fail failure)
  | visit {node : NodeId} {output : String} {next : Value → Plan α} (asked : asks node output)
      (go : ∀ value, Local asks keeps (next value)) : Local asks keeps (.visit node output next)
  | create {kind : NativeKind} {params : List (String × Value)} {next : NodeHandle → Plan α}
      (go : ∀ handle, Local asks keeps (next handle)) : Local asks keeps (.create kind params next)
  | image {descriptor : ImageDescriptor} {next : Option ImageHandle → Plan α}
      (go : ∀ image, Local asks keeps (next image)) : Local asks keeps (.image descriptor next)
  | report {notice : Notice} {next : Plan α} (go : Local asks keeps next) :
      Local asks keeps (.report notice next)
  | known {node : NodeId} {output subNode : String} {next : Option Value → Plan α}
      (kept : keeps node output subNode) (go : ∀ value, Local asks keeps (next value)) :
      Local asks keeps (.known node output subNode next)
  | remember {node : NodeId} {output subNode : String} {value : Value} {next : Plan α}
      (kept : keeps node output subNode) (go : Local asks keeps next) :
      Local asks keeps (.remember node output subNode value next)

/-- Whatever it is answered, the plan does nothing to the recording. -/
inductive Plan.Idle {α : Type} : Plan α → Prop
  | done (a : α) : Idle (.done a)
  | fail (failure : Failure) : Idle (.fail failure)
  | visit (node : NodeId) (output : String) {next : Value → Plan α} (go : ∀ value, Idle (next value)) :
      Idle (.visit node output next)
  | report (notice : Notice) {next : Plan α} (go : Idle next) : Idle (.report notice next)
  | known (node : NodeId) (output subNode : String) {next : Option Value → Plan α}
      (go : ∀ value, Idle (next value)) : Idle (.known node output subNode next)
  | remember (node : NodeId) (output subNode : String) (value : Value) {next : Plan α}
      (go : Idle next) : Idle (.remember node output subNode value next)

namespace Plan

variable {α β : Type} {asks : NodeId → String → Prop} {keeps keeps' : NodeId → String → String → Prop}

theorem Local.mono {p : Plan α} (h : Local asks keeps p)
    (more : ∀ node output subNode, keeps node output subNode → keeps' node output subNode) :
    Local asks keeps' p := by
  induction h with
  | done a => exact .done a
  | fail h => exact .fail h
  | visit asked _ ih => exact .visit asked ih
  | create _ ih => exact .create ih
  | image _ ih => exact .image ih
  | report _ ih => exact .report ih
  | known kept _ ih => exact .known (more _ _ _ kept) ih
  | remember kept _ ih => exact .remember (more _ _ _ kept) ih

theorem Local.bind {p : Plan α} {f : α → Plan β} (h : Local asks keeps p)
    (hf : ∀ a, Local asks keeps (f a)) : Local asks keeps (p >>= f) := by
  induction h with
  | done a => exact hf a
  | fail h => exact .fail h
  | visit asked _ ih => exact .visit asked ih
  | create _ ih => exact .create ih
  | image _ ih => exact .image ih
  | report _ ih => exact .report ih
  | known kept _ ih => exact .known kept ih
  | remember kept _ ih => exact .remember kept ih

theorem Idle.bind {p : Plan α} {f : α → Plan β} (h : p.Idle) (hf : ∀ a, (f a).Idle) :
    (p >>= f).Idle := by
  induction h with
  | done a => exact hf a
  | fail failure => exact .fail failure
  | visit node output _ ih => exact .visit node output ih
  | report notice _ ih => exact .report notice ih
  | known node output subNode _ ih => exact .known node output subNode ih
  | remember node output subNode value _ ih => exact .remember node output subNode value ih

theorem Local.ofEmission (e : Emission α) : Local asks keeps (Plan.ofEmission e) := by
  induction e with
  | done a => exact .done a
  | create kind params next ih => exact .create ih

theorem node_local (kind : NativeKind) (params : List (String × Value)) :
    Local asks keeps (Plan.node kind params) := .create fun _ => .done _

/-! ## Inputs -/

variable {g : HostGraph} {node : NodeId}

theorem throughLink_local (key : SocketKey) (unlinked : Socket → Value) :
    Local (g.Feeds node) keeps (throughLink g node key unlinked) := by
  rw [throughLink_eq]
  split
  · exact .fail trivial
  · rename_i socket hs
    split
    · rename_i failure hf
      rw [HostGraph.checkedLink_error hf]
      exact .fail trivial
    · exact .done _
    · rename_i link hl
      exact .visit ⟨key, socket, link, hs, HostGraph.visibleLink_of_checkedLink hl, rfl, rfl⟩ .done

theorem input_local (key : SocketKey) : Local (g.Feeds node) keeps (input g node key) :=
  throughLink_local key _

theorem inputLink_local (key : SocketKey) : Local (g.Feeds node) keeps (inputLink g node key) :=
  throughLink_local key _

theorem inputDefault_local (key : SocketKey) : Local asks keeps (inputDefault g node key) := by
  unfold inputDefault HostGraph.socket
  cases g.input node key with
  | none => exact .fail trivial
  | some socket => exact .done _

theorem requiredLink_local (key : SocketKey) :
    Local (g.Feeds node) keeps (requiredLink g node key) := by
  refine (inputLink_local key).bind fun value => ?_
  split
  · exact .fail trivial
  · exact .done value

theorem throughLink_idle (key : SocketKey) (unlinked : Socket → Value) :
    (throughLink g node key unlinked).Idle := by
  rw [throughLink_eq]
  split
  · exact .fail _
  · split
    · exact .fail _
    · exact .done _
    · exact .visit _ _ .done

theorem inputDefault_idle (key : SocketKey) : (inputDefault g node key).Idle := by
  unfold inputDefault HostGraph.socket
  cases g.input node key with
  | none => exact .fail _
  | some socket => exact .done _

theorem requiredLink_idle (key : SocketKey) : (requiredLink g node key).Idle := by
  unfold requiredLink inputLink
  refine (throughLink_idle key _).bind fun value => ?_
  split
  · exact .fail _
  · exact .done value

theorem optionalLink_local (name : String) :
    Local (g.Feeds node) keeps (optionalLink g node name) := by
  unfold optionalLink
  split
  · exact .done _
  · exact inputLink_local _

/-! ## Ways past a node -/

theorem reroute_local : Local (g.Feeds node) keeps (reroute g node) := by
  refine (inputLink_local _).bind fun value => ?_
  dsimp only
  split
  · exact .report (.done value)
  · exact .done value

theorem muted_local : Local (g.Feeds node) keeps (muted g node) := by
  unfold muted
  split
  · exact inputLink_local _
  · exact .done _

end Plan

theorem bypass?_local {g : HostGraph} {node : NodeId} {keeps : NodeId → String → String → Prop}
    {plan : Plan Value} (h : bypass? g node = some plan) : Plan.Local (g.Feeds node) keeps plan := by
  unfold bypass? at h
  split at h
  · cases h; exact Plan.reroute_local
  · split at h
    · cases h; exact Plan.muted_local
    · cases h

theorem argument_local {g : HostGraph} {callSite : NodeId} {keeps : NodeId → String → String → Prop}
    (formal : String) : Plan.Local (g.Feeds callSite) keeps (Walk.argument g callSite formal) := by
  unfold Walk.argument
  split
  · exact Plan.input_local _
  · exact .fail trivial

theorem argument_idle {g : HostGraph} {callSite : NodeId} (formal : String) :
    (Walk.argument g callSite formal).Idle := by
  unfold Walk.argument
  split
  · exact Plan.throughLink_idle _ _
  · exact .fail _

/-! ## Handlers -/

namespace Handler

open Plan (input_local inputLink_local optionalLink_local node_local)
open Plan.Local (ofEmission)

variable {g : HostGraph} {node : NodeId} {output : String} {keeps : NodeId → String → String → Prop}

theorem clamped_local {asks : NodeId → String → Prop} (value : Value) :
    Plan.Local asks keeps (clamped g node value) := by
  unfold clamped
  split
  · exact ofEmission _
  · exact .done value

theorem materialOutput_local :
    Plan.Local (g.Feeds node) keeps (materialOutput g node output) := by
  refine (inputLink_local _).bind fun surface => ?_
  cases surface with
  | constant | image => exact .fail trivial
  | node handle => exact .done _
  | unset =>
    dsimp only
    split
    · exact .report (node_local _ _)
    · exact .fail trivial

theorem mathResult_local (operation : String) (a : Value) :
    Plan.Local (g.Feeds node) keeps (mathResult g node operation a) := by
  unfold mathResult
  split
  · exact ofEmission _
  · exact ofEmission _
  · exact ofEmission _
  · split
    · exact .fail trivial
    · dsimp only
      split
      · exact (input_local _).bind fun _ => ofEmission _
      · exact ofEmission _

theorem math_local : Plan.Local (g.Feeds node) keeps (math g node output) :=
  (input_local _).bind fun a => (mathResult_local _ a).bind clamped_local

theorem vectorResult_local (operation : String) (a : Value) :
    Plan.Local (g.Feeds node) keeps (vectorResult g node operation a) := by
  have withSecond : ∀ op : Operator, Plan.Local (g.Feeds node) keeps
      (do let b ← Plan.input g node (.index 1); (Emission.binary op a b : Plan Value)) := fun _ =>
    (input_local _).bind fun _ => ofEmission _
  unfold vectorResult
  dsimp only
  split
  · exact ofEmission _
  · exact ofEmission _
  · exact withSecond .add
  · exact withSecond .sub
  · exact withSecond .average
  · exact withSecond .dot3
  · exact withSecond .cross3
  · exact .fail trivial

theorem vectorMath_local : Plan.Local (g.Feeds node) keeps (vectorMath g node output) := by
  refine (input_local _).bind fun a => (vectorResult_local _ a).bind fun result => ?_
  split
  · exact ofEmission _
  · exact .done result

theorem mixRgb_local : Plan.Local (g.Feeds node) keeps (mixRgb g node output) := by
  refine (input_local _).bind fun fac => (input_local _).bind fun color1 =>
    (input_local _).bind fun color2 => ?_
  dsimp only
  split
  · exact (ofEmission _).bind clamped_local
  · exact .report (.done _)

theorem mixShader_local : Plan.Local (g.Feeds node) keeps (mixShader g node output) := by
  refine (input_local _).bind fun factor => (inputLink_local _).bind fun shader1 =>
    (inputLink_local _).bind fun shader2 => ?_
  split
  · exact .fail trivial
  · exact .done _
  · exact .done _
  · split
    · exact .done _
    split
    · exact .done _
    exact node_local _ _

theorem addShader_local : Plan.Local (g.Feeds node) keeps (addShader g node output) := by
  refine (inputLink_local _).bind fun shader1 => (inputLink_local _).bind fun shader2 => ?_
  split
  · exact .done _
  · exact .done _
  · exact node_local _ _

theorem imageDescriptor_local {asks : NodeId → String → Prop} (name : String) :
    Plan.Local asks keeps (imageDescriptor g node name) := by
  unfold imageDescriptor
  dsimp only
  split <;> split <;> split <;> repeat (first | exact .done _ | refine .report ?_)

theorem texImage_local : Plan.Local (g.Feeds node) keeps (texImage g node output) := by
  unfold texImage
  split
  · exact .done _
  refine (imageDescriptor_local _).bind fun descriptor => .image fun image => ?_
  cases image with
  | none => exact .report (.done _)
  | some image =>
    refine (optionalLink_local _).bind fun uv => (node_local _ _).bind fun texture => ?_
    split
    · exact ofEmission _
    · exact .done _

theorem texChecker_local : Plan.Local (g.Feeds node) keeps (texChecker g node output) := by
  have colored : ∀ scale vector : Value, Plan.Local (g.Feeds node) keeps (do
      let uv ← (Emission.mul scale vector : Plan Value)
      let checker ← Plan.node .checkerTexture [("uv", uv)]
      if output = "Fac" then return checker
      else do
        let color1 ← Plan.input g node (.name "Color1")
        let color2 ← Plan.input g node (.name "Color2")
        Emission.blend checker color1 color2) := by
    intro scale vector
    refine (ofEmission _).bind fun uv => (node_local _ _).bind fun checker => ?_
    split
    · exact .done _
    · exact (input_local _).bind fun _ => (input_local _).bind fun _ => ofEmission _
  refine (input_local _).bind fun scale => (ofEmission _).bind fun scale =>
    (optionalLink_local _).bind fun linked => ?_
  dsimp only
  split
  · exact (node_local _ _).bind (colored scale)
  · exact colored scale linked

theorem outputDefault_local {asks : NodeId → String → Prop} :
    Plan.Local asks keeps (outputDefault g node output) := .done _

theorem combine_local : Plan.Local (g.Feeds node) keeps (combine g node output) :=
  (input_local _).bind fun _ => (input_local _).bind fun _ => (input_local _).bind fun _ =>
    ofEmission _

theorem separate_local : Plan.Local (g.Feeds node) keeps (separate g node output) :=
  (input_local _).bind fun _ => ofEmission _

theorem rgbToBw_local : Plan.Local (g.Feeds node) keeps (rgbToBw g node output) :=
  (input_local _).bind fun _ => ofEmission _

theorem brightContrast_local : Plan.Local (g.Feeds node) keeps (brightContrast g node output) :=
  (input_local _).bind fun _ => (input_local _).bind fun _ => (input_local _).bind fun _ =>
    (ofEmission _).bind fun _ => (ofEmission _).bind fun _ => (ofEmission _).bind fun _ =>
      (ofEmission _).bind fun _ => (ofEmission _).bind fun _ => ofEmission _

theorem bump_local : Plan.Local (g.Feeds node) keeps (bump g node output) := by
  have last : ∀ strength signed : Value, Plan.Local (g.Feeds node) keeps (do
      let normal ← Plan.optionalLink g node "Normal"
      if !normal.isUnset then Plan.say (.bumpNormalIgnored (g.label node))
      Plan.node .bumpMap [("color", signed), ("bumpscale", strength)]) := by
    intro strength signed
    refine (optionalLink_local _).bind fun normal => ?_
    dsimp only
    split
    · exact .report (node_local _ _)
    · exact node_local _ _
  have signed : ∀ strength scaled : Value, Plan.Local (g.Feeds node) keeps (do
      let signed ← if g.flag node "invert" then Emission.neg scaled else pure scaled
      let normal ← Plan.optionalLink g node "Normal"
      if !normal.isUnset then Plan.say (.bumpNormalIgnored (g.label node))
      Plan.node .bumpMap [("color", signed), ("bumpscale", strength)]) := by
    intro strength scaled
    dsimp only
    split
    · exact (ofEmission _).bind (last strength)
    · exact last strength scaled
  refine (input_local _).bind fun strength => (input_local _).bind fun distance =>
    (optionalLink_local _).bind fun height => ?_
  dsimp only
  split
  · exact signed strength distance
  · exact (ofEmission _).bind (signed strength)

theorem normalMap_local : Plan.Local (g.Feeds node) keeps (normalMap g node output) := by
  refine (input_local _).bind fun color => (input_local _).bind fun strength => ?_
  dsimp only
  split <;> split <;> repeat (first | exact node_local _ _ | refine .report ?_)

theorem lightFalloff_local {asks : NodeId → String → Prop} :
    Plan.Local asks keeps (lightFalloff g node output) :=
  .report (Plan.inputDefault_local _)

theorem ofKind?_local {kind : HostKind} {handler : Handler} (h : ofKind? kind = some handler) :
    Plan.Local (g.Feeds node) keeps (handler g node output) := by
  unfold ofKind? at h
  split at h <;> cases h
  · exact materialOutput_local
  · exact math_local
  · exact vectorMath_local
  · exact mixRgb_local
  · exact mixShader_local
  · exact addShader_local
  · exact texImage_local
  · exact texChecker_local
  · exact outputDefault_local
  · exact outputDefault_local
  · exact combine_local
  · exact combine_local
  · exact separate_local
  · exact separate_local
  · exact rgbToBw_local
  · exact brightContrast_local
  · exact bump_local
  · exact normalMap_local
  · exact lightFalloff_local

end Handler

/-! ## Rules -/

namespace RuleSite

variable {site : RuleSite} {keeps : NodeId → String → String → Prop} {subNode : String → Plan Value}

/-- A site keeps sub-nodes of its output, among some. -/
def Keeps (site : RuleSite) (names : List String) (node : NodeId) (output subNode : String) : Prop :=
  node = site.node ∧ output = site.output ∧ subNode ∈ names

theorem source_local (source : ValueSource)
    (hs : ∀ reference, source.reference? = some reference →
      Plan.Local site.Asks keeps (subNode reference)) :
    Plan.Local site.Asks keeps (site.source subNode source) := by
  cases source with
  | input socket => exact Plan.input_local _
  | link socket => exact Plan.inputLink_local _
  | default socket => exact Plan.inputDefault_local _
  | node name => exact hs name rfl
  | literal literal => exact .done _

theorem params_local (params : List (String × ValueSource))
    (hs : ∀ param ∈ params, ∀ reference, param.2.reference? = some reference →
      Plan.Local site.Asks keeps (subNode reference)) :
    Plan.Local site.Asks keeps (site.params subNode params) := by
  induction params with
  | nil => exact .done _
  | cons param rest ih =>
    refine (source_local param.2 (hs param List.mem_cons_self)).bind fun value => ?_
    exact (ih fun other ho => hs other (List.mem_cons_of_mem _ ho)).bind fun _ => .done _

theorem typePlan_local {asks : NodeId → String → Prop} (type : RuleType)
    (params : List (String × Value)) : Plan.Local asks keeps (type.plan params) := by
  cases type with
  | native kind => exact Plan.node_local kind params
  | fold op => exact .ofEmission _

/-- A sub-node keeps itself and sub-nodes that come before it. -/
theorem subNode_local (h : site.rules.Accepted) {done : List String}
    (ordered : site.rules.Ordered done) (known : ∀ name ∈ done, site.rules.contains name = true)
    {name : String} (hn : name ∈ done) :
    Plan.Local site.Asks (site.Keeps done) (site.subNode (site.rules.size + 1) name) := by
  induction done generalizing name with
  | nil => cases hn
  | cons first rest ih =>
    have earlier : ∀ name ∈ rest,
        Plan.Local site.Asks (site.Keeps (first :: rest)) (site.subNode (site.rules.size + 1) name) :=
      fun name hm => (ih ordered.2 (fun other ho => known other (List.mem_cons_of_mem _ ho)) hm).mono
        fun _ _ _ kept => ⟨kept.1, kept.2.1, List.mem_cons_of_mem _ kept.2.2⟩
    rcases List.mem_cons.1 hn with rfl | hn
    · rw [subNode_unfold h]
      refine .known ⟨rfl, rfl, List.mem_cons_self⟩ fun found => ?_
      cases found with
      | some value => exact .done value
      | none =>
        obtain ⟨rule, hrule⟩ := Option.isSome_iff_exists.1 (known name List.mem_cons_self)
        have kept : Plan.Local site.Asks (site.Keeps (name :: rest))
            ((site.params (site.subNode (site.rules.size + 1)) rule.params >>= rule.type.plan) >>=
              fun value => .remember site.node site.output name value (.done value)) :=
          ((params_local rule.params fun param hp reference hr =>
            earlier reference (ordered.1 reference (mem_references hrule hp hr))).bind
              (typePlan_local rule.type)).bind fun value =>
                .remember ⟨rfl, rfl, List.mem_cons_self⟩ (.done value)
        dsimp only
        rw [fresh_eq hrule]
        cases rule.warn with
        | none => exact kept
        | some message => exact .report kept
    · exact earlier name hn

theorem plan_local (h : site.rules.Accepted) :
    Plan.Local site.Asks (fun node output _ => node = site.node ∧ output = site.output) site.plan := by
  unfold plan
  split
  · rename_i hn
    obtain ⟨done, searched, all⟩ := h.exists_order
    exact (subNode_local h searched.ordered searched.known (all site.output hn)).mono
      fun _ _ _ kept => ⟨kept.1, kept.2.1⟩
  · exact .report (.done _)

end RuleSite

/-! ## Tasks -/

/-- A plan for an output is that of an entry, or it keeps nothing of sub-nodes. -/
theorem task_local_cases {g : HostGraph} {table : RuleTable} {node : NodeId} {output : String}
    {plan : Plan Value} (h : table.task g node output = .plan plan) :
    (∃ rules, table.get? (g.kind node) = some rules ∧
      plan = RuleSite.plan ⟨g, g.kind node, rules, node, output⟩) ∨
    table.get? (g.kind node) = none ∧ ∀ keeps, Plan.Local (g.Feeds node) keeps plan := by
  unfold RuleTable.task RuleTable.resolve? at h
  dsimp only at h
  cases hk : table.get? (g.kind node) with
  | some rules =>
    rw [hk] at h
    cases h
    exact .inl ⟨rules, rfl, rfl⟩
  | none =>
    rw [hk] at h
    refine .inr ⟨rfl, fun keeps => ?_⟩
    cases hh : Handler.ofKind? (g.kind node) with
    | some handler =>
      rw [hh] at h
      cases h
      exact Handler.ofKind?_local hh
    | none =>
      rw [hh] at h
      generalize g.kind node = kind at h
      cases kind <;> cases h <;> first | exact Plan.input_local _ | exact .fail trivial

theorem task_local {g : HostGraph} {table : RuleTable}
    (accepted : ∀ kind rules, table.get? kind = some rules → rules.Accepted) {node : NodeId}
    {output : String} {plan : Plan Value} (h : table.task g node output = .plan plan) :
    Plan.Local (g.Feeds node) (fun other name _ => other = node ∧ name = output) plan := by
  rcases task_local_cases h with ⟨rules, hr, rfl⟩ | ⟨-, keepsNothing⟩
  · have ofEntry : (RuleSite.mk g (g.kind node) rules node output).rules.Accepted :=
      accepted _ rules hr
    exact RuleSite.plan_local ofEntry
  · exact keepsNothing _

/-- Calls are outputs of group nodes. -/
theorem kind_of_task_call {g : HostGraph} {table : RuleTable} {node : NodeId} {output : String}
    (h : table.task g node output = .call) : g.kind node = .group := by
  unfold RuleTable.task at h
  dsimp only at h
  split at h
  · cases h
  · cases h
  · split at h
    · assumption
    · cases h
    · cases h
  · cases h

end MaterialLowering
