import MaterialLowering.Proofs.Shaders.HandedOn
import MaterialLowering.Proofs.Walks.Promises

/-!
# Plans of shaders

An output *suits* a surface when nothing was refused that it draws on, and when it came to no other node
than a shader, unless that node was handed on to it from an output that is no shader. That outputs suit is
a promise that every plan keeps: shaders make shaders, and what only hands on is given what suits.

Main definitions:
* `Suits`: what is promised of outputs.
* `Received`: what is known of a value that was read through an input.

Results:
* `bypass?_suits`: nodes that are passed by.
* `Handler.materialOutput_suits`, `Handler.mixShader_suits`, `Handler.addShader_suits`: handlers.
* `RuleSite.plan_suits`: the rules of an entry.
-/

namespace MaterialLowering

/-- The node is a shader. -/
def Recording.IsShader (r : Recording) (handle : NodeHandle) : Prop :=
  ∃ node, r.node? handle = some node ∧ node.kind.isShader = true

theorem Recording.IsShader.mono {r r' : Recording} {handle : NodeHandle} (h : r.IsShader handle)
    (hr : r.Extends r') : r'.IsShader handle := by
  obtain ⟨node, hn, shader⟩ := h
  exact ⟨node, hr.node?_eq hn, shader⟩

theorem Recording.isShader_created {r : Recording} {kind : NativeKind} (h : kind.isShader = true)
    (params : List (String × Value)) : (r.create kind params).2.IsShader (r.create kind params).1 :=
  ⟨.withParams kind params, Array.getElem?_push_size, h⟩

/-! ## What is promised -/

/-- The outputs that came to a node. -/
def Stock.Carries (st : Stock) (handle : NodeHandle) (key : Key) : Prop :=
  (key, .node handle) ∈ st.outputs

/-- What is promised of an output that came to a value: nothing was refused that it draws on, and it is
    no node but a shader, unless the node was handed on from an output that is none. -/
structure Suits (g : HostGraph) (st : Stock) (key : Key) (v : Value) : Prop where
  accepted : ¬ g.Refused key
  shader : ∀ handle, v = .node handle →
    st.recording.IsShader handle ∨ g.Strays (st.Carries handle) key

/-- What is known of a value that was read through an input. -/
structure Received (g : HostGraph) (st : Stock) (reader : NodeId) (input : SocketKey)
    (scope : List NodeId) (v : Value) : Prop where
  agrees : ¬ g.Clashes reader input
  accepted : ∀ {source output}, g.Joins reader input source output →
    ¬ g.Refused ⟨source, output, scope, g.material⟩
  /-- A node is read through a link alone, from an output that came to it. -/
  joined : ∀ handle, v = .node handle → ∃ source output, g.Joins reader input source output ∧
    st.Carries handle ⟨source, output, scope, g.material⟩ ∧
    Suits g st ⟨source, output, scope, g.material⟩ (.node handle)

section

variable {g : HostGraph} {st st' : Stock} {key : Key} {v : Value}

theorem Stock.Carries.mono {handle : NodeHandle} (h : st.Carries handle key) (more : st.Within st') :
    st'.Carries handle key := more.outputs h

theorem Suits.mono (h : Suits g st key v) (more : st.Within st') : Suits g st' key v :=
  ⟨h.accepted, fun handle hv => (h.shader handle hv).imp (·.mono more.recording)
    (.mono fun _ carries => carries.mono more)⟩

theorem Received.mono {reader : NodeId} {input : SocketKey} {scope : List NodeId}
    (h : Received g st reader input scope v) (more : st.Within st') :
    Received g st' reader input scope v := by
  refine ⟨h.agrees, h.accepted, fun handle hv => ?_⟩
  obtain ⟨source, output, joins, carries, suits⟩ := h.joined handle hv
  exact ⟨source, output, joins, carries.mono more, suits.mono more⟩

/-- Where an argument is nothing, the default of the formal input is none. -/
theorem Received.or {reader : NodeId} {input : SocketKey} {scope : List NodeId}
    (h : Received g st reader input scope v) (default : Option Lanes) :
    Received g st reader input scope (v.or (.ofLanes? default)) := by
  refine ⟨h.agrees, h.accepted, fun handle hv => h.joined handle ?_⟩
  cases v <;> cases default <;> first | exact hv | cases hv

/-- An output suits that is made as a shader, or is what was received through an input that it draws on,
    if all of these inputs were read. -/
theorem Suits.of_received (uncalled : g.muted key.node = true ∨ g.kind key.node ≠ .group)
    (read : ∀ reader input scope, g.Draws key reader input scope →
      ∃ w, Received g st reader input scope w)
    (value : ∀ handle, v = .node handle → st.recording.IsShader handle ∨
      ∃ reader input scope, g.Draws key reader input scope ∧ Received g st reader input scope v) :
    Suits g st key v := by
  refine ⟨HostGraph.not_refused (fun reader input scope h => ?_) fun other draws => ?_,
    fun handle hv => ?_⟩
  · obtain ⟨w, received⟩ := read reader input scope h
    exact received.agrees
  · obtain ⟨reader, input, scope, source, output, h, joins, rfl⟩ := draws.exists_link uncalled
    obtain ⟨w, received⟩ := read reader input scope h
    exact received.accepted joins
  · rcases value handle hv with shader | ⟨reader, input, scope, h, received⟩
    · exact .inl shader
    · obtain ⟨source, output, joins, carries, suits⟩ := received.joined handle hv
      exact (suits.shader handle rfl).imp id (.of_drawsOn (.link h joins) carries)

/-- An output that is no shader may be anything. -/
theorem Suits.of_stray (accepted : ¬ g.Refused key) (stray : g.NonShader key ∨ g.Inner key) :
    Suits g st key v :=
  ⟨accepted, fun _ _ => .inr ⟨key, .refl, stray⟩⟩

end

/-- The promise that outputs suit a surface. -/
def HostGraph.surfacePromise (g : HostGraph) : Promise where
  output := Suits g
  subNode st key name v := name = key.output → Suits g st key v
  argument st callSite around formal v := Received g st callSite (.name formal) around v
  output_mono more h := h.mono more
  subNode_mono more h same := (h same).mono more
  argument_mono more h := h.mono more

/-! ## Plans -/

/-- Carried out in the calls of a key, the plan comes to what suits as the output of the key. -/
abbrev Plan.Suited (g : HostGraph) (key : Key) (plan : Plan Value) (st : Stock) : Prop :=
  plan.Ensures g.surfacePromise g key.scope (fun st v => Suits g st key v) st

namespace Plan

variable {g : HostGraph} {node : NodeId} {scope : List NodeId} {st : Stock}

theorem throughLink_received (key : SocketKey) {unlinked : Socket → Value}
    (hu : ∀ socket handle, unlinked socket ≠ .node handle) :
    (throughLink g node key unlinked).Ensures g.surfacePromise g scope
      (fun st v => Received g st node key scope v) st := by
  rw [throughLink_eq]
  cases hs : g.input node key with
  | none => trivial
  | some socket =>
    have agrees : ∀ {link}, g.checkedLink node socket = .ok link → ¬ g.Clashes node key := by
      rintro link hl ⟨socket', failure, hs', hf⟩
      obtain rfl := Option.some.inj (hs.symm.trans hs')
      cases hl.symm.trans hf
    dsimp only
    cases hl : g.checkedLink node socket with
    | error failure => trivial
    | ok link =>
      have joins : ∀ {source output}, g.Joins node key source output →
          ∃ found, link = some found ∧ found.node = source ∧ found.output = output := by
        rintro source output ⟨socket', found, hs', hl', hn, ho⟩
        obtain rfl := Option.some.inj (hs.symm.trans hs')
        exact ⟨found, Except.ok.inj (hl.symm.trans hl'), hn, ho⟩
      cases link with
      | none =>
        refine ⟨agrees hl, fun h => ?_, fun handle hv => absurd hv (hu socket handle)⟩
        obtain ⟨found, hf, -, -⟩ := joins h
        cases hf
      | some link =>
        intro st' v more suits there
        refine ⟨agrees hl, fun h => ?_, fun handle hv => ?_⟩
        · obtain ⟨found, hf, rfl, rfl⟩ := joins h
          cases hf
          exact suits.accepted
        · subst hv
          exact ⟨link.node, link.output, ⟨socket, link, hs, hl, rfl, rfl⟩, there, suits⟩

theorem inputLink_received (key : SocketKey) :
    (inputLink g node key).Ensures g.surfacePromise g scope
      (fun st v => Received g st node key scope v) st :=
  throughLink_received key fun _ _ h => by cases h

theorem input_received (key : SocketKey) :
    (input g node key).Ensures g.surfacePromise g scope
      (fun st v => Received g st node key scope v) st :=
  throughLink_received key fun socket _ h => by
    generalize socket.default = default at h
    cases default <;> cases h

end Plan

/-! ## Nodes -/

section

variable {g : HostGraph} {node : NodeId} {output : String} {scope : List NodeId} {st : Stock}

/-- What all inputs give that a node draws on, and what the node makes of it. -/
theorem Suits.of_own {v : Value}
    (inside : g.muted node = true ∨ g.kind node ≠ .group ∧ g.kind node ≠ .groupInput)
    (read : ∀ input ∈ g.draws node output, ∃ w, Received g st node input scope w)
    (value : ∀ handle, v = .node handle → st.recording.IsShader handle ∨
      ∃ input ∈ g.draws node output, Received g st node input scope v) :
    Suits g st ⟨node, output, scope, g.material⟩ v := by
  refine .of_received (inside.imp id And.left) (fun reader input scope' h => ?_) fun handle hv => ?_
  · obtain ⟨rfl, rfl, draws⟩ := h.eq_own (inside.imp id And.right)
    exact read input draws
  · refine (value handle hv).imp id fun ⟨input, draws, received⟩ => ?_
    exact ⟨node, input, scope, .own draws, received⟩

/-- A node that hands on one input. -/
theorem Suits.of_single {v : Value} {input : SocketKey}
    (inside : g.muted node = true ∨ g.kind node ≠ .group ∧ g.kind node ≠ .groupInput)
    (draws : g.draws node output = [input]) (h : Received g st node input scope v) :
    Suits g st ⟨node, output, scope, g.material⟩ v := by
  refine .of_own inside (fun other hm => ?_) fun _ _ => .inr ⟨input, by simp [draws], h⟩
  rw [draws, List.mem_singleton] at hm
  exact ⟨v, hm ▸ h⟩

theorem bypass?_suits {plan : Plan Value} (h : bypass? g node = some plan) :
    plan.Suited g ⟨node, output, scope, g.material⟩ st := by
  unfold bypass? at h
  split at h
  · rename_i kind
    cases h
    have draws : g.draws node output = [.index 0] := if_pos kind
    refine Plan.Ensures.bind ((Plan.inputLink_received _).weaken fun st v _ received => ?_)
    have suits := Suits.of_single (.inr (by simp [kind])) draws received
    dsimp only
    split
    · exact suits
    · exact suits
  · rename_i reroute
    split at h
    · rename_i muted
      cases h
      have draws : g.draws node output =
          (((List.range (g.inputCount node)).find? fun index => g.hasLink node (.index index)).map
            SocketKey.index).toList := by rw [HostGraph.draws, if_neg reroute, if_pos muted]
      unfold Plan.muted
      split
      · rename_i index found
        rw [found] at draws
        exact (Plan.inputLink_received _).weaken fun st v _ received =>
          .of_single (.inl muted) draws received
      · rename_i found
        rw [found] at draws
        refine .of_own (.inl muted) (fun input hm => ?_) fun handle hv => by cases hv
        rw [draws] at hm
        cases hm
    · cases h

/-! ## Handlers -/

variable (typed : ¬ g.Untyped node)

include typed

theorem inside_of_typed : g.kind node ≠ .group ∧ g.kind node ≠ .groupInput :=
  ⟨fun kind => typed (.inl (by rw [kind]; rfl)), fun kind => typed (.inl (by rw [kind]; rfl))⟩

theorem Handler.materialOutput_suits (kind : g.kind node = .outputMaterial) :
    (Handler.materialOutput g node output).Suited g ⟨node, output, scope, g.material⟩ st := by
  have draws : g.draws node output = [.name "Surface"] := by
    rw [HostGraph.draws_of_typed typed, kind]
    rfl
  have inside := inside_of_typed typed
  refine Plan.Ensures.bind ((Plan.inputLink_received _).weaken fun st surface _ received => ?_)
  cases surface with
  | node handle => exact .of_single (.inr inside) draws received
  | constant | image => trivial
  | unset =>
    dsimp only
    split
    · -- A clear surface is made where there is nothing but a volume.
      refine Suits.of_own (.inr inside) (fun input hm => ?_) fun handle hv => ?_
      · rw [draws, List.mem_singleton] at hm
        exact ⟨.unset, hm ▸ received.mono (.of_recording _ (st.recording.create_extends _ _))⟩
      · cases hv
        exact .inl (Recording.isShader_created rfl _)
    · trivial

/-- A node that reads two shaders hands on one of them or makes a new one. -/
theorem Suits.of_pair {a b : SocketKey} {v shader1 shader2 : Value}
    (draws : g.draws node output = [a, b]) (first : Received g st node a scope shader1)
    (second : Received g st node b scope shader2)
    (value : v = shader1 ∨ v = shader2 ∨ ∀ handle, v = .node handle → st.recording.IsShader handle) :
    Suits g st ⟨node, output, scope, g.material⟩ v := by
  refine .of_own (.inr (inside_of_typed typed)) (fun input hm => ?_) fun handle hv => ?_
  · rw [draws] at hm
    rcases List.mem_pair.1 hm with rfl | rfl
    · exact ⟨_, first⟩
    · exact ⟨_, second⟩
  · rcases value with rfl | rfl | made
    · exact .inr ⟨a, by simp [draws], first⟩
    · exact .inr ⟨b, by simp [draws], second⟩
    · exact .inl (made handle hv)

/-- A new shader, made of the two that were read. -/
theorem Suits.of_pair_created {a b : SocketKey} {shader1 shader2 : Value}
    (draws : g.draws node output = [a, b]) (first : Received g st node a scope shader1)
    (second : Received g st node b scope shader2) {kind : NativeKind} (shader : kind.isShader = true)
    (params : List (String × Value)) :
    (Plan.node kind params).Suited g ⟨node, output, scope, g.material⟩ st := by
  have grown := Stock.Within.of_recording st.outputs (st.recording.create_extends kind params)
  refine Suits.of_pair typed draws (first.mono grown) (second.mono grown) (.inr (.inr ?_))
  intro handle hv
  cases hv
  exact Recording.isShader_created shader params

theorem Handler.mixShader_suits (kind : g.kind node = .mixShader) :
    (Handler.mixShader g node output).Suited g ⟨node, output, scope, g.material⟩ st := by
  have draws : g.draws node output = [.index 1, .index 2] := by
    rw [HostGraph.draws_of_typed typed, kind]
    rfl
  refine Plan.Ensures.bind ((Plan.input_received _).weaken fun _ factor _ _ => ?_)
  refine Plan.Ensures.bind ((Plan.inputLink_received _).weaken fun _ shader1 _ first => ?_)
  refine Plan.Ensures.bind ((Plan.inputLink_received _).weaken fun st shader2 later second => ?_)
  replace first := first.mono later
  split
  · trivial
  · exact .of_pair typed draws first second (.inr (.inl rfl))
  · exact .of_pair typed draws first second (.inl rfl)
  · split
    · exact .of_pair typed draws first second (.inl rfl)
    split
    · exact .of_pair typed draws first second (.inr (.inl rfl))
    · exact .of_pair_created typed draws first second rfl _

theorem Handler.addShader_suits (kind : g.kind node = .addShader) :
    (Handler.addShader g node output).Suited g ⟨node, output, scope, g.material⟩ st := by
  have draws : g.draws node output = [.index 0, .index 1] := by
    rw [HostGraph.draws_of_typed typed, kind]
    rfl
  refine Plan.Ensures.bind ((Plan.inputLink_received _).weaken fun _ shader1 _ first => ?_)
  refine Plan.Ensures.bind ((Plan.inputLink_received _).weaken fun st shader2 later second => ?_)
  replace first := first.mono later
  split
  · exact .of_pair typed draws first second (.inr (.inl rfl))
  · exact .of_pair typed draws first second (.inl rfl)
  · exact .of_pair_created typed draws first second rfl _

omit typed in
/-- The output node of a group hands on its input of the name. -/
theorem groupOutput_suits (unmuted : g.muted node = false) (kind : g.kind node = .groupOutput) :
    (Plan.input g node (.name output)).Suited g ⟨node, output, scope, g.material⟩ st := by
  have draws : g.draws node output = [.name output] := by
    simp [HostGraph.draws, kind, unmuted]
  exact (Plan.input_received _).weaken fun st v _ received =>
    .of_single (.inr (by simp [kind])) draws received

end

/-! ## Rules -/

/-- What a sub-node becomes is a shader. -/
def RuleType.isShader : RuleType → Bool
  | .native kind => kind.isShader
  | .fold _ => false

/-- An output of an entry suits if its sub-node becomes a shader, or if the output need not be one. -/
theorem RuleSite.plan_suits {site : RuleSite} {scope : List NodeId} {st : Stock}
    (accepted : ¬ site.graph.Refused (site.keyIn scope))
    (apt : ∀ rule, site.rules.get? site.output = some rule → rule.type.isShader = true ∨
      site.graph.NonShader (site.keyIn scope) ∨ site.graph.Inner (site.keyIn scope)) :
    site.plan.Suited site.graph (site.keyIn scope) st := by
  have becomes : ∀ rule, site.rules.get? site.output = some rule → ∀ values st,
      (rule.type.plan values).Suited site.graph (site.keyIn scope) st := by
    intro rule hr values st
    have own : Plan.Local site.Asks (fun _ _ _ => False) (rule.type.plan values) :=
      typePlan_local rule.type values
    rcases apt rule hr with shader | stray
    · generalize rule.type = type at shader
      cases type with
      | native kind =>
        refine ⟨accepted, fun handle hv => ?_⟩
        cases hv
        exact .inl (Recording.isShader_created shader values)
      | fold op => cases shader
    · exact own.ensures fun _ _ _ => .of_stray accepted stray
  unfold plan
  split
  · refine (subNode_ensures (fun name rule hr values st => ?_) _ _ st).weaken fun _ _ _ suits => suits rfl
    by_cases same : name = site.output
    · subst same
      exact (becomes rule hr values st).weaken fun _ _ _ suits _ => suits
    · have own : Plan.Local site.Asks (fun _ _ _ => False) (rule.type.plan values) :=
        typePlan_local rule.type values
      exact own.ensures fun _ _ _ same' => absurd same' same
  · exact ⟨accepted, fun handle hv => by cases hv⟩

end MaterialLowering
