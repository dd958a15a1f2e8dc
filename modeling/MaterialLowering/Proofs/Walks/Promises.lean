import MaterialLowering.Proofs.Walks.Histories
import MaterialLowering.Proofs.Walks.TwinWalks

/-!
# What is promised of values

A promise says something about the values of outputs, of sub-nodes of rules, and of the arguments of
calls. A plan keeps it if all that it ends with and all that it keeps is as promised, so long as the
values that it is given are. Where the plans of all outputs do, and calls and formal inputs hand on no
less than they were promised, the walk keeps the promise: it holds of everything that is remembered,
and of whatever an output comes to.

Main definitions:
* `Promise`: what is promised of values, in a stock that may grow.
* `Plan.Ensures`: what holds in the end of a plan, if it is given what was promised.
* `Setting.Keeps`: the outputs of a setting keep a promise.

Results:
* `RuleSite.subNode_ensures`: the sub-nodes of rules.
* `Walk.carryOut_keeps`: a plan, carried out by a walk that keeps the promise.
* `Walk.lower_keeps`: a walk keeps what all outputs keep.
* `Reached.kept`: so does what is remembered between questions.
-/

namespace MaterialLowering

open Walk (on)

/-- What is promised of values. More in the stock never breaks a promise. -/
structure Promise where
  output : Stock → Key → Value → Prop
  subNode : Stock → Key → String → Value → Prop
  /-- The value of a formal input, by the call that it is an argument of and the calls around that. -/
  argument : Stock → NodeId → List NodeId → String → Value → Prop
  output_mono {st st' : Stock} {key : Key} {v : Value} (more : st.Within st') :
    output st key v → output st' key v
  subNode_mono {st st' : Stock} {key : Key} {name : String} {v : Value} (more : st.Within st') :
    subNode st key name v → subNode st' key name v
  argument_mono {st st' : Stock} {callSite : NodeId} {around : List NodeId} {formal : String}
    {v : Value} (more : st.Within st') :
    argument st callSite around formal v → argument st' callSite around formal v

/-! ## Plans -/

namespace Plan

variable {α β : Type}

/-- Carried out in the calls of `scope`, with a stock to begin with, the plan ends with what `Q` holds of
    if it ends with a value, and it keeps only what is promised; all this if the values that it is given
    are those of outputs, and as promised. -/
def Ensures (p : Promise) (g : HostGraph) (scope : List NodeId) (Q : Stock → α → Prop) :
    Plan α → Stock → Prop
  | .done a, st => Q st a
  | .fail _, _ => True
  | .visit node output next, st => ∀ st' v, st.Within st' →
    p.output st' ⟨node, output, scope, g.material⟩ v →
    (⟨node, output, scope, g.material⟩, v) ∈ st'.outputs → Ensures p g scope Q (next v) st'
  | .create kind params next, st =>
    Ensures p g scope Q (next (st.recording.create kind params).1)
      { st with recording := (st.recording.create kind params).2 }
  | .image descriptor next, st =>
    Ensures p g scope Q (next (st.recording.materialize descriptor).1.toOption)
      { st with recording := (st.recording.materialize descriptor).2 }
  | .report _ next, st => Ensures p g scope Q next st
  | .known node output name next, st => ∀ found : Option Value,
    (∀ v, found = some v → p.subNode st ⟨node, output, scope, g.material⟩ name v) →
      Ensures p g scope Q (next found) st
  | .remember node output name value next, st =>
    p.subNode st ⟨node, output, scope, g.material⟩ name value ∧ Ensures p g scope Q next st

variable {p : Promise} {g : HostGraph} {scope : List NodeId} {Q Q' : Stock → α → Prop} {st : Stock}

theorem Ensures.bind {plan : Plan α} {f : α → Plan β} {Q : Stock → β → Prop}
    (h : plan.Ensures p g scope (fun st a => (f a).Ensures p g scope Q st) st) :
    (plan >>= f).Ensures p g scope Q st := by
  induction plan generalizing st with
  | done a => exact h
  | fail failure => trivial
  | visit node output next ih => exact fun st' v more hv there => ih v (h st' v more hv there)
  | create kind params next ih => exact ih _ h
  | image descriptor next ih => exact ih _ h
  | report notice next ih => exact ih h
  | known node output name next ih => exact fun found hf => ih found (h found hf)
  | remember node output name value next ih => exact ⟨h.1, ih h.2⟩

theorem Ensures.weaken {plan : Plan α} (h : plan.Ensures p g scope Q st)
    (hq : ∀ st' a, st.Within st' → Q st' a → Q' st' a) : plan.Ensures p g scope Q' st := by
  induction plan generalizing st with
  | done a => exact hq st a (.refl st) h
  | fail failure => trivial
  | visit node output next ih =>
    exact fun st' v more hv there =>
      ih v (h st' v more hv there) fun st'' a later => hq st'' a (more.trans later)
  | create kind params next ih =>
    exact ih _ h fun st' a more =>
      hq st' a (.trans (.of_recording _ (st.recording.create_extends kind params)) more)
  | image descriptor next ih =>
    exact ih _ h fun st' a more =>
      hq st' a (.trans (.of_recording _ (st.recording.materialize_extends descriptor)) more)
  | report notice next ih => exact ih h hq
  | known node output name next ih => exact fun found hf => ih found (h found hf) hq
  | remember node output name value next ih => exact ⟨h.1, ih h.2 hq⟩

/-- A plan that keeps no sub-nodes ensures what holds in any case. -/
theorem Local.ensures {asks : NodeId → String → Prop} {plan : Plan α}
    (h : Plan.Local asks (fun _ _ _ => False) plan) (hq : ∀ st' a, st.Within st' → Q st' a) :
    plan.Ensures p g scope Q st := by
  induction h generalizing st with
  | done a => exact hq st a (.refl st)
  | fail => trivial
  | visit _ _ ih =>
    exact fun st' v more _ _ => ih v fun st'' a later => hq st'' a (more.trans later)
  | create _ ih =>
    exact ih _ fun st' a more =>
      hq st' a (.trans (.of_recording _ (st.recording.create_extends _ _)) more)
  | image _ ih =>
    exact ih _ fun st' a more =>
      hq st' a (.trans (.of_recording _ (st.recording.materialize_extends _)) more)
  | report _ ih => exact ih hq
  | known _ _ ih => exact fun found _ => ih found hq
  | remember kept => exact kept.elim

end Plan

/-! ## Rules -/

namespace RuleSite

variable {p : Promise} {site : RuleSite} {scope : List NodeId} {subNode : String → Plan Value}
  {st : Stock}

/-- The output of a site, in calls. -/
abbrev keyIn (site : RuleSite) (scope : List NodeId) : Key :=
  ⟨site.node, site.output, scope, site.graph.material⟩

theorem source_ensures (source : ValueSource)
    (h : ∀ name st, (subNode name).Ensures p site.graph scope (fun _ _ => True) st) :
    (site.source subNode source).Ensures p site.graph scope (fun _ _ => True) st := by
  have own : ∀ {plan : Plan Value}, Plan.Local site.Asks (fun _ _ _ => False) plan →
      plan.Ensures p site.graph scope (fun _ _ => True) st :=
    fun own => own.ensures fun _ _ _ => trivial
  cases source with
  | input socket => exact own (Plan.input_local _)
  | link socket => exact own (Plan.inputLink_local _)
  | default socket => exact own (Plan.inputDefault_local _)
  | node name => exact h name st
  | literal literal => trivial

theorem params_ensures (params : List (String × ValueSource))
    (h : ∀ name st, (subNode name).Ensures p site.graph scope (fun _ _ => True) st) :
    (site.params subNode params).Ensures p site.graph scope (fun _ _ => True) st := by
  induction params generalizing st with
  | nil => trivial
  | cons param rest ih =>
    refine Plan.Ensures.bind ((source_ensures param.2 h).weaken fun _ _ _ _ => ?_)
    exact Plan.Ensures.bind (ih.weaken fun _ _ _ _ => trivial)

/-- A sub-node is as promised if what it becomes is. -/
theorem subNode_ensures
    (h : ∀ name rule, site.rules.get? name = some rule → ∀ values st,
      (rule.type.plan values).Ensures p site.graph scope
        (fun st v => p.subNode st (site.keyIn scope) name v) st)
    (fuel : Nat) (name : String) (st : Stock) :
    (site.subNode fuel name).Ensures p site.graph scope
      (fun st v => p.subNode st (site.keyIn scope) name v) st := by
  induction fuel generalizing name st with
  | zero => trivial
  | succ fuel ih =>
    intro found hf
    cases found with
    | some value => exact hf value rfl
    | none =>
      dsimp only
      cases hr : site.rules.get? name with
      | none =>
        rw [fresh, hr]
        trivial
      | some rule =>
        have params : (site.params (site.subNode fuel) rule.params).Ensures p site.graph scope
            (fun _ _ => True) st :=
          params_ensures _ fun name st => (ih name st).weaken fun _ _ _ _ => trivial
        have made := Plan.Ensures.bind (params.weaken fun st values _ _ => h name rule hr values st)
        have whole : Plan.Ensures p site.graph scope (fun st v => p.subNode st (site.keyIn scope) name v)
            ((site.params (site.subNode fuel) rule.params >>= rule.type.plan) >>= fun value =>
              .remember site.node site.output name value (.done value)) st :=
          Plan.Ensures.bind (made.weaken fun st v _ promised => ⟨promised, promised⟩)
        rw [fresh_eq hr]
        cases rule.warn with
        | none => exact whole
        | some message => exact whole

end RuleSite

/-! ## Settings and states -/

/-- The outputs of a setting keep a promise, each as long as others do. -/
structure Setting.Keeps (s : Setting) (p : Promise) : Prop where
  plan : ∀ {node output plan}, s.course node output = .plan plan → ∀ scope st,
    plan.Ensures p s.graph scope (fun st v => p.output st ⟨node, output, scope, s.graph.material⟩ v) st
  /-- A call hands on what the output node of the group comes to. -/
  call : ∀ {callSite output tree inner}, s.course callSite output = .call →
    s.graph.groupTree callSite = some tree → s.graph.groupOutput tree = some inner →
    ∀ {scope st v}, p.output st ⟨inner, output, callSite :: scope, s.graph.material⟩ v →
      (⟨inner, output, callSite :: scope, s.graph.material⟩, v) ∈ st.outputs →
      p.output st ⟨callSite, output, scope, s.graph.material⟩ v
  /-- An argument is as promised, whatever the default of the formal input is. -/
  argument : ∀ callSite formal around st,
    (Walk.argument s.graph callSite formal).Ensures p s.graph around (fun st found =>
      ∀ default : Option Lanes,
        p.argument st callSite around formal (found.or (.ofLanes? default))) st
  /-- A formal input hands on the argument of the innermost call. -/
  formal : ∀ {node formal}, s.course node formal = .formal → ∀ {scope callSite around},
    s.graph.callOf? node.tree scope = some (callSite, around) →
    ∀ {st v}, p.argument st callSite around formal v →
      p.output st ⟨node, formal, scope, s.graph.material⟩ v

/-- The calls on a stack are calls of their trees, and the arguments that they remember are as
    promised. -/
def Promise.KeptBy (p : Promise) (g : HostGraph) (st : Stock) : List Frame → Prop
  | [] => True
  | frame :: around =>
    g.groupTree frame.callSite = some frame.tree ∧
    (∀ formal v, frame.arguments.get? formal = some v →
      p.argument st frame.callSite (around.map Frame.callSite) formal v) ∧ p.KeptBy g st around

/-- Everything that a state remembers is as promised. -/
structure WalkState.Keeps (p : Promise) (g : HostGraph) (σ : WalkState) : Prop where
  outputs : ∀ key v, σ.cache.get? key = some v → p.output σ.stock key v
  subNodes : ∀ key name v, σ.cache.subNode? key name = some v → p.subNode σ.stock key name v
  stack : p.KeptBy g σ.stock σ.stack

namespace Promise.KeptBy

variable {p : Promise} {g : HostGraph} {st st' : Stock} {stack inside around : List Frame}
  {frame : Frame}

theorem mono (h : p.KeptBy g st stack) (more : st.Within st') : p.KeptBy g st' stack := by
  induction stack with
  | nil => trivial
  | cons frame around ih =>
    exact ⟨h.1, fun formal v hv => p.argument_mono more (h.2.1 formal v hv), ih h.2.2⟩

/-- The calls around one. -/
theorem behind (h : p.KeptBy g st (inside ++ frame :: around)) : p.KeptBy g st (frame :: around) := by
  induction inside with
  | nil => exact h
  | cons first inside ih => exact ih h.2.2

/-- A call on the stack and those around it, in the place of the same calls. -/
theorem replace {frame' : Frame} {around' : List Frame}
    (h : p.KeptBy g st (inside ++ frame :: around)) (h' : p.KeptBy g st (frame' :: around'))
    (site : frame'.callSite = frame.callSite)
    (sites : around'.map Frame.callSite = around.map Frame.callSite) :
    p.KeptBy g st (inside ++ frame' :: around') := by
  induction inside with
  | nil => exact h'
  | cons first inside ih =>
    have same : (inside ++ frame' :: around').map Frame.callSite =
        (inside ++ frame :: around).map Frame.callSite := by simp [site, sites]
    exact ⟨h.1, fun formal v hv => same ▸ h.2.1 formal v hv, ih h.2.2⟩

/-- The innermost call of a tree is found by the calls alone. -/
theorem callOf?_eq (h : p.KeptBy g st stack) {tree : TreeId}
    (found : Walk.innermostCall? tree stack = some (inside, frame, around)) :
    g.callOf? tree (stack.map Frame.callSite) = some (frame.callSite, around.map Frame.callSite) := by
  let self : Twinning := ⟨Eq, Eq, Eq, .empty⟩
  have called : ∀ f ∈ stack, FramesAlike self g f f := by
    clear found
    induction stack with
    | nil => exact fun _ hf => by cases hf
    | cons first rest ih => exact List.forall_mem_cons.2 ⟨⟨h.1, rfl, rfl⟩, ih h.2.2⟩
  exact callOf?_of_innermostCall? (List.forall₂_same.2 called) found

end Promise.KeptBy

namespace WalkState.Keeps

variable {p : Promise} {g : HostGraph} {σ : WalkState}

theorem start (r : Recording) : WalkState.Keeps p g (.start r) :=
  ⟨fun _ _ h => (by cases h), fun _ _ _ h => (by cases h), trivial⟩

theorem recorded (h : σ.Keeps p g) {r : Recording} (hr : σ.recording.Extends r) :
    WalkState.Keeps p g { σ with recording := r } :=
  have more : σ.stock.Within ⟨r, σ.cache.outputs.entries⟩ := .of_recording _ hr
  ⟨fun key v hv => p.output_mono more (h.outputs key v hv),
    fun key name v hv => p.subNode_mono more (h.subNodes key name v hv), h.stack.mono more⟩

theorem withStack (h : σ.Keeps p g) {stack : List Frame} (hs : p.KeptBy g σ.stock stack) :
    WalkState.Keeps p g { σ with stack } := ⟨h.outputs, h.subNodes, hs⟩

/-- What is reported and what is being lowered makes no difference. -/
theorem relogged (h : σ.Keeps p g) (log : Array Notice) (active : List Key) :
    WalkState.Keeps p g { σ with log, active } := ⟨h.outputs, h.subNodes, h.stack⟩

theorem put (h : σ.Keeps p g) {key : Key} {v : Value}
    (more : σ.stock.Within (WalkState.stock { σ with cache := σ.cache.put key v }))
    (hv : p.output σ.stock key v) :
    WalkState.Keeps p g { σ with cache := σ.cache.put key v } := by
  refine ⟨fun other w hw => ?_, fun other name w hw => p.subNode_mono more (h.subNodes other name w hw),
    h.stack.mono more⟩
  replace hw : (σ.cache.outputs.put key v).get? other = some w := hw
  rw [Memo.get?_put] at hw
  split at hw
  · rename_i same
    obtain rfl := Option.some.inj hw
    exact p.output_mono more (same ▸ hv)
  · exact p.output_mono more (h.outputs other w hw)

theorem putSubNode (h : σ.Keeps p g) {key : Key} {name : String} {v : Value}
    (hv : p.subNode σ.stock key name v) :
    WalkState.Keeps p g { σ with cache := σ.cache.putSubNode key name v } := by
  refine ⟨h.outputs, fun other name' w hw => ?_, h.stack⟩
  replace hw : (σ.cache.subNodes.put (key, name) v).get? (other, name') = some w := hw
  rw [Memo.get?_put] at hw
  split at hw
  · rename_i same
    obtain rfl := Option.some.inj hw
    obtain ⟨rfl, rfl⟩ := Prod.mk.inj same
    exact hv
  · exact h.subNodes other name' w hw

theorem leaving (h : σ.Keeps p g) (g' : HostGraph) : WalkState.Keeps p g (σ.leaving g') := by
  refine ⟨?_, ?_, ?_⟩
  · simpa using h.outputs
  · simpa using h.subNodes
  · rw [leaving_stock, leaving_stack]
    have stack := h.stack
    generalize σ.stack = stack' at stack ⊢
    cases stack' with
    | nil => trivial
    | cons frame around => exact stack.2.2

end WalkState.Keeps

/-! ## Walks -/

namespace Walk

variable {α : Type} {p : Promise} {s : Setting} {g : HostGraph} {visit : NodeId → String → Walk Value}
  {σ : WalkState}

/-- A run ends in a state that keeps the promise, and with a value that `Q` holds of, if it does not
    fail. -/
structure Ends (p : Promise) (g : HostGraph) (Q : Stock → α → Prop)
    (run : Except Failure α × WalkState) : Prop where
  keeps : run.2.Keeps p g
  result : ∀ a, run.1 = .ok a → Q run.2.stock a

/-- Outputs are found as promised, and are known from then on. -/
def Delivers (p : Promise) (g : HostGraph) (visit : NodeId → String → Walk Value) : Prop :=
  ∀ node output (σ : WalkState), σ.Keeps p g →
    Ends p g (fun st v => p.output st ⟨node, output, σ.scope, g.material⟩ v ∧
      (⟨node, output, σ.scope, g.material⟩, v) ∈ st.outputs) (on (visit node output) σ)

theorem Ends.fail {Q : Stock → α → Prop} (h : σ.Keeps p g) (failure : Failure) :
    Ends p g Q (.error failure, σ) := ⟨h, fun _ ha => by cases ha⟩

theorem carryOut_keeps (hv : Delivers p g visit) (steady : ∀ node output, Steady (visit node output))
    {Q : Stock → α → Prop} {plan : Plan α} {scope : List NodeId} (hs : σ.scope = scope)
    (h : σ.Keeps p g) (ensures : plan.Ensures p g scope Q σ.stock) :
    Ends p g Q (on (carryOut g visit plan) σ) := by
  induction plan generalizing σ with
  | done a => exact ⟨h, fun b hb => by cases hb; exact ensures⟩
  | fail failure => exact .fail h failure
  | visit node output next ih =>
    have first := hv node output σ h
    have evolves := steady node output σ
    simp only [carryOut, on_bind]
    generalize on (visit node output) σ = run at first evolves
    obtain ⟨failure | v, σ'⟩ := run
    · exact .fail first.keeps failure
    · obtain ⟨promised, there⟩ := first.result v rfl
      rw [hs] at promised there
      exact ih v (evolves.scope_eq.trans hs) first.keeps
        (ensures _ v evolves.stock promised there)
  | create kind params next ih =>
    exact ih _ hs (h.recorded (σ.recording.create_extends kind params)) ensures
  | image descriptor next ih =>
    exact ih _ hs (h.recorded (σ.recording.materialize_extends descriptor)) ensures
  | report notice next ih => exact ih hs (h.relogged _ σ.active) ensures
  | known node output name next ih =>
    simp only [carryOut, on_bind, on_key, on_get]
    exact ih _ hs h (ensures _ fun v hv => hs ▸ h.subNodes _ name v hv)
  | remember node output name value next ih =>
    simp only [carryOut, on_bind, on_key, on_modify]
    exact ih hs (h.putSubNode (hs ▸ ensures.1)) ensures.2

/-! ## Groups -/

theorem call_keeps (keeps : s.Keeps p) (hv : Delivers p s.graph visit) {callSite : NodeId}
    {output : String} (course : s.course callSite output = .call) (h : σ.Keeps p s.graph) :
    Ends p s.graph (fun st v => p.output st ⟨callSite, output, σ.scope, s.graph.material⟩ v)
      (on (call s.graph visit callSite output) σ) := by
  rw [on_call]
  cases ht : s.graph.groupTree callSite with
  | none => exact .fail h _
  | some tree =>
    dsimp only
    split
    · exact .fail h _
    have noted : (σ.noting (.enteringGroup (s.graph.label callSite) (σ.stack.length + 1))).Keeps p
        s.graph := h.relogged _ _
    cases ho : s.graph.groupOutput tree with
    | none => exact .fail noted _
    | some inner =>
      have entered : p.KeptBy s.graph σ.stock (⟨callSite, tree, .empty⟩ :: σ.stack) :=
        ⟨ht, fun _ _ h => (by cases h), h.stack⟩
      have inside := hv inner output _ (noted.withStack entered)
      refine ⟨inside.keeps.leaving s.graph, fun v ha => ?_⟩
      rw [WalkState.leaving_stock]
      obtain ⟨promised, there⟩ := inside.result v ha
      exact keeps.call course ht ho promised there

theorem formal_keeps (keeps : s.Keeps p) (hv : Delivers p s.graph visit)
    (steady : ∀ node output, Steady (visit node output)) {node : NodeId} {name : String}
    (course : s.course node name = .formal) (h : σ.Keeps p s.graph) :
    Ends p s.graph (fun st v => p.output st ⟨node, name, σ.scope, s.graph.material⟩ v)
      (on (formal s.graph visit node name) σ) := by
  rw [on_formal]
  rcases hc : innermostCall? node.tree σ.stack with _ | ⟨inside, frame, around⟩
  · exact .fail h _
  obtain ⟨hstack, -, -⟩ := innermostCall?_spec hc
  have hands : ∀ {st v}, p.argument st frame.callSite (around.map Frame.callSite) name v →
      p.output st ⟨node, name, σ.scope, s.graph.material⟩ v :=
    keeps.formal course (h.stack.callOf?_eq hc)
  have stack := h.stack
  rw [hstack] at stack
  obtain ⟨called, arguments, outer⟩ := stack.behind
  dsimp only
  cases hf : frame.arguments.get? name with
  | some value => exact ⟨h, fun v hv => by cases hv; exact hands (arguments name value hf)⟩
  | none =>
    -- The argument is read outside of the call, and the frame is put back with it.
    have read := carryOut_keeps hv steady rfl (h.withStack outer)
      (keeps.argument frame.callSite name (around.map Frame.callSite) σ.stock)
    have evolves := carryOut_evolves (g := s.graph) steady (argument s.graph frame.callSite name)
      { σ with stack := around }
    generalize on (carryOut s.graph visit (argument s.graph frame.callSite name))
      { σ with stack := around } = run at read evolves ⊢
    obtain ⟨result, σ'⟩ := run
    have sites : σ'.stack.map Frame.callSite = around.map Frame.callSite := evolves.stack.callSites
    have before := stack.mono evolves.stock
    have known : ∀ formal v, frame.arguments.get? formal = some v →
        p.argument σ'.stock frame.callSite (σ'.stack.map Frame.callSite) formal v :=
      fun formal v hv => sites ▸ p.argument_mono evolves.stock (arguments formal v hv)
    cases result with
    | error failure =>
      exact .fail (read.keeps.withStack (before.replace ⟨called, known, read.keeps.stack⟩ rfl sites)) _
    | ok found =>
      have promised := read.result found rfl (s.graph.outputDefault node name)
      refine ⟨read.keeps.withStack (before.replace ⟨called, ?_, read.keeps.stack⟩ rfl sites),
        fun v hv => by cases hv; exact hands promised⟩
      intro formal v hv
      rw [Memo.get?_put] at hv
      split at hv
      · rename_i same
        obtain rfl := same
        obtain rfl := Option.some.inj hv
        exact sites ▸ promised
      · exact known formal v hv

/-! ## Outputs -/

theorem expand_keeps (keeps : s.Keeps p) (hv : Delivers p s.graph visit)
    (steady : ∀ node output, Steady (visit node output)) (node : NodeId) (output : String)
    (h : σ.Keeps p s.graph) :
    Ends p s.graph (fun st v => p.output st ⟨node, output, σ.scope, s.graph.material⟩ v)
      (on (expand s visit node output) σ) := by
  obtain ⟨log, hl⟩ := on_expand_follow s visit node output σ
  rw [hl]
  have logged : WalkState.Keeps p s.graph { σ with log } := h.relogged log σ.active
  cases course : s.course node output with
  | plan plan => exact carryOut_keeps hv steady rfl logged (keeps.plan course _ _)
  | call => exact call_keeps keeps hv course logged
  | formal => exact formal_keeps keeps hv steady course logged

theorem step_keeps (keeps : s.Keeps p) (hv : Delivers p s.graph visit)
    (steady : ∀ node output, Steady (visit node output)) : Delivers p s.graph (step s visit) := by
  intro node output σ h
  rw [on_step]
  dsimp only
  cases found : σ.cache.get? ⟨node, output, σ.scope, s.graph.material⟩ with
  | some value =>
    refine ⟨h, fun v hv => ?_⟩
    cases hv
    exact ⟨h.outputs _ _ found, Memo.mem_entries_of_get? found⟩
  | none =>
    dsimp only
    split
    · exact .fail h _
    have evolves := expand_evolves s steady node output
      { σ with active := ⟨node, output, σ.scope, s.graph.material⟩ :: σ.active }
    have inner := expand_keeps keeps hv steady node output
      (h.relogged σ.log (⟨node, output, σ.scope, s.graph.material⟩ :: σ.active))
    generalize on (expand s visit node output)
      { σ with active := ⟨node, output, σ.scope, s.graph.material⟩ :: σ.active } = run
      at evolves inner ⊢
    obtain ⟨failure | value, σ'⟩ := run
    · exact .fail (inner.keeps.relogged _ _) failure
    · have promised := inner.result value rfl
      have more := σ'.stock_finished (.ok value) (evolves.notMem_keys List.mem_cons_self found)
      refine ⟨(inner.keeps.relogged σ'.log (σ'.active.erase _)).put more promised, fun v hv => ?_⟩
      cases hv
      exact ⟨p.output_mono more promised, List.mem_cons_self⟩

/-- A walk keeps what all outputs keep, however deep it may go. -/
theorem lower_keeps (keeps : s.Keeps p) (depth : Nat) : Delivers p s.graph (lower s depth) := by
  induction depth with
  | zero => exact fun node output σ h => .fail h _
  | succ depth ih => exact step_keeps keeps ih (lower_evolves s depth)

end Walk

/-- What is remembered between questions is as promised. -/
theorem Reached.kept {s : Setting} {p : Promise} {σ : WalkState} (reached : Reached s σ)
    (keeps : s.Keeps p) : σ.Keeps p s.graph := by
  induction reached with
  | start r => exact .start r
  | ask reached question ih =>
    rw [question.ask_eq reached.idle.1]
    obtain ⟨asks, own⟩ := question.plan_local s.graph
    exact (Walk.carryOut_keeps (Q := fun _ _ => True) (Walk.lower_keeps keeps s.depth)
      (Walk.lower_evolves s s.depth) rfl ih (own.ensures fun _ _ _ => trivial)).keeps
  | recorded _ hr ih => exact ih.recorded hr

end MaterialLowering
