import MaterialLowering.Proofs.Documents.Matchings

/-!
# Walks by a detour

A reroute in a link hands on what the link came from. A graph is walked with such a reroute as it is
walked without it, but the walk knows one output more, and it has one output more on its way. What is
known of the reroute is known of its source, and while the reroute is being lowered its source is, or is
the next output that is asked for. So where links go round, the walk may notice so at the reroute
instead of its source, and nothing else tells the two walks apart. The walk by the reroute goes at most
twice as deep.

Main definitions:
* `Detour`, `HostGraph.Detours`: a graph in which some links lead through a reroute.
* `WalkState.Detours`: what the states of the two walks have in common.

Results:
* `Walk.lower_detours`: an output.
* `Walk.root_detours`: the root of a material.
-/

namespace MaterialLowering

open HostGraph (ReadsAs)
open Walk (on)

/-! ## Graphs -/

/-- A reroute, and the output that it hands on. -/
structure Detour where
  node : NodeId
  source : NodeId
  output : String

namespace Detour

/-- Outputs of a graph without the reroute and of one with it that stand for each other: the reroute
    stands for its source, and all other outputs for themselves. -/
inductive Stands (δ : Detour) : NodeId → String → NodeId → String → Prop
  | same {node : NodeId} (other : node ≠ δ.node) (output : String) : Stands δ node output node output
  | through (output : String) : Stands δ δ.source δ.output δ.node output

/-- The key of the source in the call context of a key. -/
def past (δ : Detour) (key : Key) : Key := { key with node := δ.source, output := δ.output }

def pairing (δ : Detour) : Pairing where
  output := δ.Stands
  label := Eq
  failing := .empty

def twinning (δ : Detour) : Twinning where
  key k k' := δ.Stands k.node k.output k'.node k'.output ∧ k'.scope = k.scope ∧ k'.material = k.material
  tree := Eq
  label := Eq
  failing := .empty

end Detour

/-- The second graph has a reroute that is not in the first one, and some of the links from the source of
    the reroute lead through it. Neither graph is read at the reroute, and it calls no group. -/
structure HostGraph.Detours (δ : Detour) (g g' : HostGraph) : Prop where
  apart : δ.source ≠ δ.node
  material : g'.material = g.material
  outputNode : g'.outputNode = g.outputNode
  root : g.outputNode ≠ some δ.node
  groupTree : ∀ node, node ≠ δ.node → g'.groupTree node = g.groupTree node
  calls : g.groupTree δ.node = none
  groupOutput : g'.groupOutput = g.groupOutput
  leaves : ∀ tree, g.groupOutput tree ≠ some δ.node
  reads : ∀ node, node ≠ δ.node → ReadsAs δ.pairing g g' node node
  kind : g'.kind δ.node = .reroute
  forwards : Plan.inputLink g' δ.node (.index 0) = .visit δ.source δ.output .done

namespace HostGraph.Detours

variable {δ : Detour} {g g' : HostGraph} {node : NodeId} (h : g.Detours δ g')

include h

theorem label (other : node ≠ δ.node) : g'.label node = g.label node := (h.reads node other).label.symm

theorem reads_within (other : node ≠ δ.node) (scope : List NodeId) :
    ReadsAs (δ.twinning.within g g' scope scope) g g' node node :=
  (h.reads node other).mono (fun stands => ⟨stands, rfl, h.material⟩) rfl rfl id

theorem key_same (other : node ≠ δ.node) (output : String) (scope : List NodeId) :
    δ.twinning.key ⟨node, output, scope, g.material⟩ ⟨node, output, scope, g'.material⟩ :=
  ⟨.same other output, rfl, h.material⟩

theorem calls_alike (other : node ≠ δ.node) (output : String) (scope : List NodeId) :
    CallsAlike δ.twinning g g' ⟨node, output, scope, g.material⟩
      ⟨node, output, scope, g'.material⟩ := by
  unfold CallsAlike
  dsimp only
  rw [h.groupTree node other, h.groupOutput]
  cases g.groupTree node with
  | none => exact .none
  | some tree =>
    refine .some ⟨rfl, ?_⟩
    cases ho : g.groupOutput tree with
    | none => exact .none
    | some inner => exact .some (h.key_same (fun same => h.leaves tree (same ▸ ho)) output _)

theorem argument_twin (other : node ≠ δ.node) (formal : String) (scope : List NodeId) :
    Plan.Twin (δ.twinning.within g g' scope scope) (Walk.argument g node formal)
      (Walk.argument g' node formal) :=
  have reads := h.reads_within other scope
  MaterialLowering.argument_twin reads.kind reads.label (reads.input _)

theorem formals_alike (other : node ≠ δ.node) (output : String) (scope : List NodeId) :
    FormalsAlike δ.twinning g g' ⟨node, output, scope, g.material⟩
      ⟨node, output, scope, g'.material⟩ where
  tree := rfl
  default := (h.reads node other).outputDefault output
  argument := by
    intro callSite around callSite' around' found suffix length
    have same : List.Forall₂ Eq (callSite :: around) (callSite' :: around') :=
      forall₂_of_suffix (List.forall₂_same.2 fun _ _ => rfl) (callOf?_suffix found) suffix
        (by simpa using length)
    obtain ⟨rfl, rfl⟩ : callSite = callSite' ∧ around = around' := by
      simpa [List.forall₂_eq_eq_eq] using same
    refine h.argument_twin (fun reroute => ?_) output around
    have called := groupTree_of_callOf? found
    rw [reroute, h.calls] at called
    cases called

end HostGraph.Detours

/-! ## States -/

/-- What the states of the two walks have in common. The walk by the reroute may know outputs of the
    reroute, and then the source is known too. It may be lowering outputs of the reroute, and then the
    source is being lowered too, unless it is the output that is `awaited`: the one that is asked for
    next. -/
structure WalkState.Detours (δ : Detour) (awaited : Option Key) (σ σ' : WalkState) : Prop where
  recording : σ'.recording = σ.recording
  subNodes : σ'.cache.subNodes = σ.cache.subNodes
  stack : σ'.stack = σ.stack
  calls : ∀ frame ∈ σ.stack, frame.callSite ≠ δ.node
  outputs : ∀ key, key.node ≠ δ.node → σ'.cache.get? key = σ.cache.get? key
  passed : ∀ key value, key.node = δ.node → σ'.cache.get? key = some value →
    σ.cache.get? (δ.past key) = some value
  active : ∀ key, key.node ≠ δ.node → (key ∈ σ'.active ↔ key ∈ σ.active)
  waiting : ∀ key ∈ σ'.active, key.node = δ.node →
    awaited = some (δ.past key) ∨ δ.past key ∈ σ.active
  unknown : ∀ key ∈ σ.active, σ.cache.get? key = none

namespace WalkState.Detours

variable {δ : Detour} {awaited : Option Key} {σ σ' : WalkState}

theorem start (r : Recording) : WalkState.Detours δ none (.start r) (.start r) where
  recording := rfl
  subNodes := rfl
  stack := rfl
  calls _ hf := by cases hf
  outputs _ _ := rfl
  passed _ _ _ known := by cases known
  active _ _ := .rfl
  waiting _ hk := by cases hk
  unknown _ hk := by cases hk

variable (h : σ.Detours δ awaited σ')

include h

theorem scope_eq : σ'.scope = σ.scope := by rw [WalkState.scope, h.stack]

/-- What is reported makes no difference. -/
theorem logged (log log' : Array Notice) :
    WalkState.Detours δ awaited { σ with log } { σ' with log := log' } :=
  { h with }

theorem noting (notice notice' : Notice) : (σ.noting notice).Detours δ awaited (σ'.noting notice') :=
  h.logged _ _

theorem recorded (r : Recording) :
    WalkState.Detours δ awaited { σ with recording := r } { σ' with recording := r } :=
  { h with recording := rfl }

theorem withStack {stack : List Frame} (calls : ∀ frame ∈ stack, frame.callSite ≠ δ.node) :
    WalkState.Detours δ awaited { σ with stack } { σ' with stack } :=
  { h with stack := rfl, calls }

theorem putSubNode (key : Key) (name : String) (value : Value) :
    WalkState.Detours δ awaited { σ with cache := σ.cache.putSubNode key name value }
      { σ' with cache := σ'.cache.putSubNode key name value } :=
  { h with subNodes := congrArg (·.put (key, name) value) h.subNodes }

theorem leaving (g g' : HostGraph) : (σ.leaving g).Detours δ awaited (σ'.leaving g') where
  recording := by simpa using h.recording
  subNodes := by simpa using h.subNodes
  stack := by simp [h.stack]
  calls frame hf := h.calls frame (List.mem_of_mem_tail (by simpa using hf))
  outputs := by simpa using h.outputs
  passed := by simpa using h.passed
  active := by simpa using h.active
  waiting := by simpa using h.waiting
  unknown := by simpa using h.unknown

omit h in
/-- An output other than the reroute is begun, the one that was awaited if there is one. -/
theorem begin (h : σ.Detours δ awaited σ') {key : Key} (other : key.node ≠ δ.node)
    (about : ∀ k, awaited = some k → k = key) (new : σ.cache.get? key = none) :
    WalkState.Detours δ none { σ with active := key :: σ.active }
      { σ' with active := key :: σ'.active } :=
  { h with
    active := fun k hk => by simp [h.active k hk]
    waiting := by
      intro k hk reroute
      obtain hk : k ∈ σ'.active :=
        (List.mem_cons.1 hk).resolve_left fun same => other (same ▸ reroute)
      rcases h.waiting k hk reroute with next | begun
      · exact .inr (about _ next ▸ List.mem_cons_self)
      · exact .inr (List.mem_cons_of_mem _ begun)
    unknown := by
      intro k hk
      rcases List.mem_cons.1 hk with rfl | hk
      · exact new
      · exact h.unknown k hk }

omit h in
/-- The reroute is begun, and its source is awaited. -/
theorem beginThrough (h : σ.Detours δ none σ') {key : Key} (reroute : key.node = δ.node) :
    WalkState.Detours δ (some (δ.past key)) σ { σ' with active := key :: σ'.active } :=
  { h with
    active := fun k hk => by
      have different : k ≠ key := fun same => hk (same ▸ reroute)
      simp [different, h.active k hk]
    waiting := by
      intro k hk rerouted
      rcases List.mem_cons.1 hk with rfl | hk
      · exact .inl rfl
      · exact .inr ((h.waiting k hk rerouted).resolve_left nofun) }

/-- An output is over and came to nothing: what is being lowered is what was before. -/
theorem stop {τ τ' : WalkState} {key : Key} (inner : τ.Detours δ none τ')
    (left : τ.active = key :: σ.active) (right : τ'.active = key :: σ'.active) :
    WalkState.Detours δ awaited { τ with active := τ.active.erase key }
      { τ' with active := τ'.active.erase key } := by
  rw [left, right, List.erase_cons_head, List.erase_cons_head]
  exact { inner with
    active := h.active
    waiting := h.waiting
    unknown := fun k hk => inner.unknown k (left ▸ List.mem_cons_of_mem _ hk) }

/-- An output other than the reroute is over and came to a value. -/
theorem keep {τ τ' : WalkState} {key : Key} (other : key.node ≠ δ.node) (begun : key ∉ σ.active)
    (inner : τ.Detours δ none τ') (left : τ.active = key :: σ.active)
    (right : τ'.active = key :: σ'.active) (value : Value) :
    WalkState.Detours δ awaited
      { τ with active := τ.active.erase key, cache := τ.cache.put key value }
      { τ' with active := τ'.active.erase key, cache := τ'.cache.put key value } := by
  have stopped := h.stop inner left right
  have absent : τ.cache.get? key = none := inner.unknown key (left ▸ List.mem_cons_self)
  refine { stopped with outputs := fun k hk => ?_, passed := fun k v reroute known => ?_,
                        unknown := fun k hk => ?_ }
  · rw [Cache.get?_put, Cache.get?_put, inner.outputs k hk]
  · have different : key ≠ k := fun same => other (same ▸ reroute)
    rw [Cache.get?_put, if_neg different] at known
    have passed := inner.passed k v reroute known
    have unlike : key ≠ δ.past k := by
      rintro rfl
      rw [absent] at passed
      cases passed
    rw [Cache.get?_put, if_neg unlike]
    exact passed
  · have unlike : key ≠ k := by
      rintro rfl
      exact begun (by simpa [left] using hk)
    rw [Cache.get?_put, if_neg unlike]
    exact stopped.unknown k hk

omit h in
/-- The reroute is over and came to nothing. -/
theorem stopThrough (h : σ.Detours δ none σ') {τ τ' : WalkState} {key : Key}
    (inner : τ.Detours δ (some (δ.past key)) τ') (left : τ.active = σ.active)
    (right : τ'.active = key :: σ'.active) :
    WalkState.Detours δ none τ { τ' with active := τ'.active.erase key } := by
  rw [right, List.erase_cons_head]
  refine { inner with active := ?_, waiting := ?_ }
  · rw [left]
    exact h.active
  · rw [left]
    exact h.waiting

omit h in
/-- The reroute is over and came to what its source did. -/
theorem keepThrough (h : σ.Detours δ none σ') {τ τ' : WalkState} {key : Key}
    (reroute : key.node = δ.node) (inner : τ.Detours δ (some (δ.past key)) τ')
    (left : τ.active = σ.active) (right : τ'.active = key :: σ'.active) {value : Value}
    (known : τ.cache.get? (δ.past key) = some value) :
    WalkState.Detours δ none τ
      { τ' with active := τ'.active.erase key, cache := τ'.cache.put key value } := by
  have stopped := h.stopThrough inner left right
  refine { stopped with outputs := fun k hk => ?_, passed := fun k v rerouted found => ?_ }
  · have different : key ≠ k := fun same => hk (same ▸ reroute)
    rw [Cache.get?_put, if_neg different]
    exact inner.outputs k hk
  · rw [Cache.get?_put] at found
    split at found
    · rename_i same
      cases found
      exact same ▸ known
    · exact inner.passed k v rerouted found

end WalkState.Detours

/-! ## Runs -/

/-- The same failure; or one cycle, which is noticed an output later, at the reroute. -/
inductive Detour.Fails (δ : Detour) (g g' : HostGraph) : Failure → Failure → Prop
  | same (failure : Failure) : Fails δ g g' failure failure
  | later (output : String) :
      Fails δ g g' (.cyclicGraph (g.label δ.source) δ.output) (.cyclicGraph (g'.label δ.node) output)

/-- Two runs end alike. Nothing is said where the first one was stopped. -/
inductive Detour.Ends {α : Type} (δ : Detour) (g g' : HostGraph) (awaited : Option Key) :
    Except Failure α × WalkState → Except Failure α × WalkState → Prop
  | ok (a : α) {σ σ' : WalkState} (state : σ.Detours δ awaited σ') :
      Ends δ g g' awaited (.ok a, σ) (.ok a, σ')
  | error {failure failure' : Failure} {σ σ' : WalkState} (h : δ.Fails g g' failure failure')
      (state : σ.Detours δ awaited σ') : Ends δ g g' awaited (.error failure, σ) (.error failure', σ')
  | stopped {failure : Failure} (h : failure.IsTooDeep) (σ : WalkState)
      (run' : Except Failure α × WalkState) : Ends δ g g' awaited (.error failure, σ) run'

theorem Detour.Ends.leaving {α : Type} {δ : Detour} {g g' : HostGraph} {awaited : Option Key}
    {run run' : Except Failure α × WalkState} (h : δ.Ends g g' awaited run run') :
    δ.Ends g g' awaited (run.1, run.2.leaving g) (run'.1, run'.2.leaving g') := by
  cases h with
  | ok a state => exact .ok a (state.leaving g g')
  | error h state => exact .error h (state.leaving g g')
  | stopped h σ run' => exact .stopped h _ _

namespace Walk

variable {δ : Detour} {visit visit' : NodeId → String → Walk Value}

/-- Outputs that stand for each other are found alike. -/
def VisitsDetour (δ : Detour) (g g' : HostGraph) (visit visit' : NodeId → String → Walk Value) : Prop :=
  ∀ {node output node' output' σ σ'}, δ.Stands node output node' output' → σ.Detours δ none σ' →
    δ.Ends g g' none (on (visit node output) σ) (on (visit' node' output') σ')

section

variable {g g' : HostGraph} (h : g.Detours δ g') (hv : VisitsDetour δ g g' visit visit')

include h hv

/-- Twin plans are carried out alike if the second one looks up no sub-nodes of the reroute. -/
theorem carryOut_detours {α : Type} {plan plan' : Plan α} {scope : List NodeId}
    (twin : Plan.Twin (δ.twinning.within g g' scope scope) plan plan')
    {asks : NodeId → String → Prop} {keeps : NodeId → String → String → Prop}
    (own : Plan.Local asks keeps plan') (other : ∀ node output name, keeps node output name → node ≠ δ.node)
    {σ σ' : WalkState} (state : σ.Detours δ none σ') :
    δ.Ends g g' none (on (carryOut g visit plan) σ) (on (carryOut g' visit' plan') σ') := by
  induction twin generalizing σ σ' with
  | done a => exact .ok a state
  | fail same =>
    rw [Failure.Like.eq same]
    exact .error (.same _) state
  | refused lenient => exact lenient.elim
  | unasked nothing => exact nothing.elim
  | @visit node node' output output' next next' asked _ ih =>
    cases own with
    | visit _ go =>
      have first := hv asked.1 state
      simp only [carryOut, on_bind]
      generalize on (visit node output) σ = run, on (visit' node' output') σ' = run' at first
      cases first with
      | ok value state => exact ih value (go value) state
      | error fails state => exact .error fails state
      | stopped deep => exact .stopped deep _ _
  | create kind params _ ih =>
    cases own with
    | create go =>
      simp only [carryOut, on_bind, on_get, on_modify]
      rw [state.recording]
      exact ih _ (go _) (state.recorded _)
  | image descriptor _ ih =>
    cases own with
    | image go =>
      simp only [carryOut, on_bind, on_get, on_modify]
      rw [state.recording]
      exact ih _ (go _) (state.recorded _)
  | noImage lost => cases lost
  | reportLeft notice _ ih =>
    simp only [carryOut, on_bind, on_say]
    exact ih own (state.logged _ _)
  | reportRight notice _ ih =>
    cases own with
    | report go =>
      simp only [carryOut, on_bind, on_say]
      exact ih go (state.logged _ _)
  | @known node node' output output' name next next' mine _ ih =>
    cases own with
    | known kept go =>
      -- A sub-node that is looked up belongs to a node other than the reroute, and so to the same one.
      cases mine.1 with
      | through => exact absurd rfl (other _ _ _ kept)
      | same =>
        simp only [carryOut, on_bind, on_key, on_get, Cache.subNode?]
        rw [state.scope_eq, h.material, state.subNodes]
        exact ih _ (go _) state
  | @remember node node' output output' name value next next' mine _ ih =>
    cases own with
    | remember kept go =>
      cases mine.1 with
      | through => exact absurd rfl (other _ _ _ kept)
      | same =>
        simp only [carryOut, on_bind, on_key, on_modify]
        rw [state.scope_eq, h.material]
        exact ih go (state.putSubNode _ name value)

theorem call_detours {node : NodeId} (other : node ≠ δ.node) (output : String) {σ σ' : WalkState}
    (state : σ.Detours δ none σ') :
    δ.Ends g g' none (on (call g visit node output) σ) (on (call g' visit' node output) σ') := by
  rw [on_call, on_call, h.groupTree node other, h.label other, state.stack, h.groupOutput]
  cases g.groupTree node with
  | none => exact .error (.same _) state
  | some tree =>
    dsimp only
    split
    · exact .error (.same _) state
    · have entered := state.noting (.enteringGroup (g.label node) (σ.stack.length + 1))
        (.enteringGroup (g.label node) (σ.stack.length + 1))
      cases ho : g.groupOutput tree with
      | none => exact .error (.same _) entered
      | some inner =>
        have apart : inner ≠ δ.node := fun same => h.leaves tree (same ▸ ho)
        have calls : ∀ frame ∈ (⟨node, tree, .empty⟩ :: σ.stack : List Frame),
            frame.callSite ≠ δ.node := List.forall_mem_cons.2 ⟨other, state.calls⟩
        dsimp only [WalkState.noting_stack]
        rw [state.stack]
        exact (hv (.same apart output) (entered.withStack calls)).leaving

theorem formal_detours {node : NodeId} (other : node ≠ δ.node) (output : String) {σ σ' : WalkState}
    (state : σ.Detours δ none σ') :
    δ.Ends g g' none (on (formal g visit node output) σ) (on (formal g' visit' node output) σ') := by
  rw [on_formal, on_formal, state.stack, h.label other, (h.reads node other).outputDefault]
  cases hc : innermostCall? node.tree σ.stack with
  | none => exact .error (.same _) state
  | some call =>
    obtain ⟨inside, frame, around⟩ := call
    obtain ⟨hstack, -, -⟩ := innermostCall?_spec hc
    have calls : ∀ f ∈ inside ++ frame :: around, f.callSite ≠ δ.node := hstack ▸ state.calls
    obtain ⟨within, outer⟩ := List.forall_mem_append.1 calls
    obtain ⟨here, beyond⟩ := List.forall_mem_cons.1 outer
    dsimp only
    cases frame.arguments.get? output with
    | some value => exact .ok value state
    | none =>
      have own : Plan.Local (g'.Feeds frame.callSite) (fun _ _ _ => False)
          (argument g' frame.callSite output) := argument_local output
      have outside := carryOut_detours h hv (h.argument_twin here output []) own
        (fun _ _ _ => False.elim) (state.withStack beyond)
      dsimp only
      generalize on (carryOut g visit _) _ = run, on (carryOut g' visit' _) _ = run' at outside
      have back : ∀ {f : Frame} {τ : WalkState}, f.callSite ≠ δ.node →
          (∀ f ∈ τ.stack, f.callSite ≠ δ.node) → ∀ f' ∈ inside ++ f :: τ.stack, f'.callSite ≠ δ.node :=
        fun hf hs => List.forall_mem_append.2 ⟨within, List.forall_mem_cons.2 ⟨hf, hs⟩⟩
      cases outside with
      | error fails after =>
        dsimp only
        rw [after.stack]
        exact .error fails (after.withStack (back here after.calls))
      | ok found after =>
        dsimp only
        rw [after.stack]
        exact .ok _ (after.withStack (back here after.calls))
      | stopped deep => exact .stopped deep _ _

end

/-- What a step comes to is known after it. -/
theorem get?_of_step {s : Setting} {node : NodeId} {output : String} {σ τ : WalkState} {value : Value}
    (h : on (step s visit node output) σ = (.ok value, τ)) :
    τ.cache.get? ⟨node, output, σ.scope, s.graph.material⟩ = some value := by
  rw [on_step] at h
  dsimp only at h
  split at h
  · rename_i found
    cases h
    exact found
  · split at h
    · cases h
    · split at h
      · cases h
      · cases h
        rw [Cache.get?_put, if_pos rfl]

variable {s s' : Setting} (h : s.graph.Detours δ s'.graph) (table : s'.table = s.table)

include h

include table in
/-- What there is to do for an output is alike, except at the reroute. -/
theorem course_detours {node : NodeId} (other : node ≠ δ.node) (output : String)
    (scope : List NodeId) :
    CoursesAlike δ.twinning s.graph s'.graph ⟨node, output, scope, s.graph.material⟩
      ⟨node, output, scope, s'.graph.material⟩ (s.course node output) (s'.course node output) := by
  have reads := h.reads_within other scope
  exact Setting.course_twin table (h.key_same other output scope) rfl
    ⟨reads.kind, reads.label, reads.muted, fun _ => reads,
      fun _ _ => h.calls_alike other output scope, fun _ _ => h.formals_alike other output scope,
      fun _ _ => reads.input _⟩

omit h in
/-- A plan for an output looks up sub-nodes of that output only. -/
theorem course_local (accepted : ∀ kind rules, s.table.get? kind = some rules → rules.Accepted)
    {node : NodeId} {output : String} {plan : Plan Value} (hp : s.course node output = .plan plan) :
    Plan.Local (s.graph.Feeds node) (fun other name _ => other = node ∧ name = output) plan := by
  unfold Setting.course at hp
  cases passed : bypass? s.graph node with
  | some plan =>
    rw [passed] at hp
    cases hp
    exact bypass?_local passed
  | none =>
    rw [passed] at hp
    exact task_local accepted hp

section

variable (accepted : ∀ kind rules, s'.table.get? kind = some rules → rules.Accepted)
  (hv : VisitsDetour δ s.graph s'.graph visit visit')

include table accepted hv

theorem expand_detours {node : NodeId} (other : node ≠ δ.node) (output : String) {σ σ' : WalkState}
    (state : σ.Detours δ none σ') :
    δ.Ends s.graph s'.graph none (on (expand s visit node output) σ)
      (on (expand s' visit' node output) σ') := by
  obtain ⟨log, hl⟩ := on_expand_follow s visit node output σ
  obtain ⟨log', hl'⟩ := on_expand_follow s' visit' node output σ'
  rw [hl, hl']
  have logged := state.logged log log'
  have course := course_detours h table other output []
  have own : ∀ plan, s'.course node output = .plan plan →
      Plan.Local (s'.graph.Feeds node) (fun other name _ => other = node ∧ name = output) plan :=
    fun _ => course_local accepted
  generalize s.course node output = task, s'.course node output = task' at course own
  cases course with
  | plan twin => exact carryOut_detours h hv twin (own _ rfl) (fun _ _ _ mine => mine.1 ▸ other) logged
  | call => exact call_detours h hv other output logged
  | formal => exact formal_detours h hv other output logged

/-- One step to an output other than the reroute. -/
theorem step_detours (steady : ∀ node output, Steady (visit node output))
    (steady' : ∀ node output, Steady (visit' node output)) {node : NodeId} (other : node ≠ δ.node)
    (output : String) {awaited : Option Key} {σ σ' : WalkState} (state : σ.Detours δ awaited σ')
    (about : ∀ key, awaited = some key → key = ⟨node, output, σ.scope, s.graph.material⟩) :
    δ.Ends s.graph s'.graph awaited (on (step s visit node output) σ)
      (on (step s' visit' node output) σ') := by
  rw [on_step, on_step, h.material, state.scope_eq, h.label other]
  generalize hk : (⟨node, output, σ.scope, s.graph.material⟩ : Key) = key at about
  have apart : key.node ≠ δ.node := hk ▸ other
  dsimp only
  rw [state.outputs key apart, if_congr (state.active key apart) rfl rfl]
  cases hc : σ.cache.get? key with
  | some value => exact .ok value state
  | none =>
    dsimp only
    split
    · exact .error (.same _) state
    · rename_i begun
      have inner := expand_detours h table accepted hv other output (state.begin apart about hc)
      have active := (expand_evolves s steady node output { σ with active := key :: σ.active }).active
      have active' :=
        (expand_evolves s' steady' node output { σ' with active := key :: σ'.active }).active
      generalize on (expand s visit node output) _ = run, on (expand s' visit' node output) _ = run'
        at inner active active'
      cases inner with
      | ok value after => exact .ok value (state.keep apart begun after active active' value)
      | error fails after => exact .error fails (state.stop after active active')
      | stopped deep => exact .stopped deep _ _

end

/-- The reroute is lowered as its source is. -/
theorem expand_through (visit' : NodeId → String → Walk Value) (output : String) (σ : WalkState) :
    ∃ log, on (expand s' visit' δ.node output) σ =
      ((on (visit' δ.source δ.output) σ).1, { (on (visit' δ.source δ.output) σ).2 with log }) := by
  have plan : bypass? s'.graph δ.node = some (.visit δ.source δ.output fun value =>
      if value.isUnset then .report (.rerouteOpen (s'.graph.label δ.node)) (.done value)
      else .done value) := by
    rw [bypass?, if_pos h.kind, Plan.reroute, h.forwards]
    rfl
  rw [on_expand, plan]
  simp only [carryOut, on_bind]
  generalize on (visit' δ.source δ.output) σ = run
  obtain ⟨_ | value, τ⟩ := run
  · exact ⟨τ.log, rfl⟩
  · dsimp only
    split
    · exact ⟨_, rfl⟩
    · exact ⟨τ.log, rfl⟩

/-- One step to the reroute is the step to its source. -/
theorem step_through (steady : ∀ node output, Steady (visit node output))
    (steady' : ∀ node output, Steady (visit' node output))
    (direct : ∀ {awaited σ σ'}, σ.Detours δ awaited σ' →
      (∀ key, awaited = some key → key = ⟨δ.source, δ.output, σ.scope, s.graph.material⟩) →
      δ.Ends s.graph s'.graph awaited (on (step s visit δ.source δ.output) σ)
        (on (visit' δ.source δ.output) σ'))
    (output : String) {σ σ' : WalkState} (state : σ.Detours δ none σ') :
    δ.Ends s.graph s'.graph none (on (step s visit δ.source δ.output) σ)
      (on (step s' visit' δ.node output) σ') := by
  rw [on_step s' δ.node output σ', h.material, state.scope_eq]
  generalize hk : (⟨δ.node, output, σ.scope, s.graph.material⟩ : Key) = key
  have reroute : key.node = δ.node := by rw [← hk]
  have past : δ.past key = ⟨δ.source, δ.output, σ.scope, s.graph.material⟩ := by rw [← hk, Detour.past]
  dsimp only
  cases hc : σ'.cache.get? key with
  | some value =>
    have known := state.passed key value reroute hc
    rw [past] at known
    rw [on_step]
    dsimp only
    rw [known]
    exact .ok value state
  | none =>
    dsimp only
    split
    · rename_i begun
      have around : δ.past key ∈ σ.active := (state.waiting key begun reroute).resolve_left nofun
      have unknown := state.unknown _ around
      rw [past] at around unknown
      rw [on_step]
      dsimp only
      rw [unknown]
      dsimp only
      rw [if_pos around]
      exact .error (.later output) state
    · have inner := direct (state.beginThrough reroute) fun k hk => by rw [← Option.some.inj hk, past]
      have active := (step_evolves s steady δ.source δ.output σ).active
      have active' := (steady' δ.source δ.output { σ' with active := key :: σ'.active }).active
      have kept : ∀ value τ, on (step s visit δ.source δ.output) σ = (.ok value, τ) →
          τ.cache.get? (δ.past key) = some value := fun _ _ run => past ▸ get?_of_step run
      obtain ⟨log, through⟩ := expand_through h visit' output { σ' with active := key :: σ'.active }
      rw [through]
      generalize on (step s visit δ.source δ.output) σ = run, on (visit' δ.source δ.output) _ = run'
        at inner active active' kept
      cases inner with
      | ok value after =>
        exact .ok value (state.keepThrough reroute (after.logged _ log) active active' (kept _ _ rfl))
      | error fails after =>
        exact .error fails (state.stopThrough (after.logged _ log) active active')
      | stopped deep => exact .stopped deep _ _

section

variable (accepted : ∀ kind rules, s'.table.get? kind = some rules → rules.Accepted)

include table accepted

/-- Outputs that stand for each other are lowered alike, if the walk by the reroute may go twice as
    deep. -/
theorem lower_detours {depth depth' : Nat} (deep : 2 * depth ≤ depth') :
    VisitsDetour δ s.graph s'.graph (lower s depth) (lower s' depth') := by
  induction depth generalizing depth' with
  | zero =>
    intro node output node' output' σ σ' _ _
    have deep : (Failure.tooDeep (s.graph.label node) output).IsTooDeep := trivial
    exact .stopped deep σ _
  | succ depth ih =>
    obtain ⟨rest, rfl⟩ : ∃ rest, depth' = rest + 2 := ⟨depth' - 2, by omega⟩
    intro node output node' output' σ σ' stands state
    cases stands with
    | same other =>
      exact step_detours h table accepted (ih (by omega)) (lower_evolves s depth)
        (lower_evolves s' (rest + 1)) other output state nofun
    | through =>
      refine step_through h (lower_evolves s depth) (lower_evolves s' (rest + 1)) ?_ output' state
      intro awaited σ σ' state about
      exact step_detours h table accepted (ih (by omega)) (lower_evolves s depth)
        (lower_evolves s' rest) h.apart δ.output state about

/-- The material is read alike, if the walk by the reroute may go twice as deep. -/
theorem root_detours (deep : 2 * s.depth ≤ s'.depth) (r : Recording) :
    δ.Ends s.graph s'.graph none (on (root s) (.start r)) (on (root s') (.start r)) := by
  have start : WalkState.Detours δ none (.start r) (.start r) := .start r
  unfold root
  dsimp only
  rw [h.outputNode, h.material]
  cases ho : s.graph.outputNode with
  | none => exact .error (.same _) start
  | some node =>
    have other : node ≠ δ.node := fun same => h.root (same ▸ ho)
    have lowered := lower_detours h table accepted deep (.same other surface) start
    dsimp only
    rw [on_bind, on_bind, h.label other]
    unfold Walk.output
    generalize on (lower s s.depth node surface) _ = run, on (lower s' s'.depth node surface) _ = run'
      at lowered
    cases lowered with
    | error fails after => exact .error fails after
    | stopped deep => exact .stopped deep _ _
    | ok value after =>
      cases value with
      | node handle => exact .ok handle after
      | constant | image | unset => exact .error (.same _) after

end

end Walk

end MaterialLowering
