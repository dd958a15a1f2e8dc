import MaterialLowering.Proofs.Plans.PlansAlike
import MaterialLowering.Proofs.Walks.Control

/-!
# Walks in lockstep

A walk looks at no handle, so that walks of one graph that begin in different recordings do the
same: they create the same nodes in the same order and ask for the same images. The handles of a
node differ by the sizes of the recordings at the beginning, those of an image by its places in the
lists of images.

Results:
* `Walk.carryOut_lockstep`, `Walk.step_lockstep`: a plan, and one step of the walk.
* `Walk.lower_lockstep`, `Walk.root_lockstep`: an output, and the root of a material.
-/

namespace MaterialLowering

/-! ## Handles -/

/-- Handles of nodes that were created at the same time since `b` and `b'`, and of images with the
    same descriptor. -/
def Recording.since (b b' r r' : Recording) : Correspondence where
  node a a' := ∃ i, a.index = b.nodes.size + i ∧ a'.index = b'.nodes.size + i ∧
    a.index < r.nodes.size ∧ a'.index < r'.nodes.size
  image i i' := ∃ descriptor, descriptor ∈ r.images ∧ descriptor ∈ r'.images ∧
    i.index = r.images.idxOf descriptor ∧ i'.index = r'.images.idxOf descriptor

theorem prefix_idxOf {l l' : List ImageDescriptor} (h : l <+: l') {descriptor : ImageDescriptor}
    (hm : descriptor ∈ l) : l'.idxOf descriptor = l.idxOf descriptor := by
  obtain ⟨rest, rfl⟩ := h
  exact List.idxOf_append_of_mem hm

theorem Recording.since_mono (b b' : Recording) {r r' s s' : Recording} (h : r.Extends s)
    (h' : r'.Extends s') : since b b' r r' ≤ since b b' s s' := by
  refine ⟨fun a a' ⟨i, ha, ha', hlt, hlt'⟩ => ⟨i, ha, ha', ?_, ?_⟩, ?_⟩
  · exact Nat.lt_of_lt_of_le hlt h.size_le
  · exact Nat.lt_of_lt_of_le hlt' h'.size_le
  · intro i i' ⟨descriptor, hm, hm', hi, hi'⟩
    refine ⟨descriptor, h.images.subset hm, h'.images.subset hm', ?_, ?_⟩
    · rw [prefix_idxOf h.images hm, hi]
    · rw [prefix_idxOf h'.images hm', hi']

/-- Recordings that began as `b` and `b'` and to which the same was done. -/
inductive Grown (b b' : Recording) : Recording → Recording → Prop
  | start : Grown b b' b b'
  | create {r r' : Recording} {kind : NativeKind} {ps qs : List (String × Value)}
      (h : Grown b b' r r') (params : List.Forall₂ ((Recording.since b b' r r').Parameter kind) ps qs) :
      Grown b b' (r.create kind ps).2 (r'.create kind qs).2
  | materialize {r r' : Recording} (h : Grown b b' r r') (descriptor : ImageDescriptor) :
      Grown b b' (r.materialize descriptor).2 (r'.materialize descriptor).2

namespace Grown

variable {b b' r r' : Recording}

theorem left (h : Grown b b' r r') : b.Extends r := by
  induction h with
  | start => exact .refl b
  | create _ _ ih => exact ih.trans (Recording.create_extends _ _ _)
  | materialize _ _ ih => exact ih.trans (Recording.materialize_extends _ _)

theorem right (h : Grown b b' r r') : b'.Extends r' := by
  induction h with
  | start => exact .refl b'
  | create _ _ ih => exact ih.trans (Recording.create_extends _ _ _)
  | materialize _ _ ih => exact ih.trans (Recording.materialize_extends _ _)

/-- As many nodes were created on both sides. -/
theorem sizes (h : Grown b b' r r') :
    r.nodes.size + b'.nodes.size = r'.nodes.size + b.nodes.size := by
  induction h with
  | start => exact Nat.add_comm _ _
  | create _ _ ih => simp only [Recording.create_nodes, Array.size_push]; omega
  | materialize _ _ ih => simpa using ih

/-- The handles of nodes that are created on both sides correspond. -/
theorem created (h : Grown b b' r r') (kind : NativeKind) (ps qs : List (String × Value)) :
    (Recording.since b b' (r.create kind ps).2 (r'.create kind qs).2).node (r.create kind ps).1
      (r'.create kind qs).1 := by
  have hsize := h.sizes
  have hb := h.left.size_le
  refine ⟨r.nodes.size - b.nodes.size, ?_, ?_, ?_, ?_⟩
  · show r.nodes.size = _
    omega
  · show r'.nodes.size = _
    omega
  · simp [Recording.create]
  · simp [Recording.create]

/-- The images of a descriptor correspond, where there are any. -/
theorem materialized (h : Grown b b' r r') (hf : b.failing = b'.failing)
    (descriptor : ImageDescriptor) :
    Option.Rel (Recording.since b b' (r.materialize descriptor).2 (r'.materialize descriptor).2).image
      (r.materialize descriptor).1.toOption (r'.materialize descriptor).1.toOption := by
  have failing : r.failing = r'.failing := by rw [h.left.failing, h.right.failing, hf]
  cases hc : r.failing.contains descriptor.name with
  | true =>
    rw [Recording.materialize_failing hc, Recording.materialize_failing (failing ▸ hc)]
    exact .none
  | false =>
    obtain ⟨hr, hm, hi⟩ := Recording.materialize_loaded hc
    obtain ⟨hr', hm', hi'⟩ := Recording.materialize_loaded (failing ▸ hc)
    rw [hr, hr']
    exact .some ⟨descriptor, hm, hm', hi.symm, hi'.symm⟩

end Grown

/-! ## States -/

/-- The same keys with the same values up to handles. -/
def Memo.Alike {κ : Type} (w : Correspondence) (m m' : Memo κ Value) : Prop :=
  List.Forall₂ (fun e e' => e.1 = e'.1 ∧ w.Answer e.2 e'.2) m.entries m'.entries

namespace Memo.Alike

variable {κ : Type} {w w' : Correspondence} {m m' : Memo κ Value}

theorem mono (hw : w ≤ w') (h : Memo.Alike w m m') : Memo.Alike w' m m' :=
  List.Forall₂.imp (fun _ _ he => ⟨he.1, he.2.mono hw⟩) h

theorem empty [DecidableEq κ] : Memo.Alike w (Memo.empty : Memo κ Value) Memo.empty := .nil

theorem get? [DecidableEq κ] (h : Memo.Alike w m m') (key : κ) :
    Option.Rel w.Answer (m.get? key) (m'.get? key) := by
  obtain ⟨entries⟩ := m
  obtain ⟨entries'⟩ := m'
  show Option.Rel w.Answer (find? key entries) (find? key entries')
  replace h : List.Forall₂ (fun e e' => e.1 = e'.1 ∧ w.Answer e.2 e'.2) entries entries' := h
  induction h with
  | nil => exact .none
  | @cons e e' _ _ he _ ih =>
    obtain ⟨k, v⟩ := e
    obtain ⟨k', v'⟩ := e'
    obtain ⟨rfl, hv⟩ : k = k' ∧ w.Answer v v' := he
    by_cases hk : k = key
    · simpa [find?, hk] using hv
    · simpa [find?, hk] using ih

theorem put [DecidableEq κ] (h : Memo.Alike w m m') (key : κ) {a b : Value} (hv : w.Answer a b) :
    Memo.Alike w (m.put key a) (m'.put key b) := by
  refine .cons ⟨rfl, hv⟩ (List.rel_filter (fun e e' he => ?_) h)
  simp [he.1]

theorem size_eq (h : Memo.Alike w m m') : m.size = m'.size := h.length_eq

end Memo.Alike

/-- The same call, which remembers the same arguments up to handles. -/
structure Frame.Alike (w : Correspondence) (f f' : Frame) : Prop where
  callSite : f.callSite = f'.callSite
  tree : f.tree = f'.tree
  arguments : f.arguments.Alike w f'.arguments

theorem Frame.Alike.mono {w w' : Correspondence} {f f' : Frame} (hw : w ≤ w') (h : f.Alike w f') :
    f.Alike w' f' := ⟨h.callSite, h.tree, h.arguments.mono hw⟩

/-- The same calls, up to handles. -/
abbrev StackAlike (w : Correspondence) (s s' : List Frame) : Prop := List.Forall₂ (Frame.Alike w) s s'

namespace StackAlike

variable {w w' : Correspondence} {s s' : List Frame}

theorem mono (hw : w ≤ w') (h : StackAlike w s s') : StackAlike w' s s' :=
  List.Forall₂.imp (fun _ _ hf => hf.mono hw) h

theorem callSites (h : StackAlike w s s') : s.map Frame.callSite = s'.map Frame.callSite := by
  induction h with
  | nil => rfl
  | cons hf _ ih => simp [hf.callSite, ih]

theorem any_tree (h : StackAlike w s s') (tree : TreeId) :
    (s.any fun frame => frame.tree = tree) = s'.any fun frame => frame.tree = tree := by
  induction h with
  | nil => rfl
  | cons hf _ ih => simp [hf.tree, ih]

/-- The innermost call of a tree is in the same place. -/
theorem innermostCall? (h : StackAlike w s s') (tree : TreeId) :
    Option.Rel (fun found found' => StackAlike w found.1 found'.1 ∧
        Frame.Alike w found.2.1 found'.2.1 ∧ StackAlike w found.2.2 found'.2.2)
      (Walk.innermostCall? tree s) (Walk.innermostCall? tree s') := by
  induction h with
  | nil => exact .none
  | @cons f f' rest rest' hf hs ih =>
    by_cases ht : f'.tree = tree
    · simp only [Walk.innermostCall?, hf.tree, if_pos ht]
      exact .some ⟨.nil, hf, hs⟩
    · simp only [Walk.innermostCall?, hf.tree, if_neg ht]
      generalize Walk.innermostCall? tree rest = found at ih ⊢
      generalize Walk.innermostCall? tree rest' = found' at ih ⊢
      cases ih with
      | none => exact .none
      | some call => exact .some ⟨.cons hf call.1, call.2⟩

end StackAlike

namespace WalkState

variable {b b' : Recording}

/-- The handles of two walks that stand for each other. -/
abbrev since (b b' : Recording) (σ σ' : WalkState) : Correspondence :=
  Recording.since b b' σ.recording σ'.recording

/-- The same state up to handles. What is reported shows no handle, and so is equal. -/
structure Alike (b b' : Recording) (σ σ' : WalkState) : Prop where
  recording : Grown b b' σ.recording σ'.recording
  outputs : σ.cache.outputs.Alike (since b b' σ σ') σ'.cache.outputs
  subNodes : σ.cache.subNodes.Alike (since b b' σ σ') σ'.cache.subNodes
  stack : StackAlike (since b b' σ σ') σ.stack σ'.stack
  active : σ.active = σ'.active
  log : σ.log = σ'.log
  quiet : ∀ notice ∈ σ.log, ¬ notice.ShowsHandle

namespace Alike

variable {σ σ' : WalkState}

theorem start (b b' : Recording) : Alike b b' (.start b) (.start b') :=
  ⟨.start, .nil, .nil, .nil, rfl, rfl, by simp [WalkState.start]⟩

theorem scope_eq (h : Alike b b' σ σ') : σ.scope = σ'.scope := h.stack.callSites

/-- More was recorded on both sides. -/
theorem recorded (h : Alike b b' σ σ') {r r' : Recording} (hr : Grown b b' r r')
    (he : σ.recording.Extends r) (he' : σ'.recording.Extends r') :
    Alike b b' { σ with recording := r } { σ' with recording := r' } := by
  have hw := Recording.since_mono b b' he he'
  exact ⟨hr, h.outputs.mono hw, h.subNodes.mono hw, h.stack.mono hw, h.active, h.log, h.quiet⟩

theorem noting (h : Alike b b' σ σ') (notice : Notice) (hn : ¬ notice.ShowsHandle) :
    Alike b b' (σ.noting notice) (σ'.noting notice) := by
  refine ⟨h.recording, h.outputs, h.subNodes, h.stack, h.active, ?_, fun other ho => ?_⟩
  · simp [WalkState.noting, h.log]
  · rcases Array.mem_push.1 ho with ho | rfl
    · exact h.quiet other ho
    · exact hn

theorem withStack (h : Alike b b' σ σ') {s s' : List Frame}
    (hs : StackAlike (since b b' σ σ') s s') :
    Alike b b' { σ with stack := s } { σ' with stack := s' } :=
  ⟨h.recording, h.outputs, h.subNodes, hs, h.active, h.log, h.quiet⟩

theorem leaving (g : HostGraph) (h : Alike b b' σ σ') : Alike b b' (σ.leaving g) (σ'.leaving g) := by
  obtain ⟨recording, cache, stack, active, log⟩ := σ
  obtain ⟨recording', cache', stack', active', log'⟩ := σ'
  have hs := h.stack
  dsimp only at hs
  cases hs with
  | nil => exact h
  | @cons f f' rest rest' hf hrest =>
    have hn : (Notice.leavingGroup (g.label f.callSite) f.arguments.size) =
        .leavingGroup (g.label f'.callSite) f'.arguments.size := by
      rw [hf.callSite, hf.arguments.size_eq]
    simp only [WalkState.leaving, hn]
    exact (h.withStack hrest).noting _ id

end Alike

end WalkState

/-! ## Runs -/

namespace Walk

variable {b b' : Recording} {α β : Type}

/-- Two runs end alike: with results that `P` relates or with one failure, and in alike states. -/
inductive EndsAlike (b b' : Recording) (P : Correspondence → α → β → Prop) (w : Correspondence) :
    Except Failure α × WalkState → Except Failure β × WalkState → Prop
  | ok {x : α} {y : β} {σ σ' : WalkState} (hw : w ≤ σ.since b b' σ') (state : σ.Alike b b' σ')
      (result : P (σ.since b b' σ') x y) : EndsAlike b b' P w (.ok x, σ) (.ok y, σ')
  | error {failure : Failure} {σ σ' : WalkState} (hw : w ≤ σ.since b b' σ')
      (state : σ.Alike b b' σ') : EndsAlike b b' P w (.error failure, σ) (.error failure, σ')

/-- From alike states the walks end alike, with values that agree. -/
def Lockstep (b b' : Recording) (walk walk' : Walk Value) : Prop :=
  ∀ σ σ' : WalkState, σ.Alike b b' σ' →
    EndsAlike b b' Correspondence.Answer (σ.since b b' σ') (on walk σ) (on walk' σ')

theorem EndsAlike.mono {P : Correspondence → α → β → Prop} {w w' : Correspondence}
    {e : Except Failure α × WalkState} {e' : Except Failure β × WalkState} (hw : w ≤ w')
    (h : EndsAlike b b' P w' e e') : EndsAlike b b' P w e e' := by
  cases h with
  | ok hw' state result => exact .ok (hw.trans hw') state result
  | error hw' state => exact .error (hw.trans hw') state

theorem EndsAlike.leaving {P : Correspondence → α → β → Prop} {w : Correspondence}
    {e : Except Failure α × WalkState} {e' : Except Failure β × WalkState} (g : HostGraph)
    (h : EndsAlike b b' P w e e') : EndsAlike b b' P w (e.1, e.2.leaving g) (e'.1, e'.2.leaving g) := by
  have same : ∀ σ σ' : WalkState, (σ.leaving g).since b b' (σ'.leaving g) = σ.since b b' σ' := by
    simp [WalkState.since]
  cases h with
  | ok hw state result => exact .ok (by rwa [same]) (state.leaving g) (by rwa [same])
  | error hw state => exact .error (by rwa [same]) (state.leaving g)

variable {g : HostGraph} {visit visit' : NodeId → String → Walk Value}

theorem carryOut_lockstep (hf : b.failing = b'.failing)
    (hv : ∀ node output, Lockstep b b' (visit node output) (visit' node output))
    {asks : NodeId → String → Prop} {P : Correspondence → α → β → Prop} {w : Correspondence}
    {p : Plan α} {q : Plan β} (h : Plan.Alike asks True P w p q) {σ σ' : WalkState}
    (hw : w = σ.since b b' σ') (state : σ.Alike b b' σ') :
    EndsAlike b b' P w (on (carryOut g visit p) σ) (on (carryOut g visit' q) σ') := by
  induction h generalizing σ σ' with
  | done h => subst hw; exact .ok le_rfl state h
  | fail => subst hw; exact .error le_rfl state
  | @visit w node output next next' _ _ ih =>
    subst hw
    have first := hv node output σ σ' state
    simp only [carryOut, on_bind]
    generalize on (visit node output) σ = run at first ⊢
    generalize on (visit' node output) σ' = run' at first ⊢
    cases first with
    | error hw state => exact .error hw state
    | ok hw state result => exact (ih _ hw _ _ result rfl state).mono hw
  | @create w kind ps qs next next' params _ ih =>
    subst hw
    have he := σ.recording.create_extends kind ps
    have he' := σ'.recording.create_extends kind qs
    have hw := Recording.since_mono b b' he he'
    exact (ih _ hw _ _ (state.recording.created kind ps qs) rfl
      (state.recorded (.create state.recording params) he he')).mono hw
  | @image w descriptor next next' _ ih =>
    subst hw
    have he := σ.recording.materialize_extends descriptor
    have he' := σ'.recording.materialize_extends descriptor
    have hw := Recording.since_mono b b' he he'
    exact (ih _ hw _ _ (state.recording.materialized hf descriptor) rfl
      (state.recorded (.materialize state.recording descriptor) he he')).mono hw
  | report hn _ ih => subst hw; exact ih rfl (state.noting _ hn)
  | @known w node output subNode next next' _ _ ih =>
    subst hw
    have key : (⟨node, output, σ.scope, g.material⟩ : Key) = ⟨node, output, σ'.scope, g.material⟩ := by
      rw [state.scope_eq]
    have found := state.subNodes.get? (⟨node, output, σ.scope, g.material⟩, subNode)
    simp only [carryOut, on_bind, on_key, on_get, Cache.subNode?]
    rw [← key]
    exact ih _ le_rfl _ _ found rfl state
  | @remember w node output subNode a a' next next' _ value _ ih =>
    subst hw
    simp only [carryOut, on_bind, on_key, on_modify]
    rw [state.scope_eq]
    exact ih rfl ⟨state.recording, state.outputs, state.subNodes.put _ value, state.stack,
      state.active, state.log, state.quiet⟩

theorem call_lockstep (hv : ∀ node output, Lockstep b b' (visit node output) (visit' node output))
    (callSite : NodeId) (output : String) :
    Lockstep b b' (call g visit callSite output) (call g visit' callSite output) := by
  intro σ σ' state
  rw [on_call, on_call]
  cases g.groupTree callSite with
  | none => exact .error le_rfl state
  | some tree =>
    dsimp only
    rw [state.stack.any_tree, state.stack.length_eq]
    split
    · exact .error le_rfl state
    have entered := state.noting (.enteringGroup (g.label callSite) (σ'.stack.length + 1)) id
    cases g.groupOutput tree with
    | none => exact .error le_rfl entered
    | some groupOutput =>
      have inside := hv groupOutput output _ _ (entered.withStack
        (.cons (⟨rfl, rfl, .empty⟩ : Frame.Alike _ ⟨callSite, tree, .empty⟩ ⟨callSite, tree, .empty⟩)
          entered.stack))
      dsimp only
      generalize on (visit groupOutput output) _ = run at inside ⊢
      generalize on (visit' groupOutput output) _ = run' at inside ⊢
      exact inside.leaving g

theorem formal_lockstep (hf : b.failing = b'.failing)
    (hv : ∀ node output, Lockstep b b' (visit node output) (visit' node output))
    (groupInput : NodeId) (name : String) :
    Lockstep b b' (formal g visit groupInput name) (formal g visit' groupInput name) := by
  intro σ σ' state
  rw [on_formal, on_formal]
  have found := state.stack.innermostCall? groupInput.tree
  generalize innermostCall? groupInput.tree σ.stack = call at found ⊢
  generalize innermostCall? groupInput.tree σ'.stack = call' at found ⊢
  cases found with
  | none => exact .error le_rfl state
  | @some call call' found =>
    obtain ⟨inside, frame, around⟩ := call
    obtain ⟨inside', frame', around'⟩ := call'
    obtain ⟨hi, hframe, ha⟩ := found
    dsimp only at hi hframe ha ⊢
    have known := hframe.arguments.get? name
    generalize frame.arguments.get? name = argument at known ⊢
    generalize frame'.arguments.get? name = argument' at known ⊢
    cases known with
    | some value => exact .ok le_rfl state value
    | none =>
      have plan : ∀ w, Plan.Agree (g.Feeds frame.callSite) True w (argument g frame.callSite name)
          (argument g frame.callSite name) := fun w => argument_alike name
      have outside := carryOut_lockstep (g := g) hf hv (plan _) rfl (state.withStack ha)
      rw [← hframe.callSite]
      generalize on (carryOut g visit _) _ = run at outside ⊢
      generalize on (carryOut g visit' _) _ = run' at outside ⊢
      cases outside with
      | error hw after =>
        exact .error hw (after.withStack
          (List.rel_append (hi.mono hw) (.cons (hframe.mono hw) after.stack)))
      | ok hw after result =>
        have value := result.or (.ofLanes? (g.outputDefault groupInput name))
        refine .ok hw (after.withStack (List.rel_append (hi.mono hw) (.cons ?_ after.stack))) value
        exact ⟨rfl, hframe.tree, (hframe.arguments.mono hw).put name value⟩

theorem expand_lockstep (s : Setting) (hf : b.failing = b'.failing)
    (hv : ∀ node output, Lockstep b b' (visit node output) (visit' node output))
    (node : NodeId) (output : String) :
    Lockstep b b' (expand s visit node output) (expand s visit' node output) := by
  intro σ σ' state
  rw [on_expand, on_expand]
  cases hb : bypass? s.graph node with
  | some plan => exact carryOut_lockstep hf hv (bypass?_alike hb) rfl state
  | none =>
    have entered := state.noting (.visiting (s.graph.kind node) (s.graph.label node) output) id
    dsimp only
    cases ht : s.table.task s.graph node output with
    | plan plan => exact carryOut_lockstep hf hv (task_alike ht) rfl entered
    | call => exact call_lockstep hv node output _ _ entered
    | formal => exact formal_lockstep hf hv node output _ _ entered

theorem step_lockstep (s : Setting) (hf : b.failing = b'.failing)
    (hv : ∀ node output, Lockstep b b' (visit node output) (visit' node output))
    (node : NodeId) (output : String) :
    Lockstep b b' (step s visit node output) (step s visit' node output) := by
  intro σ σ' state
  rw [on_step, on_step]
  rw [state.scope_eq, state.active]
  generalize (⟨node, output, σ'.scope, s.graph.material⟩ : Key) = key
  have known := state.outputs.get? key
  dsimp only
  simp only [Cache.get?]
  generalize σ.cache.outputs.get? key = value at known ⊢
  generalize σ'.cache.outputs.get? key = value' at known ⊢
  cases known with
  | some value => exact .ok le_rfl state value
  | none =>
    dsimp only
    split
    · exact .error le_rfl state
    have entered : WalkState.Alike b b' { σ with active := key :: σ'.active }
        { σ' with active := key :: σ'.active } :=
      ⟨state.recording, state.outputs, state.subNodes, state.stack, rfl, state.log, state.quiet⟩
    have inner := expand_lockstep s hf hv node output _ _ entered
    generalize on (expand s visit node output) _ = run at inner ⊢
    generalize on (expand s visit' node output) _ = run' at inner ⊢
    cases inner with
    | error hw after =>
      exact .error hw ⟨after.recording, after.outputs, after.subNodes, after.stack,
        congrArg (·.erase key) after.active, after.log, after.quiet⟩
    | ok hw after result =>
      exact .ok hw ⟨after.recording, after.outputs.put key result, after.subNodes, after.stack,
        congrArg (·.erase key) after.active, after.log, after.quiet⟩ result

theorem lower_lockstep (s : Setting) (hf : b.failing = b'.failing) (depth : Nat) (node : NodeId)
    (output : String) : Lockstep b b' (lower s depth node output) (lower s depth node output) := by
  induction depth generalizing node output with
  | zero => exact fun _ _ state => .error le_rfl state
  | succ depth ih => exact step_lockstep s hf ih node output

/-- The roots that a material comes to were created at the same time. -/
theorem root_lockstep (s : Setting) (hf : b.failing = b'.failing) :
    EndsAlike b b' Correspondence.node (Recording.since b b' b b') (on (root s) (.start b))
      (on (root s) (.start b')) := by
  unfold root
  dsimp only
  cases s.graph.outputNode with
  | none => exact .error le_rfl (.start b b')
  | some node =>
    have surface := lower_lockstep s hf s.depth node surface _ _ (.start b b')
    simp only [on_bind, Walk.output]
    generalize on (lower s s.depth node Walk.surface) (.start b) = run at surface ⊢
    generalize on (lower s s.depth node Walk.surface) (.start b') = run' at surface ⊢
    cases surface with
    | error hw state => exact .error hw state
    | ok hw state result =>
      cases result with
      | node h => exact .ok hw state h
      | constant => exact .error hw state
      | unset => exact .error hw state

end Walk

end MaterialLowering
