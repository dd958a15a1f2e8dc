import Mathlib.Data.List.Forall2
import MaterialLowering.Proofs.Walks.Runs

/-!
# What a walk leaves as it was

A walk adds to the recording, to the cache and to the arguments that frames remember. It takes
nothing away, and when it ends, with a value or a failure, the calls on the stack and the outputs
that are being lowered are those that it began with.

Results:
* `Walk.lower_evolves`: lowering an output.
* `Walk.carryOut_evolves`, `Walk.formal_evolves`: carrying out a plan and reading a formal input,
  where the outputs that are asked for are found by computations that do the same.
-/

namespace MaterialLowering

/-! ## Memo tables -/

namespace Memo

variable {κ α : Type} [DecidableEq κ]

theorem get?_eq_none {m : Memo κ α} {key : κ} :
    m.get? key = none ↔ ∀ entry ∈ m.entries, entry.1 ≠ key := by
  obtain ⟨entries⟩ := m
  show find? key entries = none ↔ _
  induction entries with
  | nil => simp [find?]
  | cons entry rest ih =>
    by_cases h : entry.1 = key
    · simp [find?, h]
    · simp [find?, h, ih]

theorem mem_entries_of_get? {m : Memo κ α} {key : κ} {value : α} (h : m.get? key = some value) :
    (key, value) ∈ m.entries := by
  obtain ⟨entries⟩ := m
  change find? key entries = some value at h
  induction entries with
  | nil => simp [find?] at h
  | cons entry rest ih =>
    by_cases hk : entry.1 = key
    · simp only [find?, hk, if_true, Option.some.injEq] at h
      exact List.mem_cons.2 (.inl (Prod.ext hk.symm h.symm))
    · simp only [find?, hk, if_false] at h
      exact List.mem_cons_of_mem _ (ih h)

/-- Keys are all different. -/
def Distinct (m : Memo κ α) : Prop := (m.entries.map Prod.fst).Nodup

theorem Distinct.put {m : Memo κ α} (h : m.Distinct) (key : κ) (value : α) :
    (m.put key value).Distinct := by
  refine List.nodup_cons.2 ⟨fun hm => ?_, h.sublist (List.filter_sublist.map _)⟩
  obtain ⟨entry, he, same⟩ := List.mem_map.1 hm
  simpa [same] using (List.mem_filter.1 he).2

theorem get?_of_mem {m : Memo κ α} (h : m.Distinct) {key : κ} {value : α}
    (hm : (key, value) ∈ m.entries) : m.get? key = some value := by
  obtain ⟨entries⟩ := m
  show find? key entries = some value
  induction entries with
  | nil => cases hm
  | cons entry rest ih =>
    obtain ⟨apart, distinct⟩ := List.nodup_cons.1 h
    rcases List.mem_cons.1 hm with rfl | hm
    · simp [find?]
    · have other : entry.1 ≠ key := fun same => apart (same ▸ List.mem_map_of_mem hm)
      simpa [find?, other] using ih distinct hm

/-- A new key is put in front of the others. -/
theorem entries_put_of_get?_eq_none {m : Memo κ α} {key : κ} (value : α) (h : m.get? key = none) :
    (m.put key value).entries = (key, value) :: m.entries := by
  have : m.entries.filter (·.1 ≠ key) = m.entries :=
    List.filter_eq_self.2 fun entry he => by simpa using get?_eq_none.1 h entry he
  rw [put, this]

end Memo

/-! ## Recordings -/

theorem prefix_getElem? {α : Type} {l l' : List α} (h : l <+: l') {n : Nat} {a : α}
    (hn : l[n]? = some a) : l'[n]? = some a := by
  obtain ⟨hlt, hget⟩ := List.getElem?_eq_some_iff.1 hn
  rw [List.prefix_iff_getElem?.1 h n hlt, hget]

/-- Nodes and images were added, and nothing else was changed. -/
structure Recording.Extends (r r' : Recording) : Prop where
  nodes : r.nodes.toList <+: r'.nodes.toList
  images : r.images <+: r'.images
  roots : r'.roots = r.roots
  failing : r'.failing = r.failing

namespace Recording.Extends

variable {r r' r'' : Recording}

theorem refl (r : Recording) : r.Extends r := ⟨List.prefix_rfl, List.prefix_rfl, rfl, rfl⟩

theorem trans (h : r.Extends r') (h' : r'.Extends r'') : r.Extends r'' :=
  ⟨h.nodes.trans h'.nodes, h.images.trans h'.images, h'.roots.trans h.roots,
    h'.failing.trans h.failing⟩

theorem size_le (h : r.Extends r') : r.nodes.size ≤ r'.nodes.size := by
  simpa using h.nodes.length_le

theorem getElem?_nodes (h : r.Extends r') {n : Nat} (hn : n < r.nodes.size) :
    r'.nodes[n]? = r.nodes[n]? := by
  have old : r.nodes.toList[n]? = some r.nodes[n] := by simp [hn]
  rw [← Array.getElem?_toList, prefix_getElem? h.nodes old]
  simp [hn]

theorem getElem?_images (h : r.Extends r') {i : Nat} {descriptor : ImageDescriptor}
    (hi : r.images[i]? = some descriptor) : r'.images[i]? = some descriptor :=
  prefix_getElem? h.images hi

end Recording.Extends

theorem Recording.create_extends (r : Recording) (kind : NativeKind) (params : List (String × Value)) :
    r.Extends (r.create kind params).2 := by
  refine ⟨?_, List.prefix_rfl, rfl, rfl⟩
  simp [Recording.create]

theorem Recording.materialize_extends (r : Recording) (descriptor : ImageDescriptor) :
    r.Extends (r.materialize descriptor).2 := by
  unfold materialize
  split
  · exact .refl r
  · dsimp only
    split
    · exact .refl r
    · exact ⟨List.prefix_rfl, List.prefix_append _ _, rfl, rfl⟩

@[simp] theorem Recording.materialize_nodes (r : Recording) (descriptor : ImageDescriptor) :
    (r.materialize descriptor).2.nodes = r.nodes := by
  unfold materialize
  split
  · rfl
  · dsimp only; split <;> rfl

theorem Recording.materialize_failing {r : Recording} {descriptor : ImageDescriptor}
    (h : r.failing.contains descriptor.name = true) :
    r.materialize descriptor = (.error (.notFound descriptor.name), r) := by
  rw [materialize, if_pos h]

/-- An image that can be loaded is in the place of its descriptor. -/
theorem Recording.materialize_loaded {r : Recording} {descriptor : ImageDescriptor}
    (h : r.failing.contains descriptor.name = false) :
    (r.materialize descriptor).1 = .ok ⟨r.images.idxOf descriptor⟩ ∧
      descriptor ∈ (r.materialize descriptor).2.images ∧
      (r.materialize descriptor).2.images.idxOf descriptor = r.images.idxOf descriptor := by
  unfold materialize
  by_cases hm : r.images.idxOf descriptor < r.images.length
  · simpa [h, hm] using List.idxOf_lt_length_iff.1 hm
  · have hm' : descriptor ∉ r.images := fun h => hm (List.idxOf_lt_length_iff.2 h)
    have hlen : r.images.length = r.images.idxOf descriptor := (List.idxOf_of_notMem hm').symm
    simp [h, List.idxOf_append_of_notMem hm', hlen]

/-! ## Frames and states -/

/-- The same call, which remembers at least the same arguments. -/
structure Frame.Extends (f f' : Frame) : Prop where
  callSite : f'.callSite = f.callSite
  tree : f'.tree = f.tree
  arguments : ∀ formal value, f.arguments.get? formal = some value →
    f'.arguments.get? formal = some value

theorem Frame.Extends.refl (f : Frame) : f.Extends f := ⟨rfl, rfl, fun _ _ h => h⟩

theorem Frame.Extends.trans {f f' f'' : Frame} (h : f.Extends f') (h' : f'.Extends f'') :
    f.Extends f'' :=
  ⟨h'.callSite.trans h.callSite, h'.tree.trans h.tree,
    fun formal value hf => h'.arguments formal value (h.arguments formal value hf)⟩

/-- The calls on two stacks are the same, and the later one remembers at least the same arguments. -/
abbrev StackExtends (s s' : List Frame) : Prop := List.Forall₂ Frame.Extends s s'

theorem StackExtends.refl (s : List Frame) : StackExtends s s := List.forall₂_same.2 fun f _ => .refl f

theorem StackExtends.trans {s s' s'' : List Frame} (h : StackExtends s s')
    (h' : StackExtends s' s'') : StackExtends s s'' := by
  induction h generalizing s'' with
  | nil => exact h'
  | cons hf _ ih =>
    cases h' with
    | cons hf' hs' => exact .cons (hf.trans hf') (ih hs')

theorem StackExtends.tail {s s' : List Frame} (h : StackExtends s s') :
    StackExtends s.tail s'.tail := by
  cases h with
  | nil => exact .nil
  | cons _ hs => exact hs

theorem StackExtends.callSites {s s' : List Frame} (h : StackExtends s s') :
    s'.map Frame.callSite = s.map Frame.callSite := by
  induction h with
  | nil => rfl
  | cons hf _ ih => simp [hf.callSite, ih]

namespace WalkState

/-- What a walk does to the state: it adds to the recording, to the arguments of frames and to the
    cache. Outputs that are being lowered are not added to the cache meanwhile. -/
structure Evolves (σ σ' : WalkState) : Prop where
  recording : σ.recording.Extends σ'.recording
  active : σ'.active = σ.active
  stack : StackExtends σ.stack σ'.stack
  cache : ∃ found, σ'.cache.outputs.entries = found ++ σ.cache.outputs.entries ∧
    ∀ entry ∈ found, entry.1 ∉ σ.active

namespace Evolves

variable {σ σ' σ'' : WalkState}

theorem refl (σ : WalkState) : σ.Evolves σ := ⟨.refl _, rfl, .refl _, [], rfl, by simp⟩

theorem trans (h : σ.Evolves σ') (h' : σ'.Evolves σ'') : σ.Evolves σ'' := by
  obtain ⟨found, hf, ha⟩ := h.cache
  obtain ⟨found', hf', ha'⟩ := h'.cache
  refine ⟨h.recording.trans h'.recording, h'.active.trans h.active, h.stack.trans h'.stack,
    found' ++ found, by rw [hf', hf, List.append_assoc], fun entry he => ?_⟩
  rcases List.mem_append.1 he with he | he
  · exact h.active ▸ ha' entry he
  · exact ha entry he

theorem scope_eq (h : σ.Evolves σ') : σ'.scope = σ.scope := h.stack.callSites

theorem stack_eq_nil (h : σ.Evolves σ') (hs : σ.stack = []) : σ'.stack = [] := by
  have stack := h.stack
  rw [hs] at stack
  exact List.forall₂_nil_left_iff.1 stack

theorem cache_subset (h : σ.Evolves σ') : σ.cache.outputs.entries ⊆ σ'.cache.outputs.entries := by
  obtain ⟨found, hf, -⟩ := h.cache
  rw [hf]
  exact List.subset_append_right _ _

/-- What was added to the recording alone. -/
theorem of_recording {r : Recording} (h : σ.recording.Extends r) :
    σ.Evolves { σ with recording := r } := ⟨h, rfl, .refl _, [], rfl, by simp⟩

theorem noting (σ : WalkState) (notice : Notice) : σ.Evolves (σ.noting notice) :=
  ⟨.refl _, rfl, .refl _, [], rfl, by simp⟩

/-- What was kept of sub-nodes alone. -/
theorem of_putSubNode (σ : WalkState) (key : Key) (name : String) (value : Value) :
    σ.Evolves { σ with cache := σ.cache.putSubNode key name value } :=
  ⟨.refl _, rfl, .refl _, [], rfl, by simp⟩

end Evolves

end WalkState

/-! ## Stocks -/

/-- What a walk has so far: what is recorded, and the outputs that are known. -/
structure Stock where
  recording : Recording
  outputs : List (Key × Value)

/-- There is at least as much in the second stock. -/
structure Stock.Within (stock stock' : Stock) : Prop where
  recording : stock.recording.Extends stock'.recording
  outputs : stock.outputs ⊆ stock'.outputs

namespace Stock.Within

variable {stock stock' stock'' : Stock}

theorem refl (stock : Stock) : stock.Within stock := ⟨.refl _, List.Subset.refl _⟩

theorem trans (h : stock.Within stock') (h' : stock'.Within stock'') : stock.Within stock'' :=
  ⟨h.recording.trans h'.recording, List.Subset.trans h.outputs h'.outputs⟩

/-- More in the recording alone. -/
theorem of_recording {r r' : Recording} (outputs : List (Key × Value)) (h : r.Extends r') :
    Stock.Within ⟨r, outputs⟩ ⟨r', outputs⟩ := ⟨h, List.Subset.refl _⟩

end Stock.Within

/-- What there is in a state. -/
def WalkState.stock (σ : WalkState) : Stock := ⟨σ.recording, σ.cache.outputs.entries⟩

@[simp] theorem WalkState.leaving_stock (g : HostGraph) (σ : WalkState) :
    (σ.leaving g).stock = σ.stock := by
  rw [stock, leaving_recording, leaving_cache]
  rfl

theorem WalkState.Evolves.stock {σ σ' : WalkState} (h : σ.Evolves σ') : σ.stock.Within σ'.stock :=
  ⟨h.recording, h.cache_subset⟩

/-! ## Computations -/

namespace Walk

variable {α β : Type}

/-- The computation evolves every state. -/
def Steady (walk : Walk α) : Prop := ∀ σ : WalkState, σ.Evolves (on walk σ).2

theorem Steady.pure (a : α) : Steady (pure a : Walk α) := fun σ => .refl σ

theorem Steady.throw (failure : Failure) : Steady (throw failure : Walk α) := fun σ => .refl σ

theorem Steady.bind {walk : Walk α} {next : α → Walk β} (h : Steady walk)
    (hn : ∀ a, Steady (next a)) : Steady (walk >>= next) := by
  intro σ
  have first := h σ
  rw [on_bind]
  rcases hw : on walk σ with ⟨_ | a, σ'⟩ <;> rw [hw] at first
  · exact first
  · exact first.trans (hn a σ')

theorem steady_say (notice : Notice) : Steady (say notice) := fun σ => .noting σ notice

/-! ## Plans -/

variable {g : HostGraph} {visit : NodeId → String → Walk Value}

theorem carryOut_evolves (hv : ∀ node output, Steady (visit node output)) (plan : Plan α) :
    Steady (carryOut g visit plan) := by
  induction plan with
  | done result => exact .pure result
  | fail failure => exact .throw failure
  | visit node output next ih => exact (hv node output).bind ih
  | create kind params next ih =>
    exact fun σ => (WalkState.Evolves.of_recording (σ.recording.create_extends kind params)).trans
      (ih _ _)
  | image descriptor next ih =>
    exact fun σ => (WalkState.Evolves.of_recording (σ.recording.materialize_extends descriptor)).trans
      (ih _ _)
  | report notice next ih => exact (steady_say notice).bind fun _ => ih
  | known node output subNode next ih => exact fun σ => ih _ σ
  | remember node output subNode value next ih =>
    exact fun σ => (WalkState.Evolves.of_putSubNode σ _ subNode value).trans (ih _)

/-! ## Groups -/

theorem call_evolves (hv : ∀ node output, Steady (visit node output)) (callSite : NodeId)
    (output : String) : Steady (call g visit callSite output) := by
  intro σ
  rw [on_call]
  cases g.groupTree callSite with
  | none => exact .refl σ
  | some tree =>
    dsimp only
    split
    · exact .refl σ
    cases g.groupOutput tree with
    | none => exact .noting σ _
    | some groupOutput =>
      have inside := hv groupOutput output
        { σ.noting (.enteringGroup (g.label callSite) (σ.stack.length + 1)) with
          stack := ⟨callSite, tree, .empty⟩ :: σ.stack }
      refine ⟨?_, ?_, ?_, ?_⟩
      · simpa using inside.recording
      · simpa using inside.active
      · simpa using inside.stack.tail
      · simpa using inside.cache

/-- The innermost call of all is the innermost one of its own tree. -/
theorem innermostCall?_cons_self {tree : TreeId} {frame : Frame} (around : List Frame)
    (h : frame.tree = tree) : innermostCall? tree (frame :: around) = some ([], frame, around) :=
  if_pos h

/-- The frames of the innermost call of a tree. -/
theorem innermostCall?_spec {tree : TreeId} {stack inside around : List Frame} {frame : Frame}
    (h : innermostCall? tree stack = some (inside, frame, around)) :
    stack = inside ++ frame :: around ∧ frame.tree = tree ∧ ∀ other ∈ inside, other.tree ≠ tree := by
  induction stack generalizing inside with
  | nil => simp [innermostCall?] at h
  | cons first rest ih =>
    by_cases ht : first.tree = tree
    · obtain ⟨rfl, rfl, rfl⟩ : [] = inside ∧ first = frame ∧ rest = around := by
        simpa [innermostCall?, ht] using h
      exact ⟨rfl, ht, by simp⟩
    · simp only [innermostCall?, if_neg ht, Option.map_eq_some_iff] at h
      obtain ⟨⟨inside', frame', around'⟩, found, heq⟩ := h
      obtain ⟨rfl, rfl, rfl⟩ : first :: inside' = inside ∧ frame' = frame ∧ around' = around := by
        simpa using heq
      obtain ⟨hrest, hframe, hinside⟩ := ih found
      refine ⟨by rw [hrest]; rfl, hframe, fun other ho => ?_⟩
      rcases List.mem_cons.1 ho with rfl | ho
      · exact ht
      · exact hinside other ho

theorem formal_evolves (hv : ∀ node output, Steady (visit node output)) (groupInput : NodeId)
    (name : String) : Steady (formal g visit groupInput name) := by
  intro σ
  rw [on_formal]
  rcases hc : innermostCall? groupInput.tree σ.stack with _ | ⟨inside, frame, around⟩
  · exact .refl σ
  obtain ⟨hstack, -, -⟩ := innermostCall?_spec hc
  dsimp only
  cases hf : frame.arguments.get? name with
  | some value => exact .refl σ
  | none =>
    have outside := carryOut_evolves (g := g) hv (argument g frame.callSite name)
      { σ with stack := around }
    generalize on (carryOut g visit (argument g frame.callSite name)) { σ with stack := around } = run
      at outside ⊢
    rcases run with ⟨_ | found, σ'⟩
    · refine ⟨outside.recording, outside.active, ?_, outside.cache⟩
      rw [hstack]
      exact List.rel_append (StackExtends.refl inside) (.cons (.refl frame) outside.stack)
    · refine ⟨outside.recording, outside.active, ?_, outside.cache⟩
      rw [hstack]
      refine List.rel_append (StackExtends.refl inside) (.cons ⟨rfl, rfl, ?_⟩ outside.stack)
      intro other value ho
      have hne : name ≠ other := by rintro rfl; simp [hf] at ho
      simpa [Memo.get?_put, hne] using ho

/-! ## Outputs -/

theorem expand_evolves (s : Setting) (hv : ∀ node output, Steady (visit node output))
    (node : NodeId) (output : String) : Steady (expand s visit node output) := by
  intro σ
  rw [on_expand]
  cases bypass? s.graph node with
  | some plan => exact carryOut_evolves hv plan σ
  | none =>
    dsimp only
    refine (WalkState.Evolves.noting σ (.visiting (s.graph.kind node) (s.graph.label node)
      output)).trans ?_
    cases s.table.task s.graph node output with
    | plan plan => exact carryOut_evolves hv plan _
    | call => exact call_evolves hv node output _
    | formal => exact formal_evolves hv node output _

theorem step_evolves (s : Setting) (hv : ∀ node output, Steady (visit node output)) (node : NodeId)
    (output : String) : Steady (step s visit node output) := by
  intro σ
  rw [on_step]
  generalize hkey : (⟨node, output, σ.scope, s.graph.material⟩ : Key) = key
  dsimp only
  cases hc : σ.cache.get? key with
  | some value => exact .refl σ
  | none =>
    dsimp only
    split
    · exact .refl σ
    rename_i fresh
    have inner := expand_evolves s hv node output { σ with active := key :: σ.active }
    generalize on (expand s visit node output) { σ with active := key :: σ.active } = run
      at inner ⊢
    obtain ⟨result, σ'⟩ := run
    have active : σ'.active = key :: σ.active := inner.active
    obtain ⟨found, (hf : σ'.cache.outputs.entries = found ++ σ.cache.outputs.entries),
      (ha : ∀ entry ∈ found, entry.1 ∉ key :: σ.active)⟩ := inner.cache
    have others : ∀ entry ∈ found, entry.1 ∉ σ.active := fun entry he hm =>
      ha entry he (List.mem_cons_of_mem _ hm)
    cases result with
    | error failure => exact ⟨inner.recording, by simp [active], inner.stack, found, hf, others⟩
    | ok value =>
      -- The key is being lowered, so that nothing was found for it meanwhile.
      have absent : σ'.cache.get? key = none := by
        refine Memo.get?_eq_none.2 fun entry he => ?_
        rw [hf] at he
        rcases List.mem_append.1 he with he | he
        · rintro rfl
          exact ha entry he List.mem_cons_self
        · exact Memo.get?_eq_none.1 hc entry he
      refine ⟨inner.recording, by simp [active], inner.stack, (key, value) :: found, ?_, ?_⟩
      · show (σ'.cache.outputs.put key value).entries = _
        rw [Memo.entries_put_of_get?_eq_none value absent, hf]
        rfl
      · intro entry he
        rcases List.mem_cons.1 he with rfl | he
        · exact fresh
        · exact others entry he

theorem lower_evolves (s : Setting) (depth : Nat) (node : NodeId) (output : String) :
    Steady (lower s depth node output) := by
  induction depth generalizing node output with
  | zero => exact .throw _
  | succ depth ih => exact step_evolves s ih node output

end Walk

end MaterialLowering
