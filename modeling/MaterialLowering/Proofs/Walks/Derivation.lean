import MaterialLowering.Proofs.Recordings.Unfolding
import MaterialLowering.Proofs.Rules.RuleOrder
import MaterialLowering.Proofs.Walks.Reference

/-!
# Derived values

A walk remembers values. A remembered value is *derived* from others when lowering without memory
comes to it wherever it comes to those others. The cache is *grounded*: the value of every output in
it is derived from the entries before it, so that lowering without memory comes to all of them as
long as none of their keys waits for itself. All this may be about some outputs only, those that are
*fixed*: lowering without memory is then stopped at the others.

Results:
* `Derived.mono`: what is derived stays so when recordings and caches grow.
* `Grounded.answers`: lowering without memory comes to every value in the cache.
-/

namespace MaterialLowering

/-! ## Some outputs -/

/-- A computation that is stopped at once unless it is `allowed`. -/
noncomputable def Direct.only (allowed : Prop) (direct : Direct Value) : Direct Value := fun r =>
  open Classical in if allowed then direct r else (.error (.tooDeep "" ""), r)

@[simp] theorem Direct.only_pos {allowed : Prop} (h : allowed) (direct : Direct Value) :
    direct.only allowed = direct := funext fun _ => if_pos h

@[simp] theorem Direct.only_neg {allowed : Prop} (h : ¬ allowed) (direct : Direct Value)
    (r : Recording) : direct.only allowed r = (.error (.tooDeep "" ""), r) := if_neg h

namespace Reference

/-- What an output comes to, given how other outputs are found, if it is `fixed`. -/
noncomputable def expandWithin (s : Setting) (fixed : Key → Prop) (visit : Visit)
    (chain : List NodeId) (node : NodeId) (output : String) : Direct Value :=
  (expand s visit chain node output).only (fixed ⟨node, output, chain, s.graph.material⟩)

/-- As `lower`, but stopped at outputs that are not `fixed`. -/
noncomputable def lowerWithin (s : Setting) (fixed : Key → Prop) : Nat → List Key → Visit
  | 0, _, _, node, output, r => (.error (.tooDeep (s.graph.label node) output), r)
  | depth + 1, path, chain, node, output, r =>
    let key : Key := ⟨node, output, chain, s.graph.material⟩
    if key ∈ path then (.error (.cyclicGraph (s.graph.label node) output), r)
    else expandWithin s fixed (lowerWithin s fixed depth (key :: path)) chain node output r

/-- Where all outputs are fixed, nothing is stopped. -/
theorem lowerWithin_true (s : Setting) (depth : Nat) (path : List Key) :
    lowerWithin s (fun _ => True) depth path = lower s depth path := by
  induction depth generalizing path with
  | zero => rfl
  | succ depth ih =>
    funext chain node output r
    simp only [lowerWithin, expandWithin, lower, ih, Direct.only_pos trivial]

end Reference

/-! ## Agreement -/

/-- What a direct computation ended with, and what is done next with its value. -/
def Direct.andThen {α β : Type} (next : α → Direct β) :
    Except Failure α × Recording → Except Failure β × Recording
  | (.ok a, r) => next a r
  | (.error failure, r) => (.error failure, r)

theorem Plan.evaluate_visit {α : Type} (visit : NodeId → String → Direct Value) (node : NodeId)
    (output : String) (next : Value → Plan α) (r : Recording) :
    (Plan.visit node output next).evaluate visit r =
      Direct.andThen (fun value => (next value).evaluate visit) (visit node output r) := by
  rw [evaluate]
  rcases visit node output r with ⟨_ | _, _⟩ <;> rfl

/-- Inside a call, a formal comes to its argument around the call, with its default in reserve. -/
theorem Reference.formal_cons (g : HostGraph) (visit : Visit) (callSite : NodeId)
    (around : List NodeId) (groupInput : NodeId) (name : String) (r : Recording) :
    formal g visit (callSite :: around) groupInput name r =
      Direct.andThen (fun found r => (.ok (found.or (.ofLanes? (g.outputDefault groupInput name))), r))
        ((Walk.argument g callSite name).evaluate (visit around) r) := by
  rw [formal]
  rcases (Walk.argument g callSite name).evaluate (visit around) r with ⟨_ | _, _⟩ <;> rfl

/-- A direct computation that began in `q` agrees with a result in `r`: it fails in the same way or
    comes to a value that unfolds to the same tree, unless it went deeper than it was allowed to. -/
inductive Agrees {α : Type} (P : Correspondence → α → α → Prop) (r q : Recording) :
    Except Failure α → Except Failure α × Recording → Prop
  | ok {a b : α} {q' : Recording} (hq : q.Extends q') (h : P (r.unfolding q') a b) :
      Agrees P r q (.ok a) (.ok b, q')
  | error {failure : Failure} {q' : Recording} : Agrees P r q (.error failure) (.error failure, q')
  | tooDeep {result : Except Failure α} {failure : Failure} {q' : Recording}
      (h : failure.IsTooDeep) : Agrees P r q result (.error failure, q')

theorem Agrees.prepend {α : Type} {P : Correspondence → α → α → Prop} {r q q' : Recording}
    {result : Except Failure α} {run : Except Failure α × Recording} (h : Agrees P r q' result run)
    (hq : q.Extends q') : Agrees P r q result run := by
  cases h with
  | ok hq' h => exact .ok (hq.trans hq') h
  | error => exact .error
  | tooDeep h => exact .tooDeep h

section

variable {α β : Type} {P : Correspondence → α → α → Prop} {Q : Correspondence → β → β → Prop}
  {r r' q q' : Recording} {run : Except Failure α × Recording}

/-- What agrees with a failure agrees with it in any recording. -/
theorem Agrees.failed {failure : Failure} (h : Agrees P r q (.error failure) run) :
    Agrees P r' q' (.error failure) run := by
  cases h with
  | error => exact .error
  | tooDeep h => exact .tooDeep h

/-- A direct computation that agrees with a failure does not go on. -/
theorem Agrees.stays {failure : Failure} (h : Agrees P r q (.error failure) run)
    (next : α → Direct β) : Agrees Q r' q' (.error failure) (Direct.andThen next run) := by
  cases h with
  | error => exact .error
  | tooDeep h => exact .tooDeep h

/-- A direct computation that agrees with a value goes on from one that unfolds to the same tree. -/
theorem Agrees.goesOn {a : α} {next : α → Direct β} {result : Except Failure β}
    (h : Agrees P r q (.ok a) run)
    (hf : ∀ b q', q.Extends q' → P (r.unfolding q') a b → Agrees Q r' q' result (next b q')) :
    Agrees Q r' q result (Direct.andThen next run) := by
  cases h with
  | ok hq h => exact (hf _ _ hq h).prepend hq
  | tooDeep h => exact .tooDeep h

end

theorem Agrees.only {P : Correspondence → Value → Value → Prop} {r q : Recording}
    {result : Except Failure Value} {allowed : Prop} {direct : Direct Value}
    (h : allowed → Agrees P r q result (direct q)) : Agrees P r q result (direct.only allowed q) := by
  by_cases ha : allowed
  · rw [Direct.only_pos ha]
    exact h ha
  · rw [Direct.only_neg ha]
    exact .tooDeep trivial

/-- The computation comes to `v` wherever it begins. -/
def Yields (r : Recording) (v : Value) (direct : Direct Value) : Prop :=
  ∀ q : Recording, q.failing = r.failing → Agrees Correspondence.Answer r q (.ok v) (direct q)

/-- Outputs are found as the entries say. -/
def Answers (r : Recording) (entries : List (Key × Value)) (visit : Reference.Visit) : Prop :=
  ∀ e ∈ entries, Yields r e.2 (visit e.1.scope e.1.node e.1.output)

/-- The computation comes to `v` where outputs are found as the entries say. -/
structure Derived (r : Recording) (entries : List (Key × Value))
    (direct : Reference.Visit → Direct Value) (v : Value) : Prop where
  valid : r.Valid v
  yields : ∀ visit, Answers r entries visit → Yields r v (direct visit)

section

variable {r r' : Recording} {v : Value} {entries entries' : List (Key × Value)}

theorem Yields.mono {direct : Direct Value} (h : Yields r v direct) (hr : r.Extends r') :
    Yields r' v direct := by
  intro q hq
  have before := h q (hq.trans hr.failing)
  generalize direct q = run at before ⊢
  cases before with
  | ok hq h => exact .ok hq (h.mono (Recording.unfolding_mono hr (.refl _)))
  | tooDeep h => exact .tooDeep h

theorem Yields.restrict {direct : Direct Value} (h : Yields r' v direct) (hr : r.Extends r')
    (hv : r.Valid v) : Yields r v direct := by
  intro q hq
  have after := h q (hq.trans hr.failing.symm)
  generalize direct q = run at after ⊢
  cases after with
  | ok hq h => exact .ok hq (h.restrict hr hv)
  | tooDeep h => exact .tooDeep h

/-- What answers for more entries in a later recording answers for these. -/
theorem Answers.restrict {visit : Reference.Visit} (h : Answers r' entries' visit)
    (hr : r.Extends r') (he : entries ⊆ entries') (hv : ∀ e ∈ entries, r.Valid e.2) :
    Answers r entries visit :=
  fun e hm => (h e (he hm)).restrict hr (hv e hm)

theorem Recording.Valid.mono (hv : r.Valid v) (hr : r.Extends r') : r'.Valid v :=
  Correspondence.Answer.mono (Recording.unfolding_mono hr hr) hv

theorem Derived.mono {direct : Reference.Visit → Direct Value} (h : Derived r entries direct v)
    (hr : r.Extends r') (he : entries ⊆ entries') (hv : ∀ e ∈ entries, r.Valid e.2) :
    Derived r' entries' direct v :=
  ⟨Recording.Valid.mono h.valid hr, fun visit ha => (h.yields visit (ha.restrict hr he hv)).mono hr⟩

end

/-! ## Caches -/

variable {s : Setting} {fixed : Key → Prop}

/-- The value of every output that is fixed is derived from the entries before it. -/
inductive Grounded (s : Setting) (fixed : Key → Prop) (r : Recording) : List (Key × Value) → Prop
  | nil : Grounded s fixed r []
  | cons {node : NodeId} {output : String} {scope : List NodeId} {v : Value}
      {entries : List (Key × Value)} (older : Grounded s fixed r entries)
      (fresh : ∀ e ∈ entries, e.1 ≠ ⟨node, output, scope, s.graph.material⟩)
      (derived : Derived r entries (fun visit =>
        Reference.expandWithin s fixed visit scope node output) v) :
      Grounded s fixed r ((⟨node, output, scope, s.graph.material⟩, v) :: entries)

namespace Grounded

variable {r r' : Recording} {entries : List (Key × Value)}

theorem valid (h : Grounded s fixed r entries) : ∀ e ∈ entries, r.Valid e.2 := by
  induction h with
  | nil => simp
  | cons _ _ derived ih => exact List.forall_mem_cons.2 ⟨derived.valid, ih⟩

theorem mono (h : Grounded s fixed r entries) (hr : r.Extends r') : Grounded s fixed r' entries := by
  induction h with
  | nil => exact .nil
  | cons older fresh derived ih =>
    exact .cons ih fresh (derived.mono hr (List.Subset.refl _) older.valid)

/-- Without memory, every output in the cache comes to its value, unless one of them waits on the
    path. -/
theorem answers (h : Grounded s fixed r entries) (depth : Nat) (path : List Key)
    (apart : ∀ key ∈ path, ∀ e ∈ entries, e.1 ≠ key) :
    Answers r entries (Reference.lowerWithin s fixed depth path) := by
  induction h generalizing depth path with
  | nil => exact fun _ he => by cases he
  | @cons node output scope v entries older fresh derived ih =>
    have others := fun key hk => (List.forall_mem_cons.1 (apart key hk)).2
    refine List.forall_mem_cons.2 ⟨fun q hq => ?_, ih depth path others⟩
    cases depth with
    | zero => exact .tooDeep trivial
    | succ depth =>
      have unmet : (⟨node, output, scope, s.graph.material⟩ : Key) ∉ path := fun hm =>
        (List.forall_mem_cons.1 (apart _ hm)).1 rfl
      -- The new key is none of the older ones, so that it may join the path.
      have below := ih depth (⟨node, output, scope, s.graph.material⟩ :: path)
        (List.forall_mem_cons.2 ⟨fresh, others⟩)
      simp only [Reference.lowerWithin, if_neg unmet]
      exact derived.yields _ below q hq

end Grounded

end MaterialLowering
