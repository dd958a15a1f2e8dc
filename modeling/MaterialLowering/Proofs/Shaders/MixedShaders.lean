import MaterialLowering.Proofs.Arithmetic.FoldedEmitted
import MaterialLowering.Proofs.Rules.ArithmeticRules
import MaterialLowering.Proofs.Walks.Shares

/-!
# What mix shaders come to

A mix shader reads its factor and both of its branches. A branch *decides* if it is there and the other
one is not, or if both are and the factor is exactly zero or exactly one: then the mix shader comes to
the value of the branch and creates nothing. Otherwise it creates one node that blends the branches.
All of this is said of the values in the cache in the end, and so of every output of the node in every
call context in which it was reached.

Main definitions:
* `HostGraph.Mixes`: what the factor and the branches of a mix shader come to.
* `Branch.Decides`: a branch that the mix shader comes to.
* `RecordedNode.Blends`: a native node that blends two values.

Results:
* `Handler.mixShader_course`: what a mix shader does and comes to.
* `Document.mixed`: what mix shaders did, and came to, while a question was answered.
-/

namespace MaterialLowering

open Numeric (Single)

/-! ## Factors -/

/-- No number equals both zero and one. -/
theorem Numeric.Single.ne_one_of_eq_zero {x : Single} (h : x.eq .zero = true) : x.eq .one = false := by
  obtain ⟨units, one, pos⟩ : ∃ units, Single.one.toDatum = .finite false units ∧ units ≠ 0 :=
    ⟨_, rfl, by decide +kernel⟩
  have zero : Single.zero.toDatum = .finite false 0 := by decide +kernel
  unfold Single.eq at h ⊢
  rw [zero] at h
  rw [one]
  generalize x.toDatum = datum at h ⊢
  cases datum with
  | nan => rfl
  | infinite => rfl
  | finite negative m =>
    simp only [Datum.eq, Datum.signed, beq_iff_eq, beq_eq_false_iff_ne] at h ⊢
    grind

/-- No factor is both. -/
theorem Value.not_isSplat_one {factor : Value} (h : factor.isSplat .zero = true) :
    factor.isSplat .one = false := by
  cases factor with
  | constant lanes =>
    simp only [isSplat, Lanes.eq, Lanes.splat, Bool.and_eq_true] at h ⊢
    simp [Numeric.Single.ne_one_of_eq_zero h.1.1.1]
  | node | image | unset => rfl

/-! ## Inputs -/

namespace HostGraph

/-- What a socket comes to inside given calls, where outputs come to what was found: what its link leads
    from, or what `unlinked` makes of it. -/
def receives? (g : HostGraph) (found : Findings) (scope : List NodeId) (node : NodeId) (key : SocketKey)
    (unlinked : Socket → Value) : Option Value :=
  (g.input node key).bind fun socket =>
    match socket.visibleLink with
    | some link => found.inside g scope link.node link.output
    | none => some (unlinked socket)

/-- What the factor and the two branches of a mix shader come to inside given calls, where outputs come
    to what was found. -/
structure Mixes (g : HostGraph) (found : Findings) (node : NodeId) (scope : List NodeId)
    (factor first second : Value) : Prop where
  factor : g.receives? found scope node (.name "Fac") (fun socket => .ofLanes? socket.default) = some factor
  first : g.receives? found scope node (.index 1) (fun _ => .unset) = some first
  second : g.receives? found scope node (.index 2) (fun _ => .unset) = some second

instance (g : HostGraph) (found : Findings) (node : NodeId) (scope : List NodeId)
    (factor first second : Value) : Decidable (g.Mixes found node scope factor first second) :=
  decidable_of_iff
    (g.receives? found scope node (.name "Fac") (fun socket => .ofLanes? socket.default) = some factor ∧
      g.receives? found scope node (.index 1) (fun _ => .unset) = some first ∧
      g.receives? found scope node (.index 2) (fun _ => .unset) = some second)
    ⟨fun ⟨hf, h₁, h₂⟩ => ⟨hf, h₁, h₂⟩, fun h => ⟨h.factor, h.first, h.second⟩⟩

/-- They come to one thing only. -/
theorem Mixes.unique {g : HostGraph} {found : Findings} {node : NodeId} {scope : List NodeId}
    {factor first second factor' first' second' : Value}
    (h : g.Mixes found node scope factor first second)
    (h' : g.Mixes found node scope factor' first' second') :
    factor = factor' ∧ first = first' ∧ second = second' :=
  ⟨Option.some.inj (h.factor.symm.trans h'.factor), Option.some.inj (h.first.symm.trans h'.first),
    Option.some.inj (h.second.symm.trans h'.second)⟩

end HostGraph

/-- Reading a socket does nothing. -/
theorem Plan.Course.of_throughLink {g : HostGraph} {node : NodeId} {key : SocketKey}
    {unlinked : Socket → Value} {found : Findings} {scope : List NodeId} {r : Recording}
    {operations : List Recording.Operation} {v : Value}
    (h : (Plan.throughLink g node key unlinked).Course (found.inside g scope) r operations v) :
    operations = [] ∧ g.receives? found scope node key unlinked = some v := by
  rw [Plan.throughLink_eq] at h
  unfold HostGraph.receives?
  cases hs : g.input node key with
  | none => rw [hs] at h; cases h
  | some socket =>
    rw [hs] at h
    dsimp only at h
    rcases hl : g.checkedLink node socket with failure | _ | link <;> rw [hl] at h
    · cases h
    · cases h
      have none : socket.visibleLink = none := by
        unfold HostGraph.checkedLink at hl
        cases hv : socket.visibleLink with
        | none => rfl
        | some link =>
          rw [hv] at hl
          dsimp only at hl
          split at hl <;> cases hl
      rw [Option.bind_some, none]
      exact ⟨rfl, rfl⟩
    · cases h with
      | visit known go =>
        cases go
        rw [Option.bind_some, HostGraph.visibleLink_of_checkedLink hl]
        exact ⟨rfl, known⟩

/-! ## Branches -/

/-- The branches of a mix shader. -/
inductive Branch where
  | first
  | second
  deriving DecidableEq

namespace Branch

/-- The place of its socket. -/
def place : Branch → Nat
  | .first => 1
  | .second => 2

/-- What the branch comes to. -/
def pick (first second : Value) : Branch → Value
  | .first => first
  | .second => second

/-- The branch is all that there is, or the factor leaves nothing of the other one. -/
def Decides (factor first second : Value) : Branch → Prop
  | .first => first ≠ .unset ∧ (second = .unset ∨ factor.isSplat .zero = true)
  | .second => second ≠ .unset ∧ (first = .unset ∨ factor.isSplat .one = true)

instance (factor first second : Value) (branch : Branch) :
    Decidable (branch.Decides factor first second) := by
  cases branch <;> unfold Decides <;> infer_instance

theorem Decides.ne_unset {factor first second : Value} {branch : Branch}
    (h : branch.Decides factor first second) : branch.pick first second ≠ .unset := by
  cases branch with
  | first => exact h.1
  | second => exact h.1

/-- Only one branch does. -/
theorem Decides.unique {factor first second : Value} {branch other : Branch}
    (h : branch.Decides factor first second) (h' : other.Decides factor first second) :
    branch = other := by
  have apart : ¬ (Branch.first.Decides factor first second ∧
      Branch.second.Decides factor first second) := by
    rintro ⟨⟨there, decides⟩, there', decides'⟩
    have zero := decides.resolve_left there'
    have one := decides'.resolve_left there
    rw [Value.not_isSplat_one zero] at one
    cases one
  cases branch with
  | first =>
    cases other with
    | first => rfl
    | second => exact (apart ⟨h, h'⟩).elim
  | second =>
    cases other with
    | first => exact (apart ⟨h', h⟩).elim
    | second => rfl

end Branch

/-- The operations of a mix shader and what it comes to: the branch that decides, and nothing is done;
    or a new node that blends the branches. -/
inductive Mixed (r : Recording) (factor first second : Value) : List Recording.Operation → Value → Prop
  | decided {branch : Branch} (h : branch.Decides factor first second) :
      Mixed r factor first second [] (branch.pick first second)
  | blended {handle : NodeHandle} (undecided : ∀ branch : Branch, ¬ branch.Decides factor first second)
      (made : r.node? handle = some
        (.withParams .blend [("weight", factor), ("color0", first), ("color1", second)])) :
      Mixed r factor first second
        [.create .blend [("weight", factor), ("color0", first), ("color1", second)]] (.node handle)

namespace Handler

/-- A mix shader that comes to a value comes to one of its branches or blends them. -/
theorem mixShader_course {g : HostGraph} {node : NodeId} {output : String} {found : Findings}
    {scope : List NodeId} {r : Recording} {operations : List Recording.Operation} {v : Value}
    (h : (mixShader g node output).Course (found.inside g scope) r operations v) :
    ∃ factor first second, g.Mixes found node scope factor first second ∧
      Mixed r factor first second operations v := by
  obtain ⟨_, _, factor, read, branches, rfl⟩ := Plan.Course.of_bind h
  obtain ⟨_, _, first, read₁, last, rfl⟩ := branches.of_bind
  obtain ⟨_, _, second, read₂, mixed, rfl⟩ := last.of_bind
  obtain ⟨rfl, hfactor⟩ := read.of_throughLink
  obtain ⟨rfl, hfirst⟩ := read₁.of_throughLink
  obtain ⟨rfl, hsecond⟩ := read₂.of_throughLink
  refine ⟨factor, first, second, ⟨hfactor, hfirst, hsecond⟩, ?_⟩
  simp only [List.nil_append]
  split at mixed
  · cases mixed
  · rename_i there
    cases mixed
    have decides : Branch.second.Decides factor .unset v := ⟨there, .inl rfl⟩
    exact .decided decides
  · rename_i there
    cases mixed
    have decides : Branch.first.Decides factor v .unset := ⟨there, .inl rfl⟩
    exact .decided decides
  · rename_i there₁ there₂ _
    have both : first ≠ .unset ∧ second ≠ .unset := ⟨there₁, there₂⟩
    split at mixed
    · rename_i zero
      have decides : Branch.first.Decides factor first second := ⟨both.1, .inr zero⟩
      cases mixed
      exact .decided decides
    · rename_i zero
      split at mixed
      · rename_i one
        have decides : Branch.second.Decides factor first second := ⟨both.2, .inr one⟩
        cases mixed
        exact .decided decides
      · rename_i one
        cases mixed with
        | create made go =>
          cases go
          refine .blended (fun branch decides => ?_) made
          cases branch with
          | first => exact zero (decides.2.resolve_left both.2)
          | second => exact one (decides.2.resolve_left both.1)

end Handler

namespace Mixed

variable {r : Recording} {factor first second v : Value} {operations : List Recording.Operation}

/-- A branch that decides is all that there is. -/
theorem of_decides (h : Mixed r factor first second operations v) {branch : Branch}
    (decides : branch.Decides factor first second) : operations = [] ∧ v = branch.pick first second := by
  cases h with
  | decided other => exact ⟨rfl, by rw [decides.unique other]⟩
  | blended undecided => exact (undecided branch decides).elim

end Mixed

/-- The native node blends two values by a weight; it has no weight where that is nothing. -/
structure RecordedNode.Blends (node : RecordedNode) (weight first second : Value) : Prop where
  kind : node.kind = .blend
  weight : node.params.get? "weight" = Param.ofValue? weight
  color0 : node.params.get? "color0" = Param.ofValue? first
  color1 : node.params.get? "color1" = Param.ofValue? second
  others : ∀ name, name ∉ ["weight", "color0", "color1"] → node.params.get? name = none

/-- The new node of a mix shader. -/
theorem RecordedNode.blends_withParams (weight first second : Value) :
    (RecordedNode.withParams .blend
      [("weight", weight), ("color0", first), ("color1", second)]).Blends weight first second := by
  have distinct : ([("weight", weight), ("color0", first), ("color1", second)].map Prod.fst).Nodup := by
    simp
  have params := RecordedNode.withParams_get? .blend distinct
  refine ⟨rfl, params _, params _, params _, fun name other => ?_⟩
  simp only [List.mem_cons, List.not_mem_nil, or_false, not_or] at other
  rw [params]
  simp [List.lookup_cons, beq_eq_false_iff_ne.2 other.1, beq_eq_false_iff_ne.2 other.2.1,
    beq_eq_false_iff_ne.2 other.2.2]

/-- Undecided, there is one new node that blends the branches. -/
theorem Mixed.blends {r : Recording} {factor first second v : Value}
    {operations : List Recording.Operation} (h : Mixed r factor first second operations v)
    (undecided : ∀ branch : Branch, ¬ branch.Decides factor first second) :
    operations = [.create .blend [("weight", factor), ("color0", first), ("color1", second)]] ∧
      ∃ handle node, v = .node handle ∧ r.node? handle = some node ∧
        node.Blends factor first second := by
  cases h with
  | decided decides => exact (undecided _ decides).elim
  | blended _ made => exact ⟨rfl, _, _, rfl, made, RecordedNode.blends_withParams factor first second⟩

/-! ## What mix shaders read -/

namespace Plan

variable {g : HostGraph} {failing : SortedMap String Unit} {found : NodeId → String → Option Value}

/-- Where a socket is read, its link is not refused, and what it comes from was found. -/
theorem read_throughLink {node : NodeId} {key : SocketKey} {unlinked : Socket → Value}
    (read : ((throughLink g node key unlinked).read failing found).isSome = true) {socket : Socket}
    {link : LinkSource} (input : g.input node key = some socket)
    (shown : socket.visibleLink = some link) :
    g.unequal (g.kind node) socket.shader link = false ∧
      (found link.node link.output).isSome = true := by
  rw [throughLink_eq, input] at read
  dsimp only at read
  rw [HostGraph.checkedLink, shown] at read
  dsimp only at read
  unfold HostGraph.unequal
  cases refused : !(g.kind link.node).isTypeless && !(g.kind node).isTypeless &&
    link.shader != socket.shader with
  | true =>
    rw [if_pos refused] at read
    cases read
  | false =>
    rw [if_neg (by simp [refused])] at read
    refine ⟨rfl, ?_⟩
    simp only [Plan.read] at read
    cases hf : found link.node link.output with
    | none =>
      rw [hf] at read
      cases read
    | some value => rfl

end Plan

/-- A mix shader that is read reads both of its branches. -/
theorem Handler.read_mixShader {g : HostGraph} {failing : SortedMap String Unit}
    {found : NodeId → String → Option Value} {node : NodeId} {output : String}
    (read : ((mixShader g node output).read failing found).isSome = true) (branch : Branch) :
    ((Plan.inputLink g node (.index branch.place)).read failing found).isSome = true := by
  unfold mixShader at read
  rw [Plan.read_bind] at read
  cases hf : (Plan.input g node (.name "Fac")).read failing found with
  | none =>
    rw [hf] at read
    cases read
  | some factor =>
    rw [hf, Option.bind_some, Plan.read_bind] at read
    cases h₁ : (Plan.inputLink g node (.index 1)).read failing found with
    | none =>
      rw [h₁] at read
      cases read
    | some first =>
      rw [h₁, Option.bind_some, Plan.read_bind] at read
      cases h₂ : (Plan.inputLink g node (.index 2)).read failing found with
      | none =>
        rw [h₂] at read
        cases read
      | some second =>
        cases branch with
        | first => exact congrArg Option.isSome h₁
        | second => exact congrArg Option.isSome h₂

/-- Findings lead to an output if its plan is read by them. -/
theorem Setting.leads_eq_read {s : Setting} {failing : SortedMap String Unit} {found : Findings}
    {key : Key} {plan : Plan Value} (course : s.course key.node key.output = .plan plan) :
    s.leads failing found key = (plan.read failing (found.inside s.graph key.scope)).isSome := by
  unfold Setting.course at course
  unfold Setting.leads
  cases hb : bypass? s.graph key.node with
  | some passed =>
    rw [hb] at course
    cases course
    rfl
  | none =>
    rw [hb] at course
    dsimp only at course ⊢
    rw [course]

/-! ## Documents -/

/-- The plan of a mix shader that is not muted. -/
theorem Setting.course_mixShader {s : Setting} (builtin : s.table = .builtin) {node : NodeId}
    (kind : s.graph.kind node = .mixShader) (unmuted : s.graph.muted node = false) (output : String) :
    s.course node output = .plan (Handler.mixShader s.graph node output) := by
  have passed : bypass? s.graph node = none := by
    rw [bypass?, kind, unmuted]
    rfl
  rw [course, passed, builtin]
  exact task_of_handler (builtin_get?_eq_none (by rw [kind]; decide)) (by rw [kind]; rfl)

namespace Document

/-- Whatever a question is answered with, an output of a mix shader that it lowered to a value came to
    what the factor and the branches make of it, and did no more. -/
theorem mixed (d : Document) {node : NodeId} (kind : d.graph.kind node = .mixShader)
    (unmuted : d.graph.muted node = false) (question : Question) {σ : WalkState} (stack : σ.stack = [])
    (distinct : σ.cache.outputs.Distinct) {key : Key} (own : key.node = node)
    (unknown : σ.cache.get? key = none) {v : Value}
    (known : (Walk.ask (d.setting .builtin) question σ).cache.get? key = some v) :
    ∃ factor first second,
      d.graph.Mixes (.ofEntries (Walk.ask (d.setting .builtin) question σ).cache.outputs.entries) node
        key.scope factor first second ∧
      Mixed (Walk.ask (d.setting .builtin) question σ).recording factor first second
        (question.share (d.setting .builtin) σ key) v := by
  have accepted : ∀ kind rules, (d.setting .builtin).table.get? kind = some rules → rules.Accepted :=
    fun _ _ => RuleTable.accepted_of_check RuleTable.builtin_check
  subst own
  have course := Setting.course_mixShader (s := d.setting .builtin) rfl kind unmuted key.output
  exact Handler.mixShader_course
    (Question.exists_course accepted stack distinct unknown known course)

end Document

end MaterialLowering
