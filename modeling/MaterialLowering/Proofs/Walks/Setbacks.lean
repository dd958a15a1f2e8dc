import MaterialLowering.Proofs.Walks.Readings

/-!
# Failures are for good

What failed once never comes to a value: an output fails over its own node, or with an output that it
asks for, and so on down to one that fails over its node or is met again on the way to itself. A walk
is *legible* when everything that it remembers can be read off the outputs in its cache: those outputs,
the sub-nodes of rules and the arguments of calls. Then an output that failed can be read off nothing,
so long as neither the outputs that failed with it nor those that were being lowered are found.

Results:
* `Walk.lower_legible`: a walk stays legible.
* `Walk.lower_setback`: no findings lead to an output that failed.
-/

namespace MaterialLowering

open Walk (on)

variable {s : Setting} {fixed : Key → Prop} {failing : SortedMap String Unit}

/-! ## Legible states -/

/-- The findings before it lead to every output in a cache. -/
inductive Led (s : Setting) (failing : SortedMap String Unit) : List (Key × Value) → Prop
  | nil : Led s failing []
  | cons {key : Key} {value : Value} {entries : List (Key × Value)} (older : Led s failing entries)
      (fresh : key ∉ entries.map Prod.fst) (answer : Correspondence.total.Answer value value)
      (leads : s.leads failing (.ofEntries entries) key = true) : Led s failing ((key, value) :: entries)

/-- The values of sub-nodes can be read off the findings, up to handles. -/
def SubNodesRead (s : Setting) (failing : SortedMap String Unit) (found : Findings)
    (subNodes : Memo (Key × String) Value) : Prop :=
  ∀ node output scope name v,
    subNodes.get? (⟨node, output, scope, s.graph.material⟩, name) = some v →
    ∀ rules, s.table.get? (s.graph.kind node) = some rules →
      ∃ v', (s.subNode rules node output name).read failing (found.inside s.graph scope) = some v' ∧
        Correspondence.total.Answer v v'

/-- The arguments of a call inside the calls `around` can be read off the findings. -/
def ArgumentsRead (s : Setting) (failing : SortedMap String Unit) (found : Findings) (frame : Frame)
    (around : List NodeId) : Prop :=
  ∀ name v, frame.arguments.get? name = some v → Correspondence.total.Answer v v ∧
    ((Walk.argument s.graph frame.callSite name).read failing (found.inside s.graph around)).isSome = true

/-- The arguments of all calls on the stack can be read off the findings. -/
def StackRead (s : Setting) (failing : SortedMap String Unit) (found : Findings) : List Frame → Prop
  | [] => True
  | frame :: around =>
    ArgumentsRead s failing found frame (around.map Frame.callSite) ∧ StackRead s failing found around

/-- Everything that the walk remembers can be read off the outputs in its cache. -/
structure Legible (s : Setting) (failing : SortedMap String Unit) (σ : WalkState) : Prop where
  images : σ.recording.failing = failing
  outputs : Led s failing σ.cache.outputs.entries
  subNodes : SubNodesRead s failing (.ofEntries σ.cache.outputs.entries) σ.cache.subNodes
  stack : StackRead s failing (.ofEntries σ.cache.outputs.entries) σ.stack

namespace Led

variable {entries : List (Key × Value)}

theorem nodup (h : Led s failing entries) : (entries.map Prod.fst).Nodup := by
  induction h with
  | nil => exact .nil
  | cons _ fresh _ _ ih => exact List.nodup_cons.2 ⟨fresh, ih⟩

theorem answer (h : Led s failing entries) {key : Key} {value : Value} (hm : (key, value) ∈ entries) :
    Correspondence.total.Answer value value := by
  induction h with
  | nil => cases hm
  | cons _ _ answer _ ih =>
    rcases List.mem_cons.1 hm with same | hm
    · obtain ⟨-, rfl⟩ := Prod.mk.inj same
      exact answer
    · exact ih hm

theorem cover (h : Led s failing entries) : (Findings.ofEntries entries).Cover entries :=
  Findings.cover_ofEntries h.nodup

/-- An older cache has no other findings. -/
theorem grow {older : List (Key × Value)} (h : Led s failing entries) (he : older ⊆ entries) :
    (Findings.ofEntries older).Grow (.ofEntries entries) := (h.cover.of_subset he).grow

end Led

section

variable {found found' : Findings}

theorem SubNodesRead.grow {subNodes : Memo (Key × String) Value}
    (h : SubNodesRead s failing found subNodes) (more : found.Grow found') :
    SubNodesRead s failing found' subNodes := by
  intro node output scope name v hv rules hr
  obtain ⟨v', hread, answer⟩ := h node output scope name v hv rules hr
  exact ⟨v', more.read hread, answer⟩

theorem ArgumentsRead.grow {frame : Frame} {around : List NodeId}
    (h : ArgumentsRead s failing found frame around) (more : found.Grow found') :
    ArgumentsRead s failing found' frame around := by
  intro name v hv
  obtain ⟨answer, read⟩ := h name v hv
  obtain ⟨v', hread⟩ := Option.isSome_iff_exists.1 read
  exact ⟨answer, Option.isSome_iff_exists.2 ⟨v', more.read hread⟩⟩

theorem StackRead.grow {stack : List Frame} (h : StackRead s failing found stack)
    (more : found.Grow found') : StackRead s failing found' stack := by
  induction stack with
  | nil => trivial
  | cons frame around ih => exact ⟨h.1.grow more, ih h.2⟩

end

namespace Legible

variable {σ σ' : WalkState}

theorem start (r : Recording) : Legible s r.failing (.start r) :=
  ⟨rfl, .nil, fun _ _ _ _ _ h => (by cases h), trivial⟩

theorem recorded (h : Legible s failing σ) {r : Recording} (hr : σ.recording.Extends r) :
    Legible s failing { σ with recording := r } :=
  ⟨hr.failing.trans h.images, h.outputs, h.subNodes, h.stack⟩

theorem noting (h : Legible s failing σ) (notice : Notice) : Legible s failing (σ.noting notice) :=
  ⟨h.images, h.outputs, h.subNodes, h.stack⟩

theorem withActive (h : Legible s failing σ) (active : List Key) :
    Legible s failing { σ with active } := ⟨h.images, h.outputs, h.subNodes, h.stack⟩

theorem withStack (h : Legible s failing σ) {stack : List Frame}
    (hs : StackRead s failing (.ofEntries σ.cache.outputs.entries) stack) :
    Legible s failing { σ with stack } := ⟨h.images, h.outputs, h.subNodes, hs⟩

/-- An image loads unless it fails to in every legible state. -/
theorem image (h : Legible s failing σ) (descriptor : ImageDescriptor) :
    Option.Rel Correspondence.total.image (σ.recording.materialize descriptor).1.toOption
      (if failing.contains descriptor.name then none else some ⟨0⟩) := by
  rw [← h.images]
  cases hc : σ.recording.failing.contains descriptor.name with
  | true =>
    rw [Recording.materialize_failing hc]
    exact .none
  | false =>
    rw [(Recording.materialize_loaded hc).1]
    exact .some trivial

/-- What was found before does not get lost. -/
theorem grow (h : Legible s failing σ') (evolves : σ.Evolves σ') :
    (Findings.ofEntries σ.cache.outputs.entries).Grow (.ofEntries σ'.cache.outputs.entries) :=
  h.outputs.grow evolves.cache_subset

end Legible

/-! ## Plans -/

/-- Lowering keeps the state legible, down to a depth. -/
def LowersLegibly (s : Setting) (failing : SortedMap String Unit) (depth : Nat) : Prop :=
  ∀ node output σ, Legible s failing σ → Placed s.graph σ.stack node →
    Legible s failing (on (Walk.lower s depth node output) σ).2

/-- A table misses the outputs that failed at some moments. -/
def Findings.Miss (found : Findings) (s : Setting) (depth : Nat) (moments : List Moment) : Prop :=
  ∀ node output τ failure, .asks node output τ ∈ moments →
    (on (Walk.lower s depth node output) τ).1 = .error failure →
      found ⟨node, output, τ.scope, s.graph.material⟩ = none

/-- Carrying `p` out keeps the state legible, and comes to a value if `q` does so with a table in which
    everything is that is found in the end, and nothing that failed; and the two values are the same up
    to handles. -/
structure ReadsBack (s : Setting) (failing : SortedMap String Unit) (depth : Nat) {α β : Type}
    (P : Correspondence → α → β → Prop) (σ : WalkState) (p : Plan α) (q : Plan β) : Prop where
  legible : Legible s failing (on (Walk.carryOut s.graph (Walk.lower s depth) p) σ).2
  states : ∀ moment ∈ p.moments s.graph (Walk.lower s depth) σ, Legible s failing moment.state
  reads : ∀ found : Findings,
    found.Cover (on (Walk.carryOut s.graph (Walk.lower s depth) p) σ).2.cache.outputs.entries →
    found.Miss s depth (p.moments s.graph (Walk.lower s depth) σ) →
    Option.Rel (P .total) (on (Walk.carryOut s.graph (Walk.lower s depth) p) σ).1.toOption
      (q.read failing (found.inside s.graph σ.scope))

namespace Walk

variable {depth : Nat} {node : NodeId} {α β γ δ : Type} {σ : WalkState}

/-- Where a plan comes to a value, nothing failed. -/
theorem miss_of_ok (found : Findings) {plan : Plan α} {a : α}
    (h : (on (carryOut s.graph (lower s depth) plan) σ).1 = .ok a) :
    found.Miss s depth (plan.moments s.graph (lower s depth) σ) := by
  intro node output τ failure hm hf
  rw [(plan.carryOut_fails σ hm hf).1] at h
  cases h

/-- An output that a plan asks for fails, and a table that misses it does not lead to it either. -/
theorem readsBack_of_failed {P : Correspondence → α → β → Prop} {source : NodeId} {output : String}
    {next : Value → Plan α} {next' : Value → Plan β} {failure : Failure} {σ' : WalkState}
    (failed : on (lower s depth source output) σ = (.error failure, σ'))
    (legible : Legible s failing σ) (legible' : Legible s failing σ') :
    ReadsBack s failing depth P σ (.visit source output next) (.visit source output next') := by
  have run : on (carryOut s.graph (lower s depth) (.visit source output next)) σ =
      (.error failure, σ') := by simp only [carryOut, on_bind, failed]
  have asks : (Plan.visit source output next).moments s.graph (lower s depth) σ =
      [.asks source output σ] := by simp only [Plan.moments_visit, failed]
  refine ⟨by rw [run]; exact legible', fun moment hm => ?_, fun found _ miss => ?_⟩
  · rw [asks] at hm
    rw [List.mem_singleton.1 hm]
    exact legible
  · rw [asks] at miss
    have missed := miss source output σ failure (List.mem_singleton.2 rfl) (by rw [failed])
    rw [run, Plan.read, Findings.inside, missed]
    exact .none

/-- An output that a plan asks for is found, and the plan goes on from there. -/
theorem readsBack_of_found {P : Correspondence → α → β → Prop} {source : NodeId} {output : String}
    {next : Value → Plan α} {next' : Value → Plan β} {value : Value} {σ' : WalkState}
    (ran : on (lower s depth source output) σ = (.ok value, σ')) (legible : Legible s failing σ)
    (rest : ReadsBack s failing depth P σ' (next value) (next' value)) :
    ReadsBack s failing depth P σ (.visit source output next) (.visit source output next') := by
  have run : on (carryOut s.graph (lower s depth) (.visit source output next)) σ =
      on (carryOut s.graph (lower s depth) (next value)) σ' := by simp only [carryOut, on_bind, ran]
  have asks : (Plan.visit source output next).moments s.graph (lower s depth) σ =
      (next value).moments s.graph (lower s depth) σ' ++ [.asks source output σ] := by
    simp only [Plan.moments_visit, ran]
  have kept : (⟨source, output, σ.scope, s.graph.material⟩, value) ∈ σ'.cache.outputs.entries := by
    have kept := mem_cache_of_lower (congrArg Prod.fst ran)
    rwa [ran] at kept
  have scope := (lower_evolves s depth source output σ).scope_eq
  rw [ran] at scope
  obtain ⟨later, moments, reads⟩ := rest
  refine ⟨by rw [run]; exact later, fun moment hm => ?_, fun found cover miss => ?_⟩
  · rw [asks] at hm
    rcases List.mem_append.1 hm with hm | hm
    · exact moments moment hm
    · rw [List.mem_singleton.1 hm]
      exact legible
  · rw [run] at cover ⊢
    rw [asks] at miss
    have more := (carryOut_evolves (g := s.graph) (lower_evolves s depth) (next value) σ').cache_subset
    have here : found ⟨source, output, σ.scope, s.graph.material⟩ = some value := cover _ (more kept)
    have rest := reads found cover fun node output τ failure hm =>
      miss node output τ failure (List.mem_append_left _ hm)
    rw [Plan.read, Findings.inside, here]
    rwa [scope] at rest

/-- Plans that keep nothing and differ in nothing but handles, and ask for outputs that are placed in
    the calls on the stack. -/
theorem readsBack_of_asks (hv : LowersLegibly s failing depth) {asks : NodeId → String → Prop}
    {P : Correspondence → α → β → Prop} {w : Correspondence} {p : Plan α} {q : Plan β}
    (h : Plan.Alike asks False P w p q) (hw : w = .total) (legible : Legible s failing σ)
    (placed : ∀ source output, asks source output → Placed s.graph σ.stack source) :
    ReadsBack s failing depth P σ p q := by
  induction h generalizing σ with
  | done h => exact ⟨legible, fun _ hm => (by cases hm), fun _ _ _ => .some (hw ▸ h)⟩
  | fail => exact ⟨legible, fun _ hm => (by cases hm), fun _ _ _ => .none⟩
  | @visit w source output next next' asked _ ih =>
    have legible' := hv source output σ legible (placed source output asked)
    have evolves := lower_evolves s depth source output σ
    have kept : ∀ {value}, (on (lower s depth source output) σ).1 = .ok value →
        (⟨source, output, σ.scope, s.graph.material⟩, value) ∈
          (on (lower s depth source output) σ).2.cache.outputs.entries := mem_cache_of_lower
    rcases ran : on (lower s depth source output) σ with ⟨failure | value, σ'⟩ <;>
      rw [ran] at legible' evolves kept
    · exact readsBack_of_failed ran legible legible'
    · exact readsBack_of_found ran legible (ih .total w.le_total value value
        (legible'.outputs.answer (kept rfl)) rfl legible'
        fun source output asked => (placed source output asked).of_extends evolves.stack)
  | @create w kind ps qs next next' _ _ ih =>
    obtain ⟨later, moments, reads⟩ := ih .total w.le_total ⟨σ.recording.nodes.size⟩ ⟨0⟩
      trivial rfl (legible.recorded (σ.recording.create_extends kind ps)) placed
    refine ⟨later, fun moment hm => ?_, fun found cover miss => reads found cover fun _ _ _ _ hm =>
      miss _ _ _ _ (Plan.mem_moments_create.2 (.inr hm))⟩
    obtain rfl | hm := Plan.mem_moments_create.1 hm
    · exact legible
    · exact moments moment hm
  | @image w descriptor next next' _ ih =>
    obtain ⟨later, moments, reads⟩ := ih .total w.le_total _ _ (legible.image descriptor) rfl
      (legible.recorded (σ.recording.materialize_extends descriptor)) placed
    refine ⟨later, fun moment hm => ?_, fun found cover miss => reads found cover fun _ _ _ _ hm =>
      miss _ _ _ _ (Plan.mem_moments_image.2 (.inr hm))⟩
    obtain rfl | hm := Plan.mem_moments_image.1 hm
    · exact legible
    · exact moments moment hm
  | @report w notice next next' _ _ ih =>
    obtain ⟨later, moments, reads⟩ := ih hw (legible.noting notice) placed
    rw [← Plan.moments_report] at moments reads
    exact ⟨later, moments, reads⟩
  | known h => exact h.elim
  | remember h => exact h.elim

theorem readsBack_of_alike (regular : s.Regular fixed) (hv : LowersLegibly s failing depth)
    {P : Correspondence → α → β → Prop} {w : Correspondence} {p : Plan α} {q : Plan β}
    (h : Plan.Alike (s.graph.Feeds node) False P w p q) (hw : w = .total)
    (legible : Legible s failing σ) (placed : Placed s.graph σ.stack node) :
    ReadsBack s failing depth P σ p q :=
  readsBack_of_asks hv h hw legible fun _ _ feeds => placed.of_tree (regular.feeds _ _ _ feeds)

end Walk

namespace ReadsBack

variable {depth : Nat} {α β γ δ : Type} {σ : WalkState} {P : Correspondence → α → β → Prop}
  {P' : Correspondence → γ → δ → Prop} {p : Plan α} {q : Plan β}

/-- A value can be read off what is in the cache in the end. -/
theorem value (h : ReadsBack s failing depth P σ p q) {a : α}
    (ha : (on (Walk.carryOut s.graph (Walk.lower s depth) p) σ).1 = .ok a) :
    ∃ b, q.read failing ((Findings.ofEntries (on (Walk.carryOut s.graph (Walk.lower s depth) p)
      σ).2.cache.outputs.entries).inside s.graph σ.scope) = some b ∧ P .total a b := by
  have related := h.reads _ h.legible.outputs.cover (Walk.miss_of_ok _ ha)
  rw [ha] at related
  cases hq : q.read failing _ with
  | none => rw [hq] at related; cases related
  | some b =>
    rw [hq] at related
    cases related with
    | some hab => exact ⟨b, rfl, hab⟩

theorem bind {f : α → Plan γ} {f' : β → Plan δ} (h : ReadsBack s failing depth P σ p q)
    (hf : ∀ a b σ', on (Walk.carryOut s.graph (Walk.lower s depth) p) σ = (.ok a, σ') → σ.Evolves σ' →
      Legible s failing σ' → P .total a b → ReadsBack s failing depth P' σ' (f a) (f' b)) :
    ReadsBack s failing depth P' σ (p >>= f) (q >>= f') := by
  have run : on (Walk.carryOut s.graph (Walk.lower s depth) (p >>= f)) σ = _ :=
    Walk.on_carryOut_bind p f σ
  have moments : (p >>= f).moments s.graph (Walk.lower s depth) σ = _ := Plan.moments_bind p f σ
  have evolves := Walk.carryOut_evolves (g := s.graph) (Walk.lower_evolves s depth) p σ
  have value := @h.value
  have first := h.reads
  have legible := h.legible
  rcases hp : on (Walk.carryOut s.graph (Walk.lower s depth) p) σ with ⟨failure | a, σ'⟩ <;>
    rw [hp] at run moments evolves value first legible
  · refine ⟨by rw [run]; exact legible, by rw [moments]; exact h.states, fun found cover miss => ?_⟩
    rw [run] at cover ⊢
    rw [moments] at miss
    have related := first found cover miss
    rw [Plan.read_bind]
    cases hq : q.read failing (found.inside s.graph σ.scope) with
    | none => exact .none
    | some b => rw [hq] at related; cases related
  · obtain ⟨b, -, hab⟩ := value rfl
    have later := hf a b σ' hp evolves legible hab
    refine ⟨by rw [run]; exact later.legible, fun moment hm => ?_, fun found cover miss => ?_⟩
    · rw [moments] at hm
      rcases List.mem_append.1 hm with hm | hm
      · exact later.states moment hm
      · exact h.states moment hm
    · rw [run] at cover ⊢
      rw [moments] at miss
      have more := (Walk.carryOut_evolves (g := s.graph) (Walk.lower_evolves s depth) (f a) σ').cache_subset
      have related := first found (cover.of_subset more) fun node output τ failure hm =>
        miss node output τ failure (List.mem_append_right _ hm)
      rw [Plan.read_bind]
      cases hq : q.read failing (found.inside s.graph σ.scope) with
      | none => rw [hq] at related; cases related
      | some b' =>
        rw [hq] at related
        cases related with
        | some hab' =>
          have rest := (hf a b' σ' hp evolves legible hab').reads found cover
            fun node output τ failure hm => miss node output τ failure (List.mem_append_left _ hm)
          rwa [evolves.scope_eq] at rest

/-- A notice makes no difference. -/
theorem report {notice : Notice} (h : ReadsBack s failing depth P (σ.noting notice) p q) :
    ReadsBack s failing depth P σ (.report notice p) (.report notice q) := by
  obtain ⟨legible, states, reads⟩ := h
  rw [← Plan.moments_report] at states reads
  exact ⟨legible, states, reads⟩

end ReadsBack

namespace Walk

/-! ## Sub-nodes -/

variable {depth : Nat} {node : NodeId} {σ : WalkState} {rules : NodeRules} {output : String}
  {subNode : String → Plan Value}

theorem source_readsBack (regular : s.Regular fixed) (hv : LowersLegibly s failing depth)
    (source : ValueSource)
    (hs : ∀ reference, source.reference? = some reference →
      ReadsBack s failing depth Correspondence.Answer σ (subNode reference) (subNode reference))
    (legible : Legible s failing σ) (placed : Placed s.graph σ.stack node) :
    ReadsBack s failing depth Correspondence.Answer σ
      ((s.site rules node output).source subNode source)
      ((s.site rules node output).source subNode source) := by
  have nothing : ∀ plan : Plan Value, Plan.Agree (s.graph.Feeds node) False .total plan plan →
      ReadsBack s failing depth Correspondence.Answer σ plan plan := fun _ alike =>
    readsBack_of_alike regular hv alike rfl legible placed
  cases source with
  | input socket => exact nothing _ (Plan.input_alike (.name socket))
  | link socket => exact nothing _ (Plan.inputLink_alike (.name socket))
  | default socket => exact nothing _ (Plan.inputDefault_alike (.name socket))
  | node reference => exact hs reference rfl
  | literal literal => exact nothing _ (.done (.constant literal.toLanes))

theorem params_readsBack (regular : s.Regular fixed) (hv : LowersLegibly s failing depth)
    (params : List (String × ValueSource))
    (hs : ∀ param ∈ params, ∀ reference, param.2.reference? = some reference →
      ∀ σ, Legible s failing σ → Placed s.graph σ.stack node →
        ReadsBack s failing depth Correspondence.Answer σ (subNode reference) (subNode reference))
    (legible : Legible s failing σ) (placed : Placed s.graph σ.stack node) :
    ReadsBack s failing depth RuleSite.ParamsAlike σ ((s.site rules node output).params subNode params)
      ((s.site rules node output).params subNode params) := by
  induction params generalizing σ with
  | nil =>
    have nothing : Plan.Alike (s.graph.Feeds node) False RuleSite.ParamsAlike .total
        (.done []) (.done []) := .done .nil
    exact readsBack_of_alike regular hv nothing rfl legible placed
  | cons param rest ih =>
    have head : ReadsBack s failing depth Correspondence.Answer σ
        ((s.site rules node output).source subNode param.2)
        ((s.site rules node output).source subNode param.2) :=
      source_readsBack regular hv param.2
        (fun reference hr => hs param List.mem_cons_self reference hr σ legible placed) legible placed
    refine head.bind fun value value' σ' _ evolves legible' hvalue => ?_
    have placed' := placed.of_extends evolves.stack
    refine (ih (fun other ho => hs other (List.mem_cons_of_mem _ ho)) legible' placed').bind
      fun values values' σ'' _ evolves' legible'' hvalues => ?_
    have all : Plan.Alike (s.graph.Feeds node) False RuleSite.ParamsAlike .total
        (.done ((param.1, value) :: values)) (.done ((param.1, value') :: values')) :=
      .done (.cons ⟨rfl, hvalue⟩ hvalues)
    exact readsBack_of_alike regular hv all rfl legible'' (placed'.of_extends evolves'.stack)

/-- The value of a sub-node is kept once the plan has come to it. -/
theorem remember_readsBack (hr : s.table.get? (s.graph.kind node) = some rules) {name : String}
    {body : Plan Value} (h : ReadsBack s failing depth Correspondence.Answer σ body body)
    (hbody : ∀ found, (s.subNode rules node output name).read failing found = body.read failing found) :
    ReadsBack s failing depth Correspondence.Answer σ
      (body >>= fun value => .remember node output name value (.done value))
      (body >>= fun value => .remember node output name value (.done value)) := by
  refine h.bind fun v b σ' ran evolves legible answer => ?_
  obtain ⟨v', hread, kept⟩ := h.value (a := v) (by rw [ran])
  rw [ran] at hread
  have subNodes : SubNodesRead s failing (.ofEntries σ'.cache.outputs.entries)
      (σ'.cache.subNodes.put (⟨node, output, σ'.scope, s.graph.material⟩, name) v) := by
    intro node' output' scope' name' value' found rules' hr'
    rw [Memo.get?_put] at found
    split at found
    · rename_i hkey
      simp only [Prod.mk.injEq, Key.mk.injEq] at hkey
      obtain ⟨⟨rfl, rfl, rfl, -⟩, rfl⟩ := hkey
      obtain rfl := Option.some.inj found
      obtain rfl : rules = rules' := Option.some.inj (hr.symm.trans hr')
      refine ⟨v', ?_, kept⟩
      rw [hbody, evolves.scope_eq]
      exact hread
    · exact legible.subNodes node' output' scope' name' value' found rules' hr'
  refine ⟨⟨legible.images, legible.outputs, subNodes, legible.stack⟩, fun moment hm => ?_,
    fun _ _ _ => .some answer⟩
  rw [List.mem_singleton.1 hm]
  exact legible

/-- A sub-node that is known comes to what can be read off the findings. -/
theorem known_readsBack (accepted : rules.Accepted)
    (hr : s.table.get? (s.graph.kind node) = some rules) {name : String} {value : Value}
    (found : σ.cache.subNode? ⟨node, output, σ.scope, s.graph.material⟩ name = some value)
    (legible : Legible s failing σ) :
    ReadsBack s failing depth Correspondence.Answer σ (s.subNode rules node output name)
      (s.subNode rules node output name) := by
  obtain ⟨value', hread, answer⟩ := legible.subNodes node output σ.scope name value found rules hr
  have run := on_subNode_known (lower s depth) accepted found
  have moments : (s.subNode rules node output name).moments s.graph (lower s depth) σ = [] :=
    RuleSite.moments_known (s.site rules node output) accepted found
  refine ⟨by rw [run]; exact legible, by rw [moments]; simp, fun table cover _ => ?_⟩
  rw [run] at cover ⊢
  rw [cover.grow.read hread]
  exact .some answer

/-- A sub-node that is not known comes to what it comes to anew. -/
theorem unknown_readsBack (accepted : rules.Accepted) {name : String}
    (found : σ.cache.subNode? ⟨node, output, σ.scope, s.graph.material⟩ name = none)
    (fresh : ReadsBack s failing depth Correspondence.Answer σ
      ((s.site rules node output).fresh (s.subNode rules node output) name)
      ((s.site rules node output).fresh (s.subNode rules node output) name)) :
    ReadsBack s failing depth Correspondence.Answer σ (s.subNode rules node output name)
      (s.subNode rules node output name) := by
  have unfolded : s.subNode rules node output name = _ := RuleSite.subNode_unfold accepted name
  have run := on_subNode_unknown (lower s depth) accepted found
  have moments : (s.subNode rules node output name).moments s.graph (lower s depth) σ =
      ((s.site rules node output).fresh (s.subNode rules node output) name).moments s.graph
        (lower s depth) σ := RuleSite.moments_unknown (s.site rules node output) accepted found
  refine ⟨by rw [run]; exact fresh.legible, by rw [moments]; exact fresh.states,
    fun table cover miss => ?_⟩
  rw [run] at cover ⊢
  rw [moments] at miss
  rw [unfolded]
  exact fresh.reads table cover miss

/-- A sub-node comes to what can be read off the findings, whether it is known or not. -/
theorem subNode_readsBack (regular : s.Regular fixed) (hv : LowersLegibly s failing depth)
    (hr : s.table.get? (s.graph.kind node) = some rules) (name : String)
    (hn : rules.contains name = true) (legible : Legible s failing σ)
    (placed : Placed s.graph σ.stack node) :
    ReadsBack s failing depth Correspondence.Answer σ (s.subNode rules node output name)
      (s.subNode rules node output name) := by
  have accepted : rules.Accepted := regular.rules _ _ hr
  have every : ∀ name, rules.contains name = true → ∀ σ, Legible s failing σ →
      Placed s.graph σ.stack node → ReadsBack s failing depth Correspondence.Answer σ
        (s.subNode rules node output name) (s.subNode rules node output name) := by
    refine accepted.induction fun name hn ih σ legible placed => ?_
    have unfolded : s.subNode rules node output name = _ := RuleSite.subNode_unfold accepted name
    obtain ⟨rule, hrule⟩ := Option.isSome_iff_exists.1 hn
    have eq : (s.site rules node output).fresh (s.subNode rules node output) name = _ :=
      RuleSite.fresh_eq hrule
    have reads : ∀ found, (s.subNode rules node output name).read failing found =
        ((s.site rules node output).params (s.subNode rules node output) rule.params >>=
          rule.type.plan).read failing found := by
      intro found
      rw [unfolded]
      show ((s.site rules node output).fresh (s.subNode rules node output) name).read failing found = _
      rw [eq]
      cases rule.warn <;> exact Plan.read_remember _ _ _ _
    have body : ∀ σ, Legible s failing σ → Placed s.graph σ.stack node →
        ReadsBack s failing depth Correspondence.Answer σ
          ((s.site rules node output).params (s.subNode rules node output) rule.params >>= rule.type.plan)
          ((s.site rules node output).params (s.subNode rules node output) rule.params >>=
            rule.type.plan) := by
      intro σ legible placed
      refine (params_readsBack regular hv rule.params (fun param hp reference href =>
        ih reference (RuleSite.mem_references hrule hp href)) legible placed).bind
          fun values values' σ' _ evolves legible' hvalues => ?_
      exact readsBack_of_alike regular hv (RuleSite.typePlan_alike rule.type hvalues) rfl legible'
        (placed.of_extends evolves.stack)
    cases found : σ.cache.subNode? ⟨node, output, σ.scope, s.graph.material⟩ name with
    | some value =>
      exact known_readsBack accepted hr found legible
    | none =>
      refine unknown_readsBack accepted found ?_
      rw [eq]
      cases rule.warn with
      | none => exact remember_readsBack hr (body σ legible placed) reads
      | some message => exact (remember_readsBack hr (body _ (legible.noting _) placed) reads).report
  exact every name hn σ legible placed

theorem task_readsBack (regular : s.Regular fixed) (hv : LowersLegibly s failing depth) {output : String}
    {plan : Plan Value} (h : s.table.task s.graph node output = .plan plan)
    (legible : Legible s failing σ) (placed : Placed s.graph σ.stack node) :
    ReadsBack s failing depth Correspondence.Answer σ plan plan := by
  rcases task_plan_cases h with ⟨rules, hr, rfl⟩ | alike
  · unfold RuleSite.plan
    split
    · rename_i hn
      exact subNode_readsBack regular hv hr output hn legible placed
    · have unset : Plan.Agree (s.graph.Feeds node) False .total (.done .unset) (.done .unset) :=
        .done .unset
      exact (readsBack_of_alike regular hv unset rfl (legible.noting _) placed).report
  · exact readsBack_of_alike regular hv (alike False .total) rfl legible placed

end Walk

/-! ## Groups -/

/-- A run that keeps the state legible and comes to a value if the findings in the end lead to it: a
    table that has them, and nothing that failed at the moments of the run. -/
structure Leads (s : Setting) (failing : SortedMap String Unit) (depth : Nat)
    (run : Except Failure Value × WalkState) (moments : List Moment) (leads : Findings → Bool) : Prop where
  legible : Legible s failing run.2
  states : ∀ moment ∈ moments, Legible s failing moment.state
  answer : ∀ v, run.1 = .ok v → Correspondence.total.Answer v v
  leads : ∀ found : Findings, found.Cover run.2.cache.outputs.entries → found.Miss s depth moments →
    run.1.toOption.isSome = leads found

namespace Leads

variable {depth : Nat} {σ : WalkState} {leads : Findings → Bool}

/-- A run that ends at once. -/
theorem at_once {result : Except Failure Value} (legible : Legible s failing σ)
    (answer : ∀ v, result = .ok v → Correspondence.total.Answer v v)
    (h : ∀ found : Findings, found.Cover σ.cache.outputs.entries →
      result.toOption.isSome = leads found) :
    Leads s failing depth (result, σ) [] leads :=
  ⟨legible, fun _ hm => (by cases hm), answer, fun found cover _ => h found cover⟩

/-- A failure. -/
theorem fail {failure : Failure} (legible : Legible s failing σ) (h : ∀ found, leads found = false) :
    Leads s failing depth (.error failure, σ) [] leads :=
  .at_once legible (fun _ hv => (by cases hv)) fun found _ => (h found).symm

end Leads

theorem Correspondence.Answer.left {w : Correspondence} {a b : Value} (h : w.Answer a b) :
    Correspondence.total.Answer a a := by
  cases h with
  | constant lanes => exact .constant lanes
  | node => exact .node trivial
  | unset => exact .unset

theorem ReadsBack.leads {depth : Nat} {σ : WalkState} {plan : Plan Value}
    (h : ReadsBack s failing depth Correspondence.Answer σ plan plan) :
    Leads s failing depth (on (Walk.carryOut s.graph (Walk.lower s depth) plan) σ)
      (plan.moments s.graph (Walk.lower s depth) σ)
      (fun found => (plan.read failing (found.inside s.graph σ.scope)).isSome) := by
  refine ⟨h.legible, h.states, fun v hv => ?_, fun found cover miss => ?_⟩
  · obtain ⟨v', -, answer⟩ := h.value hv
    exact answer.left
  · have related := h.reads found cover miss
    generalize (on (Walk.carryOut s.graph (Walk.lower s depth) plan) σ).1.toOption = result at related ⊢
    generalize plan.read failing (found.inside s.graph σ.scope) = reading at related ⊢
    cases related <;> rfl

namespace Legible

variable {σ : WalkState}

/-- The walk steps into a group. -/
theorem calling (h : Legible s failing σ) (callSite : NodeId) (tree : TreeId) :
    Legible s failing { σ with stack := ⟨callSite, tree, .empty⟩ :: σ.stack } :=
  h.withStack ⟨fun _ _ hv => (by cases hv), h.stack⟩

/-- A call is left. -/
theorem leaving (g : HostGraph) (h : Legible s failing σ) : Legible s failing (σ.leaving g) := by
  refine ⟨by simpa using h.images, by simpa using h.outputs, by simpa using h.subNodes, ?_⟩
  have stack := h.stack
  rw [WalkState.leaving_cache, WalkState.leaving_stack]
  cases hs : σ.stack with
  | nil => trivial
  | cons frame around =>
    rw [hs] at stack
    exact stack.2

/-- The walk steps back into a call. -/
theorem resumed {frame : Frame} {around : List Frame} (h : Legible s failing σ)
    (hs : StackExtends around σ.stack)
    (arguments : ArgumentsRead s failing (.ofEntries σ.cache.outputs.entries) frame
      (around.map Frame.callSite)) :
    Legible s failing { σ with stack := frame :: σ.stack } := by
  rw [← hs.callSites] at arguments
  exact h.withStack ⟨arguments, h.stack⟩

end Legible

theorem Placed.any_tree {g : HostGraph} {stack : List Frame} {node : NodeId} (h : Placed g stack node)
    (tree : TreeId) :
    (stack.any fun frame => frame.tree = tree) =
      (stack.map Frame.callSite).any fun other => g.groupTree other = some tree := by
  induction stack generalizing node with
  | nil => rfl
  | cons frame around ih =>
    obtain ⟨-, -, calls, -, rest⟩ := h
    simp [calls, ih rest]

namespace Walk

variable {depth : Nat} {node : NodeId} {σ : WalkState}

/-- An output leads to itself. -/
theorem lower_leads (hv : LowersLegibly s failing depth) (output : String)
    (legible : Legible s failing σ) (placed : Placed s.graph σ.stack node) :
    Leads s failing depth (on (lower s depth node output) σ) [.asks node output σ]
      (fun found => (found.inside s.graph σ.scope node output).isSome) := by
  have legible' := hv node output σ legible placed
  refine ⟨legible', fun moment hm => ?_, fun v hv => legible'.outputs.answer (mem_cache_of_lower hv),
    fun found cover miss => ?_⟩
  · rw [List.mem_singleton.1 hm]
    exact legible
  · cases hr : (on (lower s depth node output) σ).1 with
    | error failure =>
      have missed := miss node output σ failure (List.mem_singleton.2 rfl) hr
      rw [Findings.inside, missed]
      rfl
    | ok value =>
      have here := cover _ (mem_cache_of_lower hr)
      rw [Findings.inside, here]
      rfl

theorem call_leads (regular : s.Regular fixed) (hv : LowersLegibly s failing depth) (output : String)
    (kind : s.graph.kind node = .group) (legible : Legible s failing σ)
    (placed : Placed s.graph σ.stack node) :
    Leads s failing depth (on (call s.graph (lower s depth) node output) σ)
      (callMoments s.graph (lower s depth) node output σ) (fun found =>
        match s.graph.groupTree node with
        | none => false
        | some tree =>
          if σ.scope.any fun other => s.graph.groupTree other = some tree then false
          else
            match s.graph.groupOutput tree with
            | none => false
            | some groupOutput => (found.inside s.graph (node :: σ.scope) groupOutput output).isSome) := by
  simp only [on_call, callMoments_eq]
  cases hg : s.graph.groupTree node with
  | none => exact .fail legible fun _ => rfl
  | some tree =>
    dsimp only
    rw [← placed.any_tree tree]
    by_cases hc : (σ.stack.any fun frame => frame.tree = tree) = true
    · simp only [if_pos hc]
      exact .fail legible fun _ => rfl
    simp only [if_neg hc]
    have noted := legible.noting (.enteringGroup (s.graph.label node) (σ.stack.length + 1))
    cases ho : s.graph.groupOutput tree with
    | none => exact .fail noted fun _ => rfl
    | some groupOutput =>
      have new : tree ∉ σ.stack.map Frame.tree := by simpa using hc
      have within : Placed s.graph (⟨node, tree, .empty⟩ :: σ.stack) groupOutput :=
        ⟨regular.groupOutput _ _ ho, kind, hg, new, placed⟩
      obtain ⟨legible', states, answer, leads⟩ :=
        lower_leads hv output (noted.calling node tree) within
      refine ⟨legible'.leaving s.graph, states, answer, fun found cover miss => ?_⟩
      rw [WalkState.leaving_cache] at cover
      exact leads found cover miss

theorem formal_leads (regular : s.Regular fixed) (hv : LowersLegibly s failing depth) (name : String)
    (legible : Legible s failing σ) (placed : Placed s.graph σ.stack node) :
    Leads s failing depth (on (formal s.graph (lower s depth) node name) σ)
      (formalMoments s.graph (lower s depth) node name σ) (fun found =>
        match σ.scope with
        | [] => false
        | callSite :: around =>
          ((argument s.graph callSite name).read failing (found.inside s.graph around)).isSome) := by
  simp only [on_formal, formalMoments_eq]
  obtain ⟨recording, cache, stack, active, log⟩ := σ
  cases stack with
  | nil => exact .fail legible fun _ => rfl
  | cons frame around =>
    obtain ⟨within, -, -, -, outer⟩ := placed
    have call : innermostCall? node.tree (frame :: around) = some ([], frame, around) :=
      innermostCall?_cons_self around within.symm
    simp only [call]
    cases hf : frame.arguments.get? name with
    | some value =>
      obtain ⟨answer, read⟩ := legible.stack.1 name value hf
      obtain ⟨value', hread⟩ := Option.isSome_iff_exists.1 read
      refine .at_once legible (fun v hv => by cases hv; exact answer) fun found cover => ?_
      exact (Option.isSome_iff_exists.2 ⟨value', cover.grow.read hread⟩).symm
    | none =>
      have outside := legible.withStack legible.stack.2
      have back : ReadsBack s failing depth Correspondence.Answer ⟨recording, cache, around, active, log⟩
          (argument s.graph frame.callSite name) (argument s.graph frame.callSite name) :=
        readsBack_of_alike regular hv (argument_alike name) rfl outside outer
      have evolves := carryOut_evolves (g := s.graph) (lower_evolves s depth)
        (argument s.graph frame.callSite name) ⟨recording, cache, around, active, log⟩
      have arguments : ArgumentsRead s failing (.ofEntries cache.outputs.entries) frame
          (around.map Frame.callSite) := legible.stack.1
      have known := arguments.grow (back.legible.grow evolves)
      have read := @back.value
      obtain ⟨legible', states, answer, leads⟩ := back.leads
      dsimp only
      generalize on (carryOut s.graph (lower s depth) (argument s.graph frame.callSite name))
        ⟨recording, cache, around, active, log⟩ = run at legible' answer leads evolves known read ⊢
      obtain ⟨failure | found, σ'⟩ := run
      · exact ⟨legible'.resumed evolves.stack known, states, fun v hv => (by cases hv), leads⟩
      · dsimp only
        have value := (answer found rfl).or (.ofLanes? (s.graph.outputDefault node name))
        refine ⟨legible'.resumed evolves.stack fun other v hv => ?_, states,
          fun v hv => by cases hv; exact value, leads⟩
        rw [Memo.get?_put] at hv
        split at hv
        · rename_i same
          obtain rfl := same
          obtain rfl := Option.some.inj hv
          obtain ⟨found', hread, -⟩ := read rfl
          exact ⟨value, Option.isSome_iff_exists.2 ⟨found', hread⟩⟩
        · exact known other v hv

/-! ## Outputs -/

/-- An output that has not been lowered yet comes to a value if the findings lead to it. -/
theorem expand_leads (regular : s.Regular fixed) (hv : LowersLegibly s failing depth) (output : String)
    (legible : Legible s failing σ) (placed : Placed s.graph σ.stack node) :
    Leads s failing depth (on (expand s (lower s depth) node output) σ)
      (moments s (lower s depth) node output σ)
      (fun found => s.leads failing found ⟨node, output, σ.scope, s.graph.material⟩) := by
  simp only [on_expand, moments_eq, Setting.leads]
  cases hb : bypass? s.graph node with
  | some plan => exact (readsBack_of_alike regular hv (bypass?_alike hb) rfl legible placed).leads
  | none =>
    have noted := legible.noting (.visiting (s.graph.kind node) (s.graph.label node) output)
    dsimp only
    cases ht : s.table.task s.graph node output with
    | plan plan => exact (task_readsBack regular hv ht noted placed).leads
    | call => exact call_leads regular hv output (kind_of_task_call ht) noted placed
    | formal => exact formal_leads regular hv output noted placed

/-- Where a step comes to a value, nothing failed. -/
theorem miss_of_expand (accepted : ∀ kind rules, s.table.get? kind = some rules → rules.Accepted)
    (found : Findings) {output : String} {value : Value}
    (h : (on (expand s (lower s depth) node output) σ).1 = .ok value) :
    found.Miss s depth (moments s (lower s depth) node output σ) := by
  intro source other τ failure hm hf
  rw [((expansion accepted node output σ).fails hm hf).1] at h
  cases h

end Walk

/-- An output is not in the cache while it is being lowered. -/
theorem WalkState.Evolves.notMem_keys {σ σ' : WalkState} {key : Key} (evolves : σ.Evolves σ')
    (active : key ∈ σ.active) (unknown : σ.cache.get? key = none) :
    key ∉ σ'.cache.outputs.entries.map Prod.fst := by
  obtain ⟨found, hf, apart⟩ := evolves.cache
  intro hm
  obtain ⟨entry, he, rfl⟩ := List.mem_map.1 hm
  rw [hf] at he
  rcases List.mem_append.1 he with he | he
  · exact apart entry he active
  · exact Memo.get?_eq_none.1 unknown entry he rfl

/-- An output that the findings lead to is added to them. -/
theorem Legible.finished {σ : WalkState} {key : Key} {result : Except Failure Value}
    (h : Legible s failing σ) (fresh : key ∉ σ.cache.outputs.entries.map Prod.fst)
    (answer : ∀ value, result = .ok value → Correspondence.total.Answer value value)
    (leads : ∀ value, result = .ok value →
      s.leads failing (.ofEntries σ.cache.outputs.entries) key = true) :
    Legible s failing (σ.finished key result) := by
  cases result with
  | error failure => exact h.withActive _
  | ok value =>
    have unknown : σ.cache.outputs.get? key = none :=
      Memo.get?_eq_none.2 fun entry he same => fresh (List.mem_map.2 ⟨entry, he, same⟩)
    have put := Memo.entries_put_of_get?_eq_none value unknown
    have led : Led s failing ((key, value) :: σ.cache.outputs.entries) :=
      h.outputs.cons fresh (answer value rfl) (leads value rfl)
    have more := led.grow (List.subset_cons_self (key, value) σ.cache.outputs.entries)
    refine ⟨h.images, ?_, ?_, ?_⟩
    · show Led s failing (σ.cache.outputs.put key value).entries
      rw [put]
      exact led
    · show SubNodesRead s failing (.ofEntries (σ.cache.outputs.put key value).entries) σ.cache.subNodes
      rw [put]
      exact h.subNodes.grow more
    · show StackRead s failing (.ofEntries (σ.cache.outputs.put key value).entries) σ.stack
      rw [put]
      exact h.stack.grow more

namespace Walk

variable {depth : Nat} {node : NodeId} {output : String} {σ : WalkState}

/-- A walk stays legible, down to any depth. -/
theorem lower_legible (regular : s.Regular fixed) (depth : Nat) : LowersLegibly s failing depth := by
  induction depth with
  | zero => exact fun _ _ _ legible _ => legible
  | succ depth ih =>
    intro node output σ legible placed
    have lowering := lowering s depth node output σ
    generalize on (lower s (depth + 1) node output) σ = run, events s (depth + 1) node output σ = told
      at lowering ⊢
    cases lowering with
    | known | waiting => exact legible
    | @new key result σ' own unknown unmet ran =>
      have entered := legible.withActive (key :: σ.active)
      have step := expand_leads regular ih output entered placed
      have evolves := expand_evolves s (lower_evolves s depth) node output
        { σ with active := key :: σ.active }
      have leads : ∀ value, (on (expand s (lower s depth) node output)
            { σ with active := key :: σ.active }).1 = .ok value →
          s.leads failing (.ofEntries (on (expand s (lower s depth) node output)
            { σ with active := key :: σ.active }).2.cache.outputs.entries) key = true := by
        intro value ok
        have leads := step.leads _ step.legible.outputs.cover (miss_of_expand regular.rules _ ok)
        change _ = s.leads failing _ ⟨node, output, σ.scope, s.graph.material⟩ at leads
        rw [own, ok] at leads
        exact leads.symm
      have legible' := step.legible
      have answer := step.answer
      rw [ran] at leads evolves legible' answer
      exact legible'.finished (evolves.notMem_keys List.mem_cons_self unknown) answer leads

end Walk

/-! ## Failures -/

/-- A table lacks the outputs that were being lowered in a state and those that failed since. -/
structure Findings.Lacks (found : Findings) (σ : WalkState) (events : List Event) : Prop where
  waiting : ∀ key ∈ σ.active, found key = none
  failures : ∀ key failure, .lowered key (.error failure) ∈ events → found key = none

namespace Walk

variable {depth : Nat} {node : NodeId} {output : String} {σ : WalkState}

/-- What is lacking around a step that fails is lacking around the outputs that it asks for. -/
theorem lacks_below (accepted : ∀ kind rules, s.table.get? kind = some rules → rules.Accepted)
    {found : Findings} {own : Key} {failure : Failure}
    (lacks : found.Lacks σ (.lowered own (.error failure) ::
      (moments s (lower s depth) node output { σ with active := own :: σ.active }).flatMap
        (Moment.events (events s depth))))
    {source : NodeId} {other : String} {τ : WalkState}
    (asked : .asks source other τ ∈ moments s (lower s depth) node output
      { σ with active := own :: σ.active }) : found.Lacks τ (events s depth source other τ) := by
  have step := expansion accepted node output { σ with active := own :: σ.active }
  obtain ⟨log, stack, evolves⟩ := step.evolves (lower_evolves s depth) asked
  have active : τ.active = own :: σ.active := evolves.active
  refine ⟨?_, fun key failure he => ?_⟩
  · rw [active]
    exact List.forall_mem_cons.2 ⟨lacks.failures own failure List.mem_cons_self, lacks.waiting⟩
  · exact lacks.failures key failure (List.mem_cons_of_mem _ (Moment.mem_of_asks asked he))

/-- So is what failed at the moments of the step, and so the step can only fail. -/
theorem leads_eq_false (regular : s.Regular fixed) (legible : Legible s failing σ)
    (placed : Placed s.graph σ.stack node) {found : Findings} {failure : Failure}
    (failed : (on (expand s (lower s depth) node output) σ).1 = .error failure)
    (going : ¬ failure.IsTooDeep)
    (cover : found.Cover (on (expand s (lower s depth) node output) σ).2.cache.outputs.entries)
    (lacks : ∀ source other τ, .asks source other τ ∈ moments s (lower s depth) node output σ →
      found.Lacks τ (events s depth source other τ)) :
    s.leads failing found ⟨node, output, σ.scope, s.graph.material⟩ = false := by
  have step := expansion regular.rules node output σ
  have leads := expand_leads regular (lower_legible regular depth) output legible placed
  have miss : found.Miss s depth (moments s (lower s depth) node output σ) := by
    intro source other τ failure' asked hf
    have same := (step.fails asked hf).1
    rw [failed] at same
    obtain rfl : failure = failure' := Except.error.inj same
    rcases mem_events_of_lower hf going with hm | he
    · exact (lacks source other τ asked).waiting _ hm
    · exact (lacks source other τ asked).failures _ _ he
  have read := leads.leads found cover miss
  rw [failed] at read
  exact read.symm

/-- No findings lead to an output that failed, unless they have an output that failed with it or that
    was being lowered around it. -/
theorem lower_setback (regular : s.Regular fixed) (legible : Legible s failing σ)
    (placed : Placed s.graph σ.stack node) {key : Key} {failure : Failure}
    (failed : .lowered key (.error failure) ∈ events s depth node output σ)
    (going : ¬ failure.IsTooDeep) {found : Findings}
    (cover : found.Cover (on (lower s depth node output) σ).2.cache.outputs.entries)
    (lacks : found.Lacks σ (events s depth node output σ)) : s.leads failing found key = false := by
  induction depth generalizing node output σ with
  | zero => cases failed
  | succ depth ih =>
    have ended := (lower_told regular.rules (depth + 1) node output σ).failed failed
    have lowering := lowering s depth node output σ
    generalize on (lower s (depth + 1) node output) σ = run, events s (depth + 1) node output σ = told
      at ended failed cover lacks lowering
    cases lowering with
    | known | waiting => cases failed
    | @new own result σ' here unknown unmet ran =>
      obtain rfl : result = .error failure := ended
      have entered := legible.withActive (own :: σ.active)
      have below : ∀ source other τ, .asks source other τ ∈ moments s (lower s depth) node output
          { σ with active := own :: σ.active } → found.Lacks τ (events s depth source other τ) :=
        fun _ _ _ => lacks_below regular.rules lacks
      rcases List.mem_cons.1 failed with same | failed
      · obtain ⟨rfl, -⟩ := Event.lowered.inj same
        rw [← here]
        refine leads_eq_false regular entered placed ?_ going ?_ below <;> rw [ran]
        exact cover
      · obtain ⟨source, other, τ, asked, he⟩ := Moment.exists_of_lowered failed
        have step := expansion regular.rules node output { σ with active := own :: σ.active }
        have leads := expand_leads regular (lower_legible regular depth) output entered placed
        obtain ⟨within, -⟩ := step.asks regular (lower_evolves s depth) placed asked
        have hf := (lower_told regular.rules depth source other τ).failed he
        -- The step ended with the output that failed.
        have last : σ'.cache = (on (lower s depth source other) τ).2.cache := by
          rw [← (step.fails asked hf).2, ran]
        change found.Cover σ'.cache.outputs.entries at cover
        exact ih (leads.states _ asked) within he (last ▸ cover) (below source other τ asked)

end Walk

end MaterialLowering
