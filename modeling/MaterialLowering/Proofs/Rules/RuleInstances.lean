import Mathlib.Data.List.Pairwise
import MaterialLowering.Proofs.Rules.Accounts

/-!
# Rules as graphs

An entry of the rule table is a graph of sub-nodes, and an output that it lowers becomes a copy of the
part of that graph that the sub-node of the output refers to. Attempts that failed leave sub-nodes
behind, and a later attempt goes on from them: over all attempts each sub-node is evaluated once, and
nothing else is done to the recording for the output.

Main definitions:
* `Copied`: the evaluations for an output, told by the names of the sub-nodes.
* `Instantiated`: the copy of an entry for an output.

Results:
* `Lived.instantiated`: an output that an entry lowers, once it is known.
* `Document.rule_instantiated`: so it is for every document.
-/

namespace MaterialLowering

open Walk (on)
open Relation (ReflTransGen)

variable {s : Setting} {fixed : Key → Prop} {key : Key} {σ : WalkState}

/-! ## Instances -/

theorem ValueSource.reference?_eq_some {source : ValueSource} {name : String} :
    source.reference? = some name ↔ source = .node name := by
  cases source <;> simp [reference?]

/-- How often a sub-node came to a value for an output. -/
def Event.timesKept (events : List Event) (key : Key) (name : String) : Nat :=
  ((events.filterMap Event.subNode?).map Prod.fst).count (key, name)

/-- The copy of an entry for an output, in a state that events led to. The sub-nodes in it are those
    that the one of the output refers to, itself or through others. -/
structure Instantiated (s : Setting) (σ : WalkState) (events : List Event) (key : Key)
    (rules : NodeRules) (value : Value) (making : String → Making) : Prop where
  /-- The output comes to what the sub-node of its name comes to. -/
  value_eq : (making key.output).value = value
  /-- A sub-node came to a value once if it is in the copy, otherwise never. -/
  once : ∀ name, ReflTransGen rules.Refers key.output name →
    .kept key name (making name).value ∈ events ∧ Event.timesKept events key name = 1
  others : ∀ name, ¬ ReflTransGen rules.Refers key.output name → Event.timesKept events key name = 0
  /-- Its parameters have the values of their sources: linked outputs as they are known, and what other
      sub-nodes of the copy came to. -/
  follows : ∀ name, ReflTransGen rules.Refers key.output name →
    ∃ rule, rules.get? name = some rule ∧ (making name).Follows
      (ValueSource.Given s.graph (fun other v => σ.cache.get? other = some v)
        (fun reference v => v = (making reference).value) key) rule
  /-- All that was ever done to the recording for the output is what was done for the sub-nodes of the
      copy, for each of them once and one after another. -/
  done : ∃ order : List String, order.Nodup ∧
    (∀ name, name ∈ order ↔ ReflTransGen rules.Refers key.output name) ∧
    Event.stepsFor key events = order.flatMap fun name => (making name).steps
  /-- A native sub-node is one new node, which has the parameters whose values are something. -/
  native : ∀ name rule kind, ReflTransGen rules.Refers key.output name → rules.get? name = some rule →
    rule.type = .native kind →
    (making name).steps = [⟨.create kind (making name).params, (making name).before⟩] ∧
      (making name).value = .node ⟨(making name).before.nodes.size⟩ ∧
      (making name).after.nodes.size = (making name).before.nodes.size + 1 ∧
      ∃ node, σ.recording.nodes[(making name).before.nodes.size]? = some node ∧ node.kind = kind ∧
        ((rule.params.map Prod.fst).Nodup → ∀ param, node.params.get? param =
          ((making name).params.lookup param).bind Param.ofValue?)
  /-- A folded sub-node comes to what its operation makes of its parameters. -/
  folded : ∀ name rule op, ReflTransGen rules.Refers key.output name → rules.get? name = some rule →
    rule.type = .fold op →
    (making name).steps = (op.emission (making name).params).steps (making name).before ∧
      (op.emission (making name).params).run (making name).before =
        ((making name).value, (making name).after)
  /-- A sub-node is evaluated when those are that it refers to. -/
  order : ∀ name reference, ReflTransGen rules.Refers key.output name → rules.Refers name reference →
    (making reference).after.Extends (making name).before
  /-- Nothing is added to the recording for two sub-nodes at once, -/
  apart : ∀ name other, ReflTransGen rules.Refers key.output name →
    ReflTransGen rules.Refers key.output other → name ≠ other →
    (making name).after.Extends (making other).before ∨
      (making other).after.Extends (making name).before
  /-- and all of it stays there. -/
  recorded : ∀ name, ReflTransGen rules.Refers key.output name →
    (making name).before.Extends (making name).after ∧ (making name).after.Extends σ.recording

namespace Evaluated

variable {outputs : List (Key × Value)} {makings : List ((Key × String) × Making)} {name : String}
  {making : Making}

/-- What is known of a sub-node that was evaluated. -/
theorem of_mem (h : Evaluated s outputs makings) (hm : ((key, name), making) ∈ makings) :
    ∃ rules rule earlier, s.table.get? (s.graph.kind key.node) = some rules ∧
      rules.get? name = some rule ∧ ReflTransGen rules.Refers key.output name ∧
      earlier ⊆ makings ∧ (∀ e ∈ earlier, e.2.after.Extends making.before) ∧
      making.Follows (ValueSource.Given s.graph (fun other v => (other, v) ∈ outputs)
        (fun reference v => ∃ m, ((key, reference), m) ∈ earlier ∧ m.value = v) key) rule := by
  induction h with
  | nil => cases hm
  | @cons _ _ rules rule _ earlier _ entry found reached follows later ih =>
    rcases List.mem_cons.1 hm with same | hm
    · obtain ⟨pair, rfl⟩ := Prod.mk.inj same
      obtain ⟨rfl, rfl⟩ := Prod.mk.inj pair
      exact ⟨rules, rule, earlier, entry, found, reached, List.subset_cons_self _ _, later, follows⟩
    · obtain ⟨rules, rule, before, entry, found, reached, within, rest⟩ := ih hm
      exact ⟨rules, rule, before, entry, found, reached,
        List.Subset.trans within (List.subset_cons_self _ _), rest⟩

theorem pairwise (h : Evaluated s outputs makings) :
    makings.Pairwise fun later earlier => earlier.2.after.Extends later.2.before := by
  induction h with
  | nil => exact .nil
  | cons _ _ _ _ _ later ih => exact .cons later ih

/-- A sub-node that one refers to was evaluated before it. -/
theorem exists_of_refers (h : Evaluated s outputs makings) (hm : ((key, name), making) ∈ makings)
    {rules : NodeRules} (entry : s.table.get? (s.graph.kind key.node) = some rules) {reference : String}
    (refers : rules.Refers name reference) :
    ∃ m, ((key, reference), m) ∈ makings ∧ m.after.Extends making.before := by
  obtain ⟨rules', rule, earlier, entry', found, -, within, later, follows⟩ := h.of_mem hm
  obtain rfl : rules' = rules := Option.some.inj (entry'.symm.trans entry)
  have refers' : reference ∈ rules'.references name := refers
  simp only [NodeRules.references, found, Option.map_some, Option.getD_some] at refers'
  obtain ⟨param, hp, hr⟩ := List.mem_filterMap.1 refers'
  have source : param.2 = .node reference := ValueSource.reference?_eq_some.1 hr
  obtain ⟨n, hn, rfl⟩ := List.mem_iff_getElem.1 hp
  obtain ⟨-, given⟩ := follows.params.get hn (follows.params.length_eq ▸ hn)
  rw [List.get_eq_getElem, source] at given
  obtain ⟨m, hm, -⟩ := given
  exact ⟨m, within hm, later _ hm⟩

/-- What is evaluated for an output is in its copy. -/
theorem reached_of_mem (h : Evaluated s outputs makings) {rules : NodeRules}
    (entry : s.table.get? (s.graph.kind key.node) = some rules) (hm : ((key, name), making) ∈ makings) :
    ReflTransGen rules.Refers key.output name := by
  obtain ⟨rules', _, _, entry', _, reached, -⟩ := h.of_mem hm
  obtain rfl : rules' = rules := Option.some.inj (entry'.symm.trans entry)
  exact reached

/-- With the sub-node of an output, all of its copy was evaluated. -/
theorem exists_of_reached (h : Evaluated s outputs makings) {rules : NodeRules}
    (entry : s.table.get? (s.graph.kind key.node) = some rules)
    (root : ((key, key.output), making) ∈ makings)
    (reached : ReflTransGen rules.Refers key.output name) : ∃ m, ((key, name), m) ∈ makings := by
  induction reached with
  | refl => exact ⟨making, root⟩
  | tail _ refers ih =>
    obtain ⟨m, hm⟩ := ih
    obtain ⟨m', hm', -⟩ := h.exists_of_refers hm entry refers
    exact ⟨m', hm'⟩

/-- One of two evaluations was over before the other began. -/
theorem apart (h : Evaluated s outputs makings) {a b : (Key × String) × Making} (ha : a ∈ makings)
    (hb : b ∈ makings) (different : a ≠ b) :
    a.2.after.Extends b.2.before ∨ b.2.after.Extends a.2.before := by
  have either := h.pairwise.imp (S := fun (a b : (Key × String) × Making) =>
    a.2.after.Extends b.2.before ∨ b.2.after.Extends a.2.before) .inr
  have symm : Std.Symm fun (a b : (Key × String) × Making) =>
    a.2.after.Extends b.2.before ∨ b.2.after.Extends a.2.before := ⟨fun _ _ => Or.symm⟩
  exact either.forall ha hb different

end Evaluated

/-- The evaluations for an output, told by the names of the sub-nodes in its copy: each is evaluated
    once, and no others are. -/
structure Copied (makings : List ((Key × String) × Making)) (key : Key) (rules : NodeRules)
    (making : String → Making) : Prop where
  distinct : (makings.map Prod.fst).Nodup
  mem_iff : ∀ {name m},
    ((key, name), m) ∈ makings ↔ ReflTransGen rules.Refers key.output name ∧ m = making name

theorem Evaluated.copied {outputs : List (Key × Value)} {makings : List ((Key × String) × Making)}
    (h : Evaluated s outputs makings) (distinct : (makings.map Prod.fst).Nodup) {rules : NodeRules}
    (entry : s.table.get? (s.graph.kind key.node) = some rules) {first : Making}
    (root : ((key, key.output), first) ∈ makings) : ∃ making, Copied makings key rules making := by
  have all : ∀ name, ∃ m, ReflTransGen rules.Refers key.output name → ((key, name), m) ∈ makings := by
    intro name
    by_cases reached : ReflTransGen rules.Refers key.output name
    · obtain ⟨m, hm⟩ := h.exists_of_reached entry root reached
      exact ⟨m, fun _ => hm⟩
    · exact ⟨first, fun h => absurd h reached⟩
  choose making evaluated_of using all
  refine ⟨making, distinct, fun {name m} => ⟨fun hm => ?_, ?_⟩⟩
  · have reached := h.reached_of_mem entry hm
    exact ⟨reached,
      (Prod.mk.inj (List.inj_on_of_nodup_map distinct hm (evaluated_of name reached) rfl)).2⟩
  · rintro ⟨reached, rfl⟩
    exact evaluated_of name reached

namespace Copied

variable {outputs : List (Key × Value)} {makings : List ((Key × String) × Making)} {rules : NodeRules}
  {making : String → Making} {name : String}

theorem mem (h : Copied makings key rules making) (reached : ReflTransGen rules.Refers key.output name) :
    ((key, name), making name) ∈ makings := h.mem_iff.2 ⟨reached, rfl⟩

theorem mem_keys (h : Copied makings key rules making) :
    (key, name) ∈ makings.map Prod.fst ↔ ReflTransGen rules.Refers key.output name := by
  refine ⟨fun hm => ?_, fun reached => List.mem_map.2 ⟨_, h.mem reached, rfl⟩⟩
  obtain ⟨⟨_, m⟩, he, rfl⟩ := List.mem_map.1 hm
  exact (h.mem_iff.1 he).1

/-- A sub-node came to a value once if it is in the copy, -/
theorem timesKept_eq_one (h : Copied makings key rules making) {events : List Event}
    (keys : makings.map Prod.fst = (events.filterMap Event.subNode?).map Prod.fst)
    (reached : ReflTransGen rules.Refers key.output name) : Event.timesKept events key name = 1 := by
  rw [Event.timesKept, ← keys]
  exact List.count_eq_one_of_mem h.distinct (h.mem_keys.2 reached)

/-- and otherwise never. -/
theorem timesKept_eq_zero (h : Copied makings key rules making) {events : List Event}
    (keys : makings.map Prod.fst = (events.filterMap Event.subNode?).map Prod.fst)
    (apart : ¬ ReflTransGen rules.Refers key.output name) : Event.timesKept events key name = 0 := by
  rw [Event.timesKept, ← keys]
  exact List.count_eq_zero.2 fun hm => apart (h.mem_keys.1 hm)

/-- Sub-nodes are evaluated from what other sub-nodes of the copy came to. -/
theorem follows (h : Copied makings key rules making) (evaluated : Evaluated s outputs makings)
    (entry : s.table.get? (s.graph.kind key.node) = some rules)
    (reached : ReflTransGen rules.Refers key.output name) :
    ∃ rule, rules.get? name = some rule ∧ (making name).Follows
      (ValueSource.Given s.graph (fun other v => (other, v) ∈ outputs)
        (fun reference v => v = (making reference).value) key) rule := by
  obtain ⟨rules', rule, earlier, entry', found, -, within, -, follows⟩ := evaluated.of_mem (h.mem reached)
  obtain rfl : rules' = rules := Option.some.inj (entry'.symm.trans entry)
  refine ⟨rule, found, follows.mono fun source v given => given.mono (fun _ _ hm => hm) ?_⟩
  rintro reference _ ⟨m, hm, rfl⟩
  rw [(h.mem_iff.1 (within hm)).2]

/-- A sub-node is evaluated when those are that it refers to. -/
theorem order (h : Copied makings key rules making) (evaluated : Evaluated s outputs makings)
    (entry : s.table.get? (s.graph.kind key.node) = some rules)
    (reached : ReflTransGen rules.Refers key.output name) {reference : String}
    (refers : rules.Refers name reference) :
    (making reference).after.Extends (making name).before := by
  obtain ⟨m, hm, later⟩ := evaluated.exists_of_refers (h.mem reached) entry refers
  obtain ⟨-, rfl⟩ := h.mem_iff.1 hm
  exact later

/-- The evaluations for an output, one after another. -/
theorem exists_order (h : Copied makings key rules making) : ∃ order : List String, order.Nodup ∧
    (∀ name, name ∈ order ↔ ReflTransGen rules.Refers key.output name) ∧
    Making.stepsFor key makings = order.flatMap fun name => (making name).steps := by
  have own : ∀ e ∈ makings.filter (fun e => e.1.1 = key), e = ((key, e.1.2), making e.1.2) := by
    rintro ⟨⟨other, name⟩, m⟩ he
    obtain ⟨there, same⟩ := List.mem_filter.1 he
    obtain rfl : other = key := of_decide_eq_true same
    obtain rfl : m = making name := (h.mem_iff.1 there).2
    rfl
  have nodup : (makings.filter fun e => e.1.1 = key).Nodup := h.distinct.of_map.filter _
  refine ⟨((makings.filter fun e => e.1.1 = key).reverse.map fun e => e.1.2), ?_, fun name => ?_, ?_⟩
  · refine List.Nodup.map_on (fun a ha b hb same => ?_) (List.nodup_reverse.2 nodup)
    rw [own a (List.mem_reverse.1 ha), own b (List.mem_reverse.1 hb), same]
  · rw [List.mem_map]
    constructor
    · rintro ⟨e, he, rfl⟩
      have he := List.mem_reverse.1 he
      have mem := List.mem_of_mem_filter he
      rw [own e he] at mem
      exact (h.mem_iff.1 mem).1
    · intro reached
      refine ⟨_, List.mem_reverse.2 (List.mem_filter.2 ⟨h.mem reached, ?_⟩), rfl⟩
      exact decide_eq_true rfl
  · rw [Making.stepsFor, List.flatMap_map]
    refine List.flatMap_congr fun e he => ?_
    rw [own e (List.mem_reverse.1 he)]

end Copied

/-- What is known of an output that an entry lowers: its sub-nodes are a copy of the entry. -/
theorem Lived.instantiated {events : List Event} (lived : Lived s σ events) (regular : s.Regular fixed)
    (unstopped : Walk.Unstopped s) {rules : NodeRules} (ruled : s.Ruled key rules) {value : Value}
    (known : σ.cache.get? key = some value) :
    ∃ making, Instantiated s σ events key rules value making := by
  obtain ⟨failing, chronicle⟩ := lived.chronicle regular unstopped
  obtain ⟨⟨makings, evaluated, same, within, steps⟩, outputs⟩ := lived.accounted regular
  have keys : makings.map Prod.fst = (events.filterMap Event.subNode?).map Prod.fst := by
    rw [← chronicle.subNodes, ← same, List.map_map]
    rfl
  have nodup : (makings.map Prod.fst).Nodup := by
    rw [keys, ← chronicle.subNodes]
    exact chronicle.distinct
  have root : ∃ m, ((key, key.output), m) ∈ makings ∧ m.value = value := by
    have hm := outputs key value rules (Memo.mem_entries_of_get? known) ruled
    rw [← same] at hm
    obtain ⟨⟨_, m⟩, he, heq⟩ := List.mem_map.1 hm
    obtain ⟨rfl, rfl⟩ := Prod.mk.inj heq
    exact ⟨m, he, rfl⟩
  obtain ⟨first, hfirst, value_eq⟩ := root
  obtain ⟨making, copied⟩ := evaluated.copied nodup ruled.entry hfirst
  have follows : ∀ name, ReflTransGen rules.Refers key.output name →
      ∃ rule, rules.get? name = some rule ∧ (making name).Follows
        (ValueSource.Given s.graph (fun other v => σ.cache.get? other = some v)
          (fun reference v => v = (making reference).value) key) rule := by
    intro name reached
    obtain ⟨rule, found, follows⟩ := copied.follows evaluated ruled.entry reached
    exact ⟨rule, found, follows.mono fun source v given =>
      given.mono (fun other v hm => Memo.get?_of_mem chronicle.legible.outputs.nodup hm) fun _ _ h => h⟩
  have made : ∀ name rule, ReflTransGen rules.Refers key.output name → rules.get? name = some rule →
      (making name).Follows (ValueSource.Given s.graph (fun other v => σ.cache.get? other = some v)
        (fun reference v => v = (making reference).value) key) rule := by
    intro name rule reached found
    obtain ⟨rule', found', follows⟩ := follows name reached
    obtain rfl : rule' = rule := Option.some.inj (found'.symm.trans found)
    exact follows
  refine ⟨making, ?_, fun name reached => ⟨?_, ?_⟩, fun name apart => ?_, follows, ?_, ?_, ?_,
    fun name reference reached => copied.order evaluated ruled.entry reached, ?_, ?_⟩
  · rw [← (copied.mem_iff.1 hfirst).2, value_eq]
  · refine Event.mem_subNode?.1 (?_ : ((key, name), (making name).value) ∈ _)
    rw [← chronicle.subNodes, ← same]
    exact List.mem_map.2 ⟨_, copied.mem reached, rfl⟩
  · exact copied.timesKept_eq_one keys reached
  · exact copied.timesKept_eq_zero keys apart
  · rw [steps key rules ruled]
    exact copied.exists_order
  · intro name rule kind reached found native
    have follows := made name rule reached found
    have steps := follows.steps
    rw [native] at steps
    exact ⟨steps, follows.native native (within _ (copied.mem reached))⟩
  · intro name rule op reached found folded
    obtain ⟨-, -, steps, run⟩ := made name rule reached found
    rw [folded] at steps run
    exact ⟨steps, run⟩
  · intro name other reached there different
    exact evaluated.apart (copied.mem reached) (copied.mem there)
      fun same => different (Prod.mk.inj (Prod.mk.inj same).1).2
  · intro name reached
    refine ⟨?_, within _ (copied.mem reached)⟩
    obtain ⟨rule, -, follows⟩ := follows name reached
    have grown := (rule.type.emission (making name).params).run_extends (making name).before
    rwa [follows.made] at grown

/-! ## Documents -/

/-- A diamond of sub-nodes, and one to the side of it. -/
def NodeRules.diamond : NodeRules := .ofList
  [("Color", ⟨.native .blendValue,
      [("color0", .node "Left"), ("color1", .node "Right"), ("weight", .link "Color")], none⟩),
    ("Left", ⟨.native .normalMap, [("color", .node "Base")], none⟩),
    ("Right", ⟨.fold .mul, [("color0", .node "Base"), ("color1", .input "Gamma")], none⟩),
    ("Base", ⟨.native .passthrough, [("color", .literal (.scalar .one))], none⟩),
    ("Spare", ⟨.native .emissive, [("color", .node "Base")], none⟩)]

namespace Document

/-- An output whose kind has an entry becomes a copy of the entry, whatever was asked before: of the
    sub-nodes that the one of the output refers to, each was evaluated once over all attempts, from the
    values of its sources, after those that it refers to. Questions do to the recording what their events
    tell, and over all attempts nothing was done for the output but what the evaluations did: one new
    node for each native sub-node. The same goes for every output that has come to a value in some call,
    whatever it was lowered for. -/
theorem rule_instantiated (d : Document) (table : RuleTable) (hc : table.check = .ok ()) {σ : WalkState}
    {events : List Event} (lived : Lived (d.setting table) σ events) :
    (∀ question : Question, σ.recording.Follow (Event.steps (question.events (d.setting table) σ))
      (Walk.ask (d.setting table) question σ).recording) ∧
    (∀ node output rules value σ', (d.setting table).Ruled ⟨node, output, [], d.name⟩ rules →
      on (Walk.output (d.setting table) node output) σ = (.ok value, σ') →
      ∃ making, Instantiated (d.setting table) σ'
        ((Question.output node output).events (d.setting table) σ ++ events)
        ⟨node, output, [], d.name⟩ rules value making) ∧
    ∀ key rules value, (d.setting table).Ruled key rules → σ.cache.get? key = some value →
      ∃ making, Instantiated (d.setting table) σ events key rules value making := by
  have regular : (d.setting table).Regular fun _ => False :=
    d.setting_regular hc fun _ _ _ _ _ _ _ _ no => no.elim
  have unstopped := d.unstopped hc
  refine ⟨fun question => question.follows _ (reached_iff_lived.2 ⟨_, lived⟩).idle.1,
    fun node output rules value σ' ruled run => ?_, fun key rules value ruled known =>
      lived.instantiated regular unstopped ruled known⟩
  have after := lived.ask (.output node output)
  have state : Walk.ask (d.setting table) (.output node output) σ = σ' := congrArg Prod.snd run
  rw [state] at after
  have outside : σ.scope = [] := by
    rw [WalkState.scope, (reached_iff_lived.2 ⟨_, lived⟩).idle.1, List.map_nil]
  have found : ((⟨node, output, σ.scope, d.name⟩ : Key), value) ∈
      (on (Walk.output (d.setting table) node output) σ).2.cache.outputs.entries :=
    Walk.mem_cache_of_lower (congrArg Prod.fst run)
  rw [run, outside] at found
  obtain ⟨_, chronicle⟩ := after.chronicle regular unstopped
  have distinct : σ'.cache.outputs.Distinct := chronicle.legible.outputs.nodup
  exact after.instantiated regular unstopped ruled (Memo.get?_of_mem distinct found)

/-- A node that a diamond of sub-nodes stands for. -/
def gamma : Document where
  name := "gamma"
  tree :=
    { nodes :=
        [⟨"Gamma", .gamma, [⟨"Color", none, false⟩, ⟨"Gamma", some (.scalar .one), false⟩],
          [⟨"Color", none, false⟩], .ofList [], false⟩]
      links := [] }
  groups := []

/-- The sub-node at the base of the diamond is evaluated once for two that refer to it, and the one to the
    side is not. Each of the four is one new node. -/
theorem rule_instantiated_diamond :
    let table : RuleTable := .ofList [(.gamma, .diamond)]
    let s := gamma.setting table
    let asked := Question.output ⟨.material, 0⟩ "Color"
    let key : Key := ⟨⟨.material, 0⟩, "Color", [], "gamma"⟩
    ∃ making, Instantiated s (Walk.ask s asked (.start .empty)) (asked.events s (.start .empty)) key
        .diamond (.node ⟨3⟩) making ∧
      Event.timesKept (asked.events s (.start .empty)) key "Base" = 1 ∧
      Event.timesKept (asked.events s (.start .empty)) key "Spare" = 0 ∧
      (Event.stepsFor key (asked.events s (.start .empty))).map
          (fun step => (step.operation, step.before.nodes.size)) =
        [(.create .passthrough [("color", .scalar .one)], 0),
          (.create .normalMap [("color", .node ⟨0⟩)], 1),
          (.create (.arithmetic .mul) [("color0", .node ⟨0⟩), ("color1", .scalar .one)], 2),
          (.create .blendValue [("color0", .node ⟨1⟩), ("color1", .node ⟨2⟩), ("weight", .unset)], 3)] := by
  intro table s asked key
  have accepted : table.check = .ok () := by decide +kernel
  have ruled : s.Ruled key .diamond :=
    ⟨by decide +kernel, by decide +kernel, by decide +kernel, by decide +kernel⟩
  have run : on (Walk.output s ⟨.material, 0⟩ "Color") (.start .empty) =
      (.ok (.node ⟨3⟩), Walk.ask s asked (.start .empty)) :=
    Prod.ext (by decide +kernel) rfl
  obtain ⟨making, instantiated⟩ := (rule_instantiated gamma table accepted (.start .empty)).2.1
    ⟨.material, 0⟩ "Color" .diamond _ _ ruled run
  rw [List.append_nil] at instantiated
  exact ⟨making, instantiated, by decide +kernel, by decide +kernel, by decide +kernel⟩

end Document

end MaterialLowering
