import Mathlib.Order.WellFounded
import MaterialLowering.Proofs.Texts.RuleRoundTrip
import MaterialLowering.Proofs.Walks.Events

/-!
# The check of rule tables is exact

A table is accepted exactly if its references lead somewhere and never back to where they began, and
a fault that is named is there. The search for cycles needs no bound: followed without one, it
comes to an end on every entry, and to the same. What is accepted never fails over its rules.

Main definitions:
* `NodeRules.Searches`: the search, without a bound on how deep it goes.
* `RuleError.IsIn`: the fault that an error names is in a table.

Results:
* `NodeRules.searches_iff`: the search comes to an end.
* `NodeRules.Searches.cyclic`: a sub-node at which a search stops refers to itself, by others.
* `NodeRules.check_eq_ok`: the entries that are accepted.
* `Walk.lower_rules`: no output fails over the rules of an accepted table.
* `RuleTable.check_exact`: all of it, for tables.
-/

namespace MaterialLowering

open Walk (on)
open Relation (TransGen)

namespace SortedMap

variable {κ α : Type} [Ord κ] [Std.TransOrd κ] {m : SortedMap κ α} {key : κ} {value : α}

theorem get?_of_mem_entries (h : (key, value) ∈ m.entries) : m.get? key = some value := by
  obtain ⟨entries, sorted⟩ := m
  show find? key entries = some value
  replace h : (key, value) ∈ entries := h
  induction entries with
  | nil => cases h
  | cons entry rest ih =>
    obtain ⟨first, later⟩ := List.pairwise_cons.1 sorted
    unfold find?
    rcases List.mem_cons.1 h with rfl | h
    · rw [if_pos Std.ReflCmp.compare_self]
    · have above : compare key entry.1 = .gt := Std.OrientedCmp.gt_of_lt (first _ h)
      rw [if_neg (by rw [above]; decide)]
      exact ih later h

end SortedMap

namespace NodeRules

variable {rules : NodeRules} {path done names : List String} {name culprit : String}
  {result : Except String (List String)}

/-- A sub-node refers to another one. -/
def Refers (rules : NodeRules) (name reference : String) : Prop := reference ∈ rules.references name

/-- No sub-node refers to itself, not even by others. -/
def Acyclic (rules : NodeRules) : Prop := ∀ name, ¬ TransGen rules.Refers name name

/-- Only sub-nodes refer to anything. -/
theorem Refers.contains {reference : String} (h : rules.Refers name reference) :
    rules.contains name = true := by
  unfold Refers references at h
  unfold SortedMap.contains
  cases hr : rules.get? name with
  | none => simp [hr] at h
  | some rule => rfl

/-! ## The search without a bound -/

/-- The depth-first search from sub-nodes, one after another, and what it comes to. Nothing bounds how
    deep it goes: that it comes to anything means that it ends. -/
inductive Searches (rules : NodeRules) :
    List String → List String → List String → Except String (List String) → Prop
  | nil {path done : List String} : Searches rules path done [] (.ok done)
  /-- A sub-node that the search is done with is passed over. -/
  | skip {path done names : List String} {name : String} {result : Except String (List String)}
      (known : name ∈ done) (rest : Searches rules path done names result) :
      Searches rules path done (name :: names) result
  /-- A sub-node that it was reached by ends the search. -/
  | cycle {path done names : List String} {name : String} (new : name ∉ done)
      (reached : name ∈ path) : Searches rules path done (name :: names) (.error name)
  /-- Any other sub-node is searched, -/
  | enter {path done found names : List String} {name : String}
      {result : Except String (List String)} (new : name ∉ done) (fresh : name ∉ path)
      (inner : Searches rules (name :: path) done (rules.references name) (.ok found))
      (rest : Searches rules path (name :: found) names result) :
      Searches rules path done (name :: names) result
  /-- which may end the search. -/
  | stop {path done names : List String} {name culprit : String} (new : name ∉ done)
      (fresh : name ∉ path)
      (inner : Searches rules (name :: path) done (rules.references name) (.error culprit)) :
      Searches rules path done (name :: names) (.error culprit)

namespace Searches

/-- A search comes to one thing. -/
theorem unique {other : Except String (List String)} (h : rules.Searches path done names result)
    (h' : rules.Searches path done names other) : result = other := by
  induction h generalizing other with
  | nil => cases h'; rfl
  | skip known _ ih =>
    cases h' with
    | skip _ rest => exact ih rest
    | cycle new | enter new | stop new => exact absurd known new
  | cycle new reached =>
    cases h' with
    | skip known => exact absurd known new
    | cycle => rfl
    | enter _ fresh | stop _ fresh => exact absurd reached fresh
  | enter new fresh _ _ ihInner ihRest =>
    cases h' with
    | skip known => exact absurd known new
    | cycle _ reached => exact absurd reached fresh
    | enter _ _ inner rest =>
      cases ihInner inner
      exact ihRest rest
    | stop _ _ inner => cases ihInner inner
  | stop new fresh _ ihInner =>
    cases h' with
    | skip known => exact absurd known new
    | cycle _ reached => exact absurd reached fresh
    | enter _ _ inner => cases ihInner inner
    | stop _ _ inner =>
      cases ihInner inner
      rfl

/-- Every sub-node on the path refers to those that are searched, so the one at which the search stops
    refers to itself. -/
theorem cyclic (h : rules.Searches path done names (.error culprit))
    (leads : ∀ passed ∈ path, ∀ name ∈ names, TransGen rules.Refers passed name) :
    TransGen rules.Refers culprit culprit := by
  generalize hr : Except.error culprit = result at h
  induction h with
  | nil => cases hr
  | skip _ _ ih =>
    exact ih (fun passed hp name hn => leads passed hp name (List.mem_cons_of_mem _ hn)) hr
  | cycle _ reached =>
    cases hr
    exact leads _ reached _ List.mem_cons_self
  | enter _ _ _ _ _ ih =>
    exact ih (fun passed hp name hn => leads passed hp name (List.mem_cons_of_mem _ hn)) hr
  | @stop path _ _ name _ _ _ _ ih =>
    refine ih (fun passed hp reference href => ?_) hr
    have last : rules.Refers name reference := href
    rcases List.mem_cons.1 hp with rfl | hp
    · exact .single last
    · exact .tail (leads passed hp name List.mem_cons_self) last

end Searches

/-- The search that may go deep enough is the one that may go as deep as it likes. A path holds no
    sub-node twice, and nothing but sub-nodes of the entry. -/
theorem searches_of_fuel {fuel : Nat} (nodup : path.Nodup) (inside : path ⊆ rules.keys)
    (enough : rules.size < fuel + path.length) (done names : List String) :
    rules.Searches path done names (names.foldlM (rules.search fuel path) done) := by
  have short : ∀ path : List String, path.Nodup → path ⊆ rules.keys → path.length ≤ rules.size :=
    fun path nodup inside => by
      simpa [SortedMap.keys, SortedMap.size] using (nodup.subperm inside).length_le
  induction fuel generalizing path done names with
  | zero => exact absurd (short path nodup inside) (by omega)
  | succ fuel ihFuel =>
    induction names generalizing done with
    | nil => exact .nil
    | cons name names ihNames =>
      rw [List.foldlM_cons, search]
      by_cases known : name ∈ done
      · rw [if_pos known]
        exact .skip known (ihNames done)
      by_cases reached : name ∈ path
      · rw [if_neg known, if_pos reached]
        exact .cycle known reached
      rw [if_neg known, if_neg reached]
      have inner : rules.Searches (name :: path) done (rules.references name)
          ((rules.references name).foldlM (rules.search fuel (name :: path)) done) := by
        by_cases there : rules.contains name = true
        · refine ihFuel (List.nodup_cons.2 ⟨reached, nodup⟩)
            (List.cons_subset.2 ⟨SortedMap.contains_iff_mem_keys.1 there, inside⟩) ?_ _ _
          rw [List.length_cons]
          omega
        -- What is no sub-node refers to nothing.
        · have none : rules.references name = [] :=
            List.eq_nil_iff_forall_not_mem.2 fun reference href => there (Refers.contains href)
          rw [none]
          exact .nil
      generalize (rules.references name).foldlM (rules.search fuel (name :: path)) done = run at inner ⊢
      cases run with
      | error culprit => exact .stop known reached inner
      | ok found => exact .enter known reached inner (ihNames (name :: found))

/-- The search of an entry comes to an end, and to this. -/
theorem searches_iff : rules.Searches [] [] rules.keys result ↔ result = rules.searchAll := by
  have ends : rules.Searches [] [] rules.keys rules.searchAll :=
    searches_of_fuel .nil (List.nil_subset _) (Nat.lt_succ_self _) [] rules.keys
  exact ⟨fun h => h.unique ends, fun h => h ▸ ends⟩

/-! ## Entries -/

/-- Where the search stops is a cycle. -/
theorem cyclic_of_searchAll (h : rules.searchAll = .error culprit) :
    TransGen rules.Refers culprit culprit :=
  (searches_iff.2 h.symm).cyclic fun _ hp => by cases hp

/-- References of an accepted entry come to an end. -/
theorem Accepted.acyclic (h : rules.Accepted) : rules.Acyclic := by
  have ends : WellFounded fun reference name => rules.Refers name reference := by
    refine ⟨fun name => ?_⟩
    by_cases there : rules.contains name = true
    · exact h.induction (fun name _ earlier => ⟨name, earlier⟩) name there
    · exact ⟨name, fun _ refers => absurd refers.contains there⟩
  intro name cycle
  exact ends.transGen.irrefl.irrefl name (Relation.transGen_swap.2 cycle)

theorem danglingReference?_eq_none : rules.danglingReference? = none ↔ rules.Closed := by
  unfold danglingReference?
  rw [List.findSome?_eq_none_iff]
  constructor
  · intro none name reference href
    unfold references at href
    cases hr : rules.get? name with
    | none => simp [hr] at href
    | some rule =>
      have here := none _ (SortedMap.mem_entries_of_get? hr)
      simp only [Option.map_eq_none_iff, List.find?_eq_none] at here
      simp only [hr, Option.map_some, Option.getD_some] at href
      simpa using here reference href
  · rintro closed ⟨name, rule⟩ he
    have hr := SortedMap.get?_of_mem_entries he
    simp only [Option.map_eq_none_iff, List.find?_eq_none]
    intro reference href
    simpa using closed name reference (by simpa [references, hr] using href)

/-- The sub-node that makes a dangling reference, and the parameter that it makes it with. -/
theorem exists_of_danglingReference? {reference : String}
    (h : rules.danglingReference? = some (name, reference)) :
    ∃ rule param, rules.get? name = some rule ∧ (param, .node reference) ∈ rule.params ∧
      rules.contains reference = false := by
  obtain ⟨⟨_, rule⟩, he, found⟩ := List.exists_of_findSome?_eq_some h
  obtain ⟨_, first, same⟩ := Option.map_eq_some_iff.1 found
  cases same
  obtain ⟨⟨param, source⟩, hp, refers⟩ := List.mem_filterMap.1 (List.mem_of_find?_eq_some first)
  have dangling := List.find?_some first
  cases source with
  | node other =>
    cases refers
    exact ⟨rule, param, SortedMap.get?_of_mem_entries he, hp, by simpa using dangling⟩
  | _ => cases refers

/-- An entry is accepted if its references lead to sub-nodes, and not back. -/
theorem check_eq_ok {kind : HostKind} : rules.check kind = .ok () ↔ rules.Closed ∧ rules.Acyclic := by
  constructor
  · intro h
    have accepted : rules.Accepted := ⟨kind, h⟩
    exact ⟨accepted.closed, accepted.acyclic⟩
  · rintro ⟨closed, acyclic⟩
    unfold check
    rw [danglingReference?_eq_none.2 closed]
    cases found : rules.searchAll with
    | ok => rfl
    | error culprit => exact absurd (cyclic_of_searchAll found) (acyclic culprit)

end NodeRules

/-! ## Tables -/

/-- The fault that an error names is in the table. What is not about a table is in none. -/
def RuleError.IsIn (table : RuleTable) : RuleError → Prop
  | .unknownSubNode id name reference =>
    ∃ kind rules rule param, kind.id = id ∧ table.get? kind = some rules ∧
      rules.get? name = some rule ∧ (param, .node reference) ∈ rule.params ∧
      rules.contains reference = false
  | .cyclicSubNodes id name =>
    ∃ kind rules, kind.id = id ∧ table.get? kind = some rules ∧ rules.contains name = true ∧
      TransGen rules.Refers name name
  | .unreadable _ | .refused _ => False

theorem NodeRules.isIn_of_check {table : RuleTable} {kind : HostKind} {rules : NodeRules}
    {fault : RuleError} (hr : table.get? kind = some rules) (h : rules.check kind = .error fault) :
    fault.IsIn table := by
  unfold check at h
  cases dangling : rules.danglingReference? with
  | some found =>
    rw [dangling] at h
    cases h
    obtain ⟨rule, param, here⟩ := exists_of_danglingReference? dangling
    exact ⟨kind, rules, rule, param, rfl, hr, here⟩
  | none =>
    rw [dangling] at h
    cases found : rules.searchAll with
    | ok => rw [found] at h; cases h
    | error culprit =>
      rw [found] at h
      cases h
      have cycle := cyclic_of_searchAll found
      obtain ⟨_, first, -⟩ := Relation.TransGen.head'_iff.1 cycle
      exact ⟨kind, rules, rfl, hr, first.contains, cycle⟩

section

variable {α ε : Type} {f : α → Except ε Unit} {l : List α}

theorem forM_cons_eq (a : α) : (a :: l).forM f = f a >>= fun _ => l.forM f := rfl

theorem forM_eq_ok : l.forM f = .ok () ↔ ∀ a ∈ l, f a = .ok () := by
  induction l with
  | nil => exact ⟨fun _ _ h => (by cases h), fun _ => rfl⟩
  | cons a l ih =>
    rw [forM_cons_eq, List.forall_mem_cons, ← ih]
    cases f a with
    | error e => exact ⟨fun h => (by cases h), fun h => (by cases h.1)⟩
    | ok => exact ⟨fun h => ⟨rfl, h⟩, fun h => h.2⟩

theorem exists_of_forM_eq_error {e : ε} (h : l.forM f = .error e) : ∃ a ∈ l, f a = .error e := by
  induction l with
  | nil => cases h
  | cons a l ih =>
    rw [forM_cons_eq] at h
    cases ha : f a with
    | error other =>
      rw [ha] at h
      cases h
      exact ⟨a, List.mem_cons_self, ha⟩
    | ok =>
      rw [ha] at h
      obtain ⟨b, hb, failed⟩ := ih h
      exact ⟨b, List.mem_cons_of_mem _ hb, failed⟩

end

/-! ## What an accepted table rules out -/

/-- Whatever a walk came through, no output fails over the rules of an accepted table. -/
theorem Walk.lower_rules {s : Setting} (accepted : s.table.check = .ok ()) {depth : Nat} {node : NodeId}
    {output : String} {σ : WalkState} {fault : RuleError} :
    (on (Walk.lower s depth node output) σ).1 ≠ .error (.rules fault) := by
  have entries : ∀ kind rules, s.table.get? kind = some rules → rules.Accepted :=
    fun _ _ => RuleTable.accepted_of_check accepted
  induction depth generalizing node output σ with
  | zero => intro h; cases h
  | succ depth ih =>
    have lowering := Walk.lowering s depth node output σ
    generalize on (Walk.lower s (depth + 1) node output) σ = run,
      Walk.events s (depth + 1) node output σ = told at lowering ⊢
    cases lowering with
    | known | waiting => intro h; cases h
    | @new key result σ' _ _ _ ran =>
      intro h
      have failed : (on (Walk.expand s (Walk.lower s depth) node output)
          { σ with active := key :: σ.active }).1 = .error (.rules fault) := by rw [ran]; exact h
      rcases (Walk.expansion entries node output _).error failed with
        own | ⟨_, _, _, _, inner⟩ | ⟨_, _, _, _, other⟩
      · exact own
      · exact ih inner
      · cases other

namespace RuleTable

theorem check_eq_ok {table : RuleTable} : table.check = .ok () ↔
    ∀ kind rules, table.get? kind = some rules → rules.Closed ∧ rules.Acyclic := by
  unfold check
  rw [forM_eq_ok]
  constructor
  · intro all kind rules hr
    exact NodeRules.check_eq_ok.1 (all _ (SortedMap.mem_entries_of_get? hr))
  · rintro all ⟨kind, rules⟩ he
    exact NodeRules.check_eq_ok.2 (all kind rules (SortedMap.get?_of_mem_entries he))

theorem isIn_of_check {table : RuleTable} {fault : RuleError} (h : table.check = .error fault) :
    fault.IsIn table := by
  obtain ⟨⟨kind, rules⟩, he, failed⟩ := exists_of_forM_eq_error h
  exact NodeRules.isIn_of_check (SortedMap.get?_of_mem_entries he) failed

/-- The check of tables is exact. It accepts those in which every reference leads to a sub-node of its
    entry and none leads back by others; a fault that it names is in the table; its search comes to
    an end on every entry, without a bound; and with a table that was read from a text, no output of
    any document ever fails over rules, whatever the walk came through. -/
theorem check_exact (table : RuleTable) :
    (table.check = .ok () ↔
      ∀ kind rules, table.get? kind = some rules → rules.Closed ∧ rules.Acyclic) ∧
    (∀ fault, table.check = .error fault → fault.IsIn table) ∧
    (∀ kind rules, table.get? kind = some rules →
      ∀ result, rules.Searches [] [] rules.keys result ↔ result = rules.searchAll) ∧
    ∀ text, ofText text = .ok table → ∀ (d : Document) node output σ fault,
      (on (Walk.output (d.setting table) node output) σ).1 ≠ .error (.rules fault) := by
  refine ⟨check_eq_ok, fun _ => isIn_of_check, fun _ _ _ _ => NodeRules.searches_iff, ?_⟩
  intro text read d node output σ fault
  obtain ⟨-, -, -, accepted⟩ := accepted_of_ofText read
  exact Walk.lower_rules (s := d.setting table) accepted

/-- A sub-node that refers twice to one, which refers to another sub-node. -/
def chained (last : ValueSource) : RuleTable := .ofList [(.gamma, .ofList
  [("Color", ⟨.fold .add, [("color0", .node "Once"), ("color1", .node "Once")], none⟩),
    ("Once", ⟨.fold .mul, [("color0", .node "Last"), ("color1", .input "Gamma")], none⟩),
    ("Last", ⟨.fold .pow, [("color0", .link "Color"), ("color1", last)], none⟩)])]

/-- The chain is read from its text, and no output fails over it. Where its end refers to what leads to
    it or to nothing, it is not. -/
theorem check_exact_chained :
    (∀ (d : Document) node output σ fault,
      (on (Walk.output (d.setting (chained (.input "Gamma"))) node output) σ).1 ≠
        .error (.rules fault)) ∧
    (RuleError.cyclicSubNodes "ShaderNodeGamma" "Once").IsIn (chained (.node "Once")) ∧
    (RuleError.unknownSubNode "ShaderNodeGamma" "Last" "First").IsIn (chained (.node "First")) := by
  have read : ofText (chained (.input "Gamma")).toText = .ok (chained (.input "Gamma")) := by
    rw [ofText_toText (fun e he => ⟨"ShaderNodeGamma", by
      obtain rfl : e = _ := List.mem_singleton.1 he
      rfl⟩) (by decide +kernel) (by decide +kernel) (by decide +kernel) (by decide +kernel)]
    exact congrArg _ (folded_eq_iff.2 (by decide +kernel))
  exact ⟨(check_exact (chained (.input "Gamma"))).2.2.2 _ read,
    (check_exact (chained (.node "Once"))).2.1 _ (by decide +kernel),
    (check_exact (chained (.node "First"))).2.1 _ (by decide +kernel)⟩

end RuleTable

end MaterialLowering
