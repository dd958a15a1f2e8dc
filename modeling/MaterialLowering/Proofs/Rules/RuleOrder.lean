import Mathlib.Data.List.Perm.Subperm
import MaterialLowering.Proofs.Recordings.Growth

/-!
# The order of sub-nodes

The search that accepts an entry puts its sub-nodes in an order in which every one comes after those
that it refers to. So references can be followed to their ends, as often as there are sub-nodes.

Results:
* `NodeRules.search_spec`: what the search finds.
* `NodeRules.Accepted.induction`: an accepted entry has an induction along references.
* `RuleSite.subNode_unfold`: the bound on how often references are followed plays no role.
-/

namespace MaterialLowering

namespace SortedMap

variable {κ α : Type} [Ord κ] [Std.LawfulEqOrd κ] {m : SortedMap κ α} {key : κ}

theorem mem_entries_of_get? {value : α} (h : m.get? key = some value) : (key, value) ∈ m.entries := by
  obtain ⟨entries, _⟩ := m
  show (key, value) ∈ entries
  replace h : find? key entries = some value := h
  clear * - h
  induction entries with
  | nil => cases h
  | cons entry rest ih =>
    obtain ⟨key', value'⟩ := entry
    unfold find? at h
    split at h
    · rename_i heq
      obtain rfl : key = key' := by simpa using heq
      obtain rfl := Option.some.inj h
      exact List.mem_cons_self
    · exact List.mem_cons_of_mem _ (ih h)

theorem contains_iff_mem_keys : m.contains key = true ↔ key ∈ m.keys := by
  constructor
  · intro h
    obtain ⟨value, hv⟩ := Option.isSome_iff_exists.1 h
    exact List.mem_map_of_mem (mem_entries_of_get? hv)
  · obtain ⟨entries, _⟩ := m
    show key ∈ entries.map Prod.fst → (find? key entries).isSome = true
    intro h
    clear * - h
    induction entries with
    | nil => cases h
    | cons entry rest ih =>
      obtain ⟨key', value⟩ := entry
      unfold find?
      split
      · rfl
      · rename_i hne
        rcases List.mem_cons.1 h with rfl | h
        · simp at hne
        · exact ih h

end SortedMap

theorem HostKind.exists_of_not_mem_known {kind : HostKind} (h : kind ∉ HostKind.known) :
    ∃ id, kind = .unknown id := by
  cases kind with
  | unknown id => exact ⟨id, rfl⟩
  | _ => exact absurd (by decide) h

/-- Kinds have a rank of their own, but for those that are unknown. -/
instance : Std.LawfulEqOrd HostKind where
  eq_of_compare {a b} h := by
    have same : compare a.rank b.rank = .eq ∧ compare a.id b.id = .eq := compareLex_eq_eq.1 h
    have rank : HostKind.known.idxOf a = HostKind.known.idxOf b :=
      Std.LawfulEqOrd.eq_of_compare same.1
    have id : a.id = b.id := Std.LawfulEqOrd.eq_of_compare same.2
    by_cases ha : a ∈ HostKind.known
    · exact (List.idxOf_inj ha).1 rank
    · have hb : b ∉ HostKind.known := by
        rw [← List.idxOf_lt_length_iff, rank, List.idxOf_lt_length_iff] at ha
        exact ha
      obtain ⟨_, rfl⟩ := HostKind.exists_of_not_mem_known ha
      obtain ⟨_, rfl⟩ := HostKind.exists_of_not_mem_known hb
      exact congrArg _ id

namespace NodeRules

variable {rules : NodeRules}

/-- Every sub-node comes after those that it refers to, the last one first. -/
def Ordered (rules : NodeRules) : List String → Prop
  | [] => True
  | name :: rest => (∀ reference ∈ rules.references name, reference ∈ rest) ∧ rules.Ordered rest

/-- What a search is done with: sub-nodes in order, none of them on the path. -/
structure Searched (rules : NodeRules) (path done : List String) : Prop where
  ordered : rules.Ordered done
  nodup : done.Nodup
  avoids : ∀ name ∈ path, name ∉ done
  known : ∀ name ∈ done, rules.contains name = true

theorem Searched.length_le {path done : List String} (h : rules.Searched path done) :
    done.length ≤ rules.size := by
  have subset : done ⊆ rules.keys := fun name hm => SortedMap.contains_iff_mem_keys.1 (h.known name hm)
  simpa [SortedMap.keys, SortedMap.size] using (h.nodup.subperm subset).length_le

/-- The references of an entry are sub-nodes of the entry. -/
def Closed (rules : NodeRules) : Prop :=
  ∀ name, ∀ reference ∈ rules.references name, rules.contains reference = true

/-- Searches from several sub-nodes, one after another. -/
theorem foldlM_searched {path : List String} {search : List String → String → Except String (List String)}
    (step : ∀ {done done' : List String} {name : String}, search done name = .ok done' →
      rules.Searched path done → rules.contains name = true →
      rules.Searched path done' ∧ done ⊆ done' ∧ name ∈ done')
    {names done done' : List String} (known : ∀ name ∈ names, rules.contains name = true)
    (h : names.foldlM search done = .ok done') (hd : rules.Searched path done) :
    rules.Searched path done' ∧ done ⊆ done' ∧ names ⊆ done' := by
  induction names generalizing done with
  | nil =>
    cases h
    exact ⟨hd, List.Subset.refl _, List.nil_subset _⟩
  | cons name rest ih =>
    rw [List.foldlM_cons] at h
    cases hf : search done name with
    | error e => rw [hf] at h; cases h
    | ok found =>
      rw [hf] at h
      obtain ⟨hs, hsub, hm⟩ := step hf hd (known name List.mem_cons_self)
      obtain ⟨hs', hsub', hrest⟩ := ih (fun other ho => known other (List.mem_cons_of_mem _ ho)) h hs
      exact ⟨hs', List.Subset.trans hsub hsub', List.cons_subset.2 ⟨hsub' hm, hrest⟩⟩

theorem search_spec (closed : rules.Closed) {fuel : Nat} {path done done' : List String}
    {name : String} (h : rules.search fuel path done name = .ok done')
    (hd : rules.Searched path done) (hn : rules.contains name = true) :
    rules.Searched path done' ∧ done ⊆ done' ∧ name ∈ done' := by
  induction fuel generalizing path done done' name with
  | zero => cases h
  | succ fuel ih =>
    unfold search at h
    by_cases hdone : name ∈ done
    · rw [if_pos hdone] at h
      cases h
      exact ⟨hd, List.Subset.refl _, hdone⟩
    by_cases hpath : name ∈ path
    · rw [if_neg hdone, if_pos hpath] at h
      cases h
    rw [if_neg hdone, if_neg hpath] at h
    cases hf : (rules.references name).foldlM (rules.search fuel (name :: path)) done with
    | error e => rw [hf] at h; cases h
    | ok found =>
      rw [hf] at h
      obtain rfl : name :: found = done' := Except.ok.inj h
      have begun : rules.Searched (name :: path) done :=
        ⟨hd.ordered, hd.nodup, List.forall_mem_cons.2 ⟨hdone, hd.avoids⟩, hd.known⟩
      obtain ⟨hs, hsub, hrefs⟩ := foldlM_searched ih (closed name) hf begun
      have avoids := List.forall_mem_cons.1 hs.avoids
      refine ⟨⟨⟨fun _ hr => hrefs hr, hs.ordered⟩, List.nodup_cons.2 ⟨avoids.1, hs.nodup⟩, ?_,
        List.forall_mem_cons.2 ⟨hn, hs.known⟩⟩, List.Subset.trans hsub (List.subset_cons_self _ _),
        List.mem_cons_self⟩
      intro other ho hm
      rcases List.mem_cons.1 hm with rfl | hm
      · exact hpath ho
      · exact avoids.2 other ho hm

/-- The entry is accepted. -/
def Accepted (rules : NodeRules) : Prop := ∃ kind, rules.check kind = .ok ()

namespace Accepted

theorem closed (h : rules.Accepted) : rules.Closed := by
  obtain ⟨kind, h⟩ := h
  have none : rules.danglingReference? = none := by
    unfold check at h
    split at h
    · cases h
    · assumption
  intro name reference hr
  unfold references at hr
  cases hg : rules.get? name with
  | none => simp [hg] at hr
  | some rule =>
    simp only [hg, Option.map_some, Option.getD_some] at hr
    unfold danglingReference? at none
    have first := List.findSome?_eq_none_iff.1 none _ (SortedMap.mem_entries_of_get? hg)
    simp only [Option.map_eq_none_iff, List.find?_eq_none] at first
    simpa using first reference hr

/-- An accepted entry has all its sub-nodes in order. -/
theorem exists_order (h : rules.Accepted) :
    ∃ done, rules.Searched [] done ∧ ∀ name, rules.contains name = true → name ∈ done := by
  have closed := h.closed
  obtain ⟨kind, h⟩ := h
  unfold check at h
  split at h
  · cases h
  split at h
  · rename_i done hs
    obtain ⟨searched, -, all⟩ := foldlM_searched (search_spec closed)
      (fun name hn => SortedMap.contains_iff_mem_keys.2 hn) hs ⟨trivial, .nil, by simp, by simp⟩
    exact ⟨done, searched, fun name hn => all (SortedMap.contains_iff_mem_keys.1 hn)⟩
  · cases h

/-- What holds of a sub-node when it holds of those that it refers to holds of all. -/
theorem induction (h : rules.Accepted) {motive : String → Prop}
    (step : ∀ name, rules.contains name = true →
      (∀ reference ∈ rules.references name, motive reference) → motive name)
    (name : String) (hn : rules.contains name = true) : motive name := by
  obtain ⟨done, searched, all⟩ := h.exists_order
  obtain ⟨ordered, -, -, known⟩ := searched
  have every : ∀ name ∈ done, motive name := by
    clear all
    induction done with
    | nil => simp
    | cons first rest ih =>
      have earlier := ih ordered.2 fun name hm => known name (List.mem_cons_of_mem _ hm)
      intro name hm
      rcases List.mem_cons.1 hm with rfl | hm
      · exact step name (known name List.mem_cons_self) fun reference hr =>
          earlier reference (ordered.1 reference hr)
      · exact earlier name hm
  exact every name (all name hn)

end Accepted

end NodeRules

/-- The entries of an accepted table are accepted. -/
theorem RuleTable.accepted_of_check {table : RuleTable} (h : table.check = .ok ()) {kind : HostKind}
    {rules : NodeRules} (hr : table.get? kind = some rules) : rules.Accepted := by
  obtain ⟨entries, _⟩ := table
  replace h : entries.forM (fun e => e.2.check e.1) = .ok () := h
  replace hr : SortedMap.find? kind entries = some rules := hr
  clear * - h hr
  induction entries with
  | nil => cases hr
  | cons entry rest ih =>
    obtain ⟨kind', rules'⟩ := entry
    change (do rules'.check kind'; rest.forM fun e => e.2.check e.1) = Except.ok () at h
    cases hc : rules'.check kind' with
    | error e =>
      rw [hc] at h
      cases h
    | ok =>
      rw [hc] at h
      unfold SortedMap.find? at hr
      split at hr
      · obtain rfl := Option.some.inj hr
        exact ⟨kind', hc⟩
      · exact ih h hr

/-! ## Evaluation -/

namespace RuleSite

variable {site : RuleSite} {subNode subNode' : String → Plan Value}

/-- The sub-nodes that a sub-node of an entry refers to. -/
theorem mem_references {rules : NodeRules} {name : String} {rule : SubNodeRule}
    (h : rules.get? name = some rule) {param : String × ValueSource} (hp : param ∈ rule.params)
    {reference : String} (hr : param.2.reference? = some reference) :
    reference ∈ rules.references name := by
  simp only [NodeRules.references, h, Option.map_some, Option.getD_some]
  exact List.mem_filterMap.2 ⟨param, hp, hr⟩

theorem params_congr {params : List (String × ValueSource)}
    (h : ∀ reference ∈ params.filterMap fun (_, source) => source.reference?,
      subNode reference = subNode' reference) :
    site.params subNode params = site.params subNode' params := by
  induction params with
  | nil => rfl
  | cons param rest ih =>
    obtain ⟨name, source⟩ := param
    have same : site.source subNode source = site.source subNode' source := by
      cases source with
      | node reference => exact h reference (by simp [ValueSource.reference?])
      | _ => rfl
    have others : site.params subNode rest = site.params subNode' rest :=
      ih fun reference hr => h reference (by
        rw [List.filterMap_cons]
        split
        · exact hr
        · exact List.mem_cons_of_mem _ hr)
    simp only [params, same, others]

theorem fresh_congr {name : String}
    (h : ∀ reference ∈ site.rules.references name, subNode reference = subNode' reference) :
    site.fresh subNode name = site.fresh subNode' name := by
  unfold fresh
  cases hg : site.rules.get? name with
  | none => rfl
  | some rule =>
    have same : site.params subNode rule.params = site.params subNode' rule.params :=
      params_congr fun reference hr => h reference (by
        simpa [NodeRules.references, hg, SubNodeRule.references] using hr)
    simp only [same]

/-- A sub-node that was not evaluated before: its warning, its parameters, what it becomes, and what
    is kept of it. -/
theorem fresh_eq {name : String} {rule : SubNodeRule} (h : site.rules.get? name = some rule) :
    site.fresh subNode name =
      match rule.warn with
      | some message => .report (.ruleWarning message (site.graph.label site.node))
        ((site.params subNode rule.params >>= rule.type.plan) >>= fun value =>
          .remember site.node site.output name value (.done value))
      | none => (site.params subNode rule.params >>= rule.type.plan) >>= fun value =>
          .remember site.node site.output name value (.done value) := by
  unfold fresh
  rw [h]
  obtain ⟨type, params, warn⟩ := rule
  have assoc := Plan.bind_assoc (site.params subNode params) type.plan fun value =>
    .remember site.node site.output name value (.done value)
  cases warn with
  | none => exact assoc.symm
  | some message => exact congrArg (Plan.report _) assoc.symm

/-- Once references are followed to their ends it does not matter how often they could have been. -/
theorem subNode_eq_of_ordered {done : List String} (ordered : site.rules.Ordered done) {name : String}
    (hn : name ∈ done) {fuel fuel' : Nat} (hf : done.length ≤ fuel) (hf' : done.length ≤ fuel') :
    site.subNode fuel name = site.subNode fuel' name := by
  induction done generalizing name fuel fuel' with
  | nil => cases hn
  | cons first rest ih =>
    rw [List.length_cons] at hf hf'
    rcases List.mem_cons.1 hn with rfl | hn
    · obtain ⟨fuel, rfl⟩ : ∃ n, fuel = n + 1 := ⟨fuel - 1, by omega⟩
      obtain ⟨fuel', rfl⟩ : ∃ n, fuel' = n + 1 := ⟨fuel' - 1, by omega⟩
      have same : site.fresh (site.subNode fuel) name = site.fresh (site.subNode fuel') name :=
        fresh_congr fun reference hr => ih ordered.2 (ordered.1 reference hr) (by omega) (by omega)
      simp only [subNode, same]
    · exact ih ordered.2 hn (by omega) (by omega)

/-- A sub-node, after those that it refers to. -/
theorem subNode_unfold (h : site.rules.Accepted) (name : String) :
    site.subNode (site.rules.size + 1) name =
      .known site.node site.output name fun
        | some value => .done value
        | none => site.fresh (site.subNode (site.rules.size + 1)) name := by
  obtain ⟨done, searched, all⟩ := h.exists_order
  have length := searched.length_le
  have same : site.fresh (site.subNode site.rules.size) name =
      site.fresh (site.subNode (site.rules.size + 1)) name :=
    fresh_congr fun reference hr => subNode_eq_of_ordered searched.ordered
      (all reference (h.closed name reference hr)) length (Nat.le_succ_of_le length)
  rw [← same]
  rfl

end RuleSite

end MaterialLowering
