import MaterialLowering.Proofs.Arithmetic.Meaning
import MaterialLowering.Proofs.Walks.Transparency

/-!
# The meaning of native nodes

Arithmetic nodes, nodes that blend values and lookups have lanes, once the lookups have some. A
parameter means the lanes that it is set to, or those of the node that it is wired to.

Results:
* `Recording.Means.unique`: a parameter has one meaning.
* `Recording.Means.mono`: what is added to a recording leaves meanings as they are.
* `Recording.Means.of_same`: parameters that unfold to one tree mean the same.
* `Recording.means_created`: what a new node means.
-/

namespace MaterialLowering

/-! ## Kinds -/

namespace NativeKind

/-- The parameters that a node of the kind computes with. -/
def inputs : NativeKind → List String
  | .arithmetic op =>
    match op.arity with
    | 1 => ["color0"]
    | 3 => ["color0", "color1", "color2"]
    | _ => ["color0", "color1"]
  | .blendValue => ["weight", "color0", "color1"]
  | _ => []

/-- The lanes of a node, given those of its parameters, if the kind computes any. -/
def compute? (quantities : Lookup → Lanes) (lanes : String → Lanes) : NativeKind → Option Lanes
  | .arithmetic op =>
    match op.arity with
    | 1 => some (Folding.unary op (lanes "color0"))
    | 3 => some (Folding.ternary (lanes "color0") (lanes "color1") (lanes "color2"))
    | _ => some (Folding.binary op (lanes "color0") (lanes "color1"))
  | .blendValue => some (Lanes.mix (lanes "weight") (lanes "color0") (lanes "color1"))
  | .inputLookup quantity => some (quantities quantity)
  | _ => none

/-- A node looks at its inputs only. -/
theorem compute?_congr {quantities : Lookup → Lanes} {lanes lanes' : String → Lanes} (kind : NativeKind)
    (h : ∀ name ∈ kind.inputs, lanes name = lanes' name) :
    kind.compute? quantities lanes = kind.compute? quantities lanes' := by
  unfold inputs at h
  unfold compute?
  cases kind with
  | arithmetic op =>
    dsimp only at h ⊢
    generalize op.arity = arity at h ⊢
    split at h <;> simp_all
  | blendValue => simp_all
  | _ => rfl

end NativeKind

/-! ## Parameters -/

instance : Inhabited Param := ⟨.constant .zero⟩

namespace Recording

/-- The lanes of a parameter, where lookups have the given ones. -/
inductive Means (r : Recording) (quantities : Lookup → Lanes) : Param → Lanes → Prop
  | constant (lanes : Lanes) : Means r quantities (.constant lanes) lanes
  | node {a : NodeHandle} {n : RecordedNode} {params : String → Param} {lanes : String → Lanes}
      {result : Lanes} (ha : r.node? a = some n)
      (set : ∀ name ∈ n.kind.inputs, n.params.get? name = some (params name))
      (means : ∀ name ∈ n.kind.inputs, Means r quantities (params name) (lanes name))
      (computed : n.kind.compute? quantities lanes = some result) :
      Means r quantities (.node a) result

variable {r r' q : Recording} {quantities : Lookup → Lanes} {p p' : Param} {lanes lanes' : Lanes}

theorem Means.unique (h : r.Means quantities p lanes) (h' : r.Means quantities p lanes') :
    lanes = lanes' := by
  induction h generalizing lanes' with
  | constant => cases h'; rfl
  | @node a n params inner result ha set _ computed ih =>
    cases h' with
    | @node _ n' params' inner' _ ha' set' means' computed' =>
      obtain rfl : n = n' := Option.some.inj (ha.symm.trans ha')
      have same : ∀ name ∈ n.kind.inputs, inner name = inner' name := by
        intro name hn
        have hp : params name = params' name :=
          Option.some.inj ((set name hn).symm.trans (set' name hn))
        exact ih name hn (hp ▸ means' name hn)
      rw [n.kind.compute?_congr same] at computed
      exact Option.some.inj (computed.symm.trans computed')

theorem Means.mono (h : r.Means quantities p lanes) (hr : r.Extends r') :
    r'.Means quantities p lanes := by
  induction h with
  | constant lanes => exact .constant lanes
  | node ha set _ computed ih => exact .node (hr.node?_eq ha) set ih computed

theorem Means.of_same (h : q.Means quantities p' lanes) (hs : Same r q p p') :
    r.Means quantities p lanes := by
  induction h generalizing p with
  | constant lanes =>
    cases hs
    exact .constant lanes
  | @node b m params inner result hb set _ computed ih =>
    cases hs with
    | @node a _ n m' ha hb' kind names related =>
      obtain rfl : m = m' := Option.some.inj (hb.symm.trans hb')
      have given : ∀ name ∈ n.kind.inputs, ∃ p, n.params.get? name = some p := by
        intro name hn
        rw [← Option.isSome_iff_exists, names name, set name (kind ▸ hn)]
        rfl
      choose! own set' using given
      refine .node ha set' (fun name hn => ?_) (kind ▸ computed)
      exact ih name (kind ▸ hn) (related name _ _ (set' name hn) (set name (kind ▸ hn)))

end Recording

/-! ## New nodes -/

namespace SortedMap

variable {κ α : Type} [Ord κ] [Std.TransOrd κ] [Std.LawfulEqOrd κ]

theorem get?_foldl_insert_of_notMem {key : κ} {entries : List (κ × α)}
    (h : key ∉ entries.map Prod.fst) (m : SortedMap κ α) :
    (entries.foldl (fun m e => m.insert e.1 e.2) m).get? key = m.get? key := by
  induction entries generalizing m with
  | nil => rfl
  | cons e rest ih =>
    rw [List.map_cons, List.mem_cons, not_or] at h
    rw [List.foldl_cons, ih h.2, get?_insert, if_neg (by simpa using h.1)]

/-- An entry whose key is there once is found. -/
theorem get?_ofList {key : κ} {value : α} {entries : List (κ × α)}
    (nodup : (entries.map Prod.fst).Nodup) (h : (key, value) ∈ entries) :
    (ofList entries).get? key = some value := by
  have all : ∀ m : SortedMap κ α,
      (entries.foldl (fun m e => m.insert e.1 e.2) m).get? key = some value := by
    induction entries with
    | nil => cases h
    | cons e rest ih =>
      intro m
      rw [List.map_cons, List.nodup_cons] at nodup
      rw [List.foldl_cons]
      rcases List.mem_cons.1 h with rfl | h
      · rw [get?_foldl_insert_of_notMem nodup.1, get?_insert, if_pos (by simp)]
      · exact ih nodup.2 h _
  exact all .empty

end SortedMap

/-- What nodes mean. -/
abbrev NodeMeaning := NodeHandle → Lanes → Prop

/-- A value stands for lanes. Where nothing may be looked up, only constants do. -/
inductive Denotes (looks : Prop) (m : NodeMeaning) : Value → Lanes → Prop
  | constant (lanes : Lanes) : Denotes looks m (.constant lanes) lanes
  | node {a : NodeHandle} {lanes : Lanes} (allowed : looks) (h : m a lanes) :
    Denotes looks m (.node a) lanes

theorem Denotes.mono {looks : Prop} {m m' : NodeMeaning} {v : Value} {lanes : Lanes}
    (h : Denotes looks m v lanes) (hm : m ≤ m') : Denotes looks m' v lanes := by
  cases h with
  | constant lanes => exact .constant lanes
  | node allowed h => exact .node allowed (hm _ _ h)

/-- What a node means whose parameters are set to these values. -/
structure NativeKind.Computes (looks : Prop) (quantities : Lookup → Lanes) (m : NodeMeaning)
    (kind : NativeKind) (params : List (String × Value)) (result : Lanes) : Prop where
  allowed : looks
  nodup : (params.map Prod.fst).Nodup
  means : ∃ lanes : String → Lanes, kind.compute? quantities lanes = some result ∧
    ∀ name ∈ kind.inputs, ∃ v, (name, v) ∈ params ∧ Denotes looks m v (lanes name)

namespace Recording

/-- What the nodes of a recording mean. -/
def meanings (r : Recording) (quantities : Lookup → Lanes) : NodeMeaning :=
  fun a lanes => r.Means quantities (.node a) lanes

variable {looks : Prop} {quantities : Lookup → Lanes}

theorem meanings_mono {r r' : Recording} (h : r.Extends r') :
    r.meanings quantities ≤ r'.meanings quantities := fun _ _ means => means.mono h

theorem exists_param {r : Recording} {v : Value} {lanes : Lanes}
    (h : Denotes looks (r.meanings quantities) v lanes) :
    ∃ p, Param.ofValue? v = some p ∧ r.Means quantities p lanes := by
  cases h with
  | constant lanes => exact ⟨.constant lanes, rfl, .constant lanes⟩
  | @node a _ _ h => exact ⟨.node a, rfl, h⟩

/-- Parameters are set at most once where they are named once. -/
theorem nodup_set {params : List (String × Value)} (h : (params.map Prod.fst).Nodup) :
    ((params.filterMap fun p => (Param.ofValue? p.2).map fun param => (p.1, param)).map
      Prod.fst).Nodup := by
  induction params with
  | nil => exact List.nodup_nil
  | cons p rest ih =>
    rw [List.map_cons, List.nodup_cons] at h
    rw [List.filterMap_cons]
    cases Param.ofValue? p.2 with
    | none => exact ih h.2
    | some param =>
      refine List.nodup_cons.2 ⟨fun hm => h.1 ?_, ih h.2⟩
      obtain ⟨e, he, hp⟩ := List.mem_map.1 hm
      obtain ⟨other, ho, hother⟩ := List.mem_filterMap.1 he
      obtain ⟨param', -, rfl⟩ := Option.map_eq_some_iff.1 hother
      exact List.mem_map.2 ⟨other, ho, hp⟩

/-- A new node means what its kind computes. -/
theorem means_created {r : Recording} {kind : NativeKind} {params : List (String × Value)}
    {result : Lanes} (h : kind.Computes looks quantities (r.meanings quantities) params result) :
    (r.create kind params).2.meanings quantities (r.create kind params).1 result := by
  obtain ⟨-, nodup, lanes, computed, means⟩ := h
  have created : (r.create kind params).2.node? (r.create kind params).1 =
      some (.withParams kind params) := Array.getElem?_push_size
  have given : ∀ name ∈ kind.inputs,
      ∃ p, (RecordedNode.withParams kind params).params.get? name = some p ∧
        (r.create kind params).2.Means quantities p (lanes name) := by
    intro name hn
    obtain ⟨v, hv, denotes⟩ := means name hn
    obtain ⟨p, hp, means⟩ := exists_param denotes
    refine ⟨p, SortedMap.get?_ofList (nodup_set nodup) ?_, means.mono (r.create_extends kind params)⟩
    exact List.mem_filterMap.2 ⟨(name, v), hv, by simp [hp]⟩
  choose! param set means' using given
  exact .node created set means' computed

end Recording

end MaterialLowering
