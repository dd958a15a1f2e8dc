import MaterialLowering.Proofs.Recordings.Growth

/-!
# Values that unfold to the same tree

A native graph may share a node where another one has two. Values of two graphs are the same when
they unfold to the same tree: equal constants, nodes of one kind with the same parameters, images
of one descriptor.

Results:
* `Recording.unfolding_mono`: what is added to the graphs does not change what values unfold to.
* `Recording.unfolding_created`: nodes with the same parameters are the same.
* `Correspondence.Answer.restrict`: a value unfolds in an earlier graph as it does in a later one.
-/

namespace MaterialLowering

namespace Recording

/-- Parameters of two recordings that unfold to the same tree. -/
inductive Same (r q : Recording) : Param → Param → Prop
  | constant (lanes : Lanes) : Same r q (.constant lanes) (.constant lanes)
  | image {i j : ImageHandle} {descriptor : ImageDescriptor}
      (hi : r.images[i.index]? = some descriptor) (hj : q.images[j.index]? = some descriptor) :
      Same r q (.image i) (.image j)
  | node {a b : NodeHandle} {n m : RecordedNode} (ha : r.node? a = some n) (hb : q.node? b = some m)
      (kind : n.kind = m.kind)
      (names : ∀ name, (n.params.get? name).isSome = (m.params.get? name).isSome)
      (params : ∀ name p p', n.params.get? name = some p → m.params.get? name = some p' →
        Same r q p p') :
      Same r q (.node a) (.node b)

/-- Handles of two recordings that unfold to the same tree. -/
def unfolding (r q : Recording) : Correspondence where
  node a b := Same r q (.node a) (.node b)
  image i j := Same r q (.image i) (.image j)

variable {r r' q q' : Recording}

theorem Extends.node?_eq (h : r.Extends r') {a : NodeHandle} {n : RecordedNode}
    (ha : r.node? a = some n) : r'.node? a = some n := by
  have hlt : a.index < r.nodes.size := (Array.getElem?_eq_some_iff.1 ha).1
  exact (h.getElem?_nodes hlt).trans ha

theorem Same.mono {p p' : Param} (h : Same r q p p') (hr : r.Extends r') (hq : q.Extends q') :
    Same r' q' p p' := by
  induction h with
  | constant lanes => exact .constant lanes
  | image hi hj => exact .image (hr.getElem?_images hi) (hq.getElem?_images hj)
  | node ha hb kind names _ ih => exact .node (hr.node?_eq ha) (hq.node?_eq hb) kind names ih

/-- What unfolds to a tree already does so in an earlier recording that has all of it. -/
theorem Same.restrict {p p' : Param} (h : Same r' q p p') (hr : r.Extends r')
    (hp : Same r r p p) : Same r q p p' := by
  induction h with
  | constant lanes => exact .constant lanes
  | @image i j descriptor hi hj =>
    cases hp with
    | @image _ _ own hown _ =>
      obtain rfl : own = descriptor :=
        Option.some.inj ((hr.getElem?_images hown).symm.trans hi)
      exact .image hown hj
  | @node a b n m ha hb kind names params ih =>
    cases hp with
    | @node _ _ own own' hown hown' _ _ hparams =>
      obtain rfl : own = own' := Option.some.inj (hown.symm.trans hown')
      obtain rfl : own = n := Option.some.inj ((hr.node?_eq hown).symm.trans ha)
      exact .node hown hb kind names fun name p p' hp hp' =>
        ih name p p' hp hp' (hparams name p p hp hp)

theorem unfolding_mono (hr : r.Extends r') (hq : q.Extends q') : unfolding r q ≤ unfolding r' q' :=
  ⟨fun _ _ h => h.mono hr hq, fun _ _ h => h.mono hr hq⟩

/-! ## Creation -/

theorem same_of_parameter {kind : NativeKind} {name name' : String} {p p' : Param}
    (h : (unfolding r q).Parameter kind (name, p.value) (name', p'.value)) : Same r q p p' := by
  generalize hv : p.value = v at h
  generalize hv' : p'.value = v' at h
  cases h with
  | answer h =>
    cases h with
    | constant lanes =>
      rw [Param.value_eq_constant] at hv hv'
      rw [hv, hv']
      exact .constant lanes
    | node h =>
      rw [Param.value_eq_node] at hv hv'
      rwa [hv, hv']
    | unset => exact absurd hv Param.value_ne_unset
  | image _ h =>
    rw [Param.value_eq_image] at hv hv'
    rwa [hv, hv']

/-- Related entries of two maps. -/
theorem get?_of_forall₂ {R : String × Param → String × Param → Prop}
    (hkey : ∀ e e', R e e' → e.1 = e'.1) {l l' : List (String × Param)} (h : List.Forall₂ R l l')
    (name : String) :
    Option.Rel (fun p p' => ∃ name, R (name, p) (name, p')) (SortedMap.find? name l)
      (SortedMap.find? name l') := by
  induction h with
  | nil => exact .none
  | @cons e e' _ _ he _ ih =>
    obtain ⟨k, p⟩ := e
    obtain ⟨k', p'⟩ := e'
    obtain rfl : k = k' := hkey _ _ he
    simp only [SortedMap.find?]
    split
    · exact .some ⟨k, he⟩
    · exact ih

/-- Nodes with the same parameters are the same. -/
theorem same_of_alike {a b : NodeHandle} {n m : RecordedNode} (ha : r.node? a = some n)
    (hb : q.node? b = some m) (h : n.Alike (unfolding r q) m) : Same r q (.node a) (.node b) := by
  have related := get?_of_forall₂ (fun _ _ he => he.name_eq) h.params
  refine .node ha hb h.kind (fun name => ?_) fun name p p' hp hp' => ?_
  · have hrel := related name
    show (SortedMap.find? name n.params.entries).isSome = (SortedMap.find? name m.params.entries).isSome
    generalize SortedMap.find? name n.params.entries = p at hrel ⊢
    generalize SortedMap.find? name m.params.entries = p' at hrel ⊢
    cases hrel <;> rfl
  · have hrel := related name
    replace hp : SortedMap.find? name n.params.entries = some p := hp
    replace hp' : SortedMap.find? name m.params.entries = some p' := hp'
    rw [hp, hp'] at hrel
    cases hrel with
    | some hrel => exact same_of_parameter hrel.choose_spec

theorem unfolding_created {kind : NativeKind} {ps qs : List (String × Value)}
    (h : List.Forall₂ ((unfolding r q).Parameter kind) ps qs) :
    (unfolding (r.create kind ps).2 (q.create kind qs).2).node (r.create kind ps).1
      (q.create kind qs).1 := by
  have last : ∀ (r : Recording) ps, (r.create kind ps).2.node? (r.create kind ps).1 =
      some (.withParams kind ps) := fun r ps => Array.getElem?_push_size
  refine same_of_alike (last r ps) (last q qs) ((RecordedNode.withParams_alike h).mono ?_)
  exact unfolding_mono (r.create_extends kind ps) (q.create_extends kind qs)

theorem unfolding_materialized (hf : r.failing = q.failing) (descriptor : ImageDescriptor) :
    Option.Rel (unfolding (r.materialize descriptor).2 (q.materialize descriptor).2).image
      (r.materialize descriptor).1.toOption (q.materialize descriptor).1.toOption := by
  have place : ∀ {r : Recording}, r.failing.contains descriptor.name = false →
      (r.materialize descriptor).2.images[r.images.idxOf descriptor]? = some descriptor := by
    intro r hr
    obtain ⟨-, hm, hi⟩ := materialize_loaded hr
    rw [← hi]
    exact List.getElem?_idxOf hm
  cases hc : r.failing.contains descriptor.name with
  | true =>
    rw [materialize_failing hc, materialize_failing (hf ▸ hc)]
    exact .none
  | false =>
    have hq : q.failing.contains descriptor.name = false := hf ▸ hc
    rw [(materialize_loaded hc).1, (materialize_loaded hq).1]
    exact .some (.image (place hc) (place hq))

end Recording

/-! ## Values -/

/-- The value unfolds to a tree. -/
abbrev Recording.Valid (r : Recording) (v : Value) : Prop := (r.unfolding r).Answer v v

namespace Correspondence.Answer

open Recording

variable {r r' q : Recording} {v v' : Value}

theorem restrict (h : (unfolding r' q).Answer v v') (hr : r.Extends r') (hv : r.Valid v) :
    (unfolding r q).Answer v v' := by
  cases h with
  | constant lanes => exact .constant lanes
  | node h =>
    cases hv with
    | node hv => exact .node (h.restrict hr hv)
  | unset => exact .unset

end Correspondence.Answer

end MaterialLowering
