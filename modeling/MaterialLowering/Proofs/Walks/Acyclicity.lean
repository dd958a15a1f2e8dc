import Mathlib.Data.List.Lex
import Mathlib.Logic.Relation
import MaterialLowering.Proofs.Walks.Events
import MaterialLowering.Proofs.Walks.Restoration

/-!
# Where there is no cycle, none is found

A call of a group is entered while earlier outputs wait, and where the group asks for one of its
inputs, the walk goes on outside of the call. So the same node and the same group are met again while
earlier meetings still wait. They are met in other calls, however: read from the outermost call to the
node, a key that waits comes before the keys that it waits for, in the lexicographic order in which a
node comes before those that it reads from.

Results:
* `WaitsFor.irrefl`: no key waits for itself where links go round nowhere.
* `Walk.lower_uncyclic`: no cycle is found below keys that wait.
* `Document.output_uncyclic`: no cycle is found in a document without cycles.
-/

namespace MaterialLowering

open Relation (TransGen ReflTransGen)
open Walk (on)

/-! ## Graphs without cycles -/

namespace HostGraph

/-- A visible link leads from `source` into `node`. -/
def ReadsFrom (g : HostGraph) (node source : NodeId) : Prop := ∃ output, g.Feeds node source output

/-- A node of the tree calls the other tree. -/
def Calls (g : HostGraph) (tree called : TreeId) : Prop :=
  ∃ node : NodeId, node.tree = tree ∧ g.kind node = .group ∧ g.groupTree node = some called

/-- Neither links nor calls go round. -/
structure Acyclic (g : HostGraph) : Prop where
  links : ∀ node, ¬ TransGen g.ReadsFrom node node
  calls : ∀ tree, ¬ TransGen g.Calls tree tree

end HostGraph

/-- What rises by every step does not go round. -/
theorem not_transGen_of_rank {α β : Type} [Preorder β] {r : α → α → Prop} (rank : α → β)
    (h : ∀ a b, r a b → rank a < rank b) (a : α) : ¬ TransGen r a a := by
  have rises : ∀ {a b}, TransGen r a b → rank a < rank b := by
    intro a b hab
    induction hab with
    | single hab => exact h _ _ hab
    | tail _ hbc ih => exact ih.trans (h _ _ hbc)
  exact fun haa => lt_irrefl _ (rises haa)

/-- Every link leads from a node to nodes behind it. -/
def NodeTree.Forward (tree : NodeTree) : Prop :=
  ∀ link ∈ tree.links, ∀ target ∈ tree.nodes.zipIdx, link.toNode = target.1.name →
    ∀ source ∈ tree.nodeIndex? link.fromNode, source < target.2

instance NodeTree.decidableForward (tree : NodeTree) : Decidable tree.Forward :=
  inferInstanceAs (Decidable (∀ link ∈ tree.links, ∀ target ∈ tree.nodes.zipIdx,
    link.toNode = target.1.name → ∀ source ∈ tree.nodeIndex? link.fromNode, source < target.2))

namespace Document

variable {d : Document}

/-- A document in which links lead forward and calls lead to later groups has no cycle. -/
theorem acyclic_of_forward (links : ∀ tree ∈ d.trees, tree.Forward)
    (calls : ∀ node ∈ d.nodeIds, ∀ tree ∈ d.graph.groupTree node, node.tree.number < tree.number) :
    d.graph.Acyclic where
  links := by
    refine not_transGen_of_rank (fun node => OrderDual.toDual node.index) fun node source h => ?_
    obtain ⟨output, feeds⟩ := h
    obtain ⟨tree, decl, link, htree, hdecl, hlink, hto, hfrom, -⟩ := exists_link_of_feeds feeds
    rw [tree?_eq_getElem?] at htree
    exact links tree (List.mem_of_getElem? htree) link hlink (decl, node.index)
      (List.mem_zipIdx_iff_getElem?.2 hdecl) hto source.index hfrom
  calls := by
    refine not_transGen_of_rank TreeId.number fun tree called h => ?_
    obtain ⟨node, rfl, -, hcalls⟩ := h
    exact calls node (groupTree_spec hcalls).1 called hcalls

end Document

/-! ## Keys -/

/-- The calls around a key, the outermost first, and its node. -/
def Key.place (key : Key) : List NodeId := key.scope.reverse ++ [key.node]

namespace WaitsFor

variable {g : HostGraph} {key key' : Key}

/-- A key that waits comes before the one that it waits for. -/
theorem place_lt (h : WaitsFor g key key') :
    List.Lex (TransGen g.ReadsFrom) key.place key'.place := by
  cases h with
  | @link node source output other chain material feeds =>
    exact List.Lex.append_left _ (.rel (.single ⟨other, feeds⟩)) chain.reverse
  | @call callSite groupOutput tree output chain material _ _ _ =>
    have longer : List.Lex (TransGen g.ReadsFrom) [callSite] [callSite, groupOutput] := .cons .nil
    simpa [Key.place] using List.Lex.append_left _ longer chain.reverse
  | @formal groupInput callSite source output other around material feeds =>
    have lower : List.Lex (TransGen g.ReadsFrom) [callSite, groupInput] [source] :=
      .rel (.single ⟨other, feeds⟩)
    simpa [Key.place] using List.Lex.append_left _ lower around.reverse

/-- No key waits for itself. -/
theorem irrefl (acyclic : g.Acyclic) (key : Key) : ¬ TransGen (WaitsFor g) key key := by
  have rises : ∀ {key'}, TransGen (WaitsFor g) key key' →
      List.Lex (TransGen g.ReadsFrom) key.place key'.place := by
    intro key' h
    induction h with
    | single h => exact h.place_lt
    | tail _ h ih => exact List.lex_trans (fun h h' => h.trans h') ih h.place_lt
  exact fun h => List.lex_irrefl acyclic.links key.place (rises h)

end WaitsFor

/-- The trees that are called on a stack lead to the tree of the node by calls. -/
theorem Placed.calls {g : HostGraph} {stack : List Frame} {node : NodeId} (h : Placed g stack node)
    {tree : TreeId} (hm : tree ∈ stack.map Frame.tree) : ReflTransGen g.Calls tree node.tree := by
  induction stack generalizing node with
  | nil => cases hm
  | cons frame around ih =>
    obtain ⟨within, kind, calls, -, rest⟩ := h
    rw [within]
    rcases List.mem_cons.1 hm with rfl | hm
    · exact .refl
    · exact (ih rest hm).tail ⟨frame.callSite, rfl, kind, calls⟩

/-! ## Walks -/

variable {s : Setting} {fixed : Key → Prop}

/-- Below keys that all wait for the output no cycle is found. -/
theorem Walk.lower_uncyclic (regular : s.Regular fixed) (acyclic : s.graph.Acyclic) {depth : Nat}
    {node : NodeId} {output : String} {σ : WalkState} (placed : Placed s.graph σ.stack node)
    (waits : ∀ key ∈ σ.active,
      TransGen (WaitsFor s.graph) key ⟨node, output, σ.scope, s.graph.material⟩)
    (label name : String) :
    (on (lower s depth node output) σ).1 ≠ .error (.cyclicGraph label name) := by
  intro failed
  induction depth generalizing node output σ with
  | zero => cases failed
  | succ depth ih =>
    have lowering := lowering s depth node output σ
    generalize on (lower s (depth + 1) node output) σ = run, events s (depth + 1) node output σ = told
      at lowering failed
    cases lowering with
    | known => cases failed
    | waiting _ active => exact WaitsFor.irrefl acyclic _ (waits _ active)
    | @new key result σ' own _ _ ran =>
      obtain rfl : result = .error (.cyclicGraph label name) := failed
      have step := expansion regular.rules node output { σ with active := key :: σ.active }
      have stopped : (on (expand s (lower s depth) node output)
          { σ with active := key :: σ.active }).1 = .error (.cyclicGraph label name) := by rw [ran]
      rcases step.error stopped with
        here | ⟨source, other, τ, asked, failed⟩ | ⟨tree, kind, calls, within, -⟩
      · exact here
      · obtain ⟨log, stack, evolves⟩ := step.evolves (lower_evolves s depth) asked
        obtain ⟨within, next⟩ := step.asks regular (lower_evolves s depth) placed asked
        have active : τ.active = key :: σ.active := evolves.active
        refine ih within (fun key hm => ?_) failed
        rw [active] at hm
        rcases List.mem_cons.1 hm with same | hm
        · rw [same, ← own]
          exact .single next
        · exact (waits key hm).tail next
      · exact acyclic.calls tree (.tail' (placed.calls within) ⟨node, rfl, kind, calls⟩)

/-- In a document in which neither links nor calls go round, no question finds a cycle, whatever was
    asked before: neither where a node is read by many others, nor where a group is called several
    times, nor where an argument of a call is another call of the same group. Links that do not show
    may go round. -/
theorem Document.output_uncyclic (d : Document) (table : RuleTable) (hc : table.check = .ok ())
    (acyclic : d.graph.Acyclic) {σ : WalkState} (reached : Reached (d.setting table) σ)
    (node : NodeId) (output label name : String) :
    (on (Walk.output (d.setting table) node output) σ).1 ≠ .error (.cyclicGraph label name) := by
  have regular : (d.setting table).Regular fun _ => False :=
    d.setting_regular hc fun _ _ _ _ _ _ _ _ no => no.elim
  obtain ⟨stack, active⟩ := reached.idle
  refine Walk.lower_uncyclic regular acyclic ?_ ?_ label name
  · rw [stack]
    trivial
  · rw [active]
    intro key hm
    cases hm

/-- A group that is called on a call of itself, and that does the same with another group. -/
def Document.nested : Document where
  name := "nested"
  tree :=
    { nodes :=
        [⟨"color", .rgb, [], [⟨"Color", some (.scalar .one), false⟩], .ofList [], false⟩,
          ⟨"inner", .group, [⟨"x", none, false⟩], [⟨"y", none, false⟩],
            .ofList [(groupProperty, .text "twice")], false⟩,
          ⟨"outer", .group, [⟨"x", none, false⟩], [⟨"y", none, false⟩],
            .ofList [(groupProperty, .text "twice")], false⟩]
      links :=
        [⟨"color", "Color", "inner", .name "x", false⟩, ⟨"inner", "y", "outer", .name "x", false⟩] }
  groups :=
    [⟨"twice",
      { nodes :=
          [⟨"in", .groupInput, [], [⟨"x", none, false⟩], .ofList [], false⟩,
            ⟨"once", .group, [⟨"x", none, false⟩], [⟨"y", none, false⟩],
              .ofList [(groupProperty, .text "id")], false⟩,
            ⟨"again", .group, [⟨"x", none, false⟩], [⟨"y", none, false⟩],
              .ofList [(groupProperty, .text "id")], false⟩,
            ⟨"out", .groupOutput, [⟨"y", none, false⟩], [], .ofList [], false⟩]
        links :=
          [⟨"in", "x", "once", .name "x", false⟩, ⟨"once", "y", "again", .name "x", false⟩,
            ⟨"again", "y", "out", .name "y", false⟩] }⟩,
      ⟨"id",
      { nodes :=
          [⟨"in", .groupInput, [], [⟨"x", none, false⟩], .ofList [], false⟩,
            ⟨"out", .groupOutput, [⟨"y", none, false⟩], [], .ofList [], false⟩]
        links := [⟨"in", "x", "out", .name "y", false⟩] }⟩]

theorem Document.nested_acyclic : nested.graph.Acyclic :=
  acyclic_of_forward (by decide +kernel) (by decide +kernel)

/-- The outer call meets the inner one, and both groups, while it waits. -/
theorem Document.output_uncyclic_nested :
    RuleTable.builtin.check = .ok () ∧ nested.graph.Acyclic ∧
      Reached (nested.setting .builtin) (.start .empty) ∧
      ∀ label name, (on (Walk.output (nested.setting .builtin) ⟨.material, 2⟩ "y")
        (.start .empty)).1 ≠ .error (.cyclicGraph label name) :=
  ⟨RuleTable.builtin_check, nested_acyclic, .start .empty,
    nested.output_uncyclic .builtin RuleTable.builtin_check nested_acyclic (.start .empty) _ _⟩

end MaterialLowering
