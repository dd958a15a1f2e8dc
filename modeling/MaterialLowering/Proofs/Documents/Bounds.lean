import MaterialLowering.Host.Document
import MaterialLowering.Proofs.Walks.Control

/-!
# Indices are in range

A document keeps its nodes and sockets in lists, and a walk keeps its calls in one. Here the places
are gone through with indices, and an index that is out of range is an error: an input of a node with
its link, and the innermost call of a tree among the calls on the stack, the outermost first. There is
no such error, and what is found is what `Document.input?` and `Walk.innermostCall?` find.

Results:
* `Document.inputAt_eq`: inputs of nodes.
* `Walk.innermostCallAt_eq`: calls on the stack.
-/

namespace MaterialLowering

/-- An index that is not one of a list of that length. -/
structure OutOfRange where
  index : Nat
  length : Nat

variable {α : Type}

/-- The item at an index, which has to be in range. -/
def itemAt (items : List α) (index : Nat) : Except OutOfRange α :=
  match items[index]? with
  | some item => .ok item
  | none => .error ⟨index, items.length⟩

theorem itemAt_eq {items : List α} {index : Nat} {item : α} (h : items[index]? = some item) :
    itemAt items index = .ok item := by rw [itemAt, h]

/-- The items before an index and those from it on. It may be one past the last. -/
def splitAtIndex (items : List α) (index : Nat) : Except OutOfRange (List α × List α) :=
  if index ≤ items.length then .ok (items.take index, items.drop index)
  else .error ⟨index, items.length⟩

/-- The last place of an item like this. -/
def lastIdx? (p : α → Bool) : List α → Option Nat
  | [] => none
  | item :: rest =>
    match lastIdx? p rest with
    | some index => some (index + 1)
    | none => if p item then some 0 else none

theorem lastIdx?_eq_none {p : α → Bool} {items : List α} (h : ∀ item ∈ items, p item = false) :
    lastIdx? p items = none := by
  induction items with
  | nil => rfl
  | cons item rest ih =>
    obtain ⟨here, later⟩ := List.forall_mem_cons.1 h
    simp [lastIdx?, ih later, here]

theorem lastIdx?_append {p : α → Bool} {before after : List α} {item : α} (here : p item = true)
    (later : ∀ other ∈ after, p other = false) :
    lastIdx? p (before ++ item :: after) = some before.length := by
  induction before with
  | nil => simp [lastIdx?, lastIdx?_eq_none later, here]
  | cons first rest ih => simp [lastIdx?, ih]

/-! ## Inputs -/

namespace NodeTree

/-- The place of an input socket of the node at an index. -/
def inputIndexAt (tree : NodeTree) (node : Nat) (key : SocketKey) : Except OutOfRange (Option Nat) := do
  let decl ← itemAt tree.nodes node
  return decl.inputIndex? key

/-- The link goes into an input of the node at an index, which is declared so. -/
def leadsToAt (tree : NodeTree) (node input : Nat) (decl : NodeDecl) (link : LinkDecl) :
    Except OutOfRange Bool :=
  if link.toNode = decl.name then
    match link.toSocket with
    | .index index => return index = input
    | .name name => do
      let found ← tree.inputIndexAt node (.name name)
      return found = some input
  else return false

/-- The first link into an input of the node at an index. -/
def linkIntoAt (tree : NodeTree) (node input : Nat) : Except OutOfRange (Option LinkDecl) := do
  let decl ← itemAt tree.nodes node
  tree.links.findM? (tree.leadsToAt node input decl)

/-- Where a link comes from. -/
def sourceAt (tree : NodeTree) (id : TreeId) (link : LinkDecl) :
    Except OutOfRange (Option LinkSource) :=
  match tree.nodeIndex? link.fromNode with
  | none => return none
  | some index => do
    let node ← itemAt tree.nodes index
    let output := node.outputs.find? fun output => output.name = link.fromSocket
    return some {
      node := ⟨id, index⟩
      output := link.fromSocket
      shader := (output.map SocketDecl.shader).getD false
      hidden := link.hidden }

variable {tree : NodeTree} {node : Nat} {decl : NodeDecl}

theorem inputIndexAt_eq (h : tree.nodes[node]? = some decl) (key : SocketKey) :
    tree.inputIndexAt node key = .ok (decl.inputIndex? key) := by
  rw [inputIndexAt, itemAt_eq h]
  rfl

theorem linkIntoAt_eq (h : tree.nodes[node]? = some decl) (input : Nat) :
    tree.linkIntoAt node input = .ok (tree.linkInto? decl input) := by
  have leads : tree.leadsToAt node input decl = fun link => pure (link.leadsTo decl input) := by
    funext link
    unfold leadsToAt LinkDecl.leadsTo
    by_cases hn : link.toNode = decl.name
    · cases link.toSocket with
      | index index => simp [hn]
      | name name =>
        simp only [hn, if_true, decide_true, Bool.true_and, inputIndexAt_eq h]
        rfl
    · simp [hn]
  rw [linkIntoAt, itemAt_eq h]
  show tree.links.findM? (tree.leadsToAt node input decl) = _
  rw [leads]
  exact List.findM?_pure _ _

/-- A node that is found by its name is there. -/
theorem sourceAt_eq (id : TreeId) (link : LinkDecl) :
    tree.sourceAt id link = .ok (tree.source? id link) := by
  unfold sourceAt source?
  cases hi : tree.nodeIndex? link.fromNode with
  | none => rfl
  | some index =>
    obtain ⟨inRange, -⟩ := List.findIdx?_eq_some_iff_getElem.1 hi
    have there : tree.nodes[index]? = some tree.nodes[index] := List.getElem?_eq_getElem inRange
    simp only [Option.bind_eq_bind, Option.bind_some, there, itemAt_eq there]
    rfl

end NodeTree

namespace NodeDecl

/-- The place of an input socket is one of the inputs. -/
theorem lt_length_of_inputIndex? {decl : NodeDecl} {key : SocketKey} {index : Nat}
    (h : decl.inputIndex? key = some index) : index < decl.inputs.length := by
  cases key with
  | index i =>
    simp only [inputIndex?] at h
    split at h
    · rename_i inRange
      cases h
      exact inRange
    · cases h
  | name name => exact (List.findIdx?_eq_some_iff_getElem.1 h).1

end NodeDecl

namespace Document

variable (d : Document)

/-- An input of a node, with its link. -/
def inputAt (node : NodeId) (key : SocketKey) : Except OutOfRange (Option Socket) :=
  match d.tree? node.tree with
  | none => return none
  | some tree =>
    match tree.nodes[node.index]? with
    | none => return none
    | some decl => do
      match ← tree.inputIndexAt node.index key with
      | none => return none
      | some input =>
        let socket ← itemAt decl.inputs input
        let link ← match ← tree.linkIntoAt node.index input with
          | none => pure none
          | some link => tree.sourceAt node.tree link
        return some {
          name := socket.name
          default := socket.default.map Literal.toLanes
          shader := socket.shader
          link }

/-- Every index is in range while an input of a node is looked up. -/
theorem inputAt_eq (node : NodeId) (key : SocketKey) :
    d.inputAt node key = .ok (d.graph.input node key) := by
  show d.inputAt node key = .ok (d.input? node key)
  unfold inputAt input?
  cases ht : d.tree? node.tree with
  | none => rfl
  | some tree =>
    cases hd : tree.nodes[node.index]? with
    | none =>
      simp only [Option.bind_eq_bind, Option.bind_some, hd]
      rfl
    | some decl =>
      simp only [Option.bind_eq_bind, Option.bind_some, hd, NodeTree.inputIndexAt_eq hd]
      cases hi : decl.inputIndex? key with
      | none => rfl
      | some input =>
        have inRange := NodeDecl.lt_length_of_inputIndex? hi
        have there : decl.inputs[input]? = some decl.inputs[input] := List.getElem?_eq_getElem inRange
        simp only [Option.bind_some, there]
        show (itemAt decl.inputs input >>= _) = _
        rw [itemAt_eq there]
        show (tree.linkIntoAt node.index input >>= _) = _
        rw [NodeTree.linkIntoAt_eq hd]
        cases hl : tree.linkInto? decl input with
        | none => rfl
        | some link =>
          show (tree.sourceAt node.tree link >>= _) = _
          rw [NodeTree.sourceAt_eq]
          rfl

end Document

/-! ## Calls on the stack -/

namespace Walk

/-- The innermost call of a tree among frames of which the outermost is the first, with the frames
    inside it and those around it. -/
def innermostCallAt (tree : TreeId) (frames : List Frame) :
    Except OutOfRange (Option (List Frame × Frame × List Frame)) :=
  match lastIdx? (fun frame => frame.tree = tree) frames with
  | none => return none
  | some index => do
    let (around, inner) ← splitAtIndex frames index
    let frame ← itemAt inner 0
    return some (inner.tail.reverse, frame, around.reverse)

theorem innermostCall?_eq_none {tree : TreeId} {stack : List Frame}
    (h : innermostCall? tree stack = none) : ∀ frame ∈ stack, frame.tree ≠ tree := by
  induction stack with
  | nil => simp
  | cons frame rest ih =>
    by_cases ht : frame.tree = tree
    · simp [innermostCall?, ht] at h
    · simp only [innermostCall?, if_neg ht, Option.map_eq_none_iff] at h
      exact List.forall_mem_cons.2 ⟨ht, ih h⟩

/-- Every index is in range while the innermost call of a tree is looked up. -/
theorem innermostCallAt_eq (tree : TreeId) (stack : List Frame) :
    innermostCallAt tree stack.reverse = .ok (innermostCall? tree stack) := by
  unfold innermostCallAt
  rcases hc : innermostCall? tree stack with _ | ⟨inside, frame, around⟩
  · have nowhere : ∀ frame ∈ stack.reverse, decide (frame.tree = tree) = false := fun frame hf =>
      decide_eq_false (innermostCall?_eq_none hc frame (List.mem_reverse.1 hf))
    rw [lastIdx?_eq_none nowhere]
    rfl
  · obtain ⟨rfl, here, others⟩ := innermostCall?_spec hc
    have frames : (inside ++ frame :: around).reverse = around.reverse ++ frame :: inside.reverse := by
      simp
    have last : lastIdx? (fun frame => frame.tree = tree) (around.reverse ++ frame :: inside.reverse) =
        some around.reverse.length :=
      lastIdx?_append (decide_eq_true here) fun other ho =>
        decide_eq_false (others other (List.mem_reverse.1 ho))
    rw [frames, last]
    have split : splitAtIndex (around.reverse ++ frame :: inside.reverse) around.reverse.length =
        .ok (around.reverse, frame :: inside.reverse) := by simp [splitAtIndex]
    have first : itemAt (frame :: inside.reverse) 0 = .ok frame := itemAt_eq rfl
    simp only [split, bind, Except.bind, first, pure, Except.pure, List.tail_cons,
      List.reverse_reverse]

end Walk

end MaterialLowering
