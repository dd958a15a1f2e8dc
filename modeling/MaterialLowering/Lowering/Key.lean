import MaterialLowering.Host.Graph
import MaterialLowering.Memo

/-!
# Keys and the cache

An output inside a group is another output in every call of the group. A `Key` is an output
together with the calls around it; the cache holds what keys have come to.
-/

namespace MaterialLowering

/-- An output of a node in a call context (`CacheKey`). -/
structure Key where
  node : NodeId
  output : String
  /-- The nodes whose calls are around the output, the innermost first. -/
  scope : List NodeId
  material : String
  deriving DecidableEq

/-- The key as text, the outermost call first. -/
def Key.shown (key : Key) : String :=
  key.material ++ "/" ++ key.node.shown ++ "." ++ key.output ++
    String.join (key.scope.reverse.map fun call => "@" ++ call.shown)

/-- What outputs, and sub-nodes of the rules for outputs, have come to (`TranslationCache`). -/
structure Cache where
  outputs : Memo Key Value
  subNodes : Memo (Key × String) Value
  deriving DecidableEq

namespace Cache

def empty : Cache := ⟨.empty, .empty⟩

instance : Inhabited Cache := ⟨empty⟩

/-- What an output has come to (`TranslationCache.get`). -/
def get? (cache : Cache) (key : Key) : Option Value := cache.outputs.get? key

/-- Keeps what an output has come to (`TranslationCache.put`). -/
def put (cache : Cache) (key : Key) (value : Value) : Cache :=
  { cache with outputs := cache.outputs.put key value }

theorem get?_put (cache : Cache) (key : Key) (value : Value) (other : Key) :
    (cache.put key value).get? other = if key = other then some value else cache.get? other :=
  Memo.get?_put cache.outputs key value other

/-- What a sub-node has come to (`TranslationCache.get_sub_node`). -/
def subNode? (cache : Cache) (key : Key) (name : String) : Option Value :=
  cache.subNodes.get? (key, name)

/-- Keeps what a sub-node has come to (`TranslationCache.put_sub_node`). -/
def putSubNode (cache : Cache) (key : Key) (name : String) (value : Value) : Cache :=
  { cache with subNodes := cache.subNodes.put (key, name) value }

/-- How many outputs there are. -/
def size (cache : Cache) : Nat := cache.outputs.size

def isEmpty (cache : Cache) : Bool := cache.outputs.isEmpty

end Cache

end MaterialLowering
