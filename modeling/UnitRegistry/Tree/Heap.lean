import UnitRegistry.Source.Position
import UnitRegistry.Store
import UnitRegistry.Symbol
import UnitRegistry.Tree.Basic
/-!
Tree nodes that are shared and changed in place. A node names its children by number, and the finite tree
below a node is read off the heap when it is wanted.
-/
set_option autoImplicit false

namespace UnitRegistry

abbrev NodeRef := Nat

structure Node where
  kind : TreeKind := .empty
  name : Text := []
  symbol : Option Symbol := none
  position : Position := .nowhere
  children : List (Option NodeRef) := []
deriving DecidableEq, Inhabited

namespace Node

def isEmpty (n : Node) : Bool := n.kind == .empty

def definition (kind : TreeKind) (symbol : Option Symbol) (position : Position)
    (children : List (Option NodeRef)) : Node :=
  { kind, name := symbol.elim [] Symbol.name, symbol, position, children }

end Node

abbrev Heap := Store Node

namespace Heap

-- The tree below a node down to a depth, and missing further down. An empty node is a leaf, whatever it holds, so
-- what is hidden behind it may even lead back to it.
def treeTo (heap : Heap) : Nat → Option NodeRef → Tree
  | 0, _ => .missing
  | _ + 1, none => .missing
  | depth + 1, some ref =>
      let node := heap.get ref
      let shown := if node.isEmpty then [] else node.children
      .node node.kind node.name (shown.map (treeTo heap depth))

-- No path that visits each node once is longer than the heap is large, so only nodes that are shown below
-- themselves are cut.
def tree (heap : Heap) (ref : Option NodeRef) : Tree := heap.treeTo heap.size ref

end Heap

end UnitRegistry
