import UnitRegistry.Assoc
import UnitRegistry.Tree.Heap
/-!
Synthetic definitions: at most one tree for each symbol. Every operation returns what an observer sees of it,
in order. Emptying the cache is seen by nobody.
-/
set_option autoImplicit false

namespace UnitRegistry

inductive SyntheticEvent where
  | added
  | removed
  | found
deriving DecidableEq, Inhabited

namespace SyntheticEvent

def name : SyntheticEvent → Text
  | .added => "added"
  | .removed => "removed"
  | .found => "found"

end SyntheticEvent

structure SyntheticNotice where
  event : SyntheticEvent
  symbol : Symbol
  tree : NodeRef
deriving DecidableEq, Inhabited

structure SyntheticDefinitions where
  entries : List (Symbol × NodeRef) := []
  frozen : Bool := false
deriving DecidableEq, Inhabited

namespace SyntheticDefinitions

def find? (c : SyntheticDefinitions) (symbol : Option Symbol) : Option NodeRef :=
  symbol.bind fun s => c.entries.lookup s

def contains (c : SyntheticDefinitions) (symbol : Option Symbol) : Bool := (c.find? symbol).isSome

def keys (c : SyntheticDefinitions) : List Symbol := c.entries.map Prod.fst

def size (c : SyntheticDefinitions) : Nat := c.entries.length

def isEmpty (c : SyntheticDefinitions) : Bool := c.entries.isEmpty

def put (c : SyntheticDefinitions) (symbol : Option Symbol) (tree : Option NodeRef) :
    SyntheticDefinitions × List SyntheticNotice :=
  match c.frozen, symbol, tree with
  | false, some s, some t => ({ c with entries := Assoc.put s t c.entries }, [⟨.added, s, t⟩])
  | _, _, _ => (c, [])

def remove (c : SyntheticDefinitions) (symbol : Option Symbol) : SyntheticDefinitions × List SyntheticNotice :=
  match symbol, c.find? symbol with
  | some s, some t => ({ c with entries := Assoc.erase s c.entries }, [⟨.removed, s, t⟩])
  | _, _ => (c, [])

def get (c : SyntheticDefinitions) (symbol : Option Symbol) : Option NodeRef × List SyntheticNotice :=
  match symbol, c.find? symbol with
  | some s, some t => (some t, [⟨.found, s, t⟩])
  | _, _ => (none, [])

def clear (c : SyntheticDefinitions) : SyntheticDefinitions := { c with entries := [] }

def freeze (c : SyntheticDefinitions) : SyntheticDefinitions := { c with frozen := true }

def ordered (c : SyntheticDefinitions) : List (Symbol × NodeRef) :=
  c.entries.mergeSort fun a b => a.1.number ≤ b.1.number

def render (c : SyntheticDefinitions) (heap : Heap) : Text :=
  "\x7b" ++ Text.joined ", " (c.ordered.map fun entry =>
    entry.1.fullName ++ " -> " ++ (heap.tree (some entry.2)).render) ++ "\x7d"

end SyntheticDefinitions

end UnitRegistry
