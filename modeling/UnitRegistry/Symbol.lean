import UnitRegistry.Text
/-!
Symbols: named entities with an owner. A symbol is told apart from every other by its origin and number: a
table gives its symbols the numbers 1, 2, … under an origin of its own.
-/
set_option autoImplicit false

namespace UnitRegistry

inductive SymbolKind where
  | package
  | klass
  | trait
  | object
  | method
  | value
  | type
  | feature
deriving DecidableEq, Inhabited

namespace SymbolKind

def all : List SymbolKind := [.package, .klass, .trait, .object, .method, .value, .type, .feature]

def name : SymbolKind → Text
  | .package => "package"
  | .klass => "class"
  | .trait => "trait"
  | .object => "object"
  | .method => "method"
  | .value => "value"
  | .type => "type"
  | .feature => "feature"

def nameAt (code : UInt8) : Text := (all[code.toNat]?).elim "symbol" name

end SymbolKind

structure SymbolInfo where
  origin : Nat
  number : Nat
  kind : SymbolKind
  name : Text
deriving DecidableEq, Inhabited

inductive Symbol where
  | top (info : SymbolInfo)
  | member (info : SymbolInfo) (owner : Symbol)
deriving DecidableEq, Inhabited

namespace Symbol

def create (info : SymbolInfo) : Option Symbol → Symbol
  | none => .top info
  | some owner => .member info owner

def info : Symbol → SymbolInfo
  | .top info => info
  | .member info _ => info

def owner : Symbol → Option Symbol
  | .top _ => none
  | .member _ owner => some owner

def number (s : Symbol) : Nat := s.info.number

def kind (s : Symbol) : SymbolKind := s.info.kind

def name (s : Symbol) : Text := s.info.name

def isTopLevel (s : Symbol) : Bool :=
  match s.owner with
  | none => true
  | some owner => owner.kind == .package

def fullName : Symbol → Text
  | .top info => info.name
  | .member info owner => owner.fullName ++ ("." ++ info.name)

def render (s : Symbol) : Text := s.kind.name ++ " " ++ s.fullName

end Symbol

structure SymbolTable where
  origin : Nat
  symbols : Array Symbol := #[]
deriving DecidableEq, Inhabited

namespace SymbolTable

def size (t : SymbolTable) : Nat := t.symbols.size

def create (t : SymbolTable) (kind : SymbolKind) (name : Text) (owner : Option Symbol) : SymbolTable × Symbol :=
  let symbol := Symbol.create ⟨t.origin, t.size + 1, kind, name⟩ owner
  ({ t with symbols := t.symbols.push symbol }, symbol)

end SymbolTable

end UnitRegistry
