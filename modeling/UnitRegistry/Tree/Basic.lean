import UnitRegistry.Text

set_option autoImplicit false

namespace UnitRegistry

inductive TreeKind where
  | empty
  | packageDef
  | classDef
  | moduleDef
  | defDef
  | valDef
  | typeDef
  | importing
  | block
  | apply
  | select
  | ident
  | literal
  | xmlLiteral
deriving DecidableEq, Inhabited

namespace TreeKind

def all : List TreeKind :=
  [.empty, .packageDef, .classDef, .moduleDef, .defDef, .valDef, .typeDef, .importing, .block, .apply, .select,
    .ident, .literal, .xmlLiteral]

def name : TreeKind → Text
  | .empty => "EmptyTree"
  | .packageDef => "PackageDef"
  | .classDef => "ClassDef"
  | .moduleDef => "ModuleDef"
  | .defDef => "DefDef"
  | .valDef => "ValDef"
  | .typeDef => "TypeDef"
  | .importing => "Import"
  | .block => "Block"
  | .apply => "Apply"
  | .select => "Select"
  | .ident => "Ident"
  | .literal => "Literal"
  | .xmlLiteral => "XmlLiteral"

def nameAt (code : UInt8) : Text := (all[code.toNat]?).elim "Tree" name

end TreeKind

inductive Tree where
  | missing
  | node (kind : TreeKind) (name : Text) (children : List Tree)
deriving Inhabited

namespace Tree

def spaced (name : Text) : Text := if name = [] then [] else " " ++ name

mutual
def renderBefore : Tree → Text → Text
  | .missing, rest => TreeKind.empty.name ++ rest
  | .node kind name children, rest =>
      if kind = .empty then TreeKind.empty.name ++ rest
      else "(" ++ (kind.name ++ (spaced name ++ renderForestBefore children (")" ++ rest)))
def renderForestBefore : List Tree → Text → Text
  | [], rest => rest
  | child :: more, rest => " " ++ renderBefore child (renderForestBefore more rest)
end

-- Such as `(DefDef f (Ident x))`; an empty name is left out.
def render (t : Tree) : Text := t.renderBefore []

end Tree

end UnitRegistry
