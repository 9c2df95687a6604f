import UnitRegistry.Source.File
/-!
Positions: a byte range in a shared file, or no position at all. A range built from a file is clamped to it.
-/
set_option autoImplicit false

namespace UnitRegistry

structure Position where
  source : Option FileRef := none
  start : UInt32 := 0
  stop : UInt32 := 0
deriving DecidableEq, Inhabited

namespace Position

def nowhere : Position := {}

def isDefined (p : Position) : Bool := p.source.isSome

def range (source : Option FileRef) (start stop : Nat) : Position :=
  match source with
  | none => nowhere
  | some ref =>
      let length := ref.file.length
      { source := some ref
        start := clampOffset (min start length)
        stop := clampOffset (max (min start length) (min stop length)) }

def point (source : Option FileRef) (offset : Nat) : Position := range source offset offset

def location? (p : Position) : Option Location := p.source.map fun ref => ref.file.location p.start.toNat

def line (p : Position) : Text :=
  match p.source with
  | none => []
  | some ref => ref.file.line (ref.file.location p.start.toNat).line

def render (p : Position) : Text :=
  match p.source with
  | none => "<no position>"
  | some ref =>
      let place := ref.file.location p.start.toNat
      ref.file.name ++ ":" ++ Text.ofNat place.line.toNat ++ ":" ++ Text.ofNat place.column.toNat

end Position

end UnitRegistry
