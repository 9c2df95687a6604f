import Std.Data.TreeSet
import UnitRegistry.Assoc
import UnitRegistry.Text
/-!
Fresh names: a stem followed by a number. Each stem counts on its own, and a number whose name was already
handed out under another stem is passed over.
-/
set_option autoImplicit false

namespace UnitRegistry

inductive NameKind where
  | term
  | type
deriving DecidableEq, Inhabited

structure FreshName where
  text : Text
  kind : NameKind
deriving DecidableEq, Inhabited

structure FreshNames where
  counters : List (Text × UInt64) := []
  issued : Std.TreeSet Text := {}

instance : Inhabited FreshNames := ⟨{}⟩

namespace FreshNames

def termStem : Text := "x$"

def candidate (stem : Text) (count : UInt64) : Text := stem ++ Text.ofNat count.toNat

def search (issued : Std.TreeSet Text) (stem : Text) : Nat → UInt64 → UInt64
  | 0, count => count
  | tries + 1, count =>
      if candidate stem (count + 1) ∈ issued then search issued stem tries (count + 1) else count + 1

def counter (f : FreshNames) (stem : Text) : UInt64 := (f.counters.lookup stem).getD 0

-- So many names are issued, so one try more finds a name that is not.
def next (f : FreshNames) (stem : Text) : UInt64 :=
  search f.issued stem (f.issued.size + 1) (f.counter stem)

def fresh (f : FreshNames) (kind : NameKind) (stem : Text) : FreshNames × FreshName :=
  let count := f.next stem
  let text := candidate stem count
  ({ counters := Assoc.put stem count f.counters, issued := f.issued.insert text }, ⟨text, kind⟩)

def issuedCount (f : FreshNames) : Nat := f.issued.size

end FreshNames

end UnitRegistry
