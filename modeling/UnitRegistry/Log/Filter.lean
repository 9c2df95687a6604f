import UnitRegistry.Assoc
import UnitRegistry.Log.Level
/-!
Filters: a least level for each module, and one for all modules not named. A filter text is a list of items
separated by commas: `module=level`, `*=level` for the default, or a bare module for all its records.
-/
set_option autoImplicit false

namespace UnitRegistry.Log

structure Filter where
  default : Level := .info
  overrides : List (Text × Level) := []
deriving DecidableEq

instance : Inhabited Filter := ⟨{}⟩

namespace Filter

def wildcard : Text := "*"

def override (f : Filter) (tag : Text) (level : Level) : Filter :=
  { f with overrides := Assoc.put tag level f.overrides }

def splitItem (item : Text) : Text × Option Text :=
  (item.takeWhile (· ≠ Text.equalsSign), (item.dropWhile (· ≠ Text.equalsSign)).tail?)

def applyItem (f : Filter) (item : Text) : Filter :=
  match splitItem item with
  | (tag, some level) =>
      if tag = wildcard then { f with default := Level.ofText level }
      else f.override tag (Level.ofText level)
  | (tag, none) => if tag = [] then f else f.override tag .trace

def items (spec : Text) : List Text := spec.splitOn Text.comma

-- Earlier overrides are forgotten; the default stays until an item sets it.
def parse (f : Filter) (spec : Text) : Filter := (items spec).foldl applyItem { f with overrides := [] }

def setDefault (f : Filter) (level : Level) : Filter := { f with default := level }

def threshold (f : Filter) (tag : Text) : Level := (f.overrides.lookup tag).getD f.default

def accepts (f : Filter) (level : Level) (tag : Text) : Bool := f.threshold tag ≤ level

def least (f : Filter) : Level := f.overrides.foldl (fun lowest entry => min lowest entry.2) f.default

end Filter

end UnitRegistry.Log
