import UnitRegistry.Diagnostics.Message
import UnitRegistry.Environment
/-!
Categorized warnings. An enabled category passes each warning on at once; otherwise the warnings are held, and
a summary states how many there were and how to see them.
-/
set_option autoImplicit false

namespace UnitRegistry

structure Accumulator where
  what : Text
  option : Text
  enabled : Bool
  held : Array Remark := #[]
deriving DecidableEq, Inhabited

namespace Accumulator

def count (a : Accumulator) : Nat := a.held.size

def hold (a : Accumulator) (remark : Remark) : Accumulator := { a with held := a.held.push remark }

def clear (a : Accumulator) : Accumulator := { a with held := #[] }

def summaryMessage (a : Accumulator) (count : Nat) : Text :=
  (if count = 1 then Text.ofString "there was 1 " ++ a.what ++ " warning"
    else Text.ofString "there were " ++ Text.ofNat count ++ " " ++ a.what ++ " warnings") ++
    "; re-run with " ++ a.option ++ " for details"

def summary? (a : Accumulator) : Option Text := if a.count = 0 then none else some (a.summaryMessage a.count)

end Accumulator

inductive Category where
  | deprecation
  | unchecked
  | inliner
deriving DecidableEq, Inhabited

namespace Category

def all : List Category := [.deprecation, .unchecked, .inliner]

def what : Category → Text
  | .deprecation => "deprecation"
  | .unchecked => "unchecked"
  | .inliner => "inliner"

def option : Category → Text
  | .deprecation => "-deprecation"
  | .unchecked => "-unchecked"
  | .inliner => "-inline-warnings"

def accumulator (c : Category) (enabled : Bool) : Accumulator := ⟨c.what, c.option, enabled, #[]⟩

end Category

structure WarningSettings where
  deprecation : Bool := false
  unchecked : Bool := false
  inliner : Bool := false
deriving DecidableEq, Inhabited

def Options.warningSettings (o : Options) : WarningSettings := ⟨o.deprecation, o.unchecked, o.inlinerWarnings⟩

abbrev ReporterRef := Nat
abbrev ContextRef := Nat

structure RunContext where
  reporter : ReporterRef
  deprecation : Accumulator
  unchecked : Accumulator
  inliner : Accumulator
deriving DecidableEq, Inhabited

namespace RunContext

def create (reporter : ReporterRef) (settings : WarningSettings) : RunContext :=
  { reporter
    deprecation := Category.deprecation.accumulator settings.deprecation
    unchecked := Category.unchecked.accumulator settings.unchecked
    inliner := Category.inliner.accumulator settings.inliner }

def get (c : RunContext) : Category → Accumulator
  | .deprecation => c.deprecation
  | .unchecked => c.unchecked
  | .inliner => c.inliner

def modify (c : RunContext) (category : Category) (f : Accumulator → Accumulator) : RunContext :=
  match category with
  | .deprecation => { c with deprecation := f c.deprecation }
  | .unchecked => { c with unchecked := f c.unchecked }
  | .inliner => { c with inliner := f c.inliner }

end RunContext

inductive AccumulatorRef where
  | category (context : ContextRef) (category : Category)
  | single (index : Nat)
deriving DecidableEq, Inhabited

end UnitRegistry
