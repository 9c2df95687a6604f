import UnitRegistry.Text
/-!
What the library asks of the world around it: a clock, whether the error stream is a terminal, and two
variables. The switches that a whole process shares are here too.
-/
set_option autoImplicit false

namespace UnitRegistry

structure Environment where
  now : Int := 0
  terminal : Bool := false
  term : Option Text := none
  logVariable : Option Text := none
deriving DecidableEq, Inhabited

def Environment.supportsColors (e : Environment) : Bool :=
  e.terminal && e.term.any (fun term => term ≠ Text.ofString "dumb")

structure Options where
  verbose : Bool := false
  deprecation : Bool := false
  unchecked : Bool := false
  inlinerWarnings : Bool := false
  warningsAsErrors : Bool := false
deriving DecidableEq, Inhabited

end UnitRegistry
