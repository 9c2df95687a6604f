import UnitRegistry.Text
/-!
Faults: what breaks a caller's contract, and what an embedding raises itself.
-/
set_option autoImplicit false

namespace UnitRegistry

inductive FaultKind where
  | argument
  | logic
  | runtime
  | access
deriving DecidableEq, Inhabited

inductive Fault where
  | nullSource
  | noLocation
  | undefinedXml (unit : Text)
  | repeatedXml (unit first : Text)
  | wrongOutcome
  | raised (kind : FaultKind) (message : Text)
deriving DecidableEq, Inhabited

namespace Fault

def kind : Fault → FaultKind
  | .nullSource => .argument
  | .noLocation => .logic
  | .undefinedXml _ => .logic
  | .repeatedXml _ _ => .logic
  | .wrongOutcome => .access
  | .raised kind _ => kind

def statement : Fault → Text
  | .nullSource => "add_source: null source file"
  | .noLocation => "Position::location() called on NoPosition"
  | .undefinedXml unit => "encountered_xml: undefined position in " ++ unit
  | .repeatedXml unit first => "encountered_xml: " ++ unit ++ " already recorded an XML literal at " ++ first
  | .wrongOutcome => []
  | .raised _ message => message

-- A message is handed over as a zero-terminated string.
def message (fault : Fault) : Text := fault.statement.untilZero

end Fault

def unwrap {α : Type} : Except Text α → Except Fault α
  | .ok value => .ok value
  | .error _ => .error .wrongOutcome

def unwrapError {α : Type} : Except Text α → Except Fault Text
  | .ok _ => .error .wrongOutcome
  | .error text => .ok text

end UnitRegistry
