import UnitRegistry.Source.Position

set_option autoImplicit false

namespace UnitRegistry

inductive Severity where
  | info
  | warning
  | error
deriving DecidableEq, Inhabited

namespace Severity

def all : List Severity := [.info, .warning, .error]

def name : Severity → Text
  | .info => "info"
  | .warning => "warning"
  | .error => "error"

def nameAt (code : UInt8) : Text := (all[code.toNat]?).elim "unknown" name

end Severity

structure Entry where
  severity : Severity
  position : Position
  message : Text
deriving DecidableEq, Inhabited

-- A positioned text without a severity: a remark, or a warning that is held back.
structure Remark where
  position : Position
  message : Text
deriving DecidableEq, Inhabited

end UnitRegistry
