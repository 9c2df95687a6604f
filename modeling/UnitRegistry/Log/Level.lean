import UnitRegistry.Text

set_option autoImplicit false

namespace UnitRegistry.Log

inductive Level where
  | trace
  | debug
  | info
  | warn
  | error
  | fatal
  | off
deriving DecidableEq, Inhabited

namespace Level

def all : List Level := [.trace, .debug, .info, .warn, .error, .fatal, .off]

def rank : Level → Nat
  | .trace => 0
  | .debug => 1
  | .info => 2
  | .warn => 3
  | .error => 4
  | .fatal => 5
  | .off => 6

instance : LE Level := ⟨fun a b => a.rank ≤ b.rank⟩

instance (a b : Level) : Decidable (a ≤ b) := inferInstanceAs (Decidable (a.rank ≤ b.rank))

instance : LT Level := ⟨fun a b => a.rank < b.rank⟩

instance (a b : Level) : Decidable (a < b) := inferInstanceAs (Decidable (a.rank < b.rank))

instance : Min Level := ⟨fun a b => if b < a then b else a⟩

def name : Level → Text
  | .trace => "TRACE"
  | .debug => "DEBUG"
  | .info => "INFO"
  | .warn => "WARN"
  | .error => "ERROR"
  | .fatal => "FATAL"
  | .off => "OFF"

def lowerName : Level → Text
  | .trace => "trace"
  | .debug => "debug"
  | .info => "info"
  | .warn => "warn"
  | .error => "error"
  | .fatal => "fatal"
  | .off => "off"

def nameAt (code : Int) : Text := if code < 0 then "???" else (all[code.toNat]?).elim "???" name

def ofText (t : Text) : Level := (all.find? fun level => t == level.lowerName || t == level.name).getD .info

end Level

end UnitRegistry.Log
