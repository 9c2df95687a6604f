import UnitRegistry.Text
/-!
The time of day of a clock reading in milliseconds, as `HH:MM:SS.mmm`. Seconds and milliseconds are both cut
toward zero and written apart.
-/
set_option autoImplicit false

namespace UnitRegistry

namespace Clock

def padded (width : Nat) (value : Int) : Text := List.leftpad width Text.zero (Text.ofInt value)

def secondOfDay (reading : Int) : Int := (reading.tdiv 1000) % 86400

def timeOfDay (reading : Int) : Text :=
  let second := secondOfDay reading
  padded 2 (second / 3600) ++ ":" ++ padded 2 (second / 60 % 60) ++ ":" ++ padded 2 (second % 60) ++ "." ++
    padded 3 (reading.tmod 1000)

end Clock

end UnitRegistry
