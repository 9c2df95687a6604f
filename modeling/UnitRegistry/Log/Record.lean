import UnitRegistry.Clock
import UnitRegistry.Log.Level

set_option autoImplicit false

namespace UnitRegistry.Log

structure Record where
  level : Level
  tag : Text
  message : Text
  time : Int
deriving DecidableEq, Inhabited

inductive Format where
  | text
  | json
deriving DecidableEq, Inhabited

namespace Record

def escapeByte (byte : UInt8) : Text :=
  if byte = Text.quote then "\\\""
  else if byte = Text.backslash then "\\\\"
  else if byte = Text.lineFeed then "\\n"
  else if byte = Text.carriageReturn then "\\r"
  else if byte = Text.tab then "\\t"
  else [byte]

def escaped (t : Text) : Text := t.flatMap escapeByte

def json (r : Record) : Text :=
  "\x7b\"ts\":" ++ Text.ofInt r.time ++ ",\"level\":\"" ++ r.level.name ++ "\",\"module\":\"" ++ escaped r.tag ++
    "\",\"msg\":\"" ++ escaped r.message ++ "\"\x7d"

def levelColumn (level : Level) : Text := List.rightpad 5 Text.space level.name

def bracketed (r : Record) : Text := " [" ++ r.tag ++ "] " ++ r.message

def text (now : Int) (r : Record) : Text := Clock.timeOfDay now ++ " " ++ levelColumn r.level ++ r.bracketed

def format (now : Int) (r : Record) : Format → Text
  | .text => r.text now
  | .json => r.json

def levelColor : Level → Text
  | .trace => Text.escape :: "[90m"
  | .debug => Text.escape :: "[36m"
  | .info => Text.escape :: "[32m"
  | .warn => Text.escape :: "[33m"
  | .error => Text.escape :: "[31m"
  | .fatal => Text.escape :: "[1;31m"
  | .off => []

def coloredText (now : Int) (r : Record) : Text :=
  Clock.timeOfDay now ++ " " ++ levelColor r.level ++ levelColumn r.level ++ Text.escape :: "[0m" ++ r.bracketed

end Record

end UnitRegistry.Log
