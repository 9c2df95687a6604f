import Mathlib.Data.List.Basic
import UnitRegistry.Proofs.RecordLines
/-!
Reading JSON, as strictly as the standard has it: from bytes in UTF-8 to a value. The line of a record reads back as an
object with its time, level, module and message, unless a text has a control character in it that has no escape of its own.
-/
set_option autoImplicit false

namespace UnitRegistry

namespace Text

def ofChars (t : List Char) : Text := t.flatMap String.utf8EncodeChar

def chars? (t : Text) : Option (List Char) := t.toByteArray.utf8Decode?.map Array.toList

theorem chars_of_chars (t : List Char) : chars? (ofChars t) = some t := by
  have decoded : (ofChars t).toByteArray.utf8Decode? = some t.toArray := List.utf8Decode?_utf8Encode
  rw [chars?, decoded, Option.map_some]

end Text

inductive JsonValue where
  | null
  | truth (value : Bool)
  | number (mantissa exponent : Int)
  | string (text : Text)
  | array (items : List JsonValue)
  | object (members : List (Text × JsonValue))

namespace JsonValue

abbrev Reader (α : Type) := List Char → Option (α × List Char)

def isBlank (c : Char) : Bool := c == ' ' || c == '\t' || c == '\n' || c == '\r'

def skip (t : List Char) : List Char := t.dropWhile isBlank

def token? (c : Char) (t : List Char) : Option (List Char) :=
  match skip t with
  | [] => none
  | first :: rest => if first = c then some rest else none

def escapes : List (Char × Char) :=
  [('"', '"'), ('\\', '\\'), ('/', '/'), ('b', '\x08'), ('f', '\x0c'), ('n', '\n'), ('r', '\r'), ('t', '\t')]

def hexDigit? (c : Char) : Option Nat :=
  if '0' ≤ c ∧ c ≤ '9' then some (c.toNat - 48)
  else if 'A' ≤ c ∧ c ≤ 'F' then some (c.toNat - 55)
  else if 'a' ≤ c ∧ c ≤ 'f' then some (c.toNat - 87)
  else none

def unit? (a b c d : Char) : Option Nat := do
  return (((← hexDigit? a) * 16 + (← hexDigit? b)) * 16 + (← hexDigit? c)) * 16 + (← hexDigit? d)

def charOf? (code : Nat) : Option Char := if code.isValidChar then some (Char.ofNat code) else none

-- Beyond the first 65536 characters, a character is written as two units.
def pairOf? (high low : Nat) : Option Char :=
  if 0xD800 ≤ high ∧ high < 0xDC00 ∧ 0xDC00 ≤ low ∧ low < 0xE000 then
    charOf? (0x10000 + (high - 0xD800) * 0x400 + (low - 0xDC00))
  else none

def behind (c : Char) : List Char × List Char → List Char × List Char
  | (text, rest) => (c :: text, rest)

-- The characters of a string behind its opening quote. A half of a pair is no character.
def body? : Reader (List Char)
  | [] => none
  | '"' :: rest => some ([], rest)
  | '\\' :: 'u' :: a :: b :: c :: d :: rest =>
      match unit? a b c d with
      | none => none
      | some unit =>
          match charOf? unit with
          | some char => (body? rest).map (behind char)
          | none =>
              match rest with
              | '\\' :: 'u' :: e :: f :: g :: h :: rest =>
                  match (unit? e f g h).bind (pairOf? unit) with
                  | some char => (body? rest).map (behind char)
                  | none => none
              | _ => none
  | '\\' :: mark :: rest =>
      match escapes.lookup mark with
      | some char => (body? rest).map (behind char)
      | none => none
  | char :: rest => if ' ' ≤ char then (body? rest).map (behind char) else none

def string? : Reader Text := fun t => (body? t).map fun (text, rest) => (Text.ofChars text, rest)

def digits? : Reader (List Char) := fun t =>
  match t.takeWhile Char.isDigit with
  | [] => none
  | found => some (found, t.dropWhile Char.isDigit)

def whole? : Reader (List Char)
  | '0' :: rest => some (['0'], rest)
  | t => digits? t

def fraction? : Reader (List Char)
  | '.' :: rest => digits? rest
  | t => some ([], t)

def exponent? : Reader Int
  | mark :: t =>
      if mark = 'e' ∨ mark = 'E' then
        match t with
        | '-' :: rest => (digits? rest).map fun (ds, rest) => (-(Nat.ofDigitChars 10 ds 0 : Int), rest)
        | '+' :: rest => (digits? rest).map fun (ds, rest) => ((Nat.ofDigitChars 10 ds 0 : Int), rest)
        | rest => (digits? rest).map fun (ds, rest) => ((Nat.ofDigitChars 10 ds 0 : Int), rest)
      else some (0, mark :: t)
  | [] => some (0, [])

def magnitude? : Reader (Nat × Int) := fun t => do
  let (whole, t) ← whole? t
  let (fraction, t) ← fraction? t
  let (exponent, t) ← exponent? t
  return ((Nat.ofDigitChars 10 (whole ++ fraction) 0, exponent - fraction.length), t)

def number? : Reader JsonValue
  | '-' :: t => (magnitude? t).map fun ((mantissa, exponent), rest) => (.number (-(mantissa : Int)) exponent, rest)
  | t => (magnitude? t).map fun ((mantissa, exponent), rest) => (.number mantissa exponent, rest)

def word? (word : List Char) (value : JsonValue) : Reader JsonValue := fun t =>
  if word.isPrefixOf t then some (value, t.drop word.length) else none

def items? {α : Type} (item? : Reader α) (close : Char) : Nat → Reader (List α)
  | 0, _ => none
  | more + 1, t => do
      let (item, t) ← item? t
      match token? ',' t with
      | some t =>
          let (items, t) ← items? item? close more t
          return (item :: items, t)
      | none =>
          let t ← token? close t
          return ([item], t)

def list? {α : Type} (item? : Reader α) (close : Char) : Reader (List α) := fun t =>
  match token? close t with
  | some rest => some ([], rest)
  | none => items? item? close t.length t

def member? (value? : Reader JsonValue) : Reader (Text × JsonValue) := fun t => do
  let t ← token? '"' t
  let (name, t) ← string? t
  let t ← token? ':' t
  let (value, t) ← value? t
  return ((name, value), t)

def value? : Nat → Reader JsonValue
  | 0, _ => none
  | depth + 1, t =>
      match skip t with
      | '"' :: t => (string? t).map fun (text, rest) => (.string text, rest)
      | '[' :: t => (list? (value? depth) ']' t).map fun (items, rest) => (.array items, rest)
      | '\x7b' :: t => (list? (member? (value? depth)) '\x7d' t).map fun (members, rest) => (.object members, rest)
      | 'n' :: t => word? ['u', 'l', 'l'] .null t
      | 't' :: t => word? ['r', 'u', 'e'] (.truth true) t
      | 'f' :: t => word? ['a', 'l', 's', 'e'] (.truth false) t
      | t => number? t

-- Values are nested no deeper than there are characters.
def ofChars? (t : List Char) : Option JsonValue := do
  let (value, rest) ← value? t.length t
  if skip rest = [] then return value else none

def read? (t : Text) : Option JsonValue := (Text.chars? t).bind ofChars?

theorem skip_cons {c : Char} (rest : List Char) (shown : isBlank c = false) : skip (c :: rest) = c :: rest := by
  rw [skip, List.dropWhile_cons_of_neg (by simp [shown])]

theorem token_cons {c : Char} (rest : List Char) (shown : isBlank c = false) : token? c (c :: rest) = some rest := by
  rw [token?, skip_cons rest shown]
  exact if_pos rfl

theorem token_other {c first : Char} (rest : List Char) (shown : isBlank first = false) (other : first ≠ c) :
    token? c (first :: rest) = none := by
  rw [token?, skip_cons rest shown]
  exact if_neg other

theorem body_plain {c : Char} (rest : List Char) (noQuote : c ≠ '"') (noEscape : c ≠ '\\') :
    body? (c :: rest) = if ' ' ≤ c then (body? rest).map (behind c) else none := by
  rw [body?]
  · exact fun same => noQuote same
  · intro _ _ _ _ _ same
    exact absurd same noEscape
  · intro _ _ same
    exact absurd same noEscape

section Items

variable {α : Type} {item? : Reader α} {close : Char} {more : Nat} {t rest : List Char}

theorem items_next {item : α} (read : item? t = some (item, ',' :: rest)) :
    items? item? close (more + 1) t = (items? item? close more rest).map fun (items, rest) => (item :: items, rest) := by
  simp only [items?, read, bind, Option.bind, token_cons rest (show isBlank ',' = false from rfl)]
  cases items? item? close more rest <;> rfl

theorem items_last {item : α} (read : item? t = some (item, close :: rest)) (shown : isBlank close = false)
    (ends : close ≠ ',') : items? item? close (more + 1) t = some ([item], rest) := by
  simp only [items?, read, bind, Option.bind, token_other rest shown ends, token_cons rest shown]
  rfl

theorem items_none (failed : item? t = none) : items? item? close (more + 1) t = none := by
  simp only [items?, failed, bind, Option.bind]

end Items

theorem digits_before_comma {ds : List Char} (rest : List Char) (all : ∀ c ∈ ds, c.isDigit = true) (some : ds ≠ []) :
    digits? (ds ++ ',' :: rest) = .some (ds, ',' :: rest) := by
  have taken : (ds ++ ',' :: rest).takeWhile Char.isDigit = ds := by
    rw [List.takeWhile_append_of_pos all]
    exact List.append_nil ds
  have left : (ds ++ ',' :: rest).dropWhile Char.isDigit = ',' :: rest := by
    rw [List.dropWhile_append_of_pos all]
    rfl
  rw [digits?, taken, left]
  cases ds with
  | nil => exact absurd rfl some
  | cons c ds => rfl

theorem leading_digit (n : Nat) (positive : 0 < n) : (Nat.toDigits 10 n).head? ≠ some '0' := by
  induction n using Nat.strongRecOn with
  | _ n ih =>
      by_cases single : n < 10
      · have digits : ∀ m < 10, 0 < m → m.digitChar ≠ '0' := by decide
        simpa [Nat.toDigits_of_lt_base single] using digits n single positive
      · have shorter := ih (n / 10) (by omega) (by omega)
        rw [Nat.toDigits_of_base_le (by decide) (by omega), List.head?_append]
        cases front : Nat.toDigits 10 (n / 10) with
        | nil => exact absurd front Nat.toDigits_ne_nil
        | cons c ds => rwa [front] at shorter

theorem whole_before_comma (n : Nat) (rest : List Char) :
    whole? (Nat.toDigits 10 n ++ ',' :: rest) = some (Nat.toDigits 10 n, ',' :: rest) := by
  have all : ∀ c ∈ Nat.toDigits 10 n, c.isDigit = true :=
    fun _ among => Nat.isDigit_of_mem_toDigits (by decide) (by decide) among
  by_cases zero : n = 0
  · subst n
    rfl
  · have first := leading_digit n (Nat.pos_of_ne_zero zero)
    have read := digits_before_comma rest all Nat.toDigits_ne_nil
    cases written : Nat.toDigits 10 n with
    | nil => exact absurd written Nat.toDigits_ne_nil
    | cons c ds =>
        rw [written] at first read
        rw [List.cons_append, whole?]
        · exact read
        · intro _ same
          exact first (congrArg some (List.cons.inj same).1)

theorem magnitude_before_comma (n : Nat) (rest : List Char) :
    magnitude? (Nat.toDigits 10 n ++ ',' :: rest) = some ((n, 0), ',' :: rest) := by
  have fraction : fraction? (',' :: rest) = some ([], ',' :: rest) := rfl
  have exponent : exponent? (',' :: rest) = some (0, ',' :: rest) := rfl
  simp only [magnitude?, whole_before_comma, fraction, exponent, bind, Option.bind, List.append_nil]
  simp [Nat.ofDigitChars_ten_toDigits]

def decimal : Int → List Char
  | .ofNat n => Nat.toDigits 10 n
  | .negSucc n => '-' :: Nat.toDigits 10 (n + 1)

theorem number_before_comma (n : Int) (rest : List Char) :
    number? (decimal n ++ ',' :: rest) = some (.number n 0, ',' :: rest) := by
  cases n with
  | negSucc n => simp [decimal, number?, magnitude_before_comma, Int.negSucc_eq]
  | ofNat n =>
      have first : ∀ c ∈ Nat.toDigits 10 n, c ≠ '-' := by
        rintro _ among rfl
        exact absurd (Nat.isDigit_of_mem_toDigits (by decide) (by decide) among) (by decide)
      have read := magnitude_before_comma n rest
      rw [decimal]
      cases written : Nat.toDigits 10 n with
      | nil => exact absurd written Nat.toDigits_ne_nil
      | cons c ds =>
          rw [written] at first read
          rw [List.cons_append] at read ⊢
          rw [number?]
          · simp [read]
          · intro _ same
            exact first c List.mem_cons_self (List.cons.inj same).1

theorem value_of_number {c : Char} (rest : List Char) (depth : Nat) (starts : c = '-' ∨ c.isDigit = true) :
    value? (depth + 1) (c :: rest) = number? (c :: rest) := by
  have other (d : Char) (apart : d ≠ '-' ∧ d.isDigit = false) : c ≠ d := by
    rintro rfl
    obtain minus | digit := starts
    · exact apart.1 minus
    · exact absurd digit (by simp [apart.2])
  have shown : isBlank c = false := by
    simp [isBlank, other ' ' (by decide), other '\t' (by decide), other '\n' (by decide), other '\r' (by decide)]
  rw [value?, skip_cons rest shown]
  split
  all_goals first
    | rfl
    | next same => exact absurd (List.cons.inj same).1 (other _ (by decide))

theorem decimal_starts (n : Int) : ∃ c rest, decimal n = c :: rest ∧ (c = '-' ∨ c.isDigit = true) := by
  cases n with
  | negSucc n => exact ⟨'-', _, rfl, .inl rfl⟩
  | ofNat n =>
      cases written : Nat.toDigits 10 n with
      | nil => exact absurd written Nat.toDigits_ne_nil
      | cons c ds =>
          have among : c ∈ Nat.toDigits 10 n := by simp [written]
          exact ⟨c, ds, written, .inr (Nat.isDigit_of_mem_toDigits (by decide) (by decide) among)⟩

theorem value_before_comma (n : Int) (rest : List Char) (depth : Nat) :
    value? (depth + 1) (decimal n ++ ',' :: rest) = some (.number n 0, ',' :: rest) := by
  obtain ⟨c, ds, written, starts⟩ := decimal_starts n
  have read := number_before_comma n rest
  rw [written] at read ⊢
  rw [List.cons_append, value_of_number _ depth starts]
  exact read

theorem value_string (t : List Char) (depth : Nat) :
    value? (depth + 1) ('"' :: t) = (string? t).map fun (text, rest) => (.string text, rest) := rfl

def Closed (t : List Char) : Prop := ∀ rest, body? (t ++ '"' :: rest) = some (t, rest)

def quoted (t rest : List Char) : List Char := '"' :: (t ++ '"' :: rest)

def field (key : String) (value : List Char) : List Char := quoted key.toList (':' :: value)

theorem value_quoted {t : List Char} (closed : Closed t) (rest : List Char) (depth : Nat) :
    value? (depth + 1) (quoted t rest) = some (.string (Text.ofChars t), rest) := by
  rw [quoted, value_string, string?, closed]
  rfl

theorem member_field {key : String} (closed : Closed key.toList) (value : List Char) (depth : Nat) :
    member? (value? depth) (field key value) = (value? depth value).map fun (value, rest) => (((key : Text), value), rest) := by
  have quote : token? '"' (field key value) = some (key.toList ++ '"' :: ':' :: value) := token_cons _ rfl
  have colon : token? ':' (':' :: value) = some value := token_cons value rfl
  simp only [member?, quote, string?, closed (':' :: value), Option.map_some, colon, bind, Option.bind]
  cases value? depth value <;> rfl

end JsonValue

namespace Log

namespace Record

def escapeChar (c : Char) : List Char :=
  match c with
  | '"' => ['\\', '"']
  | '\\' => ['\\', '\\']
  | '\n' => ['\\', 'n']
  | '\r' => ['\\', 'r']
  | '\t' => ['\\', 't']
  | c => [c]

def escapedChars (t : List Char) : List Char := t.flatMap escapeChar

def Shown (c : Char) : Prop := ' ' ≤ c ∨ c = '\n' ∨ c = '\r' ∨ c = '\t'

instance (c : Char) : Decidable (Shown c) := inferInstanceAs (Decidable (_ ∨ _))

def Plain (t : List Char) : Prop := ∀ c ∈ t, Shown c

instance (t : List Char) : Decidable (Plain t) := List.decidableBAll Shown t

theorem escape_ascii : ∀ code < 128, escapeByte (UInt8.ofNat code) = Text.ofChars (escapeChar (Char.ofNat code)) := by
  decide

theorem escape_large {byte : UInt8} (large : 128 ≤ byte.toNat) : escapeByte byte = [byte] := by
  obtain ⟨mark, member, _⟩ | ⟨_, written⟩ := escape_cases byte
  · have small : marks.all (·.1.toNat < 128) = true := by decide
    exact absurd large (Nat.not_le_of_lt (of_decide_eq_true (List.all_eq_true.mp small (byte, mark) member)))
  · exact written

theorem large_bytes {c : Char} (large : 128 ≤ c.toNat) : ∀ byte ∈ String.utf8EncodeChar c, 128 ≤ byte.toNat := by
  intro byte member
  have code : 128 ≤ c.val.toNat := large
  simp only [String.utf8EncodeChar] at member
  split at member
  · omega
  split at member
  · simp only [List.mem_cons, List.not_mem_nil, or_false] at member
    obtain rfl | rfl := member <;> simp only [UInt8.toNat_ofNat'] <;> omega
  split at member
  · simp only [List.mem_cons, List.not_mem_nil, or_false] at member
    obtain rfl | rfl | rfl := member <;> simp only [UInt8.toNat_ofNat'] <;> omega
  · simp only [List.mem_cons, List.not_mem_nil, or_false] at member
    obtain rfl | rfl | rfl | rfl := member <;> simp only [UInt8.toNat_ofNat'] <;> omega

theorem escape_char_large {c : Char} (large : 128 ≤ c.toNat) : escapeChar c = [c] := by
  unfold escapeChar
  split
  all_goals first
    | rfl
    | exact absurd large (by decide)

theorem escape_of_char (c : Char) : (String.utf8EncodeChar c).flatMap escapeByte = Text.ofChars (escapeChar c) := by
  by_cases ascii : c.toNat < 128
  · have single : String.utf8EncodeChar c = [UInt8.ofNat c.toNat] := if_pos (Nat.le_of_lt_succ ascii)
    have same := escape_ascii c.toNat ascii
    rw [Char.ofNat_toNat] at same
    rw [single, List.flatMap_singleton, same]
  · have large : 128 ≤ c.toNat := Nat.le_of_not_lt ascii
    have each : ∀ byte ∈ String.utf8EncodeChar c, escapeByte byte = [byte] :=
      fun byte member => escape_large (large_bytes large byte member)
    rw [escape_char_large large, Text.ofChars, List.flatMap_singleton, List.flatMap_congr each, List.flatMap_singleton']

theorem escaped_of_chars (t : List Char) : escaped (Text.ofChars t) = Text.ofChars (escapedChars t) := by
  rw [escaped, Text.ofChars, Text.ofChars, escapedChars, List.flatMap_assoc, List.flatMap_assoc]
  exact List.flatMap_congr fun c _ => escape_of_char c

open JsonValue

theorem body_escape (c : Char) (rest : List Char) :
    body? (escapeChar c ++ rest) = if Shown c then (body? rest).map (behind c) else none := by
  unfold escapeChar
  split
  · rfl
  · rfl
  · rfl
  · rfl
  · rfl
  · next noQuote noEscape noFeed noReturn noTab =>
      have shown : Shown c ↔ ' ' ≤ c := or_iff_left (not_or.mpr ⟨noFeed, not_or.mpr ⟨noReturn, noTab⟩⟩)
      rw [List.singleton_append, body_plain rest noQuote noEscape]
      simp only [shown]

theorem body_escaped (t rest : List Char) :
    body? (escapedChars t ++ '"' :: rest) = if Plain t then some (t, rest) else none := by
  induction t with
  | nil => exact (if_pos fun _ none => absurd none List.not_mem_nil).symm
  | cons c t ih =>
      have both : Plain (c :: t) ↔ Shown c ∧ Plain t := List.forall_mem_cons
      rw [escapedChars, List.flatMap_cons, List.append_assoc, body_escape, ← escapedChars, ih]
      by_cases shown : Shown c
      · by_cases plain : Plain t <;> simp [both, shown, plain, behind]
      · simp [both, shown]

theorem decimal_text (n : Int) : Text.ofInt n = Text.ofChars (decimal n) := by
  have digits (m : Nat) : Text.ofNat m = Text.ofChars (Nat.toDigits 10 m) := by
    have each : ∀ c ∈ Nat.toDigits 10 m, String.utf8EncodeChar c = [c.toUInt8] := by
      intro c among
      have digit := Nat.isDigit_of_mem_toDigits (by decide) (by decide) among
      simp only [Char.isDigit, Bool.and_eq_true, decide_eq_true_eq] at digit
      have small : c.val.toNat ≤ 57 := digit.2
      exact if_pos (Nat.le_trans small (by decide))
    rw [Text.ofNat, Text.ofChars, List.flatMap_congr each, List.map_eq_flatMap]
  cases n with
  | ofNat n => exact digits n
  | negSucc n => exact congrArg (Text.hyphen :: ·) (digits (n + 1))

theorem level_chars (level : Level) : ∃ name : List Char, level.name = Text.ofChars name ∧ Closed name := by
  cases level with
  | trace => exact ⟨"TRACE".toList, rfl, fun _ => rfl⟩
  | debug => exact ⟨"DEBUG".toList, rfl, fun _ => rfl⟩
  | info => exact ⟨"INFO".toList, rfl, fun _ => rfl⟩
  | warn => exact ⟨"WARN".toList, rfl, fun _ => rfl⟩
  | error => exact ⟨"ERROR".toList, rfl, fun _ => rfl⟩
  | fatal => exact ⟨"FATAL".toList, rfl, fun _ => rfl⟩
  | off => exact ⟨"OFF".toList, rfl, fun _ => rfl⟩

def line (time : Int) (level tag message : List Char) : List Char :=
  field "ts" (decimal time ++ ',' :: field "level" (quoted level (',' :: field "module" (quoted (escapedChars tag)
    (',' :: field "msg" (quoted (escapedChars message) ['\x7d']))))))

theorem json_chars (r : Record) {level tag message : List Char} (ranked : r.level.name = Text.ofChars level)
    (named : r.tag = Text.ofChars tag) (said : r.message = Text.ofChars message) :
    r.json = Text.ofChars ('\x7b' :: line r.time level tag message) := by
  rw [json, ranked, named, said, decimal_text, escaped_of_chars, escaped_of_chars]
  simp only [line, field, quoted, Text.ofChars, Text.ofString, List.flatMap_append, List.flatMap_cons, List.append_assoc]
  rfl

def fields (r : Record) : List (Text × JsonValue) :=
  [("ts", .number r.time 0), ("level", .string r.level.name), ("module", .string r.tag), ("msg", .string r.message)]

theorem value_escaped (t rest : List Char) (depth : Nat) : value? (depth + 1) (quoted (escapedChars t) rest) =
    if Plain t then some (.string (Text.ofChars t), rest) else none := by
  rw [quoted, value_string, string?, body_escaped]
  by_cases plain : Plain t <;> simp [plain]

theorem fields_read (r : Record) {level tag message : List Char} (depth more : Nat) (ranked : r.level.name = Text.ofChars level)
    (named : r.tag = Text.ofChars tag) (said : r.message = Text.ofChars message) (closed : Closed level) :
    items? (member? (value? (depth + 1))) '\x7d' (more + 4) (line r.time level tag message) =
      if Plain tag ∧ Plain message then some (r.fields, []) else none := by
  have text {key : String} (keyed : Closed key.toList) (t rest : List Char) (plain : Plain t) :
      member? (value? (depth + 1)) (field key (quoted (escapedChars t) rest)) =
        some (((key : Text), .string (Text.ofChars t)), rest) := by
    rw [member_field keyed, value_escaped, if_pos plain, Option.map_some]
  have unread {key : String} (keyed : Closed key.toList) (t rest : List Char) (plain : ¬ Plain t) :
      member? (value? (depth + 1)) (field key (quoted (escapedChars t) rest)) = none := by
    rw [member_field keyed, value_escaped, if_neg plain, Option.map_none]
  have time (rest : List Char) : member? (value? (depth + 1)) (field "ts" (decimal r.time ++ ',' :: rest)) =
      some ((Text.ofString "ts", .number r.time 0), ',' :: rest) := by
    rw [member_field (fun _ => rfl), value_before_comma, Option.map_some]
  have rank (rest : List Char) : member? (value? (depth + 1)) (field "level" (quoted level rest)) =
      some ((Text.ofString "level", .string r.level.name), rest) := by
    rw [member_field (fun _ => rfl), value_quoted closed, Option.map_some, ranked]
  rw [line, items_next (time _), items_next (rank _)]
  by_cases first : Plain tag
  · rw [items_next (text (fun _ => rfl) tag _ first)]
    by_cases second : Plain message
    · rw [items_last (text (fun _ => rfl) message _ second) rfl (by decide), if_pos ⟨first, second⟩, ← named, ← said]
      rfl
    · rw [items_none (unread (fun _ => rfl) message _ second), if_neg fun both => second both.2]
      rfl
  · rw [items_none (unread (fun _ => rfl) tag _ first), if_neg fun both => first both.1]
    rfl

theorem chars_read (r : Record) {level tag message : List Char} (ranked : r.level.name = Text.ofChars level)
    (named : r.tag = Text.ofChars tag) (said : r.message = Text.ofChars message) (closed : Closed level) :
    ofChars? ('\x7b' :: line r.time level tag message) = if Plain tag ∧ Plain message then some (.object r.fields) else none := by
  obtain ⟨more, long⟩ : ∃ more, (line r.time level tag message).length = more + 4 := ⟨_, rfl⟩
  have opens : token? '\x7d' (line r.time level tag message) = none := token_other _ rfl (by decide)
  have read : value? ('\x7b' :: line r.time level tag message).length ('\x7b' :: line r.time level tag message) =
      (list? (member? (value? (more + 4))) '\x7d' (line r.time level tag message)).map
        fun (members, rest) => (.object members, rest) := by
    rw [List.length_cons, long]
    rfl
  rw [ofChars?, read, list?, opens, long]
  simp only [fields_read r (more + 3) more ranked named said closed]
  by_cases plain : Plain tag ∧ Plain message
  · simp only [if_pos plain]
    rfl
  · simp only [if_neg plain]
    rfl

theorem json_of_record (now : Int) (level : Level) (tag message : String) (time : Int) :
    read? (format now ⟨level, tag, message, time⟩ .json) =
      if Plain tag.toList ∧ Plain message.toList then some (.object (fields ⟨level, tag, message, time⟩)) else none := by
  obtain ⟨name, ranked, closed⟩ := level_chars level
  have named : (tag : Text) = Text.ofChars tag.toList := rfl
  have said : (message : Text) = Text.ofChars message.toList := rfl
  rw [format, read?, json_chars ⟨level, tag, message, time⟩ ranked named said, Text.chars_of_chars]
  exact chars_read ⟨level, tag, message, time⟩ ranked named said closed

theorem no_json_of_escape :
    read? (format 0 ⟨.info, "run", String.ofList ['\x1b', '[', '3', '1', 'm'], 0⟩ .json) = none := by
  decide +kernel

end Record

end Log

end UnitRegistry
