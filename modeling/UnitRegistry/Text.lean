/-!
Text as bytes. Offsets, columns, widths and carets count bytes, so a text is the list of its bytes and every
layout rule is a rule on lists.
-/
set_option autoImplicit false

namespace UnitRegistry

abbrev Text := List UInt8

namespace Text

def ofString (s : String) : Text := s.toList.flatMap String.utf8EncodeChar

instance : Coe String Text := ⟨ofString⟩

def lineFeed : UInt8 := 10
def carriageReturn : UInt8 := 13
def tab : UInt8 := 9
def escape : UInt8 := 27
def space : UInt8 := 32
def quote : UInt8 := 34
def comma : UInt8 := 44
def hyphen : UInt8 := 45
def dot : UInt8 := 46
def slash : UInt8 := 47
def zero : UInt8 := 48
def equalsSign : UInt8 := 61
def caret : UInt8 := 94
def backslash : UInt8 := 92
def letterV : UInt8 := 118

def ofNat (n : Nat) : Text := (Nat.toDigits 10 n).map Char.toUInt8

def ofInt : Int → Text
  | .ofNat n => ofNat n
  | .negSucc n => hyphen :: ofNat (n + 1)

-- Where a text is handed over as a zero-terminated string, it ends before its first zero byte.
def untilZero (t : Text) : Text := t.takeWhile (· ≠ 0)

def startsWith (t stem : Text) : Bool := stem.isPrefixOf t

def endsWith (t ending : Text) : Bool := ending.isSuffixOf t

def joined (separator : Text) : List Text → Text
  | [] => []
  | [t] => t
  | t :: rest => t ++ separator ++ joined separator rest

theorem char_of_digit_byte (c : Char) (digit : c.isDigit = true) : Char.ofNat c.toUInt8.toNat = c := by
  have bound : c.toNat ≤ 57 := by
    simp only [Char.isDigit, Bool.and_eq_true, decide_eq_true_eq] at digit
    exact digit.2
  have byte : c.toUInt8.toNat = c.toNat := by
    change c.toNat % 256 = c.toNat
    omega
  rw [byte, Char.ofNat_toNat]

theorem of_nat_injective {m n : Nat} (same : ofNat m = ofNat n) : m = n := by
  have digits (k : Nat) : (ofNat k).map (fun byte => Char.ofNat byte.toNat) = Nat.toDigits 10 k := by
    rw [ofNat, List.map_map]
    have each : ∀ c ∈ Nat.toDigits 10 k, Char.ofNat c.toUInt8.toNat = c := fun c member =>
      char_of_digit_byte c (Nat.isDigit_of_mem_toDigits (by decide) (by decide) member)
    exact (List.map_congr_left each).trans (List.map_id _)
  have read : Nat.toDigits 10 m = Nat.toDigits 10 n := by rw [← digits m, ← digits n, same]
  have back := congrArg (fun digits => Nat.ofDigitChars 10 digits 0) read
  simpa using back

theorem digit_of_nat {n : Nat} {byte : UInt8} (member : byte ∈ ofNat n) : 48 ≤ byte.toNat ∧ byte.toNat ≤ 57 := by
  obtain ⟨c, among, rfl⟩ := List.mem_map.mp member
  have digit := Nat.isDigit_of_mem_toDigits (by decide) (by decide) among
  simp only [Char.isDigit, Bool.and_eq_true, decide_eq_true_eq] at digit
  have bounds : 48 ≤ c.toNat ∧ c.toNat ≤ 57 := digit
  change 48 ≤ c.toNat % 256 ∧ c.toNat % 256 ≤ 57
  omega

theorem byte_of_int {n : Int} {byte : UInt8} (member : byte ∈ ofInt n) : byte = hyphen ∨ 48 ≤ byte.toNat ∧ byte.toNat ≤ 57 := by
  cases n with
  | ofNat n => exact .inr (digit_of_nat member)
  | negSucc n => exact (List.mem_cons.mp member).imp id digit_of_nat

theorem of_int_injective {m n : Int} (same : ofInt m = ofInt n) : m = n := by
  have signed {j k : Nat} : ofNat j ≠ hyphen :: ofNat k := by
    intro equal
    have member : hyphen ∈ ofNat j := by simp [equal]
    exact absurd (digit_of_nat member).1 (by decide)
  cases m with
  | ofNat m =>
      cases n with
      | ofNat n => exact congrArg Int.ofNat (of_nat_injective same)
      | negSucc n => exact absurd same signed
  | negSucc m =>
      cases n with
      | ofNat n => exact absurd same.symm signed
      | negSucc n =>
          have next := of_nat_injective (List.cons.inj same).2
          rw [Nat.succ.inj next]

end Text

end UnitRegistry
