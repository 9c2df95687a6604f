import Mathlib.Algebra.Group.Nat.Defs
import Mathlib.Data.List.Infix
import UnitRegistry.Clock

set_option autoImplicit false

namespace UnitRegistry

namespace Text

def isDigit (byte : UInt8) : Bool := 48 ≤ byte.toNat && byte.toNat ≤ 57

def digit (n : Nat) : UInt8 := UInt8.ofNat (48 + n)

def decimal (t : Text) : Nat := t.foldl (fun total byte => 10 * total + (byte.toNat - 48)) 0

theorem decimal_snoc (t : Text) (n : Nat) (small : n < 10) : decimal (t ++ [digit n]) = 10 * decimal t + n := by
  have byte : (digit n).toNat = 48 + n := by
    rw [digit, UInt8.toNat_ofNat']
    omega
  rw [decimal, List.foldl_append, List.foldl_cons, List.foldl_nil, byte, Nat.add_sub_cancel_left]
  rfl

theorem decimal_zeros (count : Nat) (t : Text) : decimal (List.replicate count zero ++ t) = decimal t := by
  induction count with
  | zero => rfl
  | succ count ih => exact ih

theorem of_nat_digit (n : Nat) (small : n < 10) : ofNat n = [digit n] := by
  have each : ∀ k < 10, (Nat.digitChar k).toUInt8 = digit k := by decide
  rw [ofNat, Nat.toDigits_of_lt_base small, List.map_singleton, each n small]

theorem of_nat_snoc (n : Nat) (large : 10 ≤ n) : ofNat n = ofNat (n / 10) ++ [digit (n % 10)] := by
  have last := of_nat_digit (n % 10) (Nat.mod_lt n (by decide))
  rw [ofNat, Nat.toDigits_of_lt_base (Nat.mod_lt n (by decide))] at last
  rw [ofNat, Nat.toDigits_of_base_le (by decide) large, List.map_append, last, ofNat]

-- By the digits from the last one: each is what is left of a division by ten.
theorem decimal_of_nat (n : Nat) : decimal (ofNat n) = n := by
  induction n using Nat.strongRecOn with
  | ind n ih =>
      by_cases small : n < 10
      · rw [of_nat_digit n small]
        exact (decimal_snoc [] n small).trans (Nat.zero_add n)
      · have large := Nat.le_of_not_lt small
        rw [of_nat_snoc n large, decimal_snoc _ _ (Nat.mod_lt n (by decide)), ih (n / 10) (by omega)]
        exact Nat.div_add_mod n 10

theorem of_nat_fits {n width : Nat} (positive : 0 < width) (fits : n < 10 ^ width) : (ofNat n).length ≤ width := by
  rw [ofNat, List.length_map]
  exact (Nat.length_toDigits_le_iff (by decide) positive).mpr fits

structure Spells (width value : Nat) (t : Text) : Prop where
  length : t.length = width
  digits : ∀ byte ∈ t, isDigit byte = true
  decimal : t.decimal = value

end Text

namespace Clock

open Text (isDigit decimal hyphen dot zero Spells)

def colon : UInt8 := 58

theorem padded_nat (width n : Nat) : padded width n = List.replicate (width - (Text.ofNat n).length) zero ++ Text.ofNat n := rfl

theorem padded_spells {width n : Nat} (positive : 0 < width) (fits : n < 10 ^ width) : Spells width n (padded width n) where
  length := by
    have short := Text.of_nat_fits positive fits
    rw [padded_nat, List.length_append, List.length_replicate]
    omega
  digits byte member := by
    rw [padded_nat] at member
    rcases List.mem_append.mp member with fill | written
    · rw [List.eq_of_mem_replicate fill]
      rfl
    · simpa [isDigit] using Text.digit_of_nat written
  decimal := by rw [padded_nat, Text.decimal_zeros, Text.decimal_of_nat]

theorem sign_in_front {width : Nat} (room : 2 ≤ width) (n : Nat) : hyphen ∈ (padded width (Int.negSucc n)).take width := by
  have some : (Text.ofNat (n + 1)).length ≠ 0 := by simp [Text.ofNat]
  let fill : Text := List.replicate (width - ((Text.ofNat (n + 1)).length + 1)) zero
  have front : fill ++ [hyphen] <+: padded width (Int.negSucc n) := by
    refine ⟨Text.ofNat (n + 1), ?_⟩
    rw [List.append_assoc]
    rfl
  have short : (fill ++ [hyphen]).length ≤ width := by
    rw [List.length_append, List.length_replicate, List.length_singleton]
    omega
  exact (List.prefix_take_iff.mpr ⟨front, short⟩).subset (by simp)

def field (t : Text) (start width : Nat) : Text := (t.drop start).take width

def hours (t : Text) : Nat := decimal (field t 0 2)

def minutes (t : Text) : Nat := decimal (field t 3 2)

def seconds (t : Text) : Nat := decimal (field t 6 2)

def millis (t : Text) : Nat := decimal (field t 9 3)

structure Form (t : Text) : Prop where
  length : t.length = 12
  digits : ∀ byte ∈ field t 0 2 ++ field t 3 2 ++ field t 6 2 ++ field t 9 3, isDigit byte = true
  marks : t[2]? = some colon ∧ t[5]? = some colon ∧ t[8]? = some dot
  bounds : hours t < 24 ∧ minutes t < 60 ∧ seconds t < 60

def sinceMidnight (t : Text) : Nat := ((hours t * 60 + minutes t) * 60 + seconds t) * 1000 + millis t

structure Tells (t : Text) (time : Nat) : Prop where
  form : Form t
  time : sinceMidnight t = time

def face (second : Nat) : Text :=
  padded 2 (second / 3600 : Nat) ++ ":" ++ padded 2 (second / 60 % 60 : Nat) ++ ":" ++ padded 2 (second % 60 : Nat)

theorem second_of_day_range (reading : Int) : 0 ≤ secondOfDay reading ∧ secondOfDay reading < 86400 := by
  rw [secondOfDay]
  omega

theorem time_of_day_eq (reading : Int) :
    timeOfDay reading = face (secondOfDay reading).toNat ++ "." ++ padded 3 (reading.tmod 1000) := by
  obtain ⟨second, whole⟩ := Int.eq_ofNat_of_zero_le (second_of_day_range reading).1
  rw [timeOfDay, whole]
  rfl

theorem face_spells {second : Nat} (bound : second < 86400) :
    Spells 2 (second / 3600) (padded 2 (second / 3600 : Nat)) ∧ Spells 2 (second / 60 % 60) (padded 2 (second / 60 % 60 : Nat)) ∧
      Spells 2 (second % 60) (padded 2 (second % 60 : Nat)) :=
  ⟨padded_spells (by decide) (by omega), padded_spells (by decide) (by omega), padded_spells (by decide) (by omega)⟩

theorem face_length {second : Nat} (bound : second < 86400) : (face second).length = 8 := by
  obtain ⟨hour, minute, last⟩ := face_spells bound
  simp only [face, List.length_append, hour.length, minute.length, last.length]
  rfl

theorem face_tells {second milli : Nat} (bound : second < 86400) (fits : milli < 1000) :
    Tells (face second ++ "." ++ padded 3 milli) (second * 1000 + milli) := by
  obtain ⟨hour, minute, last⟩ := face_spells bound
  have behind : Spells 3 milli (padded 3 milli) := padded_spells (by decide) fits
  rw [face]
  generalize padded 2 (second / 3600 : Nat) = h at hour ⊢
  generalize padded 2 (second / 60 % 60 : Nat) = m at minute ⊢
  generalize padded 2 (second % 60 : Nat) = s at last ⊢
  generalize padded 3 (milli : Nat) = f at behind ⊢
  obtain ⟨h₁, h₂, rfl⟩ := List.length_eq_two.mp hour.length
  obtain ⟨m₁, m₂, rfl⟩ := List.length_eq_two.mp minute.length
  obtain ⟨s₁, s₂, rfl⟩ := List.length_eq_two.mp last.length
  obtain ⟨f₁, f₂, f₃, rfl⟩ := List.length_eq_three.mp behind.length
  let t : Text := [h₁, h₂, colon, m₁, m₂, colon, s₁, s₂, dot, f₁, f₂, f₃]
  have hoursOf : hours t = second / 3600 := hour.decimal
  have minutesOf : minutes t = second / 60 % 60 := minute.decimal
  have secondsOf : seconds t = second % 60 := last.decimal
  have millisOf : millis t = milli := behind.decimal
  have written : Form t := by
    refine ⟨rfl, fun byte member => ?_, ⟨rfl, rfl, rfl⟩, by omega⟩
    simp only [List.mem_append] at member
    rcases member with ((inHours | inMinutes) | inSeconds) | inMillis
    · exact hour.digits byte inHours
    · exact minute.digits byte inMinutes
    · exact last.digits byte inSeconds
    · exact behind.digits byte inMillis
  have value : sinceMidnight t = second * 1000 + milli := by
    rw [sinceMidnight, hoursOf, minutesOf, secondsOf, millisOf]
    omega
  exact ⟨written, value⟩

-- A reading that both cuts split at the same place.
def Regular (reading : Int) : Prop := 0 ≤ reading ∨ 1000 ∣ reading

instance (reading : Int) : Decidable (Regular reading) := inferInstanceAs (Decidable (_ ∨ _))

def sinceDayBegan (reading : Int) : Nat := (reading % 86400000).toNat

theorem regular_parts {reading : Int} (regular : Regular reading) :
    (secondOfDay reading).toNat = sinceDayBegan reading / 1000 ∧ reading.tmod 1000 = (sinceDayBegan reading % 1000 : Nat) := by
  have exactly : 0 ≤ reading ∨ 1000 ∣ reading := regular
  rw [secondOfDay, sinceDayBegan, Int.tdiv_eq_ediv, Int.tmod_eq_emod, if_pos exactly, if_pos exactly]
  omega

-- Toward zero is upward here, so the whole second is the next one, and the milliseconds lead back from it.
theorem irregular_parts {reading : Int} (irregular : ¬ Regular reading) :
    ∃ n < 999, reading.tmod 1000 = Int.negSucc n ∧ 1000 ∣ reading + (n + 1) ∧
      (secondOfDay reading).toNat = sinceDayBegan (reading + (n + 1)) / 1000 := by
  have inexactly : ¬ (0 ≤ reading ∨ 1000 ∣ reading) := irregular
  have sign : (1000 : Int).sign = 1 := rfl
  obtain ⟨n, back⟩ := Int.eq_negSucc_of_lt_zero (show reading % 1000 - 1000 < 0 by omega)
  refine ⟨n, by omega, ?_, by omega, ?_⟩
  · rw [Int.tmod_eq_emod, if_neg inexactly]
    exact back
  · rw [secondOfDay, sinceDayBegan, Int.tdiv_eq_ediv, if_neg inexactly, sign]
    omega

theorem tells_of_regular {reading : Int} (regular : Regular reading) : Tells (timeOfDay reading) (sinceDayBegan reading) := by
  obtain ⟨second, milli⟩ := regular_parts regular
  have bound : sinceDayBegan reading / 1000 < 86400 := by
    rw [sinceDayBegan]
    omega
  have tells := face_tells bound (Nat.mod_lt (sinceDayBegan reading) (by decide : 1000 > 0))
  rwa [Nat.mul_comm, Nat.div_add_mod, ← second, ← milli, ← time_of_day_eq] at tells

theorem no_form_of_irregular {reading : Int} (irregular : ¬ Regular reading) : ¬ Form ((timeOfDay reading).take 12) := by
  intro form
  obtain ⟨n, _, back, _⟩ := irregular_parts irregular
  obtain ⟨nonneg, below⟩ := second_of_day_range reading
  have length : (face (secondOfDay reading).toNat ++ Text.ofString ".").length = 9 := by
    rw [List.length_append, face_length (by omega)]
    rfl
  have behind : field ((timeOfDay reading).take 12) 9 3 = (padded 3 (Int.negSucc n)).take 3 := by
    rw [field, time_of_day_eq, back, List.drop_take, List.drop_left' length, List.take_take]
    rfl
  have sign : hyphen ∈ field ((timeOfDay reading).take 12) 9 3 := behind ▸ sign_in_front (by decide) n
  exact absurd (form.digits hyphen (List.mem_append_right _ sign)) (by decide)

theorem regular_of_form {reading : Int} (form : Form (timeOfDay reading)) : Regular reading := by
  by_contra irregular
  have whole : (timeOfDay reading).take 12 = timeOfDay reading := List.take_of_length_le (Nat.le_of_eq form.length)
  have cut := no_form_of_irregular irregular
  rw [whole] at cut
  exact cut form

theorem time_of_day_tells (reading : Int) :
    (Form (timeOfDay reading) ↔ Regular reading) ∧
    (Tells (timeOfDay reading) (sinceDayBegan reading) ↔ Regular reading) ∧
    (Regular reading ∨ ∃ n : Nat, n < 999 ∧ 1000 ∣ reading + (n + 1) ∧
      timeOfDay reading = face (sinceDayBegan (reading + (n + 1)) / 1000) ++ "." ++ padded 3 (Int.negSucc n) ∧
      hyphen ∈ padded 3 (Int.negSucc n)) := by
  refine ⟨⟨regular_of_form, fun regular => (tells_of_regular regular).form⟩,
    ⟨fun tells => regular_of_form tells.form, tells_of_regular⟩, ?_⟩
  by_cases regular : Regular reading
  · exact .inl regular
  · obtain ⟨n, small, back, whole, second⟩ := irregular_parts regular
    have sign : hyphen ∈ (padded 3 (Int.negSucc n)).take 3 := sign_in_front (by decide) n
    refine .inr ⟨n, small, whole, ?_, List.mem_of_mem_take sign⟩
    rw [time_of_day_eq, second, back]

theorem time_before_epoch :
    timeOfDay (-1) = Text.ofString "00:00:00.0-1" ∧ sinceDayBegan (-1) = 86399999 ∧
      ¬ Tells (timeOfDay (-1)) (sinceDayBegan (-1)) := by
  have irregular : ¬ Regular (-1) := by decide
  exact ⟨by decide, by decide, fun tells => irregular (regular_of_form tells.form)⟩

end Clock

end UnitRegistry
