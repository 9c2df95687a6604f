import UnitRegistry.Proofs.Locations

set_option autoImplicit false

namespace UnitRegistry

open Text

def closedPiece (pieces : List Text) (place : Nat) : Text :=
  if place + 1 < pieces.length then pieces.getD place [] ++ [lineFeed] else pieces.getD place []

def cutLine (content : Text) : List Nat → Text
  | [] => []
  | [start] => content.drop start
  | start :: next :: _ => (content.drop start).take (next - start)

section Cut

variable {byte : UInt8} {opening rest : Text}

theorem cut_line_first {starts : List Nat} (later : ∀ start ∈ starts, opening.length + 1 < start) :
    cutLine (opening ++ byte :: rest) (opening.length :: starts) =
      byte :: cutLine (opening ++ byte :: rest) ((opening.length + 1) :: starts) := by
  have next : (opening ++ byte :: rest).drop (opening.length + 1) = rest := by
    rw [List.drop_append]
    simp
  cases starts with
  | nil => rw [cutLine, cutLine, List.drop_left, next]
  | cons start starts =>
      have past := later start List.mem_cons_self
      have width : start - opening.length = start - (opening.length + 1) + 1 := by omega
      rw [cutLine, cutLine, List.drop_left, next, width, List.take_succ_cons]

theorem closed_piece_next (first : Text) (pieces : List Text) (place : Nat) :
    closedPiece (first :: pieces) (place + 1) = closedPiece pieces place := by
  simp [closedPiece]

theorem closed_piece_longer (byte : UInt8) (first : Text) (pieces : List Text) :
    closedPiece ((byte :: first) :: pieces) 0 = byte :: closedPiece (first :: pieces) 0 := by
  rw [closedPiece, closedPiece, List.length_cons, List.length_cons]
  split <;> rfl

-- Induction on the text, whose first bytes are moved over to the opening.
theorem cut_line_at (opening t : Text) (place : Nat) :
    cutLine (opening ++ t) ((opening.length :: lineStartsFrom opening.length t).drop place) = closedPiece (pieces t) place := by
  induction t generalizing opening place with
  | nil =>
      cases place with
      | zero =>
          rw [List.append_nil]
          exact List.drop_length
      | succ place =>
          have past : [opening.length].drop (place + 1) = [] := List.drop_nil
          rw [lineStartsFrom, past]
          rfl
  | cons byte rest ih =>
      have moved (place : Nat) : cutLine (opening ++ byte :: rest)
          (((opening.length + 1) :: lineStartsFrom (opening.length + 1) rest).drop place) = closedPiece (pieces rest) place := by
        have next := ih (opening ++ [byte]) place
        rwa [List.length_append, List.length_singleton, List.append_assoc, List.singleton_append] at next
      obtain ⟨first, others, found⟩ := List.exists_cons_of_ne_nil (pieces_ne_nil rest)
      rw [lineStartsFrom]
      by_cases feed : byte = lineFeed
      · rw [if_pos feed, feed, pieces_feed]
        cases place with
        | zero =>
            rw [List.drop_zero, cutLine, List.drop_left, Nat.add_sub_cancel_left, found]
            rfl
        | succ place =>
            rw [List.drop_succ_cons, closed_piece_next, ← feed]
            exact moved place
      · rw [if_neg feed, pieces_other feed]
        cases place with
        | zero =>
            rw [List.drop_zero, cut_line_first fun start member => base_lt_start member]
            have first := moved 0
            rw [List.drop_zero] at first
            rw [first, found, List.modifyHead_cons, closed_piece_longer]
        | succ place =>
            have later := moved (place + 1)
            rw [List.drop_succ_cons] at later ⊢
            rw [later, found, List.modifyHead_cons, closed_piece_next, closed_piece_next]

theorem closed_pieces_flat (pieces : List Text) :
    (List.range pieces.length).flatMap (closedPiece pieces) = [lineFeed].intercalate pieces := by
  induction pieces with
  | nil => rfl
  | cons first others ih =>
      have later : (List.range others.length).flatMap (fun place => closedPiece (first :: others) (place + 1)) =
          [lineFeed].intercalate others := by
        rw [← ih]
        exact List.flatMap_congr fun place _ => closed_piece_next first others place
      rw [List.length_cons, List.range_succ_eq_map, List.flatMap_cons, List.flatMap_map, later]
      cases others with
      | nil => simp [closedPiece]
      | cons second others => simp [closedPiece, List.intercalate]

end Cut

section Returns

def returnOf (piece : Text) : Text := if piece.getLast? = some carriageReturn then [carriageReturn] else []

theorem drop_final_append (piece : Text) : dropFinal carriageReturn piece ++ returnOf piece = piece := by
  by_cases ends : piece.getLast? = some carriageReturn
  · rw [dropFinal, if_pos ends, returnOf, if_pos ends]
    exact List.dropLast_append_getLast? carriageReturn ends
  · rw [dropFinal, if_neg ends, returnOf, if_neg ends, List.append_nil]

theorem drop_final_closed {piece : Text} (noFeed : lineFeed ∉ piece) :
    dropFinal lineFeed piece = piece ∧ dropFinal lineFeed (piece ++ [lineFeed]) = piece := by
  constructor
  · exact if_neg fun ends => noFeed (List.mem_of_getLast? ends)
  · rw [dropFinal, List.getLast?_concat, if_pos rfl, List.dropLast_concat]

theorem return_of_last_line (t : Text) :
    returnOf (lastLine t) = if t.getLast? = some carriageReturn then [carriageReturn] else [] := by
  obtain rfl | ⟨earlier, byte, rfl⟩ := List.eq_nil_or_concat t
  · rfl
  · rw [List.concat_eq_append, last_line_append, List.getLast?_concat]
    by_cases feed : byte = lineFeed
    · subst feed
      rfl
    · rw [if_neg (by simp [Ne.symm feed]), returnOf, List.getLast?_concat]

end Returns

namespace SourceFile

theorem line_cut (f : SourceFile) (number : UInt32) :
    f.line number = if number = 0 then [] else
      dropFinal carriageReturn (dropFinal lineFeed (cutLine f.content (f.lineStarts.drop (number.toNat - 1)))) := by
  rw [line]
  by_cases none : number = 0
  · rw [if_pos none, if_pos none]
  · rw [if_neg none, if_neg none]
    obtain _ | ⟨start, _ | ⟨next, starts⟩⟩ := f.lineStarts.drop (number.toNat - 1) <;> rfl

theorem line_piece (f : SourceFile) (number : UInt32) :
    f.line number = if number = 0 then [] else dropFinal carriageReturn ((pieces f.content).getD (number.toNat - 1) []) := by
  have cut : cutLine f.content (f.lineStarts.drop (number.toNat - 1)) = closedPiece (pieces f.content) (number.toNat - 1) :=
    cut_line_at [] f.content _
  obtain ⟨bare, closed⟩ := drop_final_closed (no_feed_at f.content (number.toNat - 1))
  rw [line_cut, cut, closedPiece]
  split
  · rfl
  · split
    · rw [closed]
    · rw [bare]

-- The ends of the lines of a file, one for each line. Inside the file an end is a line feed, alone only behind a line that does
-- not end in a carriage return, or the pair of the two. The last line ends in nothing, or in the carriage return that the file
-- ends in.
structure Ends (f : SourceFile) (ends : List Text) : Prop where
  length : ends.length = f.lineCount.toNat
  inner : ∀ n, n + 1 < ends.length →
    ends.getD n [] = [lineFeed] ∧ (f.line (UInt32.ofNat (n + 1))).getLast? ≠ some carriageReturn ∨
      ends.getD n [] = [carriageReturn, lineFeed]
  final : ends.getLast? = some (if f.content.getLast? = some carriageReturn then [carriageReturn] else [])
  content : (List.range f.lineCount.toNat).flatMap (fun n => f.line (UInt32.ofNat (n + 1)) ++ ends.getD n []) = f.content
  noFeed : ∀ number, lineFeed ∉ f.line number
  zero : f.line 0 = []
  past : ∀ number, f.lineCount < number → f.line number = []

def ends (f : SourceFile) : List Text :=
  (List.range (pieces f.content).length).map fun place =>
    returnOf ((pieces f.content).getD place []) ++ if place + 1 < (pieces f.content).length then [lineFeed] else []

section Rebuilt

variable {f : SourceFile}

theorem length_of_pieces (fits : f.length < maxOffset) : (pieces f.content).length = f.lineCount.toNat := by
  rw [length_pieces, line_count_value fits, Nat.add_comm]

theorem end_at {place : Nat} (inside : place < (pieces f.content).length) :
    f.ends.getD place [] = returnOf ((pieces f.content).getD place []) ++
      if place + 1 < (pieces f.content).length then [lineFeed] else [] := by
  rw [ends, List.getD_eq_getElem?_getD, List.getElem?_map, List.getElem?_range inside]
  rfl

theorem line_at (fits : f.length < maxOffset) {place : Nat} (inside : place < (pieces f.content).length) :
    f.line (UInt32.ofNat (place + 1)) = dropFinal carriageReturn ((pieces f.content).getD place []) := by
  have few : f.content.count lineFeed ≤ f.length := List.count_le_length
  have small : place + 1 < 2 ^ 32 := by
    rw [length_pieces] at inside
    rw [maxOffset] at fits
    omega
  have value : (UInt32.ofNat (place + 1)).toNat = place + 1 := UInt32.toNat_ofNat_of_lt' small
  have positive : UInt32.ofNat (place + 1) ≠ 0 := by
    intro zero
    rw [zero] at value
    exact absurd value (Nat.succ_ne_zero place).symm
  rw [line_piece, if_neg positive, value, Nat.add_sub_cancel]

theorem line_with_end (fits : f.length < maxOffset) {place : Nat} (inside : place < (pieces f.content).length) :
    f.line (UInt32.ofNat (place + 1)) ++ f.ends.getD place [] = closedPiece (pieces f.content) place := by
  rw [line_at fits inside, end_at inside, ← List.append_assoc, drop_final_append, closedPiece]
  split
  · rfl
  · rw [List.append_nil]

theorem no_feed_in_line (number : UInt32) : lineFeed ∉ f.line number := by
  rw [line_piece]
  split
  · exact List.not_mem_nil
  · intro member
    refine no_feed_at f.content (number.toNat - 1) ?_
    rw [← drop_final_append ((pieces f.content).getD (number.toNat - 1) [])]
    exact List.mem_append_left _ member

theorem inner_end (fits : f.length < maxOffset) {place : Nat} (inner : place + 1 < (pieces f.content).length) :
    f.ends.getD place [] = [lineFeed] ∧ (f.line (UInt32.ofNat (place + 1))).getLast? ≠ some carriageReturn ∨
      f.ends.getD place [] = [carriageReturn, lineFeed] := by
  have inside := Nat.lt_of_succ_lt inner
  rw [end_at inside, line_at fits inside, if_pos inner]
  by_cases ends : ((pieces f.content).getD place []).getLast? = some carriageReturn
  · right
    rw [returnOf, if_pos ends]
    rfl
  · left
    rw [returnOf, if_neg ends, dropFinal, if_neg ends]
    exact ⟨rfl, ends⟩

theorem final_end (f : SourceFile) :
    f.ends.getLast? = some (if f.content.getLast? = some carriageReturn then [carriageReturn] else []) := by
  obtain ⟨count, long⟩ : ∃ count, (pieces f.content).length = count + 1 := ⟨_, length_pieces f.content⟩
  have last := last_piece f.content
  rw [List.getLast?_eq_getElem?, long, Nat.add_sub_cancel] at last
  have piece : (pieces f.content).getD count [] = lastLine f.content := by
    rw [List.getD_eq_getElem?_getD, last]
    rfl
  have final : f.ends.length = count + 1 := by rw [ends, List.length_map, List.length_range, long]
  have inside : count < (pieces f.content).length := by omega
  have entry := end_at inside
  rw [piece, if_neg (by omega), List.append_nil, return_of_last_line] at entry
  rw [List.getLast?_eq_getElem?, final, Nat.add_sub_cancel, ← entry]
  simp [final]

theorem line_past (fits : f.length < maxOffset) {number : UInt32} (past : f.lineCount < number) : f.line number = [] := by
  have beyond : (pieces f.content).length ≤ number.toNat - 1 := by
    have less := UInt32.lt_iff_toNat_lt.mp past
    rw [← length_of_pieces fits] at less
    omega
  have none : (pieces f.content).getD (number.toNat - 1) [] = [] := by simp [beyond]
  rw [line_piece, none]
  exact ite_self _

end Rebuilt

theorem lines_with_ends {f : SourceFile} (fits : f.length < maxOffset) : ∃ ends, f.Ends ends := by
  have count := length_of_pieces fits
  have long : f.ends.length = (pieces f.content).length := by rw [ends, List.length_map, List.length_range]
  refine ⟨f.ends, ?_, fun place inner => ?_, final_end f, ?_, no_feed_in_line, rfl, fun _ past => line_past fits past⟩
  · rw [long, count]
  · exact inner_end fits (long ▸ inner)
  · rw [← count]
    calc
      _ = (List.range (pieces f.content).length).flatMap (closedPiece (pieces f.content)) :=
        List.flatMap_congr fun place member => line_with_end fits (List.mem_range.mp member)
      _ = [lineFeed].intercalate (pieces f.content) := closed_pieces_flat _
      _ = f.content := List.intercalate_splitOn lineFeed

theorem mixed_ends :
    let f : SourceFile := .ofText "one\r\ntwo\n\rthree\r\r\n" "mixed.scala"
    f.length < maxOffset ∧ (∃ ends, f.Ends ends) ∧ f.line 1 = "one" ∧ f.line 2 = "two" ∧ f.line 3 = "\rthree\r" ∧ f.line 4 = [] := by
  intro f
  have fits : f.length < maxOffset := by decide
  exact ⟨fits, lines_with_ends fits, by decide, by decide, by decide, by decide⟩

theorem carriage_return_lost :
    let f : SourceFile := .ofText "val x = 1\r" "A.scala"
    f.line 1 = "val x = 1" ∧ ¬ ∃ ends : List Text, ends.length = f.lineCount.toNat ∧ ends.getLast? = some [] ∧
      (List.range f.lineCount.toNat).flatMap (fun n => f.line (UInt32.ofNat (n + 1)) ++ ends.getD n []) = f.content := by
  intro f
  have count : f.lineCount.toNat = 1 := by decide
  refine ⟨by decide, ?_⟩
  rintro ⟨ends, length, final, content⟩
  obtain ⟨last, rfl⟩ := List.length_eq_one_iff.mp (length.trans count)
  obtain rfl : last = [] := Option.some.inj final
  rw [count] at content
  exact absurd content (by decide)

end SourceFile

end UnitRegistry
