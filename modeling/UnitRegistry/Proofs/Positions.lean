import UnitRegistry.Proofs.SourceLines
import UnitRegistry.Source.Position

set_option autoImplicit false

namespace UnitRegistry

open Text

section Pieces

theorem pieces_behind {t rest first : Text} {others : List Text} (noFeed : lineFeed ∉ t) (found : pieces rest = first :: others) :
    pieces (t ++ rest) = (t ++ first) :: others := by
  induction t with
  | nil => exact found
  | cons byte t ih =>
      have other : byte ≠ lineFeed := fun feed => noFeed (feed ▸ List.mem_cons_self)
      rw [List.cons_append, pieces_other other, ih fun member => noFeed (List.mem_cons_of_mem byte member), List.modifyHead_cons,
        List.cons_append]

theorem piece_between (t rest : Text) :
    (pieces (t ++ rest)).getD (t.count lineFeed) [] = lastLine t ++ (pieces rest).headD [] := by
  obtain ⟨closed, split, ends, count⟩ := last_line_split t
  obtain ⟨first, others, found⟩ := List.exists_cons_of_ne_nil (pieces_ne_nil rest)
  have joined := pieces_behind (no_feed_in_last_line t) found
  rw [← count, found, List.headD_cons]
  conv => lhs; rw [split]
  obtain rfl | ⟨earlier, rfl⟩ := feed_before_nothing ends
  · rw [List.nil_append, joined]
    rfl
  · have place : (earlier ++ [lineFeed]).count lineFeed = (pieces earlier).length := by
      rw [length_pieces, List.count_append]
      rfl
    have whole : earlier ++ [lineFeed] ++ lastLine t ++ rest = earlier ++ lineFeed :: (lastLine t ++ rest) := by simp
    rw [whole, pieces_append, joined, place]
    simp

theorem drop_final_keeps {final byte : UInt8} {text : Text} {index : Nat} (there : text[index]? = some byte)
    (other : byte ≠ final) : (dropFinal final text)[index]? = some byte := by
  by_cases ends : text.getLast? = some final
  · have inside : index < text.length := (List.getElem?_eq_some_iff.mp there).1
    have inner : index ≠ text.length - 1 := by
      rintro rfl
      rw [← List.getLast?_eq_getElem?, ends] at there
      exact other (Option.some.inj there).symm
    rw [dropFinal, if_pos ends, List.getElem?_dropLast, if_pos (by omega)]
    exact there
  · rw [dropFinal, if_neg ends]
    exact there

end Pieces

namespace SourceFile

variable {f : SourceFile}

theorem line_of_location (fits : f.length < maxOffset) (offset : Nat) :
    f.line (f.location offset).line =
      dropFinal carriageReturn (lastLine (f.before offset) ++ (pieces (f.content.drop offset)).headD []) := by
  have value := line_value fits offset
  have positive : (f.location offset).line ≠ 0 := by
    intro zero
    rw [zero] at value
    exact absurd value (by simp [Nat.one_add])
  have whole : f.before offset ++ f.content.drop offset = f.content := List.take_append_drop offset f.content
  have piece := piece_between (f.before offset) (f.content.drop offset)
  rw [whole] at piece
  rw [line_piece, if_neg positive, value, Nat.add_sub_cancel_left, piece]

theorem byte_on_line (fits : f.length < maxOffset) {offset : Nat} {byte : UInt8} (there : f.content[offset]? = some byte)
    (noFeed : byte ≠ lineFeed) (noReturn : byte ≠ carriageReturn) :
    (f.line (f.location offset).line)[f.distance offset]? = some byte := by
  obtain ⟨inside, found⟩ := List.getElem?_eq_some_iff.mp there
  have rest : f.content.drop offset = byte :: f.content.drop (offset + 1) := by
    rw [← found]
    exact List.drop_eq_getElem_cons inside
  obtain ⟨first, others, behind⟩ := List.exists_cons_of_ne_nil (pieces_ne_nil (f.content.drop (offset + 1)))
  have head : (pieces (f.content.drop offset)).headD [] = byte :: first := by
    rw [rest, pieces_other noFeed, behind]
    rfl
  rw [line_of_location fits, head]
  apply drop_final_keeps _ noReturn
  simp [distance]

end SourceFile

def ShowsAt (text : Text) (column : UInt32) (byte : UInt8) : Prop := ∃ index, column.toNat = index + 1 ∧ text[index]? = some byte

namespace Position

theorem shown_at {f : SourceFile} (fits : f.length < maxOffset) {offset : Nat} {byte : UInt8}
    (there : f.content[offset]? = some byte) (noFeed : byte ≠ lineFeed) (noReturn : byte ≠ carriageReturn) :
    ShowsAt (f.line (f.location offset).line) (f.location offset).column byte := by
  refine ⟨f.distance offset, ?_, SourceFile.byte_on_line fits there noFeed noReturn⟩
  rw [SourceFile.fitting_column fits, Nat.add_comm]

theorem byte_at_column {f : SourceFile} (fits : f.length < maxOffset) {offset : Nat} {byte : UInt8}
    (there : f.content[offset]? = some byte) (noFeed : byte ≠ lineFeed) (noReturn : byte ≠ carriageReturn) :
    ShowsAt (f.line (f.location offset).line) (f.location offset).column byte ∧
      ∀ (p : Position) (id : Nat), p.source = some ⟨id, f⟩ → p.start.toNat = offset →
        p.location? = some (f.location offset) ∧
        p.render = f.name ++ ":" ++ ofNat (f.location offset).line.toNat ++ ":" ++ ofNat (f.location offset).column.toNat ∧
        ShowsAt p.line (f.location offset).column byte := by
  have shown := shown_at fits there noFeed noReturn
  refine ⟨shown, fun p id source start => ?_⟩
  have located : p.location? = some (f.location offset) := by rw [location?, source, ← start, Option.map_some]
  have printed : p.render =
      f.name ++ ":" ++ ofNat (f.location offset).line.toNat ++ ":" ++ ofNat (f.location offset).column.toNat := by
    simp only [render, source, start]
  have line : p.line = f.line (f.location offset).line := by simp only [Position.line, source, start]
  rw [line]
  exact ⟨located, printed, shown⟩

theorem bytes_around_pair :
    let f : SourceFile := .ofText "val x = 1\r\n  val y = ?" "A.scala"
    (f.length < maxOffset ∧ f.content[8]? = some 49 ∧ f.content[13]? = some 118) ∧
      ShowsAt (f.line 1) 9 49 ∧ ShowsAt (f.line 2) 3 118 ∧
      (point (some ⟨7, f⟩) 13).render = "A.scala:2:3" ∧ ShowsAt (point (some ⟨7, f⟩) 13).line 3 118 := by
  intro f
  have fits : f.length < maxOffset := by decide
  have last : f.content[8]? = some 49 := by decide
  have first : f.content[13]? = some 118 := by decide
  have before := byte_at_column fits last (by decide) (by decide)
  obtain ⟨behind, positions⟩ := byte_at_column fits first (by decide) (by decide)
  obtain ⟨-, printed, shown⟩ := positions (point (some ⟨7, f⟩) 13) 7 rfl (by decide)
  have ninth : f.location 8 = ⟨"A.scala", 1, 9, 8⟩ := by decide
  have third : f.location 13 = ⟨"A.scala", 2, 3, 13⟩ := by decide
  rw [ninth] at before
  rw [third] at behind shown
  exact ⟨⟨fits, last, first⟩, before.1, behind, printed.trans (by decide), shown⟩

section Ranges

def cutBetween? (value low high : Nat) : Option Nat :=
  if low ≤ high then some (if value < low then low else if high < value then high else value) else none

theorem cut_between {low high : Nat} (value : Nat) (ordered : low ≤ high) :
    cutBetween? value low high = some (max low (min value high)) := by
  have cut : (if value < low then low else if high < value then high else value) = max low (min value high) := by
    split
    · omega
    · split <;> omega
  rw [cutBetween?, if_pos ordered, cut]

variable (ref : FileRef) (start stop : Nat)

theorem start_value : (range (some ref) start stop).start.toNat = min (min start ref.file.length) maxOffset :=
  clamp_offset_value _

theorem stop_value :
    (range (some ref) start stop).stop.toNat = min (max (min start ref.file.length) (min stop ref.file.length)) maxOffset :=
  clamp_offset_value _

theorem clamp_eq_iff {m n : Nat} : clampOffset m = clampOffset n ↔ min m maxOffset = min n maxOffset := by
  rw [← UInt32.toNat_inj, clamp_offset_value, clamp_offset_value]

structure Ranges (p : Position) : Prop where
  source : p.source = some ref
  ordered : p.start ≤ p.stop
  within : p.stop.toNat ≤ min ref.file.length maxOffset
  kept : start ≤ stop → stop ≤ ref.file.length → start < 2 ^ 32 → stop < 2 ^ 32 → p.start.toNat = start ∧ p.stop.toNat = stop
  again : range p.source p.start.toNat p.stop.toNat = p
  cut : ∃ stop', cutBetween? stop (min start ref.file.length) ref.file.length = some stop' ∧ p.stop = clampOffset stop'

theorem range_ordered : (range (some ref) start stop).start ≤ (range (some ref) start stop).stop := by
  rw [UInt32.le_iff_toNat_le, start_value, stop_value]
  omega

theorem range_again :
    range (some ref) (range (some ref) start stop).start.toNat (range (some ref) start stop).stop.toNat =
      range (some ref) start stop := by
  have first := start_value ref start stop
  have last := stop_value ref start stop
  rw [range, first, last, range, mk.injEq, clamp_eq_iff, clamp_eq_iff]
  refine ⟨rfl, ?_, ?_⟩ <;> omega

-- A point that saturates lies in no file that 32 bits can count, so a point of such a file is located where its offset is.
theorem point_located (fits : ref.file.length < maxOffset) (offset : Nat) :
    (point (some ref) offset).location? = some (ref.file.location offset) := by
  have value : (point (some ref) offset).start.toNat = min offset ref.file.length := by
    rw [point, start_value]
    omega
  change some (ref.file.location (point (some ref) offset).start.toNat) = _
  rw [value, SourceFile.location, SourceFile.location, Nat.min_assoc, Nat.min_self]

end Ranges

theorem range_in_file (ref : FileRef) :
    (∀ start stop, Ranges ref start stop (range (some ref) start stop)) ∧
      (ref.file.length < maxOffset → ∀ offset, (point (some ref) offset).location? = some (ref.file.location offset)) := by
  refine ⟨fun start stop => ?_, point_located ref⟩
  have first := start_value ref start stop
  have last := stop_value ref start stop
  have cut := cut_between stop (Nat.min_le_right start ref.file.length)
  constructor
  case source => rfl
  case ordered => exact range_ordered ref start stop
  case within => omega
  case kept =>
    intro less inside small smaller
    rw [maxOffset] at first last
    omega
  case again => exact range_again ref start stop
  case cut => exact ⟨_, cut, rfl⟩

theorem reversed_range_in_file :
    let ref : FileRef := ⟨7, .ofText "val x = 1\n" "A.scala"⟩
    ref.file.length < maxOffset ∧ range (some ref) 9000000000 4 = ⟨some ref, 10, 10⟩ ∧
      Ranges ref 9000000000 4 ⟨some ref, 10, 10⟩ ∧
      (point (some ref) 9000000000).location? = some (ref.file.location 9000000000) := by
  intro ref
  have fits : ref.file.length < maxOffset := by decide
  have value : range (some ref) 9000000000 4 = ⟨some ref, 10, 10⟩ := by decide
  obtain ⟨ranges, located⟩ := range_in_file ref
  have reversed := ranges 9000000000 4
  rw [value] at reversed
  exact ⟨fits, value, reversed, located fits 9000000000⟩

end Position

end UnitRegistry
