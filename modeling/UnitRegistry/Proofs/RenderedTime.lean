import UnitRegistry.Proofs.SinkLines
import UnitRegistry.Proofs.TimeOfDay

set_option autoImplicit false

namespace UnitRegistry

open Text (hyphen zero)

namespace Clock

theorem padded_signed (width n : Nat) :
    padded width (Int.negSucc n) =
      List.replicate (width - ((Text.ofNat (n + 1)).length + 1)) zero ++ hyphen :: Text.ofNat (n + 1) := rfl

theorem no_sign_in_number (n : Nat) : hyphen ∉ Text.ofNat n := fun member =>
  absurd (Text.digit_of_nat member).1 (by decide)

theorem no_sign_in_fill (count : Nat) : hyphen ∉ List.replicate count zero := fun member =>
  absurd (List.eq_of_mem_replicate member) (by decide)

theorem no_sign_in_padded (width n : Nat) : hyphen ∉ padded width n := by
  rw [padded_nat, List.mem_append, not_or]
  exact ⟨no_sign_in_fill _, no_sign_in_number n⟩

theorem padded_injective (width : Nat) {m n : Int} (same : padded width m = padded width n) : m = n := by
  have signed (j k : Nat) : padded width j ≠ padded width (Int.negSucc k) := by
    intro equal
    have sign : hyphen ∈ padded width (Int.negSucc k) := by simp [padded_signed]
    exact no_sign_in_padded width j (equal ▸ sign)
  cases m with
  | ofNat m =>
      cases n with
      | ofNat n =>
          have read := congrArg Text.decimal same
          simp only [Int.ofNat_eq_natCast, padded_nat, Text.decimal_zeros, Text.decimal_of_nat] at read
          rw [read]
      | negSucc n => exact absurd same (signed m n)
  | negSucc m =>
      cases n with
      | ofNat n => exact absurd same.symm (signed n m)
      | negSucc n =>
          rw [padded_signed, padded_signed] at same
          have digits := (Log.Record.eq_of_stop (no_sign_in_fill _) (no_sign_in_fill _) same).2
          rw [Nat.succ.inj (Text.of_nat_injective digits)]

theorem face_injective {a b : Nat} (first : a < 86400) (second : b < 86400) (same : face a = face b) : a = b := by
  have one := (face_tells first (by decide : 0 < 1000)).time
  have other := (face_tells second (by decide : 0 < 1000)).time
  rw [same, other] at one
  omega

theorem second_of_time_iff (now later : Int) :
    secondOfDay now = secondOfDay later ∧ now.tmod 1000 = later.tmod 1000 ↔
      sinceDayBegan now = sinceDayBegan later ∧ now.tmod 1000 = later.tmod 1000 := by
  have split := Int.mul_tdiv_add_tmod now 1000
  have splitLater := Int.mul_tdiv_add_tmod later 1000
  rw [secondOfDay, secondOfDay, sinceDayBegan, sinceDayBegan]
  omega

theorem time_of_day_eq_iff (now later : Int) :
    timeOfDay now = timeOfDay later ↔ sinceDayBegan now = sinceDayBegan later ∧ now.tmod 1000 = later.tmod 1000 := by
  have range := second_of_day_range now
  have rangeLater := second_of_day_range later
  rw [← second_of_time_iff]
  constructor
  · intro same
    rw [time_of_day_eq, time_of_day_eq, List.append_assoc, List.append_assoc] at same
    have length : (face (secondOfDay now).toNat).length = (face (secondOfDay later).toNat).length := by
      rw [face_length (by omega), face_length (by omega)]
    obtain ⟨faces, behind⟩ := List.append_inj same length
    have seconds := face_injective (by omega) (by omega) faces
    exact ⟨by omega, padded_injective 3 (List.append_cancel_left behind)⟩
  · rintro ⟨second, milli⟩
    rw [time_of_day_eq, time_of_day_eq, second, milli]

theorem time_of_day_length (now : Int) : 12 ≤ (timeOfDay now).length := by
  have range := second_of_day_range now
  have behind : 3 ≤ (padded 3 (now.tmod 1000)).length := by
    rw [padded, List.leftpad, List.length_append, List.length_replicate]
    omega
  rw [time_of_day_eq, List.length_append, List.length_append, face_length (by omega)]
  change 12 ≤ 8 + 1 + _
  omega

theorem tells_in_front_iff (now : Int) (rest : Text) (time : Nat) :
    Tells ((timeOfDay now ++ rest).take 12) time ↔ Regular now ∧ sinceDayBegan now = time := by
  rw [List.take_append_of_le_length (time_of_day_length now)]
  constructor
  · intro tells
    by_cases regular : Regular now
    · have own := tells_of_regular regular
      rw [List.take_of_length_le (Nat.le_of_eq own.form.length)] at tells
      exact ⟨regular, own.time.symm.trans tells.time⟩
    · exact absurd tells.form (no_form_of_irregular regular)
  · rintro ⟨regular, rfl⟩
    have own := tells_of_regular regular
    rwa [List.take_of_length_le (Nat.le_of_eq own.form.length)]

end Clock

open Clock (Regular sinceDayBegan timeOfDay)

namespace Log

namespace Record

theorem text_in_front (now : Int) (r : Record) : r.text now = timeOfDay now ++ (" " ++ levelColumn r.level ++ r.bracketed) := by
  simp only [text, List.append_assoc]

theorem text_eq_iff (now later : Int) (r : Record) : r.text now = r.text later ↔ timeOfDay now = timeOfDay later := by
  rw [text_in_front, text_in_front, List.append_cancel_right_eq]

theorem colored_eq_iff (now later : Int) (r : Record) :
    r.coloredText now = r.coloredText later ↔ timeOfDay now = timeOfDay later := by
  simp only [coloredText, List.append_assoc, List.append_cancel_right_eq]

theorem format_eq_iff (now later : Int) (r : Record) (format : Format) :
    r.format now format = r.format later format ↔ format = .json ∨ timeOfDay now = timeOfDay later := by
  cases format with
  | text =>
      rw [or_iff_right Format.noConfusion]
      exact text_eq_iff now later r
  | json => exact ⟨fun _ => .inl rfl, fun _ => rfl⟩

end Record

end Log

open Log (SinkRef Record Format)

namespace State

theorem rendering_eq_iff {s : State} {ref : SinkRef} (ready : s.Ready ref) (now later : Int) (r : Record) :
    (s.sink ref).rendering now r = (s.sink ref).rendering later r ↔
      (s.sink ref).format = .json ∨ timeOfDay now = timeOfDay later := by
  cases found : s.sink ref with
  | console colors format =>
      rw [Log.Sink.format]
      by_cases colored : format = .text ∧ colors = true
      · obtain ⟨rfl, rfl⟩ := colored
        rw [or_iff_right Format.noConfusion]
        exact Record.colored_eq_iff now later r
      · simp only [Log.Sink.rendering, if_neg colored, Record.format_eq_iff]
  | file file => exact Record.format_eq_iff now later r file.format
  | _ =>
      rw [Ready, found] at ready
      exact ready.elim

structure TellsMoment (r : Record) : Prop where
  json : ∀ now, ∃ rest, r.format now .json = "\x7b\"ts\":" ++ Text.ofInt r.time ++ "," ++ rest
  text : ∀ now, Clock.Tells ((r.format now .text).take 12) (sinceDayBegan r.time) ↔
    Regular now ∧ sinceDayBegan now = sinceDayBegan r.time
  apart : ∀ now time, { r with time }.format now .text = r.format now .text
  again : ∀ now later format, r.format now format = r.format later format ↔
    format = .json ∨ sinceDayBegan now = sinceDayBegan later ∧ now.tmod 1000 = later.tmod 1000

theorem tells_moment (r : Record) : TellsMoment r where
  json now := ⟨"\"level\":\"" ++ r.level.name ++ "\",\"module\":\"" ++ Record.escaped r.tag ++ "\",\"msg\":\"" ++
    Record.escaped r.message ++ "\"\x7d", by simp only [Record.format, Record.json, List.append_assoc]; rfl⟩
  text now := by
    change Clock.Tells ((r.text now).take 12) _ ↔ _
    rw [Record.text_in_front]
    exact Clock.tells_in_front_iff now _ _
  apart _ _ := rfl
  again now later format := by rw [Record.format_eq_iff, Clock.time_of_day_eq_iff]

theorem time_of_made {s : State} {call : Request} {r : Record} (made : s.record? call = some r)
    (direct : ∀ given, call ≠ .logRecord given) : r.time = s.environment.now := by
  cases call with
  | log level tag message =>
      cases made
      rfl
  | trace level tag message =>
      by_cases accepted : s.logger.accepts (min level .fatal) tag = true
      · simp only [record?, if_pos accepted] at made
        cases made
        rfl
      · simp only [record?, if_neg accepted] at made
        cases made
  | logRecord given => exact absurd rfl (direct given)
  | _ => cases made

theorem line_tells_moment (r : Record) :
    TellsMoment r ∧
    (∀ (s t : State) ref other, s.Ready ref → t.Ready other → (t.sink other).rendering = (s.sink ref).rendering →
      ∃ line lineOther, Puts s (s.writeSink ref r) ref (line ++ [Text.lineFeed]) ∧
        Puts t (t.writeSink other r) other (lineOther ++ [Text.lineFeed]) ∧
        (line = lineOther ↔ (s.sink ref).format = .json ∨ timeOfDay s.environment.now = timeOfDay t.environment.now)) ∧
    ∀ (s : State) call, s.record? call = some r → (∀ given, call ≠ .logRecord given) →
      (Clock.Tells ((r.format s.environment.now .text).take 12) (sinceDayBegan r.time) ↔ Regular s.environment.now) := by
  refine ⟨tells_moment r, fun s t ref other ready readyOther alike => ?_, fun s call made direct => ?_⟩
  · refine ⟨_, _, write_sink_puts ready r, write_sink_puts readyOther r, ?_⟩
    rw [alike]
    exact rendering_eq_iff ready _ _ r
  · have moment := time_of_made made direct
    rw [(tells_moment r).text, moment]
    exact and_iff_left rfl

theorem line_at_next_moment :
    let s := start.performed [.setEnvironment { now := 3723004 }, .addConsoleSink false .text]
    let t := s.performed [.setEnvironment { now := 3723005 }]
    let r : Record := ⟨.info, "run", "started", 3723004⟩
    (s.Ready 0 ∧ t.Ready 0 ∧ s.record? (.log .info "run" "started") = some r) ∧
      Clock.Tells ((r.format s.environment.now .text).take 12) (sinceDayBegan r.time) ∧
      ∃ line lineOther, Puts s (s.writeSink 0 r) 0 (line ++ [Text.lineFeed]) ∧
        Puts t (t.writeSink 0 r) 0 (lineOther ++ [Text.lineFeed]) ∧ line ≠ lineOther := by
  intro s t r
  obtain ⟨_, written, logged⟩ := line_tells_moment r
  have ready : s.Ready 0 := trivial
  have later : t.Ready 0 := trivial
  have made : s.record? (.log .info "run" "started") = some r := rfl
  obtain ⟨line, lineOther, puts, putsOther, same⟩ := written s t 0 0 ready later rfl
  have changes : ¬ ((s.sink 0).format = .json ∨ timeOfDay s.environment.now = timeOfDay t.environment.now) := by
    decide +kernel
  refine ⟨⟨ready, later, made⟩, ?_, line, lineOther, puts, putsOther, mt same.mp changes⟩
  exact (logged s _ made (fun _ => Request.noConfusion)).mpr (by decide)

theorem text_of_other_moment :
    let r : Record := ⟨.info, "run", "late", 0⟩
    r.format 3723004 .text = Text.ofString "01:02:03.004 INFO  [run] late" ∧
      ¬ Clock.Tells ((r.format 3723004 .text).take 12) (sinceDayBegan r.time) ∧
      r.format 3723005 .text ≠ r.format 3723004 .text := by
  intro r
  have written : Clock.sinceMidnight ((r.format 3723004 .text).take 12) ≠ sinceDayBegan r.time := by decide +kernel
  exact ⟨by decide +kernel, fun tells => written tells.time, by decide +kernel⟩

end State

end UnitRegistry
