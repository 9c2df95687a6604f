import UnitRegistry.Log.Record

set_option autoImplicit false

namespace UnitRegistry.Log

namespace Level

theorem name_injective {a b : Level} (same : a.name = b.name) : a = b := by
  cases a <;> cases b <;> first | rfl | exact absurd same (by decide)

theorem no_quote_in_name (level : Level) : Text.quote ∉ level.name := by
  cases level <;> decide

end Level

namespace Record

def marks : List (UInt8 × UInt8) :=
  [(Text.quote, Text.quote), (Text.backslash, Text.backslash), (Text.lineFeed, 110), (Text.carriageReturn, 114), (Text.tab, 116)]

theorem escape_cases (byte : UInt8) :
    (∃ mark, (byte, mark) ∈ marks ∧ escapeByte byte = [Text.backslash, mark]) ∨
      (∀ entry ∈ marks, byte ≠ entry.1) ∧ escapeByte byte = [byte] := by
  by_cases special : byte ∈ marks.map Prod.fst
  · left
    simp only [marks, List.map_cons, List.map_nil, List.mem_cons, List.not_mem_nil, or_false] at special
    obtain rfl | rfl | rfl | rfl | rfl := special
    · exact ⟨Text.quote, by decide, rfl⟩
    · exact ⟨Text.backslash, by decide, rfl⟩
    · exact ⟨110, by decide, rfl⟩
    · exact ⟨114, by decide, rfl⟩
    · exact ⟨116, by decide, rfl⟩
  · right
    have plain : ∀ entry ∈ marks, byte ≠ entry.1 := by
      rintro entry member rfl
      exact special (List.mem_map_of_mem member)
    refine ⟨plain, ?_⟩
    simp only [marks, List.forall_mem_cons] at plain
    simp only [escapeByte, plain, if_false]

def unescape : Text → Option (UInt8 × Text)
  | [] => none
  | byte :: rest =>
      if byte = Text.backslash then
        match rest with
        | [] => none
        | mark :: rest => (marks.find? (·.2 == mark)).map fun entry => (entry.1, rest)
      else some (byte, rest)

theorem unescape_escape (byte : UInt8) (rest : Text) : unescape (escapeByte byte ++ rest) = some (byte, rest) := by
  obtain ⟨mark, member, written⟩ | ⟨plain, written⟩ := escape_cases byte
  · have distinct : marks.all (fun entry => marks.find? (·.2 == entry.2) == some entry) = true := by decide
    have own := eq_of_beq (List.all_eq_true.mp distinct (byte, mark) member)
    rw [written]
    exact congrArg (Option.map fun entry => (entry.1, rest)) own
  · rw [written]
    exact if_neg (plain (Text.backslash, Text.backslash) (by decide))

theorem escape_inj {a b : UInt8} {rest other : Text} (same : escapeByte a ++ rest = escapeByte b ++ other) :
    a = b ∧ rest = other := by
  have read := congrArg unescape same
  rw [unescape_escape, unescape_escape] at read
  simpa using read

theorem escape_ne_quote (byte : UInt8) (rest other : Text) : escapeByte byte ++ rest ≠ Text.quote :: other := by
  intro same
  obtain ⟨mark, _, written⟩ | ⟨plain, written⟩ := escape_cases byte
  · rw [written] at same
    exact absurd (List.cons.inj same).1 (by decide)
  · rw [written] at same
    exact plain (Text.quote, Text.quote) (by decide) (List.cons.inj same).1

theorem escaped_inj {t u rest other : Text} (same : escaped t ++ Text.quote :: rest = escaped u ++ Text.quote :: other) :
    t = u ∧ rest = other := by
  induction t generalizing u with
  | nil =>
      cases u with
      | nil => exact ⟨rfl, (List.cons.inj same).2⟩
      | cons byte u =>
          rw [escaped, escaped, List.flatMap_cons, List.append_assoc] at same
          exact absurd same.symm (escape_ne_quote byte _ _)
  | cons byte t ih =>
      cases u with
      | nil =>
          rw [escaped, escaped, List.flatMap_cons, List.append_assoc] at same
          exact absurd same (escape_ne_quote byte _ _)
      | cons first u =>
          rw [escaped, escaped, List.flatMap_cons, List.flatMap_cons, List.append_assoc, List.append_assoc] at same
          obtain ⟨rfl, behind⟩ := escape_inj same
          obtain ⟨rfl, after⟩ := ih behind
          exact ⟨rfl, after⟩

theorem eq_of_stop {stop : UInt8} {t u rest other : Text} (before : stop ∉ t) (free : stop ∉ u)
    (same : t ++ stop :: rest = u ++ stop :: other) : t = u ∧ rest = other := by
  induction t generalizing u with
  | nil =>
      cases u with
      | nil => exact ⟨rfl, (List.cons.inj same).2⟩
      | cons byte u => exact absurd ((List.cons.inj same).1 ▸ List.mem_cons_self) free
  | cons byte t ih =>
      cases u with
      | nil => exact absurd ((List.cons.inj same).1 ▸ List.mem_cons_self) before
      | cons first u =>
          obtain ⟨rfl, behind⟩ := List.cons.inj same
          obtain ⟨rfl, after⟩ := ih (List.not_mem_of_not_mem_cons before) (List.not_mem_of_not_mem_cons free) behind
          exact ⟨rfl, after⟩

theorem not_in_number {byte : UInt8} (notSign : byte ≠ Text.hyphen) (noDigit : ¬ (48 ≤ byte.toNat ∧ byte.toNat ≤ 57)) (n : Int) :
    byte ∉ Text.ofInt n :=
  fun member => (Text.byte_of_int member).elim notSign noDigit

theorem no_comma_in_number (n : Int) : Text.comma ∉ Text.ofInt n := not_in_number (by decide) (by decide) n

-- Each field ends at the first comma or closing quote behind it, so that the fields come apart from the front.
theorem json_inj {r q : Record} {rest other : Text} (same : r.json ++ rest = q.json ++ other) : r = q ∧ rest = other := by
  simp only [json, List.append_assoc] at same
  obtain ⟨time, levels⟩ := eq_of_stop (no_comma_in_number r.time) (no_comma_in_number q.time) (List.append_cancel_left same)
  have named := @List.append_cancel_left _ ("\"level\":\"" : Text) _ _ levels
  obtain ⟨level, tags⟩ := eq_of_stop r.level.no_quote_in_name q.level.no_quote_in_name named
  obtain ⟨tag, messages⟩ := escaped_inj (@List.append_cancel_left _ (",\"module\":\"" : Text) _ _ tags)
  obtain ⟨message, ends⟩ := escaped_inj (@List.append_cancel_left _ (",\"msg\":\"" : Text) _ _ messages)
  refine ⟨?_, (List.cons.inj ends).2⟩
  cases r
  cases q
  simp only [mk.injEq]
  exact ⟨Level.name_injective level, tag, message, Text.of_int_injective time⟩

theorem json_lines_inj {rs qs : List Record}
    (same : rs.flatMap (fun r => r.json ++ [Text.lineFeed]) = qs.flatMap fun q => q.json ++ [Text.lineFeed]) : rs = qs := by
  induction rs generalizing qs with
  | nil =>
      cases qs with
      | nil => rfl
      | cons q qs => cases same
  | cons r rs ih =>
      cases qs with
      | nil => cases same
      | cons q qs =>
          simp only [List.flatMap_cons, List.append_assoc] at same
          obtain ⟨rfl, behind⟩ := json_inj same
          rw [ih (List.cons.inj behind).2]

theorem json_lines_tell_records (now later : Int) :
    (∀ r q : Record, r.format now .json = q.format later .json ↔ r = q) ∧
    ∀ rs qs : List Record, rs.flatMap (fun r => r.format now .json ++ [Text.lineFeed]) =
      qs.flatMap (fun q => q.format later .json ++ [Text.lineFeed]) ↔ rs = qs := by
  constructor
  · intro r q
    refine ⟨fun same => ?_, congrArg json⟩
    have alone : r.json ++ [] = q.json ++ [] := congrArg (· ++ []) same
    exact (json_inj alone).1
  · intro rs qs
    exact ⟨json_lines_inj, fun same => by rw [same]; rfl⟩

end Record

end UnitRegistry.Log
