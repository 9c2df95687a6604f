import Mathlib.Data.List.Chain
import Mathlib.Logic.Relation
import UnitRegistry.Proofs.SymbolNumbers
/-!
Lineages: a symbol behind its owners, outermost first. A table creates a symbol after its owner, so the numbers along a lineage
rise: whoever follows owners comes to an end, and what a table creates later is not met on the way.
-/
set_option autoImplicit false

namespace UnitRegistry

theorem Text.joined_concat (separator : Text) (texts : List Text) (last : Text) (filled : texts ≠ []) :
    joined separator (texts ++ [last]) = joined separator texts ++ (separator ++ last) := by
  induction texts with
  | nil => exact absurd rfl filled
  | cons first rest ih =>
      cases rest with
      | nil => simp [joined]
      | cons second rest => simpa [joined] using ih (by simp)

namespace Symbol

structure IsLineage (symbol : Symbol) (path : List Symbol) : Prop where
  outermost : ∀ first, path.head? = some first → first.owner = none
  owners : path.IsChain fun owner owned => owned.owner = some owner
  own : path.getLast? = some symbol

def lineage : Symbol → List Symbol
  | .top info => [.top info]
  | .member info owner => owner.lineage ++ [.member info owner]

theorem mem_lineage (symbol : Symbol) : symbol ∈ symbol.lineage := by
  cases symbol <;> simp [lineage]

theorem lineage_ne_nil (symbol : Symbol) : symbol.lineage ≠ [] := List.ne_nil_of_mem symbol.mem_lineage

theorem is_lineage_iff_owner (symbol : Symbol) (path : List Symbol) :
    symbol.IsLineage path ↔ symbol.owner = none ∧ path = [symbol] ∨
      ∃ owner above, symbol.owner = some owner ∧ owner.IsLineage above ∧ path = above ++ [symbol] := by
  constructor
  · rintro ⟨outermost, owners, own⟩
    obtain ⟨above, rfl⟩ := List.getLast?_eq_some_iff.mp own
    obtain ⟨before, _, link⟩ := List.isChain_append.mp owners
    cases last : above.getLast? with
    | none =>
        cases List.getLast?_eq_none_iff.mp last
        exact .inl ⟨outermost symbol rfl, rfl⟩
    | some owner =>
        refine .inr ⟨owner, above, link owner last symbol rfl, ⟨fun first same => ?_, before, last⟩, rfl⟩
        exact outermost first (by rw [List.head?_append, same, Option.some_or])
  · rintro (⟨top, rfl⟩ | ⟨owner, above, owned, ⟨outermost, owners, own⟩, rfl⟩)
    · exact ⟨fun first same => Option.some.inj same ▸ top, .singleton _, rfl⟩
    · have filled : above ≠ [] := fun empty => by simp [empty] at own
      refine ⟨fun first same => ?_, List.isChain_append.mpr ⟨owners, .singleton _, ?_⟩, List.getLast?_concat⟩
      · rw [List.head?_append_of_ne_nil _ filled] at same
        exact outermost first same
      · intro last isLast next isNext
        cases isNext
        exact owned.trans (own.symm.trans isLast)

theorem is_lineage_iff (symbol : Symbol) (path : List Symbol) : symbol.IsLineage path ↔ path = symbol.lineage := by
  induction symbol generalizing path with
  | top info =>
      rw [is_lineage_iff_owner]
      simp [owner, lineage]
  | member info owner ih =>
      rw [is_lineage_iff_owner]
      simp [Symbol.owner, lineage, ih]

theorem full_name_joined (symbol : Symbol) : symbol.fullName = Text.joined "." (symbol.lineage.map Symbol.name) := by
  induction symbol with
  | top info => rfl
  | member info owner ih =>
      rw [fullName, lineage, List.map_append, List.map_singleton, Text.joined_concat, ← ih]
      · rfl
      · simpa using owner.lineage_ne_nil

end Symbol

namespace SymbolTable

def OwnersCreated (t : SymbolTable) : List Creation → Prop
  | [] => True
  | creation :: rest =>
      (∀ owner ∈ creation.owner, owner ∈ t.symbols) ∧
        OwnersCreated (t.create creation.kind creation.name creation.owner).1 rest

instance decidableOwnersCreated : (t : SymbolTable) → (creations : List Creation) → Decidable (t.OwnersCreated creations)
  | _, [] => .isTrue trivial
  | t, creation :: rest =>
      have := decidableOwnersCreated (t.create creation.kind creation.name creation.owner).1 rest
      inferInstanceAs (Decidable ((∀ owner ∈ creation.owner, owner ∈ t.symbols) ∧ OwnersCreated _ rest))

def OwnersFirst (t : SymbolTable) : Prop :=
  ∀ symbol ∈ t.symbols, ∀ owner, symbol.owner = some owner → owner ∈ t.symbols ∧ owner.number < symbol.number

theorem create_owners_first (t : SymbolTable) (counts : t.Counts) (first : t.OwnersFirst) (creation : Creation)
    (known : ∀ owner ∈ creation.owner, owner ∈ t.symbols) :
    (t.create creation.kind creation.name creation.owner).1.OwnersFirst := by
  intro symbol member owner owned
  rcases Array.mem_push.mp member with old | new
  · obtain ⟨among, less⟩ := first symbol old owner owned
    exact ⟨Array.mem_push_of_mem _ among, less⟩
  · have asked : symbol.creation = creation := new ▸ creation_of_created t creation
    have number : symbol.number = t.size + 1 := new ▸ number_of_created t creation
    have among : owner ∈ t.symbols := known owner ((congrArg Creation.owner asked).symm.trans owned)
    refine ⟨Array.mem_push_of_mem _ among, ?_⟩
    rw [number]
    exact Nat.lt_succ_of_le (number_bounds counts among).2

theorem created_owners_first (t : SymbolTable) (counts : t.Counts) (first : t.OwnersFirst) (creations : List Creation)
    (known : t.OwnersCreated creations) : (t.created creations).OwnersFirst := by
  induction creations generalizing t with
  | nil => exact first
  | cons creation rest ih =>
      exact ih _ (create_counts t counts creation) (create_owners_first t counts first creation known.1) known.2

def Owns (t : SymbolTable) (outer inner : Nat) : Prop :=
  ∃ symbol owner, t.find? inner = some symbol ∧ symbol.owner = some owner ∧ owner.number = outer

-- The full name for a reader who knows owners by their numbers only, within so many searches of the table.
def nameWithin (t : SymbolTable) : Nat → Nat → Option Text
  | 0, _ => none
  | searches + 1, number =>
      match t.find? number with
      | none => none
      | some symbol =>
          match symbol.owner with
          | none => some symbol.name
          | some owner => (t.nameWithin searches owner.number).map (· ++ ("." ++ symbol.name))

section Lineage

variable {t : SymbolTable}

theorem lt_of_owns (first : t.OwnersFirst) {outer inner : Nat} (owns : t.Owns outer inner) : outer < inner := by
  obtain ⟨symbol, owner, found, owned, rfl⟩ := owns
  obtain ⟨member, rfl⟩ := of_find found
  exact (first symbol member owner owned).2

theorem lt_of_owners (first : t.OwnersFirst) {outer inner : Nat} (above : Relation.TransGen t.Owns outer inner) :
    outer < inner := by
  induction above with
  | single owns => exact lt_of_owns first owns
  | tail _ owns ih => exact Nat.lt_trans ih (lt_of_owns first owns)

theorem lineage_in_table (first : t.OwnersFirst) {symbol : Symbol} (member : symbol ∈ t.symbols) :
    ∀ other ∈ symbol.lineage, other ∈ t.symbols := by
  induction symbol with
  | top info => simpa [Symbol.lineage] using member
  | member info owner ih =>
      have above := ih (first _ member owner rfl).1
      intro other among
      rcases List.mem_append.mp among with outer | own
      · exact above other outer
      · rwa [List.mem_singleton.mp own]

theorem lineage_length_le (counts : t.Counts) (first : t.OwnersFirst) {symbol : Symbol} (member : symbol ∈ t.symbols) :
    symbol.lineage.length ≤ symbol.number := by
  induction symbol with
  | top info => exact (number_bounds counts member).1
  | member info owner ih =>
      obtain ⟨among, less⟩ := first _ member owner rfl
      rw [Symbol.lineage, List.length_append, List.length_singleton]
      exact Nat.lt_of_le_of_lt (ih among) less

-- One search for each symbol of the lineage. The induction is on the searches: that a symbol holds its owner does not tell a
-- reader of numbers when to stop.
theorem name_within (counts : t.Counts) (symbol : Symbol) (inside : ∀ other ∈ symbol.lineage, other ∈ t.symbols) (searches : Nat) :
    t.nameWithin searches symbol.number = if symbol.lineage.length ≤ searches then some symbol.fullName else none := by
  induction searches generalizing symbol with
  | zero => simp [nameWithin, symbol.lineage_ne_nil]
  | succ searches ih =>
      rw [nameWithin, find_number counts (inside symbol symbol.mem_lineage)]
      cases symbol with
      | top info => simp [Symbol.owner, Symbol.lineage, Symbol.fullName, Symbol.name, Symbol.info]
      | member info owner =>
          have above := ih owner fun other among => inside other (List.mem_append_left _ among)
          simp only [Symbol.owner, above, Symbol.lineage, List.length_append, List.length_singleton, Nat.add_le_add_iff_right]
          split <;> rfl

end Lineage

theorem names_along_lineages (origin : Nat) (creations : List Creation) (known : OwnersCreated { origin } creations)
    (t : SymbolTable) (made : created { origin } creations = t) :
    answers { origin } creations = t.symbols.toList ∧
    t.symbols.toList.map Symbol.creation = creations ∧
    t.symbols.toList.map Symbol.number = List.range' 1 t.size ∧
    t.OwnersFirst ∧
    (∀ number, ¬ Relation.TransGen t.Owns number number) ∧
    ∀ symbol ∈ t.symbols, ∃ path, (∀ other, symbol.IsLineage other ↔ other = path) ∧
      (∀ other ∈ path, other ∈ t.symbols) ∧ path.length ≤ symbol.number ∧
      symbol.fullName = Text.joined "." (path.map Symbol.name) ∧
      ∀ later, t.symbols.toList <+: (t.created later).symbols.toList ∧
        ∀ searches, (t.created later).nameWithin searches symbol.number =
          if path.length ≤ searches then some symbol.fullName else none := by
  have counts : t.Counts := made ▸ created_counts _ (fun place symbol found => by simp at found) creations
  have first : t.OwnersFirst := made ▸
    created_owners_first _ (fun place symbol found => by simp at found) (fun symbol member => by simp at member) creations known
  have answered : answers { origin } creations = t.symbols.toList := by
    rw [← made, symbols_created]
    rfl
  have asked : t.symbols.toList.map Symbol.creation = creations := answered ▸ creations_of_answers _ creations
  have size : creations.length = t.size := by rw [← asked, List.length_map, Array.length_toList, SymbolTable.size]
  refine ⟨answered, asked, ?_, first, fun number above => Nat.lt_irrefl number (lt_of_owners first above), ?_⟩
  · rw [← answered, numbers_of_answers, size]
    rfl
  · intro symbol member
    have inside := lineage_in_table first member
    refine ⟨symbol.lineage, symbol.is_lineage_iff, inside, lineage_length_le counts first member, symbol.full_name_joined,
      fun later => ?_⟩
    have kept : t.symbols.toList <+: (t.created later).symbols.toList := symbols_created t later ▸ List.prefix_append ..
    refine ⟨kept, name_within (created_counts t counts later) symbol fun other among => ?_⟩
    exact Array.mem_toList_iff.mp (kept.subset (Array.mem_toList_iff.mpr (inside other among)))

def appPackage : Symbol := .top ⟨0, 1, .package, "app"⟩
def mainObject : Symbol := .member ⟨0, 2, .object, "Main"⟩ appPackage
def runMethod : Symbol := .member ⟨0, 4, .method, "run"⟩ mainObject

def nestedCreations : List Creation :=
  [⟨.package, "app", none⟩, ⟨.object, "Main", some appPackage⟩, ⟨.klass, "Point", none⟩, ⟨.method, "run", some mainObject⟩]

theorem nested_name_kept :
    OwnersCreated { origin := 0 } nestedCreations ∧
      ∀ later, ((created { origin := 0 } nestedCreations).created later).nameWithin 3 4 = some "app.Main.run" := by
  have known : OwnersCreated { origin := 0 } nestedCreations := by decide +kernel
  obtain ⟨_, _, _, _, _, names⟩ := names_along_lineages 0 nestedCreations known _ rfl
  obtain ⟨path, lineage, _, _, _, kept⟩ := names runMethod (by decide +kernel)
  have nested : [appPackage, mainObject, runMethod] = path := (lineage _).mp ((runMethod.is_lineage_iff _).mpr rfl)
  refine ⟨known, fun later => ((kept later).2 3).trans ?_⟩
  rw [← nested]
  rfl

end SymbolTable

end UnitRegistry
