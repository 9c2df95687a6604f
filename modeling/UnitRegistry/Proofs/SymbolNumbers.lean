import UnitRegistry.Symbol

set_option autoImplicit false

namespace UnitRegistry

structure Creation where
  kind : SymbolKind
  name : Text
  owner : Option Symbol
deriving DecidableEq

def Symbol.creation (symbol : Symbol) : Creation := ⟨symbol.kind, symbol.name, symbol.owner⟩

namespace SymbolTable

def created (t : SymbolTable) (creations : List Creation) : SymbolTable :=
  creations.foldl (fun t creation => (t.create creation.kind creation.name creation.owner).1) t

def answers (t : SymbolTable) : List Creation → List Symbol
  | [] => []
  | creation :: rest =>
      let (t, symbol) := t.create creation.kind creation.name creation.owner
      symbol :: t.answers rest

def Counts (t : SymbolTable) : Prop := ∀ place symbol, t.symbols[place]? = some symbol → symbol.number = place + 1

theorem number_of_created (t : SymbolTable) (creation : Creation) :
    (t.create creation.kind creation.name creation.owner).2.number = t.size + 1 := by
  cases owner : creation.owner <;> rfl

theorem creation_of_created (t : SymbolTable) (creation : Creation) :
    (t.create creation.kind creation.name creation.owner).2.creation = creation := by
  obtain ⟨kind, name, owner⟩ := creation
  cases owner <;> rfl

theorem create_counts (t : SymbolTable) (counts : t.Counts) (creation : Creation) :
    (t.create creation.kind creation.name creation.owner).1.Counts := by
  intro place symbol found
  rw [create, Array.getElem?_push] at found
  by_cases last : place = t.symbols.size
  · rw [if_pos last] at found
    cases found
    rw [last]
    exact number_of_created t creation
  · rw [if_neg last] at found
    exact counts place symbol found

theorem created_counts (t : SymbolTable) (counts : t.Counts) (creations : List Creation) : (t.created creations).Counts := by
  induction creations generalizing t with
  | nil => exact counts
  | cons creation rest ih => exact ih _ (create_counts t counts creation)

theorem eq_of_number {t : SymbolTable} (counts : t.Counts) {a b : Symbol} (first : a ∈ t.symbols) (second : b ∈ t.symbols)
    (same : a.number = b.number) : a = b := by
  obtain ⟨place, at_a⟩ := Array.mem_iff_getElem?.mp first
  obtain ⟨other, at_b⟩ := Array.mem_iff_getElem?.mp second
  have equal : place = other := by
    rw [counts place a at_a, counts other b at_b] at same
    exact Nat.succ.inj same
  rw [equal, at_b] at at_a
  exact (Option.some.inj at_a).symm

theorem number_bounds {t : SymbolTable} (counts : t.Counts) {symbol : Symbol} (member : symbol ∈ t.symbols) :
    1 ≤ symbol.number ∧ symbol.number ≤ t.size := by
  obtain ⟨place, found⟩ := Array.mem_iff_getElem?.mp member
  rw [counts place symbol found]
  exact ⟨Nat.le_add_left 1 place, (Array.getElem?_eq_some_iff.mp found).1⟩

def find? (t : SymbolTable) (number : Nat) : Option Symbol := t.symbols.find? fun symbol => symbol.number == number

theorem of_find {t : SymbolTable} {number : Nat} {symbol : Symbol} (found : t.find? number = some symbol) :
    symbol ∈ t.symbols ∧ symbol.number = number :=
  ⟨Array.mem_of_find?_eq_some found, by simpa using Array.find?_some found⟩

theorem find_number {t : SymbolTable} (counts : t.Counts) {symbol : Symbol} (member : symbol ∈ t.symbols) :
    t.find? symbol.number = some symbol := by
  cases found : t.find? symbol.number with
  | none => simpa using Array.find?_eq_none.mp found symbol member
  | some other =>
      obtain ⟨among, same⟩ := of_find found
      rw [eq_of_number counts among member same]

theorem symbols_created (t : SymbolTable) (creations : List Creation) :
    (t.created creations).symbols.toList = t.symbols.toList ++ t.answers creations := by
  induction creations generalizing t with
  | nil => exact (List.append_nil _).symm
  | cons creation rest ih =>
      have grown := ih (t.create creation.kind creation.name creation.owner).1
      rw [create, Array.toList_push, List.append_assoc] at grown
      exact grown

theorem numbers_of_answers (t : SymbolTable) (creations : List Creation) :
    (t.answers creations).map Symbol.number = List.range' (t.size + 1) creations.length := by
  induction creations generalizing t with
  | nil => rfl
  | cons creation rest ih =>
      have grown : (t.create creation.kind creation.name creation.owner).1.size = t.size + 1 := Array.size_push ..
      rw [answers, List.map_cons, number_of_created, ih, grown, List.length_cons, List.range'_succ]

theorem creations_of_answers (t : SymbolTable) (creations : List Creation) :
    (t.answers creations).map Symbol.creation = creations := by
  induction creations generalizing t with
  | nil => rfl
  | cons creation rest ih => rw [answers, List.map_cons, creation_of_created, ih]

end SymbolTable

end UnitRegistry
