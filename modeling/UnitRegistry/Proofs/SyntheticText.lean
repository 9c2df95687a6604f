import Mathlib.Data.List.Nodup
import UnitRegistry.Proofs.SymbolNumbers
import UnitRegistry.Proofs.SyntheticCalls

set_option autoImplicit false

namespace UnitRegistry

namespace SyntheticDefinitions

def listing (entries : List (Symbol × Text)) : Text :=
  "\x7b" ++ Text.joined ", " (entries.map fun entry => entry.1.fullName ++ " -> " ++ entry.2) ++ "\x7d"

def texts (heap : Heap) (entries : List (Symbol × NodeRef)) : List (Symbol × Text) :=
  entries.map fun entry => (entry.1, (heap.tree (some entry.2)).render)

theorem render_listing (c : SyntheticDefinitions) (heap : Heap) : c.render heap = listing (texts heap c.ordered) := by
  rw [listing, texts, List.map_map]
  rfl

def contents (c : SyntheticDefinitions) (heap : Heap) (symbol : Symbol) : Option Tree :=
  (c.find? (some symbol)).map fun tree => heap.tree (some tree)

def Ascending {α : Type} (entries : List (Symbol × α)) : Prop := entries.Pairwise fun a b => a.1.number < b.1.number

structure Lists (c : SyntheticDefinitions) (heap : Heap) (entries : List (Symbol × Text)) : Prop where
  ascending : Ascending entries
  registered : ∀ symbol text, (symbol, text) ∈ entries ↔ (c.contents heap symbol).map Tree.render = some text

theorem nodup_of_ascending {α : Type} {entries : List (Symbol × α)} (ascending : Ascending entries) : entries.Nodup := by
  refine List.Pairwise.imp ?_ ascending
  rintro a b less rfl
  exact Nat.lt_irrefl _ less

theorem eq_of_ascending {α : Type} {entries others : List (Symbol × α)} (ascending : Ascending entries)
    (rising : Ascending others) (same : ∀ entry, entry ∈ entries ↔ entry ∈ others) : entries = others := by
  have perm := (List.perm_ext_iff_of_nodup (nodup_of_ascending ascending) (nodup_of_ascending rising)).mpr same
  exact List.Perm.eq_of_pairwise (fun _ _ _ _ less more => (Nat.lt_asymm less more).elim) ascending rising perm

theorem eq_of_lists {c d : SyntheticDefinitions} {heap other : Heap} {entries others : List (Symbol × Text)}
    (same : ∀ symbol, c.contents heap symbol = d.contents other symbol) (lists : c.Lists heap entries)
    (listsOther : d.Lists other others) : entries = others := by
  refine eq_of_ascending lists.ascending listsOther.ascending fun entry => ?_
  rw [lists.registered entry.1 entry.2, listsOther.registered entry.1 entry.2, same]

-- The same entries in another order, as a hash table may give them.
def inOrder (c : SyntheticDefinitions) (order : List (Symbol × NodeRef)) : SyntheticDefinitions := { c with entries := order }

section Sorting

variable {c : SyntheticDefinitions} {order : List (Symbol × NodeRef)} (reordered : order.Perm c.entries)
include reordered

theorem ordered_perm : (c.inOrder order).ordered.Perm c.entries :=
  (List.mergeSort_perm order _).trans reordered

theorem ordered_ascending (numbered : (c.keys.map Symbol.number).Nodup) :
    Ascending (c.inOrder order).ordered := by
  have sorted : (c.inOrder order).ordered.Pairwise fun a b => a.1.number ≤ b.1.number := by
    have weak := @List.pairwise_mergeSort _ (fun a b : Symbol × NodeRef => decide (a.1.number ≤ b.1.number))
      (fun a b c first second => decide_eq_true (Nat.le_trans (of_decide_eq_true first) (of_decide_eq_true second)))
      (fun a b => by simpa using Nat.le_total a.1.number b.1.number) order
    exact weak.imp of_decide_eq_true
  have distinct : (c.inOrder order).ordered.Pairwise fun a b => a.1.number ≠ b.1.number := by
    rw [keys, List.map_map, List.Nodup, List.pairwise_map] at numbered
    exact ((ordered_perm reordered).pairwise_iff fun differ => Ne.symm differ).mpr numbered
  exact (sorted.and distinct).imp fun both => Nat.lt_of_le_of_ne both.1 both.2

theorem ordered_lists (single : c.Single) (numbered : (c.keys.map Symbol.number).Nodup) (heap : Heap) :
    c.Lists heap (texts heap (c.inOrder order).ordered) := by
  refine ⟨List.pairwise_map.mpr (ordered_ascending reordered numbered), fun symbol text => ?_⟩
  have member (tree : NodeRef) : (symbol, tree) ∈ (c.inOrder order).ordered ↔
      c.find? (some symbol) = some tree :=
    ((ordered_perm reordered).mem_iff).trans (Assoc.lookup_iff_mem symbol tree c.entries single).symm
  rw [contents, Option.map_map, Option.map_eq_some_iff, texts, List.mem_map]
  constructor
  · rintro ⟨⟨other, tree⟩, inside, same⟩
    cases same
    exact ⟨tree, (member tree).mp inside, rfl⟩
  · rintro ⟨tree, found, rfl⟩
    exact ⟨(symbol, tree), (member tree).mpr found, rfl⟩

end Sorting

theorem render_iff {c : SyntheticDefinitions} {order : List (Symbol × NodeRef)} (reordered : order.Perm c.entries)
    (single : c.Single) (numbered : (c.keys.map Symbol.number).Nodup) (heap : Heap) (text : Text) :
    (c.inOrder order).render heap = text ↔
      ∃ entries, c.Lists heap entries ∧ text = listing entries := by
  have lists := ordered_lists reordered single numbered heap
  rw [render_listing]
  constructor
  · rintro rfl
    exact ⟨_, lists, rfl⟩
  · rintro ⟨entries, others, rfl⟩
    rw [eq_of_lists (fun _ => rfl) lists others]

theorem numbered_of_contents {c d : SyntheticDefinitions} {heap other : Heap} (single : d.Single)
    (same : ∀ symbol, c.contents heap symbol = d.contents other symbol)
    (numbered : (c.keys.map Symbol.number).Nodup) : (d.keys.map Symbol.number).Nodup := by
  have known (symbol : Symbol) (member : symbol ∈ d.keys) : symbol ∈ c.keys := by
    rw [mem_keys_iff, contains, Option.isSome_iff_ne_none] at member ⊢
    have alike := same symbol
    intro nothing
    rw [contents, nothing, contents, Option.map_none] at alike
    exact member (Option.map_eq_none_iff.mp alike.symm)
  exact List.Nodup.map_on (fun a first b second => List.inj_on_of_nodup_map numbered (known a first) (known b second)) single

theorem numbered_of_table {t : SymbolTable} (counts : t.Counts) {c : SyntheticDefinitions} (single : c.Single)
    (own : ∀ symbol ∈ c.keys, symbol ∈ t.symbols) : (c.keys.map Symbol.number).Nodup :=
  List.Nodup.map_on (fun a first b second => SymbolTable.eq_of_number counts (own a first) (own b second)) single

theorem text_of_contents :
    (∀ calls heap (order : List (Symbol × NodeRef)), order.Perm (after {} calls).entries →
      ((after {} calls).keys.map Symbol.number).Nodup → ∀ text,
        ((after {} calls).inOrder order).render heap = text ↔
          ∃ entries, (after {} calls).Lists heap entries ∧ text = listing entries) ∧
    (∀ calls others heap other (order reorder : List (Symbol × NodeRef)), order.Perm (after {} calls).entries →
      reorder.Perm (after {} others).entries → ((after {} calls).keys.map Symbol.number).Nodup →
      (∀ symbol, (after {} calls).contents heap symbol = (after {} others).contents other symbol) →
        ((after {} calls).inOrder order).render heap =
          ((after {} others).inOrder reorder).render other) ∧
    ∀ origin creations calls,
      (∀ symbol ∈ (after {} calls).keys, symbol ∈ (SymbolTable.created ⟨origin, #[]⟩ creations).symbols) →
      ((after {} calls).keys.map Symbol.number).Nodup := by
  have single (calls : List SyntheticCall) : (after {} calls).Single := after_single {} List.nodup_nil calls
  refine ⟨fun calls heap order reordered numbered => render_iff reordered (single calls) numbered heap, ?_, ?_⟩
  · intro calls others heap other order reorder reordered reorderedOther numbered same
    have numberedOther := numbered_of_contents (single others) same numbered
    rw [render_listing, render_listing]
    exact congrArg listing (eq_of_lists same (ordered_lists reordered (single calls) numbered heap)
      (ordered_lists reorderedOther (single others) numberedOther other))
  · intro origin creations calls own
    have counts : (SymbolTable.created ⟨origin, #[]⟩ creations).Counts :=
      SymbolTable.created_counts _ (fun place symbol found => by simp at found) creations
    exact numbered_of_table counts (single calls) own

def definitionTrees : Heap :=
  ((({} : Heap).push {}).push { kind := .moduleDef, name := "Point" }).push { kind := .defDef, name := "apply" }

def straight : List SyntheticCall := [.put (some pointClass) (some 1), .put (some applyMethod) (some 2)]

def roundabout : List SyntheticCall :=
  [.put (some applyMethod) (some 1), .put (some pointClass) (some 1), .put (some applyMethod) (some 2), .clear,
    .put (some applyMethod) (some 2), .put (some pointClass) (some 1), .freeze]

theorem roundabout_text :
    ((after {} straight).keys.map Symbol.number).Nodup ∧
      ((after {} straight).inOrder (after {} straight).entries.reverse).render definitionTrees =
        ((after {} roundabout).inOrder (after {} roundabout).entries.reverse).render definitionTrees ∧
      ∃ entries, (after {} straight).Lists definitionTrees entries ∧
        (after {} straight).render definitionTrees = listing entries := by
  obtain ⟨printed, canonical, table⟩ := text_of_contents
  have numbered := table 0 [⟨.klass, "Point", none⟩, ⟨.method, "apply", some pointClass⟩] straight (by decide +kernel)
  have same (symbol : Symbol) : (after {} straight).contents definitionTrees symbol =
      (after {} roundabout).contents definitionTrees symbol := by
    have turned : (after {} straight).entries.Perm (after {} roundabout).entries := by decide +kernel
    have found : (after {} straight).find? (some symbol) = (after {} roundabout).find? (some symbol) :=
      Option.ext fun tree => (Assoc.lookup_iff_mem symbol tree _ (by decide +kernel)).trans
        (turned.mem_iff.trans (Assoc.lookup_iff_mem symbol tree _ (by decide +kernel)).symm)
    rw [contents, contents, found]
  refine ⟨numbered, canonical straight roundabout definitionTrees definitionTrees _ _ (List.reverse_perm _)
    (List.reverse_perm _) numbered same, ?_⟩
  exact (printed straight definitionTrees _ (List.Perm.refl _) numbered _).mp rfl

example : (after {} roundabout).render definitionTrees = "\x7bPoint -> (ModuleDef Point), Point.apply -> (DefDef apply)\x7d" := by
  cbv

end SyntheticDefinitions

end UnitRegistry
