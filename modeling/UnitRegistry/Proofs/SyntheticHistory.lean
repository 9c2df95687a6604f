import UnitRegistry.Proofs.Conduct
import UnitRegistry.Proofs.SyntheticCalls

set_option autoImplicit false

namespace UnitRegistry

structure LastPut (calls : List SyntheticCall) (symbol : Symbol) (tree : NodeRef) (later : List SyntheticCall) : Prop where
  put : ∃ earlier, calls = earlier ++ .put (some symbol) (some tree) :: later ∧ .freeze ∉ earlier
  last : ∀ between other rest, later = between ++ .put (some symbol) (some other) :: rest → .freeze ∈ between

def Registered (calls : List SyntheticCall) (symbol : Symbol) (tree : NodeRef) : Prop :=
  ∃ later, LastPut calls symbol tree later ∧ .remove (some symbol) ∉ later ∧ .clear ∉ later

def SyntheticCall.Leaves (frozen : Prop) (symbol : Symbol) (call : SyntheticCall) : Prop :=
  call ≠ .remove (some symbol) ∧ call ≠ .clear ∧ ∀ other, call = .put (some symbol) (some other) → frozen

theorem last_put_here {calls : List SyntheticCall} {symbol : Symbol} {tree : NodeRef} (melted : .freeze ∉ calls) :
    LastPut (calls ++ [.put (some symbol) (some tree)]) symbol tree [] :=
  ⟨⟨calls, rfl, melted⟩, fun between other rest split => by simp at split⟩

theorem last_put_before {calls later : List SyntheticCall} {symbol : Symbol} {tree : NodeRef} (call : SyntheticCall)
    (before : LastPut calls symbol tree later)
    (frozen : ∀ other, call = .put (some symbol) (some other) → .freeze ∈ calls) :
    LastPut (calls ++ [call]) symbol tree (later ++ [call]) := by
  obtain ⟨⟨earlier, rfl, melted⟩, last⟩ := before
  refine ⟨⟨earlier, by simp, melted⟩, fun between other rest split => ?_⟩
  obtain ⟨_, rfl, same⟩ | ⟨front, _, inside⟩ := split_snoc split
  · have somewhere := frozen other same
    simpa [melted] using somewhere
  · exact last between other front inside

theorem registered_snoc (calls : List SyntheticCall) (call : SyntheticCall) (symbol : Symbol) (tree : NodeRef) :
    Registered (calls ++ [call]) symbol tree ↔
      (call = .put (some symbol) (some tree) ∧ .freeze ∉ calls) ∨
        (Registered calls symbol tree ∧ call.Leaves (.freeze ∈ calls) symbol) := by
  constructor
  · rintro ⟨later, ⟨⟨earlier, split, melted⟩, last⟩, kept, uncleared⟩
    obtain ⟨rfl, rfl, same⟩ | ⟨rest, rfl, rfl⟩ := split_snoc split
    · exact .inl ⟨same, melted⟩
    · refine .inr ⟨⟨rest, ⟨⟨earlier, rfl, melted⟩, fun between other after inside => ?_⟩, ?_, ?_⟩, ?_, ?_, ?_⟩
      · exact last between other (after ++ [call]) (by simp [inside])
      · exact fun member => kept (List.mem_append_left _ member)
      · exact fun member => uncleared (List.mem_append_left _ member)
      · rintro rfl
        exact kept (by simp)
      · rintro rfl
        exact uncleared (by simp)
      · rintro other rfl
        simp [last rest other [] rfl]
  · rintro (⟨rfl, melted⟩ | ⟨⟨later, before, kept, uncleared⟩, leaves⟩)
    · exact ⟨[], last_put_here melted, List.not_mem_nil, List.not_mem_nil⟩
    · refine ⟨later ++ [call], last_put_before call before leaves.2.2, ?_, ?_⟩
      · simp [kept, Ne.symm leaves.1]
      · simp [uncleared, Ne.symm leaves.2.1]

namespace SyntheticDefinitions

theorem find_call (c : SyntheticDefinitions) (call : SyntheticCall) (symbol : Symbol) (tree : NodeRef) :
    (c.call call).1.find? (some symbol) = some tree ↔
      (call = .put (some symbol) (some tree) ∧ c.frozen = false) ∨
        (c.find? (some symbol) = some tree ∧ call.Leaves (c.frozen = true) symbol) := by
  have effect := call_effect c call
  generalize c.call call = result at effect ⊢
  cases effect with
  | added other value melted =>
      rw [find_put]
      by_cases same : other = symbol
      · simp [same, melted, SyntheticCall.Leaves]
      · simp [same, SyntheticCall.Leaves]
  | removed other value registered =>
      rw [find_erase]
      by_cases same : other = symbol
      · simp [same, SyntheticCall.Leaves]
      · simp [same, SyntheticCall.Leaves]
  | found other value registered => simp [SyntheticCall.Leaves]
  | cleared => simp [SyntheticCall.Leaves, clear, find?]
  | froze => simp [SyntheticCall.Leaves, freeze, find?]
  | ignored call ignores =>
      constructor
      · intro found
        refine .inr ⟨found, ?_, ?_, ?_⟩
        · rintro rfl
          rw [show c.find? (some symbol) = none from ignores] at found
          cases found
        · rintro rfl
          exact ignores
        · rintro other rfl
          exact ignores
      · rintro (⟨rfl, melted⟩ | ⟨found, _⟩)
        · rw [show c.frozen = true from ignores] at melted
          cases melted
        · exact found

theorem find_after (calls : List SyntheticCall) (symbol : Symbol) (tree : NodeRef) :
    (after {} calls).find? (some symbol) = some tree ↔ Registered calls symbol tree := by
  induction calls using List.reverseRecOn with
  | nil =>
      constructor
      · intro found
        cases found
      · rintro ⟨later, ⟨⟨earlier, split, _⟩, _⟩, _⟩
        simp at split
  | append_singleton calls call ih =>
      have frozen : (after {} calls).frozen = true ↔ .freeze ∈ calls := by simp [after_frozen]
      have melted : (after {} calls).frozen = false ↔ .freeze ∉ calls := by rw [← frozen, Bool.not_eq_true]
      rw [after_snoc, find_call, registered_snoc, ih, melted, SyntheticCall.Leaves, SyntheticCall.Leaves, frozen]

theorem find_of_frozen (c : SyntheticDefinitions) (frozen : c.frozen = true) (calls : List SyntheticCall) (symbol : Symbol)
    (tree : NodeRef) (found : (c.after calls).find? (some symbol) = some tree) : c.find? (some symbol) = some tree := by
  induction calls using List.reverseRecOn with
  | nil => exact found
  | append_singleton calls call ih =>
      rw [after_snoc, find_call] at found
      rcases found with ⟨_, melted⟩ | ⟨before, _⟩
      · rw [(after_frozen c calls).mpr (.inl frozen)] at melted
        cases melted
      · exact ih before

structure Tells (calls : List SyntheticCall) (c : SyntheticDefinitions) : Prop where
  nothing : (c.get none).1 = none ∧ c.contains none = false
  tree : ∀ symbol tree, (c.get (some symbol)).1 = some tree ↔ Registered calls symbol tree
  contained : ∀ symbol, c.contains (some symbol) = true ↔ ∃ tree, Registered calls symbol tree
  listed : ∀ symbol, symbol ∈ c.keys ↔ ∃ tree, Registered calls symbol tree
  once : c.keys.Nodup
  size : c.size = c.keys.length
  empty : c.isEmpty = true ↔ ∀ symbol tree, ¬ Registered calls symbol tree
  frozen : c.frozen = true ↔ .freeze ∈ calls

theorem tells_after (calls : List SyntheticCall) : Tells calls (after {} calls) := by
  have contained (symbol : Symbol) :
      (after {} calls).contains (some symbol) = true ↔ ∃ tree, Registered calls symbol tree := by
    rw [contains, Option.isSome_iff_exists]
    exact exists_congr (find_after calls symbol)
  have listed (symbol : Symbol) : symbol ∈ (after {} calls).keys ↔ ∃ tree, Registered calls symbol tree :=
    (mem_keys_iff _ symbol).trans (contained symbol)
  refine ⟨⟨rfl, rfl⟩, fun symbol tree => ?_, contained, listed, after_single {} List.nodup_nil calls, ?_, ?_, ?_⟩
  · rw [get_answer]
    exact find_after calls symbol tree
  · rw [size, keys, List.length_map]
  · have nobody : (after {} calls).isEmpty = true ↔ ∀ symbol, symbol ∉ (after {} calls).keys := by
      rw [isEmpty, List.isEmpty_iff, ← List.eq_nil_iff_forall_not_mem, keys, List.map_eq_nil_iff]
    rw [nobody]
    exact forall_congr' fun symbol => by rw [listed, not_exists]
  · simp [after_frozen]

end SyntheticDefinitions

namespace Session

open State (nobody)

theorem synthetics_of_history (Data : Type) :
    (∀ calls, SyntheticDefinitions.Tells calls (({} : SyntheticDefinitions).after calls)) ∧
    (∀ (s : State) cache steps m, s.HasCache cache → (s.cache cache).definitions = {} → s.Walk nobody steps m →
      SyntheticDefinitions.Tells (syntheticCalls cache steps) (m.cache cache).definitions) ∧
    (∀ (s : State) cache steps m symbol tree, s.HasCache cache → (s.cache cache).definitions.frozen = true →
      s.Walk nobody steps m → (m.getSynthetic cache (some symbol)).2 = some tree →
        (s.getSynthetic cache (some symbol)).2 = some tree) ∧
    ∀ limit (program : Program Data), Walking (exec limit program) := by
  refine ⟨SyntheticDefinitions.tells_after, fun s cache steps m there new walk => ?_,
    fun s cache steps m symbol tree there frozen walk found => ?_, walking_exec⟩
  · have follows := State.walk_follows there walk
    rw [follows.definitions, new]
    exact SyntheticDefinitions.tells_after _
  · have follows := State.walk_follows there walk
    have later : (m.cache cache).definitions.find? (some symbol) = some tree := by
      rw [← SyntheticDefinitions.get_answer]
      exact found
    rw [follows.definitions] at later
    have before := SyntheticDefinitions.find_of_frozen _ frozen _ symbol tree later
    rw [← SyntheticDefinitions.get_answer] at before
    exact before

def pointCalls : List SyntheticCall :=
  [.put (some pointClass) (some 1), .put (some applyMethod) (some 2), .put (some pointClass) none, .put none (some 2), .freeze,
    .remove (some applyMethod), .put (some pointClass) (some 2)]

def withCache : State := (ready [.addNode {}, .addNode {}, .addCache] []).state

def withPoint : State := withCache.callAll (.single 0) pointCalls

def putAgain : State := withPoint.callAll (.single 0) [.put (some applyMethod) (some 2)]

theorem frozen_cache_keeps_point :
    Registered pointCalls pointClass 1 ∧ (∀ tree, ¬ Registered pointCalls applyMethod tree) ∧
      (withPoint.getSynthetic (.single 0) (some pointClass)).2 = some 1 ∧
      (putAgain.getSynthetic (.single 0) (some applyMethod)).2 = none := by
  obtain ⟨_, tell, shrink, _⟩ := synthetics_of_history Unit
  have walk : withCache.Walk nobody _ withPoint := State.calls_walk withCache (.single 0) pointCalls
  have tells := tell withCache (.single 0) _ withPoint (by decide +kernel) (by decide +kernel) walk
  rw [synthetic_calls_of_requests] at tells
  have kept : (withPoint.getSynthetic (.single 0) (some pointClass)).2 = some 1 := by decide +kernel
  have gone : (withPoint.getSynthetic (.single 0) (some applyMethod)).2 = none := by decide +kernel
  have again : withPoint.Walk nobody _ putAgain := State.calls_walk withPoint (.single 0) _
  refine ⟨(tells.tree pointClass 1).mp kept, fun tree registered => ?_, kept,
    Option.eq_none_iff_forall_ne_some.mpr fun tree found => ?_⟩
  · have told := (tells.tree applyMethod tree).mpr registered
    exact absurd (told.symm.trans gone) (by simp)
  · have before := shrink withPoint (.single 0) _ putAgain applyMethod tree (by decide +kernel) (by decide +kernel) again found
    exact absurd (before.symm.trans gone) (by simp)

end Session

end UnitRegistry
