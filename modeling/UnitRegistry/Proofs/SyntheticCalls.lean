import Mathlib.Data.List.Induction
import UnitRegistry.Proofs.Effect
import UnitRegistry.Proofs.Walk

set_option autoImplicit false

namespace UnitRegistry

inductive SyntheticCall where
  | put (symbol : Option Symbol) (tree : Option NodeRef)
  | remove (symbol : Option Symbol)
  | get (symbol : Option Symbol)
  | clear
  | freeze
deriving DecidableEq

def SyntheticCall.request (cache : CacheRef) : SyntheticCall → Request
  | .put symbol tree => .putSynthetic cache symbol tree
  | .remove symbol => .removeSynthetic cache symbol
  | .get symbol => .getSynthetic cache symbol
  | .clear => .clearSynthetics cache
  | .freeze => .freezeSynthetics cache

theorem split_snoc {α : Type} {history earlier later : List α} {last item : α}
    (split : history ++ [last] = earlier ++ item :: later) :
    (later = [] ∧ history = earlier ∧ last = item) ∨
      ∃ rest, later = rest ++ [last] ∧ history = earlier ++ item :: rest := by
  rcases List.eq_nil_or_concat later with rfl | ⟨rest, final, rfl⟩
  · obtain ⟨same, ending⟩ := List.append_inj' split rfl
    exact .inl ⟨rfl, same, List.singleton_inj.mp ending⟩
  · rw [List.concat_eq_append, ← List.cons_append, ← List.append_assoc] at split
    obtain ⟨same, ending⟩ := List.append_inj' split rfl
    exact .inr ⟨rest, by rw [List.concat_eq_append, List.singleton_inj.mp ending], same⟩

namespace SyntheticDefinitions

def call (c : SyntheticDefinitions) : SyntheticCall → SyntheticDefinitions × List SyntheticNotice
  | .put symbol tree => c.put symbol tree
  | .remove symbol => c.remove symbol
  | .get symbol => (c, (c.get symbol).2)
  | .clear => (c.clear, [])
  | .freeze => (c.freeze, [])

def after (c : SyntheticDefinitions) (calls : List SyntheticCall) : SyntheticDefinitions :=
  calls.foldl (fun c call => (c.call call).1) c

theorem after_append (c : SyntheticDefinitions) (earlier later : List SyntheticCall) :
    c.after (earlier ++ later) = (c.after earlier).after later := List.foldl_append

theorem after_snoc (c : SyntheticDefinitions) (calls : List SyntheticCall) (call : SyntheticCall) :
    c.after (calls ++ [call]) = ((c.after calls).call call).1 := after_append c calls [call]

def Ignores (c : SyntheticDefinitions) : SyntheticCall → Prop
  | .put (some _) (some _) => c.frozen = true
  | .put _ _ => True
  | .remove symbol => c.find? symbol = none
  | .get symbol => c.find? symbol = none
  | .clear => False
  | .freeze => False

inductive Effect (c : SyntheticDefinitions) : SyntheticCall → SyntheticDefinitions × List SyntheticNotice → Prop where
  | added (symbol : Symbol) (tree : NodeRef) (melted : c.frozen = false) :
      Effect c (.put (some symbol) (some tree))
        ({ c with entries := Assoc.put symbol tree c.entries }, [⟨.added, symbol, tree⟩])
  | removed (symbol : Symbol) (tree : NodeRef) (registered : c.find? (some symbol) = some tree) :
      Effect c (.remove (some symbol)) ({ c with entries := Assoc.erase symbol c.entries }, [⟨.removed, symbol, tree⟩])
  | found (symbol : Symbol) (tree : NodeRef) (registered : c.find? (some symbol) = some tree) :
      Effect c (.get (some symbol)) (c, [⟨.found, symbol, tree⟩])
  | cleared : Effect c .clear (c.clear, [])
  | froze : Effect c .freeze (c.freeze, [])
  | ignored (call : SyntheticCall) (ignores : c.Ignores call) : Effect c call (c, [])

theorem call_effect (c : SyntheticDefinitions) (call : SyntheticCall) : c.Effect call (c.call call) := by
  cases call with
  | put symbol tree =>
      rcases c with ⟨entries, frozen⟩
      cases symbol with
      | none => cases frozen <;> exact .ignored _ trivial
      | some symbol =>
          cases tree with
          | none => cases frozen <;> exact .ignored _ trivial
          | some tree =>
              cases frozen with
              | false => exact .added symbol tree rfl
              | true => exact .ignored _ rfl
  | remove symbol =>
      cases symbol with
      | none => exact .ignored _ rfl
      | some symbol =>
          cases found : c.find? (some symbol) with
          | none =>
              have same : c.call (.remove (some symbol)) = (c, []) := by simp [call, remove, found]
              exact same ▸ .ignored _ found
          | some tree =>
              have changed : c.call (.remove (some symbol)) =
                  ({ c with entries := Assoc.erase symbol c.entries }, [⟨.removed, symbol, tree⟩]) := by
                simp [call, remove, found]
              exact changed ▸ .removed symbol tree found
  | get symbol =>
      cases symbol with
      | none => exact .ignored _ rfl
      | some symbol =>
          cases found : c.find? (some symbol) with
          | none =>
              have quiet : c.call (.get (some symbol)) = (c, []) := by simp [call, get, found]
              exact quiet ▸ .ignored _ found
          | some tree =>
              have told : c.call (.get (some symbol)) = (c, [⟨.found, symbol, tree⟩]) := by simp [call, get, found]
              exact told ▸ .found symbol tree found
  | clear => exact .cleared
  | freeze => exact .froze

theorem get_answer (c : SyntheticDefinitions) (symbol : Option Symbol) : (c.get symbol).1 = c.find? symbol := by
  cases found : c.find? symbol with
  | none => simp [get, found]
  | some tree =>
      cases symbol with
      | none => cases found
      | some symbol => simp [get, found]

theorem mem_keys_iff (c : SyntheticDefinitions) (symbol : Symbol) : symbol ∈ c.keys ↔ c.contains (some symbol) = true := by
  rw [contains, find?, Option.bind_some, keys]
  induction c.entries with
  | nil => simp
  | cons entry rest ih =>
      rcases entry with ⟨first, value⟩
      by_cases same : symbol = first
      · simp [same]
      · rw [List.map_cons, List.mem_cons, ih, List.lookup_cons, beq_false_of_ne same]
        simp [same]

section Changes

variable (c : SyntheticDefinitions) (symbol other : Symbol) (tree : NodeRef)

theorem find_put : ({ c with entries := Assoc.put symbol tree c.entries } : SyntheticDefinitions).find? (some other) =
    if symbol = other then some tree else c.find? (some other) := by
  by_cases same : symbol = other
  · subst same
    rw [if_pos rfl]
    exact Assoc.lookup_put_self symbol tree c.entries
  · rw [if_neg same]
    exact Assoc.lookup_put_of_ne symbol other tree c.entries (Ne.symm same)

theorem find_erase : ({ c with entries := Assoc.erase symbol c.entries } : SyntheticDefinitions).find? (some other) =
    if symbol = other then none else c.find? (some other) := by
  by_cases same : symbol = other
  · subst same
    rw [if_pos rfl]
    exact Assoc.lookup_erase_self symbol c.entries
  · rw [if_neg same]
    exact Assoc.lookup_erase_of_ne symbol other c.entries (Ne.symm same)

end Changes

def Single (c : SyntheticDefinitions) : Prop := c.keys.Nodup

theorem call_single (c : SyntheticDefinitions) (single : c.Single) (call : SyntheticCall) : (c.call call).1.Single := by
  have effect := call_effect c call
  generalize c.call call = result at effect ⊢
  cases effect with
  | added symbol tree => exact Assoc.keys_put_nodup symbol tree c.entries single
  | removed symbol tree =>
      rw [Single, keys, Assoc.keys_erase]
      exact single.filter _
  | found => exact single
  | cleared => exact List.nodup_nil
  | froze => exact single
  | ignored => exact single

theorem after_single (c : SyntheticDefinitions) (single : c.Single) (calls : List SyntheticCall) :
    (c.after calls).Single := by
  induction calls generalizing c with
  | nil => exact single
  | cons call rest ih => exact ih (c.call call).1 (call_single c single call)

theorem call_frozen (c : SyntheticDefinitions) (call : SyntheticCall) :
    (c.call call).1.frozen = true ↔ c.frozen = true ∨ call = .freeze := by
  have effect := call_effect c call
  generalize c.call call = result at effect ⊢
  cases effect with
  | cleared => simp [clear]
  | froze => simp [freeze]
  | ignored call ignores =>
      have another : call ≠ .freeze := by
        rintro rfl
        exact ignores
      simp [another]
  | _ => simp

theorem after_frozen (c : SyntheticDefinitions) (calls : List SyntheticCall) :
    (c.after calls).frozen = true ↔ c.frozen = true ∨ .freeze ∈ calls := by
  induction calls generalizing c with
  | nil => simp [after]
  | cons call rest ih =>
      have first := ih (c.call call).1
      rw [call_frozen] at first
      rw [List.mem_cons, ← or_assoc, eq_comm (a := SyntheticCall.freeze)]
      exact first

end SyntheticDefinitions

def Request.synthetic? : Request → Option (CacheRef × SyntheticCall)
  | .putSynthetic cache symbol tree => some (cache, .put symbol tree)
  | .removeSynthetic cache symbol => some (cache, .remove symbol)
  | .getSynthetic cache symbol => some (cache, .get symbol)
  | .clearSynthetics cache => some (cache, .clear)
  | .freezeSynthetics cache => some (cache, .freeze)
  | _ => none

def Step.synthetic? (cache : CacheRef) : Step → Option SyntheticCall
  | .request asked => asked.synthetic?.bind fun (of, call) => if of = cache then some call else none
  | _ => none

theorem Step.synthetic_request (cache of : CacheRef) (call : SyntheticCall) :
    (Step.request (call.request of)).synthetic? cache = if of = cache then some call else none := by
  cases call <;> rfl

theorem Step.synthetic_iff (cache : CacheRef) (step : Step) (call : SyntheticCall) :
    step.synthetic? cache = some call ↔ step = .request (call.request cache) := by
  constructor
  · intro found
    cases step with
    | request asked =>
        obtain ⟨⟨of, same⟩, named, chosen⟩ := Option.bind_eq_some_iff.mp found
        obtain ⟨rfl, rfl⟩ : of = cache ∧ same = call := by simpa using chosen
        cases asked <;> cases named <;> rfl
    | _ => cases found
  · rintro rfl
    rw [synthetic_request, if_pos rfl]

def syntheticCalls (cache : CacheRef) (steps : List Step) : List SyntheticCall := steps.filterMap (Step.synthetic? cache)

theorem synthetic_calls_snoc (cache : CacheRef) (steps : List Step) (step : Step) :
    syntheticCalls cache (steps ++ [step]) = syntheticCalls cache steps ++ (step.synthetic? cache).toList := by
  rw [syntheticCalls, List.filterMap_append]
  cases found : step.synthetic? cache <;> simp [syntheticCalls, found]

theorem synthetic_calls_of_requests (cache : CacheRef) (calls : List SyntheticCall) :
    syntheticCalls cache ((calls.map (SyntheticCall.request cache)).map .request) = calls := by
  induction calls with
  | nil => rfl
  | cons call rest ih =>
      have here : (Step.request (call.request cache)).synthetic? cache = some call := by
        rw [Step.synthetic_request, if_pos rfl]
      rw [List.map_cons, List.map_cons, syntheticCalls, List.filterMap_cons_some here]
      exact congrArg (call :: ·) ih

namespace State

def HasCache (s : State) : CacheRef → Prop
  | .unit unit => unit < s.units.size
  | .single index => index < s.caches.size

instance (s : State) (cache : CacheRef) : Decidable (s.HasCache cache) :=
  match cache with
  | .unit unit => inferInstanceAs (Decidable (unit < s.units.size))
  | .single index => inferInstanceAs (Decidable (index < s.caches.size))

section Apart

variable (s : State)

theorem set_body_caches (ref : UnitRef) (tree : Option NodeRef) : (s.setBody ref tree).caches = s.caches := by
  by_cases sentinel : (s.unit ref).sentinel = true
  · simp only [setBody, if_pos sentinel]
  · cases tree <;> simp only [setBody, if_neg sentinel] <;> rfl

theorem take_body_caches (ref : UnitRef) : (s.takeBody ref).1.caches = s.caches := by
  by_cases sentinel : ((s.addNode {}).1.unit ref).sentinel = true
  · simp only [takeBody, if_pos sentinel]
    rfl
  · simp only [takeBody, if_neg sentinel]
    rfl

theorem body_caches (ref : UnitRef) : (s.body ref).1.caches = s.caches := by
  by_cases sentinel : (s.unit ref).sentinel = true
  · rw [body, if_pos sentinel]
    rfl
  · rw [body, if_neg sentinel]

theorem encountered_xml_caches (ref : UnitRef) (position : Position) :
    (ending (s.encounteredXml ref position)).caches = s.caches := by
  cases result : (s.unit ref).encounteredXml position <;> simp only [encounteredXml, result] <;> rfl

theorem add_check_caches (ref : UnitRef) (check : Check) : (s.addCheck ref check).caches = s.caches := by
  cases own : (s.unit ref).sentinel with
  | true => rw [add_check_sentinel s ref check own]
  | false =>
      rw [add_check_own s ref check own]
      rfl

theorem add_source_caches (run : RunRef) (source : Option FileRef) :
    (ending (s.addSource run source)).caches = s.caches := by
  cases source with
  | none => rfl
  | some file =>
      cases known : (s.run run).unitOf? (some file) with
      | some unit =>
          rw [add_source_known s run file unit known]
          rfl
      | none =>
          obtain ⟨message, added⟩ := add_source_new s run file known
          have logged := (outputs_aside (trace_outputs (s.enrolled run file) .debug "run" message)).caches
          rw [added]
          exact logged

end Apart

end State

theorem CacheRef.eq_of_unit {cache : CacheRef} {unit : UnitRef} (named : cache.unit? = some unit) : cache = .unit unit := by
  cases cache with
  | unit of => exact congrArg CacheRef.unit (Option.some.inj named)
  | single index => cases named

namespace CompilationUnit

theorem change_definitions (u : CompilationUnit) (empty : NodeRef) (unit : UnitRef) (request : Request)
    (named : request.unit? = some unit) (other : ∀ call : SyntheticCall, request ≠ call.request (.unit unit)) :
    (u.change empty request).synthetics.definitions = u.synthetics.definitions := by
  cases request with
  | putSynthetic cache symbol tree =>
      cases CacheRef.eq_of_unit named
      exact (other (.put symbol tree) rfl).elim
  | removeSynthetic cache symbol =>
      cases CacheRef.eq_of_unit named
      exact (other (.remove symbol) rfl).elim
  | clearSynthetics cache =>
      cases CacheRef.eq_of_unit named
      exact (other .clear rfl).elim
  | freezeSynthetics cache =>
      cases CacheRef.eq_of_unit named
      exact (other .freeze rfl).elim
  | observeSynthetics cache observer => rfl
  | _ => exact congrArg ObservedSynthetics.definitions (changed_synthetics (change_changed u empty _) rfl)

theorem step_definitions (unit : UnitRef) (u : CompilationUnit) (empty : NodeRef) (step : Step) :
    (u.step unit empty step).synthetics.definitions =
      u.synthetics.definitions.after (step.synthetic? (.unit unit)).toList := by
  cases called : step.synthetic? (.unit unit) with
  | some call =>
      cases (Step.synthetic_iff (.unit unit) step call).mp called
      cases call with
      | get symbol => rfl
      | _ => exact congrArg (fun u : CompilationUnit => u.synthetics.definitions) (if_pos rfl)
  | none =>
      obtain ⟨request, rfl, named, changed⟩ | ⟨check, rfl, dropped⟩ | ⟨unnamed, elsewhere, same⟩ :=
        step_cases unit empty u step
      · rw [changed]
        refine change_definitions u empty unit request named fun call same => ?_
        rw [(Step.synthetic_iff (.unit unit) _ call).mpr (congrArg Step.request same)] at called
        cases called
      · rw [dropped]
        rfl
      · rw [same]
        rfl

end CompilationUnit

namespace State

structure Follows (cache : CacheRef) (calls : List SyntheticCall) (s t : State) : Prop where
  there : t.HasCache cache
  definitions : (t.cache cache).definitions = (s.cache cache).definitions.after calls

variable {s : State} {index : Nat}

theorem single_of_caches {t : State} (there : s.HasCache (.single index)) (same : t.caches = s.caches) :
    Follows (.single index) [] s t := by
  refine ⟨?_, ?_⟩
  · change index < t.caches.size
    rwa [same]
  · change (t.caches.get index).definitions = (s.caches.get index).definitions
    rw [same]

theorem single_modify (there : s.HasCache (.single index)) (of : CacheRef) (f : ObservedSynthetics → ObservedSynthetics) :
    (s.modifyCache of f).HasCache (.single index) ∧ (s.modifyCache of f).cache (.single index) =
      if of = .single index then f (s.cache (.single index)) else s.cache (.single index) := by
  cases of with
  | unit unit => exact ⟨there, rfl⟩
  | single other =>
      refine ⟨Nat.lt_of_lt_of_eq there (Store.size_modify s.caches other f).symm, ?_⟩
      refine (Store.get_modify_cases s.caches other index f).trans ?_
      by_cases same : other = index
      · subst same
        rw [if_pos ⟨rfl, there⟩, if_pos rfl]
        rfl
      · rw [if_neg (fun both => same both.1), if_neg (fun equal => same (CacheRef.single.inj equal))]
        rfl

theorem single_noticed (there : s.HasCache (.single index)) (of : CacheRef)
    (change : SyntheticDefinitions → SyntheticDefinitions × List SyntheticNotice) :
    let t := ((change (s.cache of).definitions).2.foldl (notify of) s).modifyCache of
      fun c => { c with definitions := (change (s.cache of).definitions).1 }
    t.HasCache (.single index) ∧ (t.cache (.single index)).definitions =
      if of = .single index then (change (s.cache (.single index)).definitions).1
      else (s.cache (.single index)).definitions := by
  have told := (inert_aside (notices_inert s of (change (s.cache of).definitions).2)).caches
  have still : (List.foldl (notify of) s (change (s.cache of).definitions).2).HasCache (.single index) :=
    (single_of_caches there told).there
  obtain ⟨remains, changed⟩ := single_modify still of fun c => { c with definitions := (change (s.cache of).definitions).1 }
  refine ⟨remains, ?_⟩
  rw [changed]
  by_cases here : of = .single index
  · rw [if_pos here, if_pos here, here]
  · rw [if_neg here, if_neg here]
    exact (single_of_caches there told).definitions

theorem follows_of_change {t : State} {cache of : CacheRef} (call : SyntheticCall) (there : t.HasCache cache)
    (changed : (t.cache cache).definitions =
      if of = cache then ((s.cache cache).definitions.call call).1 else (s.cache cache).definitions) :
    Follows cache ((Step.request (call.request of)).synthetic? cache).toList s t := by
  refine ⟨there, ?_⟩
  rw [Step.synthetic_request, changed]
  split <;> rfl

theorem single_perform (there : s.HasCache (.single index)) (request : Request) :
    Follows (.single index) ((Step.request request).synthetic? (.single index)).toList s (ending (s.perform request)) := by
  have apart {t : State} (same : t.caches = s.caches) : Follows (.single index) [] s t := single_of_caches there same
  cases request with
  | putSynthetic cache symbol tree =>
      rw [perform, ending_ok, putSynthetic]
      obtain ⟨remains, changed⟩ := single_noticed there cache (·.put symbol tree)
      exact follows_of_change (.put symbol tree) remains changed
  | removeSynthetic cache symbol =>
      rw [perform, ending_ok, removeSynthetic]
      obtain ⟨remains, changed⟩ := single_noticed there cache (·.remove symbol)
      exact follows_of_change (.remove symbol) remains changed
  | getSynthetic cache symbol =>
      have read := apart (inert_aside (notices_inert s cache ((s.cache cache).definitions.get symbol).2)).caches
      refine follows_of_change (.get symbol) read.there ?_
      refine read.definitions.trans ?_
      split <;> rfl
  | clearSynthetics cache =>
      rw [perform, ending_ok, clearSynthetics]
      obtain ⟨remains, changed⟩ := single_modify there cache fun c => { c with definitions := c.definitions.clear }
      refine follows_of_change .clear remains ?_
      rw [changed]
      split <;> rfl
  | freezeSynthetics cache =>
      rw [perform, ending_ok, freezeSynthetics]
      obtain ⟨remains, changed⟩ := single_modify there cache fun c => { c with definitions := c.definitions.freeze }
      refine follows_of_change .freeze remains ?_
      rw [changed]
      split <;> rfl
  | observeSynthetics cache observer =>
      rw [perform, ending_ok, observeSynthetics]
      obtain ⟨remains, changed⟩ := single_modify there cache ({ · with observer })
      refine ⟨remains, ?_⟩
      rw [changed]
      split <;> rfl
  | addCache =>
      refine ⟨Nat.lt_of_lt_of_eq (Nat.lt_succ_of_lt there) (Store.size_push s.caches {}).symm, ?_⟩
      exact congrArg ObservedSynthetics.definitions (Store.get_push_of_ne s.caches {} index (Nat.ne_of_lt there))
  | body unit => exact apart (body_caches s unit)
  | setBody unit tree => exact apart (set_body_caches s unit tree)
  | takeBody unit => exact apart (take_body_caches s unit)
  | encounteredXml unit position => exact apart (encountered_xml_caches s unit position)
  | addCheck unit check => exact apart (add_check_caches s unit check)
  | addSource run source => exact apart (add_source_caches s run source)
  | _ => first | exact apart (perform_aside s _ rfl).caches | exact apart rfl

theorem take_follows {bars : Drive → RunRef → Prop} {cache : CacheRef} (there : s.HasCache cache) (step : Step)
    (allowed : s.Allows bars step) : Follows cache (step.synthetic? cache).toList s (s.take step) := by
  cases cache with
  | unit unit =>
      have grows := (moves_grows 0 (take_moves s step allowed)).size
      have stepped := CompilationUnit.step_definitions unit (s.unit unit) s.heap.size step
      rw [← unit_take there step] at stepped
      exact ⟨Nat.lt_of_lt_of_le there grows, stepped⟩
  | single index =>
      cases step with
      | request request => exact single_perform there request
      | completeRun run units =>
          obtain ⟨f, modified, _⟩ := complete_run_modifies s run units
          have same : (s.take (.completeRun run units)).caches = s.caches := by
            rw [take, modified]
            rfl
          exact single_of_caches there same
      | _ => exact single_of_caches there rfl

theorem walk_follows {bars : Drive → RunRef → Prop} {t : State} {cache : CacheRef} {steps : List Step}
    (there : s.HasCache cache) (walk : Walk bars s steps t) : Follows cache (syntheticCalls cache steps) s t := by
  induction walk with
  | start => exact ⟨there, rfl⟩
  | next _ step allowed ih =>
      have last := take_follows ih.there step allowed
      refine ⟨last.there, ?_⟩
      rw [last.definitions, ih.definitions, synthetic_calls_snoc, SyntheticDefinitions.after_append]

def callAll (s : State) (cache : CacheRef) (calls : List SyntheticCall) : State :=
  (calls.map (SyntheticCall.request cache)).foldl (fun s request => ending (s.perform request)) s

theorem call_all_append (s : State) (cache : CacheRef) (earlier later : List SyntheticCall) :
    s.callAll cache (earlier ++ later) = (s.callAll cache earlier).callAll cache later := by
  rw [callAll, callAll, callAll, List.map_append, List.foldl_append]

theorem calls_walk {bars : Drive → RunRef → Prop} (s : State) (cache : CacheRef) (calls : List SyntheticCall) :
    s.Walk bars ((calls.map (SyntheticCall.request cache)).map .request) (s.callAll cache calls) :=
  requests_walk s (calls.map (SyntheticCall.request cache))

end State

def pointClass : Symbol := .top ⟨0, 1, .klass, "Point"⟩

def applyMethod : Symbol := .member ⟨0, 2, .method, "apply"⟩ pointClass

end UnitRegistry
