import UnitRegistry.Proofs.SyntheticCalls

set_option autoImplicit false

namespace UnitRegistry

def SyntheticNotice.replay (contents : Symbol → Option NodeRef) (notice : SyntheticNotice) : Symbol → Option NodeRef :=
  fun symbol =>
    if notice.symbol = symbol then
      match notice.event with
      | .added => some notice.tree
      | .removed => none
      | .found => contents symbol
    else contents symbol

theorem replay_of_ne (contents : Symbol → Option NodeRef) (notice : SyntheticNotice) (symbol : Symbol)
    (other : notice.symbol ≠ symbol) : notice.replay contents symbol = contents symbol := if_neg other

theorem replay_found (contents : Symbol → Option NodeRef) (symbol : Symbol) (tree : NodeRef) :
    SyntheticNotice.replay contents ⟨.found, symbol, tree⟩ = contents := by
  funext other
  exact ite_self (contents other)

def replay (notices : List SyntheticNotice) : Symbol → Option NodeRef :=
  notices.foldl SyntheticNotice.replay fun _ => none

theorem replay_append (earlier later : List SyntheticNotice) :
    replay (earlier ++ later) = later.foldl SyntheticNotice.replay (replay earlier) := List.foldl_append

namespace SyntheticDefinitions

def told (c : SyntheticDefinitions) : List SyntheticCall → List SyntheticNotice
  | [] => []
  | call :: rest => (c.call call).2 ++ told (c.call call).1 rest

theorem told_append (c : SyntheticDefinitions) (earlier later : List SyntheticCall) :
    c.told (earlier ++ later) = c.told earlier ++ (c.after earlier).told later := by
  induction earlier generalizing c with
  | nil => rfl
  | cons call rest ih =>
      rw [List.cons_append, told, told, ih, List.append_assoc]
      rfl

theorem told_snoc (c : SyntheticDefinitions) (calls : List SyntheticCall) (call : SyntheticCall) :
    c.told (calls ++ [call]) = c.told calls ++ ((c.after calls).call call).2 := by
  rw [told_append, told, told, List.append_nil]

def DropsUnseen (c : SyntheticDefinitions) (calls : List SyntheticCall) (symbol : Symbol) : Prop :=
  ∃ earlier later, calls = earlier ++ .clear :: later ∧ (c.after earlier).contains (some symbol) = true ∧
    ∀ tree, ⟨.added, symbol, tree⟩ ∉ (c.after (earlier ++ [.clear])).told later

theorem drops_unseen_snoc (c : SyntheticDefinitions) (calls : List SyntheticCall) (call : SyntheticCall) (symbol : Symbol) :
    c.DropsUnseen (calls ++ [call]) symbol ↔
      (call = .clear ∧ (c.after calls).contains (some symbol) = true) ∨
        (c.DropsUnseen calls symbol ∧ ∀ tree, ⟨.added, symbol, tree⟩ ∉ ((c.after calls).call call).2) := by
  constructor
  · rintro ⟨earlier, later, split, there, unseen⟩
    obtain ⟨rfl, rfl, same⟩ | ⟨rest, rfl, rfl⟩ := split_snoc split
    · exact .inl ⟨same, there⟩
    · rw [told_snoc, ← after_append, List.append_assoc, List.singleton_append] at unseen
      refine .inr ⟨⟨earlier, rest, rfl, there, fun tree member => ?_⟩, fun tree member => ?_⟩
      · exact unseen tree (List.mem_append_left _ member)
      · exact unseen tree (List.mem_append_right _ member)
  · rintro (⟨rfl, there⟩ | ⟨⟨earlier, later, rfl, there, unseen⟩, silent⟩)
    · exact ⟨calls, [], rfl, there, fun tree => List.not_mem_nil⟩
    · refine ⟨earlier, later ++ [call], by simp, there, fun tree member => ?_⟩
      rw [told_snoc, ← after_append, List.append_assoc, List.singleton_append] at member
      rcases List.mem_append.mp member with before | last
      · exact unseen tree before
      · exact silent tree last

-- A symbol in the cache and in the replay: they agree, or it was dropped unseen and only the replay still has a tree for it.
structure Mirrors (unseen : Prop) (held shown : Option NodeRef) : Prop where
  stale : unseen → held = none ∧ shown ≠ none
  agrees : ¬ unseen → shown = held

theorem mirrors_of_iff {unseen still : Prop} {held shown : Option NodeRef} (mirrors : Mirrors unseen held shown)
    (same : still ↔ unseen) : Mirrors still held shown := by
  rwa [propext same]

theorem call_mirrors (c : SyntheticDefinitions) (call : SyntheticCall) (symbol : Symbol) {unseen : Prop}
    {contents : Symbol → Option NodeRef} (mirrors : Mirrors unseen (c.find? (some symbol)) (contents symbol)) :
    Mirrors ((call = .clear ∧ c.contains (some symbol) = true) ∨
        (unseen ∧ ∀ tree, ⟨.added, symbol, tree⟩ ∉ (c.call call).2))
      ((c.call call).1.find? (some symbol)) ((c.call call).2.foldl SyntheticNotice.replay contents symbol) := by
  have effect := call_effect c call
  generalize c.call call = result at effect ⊢
  cases effect with
  | added other tree melted =>
      rw [find_put]
      by_cases same : other = symbol
      · subst same
        have again : ¬ (∀ value, ⟨.added, other, value⟩ ∉ [(⟨.added, other, tree⟩ : SyntheticNotice)]) :=
          fun silent => silent tree List.mem_cons_self
        refine ⟨?_, fun _ => by simp [SyntheticNotice.replay]⟩
        rintro (⟨clears, _⟩ | ⟨_, silent⟩)
        · cases clears
        · exact (again silent).elim
      · rw [if_neg same, List.foldl_cons, List.foldl_nil, replay_of_ne contents ⟨.added, other, tree⟩ symbol same]
        exact mirrors_of_iff mirrors (by simp [Ne.symm same])
  | removed other tree registered =>
      rw [find_erase]
      by_cases same : other = symbol
      · subst same
        refine ⟨?_, fun _ => by simp [SyntheticNotice.replay]⟩
        rintro (⟨clears, _⟩ | ⟨lost, _⟩)
        · cases clears
        · rw [(mirrors.stale lost).1] at registered
          cases registered
      · rw [if_neg same, List.foldl_cons, List.foldl_nil, replay_of_ne contents ⟨.removed, other, tree⟩ symbol same]
        exact mirrors_of_iff mirrors (by simp)
  | found other tree registered =>
      rw [List.foldl_cons, List.foldl_nil, replay_found]
      exact mirrors_of_iff mirrors (by simp)
  | cleared =>
      have nothing : c.clear.find? (some symbol) = none := rfl
      rw [nothing]
      by_cases lost : unseen
      · exact ⟨fun _ => ⟨rfl, (mirrors.stale lost).2⟩, fun kept => (kept (.inr ⟨lost, by simp⟩)).elim⟩
      · have shown := mirrors.agrees lost
        rw [List.foldl_nil, shown]
        refine ⟨?_, fun kept => ?_⟩
        · rintro (⟨_, there⟩ | ⟨gone, _⟩)
          · exact ⟨rfl, Option.isSome_iff_ne_none.mp there⟩
          · exact (lost gone).elim
        · exact Option.not_isSome_iff_eq_none.mp fun there => kept (.inl ⟨rfl, there⟩)
  | froze => exact mirrors_of_iff mirrors (by simp)
  | ignored call ignores =>
      have another : call ≠ .clear := by
        rintro rfl
        exact ignores
      exact mirrors_of_iff mirrors (by simp [another])

theorem mirrors_after (c : SyntheticDefinitions) (empty : c.isEmpty = true) (calls : List SyntheticCall) (symbol : Symbol) :
    Mirrors (c.DropsUnseen calls symbol) ((c.after calls).find? (some symbol)) (replay (c.told calls) symbol) := by
  induction calls using List.reverseRecOn with
  | nil =>
      have nothing : c.find? (some symbol) = none := by
        rw [find?, Option.bind_some, List.isEmpty_iff.mp empty]
        rfl
      refine ⟨?_, fun _ => nothing.symm⟩
      rintro ⟨earlier, later, split, _⟩
      simp at split
  | append_singleton calls call ih =>
      rw [after_snoc, told_snoc, replay_append]
      exact mirrors_of_iff (call_mirrors (c.after calls) call symbol ih) (drops_unseen_snoc c calls call symbol)

theorem found_told (c : SyntheticDefinitions) (call : SyntheticCall) (symbol : Symbol) (tree : NodeRef)
    (told : ⟨.found, symbol, tree⟩ ∈ (c.call call).2) : c.find? (some symbol) = some tree := by
  have effect := call_effect c call
  generalize c.call call = result at effect told
  cases effect with
  | found other value registered =>
      cases List.mem_singleton.mp told
      exact registered
  | _ => simp at told

end SyntheticDefinitions

def Event.observed? (observer : Text) : Event → Option SyntheticNotice
  | .observed label notice _ => if label = observer then some notice else none
  | _ => none

namespace State

def noticed (observer : Text) (s t : State) : List SyntheticNotice := (s.since t).filterMap (Event.observed? observer)

variable {s : State} {cache : CacheRef} {observer : Text}

theorem modify_cache_there (there : s.HasCache cache) (f : ObservedSynthetics → ObservedSynthetics) :
    (s.modifyCache cache f).HasCache cache ∧ (s.modifyCache cache f).cache cache = f (s.cache cache) := by
  cases cache with
  | unit unit =>
      refine ⟨Nat.lt_of_lt_of_eq there (Store.size_modify s.units unit _).symm, ?_⟩
      have changed := unit_modify_there there unit fun u : CompilationUnit => { u with synthetics := f u.synthetics }
      rw [if_pos rfl] at changed
      exact congrArg CompilationUnit.synthetics changed
  | single index =>
      obtain ⟨remains, changed⟩ := single_modify there (.single index) f
      exact ⟨remains, changed.trans (if_pos rfl)⟩

theorem outputs_has {t : State} (outputs : Outputs s t) (there : s.HasCache cache) : t.HasCache cache := by
  obtain ⟨_, _, _, _, rfl⟩ := outputs
  cases cache <;> exact there

structure Watched (cache : CacheRef) (observer : Text) (calls : List SyntheticCall) (s t : State) : Prop where
  there : t.HasCache cache
  state : t.cache cache = { definitions := (s.cache cache).definitions.after calls, observer := .recorder observer }
  journal : ∃ events, t.journal.toList = s.journal.toList ++ events ∧
    events.filterMap (Event.observed? observer) = (s.cache cache).definitions.told calls

namespace Watched

variable {t : State} {calls : List SyntheticCall} (calling : Watched cache observer calls s t)
include calling

theorem noticed : s.noticed observer t = (s.cache cache).definitions.told calls := by
  obtain ⟨events, written, told⟩ := calling.journal
  rw [State.noticed, since_eq written, told]

theorem answer (symbol : Option Symbol) :
    (t.getSynthetic cache symbol).2 = ((s.cache cache).definitions.after calls).find? symbol := by
  rw [← SyntheticDefinitions.get_answer, getSynthetic, calling.state]

end Watched

theorem watched_refl (there : s.HasCache cache) (watched : (s.cache cache).observer = .recorder observer) :
    Watched cache observer [] s s :=
  ⟨there, by rw [← watched]; rfl, [], by simp, rfl⟩

theorem watched_trans {t u : State} {earlier later : List SyntheticCall} (first : Watched cache observer earlier s t)
    (second : Watched cache observer later t u) : Watched cache observer (earlier ++ later) s u := by
  obtain ⟨before, written, told⟩ := first.journal
  obtain ⟨behind, writtenLater, toldLater⟩ := second.journal
  have reached : (t.cache cache).definitions = (s.cache cache).definitions.after earlier := by rw [first.state]
  refine ⟨second.there, ?_, before ++ behind, ?_, ?_⟩
  · rw [second.state, reached, SyntheticDefinitions.after_append]
  · rw [writtenLater, written, List.append_assoc]
  · rw [List.filterMap_append, told, toldLater, reached, SyntheticDefinitions.told_append]

theorem notices_heard (watched : (s.cache cache).observer = .recorder observer) (notices : List SyntheticNotice) :
    ∃ events, (notices.foldl (notify cache) s).journal.toList = s.journal.toList ++ events ∧
      events.filterMap (Event.observed? observer) = notices ∧
      (notices.foldl (notify cache) s).cache cache = s.cache cache := by
  induction notices generalizing s with
  | nil => exact ⟨[], by simp, rfl, rfl⟩
  | cons notice rest ih =>
      have told : notify cache s notice = s.emit (.observed observer notice (s.tree (some notice.tree)).render) := by
        simp only [notify, watched]
      have same : (notify cache s notice).cache cache = s.cache cache := by
        rw [told]
        cases cache <;> rfl
      obtain ⟨events, written, heard, kept⟩ := @ih (notify cache s notice) (by rw [same, watched])
      refine ⟨.observed observer notice (s.tree (some notice.tree)).render :: events, ?_, ?_, ?_⟩
      · rw [List.foldl_cons, written, told]
        simp [emit]
      · simp [Event.observed?, heard]
      · rw [List.foldl_cons, kept, same]

theorem modify_cache_watched (there : s.HasCache cache) (watched : (s.cache cache).observer = .recorder observer)
    (call : SyntheticCall) (f : ObservedSynthetics → ObservedSynthetics)
    (changes : f (s.cache cache) = ⟨((s.cache cache).definitions.call call).1, (s.cache cache).observer⟩) :
    Watched cache observer [call] s ((((s.cache cache).definitions.call call).2.foldl (notify cache) s).modifyCache cache f) := by
  obtain ⟨events, written, heard, kept⟩ := notices_heard watched ((s.cache cache).definitions.call call).2
  have outputs : Outputs s (((s.cache cache).definitions.call call).2.foldl (notify cache) s) :=
    foldl_outputs _ (notify_outputs cache) _ s
  obtain ⟨remains, changed⟩ := modify_cache_there (outputs_has outputs there) f
  refine ⟨remains, ?_, events, ?_, ?_⟩
  · rw [changed, kept, changes, watched]
    rfl
  · rw [← written]
    cases cache <;> rfl
  · rw [heard, SyntheticDefinitions.told, SyntheticDefinitions.told, List.append_nil]

theorem call_watched (there : s.HasCache cache) (watched : (s.cache cache).observer = .recorder observer) (call : SyntheticCall) :
    Watched cache observer [call] s (ending (s.perform (call.request cache))) := by
  cases call with
  | put symbol tree =>
      rw [SyntheticCall.request, perform, ending_ok, putSynthetic]
      exact modify_cache_watched there watched (.put symbol tree) _ rfl
  | remove symbol =>
      rw [SyntheticCall.request, perform, ending_ok, removeSynthetic]
      exact modify_cache_watched there watched (.remove symbol) _ rfl
  | get symbol =>
      obtain ⟨events, written, heard, kept⟩ := notices_heard watched ((s.cache cache).definitions.get symbol).2
      have outputs : Outputs s (((s.cache cache).definitions.get symbol).2.foldl (notify cache) s) :=
        foldl_outputs _ (notify_outputs cache) _ s
      refine ⟨outputs_has outputs there, kept.trans (by rw [← watched]; rfl), events, written, heard.trans ?_⟩
      rw [SyntheticDefinitions.told, SyntheticDefinitions.told, List.append_nil]
      rfl
  | clear =>
      rw [SyntheticCall.request, perform, ending_ok, clearSynthetics]
      exact modify_cache_watched there watched .clear _ rfl
  | freeze =>
      rw [SyntheticCall.request, perform, ending_ok, freezeSynthetics]
      exact modify_cache_watched there watched .freeze _ rfl

theorem call_all_watched (there : s.HasCache cache) (watched : (s.cache cache).observer = .recorder observer)
    (calls : List SyntheticCall) : Watched cache observer calls s (s.callAll cache calls) := by
  induction calls using List.reverseRecOn with
  | nil => exact watched_refl there watched
  | append_singleton calls call ih =>
      rw [call_all_append]
      exact watched_trans ih (call_watched ih.there (by rw [ih.state]) call)

theorem observer_tells_contents (s : State) (cache : CacheRef) (observer : Text) (calls : List SyntheticCall)
    (there : s.HasCache cache) (watched : (s.cache cache).observer = .recorder observer)
    (empty : (s.cache cache).definitions.isEmpty = true) :
    (∀ symbol, SyntheticDefinitions.Mirrors ((s.cache cache).definitions.DropsUnseen calls symbol)
      ((s.callAll cache calls).getSynthetic cache (some symbol)).2
      (replay (noticed observer s (s.callAll cache calls)) symbol)) ∧
    ∀ earlier call later, calls = earlier ++ call :: later → ∀ symbol tree,
      ⟨.found, symbol, tree⟩ ∈ noticed observer (s.callAll cache earlier) (s.callAll cache (earlier ++ [call])) →
        ((s.callAll cache earlier).getSynthetic cache (some symbol)).2 = some tree := by
  refine ⟨fun symbol => ?_, ?_⟩
  · have calling := call_all_watched there watched calls
    rw [calling.answer, calling.noticed]
    exact SyntheticDefinitions.mirrors_after (s.cache cache).definitions empty calls symbol
  · rintro earlier call later rfl symbol tree found
    have before := call_all_watched there watched earlier
    have calling := call_watched before.there (by rw [before.state]) call
    rw [call_all_append] at found
    have told : noticed observer (s.callAll cache earlier) (ending ((s.callAll cache earlier).perform (call.request cache))) =
        (((s.cache cache).definitions.after earlier).call call).2 := by
      rw [calling.noticed, before.state, SyntheticDefinitions.told, SyntheticDefinitions.told, List.append_nil]
    rw [before.answer]
    exact SyntheticDefinitions.found_told _ call symbol tree (told ▸ found)

def watchedCache : State :=
  [.addNode {}, .addNode { kind := .moduleDef, name := "Point" }, .addCache,
    .observeSynthetics (.single 0) (.recorder "watch")].foldl (fun s request => ending (s.perform request)) .start

def emptiedAndFilled : List SyntheticCall :=
  [.put (some pointClass) (some 1), .put (some pointClass) (some 2), .put (some applyMethod) (some 1), .get (some pointClass),
    .clear, .put (some applyMethod) (some 2)]

def refilledCache : State := watchedCache.callAll (.single 0) emptiedAndFilled

theorem contents_of_watched_cache :
    (watchedCache.cache (.single 0)).definitions.isEmpty = true ∧
      replay (noticed "watch" watchedCache refilledCache) applyMethod = some 2 ∧
      replay (noticed "watch" watchedCache refilledCache) pointClass ≠ none ∧
      (refilledCache.getSynthetic (.single 0) (some pointClass)).2 = none := by
  have empty : (watchedCache.cache (.single 0)).definitions.isEmpty = true := by decide +kernel
  obtain ⟨mirrors, _⟩ := observer_tells_contents watchedCache (.single 0) "watch" emptiedAndFilled (by decide +kernel)
    (by decide +kernel) empty
  have held : (refilledCache.getSynthetic (.single 0) (some applyMethod)).2 = some 2 := by decide +kernel
  have again : ¬ (watchedCache.cache (.single 0)).definitions.DropsUnseen emptiedAndFilled applyMethod := fun unseen =>
    absurd (held.symm.trans ((mirrors applyMethod).stale unseen).1) (by simp)
  have unseen : (watchedCache.cache (.single 0)).definitions.DropsUnseen emptiedAndFilled pointClass := by
    refine ⟨emptiedAndFilled.take 4, [.put (some applyMethod) (some 2)], rfl, by decide +kernel, fun tree member => ?_⟩
    have added : (watchedCache.cache (.single 0)).definitions.after (emptiedAndFilled.take 4 ++ [.clear]) = {} := by
      decide +kernel
    rw [added] at member
    cases List.mem_singleton.mp member
  obtain ⟨gone, stale⟩ := (mirrors pointClass).stale unseen
  exact ⟨empty, ((mirrors applyMethod).agrees again).trans held, stale, gone⟩

def clearedCache : State := watchedCache.callAll (.single 0) [.put (some pointClass) (some 2), .clear]

theorem dropped_without_notice :
    noticed "watch" watchedCache clearedCache = [⟨.added, pointClass, 2⟩] ∧
      replay (noticed "watch" watchedCache clearedCache) pointClass = some 2 ∧
      (clearedCache.getSynthetic (.single 0) (some pointClass)).2 = none := by
  decide +kernel

end State

end UnitRegistry
