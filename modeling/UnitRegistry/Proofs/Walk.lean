import UnitRegistry.Proofs.Move
/-!
Walks: the steps of a session one after another, which are requests and the parts of the operations that call routines.
Any prefix of the steps leads to a moment of the session, whoever asked for them.
-/
set_option autoImplicit false

namespace UnitRegistry

inductive Step where
  | request (request : Request)
  | startHandler (reporter : ReporterRef) (handler : Handler) (remark : Remark)
  | startCheck (unit : UnitRef) (check : Check)
  | openRun (run : RunRef)
  | startPhase (run : RunRef) (phase : Phase) (unit : UnitRef)
  | completeRun (run : RunRef) (units : List UnitRef)

namespace State

def take (s : State) : Step → State
  | .request request => ending (s.perform request)
  | .startHandler reporter handler remark => s.emit (.handlerStarted reporter handler remark)
  | .startCheck unit check => (s.modifyUnit unit CompilationUnit.dropCheck).emit (.checkStarted unit check)
  | .openRun run => s.modifyRun run (·.setComplete false)
  | .startPhase run phase unit => s.emit (.phaseStarted run phase unit)
  | .completeRun run units => s.completeRun run units

def Allows (bars : Drive → RunRef → Prop) (s : State) : Step → Prop
  | .startCheck unit check => (s.unit unit).checks.head? = some check
  | .openRun run => ¬ bars .opening run
  | .startPhase run _ _ => ¬ bars .phase run
  | .completeRun run _ => ¬ bars .completion run
  | _ => True

inductive Walk (bars : Drive → RunRef → Prop) (s : State) : List Step → State → Prop where
  | start : Walk bars s [] s
  | next {steps : List Step} {t : State} (walk : Walk bars s steps t) (step : Step) (allowed : t.Allows bars step) :
      Walk bars s (steps ++ [step]) (t.take step)

variable {bars : Drive → RunRef → Prop}

theorem take_moves (s : State) (step : Step) (allowed : s.Allows bars step) : Moves bars s (s.take step) := by
  cases step with
  | request request => exact perform_moves s request
  | startHandler reporter handler remark => exact move_moves (.startHandler s reporter handler remark)
  | startCheck unit check =>
      obtain ⟨rest, queued⟩ := List.head?_eq_some_iff.mp allowed
      exact move_moves (.startCheck s unit check rest queued)
  | openRun run => exact move_moves (.openRun s run allowed)
  | startPhase run phase unit => exact move_moves (.startPhase s run phase unit allowed)
  | completeRun run units => exact move_moves (.completeRun s run units allowed)

theorem walk_moves {s t : State} {steps : List Step} (walk : Walk bars s steps t) : Moves bars s t := by
  induction walk with
  | start => exact moves_refl s
  | next _ step allowed ih => exact moves_trans ih (take_moves _ step allowed)

theorem walk_trans {s t u : State} {earlier later : List Step} (first : Walk bars s earlier t)
    (second : Walk bars t later u) : Walk bars s (earlier ++ later) u := by
  induction second with
  | start => rwa [List.append_nil]
  | next _ step allowed ih =>
      rw [← List.append_assoc]
      exact .next ih step allowed

theorem walk_end {s t : State} {steps : List Step} (walk : Walk bars s steps t) : steps.foldl take s = t := by
  induction walk with
  | start => rfl
  | next _ step _ ih => rw [List.foldl_append, ih, List.foldl_cons, List.foldl_nil]

def Walks (bars : Drive → RunRef → Prop) (s t : State) : Prop := ∃ steps, Walk bars s steps t

theorem walks_refl (s : State) : Walks bars s s := ⟨[], .start⟩

theorem walks_trans {s t u : State} (first : Walks bars s t) (second : Walks bars t u) : Walks bars s u := by
  obtain ⟨earlier, before⟩ := first
  obtain ⟨later, after⟩ := second
  exact ⟨earlier ++ later, walk_trans before after⟩

theorem step_walks (s : State) (step : Step) (allowed : s.Allows bars step) : Walks bars s (s.take step) :=
  ⟨[step], .next .start step allowed⟩

theorem moves_of_walks {s t : State} (walks : Walks bars s t) : Moves bars s t := by
  obtain ⟨steps, walk⟩ := walks
  exact walk_moves walk

theorem requests_walk (s : State) (requests : List Request) :
    Walk bars s (requests.map .request) (requests.foldl (fun s request => ending (s.perform request)) s) := by
  induction requests generalizing s with
  | nil => exact .start
  | cons request rest ih =>
      have first : Walk bars s [.request request] (s.take (.request request)) := .next .start (.request request) trivial
      exact walk_trans first (ih (s.take (.request request)))

theorem requests_walks (s : State) (requests : List Request) :
    Walks bars s (requests.foldl (fun s request => ending (s.perform request)) s) := ⟨_, requests_walk s requests⟩

theorem trace_walks (s : State) (level : Log.Level) (tag message : Text) : Walks bars s (s.trace level tag message) :=
  step_walks s (.request (.trace level tag message)) trivial

-- By rewriting, since a comparison by computation would go into what is summarized.
theorem summarize_warnings_walks (s : State) (context : ContextRef) : Walks bars s (s.summarizeWarnings context) := by
  have walks : Walks bars s _ := step_walks s (.request (.summarizeWarnings context)) trivial
  rwa [take, perform, ending_ok] at walks

theorem log_checks_walks (s : State) (unit : UnitRef) (count : Nat) : Walks bars s (s.logChecks unit count) := by
  by_cases none : count = 0
  · rw [logChecks, if_pos none]
    exact walks_refl s
  · rw [logChecks, if_neg none]
    exact trace_walks s _ _ _

end State

end UnitRegistry
