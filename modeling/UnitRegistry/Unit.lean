import UnitRegistry.Dependencies
import UnitRegistry.Diagnostics.Reporter
import UnitRegistry.Diagnostics.Warnings
import UnitRegistry.Fault
import UnitRegistry.FreshNames
import UnitRegistry.Synthetics
/-!
Compilation units: what the phases read and write of one source. The null unit takes the place of a unit where
there is none, and no operation changes it.
-/
set_option autoImplicit false

namespace UnitRegistry

abbrev UnitRef := Nat

structure Check where
  label : Text
  routine : RoutineRef
deriving DecidableEq, Inhabited

inductive Observer where
  | nobody
  | log
  | recorder (label : Text)
deriving DecidableEq, Inhabited

structure ObservedSynthetics where
  definitions : SyntheticDefinitions := {}
  observer : Observer := .nobody
deriving DecidableEq, Inhabited

structure CompilationUnit where
  source : Option FileRef
  sentinel : Bool := false
  context : ContextRef
  body : NodeRef
  firstXml : Position := .nowhere
  dependencies : DependencyTracker := {}
  synthetics : ObservedSynthetics := { observer := .log }
  transformed : List (NodeRef × Option NodeRef) := []
  checks : List Check := []
  features : List Symbol := []
  target : Position := .nowhere
  fresh : FreshNames := {}

namespace CompilationUnit

def null (context : ContextRef) (body : NodeRef) : CompilationUnit :=
  { source := some .absent
    sentinel := true
    context
    body
    synthetics := { definitions := { frozen := true } } }

instance : Inhabited CompilationUnit := ⟨.null 0 0⟩

def isPresent (u : CompilationUnit) : Bool := u.source.any fun ref => ref.file ≠ SourceFile.absent

def isJava (u : CompilationUnit) : Bool := u.source.any fun ref => ref.file.name.endsWith ".java"

def render (u : CompilationUnit) : Text :=
  if u.sentinel then "NoCompilationUnit" else (u.source.getD .absent).file.name

def tracksDependencies (u : CompilationUnit) : Bool :=
  u.isPresent && !u.source.any fun ref => ref.file.isGenerated

def addDependency (u : CompilationUnit) (symbol : Option Symbol) : CompilationUnit :=
  { u with dependencies := u.dependencies.addDependency u.tracksDependencies symbol }

def addDefinition (u : CompilationUnit) (symbol : Option Symbol) : CompilationUnit :=
  { u with dependencies := u.dependencies.addDefinition u.tracksDependencies symbol }

def dependencySet (u : CompilationUnit) : List Symbol := u.dependencies.dependencies u.tracksDependencies

def definitionSet (u : CompilationUnit) : List Symbol := u.dependencies.definitions u.tracksDependencies

def hasXml (u : CompilationUnit) : Bool := u.firstXml.isDefined

def encounteredXml (u : CompilationUnit) (position : Position) : Except Fault CompilationUnit :=
  if u.sentinel then .ok u
  else if !position.isDefined then .error (.undefinedXml u.render)
  else if u.hasXml then .error (.repeatedXml u.render u.firstXml.render)
  else .ok { u with firstXml := position }

def cacheTransformed (u : CompilationUnit) (tree result : Option NodeRef) : CompilationUnit :=
  match tree with
  | none => u
  | some t => if u.sentinel then u else { u with transformed := Assoc.put t result u.transformed }

def transformed? (u : CompilationUnit) (tree : Option NodeRef) : Option (Option NodeRef) :=
  tree.bind fun t => u.transformed.lookup t

def forgetTransformed (u : CompilationUnit) (tree : Option NodeRef) : CompilationUnit :=
  match tree with
  | none => u
  | some t => { u with transformed := Assoc.erase t u.transformed }

def addCheck (u : CompilationUnit) (check : Check) : CompilationUnit :=
  if u.sentinel then u else { u with checks := u.checks ++ [check] }

def dropCheck (u : CompilationUnit) : CompilationUnit := { u with checks := u.checks.tail }

def markFeature (u : CompilationUnit) (feature : Option Symbol) : CompilationUnit :=
  match feature with
  | none => u
  | some f => if u.sentinel then u else { u with features := u.features.insert f }

def isFeatureChecked (u : CompilationUnit) (feature : Option Symbol) : Bool := feature.any (u.features.contains ·)

def setTarget (u : CompilationUnit) (position : Position) : CompilationUnit :=
  if u.sentinel then u else { u with target := position }

def isTargeted (u : CompilationUnit) : Bool := u.target.isDefined

def setBody (u : CompilationUnit) (body : NodeRef) : CompilationUnit := if u.sentinel then u else { u with body }

def position (u : CompilationUnit) (offset : Nat) : Position :=
  if u.isPresent then .point u.source offset else .nowhere

end CompilationUnit

end UnitRegistry
