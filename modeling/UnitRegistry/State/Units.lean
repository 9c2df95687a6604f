import UnitRegistry.State.Logging

set_option autoImplicit false

namespace UnitRegistry

namespace State

def addNode (s : State) (node : Node) : State × NodeRef := ({ s with heap := s.heap.push node }, s.heap.size)

def setNode (s : State) (ref : NodeRef) (node : Node) : State := { s with heap := s.heap.set ref node }

def loadSource (s : State) (path : Text) : State × Except Text SourceFile :=
  match (Disk.resolve path).bind s.disk.read? with
  | none => (s, .error ("Failed to open file: " ++ path))
  | some content =>
      let size := Text.ofNat content.length
      (s.trace .trace "source" ("loaded " ++ path ++ " (" ++ size ++ " bytes)"), .ok ⟨path, content, .disk⟩)

def addUnit (s : State) (source : Option FileRef) (context : ContextRef) : State × UnitRef :=
  let (s, body) := s.addNode {}
  ({ s with units := s.units.push { source, context, body } }, s.units.size)

-- The null unit gives out a new empty tree each time.
def body (s : State) (ref : UnitRef) : State × NodeRef :=
  if (s.unit ref).sentinel then s.addNode {} else (s, (s.unit ref).body)

def setBody (s : State) (ref : UnitRef) (tree : Option NodeRef) : State :=
  if (s.unit ref).sentinel then s
  else
    match tree with
    | some node => s.modifyUnit ref (·.setBody node)
    | none =>
        let (s, empty) := s.addNode {}
        s.modifyUnit ref (·.setBody empty)

def takeBody (s : State) (ref : UnitRef) : State × NodeRef :=
  let (s, empty) := s.addNode {}
  let unit := s.unit ref
  if unit.sentinel then (s, empty) else (s.modifyUnit ref (·.setBody empty), unit.body)

def encounteredXml (s : State) (ref : UnitRef) (position : Position) : EStateM.Result Fault State Unit :=
  match (s.unit ref).encounteredXml position with
  | .error fault => .error fault s
  | .ok unit => .ok () (s.modifyUnit ref fun _ => unit)

def freshName (s : State) (ref : UnitRef) (kind : NameKind) (stem : Text) : State × FreshName :=
  let (fresh, name) := (s.unit ref).fresh.fresh kind stem
  (s.modifyUnit ref ({ · with fresh }), name)

def addCheck (s : State) (ref : UnitRef) (check : Check) : State :=
  if (s.unit ref).sentinel then s
  else (s.modifyUnit ref (·.addCheck check)).emit (.checkAdded ref check)

def addCache (s : State) : State × CacheRef :=
  ({ s with caches := s.caches.push {} }, .single s.caches.size)

def cache (s : State) : CacheRef → ObservedSynthetics
  | .unit unit => (s.unit unit).synthetics
  | .single index => s.caches.get index

def modifyCache (s : State) (ref : CacheRef) (f : ObservedSynthetics → ObservedSynthetics) : State :=
  match ref with
  | .unit unit => s.modifyUnit unit fun u => { u with synthetics := f u.synthetics }
  | .single index => { s with caches := s.caches.modify index f }

def cacheOwner (s : State) : CacheRef → Text
  | .unit unit => (s.unit unit).render
  | .single _ => []

def notify (ref : CacheRef) (s : State) (notice : SyntheticNotice) : State :=
  match (s.cache ref).observer with
  | .nobody => s
  | .recorder label => s.emit (.observed label notice (s.tree (some notice.tree)).render)
  | .log =>
      s.trace .debug "unit" ("synthetic " ++ notice.event.name ++ " in " ++ s.cacheOwner ref ++ ": " ++
        notice.symbol.fullName ++ " -> " ++ (s.tree (some notice.tree)).render)

def putSynthetic (s : State) (ref : CacheRef) (symbol : Option Symbol) (tree : Option NodeRef) : State :=
  let (definitions, notices) := (s.cache ref).definitions.put symbol tree
  (notices.foldl (notify ref) s).modifyCache ref ({ · with definitions })

def removeSynthetic (s : State) (ref : CacheRef) (symbol : Option Symbol) : State :=
  let (definitions, notices) := (s.cache ref).definitions.remove symbol
  (notices.foldl (notify ref) s).modifyCache ref ({ · with definitions })

def getSynthetic (s : State) (ref : CacheRef) (symbol : Option Symbol) : State × Option NodeRef :=
  let (tree, notices) := (s.cache ref).definitions.get symbol
  (notices.foldl (notify ref) s, tree)

def clearSynthetics (s : State) (ref : CacheRef) : State :=
  s.modifyCache ref fun c => { c with definitions := c.definitions.clear }

def freezeSynthetics (s : State) (ref : CacheRef) : State :=
  s.modifyCache ref fun c => { c with definitions := c.definitions.freeze }

def observeSynthetics (s : State) (ref : CacheRef) (observer : Observer) : State :=
  s.modifyCache ref ({ · with observer })

end State

end UnitRegistry
