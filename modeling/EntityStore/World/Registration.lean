import EntityStore.World.Holders

/-!
# Registration

Kinds and processors are registered with a manager while it is being set up.  A kind is
registered with a manager when it stands in the manager's own list, under the number with which
it is attached; `World.isRegistered` looks there and nowhere else, so neither the name of a kind
nor a number given by hand can stand in for it.  Beside the list a manager keeps a table of the names,
which leads from a name to a number (`World.numberNamed?`) and so to the kind (`World.kindNamed?`).
-/

namespace EntityStore.World

variable [Host] (w : World)

/-- The number of the kind that a manager knows by a name. -/
def numberNamed? (m : ManagerId) (name : String) : Option Nat := (w.manager m).names.lookup name

/-- The kind that a manager knows by a name. -/
def kindNamed? (m : ManagerId) (name : String) : Option KindId :=
  (w.numberNamed? m name).bind fun number => (w.manager m).kinds[number]?

/-- The kind that a manager knows by a name, or the refusal. -/
def lookUp (m : ManagerId) (name : String) : Except ManagerError KindId :=
  match w.kindNamed? m name with
  | some k => .ok k
  | none => .error (.unregisteredKind name)

/-- Is a kind registered with a manager? -/
def isRegistered (m : ManagerId) (k : KindId) : Bool :=
  match (w.kind k).number? with
  | some number => (w.manager m).kinds[number]? = some k
  | none => false

/-- Register a kind with a manager; the answer is its number. -/
def registerKind (m : ManagerId) (k : KindId) : World × Except ManagerError Nat :=
  let manager := w.manager m
  let name := w.kindName k
  if manager.lifecycle ≠ .setup then (w, .error .registrationClosed)
  else if (w.numberNamed? m name).isSome then (w, .error (.duplicateKind name))
  else
    let number := manager.kinds.length
    match w.attach k ⟨number, .manager m⟩ with
    | (w, .error cause) => (w, .error (.store cause))
    | (w, .ok ()) =>
      (w.updateManager m fun manager =>
        { manager with
          names := (name, number) :: manager.names
          kinds := manager.kinds ++ [k] }, .ok number)

/-- The names of a manager's processors. -/
def processorNames (m : ManagerId) : List String :=
  (w.manager m).processors.map fun p => (w.processor p).name

/-- Register a new processor with a manager. -/
def registerProcessor (m : ManagerId) (p : Processor) : World × Except ManagerError ProcessorId :=
  if (w.manager m).lifecycle ≠ .setup then (w, .error .registrationClosed)
  else if p.name ∈ w.processorNames m then (w, .error (.duplicateProcessor p.name))
  else
    let id : ProcessorId := ⟨w.processors.length⟩
    let made := { w with processors := w.processors ++ [p] }
    (made.updateManager m fun manager =>
      { manager with processors := manager.processors ++ [id] }, .ok id)

end EntityStore.World
