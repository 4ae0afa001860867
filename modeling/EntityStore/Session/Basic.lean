import EntityStore.Session.Lifecycle

/-!
# Sessions

A session is a world together with the stack of callbacks that are running.  `Session.act` is its
only step: code outside makes a request or returns from the innermost callback, and the session
goes on until it calls code outside again or answers.  A history is a list of such steps.

While a callback of a manager is running, the manager is *lent out*.  Most requests share it, but to
register a kind or a processor, or to drop the manager, is only possible while it is not lent out.
-/

namespace EntityStore

variable [Host]

/-- A world, and the callbacks that are running in it, the innermost first. -/
structure Session where
  /-- The world. -/
  world : World
  /-- The running callbacks. -/
  stack : List Frame

/-- What code outside does. -/
inductive Action where
  /-- It makes a request. -/
  | request (r : Request)
  /-- It returns from the innermost callback. -/
  | finish (outcome : Outcome)

/-- The manager that a request needs for itself alone, if there is one. -/
def Request.exclusive? : Request → Option ManagerId
  | retire m => some m
  | registerKind m _ => some m
  | registerProcessor m _ => some m
  | _ => none

namespace Session

/-- A session in which nothing has happened. -/
def start : Session := ⟨World.empty, []⟩

variable (s : Session)

/-- Is a manager lent out to a running callback? -/
def lends (m : ManagerId) : Bool := s.stack.any fun frame => frame.manager? = some m

/-- Does a request need a manager for itself that is lent out? -/
def bars (r : Request) : Bool := r.exclusive?.any s.lends

/-- Are the processors of a manager in use further up the stack? -/
def engaged (m : ManagerId) : Bool := s.stack.any fun frame => frame.engaged? = some m

/-- Is an observer being told of something further up the stack? -/
def told (o : ObserverId) : Bool := s.stack.any fun frame => frame.told? = some o

end Session

namespace World

variable (w : World)

/-- Tell the observer outside that hears of a kind, and then answer; the test tells which observers
are being told of something already. -/
def tellObserver (told : ObserverId → Bool) (k : KindId) (e : EntityId) (change : MemberChange)
    (reply : Reply) : World × Progress :=
  match w.outsideObserver? k told with
  | some o => (w, .calls (.observing o k e change reply))
  | none => (w, .replies reply)

/-- Give a kind to an entity and tell the observer outside. -/
def giveAndTell (told : ObserverId → Bool) (k : KindId) (e : EntityId) : World × Progress :=
  match w.addHolder k e with
  | (w, .error cause) => (w, .replies (.error (.store cause)))
  | (w, .ok ()) => w.tellObserver told k e .joined (.ok .done)

/-- Take a kind from an entity and tell the observer outside. -/
def takeAndTell (told : ObserverId → Bool) (k : KindId) (e : EntityId) : World × Progress :=
  match w.removeHolder k e with
  | (w, false) => (w, .replies (.ok (.flag false)))
  | (w, true) => w.tellObserver told k e .left (.ok (.flag true))

/-- Visit the listed holders of a kind. -/
def walkFrom (k : KindId) : List EntityId → World × Progress
  | [] => (w, .done)
  | e :: rest => (w, .calls (.walking k e rest))

/-- Make a kind, if its configuration is valid. -/
def makeKind (name : String) (config : StoreConfig) : World × Reply :=
  match config.validate Host.machine.rounding with
  | .error cause => (w, .error (.store cause))
  | .ok () =>
    ({ w with kinds := w.kinds ++ [Kind.make name config] }, .ok (.kind ⟨w.kinds.length⟩))

/-- Declare a property of a kind. -/
def declare (k : KindId) (name : String) (type : ValueType) (default : type.Carrier)
    (bounds : Option (Bounds type.Carrier)) : World × Reply :=
  let (store, result) := Property.declare (w.kind k).store name type default bounds
  let w := w.setStore k store
  match result with
  | .error cause => (w, .error (.store cause))
  | .ok p => (w, .ok (.property p))

/-- Set the value of a holder. -/
def setValue (k : KindId) (p : Property) (e : EntityId) (x : p.type.Carrier) : World × Reply :=
  let (store, result) := p.set (w.kind k).store e x
  let changed := w.setStore k store
  match result with
  | .error cause => (changed, .error (.store cause))
  | .ok () => (changed, .ok .done)

/-- Make a manager, if its configuration is valid. -/
def makeManager (config : ManagerConfig) : World × Reply :=
  match config.validate with
  | .error cause => (w, .error (.manager cause))
  | .ok () =>
    ({ w with managers := w.managers ++ [Manager.ofConfig config] },
      .ok (.manager ⟨w.managers.length⟩))

/-- The answer to a request that a manager grants or refuses. -/
def answer {α : Type} (granted : α → Granted) : World × Except ManagerError α → World × Progress
  | (w, .error cause) => (w, .refuses cause)
  | (w, .ok x) => (w, .replies (.ok (granted x)))

/-- The answer to a request that is always granted. -/
def grant (g : Granted) : World × Progress := (w, .replies (.ok g))

/-- Carry out a request; the tests tell which managers have their processors in use and which
observers are being told of something. -/
def serve (engaged : ManagerId → Bool) (told : ObserverId → Bool) : Request → World × Progress
  | .makeKind name config =>
    let (w, reply) := w.makeKind name config
    (w, .replies reply)
  | .declare k name type default bounds =>
    let (w, reply) := w.declare k name type default bounds
    (w, .replies reply)
  | .setValue k p e x =>
    let (w, reply) := w.setValue k p e x
    (w, .replies reply)
  | .addHolder k e => w.giveAndTell told k e
  | .removeHolder k e => w.takeAndTell told k e
  | .walk k => w.walkFrom k (w.kind k).store.blockOrder
  | .makeObserver =>
    grant { w with observers := w.observers ++ [true] } (.observer ⟨w.observers.length⟩)
  | .dropObserver o => grant { w with observers := w.observers.set o.place false } .done
  | .attach k number o =>
    match w.attach k ⟨number, .outside o⟩ with
    | (w, .error cause) => (w, .replies (.error (.store cause)))
    | (w, .ok ()) => (w, .done)
  | .makeManager config =>
    let (w, reply) := w.makeManager config
    (w, .replies reply)
  | .retire m => grant (w.updateManager m fun manager => { manager with retired := true }) .done
  | .registerKind m k => answer .number (w.registerKind m k)
  | .registerProcessor m p => answer .processor (w.registerProcessor m p)
  | .create m kinds => answer .entity (w.create m kinds)
  | .scheduleRemoval m e =>
    let (w, scheduled) := w.scheduleRemoval m e
    w.grant (.flag scheduled)
  | .addComponent m e k => answer (fun _ => .done) (w.addComponent m e k)
  | .removeComponent m e k => answer .flag (w.removeComponent m e k)
  | .openGroup m required forbidden => answer .group (w.openGroup m required forbidden)
  | .makeListener => grant { w with listeners := w.listeners + 1 } (.listener ⟨w.listeners⟩)
  | .listen g l => answer (fun _ => .done) (w.listen g l)
  | .unlisten g l =>
    let (w, attached) := w.unlisten g l
    w.grant (.flag attached)
  | .initialise m => w.initialise m (engaged m)
  | .update m time => w.update m time (engaged m)
  | .shutDown m => w.shutDown m (engaged m)
  | .makeProcessor p =>
    grant { w with processors := w.processors ++ [p] } (.processor ⟨w.processors.length⟩)
  | .initialiseAlone p m => w.initialiseAlone p m
  | .updateAlone p m time => w.updateAlone p m time
  | .shutDownAlone _ _ => (w, .done)

/-- Go on after a callback has returned. -/
def resume (outcome : Outcome) : Frame → World × Progress
  | .initialising m p rest next => w.afterInit m p rest next outcome
  | .updating m p time rest => w.afterUpdate m p time rest outcome
  | .visiting m p time stage errand => w.afterVisit m p time stage errand outcome
  | .stopping m p rest failure => w.afterStop m p rest failure outcome
  | .notifying g _ rest groups => w.afterNotice g rest groups
  | .observing _ _ _ _ reply => (w, .replies reply)
  | .walking k _ rest => w.walkFrom k rest

end World

namespace Session

/-- The session after its world has changed over a stack, and what comes next. -/
def proceed (stack : List Frame) : World × Progress → Session × Progress
  | (w, .calls frame) => (⟨w, frame :: stack⟩, .calls frame)
  | (w, .replies reply) => (⟨w, stack⟩, .replies reply)

/-- One step of a session, none when what code outside does is not possible. -/
def act (s : Session) : Action → Option (Session × Progress)
  | .request r =>
    if s.bars r then none
    else some (proceed s.stack (s.world.serve s.engaged s.told r))
  | .finish outcome =>
    match s.stack with
    | [] => none
    | frame :: stack => some (proceed stack (s.world.resume outcome frame))

/-- A history from one session to another. -/
inductive Reaches : Session → Session → Prop where
  /-- Nothing happens. -/
  | refl (s : Session) : Reaches s s
  /-- One more step happens. -/
  | step {s t u : Session} (a : Action) (p : Progress) :
      Reaches s t → t.act a = some (u, p) → Reaches s u

end Session

end EntityStore
