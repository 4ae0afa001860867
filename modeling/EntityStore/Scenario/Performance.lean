import EntityStore.Scenario.Player
import EntityStore.World.Description

/-!
# Performances

What the operations of steps do: most make one request of the session, the others look something
up and are answered at once (`Player.perform`).  When the session has granted a request, the player
takes up what was made and shows it (`Player.settle`).
-/

namespace EntityStore.Scenario.Player

variable [Host] [CustomNotation] (p : Player)

/-! ## Carrying out a step -/

/-- The body of a scripted processor. -/
def processorOf : ProcessorScript → Move Processor
  | .scripted name _ _ _ => .ok ⟨name, .custom⟩
  | .visiting name required forbidden before _ after => do
    let required ← p.kinds required
    let forbidden ← p.kinds forbidden
    .ok ⟨name, .visitor ⟨required, forbidden, before.isSome, after.isSome, none⟩⟩

/-- Give the callbacks of a processor their scripts. -/
def addProcessorRoutines (id : ProcessorId) : ProcessorScript → Player
  | .scripted name init update shutDown =>
    let p := p.addRoutine? (.init id) (name ++ ":init") init
    let p := p.addRoutine? (.update id) (name ++ ":update") update
    p.addRoutine? (.shutDown id) (name ++ ":shutdown") shutDown
  | .visiting name _ _ before each after =>
    let p := p.addRoutine? (.before id) (name ++ ":before") before
    let p := p.addRoutine (.each id) (name ++ ":each") each
    p.addRoutine? (.after id) (name ++ ":after") after

/-- The answer to a question to a filter. -/
def filterTest (f : Filter) : FilterTest → Move Bool
  | .requires k => do .ok (f.requires (← p.kind k))
  | .forbids k => do .ok (f.forbids (← p.kind k))
  | .accepts e => .ok (f.accepts fun k => p.world.holds k e)
  | .acceptsKinds kinds => do .ok (f.acceptsKinds (← p.kinds kinds))
  | .sameAs required forbidden => do .ok (f.sameAs (← p.kinds required) (← p.kinds forbidden))
  | .sameAsRequired required => do .ok (f.sameAsRequired (← p.kinds required))

/-- The values of every property of every holder of a kind. -/
def dump (k : KindId) : List (EntityId × List (Except StoreError TypedValue)) :=
  let store := p.store k
  let properties := p.handles.propertiesOf k
  store.holders.toList.map fun e =>
    (e, properties.map fun property =>
      (property.get store e).map fun x => ⟨property.type, x⟩)

/-- Raise a value by an amount; the answer is the sum before it is brought into bounds. -/
def bump (k : KindId) (property : Property) (e : EntityId) (amount : Int) :
    Move (Player × Signal) :=
  match property.get (p.store k) e with
  | .error cause => .ok (p, .answer (.error (.store cause)))
  | .ok x => do
    let sum ← required (property.type.plus? x amount)
    match ← p.ask (.setValue k property e sum) with
    | (p, .progress (.replies (.error cause))) => .ok (p, .answer (.error cause))
    | (p, _) => p.present (.value ⟨property.type, sum⟩)

/-- The description of a subject. -/
def describe (m : Move ManagerId) : Subject → Move String
  | .kind k => do .ok (p.world.kind (← p.kind k)).describe
  | .property k handle => do
    let k ← p.kind k
    .ok ((← p.property k handle).describe (p.world.kindName k))
  | .group g => do .ok (p.world.describeGroup (← p.group g))
  | .manager => do .ok (p.world.describeManager (← m))

/-- Carry an operation out on the manager and the entity that its step means. -/
def perform (c : Context) (m : Move ManagerId) (e : Move EntityId) (named : Option String) :
    Operation → Move (Player × Signal)
  | .fail _ => .error .unintelligible
  | .makeKind _ name config => p.ask (.makeKind name config)
  | .declare k _ name type default ends => do
    let bounds := ends.map fun (a, b) => Bounds.between a b
    p.ask (.declare (← p.kind k) name type default bounds)
  | .propertyCard k handle => do
    let k ← p.kind k
    p.present (.property (p.world.kindName k) (← p.property k handle))
  | .kindCard k slots has => do
    let kind := p.world.kind (← p.kind k)
    let found := has.map fun name => (kind.store.layout.slotOf name).isSome
    p.present (.kind kind (slots.map kind.store.blockAt) found)
  | .add k => do p.ask (.addHolder (← p.kind k) (← e))
  | .del k => do p.ask (.removeHolder (← p.kind k) (← e))
  | .has k => do p.present (.flag ((p.store (← p.kind k)).contains (← e)))
  | .block k => do p.presentStored (((p.store (← p.kind k)).blockIndex (← e)).map .number)
  | .get k handle => do
    let k ← p.kind k
    let property ← p.property k handle
    let read := property.get (p.store k) (← e)
    p.presentStored (read.map fun x => .value ⟨property.type, x⟩)
  | .set k handle value => do
    let k ← p.kind k
    let property ← p.property k handle
    p.ask (.setValue k property (← e) (← required (property.type.ofWritten? value)))
  | .offset k handle => do
    let k ← p.kind k
    let property ← p.property k handle
    p.presentStored ((property.bufferOffset (p.store k) (← e)).map .number)
  | .bump k handle amount => do
    let k ← p.kind k
    p.bump k (← p.property k handle) (← e) amount
  | .walk k _ => do p.ask (.walk (← p.kind k))
  | .dump k => do p.present (.dump (p.dump (← p.kind k)))
  | .makeObserver _ _ _ => p.ask .makeObserver
  | .attach k o number => do
    p.ask (.attach (← p.kind k) number (← required (p.handles.observers.find? o)))
  | .dropObserver o =>
    match p.handles.observers.find? o with
    | none => p.present (.flag false)
    | some id => do
      let (p, _) ← p.ask (.dropObserver id)
      let handles := { p.handles with observers := p.handles.observers.unbind o }
      let p : Player := { p with handles := handles }
      p.present (.flag true)
  | .filter required forbidden tests => do
    let f := Filter.of (← p.kinds required) (← p.kinds forbidden)
    let names := p.world.kindNames
    let tests ← tests.mapM (p.filterTest f)
    p.present (.filter (names f.required) (names f.forbidden) (p.world.describeFilter f) tests)
  | .makeManager config => p.ask (.makeManager config)
  | .dropManager => do
    let (p, _) ← p.ask (.retire (← m))
    let handle := named.getD mainManager
    let handles := { p.handles with managers := p.handles.managers.unbind handle }
    let p : Player := { p with handles := handles }
    p.present .nothing
  | .register k => do p.ask (.registerKind (← m) (← p.kind k))
  | .lookUp name => do
    match p.world.lookUp (← m) name with
    | .error cause => .ok (p, .answer (.error (.manager cause)))
    | .ok k => p.present (((p.handles.handleOf? k).map .text).getD .nothing)
  | .registered => do p.present (.texts (p.world.kindNames (p.world.manager (← m)).kinds))
  | .processors => do p.present (.texts (p.world.processorNames (← m)))
  | .create kinds => do p.ask (.create (← m) (← p.kinds kinds))
  | .remove => do p.ask (.scheduleRemoval (← m) (← e))
  | .addComponent k => do p.ask (.addComponent (← m) (← e) (← p.kind k))
  | .removeComponent k => do p.ask (.removeComponent (← m) (← e) (← p.kind k))
  | .alive => do p.present (.flag (p.world.isAlive (← m) (← e)))
  | .pending => do p.present (.flag ((p.world.manager (← m)).isPending (← e)))
  | .census => do
    let live := (p.world.manager (← m)).allocator.live
    p.present (.census live.size live.toList)
  | .openGroup _ required forbidden => do
    p.ask (.openGroup (← m) (← p.kinds required) (← p.kinds forbidden))
  | .groups => do
    let rows := (p.world.manager (← m)).groups.mapIdx fun number g =>
      (number, p.world.kindNames g.filter.required, p.world.kindNames g.filter.forbidden,
        g.members.toList)
    p.present (.groups rows)
  | .groupCard g => do
    let g ← p.group g
    p.present (.group g.number (p.world.group g).members.toList)
  | .groupHas g => do
    p.present (.flag (decide ((← e) ∈ (p.world.group (← p.group g)).members)))
  | .groupMatches g required forbidden => do
    let filter := (p.world.group (← p.group g)).filter
    p.present (.flag (filter.sameAs (← p.kinds required) (← p.kinds forbidden)))
  | .makeListener _ _ _ => p.ask .makeListener
  | .listen g l => do
    p.ask (.listen (← p.group g) (← required (p.handles.listeners.find? l)))
  | .unlisten g l => do
    p.ask (.unlisten (← p.group g) (← required (p.handles.listeners.find? l)))
  | .init => do p.ask (.initialise (← m))
  | .update => do p.ask (.update (← m) Time.start)
  | .tick delta => do
    let m ← m
    match p.time.advance? delta with
    | none => .error .timeOverflow
    | some time =>
      let p : Player := { p with time := time }
      p.ask (.update m time)
  | .shutDown => do p.ask (.shutDown (← m))
  | .lifecycle => do
    let lifecycle := (p.world.manager (← m)).lifecycle
    p.present (.lifecycle (lifecycle ≠ .setup) (lifecycle = .shutDown))
  | .time => do p.present (.time (← required c.time))
  | .registerProcessor script => do
    p.ask (.registerProcessor (← m) (← p.processorOf script))
  | .makeAlone script => do p.ask (.makeProcessor (← p.processorOf script))
  | .initAlone name => do
    p.ask (.initialiseAlone (← required (p.handles.alone.find? name)) (← m))
  | .updateAlone name => do
    p.ask (.updateAlone (← required (p.handles.alone.find? name)) (← m) Time.start)
  | .shutDownAlone name => do
    p.ask (.shutDownAlone (← required (p.handles.alone.find? name)) (← m))
  | .groupAlone name => do
    let processor := p.world.processor (← required (p.handles.alone.find? name))
    match processor.body with
    | .custom => p.present (.alone processor.name none)
    | .visitor v => p.present (.alone processor.name (v.group.map GroupRef.number))
  | .describe subject => do p.present (.text (← p.describe m subject))

/-- Take up a step in a context: it waits for its answer while its operation is carried out. -/
def take (c : Context) : Step → Move (Player × Signal)
  | .mk label _ attempt named entity operation =>
    let waiting : Waiting := ⟨label, c, named, attempt, operation, [], none⟩
    (p.push (.waiting waiting)).perform c (p.manager named c) (required (entity.or c.entity))
      named operation

/-! ## Answers -/

/-- What a granted operation shows, and the player with what it has made. -/
def settle (w : Waiting) (granted : Granted) : Move (Player × Shown) :=
  let h := p.handles
  match w.operation, granted with
  | .makeKind handle _ _, .kind k =>
    .ok ({ p with handles := { h with kinds := h.kinds.bind handle k } }, .nothing)
  | .declare k handle _ _ _ _, .property property => do
    let k ← p.kind k
    let properties := h.properties ++ [⟨k, handle, property⟩]
    .ok ({ p with handles := { h with properties := properties } },
      .property (p.world.kindName k) property)
  | .makeObserver handle joined left, .observer o => do
    let p ← match h.observers.find? handle with
      | some old => (p.ask (.dropObserver old)).map Prod.fst
      | none => .ok p
    let p := { p with handles := { h with observers := h.observers.bind handle o } }
    let p := p.addRoutine (.observer o .joined) (handle ++ ":added") joined
    .ok (p.addRoutine (.observer o .left) (handle ++ ":removed") left, .nothing)
  | .makeListener handle joined left, .listener l =>
    let p := { p with handles := { h with listeners := h.listeners.bind handle l } }
    let p := p.addRoutine (.listener l .joined) (handle ++ ":added") joined
    .ok (p.addRoutine (.listener l .left) (handle ++ ":removed") left, .nothing)
  | .makeManager config, .manager m => do
    let handle := w.named.getD mainManager
    let p ← match h.managers.find? handle with
      | some old => (p.ask (.retire old)).map Prod.fst
      | none => .ok p
    .ok ({ p with handles := { h with managers := h.managers.bind handle m } },
      .range config.first config.last)
  | .openGroup handle _ _, .group g =>
    .ok ({ p with handles := { h with groups := h.groups.bind handle g } },
      .opened g.number (p.world.group g).members.toList)
  | .registerProcessor script, .processor id => .ok (p.addProcessorRoutines id script, .nothing)
  | .makeAlone script, .processor id =>
    let name := (p.world.processor id).name
    let p := { p with handles := { h with alone := h.alone.bind name id } }
    .ok (p.addProcessorRoutines id script, .nothing)
  | .walk _ _, .done => .ok (p, .walk w.seen w.stopped)
  | _, .flag b => .ok (p, .flag b)
  | _, .number n => .ok (p, .number n)
  | _, .entity e => .ok (p, .number e)
  | _, _ => .ok (p, .nothing)

/-- Does a refusal come from a template that does not fit? -/
def isMisfit : Refusal → Bool
  | .store (.templateMisfit _) => true
  | .manager (.store (.templateMisfit _)) => true
  | _ => false

end EntityStore.Scenario.Player
