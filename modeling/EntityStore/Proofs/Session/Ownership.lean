import EntityStore.Proofs.Session.Membership
import EntityStore.Proofs.Session.Retained
import EntityStore.Proofs.Store.Declarations
import EntityStore.Proofs.World.Steady

/-!
# No data outlives its entity

Ids are issued again, so whatever is left of an entity when its id becomes free would be found by
the next one.  Nothing is left (`newcomers_own_nothing`): whoever holds a kind of a manager is live in
it, and so an entity that is made has the listed kinds and no other, with nothing set, and nobody else
notices.  No store refuses it for an id that is not valid or for a kind that it holds already.

A new entity reads the default of a property if and only if the property is legible: it lives in a
side map, or the kind has blocks and the codec reads the default back from the bytes that it wrote.
The properties of built-in types always are; a type of an application need not read what it writes,
and there are no blocks for a kind of which all values take no bytes (`unread_defaults`).
-/

namespace EntityStore

variable [Host]

namespace World

variable {w v : World} {m : ManagerId} {e : EntityId} {kinds : List KindId}

/-- Nothing happens to other entities when one is made, or to it in kinds that are not listed. -/
theorem unchanged_of_create (hw : w.Wired) (h : w.create m kinds = (v, .ok e)) {k : KindId}
    {x : EntityId} (hx : x ≠ e ∨ k ∉ kinds) :
    v.holds k x = w.holds k x ∧
      ∀ p : Property, p.get (v.kind k).store x = p.get (w.kind k).store x := by
  obtain ⟨htaken, hothers⟩ := stores_of_create hw h
  by_cases hk : k ∈ kinds
  · have hinsert := (htaken k hk).2
    have hstep := Store.insert_inserted (hw.packed k) Host.machine e
    have hundisturbed := Store.undisturbed_insert (hw.packed k) Host.machine
      (hx.resolve_right (not_not_intro hk))
    rw [hinsert] at hstep hundisturbed
    exact ⟨Undisturbed.holds_eq hundisturbed, fun p =>
      hundisturbed.get_eq (hw.packed k) (hstep.packed (hw.packed k)) hstep.sameShape p⟩
  · unfold holds
    rw [hothers k hk]
    exact ⟨rfl, fun _ => rfl⟩

end World

namespace Session

variable {events : List Event} {s : Session} {m : ManagerId}

/-- An entity has been made with some kinds, and the world is another one now. -/
structure Arrival (events : List Event) (w v : World) (m : ManagerId) (kinds : List KindId)
    (e : EntityId) : Prop where
  /-- Its id was free. -/
  free : w.isAlive m e = false
  /-- It is live. -/
  live : v.isAlive m e = true
  /-- Of the kinds of the manager it holds those that are listed. -/
  holds : ∀ k, k ∈ kinds ↔ k ∈ (w.manager m).kinds ∧ v.holds k e = true
  /-- It reads the default of every property that is legible, and of no other. -/
  defaults : ∀ k ∈ kinds, ∀ p, Declared events k p →
    (p.get (v.kind k).store e = .ok p.default ↔ p.Legible (w.kind k).store.layout)
  /-- Nothing has happened to others, or in other kinds. -/
  others : ∀ k x, x ≠ e ∨ k ∉ kinds → v.holds k x = w.holds k x ∧
    ∀ p : Property, p.get (v.kind k).store x = p.get (w.kind k).store x

/-- Whoever holds a kind of a manager is live in it.  An entity that is made has what is listed and
nothing else, and no store refuses it for its id or for a kind that it holds already. -/
theorem newcomers_own_nothing (h : Runs start events s)
    (hrule : ∀ e ∈ events, e.before.Follows Orderly e.action)
    (hm : (s.world.manager m).retired = false) :
    (∀ k ∈ (s.world.manager m).kinds, ∀ e ∈ (s.world.kind k).store.holders,
      s.world.isAlive m e = true) ∧
    ∀ kinds v answer, s.world.create m kinds = (v, answer) →
      (∀ e, answer = .ok e → Arrival events s.world v m kinds e) ∧
      ∀ cause, answer = .error (.store cause) →
        (∀ name x, cause ≠ .duplicateComponent name x) ∧ ∀ x, cause ≠ .invalidEntity x := by
  have hmade : ∀ w m k, Orderly w (.registerKind m k) → k.place < w.kinds.length :=
    fun _ _ _ => And.left
  obtain ⟨hwired, hexact⟩ := exact_of_reachesUnder (fun _ _ => id) (h.reachesUnder hrule)
  have hbare : ∀ k ∈ (s.world.manager m).kinds, ∀ x, s.world.isAlive m x = false →
      s.world.holds k x = false := by
    intro k hk x hdead
    exact hexact.bare m hm k hk x (Bool.eq_false_iff.1 hdead)
  refine ⟨fun k hk e he => ?_, fun kinds v answer hcreate => ⟨?_, ?_⟩⟩
  · cases halive : s.world.isAlive m e with
    | true => rfl
    | false => exact absurd he (World.holds_eq_false.1 (hbare k hk e halive))
  · rintro e rfl
    have hanswer : (s.world.create m kinds).2 = .ok e := by rw [hcreate]
    have hfree := World.not_isAlive_of_create hanswer
    obtain ⟨htaken, -⟩ := World.stores_of_create hwired hcreate
    have hstep : ∀ k ∈ kinds, Store.Inserted Host.machine (s.world.kind k).store e
        (v.kind k).store (.ok ()) := by
      intro k hk
      have hinserted := Store.insert_inserted (hwired.packed k) Host.machine e
      rw [(htaken k hk).2] at hinserted
      exact hinserted
    refine
      { free := hfree
        live := ?_
        holds := fun k => ⟨fun hk => ⟨(htaken k hk).1, ?_⟩, ?_⟩
        defaults := ?_
        others := fun k x hx => World.unchanged_of_create hwired hcreate hx }
    · have hlive := (World.isAlive_create s.world m kinds m e).2 (Or.inr ⟨rfl, hanswer⟩)
      rw [hcreate] at hlive
      exact hlive
    · rw [World.holds_eq_true]
      exact ((hstep k hk).mem_holders (hwired.packed k) e).2 (Or.inr ⟨rfl, rfl⟩)
    · rintro ⟨hk, hheld⟩
      -- a free id holds no kind of the manager, and what is not listed stays as it is
      apply Classical.byContradiction
      intro hunlisted
      rw [(World.unchanged_of_create hwired hcreate (Or.inr hunlisted)).1, hbare k hk e hfree]
        at hheld
      cases hheld
    · intro k hk p hp
      exact Store.get_of_inserted (hwired.packed k) (stocked_of_runs hmade h hrule k) (hstep k hk)
        (mem_fields_of_declared hmade h hrule hp)
  · rintro cause rfl
    rcases World.refusal_of_create hwired.packed (inRange_of_runs hmade h hrule m) hbare hcreate with
      ⟨name, requested, rfl⟩ | ⟨name, rfl⟩
    · exact ⟨nofun, nofun⟩
    · exact ⟨nofun, nofun⟩

/-- Is the event a request that is granted at once? -/
def Event.isGranted (e : Event) : Bool :=
  match e.progress with
  | .replies reply => reply.isOk
  | .calls _ => false

/-- A kind with a property is made and registered with a manager. -/
def pastOf (p : Property) : List Action :=
  [.request (.makeKind "A" .default), .request (.declare ⟨0⟩ p.name p.type p.default none),
    .request (.makeManager .default), .request (.registerKind ⟨0⟩ ⟨0⟩)]

/-- The kind of the property is registered before it has holders, and nothing is refused.  An entity
is made with it, and does not read the default. -/
def LosesDefault (p : Property) : Prop :=
  ∃ events s v, Runs start events s ∧ (∀ e ∈ events, e.before.Follows Orderly e.action) ∧
    (∀ e ∈ events, e.isGranted = true) ∧ Declared events ⟨0⟩ p ∧
    s.world.create ⟨0⟩ [⟨0⟩] = (v, .ok 1) ∧ p.get (v.kind ⟨0⟩).store 1 ≠ .ok p.default

theorem losesDefault_of_past {p : Property} (hbounds : p.bounds = none)
    (hrule : ∀ e ∈ (start.follow (pastOf p)).1, e.before.Follows Orderly e.action)
    (hgranted : ∀ e ∈ (start.follow (pastOf p)).1, e.isGranted = true) {d : Event}
    (hd : (start.follow (pastOf p)).1[1]? = some d)
    (haction : d.action = .request (.declare ⟨0⟩ p.name p.type p.default none))
    (hthere : 0 < d.before.world.kinds.length)
    (hslot : ((d.before.world.kind ⟨0⟩).store.addField p.name p.type p.default).2.toOption =
      some p.slot)
    (hmade : ((start.follow (pastOf p)).2.world.create ⟨0⟩ [⟨0⟩]).2.toOption = some 1)
    (hread : (p.get (((start.follow (pastOf p)).2.world.create ⟨0⟩ [⟨0⟩]).1.kind ⟨0⟩).store
      1).isOk = false) : LosesDefault p := by
  have hruns := runs_follow start (pastOf p)
  have hdeclared : Declared (start.follow (pastOf p)).1 ⟨0⟩ p := by
    obtain ⟨name, type, slot, default, bounds⟩ := p
    obtain rfl : bounds = none := hbounds
    exact hruns.declared (List.mem_of_getElem? hd) haction hthere (eq_ok_of_toOption hslot)
  refine ⟨(start.follow (pastOf p)).1, (start.follow (pastOf p)).2,
    ((start.follow (pastOf p)).2.world.create ⟨0⟩ [⟨0⟩]).1, hruns, hrule, hgranted, hdeclared,
    Prod.ext rfl (eq_ok_of_toOption hmade), fun hget => ?_⟩
  rw [hget] at hread
  cases hread

end Session

end EntityStore

/-! ## An id that is issued again -/

namespace EntityStore.Session

attribute [local instance] Host.plain

/-- A property that lives in blocks. -/
def level : Property := ⟨"level", .word (.signed .w32), .packed 0, (5 : BitVec 32), none⟩

/-- A property that lives in a side map. -/
def title : Property := ⟨"title", .text, .side 0, "none", none⟩

/-- A manager with two ids makes an entity, whose values are set, and then one without kinds.  The
first one is removed. -/
def reissue : List Action :=
  [.request (.makeKind "A" .default),
    .request (.declare ⟨0⟩ "level" (.word (.signed .w32)) (5 : BitVec 32) none),
    .request (.declare ⟨0⟩ "title" .text "none" none), .request (.makeManager ⟨1, 2⟩),
    .request (.registerKind ⟨0⟩ ⟨0⟩), .request (.create ⟨0⟩ [⟨0⟩]),
    .request (.setValue ⟨0⟩ level 1 (9 : BitVec 32)), .request (.setValue ⟨0⟩ title 1 "old"),
    .request (.create ⟨0⟩ []), .request (.scheduleRemoval ⟨0⟩ 1),
    .request (.update ⟨0⟩ Time.start)]

theorem orderly_reissue : ∀ e ∈ (start.follow reissue).1, e.before.Follows Orderly e.action := by
  decide +kernel

/-- The next entity gets the id of the removed one and finds nothing of its values. -/
theorem nothing_left_for_reissued_id :
    let run := start.follow reissue
    let v := (run.2.world.create ⟨0⟩ [⟨0⟩]).1
    (run.2.world.create ⟨0⟩ [⟨0⟩]).2 = .ok 1 ∧
      level.get (v.kind ⟨0⟩).store 1 = .ok (5 : BitVec 32) ∧
      title.get (v.kind ⟨0⟩).store 1 = .ok "none" := by
  intro run v
  have hruns := runs_follow start reissue
  have hmade : (run.2.world.create ⟨0⟩ [⟨0⟩]).2 = .ok 1 := eq_ok_of_toOption (by decide +kernel)
  obtain ⟨-, hcreate⟩ := newcomers_own_nothing (m := ⟨0⟩) hruns orderly_reissue (by decide +kernel)
  have harrival := (hcreate [⟨0⟩] v _ rfl).1 1 hmade
  have hlevel : Declared run.1 ⟨0⟩ level :=
    hruns.declared (List.mem_of_getElem? (i := 1) rfl) rfl (by decide +kernel)
      (eq_ok_of_toOption (by decide +kernel))
  have htitle : Declared run.1 ⟨0⟩ title :=
    hruns.declared (List.mem_of_getElem? (i := 2) rfl) rfl (by decide +kernel)
      (eq_ok_of_toOption (by decide +kernel))
  have hlisted : (⟨0⟩ : KindId) ∈ [(⟨0⟩ : KindId)] := List.mem_singleton.2 rfl
  have hstocked := (stocked_of_runs (fun _ _ _ => And.left) hruns orderly_reissue ⟨0⟩).layout
  have hfields := fun p => mem_fields_of_declared (p := p) (fun _ _ _ => And.left) hruns
    orderly_reissue (k := ⟨0⟩)
  refine ⟨hmade, ?_, ?_⟩
  · exact (harrival.defaults ⟨0⟩ hlisted level hlevel).2
      (Property.legible_of_isBuiltIn hstocked (hfields level hlevel) rfl)
  · exact (harrival.defaults ⟨0⟩ hlisted title htitle).2
      (Property.legible_of_isBuiltIn hstocked (hfields title htitle) rfl)

end EntityStore.Session

/-! ## Defaults that are not read -/

namespace EntityStore

/-- The application with grades and marks. -/
@[reducible] def Host.grading : Host := { CustomTypes.grading with machine := .standard }

end EntityStore

namespace EntityStore.Session

attribute [local instance] Host.grading

/-- A property whose default is the grade that is written but not read. -/
def unread : Property := ⟨"x", .custom false, .packed 0, (57005 : BitVec 16), none⟩

/-- A mark: a kind that has nothing else has no blocks. -/
def unplaced : Property := ⟨"x", .custom true, .packed 0, (), none⟩

/-- An application whose codec does not read what it wrote loses the default, and so does one whose
values take no bytes, in a kind without any other property of fixed width. -/
theorem unread_defaults : LosesDefault unread ∧ LosesDefault unplaced := by
  constructor
  · exact losesDefault_of_past rfl (by decide +kernel) (by decide +kernel) rfl rfl
      (by decide +kernel) (by decide +kernel) (by decide +kernel) (by decide +kernel)
  · exact losesDefault_of_past rfl (by decide +kernel) (by decide +kernel) rfl rfl
      (by decide +kernel) (by decide +kernel) (by decide +kernel) (by decide +kernel)

end EntityStore.Session
