import EntityStore.Proofs.Session.Effects
import EntityStore.Proofs.World.Independence

/-!
# Independent requests

Code outside gives kinds to entities and takes them away, through a manager or directly.  Two such
requests that are about different entities or different kinds can be made in either order, at any
point of any history: each gets the answer that it gets in the other order, and nobody can tell the
two sessions apart afterwards except by the places of blocks and the lengths of buffers.

* `HolderChange`: a request of this sort.  `World.change` is what it does, in one form for all four.
* `Session.changes_commute`: two of them commute, as long as neither is refused for want of memory.
-/

namespace EntityStore

variable [Host]

open World

/-- A request to give a kind to an entity or to take it away. -/
structure HolderChange where
  /-- The manager that is asked, none if the kind itself is. -/
  through : Option ManagerId
  /-- Is the kind to be given, or taken away? -/
  gives : Bool
  /-- The kind. -/
  kind : KindId
  /-- The entity. -/
  entity : EntityId

namespace HolderChange

/-- The request as it is made. -/
def request : HolderChange → Request
  | ⟨none, true, k, e⟩ => .addHolder k e
  | ⟨none, false, k, e⟩ => .removeHolder k e
  | ⟨some m, true, k, e⟩ => .addComponent m e k
  | ⟨some m, false, k, e⟩ => .removeComponent m e k

/-- A kind that is asked itself is registered with a manager. -/
def Managed (c : HolderChange) (w : World) : Prop :=
  c.through = none → ∃ m, c.kind ∈ (w.manager m).kinds

/-- The answer to the request, when the store is asked and has answered. -/
def reply (c : HolderChange) : Except StoreError Bool → Reply
  | .error cause =>
    match c.through with
    | none => .error (.store cause)
    | some _ => .error (.manager (.store cause))
  | .ok flag => .ok (if c.gives then .done else .flag flag)

end HolderChange

/-- A refusal for want of memory, by a store itself or through a manager. -/
def Refusal.isOverflow : Refusal → Bool
  | store cause => cause.isOverflow
  | manager (.store cause) => cause.isOverflow
  | _ => false

/-- Was a request refused for want of memory? -/
def wantsMemory : Reply → Bool
  | .error cause => cause.isOverflow
  | .ok _ => false

namespace World

variable {w v : World} {c : HolderChange} {k : KindId} {e : EntityId}

/-- What keeps a manager from asking the store. -/
def fault? (w : World) (c : HolderChange) : Option ManagerError :=
  c.through.bind fun m => w.changeFault? m c.entity c.kind

/-- What a request of this sort does, and how it is answered. -/
def change (w : World) (c : HolderChange) : World × Reply :=
  match w.fault? c with
  | some fault => (w, .error (.manager fault))
  | none =>
    let (v, result) := w.alter c.gives c.kind c.entity
    (v, c.reply result)

theorem change_of_fault {fault : ManagerError} (h : w.fault? c = some fault) :
    w.change c = (w, .error (.manager fault)) := by
  unfold change
  rw [h]

theorem change_of_no_fault (h : w.fault? c = none) :
    w.change c = ((w.alter c.gives c.kind c.entity).1,
      c.reply (w.alter c.gives c.kind c.entity).2) := by
  unfold change
  rw [h]

/-- The kind of a request that comes to a store was made. -/
theorem made_of_no_fault (hw : w.Wired) (hc : c.Managed w) (h : w.fault? c = none) :
    c.kind.place < w.kinds.length := by
  have hregistered : ∃ m, c.kind ∈ (w.manager m).kinds := by
    cases hthrough : c.through with
    | none => exact hc hthrough
    | some m =>
        unfold fault? at h
        rw [hthrough] at h
        exact ⟨m, (changeFault?_eq_none h).1⟩
  obtain ⟨m, hm⟩ := hregistered
  obtain ⟨number, hattached⟩ := hw.attached m _ hm
  exact lt_length_of_attachment hattached

theorem altered_change (hw : w.Wired) (hc : c.Managed w) :
    Altered c.kind c.entity w (w.change c).1 := by
  cases hfault : w.fault? c with
  | some fault =>
      rw [change_of_fault hfault]
      exact .refl hw.packed _ _
  | none =>
      rw [change_of_no_fault hfault]
      exact altered_alter hw.packed (made_of_no_fault hw hc hfault) _ _

/-- No change of holders puts a fault in the way of a request, or takes one away. -/
theorem Altered.fault_eq (h : Altered k e w v) (c : HolderChange) : v.fault? c = w.fault? c := by
  unfold fault?
  congr 1
  funext m
  have hname : v.kindName c.kind = w.kindName c.kind := (h.tracks.shape c.kind).name
  have hregistered : v.isRegistered m c.kind = w.isRegistered m c.kind := by
    unfold isRegistered Kind.number?
    rw [h.tracks.attachment, h.tracks.kinds_eq]
  unfold changeFault?
  rw [hname, hregistered, h.tracks.isAlive_eq]

theorem Altered.managed (h : Altered k e w v) (hc : c.Managed w) : c.Managed v := by
  intro hthrough
  obtain ⟨m, hm⟩ := hc hthrough
  refine ⟨m, ?_⟩
  rw [h.tracks.kinds_eq]
  exact hm

theorem isOverflow_of_reply {result : Except StoreError Bool}
    (h : wantsMemory (c.reply result) = false) :
    ∀ cause, result = .error cause → cause.isOverflow = false := by
  rintro cause rfl
  unfold HolderChange.reply at h
  cases hthrough : c.through with
  | none =>
      rw [hthrough] at h
      exact h
  | some m =>
      rw [hthrough] at h
      exact h

/-- Where the same is kept for the entity, a request gets the same answer and leaves the same. -/
theorem agrees_change (hw : w.Wired) (hv : v.Wired) (hwManaged : c.Managed w)
    (hvManaged : c.Managed v) (hfault : v.fault? c = w.fault? c)
    (h : Agrees w v c.kind c.entity) (hwMemory : wantsMemory (w.change c).2 = false)
    (hvMemory : wantsMemory (v.change c).2 = false) :
    (v.change c).2 = (w.change c).2 ∧
      Agrees (w.change c).1 (v.change c).1 c.kind c.entity := by
  cases hw? : w.fault? c with
  | some fault =>
      rw [change_of_fault hw?, change_of_fault (hfault.trans hw?)]
      exact ⟨rfl, h⟩
  | none =>
      have hv? : v.fault? c = none := hfault.trans hw?
      rw [change_of_no_fault hw?] at hwMemory ⊢
      rw [change_of_no_fault hv?] at hvMemory ⊢
      obtain ⟨hanswer, hagrees⟩ := agrees_alter hw.packed hv.packed
        (made_of_no_fault hw hwManaged hw?) (made_of_no_fault hv hvManaged hv?) h c.gives
        (isOverflow_of_reply hwMemory) (isOverflow_of_reply hvMemory)
      exact ⟨congrArg c.reply hanswer, hagrees⟩

/-- The groups of a manager hear of a kind that is asked itself, and nobody outside does. -/
theorem tellObserver_of_managed (hw : w.Wired) {m : ManagerId} (hm : k ∈ (w.manager m).kinds)
    (told : ObserverId → Bool) (e : EntityId) (change : MemberChange) (reply : Reply) :
    w.tellObserver told k e change reply = (w, .replies reply) := by
  obtain ⟨number, hattached⟩ := hw.attached m k hm
  unfold tellObserver outsideObserver?
  rw [hattached]

/-- Giving a kind of a manager calls nobody outside. -/
theorem giveAndTell_eq (hw : w.Wired) {m : ManagerId} (hm : k ∈ (w.manager m).kinds)
    (told : ObserverId → Bool) (e : EntityId) :
    w.giveAndTell told k e = ((w.change ⟨none, true, k, e⟩).1,
      .replies (w.change ⟨none, true, k, e⟩).2) := by
  have haltered := altered_change (c := ⟨none, true, k, e⟩) hw fun _ => ⟨m, hm⟩
  have hwired := haltered.wired hw
  rw [← haltered.tracks.kinds_eq] at hm
  rw [change_of_no_fault rfl] at hm hwired ⊢
  unfold giveAndTell
  cases hresult : w.addHolder k e with
  | mk v result =>
      simp only [alter, if_true, hresult] at hm hwired ⊢
      cases result with
      | error cause => rfl
      | ok done => exact tellObserver_of_managed hwired hm told e _ _

/-- Nor does taking it away. -/
theorem takeAndTell_eq (hw : w.Wired) {m : ManagerId} (hm : k ∈ (w.manager m).kinds)
    (told : ObserverId → Bool) (e : EntityId) :
    w.takeAndTell told k e = ((w.change ⟨none, false, k, e⟩).1,
      .replies (w.change ⟨none, false, k, e⟩).2) := by
  have haltered := altered_change (c := ⟨none, false, k, e⟩) hw fun _ => ⟨m, hm⟩
  have hwired := haltered.wired hw
  rw [← haltered.tracks.kinds_eq] at hm
  rw [change_of_no_fault rfl] at hm hwired ⊢
  unfold takeAndTell
  cases hresult : w.removeHolder k e with
  | mk v held =>
      simp only [alter, Bool.false_eq_true, if_false, hresult] at hm hwired ⊢
      cases held with
      | false => rfl
      | true => exact tellObserver_of_managed hwired hm told e _ _

theorem answer_addComponent (w : World) (m : ManagerId) (e : EntityId) (k : KindId) :
    answer (fun _ => .done) (w.addComponent m e k) =
      ((w.change ⟨some m, true, k, e⟩).1, .replies (w.change ⟨some m, true, k, e⟩).2) := by
  unfold addComponent
  cases hfault : w.changeFault? m e k with
  | some fault =>
      rw [change_of_fault (show w.fault? ⟨some m, true, k, e⟩ = some fault from hfault)]
      rfl
  | none =>
      rw [change_of_no_fault (show w.fault? ⟨some m, true, k, e⟩ = none from hfault)]
      cases hresult : w.addHolder k e with
      | mk v result =>
          simp only [alter, if_true, hresult]
          cases result <;> rfl

theorem answer_removeComponent (w : World) (m : ManagerId) (e : EntityId) (k : KindId) :
    answer .flag (w.removeComponent m e k) =
      ((w.change ⟨some m, false, k, e⟩).1, .replies (w.change ⟨some m, false, k, e⟩).2) := by
  unfold removeComponent
  cases hfault : w.changeFault? m e k with
  | some fault =>
      rw [change_of_fault (show w.fault? ⟨some m, false, k, e⟩ = some fault from hfault)]
      rfl
  | none =>
      rw [change_of_no_fault (show w.fault? ⟨some m, false, k, e⟩ = none from hfault)]
      rfl

/-- A session serves the request as `change` says, and calls nobody. -/
theorem serve_request (hw : w.Wired) (hc : c.Managed w) (engaged : ManagerId → Bool)
    (told : ObserverId → Bool) :
    w.serve engaged told c.request = ((w.change c).1, .replies (w.change c).2) := by
  obtain ⟨through, gives, k, e⟩ := c
  cases through with
  | none =>
      obtain ⟨m, hm⟩ := hc rfl
      cases gives with
      | true => exact giveAndTell_eq hw hm told e
      | false => exact takeAndTell_eq hw hm told e
  | some m =>
      cases gives with
      | true => exact answer_addComponent w m e k
      | false => exact answer_removeComponent w m e k

end World

namespace Session

variable {s : Session}

/-- Two requests are made one after the other; each is answered at once. -/
def InTurn (s : Session) (first second : Request) (replies : Reply × Reply) (t : Session) : Prop :=
  ∃ between, s.act (.request first) = some (between, .replies replies.1) ∧
    between.act (.request second) = some (t, .replies replies.2)

theorem act_change (hw : s.world.Wired) {c : HolderChange} (hc : c.Managed s.world) :
    s.act (.request c.request) =
      some (⟨(s.world.change c).1, s.stack⟩, .replies (s.world.change c).2) := by
  have hshared : c.request.exclusive? = none := by
    obtain ⟨through, gives, k, e⟩ := c
    cases through <;> cases gives <;> rfl
  unfold act bars
  dsimp only
  rw [hshared, serve_request hw hc]
  rfl

theorem inTurn_changes (hw : s.world.Wired) {a b : HolderChange} (ha : a.Managed s.world)
    (hb : b.Managed s.world) :
    s.InTurn a.request b.request
      ((s.world.change a).2, ((s.world.change a).1.change b).2)
      ⟨((s.world.change a).1.change b).1, s.stack⟩ := by
  have haltered := altered_change hw ha
  refine ⟨_, act_change hw ha, ?_⟩
  exact act_change (s := ⟨(s.world.change a).1, s.stack⟩) (haltered.wired hw) (haltered.managed hb)

/-- Two requests that are about different kinds or different entities are answered at once, in either
order.  If none of them is refused for want of memory, each is answered as it is in the other order,
and both orders lead to the same holders, values and groups. -/
theorem changes_commute (h : ReachesUnder KindsMade start s) {a b : HolderChange}
    (ha : a.Managed s.world) (hb : b.Managed s.world)
    (hapart : a.kind ≠ b.kind ∨ a.entity ≠ b.entity) :
    ∃ ra rb ra' rb' t u, s.InTurn a.request b.request (ra, rb) t ∧
      s.InTurn b.request a.request (rb', ra') u ∧
      ((∀ r ∈ [ra, rb, ra', rb'], wantsMemory r = false) →
        ra' = ra ∧ rb' = rb ∧ t.world.Alike u.world ∧ t.stack = u.stack) := by
  have hw : s.world.Wired := wired_of_reachesUnder (fun _ _ _ => id) h
  refine ⟨_, _, _, _, _, _, inTurn_changes hw ha hb, inTurn_changes hw hb ha, fun hmemory => ?_⟩
  simp only [List.mem_cons, List.not_mem_nil, or_false, forall_eq_or_imp, forall_eq] at hmemory
  obtain ⟨hfirst, hsecond, hfirst', hsecond'⟩ := hmemory
  have haltA := altered_change hw ha
  have haltB := altered_change hw hb
  have hwA := haltA.wired hw
  have hwB := haltB.wired hw
  have hbA := haltA.managed hb
  have haB := haltB.managed ha
  -- each of them finds what it would have found without the other
  obtain ⟨hreplyA, hagreeA⟩ := agrees_change hw hwB ha haB (haltB.fault_eq a)
    (haltB.agrees hapart) hfirst hfirst'
  obtain ⟨hreplyB, hagreeB⟩ := agrees_change hw hwA hb hbA (haltA.fault_eq b)
    (haltA.agrees (hapart.imp Ne.symm Ne.symm)) hsecond' hsecond
  refine ⟨hreplyA, hreplyB.symm, ?_, rfl⟩
  exact alike_of_altered hw hapart haltA haltB (altered_change hwA hbA) (altered_change hwB haB)
    hagreeA hagreeB

/-- Are two requests answered one after the other, and neither is refused for want of memory? -/
def roomInTurn (s : Session) (first second : Request) : Bool :=
  match s.act (.request first) with
  | some (between, .replies r) =>
    match between.act (.request second) with
    | some (_, .replies q) => !wantsMemory r && !wantsMemory q
    | _ => false
  | _ => false

theorem InTurn.room {first second : Request} {r q : Reply} {t : Session}
    (h : s.InTurn first second (r, q) t) (hroom : s.roomInTurn first second = true) :
    wantsMemory r = false ∧ wantsMemory q = false := by
  obtain ⟨between, hfirst, hsecond⟩ := h
  simpa [roomInTurn, hfirst, hsecond] using hroom

end Session

end EntityStore

namespace EntityStore.Session

attribute [local instance] Host.plain

/-- An entity gains a forbidden kind and loses a required one: it leaves the group with the first of
the two, whichever that is. -/
theorem changes_of_one_entity_commute :
    let gain : HolderChange := ⟨none, true, ⟨1⟩, 1⟩
    let loss : HolderChange := ⟨some ⟨0⟩, false, ⟨0⟩, 1⟩
    ∃ s, ReachesUnder KindsMade start s ∧ gain.Managed s.world ∧ loss.Managed s.world ∧
      ((s.world.manager ⟨0⟩).groups.map Group.members).map IdSet.toList = [[1]] ∧
      ∃ ra rb t u, s.InTurn gain.request loss.request (ra, rb) t ∧
        s.InTurn loss.request gain.request (rb, ra) u ∧ t.world.Alike u.world := by
  intro gain loss
  let s := start.afterAll [.makeKind "A" .default, .makeKind "B" .default,
    .declare ⟨0⟩ "points" (.word (.signed .w32)) (7 : BitVec 32) none, .makeManager .default,
    .registerKind ⟨0⟩ ⟨0⟩, .registerKind ⟨0⟩ ⟨1⟩, .openGroup ⟨0⟩ [⟨0⟩] [⟨1⟩], .create ⟨0⟩ [⟨0⟩]]
  have h : ReachesUnder KindsMade start s := by
    refine ReachesUnder.request ?_ rfl True.intro
    refine ReachesUnder.request ?_ rfl True.intro
    refine ReachesUnder.request ?_ (by decide +kernel) ?_
    refine ReachesUnder.request ?_ (by decide +kernel) ?_
    refine ReachesUnder.request ?_ rfl True.intro
    refine ReachesUnder.request ?_ rfl True.intro
    refine ReachesUnder.request ?_ rfl True.intro
    exact ReachesUnder.refl.request rfl True.intro
    all_goals
      show _ < _
      decide +kernel
  have hgain : gain.Managed s.world := fun _ => ⟨⟨0⟩, by decide +kernel⟩
  have hloss : loss.Managed s.world := nofun
  obtain ⟨ra, rb, ra', rb', t, u, hfirst, hsecond, hcommute⟩ :=
    changes_commute h hgain hloss (Or.inl (by decide))
  obtain ⟨hra, hrb⟩ := hfirst.room (by decide +kernel)
  obtain ⟨hrb', hra'⟩ := hsecond.room (by decide +kernel)
  obtain ⟨rfl, rfl, halike, -⟩ := hcommute (by simp [hra, hrb, hra', hrb'])
  exact ⟨s, h, hgain, hloss, by decide +kernel, ra', rb', t, u, hfirst, hsecond, halike⟩

end EntityStore.Session
