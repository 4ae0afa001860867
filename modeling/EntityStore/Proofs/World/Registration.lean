import EntityStore.Proofs.Session.Effects
import Mathlib.Data.List.Nodup

/-!
# The kinds of a manager

A kind belongs to one manager for good, and it stands there under the number with which it is
attached.  No two kinds of a manager have the same name.

* `Registration`: what it comes to when a kind is to be registered.
* `SameRolls`, `Move.rolls`: unless a kind is registered, every manager has the kinds that it had, and
  they keep their names.
* `Enrolled`: the numbers are those of the attachments, and the table of the names agrees with the list.
  So the names are different (`Enrolled.named`), and a kind is found by its number and by its name
  (`Enrolled.isRegistered_iff`, `Enrolled.lookUp_eq_ok`).
* `Enrolled.registration`: what comes of every registration.
* `Enrolled.create_foreign_iff` and those after it: which requests are refused for a kind of another
  manager, or of none.
-/

namespace EntityStore

variable [Host]

namespace World

variable {w v u : World} {m n : ManagerId} {k : KindId}

/-! ## Registering a kind -/

/-- What it comes to when a kind is to be registered with a manager. -/
inductive Registration (w : World) (m : ManagerId) (k : KindId) :
    World → Except ManagerError Nat → Prop where
  /-- The manager is not being set up any more. -/
  | closed (hlife : (w.manager m).lifecycle ≠ .setup) :
      Registration w m k w (.error .registrationClosed)
  /-- One of its kinds has the name. -/
  | taken (hlife : (w.manager m).lifecycle = .setup) (j : KindId) (hj : j ∈ (w.manager m).kinds)
      (hname : w.kindName j = w.kindName k) :
      Registration w m k w (.error (.duplicateKind (w.kindName k)))
  /-- The kind is attached already, to this manager, to another one or to an observer. -/
  | attached (hlife : (w.manager m).lifecycle = .setup)
      (hfree : ∀ j ∈ (w.manager m).kinds, w.kindName j ≠ w.kindName k) (a : Attachment)
      (hattached : (w.kind k).attachment = some a) :
      Registration w m k w (.error (.store (.alreadyRegistered (w.kindName k))))
  /-- The kind becomes the last one of the manager. -/
  | granted (hlife : (w.manager m).lifecycle = .setup)
      (hfree : ∀ j ∈ (w.manager m).kinds, w.kindName j ≠ w.kindName k)
      (hnew : (w.kind k).attachment = none) :
      Registration w m k (w.withKind m k) (.ok (w.manager m).kinds.length)

/-! ## Everything else -/

/-- Every manager has the kinds that it had, and they have the names that they had. -/
structure SameRolls (w v : World) : Prop where
  kinds : ∀ m, (v.manager m).kinds = (w.manager m).kinds
  tables : ∀ m, (v.manager m).names = (w.manager m).names
  attached : ∀ k number m, (v.kind k).attachment = some ⟨number, .manager m⟩ ↔
    (w.kind k).attachment = some ⟨number, .manager m⟩
  names : ∀ k number m, (w.kind k).attachment = some ⟨number, .manager m⟩ →
    v.kindName k = w.kindName k

theorem SameRolls.refl (w : World) : SameRolls w w :=
  ⟨fun _ => rfl, fun _ => rfl, fun _ _ _ => Iff.rfl, fun _ _ _ _ => rfl⟩

theorem SameRolls.trans (h : SameRolls w v) (g : SameRolls v u) : SameRolls w u where
  kinds m := (g.kinds m).trans (h.kinds m)
  tables m := (g.tables m).trans (h.tables m)
  attached k number m := (g.attached k number m).trans (h.attached k number m)
  names k number m hk :=
    (g.names k number m ((h.attached k number m).2 hk)).trans (h.names k number m hk)

theorem Quiet.rolls (h : Quiet w v) (htables : ∀ m, (v.manager m).names = (w.manager m).names)
    (hnames : ∀ k number m, (w.kind k).attachment = some ⟨number, .manager m⟩ →
      v.kindName k = w.kindName k) : SameRolls w v :=
  ⟨h.kinds, htables, h.attached, hnames⟩

theorem Tracks.rolls {audience : Option ManagerId} {e : EntityId} {kinds : List KindId}
    (h : Tracks audience e kinds w v) : SameRolls w v where
  kinds := h.kinds_eq
  tables := h.field_eq Manager.names fun _ _ => rfl
  attached k number m := by rw [h.attachment]
  names k _ _ _ := (h.shape k).name

theorem rolls_of_same_store {store : Store} (h : Quiet w (w.setStore k store))
    (hname : store.name = (w.kind k).store.name) : SameRolls w (w.setStore k store) := by
  refine h.rolls (fun _ => rfl) fun j _ _ _ => ?_
  unfold kindName
  rw [kind_setStore]
  split
  · rename_i hj
    rw [hj.1]
    exact hname
  · rfl

theorem name_addField (s : Store) (name : String) (type : ValueType) (default : type.Carrier) :
    (s.addField name type default).1.name = s.name := by
  unfold Store.addField
  split
  · rfl
  · dsimp only
    split <;> rfl

theorem rolls_declare (hw : w.Packed) (k : KindId) (name : String) (type : ValueType)
    (default : type.Carrier) (bounds : Option (Bounds type.Carrier)) :
    SameRolls w (w.declare k name type default bounds).1 := by
  have hquiet := (calm_declare hw k name type default bounds).toQuiet
  have hset : (w.declare k name type default bounds).1 =
      w.setStore k (Property.declare (w.kind k).store name type default bounds).1 := by
    unfold declare
    dsimp only
    split <;> rfl
  rw [hset] at hquiet ⊢
  refine rolls_of_same_store hquiet ?_
  exact name_addField _ name type _

theorem rolls_setValue (hw : w.Packed) (k : KindId) (p : Property) (e : EntityId)
    (x : p.type.Carrier) : SameRolls w (w.setValue k p e x).1 := by
  have hquiet := (calm_setValue hw k p e x).toQuiet
  rw [setValue_world] at hquiet ⊢
  exact rolls_of_same_store hquiet (Store.rewritten_set (hw k) p e x).sameShape.name

theorem rolls_addHolder (hw : w.Packed) (k : KindId) (e : EntityId) :
    SameRolls w (w.addHolder k e).1 := by
  rcases Nat.lt_or_ge k.place w.kinds.length with hk | habsent
  · cases hresult : w.addHolder k e with
    | mk u result =>
        cases result with
        | error cause => exact (addHolder_error hw hresult none).rolls
        | ok done =>
            obtain ⟨-, -, htracks⟩ := addHolder_ok hw hk hresult
            exact htracks.rolls
  · rw [addHolder_of_absent habsent]
    exact .refl w

theorem rolls_removeHolder (hw : w.Packed) (k : KindId) (e : EntityId) :
    SameRolls w (w.removeHolder k e).1 := by
  cases hresult : w.removeHolder k e with
  | mk u held =>
      cases held with
      | false =>
          obtain ⟨-, rfl⟩ := removeHolder_false hresult
          exact .refl u
      | true =>
          obtain ⟨-, -, htracks⟩ := removeHolder_true hw hresult
          exact htracks.rolls

theorem rolls_makeKind (w : World) (name : String) (config : StoreConfig) :
    SameRolls w (w.makeKind name config).1 := by
  refine (calm_makeKind w name config).toQuiet.rolls (fun m => ?_) fun k number m hk => ?_
  · unfold makeKind
    split <;> rfl
  have hmade := lt_length_of_attachment hk
  unfold makeKind
  split
  · rfl
  · show ((w.kinds ++ [Kind.make name config]).getD k.place Kind.absent).store.name = _
    rw [getD_concat, if_neg (Nat.ne_of_lt hmade)]
    rfl

theorem rolls_attach (w : World) (k : KindId) (number : Nat) (o : ObserverId) :
    SameRolls w (w.attach k ⟨number, .outside o⟩).1 := by
  refine (calm_attach w k number o).toQuiet.rolls (fun m => ?_) fun j _ _ _ => ?_
  · unfold attach
    split <;> rfl
  unfold attach kindName
  split
  · rfl
  · dsimp only
    rw [kind_updateKind]
    split
    · rename_i hj
      rw [hj.1]
    · rfl

theorem rolls_updateManager {change : Manager → Manager} (w : World) (m : ManagerId)
    (hkinds : ∀ manager, (change manager).kinds = manager.kinds)
    (htables : ∀ manager, (change manager).names = manager.names) :
    SameRolls w (w.updateManager m change) where
  kinds := field_updateManager Manager.kinds hkinds w m
  tables := field_updateManager Manager.names htables w m
  attached _ _ _ := Iff.rfl
  names _ _ _ _ := rfl

theorem rolls_create (hw : w.Wired) (m : ManagerId) (kinds : List KindId) :
    SameRolls w (w.create m kinds).1 := by
  have hcreated := created hw m kinds
  generalize w.create m kinds = result at hcreated ⊢
  obtain ⟨v, answer⟩ := result
  have hissued : ∀ a, SameRolls w (w.withAllocator m a) := fun _ =>
    rolls_updateManager w m (fun _ => rfl) fun _ => rfl
  cases hcreated with
  | refused => exact .refl _
  | undone e a u taken cause hmade hallocate hregistered htaken htracks hbefore hafter hpacked =>
      have hreleased : SameRolls u (u.release m e) :=
        rolls_updateManager u m (fun _ => rfl) fun _ => rfl
      exact ((hissued a).trans htracks.rolls).trans hreleased
  | made e a u hmade hallocate hregistered htracks hheld hpacked =>
      refine ((hissued a).trans htracks.rolls).trans ?_
      exact rolls_updateManager u m (fun _ => rfl) fun _ => rfl

theorem rolls_removeDue (hw : w.Wired) (m : ManagerId) (e : EntityId) :
    SameRolls w (w.removeDue m e) := by
  have hcleared : SameRolls w (w.withoutDue m e) :=
    rolls_updateManager w m (fun _ => rfl) fun _ => rfl
  cases halive : w.isAlive m e with
  | false =>
      rw [removed_of_not_alive halive]
      exact hcleared
  | true =>
      obtain ⟨taken, u, hresult, -, htracks, -, -⟩ := removed_of_alive hw halive
      rw [hresult]
      have hleft : SameRolls u (u.updateGroups m fun g => g.entityRemoved e) :=
        rolls_updateManager u m (fun _ => rfl) fun _ => rfl
      refine ((hcleared.trans htracks.rolls).trans hleft).trans ?_
      exact rolls_updateManager _ m (fun _ => rfl) fun _ => rfl

theorem rolls_makeManager (w : World) (config : ManagerConfig) :
    SameRolls w (w.makeManager config).1 := by
  refine (calm_makeManager w config).toQuiet.rolls (fun m => ?_) fun k _ _ _ => ?_
  · unfold makeManager
    split
    · rfl
    · -- the new manager knows no names, and neither does what stood in its place
      show ((w.managers ++ [Manager.ofConfig config]).getD m.place Manager.absent).names = _
      rw [getD_concat]
      split
      · rename_i hnew
        rw [manager_of_length_le (Nat.le_of_eq hnew.symm)]
        rfl
      · rfl
  · unfold makeManager
    split <;> rfl

theorem rolls_openGroup (w : World) (m : ManagerId) (required forbidden : List KindId) :
    SameRolls w (w.openGroup m required forbidden).1 := by
  rcases opened_or_same w m required forbidden with hsame | ⟨-, hmade⟩
  · rw [hsame]
    exact .refl w
  · rw [hmade]
    exact rolls_updateManager w m (fun _ => rfl) fun _ => rfl

theorem rolls_registerProcessor (w : World) (m : ManagerId) (p : Processor) :
    SameRolls w (w.registerProcessor m p).1 := by
  unfold registerProcessor
  split
  · exact .refl w
  · split
    · exact .refl w
    · have hadded : SameRolls w { w with processors := w.processors ++ [p] } :=
        ⟨fun _ => rfl, fun _ => rfl, fun _ _ _ => Iff.rfl, fun _ _ _ _ => rfl⟩
      exact hadded.trans (rolls_updateManager _ m (fun _ => rfl) fun _ => rfl)

end World

variable {rule : Rule} {w v : World}

/-- Every move but the registration of a kind leaves all kinds where they are. -/
theorem Move.rolls (hrule : ∀ w m k, ¬ rule w (.registerKind m k)) (hw : w.Wired)
    (h : Move rule w v) : World.SameRolls w v := by
  have hmanager : ∀ {change : Manager → Manager} (m : ManagerId),
      (∀ manager, (change manager).kinds = manager.kinds) →
        (∀ manager, (change manager).names = manager.names) →
          World.SameRolls w (w.updateManager m change) := World.rolls_updateManager w
  cases h with
  | makeKind name config => exact World.rolls_makeKind w name config
  | declare k name type default bounds =>
      exact World.rolls_declare hw.packed k name type default bounds
  | setValue k p e x => exact World.rolls_setValue hw.packed k p e x
  | addHolder k e _ => exact World.rolls_addHolder hw.packed k e
  | removeHolder k e _ => exact World.rolls_removeHolder hw.packed k e
  | attach k number o _ => exact World.rolls_attach w k number o
  | makeManager config => exact World.rolls_makeManager w config
  | retire m => exact hmanager m (fun _ => rfl) fun _ => rfl
  | registerKind m k h => exact absurd h (hrule w m k)
  | registerProcessor m p _ => exact World.rolls_registerProcessor w m p
  | create m kinds _ => exact World.rolls_create hw m kinds
  | scheduleRemoval m e _ => exact hmanager m (fun _ => rfl) fun _ => rfl
  | addComponent m e k _ =>
      unfold World.addComponent
      split
      · exact .refl w
      · exact World.rolls_addHolder hw.packed k e
  | removeComponent m e k _ =>
      unfold World.removeComponent
      split
      · exact .refl w
      · exact World.rolls_removeHolder hw.packed k e
  | openGroup m required forbidden => exact World.rolls_openGroup w m required forbidden
  | listen g l =>
      unfold World.listen
      split
      · exact hmanager g.manager (fun _ => rfl) fun _ => rfl
      · exact .refl w
  | unlisten g l => exact hmanager g.manager (fun _ => rfl) fun _ => rfl
  | takeNews g => exact hmanager g.manager (fun _ => rfl) fun _ => rfl
  | removeDue m e _ => exact World.rolls_removeDue hw m e
  | countInit m => exact hmanager m (fun _ => rfl) fun _ => rfl
  | setLifecycle m life => exact hmanager m (fun _ => rfl) fun _ => rfl
  | elsewhere v hkinds hmanagers _ =>
      have hkind : ∀ k, v.kind k = w.kind k := by
        intro k
        unfold World.kind
        rw [hkinds]
      refine ⟨fun m => ?_, fun m => ?_, fun k number m => ?_, fun k _ _ _ => ?_⟩
      · rw [World.manager_of_same_managers hmanagers]
      · rw [World.manager_of_same_managers hmanagers]
      · rw [hkind]
      · unfold World.kindName
        rw [hkind]

namespace World

/-! ## Numbers and names -/

/-- Every kind of a manager stands under the number with which it is attached to the manager, and the
table leads from its name to the number, and from no other name. -/
structure Enrolled (w : World) : Prop where
  numbered : ∀ m i k, (w.manager m).kinds[i]? = some k ↔
    (w.kind k).attachment = some ⟨i, .manager m⟩
  tabled : ∀ m name i, w.numberNamed? m name = some i ↔
    ∃ k, (w.manager m).kinds[i]? = some k ∧ w.kindName k = name

theorem enrolled_empty : World.empty.Enrolled where
  numbered _ _ _ := ⟨nofun, nofun⟩
  tabled _ _ _ := by
    refine iff_of_false nofun ?_
    rintro ⟨k, hk, -⟩
    cases hk

theorem Enrolled.attached (hw : w.Enrolled) (hk : k ∈ (w.manager m).kinds) :
    ∃ number, (w.kind k).attachment = some ⟨number, .manager m⟩ := by
  obtain ⟨i, hi⟩ := List.getElem?_of_mem hk
  exact ⟨i, (hw.numbered m i k).1 hi⟩

/-- No two kinds of a manager have the same name. -/
theorem Enrolled.name_injective (hw : w.Enrolled) {j : KindId} (hj : j ∈ (w.manager m).kinds)
    (hk : k ∈ (w.manager m).kinds) (hname : w.kindName j = w.kindName k) : j = k := by
  obtain ⟨i, hi⟩ := List.getElem?_of_mem hj
  obtain ⟨n, hn⟩ := List.getElem?_of_mem hk
  -- the table leads from the name to one number
  have hfirst := (hw.tabled m (w.kindName k) i).2 ⟨j, hi, hname⟩
  have hsecond := (hw.tabled m (w.kindName k) n).2 ⟨k, hn, rfl⟩
  rw [hfirst] at hsecond
  obtain rfl := Option.some.inj hsecond
  rw [hi] at hn
  exact Option.some.inj hn

/-- No kind stands twice in the list of a manager. -/
theorem Enrolled.nodup (hw : w.Enrolled) (m : ManagerId) : (w.manager m).kinds.Nodup := by
  refine List.nodup_iff_getElem?_ne_getElem?.2 fun i j hij hj heq => ?_
  have hfirst := heq.trans (List.getElem?_eq_getElem hj)
  have hattached := (hw.numbered m i _).1 hfirst
  rw [(hw.numbered m j _).1 (List.getElem?_eq_getElem hj)] at hattached
  cases hattached
  exact Nat.lt_irrefl _ hij

theorem Enrolled.named (hw : w.Enrolled) (m : ManagerId) :
    ((w.manager m).kinds.map w.kindName).Nodup :=
  (List.nodup_map_iff_inj_on (hw.nodup m)).2 fun _ hj _ hk => hw.name_injective hj hk

theorem Enrolled.rolls (hw : w.Enrolled) (h : SameRolls w v) : v.Enrolled where
  numbered m i k := by
    rw [h.kinds, h.attached]
    exact hw.numbered m i k
  tabled m name i := by
    unfold numberNamed?
    rw [h.tables, h.kinds]
    refine (hw.tabled m name i).trans (exists_congr fun k => and_congr_right fun hk => ?_)
    rw [h.names k i m ((hw.numbered m i k).1 hk)]

theorem kindName_withKind (w : World) (m : ManagerId) (k j : KindId) :
    (w.withKind m k).kindName j = w.kindName j := by
  show ((w.updateKind k _).kind j).store.name = _
  rw [kind_updateKind]
  split
  · rename_i hj
    rw [hj.1]
    rfl
  · rfl

theorem getElem?_kinds_withKind (hm : m.place < w.managers.length) (k : KindId) (n : ManagerId)
    (i : Nat) (j : KindId) : ((w.withKind m k).manager n).kinds[i]? = some j ↔
      (w.manager n).kinds[i]? = some j ∨ n = m ∧ j = k ∧ i = (w.manager m).kinds.length := by
  rw [manager_withKind]
  by_cases hn : n = m
  · rw [if_pos ⟨hn, hm⟩, hn, List.getElem?_append]
    rcases Nat.lt_trichotomy i (w.manager m).kinds.length with hlt | heq | hgt
    · rw [if_pos hlt]
      exact (or_iff_left fun h => Nat.ne_of_lt hlt h.2.2).symm
    · rw [if_neg (Nat.not_lt_of_le (Nat.le_of_eq heq.symm)), heq, Nat.sub_self,
        List.getElem?_eq_none (Nat.le_refl _)]
      simp [eq_comm]
    · have hlate : 1 ≤ i - (w.manager m).kinds.length := Nat.sub_pos_of_lt hgt
      rw [if_neg (Nat.lt_asymm hgt), List.getElem?_eq_none (Nat.le_of_lt hgt),
        List.getElem?_eq_none hlate]
      exact iff_of_false nofun fun h => h.elim nofun fun h => Nat.ne_of_gt hgt h.2.2
  · rw [if_neg fun heq => hn heq.1]
    exact (or_iff_left fun h => hn h.1).symm

theorem numberNamed?_withKind (hm : m.place < w.managers.length) (k : KindId) (n : ManagerId)
    (name : String) : (w.withKind m k).numberNamed? n name =
      if n = m ∧ name = w.kindName k then some (w.manager m).kinds.length
      else w.numberNamed? n name := by
  unfold numberNamed?
  rw [manager_withKind]
  by_cases hn : n = m
  · subst hn
    rw [if_pos ⟨rfl, hm⟩]
    dsimp only
    by_cases hname : name = w.kindName k
    · rw [if_pos ⟨rfl, hname⟩, hname, List.lookup_cons_self]
    · rw [if_neg fun h => hname h.2, List.lookup_cons, beq_false_of_ne hname]
  · rw [if_neg fun heq => hn heq.1, if_neg fun heq => hn heq.1]

theorem attachment_withKind (hk : k.place < w.kinds.length) (hnew : (w.kind k).attachment = none)
    (m n : ManagerId) (i : Nat) (j : KindId) :
    ((w.withKind m k).kind j).attachment = some ⟨i, .manager n⟩ ↔
      (w.kind j).attachment = some ⟨i, .manager n⟩ ∨
        n = m ∧ j = k ∧ i = (w.manager m).kinds.length := by
  rw [kind_withKind hk]
  by_cases hj : j = k
  · rw [if_pos hj, hj, hnew]
    simp [eq_comm, and_comm]
  · rw [if_neg hj]
    exact (or_iff_left fun h => hj h.2.1).symm

theorem Enrolled.withKind (hw : w.Enrolled) (hm : m.place < w.managers.length)
    (hk : k.place < w.kinds.length) (hnew : (w.kind k).attachment = none)
    (hfree : ∀ j ∈ (w.manager m).kinds, w.kindName j ≠ w.kindName k) :
    (w.withKind m k).Enrolled where
  numbered n i j := by
    rw [getElem?_kinds_withKind hm, attachment_withKind hk hnew, hw.numbered]
  tabled n name i := by
    simp only [getElem?_kinds_withKind hm, kindName_withKind]
    rw [numberNamed?_withKind hm]
    split
    · rename_i hthis
      obtain ⟨rfl, rfl⟩ := hthis
      constructor
      · intro h
        exact ⟨k, Or.inr ⟨rfl, rfl, (Option.some.inj h).symm⟩, rfl⟩
      · rintro ⟨j, hj | ⟨-, -, rfl⟩, hname⟩
        · exact absurd hname (hfree j (List.mem_of_getElem? hj))
        · rfl
    · rename_i hother
      rw [hw.tabled]
      refine exists_congr fun j => and_congr_left fun hname => (or_iff_left ?_).symm
      rintro ⟨rfl, rfl, -⟩
      exact hother ⟨rfl, hname.symm⟩

/-! ## What the numbers and the names are for -/

/-- A kind is found under its number if and only if it is one of the manager's own. -/
theorem Enrolled.isRegistered_iff (hw : w.Enrolled) :
    w.isRegistered m k = true ↔ k ∈ (w.manager m).kinds := by
  refine ⟨mem_kinds_of_isRegistered, fun hk => ?_⟩
  obtain ⟨i, hi⟩ := List.getElem?_of_mem hk
  have hnumber : (w.kind k).number? = some i := by
    unfold Kind.number?
    rw [(hw.numbered m i k).1 hi]
    rfl
  unfold isRegistered
  rw [hnumber]
  exact decide_eq_true hi

theorem Enrolled.not_isRegistered_iff (hw : w.Enrolled) :
    w.isRegistered m k = false ↔ k ∉ (w.manager m).kinds := by
  rw [← hw.isRegistered_iff, Bool.not_eq_true]

/-- No kind belongs to two managers. -/
theorem Enrolled.manager_unique (hw : w.Enrolled) (hm : k ∈ (w.manager m).kinds)
    (hn : k ∈ (w.manager n).kinds) : m = n := by
  obtain ⟨i, hi⟩ := hw.attached hm
  obtain ⟨j, hj⟩ := hw.attached hn
  rw [hi] at hj
  cases hj
  rfl

/-- A kind is found by its name. -/
theorem Enrolled.kindNamed?_eq_some (hw : w.Enrolled) {name : String} :
    w.kindNamed? m name = some k ↔ k ∈ (w.manager m).kinds ∧ w.kindName k = name := by
  unfold kindNamed?
  rw [Option.bind_eq_some_iff]
  constructor
  · rintro ⟨i, hi, hk⟩
    obtain ⟨j, hj, rfl⟩ := (hw.tabled m name i).1 hi
    rw [hk] at hj
    cases hj
    exact ⟨List.mem_of_getElem? hk, rfl⟩
  · rintro ⟨hk, rfl⟩
    obtain ⟨i, hi⟩ := List.getElem?_of_mem hk
    exact ⟨i, (hw.tabled m _ i).2 ⟨k, hi, rfl⟩, hi⟩

theorem Enrolled.kindNamed?_eq_none (hw : w.Enrolled) {name : String} :
    w.kindNamed? m name = none ↔ ∀ j ∈ (w.manager m).kinds, w.kindName j ≠ name := by
  rw [Option.eq_none_iff_forall_ne_some]
  refine forall_congr' fun j => ?_
  rw [Ne, hw.kindNamed?_eq_some, not_and]

theorem Enrolled.lookUp_eq_ok (hw : w.Enrolled) {name : String} :
    w.lookUp m name = .ok k ↔ k ∈ (w.manager m).kinds ∧ w.kindName k = name := by
  rw [← hw.kindNamed?_eq_some]
  unfold lookUp
  cases w.kindNamed? m name with
  | none => exact iff_of_false nofun nofun
  | some j => exact ⟨fun h => congrArg some (Except.ok.inj h), fun h => congrArg _ (Option.some.inj h)⟩

theorem Enrolled.lookUp_eq_error (hw : w.Enrolled) {name : String} {cause : ManagerError} :
    w.lookUp m name = .error cause ↔
      cause = .unregisteredKind name ∧ ∀ j ∈ (w.manager m).kinds, w.kindName j ≠ name := by
  rw [← hw.kindNamed?_eq_none]
  unfold lookUp
  cases w.kindNamed? m name with
  | none => exact ⟨fun h => ⟨(Except.error.inj h).symm, rfl⟩, fun h => congrArg _ h.1.symm⟩
  | some j => exact iff_of_false nofun fun h => nomatch h.2

/-! ## What comes of a registration -/

theorem Enrolled.registration (hw : w.Enrolled) (m : ManagerId) (k : KindId) :
    Registration w m k (w.registerKind m k).1 (w.registerKind m k).2 := by
  unfold registerKind
  dsimp only
  split
  · rename_i hlife
    exact .closed hlife
  · rename_i hlife
    have hsetup := Classical.not_not.1 hlife
    cases hnumber : w.numberNamed? m (w.kindName k) with
    | some i =>
        obtain ⟨j, hj, hname⟩ := (hw.tabled m _ i).1 hnumber
        exact .taken hsetup j (List.mem_of_getElem? hj) hname
    | none =>
        have hfree : ∀ j ∈ (w.manager m).kinds, w.kindName j ≠ w.kindName k := by
          intro j hj hname
          obtain ⟨i, hi⟩ := List.getElem?_of_mem hj
          rw [(hw.tabled m _ i).2 ⟨j, hi, hname⟩] at hnumber
          cases hnumber
        rw [if_neg (by simp)]
        unfold attach
        cases hattached : (w.kind k).attachment with
        | some a => exact .attached hsetup hfree a hattached
        | none => exact .granted hsetup hfree hattached

/-- A kind that is attached to nobody can be registered wherever its name is free. -/
theorem Enrolled.registerKind_eq_ok (hw : w.Enrolled) (hlife : (w.manager m).lifecycle = .setup)
    (hfree : ∀ j ∈ (w.manager m).kinds, w.kindName j ≠ w.kindName k)
    (hnew : (w.kind k).attachment = none) :
    w.registerKind m k = (w.withKind m k, .ok (w.manager m).kinds.length) := by
  have hregistration := hw.registration m k
  generalize w.registerKind m k = result at hregistration
  obtain ⟨v, answer⟩ := result
  dsimp only at hregistration
  cases hregistration with
  | closed hover => exact absurd hlife hover
  | taken _ j hj hname => exact absurd hname (hfree j hj)
  | attached _ _ a hattached =>
      rw [hnew] at hattached
      cases hattached
  | granted => rfl

/-! ## Kinds of others -/

section Foreign

variable {e : EntityId} {kinds required forbidden : List KindId} {name : String}

/-- A kind is refused if and only if it is none of the manager's own. -/
theorem Enrolled.changeFault?_foreign_iff (hw : w.Enrolled) :
    w.changeFault? m e k = some (.unregisteredKind name) ↔
      k ∉ (w.manager m).kinds ∧ w.kindName k = name := by
  rw [← hw.not_isRegistered_iff]
  unfold changeFault?
  cases w.isRegistered m k with
  | true =>
      refine iff_of_false ?_ fun h => Bool.noConfusion h.1
      cases w.isAlive m e <;> exact nofun
  | false => simp

theorem Enrolled.addComponent_foreign_iff (hw : w.Enrolled) :
    (w.addComponent m e k).2 = .error (.unregisteredKind name) ↔
      k ∉ (w.manager m).kinds ∧ w.kindName k = name := by
  rw [← hw.changeFault?_foreign_iff (e := e)]
  unfold addComponent
  cases w.changeFault? m e k with
  | some fault => simp
  | none =>
      -- whatever the store answers, it is an answer of the store
      dsimp only
      cases (w.addHolder k e).2 with
      | error cause => exact iff_of_false nofun nofun
      | ok done => exact iff_of_false nofun nofun

theorem Enrolled.removeComponent_foreign_iff (hw : w.Enrolled) :
    (w.removeComponent m e k).2 = .error (.unregisteredKind name) ↔
      k ∉ (w.manager m).kinds ∧ w.kindName k = name := by
  rw [← hw.changeFault?_foreign_iff (e := e)]
  unfold removeComponent
  cases w.changeFault? m e k with
  | some fault => simp
  | none => exact iff_of_false nofun nofun

/-- The kinds before one that is refused are the manager's own. -/
theorem Enrolled.openGroup_foreign_iff (hw : w.Enrolled) :
    (w.openGroup m required forbidden).2 = .error (.unregisteredKind name) ↔
      ∃ pre k post, required ++ forbidden = pre ++ k :: post ∧
        (∀ j ∈ pre, j ∈ (w.manager m).kinds) ∧ k ∉ (w.manager m).kinds ∧ w.kindName k = name := by
  have hfirst : ∀ k, w.stranger? m (required ++ forbidden) = some k ↔
      ∃ pre post, required ++ forbidden = pre ++ k :: post ∧
        (∀ j ∈ pre, j ∈ (w.manager m).kinds) ∧ k ∉ (w.manager m).kinds := by
    intro k
    unfold stranger?
    rw [List.find?_eq_some_iff_append]
    constructor
    · rintro ⟨hk, pre, post, hsplit, hpre⟩
      refine ⟨pre, post, hsplit, fun j hj => ?_, ?_⟩
      · exact hw.isRegistered_iff.1 (by simpa using hpre j hj)
      · exact hw.not_isRegistered_iff.1 (by simpa using hk)
    · rintro ⟨pre, post, hsplit, hpre, hk⟩
      refine ⟨?_, pre, post, hsplit, fun j hj => ?_⟩
      · simpa using hw.not_isRegistered_iff.2 hk
      · simpa using hw.isRegistered_iff.2 (hpre j hj)
  unfold openGroup
  cases hstranger : w.stranger? m (required ++ forbidden) with
  | some k =>
      dsimp only
      constructor
      · intro h
        cases h
        obtain ⟨pre, post, hsplit, hpre, hk⟩ := (hfirst k).1 hstranger
        exact ⟨pre, k, post, hsplit, hpre, hk, rfl⟩
      · rintro ⟨pre, j, post, hsplit, hpre, hj, rfl⟩
        have hsame := (hfirst j).2 ⟨pre, post, hsplit, hpre, hj⟩
        rw [hstranger] at hsame
        rw [Option.some.inj hsame]
  | none =>
      refine iff_of_false ?_ ?_
      · dsimp only
        split <;> nofun
      · rintro ⟨pre, j, post, hsplit, hpre, hj, -⟩
        rw [(hfirst j).2 ⟨pre, post, hsplit, hpre, hj⟩] at hstranger
        cases hstranger

theorem Enrolled.kindFault?_foreign_iff (hw : w.Enrolled) (earlier : List KindId) :
    w.kindFault? m earlier kinds = some (.unregisteredKind name) ↔
      ∃ pre k post, kinds = pre ++ k :: post ∧
        (∀ j ∈ pre, j ∈ (w.manager m).kinds ∧ j ∉ earlier) ∧ pre.Nodup ∧
          k ∉ (w.manager m).kinds ∧ w.kindName k = name := by
  induction kinds generalizing earlier with
  | nil =>
      refine iff_of_false (fun h => ?_) ?_
      · cases h
      · rintro ⟨pre, k, post, hsplit, -⟩
        simp at hsplit
  | cons first rest ih =>
      unfold kindFault?
      by_cases hfirst : first ∈ (w.manager m).kinds
      · rw [hw.isRegistered_iff.2 hfirst]
        show (if (!true) = true then _ else if _ then _ else _) = _ ↔ _
        rw [if_neg (by simp)]
        by_cases hearlier : first ∈ earlier
        · -- the first kind is refused as repeated, and no other is looked at
          rw [if_pos hearlier]
          refine iff_of_false (fun h => ?_) ?_
          · cases h
          · rintro ⟨pre, k, post, hsplit, hpre, -, hk, -⟩
            cases pre with
            | nil =>
                obtain ⟨rfl, -⟩ := List.cons.inj hsplit
                exact hk hfirst
            | cons j pre =>
                obtain ⟨rfl, -⟩ := List.cons.inj hsplit
                exact (hpre first List.mem_cons_self).2 hearlier
        · rw [if_neg hearlier, ih]
          constructor
          · rintro ⟨pre, k, post, rfl, hpre, hdistinct, hk, hname⟩
            refine ⟨first :: pre, k, post, rfl, ?_, ?_, hk, hname⟩
            · intro j hj
              rcases List.mem_cons.1 hj with rfl | hj
              · exact ⟨hfirst, hearlier⟩
              · exact ⟨(hpre j hj).1, fun h => (hpre j hj).2 (List.mem_append_left _ h)⟩
            · refine List.nodup_cons.2 ⟨fun h => (hpre first h).2 ?_, hdistinct⟩
              exact List.mem_append_right _ (List.mem_singleton.2 rfl)
          · rintro ⟨pre, k, post, hsplit, hpre, hdistinct, hk, hname⟩
            cases pre with
            | nil =>
                obtain ⟨rfl, -⟩ := List.cons.inj hsplit
                exact absurd hfirst hk
            | cons j pre =>
                obtain ⟨rfl, hrest⟩ := List.cons.inj hsplit
                obtain ⟨hnew, hdistinct⟩ := List.nodup_cons.1 hdistinct
                refine ⟨pre, k, post, hrest, fun j hj => ?_, hdistinct, hk, hname⟩
                refine ⟨(hpre j (List.mem_cons_of_mem _ hj)).1, fun h => ?_⟩
                rcases List.mem_append.1 h with hold | hlast
                · exact (hpre j (List.mem_cons_of_mem _ hj)).2 hold
                · rw [List.mem_singleton.1 hlast] at hj
                  exact hnew hj
      · rw [hw.not_isRegistered_iff.2 hfirst]
        show some (ManagerError.unregisteredKind (w.kindName first)) = _ ↔ _
        constructor
        · intro h
          cases h
          have hnone : ∀ j ∈ ([] : List KindId), j ∈ (w.manager m).kinds ∧ j ∉ earlier :=
            fun j hj => absurd hj List.not_mem_nil
          exact ⟨[], first, rest, rfl, hnone, List.nodup_nil, hfirst, rfl⟩
        · rintro ⟨pre, k, post, hsplit, hpre, -, -, rfl⟩
          cases pre with
          | nil =>
              obtain ⟨rfl, -⟩ := List.cons.inj hsplit
              rfl
          | cons j pre =>
              obtain ⟨rfl, -⟩ := List.cons.inj hsplit
              exact absurd (hpre first List.mem_cons_self).1 hfirst

/-- The kinds before one that is refused are the manager's own, and none of them comes twice. -/
theorem Enrolled.create_foreign_iff (hw : w.Enrolled) :
    (w.create m kinds).2 = .error (.unregisteredKind name) ↔
      (w.manager m).lifecycle ≠ .shutDown ∧ ∃ pre k post, kinds = pre ++ k :: post ∧
        (∀ j ∈ pre, j ∈ (w.manager m).kinds) ∧ pre.Nodup ∧ k ∉ (w.manager m).kinds ∧
          w.kindName k = name := by
  have hfault : w.kindFault? m [] kinds = some (.unregisteredKind name) ↔ _ :=
    hw.kindFault?_foreign_iff []
  simp only [List.not_mem_nil, not_false_eq_true, and_true] at hfault
  rw [← hfault]
  unfold create
  by_cases hover : (w.manager m).lifecycle = .shutDown
  · rw [if_pos hover]
    exact iff_of_false nofun fun h => h.1 hover
  · rw [if_neg hover, and_iff_right hover]
    cases hfound : w.kindFault? m [] kinds with
    | some fault => simp
    | none =>
        refine iff_of_false ?_ nofun
        dsimp only
        split
        · rename_i cause hcause
          rw [Allocator.allocate_eq_error hcause]
          exact nofun
        · split <;> exact nofun

end Foreign

end World

end EntityStore
