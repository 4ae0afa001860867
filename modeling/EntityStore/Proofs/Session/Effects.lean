import EntityStore.Proofs.Session.Moves
import EntityStore.Proofs.World.Groups

/-!
# What moves do to holders, live ids and groups

Of the many moves of a session only a few bear on who holds what, who is live and who belongs to a
group.  `Effect` lists these few, and `effect_of_move` sorts the moves into them.

The first law that is drawn from it: every world that a session comes to is wired
(`wired_of_reachesUnder`), if only kinds that were made are registered.
-/

namespace EntityStore

variable [Host]

open World

variable {rule : Rule} {w v : World}

/-! ## Moves that bear on nobody -/

theorem Store.holders_addField (s : Store) (name : String) (type : ValueType)
    (default : type.Carrier) : (s.addField name type default).1.holders = s.holders := by
  unfold Store.addField
  split
  · rfl
  · dsimp only
    split <;> rfl

theorem calm_of_same_managers (hmanagers : v.managers = w.managers) (hpacked : w.Packed → v.Packed)
    (hholds : ∀ k e, v.holds k e = w.holds k e)
    (hattached : ∀ k number m, (v.kind k).attachment = some ⟨number, .manager m⟩ ↔
      (w.kind k).attachment = some ⟨number, .manager m⟩) : Calm w v := by
  have hmanager : ∀ m, v.manager m = w.manager m := by
    intro m
    unfold World.manager
    rw [hmanagers]
  refine
    { packed := hpacked
      holds := hholds
      attached := hattached
      present := fun m hm => Or.inl (by rw [← hmanager]; exact hm)
      kinds := fun m => by rw [hmanager]
      groups := fun m g hg => ⟨g, by rw [← hmanager]; exact hg, rfl, rfl, id⟩
      alive := ?_ }
  intro m e
  unfold World.isAlive
  rw [hmanager]

theorem calm_refl (w : World) : Calm w w :=
  calm_of_same_managers rfl id (fun _ _ => rfl) fun _ _ _ => Iff.rfl

theorem World.Calm.trans {u : World} (h : Calm w v) (g : Calm v u) : Calm w u where
  packed hw := g.packed (h.packed hw)
  holds k e := (g.holds k e).trans (h.holds k e)
  attached k number m := (g.attached k number m).trans (h.attached k number m)
  present m hm := by
    -- a manager of the last world was there before, or is new; a new one is new from here too
    rcases g.present m hm with hpresent | hnone
    · rcases h.present m hpresent with hpresent | ⟨hkinds, hgroups⟩
      · exact Or.inl hpresent
      · refine Or.inr ⟨(g.kinds m).trans hkinds, List.eq_nil_iff_forall_not_mem.2 ?_⟩
        intro group hgroup
        obtain ⟨old, hold, -⟩ := g.groups m group hgroup
        rw [hgroups] at hold
        cases hold
    · exact Or.inr hnone
  kinds m := (g.kinds m).trans (h.kinds m)
  groups m group hgroup := by
    obtain ⟨mid, hmid, hfilter, hmembers, hcoherent⟩ := g.groups m group hgroup
    obtain ⟨old, hold, hfilter', hmembers', hcoherent'⟩ := h.groups m mid hmid
    exact ⟨old, hold, hfilter.trans hfilter', hmembers.trans hmembers', hcoherent ∘ hcoherent'⟩
  alive m e := (g.alive m e).trans (h.alive m e)

/-- A store that has changed but has its holders. -/
theorem calm_setStore {k : KindId} {store : Store} (hpacked : store.Packed)
    (hholders : store.holders = (w.kind k).store.holders) : Calm w (w.setStore k store) := by
  refine calm_of_same_managers rfl (fun hw => packed_setStore hw k hpacked) ?_ ?_
  · intro j e
    rw [Bool.eq_iff_iff, holds_eq_true, holds_eq_true, kind_setStore]
    split
    · rename_i hj
      rw [hj.1]
      show e ∈ store.holders ↔ _
      rw [hholders]
    · rfl
  · intro j number m
    rw [kind_setStore]
    split
    · rename_i hj
      rw [hj.1]
    · rfl

theorem calm_declare (hw : w.Packed) (k : KindId) (name : String) (type : ValueType)
    (default : type.Carrier) (bounds : Option (Bounds type.Carrier)) :
    Calm w (w.declare k name type default bounds).1 := by
  have hset : (w.declare k name type default bounds).1 =
      w.setStore k (Property.declare (w.kind k).store name type default bounds).1 := by
    unfold World.declare
    dsimp only
    split <;> rfl
  rw [hset]
  exact calm_setStore (Store.packed_addField (hw k) name type _)
    (Store.holders_addField _ name type _)

theorem calm_setValue (hw : w.Packed) (k : KindId) (p : Property) (e : EntityId)
    (x : p.type.Carrier) : Calm w (w.setValue k p e x).1 := by
  have hstep := Store.rewritten_set (hw k) p e x
  rw [World.setValue_world]
  exact calm_setStore (hstep.packed (hw k)) hstep.holders

/-- A kind that is made is held by nobody, as before. -/
theorem calm_makeKind (w : World) (name : String) (config : StoreConfig) :
    Calm w (w.makeKind name config).1 := by
  unfold World.makeKind
  split
  · exact calm_refl w
  · have hkind : ∀ j, ({ w with kinds := w.kinds ++ [Kind.make name config] } : World).kind j =
        if j.place = w.kinds.length then Kind.make name config else w.kind j :=
      fun j => getD_concat _ _ j.place _
    -- the place of the new kind was read as the absent kind before
    have habsent : ∀ j : KindId, j.place = w.kinds.length → w.kind j = Kind.absent :=
      fun j hj => kind_of_length_le (Nat.le_of_eq hj.symm)
    refine calm_of_same_managers rfl ?_ ?_ ?_
    · intro hw j
      rw [hkind]
      split
      · exact Store.packed_empty name config
      · exact hw j
    · intro j e
      unfold World.holds
      rw [hkind]
      split
      · rename_i hj
        rw [habsent j hj]
        rfl
      · rfl
    · intro j number m
      rw [hkind]
      split
      · rename_i hj
        rw [habsent j hj]
        rfl
      · rfl

theorem calm_attach (w : World) (k : KindId) (number : Nat) (o : ObserverId) :
    Calm w (w.attach k ⟨number, .outside o⟩).1 := by
  unfold World.attach
  split
  · exact calm_refl w
  · rename_i hunattached
    refine calm_of_same_managers rfl ?_ ?_ ?_
    · intro hw j
      dsimp only
      rw [kind_updateKind]
      split
      · exact hw k
      · exact hw j
    · intro j e
      unfold World.holds
      dsimp only
      rw [kind_updateKind]
      split
      · rename_i hj
        rw [hj.1]
      · rfl
    · intro j other m
      dsimp only
      rw [kind_updateKind]
      split
      · rename_i hj
        rw [hj.1, hunattached]
        constructor
        · exact nofun
        · exact nofun
      · rfl

/-- A manager that is made has neither kinds nor groups, and nobody is live in it. -/
theorem calm_makeManager (w : World) (config : ManagerConfig) :
    Calm w (w.makeManager config).1 := by
  unfold World.makeManager
  split
  · exact calm_refl w
  · have hmanager : ∀ n,
        ({ w with managers := w.managers ++ [Manager.ofConfig config] } : World).manager n =
          if n.place = w.managers.length then Manager.ofConfig config else w.manager n :=
      fun n => getD_concat _ _ n.place _
    -- likewise the place of the new manager
    have habsent : ∀ n : ManagerId, n.place = w.managers.length → w.manager n = Manager.absent :=
      fun n hn => manager_of_length_le (Nat.le_of_eq hn.symm)
    refine
      { packed := fun h => h
        holds := fun _ _ => rfl
        attached := fun _ _ _ => Iff.rfl
        present := ?_
        kinds := ?_
        groups := ?_
        alive := ?_ }
    · intro n hn
      rw [hmanager] at hn ⊢
      by_cases hnew : n.place = w.managers.length
      · rw [if_pos hnew]
        exact Or.inr ⟨rfl, rfl⟩
      · rw [if_neg hnew] at hn
        exact Or.inl hn
    · intro n
      rw [hmanager]
      split
      · rename_i hn
        rw [habsent n hn]
        rfl
      · rfl
    · intro n g hg
      rw [hmanager] at hg
      split at hg
      · cases hg
      · exact ⟨g, hg, rfl, rfl, id⟩
    · intro n e
      unfold World.isAlive
      rw [hmanager]
      split
      · rename_i hn
        rw [habsent n hn]
        rfl
      · rfl

/-- Another group in the place of one of the same filter and members. -/
theorem calm_updateGroup {g : GroupRef} {new : Group} (hfilter : new.filter = (w.group g).filter)
    (hmembers : new.members = (w.group g).members)
    (hcoherent : (w.group g).Coherent → new.Coherent) :
    Calm w (w.updateGroup g fun _ => new) := by
  unfold World.updateGroup
  refine calm_updateManager id rfl rfl ?_
  intro found hfound
  -- a group of the new list stands at the changed number, or is one of the old ones
  obtain ⟨i, hi⟩ := List.getElem?_of_mem hfound
  rw [List.getElem?_modify] at hi
  split at hi
  · rename_i hnumber
    obtain ⟨old, hold, rfl⟩ := Option.map_eq_some_iff.1 hi
    have hgroup : w.group g = old := by
      unfold World.group Manager.group
      rw [List.getD_eq_getElem?_getD, hnumber, hold]
      rfl
    rw [hgroup] at hfilter hmembers hcoherent
    exact ⟨old, List.mem_of_getElem? hold, hfilter, hmembers, hcoherent⟩
  · obtain ⟨old, hold, rfl⟩ := Option.map_eq_some_iff.1 hi
    exact ⟨old, List.mem_of_getElem? hold, rfl, rfl, id⟩

theorem calm_listen (w : World) (g : GroupRef) (l : ListenerId) : Calm w (w.listen g l).1 := by
  unfold World.listen
  split
  · rename_i group hgroup
    unfold Group.listen at hgroup
    split at hgroup
    · cases hgroup
    · cases hgroup
      exact calm_updateGroup rfl rfl fun h => ⟨h.added, h.removed⟩
  · exact calm_refl w

theorem calm_unlisten (w : World) (g : GroupRef) (l : ListenerId) : Calm w (w.unlisten g l).1 :=
  calm_updateGroup rfl rfl fun h => ⟨h.added, h.removed⟩

/-- What is undelivered is forgotten, and the members stay. -/
theorem calm_takeNews (w : World) (g : GroupRef) : Calm w (w.takeNews g).1 := by
  refine calm_updateGroup rfl rfl fun _ => ⟨?_, ?_⟩
  · exact fun e he => absurd he (IdSet.not_mem_empty e)
  · exact fun e he => absurd he (IdSet.not_mem_empty e)

/-! ## Moves that bear on somebody -/

/-- What a move can do to holders, live ids and groups. -/
inductive Effect (rule : Rule) (w : World) : World → Prop where
  /-- Nothing. -/
  | calm {v : World} (h : Calm w v) : Effect rule w v
  /-- One entity has gained or lost one kind: it held it, or was given it by a request that follows
  the rule, or through the manager in which it is live. -/
  | changed {v : World} (k : KindId) (e : EntityId) (htracks : Tracks (w.audience k) e [k] w v)
      (hpacked : v.Packed)
      (hcause : w.holds k e = true ∨ rule w (.addHolder k e) ∨
        ∃ m, k ∈ (w.manager m).kinds ∧ w.isAlive m e = true) : Effect rule w v
  /-- A manager has one more kind. -/
  | registered (m : ManagerId) (k : KindId) (hm : m.place < w.managers.length)
      (hnew : (w.kind k).attachment = none)
      (h : rule w (.registerKind m k)) : Effect rule w (w.withKind m k)
  /-- An entity was made, or not. -/
  | created (m : ManagerId) (kinds : List KindId) (h : rule w (.create m kinds)) :
      Effect rule w (w.create m kinds).1
  /-- A manager has one more group. -/
  | opened (m : ManagerId) (f : Filter)
      (hknown : ∀ k, f.mentions k = true → k ∈ (w.manager m).kinds) :
      Effect rule w (w.withGroup m (w.seededGroup m f))
  /-- A removal was carried out. -/
  | removed (m : ManagerId) (e : EntityId) : Effect rule w (w.removeDue m e)

theorem calm_of_tracks_nil {audience : Option ManagerId} {e : EntityId}
    (h : Tracks audience e [] w v) (hpacked : v.Packed) : Calm w v := by
  have hgroups : ∀ m, (v.manager m).groups = (w.manager m).groups := by
    intro m
    by_cases hm : audience = some m
    · rw [h.told m hm]
      simp
    · rw [h.untold m hm]
  refine
    { packed := fun _ => hpacked
      holds := fun k x => h.holds_eq (Or.inr List.not_mem_nil)
      attached := ?_
      present := fun m hm => Or.inl (by rw [← h.retired_eq]; exact hm)
      kinds := h.kinds_eq
      groups := fun m g hg => ⟨g, by rw [← hgroups]; exact hg, rfl, rfl, id⟩
      alive := h.isAlive_eq }
  intro k number m
  rw [h.attachment]

theorem setStore_of_absent {k : KindId} (h : w.kinds.length ≤ k.place) (store : Store) :
    w.setStore k store = w := by
  unfold setStore updateKind
  rw [List.modify_eq_self h]

/-- A kind that was never made cannot be given. -/
theorem addHolder_of_absent {k : KindId} (h : w.kinds.length ≤ k.place) (e : EntityId) :
    (w.addHolder k e).1 = w := by
  have hsilent : w.audience k = none := by
    unfold audience
    rw [kind_of_length_le h]
    rfl
  cases hresult : (w.kind k).store.insert Host.machine e with
  | mk store result =>
      cases result with
      | error cause => rw [addHolder_of_error hresult, setStore_of_absent h]
      | ok done => rw [addHolder_of_ok hresult, setStore_of_absent h, informGroups_of_none hsilent]

theorem effect_addHolder (hw : w.Packed) {k : KindId} {e : EntityId}
    (hcause : rule w (.addHolder k e) ∨ ∃ m, k ∈ (w.manager m).kinds ∧ w.isAlive m e = true) :
    Effect rule w (w.addHolder k e).1 := by
  -- a kind that was never made has no store that could take the entity
  rcases Nat.lt_or_ge k.place w.kinds.length with hk | habsent
  · have hpacked := packed_addHolder hw k e
    cases hresult : w.addHolder k e with
    | mk u result =>
        rw [hresult] at hpacked
        cases result with
        | error cause => exact .calm (calm_of_tracks_nil (addHolder_error hw hresult none) hpacked)
        | ok done =>
            obtain ⟨-, -, htracks⟩ := addHolder_ok hw hk hresult
            exact .changed k e htracks hpacked (Or.inr hcause)
  · rw [addHolder_of_absent habsent]
    exact .calm (calm_refl w)

theorem effect_removeHolder (hw : w.Packed) (k : KindId) (e : EntityId) :
    Effect rule w (w.removeHolder k e).1 := by
  have hpacked := packed_removeHolder hw k e
  cases hresult : w.removeHolder k e with
  | mk u held =>
      rw [hresult] at hpacked
      cases held with
      | false =>
          obtain ⟨-, rfl⟩ := removeHolder_false hresult
          exact .calm (calm_refl u)
      | true =>
          obtain ⟨hheld, -, htracks⟩ := removeHolder_true hw hresult
          exact .changed k e htracks hpacked (Or.inl hheld)

theorem changeFault?_eq_none {m : ManagerId} {e : EntityId} {k : KindId}
    (h : w.changeFault? m e k = none) : k ∈ (w.manager m).kinds ∧ w.isAlive m e = true := by
  unfold changeFault? at h
  split at h
  · cases h
  · rename_i hregistered
    split at h
    · cases h
    · rename_i hlive
      exact ⟨mem_kinds_of_isRegistered (by simpa using hregistered), by simpa using hlive⟩

/-- What a move does, as far as holders, live ids and groups go. -/
theorem effect_of_move (hw : w.Packed) (h : Move rule w v) : Effect rule w v := by
  cases h with
  | makeKind name config => exact .calm (calm_makeKind w name config)
  | declare k name type default bounds => exact .calm (calm_declare hw k name type default bounds)
  | setValue k p e x => exact .calm (calm_setValue hw k p e x)
  | addHolder k e hrule => exact effect_addHolder hw (Or.inl hrule)
  | removeHolder k e hrule => exact effect_removeHolder hw k e
  | attach k number o hrule => exact .calm (calm_attach w k number o)
  | makeManager config => exact .calm (calm_makeManager w config)
  | retire m => exact .calm (calm_of_same_groups nofun rfl rfl rfl)
  | registerKind m k hrule =>
      rcases registered_or_same w m k with hsame | ⟨hm, hnew, hkind⟩
      · rw [hsame]
        exact .calm (calm_refl w)
      · rw [hkind]
        exact .registered m k hm hnew hrule
  | registerProcessor m p hrule =>
      unfold registerProcessor
      split
      · exact .calm (calm_refl w)
      · split
        · exact .calm (calm_refl w)
        · have hmade : Calm w { w with processors := w.processors ++ [p] } :=
            calm_of_same_managers rfl id (fun _ _ => rfl) fun _ _ _ => Iff.rfl
          exact .calm (hmade.trans (calm_of_same_groups id rfl rfl rfl))
  | create m kinds hrule => exact .created m kinds hrule
  | scheduleRemoval m e hrule =>
      exact .calm (calm_of_same_groups id rfl rfl rfl)
  | addComponent m e k hrule =>
      unfold addComponent
      split
      · exact .calm (calm_refl w)
      · rename_i hfault
        exact effect_addHolder hw (Or.inr ⟨m, changeFault?_eq_none hfault⟩)
  | removeComponent m e k hrule =>
      unfold removeComponent
      split
      · exact .calm (calm_refl w)
      · exact effect_removeHolder hw k e
  | openGroup m required forbidden =>
      rcases opened_or_same w m required forbidden with hsame | ⟨hknown, hgroup⟩
      · rw [hsame]
        exact .calm (calm_refl w)
      · rw [hgroup]
        exact .opened m _ hknown
  | listen g l => exact .calm (calm_listen w g l)
  | unlisten g l => exact .calm (calm_unlisten w g l)
  | takeNews g => exact .calm (calm_takeNews w g)
  | removeDue m e hdue => exact .removed m e
  | countInit m => exact .calm (calm_of_same_groups id rfl rfl rfl)
  | setLifecycle m life =>
      exact .calm (calm_of_same_groups id rfl rfl rfl)
  | elsewhere v hkinds hmanagers hprocessors =>
      have hkind : ∀ k, v.kind k = w.kind k := by
        intro k
        unfold World.kind
        rw [hkinds]
      refine .calm (calm_of_same_managers hmanagers ?_ ?_ ?_)
      · intro hpacked k
        rw [hkind]
        exact hpacked k
      · intro k e
        unfold World.holds
        rw [hkind]
      · intro k number m
        rw [hkind]

/-! ## Every world is wired -/

/-- Only kinds that were made are registered. -/
def KindsMade : Rule
  | w, .registerKind _ k => k.place < w.kinds.length
  | _, _ => True

instance (w : World) (r : Request) : Decidable (KindsMade w r) := by
  cases r with
  | registerKind m k => exact inferInstanceAs (Decidable (k.place < w.kinds.length))
  | _ => exact isTrue True.intro

theorem World.Wired.effect (hw : w.Wired)
    (hmade : ∀ m k, rule w (.registerKind m k) → k.place < w.kinds.length) (h : Effect rule w v) :
    v.Wired := by
  cases h with
  | calm hcalm => exact hw.quiet hcalm.toQuiet
  | changed k e htracks hpacked hcause =>
      refine hw.tracks htracks ?_ hpacked
      intro j hj
      rw [List.mem_singleton.1 hj]
  | registered m k hm hnew hrule => exact hw.withKind hm (hmade m k hrule) hnew
  | created m kinds hrule => exact hw.create m kinds
  | opened m f hknown => exact hw.withGroup hknown
  | removed m e => exact hw.removeDue m e

theorem wired_empty : World.empty.Wired where
  packed _ := Store.packed_empty _ _
  coherent _ _ hg := absurd hg List.not_mem_nil
  attached _ _ hk := absurd hk List.not_mem_nil
  listed _ _ _ hattached := nomatch hattached
  known _ _ hg := absurd hg List.not_mem_nil
  sound _ _ _ hg := absurd hg List.not_mem_nil

theorem World.Wired.moves (hw : w.Wired)
    (hmade : ∀ w m k, rule w (.registerKind m k) → k.place < w.kinds.length)
    (h : Moves rule w v) : v.Wired :=
  h.preserves (fun move hwired => hwired.effect (hmade _) (effect_of_move hwired.packed move)) hw

/-- Whatever code outside does, every world that a session comes to is wired. -/
theorem Session.wired_of_reachesUnder {s : Session}
    (hmade : ∀ w m k, rule w (.registerKind m k) → k.place < w.kinds.length)
    (h : Session.ReachesUnder rule .start s) : s.world.Wired :=
  wired_empty.moves hmade (Session.moves_of_reachesUnder h)

end EntityStore
