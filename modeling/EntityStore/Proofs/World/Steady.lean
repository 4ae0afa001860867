import EntityStore.Proofs.World.Listening
import EntityStore.Proofs.World.Membership

/-!
# What a manager keeps between its ticks

Only the end of a tick takes something from a manager: ids that are due are no longer live, and the
news of its groups is handed out.  Whatever else is done to a world, to this manager or to another
one, leaves it all there.  `Steady m asked w v` says so of two worlds:

* who is live stays live, and what is due stays due;
* nothing becomes due but what is asked for;
* the undelivered change of every group is counted from the same members as before.

The other main results:

* `isAlive_create`: a creation makes one id live, the one that it answers.
* `endTick_ids`: the end of a tick removes who is due, and nobody is due after it.
-/

namespace EntityStore.World

variable [Host] {w v u : World} {m n : ManagerId} {asked others : EntityId → Prop}

/-- The ids of a manager after a change in which no tick of it has ended. -/
structure Lasting (m : ManagerId) (asked : EntityId → Prop) (w v : World) : Prop where
  /-- Who is live stays live. -/
  live : ∀ x, w.isAlive m x = true → v.isAlive m x = true
  /-- What is due stays due, and what is asked for becomes so. -/
  pending : ∀ x, x ∈ (v.manager m).pending ↔ x ∈ (w.manager m).pending ∨ asked x

/-- The ids and the groups of a manager after a change in which nothing was taken from it. -/
structure Steady (m : ManagerId) (asked : EntityId → Prop) (w v : World) : Prop
    extends Lasting m asked w v where
  /-- Every group is still there. -/
  count : (w.manager m).groups.length ≤ (v.manager m).groups.length
  /-- The undelivered change of a group is counted from the same members as before. -/
  news : ∀ g, g.manager = m → g.number < (w.manager m).groups.length →
    ∀ base, Group.Since base (w.group g) → Group.Since base (v.group g)

/-- Nothing is asked for. -/
abbrev nothing : EntityId → Prop := fun _ => False

theorem Steady.refl (m : ManagerId) (w : World) : Steady m nothing w w where
  live _ hx := hx
  pending x := by simp
  count := Nat.le_refl _
  news _ _ _ _ hsince := hsince

theorem Lasting.trans (h : Lasting m asked w v) (k : Lasting m others v u) :
    Lasting m (fun x => asked x ∨ others x) w u where
  live x hx := k.live x (h.live x hx)
  pending x := by rw [k.pending, h.pending, or_assoc]

theorem Steady.trans (h : Steady m asked w v) (k : Steady m others v u) :
    Steady m (fun x => asked x ∨ others x) w u where
  toLasting := h.toLasting.trans k.toLasting
  count := Nat.le_trans h.count k.count
  news g hg hnumber base hsince :=
    k.news g hg (Nat.lt_of_lt_of_le hnumber h.count) base (h.news g hg hnumber base hsince)

/-- What is asked for may be said in other words. -/
theorem Lasting.congr (h : Lasting m asked w v) (hasked : ∀ x, others x ↔ asked x) :
    Lasting m others w v where
  live := h.live
  pending x := by rw [h.pending, hasked]

theorem Steady.congr (h : Steady m asked w v) (hasked : ∀ x, others x ↔ asked x) :
    Steady m others w v where
  toLasting := h.toLasting.congr hasked
  count := h.count
  news := h.news

theorem Steady.andThen (h : Steady m nothing w v) (k : Steady m nothing v u) :
    Steady m nothing w u :=
  (h.trans k).congr fun x => by simp

/-! ## Changes that ask for nothing -/

/-- A change that leaves the ids of a manager, and its groups but for what they hear of and who
listens. -/
theorem steady_of_fields (hallocator : (v.manager m).allocator = (w.manager m).allocator)
    (hpending : (v.manager m).pending = (w.manager m).pending)
    (hcount : (w.manager m).groups.length ≤ (v.manager m).groups.length)
    (hnews : ∀ g, g.manager = m → g.number < (w.manager m).groups.length →
      ∀ base, Group.Since base (w.group g) → Group.Since base (v.group g)) :
    Steady m nothing w v where
  live x hx := by
    unfold isAlive
    rw [hallocator]
    exact hx
  pending x := by simp [hpending]
  count := hcount
  news := hnews

theorem steady_of_manager_eq (h : v.manager m = w.manager m) : Steady m nothing w v := by
  refine steady_of_fields (by rw [h]) (by rw [h]) (Nat.le_of_eq (by rw [h])) ?_
  rintro g rfl - base hsince
  unfold group
  rw [h]
  exact hsince

theorem steady_of_same_managers (h : v.managers = w.managers) (m : ManagerId) :
    Steady m nothing w v :=
  steady_of_manager_eq (manager_of_same_managers h m)

theorem steady_tells (h : Tells w v) (m : ManagerId) : Steady m nothing w v := by
  refine steady_of_fields ?_ ?_ (Nat.le_of_eq (h.length_groups m).symm) ?_
  · exact h.field_eq Manager.allocator (fun _ _ => rfl) m
  · exact h.field_eq Manager.pending (fun _ _ => rfl) m
  · exact fun g _ _ base hsince => (h.group g).since hsince

/-- A change of some manager that leaves its ids and its groups. -/
theorem steady_updateManager {change : Manager → Manager}
    (hallocator : ∀ manager, (change manager).allocator = manager.allocator)
    (hpending : ∀ manager, (change manager).pending = manager.pending)
    (hgroups : ∀ manager, (change manager).groups = manager.groups) (w : World)
    (n m : ManagerId) : Steady m nothing w (w.updateManager n change) := by
  have hsame := field_updateManager Manager.groups hgroups w n m
  refine steady_of_fields ?_ ?_ (Nat.le_of_eq (by rw [hsame])) ?_
  · exact field_updateManager Manager.allocator hallocator w n m
  · exact field_updateManager Manager.pending hpending w n m
  · intro g _ _ base hsince
    rw [group_updateManager hgroups]
    exact hsince

/-- A change of another manager. -/
theorem steady_updateManager_of_ne (hne : m ≠ n) (w : World) (change : Manager → Manager) :
    Steady m nothing w (w.updateManager n change) := by
  refine steady_of_manager_eq ?_
  rw [manager_updateManager, if_neg fun h => hne h.1]

/-- A change of one group after which its undelivered change is counted from the same members. -/
theorem steady_updateGroup (w : World) (h : GroupRef) (change : Group → Group) (m : ManagerId)
    (hchange : ∀ base, Group.Since base (w.group h) → Group.Since base (change (w.group h))) :
    Steady m nothing w (w.updateGroup h change) := by
  refine steady_of_fields ?_ ?_ (Nat.le_of_eq (sameCount_updateGroup w h change m).symm) ?_
  · refine field_updateManager Manager.allocator ?_ w h.manager m
    exact fun _ => rfl
  · refine field_updateManager Manager.pending ?_ w h.manager m
    exact fun _ => rfl
  · intro g _ _ base hsince
    rw [group_updateGroup]
    split
    · rename_i hg
      rw [hg.1] at hsince
      exact hchange base hsince
    · exact hsince

theorem steady_listen (w : World) (g : GroupRef) (l : ListenerId) (m : ManagerId) :
    Steady m nothing w (w.listen g l).1 := by
  unfold listen
  split
  · rename_i new hnew
    exact steady_updateGroup w g _ m fun base hsince => hsince.listened hnew
  · exact .refl m w

theorem steady_unlisten (w : World) (g : GroupRef) (l : ListenerId) (m : ManagerId) :
    Steady m nothing w (w.unlisten g l).1 :=
  steady_updateGroup w g _ m fun _ hsince => hsince.unlistened l

/-- A new manager has no ids and no groups, nor had its place before. -/
theorem steady_makeManager (w : World) (config : ManagerConfig) (m : ManagerId) :
    Steady m nothing w (w.makeManager config).1 := by
  unfold makeManager
  split
  · exact .refl m w
  · by_cases hplace : m.place = w.managers.length
    · have hbefore : w.manager m = Manager.absent :=
        manager_of_length_le (Nat.le_of_eq hplace.symm)
      have hafter : World.manager { w with managers := w.managers ++ [Manager.ofConfig config] } m =
          Manager.ofConfig config := by
        unfold manager
        dsimp only
        rw [getD_concat, if_pos hplace]
      constructor
      · constructor
        · intro x hx
          unfold isAlive at hx
          rw [hbefore] at hx
          cases hx
        · intro x
          rw [hafter, hbefore, or_false]
          exact Iff.rfl
      · rw [hbefore]
        exact Nat.zero_le _
      · intro g _ hnumber
        rw [hbefore] at hnumber
        exact absurd hnumber (Nat.not_lt_zero _)
    · refine steady_of_manager_eq ?_
      unfold manager
      dsimp only
      rw [getD_concat, if_neg hplace]

theorem steady_registerKind (w : World) (n : ManagerId) (k : KindId) (m : ManagerId) :
    Steady m nothing w (w.registerKind n k).1 := by
  rcases registered_or_same w n k with hsame | ⟨-, -, hkind⟩
  · rw [hsame]
    exact .refl m w
  · rw [hkind]
    have hattached : Steady m nothing w
        (w.updateKind k fun kind =>
          { kind with attachment := some ⟨(w.manager n).kinds.length, .manager n⟩ }) :=
      steady_of_same_managers (by rfl) m
    refine hattached.andThen (steady_updateManager ?_ ?_ ?_ _ n m)
    · exact fun _ => rfl
    · exact fun _ => rfl
    · exact fun _ => rfl

theorem steady_registerProcessor (w : World) (n : ManagerId) (p : Processor) (m : ManagerId) :
    Steady m nothing w (w.registerProcessor n p).1 := by
  unfold registerProcessor
  split
  · exact .refl m w
  · split
    · exact .refl m w
    · have hmade : Steady m nothing w { w with processors := w.processors ++ [p] } :=
        steady_of_same_managers (by rfl) m
      refine hmade.andThen (steady_updateManager ?_ ?_ ?_ _ n m)
      · exact fun _ => rfl
      · exact fun _ => rfl
      · exact fun _ => rfl

/-! ## Creation -/

/-- A creation makes one id live, the one that it answers. -/
theorem isAlive_create (w : World) (n : ManagerId) (kinds : List KindId) (m : ManagerId)
    (x : EntityId) : (w.create n kinds).1.isAlive m x = true ↔
      w.isAlive m x = true ∨ m = n ∧ (w.create n kinds).2 = .ok x := by
  have hcreation := creation w n kinds
  generalize w.create n kinds = result at hcreation ⊢
  obtain ⟨v, answer⟩ := result
  have hlive : ∀ {e a u given}, (w.withAllocator n a).equip e [] kinds = (u, given) →
      u.live = (w.withAllocator n a).live := by
    intro e a u given hequip
    have htells := tells_equip (w.withAllocator n a) e [] kinds
    rw [hequip] at htells
    funext j y
    unfold live isAlive
    rw [htells.field_eq Manager.allocator (fun _ _ => rfl)]
  cases hcreation with
  | refused cause => simp
  | undone e a u cause hmade hallocate _ _ hequip =>
      show (u.release n e).live m x ↔ w.live m x ∨ _
      rw [live_release_of_issued hmade hallocate (hlive hequip)]
      simp
  | made e a u hmade hallocate _ _ hequip =>
      show (u.updateGroups n _).isAlive m x = true ↔ _
      rw [isAlive_updateGroups]
      show u.live m x ↔ _
      rw [hlive hequip, live_withAllocator hmade hallocate, Except.ok.injEq, eq_comm (a := e)]
      exact Iff.rfl

/-- An id that is answered was not live before. -/
theorem not_isAlive_of_create {kinds : List KindId} {x : EntityId}
    (h : (w.create n kinds).2 = .ok x) : w.isAlive n x = false := by
  have hcreation := creation w n kinds
  rw [h] at hcreation
  generalize (w.create n kinds).1 = v at hcreation
  cases hcreation with
  | made e a u _ hallocate => exact Bool.eq_false_iff.2 (not_live_of_allocate hallocate)

theorem steady_create (w : World) (n : ManagerId) (kinds : List KindId) (m : ManagerId) :
    Steady m nothing w (w.create n kinds).1 := by
  constructor
  · constructor
    · exact fun x hx => (isAlive_create w n kinds m x).2 (Or.inl hx)
    · intro x
      rw [field_create Manager.pending (fun _ _ => rfl) (fun _ _ => rfl), or_false]
  · exact Nat.le_of_eq (sameCount_create w n kinds m).symm
  · exact fun g _ _ base hsince => (heard_create w n kinds g).since hsince

/-! ## Asking for a removal -/

/-- The removal of an id becomes due, and nothing else happens. -/
theorem steady_scheduleRemoval (w : World) (n : ManagerId) (e : EntityId) (m : ManagerId) :
    Steady m (fun x => m = n ∧ n.place < w.managers.length ∧ x = e) w (w.scheduleRemoval n e).1 := by
  have hgroups : ∀ j, ((w.scheduleRemoval n e).1.manager j).groups = (w.manager j).groups := by
    intro j
    refine field_updateManager Manager.groups ?_ w n j
    exact fun _ => rfl
  have hallocator : ((w.scheduleRemoval n e).1.manager m).allocator = (w.manager m).allocator := by
    refine field_updateManager Manager.allocator ?_ w n m
    exact fun _ => rfl
  constructor
  · constructor
    · intro x hx
      unfold isAlive
      rw [hallocator]
      exact hx
    · intro x
      unfold scheduleRemoval
      dsimp only
      rw [manager_updateManager]
      split
      · rename_i hm
        rw [IdSet.mem_insert]
        obtain ⟨rfl, hmade⟩ := hm
        simp [hmade, or_comm]
      · rename_i hm
        refine (or_iff_left ?_).symm
        rintro ⟨rfl, hmade, -⟩
        exact hm ⟨rfl, hmade⟩
  · exact Nat.le_of_eq (by rw [hgroups])
  · intro g _ _ base hsince
    unfold group Manager.group
    rw [hgroups]
    exact hsince

/-! ## Removal -/

/-- A removal takes one id. -/
theorem isAlive_removeDue (w : World) (n : ManagerId) (e : EntityId) (m : ManagerId)
    (x : EntityId) : (w.removeDue n e).isAlive m x = true ↔
      w.isAlive m x = true ∧ ¬ (m = n ∧ x = e) := by
  have hcleared : ∀ j y, (w.withoutDue n e).isAlive j y = w.isAlive j y :=
    (calm_withoutDue w n e).alive
  cases halive : w.isAlive n e with
  | false =>
      rw [removed_of_not_alive halive, hcleared]
      refine (and_iff_left_of_imp ?_).symm
      rintro hx ⟨rfl, rfl⟩
      rw [hx] at halive
      cases halive
  | true =>
      have hlive := (hcleared n e).trans halive
      have htells := tells_strip (w.withoutDue n e) e ((w.withoutDue n e).manager n).kinds
      unfold removeDue
      dsimp only
      unfold withoutDue at hlive htells hcleared
      rw [if_pos hlive]
      show World.live (release _ n e) m x ↔ _
      rw [live_release, live_updateGroups]
      refine and_congr_left fun _ => ?_
      unfold live
      rw [← hcleared]
      unfold isAlive
      rw [htells.field_eq Manager.allocator (fun _ _ => rfl)]

theorem mem_pending_removeDue_iff (hmade : n.place < w.managers.length) (e x : EntityId) :
    x ∈ ((w.removeDue n e).manager n).pending ↔ x ∈ (w.manager n).pending ∧ x ≠ e := by
  rw [field_removeDue Manager.pending (fun _ _ => rfl) fun _ _ => rfl]
  unfold withoutDue
  rw [manager_updateManager, if_pos ⟨rfl, hmade⟩]
  exact IdSet.mem_erase

/-- The removals that are listed. -/
theorem removals_spec (n : ManagerId) (due : List EntityId) (w : World) (x : EntityId) :
    ((due.foldl (fun w e => w.removeDue n e) w).isAlive n x = true ↔
      w.isAlive n x = true ∧ x ∉ due) ∧
    (n.place < w.managers.length →
      (x ∈ ((due.foldl (fun w e => w.removeDue n e) w).manager n).pending ↔
        x ∈ (w.manager n).pending ∧ x ∉ due)) := by
  induction due generalizing w with
  | nil => simp
  | cons e rest ih =>
      obtain ⟨halive, hpending⟩ := ih (w.removeDue n e)
      have hgrows : w.managers.length ≤ (w.removeDue n e).managers.length := by
        obtain ⟨v, htells, hend⟩ := removeDue_tells w n e
        have hlength : w.managers.length = v.managers.length := by
          rw [htells.length_managers]
          exact (List.length_modify _ _ _).symm
        rcases hend with hsame | hreleased
        · exact Nat.le_of_eq (hlength.trans (by rw [hsame]))
        · rw [hreleased, hlength]
          exact Nat.le_of_eq (List.length_modify _ _ _).symm
      refine ⟨?_, fun hmade => ?_⟩
      · rw [List.foldl_cons, halive, isAlive_removeDue]
        simp [and_assoc]
      · rw [List.foldl_cons, hpending (Nat.lt_of_lt_of_le hmade hgrows),
          mem_pending_removeDue_iff hmade]
        simp [and_assoc]

/-- The end of a tick removes who is due. -/
theorem isAlive_removeAllDue (w : World) (n : ManagerId) (x : EntityId) :
    (w.removeAllDue n).isAlive n x = true ↔
      w.isAlive n x = true ∧ x ∉ (w.manager n).pending :=
  (removals_spec n (w.manager n).pending.toList w x).1

/-- Nobody is due when all removals are carried out. -/
theorem pending_removeAllDue (w : World) (n : ManagerId) (x : EntityId) :
    x ∉ ((w.removeAllDue n).manager n).pending := by
  intro hx
  by_cases hmade : n.place < w.managers.length
  · have hold := ((removals_spec n (w.manager n).pending.toList w x).2 hmade).1 hx
    exact hold.2 hold.1
  · have hnone : (w.manager n).pending = ∅ := by
      rw [manager_of_length_le (Nat.le_of_not_lt hmade)]
      rfl
    unfold removeAllDue at hx
    rw [hnone] at hx
    change x ∈ (w.manager n).pending at hx
    rw [hnone] at hx
    exact absurd hx (IdSet.not_mem_empty x)

theorem steady_removeDue_of_ne (hne : m ≠ n) (w : World) (e : EntityId) :
    Steady m nothing w (w.removeDue n e) := by
  have hcleared : Steady m nothing w (w.withoutDue n e) := steady_updateManager_of_ne hne w _
  obtain ⟨v, htells, hend⟩ := removeDue_tells w n e
  have hstripped := hcleared.andThen (steady_tells htells m)
  rcases hend with hdead | hremoved
  · rw [hdead]
    exact hstripped
  · rw [hremoved]
    exact hstripped.andThen (steady_updateManager_of_ne hne v _)

/-! ## Flushing -/

theorem steady_flush_of_ne (hne : m ≠ n) (w : World) (numbers : List Nat) :
    Steady m nothing w (w.flush n numbers).1 := by
  induction numbers generalizing w with
  | nil => exact .refl m w
  | cons number groups ih =>
      have htaken : Steady m nothing w (w.takeNews ⟨n, number⟩).1 :=
        steady_updateManager_of_ne hne w _
      unfold flush
      split
      · rename_i hnews
        rw [hnews] at htaken
        exact htaken.andThen (ih _)
      · rename_i hnews
        rw [hnews] at htaken
        exact htaken

/-- A flush hands out news and leaves the ids. -/
theorem flush_ids (w : World) (n : ManagerId) (numbers : List Nat) (m : ManagerId) :
    ((w.flush n numbers).1.manager m).allocator = (w.manager m).allocator ∧
      ((w.flush n numbers).1.manager m).pending = (w.manager m).pending := by
  induction numbers generalizing w with
  | nil => exact ⟨rfl, rfl⟩
  | cons number groups ih =>
      have htaken : ((w.takeNews ⟨n, number⟩).1.manager m).allocator = (w.manager m).allocator ∧
          ((w.takeNews ⟨n, number⟩).1.manager m).pending = (w.manager m).pending := by
        constructor
        · refine field_updateManager Manager.allocator ?_ w n m
          exact fun _ => rfl
        · refine field_updateManager Manager.pending ?_ w n m
          exact fun _ => rfl
      unfold flush
      split
      · rename_i hnews
        rw [hnews] at htaken
        rw [(ih _).1, (ih _).2]
        exact htaken
      · rename_i hnews
        rw [hnews] at htaken
        exact htaken

theorem lasting_flush (w : World) (n : ManagerId) (numbers : List Nat) (m : ManagerId) :
    Lasting m nothing w (w.flush n numbers).1 where
  live x hx := by
    unfold isAlive
    rw [(flush_ids w n numbers m).1]
    exact hx
  pending x := by rw [(flush_ids w n numbers m).2, or_false]

theorem steady_endTick_of_ne (hne : m ≠ n) (w : World) :
    Steady m nothing w (w.endTick n).1 := by
  have hremoved : Steady m nothing w (w.removeAllDue n) :=
    removeAllDue_preserves (.refl m w) fun v e hv => hv.andThen (steady_removeDue_of_ne hne v e)
  exact hremoved.andThen (steady_flush_of_ne hne _ _)

/-- After a tick only those are live that were and were not due, and nobody is due. -/
theorem endTick_ids (w : World) (n : ManagerId) (x : EntityId) :
    ((w.endTick n).1.isAlive n x = true ↔
      w.isAlive n x = true ∧ x ∉ (w.manager n).pending) ∧
    x ∉ ((w.endTick n).1.manager n).pending := by
  unfold endTick
  dsimp only
  refine ⟨?_, ?_⟩
  · unfold isAlive
    rw [(flush_ids _ n _ n).1]
    exact isAlive_removeAllDue w n x
  · rw [(flush_ids _ n _ n).2]
    exact pending_removeAllDue w n x

end EntityStore.World
