import EntityStore.Proofs.World.Hearing
import EntityStore.Session.Basic

/-!
# The lives of managers

The life of a manager is where it stands, its processors, and how many of them are initialised.
Entities, kinds and groups come and go without a bearing on it: every change of a world that is not
about lives leaves all lives as they are.
-/

namespace EntityStore

variable [Host]

/-- What there is to say about the life of a manager. -/
structure Life where
  /-- Where the manager stands. -/
  lifecycle : Lifecycle
  /-- Its processors. -/
  processors : List ProcessorId
  /-- How many of them are initialised. -/
  initialised : Nat

/-- The life of a manager. -/
def Manager.life (m : Manager) : Life := ⟨m.lifecycle, m.processors, m.initialised⟩

namespace World

variable {w v : World} {m n : ManagerId} {e : EntityId}

/-- The life of a manager of an identity. -/
def life (w : World) (m : ManagerId) : Life := (w.manager m).life

theorem life_updateManager {change : Manager → Manager}
    (h : ∀ manager, (change manager).life = manager.life) (w : World) (m n : ManagerId) :
    (w.updateManager m change).life n = w.life n :=
  field_updateManager Manager.life h w m n

theorem life_tells (h : Tells w v) (n : ManagerId) : v.life n = w.life n :=
  h.field_eq Manager.life (fun _ _ => rfl) n

theorem life_create (w : World) (m : ManagerId) (kinds : List KindId) (n : ManagerId) :
    (w.create m kinds).1.life n = w.life n :=
  field_create Manager.life (fun _ _ => rfl) (fun _ _ => rfl) w m kinds n

theorem life_removeDue (w : World) (m : ManagerId) (e : EntityId) (n : ManagerId) :
    (w.removeDue m e).life n = w.life n := by
  have hdue : (w.withoutDue m e).life n = w.life n := by
    refine life_updateManager ?_ w m n
    exact fun _ => rfl
  rw [← hdue]
  exact field_removeDue Manager.life (fun _ _ => rfl) (fun _ _ => rfl) w m e n

theorem life_removeAllDue (w : World) (m n : ManagerId) :
    (w.removeAllDue m).life n = w.life n :=
  removeAllDue_preserves (P := fun u => u.life n = w.life n) rfl fun u e hu =>
    (life_removeDue u m e n).trans hu

theorem life_openGroup (w : World) (m : ManagerId) (required forbidden : List KindId)
    (n : ManagerId) : (w.openGroup m required forbidden).1.life n = w.life n := by
  rcases opened_or_same w m required forbidden with hsame | ⟨-, hmade⟩
  · rw [hsame]
  · rw [hmade]
    refine life_updateManager ?_ w m n
    exact fun _ => rfl

theorem life_updateGroup (w : World) (g : GroupRef) (change : Group → Group) (n : ManagerId) :
    (w.updateGroup g change).life n = w.life n := by
  refine life_updateManager ?_ w g.manager n
  exact fun _ => rfl

theorem life_listen (w : World) (g : GroupRef) (l : ListenerId) (n : ManagerId) :
    (w.listen g l).1.life n = w.life n := by
  unfold listen
  split
  · exact life_updateGroup w g _ n
  · rfl

theorem life_registerKind (w : World) (m : ManagerId) (k : KindId) (n : ManagerId) :
    (w.registerKind m k).1.life n = w.life n := by
  rcases registered_or_same w m k with hsame | ⟨-, -, hkind⟩
  · rw [hsame]
  · rw [hkind]
    refine life_updateManager ?_ _ m n
    exact fun _ => rfl

theorem life_settleVisitor (w : World) (p : ProcessorId) (visitor : Visitor) (m n : ManagerId) :
    (w.settleVisitor p visitor m).1.life n = w.life n := by
  have hopen := life_openGroup w m visitor.required visitor.forbidden n
  unfold settleVisitor
  split
  · rename_i hgroup
    rw [hgroup] at hopen
    exact hopen
  · rename_i hgroup
    rw [hgroup] at hopen
    exact hopen

theorem life_flush (w : World) (m : ManagerId) (numbers : List Nat) (n : ManagerId) :
    (w.flush m numbers).1.life n = w.life n := by
  induction numbers generalizing w with
  | nil => rfl
  | cons number groups ih =>
      have hnews : (w.takeNews ⟨m, number⟩).1.life n = w.life n := life_updateGroup w _ _ n
      unfold flush
      split
      · rename_i htaken
        rw [htaken] at hnews
        rw [ih, hnews]
      · rename_i htaken
        rw [htaken] at hnews
        exact hnews

theorem life_endTick (w : World) (m n : ManagerId) : (w.endTick m).1.life n = w.life n := by
  unfold endTick
  dsimp only
  rw [life_flush, life_removeAllDue]

/-- A manager that was never made is shut down and has no processors. -/
theorem life_of_length_le (h : w.managers.length ≤ m.place) : w.life m = ⟨.shutDown, [], 0⟩ := by
  unfold life
  rw [manager_of_length_le h]
  rfl

/-- A change of one manager, as far as its life goes. -/
theorem life_updateManager_self {change : Manager → Manager} (h : m.place < w.managers.length) :
    (w.updateManager m change).life m = (change (w.manager m)).life := by
  unfold life
  rw [manager_updateManager, if_pos ⟨rfl, h⟩]

theorem life_updateManager_of_ne {change : Manager → Manager} (h : n ≠ m) :
    (w.updateManager m change).life n = w.life n := by
  unfold life
  rw [manager_updateManager, if_neg fun heq => h heq.1]

end World

end EntityStore
