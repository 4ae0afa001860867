import EntityStore.Proofs.Session.Effects
import EntityStore.Proofs.World.Visitors

/-!
# Requests that spare those who belong

Whoever is live in a manager and passes a filter may be disturbed in many ways and still belong.  A
request for a removal does nothing until a tick ends, and of the kinds of an entity only those that
the filter mentions matter.

* `Request.isHarmless`: entities are made, removals are asked for, values are set, and kinds are given
  and taken that matter in the harmless way only.
* `holds_create`: a creation gives and takes no kind of those who are live, whatever comes of it and
  whichever manager is asked.
* `spares_serve`: after a harmless request everybody belongs who belonged before.
-/

namespace EntityStore

variable [Host]

/-- Does a request leave it to everybody to pass a filter who passes it? -/
def Request.isHarmless (f : Filter) : Request → Bool
  | create _ _ => true
  | scheduleRemoval _ _ => true
  | setValue _ _ _ _ => true
  | addComponent _ _ k => !f.forbids k
  | removeComponent _ _ k => !f.requires k
  | _ => false

/-- Is an action no request that might harm?  Returning from a callback always is. -/
def Action.isHarmless (f : Filter) : Action → Bool
  | request q => q.isHarmless f
  | finish _ => true

namespace World

variable {w v : World} {m n : ManagerId} {f : Filter} {x e : EntityId} {k : KindId}
  {audience : Option ManagerId} {kinds : List KindId}

/-- An entity is live in a manager and passes a filter. -/
def Belongs (w : World) (m : ManagerId) (f : Filter) (x : EntityId) : Prop :=
  w.isAlive m x = true ∧ f.accepts (fun k => w.holds k x) = true

/-- Members that are those of the live entities that pass are exactly those who belong. -/
theorem mem_iff_belongs {members : IdSet}
    (h : members.toList =
      (w.manager m).allocator.live.toList.filter fun x => f.accepts fun k => w.holds k x) :
    x ∈ members ↔ w.Belongs m f x := by
  rw [← IdSet.mem_toList, h, List.mem_filter]
  exact and_congr_left fun _ => decide_eq_true_iff.symm

/-- Nobody has ceased to belong, the manager has the kinds that it had, and all processors are as
before. -/
structure Spares (m : ManagerId) (f : Filter) (w v : World) : Prop where
  belongs : ∀ x, w.Belongs m f x → v.Belongs m f x
  kinds : (v.manager m).kinds = (w.manager m).kinds
  processors : v.processors = w.processors

theorem Spares.refl (m : ManagerId) (f : Filter) (w : World) : Spares m f w w :=
  ⟨fun _ hx => hx, rfl, rfl⟩

theorem Spares.trans {u : World} (h : Spares m f w v) (g : Spares m f v u) : Spares m f w u :=
  ⟨fun x hx => g.belongs x (h.belongs x hx), g.kinds.trans h.kinds, g.processors.trans h.processors⟩

/-! ## Gaining and losing kinds -/

/-- An entity that has gained nothing forbidden and lost nothing required still belongs. -/
theorem Belongs.tracks (hx : w.Belongs m f x) (h : Tracks audience e kinds w v)
    (hrequired : ∀ k ∈ kinds, f.requires k = true → v.holds k e = true)
    (hforbidden : ∀ k ∈ kinds, f.forbids k = true → v.holds k e = false) : v.Belongs m f x := by
  obtain ⟨hlive, haccepts⟩ := hx
  rw [Filter.accepts_iff] at haccepts
  refine ⟨by rw [h.isAlive_eq, hlive], Filter.accepts_iff.2 ⟨fun k hk => ?_, fun k hk => ?_⟩⟩
  · rcases Tracks.touched_or_not e x k kinds with ⟨rfl, hchanged⟩ | hsame
    · exact hrequired k hchanged (decide_eq_true hk)
    · rw [h.holds_eq hsame]
      exact haccepts.1 k hk
  · rcases Tracks.touched_or_not e x k kinds with ⟨rfl, hchanged⟩ | hsame
    · exact hforbidden k hchanged (decide_eq_true hk)
    · rw [h.holds_eq hsame]
      exact haccepts.2 k hk

/-- A kind that is not forbidden may be given to anybody. -/
theorem spares_addHolder (hw : w.Packed) (hk : f.forbids k = false) (m : ManagerId) (e : EntityId) :
    Spares m f w (w.addHolder k e).1 := by
  have htells := tells_addHolder w k e
  refine ⟨fun x hx => ?_, htells.field_eq Manager.kinds (fun _ _ => rfl) m, htells.processors⟩
  rcases Nat.lt_or_ge k.place w.kinds.length with hmade | habsent
  · cases hresult : w.addHolder k e with
    | mk u result =>
        cases result with
        | error cause =>
            exact hx.tracks (addHolder_error hw hresult none) (List.forall_mem_nil _)
              (List.forall_mem_nil _)
        | ok done =>
            obtain ⟨-, hheld, htracks⟩ := addHolder_ok hw hmade hresult
            refine hx.tracks htracks (List.forall_mem_singleton.2 fun _ => hheld)
              (List.forall_mem_singleton.2 fun hforbids => ?_)
            rw [hk] at hforbids
            cases hforbids
  · rw [addHolder_of_absent habsent]
    exact hx

/-- A kind that is not required may be taken from anybody. -/
theorem spares_removeHolder (hw : w.Packed) (hk : f.requires k = false) (m : ManagerId)
    (e : EntityId) : Spares m f w (w.removeHolder k e).1 := by
  have htells := tells_removeHolder w k e
  refine ⟨fun x hx => ?_, htells.field_eq Manager.kinds (fun _ _ => rfl) m, htells.processors⟩
  obtain ⟨taken, htaken, htracks, hnone⟩ := tracks_removeHolder hw (Eq.refl (w.audience k)) e
  refine hx.tracks htracks (fun j hj hrequires => ?_) (fun j hj _ => ?_)
  · rw [htaken j hj, hk] at hrequires
    cases hrequires
  · rw [htaken j hj]
    exact hnone

/-! ## Creation -/

/-- Kinds of two managers are different kinds. -/
theorem Wired.manager_unique (hw : w.Wired) (hm : k ∈ (w.manager m).kinds)
    (hn : k ∈ (w.manager n).kinds) : m = n := by
  obtain ⟨i, hi⟩ := hw.attached m k hm
  obtain ⟨j, hj⟩ := hw.attached n k hn
  cases hi.symm.trans hj
  rfl

/-- A creation gives no kind of a manager to anybody who is live in it, and takes none away. -/
theorem holds_create (hw : w.Wired) (hk : k ∈ (w.manager m).kinds) (hx : w.isAlive m x = true)
    (n : ManagerId) (kinds : List KindId) : (w.create n kinds).1.holds k x = w.holds k x := by
  -- an id that is issued is not live in its manager, and other managers have other kinds
  have hapart : ∀ {e a} {touched : List KindId},
      (w.manager n).allocator.allocate = .ok (e, a) →
        (∀ j ∈ touched, j ∈ (w.manager n).kinds) → x ≠ e ∨ k ∉ touched := by
    intro e a touched hallocate hregistered
    refine (Classical.em (x = e)).symm.imp id ?_
    rintro rfl htouched
    obtain rfl := hw.manager_unique hk (hregistered k htouched)
    exact not_live_of_allocate hallocate hx
  have hcreated := created hw n kinds
  generalize w.create n kinds = result at hcreated ⊢
  obtain ⟨v, answer⟩ := result
  cases hcreated with
  | refused => rfl
  | undone e a u taken cause _ hallocate hregistered htaken htracks =>
      refine htracks.holds_eq (hapart hallocate fun j hj => hregistered j ?_)
      -- whatever was given or taken is among the kinds asked for
      have hmem : j ∈ kinds.takeWhile (w.takes e) := (List.mem_append.1 hj).elim id (htaken j)
      exact (List.takeWhile_sublist _).subset hmem
  | made e a u _ hallocate hregistered htracks =>
      exact htracks.holds_eq (hapart hallocate hregistered)

theorem spares_create (hw : w.Wired)
    (hknown : ∀ k, f.mentions k = true → k ∈ (w.manager m).kinds) (n : ManagerId)
    (kinds : List KindId) : Spares m f w (w.create n kinds).1 := by
  refine ⟨fun x hx => ?_, ?_, processors_create w n kinds⟩
  · obtain ⟨hlive, haccepts⟩ := hx
    refine ⟨(isAlive_create w n kinds m x).2 (Or.inl hlive), ?_⟩
    rw [← haccepts]
    exact Filter.accepts_congr fun k hk => holds_create hw (hknown k hk) hlive n kinds
  · exact field_create Manager.kinds (fun _ _ => rfl) (fun _ _ => rfl) w n kinds m

/-! ## Requests -/

/-- What bears on nobody spares everybody. -/
theorem Calm.belongs (h : Calm w v) (hx : w.Belongs m f x) : v.Belongs m f x := by
  refine ⟨by rw [h.alive, hx.1], ?_⟩
  rw [← hx.2]
  exact Filter.accepts_congr fun k _ => h.holds k x

/-- A harmless request is answered at once, and everybody belongs who belonged before. -/
theorem spares_serve (hw : w.Wired)
    (hknown : ∀ k, f.mentions k = true → k ∈ (w.manager m).kinds) (engaged : ManagerId → Bool)
    (told : ObserverId → Bool) {q : Request} (hq : q.isHarmless f = true) :
    (w.serve engaged told q).2.pushed = [] ∧ Spares m f w (w.serve engaged told q).1 := by
  cases q with
  | create n kinds =>
      refine ⟨pushed_answer _ _, ?_⟩
      show Spares m f w (answer _ _).1
      rw [answer_world]
      exact spares_create hw hknown n kinds
  | scheduleRemoval n e =>
      have hcalm : Calm w (w.scheduleRemoval n e).1 := calm_of_same_groups id rfl rfl rfl
      exact ⟨rfl, fun x => hcalm.belongs, hcalm.kinds m, rfl⟩
  | setValue k p e y =>
      have hcalm : Calm w (w.setValue k p e y).1 := calm_setValue hw.packed k p e y
      exact ⟨rfl, fun x => hcalm.belongs, hcalm.kinds m, (tells_setValue w k p e y).processors⟩
  | addComponent n e k =>
      refine ⟨pushed_answer _ _, ?_⟩
      show Spares m f w (answer _ _).1
      rw [answer_world]
      unfold addComponent
      split
      · exact .refl m f w
      · exact spares_addHolder hw.packed (by simpa [Request.isHarmless] using hq) m e
  | removeComponent n e k =>
      refine ⟨pushed_answer _ _, ?_⟩
      show Spares m f w (answer _ _).1
      rw [answer_world]
      unfold removeComponent
      split
      · exact .refl m f w
      · exact spares_removeHolder hw.packed (by simpa [Request.isHarmless] using hq) m e
  | _ => cases hq

end World

end EntityStore
