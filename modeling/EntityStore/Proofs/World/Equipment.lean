import EntityStore.Proofs.World.Holders

/-!
# Series of kinds for one entity

What happens when an entity is given several kinds in turn, or loses them.

* `strip_preserves`, `equip_preserves`: what single changes keep, a series of them keeps.
* `tracks_strip`: the entity loses all of the listed kinds, and nothing else happens.
* `equip_ok`: it is given all of them.
* `equip_error`: one of them is refused.  Then the kinds before the refused one were given and taken
  away again, and the groups that hear of them have tested the entity in the meantime.
-/

namespace EntityStore.World

variable [Host] {w v : World} {audience : Option ManagerId} {e : EntityId}

/-- The undelivered change of every group fits its members. -/
def Coherent (w : World) : Prop := ∀ m, ∀ g ∈ (w.manager m).groups, g.Coherent

theorem Tracks.coherent {kinds : List KindId} (h : Tracks audience e kinds w v)
    (hw : w.Coherent) : v.Coherent := by
  intro m g hg
  by_cases hm : audience = some m
  · rw [h.told m hm] at hg
    obtain ⟨old, hold, rfl⟩ := List.mem_map.1 hg
    exact (hw m old hold).recheck e kinds _
  · rw [h.untold m hm] at hg
    exact hw m g hg

theorem strip_cons (w : World) (e : EntityId) (k : KindId) (rest : List KindId) :
    w.strip e (k :: rest) = (w.removeHolder k e).1.strip e rest := rfl

/-- What every removal of a kind keeps, a series of them keeps. -/
theorem strip_preserves {P : World → Prop} (hremove : ∀ u k, P u → P (u.removeHolder k e).1)
    (kinds : List KindId) (hw : P w) : P (w.strip e kinds) := by
  induction kinds generalizing w with
  | nil => exact hw
  | cons k rest ih =>
      rw [strip_cons]
      exact ih (hremove w k hw)

/-- An entity loses the listed kinds. -/
theorem tracks_strip (hpacked : w.Packed) (hcoherent : w.Coherent) {kinds : List KindId}
    (haudience : ∀ k ∈ kinds, w.audience k = audience) :
    ∃ taken, (∀ k ∈ taken, k ∈ kinds) ∧ Tracks audience e taken w (w.strip e kinds) ∧
      (∀ k ∈ kinds, (w.strip e kinds).holds k e = false) ∧ (w.strip e kinds).Packed := by
  induction kinds generalizing w with
  | nil => exact ⟨[], fun k hk => hk, .refl audience e w, nofun, hpacked⟩
  | cons k rest ih =>
      rw [strip_cons]
      obtain ⟨first, hfirst, hstep, hnone⟩ :=
        tracks_removeHolder hpacked (haudience k List.mem_cons_self) e
      obtain ⟨taken, hsub, htracks, hgone, hlast⟩ :=
        ih (packed_removeHolder hpacked k e) (hstep.coherent hcoherent) fun j hj =>
          (hstep.audience_eq j).trans (haudience j (List.mem_cons_of_mem k hj))
      refine ⟨first ++ taken, ?_, hstep.trans htracks fun m _ => hcoherent m, ?_, hlast⟩
      · intro j hj
        rcases List.mem_append.1 hj with hj | hj
        · rw [hfirst j hj]
          exact List.mem_cons_self
        · exact List.mem_cons_of_mem k (hsub j hj)
      · -- a kind that comes again is taken by the rest; else the rest leaves it as it is
        intro j hj
        by_cases hmem : j ∈ rest
        · exact hgone j hmem
        · obtain rfl : j = k := (List.mem_cons.1 hj).resolve_right hmem
          rw [htracks.holds_eq (Or.inr fun htaken => hmem (hsub j htaken))]
          exact hnone

/-! ## Giving kinds -/

omit [Host] in
theorem takeWhile_congr {α : Type} {p q : α → Bool} {l : List α} (h : ∀ x ∈ l, p x = q x) :
    l.takeWhile p = l.takeWhile q := by
  induction l with
  | nil => rfl
  | cons x rest ih =>
      rw [List.takeWhile_cons, List.takeWhile_cons, h x List.mem_cons_self,
        ih fun y hy => h y (List.mem_cons_of_mem x hy)]

/-- Would the store of a kind take an entity? -/
def takes (w : World) (e : EntityId) (k : KindId) : Bool :=
  ((w.kind k).store.insert Host.machine e).2.isOk

/-- Each kind has a store of its own. -/
theorem kind_of_addHolder {j k : KindId} (hj : j ≠ k) {result : Except StoreError Unit}
    (h : w.addHolder k e = (v, result)) : v.kind j = w.kind j := by
  have hkind : (w.addHolder k e).1.kind j = w.kind j := by
    unfold addHolder
    dsimp only
    split
    · rw [kind_setStore, if_neg fun heq => hj heq.1]
    · rw [kind_informGroups, kind_setStore, if_neg fun heq => hj heq.1]
  rw [h] at hkind
  exact hkind

theorem takes_of_addHolder {k : KindId} :
    w.takes e k = (w.addHolder k e).2.isOk := by
  unfold takes
  rw [addHolder_answer]

theorem equip_cons_ok {k : KindId} {u : World} (h : w.addHolder k e = (u, .ok ()))
    (given rest : List KindId) : w.equip e given (k :: rest) = u.equip e (given ++ [k]) rest := by
  rw [equip, h]

theorem equip_cons_error {k : KindId} {u : World} {cause : StoreError}
    (h : w.addHolder k e = (u, .error cause)) (given rest : List KindId) :
    w.equip e given (k :: rest) = (u.strip e given, .error cause) := by
  rw [equip, h]

/-- What every single change of an entity keeps, a series of kinds that it is given keeps, also if it
is broken off. -/
theorem equip_preserves {P : World → Prop} (hadd : ∀ u k, P u → P (u.addHolder k e).1)
    (hremove : ∀ u k, P u → P (u.removeHolder k e).1) (given kinds : List KindId) (hw : P w) :
    P (w.equip e given kinds).1 := by
  induction kinds generalizing w given with
  | nil => exact hw
  | cons k rest ih =>
      have hgiven := hadd w k hw
      cases hresult : w.addHolder k e with
      | mk u result =>
          rw [hresult] at hgiven
          cases result with
          | error cause =>
              rw [equip_cons_error hresult]
              exact strip_preserves hremove given hgiven
          | ok done =>
              rw [equip_cons_ok hresult]
              exact ih _ hgiven

/-- The kinds that are given before one is refused do not depend on those that were given. -/
theorem takeWhile_of_addHolder {k : KindId} {u : World} {rest : List KindId} (hk : k ∉ rest)
    (h : w.addHolder k e = (u, .ok ())) :
    (k :: rest).takeWhile (w.takes e) = k :: rest.takeWhile (u.takes e) := by
  -- giving one kind does not bear on another
  have hothers : ∀ j ∈ rest, w.takes e j = u.takes e j := by
    intro j hj
    have hjk : j ≠ k := fun heq => hk (heq ▸ hj)
    unfold takes
    rw [kind_of_addHolder hjk h]
  have htakes : w.takes e k = true := by
    rw [takes_of_addHolder, h]
    rfl
  rw [List.takeWhile_cons, htakes, takeWhile_congr hothers]
  rfl

theorem takeWhile_of_refused {k : KindId} {u : World} {cause : StoreError} {rest : List KindId}
    (h : w.addHolder k e = (u, .error cause)) : (k :: rest).takeWhile (w.takes e) = [] := by
  have htakes : w.takes e k = false := by
    rw [takes_of_addHolder, h]
    rfl
  rw [List.takeWhile_cons, htakes]
  rfl

theorem packed_of_addHolder (hpacked : w.Packed) {k : KindId} {u : World}
    {result : Except StoreError Unit} (h : w.addHolder k e = (u, result)) : u.Packed := by
  have hnext := packed_addHolder hpacked k e
  rw [h] at hnext
  exact hnext

/-- An entity is given the listed kinds. -/
theorem equip_ok (hpacked : w.Packed) (hcoherent : w.Coherent) {kinds : List KindId}
    (hmade : ∀ k ∈ kinds, (w.kind k).attachment.isSome = true)
    (haudience : ∀ k ∈ kinds, w.audience k = audience) {given : List KindId}
    (h : w.equip e given kinds = (v, .ok ())) :
    Tracks audience e kinds w v ∧ (∀ k ∈ kinds, v.holds k e = true) ∧ v.Packed := by
  induction kinds generalizing w given with
  | nil =>
      obtain rfl := (Prod.mk.inj h).1
      exact ⟨.refl audience e w, nofun, hpacked⟩
  | cons k rest ih =>
      have hlt : k.place < w.kinds.length := by
        obtain ⟨a, ha⟩ := Option.isSome_iff_exists.1 (hmade k List.mem_cons_self)
        exact lt_length_of_attachment ha
      cases hresult : w.addHolder k e with
      | mk u result =>
          have hnext := packed_of_addHolder hpacked hresult
          cases result with
          | error cause =>
              rw [equip_cons_error hresult] at h
              cases h
          | ok done =>
              obtain ⟨-, hheld, hstep⟩ := addHolder_ok hpacked hlt hresult
              rw [haudience k List.mem_cons_self] at hstep
              rw [equip_cons_ok hresult] at h
              obtain ⟨htracks, hall, hlast⟩ := ih hnext (hstep.coherent hcoherent)
                (fun j hj => by rw [hstep.attachment]; exact hmade j (List.mem_cons_of_mem k hj))
                (fun j hj => (hstep.audience_eq j).trans (haudience j (List.mem_cons_of_mem k hj))) h
              refine ⟨hstep.trans htracks fun m _ => hcoherent m, ?_, hlast⟩
              intro j hj
              -- what was given first stays, as the rest does not bear on it
              by_cases hmem : j ∈ rest
              · exact hall j hmem
              · have hjk : j = k := (List.mem_cons.1 hj).resolve_right hmem
                rw [htracks.holds_eq (Or.inr hmem), hjk]
                exact hheld

/-- One of the listed kinds is refused, and the ones before it are taken away again. -/
theorem equip_error (hpacked : w.Packed) (hcoherent : w.Coherent) {kinds : List KindId}
    (hdistinct : kinds.Nodup) (hmade : ∀ k ∈ kinds, (w.kind k).attachment.isSome = true)
    (haudience : ∀ k ∈ kinds, w.audience k = audience) {given : List KindId}
    (hgiven : ∀ k ∈ given, w.audience k = audience) {cause : StoreError}
    (h : w.equip e given kinds = (v, .error cause)) :
    ∃ taken, (∀ k ∈ taken, k ∈ given ++ kinds.takeWhile (w.takes e)) ∧
      Tracks audience e (kinds.takeWhile (w.takes e) ++ taken) w v ∧
      (∀ k ∈ given ++ kinds.takeWhile (w.takes e), v.holds k e = false) ∧
      (∀ k ∈ kinds.takeWhile (w.takes e), w.holds k e = false) ∧ v.Packed := by
  induction kinds generalizing w given with
  | nil => cases h
  | cons k rest ih =>
      have hlt : k.place < w.kinds.length := by
        obtain ⟨a, ha⟩ := Option.isSome_iff_exists.1 (hmade k List.mem_cons_self)
        exact lt_length_of_attachment ha
      obtain ⟨hfirst, hrest⟩ := List.nodup_cons.1 hdistinct
      cases hresult : w.addHolder k e with
      | mk u result =>
          have hnext := packed_of_addHolder hpacked hresult
          cases result with
          | error cause =>
              -- the refused kind: those that were given are taken away
              rw [equip_cons_error hresult] at h
              obtain rfl := (Prod.mk.inj h).1
              have hstep := addHolder_error hpacked hresult audience
              obtain ⟨taken, hsub, htracks, hgone, hlast⟩ :=
                tracks_strip hnext (hstep.coherent hcoherent) fun j hj =>
                  (hstep.audience_eq j).trans (hgiven j hj)
              rw [takeWhile_of_refused hresult, List.append_nil]
              exact ⟨taken, hsub, hstep.trans htracks fun m _ => hcoherent m, hgone, nofun, hlast⟩
          | ok done =>
              -- one more kind was given, and the refused one comes later
              obtain ⟨hnew, hheld, hstep⟩ := addHolder_ok hpacked hlt hresult
              rw [haudience k List.mem_cons_self] at hstep
              rw [equip_cons_ok hresult] at h
              have hheard : ∀ j ∈ given ++ [k], u.audience j = audience := by
                intro j hj
                rw [hstep.audience_eq]
                rcases List.mem_append.1 hj with hold | hlast
                · exact hgiven j hold
                · rw [List.mem_singleton.1 hlast]
                  exact haudience k List.mem_cons_self
              obtain ⟨taken, hsub, htracks, hgone, hbefore, hlast⟩ :=
                ih hnext (hstep.coherent hcoherent) hrest
                  (fun j hj => by rw [hstep.attachment]; exact hmade j (List.mem_cons_of_mem k hj))
                  (fun j hj => (hstep.audience_eq j).trans (haudience j (List.mem_cons_of_mem k hj)))
                  hheard h
              have hmove : given ++ [k] ++ rest.takeWhile (u.takes e) =
                  given ++ k :: rest.takeWhile (u.takes e) := by
                rw [List.append_assoc]
                rfl
              rw [hmove] at hsub hgone
              rw [takeWhile_of_addHolder hfirst hresult]
              refine ⟨taken, hsub, hstep.trans htracks fun m _ => hcoherent m, hgone, ?_, hlast⟩
              intro j hj
              rcases List.mem_cons.1 hj with rfl | hmem
              · exact hnew
              · have hne : j ≠ k := by
                  rintro rfl
                  exact hfirst ((List.takeWhile_sublist _).subset hmem)
                rw [← hstep.holds_eq (Or.inr fun hk => hne (List.mem_singleton.1 hk))]
                exact hbefore j hmem

end EntityStore.World
