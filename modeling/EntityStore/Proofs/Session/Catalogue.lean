import EntityStore.Proofs.Session.Phases
import EntityStore.Proofs.World.Catalogue

/-!
# One group for each filter

Code outside asks managers for groups, in any order and in between whatever else it does, and
visitors do so too when they are initialised.

* `Event.Seeks`, `Event.Opens`: a manager that was made is asked for a group, and grants it.
* `catalogued_of_runs`, `Runs.extends`: at every moment of a history the filters of a manager are
  different from each other, and none of them ever moves.
* `Event.Opens.stands`: a group that was granted has the filter that was asked for, for good.
* `catalogue_of_runs`: the law of the groups of a manager.
-/

namespace EntityStore

variable [Host]

open World

namespace Session

variable {s t : Session} {e f : Event} {events : List Event} {m : ManagerId} {g : GroupRef}
  {required forbidden : List KindId}

/-- A manager that was made is asked for the group of a filter. -/
def Event.Seeks (e : Event) (m : ManagerId) (required forbidden : List KindId) : Prop :=
  e.action = .request (.openGroup m required forbidden) ∧ m.place < e.before.world.managers.length

/-- A manager that was made grants the group of a filter. -/
def Event.Opens (e : Event) (m : ManagerId) (required forbidden : List KindId) (g : GroupRef) :
    Prop :=
  e.Seeks m required forbidden ∧ e.progress = .replies (.ok (.group g))

/-! ## At every moment -/

theorem freeMoves_of_act (h : e.before.act e.action = some (e.after, e.progress)) :
    Moves (fun _ _ => True) e.before.world e.after.world := by
  have hfree : e.before.Follows (fun _ _ => True) e.action := by
    cases e.action with
    | request r => exact True.intro
    | finish outcome => exact True.intro
  exact moves_of_act hfree h

theorem catalogued_of_runs (h : Runs start events s) : s.world.Catalogued := by
  refine h.induct (P := fun _ s => s.world.Catalogued) catalogued_empty ?_
  intro events e _ hbefore hact
  exact (freeMoves_of_act hact).preserves (fun move hw => hw.move move) hbefore

theorem Runs.extends (h : Runs s events t) : s.world.Extends t.world := by
  refine h.induct (P := fun _ t => s.world.Extends t.world) (.refl s.world) ?_
  intro events e _ hbefore hact
  exact hbefore.trans (freeMoves_of_act hact).extends

/-! ## Asking for a group -/

/-- What it comes to when code outside asks for a group: no callback begins. -/
theorem Event.Seeks.opened (h : e.Seeks m required forbidden)
    (hact : e.before.act e.action = some (e.after, e.progress)) :
    ∃ result, Opened e.before.world m required forbidden e.after.world result ∧
      e.after.stack = e.before.stack ∧
      e.progress = (answer Granted.group (e.after.world, result)).2 := by
  rw [h.1] at hact
  obtain ⟨hworld, hstack, hprogress⟩ := act_answered Granted.group hact rfl
  rw [hworld]
  exact ⟨_, e.before.world.opened m required forbidden, hstack, hprogress⟩

/-- A group that was granted stands under its number with the filter that was asked for. -/
theorem Event.Opens.stands_after (h : e.Opens m required forbidden g)
    (hact : e.before.act e.action = some (e.after, e.progress))
    (hw : e.before.world.Catalogued) :
    g.manager = m ∧ ∃ f, (e.after.world.filters m)[g.number]? = some f ∧
      f.Agrees ⟨required, forbidden⟩ := by
  obtain ⟨hseeks, hgranted⟩ := h
  obtain ⟨result, hopened, -, hprogress⟩ := hseeks.opened hact
  rw [hgranted] at hprogress
  generalize e.after.world = v at hopened hprogress
  cases hopened with
  | refused k hk hstranger => cases hprogress
  | found number f hknown hnumber hsame =>
      cases hprogress
      have hdistinct := hw.distinct m f (List.mem_of_getElem? hnumber)
      exact ⟨rfl, f, hnumber, (Filter.sameAs_iff hdistinct).1 hsame⟩
  | made hknown hnew =>
      cases hprogress
      refine ⟨rfl, _, ?_, Filter.agrees_of required forbidden⟩
      rw [filters_withGroup hseeks.2, if_pos rfl, filter_seededGroup, ← length_filters,
        List.getElem?_concat_length]

/-- It stands there for good. -/
theorem Event.Opens.stands (h : e.Opens m required forbidden g) (hruns : Runs start events s)
    (he : e ∈ events) :
    g.manager = m ∧ ∃ f, (s.world.filters m)[g.number]? = some f ∧
      f.Agrees ⟨required, forbidden⟩ := by
  obtain ⟨earlier, later, rfl⟩ := List.append_of_mem he
  obtain ⟨hbefore, hact⟩ := hruns.split
  obtain ⟨hmanager, f, hnumber, hagrees⟩ := h.stands_after hact (catalogued_of_runs hbefore)
  exact ⟨hmanager, f, hruns.rest.extends.getElem? hnumber, hagrees⟩

/-! ## The law of groups -/

/-- What there is to say about the groups that code outside has asked for. -/
structure Catalogue (events : List Event) (s : Session) : Prop where
  /-- A request is granted if and only if every kind is registered with the manager. -/
  granted_iff : ∀ e ∈ events, ∀ m required forbidden, e.Seeks m required forbidden →
    ((∃ g, e.Opens m required forbidden g) ↔
      ∀ k ∈ required ++ forbidden, e.before.world.isRegistered m k = true)
  /-- Two requests are granted the same group if and only if they are made of the same manager, ask
  for the same kinds and forbid the same kinds. -/
  same_iff : ∀ e ∈ events, ∀ f ∈ events, ∀ m required forbidden g n others banned h,
    e.Opens m required forbidden g → f.Opens n others banned h →
      (g = h ↔ m = n ∧ SameSet required others ∧ SameSet forbidden banned)
  /-- No two groups of a manager have the same filter. -/
  apart : ∀ m i j, i < (s.world.manager m).groups.length →
    j < (s.world.manager m).groups.length →
      (s.world.group ⟨m, i⟩).filter.Agrees (s.world.group ⟨m, j⟩).filter → i = j
  /-- A group that is made gets the next number, and all others are as before. -/
  made : ∀ e ∈ events, ∀ m required forbidden g, e.Opens m required forbidden g →
    (e.before.world.manager m).groups.length ≤ g.number →
      g = ⟨m, (e.before.world.manager m).groups.length⟩ ∧
        (e.after.world.manager m).groups.length = (e.before.world.manager m).groups.length + 1 ∧
        ∀ h, h ≠ g → e.after.world.group h = e.before.world.group h
  /-- A request that finds its group, or is not granted, changes nothing at all. -/
  kept : ∀ e ∈ events, ∀ m required forbidden, e.Seeks m required forbidden →
    (∀ g, e.Opens m required forbidden g →
      g.number < (e.before.world.manager m).groups.length) → e.after = e.before
  /-- A group that was granted has its number and its filter for good. -/
  stands : ∀ e ∈ events, ∀ m required forbidden g, e.Opens m required forbidden g →
    g.number < (s.world.manager m).groups.length ∧
      (s.world.group g).filter.Agrees ⟨required, forbidden⟩
  /-- So has every group, whoever it was made for. -/
  numbered : ∀ e ∈ events, e.before.world.Extends s.world ∧ e.after.world.Extends s.world

theorem group_of_filters {w : World} {i : Nat} {f : Filter} (h : (w.filters m)[i]? = some f) :
    i < (w.manager m).groups.length ∧ (w.group ⟨m, i⟩).filter = f := by
  rw [getElem?_filters] at h
  split at h
  · rename_i hlt
    exact ⟨hlt, Option.some.inj h⟩
  · cases h

theorem filters_of_lt {w : World} {i : Nat} (h : i < (w.manager m).groups.length) :
    (w.filters m)[i]? = some (w.group ⟨m, i⟩).filter := by
  rw [getElem?_filters, if_pos h]

/-- Granted groups are the same if and only if their filters are. -/
theorem Event.Opens.eq_iff {n : ManagerId} {others banned : List KindId} {h : GroupRef}
    (hruns : Runs start events s) (he : e ∈ events) (hf : f ∈ events)
    (hopens : e.Opens m required forbidden g) (hother : f.Opens n others banned h) :
    g = h ↔ m = n ∧ SameSet required others ∧ SameSet forbidden banned := by
  obtain ⟨rfl, a, ha, hagrees⟩ := hopens.stands hruns he
  obtain ⟨rfl, b, hb, hagrees'⟩ := hother.stands hruns hf
  constructor
  · rintro rfl
    obtain rfl := Option.some.inj (ha.symm.trans hb)
    exact ⟨rfl, hagrees.symm.trans hagrees'⟩
  · rintro ⟨hmanager, hsame⟩
    rw [← hmanager] at hb
    have hasked : (⟨required, forbidden⟩ : Filter).Agrees ⟨others, banned⟩ := hsame
    have hnumber := (catalogued_of_runs hruns).number_inj ha hb
      ((hagrees.trans hasked).trans hagrees'.symm)
    cases g
    cases h
    dsimp only at hmanager hnumber
    rw [hmanager, hnumber]

theorem catalogue_of_runs (h : Runs start events s) : Catalogue events s := by
  have hcatalogued := catalogued_of_runs h
  constructor
  case granted_iff =>
    intro e he m required forbidden hseeks
    obtain ⟨result, hopened, -, hprogress⟩ := hseeks.opened (h.act_of_mem he)
    generalize e.after.world = v at hopened hprogress
    constructor
    · rintro ⟨g, -, hgranted⟩
      rw [hgranted] at hprogress
      cases hopened with
      | refused k hk hstranger => cases hprogress
      | found number f hknown hnumber hsame => exact hknown
      | made hknown hnew => exact hknown
    · intro hall
      cases hopened with
      | refused k hk hstranger =>
          rw [hall k hk] at hstranger
          cases hstranger
      | found number f hknown hnumber hsame => exact ⟨_, hseeks, hprogress⟩
      | made hknown hnew => exact ⟨_, hseeks, hprogress⟩
  case same_iff =>
    exact fun e he f hf m required forbidden g n others banned k hopens hother =>
      hopens.eq_iff h he hf hother
  case apart =>
    intro m i j hi hj hagrees
    exact hcatalogued.number_inj (filters_of_lt hi) (filters_of_lt hj) hagrees
  case made =>
    intro e he m required forbidden g hopens hlength
    have hact := h.act_of_mem he
    obtain ⟨result, hopened, -, hprogress⟩ := hopens.1.opened hact
    rw [hopens.2] at hprogress
    generalize e.after.world = v at hopened hprogress
    cases hopened with
    | refused k hk hstranger => cases hprogress
    | found number f hknown hnumber hsame =>
        cases hprogress
        exact absurd (group_of_filters hnumber).1 (Nat.not_lt_of_le hlength)
    | made hknown hnew =>
        cases hprogress
        refine ⟨rfl, ?_, fun k hk => ?_⟩
        · rw [← length_filters, filters_withGroup hopens.1.2, if_pos rfl, List.length_append,
            length_filters]
          rfl
        · exact group_withGroup_of_ne _ hk
  case kept =>
    intro e he m required forbidden hseeks hfound
    obtain ⟨result, hopened, hstack, hprogress⟩ := hseeks.opened (h.act_of_mem he)
    refine eq_of_parts ?_ hstack
    generalize e.after.world = v at hopened hprogress
    cases hopened with
    | refused k hk hstranger => rfl
    | found number f hknown hnumber hsame => rfl
    | made hknown hnew =>
        -- a group that is made has a number of its own
        exact absurd (hfound _ ⟨hseeks, hprogress⟩) (Nat.lt_irrefl _)
  case stands =>
    intro e he m required forbidden g hopens
    obtain ⟨rfl, f, hnumber, hagrees⟩ := hopens.stands h he
    obtain ⟨hlt, hfilter⟩ := group_of_filters hnumber
    refine ⟨hlt, ?_⟩
    rw [show s.world.group g = s.world.group ⟨g.manager, g.number⟩ from rfl, hfilter]
    exact hagrees
  case numbered =>
    intro e he
    obtain ⟨earlier, later, rfl⟩ := List.append_of_mem he
    have hafter := h.rest.extends
    exact ⟨(freeMoves_of_act h.split.2).extends.trans hafter, hafter⟩

end Session

end EntityStore

namespace EntityStore.Session

attribute [local instance] Host.plain

/-- A manager with two kinds and one entity that holds the first; a third kind has the name of the
first, but it is not registered. -/
def twoKinds : List Action :=
  [.request (.makeManager .default), .request (.makeKind "A" .default),
    .request (.makeKind "B" .default), .request (.makeKind "A" .default),
    .request (.registerKind ⟨0⟩ ⟨0⟩), .request (.registerKind ⟨0⟩ ⟨1⟩),
    .request (.create ⟨0⟩ [⟨0⟩])]

/-- A filter is asked for twice, with other repetitions and in another order.  The second request
finds the group of the first and changes nothing.  Asking for the kind of the same name is
refused. -/
theorem group_of_repeated_kinds :
    let s := (start.follow twoKinds).2
    let r : Request := .openGroup ⟨0⟩ [⟨0⟩, ⟨0⟩] [⟨1⟩, ⟨1⟩]
    let again : Request := .openGroup ⟨0⟩ [⟨0⟩] [⟨1⟩]
    let foreign : Request := .openGroup ⟨0⟩ [⟨2⟩] [⟨1⟩]
    let e : Event := ⟨s, .request r, (s.world.serve s.engaged s.told r).2, s.after r⟩
    let t := e.after
    let f : Event := ⟨t, .request again, (t.world.serve t.engaged t.told again).2, t.after again⟩
    let u := f.after
    let d : Event :=
      ⟨u, .request foreign, (u.world.serve u.engaged u.told foreign).2, u.after foreign⟩
    Runs start ((start.follow twoKinds).1 ++ [e] ++ [f] ++ [d]) d.after ∧
      e.Opens ⟨0⟩ [⟨0⟩, ⟨0⟩] [⟨1⟩, ⟨1⟩] ⟨⟨0⟩, 0⟩ ∧ f.Opens ⟨0⟩ [⟨0⟩] [⟨1⟩] ⟨⟨0⟩, 0⟩ ∧ f.after = f.before ∧
      (∀ g, ¬ d.Opens ⟨0⟩ [⟨2⟩] [⟨1⟩] g) ∧ d.after = d.before := by
  intro s r again foreign e t f u d
  have hruns : Runs start ((start.follow twoKinds).1 ++ [e] ++ [f] ++ [d]) d.after :=
    (((runs_follow start twoKinds).step _ _ (s.act_eq_after rfl)).step _ _
      (t.act_eq_after rfl)).step _ _ (u.act_eq_after rfl)
  have hcatalogue := catalogue_of_runs hruns
  have he : e ∈ (start.follow twoKinds).1 ++ [e] ++ [f] ++ [d] := by simp
  have hf : f ∈ (start.follow twoKinds).1 ++ [e] ++ [f] ++ [d] := by simp
  have hd : d ∈ (start.follow twoKinds).1 ++ [e] ++ [f] ++ [d] := by simp
  -- the manager has no groups yet, so the first request makes one
  have hnone : (e.before.world.manager ⟨0⟩).groups.length = 0 := by decide +kernel
  obtain ⟨first, hopens⟩ := (hcatalogue.granted_iff e he ⟨0⟩ [⟨0⟩, ⟨0⟩] [⟨1⟩, ⟨1⟩]
    ⟨rfl, by decide +kernel⟩).2 (by decide +kernel)
  obtain ⟨hfirst, -, -⟩ := hcatalogue.made e he _ _ _ first hopens (by
    rw [hnone]
    exact Nat.zero_le _)
  rw [hnone] at hfirst
  subst hfirst
  have hseeks : f.Seeks ⟨0⟩ [⟨0⟩] [⟨1⟩] := ⟨rfl, by decide +kernel⟩
  obtain ⟨g, hg⟩ := (hcatalogue.granted_iff f hf _ _ _ hseeks).2 (by decide +kernel)
  have hall : ∀ g, f.Opens ⟨0⟩ [⟨0⟩] [⟨1⟩] g → g = ⟨⟨0⟩, 0⟩ := fun g hg =>
    ((hcatalogue.same_iff e he f hf _ _ _ _ _ _ _ _ hopens hg).2
      ⟨rfl, fun k => by simp, fun k => by simp⟩).symm
  obtain rfl := hall g hg
  have hrefused : ∀ g, ¬ d.Opens ⟨0⟩ [⟨2⟩] [⟨1⟩] g := by
    intro g hg
    have hregistered := (hcatalogue.granted_iff d hd _ _ _ hg.1).1 ⟨g, hg⟩ ⟨2⟩ (by simp)
    have hstranger : d.before.world.isRegistered ⟨0⟩ ⟨2⟩ = false := by decide +kernel
    rw [hstranger] at hregistered
    cases hregistered
  refine ⟨hruns, hopens, hg, ?_, hrefused, ?_⟩
  · refine hcatalogue.kept f hf _ _ _ hseeks fun g hg => ?_
    rw [hall g hg]
    decide +kernel
  · exact hcatalogue.kept d hd ⟨0⟩ [⟨2⟩] [⟨1⟩] ⟨rfl, by decide +kernel⟩
      fun g hg => absurd hg (hrefused g)

end EntityStore.Session
