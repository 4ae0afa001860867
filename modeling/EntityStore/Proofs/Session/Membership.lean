import EntityStore.Proofs.Session.Effects
import EntityStore.Proofs.World.Membership

/-!
# Groups are in line with what entities hold

Groups are never recomputed: they hear of single changes and test one entity at a time.  Yet
whenever code outside can look, in the middle of a tick and of its own callbacks too, a group has
exactly the live entities that pass its filter (`membership_of_reachesUnder`).

This asks two things of code outside, `Orderly`: kinds are registered before anybody holds them, and
what it gives to entities on its own it gives to live ones.  That nobody but live entities is a
member asks one thing more, `Whole`: an entity that is refused by a store half-way through its
creation may stay behind in a group.
-/

namespace EntityStore

variable [Host]

open World

/-- Kinds are registered while nobody holds them, and the kinds of a manager are given to nobody but
its live entities. -/
def Orderly : Rule
  | w, .registerKind _ k => k.place < w.kinds.length ∧ ∀ e, w.holds k e = false
  | w, .addHolder k e => ∀ m, w.audience k = some m → w.isAlive m e = true
  | _, _ => True

/-- No store refuses a kind to a new entity. -/
def Whole : Rule
  | w, .create m kinds => ∀ cause, (w.create m kinds).2 ≠ .error (.store cause)
  | _, _ => True

variable {rule : Rule} {w v : World}

/-- An entity that gains or loses a kind is live in the manager that hears of the kind. -/
theorem live_of_changed (hw : w.Exact) (hwired : w.Wired)
    (horderly : ∀ r, rule w r → Orderly w r) {k : KindId} {e : EntityId}
    (hcause : w.holds k e = true ∨ rule w (.addHolder k e) ∨
      ∃ m, k ∈ (w.manager m).kinds ∧ w.isAlive m e = true) (m : ManagerId)
    (hm : w.audience k = some m) : w.live m e := by
  rcases hcause with hheld | hrule | ⟨n, hn, halive⟩
  · -- whoever holds a kind of a manager is live in it
    apply Classical.byContradiction
    intro hdead
    have hnone := hw.bare m (retired_of_audience hm) k (hwired.mem_kinds_of_audience hm) e hdead
    rw [hnone] at hheld
    cases hheld
  · exact horderly _ hrule m hm
  · rw [hwired.audience_eq hn] at hm
    split at hm
    · cases hm
    · cases hm
      exact halive

theorem World.Exact.effect (hw : w.Exact) (hwired : w.Wired)
    (horderly : ∀ r, rule w r → Orderly w r) (h : Effect rule w v) : v.Exact := by
  cases h with
  | calm hcalm => exact hw.calm hcalm
  | changed k e htracks hpacked hcause =>
      refine hw.tracks hwired htracks ?_ ?_
      · intro j hj
        rw [List.mem_singleton.1 hj]
      · exact fun _ _ => Or.inr (live_of_changed hw hwired horderly hcause)
  | registered m k hm hnew hrule =>
      obtain ⟨hk, hnobody⟩ := horderly _ hrule
      exact hw.withKind hk hnobody
  | created m kinds hrule => exact hw.create hwired m kinds
  | opened m f hknown => exact hw.withGroup m f
  | removed m e => exact hw.removeDue hwired m e

theorem World.Confined.effect (hw : w.Confined w.live) (hexact : w.Exact) (hwired : w.Wired)
    (horderly : ∀ r, rule w r → Orderly w r) (hwhole : ∀ r, rule w r → Whole w r)
    (h : Effect rule w v) : v.Confined v.live := by
  cases h with
  | calm hcalm =>
      rw [live_calm hcalm]
      exact hw.quiet hcalm.toQuiet
  | changed k e htracks hpacked hcause =>
      rw [live_tracks htracks]
      refine hw.tracks hwired htracks ?_ (live_of_changed hexact hwired horderly hcause)
      intro j hj
      rw [List.mem_singleton.1 hj]
  | registered m k hm hnew hrule => exact hw.withKind m k
  | created m kinds hrule => exact hw.create hwired m kinds (hwhole _ hrule)
  | opened m f hknown => exact hw.withGroup m f
  | removed m e => exact hw.removeDue hwired m e

/-! ## Histories -/

theorem exact_empty : World.empty.Exact where
  complete _ _ _ hg := absurd hg List.not_mem_nil
  bare _ _ _ hk := absurd hk List.not_mem_nil

theorem holds_eq_false_iff {k : KindId} :
    (∀ e, w.holds k e = false) ↔ (w.kind k).store.holders = ∅ := by
  simp only [holds_eq_false]
  constructor
  · intro hnobody
    ext e
    exact iff_of_false (hnobody e) (IdSet.not_mem_empty e)
  · intro hempty e
    rw [hempty]
    exact IdSet.not_mem_empty e

/-- Whether a request is orderly, as a test. -/
def isOrderly : World → Request → Bool
  | w, .registerKind _ k => k.place < w.kinds.length && (w.kind k).store.holders == ∅
  | w, .addHolder k e => (w.audience k).all (w.isAlive · e)
  | _, _ => true

theorem isOrderly_iff (w : World) (r : Request) : isOrderly w r = true ↔ Orderly w r := by
  cases r with
  | registerKind m k =>
      simp only [isOrderly, Orderly, Bool.and_eq_true, decide_eq_true_eq, beq_iff_eq,
        holds_eq_false_iff]
  | addHolder k e => simp only [isOrderly, Orderly, Option.all_eq_true]
  | _ => exact iff_of_true rfl True.intro

instance (w : World) (r : Request) : Decidable (Orderly w r) :=
  decidable_of_iff _ (isOrderly_iff w r)

omit [Host] in
theorem ne_error_of_isOk {α : Type} {result : Except ManagerError α} (h : result.isOk = true)
    (cause : StoreError) : result ≠ .error (.store cause) := by
  rintro rfl
  cases h

namespace Session

variable {s : Session}

theorem exact_of_reachesUnder (horderly : ∀ w r, rule w r → Orderly w r)
    (h : ReachesUnder rule start s) : s.world.Wired ∧ s.world.Exact := by
  have hmoves := moves_of_reachesUnder h
  refine hmoves.preserves (P := fun w => w.Wired ∧ w.Exact) ?_ ⟨wired_empty, exact_empty⟩
  rintro w v hmove ⟨hwired, hexact⟩
  have heffect := effect_of_move hwired.packed hmove
  refine ⟨hwired.effect ?_ heffect, hexact.effect hwired (horderly w) heffect⟩
  exact fun m k hrule => (horderly w _ hrule).1

theorem confined_of_reachesUnder (horderly : ∀ w r, rule w r → Orderly w r)
    (hwhole : ∀ w r, rule w r → Whole w r) (h : ReachesUnder rule start s) :
    s.world.Confined s.world.live := by
  have hmoves := moves_of_reachesUnder h
  have hall : (s.world.Wired ∧ s.world.Exact) ∧ s.world.Confined s.world.live := by
    refine hmoves.preserves (P := fun w => (w.Wired ∧ w.Exact) ∧ w.Confined w.live) ?_
      ⟨⟨wired_empty, exact_empty⟩, fun _ _ _ hg => absurd hg List.not_mem_nil⟩
    rintro w v hmove ⟨⟨hwired, hexact⟩, hconfined⟩
    have heffect := effect_of_move hwired.packed hmove
    refine ⟨⟨hwired.effect ?_ heffect, hexact.effect hwired (horderly w) heffect⟩, ?_⟩
    · exact fun m k hrule => (horderly w _ hrule).1
    · exact hconfined.effect hexact hwired (horderly w) (hwhole w) heffect
  exact hall.2

/-- Whenever code outside can look, a live entity is a member of a group if and only if it holds
every kind that the group requires and none that it forbids.  As long as no store has refused a kind
to a new entity, every member is live. -/
theorem membership_of_reachesUnder :
    (∀ s, ReachesUnder Orderly start s → ∀ m, (s.world.manager m).retired = false →
      ∀ g ∈ (s.world.manager m).groups, ∀ e, s.world.isAlive m e = true →
        (e ∈ g.members ↔ (∀ k ∈ g.filter.required, s.world.holds k e = true) ∧
          ∀ k ∈ g.filter.forbidden, s.world.holds k e = false)) ∧
    (∀ s, ReachesUnder (fun w r => Orderly w r ∧ Whole w r) start s →
      ∀ m, (s.world.manager m).retired = false → ∀ g ∈ (s.world.manager m).groups,
        ∀ e ∈ g.members, s.world.isAlive m e = true) := by
  constructor
  · intro s h m hm g hg e he
    obtain ⟨hwired, hexact⟩ := exact_of_reachesUnder (fun _ _ => id) h
    rw [← Filter.accepts_iff]
    constructor
    · exact hwired.sound m hm g hg e
    · exact hexact.complete m hm g hg e he
  · intro s h
    exact confined_of_reachesUnder (fun _ _ => And.left) (fun _ _ => And.right) h

end Session

end EntityStore

namespace EntityStore.Session

attribute [local instance] Host.plain

/-- Two entities are made; one holds a forbidden kind and stays outside. -/
theorem membership_of_two_entities :
    ∃ s, ReachesUnder (fun w r => Orderly w r ∧ Whole w r) start s ∧
      ∃ g ∈ (s.world.manager ⟨0⟩).groups, 1 ∈ g.members ∧ 2 ∉ g.members ∧
        s.world.isAlive ⟨0⟩ 2 = true ∧ ∀ e ∈ g.members, s.world.isAlive ⟨0⟩ e = true := by
  let a : KindId := ⟨0⟩
  let b : KindId := ⟨1⟩
  let m : ManagerId := ⟨0⟩
  let s := start.afterAll [.makeKind "A" .default, .makeKind "B" .default, .makeManager .default,
    .registerKind m a, .registerKind m b, .openGroup m [a] [b], .create m [a], .create m [a, b]]
  have h : ReachesUnder (fun w r => Orderly w r ∧ Whole w r) start s := by
    refine ReachesUnder.request ?_ rfl ⟨True.intro, ?_⟩
    refine ReachesUnder.request ?_ rfl ⟨True.intro, ?_⟩
    refine ReachesUnder.request ?_ rfl ⟨True.intro, True.intro⟩
    refine ReachesUnder.request ?_ (by decide +kernel) ⟨by decide +kernel, True.intro⟩
    refine ReachesUnder.request ?_ (by decide +kernel) ⟨by decide +kernel, True.intro⟩
    refine ReachesUnder.request ?_ (by decide +kernel) ⟨True.intro, True.intro⟩
    refine ReachesUnder.request ?_ rfl ⟨True.intro, True.intro⟩
    exact ReachesUnder.refl.request rfl ⟨True.intro, True.intro⟩
    · exact ne_error_of_isOk (by decide +kernel)
    · exact ne_error_of_isOk (by decide +kernel)
  have hpresent : (s.world.manager m).retired = false := by decide +kernel
  have hgroups : (s.world.manager m).groups[0]? ≠ none := by decide +kernel
  obtain ⟨g, hg⟩ := Option.ne_none_iff_exists'.1 hgroups
  have hmem := List.mem_of_getElem? hg
  have hfilter : (s.world.manager m).groups[0]?.map Group.filter = some ⟨[a], [b]⟩ := by
    decide +kernel
  rw [hg] at hfilter
  replace hfilter : g.filter = ⟨[a], [b]⟩ := Option.some.inj hfilter
  have hfirst := membership_of_reachesUnder.1 s (h.mono fun _ _ => And.left) m hpresent g hmem 1
    (by decide +kernel)
  have hsecond := membership_of_reachesUnder.1 s (h.mono fun _ _ => And.left) m hpresent g hmem 2
    (by decide +kernel)
  rw [hfilter] at hfirst hsecond
  refine ⟨s, h, g, hmem, ?_, ?_, by decide +kernel, ?_⟩
  · exact hfirst.2 (by decide +kernel)
  · exact fun hmember => absurd (hsecond.1 hmember) (by decide +kernel)
  · exact membership_of_reachesUnder.2 s h m hpresent g hmem

end EntityStore.Session
