import EntityStore.Proofs.Group.Refresh

/-!
# The net change of a group

A group does not remember whom it had when it was flushed last.  It keeps two sets, who has joined
since and who has left, and brings them up to date with every single thing that it hears of.

* `Since base g`: the group `g` has come about in some way, and `base` were its members when it was
  flushed last or, if it never was, when it was seeded.
* `Since.net`: the two sets are the difference between the members and `base`, whatever has happened
  in between and however often.
* `filter_notices`: what one listener is told in a flush.
-/

namespace EntityStore

/-- What a group hears of. -/
inductive Happening where
  /-- An entity was made with the listed kinds. -/
  | created (e : EntityId) (kinds : List KindId) (holds : KindId → Bool)
  /-- An entity has gained or lost a kind. -/
  | changed (k : KindId) (e : EntityId) (holds : KindId → Bool)
  /-- An entity ceased to be. -/
  | removed (e : EntityId)

namespace Group

variable {g new : Group} {base : IdSet}

/-- Take up something that has happened. -/
def hear (g : Group) : Happening → Group
  | .created e kinds holds => g.entityCreated e kinds holds
  | .changed k e holds => g.kindChanged k e holds
  | .removed e => g.entityRemoved e

/-- A group that has taken up entities and has heard of nothing yet. -/
inductive Seeded : Group → Prop where
  | ofFilter (f : Filter) : Seeded (Group.ofFilter f)
  | seed {g : Group} (h : Seeded g) (e : EntityId) (accepted : Bool) : Seeded (g.seed e accepted)

/-- A group that has come about somehow, and its members at the last flush or at the seeding. -/
inductive Since : IdSet → Group → Prop where
  /-- It was seeded. -/
  | seeded {g : Group} (h : Seeded g) : Since g.members g
  /-- It has heard of something. -/
  | heard {base : IdSet} {g : Group} (h : Since base g) (x : Happening) : Since base (g.hear x)
  /-- A listener was attached. -/
  | listened {base : IdSet} {g new : Group} (h : Since base g) {l : ListenerId}
      (hnew : g.listen l = some new) : Since base new
  /-- A listener was detached. -/
  | unlistened {base : IdSet} {g : Group} (h : Since base g) (l : ListenerId) :
      Since base (g.unlisten l).1
  /-- It was flushed. -/
  | flushed {base : IdSet} {g : Group} (h : Since base g) : Since g.members g.drain.1

/-- The undelivered change is the difference between the members and those of before. -/
structure Net (base : IdSet) (g : Group) : Prop where
  added : ∀ e, e ∈ g.added ↔ e ∈ g.members ∧ e ∉ base
  removed : ∀ e, e ∈ g.removed ↔ e ∈ base ∧ e ∉ g.members

/-- Without an undelivered change the members are those of before. -/
theorem Net.base_eq (h : Net base g) (hadded : ∀ e, e ∉ g.added) (hremoved : ∀ e, e ∉ g.removed) :
    base = g.members := by
  ext e
  constructor
  · intro hbase
    exact Classical.byContradiction fun hout => hremoved e ((h.removed e).2 ⟨hbase, hout⟩)
  · intro hin
    exact Classical.byContradiction fun hout => hadded e ((h.added e).2 ⟨hin, hout⟩)

/-! ## What a single event does -/

/-- Whatever a group hears of, it is as before, or one entity joins or leaves. -/
theorem hear_cases (g : Group) (x : Happening) :
    g.hear x = g ∨ ∃ e, g.hear x = g.join e ∨ g.hear x = g.leave e := by
  have hrefresh : ∀ e accepted, g.refresh e accepted = g.join e ∨ g.refresh e accepted = g.leave e
    | _, true => Or.inl rfl
    | _, false => Or.inr rfl
  cases x with
  | created e kinds holds =>
      have hcreated : g.hear (.created e kinds holds) =
          if g.filter.acceptsKinds kinds then g.refresh e (g.filter.accepts holds) else g := rfl
      rw [hcreated]
      split
      · exact Or.inr ⟨e, hrefresh e _⟩
      · exact Or.inl rfl
  | changed k e holds =>
      have hchanged : g.hear (.changed k e holds) =
          if g.filter.mentions k then g.refresh e (g.filter.accepts holds) else g := rfl
      rw [hchanged]
      split
      · exact Or.inr ⟨e, hrefresh e _⟩
      · exact Or.inl rfl
  | removed e => exact Or.inr ⟨e, Or.inr rfl⟩

theorem listeners_join (g : Group) (e : EntityId) : (g.join e).listeners = g.listeners := by
  unfold join
  split
  · rfl
  · split <;> rfl

theorem listeners_leave (g : Group) (e : EntityId) : (g.leave e).listeners = g.listeners := by
  unfold leave
  split
  · split <;> rfl
  · rfl

theorem listeners_hear (g : Group) (x : Happening) : (g.hear x).listeners = g.listeners := by
  rcases hear_cases g x with h | ⟨e, h | h⟩
  · rw [h]
  · rw [h, listeners_join]
  · rw [h, listeners_leave]

/-- Who joins is added, or was removed before and is now neither. -/
theorem Net.join (h : Net base g) (e : EntityId) : Net base (g.join e) := by
  have hadded := h.added
  have hremoved := h.removed
  unfold Group.join
  split
  · exact h
  · rename_i hout
    split
    · rename_i hback
      -- it had left since, so it was one of them before
      have hbase := ((hremoved e).1 hback).1
      refine ⟨fun x => ?_, fun x => ?_⟩ <;> by_cases hx : x = e <;> simp_all
    · rename_i hnew
      have hbase : e ∉ base := fun hmem => hnew ((hremoved e).2 ⟨hmem, hout⟩)
      refine ⟨fun x => ?_, fun x => ?_⟩ <;> by_cases hx : x = e <;> simp_all

/-- Who leaves is removed, or was added before and is now neither. -/
theorem Net.leave (h : Net base g) (e : EntityId) : Net base (g.leave e) := by
  have hadded := h.added
  have hremoved := h.removed
  unfold Group.leave
  split
  · rename_i hin
    split
    · rename_i hnew
      have hbase := ((hadded e).1 hnew).2
      refine ⟨fun x => ?_, fun x => ?_⟩ <;> by_cases hx : x = e <;> simp_all
    · rename_i hold
      have hbase : e ∈ base := Classical.byContradiction fun hmem =>
        hold ((hadded e).2 ⟨hin, hmem⟩)
      refine ⟨fun x => ?_, fun x => ?_⟩ <;> by_cases hx : x = e <;> simp_all
  · exact h

theorem Net.hear (h : Net base g) (x : Happening) : Net base (g.hear x) := by
  rcases hear_cases g x with hx | ⟨e, hx | hx⟩
  · rw [hx]
    exact h
  · rw [hx]
    exact h.join e
  · rw [hx]
    exact h.leave e

/-! ## Attaching and detaching -/

theorem listen_eq_some {l : ListenerId} (h : g.listen l = some new) :
    l ∉ g.listeners ∧ new = { g with listeners := g.listeners ++ [l] } := by
  unfold listen at h
  split at h
  · cases h
  · rename_i hnew
    exact ⟨hnew, (Option.some.inj h).symm⟩

/-! ## Whole pasts -/

theorem Seeded.fields (h : Seeded g) : g.added = ∅ ∧ g.removed = ∅ ∧ g.listeners = [] := by
  induction h with
  | ofFilter f => exact ⟨rfl, rfl, rfl⟩
  | seed _ e accepted ih =>
      unfold Group.seed
      split
      · exact ih
      · exact ih

/-- The undelivered change is the net change since the last flush. -/
theorem Since.net (h : Since base g) : Net base g := by
  induction h with
  | seeded hseeded =>
      obtain ⟨hadded, hremoved, -⟩ := hseeded.fields
      refine ⟨fun x => ?_, fun x => ?_⟩
      · simp [hadded]
      · simp [hremoved]
  | heard _ x ih => exact ih.hear x
  | listened _ hnew ih =>
      obtain ⟨-, rfl⟩ := listen_eq_some hnew
      exact ⟨ih.added, ih.removed⟩
  | unlistened _ l ih => exact ⟨ih.added, ih.removed⟩
  | flushed _ ih =>
      refine ⟨fun x => ?_, fun x => ?_⟩
      · simp [drain]
      · simp [drain]

/-- No listener is attached twice. -/
theorem Since.nodup (h : Since base g) : g.listeners.Nodup := by
  induction h with
  | seeded hseeded =>
      rw [hseeded.fields.2.2]
      exact List.nodup_nil
  | heard _ x ih =>
      rw [listeners_hear]
      exact ih
  | listened _ hnew ih =>
      obtain ⟨hl, rfl⟩ := listen_eq_some hnew
      refine List.nodup_append.2 ⟨ih, by simp, ?_⟩
      intro a ha b hb hab
      rw [List.mem_singleton] at hb
      exact hl (hb ▸ hab ▸ ha)
  | unlistened _ l ih => exact List.Pairwise.filter _ ih
  | flushed _ ih => exact ih

end Group

/-! ## Notices -/

/-- The notices of one sort: each entity of a set for each listener. -/
theorem filter_about {listeners : List ListenerId} (hnodup : listeners.Nodup) {l : ListenerId}
    (hl : l ∈ listeners) (change : MemberChange) (entities : List EntityId) :
    (entities.flatMap fun e => listeners.map fun l => (⟨l, change, e⟩ : Notice)).filter
        (fun n => n.listener = l) =
      entities.map fun e => ⟨l, change, e⟩ := by
  have hone : ∀ e, (listeners.map fun l => (⟨l, change, e⟩ : Notice)).filter
      (fun n => n.listener = l) = [⟨l, change, e⟩] := by
    intro e
    rw [List.filter_map]
    have hself : listeners.filter (fun x => x = l) = [l] := by
      rw [List.filter_eq, hnodup.count, if_pos hl]
      rfl
    show (listeners.filter fun x => x = l).map _ = _
    rw [hself]
    rfl
  induction entities with
  | nil => rfl
  | cons e rest ih => rw [List.flatMap_cons, List.filter_append, hone, ih]; rfl

/-- What one listener is to hear of a change: who has left, ascending, and then who has joined,
ascending. -/
def News.noticesTo (n : News) (l : ListenerId) : List Notice :=
  (n.left.toList.map fun e => ⟨l, .left, e⟩) ++ n.joined.toList.map fun e => ⟨l, .joined, e⟩

/-- What one listener is told: who has left, ascending, and then who has joined, ascending. -/
theorem News.filter_notices (n : News) {listeners : List ListenerId} (hnodup : listeners.Nodup)
    {l : ListenerId} (hl : l ∈ listeners) :
    (n.notices listeners).filter (fun notice => notice.listener = l) = n.noticesTo l := by
  unfold News.notices News.noticesTo
  rw [List.filter_append, filter_about hnodup hl, filter_about hnodup hl]

theorem News.mem_notices {n : News} {listeners : List ListenerId} {notice : Notice} :
    notice ∈ n.notices listeners ↔ notice.listener ∈ listeners ∧
      (notice.change = .left ∧ notice.entity ∈ n.left ∨
        notice.change = .joined ∧ notice.entity ∈ n.joined) := by
  obtain ⟨l, change, e⟩ := notice
  unfold News.notices
  simp only [List.mem_append, List.mem_flatMap, List.mem_map, Notice.mk.injEq, IdSet.mem_toList]
  constructor
  · rintro (⟨x, hx, y, hy, rfl, rfl, rfl⟩ | ⟨x, hx, y, hy, rfl, rfl, rfl⟩)
    · exact ⟨hy, Or.inl ⟨rfl, hx⟩⟩
    · exact ⟨hy, Or.inr ⟨rfl, hx⟩⟩
  · rintro ⟨hl, ⟨rfl, he⟩ | ⟨rfl, he⟩⟩
    · exact Or.inl ⟨e, he, l, hl, rfl, rfl, rfl⟩
    · exact Or.inr ⟨e, he, l, hl, rfl, rfl, rfl⟩

/-- What a flush of a group comes to, when `base` were its members at the flush before. -/
structure Group.Flushes (base : IdSet) (g : Group) : Prop where
  /-- Who is reported to have left was a member then and is none now. -/
  left : ∀ e, e ∈ g.drain.2.left ↔ e ∈ base ∧ e ∉ g.members
  /-- Who is reported to have joined is a member now and was none then. -/
  joined : ∀ e, e ∈ g.drain.2.joined ↔ e ∈ g.members ∧ e ∉ base
  /-- What is returned are the sizes of the two sets. -/
  counts : g.drain.2.counts = (g.removed.size, g.added.size)
  /-- Nothing is left to be delivered, and the members of now are those to compare with next. -/
  after : g.drain.1 = { g with added := ∅, removed := ∅ } ∧ Since g.members g.drain.1
  /-- Whoever is told is attached. -/
  addressed : ∀ n ∈ g.drain.2.notices g.listeners, n.listener ∈ g.listeners
  /-- Every removal comes before every addition. -/
  ordered : ∃ lefts joins, g.drain.2.notices g.listeners = lefts ++ joins ∧
    (∀ n ∈ lefts, n.change = .left) ∧ ∀ n ∈ joins, n.change = .joined
  /-- Every attached listener is told of both sets in ascending order. -/
  heard : ∀ l ∈ g.listeners, (g.drain.2.notices g.listeners).filter (fun n => n.listener = l) =
    g.drain.2.noticesTo l
  /-- No listener is told twice of the same entity. -/
  once : ∀ l, ((g.drain.2.noticesTo l).map Notice.entity).Nodup

theorem Group.Since.flushes {base : IdSet} {g : Group} (h : Since base g) : g.Flushes base := by
  have hnet := h.net
  constructor
  · exact hnet.removed
  · exact hnet.added
  · rfl
  · exact ⟨rfl, h.flushed⟩
  · exact fun n hn => (News.mem_notices.1 hn).1
  · refine ⟨_, _, rfl, fun n hn => ?_, fun n hn => ?_⟩
    · simp only [List.mem_flatMap, List.mem_map] at hn
      obtain ⟨e, -, l, -, rfl⟩ := hn
      rfl
    · simp only [List.mem_flatMap, List.mem_map] at hn
      obtain ⟨e, -, l, -, rfl⟩ := hn
      rfl
  · exact fun l hl => News.filter_notices _ h.nodup hl
  · intro l
    have hentities : ((g.drain.2.noticesTo l).map Notice.entity) =
        g.removed.toList ++ g.added.toList := by
      simp [News.noticesTo, drain, Function.comp_def]
    rw [hentities]
    refine List.nodup_append.2 ⟨?_, ?_, fun a ha b hb hab => ?_⟩
    · exact g.removed.ascending.imp Nat.ne_of_lt
    · exact g.added.ascending.imp Nat.ne_of_lt
    · -- who has left is no member, and who has joined is one
      rw [hab] at ha
      exact ((hnet.removed b).1 ha).2 ((hnet.added b).1 hb).1

end EntityStore
