import EntityStore.Proofs.Session.Moves

/-!
# Histories, event by event

`Session.Runs` is a history that remembers its events: what was there, what code outside did, what
came of it.  Laws about what has been called, and how often, are laws about this list.

* `runs_of_reaches`: every history is the history of some events.
* `act_request`, `act_finish`: what an event does to the world and to the stack.
-/

namespace EntityStore

/-- The last of some things is the one that was picked out of them, or it comes later. -/
theorem snoc_eq_append_cons {α : Type} {all pre post : List α} {last picked : α}
    (h : all ++ [last] = pre ++ picked :: post) :
    all = pre ∧ last = picked ∧ post = [] ∨
      ∃ later, post = later ++ [last] ∧ all = pre ++ picked :: later := by
  rcases List.eq_nil_or_concat post with rfl | ⟨later, final, rfl⟩
  · obtain ⟨hpre, hlast⟩ := List.append_inj' h rfl
    exact Or.inl ⟨hpre, List.singleton_inj.1 hlast, rfl⟩
  · rw [List.concat_eq_append, ← List.cons_append, ← List.append_assoc] at h
    obtain ⟨hall, hlast⟩ := List.append_inj' h rfl
    obtain rfl := List.singleton_inj.1 hlast
    exact Or.inr ⟨later, List.concat_eq_append, hall⟩

theorem forall_mem_snoc {α : Type} {P : α → Prop} {all : List α} {last : α} :
    (∀ x ∈ all ++ [last], P x) ↔ (∀ x ∈ all, P x) ∧ P last := by
  rw [List.forall_mem_append, List.forall_mem_singleton]

theorem exists_mem_snoc {α : Type} {P : α → Prop} {all : List α} {last : α} :
    (∃ x ∈ all ++ [last], P x) ↔ (∃ x ∈ all, P x) ∨ P last := by
  simp only [List.mem_append, List.mem_singleton, or_and_right, exists_or, exists_eq_left]

variable [Host]

/-- The callback that begins, if one does. -/
def Progress.pushed : Progress → List Frame
  | calls frame => [frame]
  | replies _ => []

namespace Progress

variable {P : Frame → Prop}

/-- What holds of a callback holds of whatever begins with it. -/
theorem forall_pushed_calls {frame : Frame} (h : P frame) : ∀ next ∈ (calls frame).pushed, P next :=
  List.forall_mem_singleton.2 h

/-- Where no callback begins, there is nothing to show. -/
theorem forall_pushed_of_nil {p : Progress} (h : p.pushed = []) : ∀ next ∈ p.pushed, P next := by
  rw [h]
  exact List.forall_mem_nil P

end Progress

namespace Session

/-- One step of a session. -/
structure Event where
  /-- What was there. -/
  before : Session
  /-- What code outside did. -/
  action : Action
  /-- What came of it. -/
  progress : Progress
  /-- What is there now. -/
  after : Session

/-- A history, with the list of its events. -/
inductive Runs (s : Session) : List Event → Session → Prop where
  /-- Nothing happens. -/
  | refl : Runs s [] s
  /-- One more event happens. -/
  | step {events : List Event} {t u : Session} (h : Runs s events t) (a : Action) (p : Progress)
      (hact : t.act a = some (u, p)) : Runs s (events ++ [⟨t, a, p, u⟩]) u

variable {s t u : Session} {events more : List Event}

theorem Runs.trans (h : Runs s events t) (g : Runs t more u) : Runs s (events ++ more) u := by
  induction g with
  | refl =>
      rw [List.append_nil]
      exact h
  | step _ a p hact ih =>
      rw [← List.append_assoc]
      exact ih.step a p hact

theorem Runs.cons {a : Action} {p : Progress} (hact : s.act a = some (t, p))
    (h : Runs t events u) : Runs s (⟨s, a, p, t⟩ :: events) u :=
  (Runs.refl.step a p hact).trans h

theorem runs_of_reaches (h : Reaches s t) : ∃ events, Runs s events t := by
  induction h with
  | refl => exact ⟨[], .refl⟩
  | step a p _ hact ih =>
      obtain ⟨events, hruns⟩ := ih
      exact ⟨_, hruns.step a p hact⟩

/-- Every event comes after the history of those before it. -/
theorem Runs.split {e : Event} {earlier later : List Event}
    (h : Runs s (earlier ++ e :: later) t) :
    Runs s earlier e.before ∧ e.before.act e.action = some (e.after, e.progress) := by
  generalize hall : earlier ++ e :: later = all at h
  induction h generalizing later with
  | refl => simp at hall
  | step hearlier a p hact ih =>
      rcases snoc_eq_append_cons hall.symm with ⟨rfl, rfl, rfl⟩ | ⟨others, rfl, hothers⟩
      · exact ⟨hearlier, hact⟩
      · exact ih hothers.symm

/-- What follows an event is a history of its own. -/
theorem Runs.rest {e : Event} {earlier later : List Event}
    (h : Runs s (earlier ++ e :: later) t) : Runs e.after later t := by
  generalize hall : earlier ++ e :: later = all at h
  induction h generalizing later with
  | refl => simp at hall
  | step hearlier a p hact ih =>
      rcases snoc_eq_append_cons hall.symm with ⟨rfl, rfl, rfl⟩ | ⟨others, rfl, hothers⟩
      · exact .refl
      · exact (ih hothers.symm).step a p hact

theorem Runs.act_of_mem (h : Runs s events t) {e : Event} (he : e ∈ events) :
    e.before.act e.action = some (e.after, e.progress) := by
  obtain ⟨earlier, later, rfl⟩ := List.append_of_mem he
  exact h.split.2

/-- What holds at the start and is kept by every event holds of every history. -/
theorem Runs.induct {P : List Event → Session → Prop} (h : Runs s events t) (hstart : P [] s)
    (hstep : ∀ events e, Runs s events e.before → P events e.before →
      e.before.act e.action = some (e.after, e.progress) → P (events ++ [e]) e.after) :
    P events t := by
  induction h with
  | refl => exact hstart
  | @step events t u hruns a p hact ih => exact hstep events ⟨t, a, p, u⟩ hruns ih hact

/-- A property that every event passes on from the session before it to the session after it. -/
theorem Runs.preserves {P : Session → Prop} (h : Runs s events t) (hs : P s)
    (hstep : ∀ e ∈ events, P e.before → P e.after) :
    P t ∧ ∀ e ∈ events, P e.before ∧ P e.after := by
  induction h with
  | refl => exact ⟨hs, fun e he => absurd he List.not_mem_nil⟩
  | step _ a p hact ih =>
      obtain ⟨hmid, hbefore⟩ := ih fun e he => hstep e (List.mem_append_left _ he)
      have hafter := hstep _ (List.mem_append_right _ (List.mem_singleton.2 rfl)) hmid
      exact ⟨hafter, forall_mem_snoc.2 ⟨hbefore, hmid, hafter⟩⟩

/-- An event of one sort has happened, and every event since is of another sort. -/
def Lately (P Q : Event → Prop) (events : List Event) : Prop :=
  ∃ earlier e later, events = earlier ++ e :: later ∧ P e ∧ ∀ f ∈ later, Q f

theorem lately_snoc {P Q : Event → Prop} {e : Event} :
    Lately P Q (events ++ [e]) ↔ P e ∨ Lately P Q events ∧ Q e := by
  constructor
  · rintro ⟨earlier, x, later, hsplit, hhappens, hsince⟩
    rcases snoc_eq_append_cons hsplit with ⟨rfl, rfl, rfl⟩ | ⟨others, rfl, hevents⟩
    · exact Or.inl hhappens
    · refine Or.inr ⟨⟨earlier, x, others, hevents, hhappens, fun f hf => hsince f ?_⟩, hsince _ ?_⟩
      · simp [hf]
      · simp
  · rintro (hhappens | ⟨⟨earlier, x, later, rfl, hhappens, hsince⟩, hlast⟩)
    · exact ⟨events, e, [], rfl, hhappens, fun f hf => absurd hf List.not_mem_nil⟩
    · refine ⟨earlier, x, later ++ [e], by simp, hhappens, fun f hf => ?_⟩
      rcases List.mem_append.1 hf with hold | hnew
      · exact hsince f hold
      · rw [List.mem_singleton.1 hnew]
        exact hlast

/-- The events of some actions, up to the first that is not possible. -/
def follow (s : Session) : List Action → List Event × Session
  | [] => ([], s)
  | a :: rest =>
    match s.act a with
    | none => ([], s)
    | some (t, p) =>
      let (events, u) := follow t rest
      (⟨s, a, p, t⟩ :: events, u)

theorem runs_follow (s : Session) (actions : List Action) :
    Runs s (s.follow actions).1 (s.follow actions).2 := by
  induction actions generalizing s with
  | nil => exact .refl
  | cons a rest ih =>
      cases hact : s.act a with
      | none =>
          simp only [follow, hact]
          exact .refl
      | some result =>
          obtain ⟨t, p⟩ := result
          simp only [follow, hact]
          exact (ih t).cons hact

/-! ## What an event does -/

theorem proceed_eq (stack : List Frame) (r : World × Progress) :
    proceed stack r = (⟨r.1, r.2.pushed ++ stack⟩, r.2) := by
  obtain ⟨w, p⟩ := r
  cases p <;> rfl

variable {a : Action} {p : Progress}

/-- A request is carried out over the stack as it is. -/
theorem act_request {r : Request} (h : s.act (.request r) = some (t, p)) :
    s.bars r = false ∧
      t = ⟨(s.world.serve s.engaged s.told r).1, p.pushed ++ s.stack⟩ ∧
      p = (s.world.serve s.engaged s.told r).2 := by
  unfold act at h
  dsimp only at h
  split at h
  · cases h
  · rename_i hopen
    rw [proceed_eq, Option.some.injEq, Prod.mk.injEq] at h
    obtain ⟨rfl, rfl⟩ := h
    exact ⟨Bool.eq_false_iff.2 hopen, rfl, rfl⟩

/-- A request that needs no manager for itself is possible at any time. -/
theorem act_eq_after (s : Session) {r : Request} (h : r.exclusive? = none) :
    s.act (.request r) = some (s.after r, (s.world.serve s.engaged s.told r).2) := by
  unfold act after bars
  dsimp only
  rw [h, proceed_eq]
  rfl

/-- A callback that returns makes way for what is to be done next. -/
theorem act_finish {outcome : Outcome} (h : s.act (.finish outcome) = some (t, p)) :
    ∃ frame stack, s.stack = frame :: stack ∧
      t = ⟨(s.world.resume outcome frame).1, p.pushed ++ stack⟩ ∧
      p = (s.world.resume outcome frame).2 := by
  unfold act at h
  dsimp only at h
  split at h
  · cases h
  · rename_i frame stack hstack
    rw [proceed_eq, Option.some.injEq, Prod.mk.injEq] at h
    obtain ⟨rfl, rfl⟩ := h
    exact ⟨frame, stack, hstack, rfl, rfl⟩

/-- What was made before an event is there after it. -/
theorem grows_of_act (h : s.act a = some (t, p)) : s.world.Grows t.world := by
  have hfree : s.Follows (fun _ _ => True) a := by
    cases a with
    | request r => exact True.intro
    | finish outcome => exact True.intro
  exact (moves_of_act hfree h).grows

theorem Runs.grows (h : Runs s events t) : s.world.Grows t.world := by
  induction h with
  | refl => exact .refl s.world
  | step _ a p hact ih => exact ih.trans (grows_of_act hact)

end Session

end EntityStore
