import EntityStore.Proofs.Session.Phases
import EntityStore.Proofs.Session.Retained
import EntityStore.Proofs.World.Registration

/-!
# Kinds belong to one manager

Code outside registers kinds with managers and attaches kinds to observers, under numbers of its own
choice and in any order, and in between it does whatever else it likes.

* `Event.Registers`: a kind is registered under a number.
* `Recorded`, `recorded_of_runs`: the kinds of a manager are those that were registered, each under
  its number, they have the names under which they were registered, and the table of the names agrees
  with the list.
* `enrolment_of_runs`: the law of registration.
-/

namespace EntityStore

variable [Host]

open World

namespace Session

variable {s : Session} {e : Event} {events : List Event} {m : ManagerId} {k : KindId}

/-- A kind is registered with a manager under a number. -/
def Event.Registers (e : Event) (m : ManagerId) (k : KindId) (number : Nat) : Prop :=
  e.action = .request (.registerKind m k) ∧ e.progress = .replies (.ok (.number number))

/-- No kind is registered. -/
def NoneRegistered : Rule
  | _, .registerKind _ _ => False
  | _, _ => True

/-- What it comes to when a kind is to be registered: no callback begins. -/
theorem registration_of_act (henrolled : e.before.world.Enrolled)
    (haction : e.action = .request (.registerKind m k))
    (hact : e.before.act e.action = some (e.after, e.progress)) :
    ∃ result, Registration e.before.world m k e.after.world result ∧
      e.after.stack = e.before.stack ∧
      e.progress = (answer Granted.number (e.after.world, result)).2 := by
  rw [haction] at hact
  obtain ⟨hworld, hstack, hprogress⟩ := act_answered Granted.number hact rfl
  rw [hworld]
  exact ⟨_, henrolled.registration m k, hstack, hprogress⟩

/-- Whatever else code outside does, all kinds stay where they are. -/
theorem rolls_of_act (hother : ∀ m k, e.action ≠ .request (.registerKind m k))
    (hw : e.before.world.Wired) (hact : e.before.act e.action = some (e.after, e.progress)) :
    SameRolls e.before.world e.after.world := by
  have hfollows : e.before.Follows NoneRegistered e.action := by
    cases haction : e.action with
    | finish outcome => exact True.intro
    | request r =>
        cases r with
        | registerKind m k => exact absurd haction (hother m k)
        | _ => exact True.intro
  have hmoves := moves_of_act hfollows hact
  refine (hmoves.preserves (P := fun u => u.Wired ∧ SameRolls e.before.world u) ?_
    ⟨hw, .refl _⟩).2
  rintro x y hmove ⟨hwired, hrolls⟩
  exact ⟨hwired.effect (fun _ _ h => h.elim) (effect_of_move hwired.packed hmove),
    hrolls.trans (hmove.rolls (fun _ _ _ h => h) hwired)⟩

/-! ## The record of registrations -/

/-- Every manager has the kinds that were registered with it, each under its number and with its
name. -/
structure Recorded (events : List Event) (s : Session) : Prop where
  enrolled : s.world.Enrolled
  registered : ∀ m i k, (s.world.manager m).kinds[i]? = some k ↔ ∃ e ∈ events, e.Registers m k i
  names : ∀ e ∈ events, ∀ m k i, e.Registers m k i → s.world.kindName k = e.before.world.kindName k

/-- An event that registers nothing leaves the record. -/
theorem Recorded.keep (h : Recorded events e.before)
    (hrolls : SameRolls e.before.world e.after.world) (hnone : ∀ m k i, ¬ e.Registers m k i) :
    Recorded (events ++ [e]) e.after where
  enrolled := h.enrolled.rolls hrolls
  registered m i k := by
    rw [hrolls.kinds, h.registered, exists_mem_snoc, or_iff_left (hnone m k i)]
  names := by
    refine forall_mem_snoc.2 ⟨fun f hf m k i hregisters => ?_, fun m k i hregisters => ?_⟩
    · have hattached := (h.enrolled.numbered m i k).1 ((h.registered m i k).2 ⟨f, hf, hregisters⟩)
      exact (hrolls.names k i m hattached).trans (h.names f hf m k i hregisters)
    · exact absurd hregisters (hnone m k i)

/-- A kind that is registered is recorded. -/
theorem Recorded.granted (h : Recorded events e.before)
    (haction : e.action = .request (.registerKind m k))
    (hworld : e.after.world = e.before.world.withKind m k)
    (hprogress : e.progress = .replies (.ok (.number (e.before.world.manager m).kinds.length)))
    (hm : m.place < e.before.world.managers.length) (hk : k.place < e.before.world.kinds.length)
    (hfree : ∀ j ∈ (e.before.world.manager m).kinds,
      e.before.world.kindName j ≠ e.before.world.kindName k)
    (hnew : (e.before.world.kind k).attachment = none) : Recorded (events ++ [e]) e.after := by
  have hthis : ∀ n j i, e.Registers n j i ↔
      n = m ∧ j = k ∧ i = (e.before.world.manager m).kinds.length := by
    intro n j i
    unfold Event.Registers
    rw [haction, hprogress]
    constructor
    · rintro ⟨hrequest, hanswer⟩
      cases hrequest
      cases hanswer
      exact ⟨rfl, rfl, rfl⟩
    · rintro ⟨rfl, rfl, rfl⟩
      exact ⟨rfl, rfl⟩
  constructor
  case enrolled =>
    rw [hworld]
    exact h.enrolled.withKind hm hk hnew hfree
  case registered =>
    intro n i j
    rw [hworld, getElem?_kinds_withKind hm, h.registered, exists_mem_snoc, hthis]
  case names =>
    refine forall_mem_snoc.2 ⟨fun f hf n j i hregisters => ?_, fun n j i hregisters => ?_⟩
    · rw [hworld, kindName_withKind]
      exact h.names f hf n j i hregisters
    · rw [hworld, kindName_withKind]

theorem Recorded.step (h : Recorded events e.before) (hw : e.before.world.Wired)
    (hmade : e.before.Follows KindsMade e.action)
    (hact : e.before.act e.action = some (e.after, e.progress)) :
    Recorded (events ++ [e]) e.after := by
  by_cases hregister : ∃ m k, e.action = .request (.registerKind m k)
  · obtain ⟨m, k, haction⟩ := hregister
    obtain ⟨result, hregistration, -, hprogress⟩ := registration_of_act h.enrolled haction hact
    have hrefused : ∀ cause, e.after.world = e.before.world →
        e.progress = .refuses cause → Recorded (events ++ [e]) e.after := by
      intro cause hworld hrefuses
      refine h.keep (by rw [hworld]; exact .refl _) fun n j i hregisters => ?_
      rw [hregisters.2] at hrefuses
      cases hrefuses
    generalize hafter : e.after.world = v at hregistration hprogress
    cases hregistration with
    | closed hlife => exact hrefused _ hafter hprogress
    | taken hlife j hj hname => exact hrefused _ hafter hprogress
    | attached hlife hfree a hattached => exact hrefused _ hafter hprogress
    | granted hlife hfree hnew =>
        have hm : m.place < e.before.world.managers.length := by
          apply lt_length_of_lifecycle
          rw [hlife]
          exact nofun
        rw [haction] at hmade
        exact h.granted haction hafter hprogress hm hmade hfree hnew
  · have hother : ∀ m k, e.action ≠ .request (.registerKind m k) := fun m k haction =>
      hregister ⟨m, k, haction⟩
    exact h.keep (rolls_of_act hother hw hact) fun m k i hregisters => hother m k hregisters.1

theorem recorded_start : Recorded [] start where
  enrolled := enrolled_empty
  registered m i k := by
    refine iff_of_false (fun hget => ?_) ?_
    · have hattached := (enrolled_empty.numbered m i k).1 hget
      cases hattached
    · rintro ⟨e, he, -⟩
      exact absurd he List.not_mem_nil
  names e he := absurd he List.not_mem_nil

theorem recorded_of_runs (h : Runs start events s)
    (hrule : ∀ e ∈ events, e.before.Follows KindsMade e.action) : Recorded events s := by
  induction h with
  | refl => exact recorded_start
  | @step events t u hruns a p hact ih =>
      have hpast : ∀ e ∈ events, e.before.Follows KindsMade e.action := fun e he =>
        hrule e (List.mem_append_left _ he)
      have hlast := hrule ⟨t, a, p, u⟩ (List.mem_append_right _ (List.mem_singleton.2 rfl))
      exact (ih hpast).step (e := ⟨t, a, p, u⟩) (wired_of_runs (fun _ _ _ h => h) hruns hpast) hlast
        hact

/-! ## The law of registration -/

/-- What there is to say about kinds that were registered or not. -/
structure Enrolment (events : List Event) (s : Session) : Prop where
  /-- The kinds of a manager are numbered by their places, and each is attached to the manager under
  its number. -/
  numbered : ∀ m i k, (s.world.manager m).kinds[i]? = some k ↔
    (s.world.kind k).attachment = some ⟨i, .manager m⟩
  /-- They are the kinds that were registered with it, and have the numbers that were answered. -/
  registered_iff : ∀ m i k, (s.world.manager m).kinds[i]? = some k ↔
    ∃ e ∈ events, e.Registers m k i
  /-- Their names are different. -/
  named : ∀ m, ((s.world.manager m).kinds.map s.world.kindName).Nodup
  /-- The table of the names leads from each of them to the number of its kind, and from no other. -/
  tabled : ∀ m name i, s.world.numberNamed? m name = some i ↔
    ∃ k, (s.world.manager m).kinds[i]? = some k ∧ s.world.kindName k = name
  /-- No kind is registered with two managers. -/
  exclusive : ∀ m n k, k ∈ (s.world.manager m).kinds → k ∈ (s.world.manager n).kinds → m = n
  /-- A name leads to the kind that was registered under it. -/
  lookUp_iff : ∀ m name k, s.world.lookUp m name = .ok k ↔
    ∃ e ∈ events, ∃ i, e.Registers m k i ∧ e.before.world.kindName k = name
  /-- If none was, the name is refused. -/
  lookUp_error_iff : ∀ m name cause, s.world.lookUp m name = .error cause ↔
    cause = .unregisteredKind name ∧
      ∀ e ∈ events, ∀ k i, e.Registers m k i → e.before.world.kindName k ≠ name
  /-- The check of a kind looks at the list of the manager and at nothing else. -/
  checked : ∀ m k, s.world.isRegistered m k = true ↔ k ∈ (s.world.manager m).kinds
  /-- The first kind of others is refused, unless one before it comes twice. -/
  create_iff : ∀ m kinds name, (s.world.create m kinds).2 = .error (.unregisteredKind name) ↔
    (s.world.manager m).lifecycle ≠ .shutDown ∧ ∃ pre k post, kinds = pre ++ k :: post ∧
      (∀ j ∈ pre, j ∈ (s.world.manager m).kinds) ∧ pre.Nodup ∧ k ∉ (s.world.manager m).kinds ∧
        s.world.kindName k = name
  /-- A kind is given to an entity only if it is one of the manager's own, -/
  addComponent_iff : ∀ m e k name,
    (s.world.addComponent m e k).2 = .error (.unregisteredKind name) ↔
      k ∉ (s.world.manager m).kinds ∧ s.world.kindName k = name
  /-- and so it is with taking it away. -/
  removeComponent_iff : ∀ m e k name,
    (s.world.removeComponent m e k).2 = .error (.unregisteredKind name) ↔
      k ∉ (s.world.manager m).kinds ∧ s.world.kindName k = name
  /-- Of the kinds of a filter the first kind of others is refused. -/
  openGroup_iff : ∀ m required forbidden name,
    (s.world.openGroup m required forbidden).2 = .error (.unregisteredKind name) ↔
      ∃ pre k post, required ++ forbidden = pre ++ k :: post ∧
        (∀ j ∈ pre, j ∈ (s.world.manager m).kinds) ∧ k ∉ (s.world.manager m).kinds ∧
          s.world.kindName k = name
  /-- When a kind is registered, and what its registration is refused for. -/
  outcome : ∀ m k, Registration s.world m k (s.world.registerKind m k).1 (s.world.registerKind m k).2
  /-- A registration that is refused changes nothing at all. -/
  refused : ∀ e ∈ events, ∀ m k, e.action = .request (.registerKind m k) →
    (∀ i, ¬ e.Registers m k i) → e.after = e.before
  /-- So the kind can still be registered with any manager that is being set up and has no kind of its
  name, unless it was attached before. -/
  elsewhere : ∀ e ∈ events, ∀ m k, e.action = .request (.registerKind m k) →
    (∀ i, ¬ e.Registers m k i) → (e.before.world.kind k).attachment = none →
      ∀ n, (e.after.world.manager n).lifecycle = .setup →
        (∀ j ∈ (e.after.world.manager n).kinds, e.after.world.kindName j ≠ e.after.world.kindName k) →
          e.after.world.registerKind n k =
            (e.after.world.withKind n k, .ok (e.after.world.manager n).kinds.length)
  /-- One that is granted adds the kind, and no other manager and no other kind takes notice. -/
  granted : ∀ e ∈ events, ∀ m k i, e.Registers m k i →
    i = (e.before.world.manager m).kinds.length ∧ e.after.world = e.before.world.withKind m k

/-- Kinds are registered with managers and attached to observers in any way, and nothing is asked of
code outside but that the kinds were made.  Then every manager has the kinds that were registered with
it and no others, under their numbers and names, and no kind of another manager or of nobody passes
for one of them. -/
theorem enrolment_of_runs (h : Runs start events s)
    (hrule : ∀ e ∈ events, e.before.Follows KindsMade e.action) : Enrolment events s := by
  have hrecorded := recorded_of_runs h hrule
  have henrolled := hrecorded.enrolled
  have hbefore : ∀ e ∈ events, e.before.world.Enrolled := by
    intro e he
    obtain ⟨earlier, later, rfl⟩ := List.append_of_mem he
    exact (recorded_of_runs h.split.1 fun f hf => hrule f (List.mem_append_left _ hf)).enrolled
  have hrefused : ∀ e ∈ events, ∀ m k, e.action = .request (.registerKind m k) →
      (∀ i, ¬ e.Registers m k i) → e.after = e.before := by
    intro e he m k haction hnone
    obtain ⟨result, hregistration, hstack, hprogress⟩ :=
      registration_of_act (hbefore e he) haction (h.act_of_mem he)
    refine eq_of_parts ?_ hstack
    generalize e.after.world = v at hregistration hprogress
    cases hregistration with
    | closed | taken | attached => rfl
    | granted hlife hfree hnew => exact absurd ⟨haction, hprogress⟩ (hnone _)
  have hmember : ∀ m k, k ∈ (s.world.manager m).kinds ↔ ∃ e ∈ events, ∃ i, e.Registers m k i := by
    intro m k
    rw [List.mem_iff_getElem?]
    simp only [hrecorded.registered]
    constructor
    · rintro ⟨i, e, he, hregisters⟩
      exact ⟨e, he, i, hregisters⟩
    · rintro ⟨e, he, i, hregisters⟩
      exact ⟨i, e, he, hregisters⟩
  constructor
  case numbered => exact henrolled.numbered
  case registered_iff => exact hrecorded.registered
  case named => exact henrolled.named
  case tabled => exact henrolled.tabled
  case exclusive => exact fun m n k => henrolled.manager_unique
  case lookUp_iff =>
    intro m name k
    rw [henrolled.lookUp_eq_ok, hmember]
    constructor
    · rintro ⟨⟨e, he, i, hregisters⟩, rfl⟩
      exact ⟨e, he, i, hregisters, (hrecorded.names e he m k i hregisters).symm⟩
    · rintro ⟨e, he, i, hregisters, rfl⟩
      exact ⟨⟨e, he, i, hregisters⟩, hrecorded.names e he m k i hregisters⟩
  case lookUp_error_iff =>
    intro m name cause
    rw [henrolled.lookUp_eq_error]
    refine and_congr_right fun _ => ⟨fun hnone e he k i hregisters => ?_, fun hnone k hk => ?_⟩
    · rw [← hrecorded.names e he m k i hregisters]
      exact hnone k ((hmember m k).2 ⟨e, he, i, hregisters⟩)
    · obtain ⟨e, he, i, hregisters⟩ := (hmember m k).1 hk
      rw [hrecorded.names e he m k i hregisters]
      exact hnone e he k i hregisters
  case checked => exact fun m k => henrolled.isRegistered_iff
  case create_iff => exact fun m kinds name => henrolled.create_foreign_iff
  case addComponent_iff => exact fun m e k name => henrolled.addComponent_foreign_iff
  case removeComponent_iff => exact fun m e k name => henrolled.removeComponent_foreign_iff
  case openGroup_iff => exact fun m required forbidden name => henrolled.openGroup_foreign_iff
  case outcome => exact henrolled.registration
  case refused => exact hrefused
  case elsewhere =>
    intro e he m k haction hnone hnew n hlife hfree
    have hsame := hrefused e he m k haction hnone
    rw [← hsame] at hnew
    refine Enrolled.registerKind_eq_ok ?_ hlife hfree hnew
    rw [hsame]
    exact hbefore e he
  case granted =>
    intro e he m k i hregisters
    obtain ⟨result, hregistration, -, hprogress⟩ :=
      registration_of_act (hbefore e he) hregisters.1 (h.act_of_mem he)
    rw [hregisters.2] at hprogress
    generalize e.after.world = v at hregistration hprogress
    cases hregistration with
    | closed | taken | attached => cases hprogress
    | granted hlife hfree hnew =>
        cases hprogress
        exact ⟨rfl, rfl⟩

end Session

end EntityStore

namespace EntityStore.Session

attribute [local instance] Host.plain

/-- Two managers and three kinds, two of which have the same name.  The second of these is refused by
the first manager and registered with the second one.  The third kind is attached to an observer under
the number of a kind of the first manager. -/
def sharedName : List Action :=
  [.request (.makeManager .default), .request (.makeManager .default),
    .request (.makeKind "A" .default), .request (.makeKind "A" .default),
    .request (.makeKind "B" .default), .request (.registerKind ⟨0⟩ ⟨0⟩),
    .request (.registerKind ⟨0⟩ ⟨1⟩), .request (.registerKind ⟨1⟩ ⟨1⟩), .request .makeObserver,
    .request (.attach ⟨2⟩ 0 ⟨0⟩)]

/-- Both managers know a kind by the name, and each knows its own.  The first one takes neither the
kind of the other one nor the kind of the observer for its own. -/
theorem enrolment_of_shared_name :
    let run := start.follow sharedName
    let w := run.2.world
    Runs start run.1 run.2 ∧ w.lookUp ⟨0⟩ "A" = .ok ⟨0⟩ ∧ w.lookUp ⟨1⟩ "A" = .ok ⟨1⟩ ∧
      w.isRegistered ⟨0⟩ ⟨1⟩ = false ∧
      (w.create ⟨0⟩ [⟨0⟩, ⟨2⟩]).2 = .error (.unregisteredKind "B") := by
  intro run w
  have hruns : Runs start run.1 run.2 := runs_follow start sharedName
  have hrule : ∀ e ∈ run.1, e.before.Follows KindsMade e.action := by decide +kernel
  have hlaw := enrolment_of_runs hruns hrule
  have hkinds : (w.manager ⟨0⟩).kinds = [⟨0⟩] ∧ (w.manager ⟨1⟩).kinds = [⟨1⟩] := by decide +kernel
  have henrolled := (recorded_of_runs hruns hrule).enrolled
  refine ⟨hruns, henrolled.lookUp_eq_ok.2 ⟨?_, by decide +kernel⟩,
    henrolled.lookUp_eq_ok.2 ⟨?_, by decide +kernel⟩, ?_, ?_⟩
  · rw [hkinds.1]
    exact List.mem_singleton.2 rfl
  · rw [hkinds.2]
    exact List.mem_singleton.2 rfl
  · refine Bool.eq_false_iff.2 fun hregistered => ?_
    have hmem := (hlaw.checked ⟨0⟩ ⟨1⟩).1 hregistered
    have hsame := hlaw.exclusive ⟨0⟩ ⟨1⟩ ⟨1⟩ hmem (by
      rw [hkinds.2]
      exact List.mem_singleton.2 rfl)
    cases hsame
  · refine (hlaw.create_iff ⟨0⟩ [⟨0⟩, ⟨2⟩] "B").2
      ⟨by decide +kernel, [⟨0⟩], ⟨2⟩, [], rfl, ?_, by decide, ?_, by decide +kernel⟩
    · rw [hkinds.1]
      exact fun j hj => hj
    · rw [hkinds.1]
      decide

end EntityStore.Session
