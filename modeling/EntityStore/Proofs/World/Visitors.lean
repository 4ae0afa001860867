import EntityStore.Proofs.Session.Readying
import EntityStore.Proofs.World.Catalogue

/-!
# Visitors that have a group

A visitor gets its group when it is initialised, and the manager of the group is asked for it with
the kinds of the visitor.  So that manager knows these kinds, and there is no other way to a group
unless the visitor was given one before it was handed over.

* `Prepared`: the manager of the group of any visitor knows all kinds of the visitor.
* `Refits`: a visitor that has a group now had it before, or was given it by a manager that knew its
  kinds.
* `refits_serve`, `refits_resume`: every step of a session refits.
-/

namespace EntityStore

variable [Host]

/-- The filter that a visitor asks its group for. -/
def Visitor.filter (v : Visitor) : Filter := ⟨v.required, v.forbidden⟩

namespace World

variable {w v u : World} {m : ManagerId} {p : ProcessorId} {visitor : Visitor} {g : GroupRef}

/-- Does a processor have no group yet, or one from a manager that knows its kinds? -/
def fits (w : World) (p : Processor) : Bool :=
  match p.body with
  | .custom => true
  | .visitor v => v.group.all fun g =>
      (v.required ++ v.forbidden).all fun k => decide (k ∈ (w.manager g.manager).kinds)

/-- Does a processor fit that is handed over? -/
def admits (w : World) : Request → Bool
  | .registerProcessor _ p => w.fits p
  | .makeProcessor p => w.fits p
  | _ => true

/-- A processor is a visitor that has a group. -/
def Visits (w : World) (p : ProcessorId) (visitor : Visitor) (g : GroupRef) : Prop :=
  (w.processor p).body = .visitor visitor ∧ visitor.group = some g

/-- The manager of a group knows the kinds of a visitor. -/
def Knows (w : World) (visitor : Visitor) (g : GroupRef) : Prop :=
  ∀ k, visitor.filter.mentions k = true → k ∈ (w.manager g.manager).kinds

/-- Every visitor has its group from a manager that knows its kinds. -/
def Prepared (w : World) : Prop := ∀ p visitor g, w.Visits p visitor g → w.Knows visitor g

/-- Whoever has a group had it before, or was given it by a manager that knew the kinds. -/
def Refits (w v : World) : Prop :=
  ∀ p visitor g, v.Visits p visitor g → w.Visits p visitor g ∨ w.Knows visitor g

theorem refits_of_same (h : v.processors = w.processors) : Refits w v := by
  intro p visitor g hvisits
  refine Or.inl ?_
  unfold Visits processor at hvisits ⊢
  rw [h] at hvisits
  exact hvisits

theorem Refits.andThen (h : Refits w v) (hkinds : ∀ m, (v.manager m).kinds = (w.manager m).kinds)
    (k : Refits v u) : Refits w u := by
  intro p visitor g hvisits
  rcases k p visitor g hvisits with hbefore | hknows
  · exact h p visitor g hbefore
  · refine Or.inr fun j hj => ?_
    rw [← hkinds]
    exact hknows j hj

/-- A processor that is added has no group from a manager that does not know its kinds. -/
theorem refits_concat {processor : Processor} (hfits : w.fits processor = true)
    (h : v.processors = w.processors ++ [processor]) : Refits w v := by
  rintro p visitor g ⟨hbody, hgroup⟩
  unfold World.processor at hbody
  rw [h, getD_concat] at hbody
  split at hbody
  · refine Or.inr fun k hk => ?_
    unfold fits at hfits
    rw [hbody] at hfits
    dsimp only at hfits
    rw [hgroup, Option.all_some, List.all_eq_true] at hfits
    exact of_decide_eq_true (hfits k (List.mem_append.2 (Filter.mentions_iff.1 hk)))
  · exact Or.inl ⟨hbody, hgroup⟩

/-! ## Processors stay -/

theorem processors_create (w : World) (m : ManagerId) (kinds : List KindId) :
    (w.create m kinds).1.processors = w.processors := by
  rcases create_tells w m kinds with hsame | ⟨a, u, htells, hmade | ⟨e, hundone⟩⟩
  · rw [hsame]
  · rw [hmade]
    exact htells.processors
  · rw [hundone]
    exact htells.processors

theorem processors_removeDue (w : World) (m : ManagerId) (e : EntityId) :
    (w.removeDue m e).processors = w.processors := by
  obtain ⟨u, htells, hdead | hremoved⟩ := removeDue_tells w m e
  · rw [hdead]
    exact htells.processors
  · rw [hremoved]
    exact htells.processors

theorem processors_flush (w : World) (m : ManagerId) (numbers : List Nat) :
    (w.flush m numbers).1.processors = w.processors := by
  induction numbers generalizing w with
  | nil => rfl
  | cons number groups ih =>
      have htaken : (w.takeNews ⟨m, number⟩).1.processors = w.processors := rfl
      unfold flush
      split
      · rename_i hnews
        rw [hnews] at htaken
        rw [ih]
        exact htaken
      · rename_i hnews
        rw [hnews] at htaken
        exact htaken

theorem processors_endTick (w : World) (m : ManagerId) :
    (w.endTick m).1.processors = w.processors := by
  have hremoved : (w.removeAllDue m).processors = w.processors :=
    removeAllDue_preserves (P := fun u => u.processors = w.processors) rfl fun u e hu =>
      (processors_removeDue u m e).trans hu
  exact (processors_flush _ m _).trans hremoved

theorem processors_runUpdates (w : World) (m : ManagerId) (time : Time)
    (processors : List ProcessorId) :
    (w.runUpdates m time processors).1.processors = w.processors := by
  rcases runUpdates_cases w m time processors with htick | ⟨p, hsame, -⟩
  · rw [htick]
    exact processors_endTick w m
  · rw [hsame]

theorem processors_openGroup (w : World) (m : ManagerId) (required forbidden : List KindId) :
    (w.openGroup m required forbidden).1.processors = w.processors := by
  rcases opened_or_same w m required forbidden with hsame | ⟨-, hmade⟩
  · rw [hsame]
  · rw [hmade]
    rfl

theorem processors_listen (w : World) (g : GroupRef) (l : ListenerId) :
    (w.listen g l).1.processors = w.processors := by
  unfold listen
  split <;> rfl

theorem processors_registerKind (w : World) (m : ManagerId) (k : KindId) :
    (w.registerKind m k).1.processors = w.processors := by
  rcases registered_or_same w m k with hsame | ⟨-, -, hkind⟩
  · rw [hsame]
  · rw [hkind]
    rfl

theorem processors_makeManager (w : World) (config : ManagerConfig) :
    (w.makeManager config).1.processors = w.processors := by
  unfold makeManager
  split <;> rfl

/-! ## Initialisation -/

/-- A group that is granted is one of the manager that was asked, who knows the kinds. -/
theorem knows_of_openGroup (h : (w.openGroup m visitor.required visitor.forbidden).2 = .ok g) :
    w.Knows visitor g := by
  have hopened := opened w m visitor.required visitor.forbidden
  rw [h] at hopened
  have hmentioned : ∀ k, visitor.filter.mentions k = true →
      k ∈ visitor.required ++ visitor.forbidden := fun k hk =>
    List.mem_append.2 (Filter.mentions_iff.1 hk)
  generalize (w.openGroup m visitor.required visitor.forbidden).1 = v at hopened
  cases hopened with
  | found number f hknown =>
      exact fun k hk => mem_kinds_of_isRegistered (hknown k (hmentioned k hk))
  | made hknown => exact fun k hk => mem_kinds_of_isRegistered (hknown k (hmentioned k hk))

theorem refits_settleVisitor (w : World) (p : ProcessorId) (visitor : Visitor) (m : ManagerId) :
    Refits w (w.settleVisitor p visitor m).1 := by
  have hopened := processors_openGroup w m visitor.required visitor.forbidden
  have hknown : ∀ {g}, (w.openGroup m visitor.required visitor.forbidden).2 = .ok g →
      w.Knows visitor g := knows_of_openGroup
  unfold settleVisitor
  split
  · rename_i u g hgroup
    rw [hgroup] at hopened hknown
    rintro q other h ⟨hbody, hother⟩
    unfold updateProcessor World.processor at hbody
    dsimp only at hbody
    rw [getD_modify] at hbody
    split at hbody
    · -- this is the visitor that was given the group
      cases hbody
      cases hother
      exact Or.inr (hknown rfl)
    · exact refits_of_same hopened q other h ⟨hbody, hother⟩
  · rename_i u cause hgroup
    rw [hgroup] at hopened
    exact refits_of_same hopened

theorem kinds_of_readied (h : Readied w v) (m : ManagerId) :
    (v.manager m).kinds = (w.manager m).kinds :=
  h.field_eq Manager.kinds (fun _ _ _ _ => rfl) m

theorem refits_runInits (w : World) (m : ManagerId) (next : Option Time)
    (processors : List ProcessorId) : Refits w (w.runInits m next processors).1 := by
  induction processors generalizing w with
  | nil =>
      unfold runInits
      cases next with
      | none => exact refits_of_same rfl
      | some time => exact refits_of_same (processors_runUpdates _ m time _)
  | cons p rest ih =>
      unfold runInits
      split
      · exact refits_of_same rfl
      · rename_i visitor hbody
        have hsettled := refits_settleVisitor w p visitor m
        have hready := readied_settleVisitor w p visitor m
        split
        · rename_i hresult
          rw [hresult] at hsettled
          exact hsettled
        · rename_i v hresult
          rw [hresult] at hsettled hready
          have hcounted : Refits v (v.countInit m) := refits_of_same rfl
          have hsame := kinds_of_readied (hready.trans (readied_countInit v m))
          exact (hsettled.andThen (kinds_of_readied hready) hcounted).andThen hsame (ih _)

/-! ## Steps of a session -/

theorem refits_phase (w : World) (engaged : ManagerId → Bool) (told : ObserverId → Bool)
    {r : Request} (hr : r.begins? = some m) : Refits w (w.serve engaged told r).1 := by
  rcases begins_cases w engaged told hr with ⟨-, -, next, hinit⟩ | ⟨-, ⟨time, htick⟩ | ⟨reply, hsame⟩⟩
  · rw [hinit]
    exact refits_runInits w m next _
  · rw [htick]
    exact refits_of_same (processors_runUpdates w m time _)
  · rw [hsame]
    exact refits_of_same rfl

theorem refits_serve (w : World) (engaged : ManagerId → Bool) (told : ObserverId → Bool)
    {r : Request} (hadmits : w.admits r = true) : Refits w (w.serve engaged told r).1 := by
  have hserved := w.served engaged told r
  have hphase := fun m hr => refits_phase w engaged told (r := r) (m := m) hr
  generalize (w.serve engaged told r).1 = v at hserved hphase ⊢
  cases hserved with
  | heard htells => exact refits_of_same htells.processors
  | makeManager config => exact refits_of_same (processors_makeManager w config)
  | retire n => exact refits_of_same rfl
  | registerKind n k => exact refits_of_same (processors_registerKind w n k)
  | registerProcessor n processor =>
      unfold registerProcessor
      split
      · exact refits_of_same rfl
      · split
        · exact refits_of_same rfl
        · exact refits_concat hadmits rfl
  | create n kinds => exact refits_of_same (processors_create w n kinds)
  | scheduleRemoval n e => exact refits_of_same rfl
  | openGroup n required forbidden =>
      exact refits_of_same (processors_openGroup w n required forbidden)
  | listen h l => exact refits_of_same (processors_listen w h l)
  | unlisten h l => exact refits_of_same rfl
  | makeProcessor processor => exact refits_concat hadmits rfl
  | settles p visitor n => exact refits_settleVisitor w p visitor n
  | initialises n => exact refits_runInits w n none _
  | updates n time => exact hphase n rfl
  | ends n => exact refits_of_same rfl

theorem refits_resume (w : World) (outcome : Outcome) (frame : Frame) :
    Refits w (w.resume outcome frame).1 := by
  have hresumed := w.resumed outcome frame
  generalize w.resume outcome frame = result at hresumed ⊢
  cases hresumed with
  | answers reply => exact refits_of_same rfl
  | inits n p rest next =>
      have hcounted : Refits w (w.countInit n) := refits_of_same rfl
      exact hcounted.andThen (kinds_of_readied (readied_countInit w n))
        (refits_runInits (w.countInit n) n next rest)
  | updates n p time rest => exact refits_of_same (processors_runUpdates w n time rest)
  | visits n p time stage next errand => exact refits_of_same rfl
  | leaves n p time stage rest => exact refits_of_same (processors_runUpdates w n time rest)
  | stops n p rest failure cause =>
      rw [runStops_world]
      exact refits_of_same rfl
  | notifies h notice following rest groups => exact refits_of_same rfl
  | flushes h notice groups => exact refits_of_same (processors_flush w h.manager groups)
  | walks k e rest =>
      rw [walkFrom_world]
      exact refits_of_same rfl

end World

end EntityStore
