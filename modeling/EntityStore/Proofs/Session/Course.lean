import EntityStore.World.Basic

/-!
# The course of a manager

What the processors of a manager go through, as a list of marks: registrations, callbacks that begin
and end, and the points at which a tick or the shut-down begins and ends.  A `Course` is where such a
list has led to, and `Course.Step` is everything that may come next.

* `Word`: the language of the callbacks of one processor, `word_of_steps`.
* `Course.Logged`, `Course.sound_of_steps`: what a list of marks looks like, for each phase that it
  ends in.
* `Course.Steps.after_tick`, `Course.Steps.after_closing`: what may follow when a tick or the shut-down
  begins.

Nothing here is about worlds or sessions: these are laws of lists that any manager of this kind obeys.
-/

namespace EntityStore

/-- What a callback is for. -/
inductive Duty where
  /-- To initialise a processor. -/
  | init
  /-- To update it in a tick. -/
  | update
  /-- To shut it down. -/
  | stop
  deriving DecidableEq, Repr

/-- One entry in the list of what happens to the processors of a manager. -/
inductive Mark where
  /-- A processor is registered. -/
  | registered (p : ProcessorId)
  /-- A callback of a processor begins. -/
  | begins (duty : Duty) (p : ProcessorId)
  /-- A callback of a processor ends, perhaps with a failure. -/
  | ends (duty : Duty) (p : ProcessorId) (failure : Option ManagerError)
  /-- A tick begins to update the processors. -/
  | tick
  /-- A tick has updated all processors. -/
  | ticked
  /-- A shut-down begins to shut the processors down. -/
  | closing
  /-- It has shut them down, and answers with a failure or without one. -/
  | closed (failure : Option ManagerError)
  deriving DecidableEq, Repr

/-- The processor whose callback begins or ends. -/
def Mark.callback? : Mark → Option ProcessorId
  | begins _ p => some p
  | ends _ p _ => some p
  | _ => none

/-- The callbacks of one processor. -/
def callbacksOf (p : ProcessorId) (log : List Mark) : List Mark :=
  log.filter fun mark => mark.callback? = some p

/-- The processors that were registered, in order. -/
def registeredIn (log : List Mark) : List ProcessorId :=
  log.filterMap fun
    | .registered p => some p
    | _ => none

/-- The processors whose initialisation was completed, in order. -/
def completedIn (log : List Mark) : List ProcessorId :=
  log.filterMap fun
    | .ends .init p none => some p
    | _ => none

/-- Updates of some processors, one after the other and without a failure. -/
def updatesOf (processors : List ProcessorId) : List Mark :=
  processors.flatMap fun p => [.begins .update p, .ends .update p none]

/-- Shut-downs of some processors, one after the other, each with its failure if it has one. -/
def stopsWith (stopped : List (ProcessorId × Option ManagerError)) : List Mark :=
  stopped.flatMap fun entry => [.begins .stop entry.1, .ends .stop entry.1 entry.2]

/-- The first of some failures. -/
def firstFailure (stopped : List (ProcessorId × Option ManagerError)) : Option ManagerError :=
  stopped.findSome? Prod.snd

theorem updatesOf_snoc (processors : List ProcessorId) (p : ProcessorId) :
    updatesOf (processors ++ [p]) =
      updatesOf processors ++ [.begins .update p, .ends .update p none] := by
  simp [updatesOf]

theorem stopsWith_snoc (stopped : List (ProcessorId × Option ManagerError)) (p : ProcessorId)
    (failure : Option ManagerError) :
    stopsWith (stopped ++ [(p, failure)]) =
      stopsWith stopped ++ [.begins .stop p, .ends .stop p failure] := by
  simp [stopsWith]

theorem firstFailure_snoc (stopped : List (ProcessorId × Option ManagerError)) (p : ProcessorId)
    (failure : Option ManagerError) :
    firstFailure (stopped ++ [(p, failure)]) = (firstFailure stopped).or failure := by
  unfold firstFailure
  rw [List.findSome?_append]
  cases failure <;> rfl

/-! ## Courses -/

/-- What a manager is doing with its processors. -/
inductive Phase where
  /-- Nothing. -/
  | idle
  /-- It initialises one of them; others follow. -/
  | initialising (p : ProcessorId) (rest : List ProcessorId)
  /-- It is about to update those that are left in a tick. -/
  | ticking (rest : List ProcessorId)
  /-- It updates one of them; others follow. -/
  | updating (p : ProcessorId) (rest : List ProcessorId)
  /-- It is about to shut down those that are left.  The first failure so far is kept. -/
  | closing (rest : List ProcessorId) (failure : Option ManagerError)
  /-- It shuts one of them down; others follow. -/
  | stopping (p : ProcessorId) (rest : List ProcessorId) (failure : Option ManagerError)
  /-- It has shut them down, and does nothing any more. -/
  | closed

/-- How far a manager has come. -/
structure Course where
  /-- The processors that are initialised, in the order of registration. -/
  completed : List ProcessorId
  /-- The others, in the order of registration. -/
  waiting : List ProcessorId
  /-- What it is doing. -/
  phase : Phase

namespace Course

/-- Nothing has happened. -/
def start : Course := ⟨[], [], .idle⟩

/-- What may come next. -/
inductive Step : Course → Mark → Course → Prop where
  | registered (done left : List ProcessorId) (p : ProcessorId) (hnew : p ∉ done ++ left) :
      Step ⟨done, left, .idle⟩ (.registered p) ⟨done, left ++ [p], .idle⟩
  | initialise (done : List ProcessorId) (p : ProcessorId) (rest : List ProcessorId) :
      Step ⟨done, p :: rest, .idle⟩ (.begins .init p) ⟨done, p :: rest, .initialising p rest⟩
  | initialised (done : List ProcessorId) (p : ProcessorId) (rest : List ProcessorId) :
      Step ⟨done, p :: rest, .initialising p rest⟩ (.ends .init p none)
        ⟨done ++ [p], rest, .idle⟩
  | notInitialised (done : List ProcessorId) (p : ProcessorId) (rest : List ProcessorId)
      (cause : ManagerError) :
      Step ⟨done, p :: rest, .initialising p rest⟩ (.ends .init p (some cause))
        ⟨done, p :: rest, .idle⟩
  | tick (done : List ProcessorId) : Step ⟨done, [], .idle⟩ .tick ⟨done, [], .ticking done⟩
  | update (done left : List ProcessorId) (p : ProcessorId) (rest : List ProcessorId) :
      Step ⟨done, left, .ticking (p :: rest)⟩ (.begins .update p) ⟨done, left, .updating p rest⟩
  | updated (done left : List ProcessorId) (p : ProcessorId) (rest : List ProcessorId) :
      Step ⟨done, left, .updating p rest⟩ (.ends .update p none) ⟨done, left, .ticking rest⟩
  | notUpdated (done left : List ProcessorId) (p : ProcessorId) (rest : List ProcessorId)
      (cause : ManagerError) :
      Step ⟨done, left, .updating p rest⟩ (.ends .update p (some cause)) ⟨done, left, .idle⟩
  | ticked (done left : List ProcessorId) :
      Step ⟨done, left, .ticking []⟩ .ticked ⟨done, left, .idle⟩
  | close (done left : List ProcessorId) :
      Step ⟨done, left, .idle⟩ .closing ⟨done, left, .closing done none⟩
  | stop (done left : List ProcessorId) (p : ProcessorId) (rest : List ProcessorId)
      (failure : Option ManagerError) :
      Step ⟨done, left, .closing (p :: rest) failure⟩ (.begins .stop p)
        ⟨done, left, .stopping p rest failure⟩
  | stopped (done left : List ProcessorId) (p : ProcessorId) (rest : List ProcessorId)
      (failure new : Option ManagerError) :
      Step ⟨done, left, .stopping p rest failure⟩ (.ends .stop p new)
        ⟨done, left, .closing rest (failure.or new)⟩
  | closed (done left : List ProcessorId) (failure : Option ManagerError) :
      Step ⟨done, left, .closing [] failure⟩ (.closed failure) ⟨done, left, .closed⟩

/-- What may come next, one after the other. -/
inductive Steps : Course → List Mark → Course → Prop where
  | refl (c : Course) : Steps c [] c
  | cons {c d e : Course} {mark : Mark} {log : List Mark} (hstep : Step c mark d)
      (h : Steps d log e) : Steps c (mark :: log) e

variable {c d e : Course} {log more pre post : List Mark} {mark : Mark}

theorem Step.steps (h : Step c mark d) : Steps c [mark] d := .cons h (.refl d)

theorem Steps.trans (h : Steps c log d) (g : Steps d more e) : Steps c (log ++ more) e := by
  induction h with
  | refl c => exact g
  | cons hstep _ ih => exact .cons hstep (ih g)

/-- A mark comes after what stands before it, and what stands after it follows. -/
theorem Steps.split (h : Steps c (pre ++ mark :: post) e) :
    ∃ d d', Steps c pre d ∧ Step d mark d' ∧ Steps d' post e := by
  induction pre generalizing c with
  | nil =>
      cases h with
      | cons hstep hpost => exact ⟨c, _, .refl c, hstep, hpost⟩
  | cons first pre ih =>
      cases h with
      | cons hfirst hrest =>
          obtain ⟨d, d', hpre, hstep, hpost⟩ := ih hrest
          exact ⟨d, d', .cons hfirst hpre, hstep, hpost⟩

/-! ## What a list of marks looks like -/

theorem registeredIn_append (log more : List Mark) :
    registeredIn (log ++ more) = registeredIn log ++ registeredIn more :=
  List.filterMap_append

theorem completedIn_append (log more : List Mark) :
    completedIn (log ++ more) = completedIn log ++ completedIn more :=
  List.filterMap_append

theorem closing_not_mem_updatesOf (processors : List ProcessorId) :
    Mark.closing ∉ updatesOf processors := by
  simp [updatesOf]

/-- What the marks look like that lead to a phase. -/
inductive Logged (done left : List ProcessorId) : List Mark → Phase → Prop where
  | idle (log : List Mark) (hopen : .closing ∉ log) : Logged done left log .idle
  | initialising (log : List Mark) (p : ProcessorId) (rest : List ProcessorId)
      (hleft : left = p :: rest) (hopen : .closing ∉ log) :
      Logged done left log (.initialising p rest)
  /-- A tick has begun, and has updated some processors. -/
  | ticking (before : List Mark) (passed rest : List ProcessorId) (hdone : done = passed ++ rest)
      (hleft : left = []) (hbefore : registeredIn before = done) (hopen : .closing ∉ before) :
      Logged done left (before ++ .tick :: updatesOf passed) (.ticking rest)
  | updating (before : List Mark) (passed : List ProcessorId) (p : ProcessorId)
      (rest : List ProcessorId) (hdone : done = passed ++ p :: rest) (hleft : left = [])
      (hbefore : registeredIn before = done) (hopen : .closing ∉ before) :
      Logged done left (before ++ .tick :: updatesOf passed ++ [.begins .update p])
        (.updating p rest)
  /-- The shut-down has begun, and has shut down some processors. -/
  | closing (before : List Mark) (stopped : List (ProcessorId × Option ManagerError))
      (rest : List ProcessorId) (hdone : done = stopped.map Prod.fst ++ rest)
      (hbefore : completedIn before = done) :
      Logged done left (before ++ .closing :: stopsWith stopped)
        (.closing rest (firstFailure stopped))
  | stopping (before : List Mark) (stopped : List (ProcessorId × Option ManagerError))
      (p : ProcessorId) (rest : List ProcessorId)
      (hdone : done = stopped.map Prod.fst ++ p :: rest) (hbefore : completedIn before = done) :
      Logged done left (before ++ .closing :: stopsWith stopped ++ [.begins .stop p])
        (.stopping p rest (firstFailure stopped))
  | closed (log : List Mark) : Logged done left log .closed

/-- What there is to say about the marks that lead to a course. -/
structure Sound (log : List Mark) (c : Course) : Prop where
  /-- The processors are the registered ones, in order. -/
  registered : registeredIn log = c.completed ++ c.waiting
  /-- The first of them are those whose initialisation was completed. -/
  completed : completedIn log = c.completed
  /-- No processor is registered twice. -/
  nodup : (c.completed ++ c.waiting).Nodup
  /-- The marks fit the phase. -/
  logged : Logged c.completed c.waiting log c.phase

theorem sound_start : Sound [] start :=
  ⟨rfl, rfl, List.nodup_nil, .idle [] List.not_mem_nil⟩

theorem closing_not_mem_snoc (hlog : .closing ∉ log) (hmark : mark ≠ .closing) :
    .closing ∉ log ++ [mark] := by
  intro hmem
  rcases List.mem_append.1 hmem with hold | hlast
  · exact hlog hold
  · exact hmark (List.mem_singleton.1 hlast).symm

/-- A mark that neither registers a processor nor completes its initialisation. -/
theorem Sound.keep {done left : List ProcessorId} {phase next : Phase}
    (h : Sound log ⟨done, left, phase⟩) (hregistered : registeredIn [mark] = [])
    (hcompleted : completedIn [mark] = []) (hlogged : Logged done left (log ++ [mark]) next) :
    Sound (log ++ [mark]) ⟨done, left, next⟩ := by
  refine ⟨?_, ?_, h.nodup, hlogged⟩
  · rw [registeredIn_append, hregistered, List.append_nil]
    exact h.registered
  · rw [completedIn_append, hcompleted, List.append_nil]
    exact h.completed

theorem Sound.step (h : Sound log c) (hstep : Step c mark d) : Sound (log ++ [mark]) d := by
  have hlogged := h.logged
  cases hstep with
  | registered done left p hnew =>
      cases hlogged with
      | idle log hopen =>
          refine ⟨?_, ?_, ?_, .idle _ (closing_not_mem_snoc hopen nofun)⟩
          · rw [registeredIn_append, h.registered]
            exact List.append_assoc _ _ _
          · rw [completedIn_append, h.completed]
            exact List.append_nil _
          · dsimp only
            rw [← List.append_assoc]
            refine List.nodup_append.2 ⟨h.nodup, by simp, ?_⟩
            rintro a ha b hb rfl
            rw [List.mem_singleton.1 hb] at ha
            exact hnew ha
  | initialise done p rest =>
      cases hlogged with
      | idle log hopen =>
          exact h.keep rfl rfl (.initialising _ p rest rfl (closing_not_mem_snoc hopen nofun))
  | initialised done p rest =>
      cases hlogged with
      | initialising log p rest hleft hopen =>
          refine ⟨?_, ?_, ?_, .idle _ (closing_not_mem_snoc hopen nofun)⟩
          · rw [registeredIn_append, h.registered]
            simp [registeredIn]
          · rw [completedIn_append, h.completed]
            rfl
          · have hnodup := h.nodup
            simpa using hnodup
  | notInitialised done p rest cause =>
      cases hlogged with
      | initialising log p rest hleft hopen =>
          exact h.keep rfl rfl (.idle _ (closing_not_mem_snoc hopen nofun))
  | tick done =>
      cases hlogged with
      | idle log hopen =>
          refine h.keep rfl rfl (.ticking log [] done rfl rfl ?_ hopen)
          rw [h.registered]
          exact List.append_nil done
  | update done left p rest =>
      cases hlogged with
      | ticking before passed rest hdone hleft hbefore hopen =>
          exact h.keep rfl rfl (.updating before passed p rest hdone hleft hbefore hopen)
  | updated done left p rest =>
      cases hlogged with
      | updating before passed p rest hdone hleft hbefore hopen =>
          have hall : done = (passed ++ [p]) ++ rest := by simpa using hdone
          have hnow := Logged.ticking before (passed ++ [p]) rest hall hleft hbefore hopen
          rw [updatesOf_snoc] at hnow
          refine h.keep rfl rfl ?_
          simpa using hnow
  | notUpdated done left p rest cause =>
      cases hlogged with
      | updating before passed p rest hdone hleft hbefore hopen =>
          refine h.keep rfl rfl (.idle _ ?_)
          have hpassed := closing_not_mem_updatesOf passed
          simp [hopen, hpassed]
  | ticked done left =>
      cases hlogged with
      | ticking before passed rest hdone hleft hbefore hopen =>
          refine h.keep rfl rfl (.idle _ ?_)
          have hpassed := closing_not_mem_updatesOf passed
          simp [hopen, hpassed]
  | close done left =>
      cases hlogged with
      | idle log hopen => exact h.keep rfl rfl (.closing log [] done rfl h.completed)
  | stop done left p rest failure =>
      cases hlogged with
      | closing before stopped rest hdone hbefore =>
          exact h.keep rfl rfl (.stopping before stopped p rest hdone hbefore)
  | stopped done left p rest failure new =>
      cases hlogged with
      | stopping before stopped p rest hdone hbefore =>
          have hall : done = (stopped ++ [(p, new)]).map Prod.fst ++ rest := by simpa using hdone
          have hnow : Logged done left _ _ :=
            .closing before (stopped ++ [(p, new)]) rest hall hbefore
          rw [stopsWith_snoc, firstFailure_snoc] at hnow
          refine h.keep rfl rfl ?_
          simpa using hnow
  | closed done left failure => exact h.keep rfl rfl (.closed _)

theorem Sound.steps (h : Sound log c) (hsteps : Steps c more d) : Sound (log ++ more) d := by
  induction hsteps generalizing log with
  | refl c =>
      rw [List.append_nil]
      exact h
  | @cons c d e mark more hstep _ ih =>
      have hnext := ih (h.step hstep)
      rw [List.append_assoc] at hnext
      exact hnext

theorem sound_of_steps (h : Steps start log c) : Sound log c :=
  sound_start.steps h

/-! ## The callbacks of one processor -/

/-- What a processor has been called back for. -/
inductive Standing where
  /-- It is not initialised. -/
  | fresh
  /-- It is being initialised. -/
  | starting
  /-- It is initialised. -/
  | ready
  /-- It is being updated. -/
  | working
  /-- It is being shut down. -/
  | leaving
  /-- It is shut down. -/
  | left

/-- The callback that may begin or end next. -/
inductive Standing.Next (p : ProcessorId) : Standing → Mark → Standing → Prop where
  | starts : Next p .fresh (.begins .init p) .starting
  | fails (cause : ManagerError) : Next p .starting (.ends .init p (some cause)) .fresh
  | succeeds : Next p .starting (.ends .init p none) .ready
  | works : Next p .ready (.begins .update p) .working
  | rests (failure : Option ManagerError) : Next p .working (.ends .update p failure) .ready
  | leaves : Next p .ready (.begins .stop p) .leaving
  | departs (failure : Option ManagerError) : Next p .leaving (.ends .stop p failure) .left

/-- The language of the callbacks of a processor: first initialisations that fail; then perhaps one
that does not, any number of updates, and at most one shut-down. -/
inductive Word (p : ProcessorId) : Standing → List Mark → Prop where
  | nil : Word p .fresh []
  | snoc {word : List Mark} {old new : Standing} {mark : Mark} (h : Word p old word)
      (hnext : old.Next p mark new) : Word p new (word ++ [mark])

/-- What a processor has been called back for on a course. -/
def standing (c : Course) (p : ProcessorId) : Standing :=
  if p ∈ c.completed then
    match c.phase with
    | .updating q _ => if q = p then .working else .ready
    | .closing rest _ => if p ∈ rest then .ready else .left
    | .stopping q rest _ => if q = p then .leaving else if p ∈ rest then .ready else .left
    | .closed => .left
    | _ => .ready
  else
    match c.phase with
    | .initialising q _ => if q = p then .starting else .fresh
    | _ => .fresh

theorem callbacksOf_append (p : ProcessorId) (log more : List Mark) :
    callbacksOf p (log ++ more) = callbacksOf p log ++ callbacksOf p more :=
  List.filter_append _ _

/-- The callbacks of others leave the standing of a processor. -/
theorem Step.standing_of_ne {p : ProcessorId} (h : Step c mark d) (hp : mark.callback? ≠ some p) :
    d.standing p = c.standing p := by
  have hother : ∀ {q : ProcessorId}, mark.callback? = some q → q ≠ p := by
    rintro q hq rfl
    exact hp hq
  cases h with
  | registered done left q hnew => simp [standing]
  | initialise done q rest => simp [standing, hother rfl]
  | initialised done q rest => simp [standing, hother rfl, (hother rfl).symm]
  | notInitialised done q rest cause => simp [standing, hother rfl]
  | tick done => simp [standing]
  | update done left q rest => simp [standing, hother rfl]
  | updated done left q rest => simp [standing, hother rfl]
  | notUpdated done left q rest cause => simp [standing, hother rfl]
  | ticked done left => simp [standing]
  | close done left => simp +contextual [standing]
  | stop done left q rest failure => simp [standing, hother rfl, (hother rfl).symm]
  | stopped done left q rest failure new => simp [standing, hother rfl]
  | closed done left failure => simp [standing]

theorem mem_of_split {all passed rest : List ProcessorId} {q : ProcessorId}
    (h : all = passed ++ q :: rest) : q ∈ all := by
  rw [h]
  exact List.mem_append_right passed List.mem_cons_self

/-- The one that waits to be initialised is not initialised. -/
theorem Sound.not_mem_of_waiting {done rest : List ProcessorId} {q : ProcessorId} {phase : Phase}
    (h : Sound log ⟨done, q :: rest, phase⟩) : q ∉ done := by
  have hnodup := h.nodup
  intro hmem
  exact (List.nodup_append.1 hnodup).2.2 q hmem q List.mem_cons_self rfl

/-- The callbacks of a processor follow each other as they should. -/
theorem Step.next {p : ProcessorId} (h : Step c mark d) (hsound : Sound log c)
    (hp : mark.callback? = some p) : (c.standing p).Next p mark (d.standing p) := by
  have hlogged := hsound.logged
  have hnodup : c.completed.Nodup := (List.nodup_append.1 hsound.nodup).1
  cases h with
  | initialise done q rest =>
      obtain rfl := Option.some.inj hp
      have hout := hsound.not_mem_of_waiting
      simp only [standing, if_neg hout, if_true]
      exact .starts
  | initialised done q rest =>
      obtain rfl := Option.some.inj hp
      have hout := hsound.not_mem_of_waiting
      have hin : q ∈ done ++ [q] := by simp
      simp only [standing, if_neg hout, if_pos hin, if_true]
      exact .succeeds
  | notInitialised done q rest cause =>
      obtain rfl := Option.some.inj hp
      have hout := hsound.not_mem_of_waiting
      simp only [standing, if_neg hout, if_true]
      exact .fails cause
  | update done left q rest =>
      obtain rfl := Option.some.inj hp
      cases hlogged with
      | ticking before passed rest hdone =>
          have hin : q ∈ done := mem_of_split hdone
          simp only [standing, if_pos hin, if_true]
          exact .works
  | updated done left q rest =>
      obtain rfl := Option.some.inj hp
      cases hlogged with
      | updating before passed q rest hdone =>
          have hin : q ∈ done := mem_of_split hdone
          simp only [standing, if_pos hin, if_true]
          exact .rests none
  | notUpdated done left q rest cause =>
      obtain rfl := Option.some.inj hp
      cases hlogged with
      | updating before passed q rest hdone =>
          have hin : q ∈ done := mem_of_split hdone
          simp only [standing, if_pos hin, if_true]
          exact .rests (some cause)
  | stop done left q rest failure =>
      obtain rfl := Option.some.inj hp
      cases hlogged with
      | closing before stopped rest hdone =>
          have hin : q ∈ done := mem_of_split hdone
          simp only [standing, if_pos hin, List.mem_cons_self, if_true]
          exact .leaves
  | stopped done left q rest failure new =>
      obtain rfl := Option.some.inj hp
      cases hlogged with
      | stopping before stopped q rest hdone =>
          have hin : q ∈ done := mem_of_split hdone
          have hout : q ∉ rest := by
            rw [hdone] at hnodup
            exact (List.nodup_cons.1 (List.nodup_append.1 hnodup).2.1).1
          simp only [standing, if_pos hin, if_neg hout, if_true]
          exact .departs new
  | _ => cases hp

/-- The callbacks of every processor form a word of the language. -/
theorem word_of_steps {p : ProcessorId} (h : Steps c more d) (hsound : Sound log c)
    (hword : Word p (c.standing p) (callbacksOf p log)) :
    Word p (d.standing p) (callbacksOf p (log ++ more)) := by
  induction h generalizing log with
  | refl c =>
      rw [List.append_nil]
      exact hword
  | @cons c d e mark more hstep _ ih =>
      have hnow : Word p (d.standing p) (callbacksOf p (log ++ [mark])) := by
        rw [callbacksOf_append]
        by_cases hp : mark.callback? = some p
        · rw [show callbacksOf p [mark] = [mark] by simp [callbacksOf, hp]]
          exact hword.snoc (hstep.next hsound hp)
        · rw [show callbacksOf p [mark] = [] by simp [callbacksOf, hp], List.append_nil,
            hstep.standing_of_ne hp]
          exact hword
      have hlater := ih (hsound.step hstep) hnow
      rw [List.append_assoc] at hlater
      exact hlater

/-! ## What comes before a callback -/

/-- A processor is initialised when those that were registered before it are, and it is not. -/
theorem Steps.before_init {p : ProcessorId} (h : Steps start (pre ++ .begins .init p :: post) c) :
    ∃ later, registeredIn pre = completedIn pre ++ p :: later := by
  obtain ⟨d, d', hpre, hstep, -⟩ := h.split
  have hsound := sound_of_steps hpre
  cases hstep with
  | initialise done p rest =>
      refine ⟨rest, ?_⟩
      rw [hsound.registered, hsound.completed]

/-- A processor is updated when all are initialised, and in a tick that has updated those that were
registered before it. -/
theorem Steps.before_update {p : ProcessorId}
    (h : Steps start (pre ++ .begins .update p :: post) c) :
    completedIn pre = registeredIn pre ∧ ∃ before passed later,
      pre = before ++ .tick :: updatesOf passed ∧ registeredIn before = passed ++ p :: later := by
  obtain ⟨d, d', hpre, hstep, -⟩ := h.split
  have hsound := sound_of_steps hpre
  have hlogged := hsound.logged
  cases hstep with
  | update done left p rest =>
      cases hlogged with
      | ticking before passed rest hdone hleft hbefore hopen =>
          refine ⟨?_, before, passed, rest, rfl, hbefore.trans hdone⟩
          rw [hsound.completed, hsound.registered, hleft, List.append_nil]

/-- A processor is shut down in a shut-down that has shut down those that were initialised before
it. -/
theorem Steps.before_stop {p : ProcessorId} (h : Steps start (pre ++ .begins .stop p :: post) c) :
    ∃ before stopped later, pre = before ++ .closing :: stopsWith stopped ∧
      completedIn before = stopped.map Prod.fst ++ p :: later := by
  obtain ⟨d, d', hpre, hstep, -⟩ := h.split
  have hlogged := (sound_of_steps hpre).logged
  cases hstep with
  | stop done left p rest failure =>
      cases hlogged with
      | closing before stopped rest hdone hbefore =>
          exact ⟨before, stopped, rest, rfl, hbefore.trans hdone⟩

/-! ## What comes after the beginning of a tick and of the shut-down -/

/-- How a tick may end that has some processors left to update, and what may follow. -/
inductive TickEnds : List ProcessorId → List Mark → Prop where
  /-- All are updated. -/
  | complete (later : List Mark) : TickEnds [] (.ticked :: later)
  /-- The update of the next one fails. -/
  | fails (p : ProcessorId) (rest : List ProcessorId) (cause : ManagerError) (later : List Mark) :
      TickEnds (p :: rest) (.begins .update p :: .ends .update p (some cause) :: later)
  /-- The next one is being updated. -/
  | runs (p : ProcessorId) (rest : List ProcessorId) : TickEnds (p :: rest) [.begins .update p]

/-- How the shut-down may end that has some processors left to shut down. -/
inductive StopEnds (failure : Option ManagerError) : List ProcessorId → List Mark → Prop where
  /-- All are shut down, and the failure is the answer. -/
  | complete : StopEnds failure [] [.closed failure]
  /-- The next one is being shut down. -/
  | runs (p : ProcessorId) (rest : List ProcessorId) : StopEnds failure (p :: rest) [.begins .stop p]

/-- A tick updates processors until one of them fails. -/
theorem Steps.after_tick {done left order : List ProcessorId}
    (h : Steps ⟨done, left, .ticking order⟩ post d) (hd : ∀ rest, d.phase ≠ .ticking rest) :
    ∃ passed rest tail, order = passed ++ rest ∧ post = updatesOf passed ++ tail ∧
      TickEnds rest tail := by
  induction order generalizing post with
  | nil =>
      cases h with
      | refl => exact absurd rfl (hd [])
      | @cons _ _ _ _ later hstep _ =>
          cases hstep with
          | ticked => exact ⟨[], [], _, rfl, rfl, .complete later⟩
  | cons p rest ih =>
      cases h with
      | refl => exact absurd rfl (hd (p :: rest))
      | cons hstep hmore =>
          cases hstep with
          | update =>
              cases hmore with
              | refl => exact ⟨[], p :: rest, _, rfl, rfl, .runs p rest⟩
              | @cons _ _ _ _ later hnext hlater =>
                  cases hnext with
                  | updated =>
                      obtain ⟨passed, others, tail, hsplit, hpost, hends⟩ := ih hlater
                      refine ⟨p :: passed, others, tail, ?_, ?_, hends⟩
                      · rw [hsplit, List.cons_append]
                      · rw [hpost]
                        rfl
                  | notUpdated done left p rest cause =>
                      exact ⟨[], p :: rest, _, rfl, rfl, .fails p rest cause later⟩

/-- The shut-down shuts processors down, whether they fail or not. -/
theorem Steps.after_closing {done left order : List ProcessorId} {failure : Option ManagerError}
    (h : Steps ⟨done, left, .closing order failure⟩ post d)
    (hd : ∀ rest new, d.phase ≠ .closing rest new) :
    ∃ stopped rest tail, order = stopped.map Prod.fst ++ rest ∧ post = stopsWith stopped ++ tail ∧
      StopEnds (failure.or (firstFailure stopped)) rest tail := by
  induction order generalizing post failure with
  | nil =>
      cases h with
      | refl => exact absurd rfl (hd [] failure)
      | cons hstep hlater =>
          cases hstep with
          | closed =>
              cases hlater with
              | refl =>
                  refine ⟨[], [], _, rfl, rfl, ?_⟩
                  rw [firstFailure, List.findSome?_nil, Option.or_none]
                  exact .complete
              | cons hnext _ =>
                  -- nothing follows when all is over
                  cases hnext
  | cons p rest ih =>
      cases h with
      | refl => exact absurd rfl (hd (p :: rest) failure)
      | cons hstep hmore =>
          cases hstep with
          | stop =>
              cases hmore with
              | refl => exact ⟨[], p :: rest, _, rfl, rfl, .runs p rest⟩
              | cons hnext hlater =>
                  cases hnext with
                  | stopped done left p rest failure new =>
                      obtain ⟨stopped, others, tail, hsplit, hpost, hends⟩ := ih hlater
                      have hfirst : firstFailure ((p, new) :: stopped) =
                          new.or (firstFailure stopped) := by
                        cases new <;> rfl
                      refine ⟨(p, new) :: stopped, others, tail, ?_, ?_, ?_⟩
                      · rw [hsplit, List.map_cons, List.cons_append]
                      · rw [hpost]
                        rfl
                      · rw [hfirst, ← Option.or_assoc]
                        exact hends

end Course

end EntityStore
