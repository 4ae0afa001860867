import EntityStore.Id.Basic

/-!
# Filters

A filter asks for some kinds and forbids others.  Kinds are told apart by their identity, so two
kinds of one name are two kinds.  Repeated kinds count once: `Filter.of` drops them, and
`Filter.sameAs` compares filters as two pairs of sets.
-/

namespace EntityStore

/-- The identity of a kind: its place among all kinds that were ever made. -/
structure KindId where
  /-- The place. -/
  place : Nat
  deriving DecidableEq, Repr

/-- The kinds of a list, each at its first place only. -/
def distinctKinds : List KindId → List KindId
  | kinds => kinds.foldl (fun found k => if k ∈ found then found else found ++ [k]) []

/-- Does a list of distinct kinds have the same members as another list? -/
def sameKinds (distinct kinds : List KindId) : Bool :=
  let others := distinctKinds kinds
  distinct.length = others.length && others.all (· ∈ distinct)

/-- The kinds a member must hold and the kinds it must not hold. -/
structure Filter where
  /-- The kinds a member must hold. -/
  required : List KindId
  /-- The kinds a member must not hold. -/
  forbidden : List KindId
  deriving DecidableEq, Repr

namespace Filter

/-- The filter of two lists of kinds. -/
def of (required forbidden : List KindId) : Filter :=
  ⟨distinctKinds required, distinctKinds forbidden⟩

variable (f : Filter)

/-- Is a kind required? -/
def requires (k : KindId) : Bool := k ∈ f.required

/-- Is a kind forbidden? -/
def forbids (k : KindId) : Bool := k ∈ f.forbidden

/-- Does holding a kind matter to the filter? -/
def mentions (k : KindId) : Bool := f.requires k || f.forbids k

/-- Does an entity pass that holds the kinds that pass a test? -/
def accepts (holds : KindId → Bool) : Bool := f.required.all holds && !f.forbidden.any holds

/-- Does an entity pass that holds the listed kinds? -/
def acceptsKinds (kinds : List KindId) : Bool := f.accepts fun k => k ∈ kinds

/-- Do two lists of kinds make the same filter? -/
def sameAs (required forbidden : List KindId) : Bool :=
  sameKinds f.required required && sameKinds f.forbidden forbidden

/-- Does a list of kinds make the same filter when nothing is forbidden? -/
def sameAsRequired (required : List KindId) : Bool := f.sameAs required []

end Filter

end EntityStore
