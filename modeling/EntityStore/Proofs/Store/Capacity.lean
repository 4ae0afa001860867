import EntityStore.Proofs.Store.Representation
import EntityStore.Proofs.Store.Sizing
import EntityStore.Proofs.Store.Stored

/-!
# Growth right after shrinking

A configuration is accepted when the compacting threshold times the growth factor stays below the
expansion threshold.  Computed without rounding that would keep a buffer that has just shrunk from
growing again.  But capacities are whole numbers of blocks, and a growth is rounded up to them.

* `Roomed`, `Shrunk`: what an insertion and a removal do to the capacity, on any machine.
* `Scaled`, `Arises.scaled`: the capacities of a store that computes exactly are rungs.
* `regrowth_of_shrunk`: when the insertion after a shrinking removal grows the buffer, and why it
  seldom does.
* `regrows_after_shrinking`: it can.
-/

namespace EntityStore.Store

variable [CustomTypes] {machine : Machine} {s t u roomy : Store} {e : EntityId}

/-! ## Making room -/

/-- The capacity after room was made for one more block. -/
inductive Roomed (machine : Machine) (s : Store) : Nat → Prop where
  /-- There was room. -/
  | same (hnone : s.wantedCapacity? machine = none) : Roomed machine s s.capacity
  /-- There was none, but the memory sufficed for more. -/
  | more (wanted : Nat) (hwanted : s.wantedCapacity? machine = some wanted)
      (hfits : wanted * s.layout.blockSize ≤ machine.memory) :
      Roomed machine s (max s.capacity wanted)

theorem roomed_of_reserve (h : s.reserve machine = .ok roomy) :
    Roomed machine s roomy.capacity := by
  unfold reserve at h
  split at h
  · rename_i hnone
    obtain rfl := Except.ok.inj h
    exact .same hnone
  · rename_i wanted hwanted
    split at h
    · rename_i hfits
      obtain rfl := Except.ok.inj h
      have hlength : (s.blocks ++ List.replicate (wanted - s.capacity)
          (Block.blank s.layout.dataSize)).length = max s.capacity wanted := by
        rw [List.length_append, List.length_replicate]
        unfold Store.capacity
        omega
      show Roomed machine s (List.length _)
      rw [hlength]
      exact .more wanted hwanted hfits
    · cases h

theorem capacity_place {target free : Nat} (hfit : s.Fits e target free) :
    (s.place e target free).capacity = s.capacity := by
  rw [place_eq]
  exact hfit.length_placedBlocks

/-- A successful insertion into a buffer makes room. -/
theorem Inserted.roomed (hstep : Inserted machine s e t (.ok ()))
    (hfixed : s.layout.hasFixedStorage = true) : Roomed machine s t.capacity := by
  cases hstep with
  | noted _ _ hunfixed => exact absurd (hunfixed.symm.trans hfixed) Bool.false_ne_true
  | placed _ _ _ _ roomy target free hroomy hfit =>
      rw [capacity_place hfit]
      show Roomed machine s roomy.capacity
      exact roomed_of_reserve hroomy

/-- Any insertion makes room or leaves the capacity as it is. -/
theorem Inserted.capacity_cases {answer : Except StoreError Unit}
    (hstep : Inserted machine s e t answer) :
    t.capacity = s.capacity ∨ Roomed machine s t.capacity := by
  cases hstep with
  | invalid => exact Or.inl rfl
  | held => exact Or.inl rfl
  | full => exact Or.inl rfl
  | noted => exact Or.inl rfl
  | misfit _ _ _ roomy hroomy =>
      have hroomed : Roomed machine s roomy.capacity := roomed_of_reserve hroomy
      exact Or.inr hroomed
  | placed _ _ _ _ roomy target free hroomy hfit =>
      have hroomed : Roomed machine s roomy.capacity := roomed_of_reserve hroomy
      rw [capacity_place hfit]
      exact Or.inr hroomed

theorem Inserted.config_eq {answer : Except StoreError Unit}
    (hstep : Inserted machine s e t answer) : t.config = s.config := by
  cases hstep with
  | invalid => rfl
  | held => rfl
  | full => rfl
  | noted => rfl
  | misfit _ _ _ roomy hroomy =>
      obtain ⟨n, rfl, -⟩ := reserve_eq_ok hroomy
      rfl
  | placed _ _ _ _ roomy target free hroomy =>
      obtain ⟨n, rfl, -⟩ := reserve_eq_ok hroomy
      rw [place_eq]
      rfl

/-! ## Shrinking -/

/-- What a removal has found when it has shrunk the buffer. -/
structure Shrunk (machine : Machine) (s t : Store) : Prop where
  /-- The capacity was divided by the growth factor. -/
  capacity : t.capacity = s.config.shrunk machine.rounding s.capacity
  /-- The buffer was sparse. -/
  sparse : s.config.isSparse machine.rounding t.count s.capacity = true
  /-- The capacity is not below the expected one. -/
  expected : s.config.expectedCapacity ≤ t.capacity
  /-- There is a free block. -/
  roomy : t.count < t.capacity

theorem count_congr (h : ∀ x, x ∈ t.holders ↔ x ∈ s.holders) : t.count = s.count := by
  have hsame : t.holders = s.holders := IdSet.ext h
  rw [← length_toList_holders, ← length_toList_holders, hsame]

theorem capacity_compactTo (h : s.Packed) (hfixed : s.layout.hasFixedStorage = true) {capacity : Nat}
    (hroom : s.count ≤ capacity) : (s.compactTo capacity).capacity = capacity := by
  have hkept := h.length_kept hfixed
  unfold compactTo Store.capacity
  dsimp only
  rw [List.length_append, List.length_replicate, hkept]
  omega

theorem count_compactTo (h : s.Packed) (capacity : Nat) :
    (s.compactTo capacity).count = s.count :=
  count_congr (mem_holders_compactTo h capacity)

/-- A removal leaves the capacity as it is, or shrinks it. -/
theorem shrunk_or_same (h : s.Packed) (machine : Machine) (e : EntityId) :
    (s.remove machine e).1.capacity = s.capacity ∨ Shrunk machine s (s.remove machine e).1 := by
  unfold remove
  split
  · exact Or.inl rfl
  · exact Or.inl rfl
  · rename_i i hplace
    have hfixed := h.hasFixedStorage_of_lookup hplace
    have hvacated := packed_vacate h hplace
    have hcapacity : ((s.forget e).vacate i).capacity = s.capacity := List.length_set
    have hconfig : ((s.forget e).vacate i).config = s.config := rfl
    unfold compactIfSparse
    dsimp only
    split
    · rename_i hsparse
      obtain ⟨hsparse, hexpected, hroomy⟩ := hsparse
      rw [hcapacity, hconfig] at hsparse hexpected hroomy ⊢
      have hcompacted := capacity_compactTo hvacated hfixed (Nat.le_of_lt hroomy)
      refine Or.inr
        { capacity := hcompacted, sparse := ?_, expected := ?_, roomy := ?_ }
      · rw [count_compactTo hvacated]
        exact hsparse
      · rw [hcompacted]
        exact hexpected
      · rw [hcompacted, count_compactTo hvacated]
        exact hroomy
    · exact Or.inl hcapacity

theorem config_remove (s : Store) (machine : Machine) (e : EntityId) :
    (s.remove machine e).1.config = s.config := by
  unfold remove
  split
  · rfl
  · rfl
  · unfold compactIfSparse
    dsimp only
    split <;> rfl

/-! ## Machines that compute exactly -/

/-- A store whose capacity has come about by growth. -/
structure Scaled (s : Store) : Prop where
  /-- The configuration was accepted. -/
  sized : s.config.Sized Rounding.exact
  /-- The capacity is a rung, once there is a buffer. -/
  rung : s.capacity = 0 ∨ s.config.Rung s.capacity
  /-- The blocks can be addressed. -/
  small : s.capacity ≤ maxBufferBytes

/-- A store that has changed in nothing that bears on its capacity. -/
theorem Scaled.congr (h : s.Scaled) (hconfig : t.config = s.config)
    (hcapacity : t.capacity = s.capacity) : t.Scaled where
  sized := by
    rw [hconfig]
    exact h.sized
  rung := by
    rw [hconfig, hcapacity]
    exact h.rung
  small := by
    rw [hcapacity]
    exact h.small

/-- What room is made: none, the first buffer, or one growth. -/
inductive Growth (s : Store) : Nat → Prop where
  | none (hcapacity : 0 < s.capacity) (hroom : ¬ s.config.expansion * s.capacity ≤ s.count) :
      Growth s s.capacity
  | first (hcapacity : s.capacity = 0) : Growth s s.config.expectedCapacity
  | one (hcapacity : 0 < s.capacity) (hfull : s.config.expansion * s.capacity ≤ s.count) :
      Growth s (s.config.enlarged s.capacity)

/-- A buffer is larger after room was made exactly if it has come to the expansion threshold. -/
theorem Growth.grows_iff {n : Nat} (h : Growth s n) (hsized : s.config.Sized Rounding.exact)
    (hpos : 0 < s.capacity) : s.capacity < n ↔ s.config.expansion * s.capacity ≤ s.count := by
  cases h with
  | none _ hroom => exact iff_of_false (Nat.lt_irrefl _) hroom
  | first hzero => exact absurd hzero (Nat.ne_of_gt hpos)
  | one _ hfull => exact iff_of_true (hsized.lt_enlarged hpos) hfull

/-- A buffer that is larger after room was made has grown once. -/
theorem Growth.grown {n : Nat} (h : Growth s n) (hpos : 0 < s.capacity) (hlt : s.capacity < n) :
    n = s.config.enlarged s.capacity := by
  cases h with
  | none => exact absurd hlt (Nat.lt_irrefl _)
  | first hzero => exact absurd hzero (Nat.ne_of_gt hpos)
  | one => rfl

/-- Making room never shrinks a buffer. -/
theorem Growth.stays {n : Nat} (h : Growth s n) (hsized : s.config.Sized Rounding.exact)
    (hpos : 0 < s.capacity) (hnot : ¬ s.capacity < n) : n = s.capacity := by
  cases h with
  | none => rfl
  | first hzero => exact absurd hzero (Nat.ne_of_gt hpos)
  | one => exact absurd (hsized.lt_enlarged hpos) hnot

/-- With an accepted configuration the expansion threshold alone decides. -/
theorem full_iff (hsized : s.config.Sized Rounding.exact) :
    s.config.isFull Rounding.exact s.count s.capacity = true ↔
      s.config.expansion * s.capacity ≤ s.count := by
  rw [StoreConfig.isFull_iff]
  constructor
  · rintro (hcrowded | hfull)
    · -- a buffer without a free block is past every threshold
      have hle := Rat.mul_le_mul_of_nonneg_right hsized.expansion_le
        (Rat.natCast_nonneg (a := s.capacity))
      rw [Rat.one_mul] at hle
      exact Rat.le_trans hle (Rat.natCast_le_natCast.2 hcrowded)
    · exact hfull
  · exact Or.inr

theorem Scaled.growth_of_roomed (hexact : machine.Exact) (h : s.Scaled) {n : Nat}
    (hroomed : Roomed machine s n) : Growth s n ∧ n ≤ maxBufferBytes := by
  have hfull := full_iff h.sized
  cases hroomed with
  | same hnone =>
      unfold wantedCapacity? at hnone
      rw [hexact.rounding] at hnone
      split at hnone
      · cases hnone
      · rename_i hcapacity
        split at hnone
        · cases hnone
        · rename_i hroom
          exact ⟨.none (Nat.pos_of_ne_zero hcapacity) fun hle => hroom (hfull.2 hle), h.small⟩
  | more wanted hwanted hfits =>
      have hblock : 1 ≤ s.layout.blockSize := Nat.le_add_right_of_le (by decide)
      have haddressed : wanted ≤ maxBufferBytes := by
        have hle := Nat.mul_le_mul_left wanted hblock
        have hmemory := hexact.memory
        omega
      unfold wantedCapacity? at hwanted
      rw [hexact.rounding] at hwanted
      split at hwanted
      · rename_i hcapacity
        obtain rfl := Option.some.inj hwanted
        have hfirst : max s.capacity (max s.config.expectedCapacity 1) =
            s.config.expectedCapacity := by
          have hpos := h.sized.capacity
          omega
        rw [hfirst]
        exact ⟨.first hcapacity, by omega⟩
      · rename_i hcapacity
        split at hwanted
        · rename_i hcrowded
          obtain rfl := Option.some.inj hwanted
          have hpos := Nat.pos_of_ne_zero hcapacity
          have hlimit : maxBufferBytes < maxCount := by decide
          have hgrown := h.sized.grown_eq hpos (Nat.lt_of_le_of_lt haddressed hlimit)
          have hlarger := h.sized.lt_enlarged hpos
          rw [hgrown] at haddressed ⊢
          rw [Nat.max_eq_right (Nat.le_of_lt hlarger)]
          exact ⟨.one hpos (hfull.1 hcrowded), haddressed⟩
        · cases hwanted

theorem Scaled.roomed (hexact : machine.Exact) (h : s.Scaled) (hconfig : t.config = s.config)
    (hroomed : Roomed machine s t.capacity) : t.Scaled := by
  obtain ⟨hgrowth, hsmall⟩ := h.growth_of_roomed hexact hroomed
  refine { sized := ?_, rung := ?_, small := hsmall }
  · rw [hconfig]
    exact h.sized
  · rw [hconfig]
    generalize t.capacity = n at hgrowth
    cases hgrowth with
    | none => exact h.rung
    | first => exact Or.inr .first
    | one hpos _ => exact Or.inr (.next (h.rung.resolve_left (Nat.ne_of_gt hpos)))

/-- A removal that shrinks the buffer goes back by one growth. -/
theorem Scaled.of_shrunk (hexact : machine.Exact) (h : s.Scaled) (hshrunk : Shrunk machine s t) :
    s.config.Rung t.capacity ∧ s.capacity = s.config.enlarged t.capacity := by
  have hcapacity := hshrunk.capacity
  have hexpected := hshrunk.expected
  rw [hexact.rounding] at hcapacity
  rw [hcapacity] at hexpected ⊢
  have hlimit : maxBufferBytes ≤ maxCount := by decide
  rcases h.rung with hzero | hrung
  · -- there was no buffer to shrink
    rw [hzero] at hexpected
    have hnone : s.config.shrunk Rounding.exact 0 = 0 := by
      show saturate ((0 : Rat) / s.config.growth).floor = 0
      rw [Rat.div_def, Rat.zero_mul]
      rfl
    have hpos := h.sized.capacity
    omega
  · exact hrung.of_shrunk h.sized (Nat.le_trans h.small hlimit) hexpected

theorem Scaled.addField (h : s.Scaled) (name : String) (type : ValueType) (default : type.Carrier) :
    (s.addField name type default).1.Scaled := by
  unfold Store.addField
  split
  · exact h
  · dsimp only
    split <;> exact h.congr rfl rfl

theorem Scaled.insert (hexact : machine.Exact) (h : s.Scaled) (hs : s.Packed) (e : EntityId) :
    (s.insert machine e).1.Scaled := by
  have hstep := insert_inserted hs machine e
  rcases hstep.capacity_cases with hsame | hroomed
  · exact h.congr hstep.config_eq hsame
  · exact h.roomed hexact hstep.config_eq hroomed

theorem Scaled.remove (hexact : machine.Exact) (h : s.Scaled) (hs : s.Packed) (e : EntityId) :
    (s.remove machine e).1.Scaled := by
  have hconfig := config_remove s machine e
  rcases shrunk_or_same hs machine e with hsame | hshrunk
  · exact h.congr hconfig hsame
  · obtain ⟨hrung, hcapacity⟩ := h.of_shrunk hexact hshrunk
    have hsmaller := h.sized.lt_enlarged (hrung.pos h.sized)
    have hsmall := h.small
    refine { sized := ?_, rung := Or.inr ?_, small := by omega }
    · rw [hconfig]
      exact h.sized
    · rw [hconfig]
      exact hrung

theorem Scaled.rewritten (h : s.Scaled) (hstep : Rewritten s t) : t.Scaled := by
  obtain ⟨-, hconfig, -, -, -, -, hcapacity⟩ := hstep.frame
  exact h.congr hconfig hcapacity

theorem Arises.scaled (hexact : machine.Exact) (h : s.Arises machine) : s.Scaled := by
  induction h with
  | fresh name config hconfig =>
      rw [hexact.rounding] at hconfig
      exact
        { sized := StoreConfig.sized_of_violation? (violation?_of_validate hconfig)
          rung := Or.inl rfl
          small := Nat.zero_le _ }
  | addField _ name type default ih => exact ih.addField name type default
  | insert hs e ih => exact ih.insert hexact hs.packed e
  | remove hs e ih => exact ih.remove hexact hs.packed e
  | writePacked hs type e offset x property ih =>
      exact ih.rewritten (rewritten_writePacked hs.packed type e offset x property)
  | writeSide _ type e side x property ih =>
      exact ih.rewritten (rewritten_writeSide _ type e side x property)

/-! ## Growth right after shrinking -/

/-- What the next insertion does to a buffer that a removal has shrunk: `s` is the store before the
removal, `t` the one between the two calls and `u` the one after the insertion. -/
structure Regrowth (s t u : Store) : Prop where
  /-- The removal has taken back one growth, which was rounded up to whole blocks. -/
  undone : (s.capacity : Int) = (s.config.growth * t.capacity).ceil
  /-- The buffer grows exactly if it is not below the expansion threshold. -/
  grows_iff : t.capacity < u.capacity ↔ s.config.expansion * t.capacity ≤ t.count
  /-- Then it is as large again as it was before the removal. -/
  grown : t.capacity < u.capacity → u.capacity = s.capacity
  /-- Otherwise it stays as it is. -/
  stays : ¬ t.capacity < u.capacity → u.capacity = t.capacity
  /-- It never grows when the growth that was taken back came to whole blocks without rounding. -/
  whole : s.config.growth * t.capacity = s.capacity → ¬ t.capacity < u.capacity
  /-- Nor does it when the gap between the thresholds makes up for the rounding of one block. -/
  wide : s.config.compacting ≤
      (s.config.expansion - s.config.compacting * s.config.growth) * s.config.expectedCapacity →
    ¬ t.capacity < u.capacity

/-- In a machine that computes exactly, an insertion after a shrinking removal grows the buffer if
and only if the holders that are left come to the expansion threshold of the smaller buffer. -/
theorem regrowth_of_shrunk (hexact : machine.Exact) (h : s.Arises machine)
    (hfixed : s.layout.hasFixedStorage = true) (hremove : s.remove machine e = (t, true))
    (hshrunk : t.capacity < s.capacity) {x : EntityId}
    (hinsert : t.insert machine x = (u, .ok ())) : Regrowth s t u := by
  have hscaled := h.scaled hexact
  have hsized := hscaled.sized
  -- what the removal has done
  have hsame := (remove_frame (s := s) machine e).1
  have hconfig := config_remove s machine e
  have hcases := shrunk_or_same h.packed machine e
  have hnext := hscaled.remove hexact h.packed e
  have hpacked := packed_remove h.packed machine e
  rw [hremove] at hsame hconfig hcases hnext hpacked
  dsimp only at hsame hconfig hcases hnext hpacked
  have hshrink : Shrunk machine s t := hcases.resolve_left (Nat.ne_of_lt hshrunk)
  obtain ⟨hrung, hundone⟩ := hscaled.of_shrunk hexact hshrink
  have hpos := hrung.pos hsized
  have hsparse := hshrink.sparse
  rw [hexact.rounding, StoreConfig.isSparse_iff, hundone] at hsparse
  -- what the insertion does
  have hstep := insert_inserted hpacked machine x
  rw [hinsert] at hstep
  have hroomed := hstep.roomed (by rw [hsame]; exact hfixed)
  obtain ⟨hgrowth, -⟩ := hnext.growth_of_roomed hexact hroomed
  have hgrows := hgrowth.grows_iff hnext.sized hpos
  have hgrown := hgrowth.grown hpos
  rw [hconfig] at hgrows hgrown
  refine
    { undone := ?_, grows_iff := hgrows, grown := ?_, stays := hgrowth.stays hnext.sized hpos
      whole := ?_, wide := ?_ }
  · rw [hundone]
    exact hsized.intCast_enlarged hpos
  · rw [hundone]
    exact hgrown
  · intro hwhole hlt
    rw [hundone] at hwhole
    have hbelow := hsized.sparse_lt_of_whole hpos hwhole
    have hreached := hgrows.1 hlt
    grind
  · intro hwide hlt
    have hbelow := hsized.sparse_le_of_wide (hrung.le hsized) hwide
    have hreached := hgrows.1 hlt
    grind

/-- The buffer of some store grows in the insertion that follows a removal which has shrunk it. -/
def Chases (machine : Machine) : Prop :=
  ∃ (s t u : Store) (e x : EntityId), s.Arises machine ∧ s.layout.hasFixedStorage = true ∧
    s.remove machine e = (t, true) ∧ t.capacity < s.capacity ∧
    t.insert machine x = (u, .ok ()) ∧ t.capacity < u.capacity

theorem chases_of_arises {x : EntityId} (h : s.Arises machine)
    (hfixed : s.layout.hasFixedStorage = true) (hremoved : (s.remove machine e).2 = true)
    (hshrunk : (s.remove machine e).1.capacity < s.capacity)
    (hinserted : ((s.remove machine e).1.insert machine x).2.toOption = some ())
    (hgrown : (s.remove machine e).1.capacity <
      ((s.remove machine e).1.insert machine x).1.capacity) : Chases machine :=
  ⟨s, _, _, e, x, h, hfixed, Prod.ext rfl hremoved, hshrunk,
    Prod.ext rfl (eq_ok_of_toOption hinserted), hgrown⟩

end EntityStore.Store

namespace EntityStore.Store

attribute [local instance] CustomTypes.none

/-- Two blocks, doubled for a third holder, of whom one is left. -/
def nearlyEmpty : Store :=
  (((filled .ideal { StoreConfig.default with expectedCapacity := 2 } [1, 2, 3]).remove
    .ideal 1).1.remove .ideal 2).1

/-- When the last holder goes the buffer is halved, and the next holder finds room in it. -/
theorem no_regrowth_when_doubled :
    let t := (nearlyEmpty.remove .ideal 3).1
    let u := (t.insert .ideal 3).1
    Regrowth nearlyEmpty t u ∧ t.capacity < nearlyEmpty.capacity ∧ u.capacity = t.capacity := by
  intro t u
  have harises : nearlyEmpty.Arises .ideal :=
    .remove (.remove (arises_filled (by decide +kernel) [1, 2, 3]) 1) 2
  have hremove : nearlyEmpty.remove .ideal 3 = (t, true) := Prod.ext rfl (by decide +kernel)
  have hshrunk : t.capacity < nearlyEmpty.capacity := by decide +kernel
  have hinsert : t.insert .ideal 3 = (u, .ok ()) :=
    Prod.ext rfl (eq_ok_of_toOption (by decide +kernel))
  have hregrowth := regrowth_of_shrunk ⟨rfl, Nat.le_refl _⟩ harises (by decide +kernel) hremove
    hshrunk hinsert
  have hbelow : ¬ nearlyEmpty.config.expansion * t.capacity ≤ t.count := by decide +kernel
  exact ⟨hregrowth, hshrunk, hregrowth.stays fun hlt => hbelow (hregrowth.grows_iff.1 hlt)⟩

/-- Three blocks at first, half as many more at five eighths, and a shrink below thirteen
thirty-seconds. -/
def tight : StoreConfig := ⟨3, 0x3FF8000000000000, 0x3FE4000000000000, 0x3FDA000000000000⟩

/-- With three holders the buffer has five blocks; when one of them goes it shrinks to three, and
when it comes back it grows to five again. -/
theorem regrows_after_shrinking : Chases .ideal ∧ Chases .standard := by
  constructor
  · have harises : (filled .ideal tight [1, 2, 3]).Arises .ideal :=
      arises_filled (by decide +kernel) _
    refine chases_of_arises (e := 3) (x := 3) harises ?_ ?_ ?_ ?_ ?_
    all_goals decide +kernel
  · have harises : (filled .standard tight [1, 2, 3]).Arises .standard :=
      arises_filled (by decide +kernel) _
    refine chases_of_arises (e := 3) (x := 3) harises ?_ ?_ ?_ ?_ ?_
    all_goals decide +kernel

end EntityStore.Store
