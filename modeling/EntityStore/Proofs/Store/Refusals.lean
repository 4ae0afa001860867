import EntityStore.Proofs.Store.Admission
import EntityStore.Proofs.Store.Declarations

/-!
# What a refused declaration leaves

A declaration that finds its name taken changes nothing.  One whose default is refused by its codec
has brought the template to the length of a block that would have the property, and the codec has
written what it likes into the room for the value; nothing takes that back.  Everything else is as it
was, and the next declaration that writes a value of no bytes, or is granted a place in the blocks,
brings the template to the right length again.  A kind that is used before that happens has no room
for its holders, since a block is a copy of the template.

* `Layout.Pushed.refusal`: what a refused declaration leaves.
* `Layout.Declared.fitted_iff`: which declarations leave a template of the right length.
* `Layout.withstands_of_declared`: both, with what they mean for an insertion.
* `Layout.longer_after_refusal`: a refused declaration does leave something.
-/

namespace EntityStore

variable [CustomTypes]

/-! ## Declarations that miss -/

/-- The declaration was refused by the codec of its type. -/
def Declaration.Misses (d : Declaration) : Prop :=
  ∃ property expected, d.answer = .error (.valueTypeMismatch property expected)

/-- A declaration whose default was refused by a codec that writes at least one byte. -/
def Declaration.Misfires (d : Declaration) : Prop := d.Misses ∧ d.type.width? ≠ some 0

/-- A declaration that brings the template to the length of a block: it was granted a place in the
blocks, or its default was refused by a codec that writes no bytes. -/
def Declaration.Packs (d : Declaration) : Prop :=
  (∃ offset, d.answer = .ok (.packed offset)) ∨ d.Misses ∧ d.type.width? = some 0

theorem Declaration.Packs.not_misfires {d : Declaration} (h : d.Packs) : ¬ d.Misfires := by
  rintro ⟨⟨property, expected, hrefused⟩, hwide⟩
  rcases h with ⟨offset, hgranted⟩ | ⟨-, hnarrow⟩
  · rw [hgranted] at hrefused
    cases hrefused
  · exact hwide hnarrow

/-- After every declaration that missed and left room for a value, one has brought the template to
the right length. -/
def Mended (log : List Declaration) : Prop :=
  ∀ (i : Nat) (d : Declaration), log[i]? = some d → d.Misfires →
    ∃ (j : Nat) (g : Declaration), i < j ∧ log[j]? = some g ∧ g.Packs

theorem mended_nil : Mended [] := by
  intro i d hd
  cases hd

/-- The last declaration mends what was missed before, or leaves it at that. -/
theorem mended_snoc {log : List Declaration} {last : Declaration} :
    Mended (log ++ [last]) ↔ last.Packs ∨ ¬ last.Misfires ∧ Mended log := by
  have hlast : (log ++ [last])[log.length]? = some last := List.getElem?_concat_length
  have hold : ∀ (i : Nat) (d : Declaration), log[i]? = some d →
      (log ++ [last])[i]? = some d := by
    intro i d hd
    rw [List.getElem?_append_left (List.getElem?_eq_some_iff.1 hd).1]
    exact hd
  have hcases : ∀ (i : Nat) (d : Declaration), (log ++ [last])[i]? = some d →
      log[i]? = some d ∨ i = log.length ∧ d = last := by
    intro i d hd
    rw [List.getElem?_append] at hd
    split at hd
    · exact Or.inl hd
    · rw [List.getElem?_singleton] at hd
      split at hd
      · exact Or.inr ⟨by omega, (Option.some.inj hd).symm⟩
      · cases hd
  constructor
  · intro h
    by_cases hpacks : last.Packs
    · exact Or.inl hpacks
    · refine Or.inr ⟨fun hmisfires => ?_, fun i d hd hmisfires => ?_⟩
      · -- nothing comes after the last one
        obtain ⟨j, g, hj, hg, -⟩ := h log.length last hlast hmisfires
        have hlt := (List.getElem?_eq_some_iff.1 hg).1
        rw [List.length_append, List.length_singleton] at hlt
        omega
      · obtain ⟨j, g, hj, hg, hgrant⟩ := h i d (hold i d hd) hmisfires
        rcases hcases j g hg with hearlier | ⟨-, rfl⟩
        · exact ⟨j, g, hj, hearlier, hgrant⟩
        · exact absurd hgrant hpacks
  · rintro (hpacks | ⟨hgood, h⟩) i d hd hmisfires
    · rcases hcases i d hd with hearlier | ⟨-, rfl⟩
      · exact ⟨log.length, last, (List.getElem?_eq_some_iff.1 hearlier).1, hlast, hpacks⟩
      · exact absurd hmisfires hpacks.not_misfires
    · rcases hcases i d hd with hearlier | ⟨-, rfl⟩
      · obtain ⟨j, g, hj, hg, hgrant⟩ := h i d hearlier hmisfires
        exact ⟨j, g, hj, hold j g hg, hgrant⟩
      · exact absurd hmisfires hgood

namespace Layout

variable {l next : Layout} {log : List Declaration} {kind name : String} {type : ValueType}
  {default : type.Carrier} {answer : Except StoreError Slot}

/-! ## One declaration -/

/-- What a refused declaration leaves. -/
inductive Refusal (l : Layout) (kind name : String) (type : ValueType) (default : type.Carrier) :
    Layout → StoreError → Prop where
  /-- The name was taken: nothing has changed. -/
  | taken (htaken : name ∈ l.names) :
      Refusal l kind name type default l (.duplicateProperty kind name)
  /-- The default was refused: behind a block the template has what the codec made of the room for
  the value, and nothing else has changed. -/
  | misfire (hnew : name ∉ l.names) (codec : Codec type.Carrier)
      (hcodec : type.codec? = some codec)
      (hrefused : (codec.encode default (l.roomFor type)).2 = false) (template : List UInt8)
      (hlength : template.length = l.blockSize + codec.width)
      (hkept : template.take l.blockSize = l.template.take l.blockSize)
      (hwritten : template.drop l.blockSize = (codec.encode default (l.roomFor type)).1)
      (hsame : template = l.template ↔ l.template.length = l.blockSize + codec.width ∧
        (codec.encode default (l.template.drop l.blockSize)).1 = l.template.drop l.blockSize) :
      Refusal l kind name type default { l with template := template }
        (.valueTypeMismatch name type.name)

/-- A template that is as long as it should be needs no room. -/
theorem roomFor_eq_drop {width : Nat} (hwidth : type.width? = some width)
    (hlength : l.template.length = l.blockSize + width) :
    l.roomFor type = l.template.drop l.blockSize := by
  unfold blockSize at hlength
  rw [roomFor, hwidth, Option.getD_some, room, resizeBytes_of_le (by omega), hlength, Nat.sub_self,
    List.replicate_zero, List.append_nil]

/-- What a declaration makes of the template when its default is refused. -/
theorem template_of_refused (h : l.Stocked) {codec : Codec type.Carrier}
    (hcodec : type.codec? = some codec) {template : List UInt8}
    (hwrite : type.write default (l.room codec.width) (headerSize + l.dataSize) =
      (template, false)) :
    (codec.encode default (l.roomFor type)).2 = false ∧
      template.length = l.blockSize + codec.width ∧
      template.take l.blockSize = l.template.take l.blockSize ∧
      template.drop l.blockSize = (codec.encode default (l.roomFor type)).1 := by
  have hwidth := ValueType.width?_of_codec? hcodec
  have hspan := spanAt?_roomFor (l := l) hwidth
  have hcodecWrite := (ValueType.write_of_codec? hcodec _ _ _).symm.trans hwrite
  have hlength := length_write_room (l := l) codec.width default
  have hcovers := h.covers
  have hinside : 0 + l.blockSize ≤ l.blockSize := by omega
  have hfront := take_of_spanAt?
    ((spanAt?_write_room h hwidth default hinside).trans (if_pos (by omega)))
  have hback := Codec.spanAt?_write hspan (x := default)
  rw [hwrite] at hlength hfront
  rw [hcodecWrite] at hback
  rw [Codec.write_of_spanAt? hspan] at hcodecWrite
  refine ⟨congrArg Prod.snd hcodecWrite, hlength, hfront, ?_⟩
  rw [← take_of_spanAt? hback]
  refine (List.take_of_length_le ?_).symm
  rw [List.length_drop, hlength]
  exact Nat.le_of_eq (Nat.add_sub_cancel_left _ _)

/-- Two templates are the same if they are so in a block's length and behind it. -/
theorem template_eq_iff {template : List UInt8}
    (hkept : template.take l.blockSize = l.template.take l.blockSize) :
    template = l.template ↔ template.drop l.blockSize = l.template.drop l.blockSize := by
  constructor
  · rintro rfl
    rfl
  · intro hback
    rw [← List.take_append_drop l.blockSize template, hkept, hback, List.take_append_drop]

theorem Pushed.refusal {cause : StoreError}
    (hpush : Pushed l kind name type default next (.error cause)) (hstocked : l.Stocked) :
    Refusal l kind name type default next cause := by
  cases hpush with
  | taken htaken => exact .taken htaken
  | refused hnew width hwidth template hwrite =>
      obtain ⟨codec, hcodec, rfl⟩ := ValueType.exists_codec_of_width? hwidth
      obtain ⟨hrefused, hlength, hkept, hwritten⟩ := template_of_refused hstocked hcodec hwrite
      refine .misfire hnew codec hcodec hrefused template hlength hkept hwritten ?_
      rw [template_eq_iff hkept, hwritten]
      constructor
      · intro hback
        have hsame := (template_eq_iff hkept).2 (hwritten.trans hback)
        have hlong : l.template.length = l.blockSize + codec.width := by
          rw [← hsame]
          exact hlength
        -- a template that is as long as it should be has just the room for the value
        refine ⟨hlong, ?_⟩
        rw [← roomFor_eq_drop hwidth hlong] at hback ⊢
        exact hback
      · rintro ⟨hlong, hback⟩
        rw [roomFor_eq_drop hwidth hlong]
        exact hback

/-! ## All declarations -/

/-- A declaration that misfires leaves a template of the wrong length; one that is granted a place in
the blocks, or refused by a codec that writes nothing, leaves one of the right length, and every other
one leaves the template alone. -/
theorem Pushed.fitted_iff (hpush : Pushed l kind name type default next answer)
    (room : List UInt8) :
    next.Fitted ↔ Declaration.Packs ⟨kind, name, type, default, room, answer⟩ ∨
      ¬ Declaration.Misfires ⟨kind, name, type, default, room, answer⟩ ∧ l.Fitted := by
  have hquiet : (∀ property expected, answer ≠ .error (.valueTypeMismatch property expected)) →
      (∀ offset, answer ≠ .ok (.packed offset)) →
      (l.Fitted ↔ Declaration.Packs ⟨kind, name, type, default, room, answer⟩ ∨
        ¬ Declaration.Misfires ⟨kind, name, type, default, room, answer⟩ ∧ l.Fitted) := by
    intro hcause hslot
    have hhits : ¬ Declaration.Misses ⟨kind, name, type, default, room, answer⟩ :=
      fun ⟨property, expected, hrefused⟩ => hcause property expected hrefused
    constructor
    · exact fun h => Or.inr ⟨fun hmisfires => hhits hmisfires.1, h⟩
    · rintro ((⟨offset, hgranted⟩ | ⟨hmisses, -⟩) | ⟨-, h⟩)
      · exact absurd hgranted (hslot offset)
      · exact absurd hmisses hhits
      · exact h
  cases hpush with
  | taken => exact hquiet nofun nofun
  | side => exact hquiet nofun nofun
  | packed hnew width hwidth template hwrite =>
      exact iff_of_true (fitted_of_write hwrite) (Or.inl (Or.inl ⟨l.dataSize, rfl⟩))
  | refused hnew width hwidth template hwrite =>
      have hmisses : Declaration.Misses ⟨kind, name, type, default, room,
          .error (.valueTypeMismatch name type.name)⟩ := ⟨name, type.name, rfl⟩
      have hlength := length_write_room (l := l) width default
      rw [hwrite] at hlength
      have hfitted : ({ l with template := template } : Layout).Fitted ↔ width = 0 := by
        show template.length = l.blockSize ↔ width = 0
        rw [hlength]
        omega
      rw [hfitted]
      constructor
      · rintro rfl
        exact Or.inl (Or.inr ⟨hmisses, hwidth⟩)
      · rintro ((⟨offset, hgranted⟩ | ⟨-, hnarrow⟩) | ⟨hgood, -⟩)
        · cases hgranted
        · exact Option.some.inj (hwidth.symm.trans hnarrow)
        · refine Decidable.not_not.1 fun hwide => hgood ⟨hmisses, fun hnarrow => hwide ?_⟩
          exact Option.some.inj (hwidth.symm.trans hnarrow)

/-- The template is as long as a block if and only if every declaration that misfired was mended. -/
theorem Declared.fitted_iff (h : Declared log l) : l.Fitted ↔ Mended log := by
  induction h with
  | empty => exact iff_of_true fitted_empty mended_nil
  | push _ kind name type default ih =>
      rw [mended_snoc, ← ih]
      exact (push_pushed _ kind name type default).fitted_iff _

/-- What refused declarations mean for a layout and the kind that has it. -/
structure Withstands (log : List Declaration) (l : Layout) : Prop where
  /-- One more refusal changes nothing if the name was taken, and else nothing but the template
  behind a block. -/
  refused : ∀ kind name type default cause, (l.push kind name type default).2 = .error cause →
    Refusal l kind name type default (l.push kind name type default).1 cause
  /-- The template is a block if and only if every declaration that misfired was mended. -/
  fitted : l.template.length = l.blockSize ↔ Mended log
  /-- A kind with blocks and room takes on a new holder if the template is a block, and cannot copy
  it otherwise. -/
  copied : ∀ (machine : Machine) (s : Store), machine.memory ≤ maxBufferBytes →
    s.Arises machine → s.layout = l → l.hasFixedStorage = true →
    ∀ (e : EntityId) (roomy : Store), e.IsValid → e ∉ s.holders → s.reserve machine = .ok roomy →
      (s.insert machine e).2 =
        if l.template.length = l.blockSize then .ok () else .error (.templateMisfit s.name)

/-- What every refused declaration leaves, and when the template has the length of a block. -/
theorem withstands_of_declared (h : Declared log l) : l.Withstands log where
  refused kind name type default cause hcause := by
    have hpush := push_pushed l kind name type default
    rw [hcause] at hpush
    exact hpush.refusal h.laid.stocked
  fitted := h.fitted_iff
  copied machine s hmemory harises hlayout hfixed e roomy hvalid hnew hroomy := by
    subst hlayout
    exact Store.insert_of_reserve harises.packed hmemory hvalid hnew hfixed hroomy

end Layout

end EntityStore

namespace EntityStore.Layout

attribute [local instance] CustomTypes.grading

/-- A truth value that is declared after the refusal mends the template. -/
theorem withstands_mended_refusal :
    ∃ log l, Declared log l ∧ l.Withstands log ∧
      log.map (·.answer.toOption) = [some (.packed 0), none, some (.packed 4)] ∧ Mended log := by
  have first := Declared.empty.push "Mass" "kg" (.word (.unsigned .w32)) (7 : BitVec 32)
  have second := first.push "Mass" "grade" (.custom false) (65535 : BitVec 16)
  have third := second.push "Mass" "heavy" .bool true
  have hwithstands := withstands_of_declared third
  exact ⟨_, _, third, hwithstands, rfl, hwithstands.fitted.1 rfl⟩

/-- Without that the template is longer than a block after the refusal, and the kind cannot be given
to anybody. -/
theorem longer_after_refusal :
    let l := (Layout.empty.push "Mass" "kg" (.word (.unsigned .w32)) (7 : BitVec 32)).1
    let next := (l.push "Mass" "grade" (.custom false) (65535 : BitVec 16)).1
    let declared := ((Store.empty "Mass" Store.explosive).addField "kg" (.word (.unsigned .w32))
      (7 : BitVec 32)).1
    let s := (declared.addField "grade" (.custom false) (65535 : BitVec 16)).1
    (l.push "Mass" "grade" (.custom false) (65535 : BitVec 16)).2 =
        .error (.valueTypeMismatch "grade" "grade") ∧
      l.template = [0, 0, 0, 0, 7, 0, 0, 0] ∧
      next.template = [0, 0, 0, 0, 7, 0, 0, 0, 0, 0] ∧ next.blockSize = 8 ∧
      s.layout = next ∧ (s.insert .standard 1).2 = .error (.templateMisfit "Mass") := by
  intro l next declared s
  exact ⟨rfl, rfl, rfl, rfl, rfl, rfl⟩

end EntityStore.Layout
