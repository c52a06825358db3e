import CompilerWrapper.Proofs.Text.Search
import CompilerWrapper.Proofs.Text.Utf8

/-!
# Marks that follow each other

`InOrder marks text` says that the marks occur in the text, each behind the end of the one before
it. No choice of occurrences does better than taking the first one of every mark
(`inOrder_cons_iff`), so that the property can be decided by searching. Decoding keeps the order of
ASCII marks (`inOrder_decodeLossy_iff`).
-/

namespace CompilerWrapper.Text

variable {α : Type} {marks more : List (List α)} {mark text : List α}

/-- The marks occur in the text, each behind the one before it. -/
def InOrder : (marks : List (List α)) → (text : List α) → Prop
  | [], _ => True
  | mark :: marks, text => ∃ before after, text = before ++ mark ++ after ∧ InOrder marks after

theorem InOrder.append_left (inOrder : InOrder marks text) (before : List α) :
    InOrder marks (before ++ text) := by
  cases marks with
  | nil => trivial
  | cons mark marks =>
    obtain ⟨passed, after, rfl, rest⟩ := inOrder
    exact ⟨before ++ passed, after, by simp, rest⟩

/-- The marks of two lists are found one behind the other where the text can be cut between them. -/
theorem inOrder_append_iff : InOrder (marks ++ more) text ↔
    ∃ front back, text = front ++ back ∧ InOrder marks front ∧ InOrder more back := by
  induction marks generalizing text with
  | nil =>
    constructor
    · intro inOrder
      exact ⟨[], text, rfl, trivial, inOrder⟩
    · rintro ⟨front, back, rfl, -, inOrder⟩
      exact inOrder.append_left front
  | cons mark marks ih =>
    constructor
    · rintro ⟨passed, after, rfl, rest⟩
      obtain ⟨front, back, rfl, first, second⟩ := ih.mp rest
      exact ⟨passed ++ mark ++ front, back, by simp, ⟨passed, front, rfl, first⟩, second⟩
    · rintro ⟨front, back, rfl, ⟨passed, after, rfl, first⟩, second⟩
      exact ⟨passed, after ++ back, by simp, ih.mpr ⟨after, back, rfl, first, second⟩⟩

theorem InOrder.append {a b : List α} (first : InOrder marks a) (second : InOrder more b) :
    InOrder (marks ++ more) (a ++ b) :=
  inOrder_append_iff.mpr ⟨a, b, rfl, first, second⟩

theorem InOrder.append_right (inOrder : InOrder marks text) (after : List α) :
    InOrder marks (text ++ after) := by
  have whole : InOrder (marks ++ []) (text ++ after) := inOrder.append trivial
  rwa [List.append_nil] at whole

/-- A mark that is at hand is in order. -/
theorem inOrder_self (mark : List α) : InOrder [mark] mark := ⟨[], [], by simp, trivial⟩

variable [DecidableEq α]

/-- **The first mark may be taken where it first occurs.** -/
theorem inOrder_cons_iff : InOrder (mark :: marks) text ↔
    ∃ before after, splitFirst? mark text = some (before, after) ∧ InOrder marks after := by
  constructor
  · rintro ⟨passed, rest, occurs, inOrder⟩
    cases cut : splitFirst? mark text with
    | none => exact absurd ⟨passed, rest, occurs.symm⟩ (splitFirst?_eq_none_iff.mp cut)
    | some found =>
      obtain ⟨before, after⟩ := found
      refine ⟨before, after, rfl, ?_⟩
      -- What stands behind the other occurrence also stands behind the first one.
      have shorter := length_le_of_splitFirst? cut occurs
      have same := (append_of_splitFirst? cut).symm.trans occurs
      have within : rest <:+ after := by
        have behind : rest <:+ text := ⟨_, occurs.symm⟩
        have first : after <:+ text := ⟨_, (append_of_splitFirst? cut).symm⟩
        refine List.suffix_of_suffix_length_le behind first ?_
        have length := congrArg List.length same
        simp only [List.length_append] at length
        omega
      obtain ⟨front, rfl⟩ := within
      exact inOrder.append_left front
  · rintro ⟨before, after, cut, inOrder⟩
    exact ⟨before, after, append_of_splitFirst? cut, inOrder⟩

/-- A mark that was written is found where it was written, and the other marks behind it. -/
theorem inOrder_append_mark_iff {before : List α} (ne : mark ≠ [])
    (free : ¬ mark <:+: before ++ mark.dropLast) (after : List α) :
    InOrder (mark :: marks) (before ++ mark ++ after) ↔ InOrder marks after := by
  rw [inOrder_cons_iff, (splitFirst?_append_mark_iff ne after).mpr free]
  constructor
  · rintro ⟨_, _, found, inOrder⟩
    obtain ⟨-, rfl⟩ := Prod.mk.inj (Option.some.inj found)
    exact inOrder
  · intro inOrder
    exact ⟨before, after, rfl, inOrder⟩

instance decidableInOrder : (marks : List (List α)) → (text : List α) →
    Decidable (InOrder marks text)
  | [], _ => isTrue trivial
  | mark :: marks, text =>
    match cut : splitFirst? mark text with
    | none => isFalse fun inOrder => by
        obtain ⟨_, _, found, _⟩ := inOrder_cons_iff.mp inOrder
        exact absurd (cut.symm.trans found) (by simp)
    | some (before, after) =>
      have := decidableInOrder marks after
      decidable_of_iff (InOrder marks after) ⟨
        fun inOrder => inOrder_cons_iff.mpr ⟨before, after, cut, inOrder⟩,
        fun inOrder => by
          obtain ⟨_, _, found, inOrder⟩ := inOrder_cons_iff.mp inOrder
          obtain ⟨-, rfl⟩ := Prod.mk.inj (Option.some.inj (cut.symm.trans found))
          exact inOrder⟩

end CompilerWrapper.Text

namespace CompilerWrapper.Utf8

/-- Decoding keeps ASCII marks in their order, and makes none. -/
theorem inOrder_decodeLossy_iff {marks : List (List Char)}
    (ascii : ∀ mark ∈ marks, IsAscii mark ∧ mark ≠ []) (bs : Bytes) :
    Text.InOrder marks (decodeLossy bs) ↔ Text.InOrder (marks.map encode) bs := by
  induction marks generalizing bs with
  | nil => exact Iff.rfl
  | cons mark marks ih =>
    obtain ⟨⟨first, ne⟩, rest⟩ := List.forall_mem_cons.mp ascii
    constructor
    · rintro ⟨passed, behind, text, inOrder⟩
      obtain ⟨before, after, rfl, -, rfl⟩ := exists_of_decodeLossy_eq_append_append first ne text
      exact ⟨before, after, rfl, (ih rest after).mp inOrder⟩
    · rintro ⟨before, after, rfl, inOrder⟩
      exact ⟨decodeLossy before, decodeLossy after,
        decodeLossy_append_encode_append before first ne after, (ih rest after).mpr inOrder⟩

end CompilerWrapper.Utf8
