/-!
# The first occurrence of a mark

`splitFirst? mark text` cuts a text at the first occurrence of a mark and gives what stands
before it and what stands after it. It is said for lists of any kind, so that a log can be taken
apart as bytes or as characters by the same rule. `append_of_splitFirst?` says that nothing is
lost, `length_after_lt` that what stands after a mark that is not empty is shorter than the text.
-/

namespace CompilerWrapper.Text

variable {α : Type} [DecidableEq α]

/-- What is left of `text` once `mark` is taken off its front. -/
def strip? : (mark text : List α) → Option (List α)
  | [], text => some text
  | _ :: _, [] => none
  | m :: mark, c :: text => if m = c then strip? mark text else none

theorem strip?_eq_some_iff {mark text rest : List α} :
    strip? mark text = some rest ↔ text = mark ++ rest := by
  induction mark generalizing text with
  | nil => simp [strip?]
  | cons m mark ih =>
    cases text with
    | nil => simp [strip?]
    | cons c text =>
      by_cases h : m = c
      · simp [strip?, h, ih]
      · simp [strip?, h, Ne.symm h]

/-- Cuts `text` at the first occurrence of `mark`; `before` holds, in reverse, what was passed
already. -/
def splitAfter? (mark before : List α) : List α → Option (List α × List α)
  | [] => (strip? mark []).map (before.reverse, ·)
  | c :: text =>
    match strip? mark (c :: text) with
    | some rest => some (before.reverse, rest)
    | none => splitAfter? mark (c :: before) text

/-- What stands before the first occurrence of `mark` and what stands after it. -/
def splitFirst? (mark text : List α) : Option (List α × List α) :=
  splitAfter? mark [] text

theorem append_of_splitAfter? {mark passed text before after : List α}
    (h : splitAfter? mark passed text = some (before, after)) :
    passed.reverse ++ text = before ++ mark ++ after := by
  induction text generalizing passed with
  | nil =>
    obtain ⟨rest, hrest, heq⟩ := Option.map_eq_some_iff.mp h
    obtain ⟨rfl, rfl⟩ := Prod.mk.inj heq
    rw [strip?_eq_some_iff] at hrest
    simp [hrest]
  | cons c text ih =>
    rw [splitAfter?] at h
    split at h
    · rename_i rest hrest
      obtain ⟨rfl, rfl⟩ := Prod.mk.inj (Option.some.inj h)
      rw [strip?_eq_some_iff] at hrest
      simp [hrest]
    · simpa using ih h

/-- Nothing is lost: the text is what stands before the mark, the mark, and what stands after. -/
theorem append_of_splitFirst? {mark text before after : List α}
    (h : splitFirst? mark text = some (before, after)) : text = before ++ mark ++ after := by
  simpa using append_of_splitAfter? h

/-- What stands after a mark that is not empty is shorter than the text. -/
theorem length_after_lt {mark text before after : List α}
    (h : splitFirst? mark text = some (before, after)) (hmark : mark ≠ []) :
    after.length < text.length := by
  have hpos := List.length_pos_iff.mpr hmark
  rw [append_of_splitFirst? h]
  simp only [List.length_append]
  omega

end CompilerWrapper.Text
