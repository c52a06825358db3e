import CompilerWrapper.Text.Search
import Mathlib.Data.List.Infix

/-!
# Where the first occurrence of a mark is

`splitFirst?` finds a mark exactly where the text has one (`splitFirst?_eq_none_iff`), and what it
passes over is as short as it can be (`splitFirst?_eq_some_iff`). More text behind an occurrence
changes nothing (`splitFirst?_append`).

A mark that was written behind other text is found where it was written unless an occurrence begins
earlier, and such an occurrence ends within the text and the mark without its last element
(`splitFirst?_append_mark_iff`). A mark of which no end is also a beginning cannot run into itself,
so for it only the text itself counts (`infix_append_dropLast_iff`). A *wall* is a text that no
occurrence of a mark reaches into: behind a wall the search starts anew (`Wall.cases`).
-/

namespace CompilerWrapper.Text

variable {α : Type}

/-! ### Occurrences of a mark -/

/-- The last element of a mark is the last that an occurrence needs, so an occurrence that begins
in `before` ends before the last element of the mark behind `before`. -/
theorem exists_shorter_iff {mark before : List α} (ne : mark ≠ []) (after : List α) :
    (∃ passed rest, before ++ mark ++ after = passed ++ mark ++ rest ∧
        passed.length < before.length) ↔ mark <:+: before ++ mark.dropLast := by
  have length := List.length_pos_iff.mpr ne
  constructor
  · rintro ⟨passed, rest, occurs, shorter⟩
    have begins : passed ++ mark <+: before ++ mark ++ after := ⟨rest, occurs.symm⟩
    have most : before ++ mark.dropLast <+: before ++ mark ++ after := by
      rw [List.append_assoc]
      exact (List.prefix_append_right_inj _).mpr
        ((List.dropLast_prefix mark).trans (List.prefix_append _ _))
    have within : passed ++ mark <+: before ++ mark.dropLast := by
      refine List.prefix_of_prefix_length_le begins most ?_
      simp only [List.length_append, List.length_dropLast]
      omega
    exact (List.suffix_append passed mark).isInfix.trans within.isInfix
  · rintro ⟨passed, rest, occurs⟩
    refine ⟨passed, rest ++ mark.getLast ne :: after, ?_, ?_⟩
    · calc before ++ mark ++ after
          = before ++ (mark.dropLast ++ [mark.getLast ne]) ++ after := by
            rw [List.dropLast_concat_getLast]
        _ = before ++ mark.dropLast ++ mark.getLast ne :: after := by simp
        _ = passed ++ mark ++ (rest ++ mark.getLast ne :: after) := by rw [← occurs]; simp
    · have := congrArg List.length occurs
      simp only [List.length_append, List.length_dropLast] at this
      omega

/-- No end of the mark, but for the mark itself, is a beginning of it. -/
def Unbordered (mark : List α) : Prop :=
  ∀ k < mark.length, 0 < k → mark.drop k ≠ mark.take (mark.length - k)

instance [DecidableEq α] (mark : List α) : Decidable (Unbordered mark) := by
  unfold Unbordered
  infer_instance

/-- An occurrence of an unbordered mark does not reach into the next one. -/
theorem infix_append_dropLast_iff {mark before : List α} (unbordered : Unbordered mark)
    (ne : mark ≠ []) : mark <:+: before ++ mark.dropLast ↔ mark <:+: before := by
  have length := List.length_pos_iff.mpr ne
  constructor
  · rintro ⟨passed, rest, occurs⟩
    by_cases within : passed.length + mark.length ≤ before.length
    · have : passed ++ mark <+: before :=
        List.prefix_of_prefix_length_le ⟨rest, occurs⟩ (List.prefix_append _ _) (by simpa)
      exact (List.suffix_append passed mark).isInfix.trans this.isInfix
    · -- The occurrence begins in `before` and ends behind it: its end begins the mark.
      exfalso
      have total := congrArg List.length occurs
      simp only [List.length_append, List.length_dropLast] at total
      have inside : before.length - passed.length < mark.length := by omega
      refine unbordered (before.length - passed.length) inside (by omega) ?_
      have cut := congrArg (fun l => (l.drop before.length).take
        (mark.length - (before.length - passed.length))) occurs
      simp only [List.drop_left] at cut
      rw [List.append_assoc, List.drop_append, List.drop_eq_nil_of_le (by omega), List.nil_append,
        List.drop_append_of_le_length (by omega), List.take_append_of_le_length
          (by rw [List.length_drop]), List.take_of_length_le (by rw [List.length_drop]),
        List.dropLast_eq_take, List.take_take, Nat.min_eq_left (by omega)] at cut
      exact cut
  · intro h
    exact h.trans (List.prefix_append _ _).isInfix

/-! ### Texts that are joined -/

/-- What begins two texts that are joined ends within the first one or behind it. -/
theorem cases_of_prefix_append {front a b : List α} (begins : front <+: a ++ b) :
    (front <+: a ∧ front ≠ a) ∨ ∃ more, front = a ++ more ∧ more <+: b := by
  rcases List.prefix_or_prefix_of_prefix begins (List.prefix_append a b) with h | ⟨more, rfl⟩
  · by_cases same : front = a
    · exact Or.inr ⟨[], by simp [same], List.nil_prefix⟩
    · exact Or.inl ⟨h, same⟩
  · exact Or.inr ⟨more, rfl, (List.prefix_append_right_inj a).mp begins⟩

theorem prefix_dropLast {front text : List α} (begins : front <+: text) (proper : front ≠ text) :
    front <+: text.dropLast := by
  obtain ⟨rest, rfl⟩ := begins
  have ne : rest ≠ [] := by
    rintro rfl
    exact proper (List.append_nil front).symm
  rw [List.dropLast_append_of_ne_nil ne]
  exact List.prefix_append _ _

/-- An occurrence of a mark in two texts that are joined lies in the first one, or in the second
one, or is cut by the seam. -/
theorem cases_of_append_eq {mark passed rest a b : List α}
    (occurs : passed ++ mark ++ rest = a ++ b) :
    (∃ rest', a = passed ++ mark ++ rest') ∨
      (∃ passed', passed = a ++ passed' ∧ b = passed' ++ mark ++ rest) ∨
      ∃ k < mark.length, 0 < k ∧ a = passed ++ mark.take k ∧ b = mark.drop k ++ rest := by
  rcases List.append_eq_append_iff.mp occurs with ⟨rest', rfl, -⟩ | ⟨back, inside, rfl⟩
  · exact Or.inl ⟨rest', rfl⟩
  rcases List.append_eq_append_iff.mp inside with ⟨front, rfl, rfl⟩ | ⟨passed', rfl, rfl⟩
  · cases front with
    | nil => exact Or.inr (Or.inl ⟨[], by simp, by simp⟩)
    | cons c front =>
      cases back with
      | nil => exact Or.inl ⟨[], by simp⟩
      | cons d back =>
        refine Or.inr (Or.inr ⟨(c :: front).length, by simp, by simp, ?_, ?_⟩)
        · rw [List.take_left]
        · rw [List.drop_left]
  · exact Or.inr (Or.inl ⟨passed', rfl, by simp⟩)

/-- No occurrence of the mark begins before the wall and reaches into it, is part of it, or begins
in it and reaches out of it. -/
structure Wall (mark wall : List α) : Prop where
  begins : ∀ k < mark.length, 0 < k → ¬ mark.drop k <+: wall ∧ ¬ wall <+: mark.drop k
  inside : ¬ mark <:+: wall
  ends : ∀ k < mark.length, 0 < k → ¬ mark.take k <:+ wall

instance [DecidableEq α] (mark wall : List α) : Decidable (Wall mark wall) :=
  decidable_of_iff ((∀ k < mark.length, 0 < k → ¬ mark.drop k <+: wall ∧ ¬ wall <+: mark.drop k) ∧
      ¬ mark <:+: wall ∧ ∀ k < mark.length, 0 < k → ¬ mark.take k <:+ wall)
    ⟨fun h => ⟨h.1, h.2.1, h.2.2⟩, fun h => ⟨h.begins, h.inside, h.ends⟩⟩

/-- **A mark occurs before a wall or behind it.** -/
theorem Wall.cases {mark wall passed rest a b : List α} (apart : Wall mark wall)
    (occurs : passed ++ mark ++ rest = a ++ wall ++ b) :
    (∃ rest', a = passed ++ mark ++ rest') ∨
      ∃ passed', passed = a ++ wall ++ passed' ∧ b = passed' ++ mark ++ rest := by
  rcases cases_of_append_eq occurs with ⟨rest', before⟩ | behind | ⟨k, inside, some, before, rfl⟩
  · rcases cases_of_append_eq before.symm with
      within | ⟨passed', rfl, within⟩ | ⟨k, inside, some, rfl, within⟩
    · exact Or.inl within
    · exact absurd ⟨passed', rest', within.symm⟩ apart.inside
    · exact absurd ⟨rest', within.symm⟩ (apart.begins k inside some).1
  · exact Or.inr behind
  · exfalso
    rcases List.append_eq_append_iff.mp before with ⟨front, rfl, within⟩ | ⟨front, rfl, within⟩
    · exact apart.ends k inside some ⟨front, within.symm⟩
    · -- The wall is part of the mark.
      cases front with
      | nil => exact apart.ends k inside some ⟨[], within⟩
      | cons c front =>
        have whole : mark = (c :: front) ++ (wall ++ mark.drop k) := by
          rw [← List.append_assoc, ← within, List.take_append_drop]
        have length := congrArg List.length within
        rw [List.length_take, List.length_append] at length
        refine (apart.begins (c :: front).length (by omega) (by simp)).2 ⟨mark.drop k, ?_⟩
        rw [whole, List.drop_left, ← whole]

theorem infix_append_wall_iff {mark wall : List α} (apart : Wall mark wall) (a b : List α) :
    mark <:+: a ++ wall ++ b ↔ mark <:+: a ∨ mark <:+: b := by
  constructor
  · rintro ⟨passed, rest, occurs⟩
    rcases apart.cases occurs with ⟨rest', rfl⟩ | ⟨passed', -, rfl⟩
    · exact Or.inl ⟨passed, rest', rfl⟩
    · exact Or.inr ⟨passed', rest, rfl⟩
  · rintro (inside | inside)
    · exact inside.trans (List.append_assoc a wall b ▸ (List.prefix_append _ _).isInfix)
    · exact inside.trans (List.suffix_append _ _).isInfix

variable [DecidableEq α]

/-! ### The search as a recursion on the text -/

theorem splitAfter?_eq_map (mark passed text : List α) :
    splitAfter? mark passed text =
      (splitFirst? mark text).map fun cut => (passed.reverse ++ cut.1, cut.2) := by
  induction text generalizing passed with
  | nil => cases h : strip? mark [] <;> simp [splitFirst?, splitAfter?, h]
  | cons c text ih =>
    rw [splitFirst?, splitAfter?, splitAfter?]
    cases h : strip? mark (c :: text) with
    | some rest => simp
    | none =>
      simp only
      rw [ih, ih [c]]
      simp [Function.comp_def]

theorem splitFirst?_cons (mark : List α) (c : α) (text : List α) :
    splitFirst? mark (c :: text) =
      match strip? mark (c :: text) with
      | some rest => some ([], rest)
      | none => (splitFirst? mark text).map fun cut => (c :: cut.1, cut.2) := by
  rw [splitFirst?, splitAfter?]
  cases strip? mark (c :: text) with
  | some rest => rfl
  | none => simp only [splitAfter?_eq_map]; rfl

theorem strip?_eq_none_iff {mark text : List α} : strip? mark text = none ↔ ¬ mark <+: text := by
  rw [Option.eq_none_iff_forall_ne_some, List.IsPrefix]
  constructor
  · rintro h ⟨rest, rfl⟩
    exact h rest (strip?_eq_some_iff.mpr rfl)
  · intro h rest hrest
    exact h ⟨rest, (strip?_eq_some_iff.mp hrest).symm⟩

/-- **The search fails exactly where there is nothing to be found.** -/
theorem splitFirst?_eq_none_iff {mark text : List α} :
    splitFirst? mark text = none ↔ ¬ mark <:+: text := by
  induction text with
  | nil =>
    have : splitFirst? mark [] = none ↔ strip? mark [] = none := by
      simp [splitFirst?, splitAfter?]
    rw [this, strip?_eq_none_iff, List.prefix_nil, List.infix_nil]
  | cons c text ih =>
    rw [splitFirst?_cons, List.infix_cons_iff]
    cases h : strip? mark (c :: text) with
    | some rest =>
      have begins : mark <+: c :: text := ⟨rest, (strip?_eq_some_iff.mp h).symm⟩
      simp [begins]
    | none =>
      have := strip?_eq_none_iff.mp h
      simp [this, ih]

/-- What is passed over is no longer than what stands before any occurrence of the mark. -/
theorem length_le_of_splitFirst? {mark text before after passed rest : List α}
    (h : splitFirst? mark text = some (before, after)) (occurs : text = passed ++ mark ++ rest) :
    before.length ≤ passed.length := by
  induction text generalizing before passed with
  | nil =>
    have := append_of_splitFirst? h
    simp only [List.nil_eq, List.append_eq_nil_iff] at this
    simp [this.1.1]
  | cons c text ih =>
    rw [splitFirst?_cons] at h
    cases hstrip : strip? mark (c :: text) with
    | some after' =>
      rw [hstrip] at h
      obtain ⟨rfl, -⟩ := Prod.mk.inj (Option.some.inj h)
      exact Nat.zero_le _
    | none =>
      rw [hstrip] at h
      obtain ⟨⟨before, after⟩, hcut, heq⟩ := Option.map_eq_some_iff.mp h
      obtain ⟨rfl, rfl⟩ := Prod.mk.inj heq
      cases passed with
      | nil =>
        have : mark <+: c :: text := ⟨rest, by simpa using occurs.symm⟩
        exact absurd this (strip?_eq_none_iff.mp hstrip)
      | cons d passed =>
        simp only [List.cons_append, List.cons.injEq] at occurs
        exact Nat.succ_le_succ (ih hcut (by simpa using occurs.2))

/-- **The search finds the occurrence before which the least stands.** -/
theorem splitFirst?_eq_some_iff {mark text before after : List α} :
    splitFirst? mark text = some (before, after) ↔
      text = before ++ mark ++ after ∧
        ∀ passed rest, text = passed ++ mark ++ rest → before.length ≤ passed.length := by
  constructor
  · intro h
    exact ⟨append_of_splitFirst? h, fun _ _ occurs => length_le_of_splitFirst? h occurs⟩
  · rintro ⟨rfl, least⟩
    cases h : splitFirst? mark (before ++ mark ++ after) with
    | none => exact absurd ⟨before, after, rfl⟩ (splitFirst?_eq_none_iff.mp h)
    | some cut =>
      obtain ⟨passed, rest⟩ := cut
      have split := append_of_splitFirst? h
      have length : before.length = passed.length :=
        Nat.le_antisymm (least passed rest split) (length_le_of_splitFirst? h rfl)
      rw [List.append_assoc, List.append_assoc] at split
      obtain ⟨rfl, hrest⟩ := List.append_inj split length
      rw [List.append_cancel_left hrest]

/-- Text behind an occurrence of a mark does not change where the first one is. -/
theorem splitFirst?_append {mark text before after : List α}
    (h : splitFirst? mark text = some (before, after)) (more : List α) :
    splitFirst? mark (text ++ more) = some (before, after ++ more) := by
  obtain ⟨rfl, least⟩ := splitFirst?_eq_some_iff.mp h
  refine splitFirst?_eq_some_iff.mpr ⟨by simp, fun passed rest occurs => ?_⟩
  by_contra shorter
  -- An occurrence that begins earlier also ends earlier, so it lies within the text.
  have within : passed ++ mark <+: before ++ mark ++ after := by
    refine List.prefix_of_prefix_length_le ⟨rest, occurs.symm⟩ (List.prefix_append _ more) ?_
    simp only [List.length_append]
    omega
  obtain ⟨rest, hrest⟩ := within
  exact shorter (least passed rest hrest.symm)

/-! ### A mark that was written -/

/-- **A mark that was written is found where it was written**, unless an occurrence begins in the
text before it. -/
theorem splitFirst?_append_mark_iff {mark before : List α} (ne : mark ≠ []) (after : List α) :
    splitFirst? mark (before ++ mark ++ after) = some (before, after) ↔
      ¬ mark <:+: before ++ mark.dropLast := by
  rw [splitFirst?_eq_some_iff, ← exists_shorter_iff ne after]
  simp

/-- Where an occurrence begins in the text before a mark, less than that text is passed over. -/
theorem exists_splitFirst?_append_mark {mark before : List α} (ne : mark ≠ [])
    (early : mark <:+: before ++ mark.dropLast) (after : List α) :
    ∃ passed rest, splitFirst? mark (before ++ mark ++ after) = some (passed, rest) ∧
      passed.length < before.length := by
  obtain ⟨passed, rest, occurs, shorter⟩ := (exists_shorter_iff ne after).mpr early
  cases h : splitFirst? mark (before ++ mark ++ after) with
  | none => exact absurd ⟨before, after, rfl⟩ (splitFirst?_eq_none_iff.mp h)
  | some cut =>
    exact ⟨cut.1, cut.2, rfl, Nat.lt_of_le_of_lt (length_le_of_splitFirst? h occurs) shorter⟩

end CompilerWrapper.Text
