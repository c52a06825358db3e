import CompilerWrapper.Text.Blank
import Mathlib.Data.List.Basic

/-!
# Where a line stands in its text

`IsLine before line text` says that a line stands in a text behind `before`, without the reading of
lines: it begins where the text begins or behind a line feed, holds no line feed, and ends at one or
with the text. Of the line feed's ending one carriage return is no part of the line.

The first line that holds more than white space is then the only one with white space alone before
it (`firstWritten?_eq_some_iff`), and it is missing only from a text that is all white space
(`firstWritten?_eq_none_iff`).
-/

namespace CompilerWrapper.Text

variable {text before line raw rest : List Char}

/-- How a line ends, and what stands in the text after its ending. A line feed may have a carriage
return in front, which then is the last of its line; a line that is not the last has to end. -/
inductive Ends (line : List Char) : List Char → Prop where
  | lineFeed (rest : List Char) : line.getLast? ≠ some '\r' → Ends line ('\n' :: rest)
  | carriageReturn (rest : List Char) : Ends line ('\r' :: '\n' :: rest)
  | text : line ≠ [] → Ends line []

/-- The line stands in the text behind `before`. -/
structure IsLine (before line text : List Char) : Prop where
  begins : before = [] ∨ before.getLast? = some '\n'
  plain : '\n' ∉ line
  ends : ∃ behind, Ends line behind ∧ text = before ++ line ++ behind

/-! ### One line after the other -/

/-- What stands before a line feed, without a carriage return at its end. -/
theorem endLine_cases (raw : List Char) :
    (∃ front, raw = front ++ ['\r'] ∧ endLine raw.reverse = front) ∨
      (raw.getLast? ≠ some '\r' ∧ endLine raw.reverse = raw) := by
  rcases List.eq_nil_or_concat raw with rfl | ⟨front, c, rfl⟩
  · exact Or.inr ⟨by simp, rfl⟩
  · rw [List.concat_eq_append, List.reverse_append]
    by_cases carriage : c = '\r'
    · subst carriage
      exact Or.inl ⟨front, rfl, List.reverse_reverse front⟩
    · refine Or.inr ⟨by simp [carriage], ?_⟩
      rw [List.reverse_singleton, List.singleton_append, endLine.eq_def]
      split
      next same => exact absurd (List.cons.inj same).1 carriage
      next => simp

theorem linesAfter_append (begun : List Char) (plain : '\n' ∉ raw) (rest : List Char) :
    linesAfter begun (raw ++ '\n' :: rest) = endLine (raw.reverse ++ begun) :: lines rest := by
  induction raw generalizing begun with
  | nil => rfl
  | cons c raw ih =>
    obtain ⟨ne, plain⟩ : '\n' ≠ c ∧ '\n' ∉ raw := by simpa using plain
    rw [List.cons_append, linesAfter.eq_def]
    split
    next same => cases same
    next same => exact absurd (List.cons.inj same).1.symm ne
    next same =>
      obtain ⟨rfl, rfl⟩ := List.cons.inj same
      rw [ih (c :: begun) plain]
      simp

theorem linesAfter_of_no_lineFeed (begun : List Char) (plain : '\n' ∉ raw) :
    linesAfter begun raw =
      if begun.reverse ++ raw = [] then [] else [begun.reverse ++ raw] := by
  induction raw generalizing begun with
  | nil => cases begun <;> simp [linesAfter]
  | cons c raw ih =>
    obtain ⟨ne, plain⟩ : '\n' ≠ c ∧ '\n' ∉ raw := by simpa using plain
    rw [linesAfter.eq_def]
    split
    next same => cases same
    next same => exact absurd (List.cons.inj same).1.symm ne
    next same =>
      obtain ⟨rfl, rfl⟩ := List.cons.inj same
      rw [ih (c :: begun) plain]
      simp

/-- A text is a line without a line feed, or a line and a text behind a line feed. -/
theorem cases_of_lineFeed (text : List Char) :
    '\n' ∉ text ∨ ∃ raw rest, text = raw ++ '\n' :: rest ∧ '\n' ∉ raw := by
  by_cases feed : '\n' ∈ text
  · obtain ⟨raw, rest, whole, plain⟩ := List.eq_append_cons_of_mem feed
    exact Or.inr ⟨raw, rest, whole, plain⟩
  · exact Or.inl feed

/-! ### Lines that are written on -/

theorem isWritten_eq_false_iff : isWritten text = false ↔ ∀ c ∈ text, isBlank c = true := by
  simp [isWritten]

theorem isWritten_append (text more : List Char) :
    isWritten (text ++ more) = (isWritten text || isWritten more) := List.any_append

theorem isWritten_endLine (raw : List Char) : isWritten (endLine raw.reverse) = isWritten raw := by
  rcases endLine_cases raw with ⟨front, rfl, same⟩ | ⟨-, same⟩
  · rw [same, isWritten_append, show isWritten ['\r'] = false from by decide, Bool.or_false]
  · rw [same]

theorem firstWritten?_append (plain : '\n' ∉ raw) (rest : List Char) :
    firstWritten? (raw ++ '\n' :: rest) =
      if isWritten raw then some (endLine raw.reverse) else firstWritten? rest := by
  unfold firstWritten? lines
  rw [linesAfter_append [] plain rest, List.append_nil, List.find?_cons, isWritten_endLine]
  cases isWritten raw <;> rfl

theorem firstWritten?_of_no_lineFeed (plain : '\n' ∉ raw) :
    firstWritten? raw = if isWritten raw then some raw else none := by
  unfold firstWritten? lines
  rw [linesAfter_of_no_lineFeed [] plain, List.reverse_nil, List.nil_append]
  by_cases empty : raw = []
  · subst empty
    rfl
  · rw [if_neg empty, List.find?_cons]
    cases isWritten raw <;> rfl

/-- **No line is written on exactly if the text is all white space.** -/
theorem firstWritten?_eq_none_iff (text : List Char) :
    firstWritten? text = none ↔ ∀ c ∈ text, isBlank c = true := by
  induction h : text.length using Nat.strongRecOn generalizing text with
  | ind n ih =>
    rw [← isWritten_eq_false_iff]
    rcases cases_of_lineFeed text with plain | ⟨raw, rest, rfl, plain⟩
    · rw [firstWritten?_of_no_lineFeed plain]
      cases isWritten text <;> simp
    · have shorter : rest.length < n := by
        rw [← h]
        simp
        omega
      rw [firstWritten?_append plain, isWritten_append]
      cases isWritten raw with
      | true => simp
      | false =>
        rw [if_neg Bool.false_ne_true, ih _ shorter rest rfl, ← isWritten_eq_false_iff]
        rfl

theorem endLine_of_ends {behind : List Char} (ends : Ends line behind) :
    behind = [] ∨ ∃ raw rest, line ++ behind = raw ++ '\n' :: rest ∧
      endLine raw.reverse = line ∧ ('\n' ∉ line → '\n' ∉ raw) := by
  cases ends with
  | lineFeed rest no_return =>
    refine Or.inr ⟨line, rest, rfl, ?_, id⟩
    rcases endLine_cases line with ⟨front, rfl, -⟩ | ⟨-, same⟩
    · exact absurd (by simp) no_return
    · exact same
  | carriageReturn rest =>
    refine Or.inr ⟨line ++ ['\r'], rest, by simp, ?_, by simp⟩
    rw [List.reverse_append]
    exact List.reverse_reverse line
  | text => exact Or.inl rfl

theorem ends_endLine (raw rest : List Char) :
    ∃ behind, Ends (endLine raw.reverse) behind ∧
      raw ++ '\n' :: rest = endLine raw.reverse ++ behind := by
  rcases endLine_cases raw with ⟨front, whole, same⟩ | ⟨no_return, same⟩
  · refine ⟨'\r' :: '\n' :: rest, .carriageReturn rest, ?_⟩
    rw [same, whole, List.append_assoc]
    rfl
  · rw [same]
    exact ⟨_, .lineFeed rest no_return, rfl⟩

/-- A line that is written on, with white space alone before it, is the first one. -/
theorem firstWritten?_of_isLine (isLine : IsLine before line text)
    (blank : isWritten before = false) (written : isWritten line = true) :
    firstWritten? text = some line := by
  obtain ⟨begins, plain, behind, ends, rfl⟩ := isLine
  induction h : before.length using Nat.strongRecOn generalizing before with
  | ind n ih =>
    rcases cases_of_lineFeed before with no_feed | ⟨raw, before, rfl, no_feed⟩
    · have empty : before = [] := by
        rcases begins with empty | feed
        · exact empty
        · exact absurd (List.mem_of_getLast? feed) no_feed
      subst empty
      rcases endLine_of_ends ends with rfl | ⟨raw, rest, whole, same, plain'⟩
      · rw [List.nil_append, List.append_nil, firstWritten?_of_no_lineFeed plain, if_pos written]
      · rw [← same, isWritten_endLine] at written
        rw [List.nil_append, whole, firstWritten?_append (plain' plain), if_pos written, same]
    · have shorter : before.length < n := by
        rw [← h]
        simp
        omega
      have begins : before = [] ∨ before.getLast? = some '\n' := by
        refine or_iff_not_imp_left.mpr fun ne => ?_
        rcases begins with none | last
        · simp at none
        · rw [List.getLast?_append, List.getLast?_cons_of_ne_nil ne] at last
          rwa [List.getLast?_eq_some_getLast ne, Option.some_or,
            ← List.getLast?_eq_some_getLast ne] at last
      rw [isWritten_append, Bool.or_eq_false_iff] at blank
      have blank_rest : isWritten before = false := blank.2
      rw [List.append_assoc, List.append_assoc, List.cons_append, firstWritten?_append no_feed,
        blank.1, if_neg Bool.false_ne_true, ← List.append_assoc]
      exact ih _ shorter blank_rest begins rfl

/-- The first line that is written on has white space alone before it. -/
theorem isLine_of_firstWritten? (first : firstWritten? text = some line) :
    isWritten line = true ∧ ∃ before, IsLine before line text ∧ isWritten before = false := by
  induction h : text.length using Nat.strongRecOn generalizing text with
  | ind n ih =>
    rcases cases_of_lineFeed text with plain | ⟨raw, rest, rfl, plain⟩
    · rw [firstWritten?_of_no_lineFeed plain] at first
      split at first
      next written =>
        obtain rfl := Option.some.inj first
        have ne : text ≠ [] := by
          rintro rfl
          cases written
        exact ⟨written, [], ⟨Or.inl rfl, plain, [], .text ne, by simp⟩, rfl⟩
      next => cases first
    · rw [firstWritten?_append plain] at first
      split at first
      next written =>
        obtain rfl := Option.some.inj first
        obtain ⟨behind, ends, whole⟩ := ends_endLine raw rest
        refine ⟨(isWritten_endLine raw).trans written, [], ⟨Or.inl rfl, ?_, behind, ends, whole⟩, rfl⟩
        rcases endLine_cases raw with ⟨front, rfl, same⟩ | ⟨-, same⟩
        · rw [same]
          exact fun mem => plain (List.mem_append_left _ mem)
        · rwa [same]
      next not_written =>
        have shorter : rest.length < n := by
          rw [← h]
          simp
          omega
        obtain ⟨written, before, ⟨begins, plain', behind, ends, whole⟩, blank⟩ := ih _ shorter first rfl
        refine ⟨written, raw ++ '\n' :: before, ⟨Or.inr ?_, plain', behind, ends, ?_⟩, ?_⟩
        · rw [List.getLast?_append, List.getLast?_cons]
          rcases begins with rfl | last
          · rfl
          · rw [last]
            rfl
        · rw [whole]
          simp
        · rw [isWritten_append, Bool.eq_false_iff.mpr not_written, Bool.false_or]
          exact blank

/-- **The first line that is written on is the line that is written on and has white space alone
before it.** -/
theorem firstWritten?_eq_some_iff (text line : List Char) :
    firstWritten? text = some line ↔
      isWritten line = true ∧ ∃ before, IsLine before line text ∧ ∀ c ∈ before, isBlank c = true := by
  simp only [← isWritten_eq_false_iff]
  constructor
  · exact isLine_of_firstWritten?
  · rintro ⟨written, before, isLine, blank⟩
    exact firstWritten?_of_isLine isLine blank written

end CompilerWrapper.Text
