import CompilerWrapper.Toml.Grammar
import Mathlib.Data.List.Basic

/-!
# What a reader leaves to the next line

A reader of TOML takes what it takes whether or not a line follows: `Local` says so of a line feed and
any text behind it. A reader that passes over line ends is local only where it stops at something else
(`Solid`), and the readers of keys, strings and values all do, since they read nothing where a text is
not solid (`Refuses`).
-/

namespace CompilerWrapper.Toml

variable {α : Type} {text rest more : List Char}

/-- The reader takes nothing of what follows on the next line. -/
def Local (read : Reader α) : Prop :=
  ∀ {text rest : List Char} {x : α}, read text = some (x, rest) →
    ∀ more, read (text ++ '\n' :: more) = some (x, rest ++ '\n' :: more)

/-- A text at whose front a line feed behind it changes nothing: it is not over, and is no carriage
return that the line feed would make a line end. -/
def Solid (text : List Char) : Prop := text ≠ [] ∧ text ≠ ['\r']

/-- The reader reads nothing where a text is not solid. -/
def Refuses (read : Reader α) : Prop := read [] = none ∧ read ['\r'] = none

theorem Refuses.solid {read : Reader α} (refuses : Refuses read) {x : α × List Char}
    (taken : read text = some x) : Solid text := by
  constructor
  · rintro rfl
    rw [refuses.1] at taken
    cases taken
  · rintro rfl
    rw [refuses.2] at taken
    cases taken

theorem solid_cons {c : Char} (no_return : c ≠ '\r') (rest : List Char) : Solid (c :: rest) :=
  ⟨List.cons_ne_nil _ _, fun same => no_return (List.cons.inj same).1⟩

/-! ### Spaces, line ends and comments -/

theorem takeWhile_behind {p : Char → Bool} (stop : p '\n' = false) (text more : List Char) :
    (text ++ '\n' :: more).takeWhile p = text.takeWhile p := by
  induction text with
  | nil => simp [stop]
  | cons c text ih => simp only [List.cons_append, List.takeWhile_cons, ih]

theorem dropWhile_behind {p : Char → Bool} (stop : p '\n' = false) (text more : List Char) :
    (text ++ '\n' :: more).dropWhile p = text.dropWhile p ++ '\n' :: more := by
  induction text with
  | nil => simp [stop]
  | cons c text ih =>
    simp only [List.cons_append, List.dropWhile_cons, ih]
    cases p c <;> rfl

/-- Marks at the front of a text are there before a line follows. -/
theorem exists_of_append_eq (marks : List Char) {behind : List Char} (plain : '\n' ∉ marks)
    (same : text ++ '\n' :: more = marks ++ behind) : ∃ text', text = marks ++ text' := by
  rcases List.append_eq_append_iff.mp same with ⟨left, rfl, rest⟩ | ⟨text', rfl, -⟩
  · cases left with
    | nil => exact ⟨[], by simp⟩
    | cons c left =>
      rw [← (List.cons.inj rest).1] at plain
      exact absurd (by simp) plain
  · exact ⟨text', rfl⟩

theorem skipSpaces_behind (text more : List Char) :
    skipSpaces (text ++ '\n' :: more) = skipSpaces text ++ '\n' :: more := dropWhile_behind rfl text more

theorem lineEnd?_cons {c : Char} (no_feed : c ≠ '\n')
    (no_return : ∀ text', c = '\r' → text ≠ '\n' :: text') : lineEnd? (c :: text) = none := by
  unfold lineEnd?
  split
  next same => exact absurd (List.cons.inj same).1 no_feed
  next same => exact absurd (List.cons.inj same).2 (no_return _ (List.cons.inj same).1)
  next => rfl

/-- A character that may stand for itself begins no line end. -/
theorem lineEnd?_of_isPlain {c : Char} (plain : isPlain c = true) (text : List Char) :
    lineEnd? (c :: text) = none := by
  refine lineEnd?_cons ?_ fun _ same => ?_
  · rintro rfl
    cases plain
  · subst same
    cases plain

theorem isSpace_iff {c : Char} : isSpace c = true ↔ c = ' ' ∨ c = '\t' := by
  unfold isSpace
  rw [Bool.or_eq_true, beq_iff_eq, beq_iff_eq]

theorem isPlain_of_isSpace {c : Char} (space : isSpace c = true) : isPlain c = true := by
  obtain rfl | rfl := isSpace_iff.mp space
  · rfl
  · rfl

theorem lineEnd?_behind (solid : Solid text) (more : List Char) :
    lineEnd? (text ++ '\n' :: more) = (lineEnd? text).map (· ++ '\n' :: more) := by
  obtain ⟨c, text, rfl⟩ := List.exists_cons_of_ne_nil solid.1
  by_cases feed : c = '\n'
  · subst feed
    rfl
  by_cases carriage : c = '\r'
  · subst carriage
    cases text with
    | nil => exact absurd rfl solid.2
    | cons d text =>
      by_cases feed : d = '\n'
      · subst feed
        rfl
      · have apart : ∀ text text', '\r' = '\r' → d :: text ≠ '\n' :: text' :=
          fun _ _ _ same => feed (List.cons.inj same).1
        rw [lineEnd?_cons (by decide) (apart text), List.cons_append, List.cons_append,
          lineEnd?_cons (by decide) (apart (text ++ '\n' :: more))]
        rfl
  · rw [lineEnd?_cons feed fun _ same => absurd same carriage, List.cons_append,
      lineEnd?_cons feed fun _ same => absurd same carriage]
    rfl

theorem lineEnd?_cons_behind {c : Char} (no_end : lineEnd? (c :: text) = none)
    (solid : Solid (c :: text)) (more : List Char) :
    lineEnd? (c :: (text ++ '\n' :: more)) = none := by
  have behind := lineEnd?_behind solid more
  rwa [no_end] at behind

theorem skipGap_cons {c : Char} (no_end : lineEnd? (c :: text) = none) (comment : Bool) :
    skipGap comment (c :: text) =
      if comment then if isPlain c then skipGap true text else none
      else if isSpace c then skipGap false text
      else if c = '#' then skipGap true text
      else some (c :: text) := by
  rw [skipGap.eq_def]
  split
  next same => cases same
  next same => cases (List.cons.inj same).1; cases no_end
  next same => cases same; cases no_end
  next same => cases same; rfl

/-- The reader of gaps stops where it stopped before, and a gap at the end of a text goes on in the
next line. -/
theorem skipGap_follow {comment : Bool} (passed : skipGap comment text = some rest)
    (more : List Char) :
    (Solid rest → skipGap comment (text ++ '\n' :: more) = some (rest ++ '\n' :: more)) ∧
      (rest = [] → skipGap comment (text ++ '\n' :: more) = skipGap false more) := by
  fun_induction skipGap comment text with
  | case1 =>
    obtain rfl := Option.some.inj passed
    exact ⟨fun solid => absurd rfl solid.1, fun _ => rfl⟩
  | case2 comment text ih => exact ih passed
  | case3 comment text ih => exact ih passed
  | case4 c text _ _ plain ih =>
    rw [List.cons_append, skipGap_cons (lineEnd?_of_isPlain plain _), if_pos rfl, if_pos plain]
    exact ih passed
  | case5 => cases passed
  | case6 comment c text _ _ no_comment space ih =>
    have no_end := lineEnd?_of_isPlain (isPlain_of_isSpace space) (text ++ '\n' :: more)
    rw [List.cons_append, skipGap_cons no_end, if_neg no_comment, if_pos space]
    exact ih passed
  | case7 comment text no_comment _ _ no_space ih =>
    have no_end := lineEnd?_of_isPlain (c := '#') rfl (text ++ '\n' :: more)
    rw [List.cons_append, skipGap_cons no_end, if_neg no_comment, if_neg no_space, if_pos rfl]
    exact ih passed
  | case8 comment c text no_feed no_return no_comment no_space no_mark =>
    obtain rfl := Option.some.inj passed
    refine ⟨fun solid => ?_, fun ended => by cases ended⟩
    have apart := lineEnd?_cons_behind (lineEnd?_cons no_feed no_return) solid more
    rw [List.cons_append, skipGap_cons apart, if_neg no_comment, if_neg no_space, if_neg no_mark]

theorem skipGap_behind {comment : Bool} (passed : skipGap comment text = some rest)
    (solid : Solid rest) (more : List Char) :
    skipGap comment (text ++ '\n' :: more) = some (rest ++ '\n' :: more) :=
  (skipGap_follow passed more).1 solid

/-! ### Strings -/

theorem codePoint_eq_some_iff {digits : Nat} {c : Char} :
    codePoint digits text = some (c, rest) ↔ digits ≤ text.length ∧ ∃ values,
      (text.take digits).mapM (digit? 16) = some values ∧
        charOf? (values.foldl (· * 16 + ·) 0) = some c ∧ text.drop digits = rest := by
  unfold codePoint
  dsimp only
  rw [List.length_take]
  by_cases long : digits ≤ text.length
  · simp [Option.bind_eq_some_iff, long]
  · simp [Nat.min_eq_right (Nat.le_of_not_le long), long, Nat.lt_of_not_le long]

theorem codePoint_local (digits : Nat) : Local (codePoint digits) := by
  intro text rest c read more
  obtain ⟨long, values, read, known, rfl⟩ := codePoint_eq_some_iff.mp read
  refine codePoint_eq_some_iff.mpr ⟨by simp; omega, values, ?_, known, ?_⟩
  · rwa [List.take_append_of_le_length long]
  · rw [List.drop_append_of_le_length long]

theorem map_local {β : Type} {read : Reader α} (isLocal : Local read) (f : α → β) :
    Local fun text => (read text).map fun (x, rest) => (f x, rest) := by
  intro text rest y taken more
  obtain ⟨⟨x, rest⟩, read, same⟩ := Option.map_eq_some_iff.mp taken
  obtain ⟨rfl, rfl⟩ := Prod.mk.inj same
  dsimp only
  rw [isLocal read more]
  rfl

theorem escape_letter {mark c : Char} (known : shortEscape? mark = some c) (text : List Char) :
    escape (mark :: text) = some ([c], text) := by
  unfold escape
  split
  next same => cases (List.cons.inj same).1; cases known
  next same => cases (List.cons.inj same).1; cases known
  next same => cases (List.cons.inj same).1; cases known
  next same =>
    obtain ⟨rfl, rfl⟩ := List.cons.inj same
    rw [known]
    rfl
  next same => cases same

theorem escape_local : Local escape := by
  intro text rest piece read more
  unfold escape at read
  split at read
  next text => exact map_local (codePoint_local 2) (fun c => [c]) read more
  next text => exact map_local (codePoint_local 4) (fun c => [c]) read more
  next text => exact map_local (codePoint_local 8) (fun c => [c]) read more
  next =>
    obtain ⟨d, known, same⟩ := Option.map_eq_some_iff.mp read
    obtain ⟨rfl, rfl⟩ := Prod.mk.inj same
    exact escape_letter known _
  next => cases read

theorem skipBlankLines_cons {c : Char} (no_end : lineEnd? (c :: text) = none) :
    skipBlankLines (c :: text) = if isSpace c then skipBlankLines text else c :: text := by
  rw [skipBlankLines.eq_def]
  split
  next same => cases (List.cons.inj same).1; cases no_end
  next same => cases same; cases no_end
  next same => cases same; rfl
  next same => cases same

theorem skipBlankLines_behind (solid : Solid (skipBlankLines text)) (more : List Char) :
    skipBlankLines (text ++ '\n' :: more) = skipBlankLines text ++ '\n' :: more := by
  fun_induction skipBlankLines text with
  | case1 text ih => exact ih solid
  | case2 text ih => exact ih solid
  | case3 c text _ _ space ih =>
    have no_end := lineEnd?_of_isPlain (isPlain_of_isSpace space) (text ++ '\n' :: more)
    rw [List.cons_append, skipBlankLines_cons no_end, if_pos space]
    exact ih solid
  | case4 c text no_feed no_return no_space =>
    have apart := lineEnd?_cons_behind (lineEnd?_cons no_feed no_return) solid more
    rw [List.cons_append, skipBlankLines_cons apart, if_neg no_space]
  | case5 => exact absurd rfl solid.1

/-- An escape begins with a character that is no blank and no line end. -/
theorem skipSpaces_of_escape {piece : List Char} (read : escape text = some (piece, rest)) :
    skipSpaces text = text ∧ Solid text := by
  cases text with
  | nil => cases read
  | cons c text =>
    have no_return : c ≠ '\r' := by
      rintro rfl
      cases read
    have no_space : ¬ isSpace c = true := by
      intro space
      obtain rfl | rfl := isSpace_iff.mp space
      · cases read
      · cases read
    exact ⟨List.dropWhile_cons_of_neg no_space, solid_cons no_return text⟩

theorem escapeOrJoin_behind {piece : List Char} (read : escapeOrJoin text = some (piece, rest))
    (solid : Solid rest) (more : List Char) :
    escapeOrJoin (text ++ '\n' :: more) = some (piece, rest ++ '\n' :: more) := by
  unfold escapeOrJoin at read ⊢
  rw [skipSpaces_behind]
  -- A joined line passes over line ends, so it is local only where the string goes on.
  split at read
  next behind ends =>
    obtain ⟨rfl, rfl⟩ := Prod.mk.inj (Option.some.inj read)
    have solid' : Solid (skipSpaces text) := by
      constructor
      · intro none
        rw [none] at ends
        cases ends
      · intro one
        rw [one] at ends
        cases ends
    rw [lineEnd?_behind solid', ends]
    change some ([], skipBlankLines (behind ++ '\n' :: more)) = _
    rw [skipBlankLines_behind solid]
  next no_end =>
    obtain ⟨same, solid'⟩ := skipSpaces_of_escape read
    rw [same] at no_end ⊢
    rw [lineEnd?_behind solid', no_end]
    exact escape_local read more

theorem manyLinePiece_of_isPlain {c : Char} (plain : isPlain c = true) (text : List Char) :
    manyLinePiece (c :: text) = some ([c], text) := by
  unfold manyLinePiece
  split
  next same => cases (List.cons.inj same).1; cases plain
  next same => cases (List.cons.inj same).1; cases plain
  next same => cases same; exact if_pos plain
  next same => cases same

theorem manyLinePiece_local : Local manyLinePiece := by
  intro text rest piece read more
  unfold manyLinePiece at read
  split at read
  next => cases read; rfl
  next => cases read; rfl
  next c text _ _ =>
    split at read
    next plain => cases read; exact manyLinePiece_of_isPlain plain _
    next => cases read
  next => cases read

theorem oneLinePiece_local : Local oneLinePiece := by
  intro text rest piece read more
  cases text with
  | nil => cases read
  | cons c text =>
    unfold oneLinePiece at read
    dsimp only at read
    split at read
    next plain => cases read; exact if_pos plain
    next => cases read

theorem closeOne_behind {mark : Char} (apart : mark ≠ '\n') (text more : List Char) :
    closeOne mark (text ++ '\n' :: more) =
      (closeOne mark text).map fun (last, rest) => (last, rest ++ '\n' :: more) := by
  cases text with
  | nil => exact if_neg apart.symm
  | cons c text =>
    by_cases same : c = mark
    · subst same
      simp [closeOne]
    · simp [closeOne, same]

theorem closeMany_behind {mark : Char} (apart : mark ≠ '\n') (text more : List Char) :
    closeMany mark (text ++ '\n' :: more) =
      (closeMany mark text).map fun (last, rest) => (last, rest ++ '\n' :: more) := by
  have stop : ('\n' == mark) = false := beq_false_of_ne apart.symm
  have within : (text.takeWhile (· == mark)).length ≤ text.length :=
    (List.takeWhile_prefix _).length_le
  unfold closeMany
  rw [takeWhile_behind stop]
  split
  next => rfl
  next => rfl
  next => rfl
  next three =>
    rw [List.drop_append_of_le_length (by omega)]
    rfl
  next four =>
    rw [List.drop_append_of_le_length (by omega)]
    rfl
  next zero one two three four =>
    rw [imp_false] at zero one two three four
    rw [List.drop_append_of_le_length (by omega)]
    rfl

/-- A form of string whose pieces and ends are not changed by what follows on the next line, as long
as the string is not over before. -/
structure StringForm.IsLocal (form : StringForm) : Prop where
  piece {text rest piece : List Char} : form.piece text = some (piece, rest) → Solid rest →
    ∀ more, form.piece (text ++ '\n' :: more) = some (piece, rest ++ '\n' :: more)
  close (text more : List Char) : form.close (text ++ '\n' :: more) =
    (form.close text).map fun (last, rest) => (last, rest ++ '\n' :: more)
  piece_refuses : Refuses form.piece
  close_refuses : Refuses form.close

theorem basic_piece_of_ne {c : Char} (no_escape : c ≠ '\\') (text : List Char) :
    StringForm.basic.piece (c :: text) = oneLinePiece (c :: text) := by
  unfold StringForm.basic
  dsimp only
  split
  next same => exact absurd (List.cons.inj same).1 no_escape
  next => rfl

theorem basic_isLocal : StringForm.basic.IsLocal where
  piece := by
    intro text rest piece read _ more
    cases text with
    | nil => cases read
    | cons c text =>
      by_cases opened : c = '\\'
      · subst opened
        exact escape_local read more
      · rw [basic_piece_of_ne opened] at read
        rw [List.cons_append, basic_piece_of_ne opened]
        exact oneLinePiece_local read more
  close := closeOne_behind (by decide)
  piece_refuses := ⟨rfl, rfl⟩
  close_refuses := ⟨rfl, rfl⟩

theorem literal_isLocal : StringForm.literal.IsLocal where
  piece read _ := oneLinePiece_local read
  close := closeOne_behind (by decide)
  piece_refuses := ⟨rfl, rfl⟩
  close_refuses := ⟨rfl, rfl⟩

theorem manyLineLiteral_isLocal : StringForm.manyLineLiteral.IsLocal where
  piece read _ := manyLinePiece_local read
  close := closeMany_behind (by decide)
  piece_refuses := ⟨rfl, rfl⟩
  close_refuses := ⟨rfl, rfl⟩

namespace StringForm

variable {form : StringForm}

theorem refuses_readPieces (isLocal : form.IsLocal) (done : List Char) (fuel : Nat) :
    Refuses (form.readPieces done fuel) := by
  cases fuel with
  | zero => exact ⟨rfl, rfl⟩
  | succ fuel =>
    obtain ⟨⟨piece, piece'⟩, ⟨close, close'⟩⟩ := And.intro isLocal.piece_refuses isLocal.close_refuses
    constructor
    · rw [readPieces, close]
      dsimp only
      rw [piece]
      rfl
    · rw [readPieces, close']
      dsimp only
      rw [piece']
      rfl

theorem readPieces_behind (isLocal : form.IsLocal) {done whole : List Char} {fuel fuel' : Nat}
    (read : form.readPieces done fuel text = some (whole, rest)) (enough : fuel ≤ fuel')
    (more : List Char) :
    form.readPieces done fuel' (text ++ '\n' :: more) = some (whole, rest ++ '\n' :: more) := by
  induction fuel generalizing done text fuel' with
  | zero => cases read
  | succ fuel ih =>
    obtain ⟨fuel', rfl⟩ : ∃ n, fuel' = n + 1 := ⟨fuel' - 1, by omega⟩
    rw [readPieces] at read ⊢
    rw [isLocal.close]
    cases closed : form.close text with
    | some last =>
      rw [closed] at read
      cases read
      rfl
    | none =>
      rw [closed] at read
      obtain ⟨⟨piece, behind⟩, taken, read⟩ := Option.bind_eq_some_iff.mp read
      have solid := (refuses_readPieces isLocal _ _).solid read
      rw [Option.map_none]
      dsimp only
      rw [isLocal.piece taken solid more]
      exact ih read (by omega)

theorem read_local (isLocal : form.IsLocal) : Local form.read := by
  intro text rest whole read more
  exact readPieces_behind isLocal read (by simp) more

theorem refuses_read (isLocal : form.IsLocal) : Refuses form.read :=
  ⟨(refuses_readPieces isLocal [] _).1, (refuses_readPieces isLocal [] _).2⟩

end StringForm

theorem manyLineBasic_piece_of_ne {c : Char} (no_escape : c ≠ '\\') (text : List Char) :
    StringForm.manyLineBasic.piece (c :: text) = manyLinePiece (c :: text) := by
  unfold StringForm.manyLineBasic
  dsimp only
  split
  next same => exact absurd (List.cons.inj same).1 no_escape
  next => rfl

theorem manyLineBasic_isLocal : StringForm.manyLineBasic.IsLocal where
  piece := by
    intro text rest piece read solid more
    cases text with
    | nil => cases read
    | cons c text =>
      by_cases opened : c = '\\'
      · subst opened
        exact escapeOrJoin_behind read solid more
      · rw [manyLineBasic_piece_of_ne opened] at read
        rw [List.cons_append, manyLineBasic_piece_of_ne opened]
        exact manyLinePiece_local read more
  close := closeMany_behind (by decide)
  piece_refuses := ⟨rfl, rfl⟩
  close_refuses := ⟨rfl, rfl⟩

theorem oneLineString_local : Local oneLineString := by
  intro text rest s read more
  unfold oneLineString at read
  split at read
  next => exact StringForm.read_local basic_isLocal read more
  next => exact StringForm.read_local literal_isLocal read more
  next => cases read

/-- A string of several lines whose opening marks have been taken off. -/
theorem read_dropLineEnd_local {form : StringForm} (isLocal : form.IsLocal) :
    Local fun text => form.read (dropLineEnd text) := by
  intro text rest s read more
  have solid : Solid text := by
    constructor
    · rintro rfl
      exact ((StringForm.refuses_read isLocal).solid read).1 rfl
    · rintro rfl
      exact ((StringForm.refuses_read isLocal).solid read).2 rfl
  have same : dropLineEnd (text ++ '\n' :: more) = dropLineEnd text ++ '\n' :: more := by
    unfold dropLineEnd
    rw [lineEnd?_behind solid]
    cases lineEnd? text <;> rfl
  dsimp only
  rw [same]
  exact StringForm.read_local isLocal read more

theorem quotedString_local : Local quotedString := by
  intro text rest s read more
  unfold quotedString at read
  split at read
  next => exact read_dropLineEnd_local manyLineBasic_isLocal read more
  next => exact read_dropLineEnd_local manyLineLiteral_isLocal read more
  next text no_quotes no_apostrophes =>
    -- The line that follows adds no third mark to two at the end of the text.
    rw [quotedString]
    · exact oneLineString_local read more
    · intro behind same
      obtain ⟨text', rfl⟩ := exists_of_append_eq ['"', '"', '"'] (by decide) same
      exact no_quotes _ rfl
    · intro behind same
      obtain ⟨text', rfl⟩ := exists_of_append_eq ['\'', '\'', '\''] (by decide) same
      exact no_apostrophes _ rfl

/-! ### Keys -/

theorem keyPart_local : Local keyPart := by
  intro text rest part read more
  unfold keyPart at read ⊢
  rw [takeWhile_behind rfl, dropWhile_behind rfl]
  split at read
  next => exact map_local oneLineString_local String.ofList read more
  next => cases read; rfl

theorem keyAfter_behind {way : List String} {fuel fuel' : Nat} {key : KeyPath}
    (read : keyAfter way fuel text = some (key, rest)) (enough : fuel ≤ fuel') (more : List Char) :
    keyAfter way fuel' (text ++ '\n' :: more) = some (key, rest ++ '\n' :: more) := by
  induction fuel generalizing way text fuel' with
  | zero => cases read
  | succ fuel ih =>
    obtain ⟨fuel', rfl⟩ : ∃ n, fuel' = n + 1 := ⟨fuel' - 1, by omega⟩
    obtain ⟨⟨part, behind⟩, taken, read⟩ := Option.bind_eq_some_iff.mp read
    rw [keyAfter, keyPart_local taken more]
    rw [Option.bind_eq_bind, Option.bind_some]
    dsimp only at read ⊢
    rw [skipSpaces_behind]
    split at read
    next behind' dotted =>
      rw [dotted, List.cons_append]
      change keyAfter _ fuel' (skipSpaces (behind' ++ '\n' :: more)) = _
      rw [skipSpaces_behind]
      exact ih read (by omega)
    next undotted =>
      obtain ⟨rfl, rfl⟩ := Prod.mk.inj (Option.some.inj read)
      split
      next behind' dotted =>
        obtain ⟨text', same⟩ := exists_of_append_eq ['.'] (by decide) dotted
        exact absurd same (undotted _)
      next => rfl

theorem key_local : Local key := by
  intro text rest k read more
  exact keyAfter_behind read (by simp) more

theorem refuses_key : Refuses key := ⟨rfl, rfl⟩

/-! ### Values -/

/-- The time behind a date is cut off the same way. -/
theorem cutWord_behind (text more : List Char) :
    cutWord (text ++ '\n' :: more) = ((cutWord text).1, (cutWord text).2 ++ '\n' :: more) := by
  have stop : (!endsWord '\n') = false := by decide
  unfold cutWord
  dsimp only
  rw [takeWhile_behind stop, dropWhile_behind stop]
  generalize text.takeWhile (fun c => !endsWord c) = word
  generalize text.dropWhile (fun c => !endsWord c) = rest
  cases rest with
  | nil => rfl
  | cons c rest =>
    by_cases space : c = ' '
    · subst space
      cases rest with
      | nil => exact if_neg fun timed => absurd timed.2 (by decide)
      | cons d rest =>
        have within := (List.takeWhile_prefix (l := d :: rest) fun c => !endsWord c).length_le
        have same : List.takeWhile (fun c => !endsWord c) (d :: (rest ++ '\n' :: more)) =
            (d :: rest).takeWhile fun c => !endsWord c := takeWhile_behind stop (d :: rest) more
        have left : List.drop ((d :: rest).takeWhile fun c => !endsWord c).length
            (d :: (rest ++ '\n' :: more)) = _ := List.drop_append_of_le_length within
        by_cases timed : date? word = some [] ∧ d.isDigit = true
        · simp [timed, same, left]
        · simp [timed]
    · rw [List.cons_append]
      split
      next same => exact absurd (List.cons.inj same).1 space
      next =>
        split
        next same => exact absurd (List.cons.inj same).1 space
        next => rfl

/-- Which mark a text begins with is settled before a line follows. -/
theorem head?_behind (mark : Char) (apart : mark ≠ '\n') (text more : List Char) :
    (text ++ '\n' :: more).head? = some mark ↔ text.head? = some mark := by
  cases text with
  | nil => simp [apart.symm]
  | cons c text => rfl

theorem plainTerm_local : Local plainTerm := by
  intro text rest value read more
  have quote := head?_behind '"' (by decide) text more
  have apostrophe := head?_behind '\'' (by decide) text more
  unfold plainTerm at read ⊢
  split at read
  next quoted =>
    rw [if_pos (by rwa [quote, apostrophe])]
    exact map_local quotedString_local
      (fun s => Term.plain (.string (String.ofList s))) read more
  next bare =>
    rw [if_neg (by rwa [quote, apostrophe]), cutWord_behind]
    cases cut : cutWord text with
    | mk word behind =>
      rw [cut] at read
      obtain ⟨value, known, same⟩ := Option.map_eq_some_iff.mp read
      obtain ⟨rfl, rfl⟩ := Prod.mk.inj same
      dsimp only
      rw [known]
      rfl

theorem refuses_plainTerm : Refuses plainTerm := ⟨rfl, rfl⟩

theorem arrayItems_behind {read : Reader Term} (isLocal : Local read) (refuses : Refuses read)
    {done : List Term} {fuel fuel' : Nat} {array : Term}
    (taken : arrayItems read done fuel text = some (array, rest)) (enough : fuel ≤ fuel')
    (more : List Char) :
    arrayItems read done fuel' (text ++ '\n' :: more) = some (array, rest ++ '\n' :: more) := by
  induction fuel generalizing done text fuel' with
  | zero => cases taken
  | succ fuel ih =>
    obtain ⟨fuel', rfl⟩ : ∃ n, fuel' = n + 1 := ⟨fuel' - 1, by omega⟩
    rw [arrayItems] at taken ⊢
    obtain ⟨front, passed, taken⟩ := Option.bind_eq_some_iff.mp taken
    split at taken
    next behind =>
      obtain ⟨rfl, rfl⟩ := Prod.mk.inj (Option.some.inj taken)
      rw [skipGap_behind passed (solid_cons (by decide) _) more]
      rfl
    next open_end =>
      obtain ⟨⟨item, behind⟩, read_item, taken⟩ := Option.bind_eq_some_iff.mp taken
      obtain ⟨after, passed', taken⟩ := Option.bind_eq_some_iff.mp taken
      rw [skipGap_behind passed (refuses.solid read_item) more]
      rw [Option.bind_eq_bind, Option.bind_some]
      split
      next same =>
        obtain ⟨text', rfl⟩ := exists_of_append_eq [']'] (by decide) same
        exact absurd rfl (open_end _)
      next =>
        rw [isLocal read_item more, Option.bind_eq_bind, Option.bind_some]
        split at taken
        next =>
          dsimp only
          rw [skipGap_behind passed' (solid_cons (by decide) _) more]
          exact ih taken (by omega)
        next =>
          obtain ⟨rfl, rfl⟩ := Prod.mk.inj (Option.some.inj taken)
          dsimp only
          rw [skipGap_behind passed' (solid_cons (by decide) _) more]
          rfl
        next => cases taken

theorem bracedAssignments_behind {read : Reader Term} (isLocal : Local read)
    (refuses : Refuses read) {done : List (KeyPath × Term)} {fuel fuel' : Nat} {braces : Term}
    (taken : bracedAssignments read done fuel text = some (braces, rest)) (enough : fuel ≤ fuel')
    (more : List Char) :
    bracedAssignments read done fuel' (text ++ '\n' :: more) =
      some (braces, rest ++ '\n' :: more) := by
  induction fuel generalizing done text fuel' with
  | zero => cases taken
  | succ fuel ih =>
    obtain ⟨fuel', rfl⟩ : ∃ n, fuel' = n + 1 := ⟨fuel' - 1, by omega⟩
    rw [bracedAssignments] at taken ⊢
    obtain ⟨front, passed, taken⟩ := Option.bind_eq_some_iff.mp taken
    split at taken
    next =>
      obtain ⟨rfl, rfl⟩ := Prod.mk.inj (Option.some.inj taken)
      rw [skipGap_behind passed (solid_cons (by decide) _) more]
      rfl
    next open_end =>
      obtain ⟨⟨name, behind⟩, read_name, taken⟩ := Option.bind_eq_some_iff.mp taken
      obtain ⟨after, passed_name, taken⟩ := Option.bind_eq_some_iff.mp taken
      rw [skipGap_behind passed (refuses_key.solid read_name) more, Option.bind_eq_bind,
        Option.bind_some]
      split
      next same =>
        obtain ⟨text', rfl⟩ := exists_of_append_eq ['\x7d'] (by decide) same
        exact absurd rfl (open_end _)
      next =>
        rw [key_local read_name more, Option.bind_eq_bind, Option.bind_some]
        split at taken
        next =>
          obtain ⟨value, passed_mark, taken⟩ := Option.bind_eq_some_iff.mp taken
          obtain ⟨⟨item, behind⟩, read_item, taken⟩ := Option.bind_eq_some_iff.mp taken
          obtain ⟨after, passed_item, taken⟩ := Option.bind_eq_some_iff.mp taken
          dsimp only
          rw [skipGap_behind passed_name (solid_cons (by decide) _) more]
          change (skipGap false (_ ++ '\n' :: more)).bind _ = _
          rw [skipGap_behind passed_mark (refuses.solid read_item) more]
          change (read (_ ++ '\n' :: more)).bind _ = _
          rw [isLocal read_item more]
          change (skipGap false (_ ++ '\n' :: more)).bind _ = _
          split at taken
          next =>
            rw [skipGap_behind passed_item (solid_cons (by decide) _) more]
            exact ih taken (by omega)
          next =>
            obtain ⟨rfl, rfl⟩ := Prod.mk.inj (Option.some.inj taken)
            rw [skipGap_behind passed_item (solid_cons (by decide) _) more]
            rfl
          next => cases taken
        next => cases taken

theorem refuses_term (depth : Nat) : Refuses (term depth) := by
  cases depth <;> exact refuses_plainTerm

theorem term_local (depth : Nat) : Local (term depth) := by
  induction depth with
  | zero =>
    intro text rest value read more
    have bracket := head?_behind '[' (by decide) text more
    have brace := head?_behind '\x7b' (by decide) text more
    unfold term at read ⊢
    split at read
    next => cases read
    next plain =>
      rw [if_neg (by rwa [bracket, brace])]
      exact plainTerm_local read more
  | succ depth ih =>
    intro text rest value read more
    unfold term at read
    split at read
    next => exact arrayItems_behind ih (refuses_term depth) read (by simp) more
    next => exact bracedAssignments_behind ih (refuses_term depth) read (by simp) more
    next text no_bracket no_brace =>
      rw [term]
      · exact plainTerm_local read more
      · intro behind same
        obtain ⟨text', rfl⟩ := exists_of_append_eq ['['] (by decide) same
        exact no_bracket _ rfl
      · intro behind same
        obtain ⟨text', rfl⟩ := exists_of_append_eq ['\x7b'] (by decide) same
        exact no_brace _ rfl

end CompilerWrapper.Toml
