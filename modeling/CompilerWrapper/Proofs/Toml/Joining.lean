import CompilerWrapper.Proofs.Toml.Local

/-!
# Documents one below the other

A text that is read as statements on its own is read as the same statements when others follow on the
next line, and these are read as they would be alone (`reads_append`).
-/

namespace CompilerWrapper.Toml

variable {text rest more : List Char}

/-! ### Statements -/

theorem header_local (many : Bool) : Local (header many) := by
  intro text rest s read more
  obtain ⟨⟨name, behind⟩, read_name, taken⟩ := Option.bind_eq_some_iff.mp read
  dsimp only at taken
  unfold header
  rw [skipSpaces_behind, key_local read_name more]
  split at taken
  next =>
    cases taken
    rfl
  next =>
    cases taken
    rfl
  next => cases taken

theorem assignment_local : Local assignment := by
  intro text rest s read more
  obtain ⟨⟨name, behind⟩, read_name, taken⟩ := Option.bind_eq_some_iff.mp read
  dsimp only at taken
  unfold assignment
  rw [key_local read_name more]
  split at taken
  next =>
    obtain ⟨⟨value, after⟩, read_value, taken⟩ := Option.bind_eq_some_iff.mp taken
    cases taken
    change (term depthLimit (skipSpaces (_ ++ '\n' :: more))).bind _ = _
    rw [skipSpaces_behind, term_local _ read_value more]
    rfl
  next => cases taken

theorem refuses_statement : Refuses statement := ⟨rfl, rfl⟩

theorem statement_local : Local statement := by
  intro text rest s read more
  unfold statement at read
  split at read
  next => exact header_local true read more
  next text no_two =>
    rw [List.cons_append, statement]
    · exact header_local false read more
    · intro behind same
      obtain ⟨text', rfl⟩ := exists_of_append_eq ['['] (by decide) same
      exact no_two _ rfl
  next text no_two no_one =>
    rw [statement]
    · exact assignment_local read more
    · intro behind same
      obtain ⟨text', rfl⟩ := exists_of_append_eq ['[', '['] (by decide) same
      exact no_two _ rfl
    · intro behind same
      obtain ⟨text', rfl⟩ := exists_of_append_eq ['['] (by decide) same
      exact no_one _ rfl

theorem finishLine_cons {c : Char} (no_end : lineEnd? (c :: text) = none) (comment : Bool) :
    finishLine comment (c :: text) =
      if comment then if isPlain c then finishLine true text else none
      else if isSpace c then finishLine false text
      else if c = '#' then finishLine true text
      else none := by
  rw [finishLine.eq_def]
  split
  next same => cases same
  next same => cases (List.cons.inj same).1; cases no_end
  next same => cases same; cases no_end
  next same => cases same; rfl

/-- A line ends where it ended before, or with the text. -/
theorem finishLine_behind {comment : Bool} (passed : finishLine comment text = some rest)
    (more : List Char) :
    finishLine comment (text ++ '\n' :: more) = some (rest ++ '\n' :: more) ∨
      rest = [] ∧ finishLine comment (text ++ '\n' :: more) = some more := by
  fun_induction finishLine comment text with
  | case1 => exact Or.inr ⟨(Option.some.inj passed).symm, rfl⟩
  | case2 => cases passed; exact Or.inl rfl
  | case3 => cases passed; exact Or.inl rfl
  | case4 c text _ _ plain ih =>
    rw [List.cons_append, finishLine_cons (lineEnd?_of_isPlain plain _), if_pos rfl, if_pos plain]
    exact ih passed
  | case5 => cases passed
  | case6 comment c text _ _ no_comment space ih =>
    have no_end := lineEnd?_of_isPlain (isPlain_of_isSpace space) (text ++ '\n' :: more)
    rw [List.cons_append, finishLine_cons no_end, if_neg no_comment, if_pos space]
    exact ih passed
  | case7 comment text no_comment _ _ no_space ih =>
    have no_end := lineEnd?_of_isPlain (c := '#') rfl (text ++ '\n' :: more)
    rw [List.cons_append, finishLine_cons no_end, if_neg no_comment, if_neg no_space, if_pos rfl]
    exact ih passed
  | case8 => cases passed

variable {done statements others : List Statement} {fuel : Nat}

/-- What one step of the reading of statements can do. -/
theorem statementsAfter_succ_iff :
    statementsAfter done (fuel + 1) text = some statements ↔
      (skipGap false text = some [] ∧ statements = done.reverse) ∨
      ∃ front s behind rest, skipGap false text = some front ∧ statement front = some (s, behind) ∧
        finishLine false behind = some rest ∧
          statementsAfter (s :: done) fuel rest = some statements := by
  rw [statementsAfter]
  constructor
  · intro read
    obtain ⟨front, passed, read⟩ := Option.bind_eq_some_iff.mp read
    split at read
    next => exact Or.inl ⟨passed, (Option.some.inj read).symm⟩
    next =>
      obtain ⟨⟨s, behind⟩, stated, read⟩ := Option.bind_eq_some_iff.mp read
      obtain ⟨rest, finished, read⟩ := Option.bind_eq_some_iff.mp read
      exact Or.inr ⟨front, s, behind, rest, passed, stated, finished, read⟩
  · rintro (⟨ended, rfl⟩ | ⟨front, s, behind, rest, passed, stated, finished, read⟩)
    · rw [ended]
      rfl
    · obtain ⟨c, front, rfl⟩ := List.exists_cons_of_ne_nil (refuses_statement.solid stated).1
      rw [passed]
      change (statement (c :: front)).bind _ = _
      rw [stated]
      change (finishLine false behind).bind _ = _
      rw [finished]
      exact read

theorem statementsAfter_congr {other : List Char} (same : skipGap false text = skipGap false other)
    (done : List Statement) (fuel : Nat) :
    statementsAfter done fuel text = statementsAfter done fuel other := by
  cases fuel with
  | zero => rfl
  | succ fuel => rw [statementsAfter, statementsAfter, same]

/-- Neither what was read before nor more fuel changes which statements are read. -/
theorem exists_of_statementsAfter (read : statementsAfter done fuel text = some statements) :
    ∃ new, statements = done.reverse ++ new ∧ ∀ done' fuel', fuel ≤ fuel' →
      statementsAfter done' fuel' text = some (done'.reverse ++ new) := by
  induction fuel generalizing done text with
  | zero => cases read
  | succ fuel ih =>
    rcases statementsAfter_succ_iff.mp read with
      ⟨ended, rfl⟩ | ⟨front, s, behind, rest, passed, stated, finished, read⟩
    · refine ⟨[], (List.append_nil _).symm, fun done' fuel' enough => ?_⟩
      obtain ⟨fuel', rfl⟩ : ∃ n, fuel' = n + 1 := ⟨fuel' - 1, by omega⟩
      exact statementsAfter_succ_iff.mpr (Or.inl ⟨ended, List.append_nil _⟩)
    · obtain ⟨new, rfl, again⟩ := ih read
      refine ⟨s :: new, by simp, fun done' fuel' enough => ?_⟩
      obtain ⟨fuel', rfl⟩ : ∃ n, fuel' = n + 1 := ⟨fuel' - 1, by omega⟩
      refine statementsAfter_succ_iff.mpr (Or.inr ⟨front, s, behind, rest, passed, stated, finished, ?_⟩)
      rw [again (s :: done') fuel' (by omega)]
      simp

theorem statementsAfter_append {fuel' : Nat}
    (read : statementsAfter done fuel text = some statements)
    (follow : statementsAfter [] fuel' more = some others) :
    statementsAfter done (fuel + fuel') (text ++ '\n' :: more) = some (statements ++ others) := by
  obtain ⟨new, rfl, again⟩ := exists_of_statementsAfter follow
  -- The fuel of the first text is spent on its statements, and the last unit of it on its end.
  induction fuel generalizing done text with
  | zero => cases read
  | succ fuel ih =>
    rcases statementsAfter_succ_iff.mp read with
      ⟨ended, rfl⟩ | ⟨front, s, behind, rest, passed, stated, finished, read⟩
    · rw [statementsAfter_congr ((skipGap_follow ended more).2 rfl)]
      exact again done _ (by omega)
    · rw [Nat.succ_add]
      refine statementsAfter_succ_iff.mpr
        (Or.inr ⟨front ++ '\n' :: more, s, behind ++ '\n' :: more, ?_⟩)
      have solid := refuses_statement.solid stated
      rcases finishLine_behind finished more with finished' | ⟨rfl, finished'⟩
      · exact ⟨_, skipGap_behind passed solid more, statement_local stated more, finished',
          ih read⟩
      · refine ⟨_, skipGap_behind passed solid more, statement_local stated more, finished', ?_⟩
        obtain ⟨fuel, rfl⟩ : ∃ n, fuel = n + 1 := by
          cases fuel with
          | zero => cases read
          | succ fuel => exact ⟨fuel, rfl⟩
        obtain rfl : (s :: done).reverse = statements := Option.some.inj read
        exact again (s :: done) _ (by omega)

/-- The text is read as the statements, with nothing left. -/
def Reads (text : List Char) (statements : List Statement) : Prop :=
  statementsAfter [] (text.length + 1) text = some statements

/-- **What two texts are read as, they are read as one below the other.** -/
theorem reads_append (read : Reads text statements) (follow : Reads more others) :
    Reads (text ++ '\n' :: more) (statements ++ others) := by
  unfold Reads at read follow ⊢
  rw [← statementsAfter_append read follow, List.length_append, List.length_cons, Nat.add_right_comm]

/-- A document without a byte order mark is read as its statements. -/
theorem statements?_of_reads (read : Reads text statements) :
    statements? text = some statements := by
  unfold statements?
  split
  next text =>
    rcases statementsAfter_succ_iff.mp read with
      ⟨ended, -⟩ | ⟨front, s, behind, rest, passed, stated, -⟩
    · cases ended
    · cases passed
      cases stated
  next => exact read

end CompilerWrapper.Toml
