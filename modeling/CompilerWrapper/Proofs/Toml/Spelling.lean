import CompilerWrapper.Proofs.Toml.Joining

/-!
# How an array of strings is written

`Spells` says which texts stand for a character in a basic string: the character itself, where it
needs no escape, and the escapes for it. `Quotes` and `Items` go on to whole strings and to arrays of
them, with any spaces, line ends and comments between the items.

The reader of documents gives the strings back, whatever the spelling (`read_of_body`,
`term_of_items`, `reads_line`). Every list of strings can be written: `lineText` does it.
-/

namespace CompilerWrapper.Toml

/-! ### Characters and strings -/

/-- The numbered escapes: the letter, and how many digits the number has. -/
def numbered : List (Char × Nat) := [('x', 2), ('u', 4), ('U', 8)]

/-- A text that stands for a character in a basic string. -/
inductive Spells (c : Char) : List Char → Prop where
  | itself : isPlain c = true → c ≠ '"' → c ≠ '\\' → Spells c [c]
  | letter {mark : Char} : shortEscape? mark = some c → Spells c ['\\', mark]
  | number {mark : Char} {digits : List Char} {values : List Nat} :
      (mark, digits.length) ∈ numbered → digits.mapM (digit? 16) = some values →
        values.foldl (· * 16 + ·) 0 = c.toNat → Spells c ('\\' :: mark :: digits)

/-- What stands between the quotation marks of a basic string. -/
inductive Body : List Char → List Char → Prop where
  | nil : Body [] []
  | cons {c : Char} {piece text body : List Char} :
      Spells c piece → Body text body → Body (c :: text) (piece ++ body)

/-- A basic string with its quotation marks. -/
inductive Quotes (s : String) : List Char → Prop where
  | intro (body : List Char) : Body s.toList body → Quotes s ('"' :: (body ++ ['"']))

theorem codePoint_append {digits : List Char} {values : List Nat} {c : Char}
    (read : digits.mapM (digit? 16) = some values) (number : values.foldl (· * 16 + ·) 0 = c.toNat)
    (rest : List Char) : codePoint digits.length (digits ++ rest) = some (c, rest) := by
  have known : charOf? c.toNat = some c := by
    unfold charOf?
    rw [if_pos (show c.toNat.isValidChar from c.valid), Char.ofNat_toNat]
  refine codePoint_eq_some_iff.mpr ⟨by simp, values, ?_, by rw [number, known], List.drop_left⟩
  rw [List.take_left, read]

theorem escape_number {mark : Char} {n : Nat} (known : (mark, n) ∈ numbered) (text : List Char) :
    escape (mark :: text) = (codePoint n text).map fun (c, rest) => ([c], rest) := by
  simp only [numbered, List.mem_cons, Prod.mk.injEq, List.not_mem_nil, or_false] at known
  obtain ⟨rfl, rfl⟩ | ⟨rfl, rfl⟩ | ⟨rfl, rfl⟩ := known <;> rfl

/-- The piece that stands for a character is read as that character, and it does not close the
string. -/
theorem piece_of_spells {c : Char} {piece : List Char} (spells : Spells c piece)
    (rest : List Char) : StringForm.basic.close (piece ++ rest) = none ∧
      StringForm.basic.piece (piece ++ rest) = some ([c], rest) := by
  cases spells with
  | itself plain no_quote no_escape =>
    refine ⟨if_neg no_quote, ?_⟩
    exact (basic_piece_of_ne no_escape rest).trans (if_pos plain)
  | letter known => exact ⟨rfl, escape_letter known rest⟩
  | number known read number =>
    refine ⟨rfl, ?_⟩
    change escape (_ :: _ ++ rest) = _
    rw [List.cons_append, escape_number known, codePoint_append read number]
    rfl

theorem readPieces_of_body {text body : List Char} (spelled : Body text body) (rest : List Char) :
    ∀ done fuel, text.length < fuel →
      StringForm.basic.readPieces done fuel (body ++ '"' :: rest) =
        some (done.reverse ++ text, rest) := by
  induction spelled with
  | nil =>
    intro done fuel enough
    obtain ⟨fuel, rfl⟩ := Nat.exists_eq_succ_of_ne_zero (Nat.ne_of_gt enough)
    rfl
  | @cons c piece text body spells _ ih =>
    intro done fuel enough
    obtain ⟨fuel, rfl⟩ := Nat.exists_eq_succ_of_ne_zero (Nat.ne_zero_of_lt enough)
    obtain ⟨opened, read⟩ := piece_of_spells spells (body ++ '"' :: rest)
    unfold StringForm.readPieces
    rw [List.append_assoc, opened]
    dsimp only
    rw [read]
    change StringForm.basic.readPieces (c :: done) fuel _ = _
    rw [ih (c :: done) fuel (Nat.lt_of_succ_lt_succ enough)]
    simp

theorem Spells.length_pos {c : Char} {piece : List Char} (spells : Spells c piece) :
    0 < piece.length := by
  cases spells <;> exact Nat.succ_pos _

theorem Body.length_le {text body : List Char} (spelled : Body text body) :
    text.length ≤ body.length := by
  induction spelled with
  | nil => exact Nat.le_refl 0
  | cons spells _ ih =>
    have one := spells.length_pos
    rw [List.length_append, List.length_cons]
    omega

/-- **A basic string is read as what it spells.** -/
theorem read_of_body {text body : List Char} (spelled : Body text body) (rest : List Char) :
    StringForm.basic.read (body ++ '"' :: rest) = some (text, rest) := by
  have enough := spelled.length_le
  unfold StringForm.read
  rw [readPieces_of_body spelled rest [] _ (by simp; omega)]
  rfl

/-- A body does not begin with a quotation mark. -/
theorem Body.head?_ne {text body : List Char} (spelled : Body text body) :
    body.head? ≠ some '"' := by
  cases spelled with
  | nil => exact (nomatch ·)
  | cons spells _ =>
    cases spells with
    | itself _ no_quote => exact fun same => no_quote (Option.some.inj same)
    | letter => exact fun same => absurd (Option.some.inj same) (by decide)
    | number => exact fun same => absurd (Option.some.inj same) (by decide)

/-- A string is read as such, unless a quotation mark behind it makes it a string of several
lines. -/
theorem plainTerm_of_quotes {s : String} {word : List Char} (quotes : Quotes s word)
    {rest : List Char} (apart : rest.head? ≠ some '"') :
    plainTerm (word ++ rest) = some (.plain (.string s), rest) := by
  obtain ⟨body, spelled⟩ := quotes
  have read : quotedString ('"' :: (body ++ '"' :: rest)) = some (s.toList, rest) := by
    rw [← read_of_body spelled rest]
    unfold quotedString
    split
    next same =>
      have behind := (List.cons.inj same).2
      cases body with
      | nil =>
        rw [List.nil_append] at behind
        rw [(List.cons.inj behind).2] at apart
        exact absurd rfl apart
      | cons c body => exact absurd (congrArg some (List.cons.inj behind).1) spelled.head?_ne
    next same => cases (List.cons.inj same).1
    next => rfl
  have opened : ('"' :: (body ++ '"' :: rest)).head? = some '"' := rfl
  unfold plainTerm
  rw [List.cons_append, List.append_assoc, List.singleton_append, if_pos (Or.inl opened), read,
    Option.map_some]
  dsimp only
  rw [String.ofList_toList]

/-! ### Arrays -/

/-- A line feed, with or without a carriage return. -/
def IsLineEnd (text : List Char) : Prop := text = ['\n'] ∨ text = ['\r', '\n']

/-- What may stand around the items of an array: spaces, line ends and comments. -/
inductive IsGap : List Char → Prop where
  | nil : IsGap []
  | space {c : Char} {gap : List Char} : isSpace c = true → IsGap gap → IsGap (c :: gap)
  | lineEnd {ending gap : List Char} : IsLineEnd ending → IsGap gap → IsGap (ending ++ gap)
  | comment {words ending gap : List Char} : (∀ c ∈ words, isPlain c = true) →
      IsLineEnd ending → IsGap gap → IsGap ('#' :: words ++ ending ++ gap)

/-- Strings as the items of an array, up to its closing bracket. A comma may stand behind the last
one. -/
inductive Items : List String → List Char → Prop where
  | none {gap : List Char} : IsGap gap → Items [] (gap ++ [']'])
  | last {s : String} {gap word behind : List Char} : IsGap gap → Quotes s word → IsGap behind →
      Items [s] (gap ++ word ++ behind ++ [']'])
  | more {s : String} {gap word behind text : List Char} {items : List String} : IsGap gap →
      Quotes s word → IsGap behind → Items items text →
        Items (s :: items) (gap ++ word ++ behind ++ ',' :: text)

theorem skipGap_of_isLineEnd {ending : List Char} (isEnd : IsLineEnd ending) (comment : Bool)
    (rest : List Char) : skipGap comment (ending ++ rest) = skipGap false rest := by
  obtain rfl | rfl := isEnd <;> rfl

theorem skipGap_comment {words ending : List Char} (plain : ∀ c ∈ words, isPlain c = true)
    (isEnd : IsLineEnd ending) (rest : List Char) :
    skipGap true (words ++ ending ++ rest) = skipGap false rest := by
  induction words with
  | nil => exact skipGap_of_isLineEnd isEnd true rest
  | cons c words ih =>
    obtain ⟨first, plain⟩ := List.forall_mem_cons.mp plain
    rw [List.cons_append, List.cons_append, skipGap_cons (lineEnd?_of_isPlain first _), if_pos rfl,
      if_pos first]
    exact ih plain

/-- What may stand around the items is passed over. -/
theorem skipGap_append {gap : List Char} (isGap : IsGap gap) (rest : List Char) :
    skipGap false (gap ++ rest) = skipGap false rest := by
  induction isGap with
  | nil => rfl
  | @space c gap space _ ih =>
    rw [← ih]
    obtain rfl | rfl := isSpace_iff.mp space
    · rfl
    · rfl
  | lineEnd isEnd _ ih => rw [List.append_assoc, skipGap_of_isLineEnd isEnd, ih]
  | @comment words ending gap plain isEnd _ ih =>
    rw [← ih, List.append_assoc, ← skipGap_comment plain isEnd (gap ++ rest)]
    rfl

/-- The strings of an array as what is written. -/
def terms (items : List String) : List Term := items.map fun s => .plain (.string s)

theorem IsGap.head?_ne {gap : List Char} (isGap : IsGap gap) {c : Char} (apart : c ≠ '"')
    (rest : List Char) : (gap ++ c :: rest).head? ≠ some '"' := by
  cases isGap with
  | nil => exact fun same => apart (Option.some.inj same)
  | space space =>
    intro same
    rw [Option.some.inj same] at space
    exact absurd space (by decide)
  | lineEnd isEnd =>
    obtain rfl | rfl := isEnd
    · exact fun same => absurd (Option.some.inj same) (by decide)
    · exact fun same => absurd (Option.some.inj same) (by decide)
  | comment => exact fun same => absurd (Option.some.inj same) (by decide)

theorem term_of_quotes {s : String} {word : List Char} (quotes : Quotes s word) (depth : Nat)
    {rest : List Char} (apart : rest.head? ≠ some '"') :
    term depth (word ++ rest) = some (.plain (.string s), rest) := by
  rw [← plainTerm_of_quotes quotes apart]
  cases quotes
  cases depth <;> rfl

/-- One item is read, and then what stands behind it. -/
theorem arrayItems_item {s : String} {gap word behind : List Char} (isGap : IsGap gap)
    (quotes : Quotes s word) (apart : behind.head? ≠ some '"') (depth fuel : Nat)
    (done : List Term) :
    arrayItems (term depth) done (fuel + 1) (gap ++ (word ++ behind)) =
      (skipGap false behind).bind fun behind => match behind with
        | ',' :: rest => arrayItems (term depth) (.plain (.string s) :: done) fuel rest
        | ']' :: rest => some (.array (done.reverse ++ [.plain (.string s)]), rest)
        | _ => none := by
  have opened : skipGap false (word ++ behind) = some (word ++ behind) := by
    cases quotes
    rfl
  have read := term_of_quotes quotes depth apart
  rw [arrayItems, skipGap_append isGap, opened]
  cases quotes
  change (term depth ('"' :: _ ++ behind)).bind _ = _
  rw [read]
  rfl

theorem arrayItems_of_items {items : List String} {text : List Char} (written : Items items text)
    (depth : Nat) (rest : List Char) : ∀ done fuel, items.length < fuel →
      arrayItems (term depth) done fuel (text ++ rest) =
        some (.array (done.reverse ++ terms items), rest) := by
  induction written with
  | none isGap =>
    intro done fuel enough
    obtain ⟨fuel, rfl⟩ := Nat.exists_eq_succ_of_ne_zero (Nat.ne_zero_of_lt enough)
    unfold arrayItems
    rw [List.append_assoc, skipGap_append isGap]
    change some (Term.array done.reverse, rest) = _
    rw [terms, List.map_nil, List.append_nil]
  | last isGap quotes behind =>
    intro done fuel enough
    obtain ⟨fuel, rfl⟩ := Nat.exists_eq_succ_of_ne_zero (Nat.ne_zero_of_lt enough)
    simp only [List.append_assoc, List.singleton_append]
    rw [arrayItems_item isGap quotes (behind.head?_ne (by decide) rest), skipGap_append behind]
    rfl
  | @more s gap word behind text items isGap quotes behind _ ih =>
    intro done fuel enough
    obtain ⟨fuel, rfl⟩ := Nat.exists_eq_succ_of_ne_zero (Nat.ne_zero_of_lt enough)
    simp only [List.append_assoc, List.cons_append]
    rw [arrayItems_item isGap quotes (behind.head?_ne (by decide) _), skipGap_append behind]
    change arrayItems _ (.plain (.string s) :: done) fuel _ = _
    rw [ih _ fuel (Nat.lt_of_succ_lt_succ enough)]
    simp [terms]

/-- **An array of strings is read as the list that it spells.** -/
theorem term_of_items {items : List String} {text : List Char} (written : Items items text)
    (depth : Nat) (rest : List Char) :
    term (depth + 1) ('[' :: (text ++ rest)) = some (.array (terms items), rest) := by
  have enough : items.length ≤ text.length := by
    induction written with
    | none => exact Nat.zero_le _
    | last => simp; omega
    | more _ _ _ _ ih => simp; omega
  change arrayItems (term depth) [] _ _ = _
  rw [arrayItems_of_items written depth rest [] _ (by simp; omega)]
  rfl

/-! ### Lines -/

/-- Spaces and tabs. -/
def IsBlankText (text : List Char) : Prop := ∀ c ∈ text, isSpace c = true

/-- What may stand behind a value on its line. -/
inductive IsTrailing : List Char → Prop where
  | blank {spaces : List Char} : IsBlankText spaces → IsTrailing spaces
  | comment {spaces words : List Char} : IsBlankText spaces → (∀ c ∈ words, isPlain c = true) →
      IsTrailing (spaces ++ '#' :: words)

/-- A line that gives a key an array of strings. Empty lines and comments may stand above it, and the
array may go over several lines. -/
inductive Line (key : String) (items : List String) : List Char → Prop where
  | intro (gap before behind text ending : List Char) : IsGap gap → IsBlankText before →
      IsBlankText behind → Items items text → IsTrailing ending →
      Line key items (gap ++ (key.toList ++ (before ++ '=' :: (behind ++ '[' :: (text ++ ending)))))

theorem skipSpaces_append {spaces : List Char} (blank : IsBlankText spaces) {c : Char}
    (stop : isSpace c = false) (rest : List Char) :
    skipSpaces (spaces ++ c :: rest) = c :: rest := by
  unfold skipSpaces
  rw [List.dropWhile_append_of_pos blank, List.dropWhile_cons_of_neg (by simp [stop])]

theorem finishLine_comment {words : List Char} (plain : ∀ c ∈ words, isPlain c = true) :
    finishLine true words = some [] := by
  induction words with
  | nil => rfl
  | cons c words ih =>
    obtain ⟨first, plain⟩ := List.forall_mem_cons.mp plain
    rw [finishLine_cons (lineEnd?_of_isPlain first _), if_pos rfl, if_pos first]
    exact ih plain

theorem finishLine_blank {spaces : List Char} (blank : IsBlankText spaces) (rest : List Char) :
    finishLine false (spaces ++ rest) = finishLine false rest := by
  induction spaces with
  | nil => rfl
  | cons c spaces ih =>
    obtain ⟨first, blank⟩ := List.forall_mem_cons.mp blank
    rw [← ih blank]
    obtain rfl | rfl := isSpace_iff.mp first
    · rfl
    · rfl

theorem finishLine_of_isTrailing {ending : List Char} (trailing : IsTrailing ending) :
    finishLine false ending = some [] := by
  cases trailing with
  | blank blank =>
    rw [← List.append_nil ending, finishLine_blank blank]
    rfl
  | comment blank plain =>
    rw [finishLine_blank blank]
    exact finishLine_comment plain

/-- A bare key is read up to the equals sign. -/
theorem key_append {part before : List Char} (named : part ≠ []) (bare : ∀ c ∈ part, isKeyChar c = true)
    (blank : IsBlankText before) (rest : List Char) :
    key (part ++ (before ++ '=' :: rest)) = some (⟨[], String.ofList part⟩, '=' :: rest) := by
  obtain ⟨c, behind, whole, stop⟩ :
      ∃ c behind, before ++ '=' :: rest = c :: behind ∧ isKeyChar c = false := by
    cases before with
    | nil => exact ⟨_, _, rfl, rfl⟩
    | cons d before =>
      refine ⟨_, _, rfl, ?_⟩
      obtain rfl | rfl := isSpace_iff.mp (blank d List.mem_cons_self)
      · rfl
      · rfl
  have stop' : ¬ isKeyChar c = true := by simp [stop]
  have taken : (part ++ c :: behind).takeWhile isKeyChar = part := by
    rw [List.takeWhile_append_of_pos bare, List.takeWhile_cons_of_neg stop', List.append_nil]
  have left : (part ++ c :: behind).dropWhile isKeyChar = c :: behind := by
    rw [List.dropWhile_append_of_pos bare, List.dropWhile_cons_of_neg stop']
  have read : keyPart (part ++ c :: behind) = some (String.ofList part, c :: behind) := by
    unfold keyPart
    rw [taken, left]
    split
    next => exact absurd rfl named
    next => rfl
  unfold key keyAfter
  rw [whole, read, ← whole, Option.bind_eq_bind, Option.bind_some]
  dsimp only
  rw [skipSpaces_append blank rfl]
  rfl

/-- The reader of gaps stops at a character that may begin a bare key. -/
theorem skipGap_of_isKeyChar {c : Char} (bare : isKeyChar c = true) (rest : List Char) :
    skipGap false (c :: rest) = some (c :: rest) := by
  have apart : ∀ d, isKeyChar d = false → c ≠ d := by
    rintro d other rfl
    rw [bare] at other
    cases other
  have no_space : ¬ isSpace c = true := by simp [isSpace_iff, apart ' ' rfl, apart '\t' rfl]
  have no_end : lineEnd? (c :: rest) = none :=
    lineEnd?_cons (apart '\n' rfl) fun _ same => absurd same (apart '\r' rfl)
  rw [skipGap_cons no_end, if_neg Bool.false_ne_true, if_neg no_space, if_neg (apart '#' rfl)]

/-- One assignment is all that is read, with a gap before it and a comment behind it. -/
theorem reads_of_assignment {gap text ending : List Char} {c : Char} {s : Statement}
    (isGap : IsGap gap) (bare : isKeyChar c = true)
    (assigned : assignment (c :: text) = some (s, ending)) (trailing : IsTrailing ending) :
    Reads (gap ++ c :: text) [s] := by
  have stated : statement (c :: text) = assignment (c :: text) := by
    unfold statement
    split
    next same => cases (List.cons.inj same).1; cases bare
    next same => cases (List.cons.inj same).1; cases bare
    next => rfl
  unfold Reads
  rw [List.length_append, List.length_cons, ← Nat.add_assoc, statementsAfter, skipGap_append isGap,
    skipGap_of_isKeyChar bare]
  change (statement (c :: text)).bind _ = _
  rw [stated, assigned]
  change (finishLine false ending).bind _ = _
  rw [finishLine_of_isTrailing trailing]
  rfl

/-- **A line gives its key the list that it spells.** -/
theorem reads_line {name : String} {items : List String} {line : List Char}
    (named : name.toList ≠ []) (bare : ∀ c ∈ name.toList, isKeyChar c = true)
    (written : Line name items line) :
    Reads line [.assignment ⟨[], name⟩ (.array (terms items))] := by
  obtain ⟨gap, before, behind, text, ending, isGap, blank, blank', listed, trailing⟩ := written
  have assigned : assignment (name.toList ++
      (before ++ '=' :: (behind ++ '[' :: (text ++ ending)))) =
        some (.assignment ⟨[], name⟩ (.array (terms items)), ending) := by
    unfold assignment
    rw [key_append named bare blank, String.ofList_toList]
    change (term 80 (skipSpaces (behind ++ '[' :: (text ++ ending)))).bind _ = _
    rw [skipSpaces_append blank' rfl, term_of_items listed 79 ending]
    rfl
  obtain ⟨c, part, same⟩ := List.exists_cons_of_ne_nil named
  have first : isKeyChar c = true := bare c (by simp [same])
  rw [same] at assigned ⊢
  exact reads_of_assignment isGap first assigned trailing

/-! ### Every list can be written -/

/-- A spelling of a character: control characters by their number in four digits. -/
def spelling (c : Char) : List Char :=
  if c = '"' ∨ c = '\\' then ['\\', c]
  else if isPlain c then [c]
  else '\\' :: 'u' :: ['0', '0', Nat.digitChar (c.toNat / 16), Nat.digitChar (c.toNat % 16)]

theorem digit?_digitChar : ∀ n < 16, digit? 16 (Nat.digitChar n) = some n := by decide

theorem spells_spelling (c : Char) : Spells c (spelling c) := by
  unfold spelling
  by_cases marked : c = '"' ∨ c = '\\'
  · rw [if_pos marked]
    obtain rfl | rfl := marked
    · exact .letter rfl
    · exact .letter rfl
  · rw [if_neg marked]
    obtain ⟨no_quote, no_escape⟩ := not_or.mp marked
    by_cases plain : isPlain c = true
    · rw [if_pos plain]
      exact .itself plain no_quote no_escape
    · rw [if_neg plain]
      have small : c.toNat < 0x80 := by
        simp [isPlain] at plain
        omega
      have high := digit?_digitChar (c.toNat / 16) (by omega)
      have low := digit?_digitChar (c.toNat % 16) (by omega)
      have zero : digit? 16 '0' = some 0 := rfl
      have four : ('u', 4) ∈ numbered := by decide
      have read : ['0', '0', Nat.digitChar (c.toNat / 16), Nat.digitChar (c.toNat % 16)].mapM
          (digit? 16) = some [0, 0, c.toNat / 16, c.toNat % 16] := by simp [high, low, zero]
      exact .number four read (by simp; omega)

/-- A string in quotation marks. -/
def stringText (s : String) : List Char := '"' :: (s.toList.flatMap spelling ++ ['"'])

theorem quotes_stringText (s : String) : Quotes s (stringText s) := by
  have body : ∀ text, Body text (text.flatMap spelling) := by
    intro text
    induction text with
    | nil => exact .nil
    | cons c text ih =>
      rw [List.flatMap_cons]
      exact .cons (spells_spelling c) ih
  exact .intro _ (body s.toList)

/-- Strings apart by commas, and the bracket that closes an array. -/
def itemsText : List String → List Char
  | [] => [']']
  | [s] => stringText s ++ [']']
  | s :: items => stringText s ++ ',' :: itemsText items

theorem items_itemsText (items : List String) : Items items (itemsText items) := by
  fun_induction itemsText items with
  | case1 => exact .none .nil
  | case2 s =>
    have written : Items [s] _ := .last .nil (quotes_stringText s) .nil
    simpa using written
  | case3 s items _ ih =>
    have written : Items (s :: items) _ := .more .nil (quotes_stringText s) .nil ih
    simpa using written

/-- A key, an equals sign and an array. -/
def lineText (key : String) (items : List String) : List Char :=
  key.toList ++ '=' :: '[' :: itemsText items

theorem line_lineText (key : String) (items : List String) : Line key items (lineText key items) := by
  have nothing : IsBlankText [] := fun _ mem => absurd mem List.not_mem_nil
  have written : Line key items _ :=
    .intro [] [] [] _ [] .nil nothing nothing (items_itemsText items) (.blank nothing)
  simpa [lineText] using written

end CompilerWrapper.Toml
