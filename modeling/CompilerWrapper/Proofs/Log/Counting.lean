import CompilerWrapper.Proofs.Log.Torn
import CompilerWrapper.Proofs.Text.Order

/-!
# How many entries are found

A text has as many entries as often a header, an empty line and a closing follow each other in it
(`le_length_split_iff`). So what is added to a text takes no entry away, and every block brings one
of its own. It brings another one where its command and its output together have all that ends an
entry and begins the next one.

`length_entries` says this of a log of any entries, clean or not: there are never fewer entries in
it than were written, there are exactly as many if no entry has a closing, a header and an empty
line in this order, and there are more if one has these behind an empty line.
-/

namespace CompilerWrapper.Log

variable {α : Type} {m : Marks α}

/-- The marks of one entry. -/
def Marks.round (m : Marks α) : List (List α) := [m.header, m.blankLine, m.closing]

/-- What stands between the header and the closing of an entry. -/
def Marks.body (m : Marks α) (entry : List α × List α) : List α :=
  entry.1 ++ m.blankLine ++ entry.2

theorem block_eq_body (m : Marks α) (entry : List α × List α) :
    m.block entry = m.header ++ (m.body entry ++ m.closing) := by
  simp only [Marks.block, Marks.body, List.append_assoc]

/-- Every block has the marks of an entry. -/
theorem inOrder_block (m : Marks α) (entry : List α × List α) :
    Text.InOrder m.round (m.block entry) := by
  refine ⟨[], entry.1 ++ m.blankLine ++ entry.2 ++ m.closing, ?_, entry.1, entry.2 ++ m.closing, ?_,
    entry.2, [], ?_, trivial⟩
  · simp only [Marks.block, List.append_assoc, List.nil_append]
  · simp only [List.append_assoc]
  · rw [List.append_nil]

section Found

variable [DecidableEq α]

/-- An entry is found first where its marks are, and the others are found behind it. -/
theorem inOrder_round_append_iff {marks : List (List α)} {text : List α} :
    Text.InOrder (m.round ++ marks) text ↔
      ∃ entry rest, splitFirst? m text = some (entry, rest) ∧ Text.InOrder marks rest := by
  simp only [Marks.round, List.cons_append, List.nil_append, Text.inOrder_cons_iff, splitFirst?,
    Option.bind_eq_bind, Option.bind_eq_some_iff, Prod.exists]
  constructor
  · rintro ⟨gap, body, header, command, behind, blank, output, rest, closing, inOrder⟩
    exact ⟨command, output, rest,
      ⟨gap, body, header, command, behind, blank, output, rest, closing, rfl⟩, inOrder⟩
  · rintro ⟨_, _, _, ⟨gap, body, header, command, behind, blank, output, rest, closing, found⟩, inOrder⟩
    obtain ⟨-, rfl⟩ := Prod.mk.inj (Option.some.inj found)
    exact ⟨gap, body, header, command, behind, blank, output, rest, closing, inOrder⟩

/-- **A text has as many entries as often their marks follow each other in it.** -/
theorem le_length_split_iff {n : Nat} {text : List α} :
    n ≤ (split m text).length ↔ Text.InOrder (List.replicate n m.round).flatten text := by
  induction n generalizing text with
  | zero => exact iff_of_true (Nat.zero_le _) trivial
  | succ n ih =>
    rw [List.replicate_succ, List.flatten_cons, inOrder_round_append_iff]
    constructor
    · intro some
      cases first : splitFirst? m text with
      | none =>
        rw [split_of_none first] at some
        exact absurd some (Nat.not_succ_le_zero n)
      | some found =>
        rw [split_of_some first, List.length_cons] at some
        exact ⟨found.1, found.2, rfl, ih.mp (Nat.le_of_succ_le_succ some)⟩
    · rintro ⟨entry, rest, first, inOrder⟩
      rw [split_of_some first, List.length_cons]
      exact Nat.succ_le_succ (ih.mpr inOrder)

/-- A text has no entry exactly if the marks of one do not follow each other in it. -/
theorem split_eq_nil_iff {text : List α} : split m text = [] ↔ ¬ Text.InOrder m.round text := by
  have one : 1 ≤ (split m text).length ↔ _ := le_length_split_iff
  rw [List.replicate_one, List.flatten_singleton] at one
  rw [← one, Nat.not_le, Nat.lt_one_iff, List.length_eq_zero_iff]

/-- Text that is added takes no entry away. -/
theorem length_split_append_le (m : Marks α) (text more : List α) :
    (split m text).length + (split m more).length ≤ (split m (text ++ more)).length := by
  rw [le_length_split_iff, List.replicate_add, List.flatten_append]
  exact (le_length_split_iff.mp le_rfl).append (le_length_split_iff.mp le_rfl)

theorem one_le_length_split_block (m : Marks α) (entry : List α × List α) :
    1 ≤ (split m (m.block entry)).length := by
  rw [le_length_split_iff]
  exact inOrder_block m entry

/-- Every block brings an entry. -/
theorem length_le_length_split_blocks (m : Marks α) (entries : List (List α × List α)) :
    entries.length ≤ (split m (entries.flatMap m.block)).length := by
  induction entries with
  | nil => exact Nat.zero_le _
  | cons entry entries ih =>
    have first := one_le_length_split_block m entry
    have joined := length_split_append_le m (m.block entry) (entries.flatMap m.block)
    rw [List.flatMap_cons, List.length_cons]
    omega

/-- A block brings two entries where another one ends and begins in its body. -/
theorem two_le_length_split_block {entry : List α × List α}
    (forged : Text.InOrder [m.blankLine, m.closing, m.header, m.blankLine] (m.body entry)) :
    2 ≤ (split m (m.block entry)).length := by
  rw [le_length_split_iff, block_eq_body]
  exact (Text.inOrder_self m.header).append (forged.append (Text.inOrder_self m.closing))

/-- A block brings one entry alone, to a text in which none was left, unless an entry ends and
another one begins in its body. -/
theorem length_split_append_block (wall : Text.Wall m.closing m.header) {gap : List α}
    (none : split m gap = []) {entry : List α × List α}
    (unforged : ¬ Text.InOrder [m.closing, m.header, m.blankLine] (m.body entry)) :
    (split m (gap ++ m.block entry)).length = 1 := by
  have least := length_split_append_le m gap (m.block entry)
  have one := one_le_length_split_block m entry
  refine Nat.le_antisymm (Nat.le_of_lt_succ (Nat.lt_of_not_le fun two => ?_)) (by omega)
  have rounds : Text.InOrder
      ([m.header, m.blankLine] ++ m.closing :: ([m.header, m.blankLine] ++ [m.closing]))
      (gap ++ m.block entry) := le_length_split_iff.mp two
  obtain ⟨front, _, whole, first, passed, behind, rfl, second⟩ := Text.inOrder_append_iff.mp rounds
  obtain ⟨between, _, rfl, begun, passed', rest, rfl, -⟩ := Text.inOrder_append_iff.mp second
  rw [block_eq_body, ← List.append_assoc gap, ← List.append_assoc front,
    ← List.append_assoc front] at whole
  rcases wall.cases whole.symm with ⟨rest', rfl⟩ | ⟨passed'', -, ends⟩
  · -- The first entry would have been found in the gap.
    have closed := (Text.inOrder_self m.closing).append_left passed
    have found : 1 ≤ (split m (front ++ passed ++ m.closing ++ rest')).length := by
      rw [le_length_split_iff, List.append_assoc front]
      exact (first.append closed).append_right rest'
    rw [none] at found
    exact absurd found (Nat.not_succ_le_zero 0)
  · -- The second entry ends with the block at the latest, so it begins in the body.
    have within : passed'' ++ m.closing ++ between <+: m.body entry := by
      have before : passed'' ++ m.closing ++ between <+: m.body entry ++ m.closing :=
        ⟨passed' ++ m.closing ++ rest, by simp only [ends, List.append_assoc]⟩
      refine List.prefix_of_prefix_length_le before (List.prefix_append _ _) ?_
      have length := congrArg List.length ends
      simp only [List.length_append] at length ⊢
      omega
    obtain ⟨rest', body⟩ := within
    have reopened : Text.InOrder [m.closing, m.header, m.blankLine]
        (passed'' ++ m.closing ++ between) := ⟨passed'', between, rfl, begun⟩
    exact unforged (body ▸ reopened.append_right rest')

/-- **Blocks in whose bodies no entry ends and no other one begins bring one entry each.** -/
theorem length_split_append_blocks (wall : Text.Wall m.closing m.header) (text : List α)
    {entries : List (List α × List α)}
    (unforged : ∀ entry ∈ entries,
      ¬ Text.InOrder [m.closing, m.header, m.blankLine] (m.body entry)) :
    (split m (text ++ entries.flatMap m.block)).length = (split m text).length + entries.length := by
  induction entries generalizing text with
  | nil => simp
  | cons entry entries ih =>
    obtain ⟨first, rest⟩ := List.forall_mem_cons.mp unforged
    have alone := length_split_append_block wall (split_remainder m text) first
    rw [List.flatMap_cons, ← List.append_assoc, ih _ rest, split_append, List.length_append, alone,
      List.length_cons]
    omega

end Found

/-! ### The entries of a log -/

/-- What an entry says: the command line, an empty line and what the compiler printed. -/
def Entry.body (e : Entry) : Bytes := .ofText e.command ++ .ofText blankLine ++ e.stderr

theorem inOrder_body_iff {marks : List (List Char)}
    (ascii : ∀ mark ∈ marks, Utf8.IsAscii mark ∧ mark ≠ []) (e : Entry) :
    Text.InOrder marks (charMarks.body e.chars) ↔ Text.InOrder (marks.map Utf8.encode) e.body := by
  have text : charMarks.body e.chars = Utf8.decodeLossy e.body := by
    rw [Entry.body, List.append_assoc, decodeLossy_append_mark _ blankLine (by decide) (by decide),
      Bytes.ofText, Utf8.decodeLossy_encode, ← List.append_assoc]
    rfl
  rw [text]
  exact Utf8.inOrder_decodeLossy_iff ascii e.body

/-- In what the entry says, an entry ends and another one begins. -/
def Entry.Reopens (e : Entry) : Prop :=
  Text.InOrder [byteMarks.closing, byteMarks.header, byteMarks.blankLine] e.body

/-- In what the entry says, an entry ends behind its command, and another one begins. -/
def Entry.Forges (e : Entry) : Prop :=
  Text.InOrder [byteMarks.blankLine, byteMarks.closing, byteMarks.header, byteMarks.blankLine]
    e.body

instance (e : Entry) : Decidable e.Reopens := by
  unfold Entry.Reopens
  infer_instance

instance (e : Entry) : Decidable e.Forges := by
  unfold Entry.Forges
  infer_instance

/-- Output with a closing, a header and an empty line forges an entry whatever the command is. -/
theorem forges_of_stderr {e : Entry} (printed : Text.InOrder
    [byteMarks.closing, byteMarks.header, byteMarks.blankLine] e.stderr) : e.Forges := by
  have blank : Text.InOrder [byteMarks.blankLine] (Bytes.ofText e.command ++ Bytes.ofText blankLine) :=
    (Text.inOrder_self byteMarks.blankLine).append_left _
  exact blank.append printed

/-- **However many entries are written, at least as many are read**: exactly as many unless one of
them reopens, and more if one of them forges another. -/
theorem length_entries (es : List Entry) :
    es.length ≤ (entries (es.flatMap Entry.render)).length ∧
      ((∀ e ∈ es, ¬ e.Reopens) → (entries (es.flatMap Entry.render)).length = es.length) ∧
      ((∃ e ∈ es, e.Forges) → es.length < (entries (es.flatMap Entry.render)).length) := by
  have text : Utf8.decodeLossy (es.flatMap Entry.render) =
      (es.map Entry.chars).flatMap charMarks.block := decodeLossy_append_renders [] es
  rw [entries_eq_map, List.length_map, text]
  refine ⟨?_, fun unforged => ?_, ?_⟩
  · have least := length_le_length_split_blocks charMarks (es.map Entry.chars)
    rwa [List.length_map] at least
  · have unforged : ∀ entry ∈ es.map Entry.chars, ¬ Text.InOrder
        [charMarks.closing, charMarks.header, charMarks.blankLine] (charMarks.body entry) := by
      rw [List.forall_mem_map]
      exact fun e mem => mt (inOrder_body_iff (by decide) e).mp (unforged e mem)
    have exactly := length_split_append_blocks wall_header [] unforged
    have none : split charMarks [] = [] := (split_blocks_iff charMarks []).mpr (by simp)
    rwa [List.nil_append, none, List.length_nil, Nat.zero_add, List.length_map] at exactly
  · rintro ⟨e, mem, forged⟩
    obtain ⟨before, after, rfl⟩ := List.append_of_mem mem
    have two : 2 ≤ (split charMarks (charMarks.block e.chars)).length :=
      two_le_length_split_block ((inOrder_body_iff (by decide) e).mpr forged)
    have first := length_le_length_split_blocks charMarks (before.map Entry.chars)
    have last := length_le_length_split_blocks charMarks (after.map Entry.chars)
    have joined := length_split_append_le charMarks (charMarks.block e.chars)
      ((after.map Entry.chars).flatMap charMarks.block)
    have whole := length_split_append_le charMarks ((before.map Entry.chars).flatMap charMarks.block)
      (charMarks.block e.chars ++ (after.map Entry.chars).flatMap charMarks.block)
    rw [List.length_map] at first last
    rw [List.map_append, List.map_cons, List.flatMap_append, List.flatMap_cons, List.length_append,
      List.length_cons]
    omega

end CompilerWrapper.Log
