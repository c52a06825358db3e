import CompilerWrapper.Log.Reading
import CompilerWrapper.Proofs.Text.Search

/-!
# Taking a text of blocks apart

What `split` makes of a text does not depend on what follows, except for the remainder behind the
last entry (`split_append`). So a text can be read piece by piece: the entries found in it, and then
those of its remainder with the rest behind it.

A block is read as the entry that was written if its command and its output are *separable* from
the marks behind them (`splitFirst?_block`), and as no other block is (`separable_of_splitFirst?`).
Both facts are for any alphabet and any marks.
-/

namespace CompilerWrapper.Log

variable {α : Type}

/-- The block that stands for an entry. -/
def Marks.block (m : Marks α) (entry : List α × List α) : List α :=
  m.header ++ entry.1 ++ m.blankLine ++ entry.2 ++ m.closing

/-- No mark is found before the place where the block of the entry has it. -/
structure Marks.Separable (m : Marks α) (entry : List α × List α) : Prop where
  command : ¬ m.blankLine <:+: entry.1 ++ m.blankLine.dropLast
  output : ¬ m.closing <:+: entry.2 ++ m.closing.dropLast

variable [DecidableEq α]

/-! ### The remainder of a text -/

theorem split_of_none {m : Marks α} {text : List α} (h : splitFirst? m text = none) :
    split m text = [] := by
  rw [split]
  split
  · rfl
  · simp_all

theorem split_of_some {m : Marks α} {text rest : List α} {entry : List α × List α}
    (h : splitFirst? m text = some (entry, rest)) : split m text = entry :: split m rest := by
  rw [split]
  split
  · simp_all
  · simp_all

/-- What is left of a text behind the last entry that is found in it. -/
def remainder (m : Marks α) (text : List α) : List α :=
  match _h : splitFirst? m text with
  | none => text
  | some (_, rest) => remainder m rest
termination_by text.length
decreasing_by exact splitFirst?_rest_lt ‹_›

theorem remainder_of_none {m : Marks α} {text : List α} (h : splitFirst? m text = none) :
    remainder m text = text := by
  rw [remainder]
  split
  · rfl
  · simp_all

theorem remainder_of_some {m : Marks α} {text rest : List α} {entry : List α × List α}
    (h : splitFirst? m text = some (entry, rest)) : remainder m text = remainder m rest := by
  rw [remainder]
  split
  · simp_all
  · simp_all

/-- The first entry stays the first one whatever follows. -/
theorem splitFirst?_append {m : Marks α} {text rest : List α} {entry : List α × List α}
    (h : splitFirst? m text = some (entry, rest)) (more : List α) :
    splitFirst? m (text ++ more) = some (entry, rest ++ more) := by
  simp only [splitFirst?, Option.bind_eq_bind, Option.bind_eq_some_iff, Prod.exists] at h ⊢
  obtain ⟨gap, body, hbody, command, rest₁, hcommand, output, rest₂, houtput, h⟩ := h
  obtain ⟨rfl, rfl⟩ := Prod.mk.inj (Option.some.inj h)
  exact ⟨gap, body ++ more, Text.splitFirst?_append hbody more,
    command, rest₁ ++ more, Text.splitFirst?_append hcommand more,
    output, rest₂ ++ more, Text.splitFirst?_append houtput more, rfl⟩

/-- **A text is read up to its remainder, and the remainder is read on with what follows.** -/
theorem split_append (m : Marks α) (text more : List α) :
    split m (text ++ more) = split m text ++ split m (remainder m text ++ more) := by
  induction text using split.induct m with
  | case1 text h => rw [split_of_none h, remainder_of_none h, List.nil_append]
  | case2 text entry rest h ih =>
    rw [split_of_some h, split_of_some (splitFirst?_append h more), remainder_of_some h, ih,
      List.cons_append]

/-- Nothing is found in the remainder. -/
theorem split_remainder (m : Marks α) (text : List α) : split m (remainder m text) = [] := by
  have h := split_append m text []
  rw [List.append_nil, List.append_nil] at h
  exact List.append_cancel_left (h.symm.trans (List.append_nil _).symm)

theorem split_eq_cons {m : Marks α} {text : List α} {entry : List α × List α}
    {entries : List (List α × List α)} (h : split m text = entry :: entries) :
    ∃ rest, splitFirst? m text = some (entry, rest) ∧ split m rest = entries := by
  cases hfirst : splitFirst? m text with
  | none => simp [split_of_none hfirst] at h
  | some cut =>
    rw [split_of_some hfirst] at h
    obtain ⟨rfl, rfl⟩ := List.cons.inj h
    exact ⟨cut.2, rfl, rfl⟩

/-! ### The block of an entry -/

/-- The reading of a block begins behind its header, whatever stands before it, as long as no
header begins there. -/
theorem splitFirst?_append_block {m : Marks α} {gap : List α}
    (free : ¬ m.header <:+: gap ++ m.header.dropLast) (entry : List α × List α) (more : List α) :
    splitFirst? m (gap ++ (m.block entry ++ more)) =
      (do
        let (command, rest) ←
          Text.splitFirst? m.blankLine (entry.1 ++ m.blankLine ++ (entry.2 ++ m.closing ++ more))
        let (output, rest) ← Text.splitFirst? m.closing rest
        pure ((command, output), rest)) := by
  have header := (Text.splitFirst?_append_mark_iff m.header_ne_nil
    (entry.1 ++ m.blankLine ++ (entry.2 ++ m.closing ++ more))).mpr free
  have shape : gap ++ (m.block entry ++ more) =
      gap ++ m.header ++ (entry.1 ++ m.blankLine ++ (entry.2 ++ m.closing ++ more)) := by
    simp only [Marks.block, List.append_assoc]
  unfold splitFirst?
  rw [shape, header]
  rfl

/-- **A separable entry is read as it was written.** -/
theorem splitFirst?_block {m : Marks α} {gap : List α}
    (free : ¬ m.header <:+: gap ++ m.header.dropLast) {entry : List α × List α}
    (separable : m.Separable entry) (more : List α) :
    splitFirst? m (gap ++ (m.block entry ++ more)) = some (entry, more) := by
  have command := (Text.splitFirst?_append_mark_iff m.blankLine_ne_nil
    (entry.2 ++ m.closing ++ more)).mpr separable.command
  have output := (Text.splitFirst?_append_mark_iff m.closing_ne_nil more).mpr separable.output
  rw [splitFirst?_append_block free, command]
  simp only [Option.bind_eq_bind, Option.bind_some]
  rw [output]
  rfl

/-- **Only a separable entry is read as it was written.** -/
theorem separable_of_splitFirst? {m : Marks α} {gap : List α}
    (free : ¬ m.header <:+: gap ++ m.header.dropLast) {entry : List α × List α}
    {more rest : List α} (h : splitFirst? m (gap ++ (m.block entry ++ more)) = some (entry, rest)) :
    m.Separable entry := by
  rw [splitFirst?_append_block free] at h
  simp only [Option.bind_eq_bind, Option.bind_eq_some_iff, Prod.exists] at h
  obtain ⟨command, rest₁, hcommand, output, rest₂, houtput, h⟩ := h
  obtain ⟨rfl, rfl⟩ := Prod.mk.inj (Option.some.inj h)
  have separable : ¬ m.blankLine <:+: command ++ m.blankLine.dropLast := by
    intro early
    obtain ⟨passed, _, hpassed, shorter⟩ := Text.exists_splitFirst?_append_mark
      m.blankLine_ne_nil early (output ++ m.closing ++ more)
    rw [hpassed] at hcommand
    obtain ⟨rfl, -⟩ := Prod.mk.inj (Option.some.inj hcommand)
    exact absurd shorter (Nat.lt_irrefl _)
  rw [(Text.splitFirst?_append_mark_iff m.blankLine_ne_nil _).mpr separable] at hcommand
  obtain ⟨-, rfl⟩ := Prod.mk.inj (Option.some.inj hcommand)
  refine ⟨separable, ?_⟩
  intro early
  obtain ⟨passed, _, hpassed, shorter⟩ := Text.exists_splitFirst?_append_mark m.closing_ne_nil
    early more
  rw [hpassed] at houtput
  obtain ⟨rfl, -⟩ := Prod.mk.inj (Option.some.inj houtput)
  exact absurd shorter (Nat.lt_irrefl _)

/-- **A block is the first entry that is read exactly if its entry is separable.** -/
theorem split_append_block_iff {m : Marks α} {gap : List α}
    (free : ¬ m.header <:+: gap ++ m.header.dropLast) (entry : List α × List α) (more : List α)
    (entries : List (List α × List α)) :
    split m (gap ++ (m.block entry ++ more)) = entry :: entries ↔
      m.Separable entry ∧ split m more = entries := by
  constructor
  · intro h
    obtain ⟨rest, hfirst, hrest⟩ := split_eq_cons h
    have separable := separable_of_splitFirst? free hfirst
    rw [splitFirst?_block free separable] at hfirst
    obtain ⟨-, rfl⟩ := Prod.mk.inj (Option.some.inj hfirst)
    exact ⟨separable, hrest⟩
  · rintro ⟨separable, rfl⟩
    exact split_of_some (splitFirst?_block free separable more)

omit [DecidableEq α] in
/-- A header does not begin before the text. -/
theorem not_header_infix_nil (m : Marks α) : ¬ m.header <:+: [] ++ m.header.dropLast := by
  intro h
  have length := List.length_pos_iff.mpr m.header_ne_nil
  have := h.length_le
  simp only [List.nil_append, List.length_dropLast] at this
  omega

/-- Separable entries are read as they were written, whatever follows them. -/
theorem split_blocks_append {m : Marks α} {entries : List (List α × List α)}
    (separable : ∀ entry ∈ entries, m.Separable entry) (more : List α) :
    split m (entries.flatMap m.block ++ more) = entries ++ split m more := by
  induction entries with
  | nil => rfl
  | cons entry entries ih =>
    obtain ⟨first, rest⟩ := List.forall_mem_cons.mp separable
    rw [List.flatMap_cons, List.append_assoc, List.cons_append, ← ih rest]
    exact (split_append_block_iff (not_header_infix_nil m) entry _ _).mpr ⟨first, rfl⟩

theorem split_blocks_iff (m : Marks α) (entries : List (List α × List α)) :
    split m (entries.flatMap m.block) = entries ↔ ∀ entry ∈ entries, m.Separable entry := by
  induction entries with
  | nil =>
    have none : splitFirst? m [] = none := by
      cases h : splitFirst? m [] with
      | none => rfl
      | some cut => exact absurd (splitFirst?_rest_lt h) (Nat.not_lt_zero _)
    simp [split_of_none none]
  | cons entry entries ih =>
    rw [List.flatMap_cons, List.forall_mem_cons]
    exact (split_append_block_iff (not_header_infix_nil m) entry _ entries).trans
      (and_congr_right fun _ => ih)

/-- **Blocks behind a text are read as they were written exactly if all of them are separable**,
as long as no header is open at the end of the text. -/
theorem split_append_blocks_iff (m : Marks α) {text : List α}
    (free : ¬ m.header <:+: remainder m text ++ m.header.dropLast)
    (entries : List (List α × List α)) :
    split m (text ++ entries.flatMap m.block) = split m text ++ entries ↔
      ∀ entry ∈ entries, m.Separable entry := by
  rw [split_append, List.append_cancel_left_eq]
  cases entries with
  | nil => simp [split_remainder]
  | cons entry entries =>
    rw [List.flatMap_cons, List.forall_mem_cons]
    exact (split_append_block_iff free entry _ entries).trans
      (and_congr_right fun _ => split_blocks_iff m entries)

end CompilerWrapper.Log
