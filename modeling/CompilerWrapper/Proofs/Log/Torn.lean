import CompilerWrapper.Proofs.Log.RoundTrip

/-!
# A block that was torn

A writer that fails or dies leaves a beginning of its block in the log, and the next writer adds its
own block right behind it. `entries_torn` says what that costs. A beginning without a whole header
is passed over. A longer one goes on with the next block, so that what is left of it and the next
entry are read as one entry. Everything before and behind is read as it was written.

The cut may fall into a character, so the beginning is taken as bytes and decoded with what follows.
Behind the cut stands a header, and no closing reaches into a header (`wall_header`): what is found
behind the cut is found where the next block has it.
-/

namespace CompilerWrapper.Log

/-! ### What is left of a torn block -/

/-- The closing line without its line end. -/
def closingLine : List Char := footer.toList.dropLast

/-- A closing is found before a header or behind it. -/
theorem wall_header : Text.Wall charMarks.closing charMarks.header := by decide +kernel

/-- No closing begins in an empty line or before it and ends behind it. -/
theorem closing_take_apart : ∀ k < charMarks.closing.length, 0 < k →
    ¬ charMarks.closing.take k <:+ charMarks.blankLine ∧
      ¬ charMarks.blankLine <:+ charMarks.closing.take k := by
  decide +kernel

/-- Between the header and the closing of a clean entry stands no closing, unless the command ends
in a line that becomes one with the empty line behind it. -/
theorem not_closing_infix_body {e : Entry} (clean : e.Clean)
    (no_line : ¬ closingLine <:+ e.command.toList) :
    ¬ charMarks.closing <:+: e.chars.1 ++ charMarks.blankLine ++ e.chars.2 := by
  have separable := (separable_chars_iff e).mpr clean
  rintro ⟨passed, rest, occurs⟩
  rcases Text.cases_of_append_eq occurs with
    ⟨rest', within⟩ | ⟨passed', -, within⟩ | ⟨k, inside, some, within, -⟩
  · rcases List.eq_nil_or_concat rest' with rfl | ⟨rest', c, rfl⟩
    · apply no_line
      have line : charMarks.closing = closingLine ++ charMarks.blankLine := by decide
      rw [List.append_nil, line, ← List.append_assoc] at within
      exact ⟨passed, (List.append_cancel_right within).symm⟩
    · refine separable.command ?_
      have lineEnd : charMarks.blankLine = charMarks.blankLine.dropLast ++ ['\n'] := by decide
      rw [lineEnd, ← List.append_assoc, List.concat_eq_append, ← List.append_assoc] at within
      have shorter : e.command.toList ++ charMarks.blankLine.dropLast =
          passed ++ charMarks.closing ++ rest' := List.append_inj_left' within rfl
      have line : charMarks.blankLine <:+: charMarks.closing := by decide +kernel
      exact shorter ▸ line.trans ⟨passed, rest', rfl⟩
  · have inside : charMarks.closing <:+: Utf8.decodeLossy e.stderr :=
      ⟨passed', rest, within.symm⟩
    exact separable.output (inside.trans (List.prefix_append _ _).isInfix)
  · obtain ⟨shorter, longer⟩ := closing_take_apart k inside some
    have ends : charMarks.closing.take k <:+ e.command.toList ++ charMarks.blankLine :=
      within ▸ List.suffix_append _ _
    rcases List.suffix_or_suffix_of_suffix ends (List.suffix_append _ _) with h | h
    · exact shorter h
    · exact longer h

/-- A block that was torn in its command goes on with the next block, up to whose closing it is read
as one entry. -/
theorem exists_separable_of_cut_command {part : List Char}
    (no_blank : ¬ charMarks.blankLine <:+: part) {next : List Char × List Char}
    (no_closing : ¬ charMarks.closing <:+: next.1 ++ charMarks.blankLine ++ next.2) :
    ∃ entry, charMarks.Separable entry ∧
      charMarks.block entry = charMarks.header ++ part ++ charMarks.block next := by
  have whole : charMarks.blankLine <:+:
      part ++ (charMarks.header ++ (next.1 ++ charMarks.blankLine ++ next.2)) :=
    ⟨part ++ charMarks.header ++ next.1, next.2, by simp only [List.append_assoc]⟩
  cases cut : Text.splitFirst? charMarks.blankLine
      (part ++ (charMarks.header ++ (next.1 ++ charMarks.blankLine ++ next.2))) with
  | none => exact absurd whole (Text.splitFirst?_eq_none_iff.mp cut)
  | some found =>
    obtain ⟨command, output⟩ := found
    have same := Text.append_of_splitFirst? cut
    refine ⟨(command, output), ⟨?_, ?_⟩, ?_⟩
    · rw [same] at cut
      exact (Text.splitFirst?_append_mark_iff charMarks.blankLine_ne_nil output).mp cut
    · rw [Text.infix_append_dropLast_iff (by decide) charMarks.closing_ne_nil]
      intro closed
      -- The command ends behind the part, so the closing would be one of the next block.
      rcases List.append_eq_append_iff.mp same with ⟨more, -, rest⟩ | ⟨more, within, -⟩
      · have inside : charMarks.closing <:+:
            [] ++ charMarks.header ++ (next.1 ++ charMarks.blankLine ++ next.2) :=
          rest ▸ closed.trans (List.suffix_append _ _).isInfix
        rcases (Text.infix_append_wall_iff wall_header _ _).mp inside with empty | behind
        · exact absurd (List.infix_nil.mp empty) charMarks.closing_ne_nil
        · exact no_closing behind
      · exact no_blank ⟨command, more, within.symm⟩
    · show charMarks.header ++ command ++ charMarks.blankLine ++ output ++ charMarks.closing = _
      rw [List.append_assoc charMarks.header, List.append_assoc charMarks.header, ← same]
      simp only [Marks.block, List.append_assoc]

/-- A block that was torn behind its command goes on with the next block, which is read as output. -/
theorem separable_of_cut_output {command part : List Char}
    (no_blank : ¬ charMarks.blankLine <:+: command ++ charMarks.blankLine.dropLast)
    (no_closing : ¬ charMarks.closing <:+: part) {next : List Char × List Char}
    (no_closing' : ¬ charMarks.closing <:+: next.1 ++ charMarks.blankLine ++ next.2) :
    charMarks.Separable
      (command, part ++ charMarks.header ++ (next.1 ++ charMarks.blankLine ++ next.2)) := by
  refine ⟨no_blank, ?_⟩
  rw [Text.infix_append_dropLast_iff (by decide) charMarks.closing_ne_nil,
    Text.infix_append_wall_iff wall_header]
  exact not_or.mpr ⟨no_closing, no_closing'⟩

/-- A beginning of a block that has its header is torn in the command or behind it. -/
theorem cases_of_torn {e : Entry} (clean : e.Clean) {torn : Bytes} (begins : torn <+: e.render)
    (proper : torn ≠ e.render) (long : (Bytes.ofText header).length ≤ torn.length) :
    (∃ part, ¬ charMarks.blankLine <:+: part ∧
        Utf8.decodeLossy torn = charMarks.header ++ part) ∨
      ∃ part, ¬ charMarks.closing <:+: part ∧ Utf8.decodeLossy torn =
        charMarks.header ++ e.command.toList ++ charMarks.blankLine ++ part := by
  have separable := (separable_chars_iff e).mpr clean
  have shape : e.render = Bytes.ofText header ++
      (Bytes.ofText e.command ++ Bytes.ofText blankLine ++ (e.stderr ++ Bytes.ofText closing)) := by
    simp only [Entry.render, List.append_assoc]
  rw [shape] at begins proper
  rcases Text.cases_of_prefix_append begins with ⟨short, ne⟩ | ⟨more, rfl, behind⟩
  · exact absurd (short.eq_of_length_le long) ne
  have header_ascii : Utf8.IsAscii header.toList := by decide
  rcases Text.cases_of_prefix_append behind with ⟨short, ne⟩ | ⟨part, rfl, ends⟩
  · refine Or.inl ⟨Utf8.decodeLossy more, ?_, Utf8.decodeLossy_encode_append header_ascii more⟩
    have text : (Bytes.ofText e.command ++ Bytes.ofText blankLine).dropLast =
        Utf8.encode (e.command.toList ++ charMarks.blankLine.dropLast) := by
      rw [List.dropLast_append_of_ne_nil (by decide), Utf8.encode_append]
      rfl
    rw [Utf8.infix_decodeLossy_iff (by decide)]
    intro early
    have inside := early.trans (Text.prefix_dropLast short ne).isInfix
    rw [text, ← Utf8.infix_decodeLossy_iff (by decide), Utf8.decodeLossy_encode] at inside
    exact separable.command inside
  · have torn_output : part ≠ e.stderr ++ Bytes.ofText closing :=
      fun same => proper (by rw [same])
    refine Or.inr ⟨Utf8.decodeLossy part, ?_, ?_⟩
    · rw [Utf8.infix_decodeLossy_iff (by decide)]
      intro early
      have inside := early.trans (Text.prefix_dropLast ends torn_output).isInfix
      rw [List.dropLast_append_of_ne_nil (by decide)] at inside
      exact clean.stderr ((Text.infix_append_dropLast_iff (by decide) (by decide)).mp inside)
    · rw [Bytes.ofText, Utf8.decodeLossy_encode_append header_ascii, List.append_assoc,
        decodeLossy_append_mark _ blankLine (by decide) (by decide), Bytes.ofText,
        Utf8.decodeLossy_encode]
      simp only [List.append_assoc]
      rfl

/-- **A beginning of a block with a whole header makes one block with the block behind it.** -/
theorem exists_separable_of_torn {e first : Entry} (clean : e.Clean) (clean_first : first.Clean)
    (no_line : ¬ closingLine <:+ first.command.toList) {torn : Bytes} (begins : torn <+: e.render)
    (proper : torn ≠ e.render) (long : (Bytes.ofText header).length ≤ torn.length) :
    ∃ entry, charMarks.Separable entry ∧
      charMarks.block entry = Utf8.decodeLossy torn ++ charMarks.block first.chars := by
  have no_closing := not_closing_infix_body clean_first no_line
  rcases cases_of_torn clean begins proper long with ⟨part, no_blank, text⟩ | ⟨part, open_end, text⟩
  · rw [text]
    exact exists_separable_of_cut_command no_blank no_closing
  · rw [text]
    have separable := (separable_chars_iff e).mpr clean
    refine ⟨_, separable_of_cut_output separable.command open_end no_closing, ?_⟩
    simp only [Marks.block, Entry.chars, List.append_assoc]

/-! ### What is read from a log with a torn block -/

theorem separable_chars {es : List Entry} (clean : ∀ e ∈ es, e.Clean) :
    ∀ entry ∈ es.map Entry.chars, charMarks.Separable entry := by
  rw [List.forall_mem_map]
  exact fun e mem => (separable_chars_iff e).mpr (clean e mem)

theorem map_ofChars_chars (es : List Entry) :
    (es.map Entry.chars).map Entry.ofChars = es.map Entry.decoded := by
  rw [List.map_map]
  exact List.map_congr_left fun e _ => ofChars_chars e

/-- Clean entries are read as they were written, and what is behind them is read as if it stood
alone. -/
theorem entries_renders_append {before : List Entry} (clean : ∀ b ∈ before, b.Clean) (rest : Bytes) :
    entries (before.flatMap Entry.render ++ rest) = before.map Entry.decoded ++ entries rest := by
  rw [entries_eq_map, decodeLossy_renders_append, split_blocks_append (separable_chars clean),
    List.map_append, map_ofChars_chars, entries_eq_map]

/-- A torn block and clean entries as characters. -/
theorem decodeLossy_torn (torn : Bytes) (first : Entry) (after : List Entry) :
    Utf8.decodeLossy (torn ++ (first :: after).flatMap Entry.render) =
      Utf8.decodeLossy torn ++
        (charMarks.block first.chars ++ (after.map Entry.chars).flatMap charMarks.block) := by
  have renders := decodeLossy_append_renders [] after
  rw [List.nil_append, Utf8.decodeLossy_nil, List.nil_append] at renders
  rw [List.flatMap_cons, decodeLossy_append_render, renders]

/-- What is read where one block is followed by those of clean entries. -/
theorem split_block_renders {gap : List Char}
    (free : ¬ charMarks.header <:+: gap ++ charMarks.header.dropLast) {entry : List Char × List Char}
    (separable : charMarks.Separable entry) {after : List Entry} (clean : ∀ a ∈ after, a.Clean) :
    (split charMarks (gap ++
      (charMarks.block entry ++ (after.map Entry.chars).flatMap charMarks.block))).map
        Entry.ofChars = Entry.ofChars entry :: after.map Entry.decoded := by
  have behind := (split_blocks_iff charMarks _).mpr (separable_chars clean)
  rw [(split_append_block_iff free entry _ _).mpr ⟨separable, behind⟩, List.map_cons,
    map_ofChars_chars]

/-- **A torn block costs at most the one entry that was written right behind it.** A beginning of a
block that is shorter than a header costs nothing. Any other is read, with the block behind it, as
one entry, and the entries before and behind that are read as they were written. -/
theorem entries_torn {before after : List Entry} {e first : Entry}
    (clean_before : ∀ b ∈ before, b.Clean) (clean : e.Clean) (clean_first : first.Clean)
    (no_line : ¬ closingLine <:+ first.command.toList) (clean_after : ∀ a ∈ after, a.Clean)
    {torn : Bytes} (begins : torn <+: e.render) (proper : torn ≠ e.render) :
    let log := before.flatMap Entry.render ++ torn ++ (first :: after).flatMap Entry.render
    (torn.length < (Bytes.ofText header).length →
      entries log = (before ++ first :: after).map Entry.decoded) ∧
    ((Bytes.ofText header).length ≤ torn.length → ∃ mixed : Entry, mixed.Clean ∧
      mixed.render = Utf8.encode (Utf8.decodeLossy (torn ++ first.render)) ∧
      entries log = before.map Entry.decoded ++ mixed :: after.map Entry.decoded) := by
  intro log
  have read : entries log = before.map Entry.decoded ++
      (split charMarks (Utf8.decodeLossy torn ++ (charMarks.block first.chars ++
        (after.map Entry.chars).flatMap charMarks.block))).map Entry.ofChars := by
    show entries (before.flatMap Entry.render ++ torn ++ _) = _
    rw [List.append_assoc, entries_renders_append clean_before, entries_eq_map, decodeLossy_torn]
  rw [read]
  constructor
  · intro short
    have free : ¬ charMarks.header <:+: Utf8.decodeLossy torn ++ charMarks.header.dropLast := by
      rw [Text.infix_append_dropLast_iff (by decide) charMarks.header_ne_nil,
        Utf8.infix_decodeLossy_iff (by decide)]
      intro inside
      exact absurd inside.length_le (Nat.not_le.mpr short)
    rw [split_block_renders free ((separable_chars_iff first).mpr clean_first) clean_after,
      ofChars_chars, List.map_append, List.map_cons]
  · intro long
    obtain ⟨found, separable, block⟩ :=
      exists_separable_of_torn clean clean_first no_line begins proper long
    refine ⟨Entry.ofChars found, ?_, ?_, ?_⟩
    · rw [← separable_chars_iff, chars_ofChars]
      exact separable
    · have alone := decodeLossy_append_render torn first []
      rw [List.append_nil, Utf8.decodeLossy_nil, List.append_nil, ← block] at alone
      rw [render_ofChars, alone]
    · have next := split_block_renders (not_header_infix_nil charMarks) separable clean_after
      rw [List.nil_append, block, List.append_assoc] at next
      rw [next]

/-- Between two entries, a block that was cut in its header leaves nothing, and one that was cut in a
character takes the entry behind it. -/
theorem entries_torn_character :
    let before : List Entry := [⟨"cc a.c", [0xFF]⟩]
    let first : Entry := ⟨"cc c.c", Bytes.ofText header⟩
    let after : List Entry := [⟨"cc d.c", [0x0A]⟩]
    let line : Bytes := List.replicate 18 0x3D
    let torn : Bytes := Bytes.ofText header ++ Bytes.ofText "cc b.c\n\n" ++ [0xC3]
    entries (before.flatMap Entry.render ++ line ++ (first :: after).flatMap Entry.render) =
        (before ++ first :: after).map Entry.decoded ∧
      ∃ mixed : Entry, mixed.Clean ∧
        mixed.render = Utf8.encode (Utf8.decodeLossy (torn ++ first.render)) ∧
        entries (before.flatMap Entry.render ++ torn ++ (first :: after).flatMap Entry.render) =
          before.map Entry.decoded ++ mixed :: after.map Entry.decoded := by
  intro before first after line torn
  let e : Entry := ⟨"cc b.c", [0xC3, 0xA9]⟩
  have clean : ∀ b ∈ before, b.Clean := by decide +kernel
  have clean_e : e.Clean := by decide +kernel
  have clean_first : first.Clean := by decide +kernel
  have no_line : ¬ closingLine <:+ first.command.toList := by decide +kernel
  have clean_after : ∀ a ∈ after, a.Clean := by decide +kernel
  have line_begins : line <+: e.render := by decide +kernel
  have torn_begins : torn <+: e.render := by decide +kernel
  have line_torn := entries_torn clean clean_e clean_first no_line clean_after line_begins
    (by decide +kernel)
  have character_torn := entries_torn clean clean_e clean_first no_line clean_after torn_begins
    (by decide +kernel)
  exact ⟨line_torn.1 (by decide +kernel), character_torn.2 (by decide +kernel)⟩

end CompilerWrapper.Log
