import CompilerWrapper.Proofs.Log.Reading
import CompilerWrapper.Proofs.Text.Utf8
import Mathlib.Data.List.Chain

/-!
# Entries that are read back

Nothing in an entry is escaped, so not every entry can be read back. `Entry.Clean` says which can:
the command has no empty line and no line end at its end, and the output has no footer with an
empty line behind it. `entries_append_render_iff` says that this is exact. Appended to a log that
has no open header at its end, entries are read back in order and unchanged, but for damaged UTF-8
in their output, if and only if all of them are clean.

The marks are ASCII, so they stand in the decoded log where their bytes stand in the log. A header
and a closing cannot run into themselves; the empty line can, and that is why a command may not end
with a line end.
-/

namespace CompilerWrapper.Log

/-- The entry can be told from what surrounds it in a log. -/
structure Entry.Clean (e : Entry) : Prop where
  command : ¬ blankLine.toList <:+: e.command.toList
  command_end : e.command.toList.getLast? ≠ some '\n'
  stderr : ¬ Bytes.ofText closing <:+: e.stderr

instance (e : Entry) : Decidable e.Clean :=
  decidable_of_iff (¬ blankLine.toList <:+: e.command.toList ∧
      e.command.toList.getLast? ≠ some '\n' ∧ ¬ Bytes.ofText closing <:+: e.stderr)
    ⟨fun h => ⟨h.1, h.2.1, h.2.2⟩, fun h => ⟨h.command, h.command_end, h.stderr⟩⟩

/-- The entry with its output as the text that it spells. -/
def Entry.decoded (e : Entry) : Entry := ⟨e.command, Utf8.encode (Utf8.decodeLossy e.stderr)⟩

/-- The command and the output of the entry as characters. -/
def Entry.chars (e : Entry) : List Char × List Char :=
  (e.command.toList, Utf8.decodeLossy e.stderr)

/-! ### Rendered entries as blocks of characters -/

theorem decodeLossy_append_mark (before : Bytes) (mark : String)
    (ascii : Utf8.IsAscii mark.toList) (ne : mark.toList ≠ []) (after : Bytes) :
    Utf8.decodeLossy (before ++ (Bytes.ofText mark ++ after)) =
      Utf8.decodeLossy before ++ (mark.toList ++ Utf8.decodeLossy after) := by
  unfold Bytes.ofText
  rw [← List.append_assoc, Utf8.decodeLossy_append_encode_append before ascii ne,
    List.append_assoc]

/-- A rendered entry is decoded by itself, whatever surrounds it. -/
theorem decodeLossy_append_render (before : Bytes) (e : Entry) (after : Bytes) :
    Utf8.decodeLossy (before ++ (e.render ++ after)) =
      Utf8.decodeLossy before ++ (charMarks.block e.chars ++ Utf8.decodeLossy after) := by
  simp only [Entry.render, List.append_assoc]
  rw [decodeLossy_append_mark before header (by decide) (by decide),
    decodeLossy_append_mark _ blankLine (by decide) (by decide),
    decodeLossy_append_mark _ closing (by decide) (by decide), Bytes.ofText,
    Utf8.decodeLossy_encode]
  simp only [Marks.block, charMarks, Entry.chars, List.append_assoc]

theorem decodeLossy_append_renders (log : Bytes) (es : List Entry) :
    Utf8.decodeLossy (log ++ es.flatMap Entry.render) =
      Utf8.decodeLossy log ++ (es.map Entry.chars).flatMap charMarks.block := by
  induction es generalizing log with
  | nil => simp
  | cons e es ih =>
    have rest := ih []
    rw [List.nil_append, Utf8.decodeLossy_nil, List.nil_append] at rest
    rw [List.flatMap_cons, decodeLossy_append_render, rest]
    rfl

theorem decodeLossy_renders_append (es : List Entry) (after : Bytes) :
    Utf8.decodeLossy (es.flatMap Entry.render ++ after) =
      (es.map Entry.chars).flatMap charMarks.block ++ Utf8.decodeLossy after := by
  induction es with
  | nil => rfl
  | cons e es ih =>
    have first := decodeLossy_append_render [] e (es.flatMap Entry.render ++ after)
    rw [List.nil_append, Utf8.decodeLossy_nil, List.nil_append, ih] at first
    rw [List.flatMap_cons, List.append_assoc, first, List.map_cons, List.flatMap_cons,
      List.append_assoc]

/-! ### Clean entries are the separable ones -/

theorem infix_append_lineEnd_iff (text : List Char) :
    blankLine.toList <:+: text ++ ['\n'] ↔
      blankLine.toList <:+: text ∨ text.getLast? = some '\n' := by
  rw [List.infix_concat_iff, List.getLast?_eq_some_iff, or_comm]
  apply or_congr_right
  constructor
  · rintro ⟨passed, h⟩
    have shape : passed ++ ['\n'] ++ ['\n'] = text ++ ['\n'] := by simpa [blankLine] using h
    exact ⟨passed, (List.append_cancel_right shape).symm⟩
  · rintro ⟨passed, rfl⟩
    exact ⟨passed, by simp [blankLine]⟩

theorem separable_chars_iff (e : Entry) : charMarks.Separable e.chars ↔ e.Clean := by
  have command : blankLine.toList <:+: e.command.toList ++ charMarks.blankLine.dropLast ↔
      blankLine.toList <:+: e.command.toList ∨ e.command.toList.getLast? = some '\n' :=
    infix_append_lineEnd_iff e.command.toList
  have output : charMarks.closing <:+: Utf8.decodeLossy e.stderr ++ charMarks.closing.dropLast ↔
      Bytes.ofText closing <:+: e.stderr := by
    rw [Text.infix_append_dropLast_iff (by decide) charMarks.closing_ne_nil]
    exact Utf8.infix_decodeLossy_iff (by decide) e.stderr
  constructor
  · intro separable
    have apart := mt command.mpr separable.command
    rw [not_or] at apart
    exact ⟨apart.1, apart.2, mt output.mpr separable.output⟩
  · intro clean
    exact ⟨mt command.mp (not_or.mpr ⟨clean.command, clean.command_end⟩),
      mt output.mp clean.stderr⟩

/-! ### Reading back -/

/-- The entry that is read where a command and an output were found. -/
def Entry.ofChars (found : List Char × List Char) : Entry :=
  ⟨String.ofList found.1, Utf8.encode found.2⟩

theorem ofChars_injective : Function.Injective Entry.ofChars := by
  rintro ⟨command, output⟩ ⟨command', output'⟩ h
  obtain ⟨hcommand, houtput⟩ := Entry.mk.inj h
  obtain rfl : command = command' := String.ofList_injective hcommand
  obtain rfl : output = output' := Utf8.encode_inj houtput
  rfl

theorem entries_eq_map (contents : Bytes) :
    entries contents = (split charMarks (Utf8.decodeLossy contents)).map Entry.ofChars := rfl

theorem entries_nil : entries [] = [] :=
  congrArg (List.map Entry.ofChars) ((split_blocks_iff charMarks []).mpr (by simp))

theorem ofChars_chars (e : Entry) : Entry.ofChars e.chars = e.decoded := by
  simp [Entry.ofChars, Entry.chars, Entry.decoded]

theorem chars_ofChars (found : List Char × List Char) : (Entry.ofChars found).chars = found := by
  simp [Entry.ofChars, Entry.chars, Utf8.decodeLossy_encode]

theorem render_ofChars (found : List Char × List Char) :
    (Entry.ofChars found).render = Utf8.encode (charMarks.block found) := by
  simp only [Entry.render, Entry.ofChars, Marks.block, charMarks, Utf8.encode_append,
    Bytes.ofText, String.toList_ofList]

theorem not_closing_infix (n : Nat) :
    ¬ Bytes.ofText closing <:+:
      Bytes.ofText header ++ Bytes.ofText footer ++ List.replicate n 0x3D := by
  -- The closing has two line ends in a row, and the text has none.
  have lines : List.IsChain (fun a b : UInt8 => ¬ (a = 0x0A ∧ b = 0x0A))
      (Bytes.ofText header ++ Bytes.ofText footer) := by decide +kernel
  have tail : List.IsChain (fun a b : UInt8 => ¬ (a = 0x0A ∧ b = 0x0A))
      (List.replicate n 0x3D) := List.isChain_replicate_of_rel n (by decide)
  have chain := lines.append tail (by
    intro a _ b hb
    have equal : b = 0x3D := List.eq_of_mem_replicate (List.mem_of_mem_head? hb)
    rintro ⟨-, line_end⟩
    exact absurd (equal.symm.trans line_end) (by decide))
  intro inside
  have apart := List.IsChain.infix chain inside
  exact absurd apart (by decide +kernel)

/-- **Entries that are appended to a log are read back behind those of the log, in order and as
they were written, exactly if all of them are clean.** The log may hold anything but an open header
at its end. -/
theorem entries_append_render_iff (log : Bytes) (es : List Entry)
    (free : ¬ header.toList <:+: remainder charMarks (Utf8.decodeLossy log)) :
    (entries (log ++ es.flatMap Entry.render) = entries log ++ es.map Entry.decoded ↔
        ∀ e ∈ es, e.Clean) ∧
      ∀ e : Entry, e.Clean → ∀ n, Entry.Clean ⟨e.command,
        Bytes.ofText header ++ Bytes.ofText footer ++ List.replicate n 0x3D⟩ := by
  constructor
  · have open_end : ¬ charMarks.header <:+:
        remainder charMarks (Utf8.decodeLossy log) ++ charMarks.header.dropLast := by
      rw [Text.infix_append_dropLast_iff (by decide) charMarks.header_ne_nil]
      exact free
    have blocks := split_append_blocks_iff charMarks open_end (es.map Entry.chars)
    have expected : entries log ++ es.map Entry.decoded =
        (split charMarks (Utf8.decodeLossy log) ++ es.map Entry.chars).map Entry.ofChars := by
      rw [List.map_append, List.map_map, entries_eq_map]
      congr 2
      exact funext fun e => (ofChars_chars e).symm
    rw [expected, entries_eq_map, decodeLossy_append_renders,
      (List.map_injective_iff.mpr ofChars_injective).eq_iff, blocks, List.forall_mem_map]
    exact forall₂_congr fun e _ => separable_chars_iff e
  · intro e clean n
    exact ⟨clean.command, clean.command_end, not_closing_infix n⟩

/-- Behind a line of another program and an entry, output with a broken character, a lone footer
and no line end is read back, and output that closes its own entry is not. -/
theorem entries_append_render_damaged :
    let log := Bytes.ofText "make: done\n" ++ Entry.render ⟨"cc a.c", [0xFF, 0x0A]⟩
    let clean : Entry := ⟨"cc -Wall b.c", Bytes.ofText footer ++ [0xC3, 0x3D]⟩
    let torn : Entry := ⟨"cc c.c", Bytes.ofText closing⟩
    ¬ header.toList <:+: remainder charMarks (Utf8.decodeLossy log) ∧
      entries (log ++ [clean].flatMap Entry.render) = entries log ++ [clean].map Entry.decoded ∧
      entries (log ++ [clean, torn].flatMap Entry.render) ≠
        entries log ++ [clean, torn].map Entry.decoded := by
  intro log clean torn
  have free : ¬ header.toList <:+: remainder charMarks (Utf8.decodeLossy log) := by
    have found : splitFirst? charMarks (Utf8.decodeLossy log) =
        some (Entry.chars ⟨"cc a.c", [0xFF, 0x0A]⟩, []) := by decide +kernel
    rw [remainder_of_some found, remainder_of_none (by decide +kernel)]
    decide +kernel
  refine ⟨free, ?_, ?_⟩
  · exact (entries_append_render_iff log [clean] free).1.mpr (by decide +kernel)
  · exact mt (entries_append_render_iff log [clean, torn] free).1.mp (by decide +kernel)

end CompilerWrapper.Log
