import CompilerWrapper.Proofs.Log.Counting
import CompilerWrapper.Proofs.Text.Damage

/-!
# What a log is made of

A log may hold anything, and still every part of it is accounted for. `split_eq_iff` says that a
text is read as some entries exactly if it is made of their blocks, in order, each of them behind a
gap in which no header is, and of a tail in which the marks of an entry do not follow each other.

`entries_eq_iff` says this of the bytes of a log, whatever they are. The entries that are read from
one are clean and hold text alone, so they are read again from a log in which they are written.
-/

namespace CompilerWrapper.Log

section Pieces

variable {α : Type} {m : Marks α}

/-- A text of blocks with gaps before them and a tail behind the last one. -/
def Marks.compose (m : Marks α) (pieces : List (List α × (List α × List α))) (tail : List α) :
    List α :=
  (pieces.flatMap fun piece => piece.1 ++ m.block piece.2) ++ tail

theorem compose_cons (gap : List α) (entry : List α × List α)
    (pieces : List (List α × (List α × List α))) (tail : List α) :
    m.compose ((gap, entry) :: pieces) tail = gap ++ (m.block entry ++ m.compose pieces tail) := by
  simp only [Marks.compose, List.flatMap_cons, List.append_assoc]

/-- The blocks and the tail are where they are found: no header is in a gap, no other mark before
its place, and no entry in the tail. -/
structure Marks.Composed (m : Marks α) (pieces : List (List α × (List α × List α)))
    (tail : List α) : Prop where
  gap : ∀ piece ∈ pieces, ¬ m.header <:+: piece.1
  separable : ∀ piece ∈ pieces, m.Separable piece.2
  tail : ¬ Text.InOrder m.round tail

variable [DecidableEq α]

/-- The first entry was found behind a gap without a header, and its block is what follows. -/
theorem exists_block_of_splitFirst? {text rest : List α} {entry : List α × List α}
    (found : splitFirst? m text = some (entry, rest)) :
    ∃ gap, text = gap ++ (m.block entry ++ rest) ∧
      ¬ m.header <:+: gap ++ m.header.dropLast ∧ m.Separable entry := by
  have marks := found
  simp only [splitFirst?, Option.bind_eq_bind, Option.bind_eq_some_iff, Prod.exists] at marks
  obtain ⟨gap, body, header, command, behind, blank, output, after, closing, same⟩ := marks
  obtain ⟨rfl, rfl⟩ := Prod.mk.inj (Option.some.inj same)
  have shape : text = gap ++ (m.block (command, output) ++ after) := by
    rw [Text.append_of_splitFirst? header, Text.append_of_splitFirst? blank,
      Text.append_of_splitFirst? closing]
    simp only [Marks.block, List.append_assoc]
  have free : ¬ m.header <:+: gap ++ m.header.dropLast := by
    rw [← Text.splitFirst?_append_mark_iff m.header_ne_nil body,
      ← Text.append_of_splitFirst? header]
    exact header
  rw [shape] at found
  exact ⟨gap, shape, free, separable_of_splitFirst? free found⟩

/-- **A text is read as the entries of which it is made**, as long as a header cannot run into
another one. -/
theorem split_eq_iff (unbordered : Text.Unbordered m.header) {text : List α}
    {entries : List (List α × List α)} :
    split m text = entries ↔
      ∃ pieces tail, m.Composed pieces tail ∧ pieces.map Prod.snd = entries ∧
        text = m.compose pieces tail := by
  have apart : ∀ gap, ¬ m.header <:+: gap ++ m.header.dropLast ↔ ¬ m.header <:+: gap := fun _ =>
    not_congr (Text.infix_append_dropLast_iff unbordered m.header_ne_nil)
  constructor
  · rintro rfl
    induction text using split.induct m with
    | case1 text none =>
      have empty := split_of_none none
      exact ⟨[], text, ⟨by simp, by simp, split_eq_nil_iff.mp empty⟩, empty.symm, rfl⟩
    | case2 text entry rest first ih =>
      obtain ⟨pieces, tail, composed, read, rfl⟩ := ih
      obtain ⟨gap, rfl, free, separable⟩ := exists_block_of_splitFirst? first
      refine ⟨(gap, entry) :: pieces, tail, ⟨?_, ?_, composed.tail⟩, ?_, ?_⟩
      · exact List.forall_mem_cons.mpr ⟨(apart gap).mp free, composed.gap⟩
      · exact List.forall_mem_cons.mpr ⟨separable, composed.separable⟩
      · rw [split_of_some first, List.map_cons, read]
      · rw [compose_cons]
  · rintro ⟨pieces, tail, ⟨gaps, separable, ends⟩, rfl, rfl⟩
    induction pieces with
    | nil => exact split_eq_nil_iff.mpr ends
    | cons piece pieces ih =>
      obtain ⟨gap, entry⟩ := piece
      obtain ⟨free, gaps⟩ := List.forall_mem_cons.mp gaps
      obtain ⟨first, separable⟩ := List.forall_mem_cons.mp separable
      rw [compose_cons, List.map_cons]
      exact (split_append_block_iff ((apart gap).mpr free) entry _ _).mpr
        ⟨first, ih gaps separable⟩

end Pieces

/-! ### The entries of a log -/

/-- The text of a log is made of the blocks of entries that are clean and hold text alone, each
behind a gap in which no header is, and of a tail in which no header, empty line and closing follow
each other. -/
structure Composition (contents : Bytes) (pieces : List (List Char × Entry)) (tail : List Char) :
    Prop where
  text : Utf8.encode (Utf8.decodeLossy contents) =
    (pieces.flatMap fun piece => Utf8.encode piece.1 ++ piece.2.render) ++ Utf8.encode tail
  gap : ∀ piece ∈ pieces, ¬ header.toList <:+: piece.1
  clean : ∀ piece ∈ pieces, piece.2.Clean
  valid : ∀ piece ∈ pieces, (Utf8.decode? piece.2.stderr).isSome
  tail : ¬ Text.InOrder [header.toList, blankLine.toList, closing.toList] tail

/-- An entry that holds text alone is read back as it is. -/
theorem decoded_of_valid {e : Entry} (valid : (Utf8.decode? e.stderr).isSome) : e.decoded = e := by
  obtain ⟨output, known⟩ := Option.isSome_iff_exists.mp valid
  have same := Utf8.decode?_eq_some_iff.mp known
  rw [Entry.decoded, same, Utf8.decodeLossy_encode, ← same]

theorem isSome_decode?_encode (text : List Char) : (Utf8.decode? (Utf8.encode text)).isSome := by
  rw [Utf8.decode?_eq_some_iff.mpr rfl]
  rfl

/-- Gaps with entries behind them that hold text alone, and a tail, written one behind the other. -/
theorem encode_compose {pieces : List (List Char × Entry)} (tail : List Char)
    (valid : ∀ piece ∈ pieces, (Utf8.decode? piece.2.stderr).isSome) :
    Utf8.encode (charMarks.compose (pieces.map fun piece => (piece.1, piece.2.chars)) tail) =
      (pieces.flatMap fun piece => Utf8.encode piece.1 ++ piece.2.render) ++ Utf8.encode tail := by
  induction pieces with
  | nil => rfl
  | cons piece pieces ih =>
    obtain ⟨first, rest⟩ := List.forall_mem_cons.mp valid
    have block : Utf8.encode (charMarks.block piece.2.chars) = piece.2.render := by
      rw [← render_ofChars, ofChars_chars, decoded_of_valid first]
    rw [List.map_cons, compose_cons, Utf8.encode_append, Utf8.encode_append, block, ih rest,
      List.flatMap_cons, List.append_assoc, List.append_assoc]

/-- Every log is made of the entries that are read from it. -/
theorem exists_composition (contents : Bytes) :
    ∃ pieces tail, Composition contents pieces tail ∧ pieces.map Prod.snd = entries contents := by
  have composition := @split_eq_iff _ charMarks _ (by decide) (Utf8.decodeLossy contents)
  obtain ⟨pieces, tail, composed, read, text⟩ := composition.mp rfl
  have valid : ∀ piece ∈ pieces.map fun piece => (piece.1, Entry.ofChars piece.2),
      (Utf8.decode? piece.2.stderr).isSome :=
    List.forall_mem_map.mpr fun piece _ => isSome_decode?_encode piece.2.2
  refine ⟨pieces.map fun piece => (piece.1, Entry.ofChars piece.2), tail, ?_, ?_⟩
  · constructor
    case text =>
      have same : ((pieces.map fun piece => (piece.1, Entry.ofChars piece.2)).map
          fun piece => (piece.1, piece.2.chars)) = pieces := by
        simp [Function.comp_def, chars_ofChars]
      rw [← encode_compose tail valid, same, text]
    case gap => exact List.forall_mem_map.mpr composed.gap
    case clean =>
      refine List.forall_mem_map.mpr fun piece mem => ?_
      rw [← separable_chars_iff, chars_ofChars]
      exact composed.separable piece mem
    case valid => exact valid
    case tail => exact composed.tail
  · rw [entries_eq_map, ← read, List.map_map, List.map_map]
    rfl

/-- From a log the entries are read of which it is made. -/
theorem entries_of_composition {contents : Bytes} {pieces : List (List Char × Entry)}
    {tail : List Char} (composition : Composition contents pieces tail) :
    entries contents = pieces.map Prod.snd := by
  have text := composition.text
  rw [← encode_compose tail composition.valid] at text
  have composed : charMarks.Composed (pieces.map fun piece => (piece.1, piece.2.chars)) tail := by
    constructor
    case gap => exact List.forall_mem_map.mpr composition.gap
    case separable =>
      exact List.forall_mem_map.mpr fun piece mem =>
        (separable_chars_iff piece.2).mpr (composition.clean piece mem)
    case tail => exact composition.tail
  have read := (split_eq_iff (by decide)).mpr ⟨_, tail, composed, rfl, Utf8.encode_inj text⟩
  rw [entries_eq_map, read, List.map_map, List.map_map]
  refine List.map_congr_left fun piece mem => ?_
  exact (ofChars_chars piece.2).trans (decoded_of_valid (composition.valid piece mem))

/-- What was read and is written again is read again. -/
theorem entries_renders_entries (contents : Bytes) :
    entries ((entries contents).flatMap Entry.render) = entries contents := by
  obtain ⟨pieces, tail, composition, read⟩ := exists_composition contents
  have clean : ∀ e ∈ entries contents, e.Clean :=
    read ▸ List.forall_mem_map.mpr composition.clean
  have valid : ∀ e ∈ entries contents, (Utf8.decode? e.stderr).isSome :=
    read ▸ List.forall_mem_map.mpr composition.valid
  have again := entries_renders_append clean []
  rw [List.append_nil, entries_nil, List.append_nil] at again
  calc entries ((entries contents).flatMap Entry.render)
      = (entries contents).map Entry.decoded := again
    _ = (entries contents).map id := List.map_congr_left fun e mem => decoded_of_valid (valid e mem)
    _ = entries contents := List.map_id _

/-- **Whatever the bytes of a log are, what is read accounts for all of their text.** Entries are
read from a log exactly if it is made of them: of their blocks, in order, of gaps before them, and
of a tail that has no entry in it. So a log in which they are written is read as the same entries. -/
theorem entries_eq_iff (contents : Bytes) :
    (∀ es, entries contents = es ↔
      ∃ pieces tail, Composition contents pieces tail ∧ pieces.map Prod.snd = es) ∧
      entries ((entries contents).flatMap Entry.render) = entries contents := by
  refine ⟨fun es => ⟨?_, ?_⟩, entries_renders_entries contents⟩
  · rintro rfl
    exact exists_composition contents
  · rintro ⟨pieces, tail, composition, rfl⟩
    exact entries_of_composition composition

end CompilerWrapper.Log
