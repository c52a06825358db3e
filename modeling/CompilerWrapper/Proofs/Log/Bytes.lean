import CompilerWrapper.Proofs.Log.RoundTrip
import CompilerWrapper.Proofs.Text.Damage

/-!
# Taking a log apart as bytes

A log is decoded as a whole before it is taken apart. `entries_eq_map_bytes` says that this moves no
boundary: the same entries are found if the bytes are taken apart by the same rule and each command
and each output is decoded by itself, and in each of them only what is damaged is changed.

The reason is that the first occurrence of an ASCII mark is the same one in the bytes and in the
text (`splitFirst?_decodeLossy`). Damaged bytes may reach up to a mark, but no ASCII byte is ever
taken into them.
-/

namespace CompilerWrapper.Utf8

theorem dropLast_encode {text : List Char} (ascii : IsAscii text) :
    (encode text).dropLast = encode text.dropLast := by
  rcases List.eq_nil_or_concat text with rfl | ⟨front, c, rfl⟩
  · rfl
  · have last : encode [c] = [UInt8.ofNat c.toNat] := by
      rw [encode_cons, encodeChar_ascii (ascii c (by simp))]
      rfl
    rw [List.concat_eq_append, encode_append, last, List.dropLast_concat, List.dropLast_concat]

theorem decodeLossy_append_encode (before : Bytes) {text : List Char} (ascii : IsAscii text) :
    decodeLossy (before ++ encode text) = decodeLossy before ++ text := by
  by_cases ne : text = []
  · subst ne
    simp
  · have cut := decodeLossy_append_encode_append before ascii ne []
    rwa [List.append_nil, decodeLossy_nil, List.append_nil] at cut

/-- **The first occurrence of an ASCII mark is the same one in the bytes and in their text.** -/
theorem splitFirst?_decodeLossy {mark : List Char} (ascii : IsAscii mark) (ne : mark ≠ [])
    (bs : Bytes) :
    Text.splitFirst? mark (decodeLossy bs) =
      (Text.splitFirst? (encode mark) bs).map fun cut => (decodeLossy cut.1, decodeLossy cut.2) := by
  cases cut : Text.splitFirst? (encode mark) bs with
  | none =>
    rw [Text.splitFirst?_eq_none_iff, ← infix_decodeLossy_iff ascii] at cut
    exact Text.splitFirst?_eq_none_iff.mpr cut
  | some found =>
    obtain ⟨before, after⟩ := found
    have encode_ne : encode mark ≠ [] := fun empty => ne (encode_inj empty)
    have whole := Text.append_of_splitFirst? cut
    rw [whole, Text.splitFirst?_append_mark_iff encode_ne, dropLast_encode ascii,
      ← infix_decodeLossy_iff ascii,
      decodeLossy_append_encode before fun c mem => ascii c (List.mem_of_mem_dropLast mem)] at cut
    rw [whole, decodeLossy_append_encode_append before ascii ne]
    exact (Text.splitFirst?_append_mark_iff ne _).mpr cut

end CompilerWrapper.Utf8

namespace CompilerWrapper.Log

theorem splitFirst?_decodeLossy_mark (mark : String) (ascii : Utf8.IsAscii mark.toList)
    (ne : mark.toList ≠ []) (bs : Bytes) :
    Text.splitFirst? mark.toList (Utf8.decodeLossy bs) =
      (Text.splitFirst? (Bytes.ofText mark) bs).map fun cut =>
        (Utf8.decodeLossy cut.1, Utf8.decodeLossy cut.2) :=
  Utf8.splitFirst?_decodeLossy ascii ne bs

/-- A first entry is found in the bytes where it is found in their text. -/
theorem splitFirst?_decodeLossy (bs : Bytes) :
    splitFirst? charMarks (Utf8.decodeLossy bs) = (splitFirst? byteMarks bs).map fun found =>
      ((Utf8.decodeLossy found.1.1, Utf8.decodeLossy found.1.2), Utf8.decodeLossy found.2) := by
  simp only [splitFirst?, charMarks, byteMarks, Option.bind_eq_bind]
  rw [splitFirst?_decodeLossy_mark header (by decide) (by decide)]
  cases Text.splitFirst? (Bytes.ofText header) bs with
  | none => rfl
  | some begun =>
    simp only [Option.map_some, Option.bind_some]
    rw [splitFirst?_decodeLossy_mark blankLine (by decide) (by decide)]
    cases Text.splitFirst? (Bytes.ofText blankLine) begun.2 with
    | none => rfl
    | some named =>
      simp only [Option.map_some, Option.bind_some]
      rw [splitFirst?_decodeLossy_mark closing (by decide) (by decide)]
      cases Text.splitFirst? (Bytes.ofText closing) named.2 with
      | none => rfl
      | some ended => rfl

/-- **Decoding first and taking apart then gives what taking apart first and decoding then gives.** -/
theorem split_decodeLossy (bs : Bytes) :
    split charMarks (Utf8.decodeLossy bs) = (split byteMarks bs).map fun found =>
      (Utf8.decodeLossy found.1, Utf8.decodeLossy found.2) := by
  induction bs using split.induct byteMarks with
  | case1 bs none =>
    have text := splitFirst?_decodeLossy bs
    rw [none, Option.map_none] at text
    rw [split_of_none none, split_of_none text, List.map_nil]
  | case2 bs entry rest first ih =>
    have text := splitFirst?_decodeLossy bs
    rw [first, Option.map_some] at text
    rw [split_of_some first, split_of_some text, ih, List.map_cons]

/-- The entry of which the bytes of a command and of an output were found, each decoded by itself. -/
def Entry.ofBytes (found : Bytes × Bytes) : Entry :=
  ⟨found.1.toText, .ofText found.2.toText⟩

/-- **Decoding a log before it is taken apart changes no boundary in it.** What is read are the
entries that are found in the bytes, with each command and each output decoded by itself; and that
puts a replacement character in the place of each damaged piece and leaves all other bytes alone. -/
theorem entries_eq_map_bytes (contents : Bytes) :
    entries contents = (split byteMarks contents).map Entry.ofBytes ∧
      ∀ found ∈ split byteMarks contents,
        Utf8.Mends found.1 (.ofText (Entry.ofBytes found).command) ∧
          Utf8.Mends found.2 (Entry.ofBytes found).stderr := by
  have decoded : ∀ bs : Bytes, Bytes.ofText bs.toText = Utf8.encode (Utf8.decodeLossy bs) :=
    fun bs => congrArg Utf8.encode String.toList_ofList
  constructor
  · rw [entries_eq_map, split_decodeLossy, List.map_map]
    refine List.map_congr_left fun found _ => ?_
    rw [Entry.ofBytes, decoded]
    rfl
  · intro found _
    exact ⟨Utf8.mends_iff.mpr (decoded found.1), Utf8.mends_iff.mpr (decoded found.2)⟩

end CompilerWrapper.Log
