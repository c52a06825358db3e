import CompilerWrapper.Proofs.Log.Counting

/-!
# A log that is being written

Whoever reads a log while it is written sees a beginning of it, which may end anywhere: between two
blocks, in a mark, or within a character. `entries_take` says what is read there. An entry is
reported exactly if its whole block, the empty line behind it included, lies within the beginning;
so later readings report what earlier ones did, with more entries behind it.

All but the last block of a beginning are whole. What is there of the last one has not yet all marks
of an entry in it (`split_torn`), and so no entry is found in it.
-/

namespace CompilerWrapper.Log

/-! ### The block that is not whole yet -/

/-- **No entry is found in a beginning of a block.** -/
theorem split_torn {e : Entry} (clean : e.Clean) {torn : Bytes} (begins : torn <+: e.render)
    (proper : torn ≠ e.render) : split charMarks (Utf8.decodeLossy torn) = [] := by
  rw [split_eq_nil_iff]
  intro round
  by_cases long : (Bytes.ofText header).length ≤ torn.length
  · have no_header := not_header_infix_nil charMarks
    rcases cases_of_torn clean begins proper long with ⟨part, no_blank, text⟩ | ⟨part, open_end, text⟩
    · rw [text, ← List.nil_append charMarks.header] at round
      have behind := (Text.inOrder_append_mark_iff charMarks.header_ne_nil no_header part).mp round
      obtain ⟨command, rest, rfl, -⟩ := behind
      exact no_blank ⟨command, rest, rfl⟩
    · have no_blank := ((separable_chars_iff e).mpr clean).command
      have shape : charMarks.header ++ e.command.toList ++ charMarks.blankLine ++ part =
          [] ++ charMarks.header ++ (e.command.toList ++ charMarks.blankLine ++ part) := by
        simp only [List.nil_append, List.append_assoc]
      rw [text, shape] at round
      have behind := (Text.inOrder_append_mark_iff charMarks.header_ne_nil no_header _).mp round
      have closed := (Text.inOrder_append_mark_iff charMarks.blankLine_ne_nil no_blank part).mp behind
      obtain ⟨output, rest, rfl, -⟩ := closed
      exact open_end ⟨output, rest, rfl⟩
  · obtain ⟨gap, body, text, -⟩ := round
    have inside : Bytes.ofText header <:+: torn :=
      (Utf8.infix_decodeLossy_iff (by decide) torn).mp ⟨gap, body, text.symm⟩
    exact long inside.length_le

theorem entries_torn_alone {e : Entry} (clean : e.Clean) {torn : Bytes} (begins : torn <+: e.render)
    (proper : torn ≠ e.render) : entries torn = [] := by
  rw [entries_eq_map, split_torn clean begins proper, List.map_nil]

/-! ### The beginnings of a log -/

/-- How many bytes a log of the entries has up to the end of the block of the `i`-th one. -/
def blockEnd (es : List Entry) (i : Nat) : Nat := ((es.take (i + 1)).flatMap Entry.render).length

theorem blockEnd_cons_zero (e : Entry) (es : List Entry) :
    blockEnd (e :: es) 0 = e.render.length := by
  simp [blockEnd]

theorem blockEnd_cons_succ (e : Entry) (es : List Entry) (i : Nat) :
    blockEnd (e :: es) (i + 1) = e.render.length + blockEnd es i := by
  simp [blockEnd]

theorem length_render_le_blockEnd (e : Entry) (es : List Entry) (i : Nat) :
    e.render.length ≤ blockEnd (e :: es) i := by
  cases i with
  | zero => exact (blockEnd_cons_zero e es).ge
  | succ i =>
    rw [blockEnd_cons_succ]
    exact Nat.le_add_right _ _

/-- Of a log of clean entries, those are read in a beginning whose blocks end in it. -/
theorem exists_entries_take {es : List Entry} (clean : ∀ e ∈ es, e.Clean) (k : Nat) :
    ∃ n, entries ((es.flatMap Entry.render).take k) = (es.take n).map Entry.decoded ∧
      ∀ i < es.length, i < n ↔ blockEnd es i ≤ k := by
  induction es generalizing k with
  | nil => exact ⟨0, by rw [List.flatMap_nil, List.take_nil, entries_nil]; rfl, by simp⟩
  | cons e es ih =>
    obtain ⟨first, rest⟩ := List.forall_mem_cons.mp clean
    rw [List.flatMap_cons]
    by_cases whole : e.render.length ≤ k
    · obtain ⟨n, read, ends⟩ := ih rest (k - e.render.length)
      have alone : ∀ b ∈ [e], b.Clean := by simpa using first
      have block := entries_renders_append alone
        ((es.flatMap Entry.render).take (k - e.render.length))
      refine ⟨n + 1, ?_, ?_⟩
      · rw [List.take_append, List.take_of_length_le whole, List.take_succ_cons, List.map_cons,
          ← read]
        simpa using block
      · intro i inside
        cases i with
        | zero => simp [blockEnd_cons_zero, whole]
        | succ i =>
          rw [Nat.add_lt_add_iff_right, ends i (Nat.lt_of_succ_lt_succ inside), blockEnd_cons_succ]
          omega
    · have short : k ≤ e.render.length := Nat.le_of_not_le whole
      refine ⟨0, ?_, ?_⟩
      · rw [List.take_append_of_le_length short, List.take_zero, List.map_nil]
        refine entries_torn_alone first (List.take_prefix k _) fun same => whole ?_
        have length := congrArg List.length same
        rw [List.length_take] at length
        omega
      · intro i _
        have := length_render_le_blockEnd e es i
        omega

/-- **Of a log that is being written, exactly the finished entries are read.** Whichever beginning
of a log of clean entries is read, an entry is reported if and only if its whole block lies in it,
and a longer beginning gives the same entries and perhaps more behind them. -/
theorem entries_take {es : List Entry} (clean : ∀ e ∈ es, e.Clean) :
    (∀ k, ∃ n, entries ((es.flatMap Entry.render).take k) = (es.take n).map Entry.decoded ∧
        ∀ i < es.length, i < n ↔ blockEnd es i ≤ k) ∧
      ∀ j k, j ≤ k → entries ((es.flatMap Entry.render).take j) <+:
        entries ((es.flatMap Entry.render).take k) := by
  refine ⟨exists_entries_take clean, ?_⟩
  intro j k le
  obtain ⟨n, read, ends⟩ := exists_entries_take clean j
  obtain ⟨n', read', ends'⟩ := exists_entries_take clean k
  rw [read, read']
  by_cases more : n ≤ n'
  · exact (List.take_prefix_take_left more).map _
  · -- Only entries that are not there could be read later and not before.
    have all : es.length ≤ n' := by
      by_contra inside
      have inside := Nat.lt_of_not_le inside
      exact absurd ((ends' n' inside).mpr (((ends n' inside).mp (Nat.lt_of_not_le more)).trans le))
        (Nat.lt_irrefl n')
    rw [List.take_of_length_le all, List.take_of_length_le (by omega)]

/-- Where all of a second entry but its last line end was written, whose output is the beginning of
another entry, only the first one is reported. -/
theorem entries_take_unfinished :
    let es : List Entry := [⟨"cc a.c", [0xFF, 0x3D]⟩, ⟨"cc b.c", .ofText header ++ .ofText footer⟩]
    (∀ e ∈ es, e.Clean) ∧
      entries ((es.flatMap Entry.render).take (blockEnd es 1 - 1)) =
        (es.take 1).map Entry.decoded := by
  intro es
  have clean : ∀ e ∈ es, e.Clean := by decide +kernel
  obtain ⟨n, read, ends⟩ := (entries_take clean).1 (blockEnd es 1 - 1)
  have first : 0 < n := (ends 0 (by decide)).mpr (by decide +kernel)
  have second : ¬ 1 < n := mt (ends 1 (by decide)).mp (by decide +kernel)
  obtain rfl : n = 1 := by omega
  exact ⟨clean, read⟩

end CompilerWrapper.Log
