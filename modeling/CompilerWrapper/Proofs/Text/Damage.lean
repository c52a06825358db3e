import CompilerWrapper.Proofs.Text.Utf8

/-!
# What is damaged in a text

What decoding reads as a character are the bytes of that character and no others. So bytes that
spell a text are those that the text is written as (`decode?_eq_some_iff`), and of other bytes a
lossy reading changes nothing but what is damaged (`mends_iff`).

A piece of the bytes is *damaged* if no character begins where it does. It is one byte, or a
beginning of a character, and it is as long as it can be (`Damaged`). Which bytes these are is said
without the decoder; for the decoder it follows from `State.Began`: a state stands for a range of
numbers, and each of them is written with the bytes that were read.
-/

namespace CompilerWrapper.Utf8

/-! ### Characters that were begun -/

theorem toNat_ofNat {v : Nat} (valid : v.isValidChar) : (Char.ofNat v).val.toNat = v := by
  rw [Char.ofNat, dif_pos valid]
  rfl

theorem encodeChar_two {v : Nat} (hlow : 0x80 ≤ v) (hhigh : v < 0x800) :
    String.utf8EncodeChar (Char.ofNat v) =
      [UInt8.ofNat (v / 64 % 32 + 192), UInt8.ofNat (v % 64 + 128)] := by
  have number := toNat_ofNat (v := v) (Or.inl (by omega))
  have h1 : ¬ v ≤ 0x7F := by omega
  have h2 : v ≤ 0x7FF := by omega
  simp only [String.utf8EncodeChar, number, h1, h2, if_true, if_false]

theorem encodeChar_three {v : Nat} (hlow : 0x800 ≤ v) (hhigh : v < 0x10000)
    (valid : v < 0xD800 ∨ 0xDFFF < v) :
    String.utf8EncodeChar (Char.ofNat v) = [UInt8.ofNat (v / 4096 % 16 + 224),
      UInt8.ofNat (v / 64 % 64 + 128), UInt8.ofNat (v % 64 + 128)] := by
  have number := toNat_ofNat (v := v) (by unfold Nat.isValidChar; omega)
  have h1 : ¬ v ≤ 0x7F := by omega
  have h2 : ¬ v ≤ 0x7FF := by omega
  have h3 : v ≤ 0xFFFF := by omega
  simp only [String.utf8EncodeChar, number, h1, h2, h3, if_true, if_false]

theorem encodeChar_four {v : Nat} (hlow : 0x10000 ≤ v) (hhigh : v < 0x110000) :
    String.utf8EncodeChar (Char.ofNat v) = [UInt8.ofNat (v / 262144 % 8 + 240),
      UInt8.ofNat (v / 4096 % 64 + 128), UInt8.ofNat (v / 64 % 64 + 128),
      UInt8.ofNat (v % 64 + 128)] := by
  have number := toNat_ofNat (v := v) (by unfold Nat.isValidChar; omega)
  have h1 : ¬ v ≤ 0x7F := by omega
  have h2 : ¬ v ≤ 0x7FF := by omega
  have h3 : ¬ v ≤ 0xFFFF := by omega
  simp only [String.utf8EncodeChar, number, h1, h2, h3, if_false]

/-- The last `more + 1` bytes of a character with the number `v`, six bits in each. -/
def tails (v : Nat) : (more : Nat) → Bytes
  | 0 => [UInt8.ofNat (v % 64 + 128)]
  | more + 1 => UInt8.ofNat (v / 64 ^ (more + 1) % 64 + 128) :: tails v more

/-- The state is inside of a character whose first bytes are `read`: every number that it can still
come to is written with these bytes first. -/
def State.Began : State → (read : Bytes) → Prop
  | .start, _ => False
  | .inside value more low high _, read => low ≤ high ∧ high ≤ 0xBF ∧
      ∀ v, (value * 64 + (low.toNat - 0x80)) * 64 ^ more ≤ v →
        v < (value * 64 + (high.toNat - 0x80) + 1) * 64 ^ more →
          String.utf8EncodeChar (Char.ofNat v) = read ++ tails v more

theorem began_two {n : Nat} (hlow : 0xC2 ≤ n) (hhigh : n < 0xE0) :
    (State.inside (n % 32) 0 0x80 0xBF (by decide)).Began [UInt8.ofNat n] := by
  refine ⟨by decide, by decide, fun v least most => ?_⟩
  simp only [UInt8.reduceToNat, Nat.pow_zero, Nat.mul_one] at least most
  have lead : v / 64 % 32 + 192 = n := by omega
  rw [encodeChar_two (by omega) (by omega), lead]
  rfl

theorem began_three {n : Nat} (hlow : 0xE0 ≤ n) (hhigh : n < 0xF0)
    (tail : 0x80 ≤ if n = 0xE0 then (0xA0 : UInt8) else 0x80) :
    (State.inside (n % 16) 1 (if n = 0xE0 then 0xA0 else 0x80) (if n = 0xED then 0x9F else 0xBF)
      tail).Began [UInt8.ofNat n] := by
  refine ⟨by split <;> split <;> simp_all, by split <;> decide, fun v least most => ?_⟩
  have range : (n % 16 * 64 + 0) * 64 ≤ v ∧ v < (n % 16 * 64 + 64) * 64 ∧
      (n = 0xE0 → 0x800 ≤ v) ∧ (n = 0xED → v < 0xD800) := by
    simp only [Nat.pow_one] at least most
    split at least <;> split at most <;>
      simp only [UInt8.reduceToNat] at least most <;> omega
  have lead : v / 4096 % 16 + 224 = n := by omega
  rw [encodeChar_three (by omega) (by omega) (by omega), lead]
  rfl

theorem began_four {n : Nat} (hlow : 0xF0 ≤ n) (hhigh : n < 0xF5)
    (tail : 0x80 ≤ if n = 0xF0 then (0x90 : UInt8) else 0x80) :
    (State.inside (n % 8) 2 (if n = 0xF0 then 0x90 else 0x80) (if n = 0xF4 then 0x8F else 0xBF)
      tail).Began [UInt8.ofNat n] := by
  refine ⟨by split <;> split <;> simp_all, by split <;> decide, fun v least most => ?_⟩
  have range : (n % 8 * 64 + 0) * 4096 ≤ v ∧ v < (n % 8 * 64 + 64) * 4096 ∧
      (n = 0xF0 → 0x10000 ≤ v) ∧ (n = 0xF4 → v < 0x110000) := by
    simp only [Nat.reducePow] at least most
    split at least <;> split at most <;>
      simp only [UInt8.reduceToNat] at least most <;> omega
  have lead : v / 262144 % 8 + 240 = n := by omega
  rw [encodeChar_four (by omega) (by omega), lead]
  rfl

/-- A first byte is a character, or it can be in none, or a character begins with it. -/
theorem cases_of_first (b : UInt8) :
    (∃ c, String.utf8EncodeChar c = [b] ∧ first b = ([some c], .start)) ∨
      first b = ([none], .start) ∨ ∃ s, first b = ([], s) ∧ s.Began [b] := by
  obtain ⟨n, byte, rfl⟩ : ∃ n, n < 256 ∧ b = UInt8.ofNat n :=
    ⟨b.toNat, b.toNat_lt, UInt8.ofNat_toNat.symm⟩
  obtain ascii | outside | two | three | four : n < 0x80 ∨ (0x80 ≤ n ∧ n < 0xC2 ∨ 0xF5 ≤ n) ∨
      (0xC2 ≤ n ∧ n < 0xE0) ∨ (0xE0 ≤ n ∧ n < 0xF0) ∨ 0xF0 ≤ n ∧ n < 0xF5 := by omega
  · have number : (Char.ofNat n).toNat = n := toNat_ofNat (Or.inl (by omega))
    refine Or.inl ⟨_, ?_, first_one ascii⟩
    rw [encodeChar_ascii (by rwa [number]), number]
  · exact Or.inr (Or.inl (first_none outside byte))
  · exact Or.inr (Or.inr ⟨_, first_two two.1 two.2, began_two two.1 two.2⟩)
  · obtain ⟨tail, first⟩ := first_three three.1 three.2
    exact Or.inr (Or.inr ⟨_, first, began_three three.1 three.2 tail⟩)
  · obtain ⟨tail, first⟩ := first_four four.1 four.2
    exact Or.inr (Or.inr ⟨_, first, began_four four.1 four.2 tail⟩)

theorem ofNat_eq {n : Nat} {b : UInt8} (same : n = b.toNat) : UInt8.ofNat n = b := by
  rw [same, UInt8.ofNat_toNat]

section Inside

variable {value more : Nat} {low high b : UInt8} {tail : 0x80 ≤ low} {read : Bytes}

/-- The last byte of a character completes it. -/
theorem encodeChar_of_began (began : (State.inside value 0 low high tail).Began read)
    (within : low ≤ b ∧ b ≤ high) :
    String.utf8EncodeChar (Char.ofNat (value * 64 + b.toNat % 64)) = read ++ [b] := by
  obtain ⟨-, most, written⟩ := began
  simp only [UInt8.le_iff_toNat_le, UInt8.reduceToNat] at within most tail
  rw [written _ (by simp; omega) (by simp; omega), tails, ofNat_eq (b := b) (by omega)]

/-- A byte that goes on with a character leaves it begun. -/
theorem began_step (began : (State.inside value (more + 1) low high tail).Began read)
    (within : low ≤ b ∧ b ≤ high) :
    (State.inside (value * 64 + b.toNat % 64) more 0x80 0xBF (by decide)).Began (read ++ [b]) := by
  obtain ⟨-, most, written⟩ := began
  simp only [UInt8.le_iff_toNat_le, UInt8.reduceToNat] at within most tail
  refine ⟨by decide, by decide, fun v least below => ?_⟩
  simp only [UInt8.reduceToNat, Nat.sub_self, Nat.add_zero] at least below
  have unit : 0 < 64 ^ (more + 1) := Nat.pow_pos (by decide)
  have quotient : v / 64 ^ (more + 1) = value * 64 + b.toNat % 64 := by
    apply Nat.div_eq_of_lt_le
    · rwa [Nat.pow_succ', ← Nat.mul_assoc]
    · have whole : (value * 64 + b.toNat % 64) * 64 + (191 - 128) + 1 =
          (value * 64 + b.toNat % 64 + 1) * 64 := by omega
      rwa [whole, Nat.mul_assoc, ← Nat.pow_succ'] at below
  have lower := Nat.div_mul_le_self v (64 ^ (more + 1))
  have upper := Nat.lt_div_mul_add (a := v) unit
  rw [quotient] at lower upper
  rw [written v ?_ ?_, tails, quotient, ofNat_eq (b := b) (by omega), List.append_assoc]
  · rfl
  · refine Nat.le_trans (Nat.mul_le_mul_right _ ?_) lower
    omega
  · have bound : (value * 64 + b.toNat % 64 + 1) * 64 ^ (more + 1) ≤
        (value * 64 + (high.toNat - 0x80) + 1) * 64 ^ (more + 1) :=
      Nat.mul_le_mul_right _ (by omega)
    rw [Nat.add_mul _ 1, Nat.one_mul] at bound
    exact Nat.lt_of_lt_of_le upper bound

/-- What was begun can be completed. -/
theorem exists_prefix_of_began (began : (State.inside value more low high tail).Began read) :
    ∃ c, read <+: String.utf8EncodeChar c := by
  obtain ⟨some, -, written⟩ := began
  simp only [UInt8.le_iff_toNat_le] at some
  refine ⟨_, _, (written _ (Nat.le_refl _) ?_).symm⟩
  exact Nat.mul_lt_mul_of_pos_right (by omega) (Nat.pow_pos (by decide))

end Inside

/-! ### The first piece of the bytes -/

/-- The bytes `bad` are damaged where `rest` follows them: no character begins there, they are one
byte or a beginning of a character, and with the byte behind them they are not. -/
structure Damaged (bad rest : Bytes) : Prop where
  no_character : ∀ c, ¬ String.utf8EncodeChar c <+: bad ++ rest
  piece : bad.length = 1 ∨ bad ≠ [] ∧ ∃ c, bad <+: String.utf8EncodeChar c
  longest : ∀ b more, rest = b :: more → ∀ c, ¬ bad ++ [b] <+: String.utf8EncodeChar c

theorem Damaged.ne_nil {bad rest : Bytes} (damaged : Damaged bad rest) : bad ≠ [] := by
  rcases damaged.piece with single | ⟨ne, -⟩
  · rintro rfl
    cases single
  · exact ne

/-- Of two damaged pieces with which the same bytes begin, the second one is not longer. -/
theorem Damaged.length_le {bad rest bad' rest' : Bytes} (damaged : Damaged bad rest)
    (damaged' : Damaged bad' rest') (same : bad ++ rest = bad' ++ rest') :
    bad'.length ≤ bad.length := by
  have some := List.length_pos_iff.mpr damaged.ne_nil
  rcases damaged'.piece with single | ⟨-, c, begins⟩
  · omega
  · by_contra longer
    -- The first one could have gone on with the byte behind it.
    rcases List.append_eq_append_iff.mp same with ⟨more, rfl, rfl⟩ | ⟨more, rfl, -⟩
    · cases more with
      | nil => simp at longer
      | cons b more =>
        refine damaged.longest b (more ++ rest') rfl c (List.IsPrefix.trans ?_ begins)
        exact ⟨more, by simp⟩
    · simp at longer

/-- Bytes begin with at most one damaged piece. -/
theorem Damaged.unique {bad rest bad' rest' : Bytes} (damaged : Damaged bad rest)
    (damaged' : Damaged bad' rest') (same : bad ++ rest = bad' ++ rest') :
    bad = bad' ∧ rest = rest' :=
  List.append_inj same (Nat.le_antisymm (damaged'.length_le damaged same.symm)
    (damaged.length_le damaged' same))

/-- Bytes from which a reading gives no character, whichever bytes follow the next one, are
damaged. -/
theorem damaged_of_pieces {bad rest : Bytes} (lost : pieces (bad ++ rest) = none :: pieces rest)
    (piece : bad.length = 1 ∨ bad ≠ [] ∧ ∃ c, bad <+: String.utf8EncodeChar c)
    (always : ∀ b more, rest = b :: more → ∀ more',
      pieces (bad ++ b :: more') = none :: pieces (b :: more')) : Damaged bad rest := by
  refine ⟨?_, piece, ?_⟩
  · rintro c ⟨behind, same⟩
    rw [← same, pieces_encodeChar] at lost
    cases lost
  · rintro b more next c ⟨behind, same⟩
    rw [List.append_assoc, List.singleton_append] at same
    have read := always b more next behind
    rw [same, ← List.append_nil (String.utf8EncodeChar c), pieces_encodeChar] at read
    cases read

theorem pieces_cons (b : UInt8) (bs : Bytes) :
    pieces (b :: bs) = (first b).1 ++ piecesAfter [] (first b).2 bs :=
  piecesAfter_cons .start b bs

/-- What was begun is completed, or it is broken off at the end or by a byte that begins anew. -/
theorem cases_of_began {s : State} {read : Bytes} (began : s.Began read) (bs : Bytes) :
    (∃ c front rest, bs = front ++ rest ∧ read ++ front = String.utf8EncodeChar c ∧
        piecesAfter [] s bs = some c :: pieces rest) ∨
      ∃ front rest, bs = front ++ rest ∧ (∃ c, read ++ front <+: String.utf8EncodeChar c) ∧
        piecesAfter [] s bs = none :: pieces rest ∧ ∀ b more, rest = b :: more → ∀ more',
          piecesAfter [] s (front ++ b :: more') = none :: pieces (b :: more') := by
  induction bs generalizing s read with
  | nil =>
    cases s with
    | start => cases began
    | inside value more low high tail =>
      refine Or.inr ⟨[], [], rfl, ?_, rfl, by simp⟩
      rw [List.append_nil]
      exact exists_prefix_of_began began
  | cons b bs ih =>
    cases s with
    | start => cases began
    | inside value more low high tail =>
      by_cases within : low ≤ b ∧ b ≤ high
      · cases more with
        | zero =>
          refine Or.inl ⟨_, [b], bs, rfl, (encodeChar_of_began began within).symm, ?_⟩
          rw [piecesAfter_cons, step, if_pos within]
          rfl
        | succ more =>
          have onward : ∀ bs, piecesAfter [] (.inside value (more + 1) low high tail) (b :: bs) =
              piecesAfter [] (.inside (value * 64 + b.toNat % 64) more 0x80 0xBF (by decide)) bs := by
            intro bs
            rw [piecesAfter_cons, step, if_pos within]
            rfl
          rcases ih (began_step began within) with
            ⟨c, front, rest, rfl, whole, found⟩ | ⟨front, rest, rfl, ⟨c, begins⟩, lost, always⟩
          · refine Or.inl ⟨c, b :: front, rest, rfl, ?_, ?_⟩
            · rw [← whole, List.append_assoc, List.singleton_append]
            · rw [onward, found]
          · refine Or.inr ⟨b :: front, rest, rfl, ⟨c, ?_⟩, ?_, ?_⟩
            · rwa [List.append_assoc, List.singleton_append] at begins
            · rw [onward, lost]
            · intro d more next more'
              rw [List.cons_append, onward, always d more next more']
      · have anew : ∀ bs, piecesAfter [] (.inside value more low high tail) (b :: bs) =
            none :: pieces (b :: bs) := by
          intro bs
          rw [piecesAfter_cons, step, if_neg within, pieces_cons]
          rfl
        refine Or.inr ⟨[], b :: bs, rfl, ?_, anew bs, ?_⟩
        · rw [List.append_nil]
          exact exists_prefix_of_began began
        · intro d more next more'
          obtain ⟨rfl, -⟩ := List.cons.inj next
          exact anew more'

/-- **The bytes begin with a character or with a damaged piece**, and are read on behind it. -/
theorem exists_piece {bs : Bytes} (ne : bs ≠ []) :
    (∃ c rest, bs = String.utf8EncodeChar c ++ rest ∧ pieces bs = some c :: pieces rest) ∨
      ∃ bad rest, bs = bad ++ rest ∧ Damaged bad rest ∧ pieces bs = none :: pieces rest := by
  obtain ⟨b, bs, rfl⟩ := List.exists_cons_of_ne_nil ne
  rcases cases_of_first b with ⟨c, whole, first⟩ | first | ⟨s, first, began⟩
  · refine Or.inl ⟨c, bs, by rw [whole]; rfl, ?_⟩
    rw [pieces_cons, first]
    rfl
  · have alone : ∀ bs, pieces (b :: bs) = none :: pieces bs := by
      intro bs
      rw [pieces_cons, first]
      rfl
    refine Or.inr ⟨[b], bs, rfl, damaged_of_pieces (alone bs) (Or.inl rfl) ?_, alone bs⟩
    exact fun d more _ more' => alone (d :: more')
  · have same : ∀ bs, pieces (b :: bs) = piecesAfter [] s bs := by
      intro bs
      rw [pieces_cons, first, List.nil_append]
    rcases cases_of_began began bs with
      ⟨c, front, rest, rfl, whole, found⟩ | ⟨front, rest, rfl, begins, lost, always⟩
    · refine Or.inl ⟨c, rest, ?_, by rw [same, found]⟩
      rw [← whole, List.append_assoc, List.singleton_append]
    · have lost : pieces ((b :: front) ++ rest) = none :: pieces rest := by
        rw [List.cons_append, same, lost]
      refine Or.inr ⟨b :: front, rest, rfl, damaged_of_pieces lost ?_ ?_, lost⟩
      · exact Or.inr ⟨by simp, begins⟩
      · intro d more next more'
        rw [List.cons_append, same, always d more next more']

/-! ### Text that is not damaged -/

theorem eq_encode_of_pieces {bs : Bytes} {text : List Char} (whole : pieces bs = text.map some) :
    bs = encode text := by
  induction text generalizing bs with
  | nil => exact (piecesAfter_eq_nil whole).1
  | cons c text ih =>
    have ne : bs ≠ [] := by
      rintro rfl
      cases whole
    rcases exists_piece ne with ⟨d, rest, rfl, found⟩ | ⟨_, _, _, _, lost⟩
    · rw [found] at whole
      obtain ⟨same, behind⟩ := List.cons.inj whole
      obtain rfl := Option.some.inj same
      rw [encode_cons, ← ih behind]
    · rw [lost] at whole
      cases (List.cons.inj whole).1

/-- **Bytes are read as a text exactly if they are what the text is written as.** -/
theorem decode?_eq_some_iff {bs : Bytes} {text : List Char} :
    decode? bs = some text ↔ bs = encode text := by
  have all : ∀ (found : List (Option Char)) (text : List Char),
      found.mapM id = some text ↔ found = text.map some := by
    intro found
    induction found with
    | nil => intro text; cases text <;> simp
    | cons piece found ih =>
      intro text
      cases piece with
      | none => cases text <;> simp
      | some c => cases text <;> simp [Option.bind_eq_some_iff, ih, and_comm]
  unfold decode?
  rw [all]
  constructor
  · exact eq_encode_of_pieces
  · rintro rfl
    exact pieces_encode text

/-! ### Text that is mended -/

/-- The second bytes are the first ones with the replacement character for each damaged piece. -/
inductive Mends : (bs mended : Bytes) → Prop where
  | done : Mends [] []
  | character (c : Char) {bs mended : Bytes} : Mends bs mended →
      Mends (String.utf8EncodeChar c ++ bs) (String.utf8EncodeChar c ++ mended)
  | damaged {bad rest mended : Bytes} : Damaged bad rest → Mends rest mended →
      Mends (bad ++ rest) (String.utf8EncodeChar replacement ++ mended)

theorem decodeLossy_character (c : Char) (bs : Bytes) :
    decodeLossy (String.utf8EncodeChar c ++ bs) = c :: decodeLossy bs := by
  rw [decodeLossy, pieces_encodeChar]
  rfl

/-- A damaged piece is read as one replacement character. -/
theorem decodeLossy_damaged {bad rest : Bytes} (damaged : Damaged bad rest) :
    decodeLossy (bad ++ rest) = replacement :: decodeLossy rest := by
  have ne : bad ++ rest ≠ [] := by simp [damaged.ne_nil]
  rcases exists_piece ne with ⟨c, behind, same, -⟩ | ⟨bad', rest', same, damaged', lost⟩
  · exact absurd ⟨behind, same.symm⟩ (damaged.no_character c)
  · obtain ⟨rfl, rfl⟩ := damaged.unique damaged' same
    rw [decodeLossy, lost]
    rfl

/-- **A lossy reading mends what is damaged and changes nothing else.** -/
theorem mends_iff {bs mended : Bytes} : Mends bs mended ↔ mended = encode (decodeLossy bs) := by
  constructor
  · intro mends
    induction mends with
    | done => rfl
    | character c _ ih => rw [decodeLossy_character, encode_cons, ih]
    | damaged damaged _ ih => rw [decodeLossy_damaged damaged, encode_cons, ih]
  · rintro rfl
    induction length : bs.length using Nat.strongRecOn generalizing bs with
    | ind n ih =>
      subst length
      by_cases ne : bs = []
      · subst ne
        exact .done
      rcases exists_piece ne with ⟨c, rest, rfl, -⟩ | ⟨bad, rest, rfl, damaged, -⟩
      · have shorter : rest.length < (String.utf8EncodeChar c ++ rest).length := by
          have := c.utf8Size_pos
          rw [List.length_append, String.length_utf8EncodeChar]
          omega
        rw [decodeLossy_character, encode_cons]
        exact .character c (ih _ shorter rfl)
      · have shorter : rest.length < (bad ++ rest).length := by
          have := List.length_pos_iff.mpr damaged.ne_nil
          rw [List.length_append]
          omega
        rw [decodeLossy_damaged damaged, encode_cons]
        exact .damaged damaged (ih _ shorter rfl)

end CompilerWrapper.Utf8
