import CompilerWrapper.Text.Utf8
import Mathlib.Algebra.Group.Nat.Defs
import Mathlib.Data.List.Infix
import Mathlib.Tactic.Common

/-!
# What decoding keeps

A text that is written as bytes is read back as it was (`decodeLossy_encode`). Of bytes that are
damaged less can be said, but an ASCII byte is safe in any surroundings: decoding cuts there
(`decodeLossy_append_ascii`), and an ASCII character that was read was a byte of its own
(`exists_of_decodeLossy_eq`). So a mark that is ASCII stands in the decoded text exactly where its
bytes stand in the bytes (`infix_decodeLossy_iff`).

For the second direction one has to know that no longer form of a character comes to an ASCII
character. `State.Valid` bounds what a character can still come to once it is begun.
-/

namespace CompilerWrapper.Utf8

/-! ### Text that is read back -/

@[simp] theorem encode_nil : encode [] = [] := rfl

theorem encode_cons (c : Char) (text : List Char) :
    encode (c :: text) = String.utf8EncodeChar c ++ encode text := List.flatMap_cons

@[simp] theorem encode_append (text more : List Char) :
    encode (text ++ more) = encode text ++ encode more := List.flatMap_append

theorem toNat_tail (n : Nat) : (UInt8.ofNat (n % 64 + 128)).toNat = n % 64 + 128 := by
  rw [UInt8.toNat_ofNat']
  omega

/-- A byte within the bounds goes on with a character or completes it. -/
theorem step_tail (value more : Nat) {low high : UInt8} (tail : 0x80 ≤ low) (n : Nat)
    (hlow : low.toNat ≤ n % 64 + 128) (hhigh : n % 64 + 128 ≤ high.toNat) :
    step (.inside value more low high tail) (UInt8.ofNat (n % 64 + 128)) =
      match more with
      | 0 => ([some (Char.ofNat (value * 64 + n % 64))], .start)
      | more + 1 => ([], .inside (value * 64 + n % 64) more 0x80 0xBF (by decide)) := by
  have within : low ≤ UInt8.ofNat (n % 64 + 128) ∧ UInt8.ofNat (n % 64 + 128) ≤ high := by
    rw [UInt8.le_iff_toNat_le, UInt8.le_iff_toNat_le, toNat_tail]
    exact ⟨hlow, hhigh⟩
  have bits : (UInt8.ofNat (n % 64 + 128)).toNat % 64 = n % 64 := by
    rw [toNat_tail]
    omega
  cases more <;> simp only [step, within, and_self, if_true, bits]

theorem first_one {n : Nat} (ascii : n < 0x80) :
    first (UInt8.ofNat n) = ([some (Char.ofNat n)], .start) := by
  have hn : (UInt8.ofNat n).toNat = n := by rw [UInt8.toNat_ofNat']; omega
  simp [first, UInt8.lt_iff_toNat_lt, hn, ascii]

theorem first_two {n : Nat} (hlow : 0xC2 ≤ n) (hhigh : n < 0xE0) :
    first (UInt8.ofNat n) = ([], .inside (n % 32) 0 0x80 0xBF (by decide)) := by
  have hn : (UInt8.ofNat n).toNat = n := by rw [UInt8.toNat_ofNat']; omega
  have h1 : ¬ n < 0x80 := by omega
  have h2 : ¬ n < 0xC2 := by omega
  simp [first, UInt8.lt_iff_toNat_lt, hn, h1, h2, hhigh]

theorem first_three {n : Nat} (hlow : 0xE0 ≤ n) (hhigh : n < 0xF0) :
    ∃ tail, first (UInt8.ofNat n) = ([], .inside (n % 16) 1 (if n = 0xE0 then 0xA0 else 0x80)
      (if n = 0xED then 0x9F else 0xBF) tail) := by
  have hn : (UInt8.ofNat n).toNat = n := by rw [UInt8.toNat_ofNat']; omega
  have h1 : ¬ n < 0x80 := by omega
  have h2 : ¬ n < 0xC2 := by omega
  have h3 : ¬ n < 0xE0 := by omega
  refine ⟨by split <;> decide, ?_⟩
  simp [first, UInt8.lt_iff_toNat_lt, ← UInt8.toNat_inj, hn, h1, h2, h3, hhigh]

theorem first_four {n : Nat} (hlow : 0xF0 ≤ n) (hhigh : n < 0xF5) :
    ∃ tail, first (UInt8.ofNat n) = ([], .inside (n % 8) 2 (if n = 0xF0 then 0x90 else 0x80)
      (if n = 0xF4 then 0x8F else 0xBF) tail) := by
  have hn : (UInt8.ofNat n).toNat = n := by rw [UInt8.toNat_ofNat']; omega
  have h1 : ¬ n < 0x80 := by omega
  have h2 : ¬ n < 0xC2 := by omega
  have h3 : ¬ n < 0xE0 := by omega
  have h4 : ¬ n < 0xF0 := by omega
  refine ⟨by split <;> decide, ?_⟩
  simp [first, UInt8.lt_iff_toNat_lt, ← UInt8.toNat_inj, hn, h1, h2, h3, h4, hhigh]

theorem first_none {n : Nat} (outside : 0x80 ≤ n ∧ n < 0xC2 ∨ 0xF5 ≤ n) (byte : n < 256) :
    first (UInt8.ofNat n) = ([none], .start) := by
  have hn : (UInt8.ofNat n).toNat = n := by rw [UInt8.toNat_ofNat']; omega
  simp only [first, UInt8.lt_iff_toNat_lt, UInt8.reduceToNat, hn]
  rcases outside with ⟨some, none⟩ | none
  · rw [if_neg (by omega), if_pos none]
  · rw [if_neg (by omega), if_neg (by omega), if_neg (by omega), if_neg (by omega),
      if_neg (by omega)]

theorem pieces_one {v : Nat} (ascii : v < 0x80) (bs : Bytes) :
    pieces (UInt8.ofNat v :: bs) = some (Char.ofNat v) :: pieces bs := by
  have toNat : (UInt8.ofNat v).toNat = v := by
    rw [UInt8.toNat_ofNat']
    omega
  have first : UInt8.ofNat v < 0x80 := by
    rw [UInt8.lt_iff_toNat_lt, toNat]
    exact ascii
  unfold pieces
  rw [piecesAfter_cons, step_ascii .start first, toNat]
  rfl

theorem pieces_two {v : Nat} (hlow : 0x80 ≤ v) (hhigh : v < 0x800) (bs : Bytes) :
    pieces (UInt8.ofNat (v / 64 % 32 + 192) :: UInt8.ofNat (v % 64 + 128) :: bs) =
      some (Char.ofNat v) :: pieces bs := by
  have number : (v / 64 % 32 + 192) % 32 * 64 + v % 64 = v := by omega
  unfold pieces
  rw [piecesAfter_cons, piecesAfter_cons, step, first_two (by omega) (by omega), step_tail]
  · simp only [number]
    rfl
  · simp
  · simp only [UInt8.reduceToNat]
    omega

theorem pieces_three {v : Nat} (hlow : 0x800 ≤ v) (hhigh : v < 0x10000)
    (valid : v < 0xD800 ∨ 0xDFFF < v) (bs : Bytes) :
    pieces (UInt8.ofNat (v / 4096 % 16 + 224) :: UInt8.ofNat (v / 64 % 64 + 128) ::
      UInt8.ofNat (v % 64 + 128) :: bs) = some (Char.ofNat v) :: pieces bs := by
  have number : ((v / 4096 % 16 + 224) % 16 * 64 + v / 64 % 64) * 64 + v % 64 = v := by omega
  obtain ⟨tail, hfirst⟩ := first_three (n := v / 4096 % 16 + 224) (by omega) (by omega)
  unfold pieces
  rw [piecesAfter_cons, piecesAfter_cons, piecesAfter_cons, step, hfirst, step_tail, step_tail]
  · simp only [number]
    rfl
  · simp
  · simp only [UInt8.reduceToNat]
    omega
  · split <;> simp only [UInt8.reduceToNat] <;> omega
  · split <;> simp only [UInt8.reduceToNat] <;> omega

theorem pieces_four {v : Nat} (hlow : 0x10000 ≤ v) (hhigh : v < 0x110000) (bs : Bytes) :
    pieces (UInt8.ofNat (v / 262144 % 8 + 240) :: UInt8.ofNat (v / 4096 % 64 + 128) ::
      UInt8.ofNat (v / 64 % 64 + 128) :: UInt8.ofNat (v % 64 + 128) :: bs) =
      some (Char.ofNat v) :: pieces bs := by
  have number : (((v / 262144 % 8 + 240) % 8 * 64 + v / 4096 % 64) * 64 + v / 64 % 64) * 64 +
      v % 64 = v := by omega
  obtain ⟨tail, hfirst⟩ := first_four (n := v / 262144 % 8 + 240) (by omega) (by omega)
  unfold pieces
  simp only [piecesAfter_cons]
  rw [step, hfirst, step_tail, step_tail, step_tail]
  · simp only [number]
    rfl
  · simp
  · simp only [UInt8.reduceToNat]
    omega
  · simp
  · simp only [UInt8.reduceToNat]
    omega
  · split <;> simp only [UInt8.reduceToNat] <;> omega
  · split <;> simp only [UInt8.reduceToNat] <;> omega

/-- The bytes of a character are read as that character, whatever follows them. -/
theorem pieces_encodeChar (c : Char) (bs : Bytes) :
    pieces (String.utf8EncodeChar c ++ bs) = some c :: pieces bs := by
  have same : Char.ofNat c.val.toNat = c := Char.ofNat_toNat c
  have valid : c.val.toNat < 0xD800 ∨ 0xDFFF < c.val.toNat ∧ c.val.toNat < 0x110000 := c.valid
  unfold String.utf8EncodeChar
  generalize c.val.toNat = v at same valid
  subst same
  dsimp only
  split
  · exact pieces_one (by omega) bs
  split
  · exact pieces_two (by omega) (by omega) bs
  split
  · exact pieces_three (by omega) (by omega) (by omega) bs
  · exact pieces_four (by omega) (by omega) bs

theorem pieces_encode (text : List Char) : pieces (encode text) = text.map some := by
  induction text with
  | nil => rfl
  | cons c text ih => rw [encode_cons, pieces_encodeChar, ih, List.map_cons]

/-- **A text is read back as it was written.** -/
@[simp] theorem decodeLossy_encode (text : List Char) : decodeLossy (encode text) = text := by
  rw [decodeLossy, pieces_encode, List.map_map]
  exact List.map_id text

/-- Two texts with the same bytes are the same. -/
theorem encode_inj {text other : List Char} (h : encode text = encode other) : text = other := by
  rw [← decodeLossy_encode text, h, decodeLossy_encode]

/-! ### Cutting at an ASCII byte -/

theorem piecesAfter_append_ascii (s : State) (before : Bytes) {b : UInt8} (h : b < 0x80)
    (after : Bytes) :
    piecesAfter [] s (before ++ b :: after) =
      piecesAfter [] s before ++ some (Char.ofNat b.toNat) :: pieces after := by
  induction before generalizing s with
  | nil =>
    rw [List.nil_append, piecesAfter_cons, step_ascii s h]
    simp [piecesAfter, pieces]
  | cons d before ih =>
    rw [List.cons_append, piecesAfter_cons, piecesAfter_cons, ih, List.append_assoc]

@[simp] theorem decodeLossy_nil : decodeLossy [] = [] := rfl

/-- **Decoding cuts at an ASCII byte**, even where the byte breaks off a character. -/
theorem decodeLossy_append_ascii (before : Bytes) {b : UInt8} (h : b < 0x80) (after : Bytes) :
    decodeLossy (before ++ b :: after) =
      decodeLossy before ++ Char.ofNat b.toNat :: decodeLossy after := by
  simp [decodeLossy, pieces, piecesAfter_append_ascii _ _ h]

/-! ### Where an ASCII character comes from -/

/-- The character that `s` is inside of will have a number from 0x80 on, and one that is the number
of a character. The bytes still missing lie between `low` and `high` and then between 0x80 and
0xBF, so the number lies between these bounds. -/
def State.Valid : State → Prop
  | .start => True
  | .inside value more low high _ =>
    high ≤ 0xBF ∧ more ≤ 2 ∧ 0x80 ≤ (value * 64 + (low.toNat - 0x80)) * 64 ^ more ∧
      ((value * 64 + (high.toNat - 0x80) + 1) * 64 ^ more ≤ 0xD800 ∨
        0xE000 ≤ (value * 64 + (low.toNat - 0x80)) * 64 ^ more) ∧
      (value * 64 + (high.toNat - 0x80) + 1) * 64 ^ more ≤ 0x110000

theorem valid_first (b : UInt8) : (first b).2.Valid := by
  have hb := b.toNat_lt
  unfold first
  split
  · trivial
  split
  · trivial
  split
  · simp_all [State.Valid, UInt8.lt_iff_toNat_lt]
    omega
  split
  · simp only [State.Valid, UInt8.lt_iff_toNat_lt, ← UInt8.toNat_inj] at *
    split <;> split <;> simp_all
    omega
  split
  · simp only [State.Valid, UInt8.lt_iff_toNat_lt, ← UInt8.toNat_inj] at *
    split <;> split <;> simp_all
    omega
  · trivial

theorem valid_step {s : State} (h : s.Valid) (b : UInt8) : (step s b).2.Valid := by
  cases s with
  | start => exact valid_first b
  | inside value more low high tail =>
    rw [step]
    split
    · rename_i within
      obtain ⟨hhigh, hmore, hmin, hgap, hmax⟩ := h
      simp only [UInt8.le_iff_toNat_le, UInt8.reduceToNat] at within tail hhigh
      have bits : b.toNat % 64 = b.toNat - 128 := by omega
      cases more with
      | zero => trivial
      | succ more =>
        obtain rfl | rfl : more = 0 ∨ more = 1 := by omega
        · simp only [State.Valid, bits, UInt8.reduceToNat]
          refine ⟨by decide, ?_⟩
          omega
        · simp only [State.Valid, bits, UInt8.reduceToNat]
          refine ⟨by decide, ?_⟩
          omega
    · exact valid_first b

/-- A byte that is not ASCII completes no ASCII character. -/
theorem le_toNat_of_mem_step {s : State} (h : s.Valid) {b : UInt8} (hb : ¬ b < 0x80) {c : Char}
    (mem : some c ∈ (step s b).1) : 0x80 ≤ c.toNat := by
  have none_first : ∀ d, some d ∉ (first b).1 := by
    intro d
    unfold first
    repeat' split
    all_goals simp_all
  cases s with
  | start => exact absurd mem (none_first c)
  | inside value more low high tail =>
    rw [step] at mem
    split at mem
    · rename_i within
      obtain ⟨hhigh, -, hmin, hgap, hmax⟩ := h
      simp only [UInt8.le_iff_toNat_le, UInt8.reduceToNat] at within tail hhigh
      have bits : b.toNat % 64 = b.toNat - 128 := by omega
      cases more with
      | zero =>
        simp only [Nat.pow_zero, Nat.mul_one] at hmin hgap hmax
        have number : (value * 64 + b.toNat % 64).isValidChar := by
          unfold Nat.isValidChar
          omega
        simp only [List.mem_singleton, Option.some.injEq] at mem
        have toNat : c.toNat = value * 64 + b.toNat % 64 := by
          rw [mem, Char.ofNat, dif_pos number]
          rfl
        omega
      | succ more => simp at mem
    · exact absurd (by simpa using mem) (none_first c)

/-- Only the last piece of a character that is cut short by an ASCII character is a character. -/
theorem cut_append_eq {s : State} {passed rest : List (Option Char)} {c d : Char}
    (h : s.cut ++ [some d] = passed ++ some c :: rest) : s.cut = passed ∧ d = c ∧ rest = [] := by
  cases s with
  | start =>
    cases passed with
    | nil =>
      obtain ⟨hd, hrest⟩ := List.cons.inj h
      exact ⟨rfl, Option.some.inj hd, hrest.symm⟩
    | cons piece passed => simp [State.cut] at h
  | inside value more low high tail =>
    cases passed with
    | nil => simp [State.cut] at h
    | cons piece passed =>
      cases passed with
      | nil =>
        obtain ⟨hpiece, h⟩ := List.cons.inj h
        obtain ⟨hd, hrest⟩ := List.cons.inj h
        exact ⟨by rw [← hpiece]; rfl, Option.some.inj hd, hrest.symm⟩
      | cons _ passed => simp [State.cut] at h

/-- An ASCII character among the pieces was a byte of its own, and the bytes before and after it
give the other pieces. -/
theorem exists_of_piecesAfter_eq {s : State} (valid : s.Valid) {bs : Bytes}
    {passed rest : List (Option Char)} {c : Char} (ascii : c.toNat < 0x80)
    (h : piecesAfter [] s bs = passed ++ some c :: rest) :
    ∃ before b after, bs = before ++ b :: after ∧ b < 0x80 ∧ Char.ofNat b.toNat = c ∧
      piecesAfter [] s before = passed ∧ pieces after = rest := by
  induction bs generalizing s passed with
  | nil =>
    have mem : some c ∈ s.cut := by
      have : piecesAfter [] s [] = s.cut := rfl
      rw [← this, h]
      simp
    cases s <;> simp [State.cut] at mem
  | cons b bs ih =>
    have later : ∀ passed, piecesAfter [] (step s b).2 bs = passed ++ some c :: rest →
        ∃ before d after, b :: bs = before ++ d :: after ∧ d < 0x80 ∧ Char.ofNat d.toNat = c ∧
          piecesAfter [] s before = (step s b).1 ++ passed ∧ pieces after = rest := by
      intro passed h
      obtain ⟨before, d, after, rfl, hd, hc, hbefore, hafter⟩ := ih (valid_step valid b) h
      exact ⟨b :: before, d, after, rfl, hd, hc, by rw [piecesAfter_cons, hbefore], hafter⟩
    rw [piecesAfter_cons, List.append_eq_append_iff] at h
    obtain ⟨passed, rfl, h⟩ | ⟨now, hnow, h⟩ := h
    · exact later passed h
    · cases now with
      | nil =>
        obtain ⟨before, d, after, heq, hd, hc, hbefore, hafter⟩ :=
          later [] h.symm
        exact ⟨before, d, after, heq, hd, hc, by simpa [hnow] using hbefore, hafter⟩
      | cons piece now =>
        obtain ⟨rfl, rfl⟩ := List.cons.inj h
        have hb : b < 0x80 := by
          by_contra hb
          exact absurd (le_toNat_of_mem_step valid hb (c := c) (by simp [hnow])) (by omega)
        rw [step_ascii s hb] at hnow
        obtain ⟨hcut, hc, rfl⟩ := cut_append_eq hnow
        refine ⟨[], b, bs, rfl, hb, hc, hcut, ?_⟩
        rw [step_ascii s hb]
        rfl

/-- **An ASCII character in the decoded text was a byte of its own**, and the bytes before and
after it decode to the text before and after it. -/
theorem exists_of_decodeLossy_eq {bs : Bytes} {passed rest : List Char} {c : Char}
    (ascii : c.toNat < 0x80) (h : decodeLossy bs = passed ++ c :: rest) :
    ∃ before b after, bs = before ++ b :: after ∧ b < 0x80 ∧ Char.ofNat b.toNat = c ∧
      decodeLossy before = passed ∧ decodeLossy after = rest := by
  obtain ⟨front, back, hpieces, rfl, hback⟩ := List.map_eq_append_iff.mp h
  obtain ⟨piece, back, rfl, hpiece, rfl⟩ := List.map_eq_cons_iff.mp hback
  have known : piece = some c := by
    cases piece with
    | none =>
      subst hpiece
      exact absurd ascii (by decide)
    | some d => exact congrArg some hpiece
  subst known
  obtain ⟨before, b, after, hbs, hb, hc, rfl, rfl⟩ :=
    exists_of_piecesAfter_eq (s := .start) trivial ascii hpieces
  exact ⟨before, b, after, hbs, hb, hc, rfl, rfl⟩

/-- A byte that is no character yet leaves the decoder inside of one. -/
theorem step_ne (s : State) (b : UInt8) : step s b ≠ ([], .start) := by
  have first_ne : first b ≠ ([], .start) := by
    unfold first
    split_ifs <;> simp
  cases s with
  | start => exact first_ne
  | inside value more low high tail =>
    rw [step]
    split
    · cases more <;> simp
    · simp

theorem piecesAfter_eq_nil {s : State} {bs : Bytes} (h : piecesAfter [] s bs = []) :
    bs = [] ∧ s = .start := by
  induction bs generalizing s with
  | nil =>
    cases s with
    | start => exact ⟨rfl, rfl⟩
    | inside => simp [piecesAfter, State.cut] at h
  | cons b bs ih =>
    rw [piecesAfter_cons, List.append_eq_nil_iff] at h
    exact absurd (Prod.ext h.1 (ih h.2).2) (step_ne s b)

@[simp] theorem decodeLossy_eq_nil_iff {bs : Bytes} : decodeLossy bs = [] ↔ bs = [] := by
  constructor
  · intro h
    exact (piecesAfter_eq_nil (List.map_eq_nil_iff.mp h)).1
  · rintro rfl
    rfl

/-! ### Marks that are ASCII -/

/-- Every character of the text is ASCII. -/
def IsAscii (text : List Char) : Prop := ∀ c ∈ text, c.toNat < 0x80

instance (text : List Char) : Decidable (IsAscii text) :=
  List.decidableBAll (fun c : Char => c.toNat < 0x80) text

theorem encodeChar_ascii {c : Char} (h : c.toNat < 0x80) :
    String.utf8EncodeChar c = [UInt8.ofNat c.toNat] := by
  have : c.val.toNat ≤ 0x7F := Nat.le_of_lt_succ h
  simp only [String.utf8EncodeChar, this, if_true]
  rfl

theorem ofNat_toNat_ascii {c : Char} (h : c.toNat < 0x80) :
    UInt8.ofNat c.toNat < 0x80 ∧ Char.ofNat (UInt8.ofNat c.toNat).toNat = c := by
  have toNat : (UInt8.ofNat c.toNat).toNat = c.toNat := by
    rw [UInt8.toNat_ofNat']
    omega
  refine ⟨?_, by rw [toNat, Char.ofNat_toNat]⟩
  rw [UInt8.lt_iff_toNat_lt, toNat]
  exact h

theorem ofNat_toNat_byte {b : UInt8} (h : b < 0x80) :
    UInt8.ofNat (Char.ofNat b.toNat).toNat = b := by
  rw [UInt8.lt_iff_toNat_lt] at h
  have number : b.toNat.isValidChar := Or.inl (Nat.lt_trans h (by decide))
  have toNat : (Char.ofNat b.toNat).toNat = b.toNat := by
    rw [Char.ofNat, dif_pos number]
    rfl
  rw [toNat, UInt8.ofNat_toNat]

/-- Decoding goes on behind an ASCII text as if nothing stood before it. -/
theorem decodeLossy_encode_append {text : List Char} (ascii : IsAscii text) (after : Bytes) :
    decodeLossy (encode text ++ after) = text ++ decodeLossy after := by
  induction text with
  | nil => rfl
  | cons c text ih =>
    obtain ⟨hc, htext⟩ := List.forall_mem_cons.mp ascii
    obtain ⟨hb, hchar⟩ := ofNat_toNat_ascii hc
    rw [encode_cons, encodeChar_ascii hc, List.append_assoc, List.singleton_append,
      ← List.nil_append (_ :: _), decodeLossy_append_ascii [] hb, hchar, ih htext]
    rfl

/-- Decoding cuts before an ASCII text. -/
theorem decodeLossy_append_encode_append (before : Bytes) {text : List Char} (ascii : IsAscii text)
    (ne : text ≠ []) (after : Bytes) :
    decodeLossy (before ++ encode text ++ after) =
      decodeLossy before ++ text ++ decodeLossy after := by
  cases text with
  | nil => exact absurd rfl ne
  | cons c text =>
    obtain ⟨hc, htext⟩ := List.forall_mem_cons.mp ascii
    obtain ⟨hb, hchar⟩ := ofNat_toNat_ascii hc
    rw [encode_cons, encodeChar_ascii hc, List.append_assoc, List.append_assoc,
      List.singleton_append, decodeLossy_append_ascii before hb, hchar,
      decodeLossy_encode_append htext, List.append_assoc]
    rfl

/-- An ASCII text that begins the decoded text begins the bytes. -/
theorem exists_of_decodeLossy_eq_append {bs : Bytes} {text rest : List Char}
    (ascii : IsAscii text) (h : decodeLossy bs = text ++ rest) :
    ∃ after, bs = encode text ++ after ∧ decodeLossy after = rest := by
  induction text generalizing bs with
  | nil => exact ⟨bs, rfl, h⟩
  | cons c text ih =>
    obtain ⟨hc, htext⟩ := List.forall_mem_cons.mp ascii
    obtain ⟨before, b, after, rfl, hb, rfl, hbefore, hafter⟩ :=
      exists_of_decodeLossy_eq hc (h.trans (List.nil_append _).symm)
    obtain rfl := decodeLossy_eq_nil_iff.mp hbefore
    obtain ⟨after, rfl, hrest⟩ := ih htext hafter
    refine ⟨after, ?_, hrest⟩
    rw [encode_cons, encodeChar_ascii hc, ofNat_toNat_byte hb]
    rfl

/-- **An ASCII text in the decoded text stands in the bytes**, and the bytes before and after it
decode to the text before and after it. -/
theorem exists_of_decodeLossy_eq_append_append {bs : Bytes} {passed text rest : List Char}
    (ascii : IsAscii text) (ne : text ≠ []) (h : decodeLossy bs = passed ++ text ++ rest) :
    ∃ before after, bs = before ++ encode text ++ after ∧
      decodeLossy before = passed ∧ decodeLossy after = rest := by
  cases text with
  | nil => exact absurd rfl ne
  | cons c text =>
    obtain ⟨hc, htext⟩ := List.forall_mem_cons.mp ascii
    rw [List.append_assoc] at h
    obtain ⟨before, b, after, rfl, hb, rfl, hbefore, hafter⟩ := exists_of_decodeLossy_eq hc h
    obtain ⟨after, rfl, hrest⟩ := exists_of_decodeLossy_eq_append htext hafter
    refine ⟨before, after, ?_, hbefore, hrest⟩
    rw [encode_cons, encodeChar_ascii hc, ofNat_toNat_byte hb]
    simp

/-- **Decoding neither makes nor hides an ASCII text.** -/
theorem infix_decodeLossy_iff {text : List Char} (ascii : IsAscii text) (bs : Bytes) :
    text <:+: decodeLossy bs ↔ encode text <:+: bs := by
  by_cases ne : text = []
  · subst ne
    simp
  · constructor
    · rintro ⟨passed, rest, h⟩
      obtain ⟨before, after, rfl, -, -⟩ :=
        exists_of_decodeLossy_eq_append_append ascii ne h.symm
      exact ⟨before, after, rfl⟩
    · rintro ⟨before, after, rfl⟩
      rw [decodeLossy_append_encode_append before ascii ne]
      exact ⟨_, _, rfl⟩

/-- An ASCII character stands in a text exactly if its byte stands in the bytes of the text. -/
theorem mem_encode_iff {c : Char} (ascii : c.toNat < 0x80) (text : List Char) :
    UInt8.ofNat c.toNat ∈ encode text ↔ c ∈ text := by
  have alone : IsAscii [c] := List.forall_mem_singleton.mpr ascii
  have same := infix_decodeLossy_iff alone (encode text)
  rw [decodeLossy_encode, encode_cons, encodeChar_ascii ascii, encode_nil, List.append_nil,
    List.singleton_infix_iff, List.singleton_infix_iff] at same
  exact same.symm

end CompilerWrapper.Utf8
