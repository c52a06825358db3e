import CompilerWrapper.Admin
import CompilerWrapper.Proofs.Install.Aside
import CompilerWrapper.Proofs.Text.Lines

/-!
# The summary of a log

The administration command line shows a log entry by entry: the command on a line, and behind it all
that was printed, or the first line that is more than white space. What was read from a log is text
already, so that decoding it for the output changes nothing, and without colours the output is the
bytes of the entries. How many entries there were is told on standard error, where the bytes of a
message may be shown in part only; but a number and plain words are shown in full
(`exists_strip_append`).

`run_log` says all of this for every log that can be read, and which line of an entry is taken for its
first diagnostic.
-/

namespace CompilerWrapper

open Install (ofText_append)

/-! ### What a terminal is shown of plain text -/

namespace Text

/-- The bytes that are shown already, last first, stand before the rest. -/
theorem reverse_foldl_step (done : Bytes) (s : Screen) (text : Bytes) :
    (text.foldl (fun (acc : Bytes × Screen) b =>
      (if (acc.2.step b).1 then b :: acc.1 else acc.1, (acc.2.step b).2)) (done, s)).1.reverse =
        done.reverse ++ shown s text := by
  induction text generalizing done s with
  | nil => exact (List.append_nil _).symm
  | cons b text ih =>
    unfold shown
    rw [List.foldl_cons, List.foldl_cons]
    dsimp only
    rw [ih, ih]
    cases (s.step b).1 <;> simp

theorem shown_cons (s : Screen) (b : UInt8) (text : Bytes) :
    shown s (b :: text) = (if (s.step b).1 then [b] else []) ++ shown (s.step b).2 text := by
  have all := reverse_foldl_step (if (s.step b).1 then [b] else []) (s.step b).2 text
  have same : (if (s.step b).1 then [b] else []).reverse = if (s.step b).1 then [b] else [] := by
    cases (s.step b).1 <;> rfl
  rw [same] at all
  exact all

/-- A printable ASCII character leaves the terminal in plain text. -/
theorem step_printable {b : UInt8} (printable : isBetween 0x20 0x7E b = true) (plain : Bool) :
    Screen.step ⟨.text, plain, 0⟩ b = (true, ⟨.text, true, 0⟩) := by
  have single : bytesAfter b = 0 := by
    simp only [isBetween, Bool.and_eq_true, decide_eq_true_eq, UInt8.le_iff_toNat_le] at printable
    obtain ⟨-, high⟩ := printable
    change b.toNat ≤ 0x7E at high
    unfold bytesAfter isBetween
    simp only [Bool.and_eq_true, decide_eq_true_eq, UInt8.le_iff_toNat_le]
    repeat rw [if_neg fun within => by have low := within.1; simp at low; omega]
  have shows : Control.shows .text b = true := by
    unfold Control.shows
    simp [printable]
  unfold Screen.step
  cases plain <;> simp [shows, single]

/-- **Printable ASCII text is shown in full.** -/
theorem exists_strip_append {text : Bytes} (printable : ∀ b ∈ text, isBetween 0x20 0x7E b = true)
    (rest : Bytes) : ∃ more, strip (text ++ rest) = text ++ more := by
  have from_plain : ∀ plain, ∃ more, shown ⟨.text, plain, 0⟩ (text ++ rest) = text ++ more := by
    induction text with
    | nil => exact fun plain => ⟨_, rfl⟩
    | cons b text ih =>
      intro plain
      obtain ⟨first, printable⟩ := List.forall_mem_cons.mp printable
      obtain ⟨more, same⟩ := ih printable true
      refine ⟨more, ?_⟩
      rw [List.cons_append, shown_cons, step_printable first, same]
      rfl
  exact from_plain false

end Text

/-! ### The bytes of a summary -/

namespace Admin

open Log

/-- What an entry adds to the summary of a log: the line of its command, and then all that was
printed, or the first diagnostic on a line that begins with four spaces. -/
def summaryOf (full : Bool) (e : Log.Entry) : Bytes :=
  Bytes.ofText e.command ++ Bytes.ofText "\n" ++
    if full then e.stderr
    else match e.firstDiagnostic? with
      | none => []
      | some line => Bytes.ofText "    " ++ Bytes.ofText line ++ Bytes.ofText "\n"

/-- What was printed is text in every entry that was read. -/
theorem ofText_stderr {contents : Bytes} {e : Log.Entry} (mem : e ∈ Log.entries contents) :
    Bytes.ofText e.stderr.toText = e.stderr := by
  obtain ⟨⟨command, output⟩, -, rfl⟩ := List.mem_map.mp mem
  unfold Bytes.toText Bytes.ofText
  rw [String.toList_ofList, Utf8.decodeLossy_encode]

theorem ofText_showEntry {p : Palette} (plain : p.stdout = false) (full : Bool) {contents : Bytes}
    {e : Log.Entry} (mem : e ∈ Log.entries contents) :
    Bytes.ofText (showEntry p full e) = summaryOf full e := by
  have unstyled : ∀ s text, p.styled s text = text := by
    intro s text
    unfold Palette.styled
    rw [plain]
    rfl
  unfold showEntry summaryOf
  simp only [unstyled, ofText_append]
  cases full with
  | true => exact congrArg _ (ofText_stderr mem)
  | false =>
    cases e.firstDiagnostic? with
    | none => rfl
    | some line => simp only [Bool.false_eq_true, if_false, ofText_append]

theorem ofText_join (texts : List String) :
    Bytes.ofText (String.join texts) = texts.flatMap Bytes.ofText := by
  have behind : ∀ done : String, Bytes.ofText (texts.foldl (· ++ ·) done) =
      Bytes.ofText done ++ texts.flatMap Bytes.ofText := by
    induction texts with
    | nil => exact fun done => (List.append_nil _).symm
    | cons text texts ih =>
      intro done
      rw [List.foldl_cons, ih, ofText_append, List.flatMap_cons, List.append_assoc]
  exact behind ""

theorem ofText_showLog {p : Palette} (plain : p.stdout = false) (full : Bool) (contents : Bytes) :
    Bytes.ofText (showLog p full (Log.entries contents)) =
      (Log.entries contents).flatMap (summaryOf full) := by
  unfold showLog
  rw [ofText_join, List.flatMap_map]
  exact List.flatMap_congr fun e mem => ofText_showEntry plain full mem

/-! ### What is told about a log -/

/-- Without a filter in the environment, plain information is shown at every verbosity. -/
theorem filterFor_of_unset {env : Environment} (unset : env.get? filterVariable = none)
    (verbosity : Nat) : (filterFor env verbosity).2 = [] ∧
      ∀ topic text, (filterFor env verbosity).1.shows ⟨.info, topic, text⟩ = true := by
  have silent : env.text? filterVariable = none := by
    unfold Environment.text?
    rw [unset]
    rfl
  have same : filterFor env verbosity = (⟨[⟨none, .upTo (levelFor verbosity)⟩], none⟩, []) := by
    unfold filterFor
    rw [silent]
    rfl
  rw [same]
  refine ⟨rfl, fun topic text => ?_⟩
  have low : Level.rank .info ≤ (levelFor verbosity).rank := by
    match verbosity with
    | 0 => exact Nat.le_refl 3
    | 1 => exact Nat.le_succ 3
    | _ + 2 => exact Nat.le_add_right 3 2
  unfold Filter.shows Filter.threshold Filter.ruleFor?
  simpa [Rule.speaksOf, Rule.beginning, Threshold.passes] using low

/-- Digits and the plain words behind them are printable ASCII. -/
theorem printable_count (n : Nat) :
    ∀ b ∈ Bytes.ofText (toString n ++ " entries in "), Text.isBetween 0x20 0x7E b = true := by
  rw [ofText_append]
  intro b mem
  rcases List.mem_append.mp mem with digit | word
  · unfold Bytes.ofText Utf8.encode at digit
    obtain ⟨c, mem, digit⟩ := List.mem_flatMap.mp digit
    rw [Nat.toString_eq_repr, Nat.toList_repr] at mem
    have is_digit : c.isDigit = true :=
      Nat.isDigit_of_mem_toDigits (b := 10) (by omega) (by omega) mem
    obtain ⟨low, high⟩ : 0x30 ≤ c.toNat ∧ c.toNat ≤ 0x39 := by
      simpa [Char.isDigit, UInt32.le_iff_toNat_le] using is_digit
    rw [Utf8.encodeChar_ascii (by omega), List.mem_singleton] at digit
    have value : b.toNat = c.toNat := by
      rw [digit, UInt8.toNat_ofNat']
      omega
    simp only [Text.isBetween, Bool.and_eq_true, decide_eq_true_eq, UInt8.le_iff_toNat_le]
    exact ⟨show 0x20 ≤ _ by omega, show _ ≤ 0x7E by omega⟩
  · have plain : (Bytes.ofText " entries in ").all (Text.isBetween 0x20 0x7E) = true := by decide
    exact List.all_eq_true.mp plain b word

/-- The message about a log begins with the number of its entries. -/
theorem exists_showMessage (p : Palette) (n : Nat) (name : String) :
    ∃ more, showMessage p ⟨.info, .program, s!"{n} entries in {name}"⟩ =
      Bytes.ofText (toString n ++ " entries in ") ++ more := by
  have whole : Bytes.ofText (s!"{n} entries in {name}" ++ "\n") =
      Bytes.ofText (toString n ++ " entries in ") ++ Bytes.ofText (name ++ "\n") := by
    rw [← ofText_append]
    simp [toString, String.append_assoc]
  unfold showMessage Palette.line
  rw [if_pos (Or.inl rfl), whole]
  cases p.stderr with
  | true => exact ⟨_, rfl⟩
  | false => exact Text.exists_strip_append (printable_count n) _

/-- Words that ask for the log under a path: the path begins with no dash. -/
theorem parse_log {path : Path} (named : path ≠ []) (plain : path.head? ≠ some 0x2D) :
    parse [.ofText "log", path] = .run 0 (.log path false) ∧
      parse [.ofText "log", path, .ofText "--full"] = .run 0 (.log path true) := by
  have operand : Word.of path = .operand path := by
    obtain ⟨b, rest, rfl⟩ := List.exists_cons_of_ne_nil named
    have ne : b ≠ 0x2D := fun same => plain (congrArg some same)
    unfold Word.of
    split
    next same => exact absurd (List.cons.inj same).1 ne
    next same => exact absurd (List.cons.inj same).1 ne
    next same => exact absurd (List.cons.inj same).1 ne
    next => rfl
  have begins : ∀ rest, parse (.ofText "log" :: rest) = readCommand 0 .log rest := by
    intro rest
    unfold parse parseFrom
    rw [show Word.of (.ofText "log") = .operand (.ofText "log") from by decide]
    rfl
  have taken : ∀ rest, readOptions .log {} (path :: rest) =
      readOptions .log { operand := some path } rest := by
    intro rest
    rw [readOptions, operand]
    change Except.bind (Options.addOperand _ _) _ = _
    unfold Options.addOperand
    rw [if_neg (by simpa using named)]
    rfl
  rw [begins, begins]
  unfold readCommand
  rw [taken, taken]
  refine ⟨by simp [readOptions, Options.request?], ?_⟩
  rw [readOptions, show Word.of (.ofText "--full") = .long "full".toList none from by decide]
  rfl

/-- The first diagnostic of what was printed. -/
theorem firstDiagnostic?_eq_none_iff (e : Log.Entry) :
    e.firstDiagnostic? = none ↔ ∀ c ∈ Utf8.decodeLossy e.stderr, Text.isBlank c = true := by
  unfold Entry.firstDiagnostic?
  rw [Option.map_eq_none_iff, Text.firstWritten?_eq_none_iff]

theorem firstDiagnostic?_eq_some_iff (e : Log.Entry) (line : String) :
    e.firstDiagnostic? = some line ↔
      Text.isWritten line.toList = true ∧ ∃ before,
        Text.IsLine before line.toList (Utf8.decodeLossy e.stderr) ∧
          ∀ c ∈ before, Text.isBlank c = true := by
  unfold Entry.firstDiagnostic?
  rw [Option.map_eq_some_iff, ← Text.firstWritten?_eq_some_iff]
  constructor
  · rintro ⟨text, first, rfl⟩
    rwa [String.toList_ofList]
  · exact fun first => ⟨_, first, String.ofList_toList⟩

/-- **The summary of a log leaves nothing out.** With plain output, a log that can be read is shown
as the summaries of its entries, in their order, and the number of entries is told; without a filter
in the environment that message is shown. No entry has a first diagnostic exactly if all that was
printed is white space, and otherwise it is the line that is written on behind white space alone. -/
theorem run_log :
    (∀ (program : Path) {env : Environment} {t : FileTree} {words : List Bytes} {verbosity : Nat}
        {path : Path} {full : Bool} {contents : Bytes},
      parse words = .run verbosity (.log path full) →
      (Palette.ofEnvironment env).stdout = false → t.read path = .ok contents →
      ∃ told, run env program t words =
          (t, ⟨(Log.entries contents).flatMap (summaryOf full), told, .exited 0⟩) ∧
        told = Filter.showWarnings (filterFor env verbosity).2 ++
          showMessages (.ofEnvironment env) (filterFor env verbosity).1
            [⟨.info, .program, s!"{(Log.entries contents).length} entries in {path.display}"⟩] ∧
        (env.get? filterVariable = none → ∃ more, told =
          Bytes.ofText (toString (Log.entries contents).length ++ " entries in ") ++ more)) ∧
    ∀ e : Log.Entry,
      (e.firstDiagnostic? = none ↔ ∀ c ∈ Utf8.decodeLossy e.stderr, Text.isBlank c = true) ∧
        ∀ line, e.firstDiagnostic? = some line ↔ Text.isWritten line.toList = true ∧ ∃ before,
          Text.IsLine before line.toList (Utf8.decodeLossy e.stderr) ∧
            ∀ c ∈ before, Text.isBlank c = true := by
  refine ⟨?_, fun e => ⟨firstDiagnostic?_eq_none_iff e, firstDiagnostic?_eq_some_iff e⟩⟩
  intro program env t words verbosity path full contents asked plain read
  have parsed : Log.read t path = .ok (Log.entries contents) := by
    unfold Log.read
    rw [read]
    rfl
  refine ⟨_, ?_, rfl, ?_⟩
  · unfold run
    rw [asked]
    unfold serve
    simp only [parsed, ofText_showLog plain full contents]
  · intro unset
    obtain ⟨quiet, shown⟩ := filterFor_of_unset unset verbosity
    obtain ⟨more, same⟩ := exists_showMessage (.ofEnvironment env) (Log.entries contents).length
      path.display
    refine ⟨more, ?_⟩
    rw [quiet, ← same]
    simp [Filter.showWarnings, showMessages, shown]

namespace Noted

/-- The log of two calls: the first printed a line behind an empty one, the second nothing. -/
def contents : Bytes :=
  Entry.render ⟨"cc a.c", Bytes.ofText "\r\n a.c:1: error\r\n 1 | x\n"⟩ ++ Entry.render ⟨"cc b.c", []⟩

/-- Where the log is. -/
def logFile : Path := Bytes.ofText "/log"

/-- A tree with the log. -/
def tree : FileTree where
  nodes := [([logFile.tail], .file 0o644 contents)]
  here := []

end Noted

open Noted

/-- The summary of a log, and the log in full. -/
theorem run_log_noted :
    (∃ told more, run [] [] tree [.ofText "log", logFile] =
        (tree, ⟨Bytes.ofText "cc a.c\n     a.c:1: error\ncc b.c\n", told, .exited 0⟩) ∧
      told = Bytes.ofText "2 entries in " ++ more) ∧
    ∃ told, run [] [] tree [.ofText "log", logFile, .ofText "--full"] =
        (tree, ⟨Bytes.ofText "cc a.c\n\r\n a.c:1: error\r\n 1 | x\ncc b.c\n", told, .exited 0⟩) := by
  have named : logFile ≠ [] := by decide
  obtain ⟨brief, full⟩ := parse_log named (by decide)
  have plain : (Palette.ofEnvironment []).stdout = false := rfl
  have read : tree.read logFile = .ok contents := rfl
  have entries : Log.entries contents =
      [⟨"cc a.c", Bytes.ofText "\r\n a.c:1: error\r\n 1 | x\n"⟩, ⟨"cc b.c", []⟩] := by decide +kernel
  constructor
  · obtain ⟨told, runs, -, counted⟩ := run_log.1 [] brief plain read
    obtain ⟨more, same⟩ := counted rfl
    rw [entries] at same runs
    exact ⟨told, more, runs, same⟩
  · obtain ⟨told, runs, -⟩ := run_log.1 [] full plain read
    rw [entries] at runs
    exact ⟨told, runs⟩

end Admin

end CompilerWrapper
