import CompilerWrapper.Proofs.Process.Serving

/-!
# A failed compile is never reported as a success

In capture mode a process stands between the build and two compilers, and adds a log of its own to
what can go wrong. `exit_zero_iff` says when such a process ends with the exit code 0: the real
compiler was run, its diagnostics are stored, and either it succeeded, or it failed and the prebuilt
compiler, called as the process was called, succeeded. Every other end is that of the prebuilt
compiler, or the exit code 1 of a process that gave up, for one of the reasons of `GivesUp`.
-/

namespace CompilerWrapper

open FileTree

section Exit

variable {m : Machine} {exec : Executor} {env : Environment} {t u v : FileTree} {c : Command}
  {image : Image} {log : Path}

/-- The process becomes the compiler of the same file name in the prebuilt directory, with the call
as it was made, and ends as that does. -/
def FallsBack (exec : Executor) (env : Environment) (c : Call) (t u : FileTree) (ending : Ending) :
    Prop :=
  ∃ (dir : Path) (name : Name) (answer : Response),
    env.get? prebuiltVariable = some dir ∧ c.wrapper.fileName? = some name ∧
    become exec env t ⟨dir.join name, c.name, c.args⟩ = some (.ok (u, answer)) ∧
    answer.ending = ending

/-- A process gives up and leaves a tree. -/
inductive GivesUp (exec : Executor) (env : Environment) (c : Call) (log : Path) (place : Location)
    (t : FileTree) : FileTree → Prop where
  /-- The file with the flags cannot be read, or spells none. -/
  | invalidFlags : (∀ flags, ¬ Flags.Valid t c.dir flags) →
      GivesUp exec env c log place t (t.stop place)
  /-- The real compiler is missing or cannot be run. -/
  | notStarted {flags : Flags} {fault : Fault} : Flags.Valid t c.dir flags →
      exec env t (Wrapper.captureCommand ⟨c, flags⟩) = some (.error fault) →
      GivesUp exec env c log place t (t.stop place)
  /-- The log cannot be opened, locked or written. -/
  | notRecorded {flags : Flags} {ran u : FileTree} {answer : Response} {failure : Failure} :
      Flags.Valid t c.dir flags →
      exec env t (Wrapper.captureCommand ⟨c, flags⟩) = some (.ok (ran, answer)) →
      answer.stderr ≠ [] →
      Log.append ran log (Wrapper.entryFor ⟨c, flags⟩ answer.stderr) = (.error failure, u) →
      GivesUp exec env c log place t (u.stop place)
  /-- The real compiler failed, and no prebuilt compiler is known. -/
  | noPrebuilt {flags : Flags} {answer : Response} {u : FileTree} :
      Captured exec env c log t flags answer u → answer.ending ≠ .exited 0 →
      env.get? prebuiltVariable = none ∨ c.wrapper.fileName? = none →
      GivesUp exec env c log place t (u.stop place)
  /-- The real compiler failed, and the prebuilt compiler is missing or cannot be run. -/
  | notReplaced {flags : Flags} {answer : Response} {u : FileTree} {dir : Path} {name : Name}
      {fault : Fault} :
      Captured exec env c log t flags answer u → answer.ending ≠ .exited 0 →
      env.get? prebuiltVariable = some dir → c.wrapper.fileName? = some name →
      become exec env (u.stop place) ⟨dir.join name, c.name, c.args⟩ = some (.error fault) →
      GivesUp exec env c log place t (u.stop place)

namespace Wrapper

variable {w : Wrapper} {prebuilt : Option Path} {ending : Ending}

theorem verdict_of_success (success : ending = .exited 0) :
    w.verdict prebuilt ending = .ok (.finish 0) := by
  rw [success]
  rfl

theorem verdict_of_failure (failed : ending ≠ .exited 0) :
    w.verdict prebuilt ending =
      match prebuilt, w.call.wrapper.fileName? with
      | some dir, some name => .ok (.become ⟨dir.join name, w.call.name, w.call.args⟩)
      | some _, none => .error (.noFileName w.call.wrapper)
      | none, _ => .error .noPrebuilt := by
  have not_succeeded : ending.succeeded = false := by
    simpa [Ending.succeeded] using failed
  unfold verdict
  rw [not_succeeded, fallbackCommand_eq]
  cases prebuilt with
  | none => rfl
  | some dir => cases w.call.wrapper.fileName? <;> rfl

/-- The wrapper decides to become another program exactly if the compiler failed and the prebuilt
one is known. -/
theorem verdict_eq_become_iff {command : Command} :
    w.verdict prebuilt ending = .ok (.become command) ↔
      ending ≠ .exited 0 ∧ ∃ dir name, prebuilt = some dir ∧
        w.call.wrapper.fileName? = some name ∧
        command = ⟨dir.join name, w.call.name, w.call.args⟩ := by
  constructor
  · intro decided
    by_cases success : ending = .exited 0
    · rw [verdict_of_success success] at decided
      cases decided
    · rw [verdict_of_failure success] at decided
      refine ⟨success, ?_⟩
      cases prebuilt with
      | none => cases decided
      | some dir =>
        cases named : w.call.wrapper.fileName? with
        | none =>
          rw [named] at decided
          cases decided
        | some name =>
          rw [named] at decided
          cases decided
          exact ⟨dir, name, rfl, rfl, rfl⟩
  · rintro ⟨failed, dir, name, rfl, named, rfl⟩
    rw [verdict_of_failure failed, named]

end Wrapper

/-- The ways in which a process in capture mode can end. -/
theorem ends_iff (captures : Captures m env t c image log) (fuel : Nat) {ending : Ending} :
    (∃ out err, execute m (fuel + 1) env t c = some (.ok (u, ⟨out, err, ending⟩))) ↔
      (∃ flags answer v,
        Captured (execute m fuel) env image.call log (t.start image.place) flags answer v ∧
          ((answer.ending = .exited 0 ∧ u = v.stop image.place ∧ ending = .exited 0) ∨
            (answer.ending ≠ .exited 0 ∧
              FallsBack (execute m fuel) env image.call (v.stop image.place) u ending))) ∨
      (GivesUp (execute m fuel) env image.call log image.place (t.start image.place) u ∧
        ending = .exited 1) := by
  rw [execute_capture_iff captures fuel]
  constructor
  · rintro ⟨decided, v, serves, carried⟩
    cases serves with
    | invalidFlags invalid =>
      cases carried
      refine Or.inr ⟨.invalidFlags ?_, rfl⟩
      intro flags valid
      obtain ⟨told, valid⟩ := Flags.valid_iff.mp valid
      rw [invalid] at valid
      cases valid
    | notStarted valid refused =>
      cases carried
      exact Or.inr ⟨.notStarted valid refused, rfl⟩
    | notRecorded valid answered heard lost =>
      cases carried
      exact Or.inr ⟨.notRecorded valid answered heard lost, rfl⟩
    | @captured flags answer _ captured =>
      by_cases success : answer.ending = .exited 0
      · rw [Wrapper.verdict_of_success success] at carried
        cases carried
        exact Or.inl ⟨flags, answer, v, captured, Or.inl ⟨success, rfl, rfl⟩⟩
      · rw [Wrapper.verdict_of_failure success] at carried
        cases prebuilt : env.get? prebuiltVariable with
        | none =>
          rw [prebuilt] at carried
          cases carried
          exact Or.inr ⟨.noPrebuilt captured success (Or.inl prebuilt), rfl⟩
        | some dir =>
          cases named : image.call.wrapper.fileName? with
          | none =>
            rw [prebuilt, named] at carried
            cases carried
            exact Or.inr ⟨.noPrebuilt captured success (Or.inr named), rfl⟩
          | some name =>
            rw [prebuilt, named] at carried
            cases carried with
            | notReplaced refused =>
              exact Or.inr ⟨.notReplaced captured success prebuilt named refused, rfl⟩
            | @replaced _ _ answer' became =>
              exact Or.inl ⟨flags, answer, v, captured, Or.inr ⟨success,
                dir, name, answer', prebuilt, named, became, rfl⟩⟩
  · rintro (⟨flags, answer, v, captured, ends⟩ | ⟨gaveUp, rfl⟩)
    · refine ⟨_, v, .captured captured, ?_⟩
      rcases ends with
        ⟨success, rfl, rfl⟩ | ⟨failed, dir, name, answer', prebuilt, named, became, rfl⟩
      · rw [Wrapper.verdict_of_success success]
        exact .finished
      · rw [Wrapper.verdict_of_failure failed, prebuilt, named]
        exact .replaced became
    · cases gaveUp with
      | invalidFlags invalid =>
        cases resolved : Flags.resolve (t.start image.place) image.call.dir with
        | error failure => exact ⟨_, _, .invalidFlags resolved, .gaveUp⟩
        | ok found => exact absurd (Flags.valid_iff.mpr ⟨_, resolved⟩) (invalid found.1)
      | notStarted valid refused => exact ⟨_, _, .notStarted valid refused, .gaveUp⟩
      | notRecorded valid answered heard lost =>
        exact ⟨_, _, .notRecorded valid answered heard lost, .gaveUp⟩
      | @noPrebuilt flags answer v captured failed unknown =>
        refine ⟨_, v, .captured captured, ?_⟩
        rw [Wrapper.verdict_of_failure failed]
        cases prebuilt : env.get? prebuiltVariable with
        | none => exact .gaveUp
        | some dir =>
          rw [prebuilt] at unknown
          obtain none | named := unknown
          · cases none
          · rw [named]
            exact .gaveUp
      | @notReplaced flags answer v dir name fault captured failed prebuilt named refused =>
        refine ⟨_, v, .captured captured, ?_⟩
        rw [Wrapper.verdict_of_failure failed, prebuilt, named]
        exact .notReplaced refused

/-- **A process in capture mode ends with the exit code 0 exactly if the real compiler was run, what
it printed is in the log as one block, and it succeeded, or failed and the prebuilt compiler
succeeded instead.** Every other end is that of the prebuilt compiler, after the real one failed, or
the exit code 1 of a process that gave up. -/
theorem exit_zero_iff (captures : Captures m env t c image log) (fuel : Nat) :
    ((∃ out err, execute m (fuel + 1) env t c = some (.ok (u, ⟨out, err, .exited 0⟩))) ↔
      ∃ flags answer v,
        Captured (execute m fuel) env image.call log (t.start image.place) flags answer v ∧
          ((answer.ending = .exited 0 ∧ u = v.stop image.place) ∨
            (answer.ending ≠ .exited 0 ∧
              FallsBack (execute m fuel) env image.call (v.stop image.place) u (.exited 0)))) ∧
    ∀ ending ≠ .exited 0,
      ((∃ out err, execute m (fuel + 1) env t c = some (.ok (u, ⟨out, err, ending⟩))) ↔
        (GivesUp (execute m fuel) env image.call log image.place (t.start image.place) u ∧
          ending = .exited 1) ∨
        ∃ flags answer v,
          Captured (execute m fuel) env image.call log (t.start image.place) flags answer v ∧
            answer.ending ≠ .exited 0 ∧
            FallsBack (execute m fuel) env image.call (v.stop image.place) u ending) := by
  constructor
  · rw [ends_iff captures fuel]
    constructor
    · rintro (⟨flags, answer, v, captured, ends⟩ | ⟨-, none⟩)
      · refine ⟨flags, answer, v, captured, ?_⟩
        rcases ends with ⟨success, tree, -⟩ | fellBack
        · exact Or.inl ⟨success, tree⟩
        · exact Or.inr fellBack
      · cases none
    · rintro ⟨flags, answer, v, captured, ends⟩
      refine Or.inl ⟨flags, answer, v, captured, ?_⟩
      rcases ends with ⟨success, tree⟩ | fellBack
      · exact Or.inl ⟨success, tree, rfl⟩
      · exact Or.inr fellBack
  · intro ending ne
    rw [ends_iff captures fuel]
    constructor
    · rintro (⟨flags, answer, v, captured, ⟨-, -, none⟩ | fellBack⟩ | gaveUp)
      · exact absurd none ne
      · exact Or.inr ⟨flags, answer, v, captured, fellBack⟩
      · exact Or.inl gaveUp
    · rintro (gaveUp | ⟨flags, answer, v, captured, fellBack⟩)
      · exact Or.inr gaveUp
      · exact Or.inl ⟨flags, answer, v, captured, Or.inr fellBack⟩

end Exit

/-! ### A compile that the prebuilt compiler saves -/

namespace Rescue

/-- The wrapper, a compiler that complains and fails, and one that succeeds. -/
def machine : Machine where
  load contents :=
    if contents = [0] then some .wrapper
    else if contents = [1] then some (.other fun _ _ t => (t, ⟨[], [0x21], .exited 1⟩))
    else if contents = [2] then some (.other fun _ _ t => (t, ⟨[], [], .exited 0⟩))
    else none

/-- The place of the wrapper. -/
def place : Location := [Bytes.ofText "bin", Bytes.ofText "clang"]

/-- The wrapper beside the compiler that fails, and the other compiler in a directory of its own. -/
def tree : FileTree where
  nodes := [([Bytes.ofText "bin"], .directory), (place, .file 0o755 [0]),
    ([Bytes.ofText "bin", Bytes.ofText "clang.real"], .file 0o755 [1]),
    ([Bytes.ofText "pre"], .directory),
    ([Bytes.ofText "pre", Bytes.ofText "clang"], .file 0o755 [2])]
  here := []

/-- The log that the environment names. -/
def logFile : Path := Bytes.ofText "/log"

/-- The environment of a build that captures diagnostics. -/
def env : Environment := [(redirectVariable, logFile), (prebuiltVariable, Bytes.ofText "/pre")]

/-- A call with one argument. -/
def call : Command := ⟨absolutePath place, Bytes.ofText "clang", [Bytes.ofText "-c"]⟩

/-- What the call runs. -/
def image : Image := ⟨.wrapper, place, call⟩

/-- The block about what the first compiler printed. -/
def block : Bytes := (Wrapper.entryFor ⟨image.call, .builtIn⟩ [0x21]).render

/-- The tree with that block in the log. -/
def after : FileTree := tree.put [logFile.tail] (.file 0o644 block)

end Rescue

open Rescue

theorem exit_zero_rescue :
    Captures machine env tree call image logFile ∧
      ∃ out err, execute machine 2 env tree call = some (.ok (after, ⟨out, err, .exited 0⟩)) := by
  have captures : Captures machine env tree call image logFile := ⟨rfl, rfl, rfl, rfl⟩
  have gains : Log.Gains (tree.start place) logFile block (after.start place) :=
    .made (l := [logFile.tail]) rfl rfl rfl
  have captured : Captured (execute machine 1) env image.call logFile (tree.start place) .builtIn
      ⟨[], [0x21], .exited 1⟩ (after.start place) :=
    ⟨Or.inl ⟨rfl, rfl⟩, tree.start place, rfl, Or.inr ⟨by decide, gains⟩⟩
  have fallsBack : FallsBack (execute machine 1) env image.call
      ((after.start place).stop image.place) after (.exited 0) :=
    ⟨Bytes.ofText "/pre", Bytes.ofText "clang", ⟨[], [], .exited 0⟩, rfl, rfl, rfl, rfl⟩
  exact ⟨captures, (exit_zero_iff captures 1).1.mpr
    ⟨_, _, _, captured, Or.inr ⟨by decide, fallsBack⟩⟩⟩

end CompilerWrapper
