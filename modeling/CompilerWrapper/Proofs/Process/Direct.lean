import CompilerWrapper.Process.Run
import CompilerWrapper.Proofs.FileTree.Change

/-!
# Processes in direct mode

Without a log file in the environment, and without a filter for its own messages, a process that
runs the wrapper prints nothing and becomes the real compiler beside it (`execute_direct`). What
the compiler then does is what the process did.
-/

namespace CompilerWrapper

open FileTree

variable {m : Machine} {env : Environment} {t : FileTree} {l : Location}

/-! ### What a command runs -/

theorem findFile_of_resolve {p : Path} {mode : Nat} {contents : Bytes} (resolved : t.resolve p = .ok l)
    (node : t.node? l = some (.file mode contents)) (runs : mayRun mode = true) :
    findFile t p = .ok (l, contents) := by
  have ne : p ≠ [] := by
    rintro rfl
    cases resolved
  unfold findFile
  rw [if_neg ne, resolved]
  simp only [node, runs, if_true]

theorem holdsZero_eq_false_iff {c : Command} :
    holdsZero env c = false ↔ 0 ∉ c.program ∧ 0 ∉ c.arg0 ∧ (∀ arg ∈ c.args, 0 ∉ arg) ∧
      holdsZero env ⟨[], [], []⟩ = false := by
  simp [holdsZero, startWords, forall_and]

theorem findProgram_of_zero {c : Command} (zero : holdsZero env c = true) :
    findProgram m env t c = .error .zeroInWord := by
  unfold findProgram
  rw [if_pos zero]

theorem findProgram_of_long {c : Command} {contents : Bytes} (slash : Path.slash ∈ c.program)
    (found : findFile t c.program = .ok (l, contents)) (no_zero : holdsZero env c = false)
    (long : startFits env c = false) : findProgram m env t c = .error .argumentsTooLong := by
  unfold findProgram
  rw [no_zero, if_neg Bool.false_ne_true, if_pos slash]
  unfold scriptLimit findImage
  rw [found]
  simp only [long, Bool.not_false, if_true]

theorem findProgram_of_load {c : Command} {contents : Bytes} {program : Program}
    (slash : Path.slash ∈ c.program) (found : findFile t c.program = .ok (l, contents))
    (no_zero : holdsZero env c = false) (fits : startFits env c = true)
    (loaded : m.load contents = some program) :
    findProgram m env t c = .ok ⟨program, l, c⟩ := by
  unfold findProgram
  rw [no_zero, if_neg Bool.false_ne_true, if_pos slash]
  unfold scriptLimit findImage
  rw [found]
  simp only [fits, loaded]
  rfl

/-! ### Messages that are not shown -/

/-- Nothing but warnings and errors is shown without a filter in the environment. -/
theorem wrapperFilter_of_none (unset : env.get? filterVariable = none) :
    wrapperFilter env = (⟨[⟨none, .upTo .warn⟩], none⟩, []) := by
  unfold wrapperFilter Environment.text?
  rw [unset]
  decide +kernel

theorem tell_debug (unset : env.get? filterVariable = none) (topic : Topic) (text : String) :
    tell env ⟨.debug, topic, text⟩ = pure () := by
  have hidden : (wrapperFilter env).1.shows ⟨.debug, topic, text⟩ = false := by
    rw [wrapperFilter_of_none unset]
    cases topic <;> rfl
  unfold tell
  rw [hidden]
  rfl

theorem debug_of_resolve {dir : Path} {flags : Flags} {told : List Message}
    (found : Flags.resolve t dir = .ok (flags, told)) :
    told = [] ∨ ∃ text, told = [⟨.debug, .flags, text⟩] := by
  unfold Flags.resolve at found
  obtain ⟨flags?, -, ended⟩ := ok_of_bind found
  cases flags? with
  | none =>
    obtain ⟨-, rfl⟩ := Prod.mk.inj (Except.ok.inj ended)
    exact Or.inl rfl
  | some =>
    obtain ⟨-, rfl⟩ := Prod.mk.inj (Except.ok.inj ended)
    exact Or.inr ⟨_, rfl⟩

/-! ### Serving a call -/

/-- That a program runs is nothing that flags depend on. -/
theorem resolve_start (t : FileTree) (place : Location) (dir : Path) :
    Flags.resolve (t.start place) dir = Flags.resolve t dir := by
  have resolved := resolve_ext (t := t) (u := t.start place) rfl fun _ => rfl
  have read := read_ext (t := t) (u := t.start place) rfl fun _ => rfl
  unfold Flags.resolve Flags.load isPresent
  simp only [resolved, read]

theorem stop_start (t : FileTree) (place : Location) : (t.start place).stop place = t := by
  unfold start stop
  rw [List.erase_cons_head]

theorem serveCall_direct (exec : Executor) {c : Call} {flags : Flags} {told : List Message}
    {w : World} (direct : env.get? redirectVariable = none)
    (unset : env.get? filterVariable = none)
    (found : Flags.resolve w.tree c.dir = .ok (flags, told)) :
    (serveCall exec env c.wrapper (c.name :: c.args)).run w =
      some (.ok (.become (Wrapper.directCommand ⟨c, flags⟩)), w) := by
  have call : Call.ofWords (c.name :: c.args) c.wrapper = .ok c := rfl
  have mode : modeOf env = .direct := by
    unfold modeOf
    rw [direct]
    rfl
  unfold serveCall
  rw [call, mode]
  simp only [StateT.run_bind, StateT.run_get, Option.pure_def, Option.bind_eq_bind, Option.bind_some,
    found]
  rcases debug_of_resolve found with rfl | ⟨text, rfl⟩
  · simp [tell_debug unset]
    rfl
  · simp [tell_debug unset]
    rfl

/-! ### Running the wrapper -/

/-- **A wrapper in direct mode becomes the real compiler and leaves everything else as it is.** -/
theorem execute_direct {c : Command} {contents : Bytes} {flags : Flags} {told : List Message}
    (slash : Path.slash ∈ c.program) (found : findFile t c.program = .ok (l, contents))
    (no_zero : holdsZero env c = false) (fits : startFits env c = true)
    (loaded : m.load contents = some .wrapper)
    (compiler : Admin.isAdmin c.arg0 = false) (direct : env.get? redirectVariable = none)
    (unset : env.get? filterVariable = none)
    (resolved : Flags.resolve t (Call.dir ⟨c.arg0, c.args, absolutePath l⟩) = .ok (flags, told))
    (fuel : Nat) :
    execute m (fuel + 1) env t c =
      (carryOut (execute m fuel) env ⟨t, [], []⟩
        (.ok (.become (Wrapper.directCommand ⟨⟨c.arg0, c.args, absolutePath l⟩, flags⟩)))).map
          .ok := by
  have served := serveCall_direct (execute m fuel) (w := ⟨t.start l, [], []⟩)
    (c := ⟨c.arg0, c.args, absolutePath l⟩) direct unset ((resolve_start t l _).trans resolved)
  have acted : actAsCompiler (execute m fuel) env t l (c.arg0 :: c.args) =
      carryOut (execute m fuel) env ⟨t, [], []⟩
        (.ok (.become (Wrapper.directCommand ⟨⟨c.arg0, c.args, absolutePath l⟩, flags⟩))) := by
    unfold actAsCompiler
    rw [wrapperFilter_of_none unset]
    simp only [Filter.showWarnings, List.flatMap_nil, served, Option.bind_eq_bind, Option.bind_some,
      stop_start]
  rw [execute, findProgram_of_load slash found no_zero fits loaded]
  simp only [runWrapper, compiler, acted]
  rfl

/-- A program that is no wrapper answers for itself. -/
theorem execute_other {c : Command} {contents : Bytes}
    {respond : Environment → Command → FileTree → FileTree × Response}
    (slash : Path.slash ∈ c.program) (found : findFile t c.program = .ok (l, contents))
    (no_zero : holdsZero env c = false) (fits : startFits env c = true)
    (loaded : m.load contents = some (.other respond))
    (fuel : Nat) : execute m (fuel + 1) env t c = some (.ok (respond env c t)) := by
  rw [execute, findProgram_of_load slash found no_zero fits loaded]

/-- A command that runs no program is refused. -/
theorem execute_of_fault {c : Command} {fault : Fault}
    (refused : findProgram m env t c = .error fault) (fuel : Nat) :
    execute m (fuel + 1) env t c = some (.error fault) := by
  rw [execute, refused]

/-- A process that cannot become another program gives up, unless the shell takes the file. -/
theorem carryOut_of_fault {exec : Executor} {c : Command} {fault : Fault} {w : World}
    (refused : exec env w.tree c = some (.error fault)) (ne : fault ≠ .notExecutable) :
    carryOut exec env w (.ok (.become c)) =
      some (giveUp w s!"Error: failed to execute {c.program.display}: {fault.message}\n") := by
  have became : become exec env w.tree c = some (.error fault) := by
    unfold become
    rw [refused]
    cases fault with
    | notExecutable => exact absurd rfl ne
    | _ => rfl
  unfold carryOut
  dsimp only
  rw [became]
  rfl

/-- A process that has printed nothing and becomes another program is that program. -/
theorem carryOut_become {exec : Executor} {c : Command} {answer : FileTree × Response}
    (ran : exec env t c = some (.ok answer)) :
    carryOut exec env ⟨t, [], []⟩ (.ok (.become c)) = some answer := by
  unfold carryOut become
  simp only [ran, Option.bind_eq_bind, Option.bind_some, List.nil_append]

end CompilerWrapper
