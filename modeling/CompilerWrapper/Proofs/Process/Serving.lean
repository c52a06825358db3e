import CompilerWrapper.Proofs.Process.Direct
import CompilerWrapper.Proofs.Wrapper

/-!
# How a wrapper in capture mode serves a call

A process that serves a call in capture mode can go six ways, and they are the constructors of
`Serves`. `serves_iff` says that they are all, whatever the process prints about itself. What
the process decides is then carried out, in one of the four ways of `CarriesOut`.

The programs that the process starts stand for any: what they do is asked of an executor.
-/

namespace CompilerWrapper

open FileTree

variable {exec : Executor} {env : Environment} {t u : FileTree} {c : Call} {log : Path}

/-! ### Effects -/

section Running

variable {α β : Type}

theorem run_bind_eq {x : Running α} {w w' : World} {a : α} (ran : x.run w = some (a, w'))
    (f : α → Running β) : (x >>= f).run w = (f a).run w' := by
  rw [StateT.run_bind, ran]
  rfl

theorem run_bind_eq_none {x : Running α} {w : World} (ran : x.run w = none)
    (f : α → Running β) : (x >>= f).run w = none := by
  rw [StateT.run_bind, ran]
  rfl

/-- A message changes nothing but what was printed. -/
theorem tell_run (env : Environment) (m : Message) (w : World) :
    ∃ err, (tell env m).run w = some ((), { w with stderr := err }) := by
  unfold tell
  split
  · exact ⟨_, rfl⟩
  · exact ⟨w.stderr, rfl⟩

end Running

/-! ### Flags -/

namespace Flags

/-- The flags are those that the file in a directory spells, or the built-in ones where there is no
such file. -/
def Valid (t : FileTree) (dir : Path) (flags : Flags) : Prop :=
  let p := dir.join (.ofText fileName)
  (t.isPresent p = false ∧ flags = builtIn) ∨
    (t.isPresent p = true ∧ ∃ contents text, t.read p = .ok contents ∧
      Utf8.decode? contents = some text ∧ parse text = .ok flags)

theorem load_of_absent {p : Path} (absent : t.isPresent p = false) : load t p = .ok none := by
  unfold load
  rw [absent]
  rfl

theorem load_of_parsed {p : Path} {contents : Bytes} {text : List Char} {flags : Flags}
    (present : t.isPresent p = true) (read : t.read p = .ok contents)
    (decoded : Utf8.decode? contents = some text) (parsed : parse text = .ok flags) :
    load t p = .ok (some flags) := by
  unfold load
  rw [present, read]
  dsimp only
  rw [decoded]
  dsimp only
  rw [parsed]
  rfl

theorem valid_iff {dir : Path} {flags : Flags} :
    Valid t dir flags ↔ ∃ told, resolve t dir = .ok (flags, told) := by
  unfold Valid resolve
  dsimp only
  constructor
  · rintro (⟨absent, rfl⟩ | ⟨present, contents, text, read, decoded, parsed⟩)
    · rw [load_of_absent absent]
      exact ⟨[], rfl⟩
    · rw [load_of_parsed present read decoded parsed]
      exact ⟨_, rfl⟩
  · rintro ⟨told, resolved⟩
    obtain ⟨flags?, loaded, ended⟩ := ok_of_bind resolved
    unfold load at loaded
    by_cases present : t.isPresent (dir.join (.ofText fileName)) = true
    · rw [if_pos present] at loaded
      refine Or.inr ⟨present, ?_⟩
      split at loaded
      next => cases loaded
      next contents read =>
        split at loaded
        next => cases loaded
        next text decoded =>
          refine ⟨contents, text, read, decoded, ?_⟩
          cases parsed : parse text with
          | error flaw =>
            rw [parsed] at loaded
            cases loaded
          | ok found =>
            rw [parsed] at loaded
            obtain rfl := Except.ok.inj loaded
            obtain ⟨rfl, -⟩ := Prod.mk.inj (Except.ok.inj ended)
            rfl
    · rw [if_neg present] at loaded
      obtain rfl := Except.ok.inj loaded
      obtain ⟨rfl, -⟩ := Prod.mk.inj (Except.ok.inj ended)
      exact Or.inl ⟨by simpa using present, rfl⟩

end Flags

/-! ### Capturing -/

/-- The command that runs the real compiler in order to capture what it prints. -/
def Wrapper.captureCommand (w : Wrapper) : Command where
  program := w.call.realPath
  arg0 := w.call.realPath
  args := w.call.args ++ w.flags.capture.map Bytes.ofText

/-- What the real compiler printed is in the log as one block, if it printed anything. -/
def Recorded (t : FileTree) (log : Path) (e : Log.Entry) (u : FileTree) : Prop :=
  (e.stderr = [] ∧ u = t) ∨ (e.stderr ≠ [] ∧ Log.Gains t log e.render u)

namespace Wrapper

variable {w : Wrapper} {prebuilt : Option Path} {s : World}

theorem runCaptured_run (w : Wrapper) (exec : Executor) (env : Environment) (s : World) :
    (runCaptured exec env w.captureLine).run s =
      match exec env s.tree w.captureCommand with
      | none => none
      | some (.error fault) => some (.error fault, s)
      | some (.ok (ran, answer)) =>
        some (.ok ⟨answer.stderr, answer.ending⟩, ⟨ran, s.stdout ++ answer.stdout, s.stderr⟩) := by
  unfold captureLine runCaptured
  simp only [StateT.run_bind, StateT.run_get, Option.pure_def, Option.bind_eq_bind,
    Option.bind_some]
  show Option.bind (StateT.run (monadLift (exec env s.tree w.captureCommand)) s) _ = _
  cases exec env s.tree w.captureCommand with
  | none => rfl
  | some answer =>
    cases answer with
    | error fault => rfl
    | ok answer => rfl

/-- The real compiler is run after a message, and what becomes of the run decides what follows. -/
theorem capture_run (w : Wrapper) (exec : Executor) (env : Environment) (log : Path)
    (prebuilt : Option Path) (s : World) :
    ∃ err, (w.capture (processHost exec env) log prebuilt).run s =
      (runCaptured exec env w.captureLine >>= fun
        | .error fault => pure (.error (.refused (.running w.call.realPath) fault))
        | .ok finished => do
          match ← w.recordDiagnostics (processHost exec env) log finished.stderr with
          | .error failure => pure (.error failure)
          | .ok () => w.conclude (processHost exec env) prebuilt finished.ending).run
        ⟨s.tree, s.stdout, err⟩ := by
  obtain ⟨err, told⟩ := tell_run env ⟨.debug, .wrapper, s!"running {displayLine w.captureLine}"⟩ s
  exact ⟨err, run_bind_eq told _⟩

theorem capture_of_none (endless : exec env s.tree w.captureCommand = none) :
    (w.capture (processHost exec env) log prebuilt).run s = none := by
  obtain ⟨err, captured⟩ := w.capture_run exec env log prebuilt s
  have ran := w.runCaptured_run exec env ⟨s.tree, s.stdout, err⟩
  rw [endless] at ran
  rw [captured]
  exact run_bind_eq_none ran _

theorem capture_of_notStarted {fault : Fault}
    (refused : exec env s.tree w.captureCommand = some (.error fault)) :
    ∃ out err, (w.capture (processHost exec env) log prebuilt).run s =
      some (.error (.refused (.running w.call.realPath) fault), ⟨s.tree, out, err⟩) := by
  obtain ⟨err, captured⟩ := w.capture_run exec env log prebuilt s
  have ran := w.runCaptured_run exec env ⟨s.tree, s.stdout, err⟩
  rw [refused] at ran
  rw [captured, run_bind_eq ran]
  exact ⟨s.stdout, err, rfl⟩

theorem recordDiagnostics_run (w : Wrapper) (log : Path) (stderr : Bytes) (s : World) :
    (w.recordDiagnostics (processHost exec env) log stderr).run s =
      some (if stderr = [] then (.ok (), s) else
        ((Log.append s.tree log (w.entryFor stderr)).1,
          { s with tree := (Log.append s.tree log (w.entryFor stderr)).2 })) := by
  unfold recordDiagnostics
  split
  · rfl
  · rfl

theorem capture_of_ran {ran : FileTree} {answer : Response}
    (answered : exec env s.tree w.captureCommand = some (.ok (ran, answer)))
    {recorded : Except Failure Unit} {u : FileTree}
    (records : ∀ s : World, s.tree = ran →
      (w.recordDiagnostics (processHost exec env) log answer.stderr).run s =
        some (recorded, { s with tree := u })) :
    ∃ out err, (w.capture (processHost exec env) log prebuilt).run s =
      (match recorded with
        | .error failure => pure (.error failure)
        | .ok () => w.conclude (processHost exec env) prebuilt answer.ending :
          Running (Except Failure Decision)).run ⟨u, out, err⟩ := by
  obtain ⟨err, captured⟩ := w.capture_run exec env log prebuilt s
  have started := w.runCaptured_run exec env ⟨s.tree, s.stdout, err⟩
  rw [answered] at started
  have recording := records ⟨ran, s.stdout ++ answer.stdout, err⟩ rfl
  refine ⟨s.stdout ++ answer.stdout, err, ?_⟩
  rw [captured, run_bind_eq started]
  dsimp only
  rw [run_bind_eq recording]

theorem capture_of_notRecorded {ran u : FileTree} {answer : Response} {failure : Failure}
    (answered : exec env s.tree w.captureCommand = some (.ok (ran, answer)))
    (heard : answer.stderr ≠ [])
    (lost : Log.append ran log (w.entryFor answer.stderr) = (.error failure, u)) :
    ∃ out err, (w.capture (processHost exec env) log prebuilt).run s =
      some (.error failure, ⟨u, out, err⟩) := by
  have records : ∀ s : World, s.tree = ran →
      (w.recordDiagnostics (processHost exec env) log answer.stderr).run s =
        some (.error failure, { s with tree := u }) := by
    rintro s rfl
    rw [recordDiagnostics_run, if_neg heard, lost]
  exact capture_of_ran answered records

theorem capture_of_stored {ran u : FileTree} {answer : Response}
    (answered : exec env s.tree w.captureCommand = some (.ok (ran, answer)))
    (recorded : Recorded ran log (w.entryFor answer.stderr) u) :
    ∃ out err, (w.capture (processHost exec env) log prebuilt).run s =
      some (w.verdict prebuilt answer.ending, ⟨u, out, err⟩) := by
  have records : ∀ s : World, s.tree = ran →
      (w.recordDiagnostics (processHost exec env) log answer.stderr).run s =
        some (.ok (), { s with tree := u }) := by
    rintro s rfl
    rw [recordDiagnostics_run]
    rcases recorded with ⟨silent, rfl⟩ | ⟨heard, gains⟩
    · exact congrArg some (if_pos silent)
    · rw [if_neg (show answer.stderr ≠ [] from heard), Log.append_eq_ok_iff.mpr gains]
  obtain ⟨out, err, captured⟩ := capture_of_ran answered records
  rw [captured]
  dsimp only
  unfold conclude verdict
  by_cases success : answer.ending.succeeded = true
  · rw [if_pos success, if_pos success]
    exact ⟨out, err, rfl⟩
  · rw [if_neg success, if_neg success]
    obtain ⟨err', told⟩ := tell_run env ⟨.debug, .wrapper,
      s!"{w.call.realPath.display} exited with {answer.ending.describe}" ++
        ", falling back to the prebuilt compiler"⟩ ⟨u, out, err⟩
    exact ⟨out, err', run_bind_eq told _⟩

end Wrapper

/-! ### Serving a call -/

/-- The real compiler was run, and what it printed is in the log. -/
structure Captured (exec : Executor) (env : Environment) (c : Call) (log : Path) (t : FileTree)
    (flags : Flags) (answer : Response) (u : FileTree) : Prop where
  valid : Flags.Valid t c.dir flags
  stored : ∃ ran, exec env t (Wrapper.captureCommand ⟨c, flags⟩) = some (.ok (ran, answer)) ∧
    Recorded ran log (Wrapper.entryFor ⟨c, flags⟩ answer.stderr) u

/-- Serving a call in capture mode comes to a decision and leaves a tree. -/
inductive Serves (exec : Executor) (env : Environment) (c : Call) (log : Path) (t : FileTree) :
    Except Failure Decision → FileTree → Prop where
  | invalidFlags {failure : Failure} : Flags.resolve t c.dir = .error failure →
      Serves exec env c log t (.error failure) t
  | notStarted {flags : Flags} {fault : Fault} : Flags.Valid t c.dir flags →
      exec env t (Wrapper.captureCommand ⟨c, flags⟩) = some (.error fault) →
      Serves exec env c log t (.error (.refused (.running c.realPath) fault)) t
  | notRecorded {flags : Flags} {ran u : FileTree} {answer : Response} {failure : Failure} :
      Flags.Valid t c.dir flags →
      exec env t (Wrapper.captureCommand ⟨c, flags⟩) = some (.ok (ran, answer)) →
      answer.stderr ≠ [] →
      Log.append ran log (Wrapper.entryFor ⟨c, flags⟩ answer.stderr) = (.error failure, u) →
      Serves exec env c log t (.error failure) u
  | captured {flags : Flags} {answer : Response} {u : FileTree} :
      Captured exec env c log t flags answer u →
      Serves exec env c log t
        (Wrapper.verdict ⟨c, flags⟩ (env.get? prebuiltVariable) answer.ending) u

theorem serveCall_of_error (exec : Executor) {s : World} {failure : Failure}
    (invalid : Flags.resolve s.tree c.dir = .error failure) :
    (serveCall exec env c.wrapper (c.name :: c.args)).run s = some (.error failure, s) := by
  have call : Call.ofWords (c.name :: c.args) c.wrapper = .ok c := rfl
  unfold serveCall
  rw [call]
  simp only [StateT.run_bind, StateT.run_get, Option.pure_def, Option.bind_eq_bind,
    Option.bind_some, invalid]
  rfl

theorem serveCall_of_ok (exec : Executor) {s : World} {flags : Flags} {told : List Message}
    (valid : Flags.resolve s.tree c.dir = .ok (flags, told)) :
    ∃ err, (serveCall exec env c.wrapper (c.name :: c.args)).run s =
      (Wrapper.run (processHost exec env) ⟨c, flags⟩ (modeOf env)).run ⟨s.tree, s.stdout, err⟩ := by
  have call : Call.ofWords (c.name :: c.args) c.wrapper = .ok c := rfl
  let mode : Message := ⟨.debug, .program, s!"{(modeOf env).describe} mode for {c.wrapper.display}"⟩
  unfold serveCall
  rw [call]
  simp only [StateT.run_bind, StateT.run_get, Option.pure_def, Option.bind_eq_bind,
    Option.bind_some, valid]
  rcases debug_of_resolve valid with rfl | ⟨text, rfl⟩
  · obtain ⟨err, told⟩ := tell_run env mode s
    refine ⟨err, ?_⟩
    simp [told, mode]
  · obtain ⟨err, first⟩ := tell_run env ⟨.debug, .flags, text⟩ s
    obtain ⟨err', second⟩ := tell_run env mode ⟨s.tree, s.stdout, err⟩
    refine ⟨err', ?_⟩
    simp [first, second, mode]

/-- Serving a call comes to something, unless the real compiler goes on for longer than programs may
be followed. -/
theorem serves_or_none (exec : Executor) (env : Environment) (c : Call) (log : Path)
    (t : FileTree) :
    (∃ decided u, Serves exec env c log t decided u) ∨
      ∃ flags, Flags.Valid t c.dir flags ∧
        exec env t (Wrapper.captureCommand ⟨c, flags⟩) = none := by
  cases resolved : Flags.resolve t c.dir with
  | error failure => exact Or.inl ⟨_, _, .invalidFlags resolved⟩
  | ok found =>
    obtain ⟨flags, told⟩ := found
    have valid : Flags.Valid t c.dir flags := Flags.valid_iff.mpr ⟨told, resolved⟩
    cases answered : exec env t (Wrapper.captureCommand ⟨c, flags⟩) with
    | none => exact Or.inr ⟨flags, valid, answered⟩
    | some answer =>
      cases answer with
      | error fault => exact Or.inl ⟨_, _, .notStarted valid answered⟩
      | ok answer =>
        obtain ⟨ran, answer⟩ := answer
        by_cases silent : answer.stderr = []
        · exact Or.inl ⟨_, _, .captured ⟨valid, ran, answered, Or.inl ⟨silent, rfl⟩⟩⟩
        · cases added : Log.append ran log (Wrapper.entryFor ⟨c, flags⟩ answer.stderr) with
          | mk result u =>
            cases result with
            | error failure => exact Or.inl ⟨_, _, .notRecorded valid answered silent added⟩
            | ok =>
              have gains := Log.append_eq_ok_iff.mp added
              exact Or.inl ⟨_, _, .captured ⟨valid, ran, answered, Or.inr ⟨silent, gains⟩⟩⟩

section Capture

variable {s : World} (capture : env.get? redirectVariable = some log)

include capture

theorem serveCall_of_captured (exec : Executor) {flags : Flags} {told : List Message}
    (valid : Flags.resolve s.tree c.dir = .ok (flags, told)) :
    ∃ err, (serveCall exec env c.wrapper (c.name :: c.args)).run s =
      (Wrapper.capture (processHost exec env) ⟨c, flags⟩ log (env.get? prebuiltVariable)).run
        ⟨s.tree, s.stdout, err⟩ := by
  have mode : modeOf env = .capture log (env.get? prebuiltVariable) := by
    unfold modeOf
    rw [capture]
    rfl
  obtain ⟨err, served⟩ := serveCall_of_ok exec valid
  rw [mode] at served
  exact ⟨err, served⟩

theorem serveCall_of_serves {decided : Except Failure Decision}
    (serves : Serves exec env c log s.tree decided u) :
    ∃ out err, (serveCall exec env c.wrapper (c.name :: c.args)).run s =
      some (decided, ⟨u, out, err⟩) := by
  cases serves with
  | invalidFlags invalid => exact ⟨_, _, serveCall_of_error exec invalid⟩
  | notStarted valid refused =>
    obtain ⟨told, valid⟩ := Flags.valid_iff.mp valid
    obtain ⟨err, served⟩ := serveCall_of_captured capture exec valid
    rw [served]
    exact Wrapper.capture_of_notStarted refused
  | notRecorded valid answered heard lost =>
    obtain ⟨told, valid⟩ := Flags.valid_iff.mp valid
    obtain ⟨err, served⟩ := serveCall_of_captured capture exec valid
    rw [served]
    exact Wrapper.capture_of_notRecorded answered heard lost
  | captured captured =>
    obtain ⟨valid, ran, answered, recorded⟩ := captured
    obtain ⟨told, valid⟩ := Flags.valid_iff.mp valid
    obtain ⟨err, served⟩ := serveCall_of_captured capture exec valid
    rw [served]
    exact Wrapper.capture_of_stored answered recorded

/-- **What a process comes to that serves a call in capture mode.** -/
theorem serves_iff {decided : Except Failure Decision} :
    (∃ out err, (serveCall exec env c.wrapper (c.name :: c.args)).run s =
      some (decided, ⟨u, out, err⟩)) ↔ Serves exec env c log s.tree decided u := by
  constructor
  · rintro ⟨out, err, served⟩
    rcases serves_or_none exec env c log s.tree with
      ⟨decided', u', serves⟩ | ⟨flags, valid, endless⟩
    · obtain ⟨out', err', served'⟩ := serveCall_of_serves capture serves
      obtain ⟨rfl, same⟩ := Prod.mk.inj (Option.some.inj (served.symm.trans served'))
      obtain ⟨rfl, -, -⟩ := World.mk.inj same
      exact serves
    · obtain ⟨told, valid⟩ := Flags.valid_iff.mp valid
      obtain ⟨err', served'⟩ := serveCall_of_captured capture exec valid
      have none := served'.trans (Wrapper.capture_of_none (s := ⟨s.tree, s.stdout, err'⟩) endless)
      rw [none] at served
      cases served
  · exact serveCall_of_serves capture

omit s in
/-- Serving a call comes to one decision only. -/
theorem Serves.unique {decided decided' : Except Failure Decision} {v : FileTree}
    (serves : Serves exec env c log t decided u) (serves' : Serves exec env c log t decided' v) :
    decided = decided' ∧ u = v := by
  obtain ⟨out, err, served⟩ := serveCall_of_serves capture (s := ⟨t, [], []⟩) serves
  obtain ⟨out', err', served'⟩ := serveCall_of_serves capture (s := ⟨t, [], []⟩) serves'
  obtain ⟨same, left⟩ := Prod.mk.inj (Option.some.inj (served.symm.trans served'))
  exact ⟨same, (World.mk.inj left).1⟩

end Capture

/-! ### Carrying out what was decided -/

/-- A process that has decided ends, with a tree and an exit code or a signal. -/
inductive CarriesOut (exec : Executor) (env : Environment) (t : FileTree) :
    Except Failure Decision → FileTree → Ending → Prop where
  | gaveUp {failure : Failure} : CarriesOut exec env t (.error failure) t (.exited 1)
  | finished {code : Nat} : CarriesOut exec env t (.ok (.finish code)) t (.exited code)
  | notReplaced {command : Command} {fault : Fault} :
      become exec env t command = some (.error fault) →
      CarriesOut exec env t (.ok (.become command)) t (.exited 1)
  | replaced {command : Command} {u : FileTree} {answer : Response} :
      become exec env t command = some (.ok (u, answer)) →
      CarriesOut exec env t (.ok (.become command)) u answer.ending

theorem carryOut_iff {w : World} {decided : Except Failure Decision} {ending : Ending} :
    (∃ out err, carryOut exec env w decided = some (u, ⟨out, err, ending⟩)) ↔
      CarriesOut exec env w.tree decided u ending := by
  constructor
  · rintro ⟨out, err, carried⟩
    rcases decided with failure | (code | command)
    · obtain ⟨rfl, same⟩ := Prod.mk.inj (Option.some.inj carried)
      obtain ⟨-, -, rfl⟩ := Response.mk.inj same
      exact .gaveUp
    · obtain ⟨rfl, same⟩ := Prod.mk.inj (Option.some.inj carried)
      obtain ⟨-, -, rfl⟩ := Response.mk.inj same
      exact .finished
    · unfold carryOut at carried
      dsimp only at carried
      cases became : become exec env w.tree command with
      | none =>
        rw [became] at carried
        cases carried
      | some answer =>
        rw [became] at carried
        cases answer with
        | error fault =>
          obtain ⟨rfl, same⟩ := Prod.mk.inj (Option.some.inj carried)
          obtain ⟨-, -, rfl⟩ := Response.mk.inj same
          exact .notReplaced became
        | ok answer =>
          obtain ⟨rfl, same⟩ := Prod.mk.inj (Option.some.inj carried)
          obtain ⟨-, -, rfl⟩ := Response.mk.inj same
          exact .replaced became
  · intro carried
    cases carried with
    | gaveUp => exact ⟨_, _, rfl⟩
    | finished => exact ⟨_, _, rfl⟩
    | notReplaced became =>
      unfold carryOut
      dsimp only
      rw [became]
      exact ⟨_, _, rfl⟩
    | replaced became =>
      unfold carryOut
      dsimp only
      rw [became]
      exact ⟨_, _, rfl⟩

/-! ### Running the wrapper -/

/-- The call that the wrapper's process serves. -/
def Image.call (image : Image) : Call where
  name := image.command.arg0
  args := image.command.args
  wrapper := absolutePath image.place

/-- The command runs the wrapper as a compiler and in capture mode. -/
structure Captures (m : Machine) (env : Environment) (t : FileTree) (c : Command) (image : Image)
    (log : Path) : Prop where
  found : findProgram m env t c = .ok image
  wrapper : image.program = .wrapper
  compiler : Admin.isAdmin image.command.arg0 = false
  capture : env.get? redirectVariable = some log

/-- **How a process ends that runs the wrapper in capture mode.** -/
theorem execute_capture_iff {m : Machine} {c : Command} {image : Image} {ending : Ending}
    (captures : Captures m env t c image log) (fuel : Nat) :
    (∃ out err, execute m (fuel + 1) env t c = some (.ok (u, ⟨out, err, ending⟩))) ↔
      ∃ decided v, Serves (execute m fuel) env image.call log (t.start image.place) decided v ∧
        CarriesOut (execute m fuel) env (v.stop image.place) decided u ending := by
  have acted : execute m (fuel + 1) env t c =
      (actAsCompiler (execute m fuel) env t image.place
        (image.call.name :: image.call.args)).map .ok := by
    rw [execute, captures.found]
    dsimp only
    rw [captures.wrapper]
    dsimp only
    unfold runWrapper
    rw [captures.compiler]
    rfl
  rw [acted]
  unfold actAsCompiler
  dsimp only
  constructor
  · rintro ⟨out, err, ended⟩
    obtain ⟨answer, ended, same⟩ := Option.map_eq_some_iff.mp ended
    obtain ⟨⟨decided, w⟩, served, carried⟩ := Option.bind_eq_some_iff.mp ended
    obtain rfl := Except.ok.inj same
    refine ⟨decided, w.tree, ?_, carryOut_iff.mp ⟨_, _, carried⟩⟩
    exact (serves_iff captures.capture (c := image.call)).mp ⟨_, _, served⟩
  · rintro ⟨decided, v, serves, carried⟩
    obtain ⟨out, err, served⟩ := (serves_iff captures.capture
      (s := ⟨t.start image.place, [], Filter.showWarnings (wrapperFilter env).2⟩)).mpr serves
    obtain ⟨out', err', carried⟩ :=
      carryOut_iff (w := ⟨v.stop image.place, out, err⟩).mpr carried
    refine ⟨out', err', Option.map_eq_some_iff.mpr ⟨(u, ⟨out', err', ending⟩), ?_, rfl⟩⟩
    exact Option.bind_eq_some_iff.mpr ⟨_, served, carried⟩

end CompilerWrapper
