import CompilerWrapper.Proofs.Log.Counting
import CompilerWrapper.Proofs.Process.Serving

/-!
# The log of a build

In a session wrappers serve calls in capture mode one after the other, and share a log that is not
there at first. Each compiler may change the tree as it likes but leaves the log alone, and whatever
it prints can be added to the log. `Session.read_eq` says that the log then holds the block of every
compiler that printed anything, in order, and nothing else.

`entries_of_session` counts what is read back. No compiler can hide what another one printed, so
there are never fewer entries than compilers that printed something. But the output is written as it
is, so a compiler that prints the end of an entry and the beginning of another one is read as two
(`entries_forged`).
-/

namespace CompilerWrapper

open FileTree

/-- What came of running the compiler of a call: it was not started, or it printed something and
left a tree. -/
inductive Printed (exec : Executor) (env : Environment) (t : FileTree) (w : Wrapper) :
    Bytes → FileTree → Prop where
  | notStarted {fault : Fault} : exec env t w.captureCommand = some (.error fault) →
      Printed exec env t w [] t
  | ended {ran : FileTree} {answer : Response} :
      exec env t w.captureCommand = some (.ok (ran, answer)) →
      Printed exec env t w answer.stderr ran

/-- A wrapper served a call in capture mode. Its compiler left the log alone, and what the compiler
printed could be added to the log. -/
inductive Diagnosed (log : Path) (w : Wrapper) (stderr : Bytes) : (t u : FileTree) → Prop where
  | served {exec : Executor} {env : Environment} {prebuilt : Option Path} {s v : World}
      {ran : FileTree} {decided : Except Failure Decision} :
      Printed exec env s.tree w stderr ran → ran.read log = s.tree.read log →
      (stderr ≠ [] → (Log.append ran log (w.entryFor stderr)).1 = .ok ()) →
      (w.run (processHost exec env) (.capture log prebuilt)).run s = some (decided, v) →
      Diagnosed log w stderr s.tree v.tree

/-- A build that began without a log served calls, each with what its compiler printed. Between the
calls the tree may change, but not the log. -/
inductive Session (log : Path) : List (Wrapper × Bytes) → FileTree → Prop where
  | start {t : FileTree} : t.read log = .error .notFound → Session log [] t
  | call {runs : List (Wrapper × Bytes)} {w : Wrapper} {stderr : Bytes} {t u : FileTree} :
      Session log runs t → Diagnosed log w stderr t u → Session log (runs ++ [(w, stderr)]) u
  | between {runs : List (Wrapper × Bytes)} {t u : FileTree} :
      Session log runs t → u.read log = t.read log → Session log runs u

/-- The calls whose compilers printed anything. -/
def heard (runs : List (Wrapper × Bytes)) : List (Wrapper × Bytes) :=
  runs.filter fun run => run.2 ≠ []

/-- The entry about a call. -/
def entryOf (run : Wrapper × Bytes) : Log.Entry := run.1.entryFor run.2

variable {log : Path} {w : Wrapper} {stderr : Bytes} {runs : List (Wrapper × Bytes)}
  {t u ran : FileTree}

/-- What was printed is in the log. -/
theorem Diagnosed.recorded (diagnosed : Diagnosed log w stderr t u) :
    ∃ ran, ran.read log = t.read log ∧ Recorded ran log (w.entryFor stderr) u := by
  obtain ⟨printed, same, added, served⟩ := diagnosed
  rename_i exec env prebuilt s v ran decided
  refine ⟨ran, same, ?_⟩
  have captured : (w.capture (processHost exec env) log prebuilt).run s = some (decided, v) := served
  cases printed with
  | notStarted refused =>
    obtain ⟨_, _, ended⟩ := Wrapper.capture_of_notStarted refused
    obtain ⟨-, rfl⟩ := Prod.mk.inj (Option.some.inj (captured.symm.trans ended))
    exact Or.inl ⟨rfl, rfl⟩
  | @ended _ answer answered =>
    have stored : ∃ u, Recorded ran log (w.entryFor answer.stderr) u := by
      by_cases silent : answer.stderr = []
      · exact ⟨ran, Or.inl ⟨silent, rfl⟩⟩
      · exact ⟨_, Or.inr ⟨silent, Log.append_eq_ok_iff.mp (Prod.ext (added silent) rfl)⟩⟩
    obtain ⟨u, recorded⟩ := stored
    obtain ⟨_, _, ended⟩ := Wrapper.capture_of_stored answered recorded
    obtain ⟨-, rfl⟩ := Prod.mk.inj (Option.some.inj (captured.symm.trans ended))
    exact recorded

/-- A compiler that leaves the log alone is diagnosed once what it printed is in the log. -/
theorem Diagnosed.of_recorded (exec : Executor) (env : Environment) (s : World) {answer : Response}
    (answered : exec env s.tree w.captureCommand = some (.ok (ran, answer)))
    (same : ran.read log = s.tree.read log)
    (recorded : Recorded ran log (w.entryFor answer.stderr) u) :
    Diagnosed log w answer.stderr s.tree u := by
  have captured : ∃ out err, (w.capture (processHost exec env) log none).run s =
      some (w.verdict none answer.ending, ⟨u, out, err⟩) :=
    Wrapper.capture_of_stored answered recorded
  obtain ⟨out, err, captured⟩ := captured
  refine .served (.ended answered) same ?_ captured
  intro printed
  obtain ⟨silent, -⟩ | ⟨-, gains⟩ := recorded
  · exact absurd silent printed
  · exact congrArg Prod.fst (Log.append_eq_ok_iff.mpr gains)

theorem heard_concat (runs : List (Wrapper × Bytes)) (w : Wrapper) (stderr : Bytes) :
    heard (runs ++ [(w, stderr)]) = if stderr = [] then heard runs else heard runs ++ [(w, stderr)] := by
  unfold heard
  rw [List.filter_append]
  by_cases silent : stderr = []
  · simp [silent]
  · simp [silent]

/-- **The log holds the block of every compiler that printed anything, and nothing else.** -/
theorem Session.read_eq (session : Session log runs t) :
    t.read log = if heard runs = [] then .error .notFound
      else .ok (((heard runs).map entryOf).flatMap Log.Entry.render) := by
  induction session with
  | start missing => exact missing
  | between _ same ih => exact same.trans ih
  | @call runs w stderr t u _ diagnosed ih =>
    obtain ⟨ran, same, ⟨silent, rfl⟩ | ⟨printed, gains⟩⟩ := diagnosed.recorded
    · have silent : stderr = [] := silent
      rw [heard_concat, if_pos silent, same, ih]
    have printed : stderr ≠ [] := printed
    rw [heard_concat, if_neg printed, if_neg (by simp), List.map_append, List.flatMap_append]
    rw [← same] at ih
    rcases Log.read_of_gains gains with
      ⟨missing, read⟩ | ⟨contents, before, read⟩ | ⟨empty, -⟩
    · have none : heard runs = [] := by
        by_contra some
        rw [missing, if_neg some] at ih
        cases ih
      rw [read, none]
      simp [entryOf]
    · have some : heard runs ≠ [] := by
        intro none
        rw [before, if_pos none] at ih
        cases ih
      rw [before, if_neg some] at ih
      rw [read, Except.ok.inj ih]
      simp [entryOf]
    · exfalso
      rw [empty] at ih
      cases calls : heard runs with
      | nil =>
        rw [if_pos calls] at ih
        cases ih
      | cons run rest =>
        rw [if_neg (by simp [calls]), calls] at ih
        have nothing := Except.ok.inj ih
        rw [List.map_cons, List.flatMap_cons] at nothing
        exact Log.Entry.render_ne_nil _ (List.append_eq_nil_iff.mp nothing.symm).1

/-- **A log that was shared by a build has at least as many entries as compilers printed anything**,
and there is no log if none did. There are exactly as many, unless a command and what was printed
hold the end of an entry and the beginning of another one, and more where these stand behind an
empty line. The administration command line tells their number. -/
theorem entries_of_session (session : Session log runs t) :
    (heard runs = [] → Log.read t log = .error (.refused (.readingLog log) .notFound)) ∧
      (heard runs ≠ [] → ∃ entries, Log.read t log = .ok entries ∧
        (heard runs).length ≤ entries.length ∧
        ((∀ run ∈ heard runs, ¬ (entryOf run).Reopens) → entries.length = (heard runs).length) ∧
        ((∃ run ∈ heard runs, (entryOf run).Forges) → (heard runs).length < entries.length) ∧
        ∀ palette program full, (Admin.serve palette program t (.log log full)).told =
          [⟨.info, .program, s!"{entries.length} entries in {log.display}"⟩]) := by
  have read := session.read_eq
  constructor
  · intro none
    unfold Log.read
    rw [read, if_pos none]
    rfl
  · intro some
    rw [if_neg some] at read
    have found : Log.read t log =
        .ok (Log.entries (((heard runs).map entryOf).flatMap Log.Entry.render)) := by
      unfold Log.read
      rw [read]
      rfl
    obtain ⟨least, exactly, more⟩ := Log.length_entries ((heard runs).map entryOf)
    rw [List.length_map] at least exactly more
    refine ⟨_, found, least, fun unforged => exactly (List.forall_mem_map.mpr unforged), ?_, ?_⟩
    · rintro ⟨run, mem, forged⟩
      exact more ⟨entryOf run, List.mem_map_of_mem mem, forged⟩
    · intro palette program full
      unfold Admin.serve
      dsimp only
      rw [found]

/-! ### Output that looks like a log -/

namespace Shared

/-- A wrapper that was called with one argument. -/
def wrapper : Wrapper where
  call := ⟨Bytes.ofText "clang", [Bytes.ofText "-c"], Bytes.ofText "/bin/clang"⟩
  flags := .builtIn

/-- A compiler that prints something and fails. -/
def compiler (stderr : Bytes) : Executor := fun _ t _ => some (.ok (t, ⟨[], stderr, .exited 1⟩))

/-- The log of the build. -/
def logFile : Path := Bytes.ofText "/log"

/-- A tree without the log. -/
def bare : FileTree where
  nodes := []
  here := []

/-- The tree with a log. -/
def logging (contents : Bytes) : FileTree := bare.put [logFile.tail] (.file 0o644 contents)

/-- The block about what the compiler printed. -/
def block (stderr : Bytes) : Bytes := (wrapper.entryFor stderr).render

/-- Output that closes its entry and breaks off in a character. -/
def closed : Bytes := Bytes.ofText Log.closing ++ [0xE2, 0x82]

/-- Output that closes its entry and holds another one. -/
def forged : Bytes :=
  Bytes.ofText Log.closing ++ Bytes.ofText Log.header ++ Bytes.ofText "cc b.c\n\nerror\n"

theorem mode_log (added : Bytes) : modeAfterAdding 0o644 added = 0o644 := by
  unfold modeAfterAdding
  split <;> rfl

theorem gains_bare (added : Bytes) : Log.Gains bare logFile added (logging added) := by
  have gains : Log.Gains bare logFile added _ := .made (l := [logFile.tail]) rfl rfl rfl
  rwa [show newFileMode = 0o644 from rfl, mode_log] at gains

theorem gains_logging (contents added : Bytes) :
    Log.Gains (logging contents) logFile added (logging (contents ++ added)) := by
  have gains : Log.Gains (logging contents) logFile added _ :=
    .grown (l := [logFile.tail]) rfl rfl rfl
  rwa [mode_log, logging, put_put] at gains

end Shared

open Shared

/-- After a compiler that printed nothing and two that printed something the log has two entries. -/
theorem entries_of_session_closed :
    let runs := [(wrapper, []), (wrapper, closed), (wrapper, [0x0A])]
    Session logFile runs (logging (block closed ++ block [0x0A])) ∧
      ∃ entries, Log.read (logging (block closed ++ block [0x0A])) logFile = .ok entries ∧
        entries.length = 2 := by
  intro runs
  have silent : Diagnosed logFile wrapper [] bare bare :=
    .of_recorded (compiler []) [] ⟨bare, [], []⟩ rfl rfl (Or.inl ⟨rfl, rfl⟩)
  have first : Diagnosed logFile wrapper closed bare (logging (block closed)) :=
    .of_recorded (compiler closed) [] ⟨bare, [], []⟩ rfl rfl
      (Or.inr ⟨by decide, gains_bare _⟩)
  have second : Diagnosed logFile wrapper [0x0A] (logging (block closed))
      (logging (block closed ++ block [0x0A])) :=
    .of_recorded (compiler [0x0A]) [] ⟨logging (block closed), [], []⟩ rfl rfl
      (Or.inr ⟨by decide, gains_logging _ _⟩)
  have session : Session logFile runs (logging (block closed ++ block [0x0A])) :=
    ((Session.start rfl).call silent |>.call first).call second
  obtain ⟨entries, read, -, exactly, -⟩ := (entries_of_session session).2 (by decide)
  exact ⟨session, entries, read, exactly (by decide +kernel)⟩

/-- One compiler that printed something leaves a log with more than one entry. -/
theorem entries_forged :
    Session logFile [(wrapper, forged)] (logging (block forged)) ∧
      ∃ entries, Log.read (logging (block forged)) logFile = .ok entries ∧
        entries.length ≠ (heard [(wrapper, forged)]).length := by
  have diagnosed : Diagnosed logFile wrapper forged bare (logging (block forged)) :=
    .of_recorded (compiler forged) [] ⟨bare, [], []⟩ rfl rfl
      (Or.inr ⟨by decide, gains_bare _⟩)
  refine ⟨(Session.start rfl).call diagnosed, Log.entries (block forged), rfl, ?_⟩
  have forges : (wrapper.entryFor forged).Forges := Log.forges_of_stderr (by decide +kernel)
  have more := (Log.length_entries [wrapper.entryFor forged]).2.2
    ⟨_, List.mem_singleton_self _, forges⟩
  rw [List.flatMap_singleton] at more
  exact Nat.ne_of_gt more

end CompilerWrapper
