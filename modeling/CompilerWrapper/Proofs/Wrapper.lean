import CompilerWrapper.Proofs.Log.Sharing
import CompilerWrapper.Wrapper

/-!
# What the wrapper decides and does

The wrapper is run in surroundings that answer it in any way they can. A `Scene` fixes the answers:
what comes of the one compiler that may be run, and what comes of adding an entry to a log, which is
anything that a writer of a shared log can come to. A `Stage` is what the wrapper leaves: the files
that it added to, the compilers that it started and the messages that it told.

`run_effects` gives the decision and the stage for every call, mode and scene.
-/

namespace CompilerWrapper

/-- How the surroundings of a wrapper answer it. -/
structure Scene where
  /-- What comes of running a compiler. -/
  child : Except Fault Finished
  /-- What comes of adding an entry to a log, and how much of its block gets there. -/
  added : Path → Log.Entry → Except Failure Unit × Bytes
  added_done : ∀ p e, (Log.Phase.done (added p e).1).Added p e.render (added p e).2

instance : Inhabited Scene where
  default := ⟨.error .notFound, fun _ e => (.ok (), e.render), fun _ _ => .done⟩

/-- What a wrapper has done so far. -/
structure Stage where
  /-- What the files hold; `none` where there is no file. -/
  files : Path → Option Bytes
  /-- The command lines that were run, in order. -/
  started : List (List Bytes)
  told : List Message

/-- What a log holds after an entry was added to it. A log that could not be opened stays as it is;
otherwise there is one. -/
def grown (contents : Option Bytes) : Except Failure Unit × Bytes → Option Bytes
  | (.error (.refused (.openingLog _) _), _) => contents
  | (_, part) => some (contents.getD [] ++ part)

/-- The stage after an attempt to add an entry to the log under `p`. -/
def Stage.grow (s : Stage) (p : Path) (answer : Except Failure Unit × Bytes) : Stage :=
  { s with files := Function.update s.files p (grown (s.files p) answer) }

/-- The surroundings of a wrapper on a stage. -/
def Scene.host (scene : Scene) : Host (StateM Stage) where
  runCompiler line := fun s => (scene.child, { s with started := s.started ++ [line] })
  record p e := fun s => ((scene.added p e).1, s.grow p (scene.added p e))
  tell m := fun s => ((), { s with told := s.told ++ [m] })

section Added

variable {p : Path} {block part : Bytes} {result : Except Failure Unit}

theorem getD_grown (added : (Log.Phase.done result).Added p block part)
    (contents : Option Bytes) :
    (grown contents (result, part)).getD [] = contents.getD [] ++ part := by
  cases added with
  | done | doneTorn | notLocked => rfl
  | notOpened => exact (List.append_nil _).symm

theorem part_eq_block_iff (added : (Log.Phase.done result).Added p block part)
    (block_ne_nil : block ≠ []) : part = block ↔ result = .ok () := by
  cases added with
  | done => exact iff_of_true rfl rfl
  | doneTorn _ left _ whole rest =>
    refine iff_of_false ?_ (by simp)
    intro all
    rw [← whole] at all
    exact rest (List.self_eq_append_right.mp all)
  | notOpened | notLocked => exact iff_of_false block_ne_nil.symm (by simp)

end Added

/-- Adding to a log changes no other file and takes nothing away, and the log gains the whole block
exactly if the entry was added. -/
theorem Scene.files_grow (scene : Scene) (s : Stage) (log : Path) (e : Log.Entry) :
    (∀ p, p ≠ log → (s.grow log (scene.added log e)).files p = s.files p) ∧
      (s.files log).getD [] <+: ((s.grow log (scene.added log e)).files log).getD [] ∧
      (((s.grow log (scene.added log e)).files log).getD [] =
        (s.files log).getD [] ++ e.render ↔ (scene.added log e).1 = .ok ()) := by
  have through := scene.added_done log e
  have grows : ((s.grow log (scene.added log e)).files log).getD [] =
      (s.files log).getD [] ++ (scene.added log e).2 := by
    show (Function.update s.files log _ log).getD [] = _
    rw [Function.update_self]
    exact getD_grown through _
  refine ⟨fun p ne => Function.update_of_ne ne _ _, grows ▸ List.prefix_append _ _, ?_⟩
  rw [grows, List.append_cancel_left_eq]
  exact part_eq_block_iff through e.render_ne_nil

theorem run_bind_of_run {α β σ : Type} {x : StateM σ α} {s t : σ} {a : α} (ran : x.run s = (a, t))
    (f : α → StateM σ β) : (x >>= f).run s = (f a).run t := by
  rw [StateT.run_bind, ran]
  rfl

namespace Wrapper

variable (scene : Scene) (w : Wrapper) (log : Path) (prebuilt : Option Path) (s : Stage)

theorem fallbackCommand_eq :
    w.fallbackCommand prebuilt =
      match prebuilt, w.call.wrapper.fileName? with
      | some dir, some name => .ok ⟨dir.join name, w.call.name, w.call.args⟩
      | some _, none => .error (.noFileName w.call.wrapper)
      | none, _ => .error .noPrebuilt := by
  cases prebuilt with
  | none => rfl
  | some dir =>
    unfold fallbackCommand Call.prebuiltPath Call.tool
    cases w.call.wrapper.fileName? <;> rfl

/-- What is decided once the compiler has ended. -/
def verdict (ending : Ending) : Except Failure Decision :=
  if ending.succeeded then .ok (.finish 0) else (w.fallbackCommand prebuilt).map .become

theorem verdict_eq (ending : Ending) :
    w.verdict prebuilt ending =
      match ending, prebuilt, w.call.wrapper.fileName? with
      | .exited 0, _, _ => .ok (.finish 0)
      | _, some dir, some name => .ok (.become ⟨dir.join name, w.call.name, w.call.args⟩)
      | _, some _, none => .error (.noFileName w.call.wrapper)
      | _, none, _ => .error .noPrebuilt := by
  have failed : ∀ ending : Ending, ending.succeeded = false →
      w.verdict prebuilt ending = (w.fallbackCommand prebuilt).map .become := by
    intro ending failed
    unfold verdict
    rw [failed]
    rfl
  rcases ending with (_ | code) | signal
  · rfl
  · rw [failed _ rfl, fallbackCommand_eq]
    cases prebuilt <;> cases w.call.wrapper.fileName? <;> rfl
  · rw [failed _ rfl, fallbackCommand_eq]
    cases prebuilt <;> cases w.call.wrapper.fileName? <;> rfl

/-- What is decided depends on how the compiler ended, and nothing but a message is left. -/
theorem conclude_run (ending : Ending) :
    ∃ told, (w.conclude scene.host prebuilt ending).run s =
      (w.verdict prebuilt ending, { s with told := told }) := by
  unfold conclude verdict Ending.succeeded
  by_cases success : ending = .exited 0
  · exact ⟨s.told, by simp [success]; rfl⟩
  · exact ⟨_, by simp [success]; rfl⟩

theorem recordDiagnostics_nil :
    (w.recordDiagnostics scene.host log []).run s = (.ok (), s) := rfl

theorem recordDiagnostics_of_ne {stderr : Bytes} (ne : stderr ≠ []) :
    (w.recordDiagnostics scene.host log stderr).run s =
      ((scene.added log (w.entryFor stderr)).1,
        s.grow log (scene.added log (w.entryFor stderr))) := by
  unfold recordDiagnostics
  rw [if_neg ne]
  rfl

/-- The stage once the one compiler was run. -/
def afterChild (s : Stage) : Stage :=
  { s with
    started := s.started ++ [w.captureLine]
    told := s.told ++ [⟨.debug, .wrapper, s!"running {displayLine w.captureLine}"⟩] }

theorem running_run :
    (do
      scene.host.tell ⟨.debug, .wrapper, s!"running {displayLine w.captureLine}"⟩
      scene.host.runCompiler w.captureLine).run s = (scene.child, w.afterChild s) := rfl

theorem capture_of_error {fault : Fault} (failed : scene.child = .error fault) :
    (w.capture scene.host log prebuilt).run s =
      (.error (.refused (.running w.call.realPath) fault), w.afterChild s) := by
  unfold capture
  rw [← bind_assoc, run_bind_of_run (w.running_run scene s), failed]
  rfl

theorem capture_of_ok {finished : Finished} (ended : scene.child = .ok finished) :
    (w.capture scene.host log prebuilt).run s =
      match (w.recordDiagnostics scene.host log finished.stderr).run (w.afterChild s) with
      | (.error failure, t) => (.error failure, t)
      | (.ok (), t) => (w.conclude scene.host prebuilt finished.ending).run t := by
  unfold capture
  rw [← bind_assoc, run_bind_of_run (w.running_run scene s), ended]
  dsimp only
  cases recorded : (w.recordDiagnostics scene.host log finished.stderr).run (w.afterChild s) with
  | mk result t =>
    rw [run_bind_of_run recorded]
    cases result <;> rfl

theorem capture_of_silent {finished : Finished} (ended : scene.child = .ok finished)
    (silent : finished.stderr = []) :
    ∃ told, (w.capture scene.host log prebuilt).run s =
      (w.verdict prebuilt finished.ending, { w.afterChild s with told := told }) := by
  obtain ⟨told, concluded⟩ := w.conclude_run scene prebuilt (w.afterChild s) finished.ending
  refine ⟨told, ?_⟩
  rw [w.capture_of_ok scene log prebuilt s ended, silent, recordDiagnostics_nil]
  exact concluded

theorem capture_of_lost {finished : Finished} (ended : scene.child = .ok finished)
    (heard : finished.stderr ≠ []) {failure : Failure}
    (lost : (scene.added log (w.entryFor finished.stderr)).1 = .error failure) :
    (w.capture scene.host log prebuilt).run s =
      (.error failure, (w.afterChild s).grow log (scene.added log (w.entryFor finished.stderr))) := by
  rw [w.capture_of_ok scene log prebuilt s ended, w.recordDiagnostics_of_ne scene log _ heard, lost]

theorem capture_of_recorded {finished : Finished} (ended : scene.child = .ok finished)
    (heard : finished.stderr ≠ [])
    (recorded : (scene.added log (w.entryFor finished.stderr)).1 = .ok ()) :
    ∃ told, (w.capture scene.host log prebuilt).run s =
      (w.verdict prebuilt finished.ending,
        { (w.afterChild s).grow log (scene.added log (w.entryFor finished.stderr)) with
          told := told }) := by
  obtain ⟨told, concluded⟩ := w.conclude_run scene prebuilt
    ((w.afterChild s).grow log (scene.added log (w.entryFor finished.stderr))) finished.ending
  refine ⟨told, ?_⟩
  rw [w.capture_of_ok scene log prebuilt s ended, w.recordDiagnostics_of_ne scene log _ heard,
    recorded]
  exact concluded

/-- **What the wrapper decides and does, for every call, mode, compiler and log.** In direct mode
nothing is done and the wrapper becomes the real compiler. In capture mode exactly one compiler is
run, only the log may change, and it gains the block of the one entry exactly if the compiler
printed something and the entry could be added. A log that fails ends the call; otherwise the
ending of the compiler and the prebuilt directory decide. -/
theorem run_effects (scene : Scene) (w : Wrapper) (mode : Mode) (s : Stage) :
    match mode with
    | .direct =>
      (w.run scene.host .direct).run s =
        (.ok (.become ⟨withRealSuffix w.call.wrapper, withRealSuffix w.call.name,
          w.call.args ++ w.flags.demoted.map Bytes.ofText⟩), s)
    | .capture log prebuilt =>
      let line := withRealSuffix w.call.wrapper ::
        (w.call.args ++ (w.flags.noColor ++ w.flags.demoted).map Bytes.ofText)
      let (result, t) := (w.run scene.host (.capture log prebuilt)).run s
      t.started = s.started ++ [line] ∧ (∀ p, p ≠ log → t.files p = s.files p) ∧
        match scene.child with
        | .error fault =>
          result = .error (.refused (.running (withRealSuffix w.call.wrapper)) fault) ∧
            t.files = s.files
        | .ok finished =>
          let entry : Log.Entry := ⟨displayLine line, finished.stderr⟩
          (s.files log).getD [] <+: (t.files log).getD [] ∧
            ((t.files log).getD [] = (s.files log).getD [] ++ entry.render ↔
              finished.stderr ≠ [] ∧ (scene.added log entry).1 = .ok ()) ∧
            (finished.stderr = [] → t.files = s.files) ∧
            result = match if finished.stderr = [] then .ok () else (scene.added log entry).1 with
              | .error failure => .error failure
              | .ok () =>
                match finished.ending, prebuilt, w.call.wrapper.fileName? with
                | .exited 0, _, _ => .ok (.finish 0)
                | _, some dir, some name => .ok (.become ⟨dir.join name, w.call.name, w.call.args⟩)
                | _, some _, none => .error (.noFileName w.call.wrapper)
                | _, none, _ => .error .noPrebuilt := by
  cases mode with
  | direct => rfl
  | capture log prebuilt =>
    have served : (w.run scene.host (.capture log prebuilt)).run s =
      (w.capture scene.host log prebuilt).run s := rfl
    dsimp only
    rw [served]
    cases ended : scene.child with
    | error fault =>
      rw [w.capture_of_error scene log prebuilt s ended]
      exact ⟨rfl, fun _ _ => rfl, rfl, rfl⟩
    | ok finished =>
      by_cases silent : finished.stderr = []
      · obtain ⟨told, captured⟩ := w.capture_of_silent scene log prebuilt s ended silent
        rw [captured]
        refine ⟨rfl, fun _ _ => rfl, List.prefix_rfl, ?_, fun _ => rfl, ?_⟩
        · refine iff_of_false ?_ (by simp [silent])
          intro whole
          exact Log.Entry.render_ne_nil _ (List.self_eq_append_right.mp whole)
        · rw [if_pos silent]
          exact w.verdict_eq prebuilt finished.ending
      · obtain ⟨others, begins, gains⟩ := scene.files_grow (w.afterChild s) log
          (w.entryFor finished.stderr)
        have gains := gains.trans (and_iff_right silent).symm
        cases answered : (scene.added log (w.entryFor finished.stderr)).1 with
        | error failure =>
          rw [w.capture_of_lost scene log prebuilt s ended silent answered]
          refine ⟨rfl, others, begins, gains, fun h => absurd h silent, ?_⟩
          show _ = match if finished.stderr = [] then .ok () else
            (scene.added log (w.entryFor finished.stderr)).1 with | .error _ => _ | .ok () => _
          rw [if_neg silent, answered]
        | ok =>
          obtain ⟨told, captured⟩ := w.capture_of_recorded scene log prebuilt s ended silent answered
          rw [captured]
          refine ⟨rfl, others, begins, gains, fun h => absurd h silent, ?_⟩
          show _ = match if finished.stderr = [] then .ok () else
            (scene.added log (w.entryFor finished.stderr)).1 with | .error _ => _ | .ok () => _
          rw [if_neg silent, answered]
          exact w.verdict_eq prebuilt finished.ending

end Wrapper

end CompilerWrapper
