import CompilerWrapper.Process.Run

/-!
# Following more programs changes no answer

`execute` is told how many programs it may follow, one started from the other. An answer that it
gives stays the same if it may follow more (`execute_mono`), and a process *ends* if it has one for
some number.
-/

namespace CompilerWrapper

/-- The second way to run commands gives every answer of the first one. -/
def Executor.Le (exec exec' : Executor) : Prop :=
  ∀ env t c answer, exec env t c = some answer → exec' env t c = some answer

/-- The second effect comes to everything that the first one comes to. -/
def Running.Le {α : Type} (x y : Running α) : Prop :=
  ∀ w result, x.run w = some result → y.run w = some result

namespace Running

variable {α β : Type}

theorem Le.refl (x : Running α) : Le x x := fun _ _ => id

theorem Le.bind {x y : Running α} {f g : α → Running β} (le : Le x y) (le' : ∀ a, Le (f a) (g a)) :
    Le (x >>= f) (y >>= g) := by
  intro w result ran
  rw [StateT.run_bind] at ran ⊢
  obtain ⟨⟨a, w'⟩, first, rest⟩ := Option.bind_eq_some_iff.mp ran
  exact Option.bind_eq_some_iff.mpr ⟨(a, w'), le w _ first, le' a w' _ rest⟩

end Running

variable {exec exec' : Executor} (le : exec.Le exec') (env : Environment)

include le

theorem runCaptured_le (line : List Bytes) :
    Running.Le (runCaptured exec env line) (runCaptured exec' env line) := by
  cases line with
  | nil => exact .refl _
  | cons program args =>
    refine .bind (.refl _) fun w => .bind ?_ fun _ => .refl _
    intro w' result ran
    obtain ⟨answer, answered, same⟩ := Option.bind_eq_some_iff.mp ran
    exact Option.bind_eq_some_iff.mpr ⟨answer, le _ _ _ _ answered, same⟩

theorem run_le (w : Wrapper) (mode : Mode) :
    Running.Le (w.run (processHost exec env) mode) (w.run (processHost exec' env) mode) := by
  cases mode with
  | direct => exact .refl _
  | capture log prebuilt =>
    refine .bind (.refl _) fun _ => .bind (runCaptured_le le env w.captureLine) fun ran => ?_
    exact .refl _

theorem serveCall_le (wrapper : Path) (words : List Bytes) :
    Running.Le (serveCall exec env wrapper words) (serveCall exec' env wrapper words) := by
  unfold serveCall
  cases Call.ofWords words wrapper with
  | error failure => exact .refl _
  | ok call =>
    refine .bind (.refl _) fun w => ?_
    cases Flags.resolve w.tree call.dir with
    | error failure => exact .refl _
    | ok found =>
      refine .bind (.refl _) fun _ => .bind (.refl _) fun _ => ?_
      exact run_le le env _ _

theorem become_le {t : FileTree} {c : Command} {answer : Except Fault (FileTree × Response)}
    (became : become exec env t c = some answer) : become exec' env t c = some answer := by
  obtain ⟨first, ran, rest⟩ := Option.bind_eq_some_iff.mp became
  refine Option.bind_eq_some_iff.mpr ⟨first, le _ _ _ _ ran, ?_⟩
  split at rest
  · exact le _ _ _ _ rest
  · exact rest

theorem carryOut_le {w : World} {decided : Except Failure Decision}
    {answer : FileTree × Response} (carried : carryOut exec env w decided = some answer) :
    carryOut exec' env w decided = some answer := by
  rcases decided with failure | (code | command)
  · exact carried
  · exact carried
  · obtain ⟨first, became, rest⟩ := Option.bind_eq_some_iff.mp carried
    exact Option.bind_eq_some_iff.mpr ⟨first, become_le le env became, rest⟩

theorem runWrapper_le {t : FileTree} {place : Location} {c : Command}
    {answer : FileTree × Response} (ran : runWrapper exec env t place c = some answer) :
    runWrapper exec' env t place c = some answer := by
  unfold runWrapper at ran ⊢
  split at ran
  next admin => rw [if_pos admin, ran]
  next compiler =>
    rw [if_neg compiler]
    obtain ⟨⟨decided, w⟩, served, carried⟩ := Option.bind_eq_some_iff.mp ran
    exact Option.bind_eq_some_iff.mpr
      ⟨(decided, w), serveCall_le le env _ _ _ _ served, carryOut_le le env carried⟩

omit le env

/-- **An answer stays the same if more programs may be followed.** -/
theorem execute_mono (m : Machine) {fuel more : Nat} (bound : fuel ≤ more) :
    (execute m fuel).Le (execute m more) := by
  induction fuel generalizing more with
  | zero =>
    intro env t c answer ran
    cases ran
  | succ fuel ih =>
    obtain ⟨more, rfl⟩ := Nat.exists_eq_succ_of_ne_zero (Nat.ne_zero_of_lt bound)
    have le := ih (Nat.le_of_succ_le_succ bound)
    intro env t c answer ran
    rw [execute] at ran ⊢
    cases found : findProgram m env t c with
    | error fault =>
      rw [found] at ran
      exact ran
    | ok image =>
      rw [found] at ran
      dsimp only at ran ⊢
      cases program : image.program with
      | other respond =>
        rw [program] at ran
        exact ran
      | wrapper =>
        rw [program] at ran
        obtain ⟨ended, ran, same⟩ := Option.map_eq_some_iff.mp ran
        exact Option.map_eq_some_iff.mpr ⟨ended, runWrapper_le le env ran, same⟩

/-- The command runs to an end. -/
def Ends (m : Machine) (env : Environment) (t : FileTree) (c : Command) : Prop :=
  ∃ fuel answer, execute m fuel env t c = some answer

/-- A program that is found is started, so that an answer tells how it ended. -/
theorem execute_of_found {m : Machine} {env : Environment} {t : FileTree} {c : Command}
    {image : Image} (found : findProgram m env t c = .ok image) (fuel : Nat) :
    execute m (fuel + 1) env t c = none ∨
      ∃ answer, execute m (fuel + 1) env t c = some (.ok answer) := by
  rw [execute, found]
  dsimp only
  cases image.program with
  | other respond => exact Or.inr ⟨_, rfl⟩
  | wrapper =>
    dsimp only
    cases runWrapper (execute m fuel) env t image.place image.command with
    | none => exact Or.inl rfl
    | some answer => exact Or.inr ⟨answer, rfl⟩

end CompilerWrapper
