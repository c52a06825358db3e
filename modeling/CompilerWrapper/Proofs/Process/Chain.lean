import CompilerWrapper.Proofs.Process.Capture
import CompilerWrapper.Proofs.Process.Fuel
import Mathlib.Logic.Relation

/-!
# Chains of fallbacks

A process in capture mode whose real compiler failed becomes the prebuilt compiler, with the call
and the environment that it had. Nothing tells the prebuilt compiler from the wrapper: if it is a
copy of the wrapper, it captures again, and may hand over again. `HandsOver` is one such step, from
a command in a file tree to the next one. A process ends exactly if the chain of these steps comes
to a command that hands over no more and ends (`ends_iff_chain_ends`).

So there is one fallback and an end where the prebuilt compiler is no copy of the wrapper
(`single_shot`). Where it is one there may be two of them (`two_fallbacks`) or no end at all
(`endless_fallback`).
-/

namespace CompilerWrapper

open FileTree

section Chain

variable {m : Machine} {env : Environment} {t u v : FileTree} {c d e : Command} {image : Image}
  {log : Path}

/-! ### Becoming another program -/

/-- The command that is run in the end by a process that becomes a program: where the file is no
program the shell takes it over. -/
def replacement (m : Machine) (env : Environment) (t : FileTree) (c : Command) : Command :=
  match findProgram m env t c with
  | .error .notExecutable => Shell.commandFor c
  | _ => c

theorem replacement_of_found (found : findProgram m env t c = .ok image) :
    replacement m env t c = c := by
  unfold replacement
  rw [found]

theorem become_execute (m : Machine) (fuel : Nat) (env : Environment) (t : FileTree) (c : Command) :
    become (execute m fuel) env t c = execute m fuel env t (replacement m env t c) := by
  cases fuel with
  | zero => rfl
  | succ fuel =>
    unfold become replacement
    cases found : findProgram m env t c with
    | error fault =>
      have refused : execute m (fuel + 1) env t c = some (.error fault) := by
        rw [execute, found]
      cases fault with
      | notExecutable =>
        rw [refused]
        rfl
      | _ =>
        dsimp only
        rw [refused]
        rfl
    | ok image =>
      dsimp only
      rcases execute_of_found found fuel with none | ⟨answer, some⟩
      · rw [none]
        rfl
      · rw [some]
        rfl

/-! ### One step of a chain -/

/-- A process in capture mode whose real compiler failed goes on as the prebuilt compiler, with the
call that it was given. -/
inductive HandsOver (m : Machine) (env : Environment) (t : FileTree) (c : Command) :
    FileTree → Command → Prop where
  | mk {image : Image} {log dir : Path} {name : Name} {fuel : Nat} {flags : Flags}
      {answer : Response} {u : FileTree} :
      Captures m env t c image log →
      Captured (execute m fuel) env image.call log (t.start image.place) flags answer u →
      answer.ending ≠ .exited 0 →
      env.get? prebuiltVariable = some dir → image.call.wrapper.fileName? = some name →
      HandsOver m env t c (u.stop image.place)
        (replacement m env (u.stop image.place) ⟨dir.join name, image.call.name, image.call.args⟩)

/-! ### Before a process hands over -/

/-- A decision stays the same if more programs may be followed. -/
theorem Serves.mono {exec exec' : Executor} {c : Call} {decided : Except Failure Decision}
    (capture : env.get? redirectVariable = some log) (le : exec.Le exec')
    (serves : Serves exec env c log t decided u) : Serves exec' env c log t decided u := by
  obtain ⟨out, err, served⟩ := serveCall_of_serves capture (s := ⟨t, [], []⟩) serves
  exact (serves_iff capture).mp ⟨out, err, serveCall_le le env _ _ _ _ served⟩

/-- What is decided does not depend on how many programs may be followed, if they are enough. -/
theorem Serves.unique_of_execute {fuel more : Nat} {call : Call}
    {decided decided' : Except Failure Decision} (capture : env.get? redirectVariable = some log)
    (serves : Serves (execute m fuel) env call log t decided u)
    (serves' : Serves (execute m more) env call log t decided' v) : decided = decided' ∧ u = v := by
  have first := serves.mono capture (execute_mono m (Nat.le_max_left fuel more))
  have second := serves'.mono capture (execute_mono m (Nat.le_max_right fuel more))
  exact first.unique capture second

theorem CarriesOut.mono {exec exec' : Executor} {decided : Except Failure Decision}
    {ending : Ending} (le : exec.Le exec') (carries : CarriesOut exec env t decided u ending) :
    CarriesOut exec' env t decided u ending := by
  cases carries with
  | gaveUp => exact .gaveUp
  | finished => exact .finished
  | notReplaced became => exact .notReplaced (become_le le env became)
  | replaced became => exact .replaced (become_le le env became)

/-- A process hands over exactly if it decides to become a program. -/
theorem handsOver_iff : HandsOver m env t c u d ↔
    ∃ image log fuel command v, Captures m env t c image log ∧
      Serves (execute m fuel) env image.call log (t.start image.place) (.ok (.become command)) v ∧
      u = v.stop image.place ∧ d = replacement m env u command := by
  constructor
  · rintro ⟨captures, captured, failed, prebuilt, named⟩
    have serves := Serves.captured captured
    rw [Wrapper.verdict_eq_become_iff.mpr ⟨failed, _, _, prebuilt, named, rfl⟩] at serves
    exact ⟨_, _, _, _, _, captures, serves, rfl, rfl⟩
  · rintro ⟨image, log, fuel, command, v, captures, serves, rfl, rfl⟩
    generalize decided : (.ok (.become command) : Except Failure Decision) = decision at serves
    cases serves with
    | invalidFlags => cases decided
    | notStarted => cases decided
    | notRecorded => cases decided
    | captured captured =>
      obtain ⟨failed, dir, name, prebuilt, named, rfl⟩ :=
        Wrapper.verdict_eq_become_iff.mp decided.symm
      exact ⟨captures, captured, failed, prebuilt, named⟩

/-! ### After a process handed over -/

/-- The command ends in some way, and leaves a tree. -/
def EndsAs (m : Machine) (env : Environment) (t : FileTree) (c : Command) (u : FileTree)
    (ending : Ending) : Prop :=
  ∃ fuel out err, execute m fuel env t c = some (.ok (u, ⟨out, err, ending⟩))

/-- The command cannot be run. -/
def Refused (m : Machine) (env : Environment) (t : FileTree) (c : Command) : Prop :=
  ∃ fuel fault, execute m fuel env t c = some (.error fault)

/-- **One step of a chain**: how a process ends that hands over is found, with one program less, in
what becomes of the command that takes over. -/
theorem HandsOver.execute_succ {fuel : Nat} {out err : Bytes} {ending : Ending}
    (hands : HandsOver m env t c u d)
    (ran : execute m (fuel + 1) env t c = some (.ok (v, ⟨out, err, ending⟩))) :
    (∃ answer, execute m fuel env u d = some (.ok (v, answer)) ∧ answer.ending = ending) ∨
      ∃ fault, execute m fuel env u d = some (.error fault) ∧ v = u ∧ ending = .exited 1 := by
  obtain ⟨image, log, fuel', command, w, captures, serves, rfl, rfl⟩ := handsOver_iff.mp hands
  obtain ⟨decided, w', serves', carried⟩ :=
    (execute_capture_iff captures fuel).mp ⟨out, err, ran⟩
  obtain ⟨rfl, rfl⟩ := serves.unique_of_execute captures.capture serves'
  rw [← become_execute]
  cases carried with
  | notReplaced became => exact Or.inr ⟨_, became, rfl, rfl⟩
  | replaced became => exact Or.inl ⟨_, became, rfl⟩

theorem HandsOver.descends {fuel : Nat} {answer : Except Fault (FileTree × Response)}
    (hands : HandsOver m env t c u d) (ran : execute m (fuel + 1) env t c = some answer) :
    ∃ answer', execute m fuel env u d = some answer' := by
  obtain ⟨image, log, -, -, -, captures, -⟩ := handsOver_iff.mp hands
  rcases execute_of_found captures.found fuel with none | ⟨⟨v, out, err, ending⟩, some⟩
  · rw [none] at ran
    cases ran
  · rcases hands.execute_succ some with ⟨answer', ran', -⟩ | ⟨fault, ran', -⟩
    · exact ⟨_, ran'⟩
    · exact ⟨_, ran'⟩

/-- A process that hands over ends as the command does that takes over, and with the exit code 1 if
that cannot be run. -/
theorem HandsOver.endsAs_iff {ending : Ending} (hands : HandsOver m env t c u d) :
    EndsAs m env t c v ending ↔
      EndsAs m env u d v ending ∨ (Refused m env u d ∧ v = u ∧ ending = .exited 1) := by
  constructor
  · rintro ⟨fuel, out, err, ran⟩
    cases fuel with
    | zero => cases ran
    | succ fuel =>
      rcases hands.execute_succ ran with ⟨answer, ran', rfl⟩ | ⟨fault, ran', same⟩
      · exact Or.inl ⟨fuel, _, _, ran'⟩
      · exact Or.inr ⟨⟨fuel, fault, ran'⟩, same⟩
  · intro ends
    obtain ⟨image, log, fuel, command, w, captures, serves, rfl, rfl⟩ := handsOver_iff.mp hands
    obtain ⟨more, carried⟩ : ∃ more, CarriesOut (execute m more) env (w.stop image.place)
        (.ok (.become command)) v ending := by
      rcases ends with ⟨more, out, err, ran⟩ | ⟨⟨more, fault, ran⟩, rfl, rfl⟩
      · rw [← become_execute] at ran
        exact ⟨more, .replaced ran⟩
      · rw [← become_execute] at ran
        exact ⟨more, .notReplaced ran⟩
    have serves := serves.mono captures.capture (execute_mono m (Nat.le_max_left fuel more))
    have carried := carried.mono (execute_mono m (Nat.le_max_right fuel more))
    exact ⟨_, (execute_capture_iff captures _).mpr ⟨_, w, serves, carried⟩⟩

theorem HandsOver.ends_iff (hands : HandsOver m env t c u d) :
    Ends m env t c ↔ Ends m env u d := by
  constructor
  · rintro ⟨fuel, answer, ran⟩
    cases fuel with
    | zero => cases ran
    | succ fuel => exact ⟨fuel, hands.descends ran⟩
  · rintro ⟨fuel, fault | ⟨v, out, err, ending⟩, ran⟩
    · obtain ⟨fuel', out, err, ran'⟩ :=
        hands.endsAs_iff.mpr (Or.inr ⟨⟨fuel, fault, ran⟩, rfl, rfl⟩)
      exact ⟨fuel', _, ran'⟩
    · obtain ⟨fuel', out', err', ran'⟩ := hands.endsAs_iff.mpr (Or.inl ⟨fuel, out, err, ran⟩)
      exact ⟨fuel', _, ran'⟩

/-- A process hands over to one command only, and with one tree. -/
theorem HandsOver.unique (hands : HandsOver m env t c u d) (hands' : HandsOver m env t c v e) :
    u = v ∧ d = e := by
  obtain ⟨image, log, fuel, command, w, captures, serves, rfl, rfl⟩ := handsOver_iff.mp hands
  obtain ⟨image', log', fuel', command', w', captures', serves', rfl, rfl⟩ :=
    handsOver_iff.mp hands'
  obtain rfl := Except.ok.inj (captures.found.symm.trans captures'.found)
  obtain rfl := Option.some.inj (captures.capture.symm.trans captures'.capture)
  obtain ⟨same, rfl⟩ := serves.unique_of_execute captures.capture serves'
  cases same
  exact ⟨rfl, rfl⟩

/-- A chain that can always go on has no end. -/
theorem not_ends_of_closed (going : FileTree → Command → Prop)
    (closed : ∀ t c, going t c → ∃ u d, HandsOver m env t c u d ∧ going u d)
    (starts : going t c) (fuel : Nat) : execute m fuel env t c = none := by
  induction fuel generalizing t c with
  | zero => rfl
  | succ fuel ih =>
    obtain ⟨u, d, hands, goes⟩ := closed t c starts
    cases ran : execute m (fuel + 1) env t c with
    | none => rfl
    | some answer =>
      obtain ⟨answer', ran'⟩ := hands.descends ran
      rw [ih goes] at ran'
      cases ran'

/-! ### Chains -/

/-- The chain of fallbacks leads from one command in a tree to another. -/
def LeadsTo (m : Machine) (env : Environment) : FileTree × Command → FileTree × Command → Prop :=
  Relation.ReflTransGen fun a b => HandsOver m env a.1 a.2 b.1 b.2

/-- **A process ends exactly if the chain of fallbacks comes to one that hands over no more and
ends.** -/
theorem ends_iff_chain_ends : Ends m env t c ↔
    ∃ last, LeadsTo m env (t, c) last ∧ Ends m env last.1 last.2 ∧
      ∀ v e, ¬ HandsOver m env last.1 last.2 v e := by
  constructor
  · rintro ⟨fuel, answer, ran⟩
    induction fuel generalizing t c answer with
    | zero => cases ran
    | succ fuel ih =>
      by_cases hands : ∃ u d, HandsOver m env t c u d
      · obtain ⟨u, d, hands⟩ := hands
        obtain ⟨answer', ran'⟩ := hands.descends ran
        obtain ⟨last, leads, ends⟩ := ih answer' ran'
        exact ⟨last, .head hands leads, ends⟩
      · exact ⟨(t, c), .refl, ⟨_, _, ran⟩, fun v e next => hands ⟨v, e, next⟩⟩
  · rintro ⟨last, leads, ends, -⟩
    generalize start : (t, c) = first at leads
    induction leads using Relation.ReflTransGen.head_induction_on generalizing t c with
    | refl =>
      subst start
      exact ends
    | head hands _ ih =>
      subst start
      exact hands.ends_iff.mpr (ih rfl)

/-! ### One fallback -/

/-- What does not serve a call in capture mode ends, where capture mode is asked for. -/
theorem ends_of_not_captures (capture : env.get? redirectVariable = some log)
    (other : ∀ image, ¬ Captures m env t c image log) : Ends m env t c := by
  refine ⟨1, ?_⟩
  rw [execute]
  cases found : findProgram m env t c with
  | error fault => exact ⟨_, rfl⟩
  | ok image =>
    dsimp only
    cases program : image.program with
    | other respond => exact ⟨_, rfl⟩
    | wrapper =>
      have admin : Admin.isAdmin image.command.arg0 = true := by
        by_contra compiler
        exact other image ⟨found, program, by simpa using compiler, capture⟩
      unfold runWrapper
      rw [if_pos admin]
      exact ⟨_, rfl⟩

/-- A process whose real compiler ends, ends or hands over. -/
theorem ends_or_handsOver (captures : Captures m env t c image log)
    (compiler : ∀ flags, Flags.Valid (t.start image.place) image.call.dir flags →
      Ends m env (t.start image.place) (Wrapper.captureCommand ⟨image.call, flags⟩)) :
    Ends m env t c ∨ ∃ u d, HandsOver m env t c u d := by
  have serves : ∃ fuel decided v,
      Serves (execute m fuel) env image.call log (t.start image.place) decided v := by
    cases resolved : Flags.resolve (t.start image.place) image.call.dir with
    | error failure => exact ⟨0, _, _, .invalidFlags resolved⟩
    | ok found =>
      obtain ⟨fuel, answer, ran⟩ := compiler found.1 (Flags.valid_iff.mpr ⟨found.2, resolved⟩)
      rcases serves_or_none (execute m fuel) env image.call log (t.start image.place) with
        serves | ⟨flags, valid, endless⟩
      · exact ⟨fuel, serves⟩
      · obtain ⟨told, resolved'⟩ := Flags.valid_iff.mp valid
        obtain rfl := Except.ok.inj (resolved.symm.trans resolved')
        rw [endless] at ran
        cases ran
  obtain ⟨fuel, decided, v, serves⟩ := serves
  rcases decided with failure | (code | command)
  · obtain ⟨out, err, ended⟩ :=
      (execute_capture_iff captures fuel).mpr ⟨_, v, serves, .gaveUp⟩
    exact Or.inl ⟨_, _, ended⟩
  · obtain ⟨out, err, ended⟩ :=
      (execute_capture_iff captures fuel).mpr ⟨_, v, serves, .finished⟩
    exact Or.inl ⟨_, _, ended⟩
  · exact Or.inr ⟨_, _, handsOver_iff.mpr ⟨_, _, _, _, _, captures, serves, rfl, rfl⟩⟩

/-- **A process in capture mode whose prebuilt compiler does not capture again falls back at most
once, to another program, and ends, if its real compiler does.** -/
theorem single_shot (captures : Captures m env t c image log)
    (compiler : ∀ flags, Flags.Valid (t.start image.place) image.call.dir flags →
      Ends m env (t.start image.place) (Wrapper.captureCommand ⟨image.call, flags⟩))
    (prebuilt : ∀ u d, HandsOver m env t c u d → ∀ image, ¬ Captures m env u d image log) :
    Ends m env t c ∧
      ∀ u d, HandsOver m env t c u d →
        findProgram m env u d ≠ .ok image ∧ ∀ v e, ¬ HandsOver m env u d v e := by
  constructor
  case left =>
    rcases ends_or_handsOver captures compiler with ends | ⟨u, d, hands⟩
    · exact ends
    · exact hands.ends_iff.mpr (ends_of_not_captures captures.capture (prebuilt u d hands))
  case right =>
    intro u d hands
    constructor
    · intro same
      exact prebuilt u d hands image ⟨same, captures.wrapper, captures.compiler, captures.capture⟩
    · rintro v e ⟨captures', -, -, -, -⟩
      have log' := Option.some.inj (captures.capture.symm.trans captures'.capture)
      rw [← log'] at captures'
      exact prebuilt u d hands _ captures'

end Chain

/-! ### Toolchains that are wrapped or not -/

namespace Toolchains

/-- A compiler that says nothing. -/
def compiler (code : Nat) : Program := .other fun _ _ t => (t, ⟨[], [], .exited code⟩)

/-- The wrapper, a compiler that fails, and one that succeeds. -/
def machine : Machine where
  load contents :=
    if contents = [0] then some .wrapper
    else if contents = [1] then some (compiler 1)
    else if contents = [2] then some (compiler 0)
    else none

/-- A place in a directory below the root. -/
def place (dir name : String) : Location := [Bytes.ofText dir, Bytes.ofText name]

/-- The wrapper beside a compiler that fails, and other toolchains. -/
def tree (others : List (Location × Node)) : FileTree where
  nodes := [([Bytes.ofText "bin"], .directory), (place "bin" "clang", .file 0o755 [0]),
    (place "bin" "clang.real", .file 0o755 [1])] ++ others
  here := []

/-- The log that the environment names. -/
def logFile : Path := Bytes.ofText "/log"

/-- The environment of a build that captures diagnostics, with a prebuilt toolchain. -/
def env (prebuilt : String) : Environment :=
  [(redirectVariable, logFile), (prebuiltVariable, Bytes.ofText prebuilt)]

/-- A call of the compiler that a path names. -/
def call (program : String) : Command :=
  ⟨Bytes.ofText program, Bytes.ofText "clang", [Bytes.ofText "-c"]⟩

/-- What the call runs where the wrapper lies at a place. -/
def image (program : String) (place : Location) : Image := ⟨.wrapper, place, call program⟩

/-- A prebuilt toolchain as it comes. -/
def plain : FileTree :=
  tree [([Bytes.ofText "pre"], .directory), (place "pre" "clang", .file 0o755 [2])]

/-- A prebuilt toolchain whose compiler is a link to a wrapper of another name. -/
def wrapped : FileTree :=
  tree [([Bytes.ofText "other"], .directory), (place "other" "clang-18", .file 0o755 [0]),
    (place "other" "clang-18.real", .file 0o755 [1]), ([Bytes.ofText "pre"], .directory),
    (place "pre" "clang", .link (Bytes.ofText "../other/clang-18")),
    (place "pre" "clang-18", .file 0o755 [2])]

/-- The call of the prebuilt compiler of a name that comes in place of a wrapper. -/
def prebuiltCall (prebuilt name : String) (image : Image) : Command :=
  ⟨Path.join (Bytes.ofText prebuilt) (Bytes.ofText name), image.call.name, image.call.args⟩

/-- A real compiler that fails without a word leaves the tree as it is. -/
theorem handsOver_of_silent {prebuilt : String} {t : FileTree} {c : Command} (image : Image)
    (name : String) (next : Image) {out : Bytes} {ending : Ending}
    (captures : Captures machine (env prebuilt) t c image logFile)
    (valid : Flags.Valid (t.start image.place) image.call.dir .builtIn)
    (ran : execute machine 1 (env prebuilt) (t.start image.place)
      (Wrapper.captureCommand ⟨image.call, .builtIn⟩) =
        some (.ok (t.start image.place, ⟨out, [], ending⟩)))
    (failed : ending ≠ .exited 0) (named : image.call.wrapper.fileName? = some (Bytes.ofText name))
    (found : findProgram machine (env prebuilt) t (prebuiltCall prebuilt name image) = .ok next) :
    HandsOver machine (env prebuilt) t c t (prebuiltCall prebuilt name image) := by
  have captured : Captured (execute machine 1) (env prebuilt) image.call logFile
      (t.start image.place) .builtIn ⟨out, [], ending⟩ (t.start image.place) :=
    ⟨valid, _, ran, Or.inl ⟨rfl, rfl⟩⟩
  have hands := HandsOver.mk captures captured failed rfl named
  unfold prebuiltCall at found ⊢
  rw [stop_start, replacement_of_found found] at hands
  exact hands

theorem handsOver_plain :
    HandsOver machine (env "/pre") plain (call "/bin/clang") plain (call "/pre/clang") :=
  handsOver_of_silent (image "/bin/clang" (place "bin" "clang")) "clang"
    ⟨compiler 0, place "pre" "clang", call "/pre/clang"⟩
    ⟨rfl, rfl, rfl, rfl⟩ (Or.inl ⟨rfl, rfl⟩) rfl (by decide) rfl rfl

end Toolchains

open Toolchains

/-- With a toolchain as it comes the compile is over after one fallback. -/
theorem single_shot_plain :
    Captures machine (env "/pre") plain (call "/bin/clang")
        (image "/bin/clang" (place "bin" "clang")) logFile ∧
      Ends machine (env "/pre") plain (call "/bin/clang") ∧
      HandsOver machine (env "/pre") plain (call "/bin/clang") plain (call "/pre/clang") ∧
      ∀ v e, ¬ HandsOver machine (env "/pre") plain (call "/pre/clang") v e := by
  have captures : Captures machine (env "/pre") plain (call "/bin/clang")
      (image "/bin/clang" (place "bin" "clang")) logFile := ⟨rfl, rfl, rfl, rfl⟩
  have ends : ∀ flags, Flags.Valid (plain.start (place "bin" "clang"))
      (image "/bin/clang" (place "bin" "clang")).call.dir flags →
        Ends machine (env "/pre") (plain.start (place "bin" "clang"))
          (Wrapper.captureCommand ⟨(image "/bin/clang" (place "bin" "clang")).call, flags⟩) := by
    rintro flags (⟨-, rfl⟩ | ⟨present, -⟩)
    · exact ⟨1, _, rfl⟩
    · cases present
  have other : ∀ u d, HandsOver machine (env "/pre") plain (call "/bin/clang") u d →
      ∀ image, ¬ Captures machine (env "/pre") u d image logFile := by
    intro u d hands image captures
    obtain ⟨rfl, rfl⟩ := hands.unique handsOver_plain
    have found : findProgram machine (env "/pre") plain (call "/pre/clang") =
        .ok ⟨compiler 0, place "pre" "clang", call "/pre/clang"⟩ := rfl
    obtain rfl := Except.ok.inj (found.symm.trans captures.found)
    cases captures.wrapper
  have shot := single_shot captures ends other
  exact ⟨captures, shot.1, handsOver_plain, (shot.2 _ _ handsOver_plain).2⟩

/-- **Where the prebuilt compiler is a wrapper of another name, there are two fallbacks**: the build
is told that the compile succeeded, although the prebuilt compiler failed like the real one. -/
theorem two_fallbacks :
    HandsOver machine (env "/pre") wrapped (call "/bin/clang") wrapped (call "/pre/clang") ∧
      HandsOver machine (env "/pre") wrapped (call "/pre/clang") wrapped (call "/pre/clang-18") ∧
      EndsAs machine (env "/pre") wrapped (call "/bin/clang") wrapped (.exited 0) := by
  have first : HandsOver machine (env "/pre") wrapped (call "/bin/clang") wrapped
      (call "/pre/clang") :=
    handsOver_of_silent (image "/bin/clang" (place "bin" "clang")) "clang"
      (image "/pre/clang" (place "other" "clang-18"))
      ⟨rfl, rfl, rfl, rfl⟩ (Or.inl ⟨rfl, rfl⟩) rfl (by decide) rfl rfl
  have second : HandsOver machine (env "/pre") wrapped (call "/pre/clang") wrapped
      (call "/pre/clang-18") :=
    handsOver_of_silent (image "/pre/clang" (place "other" "clang-18")) "clang-18"
      ⟨compiler 0, place "pre" "clang-18", call "/pre/clang-18"⟩
      ⟨rfl, rfl, rfl, rfl⟩ (Or.inl ⟨rfl, rfl⟩) rfl (by decide) rfl rfl
  have last : EndsAs machine (env "/pre") wrapped (call "/pre/clang-18") wrapped (.exited 0) :=
    ⟨1, [], [], rfl⟩
  exact ⟨first, second, first.endsAs_iff.mpr (Or.inl (second.endsAs_iff.mpr (Or.inl last)))⟩

/-- **Where the prebuilt toolchain is the wrapper's own directory, the wrapper becomes itself again
and again**, with the same call and the same environment. -/
theorem endless_fallback :
    HandsOver machine (env "/bin") plain (call "/bin/clang") plain (call "/bin/clang") ∧
      ¬ Ends machine (env "/bin") plain (call "/bin/clang") := by
  have again : HandsOver machine (env "/bin") plain (call "/bin/clang") plain (call "/bin/clang") :=
    handsOver_of_silent (image "/bin/clang" (place "bin" "clang")) "clang"
      (image "/bin/clang" (place "bin" "clang"))
      ⟨rfl, rfl, rfl, rfl⟩ (Or.inl ⟨rfl, rfl⟩) rfl (by decide) rfl rfl
  refine ⟨again, ?_⟩
  rintro ⟨fuel, answer, ran⟩
  have none := not_ends_of_closed (fun t c => t = plain ∧ c = call "/bin/clang")
    (by
      rintro t c ⟨rfl, rfl⟩
      exact ⟨_, _, again, rfl, rfl⟩)
    ⟨rfl, rfl⟩ fuel
  rw [none] at ran
  cases ran

end CompilerWrapper
