import CompilerWrapper.Proofs.Install
import CompilerWrapper.Proofs.Process.Direct

/-!
# An installed wrapper is transparent

Who runs a tool or an alias after an install runs the compiler that was the tool before it, with
the flags that are always added. Two pieces of the program have to agree for that: the installer,
which names the real compiler after the name in the plan, and the wrapper, which names it after its
own place; and the link of an alias has to lead to the compiler of its target.

`install_transparent` needs that the wrapper to be copied is not found through the link of an alias,
since that link is made anew before the copy. And the compiler starts only if its words can be
handed to it: a flag of a valid configuration can hold a zero character, and no word of a program
can.
`install_not_transparent` has an install and a flag where it goes wrong.
-/

namespace CompilerWrapper

open FileTree Install

variable {m : Machine} {env : Environment} {t u : FileTree} {l : Location}

/-! ### The file of the real compiler -/

theorem withRealSuffix_absolute (l : Location) (name : String) :
    withRealSuffix (absolutePath (nameAt l name)) = absolutePath (realAt l name) := by
  unfold withRealSuffix absolutePath realAt nameAt
  rw [ofText_append, Path.ofParts_append, List.cons_append]

/-- Writing to a file does not take the permission to run it away. -/
theorem mayRun_modeAfterAdding (mode : Nat) (contents : Bytes) :
    mayRun (modeAfterAdding mode contents) = mayRun mode := by
  have low : ∀ i < 9, (modeAfterAdding mode contents).testBit i = mode.testBit i := by
    intro i h
    have same : (modeAfterAdding mode contents % 2 ^ 9).testBit i = (mode % 2 ^ 9).testBit i :=
      congrArg (Nat.testBit · i) (modeAfterAdding_mod mode contents)
    rwa [Nat.testBit_mod_two_pow, Nat.testBit_mod_two_pow, decide_eq_true h, Bool.true_and,
      Bool.true_and] at same
  unfold mayRun
  rw [low 0 (by decide), low 3 (by decide), low 6 (by decide)]

section Real

variable {name : Name} (rooted : Rooted t l) (isName : Path.IsName name)
  (short : name.length ≤ nameLimit) (fits : checkPath (absolutePath (l ++ [name])) = .ok ())

include rooted isName

theorem isProper_concat : ∀ other ∈ l ++ [name], Path.IsProper other := by
  intro other h
  rcases List.mem_append.mp h with h | h
  · exact rooted.isProper other h
  · exact List.mem_singleton.mp h ▸ isName.toIsProper

include fits

theorem resolve_absolute :
    t.resolve (absolutePath (l ++ [name])) = (follow t linkLimit l [name]).map Prod.fst := by
  rw [resolve_eq t fits]
  unfold absolutePath
  rw [Path.steps_absolute (isProper_concat rooted isName)]
  exact congrArg _ (follow_of_advance_eq (rooted.advance_append [name]))

include short

theorem resolve_absolute_of_file {mode : Nat} {contents : Bytes}
    (node : t.node? (l ++ [name]) = some (.file mode contents)) :
    t.resolve (absolutePath (l ++ [name])) = .ok (l ++ [name]) := by
  have halted := advance_entry isName rooted.directory
  rw [if_neg (Nat.not_lt.mpr short), node] at halted
  rw [resolve_absolute rooted isName fits, follow_of_reached halted]
  rfl

/-- A link to a name in the same directory leads to the entry of that name. -/
theorem resolve_absolute_of_link {target : Name} {mode : Nat} {contents : Bytes}
    (isName' : Path.IsName target) (short' : target.length ≤ nameLimit)
    (link : t.node? (l ++ [name]) = some (.link target))
    (node : t.node? (l ++ [target]) = some (.file mode contents)) :
    t.resolve (absolutePath (l ++ [name])) = .ok (l ++ [target]) := by
  have halted := advance_entry isName rooted.directory
  rw [if_neg (Nat.not_lt.mpr short), link] at halted
  have halted' := advance_entry isName' rooted.directory
  rw [if_neg (Nat.not_lt.mpr short'), node] at halted'
  have onward : follow t linkLimit l [name] = .ok (l ++ [target], 39) := by
    unfold linkLimit
    rw [follow_of_link halted, Path.origin_part isName'.no_slash,
      Path.steps_part isName'.ne_nil isName'.no_slash, List.append_nil]
    exact follow_of_reached halted'
  rw [resolve_absolute rooted isName fits, onward]
  rfl

end Real

/-! ### Before and after an install -/

/-- A directory of compilers at `l`, and a plan that can be installed into it: the names of the plan
are kept apart, what is to be moved is a file, and compilers can be run and are no wrappers. -/
structure Wrappable (m : Machine) (plan : Plan) (t : FileTree) (l : Location) : Prop where
  distinct : plan.Distinct
  here : Rooted t t.here
  dir : t.resolve (plan.dir.join Path.here) = .ok l
  files : ∀ tool ∈ plan.tools, HasFiles t l tool
  compilers : ∀ tool ∈ plan.tools, ∀ mode contents,
    compiler? t l tool = some (.file mode contents) →
      mayRun mode = true ∧ m.load contents ≠ some .wrapper

/-- The wrapper that is to be copied is a file that can be run. -/
def FindsWrapper (m : Machine) (plan : Plan) (t : FileTree) : Prop :=
  ∃ source mode contents, t.resolve plan.wrapper = .ok source ∧
    t.node? source = some (.file mode contents) ∧ mayRun mode = true ∧
      m.load contents = some .wrapper

/-- The tree `u` is what the install left, but for the file with the flags. -/
def Configured (plan : Plan) (t : FileTree) (l : Location) (u : FileTree) : Prop :=
  ∀ place, (place = nameAt l Flags.fileName → Flags.fileName ∈ plan.names) →
    u.node? place = (Install.run plan t).tree.node? place

/-- The tool whose compiler serves a name: the name itself, or the target of an alias. -/
def toolOf? (plan : Plan) (name : String) : Option String :=
  if name ∈ plan.tools then some name else target? plan.aliases name

/-- The command runs what stands under a name, as a compiler and in direct mode. -/
structure Calls (env : Environment) (u : FileTree) (l : Location) (name : String) (c : Command) :
    Prop where
  slash : Path.slash ∈ c.program
  place : u.resolve c.program = .ok (nameAt l name)
  no_zero : holdsZero env c = false
  fits : startFits env c = true
  compiler : Admin.isAdmin c.arg0 = false
  direct : env.get? redirectVariable = none
  unset : env.get? filterVariable = none

/-- The command of the real compiler that a call of a name comes to. -/
def realCommand (l : Location) (name : String) (flags : Flags) (c : Command) : Command where
  program := absolutePath (realAt l name)
  arg0 := c.arg0 ++ Bytes.ofText realSuffix
  args := c.args ++ flags.demoted.map Bytes.ofText

/-- What the process leaves that gives up because the real compiler cannot be started. More may
follow the reason on standard error, where the environment asks for it. -/
def notStarted (u : FileTree) (l : Location) (name : String) (fault : Fault) (more : String) :
    FileTree × Response :=
  let real := absolutePath (realAt l name)
  giveUp ⟨u, [], []⟩ (s!"Error: failed to execute {real.display}: {fault.message}\n" ++ more)

theorem mem_names_of_toolOf? {plan : Plan} {name tool : String}
    (serves : toolOf? plan name = some tool) : name ∈ plan.names := by
  unfold toolOf? at serves
  split at serves
  next mem => exact mem_names_of_tool mem
  next =>
    obtain ⟨a, mem, rfl, -⟩ := exists_of_target?_eq_some serves
    exact mem_names_of_alias mem

theorem real_ne_fileName (name : String) : name ++ realSuffix ≠ Flags.fileName := by
  intro same
  have ends : realSuffix.toList <:+ Flags.fileName.toList := by
    rw [← same, String.toList_append]
    exact List.suffix_append _ _
  exact absurd ends (by decide)

/-- What the flags beside the wrapper do not touch. -/
theorem Configured.nameAt {plan : Plan} (configured : Configured plan t l u) {name : String}
    (mem : name ∈ plan.names) :
    u.node? (nameAt l name) = (Install.run plan t).tree.node? (nameAt l name) :=
  configured _ fun same => nameAt_inj same ▸ mem

theorem Configured.realAt {plan : Plan} (configured : Configured plan t l u) (name : String) :
    u.node? (realAt l name) = (Install.run plan t).tree.node? (realAt l name) :=
  configured _ fun same => absurd (nameAt_inj same) (real_ne_fileName name)

theorem above_ne_nameAt {above : Location} (h : above <+: l) (name : String) :
    above ≠ nameAt l name := by
  rintro rfl
  have length := h.length_le
  unfold Install.nameAt at length
  rw [List.length_append, List.length_singleton] at length
  omega

theorem Configured.rooted {plan : Plan} (configured : Configured plan t l u)
    {mode : Nat} {contents : Bytes}
    (installed : Installed plan t l mode contents (Install.run plan t).tree) (rooted : Rooted t l) :
    Rooted u l := by
  apply rooted.congr
  intro above h directory
  rw [configured above fun same => absurd same (above_ne_nameAt h _), installed.frame above,
    directory]
  exact fun name _ => ⟨above_ne_nameAt h name, above_ne_nameAt h _⟩

theorem dir_absolute (rooted : Rooted t l) {name : String}
    (isName : Path.IsName (Bytes.ofText name)) (arg0 : Bytes) (args : List Bytes) :
    Call.dir ⟨arg0, args, absolutePath (nameAt l name)⟩ = absolutePath l := by
  unfold Call.dir absolutePath Install.nameAt
  rw [Path.parent?_absolute (isProper_concat rooted isName)]
  rfl

/-- Beside every name stands the compiler of its tool, or a link to it. -/
theorem findFile_real {plan : Plan} (wrappable : Wrappable m plan t l)
    (configured : Configured plan t l u) {mode : Nat} {contents : Bytes}
    (installed : Installed plan t l mode contents (Install.run plan t).tree) (rooted : Rooted u l)
    {name tool : String} (serves : toolOf? plan name = some tool)
    (fits : checkPath (absolutePath (realAt l name)) = .ok ()) :
    ∃ mode contents, compiler? t l tool = some (.file mode contents) ∧
      findFile u (absolutePath (realAt l name)) = .ok (realAt l tool, contents) := by
  have mem := mem_names_of_toolOf? serves
  have isReal : ∀ name ∈ plan.names, Path.IsName (Bytes.ofText (name ++ realSuffix)) :=
    fun name h => isName_real (wrappable.distinct.isName name h)
  have compiler : ∀ tool ∈ plan.tools, ∃ mode contents,
      compiler? t l tool = some (.file mode contents) ∧ mayRun mode = true ∧
        u.node? (realAt l tool) = some (.file mode contents) := by
    intro tool h
    obtain ⟨some, beside⟩ := installed.compilers tool h
    obtain ⟨n, compiler⟩ := Option.isSome_iff_exists.mp some
    obtain ⟨mode, contents, rfl⟩ := (wrappable.files tool h).compiler compiler
    refine ⟨mode, contents, compiler, (wrappable.compilers tool h mode contents compiler).1, ?_⟩
    rw [configured.realAt, beside, compiler]
  unfold toolOf? at serves
  split at serves
  next h =>
    obtain rfl := Option.some.inj serves
    obtain ⟨mode, contents, compiler, runs, node⟩ := compiler name h
    refine ⟨mode, contents, compiler, findFile_of_resolve ?_ node runs⟩
    exact resolve_absolute_of_file rooted (isReal name mem) (installed.nameable name mem).short
      fits node
  next =>
    obtain ⟨a, h, rfl, rfl⟩ := exists_of_target?_eq_some serves
    have target := installed.targets a h
    have mem' := mem_names_of_tool target
    obtain ⟨mode, contents, compiler, runs, node⟩ := compiler a.target target
    have link := (configured.realAt a.name).trans (installed.links a.name a.target serves)
    refine ⟨mode, contents, compiler, findFile_of_resolve ?_ node runs⟩
    exact resolve_absolute_of_link rooted (isReal a.name mem) (installed.nameable a.name mem).short
      fits (isReal a.target mem') (installed.nameable a.target mem').short link node

/-- Only a flag can bring a zero byte into the command of the real compiler. -/
theorem holdsZero_realCommand {name : String}
    (fits : checkPath (absolutePath (realAt l name)) = .ok ()) {c : Command}
    (no_zero : holdsZero env c = false) (flags : Flags) :
    holdsZero env (realCommand l name flags c) = false ↔
      ∀ flag ∈ flags.demoted, '\x00' ∉ flag.toList := by
  have zero_mem : ∀ text : String, 0 ∈ Bytes.ofText text ↔ '\x00' ∈ text.toList :=
    fun text => Utf8.mem_encode_iff (c := '\x00') (by decide) text.toList
  have path := (checkPath_eq_ok_iff.mp fits).1
  have suffix : 0 ∉ Bytes.ofText realSuffix := by decide
  obtain ⟨-, arg0, args, rest⟩ := holdsZero_eq_false_iff.mp no_zero
  rw [holdsZero_eq_false_iff]
  constructor
  · rintro ⟨-, -, words, -⟩ flag mem
    rw [← zero_mem]
    exact words _ (List.mem_append_right _ (List.mem_map_of_mem mem))
  · intro plain
    refine ⟨path, List.not_mem_append arg0 suffix, fun word mem => ?_, rest⟩
    rcases List.mem_append.mp mem with mem | mem
    · exact args word mem
    · obtain ⟨flag, listed, rfl⟩ := List.mem_map.mp mem
      exact mt (zero_mem flag).mp (plain flag listed)

/-- The wrapper beside a real compiler becomes it. -/
theorem execute_beside {name : String} {mode : Nat} {contents : Bytes} {flags : Flags}
    {told : List Message} {c : Command} (rooted : Rooted u l)
    (isName : Path.IsName (Bytes.ofText name))
    (node : u.node? (nameAt l name) = some (.file mode contents)) (runs : mayRun mode = true)
    (loaded : m.load contents = some .wrapper)
    (valid : Flags.resolve u (absolutePath l) = .ok (flags, told)) (calls : Calls env u l name c)
    (fuel : Nat) :
    execute m (fuel + 1) env u c = (carryOut (execute m fuel) env ⟨u, [], []⟩
      (.ok (.become (realCommand l name flags c)))).map .ok := by
  have found := findFile_of_resolve calls.place node runs
  have direct := execute_direct calls.slash found calls.no_zero calls.fits loaded calls.compiler
    calls.direct calls.unset (by rw [dir_absolute rooted isName]; exact valid) fuel
  have same : Wrapper.directCommand ⟨⟨c.arg0, c.args, absolutePath (nameAt l name)⟩, flags⟩ =
      realCommand l name flags c := by
    unfold Wrapper.directCommand Call.realPath
    rw [withRealSuffix_absolute]
    rfl
  rw [same] at direct
  exact direct

/-- The wrapper gives up where the real compiler cannot be started. -/
theorem carryOut_notStarted {name : String} {flags : Flags} {c : Command} {fault : Fault}
    (refused : findProgram m env u (realCommand l name flags c) = .error fault)
    (ne : fault ≠ .notExecutable) (fuel : Nat) :
    ∃ more, carryOut (execute m (fuel + 1)) env ⟨u, [], []⟩
      (.ok (.become (realCommand l name flags c))) = some (notStarted u l name fault more) := by
  refine ⟨"", ?_⟩
  rw [carryOut_of_fault (execute_of_fault refused fuel) ne, notStarted, String.append_empty]
  rfl

/-- **Who calls a tool or an alias after an install runs the compiler that was the tool before.**
The process becomes the real compiler and does nothing else. The file that is run then is the one
that was the tool, and if it is a program and its words can be handed to it, its answer is that of
the call. They cannot where a flag holds a zero character, or where they are too long; the process
then says so and gives up. -/
theorem install_transparent {plan : Plan} (wrappable : Wrappable m plan t l)
    (wrapper : FindsWrapper m plan (t.without (plan.links l)))
    (done : (Install.run plan t).failure? = none) (configured : Configured plan t l u)
    {flags : Flags} {told : List Message}
    (valid : Flags.resolve u (absolutePath l) = .ok (flags, told))
    {name tool : String} (serves : toolOf? plan name = some tool) {c : Command}
    (calls : Calls env u l name c) (fits : checkPath (absolutePath (realAt l name)) = .ok ()) :
    (Install.run plan t).tree.resolve (plan.path name) = .ok (nameAt l name) ∧
      ∃ mode contents, compiler? t l tool = some (.file mode contents) ∧
      findFile u (absolutePath (realAt l name)) = .ok (realAt l tool, contents) ∧
      (∀ fuel, execute m (fuel + 1) env u c =
        (carryOut (execute m fuel) env ⟨u, [], []⟩
          (.ok (.become (realCommand l name flags c)))).map .ok) ∧
      ((∃ flag ∈ flags.demoted, '\x00' ∈ flag.toList) → ∀ fuel, ∃ more,
        execute m (fuel + 2) env u c = some (.ok (notStarted u l name .zeroInWord more))) ∧
      ((∀ flag ∈ flags.demoted, '\x00' ∉ flag.toList) → ∀ fuel,
        (startFits env (realCommand l name flags c) = false → ∃ more,
          execute m (fuel + 2) env u c =
            some (.ok (notStarted u l name .argumentsTooLong more))) ∧
        (startFits env (realCommand l name flags c) = true →
          ∀ respond, m.load contents = some (.other respond) →
            execute m (fuel + 2) env u c =
              some (.ok (respond env (realCommand l name flags c) u)))) := by
  obtain ⟨source, mode, contents, resolved, node, runs, loaded⟩ := wrapper
  have distinct := wrappable.distinct
  have prepared : Prepared plan t l mode contents :=
    ⟨wrappable.dir, wrappable.files,
      fun tool h same => (wrappable.compilers tool h _ _ same).2 loaded, source, resolved, node⟩
  have installed := run_installed distinct prepared done
  obtain ⟨left, leads⟩ := leadsTo_of_resolve wrappable.dir
  have rooted := configured.rooted installed (leads.rooted wrappable.here)
  have mem := mem_names_of_toolOf? serves
  have wrapped := (configured.nameAt mem).trans (installed.wrapped name mem).2
  have becomes := execute_beside rooted (distinct.isName name mem) wrapped
    ((mayRun_modeAfterAdding mode contents).trans runs) loaded valid calls
  obtain ⟨mode', contents', compiler, real⟩ :=
    findFile_real wrappable configured installed rooted serves fits
  have gives_up : ∀ fault, findProgram m env u (realCommand l name flags c) = .error fault →
      fault ≠ .notExecutable → ∀ fuel, ∃ more,
        execute m (fuel + 2) env u c = some (.ok (notStarted u l name fault more)) := by
    intro fault refused ne fuel
    obtain ⟨more, carried⟩ := carryOut_notStarted refused ne fuel
    refine ⟨more, ?_⟩
    rw [becomes (fuel + 1), carried]
    rfl
  have no_zero := holdsZero_realCommand fits calls.no_zero flags
  obtain ⟨_, leads'⟩ := installed.dir
  refine ⟨resolve_join_of_file (installed.wrapped name mem).1 leads' (installed.wrapped name mem).2,
    mode', contents', compiler, real, becomes, ?_, fun plain fuel => ⟨fun long => ?_, ?_⟩⟩
  · rintro ⟨flag, mem, zero⟩
    refine gives_up _ (findProgram_of_zero ?_) (by decide)
    rw [← Bool.not_eq_false, no_zero]
    exact fun plain => plain flag mem zero
  · exact gives_up _ (findProgram_of_long List.mem_cons_self real (no_zero.mpr plain) long)
      (by decide) fuel
  · intro fits' respond loaded'
    have answers :=
      execute_other List.mem_cons_self real (no_zero.mpr plain) fits' loaded' fuel
    rw [becomes (fuel + 1), carryOut_become answers]
    rfl

/-! ### Installs of a wrapper -/

namespace Echo

/-- A compiler that prints its arguments. -/
def compiler (_ : Environment) (c : Command) (t : FileTree) : FileTree × Response :=
  (t, ⟨c.args.flatten, [], .exited 0⟩)

/-- A machine with two programs: the wrapper and that compiler. -/
def machine : Machine where
  load contents :=
    if contents = [0] then some .wrapper
    else if contents = [1] then some (.other compiler)
    else none

/-- The directory of the compiler. -/
def bin : Location := [Bytes.ofText "bin"]

/-- The compiler, and the wrapper at a place. -/
def tree (source : Location) : FileTree where
  nodes := [(bin, .directory), (nameAt bin "clang", .file 0o755 [1]), (source, .file 0o755 [0])]
  here := []

/-- Installs that wrapper under the name of the compiler and under an alias. -/
def plan (source : Location) : Plan where
  dir := absolutePath bin
  wrapper := absolutePath source
  tools := ["clang"]
  aliases := [⟨"clang++", "clang"⟩]

/-- What the install leaves. -/
def installed (source : Location) : Outcome := Install.run (plan source) (tree source)

/-- A call with one argument. -/
def call (name : String) : Command where
  program := absolutePath (nameAt bin name)
  arg0 := Bytes.ofText name
  args := [Bytes.ofText "-c"]

/-- A place outside the directory. -/
def outside : Location := [Bytes.ofText "ccwrap"]

/-- The place of the link to the real compiler of the alias. -/
def linked : Location := realAt bin "clang++"

theorem wrappable {source : Location} (apart : source ≠ realAt bin "clang") :
    Wrappable machine (plan source) (tree source) bin := by
  have tool : (tree source).node? (nameAt bin "clang") = some (.file 0o755 [1]) := rfl
  have real : (tree source).node? (realAt bin "clang") = none := by
    unfold tree node?
    simp only [lookup_cons]
    rw [if_neg (by decide), if_neg (by decide), if_neg (by decide), if_neg apart.symm]
    rfl
  have names : ∀ name ∈ (plan source).names, name = "clang" ∨ name = "clang++" := by
    simp [plan, Plan.names]
  constructor
  case distinct =>
    constructor
    · intro name h
      rcases names name h with rfl | rfl <;> decide
    · intro a h
      obtain rfl := List.mem_singleton.mp h
      exact (by decide : "clang++" ∉ ["clang"])
    · intro name h other h' same
      rcases names name h with rfl | rfl <;> rcases names other h' with rfl | rfl <;>
        exact absurd same (by decide)
  case here => exact .root
  case dir => rfl
  case files =>
    intro name h
    obtain rfl := List.mem_singleton.mp h
    rintro place (rfl | rfl) n node
    · rw [tool] at node
      exact ⟨_, _, (Option.some.inj node).symm⟩
    · rw [real] at node
      cases node
  case compilers =>
    intro name h mode contents compiler
    obtain rfl := List.mem_singleton.mp h
    unfold compiler? at compiler
    rw [real, tool] at compiler
    obtain ⟨rfl, rfl⟩ := Node.file.inj (Option.some.inj compiler)
    exact ⟨by decide, by simp [machine]⟩

end Echo

open Echo

theorem install_transparent_echo :
    Wrappable machine (plan outside) (tree outside) bin ∧
      FindsWrapper machine (plan outside) ((tree outside).without ((plan outside).links bin)) ∧
      (installed outside).failure? = none ∧
      Calls [] (installed outside).tree bin "clang++" (call "clang++") ∧
      execute machine 2 [] (installed outside).tree (call "clang++") =
        some (.ok ((installed outside).tree,
          ⟨Bytes.ofText "-c" ++ (Flags.builtIn.demoted.map Bytes.ofText).flatten, [],
            .exited 0⟩)) := by
  have ready := wrappable (by decide : outside ≠ realAt bin "clang")
  have finds : FindsWrapper machine (plan outside)
      ((tree outside).without ((plan outside).links bin)) :=
    ⟨outside, 0o755, [0], rfl, rfl, rfl, rfl⟩
  have done : (installed outside).failure? = none := by decide +kernel
  have calls : Calls [] (installed outside).tree bin "clang++" (call "clang++") :=
    ⟨by decide, rfl, rfl, rfl, rfl, rfl, rfl⟩
  have configured : Configured (plan outside) (tree outside) bin (installed outside).tree :=
    fun _ _ => rfl
  have valid : Flags.resolve (installed outside).tree (absolutePath bin) = .ok (.builtIn, []) := rfl
  have serves : toolOf? (plan outside) "clang++" = some "clang" := rfl
  obtain ⟨-, mode, contents, file, -, -, -, plain⟩ :=
    install_transparent ready finds done configured valid serves calls rfl
  obtain ⟨rfl, rfl⟩ : 0o755 = mode ∧ [1] = contents := Node.file.inj (Option.some.inj file)
  exact ⟨ready, finds, done, calls, (plain (by decide) 0).2 rfl compiler rfl⟩

namespace Echo

/-- An installed wrapper is called, and what comes of it is not what the compiler does that was the
tool before. -/
structure Misses (plan : Plan) (t u : FileTree) (flags : Flags) : Prop where
  wrappable : Wrappable machine plan t bin
  finds : FindsWrapper machine plan t
  done : (Install.run plan t).failure? = none
  configured : Configured plan t bin u
  valid : ∃ told, Flags.resolve u (absolutePath bin) = .ok (flags, told)
  calls : Calls [] u bin "clang" (call "clang")
  compiler : compiler? t bin "clang" = some (.file 0o755 [1])
  missed : ∀ fuel, execute machine (fuel + 2) [] u (call "clang") ≠
    some (.ok (Echo.compiler [] (realCommand bin "clang" flags (call "clang")) u))

/-- A flag with a zero character. -/
def zeroFlags : Flags := ⟨Flags.builtIn.noColor, ["-DX=a\x00b"]⟩

/-- What the install leaves, with a file beside the wrapper that spells that flag. -/
def flagged : FileTree :=
  (installed outside).tree.put (nameAt bin Flags.fileName)
    (.file 0o644 (Bytes.ofText "disabled_warnings = [\"-DX=a\\u0000b\"]\n"))

theorem valid_flagged :
    ∃ told, Flags.resolve flagged (absolutePath bin) = .ok (zeroFlags, told) := by
  have spelled : (Flags.resolve flagged (absolutePath bin)).toOption.map Prod.fst =
      some zeroFlags := by decide +kernel
  obtain ⟨⟨_, told⟩, found, rfl⟩ := Option.map_eq_some_iff.mp spelled
  exact ⟨told, ok_of_toOption found⟩

theorem calls_flagged : Calls [] flagged bin "clang" (call "clang") :=
  ⟨by decide, rfl, rfl, rfl, rfl, rfl, rfl⟩

theorem misses_linked : Misses (plan linked) (tree linked) (installed linked).tree .builtIn where
  wrappable := wrappable (by decide)
  finds := ⟨linked, 0o755, [0], rfl, rfl, rfl, rfl⟩
  done := by decide +kernel
  configured := fun _ _ => rfl
  valid := ⟨[], rfl⟩
  calls := ⟨by decide, rfl, rfl, rfl, rfl, rfl, rfl⟩
  compiler := rfl
  missed := by
    intro fuel same
    have unflagged : execute machine (fuel + 2) [] (installed linked).tree (call "clang") =
        some (.ok ((installed linked).tree, ⟨Bytes.ofText "-c", [], .exited 0⟩)) := rfl
    have answers := Except.ok.inj (Option.some.inj (unflagged.symm.trans same))
    exact absurd (congrArg (fun answer => answer.2.stdout) answers) (by decide)

theorem misses_flagged : Misses (plan outside) (tree outside) flagged zeroFlags where
  wrappable := wrappable (by decide)
  finds := ⟨outside, 0o755, [0], rfl, rfl, rfl, rfl⟩
  done := by decide +kernel
  configured := by
    intro place other
    have ne : place ≠ nameAt bin Flags.fileName := by
      intro same
      exact absurd (other same) (by decide)
    unfold flagged
    rw [node?_put _ (nameAt_ne_nil _ _), if_neg ne]
    rfl
  valid := valid_flagged
  calls := calls_flagged
  compiler := rfl
  missed := by
    intro fuel same
    obtain ⟨told, valid⟩ := valid_flagged
    have zero : holdsZero [] (realCommand bin "clang" zeroFlags (call "clang")) = true := rfl
    have rooted : Rooted flagged bin := .child .root (by decide) (by decide) rfl
    have wrapped : flagged.node? (nameAt bin "clang") = some (.file 0o755 [0]) := rfl
    have becomes := execute_beside (m := machine) rooted (by decide) wrapped rfl rfl valid
      calls_flagged (fuel + 1)
    obtain ⟨more, carried⟩ := carryOut_notStarted (findProgram_of_zero zero) (by decide) fuel
    have gives_up : execute machine (fuel + 2) [] flagged (call "clang") =
        some (.ok (notStarted flagged bin "clang" .zeroInWord more)) := by
      rw [becomes, carried]
      rfl
    have answers := Except.ok.inj (Option.some.inj (gives_up.symm.trans same))
    have endings : Ending.exited 1 = .exited 0 :=
      congrArg (fun answer => answer.2.ending) answers
    exact absurd endings (by decide)

end Echo

/-- A wrapper that stands where the link of an alias is made is replaced by that link before it is
copied. What is copied then is the compiler, and no call of it gets the flags. And a flag can hold a
zero character, with which no compiler can be started. -/
theorem install_not_transparent :
    Misses (plan linked) (tree linked) (installed linked).tree .builtIn ∧
      Misses (plan outside) (tree outside) flagged zeroFlags :=
  ⟨misses_linked, misses_flagged⟩

end CompilerWrapper
