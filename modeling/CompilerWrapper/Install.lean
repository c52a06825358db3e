import CompilerWrapper.Call
import CompilerWrapper.FileTree.Change
import CompilerWrapper.Message

/-!
# Putting the wrapper in front of compilers

Installing takes a directory of compilers and puts the wrapper under the name of each tool, after
the tool itself was moved aside. An alias is a second name of a tool: it gets the wrapper too, and
a link to the tool's real compiler.

An install is a list of steps that depends on the names alone; what is there already only decides
whether a step has anything to do. The steps are taken in order until one fails. Every step is one
change of the file tree or none, and only a copy takes long enough to be left half-written.
-/

namespace CompilerWrapper.Install

/-- A second name of a tool. -/
structure Alias where
  name : String
  target : String
deriving DecidableEq, Repr

/-- Reads an alias written as `NAME=TARGET`; further equals signs belong to the target. -/
def Alias.parse (text : String) : Except Failure Alias :=
  match Text.splitFirst? ['='] text.toList with
  | some (name, target) =>
    if name = [] ∨ target = [] then .error (.malformedAlias text)
    else .ok ⟨String.ofList name, String.ofList target⟩
  | none => .error (.malformedAlias text)

/-- The tools that are wrapped if none are named. -/
def defaultTools : List String := ["clang", "clang-tidy"]

/-- The aliases that are made if none are named. -/
def defaultAliases : List Alias := [⟨"clang++", "clang"⟩]

/-- What is to be installed, and where. -/
structure Plan where
  /-- The directory of the compilers. -/
  dir : Path
  /-- The wrapper to be copied. -/
  wrapper : Path
  tools : List String
  aliases : List Alias
deriving DecidableEq, Repr

/-- The path of a name in the directory of the compilers. -/
def Plan.path (plan : Plan) (name : String) : Path := plan.dir.join (.ofText name)

/-- The path of the real compiler of a name. -/
def Plan.realPath (plan : Plan) (name : String) : Path :=
  plan.dir.join (.ofText (name ++ realSuffix))

/-- One step of an install. -/
inductive Step where
  /-- Moves a tool aside, unless its real compiler is there already. -/
  | setAside (tool : String)
  /-- Refuses an alias whose target is not among the tools. -/
  | check (a : Alias)
  /-- Removes what is under a path, if there is an entry. -/
  | clear (p : Path)
  /-- Links an alias to the real compiler of its target. -/
  | link (a : Alias)
  /-- Copies the wrapper under a name. -/
  | place (name : String)
deriving DecidableEq, Repr

/-- The names that get a copy of the wrapper. -/
def Plan.names (plan : Plan) : List String := plan.tools ++ plan.aliases.map (·.name)

/-- The steps of an install. -/
def Plan.steps (plan : Plan) : List Step :=
  plan.tools.map .setAside ++
  plan.aliases.flatMap (fun a => [.check a, .clear (plan.realPath a.name), .link a]) ++
  plan.names.flatMap (fun name => [.clear (plan.path name), .place name])

/-- What came of a step: what was told about it, and the tree after it or why it failed. -/
structure Result where
  told : List Message
  tree : Except Failure FileTree

/-- Information about an install. -/
def info (text : String) : Message := ⟨.info, .install, text⟩

/-- What comes of a step. That a tool is moved aside is told before it is done, that a name is
wrapped once it is. -/
def Step.run (plan : Plan) (t : FileTree) : Step → Result
  | .setAside tool =>
    let path := plan.path tool
    let real := plan.realPath tool
    if t.isPresent real then
      ⟨[⟨.debug, .install, s!"`{real.display}` already exists"⟩], .ok t⟩
    else if t.isPresent path then
      ⟨[info s!"=> {path.display} -> {real.display}"],
        (t.rename path real).mapError (.refused (.moving path))⟩
    else ⟨[], .error (.missingTool path real)⟩
  | .check a =>
    ⟨[], if a.target ∈ plan.tools then .ok t else .error (.unwrappedTarget a.name a.target)⟩
  | .clear p =>
    ⟨[], if t.isEntered p then (t.unlink p).mapError (.refused (.removing p)) else .ok t⟩
  | .link a =>
    let link := plan.realPath a.name
    ⟨[], (t.symlink (.ofText (a.target ++ realSuffix)) link).mapError (.refused (.linking link))⟩
  | .place name =>
    let path := plan.path name
    match t.copy plan.wrapper path with
    | .error fault => ⟨[], .error (.refused (.copying plan.wrapper path) fault)⟩
    | .ok t => ⟨[info s!"=> wrapped {name}"], .ok t⟩

/-- What an install left: the tree, what was told on the way, and the failure that ended it, if
one did. -/
structure Outcome where
  tree : FileTree
  told : List Message
  failure? : Option Failure

/-- Takes steps in order until one fails. -/
def runSteps (plan : Plan) (t : FileTree) : List Step → Outcome
  | [] => ⟨t, [], none⟩
  | step :: steps =>
    match step.run plan t with
    | ⟨told, .error failure⟩ => ⟨t, told, some failure⟩
    | ⟨told, .ok t⟩ =>
      let rest := runSteps plan t steps
      { rest with told := told ++ rest.told }

/-- Puts the wrapper in front of the compilers. -/
def run (plan : Plan) (t : FileTree) : Outcome := runSteps plan t plan.steps

end CompilerWrapper.Install
