import CompilerWrapper.Install

/-!
# The administration command line

The command line is read word by word from the left. Before the name of the command only the
switches for verbosity, help and version may stand; behind it the command's own options and
operands, in any order. What follows two dashes is an operand, whatever it looks like. The first
word that cannot be read ends the reading, and so does the first request for help.
-/

namespace CompilerWrapper.Admin

/-- What an administrator wants done. -/
inductive Request where
  /-- Put the wrapper in front of the compilers in a directory. -/
  | install (dir : Path) (tools : List String) (aliases : List Install.Alias)
  /-- Summarise a log, or show it in full. -/
  | log (p : Path) (full : Bool)
  /-- Show the flags of a wrapper in a directory, or the built-in flags. -/
  | flags (dir : Option Path)
deriving DecidableEq, Repr

/-- What a command line asks for. -/
inductive Parsed where
  | run (verbosity : Nat) (request : Request)
  | help
  | version
  /-- The command line is not one of this program's. -/
  | usageError
deriving DecidableEq, Repr

/-- The names of the commands. -/
inductive Verb where
  | install | log | flags
deriving DecidableEq, Repr

/-- The command with the given name. -/
def Verb.ofName? (name : Bytes) : Option Verb :=
  if name = Bytes.ofText "install" then some .install
  else if name = Bytes.ofText "log" then some .log
  else if name = Bytes.ofText "flags" then some .flags
  else none

/-- A word of a command line, by its form. -/
inductive Word where
  /-- Two dashes: only operands follow. -/
  | endOfOptions
  /-- Two dashes and a name, with the value behind an equals sign, if there is one. -/
  | long (name : List Char) (value : Option Bytes)
  /-- One dash and some letters. -/
  | short (letters : List Char)
  | operand (word : Bytes)
deriving DecidableEq, Repr

/-- The form of a word. What is not UTF-8 in the name of an option becomes a character that no
option has. -/
def Word.of : Bytes → Word
  | [0x2D, 0x2D] => .endOfOptions
  | 0x2D :: 0x2D :: rest =>
    let name := rest.takeWhile (· != 0x3D)
    .long (Utf8.decodeLossy name)
      (if name.length < rest.length then some (rest.drop (name.length + 1)) else none)
  | 0x2D :: b :: rest => .short (Utf8.decodeLossy (b :: rest))
  | word => .operand word

/-- Whether a word can be the value of the option before it: it is a single dash or has no dash in
front. -/
def isValue (word : Bytes) : Bool := word == [0x2D] || word.head? != some 0x2D

/-- What has been read behind the name of a command. -/
structure Options where
  verbosity : Nat := 0
  tools : List String := []
  aliases : List Install.Alias := []
  full : Bool := false
  operand : Option Path := none

/-- Why the reading ended early. -/
inductive Stop where
  | help | version | usageError
deriving DecidableEq, Repr

/-- Why the reading ended early, as the result of the reading. -/
def Stop.parsed : Stop → Parsed
  | help => .help
  | version => .version
  | usageError => .usageError

/-- Adds an operand, of which every command takes one at most; it may not be empty. -/
def Options.addOperand (o : Options) (word : Bytes) : Except Stop Options :=
  if word = [] ∨ o.operand.isSome then .error .usageError else .ok { o with operand := some word }

/-- Adds the value of an option of the install command. -/
def Options.addValue (o : Options) (name : List Char) (value : Bytes) : Except Stop Options :=
  match Utf8.decode? value with
  | none => .error .usageError
  | some text =>
    let text := String.ofList text
    if name = "tool".toList then .ok { o with tools := o.tools ++ [text] }
    else match Install.Alias.parse text with
      | .ok a => .ok { o with aliases := o.aliases ++ [a] }
      | .error _ => .error .usageError

/-- Reads the letters behind one dash. -/
def Options.addLetters (o : Options) : List Char → Except Stop Options
  | [] => .ok o
  | 'v' :: rest => Options.addLetters { o with verbosity := o.verbosity + 1 } rest
  | 'h' :: _ => .error .help
  | _ :: _ => .error .usageError

/-- Whether the command has an option of this name that takes a value. -/
def takesValue (verb : Verb) (name : List Char) : Bool :=
  verb = .install && (name == "tool".toList || name == "alias".toList)

/-- Reads an option without a value. -/
def Options.addSwitch (o : Options) (verb : Verb) (name : List Char) : Except Stop Options :=
  if name = "verbose".toList then .ok { o with verbosity := o.verbosity + 1 }
  else if name = "help".toList then .error .help
  else if name = "full".toList ∧ verb = .log ∧ o.full = false then .ok { o with full := true }
  else .error .usageError

/-- Reads the words behind the name of a command. -/
def readOptions (verb : Verb) (o : Options) : List Bytes → Except Stop Options
  | [] => .ok o
  | word :: rest =>
    match Word.of word with
    | .endOfOptions => rest.foldlM Options.addOperand o
    | .operand word => do readOptions verb (← o.addOperand word) rest
    | .short letters => do readOptions verb (← o.addLetters letters) rest
    | .long name value =>
      if takesValue verb name then
        match value, rest with
        | some value, rest => do readOptions verb (← o.addValue name value) rest
        | none, next :: rest =>
          if isValue next then do readOptions verb (← o.addValue name next) rest
          else .error .usageError
        | none, [] => .error .usageError
      else match value with
        | some _ => .error .usageError
        | none => do readOptions verb (← o.addSwitch verb name) rest

/-- The request that a command and its options make, unless an operand is missing. -/
def Options.request? (o : Options) : Verb → Option Request
  | .install => o.operand.map fun dir => .install dir o.tools o.aliases
  | .log => o.operand.map fun p => .log p o.full
  | .flags => some (.flags o.operand)

/-- Reads a command and the words behind it. Switches behind the command replace the verbosity
asked for before it. -/
def readCommand (verbosity : Nat) (verb : Verb) (rest : List Bytes) : Parsed :=
  match readOptions verb {} rest with
  | .error stop => stop.parsed
  | .ok o =>
    match o.request? verb with
    | none => .usageError
    | some request => .run (if o.verbosity = 0 then verbosity else o.verbosity) request

/-- Whether help can be had about a word. -/
def isTopic (word : Bytes) : Bool := (Verb.ofName? word).isSome || word == Bytes.ofText "help"

/-- Reads letters behind one dash before the command. -/
def readLetters (verbosity : Nat) : List Char → Except Stop Nat
  | [] => .ok verbosity
  | 'v' :: rest => readLetters (verbosity + 1) rest
  | 'h' :: _ => .error .help
  | 'V' :: _ => .error .version
  | _ :: _ => .error .usageError

/-- Reads a command line. -/
def parseFrom (verbosity : Nat) : List Bytes → Parsed
  | [] => .usageError
  | word :: rest =>
    match Word.of word with
    | .endOfOptions => .usageError
    | .long name none =>
      if name = "verbose".toList then parseFrom (verbosity + 1) rest
      else if name = "help".toList then .help
      else if name = "version".toList then .version
      else .usageError
    | .long _ (some _) => .usageError
    | .short letters =>
      match readLetters verbosity letters with
      | .error stop => stop.parsed
      | .ok verbosity => parseFrom verbosity rest
    | .operand name =>
      match Verb.ofName? name with
      | some verb => readCommand verbosity verb rest
      | none =>
        if name = Bytes.ofText "help" then
          match rest with
          | [] => .help
          | [topic] => if isTopic topic then .help else .usageError
          | _ => .usageError
        else .usageError

/-- What the words of a command line ask for. -/
def parse (words : List Bytes) : Parsed := parseFrom 0 words

end CompilerWrapper.Admin
