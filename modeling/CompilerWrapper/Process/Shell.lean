import CompilerWrapper.Process.Program

/-!
# The shell

A file that may be run but is no program is given to the shell, which takes it for a list of
commands. How it is given to the shell belongs to the wrapper's process (`Shell.commandFor`); what
the shell makes of it does not, and nothing is proved about that. This module has a small shell for
runs on a machine, with the commands that end it and that print something; every other name is not
found.

A line of the file holds commands with a semicolon, `&&` or `||` between them. A command is a list
of words; the words of a line are taken apart before any of its commands is run, so a line that
cannot be read does nothing but end the shell. Quotes and backslashes take the meaning from
characters, and a dollar sign begins a parameter. The output of a command may be sent to standard
error.
-/

namespace CompilerWrapper.Shell

/-! ### Words -/

/-- What may stand behind a dollar sign. -/
inductive Parameter where
  /-- An argument by its number, or for zero the file that is run. -/
  | argument (n : Nat)
  /-- All arguments, each for itself. -/
  | arguments
  /-- All arguments, which quotes put together to one text. -/
  | joined
  /-- The number of arguments. -/
  | count
  /-- The status of the last command. -/
  | status
  /-- A variable. None is set. -/
  | variable
deriving DecidableEq, Repr

/-- A piece of a word. -/
inductive Piece where
  | byte (b : UInt8)
  | parameter (p : Parameter) (quoted : Bool)
  /-- A pair of quotes. They make a word even of nothing. -/
  | quotes
deriving DecidableEq, Repr

/-- A word as written. -/
abbrev Word := List Piece

/-- How a command hangs on the one before it. -/
inductive Joint where
  | always
  /-- It is run if the last one succeeded. -/
  | ifSucceeded
  /-- It is run if the last one failed. -/
  | ifFailed
deriving DecidableEq, Repr

/-- The mark between two commands. -/
def Joint.mark : Joint → String
  | always => ";"
  | ifSucceeded => "&&"
  | ifFailed => "||"

/-- What a token is. -/
inductive Kind where
  | word (w : Word)
  | joint (j : Joint)
  /-- The output of the command goes to standard error. -/
  | toStderr
  | lineEnd
  | textEnd
  /-- The text cannot be taken apart here. -/
  | flaw (complaint : String)
deriving DecidableEq, Repr

/-- A part of a line, with the number of the line in which it ends. -/
structure Token where
  line : Nat
  kind : Kind
deriving DecidableEq, Repr

/-! ### Taking a text apart -/

/-- What surrounds a place in the text. -/
inductive Surroundings where
  | bare | comment | singleQuotes | doubleQuotes

/-- What has been read: the number of the line, the pieces of the word that is being read, and the
tokens before it, both last first. -/
structure Scanner where
  line : Nat := 1
  word : Option (List Piece) := none
  tokens : List Token := []

namespace Scanner

/-- The end of the word that is being read. -/
def endWord (s : Scanner) : Scanner :=
  match s.word with
  | none => s
  | some w => { s with word := none, tokens := ⟨s.line, .word w.reverse⟩ :: s.tokens }

/-- A token that ends the word before it. -/
def emit (s : Scanner) (kind : Kind) : Scanner :=
  let s := s.endWord
  { s with tokens := ⟨s.line, kind⟩ :: s.tokens }

/-- One more piece of the word that is being read. -/
def add (s : Scanner) (p : Piece) : Scanner := { s with word := some (p :: s.word.getD []) }

/-- One more character of the word that is being read. -/
def addChar (s : Scanner) (c : Char) : Scanner := s.add (.byte (UInt8.ofNat c.toNat))

/-- The scanner in the next line. -/
def nextLine (s : Scanner) : Scanner := { s with line := s.line + 1 }

/-- Sends the output of the command to standard error. A number one before the mark belongs to
it. -/
def redirect (s : Scanner) : Scanner :=
  let s := if s.word = some [.byte 0x31] then { s with word := none } else s
  s.emit .toStderr

/-- The tokens in the order of the text, with a last one. -/
def all (s : Scanner) (last : Kind) : List Token := (s.emit last).tokens.reverse

end Scanner

/-- Whether a character may stand in the name of a variable. -/
def isNameChar (c : Char) : Bool := c.isAlphanum || c == '_'

/-- The parameter whose name a text begins with, and what follows. -/
def parameter? : List Char → Option (Parameter × List Char)
  | '#' :: text => some (.count, text)
  | '?' :: text => some (.status, text)
  | '@' :: text => some (.arguments, text)
  | '*' :: text => some (.joined, text)
  | c :: text =>
    if c.isDigit then some (.argument (c.toNat - '0'.toNat), text)
    else if isNameChar c then some (.variable, text.dropWhile isNameChar)
    else none
  | [] => none

/-- What is told about a token that does not belong where it stands. -/
def unexpected (mark : String) : String := s!"\"{mark}\" unexpected"

/-- The tokens of a text, in which every character is a byte. Every step uses up one unit of
`fuel`. -/
def scan : (fuel : Nat) → Surroundings → Scanner → List Char → List Token
  | 0, _, s, _ => s.all .textEnd
  | fuel + 1, around, s, text =>
    match around, text with
    | .singleQuotes, [] | .doubleQuotes, [] => s.all (.flaw "Unterminated quoted string")
    | _, [] => s.all .textEnd
    | _, '\x00' :: text => scan fuel around s text
    | .comment, c :: rest =>
      if c = '\n' then scan fuel .bare s text else scan fuel .comment s rest
    | .singleQuotes, '\'' :: text => scan fuel .bare s text
    | .singleQuotes, '\n' :: text => scan fuel around (s.addChar '\n').nextLine text
    | .singleQuotes, c :: text => scan fuel around (s.addChar c) text
    | .doubleQuotes, '"' :: text => scan fuel .bare s text
    | .doubleQuotes, '\n' :: text => scan fuel around (s.addChar '\n').nextLine text
    | .doubleQuotes, '\\' :: c :: text =>
      if c = '\n' then scan fuel around s.nextLine text
      else if c ∈ ['$', '\x60', '"', '\\'] then scan fuel around (s.addChar c) text
      else scan fuel around ((s.addChar '\\').addChar c) text
    | .doubleQuotes, '$' :: text =>
      match parameter? text with
      | some (p, text) => scan fuel around (s.add (.parameter p true)) text
      | none => scan fuel around (s.addChar '$') text
    | .doubleQuotes, c :: text => scan fuel around (s.addChar c) text
    | .bare, '\n' :: text => scan fuel around (s.emit .lineEnd).nextLine text
    | .bare, ' ' :: text | .bare, '\t' :: text => scan fuel around s.endWord text
    | .bare, '#' :: text =>
      if s.word = none then scan fuel .comment s text else scan fuel around (s.addChar '#') text
    | .bare, '\'' :: text => scan fuel .singleQuotes (s.add .quotes) text
    | .bare, '"' :: text => scan fuel .doubleQuotes (s.add .quotes) text
    | .bare, '\\' :: '\n' :: text => scan fuel around s.nextLine text
    | .bare, '\\' :: c :: text => scan fuel around (s.addChar c) text
    | .bare, '$' :: text =>
      match parameter? text with
      | some (p, text) => scan fuel around (s.add (.parameter p false)) text
      | none => scan fuel around (s.addChar '$') text
    | .bare, ';' :: ';' :: _ => s.all (.flaw (unexpected ";;"))
    | .bare, ';' :: text => scan fuel around (s.emit (.joint .always)) text
    | .bare, '&' :: '&' :: text => scan fuel around (s.emit (.joint .ifSucceeded)) text
    | .bare, '|' :: '|' :: text => scan fuel around (s.emit (.joint .ifFailed)) text
    | .bare, '>' :: '&' :: '2' :: text => scan fuel around s.redirect text
    | .bare, c :: text =>
      if c ∈ ['&', '|', '<', '>', '(', ')', '\x60'] then
        s.all (.flaw (unexpected (String.ofList [c])))
      else scan fuel around (s.addChar c) text

/-- The tokens of a file. -/
def tokens (contents : Bytes) : List Token :=
  let text := contents.map fun b => Char.ofNat b.toNat
  scan (2 * text.length + 1) .bare {} text

/-! ### What words stand for -/

/-- What the shell was called with. -/
structure Setting where
  file : Path
  args : List Bytes
deriving DecidableEq, Repr

/-- The texts for which a parameter stands. -/
def Setting.values (g : Setting) (status : Nat) (quoted : Bool) : Parameter → List Bytes
  | .argument 0 => [g.file]
  | .argument (n + 1) => [(g.args[n]?).getD []]
  | .arguments => g.args
  | .joined => if quoted then [[0x20].intercalate g.args] else g.args
  | .count => [Bytes.ofText (toString g.args.length)]
  | .status => [Bytes.ofText (toString status)]
  | .variable => [[]]

/-- Words that have been put together: those that are done, and the bytes of the one to which more
may be added, both last first. -/
structure Fields where
  done : List Bytes := []
  current : Option Bytes := none

namespace Fields

/-- The end of the current word. -/
def cut (f : Fields) : Fields :=
  match f.current with
  | none => f
  | some word => ⟨word.reverse :: f.done, none⟩

/-- A text that belongs to the current word. -/
def add (f : Fields) (text : Bytes) : Fields :=
  { f with current := some (text.reverse ++ f.current.getD []) }

/-- A text whose white space ends words. -/
def addSplit (f : Fields) (text : Bytes) : Fields :=
  text.foldl (fun f b => if isSpaceByte b || b == 0x0A then f.cut else f.add [b]) f

/-- Texts, each a word of its own but for what is around them. -/
def addAll (f : Fields) (quoted : Bool) (texts : List Bytes) : Fields :=
  let add := if quoted then Fields.add else addSplit
  match texts with
  | [] => f
  | text :: texts => texts.foldl (fun f text => add f.cut text) (add f text)

/-- The words. -/
def words (f : Fields) : List Bytes := f.cut.done.reverse

end Fields

/-- The words for which a word as written stands. -/
def Setting.expand (g : Setting) (status : Nat) (w : Word) : List Bytes :=
  if w = [.quotes, .parameter .arguments true] then g.args
  else
    let fields := w.foldl (fun (f : Fields) piece => match piece with
      | .byte b => f.add [b]
      | .parameter p quoted => f.addAll quoted (g.values status quoted p)
      | .quotes => f.add []) {}
    fields.words

/-! ### Commands -/

/-- What the commands so far have left. -/
structure State where
  status : Nat := 0
  stdout : Bytes := []
  stderr : Bytes := []
  ended : Bool := false

/-- A complaint about a line. -/
def State.complain (s : State) (g : Setting) (line : Nat) (text : Bytes) (status : Nat) : State :=
  { s with
    stderr := s.stderr ++ g.file ++ Bytes.ofText s!": {line}: " ++ text ++ [0x0A]
    status := status }

/-- The number that a word spells, up to the largest that fits. -/
def number? (word : Bytes) : Option Nat :=
  let text := word.map fun b => Char.ofNat b.toNat
  let text := ((text.dropWhile Char.isWhitespace).reverse.dropWhile Char.isWhitespace).reverse
  let digits := if text.head? = some '+' then text.tail else text
  let n := digits.foldl (fun n d => n * 10 + (d.toNat - '0'.toNat)) 0
  if digits = [] ∨ !digits.all Char.isDigit ∨ Nat.pow 2 31 ≤ n then none else some n

/-- The letters that stand for another character behind a backslash, in what is printed. -/
def printedEscapes : List (Char × UInt8) :=
  [('a', 0x07), ('b', 0x08), ('f', 0x0C), ('n', 0x0A), ('r', 0x0D), ('t', 0x09), ('v', 0x0B),
   ('\\', 0x5C)]

/-- What is printed of a text, and whether more is to be printed behind it. -/
def unescape : Bytes → Bytes × Bool
  | 0x5C :: b :: text =>
    let letter := Char.ofNat b.toNat
    if letter = 'c' then ([], false)
    else
      let (printed, more) := unescape text
      match printedEscapes.lookup letter with
      | some c => (c :: printed, more)
      | none => (0x5C :: b :: printed, more)
  | b :: text =>
    let (printed, more) := unescape text
    (b :: printed, more)
  | [] => ([], true)

/-- What is printed of words, with the end of the line unless the first word says that it is left
out. -/
def printed (words : List Bytes) : Bytes :=
  let quiet := words.head? = some (Bytes.ofText "-n")
  let (text, more) := unescape ([0x20].intercalate (if quiet then words.tail else words))
  if more && !quiet then text ++ [0x0A] else text

/-- Ends the shell, with the status of the last command if there is no other. -/
def State.finish (s : State) (g : Setting) (line : Nat) (name : String) : List Bytes → State
  | [] => { s with ended := true }
  | word :: _ =>
    match number? word with
    | some n => { s with status := n % 256, ended := true }
    | none =>
      { s.complain g line (Bytes.ofText s!"{name}: Illegal number: " ++ word) 2 with ended := true }

/-- Runs a command. -/
def State.run (s : State) (g : Setting) (line : Nat) (toStderr : Bool) : List Bytes → State
  | [] => { s with status := 0 }
  | name :: args =>
    match name.toText with
    | ":" | "true" => { s with status := 0 }
    | "false" => { s with status := 1 }
    | "exit" => s.finish g line "exit" args
    | "return" => s.finish g line "return" args
    | "echo" =>
      let text := printed args
      if toStderr then { s with stderr := s.stderr ++ text, status := 0 }
      else { s with stdout := s.stdout ++ text, status := 0 }
    | "" => s.complain g line (Bytes.ofText ": Permission denied") 127
    | _ => s.complain g line (name ++ Bytes.ofText ": not found") 127

/-! ### Lines -/

/-- A command of a line. -/
structure Step where
  joint : Joint
  line : Nat
  words : List Word
  toStderr : Bool

/-- A line that is being read: the commands that are complete, and the words of the one at its end,
both last first. -/
structure Line where
  steps : List Step := []
  joint : Joint := .always
  words : List Word := []
  number : Nat := 0
  toStderr : Bool := false

namespace Line

/-- Whether there is nothing of a command at the end of the line. -/
def isComplete (l : Line) : Bool := l.words = [] && !l.toStderr

/-- Whether another command has to follow. -/
def isOpen (l : Line) : Bool := l.isComplete && l.joint != .always

/-- One word more. A command lies in the line of its first word. -/
def addWord (l : Line) (line : Nat) (w : Word) : Line :=
  { l with words := w :: l.words, number := if l.words = [] then line else l.number }

/-- The end of the command, and what joins the next one to it. -/
def endCommand (l : Line) (next : Joint) : Line :=
  if l.isComplete then l
  else { steps := ⟨l.joint, l.number, l.words.reverse, l.toStderr⟩ :: l.steps, joint := next }

end Line

/-- Whether a command that hangs on the last one is run. -/
def Joint.holds (status : Nat) : Joint → Bool
  | always => true
  | ifSucceeded => status == 0
  | ifFailed => status != 0

/-- Runs a command of a line if it is to be run. -/
def State.step (g : Setting) (s : State) (step : Step) : State :=
  if s.ended || !step.joint.holds s.status then s
  else s.run g step.line step.toStderr (step.words.flatMap (g.expand s.status))

/-- Ends the shell because of something that does not belong where it stands. -/
def State.reject (s : State) (g : Setting) (line : Nat) (complaint : String) : State :=
  { s.complain g line (Bytes.ofText s!"Syntax error: {complaint}") 2 with ended := true }

/-- Runs the commands of a line that has been read. -/
def State.runLine (g : Setting) (s : State) (l : Line) : State :=
  (l.endCommand .always).steps.reverse.foldl (State.step g) s

/-- Runs the lines that tokens make. -/
def State.interpret (g : Setting) : State → Line → List Token → State
  | s, l, [] => s.runLine g l
  | s, l, token :: tokens =>
    if s.ended then s
    else match token.kind with
      | .word w => interpret g s (l.addWord token.line w) tokens
      | .toStderr => interpret g s { l with toStderr := true } tokens
      | .joint j =>
        if l.isComplete then s.reject g token.line (unexpected j.mark)
        else interpret g s (l.endCommand j) tokens
      | .lineEnd => if l.isOpen then interpret g s l tokens else interpret g (s.runLine g l) {} tokens
      | .textEnd =>
        if l.isOpen then s.reject g token.line "end of file unexpected" else s.runLine g l
      | .flaw complaint => s.reject g token.line complaint

/-- Runs the commands of a file. -/
def runFile (g : Setting) (contents : Bytes) : Response :=
  let s := State.interpret g {} {} (tokens contents)
  ⟨s.stdout, s.stderr, .exited s.status⟩

/-- What the shell does: it runs the commands of the file that its first argument names. -/
def respond (c : Command) (t : FileTree) : FileTree × Response :=
  match c.args with
  | [] => (t, ⟨[], [], .exited 0⟩)
  | file :: args =>
    match t.read file with
    | .ok contents => (t, runFile ⟨file, args⟩ contents)
    | .error _ =>
      (t, ⟨[], c.arg0 ++ Bytes.ofText ": 0: cannot open " ++ file ++
        Bytes.ofText ": No such file\n", .exited 2⟩)

end CompilerWrapper.Shell
