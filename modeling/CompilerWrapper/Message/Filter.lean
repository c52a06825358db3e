import CompilerWrapper.Message
import CompilerWrapper.Text.Blank
import CompilerWrapper.Text.Pattern.Reader

/-!
# Which messages are shown

A filter is a list of rules. A rule lets the messages of some topics pass up to a level; among the
rules that speak of a topic the one with the longest name decides, and without one nothing passes.
A filter without any rule shows errors.

A filter is written as rules apart by commas. A rule is a level, which speaks of every topic, or
the beginning of a topic's name, with or without an equals sign and a level; without a level
everything passes. After a slash there may be a pattern, of which a message has to contain a piece.
What is not a rule or a pattern is left out, with a warning.
-/

namespace CompilerWrapper

/-- How far down the levels a rule lets messages pass. -/
inductive Threshold where
  | off
  | upTo (level : Level)
deriving DecidableEq, Repr

namespace Threshold

/-- Whether a message of the given level passes. -/
def passes : Threshold → Level → Bool
  | off, _ => false
  | upTo limit, level => level.rank ≤ limit.rank

/-- The threshold with the given name; letters count in either case. -/
def ofName? (name : List Char) : Option Threshold :=
  let name := String.ofList (name.map Char.toLower)
  if name = "off" then some off else (Level.all.find? (·.name == name)).map upTo

end Threshold

/-- A rule of a filter: the beginning of the names of the topics that it speaks of, and its
threshold. A rule without one speaks of every topic. -/
structure Rule where
  topic : Option (List Char)
  threshold : Threshold
deriving DecidableEq, Repr

namespace Rule

/-- The beginning of the names that a rule speaks of. -/
def beginning (r : Rule) : List Char := r.topic.getD []

/-- Whether a rule speaks of a topic. -/
def speaksOf (topic : Topic) (r : Rule) : Bool := r.beginning.isPrefixOf topic.name.toList

/-- The one of two rules that decides: the one with the longer name, and the later one of two
names of the same length. -/
def stronger (earlier later : Rule) : Rule :=
  if later.beginning.length < earlier.beginning.length then earlier else later

end Rule

/-- Which messages are shown. -/
structure Filter where
  /-- The rules, as they were added. -/
  rules : List Rule
  /-- What a message has to contain. -/
  pattern : Option Text.Pattern
deriving DecidableEq, Repr

namespace Filter

/-- The rule that decides about a topic. -/
def ruleFor? (f : Filter) (topic : Topic) : Option Rule :=
  match f.rules.filter (Rule.speaksOf topic) with
  | [] => none
  | r :: rules => some (rules.foldl Rule.stronger r)

/-- How far down the levels the messages of a topic pass. -/
def threshold (f : Filter) (topic : Topic) : Threshold :=
  if f.rules = [] then .upTo .error else ((f.ruleFor? topic).map Rule.threshold).getD .off

/-- Whether a message is shown. -/
def shows (f : Filter) (m : Message) : Bool :=
  (f.threshold m.topic).passes m.level && f.pattern.all (·.occursIn m.text.toList)

/-- The filter with one rule more. A rule for a beginning that has one already takes its place. -/
def add (f : Filter) (r : Rule) : Filter :=
  { f with rules :=
      if f.rules.any (·.topic = r.topic) then
        f.rules.map fun old => if old.topic = r.topic then r else old
      else f.rules ++ [r] }

/-- The filter that also has to show every topic up to a level. -/
def upTo (f : Filter) (level : Level) : Filter := f.add ⟨none, .upTo level⟩

/-- What one part of a written filter means. -/
inductive Part where
  | rule (r : Rule)
  | bad (text : List Char)

/-- Drops the white space around a text. -/
def trim (text : List Char) : List Char :=
  ((text.dropWhile Text.isBlank).reverse.dropWhile Text.isBlank).reverse

/-- Reads one part of a written filter, which is not empty. -/
def readPart (text : List Char) : Part :=
  match text.splitOn '=' with
  | [name] =>
    match Threshold.ofName? name with
    | some threshold => .rule ⟨none, threshold⟩
    | none => .rule ⟨some name, .upTo .trace⟩
  | [name, level] =>
    let level := trim level
    if level = [] then .rule ⟨some name, .upTo .trace⟩
    else match Threshold.ofName? level with
      | some threshold => .rule ⟨some name, threshold⟩
      | none => .bad level
  | _ => .bad text

/-- The warning about something in a written filter that is left out. -/
def warning (complaint : String) : String := s!"warning: {complaint}, ignoring it"

/-- Warnings as they are shown, each on a line of its own. -/
def showWarnings (warnings : List String) : Bytes :=
  warnings.flatMap fun line => Bytes.ofText (line ++ "\n")

/-- The warning about a text that is no rule. -/
def ruleWarning (text : List Char) (note : String) : String :=
  warning s!"invalid logging spec '{String.ofList text}'{note}"

/-- The rules of a written filter, and the warnings about the parts that are none. -/
def readRules (text : List Char) : List Rule × List String :=
  let parts := ((text.splitOn ',').map trim).filter (· ≠ []) |>.map readPart
  (parts.filterMap fun part => match part with
    | .rule r => some r
    | .bad _ => none,
   parts.filterMap fun part => match part with
    | .rule _ => none
    | .bad text => some (ruleWarning text ""))

/-- The pattern of a written filter, and the warning if it is none. -/
def readPattern (text : List Char) : Option Text.Pattern × List String :=
  match Text.Pattern.read text with
  | .ok pattern => (some pattern, [])
  | .error flaw => (none, [warning s!"invalid regex filter - {flaw.report text}"])

/-- A filter as written, and the warnings about what is left out. -/
def read (text : List Char) : Filter × List String :=
  let filter (rules : List Rule) (pattern : Option Text.Pattern) : Filter :=
    rules.foldl add ⟨[], pattern⟩
  match text.splitOn '/' with
  | [rules] =>
    let (rules, warnings) := readRules rules
    (filter rules none, warnings)
  | [rules, pattern] =>
    let (rules, warnings) := readRules rules
    let (pattern, patternWarnings) := readPattern pattern
    (filter rules pattern, warnings ++ patternWarnings)
  | _ => (⟨[], none⟩, [ruleWarning text " (too many '/'s)"])

end Filter

end CompilerWrapper
