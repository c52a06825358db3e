import CompilerWrapper.Toml.Grammar

/-!
# The table that a TOML document spells

A document is cut into sections: the assignments before the first header belong to the document's
own table, those after a header to the table that the header opens. A header in single brackets
opens a table that no header has opened yet and that no dotted key made; tables that only stood on
the way to other headers keep what is below them. A header in double brackets adds one table to a
list of tables.

Statements are taken in the order in which they are written, so the flaw that is found is the
first one. A key is looked at before what is written behind it.
-/

namespace CompilerWrapper.Toml

/-- Refuses a key with too many parts. -/
def checkKey (key : KeyPath) : Except Flaw Unit :=
  if depthLimit ≤ key.way.length then .error .keyTooLong else .ok ()

namespace Entries

/-- The table that a key's way leads to, below `entries`, changed by `change`. Tables on the way
that do not exist yet come about as `fresh`. A header may pass through every table that is not
written between braces, a dotted key only through those without a header of their own; both pass
into the last table of a `[[header]]`. `change` is told where the table came from. -/
def changeAt (fresh : Origin) (change : Origin → Entries → Except Flaw Entries) :
    (way : List String) → (origin : Origin) → Entries → Except Flaw Entries
  | [], origin, entries => change origin entries
  | part :: way, _, entries =>
    match entries.get? part with
    | none => (changeAt fresh change way fresh []).map fun below =>
        entries.set part (.table fresh below)
    | some (.table .inline _) => .error .malformed
    | some (.table origin below) =>
      if fresh = .dotted ∧ origin = .header then .error .malformed
      else (changeAt fresh change way origin below).map fun below =>
        entries.set part (.table origin below)
    | some (.tables items) =>
      match items.getLast? with
      | none => .error .malformed
      | some below => (changeAt fresh change way .header below).map fun below =>
          entries.set part (.tables (items.dropLast ++ [below]))
    | some _ => .error .malformed

/-- The entries with `value` at a dotted key. A key is given a value once, and a dotted key adds
only to tables that dotted keys made. -/
def assign (entries : Entries) (key : KeyPath) (value : Value) : Except Flaw Entries :=
  entries.changeAt .dotted (fun origin entries =>
    if key.way ≠ [] ∧ origin ≠ .dotted then .error .malformed
    else match entries.get? key.last with
      | none => .ok (entries.set key.last value)
      | some _ => .error .malformed) key.way .header

end Entries

mutual

/-- The value that is written. -/
def Term.value : Term → Except Flaw Value
  | .plain value => .ok value
  | .array items => (Term.values items).map .array
  | .braces assignments => (Term.assignAll [] assignments).map (.table .inline)

/-- The values that are written one after the other. -/
def Term.values : List Term → Except Flaw (List Value)
  | [] => .ok []
  | item :: items => do
    let value ← item.value
    pure (value :: (← Term.values items))

/-- The entries after assignments. -/
def Term.assignAll (entries : Entries) : List (KeyPath × Term) → Except Flaw Entries
  | [] => .ok entries
  | (key, term) :: assignments => do
    checkKey key
    let value ← term.value
    Term.assignAll (← entries.assign key value) assignments

end

/-- A header and the assignments under it. -/
structure Section where
  many : Bool
  key : KeyPath
  body : List (KeyPath × Term)

/-- The entries of the document with one section added. -/
def Entries.addSection (entries : Entries) (s : Section) : Except Flaw Entries := do
  checkKey s.key
  entries.changeAt .implied (fun _ entries =>
    match s.many, entries.get? s.key.last with
    | false, none => do
      pure (entries.set s.key.last (.table .header (← Term.assignAll [] s.body)))
    | false, some (.table .implied below) => do
      pure (entries.set s.key.last (.table .header (← Term.assignAll below s.body)))
    | true, none => do
      pure (entries.set s.key.last (.tables [← Term.assignAll [] s.body]))
    | true, some (.tables items) => do
      pure (entries.set s.key.last (.tables (items ++ [← Term.assignAll [] s.body])))
    | _, _ => .error .malformed) s.key.way .header

/-- A document cut at its headers: the assignments before the first header, and the sections. -/
def sections : List Statement → List (KeyPath × Term) × List Section
  | [] => ([], [])
  | .assignment key term :: rest =>
    let (body, more) := sections rest
    ((key, term) :: body, more)
  | .header many key :: rest =>
    let (body, more) := sections rest
    ([], ⟨many, key, body⟩ :: more)

/-- The table that the statements of a document spell. -/
def Entries.ofStatements (statements : List Statement) : Except Flaw Entries := do
  let (body, more) := sections statements
  more.foldlM Entries.addSection (← Term.assignAll [] body)

/-- The table that a document spells. -/
def Entries.parse (text : List Char) : Except Flaw Entries :=
  match statements? text with
  | none => .error .malformed
  | some statements => Entries.ofStatements statements

end CompilerWrapper.Toml
