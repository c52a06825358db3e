import CompilerWrapper.Proofs.Process.Serving
import CompilerWrapper.Proofs.Text.Damage
import CompilerWrapper.Proofs.Toml.Names
import CompilerWrapper.Proofs.Toml.Spelling

/-!
# The flags that a file gives

A file with flags is a document with lists of strings under the two keys that mean something, and
with anything under other names (`Document`). Such a file gives exactly the lists that are written in
it, and the built-in flags where a key is missing. A document that holds something else under one of
the keys gives no flags at all (`resolve_written`).
-/

namespace CompilerWrapper.Flags

open Toml

variable {t : FileTree} {dir : Path} {listed : List (String × List String)}
  {others : List Statement} {text : List Char}

/-- The keys that mean something. -/
def keys : List String := [noColorKey, demotedKey]

/-- A document with lists of strings under keys that mean something, in the order of `listed`. What
else it holds are the statements `others`, which speak of other names: assignments between the lists,
and anything at the end. -/
inductive Document : List (String × List String) → List Statement → List Char → Prop where
  | line {key : String} {items : List String} {line : List Char} : key ∈ keys →
      Line key items line → Document [(key, items)] [] line
  | others {others : List Statement} {text : List Char} : Reads text others →
      (∀ name ∈ names others, name ∉ keys) → Document [] others text
  | lineThen {key : String} {items : List String} {line text : List Char}
      {listed : List (String × List String)} {others : List Statement} : key ∈ keys →
      Line key items line → Document listed others text →
        Document ((key, items) :: listed) others (line ++ '\n' :: text)
  | othersThen {assignments : List (KeyPath × Term)} {front text : List Char}
      {listed : List (String × List String)} {others : List Statement} :
      Reads front (assignments.map fun (key, term) => .assignment key term) →
      (∀ a ∈ assignments, a.1.first ∉ keys) → Document listed others text →
        Document listed ((assignments.map fun (key, term) => .assignment key term) ++ others)
          (front ++ '\n' :: text)

/-- A list of strings as a value. -/
def listValue (items : List String) : Value := .array (items.map .string)

theorem strings?_eq_some_iff {value : Value} {items : List String} :
    strings? value = some items ↔ value = listValue items := by
  constructor
  · intro read
    unfold strings? at read
    split at read
    next values =>
      refine congrArg Value.array ?_
      induction values generalizing items with
      | nil =>
        cases read
        rfl
      | cons value values ih =>
        rw [List.mapM_cons] at read
        obtain ⟨s, first, read⟩ := Option.bind_eq_some_iff.mp read
        obtain ⟨rest, read_rest, same⟩ := Option.bind_eq_some_iff.mp read
        cases same
        split at first
        next =>
          cases first
          rw [ih read_rest]
          rfl
        next => cases first
    next => cases read
  · rintro rfl
    unfold listValue strings?
    dsimp only
    induction items with
    | nil => rfl
    | cons s items ih =>
      rw [List.map_cons, List.mapM_cons, ih]
      rfl

theorem value_terms (items : List String) :
    Term.value (.array (terms items)) = .ok (listValue items) := by
  have values : Term.values (terms items) = .ok (items.map .string) := by
    induction items with
    | nil => rfl
    | cons s items ih =>
      rw [terms, List.map_cons, Term.values]
      change (Except.ok (Value.string s)).bind (fun _ => (Term.values (terms items)).bind _) = _
      rw [ih]
      rfl
  rw [Term.value, values]
  rfl

theorem reads_key {key : String} (known : key ∈ keys) {items : List String} {line : List Char}
    (written : Line key items line) :
    Reads line [.assignment ⟨[], key⟩ (.array (terms items))] := by
  have bare : ∀ key ∈ keys, key.toList ≠ [] ∧ key.toList.all isKeyChar = true := by decide
  exact reads_line (bare key known).1 (List.all_eq_true.mp (bare key known).2) written

theorem assignOne_list {entries : Entries} {key : String} (free : entries.get? key = none)
    (items : List String) :
    Term.assignOne ⟨[], key⟩ (.array (terms items)) entries =
      .ok (entries.set key (listValue items)) := by
  have assigned : entries.assign ⟨[], key⟩ (listValue items) =
      .ok (entries.set key (listValue items)) := by
    unfold Entries.assign Entries.changeAt
    dsimp only
    rw [if_neg (by simp), free]
  unfold Term.assignOne
  rw [value_terms]
  exact assigned

theorem after_assignments (entries : Entries) (assignments : List (KeyPath × Term))
    (rest : List Statement) :
    entries.after ((assignments.map fun (key, term) => .assignment key term) ++ rest) =
      Term.assignAll entries assignments >>= fun entries => entries.after rest := by
  induction assignments generalizing entries with
  | nil => rw [Term.assignAll]; rfl
  | cons a assignments ih =>
    obtain ⟨key, term⟩ := a
    rw [List.map_cons, List.cons_append, after_assignment, assignAll_cons, bind_assoc]
    simp only [ih]

theorem Document.known (document : Document listed others text) {key : String}
    (mem : key ∈ listed.map Prod.fst) : key ∈ keys := by
  induction document with
  | line known =>
    obtain rfl := List.mem_singleton.mp mem
    exact known
  | others => cases mem
  | lineThen known _ _ ih =>
    rcases List.mem_cons.mp mem with rfl | mem
    · exact known
    · exact ih mem
  | othersThen _ _ _ ih => exact ih mem

/-- The list under a key that was free is found behind the others as before it. -/
theorem lookup_set {entries : Entries} {key : String} (free : key ∉ listed.map Prod.fst)
    (items : List String) (name : String) :
    ((listed.lookup name).map listValue).or ((entries.set key (listValue items)).get? name) =
      ((((key, items) :: listed).lookup name).map listValue).or (entries.get? name) := by
  rw [Entries.get?_set, List.lookup_cons]
  by_cases same : name = key
  · subst same
    have missing : listed.lookup name = none := by
      rw [List.lookup_eq_none_iff]
      intro pair mem
      have apart : name ≠ pair.1 := by
        rintro rfl
        exact free (List.mem_map_of_mem mem)
      simp [apart]
    simp [missing]
  · rw [if_neg same, beq_false_of_ne same]

/-- What a document means, whatever the table of its other names holds before: the lists are under
their keys, and away from them nothing is different. -/
theorem after_document (document : Document listed others text) :
    ∃ statements, Reads text statements ∧ ∀ {entries other result : Entries},
      Agree keys entries other → other.after others = .ok result →
      (listed.map Prod.fst).Nodup → (∀ key ∈ listed.map Prod.fst, entries.get? key = none) →
      ∃ result', entries.after statements = .ok result' ∧
        ∀ key ∈ keys, result'.get? key =
          ((listed.lookup key).map listValue).or (entries.get? key) := by
  -- Along the document: a list goes under a key that is still free, and what speaks of other names
  -- runs beside a table without the lists.
  induction document with
  | @line key items line known written =>
    refine ⟨_, reads_key known written, ?_⟩
    intro entries other result agree _ _ free
    rw [after_assignment, assignOne_list (free key (by simp))]
    have none : key ∉ List.map Prod.fst ([] : List (String × List String)) := List.not_mem_nil
    exact ⟨_, rfl, fun name _ => lookup_set none items name⟩
  | others read unknown =>
    refine ⟨_, read, ?_⟩
    intro entries other result agree run _ _
    obtain ⟨result', same, -, kept⟩ := after_blind unknown agree run
    exact ⟨result', same, fun name is_known => kept name is_known⟩
  | @lineThen key items line text listed others known written _ ih =>
    obtain ⟨statements, read, runs⟩ := ih
    refine ⟨_, reads_append (reads_key known written) read, ?_⟩
    intro entries other result agree run distinct free
    obtain ⟨new, distinct⟩ := List.nodup_cons.mp distinct
    obtain ⟨first, free⟩ := List.forall_mem_cons.mp free
    rw [List.singleton_append, after_assignment, assignOne_list first]
    have agree' : Agree keys (entries.set key (listValue items)) other := by
      intro name not_known
      have apart : name ≠ key := by
        rintro rfl
        exact not_known known
      rw [Entries.get?_set, if_neg apart]
      exact agree name not_known
    have free' : ∀ name ∈ listed.map Prod.fst,
        (entries.set key (listValue items)).get? name = none := by
      intro name mem
      have apart : name ≠ key := by
        rintro rfl
        exact new mem
      rw [Entries.get?_set, if_neg apart]
      exact free name mem
    obtain ⟨result', same, found⟩ := runs agree' run distinct free'
    exact ⟨result', same, fun name is_known =>
      (found name is_known).trans (lookup_set new items name)⟩
  | @othersThen assignments front text listed others read unknown document ih =>
    obtain ⟨statements, read', runs⟩ := ih
    refine ⟨_, reads_append read read', ?_⟩
    intro entries other result agree run distinct free
    rw [after_assignments] at run ⊢
    obtain ⟨between, assigned, run⟩ := ok_of_bind run
    obtain ⟨between', same, agree, kept⟩ := assignAll_blind unknown agree assigned
    have free' : ∀ key ∈ listed.map Prod.fst, between'.get? key = none := by
      intro key mem
      rw [kept key (document.known mem)]
      exact free key mem
    obtain ⟨result', same', found⟩ := runs agree run distinct free'
    refine ⟨result', ?_, fun key known => ?_⟩
    · dsimp only at same
      rw [same]
      exact same'
    · rw [found key known, kept key known]

/-! ### What a file gives -/

/-- The lists under the keys, `none` where a key is left out. -/
def written (noColor demoted : Option (List String)) : List (String × List String) :=
  (noColor.map (noColorKey, ·)).toList ++ (demoted.map (demotedKey, ·)).toList

/-- The lists on a line each. -/
def documentText (listed : List (String × List String)) : List Char :=
  listed.flatMap fun (key, items) => lineText key items ++ ['\n']

theorem document_documentText (known : ∀ key ∈ listed.map Prod.fst, key ∈ keys) :
    Document listed [] (documentText listed) := by
  induction listed with
  | nil => exact .others rfl fun _ mem => absurd mem List.not_mem_nil
  | cons pair listed ih =>
    obtain ⟨key, items⟩ := pair
    obtain ⟨first, known⟩ := List.forall_mem_cons.mp known
    have document := Document.lineThen first (line_lineText key items) (ih known)
    simpa [documentText] using document

theorem parse_of_document (document : Document listed others text)
    (wellFormed : (Entries.ofStatements others).isOk) (distinct : (listed.map Prod.fst).Nodup) :
    ∃ entries, Entries.parse text = .ok entries ∧
      ∀ key ∈ keys, entries.get? key = (listed.lookup key).map listValue := by
  obtain ⟨statements, read, runs⟩ := after_document document
  cases run : Entries.ofStatements others with
  | error flaw =>
    rw [run] at wellFormed
    cases wellFormed
  | ok result =>
    have same : Agree keys [] [] := fun _ _ => rfl
    obtain ⟨entries, parsed, found⟩ := runs same run distinct fun _ _ => rfl
    refine ⟨entries, ?_, fun key known => ?_⟩
    · unfold Entries.parse
      rw [statements?_of_reads read]
      exact parsed
    · rw [found key known, Entries.get?_nil, Option.or_none]

theorem list?_of_lookup {entries : Entries} {key : String}
    (found : entries.get? key = (listed.lookup key).map listValue) (default : List String) :
    list? entries key default = some ((listed.lookup key).getD default) := by
  unfold list?
  rw [found]
  cases listed.lookup key with
  | none => rfl
  | some items => exact strings?_eq_some_iff.mpr rfl

theorem parse_of_lookup {entries : Entries} (parsed : Entries.parse text = .ok entries)
    (found : ∀ key ∈ keys, entries.get? key = (listed.lookup key).map listValue) :
    parse text = .ok ⟨(listed.lookup noColorKey).getD builtIn.noColor,
      (listed.lookup demotedKey).getD builtIn.demoted⟩ := by
  have first := list?_of_lookup (found noColorKey (by decide)) builtIn.noColor
  have second := list?_of_lookup (found demotedKey (by decide)) builtIn.demoted
  have spelled : ofEntries? entries = some ⟨(listed.lookup noColorKey).getD builtIn.noColor,
      (listed.lookup demotedKey).getD builtIn.demoted⟩ := by
    unfold ofEntries?
    rw [first, second]
    rfl
  unfold parse
  rw [parsed]
  dsimp only [bind, Except.bind]
  rw [spelled]

/-- A value of the wrong kind under one of the keys spoils the whole file. -/
theorem parse_of_wrong {entries : Entries} {key : String} {value : Value}
    (parsed : Entries.parse text = .ok entries) (known : key ∈ keys)
    (found : entries.get? key = some value) (wrong : ∀ items, value ≠ listValue items) :
    parse text = .error .malformed := by
  have refused : ∀ default, list? entries key default = none := by
    intro default
    unfold list?
    rw [found]
    exact Option.eq_none_iff_forall_ne_some.mpr fun items read =>
      wrong items (strings?_eq_some_iff.mp read)
  have spoilt : ofEntries? entries = none := by
    unfold ofEntries?
    rcases List.mem_cons.mp known with rfl | known
    · rw [refused]
      rfl
    · obtain rfl := List.mem_singleton.mp known
      rw [refused]
      cases list? entries noColorKey builtIn.noColor <;> rfl
  unfold parse
  rw [parsed]
  dsimp only [bind, Except.bind]
  rw [spoilt]

theorem lookup_written {noColor demoted : Option (List String)}
    (order : listed = written noColor demoted ∨ listed = (written noColor demoted).reverse) :
    (∀ key ∈ listed.map Prod.fst, key ∈ keys) ∧ (listed.map Prod.fst).Nodup ∧
      listed.lookup noColorKey = noColor ∧ listed.lookup demotedKey = demoted := by
  have apart : noColorKey ≠ demotedKey := by decide
  have apart' : (noColorKey == demotedKey) = false := beq_false_of_ne apart
  have apart'' : (demotedKey == noColorKey) = false := beq_false_of_ne apart.symm
  rcases order with rfl | rfl
  · cases noColor <;> cases demoted <;>
      simp [written, keys, List.lookup_cons, apart, apart', apart'']
  · cases noColor <;> cases demoted <;>
      simp [written, keys, List.lookup_cons, apart, apart.symm, apart', apart'']

theorem resolve_of_invalid {flaw : Flaw}
    (read : t.read (dir.join (.ofText fileName)) = .ok (Utf8.encode text))
    (invalid : parse text = .error flaw) :
    resolve t dir = .error (.invalidFlags (dir.join (.ofText fileName)) flaw) := by
  unfold resolve load
  dsimp only
  rw [FileTree.isPresent_of_read read, if_pos rfl, read]
  dsimp only
  rw [Utf8.decode?_eq_some_iff.mpr rfl]
  dsimp only
  rw [invalid]
  rfl

/-- **Flags that are written in the file are the flags that are used.** In either order of the two
keys there is a document with the lists, and every such document gives them, whatever it has under
other names. A document with something else than a list of strings under one of the keys gives no
flags, and neither does a text that is no document. -/
theorem resolve_written :
    (∀ (noColor demoted : Option (List String)) (listed : List (String × List String)),
      listed = written noColor demoted ∨ listed = (written noColor demoted).reverse →
      Document listed [] (documentText listed) ∧
      ∀ {others : List Statement} {text : List Char} {t : FileTree} {dir : Path},
        Document listed others text → (Entries.ofStatements others).isOk →
        t.read (dir.join (.ofText fileName)) = .ok (Utf8.encode text) →
        ∃ flags told, resolve t dir = .ok (flags, told) ∧
          flags.noColor = noColor.getD builtIn.noColor ∧
          flags.demoted = demoted.getD builtIn.demoted ∧
          flags.direct = demoted.getD builtIn.demoted ∧
          flags.capture = noColor.getD builtIn.noColor ++ demoted.getD builtIn.demoted) ∧
    ∀ {text : List Char} {t : FileTree} {dir : Path},
      t.read (dir.join (.ofText fileName)) = .ok (Utf8.encode text) →
      (∀ {entries : Entries} {key : String} {value : Value}, Entries.parse text = .ok entries →
        key ∈ keys → entries.get? key = some value → (∀ items, value ≠ listValue items) →
          resolve t dir = .error (.invalidFlags (dir.join (.ofText fileName)) .malformed)) ∧
      ∀ {flaw : Flaw}, Entries.parse text = .error flaw →
        resolve t dir = .error (.invalidFlags (dir.join (.ofText fileName)) flaw) := by
  constructor
  · intro noColor demoted listed order
    obtain ⟨known, distinct, first, second⟩ := lookup_written order
    refine ⟨document_documentText known, ?_⟩
    intro others text t dir document wellFormed read
    obtain ⟨entries, parsed, found⟩ := parse_of_document document wellFormed distinct
    have parsed := parse_of_lookup parsed found
    rw [first, second] at parsed
    obtain ⟨told, resolved⟩ := valid_iff.mp (Or.inr ⟨FileTree.isPresent_of_read read, _, text, read,
      Utf8.decode?_eq_some_iff.mpr rfl, parsed⟩)
    exact ⟨_, told, resolved, rfl, rfl, rfl, rfl⟩
  · intro text t dir read
    refine ⟨fun parsed known found wrong => ?_, fun refused => ?_⟩
    · exact resolve_of_invalid read (parse_of_wrong parsed known found wrong)
    · refine resolve_of_invalid read ?_
      unfold parse
      rw [refused]
      rfl

namespace Beside

/-- Where the wrapper is. -/
def bin : Path := Bytes.ofText "/bin"

/-- A tree with flags beside the wrapper. -/
def tree (text : List Char) : FileTree where
  nodes := [([Bytes.ofText "bin"], .directory),
    ([Bytes.ofText "bin", Bytes.ofText fileName], .file 0o644 (Utf8.encode text))]
  here := []

/-- Flags that cannot stand in a string as they are, and a key that means nothing. -/
def given : List Char :=
  lineText noColorKey ["-fmark=\"\\\n\x07"] ++ '\n' :: "quiet = true".toList

/-- A key with a string that is in no array. -/
def wrong : List Char := "disabled_warnings = 'x'".toList

end Beside

open Beside

/-- The flags arrive as they were meant, and the other list is the built-in one; a string that is in
no array is refused. -/
theorem resolve_written_beside :
    (∃ flags told, resolve (tree given) bin = .ok (flags, told) ∧
      flags.capture = "-fmark=\"\\\n\x07" :: builtIn.demoted) ∧
    resolve (tree wrong) bin = .error (.invalidFlags (bin.join (.ofText fileName)) .malformed) := by
  have read : ∀ text, (tree text).read (bin.join (.ofText fileName)) = .ok (Utf8.encode text) :=
    fun _ => rfl
  constructor
  · have quiet : Reads "quiet = true".toList
        [.assignment ⟨[], "quiet"⟩ (.plain (.boolean true))] := rfl
    have document : Document (written (some ["-fmark=\"\\\n\x07"]) none) _ given :=
      .lineThen (by decide) (line_lineText _ _) (.others quiet (by decide))
    obtain ⟨flags, told, resolved, -, -, -, capture⟩ :=
      (resolve_written.1 _ _ _ (Or.inl rfl)).2 document rfl (read given)
    exact ⟨flags, told, resolved, capture⟩
  · have single : Reads wrong [.assignment ⟨[], "disabled_warnings"⟩ (.plain (.string "x"))] := rfl
    have parsed : Entries.parse wrong = .ok [(demotedKey, .string "x")] := by
      unfold Entries.parse
      rw [statements?_of_reads single]
      rfl
    have known : demotedKey ∈ keys := by decide
    exact (resolve_written.2 (read wrong)).1 parsed known rfl fun _ same => by cases same

end CompilerWrapper.Flags
