import CompilerWrapper.Toml.Document
import CompilerWrapper.Proofs.Success

/-!
# Statements about other names

An assignment changes what is under the first part of its key, and so does a section with all that is
below its header; neither looks at anything else in the table of the document (`ActsAt`). Statements
about other names therefore come out the same whatever is under some known names, and leave it there
(`after_blind`).
-/

namespace CompilerWrapper.Toml

variable {known : List String} {entries other result : Entries}

/-- The name in the document's own table under which a key leads. -/
def KeyPath.first (key : KeyPath) : String := key.way.head?.getD key.last

/-! ### What is under one name -/

/-- The change depends on what is under a name, and changes that and nothing else. -/
def ActsAt (name : String) (change : Entries → Except Flaw Entries) : Prop :=
  ∀ ⦃entries other result : Entries⦄, entries.get? name = other.get? name →
    change other = .ok result →
      ∃ value, result = other.set name value ∧ change entries = .ok (entries.set name value)

theorem changeAt_acts (fresh origin : Origin) (change : Origin → Entries → Except Flaw Entries)
    (part : String) (way : List String) :
    ActsAt part (Entries.changeAt fresh change (part :: way) origin) := by
  intro entries other result same changed
  rw [Entries.changeAt] at changed ⊢
  rw [same]
  generalize other.get? part = held at changed
  split at changed
  next =>
    obtain ⟨below, deeper, rfl⟩ := ok_of_map changed
    exact ⟨_, rfl, by rw [deeper]; rfl⟩
  next => cases changed
  next =>
    split at changed
    next => cases changed
    next apart =>
      obtain ⟨below, deeper, rfl⟩ := ok_of_map changed
      exact ⟨_, rfl, by rw [if_neg apart, deeper]; rfl⟩
  next =>
    split at changed
    next => cases changed
    next =>
      obtain ⟨below, deeper, rfl⟩ := ok_of_map changed
      exact ⟨_, rfl, by rw [deeper]; rfl⟩
  next => cases changed

/-- A change of the table that a key leads to is one under the key's first part. -/
theorem changeAt_acts_first {change : Origin → Entries → Except Flaw Entries} {key : KeyPath}
    (fresh : Origin) (acts : ∀ origin, ActsAt key.last (change origin)) :
    ActsAt key.first fun entries => entries.changeAt fresh change key.way .header := by
  obtain ⟨way, last⟩ := key
  cases way with
  | nil => exact acts .header
  | cons part way => exact changeAt_acts fresh .header change part way

/-- A check that looks at no table may come first. -/
theorem acts_bind {α : Type} {name : String} {change : α → Entries → Except Flaw Entries}
    (acts : ∀ a, ActsAt name (change a)) (x : Except Flaw α) :
    ActsAt name fun entries => x >>= fun a => change a entries := by
  intro entries other result same changed
  obtain ⟨a, checked, changed⟩ := ok_of_bind changed
  obtain ⟨value, rfl, changed'⟩ := acts a same changed
  exact ⟨value, rfl, by rw [checked]; exact changed'⟩

theorem assign_acts (key : KeyPath) (value : Value) :
    ActsAt key.first fun entries => entries.assign key value := by
  refine changeAt_acts_first .dotted fun origin => ?_
  intro entries other result same assigned
  dsimp only at assigned ⊢
  rw [same]
  split at assigned
  next => cases assigned
  next allowed =>
    rw [if_neg allowed]
    split at assigned
    next => cases assigned; exact ⟨_, rfl, rfl⟩
    next => cases assigned

theorem addSection_acts (s : Section) :
    ActsAt s.key.first fun entries => entries.addSection s := by
  refine acts_bind (fun _ => changeAt_acts_first .implied fun origin => ?_) (checkKey s.key)
  intro entries other result same added
  -- Every section that is taken puts a value made from its own assignments under its last part.
  have put : ∀ (body : Except Flaw Entries) (value : Entries → Value),
      (body >>= fun below => pure (other.set s.key.last (value below))) = .ok result →
      ∃ v, result = other.set s.key.last v ∧
        (body >>= fun below => pure (entries.set s.key.last (value below))) =
          (.ok (entries.set s.key.last v) : Except Flaw Entries) := by
    intro body value added
    obtain ⟨below, assigned, added⟩ := ok_of_bind added
    cases added
    exact ⟨_, rfl, by rw [assigned]; rfl⟩
  dsimp only at added ⊢
  rw [same]
  split at added
  next => exact put _ _ added
  next => exact put _ _ added
  next => exact put _ _ added
  next => exact put _ _ added
  next => cases added

/-! ### What other names do not change -/

/-- Away from the known names the two tables hold the same. -/
def Agree (known : List String) (entries other : Entries) : Prop :=
  ∀ name ∉ known, entries.get? name = other.get? name

/-- The change goes the same whatever is under the known names, and leaves that there. -/
def Blind (known : List String) (change : Entries → Except Flaw Entries) : Prop :=
  ∀ ⦃entries other result : Entries⦄, Agree known entries other → change other = .ok result →
    ∃ result', change entries = .ok result' ∧ Agree known result' result ∧
      ∀ name ∈ known, result'.get? name = entries.get? name

theorem ActsAt.blind {name : String} {change : Entries → Except Flaw Entries}
    (acts : ActsAt name change) (unknown : name ∉ known) : Blind known change := by
  intro entries other result agree changed
  obtain ⟨value, rfl, changed'⟩ := acts (agree name unknown) changed
  refine ⟨_, changed', fun key not_known => ?_, fun key is_known => ?_⟩
  · rw [Entries.get?_set, Entries.get?_set, agree key not_known]
  · have apart : key ≠ name := by
      rintro rfl
      exact unknown is_known
    rw [Entries.get?_set, if_neg apart]

theorem blind_pure : Blind known pure := by
  intro entries other result agree changed
  cases changed
  exact ⟨entries, rfl, agree, fun _ _ => rfl⟩

theorem Blind.bind {first next : Entries → Except Flaw Entries} (blind : Blind known first)
    (blind' : Blind known next) : Blind known fun entries => first entries >>= next := by
  intro entries other result agree changed
  obtain ⟨between, changed, changed'⟩ := ok_of_bind changed
  obtain ⟨between', same, agree, kept⟩ := blind agree changed
  obtain ⟨result', same', agree, kept'⟩ := blind' agree changed'
  refine ⟨result', ?_, agree, fun name is_known => (kept' name is_known).trans (kept name is_known)⟩
  dsimp only
  rw [same]
  exact same'

/-- One assignment. -/
def Term.assignOne (key : KeyPath) (term : Term) (entries : Entries) : Except Flaw Entries := do
  checkKey key
  let value ← term.value
  entries.assign key value

theorem assignAll_cons (key : KeyPath) (term : Term) (assignments : List (KeyPath × Term))
    (entries : Entries) : Term.assignAll entries ((key, term) :: assignments) =
      Term.assignOne key term entries >>= fun entries => Term.assignAll entries assignments := by
  unfold Term.assignOne
  rw [Term.assignAll]
  cases checkKey key with
  | error flaw => rfl
  | ok _ => cases term.value <;> rfl

theorem assignOne_blind {key : KeyPath} (unknown : key.first ∉ known) (term : Term) :
    Blind known (term.assignOne key) :=
  (acts_bind (fun _ => acts_bind (assign_acts key) term.value) (checkKey key)).blind unknown

theorem assignAll_blind {assignments : List (KeyPath × Term)}
    (unknown : ∀ a ∈ assignments, a.1.first ∉ known) :
    Blind known fun entries => Term.assignAll entries assignments := by
  induction assignments with
  | nil => exact blind_pure
  | cons a assignments ih =>
    obtain ⟨key, term⟩ := a
    obtain ⟨first, unknown⟩ := List.forall_mem_cons.mp unknown
    simp only [assignAll_cons]
    exact (assignOne_blind first term).bind (ih unknown)

theorem addSections_blind {added : List Section} (unknown : ∀ s ∈ added, s.key.first ∉ known) :
    Blind known fun entries => added.foldlM Entries.addSection entries := by
  induction added with
  | nil => exact blind_pure
  | cons s added ih =>
    obtain ⟨first, unknown⟩ := List.forall_mem_cons.mp unknown
    simp only [List.foldlM_cons]
    exact ((addSection_acts s).blind first).bind (ih unknown)

/-- The table after the statements, if it was `entries` before. -/
def Entries.after (entries : Entries) (statements : List Statement) : Except Flaw Entries := do
  let (body, added) := sections statements
  added.foldlM Entries.addSection (← Term.assignAll entries body)

/-- The names of which statements speak: those of the assignments before the first header, and those
of the headers. -/
def names (statements : List Statement) : List String :=
  (sections statements).1.map (·.1.first) ++ (sections statements).2.map (·.key.first)

/-- **Statements about other names come out the same whatever is under the known ones.** -/
theorem after_blind {statements : List Statement}
    (unknown : ∀ name ∈ names statements, name ∉ known) :
    Blind known fun entries => entries.after statements := by
  unfold names at unknown
  rw [List.forall_mem_append, List.forall_mem_map, List.forall_mem_map] at unknown
  exact (assignAll_blind unknown.1).bind (addSections_blind unknown.2)

theorem after_assignment (entries : Entries) (key : KeyPath) (term : Term)
    (rest : List Statement) : entries.after (.assignment key term :: rest) =
      Term.assignOne key term entries >>= fun entries => entries.after rest := by
  unfold Entries.after
  rw [sections]
  dsimp only
  rw [assignAll_cons, bind_assoc]

end CompilerWrapper.Toml
