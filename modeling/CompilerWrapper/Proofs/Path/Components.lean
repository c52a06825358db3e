import CompilerWrapper.Proofs.FileTree.Walk
import CompilerWrapper.Proofs.Path

/-!
# The components of a path

Two spellings of a path can have the same components: empty parts and single dots count for nothing,
but for a dot that a relative path begins with. What is asked of a path can be said in its
components. The file name of a path is its last component and the parent has the others
(`exists_parent?_of_fileName?`); a name joined to a path is one component more (`components_join`).

A path is canonical if it starts at the root and every part behind that is a name. Such a path is
what its directory and its file name come to when they are joined again (`canonical_eq_join`).
-/

namespace CompilerWrapper.Path

/-- Whether a part counts behind the first one. -/
def isComponent (part : Bytes) : Bool := part ≠ [] ∧ part ≠ here

/-- The components of a path: a slash for the root, if the path starts there, and then its parts that
are neither empty nor a dot. The part that a relative path begins with may be a dot. -/
def components (p : Path) : List Bytes :=
  (if p.isAbsolute then [[slash]] else (p.parts.take 1).filter (· ≠ [])) ++
    p.parts.tail.filter isComponent

/-- An absolute path of which every part is a name. The root has an empty part and is none. -/
structure IsCanonical (p : Path) : Prop where
  absolute : p.isAbsolute = true
  names : ∀ part ∈ p.parts.tail, IsProper part

instance (p : Path) : Decidable (IsCanonical p) :=
  decidable_of_iff (p.isAbsolute = true ∧ ∀ part ∈ p.parts.tail, IsProper part)
    ⟨fun h => ⟨h.1, h.2⟩, fun h => ⟨h.1, h.2⟩⟩

/-! ### Components and parts -/

theorem parts_ne_nil (p : Path) : p.parts ≠ [] := List.splitOn_ne_nil slash p

theorem ofParts_parts (p : Path) : ofParts p.parts = p := List.intercalate_splitOn slash

/-- An absolute path begins with an empty part and goes on. -/
theorem isAbsolute_iff {p : Path} : p.isAbsolute = true ↔ ∃ rest ≠ [], p.parts = [] :: rest := by
  constructor
  · intro absolute
    cases p with
    | nil => cases absolute
    | cons b p =>
      obtain rfl : b = slash := by simpa [isAbsolute] using absolute
      exact ⟨parts p, parts_ne_nil p, parts_append_slash [] p⟩
  · rintro ⟨rest, ne, cut⟩
    have whole := ofParts_parts p
    rw [cut] at whole
    rw [← whole, ofParts, List.intercalate_cons_of_ne_nil ne]
    rfl

/-- The component that a path begins with, told from its parts. -/
def leading (first : Bytes) (rest : List Bytes) : List Bytes :=
  if first ≠ [] then [first] else if rest ≠ [] then [[slash]] else []

theorem leading_congr (first : Bytes) (rest other : List Bytes) (h : rest = [] ↔ other = []) :
    leading first rest = leading first other := by
  unfold leading
  simp only [ne_eq, h]

theorem components_of_parts {p : Path} {first : Bytes} {rest : List Bytes}
    (cut : p.parts = first :: rest) :
    p.components = leading first rest ++ rest.filter isComponent := by
  have absolute : p.isAbsolute = true ↔ first = [] ∧ rest ≠ [] := by
    rw [isAbsolute_iff, cut]
    constructor
    · rintro ⟨_, ne, same⟩
      obtain ⟨rfl, rfl⟩ := List.cons.inj same
      exact ⟨rfl, ne⟩
    · rintro ⟨rfl, ne⟩
      exact ⟨rest, ne, rfl⟩
  unfold components leading
  rw [cut]
  by_cases empty : first = []
  · by_cases more : rest = []
    · rw [if_neg fun h => (absolute.mp h).2 more]
      simp [empty, more]
    · rw [if_pos (absolute.mpr ⟨empty, more⟩)]
      simp [empty, more]
  · rw [if_neg fun h => empty (absolute.mp h).1]
    simp [empty]

/-- What stands behind more parts, and is a component, comes behind their components. -/
theorem components_of_parts_concat {p : Path} {first last : Bytes} {rest : List Bytes}
    (cut : p.parts = first :: rest ++ [last]) (component : isComponent last = true) :
    p.components = leading first [last] ++ rest.filter isComponent ++ [last] := by
  have kept : [last].filter isComponent = [last] := List.filter_eq_self.mpr (by simp [component])
  rw [List.cons_append] at cut
  rw [components_of_parts cut, leading_congr first _ [last] (by simp), List.filter_append,
    kept, List.append_assoc]

theorem IsProper.isComponent {name : Name} (proper : IsProper name) : isComponent name = true := by
  simp [Path.isComponent, proper.ne_nil, proper.ne_here]

/-- **A name joined to a path is one component more.** -/
theorem components_join (dir : Path) {name : Name} (proper : IsProper name) :
    (dir.join name).components = dir.components ++ [name] := by
  have alone := parts_of_no_slash proper.no_slash
  by_cases empty : dir = []
  · subst empty
    rw [join_eq [] proper.no_slash, if_pos (Or.inl rfl), List.nil_append, components_of_parts alone,
      leading, if_pos proper.ne_nil]
    rfl
  rw [join_eq dir proper.no_slash]
  split
  next within =>
    obtain ⟨above, rfl⟩ := List.getLast?_eq_some_iff.mp (within.resolve_left empty)
    obtain ⟨first, rest, cut⟩ := List.exists_cons_of_ne_nil (parts_ne_nil above)
    have closed : parts (above ++ [slash]) = first :: (rest ++ [[]]) := by
      rw [parts_append_slash, cut]
      rfl
    have joined : parts (above ++ [slash] ++ name) = first :: rest ++ [name] := by
      rw [List.append_assoc, List.singleton_append, parts_append_slash, cut, alone]
    rw [components_of_parts_concat joined proper.isComponent, components_of_parts closed,
      leading_congr first (rest ++ [[]]) [name] (by simp), List.filter_append]
    simp [Path.isComponent]
  next =>
    obtain ⟨first, rest, cut⟩ := List.exists_cons_of_ne_nil (parts_ne_nil dir)
    have joined : parts (dir ++ slash :: name) = first :: rest ++ [name] := by
      rw [parts_append_slash, cut, alone]
    have same : leading first [name] = leading first rest := by
      by_cases more : rest = []
      · have some : first ≠ [] := by
          rintro rfl
          have whole := ofParts_parts dir
          rw [cut, more] at whole
          exact empty whole.symm
        simp [leading, some]
      · exact leading_congr first _ _ (by simp [more])
    rw [components_of_parts_concat joined proper.isComponent, components_of_parts cut, same]

/-! ### The parent and the file name -/

/-- One part is left as it is. -/
theorem dropBlankParts_of_few {parts : List Bytes}
    (few : ∀ last next rest, parts ≠ last :: next :: rest) : dropBlankParts parts = parts := by
  rw [dropBlankParts]
  exact few

/-- The parts that are dropped at the end are no components. -/
theorem exists_dropBlankParts (parts : List Bytes) :
    ∃ blanks, parts = blanks ++ dropBlankParts parts ∧ blanks.reverse.filter isComponent = [] := by
  induction parts using dropBlankParts.induct with
  | case1 last next rest blank ih =>
    obtain ⟨blanks, whole, none⟩ := ih
    have dropped : isComponent last = false := by
      rcases blank with rfl | rfl <;> decide
    rw [dropBlankParts, if_pos blank]
    refine ⟨last :: blanks, by rw [List.cons_append, ← whole], ?_⟩
    rw [List.reverse_cons, List.filter_append, none]
    simp [dropped]
  | case2 last next rest component =>
    rw [dropBlankParts, if_neg component]
    exact ⟨[], rfl, rfl⟩
  | case3 parts few => exact ⟨[], (dropBlankParts_of_few few).symm, rfl⟩

theorem dropBlankParts_ne_nil {parts : List Bytes} (ne : parts ≠ []) : dropBlankParts parts ≠ [] := by
  induction parts using dropBlankParts.induct with
  | case1 last next rest blank ih =>
    rw [dropBlankParts, if_pos blank]
    exact ih (by simp)
  | case2 last next rest component =>
    rw [dropBlankParts, if_neg component]
    exact ne
  | case3 parts few =>
    rw [dropBlankParts_of_few few]
    exact ne

/-- Dropping ends at a component, unless all parts but the first are dropped. -/
theorem isComponent_of_dropBlankParts {parts : List Bytes} {last next : Bytes} {rest : List Bytes}
    (dropped : dropBlankParts parts = last :: next :: rest) : isComponent last = true := by
  induction parts using dropBlankParts.induct with
  | case1 _ _ _ blank ih =>
    rw [dropBlankParts, if_pos blank] at dropped
    exact ih dropped
  | case2 _ _ _ component =>
    rw [dropBlankParts, if_neg component] at dropped
    obtain ⟨rfl, -⟩ := List.cons.inj dropped
    simpa [isComponent] using component
  | case3 parts few =>
    rw [dropBlankParts_of_few few] at dropped
    exact absurd dropped (few _ _ _)

/-- The components of a parent are those of the path but for the last one. -/
theorem components_parent? {p : Path} {last next : Bytes} {rest : List Bytes}
    (ending : p.ending = last :: next :: rest) :
    ∃ dir, p.parent? = some dir ∧ p.components = dir.components ++ [last] := by
  obtain ⟨blanks, whole, none⟩ := exists_dropBlankParts p.parts.reverse
  obtain ⟨blanks', whole', none'⟩ := exists_dropBlankParts (next :: rest)
  obtain ⟨first, more, kept⟩ :=
    List.exists_cons_of_ne_nil
      (List.reverse_ne_nil_iff.mpr (dropBlankParts_ne_nil (List.cons_ne_nil next rest)))
  have component := isComponent_of_dropBlankParts ending
  -- Between the parts of the parent and the last component stand parts that are no components.
  have cut : p.parts = first :: (more ++ blanks'.reverse ++ [last] ++ blanks.reverse) := by
    have parts := List.reverse_eq_iff.mp whole
    change p.parts = (blanks ++ p.ending).reverse at parts
    have below := congrArg List.reverse whole'
    rw [List.reverse_append, kept] at below
    rw [parts, ending, List.reverse_append, List.reverse_cons, below]
    simp only [List.cons_append, List.append_assoc]
  have above : p.components = leading first [last] ++ more.filter isComponent ++ [last] := by
    rw [components_of_parts cut, leading_congr first _ [last] (by simp)]
    simp [List.filter_append, none, none', component]
  rw [above, parent?_of_ending ending]
  split
  next root =>
    rw [root] at kept
    obtain ⟨rfl, rfl⟩ := List.cons.inj kept
    exact ⟨[slash], rfl, rfl⟩
  next not_root =>
    have no_slash : ∀ part ∈ first :: more, slash ∉ part := by
      intro part mem
      refine FileTree.not_mem_of_mem_parts (p := p) (cut ▸ ?_)
      rw [List.append_assoc, List.append_assoc, ← List.cons_append]
      exact List.mem_append_left _ mem
    have same : leading first [last] = leading first more := by
      by_cases empty : first = []
      · have ne : more ≠ [] := by
          rintro rfl
          rw [empty] at kept
          exact not_root (List.reverse_eq_iff.mp kept)
        exact leading_congr first _ _ (by simp [ne])
      · simp [leading, empty]
    exact ⟨_, rfl, by rw [kept, components_of_parts (parts_ofParts (by simp) no_slash), same]⟩

/-- **A path with a file name has a parent, whose components are those of the path but for the last
one, which is the file name.** -/
theorem exists_parent?_of_fileName? {p : Path} {name : Name} (named : p.fileName? = some name) :
    ∃ dir, p.parent? = some dir ∧ p.components = dir.components ++ [name] := by
  unfold fileName? at named
  match ending : p.ending with
  | [] => rw [ending] at named; cases named
  | [only] =>
    rw [ending] at named
    dsimp only at named
    split at named
    · cases named
    next component =>
    obtain rfl := Option.some.inj named
    obtain ⟨blanks, whole, none⟩ := exists_dropBlankParts p.parts.reverse
    have cut : p.parts = only :: blanks.reverse := by
      have parts := List.reverse_eq_iff.mp whole
      change p.parts = (blanks ++ p.ending).reverse at parts
      rw [parts, ending, List.reverse_append]
      rfl
    have ne : only ≠ [] := fun empty => component (by simp [empty])
    refine ⟨[], by simp [parent?, ending, ne], ?_⟩
    rw [components_of_parts cut, none, leading, if_pos ne]
    rfl
  | last :: next :: rest =>
    rw [ending] at named
    dsimp only at named
    split at named
    · cases named
    obtain rfl := Option.some.inj named
    exact components_parent? ending

/-- A name at the end of a path is its file name. -/
theorem fileName?_of_parts {p : Path} {front : List Bytes} {name : Name}
    (cut : p.parts = front ++ [name]) (proper : IsProper name) : p.fileName? = some name := by
  have last : p.ending = name :: front.reverse := by
    unfold ending
    rw [cut, List.reverse_append]
    exact dropBlankParts_name proper _
  unfold fileName?
  rw [last]
  cases front.reverse with
  | nil => exact if_neg (by simp [proper.ne_nil, proper.ne_here, proper.ne_above])
  | cons => exact if_neg proper.ne_above

theorem exists_parts_join (dir : Path) {name : Name} (proper : IsProper name) :
    ∃ front, (dir.join name).parts = front ++ [name] := by
  have alone := parts_of_no_slash proper.no_slash
  rw [join_eq dir proper.no_slash]
  split
  next within =>
    rcases within with rfl | last
    · exact ⟨[], alone⟩
    · obtain ⟨above, rfl⟩ := List.getLast?_eq_some_iff.mp last
      rw [List.append_assoc, List.singleton_append, parts_append_slash, alone]
      exact ⟨_, rfl⟩
  next =>
    rw [parts_append_slash, alone]
    exact ⟨_, rfl⟩

/-- **A name joined to a directory does not leave it**: it is the file name, and the parent has the
components of the directory. -/
theorem parent?_join (dir : Path) {name : Name} (proper : IsProper name) :
    (dir.join name).fileName? = some name ∧
      ∃ above, (dir.join name).parent? = some above ∧ above.components = dir.components := by
  obtain ⟨front, cut⟩ := exists_parts_join dir proper
  have named := fileName?_of_parts cut proper
  obtain ⟨above, parent, components⟩ := exists_parent?_of_fileName? named
  rw [components_join dir proper] at components
  exact ⟨named, above, parent, (List.append_cancel_right components).symm⟩

/-! ### Canonical paths -/

/-- A canonical path leads from the root through names to a last name. -/
theorem IsCanonical.exists_names {p : Path} (canonical : p.IsCanonical) :
    ∃ (l : List Name) (name : Name), (∀ other ∈ l ++ [name], IsProper other) ∧
      p = slash :: ofParts (l ++ [name]) := by
  obtain ⟨rest, ne, cut⟩ := isAbsolute_iff.mp canonical.absolute
  have names := canonical.names
  have whole := ofParts_parts p
  rw [cut] at names whole
  rw [List.tail_cons, ← List.dropLast_concat_getLast ne] at names
  refine ⟨rest.dropLast, rest.getLast ne, names, ?_⟩
  rw [List.dropLast_concat_getLast ne, ← whole]
  exact List.intercalate_cons_of_ne_nil ne

theorem ofParts_concat {parts : List Bytes} (ne : parts ≠ []) (last : Bytes) :
    ofParts (parts ++ [last]) = ofParts parts ++ slash :: last := by
  unfold ofParts
  induction parts with
  | nil => exact absurd rfl ne
  | cons first parts ih =>
    rw [List.cons_append, List.intercalate_cons_of_ne_nil (by simp)]
    by_cases only : parts = []
    · subst only
      simp
    · rw [ih only, List.intercalate_cons_of_ne_nil only]
      simp only [List.append_assoc]

section Absolute

variable {l : List Name} {name : Name} (names : ∀ other ∈ l ++ [name], IsProper other)

include names

theorem fileName?_absolute : fileName? (slash :: ofParts (l ++ [name])) = some name := by
  have cut : parts (slash :: ofParts (l ++ [name])) = [] :: l ++ [name] :=
    parts_absolute names (by simp)
  exact fileName?_of_parts cut (names name (by simp))

/-- A place is found again below its directory. -/
theorem join_absolute : join (slash :: ofParts l) name = slash :: ofParts (l ++ [name]) := by
  have proper := names name (by simp)
  rw [join_eq _ proper.no_slash]
  rcases List.eq_nil_or_concat l with rfl | ⟨above, next, rfl⟩
  · have root : (slash :: ofParts []).getLast? = some slash := rfl
    have alone : ofParts [name] = name := List.intercalate_singleton
    rw [if_pos (Or.inr root), List.nil_append, alone]
    rfl
  · rw [List.concat_eq_append] at names ⊢
    have open_end : FileTree.endsInSlash (slash :: ofParts (above ++ [next])) = false :=
      endsInSlash_absolute fun other mem => names other (List.mem_append_left _ mem)
    have last : ¬ (slash :: ofParts (above ++ [next])).getLast? = some slash := by
      simpa [FileTree.endsInSlash] using open_end
    have below : ofParts (above ++ [next] ++ [name]) = ofParts (above ++ [next]) ++ slash :: name :=
      ofParts_concat (by simp) name
    rw [if_neg (not_or.mpr ⟨List.cons_ne_nil _ _, last⟩), below, List.cons_append]

end Absolute

end CompilerWrapper.Path
