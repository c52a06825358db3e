import CompilerWrapper.FileTree.Walk

/-!
# The parts of joined and of absolute paths

A part that is joined to a directory becomes the last one that is walked, and an absolute path is
walked by the parts that it was made of. Both hold for parts that are proper: not empty, without a
slash, and none of the two dots (`Path.IsProper`). A name as it stands in a directory holds no zero
byte either (`Path.IsName`), which matters where a path is handed to the system.
-/

namespace CompilerWrapper

namespace Path

/-- A part of a path that leads down to an entry of a directory. -/
structure IsProper (name : Name) : Prop where
  ne_nil : name ≠ []
  no_slash : slash ∉ name
  ne_here : name ≠ here
  ne_above : name ≠ above

/-- A name that an entry of a directory can have. -/
structure IsName (name : Name) : Prop extends IsProper name where
  no_zero : 0 ∉ name

instance (name : Name) : Decidable (IsProper name) :=
  decidable_of_iff (name ≠ [] ∧ slash ∉ name ∧ name ≠ here ∧ name ≠ above)
    ⟨fun h => ⟨h.1, h.2.1, h.2.2.1, h.2.2.2⟩, fun h => ⟨h.1, h.2, h.3, h.4⟩⟩

instance (name : Name) : Decidable (IsName name) :=
  decidable_of_iff (IsProper name ∧ 0 ∉ name)
    ⟨fun h => ⟨h.1, h.2⟩, fun h => ⟨h.toIsProper, h.no_zero⟩⟩

theorem parts_append_slash (p q : Path) : parts (p ++ slash :: q) = parts p ++ parts q :=
  List.splitOn_append_cons_self p q

theorem parts_of_no_slash {p : Path} (no_slash : slash ∉ p) : parts p = [p] :=
  List.splitOn_eq_singleton no_slash

theorem parts_ofParts {l : List Name} (ne : l ≠ []) (no_slash : ∀ name ∈ l, slash ∉ name) :
    parts (ofParts l) = l :=
  List.splitOn_intercalate slash no_slash ne

/-- The bytes of a part are bytes of the path. -/
theorem mem_ofParts {l : List Name} {name : Name} (mem : name ∈ l) {b : UInt8} (h : b ∈ name) :
    b ∈ ofParts l := by
  unfold ofParts
  induction l with
  | nil => cases mem
  | cons first l ih =>
    by_cases only : l = []
    · obtain rfl := List.mem_singleton.mp (only ▸ mem)
      rw [only, List.intercalate_singleton]
      exact h
    · rw [List.intercalate_cons_of_ne_nil only]
      rcases List.mem_cons.mp mem with rfl | mem
      · exact List.mem_append_left _ (List.mem_append_left _ h)
      · exact List.mem_append_right _ (ih mem)

theorem dropBlankParts_name {name : Name} (proper : IsProper name) (rest : List Bytes) :
    dropBlankParts (name :: rest) = name :: rest := by
  cases rest with
  | nil => rfl
  | cons next rest =>
    unfold dropBlankParts
    rw [if_neg (not_or.mpr ⟨proper.ne_nil, proper.ne_here⟩)]

theorem not_isAbsolute {p : Path} (no_slash : slash ∉ p) : p.isAbsolute = false := by
  cases p with
  | nil => rfl
  | cons b p =>
    have ne : b ≠ slash := fun h => no_slash (h ▸ List.mem_cons_self)
    simpa [isAbsolute] using ne

/-! ### A part joined to a directory -/

section Join

variable (dir : Path) {p : Path} (ne : p ≠ []) (no_slash : slash ∉ p)

include no_slash

theorem join_eq : dir.join p =
    if dir = [] ∨ dir.getLast? = some slash then dir ++ p else dir ++ slash :: p := by
  unfold join
  rw [not_isAbsolute no_slash]
  simp

theorem length_join : (dir.join p).length = (dir.join []).length + p.length := by
  rw [join_eq dir no_slash, join_eq dir List.not_mem_nil]
  split
  · rw [List.length_append, List.append_nil]
  · rw [List.length_append, List.length_append, List.length_cons, List.length_singleton]
    omega

/-- Joining adds no byte but a slash. -/
theorem zero_mem_join_iff : 0 ∈ dir.join p ↔ 0 ∈ dir ∨ 0 ∈ p := by
  have ne_slash : (0 : UInt8) ≠ slash := by decide
  rw [join_eq dir no_slash]
  split
  · exact List.mem_append
  · rw [List.mem_append, List.mem_cons, or_iff_right ne_slash]

theorem isAbsolute_join : (dir.join p).isAbsolute = dir.isAbsolute := by
  rw [join_eq dir no_slash]
  cases dir with
  | nil => exact not_isAbsolute no_slash
  | cons b dir => split <;> rfl

theorem origin_join (start : Location) :
    FileTree.origin start (dir.join p) = FileTree.origin start dir := by
  unfold FileTree.origin
  rw [isAbsolute_join dir no_slash]

omit dir in
theorem origin_part (start : Location) : FileTree.origin start p = start := by
  unfold FileTree.origin
  rw [not_isAbsolute no_slash]
  rfl

include ne

theorem getLast?_join : (dir.join p).getLast? = p.getLast? := by
  have behind : ∀ before : Path, (before ++ p).getLast? = p.getLast? := by
    intro before
    rw [List.getLast?_append, List.getLast?_eq_some_getLast ne, Option.some_or]
  rw [join_eq dir no_slash]
  split
  · exact behind dir
  · rw [List.append_cons]
    exact behind _

theorem endsInSlash_join : FileTree.endsInSlash (dir.join p) = false := by
  unfold FileTree.endsInSlash
  rw [getLast?_join dir ne no_slash, beq_eq_false_iff_ne]
  intro last
  exact no_slash (List.mem_of_getLast? last)

theorem names_join : FileTree.names (dir.join p) = FileTree.names dir ++ [p] := by
  have alone : FileTree.names p = [p] := by
    unfold FileTree.names
    rw [parts_of_no_slash no_slash]
    simp [ne]
  have below : ∀ dir : Path,
      FileTree.names (dir ++ slash :: p) = FileTree.names dir ++ [p] := by
    intro dir
    unfold FileTree.names at alone ⊢
    rw [parts_append_slash, List.filter_append, alone]
  rw [join_eq dir no_slash]
  split
  next within =>
    rcases within with rfl | last
    · rw [List.nil_append, alone]
      rfl
    · obtain ⟨above, rfl⟩ := List.getLast?_eq_some_iff.mp last
      have closed : FileTree.names (above ++ [slash]) = FileTree.names above := by
        unfold FileTree.names
        rw [parts_append_slash, List.filter_append]
        exact List.append_nil _
      rw [closed, List.append_assoc]
      exact below above
  next => exact below dir

theorem steps_join : FileTree.steps (dir.join p) = FileTree.names dir ++ [p] := by
  unfold FileTree.steps
  rw [endsInSlash_join dir ne no_slash, names_join dir ne no_slash]
  rfl

omit dir in
/-- A part is walked as itself. -/
theorem steps_part : FileTree.steps p = [p] := by
  have alone : join [] p = p := by
    rw [join_eq [] no_slash, if_pos (Or.inl rfl), List.nil_append]
  rw [← alone, steps_join [] ne no_slash, alone]
  rfl

end Join

/-! ### Absolute paths -/

theorem parent?_of_ending {p : Path} {last next : Name} {rest : List Name}
    (ending : p.ending = last :: next :: rest) :
    parent? p = if dropBlankParts (next :: rest) = [[]] then some [slash]
      else some (ofParts (dropBlankParts (next :: rest)).reverse) := by
  unfold parent?
  rw [ending]
  dsimp only
  split
  next root => rw [if_pos root]
  next other => rw [if_neg other]

section Absolute

variable {l : Location}

theorem ofParts_append (l : List Name) (name suffix : Name) :
    ofParts (l ++ [name ++ suffix]) = ofParts (l ++ [name]) ++ suffix := by
  unfold ofParts
  induction l with
  | nil => simp only [List.nil_append, List.intercalate_singleton]
  | cons first l ih =>
    rw [List.cons_append, List.cons_append, List.intercalate_cons_of_ne_nil (by simp),
      List.intercalate_cons_of_ne_nil (by simp), ih]
    simp only [List.append_assoc]

theorem parts_absolute (names : ∀ name ∈ l, IsProper name) (ne : l ≠ []) :
    parts (slash :: ofParts l) = [] :: l := by
  have cut := parts_append_slash [] (ofParts l)
  rw [parts_ofParts ne fun name h => (names name h).no_slash] at cut
  exact cut

theorem names_absolute (names : ∀ name ∈ l, IsProper name) :
    FileTree.names (slash :: ofParts l) = l := by
  by_cases ne : l = []
  · subst ne
    rfl
  · unfold FileTree.names
    rw [parts_absolute names ne, List.filter_cons_of_neg (by simp), List.filter_eq_self]
    intro name h
    simpa using (names name h).ne_nil

variable {name : Name} (names : ∀ other ∈ l ++ [name], IsProper other)

include names

theorem ending_absolute :
    ending (slash :: ofParts (l ++ [name])) = name :: (l.reverse ++ [[]]) := by
  unfold ending
  rw [parts_absolute names (by simp), List.reverse_cons, List.reverse_append,
    List.reverse_singleton, List.singleton_append, List.cons_append]
  exact dropBlankParts_name (names name (by simp)) _

theorem endsInSlash_absolute :
    FileTree.endsInSlash (slash :: ofParts (l ++ [name])) = false := by
  have proper := names name (by simp)
  have shape : slash :: ofParts (l ++ [name]) = slash :: ofParts (l ++ [[]]) ++ name := by
    rw [List.cons_append, ← ofParts_append, List.nil_append]
  unfold FileTree.endsInSlash
  rw [shape, List.getLast?_append, List.getLast?_eq_some_getLast proper.ne_nil, Option.some_or,
    beq_eq_false_iff_ne]
  intro last
  exact proper.no_slash (Option.some.inj last ▸ List.getLast_mem proper.ne_nil)

theorem steps_absolute : FileTree.steps (slash :: ofParts (l ++ [name])) = l ++ [name] := by
  unfold FileTree.steps
  rw [endsInSlash_absolute names, names_absolute names]
  rfl

/-- The directory of a place is above it. -/
theorem parent?_absolute :
    parent? (slash :: ofParts (l ++ [name])) = some (slash :: ofParts l) := by
  have ending := ending_absolute names
  rcases List.eq_nil_or_concat l with rfl | ⟨above, next, rfl⟩
  · unfold parent?
    rw [ending]
    rfl
  · rw [List.concat_eq_append, List.reverse_append, List.reverse_singleton, List.singleton_append,
      List.cons_append] at ending
    have more : next :: (above.reverse ++ [[]]) ≠ [[]] := by simp
    rw [List.concat_eq_append, parent?_of_ending ending,
      dropBlankParts_name (names next (by simp)), if_neg more]
    have rest : above ++ [next] ≠ [] := by simp
    rw [List.reverse_cons, List.reverse_append, List.reverse_reverse, List.reverse_singleton,
      List.singleton_append, List.cons_append]
    exact congrArg some (List.intercalate_cons_of_ne_nil rest)

end Absolute

end Path

end CompilerWrapper
