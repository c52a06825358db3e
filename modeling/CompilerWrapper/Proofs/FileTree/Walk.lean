import CompilerWrapper.Proofs.Path

/-!
# What a walk depends on

A walk that succeeds has looked at directories and links only, but for the place where it ends. So
it leads to the same place in every tree that has those directories and links, whatever else there
is (`follow_congr`). A walk through a directory is the walk to the directory and then the walk from
there (`follow_append`).

A place is *rooted* if there are directories all the way down to it. Walks stay among rooted
places, and a rooted place is found under its own names (`follow_rooted`, `advance_of_rooted`).
-/

namespace CompilerWrapper

/-- A walk may go on behind the node. -/
def Node.LeadsOn : Node → Prop
  | .directory | .link _ => True
  | .file _ _ | .device _ => False

namespace FileTree

variable {t u : FileTree}

/-! ### One name -/

theorem directory_of_advance {l : Location} {name : Name} {todo : List Name} {halt : Halt}
    (walked : advance t l (name :: todo) = .ok halt) : t.node? l = some .directory := by
  unfold advance at walked
  cases node : t.node? l with
  | none => simp [node] at walked
  | some n => cases n <;> simp [node] at walked ⊢

theorem advance_here {l : Location} (directory : t.node? l = some .directory)
    (todo : List Name) : advance t l (Path.here :: todo) = advance t l todo := by
  rw [advance, directory]
  simp

theorem advance_above {l : Location} (directory : t.node? l = some .directory)
    (todo : List Name) : advance t l (Path.above :: todo) = advance t l.dropLast todo := by
  rw [advance, directory]
  simp [Path.above, Path.here]

theorem advance_name {l : Location} (directory : t.node? l = some .directory) {name : Name}
    (ne_here : name ≠ Path.here) (ne_above : name ≠ Path.above) (todo : List Name) :
    advance t l (name :: todo) =
      if nameLimit < name.length then .error .nameTooLong
      else match t.node? (l ++ [name]) with
        | none => .error .notFound
        | some (.link target) => .ok (.link l target todo)
        | some _ => advance t (l ++ [name]) todo := by
  rw [advance, directory]
  show (if name = Path.here then _ else if name = Path.above then _ else _) = _
  exact (if_neg ne_here).trans (if_neg ne_above)

/-- A walk that goes on behind a name has met a directory there, or a link, or was at its end. -/
theorem cases_of_advance_name {l : Location} {name : Name} {todo : List Name} {halt : Halt}
    (ne_here : name ≠ Path.here) (ne_above : name ≠ Path.above)
    (walked : advance t l (name :: todo) = .ok halt) :
    name.length ≤ nameLimit ∧
      ((∃ target, t.node? (l ++ [name]) = some (.link target) ∧ halt = .link l target todo) ∨
        (t.node? (l ++ [name]) = some .directory ∧ advance t (l ++ [name]) todo = .ok halt) ∨
        (∃ n, t.node? (l ++ [name]) = some n ∧ ¬ n.LeadsOn ∧ todo = [] ∧
          halt = .reached (l ++ [name]))) := by
  rw [advance_name (directory_of_advance walked) ne_here ne_above] at walked
  by_cases long : nameLimit < name.length
  · simp [long] at walked
  · refine ⟨Nat.le_of_not_lt long, ?_⟩
    rw [if_neg long] at walked
    cases node : t.node? (l ++ [name]) with
    | none => simp [node] at walked
    | some n =>
      rw [node] at walked
      cases n with
      | directory => exact Or.inr (Or.inl ⟨rfl, walked⟩)
      | link target => exact Or.inl ⟨target, rfl, (Except.ok.inj walked).symm⟩
      | file | device =>
        cases todo with
        | nil =>
          exact Or.inr (Or.inr ⟨_, rfl, id, rfl, (Except.ok.inj walked).symm⟩)
        | cons next todo =>
          rw [directory_of_advance walked] at node
          cases node

/-! ### One walk -/

theorem follow_of_reached {links : Nat} {l r : Location} {todo : List Name}
    (halted : advance t l todo = .ok (.reached r)) : follow t links l todo = .ok (r, links) := by
  unfold follow
  rw [halted]

theorem follow_of_advance_eq {links : Nat} {l m : Location} {todo todo' : List Name}
    (same : advance t l todo = advance t m todo') :
    follow t links l todo = follow t links m todo' := by
  unfold follow
  rw [same]

theorem follow_of_link {links : Nat} {l dir : Location} {target : Path} {todo rest : List Name}
    (halted : advance t l todo = .ok (.link dir target rest)) :
    follow t (links + 1) l todo = follow t links (origin dir target) (steps target ++ rest) := by
  rw [follow, halted]

theorem cases_of_follow {links left : Nat} {l r : Location} {todo : List Name}
    (walked : follow t links l todo = .ok (r, left)) :
    (advance t l todo = .ok (.reached r) ∧ left = links) ∨
      ∃ dir target rest links', advance t l todo = .ok (.link dir target rest) ∧
        links = links' + 1 ∧
        follow t links' (origin dir target) (steps target ++ rest) = .ok (r, left) := by
  unfold follow at walked
  cases halted : advance t l todo with
  | error fault => simp [halted] at walked
  | ok halt =>
    rw [halted] at walked
    cases halt with
    | reached place =>
      obtain ⟨rfl, rfl⟩ := Prod.mk.inj (Except.ok.inj walked)
      exact Or.inl ⟨rfl, rfl⟩
    | link dir target rest =>
      cases links with
      | zero => cases walked
      | succ links => exact Or.inr ⟨dir, target, rest, links, rfl, rfl, walked⟩

/-! ### The same walk in another tree -/

/-- How a walk halts in every tree that has the same directories: at its end, if the same is there,
and otherwise at the place of a link, whatever is there. -/
def Halts (t : FileTree) (l : Location) (todo : List Name) : Halt → Prop
  | .reached r => ∀ u : FileTree,
      (∀ above, t.node? above = some .directory → u.node? above = some .directory) →
      (∀ n, t.node? r = some n → u.node? r = some n) → advance u l todo = .ok (.reached r)
  | .link dir target rest => ∃ name, t.node? (dir ++ [name]) = some (.link target) ∧
      ∀ u : FileTree, (∀ above, t.node? above = some .directory → u.node? above = some .directory) →
        advance u l todo = match u.node? (dir ++ [name]) with
          | none => .error .notFound
          | some (.link target) => .ok (.link dir target rest)
          | some _ => advance u (dir ++ [name]) rest

/-- A walk halts as the walk behind its first name does. -/
theorem Halts.step {l m : Location} {name : Name} {todo : List Name} {halt : Halt}
    (halts : t.Halts m todo halt)
    (first : ∀ u : FileTree,
      (∀ above, t.node? above = some .directory → u.node? above = some .directory) →
        advance u l (name :: todo) = advance u m todo) : t.Halts l (name :: todo) halt := by
  cases halt with
  | reached r =>
    exact fun u directories goal => (first u directories).trans (halts u directories goal)
  | link dir target rest =>
    obtain ⟨last, node, same⟩ := halts
    exact ⟨last, node, fun u directories => (first u directories).trans (same u directories)⟩

theorem halts_of_advance {l : Location} {todo : List Name} {halt : Halt}
    (walked : advance t l todo = .ok halt) : t.Halts l todo halt := by
  induction todo generalizing l with
  | nil =>
    obtain rfl := Except.ok.inj walked
    exact fun _ _ _ => rfl
  | cons name todo ih =>
    have directory := directory_of_advance walked
    by_cases ne_here : name = Path.here
    · subst ne_here
      rw [advance_here directory] at walked
      exact (ih walked).step fun u directories => advance_here (directories l directory) todo
    by_cases ne_above : name = Path.above
    · subst ne_above
      rw [advance_above directory] at walked
      exact (ih walked).step fun u directories => advance_above (directories l directory) todo
    obtain ⟨short, cases⟩ := cases_of_advance_name ne_here ne_above walked
    have first : ∀ u : FileTree, u.node? l = some .directory →
        advance u l (name :: todo) = match u.node? (l ++ [name]) with
          | none => .error .notFound
          | some (.link target) => .ok (.link l target todo)
          | some _ => advance u (l ++ [name]) todo := by
      intro u directory
      rw [advance_name directory ne_here ne_above, if_neg (Nat.not_lt.mpr short)]
    rcases cases with ⟨target, node, rfl⟩ | ⟨node, walked⟩ | ⟨n, node, still, rfl, rfl⟩
    · exact ⟨name, node, fun u directories => first u (directories l directory)⟩
    · refine (ih walked).step fun u directories => ?_
      rw [first u (directories l directory), directories _ node]
    · intro u directories goal
      rw [first u (directories l directory), goal _ node]
      cases n with
      | directory | link => exact absurd trivial still
      | file | device => rfl

section Congr

variable (ways : ∀ l n, t.node? l = some n → n.LeadsOn → u.node? l = some n)

include ways

/-- **A walk leads to the same place in every tree that keeps the directories and links and what
is at the end of the walk.** -/
theorem follow_congr {links left : Nat} {l r : Location} {todo : List Name}
    (walked : follow t links l todo = .ok (r, left))
    (goal : ∀ n, t.node? r = some n → u.node? r = some n) :
    follow u links l todo = .ok (r, left) := by
  have directories := fun k node => ways k .directory node trivial
  induction links using Nat.strongRecOn generalizing l todo with
  | ind links ih =>
    rcases cases_of_follow walked with ⟨halted, rfl⟩ | ⟨dir, target, rest, links, halted, rfl, onward⟩
    · exact follow_of_reached (halts_of_advance halted u directories goal)
    · obtain ⟨name, node, same⟩ := halts_of_advance halted
      have halted' := same u directories
      rw [ways _ _ node trivial] at halted'
      rw [follow_of_link halted']
      exact ih links (Nat.lt_succ_self _) onward

end Congr

section Same

variable (same : ∀ l, u.node? l = t.node? l)

include same

theorem advance_ext (l : Location) (todo : List Name) : advance u l todo = advance t l todo := by
  induction todo generalizing l with
  | nil => rfl
  | cons name todo ih =>
    unfold advance
    simp only [same, ih]

theorem follow_ext (links : Nat) (l : Location) (todo : List Name) :
    follow u links l todo = follow t links l todo := by
  induction links generalizing l todo with
  | zero =>
    unfold follow
    rw [advance_ext same]
  | succ links ih =>
    unfold follow
    simp only [advance_ext same, ih]

end Same

/-! ### A walk through a directory -/

/-- What is walked up to a directory is walked in the same way with other names behind it. -/
theorem advance_append {l : Location} {way : List Name} {halt : Halt}
    (walked : advance t l (way ++ [Path.here]) = .ok halt) (todo : List Name) :
    (∃ r, halt = .reached r ∧ t.node? r = some .directory ∧
        advance t l (way ++ todo) = advance t r todo) ∨
      ∃ dir target rest, halt = .link dir target (rest ++ [Path.here]) ∧
        advance t l (way ++ todo) = .ok (.link dir target (rest ++ todo)) := by
  induction way generalizing l with
  | nil =>
    have directory := directory_of_advance walked
    rw [List.nil_append, advance_here directory] at walked
    exact Or.inl ⟨l, (Except.ok.inj walked).symm, directory, rfl⟩
  | cons name way ih =>
    have directory := directory_of_advance walked
    rw [List.cons_append] at walked ⊢
    by_cases ne_here : name = Path.here
    · subst ne_here
      rw [advance_here directory] at walked ⊢
      exact ih walked
    by_cases ne_above : name = Path.above
    · subst ne_above
      rw [advance_above directory] at walked ⊢
      exact ih walked
    obtain ⟨short, cases⟩ := cases_of_advance_name ne_here ne_above walked
    rw [advance_name directory ne_here ne_above, if_neg (Nat.not_lt.mpr short)]
    rcases cases with ⟨target, node, rfl⟩ | ⟨node, walked⟩ | ⟨_, _, _, none, _⟩
    · rw [node]
      exact Or.inr ⟨l, target, way, rfl, rfl⟩
    · rw [node]
      exact ih walked
    · simp at none

/-- **A walk through a directory goes to the directory and on from there.** -/
theorem follow_append {links left : Nat} {l r : Location} {way : List Name}
    (walked : follow t links l (way ++ [Path.here]) = .ok (r, left)) :
    t.node? r = some .directory ∧
      ∀ todo, follow t links l (way ++ todo) = follow t left r todo := by
  induction links using Nat.strongRecOn generalizing l way with
  | ind links ih =>
    rcases cases_of_follow walked with ⟨halted, rfl⟩ | ⟨dir, target, rest, links, halted, rfl, onward⟩
    · rcases advance_append halted [] with ⟨_, reached, directory, _⟩ | ⟨_, _, _, none, _⟩
      · obtain rfl := Halt.reached.inj reached
        refine ⟨directory, ?_⟩
        intro todo
        rcases advance_append halted todo with ⟨_, reached, _, same⟩ | ⟨_, _, _, none, _⟩
        · obtain rfl := Halt.reached.inj reached
          exact follow_of_advance_eq same
        · cases none
      · cases none
    · rcases advance_append halted [] with ⟨_, none, _⟩ | ⟨_, _, way', link, _⟩
      · cases none
      · obtain ⟨rfl, rfl, rfl⟩ := Halt.link.inj link
        rw [← List.append_assoc] at onward
        obtain ⟨directory, same⟩ := ih links (Nat.lt_succ_self _) onward
        refine ⟨directory, ?_⟩
        intro todo
        rcases advance_append halted todo with ⟨_, none, _⟩ | ⟨_, _, _, link, halted⟩
        · cases none
        · obtain ⟨rfl, rfl, rest⟩ := Halt.link.inj link
          obtain rfl := List.append_cancel_right rest
          rw [follow_of_link halted, ← List.append_assoc]
          exact same todo

/-- What is walked to a name is walked in the same way to the directory of the name. -/
theorem advance_upTo {l : Location} {way : List Name} {name : Name} {halt : Halt}
    (walked : advance t l (way ++ [name]) = .ok halt) :
    (∃ r, advance t l (way ++ [Path.here]) = .ok (.reached r)) ∨
      ∃ dir target rest, halt = .link dir target (rest ++ [name]) ∧
        advance t l (way ++ [Path.here]) = .ok (.link dir target (rest ++ [Path.here])) := by
  induction way generalizing l with
  | nil =>
    refine Or.inl ⟨l, ?_⟩
    rw [List.nil_append, advance_here (directory_of_advance walked)]
    rfl
  | cons next way ih =>
    have directory := directory_of_advance walked
    rw [List.cons_append] at walked ⊢
    by_cases ne_here : next = Path.here
    · subst ne_here
      rw [advance_here directory] at walked ⊢
      exact ih walked
    by_cases ne_above : next = Path.above
    · subst ne_above
      rw [advance_above directory] at walked ⊢
      exact ih walked
    obtain ⟨short, cases⟩ := cases_of_advance_name ne_here ne_above walked
    rw [advance_name directory ne_here ne_above, if_neg (Nat.not_lt.mpr short)]
    rcases cases with ⟨target, node, rfl⟩ | ⟨node, walked⟩ | ⟨_, _, _, none, _⟩
    · rw [node]
      exact Or.inr ⟨l, target, way, rfl, rfl⟩
    · rw [node]
      exact ih walked
    · simp at none

theorem follow_upTo {links left : Nat} {l r : Location} {way : List Name} {name : Name}
    (walked : follow t links l (way ++ [name]) = .ok (r, left)) :
    ∃ dir left', follow t links l (way ++ [Path.here]) = .ok (dir, left') := by
  induction links using Nat.strongRecOn generalizing l way with
  | ind links ih =>
    rcases cases_of_follow walked with ⟨halted, -⟩ | ⟨dir, target, rest, links, halted, rfl, onward⟩
    · rcases advance_upTo halted with ⟨place, reached⟩ | ⟨_, _, _, none, _⟩
      · exact ⟨place, links, follow_of_reached reached⟩
      · cases none
    · rcases advance_upTo halted with ⟨place, reached⟩ | ⟨_, _, rest', link, halted'⟩
      · exact ⟨place, _, follow_of_reached reached⟩
      · obtain ⟨rfl, rfl, rfl⟩ := Halt.link.inj link
        rw [follow_of_link halted']
        rw [← List.append_assoc] at onward ⊢
        exact ih links (Nat.lt_succ_self _) onward

/-- A link is blind if it leads to an entry beside it behind which no walk goes on. -/
def Blind (t : FileTree) (k : Location) : Prop :=
  ∃ dir name target n, k = dir ++ [name] ∧ t.node? k = some (.link target) ∧
    Path.IsProper target ∧ t.node? (dir ++ [target]) = some n ∧ ¬ n.LeadsOn

/-- **No walk to a directory goes through a blind link.** -/
theorem follow_of_blind
    (ways : ∀ k n, t.node? k = some n → n.LeadsOn → t.Blind k ∨ u.node? k = some n)
    {links left : Nat} {l r : Location} {way : List Name}
    (walked : follow t links l (way ++ [Path.here]) = .ok (r, left)) :
    follow u links l (way ++ [Path.here]) = .ok (r, left) := by
  have directories : ∀ k, t.node? k = some .directory → u.node? k = some .directory := by
    intro k directory
    rcases ways k _ directory trivial with ⟨_, _, _, _, _, link, _⟩ | same
    · rw [directory] at link
      cases link
    · exact same
  have directory := (follow_append walked).1
  induction links using Nat.strongRecOn generalizing l way with
  | ind links ih =>
    rcases cases_of_follow walked with ⟨halted, rfl⟩ | ⟨dir, target, rest, links, halted, rfl, onward⟩
    · refine follow_of_reached (halts_of_advance halted u directories ?_)
      intro n node
      obtain rfl := Option.some.inj (directory.symm.trans node)
      exact directories _ directory
    · obtain ⟨rest, rfl⟩ : ∃ way, rest = way ++ [Path.here] := by
        rcases advance_append halted [] with ⟨_, none, _⟩ | ⟨_, _, way, link, _⟩
        · cases none
        · exact ⟨way, (Halt.link.inj link).2.2⟩
      obtain ⟨name, link, same⟩ := halts_of_advance halted
      rcases ways _ _ link trivial with blind | link'
      · obtain ⟨_, _, _, n, place, link', proper, node, still⟩ := blind
        obtain ⟨rfl, -⟩ := List.append_inj' place rfl
        obtain rfl := Node.link.inj (Option.some.inj (link.symm.trans link'))
        -- Behind the link the walk comes to the entry beside it, and cannot end there.
        have stuck : ∀ halt, advance t dir (target :: (rest ++ [Path.here])) ≠ .ok halt := by
          intro halt halted
          obtain ⟨-, ⟨_, node', _⟩ | ⟨node', _⟩ | ⟨_, _, _, none, _⟩⟩ :=
            cases_of_advance_name proper.ne_here proper.ne_above halted
          · exact still (Option.some.inj (node'.symm.trans node) ▸ trivial)
          · exact still (Option.some.inj (node'.symm.trans node) ▸ trivial)
          · exact absurd none (by simp)
        rw [Path.origin_part proper.no_slash,
          Path.steps_part proper.ne_nil proper.no_slash] at onward
        rcases cases_of_follow onward with ⟨halted, _⟩ | ⟨_, _, _, _, halted, _⟩
        · exact absurd halted (stuck _)
        · exact absurd halted (stuck _)
      · have halted' := same u directories
        rw [link'] at halted'
        rw [follow_of_link halted']
        rw [← List.append_assoc] at onward ⊢
        exact ih links (Nat.lt_succ_self _) onward

/-! ### Rooted places -/

/-- There are directories with proper names all the way down to the place. -/
inductive Rooted (t : FileTree) : Location → Prop where
  | root : Rooted t []
  | child {l : Location} {name : Name} : Rooted t l → Path.IsProper name →
      name.length ≤ nameLimit → t.node? (l ++ [name]) = some .directory → Rooted t (l ++ [name])

namespace Rooted

variable {l : Location}

theorem directory (rooted : Rooted t l) : t.node? l = some .directory := by
  cases rooted with
  | root => rfl
  | child _ _ _ directory => exact directory

theorem dropLast (rooted : Rooted t l) : Rooted t l.dropLast := by
  cases rooted with
  | root => exact .root
  | child rooted _ _ _ =>
    rw [List.dropLast_concat]
    exact rooted

theorem isProper (rooted : Rooted t l) : ∀ name ∈ l, Path.IsProper name := by
  induction rooted with
  | root =>
    intro name h
    cases h
  | child _ proper _ _ ih =>
    intro name h
    rcases List.mem_append.mp h with h | h
    · exact ih name h
    · exact List.mem_singleton.mp h ▸ proper

/-- A rooted place is rooted in every tree that has the same directories above it. -/
theorem congr (rooted : Rooted t l)
    (same : ∀ above, above <+: l → t.node? above = some .directory →
      u.node? above = some .directory) : Rooted u l := by
  induction rooted with
  | root => exact .root
  | @child l name rooted proper short directory ih =>
    refine .child (ih ?_) proper short (same _ List.prefix_rfl directory)
    intro above h
    exact same above (h.trans (List.prefix_append l [name]))

/-- A rooted place is found under its own names. -/
theorem advance_append (rooted : Rooted t l) (todo : List Name) :
    advance t [] (l ++ todo) = advance t l todo := by
  induction rooted generalizing todo with
  | root => rfl
  | child rooted proper short directory ih =>
    rw [List.append_assoc, ih, List.singleton_append,
      advance_name rooted.directory proper.ne_here proper.ne_above,
      if_neg (Nat.not_lt.mpr short), directory]

end Rooted

/-- The name can stand between slashes. -/
def IsPart (name : Name) : Prop := name ≠ [] ∧ Path.slash ∉ name

theorem not_mem_of_mem_parts {p : Path} {part : Bytes} (h : part ∈ p.parts) :
    Path.slash ∉ part := by
  unfold Path.parts at h
  induction p generalizing part with
  | nil =>
    rw [List.splitOn_nil, List.mem_singleton] at h
    rw [h]
    exact List.not_mem_nil
  | cons b p ih =>
    rw [List.splitOn_cons_eq_if_modifyHead] at h
    split at h
    next =>
      rcases List.mem_cons.mp h with rfl | h
      · exact List.not_mem_nil
      · exact ih h
    next ne =>
      cases cut : p.splitOn Path.slash with
      | nil => exact absurd cut (List.splitOn_ne_nil _ _)
      | cons first rest =>
        rw [cut] at h ih
        rcases List.mem_cons.mp h with rfl | h
        · intro mem
          rcases List.mem_cons.mp mem with same | mem
          · exact ne (beq_iff_eq.mpr same.symm)
          · exact ih List.mem_cons_self mem
        · exact ih (List.mem_cons_of_mem _ h)

theorem isPart_of_mem_names {p : Path} {name : Name} (h : name ∈ names p) : IsPart name := by
  obtain ⟨part, ne⟩ := List.mem_filter.mp h
  exact ⟨by simpa using ne, not_mem_of_mem_parts part⟩

/-- A path without a zero byte has names without one. -/
theorem no_zero_of_mem_names {p : Path} (no_zero : 0 ∉ p) {name : Name} (h : name ∈ names p) :
    0 ∉ name := by
  intro zero
  have mem := Path.mem_ofParts (List.mem_filter.mp h).1 zero
  rw [Path.ofParts, Path.parts, List.intercalate_splitOn] at mem
  exact no_zero mem

theorem isPart_of_mem_steps {p : Path} {name : Name} (h : name ∈ steps p) : IsPart name := by
  unfold steps at h
  split at h
  · rcases List.mem_append.mp h with h | h
    · exact isPart_of_mem_names h
    · rw [List.mem_singleton.mp h]
      exact ⟨by decide, by decide⟩
  · exact isPart_of_mem_names h

/-- A walk from a rooted place halts at rooted places. -/
theorem advance_rooted {l : Location} {todo : List Name} {halt : Halt} (rooted : Rooted t l)
    (parts : ∀ name ∈ todo, IsPart name) (walked : advance t l todo = .ok halt) :
    (∃ r, halt = .reached r ∧ (t.node? r = some .directory → Rooted t r)) ∨
      ∃ dir target rest, halt = .link dir target rest ∧ Rooted t dir ∧
        ∀ name ∈ rest, IsPart name := by
  induction todo generalizing l with
  | nil => exact Or.inl ⟨l, (Except.ok.inj walked).symm, fun _ => rooted⟩
  | cons name todo ih =>
    have directory := directory_of_advance walked
    obtain ⟨isPart, rest⟩ := List.forall_mem_cons.mp parts
    by_cases ne_here : name = Path.here
    · subst ne_here
      rw [advance_here directory] at walked
      exact ih rooted rest walked
    by_cases ne_above : name = Path.above
    · subst ne_above
      rw [advance_above directory] at walked
      exact ih rooted.dropLast rest walked
    obtain ⟨short, cases⟩ := cases_of_advance_name ne_here ne_above walked
    rcases cases with ⟨target, _, rfl⟩ | ⟨node, walked⟩ | ⟨n, node, still, _, rfl⟩
    · exact Or.inr ⟨l, target, todo, rfl, rooted, rest⟩
    · have proper : Path.IsProper name := ⟨isPart.1, isPart.2, ne_here, ne_above⟩
      exact ih (.child rooted proper short node) rest walked
    · refine Or.inl ⟨_, rfl, ?_⟩
      intro directory
      rw [node] at directory
      exact absurd (Option.some.inj directory ▸ trivial) still

theorem Rooted.origin {dir : Location} (rooted : Rooted t dir) (p : Path) :
    Rooted t (FileTree.origin dir p) := by
  unfold FileTree.origin
  split
  · exact .root
  · exact rooted

/-- **A walk from a rooted place to a directory leads to a rooted place.** -/
theorem follow_rooted {links left : Nat} {l r : Location} {todo : List Name} (rooted : Rooted t l)
    (parts : ∀ name ∈ todo, IsPart name) (walked : follow t links l todo = .ok (r, left))
    (directory : t.node? r = some .directory) : Rooted t r := by
  induction links using Nat.strongRecOn generalizing l todo with
  | ind links ih =>
    rcases cases_of_follow walked with ⟨halted, rfl⟩ | ⟨dir, target, rest, links, halted, rfl, onward⟩
    · rcases advance_rooted rooted parts halted with ⟨_, reached, rooted⟩ | ⟨_, _, _, none, _⟩
      · obtain rfl := Halt.reached.inj reached
        exact rooted directory
      · cases none
    · rcases advance_rooted rooted parts halted with ⟨_, none, _⟩ | ⟨_, _, _, link, rooted, parts⟩
      · cases none
      · obtain ⟨rfl, rfl, rfl⟩ := Halt.link.inj link
        refine ih links (Nat.lt_succ_self _) (rooted.origin target) ?_ onward
        intro name h
        rcases List.mem_append.mp h with h | h
        · exact isPart_of_mem_steps h
        · exact parts name h

end FileTree

end CompilerWrapper
