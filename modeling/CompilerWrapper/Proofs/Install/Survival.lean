import CompilerWrapper.Admin
import CompilerWrapper.Proofs.Install

/-!
# What becomes of the compilers

Moving tools aside loses no compiler, and placing the wrapper touches only what was moved or stands
under an alias. Between the two the links of aliases are made, and each takes the place of what
stands there. So the compiler of a tool outlives an install exactly if no alias is called like the
tool (`compiler_kept_iff`).

Nothing refuses such an alias, and the default alias can be one: `compiler_lost` is the install of
two tools that are named on the command line.
-/

namespace CompilerWrapper.Install

open FileTree

/-- **After an install that succeeded, the compiler of a tool stands beside it, with the bytes and
the permission bits that it had, exactly if no alias is called like the tool.** -/
theorem compiler_kept_iff {plan : Plan} {t : FileTree} {l : Location} (apart : plan.Apart)
    (dir : t.resolve (plan.dir.join Path.here) = .ok l)
    (files : ∀ tool ∈ plan.tools, HasFiles t l tool) (done : (run plan t).failure? = none)
    {tool : String} (mem : tool ∈ plan.tools) :
    ∃ mode contents, compiler? t l tool = some (.file mode contents) ∧
      ((run plan t).tree.resolve (plan.realPath tool) = .ok (realAt l tool) ∧
          (run plan t).tree.node? (realAt l tool) = some (.file mode contents) ↔
        ∀ a ∈ plan.aliases, a.name ≠ tool) := by
  obtain ⟨left, leads⟩ := leadsTo_of_resolve dir
  obtain ⟨u, v, aside, moved, linked, placing⟩ := run_phases apart leads files done
  have named := mem_names_of_tool mem
  obtain ⟨source, _, _, placed⟩ :=
    exists_placed (List.ne_nil_of_mem named) apart.isName linked.leads placing
  obtain ⟨some, nameable⟩ := moved tool mem
  have compiler : compiler? t l tool = u.node? (realAt l tool) := by
    rw [← aside.compilers tool mem]
    exact Option.or_of_isSome some
  obtain ⟨n, node⟩ := Option.isSome_iff_exists.mp some
  obtain ⟨mode, contents, rfl⟩ := aside.files tool mem _ (Or.inr rfl) n node
  have after : (run plan t).tree.node? (realAt l tool) = v.node? (realAt l tool) :=
    placed.frame _ fun name h => real_ne_name apart h named
  refine ⟨mode, contents, compiler.trans node, ?_⟩
  constructor
  · rintro ⟨-, kept⟩ a h rfl
    cases last : target? plan.aliases a.name with
    | none => exact ne_of_target?_eq_none last h rfl
    | some target =>
      rw [after, linked.links a.name target last] at kept
      cases kept
  · intro others
    have kept : (run plan t).tree.node? (realAt l tool) = .some (.file mode contents) := by
      rw [after, linked.frame _ fun a h same => others a h (realAt_inj same).symm, node]
    exact ⟨resolve_join_of_file nameable placed.leads kept, kept⟩

/-! ### A tool called like the default alias -/

namespace TwoTools

/-- The directory of two compilers. -/
def bin : Location := [Bytes.ofText "bin"]

/-- Two compilers and the wrapper. -/
def tree : FileTree where
  nodes := [(bin, .directory), (nameAt bin "clang", .file 0o755 [1]),
    (nameAt bin "clang++", .file 0o755 [2]), ([Bytes.ofText "ccwrap"], .file 0o755 [0])]
  here := []

/-- Installs the wrapper in front of both, with the aliases that come with tools on a command
line. -/
def plan : Plan where
  dir := absolutePath bin
  wrapper := absolutePath [Bytes.ofText "ccwrap"]
  tools := Admin.chooseTools ["clang", "clang++"]
  aliases := Admin.chooseAliases (Admin.chooseTools ["clang", "clang++"]) []

theorem apart : plan.Apart := by
  have names : ∀ name ∈ plan.names, name = "clang" ∨ name = "clang++" := by
    simp [plan, Plan.names, Admin.chooseTools, Admin.chooseAliases, defaultAliases]
  constructor
  · intro name h
    rcases names name h with rfl | rfl <;> decide
  · intro name h other h' same
    rcases names name h with rfl | rfl <;> rcases names other h' with rfl | rfl <;>
      exact absurd same (by decide)

theorem files : ∀ tool ∈ plan.tools, HasFiles tree bin tool := by
  intro tool h place at_tool n node
  have entry : ∀ tool ∈ plan.tools, ∀ place ∈ [nameAt bin tool, realAt bin tool],
      ∀ n ∈ tree.node? place, n = .file 0o755 [1] ∨ n = .file 0o755 [2] := by
    decide +kernel
  rcases entry tool h place (by simpa using at_tool) n node with rfl | rfl
  · exact ⟨_, _, rfl⟩
  · exact ⟨_, _, rfl⟩

end TwoTools

open TwoTools

theorem compiler_kept_clang :
    (run plan tree).failure? = none ∧
      (run plan tree).tree.resolve (plan.realPath "clang") = .ok (realAt bin "clang") ∧
      (run plan tree).tree.node? (realAt bin "clang") = some (.file 0o755 [1]) := by
  have done : (run plan tree).failure? = none := by decide +kernel
  obtain ⟨mode, contents, compiler, kept⟩ :=
    compiler_kept_iff apart rfl files done (by decide : "clang" ∈ plan.tools)
  obtain ⟨rfl, rfl⟩ : 0o755 = mode ∧ [1] = contents := Node.file.inj (Option.some.inj compiler)
  exact ⟨done, kept.mpr (by decide)⟩

/-- The second tool is called like the default alias of the first one. Its compiler is gone after
the install, and both names run the first one's. -/
theorem compiler_lost :
    plan.Apart ∧ (∀ tool ∈ plan.tools, HasFiles tree bin tool) ∧
      (run plan tree).failure? = none ∧
      compiler? tree bin "clang++" = some (.file 0o755 [2]) ∧
      (run plan tree).tree.resolve (plan.realPath "clang++") = .ok (realAt bin "clang") ∧
      (run plan tree).tree.node? (realAt bin "clang") = some (.file 0o755 [1]) ∧
      ∀ place, (run plan tree).tree.node? place ≠ some (.file 0o755 [2]) := by
  refine ⟨apart, files, by decide +kernel, rfl, by decide +kernel, by decide +kernel, ?_⟩
  intro place found
  have nowhere : ∀ entry ∈ (run plan tree).tree.nodes, entry.2 ≠ .file 0o755 [2] := by
    decide +kernel
  unfold node? at found
  split at found
  · cases found
  · obtain ⟨before, after, entries, -⟩ := List.lookup_eq_some_iff.mp found
    exact nowhere (place, _) (entries ▸ List.mem_append_right before List.mem_cons_self) rfl

end CompilerWrapper.Install
