import CompilerWrapper.Proofs.Install.Aside
import CompilerWrapper.Proofs.Path.Components

/-!
# Where the wrapper looks for compilers

An install names the real compiler of a tool before it joins the name to a directory; the wrapper
adds the same suffix to its own path as a whole. For every directory and every name, also for names
that are no names of files, both come to the same bytes (`withRealSuffix_join`).

The wrapper asks its path for more than that, and a path has to be canonical to have all the answers:
a name, a directory that goes with the name, and a real compiler beside it. `realPath_beside` puts
them together.
-/

namespace CompilerWrapper

open Install

/-- The suffix can be added to a path or to the name that ends it. -/
theorem withRealSuffix_join (dir p : Path) :
    withRealSuffix (dir.join p) = dir.join (withRealSuffix p) := by
  have same : Path.isAbsolute (withRealSuffix p) = p.isAbsolute := by
    cases p <;> rfl
  unfold Path.join
  rw [same]
  split
  next => rfl
  next =>
    split
    next => exact List.append_assoc dir p _
    next => exact List.append_assoc dir (Path.slash :: p) _

theorem realPath_eq (plan : Plan) (name : String) :
    plan.realPath name = withRealSuffix (plan.path name) := by
  unfold Plan.realPath Plan.path
  rw [withRealSuffix_join, ofText_append]
  rfl

/-- **The wrapper looks for the real compiler where an install puts it.** If moreover the path of the
wrapper is canonical, it gives the name of a tool and the directory beside whose other files the
wrapper lies; the real compiler is looked for in this directory under the name of the tool with the
suffix, and the prebuilt compiler under the name of the tool in the directory of prebuilt compilers,
however that is spelled. -/
theorem realPath_beside (c : Call) :
    (∀ (plan : Plan) (name : String), c.wrapper = plan.path name →
      c.realPath = plan.realPath name) ∧
    (c.wrapper.IsCanonical → ∃ tool, c.tool = .ok tool ∧ c.dir.join tool = c.wrapper ∧
      c.realPath = c.dir.join (withRealSuffix tool) ∧ c.realPath.parent? = some c.dir ∧
      c.realPath.fileName? = some (withRealSuffix tool) ∧
      ∀ prebuilt : Path, ∃ p dir, c.prebuiltPath prebuilt = .ok p ∧ p.fileName? = some tool ∧
        p.parent? = some dir ∧ dir.components = prebuilt.components) := by
  constructor
  · intro plan name wrapper
    rw [realPath_eq, ← wrapper]
    rfl
  · intro canonical
    obtain ⟨l, tool, names, wrapper⟩ := canonical.exists_names
    have proper := names tool (by simp)
    have named : c.tool = .ok tool := by
      unfold Call.tool
      rw [wrapper, Path.fileName?_absolute names]
    have dir : c.dir = Path.slash :: Path.ofParts l := by
      unfold Call.dir
      rw [wrapper, Path.parent?_absolute names]
      rfl
    have names' : ∀ other ∈ l ++ [withRealSuffix tool], Path.IsProper other := by
      intro other mem
      rcases List.mem_append.mp mem with mem | mem
      · exact names other (List.mem_append_left _ mem)
      · exact List.mem_singleton.mp mem ▸ isProper_withRealSuffix proper
    have real : c.realPath = Path.slash :: Path.ofParts (l ++ [withRealSuffix tool]) := by
      unfold Call.realPath
      rw [wrapper, ← Path.join_absolute names, withRealSuffix_join, Path.join_absolute names']
    refine ⟨tool, named, ?_, ?_, ?_, ?_, fun prebuilt => ?_⟩
    · rw [dir, wrapper, Path.join_absolute names]
    · rw [dir, real, Path.join_absolute names']
    · rw [dir, real, Path.parent?_absolute names']
    · rw [real, Path.fileName?_absolute names']
    · obtain ⟨last, above, parent, components⟩ := Path.parent?_join prebuilt proper
      refine ⟨prebuilt.join tool, above, ?_, last, parent, components⟩
      unfold Call.prebuiltPath
      rw [named]
      rfl

/-- The wrapper under the name of a tool, and prebuilt compilers in a directory whose path ends in a
slash and a dot. -/
theorem realPath_beside_clang :
    let c : Call := ⟨Bytes.ofText "clang", [], Bytes.ofText "/opt/bin/clang"⟩
    let prebuilt := Bytes.ofText "../pre//bin/."
    c.realPath = (⟨Bytes.ofText "/opt/bin", [], ["clang"], []⟩ : Plan).realPath "clang" ∧
      c.wrapper.IsCanonical ∧ c.tool = .ok (Bytes.ofText "clang") ∧
      c.realPath.parent? = some (Bytes.ofText "/opt/bin") ∧
      ∃ p dir, c.prebuiltPath prebuilt = .ok p ∧ p.fileName? = some (Bytes.ofText "clang") ∧
        p.parent? = some dir ∧ dir.components = ["..", "pre", "bin"].map Bytes.ofText := by
  intro c prebuilt
  have canonical : c.wrapper.IsCanonical := by decide
  obtain ⟨installed, beside⟩ := realPath_beside c
  obtain ⟨tool, named, -, -, parent, -, prebuilts⟩ := beside canonical
  obtain ⟨p, dir, path, last, above, components⟩ := prebuilts prebuilt
  obtain rfl : Bytes.ofText "clang" = tool := Except.ok.inj named
  exact ⟨installed _ _ (by decide), canonical, named, parent, p, dir, path, last, above,
    components.trans (by decide)⟩

end CompilerWrapper
