import CompilerWrapper.Log.Sharing
import CompilerWrapper.Proofs.Log.Append
import Mathlib.Data.List.Nodup
import Mathlib.Data.List.Basic
import Mathlib.Logic.Function.Basic

/-!
# Blocks stay whole in a shared log

Whatever the writers and strangers of a log do, and in whichever order, what was added to the log is
one part for each writer that got the lock, in the order in which they got it. `Phase.Added` says
which part a writer has added when it is in a phase: all of its block if it got through, the
beginning of the block while it writes or if it could not write on, and nothing otherwise.

The invariant `Sharing.Orderly` ties the holder of the lock to the phases and the contents to the
parts; `Orderly.step` preserves it. It needs that the holder is the writer served last, since only
then the end of the log is the end of that writer's part.

`reaches_append` leads back to the file tree, where an entry is added in one go.
-/

namespace CompilerWrapper.Log

/-! ### What a phase tells -/

/-- The writer has the lock. -/
def Phase.HasLock : Phase → Prop
  | .writing _ | .leaving _ => True
  | _ => False

/-- The writer has the lock or had it. -/
def Phase.HadLock : Phase → Prop
  | .writing _ | .leaving _ => True
  | .done (.ok ()) | .done (.error (.refused (.writingLog _) _)) => True
  | _ => False

/-- What a writer in some phase has added of its block to the log under `p`. -/
inductive Phase.Added (p : Path) (block : Bytes) : Phase → Bytes → Prop where
  | starting : Added p block .starting []
  | waiting : Added p block .waiting []
  | writing (part left : Bytes) : part ++ left = block → Added p block (.writing left) part
  | leaving : Added p block (.leaving (.ok ())) block
  | leavingTorn (part left : Bytes) (fault : Fault) : part ++ left = block → left ≠ [] →
      Added p block (.leaving (.error (.refused (.writingLog p) fault))) part
  | done : Added p block (.done (.ok ())) block
  | doneTorn (part left : Bytes) (fault : Fault) : part ++ left = block → left ≠ [] →
      Added p block (.done (.error (.refused (.writingLog p) fault))) part
  | notOpened (fault : Fault) :
      Added p block (.done (.error (.refused (.openingLog p) fault))) []
  | notLocked (fault : Fault) : fault.isContention = false →
      Added p block (.done (.error (.refused (.lockingLog p) fault))) []

namespace Phase.Added

variable {p : Path} {block part left : Bytes} {q : Phase} {result : Except Failure Unit}

theorem isPrefix (added : q.Added p block part) : part <+: block := by
  cases added with
  | starting | waiting | notOpened | notLocked => exact List.nil_prefix
  | leaving | done => exact List.prefix_rfl
  | writing _ left whole => exact ⟨left, whole⟩
  | leavingTorn _ left _ whole | doneTorn _ left _ whole => exact ⟨left, whole⟩

theorem eq_nil (added : q.Added p block part) (idle : q = .starting ∨ q = .waiting) :
    part = [] := by
  rcases idle with rfl | rfl
  · cases added
    rfl
  · cases added
    rfl

theorem append_eq (added : (Phase.writing left).Added p block part) : part ++ left = block := by
  cases added
  assumption

theorem unlock (added : (Phase.leaving result).Added p block part) :
    (Phase.done result).Added p block part ∧ (Phase.done result).HadLock := by
  cases added with
  | leaving => exact ⟨.done, trivial⟩
  | leavingTorn _ left fault whole rest => exact ⟨.doneTorn part left fault whole rest, trivial⟩

end Phase.Added

namespace Sharing

/-- A party has the lock: a writer by the phase that it is in, a stranger by the state. -/
def Holds (s : Sharing) : Party → Prop
  | .writer w => (s.phase w).HasLock
  | .stranger n => s.holder = some (.stranger n)

/-- No writer has begun. A stranger may have the lock. -/
structure Fresh (s : Sharing) : Prop where
  starting : ∀ w, s.phase w = .starting
  holder : ∀ w, s.holder ≠ some (.writer w)
  served : s.served = []

/-- The invariant of a shared log that held `first` in the beginning and to which the writers have
added their parts. -/
structure Orderly (p : Path) (entry : Nat → Entry) (first : Bytes) (part : Nat → Bytes)
    (s : Sharing) : Prop where
  holder : ∀ w, (s.phase w).HasLock ↔ s.holder = some (.writer w)
  opened : ∀ w, s.phase w = .waiting ∨ (s.phase w).HasLock → s.contents.isSome
  served : ∀ w, w ∈ s.served ↔ (s.phase w).HadLock
  nodup : s.served.Nodup
  last : ∀ w, s.holder = some (.writer w) → s.served.getLast? = some w
  contents : s.contents.getD [] = first ++ s.served.flatMap part
  added : ∀ w, (s.phase w).Added p (entry w).render (part w)

variable {p : Path} {entry : Nat → Entry} {first : Bytes} {part : Nat → Bytes} {s t : Sharing}

theorem Fresh.orderly (fresh : s.Fresh) :
    Orderly p entry (s.contents.getD []) (fun _ => []) s where
  holder := by
    intro w
    rw [fresh.starting]
    exact iff_of_false id (fresh.holder w)
  opened := by
    intro w h
    rw [fresh.starting] at h
    rcases h with h | h
    · cases h
    · exact h.elim
  served := by
    intro w
    rw [fresh.starting, fresh.served]
    exact iff_of_false List.not_mem_nil id
  nodup := by
    rw [fresh.served]
    exact List.nodup_nil
  last := fun w h => absurd h (fresh.holder w)
  contents := by rw [fresh.served, List.flatMap_nil, List.append_nil]
  added := by
    intro w
    rw [fresh.starting]
    exact .starting

namespace Orderly

theorem holds_iff (o : Orderly p entry first part s) (a : Party) :
    s.Holds a ↔ s.holder = some a := by
  cases a with
  | writer w => exact o.holder w
  | stranger n => exact Iff.rfl

/-! ### What one step preserves -/

/-- A writer may go on to another phase as long as neither the lock nor its part changes. -/
theorem enter (o : Orderly p entry first part s) {w : Nat} {q : Phase}
    (has : q.HasLock ↔ (s.phase w).HasLock) (had : q.HadLock ↔ (s.phase w).HadLock)
    (opened : q = .waiting → s.contents.isSome)
    (added : q.Added p (entry w).render (part w)) :
    Orderly p entry first part (s.enter w q) where
  holder := by
    intro v
    rw [phase_enter]
    split
    next h => rw [h]; exact has.trans (o.holder w)
    next h => exact o.holder v
  opened := by
    intro v
    rw [phase_enter]
    split
    next h =>
      rintro (h | h)
      · exact opened h
      · exact o.opened w (Or.inr (has.mp h))
    next h => exact o.opened v
  served := by
    intro v
    rw [phase_enter]
    split
    next h => rw [h]; exact (o.served w).trans had.symm
    next h => exact o.served v
  nodup := o.nodup
  last := o.last
  contents := o.contents
  added := by
    intro v
    rw [phase_enter]
    split
    next h => rw [h]; exact added
    next h => exact o.added v

theorem opened_log (o : Orderly p entry first part s) :
    Orderly p entry first part { s with contents := some (s.contents.getD []) } where
  holder := o.holder
  opened := fun _ _ => rfl
  served := o.served
  nodup := o.nodup
  last := o.last
  contents := o.contents
  added := o.added

theorem taken (o : Orderly p entry first part s) {n : Nat} (free : s.holder = none) :
    Orderly p entry first part { s with holder := some (.stranger n) } where
  holder := by
    intro w
    rw [o.holder w, free]
    exact iff_of_false (by simp) (by simp)
  opened := o.opened
  served := o.served
  nodup := o.nodup
  last := by simp
  contents := o.contents
  added := o.added

theorem given (o : Orderly p entry first part s) {n : Nat}
    (held : s.holder = some (.stranger n)) :
    Orderly p entry first part { s with holder := none } where
  holder := by
    intro w
    rw [o.holder w, held]
    exact iff_of_false (by simp) (by simp)
  opened := o.opened
  served := o.served
  nodup := o.nodup
  last := by simp
  contents := o.contents
  added := o.added

/-- A writer that gets the lock is served last, and has added nothing yet. -/
theorem locked (o : Orderly p entry first part s) {w : Nat} (waiting : s.phase w = .waiting)
    (free : s.holder = none) :
    Orderly p entry first part
      ({ s with holder := some (.writer w), served := s.served ++ [w] }.enter w
        (.writing (entry w).render)) := by
  have unserved : w ∉ s.served := by
    rw [o.served, waiting]
    exact id
  have nothing : part w = [] := (o.added w).eq_nil (Or.inr waiting)
  have idle : ∀ v, ¬ (s.phase v).HasLock := by
    intro v
    rw [o.holder v, free]
    simp
  constructor
  case holder =>
    intro v
    simp only [phase_enter, holder_enter, Option.some.injEq, Party.writer.injEq]
    split
    next h => simp [h, Phase.HasLock]
    next h => exact iff_of_false (idle v) (Ne.symm h)
  case opened =>
    intro v
    simp only [phase_enter, contents_enter]
    split
    next h => exact fun _ => o.opened w (Or.inl waiting)
    next h => exact o.opened v
  case served =>
    intro v
    show v ∈ s.served ++ [w] ↔ _
    rw [phase_enter, List.mem_append, List.mem_singleton]
    split
    next h => exact iff_of_true (Or.inr h) trivial
    next h => exact (or_iff_left h).trans (o.served v)
  case nodup =>
    exact List.Nodup.append o.nodup (List.nodup_singleton w) (by simpa using unserved)
  case last =>
    intro v h
    obtain rfl : w = v := by simpa using h
    exact List.getLast?_concat
  case contents =>
    show s.contents.getD [] = first ++ (s.served ++ [w]).flatMap part
    rw [List.flatMap_append, List.flatMap_singleton, nothing, List.append_nil]
    exact o.contents
  case added =>
    intro v
    rw [phase_enter]
    split
    next h => rw [h, nothing]; exact .writing [] _ rfl
    next h => exact o.added v

/-- A piece that the writer with the lock writes becomes the end of its part. -/
theorem wrote (o : Orderly p entry first part s) {w : Nat} {piece left : Bytes}
    (writing : s.phase w = .writing (piece ++ left)) :
    Orderly p entry first (Function.update part w (part w ++ piece))
      ({ s with contents := s.contents.map (· ++ piece) }.enter w (.writing left)) := by
  have held : s.holder = some (.writer w) := by
    rw [← o.holder, writing]
    trivial
  have exists_log : s.contents.isSome := by
    apply o.opened w
    rw [writing]
    exact Or.inr trivial
  constructor
  case holder =>
    intro v
    rw [phase_enter]
    split
    next h => rw [h]; exact iff_of_true trivial held
    next h => exact o.holder v
  case opened =>
    intro v _
    simpa using exists_log
  case served =>
    intro v
    rw [phase_enter]
    split
    next h =>
      rw [h]
      exact (o.served w).trans (by rw [writing]; rfl)
    next h => exact o.served v
  case nodup => exact o.nodup
  case last => exact o.last
  case contents =>
    -- The parts of the writers served before stay, since `w` was served only once.
    obtain ⟨before, hserved⟩ := List.getLast?_eq_some_iff.mp (o.last w held)
    have unserved : w ∉ before := by
      have nodup := o.nodup
      rw [hserved] at nodup
      exact fun h => (List.disjoint_of_nodup_append nodup) h (List.mem_singleton_self w)
    have others : before.flatMap (Function.update part w (part w ++ piece)) =
        before.flatMap part := by
      apply List.flatMap_congr
      intro v hv
      exact Function.update_of_ne (ne_of_mem_of_not_mem hv unserved) _ _
    have contents := o.contents
    obtain ⟨log, hlog⟩ := Option.isSome_iff_exists.mp exists_log
    rw [hserved, hlog, Option.getD_some, List.flatMap_append, List.flatMap_singleton] at contents
    show (s.contents.map (· ++ piece)).getD [] = first ++ s.served.flatMap _
    rw [hserved, hlog, Option.map_some, Option.getD_some, List.flatMap_append,
      List.flatMap_singleton, others, Function.update_self, contents]
    simp only [List.append_assoc]
  case added =>
    intro v
    rw [phase_enter]
    split
    next h =>
      have added := o.added w
      rw [writing] at added
      rw [h, Function.update_self]
      exact .writing _ left (by rw [List.append_assoc, added.append_eq])
    next h =>
      rw [Function.update_of_ne h]
      exact o.added v

/-- A writer that gives the lock back is through, and its part stays as it is. -/
theorem unlocked (o : Orderly p entry first part s) {w : Nat} {result : Except Failure Unit}
    (leaving : s.phase w = .leaving result) :
    Orderly p entry first part ({ s with holder := none }.enter w (.done result)) := by
  have held : s.holder = some (.writer w) := by
    rw [← o.holder, leaving]
    trivial
  have added := o.added w
  rw [leaving] at added
  constructor
  case holder =>
    intro v
    rw [phase_enter]
    split
    next h => exact iff_of_false id (by simp)
    next h =>
      refine iff_of_false ?_ (by simp)
      rw [o.holder v, held]
      simpa using Ne.symm h
  case opened =>
    intro v
    rw [phase_enter]
    split
    next h =>
      rintro (h | h)
      · cases h
      · exact h.elim
    next h => exact o.opened v
  case served =>
    intro v
    rw [phase_enter]
    split
    next h =>
      rw [h]
      have had : w ∈ s.served := by
        rw [o.served, leaving]
        trivial
      exact iff_of_true had added.unlock.2
    next h => exact o.served v
  case nodup => exact o.nodup
  case last => simp
  case contents => exact o.contents
  case added =>
    intro v
    rw [phase_enter]
    split
    next h =>
      rw [h]
      exact added.unlock.1
    next h => exact o.added v

/-- **Every step keeps the log orderly.** -/
theorem step (o : Orderly p entry first part s) (next : Step p entry s t) :
    ∃ part', Orderly p entry first part' t := by
  cases next with
  | opened w starting =>
    have nothing := (o.added w).eq_nil (Or.inl starting)
    exact ⟨part, o.opened_log.enter (by simp [starting, Phase.HasLock])
      (by simp [starting, Phase.HadLock]) (fun _ => rfl) (nothing ▸ .waiting)⟩
  | notOpened w fault starting =>
    have nothing := (o.added w).eq_nil (Or.inl starting)
    exact ⟨part, o.enter (by simp [starting, Phase.HasLock])
      (by simp [starting, Phase.HadLock]) (by simp) (nothing ▸ .notOpened fault)⟩
  | locked w waiting free => exact ⟨part, o.locked waiting free⟩
  | waited => exact ⟨part, o⟩
  | notLocked w fault waiting fatal =>
    have nothing := (o.added w).eq_nil (Or.inr waiting)
    exact ⟨part, o.enter (by simp [waiting, Phase.HasLock])
      (by simp [waiting, Phase.HadLock]) (by simp) (nothing ▸ .notLocked fault fatal)⟩
  | wrote w piece left writing _ => exact ⟨_, o.wrote writing⟩
  | notWrote w left fault writing rest =>
    have whole := (writing ▸ o.added w).append_eq
    exact ⟨part, o.enter (by simp [writing, Phase.HasLock])
      (by simp [writing, Phase.HadLock]) (by simp) (.leavingTorn _ left fault whole rest)⟩
  | finished w writing =>
    have whole := (writing ▸ o.added w).append_eq
    rw [List.append_nil] at whole
    exact ⟨part, o.enter (by simp [writing, Phase.HasLock])
      (by simp [writing, Phase.HadLock]) (by simp) (whole ▸ .leaving)⟩
  | unlocked w result leaving => exact ⟨part, o.unlocked leaving⟩
  | taken n free => exact ⟨part, o.taken free⟩
  | given n held => exact ⟨part, o.given held⟩

/-- Nobody writes while a stranger has the lock. -/
theorem contents_of_stranger (o : Orderly p entry first part s) {n : Nat}
    (held : s.holder = some (.stranger n)) (next : Step p entry s t) :
    t.contents.getD [] = s.contents.getD [] := by
  cases next with
  | wrote w piece left writing _ =>
    have holder := o.holder w
    rw [writing, held] at holder
    exact absurd (holder.mp trivial) (by simp)
  | _ => rfl

end Orderly

/-! ### What a run preserves -/

theorem Fresh.reaches_orderly (fresh : s.Fresh) (reaches : Reaches p entry s t) :
    ∃ part, Orderly p entry (s.contents.getD []) part t := by
  induction reaches with
  | refl => exact ⟨_, fresh.orderly⟩
  | tail _ next ih =>
    obtain ⟨part, o⟩ := ih
    exact o.step next

/-- **In every state that writers and strangers can come to, the lock has one holder and the log is
what it was, with one part of a block for each writer that got the lock, in that order.** The part
is the whole block if the writer got through, and a beginning of it if the writer is at it or could
not write on. Nothing is added while a stranger has the lock. -/
theorem reaches_whole_blocks (fresh : s.Fresh) (reaches : Reaches p entry s t) :
    (∀ a b, t.Holds a → t.Holds b → a = b) ∧
      (∀ w result, t.phase w = .done result → t.holder ≠ some (.writer w)) ∧
      (∀ n u, t.holder = some (.stranger n) → Step p entry t u →
        u.contents.getD [] = t.contents.getD []) ∧
      t.served.Nodup ∧
      ∃ part : Nat → Bytes, t.contents.getD [] = s.contents.getD [] ++ t.served.flatMap part ∧
        ∀ w, (t.phase w).Added p (entry w).render (part w) ∧
          (w ∈ t.served ↔ (t.phase w).HadLock) := by
  obtain ⟨part, o⟩ := fresh.reaches_orderly reaches
  refine ⟨?_, ?_, fun n u held => o.contents_of_stranger held, o.nodup, part, o.contents,
    fun w => ⟨o.added w, o.served w⟩⟩
  · intro a b ha hb
    have held := (o.holds_iff a).mp ha
    rw [(o.holds_iff b).mp hb] at held
    exact (Option.some.inj held).symm
  · intro w result done held
    have lock := (o.holder w).mpr held
    rw [done] at lock
    exact lock

/-- A writer waits for a stranger, gets the lock, and cannot write on after the first byte. -/
theorem reaches_torn :
    let s : Sharing := ⟨none, some (.stranger 0), fun _ => .starting, []⟩
    let entry : Nat → Entry := fun _ => ⟨"cc a.c", []⟩
    s.Fresh ∧ ∃ t, Reaches [] entry s t ∧
      t.phase 0 = .done (.error (.refused (.writingLog []) .noSpace)) ∧ t.served = [0] ∧
      ∃ part : Nat → Bytes, t.contents.getD [] = [] ++ t.served.flatMap part ∧
        part 0 <+: (entry 0).render := by
  intro s entry
  have fresh : s.Fresh := ⟨fun _ => rfl, by simp [s], rfl⟩
  have block : (entry 0).render = [0x3D] ++ (entry 0).render.tail := by decide +kernel
  have opened : Reaches [] entry s _ := .tail (.refl s) (.opened s 0 rfl)
  have waited := opened.tail (.waited _ 0 .unavailable (by simp) rfl)
  have given := waited.tail (.given _ 0 rfl)
  have locked := given.tail (.locked _ 0 (by simp) rfl)
  have wrote := locked.tail (.wrote _ 0 [0x3D] (entry 0).render.tail
    (congrArg Phase.writing block) (by simp))
  have torn := wrote.tail (.notWrote _ 0 (entry 0).render.tail .noSpace (by simp)
    (by decide +kernel))
  have unlocked := torn.tail (.unlocked _ 0
    (.error (.refused (.writingLog []) .noSpace)) (by simp))
  obtain ⟨-, -, -, -, part, contents, parts⟩ := reaches_whole_blocks fresh unlocked
  exact ⟨fresh, _, unlocked, by simp, rfl, part, contents, (parts 0).1.isPrefix⟩

/-! ### A writer that is alone -/

/-- What the file at a place holds. -/
def fileAt? (t : FileTree) (l : Location) : Option Bytes :=
  match t.node? l with
  | some (.file _ contents) => some contents
  | _ => none

section Append

variable {t u : FileTree} {p : Path} {l : Location}

theorem append_of_openAt (opened : openAt t p = .ok (l, u)) (lockable : u.lock l = .ok ())
    (ne : l ≠ []) {mode : Nat} {contents : Bytes} (node : u.node? l = some (.file mode contents))
    (e : Entry) :
    ∃ v, append t p e = (.ok (), v) ∧ fileAt? v l = some (contents ++ e.render) := by
  have wrote : u.append l e.render =
      .ok (u.put l (.file (FileTree.modeAfterAdding mode e.render) (contents ++ e.render))) := by
    unfold FileTree.append
    rw [node]
  refine ⟨_, (append_eq_ok_of_openAt opened).mpr ⟨lockable, wrote⟩, ?_⟩
  unfold fileAt?
  rw [FileTree.node?_put u ne, if_pos rfl]

theorem append_of_not_lockable (opened : openAt t p = .ok (l, u)) {fault : Fault}
    (refused : u.lock l = .error fault) (e : Entry) :
    append t p e = (.error (.refused (.lockingLog p) fault), u) := by
  have notLocked : lock u p l = .error (.refused (.lockingLog p) fault) := by
    unfold lock
    rw [refused]
    rfl
  unfold append
  rw [opened]
  dsimp only
  rw [notLocked]
  rfl

/-- Opening a log that is a file, or nothing yet, leaves a file with the same contents. -/
theorem openAt_alone (opens : t.openPlace p = .ok l)
    (regular : ∀ n, t.node? l = some n → ∃ mode contents, n = .file mode contents) :
    l ≠ [] ∧ ∃ u mode, openAt t p = .ok (l, u) ∧ u.lock l = t.lock l ∧
      u.node? l = some (.file mode ((fileAt? t l).getD [])) := by
  have ne : l ≠ [] := by
    rintro rfl
    obtain ⟨_, _, same⟩ := regular .directory rfl
    cases same
  refine ⟨ne, ?_⟩
  unfold fileAt?
  cases node : t.node? l with
  | none =>
    refine ⟨_, FileTree.newFileMode, openAt_of_missing opens node, rfl, ?_⟩
    rw [FileTree.node?_put t ne, if_pos rfl]
    rfl
  | some n =>
    obtain ⟨mode, contents, rfl⟩ := regular n node
    exact ⟨t, mode, openAt_of_node opens node, rfl, node⟩

/-- A file that cannot be locked is not one that somebody else has locked. -/
theorem not_isContention_of_lock {fault : Fault} (refused : t.lock l = .error fault) :
    fault.isContention = false := by
  unfold FileTree.lock at refused
  split at refused
  · cases refused
  next lasting _ =>
    obtain rfl := Except.error.inj refused
    exact lasting.property

/-- Adding an entry to a file comes to what a writer comes to that nobody disturbs, or to what one
comes to that cannot lock the log. -/
theorem reaches_append (e : Entry) (opens : t.openPlace p = .ok l)
    (regular : ∀ n, t.node? l = some n → ∃ mode contents, n = .file mode contents) :
    ∃ s, Reaches p (fun _ => e) ⟨fileAt? t l, none, fun _ => .starting, []⟩ s ∧
      s.phase 0 = .done (append t p e).1 ∧ s.contents = fileAt? (append t p e).2 l := by
  obtain ⟨ne, u, mode, opened, locks, node⟩ := openAt_alone opens regular
  cases lockable : t.lock l with
  | ok =>
    obtain ⟨s, reaches, done, -, contents⟩ := reaches_done p (fun _ => e)
      (s := ⟨fileAt? t l, none, fun _ => .starting, []⟩) (w := 0) rfl rfl
    obtain ⟨v, appended, holds⟩ := append_of_openAt opened (locks.trans lockable) ne node e
    refine ⟨s, reaches, ?_, ?_⟩
    · rw [done, appended]
    · rw [contents, appended, holds]
  | error fault =>
    have opens : Reaches p (fun _ => e) ⟨fileAt? t l, none, fun _ => .starting, []⟩ _ :=
      .tail (.refl _) (.opened _ 0 rfl)
    have lasting := not_isContention_of_lock lockable
    have notLocked := opens.tail (.notLocked _ 0 fault (by simp) lasting)
    have held : fileAt? u l = some ((fileAt? t l).getD []) := by
      rw [fileAt?, node]
    refine ⟨_, notLocked, ?_, ?_⟩
    · rw [append_of_not_lockable opened (locks.trans lockable)]
      simp
    · rw [append_of_not_lockable opened (locks.trans lockable), held]
      rfl

end Append

end Sharing

end CompilerWrapper.Log
