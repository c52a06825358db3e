import CompilerWrapper.Log.Append

/-!
# Writers that share a log

Many wrappers add to one log at a time. A writer opens the log, asks for its lock until it gets it,
writes its block in one or more pieces, and gives the lock back. Each of these can fail, and then
the writer gives up; a lock that it has it gives back all the same. Strangers may take the lock,
too. Who moves next is not decided here, so what can happen is a relation between states
(`Sharing.Step`).

`Sharing.reaches_done` says that a writer whom nobody disturbs adds its whole block.
-/

namespace CompilerWrapper.Log

/-- Who may have the lock on a log. -/
inductive Party where
  | writer (w : Nat)
  | stranger (n : Nat)
deriving DecidableEq, Repr

/-- How far a writer has come. -/
inductive Phase where
  /-- It has not opened the log yet. -/
  | starting
  /-- It has opened the log and asks for the lock. -/
  | waiting
  /-- It has the lock, and a part of its block is left to be written. -/
  | writing (left : Bytes)
  /-- It has the lock and nothing more to write, be it for a failure. -/
  | leaving (result : Except Failure Unit)
  /-- It has given the lock back, if it had it, and is through. -/
  | done (result : Except Failure Unit)

/-- A log and those who use it. -/
structure Sharing where
  /-- What the log holds; `none` as long as there is no log. -/
  contents : Option Bytes
  holder : Option Party
  phase : Nat → Phase
  /-- The writers that got the lock, in the order in which they got it. -/
  served : List Nat

namespace Sharing

/-- The state with a writer in another phase. -/
def enter (s : Sharing) (w : Nat) (p : Phase) : Sharing :=
  { s with phase := fun v => if v = w then p else s.phase v }

@[simp] theorem phase_enter (s : Sharing) (w : Nat) (p : Phase) (v : Nat) :
    (s.enter w p).phase v = if v = w then p else s.phase v := rfl

@[simp] theorem contents_enter (s : Sharing) (w : Nat) (p : Phase) :
    (s.enter w p).contents = s.contents := rfl

@[simp] theorem holder_enter (s : Sharing) (w : Nat) (p : Phase) :
    (s.enter w p).holder = s.holder := rfl

/-- What can happen next to the log under the path `p`, to which the writer `w` adds `entry w`. -/
inductive Step (p : Path) (entry : Nat → Entry) : Sharing → Sharing → Prop where
  /-- A writer opens the log; an empty one is made if there is none. -/
  | opened (s : Sharing) (w : Nat) : s.phase w = .starting →
      Step p entry s ({ s with contents := some (s.contents.getD []) }.enter w .waiting)
  /-- A writer cannot open the log. -/
  | notOpened (s : Sharing) (w : Nat) (fault : Fault) : s.phase w = .starting →
      Step p entry s (s.enter w (.done (.error (.refused (.openingLog p) fault))))
  /-- A writer gets the lock, which nobody has. -/
  | locked (s : Sharing) (w : Nat) : s.phase w = .waiting → s.holder = none →
      Step p entry s ({ s with holder := some (.writer w), served := s.served ++ [w] }.enter w
        (.writing (entry w).render))
  /-- A writer is told that somebody else has the lock, and will ask again. -/
  | waited (s : Sharing) (w : Nat) (fault : Fault) : s.phase w = .waiting →
      fault.isContention = true → Step p entry s s
  /-- A writer cannot lock the log. -/
  | notLocked (s : Sharing) (w : Nat) (fault : Fault) : s.phase w = .waiting →
      fault.isContention = false →
      Step p entry s (s.enter w (.done (.error (.refused (.lockingLog p) fault))))
  /-- A writer writes a piece of its block. -/
  | wrote (s : Sharing) (w : Nat) (piece left : Bytes) : s.phase w = .writing (piece ++ left) →
      piece ≠ [] →
      Step p entry s ({ s with contents := s.contents.map (· ++ piece) }.enter w (.writing left))
  /-- A writer cannot write on. -/
  | notWrote (s : Sharing) (w : Nat) (left : Bytes) (fault : Fault) : s.phase w = .writing left →
      left ≠ [] →
      Step p entry s (s.enter w (.leaving (.error (.refused (.writingLog p) fault))))
  /-- A writer has written its block. -/
  | finished (s : Sharing) (w : Nat) : s.phase w = .writing [] →
      Step p entry s (s.enter w (.leaving (.ok ())))
  /-- A writer gives the lock back. -/
  | unlocked (s : Sharing) (w : Nat) (result : Except Failure Unit) :
      s.phase w = .leaving result →
      Step p entry s ({ s with holder := none }.enter w (.done result))
  /-- A stranger takes the lock, which nobody has. -/
  | taken (s : Sharing) (n : Nat) : s.holder = none →
      Step p entry s { s with holder := some (.stranger n) }
  /-- A stranger gives the lock back. -/
  | given (s : Sharing) (n : Nat) : s.holder = some (.stranger n) →
      Step p entry s { s with holder := none }

/-- What can come of a state after any number of steps. -/
inductive Reaches (p : Path) (entry : Nat → Entry) : Sharing → Sharing → Prop where
  | refl (s : Sharing) : Reaches p entry s s
  | tail {s t u : Sharing} : Reaches p entry s t → Step p entry t u → Reaches p entry s u

/-- A writer whom nobody disturbs gets through and has added its whole block. -/
theorem reaches_done (p : Path) (entry : Nat → Entry) {s : Sharing} {w : Nat}
    (starting : s.phase w = .starting) (free : s.holder = none) :
    ∃ t, Reaches p entry s t ∧ t.phase w = .done (.ok ()) ∧ t.holder = none ∧
      t.contents = some (s.contents.getD [] ++ (entry w).render) := by
  have opened : Reaches p entry s _ := .tail (.refl s) (.opened s w starting)
  have locked := opened.tail (.locked _ w (by simp) (by simpa using free))
  have wrote := locked.tail (.wrote _ w (entry w).render [] (by simp) (entry w).render_ne_nil)
  have finished := wrote.tail (.finished _ w (by simp))
  have unlocked := finished.tail (.unlocked _ w (.ok ()) (by simp))
  exact ⟨_, unlocked, by simp, by simp, by simp⟩

end Sharing

end CompilerWrapper.Log
