import GridSecurity.Scope.Task

/-!
# Visits to a task

Whoever owns a task polls it, or drops something that it waits for.  A scope can be dropped
wherever its body is suspended: the body is not polled any more, and the steps behind the
scope go on.
-/

namespace GridSecurity

namespace Task

/-- Drops one of the scopes that a task is suspended in, the outermost of which has the
depth zero, and runs on behind it. -/
def abandon (depth : Nat) (task : Task) (around : Surroundings) : Task × Surroundings :=
  match task with
  | inScope answers own opened body exit rest =>
      match depth with
      | 0 => runSteps (answers ++ [.ended body.answers .cancel]) rest around
      | depth + 1 =>
          let (task, own, after) := withSlot own (abandon depth body) around
          match scopeEnd? opened around.now task exit with
          | some answer => runSteps (answers ++ [answer]) rest after
          | none => (inScope answers own opened task exit rest, after)
  | finished _ | ready _ | yielding .. | inSpawn .. | inJoin .. => (task, around)

/-- A poll or, if a depth is given, the drop of the scope there, at a time. -/
structure Visit where
  dropped : Option Nat := none
  now : Nat := 0

def visit (task : Task) (next : Visit) (around : Surroundings) : Task × Surroundings :=
  match next.dropped with
  | none => task.poll { around with now := next.now }
  | some depth => task.abandon depth { around with now := next.now }

def visitAll : List Visit → Task → Surroundings → Task × Surroundings
  | [], task, around => (task, around)
  | next :: visits, task, around =>
      let (left, after) := task.visit next around
      visitAll visits left after

theorem visitAll_concat (visits : List Visit) (last : Visit) (task : Task)
    (around : Surroundings) :
    task.visitAll (visits ++ [last]) around =
      (task.visitAll visits around).1.visit last (task.visitAll visits around).2 := by
  induction visits generalizing task around with
  | nil => rfl
  | cons next visits induction => exact induction _ _

/-! ## The end of a stay in a scope

A scope is entered by the first poll, by later ones, and by a drop further inside.  Whatever
was done with its body, the slot around it comes back, and the scope is over or goes on. -/

def afterBody (answers : List Answer) (opened : Nat) (exit : Exit) (rest : List Step)
    (around : Surroundings) (inner : Task × Surroundings) : Task × Surroundings :=
  match scopeEnd? opened around.now inner.1 exit with
  | some answer => runSteps (answers ++ [answer]) rest { inner.2 with slot := around.slot }
  | none =>
      (inScope answers inner.2.slot opened inner.1 exit rest,
        { inner.2 with slot := around.slot })

variable (answers : List Answer) (own : Slot) (opened : Nat) (body : Task) (exit : Exit)
  (rest : List Step) (around : Surroundings)

theorem runSteps_scope (steps : List Step) :
    runSteps answers (.scope steps exit :: rest) around =
      afterBody answers around.now exit rest around
        (runSteps [] steps { around with slot := Slot.fresh }) := by
  rw [runSteps]
  rfl

theorem poll_inScope :
    (inScope answers own opened body exit rest).poll around =
      afterBody answers opened exit rest around (body.poll { around with slot := own }) := by
  rw [poll]
  rfl

theorem abandon_inScope_succ (depth : Nat) :
    (inScope answers own opened body exit rest).abandon (depth + 1) around =
      afterBody answers opened exit rest around
        (body.abandon depth { around with slot := own }) := by
  rw [abandon]
  rfl

/-- A scope is over when its body has ended; else it is dropped or it goes on. -/
theorem scopeEnd?_cases (now : Nat) :
    (∃ inner, body.answers? = some inner ∧ exit.ends = true ∧
      scopeEnd? opened now body exit = some (.ended inner exit)) ∨
    (∀ inner, body.answers? = some inner → exit.ends = false) ∧
      (scopeEnd? opened now body exit = some (.ended body.answers .cancel) ∨
        scopeEnd? opened now body exit = none) := by
  unfold scopeEnd?
  split
  · next inner ended ends => exact .inl ⟨inner, ended, ends, rfl⟩
  · next other =>
      refine .inr ⟨fun inner ended => eq_false_of_ne_true (other inner ended), ?_⟩
      split
      · exact .inl rfl
      · exact .inr rfl

end Task

namespace Sample

def contextFrom (address : String) : SecurityContext := { remoteAddress := some address }

/-- A request from an address, without certificates. -/
def requestFrom (address : String) : Request :=
  ⟨{}, Validator.absent, 0, 0, ⟨.ok none, some address, none⟩⟩

end Sample

end GridSecurity
