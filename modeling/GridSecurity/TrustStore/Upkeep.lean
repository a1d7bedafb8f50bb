import GridSecurity.TrustStore

/-!
# Upkeep of a trust store

Beside a store there are the files that it is loaded from, which others change,
and refreshes, which load it anew at regular times.  Time stands still but for
explicit advances.
-/

namespace GridSecurity

/-- A refresh that runs since a moment, with its period; both in
milliseconds. -/
structure Refresh where
  started : Nat
  period : Nat
  deriving DecidableEq, Repr

namespace Refresh

/-- The number of loads up to a moment: one at the end of every period. -/
def loadsUntil (refresh : Refresh) (moment : Nat) : Nat :=
  (moment - refresh.started) / refresh.period

/-- A load falls between two moments, or upon the later one. -/
def isDue (refresh : Refresh) (before after : Nat) : Bool :=
  decide (refresh.loadsUntil before < refresh.loadsUntil after)

end Refresh

/-- The files, the store if there is one, the time and the refreshes, the
latest first. -/
structure Upkeep where
  files : FileTree
  store : Option TrustStore
  now : Nat := 0
  refreshes : List Refresh := []

namespace Upkeep

def changeFiles (upkeep : Upkeep) (change : FileTree → FileTree) : Upkeep :=
  { upkeep with files := change upkeep.files }

/-- Loads the store anew; nothing without a store. -/
def reload (upkeep : Upkeep) : Option (Except SecurityError Nat) × Upkeep :=
  match upkeep.store with
  | none => (none, upkeep)
  | some store =>
      let (outcome, reloaded) := store.reload upkeep.files
      (some outcome, { upkeep with store := some reloaded })

/-- Starts a refresh of the store; tells whether there is one. -/
def startRefresh (upkeep : Upkeep) (period : Nat) : Bool × Upkeep :=
  match upkeep.store with
  | none => (false, upkeep)
  | some _ =>
      (true, { upkeep with refreshes := ⟨upkeep.now, period⟩ :: upkeep.refreshes })

def stopRefresh (upkeep : Upkeep) : Upkeep :=
  { upkeep with refreshes := upkeep.refreshes.tail }

/-- Lets time pass.  The files do not change meanwhile, so one load stands for
all that are due. -/
def advance (upkeep : Upkeep) (milliseconds : Nat) : Upkeep :=
  let later := upkeep.now + milliseconds
  let due := upkeep.refreshes.any fun refresh => refresh.isDue upkeep.now later
  let moved := { upkeep with now := later }
  if due then moved.reload.2 else moved

end Upkeep

end GridSecurity
