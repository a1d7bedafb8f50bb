import GridSecurity.Context

/-!
# The slot of the current context

Inside a scope there is a slot that holds the context of the request, once one
has been published.  Outside every scope there is no slot, and nothing can be
published.
-/

namespace GridSecurity

/-- The innermost slot, if a scope is open, and the context in it. -/
abbrev Slot := Option (Option SecurityContext)

namespace Slot

/-- No scope is open. -/
def outside : Slot := none

/-- A scope has just been opened. -/
def fresh : Slot := some none

def inScope (slot : Slot) : Bool := slot.isSome

/-- The published context. -/
def current? (slot : Slot) : Option SecurityContext := slot.join

def publish (slot : Slot) (context : SecurityContext) : Except SecurityError Slot :=
  match slot with
  | none => .error .noActiveScope
  | some _ => .ok (some (some context))

def clear (slot : Slot) : Slot := slot.map fun _ => none

end Slot

end GridSecurity
