/-!
# Parts between separators

A list is cut at each of its separators, which belong to no part; there is one
part more than there are separators.
-/

namespace GridSecurity.Text

/-- The parts of a list between its separators. -/
def splitAtEach {α : Type} (isSeparator : α → Bool) : List α → List (List α)
  | [] => [[]]
  | item :: rest =>
      if isSeparator item then [] :: splitAtEach isSeparator rest
      else
        match splitAtEach isSeparator rest with
        | [] => [[item]]
        | part :: parts => (item :: part) :: parts

end GridSecurity.Text
