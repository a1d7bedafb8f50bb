import GridSecurity.Octets

/-!
# Sets of encoded values

A set is written with its elements in ascending order of their encodings, and
no two of them are equal.  Reading accepts every order and keeps the ascending
one.
-/

namespace GridSecurity.Der

/-- Every value precedes all later ones by its encoding. -/
def Ascending {α : Type} (encode : α → Octets) (values : List α) : Prop :=
  values.Pairwise fun left right => Octets.precedes (encode left) (encode right) = true

instance {α : Type} (encode : α → Octets) (values : List α) :
    Decidable (Ascending encode values) :=
  inferInstanceAs (Decidable (List.Pairwise _ _))

/-- Values in ascending order of their encodings. -/
structure SetOf {α : Type} (encode : α → Octets) where
  values : List α
  ascending : Ascending encode values

namespace SetOf

/-- Puts a value before the first one that it precedes. -/
def insert {α : Type} (encode : α → Octets) (value : α) : List α → List α
  | [] => [value]
  | first :: rest =>
      if Octets.precedes (encode value) (encode first) then value :: first :: rest
      else first :: insert encode value rest

/-- Puts values into the order of their encodings. -/
def sort {α : Type} (encode : α → Octets) (values : List α) : List α :=
  values.foldr (insert encode) []

/-- The set of values given in any order, if no two of them are equal. -/
def ofList? {α : Type} (encode : α → Octets) (values : List α) :
    Option (SetOf encode) :=
  if ascending : Ascending encode (sort encode values) then
    some ⟨sort encode values, ascending⟩
  else none

end SetOf

end GridSecurity.Der
