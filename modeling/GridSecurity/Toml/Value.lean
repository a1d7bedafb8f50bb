/-!
# Values of configuration text

A value is a scalar, an array or a table.  Every table remembers how it came
into being, because that decides whether later text may add to it.
-/

namespace GridSecurity.Toml

/-- How a table came into being. -/
inductive TableOrigin
  /-- By a header of its own. -/
  | header
  /-- By the header of a table inside it. -/
  | implied
  /-- By a key with several parts. -/
  | dotted
  /-- In braces. -/
  | braces
  deriving DecidableEq, Repr

/-- A value.  Floats and moments are kept as they were written. -/
inductive Value
  | string (text : String)
  | integer (value : Int)
  | float (literal : String)
  | boolean (value : Bool)
  | moment (literal : String)
  | array (items : List Value)
  | table (origin : TableOrigin) (entries : List (String × Value))
  /-- The tables under headers in double brackets; the last is open. -/
  | tables (closed : List Value) (last : Value)

namespace Value

/-- The values of a table by name. -/
def entries? : Value → Option (List (String × Value))
  | table _ entries => some entries
  | _ => none

/-- The items of an array, written in brackets or by headers. -/
def items? : Value → Option (List Value)
  | array items => some items
  | tables closed last => some (closed ++ [last])
  | _ => none

def lookup (name : String) (entries : List (String × Value)) : Option Value :=
  entries.lookup name

/-- Puts another value under a name that has one. -/
def replace (name : String) (value : Value) (entries : List (String × Value)) :
    List (String × Value) :=
  entries.map fun entry => if entry.1 == name then (name, value) else entry

def addNew (name : String) (value : Value) (entries : List (String × Value)) :
    Option (List (String × Value)) :=
  if (lookup name entries).isSome then none else some (entries ++ [(name, value)])

/-- Changes the table at the end of a path.  Tables on the path that are not
there come into being with the given origin.  A key with several parts cannot
reach into a table with a header of its own; nothing reaches into a table in
braces; behind double brackets the last table is meant. -/
def changeAt (missing : TableOrigin)
    (change : TableOrigin → List (String × Value) → Option Value) :
    List String → Value → Option Value
  | [], table origin entries => change origin entries
  | key :: path, table origin entries =>
      match lookup key entries with
      | none => do
          let inner ← changeAt missing change path (table missing [])
          return table origin (entries ++ [(key, inner)])
      | some (tables closed last) => do
          let last ← changeAt missing change path last
          return table origin (replace key (tables closed last) entries)
      | some (table reached inner) =>
          if reached = .braces ∨ (missing = .dotted ∧ reached = .header) then none
          else do
            let inner ← changeAt missing change path (table reached inner)
            return table origin (replace key inner entries)
      | some _ => none
  | _, _ => none

/-- Adds the value of a key, which may have several parts.  The table that the
last part belongs to is the one at hand or one made by such keys. -/
def define (path : List String) (key : String) (value : Value) (whole : Value) :
    Option Value :=
  changeAt .dotted (fun origin entries =>
    if origin = .dotted ∨ path = [] then
      (addNew key value entries).map (table origin)
    else none) path whole

/-- Adds the values of keys one after the other. -/
def defineAll (whole : Value) (pairs : List (List String × String × Value)) :
    Option Value :=
  pairs.foldlM (fun whole pair => define pair.1 pair.2.1 pair.2.2 whole) whole

/-- Adds the table of a header with what stands under it. -/
def addTable (path : List String) (key : String)
    (pairs : List (List String × String × Value)) (whole : Value) : Option Value :=
  changeAt .implied (fun origin entries =>
    match lookup key entries with
    | none => do
        let added ← defineAll (table .header []) pairs
        return table origin (entries ++ [(key, added)])
    | some (table .implied inner) => do
        let added ← defineAll (table .header inner) pairs
        return table origin (replace key added entries)
    | some _ => none) path whole

/-- Adds the table of a header in double brackets with what stands under it. -/
def addElement (path : List String) (key : String)
    (pairs : List (List String × String × Value)) (whole : Value) : Option Value :=
  changeAt .implied (fun origin entries => do
    let added ← defineAll (table .header []) pairs
    match lookup key entries with
    | none => return table origin (entries ++ [(key, tables [] added)])
    | some (tables closed last) =>
        return table origin (replace key (tables (closed ++ [last]) added) entries)
    | some _ => none) path whole

end Value

end GridSecurity.Toml
