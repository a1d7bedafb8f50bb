import GridSecurity.Fault
import GridSecurity.Text.Split
import GridSecurity.Text.Utf8

/-!
# Trees of files

A tree is a file, a symbolic link or a directory with named entries; there are also
files and directories that cannot be opened.  A path is followed from a place in the
tree, component by component; a link on the way is replaced by the path that it holds.
-/

namespace GridSecurity

inductive FileTree
  | file (content : Octets)
  | link (target : String)
  | directory (entries : List (String × FileTree))
  /-- A file or a directory that the system refuses to open, and why. -/
  | barred (isDirectory : Bool) (fault : IoFault)

namespace FileTree

/-- A tree inside another, with the directories above it, the nearest first. -/
structure Place where
  here : FileTree
  above : List FileTree

namespace Place

/-- The place above; the outermost directory is above itself. -/
def parent (place : Place) : Place :=
  match place.above with
  | [] => place
  | nearest :: further => ⟨nearest, further⟩

def root (place : Place) : Place :=
  ⟨(place.above.getLast?).getD place.here, []⟩

end Place

def components (path : String) : List String :=
  (Text.splitAtEach (· == '/') path.toList).map String.ofList

def isAbsolute (path : String) : Bool := path.toList.head? == some '/'

/-- The greatest number of octets in the name of an entry. -/
def longestName : Nat := 255

/-- The greatest number of octets in a path. -/
def longestPath : Nat := 4095

/-- The greatest number of links followed on one path. -/
def mostLinks : Nat := 40

def size (text : String) : Nat := (Utf8.ofText text).length

/-- Why the system does not even look for what is at a path. -/
def pathFault? (path : String) : Option IoFault :=
  if '\x00' ∈ path.toList then some .nulInPath
  else if longestPath < size path then some .nameTooLong
  else none

/-- The outcome of opening what is at a path, unless the system does not look for it. -/
def openAt {α : Type} (path : String) (outcome : Except IoFault α) : Except IoFault α :=
  match pathFault? path with
  | some fault => .error fault
  | none => outcome

/-- The path of an entry of the directory at a path. -/
def join (path name : String) : String :=
  match path.toList.getLast? with
  | none | some '/' => path ++ name
  | some _ => path ++ "/" ++ name

/-- Follows components from a place, up to a link; how to go on from there is
told by the path that the link holds and the components behind it.  Every
component needs a directory to start from, also an empty one at the end. -/
def walkWith (follow : String → List String → Place → Except IoFault Place) :
    List String → Place → Except IoFault Place
  | [], place => .ok place
  | name :: rest, place =>
      match place.here with
      | directory entries =>
          if name = "" ∨ name = "." then walkWith follow rest place
          else if name = ".." then walkWith follow rest place.parent
          else if longestName < size name then .error .nameTooLong
          else
            match entries.lookup name with
            | none => .error .notFound
            | some (link target) => follow target rest place
            | some entry => walkWith follow rest ⟨entry, place.here :: place.above⟩
      | barred true fault => if name = "" then walkWith follow rest place else .error fault
      | barred false _ | file _ | link _ => .error .notADirectory

/-- Follows components from a place through at most that many links. -/
def walk : (links : Nat) → List String → Place → Except IoFault Place
  | 0 => walkWith fun _ _ _ => .error .tooManyLinks
  | links + 1 => walkWith fun target rest place =>
      walk links (components target ++ rest)
        (if isAbsolute target then place.root else place)

/-- The place of a path in a tree.  Paths that are not absolute lead nowhere. -/
def resolve (tree : FileTree) (path : String) : Except IoFault Place :=
  openAt path
    (if isAbsolute path then walk mostLinks (components path) ⟨tree, []⟩ else .error .notFound)

/-- The entries of the directory at a path. -/
def list (tree : FileTree) (path : String) : Except IoFault (List (String × FileTree)) := do
  match (← tree.resolve path).here with
  | directory entries => .ok entries
  | barred true fault => .error fault
  | barred false _ | file _ | link _ => .error .notADirectory

def read (tree : FileTree) (path : String) : Except IoFault Octets := do
  match (← tree.resolve path).here with
  | file content => .ok content
  | directory _ => .error .isADirectory
  | barred _ fault => .error fault
  | link _ => .error .notFound

def readText (tree : FileTree) (path : String) : Except IoFault String := do
  match Utf8.text? (← tree.read path) with
  | some text => .ok text
  | none => .error .invalidUtf8

/-- The entries of a directory; other trees have none. -/
def entries : FileTree → List (String × FileTree)
  | directory entries => entries
  | file _ | link _ | barred _ _ => []

/-- The entry of that name is changed or, if there is none, made. -/
def setEntry (name : String) (entry : FileTree) (entries : List (String × FileTree)) :
    List (String × FileTree) :=
  if (entries.lookup name).isSome then
    entries.map fun old => if old.1 = name then (name, entry) else old
  else entries ++ [(name, entry)]

/-- Puts an entry at the end of components, with the directories that it needs
on the way. -/
def put (entry : FileTree) : List String → FileTree → FileTree
  | [], _ => entry
  | name :: rest, tree =>
      let below := (tree.entries.lookup name).getD (directory [])
      directory (setEntry name (put entry rest below) tree.entries)

/-- Removes the entry at the end of components with all that is in it. -/
def remove : List String → FileTree → FileTree
  | [], tree => tree
  | [name], tree => directory (tree.entries.filter fun entry => entry.1 != name)
  | name :: rest, tree =>
      match tree.entries.lookup name with
      | none => tree
      | some below => directory (setEntry name (remove rest below) tree.entries)

end FileTree

end GridSecurity
