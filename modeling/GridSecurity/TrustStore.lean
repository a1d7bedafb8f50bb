import GridSecurity.Certificate.Reader
import GridSecurity.FileTree
import GridSecurity.Pem

/-!
# Stores of trusted authorities

The certificates of trusted attribute authorities come from the files of a
directory and of the directories in it, or are given once and for all.  Loading
reads them all anew; a load that fails leaves the authorities as they were.
-/

namespace GridSecurity

namespace TrustStore

/-- The part of a file name behind its last point.  A name with nothing before
the point has no such part. -/
def extension? (name : String) : Option String :=
  let (ending, others) := name.toList.reverse.span (· != '.')
  match others with
  | [] | [_] => none
  | _ :: _ :: _ => some (String.ofList ending.reverse)

/-- The name of a file that is expected to hold certificates. -/
def isCertificateName (name : String) : Bool :=
  match extension? name with
  | some extension => extension ∈ ["pem", "crt", "cer"]
  | none => false

/-- The certificates in a file.  A file that cannot be read holds none, and
sections that are no certificates are passed over. -/
def certificatesOfFile (content : Octets) : List Certificate :=
  ((Pem.certificates? content).getD []).filterMap fun encoding =>
    (Certificate.parse encoding).toOption

/-- The order of names by their octets. -/
def nameOrder {α : Type} (left right : String × α) : Bool :=
  !Octets.precedes (Utf8.ofText right.1) (Utf8.ofText left.1)

/-- The certificates found under names, in the order of the names; the first
failure in this order stands for all. -/
def inNameOrder (found : List (String × Except IoFault (List Certificate))) :
    Except IoFault (List Certificate) := do
  let ordered := found.mergeSort nameOrder
  return (← ordered.mapM Prod.snd).flatten

mutual

/-- The certificates of an entry of the directory at a path.  Links to files are
opened like files, and links to directories are passed over.  What cannot be
opened is a failure, unless it is no directory and its name is that of no
certificate file. -/
def certificatesOfEntry (files : FileTree) (path name : String) :
    FileTree → Except IoFault (List Certificate)
  | .file content =>
      if isCertificateName name then
        FileTree.openAt (FileTree.join path name) (.ok (certificatesOfFile content))
      else .ok []
  | .link _ =>
      match files.resolve (FileTree.join path name) with
      | .ok ⟨.file content, _⟩ =>
          .ok (if isCertificateName name then certificatesOfFile content else [])
      | .ok ⟨.barred false fault, _⟩ | .error fault =>
          if isCertificateName name then .error fault else .ok []
      | .ok _ => .ok []
  | .directory entries =>
      FileTree.openAt (FileTree.join path name)
        (inNameOrder (certificatesOfEntries files (FileTree.join path name) entries))
  | .barred isDirectory fault =>
      if isDirectory || isCertificateName name then
        FileTree.openAt (FileTree.join path name) (.error fault)
      else .ok []

/-- What each entry of the directory at a path holds. -/
def certificatesOfEntries (files : FileTree) (path : String) :
    List (String × FileTree) → List (String × Except IoFault (List Certificate))
  | [] => []
  | (name, entry) :: rest =>
      (name, certificatesOfEntry files path name entry) :: certificatesOfEntries files path rest

end

/-- The certificates of a directory, of which there has to be one. -/
def load (files : FileTree) (path : String) : Except TrustFault (List Certificate) :=
  let found := do inNameOrder (certificatesOfEntries files path (← files.list path))
  match found with
  | .error fault => .error (.unreadableDirectory path fault)
  | .ok [] => .error (.noAuthorities path)
  | .ok authorities => .ok authorities

end TrustStore

/-- The authorities in force, and the directory they come from unless they were
given. -/
structure TrustStore where
  directory : Option String
  authorities : List Certificate
  deriving DecidableEq, Repr

namespace TrustStore

def ofDirectory (files : FileTree) (path : String) : Except SecurityError TrustStore :=
  match load files path with
  | .error fault => .error (.validatorUnavailable fault)
  | .ok authorities => .ok ⟨some path, authorities⟩

def ofCertificates (encodings : List Octets) : Except SecurityError TrustStore :=
  match encodings.mapM Certificate.parse with
  | .error fault => .error (.validatorUnavailable (.invalidAuthority fault))
  | .ok authorities => .ok ⟨none, authorities⟩

/-- Loads the authorities anew and tells their number; the store after it. -/
def reload (files : FileTree) (store : TrustStore) :
    Except SecurityError Nat × TrustStore :=
  match store.directory with
  | none => (.ok store.authorities.length, store)
  | some path =>
      match load files path with
      | .error fault => (.error (.validatorUnavailable fault), store)
      | .ok authorities =>
          (.ok authorities.length, { store with authorities := authorities })

def find (store : TrustStore) (subject : DistinguishedName) : List Certificate :=
  store.authorities.filter fun authority => decide (authority.subject.Same subject)

def trusts (store : TrustStore) (subject : DistinguishedName) : Bool :=
  store.authorities.any fun authority => decide (authority.subject.Same subject)

end TrustStore

end GridSecurity
