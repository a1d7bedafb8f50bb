import GridSecurity.Proofs.FileTree
import GridSecurity.Proofs.Octets
import GridSecurity.Proofs.Text.Utf8
import GridSecurity.TrustStore
import Mathlib.Data.List.Lex

/-!
# What a directory of authorities holds

The certificates of a directory are those of the certificate files that stand in it and in the
directories below it, file by file in the order of their paths.
-/

namespace GridSecurity.TrustStore

/-! ## Files and their certificates -/

/-- An entry is a file, or a link that leads to one, and the file can be opened. -/
inductive Leads (files : FileTree) (path : String) : FileTree → Octets → Prop
  | file (content : Octets) (seen : FileTree.pathFault? path = none) :
      Leads files path (.file content) content
  | link (target : String) {content : Octets} (opened : files.read path = .ok content) :
      Leads files path (.link target) content

/-- The file that an entry is or leads to is expected to hold certificates, its sections can be
read, and those among them that are certificates are the given ones. -/
def Shows (files : FileTree) (path name : String) (entry : FileTree)
    (certificates : List Certificate) : Prop :=
  isCertificateName name = true ∧
    ∃ content encodings, Leads files path entry content ∧
      Pem.certificates? content = some encodings ∧
      certificates = encodings.filterMap fun encoding => (Certificate.parse encoding).toOption

/-- What has to be opened: directories, and what has the name of a certificate file. -/
def IsOpened (name : String) (entry : FileTree) : Prop :=
  (entry.isDirectory || isCertificateName name) = true

/-- An entry has to be opened and cannot be, itself or what it leads to. -/
inductive Obstructs (files : FileTree) (path name : String) : FileTree → IoFault → Prop
  | path {entry : FileTree} {fault : IoFault} (opened : IsOpened name entry)
      (unseen : FileTree.pathFault? path = some fault) : Obstructs files path name entry fault
  | barred {isDirectory : Bool} {fault : IoFault} (opened : IsOpened name (.barred isDirectory fault))
      (seen : FileTree.pathFault? path = none) :
      Obstructs files path name (.barred isDirectory fault) fault
  | link (named : isCertificateName name = true) (target : String) {fault : IoFault}
      {above : List FileTree} (resolved : files.resolve path = .ok ⟨.barred false fault, above⟩) :
      Obstructs files path name (.link target) fault
  | astray (named : isCertificateName name = true) (target : String) {fault : IoFault}
      (failed : files.resolve path = .error fault) : Obstructs files path name (.link target) fault

section Shown

variable {files : FileTree} {path name : String} {entry : FileTree} {content : Octets}
  {certificates : List Certificate}

theorem Leads.unique {other : Octets} (leads : Leads files path entry content)
    (alsoLeads : Leads files path entry other) : content = other := by
  cases leads with
  | file =>
      cases alsoLeads with
      | file => rfl
  | link _ opened =>
      cases alsoLeads with
      | link _ alsoOpened => exact Except.ok.inj (opened.symm.trans alsoOpened)

theorem Shows.unique {others : List Certificate} (shows : Shows files path name entry certificates)
    (alsoShows : Shows files path name entry others) : certificates = others := by
  obtain ⟨-, content, encodings, leads, sections, rfl⟩ := shows
  obtain ⟨-, other, otherEncodings, alsoLeads, otherSections, rfl⟩ := alsoShows
  obtain rfl := leads.unique alsoLeads
  obtain rfl := Option.some.inj (sections.symm.trans otherSections)
  rfl

theorem not_shows_directory {inner : List (String × FileTree)} :
    ¬ Shows files path name (.directory inner) certificates := by
  rintro ⟨-, content, encodings, leads, -⟩
  cases leads

theorem Leads.not_obstructs {fault : IoFault} (leads : Leads files path entry content) :
    ¬ Obstructs files path name entry fault := by
  intro obstructs
  cases leads with
  | file _ seen =>
      cases obstructs with
      | path _ unseen => cases seen.symm.trans unseen
  | link target opened =>
      obtain ⟨above, isFile⟩ := FileTree.read_eq_ok_iff.mp opened
      cases obstructs with
      | path _ unseen => cases isFile.symm.trans (FileTree.resolve_of_some unseen)
      | link _ _ isBarred => cases isFile.symm.trans isBarred
      | astray _ _ failed => cases isFile.symm.trans failed

theorem not_obstructs_directory {entries : List (String × FileTree)} {fault : IoFault}
    (seen : FileTree.pathFault? path = none) :
    ¬ Obstructs files path name (.directory entries) fault := by
  intro obstructs
  cases obstructs with
  | path _ unseen => cases seen.symm.trans unseen

theorem not_obstructs_linkedDirectory {target : String} {place : FileTree.Place} {fault : IoFault}
    (resolved : files.resolve path = .ok place) (isDirectory : place.here.isDirectory = true) :
    ¬ Obstructs files path name (.link target) fault := by
  intro obstructs
  cases obstructs with
  | path _ unseen => cases resolved.symm.trans (FileTree.resolve_of_some unseen)
  | link _ _ isBarred =>
      obtain rfl := Except.ok.inj (resolved.symm.trans isBarred)
      cases isDirectory
  | astray _ _ failed => cases resolved.symm.trans failed

/-- A file holds the certificates that it shows, and none without showing them. -/
theorem certificatesOfFile_of_leads (leads : Leads files path entry content) :
    Shows files path name entry (certificatesOfFile content) ∨
      (if isCertificateName name then certificatesOfFile content else []) = [] ∧
        ∀ certificates, ¬ Shows files path name entry certificates := by
  cases named : isCertificateName name with
  | false =>
      refine .inr ⟨rfl, ?_⟩
      rintro certificates ⟨isNamed, -⟩
      cases named.symm.trans isNamed
  | true =>
      rw [certificatesOfFile]
      cases sections : Pem.certificates? content with
      | none =>
          refine .inr ⟨rfl, ?_⟩
          rintro certificates ⟨-, other, encodings, alsoLeads, otherSections, -⟩
          obtain rfl := leads.unique alsoLeads
          cases sections.symm.trans otherSections
      | some encodings => exact .inl ⟨named, content, encodings, leads, sections, rfl⟩

end Shown

/-! ## Directories -/

/-- A directory in a tree of files, with the path at which it is opened and its entries. -/
structure Directory where
  files : FileTree
  path : String
  entries : List (String × FileTree)

/-- One name stands before another by its octets. -/
def NamePrecedes (name other : String) : Prop :=
  Octets.precedes (Utf8.ofText name) (Utf8.ofText other) = true

instance : Std.Asymm NamePrecedes where
  asymm _ _ before behind := Octets.precedes_irrefl _ (Octets.precedes_trans before behind)

/-- One path stands before another by the first name in which they differ. -/
def Precedes (left right : List String) : Prop := List.Lex NamePrecedes left right

theorem Precedes.asymm {left right : List String} (before : Precedes left right) :
    ¬ Precedes right left :=
  Std.Asymm.asymm (r := List.Lex NamePrecedes) _ _ before

/-- Behind the same name the rest decides. -/
theorem precedes_cons_iff {name : String} {left right : List String} :
    Precedes (name :: left) (name :: right) ↔ Precedes left right := by
  constructor
  · intro before
    cases before with
    | cons rest => exact rest
    | rel behind => exact absurd behind (Octets.precedes_irrefl _)
  · exact .cons

/-- Files by their paths below a directory, and the certificates in them. -/
abbrev Findings := List (List String × List Certificate)

def Findings.certificates (found : Findings) : List Certificate := found.flatMap Prod.snd

def Findings.Ascending (found : Findings) : Prop :=
  found.Pairwise fun left right => Precedes left.1 right.1

namespace Directory

/-- The path of an entry that stands in the directory or below it. -/
def location (directory : Directory) (above : List String) (name : String) : String :=
  FileTree.join (above.foldl FileTree.join directory.path) name

/-- At the end of names below the directory there is an entry with a property, which may depend
on the path and the name of the entry. -/
def Has (directory : Directory) (property : String → String → FileTree → Prop)
    (names : List String) : Prop :=
  ∃ above name entry, names = above ++ [name] ∧
    FileTree.Holds directory.entries above name entry ∧
    property (directory.location above name) name entry

def Bears (directory : Directory) (names : List String) (certificates : List Certificate) : Prop :=
  directory.Has (fun path name entry => Shows directory.files path name entry certificates) names

def IsObstructed (directory : Directory) (names : List String) (fault : IoFault) : Prop :=
  directory.Has (fun path name entry => Obstructs directory.files path name entry fault) names

/-- All directories below the directory can be listed, and all certificate files in it and below
it can be opened. -/
def Unobstructed (directory : Directory) : Prop :=
  ∀ names fault, ¬ directory.IsObstructed names fault

/-- Findings are complete if they are exactly the files that show certificates. -/
def IsComplete (directory : Directory) (found : Findings) : Prop :=
  ∀ names certificates, (names, certificates) ∈ found ↔ directory.Bears names certificates

/-- The directory with nothing in it but one entry. -/
def only (directory : Directory) (name : String) (entry : FileTree) : Directory :=
  { directory with entries := [(name, entry)] }

/-- A directory that stands in the directory. -/
def inner (directory : Directory) (name : String) (entries : List (String × FileTree)) :
    Directory :=
  ⟨directory.files, FileTree.join directory.path name, entries⟩

variable {directory : Directory} {property : String → String → FileTree → Prop}
  {names : List String} {name : String} {entry : FileTree} {certificates : List Certificate}
  {found : Findings} {fault : IoFault}

theorem has_iff_exists :
    directory.Has property names ↔
      ∃ item ∈ directory.entries, (directory.only item.1 item.2).Has property names := by
  constructor
  · rintro ⟨above, name, entry, rfl, holds, isSo⟩
    cases holds with
    | here member =>
        exact ⟨_, member, [], name, entry, rfl, .here List.mem_cons_self, isSo⟩
    | inside member holds =>
        exact ⟨_, member, _, name, entry, rfl, .inside List.mem_cons_self holds, isSo⟩
  · rintro ⟨⟨first, item⟩, itemMember, above, name, entry, rfl, holds, isSo⟩
    refine ⟨above, name, entry, rfl, ?_, isSo⟩
    cases holds with
    | here member =>
        cases List.mem_singleton.mp member
        exact .here itemMember
    | inside member holds =>
        cases List.mem_singleton.mp member
        exact .inside itemMember holds

/-- An entry has the property itself or, if it is a directory, something below it has. -/
theorem has_only_iff :
    (directory.only name entry).Has property names ↔
      names = [name] ∧ property (directory.location [] name) name entry ∨
      ∃ inner rest, entry = .directory inner ∧ names = name :: rest ∧
        (directory.inner name inner).Has property rest := by
  constructor
  · rintro ⟨above, last, lastEntry, rfl, holds, isSo⟩
    cases holds with
    | here member =>
        cases List.mem_singleton.mp member
        exact .inl ⟨rfl, isSo⟩
    | inside member holds =>
        cases List.mem_singleton.mp member
        exact .inr ⟨_, _, rfl, rfl, _, last, lastEntry, rfl, holds, isSo⟩
  · rintro (⟨rfl, isSo⟩ | ⟨inner, rest, rfl, rfl, above, last, lastEntry, rfl, holds, isSo⟩)
    · exact ⟨[], name, entry, rfl, .here List.mem_cons_self, isSo⟩
    · exact ⟨name :: above, last, lastEntry, rfl, .inside List.mem_cons_self holds, isSo⟩

theorem exists_cons_of_has_only (has : (directory.only name entry).Has property names) :
    ∃ rest, names = name :: rest := by
  rcases has_only_iff.mp has with ⟨rfl, -⟩ | ⟨_, rest, -, rfl, -⟩
  · exact ⟨[], rfl⟩
  · exact ⟨rest, rfl⟩

theorem Unobstructed.only (opens : directory.Unobstructed)
    (member : (name, entry) ∈ directory.entries) : (directory.only name entry).Unobstructed :=
  fun names fault obstructed => opens names fault (has_iff_exists.mpr ⟨_, member, obstructed⟩)

theorem Unobstructed.inner {inner : List (String × FileTree)}
    (opens : (directory.only name (.directory inner)).Unobstructed) :
    (directory.inner name inner).Unobstructed :=
  fun rest fault obstructed =>
    opens (name :: rest) fault (has_only_iff.mpr (.inr ⟨inner, rest, rfl, rfl, obstructed⟩))

theorem Unobstructed.not_obstructs (opens : (directory.only name entry).Unobstructed)
    (fault : IoFault) :
    ¬ Obstructs directory.files (directory.location [] name) name entry fault :=
  fun obstructs => opens [name] fault (has_only_iff.mpr (.inl ⟨rfl, obstructs⟩))

/-! ## In the order of names -/

/-- Findings that are complete, and in order if the names in the directory are different. -/
structure Gathers (directory : Directory) (found : Findings) : Prop where
  complete : directory.IsComplete found
  ascending : (FileTree.directory directory.entries).WellNamed → found.Ascending

end Directory

section NameOrder

variable {α : Type}

private theorem nameOrder_trans (first second third : String × α)
    (start : nameOrder first second = true) (rest : nameOrder second third = true) :
    nameOrder first third = true := by
  rw [nameOrder, Bool.not_eq_true', Bool.eq_false_iff] at start rest ⊢
  intro back
  by_cases same : Utf8.ofText first.1 = Utf8.ofText second.1
  · rw [same] at back
    exact rest back
  · rcases Octets.precedes_or_precedes same with before | behind
    · exact rest (Octets.precedes_trans back before)
    · exact start behind

private theorem nameOrder_total (first second : String × α) :
    (nameOrder first second || nameOrder second first) = true := by
  rw [nameOrder, nameOrder, ← Bool.not_and, Bool.not_eq_true', Bool.and_eq_false_iff]
  by_contra both
  rw [not_or, Bool.not_eq_false, Bool.not_eq_false] at both
  exact Octets.precedes_irrefl _ (Octets.precedes_trans both.1 both.2)

/-- Items with different names are put into a strict order. -/
theorem pairwise_mergeSort_nameOrder {items : List (String × α)}
    (distinct : (items.map Prod.fst).Nodup) :
    (items.mergeSort nameOrder).Pairwise fun left right => NamePrecedes left.1 right.1 := by
  have sorted := List.pairwise_mergeSort nameOrder_trans nameOrder_total items
  have different : (items.mergeSort nameOrder).Pairwise fun left right => left.1 ≠ right.1 :=
    List.pairwise_map.mp (((List.mergeSort_perm items nameOrder).map Prod.fst).nodup_iff.mpr distinct)
  refine (sorted.and different).imp ?_
  rintro left right ⟨ordered, notSame⟩
  rw [nameOrder, Bool.not_eq_true', Bool.eq_false_iff] at ordered
  exact (Octets.precedes_or_precedes (mt Utf8.ofText_inj.mp notSame)).resolve_right ordered

/-- What is found under names is put together in the order of the names. -/
theorem inNameOrder_map (certificates : α → List Certificate) (items : List (String × α)) :
    inNameOrder (items.map (Prod.map id fun item => .ok (certificates item))) =
      .ok ((items.mergeSort nameOrder).flatMap fun item => certificates item.2) := by
  have sorted := List.map_mergeSort (r := nameOrder) (s := nameOrder) (l := items)
    (f := Prod.map id fun item => (.ok (certificates item) : Except IoFault (List Certificate)))
    fun _ _ _ _ => rfl
  have all : ((items.mergeSort nameOrder).map
        (Prod.map id fun item => (.ok (certificates item) : Except IoFault _))).mapM Prod.snd =
      .ok ((items.mergeSort nameOrder).map fun item => certificates item.2) := by
    rw [mapM_eq_ok_iff, List.forall₂_map_left_iff, List.forall₂_map_right_iff, List.forall₂_same]
    intro item member
    rfl
  rw [inNameOrder, ← sorted, all]
  rfl

end NameOrder

namespace Directory

variable {directory : Directory} {names : List String} {name : String} {entry : FileTree}
  {certificates : List Certificate} {found : Findings} {parts : List (String × Findings)}

/-- Every part is what one of the entries gathers, in their order. -/
def Gathered (directory : Directory) (parts : List (String × Findings)) : Prop :=
  List.Forall₂ (fun entry part => entry.1 = part.1 ∧
    (directory.only entry.1 entry.2).Gathers part.2) directory.entries parts

private theorem Gathers.exists_cons (gathers : (directory.only name entry).Gathers found)
    (member : (names, certificates) ∈ found) : ∃ rest, names = name :: rest :=
  exists_cons_of_has_only ((gathers.complete _ _).mp member)

private theorem Gathered.complete (gathered : directory.Gathered parts) :
    directory.IsComplete ((parts.mergeSort nameOrder).flatMap Prod.snd) := by
  intro names certificates
  rw [Bears, has_iff_exists, List.mem_flatMap]
  constructor
  · rintro ⟨part, partMember, member⟩
    obtain ⟨entry, entryMember, -, gathers⟩ :=
      exists_mem_of_forall₂ gathered (List.mem_mergeSort.mp partMember)
    exact ⟨entry, entryMember, (gathers.complete _ _).mp member⟩
  · rintro ⟨entry, entryMember, bears⟩
    obtain ⟨part, partMember, -, gathers⟩ := exists_mem_of_forall₂ gathered.flip entryMember
    exact ⟨part, List.mem_mergeSort.mpr partMember, (gathers.complete _ _).mpr bears⟩

private theorem Gathered.ascending (gathered : directory.Gathered parts)
    (named : (FileTree.directory directory.entries).WellNamed) :
    Findings.Ascending ((parts.mergeSort nameOrder).flatMap Prod.snd) := by
  have sameNames : directory.entries.map Prod.fst = parts.map Prod.fst := by
    rw [← List.forall₂_eq_eq_eq, List.forall₂_map_left_iff, List.forall₂_map_right_iff]
    exact gathered.imp fun _ _ related => related.1
  have distinct : (parts.map Prod.fst).Nodup := sameNames ▸ named.distinct
  rw [Findings.Ascending, List.pairwise_flatMap]
  constructor
  · intro part partMember
    obtain ⟨entry, entryMember, -, gathers⟩ :=
      exists_mem_of_forall₂ gathered (List.mem_mergeSort.mp partMember)
    refine gathers.ascending (.directory (List.nodup_singleton _) ?_)
    rintro other otherMember
    cases List.mem_singleton.mp otherMember
    exact named.of_mem entryMember
  -- Files in different parts differ in the first name already.
  · refine (pairwise_mergeSort_nameOrder distinct).imp_of_mem ?_
    rintro left right leftMember rightMember ordered ⟨leftNames, _⟩ inLeft ⟨rightNames, _⟩ inRight
    obtain ⟨leftEntry, _, leftName, leftGathers⟩ :=
      exists_mem_of_forall₂ gathered (List.mem_mergeSort.mp leftMember)
    obtain ⟨rightEntry, _, rightName, rightGathers⟩ :=
      exists_mem_of_forall₂ gathered (List.mem_mergeSort.mp rightMember)
    obtain ⟨leftRest, rfl⟩ := leftGathers.exists_cons inLeft
    obtain ⟨rightRest, rfl⟩ := rightGathers.exists_cons inRight
    rw [← leftName, ← rightName] at ordered
    exact .rel ordered

private theorem Gathered.gathers (gathered : directory.Gathered parts) :
    directory.Gathers ((parts.mergeSort nameOrder).flatMap Prod.snd) :=
  ⟨gathered.complete, gathered.ascending⟩

/-- A directory gathers in another one what it gathers by itself, behind its name. -/
theorem Gathers.inner {inner : List (String × FileTree)}
    (gathers : (directory.inner name inner).Gathers found) :
    (directory.only name (.directory inner)).Gathers
      (found.map fun finding => (name :: finding.1, finding.2)) := by
  constructor
  · intro names certificates
    rw [Bears, has_only_iff, List.mem_map]
    constructor
    · rintro ⟨⟨rest, shown⟩, member, same⟩
      obtain ⟨rfl, rfl⟩ := Prod.mk.inj same
      exact .inr ⟨inner, rest, rfl, rfl, (gathers.complete _ _).mp member⟩
    · rintro (⟨-, shows⟩ | ⟨_, rest, same, rfl, bears⟩)
      · exact absurd shows not_shows_directory
      · cases same
        exact ⟨(rest, certificates), (gathers.complete _ _).mpr bears, rfl⟩
  · intro named
    have innerNamed := named.of_mem List.mem_cons_self
    rw [Findings.Ascending, List.pairwise_map]
    exact (gathers.ascending innerNamed).imp fun ordered => .cons ordered

private theorem Unobstructed.pathFault?_eq_none (opens : (directory.only name entry).Unobstructed)
    (opened : IsOpened name entry) : FileTree.pathFault? (directory.location [] name) = none := by
  cases unseen : FileTree.pathFault? (directory.location [] name) with
  | none => rfl
  | some fault => exact absurd (.path opened unseen) (opens.not_obstructs fault)

private theorem gathers_of_shows
    (shows : Shows directory.files (directory.location [] name) name entry certificates) :
    (directory.only name entry).Gathers [([name], certificates)] := by
  refine ⟨fun names others => ?_, fun _ => List.pairwise_singleton _ _⟩
  rw [Bears, has_only_iff, List.mem_singleton, Prod.mk.injEq]
  constructor
  · rintro ⟨rfl, rfl⟩
    exact .inl ⟨rfl, shows⟩
  · rintro (⟨rfl, alsoShows⟩ | ⟨inner, _, rfl, _⟩)
    · exact ⟨rfl, alsoShows.unique shows⟩
    · exact absurd shows not_shows_directory

private theorem gathers_nil (isNoDirectory : ∀ inner, entry ≠ .directory inner)
    (showsNone : ∀ certificates,
      ¬ Shows directory.files (directory.location [] name) name entry certificates) :
    (directory.only name entry).Gathers [] := by
  refine ⟨fun names others => ?_, fun _ => .nil⟩
  rw [Bears, has_only_iff]
  constructor
  · intro member
    cases member
  · rintro (⟨-, shows⟩ | ⟨inner, _, isDirectory, _⟩)
    · exact absurd shows (showsNone _)
    · exact absurd isDirectory (isNoDirectory inner)

private theorem exists_gathers_of_leads {content : Octets}
    (leads : Leads directory.files (directory.location [] name) entry content) :
    ∃ found : Findings,
      (if isCertificateName name then certificatesOfFile content else []) = found.certificates ∧
        (directory.only name entry).Gathers found := by
  rcases certificatesOfFile_of_leads leads with shows | ⟨nothing, showsNone⟩
  · refine ⟨_, ?_, gathers_of_shows shows⟩
    rw [if_pos shows.1]
    exact (List.append_nil _).symm
  · refine ⟨[], nothing, gathers_nil ?_ showsNone⟩
    rintro inner rfl
    cases leads

end Directory

/-! ## Loading -/

section Entry

variable {files : FileTree} {path name target : String} {entry : FileTree}

private theorem certificatesOfEntry_of_not_isOpened (unopened : ¬ IsOpened name entry) :
    certificatesOfEntry files path name entry = .ok [] := by
  cases entry with
  | file content =>
      rw [certificatesOfEntry]
      exact if_neg unopened
  | link target =>
      have unnamed : isCertificateName name = false := Bool.eq_false_iff.mpr unopened
      rw [certificatesOfEntry, unnamed]
      split <;> rfl
  | directory inner => exact absurd rfl unopened
  | barred isDirectory fault =>
      rw [certificatesOfEntry]
      exact if_neg unopened

private theorem certificatesOfEntry_of_leads {content : Octets}
    (leads : Leads files (FileTree.join path name) entry content) :
    certificatesOfEntry files path name entry =
      .ok (if isCertificateName name then certificatesOfFile content else []) := by
  cases leads with
  | file _ seen =>
      rw [certificatesOfEntry, FileTree.openAt_of_none seen]
      split <;> rfl
  | link target opened =>
      obtain ⟨above, resolved⟩ := FileTree.read_eq_ok_iff.mp opened
      rw [certificatesOfEntry, resolved]

/-- A link that leads to no file holds nothing, unless it ought to be opened and cannot. -/
theorem certificatesOfEntry_of_astray
    (astray : ∀ content, ¬ Leads files (FileTree.join path name) (.link target) content)
    (opens : ∀ fault, ¬ Obstructs files (FileTree.join path name) name (.link target) fault) :
    certificatesOfEntry files path name (.link target) = .ok [] := by
  rw [certificatesOfEntry]
  split
  · next content above resolved =>
      exact absurd (.link target (FileTree.read_eq_ok_iff.mpr ⟨above, resolved⟩)) (astray content)
  · next fault above resolved =>
      exact if_neg fun named => opens fault (.link named target resolved)
  · next fault failed => exact if_neg fun named => opens fault (.astray named target failed)
  · rfl

end Entry

namespace Directory

variable {directory : Directory}

/-- What the entries of a list gather one by one is found under their names. -/
theorem exists_parts (directory : Directory) {entries : List (String × FileTree)}
    (gather : ∀ item ∈ entries, ∃ found : Findings,
      certificatesOfEntry directory.files directory.path item.1 item.2 = .ok found.certificates ∧
        (directory.only item.1 item.2).Gathers found) :
    ∃ parts : List (String × Findings),
      certificatesOfEntries directory.files directory.path entries =
        parts.map (Prod.map id fun found => .ok found.certificates) ∧
      List.Forall₂ (fun entry part => entry.1 = part.1 ∧
        (directory.only entry.1 entry.2).Gathers part.2) entries parts := by
  induction entries with
  | nil => exact ⟨[], rfl, .nil⟩
  | cons item rest induction =>
      obtain ⟨here, later⟩ := List.forall_mem_cons.mp gather
      obtain ⟨found, computed, gathers⟩ := here
      obtain ⟨parts, restComputed, gathered⟩ := induction later
      refine ⟨(item.1, found) :: parts, ?_, .cons ⟨rfl, gathers⟩ gathered⟩
      rw [certificatesOfEntries, computed, restComputed]
      rfl

/-- A directory gathers what its entries gather, in the order of their names. -/
theorem exists_gathers (gather : ∀ item ∈ directory.entries, ∃ found : Findings,
      certificatesOfEntry directory.files directory.path item.1 item.2 = .ok found.certificates ∧
        (directory.only item.1 item.2).Gathers found) :
    ∃ found : Findings,
      inNameOrder (certificatesOfEntries directory.files directory.path directory.entries) =
        .ok found.certificates ∧ directory.Gathers found := by
  obtain ⟨parts, computed, gathered⟩ := exists_parts directory gather
  have whole : directory.Gathered parts := gathered
  refine ⟨_, ?_, whole.gathers⟩
  rw [computed, inNameOrder_map, Findings.certificates, List.flatMap_assoc]
  rfl

/-- An entry that is no directory and does not fail to be opened holds what it shows. -/
theorem exists_gathers_of_ne_directory {name : String} {entry : FileTree}
    (isNoDirectory : ∀ inner, entry ≠ .directory inner)
    (opens : (directory.only name entry).Unobstructed) :
    ∃ found : Findings,
      certificatesOfEntry directory.files directory.path name entry = .ok found.certificates ∧
        (directory.only name entry).Gathers found := by
  by_cases leads : ∃ content, Leads directory.files (directory.location [] name) entry content
  · obtain ⟨content, leads⟩ := leads
    obtain ⟨found, holds, gathers⟩ := exists_gathers_of_leads leads
    exact ⟨found, (certificatesOfEntry_of_leads leads).trans (congrArg _ holds), gathers⟩
  · refine ⟨[], ?_, gathers_nil isNoDirectory ?_⟩
    · by_cases opened : IsOpened name entry
      · have seen := opens.pathFault?_eq_none opened
        cases entry with
        | file content => exact absurd ⟨content, .file content seen⟩ leads
        | link target => exact certificatesOfEntry_of_astray (not_exists.mp leads) opens.not_obstructs
        | directory inner => exact absurd rfl (isNoDirectory inner)
        | barred isDirectory fault =>
            exact absurd (.barred opened seen) (opens.not_obstructs fault)
      · exact certificatesOfEntry_of_not_isOpened opened
    · rintro certificates ⟨-, content, encodings, alsoLeads, -⟩
      exact leads ⟨content, alsoLeads⟩

/-- An entry in which everything can be opened holds the certificates that it bears. -/
theorem exists_gathers_entry (entry : FileTree) (directory : Directory) (name : String)
    (opens : (directory.only name entry).Unobstructed) :
    ∃ found : Findings,
      certificatesOfEntry directory.files directory.path name entry = .ok found.certificates ∧
        (directory.only name entry).Gathers found := by
  induction entry using FileTree.induction generalizing directory name with
  | file | link | barred =>
      refine exists_gathers_of_ne_directory ?_ opens
      intro inner isDirectory
      cases isDirectory
  | directory inner induction =>
      have within := opens.inner
      have parts (item) (member : item ∈ (directory.inner name inner).entries) :=
        induction item member (directory.inner name inner) item.1 (within.only member)
      obtain ⟨found, computed, gathers⟩ := exists_gathers parts
      refine ⟨_, ?_, gathers.inner⟩
      rw [certificatesOfEntry]
      refine (FileTree.openAt_of_none (opens.pathFault?_eq_none rfl)).trans ?_
      refine computed.trans ?_
      rw [Findings.certificates, Findings.certificates, List.flatMap_map]

theorem Unobstructed.exists_gathers (opens : directory.Unobstructed) :
    ∃ found : Findings,
      inNameOrder (certificatesOfEntries directory.files directory.path directory.entries) =
        .ok found.certificates ∧ directory.Gathers found :=
  Directory.exists_gathers fun _ member => exists_gathers_entry _ directory _ (opens.only member)

end Directory

section Load

variable {files : FileTree} {path : String} {entries : List (String × FileTree)}

theorem load_of_ok {certificates : List Certificate} (listed : files.list path = .ok entries)
    (found : inNameOrder (certificatesOfEntries files path entries) = .ok certificates) :
    load files path =
      if certificates = [] then .error (.noAuthorities path) else .ok certificates := by
  unfold load
  rw [listed]
  dsimp only [bind, Except.bind]
  rw [found]
  cases certificates with
  | nil => rfl
  | cons => rfl

theorem load_of_error {fault : IoFault} (listed : files.list path = .ok entries)
    (failed : inNameOrder (certificatesOfEntries files path entries) = .error fault) :
    load files path = .error (.unreadableDirectory path fault) := by
  unfold load
  rw [listed]
  dsimp only [bind, Except.bind]
  rw [failed]

theorem ofDirectory_eq_error_iff {error : SecurityError} :
    ofDirectory files path = .error error ↔
      ∃ trouble, load files path = .error trouble ∧ .validatorUnavailable trouble = error := by
  unfold ofDirectory
  cases load files path with
  | error trouble => simp
  | ok authorities => simp

end Load

end GridSecurity.TrustStore
