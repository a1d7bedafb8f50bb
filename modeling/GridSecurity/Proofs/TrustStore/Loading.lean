import GridSecurity.Proofs.Authorization
import GridSecurity.Proofs.TrustStore.Contents

/-!
# Loading depends on the directory alone

A directory in which everything can be opened has its certificates loaded in ascending order of
the paths of their files.  It does not matter in which order the system lists directories, and
neither do entries that hold no certificates, such as links back to directories.
-/

namespace GridSecurity

namespace TrustStore

/-! ## Ascending findings -/

namespace Findings

variable {found others : Findings}

private theorem Ascending.nodup (ascending : found.Ascending) : found.Nodup := by
  refine List.nodup_iff_pairwise_ne.mpr (ascending.imp ?_)
  rintro left _ before rfl
  exact before.asymm before

private theorem Ascending.filter (ascending : found.Ascending)
    (holds : List String × List Certificate → Bool) : Ascending (List.filter holds found) :=
  List.Pairwise.filter holds ascending

/-- The same files stand in ascending order in one way only. -/
theorem Ascending.eq (ascending : found.Ascending) (alsoAscending : others.Ascending)
    (same : ∀ finding, finding ∈ found ↔ finding ∈ others) : found = others := by
  have order := (List.perm_ext_iff_of_nodup ascending.nodup alsoAscending.nodup).mpr same
  refine order.eq_of_pairwise ?_ ascending alsoAscending
  intro left right _ _ before behind
  exact absurd behind before.asymm

/-- Files without certificates add nothing. -/
private theorem certificates_filter (found : Findings) :
    Findings.certificates (found.filter fun finding => !finding.2.isEmpty) =
      found.certificates := by
  induction found with
  | nil => rfl
  | cons finding rest induction =>
      obtain ⟨names, certificates⟩ := finding
      cases certificates with
      | nil => exact induction
      | cons first others => exact congrArg (first :: others ++ ·) induction

/-- Which files hold which certificates settles what is found. -/
theorem Ascending.certificates_eq (ascending : found.Ascending) (alsoAscending : others.Ascending)
    (same : ∀ names certificates, certificates ≠ [] →
      ((names, certificates) ∈ found ↔ (names, certificates) ∈ others)) :
    found.certificates = others.certificates := by
  rw [← certificates_filter found, ← certificates_filter others]
  refine congrArg certificates ((ascending.filter _).eq (alsoAscending.filter _) ?_)
  rintro ⟨names, certificates⟩
  rw [List.mem_filter, List.mem_filter]
  refine and_congr_left fun holds => same names certificates ?_
  rintro rfl
  cases holds

end Findings

/-! ## Directories that can be read -/

namespace Directory

/-- The findings are all files in the directory and below it that show certificates, in the order
of their paths. -/
structure Finds (directory : Directory) (found : Findings) : Prop where
  complete : directory.IsComplete found
  ascending : found.Ascending

/-- The directory is found at its path, and everything in it that ought to be opened can be. -/
structure Readable (directory : Directory) : Prop where
  named : directory.files.WellNamed
  listed : directory.files.list directory.path = .ok directory.entries
  opens : directory.Unobstructed

variable {directory first second : Directory} {found : Findings} {names : List String}
  {certificates : List Certificate}

theorem wellNamed_of_list (named : directory.files.WellNamed)
    (listed : directory.files.list directory.path = .ok directory.entries) :
    (FileTree.directory directory.entries).WellNamed := by
  obtain ⟨_, alsoListed, -, isNamed⟩ :=
    (FileTree.Relists.refl directory.files).exists_list named listed
  obtain rfl := Except.ok.inj (listed.symm.trans alsoListed)
  exact isNamed

/-- A directory loads what is found in it, of which there has to be something. -/
theorem Readable.exists_finds (readable : directory.Readable) :
    ∃ found, directory.Finds found ∧
      load directory.files directory.path =
        if found.certificates = [] then .error (.noAuthorities directory.path)
        else .ok found.certificates := by
  obtain ⟨found, computed, gathers⟩ := readable.opens.exists_gathers
  have named := wellNamed_of_list readable.named readable.listed
  exact ⟨found, ⟨gathers.complete, gathers.ascending named⟩, load_of_ok readable.listed computed⟩

theorem Finds.unique {others : Findings} (finds : directory.Finds found)
    (alsoFinds : directory.Finds others) : found = others := by
  refine finds.ascending.eq alsoFinds.ascending ?_
  rintro ⟨names, certificates⟩
  rw [finds.complete, alsoFinds.complete]

end Directory

/-! ## Directories listed in another order -/

section Relisted

variable {files listed : FileTree} {path name : String} {entry counterpart : FileTree}

private theorem Leads.of_relists {content : Octets} (leads : Leads files path entry content)
    (relists : files.Relists listed) (named : files.WellNamed) (same : entry.Relists counterpart) :
    Leads listed path counterpart content := by
  cases leads with
  | file _ seen =>
      obtain rfl := same.eq_of_ne_directory fun _ isDirectory => by cases isDirectory
      exact .file content seen
  | link target opened =>
      obtain rfl := same.eq_of_ne_directory fun _ isDirectory => by cases isDirectory
      exact .link target (relists.read named opened)

private theorem Shows.of_relists {certificates : List Certificate}
    (shows : Shows files path name entry certificates) (relists : files.Relists listed)
    (named : files.WellNamed) (same : entry.Relists counterpart) :
    Shows listed path name counterpart certificates := by
  obtain ⟨isNamed, content, encodings, leads, sections, held⟩ := shows
  exact ⟨isNamed, content, encodings, leads.of_relists relists named same, sections, held⟩

private theorem IsOpened.of_relists (opened : IsOpened name entry)
    (same : entry.Relists counterpart) :
    IsOpened name counterpart := by
  cases entry with
  | file | link | barred =>
      obtain rfl := same.eq_of_ne_directory fun _ isDirectory => by cases isDirectory
      exact opened
  | directory inner =>
      obtain ⟨listed, rfl⟩ := same.exists_directory rfl
      rfl

private theorem Obstructs.exists_of_relists {fault : IoFault}
    (obstructs : Obstructs files path name entry fault) (relists : files.Relists listed)
    (named : files.WellNamed) (same : entry.Relists counterpart) :
    ∃ other, Obstructs listed path name counterpart other := by
  cases obstructs with
  | path opened unseen => exact ⟨fault, .path (opened.of_relists same) unseen⟩
  | barred opened seen =>
      obtain rfl := same.eq_of_ne_directory fun _ isDirectory => by cases isDirectory
      exact ⟨fault, .barred opened seen⟩
  | link isNamed target resolved =>
      obtain rfl := same.eq_of_ne_directory fun _ isDirectory => by cases isDirectory
      obtain ⟨⟨here, above⟩, alsoResolved, there, -⟩ := relists.exists_resolve named resolved
      obtain rfl := there.here.eq_of_ne_directory fun _ isDirectory => by cases isDirectory
      exact ⟨fault, .link isNamed target alsoResolved⟩
  | astray isNamed target failed =>
      obtain rfl := same.eq_of_ne_directory fun _ isDirectory => by cases isDirectory
      cases outcome : listed.resolve path with
      | error other => exact ⟨other, .astray isNamed target outcome⟩
      | ok place =>
          obtain ⟨_, resolved, -⟩ :=
            relists.symm.exists_resolve (relists.wellNamed named) outcome
          cases failed.symm.trans resolved

end Relisted

namespace Directory

/-- The same directory in a tree whose directories are listed in another order. -/
structure Relists (first second : Directory) : Prop where
  files : first.files.Relists second.files
  path : first.path = second.path
  entries : (FileTree.directory first.entries).Relists (.directory second.entries)

variable {directory first second : Directory} {found : Findings} {names : List String}
  {certificates : List Certificate}

theorem Relists.symm (relists : first.Relists second) : second.Relists first :=
  ⟨relists.files.symm, relists.path.symm, relists.entries.symm⟩

private theorem Relists.location_eq (relists : first.Relists second) (above : List String)
    (name : String) : first.location above name = second.location above name := by
  rw [location, location, relists.path]

private theorem Bears.of_relists (bears : first.Bears names certificates)
    (relists : first.Relists second) (named : first.files.WellNamed) :
    second.Bears names certificates := by
  obtain ⟨above, name, entry, rfl, holds, shows⟩ := bears
  obtain ⟨counterpart, alsoHolds, same⟩ := relists.entries.exists_holds holds
  rw [relists.location_eq] at shows
  exact ⟨above, name, counterpart, rfl, alsoHolds, shows.of_relists relists.files named same⟩

private theorem Unobstructed.of_relists (opens : first.Unobstructed)
    (relists : first.Relists second) (named : second.files.WellNamed) : second.Unobstructed := by
  rintro names fault ⟨above, name, entry, rfl, holds, obstructs⟩
  obtain ⟨counterpart, alsoHolds, same⟩ := relists.symm.entries.exists_holds holds
  rw [← relists.location_eq] at obstructs
  obtain ⟨other, alsoObstructs⟩ := obstructs.exists_of_relists relists.files.symm named same
  exact opens _ other ⟨above, name, counterpart, rfl, alsoHolds, alsoObstructs⟩

private theorem Finds.of_relists (finds : first.Finds found) (relists : first.Relists second)
    (named : first.files.WellNamed) : second.Finds found := by
  refine ⟨fun names certificates => ?_, finds.ascending⟩
  rw [finds.complete]
  constructor
  · exact fun bears => bears.of_relists relists named
  · exact fun bears => bears.of_relists relists.symm (relists.files.wellNamed named)

private theorem Readable.exists_relists {listed : FileTree} (readable : directory.Readable)
    (relists : directory.files.Relists listed) :
    ∃ other : Directory, other.files = listed ∧ directory.Relists other ∧ other.Readable := by
  obtain ⟨entries, opened, same, -⟩ := relists.exists_list readable.named readable.listed
  have other : directory.Relists ⟨listed, directory.path, entries⟩ := ⟨relists, rfl, same⟩
  have named := relists.wellNamed readable.named
  exact ⟨_, rfl, other, named, opened, readable.opens.of_relists other named⟩

end Directory

/-! ## Entries without certificates -/

/-- Entries in which there are no certificates: links to directories, files of other names, and
files whose sections cannot be read or are no certificates. -/
inductive Idle (files : FileTree) (path name : String) : FileTree → Prop
  | linkedDirectory (target : String) {place : FileTree.Place}
      (resolved : files.resolve path = .ok place) (isDirectory : place.here.isDirectory = true) :
      Idle files path name (.link target)
  | otherName {entry : FileTree} (isNoDirectory : ∀ entries, entry ≠ .directory entries)
      (unnamed : isCertificateName name = false) : Idle files path name entry
  | unreadable {entry : FileTree} {content : Octets} (leads : Leads files path entry content)
      (sections : Pem.certificates? content = none) : Idle files path name entry
  | invalid {entry : FileTree} (shows : Shows files path name entry []) :
      Idle files path name entry

private theorem Idle.eq_nil_of_shows {files : FileTree} {path name : String} {entry : FileTree}
    {certificates : List Certificate} (idle : Idle files path name entry)
    (shows : Shows files path name entry certificates) : certificates = [] := by
  cases idle with
  | invalid showsNone => exact shows.unique showsNone
  | otherName _ unnamed => cases unnamed.symm.trans shows.1
  | unreadable leads sections =>
      obtain ⟨-, content, encodings, alsoLeads, alsoSections, -⟩ := shows
      obtain rfl := leads.unique alsoLeads
      cases sections.symm.trans alsoSections
  | linkedDirectory target resolved isDirectory =>
      obtain ⟨-, content, -, leads, -⟩ := shows
      cases leads with
      | link _ opened =>
          obtain ⟨above, isFile⟩ := FileTree.read_eq_ok_iff.mp opened
          obtain rfl := Except.ok.inj (resolved.symm.trans isFile)
          cases isDirectory

namespace Directory

variable {first second : Directory}

/-- Everything in the first directory and below it is a directory, is idle, or holds the same
certificates in the second one. -/
def KeptIn (first second : Directory) : Prop :=
  ∀ above name entry, FileTree.Holds first.entries above name entry →
    (∃ inner, entry = .directory inner) ∨
      Idle first.files (first.location above name) name entry ∨
      ∃ certificates, Shows first.files (first.location above name) name entry certificates ∧
        second.Bears (above ++ [name]) certificates

private theorem KeptIn.bears (kept : first.KeptIn second) {names : List String}
    {certificates : List Certificate} (bears : first.Bears names certificates)
    (holdsAny : certificates ≠ []) : second.Bears names certificates := by
  obtain ⟨above, name, entry, rfl, holds, shows⟩ := bears
  rcases kept above name entry holds with ⟨inner, rfl⟩ | idle | ⟨others, alsoShows, alsoBears⟩
  · exact absurd shows not_shows_directory
  · exact absurd (idle.eq_nil_of_shows shows) holdsAny
  · exact shows.unique alsoShows ▸ alsoBears

/-- Idle entries do not change what is found. -/
theorem Finds.certificates_eq {found others : Findings} (finds : first.Finds found)
    (alsoFinds : second.Finds others) (kept : first.KeptIn second) (back : second.KeptIn first) :
    found.certificates = others.certificates := by
  refine finds.ascending.certificates_eq alsoFinds.ascending fun names certificates holdsAny => ?_
  rw [finds.complete, alsoFinds.complete]
  exact ⟨fun bears => kept.bears bears holdsAny, fun bears => back.bears bears holdsAny⟩

end Directory

/-! ## Results -/

/-- Loading fails in this way if and only if there is nothing to load. -/
theorem exists_ofDirectory_eq_error_iff {files : FileTree} {path : String}
    {certificates : List Certificate}
    (loaded : load files path =
      if certificates = [] then .error (.noAuthorities path) else .ok certificates) :
    (∃ fault, ofDirectory files path = .error (.validatorUnavailable fault)) ↔
      certificates = [] := by
  constructor
  · rintro ⟨fault, failed⟩
    obtain ⟨trouble, isTrouble, -⟩ := ofDirectory_eq_error_iff.mp failed
    by_contra something
    rw [loaded, if_neg something] at isTrouble
    cases isTrouble
  · intro nothing
    rw [if_pos nothing] at loaded
    exact ⟨_, ofDirectory_eq_error_iff.mpr ⟨_, loaded, rfl⟩⟩

end TrustStore

namespace Sample

open TrustStore

/-- A directory that is alone in its tree. -/
def authoritiesWith (entries : List (String × FileTree)) : Directory :=
  ⟨.directory [("authorities", .directory entries)], "/authorities", entries⟩

/-- The file of an authority in a directory below, with a link to it and a link back. -/
def linked : Directory :=
  authoritiesWith
    [("v", .directory [("loop.pem", .link "/authorities"), ("V.crt", .file armoured)]),
      ("a.pem", .link "v/V.crt")]

/-- The same file in both places. -/
def copied : Directory :=
  authoritiesWith [("a.pem", .file armoured), ("v", .directory [("V.crt", .file armoured)])]

theorem shows_armoured {files : FileTree} {path name : String} {entry : FileTree}
    (leads : Leads files path entry armoured) (named : isCertificateName name = true) :
    Shows files path name entry (certificatesOfFile armoured) := by
  have isSome : (Pem.certificates? armoured).isSome = true := by decide +kernel
  obtain ⟨encodings, sections⟩ := Option.isSome_iff_exists.mp isSome
  refine ⟨named, armoured, encodings, leads, sections, ?_⟩
  rw [certificatesOfFile, sections]
  rfl

private theorem holds_linked {above : List String} {name : String} {entry : FileTree}
    (holds : FileTree.Holds linked.entries above name entry) :
    above = [] ∧ name = "v" ∧ (∃ inner, entry = .directory inner) ∨
      above = ["v"] ∧ name = "loop.pem" ∧ entry = .link "/authorities" ∨
      above = ["v"] ∧ name = "V.crt" ∧ entry = .file armoured ∨
      above = [] ∧ name = "a.pem" ∧ entry = .link "v/V.crt" := by
  simp only [linked, authoritiesWith, FileTree.holds_cons_iff, FileTree.not_holds_nil] at holds
  aesop

private theorem holds_copied {above : List String} {name : String} {entry : FileTree}
    (holds : FileTree.Holds copied.entries above name entry) :
    above = [] ∧ name = "v" ∧ (∃ inner, entry = .directory inner) ∨
      above = [] ∧ name = "a.pem" ∧ entry = .file armoured ∨
      above = ["v"] ∧ name = "V.crt" ∧ entry = .file armoured := by
  simp only [copied, authoritiesWith, FileTree.holds_cons_iff, FileTree.not_holds_nil] at holds
  aesop

private theorem leads_linked : Leads linked.files "/authorities/a.pem" (.link "v/V.crt") armoured :=
  .link _ rfl

private theorem resolve_linked : linked.files.resolve "/authorities/v/loop.pem" =
    .ok ⟨.directory linked.entries, [linked.files]⟩ := rfl

theorem readable_linked : linked.Readable where
  named := by simp [linked, authoritiesWith]
  listed := rfl
  opens := by
    rintro names fault ⟨above, name, entry, rfl, holds, obstructs⟩
    rcases holds_linked holds with
      ⟨rfl, rfl, _, rfl⟩ | ⟨rfl, rfl, rfl⟩ | ⟨rfl, rfl, rfl⟩ | ⟨rfl, rfl, rfl⟩
    · exact not_obstructs_directory rfl obstructs
    · exact not_obstructs_linkedDirectory resolve_linked rfl obstructs
    · exact (Leads.file armoured rfl).not_obstructs obstructs
    · exact leads_linked.not_obstructs obstructs

private theorem readable_copied : copied.Readable where
  named := by simp [copied, authoritiesWith]
  listed := rfl
  opens := by
    rintro names fault ⟨above, name, entry, rfl, holds, obstructs⟩
    rcases holds_copied holds with ⟨rfl, rfl, _, rfl⟩ | ⟨rfl, rfl, rfl⟩ | ⟨rfl, rfl, rfl⟩
    · exact not_obstructs_directory rfl obstructs
    · exact (Leads.file armoured rfl).not_obstructs obstructs
    · exact (Leads.file armoured rfl).not_obstructs obstructs

private theorem kept_linked : linked.KeptIn copied := by
  intro above name entry holds
  rcases holds_linked holds with
    ⟨-, -, _, rfl⟩ | ⟨rfl, rfl, rfl⟩ | ⟨rfl, rfl, rfl⟩ | ⟨rfl, rfl, rfl⟩
  · exact .inl ⟨_, rfl⟩
  · exact .inr (.inl (.linkedDirectory _ resolve_linked rfl))
  · refine .inr (.inr ⟨_, shows_armoured (.file _ rfl) (by decide), ["v"], "V.crt", _, rfl, ?_,
      shows_armoured (.file _ rfl) (by decide)⟩)
    simp [copied, authoritiesWith]
  · refine .inr (.inr ⟨_, shows_armoured leads_linked (by decide), [], "a.pem", _, rfl, ?_,
      shows_armoured (.file _ rfl) (by decide)⟩)
    simp [copied, authoritiesWith]

private theorem kept_copied : copied.KeptIn linked := by
  intro above name entry holds
  rcases holds_copied holds with ⟨-, -, _, rfl⟩ | ⟨rfl, rfl, rfl⟩ | ⟨rfl, rfl, rfl⟩
  · exact .inl ⟨_, rfl⟩
  · refine .inr (.inr ⟨_, shows_armoured (.file _ rfl) (by decide), [], "a.pem", _, rfl, ?_,
      shows_armoured leads_linked (by decide)⟩)
    simp [linked, authoritiesWith]
  · refine .inr (.inr ⟨_, shows_armoured (.file _ rfl) (by decide), ["v"], "V.crt", _, rfl, ?_,
      shows_armoured (.file _ rfl) (by decide)⟩)
    simp [linked, authoritiesWith]

end Sample

namespace TrustStore

/-- In whatever order the system lists the directories of a tree in which everything can be
opened, the certificates of a directory are loaded file by file in ascending order of paths, and
there being none is the one failure.  What holds no certificates may be added to the tree or
removed from it. -/
theorem load_settled {directory : Directory} (readable : directory.Readable) :
    (∃ found, directory.Finds found ∧
      ∀ listed, directory.files.Relists listed →
        (load listed directory.path =
          if found.certificates = [] then .error (.noAuthorities directory.path)
          else .ok found.certificates) ∧
        ((∃ fault, ofDirectory listed directory.path = .error (.validatorUnavailable fault)) ↔
          found.certificates = [])) ∧
    ∀ other : Directory, other.Readable → other.path = directory.path →
      directory.KeptIn other → other.KeptIn directory →
        load other.files other.path = load directory.files directory.path := by
  obtain ⟨found, finds, loaded⟩ := readable.exists_finds
  refine ⟨⟨found, finds, ?_⟩, ?_⟩
  · intro listed relists
    obtain ⟨other, rfl, toOther, otherReadable⟩ := readable.exists_relists relists
    obtain ⟨others, otherFinds, otherLoaded⟩ := otherReadable.exists_finds
    obtain rfl := (finds.of_relists toOther readable.named).unique otherFinds
    rw [← toOther.path] at otherLoaded
    exact ⟨otherLoaded, exists_ofDirectory_eq_error_iff otherLoaded⟩
  · intro other otherReadable samePath kept back
    obtain ⟨others, otherFinds, otherLoaded⟩ := otherReadable.exists_finds
    rw [otherLoaded, loaded, samePath, finds.certificates_eq otherFinds kept back]

/-- A link back to the directory and a link in place of a file make no difference. -/
theorem load_settled_of_loop :
    Sample.linked.Readable ∧ Sample.copied.Readable ∧ Sample.linked.KeptIn Sample.copied ∧
      Sample.copied.KeptIn Sample.linked ∧
      load Sample.copied.files "/authorities" = load Sample.linked.files "/authorities" :=
  ⟨Sample.readable_linked, Sample.readable_copied, Sample.kept_linked, Sample.kept_copied,
    (load_settled Sample.readable_linked).2 Sample.copied Sample.readable_copied rfl
      Sample.kept_linked Sample.kept_copied⟩

end TrustStore

end GridSecurity
