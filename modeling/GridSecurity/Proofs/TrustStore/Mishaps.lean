import GridSecurity.Proofs.TrustStore.Loading
import GridSecurity.Proofs.TrustStore.Upkeep

/-!
# What keeps a directory from being loaded

A file that can be opened holds the certificates that can be read in it, or none.  A directory
below that cannot be listed and a certificate file that cannot be opened end the whole load, and
with it go the certificates of all other files.
-/

namespace GridSecurity

namespace TrustStore

variable {files : FileTree} {path name : String} {entry : FileTree} {fault : IoFault}

/-! ## Entries that end the load -/

private theorem certificatesOfEntry_of_unseen (opened : IsOpened name entry)
    (unseen : FileTree.pathFault? (FileTree.join path name) = some fault) :
    certificatesOfEntry files path name entry = .error fault := by
  cases entry with
  | file content =>
      rw [certificatesOfEntry]
      exact (if_pos opened).trans (FileTree.openAt_of_some unseen)
  | link target =>
      rw [certificatesOfEntry, FileTree.resolve_of_some unseen]
      exact if_pos opened
  | directory inner =>
      rw [certificatesOfEntry]
      exact FileTree.openAt_of_some unseen
  | barred isDirectory reason =>
      rw [certificatesOfEntry]
      exact (if_pos opened).trans (FileTree.openAt_of_some unseen)

private theorem certificatesOfEntry_of_obstructs
    (obstructs : Obstructs files (FileTree.join path name) name entry fault) :
    certificatesOfEntry files path name entry = .error fault := by
  cases obstructs with
  | path opened unseen => exact certificatesOfEntry_of_unseen opened unseen
  | barred opened seen =>
      rw [certificatesOfEntry]
      exact (if_pos opened).trans (FileTree.openAt_of_none seen)
  | link named target resolved =>
      rw [certificatesOfEntry, resolved]
      exact if_pos named
  | astray named target failed =>
      rw [certificatesOfEntry, failed]
      exact if_pos named

/-! ## Lists of entries -/

private theorem certificatesOfEntries_eq_map (entries : List (String × FileTree)) :
    certificatesOfEntries files path entries =
      entries.map fun item => (item.1, certificatesOfEntry files path item.1 item.2) := by
  induction entries with
  | nil => rfl
  | cons item rest induction =>
      rw [certificatesOfEntries, induction]
      rfl

section Found

variable {found : List (String × Except IoFault (List Certificate))}
  {item : String × Except IoFault (List Certificate)} {certificates : List Certificate}

private theorem exists_ok_of_inNameOrder (computed : inNameOrder found = .ok certificates)
    (member : item ∈ found) : ∃ held, item.2 = .ok held := by
  obtain ⟨lists, all, -⟩ := bind_eq_ok_iff.mp computed
  obtain ⟨held, -, isHeld⟩ := exists_mem_of_forall₂ (mapM_eq_ok_iff.mp all).flip
    (List.mem_mergeSort.mpr member)
  exact ⟨held, isHeld⟩

/-- What fails first in the order of names is what the whole fails with. -/
private theorem exists_first_of_inNameOrder (distinct : (found.map Prod.fst).Nodup)
    (failed : inNameOrder found = .error fault) :
    ∃ item ∈ found, item.2 = .error fault ∧
      ∀ other ∈ found,
        other = item ∨ (∃ held, other.2 = .ok held) ∨ NamePrecedes item.1 other.1 := by
  have first : (found.mergeSort nameOrder).mapM Prod.snd = .error fault := by
    rcases bind_eq_error_iff.mp failed with all | ⟨_, _, isError⟩
    · exact all
    · cases isError
  obtain ⟨front, item, back, cut, fails, before⟩ := exists_of_mapM_eq_error first
  have ordered := pairwise_mergeSort_nameOrder distinct
  rw [cut, List.pairwise_append, List.pairwise_cons] at ordered
  have among (other) : other ∈ found ↔ other ∈ front ++ item :: back := by
    rw [← cut, List.mem_mergeSort]
  refine ⟨item, (among item).mpr (List.mem_append_right _ List.mem_cons_self), fails, ?_⟩
  intro other member
  rcases List.mem_append.mp ((among other).mp member) with inFront | (_ | ⟨_, inBack⟩)
  · exact .inr (.inl (before other inFront))
  · exact .inl rfl
  · exact .inr (.inr (ordered.2.1.1 other inBack))

end Found

namespace Directory

variable {directory : Directory}

/-- The fault is that of the first entry, in the order of paths, that ought to be opened and
cannot be. -/
def Fails (directory : Directory) (fault : IoFault) : Prop :=
  ∃ names, directory.IsObstructed names fault ∧
    ∀ others other, directory.IsObstructed others other → ¬ Precedes others names

/-- Whether an entry can be loaded is settled by whether everything in it can be opened. -/
structure Settles (directory : Directory) (outcome : Except IoFault (List Certificate)) : Prop where
  opens : ∀ certificates, outcome = .ok certificates → directory.Unobstructed
  fails : ∀ fault, outcome = .error fault →
    (FileTree.directory directory.entries).WellNamed → directory.Fails fault

/-- What stands in front of everything below it fails first. -/
theorem settles_of_obstructs
    (obstructs : Obstructs directory.files (directory.location [] name) name entry fault) :
    (directory.only name entry).Settles
      (certificatesOfEntry directory.files directory.path name entry) := by
  have failed := certificatesOfEntry_of_obstructs obstructs
  constructor
  · intro certificates computed
    cases failed.symm.trans computed
  · intro other alsoFailed _
    obtain rfl := Except.error.inj (failed.symm.trans alsoFailed)
    refine ⟨[name], has_only_iff.mpr (.inl ⟨rfl, obstructs⟩), ?_⟩
    intro names another obstructed before
    obtain ⟨rest, rfl⟩ := exists_cons_of_has_only obstructed
    cases precedes_cons_iff.mp before

private theorem settles_of_ne_directory (isNoDirectory : ∀ inner, entry ≠ .directory inner) :
    (directory.only name entry).Settles
      (certificatesOfEntry directory.files directory.path name entry) := by
  by_cases obstructed : ∃ fault,
      Obstructs directory.files (directory.location [] name) name entry fault
  · obtain ⟨fault, obstructs⟩ := obstructed
    exact settles_of_obstructs obstructs
  · have opens : (directory.only name entry).Unobstructed := by
      intro names fault isObstructed
      rcases has_only_iff.mp isObstructed with ⟨-, obstructs⟩ | ⟨inner, _, isDirectory, _⟩
      · exact obstructed ⟨fault, obstructs⟩
      · exact isNoDirectory inner isDirectory
    obtain ⟨found, computed, -⟩ := exists_gathers_of_ne_directory isNoDirectory opens
    constructor
    · exact fun _ _ => opens
    · intro fault failed
      cases computed.symm.trans failed

/-- What settles the entries of a directory settles the directory. -/
theorem settles_of_items (items : ∀ item ∈ directory.entries,
      (directory.only item.1 item.2).Settles
        (certificatesOfEntry directory.files directory.path item.1 item.2)) :
    directory.Settles
      (inNameOrder (certificatesOfEntries directory.files directory.path directory.entries)) := by
  rw [certificatesOfEntries_eq_map]
  constructor
  · intro certificates computed names fault obstructed
    obtain ⟨item, member, obstructs⟩ := has_iff_exists.mp obstructed
    obtain ⟨held, isHeld⟩ := exists_ok_of_inNameOrder computed (List.mem_map_of_mem member)
    exact (items item member).opens held isHeld names fault obstructs
  · intro fault failed named
    have distinct : ((directory.entries.map fun item =>
        (item.1, certificatesOfEntry directory.files directory.path item.1 item.2)).map
          Prod.fst).Nodup := by
      rw [List.map_map]
      exact named.distinct
    obtain ⟨_, isMapped, fails, first⟩ := exists_first_of_inNameOrder distinct failed
    obtain ⟨item, member, rfl⟩ := List.mem_map.mp isMapped
    have itemNamed : (FileTree.directory (directory.only item.1 item.2).entries).WellNamed :=
      .directory (List.nodup_singleton _) (List.forall_mem_singleton.mpr (named.of_mem member))
    obtain ⟨names, obstructed, least⟩ := (items item member).fails fault fails itemNamed
    refine ⟨names, has_iff_exists.mpr ⟨item, member, obstructed⟩, ?_⟩
    intro others other alsoObstructed
    obtain ⟨another, anotherMember, obstructs⟩ := has_iff_exists.mp alsoObstructed
    obtain ⟨rest, rfl⟩ := exists_cons_of_has_only obstructed
    obtain ⟨otherRest, rfl⟩ := exists_cons_of_has_only obstructs
    rcases first _ (List.mem_map_of_mem anotherMember) with same | ⟨held, isHeld⟩ | behind
    -- Entries are told apart by their names.
    · obtain rfl : another = item :=
        List.inj_on_of_nodup_map named.distinct anotherMember member (Prod.mk.inj same).1
      exact least _ other obstructs
    · exact absurd obstructs ((items another anotherMember).opens held isHeld _ other)
    · exact fun before => before.asymm (.rel behind)

theorem Settles.inner {inner : List (String × FileTree)}
    {outcome : Except IoFault (List Certificate)}
    (settles : (directory.inner name inner).Settles outcome)
    (seen : FileTree.pathFault? (directory.location [] name) = none) :
    (directory.only name (.directory inner)).Settles outcome := by
  have below {names : List String} {fault : IoFault}
      (obstructed : (directory.only name (.directory inner)).IsObstructed names fault) :
      ∃ rest, names = name :: rest ∧ (directory.inner name inner).IsObstructed rest fault := by
    rcases has_only_iff.mp obstructed with ⟨-, obstructs⟩ | ⟨_, rest, same, rfl, within⟩
    · exact absurd obstructs (not_obstructs_directory seen)
    · cases same
      exact ⟨rest, rfl, within⟩
  constructor
  · intro certificates computed names fault obstructed
    obtain ⟨rest, -, within⟩ := below obstructed
    exact settles.opens certificates computed rest fault within
  · intro fault failed named
    obtain ⟨rest, obstructed, least⟩ :=
      settles.fails fault failed (named.of_mem List.mem_cons_self)
    refine ⟨name :: rest, has_only_iff.mpr (.inr ⟨inner, rest, rfl, rfl, obstructed⟩), ?_⟩
    intro others other alsoObstructed
    obtain ⟨otherRest, rfl, within⟩ := below alsoObstructed
    exact fun before => least otherRest other within (precedes_cons_iff.mp before)

theorem settles_only (entry : FileTree) (directory : Directory) (name : String) :
    (directory.only name entry).Settles
      (certificatesOfEntry directory.files directory.path name entry) := by
  induction entry using FileTree.induction generalizing directory name with
  | file | link | barred =>
      refine settles_of_ne_directory ?_
      intro inner isDirectory
      cases isDirectory
  | directory inner induction =>
      cases seen : FileTree.pathFault? (directory.location [] name) with
      | some fault => exact settles_of_obstructs (.path rfl seen)
      | none =>
          have opened : certificatesOfEntry directory.files directory.path name (.directory inner) =
              inNameOrder (certificatesOfEntries directory.files
                (directory.inner name inner).path inner) := by
            rw [certificatesOfEntry]
            exact FileTree.openAt_of_none seen
          rw [opened]
          refine Settles.inner (settles_of_items ?_) seen
          exact fun item member => induction item member (directory.inner name inner) item.1

theorem settles (directory : Directory) :
    directory.Settles
      (inNameOrder (certificatesOfEntries directory.files directory.path directory.entries)) :=
  settles_of_items fun item _ => settles_only item.2 directory item.1

section Load

variable {names : List String} {certificates authorities : List Certificate}
  {certificate : Certificate} {trouble : TrustFault}

private theorem unobstructed_of_load
    (listed : directory.files.list directory.path = .ok directory.entries)
    (loaded : load directory.files directory.path = .ok authorities) :
    directory.Unobstructed := by
  cases outcome :
      inNameOrder (certificatesOfEntries directory.files directory.path directory.entries) with
  | ok certificates => exact directory.settles.opens certificates outcome
  | error fault => cases (load_of_error listed outcome).symm.trans loaded

/-- A certificate in the directory is loaded if and only if everything in the directory can be
opened. -/
theorem Bears.exists_load_iff (bears : directory.Bears names certificates)
    (member : certificate ∈ certificates)
    (listed : directory.files.list directory.path = .ok directory.entries) :
    (∃ authorities, load directory.files directory.path = .ok authorities ∧
      certificate ∈ authorities) ↔ directory.Unobstructed := by
  constructor
  · rintro ⟨authorities, loaded, -⟩
    exact unobstructed_of_load listed loaded
  · intro opens
    obtain ⟨found, computed, gathers⟩ := opens.exists_gathers
    have isFound : certificate ∈ found.certificates :=
      List.mem_flatMap.mpr ⟨_, (gathers.complete _ _).mpr bears, member⟩
    refine ⟨_, ?_, isFound⟩
    rw [load_of_ok listed computed, if_neg (List.ne_nil_of_mem isFound)]

/-- A load that fails although there is a certificate fails for the first thing that cannot be
opened. -/
theorem Bears.exists_fails (bears : directory.Bears names certificates)
    (member : certificate ∈ certificates) (named : directory.files.WellNamed)
    (listed : directory.files.list directory.path = .ok directory.entries)
    (failed : load directory.files directory.path = .error trouble) :
    ∃ fault, directory.Fails fault ∧ trouble = .unreadableDirectory directory.path fault := by
  cases outcome :
      inNameOrder (certificatesOfEntries directory.files directory.path directory.entries) with
  | ok found =>
      have opens := directory.settles.opens found outcome
      obtain ⟨authorities, loaded, -⟩ := (bears.exists_load_iff member listed).mpr opens
      cases failed.symm.trans loaded
  | error fault =>
      refine ⟨fault, directory.settles.fails fault outcome (wellNamed_of_list named listed), ?_⟩
      exact Except.error.inj (failed.symm.trans (load_of_error listed outcome))

end Load

end Directory

/-! ## Stores -/

section Stores

variable {certificate : Certificate}

theorem exists_ofDirectory_iff :
    (∃ store, ofDirectory files path = .ok store ∧ certificate ∈ store.authorities) ↔
      ∃ authorities, load files path = .ok authorities ∧ certificate ∈ authorities := by
  simp only [ofDirectory_eq_ok_iff]
  constructor
  · rintro ⟨_, ⟨authorities, loaded, rfl⟩, member⟩
    exact ⟨authorities, loaded, member⟩
  · rintro ⟨authorities, loaded, member⟩
    exact ⟨_, ⟨authorities, loaded, rfl⟩, member⟩

theorem exists_reload_iff {store : TrustStore} (opened : store.directory = some path) :
    (∃ count, (store.reload files).1 = .ok count ∧
      certificate ∈ (store.reload files).2.authorities) ↔
      ∃ authorities, load files path = .ok authorities ∧ certificate ∈ authorities := by
  cases outcome : load files path with
  | ok authorities => simp [reload_of_ok opened outcome]
  | error trouble => simp [reload_of_error opened outcome]

end Stores

end TrustStore

namespace Sample

open TrustStore

/-- A link that leads nowhere, next to the file of an authority. -/
def astray : Directory := authoritiesWith [("V.pem", .file armoured), ("b.pem", .link "nowhere")]

private theorem exists_mem_armoured : ∃ certificate, certificate ∈ certificatesOfFile armoured := by
  have isSome : (certificatesOfFile armoured).head?.isSome = true := by decide +kernel
  obtain ⟨certificate, first⟩ := Option.isSome_iff_exists.mp isSome
  exact ⟨certificate, List.mem_of_head? first⟩

private theorem bears_astray : astray.Bears ["V.pem"] (certificatesOfFile armoured) :=
  ⟨[], "V.pem", _, rfl, .here List.mem_cons_self, shows_armoured (.file _ rfl) (by decide)⟩

private theorem bears_linked : linked.Bears ["v", "V.crt"] (certificatesOfFile armoured) :=
  ⟨["v"], "V.crt", _, rfl, .inside List.mem_cons_self (.here (by simp)),
    shows_armoured (.file _ rfl) (by decide)⟩

private theorem resolve_astray : astray.files.resolve "/authorities/b.pem" = .error .notFound := rfl

private theorem eq_notFound_of_astray {names : List String} {fault : IoFault}
    (obstructed : astray.IsObstructed names fault) : fault = .notFound := by
  obtain ⟨above, name, entry, rfl, holds, obstructs⟩ := obstructed
  simp only [astray, authoritiesWith, FileTree.holds_cons_iff, FileTree.not_holds_nil] at holds
  rcases holds with ⟨rfl, rfl, rfl⟩ | ⟨_, _, isDirectory, -⟩ | ⟨rfl, rfl, rfl⟩ | last
  · exact absurd obstructs (Leads.file armoured rfl).not_obstructs
  · cases isDirectory
  · cases obstructs with
    | path _ unseen =>
        have failed : astray.files.resolve "/authorities/b.pem" = .error fault :=
          FileTree.resolve_of_some unseen
        exact (Except.error.inj (resolve_astray.symm.trans failed)).symm
    | link _ _ resolved => cases resolve_astray.symm.trans resolved
    | astray _ _ failed => exact (Except.error.inj (resolve_astray.symm.trans failed)).symm
  · rcases last with ⟨_, _, isDirectory, -⟩ | nothing
    · cases isDirectory
    · cases nothing

private theorem load_astray : load astray.files "/authorities" =
    .error (.unreadableDirectory "/authorities" .notFound) := by
  cases outcome : load astray.files "/authorities" with
  | ok authorities =>
      have holds : FileTree.Holds astray.entries [] "b.pem" (.link "nowhere") :=
        .here (by simp [astray, authoritiesWith])
      exact absurd ⟨[], "b.pem", _, rfl, holds, .astray (by decide) _ resolve_astray⟩
        (Directory.unobstructed_of_load rfl outcome ["b.pem"] .notFound)
  | error trouble =>
      obtain ⟨certificate, member⟩ := exists_mem_armoured
      have named : astray.files.WellNamed := by simp [astray, authoritiesWith]
      obtain ⟨fault, ⟨names, obstructed, -⟩, rfl⟩ :=
        bears_astray.exists_fails member named rfl outcome
      rw [eq_notFound_of_astray obstructed]
      rfl

end Sample

namespace TrustStore

/-! ## Results -/

/-- A directory in which there is a certificate is loaded with it, when the store is opened and
when it is loaded anew, if and only if all directories below it can be listed and all certificate
files can be opened.  Otherwise the load fails for the first of them, in the order of paths, for
which this is not so. -/
theorem includes_iff_unobstructed {directory : Directory} {names : List String}
    {certificates : List Certificate} {certificate : Certificate}
    (listed : directory.files.list directory.path = .ok directory.entries)
    (bears : directory.Bears names certificates) (member : certificate ∈ certificates) :
    ((∃ store, ofDirectory directory.files directory.path = .ok store ∧
        certificate ∈ store.authorities) ↔ directory.Unobstructed) ∧
    (∀ store : TrustStore, store.directory = some directory.path →
      ((∃ count, (store.reload directory.files).1 = .ok count ∧
        certificate ∈ (store.reload directory.files).2.authorities) ↔ directory.Unobstructed)) ∧
    (directory.files.WellNamed →
      ∀ error, ofDirectory directory.files directory.path = .error error →
        ∃ fault, directory.Fails fault ∧
          error = .validatorUnavailable (.unreadableDirectory directory.path fault)) := by
  have loads := bears.exists_load_iff member listed
  refine ⟨exists_ofDirectory_iff.trans loads, ?_, ?_⟩
  · exact fun store known => (exists_reload_iff known).trans loads
  · intro named error failed
    obtain ⟨trouble, loadFailed, rfl⟩ := ofDirectory_eq_error_iff.mp failed
    obtain ⟨fault, fails, rfl⟩ := bears.exists_fails member named listed loadFailed
    exact ⟨fault, fails, rfl⟩

theorem includes_iff_unobstructed_of_loop :
    ∃ certificate, Sample.linked.Bears ["v", "V.crt"] (certificatesOfFile Sample.armoured) ∧
      certificate ∈ certificatesOfFile Sample.armoured ∧
      Sample.linked.files.list "/authorities" = .ok Sample.linked.entries ∧
      ∃ store, ofDirectory Sample.linked.files "/authorities" = .ok store ∧
        certificate ∈ store.authorities := by
  obtain ⟨certificate, member⟩ := Sample.exists_mem_armoured
  exact ⟨certificate, Sample.bears_linked, member, Sample.readable_linked.listed,
    (includes_iff_unobstructed Sample.readable_linked.listed Sample.bears_linked member).1.mpr
      Sample.readable_linked.opens⟩

/-- A link that leads nowhere costs an authority in another file. -/
theorem lost_of_astray :
    ∃ certificate, Sample.astray.files.list "/authorities" = .ok Sample.astray.entries ∧
      Sample.astray.Bears ["V.pem"] (certificatesOfFile Sample.armoured) ∧
      certificate ∈ certificatesOfFile Sample.armoured ∧
      ofDirectory Sample.astray.files "/authorities" =
        .error (.validatorUnavailable (.unreadableDirectory "/authorities" .notFound)) ∧
      ((⟨some "/authorities", [certificate]⟩ : TrustStore).reload Sample.astray.files).1 =
        .error (.validatorUnavailable (.unreadableDirectory "/authorities" .notFound)) := by
  obtain ⟨certificate, member⟩ := Sample.exists_mem_armoured
  refine ⟨certificate, rfl, Sample.bears_astray, member, ?_, ?_⟩
  · exact ofDirectory_eq_error_iff.mpr ⟨_, Sample.load_astray, rfl⟩
  · rw [reload_of_error rfl Sample.load_astray]

end TrustStore

end GridSecurity
