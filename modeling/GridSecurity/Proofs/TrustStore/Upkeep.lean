import GridSecurity.Proofs.Authorization
import GridSecurity.TrustStore.Upkeep

/-!
# A store keeps its latest successful load

While others change its files, a store is loaded anew on request and at the ends of
periods.  A load that succeeds replaces all authorities at once, and one that fails,
however far it got, replaces none.  So the authorities in force are always those of
the latest successful load, and a snapshot of them is not touched by later loads.
-/

namespace GridSecurity

namespace TrustStore

variable {store : TrustStore} {files : FileTree} {path : String}

private theorem ne_nil_of_load {authorities : List Certificate}
    (loaded : load files path = .ok authorities) : authorities ≠ [] := by
  unfold load at loaded
  dsimp only at loaded
  split at loaded
  · cases loaded
  · cases loaded
  · next found noneFound _ =>
      obtain rfl := Except.ok.inj loaded
      exact noneFound

theorem reload_of_error (opened : store.directory = some path) {fault : TrustFault}
    (failed : load files path = .error fault) :
    store.reload files = (.error (.validatorUnavailable fault), store) := by
  unfold reload
  rw [opened]
  dsimp only
  rw [failed]

theorem reload_of_ok (opened : store.directory = some path) {authorities : List Certificate}
    (loaded : load files path = .ok authorities) :
    store.reload files = (.ok authorities.length, ⟨some path, authorities⟩) := by
  unfold reload
  rw [opened]
  dsimp only
  rw [loaded]

/-- A store whose authorities were given has nothing to load. -/
theorem reload_of_given (given : store.directory = none) :
    store.reload files = (.ok store.authorities.length, store) := by
  unfold reload
  rw [given]

end TrustStore

/-! ## One event -/

/-- What happens to a store and around it. -/
inductive UpkeepEvent
  | changeFiles (change : FileTree → FileTree)
  | reload
  | startRefresh (period : Nat)
  | stopRefresh
  | advance (milliseconds : Nat)
  /-- Somebody takes a snapshot of the authorities in force. -/
  | takeSnapshot

namespace Upkeep

/-- An event loads the store: somebody asks for it, or the period of a refresh
ends. -/
def loadsAt (upkeep : Upkeep) : UpkeepEvent → Bool
  | .reload => true
  | .advance milliseconds =>
      upkeep.refreshes.any fun refresh =>
        refresh.isDue upkeep.now (upkeep.now + milliseconds)
  | _ => false

/-- The outcome of the load that an event causes.  It is returned to whoever asked
for the load, and a refresh that fails logs it. -/
def outcomeOf (upkeep : Upkeep) (event : UpkeepEvent) : Option (Except SecurityError Nat) :=
  if upkeep.loadsAt event then upkeep.reload.1 else none

def after (upkeep : Upkeep) : UpkeepEvent → Upkeep
  | .changeFiles change => upkeep.changeFiles change
  | .reload => upkeep.reload.2
  | .startRefresh period => (upkeep.startRefresh period).2
  | .stopRefresh => upkeep.stopRefresh
  | .advance milliseconds => upkeep.advance milliseconds
  | .takeSnapshot => upkeep

variable {upkeep : Upkeep} {store : TrustStore}

private theorem reload_eq (inForce : upkeep.store = some store) :
    upkeep.reload =
      (some (store.reload upkeep.files).1,
        { upkeep with store := some (store.reload upkeep.files).2 }) := by
  unfold reload
  rw [inForce]

/-- Whatever an event is, it changes the store by a load or not at all. -/
theorem store_after (inForce : upkeep.store = some store) (event : UpkeepEvent) :
    (upkeep.after event).store =
      some (if upkeep.loadsAt event then (store.reload upkeep.files).2 else store) := by
  cases event with
  | changeFiles change => exact inForce
  | reload =>
      show upkeep.reload.2.store = _
      rw [reload_eq inForce]
      rfl
  | startRefresh period =>
      show (upkeep.startRefresh period).2.store = _
      unfold startRefresh
      rw [inForce]
      rfl
  | stopRefresh => exact inForce
  | advance milliseconds =>
      -- The time at which files are loaded does not matter for what is loaded.
      have moved : ({ upkeep with now := upkeep.now + milliseconds } : Upkeep).store =
          some store := inForce
      show (upkeep.advance milliseconds).store = _
      unfold advance loadsAt
      dsimp only
      split
      · rw [reload_eq moved]
      · exact inForce
  | takeSnapshot => exact inForce

/-- What an event does to the store of a directory: it loads nothing, it fails to
load anything, or it replaces the authorities by what it loaded. -/
inductive Effect (upkeep : Upkeep) (path : String) (event : UpkeepEvent) : Prop
  | quiet (notLoaded : upkeep.loadsAt event = false)
      (untold : upkeep.outcomeOf event = none)
      (kept : (upkeep.after event).store = upkeep.store)
  | failing {fault : TrustFault} (isLoaded : upkeep.loadsAt event = true)
      (failed : TrustStore.load upkeep.files path = .error fault)
      (told : upkeep.outcomeOf event = some (.error (.validatorUnavailable fault)))
      (kept : (upkeep.after event).store = upkeep.store)
  | replacing {loaded : List Certificate} (isLoaded : upkeep.loadsAt event = true)
      (succeeded : TrustStore.load upkeep.files path = .ok loaded)
      (told : upkeep.outcomeOf event = some (.ok loaded.length))
      (replaced : (upkeep.after event).store = some ⟨some path, loaded⟩)

private theorem effect_of_directory {path : String} {authorities : List Certificate}
    (inForce : upkeep.store = some ⟨some path, authorities⟩) (event : UpkeepEvent) :
    upkeep.Effect path event := by
  have told : upkeep.outcomeOf event = if upkeep.loadsAt event then
      some (TrustStore.reload upkeep.files ⟨some path, authorities⟩).1 else none := by
    unfold outcomeOf
    rw [reload_eq inForce]
  have left := store_after inForce event
  cases loads : upkeep.loadsAt event with
  | false =>
      rw [loads, if_neg Bool.false_ne_true] at told left
      exact .quiet loads told (left.trans inForce.symm)
  | true =>
      rw [loads, if_pos rfl] at told left
      cases outcome : TrustStore.load upkeep.files path with
      | error fault =>
          rw [TrustStore.reload_of_error rfl outcome] at told left
          exact .failing loads outcome told (left.trans inForce.symm)
      | ok loaded =>
          rw [TrustStore.reload_of_ok rfl outcome] at told left
          exact .replacing loads outcome told left

private theorem store_after_of_given (inForce : upkeep.store = some store)
    (given : store.directory = none) (event : UpkeepEvent) :
    (upkeep.after event).store = some store := by
  rw [store_after inForce event, TrustStore.reload_of_given given, ite_self]

end Upkeep

/-! ## Many events -/

/-- A store in use, with the snapshots that were taken of it, the latest first. -/
structure Watch where
  upkeep : Upkeep
  snapshots : List (List Certificate) := []

namespace Watch

def step (watch : Watch) (event : UpkeepEvent) : Watch where
  upkeep := watch.upkeep.after event
  snapshots :=
    match event with
    | .takeSnapshot =>
        (watch.upkeep.store.map (·.authorities)).toList ++ watch.snapshots
    | _ => watch.snapshots

def run (watch : Watch) (events : List UpkeepEvent) : Watch := events.foldl step watch

/-- What the successful loads of a directory gave that events caused, the earliest
first. -/
def loads (path : String) (watch : Watch) : List UpkeepEvent → List (List Certificate)
  | [] => []
  | event :: events =>
      (if watch.upkeep.loadsAt event then
        (TrustStore.load watch.upkeep.files path).toOption.toList else [])
        ++ loads path (watch.step event) events

/-- After events, a directory that was opened with the given authorities is in force
as it was loaded last, and so it is before every event that comes next. -/
structure KeepsLatestLoad (path : String) (opened : List Certificate) (watch : Watch)
    (events : List UpkeepEvent) : Prop where
  latest : ∃ authorities,
    (opened :: watch.loads path events).getLast? = some authorities ∧
    (watch.run events).upkeep.store = some ⟨some path, authorities⟩ ∧ authorities ≠ []
  next : ∀ event, (watch.run events).upkeep.Effect path event
  snapshotsLoaded : ∀ snapshot ∈ (watch.run events).snapshots,
    snapshot ∈ watch.snapshots ∨ snapshot ∈ opened :: watch.loads path events
  snapshotsKept : ∀ later,
    (watch.run events).snapshots <:+ (watch.run (events ++ later)).snapshots

variable {watch : Watch} {path : String} {opened : List Certificate}

private theorem loads_cons (path : String) (watch : Watch) (event : UpkeepEvent)
    (events : List UpkeepEvent) :
    watch.loads path (event :: events) =
      (if watch.upkeep.loadsAt event then
        (TrustStore.load watch.upkeep.files path).toOption.toList else [])
        ++ (watch.step event).loads path events := rfl

private theorem ne_nil_of_mem_loads {events : List UpkeepEvent} {loaded : List Certificate}
    (member : loaded ∈ watch.loads path events) : loaded ≠ [] := by
  induction events generalizing watch with
  | nil => cases member
  | cons event events induction =>
      rcases List.mem_append.mp member with now | later
      · split at now
        · have succeeded := Option.mem_toList.mp now
          exact TrustStore.ne_nil_of_load (toOption_eq_some_iff.mp succeeded)
        · cases now
      · exact induction later

/-- An event leaves authorities in force that either were so before or were loaded
by it. -/
theorem exists_step (inForce : watch.upkeep.store = some ⟨some path, opened⟩)
    (event : UpkeepEvent) (events : List UpkeepEvent) :
    ∃ inForceAfter, (watch.step event).upkeep.store = some ⟨some path, inForceAfter⟩ ∧
      ∃ before, opened :: watch.loads path (event :: events) =
        before ++ inForceAfter :: (watch.step event).loads path events := by
  rw [loads_cons]
  cases Upkeep.effect_of_directory inForce event with
  | quiet notLoaded _ kept =>
      rw [notLoaded]
      exact ⟨opened, kept.trans inForce, [], rfl⟩
  | failing isLoaded failed _ kept =>
      rw [isLoaded, failed]
      exact ⟨opened, kept.trans inForce, [], rfl⟩
  | replacing isLoaded succeeded _ replaced =>
      rw [isLoaded, succeeded]
      exact ⟨_, replaced, [opened], rfl⟩

theorem store_run (inForce : watch.upkeep.store = some ⟨some path, opened⟩)
    (events : List UpkeepEvent) :
    ∃ latest, (opened :: watch.loads path events).getLast? = some latest ∧
      (watch.run events).upkeep.store = some ⟨some path, latest⟩ := by
  -- Whatever is in force after an event plays the part of the opened authorities.
  induction events generalizing watch opened with
  | nil => exact ⟨opened, rfl, inForce⟩
  | cons event events induction =>
      obtain ⟨_, inForceAfter, before, whole⟩ := exists_step inForce event events
      obtain ⟨latest, isLast, left⟩ := induction inForceAfter
      refine ⟨latest, ?_, left⟩
      rw [whole, List.getLast?_append, isLast]
      rfl

/-- No event touches a snapshot that was taken before. -/
theorem snapshots_suffix_run (watch : Watch) (events : List UpkeepEvent) :
    watch.snapshots <:+ (watch.run events).snapshots := by
  induction events generalizing watch with
  | nil => exact List.suffix_refl _
  | cons event events induction =>
      have step : watch.snapshots <:+ (watch.step event).snapshots := by
        cases event with
        | takeSnapshot => exact List.suffix_append _ _
        | _ => exact List.suffix_refl _
      exact step.trans (induction (watch.step event))

private theorem mem_snapshots_step (inForce : watch.upkeep.store = some ⟨some path, opened⟩)
    {event : UpkeepEvent} {snapshot : List Certificate}
    (member : snapshot ∈ (watch.step event).snapshots) :
    snapshot ∈ watch.snapshots ∨ snapshot = opened := by
  cases event with
  | takeSnapshot =>
      unfold step at member
      rw [inForce] at member
      exact (List.mem_cons.mp member).symm
  | _ => exact .inl member

private theorem mem_loads_of_mem_snapshots (inForce : watch.upkeep.store = some ⟨some path, opened⟩)
    {events : List UpkeepEvent} {snapshot : List Certificate}
    (member : snapshot ∈ (watch.run events).snapshots) :
    snapshot ∈ watch.snapshots ∨ snapshot ∈ opened :: watch.loads path events := by
  induction events generalizing watch opened with
  | nil => exact .inl member
  | cons event events induction =>
      obtain ⟨_, inForceAfter, before, whole⟩ := exists_step inForce event events
      rcases induction inForceAfter member with taken | loaded
      · rcases mem_snapshots_step inForce taken with before | rfl
        · exact .inl before
        · exact .inr List.mem_cons_self
      · right
        rw [whole]
        exact List.mem_append_right before loaded

theorem keepsLatestLoad (inForce : watch.upkeep.store = some ⟨some path, opened⟩)
    (nonempty : opened ≠ []) (events : List UpkeepEvent) :
    KeepsLatestLoad path opened watch events := by
  obtain ⟨latest, isLast, left⟩ := store_run inForce events
  refine {
    latest := ⟨latest, isLast, left, ?_⟩
    next := Upkeep.effect_of_directory left
    snapshotsLoaded := fun snapshot member => mem_loads_of_mem_snapshots inForce member
    snapshotsKept := ?_ }
  · rcases List.mem_cons.mp (List.mem_of_getLast? isLast) with rfl | loaded
    · exact nonempty
    · exact ne_nil_of_mem_loads loaded
  · intro later
    have continued : watch.run (events ++ later) = (watch.run events).run later :=
      List.foldl_append
    rw [continued]
    exact snapshots_suffix_run _ later

private theorem store_run_of_given {store : TrustStore} (inForce : watch.upkeep.store = some store)
    (given : store.directory = none) (events : List UpkeepEvent) :
    (watch.run events).upkeep.store = some store := by
  induction events generalizing watch with
  | nil => exact inForce
  | cons event events induction =>
      exact induction (Upkeep.store_after_of_given inForce given event)

end Watch

theorem TrustStore.ofDirectory_eq_ok_iff {files : FileTree} {path : String}
    {store : TrustStore} :
    ofDirectory files path = .ok store ↔
      ∃ authorities, load files path = .ok authorities ∧ ⟨some path, authorities⟩ = store := by
  unfold ofDirectory
  cases load files path with
  | error fault => simp
  | ok authorities => simp

private theorem TrustStore.directory_of_ofCertificates {encodings : List Octets}
    {store : TrustStore}
    (made : ofCertificates encodings = .ok store) : store.directory = none := by
  unfold ofCertificates at made
  split at made
  · cases made
  · obtain rfl := Except.ok.inj made
    rfl

namespace Sample

def opened (store : TrustStore) : Watch := ⟨{ files := files, store := some store }, []⟩

/-- After a snapshot has been taken, a link that leads nowhere takes the place of the
file of the authority; a refresh runs meanwhile. -/
def mishap : List UpkeepEvent :=
  [.startRefresh 1000, .takeSnapshot,
    .changeFiles (FileTree.put (.link "nowhere") ["authorities", "V.pem"])]

private theorem exists_opened :
    ∃ store, TrustStore.ofDirectory files "/authorities" = .ok store ∧
      ((opened store).run mishap).upkeep.outcomeOf (.advance 1500) =
        some (.error (.validatorUnavailable (.unreadableDirectory "/authorities" .notFound))) ∧
      ((opened store).run (mishap ++ [.advance 1500])).snapshots.length = 1 := by
  have computed : ((TrustStore.ofDirectory files "/authorities").toOption.map fun store =>
      (((opened store).run mishap).upkeep.outcomeOf (.advance 1500),
        ((opened store).run (mishap ++ [.advance 1500])).snapshots.length)) =
      some (some (.error (.validatorUnavailable
        (.unreadableDirectory "/authorities" .notFound))), 1) := by
    decide +kernel
  obtain ⟨store, found, rest⟩ := Option.map_eq_some_iff.mp computed
  simp only [Prod.mk.injEq] at rest
  exact ⟨store, toOption_eq_some_iff.mp found, rest⟩

end Sample

namespace Upkeep

/-- Whatever happens to the files, whenever loads are asked for and refreshes come: a
store opened from a directory has the authorities of the latest successful load, of
which there is always one at least.  A load that fails says so and changes nothing,
one that succeeds tells the number of the authorities that are now in force, and
snapshots stay what they were.  A store of given certificates does not change at
all. -/
theorem keeps_latest_load {upkeep : Upkeep} {store : TrustStore}
    (inForce : upkeep.store = some store) :
    (∀ path, TrustStore.ofDirectory upkeep.files path = .ok store →
      ∀ events, Watch.KeepsLatestLoad path store.authorities ⟨upkeep, []⟩ events) ∧
    ∀ encodings, TrustStore.ofCertificates encodings = .ok store →
      ∀ events, ((⟨upkeep, []⟩ : Watch).run events).upkeep.store = some store := by
  constructor
  · intro path openedStore events
    obtain ⟨authorities, loaded, rfl⟩ := TrustStore.ofDirectory_eq_ok_iff.mp openedStore
    exact Watch.keepsLatestLoad inForce (TrustStore.ne_nil_of_load loaded) events
  · intro encodings made events
    exact Watch.store_run_of_given inForce (TrustStore.directory_of_ofCertificates made) events

theorem keeps_latest_load_of_mishap :
    ∃ store, TrustStore.ofDirectory Sample.files "/authorities" = .ok store ∧
      (Sample.opened store).upkeep.store = some store ∧
      ((Sample.opened store).run Sample.mishap).upkeep.outcomeOf (.advance 1500) =
        some (.error (.validatorUnavailable (.unreadableDirectory "/authorities" .notFound))) ∧
      ((Sample.opened store).run (Sample.mishap ++ [.advance 1500])).snapshots.length = 1 ∧
      Watch.KeepsLatestLoad "/authorities" store.authorities (Sample.opened store)
        (Sample.mishap ++ [.advance 1500]) := by
  obtain ⟨store, openedStore, failed, one⟩ := Sample.exists_opened
  have inForce : (Sample.opened store).upkeep.store = some store := rfl
  exact ⟨store, openedStore, inForce, failed, one,
    (keeps_latest_load inForce).1 "/authorities" openedStore _⟩

end Upkeep

end GridSecurity
