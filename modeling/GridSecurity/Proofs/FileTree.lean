import GridSecurity.FileTree
import GridSecurity.Proofs.Success

/-!
# Directories listed in another order

The entries of a directory are told apart by their names, and nothing says in which order they
are listed.  Paths are followed by names, so in the same tree with its directories listed in
another order a path leads to the same place, but for the order below it.
-/

namespace GridSecurity

namespace FileTree

/-- What holds of a directory if it holds of all its entries holds of all trees. -/
theorem induction {motive : FileTree → Prop} (file : ∀ content, motive (.file content))
    (link : ∀ target, motive (.link target))
    (directory : ∀ entries, (∀ item ∈ entries, motive item.2) → motive (.directory entries))
    (barred : ∀ isDirectory fault, motive (.barred isDirectory fault)) :
    (tree : FileTree) → motive tree
  | .file content => file content
  | .link target => link target
  | .directory entries =>
      directory entries fun item _ => induction file link directory barred item.2
  | .barred isDirectory fault => barred isDirectory fault
decreasing_by
  rename_i member
  have smaller := List.sizeOf_lt_of_mem member
  obtain ⟨name, entry⟩ := item
  simp only [Prod.mk.sizeOf_spec, FileTree.directory.sizeOf_spec] at smaller ⊢
  omega

/-- A tree is a directory, whether or not it can be listed. -/
def isDirectory : FileTree → Bool
  | directory _ => true
  | barred isDirectory _ => isDirectory
  | file _ | link _ => false

/-- The entries of every directory have different names. -/
inductive WellNamed : FileTree → Prop
  | file (content : Octets) : WellNamed (.file content)
  | link (target : String) : WellNamed (.link target)
  | directory {entries : List (String × FileTree)} (distinct : (entries.map Prod.fst).Nodup)
      (within : ∀ entry ∈ entries, WellNamed entry.2) : WellNamed (.directory entries)
  | barred (isDirectory : Bool) (fault : IoFault) : WellNamed (.barred isDirectory fault)

/-- The second tree is the first one with the entries of its directories in another order. -/
inductive Relists : FileTree → FileTree → Prop
  | refl (tree : FileTree) : Relists tree tree
  | entries {entries listed : List (String × FileTree)} (order : entries.Perm listed) :
      Relists (.directory entries) (.directory listed)
  | within {name : String} {entry listed : FileTree} {front back : List (String × FileTree)}
      (inner : Relists entry listed) :
      Relists (.directory (front ++ (name, entry) :: back))
        (.directory (front ++ (name, listed) :: back))
  | trans {first second third : FileTree} (start : Relists first second)
      (rest : Relists second third) : Relists first third

/-- An entry stands in a directory, or in one that is reached from it through directories. -/
inductive Holds : (entries : List (String × FileTree)) → (above : List String) →
    (name : String) → (entry : FileTree) → Prop
  | here {entries : List (String × FileTree)} {name : String} {entry : FileTree}
      (member : (name, entry) ∈ entries) : Holds entries [] name entry
  | inside {entries inner : List (String × FileTree)} {first name : String} {above : List String}
      {entry : FileTree} (member : (first, .directory inner) ∈ entries)
      (holds : Holds inner above name entry) : Holds entries (first :: above) name entry

/-! ## Names -/

variable {entries : List (String × FileTree)} {name : String} {entry : FileTree}

attribute [simp] WellNamed.file WellNamed.link

@[simp]
theorem wellNamed_directory_iff :
    WellNamed (.directory entries) ↔
      (entries.map Prod.fst).Nodup ∧ ∀ entry ∈ entries, WellNamed entry.2 := by
  constructor
  · intro wellNamed
    cases wellNamed with
    | directory distinct within => exact ⟨distinct, within⟩
  · rintro ⟨distinct, within⟩
    exact .directory distinct within

theorem WellNamed.distinct (wellNamed : WellNamed (.directory entries)) :
    (entries.map Prod.fst).Nodup :=
  (wellNamed_directory_iff.mp wellNamed).1

theorem WellNamed.of_mem (wellNamed : WellNamed (.directory entries))
    (member : (name, entry) ∈ entries) : WellNamed entry :=
  (wellNamed_directory_iff.mp wellNamed).2 _ member

private theorem mem_of_lookup (found : entries.lookup name = some entry) :
    (name, entry) ∈ entries := by
  obtain ⟨front, back, rfl, -⟩ := List.lookup_eq_some_iff.mp found
  exact List.mem_append_right front List.mem_cons_self

private theorem lookup_of_mem (distinct : (entries.map Prod.fst).Nodup)
    (member : (name, entry) ∈ entries) : entries.lookup name = some entry := by
  obtain ⟨front, back, rfl⟩ := List.append_of_mem member
  rw [List.map_append, List.nodup_append] at distinct
  refine List.lookup_eq_some_iff.mpr ⟨front, back, rfl, fun other otherMember => ?_⟩
  rw [bne_iff_ne]
  exact (distinct.2.2 other.1 (List.mem_map_of_mem otherMember) name List.mem_cons_self).symm

@[simp]
theorem not_holds_nil {above : List String} : ¬ Holds [] above name entry := by
  intro holds
  cases holds with
  | here member | inside member => cases member

/-- What stands in a list of entries is the first of them, or in it, or in the rest. -/
@[simp]
theorem holds_cons_iff {first : String} {item : FileTree} {above : List String} :
    Holds ((first, item) :: entries) above name entry ↔
      above = [] ∧ name = first ∧ entry = item ∨
      (∃ inner below, item = .directory inner ∧ above = first :: below ∧
        Holds inner below name entry) ∨
      Holds entries above name entry := by
  constructor
  · intro holds
    cases holds with
    | here member =>
        rcases List.mem_cons.mp member with same | later
        · cases same
          exact .inl ⟨rfl, rfl, rfl⟩
        · exact .inr (.inr (.here later))
    | inside member holds =>
        rcases List.mem_cons.mp member with same | later
        · cases same
          exact .inr (.inl ⟨_, _, rfl, rfl, holds⟩)
        · exact .inr (.inr (.inside later holds))
  · rintro (⟨rfl, rfl, rfl⟩ | ⟨inner, below, rfl, rfl, holds⟩ | holds)
    · exact .here List.mem_cons_self
    · exact .inside List.mem_cons_self holds
    · cases holds with
      | here member => exact .here (List.mem_cons_of_mem _ member)
      | inside member holds => exact .inside (List.mem_cons_of_mem _ member) holds

/-! ## Other orders -/

namespace Relists

variable {first second : FileTree}

theorem symm (relists : Relists first second) : Relists second first := by
  induction relists with
  | refl tree => exact .refl tree
  | entries order => exact .entries order.symm
  | within _ induction => exact .within induction
  | trans _ _ start rest => exact .trans rest start

/-- Only directories have an order. -/
theorem eq_of_ne_directory (relists : Relists first second)
    (isNoDirectory : ∀ entries, first ≠ .directory entries) : second = first := by
  induction relists with
  | refl tree => rfl
  | entries | within => exact absurd rfl (isNoDirectory _)
  | trans _ _ start rest =>
      obtain rfl := start isNoDirectory
      exact rest isNoDirectory

theorem exists_directory (relists : Relists first second) (same : first = .directory entries) :
    ∃ listed, second = .directory listed := by
  induction relists generalizing entries with
  | refl tree => exact ⟨entries, same⟩
  | entries | within => exact ⟨_, rfl⟩
  | trans _ _ start rest =>
      obtain ⟨between, isDirectory⟩ := start same
      exact rest isDirectory

private theorem exists_mem (relists : Relists first second)
    (member : (name, entry) ∈ first.entries) :
    ∃ listed, (name, listed) ∈ second.entries ∧ Relists entry listed := by
  induction relists generalizing entry with
  | refl tree => exact ⟨entry, member, .refl entry⟩
  | entries order => exact ⟨entry, order.mem_iff.mp member, .refl entry⟩
  | @within _ _ listed front back inner _ =>
      rcases List.mem_append.mp member with inFront | (_ | ⟨_, inBack⟩)
      · exact ⟨entry, List.mem_append_left _ inFront, .refl entry⟩
      · exact ⟨listed, List.mem_append_right _ List.mem_cons_self, inner⟩
      · exact ⟨entry, List.mem_append_right _ (List.mem_cons_of_mem _ inBack), .refl entry⟩
  | trans _ _ start rest =>
      obtain ⟨between, betweenMember, toBetween⟩ := start member
      obtain ⟨listed, listedMember, fromBetween⟩ := rest betweenMember
      exact ⟨listed, listedMember, .trans toBetween fromBetween⟩

theorem wellNamed (relists : Relists first second) (named : first.WellNamed) :
    second.WellNamed := by
  induction relists with
  | refl tree => exact named
  | entries order =>
      refine .directory ((order.map Prod.fst).nodup_iff.mp named.distinct) fun other member => ?_
      exact named.of_mem (order.mem_iff.mpr member)
  | @within name entry listed front back _ induction =>
      refine .directory (by simpa using named.distinct) fun other member => ?_
      rcases List.mem_append.mp member with inFront | (_ | ⟨_, inBack⟩)
      · exact named.of_mem (List.mem_append_left _ inFront)
      · exact induction (named.of_mem (List.mem_append_right front List.mem_cons_self))
      · exact named.of_mem (List.mem_append_right _ (List.mem_cons_of_mem _ inBack))
  | trans _ _ start rest => exact rest (start named)

theorem exists_holds {listed : List (String × FileTree)} {above : List String}
    (relists : Relists (.directory entries) (.directory listed))
    (holds : Holds entries above name entry) :
    ∃ counterpart, Holds listed above name counterpart ∧ Relists entry counterpart := by
  induction holds generalizing listed with
  | here member =>
      obtain ⟨counterpart, otherMember, inner⟩ := relists.exists_mem member
      exact ⟨counterpart, .here otherMember, inner⟩
  | inside member _ induction =>
      obtain ⟨between, betweenMember, toBetween⟩ := relists.exists_mem member
      obtain ⟨inner, rfl⟩ := toBetween.exists_directory rfl
      obtain ⟨counterpart, holds, same⟩ := induction toBetween
      exact ⟨counterpart, .inside betweenMember holds, same⟩

end Relists

/-! ## Paths -/

namespace Place

/-- The same place in a tree whose directories are listed in another order. -/
structure Relists (first second : Place) : Prop where
  here : first.here.Relists second.here
  above : List.Forall₂ FileTree.Relists first.above second.above

structure WellNamed (place : Place) : Prop where
  here : place.here.WellNamed
  above : ∀ tree ∈ place.above, tree.WellNamed

variable {first second : Place}

private theorem Relists.parent (relists : first.Relists second) :
    first.parent.Relists second.parent := by
  obtain ⟨firstHere, firstAbove⟩ := first
  obtain ⟨secondHere, secondAbove⟩ := second
  obtain ⟨here, above⟩ := relists
  cases above with
  | nil => exact ⟨here, .nil⟩
  | cons nearest further => exact ⟨nearest, further⟩

private theorem WellNamed.parent (named : first.WellNamed) : first.parent.WellNamed := by
  obtain ⟨here, above⟩ := first
  cases above with
  | nil => exact named
  | cons nearest further =>
      exact ⟨named.above _ List.mem_cons_self,
        fun tree member => named.above tree (List.mem_cons_of_mem _ member)⟩

private theorem Relists.root (relists : first.Relists second) : first.root.Relists second.root := by
  obtain ⟨here, above⟩ := first
  obtain ⟨otherHere, otherAbove⟩ := second
  obtain ⟨relistsHere, relistsAbove⟩ := relists
  refine ⟨?_, .nil⟩
  dsimp only [Place.root] at relistsHere relistsAbove ⊢
  induction relistsAbove generalizing here otherHere with
  | nil => exact relistsHere
  | cons nearest _ induction =>
      rw [List.getLast?_cons, List.getLast?_cons]
      exact induction _ _ nearest

private theorem WellNamed.root (named : first.WellNamed) : first.root.WellNamed := by
  refine ⟨?_, fun tree member => by cases member⟩
  rw [Place.root]
  cases last : first.above.getLast? with
  | none => exact named.here
  | some outermost => exact named.above outermost (List.mem_of_getLast? last)

/-- The entry of a name and its counterpart stand at the same place. -/
theorem Relists.exists_lookup {entries listed : List (String × FileTree)}
    {above otherAbove : List FileTree}
    (relists : Relists ⟨.directory entries, above⟩ ⟨.directory listed, otherAbove⟩)
    (named : WellNamed ⟨.directory listed, otherAbove⟩) {name : String} {entry : FileTree}
    (found : entries.lookup name = some entry) :
    ∃ counterpart, listed.lookup name = some counterpart ∧ entry.Relists counterpart ∧
      Relists ⟨entry, .directory entries :: above⟩
        ⟨counterpart, .directory listed :: otherAbove⟩ ∧
      WellNamed ⟨counterpart, .directory listed :: otherAbove⟩ := by
  obtain ⟨counterpart, member, inner⟩ := relists.here.exists_mem (mem_of_lookup found)
  refine ⟨counterpart, lookup_of_mem named.here.distinct member, inner,
    ⟨inner, .cons relists.here relists.above⟩, ⟨named.here.of_mem member, ?_⟩⟩
  exact List.forall_mem_cons.mpr ⟨named.here, named.above⟩

end Place

variable {follow other : String → List String → Place → Except IoFault Place}
  {names : List String} {first second last : Place}

private theorem exists_walkWith
    (follows : ∀ target rest first second last, first.Relists second → second.WellNamed →
      follow target rest first = .ok last →
        ∃ otherLast, other target rest second = .ok otherLast ∧
          last.Relists otherLast ∧ otherLast.WellNamed)
    (relists : first.Relists second) (named : second.WellNamed)
    (walked : walkWith follow names first = .ok last) :
    ∃ otherLast, walkWith other names second = .ok otherLast ∧
      last.Relists otherLast ∧ otherLast.WellNamed := by
  induction names generalizing first second with
  | nil =>
      obtain rfl := Except.ok.inj walked
      exact ⟨second, rfl, relists, named⟩
  | cons name rest induction =>
      obtain ⟨firstHere, firstAbove⟩ := first
      obtain ⟨secondHere, secondAbove⟩ := second
      cases firstHere with
      | file | link => cases walked
      | barred isDirectory fault =>
          obtain rfl := relists.here.eq_of_ne_directory fun _ same => by cases same
          cases isDirectory with
          | false => cases walked
          | true =>
              rw [walkWith] at walked ⊢
              dsimp only at walked ⊢
              by_cases stays : name = ""
              · rw [if_pos stays] at walked ⊢
                exact induction relists named walked
              · rw [if_neg stays] at walked
                cases walked
      | directory entries =>
          obtain ⟨listed, rfl⟩ := relists.here.exists_directory rfl
          rw [walkWith] at walked ⊢
          dsimp only at walked ⊢
          by_cases stays : name = "" ∨ name = "."
          · rw [if_pos stays] at walked ⊢
            exact induction relists named walked
          rw [if_neg stays] at walked ⊢
          by_cases rises : name = ".."
          · rw [if_pos rises] at walked ⊢
            exact induction relists.parent named.parent walked
          rw [if_neg rises] at walked ⊢
          by_cases tooLong : longestName < size name
          · rw [if_pos tooLong] at walked
            cases walked
          rw [if_neg tooLong] at walked ⊢
          cases found : entries.lookup name with
          | none =>
              rw [found] at walked
              cases walked
          | some entry =>
              rw [found] at walked
              obtain ⟨counterpart, alsoFound, inner, into, intoNamed⟩ :=
                relists.exists_lookup named found
              rw [alsoFound]
              cases entry with
              | link target =>
                  obtain rfl := inner.eq_of_ne_directory fun _ same => by cases same
                  exact follows _ _ _ _ _ relists named walked
              | file | barred =>
                  obtain rfl := inner.eq_of_ne_directory fun _ same => by cases same
                  exact induction into intoNamed walked
              | directory within =>
                  obtain ⟨listedWithin, rfl⟩ := inner.exists_directory rfl
                  exact induction into intoNamed walked

private theorem exists_walk {links : Nat} (relists : first.Relists second)
    (named : second.WellNamed) (walked : walk links names first = .ok last) :
    ∃ otherLast, walk links names second = .ok otherLast ∧
      last.Relists otherLast ∧ otherLast.WellNamed := by
  induction links generalizing names first second last with
  | zero =>
      refine exists_walkWith ?_ relists named walked
      intro _ _ _ _ _ _ _ followed
      cases followed
  | succ links induction =>
      refine exists_walkWith ?_ relists named walked
      intro target rest first second last relists named followed
      by_cases absolute : isAbsolute target
      · rw [if_pos absolute] at followed ⊢
        exact induction relists.root named.root followed
      · rw [if_neg absolute] at followed ⊢
        exact induction relists named followed

variable {tree listed : FileTree} {path : String}

theorem openAt_of_none {α : Type} {outcome : Except IoFault α} (seen : pathFault? path = none) :
    openAt path outcome = outcome := by
  rw [openAt, seen]

theorem openAt_of_some {α : Type} {outcome : Except IoFault α} {fault : IoFault}
    (unseen : pathFault? path = some fault) : openAt path outcome = .error fault := by
  rw [openAt, unseen]

theorem resolve_of_some {fault : IoFault} (unseen : pathFault? path = some fault) :
    tree.resolve path = .error fault :=
  openAt_of_some unseen

/-- A path leads to the same place, whatever order the directories are listed in. -/
theorem Relists.exists_resolve (relists : tree.Relists listed) (named : tree.WellNamed)
    (resolved : tree.resolve path = .ok first) :
    ∃ second, listed.resolve path = .ok second ∧ first.Relists second ∧ second.WellNamed := by
  have start : Place.Relists ⟨tree, []⟩ ⟨listed, []⟩ := ⟨relists, .nil⟩
  have startNamed : Place.WellNamed ⟨listed, []⟩ := ⟨relists.wellNamed named, by simp⟩
  cases seen : pathFault? path with
  | some fault =>
      rw [resolve_of_some seen] at resolved
      cases resolved
  | none =>
      rw [resolve, openAt_of_none seen] at resolved ⊢
      by_cases absolute : isAbsolute path
      · rw [if_pos absolute] at resolved ⊢
        exact exists_walk start startNamed resolved
      · rw [if_neg absolute] at resolved
        cases resolved

/-! ## Files and directories -/

theorem read_eq_ok_iff {content : Octets} :
    tree.read path = .ok content ↔ ∃ above, tree.resolve path = .ok ⟨.file content, above⟩ := by
  rw [read, bind_eq_ok_iff]
  constructor
  · rintro ⟨⟨here, above⟩, resolved, isFile⟩
    cases here with
    | file content =>
        obtain rfl := Except.ok.inj isFile
        exact ⟨above, resolved⟩
    | link | directory | barred => cases isFile
  · rintro ⟨above, resolved⟩
    exact ⟨_, resolved, rfl⟩

theorem list_eq_ok_iff :
    tree.list path = .ok entries ↔
      ∃ above, tree.resolve path = .ok ⟨.directory entries, above⟩ := by
  rw [list, bind_eq_ok_iff]
  constructor
  · rintro ⟨⟨here, above⟩, resolved, isDirectory⟩
    cases here with
    | directory entries =>
        obtain rfl := Except.ok.inj isDirectory
        exact ⟨above, resolved⟩
    | file | link => cases isDirectory
    | barred listable => cases listable <;> cases isDirectory
  · rintro ⟨above, resolved⟩
    exact ⟨_, resolved, rfl⟩

theorem Relists.read (relists : tree.Relists listed) (named : tree.WellNamed) {content : Octets}
    (opened : tree.read path = .ok content) : listed.read path = .ok content := by
  obtain ⟨above, resolved⟩ := read_eq_ok_iff.mp opened
  obtain ⟨⟨here, otherAbove⟩, alsoResolved, same, -⟩ := relists.exists_resolve named resolved
  obtain rfl := same.here.eq_of_ne_directory fun _ isDirectory => by cases isDirectory
  exact read_eq_ok_iff.mpr ⟨otherAbove, alsoResolved⟩

theorem Relists.exists_list (relists : tree.Relists listed) (named : tree.WellNamed)
    (opened : tree.list path = .ok entries) :
    ∃ others, listed.list path = .ok others ∧
      (FileTree.directory entries).Relists (.directory others) ∧
      (FileTree.directory others).WellNamed := by
  obtain ⟨above, resolved⟩ := list_eq_ok_iff.mp opened
  obtain ⟨⟨here, otherAbove⟩, alsoResolved, same, sameNamed⟩ :=
    relists.exists_resolve named resolved
  obtain ⟨others, rfl⟩ := same.here.exists_directory rfl
  exact ⟨others, list_eq_ok_iff.mpr ⟨otherAbove, alsoResolved⟩, same.here, sameNamed.here⟩

end FileTree

end GridSecurity
