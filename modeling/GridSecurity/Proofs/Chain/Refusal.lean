import GridSecurity.Proofs.Chain.Stages
import Mathlib.Data.List.Dedup

/-!
# Why certificates are refused

Certificates cannot be ordered if nobody or more than one of them is a leaf, or if the walk
from the leaf does not get to all of them.  The walk itself always comes to its end.  A
certificate on a circle is never a leaf, so that what shows of a circle is that there is no
leaf, or that certificates are not linked to it: several leaves are refused with the circle
and without it.
-/

namespace GridSecurity

namespace Chain

/-! ## Distinct certificates -/

theorem mem_map_dropSeen_iff {seen : List String} {presented : List Certificate}
    {fingerprint : String} :
    fingerprint ∈ (dropSeen seen presented).map (·.fingerprint) ↔
      fingerprint ∉ seen ∧ fingerprint ∈ presented.map (·.fingerprint) := by
  induction presented generalizing seen with
  | nil => simp [dropSeen]
  | cons first presented induction =>
      by_cases before : first.fingerprint ∈ seen
      · rw [dropSeen_cons_of_mem before, induction, List.map_cons, List.mem_cons]
        refine and_congr_right fun unseen => (or_iff_right ?_).symm
        rintro rfl
        exact unseen before
      · rw [dropSeen_cons_of_notMem before, List.map_cons, List.mem_cons, induction, List.map_cons,
          List.mem_cons, List.mem_cons, not_or]
        constructor
        · rintro (rfl | ⟨⟨_, unseen⟩, member⟩)
          · exact ⟨before, .inl rfl⟩
          · exact ⟨unseen, .inr member⟩
        · rintro ⟨unseen, same | member⟩
          · exact .inl same
          · by_cases isFirst : fingerprint = first.fingerprint
            · exact .inl isFirst
            · exact .inr ⟨⟨isFirst, unseen⟩, member⟩

/-- There are as many distinct certificates as fingerprints. -/
theorem length_dropRepeated (presented : List Certificate) :
    (dropRepeated presented).length = (presented.map (·.fingerprint)).dedup.length := by
  have same : ((dropRepeated presented).map (·.fingerprint)).Perm
      (presented.map (·.fingerprint)).dedup := by
    apply (List.perm_ext_iff_of_nodup (nodup_dropSeen [] presented) (List.nodup_dedup _)).mpr
    intro fingerprint
    rw [List.mem_dedup, mem_map_dropSeen_iff]
    exact and_iff_right List.not_mem_nil
  rw [← same.length_eq, List.length_map]

/-! ## The walk from the leaf -/

private theorem Stage.exists_takes_first {certificates : List Certificate} {leaf : Nat}
    (isLeaf : leafPositions certificates = [leaf]) :
    ∃ certificate, (Stage.first certificates leaf).Takes certificate := by
  have member : leaf ∈ leafPositions certificates := by
    rw [isLeaf]
    exact List.mem_singleton_self leaf
  obtain ⟨certificate, found, _⟩ := mem_leafPositions_iff.mp member
  refine ⟨certificate, ?_⟩
  rw [Stage.Takes, Stage.first, List.getElem?_map, found]
  rfl

private theorem occupied_map_some (certificates : List Certificate) :
    Places.occupied (certificates.map some) = certificates.length := by
  rw [Places.occupied, List.countP_map]
  exact List.countP_eq_length.mpr fun _ _ => rfl

/-- The walk from the leaf of presented certificates takes a certificate at every stage and
empties its place, and comes to its end with the certificates that it took. -/
structure Completes (presented : List Certificate) (leaf : Nat) : Prop where
  atMostDistinct : ∀ count stage,
    (Stage.first (dropRepeated presented) leaf).Reaches count stage →
      count < (presented.map (·.fingerprint)).dedup.length
  inRange : ∀ count stage,
    (Stage.first (dropRepeated presented) leaf).Reaches count stage →
      stage.places.length = (dropRepeated presented).length ∧
        stage.position < stage.places.length
  occupied : ∀ count stage,
    (Stage.first (dropRepeated presented) leaf).Reaches count stage →
      ∃ certificate, stage.Takes certificate
  returns : ∃ ordered, walk ((dropRepeated presented).map some) leaf = .ok ordered ∧
    ∀ count certificate, ordered[count]? = some certificate ↔
      ∃ stage, (Stage.first (dropRepeated presented) leaf).Reaches count stage ∧
        stage.Takes certificate

theorem completes_of_leafPositions {presented : List Certificate} {leaf : Nat}
    (isLeaf : leafPositions (dropRepeated presented) = [leaf]) : Completes presented leaf := by
  obtain ⟨certificate, takes⟩ := Stage.exists_takes_first isLeaf
  refine {
    atMostDistinct := ?_
    inRange := ?_
    occupied := fun _ _ reaches => reaches.exists_takes ⟨certificate, takes⟩
    returns := ?_ }
  · intro count stage reaches
    rw [← length_dropRepeated, ← occupied_map_some]
    exact reaches.count_lt ⟨certificate, takes⟩
  · intro count stage reaches
    obtain ⟨_, takesHere⟩ := reaches.exists_takes ⟨certificate, takes⟩
    exact ⟨reaches.length_places.trans (List.length_map some), takesHere.position_lt⟩
  · obtain ⟨ordered, walked⟩ := Stage.exists_walk takes
    exact ⟨ordered, walked, fun _ _ => Stage.getElem?_of_walk walked⟩

/-! ## Reasons to refuse -/

/-- Why presented certificates cannot be ordered. -/
inductive RefusedFor (presented : List Certificate) : ChainFault → Prop
  | nothing (empty : presented = []) : RefusedFor presented .emptyChain
  | noLeaf (nonempty : presented ≠ []) (nobody : leafPositions (dropRepeated presented) = []) :
      RefusedFor presented .noEndEntity
  | manyLeaves (several : 2 ≤ (leafPositions (dropRepeated presented)).length) :
      RefusedFor presented
        (.manyEndEntities (leafPositions (dropRepeated presented)).length)
  | unlinked {leaf : Nat} {ordered : List Certificate}
      (isLeaf : leafPositions (dropRepeated presented) = [leaf])
      (walked : walk ((dropRepeated presented).map some) leaf = .ok ordered)
      (fewer : ordered.length < (dropRepeated presented).length) :
      RefusedFor presented (.disconnected ordered.length (dropRepeated presented).length)

theorem leafPosition_eq_error_iff {certificates : List Certificate} {fault : ChainFault} :
    leafPosition certificates = .error fault ↔
      leafPositions certificates = [] ∧ fault = .noEndEntity ∨
        2 ≤ (leafPositions certificates).length ∧
          fault = .manyEndEntities (leafPositions certificates).length := by
  cases positions : leafPositions certificates with
  | nil => simp [leafPosition, positions, eq_comm]
  | cons first others =>
      cases others with
      | nil => simp [leafPosition, positions]
      | cons second others => simp [leafPosition, positions, eq_comm]

/-- A single certificate needs no exception: it is the leaf, and the walk ends at it. -/
theorem sort_of_ne_nil {presented : List Certificate} (nonempty : presented ≠ []) :
    sort presented =
      (leafPosition (dropRepeated presented) >>= fun leaf =>
        walk ((dropRepeated presented).map some) leaf >>= fun ordered =>
          if ordered.length = (dropRepeated presented).length then .ok ordered
          else .error (.disconnected ordered.length (dropRepeated presented).length)) := by
  unfold sort
  rw [List.isEmpty_eq_false_iff.mpr nonempty, if_neg Bool.false_ne_true]
  dsimp only
  split
  · next single =>
      obtain ⟨only, whole⟩ := List.length_eq_one_iff.mp single
      have isLeaf : leafPosition [only] = .ok 0 :=
        leafPosition_eq_ok_iff.mpr (leafPositions_singleton only)
      have walked : walk ([only].map some) 0 = .ok [only] := walk_singleton only
      rw [whole, isLeaf]
      dsimp only [bind, Except.bind]
      rw [walked]
      rfl
  · rfl

/-- Ordering refuses certificates for one of these reasons and for no other. -/
theorem sort_eq_error_iff {presented : List Certificate} {fault : ChainFault} :
    sort presented = .error fault ↔ RefusedFor presented fault := by
  by_cases empty : presented = []
  · subst empty
    constructor
    · intro refused
      obtain rfl := Except.error.inj refused
      exact .nothing rfl
    · rintro (_ | ⟨nonempty, _⟩ | several | ⟨_, _, fewer⟩)
      · rfl
      · exact absurd rfl nonempty
      · exact absurd several (by decide)
      · exact absurd fewer (Nat.not_lt_zero _)
  · simp only [sort_of_ne_nil empty, bind_eq_error_iff, leafPosition_eq_error_iff,
      leafPosition_eq_ok_iff]
    constructor
    · rintro ((⟨nobody, rfl⟩ | ⟨several, rfl⟩) | ⟨leaf, isLeaf, stuck | ⟨ordered, walked, left⟩⟩)
      · exact .noLeaf empty nobody
      · exact .manyLeaves several
      -- The walk begins at an occupied place, so that the fault is not its own.
      · obtain ⟨certificate, takes⟩ := Stage.exists_takes_first isLeaf
        exact absurd takes ((Stage.walk_eq_error_iff.mp stuck).2 certificate)
      · split at left
        · cases left
        · next incomplete =>
            obtain rfl := Except.error.inj left
            have atMost : ordered.length ≤ (dropRepeated presented).length := by
              simpa [List.filterMap_map] using (subperm_of_walk walked).length_le
            exact .unlinked isLeaf walked (Nat.lt_of_le_of_ne atMost incomplete)
    · rintro (nothing | ⟨_, nobody⟩ | several | ⟨isLeaf, walked, fewer⟩)
      · exact absurd nothing empty
      · exact .inl (.inl ⟨nobody, rfl⟩)
      · exact .inl (.inr ⟨several, rfl⟩)
      · exact .inr ⟨_, isLeaf, .inr ⟨_, walked, if_neg (Nat.ne_of_lt fewer)⟩⟩

/-- Texts with different last characters are different. -/
private theorem append_ne_of_getLast? {front back other : String} (nonempty : back.toList ≠ [])
    (different : back.toList.getLast? ≠ other.toList.getLast?) : front ++ back ≠ other := by
  rintro rfl
  apply different
  rw [String.toList_append, List.getLast?_append_of_ne_nil _ nonempty]

/-- No refusal reads like the walk's own fault, to which two of the wordings come close. -/
theorem RefusedFor.message_ne {presented : List Certificate} {fault : ChainFault}
    (refused : RefusedFor presented fault) :
    fault.message ≠ "certificate chain contains a cycle" := by
  cases refused with
  | nothing => decide
  | noLeaf => decide
  | manyLeaves => exact append_ne_of_getLast? (by decide) (by decide)
  | unlinked => exact append_ne_of_getLast? (by decide) (by decide)

/-! ## Leaves and circles -/

/-- Following the issuers from a certificate leads back to it. -/
def OnCircle (certificates : List Certificate) (certificate : Certificate) : Prop :=
  Relation.TransGen (LeadsTo certificates) certificate certificate

/-- A certificate on a circle issued the one in front of it, so that it is no leaf. -/
theorem OnCircle.issuesAnother {certificates : List Certificate} {certificate : Certificate}
    (onCircle : OnCircle certificates certificate) :
    ∃ other ∈ certificates, other ≠ certificate ∧ other.IssuedBy certificate := by
  obtain ⟨other, _, leads⟩ := Relation.TransGen.tail'_iff.mp onCircle
  refine ⟨other, leads.member, ?_, leads.issued⟩
  rintro rfl
  exact not_issuedBy_self leads.notSelfIssued leads.issued

/-- The certificates that issued no other one. -/
def leaves (certificates : List Certificate) : List Certificate :=
  (certificates.zipIdx.filter fun (certificate, position) =>
    !issuesAnother certificates position certificate).map (·.1)

private theorem length_leaves (certificates : List Certificate) :
    (leaves certificates).length = (leafPositions certificates).length := by
  rw [leaves, leafPositions, List.length_map, List.length_map]

private theorem leaves_sublist (certificates : List Certificate) :
    (leaves certificates).Sublist certificates := by
  have all : (certificates.zipIdx.map Prod.fst).Sublist certificates := by
    rw [List.zipIdx_map_fst]
  exact (List.filter_sublist.map _).trans all

theorem mem_leaves_iff {certificates : List Certificate} (distinct : certificates.Nodup)
    {certificate : Certificate} :
    certificate ∈ leaves certificates ↔ certificate ∈ certificates ∧
      ∀ other ∈ certificates, other ≠ certificate → ¬ other.IssuedBy certificate := by
  have atPosition : certificate ∈ leaves certificates ↔
      ∃ position, certificates[position]? = some certificate ∧
        issuesAnother certificates position certificate = false := by
    simp [leaves, List.mem_zipIdx_iff_getElem?]
  rw [atPosition]
  constructor
  · rintro ⟨position, found, issuesNone⟩
    have isLeaf : position ∈ leafPositions certificates :=
      mem_leafPositions_iff.mpr ⟨certificate, found, issuesAnother_eq_false_iff.mp issuesNone⟩
    obtain ⟨leaf, here, issuesNoOther⟩ := (mem_leafPositions_iff_of_nodup distinct).mp isLeaf
    obtain rfl := Option.some.inj (here.symm.trans found)
    exact ⟨List.mem_of_getElem? found, issuesNoOther⟩
  · rintro ⟨member, issuesNoOther⟩
    obtain ⟨position, found⟩ := List.getElem?_of_mem member
    have isLeaf : position ∈ leafPositions certificates :=
      (mem_leafPositions_iff_of_nodup distinct).mpr ⟨certificate, found, issuesNoOther⟩
    obtain ⟨leaf, here, issuesNone⟩ := mem_leafPositions_iff.mp isLeaf
    obtain rfl := Option.some.inj (here.symm.trans found)
    exact ⟨position, found, issuesAnother_eq_false_iff.mpr issuesNone⟩

/-- Some of distinct certificates have at least as many leaves as all of them, if no leaf is
left out. -/
theorem length_leafPositions_le {certificates kept : List Certificate}
    (distinct : certificates.Nodup) (inside : kept.Sublist certificates)
    (leavesKept : leaves certificates ⊆ kept) :
    (leafPositions certificates).length ≤ (leafPositions kept).length := by
  have still : leaves certificates ⊆ leaves kept := by
    intro leaf member
    have issuesNone := ((mem_leaves_iff distinct).mp member).2
    apply (mem_leaves_iff (distinct.sublist inside)).mpr
    exact ⟨leavesKept member, fun other otherMember => issuesNone other (inside.subset otherMember)⟩
  rw [← length_leaves, ← length_leaves]
  exact ((distinct.sublist (leaves_sublist certificates)).subperm still).length_le

/-! ## What shows of a circle -/

/-- How certificates are refused because of a circle. -/
inductive ShowsCircle (certificates : List Certificate) : ChainFault → Prop
  | noLeaf (eachIssues : ∀ certificate ∈ certificates,
      ∃ other ∈ certificates, other ≠ certificate ∧ other.IssuedBy certificate) :
      ShowsCircle certificates .noEndEntity
  | unlinked {linked : Nat} (fewer : linked < certificates.length) :
      ShowsCircle certificates (.disconnected linked certificates.length)

/-- Certificates have several leaves, and not because of a circle: any of them that include
those on no circle are refused for at least as many. -/
structure ManyLeavesAnyway (certificates : List Certificate) (count : Nat) : Prop where
  several : 2 ≤ count
  anyway : ∀ kept : List Certificate, kept.Sublist certificates →
    (∀ certificate ∈ certificates, ¬ OnCircle certificates certificate → certificate ∈ kept) →
      ∃ more, count ≤ more ∧ sort kept = .error (.manyEndEntities more)

private theorem dropRepeated_of_sublist {presented kept : List Certificate}
    (inside : kept.Sublist (dropRepeated presented)) : dropRepeated kept = kept := by
  apply dropSeen_eq_self
  · exact (nodup_dropSeen [] presented).sublist (inside.map _)
  · simp

private theorem manyLeavesAnyway {presented : List Certificate}
    (several : 2 ≤ (leafPositions (dropRepeated presented)).length) :
    ManyLeavesAnyway (dropRepeated presented)
      (leafPositions (dropRepeated presented)).length := by
  refine ⟨several, ?_⟩
  intro kept inside offCircleKept
  have distinct := nodup_dropRepeated presented
  -- No leaf is on a circle, so that none is left out.
  have leavesKept : leaves (dropRepeated presented) ⊆ kept := by
    intro leaf member
    obtain ⟨inAll, issuesNone⟩ := (mem_leaves_iff distinct).mp member
    apply offCircleKept leaf inAll
    intro onCircle
    obtain ⟨other, otherMember, different, issued⟩ := onCircle.issuesAnother
    exact issuesNone other otherMember different issued
  have more := length_leafPositions_le distinct inside leavesKept
  refine ⟨_, more, sort_eq_error_iff.mpr ?_⟩
  have stillSeveral := several.trans more
  rw [← dropRepeated_of_sublist inside] at stillSeveral
  have refused := RefusedFor.manyLeaves stillSeveral
  rwa [dropRepeated_of_sublist inside] at refused

private theorem RefusedFor.shows_or_anyway {presented : List Certificate} {fault : ChainFault}
    (hasCircle : HasCircle (dropRepeated presented)) (refused : RefusedFor presented fault) :
    ShowsCircle (dropRepeated presented) fault ∨
      ∃ count, fault = .manyEndEntities count ∧
        ManyLeavesAnyway (dropRepeated presented) count := by
  cases refused with
  | nothing empty =>
      subst empty
      obtain ⟨certificate, circle⟩ := hasCircle
      obtain ⟨other, member, _⟩ := OnCircle.issuesAnother circle
      cases member
  | noLeaf _ nobody =>
      refine .inl (.noLeaf ?_)
      intro certificate member
      have notLeaf : certificate ∉ leaves (dropRepeated presented) := by
        rw [List.eq_nil_of_length_eq_zero ((length_leaves _).trans (congrArg List.length nobody))]
        exact List.not_mem_nil
      rw [mem_leaves_iff (nodup_dropRepeated presented)] at notLeaf
      push Not at notLeaf
      exact notLeaf member
  | manyLeaves several => exact .inr ⟨_, rfl, manyLeavesAnyway several⟩
  | unlinked _ _ fewer => exact .inl (.unlinked fewer)

/-- The walk from the leaf of presented certificates never comes to a place that is empty or
does not exist and ends after at most as many stages as there are distinct certificates, so
that ordering never reports its fault.  If certificates with a circle are refused, it is
because nobody is a leaf or because some are not linked to it, unless they have several
leaves with or without the circle. -/
theorem walk_never_revisits (presented : List Certificate) :
    (∀ leaf, leafPosition (dropRepeated presented) = .ok leaf → Completes presented leaf) ∧
      (∀ fault, sort presented = .error fault →
        fault ≠ .cycle ∧ fault.message ≠ "certificate chain contains a cycle") ∧
      (∀ fault, HasCircle (dropRepeated presented) → sort presented = .error fault →
        ShowsCircle (dropRepeated presented) fault ∨
          ∃ count, fault = .manyEndEntities count ∧
            ManyLeavesAnyway (dropRepeated presented) count) := by
  refine ⟨?_, ?_, ?_⟩
  · intro leaf isLeaf
    exact completes_of_leafPositions (leafPosition_eq_ok_iff.mp isLeaf)
  · intro fault refused
    have unlike := (sort_eq_error_iff.mp refused).message_ne
    refine ⟨?_, unlike⟩
    rintro rfl
    exact unlike rfl
  · intro fault hasCircle refused
    exact (sort_eq_error_iff.mp refused).shows_or_anyway hasCircle

end Chain

/-- A user that was presented twice, its authority, and two others that issued each other. -/
def Sample.besideCircle : List Octets :=
  [endEntity 5 'a' 'c', endEntity 6 'q' 'a', endEntity 5 'a' 'c', endEntity 7 'y' 'x',
    endEntity 8 'x' 'y']

private theorem Chain.hasCircle_of_two {certificates : List Certificate}
    (issueEachOther : ∃ certificate ∈ certificates, ∃ other ∈ certificates,
      (certificate.isSelfIssued = false ∧ certificate.IssuedBy other) ∧
        other.isSelfIssued = false ∧ other.IssuedBy certificate) :
    Chain.HasCircle certificates := by
  obtain ⟨certificate, member, other, otherMember, ⟨notSelfIssued, issued⟩,
    otherNotSelfIssued, otherIssued⟩ := issueEachOther
  have there : Chain.LeadsTo certificates certificate other :=
    ⟨member, otherMember, notSelfIssued, issued⟩
  have back : Chain.LeadsTo certificates other certificate :=
    ⟨otherMember, member, otherNotSelfIssued, otherIssued⟩
  exact ⟨certificate, .tail (.single there) back⟩

theorem Chain.walk_never_revisits_beside_circle :
    ∃ presented, Chain.parse Sample.besideCircle = .ok presented ∧ presented.length = 5 ∧
      Chain.leafPosition (Chain.dropRepeated presented) = .ok 0 ∧
      Chain.HasCircle (Chain.dropRepeated presented) ∧
      Chain.sort presented = .error (.disconnected 2 4) ∧ Chain.Completes presented 0 ∧
      Chain.ShowsCircle (Chain.dropRepeated presented) (.disconnected 2 4) := by
  have computed : ((Chain.parse Sample.besideCircle).toOption.map fun presented =>
      (presented.length, Chain.leafPositions (Chain.dropRepeated presented),
        decide (∃ certificate ∈ Chain.dropRepeated presented,
          ∃ other ∈ Chain.dropRepeated presented,
            (certificate.isSelfIssued = false ∧ certificate.IssuedBy other) ∧
              other.isSelfIssued = false ∧ other.IssuedBy certificate),
        match Chain.sort presented with
        | .error fault => some fault
        | .ok _ => none)) = some (5, [0], true, some (.disconnected 2 4)) := by
    decide +kernel
  obtain ⟨presented, parsed, rest⟩ := Option.map_eq_some_iff.mp computed
  simp only [Prod.mk.injEq, decide_eq_true_eq] at rest
  obtain ⟨length, isLeaf, issueEachOther, refusal⟩ := rest
  have refused : Chain.sort presented = .error (.disconnected 2 4) := by
    split at refusal
    · next fault failed => rw [failed, Option.some.inj refusal]
    · cases refusal
  have hasCircle := Chain.hasCircle_of_two issueEachOther
  have leafFound := Chain.leafPosition_eq_ok_iff.mpr isLeaf
  obtain ⟨completes, -, surfaces⟩ := Chain.walk_never_revisits presented
  refine ⟨presented, toOption_eq_some_iff.mp parsed, length, leafFound, hasCircle, refused,
    completes 0 leafFound, ?_⟩
  rcases surfaces _ hasCircle refused with shows | ⟨count, several, _⟩
  · exact shows
  · cases several

end GridSecurity
