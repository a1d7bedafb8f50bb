import GridSecurity.Chain.Linkage
import GridSecurity.Chain.Order
import GridSecurity.Proofs.Success
import Mathlib.Data.List.Nodup
import Mathlib.Data.List.Perm.Subperm

/-!
# An ordered chain has the presented certificates

Ordering neither invents nor loses a certificate: apart from repetitions, what
comes out is what was presented in another order, and it is linked.
-/

namespace GridSecurity.Chain

theorem dropSeen_sublist (seen : List String) (presented : List Certificate) :
    (dropSeen seen presented).Sublist presented := by
  induction presented generalizing seen with
  | nil => exact .slnil
  | cons certificate presented induction =>
      unfold dropSeen
      split
      · exact (induction seen).cons certificate
      · exact (induction _).cons_cons certificate

theorem dropSeen_cons_of_mem {seen : List String} {certificate : Certificate}
    (before : certificate.fingerprint ∈ seen) (presented : List Certificate) :
    dropSeen seen (certificate :: presented) = dropSeen seen presented :=
  if_pos before

theorem dropSeen_cons_of_notMem {seen : List String} {certificate : Certificate}
    (unseen : certificate.fingerprint ∉ seen) (presented : List Certificate) :
    dropSeen seen (certificate :: presented) =
      certificate :: dropSeen (certificate.fingerprint :: seen) presented :=
  if_neg unseen

theorem fingerprint_notMem_of_mem_dropSeen {seen : List String} {presented : List Certificate}
    {certificate : Certificate} (member : certificate ∈ dropSeen seen presented) :
    certificate.fingerprint ∉ seen := by
  induction presented generalizing seen with
  | nil => cases member
  | cons first presented induction =>
      by_cases before : first.fingerprint ∈ seen
      · rw [dropSeen_cons_of_mem before] at member
        exact induction member
      · rw [dropSeen_cons_of_notMem before] at member
        rcases List.mem_cons.mp member with rfl | later
        · exact before
        · intro seenBefore
          exact induction later (List.mem_cons_of_mem _ seenBefore)

/-- No fingerprint is left twice. -/
theorem nodup_dropSeen (seen : List String) (presented : List Certificate) :
    ((dropSeen seen presented).map (·.fingerprint)).Nodup := by
  induction presented generalizing seen with
  | nil => exact .nil
  | cons first presented induction =>
      by_cases before : first.fingerprint ∈ seen
      · rw [dropSeen_cons_of_mem before]
        exact induction seen
      · rw [dropSeen_cons_of_notMem before, List.map_cons, List.nodup_cons]
        constructor
        · intro again
          obtain ⟨other, member, same⟩ := List.mem_map.mp again
          apply fingerprint_notMem_of_mem_dropSeen member
          rw [same]
          exact List.mem_cons_self
        · exact induction _

theorem nodup_dropRepeated (presented : List Certificate) : (dropRepeated presented).Nodup :=
  (nodup_dropSeen [] presented).of_map

/-- Behind presented certificates, those that come further are left out if their
fingerprints are known from the presented ones. -/
theorem exists_dropSeen_append (seen : List String) (presented further : List Certificate) :
    ∃ known, dropSeen seen (presented ++ further) =
        dropSeen seen presented ++ dropSeen known further ∧
      (∀ fingerprint ∈ seen, fingerprint ∈ known) ∧
      ∀ certificate ∈ presented, certificate.fingerprint ∈ known := by
  induction presented generalizing seen with
  | nil => exact ⟨seen, rfl, fun _ member => member, by simp⟩
  | cons first presented induction =>
      by_cases before : first.fingerprint ∈ seen
      · obtain ⟨known, whole, kept, covered⟩ := induction seen
        refine ⟨known, ?_, kept, ?_⟩
        · rw [List.cons_append, dropSeen_cons_of_mem before, dropSeen_cons_of_mem before, whole]
        · intro certificate member
          rcases List.mem_cons.mp member with rfl | later
          · exact kept _ before
          · exact covered certificate later
      · obtain ⟨known, whole, kept, covered⟩ := induction (first.fingerprint :: seen)
        refine ⟨known, ?_, ?_, ?_⟩
        · rw [List.cons_append, dropSeen_cons_of_notMem before, dropSeen_cons_of_notMem before,
            whole, List.cons_append]
        · intro fingerprint member
          exact kept fingerprint (List.mem_cons_of_mem _ member)
        · intro certificate member
          rcases List.mem_cons.mp member with rfl | later
          · exact kept _ List.mem_cons_self
          · exact covered certificate later

/-! ## The leaf -/

theorem issuesAnother_eq_false_iff {certificates : List Certificate} {position : Nat}
    {certificate : Certificate} :
    issuesAnother certificates position certificate = false ↔
      ∀ (other : Certificate) (otherPosition : Nat), certificates[otherPosition]? = some other →
        otherPosition ≠ position → ¬ other.IssuedBy certificate := by
  simp [issuesAnother, List.mem_zipIdx_iff_getElem?, Prod.forall]

theorem mem_leafPositions_iff {certificates : List Certificate} {position : Nat} :
    position ∈ leafPositions certificates ↔
      ∃ leaf, certificates[position]? = some leaf ∧
        ∀ (other : Certificate) (otherPosition : Nat), certificates[otherPosition]? = some other →
          otherPosition ≠ position → ¬ other.IssuedBy leaf := by
  simp [leafPositions, issuesAnother_eq_false_iff, List.mem_zipIdx_iff_getElem?, Prod.exists]

/-- Among distinct certificates, the leaves are those that issued no other one. -/
theorem mem_leafPositions_iff_of_nodup {certificates : List Certificate}
    (distinct : certificates.Nodup) {position : Nat} :
    position ∈ leafPositions certificates ↔
      ∃ leaf, certificates[position]? = some leaf ∧
        ∀ other ∈ certificates, other ≠ leaf → ¬ other.IssuedBy leaf := by
  rw [mem_leafPositions_iff]
  refine exists_congr fun leaf => and_congr_right fun found => ?_
  constructor
  · intro issuesNone other member different
    obtain ⟨otherPosition, there⟩ := List.getElem?_of_mem member
    apply issuesNone other otherPosition there
    rintro rfl
    exact different (Option.some.inj (there.symm.trans found))
  · intro issuesNoOther other otherPosition there elsewhere
    apply issuesNoOther other (List.mem_of_getElem? there)
    rintro rfl
    apply elsewhere
    apply (List.getElem?_inj (List.getElem?_eq_some_iff.mp there).1 distinct).mp
    rw [there, found]

theorem nodup_leafPositions (certificates : List Certificate) :
    (leafPositions certificates).Nodup := by
  have positions : (certificates.zipIdx.map Prod.snd).Nodup := by
    rw [List.zipIdx_map_snd]
    exact List.nodup_range'
  exact positions.sublist (List.filter_sublist.map _)

theorem leafPositions_singleton (certificate : Certificate) :
    leafPositions [certificate] = [0] := by
  simp [leafPositions, issuesAnother]

theorem leafPosition_eq_ok_iff {certificates : List Certificate} {position : Nat} :
    leafPosition certificates = .ok position ↔ leafPositions certificates = [position] := by
  unfold leafPosition
  split
  · next only found =>
      rw [found]
      simp
  · next none =>
      rw [none]
      simp
  · next positions several _ =>
      constructor
      · intro impossible
        cases impossible
      · intro only
        exact absurd only (several position)

/-! ## The walk -/

/-- The next place holds a certificate that issued the given one. -/
theorem exists_of_nextPosition? {places : Places} {certificate : Certificate} {next : Nat}
    (found : nextPosition? places certificate = some next) :
    certificate.isSelfIssued = false ∧
      ∃ authority, places[next]? = some (some authority) ∧ certificate.IssuedBy authority := by
  unfold nextPosition? at found
  split at found
  · cases found
  · next notSelfIssued =>
      obtain ⟨inside, issues, _⟩ := List.findIdx?_eq_some_iff_getElem.mp found
      obtain ⟨authority, here, issued⟩ := (Option.any_eq_true _ _).mp issues
      refine ⟨Bool.eq_false_iff.mpr notSelfIssued, authority, ?_, of_decide_eq_true issued⟩
      rw [List.getElem?_eq_getElem inside, here]

/-- Emptying a place takes its certificate away. -/
theorem filterMap_set_none_perm {places : Places} {position : Nat}
    {certificate : Certificate} (found : places[position]? = some (some certificate)) :
    (certificate :: (places.set position none).filterMap id).Perm
      (places.filterMap id) := by
  induction places generalizing position with
  | nil => simp at found
  | cons place places induction =>
      cases position with
      | zero =>
          obtain rfl : place = some certificate := by simpa using found
          exact .refl _
      | succ position =>
          have later := induction (by simpa using found)
          cases place with
          | none => simpa using later
          | some other =>
              exact (List.Perm.swap other certificate _).trans (later.cons other)

/-- What a successful walk does: it takes the certificate at its place and either
ends there or goes on from the place of the issuer. -/
theorem walk_cases {places : Places} {position : Nat} {ordered : List Certificate}
    (walked : walk places position = .ok ordered) :
    ∃ certificate rest, places[position]? = some (some certificate) ∧
      ordered = certificate :: rest ∧
      (nextPosition? (places.set position none) certificate = none ∧ rest = [] ∨
        ∃ next, nextPosition? (places.set position none) certificate = some next ∧
          walk (places.set position none) next = .ok rest) := by
  rw [walk] at walked
  split at walked
  · next certificate found =>
      dsimp only at walked
      split at walked
      · next ends =>
          obtain rfl := Except.ok.inj walked
          exact ⟨certificate, [], found, rfl, .inl ⟨ends, rfl⟩⟩
      · next next goesOn =>
          obtain ⟨others, later, whole⟩ := map_eq_ok_iff.mp walked
          exact ⟨certificate, others, found, whole.symm, .inr ⟨next, goesOn, later⟩⟩
  · cases walked

/-- A walk ends at a certificate without a next place. -/
theorem walk_of_nextPosition?_eq_none {places : Places} {position : Nat}
    {certificate : Certificate} (found : places[position]? = some (some certificate))
    (ends : nextPosition? (places.set position none) certificate = none) :
    walk places position = .ok [certificate] := by
  rw [walk]
  split
  · next other alsoFound =>
      obtain rfl := Option.some.inj (Option.some.inj (found.symm.trans alsoFound))
      dsimp only
      rw [ends]
  · next nobody =>
      exact absurd found (nobody certificate)

theorem walk_singleton (certificate : Certificate) :
    walk [some certificate] 0 = .ok [certificate] := by
  apply walk_of_nextPosition?_eq_none rfl
  simp [nextPosition?]

theorem linked_of_walk {places : Places} {position : Nat} {ordered : List Certificate}
    (walked : walk places position = .ok ordered) : Linked ordered := by
  induction ordered generalizing places position with
  | nil => trivial
  | cons certificate ordered induction =>
      obtain ⟨_, _, _, same, goesOn⟩ := walk_cases walked
      obtain ⟨rfl, rfl⟩ := List.cons.inj same
      rcases goesOn with ⟨_, rfl⟩ | ⟨next, found, later⟩
      · trivial
      · obtain ⟨_, authority, there, issued⟩ := exists_of_nextPosition? found
        obtain ⟨first, rest, alsoThere, rfl, _⟩ := walk_cases later
        obtain rfl := Option.some.inj (Option.some.inj (there.symm.trans alsoThere))
        exact ⟨issued, induction later⟩

/-- A walk uses every certificate at most once. -/
theorem subperm_of_walk {places : Places} {position : Nat} {ordered : List Certificate}
    (walked : walk places position = .ok ordered) :
    ordered.Subperm (places.filterMap id) := by
  induction ordered generalizing places position with
  | nil =>
      obtain ⟨certificate, rest, _, same, _⟩ := walk_cases walked
      cases same
  | cons certificate ordered induction =>
      obtain ⟨_, _, found, same, goesOn⟩ := walk_cases walked
      obtain ⟨rfl, rfl⟩ := List.cons.inj same
      have others : ordered.Subperm ((places.set position none).filterMap id) := by
        rcases goesOn with ⟨_, rfl⟩ | ⟨next, _, later⟩
        · exact List.nil_subperm
        · exact induction later
      exact ((List.subperm_cons certificate).mpr others).trans
        (filterMap_set_none_perm found).subperm

/-! ## The order -/

/-- Ordering succeeds exactly if there is one leaf and the walk from it uses all
certificates.  A single certificate is no exception: it is the leaf, and the walk
ends at it. -/
theorem sort_eq_ok_iff {presented ordered : List Certificate} :
    sort presented = .ok ordered ↔
      ∃ position, leafPositions (dropRepeated presented) = [position] ∧
        walk ((dropRepeated presented).map some) position = .ok ordered ∧
        ordered.length = (dropRepeated presented).length := by
  cases presented with
  | nil => simp [sort, dropRepeated, dropSeen, leafPositions]
  | cons first others =>
      unfold sort
      rw [List.isEmpty_cons, if_neg Bool.false_ne_true]
      dsimp only
      split
      · next single =>
          obtain ⟨only, whole⟩ := List.length_eq_one_iff.mp single
          rw [whole, leafPositions_singleton]
          constructor
          · intro same
            obtain rfl := Except.ok.inj same
            exact ⟨0, rfl, walk_singleton only, rfl⟩
          · rintro ⟨position, first, walked, _⟩
            obtain rfl := List.singleton_inj.mp first
            exact (walk_singleton only).symm.trans walked
      · simp only [bind_eq_ok_iff, leafPosition_eq_ok_iff]
        constructor
        · rintro ⟨position, isLeaf, walked, found, complete⟩
          split at complete
          · next all =>
              obtain rfl := Except.ok.inj complete
              exact ⟨position, isLeaf, found, all⟩
          · cases complete
        · rintro ⟨position, isLeaf, found, all⟩
          exact ⟨position, isLeaf, ordered, found, if_pos all⟩

/-- An ordered chain consists of the presented certificates without
repetitions. -/
theorem sort_perm {presented ordered : List Certificate}
    (sorted : sort presented = .ok ordered) : ordered.Perm (dropRepeated presented) := by
  obtain ⟨position, _, walked, all⟩ := sort_eq_ok_iff.mp sorted
  have inside : ordered.Subperm (dropRepeated presented) := by
    simpa [List.filterMap_map] using subperm_of_walk walked
  exact inside.perm_of_length_le (Nat.le_of_eq all.symm)

/-- The first certificate of an ordered chain issued no other one. -/
theorem not_issuedBy_of_sort {presented ordered : List Certificate}
    (sorted : sort presented = .ok ordered) {leaf : Certificate}
    (first : ordered.head? = some leaf) :
    ∀ certificate ∈ dropRepeated presented, certificate ≠ leaf →
      ¬ certificate.IssuedBy leaf := by
  obtain ⟨position, onlyLeaf, walked, _⟩ := sort_eq_ok_iff.mp sorted
  obtain ⟨_, _, found, rfl, _⟩ := walk_cases walked
  obtain rfl := Option.some.inj first
  have isLeaf : position ∈ leafPositions (dropRepeated presented) := by
    rw [onlyLeaf]
    exact List.mem_singleton_self position
  obtain ⟨_, here, issuesNoOther⟩ :=
    (mem_leafPositions_iff_of_nodup (nodup_dropRepeated presented)).mp isLeaf
  rw [List.getElem?_map, here] at found
  obtain rfl := Option.some.inj (Option.some.inj found)
  exact issuesNoOther

theorem mem_of_mem_sort {presented ordered : List Certificate}
    (sorted : sort presented = .ok ordered) {certificate : Certificate}
    (member : certificate ∈ ordered) : certificate ∈ presented :=
  (dropSeen_sublist [] presented).subset ((sort_perm sorted).subset member)

end GridSecurity.Chain
