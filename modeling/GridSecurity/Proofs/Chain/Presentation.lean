import GridSecurity.Proofs.Chain.Circle

/-!
# The order of presentation

The walk prefers the certificate that was presented first.  Among certificates of
distinct subjects it has no choice, and the order in which they are presented does not
matter.  Of two certificates of one subject in an ordered chain, the one behind takes the
place of the other when it is presented first.
-/

namespace GridSecurity

namespace Chain

/-- The fingerprints tell the certificates apart. -/
def ToldApart (certificates : List Certificate) : Prop :=
  ∀ certificate ∈ certificates, ∀ other ∈ certificates,
    certificate.fingerprint = other.fingerprint → certificate = other

instance (certificates : List Certificate) : Decidable (ToldApart certificates) :=
  inferInstanceAs (Decidable (∀ certificate ∈ certificates, ∀ other ∈ certificates, _ → _))

theorem ToldApart.mem_dropRepeated_iff {presented : List Certificate}
    (toldApart : ToldApart presented) {certificate : Certificate} :
    certificate ∈ dropRepeated presented ↔ certificate ∈ presented := by
  constructor
  · intro member
    exact (dropSeen_sublist [] presented).subset member
  · intro member
    obtain ⟨before, after, rfl, notBefore⟩ := List.eq_append_cons_of_mem member
    apply Chain.mem_dropRepeated_iff.mpr
    refine ⟨before, after, rfl, ?_⟩
    intro other otherMember same
    obtain rfl := toldApart other (List.mem_append_left _ otherMember) certificate member same
    exact notBefore otherMember

private theorem ToldApart.dropRepeated_perm {presented other : List Certificate}
    (toldApart : ToldApart presented) (permutation : other.Perm presented) :
    (dropRepeated other).Perm (dropRepeated presented) := by
  have otherToldApart : ToldApart other := by
    intro certificate member further furtherMember
    exact toldApart certificate (permutation.subset member) further
      (permutation.subset furtherMember)
  rw [List.perm_ext_iff_of_nodup (nodup_dropRepeated other) (nodup_dropRepeated presented)]
  intro certificate
  rw [otherToldApart.mem_dropRepeated_iff, toldApart.mem_dropRepeated_iff, permutation.mem_iff]

/-! ## Without a choice -/

private theorem sort_eq_of_perm {presented other ordered : List Certificate}
    (sorted : sort presented = .ok ordered)
    (distinct : DistinctSubjects (dropRepeated presented))
    (permutation : (dropRepeated other).Perm (dropRepeated presented)) :
    sort other = .ok ordered := by
  have orders := orders_of_sort sorted
  have otherOrders : Orders other ordered :=
    { orders with permutes := orders.permutes.trans permutation.symm }
  apply otherOrders.sort_eq
  · rintro rfl
    exact (inOrder_of_sort sorted).nonempty otherOrders.permutes.eq_nil
  · exact (distinctSubjects_iff_of_perm permutation).mpr distinct

private theorem toOption_sort_eq_of_distinctSubjects {presented other : List Certificate}
    (toldApart : ToldApart presented) (distinct : DistinctSubjects (dropRepeated presented))
    (permutation : other.Perm presented) :
    (sort other).toOption = (sort presented).toOption := by
  have same := toldApart.dropRepeated_perm permutation
  ext ordered
  rw [toOption_eq_some_iff, toOption_eq_some_iff]
  constructor
  · intro sorted
    exact sort_eq_of_perm sorted ((distinctSubjects_iff_of_perm same).mpr distinct) same.symm
  · intro sorted
    exact sort_eq_of_perm sorted distinct same

/-- Without a circle the certificates that are accepted in one order are accepted in every
order, with the same result. -/
theorem toOption_sort_eq_of_no_circle {presented other : List Certificate}
    (toldApart : ToldApart presented) (noCircle : ¬ HasCircle (dropRepeated presented))
    (permutation : other.Perm presented) :
    (sort other).toOption = (sort presented).toOption := by
  have same := toldApart.dropRepeated_perm permutation
  ext ordered
  rw [toOption_eq_some_iff, toOption_eq_some_iff]
  constructor
  · intro sorted
    rw [← hasCircle_iff_of_perm same] at noCircle
    exact sort_eq_of_perm sorted (distinctSubjects_of_no_circle sorted noCircle) same.symm
  · intro sorted
    exact sort_eq_of_perm sorted (distinctSubjects_of_no_circle sorted noCircle) same

/-! ## The certificate that is presented first -/

/-- The first place is the next one as soon as it holds an issuer. -/
private theorem eq_zero_of_nextPosition? {places : Places} {certificate authority : Certificate}
    {next : Nat} (first : places[0]? = some (some authority))
    (issued : certificate.IssuedBy authority)
    (goesOn : nextPosition? places certificate = some next) : next = 0 := by
  unfold nextPosition? at goesOn
  split at goesOn
  · cases goesOn
  · obtain ⟨_, _, noneBefore⟩ := List.findIdx?_eq_some_iff_getElem.mp goesOn
    by_contra later
    obtain ⟨inside, here⟩ := List.getElem?_eq_some_iff.mp first
    apply noneBefore 0 (Nat.pos_of_ne_zero later)
    rw [here]
    exact decide_eq_true issued

private theorem first_set_none {places : Places} {position : Nat}
    {certificate authority : Certificate} (first : places[0]? = some (some authority))
    (found : places[position]? = some (some certificate)) (different : authority ≠ certificate) :
    (places.set position none)[0]? = some (some authority) := by
  rw [List.getElem?_set_ne, first]
  rintro rfl
  exact different (Option.some.inj (Option.some.inj (first.symm.trans found)))

/-- A walk goes to the first place as soon as it looks for the subject of the certificate
there. -/
private theorem eq_of_walk_of_first {places : Places} {position : Nat}
    {front back : List Certificate}
    {certificate next authority : Certificate} (first : places[0]? = some (some authority))
    (walked : walk places position = .ok (front ++ certificate :: next :: back))
    (notBefore : authority ∉ front ++ [certificate]) (issued : certificate.IssuedBy authority) :
    next = authority := by
  induction front generalizing places position with
  | nil =>
      obtain ⟨_, _, found, same, goesOn⟩ := walk_cases walked
      obtain ⟨rfl, rfl⟩ := List.cons.inj same
      have stillFirst := first_set_none first found (List.ne_of_not_mem_cons notBefore)
      rcases goesOn with ⟨_, ends⟩ | ⟨place, goesOn, later⟩
      · cases ends
      · obtain rfl := eq_zero_of_nextPosition? stillFirst issued goesOn
        obtain ⟨_, _, there, same, _⟩ := walk_cases later
        obtain ⟨rfl, rfl⟩ := List.cons.inj same
        exact Option.some.inj (Option.some.inj (there.symm.trans stillFirst))
  | cons head front induction =>
      obtain ⟨_, _, found, same, goesOn⟩ := walk_cases walked
      obtain ⟨rfl, rfl⟩ := List.cons.inj same
      rw [List.cons_append, List.mem_cons, not_or] at notBefore
      have stillFirst := first_set_none first found notBefore.1
      rcases goesOn with ⟨_, ends⟩ | ⟨place, _, later⟩
      · simp at ends
      · exact induction stillFirst later notBefore.2

/-- No certificate behind the leaf has the leaf's subject, for it would make the leaf the
issuer of the one in front of it. -/
theorem InOrder.leaf_subject {leaf : Certificate} {rest : List Certificate}
    (inOrder : InOrder (leaf :: rest)) {authority : Certificate} (member : authority ∈ rest) :
    ¬ leaf.subject.Same authority.subject := by
  intro same
  have notSelfIssued : leaf.isSelfIssued = false := by
    apply inOrder.lastOnlySelfIssued
    obtain ⟨second, others, rfl⟩ := List.exists_cons_of_ne_nil (List.ne_nil_of_mem member)
    exact List.mem_cons_self
  have isLeaf : authority = leaf := by
    apply (inOrder.eq_leaf_iff (List.mem_cons_of_mem leaf member)).mpr
    intro other otherMember _ issued
    have issuedByLeaf : other.IssuedBy leaf := issued.trans same.symm
    rcases List.mem_cons.mp otherMember with rfl | behind
    · exact not_issuedBy_self notSelfIssued issuedByLeaf
    · exact inOrder.leafIssuesNone leaf rfl other behind issuedByLeaf
  rw [isLeaf] at member
  exact (List.nodup_cons.mp inOrder.nodup).1 member

/-- If an ordered chain has two certificates of one subject, the certificates can be
presented in an order in which it is not what ordering returns. -/
theorem exists_sort_ne {presented ordered : List Certificate}
    (sorted : sort presented = .ok ordered) (repeated : ¬ DistinctSubjects ordered) :
    ∃ other, other.Perm presented ∧ sort other ≠ .ok ordered := by
  have inOrder := inOrder_of_sort sorted
  unfold DistinctSubjects at repeated
  rw [List.pairwise_iff_forall_sublist] at repeated
  push Not at repeated
  obtain ⟨certificate, authority, inBoth, same⟩ := repeated
  obtain ⟨before, behind, rfl, member, authorityBehind⟩ := List.cons_sublist_iff.mp inBoth
  obtain ⟨front, middle, rfl⟩ := List.append_of_mem member
  have authorityMember : authority ∈ behind := List.singleton_sublist.mp authorityBehind
  have notBefore : authority ∉ front ++ certificate :: middle := by
    intro inFront
    exact (List.nodup_append.mp inOrder.nodup).2.2 authority inFront authority
      authorityMember rfl
  have inPresented : authority ∈ presented :=
    mem_of_mem_sort sorted (List.mem_append_right _ authorityMember)
  -- Presented first, the certificate behind is the one that the walk takes for the subject.
  refine ⟨authority :: presented.erase authority, (List.perm_cons_erase inPresented).symm, ?_⟩
  intro otherSorted
  obtain ⟨position, _, walked, _⟩ := sort_eq_ok_iff.mp otherSorted
  have first : ((dropRepeated (authority :: presented.erase authority)).map some)[0]? =
      some (some authority) := by
    rw [dropRepeated, dropSeen_cons_of_notMem List.not_mem_nil]
    rfl
  rcases List.eq_nil_or_concat' front with rfl | ⟨others, previous, rfl⟩
  · exact inOrder.leaf_subject (List.mem_append_right middle authorityMember) same
  · have whole : others ++ [previous] ++ certificate :: middle ++ behind =
        others ++ previous :: certificate :: (middle ++ behind) := by
      simp
    rw [whole] at walked inOrder
    have chain := (linked_iff_isChain.mp inOrder.linked).right_of_append
    have issued : previous.IssuedBy certificate := (List.isChain_cons_cons.mp chain).1
    have notInFront : authority ∉ others ++ [previous] := by
      intro inFront
      exact notBefore (List.mem_append_left _ inFront)
    have taken := eq_of_walk_of_first first walked notInFront (issued.trans same)
    apply notBefore
    rw [← taken]
    exact List.mem_append_right _ List.mem_cons_self

/-- The order in which certificates are presented does not matter exactly if their
subjects are distinct or every order of them is refused. -/
theorem order_immaterial_iff {presented : List Certificate} (toldApart : ToldApart presented) :
    (∀ other : List Certificate, other.Perm presented →
        (sort other).toOption = (sort presented).toOption) ↔
      DistinctSubjects (dropRepeated presented) ∨
        ∀ other : List Certificate, other.Perm presented → (sort other).toOption = none := by
  constructor
  · intro immaterial
    cases sorted : sort presented with
    | error fault =>
        right
        intro other permutation
        rw [immaterial other permutation, sorted]
        rfl
    | ok ordered =>
        left
        by_contra repeated
        rw [← distinctSubjects_iff_of_perm (sort_perm sorted)] at repeated
        obtain ⟨other, permutation, differs⟩ := exists_sort_ne sorted repeated
        apply differs
        rw [← toOption_eq_some_iff, immaterial other permutation, sorted]
        rfl
  · rintro (distinct | refused) other permutation
    · exact toOption_sort_eq_of_distinctSubjects toldApart distinct permutation
    · rw [refused other permutation, refused presented (.refl presented)]

end Chain

/-! ## Two authorities of one subject -/

namespace Sample

/-- A user, its authority with certificates of two others, and one of those, which the
authority certified in turn. -/
def crossed : List Octets :=
  [endEntity 5 'a' 'c', endEntity 6 'z' 'a', endEntity 7 'a' 'z', endEntity 8 'y' 'a']

/-- The same with the authority's certificates the other way round. -/
def crossedAgain : List Octets :=
  [endEntity 5 'a' 'c', endEntity 8 'y' 'a', endEntity 7 'a' 'z', endEntity 6 'z' 'a']

end Sample

theorem Chain.order_immaterial_of_repeated :
    ∃ presented ordered, Chain.parse Sample.withRepetition = .ok presented ∧
      Chain.ToldApart presented ∧ Chain.sort presented = .ok ordered ∧
      ∀ other : List Certificate, other.Perm presented →
        (Chain.sort other).toOption = some ordered := by
  have computed : (Sample.sorting Sample.withRepetition fun presented _ =>
      (decide (Chain.ToldApart presented),
        decide (Chain.DistinctSubjects (Chain.dropRepeated presented)))) =
      some (true, true) := by
    decide +kernel
  obtain ⟨presented, ordered, parsed, sorted, rest⟩ := Sample.exists_of_sorting computed
  simp only [Prod.mk.injEq, decide_eq_true_eq] at rest
  obtain ⟨toldApart, distinct⟩ := rest
  have immaterial := (Chain.order_immaterial_iff toldApart).mpr (.inl distinct)
  refine ⟨presented, ordered, parsed, toldApart, sorted, ?_⟩
  intro other permutation
  rw [immaterial other permutation, sorted]
  rfl

/-- Of an authority's certificates that were issued in a circle and out of it, the one
that is presented first decides whether ordering succeeds. -/
theorem Chain.order_matters_of_crossed :
    ∃ presented other, Chain.parse Sample.crossed = .ok presented ∧
      Chain.parse Sample.crossedAgain = .ok other ∧ other.Perm presented ∧
      (Chain.sort other).toOption ≠ (Chain.sort presented).toOption := by
  have computed : ((Chain.parse Sample.crossed).toOption.bind fun presented =>
      (Chain.parse Sample.crossedAgain).toOption.map fun other =>
        (decide (other.Perm presented),
          decide ((Chain.sort other).toOption = (Chain.sort presented).toOption))) =
      some (true, false) := by
    decide +kernel
  obtain ⟨presented, parsed, rest⟩ := Option.bind_eq_some_iff.mp computed
  obtain ⟨other, otherParsed, same⟩ := Option.map_eq_some_iff.mp rest
  simp only [Prod.mk.injEq, decide_eq_true_eq, decide_eq_false_iff_not] at same
  exact ⟨presented, other, toOption_eq_some_iff.mp parsed, toOption_eq_some_iff.mp otherParsed,
    same.1, same.2⟩

end GridSecurity
