import GridSecurity.Proofs.Chain.Circle

/-!
# Stages of the walk

At every stage the walk takes a certificate from its place and looks for the issuer in the
places that are left.  It goes to occupied places only and empties one at every stage, so
that it ends after as many stages as there are certificates at most.  It has no way to
notice a circle: what shows of one is that nobody is a leaf, or that the walk from the leaf
does not get to all certificates.
-/

namespace GridSecurity

namespace Chain

/-- The places left and the position from which the next certificate is taken. -/
structure Stage where
  places : Places
  position : Nat

namespace Stage

/-- The stage at which a walk among certificates begins. -/
def first (certificates : List Certificate) (leaf : Nat) : Stage :=
  ⟨certificates.map some, leaf⟩

/-- There is such a place, and the certificate is still in it. -/
def Takes (stage : Stage) (certificate : Certificate) : Prop :=
  stage.places[stage.position]? = some (some certificate)

def rest (stage : Stage) : Places := stage.places.set stage.position none

/-- Having taken a certificate, the walk goes on to another stage. -/
def GoesOn (stage next : Stage) : Prop :=
  next.places = stage.rest ∧
    ∃ certificate, stage.Takes certificate ∧
      nextPosition? stage.rest certificate = some next.position

/-- A walk that begins at a stage gets to another one after a number of certificates. -/
inductive Reaches (start : Stage) : Nat → Stage → Prop
  | begins : Reaches start 0 start
  | goesOn {count : Nat} {stage next : Stage} :
      Reaches start count stage → stage.GoesOn next → Reaches start (count + 1) next

variable {start stage next : Stage} {count : Nat} {certificate : Certificate}
  {ordered : List Certificate}

/-! ## One stage -/

theorem Takes.position_lt (takes : stage.Takes certificate) :
    stage.position < stage.places.length :=
  (List.getElem?_eq_some_iff.mp takes).1

private theorem Takes.occupied_rest_lt (takes : stage.Takes certificate) :
    Places.occupied stage.rest < Places.occupied stage.places :=
  Places.occupied_set_none takes

/-- The place that the walk goes to next is an occupied one. -/
theorem GoesOn.exists_takes (goesOn : stage.GoesOn next) :
    ∃ authority, next.Takes authority := by
  obtain ⟨places, certificate, _, found⟩ := goesOn
  obtain ⟨_, authority, there, _⟩ := exists_of_nextPosition? found
  refine ⟨authority, ?_⟩
  rw [Takes, places]
  exact there

private theorem GoesOn.length_places (goesOn : stage.GoesOn next) :
    next.places.length = stage.places.length := by
  rw [goesOn.1, rest, List.length_set]

private theorem GoesOn.occupied_lt (goesOn : stage.GoesOn next) :
    Places.occupied next.places < Places.occupied stage.places := by
  obtain ⟨places, certificate, takes, _⟩ := goesOn
  rw [places]
  exact takes.occupied_rest_lt

/-! ## All stages -/

theorem Reaches.exists_takes (reaches : Reaches start count stage)
    (takes : ∃ certificate, start.Takes certificate) :
    ∃ certificate, stage.Takes certificate := by
  cases reaches with
  | begins => exact takes
  | goesOn _ goesOn => exact goesOn.exists_takes

theorem Reaches.length_places (reaches : Reaches start count stage) :
    stage.places.length = start.places.length := by
  induction reaches with
  | begins => rfl
  | goesOn _ goesOn induction => exact goesOn.length_places.trans induction

/-- Each certificate that was taken has left its place empty. -/
theorem Reaches.occupied_add_le (reaches : Reaches start count stage) :
    Places.occupied stage.places + count ≤ Places.occupied start.places := by
  induction reaches with
  | begins => exact Nat.le_refl _
  | goesOn _ goesOn induction =>
      have fewer := goesOn.occupied_lt
      omega

theorem Reaches.count_lt (reaches : Reaches start count stage)
    (takes : ∃ certificate, start.Takes certificate) :
    count < Places.occupied start.places := by
  obtain ⟨certificate, takesHere⟩ := reaches.exists_takes takes
  have fewer := takesHere.occupied_rest_lt
  have left := reaches.occupied_add_le
  omega

/-! ## The walk goes through the stages -/

private theorem drop_eq_cons {items others : List Certificate} {item : Certificate}
    (split : items.drop count = item :: others) :
    items[count]? = some item ∧ items.drop (count + 1) = others := by
  constructor
  · rw [← List.head?_drop, split]
    rfl
  · rw [← List.drop_drop, split]
    rfl

/-- A walk that begins at an occupied place comes to its end. -/
theorem exists_walk (takes : stage.Takes certificate) :
    ∃ ordered, walk stage.places stage.position = .ok ordered := by
  -- On the number of certificates left: every stage empties the place it takes from.
  induction size : Places.occupied stage.places using Nat.strong_induction_on
    generalizing stage certificate with
  | _ size induction =>
      cases found : nextPosition? stage.rest certificate with
      | none => exact ⟨[certificate], walk_of_nextPosition?_eq_none takes found⟩
      | some position =>
          have goesOn : stage.GoesOn ⟨stage.rest, position⟩ := ⟨rfl, certificate, takes, found⟩
          obtain ⟨authority, nextTakes⟩ := goesOn.exists_takes
          obtain ⟨others, walked⟩ := induction _ (size ▸ goesOn.occupied_lt) nextTakes rfl
          refine ⟨certificate :: others, ?_⟩
          rw [walk_of_nextPosition?_eq_some takes found]
          exact map_eq_ok_iff.mpr ⟨others, walked, rfl⟩

/-- The walk has a fault exactly if there is nothing to take from the place where it
begins. -/
theorem walk_eq_error_iff {fault : ChainFault} :
    walk stage.places stage.position = .error fault ↔
      fault = .cycle ∧ ∀ certificate, ¬ stage.Takes certificate := by
  constructor
  · intro failed
    have nothing (certificate : Certificate) : ¬ stage.Takes certificate := by
      intro takes
      obtain ⟨ordered, walked⟩ := exists_walk takes
      cases walked.symm.trans failed
    refine ⟨?_, nothing⟩
    rw [walk] at failed
    split at failed
    · next certificate found => exact absurd found (nothing certificate)
    · exact (Except.error.inj failed).symm
  · rintro ⟨rfl, nothing⟩
    rw [walk]
    split
    · next certificate found => exact absurd found (nothing certificate)
    · rfl

/-- At a stage that a walk gets to, the rest of its certificates is still to be taken. -/
theorem Reaches.walk_eq_drop (reaches : Reaches start count stage)
    (walked : walk start.places start.position = .ok ordered) :
    walk stage.places stage.position = .ok (ordered.drop count) := by
  induction reaches with
  | begins => exact walked
  | goesOn _ goesOn induction =>
      obtain ⟨certificate, others, found, split, continues⟩ := walk_cases induction
      obtain ⟨places, _, takes, nextFound⟩ := goesOn
      obtain rfl := Option.some.inj (Option.some.inj (found.symm.trans takes))
      rw [(drop_eq_cons split).2, places]
      rcases continues with ⟨ends, _⟩ | ⟨position, alsoFound, later⟩
      · cases ends.symm.trans nextFound
      · obtain rfl := Option.some.inj (alsoFound.symm.trans nextFound)
        exact later

theorem Reaches.takes_iff (reaches : Reaches start count stage)
    (walked : walk start.places start.position = .ok ordered) :
    stage.Takes certificate ↔ ordered[count]? = some certificate := by
  obtain ⟨taken, others, takes, split, _⟩ := walk_cases (reaches.walk_eq_drop walked)
  rw [(drop_eq_cons split).1, Takes, takes, Option.some_inj]

/-- A walk gets to as many stages as it returns certificates. -/
theorem exists_reaches (walked : walk start.places start.position = .ok ordered)
    (inside : count < ordered.length) : ∃ stage, Reaches start count stage := by
  induction count with
  | zero => exact ⟨start, .begins⟩
  | succ count induction =>
      obtain ⟨stage, reaches⟩ := induction (Nat.lt_of_succ_lt inside)
      obtain ⟨certificate, others, takes, split, continues⟩ :=
        walk_cases (reaches.walk_eq_drop walked)
      rcases continues with ⟨_, rfl⟩ | ⟨position, found, _⟩
      · exact absurd inside (Nat.not_lt.mpr (List.drop_eq_nil_iff.mp (drop_eq_cons split).2))
      · exact ⟨⟨stage.rest, position⟩, reaches.goesOn ⟨rfl, certificate, takes, found⟩⟩

/-- The certificates that a walk returns are those that it takes, stage by stage. -/
theorem getElem?_of_walk (walked : walk start.places start.position = .ok ordered) :
    ordered[count]? = some certificate ↔
      ∃ stage, Reaches start count stage ∧ stage.Takes certificate := by
  constructor
  · intro found
    obtain ⟨stage, reaches⟩ := exists_reaches walked (List.getElem?_eq_some_iff.mp found).1
    exact ⟨stage, reaches, (reaches.takes_iff walked).mpr found⟩
  · rintro ⟨stage, reaches, takes⟩
    exact (reaches.takes_iff walked).mp takes

end Stage

end Chain

end GridSecurity
