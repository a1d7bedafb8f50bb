import GridSecurity.Proofs.Membership
import GridSecurity.Proofs.Text.Occurrence
import GridSecurity.Proofs.Text.Replacement
import GridSecurity.Proofs.Validation.Trust
import Mathlib.Data.List.TakeWhile

/-!
# Memberships are shown whole or not at all

Information shows a membership exactly if every part that the membership is made of can be
read.  Then no attribute name is left out: there is one for every octet string of every value,
in their order.  Otherwise the fault that is reported is one that the information has.
-/

namespace GridSecurity

section First

variable {α β : Type}

/-- Something is seen at an item of a list, and nothing is seen at the items before it. -/
def FirstSeen (sees : α → β → Prop) (items : List α) (seen : β) : Prop :=
  ∃ before item after, items = before ++ item :: after ∧ sees item seen ∧
    ∀ other ∈ before, ∀ value, ¬ sees other value

variable {sees : α → β → Prop} {view : α → Option β} {items : List α} {seen : β}

private theorem eq_none_iff_of_view (agree : ∀ item value, view item = some value ↔ sees item value)
    (item : α) : view item = none ↔ ∀ value, ¬ sees item value := by
  simp only [Option.eq_none_iff_forall_ne_some, ne_eq, agree]

private theorem findSome?_eq_some_iff_firstSeen
    (agree : ∀ item value, view item = some value ↔ sees item value) :
    items.findSome? view = some seen ↔ FirstSeen sees items seen := by
  simp only [List.findSome?_eq_some_iff, FirstSeen, agree, eq_none_iff_of_view agree]

private theorem findSome?_eq_none_iff_forall
    (agree : ∀ item value, view item = some value ↔ sees item value) :
    items.findSome? view = none ↔ ∀ item ∈ items, ∀ value, ¬ sees item value := by
  simp only [List.findSome?_eq_none_iff, eq_none_iff_of_view agree]

end First

/-! ## Organisations -/

/-- The first component of a path: what stands behind its leading slashes, up to the next one. -/
def FirstComponent (path component : List Char) : Prop :=
  ∃ slashes rest, path = slashes ++ (component ++ rest) ∧
    (∀ character ∈ slashes, character = '/') ∧ (∀ character ∈ component, character ≠ '/') ∧
    (∀ character, rest.head? = some character → character = '/') ∧
    (component = [] → rest = [])

namespace VoMembership

open Der

theorem firstComponent_eq_iff {path component : List Char} :
    firstComponent path = component ↔ FirstComponent path component := by
  constructor
  · rintro rfl
    refine ⟨path.takeWhile (· == '/'), (path.dropWhile (· == '/')).dropWhile (· != '/'),
      ?_, ?_, ?_, ?_, ?_⟩
    · rw [firstComponent, List.takeWhile_append_dropWhile, List.takeWhile_append_dropWhile]
    · intro character member
      simpa using List.mem_takeWhile_imp member
    · intro character member
      simpa using List.mem_takeWhile_imp member
    · intro character atHead
      have stops := List.head?_dropWhile_not (· != '/') (path.dropWhile (· == '/'))
      rw [atHead] at stops
      simpa using stops
    · intro empty
      have stops := List.head?_dropWhile_not (· == '/') path
      unfold firstComponent at empty
      cases behind : path.dropWhile (· == '/') with
      | nil => rfl
      | cons character rest =>
          rw [behind] at stops empty
          have notSlash : character ≠ '/' := by simpa using stops
          simp [notSlash] at empty
  · rintro ⟨slashes, rest, rfl, leading, inside, next, nonempty⟩
    have behind : (slashes ++ (component ++ rest)).dropWhile (· == '/') = component ++ rest := by
      rw [List.dropWhile_append_of_pos fun character member => beq_iff_eq.mpr (leading character member)]
      cases component with
      | nil => rw [nonempty rfl]; rfl
      | cons character component =>
          have notSlash := inside character List.mem_cons_self
          rw [List.cons_append, List.dropWhile_cons_of_neg (by simpa using notSlash)]
    rw [firstComponent, behind, List.takeWhile_append_of_pos fun character member =>
      bne_iff_ne.mpr (inside character member)]
    cases rest with
    | nil => simp
    | cons character rest =>
        rw [next character rfl]
        simp

/-- The policy authority of a value has a resource identifier, and this is the first. -/
def PointsTo (value : PolicyValue) (uri : AsciiText) : Prop :=
  ∃ names, value.authority = some names ∧
    FirstSeen (fun name uri => name = GeneralName.uri uri) names uri

theorem uri?_eq_some_iff (value : PolicyValue) (uri : AsciiText) :
    value.uri? = some uri ↔ PointsTo value uri := by
  have agree : ∀ (name : GeneralName) (uri : AsciiText),
      name.uri? = some uri ↔ name = GeneralName.uri uri := by
    intro name uri
    cases name <;> simp [GeneralName.uri?]
  simp only [PolicyValue.uri?, Option.bind_eq_some_iff, PointsTo,
    findSome?_eq_some_iff_firstSeen agree]

/-- The organisation and the server that values and attribute names give: by the first
resource identifier of a policy authority, cut at its first separator if it has one, and else
by the first attribute name. -/
inductive Organises (values : List PolicyValue) (fqans : List Fqan) :
    String → Option String → Prop
  | served {uri : AsciiText} {vo server : List Char} : FirstSeen PointsTo values uri →
      CutAtFirst authoritySeparator uri.characters vo server →
      Organises values fqans (String.ofList vo) (some (String.ofList server))
  | unserved {uri : AsciiText} : FirstSeen PointsTo values uri →
      ¬ authoritySeparator <:+: uri.characters →
      Organises values fqans (String.ofList uri.characters) none
  | named {first : Fqan} {others : List Fqan} {component : List Char} :
      (∀ value ∈ values, ∀ uri, ¬ PointsTo value uri) → fqans = first :: others →
      FirstComponent first.value.toList component →
      Organises values fqans (String.ofList component) none
  | nameless : (∀ value ∈ values, ∀ uri, ¬ PointsTo value uri) → fqans = [] →
      Organises values fqans "" none

private theorem splitAuthority_of_cut {characters vo server : List Char}
    (cut : CutAtFirst authoritySeparator characters vo server) :
    splitAuthority characters = (String.ofList vo, some (String.ofList server)) := by
  have behind : characters.drop (vo.length + authoritySeparator.length) = server := by
    rw [cut.whole, ← List.length_append]
    exact List.drop_left
  rw [splitAuthority, beforeFirst?_eq_some_iff.mpr ⟨server, cut⟩]
  dsimp only
  rw [behind]

theorem organisationOf_eq_iff {values : List PolicyValue} {fqans : List Fqan} {vo : String}
    {server : Option String} :
    organisationOf values fqans = (vo, server) ↔ Organises values fqans vo server := by
  constructor
  · unfold organisationOf
    split
    · next uri found =>
        have first := (findSome?_eq_some_iff_firstSeen uri?_eq_some_iff).mp found
        intro split
        cases cut? : beforeFirst? authoritySeparator uri.characters with
        | none =>
            rw [splitAuthority, cut?] at split
            obtain ⟨rfl, rfl⟩ := Prod.mk.inj split
            exact .unserved first (beforeFirst?_eq_none_iff.mp cut?)
        | some before =>
            obtain ⟨after, cut⟩ := beforeFirst?_eq_some_iff.mp cut?
            rw [splitAuthority_of_cut cut] at split
            obtain ⟨rfl, rfl⟩ := Prod.mk.inj split
            exact .served first cut
    · next none =>
        have nowhere := (findSome?_eq_none_iff_forall uri?_eq_some_iff).mp none
        intro split
        cases fqans with
        | nil =>
            obtain ⟨rfl, rfl⟩ := Prod.mk.inj split
            exact .nameless nowhere rfl
        | cons first others =>
            obtain ⟨rfl, rfl⟩ := Prod.mk.inj split
            exact .named nowhere rfl (firstComponent_eq_iff.mp rfl)
  · intro organises
    cases organises with
    | served first cut =>
        unfold organisationOf
        rw [(findSome?_eq_some_iff_firstSeen uri?_eq_some_iff).mpr first]
        exact splitAuthority_of_cut cut
    | unserved first uncut =>
        unfold organisationOf
        rw [(findSome?_eq_some_iff_firstSeen uri?_eq_some_iff).mpr first]
        dsimp only
        rw [splitAuthority, beforeFirst?_eq_none_iff.mpr uncut]
    | named nowhere cons component =>
        unfold organisationOf
        rw [(findSome?_eq_none_iff_forall uri?_eq_some_iff).mpr nowhere, cons]
        dsimp only
        rw [firstComponent_eq_iff.mpr component]
    | nameless nowhere empty =>
        unfold organisationOf
        rw [(findSome?_eq_none_iff_forall uri?_eq_some_iff).mpr nowhere, empty]

end VoMembership

/-! ## Names of issuers -/

namespace VoMembership

open Der

/-- A general name is a directory name. -/
def IsDirectory (name : GeneralName) (form : NameForm) : Prop :=
  name = .directory form

theorem directory?_eq_some_iff (name : GeneralName) (form : NameForm) :
    name.directory? = some form ↔ IsDirectory name form := by
  cases name <;> simp [GeneralName.directory?, IsDirectory]

variable {names : GeneralNames}

theorem directoryName?_eq_none_iff :
    directoryName? names = none ↔ ∀ name ∈ names, ∀ form, ¬ IsDirectory name form := by
  rw [directoryName?, Option.map_eq_none_iff]
  exact findSome?_eq_none_iff_forall directory?_eq_some_iff

theorem directoryName?_eq_some_iff {result : Except MembershipFault DistinguishedName} :
    directoryName? names = some result ↔ ∃ form, FirstSeen IsDirectory names form ∧
      (DistinguishedName.ofOctets form.toElement.write).mapError .unreadableName = result := by
  simp only [directoryName?, Option.map_eq_some_iff,
    findSome?_eq_some_iff_firstSeen directory?_eq_some_iff]

/-- The first directory name among general names is read as a name. -/
def NamedBy (names : GeneralNames) (issuer : DistinguishedName) : Prop :=
  ∃ form, FirstSeen IsDirectory names form ∧
    DistinguishedName.ofOctets form.toElement.write = .ok issuer

/-- The first directory name among general names cannot be read. -/
def MisnamedBy (names : GeneralNames) (fault : CertificateFault) : Prop :=
  ∃ form, FirstSeen IsDirectory names form ∧
    DistinguishedName.ofOctets form.toElement.write = .error fault

theorem namedBy_iff {issuer : DistinguishedName} :
    directoryName? names = some (.ok issuer) ↔ NamedBy names issuer := by
  simp only [directoryName?_eq_some_iff, mapError_eq_ok_iff, NamedBy]

theorem misnamedBy_iff {fault : MembershipFault} :
    directoryName? names = some (.error fault) ↔
      ∃ cause, MisnamedBy names cause ∧ .unreadableName cause = fault := by
  simp only [directoryName?_eq_some_iff, mapError_eq_error_iff, MisnamedBy]
  constructor
  · rintro ⟨form, first, cause, unread, same⟩
    exact ⟨cause, ⟨form, first, unread⟩, same⟩
  · rintro ⟨cause, ⟨form, first, unread⟩, same⟩
    exact ⟨form, first, cause, unread, same⟩

/-- The issuer of the holder's certificate is the first directory name in its place, and none
is shown if there is no such name. -/
inductive GivesHolderIssuer (info : AttributeInfo) : Option DistinguishedName → Prop
  | unnamed : (∀ base, info.holder.baseCertificate = some base →
        ∀ name ∈ base.issuer, ∀ form, ¬ IsDirectory name form) →
      GivesHolderIssuer info none
  | named {base : IssuerSerial} {issuer : DistinguishedName} :
      info.holder.baseCertificate = some base → NamedBy base.issuer issuer →
      GivesHolderIssuer info (some issuer)

variable {info : AttributeInfo}

theorem holderIssuerOf_eq_ok_iff {issuer? : Option DistinguishedName} :
    holderIssuerOf info = .ok issuer? ↔ GivesHolderIssuer info issuer? := by
  cases issuer? with
  | none =>
      have unnamed_iff : (info.holder.baseCertificate.bind fun base =>
            directoryName? base.issuer) = none ↔
          ∀ base, info.holder.baseCertificate = some base →
            ∀ name ∈ base.issuer, ∀ form, ¬ IsDirectory name form := by
        simp only [Option.bind_eq_none_iff, directoryName?_eq_none_iff]
      constructor
      · intro nothing
        apply GivesHolderIssuer.unnamed
        apply unnamed_iff.mp
        unfold holderIssuerOf at nothing
        split at nothing
        · assumption
        · obtain ⟨_, _, absurd⟩ := map_eq_ok_iff.mp nothing
          cases absurd
      · intro gives
        cases gives with
        | unnamed unnamed => rw [holderIssuerOf, unnamed_iff.mpr unnamed]
  | some issuer =>
      rw [holderIssuerOf_eq_ok_some_iff]
      simp only [namedBy_iff]
      constructor
      · rintro ⟨base, based, named⟩
        exact .named based named
      · intro gives
        cases gives with
        | named based named => exact ⟨_, based, named⟩

/-! ## Attribute names -/

/-- An attribute carries attribute names in values with these elements. -/
def CarriesNames (typed : TypedValues) (elements : List Element) : Prop :=
  typed.type = attributeType ∧ typed.values.values = elements

theorem exists_find?_attributes_iff {elements : List Element} :
    (∃ typed, info.attributes.find? (·.type == attributeType) = some typed ∧
        typed.values.values = elements) ↔
      FirstSeen CarriesNames info.attributes elements := by
  simp only [List.find?_eq_some_iff_append]
  constructor
  · rintro ⟨typed, ⟨isType, before, after, whole, others⟩, rfl⟩
    refine ⟨before, typed, after, whole, ⟨eq_of_beq isType, rfl⟩, ?_⟩
    rintro other member _ ⟨sameType, _⟩
    simpa [sameType] using others other member
  · rintro ⟨before, typed, after, whole, ⟨isType, rfl⟩, others⟩
    refine ⟨typed, ⟨beq_iff_eq.mpr isType, before, after, whole, ?_⟩, rfl⟩
    intro other member
    simpa [CarriesNames] using others other member

/-- An element is read as a value of an attribute that carries attribute names. -/
def Decodes (element : Element) (value : PolicyValue) : Prop :=
  PolicyValue.ofElement? element = some value

theorem policyValuesOf_eq_ok_iff {values : List PolicyValue} :
    policyValuesOf info = .ok values ↔
      ∃ elements, FirstSeen CarriesNames info.attributes elements ∧
        List.Forall₂ Decodes elements values := by
  simp only [← exists_find?_attributes_iff]
  unfold policyValuesOf
  cases info.attributes.find? (·.type == attributeType) with
  | none => simp
  | some typed =>
      simp only [Option.some.injEq, exists_eq_left']
      have decoded : typed.values.values.mapM PolicyValue.ofElement? = some values ↔
          List.Forall₂ Decodes typed.values.values values := mapM_eq_some_iff
      rw [← decoded]
      cases typed.values.values.mapM PolicyValue.ofElement? with
      | none => simp
      | some others => simp

/-- Octets are read as an attribute name: as a text in which a replacement character stands
for octets that encode none, and so as the text that they encode if they encode one. -/
structure ReadAsName (octets : Octets) (fqan : Fqan) : Prop where
  reads : Utf8.ReadsAs octets fqan.value.toList
  exactly : ∀ text : String, octets.toByteArray = text.toUTF8 → fqan.value = text

theorem readAsName_iff {octets : Octets} {fqan : Fqan} :
    ⟨String.ofList (Utf8.decodeReplacing octets)⟩ = fqan ↔ ReadAsName octets fqan := by
  constructor
  · rintro rfl
    constructor
    · rw [String.toList_ofList]
      exact Utf8.readsAs_decodeReplacing octets
    · intro text encoded
      rw [Utf8.decodeReplacing_of_toUTF8 encoded, String.ofList_toList]
  · intro read
    rw [Utf8.decodeReplacing_eq_iff.mpr read.reads, String.ofList_toList]

/-- There is one attribute name for every octet string of every value, in their order. -/
private theorem flatMap_fqans_eq_iff {values : List PolicyValue} {fqans : List Fqan} :
    values.flatMap PolicyValue.fqans = fqans ↔
      List.Forall₂ ReadAsName (values.flatMap PolicyValue.names) fqans := by
  have agree : (fun octets fqan => ⟨String.ofList (Utf8.decodeReplacing octets)⟩ = fqan) =
      ReadAsName :=
    funext₂ fun _ _ => propext readAsName_iff
  have each : values.flatMap PolicyValue.fqans = (values.flatMap PolicyValue.names).map
      fun octets => ⟨String.ofList (Utf8.decodeReplacing octets)⟩ :=
    List.map_flatMap.symm
  rw [each, ← agree, ← List.forall₂_map_left_iff, List.forall₂_eq_eq_eq]

/-! ## The whole membership -/

/-- A membership shows the parts of some information, every one of which can be read. -/
structure Shows (info : AttributeInfo) (membership : VoMembership) : Prop where
  issuer : ∃ names, info.issuer.names = some names ∧ NamedBy names membership.issuer
  holderIssuer : GivesHolderIssuer info membership.holderIssuer
  holderSerial : membership.holderSerial = info.holder.baseCertificate.map fun base =>
    Octets.trimLeadingZeros base.serial.content
  serial : membership.serial = Octets.hex (Octets.trimLeadingZeros info.serial.content)
  names : ∃ elements values, FirstSeen CarriesNames info.attributes elements ∧
    List.Forall₂ Decodes elements values ∧
    List.Forall₂ ReadAsName (values.flatMap PolicyValue.names) membership.fqans ∧
    Organises values membership.fqans membership.vo membership.server
  notBefore : Instant.ofUnix? info.validity.notBefore.toUnix = some membership.notBefore
  notAfter : Instant.ofUnix? info.validity.notAfter.toUnix = some membership.notAfter

/-- What is wrong with information that shows no membership. -/
inductive Hinders (info : AttributeInfo) : MembershipFault → Prop
  | unnamed : (∀ names, info.issuer.names = some names →
        ∀ name ∈ names, ∀ form, ¬ IsDirectory name form) →
      Hinders info .noIssuerName
  | misnamed {names : GeneralNames} {fault : CertificateFault} :
      info.issuer.names = some names → MisnamedBy names fault →
      Hinders info (.unreadableName fault)
  | misnamedHolder {base : IssuerSerial} {fault : CertificateFault} :
      info.holder.baseCertificate = some base → MisnamedBy base.issuer fault →
      Hinders info (.unreadableName fault)
  | noNames : (∀ typed ∈ info.attributes, typed.type ≠ attributeType) →
      Hinders info .noVomsAttribute
  | undecodable {elements : List Element} {element : Element} :
      FirstSeen CarriesNames info.attributes elements → element ∈ elements →
      (∀ value, ¬ Decodes element value) → Hinders info .invalidSyntax
  | outOfRange {time : Time} : time ∈ [info.validity.notBefore, info.validity.notAfter] →
      Instant.ofUnix? time.toUnix = none → Hinders info (.timeOutOfRange time.toUnix)

theorem instantOf_eq_ok_iff {time : Time} {instant : Instant} :
    instantOf time = .ok instant ↔ Instant.ofUnix? time.toUnix = some instant := by
  unfold instantOf
  cases Instant.ofUnix? time.toUnix with
  | none => simp
  | some other => simp

theorem shownBy_iff_shows {membership : VoMembership} :
    ShownBy info membership ↔ Shows info membership := by
  constructor
  · intro shown
    obtain ⟨values, valuesRead, fqans, organisation⟩ := shown.policies
    obtain ⟨elements, carries, decoded⟩ := policyValuesOf_eq_ok_iff.mp valuesRead
    obtain ⟨names, hasNames, named⟩ := issuerOf_eq_ok_iff.mp shown.issuer
    exact {
      issuer := ⟨names, hasNames, namedBy_iff.mp named⟩
      holderIssuer := holderIssuerOf_eq_ok_iff.mp shown.holderIssuer
      holderSerial := shown.holderSerial
      serial := shown.serial
      names := ⟨elements, values, carries, decoded, flatMap_fqans_eq_iff.mp fqans.symm,
        organisationOf_eq_iff.mp organisation.symm⟩
      notBefore := instantOf_eq_ok_iff.mp shown.notBefore
      notAfter := instantOf_eq_ok_iff.mp shown.notAfter }
  · intro shows
    obtain ⟨elements, values, carries, decoded, fqans, organises⟩ := shows.names
    obtain ⟨names, hasNames, named⟩ := shows.issuer
    exact {
      issuer := issuerOf_eq_ok_iff.mpr ⟨names, hasNames, namedBy_iff.mpr named⟩
      holderIssuer := holderIssuerOf_eq_ok_iff.mpr shows.holderIssuer
      holderSerial := shows.holderSerial
      serial := shows.serial
      policies := ⟨values, policyValuesOf_eq_ok_iff.mpr ⟨elements, carries, decoded⟩,
        (flatMap_fqans_eq_iff.mpr fqans).symm, (organisationOf_eq_iff.mpr organises).symm⟩
      notBefore := instantOf_eq_ok_iff.mpr shows.notBefore
      notAfter := instantOf_eq_ok_iff.mpr shows.notAfter }

private theorem hinders_of_issuerOf {fault : MembershipFault}
    (failed : issuerOf info = .error fault) :
    Hinders info fault := by
  unfold issuerOf at failed
  cases given : info.issuer.names with
  | none =>
      rw [given] at failed
      obtain rfl := Except.error.inj failed
      apply Hinders.unnamed
      intro names hasNames
      cases given.symm.trans hasNames
  | some names =>
      rw [given, Option.bind_some] at failed
      cases shown : directoryName? names with
      | none =>
          rw [shown] at failed
          obtain rfl := Except.error.inj failed
          apply Hinders.unnamed
          intro others hasNames
          obtain rfl := Option.some.inj (given.symm.trans hasNames)
          exact directoryName?_eq_none_iff.mp shown
      | some result =>
          rw [shown, Option.getD_some] at failed
          subst failed
          obtain ⟨cause, misnamed, rfl⟩ := misnamedBy_iff.mp shown
          exact .misnamed given misnamed

private theorem hinders_of_holderIssuerOf {fault : MembershipFault}
    (failed : holderIssuerOf info = .error fault) : Hinders info fault := by
  unfold holderIssuerOf at failed
  split at failed
  · cases failed
  · next result found =>
      obtain ⟨base, based, shown⟩ := Option.bind_eq_some_iff.mp found
      cases result with
      | ok issuer => cases failed
      | error cause =>
          obtain rfl := Except.error.inj failed
          obtain ⟨fault, misnamed, rfl⟩ := misnamedBy_iff.mp shown
          exact .misnamedHolder based misnamed

private theorem hinders_of_policyValuesOf {fault : MembershipFault}
    (failed : policyValuesOf info = .error fault) : Hinders info fault := by
  unfold policyValuesOf at failed
  split at failed
  · next none =>
      obtain rfl := Except.error.inj failed
      apply Hinders.noNames
      simpa using none
  · next typed found =>
      split at failed
      · cases failed
      · next unread =>
          obtain rfl := Except.error.inj failed
          obtain ⟨element, member, unreadElement⟩ := mapM_eq_none_iff.mp unread
          have carries := exists_find?_attributes_iff.mp ⟨typed, found, rfl⟩
          apply Hinders.undecodable carries member
          intro value decodes
          cases unreadElement.symm.trans decodes

private theorem hinders_of_instantOf {fault : MembershipFault} {time : Time}
    (member : time ∈ [info.validity.notBefore, info.validity.notAfter])
    (failed : instantOf time = .error fault) : Hinders info fault := by
  unfold instantOf at failed
  split at failed
  · cases failed
  · next none =>
      obtain rfl := Except.error.inj failed
      exact .outOfRange member none

/-- The fault that is reported is one that the information has. -/
theorem hinders_of_ofInfo {fault : MembershipFault} (failed : ofInfo info = .error fault) :
    Hinders info fault := by
  simp only [ofInfo, bind_eq_error_iff] at failed
  rcases failed with issuer | ⟨_, _, holder | ⟨_, _, values | ⟨_, _, notBefore | ⟨_, _,
    notAfter | ⟨_, _, whole⟩⟩⟩⟩⟩
  · exact hinders_of_issuerOf issuer
  · exact hinders_of_holderIssuerOf holder
  · exact hinders_of_policyValuesOf values
  · exact hinders_of_instantOf (by simp) notBefore
  · exact hinders_of_instantOf (by simp) notAfter
  · cases whole

private theorem not_namedBy_of_misnamedBy {names : GeneralNames} {fault : CertificateFault}
    (misnamed : MisnamedBy names fault) (issuer : DistinguishedName) :
    ¬ NamedBy names issuer := by
  intro named
  have found := namedBy_iff.mpr named
  rw [misnamedBy_iff.mpr ⟨fault, misnamed, rfl⟩] at found
  cases found

/-- Nothing is shown by information that has a fault. -/
theorem not_shows_of_hinders {fault : MembershipFault} (hinders : Hinders info fault)
    (membership : VoMembership) : ¬ Shows info membership := by
  intro shows
  cases hinders with
  | unnamed unnamed =>
      obtain ⟨names, hasNames, form, ⟨before, name, after, rfl, isDirectory, _⟩, _⟩ :=
        shows.issuer
      exact unnamed _ hasNames name (by simp) form isDirectory
  | misnamed hasNames misnamed =>
      obtain ⟨others, alsoNames, named⟩ := shows.issuer
      obtain rfl := Option.some.inj (hasNames.symm.trans alsoNames)
      exact not_namedBy_of_misnamedBy misnamed _ named
  | misnamedHolder based misnamed =>
      obtain ⟨form, ⟨before, name, after, whole, isDirectory, _⟩, _⟩ := id misnamed
      have gives := shows.holderIssuer
      generalize membership.holderIssuer = issuer? at gives
      cases gives with
      | unnamed unnamed =>
          exact unnamed _ based name (by rw [whole]; simp) form isDirectory
      | named alsoBased named =>
          obtain rfl := Option.some.inj (based.symm.trans alsoBased)
          exact not_namedBy_of_misnamedBy misnamed _ named
  | noNames none =>
      obtain ⟨_, _, ⟨before, typed, after, whole, ⟨isType, _⟩, _⟩, _⟩ := shows.names
      exact none typed (by rw [whole]; simp) isType
  | undecodable carries member undecodable =>
      obtain ⟨_, values, alsoCarries, decoded, _⟩ := shows.names
      obtain ⟨typed, found, rfl⟩ := exists_find?_attributes_iff.mpr carries
      obtain ⟨other, alsoFound, rfl⟩ := exists_find?_attributes_iff.mpr alsoCarries
      obtain rfl := Option.some.inj (found.symm.trans alsoFound)
      have unread := Option.eq_none_iff_forall_ne_some.mpr undecodable
      have failed := mapM_eq_none_iff.mpr ⟨_, member, unread⟩
      cases failed.symm.trans (mapM_eq_some_iff.mpr decoded)
  | outOfRange member none =>
      simp only [List.mem_cons, List.not_mem_nil, or_false] at member
      rcases member with rfl | rfl
      · cases none.symm.trans shows.notBefore
      · cases none.symm.trans shows.notAfter

end VoMembership

/-! ## A small example -/

namespace Sample

open Der

/-- A value with attribute names, and with a resource identifier of its policy authority. -/
def policyValue (uri? : Option String) (names : List Octets) : Element :=
  sequenceOf ((uri?.map fun uri => Element.composite (contextCompositeTag 0) isKnownTag_zero
      [⟨contextTag GeneralName.uriNumber, Utf8.ofText uri, Eq.refl true⟩]).toList
    ++ [sequenceOf (names.map octetString)])

/-- Information of the authority `V` about the holder with a serial number, with values of
the attribute that carries attribute names. -/
def infoFor (serial : UInt8) (values : List Element) : Element :=
  sequenceOf [smallNumber 1,
    sequenceOf [.composite (contextCompositeTag 0) isKnownTag_zero
      [generalNames 'i', smallNumber serial]],
    .composite (contextCompositeTag 0) isKnownTag_zero [generalNames 'V'],
    algorithm 5, smallNumber 1,
    sequenceOf [attributeTime "20240101000000Z", attributeTime "20340101000000Z"],
    sequenceOf [sequenceOf [VoMembership.attributeType.toElement,
      .composite setTag isKnownTag_set values]]]

/-- Two values, of which the second names the server, and octets that are no text. -/
def twoValues : List Element :=
  [policyValue none [Utf8.ofText "/v", [0xe2, 0x82, 0x41]],
    policyValue (some "v://h:1") [Utf8.ofText "/v/w"]]

private theorem exists_shown :
    ∃ info membership, AttributeInfo.ofElement? (infoFor 5 twoValues) = some info ∧
      VoMembership.ofInfo info = .ok membership ∧
      membership.fqans = [⟨"/v"⟩, ⟨"\uFFFDA"⟩, ⟨"/v/w"⟩] ∧ membership.vo = "v" ∧
      membership.server = some "h:1" := by
  have computed : ((AttributeInfo.ofElement? (infoFor 5 twoValues)).bind fun info =>
      (VoMembership.ofInfo info).toOption.map fun membership =>
        (membership.fqans, membership.vo, membership.server)) =
      some ([⟨"/v"⟩, ⟨"\uFFFDA"⟩, ⟨"/v/w"⟩], "v", some "h:1") := by
    decide +kernel
  obtain ⟨info, infoRead, rest⟩ := Option.bind_eq_some_iff.mp computed
  obtain ⟨membership, shown, fields⟩ := Option.map_eq_some_iff.mp rest
  simp only [Prod.mk.injEq] at fields
  exact ⟨info, membership, infoRead, toOption_eq_some_iff.mp shown, fields⟩

/-- A number among the values leaves no membership. -/
private theorem exists_hindered :
    ∃ info, AttributeInfo.ofElement? (infoFor 5 (smallNumber 1 :: twoValues)) = some info ∧
      VoMembership.ofInfo info = .error .invalidSyntax := by
  have computed : (AttributeInfo.ofElement? (infoFor 5 (smallNumber 1 :: twoValues))).map
      (fun info => match VoMembership.ofInfo info with
        | .ok _ => none
        | .error fault => some fault) = some (some .invalidSyntax) := by
    decide +kernel
  obtain ⟨info, infoRead, failed⟩ := Option.map_eq_some_iff.mp computed
  refine ⟨info, infoRead, ?_⟩
  cases result : VoMembership.ofInfo info with
  | ok membership =>
      rw [result] at failed
      cases failed
  | error fault =>
      rw [result] at failed
      rw [Option.some.inj failed]

end Sample

namespace VoMembership

/-- Information either shows a membership with all of its attribute names or has a fault that
hinders it, and the fault that is reported is one of these. -/
theorem shown_whole_or_hindered (info : AttributeInfo) :
    (∀ membership, ofInfo info = .ok membership ↔ Shows info membership) ∧
    (∀ fault, ofInfo info = .error fault → Hinders info fault) ∧
    ((∃ fault, ofInfo info = .error fault) ↔ ∃ fault, Hinders info fault) := by
  refine ⟨fun membership => ofInfo_eq_ok_iff.trans shownBy_iff_shows,
    fun fault failed => hinders_of_ofInfo failed, ?_⟩
  constructor
  · rintro ⟨fault, failed⟩
    exact ⟨fault, hinders_of_ofInfo failed⟩
  · rintro ⟨fault, hinders⟩
    cases result : ofInfo info with
    | error cause => exact ⟨cause, rfl⟩
    | ok membership =>
        have shows := shownBy_iff_shows.mp (ofInfo_eq_ok_iff.mp result)
        exact absurd shows (not_shows_of_hinders hinders membership)

theorem shown_whole_or_hindered_of_two_values :
    ∃ info membership broken,
      AttributeInfo.ofElement? (Sample.infoFor 5 Sample.twoValues) = some info ∧
      ofInfo info = .ok membership ∧ Shows info membership ∧
      membership.fqans = [⟨"/v"⟩, ⟨"\uFFFDA"⟩, ⟨"/v/w"⟩] ∧ membership.vo = "v" ∧
      membership.server = some "h:1" ∧
      AttributeInfo.ofElement? (Sample.infoFor 5 (Der.smallNumber 1 :: Sample.twoValues)) =
        some broken ∧
      ofInfo broken = .error .invalidSyntax ∧ Hinders broken .invalidSyntax := by
  obtain ⟨info, membership, infoRead, shown, fqans, vo, server⟩ := Sample.exists_shown
  obtain ⟨broken, brokenRead, failed⟩ := Sample.exists_hindered
  have shows := ((shown_whole_or_hindered info).1 membership).mp shown
  have hinders := (shown_whole_or_hindered broken).2.1 .invalidSyntax failed
  exact ⟨info, membership, broken, infoRead, shown, shows, fqans, vo, server, brokenRead,
    failed, hinders⟩

end VoMembership

end GridSecurity
