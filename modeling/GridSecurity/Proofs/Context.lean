import GridSecurity.Context
import GridSecurity.Proofs.Validation.Trust

/-!
# A context is assigned at most once

Attempts to assemble a context may fail and be repeated, each with other
certificates and at a moment when the validator answers otherwise.  A failed
attempt leaves the context as it was.  The first one that succeeds assigns
identity, chain and attributes together, and none after it changes anything.
-/

namespace GridSecurity

/-- An attempt to assemble a context: what is presented, and what the validator
answers at that moment. -/
structure Attempt where
  encodings : List Octets
  validator : Validator

/-- What an attempt leaves: its error if it failed, and the context. -/
structure Attempted where
  error? : Option SecurityError
  context : SecurityContext
  deriving DecidableEq, Repr

namespace SecurityContext

/-- An attempt to assemble a context, which is kept if it fails. -/
def attempt (context : SecurityContext) (attempt : Attempt) : Attempted :=
  match context.assemble attempt.validator attempt.encodings with
  | .ok assembled => ⟨none, assembled⟩
  | .error fault => ⟨some fault, context⟩

/-- What each of several attempts in turn leaves. -/
def run (context : SecurityContext) : List Attempt → List Attempted
  | [] => []
  | first :: attempts =>
      context.attempt first :: run (context.attempt first).context attempts

/-- Nothing but the connection is known. -/
structure IsEmpty (context : SecurityContext) : Prop where
  state : context.stateName = "Empty"
  identity : context.identity? = none
  chain : context.chain? = none
  memberships : context.memberships = []
  results : context.results = []
  fqans : context.fqans = []

end SecurityContext

/-- What was presented cannot be read or is no chain of a client. -/
def SecurityError.IsOfChain (error : SecurityError) : Prop :=
  (∃ fault, error = .malformedChain fault) ∨ ∃ fault, error = .invalidCertificate fault

private theorem Chain.isOfChain_of_parse {encodings : List Octets} {error : SecurityError}
    (failed : Chain.parse encodings = .error error) : error.IsOfChain := by
  unfold Chain.parse at failed
  split at failed
  · obtain rfl := Except.error.inj failed
    exact .inl ⟨.emptyChain, rfl⟩
  · obtain ⟨fault, _, rfl⟩ := mapError_eq_error_iff.mp failed
    exact .inr ⟨fault, rfl⟩

private theorem IdentityResolver.isOfChain_of_resolve {resolver : IdentityResolver}
    {encodings : List Octets} {error : SecurityError}
    (failed : resolver.resolve encodings = .error error) : error.IsOfChain := by
  rcases bind_eq_error_iff.mp failed with unreadable | ⟨presented, _, unresolved⟩
  · exact Chain.isOfChain_of_parse unreadable
  · obtain ⟨fault, _, rfl⟩ := mapError_eq_error_iff.mp unresolved
    exact .inl ⟨fault, rfl⟩

namespace SecurityContext

variable {context fresh : SecurityContext}

theorem isEmpty_of_client_eq_none (unassigned : context.client = none) : context.IsEmpty := by
  constructor <;>
    simp [stateName, isAuthenticated, identity?, chain?, memberships, results, fqans, unassigned]

/-- The context with the client that was resolved and its attributes. -/
def assign (context : SecurityContext) (resolved : ResolvedChain) (validator : Validator) :
    SecurityContext :=
  { context with
    client := some ⟨resolved.identity, resolved.chain,
      context.resolveAttributes validator resolved.chain⟩ }

/-! ## One attempt -/

theorem assemble_of_error {error : SecurityError} {encodings : List Octets}
    (unassigned : context.client = none)
    (failed : context.resolver.resolve encodings = .error error) (validator : Validator) :
    context.assemble validator encodings = .error error := by
  unfold assemble
  rw [unassigned]
  dsimp only
  rw [failed]
  rfl

theorem assemble_of_ok {resolved : ResolvedChain} {encodings : List Octets}
    (unassigned : context.client = none)
    (found : context.resolver.resolve encodings = .ok resolved) (validator : Validator) :
    context.assemble validator encodings = .ok (context.assign resolved validator) := by
  unfold assemble
  rw [unassigned]
  dsimp only
  rw [found]
  rfl

private theorem attempt_of_error {error : SecurityError} {attempt : Attempt}
    (unassigned : context.client = none)
    (failed : context.resolver.resolve attempt.encodings = .error error) :
    context.attempt attempt = ⟨some error, context⟩ := by
  unfold SecurityContext.attempt
  rw [assemble_of_error unassigned failed]

private theorem attempt_of_ok {resolved : ResolvedChain} {attempt : Attempt}
    (unassigned : context.client = none)
    (found : context.resolver.resolve attempt.encodings = .ok resolved) :
    context.attempt attempt = ⟨none, context.assign resolved attempt.validator⟩ := by
  unfold SecurityContext.attempt
  rw [assemble_of_ok unassigned found]

private theorem attempt_of_assigned {client : ResolvedClient}
    (assigned : context.client = some client) (attempt : Attempt) :
    context.attempt attempt =
      ⟨some (.alreadyResolved client.identity.subject.readable), context⟩ := by
  unfold SecurityContext.attempt assemble
  rw [assigned]

/-- An attempt changes neither the address nor the session. -/
theorem connection_attempt (context : SecurityContext) (attempt : Attempt) :
    (context.attempt attempt).context.remoteAddress = context.remoteAddress ∧
      (context.attempt attempt).context.sessionId = context.sessionId := by
  cases known : context.client with
  | some client =>
      rw [attempt_of_assigned known]
      exact ⟨rfl, rfl⟩
  | none =>
      cases resolution : context.resolver.resolve attempt.encodings with
      | error fault =>
          rw [attempt_of_error known resolution]
          exact ⟨rfl, rfl⟩
      | ok resolved =>
          rw [attempt_of_ok known resolution]
          exact ⟨rfl, rfl⟩

/-! ## Many attempts -/

private theorem length_run (context : SecurityContext) (attempts : List Attempt) :
    (context.run attempts).length = attempts.length := by
  induction attempts generalizing context with
  | nil => rfl
  | cons first attempts induction => exact congrArg Nat.succ (induction _)

theorem connection_run {attempts : List Attempt} {attempted : Attempted}
    (member : attempted ∈ context.run attempts) :
    attempted.context.remoteAddress = context.remoteAddress ∧
      attempted.context.sessionId = context.sessionId := by
  induction attempts generalizing context with
  | nil => cases member
  | cons first attempts induction =>
      have step := connection_attempt context first
      rcases List.mem_cons.mp member with rfl | later
      · exact step
      · obtain ⟨address, session⟩ := induction later
        exact ⟨address.trans step.1, session.trans step.2⟩

/-- Once a client is known, every attempt is refused and changes nothing. -/
theorem run_of_assigned {client : ResolvedClient} (assigned : context.client = some client)
    (attempts : List Attempt) :
    context.run attempts = attempts.map fun _ =>
      ⟨some (.alreadyResolved client.identity.subject.readable), context⟩ := by
  induction attempts with
  | nil => rfl
  | cons first attempts induction =>
      unfold run
      rw [attempt_of_assigned assigned, induction]
      rfl

/-- An attempt failed for what was presented and left the context as it was. -/
def FailedOn (fresh : SecurityContext) (attempted : Attempted) : Prop :=
  attempted.context = fresh ∧ ∃ error, attempted.error? = some error ∧ error.IsOfChain

/-- From the first success on, everything that is known of the client has been
assigned, and every further attempt is refused in the name of that client. -/
def AssignedBy (fresh : SecurityContext) (first : Attempt) (rest : List Attempted) : Prop :=
  ∃ resolved refused, fresh.resolver.resolve first.encodings = .ok resolved ∧
    rest = ⟨none, fresh.assign resolved first.validator⟩ :: refused ∧
    ∀ attempted ∈ refused, attempted =
      ⟨some (.alreadyResolved resolved.identity.subject.readable),
        fresh.assign resolved first.validator⟩

private theorem assignedBy_of_ok (unassigned : fresh.client = none) {first : Attempt}
    {resolved : ResolvedChain}
    (found : fresh.resolver.resolve first.encodings = .ok resolved) (attempts : List Attempt) :
    fresh.AssignedBy first (fresh.run (first :: attempts)) := by
  unfold run
  rw [attempt_of_ok unassigned found]
  refine ⟨resolved, _, found, rfl, ?_⟩
  intro attempted member
  rw [run_of_assigned rfl] at member
  obtain ⟨_, _, rfl⟩ := List.mem_map.mp member
  rfl

/-- A run consists of failures and, from the first success on, of what that one
assigned. -/
theorem exists_run_eq_append (unassigned : fresh.client = none) (attempts : List Attempt) :
    ∃ failed rest, fresh.run attempts = failed ++ rest ∧
      (∀ attempted ∈ failed, fresh.FailedOn attempted) ∧
      (rest = [] ∨
        ∃ first, attempts[failed.length]? = some first ∧ fresh.AssignedBy first rest) := by
  induction attempts with
  | nil => exact ⟨[], [], rfl, by simp, .inl rfl⟩
  | cons first attempts induction =>
      cases resolution : fresh.resolver.resolve first.encodings with
      | error error =>
          obtain ⟨failed, rest, whole, failures, assigned⟩ := induction
          unfold run
          rw [attempt_of_error unassigned resolution, whole]
          refine ⟨⟨some error, fresh⟩ :: failed, rest, rfl, ?_, by simpa using assigned⟩
          intro attempted member
          rcases List.mem_cons.mp member with rfl | later
          · exact ⟨rfl, error, rfl, IdentityResolver.isOfChain_of_resolve resolution⟩
          · exact failures attempted later
      | ok resolved =>
          refine ⟨[], _, rfl, by simp, .inr ⟨first, rfl, ?_⟩⟩
          exact assignedBy_of_ok unassigned resolution attempts

end SecurityContext

namespace Sample

def fresh : SecurityContext := { remoteAddress := some "192.0.2.1:443", mode := some .strict }

/-- No certificates, octets that are none, a client, and no certificates again. -/
def attempts : List Attempt :=
  [⟨[], .absent⟩, ⟨[[0x30]], .absent⟩, ⟨[client], .absent⟩, ⟨[], .absent⟩]

end Sample

namespace SecurityContext

/-- However many attempts are made on a fresh context, which shows nothing of a
client, each of them counts: those before the first success fail for what was
presented and change nothing, the first success assigns everything together, and
those after it are refused and change nothing.  The connection stays the same. -/
theorem assigned_at_most_once {fresh : SecurityContext} (unassigned : fresh.client = none)
    (attempts : List Attempt) :
    fresh.IsEmpty ∧ (fresh.run attempts).length = attempts.length ∧
    (∃ failed rest, fresh.run attempts = failed ++ rest ∧
      (∀ attempted ∈ failed, fresh.FailedOn attempted) ∧
      (rest = [] ∨
        ∃ first, attempts[failed.length]? = some first ∧ fresh.AssignedBy first rest)) ∧
    ∀ attempted ∈ fresh.run attempts,
      attempted.context.remoteAddress = fresh.remoteAddress ∧
        attempted.context.sessionId = fresh.sessionId := by
  refine ⟨isEmpty_of_client_eq_none unassigned, length_run fresh attempts,
    exists_run_eq_append unassigned attempts, ?_⟩
  intro attempted member
  exact connection_run member

theorem assigned_by_third_attempt :
    Sample.fresh.client = none ∧
    (Sample.fresh.run Sample.attempts).map (·.error?) =
      [some (.malformedChain .emptyChain), some (.invalidCertificate .unreadableCertificate),
        none, some (.alreadyResolved "CN=c")] ∧
    Sample.fresh.IsEmpty ∧
    ∃ failed rest, Sample.fresh.run Sample.attempts = failed ++ rest ∧
      (∀ attempted ∈ failed, Sample.fresh.FailedOn attempted) ∧
      (rest = [] ∨ ∃ first, Sample.attempts[failed.length]? = some first ∧
        Sample.fresh.AssignedBy first rest) := by
  have unassigned : Sample.fresh.client = none := rfl
  have once := assigned_at_most_once unassigned Sample.attempts
  exact ⟨unassigned, by decide +kernel, once.1, once.2.2.1⟩

end SecurityContext

end GridSecurity
