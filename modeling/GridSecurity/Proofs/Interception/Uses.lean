import GridSecurity.Proofs.Scope.Requests
import GridSecurity.Proofs.Service.Consent

/-!
# Interception accounts for every request once

An interceptor is called for a request directly, or by a handler, which is a task: the
first poll of it calls the interceptor for the request that is handled, and whatever
runs downstream may do so for further requests, at this poll or at later ones.  Direct
calls and handlers run side by side.  They are polled in turns, each as often as one
likes, and a handler that is not polled any more has been dropped where it was.
However that goes, the calls that were made are known, and the metrics account for
each of them.
-/

namespace GridSecurity

/-- A use of an interceptor for a request: a direct call, or a handler with the steps
that run downstream. -/
inductive Use
  | call (request : Request)
  | handle (request : Request) (body : List Step) (exit : Exit)

namespace Use

def request : Use → Request
  | call request | handle request .. => request

def step : Use → Step
  | call request => .act (.intercept request)
  | handle request body exit => .handle request body exit

def task (use : Use) : Task := .ready [use.step]

/-- The requests that are intercepted downstream if nothing is dropped. -/
def downstream : Use → List Request
  | call _ => []
  | handle _ body _ => Step.requestsOfAll body

/-- After the first poll of a use its own request has been intercepted, before all
others; of those downstream, some have been and others are left. -/
structure Begun (use : Use) (calls : List Request) (stage : Stage) : Prop where
  once : ∃ nested, calls = use.request :: nested ∧
    (nested ++ stage.due).Subperm use.downstream
  returned : stage.shown.Subperm (calls.map (·.context))

/-- A use has begun if it was polled, and stands where it was if not. -/
inductive Stands (use : Use) (polled : Prop) (task : Task) (calls : List Request) : Prop
  | begun (isPolled : polled) (begun : use.Begun calls task.stage)
  | waiting (unpolled : ¬ polled) (untouched : task = use.task) (none : calls = [])

end Use

/-! ## One use -/

namespace Use

variable {use : Use} {calls : List Request}

private theorem requestsOfAll_handle (body : List Step) (exit : Exit) :
    Step.requestsOfAll (body ++ if exit.completes then [.act .clear] else []) =
      Step.requestsOfAll body := by
  rw [Step.requestsOfAll_append]
  split
  · exact List.append_nil _
  · exact List.append_nil _

private theorem poll_task (use : Use) (around : Surroundings) :
    ∃ nested, Intercepts nested ⟨[use.request.context], use.downstream⟩
      (use.task.poll around).1.stage
      (Request.countIn around.meters use.request) (use.task.poll around).2.meters := by
  rw [task, Task.poll]
  cases use with
  | call request => exact Task.runSteps_intercept request [] around
  | handle request body exit =>
      obtain ⟨nested, intercepted⟩ := Task.runSteps_intercept request
        (body ++ if exit.completes then [.act .clear] else [])
        { around with slot := Slot.fresh }
      rw [requestsOfAll_handle] at intercepted
      -- Behind the scope of the handler nothing is left to do.
      have whole := intercepted.inside (Answer.contextsOfAll []) []
      rw [List.append_nil] at whole
      rw [step, Step.handle, Task.runSteps]
      dsimp only [Task.withSlot]
      split
      · next answer isOver =>
          rw [Task.runSteps]
          exact ⟨nested, whole.closing (Task.contexts_scopeEnd?_subperm isOver)⟩
      · exact ⟨nested, whole⟩

/-- Whether a use has begun before or not, it has after a poll, and what the poll
intercepts is counted. -/
theorem Stands.poll {polled : Prop} {task : Task} (stands : use.Stands polled task calls)
    (around : Surroundings) :
    ∃ more, (task.poll around).2.meters = more.foldl Request.countIn around.meters ∧
      use.Begun (calls ++ more) (task.poll around).1.stage := by
  cases stands with
  | begun _ begun =>
      obtain ⟨⟨nested, rfl, conserved⟩, returned⟩ := begun
      obtain ⟨more, intercepted⟩ := task.poll_intercepts around
      refine ⟨more, intercepted.counted, ⟨nested ++ more, rfl, ?_⟩, ?_⟩
      · rw [List.append_assoc]
        exact ((List.subperm_append_left nested).mpr intercepted.conserved).trans conserved
      · rw [List.map_append]
        exact intercepted.returned.trans ((List.subperm_append_right _).mpr returned)
  | waiting _ untouched none =>
      subst untouched none
      obtain ⟨nested, intercepted⟩ := use.poll_task around
      exact ⟨use.request :: nested, intercepted.counted,
        ⟨nested, rfl, intercepted.conserved⟩, intercepted.returned⟩

end Use

/-! ## Uses side by side -/

structure Pool where
  tasks : List Task
  meters : Meters

/-- The position of the task that is polled next, with the scope that is open around it
and the time. -/
structure Turn where
  position : Nat
  slot : Slot := Slot.outside
  now : Nat := 0

namespace Pool

def ofUses (uses : List Use) (meters : Meters) : Pool := ⟨uses.map (·.task), meters⟩

def turn (pool : Pool) (next : Turn) : Pool :=
  match pool.tasks[next.position]? with
  | none => pool
  | some task =>
      let (left, after) := task.poll ⟨next.slot, pool.meters, next.now⟩
      ⟨pool.tasks.set next.position left, after.meters⟩

def run (pool : Pool) (turns : List Turn) : Pool := turns.foldl turn pool

end Pool

/-- A request that was intercepted, and the position of the use that it belongs to. -/
structure Call where
  origin : Nat
  request : Request

def callsOf (position : Nat) (calls : List Call) : List Request :=
  (calls.filter (·.origin == position)).map (·.request)

private theorem callsOf_append (position : Nat) (calls more : List Call) :
    callsOf position (calls ++ more) = callsOf position calls ++ callsOf position more := by
  simp [callsOf]

private theorem callsOf_map_mk (position origin : Nat) (requests : List Request) :
    callsOf position (requests.map (Call.mk origin)) =
      if origin = position then requests else [] := by
  by_cases same : origin = position
  · simp [callsOf, List.filter_map, Function.comp_def, same]
  · simp [callsOf, List.filter_map, Function.comp_def, same]

/-- What is known of a pool after turns: each call belongs to a use and was counted,
and each use stands as the turns have left it. -/
structure Traced (uses : List Use) (meters : Meters) (polled : List Nat) (calls : List Call)
    (pool : Pool) : Prop where
  size : pool.tasks.length = uses.length
  counted : pool.meters = (calls.map (·.request)).foldl Request.countIn meters
  origins : ∀ call ∈ calls, call.origin < uses.length
  stands : ∀ (position : Nat) (use : Use), uses[position]? = some use →
    ∃ task, pool.tasks[position]? = some task ∧
      use.Stands (position ∈ polled) task (callsOf position calls)

namespace Traced

variable {uses : List Use} {meters : Meters} {polled : List Nat} {calls : List Call}
  {pool : Pool}

theorem ofUses (uses : List Use) (meters : Meters) :
    Traced uses meters [] [] (Pool.ofUses uses meters) where
  size := List.length_map _
  counted := rfl
  origins := by simp
  stands := by
    intro position use present
    refine ⟨use.task, ?_, .waiting List.not_mem_nil rfl rfl⟩
    rw [Pool.ofUses, List.getElem?_map, present]
    rfl

/-- A turn touches no use but the one that is polled. -/
theorem stands_of_ne {next position : Nat} (other : position ≠ next) {use : Use} {task : Task}
    (stands : use.Stands (position ∈ polled) task (callsOf position calls))
    (more : List Request) :
    use.Stands (position ∈ polled ++ [next]) task
      (callsOf position (calls ++ more.map (Call.mk next))) := by
  have samePolled : (position ∈ polled ++ [next]) = (position ∈ polled) := by simp [other]
  rw [callsOf_append, callsOf_map_mk, if_neg other.symm, List.append_nil, samePolled]
  exact stands

theorem outside (traced : Traced uses meters polled calls pool) {next : Nat}
    (absent : pool.tasks[next]? = none) :
    Traced uses meters (polled ++ [next]) calls pool := by
  refine { traced with stands := ?_ }
  intro position use present
  obtain ⟨task, found, stands⟩ := traced.stands position use present
  have other : position ≠ next := by
    rintro rfl
    cases absent.symm.trans found
  have after := stands_of_ne other stands []
  rw [List.map_nil, List.append_nil] at after
  exact ⟨task, found, after⟩

theorem poll (traced : Traced uses meters polled calls pool) {next : Nat} {task : Task}
    (current : pool.tasks[next]? = some task) {around : Surroundings}
    (shared : around.meters = pool.meters) :
    ∃ more, Traced uses meters (polled ++ [next]) (calls ++ more)
      ⟨pool.tasks.set next (task.poll around).1, (task.poll around).2.meters⟩ := by
  have within : next < pool.tasks.length := (List.getElem?_eq_some_iff.mp current).1
  have inside : next < uses.length := traced.size ▸ within
  obtain ⟨_, found, stands⟩ := traced.stands _ _ (List.getElem?_eq_getElem inside)
  cases current.symm.trans found
  obtain ⟨more, counted, begun⟩ := stands.poll around
  refine ⟨more.map (Call.mk next), {
    size := ?_
    counted := ?_
    origins := ?_
    stands := ?_ }⟩
  · rw [List.length_set, traced.size]
  · have requests : (more.map (Call.mk next)).map (·.request) = more := by
      simp [Function.comp_def]
    rw [List.map_append, List.foldl_append, requests, ← traced.counted, ← shared]
    exact counted
  · intro call member
    rcases List.mem_append.mp member with before | now
    · exact traced.origins call before
    · obtain ⟨_, _, rfl⟩ := List.mem_map.mp now
      exact inside
  · intro position use present
    by_cases same : position = next
    · subst same
      cases (List.getElem?_eq_getElem inside).symm.trans present
      refine ⟨_, List.getElem?_set_self within, .begun (by simp) ?_⟩
      rw [callsOf_append, callsOf_map_mk, if_pos rfl]
      exact begun
    · obtain ⟨other, found, stands⟩ := traced.stands position use present
      rw [List.getElem?_set_ne (Ne.symm same)]
      exact ⟨other, found, stands_of_ne same stands more⟩

theorem turn (traced : Traced uses meters polled calls pool) (next : Turn) :
    ∃ more, Traced uses meters (polled ++ [next.position]) (calls ++ more)
      (pool.turn next) := by
  rw [Pool.turn]
  cases current : pool.tasks[next.position]? with
  | none =>
      refine ⟨[], ?_⟩
      rw [List.append_nil]
      exact traced.outside current
  | some task => exact traced.poll current rfl

theorem run (traced : Traced uses meters polled calls pool) (turns : List Turn) :
    ∃ more, Traced uses meters (polled ++ turns.map (·.position)) (calls ++ more)
      (pool.run turns) := by
  induction turns generalizing polled calls pool with
  | nil => exact ⟨[], by simpa [Pool.run] using traced⟩
  | cons next turns induction =>
      obtain ⟨now, step⟩ := traced.turn next
      obtain ⟨later, left⟩ := induction step
      exact ⟨now ++ later, by simpa [Pool.run] using left⟩

end Traced

/-- The calls that uses have made when those at the given positions were polled: none
without a poll, and otherwise one for the request itself and at most those downstream.
Whatever contexts the tasks have shown were returned by these calls. -/
structure MadeBy (uses : List Use) (polled : List Nat) (pool : Pool) (calls : List Call) :
    Prop where
  origins : ∀ call ∈ calls, call.origin < uses.length
  once : ∀ position ∈ polled, ∀ use, uses[position]? = some use →
    ∃ nested, callsOf position calls = use.request :: nested ∧
      nested.Subperm use.downstream
  never : ∀ position, position ∉ polled → callsOf position calls = []
  returned : ∀ (position : Nat) (task : Task), pool.tasks[position]? = some task →
    task.stage.shown.Subperm ((callsOf position calls).map (·.context))

theorem Traced.madeBy {uses : List Use} {meters : Meters} {polled : List Nat}
    {calls : List Call} {pool : Pool} (traced : Traced uses meters polled calls pool) :
    MadeBy uses polled pool calls where
  origins := traced.origins
  once := by
    intro position isPolled use present
    obtain ⟨task, _, stands⟩ := traced.stands position use present
    cases stands with
    | begun _ begun =>
        obtain ⟨nested, whole, conserved⟩ := begun.once
        exact ⟨nested, whole, (List.sublist_append_left nested _).subperm.trans conserved⟩
    | waiting unpolled => exact absurd isPolled unpolled
  never := by
    intro position unpolled
    cases present : uses[position]? with
    | some use =>
        obtain ⟨task, _, stands⟩ := traced.stands position use present
        cases stands with
        | begun isPolled => exact absurd isPolled unpolled
        | waiting _ _ none => exact none
    | none =>
        have outside := List.getElem?_eq_none_iff.mp present
        have foreign : ∀ call ∈ calls, ¬ (call.origin == position) = true := by
          intro call member same
          have within := traced.origins call member
          have origin := beq_iff_eq.mp same
          omega
        rw [callsOf, List.filter_eq_nil_iff.mpr foreign, List.map_nil]
  returned := by
    intro position task current
    have inside : position < uses.length :=
      traced.size ▸ (List.getElem?_eq_some_iff.mp current).1
    obtain ⟨_, found, stands⟩ := traced.stands _ _ (List.getElem?_eq_getElem inside)
    cases current.symm.trans found
    cases stands with
    | begun _ begun => exact begun.returned
    | waiting _ untouched _ =>
        rw [untouched, Use.task, Task.stage]
        exact List.nil_subperm

/-- The requests among all calls that are counted by the metrics at a position. -/
def requestsOn (meter : Nat) (calls : List Call) : List Request :=
  (calls.map (·.request)).filter (·.meter = meter)

namespace Sample

def request (source : PeerSource) : Request :=
  ⟨{ mode := some .strict }, undecided, 5, 0, source⟩

/-- A client, a connection that cannot be asked, a handler of what is no certificate
that yields before a request without certificates, and a handler that is not polled. -/
def uses : List Use :=
  [.call (request peer),
    .call (request ⟨.error (.peerCertificates .handshakePending), none, none⟩),
    .handle (request ⟨.ok (some [[0x30]]), none, none⟩)
      [.yield, .act (.intercept (request ⟨.ok none, none, none⟩))] .error,
    .handle (request peer) [] .ok]

/-- The handler is polled first and last, with the calls between. -/
def turns : List Turn := [⟨2, Slot.outside, 0⟩, ⟨0, Slot.outside, 0⟩, ⟨1, Slot.fresh, 0⟩,
  ⟨2, Slot.outside, 1⟩]

end Sample

namespace Interceptor

/-- However uses of interceptors are polled that share fresh metrics, the calls that they
make are these: a use that was never polled makes none, and any other makes one for its
own request, and one at most for each request downstream, as the contexts returned to it
show.  The metrics account for all these calls, each of which is authenticated if and only
if its peer has presented certificates that its interceptor's resolver resolves. -/
theorem accounts_for_every_request {meters : Meters} {meter : Nat}
    (fresh : meters[meter]? = some ({} : Metrics)) (uses : List Use) (turns : List Turn)
    {pool : Pool} (left : (Pool.ofUses uses meters).run turns = pool) :
    ∃ calls metrics, MadeBy uses (turns.map (·.position)) pool calls ∧
      pool.meters[meter]? = some metrics ∧
      metrics.Accounts (requestsOn meter calls) ∧
      metrics.totalRequests = UInt64.ofNat (requestsOn meter calls).length ∧
      ∀ call ∈ calls, call.request.context.isAuthenticated = true ↔
        ∃ encodings resolved, call.request.source.certificates = .ok (some encodings) ∧
          encodings ≠ [] ∧
          call.request.interceptor.resolver.resolve encodings = .ok resolved := by
  obtain ⟨calls, traced⟩ := (Traced.ofUses uses meters).run turns
  rw [List.nil_append, List.nil_append, left] at traced
  have accounts := Metrics.accounts_of_fresh (requestsOn meter calls)
  refine ⟨calls, _, traced.madeBy, ?_, accounts, accounts.total, ?_⟩
  · rw [traced.counted, getElem?_foldl_countIn, fresh]
    rfl
  · intro call _
    exact Request.isAuthenticated_iff

theorem accounts_for_every_request_of_handler :
    ∃ pool, (Pool.ofUses Sample.uses [{}]).run Sample.turns = pool ∧
      ([{}] : Meters)[0]? = some ({} : Metrics) ∧
      pool.meters = [{
        authenticatedRequests := 1
        unauthenticatedRequests := 3
        extractionFailures := 1
        malformedChains := 1
        attributesAccepted := 1
        attributeCertificatesRejected := 1
        latencySum := 5
        latencyCount := 1 }] ∧
      ∃ calls metrics, MadeBy Sample.uses [2, 0, 1, 2] pool calls ∧
        pool.meters[0]? = some metrics ∧ metrics.Accounts (requestsOn 0 calls) ∧
        metrics.totalRequests = UInt64.ofNat (requestsOn 0 calls).length := by
  have fresh : ([{}] : Meters)[0]? = some ({} : Metrics) := rfl
  obtain ⟨calls, metrics, made, told, accounts, total, _⟩ :=
    accounts_for_every_request fresh Sample.uses Sample.turns rfl
  exact ⟨_, rfl, fresh, by decide +kernel, calls, metrics, made, told, accounts, total⟩

end Interceptor

end GridSecurity
