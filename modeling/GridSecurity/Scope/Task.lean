import GridSecurity.Interceptor
import GridSecurity.Scope.Slot

/-!
# Tasks with scopes

A program is a list of steps that act on the slot of the innermost open scope.
A task is a program on its way.  Polling a task takes it to its next suspension
or to its end: while a scope's body is polled the scope's own slot stands in
the place of the one around it, and afterwards the one around it is back.

The clock ticks when nothing can run.  A scope that was open before a tick and
is suspended after it has used up its time: its body is dropped where it is.
-/

namespace GridSecurity

/-- A request as an interceptor sees it, with the validator in force, the time
that assembling takes and the position of the metrics that count it. -/
structure Request where
  interceptor : Interceptor
  validator : Validator
  latency : Nat
  meter : Nat
  source : PeerSource

/-- What a step does at once. -/
inductive Action
  | publish (context : SecurityContext)
  | clear
  | observe
  | intercept (request : Request)
  | readMetrics (meter : Nat)

inductive Observation
  /-- The outcome of publishing and the slot after it. -/
  | published (outcome : Except SecurityError Unit) (slot : Slot)
  | slot (slot : Slot)
  /-- The context of a request, whether it is now the current one, and the
  slot. -/
  | intercepted (context : SecurityContext) (isCurrent : Bool) (slot : Slot)
  | metrics (metrics : Metrics)

/-- How the body of a scope comes to its end. -/
inductive Exit
  | ok
  | error
  | panic
  /-- The body never ends and is dropped when its time is up. -/
  | cancel
  deriving DecidableEq, Repr

/-- The body runs to its last step and returns. -/
def Exit.completes : Exit → Bool
  | ok | error => true
  | panic | cancel => false

/-- The body comes to an end of its own. -/
def Exit.ends : Exit → Bool
  | ok | error | panic => true
  | cancel => false

inductive Step
  | act (action : Action)
  /-- Suspends the task once. -/
  | yield
  /-- Opens a scope for a body. -/
  | scope (body : List Step) (exit : Exit)
  /-- Runs a body on a task of its own, which is in no scope, and waits. -/
  | spawn (body : List Step)
  /-- Runs bodies in turns inside the present task. -/
  | join (bodies : List (List Step))

/-- What a step showed. -/
inductive Answer
  | observed (observation : Observation)
  | yielded
  | ended (inner : List Answer) (exit : Exit)
  | spawned (inner : List Answer)
  | joined (inner : List (List Answer))

/-- A program on its way, with the answers it gave so far. -/
inductive Task
  | finished (answers : List Answer)
  /-- In front of its first step. -/
  | ready (program : List Step)
  /-- Suspended by a yield in front of the steps that are left. -/
  | yielding (answers : List Answer) (rest : List Step)
  /-- Suspended inside the body of a scope with its own slot, opened at the
  given tick. -/
  | inScope (answers : List Answer) (own : Slot) (opened : Nat) (body : Task)
      (exit : Exit) (rest : List Step)
  /-- Waiting for a task of its own. -/
  | inSpawn (answers : List Answer) (child : Task) (rest : List Step)
  /-- Between two turns of bodies that run side by side. -/
  | inJoin (answers : List Answer) (tasks : List Task) (rest : List Step)

/-- The metrics of all interceptors. -/
abbrev Meters := List Metrics

/-- What a task sees besides its own state: the slot of the innermost open
scope, the metrics and the clock. -/
structure Surroundings where
  slot : Slot
  meters : Meters
  now : Nat := 0

namespace Action

/-- Does an action and shows what it did. -/
def perform (action : Action) (around : Surroundings) : Observation × Surroundings :=
  match action with
  | publish context =>
      match around.slot.publish context with
      | .ok slot => (.published (.ok ()) slot, { around with slot := slot })
      | .error error => (.published (.error error) around.slot, around)
  | clear =>
      let slot := Slot.clear around.slot
      (.slot slot, { around with slot := slot })
  | observe => (.slot around.slot, around)
  | intercept request =>
      let (context, events) :=
        request.interceptor.intercept request.validator request.latency request.source
      let meters := around.meters.modify request.meter fun metrics =>
        events.foldl Metrics.record metrics
      match around.slot.publish context with
      | .ok slot =>
          (.intercepted context true slot, { around with slot := slot, meters := meters })
      | .error _ =>
          (.intercepted context false around.slot, { around with meters := meters })
  | readMetrics meter => (.metrics (around.meters.getD meter {}), around)

end Action

namespace Task

def answers : Task → List Answer
  | finished answers | yielding answers _ | inScope answers .. | inSpawn answers ..
  | inJoin answers .. => answers
  | ready _ => []

/-- The answers of a task that has come to its end. -/
def answers? : Task → Option (List Answer)
  | finished answers => some answers
  | _ => none

/-- The answers of tasks that have all come to their end. -/
def allAnswers? (tasks : List Task) : Option (List (List Answer)) :=
  tasks.mapM answers?

mutual

/-- Nothing in the task can run before the clock ticks. -/
def isIdle : Task → Bool
  | finished _ => true
  | ready _ | yielding .. => false
  | inScope _ _ _ body .. => body.isIdle
  | inSpawn _ child _ => child.answers?.isNone && child.isIdle
  | inJoin _ tasks _ => allIdle tasks

/-- Nothing in any of the tasks can run before the clock ticks. -/
def allIdle : List Task → Bool
  | [] => true
  | task :: others => task.isIdle && allIdle others

end

/-- Replaces the slot while something is polled and puts the old one back;
the slot that was used comes first. -/
def withSlot {α : Type} (slot : Slot) (poll : Surroundings → α × Surroundings)
    (around : Surroundings) : α × Slot × Surroundings :=
  let (result, inner) := poll { around with slot := slot }
  (result, inner.slot, { inner with slot := around.slot })

/-- How a scope ends at a tick, with the state of its body; none when it goes
on.  A body that ends of its own is not dropped. -/
def scopeEnd? (opened now : Nat) (body : Task) (exit : Exit) : Option Answer :=
  match body.answers?, exit.ends with
  | some inner, true => some (.ended inner exit)
  | _, _ => if opened < now then some (.ended body.answers .cancel) else none

mutual

/-- Runs steps until the first suspension. -/
def runSteps (answers : List Answer) (steps : List Step) (around : Surroundings) :
    Task × Surroundings :=
  match steps with
  | [] => (finished answers, around)
  | .act action :: rest =>
      let (observation, after) := action.perform around
      runSteps (answers ++ [.observed observation]) rest after
  | .yield :: rest => (yielding answers rest, around)
  | .scope body exit :: rest =>
      let (task, own, after) := withSlot Slot.fresh (runSteps [] body) around
      match scopeEnd? around.now around.now task exit with
      | some answer => runSteps (answers ++ [answer]) rest after
      | none => (inScope answers own around.now task exit rest, after)
  | .spawn body :: rest =>
      let (child, _, after) := withSlot Slot.outside (runSteps [] body) around
      (inSpawn answers child rest, after)
  | .join bodies :: rest =>
      let (tasks, after) := startAll bodies around
      match allAnswers? tasks with
      | some inner => runSteps (answers ++ [.joined inner]) rest after
      | none => (inJoin answers tasks rest, after)

/-- Runs bodies one after the other, each until its first suspension. -/
def startAll (bodies : List (List Step)) (around : Surroundings) :
    List Task × Surroundings :=
  match bodies with
  | [] => ([], around)
  | body :: others =>
      let (task, afterFirst) := runSteps [] body around
      let (tasks, after) := startAll others afterFirst
      (task :: tasks, after)

end

mutual

/-- Runs a task until its next suspension or its end.  A task that waits for
one of its own sees its end at the next poll. -/
def poll (task : Task) (around : Surroundings) : Task × Surroundings :=
  match task with
  | finished answers => (finished answers, around)
  | ready program => runSteps [] program around
  | yielding answers rest => runSteps (answers ++ [.yielded]) rest around
  | inScope answers own opened body exit rest =>
      let (task, own, after) := withSlot own (poll body) around
      match scopeEnd? opened around.now task exit with
      | some answer => runSteps (answers ++ [answer]) rest after
      | none => (inScope answers own opened task exit rest, after)
  | inSpawn answers child rest =>
      match child.answers? with
      | some inner => runSteps (answers ++ [.spawned inner]) rest around
      | none =>
          let (task, _, after) := withSlot Slot.outside (poll child) around
          (inSpawn answers task rest, after)
  | inJoin answers tasks rest =>
      let (tasks, after) := pollAll tasks around
      match allAnswers? tasks with
      | some inner => runSteps (answers ++ [.joined inner]) rest after
      | none => (inJoin answers tasks rest, after)

/-- Polls tasks one after the other. -/
def pollAll (tasks : List Task) (around : Surroundings) : List Task × Surroundings :=
  match tasks with
  | [] => ([], around)
  | task :: others =>
      let (polled, afterFirst) := poll task around
      let (tasks, after) := pollAll others afterFirst
      (polled :: tasks, after)

end

/-- Polls a task at most the given number of times, until it ends; the clock
ticks whenever the task is left with nothing to run. -/
def pollUntilEnd : (polls : Nat) → Task → Surroundings → Task × Surroundings
  | 0, task, around => (task, around)
  | polls + 1, task, around =>
      match poll task around with
      | (finished answers, after) => (finished answers, after)
      | (left, after) =>
          let now := if left.isIdle then after.now + 1 else after.now
          pollUntilEnd polls left { after with now := now }

end Task

mutual

/-- A number of polls after which a step has come to its end. -/
def Step.polls : Step → Nat
  | act _ => 1
  | .yield => 2
  | scope body _ => 2 + pollsOfAll body
  | spawn body => 3 + pollsOfAll body
  | join bodies => 1 + pollsOfBodies bodies

/-- A number of polls after which steps have come to their end. -/
def Step.pollsOfAll : List Step → Nat
  | [] => 1
  | step :: rest => step.polls + pollsOfAll rest

/-- A number of polls after which bodies have come to their end. -/
def Step.pollsOfBodies : List (List Step) → Nat
  | [] => 1
  | body :: others => pollsOfAll body + pollsOfBodies others

end

def runProgram (program : List Step) (around : Surroundings) :
    Task × Surroundings :=
  (Task.ready program).pollUntilEnd (Step.pollsOfAll program) around

/-- The steps that handle a request: in a scope of its own its context is
assembled and published, a body runs, and a body that completes leaves the
slot empty. -/
def Step.handle (request : Request) (body : List Step) (exit : Exit) : Step :=
  .scope (.act (.intercept request) :: body
    ++ (if exit.completes then [.act .clear] else [])) exit

end GridSecurity
