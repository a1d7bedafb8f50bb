import GridSecurity.Proofs.Interception.Accounts
import Mathlib.Data.List.Perm.Subperm

/-!
# A task intercepts each of its requests once at most

A step that intercepts a request is passed once, however often the task around it is
polled, and not at all if its scope is dropped before.  So the requests that a poll
intercepts, together with those that are still due after it, were all due before.  And
whatever contexts the task's answers show then and did not show before are those that
were returned for the requests that the poll has intercepted.
-/

namespace GridSecurity

/-! ## The requests of steps and the contexts of answers -/

def Action.requests : Action → List Request
  | intercept request => [request]
  | _ => []

mutual

/-- The requests that a step intercepts if it is not dropped. -/
def Step.requests : Step → List Request
  | act action => action.requests
  | .yield => []
  | scope body _ | spawn body => requestsOfAll body
  | join bodies => requestsOfBodies bodies

def Step.requestsOfAll : List Step → List Request
  | [] => []
  | step :: rest => step.requests ++ requestsOfAll rest

def Step.requestsOfBodies : List (List Step) → List Request
  | [] => []
  | body :: others => requestsOfAll body ++ requestsOfBodies others

end

def Observation.contexts : Observation → List SecurityContext
  | intercepted context _ _ => [context]
  | _ => []

mutual

/-- The contexts of intercepted requests that an answer shows. -/
def Answer.contexts : Answer → List SecurityContext
  | observed observation => observation.contexts
  | yielded => []
  | ended inner _ | spawned inner => contextsOfAll inner
  | joined inner => contextsOfBodies inner

def Answer.contextsOfAll : List Answer → List SecurityContext
  | [] => []
  | answer :: rest => answer.contexts ++ contextsOfAll rest

def Answer.contextsOfBodies : List (List Answer) → List SecurityContext
  | [] => []
  | body :: others => contextsOfAll body ++ contextsOfBodies others

end

theorem Step.requestsOfAll_append (first second : List Step) :
    requestsOfAll (first ++ second) = requestsOfAll first ++ requestsOfAll second := by
  induction first with
  | nil => rw [requestsOfAll, List.nil_append, List.nil_append]
  | cons step rest induction =>
      rw [List.cons_append, requestsOfAll, requestsOfAll, induction, List.append_assoc]

/-- How far a task has come: the contexts that its answers show, and the requests that it
has still to intercept. -/
structure Stage where
  shown : List SecurityContext
  due : List Request

namespace Task

mutual

def stage : Task → Stage
  | finished answers => ⟨Answer.contextsOfAll answers, []⟩
  | ready program => ⟨[], Step.requestsOfAll program⟩
  | yielding answers rest => ⟨Answer.contextsOfAll answers, Step.requestsOfAll rest⟩
  | inScope answers _ _ body _ rest =>
      ⟨Answer.contextsOfAll answers ++ body.stage.shown,
        body.stage.due ++ Step.requestsOfAll rest⟩
  | inSpawn answers child rest =>
      ⟨Answer.contextsOfAll answers ++ child.stage.shown,
        child.stage.due ++ Step.requestsOfAll rest⟩
  | inJoin answers tasks rest =>
      ⟨Answer.contextsOfAll answers ++ (stageOfAll tasks).shown,
        (stageOfAll tasks).due ++ Step.requestsOfAll rest⟩

def stageOfAll : List Task → Stage
  | [] => ⟨[], []⟩
  | task :: others =>
      ⟨task.stage.shown ++ (stageOfAll others).shown,
        task.stage.due ++ (stageOfAll others).due⟩

end

end Task

/-! ## From one stage to another -/

/-- Of the requests that were due, the calls have been intercepted and counted and others
are left, and all contexts shown since are those of the calls. -/
structure Intercepts (calls : List Request) (first last : Stage) (before after : Meters) :
    Prop where
  counted : after = calls.foldl Request.countIn before
  conserved : (calls ++ last.due).Subperm first.due
  returned : last.shown.Subperm (first.shown ++ calls.map (·.context))

namespace Intercepts

variable {calls more : List Request} {first middle last : Stage}
  {before between after : Meters}

theorem nothing (stage : Stage) (meters : Meters) : Intercepts [] stage stage meters meters where
  counted := rfl
  conserved := List.Subperm.refl _
  returned := by rw [List.map_nil, List.append_nil]

theorem trans (now : Intercepts calls first middle before between)
    (later : Intercepts more middle last between after) :
    Intercepts (calls ++ more) first last before after where
  counted := by rw [List.foldl_append, ← now.counted, later.counted]
  conserved := by
    rw [List.append_assoc]
    exact ((List.subperm_append_left calls).mpr later.conserved).trans now.conserved
  returned := by
    rw [List.map_append, ← List.append_assoc]
    exact later.returned.trans ((List.subperm_append_right _).mpr now.returned)

/-- What is dropped is neither shown nor due. -/
theorem drop (now : Intercepts calls first middle before after)
    (shown : last.shown.Subperm middle.shown) (due : last.due.Subperm middle.due) :
    Intercepts calls first last before after where
  counted := now.counted
  conserved := ((List.subperm_append_left calls).mpr due).trans now.conserved
  returned := shown.trans now.returned

/-- A body between the answers before it and the steps behind it. -/
theorem inside (now : Intercepts calls first last before after)
    (shown : List SecurityContext) (rest : List Request) :
    Intercepts calls ⟨shown ++ first.shown, first.due ++ rest⟩
      ⟨shown ++ last.shown, last.due ++ rest⟩ before after where
  counted := now.counted
  conserved := by
    rw [← List.append_assoc]
    exact (List.subperm_append_right rest).mpr now.conserved
  returned := by
    rw [List.append_assoc]
    exact (List.subperm_append_left shown).mpr now.returned

theorem inFrontOf (now : Intercepts calls first last before after) (others : Stage) :
    Intercepts calls ⟨first.shown ++ others.shown, first.due ++ others.due⟩
      ⟨last.shown ++ others.shown, last.due ++ others.due⟩ before after where
  counted := now.counted
  conserved := (now.inside [] others.due).conserved
  returned := by
    apply ((List.subperm_append_right others.shown).mpr now.returned).trans
    rw [List.append_assoc, List.append_assoc]
    exact ((List.perm_append_comm).append_left first.shown).subperm

theorem behind (now : Intercepts calls first last before after) (other : Stage) :
    Intercepts calls ⟨other.shown ++ first.shown, other.due ++ first.due⟩
      ⟨other.shown ++ last.shown, other.due ++ last.due⟩ before after where
  counted := now.counted
  conserved := by
    apply List.Subperm.trans _ ((List.subperm_append_left other.due).mpr now.conserved)
    rw [← List.append_assoc, ← List.append_assoc]
    exact ((List.perm_append_comm).append_right last.due).subperm
  returned := (now.inside other.shown []).returned

end Intercepts

/-- An interceptor returns the context of the request and counts it, whether or not
there is a slot to publish the context in. -/
theorem Action.perform_intercept (request : Request) (around : Surroundings) :
    ∃ isCurrent slot, (intercept request).perform around =
      (.intercepted request.context isCurrent slot,
        { around with slot := slot, meters := Request.countIn around.meters request }) := by
  rw [perform]
  dsimp only
  split
  · next slot _ => exact ⟨true, slot, rfl⟩
  · exact ⟨false, around.slot, rfl⟩

private theorem Action.perform_intercepts (action : Action) (around : Surroundings) :
    Intercepts action.requests ⟨[], action.requests⟩
      ⟨(action.perform around).1.contexts, []⟩ around.meters
      (action.perform around).2.meters := by
  cases action with
  | publish context =>
      rw [perform]
      split
      · exact .nothing ⟨[], []⟩ around.meters
      · exact .nothing ⟨[], []⟩ around.meters
  | clear | observe | readMetrics meter => exact .nothing ⟨[], []⟩ around.meters
  | intercept request =>
      obtain ⟨isCurrent, slot, performed⟩ := perform_intercept request around
      rw [performed]
      exact ⟨rfl, List.Subperm.refl [request], List.Subperm.refl [request.context]⟩

/-! ## The answers of tasks that are over -/

private theorem Answer.contextsOfAll_append (first second : List Answer) :
    contextsOfAll (first ++ second) = contextsOfAll first ++ contextsOfAll second := by
  induction first with
  | nil => rw [contextsOfAll, List.nil_append, List.nil_append]
  | cons answer rest induction =>
      rw [List.cons_append, contextsOfAll, contextsOfAll, induction, List.append_assoc]

private theorem Answer.contextsOfAll_append_singleton (answers : List Answer) (answer : Answer) :
    contextsOfAll (answers ++ [answer]) = contextsOfAll answers ++ answer.contexts := by
  rw [contextsOfAll_append, contextsOfAll, contextsOfAll, List.append_nil]

namespace Task

theorem eq_finished_of_answers? {task : Task} {answers : List Answer}
    (isOver : task.answers? = some answers) : task = finished answers := by
  cases task with
  | finished own => exact congrArg finished (Option.some.inj isOver)
  | _ => cases isOver

private theorem contextsOfAll_answers_subperm (task : Task) :
    (Answer.contextsOfAll task.answers).Subperm task.stage.shown := by
  cases task with
  | finished answers | yielding answers rest =>
      exact List.Subperm.refl (Answer.contextsOfAll answers)
  | ready program =>
      rw [answers, Answer.contextsOfAll]
      exact List.nil_subperm
  | inScope answers own opened body exit rest | inSpawn answers child rest
  | inJoin answers tasks rest =>
      rw [stage]
      exact (List.sublist_append_left _ _).subperm

/-- The answer of a scope that is over shows no more than its body did. -/
theorem contexts_scopeEnd?_subperm {opened now : Nat} {body : Task} {exit : Exit}
    {answer : Answer} (isOver : scopeEnd? opened now body exit = some answer) :
    answer.contexts.Subperm body.stage.shown := by
  rw [scopeEnd?] at isOver
  split at isOver
  · next inner ended _ =>
      cases eq_finished_of_answers? ended
      cases isOver
      rw [Answer.contexts, stage]
  · split at isOver
    · cases isOver
      rw [Answer.contexts]
      exact body.contextsOfAll_answers_subperm
    · cases isOver

private theorem contextsOfBodies_of_allAnswers? {tasks : List Task} {inner : List (List Answer)}
    (isOver : allAnswers? tasks = some inner) :
    Answer.contextsOfBodies inner = (stageOfAll tasks).shown := by
  rw [allAnswers?, mapM_eq_some_iff] at isOver
  induction isOver with
  | nil => rw [Answer.contextsOfBodies, stageOfAll]
  | cons ended _ induction =>
      cases eq_finished_of_answers? ended
      rw [Answer.contextsOfBodies, stageOfAll, stage, induction]

private theorem contexts_joined_subperm {tasks : List Task} {inner : List (List Answer)}
    (isOver : allAnswers? tasks = some inner) :
    (Answer.joined inner).contexts.Subperm (stageOfAll tasks).shown := by
  rw [Answer.contexts, contextsOfBodies_of_allAnswers? isOver]

private theorem contexts_spawned_subperm {child : Task} {inner : List Answer}
    (isOver : child.answers? = some inner) :
    (Answer.spawned inner).contexts.Subperm child.stage.shown := by
  cases eq_finished_of_answers? isOver
  rw [Answer.contexts, stage]

end Task

namespace Intercepts

variable {calls : List Request} {due : List Request} {first last : Stage}
  {before after : Meters}

/-- A body that is begun between answers and steps. -/
theorem opening (begun : Intercepts calls ⟨[], due⟩ last before after)
    (answers : List Answer) (rest : List Request) :
    Intercepts calls ⟨Answer.contextsOfAll answers, due ++ rest⟩
      ⟨Answer.contextsOfAll answers ++ last.shown, last.due ++ rest⟩ before after := by
  simpa using begun.inside (Answer.contextsOfAll answers) rest

/-- A body that is over is shown by an answer, and what was due in it is dropped. -/
theorem closing {answers : List Answer} {rest : List Request}
    (now : Intercepts calls first
      ⟨Answer.contextsOfAll answers ++ last.shown, last.due ++ rest⟩ before after)
    {answer : Answer} (shown : answer.contexts.Subperm last.shown) :
    Intercepts calls first ⟨Answer.contextsOfAll (answers ++ [answer]), rest⟩
      before after := by
  apply now.drop
  · rw [Answer.contextsOfAll_append_singleton]
    exact (List.subperm_append_left _).mpr shown
  · exact (List.sublist_append_right _ _).subperm

end Intercepts

/-! ## Polls -/

namespace Task

mutual

theorem runSteps_intercepts (answers : List Answer) (steps : List Step)
    (around : Surroundings) :
    ∃ calls, Intercepts calls ⟨Answer.contextsOfAll answers, Step.requestsOfAll steps⟩
      (runSteps answers steps around).1.stage around.meters
      (runSteps answers steps around).2.meters := by
  cases steps with
  | nil =>
      rw [runSteps]
      exact ⟨[], .nothing ⟨_, []⟩ around.meters⟩
  | cons step rest =>
      rw [Step.requestsOfAll]
      cases step with
      | act action =>
          rw [runSteps]
          have now := (action.perform_intercepts around).opening answers
            (Step.requestsOfAll rest)
          obtain ⟨later, continued⟩ := runSteps_intercepts
            (answers ++ [.observed (action.perform around).1]) rest (action.perform around).2
          exact ⟨_, (now.closing (List.Subperm.refl _)).trans continued⟩
      | yield =>
          rw [runSteps]
          exact ⟨[], .nothing ⟨_, _⟩ around.meters⟩
      | scope body exit =>
          obtain ⟨now, begun⟩ := runSteps_intercepts [] body { around with slot := Slot.fresh }
          have opened := begun.opening answers (Step.requestsOfAll rest)
          rw [runSteps]
          dsimp only [withSlot]
          -- A scope that is over is left, with whatever its body has not come to.
          split
          · next answer isOver =>
              obtain ⟨later, continued⟩ := runSteps_intercepts (answers ++ [answer]) rest _
              exact ⟨_, (opened.closing (contexts_scopeEnd?_subperm isOver)).trans continued⟩
          · exact ⟨now, opened⟩
      | spawn body =>
          obtain ⟨now, begun⟩ :=
            runSteps_intercepts [] body { around with slot := Slot.outside }
          rw [runSteps]
          exact ⟨now, begun.opening answers (Step.requestsOfAll rest)⟩
      | join bodies =>
          obtain ⟨now, begun⟩ := startAll_intercepts bodies around
          have opened := begun.opening answers (Step.requestsOfAll rest)
          rw [runSteps]
          dsimp only
          split
          · next inner isOver =>
              obtain ⟨later, continued⟩ :=
                runSteps_intercepts (answers ++ [.joined inner]) rest _
              exact ⟨_, (opened.closing (contexts_joined_subperm isOver)).trans continued⟩
          · exact ⟨now, opened⟩

theorem startAll_intercepts (bodies : List (List Step)) (around : Surroundings) :
    ∃ calls, Intercepts calls ⟨[], Step.requestsOfBodies bodies⟩
      (stageOfAll (startAll bodies around).1) around.meters
      (startAll bodies around).2.meters := by
  cases bodies with
  | nil =>
      rw [startAll]
      exact ⟨[], .nothing ⟨[], []⟩ around.meters⟩
  | cons body others =>
      obtain ⟨now, first⟩ := runSteps_intercepts [] body around
      obtain ⟨later, rest⟩ := startAll_intercepts others (runSteps [] body around).2
      rw [startAll]
      exact ⟨_, (first.inFrontOf ⟨[], _⟩).trans (rest.behind _)⟩

end

/-- A program that begins with a request intercepts it at once. -/
theorem runSteps_intercept (request : Request) (rest : List Step)
    (around : Surroundings) :
    ∃ nested, Intercepts nested ⟨[request.context], Step.requestsOfAll rest⟩
      (runSteps [] (.act (.intercept request) :: rest) around).1.stage
      (Request.countIn around.meters request)
      (runSteps [] (.act (.intercept request) :: rest) around).2.meters := by
  obtain ⟨isCurrent, slot, performed⟩ := Action.perform_intercept request around
  obtain ⟨nested, continued⟩ := runSteps_intercepts
    ([] ++ [.observed (.intercepted request.context isCurrent slot)]) rest
    { around with slot := slot, meters := Request.countIn around.meters request }
  have shown : Answer.contextsOfAll
      ([] ++ [.observed (.intercepted request.context isCurrent slot)]) = [request.context] := by
    simp [Answer.contextsOfAll, Answer.contexts, Observation.contexts]
  rw [shown] at continued
  rw [runSteps, performed]
  exact ⟨nested, continued⟩

mutual

/-- What a poll intercepts was due, and so was what is left after it. -/
theorem poll_intercepts (task : Task) (around : Surroundings) :
    ∃ calls, Intercepts calls task.stage (task.poll around).1.stage around.meters
      (task.poll around).2.meters := by
  cases task with
  | finished answers =>
      rw [poll]
      exact ⟨[], .nothing _ around.meters⟩
  | ready program =>
      rw [poll]
      exact runSteps_intercepts [] program around
  | yielding answers rest =>
      obtain ⟨later, continued⟩ := runSteps_intercepts (answers ++ [.yielded]) rest around
      rw [Answer.contextsOfAll_append_singleton, Answer.contexts, List.append_nil] at continued
      rw [poll]
      exact ⟨later, continued⟩
  | inScope answers own opened body exit rest =>
      obtain ⟨now, polled⟩ := poll_intercepts body { around with slot := own }
      have whole := polled.inside (Answer.contextsOfAll answers) (Step.requestsOfAll rest)
      rw [poll]
      dsimp only [withSlot]
      split
      · next answer isOver =>
          obtain ⟨later, continued⟩ := runSteps_intercepts (answers ++ [answer]) rest _
          exact ⟨_, (whole.closing (contexts_scopeEnd?_subperm isOver)).trans continued⟩
      · exact ⟨now, whole⟩
  | inSpawn answers child rest =>
      rw [poll]
      split
      -- The child has ended at an earlier poll, which has counted its requests.
      · next inner isOver =>
          have whole := (Intercepts.nothing child.stage around.meters).inside
            (Answer.contextsOfAll answers) (Step.requestsOfAll rest)
          obtain ⟨later, continued⟩ :=
            runSteps_intercepts (answers ++ [.spawned inner]) rest around
          exact ⟨_, (whole.closing (contexts_spawned_subperm isOver)).trans continued⟩
      · obtain ⟨now, polled⟩ := poll_intercepts child { around with slot := Slot.outside }
        exact ⟨now, polled.inside _ _⟩
  | inJoin answers tasks rest =>
      obtain ⟨now, polled⟩ := pollAll_intercepts tasks around
      have whole := polled.inside (Answer.contextsOfAll answers) (Step.requestsOfAll rest)
      rw [poll]
      dsimp only
      split
      · next inner isOver =>
          obtain ⟨later, continued⟩ :=
            runSteps_intercepts (answers ++ [.joined inner]) rest _
          exact ⟨_, (whole.closing (contexts_joined_subperm isOver)).trans continued⟩
      · exact ⟨now, whole⟩

theorem pollAll_intercepts (tasks : List Task) (around : Surroundings) :
    ∃ calls, Intercepts calls (stageOfAll tasks) (stageOfAll (pollAll tasks around).1)
      around.meters (pollAll tasks around).2.meters := by
  cases tasks with
  | nil =>
      rw [pollAll]
      exact ⟨[], .nothing _ around.meters⟩
  | cons task others =>
      obtain ⟨now, first⟩ := poll_intercepts task around
      obtain ⟨later, rest⟩ := pollAll_intercepts others (task.poll around).2
      rw [pollAll]
      exact ⟨_, (first.inFrontOf (stageOfAll others)).trans (rest.behind _)⟩

end

end Task

end GridSecurity
