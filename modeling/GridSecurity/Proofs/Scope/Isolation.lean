import GridSecurity.Proofs.Scope.Visits

/-!
# Scopes side by side do not see each other

Several requests are handled side by side, each in a scope of its own, and whoever owns them
polls them in any order and drops any of them.  What happens around a scope reaches its body
through the slot, the clock and the metrics only.  The slot is the scope's own, and metrics
matter to nothing but a step that reads them.  So each request sees what it would see if it
were alone and polled at the same times.
-/

namespace GridSecurity

/-! ## Steps that read no metrics -/

/-- The metrics are shared by all requests, so what they show is not a request's own. -/
def Action.readsNoMetrics : Action → Bool
  | readMetrics _ => false
  | publish _ | clear | observe | intercept _ => true

mutual

def Step.readsNoMetrics : Step → Bool
  | act action => action.readsNoMetrics
  | .yield => true
  | scope body _ | spawn body => allReadNoMetrics body
  | join bodies => bodiesReadNoMetrics bodies

def Step.allReadNoMetrics : List Step → Bool
  | [] => true
  | step :: rest => step.readsNoMetrics && allReadNoMetrics rest

def Step.bodiesReadNoMetrics : List (List Step) → Bool
  | [] => true
  | body :: others => allReadNoMetrics body && bodiesReadNoMetrics others

end

namespace Task

mutual

/-- None of the steps that are left reads metrics. -/
def readsNoMetrics : Task → Bool
  | finished _ => true
  | ready program => Step.allReadNoMetrics program
  | yielding _ rest => Step.allReadNoMetrics rest
  | inScope _ _ _ body _ rest => body.readsNoMetrics && Step.allReadNoMetrics rest
  | inSpawn _ child rest => child.readsNoMetrics && Step.allReadNoMetrics rest
  | inJoin _ tasks rest => allReadNoMetrics tasks && Step.allReadNoMetrics rest

def allReadNoMetrics : List Task → Bool
  | [] => true
  | task :: others => task.readsNoMetrics && allReadNoMetrics others

end

end Task

/-! ## The same but for the metrics -/

/-- Surroundings that only the metrics tell apart. -/
structure Surroundings.Alike (left right : Surroundings) : Prop where
  slot : left.slot = right.slot
  now : left.now = right.now

/-- Two results are the same, and so are the surroundings that are left, but for the metrics,
which nothing in the results is going to read. -/
structure Agree {α : Type} (readsNoMetrics : α → Bool) (left right : α × Surroundings) :
    Prop where
  result : left.1 = right.1
  alike : left.2.Alike right.2
  unread : readsNoMetrics left.1 = true

/-- Tasks that were taken one after the other agree if each of them does. -/
theorem Agree.cons {firstLeft firstRight : Task × Surroundings}
    {restLeft restRight : List Task × Surroundings}
    (first : Agree Task.readsNoMetrics firstLeft firstRight)
    (rest : Agree Task.allReadNoMetrics restLeft restRight) :
    Agree Task.allReadNoMetrics (firstLeft.1 :: restLeft.1, restLeft.2)
      (firstRight.1 :: restRight.1, restRight.2) where
  result := List.cons_eq_cons.mpr ⟨first.result, rest.result⟩
  alike := rest.alike
  unread := Bool.and_eq_true_iff.mpr ⟨first.unread, rest.unread⟩

theorem Surroundings.Alike.enter {left right : Surroundings} (alike : left.Alike right)
    (slot : Slot) : Alike { left with slot := slot } { right with slot := slot } :=
  ⟨rfl, alike.now⟩

theorem Surroundings.Alike.leave {left right innerLeft innerRight : Surroundings}
    (alike : left.Alike right) (inner : innerLeft.Alike innerRight) :
    Alike { innerLeft with slot := left.slot } { innerRight with slot := right.slot } :=
  ⟨alike.slot, inner.now⟩

private theorem Action.perform_agree {action : Action} (unread : action.readsNoMetrics = true)
    {left right : Surroundings} (alike : left.Alike right) :
    (action.perform left).1 = (action.perform right).1 ∧
      (action.perform left).2.Alike (action.perform right).2 := by
  obtain ⟨slot, meters, now⟩ := left
  obtain ⟨_, others, _⟩ := right
  obtain ⟨rfl, rfl⟩ := alike
  cases action with
  | publish context | intercept request =>
      cases slot with
      | none => exact ⟨rfl, rfl, rfl⟩
      | some before => exact ⟨rfl, rfl, rfl⟩
  | clear | observe => exact ⟨rfl, rfl, rfl⟩
  | readMetrics meter => cases unread

namespace Task

private theorem afterBody_agree {answers : List Answer} {opened alsoOpened : Nat} {exit : Exit}
    {rest : List Step} (unread : Step.allReadNoMetrics rest = true)
    {left right : Surroundings} (alike : left.Alike right) (together : opened = alsoOpened)
    {innerLeft innerRight : Task × Surroundings}
    (inner : Agree readsNoMetrics innerLeft innerRight)
    (continued : ∀ answers left right, left.Alike right →
      Agree readsNoMetrics (runSteps answers rest left) (runSteps answers rest right)) :
    Agree readsNoMetrics (afterBody answers opened exit rest left innerLeft)
      (afterBody answers alsoOpened exit rest right innerRight) := by
  subst together
  unfold afterBody
  rw [← inner.result, ← alike.now]
  split
  · exact continued _ _ _ (alike.leave inner.alike)
  · refine ⟨?_, alike.leave inner.alike, ?_⟩
    · rw [inner.alike.slot]
    · exact Bool.and_eq_true_iff.mpr ⟨inner.unread, unread⟩

mutual

theorem runSteps_agree (answers : List Answer) (steps : List Step)
    (unread : Step.allReadNoMetrics steps = true) {left right : Surroundings}
    (alike : left.Alike right) :
    Agree readsNoMetrics (runSteps answers steps left) (runSteps answers steps right) := by
  cases steps with
  | nil =>
      rw [runSteps, runSteps]
      exact ⟨rfl, alike, rfl⟩
  | cons step rest =>
      obtain ⟨here, later⟩ := Bool.and_eq_true_iff.mp unread
      cases step with
      | act action =>
          obtain ⟨same, alikeAfter⟩ := action.perform_agree here alike
          rw [runSteps, runSteps]
          dsimp only
          rw [same]
          exact runSteps_agree _ rest later alikeAfter
      | yield =>
          rw [runSteps, runSteps]
          exact ⟨rfl, alike, later⟩
      | scope body exit =>
          rw [runSteps_scope, runSteps_scope]
          exact afterBody_agree later alike alike.now
            (runSteps_agree [] body here (alike.enter Slot.fresh))
            fun answers left right alike => runSteps_agree answers rest later alike
      | spawn body =>
          have inner := runSteps_agree [] body here (alike.enter Slot.outside)
          rw [runSteps, runSteps]
          refine ⟨?_, alike.leave inner.alike, Bool.and_eq_true_iff.mpr ⟨inner.unread, later⟩⟩
          exact congrArg (inSpawn answers · rest) inner.result
      | join bodies =>
          have inner := startAll_agree bodies here alike
          rw [runSteps, runSteps]
          dsimp only
          rw [← inner.result]
          split
          · exact runSteps_agree _ rest later inner.alike
          · exact ⟨rfl, inner.alike, Bool.and_eq_true_iff.mpr ⟨inner.unread, later⟩⟩

theorem startAll_agree (bodies : List (List Step))
    (unread : Step.bodiesReadNoMetrics bodies = true) {left right : Surroundings}
    (alike : left.Alike right) :
    Agree allReadNoMetrics (startAll bodies left) (startAll bodies right) := by
  cases bodies with
  | nil =>
      rw [startAll, startAll]
      exact ⟨rfl, alike, rfl⟩
  | cons body others =>
      obtain ⟨here, later⟩ := Bool.and_eq_true_iff.mp unread
      have first := runSteps_agree [] body here alike
      rw [startAll, startAll]
      exact first.cons (startAll_agree others later first.alike)

end

mutual

theorem poll_agree (task : Task) (unread : task.readsNoMetrics = true)
    {left right : Surroundings} (alike : left.Alike right) :
    Agree readsNoMetrics (task.poll left) (task.poll right) := by
  cases task with
  | finished answers =>
      rw [poll, poll]
      exact ⟨rfl, alike, rfl⟩
  | ready program =>
      rw [poll, poll]
      exact runSteps_agree [] program unread alike
  | yielding answers rest =>
      rw [poll, poll]
      exact runSteps_agree _ rest unread alike
  | inScope answers own opened body exit rest =>
      obtain ⟨here, later⟩ := Bool.and_eq_true_iff.mp unread
      rw [poll_inScope, poll_inScope]
      exact afterBody_agree later alike rfl (poll_agree body here (alike.enter own))
        fun answers left right alike => runSteps_agree answers rest later alike
  | inSpawn answers child rest =>
      obtain ⟨here, later⟩ := Bool.and_eq_true_iff.mp unread
      rw [poll, poll]
      split
      · exact runSteps_agree _ rest later alike
      · have inner := poll_agree child here (alike.enter Slot.outside)
        refine ⟨?_, alike.leave inner.alike, Bool.and_eq_true_iff.mpr ⟨inner.unread, later⟩⟩
        exact congrArg (inSpawn answers · rest) inner.result
  | inJoin answers tasks rest =>
      obtain ⟨here, later⟩ := Bool.and_eq_true_iff.mp unread
      have inner := pollAll_agree tasks here alike
      rw [poll, poll]
      dsimp only
      rw [← inner.result]
      split
      · exact runSteps_agree _ rest later inner.alike
      · exact ⟨rfl, inner.alike, Bool.and_eq_true_iff.mpr ⟨inner.unread, later⟩⟩

theorem pollAll_agree (tasks : List Task) (unread : allReadNoMetrics tasks = true)
    {left right : Surroundings} (alike : left.Alike right) :
    Agree allReadNoMetrics (pollAll tasks left) (pollAll tasks right) := by
  cases tasks with
  | nil =>
      rw [pollAll, pollAll]
      exact ⟨rfl, alike, rfl⟩
  | cons task others =>
      obtain ⟨here, later⟩ := Bool.and_eq_true_iff.mp unread
      have first := poll_agree task here alike
      rw [pollAll, pollAll]
      exact first.cons (pollAll_agree others later first.alike)

end

private theorem abandon_agree (depth : Nat) (task : Task) (unread : task.readsNoMetrics = true)
    {left right : Surroundings} (alike : left.Alike right) :
    Agree readsNoMetrics (task.abandon depth left) (task.abandon depth right) := by
  induction depth generalizing task left right with
  | zero =>
      cases task with
      | inScope answers own opened body exit rest =>
          rw [abandon, abandon]
          exact runSteps_agree _ rest (Bool.and_eq_true_iff.mp unread).2 alike
      | _ =>
          rw [abandon, abandon]
          exact ⟨rfl, alike, unread⟩
  | succ depth induction =>
      cases task with
      | inScope answers own opened body exit rest =>
          obtain ⟨here, later⟩ := Bool.and_eq_true_iff.mp unread
          rw [abandon_inScope_succ, abandon_inScope_succ]
          exact afterBody_agree later alike rfl (induction body here (alike.enter own))
            fun answers left right alike => runSteps_agree answers rest later alike
      | _ =>
          rw [abandon, abandon]
          exact ⟨rfl, alike, unread⟩

/-! ## Tasks inside one scope -/

/-- All that is left of a task is to be done inside one scope. -/
inductive Enclosed : Task → Prop
  | ready {body : List Step} {exit : Exit} (unread : Step.allReadNoMetrics body = true) :
      Enclosed (.ready [.scope body exit])
  | inScope {answers : List Answer} {own : Slot} {opened : Nat} {body : Task} {exit : Exit}
      (unread : body.readsNoMetrics = true) :
      Enclosed (.inScope answers own opened body exit [])
  | finished (answers : List Answer) : Enclosed (.finished answers)

/-- The same task is left in both surroundings, and the slot of the first is the given one. -/
structure KeptApart (slot : Slot) (left right : Task × Surroundings) : Prop where
  task : left.1 = right.1
  slot : left.2.slot = slot
  enclosed : left.1.Enclosed

private theorem afterBody_keptApart {answers : List Answer} {opened alsoOpened : Nat} {exit : Exit}
    {left right : Surroundings} (sameNow : left.now = right.now)
    (together : opened = alsoOpened) {innerLeft innerRight : Task × Surroundings}
    (inner : Agree readsNoMetrics innerLeft innerRight) :
    KeptApart left.slot (afterBody answers opened exit [] left innerLeft)
      (afterBody answers alsoOpened exit [] right innerRight) := by
  subst together
  unfold afterBody
  rw [← inner.result, ← sameNow]
  split
  · rw [runSteps, runSteps]
    exact ⟨rfl, rfl, .finished _⟩
  · refine ⟨?_, rfl, .inScope inner.unread⟩
    rw [inner.alike.slot]

namespace Enclosed

variable {task : Task}

theorem poll (enclosed : task.Enclosed) (left right : Surroundings)
    (sameNow : left.now = right.now) :
    KeptApart left.slot (task.poll left) (task.poll right) := by
  cases enclosed with
  | @ready body exit unread =>
      rw [Task.poll, Task.poll, runSteps_scope, runSteps_scope]
      exact afterBody_keptApart sameNow sameNow (runSteps_agree [] body unread ⟨rfl, sameNow⟩)
  | @inScope answers own opened body exit unread =>
      rw [poll_inScope, poll_inScope]
      exact afterBody_keptApart sameNow rfl (poll_agree body unread ⟨rfl, sameNow⟩)
  | finished answers =>
      rw [Task.poll, Task.poll]
      exact ⟨rfl, rfl, .finished answers⟩

theorem abandon (enclosed : task.Enclosed) (depth : Nat) (left right : Surroundings)
    (sameNow : left.now = right.now) :
    KeptApart left.slot (task.abandon depth left) (task.abandon depth right) := by
  cases enclosed with
  | ready unread =>
      rw [Task.abandon, Task.abandon]
      exact ⟨rfl, rfl, .ready unread⟩
  | @inScope answers own opened body exit unread =>
      cases depth with
      | zero =>
          rw [Task.abandon, Task.abandon, runSteps, runSteps]
          exact ⟨rfl, rfl, .finished _⟩
      | succ depth =>
          rw [abandon_inScope_succ, abandon_inScope_succ]
          exact afterBody_keptApart sameNow rfl
            (abandon_agree depth body unread ⟨rfl, sameNow⟩)
  | finished answers =>
      rw [Task.abandon, Task.abandon]
      exact ⟨rfl, rfl, .finished answers⟩

/-- Whatever stands in the slot around an enclosed task and in the metrics, a visit does the
same, and leaves that slot as it is. -/
theorem visit (enclosed : task.Enclosed) (next : Visit) (left right : Surroundings) :
    KeptApart left.slot (task.visit next left) (task.visit next right) := by
  unfold Task.visit
  split
  · exact enclosed.poll { left with now := next.now } { right with now := next.now } rfl
  · exact enclosed.abandon _ { left with now := next.now } { right with now := next.now } rfl

end Enclosed

end Task

/-! ## Side by side -/

def Step.opensScope : Step → Bool
  | scope .. => true
  | act _ | .yield | spawn _ | join _ => false

private theorem Step.enclosed_of_opensScope {future : Step} (opens : future.opensScope = true)
    (unread : future.readsNoMetrics = true) : (Task.ready [future]).Enclosed := by
  cases future with
  | scope body exit => exact .ready unread
  | _ => cases opens

/-- Tasks that one owner visits in turns, and what surrounds them all. -/
structure Group where
  tasks : List Task
  around : Surroundings

/-- A visit to the task at a position. -/
structure Move where
  position : Nat
  visit : Task.Visit := {}

namespace Group

def ofFutures (futures : List Step) (around : Surroundings) : Group :=
  ⟨futures.map fun future => .ready [future], around⟩

def move (group : Group) (next : Move) : Group :=
  match group.tasks[next.position]? with
  | none => group
  | some task =>
      let (left, after) := task.visit next.visit group.around
      ⟨group.tasks.set next.position left, after⟩

def run (group : Group) (moves : List Move) : Group := moves.foldl move group

variable {group : Group} {next : Move} {task : Task}

private theorem move_of_none (absent : group.tasks[next.position]? = none) :
    group.move next = group := by
  rw [move, absent]

private theorem move_of_some (found : group.tasks[next.position]? = some task) :
    group.move next = ⟨group.tasks.set next.position (task.visit next.visit group.around).1,
      (task.visit next.visit group.around).2⟩ := by
  rw [move, found]

private theorem length_move : (group.move next).tasks.length = group.tasks.length := by
  cases found : group.tasks[next.position]? with
  | none => rw [move_of_none found]
  | some task =>
      rw [move_of_some found]
      exact List.length_set

private theorem getElem?_move_self (found : group.tasks[next.position]? = some task) :
    (group.move next).tasks[next.position]? = some (task.visit next.visit group.around).1 := by
  rw [move_of_some found]
  exact List.getElem?_set_self (List.getElem?_eq_some_iff.mp found).1

private theorem getElem?_move_of_ne {position : Nat} (other : next.position ≠ position) :
    (group.move next).tasks[position]? = group.tasks[position]? := by
  cases found : group.tasks[next.position]? with
  | none => rw [move_of_none found]
  | some task =>
      rw [move_of_some found]
      exact List.getElem?_set_ne other

end Group

/-- The visits to the task at a position, in order. -/
def visitsOf (position : Nat) (moves : List Move) : List Task.Visit :=
  (moves.filter (·.position == position)).map (·.visit)

private theorem visitsOf_concat (position : Nat) (moves : List Move) (next : Move) :
    visitsOf position (moves ++ [next]) = visitsOf position moves ++
      if next.position = position then [next.visit] else [] := by
  by_cases same : next.position = position
  · simp [visitsOf, same]
  · simp [visitsOf, same]

/-- After moves, the slot around all tasks is the given one, and each task is where its own
visits alone would have taken it. -/
structure Isolated (futures : List Step) (slot : Slot) (moves : List Move) (group : Group) :
    Prop where
  size : group.tasks.length = futures.length
  slot : group.around.slot = slot
  asAlone : ∀ (position : Nat) (future : Step), futures[position]? = some future →
    ∃ task, group.tasks[position]? = some task ∧ task.Enclosed ∧
      ∀ alone, ((Task.ready [future]).visitAll (visitsOf position moves) alone).1 = task

namespace Isolated

variable {futures : List Step} {slot : Slot} {moves : List Move} {group : Group}

theorem ofFutures (inScopes : ∀ future ∈ futures, future.opensScope = true ∧
      future.readsNoMetrics = true) (around : Surroundings) :
    Isolated futures around.slot [] (Group.ofFutures futures around) where
  size := List.length_map _
  slot := rfl
  asAlone := by
    intro position future present
    obtain ⟨opens, unread⟩ := inScopes future (List.mem_of_getElem? present)
    refine ⟨_, ?_, Step.enclosed_of_opensScope opens unread, fun _ => rfl⟩
    rw [Group.ofFutures, List.getElem?_map, present]
    rfl

/-- Every task in the group is inside a scope of its own. -/
theorem enclosed (isolated : Isolated futures slot moves group) {position : Nat} {task : Task}
    (found : group.tasks[position]? = some task) : task.Enclosed := by
  have inside : position < futures.length :=
    isolated.size ▸ (List.getElem?_eq_some_iff.mp found).1
  obtain ⟨_, here, enclosed, _⟩ :=
    isolated.asAlone position futures[position] (List.getElem?_eq_getElem inside)
  cases here.symm.trans found
  exact enclosed

theorem move (isolated : Isolated futures slot moves group) (next : Move) :
    Isolated futures slot (moves ++ [next]) (group.move next) where
  size := Group.length_move.trans isolated.size
  slot := by
    cases found : group.tasks[next.position]? with
    | none =>
        rw [Group.move_of_none found]
        exact isolated.slot
    | some task =>
        rw [Group.move_of_some found]
        have visited := (isolated.enclosed found).visit next.visit group.around group.around
        exact visited.slot.trans isolated.slot
  asAlone := by
    intro position future present
    obtain ⟨task, found, enclosed, asAlone⟩ := isolated.asAlone position future present
    rw [visitsOf_concat]
    by_cases same : next.position = position
    · subst same
      have visited := enclosed.visit next.visit group.around group.around
      refine ⟨_, Group.getElem?_move_self found, visited.enclosed, ?_⟩
      intro alone
      rw [if_pos rfl, Task.visitAll_concat, asAlone alone]
      exact (enclosed.visit next.visit _ group.around).task
    · rw [if_neg same, List.append_nil]
      exact ⟨task, (Group.getElem?_move_of_ne same).trans found, enclosed, asAlone⟩

theorem run (isolated : Isolated futures slot moves group) (more : List Move) :
    Isolated futures slot (moves ++ more) (group.run more) := by
  induction more generalizing moves group with
  | nil =>
      rw [List.append_nil]
      exact isolated
  | cons next more induction =>
      rw [List.append_cons]
      exact induction (isolated.move next)

end Isolated

namespace Sample

/-- A handler, and a scope that publishes a context and clears it after a while. -/
def sideBySide : List Step := [
  .handle (requestFrom "a") [.yield, .act .observe] .ok,
  .scope [.act (.publish (contextFrom "b")), .yield, .act .observe, .act .clear, .yield] .ok]

/-- Both in turns, until the second one is dropped where it yields again. -/
def inTurns : List Move := [⟨0, {}⟩, ⟨1, {}⟩, ⟨0, {}⟩, ⟨1, {}⟩, ⟨1, { dropped := some 0 }⟩]

end Sample

namespace Group

/-- In whatever order requests are visited side by side, each in a scope of its own, every one
of them answers as if it were alone, in any surroundings, and is visited at the same times. -/
theorem interleaved_as_alone {futures : List Step}
    (inScopes : ∀ future ∈ futures, future.opensScope = true ∧ future.readsNoMetrics = true)
    (around : Surroundings) (moves : List Move) {group : Group}
    (left : (ofFutures futures around).run moves = group) :
    group.around.slot = around.slot ∧
      ∀ position future, futures[position]? = some future →
        ∃ task, group.tasks[position]? = some task ∧
          ∀ alone, ((Task.ready [future]).visitAll (visitsOf position moves) alone).1 =
            task := by
  have isolated := (Isolated.ofFutures inScopes around).run moves
  rw [List.nil_append, left] at isolated
  refine ⟨isolated.slot, ?_⟩
  intro position future present
  obtain ⟨task, found, _, asAlone⟩ := isolated.asAlone position future present
  exact ⟨task, found, asAlone⟩

/-- The second request is dropped while the first one has come to its end. -/
theorem interleaved_as_alone_of_two :
    (∀ future ∈ Sample.sideBySide, future.opensScope = true ∧ future.readsNoMetrics = true) ∧
    ∃ group, (ofFutures Sample.sideBySide ⟨Slot.fresh, [], 0⟩).run Sample.inTurns = group ∧
      group.tasks = [
        .finished [.ended [
          .observed (.intercepted (Sample.contextFrom "a") true
            (some (some (Sample.contextFrom "a")))),
          .yielded,
          .observed (.slot (some (some (Sample.contextFrom "a")))),
          .observed (.slot Slot.fresh)] .ok],
        .finished [.ended [
          .observed (.published (.ok ()) (some (some (Sample.contextFrom "b")))),
          .yielded,
          .observed (.slot (some (some (Sample.contextFrom "b")))),
          .observed (.slot Slot.fresh)] .cancel]] ∧
      group.around.slot = Slot.fresh ∧
      ∀ (position : Nat) (future : Step), Sample.sideBySide[position]? = some future →
        ∃ task, group.tasks[position]? = some task ∧
          ∀ alone, ((Task.ready [future]).visitAll (visitsOf position Sample.inTurns) alone).1 =
            task := by
  have inScopes : ∀ future ∈ Sample.sideBySide,
      future.opensScope = true ∧ future.readsNoMetrics = true :=
    List.forall_mem_cons.mpr ⟨⟨rfl, rfl⟩, List.forall_mem_singleton.mpr ⟨rfl, rfl⟩⟩
  obtain ⟨slot, asAlone⟩ :=
    interleaved_as_alone inScopes ⟨Slot.fresh, [], 0⟩ Sample.inTurns rfl
  exact ⟨inScopes, _, rfl, by cbv, slot, asAlone⟩

end Group

end GridSecurity
