import GridSecurity.Proofs.Scope.Requests
import GridSecurity.Proofs.Scope.Visits

/-!
# Scopes nest and leave no trace

A program acts on the slot of the innermost open scope.  The rules below say what each of its
steps shows and leaves in that slot, and among them is that a scope leaves the slot around it
as it was, however its body came to its end.  They speak of whole bodies, while a task is
polled piece by piece with its scopes opened and closed again each time; that a task keeps to
the rules is shown for one visit at a time, and then for all of them.

A body that is left by a panic inside one of its scopes is one that ends there, with a panic.
A scope for a body that never suspends is over after the first poll.
-/

namespace GridSecurity

/-! ## Programs that run one thing at a time -/

mutual

/-- Nothing in the step is run side by side with other things. -/
def Step.isSequential : Step → Bool
  | act _ | .yield => true
  | scope body _ => areSequential body
  | spawn _ | join _ => false

def Step.areSequential : List Step → Bool
  | [] => true
  | step :: rest => step.isSequential && areSequential rest

end

/-- The steps inside the scope of a request that is handled. -/
def Step.handling (request : Request) (body : List Step) (exit : Exit) : List Step :=
  .act (.intercept request) :: body ++ (if exit.completes then [.act .clear] else [])

private theorem Step.handle_eq (request : Request) (body : List Step) (exit : Exit) :
    handle request body exit = .scope (handling request body exit) exit := rfl

/-! ## The rules -/

/-- What an action shows and leaves in the slot of the innermost open scope.  Where no scope
is open, nothing can be published, by an interceptor either. -/
inductive Action.Acts : Action → Slot → Observation → Slot → Prop
  | published (context : SecurityContext) (before : Option SecurityContext) :
      Acts (.publish context) (some before) (.published (.ok ()) (some (some context)))
        (some (some context))
  | notPublished (context : SecurityContext) :
      Acts (.publish context) Slot.outside
        (.published (.error .noActiveScope) Slot.outside) Slot.outside
  | cleared (before : Option SecurityContext) :
      Acts .clear (some before) (.slot Slot.fresh) Slot.fresh
  | nothingCleared : Acts .clear Slot.outside (.slot Slot.outside) Slot.outside
  | observed (slot : Slot) : Acts .observe slot (.slot slot) slot
  | intercepted (request : Request) (before : Option SecurityContext) :
      Acts (.intercept request) (some before)
        (.intercepted request.context true (some (some request.context)))
        (some (some request.context))
  | onlyIntercepted (request : Request) :
      Acts (.intercept request) Slot.outside
        (.intercepted request.context false Slot.outside) Slot.outside
  | readMetrics (meter : Nat) (metrics : Metrics) (slot : Slot) :
      Acts (.readMetrics meter) slot (.metrics metrics) slot

/-- A body can be dropped where it waits for something, and at its end if it never ends. -/
inductive Suspended (exit : Exit) : List Step → Prop
  | yielding (rest : List Step) : Suspended exit (.yield :: rest)
  | inScope (body : List Step) (inner : Exit) (rest : List Step) :
      Suspended exit (.scope body inner :: rest)
  | forever (never : exit.ends = false) : Suspended exit []

/-- From one slot, a program has given answers and stands in front of the steps that are left,
with another slot.  A scope begins with a fresh slot for its body and leaves its own slot as it
was, whether the body has ended or was dropped. -/
inductive Goes : Slot → List Step → List Answer → List Step → Slot → Prop
  | begun (slot : Slot) (program : List Step) : Goes slot program [] program slot
  | acted {start slot after : Slot} {program rest : List Step} {answers : List Answer}
      {action : Action} {observation : Observation}
      (before : Goes start program answers (.act action :: rest) slot)
      (acts : action.Acts slot observation after) :
      Goes start program (answers ++ [.observed observation]) rest after
  | yielded {start slot : Slot} {program rest : List Step} {answers : List Answer}
      (before : Goes start program answers (.yield :: rest) slot) :
      Goes start program (answers ++ [.yielded]) rest slot
  | ended {start slot own : Slot} {program rest body : List Step} {answers inner : List Answer}
      {exit : Exit} (before : Goes start program answers (.scope body exit :: rest) slot)
      (inside : Goes Slot.fresh body inner [] own) (ends : exit.ends = true) :
      Goes start program (answers ++ [.ended inner exit]) rest slot
  | dropped {start slot own : Slot} {program rest body left : List Step}
      {answers inner : List Answer} {exit : Exit}
      (before : Goes start program answers (.scope body exit :: rest) slot)
      (inside : Goes Slot.fresh body inner left own) (suspended : Suspended exit left) :
      Goes start program (answers ++ [.ended inner .cancel]) rest slot

/-- A task has begun a program from one slot and stands in it with another one around it.  A
task that is suspended inside a scope stands in its body, which began with a fresh slot and is
at its end only if it never ends. -/
inductive Task.Stands : Slot → List Step → Task → Slot → Prop
  | finished {start slot : Slot} {program : List Step} {answers : List Answer}
      (goes : Goes start program answers [] slot) :
      Stands start program (.finished answers) slot
  | yielding {start slot : Slot} {program rest : List Step} {answers : List Answer}
      (goes : Goes start program answers (.yield :: rest) slot) :
      Stands start program (.yielding answers rest) slot
  | inScope {start slot own : Slot} {program rest body : List Step} {answers : List Answer}
      {exit : Exit} {opened : Nat} {task : Task}
      (goes : Goes start program answers (.scope body exit :: rest) slot)
      (inside : Stands Slot.fresh body task own)
      (goesOn : ∀ inner, task.answers? = some inner → exit.ends = false) :
      Stands start program (.inScope answers own opened task exit rest) slot

/-! ## What follows from the rules -/

/-- The slot after an observation was made. -/
def Observation.slotAfter (slot : Slot) : Observation → Slot
  | published _ after | .slot after | intercepted _ _ after => after
  | metrics _ => slot

/-- The slot after an answer was given.  No answer from inside a scope matters. -/
def Answer.slotAfter (slot : Slot) : Answer → Slot
  | observed observation => observation.slotAfter slot
  | yielded | ended .. | spawned _ | joined _ => slot

private theorem Action.Acts.slotAfter_eq {action : Action} {slot after : Slot}
    {observation : Observation} (acts : action.Acts slot observation after) :
    observation.slotAfter slot = after := by
  cases acts <;> rfl

private theorem Action.Acts.inScope_eq {action : Action} {slot after : Slot}
    {observation : Observation} (acts : action.Acts slot observation after) :
    after.inScope = slot.inScope := by
  cases acts <;> rfl

namespace Goes

variable {start slot : Slot} {program rest : List Step} {answers : List Answer}

/-- Only what is shown by the program itself, outside its scopes, decides its slot. -/
theorem slot_eq (goes : Goes start program answers rest slot) :
    slot = answers.foldl Answer.slotAfter start := by
  induction goes with
  | begun => rfl
  | acted before acts induction =>
      rw [List.foldl_append, ← induction, List.foldl_cons, List.foldl_nil, Answer.slotAfter,
        acts.slotAfter_eq]
  | yielded before induction =>
      rw [List.foldl_append, ← induction]
      rfl
  | ended before inside ends induction | dropped before inside suspended induction =>
      rw [List.foldl_append, ← induction]
      rfl

private theorem inScope_eq (goes : Goes start program answers rest slot) :
    slot.inScope = start.inScope := by
  induction goes with
  | begun => rfl
  | acted before acts induction => rw [acts.inScope_eq, induction]
  | yielded before induction => exact induction
  | ended before inside ends induction | dropped before inside suspended induction =>
      exact induction

private theorem areSequential (goes : Goes start program answers rest slot)
    (sequential : Step.areSequential program = true) : Step.areSequential rest = true := by
  induction goes with
  | begun => exact sequential
  | acted before acts induction => exact (Bool.and_eq_true_iff.mp (induction sequential)).2
  | yielded before induction => exact (Bool.and_eq_true_iff.mp (induction sequential)).2
  | ended before inside ends induction | dropped before inside suspended induction =>
      exact (Bool.and_eq_true_iff.mp (induction sequential)).2

private theorem areSequential_body {body : List Step} {exit : Exit}
    (goes : Goes start program answers (.scope body exit :: rest) slot)
    (sequential : Step.areSequential program = true) : Step.areSequential body = true :=
  (Bool.and_eq_true_iff.mp (goes.areSequential sequential)).1

private theorem areSequential_rest {step : Step}
    (goes : Goes start program answers (step :: rest) slot)
    (sequential : Step.areSequential program = true) : Step.areSequential rest = true :=
  (Bool.and_eq_true_iff.mp (goes.areSequential sequential)).2

/-- What comes behind a first action goes on from the slot that the action leaves. -/
theorem of_act {action : Action} (goes : Goes start (.act action :: program) answers rest slot) :
    (answers = [] ∧ rest = .act action :: program ∧ slot = start) ∨
      ∃ observation middle later, action.Acts start observation middle ∧
        answers = .observed observation :: later ∧ Goes middle program later rest slot := by
  generalize whole : Step.act action :: program = steps at goes
  induction goes with
  | begun => exact .inl ⟨rfl, rfl, rfl⟩
  | acted before acts induction =>
      subst whole
      rcases induction rfl with ⟨rfl, first, rfl⟩ | ⟨observation, middle, later, here, rfl, goes⟩
      · obtain ⟨same, rfl⟩ := List.cons.inj first
        cases same
        exact .inr ⟨_, _, [], acts, rfl, .begun _ _⟩
      · exact .inr ⟨observation, middle, _, here, rfl, goes.acted acts⟩
  | yielded before induction =>
      subst whole
      rcases induction rfl with ⟨_, first, _⟩ | ⟨observation, middle, later, here, rfl, goes⟩
      · cases first
      · exact .inr ⟨observation, middle, _, here, rfl, goes.yielded⟩
  | ended before inside ends induction =>
      subst whole
      rcases induction rfl with ⟨_, first, _⟩ | ⟨observation, middle, later, here, rfl, goes⟩
      · cases first
      · exact .inr ⟨observation, middle, _, here, rfl, goes.ended inside ends⟩
  | dropped before inside suspended induction =>
      subst whole
      rcases induction rfl with ⟨_, first, _⟩ | ⟨observation, middle, later, here, rfl, goes⟩
      · cases first
      · exact .inr ⟨observation, middle, _, here, rfl, goes.dropped inside suspended⟩

end Goes

/-! ## Tasks keep to the rules -/

private theorem Action.perform_acts (action : Action) (around : Surroundings) :
    action.Acts around.slot (action.perform around).1 (action.perform around).2.slot := by
  obtain ⟨slot, meters, now⟩ := around
  cases action with
  | publish context =>
      cases slot with
      | none => exact .notPublished context
      | some before => exact .published context before
  | clear =>
      cases slot with
      | none => exact .nothingCleared
      | some before => exact .cleared before
  | observe => exact .observed slot
  | intercept request =>
      cases slot with
      | none => exact .onlyIntercepted request
      | some before => exact .intercepted request before
  | readMetrics meter => exact .readMetrics meter _ slot

namespace Task

variable {start slot own : Slot} {program body rest : List Step} {answers : List Answer}
  {exit : Exit} {task : Task} {around after : Surroundings}

/-- A task that has not come to an end of its own can be dropped where it is. -/
theorem Stands.suspended (stands : Stands start program task slot)
    (goesOn : ∀ inner, task.answers? = some inner → exit.ends = false) :
    ∃ left own, Goes start program task.answers left own ∧ Suspended exit left := by
  cases stands with
  | finished goes => exact ⟨[], _, goes, .forever (goesOn _ rfl)⟩
  | yielding goes => exact ⟨_, _, goes, .yielding _⟩
  | inScope goes inside _ => exact ⟨_, _, goes, .inScope _ _ _⟩

/-- Whether a scope is over or not after a stay in its body, the task goes on by the rules,
with the slot around the scope back in its place. -/
theorem stands_of_afterBody {inner : Task × Surroundings}
    (goes : Goes start program answers (.scope body exit :: rest) around.slot)
    (inside : Stands Slot.fresh body inner.1 inner.2.slot)
    (continued : ∀ answers after, Goes start program answers rest after.slot →
      Stands start program (runSteps answers rest after).1 (runSteps answers rest after).2.slot)
    (opened : Nat) :
    Stands start program (afterBody answers opened exit rest around inner).1
      (afterBody answers opened exit rest around inner).2.slot := by
  unfold afterBody
  rcases scopeEnd?_cases opened inner.1 exit around.now with
    ⟨results, ended, ends, settled⟩ | ⟨goesOn, dropped | suspended⟩
  · rw [eq_finished_of_answers? ended] at inside
    cases inside with
    | finished goesInside =>
        rw [settled]
        exact continued _ _ (goes.ended goesInside ends)
  · obtain ⟨left, last, goesInside, suspended⟩ := inside.suspended goesOn
    rw [dropped]
    exact continued _ _ (goes.dropped goesInside suspended)
  · rw [suspended]
    exact .inScope goes inside goesOn

/-- Running on up to the next suspension keeps to the rules. -/
theorem runSteps_stands {start : Slot} {program : List Step} (answers : List Answer)
    (steps : List Step) (around : Surroundings)
    (sequential : Step.areSequential steps = true)
    (goes : Goes start program answers steps around.slot) :
    Stands start program (runSteps answers steps around).1
      (runSteps answers steps around).2.slot := by
  cases steps with
  | nil =>
      rw [runSteps]
      exact .finished goes
  | cons step rest =>
      obtain ⟨here, later⟩ := Bool.and_eq_true_iff.mp sequential
      cases step with
      | act action =>
          rw [runSteps]
          exact runSteps_stands _ rest _ later (goes.acted (action.perform_acts around))
      | yield =>
          rw [runSteps]
          exact .yielding goes
      | scope body exit =>
          have inside := runSteps_stands [] body { around with slot := Slot.fresh } here
            (.begun Slot.fresh body)
          rw [runSteps_scope]
          exact stands_of_afterBody goes inside
            (fun answers after continued => runSteps_stands answers rest after later continued) _
      | spawn body => cases here
      | join bodies => cases here

variable {slot : Slot}

theorem Stands.poll (stands : Stands start program task slot)
    (sequential : Step.areSequential program = true) (around : Surroundings)
    (same : around.slot = slot) :
    Stands start program (task.poll around).1 (task.poll around).2.slot := by
  induction stands generalizing around with
  | finished goes =>
      rw [Task.poll, same]
      exact .finished goes
  | yielding goes =>
      subst same
      rw [Task.poll]
      have later := goes.areSequential_rest sequential
      exact runSteps_stands _ _ around later goes.yielded
  | inScope goes inside goesOn induction =>
      subst same
      have later := goes.areSequential_rest sequential
      rw [poll_inScope]
      exact stands_of_afterBody goes (induction (goes.areSequential_body sequential) _ rfl)
        (fun answers after continued => runSteps_stands answers _ after later continued) _

theorem Stands.abandon (stands : Stands start program task slot)
    (sequential : Step.areSequential program = true) (depth : Nat) (around : Surroundings)
    (same : around.slot = slot) :
    Stands start program (task.abandon depth around).1 (task.abandon depth around).2.slot := by
  induction stands generalizing depth around with
  | finished goes =>
      rw [Task.abandon, same]
      exact .finished goes
  | yielding goes =>
      rw [Task.abandon, same]
      exact .yielding goes
  | inScope goes inside goesOn induction =>
      subst same
      have later := goes.areSequential_rest sequential
      cases depth with
      | zero =>
          obtain ⟨left, last, goesInside, suspended⟩ := inside.suspended goesOn
          rw [Task.abandon]
          exact runSteps_stands _ _ around later (goes.dropped goesInside suspended)
      | succ depth =>
          rw [abandon_inScope_succ]
          exact stands_of_afterBody goes
            (induction (goes.areSequential_body sequential) depth _ rfl)
            (fun answers after continued => runSteps_stands answers _ after later continued) _

/-- A program on its way: it waits for its first poll, or has begun. -/
inductive OnItsWay (start : Slot) (program : List Step) : Task → Slot → Prop
  | waiting : OnItsWay start program (.ready program) start
  | begun {task : Task} {slot : Slot} (stands : Stands start program task slot) :
      OnItsWay start program task slot

theorem OnItsWay.visit (onItsWay : OnItsWay start program task slot)
    (sequential : Step.areSequential program = true) (next : Visit) (around : Surroundings)
    (same : around.slot = slot) :
    OnItsWay start program (task.visit next around).1 (task.visit next around).2.slot := by
  unfold Task.visit
  cases onItsWay with
  | waiting =>
      split
      · rw [Task.poll]
        exact .begun (runSteps_stands [] program _ sequential (same ▸ .begun around.slot program))
      · rw [Task.abandon, same]
        exact .waiting
  | begun stands =>
      split
      · exact .begun (stands.poll sequential _ same)
      · exact .begun (stands.abandon sequential _ _ same)

theorem OnItsWay.visitAll (onItsWay : OnItsWay start program task slot)
    (sequential : Step.areSequential program = true) (visits : List Visit)
    (around : Surroundings) (same : around.slot = slot) :
    OnItsWay start program (task.visitAll visits around).1
      (task.visitAll visits around).2.slot := by
  induction visits generalizing task slot around with
  | nil => exact same ▸ onItsWay
  | cons next visits induction =>
      exact induction (onItsWay.visit sequential next around same) _ rfl

/-- The slot around a task is what the answers of the program itself say, wherever it stands. -/
theorem OnItsWay.slot_eq (onItsWay : OnItsWay start program task slot) :
    slot = task.answers.foldl Answer.slotAfter start := by
  cases onItsWay with
  | waiting => rfl
  | begun stands =>
      cases stands with
      | finished goes | yielding goes => exact goes.slot_eq
      | inScope goes inside goesOn => exact goes.slot_eq

private theorem OnItsWay.inScope_eq (onItsWay : OnItsWay start program task slot) :
    slot.inScope = start.inScope := by
  cases onItsWay with
  | waiting => rfl
  | begun stands =>
      cases stands with
      | finished goes | yielding goes => exact goes.inScope_eq
      | inScope goes inside goesOn => exact goes.inScope_eq

end Task

/-- Inside the scope of a request its context is the current one when the body begins. -/
theorem Goes.of_handling {request : Request} {body left : List Step} {exit : Exit}
    {inner : List Answer} {own : Slot}
    (goes : Goes Slot.fresh (Step.handling request body exit) inner left own) :
    inner = [] ∨ ∃ downstream,
      inner = .observed (.intercepted request.context true (some (some request.context)))
        :: downstream ∧
      Goes (some (some request.context)) (body ++ if exit.completes then [.act .clear] else [])
        downstream left own := by
  rcases goes.of_act with ⟨nothing, _⟩ | ⟨observation, middle, later, acts, rfl, goesOn⟩
  · exact .inl nothing
  · cases acts
    exact .inr ⟨later, rfl, goesOn⟩

namespace Sample

/-- A program that publishes outside every scope, and inside one that is left by a panic;
there a request is handled downstream, where the context is cleared. -/
def nested : List Step := [
  .act (.publish (contextFrom "a")),
  .scope [.act (.publish (contextFrom "a")),
    .handle (requestFrom "b") [.act .clear, .yield, .act (.publish (contextFrom "c"))] .ok,
    .act .observe] .panic,
  .act .observe]

/-- The answers if the handler is dropped where it yields. -/
def nestedAnswers : List Answer := [
  .observed (.published (.error .noActiveScope) Slot.outside),
  .ended [.observed (.published (.ok ()) (some (some (contextFrom "a")))),
    .ended [.observed (.intercepted (contextFrom "b") true (some (some (contextFrom "b")))),
      .observed (.slot Slot.fresh)] .cancel,
    .observed (.slot (some (some (contextFrom "a"))))] .panic,
  .observed (.slot Slot.outside)]

end Sample

namespace Task

/-- However a task is polled, and wherever its scopes are dropped, it keeps to the rules, and
what happened inside its scopes does not show in the slot around it.  Nothing can be published
where no scope is open, and the body that handles a request begins with its context. -/
theorem scopes_leave_no_trace {program : List Step}
    (sequential : Step.areSequential program = true) (around : Surroundings)
    (visits : List Visit) {task : Task} {after : Surroundings}
    (left : (Task.ready program).visitAll visits around = (task, after)) :
    OnItsWay around.slot program task after.slot ∧
    after.slot = task.answers.foldl Answer.slotAfter around.slot ∧
    after.slot.inScope = around.slot.inScope ∧
    (∀ context, around.slot = Slot.outside → (Action.publish context).perform around =
      (.published (.error .noActiveScope) Slot.outside, around)) ∧
    ∀ request body exit steps inner rest own,
      Step.handle request body exit = .scope steps exit → Goes Slot.fresh steps inner rest own →
        inner = [] ∨ ∃ downstream,
          inner = .observed (.intercepted request.context true
            (some (some request.context))) :: downstream ∧
          Goes (some (some request.context))
            (body ++ if exit.completes then [.act .clear] else []) downstream rest own := by
  have onItsWay : OnItsWay around.slot program task after.slot := by
    have visited := OnItsWay.waiting.visitAll sequential visits around rfl
    rwa [left] at visited
  refine ⟨onItsWay, onItsWay.slot_eq, onItsWay.inScope_eq, ?_, ?_⟩
  · intro context outside
    rw [Action.perform, outside]
    rfl
  · intro request body exit steps inner rest own handled goes
    rw [Step.handle_eq] at handled
    obtain ⟨rfl, _⟩ := Step.scope.inj handled
    exact goes.of_handling

theorem scopes_leave_no_trace_of_nested :
    Step.areSequential Sample.nested = true ∧
    ∃ after, (Task.ready Sample.nested).visitAll [{}, { dropped := some 1 }]
        ⟨Slot.outside, [], 0⟩ = (.finished Sample.nestedAnswers, after) ∧
      OnItsWay Slot.outside Sample.nested (.finished Sample.nestedAnswers) after.slot ∧
      after.slot = Slot.outside := by
  have sequential : Step.areSequential Sample.nested = true := rfl
  have left : (Task.ready Sample.nested).visitAll [{}, { dropped := some 1 }]
      ⟨Slot.outside, [], 0⟩ = (.finished Sample.nestedAnswers, ⟨Slot.outside, [], 0⟩) := by
    cbv
  obtain ⟨onItsWay, slot, _⟩ := scopes_leave_no_trace sequential _ _ left
  exact ⟨sequential, _, left, onItsWay, slot⟩

end Task

end GridSecurity
