import WorkQueue.Handler
import WorkQueue.Queue.Unreliable

/-! # The consumer loop

A consumer passes the gate, receives one message, has it handled, acknowledges it or leaves
it for another delivery, and gives the permit back. After an empty queue or a failed
iteration it pauses. A step takes it from one point where it may have to wait to the next;
whatever is cancelled there is noticed before anything else.
-/
namespace WorkQueue

structure ConsumerOptions where
  queue : String
  pollInterval : Duration := .ofSeconds 10
  invisibility : Duration := .ofSeconds 60
  maxAttempts : Nat := 3

/-- What a consumer needs and never changes. -/
structure ConsumerSetup (ι σ : Type) where
  options : ConsumerOptions
  replica : String
  registry : Registry ι
  handler : Handler ι σ
  receiveTime : Duration := .zero

/-- What a consumer finds around it: the clock, the queue, the memory of the handlers, and
whether a permit lies ready for a handler that waits for one. -/
structure Surroundings (σ : Type) where
  now : Moment
  queue : UnreliableQueue
  handlers : σ
  released : Bool := false

inductive Stage
  | atGate
  | receiving (ready : Instant)
  | handling (delivery : Delivery) (item : WorkItem) (wait : Suspension)
  | pausing (until_ : Instant)
  | ended

structure Consumer where
  gate : Gate Unit
  stage : Stage := .atGate
  cancelled : Bool := false

/-- How an attempt at a delivered message ended: its body is no work item, or its dispatch came
to a result. -/
inductive Ending
  | malformed (failure : Failure)
  | dispatched (item : WorkItem) (result : Except Failure Unit)

inductive Verdict
  | acknowledge
  | leave
  | discard (reason : Eviction)
  | abandon
  deriving DecidableEq, Repr

/-- What becomes of a message whose dispatch came to a result. -/
def verdict (maxAttempts attempt : Nat) : Except Failure Unit → Verdict
  | .ok _ => .acknowledge
  | .error failure =>
    if failure.isCancellation then .abandon
    else if !failure.isRetriable then .discard .nonRetriable
    else if maxAttempts ≤ attempt then .discard .maxAttempts
    else .leave

/-- How an attempt stands when it can go no further at present. -/
inductive AttemptProgress
  | ended (ending : Ending)
  | suspended (item : WorkItem) (wait : Suspension)

/-- An attempt after it has run, its surroundings then, and what was reported. -/
structure AttemptRun (σ : Type) where
  progress : AttemptProgress
  surroundings : Surroundings σ
  notices : List Notice := []

/-- The run with notices put before its own. -/
def AttemptRun.after (notices : List Notice) (r : AttemptRun σ) : AttemptRun σ :=
  { r with notices := notices ++ r.notices }

inductive IterationEnd
  | processed
  | queueEmpty
  deriving DecidableEq, Repr

/-- A consumer and its surroundings after a step, and what the step reported. -/
structure Turn (σ : Type) where
  consumer : Consumer
  surroundings : Surroundings σ
  notices : List Notice := []

/-- The turn with notices put before its own. -/
def Turn.after (notices : List Notice) (t : Turn σ) : Turn σ :=
  { t with notices := notices ++ t.notices }

namespace Consumer
variable (setup : ConsumerSetup ι σ)

/-- A consumer in front of its gate. -/
def start (workOnStartup : Bool) : Consumer := { gate := Gate.new Unit workOnStartup }

/-- What a consumer reports when it starts. -/
def opening : List Notice :=
  [.consumerStarted setup.options.queue setup.replica setup.registry.workItemTypes]

def isStopped (c : Consumer) : Bool :=
  match c.stage with
  | .ended => true
  | _ => false

def conclude (c : Consumer) (s : Surroundings σ) : Turn σ :=
  ⟨{ c with stage := .ended }, s, [.consumerStopped setup.options.queue]⟩

def pause (c : Consumer) (s : Surroundings σ) (why : Notice) : Turn σ :=
  ⟨{ c with stage := .pausing (s.now.running + setup.options.pollInterval.toNanos) }, s, [why]⟩

/-- Gives the permit back and goes on as the end of the iteration says. -/
def finish (c : Consumer) (s : Surroundings σ) (result : Except Failure IterationEnd) : Turn σ :=
  let (gate, changes) := c.gate.release
  let c := { c with gate := gate }
  Turn.after (changes.map (GateNotice.toNotice setup.replica)) <|
    match result with
    | .ok .processed => ⟨{ c with stage := .atGate }, s, []⟩
    | .ok .queueEmpty =>
      c.pause setup s (.queueEmpty setup.options.queue setup.options.pollInterval)
    | .error failure =>
      if failure.isCancellation then c.conclude setup s
      else c.pause setup s (.iterationFailed failure)

/-- Deletes the message in hand and finishes the iteration. -/
def acknowledge (c : Consumer) (s : Surroundings σ) (d : Delivery) : Turn σ :=
  let (queue, answer) := s.queue.delete setup.options.queue d.id
  Turn.after [.deleted d.id answer] <|
    c.finish setup { s with queue := queue } (answer.map fun _ => .processed)

def failures (d : Delivery) : Except Failure Unit → List Notice
  | .ok _ => []
  | .error failure => [.attemptFailed d.attempt setup.options.maxAttempts failure]

/-- Judges an attempt and finishes the iteration. -/
def judge (c : Consumer) (s : Surroundings σ) (d : Delivery) (item : WorkItem)
    (result : Except Failure Unit) : Turn σ :=
  match verdict setup.options.maxAttempts d.attempt result with
  | .acknowledge => Turn.after [.attemptEnded .succeeded] (c.acknowledge setup s d)
  | .abandon =>
    Turn.after [.attemptEnded .cancelled, .attemptCancelled]
      (c.finish setup s (.error .cancelled))
  | .leave =>
    Turn.after (failures setup d result ++ [.attemptEnded .retry])
      (c.finish setup s (.ok .processed))
  | .discard reason =>
    Turn.after (failures setup d result ++ [.attemptEnded .evicted, .discarding reason d.body,
      .evicted item.workItemType reason]) (c.acknowledge setup s d)

/-- Disposes of the message in hand as its attempt ended. -/
def close (c : Consumer) (s : Surroundings σ) (d : Delivery) : Ending → Turn σ
  | .malformed failure =>
    Turn.after [.bodyRefused d.id failure d.body, .evicted "unknown" .malformed]
      (c.acknowledge setup s d)
  | .dispatched item result => c.judge setup s d item result

/-- An attempt after its handler has run. One that has ended is measured. -/
def afterRun (s : Surroundings σ) (item : WorkItem) (run : ActivityRun) : AttemptRun σ :=
  let s := { s with released := run.released }
  AttemptRun.after (run.reports.map Report.toNotice) <|
    match run.progress with
    | .ended result =>
      ⟨.ended (.dispatched item result), s, [.attemptMeasured item.workItemType result.isOk]⟩
    | .suspended wait => ⟨.suspended item wait, s, []⟩

def dispatch (c : Consumer) (s : Surroundings σ) (d : Delivery) (item : WorkItem) :
    AttemptRun σ :=
  AttemptRun.after
      [.attemptOpened item.workItemType item.id d.attempt, .attemptStarted d.attempt d.id] <|
    match setup.registry.resolve item.workItemType with
    | .error failure => ⟨.ended (.dispatched item (.error failure)), s, []⟩
    | .ok registration =>
      let (handlers, activity) := setup.handler.activity registration item s.handlers
      AttemptRun.after [.handlerBuilt item.workItemType,
          .handlerResolved item.id item.workItemType] <|
        afterRun { s with handlers := handlers } item
          (activity.run s.now.running c.cancelled s.released)

def attempt (c : Consumer) (s : Surroundings σ) (d : Delivery) : AttemptRun σ :=
  match WorkItem.parse d.body with
  | .error failure => ⟨.ended (.malformed failure), s, []⟩
  | .ok item => c.dispatch setup s d item

/-- Goes on with an attempt whose handler waits. A cancelled one ends where it stands. -/
def resume (c : Consumer) (s : Surroundings σ) (item : WorkItem) (wait : Suspension) :
    AttemptRun σ :=
  if c.cancelled then
    ⟨.ended (.dispatched item (.error .cancelled)), s,
      [.attemptMeasured item.workItemType false]⟩
  else afterRun s item (wait.resume s.now.running false s.released)

/-- Goes on with a delivery as far as its attempt has come. -/
def follow (c : Consumer) (d : Delivery) (run : AttemptRun σ) : Turn σ :=
  Turn.after run.notices <|
    match run.progress with
    | .ended ending => c.close setup run.surroundings d ending
    | .suspended item wait => ⟨{ c with stage := .handling d item wait }, run.surroundings, []⟩

def receive (c : Consumer) (s : Surroundings σ) : Turn σ :=
  let (queue, answer) := s.queue.receive s.now setup.options.queue setup.options.invisibility
  let s := { s with queue := queue }
  Turn.after [.received answer] <|
    match answer with
    | .error failure => c.finish setup s (.error failure)
    | .ok none => c.finish setup s (.ok .queueEmpty)
    | .ok (some d) => c.follow setup d (c.attempt setup s d)

def beginReceive (c : Consumer) (s : Surroundings σ) : Turn σ :=
  ⟨{ c with stage := .receiving (s.now.running + setup.receiveTime.toNanos) }, s,
    if setup.receiveTime.isZero then [] else [.receiving]⟩

/-- One step. A consumer that cannot go on stays as it is. -/
def step (c : Consumer) (s : Surroundings σ) : Turn σ :=
  match c.stage with
  | .atGate =>
    let (gate, answer) := c.gate.poll () c.cancelled
    let c := { c with gate := gate }
    match answer with
    | .pending => ⟨c, s, []⟩
    | .refused => c.conclude setup s
    | .granted => c.beginReceive setup s
  | .receiving ready =>
    if c.cancelled then c.finish setup s (.error .cancelled)
    else if ready ≤ s.now.running then c.receive setup s
    else ⟨c, s, []⟩
  | .handling d item wait => c.follow setup d (c.resume s item wait)
  | .pausing until_ =>
    if c.cancelled then c.conclude setup s
    else if until_ ≤ s.now.running then ⟨{ c with stage := .atGate }, s, []⟩
    else ⟨c, s, []⟩
  | .ended => ⟨c, s, []⟩

/-- Whether a step would take the consumer on. -/
def isReady (c : Consumer) (s : Surroundings σ) : Bool :=
  match c.stage with
  | .atGate => c.cancelled || () ∈ c.gate.woken || !(() ∈ c.gate.waiting)
  | .receiving ready => c.cancelled || ready ≤ s.now.running
  | .handling _ _ wait => c.cancelled || wait.isReady s.now.running false s.released
  | .pausing until_ => c.cancelled || until_ ≤ s.now.running
  | .ended => false

/-- When the consumer can go on by the passing of time alone. -/
def deadline? (c : Consumer) : Option Instant :=
  match c.stage with
  | .receiving ready => some ready
  | .handling _ _ wait => wait.deadline?
  | .pausing until_ => some until_
  | _ => none

/-- What a consumer reports that is taken down where it stands. A running attempt counts as
failed and the permit is given back. -/
def takeDown (c : Consumer) : List Notice :=
  let released := c.gate.release.2.map (GateNotice.toNotice setup.replica)
  match c.stage with
  | .receiving _ => released
  | .handling _ item _ => .attemptMeasured item.workItemType false :: released
  | _ => []

end Consumer
end WorkQueue
