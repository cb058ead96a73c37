import WorkQueue.Proofs.Consumer.Custody
import WorkQueue.Proofs.Gate.Wakeup

/-! # The consumer at its gate

A consumer is a crowd of one: it calls at the gate, holds a permit as long as an iteration lasts,
and gives it back at the end. Each event of a run is a few moves of that crowd, and so whatever
holds of every crowd holds of the gate of every consumer.
-/
namespace WorkQueue
variable {ι σ : Type} {setup : ConsumerSetup ι σ}

/-- Whether the consumer is inside an iteration: it receives, or handles what it has received. -/
def Stage.inIteration : Stage → Bool
  | .receiving _ => true
  | .handling _ _ _ => true
  | _ => false

theorem stageAfter_inIteration (setup : ConsumerSetup ι σ) (now : Instant)
    (result : Except Failure IterationEnd) :
    (stageAfter setup now result).inIteration = false := by
  cases result with
  | ok e => cases e <;> rfl
  | error failure => cases hc : failure.isCancellation <;> simp [stageAfter, hc, Stage.inIteration]

theorem Verdict.onward_inIteration (v : Verdict) : v.onward.inIteration = false := by
  cases v <;> rfl

namespace Consumer
variable {c : Consumer} {s : Surroundings σ} {d : Delivery}

/-- The crowd that a consumer alone makes up. -/
def crowd (c : Consumer) : Crowd Unit :=
  { gate := c.gate, permits := if c.stage.inIteration then [()] else [] }

theorem crowd_released (h : c.stage.inIteration = true) {stage : Stage}
    (outside : stage.inIteration = false) :
    ({ c with gate := c.gate.release.1, stage := stage } : Consumer).crowd =
      c.crowd.step (.release ()) := by
  simp [crowd, h, outside, Crowd.step]

theorem crowd_answered {c' : Consumer} (h : c.stage.inIteration = false) {gate : Gate Unit}
    {answer : Answer} (polled : c.gate.poll () c.cancelled = (gate, answer))
    (hg : c'.gate = gate) (hs : c'.stage.inIteration = (answer == .granted)) :
    c'.crowd = c.crowd.step (.poll () c.cancelled) := by
  cases answer <;> simp [crowd, h, hg, hs, Crowd.step, Crowd.answer, polled]

/-- Going on with a delivery keeps the permit, or ends the iteration and drops it. -/
theorem follow_crowd (setup : ConsumerSetup ι σ) (d : Delivery) (run : AttemptRun σ)
    (h : c.stage.inIteration = true) :
    (c.follow setup d run).consumer.crowd = c.crowd ∨
      (c.follow setup d run).consumer.crowd = c.crowd.step (.release ()) := by
  cases he : run.progress with
  | suspended item wait =>
    left
    have hhandling : (Stage.handling d item wait).inIteration = true := rfl
    rw [follow_suspended he]
    simp only [crowd, h, hhandling]
  | ended ending =>
    right
    rw [follow_ended he]
    cases hv : (ending.verdict setup.options.maxAttempts d.attempt).deletes with
    | false =>
      obtain ⟨-, -, hc⟩ := close_of_keeps (c := c) (s := run.surroundings) hv
      simp only [Turn.after, hc]
      exact crowd_released h (Verdict.onward_inIteration _)
    | true =>
      obtain ⟨-, -, hc⟩ := close_of_deletes (c := c) (s := run.surroundings) hv
      simp only [Turn.after, hc]
      exact crowd_released h (stageAfter_inIteration setup _ _)

theorem finish_crowd (h : c.stage.inIteration = true) (result : Except Failure IterationEnd) :
    (c.finish setup s result).consumer.crowd = c.crowd.step (.release ()) := by
  rw [finish_consumer]
  exact crowd_released h (stageAfter_inIteration setup _ _)

theorem receive_crowd (setup : ConsumerSetup ι σ) (s : Surroundings σ)
    (h : c.stage.inIteration = true) :
    (c.receive setup s).consumer.crowd = c.crowd ∨
      (c.receive setup s).consumer.crowd = c.crowd.step (.release ()) := by
  unfold receive
  dsimp only [Turn.after]
  split
  · exact .inr (finish_crowd h _)
  · exact .inr (finish_crowd h _)
  · exact follow_crowd setup _ _ h

/-- A step of the consumer is at most one move of its crowd, a call at the gate or the end of an
iteration. -/
theorem step_crowd (setup : ConsumerSetup ι σ) (c : Consumer) (s : Surroundings σ) :
    (c.step setup s).consumer.crowd = c.crowd ∨
      (c.step setup s).consumer.crowd = c.crowd.step (.poll () c.cancelled) ∨
      (c.step setup s).consumer.crowd = c.crowd.step (.release ()) := by
  refine step_induction setup c s fun t hcourse => ?_
  cases hcourse with
  | ended at_ => exact .inl rfl
  | waiting at_ polled =>
    exact .inr (.inl (crowd_answered (by rw [at_]; rfl) polled rfl (by rw [at_]; rfl)))
  | refused at_ polled =>
    exact .inr (.inl (crowd_answered (by rw [at_]; rfl) polled rfl rfl))
  | granted at_ polled =>
    exact .inr (.inl (crowd_answered (by rw [at_]; rfl) polled rfl rfl))
  | interrupted at_ token => exact .inr (.inr (finish_crowd (by rw [at_]; rfl) _))
  | receiving at_ token early => exact .inl rfl
  | received at_ token due =>
    rcases receive_crowd (c := c) setup s (by rw [at_]; rfl) with h | h
    · exact .inl h
    · exact .inr (.inr h)
  | handled at_ =>
    rcases follow_crowd (c := c) setup _ _ (by rw [at_]; rfl) with h | h
    · exact .inl h
    · exact .inr (.inr h)
  | left at_ token =>
    left
    simp [conclude, crowd, at_, Stage.inIteration]
  | pausing at_ token early => exact .inl rfl
  | awakened at_ token due =>
    left
    simp [crowd, at_, Stage.inIteration]

/-- The gate is in flight exactly while the consumer is inside an iteration. -/
theorem inFlight_eq_inIteration (h : c.crowd.Exclusive) :
    c.gate.inFlight = c.stage.inIteration := by
  have counted : c.crowd.permits.length = if c.gate.inFlight then 1 else 0 := h.counted
  cases hi : c.stage.inIteration <;> cases hf : c.gate.inFlight <;>
    simp [crowd, hi, hf] at counted <;> rfl

/-- A consumer that stands at the gate of a working processor can go on, and passes unless it has
been cancelled. -/
theorem passes_working_gate (s : Surroundings σ) (hx : c.crowd.Exclusive) (ha : c.crowd.Armed)
    (at_ : c.stage = .atGate) (working : c.gate.state = .working) :
    c.isReady s = true ∧
    (c.cancelled = false → ∃ ready, (c.step setup s).consumer.stage = .receiving ready) := by
  have ho : c.gate.isOpen = true := by
    refine Gate.isOpen_iff.mpr ⟨working, (inFlight_eq_inIteration hx).trans ?_⟩
    rw [at_]
    rfl
  have hwake : () ∈ c.gate.woken ∨ c.gate.stored = true ∧ c.gate.waiting = [] := by
    rcases ha.onTheWay ho with hs | ⟨⟨⟩, hi | hi⟩
    · exact .inr ⟨hs, ha.idle hs⟩
    · exact .inl hi
    · cases hi
  refine ⟨?_, fun token => ?_⟩
  · rcases hwake with hi | ⟨-, hwaiting⟩
    · simp [isReady, at_, hi]
    · simp [isReady, at_, hwaiting]
  · have hgranted := Gate.poll_granted ho hwake
    cases hp : c.gate.poll () false with
    | mk gate answer =>
      rw [hp] at hgranted
      cases hgranted
      refine ⟨s.now.running + setup.receiveTime.toNanos, ?_⟩
      simp only [step, at_, token, hp, beginReceive]

end Consumer

namespace Chronicle
variable {r : Chronicle σ} {event : Event}

def crowd (r : Chronicle σ) : Crowd Unit := r.site.consumer.crowd

/-- An event is at most one move of the crowd, and only commands start and stop it. -/
theorem next_crowd (setup : ConsumerSetup ι σ) (r : Chronicle σ) (event : Event) :
    (r.next setup event).crowd = r.crowd ∨ ∃ move, (r.next setup event).crowd = r.crowd.step move ∧
      (move = .start → event = .command .start) ∧ (move = .stop → event = .command .stop) := by
  cases event with
  | step =>
    rcases Consumer.step_crowd setup r.site.consumer r.site.surroundings with h | h | h
    · exact .inl h
    · exact .inr ⟨_, h, nofun, nofun⟩
    · exact .inr ⟨_, h, nofun, nofun⟩
  | command command =>
    cases command with
    | start => exact .inr ⟨.start, rfl, fun _ => rfl, nofun⟩
    | stop => exact .inr ⟨.stop, rfl, nofun, fun _ => rfl⟩
    | _ => exact .inl rfl
  | tick span => exact .inl rfl
  | foreign call => exact .inl rfl

/-- What every event preserves holds after every run. -/
theorem invariant_run (setup : ConsumerSetup ι σ) (r : Chronicle σ) (events : List Event)
    (invariant : Chronicle σ → Prop) (holds : invariant r)
    (preserved : ∀ event ∈ events, ∀ r, invariant r → invariant (r.next setup event)) :
    invariant (r.run setup events) := by
  induction events generalizing r with
  | nil => exact holds
  | cons event rest ih =>
    exact ih (r.next setup event) (preserved event List.mem_cons_self r holds)
      fun e hm => preserved e (List.mem_cons_of_mem _ hm)

/-- What every move of a crowd preserves holds at the gate of a consumer after every run. -/
theorem crowd_invariant (setup : ConsumerSetup ι σ) (r : Chronicle σ) (events : List Event)
    (invariant : Crowd Unit → Prop) (holds : invariant r.crowd)
    (preserved : ∀ c move, invariant c → invariant (c.step move)) :
    invariant (r.run setup events).crowd := by
  refine invariant_run setup r events (fun r => invariant r.crowd) holds ?_
  intro event _ r hr
  rcases next_crowd setup r event with h | ⟨move, h, -, -⟩
  · exact h ▸ hr
  · exact h ▸ preserved r.crowd move hr

section
variable (setup : ConsumerSetup ι σ) (workOnStartup createQueue : Bool) (plan : FaultPlan)
  (ofDay : Instant) (handlers : σ) (events : List Event)

theorem crowd_exclusive :
    ((opening setup workOnStartup createQueue plan ofDay handlers).run setup
      events).crowd.Exclusive :=
  crowd_invariant setup _ events Crowd.Exclusive (Crowd.exclusive_gather workOnStartup)
    fun _ move h => h.step move

theorem crowd_armed :
    ((opening setup workOnStartup createQueue plan ofDay handlers).run setup
      events).crowd.Armed :=
  crowd_invariant setup _ events Crowd.Armed (Crowd.armed_gather workOnStartup)
    fun _ move h => h.step move

/-- After any run of moves the gate of a working processor without a permit out has a wake-up
stored, or a call that can run holds one. So once no call can run, nobody waits there, and the
only call that can run, or one that comes while none can, gets the permit. A consumer that stands
at the gate of a working processor can go on, and passes unless it has been cancelled. -/
theorem wakeup_never_lost {κ : Type} [DecidableEq κ] (moves : List (Move κ)) :
    let c := (Crowd.gather workOnStartup : Crowd κ).run moves
    let site := ((opening setup workOnStartup createQueue plan ofDay handlers).run setup events).site
    (c.gate.state = .working → c.permits = [] → c.gate.stored = true ∨ ∃ i, c.Runnable i) ∧
    ((∀ i, ¬ c.Runnable i) →
      c.gate.state ≠ .working ∨ c.permits ≠ [] ∨ c.gate.waiting = []) ∧
    (c.gate.state = .working → c.permits = [] → ∀ i, (∀ j, c.Runnable j → j = i) →
      i ∈ (c.step (.look i)).permits ∨ i ∈ (c.step (.poll i false)).permits) ∧
    (site.consumer.stage = .atGate → site.consumer.gate.state = .working →
      site.consumer.isReady site.surroundings = true ∧
      (site.consumer.cancelled = false → ∃ ready,
        (site.consumer.step setup site.surroundings).consumer.stage = .receiving ready)) := by
  intro c site
  have harmed : c.Armed := (Crowd.armed_gather workOnStartup).run moves
  have hexclusive : c.Exclusive := (Crowd.exclusive_gather workOnStartup).run moves
  refine ⟨fun hw hp => ?_, fun settled => ?_, fun hw hp i alone => ?_, ?_⟩
  · exact harmed.onTheWay (hexclusive.isOpen hw hp)
  · by_cases hw : c.gate.state = .working
    · by_cases hp : c.permits = []
      · exact .inr (.inr (harmed.nobody_waits (hexclusive.isOpen hw hp) settled))
      · exact .inr (.inl hp)
    · exact .inl hw
  · exact harmed.granted (hexclusive.isOpen hw hp) alone
  · exact Consumer.passes_working_gate site.surroundings
      (crowd_exclusive setup workOnStartup createQueue plan ofDay handlers events)
      (crowd_armed setup workOnStartup createQueue plan ofDay handlers events)

end
end Chronicle
end WorkQueue
