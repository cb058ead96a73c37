import WorkQueue.Proofs.Gate.Exclusion
import WorkQueue.Replica.Recording

/-! # The last state is recorded

What a recorder has seen is never ahead of the channel, and what it has not seen is still to come.
So its attempts follow the history of the gate, and when nothing is left to be done the last of
them was the state of the gate.
-/
namespace WorkQueue
variable {ι : Type}

namespace Gate
variable (g : Gate ι)

theorem getLast?_start :
    (g.state :: g.start.2.filterMap GateNotice.entered?).getLast? = some g.start.1.state := by
  unfold start
  cases h : g.state with
  | stopped => simp [GateNotice.entered?]
  | stopping =>
    simp only [h]
    rfl
  | working => simp [h]

theorem getLast?_finishAndStop :
    (g.state :: g.finishAndStop.2.filterMap GateNotice.entered?).getLast? =
      some g.finishAndStop.1.state := by
  unfold finishAndStop
  cases h : g.state with
  | working => cases g.inFlight <;> simp [GateNotice.entered?]
  | stopping => simp [h]
  | stopped => simp [h]

theorem getLast?_release :
    (g.state :: g.release.2.filterMap GateNotice.entered?).getLast? = some g.release.1.state := by
  unfold release
  cases h : g.state <;> simp [GateNotice.entered?]

end Gate

/-- The states that a move leads through end with the state that it leads to. -/
theorem Crowd.getLast?_entered [DecidableEq ι] (c : Crowd ι) (move : Move ι) :
    (c.gate.state :: c.entered move).getLast? = some (c.step move).gate.state := by
  cases move with
  | start => exact c.gate.getLast?_start
  | stop => exact c.gate.getLast?_finishAndStop
  | release i =>
    by_cases permitted : i ∈ c.permits
    · simpa [entered, notices, step, permitted] using c.gate.getLast?_release
    · simp [entered, notices, step, permitted]
  | poll i cancelled =>
    have answered := (c.gate.answered_poll i cancelled).1
    by_cases looking : i ∈ c.looking <;>
      simp [entered, notices, step, looking, Crowd.answer, answered]
  | hear i =>
    by_cases looking : i ∈ c.looking
    · simp [entered, notices, step, looking]
    · cases heard : c.gate.hear? i with
      | none => simp [entered, notices, step, looking, heard]
      | some g => simp [entered, notices, step, looking, heard, (Gate.hear?_keeps heard).1]
  | look i =>
    have answered := c.gate.answered_look.1
    by_cases looking : i ∈ c.looking <;>
      simp [entered, notices, step, looking, Crowd.answer, answered]
  | abort i => by_cases looking : i ∈ c.looking <;> simp [entered, notices, step, looking]

namespace Recording
variable {s : Recording ι} {recorder after : Recorder} {before : List ProcessorState}

/-- The version of the channel that a recorder has seen. -/
def seen? : Recorder → Option Nat
  | .writing seen => some seen.version
  | .waiting version => some version
  | _ => none

/-- What a recorder does when it goes on: it stays where it is, ends, or begins to write. -/
theorem resume_cases {sent : Channel} {cancelled : Bool}
    (h : recorder.resume sent cancelled = after) :
    (after = recorder ∧ begun recorder after = []) ∨
    (after = .ended ∧ begun recorder after = [] ∧ ∃ version, recorder = .waiting version) ∨
    (after = .writing sent ∧ begun recorder after = [{ state := sent.state }] ∧
      (recorder = .fresh ∨ ∃ version, recorder = .waiting version ∧ version ≠ sent.version)) := by
  subst h
  cases recorder with
  | fresh => exact .inr (.inr ⟨rfl, rfl, .inl rfl⟩)
  | writing seen => exact .inl ⟨rfl, rfl⟩
  | waiting version =>
    by_cases fired : cancelled = true
    · simp [Recorder.resume, fired, begun]
    · by_cases seen : version = sent.version
      · simp [Recorder.resume, fired, seen, begun]
      · simp [Recorder.resume, fired, seen, begun]
  | ended => exact .inl ⟨rfl, rfl⟩

theorem begun_eq (before after : Recorder) :
    begun before after = [] ∨ ∃ state, begun before after = [{ state := state }] := by
  unfold begun
  split
  · exact .inl rfl
  · next seen _ => exact .inr ⟨seen.state, rfl⟩
  · exact .inl rfl

/-- Whether attempts are made one after another: only the last one can be pending, and it is while
the recorder writes. -/
structure InTurn (attempts : List Attempt) (recorder : Recorder) : Prop where
  ended : ∀ attempt ∈ attempts.dropLast, attempt.accepted? ≠ none
  pending : ∀ seen, recorder = .writing seen → attempts.getLast? = some { state := seen.state }
  idle : (∀ seen, recorder ≠ .writing seen) → ∀ attempt ∈ attempts, attempt.accepted? ≠ none

/-- How far a recorder has come that has been spawned: the channel has sent `before` and its
present state since the spawn. What the recorder has not seen it has not attempted either. -/
structure Abreast (s : Recording ι) (recorder : Recorder) (before : List ProcessorState) :
    Prop where
  history : s.history = before ++ s.channel.state :: s.unsent
  attempted : (s.attempts.map Attempt.state).Sublist (before ++ [s.channel.state])
  fresh : recorder = .fresh → s.attempts = []
  latest : ∀ version, seen? recorder = some version → version ≤ s.channel.version
  behind : ∀ version, seen? recorder = some version → version < s.channel.version →
    (s.attempts.map Attempt.state).Sublist before
  caughtUp : seen? recorder = some s.channel.version →
    s.attempts.getLast?.map Attempt.state = some s.channel.state

/-- What holds in every run. -/
structure Recorded (s : Recording ι) : Prop where
  current : (s.channel.state :: s.unsent).getLast? = some s.crowd.gate.state
  unborn : s.recorder = none → s.attempts = []
  inTurn : ∀ recorder, s.recorder = some recorder → InTurn s.attempts recorder
  abreast : ∀ recorder, s.recorder = some recorder → ∃ before, s.Abreast recorder before

theorem recorded_opening (name : String) (workOnStartup : Bool) :
    (opening ι name workOnStartup).Recorded := by
  refine ⟨rfl, fun _ => rfl, nofun, nofun⟩

/-! ## Writes in turn -/

theorem InTurn.begin {attempts : List Attempt} (h : InTurn attempts recorder)
    (idle : ∀ seen, recorder ≠ .writing seen) (sent : Channel) :
    InTurn (attempts ++ [{ state := sent.state }]) (.writing sent) := by
  refine ⟨?_, ?_, fun busy => absurd rfl (busy sent)⟩
  · rw [List.dropLast_concat]
    exact h.idle idle
  · rintro seen ⟨⟩
    simp

theorem InTurn.finish {attempts : List Attempt} {seen : Channel}
    (h : InTurn attempts (.writing seen)) (accepted : Bool) :
    InTurn (attempts.dropLast ++ [{ state := seen.state, accepted? := accepted }])
      (.waiting seen.version) := by
  refine ⟨?_, nofun, fun _ attempt ha => ?_⟩
  · rw [List.dropLast_concat]
    exact h.ended
  · rcases List.mem_append.mp ha with ha | ha
    · exact h.ended attempt ha
    · cases List.mem_singleton.mp ha
      simp

/-- The end of a write leaves the states that were attempted. -/
theorem InTurn.states {attempts : List Attempt} {seen : Channel}
    (h : InTurn attempts (.writing seen)) (accepted : Bool) :
    (attempts.dropLast ++ [({ state := seen.state, accepted? := accepted } : Attempt)]).map
      Attempt.state = attempts.map Attempt.state := by
  obtain ⟨older, rfl⟩ := List.getLast?_eq_some_iff.mp (h.pending seen rfl)
  simp

/-! ## The channel and the history -/

/-- What the channel sends next the recorder has not seen. -/
theorem Abreast.send (h : s.Abreast recorder before) {state : ProcessorState}
    {rest : List ProcessorState} (unsent : s.unsent = state :: rest) :
    Abreast { s with channel := s.channel.send state, unsent := rest } recorder
      (before ++ [s.channel.state]) where
  history := by simp [h.history, unsent, Channel.send]
  attempted := h.attempted.trans (List.sublist_append_left _ _)
  fresh := h.fresh
  latest version seen := Nat.le_succ_of_le (h.latest version seen)
  behind _ _ _ := h.attempted
  caughtUp seen := absurd (h.latest _ seen) (Nat.not_succ_le_self _)

theorem Abreast.look (h : s.Abreast recorder before)
    (unseen : recorder = .fresh ∨ ∃ version, recorder = .waiting version ∧
      version ≠ s.channel.version) :
    Abreast { s with recorder := some (.writing s.channel),
                     attempts := s.attempts ++ [{ state := s.channel.state }] }
      (.writing s.channel) before where
  history := h.history
  attempted := by
    have older : (s.attempts.map Attempt.state).Sublist before := by
      rcases unseen with fresh | ⟨version, rfl, hne⟩
      · simp [h.fresh fresh]
      · exact h.behind version rfl (Nat.lt_of_le_of_ne (h.latest version rfl) hne)
    simpa using older.append_right [s.channel.state]
  fresh := nofun
  latest version seen := by
    cases seen
    exact Nat.le_refl _
  behind version seen late := by
    cases seen
    exact absurd late (Nat.lt_irrefl _)
  caughtUp _ := by simp

/-- A recorder stays as far as it has come if it attempts nothing new. -/
theorem Abreast.of_states {last : Recording ι} (h : s.Abreast recorder before)
    (history : last.history = s.history) (channel : last.channel = s.channel)
    (unsent : last.unsent = s.unsent)
    (states : last.attempts.map Attempt.state = s.attempts.map Attempt.state)
    (fresh : after ≠ .fresh)
    (seen : ∀ version, seen? after = some version → seen? recorder = some version) :
    last.Abreast after before where
  history := by rw [history, channel, unsent, h.history]
  attempted := by
    rw [states, channel]
    exact h.attempted
  fresh he := absurd he fresh
  latest version hv := channel ▸ h.latest version (seen version hv)
  behind version hv late := by
    rw [states]
    exact h.behind version (seen version hv) (channel ▸ late)
  caughtUp hv := by
    rw [← List.getLast?_map, states, List.getLast?_map, channel]
    exact h.caughtUp (channel ▸ seen _ hv)

theorem Rests.upToDate (h : s.Rests) : s.recorder = some (.waiting s.channel.version) := by
  obtain ⟨-, version, waiting, seen⟩ := h
  by_cases same : version = s.channel.version
  · exact same ▸ waiting
  · simp [Recorder.resume, same] at seen

theorem Recorded.attempted (h : s.Recorded) :
    (s.attempts.map Attempt.state).Sublist s.history ∧
      ∀ attempt ∈ s.attempts.dropLast, attempt.accepted? ≠ none := by
  cases spawned : s.recorder with
  | none => simp [h.unborn spawned]
  | some recorder =>
    obtain ⟨before, abreast⟩ := h.abreast recorder spawned
    refine ⟨?_, (h.inTurn recorder spawned).ended⟩
    rw [abreast.history]
    exact abreast.attempted.trans (List.Sublist.append_left (by simp) before)

/-- At rest the last attempt was to write the state of the gate, and it has ended. -/
theorem Recorded.last (h : s.Recorded) (rests : s.Rests) :
    ∃ attempt, s.attempts.getLast? = some attempt ∧ attempt.state = s.crowd.gate.state ∧
      attempt.accepted? ≠ none := by
  obtain ⟨before, abreast⟩ := h.abreast _ rests.upToDate
  have inTurn := h.inTurn _ rests.upToDate
  obtain ⟨attempt, last, state⟩ := Option.map_eq_some_iff.mp (abreast.caughtUp rfl)
  have current : s.channel.state = s.crowd.gate.state := by simpa [rests.1] using h.current
  exact ⟨attempt, last, state.trans current,
    inTurn.idle nofun attempt (List.mem_of_getLast? last)⟩

variable [DecidableEq ι]

theorem next_written {seen : Channel} (h : s.recorder = some (.writing seen)) :
    s.next .written =
      { s with
        recorder := some (.waiting seen.version)
        store := (s.store.record s.name seen.state).1
        attempts := s.attempts.dropLast ++
          [{ state := seen.state, accepted? := (s.store.record s.name seen.state).2.isOk }] } := by
  simp [Recording.next, h, Recorder.written]

theorem next_written_of_idle (h : ∀ seen, s.recorder ≠ some (.writing seen)) :
    s.next .written = s := by
  cases place : s.recorder with
  | none => simp [Recording.next, place]
  | some recorder =>
    cases recorder with
    | writing seen => exact absurd place (h seen)
    | _ => simp [Recording.next, place]

/-- What a move enters belongs to the history and is still to be sent. -/
theorem Abreast.move (h : s.Abreast recorder before) (spawned : s.recorder.isSome = true)
    (move : Move ι) : (s.next (.move move)).Abreast recorder before where
  history := by simp [Recording.next, spawned, h.history]
  attempted := h.attempted
  fresh := h.fresh
  latest := h.latest
  behind := h.behind
  caughtUp := h.caughtUp

namespace Recorded

theorem move (h : s.Recorded) (move : Move ι) : (s.next (.move move)).Recorded := by
  refine ⟨?_, h.unborn, h.inTurn, fun recorder hr => ?_⟩
  · have entered := s.crowd.getLast?_entered move
    change (s.channel.state :: (s.unsent ++ s.crowd.entered move)).getLast? =
      some (s.crowd.step move).gate.state
    rw [← entered]
    obtain ⟨older, sent⟩ := List.getLast?_eq_some_iff.mp h.current
    rw [← List.cons_append, sent, List.append_assoc]
    simp [List.getLast?_append, entered]
  · have spawned : s.recorder = some recorder := hr
    obtain ⟨before, abreast⟩ := h.abreast recorder spawned
    exact ⟨before, abreast.move (by simp [spawned]) move⟩

theorem send (h : s.Recorded) : (s.next .send).Recorded := by
  cases unsent : s.unsent with
  | nil => simpa [Recording.next, unsent] using h
  | cons state rest =>
    have same : s.next .send = { s with channel := s.channel.send state, unsent := rest } := by
      simp [Recording.next, unsent]
    rw [same]
    refine ⟨?_, h.unborn, h.inTurn, fun recorder hr => ?_⟩
    · have current := h.current
      rwa [unsent, List.getLast?_cons_cons] at current
    · obtain ⟨before, abreast⟩ := h.abreast recorder hr
      exact ⟨_, abreast.send unsent⟩

theorem spawn (h : s.Recorded) : (s.next .spawn).Recorded := by
  cases spawned : s.recorder with
  | some recorder => simpa [Recording.next, spawned] using h
  | none =>
    have same : s.next .spawn =
        { s with recorder := some .fresh, history := s.channel.state :: s.unsent } := by
      simp [Recording.next, spawned]
    have unborn := h.unborn spawned
    rw [same]
    refine ⟨h.current, nofun, ?_, ?_⟩
    · rintro recorder ⟨⟩
      exact ⟨by simp [unborn], nofun, by simp [unborn]⟩
    · rintro recorder ⟨⟩
      exact ⟨[], rfl, by simp [unborn], fun _ => unborn, nofun, nofun, nofun⟩

theorem resume (h : s.Recorded) (cancelled : Bool) : (s.next (.resume cancelled)).Recorded := by
  cases spawned : s.recorder with
  | none => simpa [Recording.next, spawned] using h
  | some recorder =>
    have inTurn := h.inTurn recorder spawned
    obtain ⟨before, abreast⟩ := h.abreast recorder spawned
    generalize resumed : recorder.resume s.channel cancelled = after
    have same : s.next (.resume cancelled) =
        { s with recorder := some after, attempts := s.attempts ++ begun recorder after } := by
      simp [Recording.next, spawned, resumed]
    rw [same]
    rcases resume_cases resumed with ⟨rfl, idle⟩ | ⟨rfl, idle, version, rfl⟩ | ⟨rfl, began, unseen⟩
    · rw [idle, List.append_nil, ← spawned]
      exact h
    · rw [idle, List.append_nil]
      refine ⟨h.current, nofun, ?_, ?_⟩
      · rintro _ ⟨⟩
        exact ⟨inTurn.ended, nofun, fun _ => inTurn.idle nofun⟩
      · rintro _ ⟨⟩
        exact ⟨before, abreast.of_states rfl rfl rfl rfl nofun nofun⟩
    · rw [began]
      refine ⟨h.current, nofun, ?_, ?_⟩
      · rintro _ ⟨⟩
        refine inTurn.begin ?_ s.channel
        rcases unseen with rfl | ⟨version, rfl, -⟩ <;> exact nofun
      · rintro _ ⟨⟩
        exact ⟨before, abreast.look unseen⟩

theorem written (h : s.Recorded) : (s.next .written).Recorded := by
  by_cases writing : ∃ seen, s.recorder = some (.writing seen)
  · obtain ⟨seen, writing⟩ := writing
    have inTurn := h.inTurn _ writing
    obtain ⟨before, abreast⟩ := h.abreast _ writing
    rw [next_written writing]
    refine ⟨h.current, nofun, ?_, ?_⟩
    · rintro _ ⟨⟩
      exact inTurn.finish _
    · rintro _ ⟨⟩
      exact ⟨before, abreast.of_states rfl rfl rfl (inTurn.states _) nofun fun _ => id⟩
  · rwa [next_written_of_idle (not_exists.mp writing)]

theorem next (h : s.Recorded) (event : RecordingEvent ι) : (s.next event).Recorded := by
  cases event with
  | move move => exact h.move move
  | send => exact h.send
  | spawn => exact h.spawn
  | resume cancelled => exact h.resume cancelled
  | written => exact h.written
  | write replica state =>
    refine ⟨h.current, h.unborn, h.inTurn, fun recorder hr => ?_⟩
    obtain ⟨before, abreast⟩ := h.abreast recorder hr
    exact ⟨before, abreast.1, abreast.2, abreast.3, abreast.4, abreast.5, abreast.6⟩
  | reject writes =>
    refine ⟨h.current, h.unborn, h.inTurn, fun recorder hr => ?_⟩
    obtain ⟨before, abreast⟩ := h.abreast recorder hr
    exact ⟨before, abreast.1, abreast.2, abreast.3, abreast.4, abreast.5, abreast.6⟩

theorem run (h : s.Recorded) (events : List (RecordingEvent ι)) : (s.run events).Recorded := by
  induction events generalizing s with
  | nil => exact h
  | cons event rest ih => exact ih (h.next event)

end Recorded

end Recording

/-! ## What the store holds -/

namespace StateStore
variable (store : StateStore) (replica name : String) (state : ProcessorState)

theorem get?_record_self (accepted : (store.record replica state).2.isOk = true) :
    NameMap.get? (store.record replica state).1.recorded replica = some state := by
  unfold record at accepted ⊢
  split at accepted
  · cases accepted
  · next accepts => simp [accepts, NameMap.get?_insert]

theorem get?_record_of_ne (other : name ≠ replica) :
    NameMap.get? (store.record replica state).1.recorded name =
      NameMap.get? store.recorded name := by
  unfold record
  split
  · rfl
  · simp [NameMap.get?_insert, other]

end StateStore

namespace Recording
variable {s : Recording ι} {recorder after : Recorder}

/-- Whether the store holds what it accepted last from the recorder. -/
def Kept (s : Recording ι) : Prop :=
  ∀ attempt, s.attempts.getLast? = some attempt → attempt.accepted? = some true →
    NameMap.get? s.store.recorded s.name = some attempt.state

variable [DecidableEq ι]

theorem name_next (s : Recording ι) (event : RecordingEvent ι) : (s.next event).name = s.name := by
  cases event with
  | move move => rfl
  | send =>
    simp only [Recording.next]
    split <;> rfl
  | spawn =>
    simp only [Recording.next]
    split <;> rfl
  | resume cancelled =>
    simp only [Recording.next]
    split <;> rfl
  | written =>
    simp only [Recording.next]
    split <;> rfl
  | write replica state => rfl
  | reject writes => rfl

theorem name_run (s : Recording ι) (events : List (RecordingEvent ι)) :
    (s.run events).name = s.name := by
  induction events generalizing s with
  | nil => rfl
  | cons event rest ih => exact (ih (s.next event)).trans (name_next s event)

theorem Kept.next (h : s.Kept) {event : RecordingEvent ι}
    (alone : ∀ state, event ≠ .write s.name state) : (s.next event).Kept := by
  cases event with
  | move move => exact h
  | send =>
    simp only [Recording.next]
    split <;> exact h
  | spawn =>
    simp only [Recording.next]
    split <;> exact h
  | resume cancelled =>
    simp only [Recording.next]
    split
    · exact h
    · next recorder _ =>
      intro attempt last accepted
      rcases begun_eq recorder (recorder.resume s.channel cancelled) with idle | ⟨state, began⟩
      · refine h attempt ?_ accepted
        simpa [idle] using last
      · simp only [began, List.getLast?_append, List.getLast?_singleton, Option.some_or,
          Option.some.injEq] at last
        subst last
        cases accepted
  | written =>
    by_cases writing : ∃ seen, s.recorder = some (.writing seen)
    · obtain ⟨seen, writing⟩ := writing
      rw [next_written writing]
      intro attempt last accepted
      simp only [List.getLast?_append, List.getLast?_singleton, Option.some_or,
        Option.some.injEq] at last
      subst last
      exact s.store.get?_record_self s.name seen.state (Option.some.inj accepted)
    · rwa [next_written_of_idle (not_exists.mp writing)]
  | write replica state =>
    intro attempt last accepted
    have other : s.name ≠ replica := fun same => alone state (same ▸ rfl)
    exact (s.store.get?_record_of_ne replica s.name state other).trans (h attempt last accepted)
  | reject writes => exact h

theorem Kept.run (h : s.Kept) {events : List (RecordingEvent ι)}
    (alone : ∀ state, .write s.name state ∉ events) : (s.run events).Kept := by
  induction events generalizing s with
  | nil => exact h
  | cons event rest ih =>
    refine ih (h.next fun state same => alone state (same ▸ List.mem_cons_self)) fun state => ?_
    rw [name_next]
    exact fun hm => alone state (List.mem_cons_of_mem event hm)

/-- The states that a recorder attempts to write follow the history of the gate since the spawn,
one write after another. When nothing is left to be done, the last one attempted is the state of
the gate; and the store holds it if it accepted it and nobody else writes under that name. -/
theorem final_state_recorded (name : String) (workOnStartup : Bool)
    (events : List (RecordingEvent ι)) :
    let s := (opening ι name workOnStartup).run events
    (s.attempts.map Attempt.state).Sublist s.history ∧
      (∀ attempt ∈ s.attempts.dropLast, attempt.accepted? ≠ none) ∧
      (s.Rests → ∃ attempt, s.attempts.getLast? = some attempt ∧
        attempt.state = s.crowd.gate.state ∧ attempt.accepted? ≠ none ∧
        (attempt.accepted? = some true → (∀ state, .write name state ∉ events) →
          NameMap.get? s.store.recorded name = some s.crowd.gate.state)) := by
  intro s
  have recorded : s.Recorded := (recorded_opening name workOnStartup).run events
  refine ⟨recorded.attempted.1, recorded.attempted.2, fun rests => ?_⟩
  obtain ⟨attempt, last, state, ended⟩ := recorded.last rests
  refine ⟨attempt, last, state, ended, fun accepted alone => ?_⟩
  have kept : s.Kept := Kept.run (s := opening ι name workOnStartup) nofun alone
  have same : s.name = name := name_run _ events
  rw [← state, ← same]
  exact kept attempt last accepted

/-- A working processor is stopped. The recorder looks between the two states that it enters, and
the second one is sent while the first is being written. -/
theorem final_state_recorded_of_stop :
    let events : List (RecordingEvent Nat) := [.spawn, .move .stop, .send, .resume false, .send,
      .written, .resume false, .written, .resume false]
    let s := (opening Nat "r" true).run events
    s.Rests ∧ (∀ state, .write "r" state ∉ events) ∧
      s.history = [.working, .stopping, .stopped] ∧
      s.attempts = [⟨.stopping, some true⟩, ⟨.stopped, some true⟩] ∧
      NameMap.get? s.store.recorded "r" = some .stopped := by
  intro events s
  have rests : s.Rests := ⟨rfl, 2, rfl, rfl⟩
  have alone : ∀ state, .write "r" state ∉ events := by simp [events]
  have attempts : s.attempts = [⟨.stopping, some true⟩, ⟨.stopped, some true⟩] := by
    decide +kernel
  obtain ⟨-, -, later⟩ := final_state_recorded "r" true events
  obtain ⟨attempt, last, state, -, holds⟩ := later rests
  have accepted : attempt.accepted? = some true := by
    rw [show ((opening Nat "r" true).run events).attempts = _ from attempts] at last
    cases last
    rfl
  exact ⟨rests, alone, by decide +kernel, attempts, holds accepted alone⟩

end Recording
end WorkQueue
