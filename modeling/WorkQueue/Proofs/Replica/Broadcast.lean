import Mathlib.Data.List.Basic
import WorkQueue.Proofs.Gate.Exclusion
import WorkQueue.Replica.Broadcast

/-! # The history of a gate

Whatever happens at a gate, its transitions go round the cycle of work and drain, and each operation
takes it on by a number of steps. The channel and the counters follow one transition after another,
so that a subscriber sees where the walk has come to and whether it has gone on.
-/
namespace WorkQueue
variable {ι κ : Type}

/-! ## Walks along the cycle -/

namespace ProcessorState

theorem steps_add (state : ProcessorState) (m n : Nat) :
    state.steps (m + n) = (state.steps m).steps n := by
  induction m generalizing state with
  | zero => rw [Nat.zero_add, steps]
  | succ m ih => rw [Nat.succ_add, steps, ih, steps]

theorem walk_add (state : ProcessorState) (m n : Nat) :
    state.walk (m + n) = state.walk m ++ (state.steps m).walk n := by
  induction m generalizing state with
  | zero => rw [Nat.zero_add, walk, steps, List.nil_append]
  | succ m ih => rw [Nat.succ_add, walk, ih, walk, steps, List.cons_append]

/-- A walk begins with the shorter one. -/
theorem walk_of_append {state : ProcessorState} {n : Nat} {front back : List Transition}
    (h : front ++ back = state.walk n) : front = state.walk front.length := by
  induction front generalizing state n with
  | nil => rfl
  | cons transition rest ih =>
    cases n with
    | zero => cases h
    | succ n =>
      obtain ⟨rfl, later⟩ := List.cons_eq_cons.mp h
      exact congrArg _ (ih later)

/-- The transition after a walk leads from where it has come to one step on. -/
theorem last_of_walk {state : ProcessorState} {n : Nat} {front : List Transition}
    {transition : Transition} (walked : front = state.walk n)
    (h : front ++ [transition] = state.walk (n + 1)) :
    transition = (state.steps n, state.steps (n + 1)) := by
  rw [walk_add, ← walked] at h
  rw [steps_add]
  exact List.singleton_inj.mp (List.append_cancel_left h)

end ProcessorState

/-! ## What a move does to the walk -/

namespace Gate
variable {g r : Gate ι} {notices : List GateNotice}

/-- An operation takes a gate on along the cycle by the transitions that it reports. -/
structure Walks (g r : Gate ι) (notices : List GateNotice) : Prop where
  walk : notices.filterMap GateNotice.transition? =
    g.state.walk (notices.filterMap GateNotice.transition?).length
  state : r.state = g.state.steps (notices.filterMap GateNotice.transition?).length
  version : r.version = g.version + (notices.filterMap GateNotice.transition?).length
  published : g.published = g.state → r.published = r.state

theorem walks_of_same (state : r.state = g.state) (channel : r.channel = g.channel) :
    g.Walks r [] where
  walk := rfl
  state := state
  version := congrArg Channel.version channel
  published h := by
    have hchannel : r.published = g.published := congrArg Channel.state channel
    rw [hchannel, h, state]

@[simp] theorem wake_channel (g : Gate ι) : g.wake.channel = g.channel := by
  unfold wake
  split <;> rfl

theorem Walks.wake (h : g.Walks r notices) : g.Walks r.wake notices where
  walk := h.walk
  state := r.wake_state.trans h.state
  version := (congrArg Channel.version r.wake_channel).trans h.version
  published same := (congrArg Channel.state r.wake_channel).trans
    ((h.published same).trans r.wake_state.symm)

theorem Walks.trans {last : Gate ι} {more : List GateNotice} (h : g.Walks r notices)
    (later : r.Walks last more) : g.Walks last (notices ++ more) where
  walk := by
    rw [List.filterMap_append, List.length_append, ProcessorState.walk_add, ← h.walk, ← h.state,
      ← later.walk]
  state := by
    rw [List.filterMap_append, List.length_append, ProcessorState.steps_add, ← h.state, later.state]
  version := by
    rw [List.filterMap_append, List.length_append, later.version, h.version, Nat.add_assoc]
  published same := later.published (h.published same)

/-- One transition is one step of the walk. -/
theorem walks_moveTo {before after : ProcessorState} (state : g.state = before)
    (next : before.next = after) : g.Walks (g.moveTo after) [.changed before after] where
  walk := by
    subst state next
    rfl
  state := by
    subst state next
    rfl
  version := rfl
  published _ := rfl

theorem walks_start (g : Gate ι) : g.Walks g.start.1 g.start.2 := by
  unfold start
  cases h : g.state with
  | stopped => exact (walks_moveTo h rfl).wake
  | stopping => exact ⟨rfl, rfl, rfl, id⟩
  | working => exact walks_of_same rfl rfl

theorem walks_finishAndStop (g : Gate ι) : g.Walks g.finishAndStop.1 g.finishAndStop.2 := by
  unfold finishAndStop
  cases h : g.state with
  | working =>
    have stopping : g.Walks (g.moveTo .stopping) [.changed .working .stopping] :=
      walks_moveTo h rfl
    cases g.inFlight with
    | true => exact stopping
    | false => exact stopping.trans (walks_moveTo rfl rfl)
  | stopping => exact walks_of_same rfl rfl
  | stopped => exact walks_of_same rfl rfl

theorem walks_release (g : Gate ι) : g.Walks g.release.1 g.release.2 := by
  have free : g.Walks { g with inFlight := false } [] := walks_of_same rfl rfl
  unfold release
  split
  · next h => exact free.trans (walks_moveTo h rfl)
  · exact free.wake
  · exact free

/-! ### Calls leave the channel alone -/

theorem channel_look (g : Gate ι) : g.look.1.channel = g.channel := by
  unfold look
  split <;> rfl

theorem channel_enter (g : Gate ι) (i : ι) : (g.enter i).1.channel = g.channel := by
  have h := g.channel_look
  unfold enter
  split
  · next inside hl => rwa [hl] at h
  · next outside answer hne hl =>
    rw [hl] at h
    exact h

variable [DecidableEq ι]

theorem channel_hear? {heard : Gate ι} {i : ι} (h : g.hear? i = some heard) :
    heard.channel = g.channel := by
  obtain ⟨-, rfl⟩ | ⟨-, -, -, rfl⟩ := hear?_cases h
  · rfl
  · rfl

theorem channel_drop (g : Gate ι) (i : ι) : (g.drop i).channel = g.channel := by
  unfold drop
  split
  · exact wake_channel _
  · rfl

theorem channel_poll (g : Gate ι) (i : ι) (cancelled : Bool) :
    (g.poll i cancelled).1.channel = g.channel := by
  unfold poll
  split
  · exact g.channel_drop i
  · cases hh : g.hear? i with
    | some heard => exact (heard.channel_enter i).trans (channel_hear? hh)
    | none =>
      dsimp only
      unfold await
      split <;> rfl

end Gate

namespace Crowd
variable [DecidableEq ι] {c : Crowd ι} {i : ι}

/-- Each move takes the gate of a crowd on along the cycle by the transitions that it makes. -/
theorem walks_step (c : Crowd ι) (move : Move ι) :
    c.gate.Walks (c.step move).gate (c.notices move) := by
  have still : c.gate.Walks c.gate [] := Gate.walks_of_same rfl rfl
  cases move with
  | start => exact c.gate.walks_start
  | stop => exact c.gate.walks_finishAndStop
  | poll i cancelled =>
    simp only [step, notices]
    split
    · exact still
    · exact Gate.walks_of_same (c.gate.answered_poll i cancelled).1
        (c.gate.channel_poll i cancelled)
  | hear i =>
    simp only [step, notices]
    split
    · exact still
    · split
      · next heard hh => exact Gate.walks_of_same (Gate.hear?_keeps hh).1 (Gate.channel_hear? hh)
      · exact still
  | look i =>
    simp only [step, notices]
    split
    · exact Gate.walks_of_same c.gate.answered_look.1 c.gate.channel_look
    · exact still
  | abort i =>
    simp only [step, notices]
    split
    · exact still
    · exact Gate.walks_of_same (by simp) (c.gate.channel_drop i)
  | release i =>
    simp only [step, notices]
    split
    · exact c.gate.walks_release
    · exact still

end Crowd

/-! ## What is told of the walk -/

@[simp] theorem GateNotice.transition?_toNotice (notice : GateNotice) (name : String) :
    (notice.toNotice name).transition? = notice.transition? := by
  cases notice <;> rfl

theorem GateNotice.entered?_eq_map (notice : GateNotice) :
    notice.entered? = notice.transition?.map Prod.snd := by
  cases notice <;> rfl

namespace Broadcast
variable {s : Broadcast ι κ} {first : ProcessorState}

/-- What has been told is the beginning of the walk that the gate has gone, and what is due the rest
of it. Channel and counters stand where the beginning has led. -/
structure Faithful (first : ProcessorState) (s : Broadcast ι κ) : Prop where
  exclusive : s.crowd.Exclusive
  walk : s.made = first.walk s.made.length
  state : s.crowd.gate.state = first.steps s.made.length
  version : s.crowd.gate.version = s.made.length
  published : s.crowd.gate.published = s.crowd.gate.state
  channel : s.channel = ⟨first.steps s.taken.length, s.taken.length⟩

theorem Faithful.taken_eq (h : s.Faithful first) : s.taken = first.walk s.taken.length :=
  ProcessorState.walk_of_append h.walk

/-- With nothing due the channel stands where the gate does. -/
theorem Faithful.upToDate (h : s.Faithful first) (told : s.due = []) :
    s.channel = s.crowd.gate.channel := by
  have same : s.made = s.taken := by rw [made, told, List.filterMap_nil, List.append_nil]
  rw [h.channel, Gate.channel, h.published, h.state, h.version, same]

variable [DecidableEq ι] [DecidableEq κ]

theorem Faithful.move (h : s.Faithful first) (move : Move ι) :
    (s.next (.move move)).Faithful first := by
  have went := s.crowd.walks_step move
  have made : (s.next (.move move)).made = s.made ++ s.crowd.transitions move := by
    simp only [Broadcast.made, next, List.filterMap_append, List.append_assoc]
    rfl
  have walked : s.crowd.transitions move = (first.steps s.made.length).walk
      (s.crowd.transitions move).length := by
    rw [← h.state]
    exact went.walk
  refine ⟨h.exclusive.step move, ?_, ?_, ?_, went.published h.published, h.channel⟩
  · rw [made, List.length_append, ProcessorState.walk_add, ← h.walk, ← walked]
  · rw [made, List.length_append, ProcessorState.steps_add, ← h.state]
    exact went.state
  · rw [made, List.length_append, ← h.version]
    exact went.version

theorem Faithful.tell (h : s.Faithful first) : (s.next .tell).Faithful first := by
  cases hdue : s.due with
  | nil =>
    have same : s.next .tell = s := by simp only [next, hdue]
    rwa [same]
  | cons notice rest =>
    have taken : (s.next .tell).taken = s.taken ++ notice.transition?.toList := by
      simp only [next, hdue, Broadcast.taken, List.filterMap_append]
      cases hn : notice.transition? <;> simp [hn]
    have made : (s.next .tell).made = s.made := by
      rw [Broadcast.made, taken, List.append_assoc, Broadcast.made, hdue]
      simp only [next, hdue]
      cases hn : notice.transition? <;> simp [hn]
    have same : (s.next .tell).crowd = s.crowd := by simp only [next, hdue]
    refine ⟨?_, ?_, ?_, ?_, ?_, ?_⟩
    · rw [same]
      exact h.exclusive
    · rw [made]
      exact h.walk
    · rw [same, made]
      exact h.state
    · rw [same, made]
      exact h.version
    · rw [same]
      exact h.published
    · cases hn : notice.transition? with
      | none =>
        rw [hn] at taken
        have quiet : (s.next .tell).channel = s.channel := by
          simp only [next, hdue, notice.entered?_eq_map, hn, Option.map_none]
        rw [quiet, taken, h.channel]
        simp
      | some transition =>
        rw [hn, Option.toList_some] at taken
        have sent : (s.next .tell).channel = s.channel.send transition.2 := by
          simp only [next, hdue, notice.entered?_eq_map, hn, Option.map_some]
        have walked : s.taken ++ [transition] = first.walk (s.taken.length + 1) := by
          have further : (s.next .tell).taken ++ rest.filterMap GateNotice.transition? =
              first.walk s.made.length := by
            rw [← h.walk, ← made, Broadcast.made]
            simp only [next, hdue]
          have := ProcessorState.walk_of_append further
          rwa [taken, List.length_append] at this
        have onward := ProcessorState.last_of_walk h.taken_eq walked
        rw [sent, taken, onward, h.channel, List.length_append]
        rfl

omit [DecidableEq ι] in
theorem Faithful.witnessed (h : s.Faithful first) (who : κ) : (s.witnessed who).Faithful first :=
  ⟨h.exclusive, h.walk, h.state, h.version, h.published, h.channel⟩

theorem Faithful.next (h : s.Faithful first) (event : BroadcastEvent ι κ) :
    (s.next event).Faithful first := by
  cases event with
  | move move => exact h.move move
  | tell => exact h.tell
  | subscribe who => exact h.witnessed who
  | look who =>
    simp only [Broadcast.next]
    split
    · exact h.witnessed who
    · exact h

theorem Faithful.run (h : s.Faithful first) (events : List (BroadcastEvent ι κ)) :
    (s.run events).Faithful first := by
  induction events generalizing s with
  | nil => exact h
  | cons event rest ih => exact ih (h.next event)

/-! ## What a subscriber sees -/

end Broadcast
end WorkQueue
