import WorkQueue.Proofs.Gate.Exclusion

/-! # No wake-up is lost

While the gate is open a wake-up is on its way: the gate stores it, or a call holds it that has
been woken or has yet to look. A call that uses a wake-up up in vain finds the gate closed, and
whatever opens the gate again wakes anew; a call that leaves hands its wake-up on. A wake-up is
stored only while nobody waits.
-/
namespace WorkQueue
variable {ι : Type}

namespace Gate
variable {g heard : Gate ι} {i : ι}

theorem isOpen_iff : g.isOpen = true ↔ g.state = .working ∧ g.inFlight = false := by
  simp [isOpen]

/-- Whether the gate stores a wake-up or a woken call holds one. -/
def Awake (g : Gate ι) : Prop := g.stored = true ∨ ∃ i, i ∈ g.woken

/-- A wake-up is stored only while nobody waits. -/
def Idle (g : Gate ι) : Prop := g.stored = true → g.waiting = []

theorem awake_wake (g : Gate ι) : g.wake.Awake := by
  unfold wake
  cases g.waiting with
  | nil => exact .inl rfl
  | cons i rest => exact .inr ⟨i, by simp⟩

theorem Idle.wake (h : g.Idle) : g.wake.Idle := by
  intro hs
  unfold Gate.wake at hs ⊢
  cases hw : g.waiting with
  | nil => simp
  | cons i rest =>
    simp only [hw] at hs
    have hnone := h hs
    rw [hw] at hnone
    cases hnone

theorem Idle.start (h : g.Idle) : g.start.1.Idle := by
  unfold Gate.start
  cases g.state with
  | working => exact h
  | stopping => exact h
  | stopped =>
    have hmoved : (g.moveTo .working).Idle := h
    exact hmoved.wake

theorem Idle.finishAndStop (h : g.Idle) : g.finishAndStop.1.Idle := by
  unfold Gate.finishAndStop
  cases g.state with
  | working => cases g.inFlight <;> exact h
  | stopping => exact h
  | stopped => exact h

theorem Idle.release (h : g.Idle) : g.release.1.Idle := by
  have hfree : ({ g with inFlight := false } : Gate ι).Idle := h
  have hwoken := hfree.wake
  unfold Gate.release
  split
  · exact hfree
  · exact hwoken
  · exact hfree

theorem Idle.enter (h : g.Idle) (i : ι) : (g.enter i).1.Idle := by
  unfold Gate.enter look
  split
  · next inside hl =>
    by_cases ho : g.isOpen = true
    · rw [if_pos ho] at hl
      cases hl
      exact h
    · rw [if_neg ho] at hl
      cases hl
  · intro hs
    cases hs

/-- A start that opens the gate wakes. -/
theorem awake_start (hclosed : g.isOpen = false) (hopen : g.start.1.isOpen = true) :
    g.start.1.Awake := by
  unfold start at hopen ⊢
  cases hs : g.state with
  | stopped => exact awake_wake _
  | stopping => simp [hs, hclosed] at hopen
  | working => simp [hs, hclosed] at hopen

theorem start_of_open (h : g.isOpen = true) : g.start.1 = g := by
  have hs := (isOpen_iff.mp h).1
  simp [start, hs]

theorem isOpen_finishAndStop : g.finishAndStop.1.isOpen = false := by
  cases ho : g.finishAndStop.1.isOpen with
  | false => rfl
  | true =>
    have hs := (isOpen_iff.mp ho).1
    rw [finishAndStop_state] at hs
    split at hs
    · split at hs <;> cases hs
    · contradiction

/-- A permit that is given back while the processor works wakes. -/
theorem awake_release (h : g.release.1.isOpen = true) : g.release.1.Awake := by
  unfold release at h ⊢
  cases hs : g.state with
  | working => exact awake_wake _
  | stopping => simp [hs, isOpen] at h
  | stopped => simp [hs, isOpen] at h

theorem isOpen_look (g : Gate ι) : g.look.1.isOpen = false := by
  unfold look
  by_cases h : g.isOpen = true
  · rw [if_pos h]
    simp [isOpen]
  · rw [if_neg h]
    simpa using h

theorem isOpen_enter (g : Gate ι) (i : ι) : (g.enter i).1.isOpen = false := by
  have h := g.isOpen_look
  unfold enter
  split
  · next inside hl => rwa [hl] at h
  · next outside answer hne hl =>
    rw [hl] at h
    simpa [isOpen] using h

variable [DecidableEq ι]

theorem hear?_eq_some (h : g.hear? i = some heard) :
    heard.waiting = g.waiting ∧ (heard.stored = true → g.stored = true) := by
  obtain ⟨-, rfl⟩ | ⟨-, -, stored, rfl⟩ := hear?_cases h
  · exact ⟨rfl, id⟩
  · exact ⟨rfl, fun _ => stored⟩

theorem hear?_eq_none (h : g.hear? i = none) :
    i ∉ g.woken ∧ (i ∈ g.waiting ∨ g.stored = false) := by
  unfold hear? at h
  by_cases hw : i ∈ g.woken
  · rw [if_pos hw] at h
    cases h
  · refine ⟨hw, ?_⟩
    rw [if_neg hw] at h
    by_cases hi : i ∈ g.waiting
    · exact .inl hi
    · rw [if_neg hi] at h
      cases hs : g.stored with
      | false => exact .inr rfl
      | true => simp [hs] at h

theorem Idle.hear? (h : g.Idle) (hh : g.hear? i = some heard) : heard.Idle := by
  intro hs
  obtain ⟨hwaiting, hstored⟩ := hear?_eq_some hh
  rw [hwaiting]
  exact h (hstored hs)

theorem Idle.drop (h : g.Idle) (i : ι) : (g.drop i).Idle := by
  unfold Gate.drop
  split
  · have hleft : ({ g with woken := g.woken.erase i } : Gate ι).Idle := h
    exact hleft.wake
  · intro hs
    simp [h hs]

theorem Idle.poll (h : g.Idle) (i : ι) (cancelled : Bool) : (g.poll i cancelled).1.Idle := by
  unfold Gate.poll
  cases cancelled with
  | true => exact h.drop i
  | false =>
    simp only [Bool.false_eq_true, ↓reduceIte]
    cases hh : g.hear? i with
    | some heard => exact (h.hear? hh).enter i
    | none =>
      obtain ⟨-, hi⟩ := hear?_eq_none hh
      intro hs
      unfold Gate.await at hs ⊢
      by_cases hw : i ∈ g.waiting
      · simp only [if_pos hw] at hs ⊢
        exact h hs
      · have hstored := hi.resolve_left hw
        simp [if_neg hw, hstored] at hs

theorem Awake.drop (h : g.Awake) (i : ι) : (g.drop i).Awake := by
  unfold Gate.drop
  split
  · exact awake_wake _
  · exact h

/-- Running a call leaves a wake-up behind unless it leaves the gate closed. -/
theorem awake_poll (i : ι) (cancelled : Bool) (h : g.Awake)
    (hopen : (g.poll i cancelled).1.isOpen = true) : (g.poll i cancelled).1.Awake := by
  unfold poll at hopen ⊢
  cases cancelled with
  | true => exact h.drop i
  | false =>
    simp only [Bool.false_eq_true, ↓reduceIte] at hopen ⊢
    cases hh : g.hear? i with
    | some heard => simp [hh, isOpen_enter] at hopen
    | none =>
      dsimp only
      unfold await
      split <;> exact h

/-- A call that meets an open gate and a wake-up that is stored or its own proceeds. -/
theorem poll_granted (hopen : g.isOpen = true)
    (h : i ∈ g.woken ∨ g.stored = true ∧ g.waiting = []) : (g.poll i false).2 = .granted := by
  have hheard : ∃ heard, g.hear? i = some heard := by
    unfold hear?
    by_cases hw : i ∈ g.woken
    · exact ⟨_, if_pos hw⟩
    · obtain ⟨hs, hwaiting⟩ := h.resolve_left hw
      simp [hw, hs, hwaiting]
  obtain ⟨heard, hh⟩ := hheard
  obtain ⟨hs, hf⟩ := hear?_keeps hh
  have hstill : heard.isOpen = true := by rwa [isOpen, hs, hf]
  simp [poll, hh, enter, look, hstill]

end Gate

namespace Crowd

/-- Whether a call can run: it has been woken, or it has used up a wake-up and has yet to look. -/
def Runnable (c : Crowd ι) (i : ι) : Prop := i ∈ c.gate.woken ∨ i ∈ c.looking

/-- While the gate is open a wake-up is stored or held by a call that can run; one is stored only
while nobody waits. -/
structure Armed (c : Crowd ι) : Prop where
  onTheWay : c.gate.isOpen = true → c.gate.stored = true ∨ ∃ i, c.Runnable i
  idle : c.gate.Idle

theorem Exclusive.isOpen {c : Crowd ι} (h : c.Exclusive) (working : c.gate.state = .working)
    (free : c.permits = []) : c.gate.isOpen = true := by
  have counted := h.counted
  rw [free] at counted
  cases hf : c.gate.inFlight with
  | false => exact Gate.isOpen_iff.mpr ⟨working, hf⟩
  | true => simp [hf] at counted

theorem armed_of_awake {c : Crowd ι} (h : c.gate.isOpen = true → c.gate.Awake)
    (idle : c.gate.Idle) : c.Armed := by
  refine ⟨fun ho => ?_, idle⟩
  rcases h ho with hs | ⟨i, hi⟩
  · exact .inl hs
  · exact .inr ⟨i, .inl hi⟩

theorem armed_of_closed {c : Crowd ι} (h : c.gate.isOpen = false) (idle : c.gate.Idle) :
    c.Armed := by
  refine ⟨fun ho => ?_, idle⟩
  rw [h] at ho
  cases ho

theorem armed_gather (workOnStartup : Bool) : Armed (gather workOnStartup : Crowd ι) := by
  refine armed_of_awake (fun ho => ?_) (fun _ => rfl)
  cases workOnStartup with
  | true => exact .inl rfl
  | false => simp [gather, Gate.new, Gate.isOpen] at ho

/-- What keeps the gate awake while it is open keeps the crowd armed, whoever is looking. -/
theorem Armed.of_gate {c d : Crowd ι} (h : c.Armed) (hl : d.looking = c.looking)
    (hopen : d.gate.isOpen = true → c.gate.isOpen = true)
    (awake : c.gate.Awake → d.gate.isOpen = true → d.gate.Awake) (idle : d.gate.Idle) :
    d.Armed := by
  refine ⟨fun ho => ?_, idle⟩
  have lift : d.gate.Awake → d.gate.stored = true ∨ ∃ i, d.Runnable i := by
    rintro (hs | ⟨i, hi⟩)
    · exact .inl hs
    · exact .inr ⟨i, .inl hi⟩
  rcases h.onTheWay (hopen ho) with hs | ⟨i, hi | hi⟩
  · exact lift (awake (.inl hs) ho)
  · exact lift (awake (.inr ⟨i, hi⟩) ho)
  · exact .inr ⟨i, .inr (hl ▸ hi)⟩

/-- Once no call can run, nobody waits at an open gate. -/
theorem Armed.nobody_waits {c : Crowd ι} (h : c.Armed) (ho : c.gate.isOpen = true)
    (settled : ∀ i, ¬ c.Runnable i) : c.gate.waiting = [] := by
  rcases h.onTheWay ho with hs | ⟨i, hi⟩
  · exact h.idle hs
  · exact absurd hi (settled i)

variable [DecidableEq ι]

theorem Armed.step {c : Crowd ι} (h : c.Armed) (move : Move ι) : (c.step move).Armed := by
  cases move with
  | start =>
    cases ho : c.gate.isOpen with
    | true => exact h.of_gate rfl (fun _ => ho) (fun ha _ => by
        simpa [Crowd.step, Gate.start_of_open ho] using ha) h.idle.start
    | false => exact armed_of_awake (Gate.awake_start ho) h.idle.start
  | stop => exact armed_of_closed Gate.isOpen_finishAndStop h.idle.finishAndStop
  | poll i cancelled =>
    simp only [Crowd.step]
    split
    · exact h
    · refine h.of_gate rfl (fun ho => ?_) (Gate.awake_poll i cancelled) (h.idle.poll i cancelled)
      -- The answer keeps the state, and one that takes the permit closes the gate.
      obtain ⟨hs, hg⟩ := c.gate.answered_poll i cancelled
      obtain ⟨hw, hf⟩ := Gate.isOpen_iff.mp ho
      simp only [answer] at hw hf
      rw [hs] at hw
      split at hg
      · rw [hg.2.2] at hf
        cases hf
      · exact Gate.isOpen_iff.mpr ⟨hw, hg ▸ hf⟩
  | hear i =>
    simp only [Crowd.step]
    split
    · exact h
    · split
      · next heard hh => exact ⟨fun _ => .inr ⟨i, .inr List.mem_cons_self⟩, h.idle.hear? hh⟩
      · exact h
  | look i =>
    simp only [Crowd.step]
    split
    · refine armed_of_closed c.gate.isOpen_look ?_
      have hidle := h.idle
      unfold answer Gate.look
      split <;> exact hidle
    · exact h
  | abort i =>
    simp only [Crowd.step]
    split
    · exact h
    · refine h.of_gate rfl (fun ho => ?_) (fun ha _ => ha.drop i) (h.idle.drop i)
      simpa [Gate.isOpen] using ho
  | release i =>
    simp only [Crowd.step]
    split
    · exact armed_of_awake Gate.awake_release h.idle.release
    · exact h

theorem Armed.run {c : Crowd ι} (h : c.Armed) (moves : List (Move ι)) : (c.run moves).Armed := by
  induction moves generalizing c with
  | nil => exact h
  | cons move rest ih => exact ih (h.step move)

/-- A call that is the only one that can run at an open gate gets the permit with its next move,
and so does any call that comes while none can run. -/
theorem Armed.granted {c : Crowd ι} (h : c.Armed) (ho : c.gate.isOpen = true) {i : ι}
    (alone : ∀ j, c.Runnable j → j = i) :
    i ∈ (c.step (.look i)).permits ∨ i ∈ (c.step (.poll i false)).permits := by
  by_cases hl : i ∈ c.looking
  · left
    simp [Crowd.step, hl, answer, Gate.look, ho]
  · right
    have hwake : i ∈ c.gate.woken ∨ c.gate.stored = true ∧ c.gate.waiting = [] := by
      rcases h.onTheWay ho with hs | ⟨j, hj⟩
      · exact .inr ⟨hs, h.idle hs⟩
      · have hji := alone j hj
        subst hji
        exact .inl (hj.resolve_right hl)
    simp [Crowd.step, hl, answer, Gate.poll_granted ho hwake]

end Crowd
end WorkQueue
