import WorkQueue.Gate.Crowd

/-! # At most one permit is alive

The wake-ups of a gate play no part in what keeps it safe. Whatever a call has heard, it gets a
permit only by looking at an open gate, and from then on the gate is not open until that permit
is given back. The invariant counts the permits against the flag of the gate.
-/
namespace WorkQueue
variable {ι : Type}

namespace Gate

/-- What an answer to a call says of the gate: the state stays, and a grant finds the gate open
and leaves it with a permit out. -/
def Answered (g : Gate ι) (r : Gate ι × Answer) : Prop :=
  r.1.state = g.state ∧
    if r.2 = .granted then g.state = .working ∧ g.inFlight = false ∧ r.1.inFlight = true
    else r.1.inFlight = g.inFlight

theorem answered_look (g : Gate ι) : g.Answered g.look := by
  by_cases h : g.isOpen = true
  · have hopen : g.state = .working ∧ g.inFlight = false := by simpa [isOpen] using h
    simp [Answered, look, h, hopen]
  · simp [Answered, look, h]

theorem answered_enter (g : Gate ι) (i : ι) : g.Answered (g.enter i) := by
  have h := g.answered_look
  unfold enter
  split
  · next inside hl => rwa [hl] at h
  · next outside answer hne hl =>
    rw [hl] at h
    obtain ⟨hs, hf⟩ := h
    rw [if_neg hne] at hf
    exact ⟨hs, by simpa using hf⟩

theorem answered_poll [DecidableEq ι] (g : Gate ι) (i : ι) (cancelled : Bool) :
    g.Answered (g.poll i cancelled) := by
  unfold poll
  cases cancelled with
  | true => simp [Answered]
  | false =>
    simp only [Bool.false_eq_true, ↓reduceIte]
    cases hh : g.hear? i with
    | none => simp [Answered]
    | some heard =>
      obtain ⟨hs, hf⟩ := hear?_keeps hh
      have he := heard.answered_enter i
      unfold Answered at he ⊢
      rwa [hs, hf] at he

end Gate

namespace Crowd

/-- Exactly the permits that are alive are in flight. While the processor drains there is one,
and once it has stopped there is none. -/
structure Exclusive (c : Crowd ι) : Prop where
  counted : c.permits.length = if c.gate.inFlight then 1 else 0
  draining : c.gate.state = .stopping → c.gate.inFlight = true
  drained : c.gate.state = .stopped → c.gate.inFlight = false

theorem exclusive_gather (workOnStartup : Bool) : Exclusive (gather workOnStartup : Crowd ι) := by
  cases workOnStartup <;> constructor <;> simp [gather, Gate.new]

theorem Exclusive.of_keeps {c d : Crowd ι} (h : c.Exclusive) (hp : d.permits = c.permits)
    (hs : d.gate.state = c.gate.state) (hf : d.gate.inFlight = c.gate.inFlight) :
    d.Exclusive := by
  constructor
  · rw [hp, hf]
    exact h.counted
  · rw [hs, hf]
    exact h.draining
  · rw [hs, hf]
    exact h.drained

theorem Exclusive.answer {c : Crowd ι} (h : c.Exclusive) (i : ι) {r : Gate ι × Answer}
    (hr : c.gate.Answered r) : (c.answer i r).Exclusive := by
  obtain ⟨hs, hg⟩ := hr
  by_cases ha : r.2 = .granted
  · rw [if_pos ha] at hg
    obtain ⟨hw, hfree, hbusy⟩ := hg
    -- A grant finds the flag down, and the flag counts the permits.
    have hnone : c.permits.length = 0 := by simpa [hfree] using h.counted
    constructor <;> simp [Crowd.answer, ha, hs, hw, hbusy, hnone]
  · rw [if_neg ha] at hg
    exact h.of_keeps (by simp [Crowd.answer, ha]) hs hg

theorem open_of_answer {c d : Crowd ι} {i : ι} {r : Gate ι × Answer}
    (hd : d.permits = c.permits) (hr : c.gate.Answered r)
    (h : c.permits.length < (d.answer i r).permits.length) :
    c.gate.state = .working ∧ c.gate.inFlight = false := by
  by_cases ha : r.2 = .granted
  · rw [Gate.Answered, if_pos ha] at hr
    exact ⟨hr.2.1, hr.2.2.1⟩
  · simp [Crowd.answer, ha, hd] at h

variable [DecidableEq ι]

theorem Exclusive.step {c : Crowd ι} (h : c.Exclusive) (move : Move ι) :
    (c.step move).Exclusive := by
  cases move with
  | start =>
    constructor
    · simpa [Crowd.step] using h.counted
    · intro hs
      simp only [Crowd.step, Gate.start_state, Gate.start_inFlight] at hs ⊢
      split at hs
      · cases hs
      · exact h.draining hs
    · intro hs
      simp only [Crowd.step, Gate.start_state] at hs
      split at hs
      · cases hs
      · contradiction
  | stop =>
    constructor
    · simpa [Crowd.step] using h.counted
    · intro hs
      simp only [Crowd.step, Gate.finishAndStop_state, Gate.finishAndStop_inFlight] at hs ⊢
      split at hs
      · split at hs
        · assumption
        · cases hs
      · exact h.draining hs
    · intro hs
      simp only [Crowd.step, Gate.finishAndStop_state, Gate.finishAndStop_inFlight] at hs ⊢
      split at hs
      · split at hs
        · cases hs
        · next hf => simpa using hf
      · exact h.drained hs
  | poll i cancelled =>
    simp only [Crowd.step]
    split
    · exact h
    · exact h.answer i (c.gate.answered_poll i cancelled)
  | hear i =>
    simp only [Crowd.step]
    split
    · exact h
    · split
      · next heard hh =>
        obtain ⟨hs, hf⟩ := Gate.hear?_keeps hh
        exact h.of_keeps rfl hs hf
      · exact h
  | look i =>
    simp only [Crowd.step]
    split
    · have hl : ({ c with looking := c.looking.erase i } : Crowd ι).Exclusive :=
        h.of_keeps rfl rfl rfl
      exact hl.answer i c.gate.answered_look
    · exact h
  | abort i =>
    simp only [Crowd.step]
    split
    · exact h
    · exact h.of_keeps rfl (by simp) (by simp)
  | release i =>
    simp only [Crowd.step]
    split
    · next hi =>
      have hpos := List.length_pos_of_mem hi
      have hone : c.permits.length = 1 := by
        have hc := h.counted
        split at hc <;> omega
      constructor
      · simp [List.length_erase_of_mem hi, hone]
      · intro hs
        simp only [Gate.release_state] at hs
        split at hs
        · cases hs
        · contradiction
      · simp
    · exact h

theorem Exclusive.run {c : Crowd ι} (h : c.Exclusive) (moves : List (Move ι)) :
    (c.run moves).Exclusive := by
  induction moves generalizing c with
  | nil => exact h
  | cons move rest ih => exact ih (h.step move)

/-- Only a call that finds the gate open adds to the permits. -/
theorem open_of_permits_lt {c : Crowd ι} {move : Move ι}
    (h : c.permits.length < (c.step move).permits.length) :
    c.gate.state = .working ∧ c.gate.inFlight = false := by
  cases move with
  | start => simp [Crowd.step] at h
  | stop => simp [Crowd.step] at h
  | poll i cancelled =>
    simp only [Crowd.step] at h
    split at h
    · simp at h
    · exact open_of_answer rfl (c.gate.answered_poll i cancelled) h
  | hear i =>
    simp only [Crowd.step] at h
    split at h
    · simp at h
    · split at h <;> simp at h
  | look i =>
    simp only [Crowd.step] at h
    split at h
    · exact open_of_answer rfl c.gate.answered_look h
    · simp at h
  | abort i =>
    simp only [Crowd.step] at h
    split at h <;> simp at h
  | release i =>
    simp only [Crowd.step] at h
    split at h
    · have hle : (c.permits.erase i).length ≤ c.permits.length := List.length_erase_le
      simp only at h
      omega
    · simp at h

/-- After any run of moves at most one permit is alive, the gate is in flight exactly while one
is, a processor that drains has one and one that has stopped has none; and any move that grants
a permit finds the processor at work and no permit alive. -/
theorem permits_exclusive (workOnStartup : Bool) (moves : List (Move ι)) :
    let c := (gather workOnStartup : Crowd ι).run moves
    c.permits.length ≤ 1 ∧
    (c.gate.inFlight = true ↔ c.permits.length = 1) ∧
    (c.gate.state = .stopping → c.permits.length = 1) ∧
    (c.gate.state = .stopped → c.permits = []) ∧
    ∀ move, c.permits.length < (c.step move).permits.length →
      c.gate.state = .working ∧ c.permits = [] := by
  intro c
  have h : c.Exclusive := (exclusive_gather workOnStartup).run moves
  have counted := h.counted
  have empty : c.gate.inFlight = false → c.permits = [] := by
    intro hf
    simpa [hf] using counted
  refine ⟨?_, ?_, ?_, ?_, ?_⟩
  · split at counted <;> omega
  · cases hf : c.gate.inFlight <;> simp [hf, counted]
  · intro hs
    simpa [h.draining hs] using counted
  · intro hs
    exact empty (h.drained hs)
  · intro move hlt
    obtain ⟨hw, hf⟩ := open_of_permits_lt hlt
    exact ⟨hw, empty hf⟩

end Crowd
end WorkQueue
