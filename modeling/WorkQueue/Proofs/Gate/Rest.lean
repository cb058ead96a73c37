import Mathlib.Data.Bool.Count
import Mathlib.Data.List.Basic
import WorkQueue.Gate.Attendance
import WorkQueue.Proofs.Gate.Presence
import WorkQueue.Proofs.Gate.Wakeup

/-! # Waiting calls come to rest

A wake-up that is issued is looked with at most once, whoever passes it on before. So calls are
woken in vain no more often than wake-ups are issued and not spent on permits. Calls that are left
to themselves soon wait or have their permits: to hear a wake-up, to look and to come back each use
up a part of what is outstanding.
-/
namespace WorkQueue
variable {ι : Type}

namespace Gate
variable {g heard : Gate ι} {i : ι}

/-- The wake-ups that a gate stores and that woken calls hold. -/
def outstanding (g : Gate ι) : Nat := g.stored.toNat + g.woken.length

theorem outstanding_wake_le : g.wake.outstanding ≤ g.outstanding + 1 := by
  unfold wake
  cases g.waiting with
  | nil =>
    simp only [outstanding, Bool.toNat_true]
    omega
  | cons i rest =>
    simp only [outstanding, List.length_append, List.length_singleton]
    omega

theorem outstanding_start_le :
    g.start.1.outstanding ≤ g.outstanding + if g.state = .stopped then 1 else 0 := by
  unfold start
  cases g.state with
  | stopped => exact outstanding_wake_le
  | stopping => exact Nat.le_refl _
  | working => exact Nat.le_refl _

@[simp] theorem outstanding_finishAndStop : g.finishAndStop.1.outstanding = g.outstanding := by
  unfold finishAndStop
  split
  · split <;> rfl
  · rfl

theorem outstanding_release_le :
    g.release.1.outstanding ≤ g.outstanding + if g.state = .working then 1 else 0 := by
  unfold release
  cases g.state with
  | working => exact outstanding_wake_le
  | stopping => exact Nat.le_refl _
  | stopped => exact Nat.le_refl _

@[simp] theorem outstanding_look : g.look.1.outstanding = g.outstanding := by
  unfold look
  split <;> rfl

@[simp] theorem holds_look [DecidableEq ι] : g.look.1.holds i = g.holds i := by
  unfold look
  split <;> rfl

theorem look_granted_iff : g.look.2 = .granted ↔ g.isOpen = true := by
  unfold look
  split <;> simp_all

/-- A call that runs on uses up the wake-up that it has heard and one more for every further
look. -/
theorem outstanding_enter (g : Gate ι) (i : ι) :
    (g.enter i).1.outstanding + g.looks.length = g.outstanding + 1 := by
  unfold enter look looks
  by_cases ho : g.isOpen = true
  · simp [ho, outstanding]
  · cases hs : g.stored with
    | true =>
      simp [ho, hs, outstanding]
      omega
    | false => simp [ho, hs, outstanding]

theorem length_looks_pos (g : Gate ι) : 0 < g.looks.length := by
  unfold looks
  split
  · exact Nat.one_pos
  · split <;> exact Nat.succ_pos _

theorem count_looks (g : Gate ι) (i : ι) :
    g.looks.count true = if (g.enter i).2 = .granted then 1 else 0 := by
  unfold enter look looks
  by_cases ho : g.isOpen = true
  · simp [ho]
  · cases hs : g.stored <;> simp [ho]

variable [DecidableEq ι]

/-- A call that leaves passes its wake-up on. -/
theorem outstanding_drop_le (i : ι) : (g.drop i).outstanding ≤ g.outstanding := by
  unfold drop
  split
  · next held =>
    have passed := outstanding_wake_le (g := { g with woken := g.woken.erase i })
    have fewer := List.length_erase_add_one held
    unfold outstanding at passed ⊢
    dsimp only at passed
    omega
  · exact Nat.le_refl _

theorem outstanding_hear? (h : g.hear? i = some heard) :
    heard.outstanding + 1 = g.outstanding := by
  obtain ⟨held, rfl⟩ | ⟨-, -, stored, rfl⟩ := hear?_cases h
  · have fewer := List.length_erase_add_one held
    simp only [outstanding]
    omega
  · simp only [outstanding, stored, Bool.toNat_true, Bool.toNat_false]
    omega

@[simp] theorem outstanding_await (i : ι) : (g.await i).outstanding = g.outstanding := by
  unfold await
  split <;> rfl

end Gate

namespace Crowd
variable {c : Crowd ι}

/-- The wake-ups that have been issued and not yet been looked with. -/
def outstanding (c : Crowd ι) : Nat := c.gate.outstanding + c.looking.length

@[simp] theorem answer_gate (i : ι) (r : Gate ι × Answer) : (c.answer i r).gate = r.1 := rfl

@[simp] theorem answer_looking (i : ι) (r : Gate ι × Answer) :
    (c.answer i r).looking = c.looking := rfl

theorem outstanding_answer (i : ι) (r : Gate ι × Answer) :
    (c.answer i r).outstanding = r.1.outstanding + c.looking.length := rfl

/-- Exactly the answer that grants adds a permit. -/
theorem length_lt_permits_answer {d : Crowd ι} (same : d.permits = c.permits) (i : ι)
    (r : Gate ι × Answer) :
    c.permits.length < (d.answer i r).permits.length ↔ r.2 = .granted := by
  unfold answer
  split <;> simp_all

variable [DecidableEq ι]

/-- A permit is granted exactly by a look that finds the gate open. -/
theorem grants_eq (c : Crowd ι) (move : Move ι) : c.grants move = (c.looks move).count true := by
  unfold grants
  cases move with
  | start => simp [step, looks]
  | stop => simp [step, looks]
  | poll i cancelled =>
    by_cases hl : i ∈ c.looking
    · cases cancelled <;> simp [step, looks, hl]
    · simp only [step, if_neg hl, length_lt_permits_answer]
      cases cancelled with
      | true => simp [Gate.poll, looks]
      | false =>
        cases hh : c.gate.hear? i with
        | some heard => simp [Gate.poll, looks, hl, hh, heard.count_looks i]
        | none => simp [Gate.poll, looks, hl, hh]
  | hear i =>
    simp only [step, looks]
    split
    · simp
    · split <;> simp
  | look i =>
    by_cases hl : i ∈ c.looking
    · simp only [step, looks, if_pos hl, length_lt_permits_answer, Gate.look_granted_iff]
      cases c.gate.isOpen <;> simp
    · simp [step, looks, hl]
  | abort i =>
    simp only [step, looks]
    split <;> simp
  | release i =>
    simp only [step, looks]
    split
    · next held =>
      have fewer := List.length_erase_add_one held
      simp only [List.count_nil, ite_eq_right_iff]
      omega
    · simp

theorem vain_add_grants (c : Crowd ι) (move : Move ι) :
    c.vain move + c.grants move = (c.looks move).length := by
  rw [vain, grants_eq, Nat.add_comm, List.count_true_add_count_false]

/-- A move uses up a wake-up for each look and issues at most those that it is said to. -/
theorem outstanding_step_le (c : Crowd ι) (move : Move ι) :
    (c.step move).outstanding + (c.looks move).length ≤ c.outstanding + c.issues move := by
  cases move with
  | start =>
    have issued := c.gate.outstanding_start_le
    simp only [step, looks, issues, outstanding, List.length_nil]
    omega
  | stop => simp [step, looks, issues, outstanding]
  | poll i cancelled =>
    by_cases hl : i ∈ c.looking
    · cases cancelled <;> simp [step, looks, hl]
    · simp only [step, if_neg hl, outstanding_answer, issues]
      cases cancelled with
      | true =>
        have passed := c.gate.outstanding_drop_le i
        simp only [Gate.poll, looks, outstanding, List.length_nil, ↓reduceIte]
        omega
      | false =>
        cases hh : c.gate.hear? i with
        | some heard =>
          have used := heard.outstanding_enter i
          have fewer := Gate.outstanding_hear? hh
          simp only [Gate.poll, looks, hl, hh, outstanding, Bool.false_eq_true, ↓reduceIte]
          omega
        | none => simp [Gate.poll, looks, hl, hh, outstanding]
  | hear i =>
    simp only [step, looks, issues, List.length_nil]
    split
    · exact Nat.le_refl _
    · split
      · next heard hh =>
        have fewer := Gate.outstanding_hear? hh
        simp only [outstanding, List.length_cons]
        omega
      · exact Nat.le_refl _
  | look i =>
    simp only [step, looks, issues]
    split
    · next hl =>
      have fewer := List.length_erase_add_one hl
      rw [outstanding_answer, Gate.outstanding_look, List.length_singleton, outstanding]
      dsimp only
      omega
    · exact Nat.le_refl _
  | abort i =>
    simp only [step, looks, issues, List.length_nil]
    split
    · exact Nat.le_refl _
    · have passed := c.gate.outstanding_drop_le i
      simp only [outstanding]
      omega
  | release i =>
    simp only [step, looks, issues, List.length_nil]
    split
    · next held =>
      have issued := c.gate.outstanding_release_le
      simp only [held, true_and, outstanding]
      omega
    · exact Nat.le_add_right _ _

/-- In any run what is issued covers what is granted, what is woken in vain and what is left. -/
theorem outstanding_run_le (c : Crowd ι) (moves : List (Move ι)) :
    (c.run moves).outstanding + (c.total vain moves + c.total grants moves) ≤
      c.outstanding + c.total issues moves := by
  -- By induction on the run, with what is outstanding at its beginning left open.
  induction moves generalizing c with
  | nil => exact Nat.le_refl _
  | cons move rest ih =>
    have one := c.outstanding_step_le move
    have others := ih (c.step move)
    rw [← vain_add_grants] at one
    simp only [run, List.foldl_cons, total] at others ⊢
    omega

end Crowd

/-- The call that makes a move. -/
def Move.caller? : Move ι → Option ι
  | .poll i _ | .hear i | .look i | .abort i => some i
  | .start | .stop | .release _ => none

namespace Attendance

/-- A bound on the moves that the calls under way can still make by themselves: a wake-up is heard,
looked with and followed by the way back. -/
def effort (a : Attendance ι) : Nat :=
  3 * a.crowd.gate.outstanding + 2 * a.crowd.looking.length + a.returning.length

theorem effort_le (a : Attendance ι) : a.effort ≤ 3 * a.crowd.outstanding + a.returning.length := by
  unfold effort Crowd.outstanding
  omega

theorem outstanding_gather (workOnStartup : Bool) :
    (gather workOnStartup : Attendance ι).crowd.outstanding = workOnStartup.toNat := by
  cases workOnStartup <;> rfl

variable [DecidableEq ι] {a : Attendance ι} {move : Move ι} {moves : List (Move ι)} {i : ι}

@[simp] theorem run_crowd (a : Attendance ι) (moves : List (Move ι)) :
    (a.run moves).crowd = a.crowd.run moves := by
  induction moves generalizing a with
  | nil => rfl
  | cons move rest ih => exact ih (a.step move)

theorem effort_step_lt (h : a.Goes move) : (a.step move).effort < a.effort := by
  cases h with
  | @poll i idle able =>
    have back : (a.returning.erase i).length ≤ a.returning.length := List.length_erase_le
    simp only [step, Crowd.step, returningAfter, idle, ↓reduceIte, effort, Crowd.answer]
    cases hh : a.crowd.gate.hear? i with
    | some heard =>
      have fewer := Gate.outstanding_hear? hh
      have used := heard.outstanding_enter i
      have looked := heard.length_looks_pos
      simp only [Gate.poll, hh, Bool.false_eq_true, ↓reduceIte]
      omega
    | none =>
      -- Without a wake-up it was on its way back, and now it waits.
      have held : i ∈ a.returning := able.resolve_left (Gate.hear?_eq_none hh).1
      have arrived := List.length_erase_add_one held
      simp only [Gate.poll, hh, Bool.false_eq_true, ↓reduceIte, Gate.outstanding_await]
      omega
  | @hear i heard idle able hears =>
    have fewer := Gate.outstanding_hear? hears
    have back : (a.returning.erase i).length ≤ a.returning.length := List.length_erase_le
    simp only [step, Crowd.step, returningAfter, idle, hears, ↓reduceIte, effort, List.length_cons]
    omega
  | @look i heard =>
    -- A look in vain puts the call on its way back, which costs less than the look did.
    have fewer := List.length_erase_add_one heard
    have back : (a.returningAfter (.look i)).length ≤ a.returning.length + 1 := by
      unfold returningAfter
      dsimp only
      split
      · exact Nat.le_refl _
      · exact Nat.le_succ _
    simp only [step, Crowd.step, heard, ↓reduceIte, effort, Crowd.answer, Gate.outstanding_look]
    omega

theorem length_add_effort_le (h : a.Proceeds moves) :
    moves.length + (a.run moves).effort ≤ a.effort := by
  induction moves generalizing a with
  | nil => simp [run]
  | cons move rest ih =>
    have less := effort_step_lt h.1
    have others := ih h.2
    simp only [run, List.foldl_cons, List.length_cons] at others ⊢
    omega

/-- A call under way that cannot go on changes nothing when it runs. -/
theorem UnderWay.goes_or_same (h : a.UnderWay i)
    (own : move = .poll i false ∨ move = .hear i ∨ move = .look i) :
    a.Goes move ∨ a.step move = a := by
  by_cases hl : i ∈ a.crowd.looking
  · rcases own with rfl | rfl | rfl
    · exact .inr (by simp [step, Crowd.step, returningAfter, hl])
    · exact .inr (by simp [step, Crowd.step, returningAfter, hl])
    · exact .inl (.look hl)
  by_cases able : i ∈ a.crowd.gate.woken ∨ i ∈ a.returning
  · rcases own with rfl | rfl | rfl
    · exact .inl (.poll hl able)
    · cases hh : a.crowd.gate.hear? i with
      | some heard => exact .inl (.hear hl able hh)
      | none => exact .inr (by simp [step, Crowd.step, returningAfter, hl, hh])
    · exact .inr (by simp [step, Crowd.step, returningAfter, hl])
  · -- It waits, and nothing has woken it.
    obtain ⟨asleep, elsewhere⟩ := not_or.mp able
    have waits : i ∈ a.crowd.gate.waiting :=
      (Gate.holds_iff.mp (h.resolve_right (not_or.mpr ⟨hl, elsewhere⟩))).resolve_right asleep
    have silent : a.crowd.gate.hear? i = none := by simp [Gate.hear?, asleep, waits]
    rcases own with rfl | rfl | rfl
    · simp [step, Crowd.step, returningAfter, hl, Gate.poll, silent, Gate.await, waits,
        Crowd.answer, List.erase_of_not_mem elsewhere]
    · simp [step, Crowd.step, returningAfter, hl, silent]
    · simp [step, Crowd.step, returningAfter, hl]

theorem UnderWay.step_of_ne (h : a.UnderWay i) (other : move.caller? ≠ some i) :
    (a.step move).UnderWay i := by
  cases move with
  | start => simpa [UnderWay, Attendance.step, Crowd.step, returningAfter] using h
  | stop => simpa [UnderWay, Attendance.step, Crowd.step, returningAfter] using h
  | poll j cancelled =>
    have ne : i ≠ j := fun same => other (congrArg some same.symm)
    by_cases hl : j ∈ a.crowd.looking
    · simpa [UnderWay, Attendance.step, Crowd.step, returningAfter, hl] using h
    · simp only [UnderWay, Attendance.step, Crowd.step, returningAfter, if_neg hl,
        Crowd.answer_gate, Crowd.answer_looking, List.mem_erase_of_ne ne]
      exact h.imp_left (Gate.holds_poll_of_ne ne)
  | hear j =>
    have ne : i ≠ j := fun same => other (congrArg some same.symm)
    by_cases hl : j ∈ a.crowd.looking
    · simpa [UnderWay, Attendance.step, Crowd.step, returningAfter, hl] using h
    · cases hh : a.crowd.gate.hear? j with
      | none => simpa [UnderWay, Attendance.step, Crowd.step, returningAfter, hl, hh] using h
      | some heard =>
        simpa [UnderWay, Attendance.step, Crowd.step, returningAfter, hl, hh, ne,
          Gate.holds_hear?_of_ne ne hh, List.mem_erase_of_ne ne] using h
  | look j =>
    have ne : i ≠ j := fun same => other (congrArg some same.symm)
    have back : i ∈ a.returning → i ∈ a.returningAfter (.look j) := by
      intro returning
      dsimp only [returningAfter]
      split
      · exact List.mem_cons_of_mem j returning
      · exact returning
    by_cases hl : j ∈ a.crowd.looking
    · simp only [UnderWay, Attendance.step, Crowd.step, if_pos hl, Crowd.answer_gate,
        Crowd.answer_looking, Gate.holds_look, List.mem_erase_of_ne ne]
      exact h.imp_right (Or.imp_right back)
    · simp only [UnderWay, Attendance.step, Crowd.step, if_neg hl]
      exact h.imp_right (Or.imp_right back)
  | abort j =>
    have ne : i ≠ j := fun same => other (congrArg some same.symm)
    by_cases hl : j ∈ a.crowd.looking <;>
      simpa [UnderWay, Attendance.step, Crowd.step, returningAfter, hl, Gate.holds_drop_of_ne ne,
        List.mem_erase_of_ne ne] using h
  | release j =>
    by_cases hp : j ∈ a.crowd.permits <;>
      simpa [UnderWay, Attendance.step, Crowd.step, returningAfter, hp] using h

/-- A call stays under way until it is refused, dropped or granted a permit. -/
theorem UnderWay.step (h : a.UnderWay i) (move : Move ι) :
    (a.step move).UnderWay i ∨ move = .poll i true ∨ move = .abort i ∨
      (a.step move).crowd.permits = i :: a.crowd.permits := by
  by_cases own : move.caller? = some i
  case neg => exact .inl (h.step_of_ne own)
  cases move with
  | start => cases own
  | stop => cases own
  | release j => cases own
  | abort j =>
    cases own
    exact .inr (.inr (.inl rfl))
  | poll j cancelled =>
    cases own
    cases cancelled with
    | true => exact .inr (.inl rfl)
    | false =>
      by_cases hl : i ∈ a.crowd.looking
      · exact .inl (.inr (.inl (by simp [Attendance.step, Crowd.step, hl])))
      · rcases a.crowd.gate.granted_or_holds_poll (i := i) with granted | held
        · exact .inr (.inr (.inr (by
            simp [Attendance.step, Crowd.step, hl, Crowd.answer, granted])))
        · exact .inl (.inl (by simpa [Attendance.step, Crowd.step, hl] using held))
  | hear j =>
    cases own
    by_cases hl : i ∈ a.crowd.looking
    · exact .inl (.inr (.inl (by simp [Attendance.step, Crowd.step, hl])))
    · cases hh : a.crowd.gate.hear? i with
      | some heard => exact .inl (.inr (.inl (by simp [Attendance.step, Crowd.step, hl, hh])))
      | none =>
        left
        simpa [UnderWay, Attendance.step, Crowd.step, returningAfter, hl, hh] using h
  | look j =>
    cases own
    by_cases hl : i ∈ a.crowd.looking
    · cases ho : a.crowd.gate.isOpen with
      | true =>
        exact .inr (.inr (.inr (by
          simp [Attendance.step, Crowd.step, hl, Crowd.answer, Gate.look, ho])))
      | false => exact .inl (.inr (.inr (by simp [Attendance.step, returningAfter, hl, ho])))
    · left
      simpa [UnderWay, Attendance.step, Crowd.step, returningAfter, hl] using h

/-- After any run, calls have been woken in vain no more often than wake-ups were issued, by an
opening that works, by starts and by returns of permits, and not spent on permits. If nobody else
does anything from then on, the calls under way make no more moves than three for each wake-up that
is left and one for each call that is on its way back. A call under way that has no such move
changes nothing when it is run, and it stays under way until it is refused, dropped or granted a
permit. -/
theorem comes_to_rest (workOnStartup : Bool) (moves : List (Move ι)) :
    let opening : Attendance ι := gather workOnStartup
    let a := opening.run moves
    let issued := workOnStartup.toNat + opening.crowd.total Crowd.issues moves
    let granted := opening.crowd.total Crowd.grants moves
    let vain := opening.crowd.total Crowd.vain moves
    vain + granted ≤ issued ∧
    (∀ more, a.Proceeds more →
      more.length ≤ 3 * (issued - granted - vain) + a.returning.length) ∧
    ∀ i, a.UnderWay i →
      (∀ move, move = .poll i false ∨ move = .hear i ∨ move = .look i →
        a.Goes move ∨ a.step move = a) ∧
      ∀ move, (a.step move).UnderWay i ∨ move = .poll i true ∨ move = .abort i ∨
        (a.step move).crowd.permits = i :: a.crowd.permits := by
  intro opening a issued granted vain
  have covered : a.crowd.outstanding + (vain + granted) ≤ issued := by
    have spent := opening.crowd.outstanding_run_le moves
    rwa [outstanding_gather, ← run_crowd] at spent
  refine ⟨by omega, fun more proceeds => ?_, fun i h => ⟨fun _ => h.goes_or_same, h.step⟩⟩
  have bounded := length_add_effort_le proceeds
  have effort := a.effort_le
  omega

/-- The bound is met: the wake-up of a permit that comes back is used up in vain after a stop. -/
example :
    let c : Crowd Nat := .gather true
    let moves : List (Move Nat) :=
      [.poll 0 false, .poll 1 false, .release 0, .stop, .poll 1 false]
    c.total Crowd.vain moves = 1 ∧ c.total Crowd.grants moves = 1 ∧
      c.total Crowd.issues moves = 1 := by
  decide

end Attendance
end WorkQueue
