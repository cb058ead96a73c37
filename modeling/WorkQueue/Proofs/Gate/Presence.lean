import Mathlib.Data.List.Basic
import Mathlib.Tactic.Tauto
import WorkQueue.Gate

/-! # Who is at the gate

Waking moves nobody to the gate or away from it. A call comes to the gate only by its own run, and
it leaves only with its own answer, with a wake-up that it uses up or by being dropped.
-/
namespace WorkQueue

namespace Gate
variable {ι : Type} [DecidableEq ι] {g heard : Gate ι} {i j : ι}

theorem holds_iff : g.holds i = true ↔ i ∈ g.waiting ∨ i ∈ g.woken := by
  simp [holds]

@[simp] theorem holds_wake : g.wake.holds i = g.holds i := by
  unfold wake
  cases hw : g.waiting with
  | nil => simp [holds, hw]
  | cons first rest =>
    rw [Bool.eq_iff_iff]
    simp only [holds_iff, hw, List.mem_append, List.mem_cons, List.not_mem_nil, or_false]
    tauto

@[simp] theorem holds_start : g.start.1.holds i = g.holds i := by
  unfold start
  split
  · exact holds_wake
  · rfl
  · rfl

@[simp] theorem holds_finishAndStop : g.finishAndStop.1.holds i = g.holds i := by
  unfold finishAndStop
  split
  · split <;> rfl
  · rfl

@[simp] theorem holds_release : g.release.1.holds i = g.holds i := by
  unfold release
  split
  · rfl
  · exact holds_wake
  · rfl

theorem holds_of_drop (h : (g.drop j).holds i = true) : g.holds i = true := by
  unfold drop at h
  split at h
  · rw [holds_wake] at h
    exact holds_iff.mpr ((holds_iff.mp h).imp_right List.mem_of_mem_erase)
  · exact holds_iff.mpr ((holds_iff.mp h).imp_left List.mem_of_mem_erase)

theorem holds_drop_of_ne (ne : i ≠ j) : (g.drop j).holds i = g.holds i := by
  unfold drop
  split
  · rw [holds_wake]
    simp [holds, List.mem_erase_of_ne ne]
  · simp [holds, List.mem_erase_of_ne ne]

theorem holds_hear?_of_ne (ne : i ≠ j) (hh : g.hear? j = some heard) :
    heard.holds i = g.holds i := by
  obtain ⟨-, rfl⟩ | ⟨-, -, -, rfl⟩ := hear?_cases hh
  · simp [holds, List.mem_erase_of_ne ne]
  · rfl

theorem holds_enter :
    (g.enter j).1.holds i = true ↔ g.holds i = true ∨ g.isOpen = false ∧ i = j := by
  unfold enter look
  cases ho : g.isOpen with
  | true => simp [holds]
  | false =>
    simp only [Bool.false_eq_true, ↓reduceIte, holds_iff, List.mem_append, List.mem_singleton]
    tauto

theorem holds_await : (g.await j).holds i = true ↔ g.holds i = true ∨ i = j := by
  unfold await
  split
  · next waits =>
    refine ⟨.inl, fun h => h.elim id fun same => ?_⟩
    rw [same, holds_iff]
    exact .inl waits
  · simp only [holds_iff, List.mem_append, List.mem_singleton]
    tauto

/-- A call that is run adds at most itself to those at the gate. -/
theorem holds_of_poll {cancelled : Bool} (h : (g.poll j cancelled).1.holds i = true) :
    g.holds i = true ∨ i = j := by
  by_cases ne : i = j
  case pos => exact .inr ne
  unfold poll at h
  split at h
  · exact .inl ((holds_drop_of_ne ne).symm.trans h)
  · cases hh : g.hear? j with
    | some heard =>
      simp only [hh, holds_enter, holds_hear?_of_ne ne hh] at h
      exact h.imp_right And.right
    | none =>
      simp only [hh, holds_await] at h
      exact h

/-- A call that is run sends nobody else away. -/
theorem holds_poll_of_ne {cancelled : Bool} (ne : i ≠ j) (h : g.holds i = true) :
    (g.poll j cancelled).1.holds i = true := by
  unfold poll
  split
  · rwa [holds_drop_of_ne ne]
  · cases hh : g.hear? j with
    | some heard => exact holds_enter.mpr (.inl ((holds_hear?_of_ne ne hh).trans h))
    | none => exact holds_await.mpr (.inl h)

/-- A call that is run without being cancelled is granted a permit or stays at the gate. -/
theorem granted_or_holds_poll :
    (g.poll i false).2 = .granted ∨ (g.poll i false).1.holds i = true := by
  simp only [poll, Bool.false_eq_true, ↓reduceIte]
  cases g.hear? i with
  | some heard =>
    cases ho : heard.isOpen with
    | true => exact .inl (by simp [enter, look, ho])
    | false => exact .inr (holds_enter.mpr (.inr ⟨ho, rfl⟩))
  | none => exact .inr (holds_await.mpr (.inr rfl))

end Gate
end WorkQueue
