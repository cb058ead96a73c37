import Mathlib.Data.Rat.Floor
import WorkQueue.Database.Connection

/-! # Windows in whole seconds

A database takes a window as a number of seconds. The count of seconds is raised by one for a part
of a second in 64 bits, before it is limited to 32. So a window is rounded up as long as 64 bits can
count the seconds that it has begun; one that reaches into the second after the last is sent as none
at all.
-/
namespace WorkQueue

namespace Duration
variable {d e : Duration}

/-- How many seconds a span has begun. -/
def begunSeconds (d : Duration) : Nat := d.seconds.toNat + if 0 < d.nanos then 1 else 0

theorem ceil_toNanos (d : Duration) : ⌈(d.toNanos : ℚ) / nanosPerSecond⌉₊ = d.begunSeconds := by
  have second : (0 : ℚ) < nanosPerSecond := by norm_num [nanosPerSecond]
  have short := d.nanos_lt
  unfold begunSeconds
  by_cases part : 0 < d.nanos
  · rw [if_pos part, Nat.ceil_eq_iff (Nat.succ_ne_zero _)]
    constructor
    · rw [lt_div_iff₀ second]
      have below : d.seconds.toNat * nanosPerSecond < d.toNanos := by
        unfold toNanos
        omega
      exact_mod_cast below
    · rw [div_le_iff₀ second]
      have above : d.toNanos ≤ (d.seconds.toNat + 1) * nanosPerSecond := by
        unfold toNanos nanosPerSecond
        omega
      exact_mod_cast above
  · have whole : d.toNanos = d.seconds.toNat * nanosPerSecond := by
      unfold toNanos
      omega
    rw [if_neg part, whole, Nat.cast_mul, mul_div_cancel_right₀ _ second.ne', Nat.ceil_natCast,
      Nat.add_zero]

theorem begunSeconds_mono (h : e.toNanos ≤ d.toNanos) : e.begunSeconds ≤ d.begunSeconds := by
  have second : (0 : ℚ) < nanosPerSecond := by norm_num [nanosPerSecond]
  rw [← ceil_toNanos, ← ceil_toNanos]
  exact Nat.ceil_le_ceil (div_le_div_of_nonneg_right (Nat.cast_le.mpr h) second.le)

theorem begunSeconds_eq_zero : d.begunSeconds = 0 ↔ d.toNanos = 0 := by
  unfold begunSeconds toNanos nanosPerSecond
  split <;> omega

/-- Only of a span that is longer than the last count can 64 bits not count the seconds begun. -/
theorem le_begunSeconds_iff :
    2 ^ 64 ≤ d.begunSeconds ↔ d.seconds.toNat = 2 ^ 64 - 1 ∧ 0 < d.nanos := by
  have counted := d.seconds.toNat_lt
  unfold begunSeconds
  split <;> omega

theorem toNat_wholeSeconds (d : Duration) :
    d.wholeSeconds.toNat = min (d.begunSeconds % 2 ^ 64) 2147483647 := by
  have sum : (d.seconds + if 0 < d.nanos then 1 else 0).toNat = d.begunSeconds % 2 ^ 64 := by
    unfold begunSeconds
    split <;> simp
  have limit : maxInt32.toNat = 2147483647 := rfl
  unfold wholeSeconds
  simp only [UInt64.le_iff_toNat_le, sum, limit]
  split
  · next fits => rw [sum, Nat.min_eq_left fits]
  · next exceeds => rw [limit, Nat.min_eq_right (Nat.le_of_not_le exceeds)]

theorem toNat_wholeSeconds_of_lt (h : d.begunSeconds < 2 ^ 64) :
    d.wholeSeconds.toNat = min d.begunSeconds 2147483647 := by
  rw [toNat_wholeSeconds, Nat.mod_eq_of_lt h]

/-- The first second that 64 bits cannot count makes the count start over. -/
theorem toNat_wholeSeconds_of_le (h : 2 ^ 64 ≤ d.begunSeconds) : d.wholeSeconds.toNat = 0 := by
  obtain ⟨last, part⟩ := le_begunSeconds_iff.mp h
  have first : d.begunSeconds = 2 ^ 64 := by
    unfold begunSeconds
    rw [if_pos part, last]
    rfl
  rw [toNat_wholeSeconds, first, Nat.mod_self, Nat.zero_min]

theorem toNat_wholeSeconds_eq_iff :
    d.wholeSeconds.toNat = min d.begunSeconds 2147483647 ↔ d.begunSeconds < 2 ^ 64 := by
  rcases Nat.lt_or_ge d.begunSeconds (2 ^ 64) with fits | beyond
  · exact iff_of_true (toNat_wholeSeconds_of_lt fits) fits
  · refine iff_of_false ?_ (Nat.not_lt.mpr beyond)
    rw [toNat_wholeSeconds_of_le beyond]
    omega

theorem toNat_wholeSeconds_eq_zero :
    d.wholeSeconds.toNat = 0 ↔ d.toNanos = 0 ∨ 2 ^ 64 ≤ d.begunSeconds := by
  rw [← begunSeconds_eq_zero]
  rcases Nat.lt_or_ge d.begunSeconds (2 ^ 64) with fits | beyond
  · rw [toNat_wholeSeconds_of_lt fits]
    omega
  · exact iff_of_true (toNat_wholeSeconds_of_le beyond) (.inr beyond)

theorem toNat_wholeSeconds_le_iff (h : e.toNanos ≤ d.toNanos) :
    e.wholeSeconds.toNat ≤ d.wholeSeconds.toNat ↔
      d.begunSeconds < 2 ^ 64 ∨ e.wholeSeconds.toNat = 0 := by
  rcases Nat.lt_or_ge d.begunSeconds (2 ^ 64) with fits | beyond
  · have less := begunSeconds_mono h
    refine iff_of_true ?_ (.inl fits)
    rw [toNat_wholeSeconds_of_lt (less.trans_lt fits), toNat_wholeSeconds_of_lt fits]
    exact min_le_min_right _ less
  · rw [toNat_wholeSeconds_of_le beyond, Nat.le_zero, or_iff_right (Nat.not_lt.mpr beyond)]

end Duration

namespace Database
open Duration

/-- A delay and an invisibility window go to the database as a number of seconds. It is the length
of the window, rounded up and limited to 32 signed bits, exactly if 64 bits can count the seconds
that the window has begun, and they can unless the window has a part of a second on top of the
longest count. The number is zero for no window and for those windows, and they alone may be sent as
a lower number than a shorter window. -/
theorem window_exact_iff (session : Session) (queue body : String) (d : Duration) :
    let begun := ⌈(d.toNanos : ℚ) / nanosPerSecond⌉₊
    (session.send queue body d).1.statements.getLast?.map Statement.parameters =
      some [.text queue, .text body, .integer d.wholeSeconds.toNat] ∧
    (session.receive queue d).1.statements.getLast?.map Statement.parameters =
      some [.text queue, .integer d.wholeSeconds.toNat] ∧
    (d.wholeSeconds.toNat = min begun 2147483647 ↔ begun < 2 ^ 64) ∧
    (2 ^ 64 ≤ begun ↔ d.seconds.toNat = 2 ^ 64 - 1 ∧ 0 < d.nanos) ∧
    (d.wholeSeconds.toNat = 0 ↔ d.toNanos = 0 ∨ 2 ^ 64 ≤ begun) ∧
    ∀ e : Duration, e.toNanos ≤ d.toNanos →
      (e.wholeSeconds.toNat ≤ d.wholeSeconds.toNat ↔
        begun < 2 ^ 64 ∨ e.wholeSeconds.toNat = 0) := by
  intro begun
  have counted : begun = d.begunSeconds := d.ceil_toNanos
  rw [counted]
  refine ⟨?sent, ?received, toNat_wholeSeconds_eq_iff, le_begunSeconds_iff,
    toNat_wholeSeconds_eq_zero, fun e shorter => toNat_wholeSeconds_le_iff shorter⟩
  case sent => simp [Session.send, Session.query, Session.execute, Statement.send, Statement.span]
  case received =>
    simp [Session.receive, Session.query, Session.execute, Statement.receive, Statement.span]

/-- A nanosecond on top of the longest count of seconds, and the window is sent as none. -/
theorem window_lost_of_longest :
    let count := Duration.ofSeconds 18446744073709551615
    let longer : Duration := ⟨18446744073709551615, 1, by decide⟩
    (({} : Session).send "q" "x" longer).1.statements.map Statement.parameters =
        [[.text "q", .text "x", .integer 0]] ∧
      (({} : Session).receive "q" longer).1.statements.map Statement.parameters =
        [[.text "q", .integer 0]] ∧
      min ⌈(longer.toNanos : ℚ) / nanosPerSecond⌉₊ 2147483647 = 2147483647 ∧
      count.toNanos < longer.toNanos ∧ longer.wholeSeconds < count.wholeSeconds := by
  intro count longer
  refine ⟨by decide +kernel, by decide +kernel, ?_, by decide +kernel, by decide +kernel⟩
  rw [ceil_toNanos]
  decide +kernel

end Database
end WorkQueue
