import WorkQueue.Proofs.Queue.Visibility

/-! # Visibility timestamps

The timestamp that a call leaves on a message and the end of its window are computed apart. They
agree as long as the running clock can hold the end of the window, and then no message comes back
before its timestamp. A window that the running clock cannot hold ends after 365 days, whatever the
timestamp says.
-/
namespace WorkQueue
variable {origin : Instant} {now later : Moment} {window : Duration}

/-- A window that the running clock can hold is not passed before its timestamp. -/
theorem calendarEnd_le (start : now.Agrees origin) (stop : later.Agrees origin)
    (fits : FitsClock now.running window) (passed : windowEnd now.running window ≤ later.running) :
    calendarEnd now.ofDay window ≤ later.ofDay := by
  rw [windowEnd_of_fits fits] at passed
  calc calendarEnd now.ofDay window ≤ now.ofDay + window.toNanos := Nat.min_le_left _ _
    _ = origin + (now.running + window.toNanos) := by rw [start, Nat.add_assoc]
    _ ≤ origin + later.running := Nat.add_le_add_left passed origin
    _ = later.ofDay := stop.symm

/-- Before its timestamp a window is passed exactly if the running clock could not hold it and 365
days have passed. -/
theorem over_before_timestamp_iff (start : now.Agrees origin) (stop : later.Agrees origin)
    (early : later.ofDay < calendarEnd now.ofDay window) :
    windowEnd now.running window ≤ later.running ↔
      ¬ FitsClock now.running window ∧ now.running + longWindow ≤ later.running := by
  constructor
  · intro passed
    have unfit : ¬ FitsClock now.running window := fun fits =>
      absurd (calendarEnd_le start stop fits passed) (Nat.not_le_of_lt early)
    exact ⟨unfit, windowEnd_of_not_fits unfit ▸ passed⟩
  · rintro ⟨unfit, passed⟩
    rwa [windowEnd_of_not_fits unfit]

/-- The window and the timestamp that a call leaves on a message; a delivery reports the latter. -/
theorem Served.covered {s t : QueueStore} {r : Record} {queue : String} {id : Int}
    (served : Served s r t) (covers : r.Covers queue id window) :
    ∃ m, t.message? queue id = some m ∧ m.visibleAt = windowEnd r.time.running window ∧
      m.visibleAgain = calendarEnd r.time.ofDay window ∧
      ∀ d, r.answer = .received (.ok (some d)) → d.visibleAgain = m.visibleAgain := by
  cases covers with
  | sent =>
    cases served with
    | idle receipt => cases receipt
    | accepts counter view => exact ⟨_, by rw [view, if_pos ⟨rfl, rfl⟩], rfl, rfl, by rintro d ⟨⟩⟩
  | delivered same =>
    subst same
    cases served with
    | idle receipt delivered => cases delivered
    | delivers held delivery view =>
      refine ⟨_, by rw [view, if_pos ⟨rfl, rfl⟩], rfl, rfl, ?_⟩
      rintro d ⟨⟩
      rw [delivery]
      rfl

namespace QueueStore
open History

variable {s : QueueStore} {queue : String} {id : Int} {until_ : Instant}

/-- A message that is out of sight is handed out by no call before it shows, and no call brings it
into sight. -/
theorem Hidden.perform (h : s.Hidden queue id until_) (hs : s.Ordered) (now : Moment)
    (call : ForeignCall) :
    (call.perform s now).1.Hidden queue id until_ ∧
      ((⟨now, call, (call.perform s now).2⟩ : Record).hands queue id = true →
        until_ ≤ now.running) := by
  have counter : id ≤ (call.perform s now).1.lastId :=
    Int.le_trans h.1 (ForeignCall.lastId_le_perform s now call)
  have served := served_perform hs now call
  generalize hanswer : (call.perform s now).2 = answer at served ⊢
  generalize (call.perform s now).1 = t at served counter ⊢
  cases served with
  | idle receipt delivered kept view =>
    refine ⟨⟨counter, fun m hm => h.2 m (view queue id ▸ hm)⟩, fun hands => ?_⟩
    rw [Record.hands_of_none delivered] at hands
    cases hands
  | accepts grown view =>
    refine ⟨⟨counter, fun m hm => ?_⟩, fun hands => by cases hands⟩
    have hid := h.1
    rw [view, if_neg (by omega)] at hm
    exact h.2 m hm
  | @delivers _ name window m d _ held delivery view =>
    have received : (s.receive now name window).2 = .ok (some d) := by
      rw [ForeignCall.perform_receive] at hanswer
      exact QueueAnswer.received.inj hanswer
    obtain ⟨⟨m', held', visible⟩, -⟩ := (receive_isLeast hs).mp ⟨d, received, rfl⟩
    rw [held] at held'
    cases held'
    refine ⟨⟨counter, fun n hn => ?_⟩, fun hands => ?_⟩
    · rw [view] at hn
      split at hn
      · next hit =>
        obtain ⟨rfl, rfl⟩ := hit
        cases hn
        exact ((h.2 m held).trans visible).trans (le_windowEnd now.running window)
      · exact h.2 n hn
    · obtain ⟨rfl, rfl⟩ : name = queue ∧ d.id = id := by
        simpa [Record.hands, Record.delivered?] using hands
      exact (h.2 m held).trans visible
  | removes view =>
    refine ⟨⟨counter, fun m hm => ?_⟩, fun hands => by cases hands⟩
    rw [view] at hm
    split at hm
    · cases hm
    · exact h.2 m hm

theorem serve_cons (s : QueueStore) (now : Moment) (call : ForeignCall)
    (rest : List (Moment × ForeignCall)) :
    s.serve ((now, call) :: rest) = (((call.perform s now).1.serve rest).1,
      ⟨now, call, (call.perform s now).2⟩ :: ((call.perform s now).1.serve rest).2) := rfl

theorem serve_append (s : QueueStore) (front rest : List (Moment × ForeignCall)) :
    s.serve (front ++ rest) =
      (((s.serve front).1.serve rest).1, (s.serve front).2 ++ ((s.serve front).1.serve rest).2) := by
  induction front generalizing s with
  | nil => rfl
  | cons first front ih =>
    obtain ⟨now, call⟩ := first
    rw [List.cons_append, serve_cons, serve_cons, ih, List.cons_append]

theorem calls_serve (s : QueueStore) (calls : List (Moment × ForeignCall)) :
    (s.serve calls).2.map (fun r => (r.time, r.call)) = calls := by
  induction calls generalizing s with
  | nil => rfl
  | cons first rest ih =>
    obtain ⟨now, call⟩ := first
    rw [serve_cons, List.map_cons, ih]

/-- A message that is out of sight is not handed out before it shows, whatever is called. -/
theorem Hidden.serve (h : s.Hidden queue id until_) (hs : s.Ordered)
    (calls : List (Moment × ForeignCall)) :
    ∀ r ∈ (s.serve calls).2, r.hands queue id = true → until_ ≤ r.time.running := by
  induction calls generalizing s with
  | nil => simp [QueueStore.serve]
  | cons first rest ih =>
    obtain ⟨now, call⟩ := first
    obtain ⟨hidden, shows⟩ := h.perform hs now call
    rw [serve_cons]
    exact List.forall_mem_cons.mpr ⟨shows, ih hidden (ForeignCall.ordered_perform hs now call)⟩

/-- A call that neither delivers a message nor deletes it leaves it as it is. -/
theorem message?_perform {m : StoredMessage} (hs : s.Ordered)
    (held : s.message? queue id = some m) (now : Moment) (call : ForeignCall)
    (undelivered : (⟨now, call, (call.perform s now).2⟩ : Record).hands queue id = false)
    (undeleted : call ≠ .delete queue id) : (call.perform s now).1.message? queue id = some m := by
  have given := id_le_of_message? hs held
  have served := served_perform hs now call
  generalize (call.perform s now).2 = answer at served undelivered
  generalize (call.perform s now).1 = t at served ⊢
  cases served with
  | idle receipt delivered kept view => rwa [view]
  | accepts grown view => rwa [view, if_neg (by omega)]
  | @delivers _ name window n d _ held' delivery view =>
    have other : ¬ (queue = name ∧ id = d.id) := by
      rintro ⟨rfl, rfl⟩
      simp [Record.hands, Record.delivered?] at undelivered
    rwa [view, if_neg other]
  | @removes _ name other answer _ view =>
    have elsewhere : ¬ (queue = name ∧ id = other) := by
      rintro ⟨rfl, rfl⟩
      exact undeleted rfl
    rwa [view, if_neg elsewhere]

theorem message?_serve {m : StoredMessage} (hs : s.Ordered) (held : s.message? queue id = some m)
    (calls : List (Moment × ForeignCall))
    (spared : ∀ r ∈ (s.serve calls).2, r.hands queue id = false ∧ r.call ≠ .delete queue id) :
    (s.serve calls).1.message? queue id = some m := by
  induction calls generalizing s with
  | nil => exact held
  | cons first rest ih =>
    obtain ⟨now, call⟩ := first
    rw [serve_cons] at spared ⊢
    obtain ⟨⟨undelivered, undeleted⟩, later⟩ := List.forall_mem_cons.mp spared
    exact ih (ForeignCall.ordered_perform hs now call)
      (message?_perform hs held now call undelivered undeleted) later

/-- As long as both clocks run alike, a message that a call has put a window on is handed out
before the timestamp that the call left only if the running clock could not hold the end of the
window, and then no sooner than after 365 days; if such a message is neither delivered nor deleted
meanwhile, that is from when on it is eligible. A delivery reports the timestamp that it leaves. -/
theorem early_iff_window_unfit (origin : Instant) (front rest : List (Moment × ForeignCall))
    (now : Moment) (call : ForeignCall) (queue : String) (id : Int) (window : Duration)
    (clock : ∀ c ∈ front ++ (now, call) :: rest, c.1.Agrees origin)
    (covers : Record.Covers queue id window
      ⟨now, call, (call.perform (({} : QueueStore).serve front).1 now).2⟩) :
    let before := (({} : QueueStore).serve front).1
    let after := (call.perform before now).1
    let history := (({} : QueueStore).serve (front ++ (now, call) :: rest)).2
    ∃ m, after.message? queue id = some m ∧
      (∀ d, (call.perform before now).2 = .received (.ok (some d)) →
        d.visibleAgain = m.visibleAgain) ∧
      (∀ r ∈ (after.serve rest).2, r.hands queue id = true → r.time.ofDay < m.visibleAgain →
        ¬ FitsClock now.running window ∧ now.running + longWindow ≤ r.time.running) ∧
      ((∀ r ∈ (after.serve rest).2, r.hands queue id = false ∧ r.call ≠ .delete queue id) →
        ∀ moment : Moment, moment.Agrees origin → moment.ofDay < m.visibleAgain →
          (Eligible history queue id moment.running ↔
            ¬ FitsClock now.running window ∧ now.running + longWindow ≤ moment.running)) := by
  intro before after history
  have ordered : before.Ordered := (times_empty.serve front).ordered
  have orderedAfter : after.Ordered := ForeignCall.ordered_perform ordered now call
  have start : now.Agrees origin := clock (now, call) (by simp)
  obtain ⟨m, held, hwindow, hstamp, reported⟩ := (served_perform ordered now call).covered covers
  dsimp only at hwindow hstamp
  refine ⟨m, held, reported, fun r hr hands early => ?_, fun spared moment stop early => ?_⟩
  · have hidden : after.Hidden queue id (windowEnd now.running window) := by
      refine ⟨id_le_of_message? orderedAfter held, fun n hn => ?_⟩
      rw [held] at hn
      cases hn
      exact Nat.le_of_eq hwindow.symm
    have passed := hidden.serve orderedAfter rest r hr hands
    have asked : (r.time, r.call) ∈ rest :=
      after.calls_serve rest ▸ List.mem_map_of_mem (f := fun r : Record => (r.time, r.call)) hr
    have stop : r.time.Agrees origin := clock (r.time, r.call) (by simp [asked])
    exact (over_before_timestamp_iff start stop (hstamp ▸ early)).mp passed
  · have told : Times history (({} : QueueStore).serve (front ++ (now, call) :: rest)).1 :=
      times_empty.serve _
    rw [told.eligible_iff, serve_append, serve_cons]
    rw [← over_before_timestamp_iff start stop (hstamp ▸ early)]
    have last := message?_serve orderedAfter held rest spared
    constructor
    · rintro ⟨n, hn, visible⟩
      rw [last] at hn
      cases hn
      exact hwindow ▸ visible
    · exact fun passed => ⟨m, last, hwindow ▸ passed⟩

/-- A moment on two clocks that began together. -/
def atSecond (second : Nat) : Moment := ⟨second * nanosPerSecond, second * nanosPerSecond⟩

/-- The longest window there is. -/
def longest : Duration := ⟨18446744073709551615, 999999999, by decide⟩

/-- A message hidden for the longest window is handed out again after a year, no sooner. -/
theorem early_iff_window_unfit_of_longest :
    let front := [(atSecond 0, .create "q"), (atSecond 0, .send "q" "x" .zero)]
    let before := (({} : QueueStore).serve front).1
    let first := ForeignCall.receive "q" longest
    let again := (atSecond 31536000, ForeignCall.receive "q" .zero)
    (∀ c ∈ front ++ [(atSecond 0, first), again], c.1.Agrees 0) ∧
      Record.Covers "q" 1 longest ⟨atSecond 0, first, (first.perform before (atSecond 0)).2⟩ ∧
      ¬ FitsClock (atSecond 0).running longest ∧
      (atSecond 0).running + longWindow ≤ (atSecond 31536000).running := by
  intro front before first again
  have clock : ∀ c ∈ front ++ [(atSecond 0, first), again], c.1.Agrees 0 := by
    simp [front, again, Moment.Agrees, atSecond]
  have answer : (first.perform before (atSecond 0)).2 =
      .received (.ok (some ⟨1, 1, lastOfCalendar, "x"⟩)) := by
    have taken : (before.receive (atSecond 0) "q" longest).2.toOption =
        some (some ⟨1, 1, lastOfCalendar, "x"⟩) := by decide +kernel
    rw [ForeignCall.perform_receive]
    cases h : (before.receive (atSecond 0) "q" longest).2 with
    | error failure => simp [h, Except.toOption] at taken
    | ok found =>
      rw [h] at taken
      exact congrArg (QueueAnswer.received ∘ Except.ok) (Option.some.inj taken)
  have covers : Record.Covers "q" 1 longest
      ⟨atSecond 0, first, (first.perform before (atSecond 0)).2⟩ := by
    rw [answer]
    exact .delivered rfl
  obtain ⟨m, -, reported, early, -⟩ :=
    early_iff_window_unfit 0 front [again] (atSecond 0) first "q" 1 longest clock covers
  have stamp : lastOfCalendar = m.visibleAgain := reported _ answer
  refine ⟨clock, covers, early _ List.mem_cons_self (by decide +kernel) ?_⟩
  rw [← stamp]
  decide +kernel

/-- The timestamp of a message hidden for the longest window is the end of the calendar, and yet it
comes back after a year. -/
theorem early_of_longest :
    let calls : List (Moment × ForeignCall) := [
      (atSecond 0, .create "q"), (atSecond 0, .send "q" "x" .zero),
      (atSecond 0, .receive "q" longest), (atSecond 31536000, .receive "q" .zero)]
    (∀ c ∈ calls, c.1.Agrees 0) ∧
      (({} : QueueStore).serve calls).2.filterMap Record.delivered? =
        [("q", ⟨1, 1, lastOfCalendar, "x"⟩), ("q", ⟨1, 2, (atSecond 31536000).ofDay, "x"⟩)] ∧
      (atSecond 31536000).ofDay < lastOfCalendar := by
  intro calls
  exact ⟨by simp [calls, Moment.Agrees, atSecond], by decide +kernel, by decide +kernel⟩

end QueueStore
end WorkQueue
