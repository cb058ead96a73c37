import Mathlib.Data.List.Induction
import Mathlib.Order.Bounds.Basic
import WorkQueue.Proofs.Queue.Refinement

/-! # Windows

The instant from which a message is visible is the end of the window that its history put on it
last. A receive hands out the message of the least identity among those whose window is over, so
that no delivery falls into the window of an earlier one.
-/
namespace WorkQueue

/-! ## The end of a window -/

section
variable {now finish : Instant} {window : Duration}

theorem le_windowEnd (now : Instant) (window : Duration) : now ≤ windowEnd now window :=
  Nat.le_add_right _ _

theorem windowEnd_of_fits (h : FitsClock now window) :
    windowEnd now window = now + window.toNanos := by
  unfold FitsClock at h
  rw [windowEnd, effectiveWindow, if_pos h]

theorem windowEnd_of_not_fits (h : ¬ FitsClock now window) :
    windowEnd now window = now + longWindow := by
  unfold FitsClock at h
  rw [windowEnd, effectiveWindow, if_neg h]

theorem ends_windowEnd (now : Instant) (window : Duration) :
    Ends now window (windowEnd now window) := by
  by_cases h : FitsClock now window
  · rw [windowEnd_of_fits h]
    exact .asked h
  · rw [windowEnd_of_not_fits h]
    exact .cut h

/-- A window ends at one instant, which is the one that a store computes. -/
theorem ends_iff : Ends now window finish ↔ finish = windowEnd now window := by
  refine ⟨fun ends => ?_, fun same => same ▸ ends_windowEnd now window⟩
  cases ends with
  | asked fits => exact (windowEnd_of_fits fits).symm
  | cut unfit => exact (windowEnd_of_not_fits unfit).symm

end

/-! ## What a record adds to the windows -/

namespace History
variable {h : List Record} {r : Record} {queue : String} {id : Int} {opening : Instant}

/-- The delay that a record puts on a message by sending it. -/
def Delays (r : Record) (queue : String) (id : Int) (opening : Instant) : Prop :=
  ∃ body delay, r.call = .send queue body delay ∧ r.receipt? = some ⟨queue, id⟩ ∧
    Ends r.time.running delay opening

/-- The window that a record puts on a message by delivering it. -/
def Hides (r : Record) (queue : String) (id : Int) (opening : Instant) : Prop :=
  ∃ window, r.call = .receive queue window ∧ r.hands queue id = true ∧
    Ends r.time.running window opening

theorem deliveries_concat_eq_zero :
    deliveries (h ++ [r]) queue id = 0 ↔ deliveries h queue id = 0 ∧ r.hands queue id = false := by
  rw [deliveries_concat]
  cases r.hands queue id <;> simp

theorem opens_concat : Opens (h ++ [r]) queue id opening ↔
    Hides r queue id opening ∨ r.hands queue id = false ∧
      (Opens h queue id opening ∨ deliveries h queue id = 0 ∧ Delays r queue id opening) := by
  constructor
  · rintro (⟨split, call, receipt, undelivered, ends⟩ | ⟨split, call, hands, latest, ends⟩)
    · obtain ⟨hnone, hkept⟩ := deliveries_concat_eq_zero.mp undelivered
      rcases concat_eq_iff.mp split with ⟨-, rfl, -⟩ | ⟨front, rfl, rfl⟩
      · exact .inr ⟨hkept, .inr ⟨hnone, _, _, call, receipt, ends⟩⟩
      · exact .inr ⟨hkept, .inl (.sent rfl call receipt hnone ends)⟩
    · rcases concat_eq_iff.mp split with ⟨-, rfl, -⟩ | ⟨front, rfl, rfl⟩
      · exact .inl ⟨_, call, hands, ends⟩
      · obtain ⟨hlatest, hkept⟩ := deliveries_concat_eq_zero.mp latest
        exact .inr ⟨hkept, .inl (.delivered rfl call hands hlatest ends)⟩
  · rintro (⟨window, call, hands, ends⟩ |
      ⟨hkept, hopens | ⟨hnone, body, delay, call, receipt, ends⟩⟩)
    · exact .delivered rfl call hands rfl ends
    · cases hopens with
      | @sent before after r₀ body delay split call receipt undelivered ends =>
        have hsplit : h ++ [r] = before ++ r₀ :: (after ++ [r]) := by
          rw [split, List.append_assoc, List.cons_append]
        exact .sent hsplit call receipt (deliveries_concat_eq_zero.mpr ⟨undelivered, hkept⟩) ends
      | @delivered before after r₀ window split call hands latest ends =>
        have hsplit : h ++ [r] = before ++ r₀ :: (after ++ [r]) := by
          rw [split, List.append_assoc, List.cons_append]
        exact .delivered hsplit call hands (deliveries_concat_eq_zero.mpr ⟨latest, hkept⟩) ends
    · exact .sent rfl call receipt (deliveries_concat_eq_zero.mpr ⟨hnone, hkept⟩) ends

theorem not_hides (h : r.hands queue id = false) : ¬ Hides r queue id opening := by
  rintro ⟨window, -, hands, -⟩
  rw [h] at hands
  cases hands

theorem not_delays (h : r.receipt? ≠ some ⟨queue, id⟩) : ¬ Delays r queue id opening := by
  rintro ⟨body, delay, -, receipt, -⟩
  exact h receipt

/-- A record that neither delivers a message nor sends it leaves its window alone. -/
theorem opens_concat_of_other (hands : r.hands queue id = false)
    (receipt : r.receipt? ≠ some ⟨queue, id⟩) :
    Opens (h ++ [r]) queue id opening ↔ Opens h queue id opening := by
  simp [opens_concat, hands, not_hides hands, not_delays receipt]

variable {s t : QueueStore}

/-- A window is that of a message which has been sent. -/
theorem Tracks.not_opens_of_lt (told : Tracks h s) (beyond : s.lastId < id) :
    ¬ Opens h queue id opening := by
  rintro (⟨rfl, call, receipt, -, -⟩ | ⟨rfl, call, hands, -, -⟩)
  · have hle := told.issued id (by simp [identities, receipt])
    omega
  · have hnone := told.unissued queue id beyond
    simp [deliveries, List.countP_append, hands] at hnone

/-! ## The window of every message -/

/-- A history tells from when on each message that a store holds is visible. -/
structure Times (h : List Record) (s : QueueStore) : Prop extends Tracks h s where
  opens : ∀ queue id m, s.message? queue id = some m →
    ∀ opening, Opens h queue id opening ↔ opening = m.visibleAt

theorem times_empty : Times [] {} where
  toTracks := tracks_empty
  opens := fun queue id m hm => by cases hm

theorem Times.opens_next (told : Times h s) (served : Served s r t) (queue : String) (id : Int)
    (m : StoredMessage) (hm : t.message? queue id = some m) (opening : Instant) :
    Opens (h ++ [r]) queue id opening ↔ opening = m.visibleAt := by
  cases served with
  | idle receipt delivered kept view =>
    rw [view] at hm
    rw [opens_concat_of_other (Record.hands_of_none delivered queue id) (by simp [receipt])]
    exact told.opens queue id m hm opening
  | @accepts now name body delay t counter view =>
    rw [view] at hm
    split at hm
    · next hid =>
      -- Nothing is known of an identity before it is given out.
      obtain ⟨rfl, rfl⟩ := hid
      cases hm
      have hfresh : ¬ Opens h queue (s.lastId + 1) opening := told.not_opens_of_lt (by omega)
      have hnone := told.unissued queue (s.lastId + 1) (by omega)
      simp [opens_concat, Hides, Delays, hfresh, hnone, Record.hands, Record.delivered?,
        Record.receipt?, StoredMessage.sent, ends_iff]
    · next hid =>
      have hne : ¬ (name = queue ∧ s.lastId + 1 = id) := by
        rintro ⟨rfl, rfl⟩
        exact hid ⟨rfl, rfl⟩
      rw [opens_concat_of_other rfl (by simpa [Record.receipt?] using hne)]
      exact told.opens queue id m hm opening
  | @delivers now name window n d t held delivery view =>
    rw [view] at hm
    split at hm
    · next hid =>
      obtain ⟨rfl, rfl⟩ := hid
      cases hm
      simp [opens_concat, Hides, Record.hands, Record.delivered?, StoredMessage.deliver, ends_iff]
    · next hid =>
      have hne : ¬ (name = queue ∧ d.id = id) := by
        rintro ⟨rfl, rfl⟩
        exact hid ⟨rfl, rfl⟩
      rw [opens_concat_of_other (by simpa [Record.hands, Record.delivered?] using hne)
        (by simp [Record.receipt?])]
      exact told.opens queue id m hm opening
  | removes view =>
    rw [view] at hm
    split at hm
    · cases hm
    · rw [opens_concat_of_other rfl (by simp [Record.receipt?])]
      exact told.opens queue id m hm opening

theorem Times.next (told : Times h s) (now : Moment) (call : ForeignCall) :
    Times (h ++ [⟨now, call, (call.perform s now).2⟩]) (call.perform s now).1 where
  toTracks := told.toTracks.next now call
  opens := told.opens_next (served_perform told.ordered now call)

theorem Times.serve (told : Times h s) (calls : List (Moment × ForeignCall)) :
    Times (h ++ (s.serve calls).2) (s.serve calls).1 := by
  induction calls generalizing s h with
  | nil => simpa [QueueStore.serve] using told
  | cons first rest ih =>
    have hrest := ih (told.next first.1 first.2)
    rw [List.append_assoc] at hrest
    exact hrest

/-- What is eligible by the history is what the store holds and shows. -/
theorem Times.eligible_iff (told : Times h s) (now : Instant) :
    Eligible h queue id now ↔ ∃ m, s.message? queue id = some m ∧ m.visibleAt ≤ now := by
  constructor
  · rintro ⟨⟨body, hlive⟩, opening, hopens, hle⟩
    obtain ⟨m, hm, -⟩ := (told.live queue id body).mp hlive
    rw [(told.opens queue id m hm opening).mp hopens] at hle
    exact ⟨m, hm, hle⟩
  · rintro ⟨m, hm, hle⟩
    refine ⟨⟨m.body, (told.live queue id m.body).mpr ⟨m, hm, rfl⟩⟩, m.visibleAt, ?_, hle⟩
    exact (told.opens queue id m hm _).mpr rfl

end History

/-! ## What a receive hands out -/

namespace QueueStore
open History

variable {s : QueueStore} {queue : String} {now : Moment} {window : Duration} {id : Int}

theorem message?_of_mem (hs : s.Ordered) {m : StoredMessage} (hm : m ∈ s.held queue) :
    s.message? queue m.id = some m := by
  obtain ⟨front, back, hq⟩ := List.append_of_mem hm
  have hp := hs.ascending queue
  rw [hq] at hp
  have hskip : front.find? (fun x => x.id == m.id) = none := by
    simp only [List.find?_eq_none, beq_iff_eq]
    intro x hx he
    have := (List.pairwise_append.mp hp).2.2 x hx m List.mem_cons_self
    omega
  simp [message?, hq, List.find?_append, hskip]

theorem mem_of_message? {m : StoredMessage} (hm : s.message? queue id = some m) :
    m ∈ s.held queue ∧ m.id = id :=
  ⟨List.mem_of_find?_eq_some hm, by simpa using List.find?_some hm⟩

theorem takeVisible_eq_none (now : Moment) (window : Duration) {held : List StoredMessage} :
    takeVisible now window held = none ↔ ∀ m ∈ held, now.running < m.visibleAt := by
  induction held with
  | nil => simp [takeVisible]
  | cons m rest ih =>
    by_cases hv : m.visibleAt ≤ now.running
    · simp [takeVisible, hv]
    · simp [takeVisible, hv, ih, Nat.lt_of_not_le hv]

/-- A receive comes back empty exactly from a queue that shows no message. -/
theorem receive_eq_none_iff : (s.receive now queue window).2 = .ok none ↔
    (s.messages? queue).isSome = true ∧ ∀ m ∈ s.held queue, now.running < m.visibleAt := by
  unfold receive
  cases hq : s.messages? queue with
  | none => simp
  | some held =>
    rw [held_eq_of_messages? hq, ← takeVisible_eq_none now window]
    dsimp only
    cases takeVisible now window held <;> simp

/-- A receive hands out the visible message that has the least identity. -/
theorem receive_isLeast (hs : s.Ordered) :
    (∃ d, (s.receive now queue window).2 = .ok (some d) ∧ d.id = id) ↔
      IsLeast {id | ∃ m, s.message? queue id = some m ∧ m.visibleAt ≤ now.running} id := by
  have least : ∀ d, (s.receive now queue window).2 = .ok (some d) →
      IsLeast {id | ∃ m, s.message? queue id = some m ∧ m.visibleAt ≤ now.running} d.id := by
    intro d hd
    rcases s.receive_cases now queue window with ⟨-, hn⟩ | ⟨front, m, back, hq, hv, hfront, ha, -⟩
    · exact absurd hd (hn d)
    · rw [ha] at hd
      cases hd
      have hmem : m ∈ s.held queue := hq ▸ List.mem_append_right front List.mem_cons_self
      refine ⟨⟨m, message?_of_mem hs hmem, hv⟩, ?_⟩
      rintro other ⟨n, hn, hvisible⟩
      obtain ⟨hin, rfl⟩ := mem_of_message? hn
      have hp := hs.ascending queue
      rw [hq] at hp hin
      -- Of the messages before the first visible one none is visible, and identities ascend.
      rcases List.mem_append.mp hin with hf | hb
      · exact absurd hvisible (Nat.not_le_of_lt (hfront n hf))
      · rcases List.mem_cons.mp hb with rfl | hb
        · exact Int.le_refl _
        · have hlt := (List.pairwise_cons.mp (List.pairwise_append.mp hp).2.1).1 n hb
          exact Int.le_of_lt hlt
  constructor
  · rintro ⟨d, hd, rfl⟩
    exact least d hd
  · intro hleast
    obtain ⟨m, hm, hv⟩ := hleast.1
    obtain ⟨hmem, -⟩ := mem_of_message? hm
    cases ha : (s.receive now queue window).2 with
    | error failure =>
      exfalso
      unfold receive at ha
      cases hq : s.messages? queue with
      | none => simp [QueueStore.held, hq] at hmem
      | some held =>
        rw [hq] at ha
        dsimp only at ha
        split at ha <;> cases ha
    | ok found =>
      cases found with
      | none =>
        exact absurd hv (Nat.not_le_of_lt ((receive_eq_none_iff.mp ha).2 m hmem))
      | some d => exact ⟨d, rfl, (least d ha).unique hleast⟩

/-! ## Messages out of sight -/

section
variable {t : QueueStore} {body : String} {delay : Duration} {until_ : Instant}

/-- Whether an identity was given out and no message under it shows before a time. -/
def Hidden (s : QueueStore) (queue : String) (id : Int) (until_ : Instant) : Prop :=
  id ≤ s.lastId ∧ ∀ m, s.message? queue id = some m → until_ ≤ m.visibleAt

theorem Hidden.of_held_eq (h : s.Hidden queue id until_) (held : t.held queue = s.held queue)
    (counter : s.lastId ≤ t.lastId) : t.Hidden queue id until_ := by
  refine ⟨Int.le_trans h.1 counter, fun m hm => h.2 m ?_⟩
  rwa [message?_of_held_eq held] at hm

theorem Hidden.send (h : s.Hidden queue id until_) (hs : s.Ordered) {receipt : Receipt}
    (sent : (s.send now queue body delay).2 = .ok receipt) :
    (s.send now queue body delay).1.Hidden queue id until_ := by
  obtain ⟨rfl, hview⟩ := message?_send_ok hs sent
  have hcounter := s.lastId_send now queue body delay
  have hid := h.1
  refine ⟨by omega, fun m hm => h.2 m ?_⟩
  have hne : id ≠ s.lastId + 1 := by omega
  rwa [hview, if_neg fun hboth => hne hboth.2] at hm

theorem Hidden.delete (h : s.Hidden queue id until_) (other : Int) :
    (s.delete queue other).1.Hidden queue id until_ := by
  refine ⟨by rw [lastId_delete]; exact h.1, fun m hm => h.2 m ?_⟩
  rw [message?_delete] at hm
  split at hm
  · cases hm
  · exact hm

/-- A message that is out of sight is not handed out, and stays out of sight. -/
theorem Hidden.receive (h : s.Hidden queue id until_) (hs : s.Ordered)
    (early : now.running < until_) (window : Duration) :
    (s.receive now queue window).1.Hidden queue id until_ ∧
      ∀ d, (s.receive now queue window).2 = .ok (some d) → d.id ≠ id := by
  have hother : ∀ d, (s.receive now queue window).2 = .ok (some d) → d.id ≠ id := by
    rintro d hd rfl
    obtain ⟨⟨m, hm, hvisible⟩, -⟩ := (receive_isLeast hs).mp ⟨d, hd, rfl⟩
    exact absurd hvisible (Nat.not_le_of_lt (Nat.lt_of_lt_of_le early (h.2 m hm)))
  refine ⟨⟨by rw [lastId_receive]; exact h.1, fun m hm => h.2 m ?_⟩, hother⟩
  by_cases hd : ∃ d, (s.receive now queue window).2 = .ok (some d)
  · obtain ⟨d, hd⟩ := hd
    obtain ⟨n, -, -, hview⟩ := message?_receive hs hd
    rwa [hview, if_neg fun hboth => hother d hd hboth.2.symm] at hm
  · rwa [receive_of_ne_some fun d h => hd ⟨d, h⟩] at hm

/-- A receive hides the message that it hands out until its window ends. -/
theorem hidden_of_received (hs : s.Ordered) {d : Delivery}
    (received : s.receive now queue window = (t, .ok (some d))) :
    t.Hidden queue d.id (windowEnd now.running window) := by
  obtain ⟨m, hheld, -, hview⟩ := message?_receive hs (congrArg Prod.snd received)
  have hcounter : t.lastId = s.lastId := by
    rw [show t = (s.receive now queue window).1 from (congrArg Prod.fst received).symm]
    exact lastId_receive
  rw [received] at hview
  refine ⟨hcounter ▸ id_le_of_message? hs hheld, fun n hn => ?_⟩
  rw [hview, if_pos ⟨rfl, rfl⟩] at hn
  cases hn
  exact Nat.le_refl _

end

/-! ## Every history -/

/-- Each record of a history is that of a call at the store which the calls before it led to. -/
theorem serve_split {calls : List (Moment × ForeignCall)} {before after : List Record} {r : Record}
    (split : (s.serve calls).2 = before ++ r :: after) :
    ∃ front rest, calls = front ++ (r.time, r.call) :: rest ∧ (s.serve front).2 = before ∧
      r.answer = (r.call.perform (s.serve front).1 r.time).2 := by
  induction before generalizing s calls with
  | nil =>
    cases calls with
    | nil => cases split
    | cons first rest =>
      obtain ⟨now, call⟩ := first
      obtain ⟨hr, -⟩ := List.cons.inj split
      subst hr
      exact ⟨[], rest, rfl, rfl, rfl⟩
  | cons x before ih =>
    cases calls with
    | nil => cases split
    | cons first rest =>
      obtain ⟨now, call⟩ := first
      obtain ⟨rfl, hrest⟩ := List.cons.inj split
      obtain ⟨front, later, rfl, rfl, hanswer⟩ := ih hrest
      exact ⟨(now, call) :: front, later, rfl, rfl, hanswer⟩

/-- Whatever was delivered was eligible. -/
theorem eligible_of_hands {calls : List (Moment × ForeignCall)} {before after : List Record}
    {r : Record} (split : (({} : QueueStore).serve calls).2 = before ++ r :: after)
    (hands : r.hands queue id = true) : Eligible before queue id r.time.running := by
  obtain ⟨front, rest, -, rfl, hanswer⟩ := serve_split split
  have told : Times _ (({} : QueueStore).serve front).1 := times_empty.serve front
  obtain ⟨time, call, answer⟩ := r
  dsimp only at hanswer
  subst hanswer
  cases call with
  | receive name window =>
    rw [ForeignCall.perform_receive] at hands
    have hd : ∃ d, ((({} : QueueStore).serve front).1.receive time queue window).2 =
        .ok (some d) ∧ d.id = id := by
      cases ha : ((({} : QueueStore).serve front).1.receive time name window).2 with
      | error failure => simp [Record.hands, Record.delivered?, ha] at hands
      | ok found =>
        cases found with
        | none => simp [Record.hands, Record.delivered?, ha] at hands
        | some d =>
          obtain ⟨rfl, hid⟩ : name = queue ∧ d.id = id := by
            simpa [Record.hands, Record.delivered?, ha] using hands
          exact ⟨d, ha, hid⟩
    exact (told.eligible_iff time.running).mpr ((receive_isLeast told.ordered).mp hd).1
  | create name => simp [Record.hands, Record.delivered?] at hands
  | send name body delay => simp [Record.hands, Record.delivered?] at hands
  | delete name other => simp [Record.hands, Record.delivered?] at hands

/-- No delivery brings the window of a message to an earlier end. -/
theorem windowEnd_le_of_opens {calls : List (Moment × ForeignCall)}
    {before between after : List Record} {r : Record} {opening : Instant}
    (split : (({} : QueueStore).serve calls).2 = before ++ r :: between ++ after)
    (call : r.call = .receive queue window) (hands : r.hands queue id = true)
    (opens : Opens (before ++ r :: between) queue id opening) :
    windowEnd r.time.running window ≤ opening := by
  induction between using List.reverseRecOn generalizing after opening with
  | nil =>
    rcases opens_concat.mp opens with ⟨window', call', -, ends⟩ | ⟨kept, -⟩
    · rw [call] at call'
      cases call'
      exact Nat.le_of_eq (ends_iff.mp ends).symm
    · rw [hands] at kept
      cases kept
  | append_singleton between x ih =>
    rw [← List.cons_append, ← List.append_assoc] at opens split
    have hshort : (({} : QueueStore).serve calls).2 = before ++ r :: between ++ x :: after := by
      rw [split, List.append_assoc, List.singleton_append]
    rcases opens_concat.mp opens with ⟨window', -, again, ends⟩ | ⟨-, earlier | ⟨undelivered, -⟩⟩
    · rw [ends_iff.mp ends]
      obtain ⟨-, opening, hopens, hle⟩ := eligible_of_hands hshort again
      exact Nat.le_trans (ih hshort hopens) (Nat.le_trans hle (le_windowEnd _ _))
    · exact ih hshort earlier
    · simp [deliveries, List.countP_append, hands] at undelivered

/-- After any calls on an empty store, whoever makes them, the end of the latest window that the
history put on a message is the instant from which the store shows it, so that a message is
eligible by the history exactly if the store holds and shows it. A receive hands out the eligible
message of the least identity, and comes back empty exactly if the queue exists and no message of
it is eligible. What a receive handed out is not delivered again inside its window; if it was
neither delivered since nor deleted, it is eligible exactly from the end of that window on. A window
ends after the time that was asked for, or after 365 days where the running clock cannot hold it. -/
theorem windows_exact (calls : List (Moment × ForeignCall)) :
    let s := (({} : QueueStore).serve calls).1
    let h := (({} : QueueStore).serve calls).2
    (∀ queue id m, s.message? queue id = some m →
      ∀ opening, Opens h queue id opening ↔ opening = m.visibleAt) ∧
    (∀ queue id now, Eligible h queue id now ↔
      ∃ m, s.message? queue id = some m ∧ m.visibleAt ≤ now) ∧
    (∀ (now : Moment) queue window id,
      (∃ d, (s.receive now queue window).2 = .ok (some d) ∧ d.id = id) ↔
        IsLeast {id | Eligible h queue id now.running} id) ∧
    (∀ (now : Moment) queue window, (s.receive now queue window).2 = .ok none ↔
      Created h queue ∧ ∀ id, ¬ Eligible h queue id now.running) ∧
    (∀ before (r : Record) between (later : Record) after queue id window,
      h = before ++ r :: between ++ later :: after → r.call = .receive queue window →
      r.hands queue id = true → later.hands queue id = true →
      ∃ finish, Ends r.time.running window finish ∧ finish ≤ later.time.running) ∧
    ∀ before (r : Record) after queue id window, h = before ++ r :: after →
      r.call = .receive queue window → r.hands queue id = true → deliveries after queue id = 0 →
      (∀ later ∈ after, later.call ≠ .delete queue id) →
      ∃ finish, Ends r.time.running window finish ∧
        ∀ now, Eligible h queue id now ↔ finish ≤ now := by
  intro s h
  have told : Times h s := times_empty.serve calls
  have heligible : ∀ queue id now, Eligible h queue id now ↔
      ∃ m, s.message? queue id = some m ∧ m.visibleAt ≤ now := fun _ _ => told.eligible_iff
  refine ⟨told.opens, heligible, fun now queue window id => ?_, fun now queue window => ?_, ?_, ?_⟩
  · simp only [heligible]
    exact receive_isLeast told.ordered
  · rw [receive_eq_none_iff, told.created]
    refine and_congr_right fun _ => ⟨fun hidden id => ?_, fun hidden m hm => ?_⟩
    · rw [heligible]
      rintro ⟨m, hm, hv⟩
      exact absurd hv (Nat.not_le_of_lt (hidden m (mem_of_message? hm).1))
    · refine Nat.lt_of_not_le fun hv => hidden m.id ?_
      exact (heligible _ _ _).mpr ⟨m, message?_of_mem told.ordered hm, hv⟩
  · intro before r between later after queue id window split call hands again
    obtain ⟨-, opening, hopens, hle⟩ := eligible_of_hands split again
    exact ⟨_, ends_windowEnd r.time.running window,
      Nat.le_trans (windowEnd_le_of_opens split call hands hopens) hle⟩
  · intro before r after queue id window split call hands latest kept
    have ends := ends_windowEnd r.time.running window
    refine ⟨_, ends, fun now => ?_⟩
    have hopens : Opens h queue id (windowEnd r.time.running window) :=
      .delivered split call hands latest ends
    -- The message was live when it was delivered, and nobody has deleted it since.
    obtain ⟨⟨body, front, sent, rear, rfl, hsends, hkept⟩, -⟩ := eligible_of_hands split hands
    have hlive : Live h queue id body := by
      refine ⟨front, sent, rear ++ r :: after, by rw [split]; simp, hsends, ?_⟩
      refine List.forall_mem_append.mpr ⟨hkept, List.forall_mem_cons.mpr ⟨?_, kept⟩⟩
      rw [call]
      nofun
    obtain ⟨m, hm, -⟩ := (told.live queue id body).mp hlive
    have hopening := (told.opens queue id m hm _).mp hopens
    rw [heligible, hopening]
    constructor
    · rintro ⟨m', hm', hv⟩
      rw [hm] at hm'
      cases hm'
      exact hv
    · exact fun hv => ⟨m, hm, hv⟩

end QueueStore
end WorkQueue
