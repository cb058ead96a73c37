import Mathlib.Algebra.Order.BigOperators.Group.List
import Mathlib.Algebra.Ring.Int.Defs
import WorkQueue.Proofs.Consumer.Cancellation
import WorkQueue.Proofs.Consumer.Iteration
import WorkQueue.Proofs.Consumer.Lease

/-! # How many deliveries are left

A message has as many deliveries before it as attempts are left, and one at least. A delivery that
is processed uses one of them up: its message is deleted, or there was another attempt left. So as
long as every delivery is processed and nothing comes in, their number is bounded by what the queue
held, however short the window is for which a received message is hidden.
-/
namespace WorkQueue
variable {ι σ : Type} {setup : ConsumerSetup ι σ} {plan : FaultPlan}

theorem Event.Isolated.undisturbing {queue : String} {event : Event} (h : event.Isolated queue) :
    event.Undisturbing queue := by
  cases event with
  | foreign call => cases call <;> first | exact h | trivial
  | _ => trivial

namespace StoredMessage
variable {m : StoredMessage} {maxAttempts : Int}

/-- How many deliveries a message has before it. -/
def due (maxAttempts : Int) (m : StoredMessage) : Int :=
  max 1 (maxAttempts + 1 - nextReadCount m.readCount)

/-- How many a message has before it that may be in hand, the one in hand not counted. -/
def share (maxAttempts : Int) (inHand : Option Delivery) (m : StoredMessage) : Int :=
  if inHand.any fun d => d.id == m.id then max 0 (maxAttempts - m.readCount)
  else m.due maxAttempts

theorem due_of_lt (h : m.readCount < maxReadCount) :
    m.due maxAttempts = max 1 (maxAttempts - m.readCount) := by
  rw [due, nextReadCount_of_lt h]
  congr 1
  omega

/-- A message that has been received as often as can be counted has, besides its attempts, all the
negative counts before it. -/
theorem due_eq (nonneg : 0 ≤ maxAttempts) (m : StoredMessage) : m.due maxAttempts =
    if m.readCount = maxReadCount then maxAttempts + maxReadCount + 2
    else max 1 (maxAttempts - m.readCount) := by
  unfold due nextReadCount maxReadCount
  split <;> omega

theorem share_none : share maxAttempts none = due maxAttempts := rfl

theorem share_nonneg (inHand : Option Delivery) : 0 ≤ m.share maxAttempts inHand := by
  unfold share due
  split <;> omega

theorem share_of_ne {d : Delivery} (h : m.id ≠ d.id) :
    m.share maxAttempts (some d) = m.due maxAttempts := by
  simp [share, Ne.symm h]

/-- A delivery uses one up. -/
theorem share_deliver (m : StoredMessage) (maxAttempts : Int) (now : Moment) (window : Duration) :
    (m.deliver now window).share maxAttempts (some (m.deliver now window).delivery) + 1 =
      m.due maxAttempts := by
  have hsame : (m.deliver now window).share maxAttempts (some (m.deliver now window).delivery) =
      max 0 (maxAttempts - nextReadCount m.readCount) := by
    simp [share, delivery, deliver]
  rw [hsame, due]
  omega

/-- A message that is left alone before its last attempt has all the others still before it. -/
theorem share_of_left {d : Delivery} (same : m.readCount = d.readCount)
    (left : d.readCount < maxAttempts) (bounded : maxAttempts ≤ maxReadCount) :
    m.share maxAttempts (some d) = m.due maxAttempts := by
  rw [due_of_lt (by omega), share]
  split
  · omega
  · exact due_of_lt (by omega)

end StoredMessage

theorem Ending.lt_of_left {maxAttempts attempt : Nat} {ending : Ending}
    (kept : (ending.verdict maxAttempts attempt).deletes = false)
    (genuine : (ending.verdict maxAttempts attempt != .abandon) = true) :
    attempt < maxAttempts := by
  cases ending with
  | malformed failure => cases kept
  | dispatched item result =>
    cases result with
    | ok done => cases kept
    | error failure =>
      simp only [Ending.verdict, WorkQueue.verdict] at kept genuine
      split at kept
      · next cancelled =>
        rw [if_pos cancelled] at genuine
        cases genuine
      · split at kept
        · cases kept
        · split at kept
          · cases kept
          · next left => exact Nat.lt_of_not_le left

namespace Custody
variable {k k' : Custody σ} {event : Event} {bound : Int}

/-- How many deliveries the messages that the queue holds have before them. -/
def left (setup : ConsumerSetup ι σ) (k : Custody σ) : Int :=
  ((k.store.held setup.options.queue).map
    (StoredMessage.share setup.options.maxAttempts k.inHand)).sum

/-- As long as nothing has been accepted and every delivery has been processed, the deliveries so
far and those that are left keep within a bound. -/
structure Spending (setup : ConsumerSetup ι σ) (bound : Int) (k : Custody σ) : Prop where
  ordered : k.store.Ordered
  entered : Entered setup k.journal.entries k.inHand
  counting : k.Counting setup
  within : k.journal.accepted = [] →
    (∀ entry ∈ k.journal.entries, entry.processed setup = true) →
    k.journal.entries.length + k.left setup ≤ bound

theorem left_takes {store : QueueStore} {d : Delivery} (ordered : k.store.Ordered)
    (free : k.inHand = none)
    (received : k.store.receive k.now setup.options.queue setup.options.invisibility =
      (store, .ok (some d))) :
    left setup { k with store := store, inHand := some d } + 1 = k.left setup := by
  rcases k.store.receive_cases k.now setup.options.queue setup.options.invisibility with
    ⟨-, hnone⟩ | ⟨front, m, back, hheld, -, -, hanswer, -, hafter⟩
  · exact absurd (congrArg Prod.snd received) (hnone d)
  · rw [received] at hanswer hafter
    cases hanswer
    -- The identities ascend, so that no other message is taken for the one in hand.
    have hascending := ordered.ascending setup.options.queue
    rw [hheld, List.pairwise_append, List.pairwise_cons] at hascending
    obtain ⟨-, ⟨hback, -⟩, hfront⟩ := hascending
    have hothers : ∀ x ∈ front ++ back,
        x.share setup.options.maxAttempts (some (m.deliver k.now
          setup.options.invisibility).delivery) = x.due setup.options.maxAttempts := by
      intro x hx
      refine StoredMessage.share_of_ne ?_
      rcases List.mem_append.mp hx with hx | hx
      · exact (hfront x hx m List.mem_cons_self).ne
      · exact (hback x hx).ne'
    have hone := m.share_deliver setup.options.maxAttempts k.now setup.options.invisibility
    simp only [left, free, StoredMessage.share_none, hafter, hheld, if_true, List.map_append,
      List.map_cons, List.sum_append, List.sum_cons]
    rw [List.map_congr_left fun x hx => hothers x (List.mem_append_left _ hx),
      List.map_congr_left fun x hx => hothers x (List.mem_append_right _ hx)]
    omega

theorem left_leaves {d : Delivery} (ordered : k.store.Ordered) (counting : k.Counting setup)
    (hand : k.inHand = some d) (left_ : d.attempt < setup.options.maxAttempts)
    (bounded : (setup.options.maxAttempts : Int) ≤ maxReadCount) :
    left setup { k with inHand := none } = k.left setup := by
  have hless : d.readCount < setup.options.maxAttempts := by
    unfold Delivery.attempt deliveryCount at left_
    omega
  refine congrArg List.sum (List.map_congr_left fun m hm => ?_)
  rw [hand]
  by_cases hid : m.id = d.id
  · have hcount := counting d hand
    rw [QueueStore.readCount?, ← hid, QueueStore.message?_of_mem ordered hm] at hcount
    exact (StoredMessage.share_of_left (Option.some.inj hcount) hless bounded).symm
  · exact (StoredMessage.share_of_ne hid).symm

theorem left_deletes (setup : ConsumerSetup ι σ) {d : Delivery} (hand : k.inHand = some d) :
    left setup { k with store := (k.store.delete setup.options.queue d.id).1, inHand := none } ≤
      k.left setup := by
  have hkept : ∀ m ∈ (k.store.held setup.options.queue).filter fun m => m.id ≠ d.id,
      m.share setup.options.maxAttempts none =
        m.share setup.options.maxAttempts (some d) := by
    intro m hm
    have hid : m.id ≠ d.id := by simpa using (List.mem_filter.mp hm).2
    exact (StoredMessage.share_of_ne hid).symm
  simp only [left, QueueStore.held_delete, if_true, hand]
  rw [List.map_congr_left hkept]
  refine (List.filter_sublist.map _).sum_le_sum fun n hn => ?_
  obtain ⟨m, -, rfl⟩ := List.mem_map.mp hn
  exact StoredMessage.share_nonneg _

/-- An attempt that is open has its delivery among those so far. -/
theorem Spending.within_of_open (h : k.Spending setup bound) (accepted : k.journal.accepted = [])
    {d : Delivery} {older : List Entry} (latest : k.journal.entries = { delivery := d } :: older)
    (processed : ∀ entry ∈ older, entry.processed setup = true) :
    ((older.length + 1 : Nat) : Int) + k.left setup ≤ bound := by
  have hwithin := h.within accepted
  rw [latest] at hwithin
  exact hwithin (List.forall_mem_cons.mpr ⟨rfl, processed⟩)

theorem Spending.effect (h : k.Spending setup bound)
    (bounded : (setup.options.maxAttempts : Int) ≤ maxReadCount)
    (undisturbed : event.Undisturbing setup.options.queue) (he : Effect setup plan event k k') :
    k'.Spending setup bound := by
  refine ⟨he.ordered h.ordered, h.entered.effect he,
    h.counting.effect h.ordered undisturbed he, fun accepted processed => ?_⟩
  cases he with
  | @takes store d free received =>
    have hleft := left_takes h.ordered free received
    have hwithin := h.within accepted fun entry hm => processed entry (List.mem_cons_of_mem _ hm)
    simp only [Journal.note, List.length_cons, left] at hleft hwithin ⊢
    omega
  | @leaves d ending hand of kept =>
    obtain ⟨older, hentries, -⟩ := h.entered.latest hand
    rw [Journal.close_open hentries] at accepted processed ⊢
    obtain ⟨hlatest, holder⟩ := List.forall_mem_cons.mp processed
    -- A processed attempt that keeps its message was not the last one.
    have hleft := left_leaves h.ordered h.counting hand
      (Ending.lt_of_left kept (Bool.and_eq_true_iff.mp hlatest).1) bounded
    have hwithin := h.within_of_open accepted hentries holder
    rwa [← hleft] at hwithin
  | @deletes d ending store answer hand of warranted answered =>
    obtain ⟨older, hentries, -⟩ := h.entered.latest hand
    rw [Journal.close_deleted hentries] at accepted processed ⊢
    obtain ⟨hlatest, holder⟩ := List.forall_mem_cons.mp processed
    have hanswer : answer.isOk = true := by
      simpa using (Bool.and_eq_true_iff.mp hlatest).2
    have hwithin := h.within_of_open accepted hentries holder
    rcases answered with reached | ⟨-, n, failure, -, rfl⟩
    -- What the deleted message had left is gone with it.
    · have hleft := left_deletes setup hand
      rw [show store = (k.store.delete setup.options.queue d.id).1 from congrArg Prod.fst reached]
      simp only [List.length_cons, left] at hleft hwithin ⊢
      omega
    · cases hanswer
  -- Nothing has been accepted, so that this is no such effect.
  | accepts sent => cases accepted
  | beside change =>
    have hwithin := h.within accepted processed
    simp only [left, change.held] at hwithin ⊢
    exact hwithin
  | borrowed by_ =>
    subst by_
    exact absurd rfl undisturbed
  | removed by_ =>
    subst by_
    exact absurd rfl undisturbed
  | passes by_ => exact h.within accepted processed

end Custody

/-! ## What is accepted meanwhile -/

namespace Journal

theorem accepted_note (j : Journal) (n : Notice) : (j.note n).accepted = j.accepted := by
  unfold note
  split
  · rfl
  · split <;> rfl
  · rfl

theorem accepted_foldl_note (notices : List Notice) (j : Journal) :
    (notices.foldl note j).accepted = j.accepted := by
  induction notices generalizing j with
  | nil => rfl
  | cons n rest ih => exact (ih (j.note n)).trans (j.accepted_note n)

theorem accepted_close (j : Journal) (ending : Option Ending) :
    (j.close ending).accepted = j.accepted := by
  unfold close
  split
  · rfl
  · split <;> rfl

theorem accepted_accept {j : Journal} {queue body : String} {reply : Reply}
    (elsewhere : ∀ receipt, reply = .sent receipt → receipt.queue ≠ queue) :
    (j.accept queue body reply).accepted = j.accepted := by
  unfold accept
  split
  · next receipt => rw [if_neg (elsewhere receipt rfl)]
  · rfl

end Journal

/-- Nothing is accepted into the queue of a consumer while it is left alone. -/
theorem Site.happen_elsewhere {site : Site σ} {event : Event}
    (isolated : event.Isolated setup.options.queue) (receipt : Receipt)
    (sent : (site.happen setup event).2.1 = .sent receipt) :
    receipt.queue ≠ setup.options.queue := by
  cases event with
  | step => cases sent
  | tick span => cases sent
  | command command =>
    cases command with
    | send body delay => cases isolated
    | produce payload delay => cases isolated
    | _ => cases sent
  | foreign call =>
    cases call with
    | send name body delay =>
      rcases site.surroundings.queue.store.send_cases site.surroundings.now name body delay with
        ⟨ha, -⟩ | ⟨ha, -⟩ <;> simp only [happen, ForeignCall.carryOut, ha] at sent
      · cases sent
      · cases sent
        exact isolated
    | _ => cases sent

namespace Chronicle
variable {r : Chronicle σ} {event : Event} {events : List Event}

theorem accepted_next (isolated : event.Isolated setup.options.queue) :
    (r.next setup event).journal.accepted = r.journal.accepted := by
  refine (Journal.accepted_accept (Site.happen_elsewhere isolated)).trans ?_
  rw [Journal.accepted_close, Journal.accepted_foldl_note]

theorem accepted_run (isolated : ∀ event ∈ events, event.Isolated setup.options.queue) :
    (r.run setup events).journal.accepted = r.journal.accepted :=
  invariant_run setup r events (fun last => last.journal.accepted = r.journal.accepted) rfl
    fun event hm _ h => (accepted_next (isolated event hm)).trans h

/-- The rest of a run from a site, with nothing written yet. -/
def resumed (r : Chronicle σ) : Chronicle σ := ⟨r.site, {}⟩

/-- While a queue is left alone, and the consumer begins with nothing in hand, the deliveries that
are processed keep within what the messages held at the start have before them. -/
theorem Standing.run_spending (h : r.Standing setup plan) (ordered : r.store.Ordered)
    (free : r.site.consumer.stage.inHand? = none)
    (bounded : (setup.options.maxAttempts : Int) ≤ maxReadCount)
    (isolated : ∀ event ∈ events, event.Isolated setup.options.queue)
    (processed : ∀ entry ∈ (r.resumed.run setup events).journal.entries,
      entry.processed setup = true) :
    ((r.resumed.run setup events).journal.entries.length : Int) ≤
      ((r.site.held setup).map (StoredMessage.due setup.options.maxAttempts)).sum := by
  have hstanding : r.resumed.Standing setup plan := ⟨h.planned, h.serves⟩
  have hentered : Custody.Entered setup [] r.resumed.custody.inHand := by
    rw [show r.resumed.custody.inHand = none from free]
    exact List.forall_mem_nil _
  have hleft : r.resumed.custody.left setup =
      ((r.site.held setup).map (StoredMessage.due setup.options.maxAttempts)).sum := by
    rw [Custody.left, show r.resumed.custody.inHand = none from free]
    rfl
  have hstart : r.resumed.custody.Spending setup
      ((r.site.held setup).map (StoredMessage.due setup.options.maxAttempts)).sum := by
    refine ⟨ordered, hentered, fun d hd => ?_, fun _ _ => ?_⟩
    · rw [show r.resumed.custody.inHand = none from free] at hd
      cases hd
    · rw [hleft]
      exact (Int.zero_add _).le
  have hlast : (r.resumed.run setup events).custody.Spending setup
      ((r.site.held setup).map (StoredMessage.due setup.options.maxAttempts)).sum :=
    hstanding.run_invariant _ hstart fun event hm k k' hk he =>
      hk.effect bounded (isolated event hm).undisturbing he
  have hwithin := hlast.within (accepted_run isolated) processed
  have hnonneg : 0 ≤ (r.resumed.run setup events).custody.left setup := by
    refine List.sum_nonneg fun n hn => ?_
    obtain ⟨m, -, rfl⟩ := List.mem_map.mp hn
    exact StoredMessage.share_nonneg _
  exact Int.le_trans (Int.le_add_of_nonneg_right hnonneg) hwithin

end Chronicle

/-! ## How far the read counts get -/

theorem nextReadCount_le (count : Int) : nextReadCount count ≤ count + 1 := by
  unfold nextReadCount maxReadCount
  split <;> omega

namespace QueueStore
variable {s t : QueueStore} {queue other body : String} {now : Moment} {delay window : Duration}
  {n : Int}

/-- Whether no message that a queue holds has been received more often than so. -/
def ReadAtMost (queue : String) (n : Int) (s : QueueStore) : Prop :=
  ∀ m ∈ s.held queue, m.readCount ≤ n

theorem ReadAtMost.of_held_eq (h : s.ReadAtMost queue n) (he : t.held queue = s.held queue) :
    t.ReadAtMost queue n := by
  rw [ReadAtMost, he]
  exact h

theorem ReadAtMost.succ (h : s.ReadAtMost queue n) : s.ReadAtMost queue (n + 1) :=
  fun m hm => Int.le_add_one (h m hm)

theorem ReadAtMost.send (h : s.ReadAtMost queue n) (hn : 0 ≤ n) :
    (s.send now other body delay).1.ReadAtMost queue n := by
  rcases s.send_cases now other body delay with ⟨-, hheld⟩ | ⟨-, hheld⟩
  · exact h.of_held_eq (hheld queue)
  · intro m hm
    rw [hheld] at hm
    split at hm
    · next same =>
      subst same
      rcases List.mem_append.mp hm with hm | hm
      · exact h m hm
      · rw [List.mem_singleton.mp hm]
        exact hn
    · exact h m hm

theorem ReadAtMost.receive (h : s.ReadAtMost queue n) :
    (s.receive now other window).1.ReadAtMost queue (n + 1) := by
  rcases s.receive_cases now other window with ⟨he, -⟩ | ⟨front, m, back, hq, -, -, -, -, hheld⟩
  · rw [he]
    exact h.succ
  · intro x hx
    rw [hheld] at hx
    split at hx
    · next same =>
      subst same
      have hm := h m (by rw [hq]; exact List.mem_append_right _ List.mem_cons_self)
      rcases List.mem_append.mp hx with hx | hx
      · exact h.succ x (by rw [hq]; exact List.mem_append_left _ hx)
      · rcases List.mem_cons.mp hx with rfl | hx
        · exact Int.le_trans (nextReadCount_le _) (Int.add_le_add_right hm 1)
        · exact h.succ x (by rw [hq]; exact List.mem_append_right _ (List.mem_cons_of_mem _ hx))
    · exact h.succ x hx

theorem ReadAtMost.delete (h : s.ReadAtMost queue n) {id : Int} :
    (s.delete other id).1.ReadAtMost queue n := by
  intro m hm
  rw [held_delete] at hm
  split at hm
  · next same =>
    subst same
    exact h m (List.mem_filter.mp hm).1
  · exact h m hm

end QueueStore

namespace Journal

theorem length_close (j : Journal) (ending : Option Ending) :
    (j.close ending).entries.length = j.entries.length := by
  unfold close
  split
  · rfl
  · split
    · next h => rw [h]; rfl
    · rfl

theorem length_deleted (j : Journal) (id : Int) (answer : Except Failure Unit) :
    (j.note (.deleted id answer)).entries.length = j.entries.length := by
  simp only [note]
  split
  · next h => rw [h]; rfl
  · rfl

end Journal

/-- The read counts of a queue against the deliveries that are written down. -/
structure Custody.Tallied (queue : String) (n : Int) (k : Custody σ) : Prop where
  nonneg : 0 ≤ n + k.journal.entries.length
  counts : k.store.ReadAtMost queue (n + k.journal.entries.length)

theorem Custody.Tallied.effect {k k' : Custody σ} {n : Int}
    (h : k.Tallied setup.options.queue n) (he : Effect setup plan .step k k') :
    k'.Tallied setup.options.queue n := by
  obtain ⟨hn, hc⟩ := h
  cases he with
  | @takes store d free received =>
    have hreceived : (store : QueueStore).ReadAtMost setup.options.queue
        (n + k.journal.entries.length + 1) := by
      rw [show store = (k.store.receive k.now _ _).1 from (congrArg Prod.fst received).symm]
      exact hc.receive
    have hsum : n + ((k.journal.note (.received (.ok (some d)))).entries.length : Int) =
        n + k.journal.entries.length + 1 := by
      simp only [Journal.note, List.length_cons]
      omega
    refine ⟨?_, ?_⟩ <;> dsimp only <;> rw [hsum]
    · omega
    · exact hreceived
  | leaves hand of kept => exact ⟨by rwa [Journal.length_close], by rwa [Journal.length_close]⟩
  | @deletes d ending store answer hand of warranted answered =>
    refine ⟨?_, ?_⟩ <;> rw [Journal.length_close, Journal.length_deleted]
    · exact hn
    · rcases answered with reached | ⟨rfl, -⟩
      · rw [show store = (k.store.delete setup.options.queue d.id).1 from congrArg Prod.fst reached]
        exact hc.delete
      · exact hc
  | @accepts delay store receipt sent =>
    refine ⟨hn, ?_⟩
    rw [show store = (k.store.send k.now _ _ delay).1 from (congrArg Prod.fst sent).symm]
    exact hc.send hn
  | beside change => exact ⟨hn, hc.of_held_eq change.held⟩
  | borrowed by_ => cases by_
  | removed by_ => cases by_
  | passes by_ => cases by_

namespace Chronicle
variable {r : Chronicle σ} {event : Event} {events : List Event}

/-- An event raises the read counts by one at most. -/
theorem Standing.readAtMost_next (h : r.Standing setup plan)
    (entered : Custody.Entered setup r.custody.journal.entries r.custody.inHand) {n : Int}
    (hn : 0 ≤ n) (hr : r.store.ReadAtMost setup.options.queue n) (event : Event) :
    (r.next setup event).store.ReadAtMost setup.options.queue (n + 1) := by
  by_cases he : event = .step
  · subst he
    have hsum : n - r.journal.entries.length + r.journal.entries.length = n :=
      Int.sub_add_cancel _ _
    have hstart : r.custody.Tallied setup.options.queue (n - r.journal.entries.length) :=
      ⟨Int.le_trans hn hsum.ge, hsum.symm ▸ hr⟩
    have hlast := Effects.invariant (h.next .step).2 (Custody.Tallied setup.options.queue _) hstart
      fun _ _ hk he _ => hk.effect he
    have hlength : (r.next setup .step).journal.entries.length ≤ r.journal.entries.length + 1 :=
      (Consumer.step_writes entered).length_bounds.2
    intro m hm
    have hm' : m.readCount ≤ n - r.journal.entries.length +
      (r.next setup .step).journal.entries.length := hlast.counts m hm
    omega
  · change (r.site.happen setup event).1.surroundings.queue.store.ReadAtMost _ _
    rcases r.site.happen_store setup he with hs | ⟨name, hs⟩ | ⟨now, name, body, delay, hs⟩ |
      ⟨now, name, window, -, hs⟩ | ⟨name, id, -, hs⟩ <;> rw [hs]
    · exact hr.succ
    · exact (hr.of_held_eq QueueStore.held_create).succ
    · exact (hr.send hn).succ
    · exact hr.receive
    · exact hr.delete.succ

end Chronicle
end WorkQueue
