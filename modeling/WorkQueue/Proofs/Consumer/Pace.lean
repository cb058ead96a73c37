import Mathlib.Order.Monotone.Basic
import WorkQueue.Proofs.Consumer.Budget
import WorkQueue.Proofs.Consumer.Schedule

/-! # The pace of a consumer

After an empty queue or a failed call to it the consumer pauses, and whatever happens meanwhile, no
iteration begins before a poll interval has passed. Without a pause it goes from one delivery to the
next only as long as there are any left, and so comes to a pause, to a closed gate or to its end.
-/
namespace WorkQueue

/-- A call that has to wait is on the list of those that wait, and nobody has woken it. -/
theorem Gate.waits_of_pending {g gate : Gate Unit} {cancelled : Bool} (once : g.callers ≤ 1)
    (polled : g.poll () cancelled = (gate, .pending)) :
    () ∈ gate.waiting ∧ () ∉ gate.woken := by
  have hcallers := (callers_poll once cancelled).1
  rw [polled] at hcallers
  have hwaits : () ∈ gate.waiting := by
    unfold poll at polled
    cases cancelled with
    | true => cases polled
    | false =>
      cases hh : g.hear? () with
      | none =>
        simp only [hh, Bool.false_eq_true, ↓reduceIte] at polled
        obtain ⟨rfl, -⟩ := Prod.mk.inj polled
        unfold await
        split
        · assumption
        · exact List.mem_append_right _ List.mem_cons_self
      | some heard =>
        simp only [hh, Bool.false_eq_true, ↓reduceIte, enter, look] at polled
        split at polled
        · cases polled
        · obtain ⟨rfl, -⟩ := Prod.mk.inj polled
          exact List.mem_append_right _ List.mem_cons_self
  refine ⟨hwaits, fun hwoken => ?_⟩
  have hfirst := List.length_pos_of_mem hwaits
  have hsecond := List.length_pos_of_mem hwoken
  simp only [callers] at hcallers
  omega

namespace QueueStore

/-- The store of one queue whose only message was sent when the clocks began, and has been received
a number of times since, each time with a window of no length. -/
def lone (queue body : String) (count : Int) : QueueStore :=
  { lastId := 1, queues := [(queue, [⟨1, count, body, 0, 0⟩])] }

theorem lone_receive {queue body : String} {count : Int} (h : count < maxReadCount) :
    ((lone queue body count).receive ⟨0, 0⟩ queue .zero).1 = lone queue body (count + 1) := by
  have hdeliver : StoredMessage.deliver ⟨1, count, body, 0, 0⟩ ⟨0, 0⟩ .zero =
      ⟨1, count + 1, body, 0, 0⟩ := by
    simp only [StoredMessage.deliver, nextReadCount_of_lt h, StoredMessage.mk.injEq, true_and]
    decide +kernel
  simp [receive, messages?, takeVisible, lone, setAt, hdeliver]

end QueueStore

variable {ι σ : Type} {setup : ConsumerSetup ι σ} {plan : FaultPlan}

namespace Site
variable {site : Site σ}

/-- Whether the consumer pauses, has to wait at its gate, or has come to its end. -/
def rests (site : Site σ) : Bool :=
  match site.consumer.stage with
  | .atGate => !site.consumer.isReady site.surroundings
  | .pausing _ => true
  | .ended => true
  | _ => false

theorem goesOn_of_busy (busy : site.rests = false) : site.consumer.stage.goesOn = true := by
  unfold rests at busy
  cases hs : site.consumer.stage <;> rw [hs] at busy <;> first | rfl | cases busy

theorem atGate_of_busy (busy : site.rests = false)
    (outside : site.consumer.stage.inIteration = false) : site.consumer.stage = .atGate := by
  cases hs : site.consumer.stage with
  | atGate => rfl
  | receiving ready =>
    rw [hs] at outside
    cases outside
  | handling d item wait =>
    rw [hs] at outside
    cases outside
  | pausing until_ =>
    rw [rests, hs] at busy
    cases busy
  | ended =>
    rw [rests, hs] at busy
    cases busy

end Site

/-- From its gate a consumer that does not have to rest goes to receive. -/
theorem Consumer.receives_of_busy {c : Consumer} {s : Surroundings σ} (placed : c.Placed)
    (at_ : c.stage = .atGate)
    (busy : Site.rests ⟨(c.step setup s).consumer, (c.step setup s).surroundings⟩ = false) :
    ∃ ready, (c.step setup s).consumer.stage = .receiving ready := by
  revert busy
  refine step_induction setup c s fun t hcourse busy => ?_
  cases hcourse with
  | waiting _ polled =>
    obtain ⟨hwaits, hasleep⟩ := Gate.waits_of_pending placed.once polled
    have token : c.cancelled = false := by
      refine Bool.eq_false_iff.mpr fun hc => ?_
      have hrefused := (Gate.poll_eq_refused (g := c.gate) (i := ())).mpr hc
      rw [polled] at hrefused
      cases hrefused
    simp [Site.rests, isReady, at_, token, hwaits, hasleep] at busy
  | refused _ polled => cases busy
  | granted _ polled => exact ⟨_, rfl⟩
  | ended at' => simp [at_] at at'
  | interrupted at' token => simp [at_] at at'
  | receiving at' token early => simp [at_] at at'
  | received at' token due => simp [at_] at at'
  | handled at' => simp [at_] at at'
  | left at' token => simp [at_] at at'
  | pausing at' token early => simp [at_] at at'
  | awakened at' token due => simp [at_] at at'

namespace Chronicle
variable {r : Chronicle σ} {event : Event} {events : List Event} {until_ : Instant}

/-! ## Pauses -/

/-- Whether a pause that lasts until an instant is on, is over, or has been cut short by the end of
the loop. -/
def Paused (until_ : Instant) (r : Chronicle σ) : Prop :=
  r.site.consumer.stage = .pausing until_ ∨ r.site.consumer.stage = .ended ∨ until_ ≤ r.site.now

theorem paused_of_setback (entered : Custody.Entered setup r.journal.entries r.custody.inHand)
    {n : Notice} (hn : n ∈ (r.site.happen setup .step).2.2) (setback : n.isSetback = true) :
    (r.next setup .step).Paused (r.site.now + setup.options.pollInterval.toNanos) :=
  .inl ((Consumer.step_writes entered).pausing_of_setback
    ((mem_queueCalls (Notice.isQueueCall_of_isSetback setback)).mpr hn) setback)

theorem Standing.now_le_next (h : r.Standing setup plan) (event : Event) :
    r.site.now ≤ (r.next setup event).site.now :=
  Effects.invariant (h.next event).2 (fun k => r.site.now ≤ k.now.running) (Nat.le_refl _)
    fun _ _ hk he _ => Nat.le_trans hk he.now_le

theorem Standing.paused_next (h : r.Standing setup plan) (paused : r.Paused until_)
    (event : Event) : (r.next setup event).Paused until_ := by
  rcases paused with at_ | ended | past
  · by_cases past : until_ ≤ r.site.now
    · exact .inr (.inr (Nat.le_trans past (h.now_le_next event)))
    · by_cases he : event = .step
      · subst he
        have early : ¬ until_ ≤ r.site.surroundings.now.running := past
        change Paused until_ ⟨⟨(r.site.consumer.step setup r.site.surroundings).consumer, _⟩, _⟩
        cases hc : r.site.consumer.cancelled with
        | true => exact .inr (.inl (by simp [Consumer.step, at_, hc, Consumer.conclude]))
        | false => exact .inl (by simp [Consumer.step, at_, hc, early])
      · exact .inl ((next_stage he setup r).trans at_)
  · exact .inr (.inl (next_ended.mpr (.inl ended)))
  · exact .inr (.inr (Nat.le_trans past (h.now_le_next event)))

/-- No iteration begins before the pause is over. -/
theorem Standing.le_now_of_paused (h : r.Standing setup plan) (paused : r.Paused until_)
    (inside : (r.run setup events).site.consumer.stage.inIteration = true) :
    until_ ≤ (r.run setup events).site.now := by
  have hlast := invariant_run setup r events
    (fun last => last.Standing setup plan ∧ last.Paused until_) ⟨h, paused⟩
    fun event _ last hl => ⟨(hl.1.next event).1, hl.1.paused_next hl.2 event⟩
  rcases hlast.2 with at_ | ended | past
  · rw [at_] at inside
    cases inside
  · rw [ended] at inside
    cases inside
  · exact past

/-! ## Iterations one after another -/

/-- What a run keeps of a consumer and its journal. -/
structure Steady (setup : ConsumerSetup ι σ) (plan : FaultPlan) (r : Chronicle σ) : Prop where
  standing : r.Standing setup plan
  entered : Custody.Entered setup r.journal.entries r.custody.inHand
  placed : r.site.consumer.Placed

theorem Steady.next (h : r.Steady setup plan) (event : Event) :
    (r.next setup event).Steady setup plan :=
  ⟨(h.standing.next event).1,
    Effects.invariant (h.standing.next event).2
      (fun k => Custody.Entered setup k.journal.entries k.inHand) h.entered
      fun _ _ hk he _ => hk.effect he,
    placed_next h.placed setup event⟩

theorem Steady.run (h : r.Steady setup plan) (events : List Event) :
    (r.run setup events).Steady setup plan :=
  invariant_run setup r events (Steady setup plan) h fun event _ _ hl => hl.next event

/-- No message has been received more often than there were events. -/
theorem Steady.readAtMost_run (h : r.Steady setup plan) {n : Int} (hn : 0 ≤ n)
    (hr : r.store.ReadAtMost setup.options.queue n) (events : List Event) :
    (r.run setup events).store.ReadAtMost setup.options.queue (n + events.length) := by
  induction events generalizing r n with
  | nil =>
    rw [show (([] : List Event).length : Int) = 0 from rfl, Int.add_zero]
    exact hr
  | cons event rest ih =>
    have hnext := h.standing.readAtMost_next h.entered hn hr event
    have hrest := ih (h.next event) (Int.add_nonneg hn Int.one_nonneg) hnext
    have hcount : n + ((event :: rest).length : Int) = n + 1 + rest.length := by
      rw [List.length_cons]
      omega
    rw [hcount]
    exact hrest

/-- How many iterations have begun, by the deliveries written down and the receive that is on. -/
def begun (r : Chronicle σ) : Nat := r.journal.entries.length + r.site.consumer.stage.begun

theorem Steady.processed_next (h : r.Steady setup plan)
    (busy : (r.next setup event).site.rests = false)
    (processed : ∀ entry ∈ r.journal.entries, entry.processed setup = true) :
    ∀ entry ∈ (r.next setup event).journal.entries, entry.processed setup = true := by
  by_cases he : event = .step
  · subst he
    exact (Consumer.step_writes h.entered).processed_of_goesOn (Site.goesOn_of_busy busy) processed
  · rwa [next_entries he]

theorem Steady.begun_le_next (h : r.Steady setup plan)
    (busy : (r.next setup event).site.rests = false) : r.begun ≤ (r.next setup event).begun := by
  by_cases he : event = .step
  · subst he
    exact (Consumer.step_writes h.entered).begun_le_of_goesOn (Site.goesOn_of_busy busy)
  · rw [begun, begun, next_entries he, next_stage he]

theorem Steady.begun_lt_next (h : r.Steady setup plan) (at_ : r.site.consumer.stage = .atGate)
    (busy : (r.next setup .step).site.rests = false) : r.begun < (r.next setup .step).begun := by
  have hlength : r.journal.entries.length ≤ (r.next setup .step).journal.entries.length :=
    (Consumer.step_writes h.entered).length_bounds.1
  have hreceives : ∃ ready, (r.next setup .step).site.consumer.stage = .receiving ready :=
    Consumer.receives_of_busy h.placed at_ busy
  obtain ⟨ready, hready⟩ := hreceives
  rw [begun, begun, at_, hready]
  exact Nat.lt_succ_of_le hlength

/-! ## Schedules without an end -/

/-- The chronicle after the first events of a schedule. -/
def along (setup : ConsumerSetup ι σ) (r : Chronicle σ) (schedule : ℕ → Event) (n : ℕ) :
    Chronicle σ :=
  r.run setup ((List.range n).map schedule)

section
variable {schedule : ℕ → Event}

theorem along_succ (n : ℕ) :
    r.along setup schedule (n + 1) = (r.along setup schedule n).next setup (schedule n) := by
  simp only [along, run, List.range_succ, List.map_append, List.map_singleton, List.foldl_append]
  rfl

theorem along_add (m n : ℕ) : r.along setup schedule (m + n) =
    (r.along setup schedule m).along setup (fun k => schedule (m + k)) n := by
  induction n with
  | zero => rfl
  | succ n ih => rw [← Nat.add_assoc, along_succ, along_succ, ih]

theorem along_resumed_site (n : ℕ) :
    (r.resumed.along setup schedule n).site = (r.along setup schedule n).site := by
  rw [along, along, run_site, run_site]
  rfl

/-- A consumer at its gate is still there when it takes its next step. -/
theorem exists_step_at_gate {m d : ℕ} (step : schedule (m + d) = .step)
    (at_ : (r.along setup schedule m).site.consumer.stage = .atGate) :
    ∃ n, m ≤ n ∧ schedule n = .step ∧
      (r.along setup schedule n).site.consumer.stage = .atGate := by
  induction d generalizing m with
  | zero => exact ⟨m, Nat.le_refl m, step, at_⟩
  | succ d ih =>
    by_cases he : schedule m = .step
    · exact ⟨m, Nat.le_refl m, he, at_⟩
    · obtain ⟨n, hn, hstep⟩ := ih (by rwa [Nat.succ_add_eq_add_succ]) (by
        rw [along_succ, next_stage he]
        exact at_)
      exact ⟨n, Nat.le_of_succ_le hn, hstep⟩

variable (steps : ∀ n, ∃ m, n ≤ m ∧ schedule m = .step)
  (returns : ∀ n, (r.along setup schedule n).site.consumer.stage.inIteration = true →
    ∃ m, n ≤ m ∧ (r.along setup schedule m).site.consumer.stage.inIteration = false)
  (busy : ∀ n, (r.along setup schedule n).site.rests = false)

include returns in
theorem exists_outside (n : ℕ) :
    ∃ m, n ≤ m ∧ (r.along setup schedule m).site.consumer.stage.inIteration = false := by
  cases hi : (r.along setup schedule n).site.consumer.stage.inIteration with
  | true => exact returns n hi
  | false => exact ⟨n, Nat.le_refl n, hi⟩

include busy in
theorem Steady.begun_mono (h : r.Steady setup plan) :
    Monotone fun n => (r.along setup schedule n).begun := by
  refine monotone_nat_of_le_succ fun n => ?_
  have hbusy := busy (n + 1)
  rw [along_succ] at hbusy ⊢
  exact (h.run _).begun_le_next hbusy

include busy in
theorem Steady.processed_along (h : r.Steady setup plan) (fresh : r.journal.entries = []) (n : ℕ) :
    ∀ entry ∈ (r.along setup schedule n).journal.entries, entry.processed setup = true := by
  induction n with
  | zero =>
    rw [show (r.along setup schedule 0).journal.entries = [] from fresh]
    exact List.forall_mem_nil _
  | succ n ih =>
    have hbusy := busy (n + 1)
    rw [along_succ] at hbusy ⊢
    exact (h.run _).processed_next hbusy ih

include steps returns busy in
/-- A consumer that never has to rest begins one iteration after another. -/
theorem Steady.exists_begun (h : r.Steady setup plan) (count : ℕ) :
    ∃ n, count ≤ (r.along setup schedule n).begun := by
  induction count with
  | zero => exact ⟨0, Nat.zero_le _⟩
  | succ count ih =>
    -- The iteration that is on comes to its end, and the next step at the gate begins another.
    obtain ⟨n, hn⟩ := ih
    obtain ⟨m, hnm, houtside⟩ := exists_outside returns n
    obtain ⟨p, hmp, hstep⟩ := steps m
    obtain ⟨d, rfl⟩ := Nat.exists_eq_add_of_le hmp
    obtain ⟨q, hmq, hq, hgate⟩ :=
      exists_step_at_gate hstep (Site.atGate_of_busy (busy m) houtside)
    have hmono : (r.along setup schedule n).begun ≤ (r.along setup schedule q).begun :=
      h.begun_mono busy (Nat.le_trans hnm hmq)
    have hbusy := busy (q + 1)
    rw [along_succ, hq] at hbusy
    refine ⟨q + 1, ?_⟩
    rw [along_succ, hq]
    exact Nat.lt_of_le_of_lt (Nat.le_trans hn hmono) ((h.run _).begun_lt_next hgate hbusy)

include steps returns in
/-- While its queue is left alone, a consumer whose iterations end has to rest again and again. -/
theorem Steady.exists_rest (h : r.Steady setup plan) (ordered : r.store.Ordered)
    (bounded : (setup.options.maxAttempts : Int) ≤ maxReadCount)
    (isolated : ∀ n, (schedule n).Isolated setup.options.queue) (n : ℕ) :
    ∃ m, n ≤ m ∧ (r.along setup schedule m).site.rests = true := by
  by_contra never
  have busy : ∀ m, n ≤ m → (r.along setup schedule m).site.rests = false := fun m hm =>
    Bool.eq_false_iff.mpr fun hr => never ⟨m, hm, hr⟩
  -- From the end of an iteration on, the deliveries are counted against the budget at that point.
  obtain ⟨m, hnm, houtside⟩ := exists_outside returns n
  let start := r.along setup schedule m
  have hstart : start.Steady setup plan := h.run _
  have hordered : start.store.Ordered :=
    h.standing.run_invariant (fun k => k.store.Ordered) ordered fun _ _ _ _ hk he => he.ordered hk
  have hfree : start.site.consumer.stage.inHand? = none := by
    rw [Site.atGate_of_busy (busy m hnm) houtside]
    rfl
  have hresumed : start.resumed.Steady setup plan := by
    refine ⟨⟨hstart.standing.planned, hstart.standing.serves⟩, ?_, hstart.placed⟩
    rw [show start.resumed.custody.inHand = none from hfree]
    exact List.forall_mem_nil _
  have hsite : ∀ k, (start.resumed.along setup (fun k => schedule (m + k)) k).site =
      (r.along setup schedule (m + k)).site := by
    intro k
    rw [along_resumed_site, along_add]
  have hbusy : ∀ k,
      (start.resumed.along setup (fun k => schedule (m + k)) k).site.rests = false := by
    intro k
    rw [hsite]
    exact busy _ (Nat.le_trans hnm (Nat.le_add_right m k))
  obtain ⟨k, hk⟩ := hresumed.exists_begun
    (fun k => by
      obtain ⟨p, hp, hstep⟩ := steps (m + k)
      obtain ⟨l, rfl⟩ := Nat.exists_eq_add_of_le (Nat.le_trans (Nat.le_add_right m k) hp)
      exact ⟨l, Nat.le_of_add_le_add_left hp, hstep⟩)
    (fun k inside => by
      rw [hsite] at inside
      obtain ⟨p, hp, houtside⟩ := returns _ inside
      obtain ⟨l, rfl⟩ := Nat.exists_eq_add_of_le (Nat.le_trans (Nat.le_add_right m k) hp)
      exact ⟨l, Nat.le_of_add_le_add_left hp, by rwa [hsite]⟩)
    hbusy
    (((start.site.held setup).map (StoredMessage.due setup.options.maxAttempts)).sum.toNat + 2)
  have hspent := hstart.standing.run_spending hordered hfree bounded
    (fun event hm => by
      obtain ⟨l, -, rfl⟩ := List.mem_map.mp hm
      exact isolated (m + l))
    (hresumed.processed_along hbusy rfl k)
  have hone := (start.resumed.along setup (fun k => schedule (m + k))
    k).site.consumer.stage.begun_le_one
  rw [begun] at hk
  simp only [along] at hk hone
  omega

end

/-! ## Received by others -/

theorem run_cons (r : Chronicle σ) (event : Event) (rest : List Event) :
    r.run setup (event :: rest) = (r.next setup event).run setup rest := rfl

/-- Receives of another client that hide the only message for no time bring its read count up, one
by one, and change nothing else. -/
theorem run_receives {body : String} (now : r.site.surroundings.now = ⟨0, 0⟩)
    (store : r.store = .lone setup.options.queue body 0) (n : ℕ) (small : n ≤ maxReadCount) :
    (r.run setup (List.replicate n (.foreign (.receive setup.options.queue .zero)))).site =
      r.site.withQueue { r.site.surroundings.queue with
        store := .lone setup.options.queue body n } := by
  induction n with
  | zero =>
    rw [Int.natCast_zero, ← store]
    rfl
  | succ n ih =>
    have hsmall : (n : Int) < maxReadCount := by omega
    rw [run_site] at ih ⊢
    rw [List.replicate_succ', List.foldl_append, ih (by omega), List.foldl_cons, List.foldl_nil]
    simp only [Site.happen, ForeignCall.carryOut, Site.withQueue, now,
      QueueStore.lone_receive hsmall,
      Int.natCast_succ]

section
variable (setup : ConsumerSetup ι σ) (workOnStartup createQueue : Bool) (plan : FaultPlan)
  (ofDay : Instant) (handlers : σ)

theorem steady_opening :
    (opening setup workOnStartup createQueue plan ofDay handlers).Steady setup plan :=
  ⟨standing_opening setup workOnStartup createQueue plan ofDay handlers, List.forall_mem_nil _,
    Consumer.placed_of_away (by cases workOnStartup <;> rfl)⟩

theorem readAtMost_opening :
    (opening setup workOnStartup createQueue plan ofDay handlers).store.ReadAtMost
      setup.options.queue 0 := by
  have hempty : (opening setup workOnStartup createQueue plan ofDay handlers).store.held
      setup.options.queue = [] := by
    change (if createQueue then ({} : QueueStore).create setup.options.queue else {}).held _ = []
    split
    · exact QueueStore.held_create
    · rfl
  intro m hm
  rw [hempty] at hm
  cases hm

/-- The consumer cannot spin. After a step that found the queue empty, or whose receive or delete
failed otherwise than by a cancellation, it is in an iteration again only a poll interval later,
whatever happens meanwhile. While nothing is sent and no other client calls the queue, the
deliveries that are processed one after another are at most as many as the messages held at the
start have attempts left, one at least for each. Only a message whose read count is the greatest
there is has all its attempts before it again, and the negative counts before them, for the count
starts over; it takes as many events to bring it there. So a consumer whose iterations come to an
end pauses, waits at its gate or ends, again and again. -/
theorem never_spins (before : List Event) :
    let queue := setup.options.queue
    let attempts : Int := setup.options.maxAttempts
    let r := (opening setup workOnStartup createQueue plan ofDay handlers).run setup before
    let held := r.site.held setup
    (∀ n ∈ (r.site.happen setup .step).2.2, n.isSetback = true → ∀ after : List Event,
      let last := (r.next setup .step).run setup after
      last.site.consumer.stage.inIteration = true →
        r.site.now + setup.options.pollInterval.toNanos ≤ last.site.now) ∧
    (∀ m ∈ held, m.readCount ≤ before.length) ∧
    (attempts ≤ maxReadCount →
      (r.site.consumer.stage.inHand? = none → ∀ during : List Event,
        (∀ event ∈ during, event.Isolated queue) →
        let entries := (r.resumed.run setup during).journal.entries
        (∀ entry ∈ entries, entry.processed setup = true) →
        entries.length ≤ (held.map fun m =>
          if m.readCount = maxReadCount then attempts + maxReadCount + 2
          else max 1 (attempts - m.readCount)).sum) ∧
      ∀ schedule : ℕ → Event, (∀ n, (schedule n).Isolated queue) →
        (∀ n, ∃ m, n ≤ m ∧ schedule m = .step) →
        let site := fun n => (r.along setup schedule n).site
        (∀ n, (site n).consumer.stage.inIteration = true →
          ∃ m, n ≤ m ∧ (site m).consumer.stage.inIteration = false) →
        ∀ n, ∃ m, n ≤ m ∧ (site m).rests = true) := by
  intro queue attempts r held
  have hopening := steady_opening setup workOnStartup createQueue plan ofDay handlers
  have hr : r.Steady setup plan := hopening.run before
  have hordered : r.store.Ordered :=
    ordered_run setup workOnStartup createQueue plan ofDay handlers before
  refine ⟨?_, ?_, fun bounded => ⟨?_, ?_⟩⟩
  · intro n hn setback after last inside
    have hpaused := paused_of_setback hr.entered hn setback
    exact (hr.next .step).standing.le_now_of_paused hpaused inside
  · have hcounts := hopening.readAtMost_run (Int.le_refl 0)
      (readAtMost_opening setup workOnStartup createQueue plan ofDay handlers) before
    rwa [Int.zero_add] at hcounts
  · intro free during isolated entries processed
    have hspent := hr.standing.run_spending hordered free bounded isolated processed
    have hdue : StoredMessage.due setup.options.maxAttempts = fun m =>
        if m.readCount = maxReadCount then attempts + maxReadCount + 2
        else max 1 (attempts - m.readCount) :=
      funext fun m => m.due_eq (Int.natCast_nonneg _)
    exact hdue ▸ hspent
  · intro schedule isolated steps site returns
    exact hr.exists_rest steps returns hordered bounded isolated

end

/-- With a window of no length a message that fails on both of two attempts is delivered twice and
then gone, and the next receive begins only after the pause, although the processor is stopped and
started meanwhile. A consumer that is cancelled comes to its end. -/
theorem never_spins_of_failing :
    let failing := ConsumerSetup.uniform 2 (.error (.other "busy"))
    let setup := { failing with options := { failing.options with invisibility := .zero } }
    let body := "\x7b\"id\":\"a\",\"type\":\"t\"\x7d"
    let sent : List Event := [.command (.send body .zero)]
    let during : List Event := [.step, .step, .step, .step]
    let start := opening setup true true .none 0 0
    let r := start.run setup sent
    let idle := start.run setup (sent ++ during ++ [.step])
    let paused := idle.next setup .step
    let after : List Event := [.command .stop, .command .start, .tick (10 * nanosPerSecond), .step,
      .step]
    let schedule : ℕ → Event := fun n => if n = 3 then .command .cancel else .step
    (setup.options.maxAttempts : Int) ≤ maxReadCount ∧
      (r.resumed.run setup during).journal.entries.length = 2 ∧
      (∀ entry ∈ (r.resumed.run setup during).journal.entries, entry.processed setup = true) ∧
      ((r.resumed.run setup during).journal.entries.length : Int) ≤
        ((r.site.held setup).map fun m =>
          if m.readCount = maxReadCount then 2 + maxReadCount + 2
          else max 1 (2 - m.readCount)).sum ∧
      (paused.run setup after).site.consumer.stage.inIteration = true ∧
      idle.site.now + setup.options.pollInterval.toNanos ≤ (paused.run setup after).site.now ∧
      ∀ n, ∃ m, n ≤ m ∧ (r.along setup schedule m).site.rests = true := by
  intro failing setup body sent during start r idle paused after schedule
  obtain ⟨-, -, hrest⟩ := never_spins setup true true .none 0 0 sent
  obtain ⟨hpause, -⟩ := never_spins setup true true .none 0 0 (sent ++ during ++ [.step])
  have hbounded : (setup.options.maxAttempts : Int) ≤ maxReadCount := by decide +kernel
  obtain ⟨hbudget, hends⟩ := hrest hbounded
  have hfree : r.site.consumer.stage.inHand?.isNone = true := by decide +kernel
  have hisolated : ∀ event ∈ during, event.Isolated setup.options.queue := by
    simp [during, Event.Isolated]
  have hprocessed : ∀ entry ∈ (r.resumed.run setup during).journal.entries,
      entry.processed setup = true := by decide +kernel
  have htwo : (r.resumed.run setup during).journal.entries.length = 2 := by decide +kernel
  have hsetback : ((idle.site.happen setup .step).2.2.any Notice.isSetback) = true := by
    decide +kernel
  obtain ⟨n, hn, setback⟩ := List.any_eq_true.mp hsetback
  have hlater := hpause n hn setback after (by decide +kernel)
  have hended : ∀ m, 5 ≤ m → (r.along setup schedule m).site.consumer.stage = .ended := by
    intro m hm
    induction m, hm using Nat.le_induction with
    | base => exact Consumer.isStopped_iff_stage.mp (by decide +kernel)
    | succ m _ ih =>
      rw [along_succ]
      exact next_ended.mpr (.inl ih)
  refine ⟨hbounded, htwo, hprocessed, ?_, by decide +kernel, hlater, ?_⟩
  · exact hbudget (Option.isNone_iff_eq_none.mp hfree) during hisolated hprocessed
  · refine hends schedule (fun n => ?_) (fun n => ⟨n + 4, Nat.le_add_right n 4, ?_⟩) fun n _ =>
      ⟨n + 5, Nat.le_add_right n 5, ?_⟩
    · simp only [schedule]
      split <;> trivial
    · exact if_neg (by omega)
    · dsimp only
      rw [hended _ (Nat.le_add_left 5 n)]
      rfl

/-- A message that another client has received as often as can be counted is delivered twice in a
row, without a pause, to a consumer that allows two attempts, although it has but one delivery left:
its count starts over. -/
theorem spins_of_wrapped_count :
    let failing := ConsumerSetup.uniform 2 (.error (.other "busy"))
    let setup := { failing with options := { failing.options with invisibility := .zero } }
    let body := "\x7b\"id\":\"a\",\"type\":\"t\"\x7d"
    let before : List Event := .command (.send body .zero) ::
      List.replicate 2147483647 (.foreign (.receive setup.options.queue .zero))
    let during : List Event := [.step, .step, .step, .step]
    let r := (opening setup true true .none 0 0).run setup before
    let entries := (r.resumed.run setup during).journal.entries
    (setup.options.maxAttempts : Int) ≤ maxReadCount ∧ r.site.consumer.stage.inHand? = none ∧
      (r.site.held setup).map StoredMessage.readCount = [maxReadCount] ∧
      (∀ event ∈ during, event.Isolated setup.options.queue) ∧
      (∀ k ≤ 4, (r.resumed.run setup (during.take k)).site.rests = false) ∧
      (∀ entry ∈ entries, entry.processed setup = true) ∧
      ((r.site.held setup).map fun m => max (1 : Int) (2 - m.readCount)).sum < entries.length := by
  intro failing setup body before during r entries
  let start := (opening setup true true .none 0 0).next setup (.command (.send body .zero))
  let wrapping : Chronicle Nat := ⟨start.site.withQueue { start.site.surroundings.queue with
    store := .lone setup.options.queue body (2147483647 : ℕ) }, {}⟩
  have hnow : start.site.surroundings.now = ⟨0, 0⟩ := by decide +kernel
  have hid : start.store.lastId = 1 := by decide +kernel
  have hqueues : start.store.queues = [(setup.options.queue, [⟨1, 0, body, 0, 0⟩])] := by
    decide +kernel
  have hstore : start.store = .lone setup.options.queue body 0 := calc
    start.store = ⟨start.store.lastId, start.store.queues⟩ := rfl
    _ = .lone setup.options.queue body 0 := by rw [hid, hqueues, QueueStore.lone]
  have hrun : r = start.run setup
      (List.replicate 2147483647 (.foreign (.receive setup.options.queue .zero))) :=
    run_cons _ _ _
  have hsite : r.site = wrapping.site := by
    rw [hrun]
    exact run_receives hnow hstore 2147483647 (Int.le_refl _)
  have hresumed : r.resumed = wrapping := by rw [resumed, hsite]
  have hentries : entries = (wrapping.run setup during).journal.entries := by
    rw [← hresumed]
  have hcounts : (wrapping.site.held setup).map StoredMessage.readCount = [maxReadCount] := by
    decide +kernel
  have hbusy : ∀ k ≤ 4, (wrapping.run setup (during.take k)).site.rests = false := by
    decide +kernel
  have hprocessed : ∀ entry ∈ (wrapping.run setup during).journal.entries,
      entry.processed setup = true := by decide +kernel
  have hbound : ((wrapping.site.held setup).map fun m => max (1 : Int) (2 - m.readCount)).sum <
      (wrapping.run setup during).journal.entries.length := by decide +kernel
  refine ⟨by decide +kernel, ?_, ?_, by simp [during, Event.Isolated], ?_, ?_, ?_⟩
  · rw [hsite]
    rfl
  · rw [hsite]
    exact hcounts
  · rw [hresumed]
    exact hbusy
  · rw [hentries]
    exact hprocessed
  · rw [hsite, hentries]
    exact hbound

end Chronicle
end WorkQueue
