import WorkQueue.Proofs.Consumer.Drain

/-! # Cancellation

Once the token of a consumer has fired, its next step leads to the end of its loop, from wherever
it stands. On the way it leaves the queue and the handlers as they are, so the message in hand
stays held with the read count of its delivery, and it gives the permit back.
-/
namespace WorkQueue

/-! ## A consumer is at the gate only while it stands there -/

namespace Gate
variable {ι : Type} {g : Gate ι}

/-- How many calls wait at the gate or have been woken there. -/
def callers (g : Gate ι) : Nat := g.waiting.length + g.woken.length

theorem callers_wake : g.wake.callers = g.callers := by
  unfold wake
  cases hw : g.waiting with
  | nil => simp [callers, hw]
  | cons i rest =>
    simp only [callers, hw, List.length_cons, List.length_append, List.length_nil]
    omega

theorem callers_start : g.start.1.callers = g.callers := by
  unfold start
  split
  · exact callers_wake
  · rfl
  · rfl

theorem callers_finishAndStop : g.finishAndStop.1.callers = g.callers := by
  unfold finishAndStop
  split
  · split <;> rfl
  · rfl

theorem callers_release : g.release.1.callers = g.callers := by
  unfold release
  split
  · rfl
  · exact callers_wake
  · rfl

theorem callers_enter (g : Gate ι) (i : ι) :
    (g.enter i).1.callers = g.callers + if (g.enter i).2 = .granted then 0 else 1 := by
  unfold enter look
  by_cases ho : g.isOpen = true
  · simp [ho, callers]
  · simp only [ho, Bool.false_eq_true, ↓reduceIte, callers, List.length_append, List.length_cons,
      List.length_nil]
    simp
    omega

theorem eq_nil_of_unit_notMem {l : List Unit} (h : () ∉ l) : l = [] :=
  List.eq_nil_iff_forall_not_mem.mpr fun _ => h

variable {alone heard : Gate Unit}

theorem callers_of_hear? (h : alone.callers ≤ 1) (hh : alone.hear? () = some heard) :
    heard.callers = 0 := by
  unfold callers at h
  obtain ⟨hw, rfl⟩ | ⟨hw, hwaiting, -, rfl⟩ := hear?_cases hh
  · have hpos := List.length_pos_of_mem hw
    simp only [callers, List.length_erase_of_mem hw]
    omega
  · simp [callers, eq_nil_of_unit_notMem hw, eq_nil_of_unit_notMem hwaiting]

theorem callers_drop (h : alone.callers ≤ 1) : (alone.drop ()).callers = 0 := by
  unfold callers at h
  unfold drop
  by_cases hw : () ∈ alone.woken
  · have hpos := List.length_pos_of_mem hw
    rw [if_pos hw, callers_wake]
    simp only [callers, List.length_erase_of_mem hw]
    omega
  · rw [if_neg hw]
    simp only [callers, eq_nil_of_unit_notMem hw, List.length_nil, Nat.add_zero] at h ⊢
    by_cases hi : () ∈ alone.waiting
    · rw [List.length_erase_of_mem hi]
      omega
    · simp [eq_nil_of_unit_notMem hi]

theorem callers_await (h : alone.callers ≤ 1) (hw : () ∉ alone.woken) :
    (alone.await ()).callers ≤ 1 := by
  unfold await
  split
  · exact h
  · next hi => simp [callers, eq_nil_of_unit_notMem hw, eq_nil_of_unit_notMem hi]

/-- The only call at a gate stays there as long as it has to wait, and no longer. -/
theorem callers_poll (h : alone.callers ≤ 1) (cancelled : Bool) :
    (alone.poll () cancelled).1.callers ≤ 1 ∧
    ((alone.poll () cancelled).2 ≠ .pending → (alone.poll () cancelled).1.callers = 0) := by
  cases cancelled with
  | true =>
    have hdrop := callers_drop h
    exact ⟨Nat.le_trans (Nat.le_of_eq hdrop) (Nat.zero_le 1), fun _ => hdrop⟩
  | false =>
    cases hh : alone.hear? () with
    | none =>
      simp only [poll, Bool.false_eq_true, ↓reduceIte, hh]
      exact ⟨callers_await h (hear?_eq_none hh).1, fun hne => absurd rfl hne⟩
    | some heard =>
      have hcount := heard.callers_enter ()
      rw [callers_of_hear? h hh, Nat.zero_add] at hcount
      have hanswer : (heard.enter ()).2 = .granted ∨ (heard.enter ()).2 = .pending := by
        unfold enter
        split
        · exact .inl rfl
        · exact .inr rfl
      simp only [poll, Bool.false_eq_true, ↓reduceIte, hh]
      rcases hanswer with ha | ha
      · rw [if_pos ha] at hcount
        exact ⟨by omega, fun _ => hcount⟩
      · rw [if_neg (by rw [ha]; simp)] at hcount
        exact ⟨Nat.le_of_eq hcount, fun hne => absurd ha hne⟩

end Gate

variable {ι σ : Type} {setup : ConsumerSetup ι σ}

namespace Consumer
variable {c : Consumer} {s : Surroundings σ}

/-- A consumer that stands elsewhere does not call at its gate, and one that stands there calls
once. -/
structure Placed (c : Consumer) : Prop where
  once : c.gate.callers ≤ 1
  away : c.stage ≠ .atGate → c.gate.callers = 0

theorem placed_of_away (h : c.gate.callers = 0) : c.Placed :=
  ⟨Nat.le_trans (Nat.le_of_eq h) (Nat.zero_le 1), fun _ => h⟩

theorem Placed.recalled (h : c.Placed) {gate : Gate Unit} (same : gate.callers = c.gate.callers) :
    ({ c with gate := gate } : Consumer).Placed :=
  ⟨Nat.le_trans (Nat.le_of_eq same) h.once, fun away => same.trans (h.away away)⟩

theorem callers_of_crowd {c' : Consumer}
    (h : c'.crowd = c.crowd ∨ c'.crowd = c.crowd.step (.release ())) :
    c'.gate.callers = c.gate.callers := by
  rcases h with h | h
  · rw [show c'.gate = c.gate from congrArg Crowd.gate h]
  · rw [show c'.gate = (c.crowd.step (.release ())).gate from congrArg Crowd.gate h]
    simp only [Crowd.step]
    split
    · exact Gate.callers_release
    · rfl

theorem placed_step (h : c.Placed) (setup : ConsumerSetup ι σ) (s : Surroundings σ) :
    (c.step setup s).consumer.Placed := by
  refine step_induction setup c s fun t hcourse => ?_
  have hpoll := Gate.callers_poll h.once c.cancelled
  cases hcourse with
  | ended at_ => exact h
  | waiting at_ polled =>
    rw [polled] at hpoll
    exact ⟨hpoll.1, fun hne => absurd at_ hne⟩
  | refused at_ polled =>
    rw [polled] at hpoll
    exact placed_of_away (hpoll.2 (by simp))
  | granted at_ polled =>
    rw [polled] at hpoll
    exact placed_of_away (hpoll.2 (by simp))
  | interrupted at_ token =>
    have hin : c.stage.inIteration = true := by rw [at_]; rfl
    refine placed_of_away ((callers_of_crowd (.inr (finish_crowd hin _))).trans (h.away ?_))
    simp [at_]
  | receiving at_ token early => exact h
  | received at_ token due =>
    have hin : c.stage.inIteration = true := by rw [at_]; rfl
    refine placed_of_away ((callers_of_crowd (receive_crowd setup s hin)).trans (h.away ?_))
    simp [at_]
  | handled at_ =>
    have hin : c.stage.inIteration = true := by rw [at_]; rfl
    refine placed_of_away ((callers_of_crowd (follow_crowd setup _ _ hin)).trans (h.away ?_))
    simp [at_]
  | left at_ token => exact placed_of_away (h.away (by simp [at_]))
  | pausing at_ token early => exact h
  | awakened at_ token due => exact placed_of_away (h.away (by simp [at_]))

/-- Whether the end of a pause or the cancellation is noticed first makes no difference. -/
theorem step_of_pause_over (h : c.Placed) (setup : ConsumerSetup ι σ) (s : Surroundings σ)
    {until_ : Instant} (at_ : c.stage = .pausing until_) (token : c.cancelled = true) :
    ({ c with stage := .atGate } : Consumer).step setup s = c.step setup s := by
  have haway := h.away (by simp [at_])
  obtain ⟨hwaiting, hwoken⟩ := Nat.eq_zero_of_add_eq_zero haway
  have hgate : c.gate.drop () = c.gate := by
    have hnone : () ∉ c.gate.woken := by simp [List.length_eq_zero_iff.mp hwoken]
    have herase : c.gate.waiting.erase () = c.gate.waiting := by
      simp [List.length_eq_zero_iff.mp hwaiting]
    rw [Gate.drop, if_neg hnone, herase]
  simp [step, at_, token, Gate.poll, hgate, conclude]

end Consumer

/-! ## The message in hand -/

variable {site : Site σ} {event : Event}

/-- Beside the steps of a consumer its store is changed by what is sent to it and by the calls of
other clients. -/
theorem Site.happen_store (setup : ConsumerSetup ι σ) (site : Site σ) (h : event ≠ .step) :
    let s := site.surroundings.queue.store
    let t := (site.happen setup event).1.surroundings.queue.store
    t = s ∨ (∃ name, t = s.create name) ∨
      (∃ now name body delay, t = (s.send now name body delay).1) ∨
      (∃ now name window, event = .foreign (.receive name window) ∧
        t = (s.receive now name window).1) ∨
      ∃ name id, event = .foreign (.delete name id) ∧ t = (s.delete name id).1 := by
  have hsend : ∀ (q : UnreliableQueue) now name body delay,
      (q.send now name body delay).1.store = q.store ∨
        (q.send now name body delay).1.store = (q.store.send now name body delay).1 := by
    intro q now name body delay
    rcases q.send_cases now name body delay with hs | ⟨hs, -⟩
    · exact .inr (congrArg Prod.fst hs)
    · exact .inl hs
  cases event with
  | step => exact absurd rfl h
  | tick span => exact .inl rfl
  | command command =>
    cases command with
    | createQueue => exact .inr (.inl ⟨_, rfl⟩)
    | send body delay =>
      rcases hsend site.surroundings.queue site.surroundings.now setup.options.queue body delay
        with hs | hs
      · exact .inl hs
      · exact .inr (.inr (.inl ⟨_, _, _, _, hs⟩))
    | produce payload delay =>
      simp only [Site.happen, Site.apply, Site.withQueue, Producer.produceDelayed]
      cases he : payload.encode with
      | error failure => exact .inl (by rw [Producer.submit_of_error he])
      | ok body =>
        rw [Producer.submit_of_ok he]
        rcases hsend site.surroundings.queue site.surroundings.now setup.options.queue body delay
          with hs | hs
        · exact .inl hs
        · exact .inr (.inr (.inl ⟨_, _, _, _, hs⟩))
    | _ => exact .inl rfl
  | foreign call =>
    cases call with
    | create name => exact .inr (.inl ⟨name, rfl⟩)
    | send name body delay => exact .inr (.inr (.inl ⟨_, name, body, delay, rfl⟩))
    | receive name window => exact .inr (.inr (.inr (.inl ⟨_, name, window, rfl, rfl⟩)))
    | delete name id => exact .inr (.inr (.inr (.inr ⟨name, id, rfl, rfl⟩)))

/-- Nobody but the consumer takes a message out of its queue if no other client does. -/
theorem Site.happen_contains (setup : ConsumerSetup ι σ) (site : Site σ) (h : event ≠ .step)
    (keeps : event.Keeps setup.options.queue) {id : Int}
    (held : site.surroundings.queue.store.contains setup.options.queue id = true) :
    (site.happen setup event).1.surroundings.queue.store.contains setup.options.queue id =
      true := by
  rcases site.happen_store setup h with he | ⟨name, he⟩ | ⟨now, name, body, delay, he⟩ |
    ⟨now, name, window, -, he⟩ | ⟨name, other, rfl, he⟩ <;> rw [he]
  · exact held
  · exact (QueueStore.contains_of_held_eq QueueStore.held_create id).trans held
  · exact QueueStore.contains_send_of_contains held
  · exact QueueStore.contains_receive.trans held
  · exact (QueueStore.contains_of_held_eq (QueueStore.Beside.delete_of_ne keeps).held id).trans held

namespace QueueStore
variable {s t : QueueStore} {queue name body : String} {now : Moment} {delay : Duration}

/-- A change of the store that leaves every message which a queue holds as it is. -/
structure Retains (queue : String) (s t : QueueStore) : Prop where
  ordered : s.Ordered → t.Ordered
  message : s.Ordered → ∀ {id m}, s.message? queue id = some m → t.message? queue id = some m

theorem Retains.refl (queue : String) (s : QueueStore) : s.Retains queue s :=
  ⟨id, fun _ _ _ h => h⟩

theorem Retains.trans {u : QueueStore} (hst : s.Retains queue t) (htu : t.Retains queue u) :
    s.Retains queue u :=
  ⟨fun hs => htu.ordered (hst.ordered hs),
    fun hs _ _ hm => htu.message (hst.ordered hs) (hst.message hs hm)⟩

theorem Beside.retains (h : s.Beside queue t) : s.Retains queue t := by
  refine ⟨h.ordered, fun _ id m hm => ?_⟩
  rw [message?_of_held_eq h.held]
  exact hm

theorem retains_send : s.Retains queue (s.send now name body delay).1 := by
  cases ha : (s.send now name body delay).2 with
  | error failure => exact (Beside.send_error ha).retains
  | ok receipt =>
    refine ⟨Ordered.send, fun hs id m hm => ?_⟩
    obtain ⟨hreceipt, hview⟩ := message?_send_ok hs ha
    -- The new identity is beyond the counter, and that of the message is not.
    have hle := id_le_of_message? hs hm
    rw [hview, if_neg]
    · exact hm
    · rintro ⟨-, he⟩
      rw [he, hreceipt] at hle
      dsimp only at hle
      omega

end QueueStore

/-- Nobody but the consumer delivers a message of its queue either. -/
theorem Site.happen_retains (setup : ConsumerSetup ι σ) (site : Site σ) (h : event ≠ .step)
    (undisturbed : event.Undisturbing setup.options.queue) :
    site.surroundings.queue.store.Retains setup.options.queue
      (site.happen setup event).1.surroundings.queue.store := by
  rcases site.happen_store setup h with he | ⟨name, he⟩ | ⟨now, name, body, delay, he⟩ |
    ⟨now, name, window, rfl, he⟩ | ⟨name, other, rfl, he⟩ <;> rw [he]
  · exact .refl _ _
  · exact QueueStore.Beside.create.retains
  · exact QueueStore.retains_send
  · exact (QueueStore.Beside.receive_of_ne undisturbed).retains
  · exact (QueueStore.Beside.delete_of_ne undisturbed).retains

section
variable {plan : FaultPlan} {event : Event} {k k' : Custody σ}

namespace Custody

/-- The queue holds the message in hand. -/
def Holding (setup : ConsumerSetup ι σ) (k : Custody σ) : Prop :=
  ∀ d, k.inHand = some d → k.store.contains setup.options.queue d.id = true

/-- The queue counts as many deliveries of the message in hand as that delivery says. -/
def Counting (setup : ConsumerSetup ι σ) (k : Custody σ) : Prop :=
  ∀ d, k.inHand = some d → k.store.readCount? setup.options.queue d.id = some d.readCount

theorem Holding.effect (h : k.Holding setup) (ordered : k.store.Ordered)
    (keeps : event.Keeps setup.options.queue) (he : Effect setup plan event k k') :
    k'.Holding setup := by
  cases he with
  | takes free received =>
    obtain ⟨m, -, -, hview⟩ := QueueStore.message?_receive ordered (congrArg Prod.snd received)
    rw [congrArg Prod.fst received] at hview
    rintro d ⟨⟩
    rw [QueueStore.contains_eq_isSome, hview, if_pos ⟨rfl, rfl⟩]
    rfl
  | leaves hand of kept => exact nofun
  | deletes hand of warranted answered => exact nofun
  | @accepts delay store receipt sent =>
    have hstore : (k.store.send k.now _ _ delay).1 = store := congrArg Prod.fst sent
    exact fun d hd => hstore ▸ QueueStore.contains_send_of_contains (h d hd)
  | beside change => exact fun d hd => (QueueStore.contains_of_held_eq change.held _).trans (h d hd)
  | borrowed by_ => exact fun d hd => QueueStore.contains_receive.trans (h d hd)
  | removed by_ =>
    subst by_
    exact absurd rfl keeps
  | passes by_ => exact h

theorem Counting.retained {store : QueueStore} (h : k.Counting setup) (ordered : k.store.Ordered)
    (kept : k.store.Retains setup.options.queue store) {d : Delivery} (hand : k.inHand = some d) :
    store.readCount? setup.options.queue d.id = some d.readCount := by
  obtain ⟨m, hm, hcount⟩ := Option.map_eq_some_iff.mp (h d hand)
  exact Option.map_eq_some_iff.mpr ⟨m, kept.message ordered hm, hcount⟩

theorem Counting.effect (h : k.Counting setup) (ordered : k.store.Ordered)
    (undisturbed : event.Undisturbing setup.options.queue) (he : Effect setup plan event k k') :
    k'.Counting setup := by
  cases he with
  | takes free received =>
    obtain ⟨m, -, hd, hview⟩ := QueueStore.message?_receive ordered (congrArg Prod.snd received)
    rw [congrArg Prod.fst received] at hview
    rintro d ⟨⟩
    rw [QueueStore.readCount?, hview, if_pos ⟨rfl, rfl⟩, hd]
    rfl
  | leaves hand of kept => exact nofun
  | deletes hand of warranted answered => exact nofun
  | @accepts delay store receipt sent =>
    have hstore : (k.store.send k.now _ _ delay).1 = store := congrArg Prod.fst sent
    exact fun d hd => h.retained ordered (hstore ▸ QueueStore.retains_send) hd
  | beside change => exact fun d hd => h.retained ordered change.retains hd
  | borrowed by_ =>
    subst by_
    exact absurd rfl undisturbed
  | removed by_ =>
    subst by_
    exact absurd rfl undisturbed
  | passes by_ => exact h

end Custody

end

namespace Chronicle
variable {r : Chronicle σ} {event : Event} {events : List Event}

def store (r : Chronicle σ) : QueueStore := r.site.surroundings.queue.store

theorem ordered_opening (setup : ConsumerSetup ι σ) (workOnStartup createQueue : Bool)
    (plan : FaultPlan) (ofDay : Instant) (handlers : σ) :
    (opening setup workOnStartup createQueue plan ofDay handlers).store.Ordered := by
  change (if createQueue then ({} : QueueStore).create setup.options.queue else {}).Ordered
  split
  · exact QueueStore.ordered_empty.create
  · exact QueueStore.ordered_empty

theorem placed_next (h : r.site.consumer.Placed) (setup : ConsumerSetup ι σ) (event : Event) :
    (r.next setup event).site.consumer.Placed := by
  cases event with
  | step => exact Consumer.placed_step h setup r.site.surroundings
  | command command =>
    cases command with
    | start => exact h.recalled Gate.callers_start
    | stop => exact h.recalled Gate.callers_finishAndStop
    | _ => exact ⟨h.once, h.away⟩
  | tick span => exact h
  | foreign call => exact h

theorem store_next_step (token : r.site.consumer.cancelled = true) (setup : ConsumerSetup ι σ) :
    (r.next setup .step).store = r.store :=
  congrArg UnreliableQueue.store
    (Consumer.step_quiet_of_cancelled setup r.site.surroundings token).queue

/-- Once a consumer has been cancelled, its queue loses messages to other clients only. -/
theorem contains_run (token : r.site.consumer.cancelled = true)
    (kept : ∀ e ∈ events, e.Keeps setup.options.queue) {id : Int}
    (held : r.store.contains setup.options.queue id = true) :
    (r.run setup events).store.contains setup.options.queue id = true := by
  have hboth := invariant_run setup r events (fun r => r.site.consumer.cancelled = true ∧
    r.store.contains setup.options.queue id = true) ⟨token, held⟩ ?_
  · exact hboth.2
  rintro event hm r ⟨hc, hr⟩
  refine ⟨next_cancelled.mpr (.inl hc), ?_⟩
  by_cases he : event = .step
  · rw [he, store_next_step hc]
    exact hr
  · exact r.site.happen_contains setup he (kept event hm) hr

/-- Once a consumer has been cancelled, only other clients change the messages of its queue. -/
theorem retains_run (token : r.site.consumer.cancelled = true)
    (undisturbed : ∀ e ∈ events, e.Undisturbing setup.options.queue) :
    r.store.Retains setup.options.queue (r.run setup events).store := by
  have hboth := invariant_run setup r events (fun last => last.site.consumer.cancelled = true ∧
    r.store.Retains setup.options.queue last.store) ⟨token, .refl _ _⟩ ?_
  · exact hboth.2
  rintro event hm last ⟨hc, hr⟩
  refine ⟨next_cancelled.mpr (.inl hc), hr.trans ?_⟩
  by_cases he : event = .step
  · rw [he, store_next_step hc]
    exact .refl _ _
  · exact last.site.happen_retains setup he (undisturbed event hm)

theorem ended_next (h : r.crowd.Exclusive) (token : r.site.consumer.cancelled = true)
    (setup : ConsumerSetup ι σ) :
    (r.next setup .step).site.consumer.stage = .ended ∧
    (r.next setup .step).site.consumer.gate.inFlight = false ∧
    (r.next setup .step).state = if r.state = .stopping then .stopped else r.state := by
  have hended : (r.next setup .step).site.consumer.stage = .ended :=
    next_ended.mpr (.inr ⟨rfl, .inl token⟩)
  have houtside : (r.next setup .step).site.consumer.stage.inIteration = false := by
    rw [hended]
    rfl
  have hx := exclusive_next h setup .step
  refine ⟨hended, (Consumer.inFlight_eq_inIteration hx).trans houtside, ?_⟩
  by_cases hs : r.state = .stopping
  · rw [if_pos hs, state_next_of_stopping h hs, houtside]
    rfl
  · rw [if_neg hs]
    rcases state_next setup r .step with he | ⟨he, -⟩ | ⟨he, -⟩ | ⟨he, -⟩
    · exact he
    · cases he
    · cases he
    · exact absurd he hs

theorem ended_of_step (token : r.site.consumer.cancelled = true) (setup : ConsumerSetup ι σ)
    (stepped : .step ∈ events) : (r.run setup events).site.consumer.stage = .ended := by
  obtain ⟨during, rest, rfl⟩ := List.append_of_mem stepped
  exact run_ended.mpr (.inr ⟨during, rest, rfl, .inl (run_cancelled.mpr (.inl token))⟩)

theorem quiet_of_cancelled (token : r.site.consumer.cancelled = true) (setup : ConsumerSetup ι σ)
    (events : List Event) : r.Quiet setup events :=
  quiet_of_invariant setup r events (fun r => r.site.consumer.cancelled = true) token
    (fun _ _ _ h => next_cancelled.mpr (.inl h))
    fun r h => Consumer.step_quiet_of_cancelled setup r.site.surroundings h

section
variable (setup : ConsumerSetup ι σ) (workOnStartup createQueue : Bool) (plan : FaultPlan)
  (ofDay : Instant) (handlers : σ)

theorem placed_run (events : List Event) :
    ((opening setup workOnStartup createQueue plan ofDay handlers).run setup
      events).site.consumer.Placed :=
  invariant_run setup _ events (fun r => r.site.consumer.Placed)
    (Consumer.placed_of_away (by cases workOnStartup <;> rfl))
    fun event _ _ h => placed_next h setup event

theorem ordered_run (events : List Event) :
    ((opening setup workOnStartup createQueue plan ofDay handlers).run setup
      events).store.Ordered :=
  (standing_opening setup workOnStartup createQueue plan ofDay handlers).run_invariant
    (fun k => k.store.Ordered)
    (ordered_opening setup workOnStartup createQueue plan ofDay handlers)
    fun _ _ _ _ h he => he.ordered h

theorem holding_run {events : List Event} (kept : ∀ e ∈ events, e.Keeps setup.options.queue) :
    ((opening setup workOnStartup createQueue plan ofDay handlers).run setup
      events).custody.Holding setup :=
  ((standing_opening setup workOnStartup createQueue plan ofDay handlers).run_invariant
    (fun k => k.store.Ordered ∧ k.Holding setup)
    ⟨ordered_opening setup workOnStartup createQueue plan ofDay handlers, nofun⟩
    fun e hm _ _ h he => ⟨he.ordered h.1, h.2.effect h.1 (kept e hm) he⟩).2

theorem counting_run {events : List Event}
    (undisturbed : ∀ e ∈ events, e.Undisturbing setup.options.queue) :
    ((opening setup workOnStartup createQueue plan ofDay handlers).run setup
      events).custody.Counting setup :=
  ((standing_opening setup workOnStartup createQueue plan ofDay handlers).run_invariant
    (fun k => k.store.Ordered ∧ k.Counting setup)
    ⟨ordered_opening setup workOnStartup createQueue plan ofDay handlers, nofun⟩
    fun e hm _ _ h he => ⟨he.ordered h.1, h.2.effect h.1 (undisturbed e hm) he⟩).2

/-- From its cancellation on a consumer does no work, whatever happens around it: it receives and
deletes nothing and calls no handler. Its first step from there ends the loop with nothing in
flight, so that a processor which drains is stopped and another one stays as it is. It makes no
difference whether a pause has run out by then. The message in hand stays held unless another
client deletes it, and its read count is that of the delivery, and stays so, unless another client
receives it; and so it is with all that the queue holds. -/
theorem cancelled_for_good (before after : List Event) :
    let queue := setup.options.queue
    let r := ((opening setup workOnStartup createQueue plan ofDay handlers).run setup before).next
      setup (.command .cancel)
    let last := r.run setup after
    let ended := last.next setup .step
    r.Quiet setup after ∧
    (last.site.consumer.step setup last.site.surroundings).Quiet last.site.surroundings ∧
    (.step ∈ after → last.site.consumer.isStopped = true ∧
      last.site.consumer.gate.inFlight = false) ∧
    (ended.site.consumer.isStopped = true ∧ ended.site.consumer.gate.inFlight = false ∧
      ended.state = if last.state = .stopping then .stopped else last.state) ∧
    (∀ until_, last.site.consumer.stage = .pausing until_ →
      ({ last.site.consumer with stage := .atGate } : Consumer).step setup
        last.site.surroundings = last.site.consumer.step setup last.site.surroundings) ∧
    (∀ d, r.site.consumer.stage.inHand? = some d →
      ((∀ e ∈ before ++ after, e.Keeps queue) → last.store.contains queue d.id = true) ∧
      ((∀ e ∈ before, e.Undisturbing queue) →
        r.store.readCount? queue d.id = some d.readCount)) ∧
    ((∀ e ∈ after, e.Undisturbing queue) → ∀ id m, r.store.message? queue id = some m →
      last.store.message? queue id = some m) := by
  intro queue r last ended
  have htoken : r.site.consumer.cancelled = true := next_cancelled.mpr (.inr rfl)
  have hlast : last.site.consumer.cancelled = true := run_cancelled.mpr (.inl htoken)
  have hr : r = (opening setup workOnStartup createQueue plan ofDay handlers).run setup
      (before ++ [.command .cancel]) := by simp [r, run]
  have hrun : last = (opening setup workOnStartup createQueue plan ofDay handlers).run setup
      (before ++ .command .cancel :: after) := by simp [last, r, run]
  have hx : last.crowd.Exclusive :=
    hrun ▸ crowd_exclusive setup workOnStartup createQueue plan ofDay handlers _
  refine ⟨quiet_of_cancelled htoken setup after,
    Consumer.step_quiet_of_cancelled setup _ hlast, fun stepped => ?_, ?_, fun until_ at_ => ?_,
    fun d hd => ⟨fun kept => ?_, fun undisturbed => ?_⟩, fun undisturbed id m hm => ?_⟩
  · have hended := ended_of_step htoken setup stepped
    refine ⟨Consumer.isStopped_iff_stage.mpr hended, (Consumer.inFlight_eq_inIteration hx).trans ?_⟩
    rw [hended]
    rfl
  · obtain ⟨hended, hflight, hstate⟩ := ended_next hx hlast setup
    exact ⟨Consumer.isStopped_iff_stage.mpr hended, hflight, hstate⟩
  · have hplaced : last.site.consumer.Placed :=
      hrun ▸ placed_run setup workOnStartup createQueue plan ofDay handlers _
    exact Consumer.step_of_pause_over hplaced setup _ at_ hlast
  · obtain ⟨hbefore, hafter⟩ := List.forall_mem_append.mp kept
    have hheld := holding_run setup workOnStartup createQueue plan ofDay handlers hbefore d hd
    exact contains_run htoken hafter hheld
  · exact counting_run setup workOnStartup createQueue plan ofDay handlers undisturbed d hd
  · have hordered : r.store.Ordered :=
      hr ▸ ordered_run setup workOnStartup createQueue plan ofDay handlers _
    exact (retains_run htoken undisturbed).message hordered hm

/-- A handler that is due to succeed when the cancellation comes is not asked any more: the loop
ends, and its message stays held with the read count of its delivery. -/
theorem cancelled_for_good_of_sleeping :
    let awake := ConsumerSetup.uniform 3 (.ok ())
    let setup := { awake with
      handler := ⟨fun _ handled => (handled + 1, .sleep (.ofSeconds 1) (.done (.ok ())))⟩ }
    let body := "\x7b\"id\":\"a\",\"type\":\"t\"\x7d"
    let before : List Event := [.command (.send body .zero), .step, .step, .tick nanosPerSecond]
    let r := ((opening setup true true .none 0 0).run setup before).next setup (.command .cancel)
    let last := r.run setup [.step]
    (∀ e ∈ before, e.Undisturbing "q") ∧ last.site.consumer.isStopped = true ∧
      ∃ d, r.site.consumer.stage.inHand? = some d ∧
        last.store.readCount? "q" d.id = some d.readCount := by
  intro awake setup body before r last
  obtain ⟨-, -, hstopped, -, -, hhand, hkept⟩ :=
    cancelled_for_good setup true true .none 0 0 before [.step]
  have hbefore : ∀ e ∈ before, e.Undisturbing "q" := by simp [before, Event.Undisturbing]
  have hafter : ∀ e ∈ [Event.step], e.Undisturbing "q" := by simp [Event.Undisturbing]
  have hsome : r.site.consumer.stage.inHand?.isSome = true := by decide +kernel
  obtain ⟨d, hd⟩ := Option.isSome_iff_exists.mp hsome
  obtain ⟨m, hm, hcount⟩ := Option.map_eq_some_iff.mp ((hhand d hd).2 hbefore)
  have hlast : last.store.message? "q" d.id = some m := hkept hafter d.id m hm
  exact ⟨hbefore, (hstopped List.mem_cons_self).1, d, hd,
    Option.map_eq_some_iff.mpr ⟨m, hlast, hcount⟩⟩

end
end Chronicle
end WorkQueue
