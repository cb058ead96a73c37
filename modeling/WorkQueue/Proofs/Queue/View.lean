import WorkQueue.Queue.Unreliable

/-! # What each operation does to a message

A store is seen through `message?`: which message stands under an identity in a queue. Each
operation changes at most one entry of that view. The identities of a queue ascend and none is
beyond the counter, so an identity stands for one message and is never given out again.
-/
namespace WorkQueue

theorem lookup_setAt_of_ne {name other : String} {x : α} (h : other ≠ name)
    (l : List (String × α)) : (setAt name x l).lookup other = l.lookup other := by
  induction l with
  | nil => rfl
  | cons e rest ih =>
    obtain ⟨key, y⟩ := e
    by_cases hk : key = name
    · subst hk
      simp [setAt, List.lookup_cons, beq_eq_false_iff_ne.mpr h]
    · simp only [setAt, if_neg hk, List.lookup_cons, ih]

theorem lookup_setAt_self {name : String} {x y : α} {l : List (String × α)}
    (h : l.lookup name = some y) : (setAt name x l).lookup name = some x := by
  induction l with
  | nil => cases h
  | cons e rest ih =>
    obtain ⟨key, z⟩ := e
    by_cases hk : key = name
    · subst hk
      simp [setAt]
    · have hb : (name == key) = false := beq_eq_false_iff_ne.mpr (Ne.symm hk)
      simp only [List.lookup_cons, hb] at h
      simp only [setAt, if_neg hk, List.lookup_cons, hb, ih h]

theorem nextReadCount_of_lt {count : Int} (h : count < maxReadCount) :
    nextReadCount count = count + 1 := by
  rw [nextReadCount, if_neg (by omega)]

theorem isSome_lookup_setAt (name other : String) (x : α) (l : List (String × α)) :
    ((setAt name x l).lookup other).isSome = (l.lookup other).isSome := by
  induction l with
  | nil => rfl
  | cons e rest ih =>
    obtain ⟨key, y⟩ := e
    by_cases hk : key = name
    · simp only [setAt, if_pos hk, List.lookup_cons]
      cases other == key <;> rfl
    · simp only [setAt, if_neg hk, List.lookup_cons]
      cases other == key with
      | true => rfl
      | false => exact ih

namespace QueueStore
variable {s : QueueStore} {queue other body : String} {now : Moment} {delay window : Duration}

theorem held_eq_of_messages? {held : List StoredMessage} (h : s.messages? queue = some held) :
    s.held queue = held := by
  simp [QueueStore.held, h]

/-! ## The messages that a queue holds -/

@[simp] theorem held_create : (s.create queue).held other = s.held other := by
  unfold create
  cases h : s.messages? queue with
  | some held => rfl
  | none =>
    simp only [QueueStore.held, messages?, List.lookup_append, List.lookup_cons,
      List.lookup_nil] at h ⊢
    by_cases ho : other = queue
    · subst ho
      simp [h]
    · simp [beq_eq_false_iff_ne.mpr ho]

theorem held_setAt {before after : List StoredMessage} {id : Int}
    (h : s.messages? queue = some before) :
    ({ lastId := id, queues := setAt queue after s.queues } : QueueStore).held other =
      if other = queue then after else s.held other := by
  simp only [QueueStore.held, messages?] at h ⊢
  by_cases ho : other = queue
  · subst ho
    rw [if_pos rfl, lookup_setAt_self h]
    rfl
  · rw [if_neg ho, lookup_setAt_of_ne ho]

theorem send_of_missing (h : s.messages? queue = none) :
    s.send now queue body delay =
      ({ s with lastId := s.lastId + 1 }, .error (missingQueue queue)) := by
  have h' : ({ s with lastId := s.lastId + 1 } : QueueStore).messages? queue = none := h
  simp only [send, h']

theorem send_of_held {held : List StoredMessage} (h : s.messages? queue = some held) :
    s.send now queue body delay =
      ({ lastId := s.lastId + 1
         queues := setAt queue (held ++ [.sent (s.lastId + 1) now body delay]) s.queues },
        .ok ⟨queue, s.lastId + 1⟩) := by
  have h' : ({ s with lastId := s.lastId + 1 } : QueueStore).messages? queue = some held := h
  simp only [send, h']

theorem receive_of_missing (h : s.messages? queue = none) :
    s.receive now queue window = (s, .error (missingQueue queue)) := by
  simp only [receive, h]

theorem delete_of_missing {id : Int} (h : s.messages? queue = none) :
    s.delete queue id = (s, .error (missingQueue queue)) := by
  simp only [delete, h]

/-- A send fails and leaves all queues alone, or it puts the new message last. -/
theorem send_cases (s : QueueStore) (now : Moment) (queue body : String) (delay : Duration) :
    ((s.send now queue body delay).2 = .error (missingQueue queue) ∧
      ∀ other, (s.send now queue body delay).1.held other = s.held other) ∨
    ((s.send now queue body delay).2 = .ok ⟨queue, s.lastId + 1⟩ ∧
      ∀ other, (s.send now queue body delay).1.held other =
        if other = queue then s.held queue ++ [.sent (s.lastId + 1) now body delay]
        else s.held other) := by
  cases h : s.messages? queue with
  | none =>
    rw [send_of_missing h]
    exact .inl ⟨rfl, fun _ => rfl⟩
  | some held =>
    rw [send_of_held h, held_eq_of_messages? h]
    exact .inr ⟨rfl, fun _ => held_setAt h⟩

@[simp] theorem lastId_create : (s.create queue).lastId = s.lastId := by
  unfold create
  split <;> rfl

theorem lastId_send (s : QueueStore) (now : Moment) (queue body : String) (delay : Duration) :
    (s.send now queue body delay).1.lastId = s.lastId + 1 := by
  cases h : s.messages? queue with
  | none => rw [send_of_missing h]
  | some held => rw [send_of_held h]

theorem takeVisible_eq_some {held after : List StoredMessage} {d : Delivery}
    (h : takeVisible now window held = some (after, d)) :
    ∃ front m back, held = front ++ m :: back ∧ m.visibleAt ≤ now.running ∧
      (∀ x ∈ front, now.running < x.visibleAt) ∧
      after = front ++ m.deliver now window :: back ∧ d = (m.deliver now window).delivery := by
  induction held generalizing after with
  | nil => cases h
  | cons m rest ih =>
    unfold takeVisible at h
    by_cases hv : m.visibleAt ≤ now.running
    · rw [if_pos hv] at h
      cases h
      exact ⟨[], m, rest, rfl, hv, by simp, rfl, rfl⟩
    · rw [if_neg hv] at h
      obtain ⟨⟨after', d'⟩, ht, he⟩ := Option.map_eq_some_iff.mp h
      cases he
      obtain ⟨front, m', back, rfl, hv', hfront, rfl, rfl⟩ := ih ht
      refine ⟨m :: front, m', back, rfl, hv', ?_, rfl, rfl⟩
      intro x hx
      rcases List.mem_cons.mp hx with rfl | hx
      · exact Nat.lt_of_not_le hv
      · exact hfront x hx

/-- A receive that hands nothing out leaves the store alone; otherwise it hands out a message
that the queue holds and puts that message, delivered once more, in its own place. -/
theorem receive_cases (s : QueueStore) (now : Moment) (queue : String) (window : Duration) :
    ((s.receive now queue window).1 = s ∧
      ∀ d, (s.receive now queue window).2 ≠ .ok (some d)) ∨
    ∃ front m back, s.held queue = front ++ m :: back ∧ m.visibleAt ≤ now.running ∧
      (∀ x ∈ front, now.running < x.visibleAt) ∧
      (s.receive now queue window).2 = .ok (some (m.deliver now window).delivery) ∧
      (s.receive now queue window).1.lastId = s.lastId ∧
      ∀ other, (s.receive now queue window).1.held other =
        if other = queue then front ++ m.deliver now window :: back else s.held other := by
  unfold receive
  cases h : s.messages? queue with
  | none => exact .inl ⟨rfl, fun d hd => by cases hd⟩
  | some held =>
    dsimp only
    cases ht : takeVisible now window held with
    | none => exact .inl ⟨rfl, fun d hd => by cases hd⟩
    | some r =>
      obtain ⟨after, d⟩ := r
      obtain ⟨front, m, back, rfl, hv, hfront, rfl, rfl⟩ := takeVisible_eq_some ht
      exact .inr ⟨front, m, back, held_eq_of_messages? h, hv, hfront, rfl, rfl,
        fun other => held_setAt h⟩

theorem receive_of_ne_some (h : ∀ d, (s.receive now queue window).2 ≠ .ok (some d)) :
    (s.receive now queue window).1 = s := by
  rcases s.receive_cases now queue window with ⟨hs, -⟩ | ⟨_, _, _, -, -, -, ha, -⟩
  · exact hs
  · exact absurd ha (h _)

theorem held_delete {id : Int} :
    (s.delete queue id).1.held other =
      if other = queue then (s.held queue).filter fun m => m.id ≠ id else s.held other := by
  unfold delete
  cases h : s.messages? queue with
  | none =>
    have hq : s.held queue = [] := by simp [QueueStore.held, h]
    by_cases ho : other = queue
    · subst ho
      simp [hq]
    · simp [ho]
  | some held =>
    rw [held_eq_of_messages? h]
    exact held_setAt h

@[simp] theorem lastId_receive : (s.receive now queue window).1.lastId = s.lastId := by
  rcases s.receive_cases now queue window with ⟨hs, -⟩ | ⟨_, _, _, -, -, -, -, hl, -⟩
  · rw [hs]
  · exact hl

@[simp] theorem lastId_delete {id : Int} : (s.delete queue id).1.lastId = s.lastId := by
  unfold delete
  split <;> rfl

theorem delete_answer (s : QueueStore) (queue : String) (id : Int) :
    (s.delete queue id).2 = .ok () ∨ s.held queue = [] := by
  unfold delete
  cases h : s.messages? queue with
  | none => exact .inr (by simp [QueueStore.held, h])
  | some held => exact .inl rfl

/-! ## Which queues there are -/

theorem create_of_exists (h : (s.messages? queue).isSome = true) : s.create queue = s := by
  obtain ⟨held, hq⟩ := Option.isSome_iff_exists.mp h
  simp only [create, hq]

theorem exists_create :
    ((s.create queue).messages? other).isSome = true ↔
      (s.messages? other).isSome = true ∨ other = queue := by
  by_cases h : (s.messages? queue).isSome = true
  · rw [create_of_exists h]
    constructor
    · exact .inl
    · rintro (ho | rfl)
      · exact ho
      · exact h
  · have hq : s.messages? queue = none := by simpa using h
    simp only [create, hq]
    simp only [messages?, List.lookup_append, List.lookup_cons, List.lookup_nil]
    by_cases ho : other = queue
    · simp [ho]
    · simp [ho, beq_eq_false_iff_ne.mpr ho]

theorem exists_send :
    ((s.send now queue body delay).1.messages? other).isSome = (s.messages? other).isSome := by
  cases h : s.messages? queue with
  | none =>
    rw [send_of_missing h]
    rfl
  | some held =>
    rw [send_of_held h]
    exact isSome_lookup_setAt ..

theorem exists_receive :
    ((s.receive now queue window).1.messages? other).isSome = (s.messages? other).isSome := by
  unfold receive
  split
  · rfl
  · split
    · rfl
    · exact isSome_lookup_setAt ..

theorem exists_delete {id : Int} :
    ((s.delete queue id).1.messages? other).isSome = (s.messages? other).isSome := by
  unfold delete
  split
  · rfl
  · exact isSome_lookup_setAt ..

/-! ## Identities -/

/-- The identities of every queue ascend, and the counter has given them all out. -/
structure Ordered (s : QueueStore) : Prop where
  counter : 0 ≤ s.lastId
  ascending : ∀ queue, (s.held queue).Pairwise fun m n => m.id < n.id
  issued : ∀ queue, ∀ m ∈ s.held queue, 0 < m.id ∧ m.id ≤ s.lastId

theorem Ordered.of_sublist_ids (hs : s.Ordered) {t : QueueStore} (hl : t.lastId = s.lastId)
    (h : ∀ queue, ((t.held queue).map StoredMessage.id).Sublist
      ((s.held queue).map StoredMessage.id)) : t.Ordered := by
  refine ⟨hl ▸ hs.counter, fun queue => ?_, fun queue m hm => ?_⟩
  · exact List.pairwise_map.mp ((List.pairwise_map.mpr (hs.ascending queue)).sublist (h queue))
  · obtain ⟨n, hn, he⟩ := List.mem_map.mp ((h queue).subset (List.mem_map_of_mem hm))
    rw [← he, hl]
    exact hs.issued queue n hn

theorem ordered_empty : ({} : QueueStore).Ordered := by
  constructor <;> simp [QueueStore.held, messages?]

theorem Ordered.create (hs : s.Ordered) : (s.create queue).Ordered :=
  hs.of_sublist_ids (by simp) fun _ => by simp

theorem Ordered.send (hs : s.Ordered) : (s.send now queue body delay).1.Ordered := by
  have hc := hs.counter
  have old : ∀ other, ∀ m ∈ s.held other, 0 < m.id ∧ m.id ≤ s.lastId + 1 := by
    intro other m hm
    have := hs.issued other m hm
    omega
  rcases s.send_cases now queue body delay with ⟨-, h⟩ | ⟨-, h⟩
  · refine ⟨by rw [lastId_send]; omega, fun other => ?_, fun other => ?_⟩
    · rw [h]
      exact hs.ascending other
    · rw [h, lastId_send]
      exact old other
  · refine ⟨by rw [lastId_send]; omega, fun other => ?_, fun other => ?_⟩
    · rw [h]
      split
      · refine List.pairwise_append.mpr ⟨hs.ascending queue, by simp, fun m hm n hn => ?_⟩
        have := hs.issued queue m hm
        rw [List.mem_singleton.mp hn]
        simp only [StoredMessage.sent]
        omega
      · exact hs.ascending other
    · rw [h, lastId_send]
      split
      · intro m hm
        rcases List.mem_append.mp hm with hm | hm
        · exact old queue m hm
        · rw [List.mem_singleton.mp hm]
          simp only [StoredMessage.sent]
          omega
      · exact old other

theorem Ordered.receive (hs : s.Ordered) : (s.receive now queue window).1.Ordered := by
  rcases s.receive_cases now queue window with ⟨h, -⟩ | ⟨front, m, back, hq, -, -, -, hl, h⟩
  · rwa [h]
  · refine hs.of_sublist_ids hl fun other => ?_
    rw [h]
    split
    · next ho =>
      subst ho
      simp [hq, StoredMessage.deliver]
    · exact List.Sublist.refl _

theorem Ordered.delete {id : Int} (hs : s.Ordered) : (s.delete queue id).1.Ordered := by
  refine hs.of_sublist_ids (by simp) fun other => ?_
  rw [held_delete]
  split
  · next ho =>
    subst ho
    exact List.filter_sublist.map _
  · exact List.Sublist.refl _

/-! ## The view -/

theorem message?_of_held_eq {t : QueueStore} (h : t.held queue = s.held queue) (id : Int) :
    t.message? queue id = s.message? queue id := by
  simp only [message?, h]

theorem id_le_of_message? (hs : s.Ordered) {id : Int} {m : StoredMessage}
    (h : s.message? queue id = some m) : id ≤ s.lastId := by
  have hid : m.id = id := by simpa using List.find?_some h
  rw [← hid]
  exact (hs.issued queue m (List.mem_of_find?_eq_some h)).2

theorem message?_eq_none_of_lt (hs : s.Ordered) {id : Int} (h : s.lastId < id) :
    s.message? queue id = none := by
  cases hm : s.message? queue id with
  | none => rfl
  | some m =>
    have := id_le_of_message? hs hm
    omega

@[simp] theorem message?_create {id : Int} :
    (s.create queue).message? other id = s.message? other id :=
  message?_of_held_eq held_create id

/-- A send that is accepted puts one message under an identity that was never in use. -/
theorem message?_send_ok (hs : s.Ordered) {receipt : Receipt}
    (h : (s.send now queue body delay).2 = .ok receipt) :
    receipt = ⟨queue, s.lastId + 1⟩ ∧ ∀ other id,
      (s.send now queue body delay).1.message? other id =
        if other = queue ∧ id = receipt.id then some (.sent id now body delay)
        else s.message? other id := by
  rcases s.send_cases now queue body delay with ⟨ha, -⟩ | ⟨ha, hheld⟩
  · rw [ha] at h
    cases h
  · rw [ha] at h
    cases h
    refine ⟨rfl, fun other id => ?_⟩
    by_cases ho : other = queue
    · subst ho
      rw [message?, hheld, if_pos rfl, List.find?_append]
      change Option.or (s.message? other id) _ = _
      by_cases hid : id = s.lastId + 1
      · subst hid
        rw [message?_eq_none_of_lt hs (by omega)]
        simp [StoredMessage.sent]
      · simp [hid, Ne.symm hid, StoredMessage.sent]
    · rw [if_neg (by simp [ho])]
      exact message?_of_held_eq (by rw [hheld, if_neg ho]) id

theorem message?_send_error {failure : Failure}
    (h : (s.send now queue body delay).2 = .error failure) (other : String) (id : Int) :
    (s.send now queue body delay).1.message? other id = s.message? other id := by
  rcases s.send_cases now queue body delay with ⟨-, hheld⟩ | ⟨ha, -⟩
  · exact message?_of_held_eq (hheld other) id
  · rw [ha] at h
    cases h

/-- A receive raises the read count of the message that it hands out and leaves every other
message alone. -/
theorem message?_receive (hs : s.Ordered) {d : Delivery}
    (hd : (s.receive now queue window).2 = .ok (some d)) :
    ∃ m, s.message? queue d.id = some m ∧ d = (m.deliver now window).delivery ∧
      ∀ other id, (s.receive now queue window).1.message? other id =
        if other = queue ∧ id = d.id then some (m.deliver now window)
        else s.message? other id := by
  rcases s.receive_cases now queue window with ⟨-, hnone⟩ | ⟨front, m, back, hq, -, -, ha, -, h⟩
  · exact absurd hd (hnone d)
  · rw [ha] at hd
    cases hd
    have hp := hs.ascending queue
    rw [hq] at hp
    have hfront : ∀ x ∈ front, x.id ≠ m.id := by
      intro x hx he
      have := (List.pairwise_append.mp hp).2.2 x hx m List.mem_cons_self
      omega
    have hskip : front.find? (fun x => x.id == m.id) = none := by
      simpa [List.find?_eq_none] using hfront
    refine ⟨m, ?_, rfl, fun other id => ?_⟩
    · simp [message?, hq, List.find?_append, hskip, StoredMessage.delivery,
        StoredMessage.deliver]
    · simp only [message?, h, StoredMessage.delivery, StoredMessage.deliver]
      by_cases ho : other = queue
      · subst ho
        by_cases hid : id = m.id
        · subst hid
          simp [List.find?_append, hskip]
        · simp [hid, hq, List.find?_append, Ne.symm hid]
      · simp [ho]

theorem message?_delete {id other : Int} {name : String} :
    (s.delete queue id).1.message? name other =
      if name = queue ∧ other = id then none else s.message? name other := by
  simp only [message?, held_delete]
  by_cases hn : name = queue
  · subst hn
    by_cases ho : other = id
    · subst ho
      simp
    · simp only [if_true, true_and, ho, if_false, List.find?_filter]
      congr 1
      funext m
      by_cases hm : m.id = other
      · simp [hm, ho]
      · simp [hm]
  · simp [hn]

/-! ## Whether a queue holds a message -/

theorem contains_eq_isSome (s : QueueStore) (queue : String) (id : Int) :
    s.contains queue id = (s.message? queue id).isSome :=
  List.isSome_find?.symm

theorem mem_ids_iff {id : Int} :
    id ∈ (s.held queue).map StoredMessage.id ↔ s.contains queue id = true := by
  simp [contains]

theorem contains_of_held_eq {t : QueueStore} (h : t.held queue = s.held queue) (id : Int) :
    t.contains queue id = s.contains queue id := by
  simp only [contains, h]

theorem contains_send_of_contains {id : Int} (h : s.contains other id = true) :
    (s.send now queue body delay).1.contains other id = true := by
  rcases s.send_cases now queue body delay with ⟨-, hheld⟩ | ⟨-, hheld⟩
  · exact (contains_of_held_eq (hheld other) id).trans h
  · by_cases ho : other = queue
    · subst ho
      simp only [contains] at h
      simp only [contains, hheld, ↓reduceIte, List.any_append, h, Bool.true_or]
    · exact (contains_of_held_eq (by rw [hheld, if_neg ho]) id).trans h

theorem contains_send {receipt : Receipt} (h : (s.send now queue body delay).2 = .ok receipt) :
    (s.send now queue body delay).1.contains queue receipt.id = true := by
  rcases s.send_cases now queue body delay with ⟨ha, -⟩ | ⟨ha, hheld⟩
  · rw [ha] at h
    cases h
  · rw [ha] at h
    cases h
    simp [contains, hheld, StoredMessage.sent]

theorem contains_receive {id : Int} :
    (s.receive now queue window).1.contains other id = s.contains other id := by
  rcases s.receive_cases now queue window with ⟨hs, -⟩ | ⟨front, m, back, hq, -, -, -, -, hheld⟩
  · rw [hs]
  · by_cases ho : other = queue
    · subst ho
      simp [contains, hheld, hq, StoredMessage.deliver]
    · exact contains_of_held_eq (by rw [hheld, if_neg ho]) id

/-- A delete takes out no other message than its own, and reports that it has. -/
theorem contains_delete {other : Int} (h : s.contains queue other = true) (id : Int) :
    (s.delete queue id).1.contains queue other = true ∨
      other = id ∧ (s.delete queue id).2 = .ok () := by
  obtain ⟨m, hm, he⟩ := List.any_eq_true.mp h
  rw [beq_iff_eq] at he
  subst he
  by_cases hid : m.id = id
  · rcases s.delete_answer queue id with ha | hempty
    · exact .inr ⟨hid, ha⟩
    · rw [hempty] at hm
      cases hm
  · left
    refine List.any_eq_true.mpr ⟨m, ?_, by simp⟩
    rw [held_delete, if_pos rfl]
    exact List.mem_filter.mpr ⟨hm, by simpa using hid⟩

end QueueStore

/-! ## Queues whose calls may fail -/

namespace UnreliableQueue
variable {q : UnreliableQueue} {queue body : String} {now : Moment} {delay window : Duration}

/-- A send answers as the store does, or fails by the plan without reaching it. -/
theorem send_cases (q : UnreliableQueue) (now : Moment) (queue body : String) (delay : Duration) :
    ((q.send now queue body delay).1.store, (q.send now queue body delay).2) =
      q.store.send now queue body delay ∨
    (q.send now queue body delay).1.store = q.store ∧
      ∃ n failure, q.plan.send n = some failure ∧
        (q.send now queue body delay).2 = .error failure := by
  unfold send
  dsimp only
  split
  · next failure hf => exact .inr ⟨rfl, _, failure, hf, rfl⟩
  · exact .inl rfl

/-- A receive answers as the store does, or fails by the plan without reaching it. -/
theorem receive_cases (q : UnreliableQueue) (now : Moment) (queue : String) (window : Duration) :
    ((q.receive now queue window).1.store, (q.receive now queue window).2) =
      q.store.receive now queue window ∨
    (q.receive now queue window).1.store = q.store ∧
      ∃ n failure, q.plan.receive n = some failure ∧
        (q.receive now queue window).2 = .error failure := by
  unfold receive
  dsimp only
  split
  · next failure hf => exact .inr ⟨rfl, _, failure, hf, rfl⟩
  · exact .inl rfl

/-- A delete answers as the store does, or fails by the plan without reaching it. -/
theorem delete_cases (q : UnreliableQueue) (queue : String) (id : Int) :
    ((q.delete queue id).1.store, (q.delete queue id).2) = q.store.delete queue id ∨
    (q.delete queue id).1.store = q.store ∧
      ∃ n failure, q.plan.delete n = some failure ∧
        (q.delete queue id).2 = .error failure := by
  unfold delete
  dsimp only
  split
  · next failure hf => exact .inr ⟨rfl, _, failure, hf, rfl⟩
  · exact .inl rfl

theorem store_receive_of_ne_some (q : UnreliableQueue) (now : Moment) (queue : String)
    (window : Duration) (h : ∀ d, (q.receive now queue window).2 ≠ .ok (some d)) :
    (q.receive now queue window).1.store = q.store := by
  rcases q.receive_cases now queue window with he | ⟨hs, -⟩
  · obtain ⟨hstore, hanswer⟩ := Prod.mk.inj he
    rw [hstore]
    exact QueueStore.receive_of_ne_some (hanswer ▸ h)
  · exact hs

theorem store_receive_of_some {after : UnreliableQueue} {d : Delivery}
    (h : q.receive now queue window = (after, .ok (some d))) :
    q.store.receive now queue window = (after.store, .ok (some d)) := by
  rcases q.receive_cases now queue window with he | ⟨-, n, failure, -, hf⟩
  · rw [h] at he
    exact he.symm
  · rw [h] at hf
    cases hf

@[simp] theorem plan_send : (q.send now queue body delay).1.plan = q.plan := by
  unfold send
  dsimp only
  split <;> rfl

@[simp] theorem plan_receive : (q.receive now queue window).1.plan = q.plan := by
  unfold receive
  dsimp only
  split <;> rfl

/-- Deletes are counted, and nothing else is counted with them. -/
theorem deletes_delete {id : Int} : (q.delete queue id).1.deletes = q.deletes + 1 := by
  unfold delete
  dsimp only
  split <;> rfl

theorem deletes_receive : (q.receive now queue window).1.deletes = q.deletes := by
  unfold receive
  dsimp only
  split <;> rfl

theorem deletes_send : (q.send now queue body delay).1.deletes = q.deletes := by
  unfold send
  dsimp only
  split <;> rfl

@[simp] theorem plan_delete {id : Int} : (q.delete queue id).1.plan = q.plan := by
  unfold delete
  dsimp only
  split <;> rfl

end UnreliableQueue
end WorkQueue
