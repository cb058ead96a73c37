import WorkQueue.Replica.FairLock

/-! # A fair lock serves its line in order

The line of a lock stands in the order of the calls, and the first of it is the only one to get the
lock. A call that never gets it might as well not have been made.
-/
namespace WorkQueue

/-! ## The line -/

namespace FairLock
variable {l : FairLock} {number : Nat}

/-- The line stands in the order of the calls, and nobody in it has been cancelled. -/
structure Ordered (l : FairLock) : Prop where
  ascending : l.waiting.Pairwise fun first second => first.number < second.number
  numbered : ∀ call ∈ l.waiting, call.number < l.calls
  heeded : ∀ call ∈ l.waiting, call.name ∉ l.cancelled
  drained : l.state = .stopped → l.holder = none

/-- Nobody waits for a lock that can be had. -/
def Served (l : FairLock) : Prop := l.Free → l.waiting = []

theorem ordered_opening (workOnStartup : Bool) : (opening workOnStartup).Ordered where
  ascending := .nil
  numbered := nofun
  heeded := nofun
  drained _ := rfl

theorem served_opening (workOnStartup : Bool) : (opening workOnStartup).Served := fun _ => rfl

theorem serve_of_served (h : l.Served) : l.serve = (l, []) := by
  unfold serve
  split
  · rfl
  · next call rest hw =>
    rw [if_neg]
    intro free
    rw [h free] at hw
    cases hw

theorem serve_of_free {call : Call} {rest : List Call} (free : l.Free)
    (waiting : l.waiting = call :: rest) :
    l.serve = ({ l with holder := some call.name, waiting := rest }, [.granted call]) := by
  simp only [serve, waiting, if_pos free]

/-- The lock is given to the first of the line, or it stays as it is. -/
theorem serve_cases (l : FairLock) : (l.Served ∧ l.serve = (l, [])) ∨
    ∃ call rest, l.Free ∧ l.waiting = call :: rest ∧
      l.serve = ({ l with holder := some call.name, waiting := rest }, [.granted call]) := by
  by_cases h : l.Served
  · exact .inl ⟨h, serve_of_served h⟩
  · obtain ⟨free, waits⟩ := Classical.not_imp.mp h
    obtain ⟨call, rest, hw⟩ := List.exists_cons_of_ne_nil waits
    exact .inr ⟨call, rest, free, hw, serve_of_free free hw⟩

theorem served_serve (l : FairLock) : l.serve.1.Served := by
  obtain ⟨served, same⟩ | ⟨call, rest, -, -, given⟩ := l.serve_cases
  · rwa [same]
  · rw [given]
    exact fun free => nomatch free.2

theorem step_fst (l : FairLock) (request : LockRequest) :
    (l.step request).1 = (l.ask request).1.serve.1 := rfl

theorem served_step (l : FairLock) (request : LockRequest) : (l.step request).1.Served :=
  served_serve _

theorem Ordered.nodup (h : l.Ordered) : (l.waiting.map Call.number).Nodup :=
  List.pairwise_map.mpr (h.ascending.imp Nat.ne_of_lt)

theorem Ordered.new (h : l.Ordered) : l.calls ∉ l.waiting.map Call.number := by
  intro hm
  obtain ⟨call, hc, same⟩ := List.mem_map.mp hm
  exact Nat.ne_of_lt (h.numbered call hc) same

theorem Ordered.filter (h : l.Ordered) (p : Call → Bool) :
    ({ l with waiting := l.waiting.filter p } : FairLock).Ordered where
  ascending := h.ascending.filter p
  numbered call hc := h.numbered call (List.mem_filter.mp hc).1
  heeded call hc := h.heeded call (List.mem_filter.mp hc).1
  drained := h.drained

theorem Ordered.ask (h : l.Ordered) (request : LockRequest) : (l.ask request).1.Ordered := by
  cases request with
  | start =>
    refine ⟨h.ascending, h.numbered, h.heeded, fun stopped => ?_⟩
    simp only [FairLock.ask] at stopped
    split at stopped
    · cases stopped
    · contradiction
  | stop =>
    refine ⟨h.ascending, h.numbered, h.heeded, fun stopped => ?_⟩
    simp only [FairLock.ask] at stopped
    split at stopped
    · split at stopped
      · assumption
      · cases stopped
    · exact h.drained stopped
  | begin name =>
    have earlier : ∀ call ∈ l.waiting, call.number < l.calls + 1 :=
      fun call hc => Nat.lt_succ_of_lt (h.numbered call hc)
    simp only [FairLock.ask]
    split
    · exact ⟨h.ascending, earlier, h.heeded, h.drained⟩
    · next fresh =>
      refine ⟨?_, ?_, ?_, h.drained⟩
      · refine List.pairwise_append.mpr ⟨h.ascending, List.pairwise_singleton .., ?_⟩
        intro call hc new hnew
        rw [List.mem_singleton.mp hnew]
        exact h.numbered call hc
      · exact List.forall_mem_append.mpr ⟨earlier, by simp⟩
      · exact List.forall_mem_append.mpr ⟨h.heeded, by simpa using fresh⟩
  | release name =>
    simp only [FairLock.ask]
    split
    · exact ⟨h.ascending, h.numbered, h.heeded, fun _ => rfl⟩
    · exact h
  | cancel name =>
    have kept := h.filter fun call => call.name ≠ name
    refine ⟨kept.ascending, kept.numbered, fun call hc => ?_, h.drained⟩
    have other : call.name ≠ name := by simpa using (List.mem_filter.mp hc).2
    exact List.not_mem_cons_of_ne_of_not_mem other (kept.heeded call hc)
  | abort name => exact h.filter fun call => call.name ≠ name

theorem Ordered.serve (h : l.Ordered) : l.serve.1.Ordered := by
  obtain ⟨-, same⟩ | ⟨call, rest, free, hw, given⟩ := l.serve_cases
  · rwa [same]
  · have ascending := h.ascending
    have numbered := h.numbered
    have heeded := h.heeded
    rw [hw] at ascending numbered heeded
    rw [given]
    refine ⟨ascending.of_cons, (List.forall_mem_cons.mp numbered).2,
      (List.forall_mem_cons.mp heeded).2, fun stopped => ?_⟩
    exact absurd (free.1.symm.trans stopped) nofun

theorem Ordered.step (h : l.Ordered) (request : LockRequest) : (l.step request).1.Ordered :=
  (h.ask request).serve

theorem Ordered.after (h : l.Ordered) (requests : List LockRequest) :
    (l.after requests).Ordered := by
  induction requests generalizing l with
  | nil => exact h
  | cons request rest ih => exact ih (h.step request)

theorem Served.after (h : l.Served) (requests : List LockRequest) : (l.after requests).Served := by
  induction requests generalizing l with
  | nil => exact h
  | cons request rest ih => exact ih (l.served_step request)

theorem after_append (l : FairLock) (front back : List LockRequest) :
    l.after (front ++ back) = (l.after front).after back := List.foldl_append

theorem outcomes_append (l : FairLock) (front back : List LockRequest) :
    l.outcomes (front ++ back) = l.outcomes front ++ (l.after front).outcomes back := by
  induction front generalizing l with
  | nil => rfl
  | cons request rest ih =>
    simp only [List.cons_append, outcomes, ih]
    rfl

theorem length_outcomes (l : FairLock) (requests : List LockRequest) :
    (l.outcomes requests).length = requests.length := by
  induction requests generalizing l with
  | nil => rfl
  | cons request rest ih => simp only [outcomes, List.length_cons, ih]

/-! ### The order of grants -/

theorem mem_waiting_ask {request : LockRequest} {call : Call}
    (h : call ∈ (l.ask request).1.waiting) : call ∈ l.waiting ∨ call.number = l.calls := by
  cases request with
  | start => exact .inl h
  | stop => exact .inl h
  | begin name =>
    simp only [ask] at h
    split at h
    · exact .inl h
    · exact (List.mem_append.mp h).imp_right fun new => by rw [List.mem_singleton.mp new]
  | release name =>
    simp only [ask] at h
    split at h <;> exact .inl h
  | cancel name => exact .inl (List.mem_filter.mp h).1
  | abort name => exact .inl (List.mem_filter.mp h).1

theorem calls_le_ask (l : FairLock) (request : LockRequest) :
    l.calls ≤ (l.ask request).1.calls := by
  cases request with
  | begin name =>
    simp only [ask]
    split <;> exact Nat.le_succ _
  | release name =>
    simp only [ask]
    split <;> exact Nat.le_refl _
  | _ => exact Nat.le_refl _

/-- A request itself grants nothing. -/
theorem grants_ask (l : FairLock) (request : LockRequest) : (l.ask request).2.grants = [] := by
  cases request with
  | start => rfl
  | stop => rfl
  | begin name =>
    simp only [ask]
    split <;> rfl
  | release name =>
    simp only [ask]
    split <;> rfl
  | cancel name => simp [ask, LockOutcome.grants, LockEvent.grants?]
  | abort name => rfl

theorem grants_step (l : FairLock) (request : LockRequest) :
    (l.step request).2.grants = (l.ask request).1.serve.2.filterMap LockEvent.grants? := by
  have none := l.grants_ask request
  simp only [LockOutcome.grants, step, List.filterMap_append] at none ⊢
  rw [none, List.nil_append]

/-- What a request grants was waiting or is granted to the call that it makes, and nobody is left
in the line who called before. -/
structure Granted (before after : FairLock) (call : Call) : Prop where
  waited : call ∈ before.waiting ∨ call.number = before.calls
  made : call.number < after.calls
  first : ∀ other ∈ after.waiting, call.number < other.number

theorem granted_step (h : l.Ordered) (request : LockRequest) :
    (l.step request).2.grants = [] ∨
      ∃ call, (l.step request).2.grants = [call] ∧ Granted l (l.step request).1 call := by
  have asked := h.ask request
  rw [grants_step]
  obtain ⟨-, same⟩ | ⟨call, rest, -, hw, given⟩ := (l.ask request).1.serve_cases
  · left
    rw [same]
    rfl
  · right
    have ahead := asked.ascending
    have numbered := asked.numbered
    rw [hw] at ahead numbered
    have waited := mem_waiting_ask (hw ▸ List.mem_cons_self : call ∈ (l.ask request).1.waiting)
    refine ⟨call, by rw [given]; rfl, waited, ?_, ?_⟩
    · rw [step_fst, given]
      exact numbered call List.mem_cons_self
    · rw [step_fst, given]
      exact fun other hother => List.rel_of_pairwise_cons ahead hother

theorem mem_waiting_step {request : LockRequest} {call : Call}
    (h : call ∈ (l.step request).1.waiting) : call ∈ l.waiting ∨ call.number = l.calls := by
  obtain ⟨-, same⟩ | ⟨first, rest, -, hw, given⟩ := (l.ask request).1.serve_cases
  · rw [step_fst, same] at h
    exact mem_waiting_ask h
  · rw [step_fst, given] at h
    exact mem_waiting_ask (hw ▸ List.mem_cons_of_mem _ h)

theorem calls_step (l : FairLock) (request : LockRequest) :
    (l.step request).1.calls = (l.ask request).1.calls := by
  obtain ⟨-, same⟩ | ⟨first, rest, -, -, given⟩ := (l.ask request).1.serve_cases
  · rw [step_fst, same]
  · rw [step_fst, given]

theorem calls_le_step (l : FairLock) (request : LockRequest) :
    l.calls ≤ (l.step request).1.calls := by
  rw [calls_step]
  exact l.calls_le_ask request

theorem calls_lt_step_begin (l : FairLock) (name : String) :
    l.calls < (l.step (.begin name)).1.calls := by
  rw [calls_step]
  simp only [ask]
  split <;> exact Nat.lt_succ_self _

/-- The calls get the lock in the order in which they were made. -/
theorem grants_ascending (h : l.Ordered) (requests : List LockRequest) :
    ((l.outcomes requests).flatMap LockOutcome.grants).Pairwise
      (fun first second => first.number < second.number) ∧
    ∀ call ∈ (l.outcomes requests).flatMap LockOutcome.grants,
      call ∈ l.waiting ∨ l.calls ≤ call.number := by
  induction requests generalizing l with
  | nil => exact ⟨.nil, nofun⟩
  | cons request rest ih =>
    obtain ⟨ascending, source⟩ := ih (h.step request)
    -- A later grant was in the line that this one left behind, or is made after it.
    have later : ∀ call ∈ ((l.step request).1.outcomes rest).flatMap LockOutcome.grants,
        call ∈ l.waiting ∨ l.calls ≤ call.number := by
      intro call hc
      rcases source call hc with waits | made
      · exact (mem_waiting_step waits).imp_right fun same => Nat.le_of_eq same.symm
      · exact .inr (Nat.le_trans (l.calls_le_step request) made)
    rw [outcomes, List.flatMap_cons]
    rcases granted_step h request with none | ⟨call, one, granted⟩
    · rw [none]
      exact ⟨ascending, later⟩
    · rw [one]
      refine ⟨List.pairwise_cons.mpr ⟨fun other hother => ?_, ascending⟩,
        List.forall_mem_cons.mpr ⟨granted.waited.imp_right fun same => Nat.le_of_eq same.symm, later⟩⟩
      rcases source other hother with waits | made
      · exact granted.first other waits
      · exact Nat.lt_of_lt_of_le granted.made made

/-- Whoever called first and was cancelled is passed over. -/
example : ((opening false).outcomes [.begin "a", .begin "b", .begin "c", .cancel "a", .start,
    .release "b"]).flatMap LockOutcome.grants = [⟨1, "b"⟩, ⟨2, "c"⟩] := by decide

/-! ### A call that is not made -/

/-- The lock without one call, as if it had not been made. -/
def without (l : FairLock) (number : Nat) : FairLock :=
  { l with
    waiting := (l.waiting.filter fun call => call.number ≠ number).map (.without number)
    calls := l.calls - 1 }

@[simp] theorem name_without (number : Nat) (call : Call) :
    (call.without number).name = call.name := by
  unfold Call.without
  split <;> rfl

/-- Names are not affected, nor is what goes by names. -/
theorem filter_without (number : Nat) (p : String → Bool) (calls : List Call) :
    ((calls.filter fun call => call.number ≠ number).map (Call.without number)).filter
        (fun call => p call.name) =
      ((calls.filter fun call => p call.name).filter fun call => call.number ≠ number).map
        (Call.without number) := by
  rw [List.filter_map, List.filter_filter, List.filter_filter]
  congr 1
  refine List.filter_congr fun call _ => ?_
  simp [Bool.and_comm]

theorem ask_without (made : number < l.calls) (request : LockRequest) :
    (l.without number).ask request =
      ((l.ask request).1.without number, (l.ask request).2.without number) := by
  cases request with
  | start => rfl
  | stop => rfl
  | begin name =>
    have renumbered : Call.without number ⟨l.calls, name⟩ = ⟨l.calls - 1, name⟩ := by
      rw [Call.without, if_pos made]
    have next : l.calls - 1 + 1 = l.calls + 1 - 1 := by omega
    have other : l.calls ≠ number := by omega
    by_cases fired : name ∈ l.cancelled
    · simp [ask, without, LockOutcome.without, LockEvent.call, LockEvent.map, fired, renumbered,
        next, other]
    · simp [ask, without, LockOutcome.without, fired, renumbered, next, other,
        List.filter_append]
  | release name =>
    by_cases held : l.holder = some name
    · simp [ask, without, released, LockOutcome.without, held]
    · simp [ask, without, LockOutcome.without, held]
  | cancel name =>
    have kept := filter_without number (fun n => n ≠ name) l.waiting
    have left := filter_without number (fun n => n = name) l.waiting
    simp only [ask, without, LockOutcome.without] at kept left ⊢
    rw [kept, left, List.filter_map, List.map_map, List.map_map]
    rfl
  | abort name =>
    have kept := filter_without number (fun n => n ≠ name) l.waiting
    simp only [ask, without, LockOutcome.without] at kept ⊢
    rw [kept]
    rfl

theorem serve_without (ungranted : ∀ call ∈ l.serve.2.filterMap LockEvent.grants?,
    call.number ≠ number) :
    (l.without number).serve = (l.serve.1.without number,
      (l.serve.2.filter fun e => e.call.number ≠ number).map (.map (.without number))) := by
  obtain ⟨served, same⟩ | ⟨call, rest, free, hw, given⟩ := l.serve_cases
  · have still : (l.without number).Served := fun free => by simp [without, served free]
    rw [serve_of_served still, same]
    rfl
  · have other : call.number ≠ number := by
      rw [given] at ungranted
      exact ungranted call List.mem_cons_self
    have line : (l.without number).waiting = call.without number ::
        (rest.filter fun call => call.number ≠ number).map (.without number) := by
      simp [without, hw, other]
    have still : (l.without number).Free := free
    rw [serve_of_free still line, given]
    simp [without, other, LockEvent.call, LockEvent.map]

/-- A call that does not get the lock makes no difference to the others. -/
theorem step_without (made : number < l.calls) {request : LockRequest}
    (ungranted : ∀ call ∈ (l.step request).2.grants, call.number ≠ number) :
    (l.without number).step request =
      ((l.step request).1.without number, (l.step request).2.without number) := by
  rw [grants_step] at ungranted
  simp only [step, ask_without made request, serve_without ungranted, LockOutcome.without,
    List.filter_append, List.map_append]

theorem outcomes_without (made : number < l.calls) {requests : List LockRequest}
    (ungranted : ∀ outcome ∈ l.outcomes requests, ∀ call ∈ outcome.grants,
      call.number ≠ number) :
    (l.without number).outcomes requests =
      (l.outcomes requests).map (.without number) := by
  induction requests generalizing l with
  | nil => rfl
  | cons request rest ih =>
    obtain ⟨now, later⟩ := List.forall_mem_cons.mp ungranted
    have further : number < (l.step request).1.calls :=
      Nat.lt_of_lt_of_le made (l.calls_le_step request)
    simp only [outcomes, step_without made now, ih further later, List.map_cons]

/-- A call that does not get the lock when it is made leaves the others as they were. -/
theorem without_begin (h : l.Ordered) (served : l.Served) {name : String}
    (ungranted : ∀ call ∈ (l.step (.begin name)).2.grants, call.number ≠ l.calls) :
    (l.step (.begin name)).1.without l.calls = l := by
  have kept : (l.waiting.filter fun call => call.number ≠ l.calls).map (.without l.calls) =
      l.waiting := by
    have all : (l.waiting.filter fun call => call.number ≠ l.calls) = l.waiting :=
      List.filter_eq_self.mpr fun call hc => by simpa using Nat.ne_of_lt (h.numbered call hc)
    have same : l.waiting.map (Call.without l.calls) = l.waiting.map id :=
      List.map_congr_left fun call hc =>
        if_neg (Nat.lt_asymm (h.numbered call hc))
    rw [all, same, List.map_id]
  have asked : (l.ask (.begin name)).1.without l.calls = l := by
    by_cases fired : name ∈ l.cancelled
    · simp only [ask, without, if_pos fired, kept, Nat.add_sub_cancel]
    · have left : [(⟨l.calls, name⟩ : Call)].filter (fun call => call.number ≠ l.calls) = [] := by
        simp
      simp only [ask, without, if_neg fired, List.filter_append, left, List.append_nil, kept,
        Nat.add_sub_cancel]
  rw [grants_step] at ungranted
  have given := serve_without ungranted
  rw [asked, serve_of_served served] at given
  exact (congrArg Prod.fst given).symm

end FairLock

end WorkQueue
