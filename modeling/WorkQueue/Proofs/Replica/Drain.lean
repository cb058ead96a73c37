import WorkQueue.Proofs.Replica.Course

/-! # The answer to a stop request

A stop request looks at the processor when it is handled, and then again after each interval until
it is answered. When it is handled a processor that has stopped comes before a shutdown that has
begun; at each later look the shutdown comes first. What the processor does between two looks is
not seen.
-/
namespace WorkQueue

/-- What a stop request is answered once the replica is seen to have stopped. -/
def Http.Response.drained (name : String) : Response :=
  .json 200 (.object [(name, .string "Stopped")])

/-- What a stop request is answered if the replica shuts down before that. -/
def Http.Response.unavailable (name : String) (state : ProcessorState) : Response :=
  .error 503 s!"shutting down while {name} was {state.name}"

theorem Http.Request.shown_of_stop {request : Request} (h : request.route = .ok .stop)
    (response : Response) : request.shown response = response := by
  have method : request.method = "PUT" := by
    unfold route at h
    split at h
    · cases h
    · next found _ =>
      split at h
      · next serves =>
        cases h
        simpa [Route.serves, Route.changes] using serves
      · cases h
  simp [shown, method]

namespace Replica
variable {r : Replica} {id : Nat} {caller : String} {request : Http.Request} {t : Task}
  {deadline : Instant} {event : ReplicaEvent} {events : List ReplicaEvent}

/-! ## A look at the processor -/

/-- The answer that a stop request gets when it is handled. -/
def answerAtOnce? (r : Replica) : Option (Instant × Http.Response) :=
  let state := r.gate.finishAndStop.1.state
  if state = .stopped then some (r.now, .drained r.name)
  else if r.shutdown then some (r.now, .unavailable r.name state)
  else none

/-- The answer that a stop request gets when it looks at the processor again. -/
def answerLater? (r : Replica) : Option (Instant × Http.Response) :=
  if r.shutdown then some (r.now, .unavailable r.name r.gate.state)
  else if r.gate.state = .stopped then some (r.now, .drained r.name)
  else none

theorem silent_remove (h : id < r.nextId) : (r.remove id).Silent id :=
  ⟨h, fun t ht => by rw [task?_remove_self] at ht; cases ht⟩

/-- Whether a request waits for the processor to stop, until it looks again at an instant. It
stands in line once the instant has come, or the shutdown has begun. -/
structure Waiting (r : Replica) (id : Nat) (caller : String) (request : Http.Request)
    (deadline : Instant) : Prop where
  task : r.task? id = some
    { id := id, name := caller, duty := .request request true, deadline := some deadline }
  called : id ∈ r.ready → deadline ≤ r.now ∨ r.shutdown = true
  heeds : r.shutdown = true → id ∈ r.ready

theorem task?_next_of_some (h : r.Orderly) (ht : r.task? id = some t)
    (other : event ≠ .turn id) (unaborted : event ≠ .command (.abort t.name)) :
    (r.next event).task? id = some t := by
  have given : id < r.nextId := id_of_task? ht ▸ h.numbered t (List.mem_of_find?_eq_some ht)
  by_cases hname : ∃ name, event = .command (.abort name)
  · obtain ⟨name, rfl⟩ := hname
    have hne : t.name ≠ name := fun he => unaborted (he ▸ rfl)
    change (r.abort name).task? id = some t
    simp [task?_abort, ht, hne]
  · rw [task?_next given other (not_exists.mp hname), ht]

/-- What a turn of a stop request leaves: it is answered and gone, or waits for the next look. -/
structure Looked (id : Nat) (caller : String) (request : Http.Request) (check now : Instant)
    (answer? : Option (Instant × Http.Response)) (turned : Replica × List Occurrence) : Prop where
  replies : (turned.2.filterMap Occurrence.response?).map (fun response => (now, response)) =
    answer?.toList
  gone : answer? ≠ none → turned.1.Silent id
  waiting : answer? = none → turned.1.Waiting id caller request check

section
variable {looks : Option Instant} {check now : Instant}
  {answer? : Option (Instant × Http.Response)} {turned : Replica × List Occurrence}

theorem Looked.after_notices (h : Looked id caller request check now answer? turned)
    (notices : List Notice) :
    Looked id caller request check now answer?
      (turned.1, notices.map Occurrence.reported ++ turned.2) := by
  have silent : (notices.map Occurrence.reported).filterMap Occurrence.response? = [] := by
    simp [List.filterMap_eq_nil_iff, Occurrence.response?]
  exact ⟨by simpa [silent] using h.replies, h.gone, h.waiting⟩

theorem looked_of_stopped (s : Replica) (task : Task) (route : request.route = .ok .stop)
    (given : task.id < s.nextId) (stopped : s.gate.state = .stopped)
    (h : DrainWait.resume s.gate.state s.shutdown s.now s.checkInterval looks = .stopped) :
    Looked task.id caller request check s.now (some (s.now, .drained s.name))
      (s.runDrain task request looks) := by
  simp only [runDrain, h, respond, request.shown_of_stop route]
  refine ⟨?_, fun _ => silent_remove given, nofun⟩
  simp [Occurrence.response?, ownStates, ReplicaStates.toJson, ProcessorState.toJson, stopped,
    Http.Response.drained, ProcessorState.name]

theorem looked_of_interrupted (s : Replica) (task : Task) (route : request.route = .ok .stop)
    (given : task.id < s.nextId)
    (h : DrainWait.resume s.gate.state s.shutdown s.now s.checkInterval looks = .interrupted) :
    Looked task.id caller request check s.now (some (s.now, .unavailable s.name s.gate.state))
      (s.runDrain task request looks) := by
  simp only [runDrain, h, respond, request.shown_of_stop route]
  exact ⟨rfl, fun _ => silent_remove given, nofun⟩

theorem looked_of_waiting (s : Replica) (task : Task) (absent : task.id ∉ s.ready)
    (unfired : s.shutdown = false) (unaborted : task.aborted = false)
    (h : DrainWait.resume s.gate.state s.shutdown s.now s.checkInterval looks = .waiting check) :
    Looked task.id task.name request check now none (s.runDrain task request looks) := by
  simp only [runDrain, h]
  refine ⟨rfl, fun answered => absurd rfl answered, fun _ => ⟨?_, fun hi => absurd hi absent, ?_⟩⟩
  · have found := task?_suspend_self (r := s)
      (t := { task with duty := .request request true, deadline := some check })
    simpa [unaborted] using found
  · exact fun fired => absurd fired (by simp [suspend, unfired])

/-- A request that is handled asks the processor to stop, and then looks at it. -/
theorem runRequest_of_stop (r : Replica) (task : Task) (route : request.route = .ok .stop) :
    ∃ notices : List Notice, r.runRequest task request =
      (((r.setGate r.gate.finishAndStop.1).runDrain task request none).1,
        notices.map Occurrence.reported ++
          ((r.setGate r.gate.finishAndStop.1).runDrain task request none).2) := by
  let s := r.setGate r.gate.finishAndStop.1
  let awaited : List Notice := if s.gate.state = .stopped then [] else [.drainAwaited s.name]
  refine ⟨.stopRequested (s.runDrain task request none).1.name ::
    (r.gate.finishAndStop.2.map (·.toNotice r.name) ++ awaited), ?_⟩
  simp only [runRequest, route, operate, awaited, s]
  by_cases stopped : (r.setGate r.gate.finishAndStop.1).gate.state = .stopped
  · simp [Function.comp_def, stopped]
  · simp [Function.comp_def, stopped]

end

/-- A request that is handled looks at the processor after it has asked it to stop. -/
theorem Receives.looked (h : r.Receives id caller request) (ho : r.Orderly)
    (route : request.route = .ok .stop) :
    Looked id caller request (r.now + r.checkInterval.toNanos) r.now r.answerAtOnce?
      (r.happen (.turn id)) := by
  let task : Task := { id := id, name := caller, duty := .request request false }
  let s := (r.called id).setGate r.gate.finishAndStop.1
  have given : task.id < s.nextId := ho.numbered _ (List.mem_of_find?_eq_some h.made)
  have absent : task.id ∉ s.ready := by
    rw [ho.mem_ready_setGate_iff (s := r.called id) h.made rfl rfl
      (Gate.holds_finishAndStop.symm.trans ·)]
    simp [called]
  obtain ⟨notices, asked⟩ := runRequest_of_stop (r.called id) task route
  have turned : r.happen (.turn id) = (r.called id).runRequest task request := by
    simp [happen, turn, h.inLine, h.made, runTask, task]
  rw [turned, asked]
  refine Looked.after_notices ?_ notices
  by_cases stopped : s.gate.state = .stopped
  · have answer : r.answerAtOnce? = some (s.now, .drained s.name) := if_pos stopped
    rw [answer]
    exact looked_of_stopped s task route given stopped
      (by simp [DrainWait.resume, DrainWait.look, stopped])
  · by_cases fired : s.shutdown = true
    · have answer : r.answerAtOnce? = some (s.now, .unavailable s.name s.gate.state) :=
        (if_neg stopped).trans (if_pos fired)
      rw [answer]
      exact looked_of_interrupted s task route given
        (by simp [DrainWait.resume, DrainWait.look, stopped, fired])
    · have answer : r.answerAtOnce? = none := (if_neg stopped).trans (if_neg fired)
      rw [answer]
      exact looked_of_waiting s task absent (by simpa using fired) rfl
        (by simp only [DrainWait.resume, DrainWait.look, if_neg stopped, if_neg fired]; rfl)

namespace Waiting

theorem looked (h : r.Waiting id caller request deadline) (route : request.route = .ok .stop)
    (ho : r.Orderly) (inLine : id ∈ r.ready) :
    Looked id caller request (r.now + r.checkInterval.toNanos) r.now r.answerLater?
      (r.happen (.turn id)) := by
  let task : Task :=
    { id := id, name := caller, duty := .request request true, deadline := some deadline }
  have given : id < r.nextId := ho.numbered _ (List.mem_of_find?_eq_some h.task)
  have turned : r.happen (.turn id) = (r.called id).runDrain task request (some deadline) := by
    simp [happen, turn, inLine, h.task, runTask, task]
  rw [turned]
  by_cases fired : r.shutdown = true
  · have answer : r.answerLater? = some (r.now, .unavailable r.name r.gate.state) := by
      simp [answerLater?, fired]
    rw [answer]
    exact looked_of_interrupted (r.called id) task route given
      (by simp [DrainWait.resume, Replica.called, fired])
  · have due : deadline ≤ r.now := (h.called inLine).resolve_right fired
    by_cases stopped : r.gate.state = .stopped
    · have answer : r.answerLater? = some (r.now, .drained r.name) := by
        simp [answerLater?, fired, stopped]
      rw [answer]
      exact looked_of_stopped (r.called id) task route given stopped
        (by simp [DrainWait.resume, DrainWait.look, Replica.called, fired, due, stopped])
    · have answer : r.answerLater? = none := by simp [answerLater?, fired, stopped]
      rw [answer]
      exact looked_of_waiting (r.called id) task (by simp [task, Replica.called])
        (by simpa [Replica.called] using fired) rfl
        (by simp [DrainWait.resume, DrainWait.look, Replica.called, fired, due, stopped])

theorem silent_of_abort (h : r.Waiting id caller request deadline) (ho : r.Orderly) :
    (r.next (.command (.abort caller))).Silent id := by
  refine ⟨?_, fun t ht => ?_⟩
  · exact ho.numbered _ (List.mem_of_find?_eq_some h.task)
  · change (r.abort caller).task? id = some t at ht
    rw [task?_abort, h.task] at ht
    cases ht
    simp

/-- An event that is no turn of the request leaves it waiting, unless it is aborted. -/
theorem next (h : r.Waiting id caller request deadline) (ho : r.Orderly)
    (other : event ≠ .turn id) (unaborted : event ≠ .command (.abort caller)) :
    (r.next event).Waiting id caller request deadline := by
  have line := mem_ready_next ho h.task rfl other unaborted
  refine ⟨task?_next_of_some ho h.task other unaborted, fun hi => ?_, fun fired => ?_⟩
  · rcases line.mp hi with hi | ⟨he, -⟩ | ⟨he, due⟩
    · rcases h.called hi with due | fired
      · exact .inl (Nat.le_trans due (now_le_next r event))
      · exact .inr (shutdown_next.mpr (.inl fired))
    · exact .inr (shutdown_next.mpr (.inr he))
    · left
      exact Nat.le_trans (by simpa [isDue] using due) (now_le_next r event)
  · rcases shutdown_next.mp fired with fired | he
    · exact line.mpr (.inl (h.heeds fired))
    · exact line.mpr (.inr (.inl ⟨he, rfl⟩))

theorem next_of_absent (h : r.Waiting id caller request deadline) (ho : r.Orderly)
    (idle : r.goesOn id event = false) (unaborted : event ≠ .command (.abort caller)) :
    (r.next event).Waiting id caller request deadline := by
  by_cases own : event = .turn id
  · subst own
    have absent : id ∉ r.ready := by simpa [goesOn, h.task] using idle
    have same : r.next (.turn id) = r := by simp [Replica.next, happen, turn, absent]
    rwa [same]
  · exact h.next ho own unaborted

/-- The answers that a waiting request gets are those to what it finds at its turns. -/
theorem answers_eq (h : r.Waiting id caller request deadline) (ho : r.Orderly)
    (route : request.route = .ok .stop) (events : List ReplicaEvent) :
    r.answers id events = (r.visits id events).filterMap answerLater? := by
  induction events generalizing r deadline with
  | nil => rfl
  | cons event rest ih =>
    cases goes : r.goesOn id event with
    | false =>
      simp only [answers, visits, goes, Bool.false_eq_true, ↓reduceIte, List.nil_append]
      by_cases aborted : event = .command (.abort caller)
      · subst aborted
        have gone := h.silent_of_abort ho
        rw [gone.answers, gone.visits, List.filterMap_nil]
      · exact ih (h.next_of_absent ho goes aborted) (ho.next event)
    | true =>
      obtain ⟨rfl, inLine⟩ := inLine_of_goesOn goes
      simp only [answers, visits, goes, ↓reduceIte, List.cons_append, List.nil_append]
      have looked := h.looked route ho inLine
      rw [looked.replies]
      cases found : r.answerLater? with
      | some answer =>
        have gone : (r.next (.turn id)).Silent id := looked.gone (by simp [found])
        simp [found, gone.answers, gone.visits]
      | none =>
        have later := ih (r := r.next (.turn id)) (looked.waiting found) (ho.next _)
        simpa [found] using later

end Waiting

/-! ## The instants of the looks -/

theorem check_succ (first : Instant) (every k : Nat) :
    first + every + k * every = first + (k + 1) * every := by
  rw [Nat.succ_mul, Nat.add_assoc, Nat.add_comm (k * every)]

/-- How a wait for the processor to stop goes on over a course, after some looks in vain, with the
next look due at an instant. -/
inductive DrainCourse (r : Replica) (id : Nat) (caller : String) (request : Http.Request)
    (events : List ReplicaEvent) (vain : List Replica) (check : Instant) : Prop
  | pending (looks : r.visits id events = vain) (unanswered : r.answers id events = [])
      (waiting : (r.after events).Waiting id caller request check)
      (early : (r.after events).now ≤ check)
      (late : check ≤ (r.after events).now + r.checkInterval.toNanos)
      (fires : (r.after events).shutdown = true →
        r.shutdownAt events = some (r.after events).now)
  | drained {found : Replica} (looks : r.visits id events = vain ++ [found])
      (due : found.now = check) (stopped : found.gate.state = .stopped)
      (unfired : found.shutdown = false)
      (answered : r.answers id events = [(check, .drained r.name)])
  | interrupted {found : Replica} (looks : r.visits id events = vain ++ [found])
      (early : found.now ≤ check) (fires : r.shutdownAt events = some found.now)
      (answered : r.answers id events = [(found.now, .unavailable r.name found.gate.state)])

section
variable {vain : List Replica} {check : Instant}

theorem DrainCourse.cons (h : DrainCourse (r.next event) id caller request events vain check)
    (seen : List Replica)
    (looks : r.visits id (event :: events) = seen ++ (r.next event).visits id events)
    (silent : r.answers id (event :: events) = (r.next event).answers id events)
    (fires : r.shutdownAt (event :: events) = (r.next event).shutdownAt events) :
    DrainCourse r id caller request (event :: events) (seen ++ vain) check := by
  obtain ⟨name, interval⟩ := fixed_next r event
  cases h with
  | pending looks' unanswered waiting early late fires' =>
    exact .pending (by rw [looks, looks']) (silent.trans unanswered) waiting early
      (by rwa [interval] at late) (fun fired => fires.trans (fires' fired))
  | drained looks' due stopped unfired answered =>
    exact .drained (by rw [looks, looks', List.append_assoc]) due stopped unfired
      (by rw [silent, answered, name])
  | interrupted looks' early fires' answered =>
    exact .interrupted (by rw [looks, looks', List.append_assoc]) early (fires.trans fires')
      (by rw [silent, answered, name])

namespace Waiting

theorem visits_turn (h : r.Waiting id caller request deadline) (inLine : id ∈ r.ready) :
    r.visits id (.turn id :: events) = r :: (r.next (.turn id)).visits id events := by
  simp [visits, goesOn, inLine, h.task]

theorem visits_of_answer (h : r.Waiting id caller request deadline)
    (events : List ReplicaEvent) (route : request.route = .ok .stop) (ho : r.Orderly)
    (inLine : id ∈ r.ready) (answer : r.answerLater? ≠ none) :
    r.visits id (.turn id :: events) = [r] := by
  have gone : (r.next (.turn id)).Silent id := (h.looked route ho inLine).gone answer
  rw [h.visits_turn inLine, gone.visits]

/-- The clock does not pass the instant that a request waits for. -/
theorem now_next_le (h : r.Waiting id caller request deadline) (early : r.now ≤ deadline)
    (prompt : r.Prompt id (event :: events)) : (r.next event).now ≤ deadline := by
  by_cases timed : ∃ span, event = .tick span
  · obtain ⟨span, rfl⟩ := timed
    exact prompt.1.2 _ h.task _ rfl
  · rwa [now_next (not_exists.mp timed)]

/-- Once the shutdown has begun, the request is answered before the clock moves on. -/
theorem course_of_shutdown (h : r.Waiting id caller request deadline) (ho : r.Orderly)
    (route : request.route = .ok .stop) (fired : r.shutdown = true) (early : r.now ≤ deadline)
    (late : deadline ≤ r.now + r.checkInterval.toNanos) (kept : .command (.abort caller) ∉ events)
    (prompt : r.Prompt id events) :
    DrainCourse r id caller request events [] deadline := by
  induction events generalizing r with
  | nil => exact .pending rfl rfl h early late fun _ => shutdownAt_of_shutdown fired []
  | cons event rest ih =>
    have inLine := h.heeds fired
    obtain ⟨unaborted, kept⟩ := not_or.mp (List.mem_cons.not.mp kept)
    cases goes : r.goesOn id event with
    | true =>
      obtain ⟨rfl, -⟩ := inLine_of_goesOn goes
      have answer : r.answerLater? = some (r.now, .unavailable r.name r.gate.state) := by
        simp [answerLater?, fired]
      have looks := h.visits_of_answer rest route ho inLine (by simp [answer])
      refine .interrupted looks early (shutdownAt_of_shutdown fired _) ?_
      rw [h.answers_eq ho route, looks]
      simp [answer]
    | false =>
      have timeless : ∀ span, event ≠ .tick span := by
        rintro span rfl
        exact prompt.1.1 inLine
      have now : (r.next event).now = r.now := now_next timeless
      have interval := (fixed_next r event).2
      have course := ih (h.next_of_absent ho goes (Ne.symm unaborted)) (ho.next event)
        (shutdown_next.mpr (.inl fired)) (now ▸ early) (by rwa [now, interval]) kept prompt.next
      refine course.cons [] (visits_of_absent goes) (answers_of_absent goes) ?_
      rw [shutdownAt_of_shutdown fired, ← now]
      exact (shutdownAt_of_shutdown (shutdown_next.mpr (.inl fired)) rest).symm

/-- A look that finds the processor stopped ends the wait. -/
theorem course_of_stopped (h : r.Waiting id caller request deadline) (ho : r.Orderly)
    (route : request.route = .ok .stop) (inLine : id ∈ r.ready) (due : r.now = deadline)
    (stopped : r.gate.state = .stopped) (unfired : r.shutdown = false)
    (events : List ReplicaEvent) :
    DrainCourse r id caller request (.turn id :: events) [] deadline := by
  have answer : r.answerLater? = some (r.now, .drained r.name) := by
    simp [answerLater?, unfired, stopped]
  have looks := h.visits_of_answer events route ho inLine (by simp [answer])
  refine .drained looks due stopped unfired ?_
  rw [h.answers_eq ho route, looks]
  simp [answer, due]

/-- A look that finds it running with no shutdown begun is followed by the wait for the next. -/
theorem course_of_vain (h : r.Waiting id caller request deadline) (ho : r.Orderly)
    (route : request.route = .ok .stop) (inLine : id ∈ r.ready) (unfired : r.shutdown = false)
    (running : r.gate.state ≠ .stopped)
    (later : DrainCourse (r.next (.turn id)) id caller request events vain check) :
    DrainCourse r id caller request (.turn id :: events) (r :: vain) check := by
  have unanswered : r.answerLater? = none := by simp [answerLater?, unfired, running]
  have waiting : (r.next (.turn id)).Waiting id caller request _ :=
    (h.looked route ho inLine).waiting unanswered
  refine later.cons [r] (h.visits_turn inLine) ?_ (by simp [shutdownAt, unfired])
  rw [h.answers_eq ho route, waiting.answers_eq (ho.next _) route, h.visits_turn inLine]
  simp [unanswered]

/-- A wait whose looks are taken in time looks at the processor after each interval, until it
finds it stopped or the shutdown begins. -/
theorem course (h : r.Waiting id caller request deadline) (ho : r.Orderly)
    (route : request.route = .ok .stop) (unfired : r.shutdown = false) (early : r.now ≤ deadline)
    (late : deadline ≤ r.now + r.checkInterval.toNanos) (kept : .command (.abort caller) ∉ events)
    (prompt : r.Prompt id events) :
    ∃ vain : List Replica,
      DrainCourse r id caller request events vain
        (deadline + vain.length * r.checkInterval.toNanos) ∧
      vain.map Replica.now =
        (List.range vain.length).map (fun k => deadline + k * r.checkInterval.toNanos) ∧
      ∀ look ∈ vain, look.gate.state ≠ .stopped ∧ look.shutdown = false := by
  induction events generalizing r deadline with
  | nil =>
    have pending : DrainCourse r id caller request [] [] deadline :=
      .pending rfl rfl h early late fun fired => absurd fired (by simp [after, unfired])
    exact ⟨[], by simpa using pending, rfl, by simp⟩
  | cons event rest ih =>
    obtain ⟨unaborted, keptRest⟩ := not_or.mp (List.mem_cons.not.mp kept)
    have interval := (fixed_next r event).2
    cases goes : r.goesOn id event with
    | true =>
      obtain ⟨rfl, inLine⟩ := inLine_of_goesOn goes
      have due : deadline ≤ r.now := (h.called inLine).resolve_right (by simp [unfired])
      have now : r.now = deadline := Nat.le_antisymm early due
      by_cases stopped : r.gate.state = .stopped
      · have course := h.course_of_stopped ho route inLine now stopped unfired rest
        exact ⟨[], by simpa using course, rfl, by simp⟩
      · have unanswered : r.answerLater? = none := by simp [answerLater?, unfired, stopped]
        have waiting : (r.next (.turn id)).Waiting id caller request _ :=
          (h.looked route ho inLine).waiting unanswered
        have now' : (r.next (.turn id)).now = r.now := now_next (by simp)
        have unfired' : (r.next (.turn id)).shutdown = false := by
          rw [shutdown_next_of_ne (by simp), unfired]
        obtain ⟨vain, course, instants, vainly⟩ := ih waiting (ho.next _) unfired'
          (by simp [now']) (by simp [now', interval]) keptRest prompt.next
        simp only [interval, now, check_succ] at course instants
        refine ⟨r :: vain, h.course_of_vain ho route inLine unfired stopped course, ?_, ?_⟩
        · simp [instants, now, List.range_succ_eq_map, Function.comp_def]
        · simpa [stopped, unfired] using vainly
    | false =>
      have waiting := h.next_of_absent ho goes (Ne.symm unaborted)
      have early' := h.now_next_le early prompt
      have late' : deadline ≤ (r.next event).now + (r.next event).checkInterval.toNanos := by
        rw [interval]
        exact Nat.le_trans late (Nat.add_le_add_right (now_le_next r event) _)
      have idle : ∀ {vain check}, DrainCourse (r.next event) id caller request rest vain check →
          DrainCourse r id caller request (event :: rest) vain check := fun course =>
        course.cons [] (visits_of_absent goes) (answers_of_absent goes)
          (by simp [shutdownAt, unfired])
      by_cases fired : (r.next event).shutdown = true
      · have course := waiting.course_of_shutdown (ho.next event) route fired early' late' keptRest
          prompt.next
        exact ⟨[], by simpa using idle course, rfl, by simp⟩
      · obtain ⟨vain, course, instants, vainly⟩ := ih waiting (ho.next event)
          (by simpa using fired) early' late' keptRest prompt.next
        rw [interval] at course instants
        exact ⟨vain, idle course, instants, vainly⟩

end Waiting
end

/-! ## A request from its handling on -/

namespace Receives

theorem goesOn (h : r.Receives id caller request) : r.goesOn id (.turn id) = true := by
  simp [Replica.goesOn, h.inLine, h.made]

theorem answers_eq (h : r.Receives id caller request) (ho : r.Orderly)
    (route : request.route = .ok .stop) (events : List ReplicaEvent) :
    r.answers id (.turn id :: events) =
      r.answerAtOnce?.toList ++ (r.next (.turn id)).answers id events := by
  simp [answers, h.goesOn, (h.looked ho route).replies]

theorem silent (h : r.Receives id caller request) (ho : r.Orderly)
    (route : request.route = .ok .stop) (answer : r.answerAtOnce? ≠ none) :
    (r.next (.turn id)).Silent id := (h.looked ho route).gone answer

theorem waiting (h : r.Receives id caller request) (ho : r.Orderly)
    (route : request.route = .ok .stop) (unanswered : r.answerAtOnce? = none) :
    (r.next (.turn id)).Waiting id caller request (r.now + r.checkInterval.toNanos) :=
  (h.looked ho route).waiting unanswered

/-- The turn of a stop request leaves the gate as the request has made it. -/
theorem gate_next (h : r.Receives id caller request) (route : request.route = .ok .stop) :
    (r.next (.turn id)).gate = r.gate.finishAndStop.1 := by
  let task : Task := { id := id, name := caller, duty := .request request false }
  obtain ⟨notices, asked⟩ := runRequest_of_stop (r.called id) task route
  have turned : r.next (.turn id) = ((r.called id).runRequest task request).1 := by
    simp [next, happen, turn, h.inLine, h.made, runTask, task]
  rw [turned, asked]
  unfold runDrain
  split <;> rfl

end Receives

/-- A stop request is answered at once if the processor has then stopped, shutdown or not, and
with a refusal if the shutdown has begun. Otherwise it looks again after each interval and is
answered at the first look that finds the processor stopped, unless the shutdown begins before:
then it is refused when that happens. It is answered once, and whenever it is told that the
processor has stopped, nothing is in flight. -/
theorem stop_answered_exactly (reached : r.Reachable) (received : r.Receives id caller request)
    (route : request.route = .ok .stop) (kept : .command (.abort caller) ∉ events)
    (prompt : (r.next (.turn id)).Prompt id events) :
    let state := r.gate.finishAndStop.1.state
    let handled := r.next (.turn id)
    (state = .stopped →
      r.answers id (.turn id :: events) = [(r.now, .drained r.name)] ∧
        handled.gate.state = .stopped ∧ handled.Idle) ∧
    (state ≠ .stopped → r.shutdown = true →
      r.answers id (.turn id :: events) = [(r.now, .unavailable r.name state)]) ∧
    (state ≠ .stopped → r.shutdown = false →
      r.answers id (.turn id :: events) = handled.answers id events ∧
      ∃ vain : List Replica,
        DrainCourse handled id caller request events vain
          (r.now + (vain.length + 1) * r.checkInterval.toNanos) ∧
        vain.map Replica.now =
          (List.range vain.length).map (fun k => r.now + (k + 1) * r.checkInterval.toNanos) ∧
        ∀ look ∈ vain, look.gate.state ≠ .stopped ∧ look.shutdown = false) ∧
    ∀ found ∈ handled.visits id events, found.gate.state = .stopped → found.Idle := by
  intro state handled
  have answers := received.answers_eq reached.orderly route events
  refine ⟨fun stopped => ?_, fun busy fired => ?_, fun busy unfired => ?_, fun found hf => ?_⟩
  · have answer : r.answerAtOnce? = some (r.now, .drained r.name) := if_pos stopped
    have silent := received.silent reached.orderly route (by simp [answer])
    have gate : handled.gate.state = .stopped := by rw [received.gate_next route]; exact stopped
    refine ⟨?_, gate, (reached.next _).idle gate⟩
    rw [answers, answer, silent.answers]
    rfl
  · have answer : r.answerAtOnce? = some (r.now, .unavailable r.name state) :=
      (if_neg busy).trans (if_pos fired)
    have silent := received.silent reached.orderly route (by simp [answer])
    rw [answers, answer, silent.answers]
    rfl
  · have unanswered : r.answerAtOnce? = none := (if_neg busy).trans (if_neg (by simp [unfired]))
    have waiting := received.waiting reached.orderly route unanswered
    have now : (r.next (.turn id)).now = r.now := now_next (by simp)
    have interval : (r.next (.turn id)).checkInterval = r.checkInterval := (fixed_next r _).2
    have unfired' : (r.next (.turn id)).shutdown = false := by
      rw [shutdown_next_of_ne (by simp), unfired]
    obtain ⟨vain, course, instants, vainly⟩ := waiting.course (reached.orderly.next _) route
      unfired' (by simp [now]) (by simp [now, interval]) kept prompt
    simp only [interval, check_succ] at course instants
    exact ⟨by simp [answers, unanswered, handled], vain, course, instants, vainly⟩
  · exact (reached.next _).of_mem_visits hf |>.idle

def stopRequest : Http.Request := ⟨"PUT", none, "", "/processor/stop"⟩

/-- A replica that works on a job and is asked to stop; it looks again after ten milliseconds. -/
def asked : Replica :=
  (start "r" true (.ofMillis 10)).after
    [.command (.begin "job"), .turn 0, .command (.request "ops" "PUT" "/processor/stop")]

theorem reachable_asked : asked.Reachable := ⟨_, _, _, _, rfl⟩

theorem receives_asked : asked.Receives 1 "ops" stopRequest :=
  ⟨by decide +kernel, by decide +kernel⟩

/-- The job ends between two looks, and the next one finds the processor stopped. -/
theorem stop_answered_exactly_of_release :
    let events : List ReplicaEvent := [.tick (3 * nanosPerMilli), .command (.release "job"),
      .tick (7 * nanosPerMilli), .ring, .turn 1]
    let handled := asked.next (.turn 1)
    asked.Reachable ∧ asked.Receives 1 "ops" stopRequest ∧ stopRequest.route = .ok .stop ∧
      .command (.abort "ops") ∉ events ∧ handled.Prompt 1 events ∧
      asked.answers 1 (.turn 1 :: events) = [(10 * nanosPerMilli, .drained "r")] ∧
      (∃ vain : List Replica, DrainCourse handled 1 "ops" stopRequest events vain
        (asked.now + (vain.length + 1) * asked.checkInterval.toNanos)) ∧
      ∃ found ∈ handled.visits 1 events, found.gate.state = .stopped ∧ found.Idle := by
  intro events handled
  have prompt : handled.Prompt 1 events := by decide +kernel
  have kept : .command (.abort "ops") ∉ events := by simp [events]
  obtain ⟨-, -, later, idle⟩ :=
    stop_answered_exactly reachable_asked receives_asked rfl kept prompt
  obtain ⟨-, vain, course, -, -⟩ := later (by decide +kernel) (by decide +kernel)
  have found : ∃ found ∈ handled.visits 1 events, found.gate.state = .stopped := by decide +kernel
  obtain ⟨found, visited, stopped⟩ := found
  exact ⟨reachable_asked, receives_asked, rfl, kept, prompt, by decide +kernel, ⟨vain, course⟩,
    found, visited, stopped, idle found visited stopped⟩

/-- A stop request is answered according to what it finds: the state first when it is handled,
and the shutdown first when it looks again. -/
theorem stop_answered_as_found (reached : r.Reachable) (received : r.Receives id caller request)
    (route : request.route = .ok .stop) (events : List ReplicaEvent) :
    r.answers id (.turn id :: events) = r.answerAtOnce?.toList ++
      ((r.next (.turn id)).visits id events).filterMap answerLater? := by
  rw [received.answers_eq reached.orderly route]
  congr 1
  cases answer : r.answerAtOnce? with
  | some _ =>
    have silent := received.silent reached.orderly route (by simp [answer])
    rw [silent.answers, silent.visits, List.filterMap_nil]
  | none =>
    exact (received.waiting reached.orderly route answer).answers_eq (reached.orderly.next _) route
      events

/-- The job ends between two looks and the shutdown begins before the next one. -/
theorem stop_answered_as_found_of_release :
    let events : List ReplicaEvent := [.tick (3 * nanosPerMilli), .command (.release "job"),
      .command .shutdown, .turn 1]
    asked.Reachable ∧ asked.Receives 1 "ops" stopRequest ∧ stopRequest.route = .ok .stop ∧
      asked.answers 1 (.turn 1 :: events) = asked.answerAtOnce?.toList ++
        ((asked.next (.turn 1)).visits 1 events).filterMap answerLater? :=
  ⟨reachable_asked, receives_asked, rfl,
    stop_answered_as_found reachable_asked receives_asked rfl _⟩

/-- A replica whose processor has stopped refuses a stop request that waits for that, if it shuts
down before the request looks again. -/
theorem unavailable_of_stopped :
    let earlier : List ReplicaEvent := [.turn 1, .tick (3 * nanosPerMilli),
      .command (.release "job"), .command .shutdown]
    asked.Receives 1 "ops" stopRequest ∧ stopRequest.route = .ok .stop ∧
      (asked.after earlier).gate.state = .stopped ∧
      asked.answers 1 (earlier ++ [.turn 1]) =
        [(3 * nanosPerMilli, .unavailable "r" .stopped)] ∧
      (Http.Response.unavailable "r" .stopped).status = 503 :=
  ⟨receives_asked, rfl, by decide +kernel, by decide +kernel, rfl⟩

/-! ## A drain that has ended -/

theorem DrainCourse.mem_visits {vain : List Replica} {check : Instant} {look : Replica}
    (h : DrainCourse r id caller request events vain check) (hl : look ∈ vain) :
    look ∈ r.visits id events := by
  cases h with
  | pending looks => exact looks ▸ hl
  | drained looks => exact looks ▸ List.mem_append_left _ hl
  | interrupted looks => exact looks ▸ List.mem_append_left _ hl

/-- A request that has not been answered still waits, for no longer than an interval. -/
theorem Waiting.of_unanswered (h : r.Waiting id caller request deadline) (ho : r.Orderly)
    (route : request.route = .ok .stop) (early : r.now ≤ deadline)
    (late : deadline ≤ r.now + r.checkInterval.toNanos) (kept : .command (.abort caller) ∉ events)
    (prompt : r.Prompt id events) (unfired : r.shutdown = false)
    (unanswered : r.answers id events = []) :
    ∃ check, (r.after events).Waiting id caller request check ∧ (r.after events).now ≤ check ∧
      check ≤ (r.after events).now + r.checkInterval.toNanos := by
  obtain ⟨vain, course, -, -⟩ := h.course ho route unfired early late kept prompt
  cases course with
  | pending looks silent waiting early' late' fires => exact ⟨_, waiting, early', late'⟩
  | drained looks due stopped unfired answered => simp [unanswered] at answered
  | interrupted looks early' fires answered => simp [unanswered] at answered

/-- A request that waits while the processor has stopped reports it at the next look, unless the
processor has been started and the look finds it running. -/
theorem Waiting.reported (h : r.Waiting id caller request deadline) (ho : r.Orderly)
    (route : request.route = .ok .stop) (early : r.now ≤ deadline)
    (late : deadline ≤ r.now + r.checkInterval.toNanos) (kept : .command (.abort caller) ∉ events)
    (prompt : r.Prompt id events) (unfired : (r.after events).shutdown = false)
    (stopped : r.gate.state = .stopped) :
    r.answers id events = [(deadline, .drained r.name)] ∨
      r.answers id events = [] ∧ (r.after events).now ≤ deadline ∨
      ∃ earlier event between rest, events = earlier ++ event :: between ++ .turn id :: rest ∧
        (r.after earlier).Starts event ∧
        (r.after (earlier ++ event :: between)).goesOn id (.turn id) = true ∧
        (r.after (earlier ++ event :: between)).now = deadline ∧
        (r.after (earlier ++ event :: between)).gate.state ≠ .stopped := by
  obtain ⟨vain, course, instants, vainly⟩ :=
    h.course ho route (unfired_of_after unfired) early late kept prompt
  cases vain with
  | nil =>
    simp only [List.length_nil, Nat.zero_mul, Nat.add_zero] at course
    cases course with
    | pending looks unanswered waiting early' late' fires => exact .inr (.inl ⟨unanswered, early'⟩)
    | drained looks due stopped unfired answered => exact .inl answered
    | interrupted looks early' fires answered =>
      simp [shutdown_of_shutdownAt fires] at unfired
  | cons look rest =>
    have due : look.now = deadline := by
      simpa [List.range_succ_eq_map] using congrArg List.head? instants
    have running := (vainly look List.mem_cons_self).1
    obtain ⟨before, rest, rfl, rfl, goes⟩ :=
      split_of_mem_visits (course.mem_visits List.mem_cons_self)
    obtain ⟨earlier, event, between, rfl, starts⟩ := exists_starts stopped running
    exact .inr (.inr ⟨earlier, event, between, rest, rfl, starts, goes, due, running⟩)

/-- A stop request that is pending while the processor has stopped looks at it again within an
interval. It reports it stopped then, unless a start has taken effect before that look and the look
finds the processor not stopped. -/
theorem drain_reported_unless_restarted (reached : r.Reachable)
    (received : r.Receives id caller request) (route : request.route = .ok .stop)
    {during later : List ReplicaEvent} (kept : .command (.abort caller) ∉ during ++ later)
    (prompt : (r.next (.turn id)).Prompt id (during ++ later)) :
    let here := (r.next (.turn id)).after during
    (here.after later).shutdown = false → r.answers id (.turn id :: during) = [] →
      here.gate.state = .stopped →
      ∃ check, here.now ≤ check ∧ check ≤ here.now + r.checkInterval.toNanos ∧
        (here.answers id later = [(check, .drained r.name)] ∨
          here.answers id later = [] ∧ (here.after later).now ≤ check ∨
          ∃ earlier event between rest, later = earlier ++ event :: between ++ .turn id :: rest ∧
            (here.after earlier).Starts event ∧
            (here.after (earlier ++ event :: between)).goesOn id (.turn id) = true ∧
            (here.after (earlier ++ event :: between)).now = check ∧
            (here.after (earlier ++ event :: between)).gate.state ≠ .stopped) := by
  intro here unfired unanswered stopped
  obtain ⟨promptDuring, promptLater⟩ := prompt.of_append
  obtain ⟨keptDuring, keptLater⟩ := not_or.mp (List.mem_append.not.mp kept)
  rw [received.answers_eq reached.orderly route, List.append_eq_nil_iff] at unanswered
  have handled := received.waiting reached.orderly route (by simpa using unanswered.1)
  have now : (r.next (.turn id)).now = r.now := now_next (by simp)
  have ho := reached.orderly.next (.turn id)
  obtain ⟨name, interval⟩ := fixed_next r (.turn id)
  obtain ⟨name', interval'⟩ := fixed_after (r.next (.turn id)) during
  obtain ⟨check, waiting, early, late⟩ := handled.of_unanswered ho route (by simp [now])
    (by simp [now, interval]) keptDuring promptDuring (unfired_of_after (unfired_of_after unfired))
    unanswered.2
  rw [interval] at late
  refine ⟨check, early, late, ?_⟩
  have reported := waiting.reported (ho.after during) route early
    (by rw [interval', interval]; exact late) keptLater promptLater unfired stopped
  rwa [name', name] at reported

theorem drain_reported_unless_restarted_of_release :
    let during : List ReplicaEvent := [.tick (3 * nanosPerMilli), .command (.release "job")]
    let later : List ReplicaEvent := [.tick (7 * nanosPerMilli), .ring, .turn 1]
    let here := (asked.next (.turn 1)).after during
    asked.Reachable ∧ asked.Receives 1 "ops" stopRequest ∧ stopRequest.route = .ok .stop ∧
      .command (.abort "ops") ∉ during ++ later ∧
      (asked.next (.turn 1)).Prompt 1 (during ++ later) ∧ (here.after later).shutdown = false ∧
      asked.answers 1 (.turn 1 :: during) = [] ∧ here.gate.state = .stopped ∧
      ∃ check, here.now ≤ check ∧ check ≤ here.now + asked.checkInterval.toNanos ∧
        (here.answers 1 later = [(check, .drained asked.name)] ∨
          here.answers 1 later = [] ∧ (here.after later).now ≤ check ∨
          ∃ earlier event between rest, later = earlier ++ event :: between ++ .turn 1 :: rest ∧
            (here.after earlier).Starts event ∧
            (here.after (earlier ++ event :: between)).goesOn 1 (.turn 1) = true ∧
            (here.after (earlier ++ event :: between)).now = check ∧
            (here.after (earlier ++ event :: between)).gate.state ≠ .stopped) := by
  intro during later here
  have kept : .command (.abort "ops") ∉ during ++ later := by simp [during, later]
  have prompt : (asked.next (.turn 1)).Prompt 1 (during ++ later) := by decide +kernel
  have unfired : (here.after later).shutdown = false := by decide +kernel
  have unanswered : asked.answers 1 (.turn 1 :: during) = [] := by decide +kernel
  have stopped : here.gate.state = .stopped := by decide +kernel
  exact ⟨reachable_asked, receives_asked, rfl, kept, prompt, unfired, unanswered, stopped,
    drain_reported_unless_restarted reachable_asked receives_asked rfl kept prompt unfired
      unanswered stopped⟩

/-- Started again before the next look, the processor is not seen to have stopped, and the request
waits on. -/
theorem drain_unreported_of_restart :
    let during : List ReplicaEvent := [.tick (3 * nanosPerMilli), .command (.release "job")]
    let later : List ReplicaEvent := [.command (.request "dev" "PUT" "/processor/start"), .turn 2,
      .tick (7 * nanosPerMilli), .ring, .turn 1, .tick (10 * nanosPerMilli)]
    let here := (asked.next (.turn 1)).after during
    asked.Reachable ∧ asked.Receives 1 "ops" stopRequest ∧ stopRequest.route = .ok .stop ∧
      .command (.abort "ops") ∉ during ++ later ∧
      (asked.next (.turn 1)).Prompt 1 (during ++ later) ∧ (here.after later).shutdown = false ∧
      asked.answers 1 (.turn 1 :: during) = [] ∧ here.gate.state = .stopped ∧
      here.now + asked.checkInterval.toNanos < (here.after later).now ∧
      here.answers 1 later = [] := by
  intro during later here
  exact ⟨reachable_asked, receives_asked, rfl, by simp [during, later], by decide +kernel,
    by decide +kernel, by decide +kernel, by decide +kernel, by decide +kernel, by decide +kernel⟩

end Replica
end WorkQueue
