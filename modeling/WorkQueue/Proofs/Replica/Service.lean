import WorkQueue.Proofs.Replica.FairLock
import WorkQueue.Proofs.Replica.Settling

/-! # The gate is a fair lock

If everything that can run does so after each request, the gate of a replica and the calls that wait
at it are a lock with one line. A wake-up that the gate stores is stale unless the lock can be had,
and nobody waits then; so whatever wakes a call finds it first in the line and gives it the lock.
-/
namespace WorkQueue
namespace Replica
variable {r s : Replica} {l : FairLock} {i : Nat} {task : Task} {out : List Occurrence}

/-! ## A replica and its lock -/

/-- The replica stands as the lock does, and nobody has yet to go on. -/
structure Lined (l : FairLock) (r : Replica) : Prop where
  state : r.gate.state = l.state
  inFlight : r.gate.inFlight = l.holder.isSome
  holder : r.holder = l.holder
  woken : r.gate.woken = []
  ready : r.ready = []
  tasks : r.tasks = l.waiting.map Call.task
  waiting : r.gate.waiting = l.waiting.map Call.number
  cancelled : r.cancelled = l.cancelled
  calls : r.nextId = l.calls

/-- Moreover an open gate stores a wake-up. One that is stored at a closed gate is stale, but nobody
waits then either. -/
structure Rests (l : FairLock) (r : Replica) : Prop extends Lined l r where
  stored : l.Free → r.gate.stored = true
  idle : r.gate.Idle

/-- Where a replica gets to when all that can run has run, and the calls that end on the way. -/
structure Settles (r : Replica) (l : FairLock) (events : List LockEvent) : Prop where
  rests : Rests l r.settle.1
  answers : r.settle.2.map Timed.occurrence = events.map LockEvent.occurrence

theorem rests_start (name : String) (workOnStartup : Bool) (interval : Duration) :
    Rests (.opening workOnStartup) (start name workOnStartup interval) := by
  have lined : Lined (.opening workOnStartup) (start name workOnStartup interval) := by
    constructor <;> rfl
  refine ⟨lined, fun free => ?_, fun _ => rfl⟩
  cases workOnStartup with
  | true => rfl
  | false => exact nomatch free.1

theorem Lined.onlyCalls (h : Lined l r) : r.OnlyCalls := onlyCalls_of_map h.tasks

theorem Lined.isOpen (h : Lined l r) : r.gate.isOpen = true ↔ l.Free := by
  rw [Gate.isOpen_iff, h.state, h.inFlight, FairLock.Free, Option.isSome_eq_false_iff,
    Option.isNone_iff_eq_none]

theorem Lined.isOpen_eq_false (h : Lined l r) (closed : ¬ l.Free) : r.gate.isOpen = false := by
  rw [← Bool.not_eq_true, h.isOpen]
  exact closed

theorem Rests.served (h : Rests l r) : l.Served := by
  intro free
  have empty := h.idle (h.stored free)
  rw [h.waiting] at empty
  exact List.map_eq_nil_iff.mp empty

/-- A replica at rest stays there. -/
theorem Rests.settles (h : Rests l r) : r.Settles l [] := by
  have settled : r.settle = (r, []) := settle_of_idle h.ready h.onlyCalls.timeless
  exact ⟨by rwa [settled], by rw [settled]; rfl⟩

theorem settles_of_turn (events : List LockEvent) (ready : r.ready = [i])
    (turn : r.turn i = (s, events.map LockEvent.occurrence)) (h : Rests l s) :
    r.Settles l events := by
  have settled := settle_of_turn ready turn h.ready h.onlyCalls.timeless
  refine ⟨by rwa [settled], ?_⟩
  rw [settled, List.map_map]
  exact List.map_id _

/-! ## The lock is given on -/

section
variable {g : Gate Nat} (h : Lined l { r with gate := g })
include h

/-- A wake-up that finds nobody in the line is stored. -/
theorem settles_stored (empty : l.waiting = []) :
    (r.setGate g.wake).Settles l.serve.1 l.serve.2 := by
  have calls : r.OnlyCalls := h.onlyCalls
  have woken : g.woken = [] := h.woken
  have waiting : g.waiting = l.waiting.map Call.number := h.waiting
  have served : l.Served := fun _ => empty
  have stored : g.wake = { g with stored := true } := by
    simp only [Gate.wake, waiting, empty, List.map_nil]
  have nobody : ({ g with stored := true } : Gate Nat).woken = [] := woken
  rw [FairLock.serve_of_served served, stored, calls.setGate_of_asleep nobody]
  refine Rests.settles ⟨⟨h.state, h.inFlight, h.holder, woken, h.ready, h.tasks, waiting,
    h.cancelled, h.calls⟩, fun _ => rfl, fun _ => ?_⟩
  exact waiting.trans (by rw [empty, List.map_nil])

/-- The first of the line, once woken, takes the lock with its turn. -/
theorem turn_of_first (asleep : r.gate.woken = []) (ordered : l.Ordered) (free : l.Free)
    {call : Call} {rest : List Call} (line : l.waiting = call :: rest)
    (wakes : g.wake = { g with waiting := rest.map Call.number, woken := [call.number] }) :
    (r.setGate g.wake).ready = [call.number] ∧ (r.setGate g.wake).turn call.number =
      ({ r with
          gate := { g.wake with woken := [], inFlight := true }
          holder := some call.name
          tasks := rest.map Call.task
          ready := [] },
        [.granted call.name]) := by
  have calls : r.OnlyCalls := h.onlyCalls
  have isOpen : g.isOpen = true := h.isOpen.mpr free
  have ready : r.ready = [] := h.ready
  have tasks : r.tasks = ([] ++ call :: rest).map Call.task := h.tasks.trans (by rw [line]; rfl)
  have distinct : (([] ++ call :: rest).map Call.number).Nodup := by
    rw [List.nil_append, ← line]
    exact ordered.nodup
  have heeded : call.name ∉ r.cancelled := by
    rw [show r.cancelled = _ from h.cancelled]
    exact ordered.heeded call (line ▸ List.mem_cons_self)
  have inLine : r.setGate g.wake = { r with gate := g.wake, ready := [call.number] } := by
    rw [calls.setGate, wakes]
    simp [Gate.newlyWoken, asleep, wake, ready]
  have first : (r.setGate g.wake).task? call.number = some call.task := by
    rw [inLine, task?, tasks]
    exact find?_task_of_nodup distinct fun _ => rfl
  have live : ({ r with gate := g.wake, ready := [] } : Replica).isCancelled call.name = false :=
    isCancelled_eq_false heeded
  have polled : g.wake.poll call.number false =
      ({ g.wake with woken := [], inFlight := true }, .granted) :=
    Gate.poll_of_woken (wakes ▸ isOpen) (by rw [wakes])
  refine ⟨by rw [inLine], ?_⟩
  rw [turn_begin (by rw [inLine]) first rfl rfl, inLine]
  refine (runBegin_granted (r := { r with gate := g.wake, ready := [] }) _ calls
    ((congrArg _ live).trans polled) rfl).trans ?_
  rw [remove, tasks, Call.task, filter_task_of_nodup distinct fun _ => rfl]
  rfl

/-- A wake-up for an open gate gives the lock to the first of the line, or is stored. -/
theorem settles_wake (asleep : r.gate.woken = []) (idle : g.Idle) (ordered : l.Ordered)
    (free : l.Free) : (r.setGate g.wake).Settles l.serve.1 l.serve.2 := by
  cases line : l.waiting with
  | nil => exact settles_stored h line
  | cons call rest =>
    have woken : g.woken = [] := h.woken
    have waiting : g.waiting = l.waiting.map Call.number := h.waiting
    have unstored : g.stored = true → rest.map Call.number = [] := by
      intro hs
      have empty := idle hs
      rw [waiting, line] at empty
      cases empty
    have wakes : g.wake = { g with waiting := rest.map Call.number, woken := [call.number] } := by
      simp only [Gate.wake, waiting, line, List.map_cons, woken, List.nil_append]
    obtain ⟨ready, turn⟩ := turn_of_first h asleep ordered free line wakes
    rw [FairLock.serve_of_free free line]
    refine settles_of_turn [_] ready turn ⟨?_, by rintro ⟨-, ⟨⟩⟩, ?_⟩
    · rw [wakes]
      exact ⟨h.state, rfl, rfl, rfl, rfl, rfl, rfl, h.cancelled, h.calls⟩
    · rw [wakes]
      exact unstored

end

/-! ## Calls that leave -/

/-- Whether a call ends with its next turn without getting the lock, and what is heard of it. -/
inductive Departs (r : Replica) (task : Task) (call : Call) : List LockEvent → Prop
  | aborted (aborted : task.aborted = true) : Departs r task call []
  | cancelled (live : task.aborted = false) (name : task.name = call.name)
      (fired : call.name ∈ r.cancelled) : Departs r task call [.refused call]

/-- The replica with calls that wait and tasks that stand in line. -/
def standing (r : Replica) (f : Call → Task) (calls : List Call) (ready : List Nat) : Replica :=
  { r with
    gate := { r.gate with waiting := calls.map Call.number }
    tasks := calls.map f
    ready := ready }

section
variable {f : Call → Task} (waits : ∀ c, (f c).id = c.number ∧ (f c).duty = .begin ∧
  (f c).deadline = none) (asleep : r.gate.woken = [])
include waits

theorem onlyCalls_standing (calls : List Call) (ready : List Nat) :
    (r.standing f calls ready).OnlyCalls := by
  intro t ht
  obtain ⟨call, -, rfl⟩ := List.mem_map.mp ht
  exact (waits call).2

include asleep

theorem turn_of_departs {front rest : List Call} {call : Call} {ready : List Nat}
    {heard : List LockEvent} (distinct : ((front ++ call :: rest).map Call.number).Nodup)
    (departs : r.Departs (f call) call heard) (later : call.number ∉ ready) :
    (r.standing f (front ++ call :: rest) (call.number :: ready)).turn call.number =
      (r.standing f (front ++ rest) ready, heard.map LockEvent.occurrence) := by
  have numbered : ∀ c, (f c).id = c.number := fun c => (waits c).1
  have still (calls : List Call) : (r.standing f calls ready).gate.woken = [] := asleep
  have found : (r.standing f (front ++ call :: rest) (call.number :: ready)).task? call.number =
      some (f call) := find?_task_of_nodup distinct numbered
  have called : (r.standing f (front ++ call :: rest) (call.number :: ready)).called call.number =
      r.standing f (front ++ call :: rest) ready := by
    have others : ready.filter (fun i => i != call.number) = ready :=
      List.filter_eq_self.mpr fun i hi => bne_iff_ne.mpr fun same => later (same ▸ hi)
    simp [Replica.called, standing, others]
  have left : (r.standing f (front ++ call :: rest) ready).gate.drop (f call).id =
      (r.standing f (front ++ rest) ready).gate := by
    rw [Gate.drop_of_asleep (still _), numbered]
    exact congrArg (fun waiting => { r.gate with waiting := waiting })
      (erase_number_of_nodup distinct)
  have removed : ({ r.standing f (front ++ call :: rest) ready with
        gate := (r.standing f (front ++ rest) ready).gate } : Replica).remove (f call).id =
      r.standing f (front ++ rest) ready := by
    rw [numbered]
    exact congrArg (fun tasks => { r.standing f (front ++ rest) ready with tasks := tasks })
      (filter_task_of_nodup distinct numbered)
  have calls := onlyCalls_standing (r := r) waits (front ++ call :: rest) ready
  rw [turn_of_task? List.mem_cons_self found, called]
  cases departs with
  | aborted aborted =>
    simp only [runTask, aborted, ↓reduceIte, takeDown, left]
    rw [calls.setGate_of_asleep (still _), removed]
    rfl
  | cancelled live name fired =>
    have refused : (r.standing f (front ++ call :: rest) ready).gate.poll (f call).id
        ((r.standing f (front ++ call :: rest) ready).isCancelled (f call).name) =
          ((r.standing f (front ++ rest) ready).gate, .refused) := by
      have heard : (r.standing f (front ++ call :: rest) ready).isCancelled (f call).name = true := by
        rw [name]
        simpa [isCancelled, standing] using fired
      simp only [heard, Gate.poll, ↓reduceIte, left]
    simp only [runTask, live, (waits call).2.1, Bool.false_eq_true, ↓reduceIte]
    rw [runBegin_refused _ calls refused (still _), removed, name]
    rfl

/-- Calls that depart leave the others in line, whatever turns they take. -/
theorem runFor_of_departs {heard : Call → List LockEvent} {going : Call → Bool}
    (front : List Call) {rest : List Call} (distinct : ((front ++ rest).map Call.number).Nodup)
    (departs : ∀ c ∈ rest, going c = true → r.Departs (f c) c (heard c)) {fuel : Nat}
    (patient : (rest.filter going).length ≤ fuel) :
    ∃ timed, (r.standing f (front ++ rest) ((rest.filter going).map Call.number)).runFor fuel =
        (r.standing f (front ++ rest.filter fun c => !going c) [], timed) ∧
      timed.map Timed.occurrence =
        ((rest.filter going).flatMap heard).map LockEvent.occurrence := by
  induction rest generalizing front fuel with
  | nil =>
    refine ⟨[], runFor_of_ready_nil ?_ fuel, rfl⟩
    rfl
  | cons call rest ih =>
    obtain ⟨first, others⟩ := List.forall_mem_cons.mp departs
    cases hg : going call with
    | false =>
      rw [List.append_cons] at distinct
      rw [List.filter_cons_of_neg (by simp [hg])] at patient
      rw [List.filter_cons_of_neg (by simp [hg]), List.filter_cons_of_pos (by simp [hg]),
        List.append_cons front call rest, List.append_cons front call (rest.filter _)]
      exact ih _ distinct others patient
    | true =>
      rw [List.filter_cons_of_pos hg] at patient
      obtain ⟨fuel, rfl⟩ := Nat.exists_eq_add_one_of_ne_zero (Nat.ne_of_gt (Nat.lt_of_lt_of_le
        (Nat.succ_pos _) patient))
      have left : ((front ++ rest).map Call.number).Nodup := by
        rw [← erase_number_of_nodup distinct]
        exact distinct.erase _
      have later : call.number ∉ (rest.filter going).map Call.number := by
        intro hm
        obtain ⟨other, hother, same⟩ := List.mem_map.mp hm
        exact number_ne_of_nodup distinct other
          (List.mem_append_right _ (List.mem_filter.mp hother).1) same
      obtain ⟨timed, run, answers⟩ := ih _ left others (Nat.le_of_succ_le_succ patient)
      have turn := turn_of_departs waits asleep distinct (first hg) later
      rw [List.filter_cons_of_pos hg, List.filter_cons_of_neg (by simp [hg]), List.map_cons,
        runFor_of_turn rfl turn, run]
      refine ⟨_, rfl, ?_⟩
      rw [List.map_append, answers, List.map_map, List.flatMap_cons, List.map_append]
      exact congrArg (· ++ _) (List.map_id _)

/-- So the calls with a name do until a replica has settled. -/
theorem settle_of_departs {heard : Call → List LockEvent} {calls : List Call} {name : String}
    (distinct : (calls.map Call.number).Nodup)
    (departs : ∀ c ∈ calls, c.name = name → r.Departs (f c) c (heard c)) :
    ∃ timed, (r.standing f calls
          ((calls.filter fun c => c.name = name).map Call.number)).settle =
        (r.standing f (calls.filter fun c => c.name ≠ name) [], timed) ∧
      timed.map Timed.occurrence =
        ((calls.filter fun c => c.name = name).flatMap heard).map LockEvent.occurrence := by
  have patient : (calls.filter fun c => c.name = name).length ≤ (r.standing f calls
      ((calls.filter fun c => c.name = name).map Call.number)).patience := by
    simp only [patience, standing, List.length_map]
    exact Nat.le_add_right _ _
  have going : ∀ c ∈ calls, decide (c.name = name) = true → r.Departs (f c) c (heard c) :=
    fun c hc same => departs c hc (of_decide_eq_true same)
  obtain ⟨timed, run, answers⟩ := runFor_of_departs waits asleep [] distinct going patient
  have others : (fun c : Call => !decide (c.name = name)) = fun c => decide (c.name ≠ name) := by
    funext c
    exact (decide_not ..).symm
  rw [others] at run
  exact ⟨timed, settle_of_run run rfl (onlyCalls_standing waits _ _).timeless, answers⟩

end

/-! ## Requests -/

/-- What a request to a replica comes to is what it comes to at the lock. -/
structure Follows (l : FairLock) (r : Replica) (request : LockRequest) : Prop where
  settles : (r.apply request.command).1.Settles (l.step request).1 (l.step request).2.events
  reply : (r.apply request.command).2.1 = (l.step request).2.reply
  silent : (r.apply request.command).2.2.filter Occurrence.isAnswer = []

theorem operate_silent (r : Replica) (change : Gate Nat × List GateNotice) :
    (r.operate change).2.filter Occurrence.isAnswer = [] := by
  rw [List.filter_eq_nil_iff]
  intro o ho
  obtain ⟨notice, -, rfl⟩ := List.mem_map.mp ho
  simp [Occurrence.isAnswer]

theorem step_of_served {request : LockRequest} (served : (l.ask request).1.Served) :
    l.step request = l.ask request := by
  simp only [FairLock.step, FairLock.serve_of_served served, List.append_nil]

theorem follows_start (h : Rests l r) (ordered : l.Ordered) : Follows l r .start := by
  refine ⟨?_, ?_, operate_silent r _⟩
  · change (r.setGate r.gate.start.1).Settles _ _
    by_cases stopped : l.state = .stopped
    · have asked : l.ask .start = ({ l with state := .working }, ⟨.state .working, []⟩) := by
        simp only [FairLock.ask, if_pos stopped]
      have started : r.gate.start.1 = (r.gate.moveTo .working).wake := by
        simp only [Gate.start, h.state, stopped]
      have free : ({ l with state := .working } : FairLock).Free := ⟨rfl, ordered.drained stopped⟩
      have opened : ({ l with state := .working } : FairLock).Ordered :=
        ⟨ordered.ascending, ordered.numbered, ordered.heeded, by rintro ⟨⟩⟩
      have lined : Lined { l with state := .working } { r with gate := r.gate.moveTo .working } :=
        ⟨rfl, h.inFlight, h.holder, h.woken, h.ready, h.tasks, h.waiting, h.cancelled, h.calls⟩
      simp only [FairLock.step, asked, started, List.nil_append]
      exact settles_wake lined h.woken h.idle opened free
    · have asked : l.ask .start = (l, ⟨.state l.state, []⟩) := by
        simp only [FairLock.ask, if_neg stopped]
      have same : r.gate.start.1 = r.gate := by
        rw [← h.state] at stopped
        unfold Gate.start
        split
        · contradiction
        · rfl
        · rfl
      rw [step_of_served (by rw [asked]; exact h.served), asked, same,
        h.onlyCalls.setGate_of_asleep h.woken]
      exact h.settles
  · change ReplicaReply.state r.gate.start.1.state = .state _
    rw [Gate.start_state, h.state]

theorem follows_stop (h : Rests l r) : Follows l r .stop := by
  have state : r.gate.finishAndStop.1.state = (l.ask .stop).1.state := by
    rw [Gate.finishAndStop_state, h.state, h.inFlight]
    simp only [FairLock.ask]
    cases l.holder <;> rfl
  have closed : ¬ (l.ask .stop).1.Free := by
    rintro ⟨working, -⟩
    simp only [FairLock.ask] at working
    split at working
    · split at working <;> cases working
    · contradiction
  obtain ⟨woken, waiting⟩ : r.gate.finishAndStop.1.woken = [] ∧
      r.gate.finishAndStop.1.waiting = l.waiting.map Call.number := by
    unfold Gate.finishAndStop
    split
    · split <;> exact ⟨h.woken, h.waiting⟩
    · exact ⟨h.woken, h.waiting⟩
  have inFlight : r.gate.finishAndStop.1.inFlight = l.holder.isSome :=
    r.gate.finishAndStop_inFlight.trans h.inFlight
  refine ⟨?_, ?_, operate_silent r _⟩
  · change (r.setGate r.gate.finishAndStop.1).Settles _ _
    rw [step_of_served fun free => absurd free closed, h.onlyCalls.setGate_of_asleep woken]
    exact Rests.settles ⟨⟨state, inFlight, h.holder, woken, h.ready, h.tasks, waiting, h.cancelled,
      h.calls⟩, fun free => absurd free closed, h.idle.finishAndStop⟩
  · change ReplicaReply.state r.gate.finishAndStop.1.state = .state (l.ask .stop).1.state
    rw [state]

/-- A permit that is given back gives the lock on, or the drain ends. -/
theorem settles_release (h : Rests l r) (ordered : l.Ordered) :
    ({ r with holder := none }.setGate r.gate.release.1).Settles l.released.serve.1
      l.released.serve.2 := by
  by_cases working : l.state = .working
  · have released : r.gate.release.1 = ({ r.gate with inFlight := false } : Gate Nat).wake := by
      simp only [Gate.release, h.state, working]
    have state : l.released.state = .working := by simp [FairLock.released, working]
    have opened : l.released.Ordered :=
      ⟨ordered.ascending, ordered.numbered, ordered.heeded, fun _ => rfl⟩
    have lined : Lined l.released
        { ({ r with holder := none } : Replica) with gate := { r.gate with inFlight := false } } :=
      ⟨(h.state.trans working).trans state.symm, rfl, rfl, h.woken, h.ready, h.tasks, h.waiting,
        h.cancelled, h.calls⟩
    rw [released]
    exact settles_wake lined h.woken h.idle opened ⟨state, rfl⟩
  · have closed : ¬ l.released.Free := by
      rintro ⟨stays, -⟩
      simp only [FairLock.released] at stays
      split at stays
      · cases stays
      · contradiction
    obtain ⟨woken, waiting⟩ : r.gate.release.1.woken = [] ∧
        r.gate.release.1.waiting = l.waiting.map Call.number := by
      have busy : r.gate.state ≠ .working := h.state ▸ working
      unfold Gate.release
      dsimp only
      split
      · exact ⟨h.woken, h.waiting⟩
      · contradiction
      · exact ⟨h.woken, h.waiting⟩
    have calls : ({ r with holder := none } : Replica).OnlyCalls := h.onlyCalls
    rw [FairLock.serve_of_served fun free => absurd free closed, calls.setGate_of_asleep woken]
    refine Rests.settles ⟨⟨?_, r.gate.release_inFlight, rfl, woken, h.ready, h.tasks, waiting,
      h.cancelled, h.calls⟩, fun free => absurd free closed, h.idle.release⟩
    rw [r.gate.release_state, h.state]
    rfl

theorem follows_release (h : Rests l r) (ordered : l.Ordered) (name : String) :
    Follows l r (.release name) := by
  by_cases held : l.holder = some name
  · have holds : r.holder = some name := h.holder.trans held
    have applied : r.apply (.release name) =
        (({ r with holder := none }.setGate r.gate.release.1), .released true,
          r.gate.release.2.map fun n => .reported (n.toNotice r.name)) := by
      simp only [apply, release, if_pos holds, operate]
    constructor
    all_goals
      simp only [LockRequest.command, applied, FairLock.step, FairLock.ask, if_pos held,
        List.nil_append]
    · exact settles_release h ordered
    · exact operate_silent r r.gate.release
  · have holds : r.holder ≠ some name := fun same => held (h.holder.symm.trans same)
    have asked : l.ask (.release name) = (l, ⟨.released false, []⟩) := by
      simp only [FairLock.ask, if_neg held]
    have applied : r.apply (.release name) = (r, .released false, []) := by
      simp only [apply, release, if_neg holds]
    have stays : l.step (.release name) = (l, ⟨.released false, []⟩) :=
      (step_of_served (by rw [asked]; exact h.served)).trans asked
    constructor
    all_goals simp only [LockRequest.command, applied, stays]
    · exact h.settles
    · rfl

/-- The tasks of the calls with a name. -/
theorem Lined.idsOf_eq (h : Lined l r) (name : String) {p : Task → Bool}
    (named : ∀ call : Call, p call.task = decide (call.name = name)) :
    r.idsOf p = (l.waiting.filter fun call => call.name = name).map Call.number := by
  rw [idsOf, h.tasks, List.filter_map, List.map_map]
  exact congrArg (List.map Call.number) (List.filter_congr fun call _ => named call)

/-- Whoever leaves, the replica and the lock are at rest. -/
theorem Rests.filter (h : Rests l r) (p : Call → Bool) :
    Rests { l with waiting := l.waiting.filter p }
      (r.standing Call.task (l.waiting.filter p) []) := by
  refine ⟨⟨h.state, h.inFlight, h.holder, h.woken, rfl, rfl, rfl, h.cancelled, h.calls⟩, h.stored,
    fun stored => ?_⟩
  have empty := h.idle stored
  rw [h.waiting, List.map_eq_nil_iff] at empty
  simp [standing, empty]

theorem settles_of_settle {events : List LockEvent} {timed : List Timed}
    (settled : r.settle = (s, timed)) (h : Rests l s)
    (answers : timed.map Timed.occurrence = events.map LockEvent.occurrence) :
    r.Settles l events :=
  ⟨by rwa [settled], by rwa [settled]⟩

theorem follows_cancel (h : Rests l r) (ordered : l.Ordered) (name : String) :
    Follows l r (.cancel name) := by
  have fired : Rests { l with cancelled := name :: l.cancelled }
      { r with cancelled := name :: r.cancelled } :=
    ⟨⟨h.state, h.inFlight, h.holder, h.woken, h.ready, h.tasks, h.waiting,
      congrArg (name :: ·) h.cancelled, h.calls⟩, h.stored, h.idle⟩
  have departs : ∀ call ∈ l.waiting, call.name = name →
      ({ r with cancelled := name :: r.cancelled } : Replica).Departs call.task call
        [.refused call] := by
    intro call _ same
    refine .cancelled rfl rfl ?_
    rw [same]
    exact List.mem_cons_self
  obtain ⟨timed, settled, answers⟩ :=
    settle_of_departs (r := { r with cancelled := name :: r.cancelled })
      (fun _ => ⟨rfl, rfl, rfl⟩) h.woken ordered.nodup departs
  have standing : r.cancel name =
      ({ r with cancelled := name :: r.cancelled } : Replica).standing Call.task l.waiting
        ((l.waiting.filter fun call => call.name = name).map Call.number) := by
    have listening := h.idsOf_eq name (p := fun t => t.name == name && heedsToken t)
      fun call => by simp [Call.task, heedsToken, Bool.beq_eq_decide_eq]
    simp [cancel, listening, wake, h.ready, Replica.standing, ← h.tasks, ← h.waiting]
  have rests := fired.filter fun call => call.name ≠ name
  have stays : l.step (.cancel name) = l.ask (.cancel name) := step_of_served rests.served
  refine ⟨?_, rfl, rfl⟩
  change (r.cancel name).Settles _ _
  rw [stays, standing]
  refine settles_of_settle settled rests (answers.trans ?_)
  exact congrArg _ List.map_eq_flatMap.symm

/-- The task of a call that waits once the calls with a name have been aborted. -/
def aborting (name : String) (call : Call) : Task :=
  if call.name = name then { call.task with aborted := true } else call.task

theorem follows_abort (h : Rests l r) (ordered : l.Ordered) (name : String) :
    Follows l r (.abort name) := by
  have waits : ∀ c, (aborting name c).id = c.number ∧ (aborting name c).duty = .begin ∧
      (aborting name c).deadline = none := by
    intro c
    unfold aborting
    split <;> exact ⟨rfl, rfl, rfl⟩
  have departs : ∀ call ∈ l.waiting, call.name = name →
      r.Departs (aborting name call) call [] := by
    intro call _ same
    refine .aborted ?_
    rw [aborting, if_pos same]
  obtain ⟨timed, settled, answers⟩ := settle_of_departs waits h.woken ordered.nodup departs
  have standing : r.abort name = r.standing (aborting name) l.waiting
      ((l.waiting.filter fun call => call.name = name).map Call.number) := by
    have named := h.idsOf_eq name (p := fun t => t.name == name)
      fun call => by simp [Call.task, Bool.beq_eq_decide_eq]
    have tasks : (r.tasks.map fun t => if t.name = name then { t with aborted := true } else t) =
        l.waiting.map (aborting name) := by
      rw [h.tasks, List.map_map]
      rfl
    simp [abort, named, wake, h.ready, Replica.standing, tasks, ← h.waiting]
  have rests := h.filter fun call => call.name ≠ name
  have unmarked : r.standing (aborting name) (l.waiting.filter fun call => call.name ≠ name) [] =
      r.standing Call.task (l.waiting.filter fun call => call.name ≠ name) [] := by
    have others : (l.waiting.filter fun call => call.name ≠ name).map (aborting name) =
        (l.waiting.filter fun call => call.name ≠ name).map Call.task :=
      List.map_congr_left fun call hc => if_neg (of_decide_eq_true (List.mem_filter.mp hc).2)
    rw [Replica.standing, others, Replica.standing]
  rw [unmarked] at settled
  have stays : l.step (.abort name) = l.ask (.abort name) := step_of_served rests.served
  refine ⟨?_, rfl, rfl⟩
  change (r.abort name).Settles _ _
  rw [stays, standing]
  refine settles_of_settle settled rests (answers.trans ?_)
  simp [FairLock.ask]

/-! ### A call that arrives -/

/-- The replica when a new call takes its first turn. -/
def arriving (r : Replica) (calls : List Call) (call : Call) : Replica :=
  { r with tasks := (calls ++ [call]).map Call.task, nextId := call.number + 1, ready := [] }

theorem turn_spawn (h : Lined l r) (ordered : l.Ordered) (name : String) :
    (r.spawn name .begin).ready = [l.calls] ∧
      (r.spawn name .begin).turn l.calls =
        (r.arriving l.waiting ⟨l.calls, name⟩).runBegin (Call.task ⟨l.calls, name⟩) := by
  have spawned : r.spawn name .begin =
      { r.arriving l.waiting ⟨l.calls, name⟩ with ready := [l.calls] } := by
    simp [spawn, arriving, h.ready, h.tasks, h.calls, Call.task]
  have distinct : ((l.waiting ++ [(⟨l.calls, name⟩ : Call)]).map Call.number).Nodup := by
    rw [List.map_append, List.nodup_append]
    refine ⟨ordered.nodup, List.nodup_singleton _, fun i hi j hj same => ?_⟩
    rw [same, List.mem_singleton.mp hj] at hi
    exact ordered.new hi
  have found : (r.spawn name .begin).task? l.calls = some (Call.task ⟨l.calls, name⟩) := by
    rw [spawned]
    exact find?_task_of_nodup distinct fun _ => rfl
  have ready : (r.spawn name .begin).ready = [l.calls] := by rw [spawned]
  refine ⟨ready, (turn_begin ready found rfl rfl).trans ?_⟩
  rw [spawned]
  rfl

theorem remove_arriving (r : Replica) (ordered : l.Ordered) (name : String) :
    ((r.arriving l.waiting ⟨l.calls, name⟩).remove l.calls).tasks = l.waiting.map Call.task := by
  have others : (l.waiting.map Call.task).filter (fun t => t.id != l.calls) =
      l.waiting.map Call.task := by
    rw [List.filter_eq_self]
    intro t ht
    obtain ⟨call, hc, rfl⟩ := List.mem_map.mp ht
    simpa [Call.task] using Nat.ne_of_lt (ordered.numbered call hc)
  simp [remove, arriving, others, Call.task]

/-- A call whose token has fired is refused at once. -/
theorem settles_refused (h : Rests l r) (ordered : l.Ordered) {name : String}
    (fired : name ∈ l.cancelled) :
    (r.spawn name .begin).Settles { l with calls := l.calls + 1 } [.refused ⟨l.calls, name⟩] := by
  obtain ⟨ready, turn⟩ := turn_spawn h.toLined ordered name
  have calls : (r.arriving l.waiting ⟨l.calls, name⟩).OnlyCalls := onlyCalls_of_map rfl
  have unheld : r.gate.drop l.calls = r.gate := by
    have absent : r.gate.waiting.erase l.calls = r.gate.waiting :=
      List.erase_of_not_mem (h.waiting ▸ ordered.new)
    rw [Gate.drop_of_asleep h.woken, absent]
  have polled : r.gate.poll l.calls (r.isCancelled name) = (r.gate, .refused) := by
    have heard : r.isCancelled name = true := by simpa [isCancelled, h.cancelled] using fired
    simp only [heard, Gate.poll, ↓reduceIte, unheld]
  replace turn := turn.trans
    (runBegin_refused (Call.task ⟨l.calls, name⟩) calls polled h.woken)
  refine settles_of_turn [_] ready turn ⟨⟨h.state, h.inFlight, h.holder, h.woken, rfl, ?_, h.waiting,
    h.cancelled, rfl⟩, h.stored, h.idle⟩
  exact remove_arriving r ordered name

/-- A call gets a lock that can be had at once, by the wake-up that is stored. -/
theorem settles_granted (h : Rests l r) (ordered : l.Ordered) {name : String}
    (fresh : name ∉ l.cancelled) (free : l.Free) :
    (r.spawn name .begin).Settles { l with calls := l.calls + 1, holder := some name }
      [.granted ⟨l.calls, name⟩] := by
  obtain ⟨ready, turn⟩ := turn_spawn h.toLined ordered name
  have calls : (r.arriving l.waiting ⟨l.calls, name⟩).OnlyCalls := onlyCalls_of_map rfl
  have empty : r.gate.waiting = [] := h.idle (h.stored free)
  have polled : r.gate.poll l.calls (r.isCancelled name) =
      ({ r.gate with stored := false, inFlight := true }, .granted) := by
    rw [isCancelled_eq_false (h.cancelled ▸ fresh)]
    exact Gate.poll_of_open (h.isOpen.mpr free) h.woken empty (h.stored free)
  replace turn := turn.trans
    (runBegin_granted (Call.task ⟨l.calls, name⟩) calls polled h.woken)
  refine settles_of_turn [_] ready turn ⟨⟨h.state, rfl, rfl, h.woken, rfl, ?_, h.waiting,
    h.cancelled, rfl⟩, by rintro ⟨-, ⟨⟩⟩, by rintro ⟨⟩⟩
  exact remove_arriving r ordered name

/-- A call waits at the end of the line for a lock that cannot be had. -/
theorem settles_pending (h : Rests l r) (ordered : l.Ordered) {name : String}
    (fresh : name ∉ l.cancelled) (closed : ¬ l.Free) :
    (r.spawn name .begin).Settles
      { l with calls := l.calls + 1, waiting := l.waiting ++ [⟨l.calls, name⟩] } [] := by
  obtain ⟨ready, turn⟩ := turn_spawn h.toLined ordered name
  have calls : (r.arriving l.waiting ⟨l.calls, name⟩).OnlyCalls := onlyCalls_of_map rfl
  have polled : r.gate.poll l.calls (r.isCancelled name) =
      ({ r.gate with stored := false, waiting := r.gate.waiting ++ [l.calls] }, .pending) := by
    rw [isCancelled_eq_false (h.cancelled ▸ fresh)]
    exact Gate.poll_of_closed (h.isOpen_eq_false closed) h.woken (h.waiting ▸ ordered.new)
  replace turn := turn.trans
    (runBegin_pending (Call.task ⟨l.calls, name⟩) calls polled h.woken)
  refine settles_of_turn [] ready turn ⟨⟨h.state, h.inFlight, h.holder, h.woken, rfl, ?_,
    ?_, h.cancelled, rfl⟩, fun free => absurd free closed, by rintro ⟨⟩⟩
  · rw [List.map_append]
    exact congrArg (· ++ [Call.task ⟨l.calls, name⟩]) (remove_arriving r ordered name)
  · rw [List.map_append]
    exact congrArg (· ++ [l.calls]) h.waiting

theorem follows_begin (h : Rests l r) (ordered : l.Ordered) (name : String) :
    Follows l r (.begin name) := by
  by_cases fired : name ∈ l.cancelled
  · have asked : l.ask (.begin name) =
        ({ l with calls := l.calls + 1 }, ⟨.done, [.refused ⟨l.calls, name⟩]⟩) := by
      simp only [FairLock.ask, if_pos fired]
    have stays : l.step (.begin name) = _ :=
      (step_of_served (by rw [asked]; exact h.served)).trans asked
    refine ⟨?_, by rw [stays]; rfl, rfl⟩
    rw [stays]
    exact settles_refused h ordered fired
  · have asked : l.ask (.begin name) =
        ({ l with calls := l.calls + 1, waiting := l.waiting ++ [⟨l.calls, name⟩] },
          ⟨.done, []⟩) := by
      simp only [FairLock.ask, if_neg fired]
    by_cases free : l.Free
    · have stays : l.step (.begin name) = ({ l with calls := l.calls + 1, holder := some name },
          ⟨.done, [.granted ⟨l.calls, name⟩]⟩) := by
        have empty : l.waiting = [] := h.served free
        have had : (l.ask (.begin name)).1.Free := by
          rw [asked]
          exact free
        have first : (l.ask (.begin name)).1.waiting = [⟨l.calls, name⟩] := by
          rw [asked, empty]
          rfl
        simp only [FairLock.step, FairLock.serve_of_free had first]
        rw [asked, empty]
        rfl
      refine ⟨?_, by rw [stays]; rfl, rfl⟩
      rw [stays]
      exact settles_granted h ordered fired free
    · have stays : l.step (.begin name) = _ :=
        (step_of_served (by rw [asked]; exact fun f => absurd f free)).trans asked
      refine ⟨?_, by rw [stays]; rfl, rfl⟩
      rw [stays]
      exact settles_pending h ordered fired free

theorem Rests.follows (h : Rests l r) (ordered : l.Ordered) (request : LockRequest) :
    Follows l r request := by
  cases request with
  | start => exact follows_start h ordered
  | stop => exact follows_stop h
  | begin name => exact follows_begin h ordered name
  | release name => exact follows_release h ordered name
  | cancel name => exact follows_cancel h ordered name
  | abort name => exact follows_abort h ordered name

/-! ## Runs -/

theorem execute_request (r : Replica) (request : LockRequest) :
    r.execute [request.command] =
      ((r.apply request.command).1.settle.1, [(r.apply request.command).2.1],
        ((r.apply request.command).2.2.map fun o => ⟨r.now, o⟩) ++
          (r.apply request.command).1.settle.2) := by
  have performed : r.perform request.command = ((r.apply request.command).1,
      (r.apply request.command).2.1, (r.apply request.command).2.2.map fun o => ⟨r.now, o⟩) := by
    unfold perform
    cases request <;> simp only [LockRequest.command, List.append_nil]
  simp only [execute, performAll, performed, List.append_nil]

theorem Follows.attend {request : LockRequest} (h : Follows l r request) :
    Rests (l.step request).1 (r.attend request).1 ∧
      (r.attend request).2 = (l.step request).2.shown := by
  have answers : ((l.step request).2.events.map LockEvent.occurrence).filter Occurrence.isAnswer =
      (l.step request).2.events.map LockEvent.occurrence := by
    rw [List.filter_eq_self]
    intro o ho
    obtain ⟨event, -, rfl⟩ := List.mem_map.mp ho
    cases event <;> rfl
  have said : ((r.apply request.command).2.2.map fun o => (⟨r.now, o⟩ : Timed)).map
      Timed.occurrence = (r.apply request.command).2.2 := by
    rw [List.map_map]
    exact List.map_id _
  simp only [Replica.attend, execute_request, List.map_append, List.filter_append, said, h.silent,
    h.settles.answers, answers, h.reply, List.nil_append]
  exact ⟨h.settles.rests, rfl⟩

theorem Rests.attendAll (h : Rests l r) (ordered : l.Ordered) (requests : List LockRequest) :
    Rests (l.after requests) (r.attendAll requests).1 ∧
      (r.attendAll requests).2 = (l.outcomes requests).map LockOutcome.shown := by
  induction requests generalizing l r with
  | nil => exact ⟨h, rfl⟩
  | cons request rest ih =>
    obtain ⟨rests, shown⟩ := (h.follows ordered request).attend
    obtain ⟨last, later⟩ := ih rests (ordered.step request)
    refine ⟨last, ?_⟩
    change (r.attend request).2 :: ((r.attend request).1.attendAll rest).2 = _
    rw [shown, later]
    rfl

/-- If everything that can run does so after each request, a replica is a fair lock: it gives the
same replies, grants and refusals, and the same calls wait at its gate in the same order. The lock is
given in the order of the calls, and nobody is left in the line who called before the one that gets
it. A call that does not get the lock, whether it is cancelled, aborted or goes on waiting, might as
well not have been made for all that the others get. -/
theorem settled_eq_fairLock (name : String) (workOnStartup : Bool) (interval : Duration)
    (requests : List LockRequest) :
    let lock := FairLock.opening workOnStartup
    let served := (start name workOnStartup interval).attendAll requests
    served.2 = (lock.outcomes requests).map LockOutcome.shown ∧
    served.1.gate.waiting = (lock.after requests).waiting.map Call.number ∧
    served.1.ready = [] ∧
    ((lock.outcomes requests).flatMap LockOutcome.grants).Pairwise
      (fun first second => first.number < second.number) ∧
    (∀ front request back, requests = front ++ request :: back →
      ∀ call ∈ ((lock.after front).step request).2.grants,
        ∀ other ∈ (lock.after (front ++ [request])).waiting, call.number < other.number) ∧
    (∀ front caller back, requests = front ++ .begin caller :: back →
      let number := (lock.after front).calls
      (∀ outcome ∈ lock.outcomes requests, ∀ call ∈ outcome.grants, call.number ≠ number) →
      lock.outcomes (front ++ back) = lock.outcomes front ++
        ((lock.outcomes requests).drop (front.length + 1)).map (.without number)) := by
  intro lock served
  have ordered : lock.Ordered := FairLock.ordered_opening workOnStartup
  obtain ⟨rests, shown⟩ := (rests_start name workOnStartup interval).attendAll ordered requests
  refine ⟨shown, rests.waiting, rests.ready, (FairLock.grants_ascending ordered requests).1, ?_, ?_⟩
  · intro front request back _ call hc other hother
    rw [FairLock.after_append] at hother
    rcases FairLock.granted_step (ordered.after front) request with none | ⟨one, grants, granted⟩
    · rw [none] at hc
      cases hc
    · rw [grants] at hc
      rw [List.mem_singleton.mp hc]
      exact granted.first other hother
  · intro front caller back split number ungranted
    have before : (lock.after front).Ordered := ordered.after front
    have quiet : (lock.after front).Served := (FairLock.served_opening workOnStartup).after front
    have parts : lock.outcomes requests = lock.outcomes front ++
        ((lock.after front).step (.begin caller)).2 ::
          ((lock.after front).step (.begin caller)).1.outcomes back := by
      rw [split, FairLock.outcomes_append]
      rfl
    rw [parts] at ungranted ⊢
    obtain ⟨-, own⟩ := List.forall_mem_append.mp ungranted
    obtain ⟨arrives, later⟩ := List.forall_mem_cons.mp own
    have without := FairLock.outcomes_without ((lock.after front).calls_lt_step_begin caller) later
    rw [FairLock.without_begin before quiet arrives] at without
    rw [FairLock.outcomes_append, without, ← FairLock.length_outcomes lock front,
      List.drop_length_add_append]
    rfl

end Replica
end WorkQueue