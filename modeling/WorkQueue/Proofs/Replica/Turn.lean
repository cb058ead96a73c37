import Mathlib.Tactic.Tauto
import WorkQueue.Proofs.Gate.Presence
import WorkQueue.Proofs.Gate.Wakeup
import WorkQueue.Replica.Course

/-! # What an event does to the tasks

A turn ends its task or puts it to the back, and leaves the other tasks alone; a command makes a
task or marks some as aborted. Nobody gets a number that was given before, and only calls stand at
the gate. So a request comes to the line when it is made, when the instant comes that it waits for
and when the shutdown begins, and for no other reason.
-/
namespace WorkQueue

namespace Replica
variable {r s last : Replica} {id i : Nat} {task t : Task} {gate : Gate Nat}

theorem mem_ready_wake {ids : List Nat} : i ∈ (r.wake ids).ready ↔ i ∈ r.ready ∨ i ∈ ids := by
  simp only [wake, List.mem_append, List.mem_filter, decide_eq_true_eq]
  tauto

theorem mem_idsOf {p : Task → Bool} :
    i ∈ r.idsOf p ↔ ∃ t ∈ r.tasks, p t = true ∧ t.id = i := by
  simp only [idsOf, List.mem_map, List.mem_filter]
  tauto

theorem mem_tasks_remove : t ∈ (r.remove id).tasks ↔ t ∈ r.tasks ∧ t.id ≠ id := by
  simp [remove]

/-- A gate that is put in place brings recorders and calls to the line that it has woken. -/
theorem mem_ready_setGate (h : i ∈ (r.setGate gate).ready) :
    i ∈ r.ready ∨ i ∈ r.idsOf isRecorder ∨ i ∈ gate.woken := by
  rcases mem_ready_wake.mp h with h | h
  · exact .inl h
  · rcases List.mem_append.mp h with h | h
    · split at h
      · cases h
      · exact .inr (.inl h)
    · exact .inr (.inr (List.mem_filter.mp h).1)

/-- What stays as it is but for the passing of time and the shutdown. -/
structure Still (r last : Replica) : Prop where
  name : last.name = r.name
  checkInterval : last.checkInterval = r.checkInterval
  now : last.now = r.now
  shutdown : last.shutdown = r.shutdown

theorem Still.refl (r : Replica) : r.Still r := ⟨rfl, rfl, rfl, rfl⟩

/-! ## Turns -/

/-- What a task does in a turn before it ends or waits. -/
inductive Shift (r : Replica) (task : Task) : Replica → Prop
  | idle : Shift r task r
  | recorded (store : StateStore) : Shift r task { r with store := store }
  | dropped : Shift r task (r.setGate (r.gate.drop task.id))
  | polled (duty : task.duty = .begin) {gate : Gate Nat} {answer : Answer}
      (polled : r.gate.poll task.id (r.isCancelled task.name) = (gate, answer)) :
      Shift r task { r.setGate gate with
        holder := if answer = .granted then some task.name else r.holder }
  | started {request : Http.Request} (duty : task.duty = .request request false)
      (route : request.route = .ok .start) : Shift r task (r.setGate r.gate.start.1)
  | stopped {request : Http.Request} (duty : task.duty = .request request false)
      (route : request.route = .ok .stop) : Shift r task (r.setGate r.gate.finishAndStop.1)

/-- What a turn of a task comes to: the task ends, or it waits with its duty. -/
inductive Turned (r : Replica) (task : Task) : Replica → Prop
  | ended {s : Replica} (shift : Shift r task s) : Turned r task (s.remove task.id)
  | waits {s : Replica} {t : Task} (shift : Shift r task s) (same : t.id = task.id)
      (calls : t.duty = .begin ↔ task.duty = .begin) : Turned r task (s.suspend t)

theorem takeDown_turned (r : Replica) (task : Task) : Turned r task (r.takeDown task) :=
  .ended .dropped

theorem runBegin_turned (duty : task.duty = .begin) : Turned r task (r.runBegin task).1 := by
  unfold runBegin
  cases hp : r.gate.poll task.id (r.isCancelled task.name) with
  | mk gate answer =>
    have shift := Shift.polled duty hp
    cases answer with
    | pending => exact .waits shift rfl Iff.rfl
    | granted => exact .ended shift
    | refused => exact .ended shift

theorem runAwait_turned {every : Duration} (duty : task.duty = .awaitStopped every) :
    Turned r task (r.runAwait task every).1 := by
  unfold runAwait
  split
  · exact .ended .idle
  · exact .ended .idle
  · exact .waits .idle rfl (by simp [duty])

theorem runRecorder_turned {recorder : Recorder} (duty : task.duty = .recorder recorder) :
    Turned r task (r.runRecorder task recorder).1 := by
  unfold runRecorder
  dsimp only
  split
  · exact .ended .idle
  · split
    · exact .ended (.recorded _)
    · exact .waits (.recorded _) rfl (by simp [duty])
  · exact .waits .idle rfl (by simp [duty])

theorem runDrain_turned {request : Http.Request} {draining : Bool} {deadline : Option Instant}
    (duty : task.duty = .request request draining) (shift : Shift r task s) :
    Turned r task (s.runDrain task request deadline).1 := by
  unfold runDrain
  split
  · exact .ended shift
  · exact .ended shift
  · exact .waits shift rfl (by simp [duty])

theorem runRequest_turned {request : Http.Request} (duty : task.duty = .request request false) :
    Turned r task (r.runRequest task request).1 := by
  unfold runRequest
  split
  · exact .ended .idle
  · exact .ended .idle
  · split
    · exact .ended .idle
    · exact .ended .idle
  · next route => exact .ended (.started duty route)
  · next route => exact runDrain_turned duty (.stopped duty route)

theorem runTask_turned (r : Replica) (task : Task) : Turned r task (r.runTask task).1 := by
  unfold runTask
  split
  · exact takeDown_turned r task
  · split
    · next duty => exact runBegin_turned duty
    · next every duty => exact runAwait_turned duty
    · next recorder duty => exact runRecorder_turned duty
    · next request duty => exact runDrain_turned duty .idle
    · next request duty => exact runRequest_turned duty

theorem id_of_task? (h : r.task? id = some t) : t.id = id := by
  simpa using List.find?_some h

/-- A turn is for nobody, or it is what its task makes of it. -/
theorem next_turn (r : Replica) (id : Nat) :
    r.next (.turn id) = r ∨ r.next (.turn id) = r.called id ∨
      ∃ task, r.task? id = some task ∧ Turned (r.called id) task (r.next (.turn id)) := by
  simp only [next, happen, turn]
  split
  · cases htask : r.task? id with
    | none => exact .inr (.inl rfl)
    | some task => exact .inr (.inr ⟨task, rfl, runTask_turned _ task⟩)
  · exact .inl rfl

theorem mem_ready_setGate_of_mem (h : i ∈ r.ready) : i ∈ (r.setGate gate).ready :=
  mem_ready_wake.mpr (.inl h)

namespace Shift

theorem tasks (h : Shift r task s) : s.tasks = r.tasks := by
  cases h <;> rfl

theorem still (h : Shift r task s) : r.Still s := by
  cases h <;> exact ⟨rfl, rfl, rfl, rfl⟩

theorem nextId (h : Shift r task s) : s.nextId = r.nextId := by
  cases h <;> rfl

theorem held (h : Shift r task s) (hi : s.gate.holds i = true) :
    r.gate.holds i = true ∨ i = task.id ∧ task.duty = .begin := by
  cases h with
  | idle => exact .inl hi
  | recorded store => exact .inl hi
  | dropped => exact .inl (Gate.holds_of_drop hi)
  | @polled duty gate answer polled =>
    have hpoll : (r.gate.poll task.id (r.isCancelled task.name)).1.holds i = true := by
      rw [polled]
      exact hi
    exact (Gate.holds_of_poll hpoll).imp_right fun same => ⟨same, duty⟩
  | started duty route => exact .inl (Gate.holds_start.symm.trans hi)
  | stopped duty route => exact .inl (Gate.holds_finishAndStop.symm.trans hi)

end Shift

/-! ## Commands -/

/-- What a command that has nothing to do with the tasks and the gate leaves as it was. -/
structure Same (r last : Replica) : Prop extends r.Still last where
  tasks : last.tasks = r.tasks
  ready : last.ready = r.ready
  nextId : last.nextId = r.nextId
  gate : last.gate = r.gate
  holder : last.holder = r.holder

/-- What a command does. -/
inductive Commanded (r : Replica) : ReplicaCommand → Replica → Prop
  | same {command : ReplicaCommand} {last : Replica} (other : command ≠ .shutdown)
      (same : r.Same last) : Commanded r command last
  | spawned {command : ReplicaCommand} (other : command ≠ .shutdown) (name : String)
      (duty : Duty) : Commanded r command (r.spawn name duty)
  | aborted (name : String) : Commanded r (.abort name) (r.abort name)
  | cancelled (name : String) : Commanded r (.cancel name) (r.cancel name)
  | interrupted : Commanded r .shutdown ({ r with shutdown := true }.wake (r.idsOf isDraining))
  | started : Commanded r .start (r.setGate r.gate.start.1)
  | stopped : Commanded r .stop (r.setGate r.gate.finishAndStop.1)
  | released {name : String} (held : r.holder = some name) :
      Commanded r (.release name) ({ r with holder := none }.setGate r.gate.release.1)

theorem apply_commanded (r : Replica) (command : ReplicaCommand) :
    Commanded r command (r.apply command).1 := by
  have rest : r.Same r := ⟨.refl r, rfl, rfl, rfl, rfl, rfl⟩
  cases command with
  | settle => exact .same nofun rest
  | start => exact .started
  | stop => exact .stopped
  | readState => exact .same nofun rest
  | begin name => exact .spawned (by simp) name .begin
  | release name =>
    by_cases held : r.holder = some name
    · simp only [apply, release, if_pos held]
      exact .released held
    · simp only [apply, release, if_neg held]
      exact .same nofun rest
  | cancel name => exact .cancelled name
  | abort name => exact .aborted name
  | awaitStopped name every => exact .spawned (by simp) name _
  | subscribe name => exact .same nofun ⟨⟨rfl, rfl, rfl, rfl⟩, rfl, rfl, rfl, rfl, rfl⟩
  | look name =>
    refine .same nofun ?_
    simp only [apply, look]
    cases r.watchers.get? name with
    | none => exact rest
    | some version => exact ⟨⟨rfl, rfl, rfl, rfl⟩, rfl, rfl, rfl, rfl, rfl⟩
  | record name => exact .spawned (by simp) name _
  | setState replica state =>
    refine .same nofun ?_
    simp only [apply, write]
    cases r.store.record replica state with
    | mk store answer => cases answer <;> exact ⟨⟨rfl, rfl, rfl, rfl⟩, rfl, rfl, rfl, rfl, rfl⟩
  | readStates =>
    refine .same nofun ?_
    simp only [apply]
    cases r.store.states <;> exact rest
  | rejectStore writes reads => exact .same nofun ⟨⟨rfl, rfl, rfl, rfl⟩, rfl, rfl, rfl, rfl, rfl⟩
  | request name method path =>
    simp only [apply]
    cases Http.Request.make? method path with
    | none => exact .same nofun rest
    | some request => exact .spawned (by simp) name _
  | shutdown => exact .interrupted
  | advance span => exact .same nofun rest

/-! ## Numbers -/

/-- Tasks have numbers of their own, all of them given before, and only calls stand at the gate. -/
structure Orderly (r : Replica) : Prop where
  numbered : ∀ t ∈ r.tasks, t.id < r.nextId
  distinct : (r.tasks.map Task.id).Nodup
  calling : ∀ i, r.gate.holds i = true → i < r.nextId ∧ ∀ t ∈ r.tasks, t.id = i → t.duty = .begin

namespace Orderly

theorem mem_tasks_iff (h : r.Orderly) : t ∈ r.tasks ↔ r.task? t.id = some t := by
  refine ⟨fun ht => ?_, List.mem_of_find?_eq_some⟩
  have distinct := h.distinct
  unfold task?
  generalize r.tasks = tasks at ht distinct
  induction tasks with
  | nil => cases ht
  | cons first rest ih =>
    simp only [List.map_cons, List.nodup_cons] at distinct
    rcases List.mem_cons.mp ht with rfl | ht
    · simp
    · have hne : first.id ≠ t.id := fun he =>
        distinct.1 (he ▸ List.mem_map_of_mem ht)
      rw [List.find?_cons_of_neg (by simpa using hne)]
      exact ih ht distinct.2

theorem of_same (h : r.Orderly) (tasks : s.tasks = r.tasks) (nextId : s.nextId = r.nextId)
    (held : ∀ i, s.gate.holds i = true → r.gate.holds i = true) : s.Orderly := by
  constructor
  · rw [tasks, nextId]
    exact h.numbered
  · rw [tasks]
    exact h.distinct
  · rw [tasks, nextId]
    exact fun i hi => h.calling i (held i hi)

theorem spawn (h : r.Orderly) (name : String) (duty : Duty) : (r.spawn name duty).Orderly := by
  constructor
  · intro t ht
    rcases List.mem_append.mp ht with ht | ht
    · exact Nat.lt_succ_of_lt (h.numbered t ht)
    · cases List.mem_singleton.mp ht
      exact Nat.lt_succ_self _
  · simp only [Replica.spawn, List.map_append, List.map_cons, List.map_nil]
    refine List.nodup_append.mpr ⟨h.distinct, by simp, ?_⟩
    intro i hi j hj same
    obtain ⟨t, ht, rfl⟩ := List.mem_map.mp hi
    have hlt := h.numbered t ht
    rw [List.mem_singleton.mp hj] at same
    omega
  · intro i hi
    obtain ⟨hlt, hcalls⟩ := h.calling i hi
    refine ⟨Nat.lt_succ_of_lt hlt, fun t ht same => ?_⟩
    rcases List.mem_append.mp ht with ht | ht
    · exact hcalls t ht same
    · cases List.mem_singleton.mp ht
      exact absurd same (Nat.ne_of_gt hlt)

theorem abort (h : r.Orderly) (name : String) : (r.abort name).Orderly := by
  have marked : ∀ t ∈ (r.abort name).tasks, ∃ t' ∈ r.tasks, t.id = t'.id ∧ t.duty = t'.duty := by
    intro t ht
    obtain ⟨t', ht', rfl⟩ := List.mem_map.mp ht
    exact ⟨t', ht', by split <;> rfl, by split <;> rfl⟩
  constructor
  · intro t ht
    obtain ⟨t', ht', same, -⟩ := marked t ht
    rw [same]
    exact h.numbered t' ht'
  · have ids : (r.abort name).tasks.map Task.id = r.tasks.map Task.id := by
      simp only [Replica.abort, wake, List.map_map]
      refine List.map_congr_left fun t _ => ?_
      simp only [Function.comp]
      split <;> rfl
    rw [ids]
    exact h.distinct
  · intro i hi
    obtain ⟨hlt, hcalls⟩ := h.calling i hi
    refine ⟨hlt, fun t ht same => ?_⟩
    obtain ⟨t', ht', same', duty⟩ := marked t ht
    rw [duty]
    exact hcalls t' ht' (same' ▸ same)

theorem turned (h : r.Orderly) (ht : task ∈ r.tasks) (turned : Turned r task last) :
    last.Orderly := by
  have numbered : ∀ {s : Replica}, Shift r task s → ∀ i, s.gate.holds i = true → i < r.nextId := by
    intro s shift i hi
    rcases shift.held hi with hi | ⟨rfl, -⟩
    · exact (h.calling i hi).1
    · exact h.numbered task ht
  have calls : ∀ {s : Replica}, Shift r task s → ∀ i, s.gate.holds i = true →
      ∀ t ∈ r.tasks, t.id = i → t.duty = .begin := by
    intro s shift i hi t ht' same
    rcases shift.held hi with hi | ⟨rfl, duty⟩
    · exact (h.calling i hi).2 t ht' same
    · have hfound := h.mem_tasks_iff.mp ht'
      rw [same, h.mem_tasks_iff.mp ht] at hfound
      cases hfound
      exact duty
  cases turned with
  | @ended s shift =>
    have kept : ∀ t ∈ (s.remove task.id).tasks, t ∈ r.tasks := fun t ht =>
      shift.tasks ▸ (mem_tasks_remove.mp ht).1
    constructor
    · intro t ht
      rw [show (s.remove task.id).nextId = r.nextId from shift.nextId]
      exact h.numbered t (kept t ht)
    · have hsub : (s.remove task.id).tasks.Sublist r.tasks := shift.tasks ▸ List.filter_sublist
      exact h.distinct.sublist (hsub.map _)
    · intro i hi
      rw [show (s.remove task.id).nextId = r.nextId from shift.nextId]
      exact ⟨numbered shift i hi, fun t ht => calls shift i hi t (kept t ht)⟩
  | @waits s t shift same duties =>
    have kept : ∀ t' ∈ (s.suspend t).tasks, t' = t ∨ t' ∈ r.tasks ∧ t'.id ≠ t.id := by
      intro t' ht'
      rcases List.mem_append.mp ht' with ht' | ht'
      · obtain ⟨hm, hne⟩ := mem_tasks_remove.mp ht'
        exact .inr ⟨shift.tasks ▸ hm, hne⟩
      · exact .inl (List.mem_singleton.mp ht')
    constructor
    · intro t' ht'
      rw [show (s.suspend t).nextId = r.nextId from shift.nextId]
      rcases kept t' ht' with rfl | ⟨hm, -⟩
      · exact same ▸ h.numbered task ht
      · exact h.numbered t' hm
    · simp only [suspend, List.map_append, List.map_cons, List.map_nil]
      have hsub : (s.remove t.id).tasks.Sublist r.tasks := shift.tasks ▸ List.filter_sublist
      refine List.nodup_append.mpr ⟨h.distinct.sublist (hsub.map _), by simp, ?_⟩
      intro i hi j hj he
      obtain ⟨t', ht', rfl⟩ := List.mem_map.mp hi
      rw [List.mem_singleton.mp hj] at he
      exact (mem_tasks_remove.mp ht').2 he
    · intro i hi
      rw [show (s.suspend t).nextId = r.nextId from shift.nextId]
      refine ⟨numbered shift i hi, fun t' ht' he => ?_⟩
      rcases kept t' ht' with rfl | ⟨hm, -⟩
      · exact duties.mpr (calls shift i hi task ht (same ▸ he))
      · exact calls shift i hi t' hm he

theorem next (h : r.Orderly) (event : ReplicaEvent) : (r.next event).Orderly := by
  cases event with
  | command command =>
    have commanded := apply_commanded r command
    change ((r.apply command).1).Orderly
    generalize (r.apply command).1 = last at commanded
    cases commanded with
    | same other same => exact h.of_same same.tasks same.nextId fun i hi => same.gate ▸ hi
    | spawned other name duty => exact h.spawn name duty
    | aborted name => exact h.abort name
    | cancelled name => exact h.of_same rfl rfl fun i hi => hi
    | interrupted => exact h.of_same rfl rfl fun i hi => hi
    | started => exact h.of_same rfl rfl fun i hi => Gate.holds_start.symm.trans hi
    | stopped => exact h.of_same rfl rfl fun i hi => Gate.holds_finishAndStop.symm.trans hi
    | released held => exact h.of_same rfl rfl fun i hi => Gate.holds_release.symm.trans hi
  | turn id =>
    have called : (r.called id).Orderly := h.of_same rfl rfl fun i hi => hi
    rcases next_turn r id with same | same | ⟨task, ht, turned⟩
    · rwa [same]
    · rwa [same]
    · exact called.turned (List.mem_of_find?_eq_some ht) turned
  | tick span => exact h.of_same rfl rfl fun i hi => hi
  | ring => exact h.of_same rfl rfl fun i hi => hi

theorem after (h : r.Orderly) (events : List ReplicaEvent) : (r.after events).Orderly := by
  induction events generalizing r with
  | nil => exact h
  | cons event rest ih => exact ih (h.next event)

end Orderly

theorem orderly_start (name : String) (workOnStartup : Bool) (interval : Duration) :
    (start name workOnStartup interval).Orderly := by
  constructor
  · simp [start]
  · simp [start]
  · simp [start, Gate.new, Gate.holds]

/-! ## One task among others -/

theorem task?_remove_of_ne (hne : id ≠ i) : (r.remove i).task? id = r.task? id := by
  simp only [task?, remove, List.find?_filter]
  congr 1
  funext t
  by_cases h : t.id = id <;> simp [h, hne]

theorem task?_remove_self : (r.remove id).task? id = none := by
  simp [task?, remove, List.find?_filter]

theorem task?_suspend_of_ne (hne : id ≠ t.id) : (r.suspend t).task? id = r.task? id := by
  refine Eq.trans ?_ (task?_remove_of_ne hne)
  simp only [task?, suspend, List.find?_append]
  simp [hne.symm]

theorem task?_suspend_self : (r.suspend t).task? t.id = some t := by
  have gone : (r.remove t.id).tasks.find? (fun t' => t'.id == t.id) = none :=
    task?_remove_self
  simp [task?, suspend, List.find?_append, gone]

theorem Shift.task? (h : Shift r task s) : s.task? id = r.task? id := by
  simp only [Replica.task?, h.tasks]

theorem Turned.still (h : Turned r task last) : r.Still last := by
  cases h with
  | ended shift =>
    have still := shift.still
    exact ⟨still.name, still.checkInterval, still.now, still.shutdown⟩
  | waits shift same calls =>
    have still := shift.still
    exact ⟨still.name, still.checkInterval, still.now, still.shutdown⟩

theorem Turned.nextId (h : Turned r task last) : last.nextId = r.nextId := by
  cases h with
  | ended shift => exact shift.nextId
  | waits shift same calls => exact shift.nextId

theorem Turned.task?_of_ne (h : Turned r task last) (hne : id ≠ task.id) :
    last.task? id = r.task? id := by
  cases h with
  | ended shift => rw [task?_remove_of_ne hne, shift.task?]
  | waits shift same calls => rw [task?_suspend_of_ne (same ▸ hne), shift.task?]

theorem task?_spawn_of_lt (h : id < r.nextId) {name : String} {duty : Duty} :
    (r.spawn name duty).task? id = r.task? id := by
  simp [task?, spawn, List.find?_append, Nat.ne_of_gt h]

theorem task?_abort {name : String} : (r.abort name).task? id =
    (r.task? id).map fun t => if t.name = name then { t with aborted := true } else t := by
  simp only [task?, abort, wake, List.find?_map]
  congr 2
  funext t
  simp only [Function.comp]
  split <;> rfl

/-- Events other than turns of its own and aborts leave a task as it is. -/
theorem task?_next (h : id < r.nextId) {event : ReplicaEvent} (other : event ≠ .turn id)
    (unaborted : ∀ name, event ≠ .command (.abort name)) :
    (r.next event).task? id = r.task? id := by
  cases event with
  | command command =>
    have commanded := apply_commanded r command
    change (r.apply command).1.task? id = _
    generalize (r.apply command).1 = last at commanded
    cases commanded with
    | same other same => simp only [task?, same.tasks]
    | spawned other name duty => exact task?_spawn_of_lt h
    | aborted name => exact absurd rfl (unaborted name)
    | cancelled name => rfl
    | interrupted => rfl
    | started => rfl
    | stopped => rfl
    | released held => rfl
  | turn i =>
    have hne : id ≠ i := fun he => other (he ▸ rfl)
    rcases next_turn r i with same | same | ⟨task, ht, turned⟩
    · rw [same]
    · rw [same]
      rfl
    · exact turned.task?_of_ne (id_of_task? ht ▸ hne)
  | tick span => rfl
  | ring => rfl

theorem nextId_next (r : Replica) (event : ReplicaEvent) : r.nextId ≤ (r.next event).nextId := by
  cases event with
  | command command =>
    have commanded := apply_commanded r command
    change _ ≤ (r.apply command).1.nextId
    generalize (r.apply command).1 = last at commanded
    cases commanded with
    | same other same => exact Nat.le_of_eq same.nextId.symm
    | spawned other name duty => exact Nat.le_succ _
    | aborted name => exact Nat.le_refl _
    | cancelled name => exact Nat.le_refl _
    | interrupted => exact Nat.le_refl _
    | started => exact Nat.le_refl _
    | stopped => exact Nat.le_refl _
    | released held => exact Nat.le_refl _
  | turn i =>
    rcases next_turn r i with same | same | ⟨task, -, turned⟩
    · exact Nat.le_of_eq (by rw [same])
    · exact Nat.le_of_eq (by rw [same]; rfl)
    · exact Nat.le_of_eq turned.nextId.symm
  | tick span => exact Nat.le_refl _
  | ring => exact Nat.le_refl _

/-- The clock moves by ticks only, and the shutdown begins by its command. -/
theorem still_next (r : Replica) {event : ReplicaEvent} (timeless : ∀ span, event ≠ .tick span)
    (lasting : event ≠ .command .shutdown) : r.Still (r.next event) := by
  cases event with
  | command command =>
    have commanded := apply_commanded r command
    change r.Still (r.apply command).1
    generalize (r.apply command).1 = last at commanded
    cases commanded with
    | same other same => exact same.toStill
    | spawned other name duty => exact ⟨rfl, rfl, rfl, rfl⟩
    | aborted name => exact ⟨rfl, rfl, rfl, rfl⟩
    | cancelled name => exact ⟨rfl, rfl, rfl, rfl⟩
    | interrupted => exact absurd rfl lasting
    | started => exact ⟨rfl, rfl, rfl, rfl⟩
    | stopped => exact ⟨rfl, rfl, rfl, rfl⟩
    | released held => exact ⟨rfl, rfl, rfl, rfl⟩
  | turn i =>
    rcases next_turn r i with same | same | ⟨task, -, turned⟩
    · rw [same]
      exact .refl r
    · rw [same]
      exact ⟨rfl, rfl, rfl, rfl⟩
    · have still := turned.still
      exact ⟨still.name, still.checkInterval, still.now, still.shutdown⟩
  | tick span => exact absurd rfl (timeless span)
  | ring => exact ⟨rfl, rfl, rfl, rfl⟩

theorem fixed_next (r : Replica) (event : ReplicaEvent) :
    (r.next event).name = r.name ∧ (r.next event).checkInterval = r.checkInterval := by
  by_cases lasting : event = .command .shutdown
  · subst lasting
    exact ⟨rfl, rfl⟩
  · by_cases timed : ∃ span, event = .tick span
    · obtain ⟨span, rfl⟩ := timed
      exact ⟨rfl, rfl⟩
    · have still := still_next r (not_exists.mp timed) lasting
      exact ⟨still.name, still.checkInterval⟩

/-- Whether a task has ended or is only there to be taken down. -/
structure Silent (r : Replica) (id : Nat) : Prop where
  given : id < r.nextId
  aborted : ∀ t, r.task? id = some t → t.aborted = true

namespace Silent

theorem next (h : r.Silent id) (event : ReplicaEvent) : (r.next event).Silent id := by
  refine ⟨Nat.lt_of_lt_of_le h.given (nextId_next r event), fun t ht => ?_⟩
  by_cases other : event = .turn id
  · subst other
    simp only [Replica.next, happen, turn] at ht
    split at ht
    · cases htask : r.task? id with
      | none =>
        simp only [htask] at ht
        exact h.aborted t ht
      | some task =>
        have hid : task.id = id := id_of_task? htask
        simp only [htask, runTask, h.aborted task htask, ↓reduceIte, takeDown] at ht
        rw [← hid, task?_remove_self] at ht
        cases ht
    · exact h.aborted t ht
  · by_cases hname : ∃ name, event = .command (.abort name)
    · obtain ⟨name, rfl⟩ := hname
      change (r.abort name).task? id = some t at ht
      rw [task?_abort] at ht
      obtain ⟨t', ht', rfl⟩ := Option.map_eq_some_iff.mp ht
      have haborted := h.aborted t' ht'
      split
      · rfl
      · exact haborted
    · rw [task?_next h.given other (not_exists.mp hname)] at ht
      exact h.aborted t ht

theorem goesOn (h : r.Silent id) (event : ReplicaEvent) : r.goesOn id event = false := by
  cases event with
  | turn i =>
    cases ht : r.task? id with
    | none => simp [Replica.goesOn, ht]
    | some t => simp [Replica.goesOn, ht, h.aborted t ht]
  | _ => rfl

theorem visits (h : r.Silent id) (events : List ReplicaEvent) : r.visits id events = [] := by
  induction events generalizing r with
  | nil => rfl
  | cons event rest ih => simp [Replica.visits, h.goesOn event, ih (h.next event)]

theorem answers (h : r.Silent id) (events : List ReplicaEvent) : r.answers id events = [] := by
  induction events generalizing r with
  | nil => rfl
  | cons event rest ih => simp [Replica.answers, h.goesOn event, ih (h.next event)]

end Silent

/-! ## A request in line -/

section
variable {request : Http.Request} {draining : Bool}

/-- A task is among those of a kind if it is of that kind. -/
theorem Orderly.mem_idsOf_iff (h : r.Orderly) (ht : r.task? id = some t) {p : Task → Bool} :
    id ∈ r.idsOf p ↔ p t = true := by
  have hid : t.id = id := id_of_task? ht
  rw [mem_idsOf]
  refine ⟨?_, fun hp => ⟨t, List.mem_of_find?_eq_some ht, hp, hid⟩⟩
  rintro ⟨t', ht', hp, same⟩
  have hfound := h.mem_tasks_iff.mp ht'
  rw [same, ht] at hfound
  cases hfound
  exact hp

/-- A request does not stand at the gate, so a change of the gate does not bring it to the line. -/
theorem Orderly.mem_ready_setGate_iff (h : r.Orderly) (ht : r.task? id = some t)
    (duty : t.duty = .request request draining) (tasks : s.tasks = r.tasks)
    (held : gate.holds id = true → r.gate.holds id = true) :
    id ∈ (s.setGate gate).ready ↔ id ∈ s.ready := by
  refine ⟨fun hi => ?_, mem_ready_setGate_of_mem⟩
  rcases mem_ready_setGate hi with hi | hi | hi
  · exact hi
  · have hrecorder := (h.mem_idsOf_iff ht).mp (by rwa [idsOf, ← tasks])
    simp [isRecorder, duty] at hrecorder
  · have calls := (h.calling id (held (Gate.holds_iff.mpr (.inr hi)))).2 t
      (List.mem_of_find?_eq_some ht) (id_of_task? ht)
    rw [duty] at calls
    cases calls

theorem Shift.mem_ready_iff (shift : Shift r task s) (h : r.Orderly) (ht : r.task? id = some t)
    (duty : t.duty = .request request draining) (hne : task.id ≠ id) :
    id ∈ s.ready ↔ id ∈ r.ready := by
  cases shift with
  | idle => rfl
  | recorded store => rfl
  | dropped => exact h.mem_ready_setGate_iff ht duty rfl Gate.holds_of_drop
  | @polled calls gate answer polled =>
    refine h.mem_ready_setGate_iff ht duty rfl fun hi => ?_
    have hpoll : (r.gate.poll task.id (r.isCancelled task.name)).1.holds id = true := by
      rw [polled]
      exact hi
    exact (Gate.holds_of_poll hpoll).resolve_right hne.symm
  | started duty' route => exact h.mem_ready_setGate_iff ht duty rfl (Gate.holds_start.symm.trans ·)
  | stopped duty' route =>
    exact h.mem_ready_setGate_iff ht duty rfl (Gate.holds_finishAndStop.symm.trans ·)

theorem mem_ready_apply (h : r.Orderly) (ht : r.task? id = some t)
    (duty : t.duty = .request request draining) {command : ReplicaCommand}
    (unaborted : command ≠ .abort t.name) :
    id ∈ (r.apply command).1.ready ↔ id ∈ r.ready ∨ command = .shutdown ∧ draining = true := by
  have commanded := apply_commanded r command
  generalize (r.apply command).1 = last at commanded
  cases commanded with
  | same other same => simp [same.ready, other]
  | spawned other name duty =>
    have hlt := h.numbered t (List.mem_of_find?_eq_some ht)
    simp [spawn, other, id_of_task? ht ▸ Nat.ne_of_lt hlt]
  | aborted name =>
    have hname : t.name ≠ name := fun he => unaborted (he ▸ rfl)
    simp [abort, mem_ready_wake, h.mem_idsOf_iff ht, hname]
  | cancelled name => simp [cancel, mem_ready_wake, h.mem_idsOf_iff ht, heedsToken, duty]
  | interrupted => simp [mem_ready_wake, h.mem_idsOf_iff ht, isDraining, duty]
  | started => simp [h.mem_ready_setGate_iff ht duty rfl (Gate.holds_start.symm.trans ·)]
  | stopped => simp [h.mem_ready_setGate_iff ht duty rfl (Gate.holds_finishAndStop.symm.trans ·)]
  | released held =>
    have spared := h.mem_ready_setGate_iff (s := { r with holder := none }) ht duty rfl
      (Gate.holds_release.symm.trans ·)
    simp [spared]

theorem mem_ready_turn (h : r.Orderly) (ht : r.task? id = some t)
    (duty : t.duty = .request request draining) (hne : i ≠ id) :
    id ∈ (r.next (.turn i)).ready ↔ id ∈ r.ready := by
  have called : (r.called i).Orderly := h.of_same rfl rfl fun i hi => hi
  have stays : id ∈ (r.called i).ready ↔ id ∈ r.ready := by simp [Replica.called, hne.symm]
  rcases next_turn r i with same | same | ⟨task, htask, turned⟩
  · rw [same]
  · rw [same, stays]
  · have other : task.id ≠ id := id_of_task? htask ▸ hne
    generalize r.next (.turn i) = last at turned
    cases turned with
    | ended shift => exact (shift.mem_ready_iff called ht duty other).trans stays
    | waits shift same calls => exact (shift.mem_ready_iff called ht duty other).trans stays

/-- A request comes to the line only with the shutdown, while it waits for the processor to
stop, or once the instant has come that it waits for. -/
theorem mem_ready_next (h : r.Orderly) (ht : r.task? id = some t)
    (duty : t.duty = .request request draining) {event : ReplicaEvent}
    (other : event ≠ .turn id) (unaborted : event ≠ .command (.abort t.name)) :
    id ∈ (r.next event).ready ↔ id ∈ r.ready ∨ event = .command .shutdown ∧ draining = true ∨
      event = .ring ∧ isDue r.now t = true := by
  cases event with
  | command command =>
    have hcommand : command ≠ .abort t.name := fun he => unaborted (he ▸ rfl)
    simp [next, happen, mem_ready_apply h ht duty hcommand]
  | turn i =>
    have hne : i ≠ id := fun he => other (he ▸ rfl)
    simp [mem_ready_turn h ht duty hne]
  | tick span => simp [next, happen]
  | ring => simp [next, happen, mem_ready_wake, h.mem_idsOf_iff ht]

end

end Replica
end WorkQueue
