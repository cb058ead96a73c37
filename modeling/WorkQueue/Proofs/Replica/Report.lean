import WorkQueue.ControlClient
import WorkQueue.Proofs.Json.Document
import WorkQueue.Proofs.Replica.Course
import WorkQueue.Proofs.Text.ByteOrder

/-! # What a replica reports of all replicas

The store holds the last write it has accepted for every name. A report puts the live state of
the replica that makes it over that, in ascending order of the names, and whoever reads the text of
the report finds the same states under the same names.
-/
namespace WorkQueue

namespace Replica
variable {r s last : Replica} {task : Task} {told more : List Occurrence}

/-! ## The writes of an event -/

/-- Whether a store holds what it held before and the writes that it accepted meanwhile. -/
def Keeps (r last : Replica) (told : List Occurrence) : Prop :=
  last.store.recorded = (told.filterMap Occurrence.accepted?).foldl
    (fun states w => NameMap.insert w.1 w.2 states) r.store.recorded

namespace Keeps

theorem silent (recorded : last.store.recorded = r.store.recorded)
    (silent : told.filterMap Occurrence.accepted? = []) : r.Keeps last told := by
  simp only [Keeps, recorded, silent, List.foldl_nil]

theorem append (h : r.Keeps s told) (recorded : last.store.recorded = s.store.recorded)
    (silent : more.filterMap Occurrence.accepted? = []) : r.Keeps last (told ++ more) := by
  rwa [Keeps, List.filterMap_append, silent, List.append_nil, recorded]

theorem operate (r : Replica) (change : Gate Nat × List GateNotice) :
    r.Keeps (r.operate change).1 (r.operate change).2 := by
  refine .silent rfl ?_
  unfold Replica.operate
  rw [List.filterMap_map]
  exact List.filterMap_eq_nil_iff.mpr fun _ _ => rfl

theorem write (r : Replica) (replica : String) (state : ProcessorState) :
    r.Keeps (r.write replica state).1 (r.write replica state).2.2 := by
  unfold Replica.write StateStore.record
  cases r.store.rejectsWrites <;> rfl

theorem recordState (r : Replica) (state : ProcessorState) :
    r.Keeps (r.recordState state).1 (r.recordState state).2 :=
  (Keeps.write r r.name state).append rfl rfl

theorem runBegin (r : Replica) (task : Task) :
    r.Keeps (r.runBegin task).1 (r.runBegin task).2 := by
  unfold Replica.runBegin
  dsimp only
  split <;> exact .silent rfl rfl

theorem runAwait (r : Replica) (task : Task) (every : Duration) :
    r.Keeps (r.runAwait task every).1 (r.runAwait task every).2 := by
  unfold Replica.runAwait
  split <;> exact .silent rfl rfl

theorem runRecorder (r : Replica) (task : Task) (recorder : Recorder) :
    r.Keeps (r.runRecorder task recorder).1 (r.runRecorder task recorder).2 := by
  unfold Replica.runRecorder
  dsimp only
  split
  · exact .silent rfl rfl
  · split
    · exact (Keeps.recordState r _).append rfl rfl
    · exact Keeps.recordState r _
  · exact .silent rfl rfl

theorem runDrain (h : r.Keeps s told) (task : Task) (request : Http.Request)
    (deadline : Option Instant) : r.Keeps (s.runDrain task request deadline).1
      (told ++ (s.runDrain task request deadline).2) := by
  unfold Replica.runDrain
  split <;> exact h.append rfl rfl

theorem runRequest (r : Replica) (task : Task) (request : Http.Request) :
    r.Keeps (r.runRequest task request).1 (r.runRequest task request).2 := by
  unfold Replica.runRequest
  split
  · exact .silent rfl rfl
  · exact .silent rfl rfl
  · split <;> exact .silent rfl rfl
  · exact (Keeps.operate r r.gate.start).append rfl rfl
  · have stopped := Keeps.operate r r.gate.finishAndStop
    refine (stopped.append rfl ?_).runDrain task request none
    split <;> rfl

theorem runTask (r : Replica) (task : Task) :
    r.Keeps (r.runTask task).1 (r.runTask task).2 := by
  unfold Replica.runTask
  split
  · exact .silent rfl rfl
  · split
    · exact Keeps.runBegin r task
    · exact Keeps.runAwait r task _
    · exact Keeps.runRecorder r task _
    · next request _ =>
      have unchanged : r.Keeps r [] := .silent rfl rfl
      exact unchanged.runDrain task request _
    · exact Keeps.runRequest r task _

theorem apply (r : Replica) (command : ReplicaCommand) :
    r.Keeps (r.apply command).1 (r.apply command).2.2 := by
  cases command with
  | start => exact Keeps.operate r r.gate.start
  | stop => exact Keeps.operate r r.gate.finishAndStop
  | release name =>
    simp only [Replica.apply, release]
    split
    · exact Keeps.operate { r with holder := none } r.gate.release
    · exact .silent rfl rfl
  | look name =>
    simp only [Replica.apply, look]
    cases r.watchers.get? name <;> exact .silent rfl rfl
  | setState replica state =>
    have written := Keeps.write r replica state
    simp only [Replica.apply]
    generalize r.write replica state = outcome at written
    obtain ⟨last, answer, told⟩ := outcome
    cases answer <;> exact written
  | readStates =>
    simp only [Replica.apply]
    cases r.store.states <;> exact .silent rfl rfl
  | request name method path =>
    simp only [Replica.apply]
    cases Http.Request.make? method path <;> exact .silent rfl rfl
  | _ => exact .silent rfl rfl

/-- An event puts into the store the writes that the store accepts in it, and nothing else. -/
theorem happen (r : Replica) (event : ReplicaEvent) :
    r.Keeps (r.happen event).1 (r.happen event).2 := by
  cases event with
  | command command => exact Keeps.apply r command
  | turn id =>
    simp only [Replica.happen, turn]
    split
    · cases r.task? id with
      | none => exact .silent rfl rfl
      | some task => exact Keeps.runTask (r.called id) task
    · exact .silent rfl rfl
  | tick span => exact .silent rfl rfl
  | ring => exact .silent rfl rfl

end Keeps

/-- A call that writes is told whether the store has accepted the write, and it accepts any that it
does not reject. -/
theorem setState_accepted (r : Replica) (replica : String) (state : ProcessorState) :
    (r.apply (.setState replica state)).2.1 =
        (if r.store.rejectsWrites then .failed r.store.writeFault else .done) ∧
      r.accepted [.command (.setState replica state)] =
        if r.store.rejectsWrites then [] else [(replica, state)] := by
  simp only [accepted, happen, Replica.apply, write, StateStore.record]
  cases r.store.rejectsWrites <;> exact ⟨rfl, rfl⟩

/-- On a course the store takes the accepted writes one after the other. -/
theorem recorded_after (r : Replica) (events : List ReplicaEvent) :
    (r.after events).store.recorded = (r.accepted events).foldl
      (fun states w => NameMap.insert w.1 w.2 states) r.store.recorded := by
  induction events generalizing r with
  | nil => rfl
  | cons event rest ih =>
    rw [accepted, List.foldl_append, ← Keeps.happen r event]
    exact ih (r.next event)

end Replica

/-! ## The text of a report -/

namespace ReplicaStates
open Json

theorem read_toJson (state : ProcessorState) (rest : List Char) :
    ProcessorState.read (state.toJson.chars ++ rest) = .ok (state, rest) := by
  have hquote : isSpace '"' = false := rfl
  have chars : state.toJson.chars ++ rest =
      '"' :: (state.name.toList.flatMap escapeChar ++ '"' :: rest) := by
    simp [ProcessorState.toJson, Value.chars, stringChars]
  have known : ProcessorState.ofVariant state.name = .ok state := by
    rw [ProcessorState.ofVariant, ProcessorState.ofName?_name]
  simp only [chars, ProcessorState.read, readVariant, readText, skipSpace_cons hquote, ↓reduceIte,
    readString_stringChars, known]

/-- The fields that a report is written in. -/
def fields (states : ReplicaStates) : List (String × Value) := states.map fun e => (e.1, e.2.toJson)

theorem length_le_fieldsChars (states : ReplicaStates) :
    states.length ≤ (fieldsChars (fields states)).length := by
  induction states with
  | nil => exact Nat.zero_le _
  | cons entry rest ih =>
    have later := length_fieldsFrom (fields rest)
    rw [fields, List.map_cons, fieldsChars_cons]
    simp only [afterQuote, List.length_cons, List.length_append]
    rw [fields] at later ih
    omega

theorem readBindings_fields (states : ReplicaStates) (first : Bool) (fuel : Nat) (rest : List Char)
    (enough : states.length < fuel) :
    readBindings ProcessorState.read fuel first
      (fieldsFrom first (fields states) ++ '\x7d' :: rest) = .ok (states, rest) := by
  induction states generalizing first fuel with
  | nil =>
    cases fuel with
    | zero => exact absurd enough (Nat.lt_irrefl 0)
    | succ fuel =>
      have next := nextField_nil first rest
      simp only [readBindings, fields, List.map_nil, next]
  | cons entry states ih =>
    obtain ⟨name, state⟩ := entry
    cases fuel with
    | zero => exact absurd enough (Nat.not_lt_zero _)
    | succ fuel =>
      have next := nextField_cons first name state.toJson (fields states) ('\x7d' :: rest)
      have later := ih false fuel (Nat.lt_of_succ_lt_succ enough)
      have start : fields ((name, state) :: states) = (name, state.toJson) :: fields states := rfl
      simp only [start, readBindings, next, readName_afterQuote, read_toJson, later, Except.map]

/-- A client reads a report as the states that the replica has written into it. -/
theorem report_render {states : ReplicaStates} (ascending : NameMap.Ascending states) :
    ControlClient.report states.toJson.render = .ok states := by
  have hbrace : isSpace '\x7b' = false := rfl
  have chars : states.toJson.chars = '\x7b' :: (fieldsFrom true (fields states) ++ ['\x7d']) := by
    simp [ReplicaStates.toJson, Value.chars, fieldsFrom, fields]
  have bindings := readBindings_fields states true
    ((fieldsFrom true (fields states) ++ ['\x7d']).length + 1) [] (by
      have short := length_le_fieldsChars states
      simp only [fieldsFrom, List.length_append, List.length_singleton]
      omega)
  have map : ReplicaStates.read states.toJson.chars = .ok (states, []) := by
    simp only [ReplicaStates.read, chars, readMap, skipSpace_cons hbrace, bindings, Except.map,
      NameMap.ofBindings_of_ascending ascending]
  simp only [ControlClient.report, parseAs, Value.render, String.toList_ofList, map]
  rfl

theorem call_eq_report {send : ControlRequest → ControlReply} {base phrase body : String}
    {call : ControlCall} {sent : ControlRequest} {states : ReplicaStates}
    (asked : ControlClient.request base call = .ok sent)
    (replied : send sent = .answered 200 phrase body)
    (read : ControlClient.report body = .ok states) :
    ControlClient.call send base call = .ok states := by
  have heard : ControlClient.interpret sent (send sent) = .ok states := by
    rw [replied]
    exact read
  simp only [ControlClient.call, asked, bind, Except.bind, heard]
  rfl

end ReplicaStates

/-! ## Status requests -/

namespace Replica
variable {r r₀ : Replica} {id : Nat} {caller : String} {request : Http.Request}

/-- How a status request is answered. -/
def statusResponse (r : Replica) : Http.Response :=
  match r.store.report r.name r.gate.state with
  | .ok states => .json 200 states.toJson
  | .error failure => .error 500 failure.message

theorem Receives.status (received : r.Receives id caller request) (method : request.method = "GET")
    (route : request.route = .ok .status) :
    (r.turn id).2 = [.responded caller r.statusResponse] := by
  have shown (response : Http.Response) : request.shown response = response := by
    rw [Http.Request.shown, method]
    rfl
  have same : (r.called id).store.report (r.called id).name (r.called id).gate.state =
    r.store.report r.name r.gate.state := rfl
  simp only [turn, received.inLine, ↓reduceIte, received.made, runTask, Bool.false_eq_true,
    runRequest, route, same, statusResponse]
  cases r.store.report r.name r.gate.state <;> simp only [respond, shown]

/-- A report of a replica: one entry for each name of which a write was accepted and one for the
replica itself, which has its live state. -/
structure Reports (live : String × ProcessorState) (written : List (String × ProcessorState))
    (states : ReplicaStates) : Prop where
  ascending : states.Pairwise fun a b => Text.bytes a.1 < Text.bytes b.1
  names : ∀ name, name ∈ states.map Prod.fst ↔ name = live.1 ∨ name ∈ written.map Prod.fst
  own : NameMap.get? states live.1 = some live.2
  others : ∀ name, name ≠ live.1 → NameMap.get? states name = NameMap.last? written name

theorem reports_insert (name : String) (live : ProcessorState)
    (written : List (String × ProcessorState)) :
    Reports (name, live) written (NameMap.insert name live (NameMap.ofBindings written)) where
  ascending := (NameMap.ascending_iff_pairwise.mp (NameMap.ascending_ofBindings written).insert).imp
    fun below => (Text.lt_iff_bytes_lt _ _).mp below
  names other := by
    have reversed : other ∈ written.map Prod.fst ↔ NameMap.last? written other ≠ none := by
      rw [NameMap.last?, ← NameMap.mem_names_iff, List.map_reverse, List.mem_reverse]
    rw [NameMap.mem_names_iff, NameMap.get?_insert, NameMap.get?_ofBindings_eq_last?, reversed]
    by_cases own : other = name <;> simp [own]
  own := by rw [NameMap.get?_insert, if_pos rfl]
  others other own := by
    rw [NameMap.get?_insert, if_neg own, NameMap.get?_ofBindings_eq_last?]

/-- Whatever has happened at a replica, whose store began empty, the store holds of every name the
last write that it accepted, which is any that it did not reject, and a status request is answered
once. If the store can be read, the answer reports these writes with the live state of the replica
over them, and a client that gets it for its call has the same states under the same names; if it
cannot be read, the answer tells why and nothing else. -/
theorem status_overlays_store (empty : r₀.store.recorded = []) (events : List ReplicaEvent)
    (received : (r₀.after events).Receives id caller request) (method : request.method = "GET")
    (route : request.route = .ok .status) :
    let r := r₀.after events
    let written := r₀.accepted events
    r.store.recorded = NameMap.ofBindings written ∧
    (∀ replica state,
      (r.apply (.setState replica state)).2.1 =
          (if r.store.rejectsWrites then .failed r.store.writeFault else .done) ∧
        r.accepted [.command (.setState replica state)] =
          if r.store.rejectsWrites then [] else [(replica, state)]) ∧
    ∃ response, (r.turn id).2 = [.responded caller response] ∧
      (r.store.rejectsReads = true → response = .error 500 r.store.readFault.message) ∧
      (r.store.rejectsReads = false → ∃ states : ReplicaStates,
        response = .json 200 states.toJson ∧ Reports (r₀.name, r.gate.state) written states ∧
        ∀ send base sent phrase, ControlClient.request base .status = .ok sent →
          send sent = .answered 200 phrase response.body →
          ControlClient.call send base .status = .ok states) := by
  intro r written
  have recorded : r.store.recorded = NameMap.ofBindings written := by
    rw [NameMap.ofBindings, ← empty]
    exact recorded_after r₀ events
  refine ⟨recorded, r.setState_accepted, _, received.status method route, fun broken => ?_,
    fun readable => ?_⟩
  · simp only [statusResponse, StateStore.report, StateStore.states, broken, ↓reduceIte, Except.map,
      r]
  · have name : r.name = r₀.name := (fixed_after r₀ events).1
    have reported : r.store.report r.name r.gate.state =
        .ok (NameMap.insert r₀.name r.gate.state (NameMap.ofBindings written)) := by
      simp only [StateStore.report, StateStore.states, readable, Bool.false_eq_true, ↓reduceIte,
        Except.map, recorded, name]
    have reports := reports_insert r₀.name r.gate.state written
    have answer : r.statusResponse =
        .json 200 (ReplicaStates.toJson (NameMap.insert r₀.name r.gate.state
          (NameMap.ofBindings written))) := by
      simp only [statusResponse, reported]
    refine ⟨_, answer, reports, fun send base sent phrase asked replied => ?_⟩
    rw [answer] at replied
    exact ReplicaStates.call_eq_report asked replied
      (ReplicaStates.report_render (NameMap.ascending_ofBindings written).insert)

def statusRequest : Http.Request := ⟨"GET", none, "", "/processor/status"⟩

/-- A replica whose name has to be escaped reports that it has stopped, though the store still says
that it works. The write that the store rejected is not reported. -/
theorem status_overlays_store_of_stale :
    let started := start "b\"\n" true (.ofMillis 10)
    let events : List ReplicaEvent := [.command (.rejectStore true false),
      .command (.setState "z" .working), .command (.rejectStore false false),
      .command (.setState "b\"\n" .working), .command (.setState "é" .working),
      .command (.setState "é" .stopping), .command .stop,
      .command (.request "ops" "GET" "/processor/status")]
    let r := started.after events
    started.store.recorded = [] ∧ r.Receives 0 "ops" statusRequest ∧
      statusRequest.method = "GET" ∧ statusRequest.route = .ok .status ∧
      ∃ states, (r.turn 0).2 = [.responded "ops" (.json 200 (ReplicaStates.toJson states))] ∧
        Reports ("b\"\n", .stopped)
          [("b\"\n", .working), ("é", .working), ("é", .stopping)] states := by
  intro started events r
  have received : r.Receives 0 "ops" statusRequest := ⟨by decide +kernel, by decide +kernel⟩
  have written : started.accepted events =
      [("b\"\n", .working), ("é", .working), ("é", .stopping)] := by decide +kernel
  have live : r.gate.state = .stopped := by decide +kernel
  obtain ⟨-, -, response, answered, -, reported⟩ :=
    status_overlays_store rfl events received rfl rfl
  obtain ⟨states, shown, reports, -⟩ := reported (by decide +kernel)
  have reports : Reports (started.name, r.gate.state) (started.accepted events) states := reports
  rw [written, live] at reports
  exact ⟨rfl, received, rfl, rfl, states, shown ▸ answered, reports⟩

end Replica
end WorkQueue
