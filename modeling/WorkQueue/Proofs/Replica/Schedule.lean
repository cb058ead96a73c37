import WorkQueue.Proofs.Replica.Course

/-! # A timeline is a course

A timeline carries out commands, lets tasks take their turns and moves the clock, nothing else, and
so whatever holds after every course holds at each point of every timeline.
-/
namespace WorkQueue

def ReplicaEvent.command? : ReplicaEvent → Option ReplicaCommand
  | .command c => some c
  | _ => none

namespace Replica

/-- The replica after events that carry out the given commands. -/
def Reaches (commands : List ReplicaCommand) (a b : Replica) : Prop :=
  ∃ events : List ReplicaEvent, events.filterMap ReplicaEvent.command? = commands ∧
    a.after events = b

variable {a b c : Replica}

theorem Reaches.refl : Reaches [] a a := ⟨[], rfl, rfl⟩

theorem Reaches.trans {first second : List ReplicaCommand} (hab : Reaches first a b)
    (hbc : Reaches second b c) : Reaches (first ++ second) a c := by
  obtain ⟨before, rfl, rfl⟩ := hab
  obtain ⟨later, rfl, rfl⟩ := hbc
  exact ⟨before ++ later, List.filterMap_append .., List.foldl_append ..⟩

theorem Reaches.command (command : ReplicaCommand) :
    Reaches [command] a (a.apply command).1 := ⟨[.command command], rfl, rfl⟩

theorem Reaches.step : Reaches [] a a.step.1 := by
  unfold Replica.step
  split
  · exact .refl
  · next id _ _ => exact ⟨[.turn id], rfl, rfl⟩

theorem Reaches.ring : Reaches [] a (a.wake (a.idsOf (isDue a.now))) := ⟨[.ring], rfl, rfl⟩

theorem Reaches.moveClock {target : Instant} (later : a.now ≤ target) :
    Reaches [] a { a with now := target } := by
  refine ⟨[.tick (target - a.now)], rfl, ?_⟩
  simp [after, next, happen, Nat.add_sub_cancel' later]

theorem reaches_runFor (fuel : Nat) : Reaches [] a (a.runFor fuel).1 := by
  induction fuel generalizing a with
  | zero => exact .refl
  | succ fuel ih =>
    unfold runFor
    split
    · exact .refl
    · exact Reaches.step.trans ih

theorem reaches_run (a : Replica) : Reaches [] a a.run.1 := reaches_runFor _

theorem reaches_settle (a : Replica) : Reaches [] a a.settle.1 :=
  ((reaches_run a).trans .ring).trans (reaches_run _)

theorem now_runFor (fuel : Nat) : (a.runFor fuel).1.now = a.now := by
  induction fuel generalizing a with
  | zero => rfl
  | succ fuel ih =>
    unfold runFor
    split
    · rfl
    · refine ih.trans ?_
      unfold Replica.step
      split
      · rfl
      · next id _ _ =>
        have turned : (a.next (.turn id)).now = a.now := now_next (by simp)
        exact turned

theorem now_run (a : Replica) : a.run.1.now = a.now := now_runFor _

theorem now_settle (a : Replica) : a.settle.1.now = a.now :=
  (now_run _).trans (now_run a)

theorem reaches_advanceTo {target : Instant} (fuel : Nat) (ahead : a.now ≤ target) :
    Reaches [] a (a.advanceTo target fuel).1 := by
  have last : ∀ {b : Replica}, b.now ≤ target →
      Reaches [] b ({ b with now := target } : Replica).settle.1 :=
    fun ahead => (Reaches.moveClock ahead).trans (reaches_settle _)
  induction fuel generalizing a with
  | zero => exact last ahead
  | succ fuel ih =>
    unfold advanceTo
    split
    · next deadline hd =>
      split
      · next due =>
        have later : a.now ≤ deadline := by
          have hm := List.min?_mem hd
          exact Nat.le_of_lt (by simpa using (List.mem_filter.mp hm).2)
        refine ((Reaches.moveClock later).trans (reaches_settle _)).trans (ih ?_)
        rw [now_settle]
        exact due
      · exact last ahead
    · exact last ahead

theorem reaches_advance (a : Replica) (span : Duration) : Reaches [] a (a.advance span).1 := by
  unfold advance
  exact reaches_advanceTo _ (Nat.le_add_right _ _)

theorem reaches_perform (a : Replica) (command : ReplicaCommand) :
    Reaches [command] a (a.perform command).1 := by
  have applied : Reaches [command] a (a.apply command).1 := .command command
  unfold perform
  generalize a.apply command = result at applied ⊢
  obtain ⟨next, reply, notices⟩ := result
  dsimp only
  have moved : ∀ span, Reaches [] next (next.advance span).1 := reaches_advance next
  -- Nothing below is to evaluate an advance, whose span in nanoseconds is large.
  generalize next.advance = advance at moved ⊢
  cases command with
  | advance span => exact applied.trans (moved span)
  | _ => exact applied

theorem reaches_performAll (a : Replica) (commands : List ReplicaCommand) :
    Reaches commands a (a.performAll commands).1 := by
  induction commands generalizing a with
  | nil => exact .refl
  | cons command rest ih => exact (reaches_perform a command).trans (ih _)

theorem reaches_execute (a : Replica) (commands : List ReplicaCommand) :
    Reaches commands a (a.execute commands).1 := by
  have performed := (reaches_performAll a commands).trans (reaches_settle _)
  rwa [List.append_nil] at performed

/-- Every replica of a timeline is reached by a course that carries out the same commands. -/
theorem timeline_eq_after (name : String) (workOnStartup : Bool) (interval : Duration)
    (batches : List (List ReplicaCommand)) :
    ∃ events : List ReplicaEvent, events.filterMap ReplicaEvent.command? = batches.flatten ∧
      batches.foldl (fun r commands => (r.execute commands).1) (start name workOnStartup interval) =
        (start name workOnStartup interval).after events := by
  have reached : ∀ a : Replica, Reaches batches.flatten a
      (batches.foldl (fun r commands => (r.execute commands).1) a) := by
    induction batches with
    | nil => exact fun _ => .refl
    | cons commands rest ih => exact fun a => (reaches_execute a commands).trans (ih _)
  obtain ⟨events, commands, last⟩ := reached (start name workOnStartup interval)
  exact ⟨events, commands, last.symm⟩

end Replica
end WorkQueue
