import WorkQueue.Consumer.Journal

/-! # A timeline is a run

What drives a consumer from outside takes steps and moves the clock, nothing else, and so whatever
holds after every run holds at each point of every timeline.
-/
namespace WorkQueue
variable {ι σ : Type} {setup : ConsumerSetup ι σ}

def Event.command? : Event → Option Command
  | .command c => some c
  | _ => none

namespace Site

/-- The site after events that carry out the given commands and call nothing from elsewhere. -/
def Reaches (setup : ConsumerSetup ι σ) (commands : List Command) (a b : Site σ) : Prop :=
  ∃ events : List Event, (∀ call, .foreign call ∉ events) ∧
    events.filterMap Event.command? = commands ∧
    events.foldl (fun site event => (site.happen setup event).1) a = b

variable {a b c : Site σ}

theorem Reaches.refl : Reaches setup [] a a := ⟨[], by simp, rfl, rfl⟩

theorem Reaches.trans {first second : List Command} (hab : Reaches setup first a b)
    (hbc : Reaches setup second b c) : Reaches setup (first ++ second) a c := by
  obtain ⟨before, hb, rfl, rfl⟩ := hab
  obtain ⟨after, ha, rfl, rfl⟩ := hbc
  refine ⟨before ++ after, fun call hm => ?_, List.filterMap_append .., List.foldl_append ..⟩
  rcases List.mem_append.mp hm with hm | hm
  · exact hb call hm
  · exact ha call hm

theorem Reaches.step : Reaches setup [] a (a.step setup).1 :=
  ⟨[.step], by simp, rfl, rfl⟩

theorem Reaches.moveClock (target : Instant) : Reaches setup [] a (a.moveClock target) := by
  refine ⟨[.tick (target - a.now)], by simp, rfl, ?_⟩
  simp [happen, Site.moveClock, now]

theorem Reaches.apply (command : Command) :
    Reaches setup [command] a (a.apply setup command).1 :=
  ⟨[.command command], by simp, rfl, rfl⟩

theorem reaches_settleFor (fuel : Nat) : Reaches setup [] a (a.settleFor setup fuel).1 := by
  induction fuel generalizing a with
  | zero => exact .refl
  | succ fuel ih =>
    unfold settleFor
    split
    · exact Reaches.step.trans ih
    · exact .refl

theorem reaches_settle (setup : ConsumerSetup ι σ) (a : Site σ) :
    Reaches setup [] a (a.settle setup).1 := reaches_settleFor _

theorem reaches_advanceTo (target : Instant) (fuel : Nat) :
    Reaches setup [] a (a.advanceTo setup target fuel).1 := by
  have last : ∀ site : Site σ, Reaches setup [] site ((site.moveClock target).settle setup).1 :=
    fun site => (Reaches.moveClock target).trans (reaches_settle setup _)
  induction fuel generalizing a with
  | zero => exact last a
  | succ fuel ih =>
    unfold advanceTo
    split
    · next deadline hd =>
      split
      · exact ((Reaches.moveClock deadline).trans (reaches_settle setup _)).trans ih
      · exact last a
    · exact last a

theorem reaches_advance (setup : ConsumerSetup ι σ) (a : Site σ) (span : Duration) :
    Reaches setup [] a (a.advance setup span).1 := by
  unfold advance
  exact reaches_advanceTo _ _

theorem reaches_proceed (setup : ConsumerSetup ι σ) (a : Site σ) (command : Command) :
    Reaches setup [] a (a.proceed setup command).1 := by
  cases command with
  | advance span => exact reaches_advance setup a span
  | _ => exact reaches_settle setup a

theorem reaches_execute (command : Command) :
    Reaches setup [command] a (a.execute setup command).1 := by
  have applied : Reaches setup [command] a (a.apply setup command).1 := .apply command
  have followed := reaches_proceed setup (a.apply setup command).1 command
  exact applied.trans followed

theorem reaches_foldl_execute (commands : List Command) :
    Reaches setup commands a
      (commands.foldl (fun site command => (site.execute setup command).1) a) := by
  induction commands generalizing a with
  | nil => exact .refl
  | cons command rest ih => exact (reaches_execute command).trans ih

end Site

theorem Chronicle.run_site (r : Chronicle σ) (events : List Event) :
    (r.run setup events).site =
      events.foldl (fun site event => (site.happen setup event).1) r.site := by
  induction events generalizing r with
  | nil => rfl
  | cons event rest ih => exact ih (r.next setup event)

/-- Every site of a timeline is the site of a run that carries out the same commands and in which
no other client calls the store. -/
theorem Chronicle.timeline_eq_run (setup : ConsumerSetup ι σ) (workOnStartup createQueue : Bool)
    (plan : FaultPlan) (ofDay : Instant) (handlers : σ) (commands : List Command) :
    ∃ events : List Event, (∀ call, .foreign call ∉ events) ∧
      events.filterMap Event.command? = commands ∧
      commands.foldl (fun site command => (site.execute setup command).1)
          (Site.start setup workOnStartup createQueue plan ofDay handlers).1 =
        ((opening setup workOnStartup createQueue plan ofDay handlers).run setup events).site := by
  have settled : Site.Reaches setup []
      (Site.initial setup workOnStartup createQueue plan ofDay handlers)
      (Site.start setup workOnStartup createQueue plan ofDay handlers).1 :=
    Site.reaches_settle setup _
  obtain ⟨events, hforeign, hcommands, hsite⟩ :=
    settled.trans (Site.reaches_foldl_execute commands)
  exact ⟨events, hforeign, hcommands, by rw [← hsite, run_site]; rfl⟩

end WorkQueue
