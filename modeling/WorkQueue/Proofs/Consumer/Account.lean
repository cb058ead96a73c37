import WorkQueue.Consumer.Account
import WorkQueue.Proofs.Consumer.Iteration

/-! # The accounts of deliveries

What an event reports of the accounts of deliveries is what it adds to the accounts of the journal.
So at any point of any run the reports are the accounts of the deliveries so far, one after the
other.
-/
namespace WorkQueue
variable {ι σ : Type} {setup : ConsumerSetup ι σ} {plan : FaultPlan}

/-! ## Accounts among notices -/

@[simp] theorem accounts_append (xs ys : List Notice) :
    accounts (xs ++ ys) = accounts xs ++ accounts ys := List.filter_append ..

@[simp] theorem accounts_changes (replica : String) (changes : List GateNotice) :
    accounts (changes.map (GateNotice.toNotice replica)) = [] := by
  refine List.filter_eq_nil_iff.mpr fun n hn => ?_
  obtain ⟨change, -, rfl⟩ := List.mem_map.mp hn
  cases change <;> simp [GateNotice.toNotice, Notice.isAccount]

@[simp] theorem accounts_reports (reports : List Report) :
    accounts (reports.map Report.toNotice) = [] := by
  refine List.filter_eq_nil_iff.mpr fun n hn => ?_
  obtain ⟨what, -, rfl⟩ := List.mem_map.mp hn
  cases what <;> simp [Report.toNotice, Notice.isAccount]

@[simp] theorem accounts_production {α : Type} [Payload α] (p : α) (delay : Duration)
    (answer : Except Failure Receipt) : accounts (Producer.notices p delay answer) = [] := by
  cases answer <;> rfl

/-! ## The account of a delivery, reported -/

theorem ConsumerSetup.registers_of_payloadOf? {item : WorkItem}
    (h : (setup.payloadOf? item).isSome = true) : setup.registers item.workItemType = true := by
  unfold payloadOf? at h
  unfold registers
  cases hr : setup.registry.resolve item.workItemType with
  | error failure =>
    rw [hr] at h
    cases h
  | ok registration => rfl

/-- What an attempt has to be measured by. -/
def AttemptProgress.measured (setup : ConsumerSetup ι σ) : AttemptProgress → List Notice
  | .ended (.dispatched item result) => setup.measured item result
  | _ => []

/-- What is left to report of an attempt once it has run. -/
def AttemptProgress.disposal (setup : ConsumerSetup ι σ) (attempt : Nat) :
    AttemptProgress → List Notice
  | .ended ending => ending.disposal setup.options.maxAttempts attempt
  | .suspended _ _ => []

namespace Consumer
variable {c : Consumer} {s : Surroundings σ} {d : Delivery}

@[simp] theorem finish_accounts (result : Except Failure IterationEnd) :
    accounts (c.finish setup s result).notices = [] := by
  cases result with
  | ok e =>
    cases e <;> simp only [finish, Turn.after, pause, accounts_append, accounts_changes] <;> rfl
  | error failure =>
    by_cases hc : failure.isCancellation = true <;>
      simp only [finish, hc, Turn.after, conclude, pause, accounts_append, accounts_changes] <;> rfl

@[simp] theorem acknowledge_accounts : accounts (c.acknowledge setup s d).notices = [] := by
  rw [acknowledge_eq]
  simp only [Turn.after, accounts_append, finish_accounts]
  rfl

@[simp] theorem failures_accounts (result : Except Failure Unit) :
    accounts (failures setup d result) = [] := by
  cases result <;> rfl

theorem close_accounts (ending : Ending) : accounts (c.close setup s d ending).notices =
    ending.disposal setup.options.maxAttempts d.attempt := by
  cases ending with
  | malformed failure =>
    simp only [close, Turn.after, accounts_append, acknowledge_accounts]
    rfl
  | dispatched item result =>
    simp only [close, judge, Ending.disposal]
    cases WorkQueue.verdict setup.options.maxAttempts d.attempt result with
    | acknowledge =>
      simp only [Turn.after, accounts_append, acknowledge_accounts]
      rfl
    | discard reason =>
      simp only [Turn.after, accounts_append, failures_accounts, acknowledge_accounts]
      rfl
    | leave =>
      simp only [Turn.after, accounts_append, failures_accounts, finish_accounts]
      rfl
    | abandon =>
      simp only [Turn.after, accounts_append, finish_accounts]
      rfl

theorem afterRun_accounts {item : WorkItem} {run : ActivityRun}
    (h : setup.registers item.workItemType = true) :
    accounts (afterRun s item run).notices = (afterRun s item run).progress.measured setup := by
  unfold afterRun
  cases run.progress with
  | ended result =>
    simp only [AttemptRun.after, accounts_append, accounts_reports, AttemptProgress.measured,
      ConsumerSetup.measured, h]
    rfl
  | suspended wait =>
    simp only [AttemptRun.after, accounts_append, accounts_reports]
    rfl

theorem resume_accounts {item : WorkItem} {wait : Suspension}
    (h : setup.registers item.workItemType = true) :
    accounts (c.resume s item wait).notices = (c.resume s item wait).progress.measured setup := by
  unfold resume
  split
  · simp only [AttemptProgress.measured, ConsumerSetup.measured, h]
    rfl
  · exact afterRun_accounts h

theorem follow_accounts (run : AttemptRun σ) : accounts (c.follow setup d run).notices =
    accounts run.notices ++ run.progress.disposal setup d.attempt := by
  cases he : run.progress with
  | suspended item wait =>
    rw [follow_suspended he]
    exact (List.append_nil _).symm
  | ended ending =>
    rw [follow_ended he]
    simp only [Turn.after, accounts_append, close_accounts]
    rfl

theorem attempt_accounts {item : WorkItem} (hp : WorkItem.parse d.body = .ok item) :
    accounts (c.attempt setup s d).notices =
      .attemptOpened item.workItemType item.id d.attempt ::
        (c.attempt setup s d).progress.measured setup := by
  simp only [attempt, hp, dispatch, AttemptRun.after, accounts_append]
  cases hr : setup.registry.resolve item.workItemType with
  | error failure =>
    have unserved : setup.registers item.workItemType = false := by
      rw [ConsumerSetup.registers, hr]
      rfl
    simp only [AttemptProgress.measured, ConsumerSetup.measured, unserved]
    rfl
  | ok registration =>
    have served : setup.registers item.workItemType = true := by
      rw [ConsumerSetup.registers, hr]
      rfl
    simp only [accounts_append, afterRun_accounts served]
    rfl

/-- What has been reported of a delivery once its attempt has run and its message is disposed of is
the account of its entry. -/
theorem account_of_parsed {item : WorkItem} {progress : AttemptProgress}
    {deletes : List (Int × Except Failure Unit)} (hp : WorkItem.parse d.body = .ok item)
    (of : progress.Of setup d.body) :
    Entry.account setup ⟨d, progress.ending?, deletes⟩ =
      .attemptOpened item.workItemType item.id d.attempt ::
        (progress.measured setup ++ progress.disposal setup d.attempt) := by
  unfold Entry.account
  dsimp only
  rw [hp]
  cases progress with
  | suspended item wait => rfl
  | ended ending =>
    cases ending with
    | malformed failure => exact nomatch hp.symm.trans of
    | dispatched item' result => rfl

theorem attempt_account {deletes : List (Int × Except Failure Unit)} :
    accounts (c.attempt setup s d).notices ++
        (c.attempt setup s d).progress.disposal setup d.attempt =
      Entry.account setup ⟨d, (c.attempt setup s d).progress.ending?, deletes⟩ := by
  cases hp : WorkItem.parse d.body with
  | ok item =>
    rw [account_of_parsed hp (attempt_of setup c s d), attempt_accounts hp]
    rfl
  | error failure =>
    unfold Entry.account
    simp only [attempt, hp]
    rfl

theorem resume_account {item : WorkItem} {wait : Suspension}
    {deletes : List (Int × Except Failure Unit)} (hp : WorkItem.parse d.body = .ok item)
    (served : (setup.payloadOf? item).isSome = true) :
    Entry.account setup { delivery := d } ++ (accounts (c.resume s item wait).notices ++
        (c.resume s item wait).progress.disposal setup d.attempt) =
      Entry.account setup ⟨d, (c.resume s item wait).progress.ending?, deletes⟩ := by
  have registered := ConsumerSetup.registers_of_payloadOf? served
  rw [account_of_parsed hp (resume_of hp served), resume_accounts registered]
  unfold Entry.account
  dsimp only
  rw [hp]
  rfl

end Consumer

/-- The accounts of the deliveries of a journal, the earliest first. -/
def Journal.account (setup : ConsumerSetup ι σ) (j : Journal) : List Notice :=
  j.entries.reverse.flatMap (Entry.account setup)

namespace Journal
variable {j : Journal} {entry : Entry} {older : List Entry} {notices : List Notice}

theorem account_of_latest (setup : ConsumerSetup ι σ) (h : j.entries = entry :: older) :
    j.account setup = older.reverse.flatMap (Entry.account setup) ++ entry.account setup := by
  simp only [account, h, List.reverse_cons, List.flatMap_append, List.flatMap_singleton]

theorem account_of_silent (setup : ConsumerSetup ι σ) (j : Journal)
    (calls : queueCalls notices = []) (silent : accounts notices = []) :
    ((notices.foldl note j).close none).account setup = j.account setup ++ accounts notices := by
  rw [foldl_note_of_nil calls, silent, List.append_nil]
  rfl

end Journal

namespace Consumer
variable {c : Consumer} {s : Surroundings σ} {d : Delivery} {j : Journal}

theorem receive_account {ready : Instant} (at_ : c.stage = .receiving ready)
    (token : c.cancelled = false) (due : ready ≤ s.now.running) :
    (((c.receive setup s).notices.foldl Journal.note j).close (c.ending? setup s)).account setup =
      j.account setup ++ accounts (c.receive setup s).notices := by
  simp only [ending?, at_, token, due, ↓reduceIte, receive, Bool.false_eq_true]
  cases hr : s.queue.receive s.now setup.options.queue setup.options.invisibility with
  | mk queue answer =>
    cases answer with
    | error failure =>
      have hcalls :
          queueCalls (c.finish setup { s with queue := queue } (.error failure)).notices = [] :=
        finish_queueCalls _
      have hidle := Journal.account_of_silent setup j hcalls (finish_accounts _)
      exact hidle
    | ok found =>
      cases found with
      | none =>
        have hcalls :
            queueCalls (c.finish setup { s with queue := queue } (.ok .queueEmpty)).notices = [] :=
          finish_queueCalls _
        have hidle := Journal.account_of_silent setup j hcalls (finish_accounts _)
        exact hidle
      | some d =>
        have hcalls := (attempt_frame setup c { s with queue := queue } d).2.2
        have latest : (j.note (.received (.ok (some d)))).entries =
            { delivery := d } :: j.entries := rfl
        obtain ⟨deletes, -, hentries⟩ := follow_followed setup c hcalls latest
        have haccount := Journal.account_of_latest setup hentries
        rw [← attempt_account, ← follow_accounts] at haccount
        exact haccount

/-- A step reports of the accounts of deliveries what it adds to those of the journal. -/
theorem step_account (serves : c.stage.Serves setup)
    (entered : Custody.Entered setup j.entries c.stage.inHand?) :
    (((c.step setup s).notices.foldl Journal.note j).close (c.ending? setup s)).account setup =
      j.account setup ++ accounts (c.step setup s).notices := by
  refine step_induction setup c s fun t hcourse => ?_
  cases hcourse with
  | ended at_ =>
    simp only [ending?, at_]
    exact Journal.account_of_silent setup j rfl rfl
  | waiting at_ polled =>
    simp only [ending?, at_]
    exact Journal.account_of_silent setup j rfl rfl
  | refused at_ polled =>
    simp only [ending?, at_]
    exact Journal.account_of_silent setup j rfl rfl
  | granted at_ polled =>
    simp only [ending?, at_, beginReceive]
    split <;> exact Journal.account_of_silent setup j rfl rfl
  | interrupted at_ token =>
    simp only [ending?, at_, token, ↓reduceIte]
    exact Journal.account_of_silent setup j (finish_queueCalls _) (finish_accounts _)
  | receiving at_ token early =>
    simp only [ending?, at_, token, Nat.not_le_of_lt early, ↓reduceIte, Bool.false_eq_true]
    exact Journal.account_of_silent setup j rfl rfl
  | received at_ token due => exact receive_account at_ token due
  | @handled d item wait at_ =>
    rw [at_] at serves entered
    obtain ⟨older, latest, -⟩ := entered
    obtain ⟨deletes, -, hentries⟩ :=
      follow_followed setup c (resume_queueCalls c s item wait) latest
    have haccount := Journal.account_of_latest setup hentries
    rw [← resume_account serves.1 serves.2, ← follow_accounts, ← List.append_assoc,
      ← Journal.account_of_latest setup latest] at haccount
    simp only [ending?, at_]
    exact haccount
  | left at_ token =>
    simp only [ending?, at_]
    exact Journal.account_of_silent setup j rfl rfl
  | pausing at_ token early =>
    simp only [ending?, at_]
    exact Journal.account_of_silent setup j rfl rfl
  | awakened at_ token due =>
    simp only [ending?, at_]
    exact Journal.account_of_silent setup j rfl rfl

end Consumer

/-! ## Runs -/

/-- Only a step of the consumer reports of the account of a delivery. -/
theorem Site.happen_accounts (setup : ConsumerSetup ι σ) (site : Site σ) {event : Event}
    (h : event ≠ .step) : accounts (site.happen setup event).2.2 = [] := by
  cases event with
  | step => exact absurd rfl h
  | command command =>
    cases command with
    | start => exact accounts_changes _ _
    | stop => exact accounts_changes _ _
    | produce payload delay => exact accounts_production _ _ _
    | _ => rfl
  | tick span => rfl
  | foreign call => rfl

namespace Chronicle
variable {r : Chronicle σ}

theorem next_account (h : r.Standing setup plan) (booked : r.custody.Booked setup) (event : Event) :
    (r.next setup event).journal.account setup =
      r.journal.account setup ++ accounts (r.site.happen setup event).2.2 := by
  by_cases he : event = .step
  · subst he
    exact Consumer.step_account h.serves booked.entered
  · rw [Journal.account, next_entries he, r.site.happen_accounts setup he, List.append_nil]
    rfl

theorem Standing.booked_next (h : r.Standing setup plan) (booked : r.custody.Booked setup)
    (event : Event) : (r.next setup event).custody.Booked setup := by
  have hrun : (r.run setup [event]).custody.Booked setup :=
    h.run_invariant _ booked fun _ _ _ _ hk he => hk.effect he
  exact hrun

theorem Standing.run_booked (h : r.Standing setup plan) (booked : r.custody.Booked setup)
    (events : List Event) :
    (r.run setup events).Standing setup plan ∧ (r.run setup events).custody.Booked setup := by
  induction events generalizing r with
  | nil => exact ⟨h, booked⟩
  | cons event rest ih => exact ih (h.next event).1 (h.booked_next booked event)

/-- What a run reports of the accounts of deliveries is what it adds to those of the journal. -/
theorem run_account (h : r.Standing setup plan) (booked : r.custody.Booked setup)
    (events : List Event) : (r.run setup events).journal.account setup =
      r.journal.account setup ++ accounts (r.reported setup events) := by
  induction events generalizing r with
  | nil => exact (List.append_nil _).symm
  | cons event rest ih =>
    have hrest := ih (h.next event).1 (h.booked_next booked event)
    rw [next_account h booked, List.append_assoc, ← accounts_append] at hrest
    exact hrest

end Chronicle
end WorkQueue
