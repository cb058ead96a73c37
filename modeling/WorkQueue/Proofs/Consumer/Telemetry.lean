import WorkQueue.Proofs.Consumer.Account

/-! # Telemetry accounts for every delivery

Spans and counters are views of what a run reports. Of each delivery they show its own account and
nothing else, so that their sums can be compared with one another.
-/
namespace WorkQueue
variable {ι σ : Type} {setup : ConsumerSetup ι σ} {plan : FaultPlan}

/-! ## The deliveries of a journal -/

namespace Journal

theorem deliveries_note (j : Journal) (n : Notice) :
    (j.note n).entries.map Entry.delivery =
      n.delivery?.toList ++ j.entries.map Entry.delivery := by
  cases n with
  | received answer => rcases answer with failure | _ | d <;> rfl
  | deleted id answer =>
    have none : (Notice.deleted id answer).delivery? = none := rfl
    rw [none, note]
    split
    · next d deletes older hentries => simp [hentries]
    · rfl
  | _ => rfl

theorem deliveries_close (j : Journal) (ending : Option Ending) :
    (j.close ending).entries.map Entry.delivery = j.entries.map Entry.delivery := by
  unfold close
  split
  · rfl
  · split
    · next d deletes older hentries => simp [hentries]
    · rfl

theorem deliveries_foldl_note (j : Journal) (notices : List Notice) :
    (notices.foldl note j).entries.map Entry.delivery =
      (notices.filterMap Notice.delivery?).reverse ++ j.entries.map Entry.delivery := by
  induction notices generalizing j with
  | nil => rfl
  | cons n rest ih =>
    rw [List.foldl_cons, ih, deliveries_note, List.filterMap_cons]
    cases n.delivery? <;> simp

end Journal

namespace Chronicle
variable {r : Chronicle σ}

/-- A journal has an entry for each delivery that was reported. -/
theorem run_deliveries (setup : ConsumerSetup ι σ) (r : Chronicle σ) (events : List Event) :
    (r.run setup events).journal.entries.map Entry.delivery =
      ((r.reported setup events).filterMap Notice.delivery?).reverse ++
        r.journal.entries.map Entry.delivery := by
  induction events generalizing r with
  | nil => rfl
  | cons event rest ih =>
    have hnext : (r.next setup event).journal.entries.map Entry.delivery =
        ((r.site.happen setup event).2.2.filterMap Notice.delivery?).reverse ++
          r.journal.entries.map Entry.delivery := by
      unfold next
      dsimp only
      rw [Journal.accept_entries, Journal.deliveries_close, Journal.deliveries_foldl_note]
    have hrest := ih (r.next setup event)
    rw [hnext, ← List.append_assoc, ← List.reverse_append, ← List.filterMap_append] at hrest
    exact hrest

end Chronicle

/-! ## An account, case by case -/

/-- An entry whose attempt ended as its body allows. -/
def Entry.Fits (setup : ConsumerSetup ι σ) (entry : Entry) : Prop :=
  ∀ ending, entry.ending = some ending → ending.Of setup entry.delivery.body

theorem Custody.Booked.fits {k : Custody σ} (h : k.Booked setup) {entry : Entry}
    (hm : entry ∈ k.journal.entries) : entry.Fits setup := by
  intro ending hending
  rcases h.entered.settled_or_open hm with ⟨ending', hending', of, -⟩ | ⟨d, -, rfl⟩
  · cases hending.symm.trans hending'
    exact of
  · cases hending

/-- What the account of a delivery can be, and the span that goes with it. -/
inductive Entry.Shown (setup : ConsumerSetup ι σ) (entry : Entry) : List Notice → Option Span → Prop
  | malformed (refused : entry.malformed = true) :
      Shown setup entry [.evicted "unknown" .malformed] none
  | running {item : WorkItem} (parsed : WorkItem.parse entry.delivery.body = .ok item) :
      Shown setup entry [.attemptOpened item.workItemType item.id entry.delivery.attempt]
        (some ⟨item.workItemType, item.id, entry.delivery.attempt, none⟩)
  | ended {item : WorkItem} {result : Except Failure Unit} {v : Verdict}
      (parsed : WorkItem.parse entry.delivery.body = .ok item)
      (judged : verdict setup.options.maxAttempts entry.delivery.attempt result = v)
      (served : result.isOk = true → setup.registers item.workItemType = true) :
      Shown setup entry
        (.attemptOpened item.workItemType item.id entry.delivery.attempt ::
          (setup.measured item result ++ .attemptEnded v.outcome :: v.evictions item.workItemType))
        (some ⟨item.workItemType, item.id, entry.delivery.attempt, some v.outcome⟩)

theorem Entry.malformed_of_parsed {item : WorkItem} (entry : Entry)
    (parsed : WorkItem.parse entry.delivery.body = .ok item) : entry.malformed = false := by
  unfold malformed
  rw [parsed]
  rfl

theorem Entry.Fits.shown {entry : Entry} (h : entry.Fits setup) :
    entry.Shown setup (entry.account setup) (entry.span? setup) := by
  unfold account span?
  cases hp : WorkItem.parse entry.delivery.body with
  | error failure =>
    have refused : entry.malformed = true := by
      unfold malformed
      rw [hp]
      rfl
    exact .malformed refused
  | ok item =>
    unfold outcome?
    dsimp only
    cases he : entry.ending with
    | none => exact .running hp
    | some ending =>
      have of := h ending he
      cases ending with
      | malformed failure => exact nomatch hp.symm.trans of
      | dispatched item' result =>
        obtain ⟨parsed, served⟩ := of
        cases hp.symm.trans parsed
        refine .ended hp rfl fun hok => ?_
        rcases served with served | ⟨failure, rfl, -⟩
        · exact ConsumerSetup.registers_of_payloadOf? served
        · cases hok

/-! ## Spans -/

theorem Span.endLast_concat (outcome : Outcome) (spans : List Span) (s : Span) :
    Span.endLast outcome (spans ++ [s]) = spans ++ [{ s with outcome := some outcome }] := by
  induction spans with
  | nil => rfl
  | cons first rest ih =>
    cases rest with
    | nil => rfl
    | cons second rest => exact congrArg (first :: ·) ih

theorem Span.after_of_not_isAccount {n : Notice} (spans : List Span) (h : n.isAccount = false) :
    Span.after spans n = spans := by
  cases n <;> first | rfl | cases h

theorem spansOf_accounts (notices : List Notice) :
    spansOf (accounts notices) = spansOf notices := by
  have hfold (spans : List Span) :
      (accounts notices).foldl Span.after spans = notices.foldl Span.after spans := by
    induction notices generalizing spans with
    | nil => rfl
    | cons n rest ih =>
      cases hn : n.isAccount with
      | true => simpa [accounts, hn] using ih (Span.after spans n)
      | false => simpa [accounts, hn, Span.after_of_not_isAccount spans hn] using ih spans
  exact hfold []

/-- An account adds the span of its delivery, as it stands at the end. -/
theorem Entry.Shown.foldl_after {entry : Entry} {account : List Notice} {span? : Option Span}
    (h : entry.Shown setup account span?) (spans : List Span) :
    account.foldl Span.after spans = spans ++ span?.toList := by
  cases h with
  | malformed refused => exact (List.append_nil _).symm
  | running parsed => rfl
  | @ended item result v parsed judged served =>
    have hmeasured (spans : List Span) :
        (setup.measured item result).foldl Span.after spans = spans := by
      unfold ConsumerSetup.measured
      split <;> rfl
    have hevictions (spans : List Span) :
        (v.evictions item.workItemType).foldl Span.after spans = spans := by
      cases v <;> rfl
    rw [List.foldl_cons, List.foldl_append, hmeasured, List.foldl_cons, hevictions]
    exact Span.endLast_concat v.outcome spans _

theorem spansOf_flatMap_account {entries : List Entry} (h : ∀ entry ∈ entries, entry.Fits setup) :
    spansOf (entries.flatMap (Entry.account setup)) = entries.filterMap (Entry.span? setup) := by
  have hfold (spans : List Span) : (entries.flatMap (Entry.account setup)).foldl Span.after spans =
      spans ++ entries.filterMap (Entry.span? setup) := by
    induction entries generalizing spans with
    | nil => exact (List.append_nil _).symm
    | cons entry rest ih =>
      have hentry := (h entry List.mem_cons_self).shown.foldl_after spans
      have hrest := ih fun e he => h e (List.mem_cons_of_mem _ he)
      rw [List.flatMap_cons, List.foldl_append, hentry, hrest, List.filterMap_cons]
      cases entry.span? setup <;> simp
  exact hfold []

theorem Entry.Settled.outcome_isNone {entry : Entry} (h : entry.Settled setup) {s : Span}
    (hs : entry.span? setup = some s) : s.outcome.isNone = false := by
  obtain ⟨ending, hending, of, -⟩ := h
  unfold span? at hs
  cases hp : WorkItem.parse entry.delivery.body with
  | error failure =>
    rw [hp] at hs
    cases hs
  | ok item =>
    rw [hp] at hs
    cases hs
    cases ending with
    | malformed failure => exact nomatch hp.symm.trans of
    | dispatched item' result =>
      unfold outcome?
      dsimp only
      rw [hending]
      rfl

theorem filter_span_of_settled {entries : List Entry} (h : ∀ entry ∈ entries, entry.Settled setup) :
    (entries.filterMap (Entry.span? setup)).filter (fun s => s.outcome.isNone) = [] := by
  refine List.filter_eq_nil_iff.mpr fun s hs => ?_
  obtain ⟨entry, hm, hspan⟩ := List.mem_filterMap.mp hs
  rw [(h entry hm).outcome_isNone hspan]
  exact Bool.false_ne_true

/-- The span of the delivery in hand is the only one without an outcome. -/
theorem Custody.Entered.openSpan {entries : List Entry} {stage : Stage}
    (h : Custody.Entered setup entries stage.inHand?) (serves : stage.Serves setup) :
    (entries.reverse.filterMap (Entry.span? setup)).filter (fun s => s.outcome.isNone) =
      stage.openSpan?.toList := by
  cases stage with
  | handling d item wait =>
    obtain ⟨older, rfl, hall⟩ := h
    have hopen : Entry.span? setup { delivery := d } =
        some ⟨item.workItemType, item.id, d.attempt, none⟩ := by
      unfold Entry.span?
      dsimp only
      rw [serves.1]
      rfl
    rw [List.reverse_cons, List.filterMap_append, List.filter_append,
      filter_span_of_settled fun entry hm => hall entry (List.mem_reverse.mp hm)]
    simp only [List.filterMap_cons, hopen]
    rfl
  | _ => exact filter_span_of_settled fun entry hm => h entry (List.mem_reverse.mp hm)

/-! ## Counters -/

theorem tally_append (p : Series → Bool) (xs ys : List Notice) :
    tally p (xs ++ ys) = tally p xs + tally p ys := by
  rw [tally, List.flatMap_append, List.countP_append]
  rfl

/-- A count that no other notice is counted in is the count of the accounts. -/
theorem tally_accounts {p : Series → Bool}
    (own : ∀ n : Notice, n.isAccount = false → n.counted.countP p = 0) (notices : List Notice) :
    tally p (accounts notices) = tally p notices := by
  induction notices with
  | nil => rfl
  | cons n rest ih =>
    rw [← List.singleton_append, accounts_append, tally_append, tally_append, ih]
    cases hn : n.isAccount with
    | true => simp [accounts, hn]
    | false => simp [accounts, hn, tally, own n hn]

theorem tally_processed (types : String → Bool) (success : Bool) (notices : List Notice) :
    tally (Series.countsProcessed types success) (accounts notices) =
      tally (Series.countsProcessed types success) notices :=
  tally_accounts (fun n h => by cases n <;> first | rfl | cases h) notices

theorem tally_durations (types : String → Bool) (success : Bool) (notices : List Notice) :
    tally (Series.countsDurations types success) (accounts notices) =
      tally (Series.countsDurations types success) notices :=
  tally_accounts (fun n h => by cases n <;> first | rfl | cases h) notices

theorem tally_evicted (types : String → Bool) (reason : Eviction) (notices : List Notice) :
    tally (Series.countsEvictions types reason) (accounts notices) =
      tally (Series.countsEvictions types reason) notices :=
  tally_accounts (fun n h => by cases n <;> first | rfl | cases h) notices

theorem countP_isOutcome_accounts (notices : List Notice) :
    (accounts notices).countP Notice.isOutcome = notices.countP Notice.isOutcome := by
  rw [accounts, List.countP_filter]
  refine List.countP_congr fun n _ => ?_
  cases n <;> simp [Notice.isOutcome, Notice.isAccount]

/-- A count that adds up over notices is a count of entries, if it is so for each account. -/
theorem count_flatMap_account {F : List Notice → Nat} {p : Entry → Bool} {entries : List Entry}
    (append : ∀ xs ys, F (xs ++ ys) = F xs + F ys)
    (each : ∀ entry ∈ entries, F (entry.account setup) = (p entry).toNat) :
    F (entries.flatMap (Entry.account setup)) = entries.countP p := by
  induction entries with
  | nil =>
    have hnil := append [] []
    rw [List.append_nil] at hnil
    change F [] = 0
    omega
  | cons entry rest ih =>
    rw [List.flatMap_cons, append, each entry List.mem_cons_self,
      ih fun e he => each e (List.mem_cons_of_mem _ he), List.countP_cons, Nat.add_comm]
    cases p entry <;> rfl

/-- A count that adds up over notices is a count of spans, if it is so for each account. -/
theorem count_spans {F : List Notice → Nat} {p : Span → Bool} {entries : List Entry}
    (append : ∀ xs ys, F (xs ++ ys) = F xs + F ys) (fits : ∀ entry ∈ entries, entry.Fits setup)
    (each : ∀ entry account span?, Entry.Shown setup entry account span? →
      F account = (span?.any p).toNat) :
    F (entries.flatMap (Entry.account setup)) =
      (entries.filterMap (Entry.span? setup)).countP p := by
  rw [List.countP_filterMap]
  refine count_flatMap_account append fun entry hm => ?_
  rw [each entry _ _ (fits entry hm).shown]
  cases entry.span? setup <;> rfl

theorem isOk_of_verdict {maxAttempts attempt : Nat} {result : Except Failure Unit} {v : Verdict}
    (h : verdict maxAttempts attempt result = v) : result.isOk = (v.outcome == .succeeded) := by
  subst h
  cases result with
  | ok done => rfl
  | error failure =>
    simp only [verdict]
    split
    · rfl
    · split
      · rfl
      · split <;> rfl

theorem reason_of_verdict {maxAttempts attempt : Nat} {result : Except Failure Unit}
    {reason : Eviction} (h : verdict maxAttempts attempt result = .discard reason) :
    reason = .nonRetriable ∨ reason = .maxAttempts := by
  cases result with
  | ok done => cases h
  | error failure =>
    simp only [verdict] at h
    split at h
    · cases h
    · split at h
      · cases h
        exact .inl rfl
      · split at h
        · cases h
          exact .inr rfl
        · cases h

theorem countP_singleton {α : Type} (p : α → Bool) (x : α) : [x].countP p = (p x).toNat := by
  rw [List.countP_singleton]
  cases p x <;> rfl

theorem tally_cons (p : Series → Bool) (n : Notice) (notices : List Notice) :
    tally p (n :: notices) = n.counted.countP p + tally p notices := by
  rw [tally, List.flatMap_cons, List.countP_append]
  rfl

section
variable {entry : Entry} {account : List Notice} {span? : Option Span} (types : String → Bool)
variable {item : WorkItem} {result : Except Failure Unit} {v : Verdict}

theorem tally_measured (success : Bool) :
    tally (Series.countsProcessed types success) (setup.measured item result) =
      (types item.workItemType && result.isOk == success &&
        setup.registers item.workItemType).toNat ∧
    tally (Series.countsDurations types success) (setup.measured item result) =
      tally (Series.countsProcessed types success) (setup.measured item result) := by
  unfold ConsumerSetup.measured
  cases setup.registers item.workItemType with
  | false => exact ⟨by rw [Bool.and_false]; rfl, rfl⟩
  | true =>
    have hprocessed := countP_singleton (Series.countsProcessed types success)
      (.processed item.workItemType result.isOk)
    have hduration := countP_singleton (Series.countsDurations types success)
      (.duration item.workItemType result.isOk)
    rw [Bool.and_true]
    exact ⟨hprocessed, hduration.trans hprocessed.symm⟩

theorem tally_evictions {p : Series → Bool} (workItemType : String)
    (h : ∀ reason, p (.evicted workItemType reason) = false) :
    tally p (v.evictions workItemType) = 0 := by
  cases v with
  | discard reason => simp [Verdict.evictions, tally, Notice.counted, h]
  | _ => rfl

theorem tally_discard (reason reason' : Eviction) (workItemType : String) :
    tally (Series.countsEvictions types reason) (Verdict.evictions workItemType (.discard reason'))
      = (types workItemType && reason' == reason).toNat :=
  countP_singleton (Series.countsEvictions types reason) (.evicted workItemType reason')

/-- What is counted of the account of an attempt that has ended, discards apart. -/
theorem tally_ended {p : Series → Bool} (workItemType id : String) (attempt : Nat)
    (h : ∀ reason, p (.evicted workItemType reason) = false) :
    tally p (.attemptOpened workItemType id attempt ::
      (setup.measured item result ++ .attemptEnded v.outcome :: v.evictions workItemType)) =
      tally p (setup.measured item result) := by
  rw [tally_cons, tally_append, tally_cons, tally_evictions workItemType h]
  exact Nat.zero_add _

/-- The discards that are counted of the account of an attempt that has ended. -/
theorem tally_ended_evictions (reason : Eviction) (workItemType id : String) (attempt : Nat) :
    tally (Series.countsEvictions types reason) (.attemptOpened workItemType id attempt ::
      (setup.measured item result ++ .attemptEnded v.outcome :: v.evictions workItemType)) =
      tally (Series.countsEvictions types reason) (v.evictions workItemType) := by
  have hmeasured :
      tally (Series.countsEvictions types reason) (setup.measured item result) = 0 := by
    unfold ConsumerSetup.measured
    split <;> rfl
  rw [tally_cons, tally_append, tally_cons, hmeasured]
  simp [Notice.counted]

namespace Entry.Shown

theorem outcomes (h : entry.Shown setup account span?) :
    account.countP Notice.isOutcome = (span?.any fun s => s.outcome.isSome).toNat := by
  cases h with
  | malformed refused => rfl
  | running parsed => rfl
  | @ended item result v parsed judged served =>
    have hmeasured : (setup.measured item result).countP Notice.isOutcome = 0 := by
      unfold ConsumerSetup.measured
      split <;> rfl
    have hevictions : (v.evictions item.workItemType).countP Notice.isOutcome = 0 := by
      cases v <;> rfl
    simp [List.countP_append, List.countP_cons, hmeasured, hevictions, Notice.isOutcome]

theorem succeeded (h : entry.Shown setup account span?) :
    tally (Series.countsProcessed types true) account =
      (span?.any fun s => types s.workItemType && s.endedAs .succeeded).toNat := by
  cases h with
  | malformed refused => rfl
  | @running item parsed =>
    simp [Span.endedAs, tally, Notice.counted]
  | @ended item result v parsed judged served =>
    have hok := isOk_of_verdict judged
    rw [tally_ended item.workItemType item.id entry.delivery.attempt fun _ => rfl,
      (tally_measured types true).1]
    simp only [Option.any_some, Span.endedAs, Option.some_beq_some]
    rw [← hok]
    cases hresult : result.isOk with
    | true => rw [served hresult]; simp
    | false => simp

theorem failed (h : entry.Shown setup account span?) :
    tally (Series.countsProcessed types false) account = (span?.any fun s =>
      types s.workItemType && s.failed && setup.registers s.workItemType).toNat := by
  cases h with
  | malformed refused => rfl
  | @running item parsed =>
    simp [Span.failed, tally, Notice.counted]
  | @ended item result v parsed judged served =>
    have hok := isOk_of_verdict judged
    rw [tally_ended item.workItemType item.id entry.delivery.attempt fun _ => rfl,
      (tally_measured types false).1]
    simp only [Option.any_some, Span.failed, Span.endedAs, Option.some_beq_some, Option.isSome_some]
    rw [← hok]
    cases result.isOk <;> rfl

theorem durations (h : entry.Shown setup account span?) (success : Bool) :
    tally (Series.countsDurations types success) account =
      tally (Series.countsProcessed types success) account := by
  cases h with
  | malformed refused => rfl
  | running parsed => rfl
  | @ended item result v parsed judged served =>
    rw [tally_ended item.workItemType item.id entry.delivery.attempt fun _ => rfl,
      tally_ended item.workItemType item.id entry.delivery.attempt fun _ => rfl,
      (tally_measured types success).2]

theorem evicted (h : entry.Shown setup account span?) :
    tally (Series.countsEvictions types .nonRetriable) account +
      tally (Series.countsEvictions types .maxAttempts) account =
        (span?.any fun s => types s.workItemType && s.endedAs .evicted).toNat := by
  cases h with
  | malformed refused => simp [tally, Notice.counted, Series.countsEvictions]
  | @running item parsed => simp [Span.endedAs, tally, Notice.counted]
  | @ended item result v parsed judged served =>
    rw [tally_ended_evictions, tally_ended_evictions]
    simp only [Option.any_some, Span.endedAs, Option.some_beq_some]
    cases v with
    | discard reason =>
      rw [tally_discard, tally_discard]
      rcases reason_of_verdict judged with rfl | rfl <;> cases types item.workItemType <;> rfl
    | _ =>
      rw [Bool.and_comm]
      rfl

theorem refused (h : entry.Shown setup account span?) :
    tally (Series.countsEvictions types .malformed) account =
      (types "unknown" && entry.malformed).toNat := by
  cases h with
  | malformed refused =>
    have hcount := tally_discard types .malformed .malformed "unknown"
    rw [refused, Bool.and_true]
    rwa [beq_self_eq_true, Bool.and_true] at hcount
  | @running item parsed =>
    rw [entry.malformed_of_parsed parsed, Bool.and_false]
    rfl
  | @ended item result v parsed judged served =>
    rw [tally_ended_evictions, entry.malformed_of_parsed parsed, Bool.and_false]
    cases v with
    | discard reason =>
      rw [tally_discard]
      rcases reason_of_verdict judged with rfl | rfl <;> rw [Bool.and_comm] <;> rfl
    | _ => rfl

end Entry.Shown

theorem tally_durations_eq {entries : List Entry} (success : Bool)
    (fits : ∀ entry ∈ entries, entry.Fits setup) :
    tally (Series.countsDurations types success) (entries.flatMap (Entry.account setup)) =
      tally (Series.countsProcessed types success) (entries.flatMap (Entry.account setup)) := by
  induction entries with
  | nil => rfl
  | cons entry rest ih =>
    rw [List.flatMap_cons, tally_append, tally_append,
      (fits entry List.mem_cons_self).shown.durations types success,
      ih fun e he => fits e (List.mem_cons_of_mem _ he)]

end

/-- Telemetry accounts for every delivery. After any run the reports say of each delivery what its
account says, and no more. A delivery whose body is no work item is counted as discarded and has no
span; any other has one span, with its count of deliveries as the attempt. Each attempt that has
ended gave its span one outcome, and the only span without one is that of the delivery that is being
handled. As many attempts are counted as processed with success as spans have succeeded, and with
failure as spans of registered types have ended otherwise; each of them has a measured duration. The
messages counted as discarded, those whose body is no work item apart, are those of the spans that
have ended so. -/
theorem Chronicle.telemetry_accounts (setup : ConsumerSetup ι σ) (workOnStartup createQueue : Bool)
    (plan : FaultPlan) (ofDay : Instant) (handlers : σ) (events : List Event) :
    let start := opening setup workOnStartup createQueue plan ofDay handlers
    let r := start.run setup events
    let notices := start.reported setup events
    let entries := r.journal.entries.reverse
    let spans := spansOf notices
    notices.filterMap Notice.delivery? = entries.map Entry.delivery ∧
    accounts notices = entries.flatMap (Entry.account setup) ∧
    spans = entries.filterMap (Entry.span? setup) ∧
    notices.countP Notice.isOutcome = spans.countP (fun s => s.outcome.isSome) ∧
    spans.filter (fun s => s.outcome.isNone) = r.site.consumer.stage.openSpan?.toList ∧
    ∀ types : String → Bool,
      tally (Series.countsProcessed types true) notices =
        spans.countP (fun s => types s.workItemType && s.endedAs .succeeded) ∧
      tally (Series.countsProcessed types false) notices = spans.countP (fun s =>
        types s.workItemType && s.failed && setup.registers s.workItemType) ∧
      (∀ success, tally (Series.countsDurations types success) notices =
        tally (Series.countsProcessed types success) notices) ∧
      tally (Series.countsEvictions types .nonRetriable) notices +
          tally (Series.countsEvictions types .maxAttempts) notices =
        spans.countP (fun s => types s.workItemType && s.endedAs .evicted) ∧
      tally (Series.countsEvictions types .malformed) notices =
        entries.countP (fun entry => types "unknown" && entry.malformed) := by
  intro start r notices entries spans
  have hstanding : start.Standing setup plan :=
    standing_opening setup workOnStartup createQueue plan ofDay handlers
  have hend : r.Standing setup plan ∧ r.custody.Booked setup :=
    hstanding.run_booked Custody.booked_opening events
  have hfits : ∀ entry ∈ entries, entry.Fits setup :=
    fun entry hm => hend.2.fits (List.mem_reverse.mp hm)
  have haccounts : accounts notices = entries.flatMap (Entry.account setup) :=
    (run_account hstanding Custody.booked_opening events).symm
  have hspans : spans = entries.filterMap (Entry.span? setup) := by
    rw [← spansOf_flatMap_account hfits, ← haccounts]
    exact (spansOf_accounts notices).symm
  refine ⟨?_, haccounts, hspans, ?_, ?_, fun types => ⟨?_, ?_, fun success => ?_, ?_, ?_⟩⟩
  · have hdeliveries := run_deliveries setup start events
    rw [List.map_reverse, hdeliveries]
    simp [start, opening, notices]
  · rw [← countP_isOutcome_accounts, haccounts, hspans]
    exact count_spans (fun _ _ => List.countP_append) hfits fun _ _ _ h => h.outcomes
  · rw [hspans]
    exact hend.2.entered.openSpan hend.1.serves
  · rw [← tally_processed, haccounts, hspans]
    exact count_spans (tally_append _) hfits fun _ _ _ h => h.succeeded types
  · rw [← tally_processed, haccounts, hspans]
    exact count_spans (tally_append _) hfits fun _ _ _ h => h.failed types
  · rw [← tally_durations, ← tally_processed, haccounts]
    exact tally_durations_eq types success hfits
  · rw [← tally_evicted types .nonRetriable, ← tally_evicted types .maxAttempts, haccounts, hspans]
    refine count_spans
      (F := fun notices => tally (Series.countsEvictions types .nonRetriable) notices +
        tally (Series.countsEvictions types .maxAttempts) notices)
      (fun xs ys => ?_) hfits fun _ _ _ h => h.evicted types
    rw [tally_append, tally_append]
    omega
  · rw [← tally_evicted, haccounts]
    exact count_flatMap_account (tally_append _) fun entry hm =>
      (hfits entry hm).shown.refused types

end WorkQueue
