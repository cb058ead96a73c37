import WorkQueue.Proofs.Consumer.Custody

/-! # How a run is booked

A delivery is entered when its message is taken in hand and settled when its attempt has ended. In
between its entry is the latest one and the only one that is open. Every delete stands under the
delivery that it settles.
-/
namespace WorkQueue
variable {ι σ : Type} {setup : ConsumerSetup ι σ} {plan : FaultPlan}

/-- An entry whose attempt has ended: a delete was issued of its own message, once, if the verdict
says so, and none otherwise. -/
def Entry.Settled (setup : ConsumerSetup ι σ) (entry : Entry) : Prop :=
  ∃ ending, entry.ending = some ending ∧ ending.Of setup entry.delivery.body ∧
    if (ending.verdict setup.options.maxAttempts entry.delivery.attempt).deletes then
      ∃ answer, entry.deletes = [(entry.delivery.id, answer)]
    else entry.deletes = []

/-! ## The open entry -/

namespace Journal
variable {j : Journal} {d : Delivery} {older : List Entry} {ending : Ending}

def deletes (j : Journal) : List (Int × Except Failure Unit) := j.entries.flatMap Entry.deletes

theorem close_open (h : j.entries = { delivery := d } :: older) :
    j.close (some ending) = { j with entries := ⟨d, some ending, []⟩ :: older } := by
  simp only [close, h]

theorem close_deleted {id : Int} {answer : Except Failure Unit}
    (h : j.entries = { delivery := d } :: older) :
    (j.note (.deleted id answer)).close (some ending) =
      { j with entries := ⟨d, some ending, [(id, answer)]⟩ :: older } := by
  simp only [note, close, h, List.nil_append]

end Journal

/-! ## Every delete has its entry -/

namespace Custody

/-- The entries, all settled but the one of the delivery in hand. -/
def Entered (setup : ConsumerSetup ι σ) (entries : List Entry) : Option Delivery → Prop
  | none => ∀ entry ∈ entries, entry.Settled setup
  | some d => ∃ older, entries = { delivery := d } :: older ∧ ∀ entry ∈ older, entry.Settled setup

theorem Entered.settled_or_open {entries : List Entry} {inHand : Option Delivery}
    (h : Entered setup entries inHand) {entry : Entry} (hm : entry ∈ entries) :
    entry.Settled setup ∨ ∃ d, inHand = some d ∧ entry = { delivery := d } := by
  cases inHand with
  | none => exact .inl (h entry hm)
  | some d =>
    obtain ⟨older, rfl, hall⟩ := h
    rcases List.mem_cons.mp hm with rfl | hm
    · exact .inr ⟨d, rfl, rfl⟩
    · exact .inl (hall entry hm)

/-- A journal that shows every delete under the delivery that it settles. -/
structure Booked (setup : ConsumerSetup ι σ) (k : Custody σ) : Prop where
  entered : Entered setup k.journal.entries k.inHand
  noStray : k.journal.stray = []
  counted : k.issued = k.journal.deletes.length

variable {k k' : Custody σ} {event : Event}

theorem Entered.latest {entries : List Entry} (h : Entered setup entries k.inHand) {d : Delivery}
    (hand : k.inHand = some d) :
    ∃ older, entries = { delivery := d } :: older ∧ ∀ entry ∈ older, entry.Settled setup := by
  rwa [hand] at h

theorem Booked.settled (h : k.Booked setup) (free : k.inHand = none) {entry : Entry}
    (hm : entry ∈ k.journal.entries) : entry.Settled setup := by
  have hall := h.entered
  rw [free] at hall
  exact hall entry hm

theorem Booked.latest (h : k.Booked setup) {d : Delivery} (hand : k.inHand = some d) :
    ∃ older, k.journal.entries = { delivery := d } :: older ∧
      ∀ entry ∈ older, entry.Settled setup :=
  h.entered.latest hand

theorem Entered.effect (h : Entered setup k.journal.entries k.inHand)
    (he : Effect setup plan event k k') : Entered setup k'.journal.entries k'.inHand := by
  cases he with
  | takes free received =>
    rw [free] at h
    exact ⟨_, rfl, h⟩
  | @leaves d ending hand of kept =>
    obtain ⟨older, hentries, hall⟩ := h.latest hand
    rw [Journal.close_open hentries]
    intro entry hm
    rcases List.mem_cons.mp hm with rfl | hm
    · exact ⟨ending, rfl, of, by simp [kept]⟩
    · exact hall entry hm
  | @deletes d ending store answer hand of warranted answered =>
    obtain ⟨older, hentries, hall⟩ := h.latest hand
    rw [Journal.close_deleted hentries]
    intro entry hm
    rcases List.mem_cons.mp hm with rfl | hm
    · exact ⟨ending, rfl, of, by simp [warranted]⟩
    · exact hall entry hm
  | accepts sent => exact h
  | beside change => exact h
  | borrowed by_ => exact h
  | removed by_ => exact h
  | passes by_ => exact h

theorem Booked.effect (h : k.Booked setup) (he : Effect setup plan event k k') :
    k'.Booked setup := by
  have hentered := h.entered.effect he
  cases he with
  | takes free received => exact ⟨hentered, h.noStray, h.counted⟩
  | @leaves d ending hand of kept =>
    obtain ⟨older, hentries, -⟩ := h.latest hand
    have hcount := h.counted
    simp only [Journal.deletes, hentries] at hcount
    rw [Journal.close_open hentries] at hentered ⊢
    exact ⟨hentered, h.noStray, hcount⟩
  | @deletes d ending store answer hand of warranted answered =>
    obtain ⟨older, hentries, -⟩ := h.latest hand
    have hcount := h.counted
    simp only [Journal.deletes, hentries, List.flatMap_cons, List.nil_append] at hcount
    rw [Journal.close_deleted hentries] at hentered ⊢
    exact ⟨hentered, h.noStray, by simp [Journal.deletes, hcount]⟩
  | accepts sent => exact ⟨hentered, h.noStray, h.counted⟩
  | beside change => exact ⟨hentered, h.noStray, h.counted⟩
  | borrowed by_ => exact ⟨hentered, h.noStray, h.counted⟩
  | removed by_ => exact ⟨hentered, h.noStray, h.counted⟩
  | passes by_ => exact ⟨hentered, h.noStray, h.counted⟩

theorem booked_opening {workOnStartup createQueue : Bool} {ofDay : Instant} {handlers : σ} :
    (Chronicle.opening setup workOnStartup createQueue plan ofDay handlers).custody.Booked setup :=
  ⟨List.forall_mem_nil _, rfl, rfl⟩

end Custody
end WorkQueue
