import Mathlib.Data.List.Induction
import Mathlib.Data.List.Nodup
import WorkQueue.Proofs.Text.ByteOrder
import WorkQueue.Registry

/-! # A type finds the registration made for it

Registrations of distinct types make a registry, in whatever order they come; of any others those
are reported that come after one of the same type. In a registry a type leads to the factory that
was registered for it, which is called once, and to no other.
-/
namespace WorkQueue
variable {ι : Type}

namespace Registration
variable {registrations : List (Registration ι)} {entry : Registration ι}

/-- The registrations that come after another one of their type, in order. -/
def later (registrations : List (Registration ι)) : List (Registration ι) :=
  (registrations.zipIdx.filter fun e =>
    (registrations.take e.2).any fun r => r.workItemType == e.1.workItemType).map Prod.fst

theorem later_concat (registrations : List (Registration ι)) (entry : Registration ι) :
    later (registrations ++ [entry]) = later registrations ++
      if entry.workItemType ∈ registrations.map Registration.workItemType then [entry] else [] := by
  have earlier : ∀ e ∈ registrations.zipIdx,
      (registrations ++ [entry]).take e.2 = registrations.take e.2 := by
    rintro ⟨r, i⟩ he
    have hi : i < registrations.length := (List.mem_zipIdx' he).1
    exact List.take_append_of_le_length hi.le
  have last : (registrations.any fun r => r.workItemType == entry.workItemType) =
      decide (entry.workItemType ∈ registrations.map Registration.workItemType) := by
    rw [Bool.eq_iff_iff]
    simp
  unfold later
  rw [List.zipIdx_append, List.filter_append, List.map_append]
  congr 1
  · exact congrArg _ (List.filter_congr fun e he => by rw [earlier e he])
  · by_cases h : entry.workItemType ∈ registrations.map Registration.workItemType
    · simp only [h, decide_true] at last
      simp [last, h]
    · simp only [h, decide_false] at last
      simp [last, h]

theorem later_eq_nil_iff :
    later registrations = [] ↔ (registrations.map Registration.workItemType).Nodup := by
  induction registrations using List.reverseRecOn with
  | nil => simp [later]
  | append_singleton front entry ih =>
    rw [later_concat, List.append_eq_nil_iff, ih, List.map_append, List.map_singleton,
      ← List.concat_eq_append, List.nodup_concat, and_comm]
    refine and_congr_left fun _ => ?_
    split <;> simp [*]

end Registration

namespace Registry
open Registration

variable {r r' : Registry ι} {registrations made : List (Registration ι)}
  {entry : Registration ι} {t : String}

/-! ## Registering -/

/-- What a builder knows of the registrations made so far. -/
structure Builder.Knows (b : Builder ι) (made : List (Registration ι)) : Prop where
  refused : b.refused = (later made).map Registration.workItemType
  served : ∀ t, t ∈ b.registry.served ↔ t ∈ made.map Registration.workItemType
  kept : b.refused = [] → b.registry.registrations = made

theorem Builder.knows_nothing : ({} : Builder ι).Knows [] where
  refused := rfl
  served _ := Iff.rfl
  kept _ := rfl

theorem Builder.Knows.register {b : Builder ι} (h : b.Knows made) (entry : Registration ι) :
    (b.register entry).Knows (made ++ [entry]) := by
  have served := h.served entry.workItemType
  unfold Builder.register
  split
  · next known =>
    refine ⟨?_, fun t => ?_, fun clean => absurd clean (by simp)⟩
    · simp [later_concat, served.mp known, h.refused]
    · rw [h.served, List.map_append, List.mem_append, List.map_singleton, List.mem_singleton]
      exact ⟨.inl, fun ht => ht.elim id fun same => same ▸ served.mp known⟩
  · next fresh =>
    refine ⟨?_, fun t => ?_, fun clean => ?_⟩
    · simp [later_concat, mt served.mpr fresh, h.refused]
    · simp only [Registry.served, add, List.map_append, List.mem_append]
      exact or_congr_left (h.served t)
    · simp only [add, h.kept clean]

theorem Builder.Knows.registerAll {b : Builder ι} (h : b.Knows made) :
    (registrations.foldl Builder.register b).Knows (made ++ registrations) := by
  induction registrations generalizing b made with
  | nil => simpa using h
  | cons entry rest ih => simpa using ih (h.register entry)

theorem Builder.knows_all (registrations : List (Registration ι)) :
    (registrations.foldl Builder.register ({} : Builder ι)).Knows registrations :=
  Builder.knows_nothing.registerAll

theorem build_of_distinct (distinct : (registrations.map Registration.workItemType).Nodup) :
    build registrations = .ok ⟨registrations, distinct⟩ := by
  have knows := Builder.knows_all registrations
  have none : (registrations.foldl Builder.register {}).refused = [] := by
    rw [knows.refused, later_eq_nil_iff.mpr distinct, List.map_nil]
  have kept := knows.kept none
  unfold build Builder.build
  rw [if_pos none]
  generalize (registrations.foldl Builder.register {}).registry = r at kept
  cases r
  cases kept
  rfl

theorem build_of_repeated (repeated : ¬ (registrations.map Registration.workItemType).Nodup) :
    build registrations = .error (.config
      (.registeredTwice ((later registrations).map Registration.workItemType))) := by
  have knows := Builder.knows_all registrations
  have some : ¬ (registrations.foldl Builder.register {}).refused = [] := by
    rwa [knows.refused, List.map_eq_nil_iff, later_eq_nil_iff]
  unfold build Builder.build
  rw [if_neg some, knows.refused]

theorem distinct_of_build (built : build registrations = .ok r) :
    (registrations.map Registration.workItemType).Nodup := by
  by_contra repeated
  rw [build_of_repeated repeated] at built
  cases built

theorem registrations_of_build (built : build registrations = .ok r) :
    r.registrations = registrations := by
  rw [build_of_distinct (distinct_of_build built)] at built
  rw [← Except.ok.inj built]

/-! ## Resolving -/

theorem find?_eq_some_iff :
    r.find? t = some entry ↔ entry ∈ r.registrations ∧ entry.workItemType = t := by
  constructor
  · intro h
    exact ⟨List.mem_of_find?_eq_some h, by simpa using List.find?_some h⟩
  · rintro ⟨held, rfl⟩
    cases found : r.find? entry.workItemType with
    | none =>
      have absent := List.find?_eq_none.mp found entry held
      simp at absent
    | some other =>
      have same : other.workItemType = entry.workItemType := by
        simpa using List.find?_some found
      rw [List.inj_on_of_nodup_map r.distinct (List.mem_of_find?_eq_some found) held same]

theorem resolve_of_mem (held : entry ∈ r.registrations) :
    r.resolve entry.workItemType = .ok entry := by
  rw [resolve, find?_eq_some_iff.mpr ⟨held, rfl⟩]

theorem resolve_of_absent (absent : ∀ entry ∈ r.registrations, entry.workItemType ≠ t) :
    r.resolve t = .error (.unregistered t) := by
  unfold resolve
  split
  · next entry found =>
    obtain ⟨held, same⟩ := find?_eq_some_iff.mp found
    exact absurd same (absent entry held)
  · rfl

theorem resolve_of_perm (perm : r'.registrations.Perm r.registrations) (t : String) :
    r'.resolve t = r.resolve t := by
  have found : r'.find? t = r.find? t := by
    ext entry
    rw [find?_eq_some_iff, find?_eq_some_iff, perm.mem_iff]
  rw [resolve, resolve, found]

/-! ## The list of types -/

theorem pairwise_le_workItemTypes (r : Registry ι) : r.workItemTypes.Pairwise (· ≤ ·) := by
  have sorted : r.workItemTypes.Pairwise fun a b => decide (a ≤ b) = true :=
    List.pairwise_mergeSort
      (fun a b c hab hbc => decide_eq_true ((of_decide_eq_true hab).trans (of_decide_eq_true hbc)))
      (fun a b => by simpa using le_total a b) r.served
  exact sorted.imp of_decide_eq_true

theorem perm_workItemTypes (r : Registry ι) : r.workItemTypes.Perm r.served :=
  List.mergeSort_perm _ _

theorem mem_workItemTypes :
    t ∈ r.workItemTypes ↔ ∃ entry ∈ r.registrations, entry.workItemType = t := by
  rw [r.perm_workItemTypes.mem_iff, served, List.mem_map]

/-- The types stand in the order of their bytes, each once. -/
theorem pairwise_workItemTypes (r : Registry ι) :
    r.workItemTypes.Pairwise fun a b => Text.bytes a < Text.bytes b := by
  have distinct : r.workItemTypes.Nodup := r.perm_workItemTypes.nodup_iff.mpr r.distinct
  exact (r.pairwise_le_workItemTypes.and distinct).imp fun ⟨le, ne⟩ =>
    (Text.lt_iff_bytes_lt _ _).mp (lt_of_le_of_ne le ne)

theorem workItemTypes_of_perm (perm : r'.registrations.Perm r.registrations) :
    r'.workItemTypes = r.workItemTypes := by
  have types : r'.workItemTypes.Perm r.workItemTypes :=
    r'.perm_workItemTypes.trans ((perm.map _).trans r.perm_workItemTypes.symm)
  exact types.eq_of_pairwise (fun _ _ _ _ => le_antisymm) r'.pairwise_le_workItemTypes
    r.pairwise_le_workItemTypes

/-! ## Routing -/

/-- Whether a registry leads each type to what was registered for it. What the factories do is
seen in what they make and in the state that they may change. -/
structure Routes (r : Registry ι) (registrations : List (Registration ι)) : Prop where
  registered : ∀ entry ∈ registrations, r.resolve entry.workItemType = .ok entry ∧
    ∀ {σ π : Type} (factory : Registration ι → σ → π × σ) (s : σ),
      r.make factory entry.workItemType s = (.ok (factory entry s).1, (factory entry s).2)
  unregistered : ∀ t, (∀ entry ∈ registrations, entry.workItemType ≠ t) →
    r.resolve t = .error (.unregistered t) ∧
      ∀ {σ π : Type} (factory : Registration ι → σ → π × σ) (s : σ),
        r.make factory t s = (.error (.unregistered t), s)
  ascending : r.workItemTypes.Pairwise fun a b => Text.bytes a < Text.bytes b
  types : ∀ t, t ∈ r.workItemTypes ↔ ∃ entry ∈ registrations, entry.workItemType = t

theorem routes (r : Registry ι) : r.Routes r.registrations where
  registered entry held := by
    have resolved := resolve_of_mem held
    exact ⟨resolved, fun factory s => by rw [make, resolved]⟩
  unregistered t absent := by
    have resolved := resolve_of_absent absent
    exact ⟨resolved, fun factory s => by rw [make, resolved]⟩
  ascending := r.pairwise_workItemTypes
  types _ := mem_workItemTypes

/-- Registrations make a registry exactly if their types are distinct, and are otherwise refused
with the types of those that come after one of the same type. A registry leads every type to the
one registration made for it, whose factory it calls once, and any other type nowhere; it lists
the registered types in ascending order, and the order of the registrations does not matter. -/
theorem routes_by_type (registrations : List (Registration ι)) :
    ((∃ r, build registrations = .ok r) ↔
      (registrations.map Registration.workItemType).Nodup) ∧
    (∀ failure, build registrations = .error failure →
      failure = .config (.registeredTwice ((later registrations).map Registration.workItemType))) ∧
    ∀ r, build registrations = .ok r → r.Routes registrations ∧
      ∀ reordered, reordered.Perm registrations → ∃ r', build reordered = .ok r' ∧
        (∀ t, r'.resolve t = r.resolve t) ∧
        (∀ {σ π : Type} (factory : Registration ι → σ → π × σ) (t : String) (s : σ),
          r'.make factory t s = r.make factory t s) ∧
        r'.workItemTypes = r.workItemTypes := by
  refine ⟨⟨fun ⟨r, built⟩ => distinct_of_build built,
    fun distinct => ⟨_, build_of_distinct distinct⟩⟩, fun failure refused => ?_, fun r built => ?_⟩
  · by_cases distinct : (registrations.map Registration.workItemType).Nodup
    · rw [build_of_distinct distinct] at refused
      cases refused
    · rw [build_of_repeated distinct] at refused
      cases refused
      rfl
  · have made := registrations_of_build built
    refine ⟨made ▸ r.routes, fun reordered perm => ?_⟩
    have distinct : (reordered.map Registration.workItemType).Nodup :=
      (perm.map _).nodup_iff.mpr (distinct_of_build built)
    have same : (⟨reordered, distinct⟩ : Registry ι).registrations.Perm r.registrations :=
      made.symm ▸ perm
    have resolved := resolve_of_perm same
    exact ⟨_, build_of_distinct distinct, resolved,
      fun factory t s => by rw [make, make, resolved], workItemTypes_of_perm same⟩

end Registry
end WorkQueue
