import Mathlib.Data.String.Basic
import WorkQueue.NameMap

/-! # Maps stay in order

Writing under a name keeps the names ascending, so that bindings written in turn come to a map, and
bindings that ascend are one already. What stands in a map is found under its name.
-/
namespace WorkQueue

namespace NameMap
variable {α : Type} {m : NameMap α} {name key : String} {x y : α}

theorem ascending_cons : Ascending ((key, x) :: m) ↔ (∀ e ∈ m, key < e.1) ∧ Ascending m := by
  induction m generalizing key x with
  | nil => simp [Ascending]
  | cons e rest ih =>
    obtain ⟨name, y⟩ := e
    constructor
    · rintro ⟨hlt, hrest⟩
      refine ⟨?_, hrest⟩
      intro e he
      rcases List.mem_cons.mp he with rfl | he
      · exact hlt
      · exact hlt.trans ((ih.mp hrest).1 e he)
    · rintro ⟨hlt, hrest⟩
      exact ⟨hlt _ List.mem_cons_self, hrest⟩

theorem ascending_iff_pairwise : Ascending m ↔ m.Pairwise fun e f => e.1 < f.1 := by
  induction m with
  | nil => simp [Ascending]
  | cons e rest ih => rw [ascending_cons, List.pairwise_cons, ih]

theorem insert_of_greatest (h : ∀ e ∈ m, e.1 < name) : insert name x m = m ++ [(name, x)] := by
  induction m with
  | nil => rfl
  | cons e rest ih =>
    obtain ⟨key, y⟩ := e
    have hlt := h (key, y) List.mem_cons_self
    rw [insert, if_neg hlt.ne', if_neg hlt.asymm, ih fun e he => h e (List.mem_cons_of_mem _ he)]
    rfl

/-- Bindings by ascending name are a map already. -/
theorem ofBindings_of_ascending (h : Ascending m) : ofBindings m = m := by
  have hfold : ∀ front back : NameMap α, (front ++ back).Pairwise (fun e f => e.1 < f.1) →
      back.foldl (fun m b => insert b.1 b.2 m) front = front ++ back := by
    intro front back
    induction back generalizing front with
    | nil => simp
    | cons e rest ih =>
      intro hp
      have hgreatest : ∀ b ∈ front, b.1 < e.1 := fun b hb =>
        (List.pairwise_append.mp hp).2.2 b hb e List.mem_cons_self
      have hsplit : front ++ e :: rest = (front ++ [e]) ++ rest := List.append_cons ..
      rw [List.foldl_cons, insert_of_greatest hgreatest, hsplit]
      exact ih (front ++ [e]) (hsplit ▸ hp)
  exact hfold [] m (ascending_iff_pairwise.mp h)

theorem mem_insert {e : String × α} (h : e ∈ insert name x m) : e = (name, x) ∨ e ∈ m := by
  induction m with
  | nil => exact .inl (List.mem_singleton.mp h)
  | cons f rest ih =>
    obtain ⟨key, y⟩ := f
    rw [insert] at h
    split at h
    · rcases List.mem_cons.mp h with rfl | h
      · exact .inl rfl
      · exact .inr (List.mem_cons_of_mem _ h)
    · split at h
      · exact (List.mem_cons.mp h)
      · rcases List.mem_cons.mp h with rfl | h
        · exact .inr List.mem_cons_self
        · exact (ih h).imp id (List.mem_cons_of_mem _)

theorem Ascending.insert (h : Ascending m) : Ascending (insert name x m) := by
  induction m with
  | nil => trivial
  | cons e rest ih =>
    obtain ⟨key, y⟩ := e
    obtain ⟨hlt, hrest⟩ := ascending_cons.mp h
    rw [NameMap.insert]
    split
    · next heq =>
      subst heq
      exact ascending_cons.mpr ⟨hlt, hrest⟩
    · next hne =>
      split
      · next hbefore =>
        refine ascending_cons.mpr ⟨fun e he => ?_, h⟩
        rcases List.mem_cons.mp he with rfl | he
        · exact hbefore
        · exact hbefore.trans (hlt e he)
      · next hafter =>
        refine ascending_cons.mpr ⟨fun e he => ?_, ih hrest⟩
        rcases mem_insert he with rfl | he
        · exact lt_of_le_of_ne (le_of_not_gt hafter) (Ne.symm hne)
        · exact hlt e he

theorem ascending_ofBindings (bindings : List (String × α)) : Ascending (ofBindings bindings) := by
  have hfold : ∀ m : NameMap α, Ascending m →
      Ascending (bindings.foldl (fun m b => insert b.1 b.2 m) m) := by
    induction bindings with
    | nil => exact fun m hm => hm
    | cons b rest ih => exact fun m hm => ih _ hm.insert
  exact hfold [] trivial

theorem mem_ofBindings {bindings : List (String × α)} {e : String × α}
    (h : e ∈ ofBindings bindings) : e ∈ bindings := by
  have hfold : ∀ m : NameMap α, e ∈ bindings.foldl (fun m b => insert b.1 b.2 m) m →
      e ∈ bindings ∨ e ∈ m := by
    clear h
    induction bindings with
    | nil => exact fun m hm => .inr hm
    | cons b rest ih =>
      intro m hm
      rcases ih _ hm with hrest | hinsert
      · exact .inl (List.mem_cons_of_mem _ hrest)
      · rcases mem_insert hinsert with rfl | hm
        · exact .inl List.mem_cons_self
        · exact .inr hm
  rcases hfold [] h with hb | hnil
  · exact hb
  · cases hnil

theorem get?_of_mem (h : Ascending m) (hm : (name, x) ∈ m) : get? m name = some x := by
  induction m with
  | nil => cases hm
  | cons e rest ih =>
    obtain ⟨key, y⟩ := e
    obtain ⟨hlt, hrest⟩ := ascending_cons.mp h
    rw [get?_cons]
    rcases List.mem_cons.mp hm with heq | hm
    · cases heq
      exact if_pos rfl
    · rw [if_neg (hlt (name, x) hm).ne', ih hrest hm]

theorem mem_of_get? (h : get? m name = some x) : (name, x) ∈ m := by
  induction m with
  | nil => cases h
  | cons e rest ih =>
    obtain ⟨key, y⟩ := e
    rw [get?_cons] at h
    split at h
    · next heq =>
      cases h
      exact heq ▸ List.mem_cons_self
    · exact List.mem_cons_of_mem _ (ih h)

theorem get?_filter (m : NameMap α) (p : String → Bool) (name : String) :
    get? (m.filter fun e => p e.1) name = if p name then get? m name else none := by
  induction m with
  | nil => simp [get?]
  | cons e rest ih =>
    obtain ⟨key, y⟩ := e
    rw [List.filter_cons, get?_cons]
    by_cases hn : name = key
    · subst hn
      cases hp : p name <;> simp [get?_cons, ih, hp]
    · cases p key <;> simp [get?_cons, ih, hn]

theorem get?_eq_none (h : ∀ e ∈ m, e.1 ≠ name) : get? m name = none := by
  cases hg : get? m name with
  | none => rfl
  | some x => exact absurd rfl (h _ (mem_of_get? hg))

theorem mem_names_iff : name ∈ m.map Prod.fst ↔ get? m name ≠ none := by
  induction m with
  | nil => simp [get?]
  | cons e rest ih =>
    obtain ⟨key, y⟩ := e
    rw [List.map_cons, List.mem_cons, ih, get?_cons]
    by_cases hn : name = key <;> simp [hn]

theorem Ascending.filter (h : Ascending m) (p : String × α → Bool) : Ascending (m.filter p) :=
  ascending_iff_pairwise.mpr ((ascending_iff_pairwise.mp h).filter p)

/-- Maps in which every name is bound to the same are equal. -/
theorem Ascending.ext {m' : NameMap α} (h : Ascending m) (h' : Ascending m')
    (agree : ∀ name, get? m name = get? m' name) : m = m' := by
  induction m generalizing m' with
  | nil =>
    cases m' with
    | nil => rfl
    | cons e rest =>
      have hfirst := agree e.1
      rw [get?_of_mem h' List.mem_cons_self] at hfirst
      cases hfirst
  | cons e rest ih =>
    cases m' with
    | nil =>
      have hfirst := agree e.1
      rw [get?_of_mem h List.mem_cons_self] at hfirst
      cases hfirst
    | cons f rest' =>
      obtain ⟨hbelow, hrest⟩ := ascending_cons.mp h
      obtain ⟨hbelow', hrest'⟩ := ascending_cons.mp h'
      have hmem : e ∈ f :: rest' :=
        mem_of_get? ((agree e.1).symm.trans (get?_of_mem h List.mem_cons_self))
      have hmem' : f ∈ e :: rest :=
        mem_of_get? ((agree f.1).trans (get?_of_mem h' List.mem_cons_self))
      -- of two different least names neither could stand in the other map
      have hsame : e = f := by
        rcases List.mem_cons.mp hmem with heq | he
        · exact heq
        · rcases List.mem_cons.mp hmem' with heq | hf
          · exact heq.symm
          · exact absurd ((hbelow' e he).trans (hbelow f hf)) (lt_irrefl f.1)
      subst hsame
      refine congrArg (e :: ·) (ih hrest hrest' fun name => ?_)
      have hname := agree name
      obtain ⟨key, x⟩ := e
      rw [get?_cons, get?_cons] at hname
      split at hname
      · next heq =>
        rw [heq, get?_eq_none fun e he => (hbelow e he).ne',
          get?_eq_none fun e he => (hbelow' e he).ne']
      · exact hname

theorem get?_append (m n : List (String × α)) (name : String) :
    get? (m ++ n) name = (get? m name).or (get? n name) := by
  induction m with
  | nil => rfl
  | cons e rest ih =>
    rw [List.cons_append, get?_cons, get?_cons, ih]
    split <;> rfl

theorem last?_cons (key name : String) (x : α) (bindings : List (String × α)) :
    last? ((key, x) :: bindings) name =
      (last? bindings name).or (if name = key then some x else none) := by
  rw [last?, List.reverse_cons, get?_append]
  rfl

/-- Of bindings written in turn the last one of a name is found under it. -/
theorem get?_ofBindings_eq_last? (bindings : List (String × α)) (name : String) :
    get? (ofBindings bindings) name = last? bindings name := by
  have hfold : ∀ m : NameMap α, get? (bindings.foldl (fun m b => insert b.1 b.2 m) m) name =
      (last? bindings name).or (get? m name) := by
    induction bindings with
    | nil => exact fun m => rfl
    | cons b rest ih =>
      intro m
      rw [List.foldl_cons, ih, get?_insert, last?_cons]
      cases last? rest name with
      | some x => rfl
      | none => split <;> rfl
  rw [ofBindings, hfold]
  cases last? bindings name <;> rfl

/-- Of bindings under distinct names each is found under its own. -/
theorem get?_ofBindings {bindings : List (String × α)} (h : (bindings.map Prod.fst).Nodup)
    (name : String) : get? (ofBindings bindings) name = get? bindings name := by
  rw [get?_ofBindings_eq_last?]
  induction bindings with
  | nil => rfl
  | cons b rest ih =>
    obtain ⟨key, x⟩ := b
    obtain ⟨hkey, hrest⟩ := List.nodup_cons.mp h
    rw [last?_cons, ih hrest, get?_cons]
    split
    · next hn =>
      have hnone : get? rest name = none :=
        get?_eq_none fun e he heq => hkey (List.mem_map.mpr ⟨e, he, heq.trans hn⟩)
      rw [hnone]
      rfl
    · exact Option.or_none

end NameMap
end WorkQueue
