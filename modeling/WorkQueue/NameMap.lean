/-! # Maps by ascending name

Values under names, in ascending order of the names, each name once. Two maps with the same
bindings are equal.
-/
namespace WorkQueue

/-- Values by ascending name. -/
abbrev NameMap (α : Type) := List (String × α)

namespace NameMap

def get? : NameMap α → String → Option α
  | [], _ => none
  | (key, x) :: rest, name => if name = key then some x else get? rest name

def insert (name : String) (x : α) : NameMap α → NameMap α
  | [] => [(name, x)]
  | (key, y) :: rest =>
    if name = key then (name, x) :: rest
    else if name < key then (name, x) :: (key, y) :: rest
    else (key, y) :: insert name x rest

/-- The map that results from writing bindings in turn, the last one of a name winning. -/
def ofBindings (bindings : List (String × α)) : NameMap α :=
  bindings.foldl (fun m b => insert b.1 b.2 m) []

/-- What the last of bindings of a name binds it to. -/
def last? (bindings : List (String × α)) (name : String) : Option α := get? bindings.reverse name

/-- Whether the names ascend, so that each occurs once. -/
def Ascending : NameMap α → Prop
  | [] => True
  | [_] => True
  | (a, _) :: (b, y) :: rest => a < b ∧ Ascending ((b, y) :: rest)

theorem get?_cons (key name : String) (x : α) (m : NameMap α) :
    get? ((key, x) :: m) name = if name = key then some x else get? m name := rfl

theorem get?_insert (m : NameMap α) (name other : String) (x : α) :
    get? (insert name x m) other = if other = name then some x else get? m other := by
  induction m with
  | nil => simp [insert, get?_cons]
  | cons entry rest ih =>
    obtain ⟨key, y⟩ := entry
    unfold insert
    split
    · subst name
      simp only [get?_cons]
      split <;> rfl
    · rename_i hk
      split
      · simp only [get?_cons]
      · simp only [get?_cons, ih]
        by_cases h : other = key
        · subst h
          simp [Ne.symm hk]
        · simp [h]

end NameMap
end WorkQueue
