/-!
# Members of an object

Named members in a list.  A name stands for its first member, so `get?` says what the list means;
`insert` keeps names in ascending order, and `sorted` puts any list into that order.
-/

namespace ThreatGraph
namespace Json

abbrev Members (α : Type) := List (String × α)

namespace Members

variable {α : Type}

def get? (name : String) : Members α → Option α
  | [] => none
  | (n, v) :: rest => if n = name then some v else get? name rest

/-- Puts a member in its place, instead of one of that name. -/
def insert (name : String) (value : α) : Members α → Members α
  | [] => [(name, value)]
  | (n, v) :: rest =>
    if n = name then (name, value) :: rest
    else if name < n then (name, value) :: (n, v) :: rest
    else (n, v) :: insert name value rest

def erase (name : String) (ms : Members α) : Members α := ms.filter (·.1 ≠ name)

def names (ms : Members α) : List String := ms.map (·.1)

/-- The same members in ascending order of their names, each name once. -/
def sorted (ms : Members α) : Members α := ms.foldr (fun m rest => insert m.1 m.2 rest) []

/-- Names ascend, so none stands twice. -/
def Ordered (ms : Members α) : Prop := ms.names.Pairwise (· < ·)

@[simp] theorem get?_nil (name : String) : get? name ([] : Members α) = none := rfl

theorem get?_cons (name n : String) (v : α) (ms : Members α) :
    get? name ((n, v) :: ms) = if n = name then some v else get? name ms := rfl

theorem get?_insert (name n : String) (v : α) (ms : Members α) :
    get? n (insert name v ms) = if name = n then some v else get? n ms := by
  induction ms with
  | nil => simp [insert, get?_cons]
  | cons m ms ih =>
    obtain ⟨k, w⟩ := m
    simp only [insert]
    split
    · subst_vars
      by_cases h : k = n <;> simp [get?_cons, h]
    · split
      · simp [get?_cons]
      · rw [get?_cons, get?_cons, ih]
        by_cases hk : k = n <;> by_cases hn : name = n <;> simp_all

theorem get?_erase (name n : String) (ms : Members α) :
    get? n (erase name ms) = if n = name then none else get? n ms := by
  induction ms with
  | nil => simp [erase]
  | cons m ms ih =>
    obtain ⟨k, w⟩ := m
    unfold erase at ih ⊢
    by_cases hk : k = name
    · rw [List.filter_cons_of_neg (by simp [hk]), ih, get?_cons]
      by_cases hn : n = name
      · simp [hn]
      · simp [hn, hk, Ne.symm hn]
    · rw [List.filter_cons_of_pos (by simp [hk]), get?_cons, get?_cons, ih]
      by_cases hn : k = n
      · subst hn; simp [hk]
      · simp [hn]

@[simp] theorem get?_sorted (name : String) (ms : Members α) :
    get? name (sorted ms) = get? name ms := by
  induction ms with
  | nil => rfl
  | cons m ms ih =>
    obtain ⟨k, w⟩ := m
    simp only [sorted, List.foldr_cons] at ih ⊢
    rw [get?_insert, ih, get?_cons]

end Members
end Json
end ThreatGraph
