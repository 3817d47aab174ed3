import ThreatGraph.Json.Members

/-!
# Ordered members

Lists of members whose names ascend are maps: they are the same as soon as every name finds the
same in both.
-/

namespace ThreatGraph
namespace Json
namespace Members

variable {α : Type} {ms : Members α} {name n : String} {v : α}

@[simp] theorem get?_cons_self : get? n ((n, v) :: ms) = some v := if_pos rfl

theorem get?_eq_none_iff : get? n ms = none ↔ ∀ m ∈ ms, m.1 ≠ n := by
  induction ms with
  | nil => simp
  | cons m ms ih =>
    obtain ⟨k, w⟩ := m
    rw [get?_cons, List.forall_mem_cons]
    by_cases hk : k = n
    · simp [hk]
    · simp [hk, ih]

theorem get?_append (ms ms' : Members α) (n : String) :
    get? n (ms ++ ms') = (get? n ms).or (get? n ms') := by
  induction ms with
  | nil => rfl
  | cons m ms ih =>
    obtain ⟨k, w⟩ := m
    rw [List.cons_append, get?_cons, get?_cons, ih]
    by_cases hk : k = n <;> simp [hk]

theorem get?_filter (keep : String → Bool) (ms : Members α) (n : String) :
    get? n (ms.filter fun m => keep m.1) = if keep n then get? n ms else none := by
  induction ms with
  | nil => simp
  | cons m ms ih =>
    obtain ⟨k, w⟩ := m
    cases hk : keep k with
    | true =>
      rw [List.filter_cons_of_pos (by simp [hk]), get?_cons, get?_cons, ih]
      by_cases hn : k = n
      · simp [← hn, hk]
      · simp [hn]
    | false =>
      rw [List.filter_cons_of_neg (by simp [hk]), ih, get?_cons]
      by_cases hn : k = n
      · simp [← hn, hk]
      · simp [hn]

@[simp] theorem ordered_nil : Ordered ([] : Members α) := List.Pairwise.nil

theorem ordered_cons : Ordered ((n, v) :: ms) ↔ (∀ m ∈ ms, n < m.1) ∧ Ordered ms := by
  simp [Ordered, names]

theorem mem_insert {m : String × α} (h : m ∈ insert name v ms) : m = (name, v) ∨ m ∈ ms := by
  induction ms with
  | nil => exact .inl (List.mem_singleton.1 h)
  | cons k ms ih =>
    obtain ⟨k, w⟩ := k
    simp only [insert] at h
    split at h
    · rcases List.mem_cons.1 h with h | h
      · exact .inl h
      · exact .inr (List.mem_cons_of_mem _ h)
    · split at h
      · exact List.mem_cons.1 h
      · rcases List.mem_cons.1 h with h | h
        · exact .inr (h ▸ List.mem_cons_self)
        · rcases ih h with h | h
          · exact .inl h
          · exact .inr (List.mem_cons_of_mem _ h)

theorem Ordered.insert (h : Ordered ms) (name : String) (v : α) : Ordered (insert name v ms) := by
  induction ms with
  | nil => simp [Members.insert, ordered_cons]
  | cons m ms ih =>
    obtain ⟨k, w⟩ := m
    obtain ⟨hk, hms⟩ := ordered_cons.1 h
    simp only [Members.insert]
    split
    · next heq =>
      subst heq
      exact ordered_cons.2 ⟨hk, hms⟩
    · next hne =>
      split
      · next hlt =>
        refine ordered_cons.2 ⟨?_, h⟩
        rw [List.forall_mem_cons]
        exact ⟨hlt, fun m hm => String.lt_trans hlt (hk m hm)⟩
      · next hle =>
        refine ordered_cons.2 ⟨fun m hm => ?_, ih hms⟩
        rcases mem_insert hm with rfl | hm
        · apply String.not_le.1
          intro hnk
          exact hne (String.le_antisymm (String.not_lt.1 hle) hnk)
        · exact hk m hm

theorem ordered_sorted (ms : Members α) : Ordered (sorted ms) := by
  induction ms with
  | nil => exact ordered_nil
  | cons m ms ih => exact ih.insert m.1 m.2

theorem mem_of_mem_sorted {m : String × α} (h : m ∈ sorted ms) : m ∈ ms := by
  induction ms with
  | nil => exact h
  | cons k ms ih =>
    rcases mem_insert h with h | h
    · exact h ▸ List.mem_cons_self
    · exact List.mem_cons_of_mem _ (ih h)

theorem Ordered.filter (h : Ordered ms) (p : String × α → Bool) : Ordered (ms.filter p) :=
  List.Pairwise.sublist (List.filter_sublist.map _) h

theorem Ordered.erase (h : Ordered ms) (name : String) : Ordered (erase name ms) := h.filter _

theorem get?_of_lt (h : ∀ m ∈ ms, n < m.1) : get? n ms = none :=
  get?_eq_none_iff.2 fun m hm => Ne.symm (String.ne_of_lt (h m hm))

theorem head_le {ms ms' : Members α} {k : String} {w : α} (hk : ∀ m ∈ ms', k < m.1)
    (h : get? n ((n, v) :: ms) = get? n ((k, w) :: ms')) : k ≤ n := by
  apply String.not_lt.1
  intro hlt
  rw [get?_cons_self, get?_of_lt] at h
  · cases h
  · rw [List.forall_mem_cons]
    exact ⟨hlt, fun m hm => String.lt_trans hlt (hk m hm)⟩

theorem mem_of_get? (h : get? n ms = some v) : (n, v) ∈ ms := by
  induction ms with
  | nil => cases h
  | cons m ms ih =>
    obtain ⟨k, w⟩ := m
    rw [get?_cons] at h
    by_cases hk : k = n
    · rw [if_pos hk] at h
      obtain rfl := Option.some.inj h
      exact hk ▸ List.mem_cons_self
    · rw [if_neg hk] at h
      exact List.mem_cons_of_mem _ (ih h)

theorem Ordered.nodup (h : Ordered ms) : (names ms).Nodup := List.Pairwise.imp String.ne_of_lt h

/-- Where no name stands twice, no member is hidden behind another one. -/
theorem get?_of_mem (h : (names ms).Nodup) (hm : (n, v) ∈ ms) : get? n ms = some v := by
  induction ms with
  | nil => cases hm
  | cons m ms ih =>
    obtain ⟨k, w⟩ := m
    obtain ⟨hk, hms⟩ := List.nodup_cons.1 h
    rcases List.mem_cons.1 hm with heq | hm
    · cases heq
      exact get?_cons_self
    · have hne : k ≠ n := by
        rintro rfl
        exact hk (List.mem_map.2 ⟨_, hm, rfl⟩)
      rw [get?_cons, if_neg hne]
      exact ih hms hm

theorem Ordered.get?_of_mem (h : Ordered ms) (hm : (n, v) ∈ ms) : get? n ms = some v :=
  Members.get?_of_mem h.nodup hm

theorem mem_sorted_iff {m : String × α} (h : (names ms).Nodup) : m ∈ sorted ms ↔ m ∈ ms := by
  refine ⟨mem_of_mem_sorted, fun hm => mem_of_get? ?_⟩
  rw [get?_sorted]
  exact get?_of_mem h hm

theorem Ordered.ext {ms ms' : Members α} (h : Ordered ms) (h' : Ordered ms')
    (hget : ∀ n, get? n ms = get? n ms') : ms = ms' := by
  induction ms generalizing ms' with
  | nil =>
    cases ms' with
    | nil => rfl
    | cons m ms' =>
      obtain ⟨k, w⟩ := m
      have hk := hget k
      rw [get?_cons_self] at hk
      cases hk
  | cons m ms ih =>
    obtain ⟨n, v⟩ := m
    cases ms' with
    | nil =>
      have hn := hget n
      rw [get?_cons_self] at hn
      cases hn
    | cons m' ms' =>
      obtain ⟨k, w⟩ := m'
      obtain ⟨hn, hms⟩ := ordered_cons.1 h
      obtain ⟨hk, hms'⟩ := ordered_cons.1 h'
      obtain rfl : n = k := String.le_antisymm (head_le hn (hget k).symm) (head_le hk (hget n))
      have hv := hget n
      rw [get?_cons_self, get?_cons_self] at hv
      obtain rfl := Option.some.inj hv
      congr 1
      refine ih hms hms' fun x => ?_
      by_cases hx : n = x
      · subst hx
        rw [get?_of_lt hn, get?_of_lt hk]
      · have hrest := hget x
        rwa [get?_cons, get?_cons, if_neg hx, if_neg hx] at hrest

theorem Ordered.sorted_eq (h : Ordered ms) : sorted ms = ms :=
  (ordered_sorted ms).ext h fun n => get?_sorted n ms

theorem Ordered.insert_eq (h : Ordered ms) (hget : get? name ms = some v) :
    Members.insert name v ms = ms := by
  refine (h.insert name v).ext h fun n => ?_
  rw [get?_insert]
  split
  · next heq => rw [← heq, hget]
  · rfl

end Members
end Json
end ThreatGraph
