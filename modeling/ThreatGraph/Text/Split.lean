/-!
# Splitting text

The parts of a text between separators, and the two parts around the first of them.
-/

namespace ThreatGraph
namespace Text

/-- The parts between the separators, one more than there are separators. -/
def split (isSeparator : Char → Bool) : List Char → List (List Char)
  | [] => [[]]
  | c :: cs =>
    if isSeparator c then [] :: split isSeparator cs
    else
      match split isSeparator cs with
      | part :: rest => (c :: part) :: rest
      | [] => [[c]]

/-- What stands before the first `separator`, and what stands behind it. -/
def splitFirst (separator : Char) : List Char → Option (List Char × List Char)
  | [] => none
  | c :: cs =>
    if c = separator then some ([], cs)
    else (splitFirst separator cs).map fun p => (c :: p.1, p.2)

def splitLast (separator : Char) (cs : List Char) : Option (List Char × List Char) :=
  (splitFirst separator cs.reverse).map fun p => (p.2.reverse, p.1.reverse)

def join (separator : Char) : List (List Char) → List Char
  | [] => []
  | [part] => part
  | part :: next :: rest => part ++ separator :: join separator (next :: rest)

theorem splitFirst_eq_none_iff {separator : Char} {cs : List Char} :
    splitFirst separator cs = none ↔ separator ∉ cs := by
  induction cs with
  | nil => simp [splitFirst]
  | cons c cs ih =>
    by_cases h : c = separator
    · simp [splitFirst, h]
    · simp [splitFirst, h, ih, Ne.symm h]

theorem splitFirst_eq_some_iff {separator : Char} {cs front back : List Char} :
    splitFirst separator cs = some (front, back) ↔
      separator ∉ front ∧ cs = front ++ separator :: back := by
  induction cs generalizing front with
  | nil => simp [splitFirst]
  | cons c cs ih =>
    by_cases h : c = separator
    · cases front with
      | nil => simp [splitFirst, h]
      | cons d front =>
        simp only [splitFirst, if_pos h, List.mem_cons, List.cons_append, List.cons.injEq]
        subst h
        simp only [Option.some.injEq, Prod.mk.injEq, reduceCtorEq, false_and, false_iff, not_and]
        exact fun hd hc => absurd (Or.inl hc) hd
    · cases front with
      | nil => simp [splitFirst, h]
      | cons d front =>
        simp only [splitFirst, if_neg h, Option.map_eq_some_iff, Prod.exists, Prod.mk.injEq,
          List.cons.injEq, List.mem_cons, List.cons_append, not_or]
        constructor
        · rintro ⟨front, _, hs, ⟨rfl, rfl⟩, rfl⟩
          have ⟨hf, hc⟩ := ih.1 hs
          exact ⟨⟨Ne.symm h, hf⟩, rfl, hc⟩
        · rintro ⟨⟨_, hf⟩, rfl, hc⟩
          exact ⟨front, back, ih.2 ⟨hf, hc⟩, ⟨rfl, rfl⟩, rfl⟩

theorem split_ne_nil (isSeparator : Char → Bool) (cs : List Char) :
    split isSeparator cs ≠ [] := by
  cases cs with
  | nil => simp [split]
  | cons c cs =>
    simp only [split]
    split
    · simp
    · split <;> simp

theorem join_cons_of_ne_nil (separator : Char) (part : List Char) {rest : List (List Char)}
    (h : rest ≠ []) : join separator (part :: rest) = part ++ separator :: join separator rest := by
  cases rest with
  | nil => exact absurd rfl h
  | cons next rest => rfl

theorem join_split (separator : Char) (cs : List Char) :
    join separator (split (· == separator) cs) = cs := by
  induction cs with
  | nil => rfl
  | cons c cs ih =>
    simp only [split]
    split
    · next h =>
      rw [join_cons_of_ne_nil _ _ (split_ne_nil _ _), ih]
      simp_all
    · split
      · next part rest hs =>
        rw [hs] at ih
        cases rest with
        | nil => simpa [join] using ih
        | cons next rest => simp only [join] at ih ⊢; simp [ih]
      · next hs => exact absurd hs (split_ne_nil _ _)

end Text
end ThreatGraph
