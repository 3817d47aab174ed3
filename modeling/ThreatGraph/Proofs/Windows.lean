import Mathlib.Order.BoundedOrder.Lattice
import Mathlib.Order.MinMax
import ThreatGraph.Descriptor.Window

/-!
# Windows as a semilattice

Windows are ordered by how strict their bounds are.  Any two of them have a meet, with the later of
the lower bounds and the earlier of the upper ones, and the window without bounds is the greatest.
At one present, a meet contains what both windows contain.  This includes the descriptors whose time
is not known, which only the greatest window contains.
-/

namespace ThreatGraph
namespace Window

section Bounds

variable {r : Int → Int → Prop} {f : Int → Int → Int} {x y z : Option Int}

/-- Each bound in `y` has one in `x` that is at least as strict, as `r` compares them. -/
def Stricter (r : Int → Int → Prop) (x y : Option Int) : Prop := ∀ b ∈ y, ∃ a ∈ x, r b a

theorem Stricter.trans (hr : ∀ a b c, r a b → r b c → r a c) (h : Stricter r x y)
    (h' : Stricter r y z) : Stricter r x z := by
  intro c hc
  obtain ⟨b, hb, hcb⟩ := h' c hc
  obtain ⟨a, ha, hba⟩ := h b hb
  exact ⟨a, ha, hr c b a hcb hba⟩

theorem Stricter.antisymm (hr : ∀ a b, r a b → r b a → a = b) (h : Stricter r x y)
    (h' : Stricter r y x) : x = y := by
  ext a
  constructor
  · intro ha
    obtain ⟨b, hb, hab⟩ := h' a ha
    obtain ⟨a', ha', hba⟩ := h b hb
    obtain rfl : a = a' := Option.mem_unique ha ha'
    rwa [hr a b hab hba]
  · intro ha
    obtain ⟨b, hb, hab⟩ := h a ha
    obtain ⟨a', ha', hba⟩ := h' b hb
    obtain rfl : a = a' := Option.mem_unique ha ha'
    rwa [hr a b hab hba]

theorem merge_stricter_left (hr : ∀ a, r a a) (hf : ∀ a b, r a (f a b)) :
    Stricter r (x.merge f y) x := by
  rintro a ⟨⟩
  cases y with
  | none => exact ⟨a, rfl, hr a⟩
  | some b => exact ⟨f a b, rfl, hf a b⟩

theorem merge_stricter_right (hr : ∀ a, r a a) (hf : ∀ a b, r b (f a b)) :
    Stricter r (x.merge f y) y := by
  rintro b ⟨⟩
  cases x with
  | none => exact ⟨b, rfl, hr b⟩
  | some a => exact ⟨f a b, rfl, hf a b⟩

theorem stricter_merge (hf : ∀ a b c, r a c → r b c → r (f a b) c) (hx : Stricter r z x)
    (hy : Stricter r z y) : Stricter r z (x.merge f y) := by
  cases x with
  | none => rwa [Option.merge_none_left]
  | some a =>
    cases y with
    | none => rwa [Option.merge_none_right]
    | some b =>
      rintro _ ⟨⟩
      obtain ⟨c, hc, hac⟩ := hx a rfl
      obtain ⟨c', hc', hbc⟩ := hy b rfl
      obtain rfl : c = c' := Option.mem_unique hc hc'
      exact ⟨c, hc, hf a b c hac hbc⟩

theorem forall_mem_merge {p : Int → Prop} (hf : ∀ a b, p (f a b) ↔ p a ∧ p b) :
    (∀ c ∈ x.merge f y, p c) ↔ (∀ a ∈ x, p a) ∧ ∀ b ∈ y, p b := by
  cases x <;> cases y <;> simp [hf]

end Bounds

/-- The later of the lower bounds and the earlier of the upper ones; a bound that only one of the
windows has stays as it is. -/
def meet (w w' : Window) : Window where
  since := w.since.merge max w'.since
  upTo := w.upTo.merge min w'.upTo

/-- A window is below another if it has a bound at least as strict for each of the other's. -/
instance : PartialOrder Window where
  le w w' := Stricter (· ≤ ·) w.since w'.since ∧ Stricter (· ≥ ·) w.upTo w'.upTo
  le_refl _ := ⟨fun b hb => ⟨b, hb, le_rfl⟩, fun b hb => ⟨b, hb, le_rfl⟩⟩
  le_trans _ _ _ h h' :=
    ⟨h.1.trans (fun _ _ _ => le_trans) h'.1, h.2.trans (fun _ _ _ => ge_trans) h'.2⟩
  le_antisymm w w' h h' := by
    obtain ⟨since, upTo⟩ := w
    obtain ⟨since', upTo'⟩ := w'
    obtain rfl : since = since' := h.1.antisymm (fun _ _ => le_antisymm) h'.1
    obtain rfl : upTo = upTo' := h.2.antisymm (fun _ _ => ge_antisymm) h'.2
    rfl

instance : SemilatticeInf Window where
  inf := meet
  inf_le_left _ _ :=
    ⟨merge_stricter_left (fun _ => le_rfl) le_max_left,
      merge_stricter_left (fun _ => le_rfl) min_le_left⟩
  inf_le_right _ _ :=
    ⟨merge_stricter_right (fun _ => le_rfl) le_max_right,
      merge_stricter_right (fun _ => le_rfl) min_le_right⟩
  le_inf _ _ _ h h' :=
    ⟨stricter_merge (fun _ _ _ => max_le) h.1 h'.1,
      stricter_merge (fun _ _ _ => le_min) h.2 h'.2⟩

instance : OrderTop Window where
  top := ⟨none, none⟩
  le_top _ := ⟨nofun, nofun⟩

theorem le_iff {w w' : Window} : w ≤ w' ↔
    (∀ b' ∈ w'.since, ∃ b ∈ w.since, b' ≤ b) ∧ ∀ b' ∈ w'.upTo, ∃ b ∈ w.upTo, b ≤ b' :=
  Iff.rfl

theorem isUnbounded_iff {w : Window} : w.isUnbounded = true ↔ w = ⊤ := by
  obtain ⟨since, upTo⟩ := w
  change (since.isNone && upTo.isNone) = true ↔ Window.mk since upTo = ⟨none, none⟩
  simp

def Admits (w : Window) (t : Int) : Prop :=
  (∀ since ∈ w.since, since ≤ t) ∧ ∀ upTo ∈ w.upTo, t ≤ upTo

theorem admits_iff {w : Window} {t : Int} : w.admits t = true ↔ w.Admits t := by
  obtain ⟨since, upTo⟩ := w
  cases since <;> cases upTo <;> simp [admits, Admits]

theorem Admits.of_le {w w' : Window} {t : Int} (h : w.Admits t) (hle : w ≤ w') : w'.Admits t := by
  constructor
  · intro since' hsince'
    obtain ⟨since, hsince, hb⟩ := hle.1 since' hsince'
    exact le_trans hb (h.1 since hsince)
  · intro upTo' hupTo'
    obtain ⟨upTo, hupTo, hb⟩ := hle.2 upTo' hupTo'
    exact le_trans (h.2 upTo hupTo) hb

theorem admits_inf {w w' : Window} {t : Int} : (w ⊓ w').Admits t ↔ w.Admits t ∧ w'.Admits t := by
  have hsince : (∀ b ∈ w.since.merge max w'.since, b ≤ t) ↔ _ :=
    forall_mem_merge fun _ _ => max_le_iff
  have hupTo : (∀ b ∈ w.upTo.merge min w'.upTo, t ≤ b) ↔ _ :=
    forall_mem_merge fun _ _ => le_min_iff
  exact (and_congr hsince hupTo).trans and_and_and_comm

/-- When a descriptor was added, as far as this can be resolved. -/
def addedAt (now : Int) (d : Descriptor) : Option Int :=
  d.addedOn.bind fun text => Time.resolve text now

variable {now t : Int} {d : Descriptor} {w w' : Window}

theorem contains_of_addedAt_eq_some (h : addedAt now d = some t) (w : Window) :
    w.contains now d = true ↔ w.Admits t := by
  rw [addedAt] at h
  simp only [contains, h, Bool.or_eq_true, isUnbounded_iff, admits_iff]
  refine or_iff_right_of_imp ?_
  rintro rfl
  exact ⟨nofun, nofun⟩

theorem contains_of_addedAt_eq_none (h : addedAt now d = none) (w : Window) :
    w.contains now d = true ↔ w = ⊤ := by
  rw [addedAt] at h
  simp only [contains, h, Bool.or_false, isUnbounded_iff]

theorem contains_of_le (hle : w ≤ w') (h : w.contains now d = true) :
    w'.contains now d = true := by
  cases hadded : addedAt now d with
  | none =>
    rw [contains_of_addedAt_eq_none hadded] at h ⊢
    exact top_le_iff.1 (h ▸ hle)
  | some t =>
    rw [contains_of_addedAt_eq_some hadded] at h ⊢
    exact h.of_le hle

theorem contains_inf :
    (w ⊓ w').contains now d = true ↔ w.contains now d = true ∧ w'.contains now d = true := by
  cases hadded : addedAt now d with
  | none => simp only [contains_of_addedAt_eq_none hadded, inf_eq_top_iff]
  | some t => simp only [contains_of_addedAt_eq_some hadded, admits_inf]

/-- How windows select a descriptor at one present. -/
structure Selects (now : Int) (d : Descriptor) : Prop where
  inf : ∀ w w' : Window, (w ⊓ w').contains now d = true ↔
    w.contains now d = true ∧ w'.contains now d = true
  bounds : ∀ w w' : Window, w ⊓ w' = ⟨w.since.merge max w'.since, w.upTo.merge min w'.upTo⟩
  /-- A window with two bounds is the meet of the two with one of them. -/
  halves : ∀ since upTo : Option Int, (Window.mk since upTo).contains now d = true ↔
    (Window.mk since none).contains now d = true ∧ (Window.mk none upTo).contains now d = true
  /-- Nothing is lost when bounds are widened or taken away. -/
  wider : ∀ w w' : Window, (∀ b' ∈ w'.since, ∃ b ∈ w.since, b' ≤ b) →
    (∀ b' ∈ w'.upTo, ∃ b ∈ w.upTo, b ≤ b') → w.contains now d = true → w'.contains now d = true
  unknown : d.addedOn.bind (Time.resolve · now) = none → ∀ w : Window,
    w.contains now d = true ↔ w = ⟨none, none⟩
  known : ∀ t, d.addedOn.bind (Time.resolve · now) = some t → ∀ w : Window,
    w.contains now d = true ↔ (∀ since ∈ w.since, since ≤ t) ∧ ∀ upTo ∈ w.upTo, t ≤ upTo

theorem windows_select (now : Int) (d : Descriptor) : Selects now d where
  inf _ _ := contains_inf
  bounds _ _ := rfl
  halves since upTo := by
    have hmeet : Window.mk since upTo = ⟨since, none⟩ ⊓ ⟨none, upTo⟩ := by
      change _ = Window.mk (since.merge max none) (none.merge min upTo)
      rw [Option.merge_none_right, Option.merge_none_left]
    rw [hmeet]
    exact contains_inf
  wider _ _ hsince hupTo := contains_of_le (le_iff.2 ⟨hsince, hupTo⟩)
  unknown := contains_of_addedAt_eq_none
  known _ := contains_of_addedAt_eq_some

end Window
end ThreatGraph
