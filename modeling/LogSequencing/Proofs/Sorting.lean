import LogSequencing.Sorting
import Mathlib.Data.List.Pairwise

/-!
# Sorted lists

Sorting by a key rearranges a list, keeps one that is in order, and yields the one arrangement whose
keys strictly ascend, where there is one.
-/

set_option autoImplicit false
set_option relaxedAutoImplicit false

namespace LogSequencing

variable {α β : Type} [LE β] [DecidableLE β] (key : α → β)

theorem perm_insertOn (item : α) (items : List α) : (insertOn key item items).Perm (item :: items) := by
  induction items with
  | nil => exact List.Perm.refl _
  | cons first rest ih =>
    rw [insertOn]
    by_cases hle : key item ≤ key first
    · rw [if_pos hle]
    · rw [if_neg hle]
      exact (ih.cons first).trans (List.Perm.swap item first rest)

theorem perm_sortOn (items : List α) : (sortOn key items).Perm items := by
  induction items with
  | nil => exact List.Perm.refl _
  | cons item rest ih => exact (perm_insertOn key item _).trans (ih.cons item)

theorem sortOn_of_pairwise {items : List α} (h : items.Pairwise fun a b ↦ key a ≤ key b) :
    sortOn key items = items := by
  induction h with
  | nil => rfl
  | @cons item rest hfirst _ ih =>
    rw [sortOn_cons, ih]
    cases rest with
    | nil => rfl
    | cons second rest => exact if_pos (hfirst second List.mem_cons_self)

theorem pairwise_insertOn [Std.IsLinearPreorder β] (item : α) {items : List α}
    (h : items.Pairwise fun a b ↦ key a ≤ key b) :
    (insertOn key item items).Pairwise fun a b ↦ key a ≤ key b := by
  induction h with
  | nil => exact List.pairwise_singleton _ _
  | @cons first rest hfirst hrest ih =>
    rw [insertOn]
    by_cases hle : key item ≤ key first
    · rw [if_pos hle]
      refine List.pairwise_cons.mpr ⟨?_, List.pairwise_cons.mpr ⟨hfirst, hrest⟩⟩
      intro other hother
      rcases List.mem_cons.mp hother with rfl | hother
      · exact hle
      · exact Std.le_trans hle (hfirst other hother)
    · rw [if_neg hle]
      refine List.pairwise_cons.mpr ⟨?_, ih⟩
      intro other hother
      rcases List.mem_cons.mp ((perm_insertOn key item rest).mem_iff.mp hother) with rfl | hother
      · exact Std.le_total.resolve_left hle
      · exact hfirst other hother

theorem pairwise_sortOn [Std.IsLinearPreorder β] (items : List α) :
    (sortOn key items).Pairwise fun a b ↦ key a ≤ key b := by
  induction items with
  | nil => exact List.Pairwise.nil
  | cons item rest ih => exact pairwise_insertOn key item ih

/-- No other arrangement is in order than one whose keys strictly ascend. -/
theorem sortOn_eq_of_perm [Std.IsLinearPreorder β] {items sorted : List α}
    (hperm : items.Perm sorted) (hsorted : sorted.Pairwise fun a b ↦ ¬ key b ≤ key a) :
    sortOn key items = sorted := by
  have hpairwise : sorted.Pairwise fun a b ↦ key a ≤ key b :=
    hsorted.imp fun hlt ↦ Std.le_total.resolve_right hlt
  refine List.Perm.eq_of_pairwise ?_ (pairwise_sortOn key items) hpairwise
    ((perm_sortOn key items).trans hperm)
  intro a b ha hb hle hge
  have hmem : a ∈ sorted := hperm.mem_iff.mp ((perm_sortOn key items).mem_iff.mp ha)
  have happart : sorted.Pairwise fun a b ↦ ¬ (key a ≤ key b ∧ key b ≤ key a) :=
    hsorted.imp fun hlt hboth ↦ hlt hboth.2
  have hsymm : Std.Symm fun a b ↦ ¬ (key a ≤ key b ∧ key b ≤ key a) :=
    ⟨fun _ _ h hswap ↦ h hswap.symm⟩
  by_contra hne
  exact happart.forall hmem hb hne ⟨hle, hge⟩

end LogSequencing
