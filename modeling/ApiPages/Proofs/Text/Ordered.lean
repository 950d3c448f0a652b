import Mathlib.Data.List.Sort
import Mathlib.Data.String.Basic

/-!
# Lists ordered by a text

Entries that are put in their place one after another are ordered by their texts, whatever the order
they come in, and there is one for each text.
-/

namespace ApiPages.Text

variable {α : Type} {key : α → String} {a b : α} {as bs : List α}

/-- A list ordered by a text with one more element in its place, instead of one with the same
text. -/
def placeBy (key : α → String) (a : α) : List α → List α
  | [] => [a]
  | b :: bs =>
    if key a = key b then a :: bs
    else if key a < key b then a :: b :: bs
    else b :: placeBy key a bs

/-- Whether the texts grow from element to element. -/
def Ordered (key : α → String) (as : List α) : Prop :=
  as.Pairwise fun a b => key a < key b

theorem mem_placeBy_self (a : α) (as : List α) : a ∈ placeBy key a as := by
  induction as with
  | nil => exact List.mem_singleton_self a
  | cons b as ih =>
    rw [placeBy]
    split
    · exact List.mem_cons_self
    · split
      · exact List.mem_cons_self
      · exact List.mem_cons_of_mem _ ih

/-- Putting an element in its place takes the place of elements with its text only. -/
theorem mem_placeBy_of_ne (hb : b ∈ as) (hne : key b ≠ key a) : b ∈ placeBy key a as := by
  induction as with
  | nil => cases hb
  | cons c as ih =>
    rw [placeBy]
    rcases List.mem_cons.1 hb with rfl | hb
    · split
      · next heq => exact absurd heq.symm hne
      · split <;> simp
    · split
      · exact List.mem_cons_of_mem _ hb
      · split
        · exact List.mem_cons_of_mem _ (List.mem_cons_of_mem _ hb)
        · exact List.mem_cons_of_mem _ (ih hb)

theorem mem_of_mem_placeBy (h : b ∈ placeBy key a as) : b = a ∨ b ∈ as := by
  induction as with
  | nil => exact .inl (List.mem_singleton.1 h)
  | cons c as ih =>
    rw [placeBy] at h
    split at h
    · rcases List.mem_cons.1 h with rfl | h
      · exact .inl rfl
      · exact .inr (List.mem_cons_of_mem _ h)
    · split at h
      · exact List.mem_cons.1 h
      · rcases List.mem_cons.1 h with rfl | h
        · exact .inr List.mem_cons_self
        · exact (ih h).imp_right (List.mem_cons_of_mem _)

namespace Ordered

theorem nil : Ordered key ([] : List α) :=
  List.Pairwise.nil

/-- An element put in its place keeps the order. -/
theorem placeBy (h : Ordered key as) (a : α) : Ordered key (placeBy key a as) := by
  induction as with
  | nil => exact List.pairwise_singleton ..
  | cons b as ih =>
    obtain ⟨hb, has⟩ := List.pairwise_cons.1 h
    rw [Text.placeBy]
    split
    · next heq =>
      refine List.pairwise_cons.2 ⟨?_, has⟩
      intro c hc
      rw [heq]
      exact hb c hc
    · next hne =>
      split
      · next hlt =>
        refine List.pairwise_cons.2 ⟨?_, h⟩
        intro c hc
        rcases List.mem_cons.1 hc with rfl | hc
        · exact hlt
        · exact hlt.trans (hb c hc)
      · next hnlt =>
        -- what is put in goes behind `b`, whose text is the smaller one
        have hba : key b < key a := lt_of_le_of_ne (not_lt.1 hnlt) (Ne.symm hne)
        refine List.pairwise_cons.2 ⟨?_, ih has⟩
        intro c hc
        rcases mem_of_mem_placeBy hc with rfl | hc
        · exact hba
        · exact hb c hc

theorem nodup (h : Ordered key as) : (as.map key).Nodup := by
  refine List.pairwise_map.2 (List.Pairwise.imp ?_ h)
  intro a b hab
  exact ne_of_lt hab

/-- An element is known by its text. -/
theorem eq_of_key_eq (h : Ordered key as) (ha : a ∈ as) (hb : b ∈ as) (hkey : key a = key b) :
    a = b :=
  List.inj_on_of_nodup_map h.nodup ha hb hkey

/-- There is one order for the elements that a list has. -/
theorem eq_of_mem_iff (has : Ordered key as) (hbs : Ordered key bs) (h : ∀ a, a ∈ as ↔ a ∈ bs) :
    as = bs := by
  have hirrefl : Std.Irrefl fun a b : α => key a < key b := ⟨fun a => lt_irrefl (key a)⟩
  have hanti : Std.Antisymm fun a b : α => key a < key b :=
    ⟨fun a b hab hba => absurd hba (lt_asymm hab)⟩
  exact List.Pairwise.eq_of_mem_iff has hbs h

end Ordered

end ApiPages.Text
