import ApiPages.Catalog.Basic
import ApiPages.Proofs.Text.Ordered
import Mathlib.Data.List.Induction

/-!
# Groups of the catalog

A group holds the last declaration of each name among those of its category.
-/

namespace ApiPages

/-- A category has one kind. -/
theorem Category.ofKind?_inj {k l : Kind} {c : Category} (hk : ofKind? k = some c)
    (hl : ofKind? l = some c) : k = l := by
  rw [← hl] at hk
  revert hk hl
  cases k <;> cases l <;> simp [ofKind?]

/-- A type that an extension can add to has a category. -/
theorem Category.exists_ofKind? {k : Kind} (h : k.isExtendable = true) :
    ∃ c, ofKind? k = some c := by
  cases k <;> simp_all [Kind.isExtendable, ofKind?]

theorem Category.mem_all (c : Category) : c ∈ all := by
  cases c <;> decide

namespace Catalog

variable {d e : Declaration} {ds es : List Declaration} {c : Category}

/-! ## Placing -/

theorem place_eq_placeBy (d : Declaration) (es : List Declaration) :
    place d es = Text.placeBy (·.name) d es := by
  induction es with
  | nil => rfl
  | cons e es ih => rw [place, Text.placeBy, ih]

theorem ordered_append_singleton (ds : List Declaration) (d : Declaration) :
    ordered (ds ++ [d]) = Text.placeBy (·.name) d (ordered ds) := by
  rw [← place_eq_placeBy]
  simp [ordered]

theorem mem_of_mem_ordered (h : d ∈ ordered ds) : d ∈ ds := by
  induction ds using List.reverseRecOn with
  | nil => simp [ordered] at h
  | append_singleton ds e ih =>
    rw [ordered_append_singleton] at h
    rcases Text.mem_of_mem_placeBy h with rfl | h
    · simp
    · simp [ih h]

/-- The last declaration of a name is there. -/
theorem mem_ordered (ds : List Declaration) (h : ∀ e ∈ es, e.name ≠ d.name) :
    d ∈ ordered (ds ++ d :: es) := by
  induction es using List.reverseRecOn with
  | nil =>
    rw [ordered_append_singleton]
    exact Text.mem_placeBy_self d _
  | append_singleton es e ih =>
    rw [← List.cons_append, ← List.append_assoc, ordered_append_singleton]
    refine Text.mem_placeBy_of_ne (ih fun x hx => h x (by simp [hx])) ?_
    exact Ne.symm (h e (by simp))

/-! ## Groups -/

theorem mem_groupOf (hd : Category.ofKind? d.kind = some c)
    (h : ∀ e ∈ es, Category.ofKind? e.kind = some c → e.name ≠ d.name) :
    d ∈ groupOf c (ds ++ d :: es) := by
  rw [groupOf, List.filter_append, List.filter_cons_of_pos (by simpa using hd)]
  refine mem_ordered _ fun e he => ?_
  rw [List.mem_filter] at he
  exact h e he.1 (of_decide_eq_true he.2)

theorem mem_of_mem_groupOf (h : d ∈ groupOf c ds) :
    d ∈ ds ∧ Category.ofKind? d.kind = some c := by
  have hmem := mem_of_mem_ordered h
  rw [List.mem_filter] at hmem
  exact ⟨hmem.1, of_decide_eq_true hmem.2⟩

/-- The groups of `ofList`, of which a category has one unless it is empty. -/
theorem lookup_groups (ds : List Declaration) (c : Category) (cs : List Category) :
    ((cs.map fun c => (c, groupOf c ds)).filter fun g => !g.2.isEmpty).lookup c =
      if c ∈ cs ∧ groupOf c ds ≠ [] then some (groupOf c ds) else none := by
  induction cs with
  | nil => simp
  | cons x cs ih =>
    rw [List.map_cons]
    by_cases hx : c = x
    · subst hx
      by_cases hempty : groupOf c ds = []
      · rw [List.filter_cons_of_neg (by simp [hempty]), ih]
        simp [hempty]
      · rw [List.filter_cons_of_pos (by simpa using hempty)]
        simp [hempty]
    · have hne : (c == x) = false := by simpa using hx
      by_cases hempty : groupOf x ds = []
      · rw [List.filter_cons_of_neg (by simp [hempty]), ih]
        simp [hx]
      · rw [List.filter_cons_of_pos (by simpa using hempty), List.lookup_cons, hne, ih]
        simp [hx]

theorem lookup_ofList (ds : List Declaration) (c : Category) :
    (ofList ds).groups.lookup c = if groupOf c ds ≠ [] then some (groupOf c ds) else none := by
  rw [ofList, lookup_groups]
  simp [Category.mem_all]

theorem group_ofList (ds : List Declaration) (c : Category) :
    (ofList ds).group c = groupOf c ds := by
  rw [group, lookup_ofList]
  split
  · rfl
  · next h => simpa using (not_not.1 h).symm

end Catalog

end ApiPages
