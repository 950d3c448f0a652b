import ApiPages.Proofs.Catalog.Group
import Mathlib.Data.List.Nodup

/-!
# Entries of the catalog

The groups of a catalog are ordered by name, and its entries are the declarations of its groups.
-/

namespace ApiPages.Catalog

variable {d e : Declaration} {ds : List Declaration} {c : Category}

/-! ## The order of a group -/

theorem ordered_ordered (ds : List Declaration) : Text.Ordered (·.name) (ordered ds) := by
  induction ds using List.reverseRecOn with
  | nil => exact .nil
  | append_singleton ds d ih =>
    rw [ordered_append_singleton]
    exact ih.placeBy d

/-- A group has one declaration of a name, and smaller names stand first. -/
theorem ordered_group (ds : List Declaration) (c : Category) :
    Text.Ordered (·.name) ((ofList ds).group c) := by
  rw [group_ofList]
  exact ordered_ordered _

/-- A catalog is known by what is in its groups. -/
theorem ofList_ext {es : List Declaration}
    (h : ∀ c d, d ∈ (ofList ds).group c ↔ d ∈ (ofList es).group c) : ofList ds = ofList es := by
  have hgroups : ∀ c, groupOf c ds = groupOf c es := by
    intro c
    rw [← group_ofList, ← group_ofList]
    exact (ordered_group ds c).eq_of_mem_iff (ordered_group es c) (h c)
  rw [ofList, ofList]
  simp only [hgroups]

/-! ## Groups and entries -/

theorem mem_groups {g : Category × List Declaration} :
    g ∈ (ofList ds).groups ↔ g.2 = (ofList ds).group g.1 ∧ g.2 ≠ [] := by
  rw [group_ofList, ofList, List.mem_filter, List.mem_map]
  constructor
  · rintro ⟨⟨c, -, rfl⟩, hne⟩
    exact ⟨rfl, by simpa using hne⟩
  · rintro ⟨hg, hne⟩
    exact ⟨⟨g.1, Category.mem_all g.1, by rw [← hg]⟩, by simpa using hne⟩

/-- The categories that have a group are those with a declaration. -/
theorem mem_map_groups : c ∈ (ofList ds).groups.map (·.1) ↔ (ofList ds).group c ≠ [] := by
  rw [List.mem_map]
  constructor
  · rintro ⟨g, hg, rfl⟩
    obtain ⟨heq, hne⟩ := mem_groups.1 hg
    exact heq ▸ hne
  · intro hne
    exact ⟨(c, (ofList ds).group c), mem_groups.2 ⟨rfl, hne⟩, rfl⟩

theorem mem_entries : (c, d) ∈ (ofList ds).entries ↔ d ∈ (ofList ds).group c := by
  rw [entries, List.mem_flatMap]
  constructor
  · rintro ⟨g, hg, hd⟩
    obtain ⟨e, he, heq⟩ := List.mem_map.1 hd
    obtain ⟨rfl, rfl⟩ := Prod.mk.inj heq
    exact (mem_groups.1 hg).1 ▸ he
  · intro hd
    exact ⟨(c, (ofList ds).group c), mem_groups.2 ⟨rfl, List.ne_nil_of_mem hd⟩,
      List.mem_map_of_mem hd⟩

/-- A category has one group. -/
theorem nodup_groups (ds : List Declaration) : ((ofList ds).groups.map (·.1)).Nodup := by
  have hsub : ((ofList ds).groups.map (·.1)).Sublist
      ((Category.all.map fun c => (c, groupOf c ds)).map (·.1)) := List.filter_sublist.map _
  rw [List.map_map] at hsub
  refine hsub.nodup ?_
  show (Category.all.map fun c => c).Nodup
  rw [List.map_id']
  decide

/-- An entry is known by its category and its name. -/
theorem entry_eq {e₁ e₂ : Category × Declaration} (h₁ : e₁ ∈ (ofList ds).entries)
    (h₂ : e₂ ∈ (ofList ds).entries) (hc : e₁.1 = e₂.1) (hname : e₁.2.name = e₂.2.name) :
    e₁ = e₂ := by
  have h₁' := mem_entries.1 h₁
  have h₂' := mem_entries.1 h₂
  rw [← hc] at h₂'
  exact Prod.ext hc ((ordered_group ds e₁.1).eq_of_key_eq h₁' h₂' hname)

/-- No entry is there twice. -/
theorem nodup_entries (ds : List Declaration) : (ofList ds).entries.Nodup := by
  rw [entries, List.nodup_flatMap]
  constructor
  · intro g hg
    rw [(mem_groups.1 hg).1]
    exact (ordered_group ds g.1).nodup.of_map.map (Prod.mk_right_injective g.1)
  · have hgroups := List.pairwise_map.1 (nodup_groups ds)
    refine hgroups.imp ?_
    intro g h hne e he₁ he₂
    obtain ⟨d₁, -, rfl⟩ := List.mem_map.1 he₁
    obtain ⟨d₂, -, heq⟩ := List.mem_map.1 he₂
    exact hne (congrArg Prod.fst heq).symm

end ApiPages.Catalog
