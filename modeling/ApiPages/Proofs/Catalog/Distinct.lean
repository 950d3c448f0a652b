import ApiPages.Proofs.Catalog.Entries
import ApiPages.Proofs.Declaration.Visible

/-!
# Declarations of different pages

A declaration would get the page of its category and its name. Where no two declarations of a list
would get the same page, the catalog holds all of them that have a category, and it does not matter
in which order they stand (`ofList_eq_of_mem_iff`).
-/

namespace ApiPages

/-- Whether two declarations would get the same page. -/
def Declaration.SamePage (d e : Declaration) : Prop :=
  ∃ c, Category.ofKind? d.kind = some c ∧ Category.ofKind? e.kind = some c ∧ d.name = e.name

namespace Catalog

open Declaration (visible visible?)

variable {d e : Declaration} {ds es : List Declaration} {c : Category} {n : String}

/-- Whether no two declarations of a list would get the same page. -/
def Distinct (ds : List Declaration) : Prop :=
  ds.Pairwise fun d e => ¬ d.SamePage e

theorem Distinct.of_perm (h : Distinct ds) (hperm : ds.Perm es) : Distinct es := by
  refine h.perm hperm ?_
  rintro d e hne ⟨c, he, hd, hname⟩
  exact hne ⟨c, hd, he, hname.symm⟩

/-- What is visible of declarations gets the pages that these would get. -/
theorem Distinct.visible (h : Distinct ds) (least : Access) : Distinct (visible least ds) := by
  rw [Declaration.visible_eq_filterMap]
  refine h.filterMap (visible? least) ?_
  rintro d e hne d' hd e' he ⟨c, hdc, hec, hname⟩
  have hdhead := Declaration.head_of_visible? hd
  have hehead := Declaration.head_of_visible? he
  refine hne ⟨c, ?_, ?_, ?_⟩
  · rw [← Declaration.kind_eq_of_head hdhead, hdc]
  · rw [← Declaration.kind_eq_of_head hehead, hec]
  · rw [← Declaration.name_eq_of_head hdhead, ← Declaration.name_eq_of_head hehead, hname]

/-! ## The declaration of a page -/

/-- The declaration of a category with a name. -/
def declaration? (k : Catalog) (c : Category) (n : String) : Option Declaration :=
  (k.group c).find? fun d => d.name = n

theorem declaration?_eq_some_iff :
    (ofList ds).declaration? c n = some d ↔ d ∈ (ofList ds).group c ∧ d.name = n := by
  constructor
  · intro h
    exact ⟨List.mem_of_find?_eq_some h, by simpa using List.find?_some h⟩
  · rintro ⟨hd, rfl⟩
    cases hfind : (ofList ds).declaration? c d.name with
    | none =>
      have hnone := List.find?_eq_none.1 hfind d hd
      simp at hnone
    | some e =>
      -- a group has one declaration of a name
      have he := List.mem_of_find?_eq_some hfind
      have hname : e.name = d.name := by simpa using List.find?_some hfind
      rw [(ordered_group ds c).eq_of_key_eq he hd hname]

theorem exists_mem_ordered_iff : (∃ d ∈ ordered ds, d.name = n) ↔ ∃ d ∈ ds, d.name = n := by
  constructor
  · rintro ⟨d, hd, hname⟩
    exact ⟨d, mem_of_mem_ordered hd, hname⟩
  · intro h
    induction ds using List.reverseRecOn with
    | nil => simp at h
    | append_singleton ds e ih =>
      rw [ordered_append_singleton]
      by_cases he : e.name = n
      · exact ⟨e, Text.mem_placeBy_self e _, he⟩
      · -- the name is that of an earlier one, whose place the last one does not take
        obtain ⟨d, hd, hname⟩ := h
        have hmem : d ∈ ds := by
          rcases List.mem_append.1 hd with hd | hd
          · exact hd
          · rw [List.mem_singleton.1 hd] at hname
            exact absurd hname he
        obtain ⟨x, hx, hxname⟩ := ih ⟨d, hmem, hname⟩
        refine ⟨x, Text.mem_placeBy_of_ne hx ?_, hxname⟩
        rw [hxname]
        exact Ne.symm he

/-- A category has a declaration of a name where there is one among all declarations. -/
theorem exists_mem_group_iff : (∃ d ∈ (ofList ds).group c, d.name = n) ↔
    ∃ d ∈ ds, Category.ofKind? d.kind = some c ∧ d.name = n := by
  rw [group_ofList, groupOf, exists_mem_ordered_iff]
  simp only [List.mem_filter, decide_eq_true_eq, and_assoc]

/-! ## Catalogs of distinct declarations -/

theorem mem_group_iff (h : Distinct ds) :
    d ∈ (ofList ds).group c ↔ d ∈ ds ∧ Category.ofKind? d.kind = some c := by
  rw [group_ofList]
  constructor
  · exact mem_of_mem_groupOf
  · rintro ⟨hd, hc⟩
    obtain ⟨xs, ys, rfl⟩ := List.append_of_mem hd
    refine mem_groupOf hc fun e he hec hname => ?_
    have hlater := (List.pairwise_cons.1 (List.pairwise_append.1 h).2.1).1 e he
    exact hlater ⟨c, hc, hec, hname.symm⟩

/-- **Distinct declarations have one catalog**, in whichever order they stand. -/
theorem ofList_eq_of_mem_iff (hds : Distinct ds) (hes : Distinct es)
    (h : ∀ d, d ∈ ds ↔ d ∈ es) : ofList ds = ofList es :=
  ofList_ext fun c d => by rw [mem_group_iff hds, mem_group_iff hes, h]

end Catalog

end ApiPages
