import ApiPages.Proofs.Catalog.Distinct

/-!
# Rivals for a page

The declarations that would get the same page are rivals, and the last of them is in the catalog. So
the catalog is given by the last rival for every page (`ofList_congr`), and the order of declarations
that have no rivals among each other does not matter (`ofList_append_of_perm`).
-/

namespace ApiPages.Catalog

variable {d : Declaration} {ds es xs ys : List Declaration} {c : Category} {n : String}

/-- The declarations that would get the page of a category and a name, in order. -/
def rivals (c : Category) (n : String) (ds : List Declaration) : List Declaration :=
  (ds.filter fun d => Category.ofKind? d.kind = some c).filter fun d => d.name = n

theorem rivals_append (c : Category) (n : String) (ds es : List Declaration) :
    rivals c n (ds ++ es) = rivals c n ds ++ rivals c n es := by
  simp only [rivals, List.filter_append]

/-- The last declaration of a name has the place of the name. -/
theorem mem_ordered_iff :
    d ∈ ordered ds ↔ (ds.filter fun e => e.name = d.name).getLast? = some d := by
  induction ds using List.reverseRecOn with
  | nil => simp [ordered]
  | append_singleton ds e ih =>
    have hself : e ∈ Text.placeBy (·.name) e (ordered ds) := Text.mem_placeBy_self e _
    rw [ordered_append_singleton, List.filter_append]
    by_cases hname : e.name = d.name
    · -- the place is taken by the last one, and there is one place for the name
      rw [List.filter_cons_of_pos (by simpa using hname), List.filter_nil, List.getLast?_concat,
        Option.some.injEq]
      constructor
      · intro hd
        exact ((ordered_ordered ds).placeBy e).eq_of_key_eq hself hd hname
      · rintro rfl
        exact hself
    · rw [List.filter_cons_of_neg (by simpa using hname), List.filter_nil, List.append_nil, ← ih]
      constructor
      · intro hd
        refine (Text.mem_of_mem_placeBy hd).resolve_left ?_
        rintro rfl
        exact hname rfl
      · intro hd
        exact Text.mem_placeBy_of_ne hd (Ne.symm hname)

theorem mem_group_iff_rivals :
    d ∈ (ofList ds).group c ↔ (rivals c d.name ds).getLast? = some d := by
  rw [group_ofList]
  exact mem_ordered_iff

/-- **The last rival for every page gives the catalog.** -/
theorem ofList_congr (h : ∀ c n, (rivals c n ds).getLast? = (rivals c n es).getLast?) :
    ofList ds = ofList es :=
  ofList_ext fun c d => by rw [mem_group_iff_rivals, mem_group_iff_rivals, h]

/-- A declaration has no rival among distinct ones. -/
theorem Distinct.rivals_eq (h : Distinct xs) (c : Category) (n : String) :
    rivals c n xs = [] ∨ ∃ d, rivals c n xs = [d] := by
  have hrivals : Distinct (rivals c n xs) := (h.filter _).filter _
  have hpage : ∀ d ∈ rivals c n xs, Category.ofKind? d.kind = some c ∧ d.name = n := by
    intro d hd
    obtain ⟨hmem, hname⟩ := List.mem_filter.1 hd
    exact ⟨of_decide_eq_true (List.mem_filter.1 hmem).2, of_decide_eq_true hname⟩
  match hxs : rivals c n xs with
  | [] => exact .inl rfl
  | [d] => exact .inr ⟨d, rfl⟩
  | d :: e :: _ =>
    rw [hxs] at hrivals hpage
    obtain ⟨hdc, hdn⟩ := hpage d (by simp)
    obtain ⟨hec, hen⟩ := hpage e (by simp)
    have hne := (List.pairwise_cons.1 hrivals).1 e (by simp)
    exact absurd ⟨c, hdc, hec, hdn.trans hen.symm⟩ hne

/-- Distinct declarations may come in any order behind others. -/
theorem ofList_append_of_perm (h : Distinct xs) (hperm : xs.Perm ys) (ds : List Declaration) :
    ofList (ds ++ xs) = ofList (ds ++ ys) := by
  refine ofList_congr fun c n => ?_
  have hrivals : (rivals c n xs).Perm (rivals c n ys) := (hperm.filter _).filter _
  have hsame : rivals c n xs = rivals c n ys := by
    rcases h.rivals_eq c n with hxs | ⟨d, hxs⟩
    · rw [hxs] at hrivals ⊢
      exact hrivals.nil_eq
    · rw [hxs] at hrivals ⊢
      exact (List.singleton_perm.1 hrivals)
  rw [rivals_append, rivals_append, hsame]

end ApiPages.Catalog
