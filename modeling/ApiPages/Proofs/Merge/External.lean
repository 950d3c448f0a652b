import ApiPages.Proofs.Merge.Growth

/-!
# Extensions of types that are not there

A type is external when it has no target after the merge. Its extensions are all kept, combined into
the first of them, and their order has no influence on anything else.
-/

namespace ApiPages.Merge

variable {T : String} {ds ds' : List Declaration} {d e : Declaration} {es : List Declaration}

/-- Whether a declaration is an extension of the type with a name. -/
def extends? (T : String) (d : Declaration) : Bool :=
  d.isExtension && d.name = T

/-- The extensions of a type among some declarations, in order. -/
def extensionsOf (T : String) (ds : List Declaration) : List Declaration :=
  ds.filter (extends? T)

/-- There is no type of the name to fold into, also not one that comes in with an extension. -/
def IsExternal (T : String) (ds : List Declaration) : Prop :=
  (run ds).targets.pathOf? T = none

/-- Declarations that differ in the order of the extensions of a type only, wherever these stand. -/
structure Reordered (T : String) (ds ds' : List Declaration) : Prop where
  others : ds.filter (fun d => !extends? T d) = ds'.filter (fun d => !extends? T d)
  extensions : (extensionsOf T ds).Perm (extensionsOf T ds')

theorem extensionsOf_eq_filter (T : String) (ds : List Declaration) :
    extensionsOf T ds = (ds.filter Declaration.isExtension).filter fun d => d.name = T := by
  rw [List.filter_filter]
  refine List.filter_congr fun d _ => ?_
  simp [extends?, Bool.and_comm]

theorem extensionsOf_append (T : String) (xs ys : List Declaration) :
    extensionsOf T (xs ++ ys) = extensionsOf T xs ++ extensionsOf T ys :=
  List.filter_append ..

theorem kind_of_mem_extensionsOf (h : d ∈ extensionsOf T ds) : d.kind = .typeExtension := by
  have hd := (List.mem_filter.1 h).2
  simp [extends?, Declaration.isExtension] at hd
  exact hd.1

/-! ## They are combined -/

/-- A name that stays without a target was never folded. -/
theorem filter_unfolded {s : State} (h : (es.foldl fold s).targets.pathOf? T = none) :
    (unfolded (fates s es)).filter (fun d => d.name = T) = es.filter fun d => d.name = T := by
  induction es generalizing s with
  | nil => rfl
  | cons e es ih =>
    have hT : s.targets.pathOf? T = none := pathOf?_eq_none_of_foldl h
    rw [List.foldl_cons] at h
    have htail := ih h
    unfold unfolded at htail
    cases hpath : s.targets.pathOf? e.name with
    | none => simp [unfolded, fates, hpath, htail, List.filter_cons]
    | some p =>
      have hne : e.name ≠ T := by
        rintro rfl
        simp [hT] at hpath
      simp [unfolded, fates, hpath, htail, hne]

theorem filter_external (h : IsExternal T ds) :
    (run ds).external.filter (fun d => d.name = T) = combineAll (extensionsOf T ds) := by
  rw [(accounted_run ds).external, filter_keepAll, filter_unfolded h, extensionsOf_eq_filter]

theorem extensionsOf_base (T : String) (ds : List Declaration) :
    extensionsOf T (run ds).base = [] := by
  rw [extensionsOf, List.filter_eq_nil_iff]
  intro d hd
  simp [extends?, isExtension_of_mem_base hd]

/-- **The extensions of an external type stay as one**, combined into the first. -/
theorem extensionsOf_mergeExtensions (h : IsExternal T ds) :
    extensionsOf T (mergeExtensions ds) = combineAll (extensionsOf T ds) := by
  rw [mergeExtensions, extensionsOf_append, extensionsOf_base, List.nil_append,
    ← filter_external h]
  refine List.filter_congr fun d hd => ?_
  simp [extends?, isExtension_of_mem_external hd]

/-! ## Their order -/

theorem fold_congr {s s' : State} (hbase : s.base = s'.base) (htargets : s.targets = s'.targets)
    (e : Declaration) :
    (fold s e).base = (fold s' e).base ∧ (fold s e).targets = (fold s' e).targets := by
  unfold fold
  rw [hbase, htargets]
  split
  · exact ⟨rfl, rfl⟩
  · split
    · exact ⟨hbase, htargets⟩
    · exact ⟨rfl, rfl⟩

/-- The extensions of a type that has no target in the end leave no trace but among those kept. It
is enough that the type has none in the end of one of both runs. -/
theorem foldl_without {s s' : State} (hbase : s.base = s'.base) (htargets : s.targets = s'.targets)
    (es : List Declaration)
    (h : (es.foldl fold s).targets.pathOf? T = none ∨
      ((es.filter fun d => d.name ≠ T).foldl fold s').targets.pathOf? T = none) :
    (es.foldl fold s).targets = ((es.filter fun d => d.name ≠ T).foldl fold s').targets := by
  induction es generalizing s s' with
  | nil => exact htargets
  | cons e es ih =>
    by_cases he : e.name = T
    · -- the extension is kept, and the table stays as it was
      have hnone : s.targets.pathOf? e.name = none := by
        rw [he]
        rcases h with h | h
        · exact pathOf?_eq_none_of_foldl h
        · rw [htargets]
          exact pathOf?_eq_none_of_foldl h
      rw [List.filter_cons_of_neg (by simpa using he)] at h ⊢
      rw [List.foldl_cons, fold_of_none hnone] at h ⊢
      exact ih hbase htargets h
    · obtain ⟨hb, ht⟩ := fold_congr hbase htargets e
      rw [List.filter_cons_of_pos (by simpa using he)] at h ⊢
      rw [List.foldl_cons, List.foldl_cons] at h ⊢
      exact ih hb ht h

/-- What is no extension of the type stays in its order, whatever else is asked of it. -/
theorem Reordered.filter_eq (h : Reordered T ds ds') {p : Declaration → Bool}
    (hp : ∀ d, p d = true → extends? T d = false) : ds.filter p = ds'.filter p := by
  have hsame : ∀ xs : List Declaration,
      xs.filter p = (xs.filter fun d => !extends? T d).filter p := by
    intro xs
    rw [List.filter_filter]
    refine List.filter_congr fun d _ => ?_
    cases hd : p d with
    | false => rfl
    | true => simp [hp d hd]
  rw [hsame ds, hsame ds', h.others]

/-- **A type stays external** in whichever order its extensions come. -/
theorem Reordered.isExternal (h : Reordered T ds ds') (hext : IsExternal T ds) :
    IsExternal T ds' := by
  have hbase : (ds.filter fun d => !d.isExtension) = ds'.filter fun d => !d.isExtension := by
    refine h.filter_eq fun d hd => ?_
    simp at hd
    simp [extends?, hd]
  have hstart : start ds = start ds' := by
    unfold start
    rw [hbase]
  have hothers : ((ds.filter Declaration.isExtension).filter fun d => d.name ≠ T)
      = (ds'.filter Declaration.isExtension).filter fun d => d.name ≠ T := by
    rw [List.filter_filter, List.filter_filter]
    refine h.filter_eq fun d hd => ?_
    simp at hd
    simp [extends?, hd.1]
  unfold IsExternal run at hext ⊢
  have hleft := foldl_without rfl rfl (ds.filter Declaration.isExtension) (.inl hext)
  rw [hleft, hothers, hstart] at hext
  rw [foldl_without rfl rfl (ds'.filter Declaration.isExtension) (.inr hext)]
  exact hext

end ApiPages.Merge
