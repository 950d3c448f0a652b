import ApiPages.Proofs.Merge.FullNames

/-!
# Which extensions are left

An extension is left at the top level when the table had no type of its name at its turn. A type
that was there by then, from the beginning or brought by an extension before, takes the extensions
of its name in; one that is brought by a later extension comes too late for them. A merge of what a
merge gives changes nothing just when no extension is left whose type is there, which is to say that
no type came too late (`mergeExtensions_complete`).
-/

namespace ApiPages.Merge

variable {ds es : List Declaration} {d e : Declaration} {s : State} {n : String}

/-! ## What a merge gives -/

theorem extensions_mergeExtensions (ds : List Declaration) :
    extensions (mergeExtensions ds) = (run ds).external := by
  have hbase : (run ds).base.filter Declaration.isExtension = [] :=
    List.filter_eq_nil_iff.2 fun d hd => by simp [isExtension_of_mem_base hd]
  have hexternal : (run ds).external.filter Declaration.isExtension = (run ds).external :=
    List.filter_eq_self.2 fun d hd => isExtension_of_mem_external hd
  rw [extensions, mergeExtensions, List.filter_append, hbase, hexternal, List.nil_append]

theorem filter_mergeExtensions (ds : List Declaration) :
    ((mergeExtensions ds).filter fun d => !d.isExtension) = (run ds).base := by
  have hbase : ((run ds).base.filter fun d => !d.isExtension) = (run ds).base :=
    List.filter_eq_self.2 fun d hd => by simp [isExtension_of_mem_base hd]
  have hexternal : ((run ds).external.filter fun d => !d.isExtension) = [] :=
    List.filter_eq_nil_iff.2 fun d hd => by simp [isExtension_of_mem_external hd]
  rw [mergeExtensions, List.filter_append, hbase, hexternal, List.append_nil]

theorem typeAt_mergeExtensions_iff {p : List Nat} :
    TypeAt (mergeExtensions ds) n p ↔ TypeAt (run ds).base n p :=
  typeAt_append_iff fun _ hd => isExtension_of_mem_external hd

/-! ## Extensions that are left -/

/-- Whether an extension of a name is left at the top level. -/
def IsLeft (ds : List Declaration) (n : String) : Prop :=
  ∃ d ∈ mergeExtensions ds, d.isExtension = true ∧ d.name = n

theorem isLeft_iff_mem_external : IsLeft ds n ↔ n ∈ (run ds).external.map (·.name) := by
  rw [← extensions_mergeExtensions, List.mem_map]
  simp only [extensions, List.mem_filter, and_assoc]
  exact Iff.rfl

/-- An extension of a name is left when the table had none for it at the turn of some extension of
that name. -/
theorem isLeft_iff : IsLeft ds n ↔
    ∃ i e, (extensions ds)[i]? = some e ∧ e.name = n ∧ (after ds i).targets.pathOf? n = none := by
  have hexternal : (run ds).external = keepAll (unfolded (fates (start ds) (extensions ds))) :=
    (accounted_run ds).external
  rw [isLeft_iff_mem_external, hexternal, map_name_keepAll, List.mem_eraseDups, List.mem_map]
  simp only [mem_unfolded_iff]
  constructor
  · rintro ⟨e, ⟨i, he, hnone⟩, rfl⟩
    exact ⟨i, e, he, rfl, hnone⟩
  · rintro ⟨i, e, he, rfl, hnone⟩
    exact ⟨e, ⟨i, he, hnone⟩, rfl⟩

/-- A faithful table has no path for a name just when there is no type of the name. -/
theorem Faithful.pathOf?_eq_none_iff (hs : Faithful s) :
    s.targets.pathOf? n = none ↔ ¬ ∃ p, TypeAt s.base n p := by
  constructor
  · rintro hnone ⟨p, hp⟩
    obtain ⟨q, hq⟩ := hs.complete n p hp
    cases hnone.symm.trans hq
  · intro h
    cases hpath : s.targets.pathOf? n with
    | none => rfl
    | some p => exact absurd ⟨p, hs.entries n p (Targets.mem_of_pathOf? hpath)⟩ h

/-- Whether at the turn of every extension of a name there was a type of that name. -/
def InTime (ds : List Declaration) (n : String) : Prop :=
  ∀ i e, (extensions ds)[i]? = some e → e.name = n → ∃ p, TypeAt (after ds i).base n p

/-- Types that were there from the beginning leave no extensions of their names. -/
theorem not_isLeft_of_typeAt {p : List Nat}
    (h : TypeAt (ds.filter fun d => !d.isExtension) n p) : ¬ IsLeft ds n := by
  rw [isLeft_iff]
  rintro ⟨i, e, -, -, hnone⟩
  obtain ⟨q, hq⟩ := (faithful_start ds).complete n p h
  -- entries of the table are never lost, so the path is there at the turn of every extension
  have hkept : (after ds i).targets.pathOf? n = some q :=
    after_mono (P := fun s => s.targets.pathOf? n = some q) (fun _ e hs => pathOf?_fold hs e)
      (Nat.zero_le i) hq
  cases hnone.symm.trans hkept

theorem isLeft_iff_not_inTime
    (halike : ∀ i e, (extensions ds)[i]? = some e → QualifiedAlike (after ds i) e) :
    IsLeft ds n ↔ ¬ InTime ds n := by
  have hnone : ∀ i, (after ds i).targets.pathOf? n = none ↔ ¬ ∃ p, TypeAt (after ds i).base n p :=
    fun i => (faithful_after fun j _ e he => halike j e he).pathOf?_eq_none_iff
  rw [isLeft_iff]
  constructor
  · rintro ⟨i, e, he, hname, hi⟩ htime
    exact (hnone i).1 hi (htime i e he hname)
  · intro hlate
    by_contra hleft
    refine hlate fun i e he hname => ?_
    by_contra habsent
    exact hleft ⟨i, e, he, hname, (hnone i).2 habsent⟩

/-! ## Merging again -/

/-- Extensions without a target are kept one after another. -/
theorem foldl_fold_of_none (h : ∀ e ∈ es, s.targets.pathOf? e.name = none) :
    es.foldl fold s = { s with external := es.foldl (fun kept e => keep e kept) s.external } := by
  induction es generalizing s with
  | nil => rfl
  | cons e es ih =>
    rw [List.foldl_cons, fold_of_none (h e List.mem_cons_self)]
    exact ih fun x hx => h x (List.mem_cons_of_mem _ hx)

/-- **Merging again changes nothing** just when no extension is left whose type is there. -/
theorem mergeExtensions_mergeExtensions_iff :
    mergeExtensions (mergeExtensions ds) = mergeExtensions ds ↔
      ∀ n p, TypeAt (mergeExtensions ds) n p → ¬ IsLeft ds n := by
  constructor
  · -- what is left is left again, though its type is there from the beginning now
    intro hsame n p hp hleft
    rw [typeAt_mergeExtensions_iff, ← filter_mergeExtensions] at hp
    refine not_isLeft_of_typeAt hp ?_
    rw [IsLeft, hsame]
    exact hleft
  · -- no name that is left has a type, so the extensions are kept once more, one for each name
    intro hall
    have hnone : ∀ d ∈ (run ds).external,
        (start (mergeExtensions ds)).targets.pathOf? d.name = none := by
      intro d hd
      rw [(faithful_start _).pathOf?_eq_none_iff]
      rintro ⟨p, hp⟩
      have htype : TypeAt (run ds).base d.name p := filter_mergeExtensions ds ▸ hp
      exact hall d.name p (typeAt_mergeExtensions_iff.2 htype)
        (isLeft_iff_mem_external.2 (List.mem_map_of_mem hd))
    have hnodup : ((run ds).external.map (·.name)).Nodup := by
      rw [(accounted_run ds).external]
      exact nodup_keepAll _
    have hrun : run (mergeExtensions ds) =
        { start (mergeExtensions ds) with external := keepAll (run ds).external } := by
      rw [run, ← extensions, extensions_mergeExtensions, foldl_fold_of_none hnone]
      rfl
    calc mergeExtensions (mergeExtensions ds)
        = (start (mergeExtensions ds)).base ++ keepAll (run ds).external := by
          rw [mergeExtensions, hrun]
      _ = mergeExtensions ds := by
          rw [keepAll_of_nodup hnodup, mergeExtensions]
          exact congrArg (· ++ _) (filter_mergeExtensions ds)

/-- **Merging is complete for types that are there in time.** What stands among the declarations
that are no extensions leaves no extension of its name, and merging again changes nothing just when
no extension is left whose type is there. Where extensions qualify what they bring as their targets
do, an extension is left just when there was no type of its name at its turn, or at that of another
extension of the name; so merging again changes nothing just when all types that there are in the
end were there in time. -/
theorem mergeExtensions_complete (ds : List Declaration) :
    (∀ n p, TypeAt (ds.filter fun d => !d.isExtension) n p → ¬ IsLeft ds n) ∧
    (mergeExtensions (mergeExtensions ds) = mergeExtensions ds ↔
      ∀ n p, TypeAt (mergeExtensions ds) n p → ¬ IsLeft ds n) ∧
    ((∀ i e, (extensions ds)[i]? = some e → QualifiedAlike (after ds i) e) →
      (∀ n, IsLeft ds n ↔ ¬ InTime ds n) ∧
      (mergeExtensions (mergeExtensions ds) = mergeExtensions ds ↔
        ∀ n p, TypeAt (mergeExtensions ds) n p → InTime ds n)) := by
  refine ⟨fun n p hp => not_isLeft_of_typeAt hp, mergeExtensions_mergeExtensions_iff, ?_⟩
  intro halike
  have hleft : ∀ n, IsLeft ds n ↔ ¬ InTime ds n := fun n => isLeft_iff_not_inTime halike
  refine ⟨hleft, ?_⟩
  rw [mergeExtensions_mergeExtensions_iff]
  simp only [hleft, not_not]

/-- An extension that brings a struct. -/
def bringsStruct : Declaration :=
  .bare .typeExtension "Foo" [.bare .structType "Foo.Bar" []]

/-- An extension of that struct. -/
def extendsStruct : Declaration :=
  .bare .typeExtension "Foo.Bar" [.bare .function "f()" []]

/-- An extension that comes after the one that brings its type is not left, nor is one whose type
is there from the beginning. -/
theorem not_isLeft_after_struct :
    (∀ i e, (extensions [.bare .structType "Foo" [], bringsStruct, extendsStruct])[i]? = some e →
      QualifiedAlike (after [.bare .structType "Foo" [], bringsStruct, extendsStruct] i) e) ∧
    ¬ IsLeft [.bare .structType "Foo" [], bringsStruct, extendsStruct] "Foo.Bar" ∧
    ¬ IsLeft [.bare .structType "Foo" [], bringsStruct, extendsStruct] "Foo" := by
  have hfull : Declaration.Everywhere InFull
      [.bare .structType "Foo" [], bringsStruct, extendsStruct] := by
    unfold Declaration.Everywhere
    decide +kernel
  have halike := qualifiedAlike_of_inFull hfull
  obtain ⟨hthere, -, hothers⟩ :=
    mergeExtensions_complete [.bare .structType "Foo" [], bringsStruct, extendsStruct]
  refine ⟨fun i e _ => halike i e, ?_, hthere "Foo" [0] ⟨_, rfl, rfl, rfl, rfl⟩⟩
  rw [(hothers fun i e _ => halike i e).1, not_not]
  intro i e he hname
  match i with
  | 0 =>
    cases he
    exact absurd hname (by decide)
  | 1 => exact ⟨[0, 0], _, rfl, rfl, _, rfl, rfl, rfl, rfl⟩

/-- One that comes before it is left, and is taken in when the outcome is merged again. -/
theorem not_complete_before_struct :
    (¬ ∀ (ds : List Declaration) (n : String) (p : List Nat),
      TypeAt (mergeExtensions ds) n p → ¬ IsLeft ds n) ∧
    ¬ ∀ ds : List Declaration, mergeExtensions (mergeExtensions ds) = mergeExtensions ds := by
  constructor
  · intro h
    refine h [extendsStruct, .bare .structType "Foo" [], bringsStruct] "Foo.Bar" [0, 0]
      ⟨_, rfl, rfl, _, rfl, rfl, rfl, rfl⟩ ?_
    unfold IsLeft
    decide +kernel
  · intro h
    have hlength := congrArg List.length
      (h [extendsStruct, .bare .structType "Foo" [], bringsStruct])
    exact absurd hlength (by decide +kernel)

end ApiPages.Merge
