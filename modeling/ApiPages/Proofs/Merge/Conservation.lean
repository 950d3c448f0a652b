import ApiPages.Proofs.Merge.Growth

/-!
# Merging loses nothing

The declarations that come out of a merge are those that went in, with the extensions gone into
their targets: no declaration below the top level is lost or there twice, and each stands where the
fates of the extensions say.
-/

namespace ApiPages.Merge

open Declaration (at? countAll newNames innerNodes nodesAll head)

/-- What a merge of `ds` into `base` and kept extensions conserves, given the fates of the
extensions. -/
structure Conserves (ds base kept : List Declaration) (fs : List Fate) : Prop where
  /-- Every extension has one fate, in their order. -/
  fates : fs.map Fate.ext = ds.filter Declaration.isExtension
  /-- Extensions are folded into types only. -/
  targets : ∀ f ∈ fs, ∀ p, f.target = some p →
    ∃ d, at? base p = some d ∧ d.kind.isExtendable = true
  /-- What is no extension is there, in order and at every depth, with what was folded into it. -/
  grown : AssembledAll (foldedAt fs) (ds.filter fun d => !d.isExtension) base
  /-- Names of extensions without a target are kept in the order of their first appearance. -/
  names : kept.map (·.name) = ((unfolded fs).map (·.name)).eraseDups
  distinct : (kept.map (·.name)).Nodup
  extensions : ∀ d ∈ kept, d.isExtension = true
  /-- What is kept under a name has the head of the first extension of that name. -/
  combined : ∀ d ∈ kept, ∃ e es, (unfolded fs).filter (fun x => x.name = d.name) = e :: es ∧
    d.head = e.head ∧ d.members = (e :: es).flatMap (·.members) ∧
    d.inheritance = e.inheritance ++ newNames e.inheritance (es.flatMap (·.inheritance))
  /-- Below the top level there is what was there. -/
  contents : ((innerNodes (base ++ kept)).map head).Perm ((innerNodes ds).map head)
  fewer : kept.length ≤ (ds.filter Declaration.isExtension).length
  /-- Only extensions at the top level that are not kept count no more. -/
  count : countAll (base ++ kept) +
    ((ds.filter Declaration.isExtension).length - kept.length) = countAll ds

theorem innerNodes_fold_perm {s : State} (hs : Resolves s) (e : Declaration) :
    ((innerNodes ((fold s e).base ++ (fold s e).external)).map head).Perm
      ((innerNodes (s.base ++ s.external)).map head ++ (nodesAll e.members).map head) := by
  rw [Declaration.innerNodes_append, Declaration.innerNodes_append, List.map_append,
    List.map_append]
  cases hpath : s.targets.pathOf? e.name with
  | none =>
    rw [fold_of_none hpath, List.append_assoc]
    exact (innerNodes_keep_perm e s.external).append_left _
  | some path =>
    obtain ⟨target, htarget, -⟩ := hs _ _ hpath
    rw [fold_of_some hpath htarget]
    exact Declaration.perm_append_more
      (Declaration.innerNodes_modifyAt_perm (adds_absorb e) htarget) _

/-- What is below the top level after some steps was there before or came with an extension. -/
theorem innerNodes_foldl_perm {s : State} (hs : Resolves s) (es : List Declaration) :
    ((innerNodes ((es.foldl fold s).base ++ (es.foldl fold s).external)).map head).Perm
      ((innerNodes (s.base ++ s.external)).map head ++ (innerNodes es).map head) := by
  induction es generalizing s with
  | nil => simp [innerNodes]
  | cons e es ih =>
    refine (ih (resolves_fold hs e)).trans (((innerNodes_fold_perm hs e).append_right _).trans ?_)
    rw [List.append_assoc, ← List.map_append]
    rfl

theorem innerNodes_mergeExtensions_perm (ds : List Declaration) :
    ((innerNodes (mergeExtensions ds)).map head).Perm ((innerNodes ds).map head) := by
  have hpart : ((ds.filter fun d => !d.isExtension) ++ ds.filter Declaration.isExtension).Perm ds :=
    List.perm_append_comm.trans (List.filter_append_perm Declaration.isExtension ds)
  calc ((innerNodes (mergeExtensions ds)).map head).Perm
        ((innerNodes ((start ds).base ++ (start ds).external)).map head ++
          (innerNodes (ds.filter Declaration.isExtension)).map head) :=
          innerNodes_foldl_perm (resolves_start ds) _
    _ = (innerNodes ((ds.filter fun d => !d.isExtension) ++
          ds.filter Declaration.isExtension)).map head := by
          rw [Declaration.innerNodes_append, List.map_append]
          simp [start, innerNodes]
    List.Perm _ ((innerNodes ds).map head) := (hpart.flatMap_right _).map _

/-- **Merging loses, duplicates and reorders nothing.** -/
theorem mergeExtensions_conserves (ds : List Declaration) :
    ∃ base kept, mergeExtensions ds = base ++ kept ∧
      Conserves ds base kept (fates (start ds) (ds.filter Declaration.isExtension)) := by
  have h := accounted_run ds
  have hext := map_ext_fates (start ds) (ds.filter Declaration.isExtension)
  have hunf := unfolded_sublist (fates (start ds) (ds.filter Declaration.isExtension))
  rw [hext] at hunf
  have hperm := innerNodes_mergeExtensions_perm ds
  have hfew : (run ds).external.length ≤ (ds.filter Declaration.isExtension).length := by
    rw [h.external]
    exact Nat.le_trans (length_keepAll_le _) hunf.length_le
  refine ⟨(run ds).base, (run ds).external, rfl, hext, ?_, h.base, ?_, ?_,
    fun d hd => isExtension_of_mem_external hd, ?_, hperm, hfew, ?_⟩
  · intro f hf p hp
    exact h.resolves _ _ (h.found f hf p hp)
  · rw [h.external, map_name_keepAll]
  · rw [h.external]
    exact nodup_keepAll _
  · intro d hd
    rw [h.external] at hd
    obtain ⟨e, es, hf, rfl⟩ := mem_keepAll hd
    exact ⟨e, es, hf, combined_head e es, combined_members e es, combined_inheritance e es⟩
  · have hlen : (innerNodes (mergeExtensions ds)).length = (innerNodes ds).length := by
      simpa using hperm.length_eq
    have hbase := h.base.1
    have hpart : ds.length = (ds.filter Declaration.isExtension).length +
        (ds.filter fun d => !d.isExtension).length := by
      simpa using List.length_eq_length_filter_add Declaration.isExtension
    rw [mergeExtensions] at hlen
    rw [Declaration.countAll_eq_length_add_innerNodes,
      Declaration.countAll_eq_length_add_innerNodes, hlen, List.length_append]
    omega

end ApiPages.Merge
