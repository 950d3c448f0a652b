import ApiPages.Proofs.Declaration.Pruned
import ApiPages.Proofs.Merge.Steps

/-!
# Merging without hidden leaves

Hidden leaves do not matter to a merge: merging what is left without them gives what is left of the
merged declarations (`mergeExtensions_pruneAll`). Two runs go in step, one with the leaves and one
without. Their tables have the same names, under paths that differ by the leaves left out.
-/

namespace ApiPages.Merge

open Declaration (prune pruneAll prunedPath prunedIndex membersAt isHiddenLeaf)

variable {least : Access} {s s' : State} {d : Declaration} {ds kept : List Declaration}
  {f : List Nat → List Nat} {p p' : List Nat} {i i' : Nat}

/-! ## What is offered -/

/-- Whether a map of paths leads from the places of declarations, from an index on and below a path,
to those of the pruned ones. -/
def Leads (least : Access) (f : List Nat → List Nat) (p p' : List Nat) (i i' : Nat)
    (ds : List Declaration) : Prop :=
  ∀ j q, f (p ++ (i + j) :: q) =
    p' ++ (i' + prunedIndex least ds j) :: prunedPath least (membersAt ds j) q

theorem Leads.head (h : Leads least f p p' i i' (d :: ds)) (q : List Nat) :
    f (p ++ [i] ++ q) = p' ++ [i'] ++ prunedPath least d.members q := by
  rw [List.append_assoc, List.append_assoc]
  exact h 0 q

theorem Leads.tail (h : Leads least f p p' i i' (d :: ds)) :
    Leads least f p p' (i + 1) (i' + if d.isHiddenLeaf least then 0 else 1) ds := by
  intro j q
  have hj := h (j + 1) q
  rw [Declaration.prunedIndex_succ] at hj
  rw [Nat.add_assoc i, Nat.add_comm 1 j, Nat.add_assoc i']
  exact hj

/-- Only kinds that are left in hold types. -/
theorem isExtendable_of_isHiddenLeaf (h : d.isHiddenLeaf least = true) :
    d.kind.isExtendable = false := by
  by_contra hk
  rw [Bool.not_eq_false] at hk
  rw [Declaration.isHiddenLeaf_of_isExtendable hk] at h
  cases h

mutual

theorem offers_prune (least : Access) (f : List Nat → List Nat) (name : String)
    {p p' : List Nat} : (d : Declaration) →
    (∀ q, f (p ++ q) = p' ++ prunedPath least d.members q) →
    offers name p' (prune least d) = (offers name p d).map (Prod.map id f)
  | ⟨kind, _, _, _, _, _, members, _⟩, hf => by
    have hleads : Leads least f p p' 0 0 members := by
      intro j q
      rw [Nat.zero_add, Nat.zero_add, hf]
      rfl
    have hmembers := memberOffers_prune least f name members hleads
    have hself : f p = p' := by simpa [prunedPath] using hf []
    rw [prune, offers, offers, hmembers, List.map_append]
    split
    · simp [hself]
    · rfl

theorem memberOffers_prune (least : Access) (f : List Nat → List Nat) (parent : String)
    {p p' : List Nat} {i i' : Nat} : (ds : List Declaration) → Leads least f p p' i i' ds →
    memberOffers parent p' i' (pruneAll least ds) =
      (memberOffers parent p i ds).map (Prod.map id f)
  | [], _ => rfl
  | d :: ds, hf => by
    have htail := memberOffers_prune least f parent ds hf.tail
    rw [pruneAll, memberOffers, List.map_append, ← htail]
    cases hhidden : d.isHiddenLeaf least with
    | true => simp [isExtendable_of_isHiddenLeaf hhidden]
    | false =>
      have hhead := offers_prune least f (qualify parent d.name) d hf.head
      rw [if_neg (by simp), memberOffers, Declaration.prune_kind, Declaration.prune_name, hhead]
      split <;> rfl

end

/-- Nothing is offered for a hidden leaf. -/
theorem offers_of_isHiddenLeaf (h : d.isHiddenLeaf least = true) (name : String)
    (p : List Nat) : offers name p d = [] := by
  have hkind := isExtendable_of_isHiddenLeaf h
  have hmembers : d.members = [] := by
    simp only [isHiddenLeaf, Bool.and_eq_true, List.isEmpty_iff] at h
    exact h.1.2
  cases d
  rw [offers]
  simp_all [memberOffers]

theorem topOffers_prune (ds : List Declaration) (hf : Leads least f [] [] i i' ds) :
    topOffers i' (pruneAll least ds) = (topOffers i ds).map (Prod.map id f) := by
  induction ds generalizing i i' with
  | nil => rfl
  | cons d ds ih =>
    rw [pruneAll, topOffers, List.map_append, ← ih hf.tail]
    cases hhidden : d.isHiddenLeaf least with
    | true => simp [offers_of_isHiddenLeaf hhidden]
    | false =>
      have hhead := offers_prune least f d.name d hf.head
      rw [if_neg (by simp), topOffers, Declaration.prune_name]
      exact congrArg (· ++ _) hhead

/-! ## What is kept -/

theorem prune_absorb (least : Access) (d e : Declaration) :
    prune least (absorb d e) = absorb (prune least d) (prune least e) := by
  simp only [Declaration.prune_eq, absorb, Declaration.inherit, Declaration.addMembers,
    Declaration.pruneAll_append]

theorem keep_prune (least : Access) (e : Declaration) (kept : List Declaration) :
    keep (prune least e) (kept.map (prune least)) = (keep e kept).map (prune least) := by
  induction kept with
  | nil => rfl
  | cons d kept ih =>
    rw [List.map_cons, keep, keep, Declaration.prune_name, Declaration.prune_name, ih]
    split
    · rw [List.map_cons, prune_absorb]
    · rfl

theorem pruneAll_of_extensions (h : ∀ d ∈ ds, d.isExtension = true) :
    pruneAll least ds = ds.map (prune least) := by
  rw [Declaration.pruneAll_eq_map_filter, List.filter_eq_self.2]
  intro d hd
  rw [Declaration.isHiddenLeaf_of_isExtension (h d hd)]
  rfl

theorem filter_pruneAll {keeps : Declaration → Bool}
    (h : ∀ d, keeps (prune least d) = keeps d) (ds : List Declaration) :
    (pruneAll least ds).filter keeps = pruneAll least (ds.filter keeps) := by
  simp only [Declaration.pruneAll_eq_map_filter, List.filter_map, List.filter_filter]
  congr 1
  refine List.filter_congr fun d _ => ?_
  rw [Function.comp_apply, h, Bool.and_comm]

/-! ## Two runs in step -/

/-- Whether a state is what is left of another one without hidden leaves. -/
structure Prunes (least : Access) (s s' : State) : Prop where
  base : s'.base = pruneAll least s.base
  targets : ∀ n, s'.targets.pathOf? n = (s.targets.pathOf? n).map (prunedPath least s.base)
  external : s'.external = s.external.map (prune least)

theorem isExtension_prune (least : Access) (d : Declaration) :
    (prune least d).isExtension = d.isExtension :=
  Declaration.isExtension_eq_of_head (Declaration.prune_head least d)

theorem prunes_start (least : Access) (ds : List Declaration) :
    Prunes least (start ds) (start (pruneAll least ds)) := by
  have hbase : (start (pruneAll least ds)).base = pruneAll least (start ds).base :=
    filter_pruneAll (fun d => by rw [isExtension_prune]) ds
  refine ⟨hbase, fun n => ?_, rfl⟩
  rw [pathOf?_start, pathOf?_start, hbase, ← Targets.pathOf?_map]
  refine congrArg (Targets.pathOf? · n) (topOffers_prune _ fun j q => ?_)
  rw [Nat.zero_add, Nat.zero_add]
  rfl

/-- One more extension is taken in by both, with its leaves or without. -/
theorem Prunes.fold (h : Prunes least s s') (hs : Resolves s) (e : Declaration) :
    Prunes least (fold s e) (fold s' (prune least e)) := by
  have htarget' : s'.targets.pathOf? (prune least e).name =
      (s.targets.pathOf? e.name).map (prunedPath least s.base) := by
    rw [Declaration.prune_name]
    exact h.targets e.name
  cases hpath : s.targets.pathOf? e.name with
  | none =>
    rw [hpath] at htarget'
    rw [fold_of_none hpath, fold_of_none htarget']
    refine ⟨h.base, h.targets, ?_⟩
    rw [h.external, keep_prune]
  | some path =>
    obtain ⟨target, htarget, hkind⟩ := hs _ _ hpath
    have hat : Declaration.at? s'.base (prunedPath least s.base path) =
        some (prune least target) := by
      rw [h.base]
      exact Declaration.at?_pruneAll htarget (Declaration.isHiddenLeaf_of_isExtendable hkind)
    rw [hpath] at htarget'
    rw [fold_of_some hpath htarget, fold_of_some htarget' hat]
    refine ⟨?_, fun n => ?_, h.external⟩
    · rw [h.base]
      exact (Declaration.pruneAll_modifyAt (adds_absorb e) (fun d => prune_absorb least d e)
        htarget hkind).symm
    · -- paths that were there stay, and those of the new types are behind the members left
      have hoffers := memberOffers_prune least
        (prunedPath least (Declaration.modifyAt (absorb · e) s.base path)) target.name e.members
        (Declaration.prunedPath_added (adds_absorb e) hkind htarget)
      rw [Targets.pathOf?_insertAll, Targets.pathOf?_insertAll, h.targets, Declaration.prune_name,
        Declaration.prune_members, Declaration.prune_members, hoffers, Targets.pathOf?_map,
        Option.map_or]
      congr 1
      refine Option.map_congr fun q hq => ?_
      obtain ⟨d, hd, -⟩ := hs n q hq
      exact (Declaration.prunedPath_modifyAt (adds_absorb e) hkind htarget hd).symm

theorem Prunes.foldl (h : Prunes least s s') (hs : Resolves s) (es : List Declaration) :
    Prunes least (es.foldl Merge.fold s) ((es.map (prune least)).foldl Merge.fold s') := by
  induction es generalizing s s' with
  | nil => exact h
  | cons e es ih => exact ih (h.fold hs e) (resolves_fold hs e)

theorem prunes_run (least : Access) (ds : List Declaration) :
    Prunes least (run ds) (run (pruneAll least ds)) := by
  have hextensions : (pruneAll least ds).filter Declaration.isExtension =
      (ds.filter Declaration.isExtension).map (prune least) := by
    rw [filter_pruneAll (isExtension_prune least), pruneAll_of_extensions]
    exact fun d hd => (List.mem_filter.1 hd).2
  rw [run, run, hextensions]
  exact (prunes_start least ds).foldl (resolves_start ds) _

/-- **Hidden leaves do not matter to a merge.** -/
theorem mergeExtensions_pruneAll (least : Access) (ds : List Declaration) :
    mergeExtensions (pruneAll least ds) = pruneAll least (mergeExtensions ds) := by
  have h := prunes_run least ds
  have hexternal : pruneAll least (run ds).external = (run ds).external.map (prune least) :=
    pruneAll_of_extensions fun d hd => isExtension_of_mem_external hd
  rw [mergeExtensions, mergeExtensions, h.base, h.external, Declaration.pruneAll_append, hexternal]

end ApiPages.Merge
