import ApiPages.Proofs.Merge.Swapped

/-!
# Paths that stay good

The table of a merge holds bare paths into trees that grow while the table is in use. They stay
good: members are only ever added behind those that a type has, and what an extension brings is
entered for the places behind. So every path leads to a type from the moment that it is entered, in
the middle of a step as well as between two steps, and to the same declaration to the end; a merge
that would stop at a path to nothing never does (`targets_stand`).
-/

namespace ApiPages.Merge

open Declaration (at? modifyAt)

variable {ds : List Declaration} {e : Declaration} {s s' s'' : State} {n m : String}
  {p : List Nat} {t : Targets} {i j k : Nat}

/-- Whether each name is in the table once, with a path that leads to a class, struct, enum or
protocol and belongs to no other name. -/
structure Standing (s : State) : Prop where
  once : (s.targets.map Prod.fst).Nodup
  leads : ∀ n p, (n, p) ∈ s.targets →
    p ≠ [] ∧ ∃ d, at? s.base p = some d ∧
      d.kind ∈ [Kind.classType, .structType, .enumType, .protocolType]
  apart : ∀ n m p, (n, p) ∈ s.targets → (m, p) ∈ s.targets → n = m

/-- Whether all that a state has is there in a later one: entries of the table, in their order, and
declarations, at their paths and with their heads. -/
structure Outlasts (s s' : State) : Prop where
  targets : s.targets <+: s'.targets
  head : ∀ p d, at? s.base p = some d → ∃ d', at? s'.base p = some d' ∧ d'.head = d.head

/-- The state in the middle of a step, when an extension has been folded into its target and the
first `j` of its members have been registered. -/
def midFold (s : State) (e : Declaration) (j : Nat) : State :=
  match s.targets.pathOf? e.name with
  | none => s
  | some path =>
    match at? s.base path with
    | none => s
    | some target =>
      { s with
        base := modifyAt (absorb · e) s.base path
        targets :=
          registerMembers s.targets target.name path target.members.length (e.members.take j) }

/-- The state after one more extension, unless the table leads to nothing. -/
def fold? (s : State) (e : Declaration) : Option State :=
  match s.targets.pathOf? e.name with
  | none => some { s with external := keep e s.external }
  | some path => (at? s.base path).map fun target =>
    { s with
      base := modifyAt (absorb · e) s.base path
      targets := registerMembers s.targets target.name path target.members.length e.members }

/-! ## The table -/

namespace Targets

theorem prefix_insert (t : Targets) (name : String) (path : List Nat) :
    t <+: t.insert name path := by
  unfold insert
  split
  · exact List.prefix_rfl
  · exact List.prefix_append t _

theorem prefix_insertAll (t : Targets) (offers : List (String × List Nat)) :
    t <+: t.insertAll offers := by
  induction offers generalizing t with
  | nil => exact List.prefix_rfl
  | cons offer offers ih => exact (t.prefix_insert offer.1 offer.2).trans (ih _)

/-- A name is entered once. -/
theorem nodup_insert (h : (t.map Prod.fst).Nodup) (name : String) (path : List Nat) :
    ((t.insert name path).map Prod.fst).Nodup := by
  unfold insert
  split
  · exact h
  · next hnone =>
    have hnew : name ∉ t.map Prod.fst := by
      intro hmem
      obtain ⟨⟨n, q⟩, hq, rfl⟩ := List.mem_map.1 hmem
      obtain ⟨r, hr⟩ := exists_pathOf?_of_mem hq
      exact hnone (by rw [hr]; rfl)
    rw [List.map_append, List.nodup_append]
    refine ⟨h, List.nodup_singleton _, ?_⟩
    rintro x hx y hy rfl
    rw [List.map_singleton, List.mem_singleton] at hy
    subst hy
    exact hnew hx

theorem nodup_insertAll (h : (t.map Prod.fst).Nodup) (offers : List (String × List Nat)) :
    ((t.insertAll offers).map Prod.fst).Nodup := by
  induction offers generalizing t with
  | nil => exact h
  | cons offer offers ih => exact ih (nodup_insert h offer.1 offer.2)

/-- Where each name is entered once, the entries are what is found. -/
theorem pathOf?_of_mem (h : (t.map Prod.fst).Nodup) (hp : (n, p) ∈ t) :
    t.pathOf? n = some p := by
  obtain ⟨q, hq⟩ := exists_pathOf?_of_mem hp
  have hsame : (n, q) = (n, p) := List.inj_on_of_nodup_map h (mem_of_pathOf? hq) hp rfl
  rw [hq, (Prod.mk.inj hsame).2]

end Targets

/-- What is offered for some members is offered before what is offered for those behind them. -/
theorem memberOffers_append_members (parent : String) (path : List Nat) (i : Nat)
    (xs ys : List Declaration) :
    memberOffers parent path i (xs ++ ys) =
      memberOffers parent path i xs ++ memberOffers parent path (i + xs.length) ys := by
  induction xs generalizing i with
  | nil => rfl
  | cons x xs ih =>
    rw [List.cons_append, memberOffers, memberOffers, ih, List.append_assoc, List.length_cons,
      Nat.add_assoc, Nat.add_comm 1]

/-! ## One step -/

theorem once_fold (h : (s.targets.map Prod.fst).Nodup) (e : Declaration) :
    ((fold s e).targets.map Prod.fst).Nodup := by
  unfold fold
  split
  · exact h
  · split
    · exact h
    · rw [registerMembers_eq]
      exact Targets.nodup_insertAll h _

/-- The invariants of a step are about what is found in the table, which is what is in it. -/
theorem Steady.standing (hs : Steady s) (h : (s.targets.map Prod.fst).Nodup) : Standing s where
  once := h
  leads n p hp := by
    obtain ⟨d, hd, hk⟩ := hs.resolves n p (Targets.pathOf?_of_mem h hp)
    refine ⟨Declaration.ne_nil_of_at? hd, d, hd, ?_⟩
    revert hk
    cases d.kind <;> decide
  apart n m p hn hm :=
    hs.namedOnce n m p (Targets.pathOf?_of_mem h hn) (Targets.pathOf?_of_mem h hm)

/-- A table that stands still stands without its last entries. -/
theorem Standing.of_prefix (h : Standing s') (hbase : s.base = s'.base)
    (htargets : s.targets <+: s'.targets) : Standing s where
  once := (htargets.sublist.map Prod.fst).nodup h.once
  leads n p hp := by
    rw [hbase]
    exact h.leads n p (htargets.subset hp)
  apart n m p hn hm := h.apart n m p (htargets.subset hn) (htargets.subset hm)

namespace Outlasts

theorem refl (s : State) : Outlasts s s :=
  ⟨List.prefix_rfl, fun _ d hd => ⟨d, hd, rfl⟩⟩

theorem trans (h : Outlasts s s') (h' : Outlasts s' s'') : Outlasts s s'' where
  targets := h.targets.trans h'.targets
  head p d hd := by
    obtain ⟨d', hd', hhead⟩ := h.head p d hd
    obtain ⟨d'', hd'', hhead'⟩ := h'.head p d' hd'
    exact ⟨d'', hd'', hhead'.trans hhead⟩

end Outlasts

theorem midFold_of_none (h : s.targets.pathOf? e.name = none) (j : Nat) : midFold s e j = s := by
  simp [midFold, h]

theorem midFold_of_some {target : Declaration} (h : s.targets.pathOf? e.name = some p)
    (htarget : at? s.base p = some target) (j : Nat) :
    midFold s e j =
      { s with
        base := modifyAt (absorb · e) s.base p
        targets := s.targets.insertAll
          (memberOffers target.name p target.members.length (e.members.take j)) } := by
  simp [midFold, h, htarget, registerMembers_eq]

/-- Until the members of the extension are registered there are some entries less than after the
step, and nothing else is missing. -/
theorem midFold_of_fold (hs : Resolves s) (e : Declaration) (j : Nat) :
    (midFold s e j).base = (fold s e).base ∧ (midFold s e j).targets <+: (fold s e).targets := by
  cases hpath : s.targets.pathOf? e.name with
  | none =>
    rw [midFold_of_none hpath, fold_of_none hpath]
    exact ⟨rfl, List.prefix_rfl⟩
  | some path =>
    obtain ⟨target, htarget, -⟩ := hs _ _ hpath
    have hmembers := memberOffers_append_members target.name path target.members.length
      (e.members.take j) (e.members.drop j)
    rw [List.take_append_drop] at hmembers
    rw [midFold_of_some hpath htarget, fold_of_some hpath htarget, hmembers,
      Targets.insertAll_append]
    exact ⟨rfl, Targets.prefix_insertAll _ _⟩

theorem outlasts_midFold (hs : Resolves s) (e : Declaration) (j : Nat) :
    Outlasts s (midFold s e j) := by
  cases hpath : s.targets.pathOf? e.name with
  | none =>
    rw [midFold_of_none hpath]
    exact .refl s
  | some path =>
    obtain ⟨target, htarget, -⟩ := hs _ _ hpath
    rw [midFold_of_some hpath htarget]
    exact ⟨Targets.prefix_insertAll _ _,
      fun q d hd => Declaration.at?_modifyAt (adds_absorb e) path hd⟩

theorem midFold_outlasts (hs : Resolves s) (e : Declaration) (j : Nat) :
    Outlasts (midFold s e j) (fold s e) := by
  obtain ⟨hbase, htargets⟩ := midFold_of_fold hs e j
  refine ⟨htargets, fun p d hd => ⟨d, ?_, rfl⟩⟩
  rw [← hbase, hd]

theorem outlasts_fold (hs : Resolves s) (e : Declaration) : Outlasts s (fold s e) :=
  (outlasts_midFold hs e 0).trans (midFold_outlasts hs e 0)

/-- Where the table leads to types the step that could stop is the step. -/
theorem fold?_eq (hs : Resolves s) (e : Declaration) : fold? s e = some (fold s e) := by
  cases hpath : s.targets.pathOf? e.name with
  | none => simp [fold?, fold, hpath]
  | some path =>
    obtain ⟨target, htarget, -⟩ := hs _ _ hpath
    simp [fold?, fold, hpath, htarget]

/-! ## A run -/

theorem steady_after (ds : List Declaration) (k : Nat) : Steady (after ds k) :=
  after_induct (steady_start ds) k fun _ _ e _ h => h.fold e

theorem once_after (ds : List Declaration) (k : Nat) :
    ((after ds k).targets.map Prod.fst).Nodup := by
  refine after_induct (P := fun s => (s.targets.map Prod.fst).Nodup) ?_ k
    fun _ _ e _ h => once_fold h e
  rw [start, registerAll_eq]
  exact Targets.nodup_insertAll (t := []) List.nodup_nil _

theorem standing_after (ds : List Declaration) (k : Nat) : Standing (after ds k) :=
  (steady_after ds k).standing (once_after ds k)

theorem outlasts_after (ds : List Declaration) (hij : i ≤ j) :
    Outlasts (after ds i) (after ds j) := by
  induction hij with
  | refl => exact .refl _
  | @step j _ ih =>
    cases he : (extensions ds)[j]? with
    | none =>
      rw [after_succ_of_none he]
      exact ih
    | some e =>
      rw [after_succ he]
      exact ih.trans (outlasts_fold (resolves_after ds j) e)

theorem foldlM_fold? (hs : Resolves s) (es : List Declaration) :
    es.foldlM fold? s = some (es.foldl fold s) := by
  induction es generalizing s with
  | nil => rfl
  | cons e es ih =>
    rw [List.foldlM_cons, fold?_eq hs, List.foldl_cons]
    exact ih (resolves_fold hs e)

/-- **The paths of a merge never go stale.** After any number of extensions, and in the middle of
each, every name in the table has one path, which leads to a type and is no other name's; what was
entered stays entered, and leads to the same declaration in all that follows and in what comes out.
So a merge that stops where the table leads to nothing does what a merge does. -/
theorem targets_stand (ds : List Declaration) :
    (∀ k, Standing (after ds k)) ∧
    (∀ k e j, (extensions ds)[k]? = some e → Standing (midFold (after ds k) e j) ∧
      Outlasts (after ds k) (midFold (after ds k) e j) ∧
      Outlasts (midFold (after ds k) e j) (after ds (k + 1))) ∧
    (∀ i j, i ≤ j → Outlasts (after ds i) (after ds j)) ∧
    (∀ k p d, at? (after ds k).base p = some d →
      ∃ d', at? (mergeExtensions ds) p = some d' ∧ d'.head = d.head) ∧
    (extensions ds).foldlM fold? (start ds) = some (run ds) := by
  refine ⟨standing_after ds, fun k e j he => ?_, fun i j => outlasts_after ds, ?_, ?_⟩
  · have hs := resolves_after ds k
    have hmid := midFold_of_fold hs e j
    have hnext := standing_after ds (k + 1)
    rw [after_succ he] at hnext ⊢
    exact ⟨hnext.of_prefix hmid.1 hmid.2, outlasts_midFold hs e j, midFold_outlasts hs e j⟩
  · intro k p d hd
    -- extensions that have run out change nothing
    have hrun : Outlasts (after ds k) (run ds) := by
      rw [run_eq_after]
      rcases Nat.le_total k (extensions ds).length with hk | hk
      · exact outlasts_after ds hk
      · rw [after, after, List.take_of_length_le hk, List.take_length]
        exact .refl _
    obtain ⟨d', hd', hhead⟩ := hrun.head p d hd
    exact ⟨d', Declaration.at?_append_left hd', hhead⟩
  · exact foldlM_fold? (resolves_start ds) _

/-- A struct that an extension brought into a struct in a struct stays a target, and the next
extension finds it. -/
theorem targets_stand_deepStructs :
    (extensions (deepStructs "Outer.Inner"))[0]? =
      some (.bare .typeExtension "Outer.Inner" [.bare .structType "Deep" []]) ∧
    ("Outer.Inner.Deep", [0, 0, 0]) ∈ (after (deepStructs "Outer.Inner") 1).targets ∧
    Standing (midFold (after (deepStructs "Outer.Inner") 0)
      (.bare .typeExtension "Outer.Inner" [.bare .structType "Deep" []]) 1) ∧
    ("Outer.Inner.Deep", [0, 0, 0]) ∈ (after (deepStructs "Outer.Inner") 2).targets ∧
    ∃ d, at? (mergeExtensions (deepStructs "Outer.Inner")) [0, 0, 0] = some d ∧
      d.head = (Declaration.bare .structType "Deep" []).head := by
  obtain ⟨-, hmid, hlater, hout, -⟩ := targets_stand (deepStructs "Outer.Inner")
  have hentered : ("Outer.Inner.Deep", [0, 0, 0]) ∈
      (after (deepStructs "Outer.Inner") 1).targets := by decide +kernel
  exact ⟨rfl, hentered, (hmid 0 _ 1 rfl).1, (hlater 1 2 (by decide)).targets.subset hentered,
    hout 1 _ _ rfl⟩

end ApiPages.Merge
