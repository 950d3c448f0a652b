import ApiPages.Proofs.Merge.Kept
import ApiPages.Proofs.Merge.Targets

/-!
# How declarations grow

Every extension has a fate: it is folded into what stands at some path, or it finds no target. From
the fates alone it can be said what a declaration has become after the merge, at every depth:
`Assembled` says it, and a run keeps it true (`accounted_run`).
-/

namespace ApiPages.Merge

open Declaration (at? modifyAt newNames)

/-! ## Fates -/

/-- An extension with the path of the declaration that it was folded into, if there was one. -/
structure Fate where
  ext : Declaration
  target : Option (List Nat)

/-- The fates of extensions that are folded one after another, from a state on. -/
def fates (s : State) : List Declaration → List Fate
  | [] => []
  | e :: es => ⟨e, s.targets.pathOf? e.name⟩ :: fates (fold s e) es

/-- The extensions that were folded into what stands at a path, in order. -/
def foldedAt (fs : List Fate) (path : List Nat) : List Declaration :=
  (fs.filter fun f => f.target = some path).map Fate.ext

/-- The extensions that found no target, in order. -/
def unfolded (fs : List Fate) : List Declaration :=
  (fs.filter fun f => f.target = none).map Fate.ext

theorem map_ext_fates (s : State) (es : List Declaration) : (fates s es).map Fate.ext = es := by
  induction es generalizing s with
  | nil => rfl
  | cons e es ih => rw [fates, List.map_cons, ih]

theorem fates_append (s : State) (xs ys : List Declaration) :
    fates s (xs ++ ys) = fates s xs ++ fates (xs.foldl fold s) ys := by
  induction xs generalizing s with
  | nil => rfl
  | cons x xs ih => rw [List.cons_append, fates, fates, ih, List.foldl_cons, List.cons_append]

@[simp] theorem foldedAt_append (fs gs : List Fate) (path : List Nat) :
    foldedAt (fs ++ gs) path = foldedAt fs path ++ foldedAt gs path := by
  simp [foldedAt]

@[simp] theorem unfolded_append (fs gs : List Fate) :
    unfolded (fs ++ gs) = unfolded fs ++ unfolded gs := by
  simp [unfolded]

theorem mem_of_mem_foldedAt {s : State} {es : List Declaration} {path : List Nat} {e : Declaration}
    (h : e ∈ foldedAt (fates s es) path) : e ∈ es := by
  obtain ⟨f, hf, rfl⟩ := List.mem_map.1 h
  rw [← map_ext_fates s es]
  exact List.mem_map_of_mem (List.mem_of_mem_filter hf)

theorem unfolded_sublist (fs : List Fate) : (unfolded fs).Sublist (fs.map Fate.ext) :=
  List.filter_sublist.map _

theorem mem_of_mem_unfolded {s : State} {es : List Declaration} {e : Declaration}
    (h : e ∈ unfolded (fates s es)) : e ∈ es := by
  have hmem := (unfolded_sublist (fates s es)).subset h
  rwa [map_ext_fates] at hmem

/-! ## What has become of a declaration -/

/-- What a declaration at a path has become, given what was folded at every path: its head is as it
was, the new supertypes follow the old ones, and the members of what was folded into it follow its
own members. Of each member, old or new, the same can be said. -/
inductive Assembled (folded : List Nat → List Declaration) :
    List Nat → Declaration → Declaration → Prop
  | intro {path : List Nat} {d d' : Declaration} (head : d'.head = d.head)
      (inheritance : d'.inheritance = d.inheritance ++
        newNames d.inheritance ((folded path).flatMap (·.inheritance)))
      (length : d'.members.length = (d.members ++ (folded path).flatMap (·.members)).length)
      (members : ∀ i m m', (d.members ++ (folded path).flatMap (·.members))[i]? = some m →
        d'.members[i]? = some m' → Assembled folded (path ++ [i]) m m') :
      Assembled folded path d d'

/-- Whether one more extension was folded into what stands at a path, where there were `n` members
before, and nothing yet at the places that its own members get. -/
structure FoldsAt (folded folded' : List Nat → List Declaration) (path : List Nat) (n : Nat)
    (e : Declaration) : Prop where
  fresh : ∀ i q, n ≤ i → folded (path ++ i :: q) = []
  here : folded' path = folded path ++ [e]
  elsewhere : ∀ p, p ≠ path → folded' p = folded p

theorem not_prefix_of_ne {path q : List Nat} {i j : Nat} (h : i ≠ j) :
    ¬ path ++ [j] <+: path ++ i :: q := by
  rintro ⟨r, hr⟩
  simp at hr
  exact h hr.1.symm

theorem not_child_prefix_self (path : List Nat) (i : Nat) : ¬ path ++ [i] <+: path := by
  intro h
  have hlen := h.length_le
  rw [List.length_append, List.length_singleton] at hlen
  omega

namespace Assembled

variable {folded folded' : List Nat → List Declaration} {path : List Nat} {d d' e : Declaration}

theorem head_eq (h : Assembled folded path d d') : d'.head = d.head := by
  cases h with
  | intro head => exact head

/-- A member, the declaration's own or that of an extension, is still there. -/
theorem member (h : Assembled folded path d d') {i : Nat} {m : Declaration}
    (hm : (d.members ++ (folded path).flatMap (·.members))[i]? = some m) :
    ∃ m', d'.members[i]? = some m' ∧ Assembled folded (path ++ [i]) m m' := by
  cases h with
  | intro _ _ length members =>
    have hlt := (List.getElem?_eq_some_iff.1 hm).1
    obtain ⟨m', hm'⟩ : ∃ m', d'.members[i]? = some m' :=
      ⟨_, List.getElem?_eq_getElem (by rw [length]; exact hlt)⟩
    exact ⟨m', hm', members i m m' hm hm'⟩

/-- Only what was folded at the path or below it counts. -/
theorem congr (h : Assembled folded path d d')
    (hf : ∀ q, path <+: q → folded' q = folded q) : Assembled folded' path d d' := by
  induction h with
  | intro head inheritance length _ ih =>
    have hpath := hf _ (List.prefix_refl _)
    refine ⟨head, by rw [hpath, inheritance], by rw [hpath, length], ?_⟩
    intro i m m' hm hm'
    rw [hpath] at hm
    exact ih i m m' hm hm' fun q hq => hf q ((List.prefix_append _ _).trans hq)

theorem refl (hf : ∀ q, path <+: q → folded q = []) : Assembled folded path d d := by
  induction d using Declaration.induct generalizing path with
  | step d ih =>
    have hpath := hf _ (List.prefix_refl _)
    refine ⟨rfl, by simp [hpath, newNames], by simp [hpath], ?_⟩
    intro i m m' hm hm'
    simp only [hpath, List.flatMap_nil, List.append_nil] at hm
    obtain rfl : m = m' := Option.some.inj (hm.symm.trans hm')
    exact ih m (List.mem_of_getElem? hm) fun q hq => hf q ((List.prefix_append _ _).trans hq)

theorem elsewhere {q : List Nat} {n : Nat} (h : Assembled folded path d d')
    (hstep : FoldsAt folded folded' q n e) (hq : ¬ path <+: q) : Assembled folded' path d d' := by
  refine h.congr fun p hp => hstep.elsewhere p ?_
  rintro rfl
  exact hq hp

/-- One more extension is folded into what the declaration has become. -/
theorem absorb (h : Assembled folded path d d')
    (hstep : FoldsAt folded folded' path d'.members.length e) :
    Assembled folded' path d (Merge.absorb d' e) := by
  cases h with
  | intro head inheritance length members =>
    refine ⟨head, ?_, ?_, ?_⟩
    · rw [absorb_inheritance, inheritance, hstep.here, List.flatMap_append,
        ← Declaration.unionNames_eq, ← Declaration.unionNames_eq, Declaration.unionNames_append]
      simp
    · rw [absorb_members, List.length_append, length, hstep.here]
      simp [Nat.add_assoc]
    · intro i m m' hm hm'
      rw [hstep.here, List.flatMap_append, ← List.append_assoc, List.flatMap_singleton] at hm
      rw [absorb_members] at hm'
      by_cases hi : i < d'.members.length
      · -- a member that was there
        rw [List.getElem?_append_left hi] at hm'
        rw [List.getElem?_append_left (length ▸ hi)] at hm
        exact (members i m m' hm hm').elsewhere hstep (not_child_prefix_self path i)
      · -- a member of the extension, which is as it came
        have hle : d'.members.length ≤ i := Nat.le_of_not_lt hi
        rw [List.getElem?_append_right hle] at hm'
        rw [List.getElem?_append_right (length ▸ hle), ← length] at hm
        obtain rfl : m = m' := Option.some.inj (hm.symm.trans hm')
        refine refl fun p hp => ?_
        obtain ⟨q, rfl⟩ := hp
        rw [hstep.elsewhere _ (by simp), List.append_assoc]
        exact hstep.fresh i q hle

/-- One more extension is folded into what stands at `q` below the declaration. -/
theorem absorbBelow {q : List Nat} {target : Declaration} (h : Assembled folded path d d')
    (htarget : d'.below? q = some target)
    (hstep : FoldsAt folded folded' (path ++ q) target.members.length e) :
    Assembled folded' path d (d'.modifyBelow (Merge.absorb · e) q) := by
  induction q generalizing path d d' with
  | nil =>
    obtain rfl : d' = target := Option.some.inj htarget
    rw [List.append_nil] at hstep
    exact h.absorb hstep
  | cons j q ih =>
    obtain ⟨c, hc, hbelow⟩ := Option.bind_eq_some_iff.1 htarget
    cases h with
    | intro head inheritance length members =>
      have hpath : folded' path = folded path := hstep.elsewhere path (by simp)
      refine ⟨head, by rw [hpath]; exact inheritance, ?_, ?_⟩
      · simp [Declaration.modifyBelow, hpath, length]
      · intro i m m' hm hm'
        rw [hpath] at hm
        rw [Declaration.modifyBelow] at hm'
        by_cases hij : j = i
        · -- the member that the path leads through
          subst hij
          obtain rfl : c.modifyBelow (Merge.absorb · e) q = m' := by simpa [hc] using hm'
          refine ih (members j m c hm hc) hbelow ?_
          rw [List.append_assoc]
          exact hstep
        · have hsame : d'.members[i]? = some m' := by simpa [hij] using hm'
          exact (members i m m' hm hsame).elsewhere hstep (not_prefix_of_ne hij)

end Assembled

/-- What has become of each declaration of a list. -/
def AssembledAll (folded : List Nat → List Declaration) (ds ds' : List Declaration) : Prop :=
  ds'.length = ds.length ∧
    ∀ i d d', ds[i]? = some d → ds'[i]? = some d' → Assembled folded [i] d d'

namespace AssembledAll

variable {folded folded' : List Nat → List Declaration} {path : List Nat} {e : Declaration}
  {ds ds' : List Declaration}

theorem refl (hf : ∀ path, folded path = []) (ds : List Declaration) :
    AssembledAll folded ds ds := by
  refine ⟨rfl, fun i d d' hd hd' => ?_⟩
  obtain rfl : d = d' := Option.some.inj (hd.symm.trans hd')
  exact Assembled.refl fun q _ => hf q

/-- The declaration that a declaration has become stands at the same index. -/
theorem get? (h : AssembledAll folded ds ds') {i : Nat} {d : Declaration} (hd : ds[i]? = some d) :
    ∃ d', ds'[i]? = some d' ∧ Assembled folded [i] d d' := by
  have hlt := (List.getElem?_eq_some_iff.1 hd).1
  obtain ⟨d', hd'⟩ : ∃ d', ds'[i]? = some d' :=
    ⟨_, List.getElem?_eq_getElem (by rw [h.1]; exact hlt)⟩
  exact ⟨d', hd', h.2 i d d' hd hd'⟩

theorem absorb {target : Declaration} (h : AssembledAll folded ds ds')
    (htarget : at? ds' path = some target)
    (hstep : FoldsAt folded folded' path target.members.length e) :
    AssembledAll folded' ds (modifyAt (Merge.absorb · e) ds' path) := by
  obtain ⟨j, q, rfl⟩ := List.exists_cons_of_ne_nil (Declaration.ne_nil_of_at? htarget)
  rw [Declaration.at?_cons] at htarget
  obtain ⟨c, hc, hbelow⟩ := Option.bind_eq_some_iff.1 htarget
  rw [Declaration.modifyAt_cons]
  refine ⟨by rw [List.length_modify, h.1], ?_⟩
  intro i d d' hd hd'
  by_cases hij : j = i
  · subst hij
    obtain rfl : c.modifyBelow (Merge.absorb · e) q = d' := by simpa [hc] using hd'
    exact (h.2 j d c hd hc).absorbBelow hbelow hstep
  · have hsame : ds'[i]? = some d' := by simpa [hij] using hd'
    have hprefix : ¬ [i] <+: j :: q := @not_prefix_of_ne [] q j i hij
    exact (h.2 i d d' hd hsame).elsewhere hstep hprefix

end AssembledAll

/-! ## A run -/

/-- Every target of the table is a type that stands there. -/
def Resolves (s : State) : Prop :=
  ∀ n p, s.targets.pathOf? n = some p →
    ∃ d, at? s.base p = some d ∧ d.kind.isExtendable = true

/-- A state that a run reaches from some declarations: the fates so far account for all of it. -/
structure Accounted (ds : List Declaration) (fs : List Fate) (s : State) : Prop where
  resolves : Resolves s
  /-- Extensions were folded into the targets of their names. -/
  found : ∀ f ∈ fs, ∀ p, f.target = some p → s.targets.pathOf? f.ext.name = some p
  base : AssembledAll (foldedAt fs) ds s.base
  external : s.external = keepAll (unfolded fs)

/-- What extensions were folded into is a type that is there. -/
theorem Accounted.standing {ds : List Declaration} {fs : List Fate} {s : State}
    (h : Accounted ds fs s) {path : List Nat} {e : Declaration} (he : e ∈ foldedAt fs path) :
    ∃ d, at? s.base path = some d ∧ d.kind.isExtendable = true := by
  obtain ⟨f, hf, -⟩ := List.mem_map.1 he
  rw [List.mem_filter] at hf
  exact h.resolves _ _ (h.found f hf.1 path (of_decide_eq_true hf.2))

theorem resolves_start (ds : List Declaration) : Resolves (start ds) := by
  intro n p h
  rw [start, registerAll_eq] at h
  rcases Targets.mem_insertAll (Targets.mem_of_pathOf? h) with h | h
  · simp at h
  · obtain ⟨j, d, q, hd, rfl, -, x, hx, hk⟩ := mem_topOffers h
    rw [Nat.zero_add]
    exact ⟨x, by rw [Declaration.at?_cons]; simp [start, hd, hx], hk⟩

theorem accounted_start (ds : List Declaration) : Accounted (start ds).base [] (start ds) where
  resolves := resolves_start ds
  found f h := by simp at h
  base := .refl (by simp [foldedAt]) _
  external := rfl

theorem fold_of_none {s : State} {e : Declaration} (h : s.targets.pathOf? e.name = none) :
    fold s e = { s with external := keep e s.external } := by
  simp [fold, h]

theorem fold_of_some {s : State} {e target : Declaration} {path : List Nat}
    (h : s.targets.pathOf? e.name = some path) (htarget : at? s.base path = some target) :
    fold s e =
      { s with
        base := modifyAt (absorb · e) s.base path
        targets := s.targets.insertAll
          (memberOffers target.name path target.members.length e.members) } := by
  simp [fold, h, htarget, registerMembers_eq]

/-- A name once registered keeps its target. -/
theorem pathOf?_fold {s : State} {n : String} {p : List Nat} (h : s.targets.pathOf? n = some p)
    (e : Declaration) : (fold s e).targets.pathOf? n = some p := by
  unfold fold
  split
  · exact h
  · split
    · exact h
    · rw [registerMembers_eq, Targets.pathOf?_insertAll, h]
      rfl

theorem pathOf?_foldl {s : State} {n : String} {p : List Nat} (h : s.targets.pathOf? n = some p)
    (es : List Declaration) : (es.foldl fold s).targets.pathOf? n = some p := by
  induction es generalizing s with
  | nil => exact h
  | cons e es ih => exact ih (pathOf?_fold h e)

/-- A name without a target in the end had none before. -/
theorem pathOf?_eq_none_of_foldl {s : State} {n : String} {es : List Declaration}
    (h : (es.foldl fold s).targets.pathOf? n = none) : s.targets.pathOf? n = none := by
  cases hpath : s.targets.pathOf? n with
  | none => rfl
  | some p => exact (pathOf?_foldl hpath es).symm.trans h

/-- Folding keeps what the table says, and what it enters for the members of the extension stands
where they were put. -/
theorem resolves_fold {s : State} (hs : Resolves s) (e : Declaration) : Resolves (fold s e) := by
  cases hpath : s.targets.pathOf? e.name with
  | none =>
    rw [fold_of_none hpath]
    exact hs
  | some path =>
    obtain ⟨target, htarget, -⟩ := hs _ _ hpath
    rw [fold_of_some hpath htarget]
    intro n p h
    rw [Targets.pathOf?_insertAll, Option.or_eq_some_iff] at h
    rcases h with h | ⟨-, h⟩
    · obtain ⟨d, hd, hk⟩ := hs n p h
      obtain ⟨d', hd', hhead⟩ := Declaration.at?_modifyAt (adds_absorb e) path hd
      refine ⟨d', hd', ?_⟩
      rw [Declaration.kind_eq_of_head hhead]
      exact hk
    · obtain ⟨j, m, q, hm, rfl, -, x, hx, hk⟩ := mem_memberOffers _ (Targets.mem_of_pathOf? h)
      exact ⟨x, by rw [Declaration.at?_modifyAt_added (adds_absorb e) htarget hm, hx], hk⟩

/-- What was folded at the paths, after one more extension was folded into its target. -/
theorem foldsAt_of_fold {ds : List Declaration} {fs : List Fate} {s : State}
    (h : Accounted ds fs s) (e : Declaration) {path : List Nat} {target : Declaration}
    (htarget : at? s.base path = some target) :
    FoldsAt (foldedAt fs) (foldedAt (fs ++ [⟨e, some path⟩])) path target.members.length e where
  fresh := by
    -- whatever was folded at a path stands there, and the target ends before
    intro i q hi
    by_contra hne
    obtain ⟨x, hx⟩ := List.exists_mem_of_ne_nil _ hne
    obtain ⟨d, hd, -⟩ := h.standing hx
    cases (Declaration.at?_beyond htarget hi).symm.trans hd
  here := by
    rw [foldedAt_append]
    simp [foldedAt]
  elsewhere := by
    intro p hp
    rw [foldedAt_append]
    simp [foldedAt, Ne.symm hp]

theorem accounted_fold {ds : List Declaration} {fs : List Fate} {s : State}
    (h : Accounted ds fs s) (e : Declaration) :
    Accounted ds (fs ++ [⟨e, s.targets.pathOf? e.name⟩]) (fold s e) := by
  have hfound : ∀ f ∈ fs ++ [⟨e, s.targets.pathOf? e.name⟩], ∀ p, f.target = some p →
      (fold s e).targets.pathOf? f.ext.name = some p := by
    intro f hf p hp
    rcases List.mem_append.1 hf with hf | hf
    · exact pathOf?_fold (h.found f hf p hp) e
    · obtain rfl := List.mem_singleton.1 hf
      exact pathOf?_fold hp e
  refine ⟨resolves_fold h.resolves e, hfound, ?_, ?_⟩
  · cases hpath : s.targets.pathOf? e.name with
    | none =>
      have hsame : foldedAt (fs ++ [⟨e, none⟩]) = foldedAt fs := by
        funext p
        rw [foldedAt_append]
        simp [foldedAt]
      rw [fold_of_none hpath, hsame]
      exact h.base
    | some path =>
      obtain ⟨target, htarget, -⟩ := h.resolves _ _ hpath
      rw [fold_of_some hpath htarget]
      exact h.base.absorb htarget (foldsAt_of_fold h e htarget)
  · cases hpath : s.targets.pathOf? e.name with
    | none =>
      rw [fold_of_none hpath, unfolded_append, h.external]
      exact (keepAll_append_singleton (unfolded fs) e).symm
    | some path =>
      obtain ⟨target, htarget, -⟩ := h.resolves _ _ hpath
      rw [fold_of_some hpath htarget, unfolded_append, h.external]
      simp [unfolded]

/-- **The fates of a run account for the state that it reaches.** -/
theorem accounted_run (ds : List Declaration) :
    Accounted (ds.filter fun d => !d.isExtension)
      (fates (start ds) (ds.filter Declaration.isExtension)) (run ds) := by
  rw [run]
  induction ds.filter Declaration.isExtension using List.reverseRecOn with
  | nil => exact accounted_start ds
  | append_singleton es e ih =>
    rw [fates_append, List.foldl_append]
    exact accounted_fold ih e

/-- The extensions folded at each path when declarations are merged. -/
def foldedInto (ds : List Declaration) : List Nat → List Declaration :=
  foldedAt (fates (start ds) (ds.filter Declaration.isExtension))

/-- What extensions are folded into has the heads that it had, in order. -/
theorem map_head_base (ds : List Declaration) :
    (run ds).base.map Declaration.head =
      (ds.filter fun d => !d.isExtension).map Declaration.head := by
  obtain ⟨hlength, hbase⟩ := (accounted_run ds).base
  refine List.ext_getElem? fun i => ?_
  rw [List.getElem?_map, List.getElem?_map]
  by_cases hi : i < (run ds).base.length
  · have hx := List.getElem?_eq_getElem (hlength ▸ hi)
    have hd := List.getElem?_eq_getElem hi
    rw [hx, hd, Option.map_some, Option.map_some, (hbase i _ _ hx hd).head_eq]
  · have hle := Nat.le_of_not_lt hi
    rw [List.getElem?_eq_none hle, List.getElem?_eq_none (hlength ▸ hle)]

/-- What extensions are folded into has the head of a declaration that is none. -/
theorem exists_head_of_mem_base {ds : List Declaration} {d : Declaration} (h : d ∈ (run ds).base) :
    ∃ x ∈ ds, x.isExtension = false ∧ d.head = x.head := by
  have hhead : d.head ∈ (run ds).base.map Declaration.head := List.mem_map_of_mem h
  rw [map_head_base] at hhead
  obtain ⟨x, hx, heq⟩ := List.mem_map.1 hhead
  obtain ⟨hmem, hext⟩ := List.mem_filter.1 hx
  exact ⟨x, hmem, by simpa using hext, heq.symm⟩

/-- What extensions are folded into is no extension. -/
theorem isExtension_of_mem_base {ds : List Declaration} {d : Declaration}
    (h : d ∈ (run ds).base) : d.isExtension = false := by
  obtain ⟨x, -, hext, hhead⟩ := exists_head_of_mem_base h
  rw [Declaration.isExtension_eq_of_head hhead, hext]

/-- What is kept are extensions, combined into the first of them. -/
theorem exists_combined_of_mem_external {ds : List Declaration} {d : Declaration}
    (h : d ∈ (run ds).external) :
    ∃ x xs, d = combined x xs ∧ ∀ e ∈ x :: xs, e ∈ ds ∧ e.isExtension = true := by
  rw [(accounted_run ds).external] at h
  obtain ⟨x, xs, hf, hd⟩ := mem_keepAll h
  refine ⟨x, xs, hd, fun e he => ?_⟩
  rw [← hf] at he
  exact List.mem_filter.1 (mem_of_mem_unfolded (List.mem_of_mem_filter he))

/-- Only extensions are kept. -/
theorem isExtension_of_mem_external {ds : List Declaration} {d : Declaration}
    (h : d ∈ (run ds).external) : d.isExtension = true := by
  obtain ⟨x, xs, rfl, hall⟩ := exists_combined_of_mem_external h
  rw [Declaration.isExtension_eq_of_head (combined_head x xs)]
  exact (hall x List.mem_cons_self).2

end ApiPages.Merge
