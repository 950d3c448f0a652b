import ApiPages.Proofs.Merge.QualifiedNames

/-!
# Extensions in another order

Two extensions of different names that bring no types may be swapped: no path in the table has two
names, so they are folded into different declarations or kept under different names, and neither
changes what the table says. What follows them meets the same declarations and the same table
(`agrees_run_swap`).
-/

namespace ApiPages.Merge

open Declaration (at? below? modifyAt modifyBelow)

variable {ds ds' kept kept' before after : List Declaration} {d e e₁ e₂ t u : Declaration}
  {s s' : State} {n m : String} {p q : List Nat}

/-! ## The names of a path -/

/-- Whether no path is in the table under two names. -/
def NamedOnce (s : State) : Prop :=
  ∀ n m p, s.targets.pathOf? n = some p → s.targets.pathOf? m = some p → n = m

theorem TypeBelow.name_unique {name : String} (hn : TypeBelow n name d q)
    (hm : TypeBelow m name d q) : n = m :=
  Option.some.inj (hn.names.1.symm.trans hm.names.1)

/-- What members offer a path for has one name. -/
theorem name_eq_of_mem_memberOffers {parent : String} {path : List Nat} {i : Nat}
    (hn : (n, p) ∈ memberOffers parent path i ds) (hm : (m, p) ∈ memberOffers parent path i ds) :
    n = m := by
  obtain ⟨j, x, q, hx, -, rfl, hq⟩ := (mem_memberOffers_iff ds).1 hn
  obtain ⟨j', x', q', hx', -, hp, hq'⟩ := (mem_memberOffers_iff ds).1 hm
  obtain ⟨hj, rfl⟩ := List.cons.inj (List.append_cancel_left hp)
  obtain rfl : j = j' := by omega
  obtain rfl : x = x' := Option.some.inj (hx.symm.trans hx')
  exact hq.name_unique hq'

theorem namedOnce_start (ds : List Declaration) : NamedOnce (start ds) := by
  intro n m p hn hm
  have hentries := (faithful_start ds).entries
  exact (hentries n p (Targets.mem_of_pathOf? hn)).name_eq
    (hentries m p (Targets.mem_of_pathOf? hm))

/-- What is entered for the members of an extension stands where nothing stood. -/
theorem namedOnce_fold (hs : Resolves s) (h : NamedOnce s) (e : Declaration) :
    NamedOnce (fold s e) := by
  cases hpath : s.targets.pathOf? e.name with
  | none =>
    rw [fold_of_none hpath]
    exact h
  | some path =>
    obtain ⟨target, htarget, -⟩ := hs _ _ hpath
    have hfresh : ∀ k l p, s.targets.pathOf? k = some p →
        Targets.pathOf? (memberOffers target.name path target.members.length e.members) l = some p →
        False := by
      intro k l p hold hnew
      obtain ⟨x, hx, -⟩ := hs k p hold
      obtain ⟨j, -, r, -, rfl, -⟩ := mem_memberOffers _ (Targets.mem_of_pathOf? hnew)
      cases (Declaration.at?_beyond htarget (Nat.le_add_right _ j)).symm.trans hx
    rw [fold_of_some hpath htarget]
    intro n m p hn hm
    rw [Targets.pathOf?_insertAll, Option.or_eq_some_iff] at hn hm
    rcases hn with hn | ⟨-, hn⟩ <;> rcases hm with hm | ⟨-, hm⟩
    · exact h n m p hn hm
    · exact (hfresh n m p hn hm).elim
    · exact (hfresh m n p hm hn).elim
    · exact name_eq_of_mem_memberOffers (Targets.mem_of_pathOf? hn) (Targets.mem_of_pathOf? hm)

/-- What every step of a merge keeps of a state. -/
structure Steady (s : State) : Prop where
  resolves : Resolves s
  namedOnce : NamedOnce s
  keptOnce : (s.external.map (·.name)).Nodup

theorem steady_start (ds : List Declaration) : Steady (start ds) :=
  ⟨resolves_start ds, namedOnce_start ds, List.nodup_nil⟩

theorem Steady.fold (h : Steady s) (e : Declaration) : Steady (fold s e) := by
  refine ⟨resolves_fold h.resolves e, namedOnce_fold h.resolves h.namedOnce e, ?_⟩
  cases hpath : s.targets.pathOf? e.name with
  | none =>
    rw [fold_of_none hpath]
    exact nodup_keep h.keptOnce e
  | some path =>
    obtain ⟨target, htarget, -⟩ := h.resolves _ _ hpath
    rw [fold_of_some hpath htarget]
    exact h.keptOnce

theorem Steady.foldl (h : Steady s) (es : List Declaration) : Steady (es.foldl Merge.fold s) := by
  induction es generalizing s with
  | nil => exact h
  | cons e es ih => exact ih (h.fold e)

/-! ## Folding at two places -/

/-- Changes at two indices can be swapped if they can where the indices are the same. -/
theorem modify_modify_comm {α : Type} {f g : α → α} {xs : List α} {i j : Nat}
    (h : i = j → ∀ x, xs[i]? = some x → g (f x) = f (g x)) :
    (xs.modify i f).modify j g = (xs.modify j g).modify i f := by
  refine List.ext_getElem? fun k => ?_
  simp only [List.getElem?_modify]
  cases hk : xs[k]? with
  | none => rfl
  | some x =>
    by_cases hi : i = k <;> by_cases hj : j = k <;> simp [hi, hj]
    subst hi
    exact h hj.symm x hk

theorem modify_append_of_lt {α : Type} {f : α → α} {xs : List α} {j : Nat} (h : j < xs.length)
    (ys : List α) : (xs ++ ys).modify j f = xs.modify j f ++ ys := by
  induction xs generalizing j with
  | nil => cases h
  | cons x xs ih =>
    cases j with
    | zero => rfl
    | succ j =>
      rw [List.cons_append, List.modify_succ_cons, ih (Nat.lt_of_succ_lt_succ h),
        List.modify_succ_cons, List.cons_append]

/-- Members that are added to a declaration come behind what is changed below it. -/
theorem absorb_modifyBelow {f : Declaration → Declaration} {j : Nat}
    (h : d.below? (j :: q) = some t) (e : Declaration) :
    absorb (d.modifyBelow f (j :: q)) e = (absorb d e).modifyBelow f (j :: q) := by
  obtain ⟨c, hc, -⟩ := Option.bind_eq_some_iff.1 h
  have hlt : j < d.members.length := (List.getElem?_eq_some_iff.1 hc).1
  rw [modifyBelow, modifyBelow, absorb_members, modify_append_of_lt hlt]
  rfl

theorem modifyBelow_absorb_comm (hpq : p ≠ q) (ht : d.below? p = some t)
    (hu : d.below? q = some u) :
    (d.modifyBelow (absorb · e₁) p).modifyBelow (absorb · e₂) q =
      (d.modifyBelow (absorb · e₂) q).modifyBelow (absorb · e₁) p := by
  -- at the end of one path the other one goes on, through a member that stays where it is; until
  -- then they part, or they go through the same member
  induction p generalizing d q with
  | nil =>
    obtain ⟨j, q, rfl⟩ := List.exists_cons_of_ne_nil (Ne.symm hpq)
    exact (absorb_modifyBelow hu e₁).symm
  | cons i p ih =>
    cases q with
    | nil => exact absorb_modifyBelow ht e₂
    | cons j q =>
      obtain ⟨c, hc, htc⟩ := Option.bind_eq_some_iff.1 ht
      obtain ⟨c', hc', huc⟩ := Option.bind_eq_some_iff.1 hu
      simp only [modifyBelow]
      rw [modify_modify_comm]
      rintro rfl x hx
      obtain rfl : c = x := Option.some.inj (hc.symm.trans hx)
      obtain rfl : c' = c := Option.some.inj (hc'.symm.trans hx)
      exact ih (fun h => hpq (congrArg _ h)) htc huc

/-- **Extensions that are folded at two places** can be folded in any order, also where one of the
places is below the other. -/
theorem modifyAt_absorb_comm (hpq : p ≠ q) (ht : at? ds p = some t) (hu : at? ds q = some u) :
    modifyAt (absorb · e₂) (modifyAt (absorb · e₁) ds p) q =
      modifyAt (absorb · e₁) (modifyAt (absorb · e₂) ds q) p := by
  have hp := Declaration.ne_nil_of_at? ht
  have hq := Declaration.ne_nil_of_at? hu
  rw [Declaration.at?_eq_below? hp] at ht
  rw [Declaration.at?_eq_below? hq] at hu
  rw [Declaration.modifyAt_eq_members hq, Declaration.root_modifyAt hp,
    modifyBelow_absorb_comm hpq ht hu, ← Declaration.root_modifyAt hq,
    ← Declaration.modifyAt_eq_members hp]

/-! ## Keeping in two orders -/

/-- Extensions of two names are kept apart. -/
theorem keep_keep_perm (hname : e₁.name ≠ e₂.name) (kept : List Declaration) :
    (keep e₂ (keep e₁ kept)).Perm (keep e₁ (keep e₂ kept)) := by
  induction kept with
  | nil =>
    simp only [keep, if_neg hname, if_neg (Ne.symm hname)]
    exact .swap ..
  | cons d kept ih =>
    have hkept : ∀ e, (absorb d e).name = d.name := fun e => rfl
    by_cases h₁ : d.name = e₁.name
    · have h₂ : d.name ≠ e₂.name := fun h => hname (h₁.symm.trans h)
      simp [keep, hkept, h₁, hname]
    · by_cases h₂ : d.name = e₂.name
      · simp [keep, hkept, h₂, Ne.symm hname]
      · simp only [keep, if_neg h₁, if_neg h₂]
        exact ih.cons d

/-- In whichever order extensions are kept, one more is kept with them. -/
theorem keep_perm (h : kept.Perm kept') (hnodup : (kept.map (·.name)).Nodup) (e : Declaration) :
    (keep e kept).Perm (keep e kept') := by
  induction h with
  | nil => exact .refl _
  | @cons x xs ys hperm ih =>
    rw [keep, keep]
    split
    · exact hperm.cons _
    · exact (ih (List.nodup_cons.1 hnodup).2).cons x
  | swap x y xs =>
    -- both could take the extension only if they had one name
    have hxy : y.name ≠ x.name := by
      have hy := (List.nodup_cons.1 hnodup).1
      exact fun heq => hy (by simp [heq])
    by_cases hx : x.name = e.name
    · have hy : y.name ≠ e.name := fun hy => hxy (hy.trans hx.symm)
      simp only [keep, if_pos hx, if_neg hy]
      exact .swap ..
    · simp only [keep, if_neg hx]
      split
      · exact .swap ..
      · exact .swap ..
  | trans hxy _ ihxy ihyz =>
    exact (ihxy hnodup).trans (ihyz ((hxy.map _).nodup_iff.1 hnodup))

/-! ## Two runs -/

/-- Whether two states differ in the order of the extensions kept only. -/
structure Agrees (s s' : State) : Prop where
  base : s'.base = s.base
  targets : s'.targets = s.targets
  external : s.external.Perm s'.external

theorem Agrees.fold (h : Agrees s s') (hs : Steady s) (e : Declaration) :
    Agrees (fold s e) (fold s' e) := by
  cases hpath : s.targets.pathOf? e.name with
  | none =>
    have hpath' : s'.targets.pathOf? e.name = none := by rw [h.targets, hpath]
    rw [fold_of_none hpath, fold_of_none hpath']
    exact ⟨h.base, h.targets, keep_perm h.external hs.keptOnce e⟩
  | some path =>
    obtain ⟨target, htarget, -⟩ := hs.resolves _ _ hpath
    have hpath' : s'.targets.pathOf? e.name = some path := by rw [h.targets, hpath]
    have htarget' : at? s'.base path = some target := by rw [h.base, htarget]
    rw [fold_of_some hpath htarget, fold_of_some hpath' htarget', h.base, h.targets]
    exact ⟨rfl, rfl, h.external⟩

theorem Agrees.foldl (h : Agrees s s') (hs : Steady s) (es : List Declaration) :
    Agrees (es.foldl Merge.fold s) (es.foldl Merge.fold s') := by
  induction es generalizing s s' with
  | nil => exact h
  | cons e es ih => exact ih (h.fold hs e) (hs.fold e)

/-- Whether none of the members is a type that can be extended. -/
def BringsNoTypes (e : Declaration) : Prop :=
  ∀ m ∈ e.members, m.kind.isExtendable = false

theorem memberOffers_eq_nil (h : ∀ m ∈ ds, m.kind.isExtendable = false) (parent : String)
    (path : List Nat) (i : Nat) : memberOffers parent path i ds = [] := by
  induction ds generalizing i with
  | nil => rfl
  | cons d ds ih =>
    obtain ⟨hd, hds⟩ := List.forall_mem_cons.1 h
    simp [memberOffers, hd, ih hds]

/-- An extension without types goes to its target, and the table stays. -/
theorem fold_of_bringsNoTypes (he : BringsNoTypes e) (hpath : s.targets.pathOf? e.name = some p)
    (ht : at? s.base p = some t) :
    fold s e = { s with base := modifyAt (absorb · e) s.base p } := by
  rw [fold_of_some hpath ht, memberOffers_eq_nil he, Targets.insertAll_nil]

theorem fold_fold_of_none (h₁ : s.targets.pathOf? e₁.name = none)
    (h₂ : s.targets.pathOf? e₂.name = none) :
    fold (fold s e₁) e₂ = { s with external := keep e₂ (keep e₁ s.external) } := by
  rw [fold_of_none h₁]
  exact fold_of_none h₂

/-- An extension that is kept and one that is folded do not meet. -/
theorem fold_fold_comm_of_none (h₁ : s.targets.pathOf? e₁.name = none) (he₂ : BringsNoTypes e₂)
    (h₂ : s.targets.pathOf? e₂.name = some q) (hu : at? s.base q = some u) :
    fold (fold s e₁) e₂ = fold (fold s e₂) e₁ := by
  have hkept : fold { s with external := keep e₁ s.external } e₂ =
      ⟨modifyAt (absorb · e₂) s.base q, s.targets, keep e₁ s.external⟩ :=
    fold_of_bringsNoTypes he₂ h₂ hu
  have hfolded : fold { s with base := modifyAt (absorb · e₂) s.base q } e₁ =
      ⟨modifyAt (absorb · e₂) s.base q, s.targets, keep e₁ s.external⟩ := fold_of_none h₁
  rw [fold_of_none h₁, hkept, fold_of_bringsNoTypes he₂ h₂ hu, hfolded]

theorem fold_fold_of_some (he₁ : BringsNoTypes e₁) (he₂ : BringsNoTypes e₂)
    (h₁ : s.targets.pathOf? e₁.name = some p) (h₂ : s.targets.pathOf? e₂.name = some q)
    (ht : at? s.base p = some t) (hu : at? s.base q = some u) :
    fold (fold s e₁) e₂ =
      { s with base := modifyAt (absorb · e₂) (modifyAt (absorb · e₁) s.base p) q } := by
  -- what stands at the one place still stands there after something was added at the other
  obtain ⟨u', hu', -⟩ := Declaration.at?_modifyAt (adds_absorb e₁) p hu
  rw [fold_of_bringsNoTypes he₁ h₁ ht]
  exact fold_of_bringsNoTypes he₂ h₂ hu'

/-- **Two extensions can be taken in in any order** if they have different names and bring no
types. -/
theorem Steady.agrees_swap (hs : Steady s) (hname : e₁.name ≠ e₂.name) (he₁ : BringsNoTypes e₁)
    (he₂ : BringsNoTypes e₂) :
    Agrees (Merge.fold (Merge.fold s e₁) e₂) (Merge.fold (Merge.fold s e₂) e₁) := by
  cases h₁ : s.targets.pathOf? e₁.name with
  | none =>
    cases h₂ : s.targets.pathOf? e₂.name with
    | none =>
      rw [fold_fold_of_none h₁ h₂, fold_fold_of_none h₂ h₁]
      exact ⟨rfl, rfl, keep_keep_perm hname _⟩
    | some q =>
      obtain ⟨u, hu, -⟩ := hs.resolves _ _ h₂
      rw [fold_fold_comm_of_none h₁ he₂ h₂ hu]
      exact ⟨rfl, rfl, .refl _⟩
  | some p =>
    obtain ⟨t, ht, -⟩ := hs.resolves _ _ h₁
    cases h₂ : s.targets.pathOf? e₂.name with
    | none =>
      rw [fold_fold_comm_of_none h₂ he₁ h₁ ht]
      exact ⟨rfl, rfl, .refl _⟩
    | some q =>
      obtain ⟨u, hu, -⟩ := hs.resolves _ _ h₂
      have hpq : p ≠ q := by
        rintro rfl
        exact hname (hs.namedOnce _ _ p h₁ h₂)
      rw [fold_fold_of_some he₁ he₂ h₁ h₂ ht hu, fold_fold_of_some he₂ he₁ h₂ h₁ hu ht]
      exact ⟨(modifyAt_absorb_comm hpq ht hu).symm, rfl, .refl _⟩

/-- Two neighbours among the extensions of some declarations. -/
theorem run_append_pair (before after : List Declaration) (h₁ : e₁.isExtension = true)
    (h₂ : e₂.isExtension = true) : run (before ++ [e₁, e₂] ++ after) =
      (extensions after).foldl fold (fold (fold
        ((extensions before).foldl fold (start (before ++ after))) e₁) e₂) := by
  have hstart : start (before ++ [e₁, e₂] ++ after) = start (before ++ after) := by
    simp [start, h₁, h₂]
  rw [run, hstart]
  simp [extensions, h₁, h₂]

/-- **Runs over swapped extensions agree.** -/
theorem agrees_run_swap (before after : List Declaration) (h₁ : e₁.isExtension = true)
    (h₂ : e₂.isExtension = true) (hname : e₁.name ≠ e₂.name) (he₁ : BringsNoTypes e₁)
    (he₂ : BringsNoTypes e₂) :
    Agrees (run (before ++ [e₁, e₂] ++ after)) (run (before ++ [e₂, e₁] ++ after)) := by
  rw [run_append_pair before after h₁ h₂, run_append_pair before after h₂ h₁]
  have hs : Steady ((extensions before).foldl fold (start (before ++ after))) :=
    (steady_start _).foldl _
  exact (hs.agrees_swap hname he₁ he₂).foldl ((hs.fold e₁).fold e₂) _

end ApiPages.Merge
