import ApiPages.Proofs.Merge.Steps
import Mathlib.Logic.Equiv.Basic

/-!
# Merging in another order

Declarations that are no extensions may come in any order: where no two of them have a type of one
qualified name, a merge makes of each what it would have made of it anywhere else. Two runs over the
same extensions go in step: the table of one is that of the other with the first index of every path
renamed (`follows_run`).
-/

namespace ApiPages.Merge

open Declaration (at? modifyAt)

variable {α : Type} {xs ys : List α} {σ : Equiv.Perm Nat} {ds ds' : List Declaration}
  {s s' : State} {d e : Declaration} {n : String}

/-! ## Lists with renamed indices -/

/-- Whether what stands in one list stands in another one, under renamed indices. -/
def Reindexed (σ : Equiv.Perm Nat) (xs ys : List α) : Prop :=
  ∀ i, ys[σ i]? = xs[i]?

/-- The renaming that leaves the first index and renames the others. -/
def shiftRenaming (σ : Equiv.Perm Nat) : Equiv.Perm Nat where
  toFun
    | 0 => 0
    | i + 1 => σ i + 1
  invFun
    | 0 => 0
    | i + 1 => σ.symm i + 1
  left_inv i := by cases i <;> simp
  right_inv i := by cases i <;> simp

theorem exists_reindexed (h : xs.Perm ys) : ∃ σ, Reindexed σ xs ys := by
  induction h with
  | nil => exact ⟨Equiv.refl _, fun i => rfl⟩
  | cons x _ ih =>
    obtain ⟨σ, hσ⟩ := ih
    refine ⟨shiftRenaming σ, fun i => ?_⟩
    cases i with
    | zero => rfl
    | succ i => exact hσ i
  | swap x y xs =>
    refine ⟨Equiv.swap 0 1, fun i => ?_⟩
    match i with
    | 0 => rfl
    | 1 => rfl
    | i + 2 =>
      rw [Equiv.swap_apply_of_ne_of_ne (by omega) (by omega)]
      rfl
  | trans _ _ ih₁ ih₂ =>
    obtain ⟨σ, hσ⟩ := ih₁
    obtain ⟨τ, hτ⟩ := ih₂
    exact ⟨σ.trans τ, fun i => (hτ (σ i)).trans (hσ i)⟩

theorem Reindexed.mem_iff (h : Reindexed σ xs ys) {x : α} : x ∈ ys ↔ x ∈ xs := by
  rw [List.mem_iff_getElem?, List.mem_iff_getElem?]
  constructor
  · rintro ⟨j, hj⟩
    exact ⟨σ.symm j, by rw [← h, Equiv.apply_symm_apply, hj]⟩
  · rintro ⟨i, hi⟩
    exact ⟨σ i, by rw [h, hi]⟩

theorem Reindexed.modify (h : Reindexed σ xs ys) (f : α → α) (i : Nat) :
    Reindexed σ (xs.modify i f) (ys.modify (σ i) f) := by
  intro j
  rw [List.getElem?_modify, List.getElem?_modify, h]
  simp only [σ.injective.eq_iff]

/-- A path with its first index renamed. -/
def reroot (σ : Nat → Nat) : List Nat → List Nat
  | [] => []
  | i :: path => σ i :: path

theorem Reindexed.at? (h : Reindexed σ ds ds') (p : List Nat) :
    at? ds' (reroot σ p) = at? ds p := by
  cases p with
  | nil => rfl
  | cons i p => rw [reroot, Declaration.at?_cons, Declaration.at?_cons, h]

theorem Reindexed.modifyAt (h : Reindexed σ ds ds') (f : Declaration → Declaration)
    (p : List Nat) : Reindexed σ (modifyAt f ds p) (modifyAt f ds' (reroot σ p)) := by
  cases p with
  | nil => exact h
  | cons i p =>
    rw [reroot, Declaration.modifyAt_cons, Declaration.modifyAt_cons]
    exact h.modify _ i

/-! ## What is offered under another path -/

mutual

/-- What is offered at a longer path is what is offered at its end. -/
theorem offers_append (name : String) (p q : List Nat) : (d : Declaration) →
    offers name (p ++ q) d = (offers name q d).map (Prod.map id (p ++ ·))
  | ⟨kind, _, _, _, _, _, members, _⟩ => by
    rw [offers, offers, List.map_append, memberOffers_append name p q 0 members]
    split <;> rfl

theorem memberOffers_append (parent : String) (p q : List Nat) (i : Nat) :
    (ds : List Declaration) →
      memberOffers parent (p ++ q) i ds =
        (memberOffers parent q i ds).map (Prod.map id (p ++ ·))
  | [] => rfl
  | d :: ds => by
    rw [memberOffers, memberOffers, List.map_append, memberOffers_append parent p q (i + 1) ds,
      List.append_assoc, offers_append _ p (q ++ [i]) d]
    split <;> rfl

end

theorem memberOffers_reroot (σ : Nat → Nat) (parent : String) (i : Nat) (p : List Nat) (k : Nat)
    (ds : List Declaration) :
    memberOffers parent (reroot σ (i :: p)) k ds =
      (memberOffers parent (i :: p) k ds).map (Prod.map id (reroot σ)) := by
  have htop := memberOffers_append parent [i] p k ds
  have htop' := memberOffers_append parent [σ i] p k ds
  rw [List.singleton_append] at htop htop'
  rw [reroot, htop, htop', List.map_map]
  rfl

/-! ## The names that a declaration registers -/

/-- The qualified names that are registered for a declaration alone. -/
def registeredNames (d : Declaration) : List String :=
  (register [] d.name [] d).map (·.1)

/-- Whether no two declarations register the same qualified name. -/
def NamesApart (ds : List Declaration) : Prop :=
  ds.Pairwise fun d e => (registeredNames d).Disjoint (registeredNames e)

theorem Targets.mem_map_fst_iff {t : Targets} :
    n ∈ List.map (·.1) t ↔ (t.pathOf? n).isSome = true := by
  rw [pathOf?, Option.isSome_map, List.find?_isSome, List.mem_map]
  simp only [decide_eq_true_eq]

theorem mem_registeredNames_iff :
    n ∈ registeredNames d ↔ (Targets.pathOf? (offers d.name [] d) n).isSome = true := by
  rw [registeredNames, Targets.mem_map_fst_iff, register_eq, Targets.pathOf?_insertAll]
  rfl

/-- What is offered for a declaration at the top level, by its place there. -/
theorem pathOf?_offers_top (i : Nat) (d : Declaration) (n : String) :
    Targets.pathOf? (offers d.name [i] d) n =
      (Targets.pathOf? (offers d.name [] d) n).map (i :: ·) := by
  have htop := offers_append d.name [i] [] d
  rw [List.append_nil] at htop
  rw [htop, Targets.pathOf?_map]
  rfl

theorem exists_of_pathOf?_topOffers {k : Nat} {p : List Nat}
    (h : Targets.pathOf? (topOffers k ds) n = some p) :
    ∃ i d q, ds[i]? = some d ∧ Targets.pathOf? (offers d.name [] d) n = some q ∧
      p = (k + i) :: q := by
  induction ds generalizing k with
  | nil => simp [topOffers, Targets.pathOf?] at h
  | cons d ds ih =>
    rw [topOffers, Targets.pathOf?_append, Option.or_eq_some_iff, pathOf?_offers_top] at h
    rcases h with h | ⟨-, h⟩
    · obtain ⟨q, hq, rfl⟩ := Option.map_eq_some_iff.1 h
      exact ⟨0, d, q, rfl, hq, rfl⟩
    · obtain ⟨i, x, q, hx, hq, rfl⟩ := ih h
      exact ⟨i + 1, x, q, hx, hq, by rw [Nat.add_right_comm, Nat.add_assoc]⟩

/-- Among declarations whose names are apart, a name is registered for the one that offers it. -/
theorem NamesApart.pathOf?_topOffers (h : NamesApart ds) {i : Nat} {q : List Nat}
    (hd : ds[i]? = some d) (hq : Targets.pathOf? (offers d.name [] d) n = some q) (k : Nat) :
    Targets.pathOf? (topOffers k ds) n = some ((k + i) :: q) := by
  induction ds generalizing i k with
  | nil => simp at hd
  | cons x ds ih =>
    obtain ⟨hx, htail⟩ := List.pairwise_cons.1 h
    rw [topOffers, Targets.pathOf?_append, pathOf?_offers_top]
    cases i with
    | zero =>
      cases hd
      rw [hq]
      rfl
    | succ i =>
      -- those in front offer other names
      have hother : Targets.pathOf? (offers x.name [] x) n = none := by
        have hmem : n ∈ registeredNames d := mem_registeredNames_iff.2 (by rw [hq]; rfl)
        have hne : n ∉ registeredNames x := fun hn =>
          hx d (List.mem_of_getElem? hd) hn hmem
        rwa [mem_registeredNames_iff, Bool.not_eq_true, Option.isSome_eq_false_iff,
          Option.isNone_iff_eq_none] at hne
      rw [hother, ih htail hd, Nat.add_right_comm, Nat.add_assoc]
      rfl

theorem NamesApart.of_perm (h : NamesApart ds) (hperm : ds.Perm ds') : NamesApart ds' :=
  h.perm hperm fun hne _ he hd => hne hd he

/-! ## Two runs in step -/

/-- Whether a state is another one with its declarations under renamed indices. -/
structure Follows (σ : Equiv.Perm Nat) (s s' : State) : Prop where
  base : Reindexed σ s.base s'.base
  targets : ∀ n, s'.targets.pathOf? n = (s.targets.pathOf? n).map (reroot σ)
  external : s'.external = s.external

/-- The tables in the beginning register the same names, where no two declarations share one. -/
theorem follows_start (hnames : NamesApart (start ds).base) (hnames' : NamesApart (start ds').base)
    (h : Reindexed σ (start ds).base (start ds').base) : Follows σ (start ds) (start ds') where
  base := h
  targets := by
    intro n
    rw [pathOf?_start, pathOf?_start]
    cases hpath : Targets.pathOf? (topOffers 0 (start ds).base) n with
    | some p =>
      obtain ⟨i, d, q, hd, hq, rfl⟩ := exists_of_pathOf?_topOffers hpath
      rw [hnames'.pathOf?_topOffers ((h i).trans hd) hq, Nat.zero_add, Nat.zero_add]
      rfl
    | none =>
      cases hpath' : Targets.pathOf? (topOffers 0 (start ds').base) n with
      | none => rfl
      | some p =>
        obtain ⟨j, d, q, hd, hq, -⟩ := exists_of_pathOf?_topOffers hpath'
        have hback : (start ds).base[σ.symm j]? = some d := by
          rw [← h, Equiv.apply_symm_apply, hd]
        cases hpath.symm.trans (hnames.pathOf?_topOffers hback hq 0)
  external := rfl

/-- One more extension is taken in by both in the same place. -/
theorem Follows.fold (h : Follows σ s s') (hs : Resolves s) (e : Declaration) :
    Follows σ (fold s e) (fold s' e) := by
  have htarget' := h.targets e.name
  cases hpath : s.targets.pathOf? e.name with
  | none =>
    rw [hpath] at htarget'
    rw [fold_of_none hpath, fold_of_none htarget']
    exact ⟨h.base, h.targets, congrArg (keep e) h.external⟩
  | some path =>
    obtain ⟨target, htarget, -⟩ := hs _ _ hpath
    rw [hpath] at htarget'
    rw [fold_of_some hpath htarget, fold_of_some htarget' ((h.base.at? path).trans htarget)]
    refine ⟨h.base.modifyAt _ path, fun n => ?_, h.external⟩
    obtain ⟨i, path, rfl⟩ := List.exists_cons_of_ne_nil (Declaration.ne_nil_of_at? htarget)
    rw [Targets.pathOf?_insertAll, Targets.pathOf?_insertAll, h.targets, memberOffers_reroot,
      Targets.pathOf?_map, Option.map_or]

theorem Follows.foldl (h : Follows σ s s') (hs : Resolves s) (es : List Declaration) :
    Follows σ (es.foldl Merge.fold s) (es.foldl Merge.fold s') := by
  induction es generalizing s s' with
  | nil => exact h
  | cons e es ih => exact ih (h.fold hs e) (resolves_fold hs e)

/-- Declarations in another order, in which the extensions among them stand in theirs. -/
structure Rearranged (ds ds' : List Declaration) : Prop where
  perm : ds.Perm ds'
  extensions : extensions ds = extensions ds'

/-- **Merges of rearranged declarations go in step** where the names of those that are no extensions
are apart. -/
theorem Rearranged.follows_run (h : Rearranged ds ds')
    (hnames : NamesApart (ds.filter fun d => !d.isExtension)) :
    ∃ σ, Follows σ (run ds) (run ds') := by
  have hperm := h.perm.filter fun d => !d.isExtension
  obtain ⟨σ, hσ⟩ := exists_reindexed hperm
  have hstart : Follows σ (start ds) (start ds') := follows_start hnames (hnames.of_perm hperm) hσ
  have hext : ds.filter Declaration.isExtension = ds'.filter Declaration.isExtension := h.extensions
  refine ⟨σ, ?_⟩
  rw [run, run, ← hext]
  exact hstart.foldl (resolves_start ds) _

/-- The same declarations come out, in another order. -/
theorem Rearranged.mem_mergeExtensions_iff (h : Rearranged ds ds')
    (hnames : NamesApart (ds.filter fun d => !d.isExtension)) :
    d ∈ mergeExtensions ds' ↔ d ∈ mergeExtensions ds := by
  obtain ⟨σ, hrun⟩ := h.follows_run hnames
  rw [mergeExtensions, mergeExtensions, List.mem_append, List.mem_append, hrun.base.mem_iff,
    hrun.external]

end ApiPages.Merge
