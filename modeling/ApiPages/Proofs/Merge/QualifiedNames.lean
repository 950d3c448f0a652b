import ApiPages.Proofs.Merge.Steps
import ApiPages.Proofs.Merge.Types

/-!
# The names of targets

In the table of a merge every type has its qualified name, also one that came in with an extension,
as long as extensions that bring types have targets that are written with names which qualify these
types as the extensions' own names do (`targets_qualified`). Where a nested type is written with its
own name only, what is brought into it gets the wrong name (`not_targets_qualified`).
-/

namespace ApiPages.Merge

open Declaration (at? modifyAt)

variable {ds : List Declaration} {d e t : Declaration} {s : State} {n : String}

/-- Whether the table says where the types are: what it has under a name is a type of that qualified
name, and every type's qualified name is in it. -/
structure Faithful (s : State) : Prop where
  entries : ∀ n p, (n, p) ∈ s.targets → TypeAt s.base n p
  complete : ∀ n p, TypeAt s.base n p → ∃ q, s.targets.pathOf? n = some q

/-- Whether the types that an extension brings get the same qualified names from the extension's own
name and from the name that its target is written with. -/
def QualifiedAlike (s : State) (e : Declaration) : Prop :=
  ∀ p t, s.targets.pathOf? e.name = some p → at? s.base p = some t →
    ∀ x ∈ e.members, x.kind.isExtendable = true → qualify t.name x.name = qualify e.name x.name

theorem Targets.exists_pathOf?_of_mem {t : Targets} {p : List Nat} (h : (n, p) ∈ t) :
    ∃ q, t.pathOf? n = some q := by
  cases hfind : List.find? (fun target => target.1 = n) t with
  | none =>
    have hne := List.find?_eq_none.1 hfind (n, p) h
    simp at hne
  | some target => exact ⟨target.2, by rw [pathOf?, hfind]; rfl⟩

theorem memberOffers_congr {a b : String} (path : List Nat) (i : Nat)
    (h : ∀ x ∈ ds, x.kind.isExtendable = true → qualify a x.name = qualify b x.name) :
    memberOffers a path i ds = memberOffers b path i ds := by
  induction ds generalizing i with
  | nil => rfl
  | cons d ds ih =>
    rw [memberOffers, memberOffers, ih _ fun x hx => h x (List.mem_cons_of_mem _ hx)]
    by_cases hk : d.kind.isExtendable = true
    · rw [h d List.mem_cons_self hk]
    · rw [if_neg hk, if_neg hk]

theorem isExtension_of_mem_start (h : d ∈ (start ds).base) : d.isExtension = false := by
  simpa using (List.mem_filter.1 h).2

theorem faithful_start (ds : List Declaration) : Faithful (start ds) := by
  have hoffers : ∀ n p, TypeAt (start ds).base n p ↔ (n, p) ∈ topOffers 0 (start ds).base :=
    fun n p => typeAt_iff_mem_topOffers fun d => isExtension_of_mem_start
  have htargets : (start ds).targets = Targets.insertAll [] (topOffers 0 (start ds).base) :=
    registerAll_eq [] 0 _
  constructor
  · intro n p h
    rw [htargets] at h
    rcases Targets.mem_insertAll h with h | h
    · simp at h
    · exact (hoffers n p).2 h
  · intro n p h
    obtain ⟨q, hq⟩ := Targets.exists_pathOf?_of_mem ((hoffers n p).1 h)
    rw [htargets, Targets.pathOf?_insertAll]
    exact ⟨q, hq⟩

/-- **The table stays faithful** when an extension is folded whose types are qualified alike. -/
theorem faithful_fold {s : State} (hs : Faithful s) (he : QualifiedAlike s e) :
    Faithful (fold s e) := by
  cases hpath : s.targets.pathOf? e.name with
  | none =>
    rw [fold_of_none hpath]
    exact ⟨hs.entries, hs.complete⟩
  | some path =>
    have htarget := hs.entries _ _ (Targets.mem_of_pathOf? hpath)
    obtain ⟨t, ht, -⟩ := htarget.at?
    have hbase : ∀ n p, TypeAt (modifyAt (absorb · e) s.base path) n p ↔
        TypeAt s.base n p ∨ (n, p) ∈ memberOffers e.name path t.members.length e.members :=
      fun n p => typeAt_modifyAt_iff (adds_absorb e) htarget ht
    -- the table gets the names that the target's written name gives, the types have those that the
    -- extension's name gives; they are the same ones
    rw [fold_of_some hpath ht, memberOffers_congr path _ (he path t hpath ht)]
    constructor
    · intro n p h
      rw [hbase]
      exact (Targets.mem_insertAll h).imp_left (hs.entries n p)
    · intro n p h
      rw [hbase] at h
      rw [Targets.pathOf?_insertAll]
      rcases h with h | h
      · obtain ⟨q, hq⟩ := hs.complete n p h
        exact ⟨q, by rw [hq]; rfl⟩
      · cases hn : s.targets.pathOf? n with
        | some q => exact ⟨q, rfl⟩
        | none => exact Targets.exists_pathOf?_of_mem h

/-- The table is faithful after extensions whose types are qualified alike. -/
theorem faithful_after {i : Nat}
    (h : ∀ j < i, ∀ e, (extensions ds)[j]? = some e → QualifiedAlike (after ds j) e) :
    Faithful (after ds i) :=
  after_induct (faithful_start ds) i fun j hj e he hs => faithful_fold hs (h j hj e he)

/-! ## Targets under their names -/

/-- Whether a type is a target under its qualified name and no other: extensions of the name have a
target, which is this type if no other has the name, and extensions of other names have another. -/
structure TargetOnlyAs (s : State) (name : String) (place : List Nat) : Prop where
  found : ∃ p, s.targets.pathOf? name = some p
  alone : (∀ p, TypeAt s.base name p → p = place) → s.targets.pathOf? name = some place
  only : ∀ other, s.targets.pathOf? other = some place → other = name

theorem Faithful.targetOnlyAs {place : List Nat} (hs : Faithful s) (h : TypeAt s.base n place) :
    TargetOnlyAs s n place := by
  obtain ⟨p, hp⟩ := hs.complete n place h
  refine ⟨⟨p, hp⟩, ?_, ?_⟩
  · intro halone
    rw [hp, halone p (hs.entries n p (Targets.mem_of_pathOf? hp))]
  · intro other hother
    exact (hs.entries other place (Targets.mem_of_pathOf? hother)).name_eq h

/-- A type stays where it is, under its name. -/
theorem TypeAt.fold {p : List Nat} (h : TypeAt s.base n p) (e : Declaration) :
    TypeAt (fold s e).base n p := by
  unfold Merge.fold
  split
  · exact h
  · split
    · exact h
    · exact h.modifyAt (adds_absorb e) _

theorem TypeAt.after {i j : Nat} {p : List Nat} (h : TypeAt (after ds i).base n p) (hij : i ≤ j) :
    TypeAt (Merge.after ds j).base n p :=
  after_mono (P := fun s => TypeAt s.base n p) (fun _ e hs => hs.fold e) hij h

/-- **Every target is registered under its qualified name**, at every point of a merge up to which
the extensions' types were qualified alike. A type that an extension of `q` brought then has the
name that `q` gives to it, and every type, wherever it came from, is a target under its qualified
name and no other. -/
theorem targets_qualified {k : Nat}
    (halike : ∀ i < k, ∀ e, (extensions ds)[i]? = some e → QualifiedAlike (after ds i) e) :
    (∀ name path, (name, path) ∈ (after ds k).targets →
      qualifiedName? (after ds k).base path = some name) ∧
    (∀ name place, TypeAt (after ds k).base name place → TargetOnlyAs (after ds k) name place) ∧
    ∀ i < k, ∀ e path t, (extensions ds)[i]? = some e →
      (after ds i).targets.pathOf? e.name = some path → at? (after ds i).base path = some t →
      ∀ j x, e.members[j]? = some x → x.kind.isExtendable = true →
        TypeAt (after ds k).base (qualify e.name x.name) (path ++ [t.members.length + j]) := by
  have hk := faithful_after halike
  refine ⟨fun name path h => (hk.entries name path h).qualifiedName?,
    fun name place h => hk.targetOnlyAs h, ?_⟩
  intro i hi e path t he hpath ht j x hx hxk
  have hfaithful : Faithful (after ds i) := faithful_after fun j hj => halike j (by omega)
  have htarget := hfaithful.entries _ _ (Targets.mem_of_pathOf? hpath)
  have hoffer : (qualify e.name x.name, path ++ [t.members.length + j]) ∈
      memberOffers e.name path t.members.length e.members :=
    (mem_memberOffers_iff _).2 ⟨j, x, [], hx, hxk, rfl, hxk, rfl⟩
  -- it stands there after its extension was folded, and so it does later
  have hbrought : TypeAt (after ds (i + 1)).base (qualify e.name x.name)
      (path ++ [t.members.length + j]) := by
    rw [after_succ he, fold_of_some hpath ht]
    exact (typeAt_modifyAt_iff (adds_absorb e) htarget ht).2 (.inr hoffer)
  exact hbrought.after hi

/-- A struct with a struct in it, which is written with a given name, and extensions down to a third
level. -/
def deepStructs (inner : String) : List Declaration :=
  [.bare .structType "Outer" [.bare .structType inner []],
    .bare .typeExtension "Outer.Inner" [.bare .structType "Deep" []],
    .bare .typeExtension "Outer.Inner.Deep" [.bare .function "f()" []]]

/-- Where the inner struct is written with its qualified name, what an extension brings into it is a
target for the next one. -/
theorem targets_of_deepStructs :
    (∀ i < 2, ∀ e, (extensions (deepStructs "Outer.Inner"))[i]? = some e →
      QualifiedAlike (after (deepStructs "Outer.Inner") i) e) ∧
    TargetOnlyAs (after (deepStructs "Outer.Inner") 2) "Outer.Inner.Deep" [0, 0, 0] := by
  have halike : ∀ i < 2, ∀ e, (extensions (deepStructs "Outer.Inner"))[i]? = some e →
      QualifiedAlike (after (deepStructs "Outer.Inner") i) e := by
    intro i hi e he p t hp ht x hx hk
    match i, hi with
    | 0, _ =>
      cases he
      cases hp
      cases ht
      rfl
    | 1, _ =>
      cases he
      rw [List.mem_singleton.1 hx] at hk
      cases hk
  have hall := targets_qualified halike
  refine ⟨halike, hall.2.1 _ _ ?_⟩
  exact hall.2.2 0 (by decide) _ [0, 0] (.bare .structType "Outer.Inner" []) rfl rfl rfl 0
    (.bare .structType "Deep" []) rfl rfl

/-- Where it is written with its own name only, the struct that is brought into it is registered as
`Inner.Deep`. -/
theorem not_targets_qualified :
    ¬ ∀ (ds : List Declaration) (k : Nat) (name : String) (path : List Nat),
      (name, path) ∈ (after ds k).targets →
      qualifiedName? (after ds k).base path = some name := by
  intro h
  have hdeep := h (deepStructs "Inner") 1 "Inner.Deep" [0, 0, 0] (by decide +kernel)
  exact absurd hdeep (by decide +kernel)

end ApiPages.Merge
