import ApiPages.Proofs.Declaration.Placement
import ApiPages.Proofs.Merge.Everywhere
import ApiPages.Proofs.Merge.Growth

/-!
# Faults after a merge

A merge changes where members stand. What comes out of accepted declarations has no other faults
than cases that an extension has brought into a type that is no enum, since an extension may have
cases whatever it extends (`checkStructure_mergeExtensions_iff`).
-/

namespace ApiPages

open Declaration (Everywhere Sound at? everywhere_iff_forall everywhere_append checkStructure
  checkStructure_eq_ok_iff)

namespace Merge

variable {P : Declaration → Prop} {ds es : List Declaration} {d d' e t : Declaration}
  {folded : List Nat → List Declaration} {path : List Nat}

/-! ## Where declarations come from -/

namespace Assembled

/-- A member was there before, or came with an extension. -/
theorem of_member (h : Assembled folded path d d') {i : Nat} {m' : Declaration}
    (hm' : d'.members[i]? = some m') :
    ∃ m, (d.members ++ (folded path).flatMap (·.members))[i]? = some m ∧
      Assembled folded (path ++ [i]) m m' := by
  cases h with
  | intro _ _ length members =>
    have hlt := (List.getElem?_eq_some_iff.1 hm').1
    rw [length] at hlt
    exact ⟨_, List.getElem?_eq_getElem hlt, members i _ m' (List.getElem?_eq_getElem hlt) hm'⟩

/-- What stands below a declaration has become of one that was below it, or of one that came with an
extension. -/
theorem of_below? (h : Assembled folded path d d') (hd : P d ∧ Everywhere P d.members)
    (hfolded : ∀ q, ∀ e ∈ folded q, Everywhere P e.members) {q : List Nat}
    (ht : d'.below? q = some t) : ∃ x, P x ∧ Assembled folded (path ++ q) x t := by
  induction q generalizing path d d' with
  | nil =>
    cases ht
    exact ⟨d, hd.1, by rwa [List.append_nil]⟩
  | cons i q ih =>
    obtain ⟨m', hm', hbelow⟩ := Option.bind_eq_some_iff.1 ht
    obtain ⟨m, hm, hassembled⟩ := h.of_member hm'
    -- the member was the declaration's own or came with an extension; it holds of both
    have hmember : P m ∧ Everywhere P m.members := by
      rcases List.mem_append.1 (List.mem_of_getElem? hm) with hold | hnew
      · exact everywhere_iff_forall.1 hd.2 m hold
      · obtain ⟨e, he, hme⟩ := List.mem_flatMap.1 hnew
        exact everywhere_iff_forall.1 (hfolded path e he) m hme
    rw [List.append_cons]
    exact ih hassembled hmember hbelow

/-- The kinds of the members are those of the members that were there, and of those that came with
extensions. -/
theorem map_kind_members (h : Assembled folded path d d') :
    d'.members.map (·.kind) =
      (d.members ++ (folded path).flatMap (·.members)).map (·.kind) := by
  refine List.ext_getElem? fun i => ?_
  rw [List.getElem?_map, List.getElem?_map]
  cases hm' : d'.members[i]? with
  | none =>
    cases h with
    | intro _ _ length _ =>
      rw [List.getElem?_eq_none_iff, length] at hm'
      rw [List.getElem?_eq_none hm']
  | some m' =>
    obtain ⟨m, hm, hassembled⟩ := h.of_member hm'
    rw [hm, Option.map_some, Option.map_some, Declaration.kind_eq_of_head hassembled.head_eq]

/-- A declaration that was sound is sound just when what was folded into it may stand there. -/
theorem sound_iff (h : Assembled folded path d d') (hd : d.Sound) : d'.Sound ↔
    ∀ e ∈ folded path, ∀ m ∈ e.members, m.kind.mayStandIn (some d'.kind) = true := by
  have hkind : d'.kind = d.kind := Declaration.kind_eq_of_head h.head_eq
  have hmembers : (∀ m ∈ d'.members, m.kind.mayStandIn (some d'.kind) = true) ↔
      ∀ m ∈ d.members ++ (folded path).flatMap (·.members),
        m.kind.mayStandIn (some d'.kind) = true := by
    rw [← List.forall_mem_map (P := fun k => Kind.mayStandIn k (some d'.kind) = true),
      h.map_kind_members, List.forall_mem_map]
  constructor
  · intro hsound e he m hm
    refine hmembers.1 hsound.placed m (List.mem_append_right _ ?_)
    exact List.mem_flatMap.2 ⟨e, he, hm⟩
  · intro hfolded
    refine ⟨by rw [Declaration.name_eq_of_head h.head_eq]; exact hd.named, hmembers.2 ?_⟩
    intro m hm
    rcases List.mem_append.1 hm with hold | hnew
    · rw [hkind]
      exact hd.placed m hold
    · obtain ⟨e, he, hme⟩ := List.mem_flatMap.1 hnew
      exact hfolded e he m hme

end Assembled

theorem AssembledAll.of_at? {ds' : List Declaration} (h : AssembledAll folded ds ds')
    (hds : Everywhere P ds) (hfolded : ∀ q, ∀ e ∈ folded q, Everywhere P e.members)
    (ht : at? ds' path = some t) : ∃ x, P x ∧ Assembled folded path x t := by
  obtain ⟨i, q, rfl⟩ := List.exists_cons_of_ne_nil (Declaration.ne_nil_of_at? ht)
  rw [Declaration.at?_cons] at ht
  obtain ⟨d', hd', hbelow⟩ := Option.bind_eq_some_iff.1 ht
  have hlt := (List.getElem?_eq_some_iff.1 hd').1
  rw [h.1] at hlt
  have hd := List.getElem?_eq_getElem hlt
  exact (h.2 i _ d' hd hd').of_below? (everywhere_iff_forall.1 hds _ (List.mem_of_getElem? hd))
    hfolded hbelow

/-! ## The outcome of a merge -/

/-- Extensions are kept without faults: whatever their members are, they may stand there. -/
theorem sound_external (h : Everywhere Sound ds) : Everywhere Sound (run ds).external := by
  rw [everywhere_iff_forall] at h ⊢
  intro d hd
  have hkind : d.kind = .typeExtension := of_decide_eq_true (isExtension_of_mem_external hd)
  obtain ⟨x, xs, rfl, hall⟩ := exists_combined_of_mem_external hd
  refine ⟨⟨?_, ?_⟩, ?_⟩
  · rw [Declaration.name_eq_of_head (combined_head x xs)]
    exact (h x (hall x List.mem_cons_self).1).1.named
  · intro m _
    rw [hkind, Kind.mayStandIn_some]
    intro _
    rfl
  · rw [combined_members, everywhere_iff_forall]
    intro m hm
    obtain ⟨e, he, hme⟩ := List.mem_flatMap.1 hm
    exact everywhere_iff_forall.1 (h e (hall e he).1).2 m hme

/-- Whether cases that extensions bring into types are brought into enums. -/
def CasesInEnums (ds : List Declaration) : Prop :=
  ∀ path t, at? (mergeExtensions ds) path = some t → ∀ e ∈ foldedInto ds path,
    ∀ m ∈ e.members, m.kind = .enumCase → t.kind = .enumType

theorem sound_base_iff (h : Everywhere Sound ds) :
    Everywhere Sound (run ds).base ↔ CasesInEnums ds := by
  have hbase : Everywhere Sound (ds.filter fun d => !d.isExtension) :=
    Declaration.everywhere_filter h _
  have hfolded : ∀ q, ∀ e ∈ foldedInto ds q, Everywhere Sound e.members := by
    intro q e he
    have hmem := List.mem_of_mem_filter (mem_of_mem_foldedAt he)
    exact (everywhere_iff_forall.1 h e hmem).2
  have hsound : ∀ path t, at? (run ds).base path = some t →
      (t.Sound ↔ ∀ e ∈ foldedInto ds path, ∀ m ∈ e.members,
        m.kind = .enumCase → t.kind.holdsCases = true) := by
    -- it has become of a declaration that was sound, so only what was folded into it counts
    intro path t ht
    obtain ⟨x, hx, hassembled⟩ := (accounted_run ds).base.of_at? hbase hfolded ht
    rw [hassembled.sound_iff hx]
    simp only [Kind.mayStandIn_some]
    exact Iff.rfl
  rw [Declaration.everywhere_iff_at?]
  constructor
  · -- what extensions are folded into are types, and of these only enums hold cases
    intro hall path t ht e he m hm hcase
    obtain ⟨t', ht', hk⟩ := (accounted_run ds).standing he
    obtain rfl : t' = t := Option.some.inj ((Declaration.at?_append_left ht').symm.trans ht)
    exact (Kind.holdsCases_iff hk).1 ((hsound path t' ht').1 (hall path t' ht') e he m hm hcase)
  · intro hcases path t ht
    refine (hsound path t ht).2 fun e he m hm hcase => ?_
    rw [hcases path t (Declaration.at?_append_left ht) e he m hm hcase]
    rfl

/-- At the top level there is no case after a merge if there was none before. -/
theorem kind_ne_enumCase (h : ∀ d ∈ ds, d.kind ≠ .enumCase) :
    ∀ d ∈ mergeExtensions ds, d.kind ≠ .enumCase := by
  intro d hd
  rcases List.mem_append.1 hd with hd | hd
  · obtain ⟨x, hx, -, hhead⟩ := exists_head_of_mem_base hd
    rw [Declaration.kind_eq_of_head hhead]
    exact h x hx
  · have hkind : d.kind = .typeExtension := of_decide_eq_true (isExtension_of_mem_external hd)
    rw [hkind]
    decide

/-- **What a merge makes of accepted declarations is accepted** just when every extension with cases
that finds a type finds an enum. -/
theorem checkStructure_mergeExtensions_iff (h : checkStructure ds = .ok ()) :
    checkStructure (mergeExtensions ds) = .ok () ↔ CasesInEnums ds := by
  rw [checkStructure_eq_ok_iff] at h ⊢
  obtain ⟨hkinds, hsound⟩ := h
  constructor
  · rintro ⟨-, hall⟩
    exact (sound_base_iff hsound).1 (everywhere_append.1 hall).1
  · intro hcases
    refine ⟨kind_ne_enumCase hkinds, everywhere_append.2 ⟨?_, sound_external hsound⟩⟩
    exact (sound_base_iff hsound).2 hcases

/-- A type with a case that an extension adds to it. -/
def extendedByCase (kind : Kind) : List Declaration :=
  [.bare kind "Dog" [], .bare .typeExtension "Dog" [.bare .enumCase "wag" []]]

/-- An enum takes the case. -/
theorem casesInEnums_of_enum : checkStructure (extendedByCase .enumType) = .ok () ∧
    CasesInEnums (extendedByCase .enumType) :=
  ⟨rfl, (checkStructure_mergeExtensions_iff rfl).1 rfl⟩

/-- A struct takes it too, and is then refused. -/
theorem not_accepted_of_struct : ¬ ∀ ds : List Declaration, checkStructure ds = .ok () →
    checkStructure (mergeExtensions ds) = .ok () := by
  intro h
  have hstruct := h (extendedByCase .structType) rfl
  have hfault : checkStructure (mergeExtensions (extendedByCase .structType)) =
      .error (.misplacedCase ⟨0, [0]⟩ "wag") := rfl
  cases hfault.symm.trans hstruct

end Merge

end ApiPages
