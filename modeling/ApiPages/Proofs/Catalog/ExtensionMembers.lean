import ApiPages.Documents
import ApiPages.Proofs.Catalog.Group
import ApiPages.Proofs.Declaration.Visible
import ApiPages.Proofs.Merge.Growth

/-!
# Members of extensions in the catalog

A member that an extension brings goes to the first type of the extension's name, and the catalog
holds the last visible declaration of each name. The member is shown where the two are one
declaration; `member_isShown` says so, and `not_isShown_of_duplicate` that it can be lost where
they are not.
-/

namespace ApiPages

open Merge (Assembled foldedInto fates start run mergeExtensions)
open Declaration (visible visible? at?)

variable {ds : List Declaration} {e m t : Declaration} {i : Nat} {settings : Settings}

/-- What is visible of a member, after the merge has put it somewhere with what was folded into it,
stands among the members of a declaration of the catalog that has a given name. -/
def IsShown (settings : Settings) (ds : List Declaration) (name : String)
    (m : Declaration) : Prop :=
  ∃ c, ∃ t ∈ (catalogOf settings ds).group c, t.name = name ∧
    ∃ i j m₁ m₂, at? (mergeExtensions ds) [i, j] = some m₁ ∧
      Assembled (foldedInto ds) [i, j] m m₁ ∧
      visible? settings.minAccess m₁ = some m₂ ∧ m₂ ∈ t.members

/-! ## From the extension to its target -/

theorem Merge.mem_fates {s : State} {es : List Declaration} {p : List Nat} (he : e ∈ es)
    (h : s.targets.pathOf? e.name = some p) : ⟨e, some p⟩ ∈ fates s es := by
  induction es generalizing s with
  | nil => simp at he
  | cons x es ih =>
    rw [fates]
    rcases List.mem_cons.1 he with rfl | he
    · simp [h]
    · exact List.mem_cons_of_mem _ (ih he (pathOf?_fold h x))

/-- An extension whose name is registered from the beginning is folded there. -/
theorem Merge.mem_foldedInto {p : List Nat} (he : e ∈ ds) (hext : e.isExtension = true)
    (h : (start ds).targets.pathOf? e.name = some p) : e ∈ foldedInto ds p := by
  have hfate := mem_fates (List.mem_filter.2 ⟨he, hext⟩) h
  exact List.mem_map.2 ⟨⟨e, some p⟩, List.mem_filter.2 ⟨hfate, by simp⟩, rfl⟩

/-- What is registered for a top-level index is the type there, under its own name. -/
theorem Merge.name_of_pathOf?_start {n : String}
    (h : (start ds).targets.pathOf? n = some [i]) :
    ∃ t, (ds.filter fun d => !d.isExtension)[i]? = some t ∧ t.name = n ∧
      t.kind.isExtendable = true := by
  rw [start, registerAll_eq] at h
  rcases Targets.mem_insertAll (Targets.mem_of_pathOf? h) with h | h
  · simp at h
  · obtain ⟨j, d, q, hd, hp, hn, x, hx, hk⟩ := mem_topOffers h
    obtain ⟨rfl, rfl⟩ : i = j ∧ [] = q := by simpa using hp
    obtain rfl : d = x := Option.some.inj hx
    exact ⟨d, hd, Option.some.inj hn, hk⟩

/-- The member of an extension stands, with what was folded into it, in the target after the
merge. -/
theorem Merge.exists_member {t' : Declaration} (he : e ∈ foldedInto ds [i])
    (hm : m ∈ e.members) (ht' : (run ds).base[i]? = some t')
    (hgrown : Assembled (foldedInto ds) [i] t t') :
    ∃ j m₁, at? (mergeExtensions ds) [i, j] = some m₁ ∧
      Assembled (foldedInto ds) [i, j] m m₁ ∧ m₁ ∈ t'.members := by
  have hmem : m ∈ t.members ++ (foldedInto ds [i]).flatMap (·.members) :=
    List.mem_append_right _ (List.mem_flatMap.2 ⟨e, he, hm⟩)
  obtain ⟨j, hj⟩ := List.mem_iff_getElem?.1 hmem
  obtain ⟨m₁, hm₁, hass⟩ := hgrown.member hj
  have hlt := (List.getElem?_eq_some_iff.1 ht').1
  refine ⟨j, m₁, ?_, hass, List.mem_of_getElem? hm₁⟩
  rw [Declaration.at?_cons, mergeExtensions, List.getElem?_append_left hlt, ht']
  simp [Declaration.below?, hm₁]

/-! ## From the target to the catalog -/

/-- A visible declaration is in the catalog unless a later one has its kind and its name. -/
theorem mem_group_of_last {c : Category} {t' t₂ : Declaration}
    (ht' : (run ds).base[i]? = some t') (hvis : visible? settings.minAccess t' = some t₂)
    (hc : Category.ofKind? t'.kind = some c) (hext : t'.isExtension = false)
    (hlast : ∀ j s, i < j → (run ds).base[j]? = some s → s.kind = t'.kind →
      s.name = t'.name → s.access.meets settings.minAccess = false) :
    t₂ ∈ (catalogOf settings ds).group c := by
  have hhead := Declaration.head_of_visible? hvis
  have hsplit : (run ds).base =
      (run ds).base.take i ++ t' :: (run ds).base.drop (i + 1) := by
    rw [← (List.getElem?_eq_some_iff.1 ht').2, List.getElem_cons_drop, List.take_append_drop]
  rw [catalogOf, Catalog.group_ofList, Merge.mergeExtensions, hsplit, List.append_assoc,
    List.cons_append, Declaration.visible_append, Declaration.visible, hvis]
  refine Catalog.mem_groupOf (by rw [Declaration.kind_eq_of_head hhead, hc]) ?_
  intro s₂ hs₂ hsc hsn
  obtain ⟨s, hs, hsvis⟩ := Declaration.mem_visible.1 hs₂
  have hshead := Declaration.head_of_visible? hsvis
  have hskind : s.kind = t'.kind := by
    rw [← Declaration.kind_eq_of_head hshead]
    exact Category.ofKind?_inj hsc hc
  rcases List.mem_append.1 hs with hs | hs
  · -- a later declaration that is no extension
    obtain ⟨k, hk⟩ := List.mem_iff_getElem?.1 hs
    rw [List.getElem?_drop] at hk
    have hsname : s.name = t'.name := by
      rw [← Declaration.name_eq_of_head hshead, hsn, Declaration.name_eq_of_head hhead]
    have hno := hlast (i + 1 + k) s (by omega) hk hskind hsname
    rw [(Declaration.visible?_eq_some hsvis).1] at hno
    cases hno
  · -- an extension that was kept
    have hsext := Merge.isExtension_of_mem_external hs
    rw [Declaration.isExtension, hskind] at hsext
    rw [Declaration.isExtension, hsext] at hext
    cases hext

/-- What was visible by its own level still is with what was folded into it. -/
theorem Merge.Assembled.visible?_of_meets {folded : List Nat → List Declaration} {p : List Nat}
    {d d' : Declaration} {least : Access} (h : Assembled folded p d d')
    (hext : d.isExtension = false) (hmeets : d.access.meets least = true) :
    visible? least d' = some { d' with members := visible least d'.members } := by
  refine Declaration.visible?_of_meets least ?_ ?_
  · rw [Declaration.isExtension_eq_of_head h.head_eq, hext]
  · rw [Declaration.access_eq_of_head h.head_eq, hmeets]

/-- **A visible member of an extension is shown** where the first type registered under the
extension's name is a visible top-level declaration that no later visible one of its kind has the
name of. -/
theorem member_isShown (settings : Settings) (he : e ∈ ds) (hext : e.isExtension = true)
    (hm : m ∈ e.members) (hmext : m.isExtension = false)
    (hmeets : m.access.meets settings.minAccess = true)
    (hfirst : (start ds).targets.pathOf? e.name = some [i])
    (ht : (ds.filter fun d => !d.isExtension)[i]? = some t)
    (htmeets : t.access.meets settings.minAccess = true)
    (hlast : ∀ j s, i < j → (ds.filter fun d => !d.isExtension)[j]? = some s →
      s.kind = t.kind → s.name = t.name → s.access.meets settings.minAccess = false) :
    IsShown settings ds e.name m := by
  obtain ⟨_, ht₀, htname, htkind⟩ := Merge.name_of_pathOf?_start hfirst
  obtain rfl := Option.some.inj (ht.symm.trans ht₀)
  have hbase := (Merge.accounted_run ds).base
  obtain ⟨t', ht', hgrown⟩ := hbase.get? ht
  obtain ⟨j, m₁, hat, hass, hm₁⟩ :=
    Merge.exists_member (Merge.mem_foldedInto he hext hfirst) hm ht' hgrown
  have hkind : t'.kind = t.kind := Declaration.kind_eq_of_head hgrown.head_eq
  have hname : t'.name = t.name := Declaration.name_eq_of_head hgrown.head_eq
  -- the target is visible with its members, and so is the member
  have htext : t.isExtension = false := by
    simpa using (List.mem_filter.1 (List.mem_of_getElem? ht)).2
  have hvis := hgrown.visible?_of_meets htext htmeets
  have hmvis := hass.visible?_of_meets hmext hmeets
  have hshown := Declaration.mem_visible.2 ⟨m₁, hm₁, hmvis⟩
  obtain ⟨c, hc⟩ := Category.exists_ofKind? htkind
  rw [← hkind] at hc
  -- what stands after the target is what stood there before the merge
  have hlater : ∀ k s, i < k → (run ds).base[k]? = some s → s.kind = t'.kind →
      s.name = t'.name → s.access.meets settings.minAccess = false := by
    intro k s hk hs hsk hsn
    have hlt := (List.getElem?_eq_some_iff.1 hs).1
    obtain ⟨s₀, hs₀⟩ : ∃ s₀, (ds.filter fun d => !d.isExtension)[k]? = some s₀ :=
      ⟨_, List.getElem?_eq_getElem (by rw [← hbase.1]; exact hlt)⟩
    have hshead := (hbase.2 k s₀ s hs₀ hs).head_eq
    rw [Declaration.access_eq_of_head hshead]
    rw [Declaration.kind_eq_of_head hshead, hkind] at hsk
    rw [Declaration.name_eq_of_head hshead, hname] at hsn
    exact hlast k s₀ hk hs₀ hsk hsn
  have htext' : t'.isExtension = false := by
    rw [Declaration.isExtension_eq_of_head hgrown.head_eq, htext]
  have hgroup := mem_group_of_last ht' hvis hc htext' hlater
  exact ⟨c, _, hgroup, hname.trans htname, i, j, m₁, _, hat, hass, hmvis, hshown⟩

/-- A public struct with an enum and a private struct of its name after it keeps the member that an
extension of the name brings. -/
theorem member_isShown_beside_others :
    IsShown .standard
      [.bare .structType "Dup" [], .bare .enumType "Dup" [],
        { Declaration.bare .structType "Dup" [] with access := .privateLevel },
        .bare .typeExtension "Dup" [.bare .function "z()" []]]
      "Dup" (.bare .function "z()" []) := by
  refine member_isShown (e := .bare .typeExtension "Dup" [.bare .function "z()" []])
    (t := .bare .structType "Dup" []) (i := 0) .standard (by simp) rfl (by simp [Declaration.bare])
    rfl rfl (by decide) rfl rfl fun j s hj hs hk hn => ?_
  match j, hj with
  | 1, _ =>
    cases hs
    cases hk
  | 2, _ =>
    cases hs
    rfl
  | j + 3, _ => simp [Declaration.bare, Declaration.isExtension] at hs

/-- A type of the name that is visible is not enough: of two classes the first gets the member, and
the catalog holds the second. -/
theorem not_isShown_of_duplicate :
    ¬ ∀ (settings : Settings) (ds : List Declaration) (e m : Declaration),
      Declaration.checkStructure ds = .ok () → e ∈ ds → e.isExtension = true →
      m ∈ e.members → m.isExtension = false →
      m.access.meets settings.minAccess = true →
      (∃ t ∈ ds, t.kind.isExtendable = true ∧ t.name = e.name ∧
        t.access.meets settings.minAccess = true) →
      IsShown settings ds e.name m := by
  intro h
  have hshown := h .standard
    [.bare .classType "Dup" [], .bare .classType "Dup" [],
      .bare .typeExtension "Dup" [.bare .function "z()" []]]
    (.bare .typeExtension "Dup" [.bare .function "z()" []]) (.bare .function "z()" [])
    rfl (by simp) rfl (by simp [Declaration.bare]) rfl rfl
    ⟨.bare .classType "Dup" [], by simp, rfl, rfl, rfl⟩
  obtain ⟨c, t, ht, -, -, -, -, m₂, -, -, -, hm₂⟩ := hshown
  have hempty : ∀ c, ∀ t ∈ (catalogOf .standard
      [.bare .classType "Dup" [], .bare .classType "Dup" [],
        .bare .typeExtension "Dup" [.bare .function "z()" []]]).group c,
      t.members.isEmpty = true := by
    intro c
    cases c <;> decide
  rw [List.isEmpty_iff.1 (hempty c t ht)] at hm₂
  simp at hm₂

end ApiPages
