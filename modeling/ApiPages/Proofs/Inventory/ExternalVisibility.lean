import ApiPages.Proofs.Declaration.Visible
import ApiPages.Proofs.Inventory.ImpliedAccess
import ApiPages.Proofs.Merge.External

/-!
# The visibility of external extensions

The extensions of an external type are combined into the first of them, which keeps its level. When
the level was implied, it is that of the first extension's members alone, and a visible member of a
later one is lost when the level falls short. `visibility_of_external` says when this happens.
-/

namespace ApiPages.Merge

open Declaration (visible visible?)

variable {T : String} {least : Access} {ds ds' : List Declaration} {d e e' : Declaration}
  {es es' : List Declaration}

/-- What is visible of the entry of a type after the merge, as a list of at most one. -/
def entry (least : Access) (T : String) (ds : List Declaration) : List Declaration :=
  extensionsOf T (visible least (mergeExtensions ds))

/-- The members that are visible in the entry of a type after the merge. -/
def survivors (least : Access) (T : String) (ds : List Declaration) : List Declaration :=
  (entry least T ds).flatMap (·.members)

/-- Some member of one of the extensions is visible on its own. -/
def HasVisible (least : Access) (es : List Declaration) : Prop :=
  ∃ e ∈ es, ∃ m ∈ e.members, ∃ m', visible? least m = some m'

/-- One member of the extension has a level that is asked for, or there is none and internal will
do. -/
def Admits (least : Access) (e : Declaration) : Prop :=
  (∃ m ∈ e.members, m.access.meets least = true) ∨
    (e.members = [] ∧ Access.internalLevel.meets least = true)

theorem extensionsOf_visible (least : Access) (T : String) (ds : List Declaration) :
    extensionsOf T (visible least ds) = visible least (extensionsOf T ds) := by
  induction ds with
  | nil => rfl
  | cons d ds ih =>
    have hsame : ∀ d', visible? least d = some d' → extends? T d' = extends? T d := by
      intro d' h
      have hhead := Declaration.head_of_visible? h
      rw [extends?, extends?, Declaration.isExtension_eq_of_head hhead,
        Declaration.name_eq_of_head hhead]
    unfold extensionsOf at ih ⊢
    rw [visible, List.filter_cons]
    cases hd : visible? least d with
    | none =>
      rw [ih]
      split
      · rw [visible, hd]
      · rfl
    | some d' =>
      rw [List.filter_cons, hsame d' hd, ih]
      split
      · rw [visible, hd]
      · rfl

theorem hasVisible_iff (least : Access) (es : List Declaration) :
    HasVisible least es ↔ visible least (es.flatMap (·.members)) ≠ [] := by
  constructor
  · rintro ⟨e, he, m, hm, m', hvis⟩ hnil
    have hmem : m' ∈ visible least (es.flatMap (·.members)) :=
      Declaration.mem_visible.2 ⟨m, List.mem_flatMap.2 ⟨e, he, hm⟩, hvis⟩
    simp [hnil] at hmem
  · intro hne
    obtain ⟨m', hm'⟩ := List.exists_mem_of_ne_nil _ hne
    obtain ⟨m, hm, hvis⟩ := Declaration.mem_visible.1 hm'
    obtain ⟨e, he, hme⟩ := List.mem_flatMap.1 hm
    exact ⟨e, he, m, hme, m', hvis⟩

/-! ## The entry of an external type -/

/-- The entry stands for all extensions of the type, with the level of the first. -/
theorem entry_eq (h : IsExternal T ds) (hfirst : extensionsOf T ds = e :: es) :
    entry least T ds =
      if e.access.meets least = true ∧ visible least ((e :: es).flatMap (·.members)) ≠ [] then
        [{ combined e es with members := visible least ((e :: es).flatMap (·.members)) }]
      else [] := by
  have he : e ∈ extensionsOf T ds := hfirst ▸ List.mem_cons_self
  have hkind : (combined e es).kind = .typeExtension :=
    (Declaration.kind_eq_of_head (combined_head e es)).trans (kind_of_mem_extensionsOf he)
  have haccess : (combined e es).access = e.access :=
    Declaration.access_eq_of_head (combined_head e es)
  rw [entry, extensionsOf_visible, extensionsOf_mergeExtensions h, hfirst, combineAll, visible,
    Declaration.visible?_eq, combined_members, visible]
  generalize visible least ((e :: es).flatMap (·.members)) = shown
  simp only [haccess, hkind, true_and]
  by_cases hmeets : e.access.meets least = true
  · cases shown with
    | nil => simp [hmeets]
    | cons m ms => simp [hmeets]
  · simp [hmeets]

theorem survivors_eq (h : IsExternal T ds) (hfirst : extensionsOf T ds = e :: es) :
    survivors least T ds =
      if e.access.meets least = true then visible least ((e :: es).flatMap (·.members))
      else [] := by
  rw [survivors, entry_eq h hfirst]
  generalize visible least ((e :: es).flatMap (·.members)) = shown
  by_cases hmeets : e.access.meets least = true
  · cases shown with
    | nil => simp [hmeets]
    | cons m ms => simp [hmeets]
  · simp [hmeets]

/-- The entry is visible when its first extension's level is, and any member of any extension. -/
theorem entry_ne_nil_iff (h : IsExternal T ds) (hfirst : extensionsOf T ds = e :: es) :
    entry least T ds ≠ [] ↔
      e.access.meets least = true ∧ HasVisible least (extensionsOf T ds) := by
  rw [entry_eq h hfirst, hasVisible_iff, hfirst]
  split
  · next hcond => simpa using hcond
  · next hcond => simpa using hcond

/-- The members that are shown depend on which extension comes first, and on that alone. -/
theorem survivors_perm_iff (h : IsExternal T ds) (hfirst : extensionsOf T ds = e :: es)
    (hre : Reordered T ds ds') (hfirst' : extensionsOf T ds' = e' :: es') :
    (survivors least T ds).Perm (survivors least T ds') ↔
      (HasVisible least (extensionsOf T ds) →
        (e.access.meets least = true ↔ e'.access.meets least = true)) := by
  have hperm : (visible least ((e :: es).flatMap (·.members))).Perm
      (visible least ((e' :: es').flatMap (·.members))) := by
    rw [← hfirst, ← hfirst', Declaration.visible_eq_filterMap, Declaration.visible_eq_filterMap]
    exact (hre.extensions.flatMap_right _).filterMap _
  rw [survivors_eq h hfirst, survivors_eq (hre.isExternal h) hfirst', hasVisible_iff, hfirst]
  generalize visible least ((e :: es).flatMap (·.members)) = shown at hperm ⊢
  generalize visible least ((e' :: es').flatMap (·.members)) = shown' at hperm ⊢
  have hnil : shown = [] ↔ shown' = [] := by
    constructor
    · rintro rfl
      exact hperm.nil_eq.symm
    · rintro rfl
      exact hperm.eq_nil
  cases e.access.meets least <;> cases e'.access.meets least
  · simp
  · simp [hnil]
  · simp
  · simp [hperm]

/-! ## Implied levels -/

/-- **When an external extension is as visible as its most visible member.** Where no record of an
extension gives a level, the entry of an external type is visible when the first extension of the
type admits the level and some member of some extension is visible. So it is as visible as its most
visible member just when the first extension admits the level of any that is visible, and another
order of the extensions shows the same members just when its first extension does so too. -/
theorem visibility_of_external {rs : List Record} (hrs : Record.declarations rs = .ok ds)
    (hnone : ∀ r ∈ rs, r.IsExtension → r.access = none) (h : IsExternal T ds)
    (hfirst : extensionsOf T ds = e :: es) (least : Access) :
    (entry least T ds ≠ [] ↔ Admits least e ∧ HasVisible least (extensionsOf T ds)) ∧
      ((entry least T ds ≠ [] ↔ HasVisible least (extensionsOf T ds)) ↔
        (HasVisible least (extensionsOf T ds) → Admits least e)) ∧
      ∀ ds' e' es', Reordered T ds ds' → extensionsOf T ds' = e' :: es' →
        ((survivors least T ds).Perm (survivors least T ds') ↔
          (HasVisible least (extensionsOf T ds) → (Admits least e ↔ Admits least e'))) := by
  have hadmits : ∀ x ∈ extensionsOf T ds, x.access.meets least = true ↔ Admits least x := by
    intro x hx
    have hkind := kind_of_mem_extensionsOf hx
    rw [Record.access_of_extension hrs hnone (List.mem_of_mem_filter hx) hkind,
      Record.meets_impliedAccess, Admits]
  have he : e ∈ extensionsOf T ds := hfirst ▸ List.mem_cons_self
  have hentry : entry least T ds ≠ [] ↔
      Admits least e ∧ HasVisible least (extensionsOf T ds) := by
    rw [entry_ne_nil_iff h hfirst, hadmits e he]
  refine ⟨hentry, ?_, ?_⟩
  · rw [hentry]
    constructor
    · intro hiff hvis
      exact (hiff.2 hvis).1
    · intro hlead
      exact ⟨fun hboth => hboth.2, fun hvis => ⟨hlead hvis, hvis⟩⟩
  · intro ds' e' es' hre hfirst'
    have he' : e' ∈ extensionsOf T ds :=
      hre.extensions.symm.subset (hfirst' ▸ List.mem_cons_self)
    rw [survivors_perm_iff h hfirst hre hfirst', hadmits e he, hadmits e' he']

/-- Two extensions of `Array` without a level, the first with an internal member and the second with
a public one: at the public level the second member is visible and the entry is not, and the other
way around both are. -/
theorem entry_behind_internal_member :
    let member (name level : String) : Record :=
      ⟨some "function", some name, some level, none, none, none, [], [], none⟩
    let extension (m : Record) : Record :=
      ⟨some "extension", some "Array", none, none, none, none, [], [m], none⟩
    let a : Declaration := { Declaration.bare .function "a()" [] with access := .internalLevel }
    let b : Declaration := .bare .function "b()" []
    let x : Declaration :=
      { Declaration.bare .typeExtension "Array" [a] with access := .internalLevel }
    let y : Declaration := .bare .typeExtension "Array" [b]
    Record.declarations [extension (member "a()" "internal"), extension (member "b()" "public")]
        = .ok [x, y] ∧
      ¬ (entry .publicLevel "Array" [x, y] ≠ [] ↔
          HasVisible .publicLevel (extensionsOf "Array" [x, y])) ∧
      ¬ (survivors .publicLevel "Array" [x, y]).Perm (survivors .publicLevel "Array" [y, x]) := by
  intro member extension a b x y
  have hrs : Record.declarations
      [extension (member "a()" "internal"), extension (member "b()" "public")] = .ok [x, y] := by
    rfl
  have hvis : HasVisible .publicLevel (extensionsOf "Array" [x, y]) :=
    ⟨y, by simp [extensionsOf, x, y, extends?, Declaration.bare, Declaration.isExtension], b,
      by simp [y, Declaration.bare], b, rfl⟩
  have hx : ¬ Admits .publicLevel x := by
    simp [Admits, x, a, Declaration.bare, Access.meets, Access.rank]
  have hy : Admits .publicLevel y := .inl ⟨b, by simp [y, Declaration.bare], rfl⟩
  have hfirst : extensionsOf "Array" [x, y] = [x, y] := rfl
  obtain ⟨-, hexact, horder⟩ := visibility_of_external hrs
    (by
      intro r hr _
      simp only [List.mem_cons, List.not_mem_nil, or_false] at hr
      rcases hr with rfl | rfl
      · rfl
      · rfl)
    rfl hfirst .publicLevel
  refine ⟨hrs, fun hiff => hx (hexact.1 hiff hvis), fun hperm => hx ?_⟩
  exact ((horder [y, x] y [x] ⟨rfl, List.Perm.swap _ _ _⟩ rfl).1 hperm hvis).2 hy

end ApiPages.Merge
