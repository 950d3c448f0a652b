import ApiPages.Declaration.Visibility
import ApiPages.Proofs.Declaration.Nodes

/-!
# What is visible

What a least access level leaves of a declaration is the declaration with what the level leaves of
its members.
-/

namespace ApiPages.Declaration

variable {least : Access} {d d' : Declaration} {ds : List Declaration}

theorem visible?_eq (least : Access) (d : Declaration) :
    visible? least d =
      if d.access.meets least then
        if d.kind = .typeExtension ∧ visible least d.members = [] then none
        else some { d with members := visible least d.members }
      else none := by
  cases d
  rw [visible?]

theorem visible_eq_filterMap (least : Access) (ds : List Declaration) :
    visible least ds = ds.filterMap (visible? least) := by
  induction ds with
  | nil => rfl
  | cons d ds ih =>
    rw [visible, ih]
    cases h : visible? least d <;> simp [h]

theorem visible_append (least : Access) (ds es : List Declaration) :
    visible least (ds ++ es) = visible least ds ++ visible least es := by
  simp only [visible_eq_filterMap, List.filterMap_append]

theorem mem_visible : d' ∈ visible least ds ↔ ∃ d ∈ ds, visible? least d = some d' := by
  rw [visible_eq_filterMap, List.mem_filterMap]

/-- A declaration is visible if it meets the level and is no extension that is left without
members. -/
theorem visible?_eq_some_iff : visible? least d = some d' ↔ d.access.meets least = true ∧
    ¬ (d.kind = .typeExtension ∧ visible least d.members = []) ∧
    d' = { d with members := visible least d.members } := by
  rw [visible?_eq]
  by_cases hmeets : d.access.meets least = true
  · by_cases hempty : d.kind = .typeExtension ∧ visible least d.members = []
    · simp [hempty]
    · rw [if_pos hmeets, if_neg hempty, Option.some.injEq]
      exact ⟨fun h => ⟨hmeets, hempty, h.symm⟩, fun h => h.2.2.symm⟩
  · simp [hmeets]

theorem visible?_eq_some (h : visible? least d = some d') :
    d.access.meets least = true ∧ d' = { d with members := visible least d.members } := by
  obtain ⟨hmeets, -, hd'⟩ := visible?_eq_some_iff.1 h
  exact ⟨hmeets, hd'⟩

theorem head_of_visible? (h : visible? least d = some d') : d'.head = d.head := by
  rw [(visible?_eq_some h).2]
  rfl

/-- What is no extension is visible by its own level. -/
theorem visible?_of_meets (least : Access) (hext : d.isExtension = false)
    (h : d.access.meets least = true) :
    visible? least d = some { d with members := visible least d.members } := by
  have hkind : d.kind ≠ .typeExtension := by simpa [isExtension] using hext
  exact visible?_eq_some_iff.2 ⟨h, fun hempty => hkind hempty.1, rfl⟩

/-- What holds of whatever is visible of a declaration of some sort holds everywhere in what is
visible of a tree of that sort. -/
theorem everywhere_visible_of {P Q : Declaration → Prop}
    (hone : ∀ d d' : Declaration, visible? least d = some d' → Q d → P d')
    (h : Everywhere Q ds) : Everywhere P (visible least ds) := by
  have htree : ∀ d d' : Declaration, visible? least d = some d' → Q d →
      Everywhere Q d.members → P d' ∧ Everywhere P d'.members := by
    intro d
    induction d using induct with
    | step d ih =>
      intro d' hd' hd hm
      refine ⟨hone d d' hd' hd, ?_⟩
      obtain ⟨-, rfl⟩ := visible?_eq_some hd'
      rw [everywhere_iff_forall] at hm ⊢
      intro m' hm'
      obtain ⟨m, hmem, hvis⟩ := mem_visible.1 hm'
      exact ih m hmem m' hvis (hm m hmem).1 (hm m hmem).2
  rw [everywhere_iff_forall] at h ⊢
  intro d' hd'
  obtain ⟨d, hd, hvis⟩ := mem_visible.1 hd'
  exact htree d d' hvis (h d hd).1 (h d hd).2

/-- Something that does not look at members holds of what is visible when it held of all. -/
theorem everywhere_visible {P : Declaration → Prop}
    (hmembers : ∀ d ms, P d → P { d with members := ms }) (h : Everywhere P ds) :
    Everywhere P (visible least ds) := by
  refine everywhere_visible_of (fun d d' hd' hd => ?_) h
  rw [(visible?_eq_some hd').2]
  exact hmembers d _ hd

/-! ## Two levels -/

theorem visible_visible_of {a b c : Access}
    (h : ∀ d ∈ ds, (visible? a d).bind (visible? b) = visible? c d) :
    visible b (visible a ds) = visible c ds := by
  simp only [visible_eq_filterMap, List.filterMap_filterMap]
  exact List.filterMap_congr h

/-- **What two levels leave one after the other** is what a level leaves that asks for both. -/
theorem visible?_bind_visible? {a b c : Access}
    (h : ∀ level : Access, level.meets c = (level.meets a && level.meets b)) (d : Declaration) :
    (visible? a d).bind (visible? b) = visible? c d := by
  induction d using induct with
  | step d ih =>
    have hmembers : visible b (visible a d.members) = visible c d.members := visible_visible_of ih
    rw [visible?_eq a, visible?_eq c, h, ← hmembers]
    cases ha : d.access.meets a with
    | false => simp
    | true =>
      by_cases hempty : d.kind = .typeExtension ∧ visible a d.members = []
      · -- an extension that has lost its members has none to show at the second level
        obtain ⟨hkind, hnil⟩ := hempty
        simp [hkind, hnil, visible]
      · simp [hempty, visible?_eq b]

theorem visible_visible {a b c : Access}
    (h : ∀ level : Access, level.meets c = (level.meets a && level.meets b))
    (ds : List Declaration) : visible b (visible a ds) = visible c ds :=
  visible_visible_of fun d _ => visible?_bind_visible? h d

/-- Behind a level that admits more, a level leaves what it leaves alone. -/
theorem visible?_of_wider {a b : Access} (h : b.rank ≤ a.rank) (d : Declaration) :
    (visible? b d).bind (visible? a) = visible? a d := by
  refine visible?_bind_visible? (fun level => ?_) d
  simp only [Access.meets]
  by_cases ha : a.rank ≤ level.rank
  · simp [ha, Nat.le_trans h ha]
  · simp [ha]

end ApiPages.Declaration
