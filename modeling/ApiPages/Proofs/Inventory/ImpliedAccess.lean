import ApiPages.Inventory.Basic

/-!
# Records that are declarations

What an accepted record says of its declaration, and the access level of an extension that gives
none.
-/

namespace ApiPages.Record

variable {path : RecordPath} {parent : Option Kind} {least : Access} {r : Record}
  {rs : List Record} {d : Declaration} {ds : List Declaration}

/-- Whether a record is one of an extension. -/
def IsExtension (r : Record) : Prop :=
  r.kind.bind Kind.ofWord? = some .typeExtension

/-! ## Accepted records -/

theorem heading_eq_ok {kind name : Option String} {k : Kind} {n : String}
    (h : heading path parent kind name = .ok (k, n)) :
    kind.bind Kind.ofWord? = some k ∧
      ((name.map Text.trim).filter fun s => !s.isEmpty) = some n ∧
      k.mayStandIn parent = true := by
  unfold heading at h
  split at h
  · simp at h
  · next word =>
    split at h
    · simp at h
    · next k' hk =>
      split at h
      · simp at h
      · next n' hn =>
        split at h
        · next hplace =>
          simp only [Except.ok.injEq, Prod.mk.injEq] at h
          obtain ⟨rfl, rfl⟩ := h
          exact ⟨hk, hn, hplace⟩
        · simp at h

theorem declaration_eq_ok (h : r.declaration path parent = .ok d) :
    heading path parent r.kind r.name = .ok (d.kind, d.name) ∧
      declarationsOf path 0 d.kind r.members = .ok d.members ∧
      accessOf path d.kind r.access d.members = .ok d.access := by
  cases r
  rw [declaration] at h
  split at h
  · simp at h
  · next k n hheading =>
    split at h
    · simp at h
    · next ms hmembers =>
      split at h
      · simp at h
      · next level haccess =>
        obtain rfl := Except.ok.inj h
        exact ⟨hheading, hmembers, haccess⟩

theorem mem_declarationsFrom {i : Nat} (h : declarationsFrom i rs = .ok ds) (hd : d ∈ ds) :
    ∃ r ∈ rs, ∃ j, r.declaration ⟨j, []⟩ none = .ok d := by
  induction rs generalizing i ds with
  | nil =>
    obtain rfl := Except.ok.inj h
    simp at hd
  | cons r rs ih =>
    rw [declarationsFrom] at h
    split at h
    · simp at h
    · next x hx =>
      split at h
      · simp at h
      · next xs hxs =>
        obtain rfl := Except.ok.inj h
        rcases List.mem_cons.1 hd with rfl | hd
        · exact ⟨r, List.mem_cons_self, i, hx⟩
        · obtain ⟨r', hr', j, hj⟩ := ih hxs hd
          exact ⟨r', List.mem_cons_of_mem _ hr', j, hj⟩

/-! ## Levels that are implied -/

/-- An extension without a level of its own has the one that its members imply. -/
theorem access_of_extension (h : declarations rs = .ok ds)
    (hnone : ∀ r ∈ rs, r.IsExtension → r.access = none) (hd : d ∈ ds)
    (hkind : d.kind = .typeExtension) : d.access = impliedAccess d.members := by
  obtain ⟨r, hr, j, hok⟩ := mem_declarationsFrom h hd
  obtain ⟨hheading, -, haccess⟩ := declaration_eq_ok hok
  have hext : r.IsExtension := by
    rw [IsExtension, (heading_eq_ok hheading).1, hkind]
  rw [hnone r hr hext, accessOf, if_pos hkind] at haccess
  exact (Except.ok.inj haccess).symm

theorem meets_moreVisible (a b : Access) :
    (moreVisible a b).meets least = true ↔ a.meets least = true ∨ b.meets least = true := by
  unfold moreVisible Access.meets
  simp only [decide_eq_true_eq]
  split <;> omega

theorem meets_foldl_moreVisible (a : Access) (ds : List Declaration) :
    (ds.foldl (fun level d => moreVisible level d.access) a).meets least = true ↔
      a.meets least = true ∨ ∃ d ∈ ds, d.access.meets least = true := by
  induction ds generalizing a with
  | nil => simp
  | cons d ds ih => simp [ih, meets_moreVisible, or_assoc]

/-- **The implied level** is reached when a member reaches it. Without members it is internal. -/
theorem meets_impliedAccess (ds : List Declaration) :
    (impliedAccess ds).meets least = true ↔
      (∃ d ∈ ds, d.access.meets least = true) ∨
        (ds = [] ∧ Access.internalLevel.meets least = true) := by
  cases ds with
  | nil => simp [impliedAccess]
  | cons d ds => simp [impliedAccess, meets_foldl_moreVisible]

end ApiPages.Record
