import ApiPages.Proofs.Declaration.Position
import ApiPages.Proofs.Declaration.Visible

/-!
# Trees without hidden leaves

A function, a variable, a type alias or a case that has no members and is below the least access
level is a hidden leaf. A tree pruned of all of these, at every depth, shows the same at that level.
What is left in it stands where `prunedPath` says: every index has lost the hidden leaves in front
of it.
-/

namespace ApiPages

/-- The kinds that are neither types nor extensions. -/
def Kind.isLeaf : Kind → Bool
  | typeAlias | function | property | enumCase => true
  | _ => false

theorem Kind.isLeaf_eq_false {kind : Kind} (h : kind.isExtendable = true) :
    kind.isLeaf = false := by
  cases kind <;> simp_all [isExtendable, isLeaf]

namespace Declaration

/-- Whether a declaration without members is below the level and neither a type nor an extension. -/
def isHiddenLeaf (least : Access) (d : Declaration) : Bool :=
  d.kind.isLeaf && d.members.isEmpty && !d.access.meets least

mutual

/-- A declaration without the hidden leaves below it. -/
def prune (least : Access) : Declaration → Declaration
  | ⟨kind, name, access, signature, comment, inheritance, members, location⟩ =>
    ⟨kind, name, access, signature, comment, inheritance, pruneAll least members, location⟩

/-- Declarations without hidden leaves, among them or below them. -/
def pruneAll (least : Access) : List Declaration → List Declaration
  | [] => []
  | d :: ds =>
    if d.isHiddenLeaf least then pruneAll least ds else d.prune least :: pruneAll least ds

end

variable {least : Access} {d e t m : Declaration} {ds more : List Declaration}
  {f g : Declaration → Declaration} {i j : Nat} {p q : List Nat}

theorem prune_eq (least : Access) (d : Declaration) :
    prune least d = { d with members := pruneAll least d.members } := by
  cases d
  rw [prune]

@[simp] theorem prune_members (least : Access) (d : Declaration) :
    (prune least d).members = pruneAll least d.members := by
  rw [prune_eq]

@[simp] theorem prune_head (least : Access) (d : Declaration) : (prune least d).head = d.head := by
  rw [prune_eq]
  rfl

@[simp] theorem prune_kind (least : Access) (d : Declaration) : (prune least d).kind = d.kind :=
  kind_eq_of_head (prune_head least d)

@[simp] theorem prune_name (least : Access) (d : Declaration) : (prune least d).name = d.name :=
  name_eq_of_head (prune_head least d)

theorem pruneAll_eq_map_filter (least : Access) (ds : List Declaration) :
    pruneAll least ds = (ds.filter fun d => !d.isHiddenLeaf least).map (prune least) := by
  induction ds with
  | nil => rfl
  | cons d ds ih =>
    rw [pruneAll, ih]
    cases hd : d.isHiddenLeaf least <;> simp [hd]

theorem pruneAll_append (least : Access) (ds es : List Declaration) :
    pruneAll least (ds ++ es) = pruneAll least ds ++ pruneAll least es := by
  simp only [pruneAll_eq_map_filter, List.filter_append, List.map_append]

theorem mem_pruneAll {x : Declaration} :
    x ∈ pruneAll least ds ↔ ∃ d ∈ ds, d.isHiddenLeaf least = false ∧ prune least d = x := by
  rw [pruneAll_eq_map_filter, List.mem_map]
  simp only [List.mem_filter, Bool.not_eq_true', and_assoc]

theorem prune_root (least : Access) (ds : List Declaration) :
    prune least (root ds) = root (pruneAll least ds) := by
  rw [prune_eq]
  rfl

/-! ## What is left in -/

theorem isHiddenLeaf_of_kind (h : d.kind.isLeaf = false) : d.isHiddenLeaf least = false := by
  simp [isHiddenLeaf, h]

theorem isHiddenLeaf_of_isExtendable (h : d.kind.isExtendable = true) :
    d.isHiddenLeaf least = false :=
  isHiddenLeaf_of_kind (Kind.isLeaf_eq_false h)

theorem isHiddenLeaf_of_isExtension (h : d.isExtension = true) : d.isHiddenLeaf least = false := by
  have hkind : d.kind = .typeExtension := of_decide_eq_true h
  exact isHiddenLeaf_of_kind (by rw [hkind]; rfl)

theorem isHiddenLeaf_of_getElem? (h : d.members[i]? = some m) :
    d.isHiddenLeaf least = false := by
  cases hm : d.members with
  | nil => simp [hm] at h
  | cons => simp [isHiddenLeaf, hm]

/-- The way to what is left in leads through what is left in. -/
theorem isHiddenLeaf_of_below? (h : d.below? q = some m) (hm : m.isHiddenLeaf least = false) :
    d.isHiddenLeaf least = false := by
  cases q with
  | nil =>
    obtain rfl : d = m := Option.some.inj h
    exact hm
  | cons i q =>
    obtain ⟨c, hc, -⟩ := Option.bind_eq_some_iff.1 h
    exact isHiddenLeaf_of_getElem? hc

/-- The way to a type is left in. -/
theorem isHiddenLeaf_of_type (h : d.below? q = some t) (ht : t.kind.isExtendable = true) :
    d.isHiddenLeaf least = false :=
  isHiddenLeaf_of_below? h (isHiddenLeaf_of_isExtendable ht)

/-- The way to a type is left in with more added to the type. -/
theorem isHiddenLeaf_modifyBelow (hf : Adds f more) (h : d.below? q = some t)
    (ht : t.kind.isExtendable = true) : (d.modifyBelow f q).isHiddenLeaf least = false := by
  cases q with
  | nil =>
    obtain rfl : d = t := Option.some.inj h
    refine isHiddenLeaf_of_isExtendable ?_
    rw [modifyBelow, kind_eq_of_head (hf d).1]
    exact ht
  | cons i q =>
    obtain ⟨c, hc, -⟩ := Option.bind_eq_some_iff.1 h
    refine isHiddenLeaf_of_getElem? (i := i) (m := c.modifyBelow f q) ?_
    simp [modifyBelow, hc]

/-! ## Places -/

/-- The index that an index leads to in the pruned list. -/
def prunedIndex (least : Access) (ds : List Declaration) (i : Nat) : Nat :=
  (pruneAll least (ds.take i)).length

/-- The members of the declaration at an index, if there is one. -/
def membersAt (ds : List Declaration) (i : Nat) : List Declaration :=
  ds[i]?.elim [] (·.members)

/-- The path that a path leads to in the pruned list. -/
def prunedPath (least : Access) (ds : List Declaration) : List Nat → List Nat
  | [] => []
  | i :: path => prunedIndex least ds i :: prunedPath least (membersAt ds i) path

theorem prunedPath_ne_nil (h : p ≠ []) : prunedPath least ds p ≠ [] := by
  obtain ⟨i, p, rfl⟩ := List.exists_cons_of_ne_nil h
  simp [prunedPath]

@[simp] theorem prunedIndex_zero (least : Access) (ds : List Declaration) :
    prunedIndex least ds 0 = 0 := rfl

theorem prunedIndex_succ (least : Access) (d : Declaration) (ds : List Declaration) (i : Nat) :
    prunedIndex least (d :: ds) (i + 1) =
      (if d.isHiddenLeaf least then 0 else 1) + prunedIndex least ds i := by
  rw [prunedIndex, List.take_succ_cons, pruneAll]
  split
  · rw [Nat.zero_add]
    rfl
  · rw [List.length_cons, Nat.add_comm]
    rfl

theorem membersAt_of_getElem? (h : ds[i]? = some d) : membersAt ds i = d.members := by
  rw [membersAt, h]
  rfl

theorem getElem?_pruneAll (hd : ds[i]? = some d) (hkept : d.isHiddenLeaf least = false) :
    (pruneAll least ds)[prunedIndex least ds i]? = some (prune least d) := by
  induction ds generalizing i with
  | nil => simp at hd
  | cons x ds ih =>
    cases i with
    | zero =>
      obtain rfl : x = d := Option.some.inj hd
      simp [pruneAll, hkept]
    | succ i =>
      rw [prunedIndex_succ, pruneAll]
      split
      · rw [Nat.zero_add]
        exact ih hd
      · rw [Nat.add_comm, List.getElem?_cons_succ]
        exact ih hd

theorem below?_prune (h : d.below? q = some m) (hm : m.isHiddenLeaf least = false) :
    (prune least d).below? (prunedPath least d.members q) = some (prune least m) := by
  induction q generalizing d with
  | nil =>
    obtain rfl : d = m := Option.some.inj h
    rfl
  | cons i q ih =>
    obtain ⟨c, hc, hbelow⟩ := Option.bind_eq_some_iff.1 h
    have hkept := isHiddenLeaf_of_below? hbelow hm
    rw [prunedPath, below?, prune_members, getElem?_pruneAll hc hkept, membersAt_of_getElem? hc]
    exact ih hbelow

/-- What is left in stands at the pruned path. -/
theorem at?_pruneAll (h : at? ds p = some d) (hd : d.isHiddenLeaf least = false) :
    at? (pruneAll least ds) (prunedPath least ds p) = some (prune least d) := by
  have hp := ne_nil_of_at? h
  rw [at?_eq_below? hp] at h
  rw [at?_eq_below? (prunedPath_ne_nil hp)]
  exact below?_prune h hd

/-! ## Adding to a type -/

theorem pruneAll_modify (hd : ds[i]? = some d) (hkept : d.isHiddenLeaf least = false)
    (hfkept : (f d).isHiddenLeaf least = false) (hg : prune least (f d) = g (prune least d)) :
    pruneAll least (ds.modify i f) =
      (pruneAll least ds).modify (prunedIndex least ds i) g := by
  induction ds generalizing i with
  | nil => simp at hd
  | cons x ds ih =>
    cases i with
    | zero =>
      obtain rfl : x = d := Option.some.inj hd
      simp [pruneAll, hkept, hfkept, hg]
    | succ i =>
      rw [List.modify_succ_cons, pruneAll, ih hd, prunedIndex_succ, pruneAll]
      split
      · rw [Nat.zero_add]
      · rw [Nat.add_comm, List.modify_succ_cons]

theorem prune_modifyBelow (hf : Adds f more) (hg : ∀ d, prune least (f d) = g (prune least d))
    (h : d.below? q = some t) (ht : t.kind.isExtendable = true) :
    prune least (d.modifyBelow f q) =
      (prune least d).modifyBelow g (prunedPath least d.members q) := by
  induction q generalizing d with
  | nil => exact hg d
  | cons i q ih =>
    obtain ⟨c, hc, hbelow⟩ := Option.bind_eq_some_iff.1 h
    rw [prunedPath, modifyBelow, modifyBelow, prune_eq, prune_eq, membersAt_of_getElem? hc]
    rw [pruneAll_modify (g := (modifyBelow g · (prunedPath least c.members q))) hc
      (isHiddenLeaf_of_type hbelow ht) (isHiddenLeaf_modifyBelow hf hbelow ht) (ih hbelow)]

/-- What is added to a type is added at its pruned path. -/
theorem pruneAll_modifyAt (hf : Adds f more) (hg : ∀ d, prune least (f d) = g (prune least d))
    (h : at? ds p = some t) (ht : t.kind.isExtendable = true) :
    pruneAll least (modifyAt f ds p) =
      modifyAt g (pruneAll least ds) (prunedPath least ds p) := by
  have hp := ne_nil_of_at? h
  rw [at?_eq_below? hp] at h
  rw [modifyAt_eq_members hp, modifyAt_eq_members (prunedPath_ne_nil hp)]
  rw [← prune_members, prune_modifyBelow hf hg h ht, prune_root]
  rfl

/-! ## Paths after something was added -/

theorem prunedIndex_modify (hd : ds[i]? = some d)
    (hsame : (f d).isHiddenLeaf least = d.isHiddenLeaf least) (j : Nat) :
    prunedIndex least (ds.modify i f) j = prunedIndex least ds j := by
  induction ds generalizing i j with
  | nil => simp at hd
  | cons x ds ih =>
    cases j with
    | zero => rfl
    | succ j =>
      cases i with
      | zero =>
        obtain rfl : x = d := Option.some.inj hd
        rw [List.modify_zero_cons, prunedIndex_succ, prunedIndex_succ, hsame]
      | succ i => rw [List.modify_succ_cons, prunedIndex_succ, prunedIndex_succ, ih hd]

theorem prunedIndex_append_left (hi : i ≤ ds.length) :
    prunedIndex least (ds ++ more) i = prunedIndex least ds i := by
  rw [prunedIndex, List.take_append_of_le_length hi, prunedIndex]

theorem prunedIndex_append_right (least : Access) (ds more : List Declaration) (j : Nat) :
    prunedIndex least (ds ++ more) (ds.length + j) =
      (pruneAll least ds).length + prunedIndex least more j := by
  rw [prunedIndex, List.take_length_add_append, pruneAll_append, List.length_append, prunedIndex]

theorem membersAt_append_right (ds more : List Declaration) (j : Nat) :
    membersAt (ds ++ more) (ds.length + j) = membersAt more j := by
  rw [membersAt, List.getElem?_append_right (by omega), Nat.add_sub_cancel_left, membersAt]

theorem prunedPath_modifyBelow (hf : Adds f more) (ht : t.kind.isExtendable = true)
    (h : d.below? p = some t) (hm : d.below? q = some m) :
    prunedPath least (d.modifyBelow f p).members q = prunedPath least d.members q := by
  induction q generalizing d p with
  | nil => rfl
  | cons j q ih =>
    obtain ⟨c, hc, hbelow⟩ := Option.bind_eq_some_iff.1 hm
    cases p with
    | nil =>
      -- the members that were there keep their places in front of those added
      have hlt := (List.getElem?_eq_some_iff.1 hc).1
      have hc' : (d.members ++ more)[j]? = some c := by rw [List.getElem?_append_left hlt, hc]
      rw [modifyBelow, (hf d).2, prunedPath, prunedPath, prunedIndex_append_left (by omega),
        membersAt_of_getElem? hc, membersAt_of_getElem? hc']
    | cons i p =>
      obtain ⟨b, hb, hbelow'⟩ := Option.bind_eq_some_iff.1 h
      have hsame : (b.modifyBelow f p).isHiddenLeaf least = b.isHiddenLeaf least := by
        rw [isHiddenLeaf_modifyBelow hf hbelow' ht, isHiddenLeaf_of_type hbelow' ht]
      -- the way to the type was left in before and is after, so no index on the way changes
      rw [modifyBelow, prunedPath, prunedPath, prunedIndex_modify hb hsame,
        membersAt_of_getElem? hc]
      by_cases hij : i = j
      · subst hij
        obtain rfl : c = b := Option.some.inj (hc.symm.trans hb)
        rw [membersAt_of_getElem? (d := c.modifyBelow f p) (by simp [hc]), ih hbelow' hbelow]
      · rw [membersAt_of_getElem? (d := c) (by simp [hij, hc])]

/-- What stands at a path has its pruned path also after something was added to a type. -/
theorem prunedPath_modifyAt (hf : Adds f more) (ht : t.kind.isExtendable = true)
    (h : at? ds p = some t) (hm : at? ds q = some m) :
    prunedPath least (modifyAt f ds p) q = prunedPath least ds q := by
  have hp := ne_nil_of_at? h
  rw [at?_eq_below? hp] at h
  rw [at?_eq_below? (ne_nil_of_at? hm)] at hm
  rw [modifyAt_eq_members hp]
  exact prunedPath_modifyBelow hf ht h hm

theorem prunedPath_append_below (h : d.below? p = some t) (q : List Nat) :
    prunedPath least d.members (p ++ q) =
      prunedPath least d.members p ++ prunedPath least t.members q := by
  induction p generalizing d with
  | nil =>
    obtain rfl : d = t := Option.some.inj h
    rfl
  | cons i p ih =>
    obtain ⟨c, hc, hbelow⟩ := Option.bind_eq_some_iff.1 h
    rw [List.cons_append, prunedPath, prunedPath, membersAt_of_getElem? hc, ih hbelow,
      List.cons_append]

theorem prunedPath_append (h : at? ds p = some t) (q : List Nat) :
    prunedPath least ds (p ++ q) = prunedPath least ds p ++ prunedPath least t.members q := by
  rw [at?_eq_below? (ne_nil_of_at? h)] at h
  exact prunedPath_append_below h q

/-- The pruned path of what came with the addition to a type: behind the members that the type has
left. -/
theorem prunedPath_added (hf : Adds f more) (ht : t.kind.isExtendable = true)
    (h : at? ds p = some t) (j : Nat) (q : List Nat) :
    prunedPath least (modifyAt f ds p) (p ++ (t.members.length + j) :: q) =
      prunedPath least ds p ++ ((pruneAll least t.members).length + prunedIndex least more j) ::
        prunedPath least (membersAt more j) q := by
  rw [prunedPath_append (at?_modifyAt_self h), prunedPath_modifyAt hf ht h h, (hf t).2, prunedPath,
    prunedIndex_append_right, membersAt_append_right]

/-! ## What is there of the rest -/

/-- Nothing is shown of a hidden leaf. -/
theorem visible?_of_isHiddenLeaf (h : d.isHiddenLeaf least = true) : visible? least d = none := by
  simp only [isHiddenLeaf, Bool.and_eq_true, Bool.not_eq_true'] at h
  simp [visible?_eq, h.2]

theorem visible_pruneAll_of (h : ∀ d ∈ ds, visible? least (prune least d) = visible? least d) :
    visible least (pruneAll least ds) = visible least ds := by
  rw [visible_eq_filterMap, visible_eq_filterMap, pruneAll_eq_map_filter, List.filterMap_map,
    List.filterMap_filter]
  refine List.filterMap_congr fun d hd => ?_
  cases hhidden : d.isHiddenLeaf least with
  | false => exact h d hd
  | true => exact (visible?_of_isHiddenLeaf hhidden).symm

theorem visible?_prune (least : Access) (d : Declaration) :
    visible? least (prune least d) = visible? least d := by
  induction d using induct with
  | step d ih => rw [prune_eq, visible?_eq, visible?_eq, visible_pruneAll_of ih]

/-- **A pruned tree shows the same.** -/
theorem visible_pruneAll (least : Access) (ds : List Declaration) :
    visible least (pruneAll least ds) = visible least ds :=
  visible_pruneAll_of fun d _ => visible?_prune least d

/-- What holds everywhere and is kept in pruning holds everywhere in the pruned tree. -/
theorem everywhere_pruneAll {P : Declaration → Prop} (hprune : ∀ d, P d → P (prune least d))
    (h : Everywhere P ds) : Everywhere P (pruneAll least ds) := by
  have hone : ∀ d : Declaration, P d ∧ Everywhere P d.members →
      P (prune least d) ∧ Everywhere P (prune least d).members := by
    intro d
    induction d using induct with
    | step d ih =>
      rintro ⟨hd, hm⟩
      refine ⟨hprune d hd, ?_⟩
      rw [prune_members]
      rw [everywhere_iff_forall] at hm ⊢
      intro x hx
      obtain ⟨m, hmem, -, rfl⟩ := mem_pruneAll.1 hx
      exact ih m hmem (hm m hmem)
  rw [everywhere_iff_forall] at h ⊢
  intro x hx
  obtain ⟨d, hd, -, rfl⟩ := mem_pruneAll.1 hx
  exact hone d (h d hd)

end Declaration

end ApiPages
