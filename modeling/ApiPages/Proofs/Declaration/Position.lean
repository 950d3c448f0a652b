import ApiPages.Proofs.Declaration.Nodes

/-!
# Positions

What a change at one position of a list of trees does to the others. Paths into a list start with an
index into the list itself; paths below a declaration may be empty, and then lead to itself.
-/

namespace ApiPages.Declaration

variable {f : Declaration → Declaration} {more ds : List Declaration} {d : Declaration}

/-- The declaration below another one at a path among members. -/
def below? (d : Declaration) : List Nat → Option Declaration
  | [] => some d
  | i :: path => d.members[i]?.bind fun m => below? m path

/-- The declaration with the one at a path below it replaced by what `f` makes of that. -/
def modifyBelow (f : Declaration → Declaration) (d : Declaration) : List Nat → Declaration
  | [] => f d
  | i :: path => { d with members := d.members.modify i fun m => modifyBelow f m path }

theorem at?_cons (ds : List Declaration) (i : Nat) (path : List Nat) :
    at? ds (i :: path) = ds[i]?.bind fun d => d.below? path := by
  induction path generalizing ds i with
  | nil => simp [at?, below?]
  | cons j path ih =>
    rw [at?]
    · simp only [ih, below?]
    · simp

theorem modifyAt_cons (f : Declaration → Declaration) (ds : List Declaration) (i : Nat)
    (path : List Nat) :
    modifyAt f ds (i :: path) = ds.modify i fun d => d.modifyBelow f path := by
  induction path generalizing ds i with
  | nil => simp [modifyAt, modifyBelow]
  | cons j path ih =>
    rw [modifyAt]
    · simp only [ih, modifyBelow]
    · simp

/-! ## A list of trees as one tree -/

/-- A declaration that has the trees of a list below it. -/
def root (ds : List Declaration) : Declaration :=
  bare .structType "" ds

/-- Paths into a list are paths below its root. -/
theorem at?_eq_below? {p : List Nat} (h : p ≠ []) (ds : List Declaration) :
    at? ds p = (root ds).below? p := by
  obtain ⟨i, p, rfl⟩ := List.exists_cons_of_ne_nil h
  rw [at?_cons]
  rfl

/-- A change in a list is a change below its root. -/
theorem root_modifyAt {p : List Nat} (h : p ≠ []) (f : Declaration → Declaration)
    (ds : List Declaration) : root (modifyAt f ds p) = (root ds).modifyBelow f p := by
  obtain ⟨i, p, rfl⟩ := List.exists_cons_of_ne_nil h
  rw [modifyAt_cons]
  rfl

theorem modifyAt_eq_members {p : List Nat} (h : p ≠ []) (f : Declaration → Declaration)
    (ds : List Declaration) : modifyAt f ds p = ((root ds).modifyBelow f p).members :=
  congrArg (·.members) (root_modifyAt h f ds)

/-! ## What stands where -/

theorem below?_append (d : Declaration) (p q : List Nat) :
    d.below? (p ++ q) = (d.below? p).bind fun m => m.below? q := by
  induction p generalizing d with
  | nil => rfl
  | cons i p ih =>
    rw [List.cons_append, below?, below?]
    cases d.members[i]? with
    | none => rfl
    | some m => exact ih m

theorem at?_append {p : List Nat} (hp : p ≠ []) (ds : List Declaration) (q : List Nat) :
    at? ds (p ++ q) = (at? ds p).bind fun m => m.below? q := by
  obtain ⟨i, p, rfl⟩ := List.exists_cons_of_ne_nil hp
  rw [List.cons_append, at?_cons, at?_cons, Option.bind_assoc]
  simp only [below?_append]

/-- A path to a declaration is not empty. -/
theorem ne_nil_of_at? {p : List Nat} (h : at? ds p = some d) : p ≠ [] := by
  rintro rfl
  simp [at?] at h

theorem below?_modifyBelow_self {p : List Nat} {m : Declaration} (h : d.below? p = some m) :
    (d.modifyBelow f p).below? p = some (f m) := by
  induction p generalizing d with
  | nil =>
    cases h
    rfl
  | cons i p ih =>
    obtain ⟨c, hc, hm⟩ := Option.bind_eq_some_iff.1 h
    simp [modifyBelow, below?, hc, ih hm]

theorem at?_modifyAt_self {p : List Nat} {m : Declaration} (h : at? ds p = some m) :
    at? (modifyAt f ds p) p = some (f m) := by
  obtain ⟨i, p, rfl⟩ := List.exists_cons_of_ne_nil (ne_nil_of_at? h)
  rw [at?_cons] at h
  obtain ⟨c, hc, hm⟩ := Option.bind_eq_some_iff.1 h
  simp [modifyAt_cons, at?_cons, hc, below?_modifyBelow_self hm]

/-- A change that adds members to a declaration, after those that it has, and keeps its head. -/
def Adds (f : Declaration → Declaration) (more : List Declaration) : Prop :=
  ∀ d, (f d).head = d.head ∧ (f d).members = d.members ++ more

theorem below?_modifyBelow (hf : Adds f more) {d m : Declaration} {q : List Nat} (p : List Nat)
    (h : d.below? q = some m) :
    ∃ m', (d.modifyBelow f p).below? q = some m' ∧ m'.head = m.head := by
  induction q generalizing d p with
  | nil =>
    cases h
    cases p with
    | nil => exact ⟨f m, rfl, (hf m).1⟩
    | cons i p => exact ⟨_, rfl, rfl⟩
  | cons j q ih =>
    obtain ⟨c, hc, hm⟩ := Option.bind_eq_some_iff.1 h
    cases p with
    | nil =>
      -- the members that were there stand in front of those added
      have hlt : j < d.members.length := (List.getElem?_eq_some_iff.1 hc).1
      refine ⟨m, ?_, rfl⟩
      rw [modifyBelow, below?, (hf d).2, List.getElem?_append_left hlt, hc]
      exact hm
    | cons i p =>
      by_cases hij : i = j
      · subst hij
        obtain ⟨m', hm', hhead⟩ := ih p hm
        exact ⟨m', by simp [modifyBelow, below?, hc, hm'], hhead⟩
      · exact ⟨m, by simp [modifyBelow, below?, hij, hc, hm], rfl⟩

/-- What stands at a path is still there, with its head, after something was added at another. -/
theorem at?_modifyAt (hf : Adds f more) {m : Declaration} {q : List Nat} (p : List Nat)
    (h : at? ds q = some m) : ∃ m', at? (modifyAt f ds p) q = some m' ∧ m'.head = m.head := by
  obtain ⟨j, q, rfl⟩ := List.exists_cons_of_ne_nil (ne_nil_of_at? h)
  cases p with
  | nil => exact ⟨m, by rw [modifyAt, h], rfl⟩
  | cons i p =>
    rw [at?_cons] at h
    obtain ⟨c, hc, hm⟩ := Option.bind_eq_some_iff.1 h
    rw [modifyAt_cons, at?_cons]
    by_cases hij : i = j
    · subst hij
      obtain ⟨m', hm', hhead⟩ := below?_modifyBelow hf p hm
      exact ⟨m', by simp [hc, hm'], hhead⟩
    · exact ⟨m, by simp [hij, hc, hm], rfl⟩

/-- What stands below an added member is what stood below it before it was added. -/
theorem at?_modifyAt_added (hf : Adds f more) {p q : List Nat} {j : Nat} {t m : Declaration}
    (h : at? ds p = some t) (hm : more[j]? = some m) :
    at? (modifyAt f ds p) (p ++ (t.members.length + j) :: q) = m.below? q := by
  rw [at?_append (ne_nil_of_at? h), at?_modifyAt_self h, Option.bind_some, below?, (hf t).2,
    List.getElem?_append_right (by omega), Nat.add_sub_cancel_left, hm, Option.bind_some]

/-- Below a declaration there is nothing behind its last member. -/
theorem at?_beyond {p q : List Nat} {i : Nat} {t : Declaration} (h : at? ds p = some t)
    (hi : t.members.length ≤ i) : at? ds (p ++ i :: q) = none := by
  rw [at?_append (ne_nil_of_at? h), h, Option.bind_some, below?, List.getElem?_eq_none hi]
  rfl

theorem at?_append_left {es : List Declaration} {p : List Nat} (h : at? ds p = some d) :
    at? (ds ++ es) p = some d := by
  obtain ⟨i, p, rfl⟩ := List.exists_cons_of_ne_nil (ne_nil_of_at? h)
  rw [at?_cons] at h ⊢
  obtain ⟨c, hc, hd⟩ := Option.bind_eq_some_iff.1 h
  rw [List.getElem?_append_left (List.getElem?_eq_some_iff.1 hc).1, hc]
  exact hd

/-! ## What holds everywhere -/

/-- What holds everywhere holds of what stands at each path. -/
theorem Everywhere.below {P : Declaration → Prop} {m : Declaration} {p : List Nat}
    (h : P d ∧ Everywhere P d.members) (hm : d.below? p = some m) : P m := by
  induction p generalizing d with
  | nil =>
    cases hm
    exact h.1
  | cons i p ih =>
    obtain ⟨c, hc, hbelow⟩ := Option.bind_eq_some_iff.1 hm
    exact ih (everywhere_iff_forall.1 h.2 c (List.mem_of_getElem? hc)) hbelow

/-- What holds of what stands at the path to a declaration, and below it, holds everywhere in it. -/
theorem everywhere_of_below {P : Declaration → Prop} (d : Declaration) :
    (∀ p m, d.below? p = some m → P m) → P d ∧ Everywhere P d.members := by
  induction d using Declaration.induct with
  | step d ih =>
    intro h
    refine ⟨h [] d rfl, everywhere_iff_forall.2 fun c hc => ?_⟩
    obtain ⟨i, hi⟩ := List.mem_iff_getElem?.1 hc
    exact ih c hc fun p m hm => h (i :: p) m (by rw [below?, hi]; exact hm)

theorem everywhere_iff_at? {P : Declaration → Prop} :
    Everywhere P ds ↔ ∀ p d, at? ds p = some d → P d := by
  constructor
  · intro h p d hd
    obtain ⟨i, p, rfl⟩ := List.exists_cons_of_ne_nil (ne_nil_of_at? hd)
    rw [at?_cons] at hd
    obtain ⟨c, hc, hbelow⟩ := Option.bind_eq_some_iff.1 hd
    exact Everywhere.below (everywhere_iff_forall.1 h c (List.mem_of_getElem? hc)) hbelow
  · intro h
    refine everywhere_iff_forall.2 fun c hc => ?_
    obtain ⟨i, hi⟩ := List.mem_iff_getElem?.1 hc
    exact everywhere_of_below c fun p m hm => h (i :: p) m (by rw [at?_cons, hi]; exact hm)

theorem everywhere_modify {P : Declaration → Prop} (h : Everywhere P ds) (i : Nat)
    (hf : ∀ d, P d ∧ Everywhere P d.members → P (f d) ∧ Everywhere P (f d).members) :
    Everywhere P (ds.modify i f) := by
  rw [everywhere_iff_forall] at h ⊢
  intro m hm
  obtain ⟨j, hj⟩ := List.mem_iff_getElem?.1 hm
  rw [List.getElem?_modify] at hj
  obtain ⟨c, hc, rfl⟩ := Option.map_eq_some_iff.1 hj
  have hcm := h c (List.mem_of_getElem? hc)
  split
  · exact hf c hcm
  · exact hcm

theorem everywhere_modifyBelow {P : Declaration → Prop}
    (hmembers : ∀ d ms, P d → P { d with members := ms })
    (hf : ∀ d, P d ∧ Everywhere P d.members → P (f d) ∧ Everywhere P (f d).members)
    (p : List Nat) (h : P d ∧ Everywhere P d.members) :
    P (d.modifyBelow f p) ∧ Everywhere P (d.modifyBelow f p).members := by
  induction p generalizing d with
  | nil => exact hf d h
  | cons i p ih => exact ⟨hmembers d _ h.1, everywhere_modify h.2 i fun m hm => ih hm⟩

/-- What holds everywhere, whatever the members are, and is kept by a change, holds everywhere after
the change was made at one place. -/
theorem everywhere_modifyAt {P : Declaration → Prop}
    (hmembers : ∀ d ms, P d → P { d with members := ms })
    (hf : ∀ d, P d ∧ Everywhere P d.members → P (f d) ∧ Everywhere P (f d).members)
    (p : List Nat) (h : Everywhere P ds) : Everywhere P (modifyAt f ds p) := by
  cases p with
  | nil => exact h
  | cons i p =>
    rw [modifyAt_cons]
    exact everywhere_modify h i fun m hm => everywhere_modifyBelow hmembers hf p hm

/-! ## What is there in all -/

/-- What is added to the first of two lists is added to both together. -/
theorem perm_append_more {α : Type} {xs ys more : List α} (h : xs.Perm (ys ++ more))
    (zs : List α) : (xs ++ zs).Perm (ys ++ zs ++ more) := by
  refine (h.append_right zs).trans ?_
  rw [List.append_assoc, List.append_assoc]
  exact List.perm_append_comm.append_left ys

/-- What a change at one index adds to the parts that the elements have is added to all parts. -/
theorem flatMap_modify_perm {α β : Type} {part : α → List β} {change : α → α} {xs : List α}
    {more : List β} {i : Nat} {c : α} (hc : xs[i]? = some c)
    (h : (part (change c)).Perm (part c ++ more)) :
    ((xs.modify i change).flatMap part).Perm (xs.flatMap part ++ more) := by
  induction xs generalizing i with
  | nil => simp at hc
  | cons x xs ih =>
    cases i with
    | zero =>
      cases hc
      rw [List.modify_zero_cons, List.flatMap_cons, List.flatMap_cons]
      exact perm_append_more h _
    | succ i =>
      rw [List.modify_succ_cons, List.flatMap_cons, List.flatMap_cons, List.append_assoc]
      exact (ih hc).append_left _

theorem nodesAll_modify_perm {i : Nat} {c : Declaration} (hc : ds[i]? = some c)
    (hhead : (f c).head = c.head)
    (hf : ((nodesAll (f c).members).map head).Perm
      ((nodesAll c.members).map head ++ (nodesAll more).map head)) :
    ((nodesAll (ds.modify i f)).map head).Perm
      ((nodesAll ds).map head ++ (nodesAll more).map head) := by
  have hnodes : ((f c).nodes.map head).Perm (c.nodes.map head ++ (nodesAll more).map head) := by
    rw [nodes_eq, nodes_eq, List.map_cons, List.map_cons, hhead]
    exact hf.cons _
  rw [nodesAll_eq_flatMap, nodesAll_eq_flatMap, List.map_flatMap, List.map_flatMap]
  exact flatMap_modify_perm hc hnodes

theorem modifyBelow_perm (hf : Adds f more) {d m : Declaration} {q : List Nat}
    (h : d.below? q = some m) :
    (d.modifyBelow f q).head = d.head ∧
      ((nodesAll (d.modifyBelow f q).members).map head).Perm
        ((nodesAll d.members).map head ++ (nodesAll more).map head) := by
  induction q generalizing d with
  | nil =>
    refine ⟨(hf d).1, ?_⟩
    rw [modifyBelow, (hf d).2, nodesAll_append, List.map_append]
  | cons i q ih =>
    obtain ⟨c, hc, hm⟩ := Option.bind_eq_some_iff.1 h
    obtain ⟨hhead, hperm⟩ := ih hm
    exact ⟨rfl, nodesAll_modify_perm hc hhead hperm⟩

/-- Members added somewhere are below the top level afterwards, and nothing else has changed. -/
theorem innerNodes_modifyAt_perm (hf : Adds f more) {m : Declaration} {p : List Nat}
    (h : at? ds p = some m) :
    ((innerNodes (modifyAt f ds p)).map head).Perm
      ((innerNodes ds).map head ++ (nodesAll more).map head) := by
  obtain ⟨i, p, rfl⟩ := List.exists_cons_of_ne_nil (ne_nil_of_at? h)
  rw [at?_cons] at h
  obtain ⟨c, hc, hm⟩ := Option.bind_eq_some_iff.1 h
  rw [modifyAt_cons, innerNodes, innerNodes, List.map_flatMap, List.map_flatMap]
  exact flatMap_modify_perm hc (modifyBelow_perm hf hm).2

end ApiPages.Declaration
