import ApiPages.Proofs.Merge.Targets

/-!
# Types and their qualified names

The types that extensions can be folded into stand at the top level, or below a declaration there
and reached through types only. Adding members to such a type adds the types among them, under names
that its qualified name qualifies, and leaves the others as they are.
-/

namespace ApiPages.Merge

open Declaration (Adds at? modifyAt head)

variable {f : Declaration → Declaration} {more ds : List Declaration} {d e t : Declaration}
  {n m : String}

/-! ## Types and their qualified names -/

/-- The qualified name of what stands at a path: the name at the top, then the names down the path,
each qualified by what is in front of it. -/
def qualifiedName? (ds : List Declaration) : List Nat → Option String
  | [] => none
  | i :: path => ds[i]?.bind fun d => nameBelow? d.name d path

/-- Whether at a path there is a type of a qualified name: at the top level or, reached through
types only, below a declaration there that is no extension. -/
def TypeAt (ds : List Declaration) (n : String) : List Nat → Prop
  | [] => False
  | i :: path => ∃ d, ds[i]? = some d ∧ d.isExtension = false ∧ TypeBelow n d.name d path

theorem TypeAt.qualifiedName? {p : List Nat} (h : TypeAt ds n p) :
    qualifiedName? ds p = some n := by
  cases p with
  | nil => exact h.elim
  | cons i p =>
    obtain ⟨d, hd, -, hp⟩ := h
    simp [Merge.qualifiedName?, hd, hp.names.1]

theorem TypeAt.at? {p : List Nat} (h : TypeAt ds n p) :
    ∃ d, at? ds p = some d ∧ d.kind.isExtendable = true := by
  cases p with
  | nil => exact h.elim
  | cons i p =>
    obtain ⟨d, hd, -, hp⟩ := h
    obtain ⟨-, x, hx, hk⟩ := hp.names
    exact ⟨x, by rw [Declaration.at?_cons, hd]; exact hx, hk⟩

/-- At a path there is one type, of one name. -/
theorem TypeAt.name_eq {p : List Nat} (h : TypeAt ds n p) (h' : TypeAt ds m p) : n = m :=
  Option.some.inj (h.qualifiedName?.symm.trans h'.qualifiedName?)

/-- Without extensions at the top level the types are those that are offered to the table. -/
theorem typeAt_iff_mem_topOffers (hds : ∀ d ∈ ds, d.isExtension = false) {p : List Nat} :
    TypeAt ds n p ↔ (n, p) ∈ topOffers 0 ds := by
  rw [mem_topOffers_iff]
  constructor
  · intro h
    cases p with
    | nil => exact h.elim
    | cons i p =>
      obtain ⟨d, hd, -, hp⟩ := h
      exact ⟨i, d, p, hd, by rw [Nat.zero_add], hp⟩
  · rintro ⟨i, d, p, hd, rfl, hp⟩
    rw [Nat.zero_add]
    exact ⟨d, hd, hds d (List.mem_of_getElem? hd), hp⟩

/-- Extensions at the end of the top level hold no types to extend. -/
theorem typeAt_append_iff (hmore : ∀ d ∈ more, d.isExtension = true) {p : List Nat} :
    TypeAt (ds ++ more) n p ↔ TypeAt ds n p := by
  cases p with
  | nil => exact Iff.rfl
  | cons i p =>
    constructor
    · rintro ⟨d, hd, hext, hp⟩
      rw [List.getElem?_append] at hd
      split at hd
      · exact ⟨d, hd, hext, hp⟩
      · rw [hmore d (List.mem_of_getElem? hd)] at hext
        cases hext
    · rintro ⟨d, hd, hext, hp⟩
      have hlt := (List.getElem?_eq_some_iff.1 hd).1
      exact ⟨d, by rw [List.getElem?_append_left hlt, hd], hext, hp⟩

/-! ## Types after a change -/

theorem head_modifyBelow (hf : Adds f more) (d : Declaration) (r : List Nat) :
    (d.modifyBelow f r).head = d.head := by
  cases r with
  | nil => exact (hf d).1
  | cons i r => rfl

/-- A type is there, under its name, after something was added somewhere. -/
theorem TypeBelow.modifyBelow (hf : Adds f more) {name : String} {q : List Nat} (r : List Nat)
    (h : TypeBelow n name d q) : TypeBelow n name (d.modifyBelow f r) q := by
  induction q generalizing name d r with
  | nil =>
    refine ⟨?_, h.2⟩
    rw [Declaration.kind_eq_of_head (head_modifyBelow hf d r)]
    exact h.1
  | cons i q ih =>
    obtain ⟨c, hc, hk, hq⟩ := h
    cases r with
    | nil =>
      have hlt := (List.getElem?_eq_some_iff.1 hc).1
      refine ⟨c, ?_, hk, hq⟩
      rw [Declaration.modifyBelow, (hf d).2, List.getElem?_append_left hlt, hc]
    | cons j r =>
      by_cases hij : j = i
      · subst hij
        have hhead := head_modifyBelow hf c r
        refine ⟨c.modifyBelow f r, by simp [Declaration.modifyBelow, hc], ?_, ?_⟩
        · rw [Declaration.kind_eq_of_head hhead]
          exact hk
        · rw [Declaration.name_eq_of_head hhead]
          exact ih r hq
      · exact ⟨c, by simp [Declaration.modifyBelow, hij, hc], hk, hq⟩

/-- The types among what is added to a type, and those nested in them, are there. -/
theorem TypeBelow.added (hf : Adds f more) {name : String} {r s : List Nat} {j : Nat}
    {x : Declaration} (htarget : TypeBelow m name d r) (ht : d.below? r = some t)
    (hx : more[j]? = some x) (hk : x.kind.isExtendable = true)
    (hs : TypeBelow n (qualify m x.name) x s) :
    TypeBelow n name (d.modifyBelow f r) (r ++ (t.members.length + j) :: s) := by
  induction r generalizing name d with
  | nil =>
    obtain rfl : d = t := Option.some.inj ht
    obtain ⟨-, rfl⟩ := htarget
    refine ⟨x, ?_, hk, hs⟩
    rw [Declaration.modifyBelow, (hf d).2, List.getElem?_append_right (by omega),
      Nat.add_sub_cancel_left, hx]
  | cons k r ih =>
    obtain ⟨c, hc, hck, hr⟩ := htarget
    obtain ⟨c', hc', hbelow⟩ := Option.bind_eq_some_iff.1 ht
    obtain rfl : c = c' := Option.some.inj (hc.symm.trans hc')
    have hhead := head_modifyBelow hf c r
    refine ⟨c.modifyBelow f r, by simp [Declaration.modifyBelow, hc], ?_, ?_⟩
    · rw [Declaration.kind_eq_of_head hhead]
      exact hck
    · rw [Declaration.name_eq_of_head hhead]
      exact ih hr hbelow

/-- A type was there before something was added to a type, or it came with what was added. -/
theorem TypeBelow.of_modifyBelow (hf : Adds f more) {name : String} {q r : List Nat}
    (h : TypeBelow n name (d.modifyBelow f r) q) (htarget : TypeBelow m name d r)
    (ht : d.below? r = some t) :
    TypeBelow n name d q ∨ ∃ j x s, more[j]? = some x ∧ x.kind.isExtendable = true ∧
      q = r ++ (t.members.length + j) :: s ∧ TypeBelow n (qualify m x.name) x s := by
  induction r generalizing name d q with
  | nil =>
    obtain rfl : d = t := Option.some.inj ht
    obtain ⟨-, rfl⟩ := htarget
    cases q with
    | nil =>
      refine .inl ⟨?_, h.2⟩
      rw [← Declaration.kind_eq_of_head (hf d).1]
      exact h.1
    | cons i q =>
      obtain ⟨c, hc, hk, hq⟩ := h
      rw [Declaration.modifyBelow, (hf d).2] at hc
      by_cases hi : i < d.members.length
      · rw [List.getElem?_append_left hi] at hc
        exact .inl ⟨c, hc, hk, hq⟩
      · -- one of those that were added
        have hle : d.members.length ≤ i := Nat.le_of_not_lt hi
        rw [List.getElem?_append_right hle] at hc
        refine .inr ⟨i - d.members.length, c, q, hc, hk, ?_, hq⟩
        rw [Nat.add_sub_cancel' hle, List.nil_append]
  | cons k r ih =>
    obtain ⟨c, hc, hck, hr⟩ := htarget
    obtain ⟨c', hc', hbelow⟩ := Option.bind_eq_some_iff.1 ht
    obtain rfl : c = c' := Option.some.inj (hc.symm.trans hc')
    cases q with
    | nil => exact .inl h
    | cons i q =>
      obtain ⟨x, hx, hk, hq⟩ := h
      by_cases hik : k = i
      · -- the way to the type that was added to
        subst hik
        obtain rfl : c.modifyBelow f r = x := by simpa [Declaration.modifyBelow, hc] using hx
        rw [Declaration.name_eq_of_head (head_modifyBelow hf c r)] at hq
        rcases ih hq hr hbelow with hold | ⟨j, y, s, hy, hyk, rfl, hs⟩
        · exact .inl ⟨c, hc, hck, hold⟩
        · exact .inr ⟨j, y, s, hy, hyk, rfl, hs⟩
      · have hsame : d.members[i]? = some x := by simpa [Declaration.modifyBelow, hik] using hx
        exact .inl ⟨x, hsame, hk, hq⟩

theorem TypeAt.modifyAt (hf : Adds f more) {p : List Nat} (path : List Nat) (h : TypeAt ds n p) :
    TypeAt (modifyAt f ds path) n p := by
  cases path with
  | nil => exact h
  | cons i r =>
    cases p with
    | nil => exact h.elim
    | cons k q =>
      obtain ⟨d, hd, hext, hq⟩ := h
      rw [Declaration.modifyAt_cons]
      by_cases hik : i = k
      · subst hik
        have hhead := head_modifyBelow hf d r
        refine ⟨d.modifyBelow f r, by simp [hd], ?_, ?_⟩
        · rw [Declaration.isExtension_eq_of_head hhead]
          exact hext
        · rw [Declaration.name_eq_of_head hhead]
          exact hq.modifyBelow hf r
      · exact ⟨d, by simp [hik, hd], hext, hq⟩

/-- **What is added to a type brings the types in it**, under names that the qualified name of that
type qualifies, and no others. -/
theorem typeAt_modifyAt_iff (hf : Adds f more) {p path : List Nat} (htarget : TypeAt ds m path)
    (ht : at? ds path = some t) :
    TypeAt (modifyAt f ds path) n p ↔
      TypeAt ds n p ∨ (n, p) ∈ memberOffers m path t.members.length more := by
  obtain ⟨i, r, rfl⟩ := List.exists_cons_of_ne_nil (Declaration.ne_nil_of_at? ht)
  obtain ⟨d, hd, hext, hr⟩ := htarget
  rw [Declaration.at?_cons, hd, Option.bind_some] at ht
  rw [mem_memberOffers_iff]
  constructor
  · intro h
    cases p with
    | nil => exact h.elim
    | cons k q =>
      rw [Declaration.modifyAt_cons] at h
      obtain ⟨c, hc, hcext, hq⟩ := h
      by_cases hik : i = k
      · subst hik
        obtain rfl : d.modifyBelow f r = c := by simpa [hd] using hc
        rw [Declaration.name_eq_of_head (head_modifyBelow hf d r)] at hq
        rcases hq.of_modifyBelow hf hr ht with hold | ⟨j, x, s, hx, hk, rfl, hs⟩
        · exact .inl ⟨d, hd, hext, hold⟩
        · exact .inr ⟨j, x, s, hx, hk, rfl, hs⟩
      · have hsame : ds[k]? = some c := by simpa [hik] using hc
        exact .inl ⟨c, hsame, hcext, hq⟩
  · rintro (h | ⟨j, x, s, hx, hk, rfl, hs⟩)
    · exact h.modifyAt hf _
    · rw [Declaration.modifyAt_cons]
      have hhead := head_modifyBelow hf d r
      refine ⟨d.modifyBelow f r, by simp [hd], ?_, ?_⟩
      · rw [Declaration.isExtension_eq_of_head hhead]
        exact hext
      · rw [Declaration.name_eq_of_head hhead]
        exact hr.added hf ht hx hk hs

end ApiPages.Merge
