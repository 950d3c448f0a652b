import ApiPages.Declaration.Merge
import ApiPages.Proofs.Declaration.Position

/-!
# The table of targets

Registering is laid out as a list: the names and paths that a tree offers, in the order in which
they are registered. A name goes to the first path offered for it, so the table only grows, and what
it holds is either what it held or what was offered.
-/

namespace ApiPages.Merge

namespace Targets

/-- Offers entered one after another. -/
def insertAll (t : Targets) (offers : List (String × List Nat)) : Targets :=
  offers.foldl (fun t offer => t.insert offer.1 offer.2) t

@[simp] theorem insertAll_nil (t : Targets) : t.insertAll [] = t := rfl

@[simp] theorem insertAll_cons (t : Targets) (offer : String × List Nat)
    (offers : List (String × List Nat)) :
    t.insertAll (offer :: offers) = (t.insert offer.1 offer.2).insertAll offers := rfl

theorem insertAll_append (t : Targets) (xs ys : List (String × List Nat)) :
    t.insertAll (xs ++ ys) = (t.insertAll xs).insertAll ys :=
  List.foldl_append

theorem mem_of_pathOf? {t : Targets} {name : String} {path : List Nat}
    (h : t.pathOf? name = some path) : (name, path) ∈ t := by
  obtain ⟨target, hfind, rfl⟩ := Option.map_eq_some_iff.1 h
  have hname : target.1 = name := by simpa using List.find?_some hfind
  rw [← hname]
  exact List.mem_of_find?_eq_some hfind

theorem pathOf?_append (t u : Targets) (n : String) :
    pathOf? (t ++ u) n = (pathOf? t n).or (pathOf? u n) := by
  rw [pathOf?, List.find?_append, Option.map_or]
  rfl

theorem pathOf?_map (t : Targets) (f : List Nat → List Nat) (n : String) :
    pathOf? (t.map (Prod.map id f)) n = (pathOf? t n).map f := by
  simp only [pathOf?, List.find?_map, Option.map_map]
  rfl

theorem pathOf?_insert (t : Targets) (name : String) (path : List Nat) (n : String) :
    (t.insert name path).pathOf? n =
      (t.pathOf? n).or (if name = n then some path else none) := by
  unfold insert
  split
  · -- the name has a path already, which stays
    next h =>
      by_cases hn : name = n
      · subst hn
        obtain ⟨p, hp⟩ := Option.isSome_iff_exists.1 h
        simp [hp]
      · simp [hn]
  · rw [pathOf?_append]
    by_cases hn : name = n <;> simp [pathOf?, hn]

/-- A name is entered for the first path offered for it. -/
theorem pathOf?_insertAll (t : Targets) (offers : List (String × List Nat)) (n : String) :
    (t.insertAll offers).pathOf? n = (t.pathOf? n).or (pathOf? offers n) := by
  induction offers generalizing t with
  | nil => simp [pathOf?]
  | cons offer offers ih =>
    rw [insertAll_cons, ih, pathOf?_insert, Option.or_assoc]
    by_cases hn : offer.1 = n <;> simp [pathOf?, hn]

theorem mem_insert {t : Targets} {name : String} {path : List Nat} {x : String × List Nat}
    (h : x ∈ t.insert name path) : x ∈ t ∨ x = (name, path) := by
  unfold insert at h
  split at h
  · exact .inl h
  · simpa using h

theorem mem_insertAll {t : Targets} {offers : List (String × List Nat)} {x : String × List Nat}
    (h : x ∈ t.insertAll offers) : x ∈ t ∨ x ∈ offers := by
  induction offers generalizing t with
  | nil => exact .inl h
  | cons offer offers ih =>
    rcases ih h with ht | ho
    · rcases mem_insert ht with ht | rfl
      · exact .inl ht
      · exact .inr (by simp)
    · exact .inr (by simp [ho])

end Targets

open Declaration (below? at? head)

mutual

/-- What is offered for the declaration at a path, which has a given qualified name, and for the
types nested in it. -/
def offers (name : String) (path : List Nat) : Declaration → List (String × List Nat)
  | ⟨kind, _, _, _, _, _, members, _⟩ =>
    (if kind.isExtendable then [(name, path)] else []) ++ memberOffers name path 0 members

/-- What is offered for members of the declaration at a path, of which the first given is the
`i`-th. -/
def memberOffers (parent : String) (path : List Nat) (i : Nat) :
    List Declaration → List (String × List Nat)
  | [] => []
  | d :: ds =>
    (if d.kind.isExtendable then offers (qualify parent d.name) (path ++ [i]) d else []) ++
      memberOffers parent path (i + 1) ds

end

/-- What is offered for top-level declarations, of which the first given is the `i`-th. -/
def topOffers (i : Nat) : List Declaration → List (String × List Nat)
  | [] => []
  | d :: ds => offers d.name [i] d ++ topOffers (i + 1) ds

mutual

theorem register_eq (t : Targets) (name : String) (path : List Nat) :
    (d : Declaration) → register t name path d = t.insertAll (offers name path d)
  | ⟨kind, _, _, _, _, _, members, _⟩ => by
    rw [register, offers, registerMembers_eq _ _ _ _ members, Targets.insertAll_append]
    split <;> rfl

theorem registerMembers_eq (t : Targets) (parent : String) (path : List Nat) (i : Nat) :
    (ds : List Declaration) →
      registerMembers t parent path i ds = t.insertAll (memberOffers parent path i ds)
  | [] => rfl
  | d :: ds => by
    rw [registerMembers, memberOffers, registerMembers_eq _ _ _ _ ds, Targets.insertAll_append]
    split
    · rw [register_eq _ _ _ d]
    · rfl

end

theorem registerAll_eq (t : Targets) (i : Nat) (ds : List Declaration) :
    registerAll t i ds = t.insertAll (topOffers i ds) := by
  induction ds generalizing t i with
  | nil => rfl
  | cons d ds ih => rw [registerAll, topOffers, ih, register_eq, Targets.insertAll_append]

/-! ## What is offered -/

/-- The qualified name of what stands below a declaration that has a qualified name itself: names
are qualified one after another down the path. -/
def nameBelow? (name : String) (d : Declaration) : List Nat → Option String
  | [] => some name
  | i :: path => d.members[i]?.bind fun m => nameBelow? (qualify name m.name) m path

/-- Whether a name stands for the type at a path below a declaration with a qualified name. -/
def Names (name : String) (d : Declaration) (n : String) (q : List Nat) : Prop :=
  nameBelow? name d q = some n ∧ ∃ x, d.below? q = some x ∧ x.kind.isExtendable = true

/-- Whether the type at a path below a declaration, which has a qualified name, has the qualified
name `n` and is reached through types only. -/
def TypeBelow (n name : String) (d : Declaration) : List Nat → Prop
  | [] => d.kind.isExtendable = true ∧ name = n
  | i :: path => ∃ m, d.members[i]? = some m ∧ m.kind.isExtendable = true ∧
      TypeBelow n (qualify name m.name) m path

theorem TypeBelow.names {n name : String} {d : Declaration} {q : List Nat}
    (h : TypeBelow n name d q) : Names name d n q := by
  induction q generalizing name d with
  | nil => exact ⟨congrArg some h.2, d, rfl, h.1⟩
  | cons i q ih =>
    obtain ⟨m, hm, -, hq⟩ := h
    obtain ⟨hn, x, hx, hk⟩ := ih hq
    exact ⟨by simp [nameBelow?, hm, hn], x, by simp [below?, hm, hx], hk⟩

mutual

/-- The types reached through types are offered, and nothing else. -/
theorem mem_offers_iff {name : String} {path : List Nat} {n : String} {p : List Nat} :
    (d : Declaration) → ((n, p) ∈ offers name path d ↔ ∃ q, p = path ++ q ∧ TypeBelow n name d q)
  | ⟨kind, a, b, c, e, f, members, g⟩ => by
    rw [offers, List.mem_append, mem_memberOffers_iff members]
    constructor
    · rintro (h | ⟨j, m, q, hm, hk, rfl, hq⟩)
      · split at h
        · next hk =>
            obtain ⟨rfl, rfl⟩ := Prod.mk.inj (List.mem_singleton.1 h)
            exact ⟨[], by simp, hk, rfl⟩
        · simp at h
      · exact ⟨j :: q, by simp, m, hm, hk, hq⟩
    · rintro ⟨q, rfl, hq⟩
      cases q with
      | nil =>
        obtain ⟨hk, rfl⟩ := hq
        exact .inl (by simp [show kind.isExtendable = true from hk])
      | cons j q =>
        obtain ⟨m, hm, hk, hq⟩ := hq
        exact .inr ⟨j, m, q, hm, hk, by simp, hq⟩

theorem mem_memberOffers_iff {parent : String} {path : List Nat} {i : Nat} {n : String}
    {p : List Nat} : (ds : List Declaration) → ((n, p) ∈ memberOffers parent path i ds ↔
      ∃ j d q, ds[j]? = some d ∧ d.kind.isExtendable = true ∧ p = path ++ (i + j) :: q ∧
        TypeBelow n (qualify parent d.name) d q)
  | [] => by simp [memberOffers]
  | d :: ds => by
    rw [memberOffers, List.mem_append, mem_memberOffers_iff ds]
    constructor
    · rintro (h | ⟨j, m, q, hm, hk, rfl, hq⟩)
      · split at h
        · next hk =>
            obtain ⟨q, rfl, hq⟩ := (mem_offers_iff d).1 h
            exact ⟨0, d, q, rfl, hk, by simp, hq⟩
        · simp at h
      · exact ⟨j + 1, m, q, hm, hk, by rw [Nat.add_right_comm, Nat.add_assoc], hq⟩
    · rintro ⟨j, m, q, hm, hk, rfl, hq⟩
      cases j with
      | zero =>
        cases hm
        exact .inl (by rw [if_pos hk, mem_offers_iff d]; exact ⟨q, by simp, hq⟩)
      | succ j =>
        exact .inr ⟨j, m, q, hm, hk, by rw [Nat.add_right_comm, Nat.add_assoc], hq⟩

end

theorem mem_memberOffers {parent : String} {path : List Nat} {i : Nat} {n : String} {p : List Nat}
    (ds : List Declaration) (h : (n, p) ∈ memberOffers parent path i ds) :
    ∃ j d q, ds[j]? = some d ∧ p = path ++ (i + j) :: q ∧ Names (qualify parent d.name) d n q := by
  obtain ⟨j, d, q, hd, -, hp, hq⟩ := (mem_memberOffers_iff ds).1 h
  exact ⟨j, d, q, hd, hp, hq.names⟩

theorem mem_topOffers_iff {i : Nat} {ds : List Declaration} {n : String} {p : List Nat} :
    (n, p) ∈ topOffers i ds ↔
      ∃ j d q, ds[j]? = some d ∧ p = (i + j) :: q ∧ TypeBelow n d.name d q := by
  induction ds generalizing i with
  | nil => simp [topOffers]
  | cons d ds ih =>
    rw [topOffers, List.mem_append, mem_offers_iff, ih]
    constructor
    · rintro (⟨q, rfl, hq⟩ | ⟨j, m, q, hm, rfl, hq⟩)
      · exact ⟨0, d, q, rfl, by simp, hq⟩
      · exact ⟨j + 1, m, q, hm, by rw [Nat.add_right_comm, Nat.add_assoc], hq⟩
    · rintro ⟨j, m, q, hm, rfl, hq⟩
      cases j with
      | zero =>
        cases hm
        exact .inl ⟨q, by simp, hq⟩
      | succ j => exact .inr ⟨j, m, q, hm, by rw [Nat.add_right_comm, Nat.add_assoc], hq⟩

theorem mem_topOffers {i : Nat} {ds : List Declaration} {n : String} {p : List Nat}
    (h : (n, p) ∈ topOffers i ds) :
    ∃ j d q, ds[j]? = some d ∧ p = (i + j) :: q ∧ Names d.name d n q := by
  obtain ⟨j, d, q, hd, hp, hq⟩ := mem_topOffers_iff.1 h
  exact ⟨j, d, q, hd, hp, hq.names⟩

end ApiPages.Merge
