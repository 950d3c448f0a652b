import ApiPages.Proofs.Merge.QualifiedNames

/-!
# Names in full

Where nested types are written with their qualified names, at every depth and in extensions too, a
type has the name that it is written with all through a merge. Extensions and their targets then
have the same names, and qualify what the extensions bring alike (`qualifiedAlike_of_inFull`).
-/

namespace ApiPages.Merge

open Declaration (at? Everywhere everywhere_iff_forall)

variable {ds : List Declaration} {d e t : Declaration} {s : State} {n : String}

/-- Whether the types among the members of a declaration are written with names that its own name
qualifies already. -/
def InFull (d : Declaration) : Prop :=
  ∀ m ∈ d.members, m.kind.isExtendable = true → qualify d.name m.name = m.name

instance : DecidablePred InFull := fun d =>
  inferInstanceAs (Decidable (∀ m ∈ d.members, m.kind.isExtendable = true →
    qualify d.name m.name = m.name))

/-- Whether the types are written with their qualified names. -/
def Written (s : State) : Prop :=
  ∀ n p t, TypeAt s.base n p → at? s.base p = some t → t.name = n

theorem TypeBelow.name_eq {q : List Nat} (hd : InFull d ∧ Everywhere InFull d.members)
    (h : TypeBelow n d.name d q) (ht : d.below? q = some t) : t.name = n := by
  induction q generalizing d with
  | nil =>
    cases ht
    exact h.2
  | cons i q ih =>
    obtain ⟨m, hm, hk, hq⟩ := h
    obtain ⟨m', hm', hbelow⟩ := Option.bind_eq_some_iff.1 ht
    obtain rfl : m = m' := Option.some.inj (hm.symm.trans hm')
    -- the member is written with its qualified name, so the rest of the path starts from that
    have hmem := List.mem_of_getElem? hm
    rw [hd.1 m hmem hk] at hq
    exact ih (everywhere_iff_forall.1 hd.2 m hmem) hq hbelow

theorem written_start (h : Everywhere InFull ds) : Written (start ds) := by
  intro n p t hp ht
  cases p with
  | nil => exact hp.elim
  | cons i p =>
    obtain ⟨d, hd, -, hq⟩ := hp
    rw [Declaration.at?_cons, hd] at ht
    have hmem := List.mem_of_mem_filter (List.mem_of_getElem? hd)
    exact hq.name_eq (everywhere_iff_forall.1 h d hmem) ht

/-- What an extension brings is written in full under its target, which is written with the name of
the extension. -/
theorem written_fold (hs : Faithful s) (hw : Written s)
    (he : InFull e ∧ Everywhere InFull e.members) : Written (fold s e) := by
  cases hpath : s.targets.pathOf? e.name with
  | none =>
    rw [fold_of_none hpath]
    exact hw
  | some path =>
    have htarget := hs.entries _ _ (Targets.mem_of_pathOf? hpath)
    obtain ⟨target, ht, -⟩ := htarget.at?
    rw [fold_of_some hpath ht]
    intro n p t hp hat
    rcases (typeAt_modifyAt_iff (adds_absorb e) htarget ht).1 hp with hold | hnew
    · -- a type that was there has kept its head
      obtain ⟨x, hx, -⟩ := hold.at?
      obtain ⟨x', hx', hhead⟩ := Declaration.at?_modifyAt (adds_absorb e) path hx
      obtain rfl : x' = t := Option.some.inj (hx'.symm.trans hat)
      rw [Declaration.name_eq_of_head hhead]
      exact hw n p x hold hx
    · -- a type that the extension brings was in full under the name of the extension
      obtain ⟨j, m, q, hm, hk, rfl, hq⟩ := (mem_memberOffers_iff _).1 hnew
      have hmem := List.mem_of_getElem? hm
      rw [he.1 m hmem hk] at hq
      have hat' : at? (Declaration.modifyAt (absorb · e) s.base path)
          (path ++ (target.members.length + j) :: q) = some t := hat
      rw [Declaration.at?_modifyAt_added (adds_absorb e) ht hm] at hat'
      exact hq.name_eq (everywhere_iff_forall.1 he.2 m hmem) hat'

theorem qualifiedAlike_of_written (hs : Faithful s) (hw : Written s) (e : Declaration) :
    QualifiedAlike s e := by
  intro p t hp ht x _ _
  rw [hw e.name p t (hs.entries _ _ (Targets.mem_of_pathOf? hp)) ht]

/-- **Names in full are qualified alike**, at every point of a merge. -/
theorem qualifiedAlike_of_inFull (h : Everywhere InFull ds) (i : Nat) (e : Declaration) :
    QualifiedAlike (after ds i) e := by
  have hextensions : ∀ e ∈ extensions ds, InFull e ∧ Everywhere InFull e.members :=
    fun e he => everywhere_iff_forall.1 h e (List.mem_of_mem_filter he)
  have hboth : Faithful (after ds i) ∧ Written (after ds i) := by
    refine after_induct (P := fun s => Faithful s ∧ Written s) ⟨faithful_start ds, written_start h⟩
      i fun j _ e he hs => ?_
    have hmem := hextensions e (List.mem_of_getElem? he)
    exact ⟨faithful_fold hs.1 (qualifiedAlike_of_written hs.1 hs.2 e), written_fold hs.1 hs.2 hmem⟩
  exact qualifiedAlike_of_written hboth.1 hboth.2 e

end ApiPages.Merge
