import ApiPages.Proofs.Merge.Growth

/-!
# The steps of a merge

A merge takes one extension after another. What the table says and what stands somewhere stays so
from step to step.
-/

namespace ApiPages.Merge

open Declaration (at?)

variable {ds : List Declaration} {e : Declaration} {i j : Nat}

/-- The extensions of some declarations, in the order that they are taken in. -/
def extensions (ds : List Declaration) : List Declaration :=
  ds.filter Declaration.isExtension

/-- In the beginning a name has the first path that is offered for it. -/
theorem pathOf?_start (ds : List Declaration) (n : String) :
    (start ds).targets.pathOf? n = Targets.pathOf? (topOffers 0 (start ds).base) n := by
  rw [start, registerAll_eq, Targets.pathOf?_insertAll]
  rfl

/-- The state after the first `n` extensions. -/
def after (ds : List Declaration) (n : Nat) : State :=
  ((extensions ds).take n).foldl fold (start ds)

theorem after_succ (h : (extensions ds)[i]? = some e) : after ds (i + 1) = fold (after ds i) e := by
  rw [after, List.take_add_one, h, List.foldl_append]
  rfl

theorem after_succ_of_none (h : (extensions ds)[i]? = none) : after ds (i + 1) = after ds i := by
  rw [after, List.take_add_one, h, Option.toList_none, List.append_nil, after]

/-- The last of these states is the one that a run reaches. -/
theorem run_eq_after (ds : List Declaration) : run ds = after ds (extensions ds).length := by
  rw [after, List.take_length]
  rfl

/-- **What holds in the beginning and is kept by every step holds after every step.** -/
theorem after_induct {P : State → Prop} (hstart : P (start ds)) (n : Nat)
    (hstep : ∀ i < n, ∀ e, (extensions ds)[i]? = some e →
      P (after ds i) → P (fold (after ds i) e)) :
    P (after ds n) := by
  induction n with
  | zero => exact hstart
  | succ n ih =>
    have hn := ih fun i hi => hstep i (by omega)
    cases he : (extensions ds)[n]? with
    | none =>
      rw [after_succ_of_none he]
      exact hn
    | some e =>
      rw [after_succ he]
      exact hstep n (by omega) e he hn

/-- At every point of a merge the targets are types that are there. -/
theorem resolves_after (ds : List Declaration) (n : Nat) : Resolves (after ds n) :=
  after_induct (resolves_start ds) n fun _ _ e _ hs => resolves_fold hs e

/-- What every step keeps is kept from one state to a later one. -/
theorem after_mono {P : State → Prop} (hstep : ∀ s e, P s → P (fold s e))
    (hij : i ≤ j) (h : P (after ds i)) : P (after ds j) := by
  induction hij with
  | refl => exact h
  | @step j _ ih =>
    cases he : (extensions ds)[j]? with
    | none =>
      rw [after_succ_of_none he]
      exact ih
    | some e =>
      rw [after_succ he]
      exact hstep _ e ih

/-! ## Fates -/

/-- The fate of an extension is what the table says when its turn has come. -/
theorem getElem?_fates (s : State) (es : List Declaration) (i : Nat) :
    (fates s es)[i]? =
      es[i]?.map fun e => ⟨e, ((es.take i).foldl fold s).targets.pathOf? e.name⟩ := by
  induction es generalizing s i with
  | nil => rfl
  | cons x es ih =>
    cases i with
    | zero => rfl
    | succ i => exact ih (fold s x) i

/-- The extensions without a target are those that were taken in when the table had none for their
names. -/
theorem mem_unfolded_iff : e ∈ unfolded (fates (start ds) (extensions ds)) ↔
    ∃ i, (extensions ds)[i]? = some e ∧ (after ds i).targets.pathOf? e.name = none := by
  constructor
  · intro h
    obtain ⟨f, hf, rfl⟩ := List.mem_map.1 h
    obtain ⟨hmem, hnone⟩ := List.mem_filter.1 hf
    obtain ⟨i, hi⟩ := List.mem_iff_getElem?.1 hmem
    rw [getElem?_fates] at hi
    obtain ⟨e, he, rfl⟩ := Option.map_eq_some_iff.1 hi
    exact ⟨i, he, of_decide_eq_true hnone⟩
  · rintro ⟨i, he, hnone⟩
    have hfate : ⟨e, none⟩ ∈ fates (start ds) (extensions ds) := by
      rw [List.mem_iff_getElem?]
      exact ⟨i, by rw [getElem?_fates, he, ← hnone]; rfl⟩
    exact List.mem_map.2 ⟨_, List.mem_filter.2 ⟨hfate, by simp⟩, rfl⟩

end ApiPages.Merge
