import ApiPages.Proofs.Documents.Lookup
import ApiPages.Proofs.Text.Ordered
import Mathlib.Data.List.Perm.Basic

/-!
# The order of documents

Documents are ordered by their paths, so which documents there are says everything: it does not
matter in which order they were put in.
-/

namespace ApiPages

/-- Under distinct keys an entry is found if it is there. -/
theorem lookup_eq_some_iff {α β : Type} [BEq α] [LawfulBEq α] {es : List (α × β)}
    (h : (es.map (·.1)).Nodup) {k : α} {v : β} : es.lookup k = some v ↔ (k, v) ∈ es := by
  induction es with
  | nil => simp
  | cons e es ih =>
    rw [List.map_cons, List.nodup_cons] at h
    rw [List.lookup_cons, List.mem_cons]
    by_cases hk : k = e.1
    · -- no other entry has the key
      subst hk
      have hnot : (e.1, v) ∉ es := fun hmem => h.1 (List.mem_map.2 ⟨_, hmem, rfl⟩)
      simp [hnot, Prod.ext_iff, eq_comm]
    · have hne : (k == e.1) = false := by simpa using hk
      have hother : (k, v) ≠ e := fun he => hk (congrArg Prod.fst he)
      simp [hne, hother, ih h.2]

namespace Documents

variable {docs : Documents} {es fs : List (String × String)}

theorem place_eq_placeBy (path content : String) (es : List (String × String)) :
    place path content es = Text.placeBy (·.1) (path, content) es := by
  induction es with
  | nil => rfl
  | cons e es ih => rw [place, Text.placeBy, ih]

/-- Documents are put together in the order of their paths. -/
theorem ordered_ofList (es : List (String × String)) : Text.Ordered (·.1) (ofList es).entries := by
  induction es using List.reverseRecOn with
  | nil => exact .nil
  | append_singleton es e ih =>
    rw [ofList, List.foldl_append, ← ofList]
    show Text.Ordered (·.1) (place e.1 e.2 (ofList es).entries)
    rw [place_eq_placeBy]
    exact ih.placeBy e

theorem mem_ofList (h : (es.map (·.1)).Nodup) {e : String × String} :
    e ∈ (ofList es).entries ↔ e ∈ es := by
  obtain ⟨path, content⟩ := e
  rw [← lookup_eq_some_iff (ordered_ofList es).nodup, ← get?, get?_ofList h, lookup_eq_some_iff h]

/-- Documents at different paths are all there, each once. -/
theorem perm_ofList (h : (es.map (·.1)).Nodup) : (ofList es).entries.Perm es :=
  (List.perm_ext_iff_of_nodup (ordered_ofList es).nodup.of_map h.of_map).2 fun _ => mem_ofList h

/-- **Documents at different paths can be put in in any order.** -/
theorem ofList_eq_of_perm (h : (es.map (·.1)).Nodup) (hperm : es.Perm fs) :
    ofList es = ofList fs := by
  have hfs : (fs.map (·.1)).Nodup := (hperm.map _).nodup_iff.1 h
  have hentries : (ofList es).entries = (ofList fs).entries := by
    refine (ordered_ofList es).eq_of_mem_iff (ordered_ofList fs) fun e => ?_
    rw [mem_ofList h, mem_ofList hfs, hperm.mem_iff]
  exact congrArg Documents.mk hentries

theorem ofList_append_singleton (es : List (String × String)) (e : String × String) :
    ofList (es ++ [e]) = (ofList es).insert e.1 e.2 := by
  simp [ofList]

end Documents

end ApiPages
