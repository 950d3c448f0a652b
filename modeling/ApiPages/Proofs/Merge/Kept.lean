import ApiPages.Declaration.Merge
import ApiPages.Proofs.Declaration.Position
import Mathlib.Data.List.Induction

/-!
# The extensions that are kept

Extensions without a target are kept one for each name: the first of a name takes in those of the
same name that come after it.
-/

namespace ApiPages.Declaration

/-- The names that a list adds to another one, each once, in the order of their first appearance. -/
def newNames (names more : List String) : List String :=
  (more.filter fun n => n ∉ names).eraseDups

theorem unionNames_eq (names more : List String) :
    unionNames names more = names ++ newNames names more := by
  induction more generalizing names with
  | nil => simp [unionNames, newNames]
  | cons n more ih =>
    rw [unionNames, ih]
    by_cases hn : n ∈ names
    · simp [newNames, hn]
    · have hfilter : (more.filter fun m => m ∉ names ++ [n])
          = (more.filter fun m => m ∉ names).filter fun m => !m == n := by
        rw [List.filter_filter]
        refine List.filter_congr fun m _ => ?_
        by_cases hm : m = n <;> simp [hm]
      simp only [if_neg hn, newNames, hfilter]
      rw [List.filter_cons_of_pos (by simpa using hn), List.eraseDups_cons]
      simp

theorem unionNames_append (names xs ys : List String) :
    unionNames names (xs ++ ys) = unionNames (unionNames names xs) ys := by
  induction xs generalizing names with
  | nil => rfl
  | cons x xs ih => rw [List.cons_append, unionNames, ih, unionNames]

end ApiPages.Declaration

namespace ApiPages.Merge

open Declaration (Adds newNames unionNames innerNodes nodesAll head)

variable {e d : Declaration} {es kept : List Declaration}

@[simp] theorem absorb_head (d e : Declaration) : (absorb d e).head = d.head := rfl

@[simp] theorem absorb_members (d e : Declaration) :
    (absorb d e).members = d.members ++ e.members := rfl

@[simp] theorem absorb_inheritance (d e : Declaration) :
    (absorb d e).inheritance = unionNames d.inheritance e.inheritance := rfl

theorem adds_absorb (e : Declaration) : Adds (absorb · e) e.members :=
  fun _ => ⟨rfl, rfl⟩

/-! ## One more extension -/

theorem map_name_keep (e : Declaration) (kept : List Declaration) :
    (keep e kept).map (·.name) =
      if e.name ∈ kept.map (·.name) then kept.map (·.name)
      else kept.map (·.name) ++ [e.name] := by
  induction kept with
  | nil => simp [keep]
  | cons d kept ih =>
    rw [keep]
    by_cases hd : d.name = e.name
    · have hname : (absorb d e).name = d.name := rfl
      simp [hd, hname]
    · rw [if_neg hd, List.map_cons, ih]
      by_cases hmem : e.name ∈ kept.map (·.name) <;> simp [hmem, Ne.symm hd]

theorem keep_of_not_mem (h : e.name ∉ kept.map (·.name)) : keep e kept = kept ++ [e] := by
  induction kept with
  | nil => rfl
  | cons d kept ih =>
    rw [List.map_cons, List.mem_cons, not_or] at h
    rw [keep, if_neg (Ne.symm h.1), ih h.2, List.cons_append]

theorem nodup_keep (h : (kept.map (·.name)).Nodup) (e : Declaration) :
    ((keep e kept).map (·.name)).Nodup := by
  rw [map_name_keep]
  split
  · exact h
  · next hmem =>
      rw [List.nodup_append]
      refine ⟨h, List.nodup_singleton _, ?_⟩
      intro a ha b hb hab
      rw [List.mem_singleton] at hb
      subst hb hab
      exact hmem ha

/-- Only what is kept under the name of the extension changes. -/
theorem filter_keep (e : Declaration) (kept : List Declaration) (n : String) :
    (keep e kept).filter (fun d => d.name = n) =
      if e.name = n then keep e (kept.filter fun d => d.name = n)
      else kept.filter fun d => d.name = n := by
  induction kept with
  | nil => by_cases hn : e.name = n <;> simp [keep, hn]
  | cons d kept ih =>
    have hname : (absorb d e).name = d.name := rfl
    rw [keep]
    by_cases hd : d.name = e.name
    · by_cases hn : e.name = n
      · simp [hd, hname, hn, keep]
      · simp [hd, hname, hn]
    · by_cases hn : e.name = n
      · -- the name asked for is that of the extension, so it is not this one
        have hdn : d.name ≠ n := fun h => hd (h.trans hn.symm)
        rw [if_neg hd, List.filter_cons_of_neg (by simpa using hdn), ih, if_pos hn, if_pos hn,
          List.filter_cons_of_neg (by simpa using hdn)]
      · rw [if_neg hd, if_neg hn, List.filter_cons, List.filter_cons, ih, if_neg hn]

theorem length_keep_le (e : Declaration) (kept : List Declaration) :
    (keep e kept).length ≤ kept.length + 1 := by
  induction kept with
  | nil => simp [keep]
  | cons d kept ih =>
    rw [keep]
    split
    · simp
    · simpa using ih

theorem innerNodes_keep_perm (e : Declaration) (kept : List Declaration) :
    ((innerNodes (keep e kept)).map head).Perm
      ((innerNodes kept).map head ++ (nodesAll e.members).map head) := by
  induction kept with
  | nil => simp [keep, innerNodes]
  | cons d kept ih =>
    rw [keep]
    split
    · -- the members of the extension go before those of what is kept after it
      simp only [innerNodes, List.flatMap_cons, absorb_members, Declaration.nodesAll_append,
        List.map_append, List.append_assoc]
      exact List.perm_append_comm.append_left _
    · simp only [innerNodes, List.flatMap_cons, List.map_append, List.append_assoc]
      exact ih.append_left _

/-! ## All of them -/

/-- Extensions combined into the first of them. -/
def combined (e : Declaration) (es : List Declaration) : Declaration :=
  es.foldl absorb e

theorem combined_head (e : Declaration) (es : List Declaration) :
    (combined e es).head = e.head := by
  induction es generalizing e with
  | nil => rfl
  | cons x es ih => exact (ih (absorb e x)).trans (absorb_head e x)

theorem combined_members (e : Declaration) (es : List Declaration) :
    (combined e es).members = (e :: es).flatMap (·.members) := by
  induction es generalizing e with
  | nil => simp [combined]
  | cons x es ih =>
    rw [combined, List.foldl_cons, ← combined, ih, List.flatMap_cons, absorb_members]
    simp

theorem combined_inheritance (e : Declaration) (es : List Declaration) :
    (combined e es).inheritance =
      e.inheritance ++ newNames e.inheritance (es.flatMap (·.inheritance)) := by
  rw [← Declaration.unionNames_eq]
  induction es generalizing e with
  | nil => rfl
  | cons x es ih =>
    rw [combined, List.foldl_cons, ← combined, ih, absorb_inheritance, List.flatMap_cons,
      Declaration.unionNames_append]

/-- What is kept of some extensions, one after another. -/
def keepAll (es : List Declaration) : List Declaration :=
  es.foldl (fun kept e => keep e kept) []

theorem keepAll_append_singleton (es : List Declaration) (e : Declaration) :
    keepAll (es ++ [e]) = keep e (keepAll es) := by
  simp [keepAll]

/-- Extensions of different names are kept as they are. -/
theorem keepAll_of_nodup (h : (es.map (·.name)).Nodup) : keepAll es = es := by
  induction es using List.reverseRecOn with
  | nil => rfl
  | append_singleton es e ih =>
    rw [List.map_append, List.nodup_append] at h
    obtain ⟨hnodup, -, hdisjoint⟩ := h
    rw [keepAll_append_singleton, ih hnodup]
    refine keep_of_not_mem fun hmem => ?_
    exact hdisjoint _ hmem _ (by simp) rfl

theorem nodup_keepAll (es : List Declaration) : ((keepAll es).map (·.name)).Nodup := by
  induction es using List.reverseRecOn with
  | nil => exact List.nodup_nil
  | append_singleton es e ih =>
    rw [keepAll_append_singleton]
    exact nodup_keep ih e

/-- The names that are kept are those of the extensions, in the order of their first appearance. -/
theorem map_name_keepAll (es : List Declaration) :
    (keepAll es).map (·.name) = (es.map (·.name)).eraseDups := by
  induction es using List.reverseRecOn with
  | nil => rfl
  | append_singleton es e ih =>
    rw [keepAll_append_singleton, map_name_keep, ih, List.map_append, List.eraseDups_append,
      List.map_singleton, List.removeAll]
    by_cases hmem : e.name ∈ es.map (·.name)
    · rw [if_pos (List.mem_eraseDups.2 hmem), List.filter_cons_of_neg (by simpa using hmem)]
      simp
    · rw [if_neg (fun h => hmem (List.mem_eraseDups.1 h)),
        List.filter_cons_of_pos (by simpa using hmem)]
      rfl

theorem length_keepAll_le (es : List Declaration) : (keepAll es).length ≤ es.length := by
  induction es using List.reverseRecOn with
  | nil => simp [keepAll]
  | append_singleton es e ih =>
    rw [keepAll_append_singleton, List.length_append]
    have hle := length_keep_le e (keepAll es)
    simp only [List.length_singleton]
    omega

/-- What is kept of extensions of one name: all of them, combined into the first. -/
def combineAll : List Declaration → List Declaration
  | [] => []
  | e :: es => [combined e es]

theorem combineAll_append_singleton {es : List Declaration} {e : Declaration}
    (h : ∀ x ∈ es, x.name = e.name) : combineAll (es ++ [e]) = keep e (combineAll es) := by
  cases es with
  | nil => rfl
  | cons x xs =>
    have hname : (combined x xs).name = x.name := Declaration.name_eq_of_head (combined_head x xs)
    have hx : x.name = e.name := h x List.mem_cons_self
    simp only [List.cons_append, combineAll, keep]
    rw [if_pos (hname.trans hx), combined, combined, List.foldl_append]
    rfl

/-- **What is kept under a name** are all the extensions of the name, combined into the first. -/
theorem filter_keepAll (es : List Declaration) (n : String) :
    (keepAll es).filter (fun d => d.name = n) = combineAll (es.filter fun d => d.name = n) := by
  induction es using List.reverseRecOn with
  | nil => rfl
  | append_singleton es e ih =>
    rw [keepAll_append_singleton, filter_keep, ih, List.filter_append]
    by_cases hn : e.name = n
    · rw [if_pos hn, List.filter_cons_of_pos (by simpa using hn), List.filter_nil,
        combineAll_append_singleton]
      intro x hx
      rw [List.mem_filter] at hx
      exact (of_decide_eq_true hx.2).trans hn.symm
    · rw [if_neg hn, List.filter_cons_of_neg (by simpa using hn), List.filter_nil, List.append_nil]

theorem mem_keepAll (h : d ∈ keepAll es) :
    ∃ x xs, es.filter (fun e => e.name = d.name) = x :: xs ∧ d = combined x xs := by
  have hd : d ∈ (keepAll es).filter fun e => e.name = d.name := List.mem_filter.2 ⟨h, by simp⟩
  rw [filter_keepAll] at hd
  cases hf : es.filter fun e => e.name = d.name with
  | nil => simp [hf, combineAll] at hd
  | cons x xs =>
    rw [hf, combineAll, List.mem_singleton] at hd
    exact ⟨x, xs, rfl, hd⟩

end ApiPages.Merge
