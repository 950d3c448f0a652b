import ApiPages.Proofs.Merge.Kept

/-!
# What a merge keeps everywhere

Something that can be said of every declaration of some trees, does not look at members, and holds
of a declaration with an extension folded into it when it held of both, holds of every declaration
after a merge.
-/

namespace ApiPages

namespace Declaration

theorem mem_unionNames {n : String} {names more : List String} :
    n ∈ unionNames names more ↔ n ∈ names ∨ n ∈ more := by
  rw [unionNames_eq, List.mem_append, newNames, List.mem_eraseDups, List.mem_filter]
  by_cases hn : n ∈ names <;> simp [hn]

theorem everywhere_filter {P : Declaration → Prop} {ds : List Declaration} (h : Everywhere P ds)
    (p : Declaration → Bool) : Everywhere P (ds.filter p) := by
  rw [everywhere_iff_forall] at h ⊢
  intro d hd
  exact h d (List.mem_of_mem_filter hd)

end Declaration

namespace Merge

open Declaration (Everywhere everywhere_cons everywhere_append everywhere_nil)

variable {P : Declaration → Prop} {s : State} {d e : Declaration} {ds kept : List Declaration}

theorem everywhere_absorb (habsorb : ∀ d e, P d → P e → P (absorb d e))
    (he : P e ∧ Everywhere P e.members) (hd : P d ∧ Everywhere P d.members) :
    P (absorb d e) ∧ Everywhere P (absorb d e).members := by
  refine ⟨habsorb d e hd.1 he.1, ?_⟩
  rw [absorb_members, everywhere_append]
  exact ⟨hd.2, he.2⟩

theorem everywhere_keep (habsorb : ∀ d e, P d → P e → P (absorb d e))
    (he : P e ∧ Everywhere P e.members) (h : Everywhere P kept) : Everywhere P (keep e kept) := by
  induction kept with
  | nil => exact everywhere_cons.2 ⟨he.1, he.2, everywhere_nil⟩
  | cons d kept ih =>
    obtain ⟨hd, hm, hs⟩ := everywhere_cons.1 h
    rw [keep]
    split
    · have hboth := everywhere_absorb habsorb he ⟨hd, hm⟩
      exact everywhere_cons.2 ⟨hboth.1, hboth.2, hs⟩
    · exact everywhere_cons.2 ⟨hd, hm, ih hs⟩

theorem everywhere_fold (hmembers : ∀ d ms, P d → P { d with members := ms })
    (habsorb : ∀ d e, P d → P e → P (absorb d e)) (he : P e ∧ Everywhere P e.members)
    (h : Everywhere P (s.base ++ s.external)) :
    Everywhere P ((fold s e).base ++ (fold s e).external) := by
  rw [everywhere_append] at h ⊢
  obtain ⟨hbase, hexternal⟩ := h
  unfold fold
  split
  · exact ⟨hbase, everywhere_keep habsorb he hexternal⟩
  · split
    · exact ⟨hbase, hexternal⟩
    · refine ⟨?_, hexternal⟩
      exact Declaration.everywhere_modifyAt hmembers (fun d hd => everywhere_absorb habsorb he hd)
        _ hbase

theorem everywhere_foldl {es : List Declaration}
    (hmembers : ∀ d ms, P d → P { d with members := ms })
    (habsorb : ∀ d e, P d → P e → P (absorb d e)) (hes : Everywhere P es)
    (h : Everywhere P (s.base ++ s.external)) :
    Everywhere P ((es.foldl fold s).base ++ (es.foldl fold s).external) := by
  induction es generalizing s with
  | nil => exact h
  | cons e es ih =>
    obtain ⟨he, hm, hs⟩ := everywhere_cons.1 hes
    exact ih hs (everywhere_fold hmembers habsorb ⟨he, hm⟩ h)

/-- **What holds everywhere holds everywhere after a merge.** -/
theorem everywhere_mergeExtensions (hmembers : ∀ d ms, P d → P { d with members := ms })
    (habsorb : ∀ d e, P d → P e → P (absorb d e)) (h : Everywhere P ds) :
    Everywhere P (mergeExtensions ds) := by
  have hstart : Everywhere P ((start ds).base ++ (start ds).external) := by
    rw [everywhere_append]
    exact ⟨Declaration.everywhere_filter h _, everywhere_nil⟩
  have hext := Declaration.everywhere_filter h Declaration.isExtension
  exact everywhere_foldl hmembers habsorb hext hstart

end Merge

end ApiPages
