import ApiPages.Command.Path
import ApiPages.Proofs.Text.Pieces

/-!
# Steps of paths

The steps of a path that is put together from a folder and a path in it, or from names. Names with
slashes between have themselves as steps, so such a path can be read back (`steps_intercalate`).
-/

namespace ApiPages.Path

variable {folder path : String} {names : List String}

/-! ## A path in a folder -/

theorem steps_of_toList {x y z : String} (h : x.toList = y.toList ++ '/' :: z.toList) :
    steps x = steps y ++ steps z := by
  rw [steps, h, Text.pieces_append_cons, List.filter_append, List.map_append, steps, steps]

theorem steps_empty : steps "" = [] := rfl

/-- The steps in a folder come after those to it. -/
theorem steps_join (h : isAbsolute path = false) :
    steps (join folder path) = steps folder ++ steps path := by
  unfold join
  split
  · next hor =>
    -- a path that begins here, since the folder has no name
    have hfolder : folder = "" := by simpa [h] using hor
    rw [hfolder, steps_empty, List.nil_append]
  · split
    · next hlast =>
      obtain ⟨xs, hxs⟩ := List.getLast?_eq_some_iff.1 hlast
      have hfolder : steps folder = steps (String.ofList xs) := by
        rw [steps_of_toList (y := String.ofList xs) (z := "") (by simp [hxs]), steps_empty,
          List.append_nil]
      rw [hfolder]
      exact steps_of_toList (by simp [hxs])
    · exact steps_of_toList (by simp [String.toList_append])

theorem isAbsolute_join (h : isAbsolute path = false) :
    isAbsolute (join folder path) = isAbsolute folder := by
  unfold join
  split
  · next hor =>
    have hfolder : folder = "" := by simpa [h] using hor
    rw [h, hfolder]
    rfl
  · next hor =>
    have hne : folder.toList ≠ [] := by
      rw [not_or] at hor
      simpa using hor.2
    obtain ⟨c, cs, hcs⟩ := List.exists_cons_of_ne_nil hne
    split <;> simp [isAbsolute, hcs]

/-- A path in a folder may be given only if the folder's may. -/
theorem isUsable_of_join (h : isAbsolute path = false)
    (hjoin : isUsable (join folder path) = true) : isUsable folder = true := by
  have hsplit : ∃ rest : String, join folder path = folder ++ rest := by
    unfold join
    split
    · next hor =>
      have hfolder : folder = "" := by simpa [h] using hor
      exact ⟨path, by rw [hfolder, String.empty_append]⟩
    · split
      · exact ⟨path, rfl⟩
      · exact ⟨"/" ++ path, String.append_assoc⟩
  obtain ⟨rest, hrest⟩ := hsplit
  rw [hrest] at hjoin
  simp only [isUsable, hasNull, String.utf8ByteSize_append, String.toList_append,
    Bool.and_eq_true, decide_eq_true_eq, Bool.not_eq_true'] at hjoin ⊢
  refine ⟨by omega, ?_⟩
  have hnull := hjoin.2
  rw [List.contains_eq_mem, decide_eq_false_iff_not, List.mem_append, not_or] at hnull
  rw [List.contains_eq_mem, decide_eq_false_iff_not]
  exact hnull.1

/-! ## A path of names -/

/-- Whether a path is made of names and begins where commands run. -/
structure IsPlain (path : String) : Prop where
  relative : isAbsolute path = false
  nonempty : steps path ≠ []
  names : ∀ s ∈ steps path, isDots s = false

theorem IsPlain.ne_empty (h : IsPlain path) : path ≠ "" := by
  rintro rfl
  exact h.nonempty steps_empty

/-- Whether a step is a name that a file or a folder can have. -/
structure IsName (step : String) : Prop where
  nonempty : step ≠ ""
  noSlash : '/' ∉ step.toList
  noDots : isDots step = false

/-- **Names with slashes between are the steps of their path.** -/
theorem steps_intercalate (h : ∀ n ∈ names, IsName n) : steps ("/".intercalate names) = names := by
  cases names with
  | nil => rfl
  | cons n ns =>
    have hlist : ("/".intercalate (n :: ns)).toList =
        Text.joinPieces '/' ((n :: ns).map String.toList) := Text.toList_intercalate '/' (n :: ns)
    have hpieces : Text.pieces '/' ("/".intercalate (n :: ns)).toList =
        (n :: ns).map String.toList := by
      rw [hlist]
      refine Text.pieces_joinPieces ?_ (by simp)
      intro piece hpiece
      obtain ⟨m, hm, rfl⟩ := List.mem_map.1 hpiece
      exact (h m hm).noSlash
    have hfilter : ((n :: ns).map String.toList).filter (fun s => !s.isEmpty) =
        (n :: ns).map String.toList := by
      rw [List.filter_eq_self]
      intro piece hpiece
      obtain ⟨m, hm, rfl⟩ := List.mem_map.1 hpiece
      have hne := (h m hm).nonempty
      simpa using hne
    rw [steps, hpieces, hfilter, List.map_map]
    simp

end ApiPages.Path
