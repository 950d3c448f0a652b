import ApiPages.Proofs.Command.Paths
import ApiPages.Proofs.Command.Places
import ApiPages.Proofs.Documents.Pages

/-!
# Places of pages

Where the documents of a set of pages go in a folder: each below it, by names alone, and no two to
one place. A page's file name ends in `.md`, so none takes the place of a settings file.
-/

namespace ApiPages

namespace Path

/-- Whether a path leads to a document from the folder of all pages: by names, with slashes between,
the last of which ends in `.md`. -/
structure IsPage (path : String) : Prop where
  relative : isAbsolute path = false
  names : ∀ n ∈ steps path, isDots n = false
  /-- The steps give the path back. -/
  joined : "/".intercalate (steps path) = path
  ending : ∃ folders file, steps path = folders ++ [file] ∧ ".md".toList <:+ file.toList

/-- A file of pages is no step of dots. -/
theorem isName_of_ending {n : String} (hslash : '/' ∉ n.toList)
    (hending : ".md".toList <:+ n.toList) : IsName n := by
  obtain ⟨cs, hcs⟩ := hending
  refine ⟨?_, hslash, not_isDots_iff.2 ⟨?_, ?_⟩⟩
  all_goals
    rintro rfl
    have hlast := congrArg List.getLast? hcs
    simp at hlast

theorem isAbsolute_intercalate {names : List String} (h : ∀ n ∈ names, IsName n) :
    isAbsolute ("/".intercalate names) = false := by
  have hlist : ("/".intercalate names).toList = Text.joinPieces '/' (names.map String.toList) :=
    Text.toList_intercalate '/' names
  rw [isAbsolute, decide_eq_false_iff_not, hlist]
  cases names with
  | nil => decide
  | cons n ns =>
    obtain ⟨hne, hslash, -⟩ := h n List.mem_cons_self
    have hhead : ∃ c cs, n.toList = c :: cs ∧ c ≠ '/' := by
      obtain ⟨c, cs, hcs⟩ := List.exists_cons_of_ne_nil (by simpa using hne : n.toList ≠ [])
      refine ⟨c, cs, hcs, ?_⟩
      rintro rfl
      simp [hcs] at hslash
    obtain ⟨c, cs, hcs, hc⟩ := hhead
    cases ns with
    | nil => simpa [Text.joinPieces, hcs] using hc
    | cons m ms => simpa [Text.joinPieces, hcs] using hc

theorem isPage_intercalate {folders : List String} {file : String}
    (h : ∀ n ∈ folders ++ [file], IsName n) (hending : ".md".toList <:+ file.toList) :
    IsPage ("/".intercalate (folders ++ [file])) := by
  have hsteps := steps_intercalate h
  refine ⟨isAbsolute_intercalate h, ?_, by rw [hsteps], ⟨folders, file, hsteps, hending⟩⟩
  rw [hsteps]
  exact fun n hn => (h n hn).noDots

theorem isPage_of_file {file : String} (hslash : '/' ∉ file.toList)
    (hending : ".md".toList <:+ file.toList) : IsPage file := by
  have h : IsPage ("/".intercalate ([] ++ [file])) :=
    isPage_intercalate (by simpa using isName_of_ending hslash hending) hending
  simpa using h

theorem isPage_pagePath (c : Category) (n : String) (collapse : Bool) :
    IsPage (pagePath c n collapse) := by
  cases collapse with
  | true =>
    have hpath : (pagePath c n true).toList = c.folder.toList ++ ".md".toList := by
      simp [pagePath, Category.path]
    refine isPage_of_file ?_ ⟨c.folder.toList, hpath.symm⟩
    rw [hpath, List.mem_append, not_or]
    exact ⟨c.slash_not_mem_folder, by decide⟩
  | false =>
    have hfolder : IsName c.folder := by
      cases c <;> exact ⟨by decide, by decide, by decide⟩
    have hpath : pagePath c n false =
        "/".intercalate ([c.folder] ++ [String.ofList (Text.fileName n.toList) ++ ".md"]) := by
      simp [pagePath, String.append_assoc]
    have hending : ".md".toList <:+ (String.ofList (Text.fileName n.toList) ++ ".md").toList := by
      rw [String.toList_append]
      exact List.suffix_append _ _
    have hslash : '/' ∉ (String.ofList (Text.fileName n.toList) ++ ".md").toList := by
      rw [String.toList_append, String.toList_ofList]
      exact slash_not_mem_file n
    rw [hpath]
    refine isPage_intercalate (fun m hm => ?_) hending
    rcases List.mem_append.1 hm with hm | hm
    · rwa [List.mem_singleton.1 hm]
    · rw [List.mem_singleton.1 hm]
      exact isName_of_ending hslash hending

theorem isPage_readmePath : IsPage readmePath :=
  isPage_of_file (by decide) ⟨"README".toList, by decide⟩

end Path

variable {settings : Settings} {time : Option String} {ds : List Declaration} {docs : Documents}

/-- The documents of declarations have paths of pages, and no path twice. -/
theorem Documents.isPage_of_generate (h : generate settings time ds = .ok docs) :
    (∀ d ∈ docs.entries, Path.IsPage d.1) ∧ docs.paths.Nodup ∧ readmePath ∈ docs.paths := by
  have hds : Declaration.checkStructure ds = .ok () := by
    unfold generate at h
    split at h
    · cases h
    · next heq => exact heq
  obtain ⟨docs', hdocs, hpaths⟩ := generate_paths settings time hds
  obtain rfl := Except.ok.inj (h.symm.trans hdocs)
  refine ⟨fun d hd => ?_, ?_, (hpaths _).2 (.inl rfl)⟩
  · rcases (hpaths d.1).1 (List.mem_map_of_mem hd) with hd | ⟨p, hp, hd⟩
    · rw [hd]
      exact Path.isPage_readmePath
    · rw [← hd, path_of_mem_pages hp]
      exact Path.isPage_pagePath _ _ _
  · obtain rfl := Except.ok.inj (h.symm.trans (generate_eq_stamp time hds))
    rw [paths_stamp]
    exact (ordered_ofList _).nodup

namespace Workspace

variable {w : Workspace} {folder path : String}

/-- A path in a folder leads on from the folder's place. -/
theorem place_join (h : Path.isAbsolute path = false) :
    w.place (Path.join folder path) = stepsTo (w.place folder) (Path.steps path) := by
  rw [place, Path.steps_join h, stepsTo_append, place, origin, Path.isAbsolute_join h, origin]

/-- A page is below the folder, at the steps of its path. -/
theorem place_page (h : Path.IsPage path) :
    w.place (Path.join folder path) = w.place folder ++ Path.steps path := by
  rw [place_join h.relative, stepsTo_of_names h.names]

/-- No two documents go to one place. -/
theorem nodup_places {docs : List (String × String)} (hpages : ∀ d ∈ docs, Path.IsPage d.1)
    (hpaths : (docs.map (·.1)).Nodup) :
    (docs.map fun d => w.place (Path.join folder d.1)).Nodup := by
  have hplaces : (docs.map fun d => w.place (Path.join folder d.1)) =
      (docs.map (·.1)).map fun path => w.place (Path.join folder path) := by
    rw [List.map_map]
    rfl
  rw [hplaces]
  refine hpaths.map_on ?_
  intro x hx y hy heq
  obtain ⟨d, hd, rfl⟩ := List.mem_map.1 hx
  obtain ⟨e, he, rfl⟩ := List.mem_map.1 hy
  rw [place_page (hpages d hd), place_page (hpages e he)] at heq
  rw [← (hpages d hd).joined, List.append_cancel_left heq, (hpages e he).joined]

end Workspace

end ApiPages
