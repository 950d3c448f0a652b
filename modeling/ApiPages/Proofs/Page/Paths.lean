import ApiPages.Page.Path
import ApiPages.Proofs.Catalog.Group
import ApiPages.Proofs.Text.FileName
import Mathlib.Data.List.Basic

/-!
# Paths of documents

A category that is a document, and a page that is one, has a path that no other has and that is not
the path of the index: the name of a page can be read off its file name (`fileName_reversible`).
-/

namespace ApiPages

/-! ## Categories -/

theorem Category.path_inj {c d : Category} (h : c.path = d.path) : c = d := by
  have hall : ∀ c ∈ Category.all, ∀ d ∈ Category.all, c.path = d.path → c = d := by decide
  exact hall c (mem_all c) d (mem_all d) h

theorem Category.path_ne_readmePath (c : Category) : c.path ≠ readmePath := by
  cases c <;> decide

/-! ## Pages -/

theorem Category.folder_inj {c d : Category} (h : c.folder = d.folder) : c = d := by
  have hall : ∀ c ∈ Category.all, ∀ d ∈ Category.all, c.folder = d.folder → c = d := by decide
  exact hall c (mem_all c) d (mem_all d) h

theorem Category.slash_not_mem_folder (c : Category) : '/' ∉ c.folder.toList := by
  cases c <;> decide

/-- The path of a page is a folder and, after the only separator, a file. -/
theorem toList_pagePath (c : Category) (n : String) :
    (pagePath c n false).toList =
      c.folder.toList ++ '/' :: (Text.fileName n.toList ++ ".md".toList) := by
  rw [pagePath, if_neg (by simp)]
  simp [List.append_assoc]

theorem slash_not_mem_file (n : String) : '/' ∉ Text.fileName n.toList ++ ".md".toList := by
  rw [List.mem_append, not_or]
  exact ⟨Text.separator_not_mem_fileName (.inl rfl) _, by decide⟩

/-- **Pages of different declarations of the catalog have different paths.** -/
theorem pagePath_inj {c d : Category} {m n : String} (h : pagePath c m false = pagePath d n false) :
    c = d ∧ m = n := by
  have hlist := congrArg String.toList h
  rw [toList_pagePath, toList_pagePath,
    List.append_cons_inj_of_notMem c.slash_not_mem_folder (slash_not_mem_file m)] at hlist
  obtain ⟨hfolder, -, hfile⟩ := hlist
  have hname := Text.fileName_inj (List.append_cancel_right hfile)
  exact ⟨Category.folder_inj (String.toList_inj.1 hfolder), String.toList_inj.1 hname⟩

/-- The index is in no folder. -/
theorem pagePath_ne_readmePath (c : Category) (n : String) : pagePath c n false ≠ readmePath := by
  intro h
  have hslash : '/' ∈ (pagePath c n false).toList := by
    rw [toList_pagePath]
    simp
  rw [h] at hslash
  exact absurd hslash (by decide)

/-- **File names are a reversible escape.** They have no separators, every `%` in them begins an
escape, and with the escapes read they are the names. So a page's path tells its category and its
name, and in neither layout of pages is it the path of the index. -/
theorem fileName_reversible :
    (∀ name : List Char, '/' ∉ Text.fileName name ∧ '\\' ∉ Text.fileName name ∧
      Text.ofFileName (Text.fileName name) = name ∧
      ∀ before after, Text.fileName name = before ++ '%' :: after →
        ∃ escape ∈ Text.fileNameEscapes, escape <+: '%' :: after) ∧
    (∀ c d m n, pagePath c m false = pagePath d n false ↔ c = d ∧ m = n) ∧
    ∀ c n collapse, pagePath c n collapse ≠ readmePath := by
  refine ⟨fun name => ⟨?_, ?_, ?_, ?_⟩, fun c d m n => ⟨pagePath_inj, ?_⟩, fun c n collapse => ?_⟩
  · exact Text.separator_not_mem_fileName (.inl rfl) name
  · exact Text.separator_not_mem_fileName (.inr rfl) name
  · exact Text.ofFileName_fileName name
  · exact fun before after h => Text.escape_of_percent h
  · rintro ⟨rfl, rfl⟩
    rfl
  · cases collapse with
    | false => exact pagePath_ne_readmePath c n
    | true => exact c.path_ne_readmePath

/-- A name that looks like an escape already is not the name with that escape read. -/
theorem fileName_of_escape :
    Text.fileName "%2F".toList = [] ++ '%' :: "252F".toList ∧
    (∃ escape ∈ Text.fileNameEscapes, escape <+: '%' :: "252F".toList) ∧
    pagePath .methods "%2F" false ≠ pagePath .methods "/" false := by
  obtain ⟨hnames, hpaths, -⟩ := fileName_reversible
  have hname : Text.fileName "%2F".toList = [] ++ '%' :: "252F".toList := by decide
  obtain ⟨-, -, -, hpercent⟩ := hnames "%2F".toList
  refine ⟨hname, hpercent [] _ hname, fun h => ?_⟩
  exact absurd ((hpaths _ _ _ _).1 h).2 (by decide)

end ApiPages
