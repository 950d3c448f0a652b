import ApiPages.Proofs.Command.Delivery
import ApiPages.Proofs.Command.Hindrance

/-!
# Where runs change files

A run changes files only in its output folder, as long as the folder that pages go to is in it. So
it is for pages that go to the output folder itself, and for those that go to a folder in it by a
name without steps up. But the name of the module is followed as a path, whatever it is, and can
lead out of the output folder (`run_changesOnlyIn_iff`).
-/

namespace ApiPages

/-- Whether a path from a folder leads nowhere but into the folder. -/
structure Path.IsInner (path : String) : Prop where
  relative : isAbsolute path = false
  noStepUp : ".." ∉ steps path

namespace Workspace

open Command (IsModuleName ofArguments? settingsFile)

variable {w : Workspace} {ss : List String}

/-- Whether one workspace has the files of another one apart from those in the folder at a place:
no other file was made, changed or taken away. -/
def ChangesOnlyIn (w v : Workspace) (folder : Place) : Prop :=
  ∀ p, v.file? p ≠ w.file? p → IsIn folder p

/-! ## Ways into a folder -/

theorem prefix_stepsTo (h : ".." ∉ ss) (p : Place) : p <+: stepsTo p ss := by
  induction ss generalizing p with
  | nil => exact List.prefix_refl p
  | cons s ss ih =>
    rw [List.mem_cons, not_or] at h
    have hstep : p <+: stepTo p s := by
      rw [stepTo, if_neg (Ne.symm h.1)]
      split
      · exact List.prefix_refl p
      · exact List.prefix_append p [s]
    exact hstep.trans (ih h.2 _)

/-- A path without steps up leads into the folder that it begins in. -/
theorem prefix_place_join {path : String} (h : Path.IsInner path) (folder : String) :
    w.place folder <+: w.place (Path.join folder path) := by
  rw [place_join h.relative]
  exact prefix_stepsTo h.noStepUp _

/-! ## Pages and folders -/

/-- A page is in every folder around the one that it goes to. -/
theorem isIn_of_page {folder q : Place} {path : String} (hpath : Path.IsPage path)
    (h : folder <+: q) : IsIn folder (q ++ Path.steps path) := by
  refine ⟨h.trans (List.prefix_append _ _), fun heq => ?_⟩
  obtain ⟨folders, file, hsteps, -⟩ := hpath.ending
  have hlength := h.length_le
  rw [← heq, hsteps] at hlength
  simp at hlength

/-- The index is only in the folders around the one that it goes to. -/
theorem prefix_of_isIn_readme {folder q : Place} (h : IsIn folder (q ++ [readmePath])) :
    folder <+: q :=
  (List.prefix_concat_iff.1 h.1).resolve_left h.2.symm

/-! ## What a run changes -/

/-- **A run changes files only in its output folder if and only if its pages go there**, apart from
a page that stands already where it goes. Without the name of the module they do. With it, the name
is followed as a path from the output folder, so they do if it makes no step up. -/
theorem run_changesOnlyIn_iff (w : Workspace) (time : String) {arguments : List String}
    {o : GenerateOptions} (ho : ofArguments? arguments = some (.generate o))
    (hdone : (w.run time arguments).1.outcome.status = 0) :
    ∃ d, w.plan time o = .ok d ∧
      (w.ChangesOnlyIn (w.run time arguments).2 (w.place o.output) ↔
        ∀ e ∈ d.documents.entries, IsIn (w.place o.output) (w.place d.folder ++ Path.steps e.1) ∨
          w.file? (w.place d.folder ++ Path.steps e.1) = some e.2) ∧
      ((∀ e ∈ d.documents.entries, IsIn (w.place o.output) (w.place d.folder ++ Path.steps e.1)) ↔
        w.place o.output <+: w.place d.folder) ∧
      (o.includeModule = false → w.place o.output <+: w.place d.folder) ∧
      (o.includeModule = true → ∃ name,
        IsModuleName o (w.readFile (o.config.getD settingsFile)) (w.readFile o.input) name ∧
        d.folder = Path.join o.output name ∧
        (Path.IsInner name → w.place o.output <+: w.place d.folder)) := by
  obtain ⟨d, hplan, hafter⟩ := delivered_of_run ho hdone
  obtain ⟨hpages, -, hreadme⟩ := isPage_of_plan hplan
  refine ⟨d, hplan, ⟨fun h e he => ?_, fun h p hp => ?_⟩, ⟨fun h => ?_, fun h e he => ?_⟩,
    fun hmodule => ?_, fun hmodule => ?_⟩
  · -- a page that is there afterwards was there before, or is a change
    by_cases hsame : w.file? (w.place d.folder ++ Path.steps e.1) = some e.2
    · exact .inr hsame
    · refine .inl (h _ ?_)
      rw [hafter.documents e he]
      exact Ne.symm hsame
  · by_cases hdoc : ∃ e ∈ d.documents.entries, p = w.place d.folder ++ Path.steps e.1
    · obtain ⟨e, he, rfl⟩ := hdoc
      rcases h e he with hin | hsame
      · exact hin
      · rw [hafter.documents e he, hsame] at hp
        exact absurd rfl hp
    · -- any other change is one of the removal
      by_contra hout
      refine hp ?_
      rw [hafter.others p fun e he heq => hdoc ⟨e, he, heq⟩, file?_prepared hafter.removal hout]
  · obtain ⟨e, he, hpath⟩ := List.mem_map.1 hreadme
    have hsteps : Path.steps e.1 = [readmePath] := by rw [hpath]; rfl
    have hin := h e he
    rw [hsteps] at hin
    exact prefix_of_isIn_readme hin
  · exact isIn_of_page (hpages e he) h
  · have hfolder : w.place d.folder = w.place o.output := by
      rw [Command.folder_of_plan hmodule hplan]
    exact hfolder.symm ▸ List.prefix_refl _
  · obtain ⟨settings, text, inventory, hsettings, hinput, hread, hfolder, -⟩ :=
      Command.plan_eq_ok hplan
    obtain ⟨name, hname, -, hjoin⟩ := Command.outputFolder_eq_ok hfolder hmodule
    refine ⟨name, Command.isModuleName_of_settings hsettings hinput hread hname, hjoin,
      fun hinner => ?_⟩
    rw [hjoin]
    exact prefix_place_join hinner o.output

/-- A folder that is named for the module, in an output folder with pages of an earlier run. -/
theorem run_changesOnlyIn_moduleFolder :
    let inventory := "[\x7b\"kind\":\"class\",\"name\":\"A\",\"accessLevel\":\"public\"\x7d]"
    let w : Workspace :=
      ⟨.file "docs.json" inventory (.folder "docs" (.file "old.md" "" .empty) .empty), []⟩
    let arguments := ["generate", "--input=docs.json", "-rm", "--clean", "--module-name=Kit",
      "--output-folder=docs"]
    ∃ o, ofArguments? arguments = some (.generate o) ∧
      (w.run "" arguments).1.outcome.status = 0 ∧ ∃ d, w.plan "" o = .ok d ∧
      (w.ChangesOnlyIn (w.run "" arguments).2 (w.place o.output) ↔
        ∀ e ∈ d.documents.entries, IsIn (w.place o.output) (w.place d.folder ++ Path.steps e.1) ∨
          w.file? (w.place d.folder ++ Path.steps e.1) = some e.2) ∧
      ((∀ e ∈ d.documents.entries, IsIn (w.place o.output) (w.place d.folder ++ Path.steps e.1)) ↔
        w.place o.output <+: w.place d.folder) ∧
      (o.includeModule = false → w.place o.output <+: w.place d.folder) ∧
      (o.includeModule = true → ∃ name,
        IsModuleName o (w.readFile (o.config.getD settingsFile)) (w.readFile o.input) name ∧
        d.folder = Path.join o.output name ∧
        (Path.IsInner name → w.place o.output <+: w.place d.folder)) := by
  intro inventory w arguments
  let o : GenerateOptions := ⟨"docs.json", "docs", true, true, true, none,
    ⟨some "Kit", none, false, false, false, none, none⟩⟩
  have ho : ofArguments? arguments = some (.generate o) := by decide +kernel
  have hdone : (w.run "" arguments).1.outcome.status = 0 := by decide +kernel
  exact ⟨o, ho, hdone, run_changesOnlyIn_iff w "" ho hdone⟩

/-- The name of a module can lead out of the output folder. -/
theorem not_changesOnlyIn_of_stepUp :
    let w : Workspace := ⟨.file "docs.json" "[]" .empty, []⟩
    let arguments :=
      ["generate", "--input=docs.json", "-rm", "--module-name=../outside", "--output-folder=docs"]
    ∃ o, ofArguments? arguments = some (.generate o) ∧ Path.IsPlain o.output ∧
      (w.run "" arguments).1.outcome.status = 0 ∧
      ¬ w.ChangesOnlyIn (w.run "" arguments).2 (w.place o.output) := by
  intro w arguments
  let o : GenerateOptions := ⟨"docs.json", "docs", true, true, false, none,
    ⟨some "../outside", none, false, false, false, none, none⟩⟩
  have ho : ofArguments? arguments = some (.generate o) := by decide +kernel
  have hplain : Path.IsPlain o.output := ⟨by decide, by decide, by decide⟩
  have hdone : (w.run "" arguments).1.outcome.status = 0 := by decide +kernel
  have hmade : (w.run "" arguments).2.file? ["outside", "README.md"] ≠
      w.file? ["outside", "README.md"] := by decide +kernel
  have hout : ¬ w.place o.output <+: ["outside", "README.md"] := by decide +kernel
  exact ⟨o, ho, hplain, hdone, fun h => hout (h _ hmade).1⟩

end Workspace

end ApiPages
