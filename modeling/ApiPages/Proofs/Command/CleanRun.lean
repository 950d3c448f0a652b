import ApiPages.Proofs.Command.Delivery

/-!
# Runs that clean up first

A run that removes the output folder before it writes leaves in it the documents of the inventory
and nothing else, whatever was there before (`run_clean`).
-/

namespace ApiPages.Workspace

open Command (ofArguments? settingsFile settingsFrom)

/-- Whether the files in the folder at a place are documents, each at its path from there. -/
structure HoldsExactly (w : Workspace) (p : Place) (docs : Documents) : Prop where
  files : ∀ q content, w.file? (p ++ q) = some content ↔
    ∃ path, (path, content) ∈ docs.entries ∧ Path.steps path = q
  /-- The steps give the path back, so no two documents are one file. -/
  joined : ∀ path ∈ docs.paths, "/".intercalate (Path.steps path) = path

/-- **A run that cleans up first leaves exactly the documents of its inventory** in the output
folder, and every file elsewhere as it was. -/
theorem run_clean (w : Workspace) (time : String) {arguments : List String} {o : GenerateOptions}
    (ho : ofArguments? arguments = some (.generate o)) (hclean : o.clean = true)
    (hreproducible : o.reproducible = true) (hmodule : o.includeModule = false)
    (hplain : Path.IsPlain o.output) (hdone : (w.run time arguments).1.outcome.status = 0) :
    ∃ settings text docs,
      settingsFrom o.config (w.readFile (o.config.getD settingsFile)) = .ok settings ∧
      w.readFile o.input = .content text ∧
      Documents.ofText (o.overrides.apply settings) none text = .ok docs ∧
      (w.run time arguments).2.HoldsExactly (w.place o.output) docs ∧
      ∀ p, ¬ w.place o.output <+: p → (w.run time arguments).2.file? p = w.file? p := by
  obtain ⟨d, hplan, hafter⟩ := delivered_of_run ho hdone
  obtain ⟨settings, text, hsettings, hinput, hdocs⟩ := Command.ofText_of_plan hreproducible hplan
  have hfolder : d.folder = o.output := Command.folder_of_plan hmodule hplan
  obtain ⟨hpages, -, -⟩ := isPage_of_plan hplan
  have hprepared : w.prepared o = w.removeFolder o.output := by rw [prepared, if_pos hclean]
  refine ⟨settings, text, d.documents, hsettings, hinput, hdocs, ⟨fun q content => ?_, ?_⟩, ?_⟩
  · constructor
    · intro h
      by_cases hdoc : ∃ e ∈ d.documents.entries, Path.steps e.1 = q
      · obtain ⟨e, he, rfl⟩ := hdoc
        have hcontent := hafter.documents e he
        rw [hfolder, h] at hcontent
        exact ⟨e.1, by rwa [Option.some.inj hcontent], rfl⟩
      · -- what is no document was removed with the folder
        have hother : ∀ e ∈ d.documents.entries,
            w.place o.output ++ q ≠ w.place d.folder ++ Path.steps e.1 := by
          intro e he heq
          rw [hfolder] at heq
          exact hdoc ⟨e, he, (List.append_cancel_left heq).symm⟩
        have husable : Path.isUsable o.output = true := hfolder ▸ hafter.usable
        have hfinds : w.Finds o.output :=
          hafter.finds hplain husable (hfolder ▸ List.prefix_refl _)
        have hremoval := hafter.removal
        rw [hafter.others _ hother] at h
        rw [hprepared] at h hremoval
        rw [file?_removeFolder_of_finds hremoval hfinds (List.prefix_append _ q)] at h
        cases h
    · rintro ⟨path, hmem, rfl⟩
      rw [← hfolder]
      exact hafter.documents (path, content) hmem
  · intro path hpath
    obtain ⟨e, he, rfl⟩ := List.mem_map.1 hpath
    exact (hpages e he).joined
  · intro p hp
    have hother : ∀ e ∈ d.documents.entries, p ≠ w.place d.folder ++ Path.steps e.1 := by
      rintro e - rfl
      rw [hfolder] at hp
      exact hp (List.prefix_append _ _)
    rw [hafter.others p hother, file?_prepared hafter.removal fun h => hp h.1]

/-- A page of an earlier run and a folder at the place of a page are gone, and a file beside the
output folder stays. -/
theorem run_clean_over_pages :
    let inventory := "[\x7b\"kind\":\"class\",\"name\":\"A\",\"accessLevel\":\"public\"\x7d]"
    let pages := Listing.folder "README.md" (.file "old.md" "" .empty) (.file "old.md" "" .empty)
    let w : Workspace :=
      ⟨.file "docs.json" inventory (.folder "docs" pages (.file "notes.md" "" .empty)), []⟩
    let arguments := ["generate", "--input=docs.json", "-r", "--clean", "--output-folder=docs"]
    ∃ o, (ofArguments? arguments = some (.generate o) ∧ o.clean = true ∧ o.reproducible = true ∧
      o.includeModule = false ∧ Path.IsPlain o.output ∧ (w.run "" arguments).1.outcome.status = 0) ∧
      ∃ settings text docs,
        settingsFrom o.config (w.readFile (o.config.getD settingsFile)) = .ok settings ∧
        w.readFile o.input = .content text ∧
        Documents.ofText (o.overrides.apply settings) none text = .ok docs ∧
        (w.run "" arguments).2.HoldsExactly (w.place o.output) docs ∧
        ∀ p, ¬ w.place o.output <+: p → (w.run "" arguments).2.file? p = w.file? p := by
  intro inventory pages w arguments
  let o : GenerateOptions := ⟨"docs.json", "docs", false, true, true, none,
    ⟨none, none, false, false, false, none, none⟩⟩
  have ho : ofArguments? arguments = some (.generate o) := by decide +kernel
  have hplain : Path.IsPlain o.output := ⟨by decide, by decide, by decide⟩
  have hdone : (w.run "" arguments).1.outcome.status = 0 := by decide +kernel
  exact ⟨o, ⟨ho, rfl, rfl, rfl, hplain, hdone⟩, run_clean w "" ho rfl rfl rfl hplain hdone⟩

end ApiPages.Workspace
