import ApiPages.Proofs.Command.Delivery
import ApiPages.Proofs.Command.Hindrance

/-!
# What links end with

A settings file is refused if it chooses an ending for links with a slash in it, so whatever
settings a run begins with, their ending has none. The ending that the command line chooses instead
is taken as it is. So the links that a run writes have an ending without a slash if and only if the
command line does not choose one with a slash (`run_linkEnd_iff`).
-/

namespace ApiPages

theorem Settings.isLinkEnd_iff {ending : String} :
    isLinkEnd ending = true ↔ '/' ∉ ending.toList := by
  simp [isLinkEnd]

theorem Settings.isLinkEnd_of_read {file : String} {settings : Settings}
    (h : read file = .ok settings) : isLinkEnd settings.linkEnd = true := by
  unfold read at h
  split at h
  · cases h
  · split at h
    · next hend =>
      obtain rfl := Except.ok.inj h
      exact hend
    · cases h

/-- Whatever file settings come from, if any, their links end well. -/
theorem Command.isLinkEnd_of_settingsFrom {path : Option String} {found : FileRead}
    {settings : Settings} (h : settingsFrom path found = .ok settings) :
    Settings.isLinkEnd settings.linkEnd = true := by
  rcases settingsFrom_eq_ok h with ⟨text, -, hread⟩ | ⟨-, rfl⟩
  · exact Settings.isLinkEnd_of_read hread
  · decide

/-- The ending of the command line counts, and else the one there was. -/
theorem Overrides.isLinkEnd_apply_iff {overrides : Overrides} {settings : Settings}
    (h : Settings.isLinkEnd settings.linkEnd = true) :
    Settings.isLinkEnd (overrides.apply settings).linkEnd = true ↔
      ∀ ending, overrides.linkEnd = some ending → Settings.isLinkEnd ending = true := by
  cases hend : overrides.linkEnd with
  | none => simp [apply, hend, h]
  | some ending => simp [apply, hend]

namespace Workspace

open Command (ofArguments? settingsFile settingsFrom)

/-- **The links that a run writes have no slash in their ending if and only if the command line
chooses none with a slash.** -/
theorem run_linkEnd_iff (w : Workspace) (time : String) {arguments : List String}
    {o : GenerateOptions} (ho : ofArguments? arguments = some (.generate o))
    (hdone : (w.run time arguments).1.outcome.status = 0) :
    ∃ settings text inventory d,
      settingsFrom o.config (w.readFile (o.config.getD settingsFile)) = .ok settings ∧
      w.readFile o.input = .content text ∧ Inventory.read text = .ok inventory ∧
      Documents.generate ((o.overrides.apply settings).forInventory inventory)
        (if o.reproducible then none else some time) inventory.declarations = .ok d.documents ∧
      w.Delivered o d (w.run time arguments).2 ∧
      '/' ∉ settings.linkEnd.toList ∧
      ('/' ∉ (indexOf ((o.overrides.apply settings).forInventory inventory)
          inventory.declarations).linkEnd.toList ↔
        ∀ ending, o.overrides.linkEnd = some ending → '/' ∉ ending.toList) := by
  obtain ⟨d, hplan, hafter⟩ := delivered_of_run ho hdone
  obtain ⟨settings, text, inventory, hsettings, hinput, hread, -, hdocuments⟩ :=
    Command.plan_eq_ok hplan
  have hend := Command.isLinkEnd_of_settingsFrom hsettings
  refine ⟨settings, text, inventory, d, hsettings, hinput, hread, hdocuments, hafter,
    Settings.isLinkEnd_iff.1 hend, ?_⟩
  -- neither the inventory nor the catalog changes how links end
  have hindex : (indexOf ((o.overrides.apply settings).forInventory inventory)
      inventory.declarations).linkEnd = (o.overrides.apply settings).linkEnd := rfl
  simp only [hindex, ← Settings.isLinkEnd_iff]
  exact Overrides.isLinkEnd_apply_iff hend

/-- An ending that the command line chooses instead of the one in the settings file. -/
theorem run_linkEnd_over_settings :
    let inventory := "[\x7b\"kind\":\"class\",\"name\":\"A\",\"accessLevel\":\"public\"\x7d]"
    let chosen := "link-ending = \".htm\"\n"
    let w : Workspace := ⟨.file "docs.json" inventory (.file "sourcedocs.toml" chosen .empty), []⟩
    let arguments := ["generate", "--input=docs.json", "-r", "--output-folder=docs",
      "--link-ending=.html"]
    ∃ o, ofArguments? arguments = some (.generate o) ∧ (w.run "" arguments).1.outcome.status = 0 ∧
      ∃ settings text inventory d,
        settingsFrom o.config (w.readFile (o.config.getD settingsFile)) = .ok settings ∧
        w.readFile o.input = .content text ∧ Inventory.read text = .ok inventory ∧
        Documents.generate ((o.overrides.apply settings).forInventory inventory)
          (if o.reproducible then none else some "") inventory.declarations = .ok d.documents ∧
        w.Delivered o d (w.run "" arguments).2 ∧
        '/' ∉ settings.linkEnd.toList ∧
        ('/' ∉ (indexOf ((o.overrides.apply settings).forInventory inventory)
            inventory.declarations).linkEnd.toList ↔
          ∀ ending, o.overrides.linkEnd = some ending → '/' ∉ ending.toList) := by
  intro inventory chosen w arguments
  let o : GenerateOptions := ⟨"docs.json", "docs", false, true, false, none,
    ⟨none, none, false, false, false, none, some ".html"⟩⟩
  have ho : ofArguments? arguments = some (.generate o) := by decide +kernel
  have hdone : (w.run "" arguments).1.outcome.status = 0 := by decide +kernel
  exact ⟨o, ho, hdone, run_linkEnd_iff w "" ho hdone⟩

/-- The command line can choose an ending that a settings file would be refused for. -/
theorem slash_mem_linkEnd_of_override :
    let inventory := "[\x7b\"kind\":\"class\",\"name\":\"A\",\"accessLevel\":\"public\"\x7d]"
    let w : Workspace := ⟨.file "docs.json" inventory .empty, []⟩
    let arguments := ["generate", "--input=docs.json", "-r", "--output-folder=docs",
      "--link-ending=/"]
    (w.run "" arguments).1.outcome.status = 0 ∧
      (w.run "" arguments).2.file? ["docs", "README.md"] =
        some "# Reference Documentation\n\n## Classes\n\n- [A](classes/A/)\n" ∧
      ∃ o settings text inventory d, ofArguments? arguments = some (.generate o) ∧
        settingsFrom o.config (w.readFile (o.config.getD settingsFile)) = .ok settings ∧
        w.readFile o.input = .content text ∧ Inventory.read text = .ok inventory ∧
        w.plan "" o = .ok d ∧
        Documents.generate ((o.overrides.apply settings).forInventory inventory) none
          inventory.declarations = .ok d.documents ∧
        '/' ∈ (indexOf ((o.overrides.apply settings).forInventory inventory)
          inventory.declarations).linkEnd.toList := by
  intro inventory w arguments
  let o : GenerateOptions := ⟨"docs.json", "docs", false, true, false, none,
    ⟨none, none, false, false, false, none, some "/"⟩⟩
  have ho : ofArguments? arguments = some (.generate o) := by decide +kernel
  have hdone : (w.run "" arguments).1.outcome.status = 0 := by decide +kernel
  have hreadme : (w.run "" arguments).2.file? ["docs", "README.md"] =
      some "# Reference Documentation\n\n## Classes\n\n- [A](classes/A/)\n" := by decide +kernel
  obtain ⟨d, hplan, -⟩ := delivered_of_run ho hdone
  obtain ⟨settings, text, parsed, hsettings, hinput, hread, -, hdocuments⟩ :=
    Command.plan_eq_ok hplan
  have hend : (indexOf ((o.overrides.apply settings).forInventory parsed)
      parsed.declarations).linkEnd = "/" := rfl
  exact ⟨hdone, hreadme, o, settings, text, parsed, d, ho, hsettings, hinput, hread, hplan,
    hdocuments, by rw [hend]; decide⟩

end Workspace

end ApiPages
