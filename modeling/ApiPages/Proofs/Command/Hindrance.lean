import ApiPages.Proofs.Command.Plan

/-!
# Runs that are hindered

What keeps the command that writes pages from having anything to write: settings or an inventory
that cannot be read, or a name that is asked for and not given. Such a run fails before it changes
any file, also where it was asked to remove the output folder first (`run_of_hindered`).
-/

namespace ApiPages

namespace Command

variable {o : GenerateOptions} {time : String} {found input : FileRead} {r : Report}

/-- A name of the module that a run can learn, given what reading the settings file and the
inventory gave. -/
inductive IsModuleName (o : GenerateOptions) (found input : FileRead) (name : String) : Prop where
  | ofArguments (h : o.overrides.moduleName = some name)
  | ofSettings (text : String) (settings : Settings) (hfound : found = .content text)
      (hread : Settings.read text = .ok settings) (h : settings.moduleName = some name)
  | ofInventory (text : String) (inventory : Inventory) (hinput : input = .content text)
      (hread : Inventory.read text = .ok inventory) (h : inventory.moduleName = some name)

/-- What stands in the way of writing pages, given what reading the settings file and the inventory
gave. -/
inductive Hindered (o : GenerateOptions) (found input : FileRead) : Prop where
  /-- A settings file is asked for that is not there. -/
  | settingsMissing (path : String) (asked : o.config = some path)
      (missing : ∀ text, found ≠ .content text)
  /-- The settings file is malformed, or chooses a bad link ending. -/
  | settingsRefused (text : String) (e : SettingsError) (hfound : found = .content text)
      (refused : Settings.read text = .error e)
  | inputMissing (missing : ∀ text, input ≠ .content text)
  /-- The text of the inventory is malformed, or a record in it is at fault. -/
  | inputRefused (text : String) (e : InventoryError) (hinput : input = .content text)
      (refused : Inventory.read text = .error e)
  /-- The name of the module is asked for, and none is known but the empty one. -/
  | nameMissing (asked : o.includeModule = true)
      (missing : ∀ name, IsModuleName o found input name → name = "")

theorem settingsFrom_eq_ok {path : Option String} {settings : Settings}
    (h : settingsFrom path found = .ok settings) :
    (∃ text, found = .content text ∧ Settings.read text = .ok settings) ∨
      (path = none ∧ settings = .standard) := by
  unfold settingsFrom at h
  split at h
  · next text =>
    split at h
    · next s hread =>
      obtain rfl := Except.ok.inj h
      exact .inl ⟨_, rfl, hread⟩
    · simp at h
  · exact .inr ⟨rfl, (Except.ok.inj h).symm⟩
  · simp at h

theorem outputFolder_eq_ok {settings : Settings} {folder : String}
    (h : outputFolder o settings = .ok folder) (hmodule : o.includeModule = true) :
    ∃ name, settings.moduleName = some name ∧ name ≠ "" ∧ folder = Path.join o.output name := by
  simp only [outputFolder, hmodule, Bool.not_true, Bool.false_eq_true, if_false] at h
  split at h
  · simp at h
  · next name hname =>
    split at h
    · simp at h
    · next hne => exact ⟨name, hname, by simpa using hne, (Except.ok.inj h).symm⟩

/-- The name that a run uses is one of those that it can learn. -/
theorem isModuleName_of_settings {settings : Settings} {text : String} {inventory : Inventory}
    {name : String} (hsettings : settingsFrom o.config found = .ok settings)
    (hinput : input = .content text) (hread : Inventory.read text = .ok inventory)
    (h : ((o.overrides.apply settings).forInventory inventory).moduleName = some name) :
    IsModuleName o found input name := by
  -- the command line comes first, then the settings file, then the inventory
  simp only [Settings.forInventory, Overrides.apply, Option.or_eq_some_iff] at h
  rcases h with (h | ⟨-, h⟩) | ⟨-, h⟩
  · exact .ofArguments h
  · rcases settingsFrom_eq_ok hsettings with ⟨file, hfound, hfile⟩ | ⟨-, rfl⟩
    · exact .ofSettings file settings hfound hfile h
    · cases h
  · exact .ofInventory text inventory hinput hread h

/-- A run that is hindered has nothing to write. -/
theorem plan_ne_ok (h : Hindered o found input) (d : Delivery) :
    plan o time found input ≠ .ok d := by
  intro hplan
  obtain ⟨settings, text, inventory, hsettings, hinput, hread, hfolder, -⟩ := plan_eq_ok hplan
  cases h with
  | settingsMissing path asked missing =>
    rcases settingsFrom_eq_ok hsettings with ⟨file, hfound, -⟩ | ⟨hnone, -⟩
    · exact missing file hfound
    · rw [hnone] at asked
      cases asked
  | settingsRefused file e hfound refused =>
    simp [settingsFrom, hfound, refused] at hsettings
  | inputMissing missing => exact missing text hinput
  | inputRefused given e hgiven refused =>
    obtain rfl := FileRead.content.inj (hgiven.symm.trans hinput)
    rw [refused] at hread
    cases hread
  | nameMissing asked missing =>
    obtain ⟨name, hname, hne, -⟩ := outputFolder_eq_ok hfolder asked
    exact hne (missing name (isModuleName_of_settings hsettings hinput hread hname))

theorem exists_plan_eq_error (time : String) (h : Hindered o found input) :
    ∃ r, plan o time found input = .error r := by
  cases hplan : plan o time found input with
  | error r => exact ⟨r, rfl⟩
  | ok d => exact absurd hplan (plan_ne_ok h d)

/-- The line that tells of success begins with this word. -/
theorem not_done_infix_beginning : ¬ "Done".toList <:+: beginning.toList := by
  intro h
  have hmem : 'D' ∈ beginning.toList := h.subset (by decide)
  exact absurd hmem (by decide)

end Command

namespace Workspace

open Command (Hindered ofArguments? settingsFile)

/-- **A run that is hindered fails and changes nothing**, whatever else it was asked for: the
workspace after it is the one before, and its output does not tell of success. -/
theorem run_of_hindered (w : Workspace) (time : String) {arguments : List String}
    {o : GenerateOptions} (ho : ofArguments? arguments = some (.generate o))
    (h : Hindered o (w.readFile (o.config.getD settingsFile)) (w.readFile o.input)) :
    ∃ report, w.run time arguments = (report, w) ∧ report.outcome.status = 1 ∧
      ¬ "Done".toList <:+: report.output.toList := by
  obtain ⟨r, hplan⟩ := Command.exists_plan_eq_error time h
  have hrun : w.run time arguments = (r, w) := by
    rw [run, Command.run, ho]
    exact Command.runGenerate_of_plan_eq_error (fun _ _ => rfl) hplan
  refine ⟨r, hrun, ?_⟩
  obtain ⟨f, rfl | rfl⟩ := Command.plan_eq_error hplan
  · exact ⟨rfl, by simp⟩
  · exact ⟨rfl, Command.not_done_infix_beginning⟩

/-- A member without a kind, while pages of an earlier run are there that are to be removed. -/
theorem run_of_memberWithoutKind :
    let inventory := "[\x7b\"kind\":\"enum\",\"name\":\"E\",\"members\":[\x7b\x7d]\x7d]"
    let pages := Listing.folder "Reference" (.file "README.md" "" .empty) .empty
    let w : Workspace := ⟨.file "docs.json" inventory (.folder "Documentation" pages .empty), []⟩
    let arguments := ["generate", "--input=docs.json", "--clean"]
    (∃ o, ofArguments? arguments = some (.generate o) ∧ o.clean = true ∧
      Hindered o (w.readFile (o.config.getD settingsFile)) (w.readFile o.input)) ∧
    ∃ report, w.run "" arguments = (report, w) ∧ report.outcome.status = 1 ∧
      ¬ "Done".toList <:+: report.output.toList := by
  intro inventory pages w arguments
  let o : GenerateOptions := ⟨"docs.json", "Documentation/Reference", false, false, true, none,
    ⟨none, none, false, false, false, none, none⟩⟩
  have ho : ofArguments? arguments = some (.generate o) := by decide +kernel
  have hinput : w.readFile o.input = .content inventory := by decide +kernel
  have hnone : (Inventory.read inventory).toOption.isNone = true := by decide +kernel
  cases hread : Inventory.read inventory with
  | ok accepted =>
    rw [hread] at hnone
    cases hnone
  | error e =>
    have h : Hindered o (w.readFile (o.config.getD settingsFile)) (w.readFile o.input) :=
      .inputRefused inventory e hinput hread
    exact ⟨⟨o, ho, rfl, h⟩, run_of_hindered w "" ho h⟩

end Workspace

end ApiPages
