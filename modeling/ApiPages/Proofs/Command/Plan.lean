import ApiPages.Command.Run

/-!
# Plans

The command that writes pages reads two files, and from what is in them follows a plan: documents
and the folder they go to, or the report of why there are none. Files are changed only to carry a
plan out (`runGenerate_eq`).
-/

namespace ApiPages.Command

variable {σ : Type} {o : GenerateOptions} {time : String} {found input : FileRead} {d : Delivery}
  {r : Report}

/-- What is to be written, given what reading the settings file and the inventory gave, or the
report of a run that writes nothing. -/
def plan (o : GenerateOptions) (time : String) (found input : FileRead) : Except Report Delivery :=
  match settingsFrom o.config found with
  | .error f => .error ⟨"", .failed f⟩
  | .ok settings =>
    match deliveryOf o time (o.overrides.apply settings) input with
    | .error f => .error ⟨beginning, .failed f⟩
    | .ok d => .ok d

/-- The report of a run that had something to write. -/
def reportOf : Except Failure Unit → Report
  | .error f => ⟨beginning, .failed f⟩
  | .ok () => ⟨beginning ++ ending, .done⟩

theorem bind_apply {α β : Type} (x : StateM σ α) (f : α → StateM σ β) (s : σ) :
    (x >>= f) s = f (x s).1 (x s).2 :=
  rfl

/-- **A run is its plan carried out**, where reading a file changes nothing. -/
theorem runGenerate_eq {files : FileAccess (StateM σ)}
    (hread : ∀ path s, (files.read path s).2 = s) (time : String) (o : GenerateOptions) (s : σ) :
    runGenerate files time o s =
      match plan o time (files.read (o.config.getD settingsFile) s).1 (files.read o.input s).1 with
      | .error r => (r, s)
      | .ok d => (reportOf (deliver files o d s).1, (deliver files o d s).2) := by
  -- each of the two reads hands the state on as it was
  have hfound := hread (o.config.getD settingsFile) s
  have hinput := hread o.input s
  rw [runGenerate, bind_apply, hfound, plan]
  cases settingsFrom o.config (files.read (o.config.getD settingsFile) s).1 with
  | error f => rfl
  | ok settings =>
    simp only
    rw [bind_apply, hinput]
    cases deliveryOf o time (o.overrides.apply settings) (files.read o.input s).1 with
    | error f => rfl
    | ok d =>
      simp only
      rw [bind_apply]
      cases (deliver files o d s).1 with
      | error f => rfl
      | ok => rfl

/-- A run without a plan reports why, and changes nothing. -/
theorem runGenerate_of_plan_eq_error {files : FileAccess (StateM σ)}
    (hread : ∀ path s, (files.read path s).2 = s) {s : σ}
    (h : plan o time (files.read (o.config.getD settingsFile) s).1 (files.read o.input s).1 =
      .error r) : runGenerate files time o s = (r, s) := by
  rw [runGenerate_eq hread, h]

/-! ## What a plan comes from -/

/-- A plan that has something to write comes from settings and an inventory that were read, with a
name for the module where one is asked for. -/
theorem plan_eq_ok (h : plan o time found input = .ok d) :
    ∃ settings text inventory, settingsFrom o.config found = .ok settings ∧
      input = .content text ∧ Inventory.read text = .ok inventory ∧
      outputFolder o ((o.overrides.apply settings).forInventory inventory) = .ok d.folder ∧
      Documents.generate ((o.overrides.apply settings).forInventory inventory)
        (if o.reproducible then none else some time) inventory.declarations = .ok d.documents := by
  unfold plan at h
  split at h
  · simp at h
  · next settings hsettings =>
    split at h
    · simp at h
    · next d' hdelivery =>
      obtain rfl := Except.ok.inj h
      unfold deliveryOf at hdelivery
      split at hdelivery
      · simp at hdelivery
      · simp at hdelivery
      · next text =>
        split at hdelivery
        · simp at hdelivery
        · next inventory hinventory =>
          simp only at hdelivery
          split at hdelivery
          · simp at hdelivery
          · next folder hfolder =>
            split at hdelivery
            · simp at hdelivery
            · next docs hdocs =>
              obtain rfl := Except.ok.inj hdelivery
              exact ⟨settings, text, inventory, hsettings, rfl, hinventory, hfolder, hdocs⟩

/-- Without a time to write in them, the documents are those of the text that was read. -/
theorem ofText_of_plan (hreproducible : o.reproducible = true)
    (h : plan o time found input = .ok d) :
    ∃ settings text, settingsFrom o.config found = .ok settings ∧ input = .content text ∧
      Documents.ofText (o.overrides.apply settings) none text = .ok d.documents := by
  obtain ⟨settings, text, inventory, hsettings, hinput, hread, -, hdocuments⟩ := plan_eq_ok h
  rw [hreproducible, if_pos rfl] at hdocuments
  refine ⟨settings, text, hsettings, hinput, ?_⟩
  simp only [Documents.ofText, hread, Documents.ofInventory, hdocuments]

/-- Pages go to the output folder unless the module's name is asked for. -/
theorem folder_of_plan (hmodule : o.includeModule = false) (h : plan o time found input = .ok d) :
    d.folder = o.output := by
  obtain ⟨settings, text, inventory, -, -, -, hfolder, -⟩ := plan_eq_ok h
  rw [outputFolder, hmodule] at hfolder
  exact (Except.ok.inj hfolder).symm

/-- Without a time to write in pages, a plan is the same at all times. -/
theorem plan_of_reproducible (hreproducible : o.reproducible = true) (time time' : String) :
    plan o time found input = plan o time' found input := by
  simp only [plan, deliveryOf, hreproducible, if_true]

/-- A run that has nothing to write fails, before or after its first line. -/
theorem plan_eq_error (h : plan o time found input = .error r) :
    ∃ f, r = ⟨"", .failed f⟩ ∨ r = ⟨beginning, .failed f⟩ := by
  unfold plan at h
  split at h
  · next f _ => exact ⟨f, .inl (Except.error.inj h).symm⟩
  · split at h
    · next f _ => exact ⟨f, .inr (Except.error.inj h).symm⟩
    · simp at h

end ApiPages.Command
