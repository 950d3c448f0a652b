import ApiPages.Proofs.Command.Containment

/-!
# Runs that are repeated

A run that writes no time into its pages can be repeated: the second run reads the same, so it has
the same plan, and it finds everything that it needs to carry the plan out again. Main statement:
its report is the same, and no file changes (`run_again`). A run that removes the output folder
first can stand in its own way, since paths are followed as they are written. What keeps it from
that is `CleansAgain`; without steps of dots in its paths there is nothing to keep it from
(`Delivered.cleansAgain`).
-/

namespace ApiPages.Workspace

open Command (Delivery ofArguments? settingsFile)

variable {w v : Workspace} {p q : Place} {path text : String} {ss : List String}
  {time : String} {arguments : List String} {o : GenerateOptions} {d : Delivery}

/-! ## Reading again -/

theorem mem_trail_of_dropLast (h : q ∈ trail p ss.dropLast) : q ∈ trail p ss := by
  rcases List.eq_nil_or_concat ss with rfl | ⟨ts, s, rfl⟩
  · exact h
  · rw [List.concat_eq_append, List.dropLast_concat] at h
    rw [List.concat_eq_append, trail_append]
    exact List.mem_append_left _ h

theorem mem_trail_of_segments (h : q ∈ trail p (Path.segments path).dropLast) :
    q ∈ trail p (Path.steps path) := by
  rcases Path.segments_eq path with hsegments | hsegments
  · rw [hsegments] at h
    exact mem_trail_of_dropLast h
  · rwa [hsegments, List.dropLast_concat] at h

/-- A file in a workspace can always be read. -/
theorem readFile_absent_or_content (w : Workspace) (path : String) :
    w.readFile path = .absent ∨ ∃ text, w.readFile path = .content text := by
  rw [readFile]
  split
  · exact .inr ⟨_, rfl⟩
  · exact .inl rfl

theorem readFile_eq_content_iff : w.readFile path = .content text ↔
    w.locate? path = some (w.place path) ∧ w.file? (w.place path) = some text := by
  rw [readFile]
  cases hlocate : w.locate? path with
  | none => simp
  | some p =>
    obtain ⟨-, -, rfl, -⟩ := locate?_eq_some_iff.1 hlocate
    cases hfile : w.file? (w.place path) <;> simp [hfile]

/-- A file is read again where it and the way to it are still there. -/
theorem readFile_again (hhere : v.here = w.here) (h : w.readFile path = .content text)
    (hfile : v.file? (w.place path) = w.file? (w.place path))
    (hway : ∀ t ∈ trail (w.origin path) (Path.steps path),
      w.isFolder t = true → v.isFolder t = true) : v.readFile path = .content text := by
  obtain ⟨hlocate, htext⟩ := readFile_eq_content_iff.1 h
  obtain ⟨hne, husable, -, hleads⟩ := locate?_eq_some_iff.1 hlocate
  rw [readFile_eq_content_iff, locate?_eq_some_iff, place_congr hhere, origin_congr hhere, hfile]
  refine ⟨⟨hne, husable, rfl, ?_⟩, htext⟩
  refine hleads.imp (fun h => leads_of_trail h hway) fun h => ⟨?_, h.2⟩
  exact leads_of_trail h.1 fun t ht => hway t (mem_trail_of_segments ht)

/-- There is a settings file unless there is no file at its usual place. -/
theorem readFile_settingsFile_eq_absent :
    w.readFile settingsFile = .absent ↔ w.file? (w.place settingsFile) = none := by
  constructor
  · intro h
    cases hfile : w.file? (w.place settingsFile) with
    | none => rfl
    | some text =>
      have hsegments : Path.segments settingsFile = [settingsFile] := by decide
      have hlocate : w.locate? settingsFile = some (w.place settingsFile) := by
        refine locate?_eq_some_iff.2 ⟨by decide, by decide, rfl, .inr ⟨?_, by rw [hfile]; rfl⟩⟩
        rw [hsegments]
        rfl
      rw [readFile_eq_content_iff.2 ⟨hlocate, hfile⟩] at h
      cases h
  · intro h
    rcases readFile_absent_or_content w settingsFile with hread | ⟨text, hread⟩
    · exact hread
    · rw [(readFile_eq_content_iff.1 hread).2] at h
      cases h

/-- No page goes to the place of the settings file. -/
theorem settingsFile_ne_page (h : Path.IsPage path) (folder : Place) :
    w.place settingsFile ≠ folder ++ Path.steps path := by
  obtain ⟨folders, file, hsteps, hending⟩ := h.ending
  intro heq
  have hplace : w.place settingsFile = w.here ++ [settingsFile] := rfl
  have hlast := congrArg List.getLast? heq
  rw [hplace, hsteps, ← List.append_assoc, List.getLast?_concat, List.getLast?_concat] at hlast
  rw [← Option.some.inj hlast] at hending
  exact absurd hending (by decide)

/-! ## Running again -/

/-- The paths of the files that a run reads. -/
def inUse (w : Workspace) (o : GenerateOptions) : List String :=
  [o.config.getD settingsFile, o.input].filter fun path => w.readFile path ≠ .absent

/-- Whether the files that a run reads are neither in its output folder nor in the folder that it
writes to. -/
def ReadsApart (w : Workspace) (o : GenerateOptions) (folder : String) : Prop :=
  ∀ path ∈ w.inUse o,
    ¬ IsIn (w.place o.output) (w.place path) ∧ ¬ IsIn (w.place folder) (w.place path)

instance (w : Workspace) (o : GenerateOptions) (folder : String) :
    Decidable (w.ReadsApart o folder) :=
  inferInstanceAs (Decidable (∀ path ∈ w.inUse o, _))

/-- Whether a run that removes the output folder first leaves a workspace in which it can do so
again. -/
structure CleansAgain (w : Workspace) (o : GenerateOptions) (d : Delivery) (v : Workspace) :
    Prop where
  finds : w.Finds o.output
  /-- No page goes to the place of the output folder itself. -/
  free : ∀ e ∈ d.documents.entries, w.place d.folder ++ Path.steps e.1 ≠ w.place o.output
  /-- No folder that is named on the way to a file that is read is gone. -/
  ways : ∀ path ∈ w.inUse o, ∀ t ∈ trail (w.origin path) (Path.steps path),
    w.isFolder t = true → v.isFolder t = true

/-- A file that a run has read is read again. -/
theorem Delivered.readFile_again (h : w.Delivered o d v) (hplan : w.plan time o = .ok d)
    (hclean : o.clean = true → w.CleansAgain o d v) (happart : w.ReadsApart o d.folder)
    (hpath : path ∈ w.inUse o) (hread : w.readFile path = .content text) :
    v.readFile path = .content text := by
  obtain ⟨houtput, hfolder⟩ := happart path hpath
  have hother : ∀ e ∈ d.documents.entries, w.place path ≠ w.place d.folder ++ Path.steps e.1 := by
    intro e he heq
    rw [heq] at hfolder
    exact hfolder (isIn_of_page ((isPage_of_plan hplan).1 e he) (List.prefix_refl _))
  refine Workspace.readFile_again h.here hread ?_ fun t ht hthere => ?_
  · rw [h.others _ hother, file?_prepared h.removal houtput]
  · cases ho : o.clean with
    | true => exact (hclean ho).ways path hpath t ht hthere
    | false =>
      have hfits := h.fits
      rw [show w.prepared o = (.absent, w) by simp [prepared, ho]] at hfits
      exact hfits.isFolder t hthere

/-- No settings file comes to be at the usual place. -/
theorem Delivered.settingsFile_absent (h : w.Delivered o d v) (hplan : w.plan time o = .ok d)
    (habsent : w.readFile settingsFile = .absent) : v.readFile settingsFile = .absent := by
  rw [readFile_settingsFile_eq_absent] at habsent ⊢
  rw [place_congr h.here,
    h.others _ fun e he => settingsFile_ne_page ((isPage_of_plan hplan).1 e he) _]
  exact file?_prepared_eq_none h.removal habsent

/-- The plan of a run that writes no time is the same at all times. -/
theorem plan_again (h : w.Delivered o d v) (hplan : w.plan time o = .ok d)
    (hreproducible : o.reproducible = true) (hclean : o.clean = true → w.CleansAgain o d v)
    (happart : w.ReadsApart o d.folder) (time' : String) : v.plan time' o = .ok d := by
  obtain ⟨settings, text, inventory, hsettings, hinput, -⟩ := Command.plan_eq_ok hplan
  have hinput' : v.readFile o.input = w.readFile o.input := by
    rw [hinput]
    exact h.readFile_again hplan hclean happart (by simp [inUse, hinput]) hinput
  have hfound : v.readFile (o.config.getD settingsFile) =
      w.readFile (o.config.getD settingsFile) := by
    rcases readFile_absent_or_content w (o.config.getD settingsFile) with hread | ⟨text, hread⟩
    · rcases Command.settingsFrom_eq_ok hsettings with ⟨text, hcontent, -⟩ | ⟨hnone, -⟩
      · rw [hread] at hcontent
        cases hcontent
      · rw [hread]
        rw [hnone] at hread ⊢
        exact h.settingsFile_absent hplan hread
    · rw [hread]
      exact h.readFile_again hplan hclean happart (by simp [inUse, hread]) hread
  rw [plan, hfound, hinput', Command.plan_of_reproducible hreproducible time' time]
  exact hplan

/-- **What a run has removed it can remove again.** -/
theorem prepared_again (h : w.Delivered o d v) (hclean : o.clean = true → w.CleansAgain o d v) :
    (v.prepared o).1 ≠ .failed ∧
      (∀ q, (w.prepared o).2.isFolder q = true → (v.prepared o).2.isFolder q = true) ∧
      (v.prepared o).2.Fits v := by
  have hremoval := h.removal
  have hfits := h.fits
  have hothers := h.others
  rw [prepared] at hremoval hfits hothers ⊢
  rw [prepared]
  cases ho : o.clean with
  | false =>
    simp only [ho, Bool.false_eq_true, if_false] at hfits ⊢
    exact ⟨by simp, hfits.isFolder, .refl v⟩
  | true =>
    simp only [ho, if_true] at hremoval hfits hothers ⊢
    obtain ⟨hfinds, hfree, -⟩ := hclean ho
    refine removeFolder_again hremoval hfinds h.here hfits ?_
    rw [hothers _ fun e he => (hfree e he).symm]
    exact file?_removeFolder_of_finds hremoval hfinds (List.prefix_refl _)

/-- What is removed again is what was written. -/
theorem file?_prepared_again (h : w.Delivered o d v)
    (hclean : o.clean = true → w.CleansAgain o d v)
    (hother : ∀ e ∈ d.documents.entries, q ≠ w.place d.folder ++ Path.steps e.1) :
    (v.prepared o).2.file? q = v.file? q := by
  obtain ⟨hremoval, -, hfits⟩ := prepared_again h hclean
  by_cases hin : IsIn (v.place o.output) q
  · cases ho : o.clean with
    | false => simp [prepared, ho]
    | true =>
      -- in the folder that was removed there is no other file
      have hnone : v.file? q = none := by
        have hfirst := h.removal
        rw [h.others q hother]
        rw [prepared, if_pos ho] at hfirst ⊢
        rw [place_congr h.here] at hin
        exact file?_removeFolder_of_finds hfirst (hclean ho).finds hin.1
      cases hfile : (v.prepared o).2.file? q with
      | none => exact hnone.symm
      | some content =>
        have hsome := hfits.isFile q (by rw [hfile]; rfl)
        rw [hnone] at hsome
        cases hsome
  · exact file?_prepared hremoval hin

/-- Whether a run that is repeated has the same report and changes no file. -/
def Repeats (w : Workspace) (time time' : String) (arguments : List String) : Prop :=
  ((w.run time arguments).2.run time' arguments).1 = (w.run time arguments).1 ∧
    ∀ p, ((w.run time arguments).2.run time' arguments).2.file? p =
      (w.run time arguments).2.file? p

/-- **A run that writes no time into its pages can be repeated**: at any later time it has the same
report and changes no file. -/
theorem run_again (w : Workspace) (time time' : String)
    (ho : ofArguments? arguments = some (.generate o)) (hreproducible : o.reproducible = true)
    (hdone : (w.run time arguments).1.outcome.status = 0) (hplan : w.plan time o = .ok d)
    (happart : w.ReadsApart o d.folder)
    (hclean : o.clean = true → w.CleansAgain o d (w.run time arguments).2) :
    w.Repeats time time' arguments := by
  obtain ⟨d₁, hplan₁, hafter⟩ := delivered_of_run ho hdone
  obtain rfl := Except.ok.inj (hplan.symm.trans hplan₁)
  obtain ⟨d₂, hplan₂, -, hwritten, hreport⟩ := run_of_done ho hdone
  obtain rfl := Except.ok.inj (hplan.symm.trans hplan₂)
  -- the second run carries out the same plan
  have hplan' := plan_again hafter hplan hreproducible hclean happart time'
  obtain ⟨hremoval, hfolders, hfits⟩ := prepared_again hafter hclean
  have hhere : ((w.run time arguments).2.prepared o).2.here = (w.prepared o).2.here := by
    rw [here_prepared hremoval, here_prepared hafter.removal, hafter.here]
  obtain ⟨u, hagain⟩ := writeDocuments_again hwritten hhere hfolders hfits
  have hrun := run_of_plan ho hplan' hremoval hagain
  have hdone' : ((w.run time arguments).2.run time' arguments).1.outcome.status = 0 := by
    rw [hrun]
    rfl
  obtain ⟨d₃, hplan₃, hafter'⟩ := delivered_of_run ho hdone'
  obtain rfl := Except.ok.inj (hplan'.symm.trans hplan₃)
  refine ⟨by rw [hrun, hreport], fun p => ?_⟩
  have hplace := place_congr hafter.here d.folder
  by_cases hdoc : ∃ e ∈ d.documents.entries, p = w.place d.folder ++ Path.steps e.1
  · obtain ⟨e, he, rfl⟩ := hdoc
    rw [hafter.documents e he, ← hplace, hafter'.documents e he]
  · have hother : ∀ e ∈ d.documents.entries, p ≠ w.place d.folder ++ Path.steps e.1 :=
      fun e he heq => hdoc ⟨e, he, heq⟩
    rw [hafter'.others p (by rwa [hplace]), file?_prepared_again hafter hclean hother]

/-! ## Paths without steps of dots -/

theorem prefix_of_mem_trail (hss : ∀ s ∈ ss, Path.isDots s = false) (h : q ∈ trail p ss) :
    q <+: stepsTo p ss := by
  induction ss generalizing p with
  | nil => cases h
  | cons s ss ih =>
    rw [List.forall_mem_cons] at hss
    rw [trail, hss.1] at h
    rw [stepsTo_cons]
    rcases List.mem_cons.1 h with rfl | h
    · rw [stepsTo_of_names hss.2]
      exact List.prefix_append _ _
    · exact ih hss.2 h

/-- No folder is where a file is read. -/
theorem isFolder_of_inUse (h : path ∈ w.inUse o) : w.isFolder (w.place path) = false := by
  obtain ⟨-, hfound⟩ := List.mem_filter.1 h
  rcases readFile_absent_or_content w path with hread | ⟨text, hread⟩
  · simp [hread] at hfound
  · cases hfolder : w.isFolder (w.place path) with
    | false => rfl
    | true =>
      have htext := (readFile_eq_content_iff.1 hread).2
      rw [file?_of_isFolder hfolder] at htext
      cases htext

/-- Without steps of dots in its paths, a run that removes the output folder can do so again. -/
theorem Delivered.cleansAgain (h : w.Delivered o d v) (hplan : w.plan time o = .ok d)
    (happart : w.ReadsApart o d.folder) (hplain : Path.IsPlain o.output)
    (husable : Path.isUsable o.output = true) (hin : w.place o.output <+: w.place d.folder)
    (hnames : ∀ path ∈ w.inUse o, ∀ s ∈ Path.steps path, Path.isDots s = false) :
    w.CleansAgain o d v := by
  refine ⟨h.finds hplain husable hin, fun e he => ?_, fun path hpath t ht hthere => ?_⟩
  · exact (isIn_of_page ((isPage_of_plan hplan).1 e he) hin).2
  · have hto : t <+: w.place path := prefix_of_mem_trail (hnames path hpath) ht
    have hout : ¬ w.place o.output <+: t := by
      intro hpre
      by_cases heq : w.place path = w.place o.output
      · -- the file itself is no folder on the way
        rw [heq] at hto
        have hfile := isFolder_of_inUse hpath
        rw [heq, hpre.eq_of_length_le hto.length_le, hthere] at hfile
        cases hfile
      · exact (happart path hpath).1 ⟨hpre.trans hto, heq⟩
    refine h.fits.isFolder t ?_
    rw [isFolder_prepared h.removal hout, hthere]

/-- A folder that is named for the module, in an output folder with pages of an earlier run. -/
theorem run_again_moduleFolder :
    let inventory := "[\x7b\"kind\":\"class\",\"name\":\"A\",\"accessLevel\":\"public\"\x7d]"
    let w : Workspace :=
      ⟨.file "docs.json" inventory (.folder "docs" (.file "old.md" "" .empty) .empty), []⟩
    let arguments := ["generate", "--input=docs.json", "-rm", "--clean", "--module-name=Kit",
      "--output-folder=docs"]
    ∃ o d, (ofArguments? arguments = some (.generate o) ∧ o.reproducible = true ∧
      (w.run "" arguments).1.outcome.status = 0 ∧ w.plan "" o = .ok d ∧ w.ReadsApart o d.folder ∧
      w.CleansAgain o d (w.run "" arguments).2) ∧ w.Repeats "" "later" arguments := by
  intro inventory w arguments
  let o : GenerateOptions := ⟨"docs.json", "docs", true, true, true, none,
    ⟨some "Kit", none, false, false, false, none, none⟩⟩
  have ho : ofArguments? arguments = some (.generate o) := by decide +kernel
  have hdone : (w.run "" arguments).1.outcome.status = 0 := by decide +kernel
  have hfolder : (w.plan "" o).toOption.map (·.folder) = some "docs/Kit" := by decide +kernel
  obtain ⟨d, hplan, hafter⟩ := delivered_of_run ho hdone
  rw [hplan] at hfolder
  replace hfolder : d.folder = "docs/Kit" := Option.some.inj hfolder
  have happart : w.ReadsApart o d.folder := by
    rw [hfolder]
    decide +kernel
  have hin : w.place o.output <+: w.place d.folder := by
    rw [hfolder]
    decide +kernel
  have hplain : Path.IsPlain o.output := ⟨by decide, by decide, by decide⟩
  have hnames : ∀ path ∈ w.inUse o, ∀ s ∈ Path.steps path, Path.isDots s = false := by
    decide +kernel
  have hclean := hafter.cleansAgain hplan happart hplain (by decide) hin hnames
  exact ⟨o, d, ⟨ho, rfl, hdone, hplan, happart, hclean⟩,
    run_again w "" "later" ho rfl hdone hplan happart fun _ => hclean⟩

/-- Whether a run that ends well, and reads nothing that it removes or writes, does not repeat. -/
def Unrepeatable (w : Workspace) (arguments : List String) : Prop :=
  ∃ o d, ofArguments? arguments = some (.generate o) ∧ o.reproducible = true ∧
    (w.run "" arguments).1.outcome.status = 0 ∧ w.plan "" o = .ok d ∧ w.ReadsApart o d.folder ∧
    ¬ w.Repeats "" "" arguments

theorem unrepeatable_of (folder : String) (ho : ofArguments? arguments = some (.generate o))
    (hreproducible : o.reproducible = true) (hdone : (w.run "" arguments).1.outcome.status = 0)
    (hfolder : (w.plan "" o).toOption.map (·.folder) = some folder)
    (happart : w.ReadsApart o folder) (hnot : ¬ w.Repeats "" "" arguments) :
    w.Unrepeatable arguments := by
  obtain ⟨d, hplan, -⟩ := delivered_of_run ho hdone
  rw [hplan] at hfolder
  rw [← Option.some.inj hfolder] at happart
  exact ⟨o, d, ho, hreproducible, hdone, hplan, happart, hnot⟩

theorem not_repeats_of_status
    (h : ((w.run "" arguments).2.run "" arguments).1.outcome.status ≠
      (w.run "" arguments).1.outcome.status) : ¬ w.Repeats "" "" arguments := by
  intro hrepeats
  exact h (by rw [hrepeats.1])

/-- What `CleansAgain` rules out does happen. The path of the output folder ends with a step of
dots, and there is no folder yet. Its path leads through a folder that is not there yet, to one with
other files. The inventory is reached through a folder in the output folder. A page takes the place
of the output folder. -/
theorem unrepeatable_paths :
    let alone := Listing.file "docs.json" "[]" .empty
    let generate := fun input output => ["generate", input, "-r", "--clean", output]
    Unrepeatable ⟨alone, []⟩ (generate "--input=docs.json" "--output-folder=pages/.") ∧
    Unrepeatable ⟨.folder "pages" (.file "old.md" "" .empty) alone, []⟩
      (generate "--input=docs.json" "--output-folder=new/../pages") ∧
    Unrepeatable ⟨.folder "pages" (.folder "old" .empty .empty) alone, []⟩
      (generate "--input=pages/old/../../docs.json" "--output-folder=pages") ∧
    Unrepeatable ⟨.folder "work" .empty alone, ["work"]⟩
      (generate "--input=../docs.json" "--output-folder=README.md" ++
        ["-m", "--module-name=/work"]) := by
  intro alone generate
  let options (input output : String) : GenerateOptions :=
    ⟨input, output, false, true, true, none, ⟨none, none, false, false, false, none, none⟩⟩
  refine ⟨?_, ?_, ?_, ?_⟩
  · have ho : ofArguments? (generate "--input=docs.json" "--output-folder=pages/.") =
        some (.generate (options "docs.json" "pages/.")) := by decide +kernel
    -- the second run cannot take the folder away
    exact unrepeatable_of "pages/." ho rfl (by decide +kernel) (by decide +kernel)
      (by decide +kernel) (not_repeats_of_status (by decide +kernel))
  · have ho : ofArguments? (generate "--input=docs.json" "--output-folder=new/../pages") =
        some (.generate (options "docs.json" "new/../pages")) := by decide +kernel
    refine unrepeatable_of "new/../pages" ho rfl (by decide +kernel) (by decide +kernel)
      (by decide +kernel) fun hrepeats => ?_
    -- the first run leaves the other file, and the second one takes it away
    exact absurd (hrepeats.2 ["pages", "old.md"]) (by decide +kernel)
  · have ho : ofArguments? (generate "--input=pages/old/../../docs.json" "--output-folder=pages") =
        some (.generate (options "pages/old/../../docs.json" "pages")) := by decide +kernel
    -- the second run cannot read the inventory
    exact unrepeatable_of "pages" ho rfl (by decide +kernel) (by decide +kernel)
      (by decide +kernel) (not_repeats_of_status (by decide +kernel))
  · have ho : ofArguments? (generate "--input=../docs.json" "--output-folder=README.md" ++
        ["-m", "--module-name=/work"]) =
        some (.generate ⟨"../docs.json", "README.md", true, true, true, none,
          ⟨some "/work", none, false, false, false, none, none⟩⟩) := by decide +kernel
    -- the second run finds a file where the folder should be
    exact unrepeatable_of "/work" ho rfl (by decide +kernel) (by decide +kernel)
      (by decide +kernel) (not_repeats_of_status (by decide +kernel))

end ApiPages.Workspace
