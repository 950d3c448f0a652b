import ApiPages.Proofs.Command.PagePlaces
import ApiPages.Proofs.Command.Removal
import ApiPages.Proofs.Command.Writing

/-!
# Deliveries

A run that ends well has carried out its plan: it has removed the output folder, if that was asked
for, and then written all documents of the plan. Main statement: afterwards every document is at its
place below the folder written to, and every other file is as it was after the removal
(`delivered_of_run`).
-/

namespace ApiPages.Workspace

open Command (Delivery ofArguments? settingsFile deliver writeDocuments beginning ending)

variable {w v : Workspace} {time : String} {arguments : List String} {o : GenerateOptions}
  {d : Delivery} {q : Place} {path : String}

/-- What a run is to write, or the report of a run that writes nothing. -/
def plan (w : Workspace) (time : String) (o : GenerateOptions) : Except Report Delivery :=
  Command.plan o time (w.readFile (o.config.getD settingsFile)) (w.readFile o.input)

/-- The workspace that documents are written in, and what removing the output folder came to. -/
def prepared (w : Workspace) (o : GenerateOptions) : Removal × Workspace :=
  if o.clean then w.removeFolder o.output else (.absent, w)

/-! ## The run of a plan -/

/-- Documents are written where the output folder could be removed. -/
theorem deliver_eq (w : Workspace) (o : GenerateOptions) (d : Delivery) :
    deliver access o d w =
      if (w.prepared o).1 = .failed then (.error (.notDeleted o.output), (w.prepared o).2)
      else writeDocuments access d.folder d.documents.entries (w.prepared o).2 := by
  rw [deliver, prepared]
  cases o.clean with
  | false => rfl
  | true =>
    have hremove : access.remove o.output w = w.removeFolder o.output := rfl
    simp only [if_true]
    rw [Command.bind_apply, hremove]
    split <;> rfl

theorem deliver_eq_ok_iff :
    deliver access o d w = (.ok (), v) ↔ (w.prepared o).1 ≠ .failed ∧
      writeDocuments access d.folder d.documents.entries (w.prepared o).2 = (.ok (), v) := by
  rw [deliver_eq]
  split
  · next h => exact iff_of_false (by rintro ⟨⟩) (fun hand => hand.1 h)
  · next h => simp [h]

theorem run_eq (ho : ofArguments? arguments = some (.generate o)) :
    w.run time arguments =
      match w.plan time o with
      | .error r => (r, w)
      | .ok d => (Command.reportOf (deliver access o d w).1, (deliver access o d w).2) := by
  rw [run, Command.run, ho]
  exact Command.runGenerate_eq (fun _ _ => rfl) time o w

/-- **A run that ends well is a plan carried out.** -/
theorem run_of_done (ho : ofArguments? arguments = some (.generate o))
    (hdone : (w.run time arguments).1.outcome.status = 0) :
    ∃ d, w.plan time o = .ok d ∧ (w.prepared o).1 ≠ .failed ∧
      writeDocuments access d.folder d.documents.entries (w.prepared o).2 =
        (.ok (), (w.run time arguments).2) ∧
      (w.run time arguments).1 = ⟨beginning ++ ending, .done⟩ := by
  rw [run_eq ho] at hdone ⊢
  cases hplan : w.plan time o with
  | error r =>
    rw [hplan] at hdone
    obtain ⟨f, rfl | rfl⟩ := Command.plan_eq_error hplan <;> cases hdone
  | ok d =>
    rw [hplan] at hdone
    refine ⟨d, rfl, ?_⟩
    simp only at hdone ⊢
    cases hdeliver : deliver access o d w with
    | mk outcome after =>
      rw [hdeliver] at hdone
      cases outcome with
      | error f => cases hdone
      | ok =>
        obtain ⟨hremoval, hwritten⟩ := deliver_eq_ok_iff.1 hdeliver
        exact ⟨hremoval, hwritten, rfl⟩

/-- A plan that can be carried out makes a run that ends well. -/
theorem run_of_plan (ho : ofArguments? arguments = some (.generate o))
    (hplan : w.plan time o = .ok d) (hremoval : (w.prepared o).1 ≠ .failed)
    (hwritten : writeDocuments access d.folder d.documents.entries (w.prepared o).2 = (.ok (), v)) :
    w.run time arguments = (⟨beginning ++ ending, .done⟩, v) := by
  rw [run_eq ho, hplan]
  simp only
  rw [deliver_eq_ok_iff.2 ⟨hremoval, hwritten⟩]
  rfl

/-! ## Before documents are written -/

/-- Documents are written where everything is as it was, or where the output folder is emptied. -/
theorem prepared_eq_or_emptied (h : (w.prepared o).1 ≠ .failed) :
    (w.prepared o).2 = w ∨
      (w.isFolder (w.place o.output) = true ∧ w.Emptied (w.place o.output) (w.prepared o).2) := by
  rw [prepared] at h ⊢
  split
  · next hclean =>
    rw [if_pos hclean] at h
    exact removeFolder_eq_or_emptied h
  · exact .inl rfl

theorem here_prepared (h : (w.prepared o).1 ≠ .failed) : (w.prepared o).2.here = w.here := by
  rcases prepared_eq_or_emptied h with heq | ⟨-, hemptied⟩
  · rw [heq]
  · exact hemptied.here

/-- Only files in the output folder are gone once it is removed. -/
theorem file?_prepared (h : (w.prepared o).1 ≠ .failed) (hq : ¬ IsIn (w.place o.output) q) :
    (w.prepared o).2.file? q = w.file? q := by
  rcases prepared_eq_or_emptied h with heq | ⟨hfolder, hemptied⟩
  · rw [heq]
  · by_cases hpre : w.place o.output <+: q
    · -- the folder itself is no file, before and after
      have heq : q = w.place o.output := by
        by_contra hne
        exact hq ⟨hpre, hne⟩
      rw [hemptied.file?_below hpre, heq, file?_of_isFolder hfolder]
    · exact hemptied.file?_elsewhere hpre

/-- Only folders in it and the output folder itself are gone. -/
theorem isFolder_prepared (h : (w.prepared o).1 ≠ .failed) (hq : ¬ w.place o.output <+: q) :
    (w.prepared o).2.isFolder q = w.isFolder q := by
  rcases prepared_eq_or_emptied h with heq | ⟨-, hemptied⟩
  · rw [heq]
  · exact hemptied.isFolder_elsewhere hq

/-- Where no file was there is none. -/
theorem file?_prepared_eq_none (h : (w.prepared o).1 ≠ .failed) (hq : w.file? q = none) :
    (w.prepared o).2.file? q = none := by
  rcases prepared_eq_or_emptied h with heq | ⟨-, hemptied⟩
  · rw [heq, hq]
  · by_cases hpre : w.place o.output <+: q
    · exact hemptied.file?_below hpre
    · rw [hemptied.file?_elsewhere hpre, hq]

/-! ## What is there afterwards -/

/-- The documents of a plan have paths of pages, and one of them is the index. -/
theorem isPage_of_plan (h : w.plan time o = .ok d) :
    (∀ e ∈ d.documents.entries, Path.IsPage e.1) ∧ d.documents.paths.Nodup ∧
      readmePath ∈ d.documents.paths := by
  obtain ⟨settings, text, inventory, -, -, -, -, hdocuments⟩ := Command.plan_eq_ok h
  exact Documents.isPage_of_generate hdocuments

/-- What a run that ends well leaves behind. -/
structure Delivered (w : Workspace) (o : GenerateOptions) (d : Delivery) (v : Workspace) :
    Prop where
  here : v.here = w.here
  removal : (w.prepared o).1 ≠ .failed
  fits : (w.prepared o).2.Fits v
  /-- Every document is there, at its path from the folder written to. -/
  documents : ∀ e ∈ d.documents.entries,
    v.file? (w.place d.folder ++ Path.steps e.1) = some e.2
  /-- Every other file is as it was after the output folder was removed. -/
  others : ∀ q, (∀ e ∈ d.documents.entries, q ≠ w.place d.folder ++ Path.steps e.1) →
    v.file? q = (w.prepared o).2.file? q
  folder : v.isFolder (w.place d.folder) = true
  usable : Path.isUsable d.folder = true

/-- **A run that ends well leaves the documents of its plan**, and all else as it was once the
output folder was removed. -/
theorem delivered_of_run (ho : ofArguments? arguments = some (.generate o))
    (hdone : (w.run time arguments).1.outcome.status = 0) :
    ∃ d, w.plan time o = .ok d ∧ w.Delivered o d (w.run time arguments).2 := by
  obtain ⟨d, hplan, hremoval, hwritten, -⟩ := run_of_done ho hdone
  obtain ⟨hpages, hpaths, hreadme⟩ := isPage_of_plan hplan
  have hhere := here_prepared hremoval
  have hplace : ∀ e ∈ d.documents.entries, (w.prepared o).2.place (Path.join d.folder e.1) =
      w.place d.folder ++ Path.steps e.1 := by
    intro e he
    rw [place_congr hhere, place_page (hpages e he)]
  obtain ⟨hhere', hfits, hframe⟩ := writeDocuments_frame hwritten
  have hall := writeDocuments_documents hwritten (nodup_places hpages hpaths)
  obtain ⟨readme, hmem, hpath⟩ := List.mem_map.1 hreadme
  refine ⟨d, hplan, hhere'.trans hhere, hremoval, hfits, fun e he => ?_, fun q hq => ?_, ?_, ?_⟩
  · rw [← hplace e he]
    exact (hall e he).1
  · refine hframe q fun hplaces => ?_
    obtain ⟨e, he, rfl⟩ := List.mem_map.1 hplaces
    exact hq e he (hplace e he)
  · -- the index is in the folder itself
    have hfolder := (hall readme hmem).2.1
    have hsteps : Path.steps readme.1 = ["README.md"] := by rw [hpath]; rfl
    rwa [hplace readme hmem, hsteps, List.dropLast_concat] at hfolder
  · exact Path.isUsable_of_join (hpages readme hmem).relative (hall readme hmem).2.2

theorem endsInName_of_plain (h : Path.IsPlain path) : Path.EndsInName path := by
  obtain ⟨ss, name, hsteps⟩ := List.eq_nil_or_concat (Path.steps path) |>.resolve_left h.nonempty
  rw [List.concat_eq_append] at hsteps
  exact ⟨ss, name, hsteps, h.names name (by rw [hsteps]; simp)⟩

/-- A folder that pages are written in is found, or there is nothing yet. -/
theorem Delivered.finds (h : w.Delivered o d v) (hplain : Path.IsPlain o.output)
    (husable : Path.isUsable o.output = true) (hin : w.place o.output <+: w.place d.folder) :
    w.Finds o.output := by
  cases hlocate : w.locate? o.output with
  | some p => exact .inl (by simp [hlocate])
  | none =>
    have hprepared : w.prepared o = (.absent, w) := by simp [prepared, removeFolder, hlocate]
    have hfolder : w.isFolder (w.place o.output) = false := by
      cases hfolder : w.isFolder (w.place o.output) with
      | false => rfl
      | true =>
        rw [locate?_of_isFolder hplain.ne_empty husable hplain.names hfolder] at hlocate
        cases hlocate
    have hfits := h.fits
    rw [hprepared] at hfits
    have hfile := hfits.file?_of_isFolder (isFolder_of_below h.folder hin)
    exact .inr ⟨get?_eq_none_iff.2 ⟨hfolder, hfile⟩, endsInName_of_plain hplain⟩

end ApiPages.Workspace
