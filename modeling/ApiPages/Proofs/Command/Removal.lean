import ApiPages.Proofs.Command.Places

/-!
# Removing folders

What removing the folder at a path takes away: all that is in it, mostly the folder itself, and
nothing elsewhere. Afterwards there is no file in it, be it that there was no such folder
(`file?_removeFolder_of_finds`), and once there are files again, it can be removed again
(`removeFolder_again`).
-/

namespace ApiPages.Workspace

variable {w w' v v' : Workspace} {p q : Place} {path : String} {ss : List String}

/-- Whether a workspace is another one without what is in the folder at a place; the folder itself
may be there still. -/
structure Emptied (w : Workspace) (p : Place) (v : Workspace) : Prop where
  here : v.here = w.here
  elsewhere : ∀ q, ¬ p <+: q → v.get? q = w.get? q
  below : ∀ q, p <+: q → v.get? q = none ∨ (q = p ∧ v.get? q = some .folder)

namespace Emptied

theorem file?_below (h : w.Emptied p v) (hq : p <+: q) : v.file? q = none := by
  rcases h.below q hq with hnone | ⟨-, hfolder⟩
  · exact file?_of_get?_eq_none hnone
  · exact file?_of_isFolder (isFolder_iff.2 hfolder)

theorem file?_elsewhere (h : w.Emptied p v) (hq : ¬ p <+: q) : v.file? q = w.file? q :=
  file?_eq_of_get?_eq (h.elsewhere q hq)

theorem isFolder_elsewhere (h : w.Emptied p v) (hq : ¬ p <+: q) : v.isFolder q = w.isFolder q :=
  isFolder_eq_of_get?_eq (h.elsewhere q hq)

/-- Of what is below the place, a folder can be there only at the place. -/
theorem eq_of_isFolder (h : w.Emptied p v) (hq : p <+: q) (hfolder : v.isFolder q = true) :
    q = p := by
  rcases h.below q hq with hnone | ⟨heq, -⟩
  · rw [isFolder_of_get?_eq_none hnone] at hfolder
    cases hfolder
  · exact heq

end Emptied

theorem emptied_clear (h : w.isFolder p = true) : w.Emptied p (w.clear p) := by
  refine ⟨here_clear w p, fun q hq => ?_, fun q hq => ?_⟩
  · rw [get?_clear h, if_neg hq]
  · rw [get?_clear h, if_pos hq]
    by_cases heq : q = p
    · exact .inr ⟨heq, if_pos heq⟩
    · exact .inl (if_neg heq)

/-- The folder that was cleared can be taken away. -/
theorem get?_set_clear (hp : p ≠ []) (h : w.isFolder p = true) (q : Place) :
    ((w.clear p).set p none).get? q = if p <+: q then none else w.get? q := by
  have hparent : (w.clear p).isFolder p.dropLast = true := by
    have hnot : ¬ p <+: p.dropLast := by
      intro hpre
      have hlength := hpre.length_le
      have hpos := List.length_pos_iff.2 hp
      rw [List.length_dropLast] at hlength
      omega
    rw [(emptied_clear h).isFolder_elsewhere hnot]
    exact isFolder_of_below h (List.dropLast_prefix p)
  rw [get?_set none hp hparent, get?_clear h]
  by_cases hq : p <+: q
  · simp [hq]
  · simp [hq]

/-! ## What a path leads to -/

theorem locate?_eq_some_iff :
    w.locate? path = some p ↔ path ≠ "" ∧ Path.isUsable path = true ∧ p = w.place path ∧
      (w.leads (w.origin path) (Path.steps path) = true ∨
        (w.leads (w.origin path) (Path.segments path).dropLast = true ∧
          (w.file? (w.place path)).isSome = true)) := by
  rw [locate?, leads_segments]
  by_cases hempty : path = ""
  · simp [hempty]
  · cases husable : Path.isUsable path with
    | false => simp
    | true => simp [hempty, @eq_comm _ p, and_comm]

/-- A folder is found by its names. -/
theorem locate?_of_isFolder (hne : path ≠ "") (husable : Path.isUsable path = true)
    (hnames : ∀ s ∈ Path.steps path, Path.isDots s = false)
    (h : w.isFolder (w.place path) = true) : w.locate? path = some (w.place path) := by
  rw [place, stepsTo_of_names hnames] at h
  exact locate?_eq_some_iff.2 ⟨hne, husable, rfl, .inl (leads_of_isFolder hnames h)⟩

/-! ## What removing comes to -/

/-- How a folder is removed. Cleared, it stays if its path leads through something in it; else it
goes, and its path ends with its name. -/
theorem removeFolder_cases (h : (w.removeFolder path).1 ≠ .failed) :
    (w.locate? path = none ∧ w.removeFolder path = (.absent, w)) ∨
    (w.locate? path = some (w.place path) ∧ w.isFolder (w.place path) = true ∧
      (((w.clear (w.place path)).leads (w.origin path) (Path.steps path).dropLast = false ∧
          w.removeFolder path = (.removed, w.clear (w.place path))) ∨
        (Path.EndsInName path ∧
          w.removeFolder path =
            (.removed, (w.clear (w.place path)).set (w.place path) none)))) := by
  rw [removeFolder] at h ⊢
  cases hlocate : w.locate? path with
  | none => exact .inl ⟨rfl, rfl⟩
  | some p =>
    obtain ⟨-, -, rfl, -⟩ := locate?_eq_some_iff.1 hlocate
    rw [hlocate] at h
    refine .inr ⟨rfl, ?_⟩
    simp only at h ⊢
    cases hfolder : w.isFolder (w.place path) with
    | false => simp [hfolder] at h
    | true =>
      refine ⟨rfl, ?_⟩
      simp only [hfolder, if_true] at h ⊢
      cases hleads : (w.clear (w.place path)).leads (w.origin path) (Path.steps path).dropLast with
      | false => exact .inl ⟨rfl, by simp⟩
      | true =>
        rw [hleads] at h
        rcases List.eq_nil_or_concat (Path.steps path) with hsteps | ⟨ss, name, hsteps⟩
        · simp [hsteps] at h
        · rw [List.concat_eq_append] at hsteps
          cases hdots : Path.isDots name with
          | true => simp [hsteps, hdots] at h
          | false => exact .inr ⟨⟨ss, name, hsteps, hdots⟩, by simp [hsteps, hdots]⟩

/-- A way whose last step is a name leads to no root. -/
theorem place_ne_nil (h : Path.EndsInName path) : w.place path ≠ [] := by
  obtain ⟨ss, name, hsteps, hname⟩ := h
  rw [place, hsteps, stepsTo_append, stepsTo_cons, stepTo_of_name hname]
  simp

/-- Whether a place is in the folder at another one, at any depth. -/
def IsIn (folder p : Place) : Prop :=
  folder <+: p ∧ p ≠ folder

instance (folder p : Place) : Decidable (IsIn folder p) :=
  inferInstanceAs (Decidable (folder <+: p ∧ p ≠ folder))

/-- **Removing takes away what is in the folder and nothing elsewhere.** -/
theorem emptied_removeFolder (h : (w.removeFolder path).1 ≠ .failed)
    (hfound : w.locate? path ≠ none) :
    w.isFolder (w.place path) = true ∧ w.Emptied (w.place path) (w.removeFolder path).2 := by
  rcases removeFolder_cases h with ⟨hnone, -⟩ | ⟨-, hfolder, ⟨-, hw⟩ | ⟨hname, hw⟩⟩
  · exact absurd hnone hfound
  · rw [hw]
    exact ⟨hfolder, emptied_clear hfolder⟩
  · rw [hw]
    have hget := get?_set_clear (place_ne_nil hname) hfolder
    refine ⟨hfolder, here_clear w _, fun q hq => ?_, fun q hq => .inl ?_⟩
    · rw [hget, if_neg hq]
    · rw [hget, if_pos hq]

/-- Either nothing was there, or what was in the folder is gone. -/
theorem removeFolder_eq_or_emptied (h : (w.removeFolder path).1 ≠ .failed) :
    (w.removeFolder path).2 = w ∨
      (w.isFolder (w.place path) = true ∧ w.Emptied (w.place path) (w.removeFolder path).2) := by
  cases hlocate : w.locate? path with
  | none => exact .inl (by simp [removeFolder, hlocate])
  | some p => exact .inr (emptied_removeFolder h (by simp [hlocate]))

/-! ## What is left -/

/-- Whether the folder at a path is found, or there is nothing yet and the path ends with a name, so
that it is found once it is made. -/
def Finds (w : Workspace) (path : String) : Prop :=
  w.locate? path ≠ none ∨ (w.get? (w.place path) = none ∧ Path.EndsInName path)

/-- What is left of a folder that was removed: the folder alone, since its path leads through
something in it, or nothing. -/
theorem removeFolder_of_finds (h : (w.removeFolder path).1 ≠ .failed) (hfinds : w.Finds path) :
    (w.isFolder (w.place path) = true ∧
      w.leads (w.origin path) (Path.steps path).dropLast = true ∧
      (w.clear (w.place path)).leads (w.origin path) (Path.steps path).dropLast = false ∧
      w.removeFolder path = (.removed, w.clear (w.place path))) ∨
    (Path.EndsInName path ∧ ∀ q, w.place path <+: q → (w.removeFolder path).2.get? q = none) := by
  rcases removeFolder_cases h with ⟨hlocate, hw⟩ | ⟨hlocate, hfolder, ⟨hgone, hw⟩ | ⟨hname, hw⟩⟩
  · obtain ⟨hnone, hname⟩ := hfinds.resolve_left (fun hne => hne hlocate)
    refine .inr ⟨hname, fun q hq => ?_⟩
    rw [hw]
    by_cases heq : q = w.place path
    · rw [heq, hnone]
    · exact get?_of_below (isFolder_of_get?_eq_none hnone) hq heq
  · obtain ⟨-, -, -, hleads | ⟨-, hfile⟩⟩ := locate?_eq_some_iff.1 hlocate
    · exact .inl ⟨hfolder, leads_dropLast hleads, hgone, hw⟩
    · rw [file?_of_isFolder hfolder] at hfile
      cases hfile
  · refine .inr ⟨hname, fun q hq => ?_⟩
    rw [hw, get?_set_clear (place_ne_nil hname) hfolder, if_pos hq]

/-- **No file is left in a folder that was removed.** -/
theorem file?_removeFolder_of_finds (h : (w.removeFolder path).1 ≠ .failed) (hfinds : w.Finds path)
    (hq : w.place path <+: q) : (w.removeFolder path).2.file? q = none := by
  rcases removeFolder_of_finds h hfinds with ⟨hfolder, -, -, hw⟩ | ⟨-, hnone⟩
  · rw [hw]
    exact (emptied_clear hfolder).file?_below hq
  · exact file?_of_get?_eq_none (hnone q hq)

/-! ## Removing again -/

theorem Emptied.fits (h : w.Emptied p v) (hp : w.isFolder p = true) : v.Fits w := by
  refine ⟨fun q hq => ?_, fun q hq => ?_⟩
  · by_cases hpre : p <+: q
    · rwa [h.eq_of_isFolder hpre hq]
    · rwa [h.isFolder_elsewhere hpre] at hq
  · by_cases hpre : p <+: q
    · rw [h.file?_below hpre] at hq
      cases hq
    · rwa [h.file?_elsewhere hpre] at hq

/-- A way that is gone once a folder is emptied leads through something in the folder, so it is gone
from every workspace in which that folder is empty. -/
theorem not_leads_of_emptied {folder : Place} (hw : w.Emptied folder w')
    (hv : v.Emptied folder v') (hfolder : w'.isFolder folder = true) (hleads : w.leads p ss = true)
    (hgone : w'.leads p ss = false) : v'.leads p ss = false := by
  induction ss generalizing p with
  | nil => cases hgone
  | cons s ss ih =>
    rw [leads, Bool.and_eq_true] at hleads
    rw [leads, Bool.and_eq_false_iff] at hgone ⊢
    rcases hgone with hstep | hrest
    · -- this step leads to a folder that is in the emptied one
      rw [Bool.or_eq_false_iff] at hstep
      have hthere : w.isFolder (stepTo p s) = true := by simpa [hstep.1] using hleads.1
      have hin : folder <+: stepTo p s := by
        by_cases hin : folder <+: stepTo p s
        · exact hin
        · rw [hw.isFolder_elsewhere hin, hthere] at hstep
          cases hstep.2
      refine .inl (Bool.or_eq_false_iff.2 ⟨hstep.1, ?_⟩)
      cases hv' : v'.isFolder (stepTo p s) with
      | false => rfl
      | true =>
        rw [hv.eq_of_isFolder hin hv', hfolder] at hstep
        cases hstep.2
    · exact .inr (ih hleads.2 hrest)

theorem removeFolder_of_endsInName (hlocate : w.locate? path = some p)
    (hfolder : w.isFolder p = true) (hname : Path.EndsInName path) :
    (w.removeFolder path).1 ≠ .failed := by
  obtain ⟨ss, name, hsteps, hdots⟩ := hname
  simp only [removeFolder, hlocate, hfolder, if_true]
  split
  · simp
  · simp [hsteps, hdots]

/-- **A folder that was removed once can be removed again**, whatever has come to be since, and what
was left then is left again. -/
theorem removeFolder_again (h : (w.removeFolder path).1 ≠ .failed) (hfinds : w.Finds path)
    (hhere : v.here = w.here) (hfits : (w.removeFolder path).2.Fits v)
    (hfile : v.file? (w.place path) = none) :
    (v.removeFolder path).1 ≠ .failed ∧
      (∀ q, (w.removeFolder path).2.isFolder q = true → (v.removeFolder path).2.isFolder q = true) ∧
      (v.removeFolder path).2.Fits v := by
  have hplace : v.place path = w.place path := place_congr hhere path
  have horigin : v.origin path = w.origin path := origin_congr hhere path
  cases hlocate : v.locate? path with
  | none =>
    have hv : v.removeFolder path = (.absent, v) := by rw [removeFolder, hlocate]
    rw [hv]
    exact ⟨by simp, hfits.isFolder, .refl v⟩
  | some p =>
    obtain ⟨-, -, rfl, hleads⟩ := locate?_eq_some_iff.1 hlocate
    have hfound : v.locate? path ≠ none := by simp [hlocate]
    rw [hplace, hfile] at hleads
    replace hleads := hleads.resolve_right (by simp)
    rcases removeFolder_of_finds h hfinds with ⟨hwfolder, hwleads, hgone, hw⟩ | ⟨hname, hnone⟩
    · -- the folder was left, and is left again
      rw [hw] at hfits ⊢
      have hvfolder : v.isFolder (w.place path) = true := hfits.isFolder _ (isFolder_clear hwfolder)
      have hwemptied := emptied_clear hwfolder
      have hvemptied := emptied_clear hvfolder
      have hv : v.removeFolder path = (.removed, v.clear (w.place path)) := by
        have hvgone :=
          not_leads_of_emptied hwemptied hvemptied (isFolder_clear hwfolder) hwleads hgone
        simp [removeFolder, hlocate, hplace, horigin, hvfolder, hvgone]
      rw [hv]
      refine ⟨by simp, fun q hq => ?_, hvemptied.fits hvfolder⟩
      by_cases hpre : w.place path <+: q
      · rw [hwemptied.eq_of_isFolder hpre hq]
        exact isFolder_clear hvfolder
      · rw [hvemptied.isFolder_elsewhere hpre]
        exact hfits.isFolder q hq
    · -- nothing was left
      have hvfolder : v.isFolder (v.place path) = true := by
        obtain ⟨ss, name, hsteps, hdots⟩ := hname
        rw [hsteps] at hleads
        rw [place, hsteps]
        exact isFolder_of_leads hleads hdots
      have hok := removeFolder_of_endsInName hlocate hvfolder hname
      obtain ⟨-, hemptied⟩ := emptied_removeFolder hok hfound
      refine ⟨hok, fun q hq => ?_, hemptied.fits hvfolder⟩
      have hout : ¬ v.place path <+: q := by
        rw [hplace]
        intro hpre
        rw [isFolder_of_get?_eq_none (hnone q hpre)] at hq
        cases hq
      rw [hemptied.isFolder_elsewhere hout]
      exact hfits.isFolder q hq

end ApiPages.Workspace
