import ApiPages.Proofs.Command.Places
import ApiPages.Proofs.Command.Plan

/-!
# Writing documents

What writing documents does to a workspace: each is at its place afterwards, there may be more
folders, and all else is as it was. Where it went well once it goes well again, from any workspace
between the two of that time (`writeDocuments_again`).
-/

namespace ApiPages.Workspace

variable {w v t : Workspace} {p q : Place} {s file folder content : String} {ss : List String}
  {docs : List (String × String)}

/-! ## Making folders -/

/-- Whether a workspace has more folders than another one, and is like it apart from them. -/
structure Grown (w v : Workspace) : Prop where
  here : v.here = w.here
  get? : ∀ q, v.get? q = w.get? q ∨ (w.get? q = none ∧ v.get? q = some .folder)

namespace Grown

theorem refl (w : Workspace) : w.Grown w :=
  ⟨rfl, fun _ => .inl rfl⟩

theorem trans (h : w.Grown v) (h' : v.Grown t) : w.Grown t := by
  refine ⟨h'.here.trans h.here, fun q => ?_⟩
  rcases h'.get? q with hq | ⟨hnone, hq⟩
  · rw [hq]
    exact h.get? q
  · rcases h.get? q with hq' | ⟨-, hq'⟩
    · exact .inr ⟨hq'.symm.trans hnone, hq⟩
    · rw [hnone] at hq'
      cases hq'

theorem isFolder (h : w.Grown v) (hq : w.isFolder q = true) : v.isFolder q = true := by
  rcases h.get? q with h | ⟨hnone, -⟩
  · rwa [isFolder_eq_of_get?_eq h]
  · rw [isFolder_of_get?_eq_none hnone] at hq
    cases hq

theorem file? (h : w.Grown v) (q : Place) : v.file? q = w.file? q := by
  rcases h.get? q with h | ⟨hnone, hfolder⟩
  · exact file?_eq_of_get?_eq h
  · rw [file?_of_get?_eq_none hnone, file?_of_isFolder (isFolder_iff.2 hfolder)]

end Grown

/-- Setting a folder where nothing was. -/
theorem grown_set (hp : w.isFolder p = true) (hnext : w.isFolder (p ++ [s]) = false)
    (hfile : w.file? (p ++ [s]) = none) :
    w.Grown (w.set (p ++ [s]) (some .folder)) ∧
      ∀ q, (w.set (p ++ [s]) (some .folder)).isFolder q = true ↔
        q = p ++ [s] ∨ w.isFolder q = true := by
  have hget := get?_set (w := w) (some .folder) (p := p ++ [s]) (by simp)
    (by rwa [List.dropLast_concat])
  have hnone : w.get? (p ++ [s]) = none := get?_eq_none_iff.2 ⟨hnext, hfile⟩
  have hq : ∀ q, (q = p ++ [s] ∧ (w.set (p ++ [s]) (some .folder)).get? q = some .folder) ∨
      (q ≠ p ++ [s] ∧ (w.set (p ++ [s]) (some .folder)).get? q = w.get? q) := by
    intro q
    rw [hget q]
    by_cases heq : q = p ++ [s]
    · exact .inl ⟨heq, by rw [heq, if_pos (List.prefix_refl _), if_pos rfl]⟩
    · refine .inr ⟨heq, ?_⟩
      by_cases hpre : p ++ [s] <+: q
      · rw [if_pos hpre, if_neg heq, get?_of_below hnext hpre heq]
      · rw [if_neg hpre]
  constructor
  · refine ⟨rfl, fun q => ?_⟩
    rcases hq q with ⟨rfl, h⟩ | ⟨-, h⟩
    · exact .inr ⟨hnone, h⟩
    · exact .inl h
  · intro q
    rcases hq q with ⟨rfl, h⟩ | ⟨hne, h⟩
    · exact iff_of_true (isFolder_iff.2 h) (.inl rfl)
    · rw [isFolder_eq_of_get?_eq h]
      exact (or_iff_right hne).symm

/-- How a folder is entered: it is there, or it is made. -/
theorem enter?_eq_some_iff :
    w.enter? p s = some v ↔
      ((Path.isDots s = true ∨ w.isFolder (stepTo p s) = true) ∧ v = w) ∨
      (stepTo p s = p ++ [s] ∧ Path.isDots s = false ∧ w.isFolder (p ++ [s]) = false ∧
        w.isFolder p = true ∧ w.file? (p ++ [s]) = none ∧ Path.isFileName s = true ∧
        v = w.set (p ++ [s]) (some .folder)) := by
  rw [enter?]
  cases hdots : Path.isDots s with
  | true => simp [@eq_comm _ w v]
  | false =>
    rw [stepTo_of_name hdots]
    cases hnext : w.isFolder (p ++ [s]) with
    | true => simp [@eq_comm _ w v]
    | false => simp [@eq_comm _ (w.set _ _) v, and_assoc]

theorem grown_enter (h : w.enter? p s = some v) : w.Grown v := by
  rcases enter?_eq_some_iff.1 h with ⟨-, rfl⟩ | ⟨-, -, hnext, hp, hfile, -, rfl⟩
  · exact .refl v
  · exact (grown_set hp hnext hfile).1

theorem makeFolders_of_enter (h : w.enter? p s = some v) :
    w.makeFolders p (s :: ss) = v.makeFolders (stepTo p s) ss := by
  rw [makeFolders, h]

theorem grown_makeFolders (w : Workspace) (p : Place) (ss : List String) :
    w.Grown (w.makeFolders p ss).2 := by
  induction ss generalizing w p with
  | nil => exact .refl w
  | cons s ss ih =>
    rw [makeFolders]
    cases h : w.enter? p s with
    | none => exact .refl w
    | some v => exact (grown_enter h).trans (ih v (stepTo p s))

/-- A folder that was entered once is entered again: it was there, or it can be made now. -/
theorem enter_again {w' : Workspace} (h : w.enter? p s = some w')
    (hfolders : ∀ q, w.isFolder q = true → v.isFolder q = true)
    (ht : ∀ q, w'.isFolder q = true → t.isFolder q = true) (hfits : v.Fits t) :
    ∃ v', v.enter? p s = some v' ∧ (∀ q, w'.isFolder q = true → v'.isFolder q = true) ∧
      v'.Fits t := by
  rcases enter?_eq_some_iff.1 h with ⟨hthere, rfl⟩ | ⟨hname, hdots, hnext, hp, hfile, hs, rfl⟩
  · exact ⟨v, enter?_eq_some_iff.2 (.inl ⟨hthere.imp_right (hfolders _), rfl⟩), hfolders, hfits⟩
  · have hmade := (grown_set hp hnext hfile).2
    have htnext : t.isFolder (p ++ [s]) = true := ht _ ((hmade _).2 (.inl rfl))
    cases hv : v.isFolder (p ++ [s]) with
    | true =>
      refine ⟨v, enter?_eq_some_iff.2 (.inl ⟨.inr (by rwa [hname]), rfl⟩), fun q hq => ?_, hfits⟩
      rcases (hmade q).1 hq with rfl | hq
      · exact hv
      · exact hfolders q hq
    | false =>
      -- nothing is in the way: what is there fits a workspace with the folder
      have hvfile := hfits.file?_of_isFolder htnext
      have hvp := hfolders p hp
      obtain ⟨hgrown, hvmade⟩ := grown_set hvp hv hvfile
      refine ⟨_, enter?_eq_some_iff.2 (.inr ⟨hname, hdots, hv, hvp, hvfile, hs, rfl⟩), ?_, ?_, ?_⟩
      · intro q hq
        exact (hvmade q).2 (((hmade q).1 hq).imp_right (hfolders q))
      · intro q hq
        rcases (hvmade q).1 hq with rfl | hq
        · exact htnext
        · exact hfits.isFolder q hq
      · intro q hq
        rw [hgrown.file?] at hq
        exact hfits.isFile q hq

/-- **Folders that were made once are made again**, from any workspace with the folders of that
time in which nothing is in the way. -/
theorem makeFolders_again (hok : (w.makeFolders p ss).1 = true)
    (hfolders : ∀ q, w.isFolder q = true → v.isFolder q = true)
    (ht : ∀ q, (w.makeFolders p ss).2.isFolder q = true → t.isFolder q = true)
    (hfits : v.Fits t) :
    (v.makeFolders p ss).1 = true ∧
      (∀ q, (w.makeFolders p ss).2.isFolder q = true → (v.makeFolders p ss).2.isFolder q = true) ∧
      (v.makeFolders p ss).2.Fits t := by
  induction ss generalizing w v p with
  | nil => exact ⟨rfl, hfolders, hfits⟩
  | cons s ss ih =>
    cases hw : w.enter? p s with
    | none =>
      rw [makeFolders, hw] at hok
      cases hok
    | some w' =>
      rw [makeFolders_of_enter hw] at hok ht ⊢
      have hw' : ∀ q, w'.isFolder q = true → t.isFolder q = true := fun q hq =>
        ht q ((grown_makeFolders w' _ ss).isFolder hq)
      obtain ⟨v', hv, hfolders', hfits'⟩ := enter_again hw hfolders hw' hfits
      rw [makeFolders_of_enter hv]
      exact ih hok hfolders' ht hfits'

theorem grown_makeFolder (w : Workspace) (path : String) : w.Grown (w.makeFolder path).2 := by
  rw [makeFolder]
  split
  · exact grown_makeFolders w _ _
  · exact .refl w

theorem makeFolder_again {path : String} (hok : (w.makeFolder path).1 = true)
    (hhere : v.here = w.here) (hfolders : ∀ q, w.isFolder q = true → v.isFolder q = true)
    (ht : ∀ q, (w.makeFolder path).2.isFolder q = true → t.isFolder q = true)
    (hfits : v.Fits t) :
    (v.makeFolder path).1 = true ∧
      (∀ q, (w.makeFolder path).2.isFolder q = true → (v.makeFolder path).2.isFolder q = true) ∧
      (v.makeFolder path).2.Fits t := by
  by_cases husable : Path.isUsable path = true
  · rw [makeFolder, if_pos husable] at hok ht ⊢
    rw [makeFolder, if_pos husable, origin_congr hhere]
    exact makeFolders_again hok hfolders ht hfits
  · rw [makeFolder, if_neg husable] at hok
    cases hok

/-! ## Writing a file -/

theorem isWritable_iff {path : String} :
    w.isWritable path = true ↔ ∃ ss name, Path.segments path = ss ++ [name] ∧
      Path.isUsable path = true ∧ Path.isFileName name = true ∧ Path.isDots name = false ∧
      w.leads (w.origin path) ss = true ∧ w.isFolder (w.place path).dropLast = true ∧
      w.isFolder (w.place path) = false := by
  rw [isWritable]
  rcases List.eq_nil_or_concat (Path.segments path) with h | ⟨ss, name, h⟩
  · simp [h]
  · rw [List.concat_eq_append] at h
    simp [h, and_assoc]

/-- What a file that is written changes: its own place. -/
theorem set_file {path : String} (h : w.isWritable path = true) (content : String) :
    (∀ q, (w.set (w.place path) (some (.file content))).file? q =
      if q = w.place path then some content else w.file? q) ∧
    ∀ q, (w.set (w.place path) (some (.file content))).isFolder q = w.isFolder q := by
  obtain ⟨-, -, -, -, -, -, -, hfolder, hplace⟩ := isWritable_iff.1 h
  have hne : w.place path ≠ [] := by
    intro heq
    rw [heq, isFolder_root] at hplace
    cases hplace
  have hq : ∀ q, (q = w.place path ∧
      (w.set (w.place path) (some (.file content))).get? q = some (.file content)) ∨
      (q ≠ w.place path ∧ (w.set (w.place path) (some (.file content))).get? q = w.get? q) := by
    intro q
    rw [get?_set _ hne hfolder]
    by_cases heq : q = w.place path
    · exact .inl ⟨heq, by rw [heq, if_pos (List.prefix_refl _), if_pos rfl]⟩
    · refine .inr ⟨heq, ?_⟩
      by_cases hpre : w.place path <+: q
      · rw [if_pos hpre, if_neg heq, get?_of_below hplace hpre heq]
      · rw [if_neg hpre]
  constructor
  · intro q
    rcases hq q with ⟨rfl, h⟩ | ⟨hne, h⟩
    · rw [if_pos rfl, file?_eq_some_iff, h]
    · rw [if_neg hne, file?_eq_of_get?_eq h]
  · intro q
    rcases hq q with ⟨rfl, h⟩ | ⟨-, h⟩
    · rw [hplace, isFolder, h]
      rfl
    · exact isFolder_eq_of_get?_eq h

/-! ## Writing a document -/

/-- Whether a file can be written once the folders around it are made. -/
def canWrite (w : Workspace) (file : String) : Bool :=
  (w.makeFolder (Path.parent file)).1 && (w.makeFolder (Path.parent file)).2.isWritable file

/-- The workspace with the folders around a file, and the file. -/
def written (w : Workspace) (file content : String) : Workspace :=
  (w.makeFolder (Path.parent file)).2.set (w.place file) (some (.file content))

theorem written_spec (h : w.canWrite file = true) (content : String) :
    (w.written file content).here = w.here ∧
    (∀ q, (w.written file content).file? q = if q = w.place file then some content else w.file? q) ∧
    (∀ q, (w.written file content).isFolder q = (w.makeFolder (Path.parent file)).2.isFolder q) ∧
    (w.written file content).isFolder (w.place file).dropLast = true := by
  have hgrown := grown_makeFolder w (Path.parent file)
  have hplace := place_congr hgrown.here file
  rw [canWrite, Bool.and_eq_true] at h
  obtain ⟨hfile, hfolder⟩ := set_file h.2 content
  obtain ⟨-, -, -, -, -, -, -, hparent, -⟩ := isWritable_iff.1 h.2
  rw [hplace] at hfile hfolder hparent
  rw [written, here_set]
  refine ⟨hgrown.here, fun q => ?_, hfolder, ?_⟩
  · rw [hfile, hgrown.file?]
  · rw [hfolder, hparent]

theorem fits_written (h : w.canWrite file = true) (content : String) :
    w.Fits (w.written file content) := by
  obtain ⟨-, hfile, hfolder, -⟩ := written_spec h content
  refine ⟨fun q hq => ?_, fun q hq => ?_⟩
  · rw [hfolder]
    exact (grown_makeFolder w _).isFolder hq
  · rw [hfile]
    split
    · rfl
    · exact hq

/-- A document that was written once is written again. -/
theorem written_again (h : w.canWrite file = true) (hhere : v.here = w.here)
    (hfolders : ∀ q, w.isFolder q = true → v.isFolder q = true)
    (ht : (w.written file content).Fits t) (hfits : v.Fits t) :
    v.canWrite file = true ∧
      (∀ q, (w.written file content).isFolder q = true →
        (v.written file content).isFolder q = true) ∧
      (v.written file content).Fits t := by
  obtain ⟨-, hwfile, hwfolder, -⟩ := written_spec h content
  rw [canWrite, Bool.and_eq_true] at h
  have hmade : ∀ q, (w.makeFolder (Path.parent file)).2.isFolder q = true → t.isFolder q = true :=
    fun q hq => ht.isFolder q (by rwa [hwfolder])
  obtain ⟨hok, hfolders', hfits'⟩ := makeFolder_again h.1 hhere hfolders hmade hfits
  have hgrown := grown_makeFolder w (Path.parent file)
  have hgrown' := grown_makeFolder v (Path.parent file)
  have hplace : v.place file = w.place file := place_congr hhere file
  have hcan : v.canWrite file = true := by
    obtain ⟨ss, name, hsegments, husable, hname, hdots, hleads, hparent, -⟩ := isWritable_iff.1 h.2
    have horigin := origin_congr hgrown.here file
    rw [place_congr hgrown.here] at hparent
    rw [canWrite, Bool.and_eq_true]
    refine ⟨hok, isWritable_iff.2 ⟨ss, name, hsegments, husable, hname, hdots, ?_, ?_, ?_⟩⟩
    · rw [origin_congr (hgrown'.here.trans hhere)]
      rw [horigin] at hleads
      exact leads_of_trail hleads fun q _ => hfolders' q
    · rw [place_congr hgrown'.here, hplace]
      exact hfolders' _ hparent
    · -- no folder is at a place where a file is to come
      rw [place_congr hgrown'.here, hplace]
      cases hfolder : (v.makeFolder (Path.parent file)).2.isFolder (w.place file) with
      | false => rfl
      | true =>
        have hfile := ht.file?_of_isFolder (hfits'.isFolder _ hfolder)
        rw [hwfile, if_pos rfl] at hfile
        cases hfile
  obtain ⟨-, hvfile, hvfolder, -⟩ := written_spec hcan content
  refine ⟨hcan, fun q hq => ?_, fun q hq => ?_, fun q hq => ?_⟩
  · rw [hvfolder]
    rw [hwfolder] at hq
    exact hfolders' q hq
  · rw [hvfolder] at hq
    exact hfits'.isFolder q hq
  · rw [hvfile, hplace] at hq
    split at hq
    · next heq => exact ht.isFile q (by rw [hwfile, if_pos heq]; rfl)
    · exact hfits.isFile q hq

/-! ## Writing documents -/

open Command (writeDocuments)

theorem access_makeFolder (w : Workspace) (path : String) :
    access.makeFolder path w = w.makeFolder path :=
  rfl

theorem access_write (w : Workspace) (path content : String) :
    access.write path content w = w.writeFile path content :=
  rfl

theorem writeDocuments_nil_iff : writeDocuments access folder [] w = (.ok (), v) ↔ v = w := by
  constructor
  · intro h
    exact (congrArg Prod.snd h).symm
  · rintro rfl
    rfl

theorem writeDocuments_cons_iff {path : String} :
    writeDocuments access folder ((path, content) :: docs) w = (.ok (), v) ↔
      w.canWrite (Path.join folder path) = true ∧
        writeDocuments access folder docs (w.written (Path.join folder path) content) =
          (.ok (), v) := by
  have hplace := place_congr (grown_makeFolder w (Path.parent (Path.join folder path))).here
    (Path.join folder path)
  rw [writeDocuments, Command.bind_apply, access_makeFolder, canWrite, written]
  cases hmade : w.makeFolder (Path.parent (Path.join folder path)) with
  | mk ok made =>
    rw [hmade] at hplace
    cases ok with
    | false => exact iff_of_false (by rintro ⟨⟩) (by simp)
    | true =>
      simp only [if_true, Bool.true_and]
      rw [Command.bind_apply, access_write, writeFile]
      split
      · next hwritable => simp [hwritable, hplace]
      · next hwritable => exact iff_of_false (by rintro ⟨⟩) (by simp [hwritable])

/-- The places that documents go to from a folder. -/
def placesOf (w : Workspace) (folder : String) (docs : List (String × String)) : List Place :=
  docs.map fun d => w.place (Path.join folder d.1)

theorem placesOf_congr (h : v.here = w.here) (folder : String) (docs : List (String × String)) :
    v.placesOf folder docs = w.placesOf folder docs := by
  simp only [placesOf, place_congr h]

/-- **Writing documents changes no other files**, and leaves all folders. -/
theorem writeDocuments_frame (h : writeDocuments access folder docs w = (.ok (), v)) :
    v.here = w.here ∧ w.Fits v ∧ ∀ q, q ∉ w.placesOf folder docs → v.file? q = w.file? q := by
  induction docs generalizing w with
  | nil =>
    obtain rfl := writeDocuments_nil_iff.1 h
    exact ⟨rfl, .refl v, fun _ _ => rfl⟩
  | cons d docs ih =>
    obtain ⟨hcan, hrest⟩ := writeDocuments_cons_iff.1 h
    obtain ⟨hhere, hfile, -, -⟩ := written_spec hcan d.2
    obtain ⟨ihhere, ihfits, ihfile⟩ := ih hrest
    refine ⟨ihhere.trans hhere, (fits_written hcan d.2).trans ihfits, fun q hq => ?_⟩
    rw [placesOf, List.map_cons, List.mem_cons, not_or] at hq
    rw [ihfile q (by rw [placesOf_congr hhere]; exact hq.2), hfile, if_neg hq.1]

/-- **Documents at different places are all there** once they are written, each in a folder. -/
theorem writeDocuments_documents (h : writeDocuments access folder docs w = (.ok (), v))
    (hdistinct : (w.placesOf folder docs).Nodup) :
    ∀ d ∈ docs, v.file? (w.place (Path.join folder d.1)) = some d.2 ∧
      v.isFolder (w.place (Path.join folder d.1)).dropLast = true ∧
      Path.isUsable (Path.join folder d.1) = true := by
  induction docs generalizing w with
  | nil => simp
  | cons d docs ih =>
    obtain ⟨hcan, hrest⟩ := writeDocuments_cons_iff.1 h
    obtain ⟨hhere, hfile, -, hparent⟩ := written_spec hcan d.2
    obtain ⟨-, hfits, hframe⟩ := writeDocuments_frame hrest
    rw [placesOf, List.map_cons, List.nodup_cons] at hdistinct
    have hplaces := placesOf_congr hhere folder docs
    rw [List.forall_mem_cons]
    refine ⟨⟨?_, hfits.isFolder _ hparent, ?_⟩, fun e he => ?_⟩
    · rw [hframe _ (by rw [hplaces]; exact hdistinct.1), hfile, if_pos rfl]
    · rw [canWrite, Bool.and_eq_true] at hcan
      obtain ⟨-, -, -, husable, -⟩ := isWritable_iff.1 hcan.2
      exact husable
    · have hmem := ih hrest (by rw [hplaces]; exact hdistinct.2) e he
      rwa [place_congr hhere] at hmem

/-- **Documents that were written once are written again**, from any workspace with the folders of
that time and with nothing that the one afterwards has not. -/
theorem writeDocuments_again (h : writeDocuments access folder docs w = (.ok (), t))
    (hhere : v.here = w.here) (hfolders : ∀ q, w.isFolder q = true → v.isFolder q = true)
    (hfits : v.Fits t) : ∃ u, writeDocuments access folder docs v = (.ok (), u) := by
  induction docs generalizing w v with
  | nil => exact ⟨v, writeDocuments_nil_iff.2 rfl⟩
  | cons d docs ih =>
    obtain ⟨hcan, hrest⟩ := writeDocuments_cons_iff.1 h
    obtain ⟨hwhere, -, -, -⟩ := written_spec hcan d.2
    obtain ⟨-, ht, -⟩ := writeDocuments_frame hrest
    obtain ⟨hcan', hfolders', hfits'⟩ := written_again hcan hhere hfolders ht hfits
    obtain ⟨hvhere, -, -, -⟩ := written_spec hcan' d.2
    obtain ⟨u, hu⟩ := ih hrest (hvhere.trans (hhere.trans hwhere.symm)) hfolders' hfits'
    exact ⟨u, writeDocuments_cons_iff.2 ⟨hcan', hu⟩⟩

end ApiPages.Workspace
