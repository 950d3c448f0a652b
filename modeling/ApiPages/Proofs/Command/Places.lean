import ApiPages.Command.Workspace

/-!
# Places in a workspace

What is at a place before and after something is set or cleared away, and where steps lead. A path
that leads to a folder still does when there are more folders (`leads_of_trail`), and without steps
of dots it leads to its own names (`stepsTo_of_names`).
-/

namespace ApiPages

namespace Path

theorem not_isDots_iff {step : String} : isDots step = false ↔ step ≠ "." ∧ step ≠ ".." := by
  simp [isDots]

/-- Whether the last step of a path is a name. -/
def EndsInName (path : String) : Prop :=
  ∃ ss name, steps path = ss ++ [name] ∧ isDots name = false

/-- A slash at the end adds a step that leads nowhere else. -/
theorem segments_eq (path : String) :
    segments path = steps path ∨ segments path = steps path ++ ["."] := by
  unfold segments
  split
  · exact .inr rfl
  · exact .inl (List.append_nil _)

end Path

namespace Workspace

variable {w v t : Workspace} {p q : Place} {s content : String} {ss ts : List String}

/-! ## What is at a place -/

theorem isFolder_iff : w.isFolder p = true ↔ w.get? p = some .folder := by
  simp [isFolder]

theorem file?_eq_some_iff : w.file? p = some content ↔ w.get? p = some (.file content) := by
  unfold file?
  split
  · next c h => simp [h]
  · next h => simpa using fun hc => h content hc

theorem file?_eq_of_get?_eq (h : v.get? p = w.get? p) : v.file? p = w.file? p := by
  rw [file?, file?, h]

theorem isFolder_eq_of_get?_eq (h : v.get? p = w.get? p) : v.isFolder p = w.isFolder p := by
  rw [isFolder, isFolder, h]

theorem file?_of_isFolder (h : w.isFolder p = true) : w.file? p = none := by
  rw [file?, isFolder_iff.1 h]

theorem file?_of_get?_eq_none (h : w.get? p = none) : w.file? p = none := by
  rw [file?, h]

theorem isFolder_of_get?_eq_none (h : w.get? p = none) : w.isFolder p = false := by
  rw [isFolder, h]
  rfl

/-- There is a folder, a file or nothing. -/
theorem get?_eq_none_iff : w.get? p = none ↔ w.isFolder p = false ∧ w.file? p = none := by
  rw [isFolder, file?]
  cases w.get? p with
  | none => simp
  | some e => cases e <;> simp

@[simp] theorem isFolder_root (w : Workspace) : w.isFolder [] = true := by
  simp [isFolder, get?]

/-- Nothing is below a place that is no folder. -/
theorem get?_of_below (h : w.isFolder p = false) (hq : p <+: q) (hne : q ≠ p) :
    w.get? q = none := by
  obtain ⟨r, rfl⟩ := hq
  have hr : r ≠ [] := by
    rintro rfl
    exact hne (List.append_nil p)
  obtain ⟨n, r, rfl⟩ := List.exists_cons_of_ne_nil hr
  rw [isFolder, decide_eq_false_iff_not] at h
  exact Listing.get?_append_cons h n r

theorem isFolder_of_below (h : w.isFolder q = true) (hq : p <+: q) : w.isFolder p = true := by
  by_cases hne : q = p
  · rwa [← hne]
  · cases hp : w.isFolder p with
    | true => rfl
    | false =>
      rw [isFolder_iff, get?_of_below hp hq hne] at h
      cases h

/-! ## What fits -/

/-- Whether what stands in one workspace stands in another, files perhaps with another content. -/
structure Fits (w v : Workspace) : Prop where
  isFolder : ∀ q, w.isFolder q = true → v.isFolder q = true
  isFile : ∀ q, (w.file? q).isSome = true → (v.file? q).isSome = true

theorem Fits.file?_of_isFolder (h : w.Fits v) (hq : v.isFolder q = true) : w.file? q = none := by
  cases hfile : w.file? q with
  | none => rfl
  | some c =>
    have hv := h.isFile q (by simp [hfile])
    rw [Workspace.file?_of_isFolder hq] at hv
    cases hv

theorem Fits.refl (w : Workspace) : w.Fits w :=
  ⟨fun _ h => h, fun _ h => h⟩

theorem Fits.trans (h : w.Fits v) (h' : v.Fits t) : w.Fits t :=
  ⟨fun q hq => h'.isFolder q (h.isFolder q hq), fun q hq => h'.isFile q (h.isFile q hq)⟩

/-! ## What setting and clearing do -/

@[simp] theorem here_set (w : Workspace) (p : Place) (e : Option Entry) :
    (w.set p e).here = w.here :=
  rfl

@[simp] theorem here_clear (w : Workspace) (p : Place) : (w.clear p).here = w.here := by
  unfold clear
  split <;> rfl

theorem get?_set (e : Option Entry) (hp : p ≠ []) (h : w.isFolder p.dropLast = true) (q : Place) :
    (w.set p e).get? q = if p <+: q then (if q = p then e else none) else w.get? q :=
  Listing.get?_set e hp (isFolder_iff.1 h) q

/-- Clearing leaves the folder, and nothing in it. -/
theorem get?_clear (h : w.isFolder p = true) (q : Place) :
    (w.clear p).get? q =
      if p <+: q then (if q = p then some .folder else none) else w.get? q := by
  unfold clear
  split
  · next hp =>
    subst hp
    cases q <;> simp [get?]
  · next hp => exact get?_set _ hp (isFolder_of_below h (List.dropLast_prefix p)) q

theorem isFolder_clear (h : w.isFolder p = true) : (w.clear p).isFolder p = true := by
  rw [isFolder_iff, get?_clear h, if_pos (List.prefix_refl p), if_pos rfl]

/-! ## Where steps lead -/

theorem stepTo_of_name (h : Path.isDots s = false) (p : Place) : stepTo p s = p ++ [s] := by
  obtain ⟨hdot, hdots⟩ := Path.not_isDots_iff.1 h
  rw [stepTo, if_neg hdot, if_neg hdots]

@[simp] theorem stepsTo_nil (p : Place) : stepsTo p [] = p := rfl

@[simp] theorem stepsTo_cons (p : Place) (s : String) (ss : List String) :
    stepsTo p (s :: ss) = stepsTo (stepTo p s) ss := rfl

theorem stepsTo_append (p : Place) (ss ts : List String) :
    stepsTo p (ss ++ ts) = stepsTo (stepsTo p ss) ts :=
  List.foldl_append

/-- Names lead to themselves. -/
theorem stepsTo_of_names (h : ∀ s ∈ ss, Path.isDots s = false) (p : Place) :
    stepsTo p ss = p ++ ss := by
  induction ss generalizing p with
  | nil => simp
  | cons s ss ih =>
    rw [List.forall_mem_cons] at h
    rw [stepsTo_cons, ih h.2, stepTo_of_name h.1, List.append_assoc, List.singleton_append]

theorem place_congr (h : v.here = w.here) (path : String) : v.place path = w.place path := by
  rw [place, place, origin, origin, h]

theorem origin_congr (h : v.here = w.here) (path : String) : v.origin path = w.origin path := by
  rw [origin, origin, h]

/-! ## Ways through folders -/

/-- The places that the names among steps lead to. -/
def trail (p : Place) : List String → List Place
  | [] => []
  | s :: ss => (if Path.isDots s then [] else [stepTo p s]) ++ trail (stepTo p s) ss

theorem trail_append (p : Place) (ss ts : List String) :
    trail p (ss ++ ts) = trail p ss ++ trail (stepsTo p ss) ts := by
  induction ss generalizing p with
  | nil => rfl
  | cons s ss ih => rw [List.cons_append, trail, ih, trail, List.append_assoc, stepsTo_cons]

theorem leads_append (w : Workspace) (p : Place) (ss ts : List String) :
    w.leads p (ss ++ ts) = (w.leads p ss && w.leads (stepsTo p ss) ts) := by
  induction ss generalizing p with
  | nil => rfl
  | cons s ss ih => rw [List.cons_append, leads, ih, leads, stepsTo_cons, Bool.and_assoc]

theorem leads_segments (w : Workspace) (p : Place) (path : String) :
    w.leads p (Path.segments path) = w.leads p (Path.steps path) := by
  rcases Path.segments_eq path with h | h
  · rw [h]
  · rw [h, leads_append]
    simp [leads, Path.isDots]

theorem leads_dropLast (h : w.leads p ss = true) : w.leads p ss.dropLast = true := by
  rcases List.eq_nil_or_concat ss with rfl | ⟨ts, s, rfl⟩
  · exact h
  · rw [List.concat_eq_append, leads_append, Bool.and_eq_true] at h
    rw [List.concat_eq_append, List.dropLast_concat]
    exact h.1

/-- **A way leads on where its folders are still there.** -/
theorem leads_of_trail (h : w.leads p ss = true)
    (hkeep : ∀ t ∈ trail p ss, w.isFolder t = true → v.isFolder t = true) :
    v.leads p ss = true := by
  induction ss generalizing p with
  | nil => rfl
  | cons s ss ih =>
    rw [trail, List.forall_mem_append] at hkeep
    rw [leads, Bool.and_eq_true, Bool.or_eq_true] at h ⊢
    refine ⟨?_, ih h.2 hkeep.2⟩
    cases hs : Path.isDots s with
    | true => exact .inl rfl
    | false =>
      have hthere : w.isFolder (stepTo p s) = true := by simpa [hs] using h.1
      exact .inr (hkeep.1 _ (by simp [hs]) hthere)

/-- A way whose last step is a name leads to a folder that is there. -/
theorem isFolder_of_leads (h : w.leads p (ss ++ [s]) = true) (hs : Path.isDots s = false) :
    w.isFolder (stepsTo p (ss ++ [s])) = true := by
  rw [leads_append, Bool.and_eq_true, leads, hs] at h
  rw [stepsTo_append, stepsTo_cons, stepsTo_nil]
  simpa [leads] using h.2

/-- To a folder that is there, its names lead. -/
theorem leads_of_isFolder (hss : ∀ s ∈ ss, Path.isDots s = false)
    (h : w.isFolder (p ++ ss) = true) : w.leads p ss = true := by
  induction ss generalizing p with
  | nil => rfl
  | cons s ss ih =>
    rw [List.forall_mem_cons] at hss
    have hassoc : p ++ s :: ss = p ++ [s] ++ ss := by simp
    rw [hassoc] at h
    have hnext : w.isFolder (p ++ [s]) = true := isFolder_of_below h (List.prefix_append _ _)
    rw [leads, stepTo_of_name hss.1, hnext, ih hss.2 h]
    simp

end Workspace

end ApiPages
