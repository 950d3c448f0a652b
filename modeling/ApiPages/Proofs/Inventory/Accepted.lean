import ApiPages.Proofs.Declaration.Placement
import ApiPages.Proofs.Documents.DocumentSet
import ApiPages.Proofs.Inventory.ImpliedAccess
import ApiPages.Proofs.Text.Trimmed

/-!
# Accepted inventories

Records are judged while they become declarations, and declarations are judged again before they are
written. The second judgement finds nothing that the first has let pass: an inventory that is read
gives documents, whatever the settings and the time (`ofText_of_read`).
-/

namespace ApiPages

/-! ## Records -/

namespace Record

open Declaration (check checkMembers checkFrom checkStructure)

variable {path : RecordPath} {parent : Option Kind} {ds : List Declaration} {d : Declaration}

/-- The name of an accepted record is not blank: it was looked at without the blanks around it. -/
theorem isBlankText_of_heading {kind name : Option String} {k : Kind} {n : String}
    (h : heading path parent kind name = .ok (k, n)) : Text.isBlankText n = false := by
  obtain ⟨-, hname, -⟩ := heading_eq_ok h
  obtain ⟨hmem, hne⟩ := Option.filter_eq_some_iff.1 hname
  obtain ⟨given, -, rfl⟩ := Option.map_eq_some_iff.1 hmem
  exact Text.isBlankText_trim (by simpa using hne)

mutual

/-- An accepted record is a declaration without a fault where the record stands. -/
theorem check_declaration (path : RecordPath) (parent : Option Kind) : (r : Record) →
    {d : Declaration} → r.declaration path parent = .ok d → d.check path parent = .ok ()
  | ⟨kind, name, access, signature, documentation, comment, inheritance, members, location⟩, d,
      h => by
    obtain ⟨hheading, hmembers, -⟩ := declaration_eq_ok h
    obtain ⟨-, -, hplace⟩ := heading_eq_ok hheading
    have hnamed := isBlankText_of_heading hheading
    have hchecked := checkMembers_declarationsOf path 0 d.kind members hmembers
    cases d
    rw [check, if_neg (by simp [hnamed]), if_neg (by simp [hplace])]
    exact hchecked

theorem checkMembers_declarationsOf (path : RecordPath) (i : Nat) (parent : Kind) :
    (rs : List Record) → {ds : List Declaration} → declarationsOf path i parent rs = .ok ds →
      checkMembers path i parent ds = .ok ()
  | [], ds, h => by
    obtain rfl := Except.ok.inj h
    rfl
  | r :: rs, ds, h => by
    rw [declarationsOf] at h
    split at h
    · simp at h
    · next d hd =>
      split at h
      · simp at h
      · next es hes =>
        obtain rfl := Except.ok.inj h
        rw [checkMembers, check_declaration (path.member i) (some parent) r hd]
        exact checkMembers_declarationsOf path (i + 1) parent rs hes

end

theorem checkFrom_declarationsFrom {i : Nat} {rs : List Record}
    (h : declarationsFrom i rs = .ok ds) : checkFrom i ds = .ok () := by
  induction rs generalizing i ds with
  | nil =>
    obtain rfl := Except.ok.inj h
    rfl
  | cons r rs ih =>
    rw [declarationsFrom] at h
    split at h
    · simp at h
    · next d hd =>
      split at h
      · simp at h
      · next es hes =>
        obtain rfl := Except.ok.inj h
        rw [checkFrom, check_declaration ⟨i, []⟩ none r hd]
        exact ih hes

end Record

/-! ## Inventories -/

theorem Inventory.checkStructure_of_read {text : String} {inventory : Inventory}
    (h : read text = .ok inventory) :
    Declaration.checkStructure inventory.declarations = .ok () := by
  unfold read at h
  split at h
  · simp at h
  · split at h
    · simp at h
    · split at h
      · simp at h
      · split at h
        · simp at h
        · next ds hds =>
          obtain rfl := Except.ok.inj h
          exact Record.checkFrom_declarationsFrom hds

namespace Documents

/-- **An inventory that is read gives documents**, so all that can keep a text from giving documents
is what keeps it from being read. -/
theorem ofText_of_read (settings : Settings) (time : Option String) (text : String) :
    (∀ inventory, Inventory.read text = .ok inventory →
      Declaration.checkStructure inventory.declarations = .ok () ∧
      ∃ docs, ofInventory settings time inventory = .ok docs ∧
        ofText settings time text = .ok docs) ∧
    ∀ e, ofText settings time text = .error e ↔ Inventory.read text = .error e := by
  have hread : ∀ inventory, Inventory.read text = .ok inventory →
      Declaration.checkStructure inventory.declarations = .ok () ∧
      ∃ docs, ofInventory settings time inventory = .ok docs ∧
        ofText settings time text = .ok docs := by
    intro inventory h
    have hsound := Inventory.checkStructure_of_read h
    have hdocs : ofInventory settings time inventory = .ok _ := generate_eq_stamp time hsound
    refine ⟨hsound, _, hdocs, ?_⟩
    rw [ofText, h]
    simp only [hdocs]
  refine ⟨hread, fun e => ?_⟩
  cases h : Inventory.read text with
  | error e' => simp [ofText, h]
  | ok inventory =>
    obtain ⟨-, docs, -, hdocs⟩ := hread inventory h
    simp [hdocs]

/-- A case in an extension, whose name has blanks around it. -/
theorem ofText_of_extensionCase :
    let text := "[\x7b\"kind\":\"Extension\",\"name\":\" Planet \"," ++
      "\"members\":[\x7b\"kind\":\"case\",\"name\":\"mars\"\x7d]\x7d]"
    ∃ inventory docs, Inventory.read text = .ok inventory ∧
      inventory.declarations.map (·.name) = ["Planet"] ∧
      Declaration.checkStructure inventory.declarations = .ok () ∧
      ofText .standard none text = .ok docs := by
  intro text
  have hnames : (Inventory.read text).toOption.map (fun i => i.declarations.map (·.name)) =
      some ["Planet"] := by
    decide +kernel
  cases hread : Inventory.read text with
  | error e =>
    rw [hread] at hnames
    simp [Except.toOption] at hnames
  | ok inventory =>
    rw [hread] at hnames
    obtain ⟨hsound, docs, -, hdocs⟩ := (ofText_of_read .standard none text).1 inventory hread
    exact ⟨inventory, docs, rfl, Option.some.inj hnames, hsound, hdocs⟩

end Documents

end ApiPages
