import ApiPages.Proofs.Declaration.Visible

/-!
# What a level admits

Declarations are thinned by deleting some of them, at any depth and each with all that is below it.
Of all the ways to thin a list until everything left meets a level and every extension left has
members, the level deletes the least (`visible_largest`). Two levels one after the other leave what
the stricter one leaves (`visible_stricter`).
-/

namespace ApiPages.Declaration

variable {least : Access} {d : Declaration} {ds ps : List Declaration}

/-! ## Thinning -/

/-- Whether the second list is the first one with declarations deleted: in the list or below what
stays in it, each with all that is below it. What stays is in its order and has all else that it
had. -/
inductive Thinned : List Declaration → List Declaration → Prop
  | nil : Thinned [] []
  | delete (d : Declaration) {ds ps : List Declaration} : Thinned ds ps → Thinned (d :: ds) ps
  | retain (d : Declaration) {members ds ps : List Declaration} :
      Thinned d.members members → Thinned ds ps →
      Thinned (d :: ds) ({ d with members := members } :: ps)

theorem Thinned.eq_nil (h : Thinned [] ps) : ps = [] := by
  cases h
  rfl

/-! ## What is admitted -/

/-- Whether a declaration meets a level and, if it is an extension, has members. -/
structure Admitted (least : Access) (d : Declaration) : Prop where
  meets : d.access.meets least = true
  inhabited : d.isExtension = true → d.members ≠ []

/-- Whether every declaration in a list of trees meets a level and no extension is empty. -/
def Admissible (least : Access) (ds : List Declaration) : Prop :=
  Everywhere (Admitted least) ds

/-- What is visible of a declaration is admitted, whatever is visible of its members. -/
theorem admitted_of_visible? {d' : Declaration} (h : visible? least d = some d') :
    Admitted least d' := by
  obtain ⟨hmeets, hinhabited, rfl⟩ := visible?_eq_some_iff.1 h
  exact ⟨hmeets, fun hext hnil => hinhabited ⟨of_decide_eq_true hext, hnil⟩⟩

theorem admissible_visible (least : Access) (ds : List Declaration) :
    Admissible least (visible least ds) := by
  have hall : Everywhere (fun _ => True) ds := fun _ _ => trivial
  exact everywhere_visible_of (fun _ _ hvis _ => admitted_of_visible? hvis) hall

/-! ## A level thins -/

theorem visible_cons_of_none (h : visible? least d = none) :
    visible least (d :: ds) = visible least ds := by
  rw [visible, h]

theorem visible_cons_of_some {d' : Declaration} (h : visible? least d = some d') :
    visible least (d :: ds) = d' :: visible least ds := by
  rw [visible, h]

theorem thinned_visible_of (h : ∀ d ∈ ds, Thinned d.members (visible least d.members)) :
    Thinned ds (visible least ds) := by
  induction ds with
  | nil => exact .nil
  | cons d ds ih =>
    obtain ⟨hd, hds⟩ := List.forall_mem_cons.1 h
    cases hvis : visible? least d with
    | none =>
      rw [visible_cons_of_none hvis]
      exact .delete d (ih hds)
    | some d' =>
      rw [visible_cons_of_some hvis, (visible?_eq_some hvis).2]
      exact .retain d hd (ih hds)

theorem thinned_visible (least : Access) (ds : List Declaration) :
    Thinned ds (visible least ds) := by
  have hmembers : ∀ d : Declaration, Thinned d.members (visible least d.members) := by
    intro d
    induction d using induct with
    | step d ih => exact thinned_visible_of ih
  exact thinned_visible_of fun d _ => hmembers d

/-! ## It deletes the least -/

/-- A declaration is visible if it meets the level and, being an extension, keeps members when it is
thinned further. -/
theorem visible?_of_admitted {members : List Declaration}
    (hadmitted : Admitted least { d with members := members })
    (hmembers : Thinned (visible least d.members) members) :
    visible? least d = some { d with members := visible least d.members } := by
  refine visible?_eq_some_iff.2 ⟨hadmitted.meets, ?_, rfl⟩
  rintro ⟨hkind, hnil⟩
  rw [hnil] at hmembers
  exact hadmitted.inhabited (decide_eq_true hkind) hmembers.eq_nil

/-- Whatever is admissible and left by deleting declarations is left by deleting from what is
visible. -/
theorem Thinned.visible (h : Thinned ds ps) (hps : Admissible least ps) :
    Thinned (Declaration.visible least ds) ps := by
  induction h with
  | nil => exact .nil
  | delete d _ ih =>
    cases hvis : visible? least d with
    | none =>
      rw [visible_cons_of_none hvis]
      exact ih hps
    | some d' =>
      rw [visible_cons_of_some hvis]
      exact .delete d' (ih hps)
  | retain d _ _ ihmembers ih =>
    -- what stays was admitted with fewer members than it shows, so it is shown
    obtain ⟨hadmitted, hmembers, hrest⟩ := everywhere_cons.1 hps
    rw [visible_cons_of_some (visible?_of_admitted hadmitted (ihmembers hmembers))]
    exact .retain { d with members := Declaration.visible least d.members } (ihmembers hmembers)
      (ih hrest)

/-- **What is visible is the largest admissible part**: it is left by deleting declarations, it is
admissible, and whatever else is both is left by deleting more. -/
theorem visible_largest (least : Access) (ds : List Declaration) :
    Thinned ds (visible least ds) ∧ Admissible least (visible least ds) ∧
      ∀ ps, Thinned ds ps → Admissible least ps → Thinned (visible least ds) ps :=
  ⟨thinned_visible least ds, admissible_visible least ds, fun _ hthin hps => hthin.visible hps⟩

/-! ## Two levels -/

theorem meets_of_rank_eq_max {a b s : Access} (hs : s.rank = max a.rank b.rank) (level : Access) :
    level.meets s = (level.meets a && level.meets b) := by
  simp only [Access.meets, hs, Nat.max_le, Bool.decide_and]

theorem visible_visible_of_rank {a b s : Access} (hs : s.rank = max a.rank b.rank)
    (ds : List Declaration) : visible b (visible a ds) = visible s ds :=
  visible_visible (meets_of_rank_eq_max hs) ds

/-- **Two levels leave what the stricter one leaves**, so it does not matter which of them comes
first. A level that comes again deletes nothing more, and the two levels that share a rank leave the
same. -/
theorem visible_stricter {a b s : Access} (hs : s.rank = max a.rank b.rank)
    (ds : List Declaration) :
    visible b (visible a ds) = visible s ds ∧
    visible b (visible a ds) = visible a (visible b ds) ∧
    visible a (visible a ds) = visible a ds ∧
    visible .openLevel ds = visible .publicLevel ds := by
  have hboth : visible b (visible a ds) = visible s ds := visible_visible_of_rank hs ds
  have hturned : visible a (visible b ds) = visible s ds :=
    visible_visible_of_rank (hs.trans (Nat.max_comm ..)) ds
  have hagain : ∀ a : Access, visible a (visible a ds) = visible a ds :=
    fun a => visible_visible_of_rank (Nat.max_self _).symm ds
  refine ⟨hboth, hboth.trans hturned.symm, hagain a, ?_⟩
  rw [← hagain .openLevel]
  exact visible_visible_of_rank rfl ds

/-- A struct with an extension in it, in which there is another extension beside a function, and an
extension with members of three levels. -/
def nestedExtensions : List Declaration :=
  [.bare .structType "Foo"
      [.bare .typeExtension "Bar"
        [.bare .typeExtension "Baz"
          [{ Declaration.bare .function "f()" [] with access := .internalLevel }],
          { Declaration.bare .function "g()" [] with access := .fileLevel }]],
    .bare .typeExtension "Array"
      [.bare .function "a()" [],
        { Declaration.bare .function "b()" [] with access := .internalLevel },
        { Declaration.bare .function "c()" [] with access := .privateLevel }]]

/-- The public level deletes the extensions in the struct, which it leaves without members, whether
or not the internal level has deleted the function beside the inner one before. -/
theorem nestedExtensions_visible :
    Access.publicLevel.rank = max Access.internalLevel.rank Access.publicLevel.rank ∧
    visible .publicLevel (visible .internalLevel nestedExtensions) =
      [.bare .structType "Foo" [], .bare .typeExtension "Array" [.bare .function "a()" []]] ∧
    visible .internalLevel (visible .publicLevel nestedExtensions) =
      [.bare .structType "Foo" [], .bare .typeExtension "Array" [.bare .function "a()" []]] := by
  have hrank : Access.publicLevel.rank = max Access.internalLevel.rank Access.publicLevel.rank :=
    rfl
  obtain ⟨hstricter, hturned, -, -⟩ := visible_stricter hrank nestedExtensions
  have hpublic : visible .publicLevel nestedExtensions =
      [.bare .structType "Foo" [], .bare .typeExtension "Array" [.bare .function "a()" []]] := rfl
  refine ⟨hrank, hstricter.trans hpublic, ?_⟩
  rw [← hturned, hstricter, hpublic]

end ApiPages.Declaration
