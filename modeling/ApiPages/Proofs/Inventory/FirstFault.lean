import ApiPages.Proofs.Inventory.Faults
import ApiPages.Proofs.Inventory.ImpliedAccess

/-!
# The first fault

Records are judged one after another, and members within their parent. Records without faults are
accepted, and of others the first fault is reported, with the path of the record that has it
(`declarations_firstFault`).
-/

namespace ApiPages.Record

open InventoryFault

variable {α β : Type} {P Q : InventoryFault → Prop} {x : Except InventoryFault α}
  {f g : InventoryFault} {path : RecordPath} {parent : Option Kind} {r : Record} {rs : List Record}
  {place : Nat → RecordPath}

/-! ## Judgements -/

/-- A judgement accepts what has none of some faults, and else reports the first of them. -/
def Judges (P : InventoryFault → Prop) : Except InventoryFault α → Prop
  | .ok _ => ∀ f, ¬ P f
  | .error f => P f ∧ ∀ g, P g → g ≠ f → f.rank < g.rank

theorem Judges.congr (h : Judges P x) (hPQ : ∀ f, P f ↔ Q f) : Judges Q x := by
  obtain rfl : P = Q := funext fun f => propext (hPQ f)
  exact h

theorem Judges.map (h : Judges P x) (k : α → β) : Judges P (x.map k) := by
  cases x <;> exact h

/-- One judgement after another: the faults of the first come first. -/
theorem Judges.bind {k : α → Except InventoryFault β} (hx : Judges P x)
    (hk : ∀ a, x = .ok a → Judges Q (k a)) (hfirst : ∀ f g, P f → Q g → f.rank < g.rank) :
    Judges (fun f => P f ∨ Q f) (x.bind k) := by
  cases x with
  | error f =>
    refine ⟨.inl hx.1, fun g hg hne => ?_⟩
    rcases hg with hg | hg
    · exact hx.2 g hg hne
    · exact hfirst f g hx.1 hg
  | ok a =>
    have hnone : ∀ f, ¬ P f := hx
    exact (hk a rfl).congr fun f => by simp [hnone f]

theorem Judges.eq_ok_iff (h : Judges P x) : (∃ a, x = .ok a) ↔ ∀ f, ¬ P f := by
  cases x with
  | ok a => exact ⟨fun _ => h, fun _ => ⟨a, rfl⟩⟩
  | error e =>
    constructor
    · rintro ⟨a, ha⟩
      cases ha
    · intro hnone
      exact absurd h.1 (hnone e)

theorem Judges.eq_error_iff (h : Judges P x) :
    x = .error f ↔ P f ∧ ∀ g, P g → g ≠ f → f.rank < g.rank := by
  cases x with
  | ok a =>
    constructor
    · intro hf
      cases hf
    · rintro ⟨hf, -⟩
      exact absurd hf (h f)
  | error e =>
    constructor
    · intro hf
      obtain rfl := Except.error.inj hf
      exact h
    · rintro ⟨hf, hfirst⟩
      -- of two different faults each would come before the other
      by_contra hne
      have hef : e ≠ f := fun heq => hne (by rw [heq])
      exact lt_asymm (hfirst e h.1 hef) (h.2 f hf hef.symm)

/-! ## One record -/

/-- A fault is the first of a record when the record has passed the stages before. -/
theorem judges_error (hpath : f.path = path) (hstage : f.stage < 3) (hf : r.Has parent f)
    (hpassed : ∀ g, r.Has parent g → ¬ g.stage < f.stage) :
    Judges (fun f => f.path = path ∧ f.stage < 3 ∧ r.Has parent f)
      (.error f : Except InventoryFault α) := by
  refine ⟨⟨hpath, hstage, hf⟩, fun g hg hne => ?_⟩
  have hle := Nat.le_of_not_lt (hpassed g hg.2.2)
  refine rank_lt_of_stage hpath hg.1 (Nat.lt_of_le_of_ne hle fun heq => ?_)
  exact hne (eq_of_stage hg.2.2 hf (hg.1.trans hpath.symm) heq.symm)

/-- The name that a record is judged by is missing when there is none or a blank one. -/
theorem filter_name_eq_none_iff (name : Option String) :
    ((name.map Text.trim).filter fun s => !s.isEmpty) = none ↔
      name.all Text.isBlankText = true := by
  cases name with
  | none => simp
  | some s => simp [Text.trim_eq_empty_iff]

theorem judges_heading (path : RecordPath) (parent : Option Kind) (r : Record) :
    Judges (fun f => f.path = path ∧ f.stage < 3 ∧ r.Has parent f)
      (heading path parent r.kind r.name) := by
  unfold heading
  split
  · next hmissing => exact judges_error rfl (by simp [stage]) hmissing fun _ _ => Nat.not_lt_zero _
  · next word hword =>
    split
    · next hunknown =>
      exact judges_error rfl (by simp [stage]) ⟨hword, hunknown⟩ fun _ _ => Nat.not_lt_zero _
    · next kind hknown =>
      have hkind : r.kind? = some kind := by rw [kind?, hword, Option.bind_some, hknown]
      split
      · next hname =>
        refine judges_error rfl (by simp [stage]) ((filter_name_eq_none_iff _).1 hname)
          fun g hg hlt => ?_
        exact stage_ne_zero hkind hg (Nat.lt_one_iff.1 hlt)
      · next name hname =>
        have hnamed : r.name.all Text.isBlankText = false := by
          rw [← Bool.not_eq_true, ← filter_name_eq_none_iff, hname]
          simp
        split
        · next hplace =>
          rintro f ⟨-, hstage, hf⟩
          have h0 := stage_ne_zero hkind hf
          have h1 := stage_ne_one hnamed hf
          have h2 := stage_ne_two hkind hplace hf
          omega
        · next hplace =>
          obtain ⟨rfl, hparent⟩ := Kind.mayStandIn_eq_false_iff.1 (Bool.eq_false_iff.2 hplace)
          have htrimmed : name = Text.trim (r.name.getD "") := by
            obtain ⟨hmap, -⟩ := Option.filter_eq_some_iff.1 hname
            obtain ⟨given, hgiven, rfl⟩ := Option.map_eq_some_iff.1 hmap
            rw [hgiven, Option.getD_some]
          refine judges_error rfl (by simp [stage]) ⟨hkind, hparent.1, hparent.2, htrimmed⟩
            fun g hg hlt => ?_
          have h0 := stage_ne_zero hkind hg
          have h1 := stage_ne_one hnamed hg
          change g.stage < 2 at hlt
          omega

theorem judges_accessOf (path : RecordPath) (parent : Option Kind) (kind : Kind) (r : Record)
    (members : List Declaration) :
    Judges (fun f => f.path = path ∧ 3 < f.stage ∧ r.Has parent f)
      (accessOf path kind r.access members) := by
  unfold accessOf
  split
  · next hnone =>
    rintro f ⟨-, hstage, hhas⟩
    obtain ⟨-, word, -, hword, -⟩ := eq_unknownAccess_of_has hstage hhas
    rw [hnone] at hword
    cases hword
  · next word hword =>
    split
    · next hlevel =>
      refine ⟨⟨rfl, by simp [stage], hword, hlevel⟩, ?_⟩
      rintro g ⟨rfl, hstage, hhas⟩ hne
      obtain ⟨p, other, rfl, hother, -⟩ := eq_unknownAccess_of_has hstage hhas
      rw [hword] at hother
      cases hother
      exact absurd rfl hne
    · next level hlevel =>
      rintro f ⟨-, hstage, hhas⟩
      obtain ⟨-, other, -, hother, hnone⟩ := eq_unknownAccess_of_has hstage hhas
      rw [hword] at hother
      cases hother
      rw [hlevel] at hnone
      cases hnone

/-! ## Records one after another -/

theorem declaration_eq_bind (path : RecordPath) (parent : Option Kind) (r : Record) :
    r.declaration path parent =
      (heading path parent r.kind r.name).bind fun head =>
        (declarationsOf path 0 head.1 r.members).bind fun members =>
          (accessOf path head.1 r.access members).map fun access =>
            ⟨head.1, head.2, access, signatureOf r.signature head.2,
              commentOf r.documentation r.comment, r.inheritance, members, r.location⟩ := by
  cases r with
  | mk kind name access signature documentation comment inheritance members location =>
    rw [declaration]
    dsimp only
    cases heading path parent kind name with
    | error fault => rfl
    | ok head =>
      obtain ⟨kind, name⟩ := head
      dsimp only [Except.bind]
      cases declarationsOf path 0 kind members with
      | error fault => rfl
      | ok members =>
        dsimp only
        cases accessOf path kind access members <;> rfl

theorem declarationsOf_cons (path : RecordPath) (i : Nat) (parent : Kind) (r : Record)
    (rs : List Record) : declarationsOf path i parent (r :: rs) =
      (r.declaration (path.member i) (some parent)).bind fun d =>
        (declarationsOf path (i + 1) parent rs).map (d :: ·) := by
  rw [declarationsOf]
  cases r.declaration (path.member i) (some parent) with
  | error fault => rfl
  | ok d =>
    dsimp only
    cases declarationsOf path (i + 1) parent rs <;> rfl

theorem declarationsFrom_cons (i : Nat) (r : Record) (rs : List Record) :
    declarationsFrom i (r :: rs) =
      (r.declaration ⟨i, []⟩ none).bind fun d => (declarationsFrom (i + 1) rs).map (d :: ·) := by
  rw [declarationsFrom]
  cases r.declaration ⟨i, []⟩ none with
  | error fault => rfl
  | ok d =>
    dsimp only
    cases declarationsFrom (i + 1) rs <;> rfl

/-- The faults of one record are found before those of the records that follow. -/
theorem judges_cons {y : Except InventoryFault (List α)}
    (hx : Judges (FaultIn (place 0) parent r) x)
    (hy : Judges (FaultAmong (fun i => place (i + 1)) parent rs) y)
    (hfirst : ∀ (f g : InventoryFault) is js i, f.path = (place 0).below is →
      g.path = (place (i + 1)).below js → f.rank < g.rank) :
    Judges (FaultAmong place parent (r :: rs)) (x.bind fun a => y.map (a :: ·)) := by
  refine (hx.bind (fun a _ => hy.map (a :: ·)) ?_).congr fun f => faultAmong_cons.symm
  rintro f g ⟨is, -, -, hf, -⟩ ⟨i, -, -, js, -, -, hg, -⟩
  exact hfirst f g is js i hf hg

theorem judges_nil :
    Judges (FaultAmong place parent []) (.ok [] : Except InventoryFault (List α)) := by
  rintro f ⟨i, r, hr, -⟩
  simp at hr

mutual

theorem judges_declaration (path : RecordPath) (parent : Option Kind) : (r : Record) →
    Judges (FaultIn path parent r) (r.declaration path parent)
  | ⟨kind, name, access, signature, documentation, comment, inheritance, members, location⟩ => by
    have hmembers : ∀ k, Judges (FaultAmong path.member (some k) members)
        (declarationsOf path 0 k members) := by
      intro k
      have hjudges := judges_declarationsOf path 0 k members
      simp only [Nat.zero_add] at hjudges
      exact hjudges
    generalize hr : Record.mk kind name access signature documentation comment inheritance members
      location = r
    obtain rfl : r.members = members := by rw [← hr]
    rw [declaration_eq_bind]
    refine ((judges_heading path parent r).bind (fun head hhead => ?_) ?_).congr
      fun f => faultIn_iff.symm
    · -- the members are judged, then the access level
      have hkind : r.kind? = some head.1 := (heading_eq_ok hhead).1
      rw [hkind]
      refine (hmembers head.1).bind (fun ms _ => (judges_accessOf path parent head.1 r ms).map _) ?_
      rintro f g ⟨i, -, -, is, -, -, hf, -⟩ ⟨hg, hstage, -⟩
      exact rank_lt_of_afterMembers hf hg hstage
    · rintro f g ⟨hf, hstage, -⟩ (⟨i, -, -, is, -, -, hg, -⟩ | ⟨hg, hlast, -⟩)
      · exact rank_lt_of_member hf hg hstage
      · exact rank_lt_of_stage hf hg (by omega)

theorem judges_declarationsOf (path : RecordPath) (i : Nat) (parent : Kind) : (rs : List Record) →
    Judges (FaultAmong (fun j => path.member (i + j)) (some parent) rs)
      (declarationsOf path i parent rs)
  | [] => judges_nil
  | r :: rs => by
    have hr := judges_declaration (path.member i) (some parent) r
    have hrs := judges_declarationsOf path (i + 1) parent rs
    have hplace : ∀ j, i + 1 + j = i + (j + 1) := by omega
    simp only [hplace] at hrs
    rw [declarationsOf_cons]
    refine judges_cons hr hrs fun f g is js j hf hg => ?_
    exact rank_lt_of_siblings hf hg (by omega)

end

theorem judges_declarationsFrom (i : Nat) (rs : List Record) :
    Judges (FaultAmong (fun j => ⟨i + j, []⟩) none rs) (declarationsFrom i rs) := by
  induction rs generalizing i with
  | nil => exact judges_nil
  | cons r rs ih =>
    have hr := judges_declaration ⟨i, []⟩ none r
    have hrs := ih (i + 1)
    have hplace : ∀ j, i + 1 + j = i + (j + 1) := by omega
    simp only [hplace] at hrs
    rw [declarationsFrom_cons]
    refine judges_cons hr hrs fun f g is js j hf hg => rank_lt_of_top ?_
    rw [hf, hg]
    simp [RecordPath.below]

theorem judges_declarations (rs : List Record) : Judges (IsFault rs) (declarations rs) := by
  have hjudges := judges_declarationsFrom 0 rs
  simp only [Nat.zero_add] at hjudges
  exact hjudges.congr fun f => isFault_iff.symm

/-- **The first fault.** Records are accepted when none of them is faulty, at any depth. Otherwise
the path of the reported fault, also as a text, leads to a faulty record that has it, and all other
faults come later. -/
theorem declarations_firstFault (rs : List Record) :
    ((∃ ds, declarations rs = .ok ds) ↔
      ∀ path parent r, at? rs path = some (parent, r) → ¬ r.IsFaulty parent) ∧
    (∀ f, declarations rs = .error f → ∀ path : RecordPath, path.text = f.path.text →
      ∃ parent r, at? rs path = some (parent, r) ∧ r.IsFaulty parent ∧ r.Has parent f) ∧
    ∀ f, declarations rs = .error f ↔
      IsFault rs f ∧ ∀ g, IsFault rs g → g ≠ f → f.rank < g.rank := by
  have hjudges := judges_declarations rs
  refine ⟨?_, ?_, fun f => hjudges.eq_error_iff⟩
  · rw [hjudges.eq_ok_iff]
    constructor
    · intro hnone path parent r hr hfaulty
      obtain ⟨f, rfl, hf⟩ := exists_has_of_isFaulty path hfaulty
      exact hnone f ⟨parent, r, hr, hf⟩
    · rintro hsound f ⟨parent, r, hr, hf⟩
      exact hsound f.path parent r hr (isFaulty_of_has hf)
  · intro f hf path hpath
    obtain rfl := RecordPath.text_inj hpath
    obtain ⟨⟨parent, r, hr, hhas⟩, -⟩ := hjudges.eq_error_iff.1 hf
    exact ⟨parent, r, hr, isFaulty_of_has hhas, hhas⟩

/-- A member is judged before the access level of the class that it is in. -/
example : declarations
    [⟨some "class", some "Dog", some "unknown", none, none, none, [],
      [⟨some "function", some " ", none, none, none, none, [], [], none⟩], none⟩] =
    .error (.missingField ⟨0, [0]⟩ .name) := by
  rfl

end ApiPages.Record
