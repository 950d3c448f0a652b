import ApiPages.Inventory.Basic
import ApiPages.Proofs.Inventory.RecordPath
import ApiPages.Proofs.Text.Trimmed
import Mathlib.Data.List.Lex

/-!
# Faults of records

What is wrong with a record, as it is written and without judging others, and the order in which
faults are looked for: records from first to last, and of each its kind, its name and its place,
then its members, then its access level.
-/

namespace ApiPages

theorem Kind.mayStandIn_eq_false_iff {kind : Kind} {parent : Option Kind} :
    kind.mayStandIn parent = false ↔
      kind = .enumCase ∧ parent ≠ some .enumType ∧ parent ≠ some .typeExtension := by
  cases parent with
  | none => simp [mayStandIn]
  | some k => cases k <;> simp [mayStandIn, holdsCases]

namespace InventoryFault

/-- The record that has the fault. -/
def path : InventoryFault → RecordPath
  | missingField path _ => path
  | unknownKind path _ => path
  | unknownAccess path _ => path
  | misplacedCase path _ => path

/-- When a record is judged for the fault. Its members are judged at stage three. -/
def stage : InventoryFault → Nat
  | missingField _ .kind => 0
  | unknownKind _ _ => 0
  | missingField _ .name => 1
  | misplacedCase _ _ => 2
  | unknownAccess _ _ => 4

/-- When an inventory is judged for the fault: the stages at which the judgement descends to the
record, with the index of the member that it descends to, and the stage of the fault. These lists
are in the order of judgement. -/
def rank (f : InventoryFault) : List Nat :=
  f.path.top :: f.path.members.flatMap (fun i => [3, i]) ++ [f.stage]

variable {f g : InventoryFault} {path : RecordPath} {is js : List Nat} {i j : Nat}

/-! ## The order of faults -/

/-- Faults below one record are in the order in which they are found from there. -/
theorem rank_lt_of_below (hf : f.path = path.below is) (hg : g.path = path.below js)
    (h : is.flatMap (fun i => [3, i]) ++ [f.stage] < js.flatMap (fun i => [3, i]) ++ [g.stage]) :
    f.rank < g.rank := by
  have hrank : ∀ {f : InventoryFault} {is : List Nat}, f.path = path.below is → f.rank =
      (path.top :: path.members.flatMap fun i => [3, i]) ++
        (is.flatMap (fun i => [3, i]) ++ [f.stage]) := by
    intro f is hf
    simp [rank, hf, RecordPath.below]
  rw [hrank hf, hrank hg]
  exact List.Lex.append_left (· < ·) h _

theorem rank_lt_of_stage (hf : f.path = path) (hg : g.path = path) (h : f.stage < g.stage) :
    f.rank < g.rank := by
  rw [← path.below_nil] at hf hg
  exact rank_lt_of_below hf hg (List.Lex.rel h)

/-- A fault of a record is found before those of its members, unless it is in the access level. -/
theorem rank_lt_of_member (hf : f.path = path) (hg : g.path = (path.member i).below is)
    (h : f.stage < 3) : f.rank < g.rank := by
  rw [← path.below_nil] at hf
  rw [RecordPath.below_member] at hg
  exact rank_lt_of_below hf hg (List.Lex.rel h)

theorem rank_lt_of_afterMembers (hf : f.path = (path.member i).below is) (hg : g.path = path)
    (h : 3 < g.stage) : f.rank < g.rank := by
  rw [RecordPath.below_member] at hf
  rw [← path.below_nil] at hg
  exact rank_lt_of_below hf hg (List.Lex.rel h)

theorem rank_lt_of_siblings (hf : f.path = (path.member i).below is)
    (hg : g.path = (path.member j).below js) (h : i < j) : f.rank < g.rank := by
  rw [RecordPath.below_member] at hf hg
  exact rank_lt_of_below hf hg (List.Lex.cons (List.Lex.rel h))

theorem rank_lt_of_top (h : f.path.top < g.path.top) : f.rank < g.rank :=
  List.Lex.rel h

end InventoryFault

namespace Record

open InventoryFault

variable {f g : InventoryFault} {path : RecordPath} {parent : Option Kind} {r : Record}
  {rs : List Record} {place : Nat → RecordPath}

/-! ## Faults of records -/

/-- The kind of a record, if it is given and known. -/
def kind? (r : Record) : Option Kind :=
  r.kind.bind Kind.ofWord?

/-- Whether there is a fault in a record that stands in a parent of a kind; without a parent it is
at the top level. -/
def IsFaulty (parent : Option Kind) (r : Record) : Prop :=
  r.kind? = none ∨ r.name.all Text.isBlankText = true ∨
    (r.kind? = some .enumCase ∧ parent ≠ some .enumType ∧ parent ≠ some .typeExtension) ∨
    ∃ word, r.access = some word ∧ Access.ofWord? word = none

/-- Whether a fault is in a record that stands in a parent of a kind, wherever this is. -/
def Has (parent : Option Kind) (r : Record) : InventoryFault → Prop
  | .missingField _ .kind => r.kind = none
  | .missingField _ .name => r.name.all Text.isBlankText = true
  | .unknownKind _ word => r.kind = some word ∧ Kind.ofWord? word = none
  | .unknownAccess _ word => r.access = some word ∧ Access.ofWord? word = none
  | .misplacedCase _ name =>
    r.kind? = some .enumCase ∧ parent ≠ some .enumType ∧ parent ≠ some .typeExtension ∧
      name = Text.trim (r.name.getD "")

/-- The record at a path below another one, with the kind of its parent. -/
def below? (parent : Option Kind) (r : Record) : List Nat → Option (Option Kind × Record)
  | [] => some (parent, r)
  | i :: is => r.members[i]?.bind fun m => m.below? r.kind? is

/-- The record at a path, with the kind of its parent. -/
def at? (rs : List Record) (path : RecordPath) : Option (Option Kind × Record) :=
  rs[path.top]?.bind fun r => r.below? none path.members

/-- The fault is in the record that its path leads to. -/
def IsFault (rs : List Record) (f : InventoryFault) : Prop :=
  ∃ parent r, at? rs f.path = some (parent, r) ∧ r.Has parent f

/-- The fault is in a record or below it. -/
def FaultIn (path : RecordPath) (parent : Option Kind) (r : Record) (f : InventoryFault) : Prop :=
  ∃ is p s, f.path = path.below is ∧ r.below? parent is = some (p, s) ∧ s.Has p f

/-- The fault is in or below one of some records, each at its place. -/
def FaultAmong (place : Nat → RecordPath) (parent : Option Kind) (rs : List Record)
    (f : InventoryFault) : Prop :=
  ∃ i r, rs[i]? = some r ∧ FaultIn (place i) parent r f

theorem isFaulty_of_has (h : r.Has parent f) : r.IsFaulty parent := by
  cases f with
  | missingField path field =>
    cases field with
    | kind => exact .inl (by rw [kind?, show r.kind = none from h]; rfl)
    | name => exact .inr (.inl h)
  | unknownKind path word => exact .inl (by rw [kind?, h.1]; exact h.2)
  | unknownAccess path word => exact .inr (.inr (.inr ⟨word, h⟩))
  | misplacedCase path name => exact .inr (.inr (.inl ⟨h.1, h.2.1, h.2.2.1⟩))

theorem exists_has_of_isFaulty (path : RecordPath) (h : r.IsFaulty parent) :
    ∃ f : InventoryFault, f.path = path ∧ r.Has parent f := by
  rcases h with hkind | hname | ⟨hcase, hplace⟩ | ⟨word, haccess⟩
  · cases hword : r.kind with
    | none => exact ⟨.missingField path .kind, rfl, hword⟩
    | some word =>
      rw [kind?, hword] at hkind
      exact ⟨.unknownKind path word, rfl, hword, hkind⟩
  · exact ⟨.missingField path .name, rfl, hname⟩
  · exact ⟨.misplacedCase path _, rfl, hcase, hplace.1, hplace.2, rfl⟩
  · exact ⟨.unknownAccess path word, rfl, haccess⟩

/-- The faults in a record and below it: first those in what is judged before the members, then
those of the members, then the one in the access level. -/
theorem faultIn_iff : FaultIn path parent r f ↔
    (f.path = path ∧ f.stage < 3 ∧ r.Has parent f) ∨ FaultAmong path.member r.kind? r.members f ∨
      (f.path = path ∧ 3 < f.stage ∧ r.Has parent f) := by
  constructor
  · rintro ⟨is, p, s, hpath, hbelow, hhas⟩
    cases is with
    | nil =>
      obtain ⟨rfl, rfl⟩ : parent = p ∧ r = s := by simpa [below?] using hbelow
      rw [path.below_nil] at hpath
      have hstage : f.stage ≠ 3 := by
        unfold stage
        split <;> decide
      rcases Nat.lt_or_gt_of_ne hstage with hlt | hgt
      · exact .inl ⟨hpath, hlt, hhas⟩
      · exact .inr (.inr ⟨hpath, hgt, hhas⟩)
    | cons i is =>
      obtain ⟨m, hm, hbelow⟩ := Option.bind_eq_some_iff.1 hbelow
      exact .inr (.inl ⟨i, m, hm, is, p, s, hpath.trans (path.below_member i is).symm, hbelow, hhas⟩)
  · rintro (⟨hpath, -, hhas⟩ | ⟨i, m, hm, is, p, s, hpath, hbelow, hhas⟩ | ⟨hpath, -, hhas⟩)
    · exact ⟨[], parent, r, hpath.trans path.below_nil.symm, rfl, hhas⟩
    · refine ⟨i :: is, p, s, hpath.trans (path.below_member i is), ?_, hhas⟩
      rw [below?, hm, Option.bind_some, hbelow]
    · exact ⟨[], parent, r, hpath.trans path.below_nil.symm, rfl, hhas⟩

theorem faultAmong_cons : FaultAmong place parent (r :: rs) f ↔
    FaultIn (place 0) parent r f ∨ FaultAmong (fun i => place (i + 1)) parent rs f := by
  constructor
  · rintro ⟨i, s, hs, hf⟩
    cases i with
    | zero =>
      obtain rfl : r = s := by simpa using hs
      exact .inl hf
    | succ i => exact .inr ⟨i, s, hs, hf⟩
  · rintro (hf | ⟨i, s, hs, hf⟩)
    · exact ⟨0, r, rfl, hf⟩
    · exact ⟨i + 1, s, hs, hf⟩

theorem isFault_iff : IsFault rs f ↔ FaultAmong (fun i => ⟨i, []⟩) none rs f := by
  constructor
  · rintro ⟨parent, s, hat, hhas⟩
    obtain ⟨r, hr, hbelow⟩ := Option.bind_eq_some_iff.1 hat
    exact ⟨f.path.top, r, hr, f.path.members, parent, s, rfl, hbelow, hhas⟩
  · rintro ⟨i, r, hr, is, parent, s, hpath, hbelow, hhas⟩
    refine ⟨parent, s, ?_, hhas⟩
    rw [hpath, at?]
    simp [RecordPath.below, hr, hbelow]

/-! ## Stages -/

/-- A record has one fault at a stage. -/
theorem eq_of_stage (hf : r.Has parent f) (hg : r.Has parent g) (hpath : f.path = g.path)
    (hstage : f.stage = g.stage) : f = g := by
  rcases f with ⟨p, _ | _⟩ | _ | _ | _ <;> rcases g with ⟨q, _ | _⟩ | _ | _ | _ <;>
    simp_all [InventoryFault.path, stage, Has]

theorem stage_ne_zero {kind : Kind} (hkind : r.kind? = some kind) (hf : r.Has parent f) :
    f.stage ≠ 0 := by
  rcases f with ⟨p, _ | _⟩ | _ | _ | _ <;> simp_all [stage, Has, kind?]

theorem stage_ne_one (hname : r.name.all Text.isBlankText = false) (hf : r.Has parent f) :
    f.stage ≠ 1 := by
  rcases f with ⟨p, _ | _⟩ | _ | _ | _ <;> simp_all [stage, Has]

theorem stage_ne_two {kind : Kind} (hkind : r.kind? = some kind)
    (hplace : kind.mayStandIn parent = true) (hf : r.Has parent f) : f.stage ≠ 2 := by
  cases f with
  | missingField path field => cases field <;> simp [stage]
  | unknownKind path word => simp [stage]
  | unknownAccess path word => simp [stage]
  | misplacedCase path name =>
    obtain ⟨hcase, henum, hextension, -⟩ := hf
    obtain rfl : kind = .enumCase := Option.some.inj (hkind.symm.trans hcase)
    rw [Kind.mayStandIn_eq_false_iff.2 ⟨rfl, henum, hextension⟩] at hplace
    cases hplace

/-- Nothing but the access level is judged after the members. -/
theorem eq_unknownAccess_of_has (hstage : 3 < f.stage) (hf : r.Has parent f) : ∃ path word,
    f = .unknownAccess path word ∧ r.access = some word ∧ Access.ofWord? word = none := by
  cases f with
  | missingField path field => cases field <;> simp [stage] at hstage
  | unknownKind path word => simp [stage] at hstage
  | misplacedCase path name => simp [stage] at hstage
  | unknownAccess path word => exact ⟨path, word, rfl, hf⟩

end Record

end ApiPages
