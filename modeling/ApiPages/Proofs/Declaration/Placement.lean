import ApiPages.Declaration.Structure
import ApiPages.Proofs.Declaration.Nodes

/-!
# Declarations without faults

Declarations are accepted just when those at the top level may stand there, and each of them, at any
depth, has a name and members that may stand in it (`checkStructure_eq_ok_iff`).
-/

namespace ApiPages

theorem Kind.mayStandIn_none {kind : Kind} :
    kind.mayStandIn none = true ↔ kind ≠ .enumCase := by
  simp [mayStandIn]

theorem Kind.mayStandIn_some {kind parent : Kind} :
    kind.mayStandIn (some parent) = true ↔ (kind = .enumCase → parent.holdsCases = true) := by
  by_cases hk : kind = .enumCase <;> simp [mayStandIn, hk]

/-- Of the types that extensions are folded into, enums hold cases. -/
theorem Kind.holdsCases_iff {kind : Kind} (h : kind.isExtendable = true) :
    kind.holdsCases = true ↔ kind = .enumType := by
  cases kind <;> simp_all [isExtendable, holdsCases]

namespace Declaration

/-- A declaration that has a name and members that may stand in it. -/
structure Sound (d : Declaration) : Prop where
  named : Text.isBlankText d.name = false
  placed : ∀ m ∈ d.members, m.kind.mayStandIn (some d.kind) = true

mutual

theorem check_eq_ok_iff (path : RecordPath) (parent : Option Kind) : (d : Declaration) →
    (d.check path parent = .ok () ↔
      d.kind.mayStandIn parent = true ∧ d.Sound ∧ Everywhere Sound d.members)
  | ⟨kind, name, access, signature, comment, inheritance, members, location⟩ => by
    rw [check]
    split
    · next hblank =>
        -- a blank name is the first fault
        refine ⟨nofun, fun h => ?_⟩
        rw [h.2.1.named] at hblank
        cases hblank
    · next hnamed =>
        split
        · next hplace =>
            refine ⟨nofun, fun h => ?_⟩
            rw [show kind.mayStandIn parent = true from h.1] at hplace
            cases hplace
        · next hplace =>
            have hblank : Text.isBlankText name = false := by simpa using hnamed
            have hkind : kind.mayStandIn parent = true := by simpa using hplace
            rw [checkMembers_eq_ok_iff path 0 kind members]
            constructor
            · intro h
              exact ⟨hkind, ⟨hblank, fun m hm => (h m hm).1⟩,
                everywhere_iff_forall.2 fun m hm => (h m hm).2⟩
            · rintro ⟨-, hsound, hmembers⟩ m hm
              exact ⟨hsound.placed m hm, everywhere_iff_forall.1 hmembers m hm⟩

theorem checkMembers_eq_ok_iff (path : RecordPath) (i : Nat) (parent : Kind) :
    (ds : List Declaration) → (checkMembers path i parent ds = .ok () ↔
      ∀ d ∈ ds, d.kind.mayStandIn (some parent) = true ∧ d.Sound ∧ Everywhere Sound d.members)
  | [] => by simp [checkMembers]
  | d :: ds => by
    have hd := check_eq_ok_iff (path.member i) (some parent) d
    have hds := checkMembers_eq_ok_iff path (i + 1) parent ds
    rw [List.forall_mem_cons, ← hd, ← hds, checkMembers]
    cases d.check (path.member i) (some parent) with
    | error fault => simp
    | ok => simp

end

theorem checkFrom_eq_ok_iff (i : Nat) (ds : List Declaration) : checkFrom i ds = .ok () ↔
    ∀ d ∈ ds, d.kind.mayStandIn none = true ∧ d.Sound ∧ Everywhere Sound d.members := by
  induction ds generalizing i with
  | nil => simp [checkFrom]
  | cons d ds ih =>
    rw [List.forall_mem_cons, ← check_eq_ok_iff ⟨i, []⟩ none d, ← ih (i + 1), checkFrom]
    cases d.check ⟨i, []⟩ none with
    | error fault => simp
    | ok => simp

/-- **Declarations are accepted** just when no case is at the top level and all are sound, at every
depth. -/
theorem checkStructure_eq_ok_iff {ds : List Declaration} : checkStructure ds = .ok () ↔
    (∀ d ∈ ds, d.kind ≠ .enumCase) ∧ Everywhere Sound ds := by
  rw [checkStructure, checkFrom_eq_ok_iff, everywhere_iff_forall]
  simp only [Kind.mayStandIn_none]
  exact ⟨fun h => ⟨fun d hd => (h d hd).1, fun d hd => (h d hd).2⟩,
    fun h d hd => ⟨h.1 d hd, h.2 d hd⟩⟩

end Declaration

end ApiPages
