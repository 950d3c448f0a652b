import ApiPages.Text.Fence
import Mathlib.Algebra.Ring.Parity

/-!
# Lines of code

Which lines of a text are code, going by its fences: the fences themselves, and every line that an
odd number of fences stands above.
-/

namespace ApiPages.Text

variable {inCode : Bool} {line : List Char} {above below kept ls xs ys : List (List Char)}
  {f : List Char → List Char}

/-- Whether a block of code is open after some lines, given whether one is open before them. -/
def isOpenAfter (inCode : Bool) (ls : List (List Char)) : Bool :=
  inCode ^^ decide (Odd (ls.countP isFence))

/-- The line is code, given the lines above it. -/
def IsCode (above : List (List Char)) (line : List Char) : Prop :=
  isFence line = true ∨ Odd (above.countP isFence)

instance (above : List (List Char)) (line : List Char) : Decidable (IsCode above line) :=
  inferInstanceAs (Decidable (_ ∨ _))

/-- The lines that are code, given whether a block of code is open before the first of them. -/
def codeLines : Bool → List (List Char) → List (List Char)
  | _, [] => []
  | inCode, line :: ls =>
    if isFence line || inCode then line :: codeLines (inCode ^^ isFence line) ls
    else codeLines false ls

/-- Some of the lines are kept, in their order, and all those that are code are among them. -/
structure KeepsCode (inCode : Bool) (kept ls : List (List Char)) : Prop where
  sublist : kept.Sublist ls
  codeLines_eq : codeLines inCode kept = codeLines inCode ls
  isOpenAfter_eq : isOpenAfter inCode kept = isOpenAfter inCode ls

/-! ## Open blocks -/

theorem isOpenAfter_nil (inCode : Bool) : isOpenAfter inCode [] = inCode := by
  simp [isOpenAfter]

theorem isOpenAfter_append (inCode : Bool) (xs ys : List (List Char)) :
    isOpenAfter inCode (xs ++ ys) = isOpenAfter (isOpenAfter inCode xs) ys := by
  rw [isOpenAfter, isOpenAfter, isOpenAfter, List.countP_append, Bool.xor_assoc]
  congr 1
  -- the sum is odd when just one of the two is
  by_cases hx : Odd (xs.countP isFence) <;> by_cases hy : Odd (ys.countP isFence) <;>
    simp [hx, hy, Nat.odd_add, ← Nat.not_odd_iff_even]

/-- A fence opens a block or closes the one that is open. -/
theorem isOpenAfter_cons (inCode : Bool) (line : List Char) (ls : List (List Char)) :
    isOpenAfter inCode (line :: ls) = isOpenAfter (inCode ^^ isFence line) ls := by
  have hline : isOpenAfter inCode [line] = (inCode ^^ isFence line) := by
    cases h : isFence line <;> simp [isOpenAfter, h]
  rw [← List.singleton_append, isOpenAfter_append, hline]

theorem isOpenAfter_map (hf : ∀ line, isFence (f line) = isFence line) (inCode : Bool)
    (ls : List (List Char)) : isOpenAfter inCode (ls.map f) = isOpenAfter inCode ls := by
  rw [isOpenAfter, List.countP_map, isOpenAfter]
  congr 4
  exact funext hf

theorem isOpenAfter_of_no_fence (h : ∀ line ∈ ls, isFence line = false) (inCode : Bool) :
    isOpenAfter inCode ls = inCode := by
  have hcount : ls.countP isFence = 0 :=
    List.countP_eq_zero.2 fun line hline => by simp [h line hline]
  simp [isOpenAfter, hcount]

theorem isCode_iff : IsCode above line ↔ (isFence line || isOpenAfter false above) = true := by
  simp [IsCode, isOpenAfter]

/-! ## Lines of code -/

theorem codeLines_cons_of_code (h : (isFence line || inCode) = true) (ls : List (List Char)) :
    codeLines inCode (line :: ls) = line :: codeLines (inCode ^^ isFence line) ls := by
  rw [codeLines, if_pos h]

theorem codeLines_cons_of_prose (h : isFence line = false) (ls : List (List Char)) :
    codeLines false (line :: ls) = codeLines false ls := by
  simp [codeLines, h]

theorem codeLines_append (inCode : Bool) (xs ys : List (List Char)) :
    codeLines inCode (xs ++ ys) = codeLines inCode xs ++ codeLines (isOpenAfter inCode xs) ys := by
  induction xs generalizing inCode with
  | nil => rw [isOpenAfter_nil]; rfl
  | cons line xs ih =>
    rw [List.cons_append, isOpenAfter_cons]
    cases hcode : isFence line || inCode with
    | true =>
      rw [codeLines_cons_of_code hcode, codeLines_cons_of_code hcode, ih, List.cons_append]
    | false =>
      obtain ⟨hfence, rfl⟩ := Bool.or_eq_false_iff.1 hcode
      rw [codeLines_cons_of_prose hfence, codeLines_cons_of_prose hfence, ih, hfence]
      rfl

/-- The lines of code are those that are code by what stands above them. -/
theorem codeLines_append_singleton (ls : List (List Char)) (line : List Char) :
    codeLines false (ls ++ [line]) =
      codeLines false ls ++ if IsCode ls line then [line] else [] := by
  rw [codeLines_append, codeLines]
  simp only [isCode_iff]
  split <;> rfl

theorem codeLines_map (hf : ∀ line, isFence (f line) = isFence line) (inCode : Bool)
    (ls : List (List Char)) : codeLines inCode (ls.map f) = (codeLines inCode ls).map f := by
  induction ls generalizing inCode with
  | nil => rfl
  | cons line ls ih =>
    rw [List.map_cons, codeLines, codeLines, hf, ih, ih]
    split <;> rfl

theorem codeLines_of_no_fence (h : ∀ line ∈ ls, isFence line = false) (inCode : Bool) :
    codeLines inCode ls = if inCode then ls else [] := by
  induction ls with
  | nil => simp [codeLines]
  | cons line ls ih =>
    rw [List.forall_mem_cons] at h
    cases inCode with
    | true => simp [codeLines, h.1, ih h.2]
    | false => rw [codeLines_cons_of_prose h.1, ih h.2]; rfl

/-! ## Lines that are kept -/

namespace KeepsCode

theorem nil (inCode : Bool) : KeepsCode inCode [] [] :=
  ⟨.slnil, rfl, rfl⟩

theorem keep (h : KeepsCode (inCode ^^ isFence line) kept ls) :
    KeepsCode inCode (line :: kept) (line :: ls) where
  sublist := h.sublist.cons_cons line
  codeLines_eq := by
    cases hcode : isFence line || inCode with
    | true => rw [codeLines_cons_of_code hcode, codeLines_cons_of_code hcode, h.codeLines_eq]
    | false =>
      obtain ⟨hfence, rfl⟩ := Bool.or_eq_false_iff.1 hcode
      rw [hfence] at h
      rw [codeLines_cons_of_prose hfence, codeLines_cons_of_prose hfence]
      exact h.codeLines_eq
  isOpenAfter_eq := by rw [isOpenAfter_cons, isOpenAfter_cons, h.isOpenAfter_eq]

/-- A line outside of code may be dropped. -/
theorem drop (hfence : isFence line = false) (h : KeepsCode false kept ls) :
    KeepsCode false kept (line :: ls) where
  sublist := h.sublist.cons line
  codeLines_eq := by rw [codeLines_cons_of_prose hfence, h.codeLines_eq]
  isOpenAfter_eq := by rw [isOpenAfter_cons, hfence, h.isOpenAfter_eq]; rfl

end KeepsCode

end ApiPages.Text
