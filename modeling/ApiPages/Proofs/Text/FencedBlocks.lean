import ApiPages.Proofs.Text.CodeLines
import ApiPages.Proofs.Text.Trimmed

/-!
# Fenced blocks

In Markdown a block of code is opened by a line of three or more backticks, with words after them or
not, and closed by the next line of backticks alone that has as many or more. Counting fences tells
where the blocks are, but for the stray fences: lines that begin with three backticks and neither
open nor close a block.
-/

namespace ApiPages.Text

variable {line text : List Char} {above ls : List (List Char)} {block : Option Nat} {k : Nat}

/-! ## Blocks -/

/-- How many backticks a line opens a block with, if it does: at least three, and no others behind
them. -/
def opening? (line : List Char) : Option Nat :=
  let ticks := (dropBlanks line).takeWhile (· = '\x60')
  if 3 ≤ ticks.length ∧ '\x60' ∉ (dropBlanks line).drop ticks.length then some ticks.length
  else none

/-- Whether a line closes a block that was opened with so many backticks: it has nothing but as many
of them or more. -/
def closes (k : Nat) (line : List Char) : Bool :=
  (dropBlanks line).all (· = '\x60') && k ≤ (dropBlanks line).length

/-- With how many backticks the block was opened that is open after a line. -/
def blockAfter : Option Nat → List Char → Option Nat
  | none, line => opening? line
  | some k, line => if closes k line then none else some k

theorem blockAfter_some (k : Nat) (line : List Char) :
    blockAfter (some k) line = if closes k line then none else some k := rfl

/-- The line is inside a block, given the lines above it. -/
def InBlock (above : List (List Char)) (line : List Char) : Prop :=
  ∃ k, above.foldl blockAfter none = some k ∧ closes k line = false

/-- Whether a line is a fence that neither opens a block nor closes the one that is open. -/
def isStray (block : Option Nat) (line : List Char) : Bool :=
  isFence line && blockAfter block line == block

/-- The number of stray fences, given the block that is open before the first line. -/
def strays : Option Nat → List (List Char) → Nat
  | _, [] => 0
  | block, line :: ls => (if isStray block line then 1 else 0) + strays (blockAfter block line) ls

/-! ## Fences of blocks -/

theorem isFence_of_begins (h : fenceMark <+: dropBlanks line) : isFence line = true := by
  rw [isFence, List.isPrefixOf_iff_prefix]
  exact h.trans (List.rdropWhile_prefix isBlank _)

theorem begins_fenceMark (hticks : ∀ c ∈ text, c = '\x60') (hlength : 3 ≤ text.length) :
    fenceMark <+: text := by
  match text, hlength with
  | a :: b :: c :: rest, _ =>
    obtain ⟨rfl, rfl, rfl, -⟩ := by simpa only [List.forall_mem_cons] using hticks
    exact ⟨rest, rfl⟩

theorem isFence_of_opening? (h : opening? line = some k) : isFence line = true ∧ 3 ≤ k := by
  unfold opening? at h
  dsimp only at h
  split at h
  · next hopen =>
    obtain rfl := Option.some.inj h
    have hticks : ∀ c ∈ (dropBlanks line).takeWhile (· = '\x60'), c = '\x60' := fun c hc => by
      simpa using List.mem_takeWhile_imp hc
    exact ⟨isFence_of_begins ((begins_fenceMark hticks hopen.1).trans (List.takeWhile_prefix _)),
      hopen.1⟩
  · cases h

theorem isFence_of_closes (hk : 3 ≤ k) (h : closes k line = true) : isFence line = true := by
  simp only [closes, Bool.and_eq_true, List.all_eq_true, decide_eq_true_eq] at h
  exact isFence_of_begins (begins_fenceMark h.1 (hk.trans h.2))

/-- A line after which another block is open, or none, is a fence. -/
theorem isFence_of_blockAfter (hblock : ∀ k ∈ block, 3 ≤ k) (h : blockAfter block line ≠ block) :
    isFence line = true ∧ (blockAfter block line).isSome = !block.isSome := by
  cases block with
  | none =>
    obtain ⟨k, hk⟩ := Option.ne_none_iff_exists'.1 h
    have hopen : opening? line = some k := hk
    exact ⟨(isFence_of_opening? hopen).1, by rw [hk]; rfl⟩
  | some k =>
    rw [blockAfter_some] at h ⊢
    cases hcloses : closes k line with
    | true => exact ⟨isFence_of_closes (hblock k rfl) hcloses, rfl⟩
    | false => simp [hcloses] at h

theorem three_le_blockAfter (hblock : ∀ k ∈ block, 3 ≤ k) : ∀ k ∈ blockAfter block line, 3 ≤ k := by
  intro k hk
  cases block with
  | none => exact (isFence_of_opening? hk).2
  | some l =>
    rw [blockAfter_some] at hk
    split at hk
    · cases hk
    · exact hblock k hk

theorem isOpenAfter_not (inCode : Bool) (ls : List (List Char)) :
    isOpenAfter (!inCode) ls = !isOpenAfter inCode ls := by
  rw [isOpenAfter, isOpenAfter, Bool.not_xor]

/-- **Fences tell where blocks are** but for the stray ones among them. -/
theorem isOpenAfter_isSome (hblock : ∀ k ∈ block, 3 ≤ k) (ls : List (List Char)) :
    isOpenAfter block.isSome ls =
      ((ls.foldl blockAfter block).isSome ^^ decide (Odd (strays block ls))) := by
  induction ls generalizing block with
  | nil => simp [isOpenAfter_nil, strays]
  | cons line ls ih =>
    have hnext : ∀ k ∈ blockAfter block line, 3 ≤ k := three_le_blockAfter hblock
    have ih := ih hnext
    rw [isOpenAfter_cons, List.foldl_cons, strays]
    by_cases hsame : blockAfter block line = block
    · rw [hsame] at ih ⊢
      cases hfence : isFence line with
      | false => simp [isStray, hfence, ih]
      | true =>
        -- a stray fence, after which everything is the other way round
        have hstray : isStray block line = true := by simp [isStray, hfence, hsame]
        have hodd : decide (Odd (1 + strays block ls)) = !decide (Odd (strays block ls)) := by
          rw [Nat.add_comm, ← decide_not, decide_eq_decide, Nat.odd_add_one]
        rw [hstray, if_pos rfl, hodd, Bool.xor_true, isOpenAfter_not, ih, Bool.xor_not]
    · obtain ⟨hfence, hsome⟩ := isFence_of_blockAfter hblock hsame
      rw [hfence, Bool.xor_true, ← hsome, ih]
      simp [isStray, hsame]

/-- A line in a block is code for the linking when the stray fences above it come in pairs. -/
theorem isCode_iff_of_inBlock (h : InBlock above line) :
    IsCode above line ↔ isFence line = true ∨ Even (strays none above) := by
  obtain ⟨k, hopen, -⟩ := h
  have hstart : ∀ k ∈ (none : Option Nat), 3 ≤ k := by simp
  have hblock := isOpenAfter_isSome hstart above
  rw [hopen] at hblock
  replace hblock : isOpenAfter false above = (true ^^ decide (Odd (strays none above))) := hblock
  rw [isCode_iff, hblock]
  simp

end ApiPages.Text
