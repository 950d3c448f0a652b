import ApiPages.Proofs.Text.Ordered

/-!
# The order of texts by their bytes

UTF-8 keeps the order of characters: the first byte of a character grows with the number of bytes
that follow it, and those are the digits of its number to the base 64. So texts are ordered by their
bytes as they are by their characters (`bytes_lt_iff`).
-/

namespace ApiPages.Text

/-- The bytes of a text in UTF-8. -/
def bytes (s : String) : List UInt8 :=
  s.toUTF8.data.toList

theorem bytes_eq_flatMap (s : String) : bytes s = s.toList.flatMap String.utf8EncodeChar := by
  have hutf8 : s.toUTF8 = (String.ofList s.toList).toByteArray := by
    rw [String.ofList_toList]
    rfl
  rw [bytes, hutf8, String.toByteArray_ofList, List.utf8Encode]
  simp

/-! ## The bytes of a character -/

/-- The last digits of a number to the base 64, each as a byte that continues a character. -/
def sextets (v : Nat) : Nat → List UInt8
  | 0 => []
  | n + 1 => UInt8.ofNat (v / 64 ^ n % 64 + 0x80) :: sextets v n

/-- How many bytes follow the first one of a character. -/
def continuations (v : Nat) : Nat :=
  if v ≤ 0x7F then 0 else if v ≤ 0x7FF then 1 else if v ≤ 0xFFFF then 2 else 3

/-- The number in the first byte of a character. -/
def leadByte (v : Nat) : Nat :=
  if v ≤ 0x7F then v
  else if v ≤ 0x7FF then v / 64 + 0xC0
  else if v ≤ 0xFFFF then v / 4096 + 0xE0
  else v / 262144 + 0xF0

theorem toNat_val_lt (c : Char) : c.val.toNat < 0x110000 := by
  rcases c.valid with h | h <;> omega

theorem utf8EncodeChar_eq (c : Char) :
    String.utf8EncodeChar c =
      UInt8.ofNat (leadByte c.val.toNat) :: sextets c.val.toNat (continuations c.val.toNat) := by
  have hc := toNat_val_lt c
  simp only [String.utf8EncodeChar, leadByte, continuations]
  generalize c.val.toNat = v at hc
  -- of the digit in the first byte nothing is cut off
  split_ifs
  · rfl
  · rw [Nat.mod_eq_of_lt (show v / 64 < 32 by omega)]
    simp [sextets]
  · rw [Nat.mod_eq_of_lt (show v / 4096 < 16 by omega)]
    simp [sextets]
  · rw [Nat.mod_eq_of_lt (show v / 262144 < 8 by omega)]
    simp [sextets]

variable {v w : Nat}

theorem leadByte_lt_size (h : v < 0x110000) : leadByte v < UInt8.size := by
  unfold leadByte
  split_ifs <;> simp only [UInt8.size] <;> omega

/-- The first byte grows with the number. Where it is the same for two numbers, as many digits
follow it, and the digits in it are the same. -/
theorem leadByte_lt_or_eq (h : v < w) (hw : w < 0x110000) :
    leadByte v < leadByte w ∨
      leadByte v = leadByte w ∧ continuations v = continuations w ∧
        v / 64 ^ continuations v = w / 64 ^ continuations v := by
  unfold leadByte continuations
  split_ifs <;> omega

/-- Digits decide at the first one that differs, whatever follows them. -/
theorem sextets_append_lt {n : Nat} (h : v < w) (hsame : v / 64 ^ n = w / 64 ^ n)
    (xs ys : List UInt8) : sextets v n ++ xs < sextets w n ++ ys := by
  induction n with
  | zero => omega
  | succ n ih =>
    rw [Nat.pow_succ, ← Nat.div_div_eq_div_mul, ← Nat.div_div_eq_div_mul] at hsame
    rw [sextets, sextets, List.cons_append, List.cons_append, List.cons_lt_cons_iff]
    rcases Nat.lt_or_eq_of_le (Nat.div_le_div_right (c := 64 ^ n) h.le) with hdigit | hdigit
    · left
      rw [UInt8.ofNat_lt_iff_lt (by simp only [UInt8.size]; omega)
        (by simp only [UInt8.size]; omega)]
      omega
    · right
      exact ⟨by rw [hdigit], ih hdigit⟩

/-- Of two characters, the smaller one has the smaller bytes, whatever follows them. -/
theorem utf8EncodeChar_append_lt {c d : Char} (h : c < d) (xs ys : List UInt8) :
    String.utf8EncodeChar c ++ xs < String.utf8EncodeChar d ++ ys := by
  have hlt : c.val.toNat < d.val.toNat := h
  rw [utf8EncodeChar_eq, utf8EncodeChar_eq, List.cons_append, List.cons_append,
    List.cons_lt_cons_iff]
  rcases leadByte_lt_or_eq hlt (toNat_val_lt d) with hlead | ⟨hlead, hlength, hdigits⟩
  · left
    rwa [UInt8.ofNat_lt_iff_lt (leadByte_lt_size (toNat_val_lt c))
      (leadByte_lt_size (toNat_val_lt d))]
  · right
    rw [← hlength]
    exact ⟨by rw [hlead], sextets_append_lt hlt hdigits xs ys⟩

/-! ## The bytes of a text -/

theorem flatMap_utf8EncodeChar_lt {cs ds : List Char} (h : cs < ds) :
    cs.flatMap String.utf8EncodeChar < ds.flatMap String.utf8EncodeChar := by
  induction cs generalizing ds with
  | nil =>
    cases ds with
    | nil => exact absurd h (List.lt_irrefl [])
    | cons d ds =>
      rw [List.flatMap_cons, utf8EncodeChar_eq]
      exact List.nil_lt_cons _ _
  | cons c cs ih =>
    cases ds with
    | nil => exact absurd h (List.not_lt_nil _)
    | cons d ds =>
      rw [List.flatMap_cons, List.flatMap_cons]
      rcases List.cons_lt_cons_iff.1 h with hchar | ⟨rfl, htail⟩
      · exact utf8EncodeChar_append_lt hchar _ _
      · exact List.append_left_lt (ih htail)

theorem bytes_lt {s t : String} (h : s < t) : bytes s < bytes t := by
  rw [bytes_eq_flatMap, bytes_eq_flatMap]
  exact flatMap_utf8EncodeChar_lt (String.lt_iff_toList_lt.1 h)

/-- **Texts are ordered by their bytes** as they are by their characters. -/
theorem bytes_lt_iff {s t : String} : bytes s < bytes t ↔ s < t := by
  constructor
  · intro h
    rcases lt_trichotomy s t with hlt | rfl | hgt
    · exact hlt
    · exact absurd h (List.lt_irrefl _)
    · exact absurd (bytes_lt hgt) (List.lt_asymm h)
  · exact bytes_lt

theorem Ordered.bytes {α : Type} {key : α → String} {as : List α} (h : Ordered key as) :
    as.Pairwise fun a b => Text.bytes (key a) < Text.bytes (key b) :=
  h.imp bytes_lt

end ApiPages.Text
