import ApiPages.Text.Percent

/-!
# Reading escapes

An escaped text is read byte by byte: an escape stands for the byte of its number, every other
character for its own bytes. Where the bytes are UTF-8 they are the text meant, and for a text that
was escaped they are those of the text itself.
-/

namespace ApiPages.Text

/-- The bytes that an escaped text stands for. A `%` that begins no escape stands for nothing. -/
def escapedBytes? : List Char → Option (List UInt8)
  | [] => some []
  | '%' :: high :: low :: cs =>
    (hexNumber? [high, low]).bind fun n => (escapedBytes? cs).map (UInt8.ofNat n :: ·)
  | ['%'] => none
  | ['%', _] => none
  | c :: cs => (escapedBytes? cs).map (String.utf8EncodeChar c ++ ·)

/-- The text that an escaped text stands for. -/
def percentDecode? (cs : List Char) : Option String :=
  (escapedBytes? cs).bind fun bytes => String.fromUTF8? bytes.toByteArray

/-! ## Bytes -/

theorem escapedBytes?_cons {c : Char} (h : c ≠ '%') (cs : List Char) :
    escapedBytes? (c :: cs) = (escapedBytes? cs).map (String.utf8EncodeChar c ++ ·) := by
  rw [escapedBytes?]
  all_goals
    intros
    contradiction

theorem hexNumber?_hexDigits : ∀ n < 256,
    hexNumber? [hexDigit (n / 16), hexDigit (n % 16)] = some n := by
  decide +kernel

theorem escapedBytes?_percentByte (b : UInt8) (cs : List Char) :
    escapedBytes? (percentByte b ++ cs) = (escapedBytes? cs).map (b :: ·) := by
  have hb : b.toNat < 256 := b.toNat_lt
  simp only [percentByte, List.cons_append, List.nil_append]
  rw [escapedBytes?, hexNumber?_hexDigits _ hb, Option.bind_some, UInt8.ofNat_toNat]

/-- Escaped bytes are read as these bytes. -/
theorem escapedBytes?_percentBytes (bytes : List UInt8) (cs : List Char) :
    escapedBytes? (bytes.flatMap percentByte ++ cs) =
      (escapedBytes? cs).map (bytes ++ ·) := by
  induction bytes with
  | nil => simp
  | cons b bytes ih =>
    rw [List.flatMap_cons, List.append_assoc, escapedBytes?_percentByte, ih, Option.map_map]
    rfl

/-- A path that was escaped is read as its own bytes. -/
theorem escapedBytes?_percentEncode (path cs : List Char) :
    escapedBytes? (percentEncode path ++ cs) =
      (escapedBytes? cs).map (path.flatMap String.utf8EncodeChar ++ ·) := by
  induction path with
  | nil => simp [percentEncode]
  | cons c path ih =>
    rw [percentEncode, List.flatMap_cons, ← percentEncode, List.append_assoc, List.flatMap_cons]
    have hchar : ∀ more : List Char,
        escapedBytes? ((if isLinkSafe c then [c] else percentChar c) ++ more) =
          (escapedBytes? more).map (String.utf8EncodeChar c ++ ·) := by
      intro more
      split
      · next hsafe =>
        refine escapedBytes?_cons ?_ more
        rintro rfl
        exact absurd hsafe (by decide)
      · exact escapedBytes?_percentBytes _ more
    rw [hchar, ih, Option.map_map]
    congr 1
    funext bytes
    exact (List.append_assoc ..).symm

theorem escapedBytes?_of_not_mem {cs : List Char} (h : '%' ∉ cs) :
    escapedBytes? cs = some (cs.flatMap String.utf8EncodeChar) := by
  induction cs with
  | nil => rfl
  | cons c cs ih =>
    rw [List.mem_cons, not_or] at h
    rw [escapedBytes?_cons (Ne.symm h.1), ih h.2, List.flatMap_cons]
    rfl

/-! ## Texts -/

/-- The bytes of a text are the text again. -/
theorem fromUTF8?_bytes (cs : List Char) :
    String.fromUTF8? (cs.flatMap String.utf8EncodeChar).toByteArray =
      some (String.ofList cs) := by
  have hvalid : (cs.flatMap String.utf8EncodeChar).toByteArray.IsValidUTF8 :=
    (String.ofList cs).isValidUTF8
  rw [String.fromUTF8?, dif_pos hvalid]
  rfl

/-- **A path that was escaped is read back**, also in front of what needs no escapes. -/
theorem percentDecode?_percentEncode (path : List Char) {cs : List Char} (h : '%' ∉ cs) :
    percentDecode? (percentEncode path ++ cs) = some (String.ofList (path ++ cs)) := by
  rw [percentDecode?, escapedBytes?_percentEncode, escapedBytes?_of_not_mem h, Option.map_some,
    Option.bind_some, ← List.flatMap_append, fromUTF8?_bytes]

example : percentDecode? "%C3%9C%252F".toList = some "Ü%2F" := by decide +kernel

/-! ## What escapes are written with -/

theorem percentEncode_append (xs ys : List Char) :
    percentEncode (xs ++ ys) = percentEncode xs ++ percentEncode ys :=
  List.flatMap_append

theorem percentEncode_of_safe {cs : List Char} (h : ∀ c ∈ cs, isLinkSafe c = true) :
    percentEncode cs = cs := by
  induction cs with
  | nil => rfl
  | cons c cs ih =>
    rw [List.forall_mem_cons] at h
    rw [percentEncode, List.flatMap_cons, ← percentEncode, ih h.2, if_pos h.1]
    rfl

theorem isLinkSafe_hexDigit : ∀ n < 16, isLinkSafe (hexDigit n) = true := by
  decide

/-- An escaped path has safe characters and the marks of escapes only. -/
theorem isLinkSafe_of_mem_percentEncode {path : List Char} {c : Char}
    (h : c ∈ percentEncode path) : isLinkSafe c = true ∨ c = '%' := by
  obtain ⟨d, -, hd⟩ := List.mem_flatMap.1 h
  split at hd
  · next hsafe =>
    rw [List.mem_singleton] at hd
    exact .inl (hd ▸ hsafe)
  · obtain ⟨b, -, hb⟩ := List.mem_flatMap.1 hd
    have hlt : b.toNat < 256 := b.toNat_lt
    simp only [percentByte, List.mem_cons, List.not_mem_nil, or_false] at hb
    rcases hb with rfl | rfl | rfl
    · exact .inr rfl
    · exact .inl (isLinkSafe_hexDigit _ (by omega))
    · exact .inl (isLinkSafe_hexDigit _ (by omega))

theorem not_mem_percentEncode {c : Char} (hsafe : isLinkSafe c = false) (hpercent : c ≠ '%')
    (path : List Char) : c ∉ percentEncode path := by
  intro h
  rcases isLinkSafe_of_mem_percentEncode h with h | h
  · cases hsafe.symm.trans h
  · exact hpercent h

end ApiPages.Text
