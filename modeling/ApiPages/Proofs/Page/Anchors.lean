import ApiPages.Page.Heading
import Mathlib.Data.List.Induction

/-!
# Claiming anchors

Anchors are claimed heading by heading, so those of two runs of headings one after the other are
those of the first, then those of the second from where the first ended. A name that is written as
code has the anchor of the name alone: backticks leave no trace in it.
-/

namespace ApiPages

/-! ## Small letters -/

namespace Text

variable {c : Char} {cs before before' : List Char}

theorem meetsCased_cons_of_ignorable (h : isCaseIgnorable c = true) (cs : List Char) :
    meetsCased (c :: cs) = meetsCased cs := by
  rw [meetsCased, List.dropWhile_cons_of_pos h, meetsCased]

theorem meetsCased_append_of_ignorable (h : isCaseIgnorable c = true) (cs : List Char) :
    meetsCased (cs ++ [c]) = meetsCased cs := by
  induction cs with
  | nil => exact meetsCased_cons_of_ignorable h []
  | cons d cs ih =>
    by_cases hd : isCaseIgnorable d = true
    · rw [List.cons_append, meetsCased_cons_of_ignorable hd, ih, meetsCased_cons_of_ignorable hd]
    · simp [meetsCased, hd]

/-- Of what was read before it only matters whether a cased letter is met there. -/
theorem lowerFrom_congr (h : meetsCased before = meetsCased before') (cs : List Char) :
    lowerFrom before cs = lowerFrom before' cs := by
  induction cs generalizing before before' with
  | nil => rfl
  | cons c cs ih =>
    have hcons : meetsCased (c :: before) = meetsCased (c :: before') := by
      by_cases hc : isCaseIgnorable c = true
      · rw [meetsCased_cons_of_ignorable hc, h, meetsCased_cons_of_ignorable hc]
      · simp [meetsCased, hc]
    rw [lowerFrom, lowerFrom, h, ih hcons]

theorem lowerFrom_append_singleton (h : isCaseIgnorable c = true) (hsigma : c ≠ 'Σ')
    (before cs : List Char) :
    lowerFrom before (cs ++ [c]) = lowerFrom before cs ++ lowerChar c := by
  induction cs generalizing before with
  | nil => simp [lowerFrom, hsigma]
  | cons d cs ih =>
    rw [List.cons_append, lowerFrom, lowerFrom, ih, meetsCased_append_of_ignorable h,
      List.append_assoc]

/-- Backticks around a text stay around its small letters. -/
theorem lower_quoted (cs : List Char) :
    lower ('\x60' :: cs ++ ['\x60']) = '\x60' :: lower cs ++ ['\x60'] := by
  -- a sigma is final whether or not a backtick stands beside it
  have hbefore : meetsCased ['\x60'] = meetsCased [] := rfl
  have htick : lowerChar '\x60' = ['\x60'] := rfl
  rw [lower, lowerFrom_append_singleton rfl (by decide), lowerFrom, if_neg (by decide), htick,
    lowerFrom_congr hbefore, lower]
  rfl

theorem dropBlanks_quoted (cs : List Char) :
    dropBlanks ('\x60' :: cs ++ ['\x60']) = '\x60' :: cs ++ ['\x60'] := by
  have hblank : isBlank '\x60' = false := rfl
  simp [dropBlanks, dropBlankStart, dropBlankEnd, dropEndWhile, hblank]

end Text

/-! ## Anchors by themselves -/

/-- A character that anchors do not keep is none that they put in its place. -/
theorem slugChar?_ne {c d e : Char} (he : slugChar? e = none) (h : slugChar? c = some d) :
    d ≠ e := by
  rintro rfl
  have hd : d = '-' ∨ d = c := by
    unfold slugChar? at h
    split at h
    · exact .inl (Option.some.inj h).symm
    · split at h
      · exact .inr (Option.some.inj h).symm
      · cases h
  rcases hd with rfl | rfl
  · exact absurd he (by decide)
  · cases he.symm.trans h

theorem not_mem_slug {c : Char} (hc : slugChar? c = none) (heading : String) :
    c ∉ (slug heading).toList := by
  rw [slug, String.toList_ofList, List.mem_filterMap]
  rintro ⟨d, -, hd⟩
  exact slugChar?_ne hc hd rfl

/-- **A trimmed text written as code has the anchor of the text.** -/
theorem slug_quoted {name : String} (h : Text.trim name = name) :
    slug ("\x60" ++ name ++ "\x60") = slug name := by
  have htext : ("\x60" ++ name ++ "\x60").toList = '\x60' :: name.toList ++ ['\x60'] := by
    simp
  have htrim : Text.dropBlanks name.toList = name.toList := by
    have hlist := congrArg String.toList h
    rwa [Text.trim, String.toList_ofList] at hlist
  have htick : slugChar? '\x60' = none := rfl
  rw [slug, slug, htext, Text.dropBlanks_quoted, Text.lower_quoted, htrim]
  simp [htick]

theorem not_mem_toDigits {c : Char} (hc : c.isDigit = false) (n : Nat) :
    c ∉ Nat.toDigits 10 n := by
  intro h
  have hdigit : c.isDigit = true := Nat.isDigit_of_mem_toDigits (by decide) (by decide) h
  cases hc.symm.trans hdigit

theorem newline_not_mem_toDigits (n : Nat) : '\n' ∉ Nat.toDigits 10 n :=
  not_mem_toDigits (by decide) n

/-! ## Claims -/

namespace Anchors

variable {a : Anchors} {xs ys : List String}

theorem not_mem_claim {c : Char} (hc : slugChar? c = none) (hdigit : c.isDigit = false)
    (a : Anchors) (heading : String) : c ∉ (a.claim heading).1.toList := by
  have hslug := not_mem_slug hc heading
  have hdigits := not_mem_toDigits hdigit (a.slugs.count (slug heading))
  have hhyphen : c ≠ '-' := by
    rintro rfl
    exact absurd hc (by decide)
  simp only [claim]
  split <;> simp [hslug, hdigits, hhyphen]

theorem claim_congr {x y : String} (h : slug x = slug y) (a : Anchors) : a.claim x = a.claim y := by
  rw [claim, claim, h]

theorem claimAll_cons (a : Anchors) (x : String) (xs : List String) :
    a.claimAll (x :: xs) =
      ((a.claim x).1 :: ((a.claim x).2.claimAll xs).1, ((a.claim x).2.claimAll xs).2) := rfl

theorem length_claimAll (a : Anchors) (xs : List String) :
    (a.claimAll xs).1.length = xs.length := by
  induction xs generalizing a with
  | nil => rfl
  | cons x xs ih => rw [claimAll_cons, List.length_cons, ih, List.length_cons]

/-- Headings one run after the other. -/
theorem claimAll_append (a : Anchors) (xs ys : List String) :
    a.claimAll (xs ++ ys) = ((a.claimAll xs).1 ++ ((a.claimAll xs).2.claimAll ys).1,
      ((a.claimAll xs).2.claimAll ys).2) := by
  induction xs generalizing a with
  | nil => rfl
  | cons x xs ih => rw [List.cons_append, claimAll_cons, ih, claimAll_cons, List.cons_append]

/-- Headings matter by their anchors only. -/
theorem claimAll_congr (h : xs.map slug = ys.map slug) (a : Anchors) :
    a.claimAll xs = a.claimAll ys := by
  induction xs generalizing a ys with
  | nil =>
    obtain rfl : ys = [] := List.map_eq_nil_iff.1 h.symm
    rfl
  | cons x xs ih =>
    obtain ⟨y, ys, rfl, hy, hys⟩ := List.map_eq_cons_iff.1 h.symm
    rw [claimAll_cons, claimAll_cons, claim_congr hy.symm, ih hys.symm]

theorem not_mem_claimHeadings {c : Char} (hc : slugChar? c = none) (hdigit : c.isDigit = false)
    (a : Anchors) (hs : List Heading) : c ∉ (a.claimHeadings hs).1.toList := by
  cases hs with
  | nil => simp [claimHeadings, claimAll]
  | cons h hs => exact not_mem_claim hc hdigit a h.words

end Anchors

end ApiPages
