import ApiPages.Declaration.Structure
import ApiPages.Proofs.Page.RepeatedHeadings
import ApiPages.Proofs.Text.Pieces

/-!
# Paths of records

A fault names its record by a path, and the path is written out in the message. No two paths have
the same text, so the text leads to the record (`text_inj`).
-/

namespace ApiPages.RecordPath

open Text

variable {p q : RecordPath}

/-- The path to a record below the one at a path. -/
def below (path : RecordPath) (is : List Nat) : RecordPath :=
  { path with members := path.members ++ is }

theorem below_nil (path : RecordPath) : path.below [] = path := by
  simp [below]

theorem below_member (path : RecordPath) (i : Nat) (is : List Nat) :
    (path.member i).below is = path.below (i :: is) := by
  simp [below, member]

/-! ## Texts -/

/-- The text of indices among members. -/
def memberText (members : List Nat) : List Char :=
  members.flatMap fun i => ".members[".toList ++ Nat.toDigits 10 i ++ [']']

theorem toList_foldl_members (members : List Nat) (s : String) :
    (members.foldl (fun s i => s ++ ".members[" ++ toString i ++ "]") s).toList =
      s.toList ++ memberText members := by
  induction members generalizing s with
  | nil => simp [memberText]
  | cons i members ih =>
    rw [List.foldl_cons, ih]
    simp [memberText]

theorem toList_text (p : RecordPath) :
    p.text.toList =
      "declarations[".toList ++ (Nat.toDigits 10 p.top ++ ']' :: memberText p.members) := by
  rw [text, toList_foldl_members]
  simp

/-- An index ends at its bracket. -/
theorem index_inj {i j : Nat} {cs ds : List Char}
    (h : Nat.toDigits 10 i ++ ']' :: cs = Nat.toDigits 10 j ++ ']' :: ds) : i = j ∧ cs = ds := by
  have hbracket : ∀ n, ']' ∉ Nat.toDigits 10 n := not_mem_toDigits (by decide)
  obtain ⟨hdigits, hrest⟩ := append_cons_inj_of_not_mem_left (hbracket i) (hbracket j) h
  exact ⟨toDigits_inj hdigits, hrest⟩

theorem memberText_inj {is js : List Nat} (h : memberText is = memberText js) : is = js := by
  induction is generalizing js with
  | nil =>
    cases js with
    | nil => rfl
    | cons j js => simp [memberText] at h
  | cons i is ih =>
    cases js with
    | nil => simp [memberText] at h
    | cons j js =>
      have hcons : ∀ n ns, memberText (n :: ns) =
          ".members[".toList ++ (Nat.toDigits 10 n ++ ']' :: memberText ns) := by
        intro n ns
        simp [memberText]
      rw [hcons, hcons] at h
      obtain ⟨rfl, hrest⟩ := index_inj (List.append_cancel_left h)
      rw [ih hrest]

/-- **The text of a path tells the path.** -/
theorem text_inj (h : p.text = q.text) : p = q := by
  have hlists := congrArg String.toList h
  rw [toList_text, toList_text] at hlists
  obtain ⟨htop, hmembers⟩ := index_inj (List.append_cancel_left hlists)
  cases p
  cases q
  rw [mk.injEq]
  exact ⟨htop, memberText_inj hmembers⟩

end ApiPages.RecordPath
