import ApiPages.Proofs.Page.Anchors
import Mathlib.Data.List.Nodup

/-!
# Repeated headings

The anchor of a heading is its slug with a number: how many headings with the same slug stand before
it. Slugs with different numbers give different anchors, but for one case: a heading may have by
itself the slug that a repeat of another heading gets with its number. The anchors of a document are
distinct just when this does not happen (`nodup_claimAll_iff`).
-/

namespace ApiPages

variable {s t : String} {k l : Nat}

/-! ## Numbered slugs -/

/-- The anchor of a heading with a slug that so many headings before it have. -/
def numberedSlug (s : String) (before : Nat) : String :=
  if before = 0 then s else s ++ "-" ++ toString before

@[simp] theorem numberedSlug_zero (s : String) : numberedSlug s 0 = s := rfl

theorem toList_numberedSlug (s : String) (hk : 0 < k) :
    (numberedSlug s k).toList = s.toList ++ '-' :: Nat.toDigits 10 k := by
  rw [numberedSlug, if_neg (Nat.ne_of_gt hk)]
  simp

theorem hyphen_not_mem_toDigits (n : Nat) : '-' ∉ Nat.toDigits 10 n :=
  not_mem_toDigits (by decide) n

theorem toDigits_inj (h : Nat.toDigits 10 k = Nat.toDigits 10 l) : k = l := by
  have hread := congrArg (fun digits => Nat.ofDigitChars 10 digits 0) h
  simpa using hread

/-- A text is known by what stands in front of its last mark and what stands behind that. -/
theorem append_cons_inj_of_not_mem {α : Type} {a : α} {xs ys xs' ys' : List α} (hys : a ∉ ys)
    (hys' : a ∉ ys') (h : xs ++ a :: ys = xs' ++ a :: ys') : xs = xs' ∧ ys = ys' := by
  rcases List.append_eq_append_iff.1 h with ⟨zs, rfl, hzs⟩ | ⟨zs, rfl, hzs⟩
  · cases zs with
    | nil => simpa using hzs
    | cons z zs =>
      obtain ⟨-, rfl⟩ := List.cons.inj hzs
      simp at hys
  · cases zs with
    | nil => simpa using hzs.symm
    | cons z zs =>
      obtain ⟨-, rfl⟩ := List.cons.inj hzs
      simp at hys'

/-- A slug that has a number can be told from its anchor, and so can the number. -/
theorem numberedSlug_inj (hk : 0 < k) (hl : 0 < l) (h : numberedSlug s k = numberedSlug t l) :
    s = t ∧ k = l := by
  have hlists := congrArg String.toList h
  rw [toList_numberedSlug s hk, toList_numberedSlug t hl] at hlists
  obtain ⟨hslugs, hdigits⟩ :=
    append_cons_inj_of_not_mem (hyphen_not_mem_toDigits k) (hyphen_not_mem_toDigits l) hlists
  exact ⟨String.toList_inj.1 hslugs, toDigits_inj hdigits⟩

/-! ## The numbers of the headings of a document -/

/-- Slugs with their numbers, behind headings with other slugs. -/
def countRepeats (before : List String) : List String → List (String × Nat)
  | [] => []
  | s :: ss => (s, before.count s) :: countRepeats (s :: before) ss

/-- A slug gets the numbers from the one that the headings before leave to it, one after another. -/
theorem mem_countRepeats_iff {before ss : List String} : (s, k) ∈ countRepeats before ss ↔
    before.count s ≤ k ∧ k < before.count s + ss.count s := by
  induction ss generalizing before with
  | nil => simp [countRepeats]
  | cons t ss ih =>
    rw [countRepeats, List.mem_cons, ih, Prod.mk.injEq]
    by_cases hts : t = s
    · subst hts
      rw [List.count_cons_self, List.count_cons_self]
      simp only [true_and]
      omega
    · rw [List.count_cons_of_ne hts, List.count_cons_of_ne hts]
      simp [Ne.symm hts]

/-- No slug gets a number twice. -/
theorem nodup_countRepeats (before ss : List String) : (countRepeats before ss).Nodup := by
  induction ss generalizing before with
  | nil => exact List.nodup_nil
  | cons t ss ih =>
    refine List.nodup_cons.2 ⟨?_, ih (t :: before)⟩
    rw [mem_countRepeats_iff, List.count_cons_self]
    omega

namespace Anchors

theorem claim_fst (a : Anchors) (heading : String) :
    (a.claim heading).1 = numberedSlug (slug heading) (a.slugs.count (slug heading)) := rfl

theorem claimAll_eq_map (a : Anchors) (headings : List String) :
    (a.claimAll headings).1 =
      (countRepeats a.slugs (headings.map slug)).map fun r => numberedSlug r.1 r.2 := by
  induction headings generalizing a with
  | nil => rfl
  | cons heading headings ih =>
    rw [claimAll_cons, ih, claim_fst, List.map_cons, countRepeats, List.map_cons]
    rfl

theorem mem_countRepeats_empty {headings : List String} :
    (s, k) ∈ countRepeats empty.slugs (headings.map slug) ↔ k < (headings.map slug).count s := by
  rw [mem_countRepeats_iff]
  simp [empty]

/-- **The anchors of a document are distinct** just when no heading has by itself the slug that a
repeated heading gets with its number. -/
theorem nodup_claimAll_iff (headings : List String) :
    (empty.claimAll headings).1.Nodup ↔
      ∀ s k, 0 < k → k < (headings.map slug).count s → numberedSlug s k ∉ headings.map slug := by
  rw [claimAll_eq_map, List.nodup_map_iff_inj_on (nodup_countRepeats _ _)]
  constructor
  · -- the heading would be numbered with zero, and the repeat is not
    intro hinj s k hpos hk hmem
    have hrepeat : (s, k) ∈ countRepeats empty.slugs (headings.map slug) :=
      mem_countRepeats_empty.2 hk
    have hown : (numberedSlug s k, 0) ∈ countRepeats empty.slugs (headings.map slug) :=
      mem_countRepeats_empty.2 (List.count_pos_iff.2 hmem)
    have hsame := hinj _ hrepeat _ hown rfl
    exact absurd (congrArg Prod.snd hsame) (Nat.ne_of_gt hpos)
  · rintro hfree ⟨s, k⟩ hs ⟨t, l⟩ ht heq
    rw [mem_countRepeats_empty] at hs ht
    replace heq : numberedSlug s k = numberedSlug t l := heq
    -- an anchor without a number is the slug of a heading
    have hmem : ∀ {t : String}, 0 < (headings.map slug).count t → t ∈ headings.map slug :=
      List.count_pos_iff.1
    rcases Nat.eq_zero_or_pos k with rfl | hk
    · rcases Nat.eq_zero_or_pos l with rfl | hl
      · rw [numberedSlug_zero, numberedSlug_zero] at heq
        rw [heq]
      · rw [numberedSlug_zero] at heq
        exact absurd (heq ▸ hmem hs) (hfree t l hl ht)
    · rcases Nat.eq_zero_or_pos l with rfl | hl
      · rw [numberedSlug_zero] at heq
        exact absurd (heq ▸ hmem ht) (hfree s k hk hs)
      · obtain ⟨rfl, rfl⟩ := numberedSlug_inj hk hl heq
        rfl

/-- The third of these headings has the anchor that the second one gets as a repeat of the first. -/
theorem not_nodup_claimAll : ¬ ∀ headings, (empty.claimAll headings).1.Nodup := by
  intro h
  exact absurd (h ["a", "a", "a-1"]) (by decide +kernel)

end Anchors

end ApiPages
