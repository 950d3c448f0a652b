import ApiPages.Proofs.Comment.CalloutLine
import ApiPages.Proofs.Comment.Reading
import Mathlib.Data.List.Forall2

/-!
# Two spellings of parameters

Parameters are written as callouts, one each, or as the entries of a list. The callouts give the
parameters back whatever they are called. The list gives them back when no entry is a callout by
itself, since a line is looked at as a callout first (`parse_listed_iff`).
-/

namespace ApiPages

open Text

namespace Callout

/-- The word, given in small letters, with any of its letters written as capitals. -/
def IsWord (word cs : List Char) : Prop :=
  List.Forall₂ (fun letter c => isLetter letter c = true) word cs

instance (word cs : List Char) : Decidable (IsWord word cs) :=
  inferInstanceAs (Decidable (List.Forall₂ _ word cs))

variable {word cs ys rest text : List Char} {name : String} {callout : Callout} {p : Parameter}

/-! ## Words and colons -/

theorem afterWord?_eq_some_iff :
    afterWord? word cs = some rest ↔ ∃ xs, cs = xs ++ rest ∧ IsWord word xs := by
  unfold IsWord
  induction word generalizing cs with
  | nil => simp [afterWord?, List.forall₂_nil_left_iff]
  | cons letter word ih =>
    cases cs with
    | nil => simp [afterWord?, List.forall₂_cons_left_iff]
    | cons c cs =>
      rw [afterWord?]
      split
      · next hletter =>
        rw [ih]
        simp only [List.forall₂_cons_left_iff]
        constructor
        · rintro ⟨xs, rfl, hword⟩
          exact ⟨c :: xs, rfl, c, xs, hletter, hword, rfl⟩
        · rintro ⟨-, hcs, c', xs, -, hword, rfl⟩
          obtain ⟨rfl, rfl⟩ := List.cons.inj hcs
          exact ⟨xs, rfl, hword⟩
      · next hletter =>
        simp only [List.forall₂_cons_left_iff, reduceCtorEq, false_iff]
        rintro ⟨-, hcs, c', xs, hc, -, rfl⟩
        obtain ⟨rfl, -⟩ := List.cons.inj hcs
        exact hletter hc

theorem IsWord.exists_letter (h : IsWord word cs) :
    ∀ c ∈ cs, ∃ letter ∈ word, isLetter letter c = true := by
  induction h with
  | nil => simp
  | cons hletter _ ih =>
    intro c hc
    rcases List.mem_cons.1 hc with rfl | hc
    · exact ⟨_, List.mem_cons_self, hletter⟩
    · obtain ⟨letter, hmem, h⟩ := ih c hc
      exact ⟨letter, List.mem_cons_of_mem _ hmem, h⟩

theorem afterWord?_append (word more cs : List Char) :
    afterWord? (word ++ more) cs = (afterWord? word cs).bind (afterWord? more) := by
  induction word generalizing cs with
  | nil => rfl
  | cons letter word ih =>
    cases cs with
    | nil => rfl
    | cons c cs =>
      rw [List.cons_append, afterWord?, afterWord?, ih]
      split <;> rfl

/-- A word that is read before a colon ends there at the latest. -/
theorem afterWord?_append_colon (hword : word.any (isLetter · ':') = false)
    (cs : List Char) : afterWord? word (ys ++ ':' :: cs) = some rest ↔
      ∃ xs zs, ys = xs ++ zs ∧ IsWord word xs ∧ rest = zs ++ ':' :: cs := by
  rw [afterWord?_eq_some_iff]
  constructor
  · rintro ⟨xs, hxs, hxword⟩
    rcases List.append_eq_append_iff.1 hxs with ⟨zs, rfl, hzs⟩ | ⟨zs, rfl, rfl⟩
    · cases zs with
      | nil => exact ⟨ys, [], by simp, by simpa using hxword, by simpa using hzs.symm⟩
      | cons z zs =>
        -- the word would have the colon in it
        obtain ⟨rfl, -⟩ := List.cons.inj hzs
        obtain ⟨letter, hmem, hcolon⟩ := hxword.exists_letter ':' (by simp)
        exact absurd hcolon (List.any_eq_false.1 hword letter hmem)
    · exact ⟨xs, zs, rfl, hxword, rfl⟩
  · rintro ⟨xs, zs, rfl, hxword, rfl⟩
    exact ⟨xs, by simp, hxword⟩

theorem afterColon?_append_colon (hys : ∀ c ∈ ys, isNameChar c = true) (cs : List Char) :
    afterColon? (ys ++ ':' :: cs) = some text ↔ ys = [] ∧ text = dropBlanks cs := by
  cases ys with
  | nil =>
    have hcolon : afterColon? (':' :: cs) = some (dropBlanks cs) := rfl
    simp [hcolon, eq_comm]
  | cons c ys =>
    have hc : isBlank c = false ∧ c ≠ ':' := by simpa [isNameChar] using hys c List.mem_cons_self
    have hnone : afterColon? (c :: (ys ++ ':' :: cs)) = none := by
      rw [afterColon?, dropBlankStart, List.dropWhile_cons_of_neg (by simp [hc.1])]
      split
      · next heq => exact absurd (List.cons.inj heq).1 hc.2
      · rfl
    simp [hnone]

/-- A word and the colon after it are read from a name and a colon when the name is the word. -/
theorem afterWord?_bind_afterColon? (hword : word.any (isLetter · ':') = false)
    (hys : ∀ c ∈ ys, isNameChar c = true) (cs : List Char) :
    (afterWord? word (ys ++ ':' :: cs)).bind afterColon? = some text ↔
      IsWord word ys ∧ text = dropBlanks cs := by
  simp only [Option.bind_eq_some_iff, afterWord?_append_colon hword]
  constructor
  · rintro ⟨-, ⟨xs, zs, rfl, hxword, rfl⟩, htext⟩
    obtain ⟨rfl, rfl⟩ := (afterColon?_append_colon (fun c hc => hys c (by simp [hc])) cs).1 htext
    exact ⟨by simpa using hxword, rfl⟩
  · rintro ⟨hyword, rfl⟩
    exact ⟨':' :: cs, ⟨ys, [], by simp, hyword, rfl⟩, rfl⟩

/-! ## Names before a colon -/

theorem eq_none_iff_of_forall {α : Type} {x : Option α} {P : Prop} {a : α}
    (h : ∀ b, x = some b ↔ P ∧ b = a) : x = none ↔ ¬ P := by
  constructor
  · intro hnone hp
    exact absurd ((h a).2 ⟨hp, rfl⟩) (by simp [hnone])
  · intro hp
    rw [Option.eq_none_iff_forall_ne_some]
    intro b hb
    exact hp ((h b).1 hb).1

section Named

variable (hys : ∀ c ∈ ys, isNameChar c = true) (cs)
include hys

theorem parameterList?_named : parameterList? (ys ++ ':' :: cs) = some callout ↔
    (IsWord "parameters".toList ys ∧ dropBlanks cs = []) ∧ callout = .parameterList := by
  have hcolon : "parameters".toList.any (isLetter · ':') = false := by decide
  rw [parameterList?, Option.bind_eq_some_iff]
  simp only [afterWord?_bind_afterColon? hcolon hys]
  constructor
  · rintro ⟨-, ⟨hword, rfl⟩, hhead⟩
    split at hhead
    · next hempty => exact ⟨⟨hword, by simpa using hempty⟩, (Option.some.inj hhead).symm⟩
    · cases hhead
  · rintro ⟨⟨hword, hempty⟩, rfl⟩
    exact ⟨_, ⟨hword, rfl⟩, by simp [hempty]⟩

/-- No blanks stand in a name or before the colon, and so no name after a word. -/
theorem parameter?_named : parameter? (ys ++ ':' :: cs) = none := by
  have hcolon : "parameter".toList.any (isLetter · ':') = false := by decide
  rw [parameter?, Option.bind_eq_none_iff]
  intro rest hrest
  obtain ⟨xs, zs, rfl, -, rfl⟩ := (afterWord?_append_colon hcolon cs).1 hrest
  refine if_neg ?_
  cases zs with
  | nil => simp [show isBlank ':' = false from rfl]
  | cons z zs =>
    have hz : isBlank z = false := by
      have hname := hys z (by simp)
      simp only [isNameChar, Bool.and_eq_true] at hname
      simpa using hname.1
    simp [hz]

theorem returns?_named : returns? (ys ++ ':' :: cs) = some callout ↔
    (IsWord "return".toList ys ∨ IsWord "returns".toList ys) ∧
      callout = .returns (String.ofList (dropBlanks cs)) := by
  have hcolon : "return".toList.any (isLetter · ':') = false := by decide
  have hplural : ['s'].any (isLetter · ':') = false := by decide
  rw [returns?, Option.bind_eq_some_iff]
  simp only [Option.map_eq_some_iff]
  constructor
  · rintro ⟨rest, hrest, text, htext, rfl⟩
    obtain ⟨xs, zs, rfl, hword, rfl⟩ := (afterWord?_append_colon hcolon cs).1 hrest
    have hzs : ∀ c ∈ zs, isNameChar c = true := fun c hc => hys c (by simp [hc])
    cases hs : afterWord? ['s'] (zs ++ ':' :: cs) with
    | none =>
      rw [hs, Option.getD_none, afterColon?_append_colon hzs] at htext
      obtain ⟨rfl, rfl⟩ := htext
      exact ⟨.inl (by simpa using hword), rfl⟩
    | some plural =>
      obtain ⟨s, zs', rfl, hsword, rfl⟩ := (afterWord?_append_colon hplural cs).1 hs
      rw [hs, Option.getD_some,
        afterColon?_append_colon fun c hc => hzs c (List.mem_append_right _ hc)] at htext
      obtain ⟨rfl, rfl⟩ := htext
      refine ⟨.inr ?_, rfl⟩
      rw [List.append_nil]
      exact List.rel_append hword hsword
  · rintro ⟨hword | hword, rfl⟩
    · have hrest : afterWord? "return".toList (ys ++ ':' :: cs) = some (':' :: cs) :=
        (afterWord?_append_colon hcolon cs).2 ⟨ys, [], by simp, hword, rfl⟩
      exact ⟨_, hrest, dropBlanks cs, rfl, rfl⟩
    · have hrest : afterWord? "returns".toList (ys ++ ':' :: cs) = some (':' :: cs) :=
        (afterWord?_append_colon (by decide) cs).2 ⟨ys, [], by simp, hword, rfl⟩
      have hwords : "returns".toList = "return".toList ++ ['s'] := rfl
      rw [hwords, afterWord?_append, Option.bind_eq_some_iff] at hrest
      obtain ⟨rest, hrest, hs⟩ := hrest
      exact ⟨rest, hrest, dropBlanks cs, by rw [hs]; rfl, rfl⟩

theorem throws?_named : throws? (ys ++ ':' :: cs) = some callout ↔
    IsWord "throws".toList ys ∧ callout = .throws (String.ofList (dropBlanks cs)) := by
  have hcolon : "throws".toList.any (isLetter · ':') = false := by decide
  rw [throws?, Option.map_eq_some_iff]
  simp only [afterWord?_bind_afterColon? hcolon hys]
  constructor
  · rintro ⟨-, ⟨hword, rfl⟩, rfl⟩
    exact ⟨hword, rfl⟩
  · rintro ⟨hword, rfl⟩
    exact ⟨_, ⟨hword, rfl⟩, rfl⟩

end Named

end Callout

namespace Parameter

open Callout

variable {p : Parameter} {callout : Callout}

/-- The line that a parameter is written as in a list. -/
def entryLine (p : Parameter) : String :=
  "  - " ++ p.name ++ ": " ++ p.description

/-- Whether the line of a parameter in a list is a callout by itself: the parameter is called like
one, and says nothing if it is called like the head of a list. -/
def IsCalloutLike (p : Parameter) : Prop :=
  IsWord "return".toList p.name.toList ∨ IsWord "returns".toList p.name.toList ∨
    IsWord "throws".toList p.name.toList ∨
      (IsWord "parameters".toList p.name.toList ∧ p.description = "")

instance (p : Parameter) : Decidable p.IsCalloutLike :=
  inferInstanceAs (Decidable (_ ∨ _ ∨ _ ∨ (_ ∧ _)))

theorem exists_dropBlanks_entryLine (h : (parameter p).Fits) :
    ∃ rest, dropBlanks p.entryLine.toList = '-' :: ' ' :: (p.name.toList ++ ':' :: rest) ∧
      String.ofList (dropBlanks rest) = p.description := by
  refine ⟨dropBlankEnd (' ' :: p.description.toList), ?_, ofList_afterColon h.2.2⟩
  have hline : p.entryLine.toList =
      ' ' :: ' ' :: ('-' :: (' ' :: p.name.toList) ++ ':' :: ' ' :: p.description.toList) := by
    simp [entryLine]
  rw [hline, dropBlanks_cons (by decide), dropBlanks_cons (by decide), dropBlanks_beforeColon]
  rfl

theorem item?_entry (h : (parameter p).Fits) (rest : List Char) :
    item? ('-' :: ' ' :: (p.name.toList ++ ':' :: rest)) = some (p.name.toList ++ ':' :: rest) := by
  have hitem : item? ('-' :: ' ' :: (p.name.toList ++ ':' :: rest)) =
      some (dropBlankStart (' ' :: (p.name.toList ++ ':' :: rest))) := rfl
  rw [hitem, dropBlankStart_name h.2.1]

theorem entry?_entryLine (h : (parameter p).Fits) :
    Callout.entry? (dropBlanks p.entryLine.toList) = some p := by
  obtain ⟨rest, hline, hrest⟩ := exists_dropBlanks_entryLine h
  rw [hline, Callout.entry?, item?_entry h, Option.bind_some, named?_append_colon h.1 h.2.1, hrest]

/-- An entry is a callout when the name of the parameter makes it one, and not one for the
parameter. -/
theorem ofLine?_entryLine (h : (parameter p).Fits) :
    (Callout.ofLine? (dropBlanks p.entryLine.toList) = none ↔ ¬ p.IsCalloutLike) ∧
      ∀ q, Callout.ofLine? (dropBlanks p.entryLine.toList) ≠ some (.parameter q) := by
  obtain ⟨rest, hline, hrest⟩ := exists_dropBlanks_entryLine h
  have hempty : dropBlanks rest = [] ↔ p.description = "" := by
    rw [← hrest]
    simp
  have hname := h.2.1
  rw [hline, ofLine?, item?_entry h, Option.bind_some, parameter?_named rest hname, Option.none_or]
  constructor
  · rw [Option.or_eq_none_iff, Option.or_eq_none_iff,
      eq_none_iff_of_forall fun _ => parameterList?_named rest hname,
      eq_none_iff_of_forall fun _ => returns?_named rest hname,
      eq_none_iff_of_forall fun _ => throws?_named rest hname, hempty, IsCalloutLike]
    constructor
    · rintro ⟨hlist, hreturns, hthrows⟩ (h | h | h | h)
      · exact hreturns (.inl h)
      · exact hreturns (.inr h)
      · exact hthrows h
      · exact hlist h
    · intro h
      exact ⟨fun hlist => h (.inr (.inr (.inr hlist))),
        fun hreturns => h (hreturns.imp_right .inl), fun hthrows => h (.inr (.inr (.inl hthrows)))⟩
  · intro q hq
    simp only [Option.or_eq_some_iff, parameterList?_named rest hname, returns?_named rest hname,
      throws?_named rest hname] at hq
    rcases hq with ⟨-, hq⟩ | ⟨-, ⟨-, hq⟩ | ⟨-, -, hq⟩⟩ <;> cases hq

theorem newline_not_mem_entryLine (h : (parameter p).Fits) : '\n' ∉ p.entryLine.toList := by
  have hname : '\n' ∉ p.name.toList := fun hmem => absurd (h.2.1 _ hmem) (by decide)
  simp [entryLine, hname, h.2.2.oneLine]

/-- An entry begins with a dash, and so with no fence. -/
theorem isFence_entryLine (h : (parameter p).Fits) : isFence p.entryLine.toList = false := by
  obtain ⟨rest, hline, -⟩ := exists_dropBlanks_entryLine h
  rw [← isFence_dropBlankEnd, ← isFence_dropBlankStart, dropBlankStart_dropBlankEnd, hline]
  rfl

end Parameter

namespace Comment

open Parameter Callout

variable {d : Draft} {line : List Char} {p : Parameter} {ps : List Parameter}

/-- Parameters as the entries of a list. -/
def listed (ps : List Parameter) : String :=
  "\n".intercalate (Callout.parameterList.line :: ps.map entryLine)

/-- Parameters as callouts, one each. -/
def spelledOut (ps : List Parameter) : String :=
  "\n".intercalate (ps.map fun p => (Callout.parameter p).line)

namespace Draft

/-! ## Entries that are read -/

theorem read_entryLine (hcode : d.inCode = false) (hpart : d.part = .parameterList)
    (h : (Callout.parameter p).Fits) (hplain : ¬ p.IsCalloutLike) :
    d.read p.entryLine.toList = { d with parameters := d.parameters ++ [p] } := by
  have hentry : d.entry? p.entryLine.toList = some p := by
    unfold entry?
    rw [if_pos hpart, entry?_entryLine h]
  rw [read_of_prose (by rw [isFence_entryLine h, hcode]; rfl), readProse,
    (ofLine?_entryLine h).1.2 hplain, hentry]

theorem foldl_read_entryLines (hcode : d.inCode = false) (hpart : d.part = .parameterList)
    (hps : ∀ p ∈ ps, (Callout.parameter p).Fits) (hplain : ∀ p ∈ ps, ¬ p.IsCalloutLike) :
    (ps.map fun p => p.entryLine.toList).foldl read d =
      { d with parameters := d.parameters ++ ps } := by
  induction ps generalizing d with
  | nil => simp
  | cons p ps ih =>
    rw [List.forall_mem_cons] at hps hplain
    rw [List.map_cons, List.foldl_cons, read_entryLine hcode hpart hps.1 hplain.1,
      ih (d := { d with parameters := d.parameters ++ [p] }) hcode hpart hps.2 hplain.2]
    simp

/-! ## Entries that are counted -/

/-- A line adds one parameter at the most, and none if it is a callout for something else. -/
theorem length_parameters_read (d : Draft) (line : List Char) :
    (d.read line).parameters.length ≤ d.parameters.length + 1 ∧
      (Callout.ofLine? (dropBlanks line) ≠ none →
        (∀ p, Callout.ofLine? (dropBlanks line) ≠ some (.parameter p)) →
          (d.read line).parameters.length = d.parameters.length) := by
  cases hcode : isFence line || d.inCode with
  | true =>
    rw [read_of_code hcode]
    exact ⟨Nat.le_succ _, fun _ _ => rfl⟩
  | false =>
    rw [read_of_prose hcode, readProse]
    cases Callout.ofLine? (dropBlanks line) with
    | some callout => cases callout <;> simp [readCallout]
    | none =>
      cases d.entry? line with
      | some p => simp
      | none => simp [length_parameters_readText]

theorem length_parameters_foldl_read (d : Draft) (ls : List (List Char)) :
    (ls.foldl read d).parameters.length ≤ d.parameters.length + ls.length := by
  induction ls generalizing d with
  | nil => exact Nat.le_refl _
  | cons line ls ih =>
    have hline := (length_parameters_read d line).1
    have hls := ih (d.read line)
    rw [List.foldl_cons, List.length_cons]
    omega

/-- An entry that is a callout is missed. -/
theorem length_parameters_foldl_entryLines_lt (h : (Callout.parameter p).Fits) (hp : p ∈ ps)
    (hlike : p.IsCalloutLike) :
    ((ps.map fun p => p.entryLine.toList).foldl read d).parameters.length <
      d.parameters.length + ps.length := by
  obtain ⟨qs, rs, rfl⟩ := List.append_of_mem hp
  rw [List.map_append, List.foldl_append, List.map_cons, List.foldl_cons]
  have hbefore := length_parameters_foldl_read d (qs.map fun p => p.entryLine.toList)
  generalize (qs.map fun p => p.entryLine.toList).foldl read d = d' at hbefore
  have hentry := (length_parameters_read d' p.entryLine.toList).2
    (fun hnone => (ofLine?_entryLine h).1.1 hnone hlike) (ofLine?_entryLine h).2
  have hafter := length_parameters_foldl_read (d'.read p.entryLine.toList)
    (rs.map fun p => p.entryLine.toList)
  simp only [List.length_map, List.length_append, List.length_cons] at *
  omega

/-- The comment of a draft that has parameters and nothing else. -/
theorem finish_parameters (part : Part) (ps : List Parameter) :
    ({ start with part := part, parameters := ps } : Draft).finish =
      { empty with parameters := ps } := by
  have hdiscussion : nonempty? (discussionText []) = none := by decide +kernel
  have hnone : nonempty? "" = none := rfl
  simp [finish, start, empty, hdiscussion, hnone]

end Draft

/-! ## Comments of parameters -/

theorem pieces_listed (hps : ∀ p ∈ ps, (Callout.parameter p).Fits) :
    pieces '\n' (listed ps).toList =
      Callout.parameterList.line.toList :: ps.map fun p => p.entryLine.toList := by
  rw [listed, toList_intercalate_newline, pieces_joinPieces]
  · simp [List.map_map, Function.comp_def]
  · intro line hline
    rw [List.map_cons, List.map_map, List.mem_cons, List.mem_map] at hline
    rcases hline with rfl | ⟨p, hp, rfl⟩
    · decide
    · exact newline_not_mem_entryLine (hps p hp)
  · simp

theorem parse_spelledOut (hps : ∀ p ∈ ps, (Callout.parameter p).Fits) :
    parse (spelledOut ps) = { empty with parameters := ps } := by
  cases hempty : ps with
  | nil => decide +kernel
  | cons q qs =>
    have hpieces : pieces '\n' (spelledOut ps).toList =
        (ps.map Callout.parameter).map fun callout => callout.line.toList := by
      rw [spelledOut, toList_intercalate_newline, pieces_joinPieces]
      · simp [List.map_map, Function.comp_def]
      · intro line hline
        rw [List.map_map, List.mem_map] at hline
        obtain ⟨p, hp, rfl⟩ := hline
        exact Callout.newline_not_mem_line (hps p hp)
      · simp [hempty]
    have hread : ∀ callout ∈ ps.map Callout.parameter,
        Callout.ofLine? (dropBlanks callout.line.toList) = some callout := by
      intro callout hcallout
      obtain ⟨p, hp, rfl⟩ := List.mem_map.1 hcallout
      exact Callout.ofLine?_line (hps p hp)
    rw [← hempty, parse_eq, hpieces, Draft.foldl_read_callouts rfl hread,
      Draft.foldl_readCallout_parameters]
    exact Draft.finish_parameters _ ps

theorem parse_listed (hps : ∀ p ∈ ps, (Callout.parameter p).Fits) :
    parse (listed ps) = ((ps.map fun p => p.entryLine.toList).foldl Draft.read
      { Draft.start with part := .parameterList }).finish := by
  have hfits : Callout.parameterList.Fits := trivial
  have hhead : Draft.start.read Callout.parameterList.line.toList =
      { Draft.start with part := .parameterList } :=
    Draft.read_callout rfl (Callout.ofLine?_line hfits)
  rw [parse_eq, pieces_listed hps, List.foldl_cons, hhead]

/-- **The two spellings.** Parameters written as callouts are read as they are. Written as a list
they are read alike when no entry is a callout by itself, and only then. -/
theorem parse_listed_iff (hps : ∀ p ∈ ps, (Callout.parameter p).Fits) :
    parse (spelledOut ps) = { empty with parameters := ps } ∧
      (parse (listed ps) = parse (spelledOut ps) ↔ ∀ p ∈ ps, ¬ p.IsCalloutLike) := by
  refine ⟨parse_spelledOut hps, ?_⟩
  rw [parse_spelledOut hps, parse_listed hps]
  constructor
  · intro h p hp hlike
    have hmissed := Draft.length_parameters_foldl_entryLines_lt
      (d := { Draft.start with part := .parameterList }) (hps p hp) hp hlike
    have hall := congrArg (fun c => c.parameters.length) h
    rw [Draft.finish] at hall
    dsimp only at hall
    rw [hall] at hmissed
    exact absurd hmissed (by simp [Draft.start])
  · intro hplain
    rw [Draft.foldl_read_entryLines rfl rfl hps hplain]
    exact Draft.finish_parameters _ ps

/-- Parameters that have names near to the words of callouts. -/
def nearlyCallouts : List Parameter :=
  [⟨"parameters", "The values"⟩, ⟨"parameter", ""⟩, ⟨"Return_", "A name"⟩,
    ⟨"throw", "- Returns: x"⟩]

theorem parse_nearlyCallouts :
    parse ("- Parameters:\n  - parameters: The values\n  - parameter: \n  - Return_: A name\n" ++
        "  - throw: - Returns: x") = { empty with parameters := nearlyCallouts } ∧
      parse ("- Parameter parameters: The values\n- Parameter parameter: \n" ++
        "- Parameter Return_: A name\n- Parameter throw: - Returns: x") =
          { empty with parameters := nearlyCallouts } := by
  have hfits : ∀ p ∈ nearlyCallouts, p.name ≠ "" ∧ p.name.toList.all isNameChar = true ∧
      '\n' ∉ p.description.toList ∧ trim p.description = p.description := by
    decide +kernel
  have hparameter : ∀ p ∈ nearlyCallouts, (Callout.parameter p).Fits := by
    intro p hp
    obtain ⟨hne, hname, hline, htrim⟩ := hfits p hp
    exact ⟨hne, List.all_eq_true.1 hname, hline, htrim⟩
  obtain ⟨hspelledOut, hlisted⟩ := parse_listed_iff hparameter
  have hread := hlisted.2 (by decide +kernel)
  refine ⟨(congrArg parse ?_).trans (hread.trans hspelledOut),
    (congrArg parse ?_).trans hspelledOut⟩ <;> decide +kernel

/-- A parameter in a list that is called like the callout for the return value is none. -/
theorem not_parse_listed_eq_spelledOut : ¬ ∀ ps : List Parameter, ps ≠ [] →
    (∀ p ∈ ps, (Callout.parameter p).Fits) →
      parse (listed ps) = parse (spelledOut ps) ∧
        parse (listed ps) = { empty with parameters := ps } := by
  intro h
  have hname : ∀ c ∈ "returns".toList, isNameChar c = true := List.all_eq_true.1 (by decide)
  have hfits : (Callout.parameter ⟨"returns", "Whether it returns"⟩).Fits :=
    ⟨by decide, hname, by decide +kernel, by decide +kernel⟩
  have hread := (h [⟨"returns", "Whether it returns"⟩] (by simp) (by simpa using hfits)).2
  have hreturns : parse (listed [⟨"returns", "Whether it returns"⟩]) =
      { empty with returns := some "Whether it returns" } := by
    decide +kernel
  rw [hreturns] at hread
  cases hread

end Comment

end ApiPages
