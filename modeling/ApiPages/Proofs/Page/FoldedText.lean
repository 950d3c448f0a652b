import ApiPages.Proofs.Page.Assembly
import ApiPages.Proofs.Page.Plain

/-!
# What a fold holds

The fold of a member begins with the line that stays when it is closed. Then come the signature of
the member and what is known of it, and after these its own members, each as a heading with a fold
below it (`unfolds_foldedText`).
-/

namespace ApiPages

/-- The line of a fold that is seen when the rest is folded away, with the line ends around it. -/
def summaryLine (name : String) : String :=
  "\n<summary><code>" ++ name ++ "</code></summary>\n\n"

theorem toList_summaryLine (name : String) : (summaryLine name).toList =
    "\n<summary><code>".toList ++ name.toList ++ "</code></summary>\n\n".toList := by
  show ("\n<summary><code>" ++ name ++ "</code></summary>\n\n").toList = _
  rw [String.toList_append, String.toList_append]

namespace Scope

/-- What the fold of a member at a level encloses: the line that stays, then the signature and the
documentation of the member, then its own members. -/
def foldedText (s : Scope) (level : Nat) (d : Declaration) : String :=
  summaryLine d.name ++ Block.join (s.ownBlocks level d ++ s.membersBlocks (level + 1) d.members)

/-- A member at a level as it stands in a document: its heading and its fold. -/
def memberText (s : Scope) (level : Nat) (d : Declaration) : String :=
  Heading.line ⟨level, d.name, true⟩ ++ "\n\n" ++
    ("<details>" ++ s.foldedText level d ++ "</details>\n\n")

/-- A text that says what is known of a declaration itself: it begins with the signature, and has
the supertypes, the documentation and the descriptions of parameters in it. -/
structure Describes (s : Scope) (d : Declaration) (text : String) : Prop where
  signature : ("```swift\n" ++ Text.trimEnd d.signature ++ "\n```").toList <+: text.toList
  inheritance : ∀ n ∈ d.inheritance, (s.index.codeLink n s.path).toList <:+: text.toList
  prose : ∀ c, d.comment = some c → ∀ t ∈ c.proseTexts, (s.prose t).toList <:+: text.toList
  parameters : d.kind = .function → ∀ c, d.comment = some c → ∀ p ∈ c.parameters,
    ("- \x60" ++ p.name ++ "\x60: " ++ s.prose p.description).toList <:+: text.toList

/-- A text that a fold of a declaration at a level can enclose: the line that stays, a text that
describes the declaration, and its members with their folds one after the other. -/
def Unfolds (s : Scope) (level : Nat) (d : Declaration) (text : String) : Prop :=
  ∃ own, s.Describes d own ∧
    text = summaryLine d.name ++ own ++ String.join (d.members.map (s.memberText (level + 1)))

end Scope

/-! ## Parts of blocks -/

namespace Block

variable {b : Block} {bs : List Block}

/-- A block stands in the text that it is put into. -/
theorem infix_join (h : b ∈ bs) : b.text.toList <:+: (join bs).toList := by
  obtain ⟨front, back, rfl⟩ := List.append_of_mem h
  rw [join_append, join_cons]
  exact ⟨(join front).toList, "\n\n".toList ++ (join back).toList, by simp⟩

theorem infix_join_of_prose {text : String} (h : .prose text ∈ bs) :
    text.toList <:+: (join bs).toList :=
  infix_join (b := .prose text) h

theorem infix_bullets {item : String} {items : List String} (h : item ∈ items) :
    ("- " ++ item).toList <:+: (bullets items).text.toList :=
  Text.infix_toList_intercalate (List.mem_map_of_mem h) "\n"

end Block

/-! ## The text of a declaration itself -/

namespace Scope

variable {s : Scope} {level : Nat} {d : Declaration} {c : Comment} {name : String}

theorem prose_empty (s : Scope) : s.prose "" = "" := by
  rw [← String.toList_inj]
  rfl

/-- All documentation is in the blocks of a declaration, unless there is nothing to say. -/
theorem prose_mem_ownBlocks (hc : d.comment = some c) {text : String} (htext : text ∈ c.proseTexts)
    (hsome : text ≠ "") : .prose (s.prose text) ∈ s.ownBlocks level d := by
  simp only [Comment.proseTexts, List.mem_cons, List.mem_append, Option.mem_toList] at htext
  rcases htext with rfl | (htext | htext) | htext
  · simp [ownBlocks, hc, hsome]
  · simp [ownBlocks, hc, htext]
  · simp [ownBlocks, hc, htext, textSection]
  · simp [ownBlocks, hc, htext, textSection]

theorem describes_ownBlocks (s : Scope) (level : Nat) (d : Declaration) :
    s.Describes d (Block.join (s.ownBlocks level d)) where
  signature := by
    obtain ⟨rest, hrest⟩ : ∃ rest, s.ownBlocks level d = .code d.signature :: rest := ⟨_, rfl⟩
    show (Block.code d.signature).text.toList <+: _
    rw [hrest, Block.join_cons, String.append_assoc, String.toList_append]
    exact List.prefix_append _ _
  inheritance := by
    intro n hn
    have hsome : d.inheritance.isEmpty = false := by
      simpa using List.ne_nil_of_mem hn
    have hblock : Block.prose (", ".intercalate
        (d.inheritance.map fun n => s.index.codeLink n s.path)) ∈ s.ownBlocks level d := by
      simp [ownBlocks, inheritanceBlocks, hsome]
    have hname : s.index.codeLink n s.path ∈ d.inheritance.map fun n => s.index.codeLink n s.path :=
      List.mem_map_of_mem hn
    exact (Text.infix_toList_intercalate hname ", ").trans (Block.infix_join_of_prose hblock)
  prose := by
    intro c hc text htext
    by_cases hsome : text = ""
    · -- an empty summary has no block, and nothing is to be found of it
      rw [hsome, prose_empty]
      exact List.nil_infix
    · exact Block.infix_join_of_prose (prose_mem_ownBlocks hc htext hsome)
  parameters := by
    intro hkind c hc p hp
    have hsome : c.parameters ≠ [] := List.ne_nil_of_mem hp
    have hblock : Block.bullets (c.parameters.map fun p =>
        "\x60" ++ p.name ++ "\x60: " ++ s.prose p.description) ∈ s.ownBlocks level d := by
      simp [ownBlocks, parameterBlocks, hc, hkind, hsome]
    have hitem := (Block.infix_bullets (List.mem_map_of_mem hp)).trans (Block.infix_join hblock)
    rwa [← String.append_assoc, ← String.append_assoc, ← String.append_assoc] at hitem

/-! ## Folds -/

theorem join_detailsStart (name : String) :
    Block.join [.detailsStart name] = "<details>" ++ summaryLine name := by
  have htext : (Block.detailsStart name).text =
      "<details>\n<summary><code>" ++ name ++ "</code></summary>" := rfl
  rw [← String.toList_inj, String.toList_append, toList_summaryLine, Block.join_cons, htext]
  simp [Block.join]

theorem join_folded (hcollapsible : s.collapsible = true) (name : String) (body : List Block) :
    Block.join (s.folded name body) =
      "<details>" ++ (summaryLine name ++ Block.join body) ++ "</details>\n\n" := by
  have hend : Block.join [.detailsEnd] = "</details>\n\n" := rfl
  rw [folded, if_pos hcollapsible, Block.join_append, Block.join_append, join_detailsStart, hend]
  simp only [String.append_assoc]

theorem join_memberBlocks (hcollapsible : s.collapsible = true) (level : Nat) (d : Declaration) :
    Block.join (s.memberBlocks level d) = s.memberText level d := by
  rw [memberBlocks_eq, Block.join_cons, join_folded hcollapsible]
  rfl

theorem join_membersBlocks (hcollapsible : s.collapsible = true) (level : Nat)
    (ds : List Declaration) :
    Block.join (s.membersBlocks level ds) = String.join (ds.map (s.memberText level)) := by
  induction ds with
  | nil => rfl
  | cons d ds ih =>
    rw [membersBlocks, Block.join_append, join_memberBlocks hcollapsible, ih, List.map_cons,
      String.join_cons]

/-- **A fold encloses all that belongs to its member**: what describes it, and in the same way its
own members. -/
theorem unfolds_foldedText (hcollapsible : s.collapsible = true) (level : Nat) (d : Declaration) :
    s.Unfolds level d (s.foldedText level d) := by
  refine ⟨_, describes_ownBlocks s level d, ?_⟩
  rw [foldedText, Block.join_append, join_membersBlocks hcollapsible, String.append_assoc]

end Scope

end ApiPages
