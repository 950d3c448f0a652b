import ApiPages.Proofs.Declaration.Walk
import ApiPages.Proofs.Page.Plain
import ApiPages.Proofs.Page.SharedDocument

/-!
# Supertypes on a page

Behind the heading and the signature of every declaration on a page stand its supertypes, one after
the other: with a link for a name that has a page, and as code alone otherwise
(`listsSupertypes_renderCollapsed`).
-/

namespace ApiPages

open Declaration (walk walkAll)
open Text (isBlankText trimEnd)

/-- A name as code with a link to a destination. -/
def linkText (name destination : String) : String :=
  "[`" ++ name ++ "`](" ++ destination ++ ")"

/-- How a name is written in the document at a path: it is a link if and only if it has a page, and
then this page is the destination. -/
structure Resolved (x : PageIndex) (path name text : String) : Prop where
  isLink_iff : (∃ destination, text = linkText name destination) ↔ ∃ p, x.page? name = some p
  destination : ∀ p, x.page? name = some p → text = linkText name (x.link p path)
  plain : x.page? name = none → text = "`" ++ name ++ "`"

/-- What a page has of a declaration at a depth up to its signature: the heading, the beginning of
its block if members are in blocks that can be folded away, and the signature. -/
def openingBlocks (collapsible : Bool) (depth : Nat) (d : Declaration) : List Block :=
  .heading ⟨depth, d.name, true⟩ ::
    (if collapsible && depth ≠ 1 then [.detailsStart d.name] else []) ++ [.code d.signature]

/-- Whether a document lists the supertypes of a declaration behind its signature. -/
def ListsSupertypes (x : PageIndex) (collapsible : Bool) (path document : String) (depth : Nat)
    (d : Declaration) : Prop :=
  ∃ before entries after, List.Forall₂ (Resolved x path) d.inheritance entries ∧
    document = before ++ Block.join (openingBlocks collapsible depth d) ++
      Heading.line ⟨depth + 1, "Inheritance", false⟩ ++ "\n\n" ++
      ", ".intercalate entries ++ "\n" ++ after

variable {x : PageIndex} {settings : Settings} {path : String} {s : Scope} {level : Nat}
  {d m : Declaration} {ds : List Declaration} {e : Nat × Declaration}

/-! ## Names -/

theorem resolved_codeLink (x : PageIndex) (path name : String) :
    Resolved x path name (x.codeLink name path) := by
  cases hpage : x.page? name with
  | none =>
    have hcode : x.codeLink name path = "`" ++ name ++ "`" := by
      rw [PageIndex.codeLink, hpage]
    refine ⟨?_, by simp [hpage], fun _ => hcode⟩
    -- a link begins with a bracket
    constructor
    · rintro ⟨destination, htext⟩
      rw [hcode, linkText] at htext
      simpa using congrArg (fun s => s.toList.head?) htext
    · rintro ⟨p, hp⟩
      rw [hpage] at hp
      cases hp
  | some p =>
    have hcode : x.codeLink name path = linkText name (x.link p path) := by
      rw [PageIndex.codeLink, hpage]
      rfl
    refine ⟨⟨fun _ => ⟨p, hpage⟩, fun _ => ⟨_, hcode⟩⟩, ?_, by simp [hpage]⟩
    intro q hq
    rw [hpage] at hq
    obtain rfl := Option.some.inj hq
    exact hcode

/-- A name as code ends with what is no blank. -/
theorem exists_codeLink_eq (x : PageIndex) (name path : String) :
    ∃ front last, x.codeLink name path = front ++ last ∧ trimEnd last = last ∧
      isBlankText last = false := by
  unfold PageIndex.codeLink
  cases x.page? name with
  | none => exact ⟨_, "`", rfl, rfl, rfl⟩
  | some p => exact ⟨_, ")", rfl, rfl, rfl⟩

/-- The list of supertypes ends with what is no blank. -/
theorem trimEnd_codeLinks (x : PageIndex) (path : String) {names : List String} (h : names ≠ []) :
    trimEnd (", ".intercalate (names.map fun name => x.codeLink name path)) =
        ", ".intercalate (names.map fun name => x.codeLink name path) ∧
      isBlankText (", ".intercalate (names.map fun name => x.codeLink name path)) = false := by
  obtain ⟨front, name, rfl⟩ := (List.eq_nil_or_concat' names).resolve_left h
  obtain ⟨start, last, hlast, htrim, hblank⟩ := exists_codeLink_eq x name path
  have hname : trimEnd (x.codeLink name path) = x.codeLink name path := by
    rw [hlast, Text.trimEnd_append hblank, htrim]
  have hnameBlank : isBlankText (x.codeLink name path) = false := by
    rw [hlast, Text.isBlankText_append, hblank, Bool.and_false]
  rw [List.map_append, List.map_singleton]
  exact ⟨Text.trimEnd_intercalate hname hnameBlank _, Text.isBlankText_intercalate hnameBlank _⟩

/-! ## Where a declaration stands on a page -/

/-- What is written of a declaration by itself begins with its signature and its supertypes. -/
theorem exists_ownBlocks_eq (s : Scope) (depth : Nat) (d : Declaration) :
    ∃ rest, s.ownBlocks depth d =
      [.code d.signature] ++ s.inheritanceBlocks depth d.inheritance ++ rest := by
  simp only [Scope.ownBlocks, List.append_assoc]
  exact ⟨_, rfl⟩

/-- A member begins with its opening and its supertypes. -/
theorem prefix_memberBlocks (s : Scope) (hlevel : level ≠ 1) (d : Declaration) :
    openingBlocks s.collapsible level d ++ s.inheritanceBlocks level d.inheritance <+:
      s.memberBlocks level d := by
  obtain ⟨rest, hown⟩ := exists_ownBlocks_eq s level d
  rw [Scope.memberBlocks_eq, hown, openingBlocks, Scope.folded, decide_eq_true hlevel,
    Bool.and_true]
  cases s.collapsible
  · exact ⟨rest ++ s.membersBlocks (level + 1) d.members, by simp⟩
  · exact ⟨rest ++ s.membersBlocks (level + 1) d.members ++ [.detailsEnd], by simp⟩

/-- What is written of a member stands in what is written of the declaration it is in. -/
theorem infix_membersBlocks (s : Scope) (level : Nat) (h : m ∈ ds) :
    s.memberBlocks level m <:+: s.membersBlocks level ds := by
  rw [Scope.membersBlocks_eq_flatMap, List.flatMap_def]
  exact List.infix_of_mem_flatten (List.mem_map_of_mem h)

theorem infix_folded (s : Scope) (name : String) (body : List Block) :
    body <:+: s.folded name body := by
  unfold Scope.folded
  split
  · exact List.infix_append _ _ _
  · exact List.infix_rfl

/-- A declaration in the tree of a member has its opening and its supertypes among the blocks of
the member. -/
theorem infix_memberBlocks (s : Scope) (hlevel : 1 < level) (he : e ∈ d.walk level) :
    openingBlocks s.collapsible e.1 e.2 ++ s.inheritanceBlocks e.1 e.2.inheritance <:+:
      s.memberBlocks level d := by
  induction d using Declaration.induct generalizing level with
  | step d ih =>
    rw [Declaration.walk_eq, List.mem_cons, Declaration.walkAll_eq_flatMap, List.mem_flatMap] at he
    rcases he with rfl | ⟨m, hm, he⟩
    · exact (prefix_memberBlocks s (by omega) d).isInfix
    · -- below a member of the member
      have hmember := ih m hm (Nat.lt_succ_of_lt hlevel) he
      have hmembers : s.membersBlocks (level + 1) d.members <:+: s.memberBlocks level d := by
        rw [Scope.memberBlocks_eq]
        exact ((List.suffix_append _ _).isInfix.trans (infix_folded s d.name _)).trans
          (List.suffix_cons _ _).isInfix
      exact (hmember.trans (infix_membersBlocks s (level + 1) hm)).trans hmembers

/-- A declaration in the tree of a page has its opening and its supertypes among the blocks of the
page. -/
theorem infix_pageBlocks (x : PageIndex) (settings : Settings) (path : String) (a : Anchors)
    (he : e ∈ d.walk 1) :
    openingBlocks settings.collapsible e.1 e.2 ++
        Scope.inheritanceBlocks ⟨x, settings.collapsible, path, d.name⟩ e.1 e.2.inheritance <:+:
      pageBlocks x settings path a d := by
  rw [Declaration.walk_eq, List.mem_cons, Declaration.walkAll_eq_flatMap, List.mem_flatMap] at he
  rcases he with rfl | ⟨m, hm, he⟩
  · obtain ⟨rest, hown⟩ := exists_ownBlocks_eq ⟨x, settings.collapsible, path, d.name⟩ 1 d
    refine List.IsPrefix.isInfix ⟨rest ++ contentsBlocks a settings.contents d ++
      Scope.membersBlocks ⟨x, settings.collapsible, path, d.name⟩ 2 d.members, ?_⟩
    rw [pageBlocks, hown]
    simp [openingBlocks]
  · have hmember := infix_memberBlocks ⟨x, settings.collapsible, path, d.name⟩ (by omega) he
    refine (hmember.trans (infix_membersBlocks _ 2 hm)).trans ?_
    rw [pageBlocks]
    exact (List.suffix_append _ _).isInfix

/-! ## In the document -/

/-- A document of blocks among which are the opening and the supertypes of a declaration lists the
supertypes. -/
theorem listsSupertypes_document (hne : d.inheritance ≠ []) (hpath : s.path = path)
    {depth : Nat} {bs : List Block}
    (h : openingBlocks s.collapsible depth d ++ s.inheritanceBlocks depth d.inheritance <:+: bs) :
    ListsSupertypes s.index s.collapsible path (Block.document bs) depth d := by
  obtain ⟨front, back, rfl⟩ := h
  refine ⟨Block.join front, d.inheritance.map fun name => s.index.codeLink name path, ?_⟩
  have hentries : List.Forall₂ (Resolved s.index path) d.inheritance
      (d.inheritance.map fun name => s.index.codeLink name path) := by
    rw [List.forall₂_map_right_iff, List.forall₂_same]
    exact fun name _ => resolved_codeLink s.index path name
  obtain ⟨htrim, hblank⟩ := trimEnd_codeLinks s.index path hne
  have hlist : s.inheritanceBlocks depth d.inheritance =
      [.heading ⟨depth + 1, "Inheritance", false⟩,
        .prose (", ".intercalate (d.inheritance.map fun name => s.index.codeLink name path))] := by
    rw [Scope.inheritanceBlocks, if_neg (by simpa using hne), hpath]
    rfl
  generalize d.inheritance.map (fun name => s.index.codeLink name path) = entries at *
  -- up to the list nothing is trimmed, and neither is its own end
  have hjoin : isBlankText (Block.join (.prose (", ".intercalate entries) :: back)) = false :=
    Block.isBlankText_join_eq_false List.mem_cons_self hblank
  obtain ⟨after, hafter⟩ : ∃ after, Block.document (.prose (", ".intercalate entries) :: back) =
      ", ".intercalate entries ++ "\n" ++ after :=
    Block.exists_document_cons_eq (b := .prose (", ".intercalate entries)) htrim back
  have hheading : Block.join [.heading ⟨depth + 1, "Inheritance", false⟩] =
      Heading.line ⟨depth + 1, "Inheritance", false⟩ ++ "\n\n" := by
    rw [Block.join_cons]
    exact String.append_empty
  have hblocks : front ++ (openingBlocks s.collapsible depth d ++
      s.inheritanceBlocks depth d.inheritance) ++ back =
      (front ++ openingBlocks s.collapsible depth d ++
        [.heading ⟨depth + 1, "Inheritance", false⟩]) ++
      (.prose (", ".intercalate entries) :: back) := by
    rw [hlist]
    simp
  refine ⟨after, hentries, ?_⟩
  rw [hblocks, Block.document_append hjoin, hafter, Block.join_append, Block.join_append, hheading]
  simp only [String.append_assoc]

/-- **A page lists the supertypes of every declaration on it**, and a supertype is a link if and
only if it has a page, which it leads to. -/
theorem listsSupertypes_renderPage (x : PageIndex) (settings : Settings) (path : String)
    (he : e ∈ d.walk 1) (hne : e.2.inheritance ≠ []) :
    ListsSupertypes x settings.collapsible path (renderPage x settings path d) e.1 e.2 := by
  have hpage := infix_pageBlocks x settings path .empty he
  rw [renderPage]
  exact listsSupertypes_document (s := ⟨x, settings.collapsible, path, d.name⟩) hne rfl hpage

theorem infix_furtherBlocks (x : PageIndex) (settings : Settings) (path : String) (a : Anchors)
    (h : d ∈ ds) :
    ∃ b, pageBlocks x settings path b d <:+: (furtherBlocks x settings path a ds).drop 1 := by
  induction ds generalizing a with
  | nil => cases h
  | cons first ds ih =>
    rw [furtherBlocks]
    rcases List.mem_cons.1 h with rfl | h
    · exact ⟨a, (List.prefix_append _ _).isInfix⟩
    · obtain ⟨b, hb⟩ := ih _ h
      exact ⟨b, (hb.trans (List.drop_suffix _ _).isInfix).trans (List.suffix_append _ _).isInfix⟩

/-- **So does a document of several pages** for every declaration on them. -/
theorem listsSupertypes_renderCollapsed (x : PageIndex) (settings : Settings) (path : String)
    (he : e ∈ walkAll 1 ds) (hne : e.2.inheritance ≠ []) :
    ListsSupertypes x settings.collapsible path (renderCollapsed x settings path ds) e.1 e.2 := by
  rw [Declaration.walkAll_eq_flatMap, List.mem_flatMap] at he
  obtain ⟨d, hd, he⟩ := he
  obtain ⟨a, hpage⟩ := infix_furtherBlocks x settings path .empty hd
  rw [renderCollapsed]
  exact listsSupertypes_document (s := ⟨x, settings.collapsible, path, d.name⟩) hne rfl
    ((infix_pageBlocks x settings path a he).trans hpage)

end ApiPages
