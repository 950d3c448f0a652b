import ApiPages.Proofs.Declaration.Walk
import ApiPages.Proofs.Page.PageOutline

/-!
# The outline of a tree

The headings that a tree of declarations calls for: on the way through the tree, each declaration
has a heading of its name at its depth and, one level deeper, those of its sections. No heading is
deeper than six levels.
-/

namespace ApiPages

open Text (HeadingLine)

/-- The sections in the order in which they stand. -/
def Section.order : List Section :=
  [.inheritance, .parameters, .returnValue, .throws, .contents]

namespace Declaration

/-- Whether a declaration at a depth has a section. Parameters belong to functions, and contents to
a page as a whole, where they are asked for and there is something to list. -/
def hasSection (contents : Bool) (depth : Nat) (d : Declaration) : Section → Bool
  | .inheritance => !d.inheritance.isEmpty
  | .parameters => d.kind = .function && d.comment.any fun c => !c.parameters.isEmpty
  | .returnValue => d.comment.any fun c => c.returns.isSome
  | .throws => d.comment.any fun c => c.throws.isSome
  | .contents => contents && depth = 1 && !d.members.isEmpty

/-- The headings of one declaration at a depth: its name, then its sections. -/
def headingLines (contents : Bool) (depth : Nat) (d : Declaration) : List HeadingLine :=
  ⟨min depth 6, "\x60" ++ d.name ++ "\x60"⟩ ::
    (Section.order.filter (d.hasSection contents depth)).map fun s => ⟨min (depth + 1) 6, s.title⟩

/-- The headings of the pages of some declarations, on the way through their trees. -/
def treeOutline (contents : Bool) (ds : List Declaration) : List HeadingLine :=
  (walkAll 1 ds).flatMap fun e => e.2.headingLines contents e.1

variable {ds : List Declaration}

/-! ## Headings of one declaration -/

theorem sections_eq_filter (contents : Bool) (depth : Nat) (d : Declaration) :
    d.sections (contents && depth = 1) = Section.order.filter (d.hasSection contents depth) := by
  -- a list filtered is put together from what each of its sections adds
  have hcons : ∀ (p : Section → Bool) (t : Section) (ts : List Section),
      (t :: ts).filter p = (if p t then [t] else []) ++ ts.filter p := by
    intro p t ts
    cases ht : p t <;> simp [ht]
  simp only [Section.order, hcons, List.filter_nil, List.append_nil]
  cases hc : d.comment with
  | none => simp [sections, hasSection, hc, Comment.empty]
  | some c => simp [sections, hasSection, hc]

theorem map_asLine_ownHeadings (contents : Bool) (depth : Nat) (d : Declaration) :
    (d.ownHeadings (contents && depth = 1) depth).map Heading.asLine =
      d.headingLines contents depth := by
  rw [ownHeadings, sections_eq_filter, List.map_cons, List.map_map, headingLines]
  rfl

/-! ## Headings of trees -/

theorem map_asLine_membersHeadings_of (contents : Bool) (depth : Nat) (h : ∀ m ∈ ds,
      (m.memberHeadings depth).map Heading.asLine =
        (m.walk depth).flatMap fun e => e.2.headingLines contents e.1) :
    (membersHeadings depth ds).map Heading.asLine =
      (walkAll depth ds).flatMap fun e => e.2.headingLines contents e.1 := by
  rw [membersHeadings_eq_flatMap, List.map_flatMap, walkAll_eq_flatMap, List.flatMap_assoc]
  exact List.flatMap_congr h

/-- Members have their headings in the order of the walk, without contents. -/
theorem map_asLine_memberHeadings (contents : Bool) {depth : Nat} (hdepth : 1 < depth)
    (d : Declaration) :
    (d.memberHeadings depth).map Heading.asLine =
      (d.walk depth).flatMap fun e => e.2.headingLines contents e.1 := by
  induction d using induct generalizing depth with
  | step d ih =>
    have hown := map_asLine_ownHeadings contents depth d
    have hne : (contents && decide (depth = 1)) = false := by
      rw [decide_eq_false (by omega), Bool.and_false]
    rw [hne] at hown
    have hmembers := map_asLine_membersHeadings_of contents (depth + 1) fun m hm =>
      ih m hm (by omega)
    rw [memberHeadings_eq, walk_eq, List.map_append, hown, hmembers, List.flatMap_cons]

theorem map_asLine_membersHeadings (contents : Bool) {depth : Nat} (hdepth : 1 < depth)
    (ds : List Declaration) :
    (membersHeadings depth ds).map Heading.asLine =
      (walkAll depth ds).flatMap fun e => e.2.headingLines contents e.1 :=
  map_asLine_membersHeadings_of contents depth fun m _ =>
    map_asLine_memberHeadings contents hdepth m

/-- The headings of a page are those of the walk through its tree. -/
theorem map_asLine_headings (contents : Bool) (d : Declaration) :
    (d.headings contents).map Heading.asLine =
      (d.walk 1).flatMap fun e => e.2.headingLines contents e.1 := by
  have hown := map_asLine_ownHeadings contents 1 d
  rw [decide_eq_true rfl, Bool.and_true] at hown
  rw [headings, walk_eq, List.map_append, hown,
    map_asLine_membersHeadings contents Nat.one_lt_two, List.flatMap_cons]

theorem flatMap_headings (contents : Bool) (ds : List Declaration) :
    (ds.flatMap fun d => (d.headings contents).map Heading.asLine) = treeOutline contents ds := by
  rw [treeOutline, walkAll_eq_flatMap, List.flatMap_assoc]
  exact List.flatMap_congr fun d _ => map_asLine_headings contents d

end Declaration

end ApiPages
