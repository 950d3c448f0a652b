import ApiPages.Catalog.Category
import ApiPages.Declaration.Basic

/-!
# The catalog

The catalog holds the top-level declarations that get a page: for each category those of its kinds,
ordered by name, one for each name. Where a category has several declarations of one name, the last
of them is in the catalog. Names are compared by code point.
-/

namespace ApiPages

/-- The groups of declarations in the order of their categories; no group is empty. -/
structure Catalog where
  groups : List (Category × List Declaration)

namespace Catalog

/-- A list ordered by name with a declaration put in its place, instead of one of the same name. -/
def place (d : Declaration) : List Declaration → List Declaration
  | [] => [d]
  | e :: es =>
    if d.name = e.name then d :: es else if d.name < e.name then d :: e :: es else e :: place d es

/-- The declarations ordered by name, the last of each name. -/
def ordered (ds : List Declaration) : List Declaration :=
  ds.foldl (fun done d => place d done) []

/-- The declarations of a category, ordered by name. -/
def groupOf (c : Category) (ds : List Declaration) : List Declaration :=
  ordered (ds.filter fun d => Category.ofKind? d.kind = some c)

/-- The catalog of a list of declarations. -/
def ofList (ds : List Declaration) : Catalog :=
  ⟨(Category.all.map fun c => (c, groupOf c ds)).filter fun g => !g.2.isEmpty⟩

/-- The declarations of a category. -/
def group (k : Catalog) (c : Category) : List Declaration :=
  (k.groups.lookup c).getD []

/-- The declarations with their categories, in the order of the index. -/
def entries (k : Catalog) : List (Category × Declaration) :=
  k.groups.flatMap fun g => g.2.map fun d => (g.1, d)

/-- The number of declarations. -/
def size (k : Catalog) : Nat :=
  k.entries.length

/-- Whether there is no declaration. -/
def isEmpty (k : Catalog) : Bool :=
  k.groups.all fun g => g.2.isEmpty

end Catalog

end ApiPages
