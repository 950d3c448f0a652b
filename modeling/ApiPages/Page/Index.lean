import ApiPages.Catalog.Basic
import ApiPages.Page.Heading
import ApiPages.Page.Path
import ApiPages.Settings.Basic

/-!
# The index of pages

Every page that will be written, in the order of the catalog. Pages are looked up by name to resolve
cross-references; a name that several categories share belongs to the first of them.
-/

namespace ApiPages

/-- A page. -/
structure Page where
  /-- The name of the declaration. -/
  name : String
  category : Category
  /-- The path of the document that holds the page. -/
  path : String
  /-- The anchor of the page in a document that holds several. -/
  anchor : Option String
deriving DecidableEq, Repr

/-- The pages, and how links to them are written. -/
structure PageIndex where
  pages : List Page
  linkStart : String
  linkEnd : String
deriving DecidableEq, Repr

namespace PageIndex

/-- The pages of a category whose declarations share a document with the given anchors so far. -/
def collapsedPages (settings : Settings) (c : Category) (a : Anchors) : List Declaration → List Page
  | [] => []
  | d :: ds =>
    let (anchor, a) := a.claimHeadings (d.headings settings.contents)
    ⟨d.name, c, pagePath c d.name true, some anchor⟩ :: collapsedPages settings c a ds

/-- The pages of a category. -/
def categoryPages (settings : Settings) (c : Category) (ds : List Declaration) : List Page :=
  if settings.collapse then collapsedPages settings c .empty ds
  else ds.map fun d => ⟨d.name, c, pagePath c d.name false, none⟩

/-- The index of a catalog. -/
def ofCatalog (settings : Settings) (k : Catalog) : PageIndex where
  pages := k.groups.flatMap fun g => categoryPages settings g.1 g.2
  linkStart := settings.linkStart
  linkEnd := settings.linkEnd

/-- The page of a name. -/
def page? (x : PageIndex) (name : String) : Option Page :=
  x.pages.find? fun p => p.name = name

end PageIndex

end ApiPages
