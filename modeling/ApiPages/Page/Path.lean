import ApiPages.Catalog.Category
import ApiPages.Text.Percent

/-!
# Paths of documents
-/

namespace ApiPages

/-- The path of the index. -/
def readmePath : String :=
  "README.md"

/-- The path of the document that holds all declarations of a category. -/
def Category.path (c : Category) : String :=
  c.folder ++ ".md"

/-- The path of the page of a declaration: a document of its own in the folder of its category, or
the document of the category when pages are collapsed. -/
def pagePath (c : Category) (name : String) (collapse : Bool) : String :=
  if collapse then c.path
  else c.folder ++ "/" ++ String.ofList (Text.fileName name.toList) ++ ".md"

end ApiPages
