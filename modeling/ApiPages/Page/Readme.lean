import ApiPages.Page.Heading
import ApiPages.Page.Link

/-!
# The index document

The pages are listed one after the other. Where a page is of another category than the one before
it, the heading of its category comes first.
-/

namespace ApiPages

/-- The line of a page. -/
def pageLine (x : PageIndex) (p : Page) : String :=
  "- [" ++ p.name ++ "](" ++ x.link p readmePath ++ ")\n"

/-- The heading of a category between empty lines. -/
def Category.readmeHeading (c : Category) : String :=
  "\n" ++ Heading.line ⟨2, c.title, false⟩ ++ "\n\n"

/-- The lines of pages and the headings between them, given the category of the page before. -/
def pageLines (x : PageIndex) (current : Option Category) : List Page → List String
  | [] => []
  | p :: ps =>
    (if current = some p.category then [] else [p.category.readmeHeading]) ++
      pageLine x p :: pageLines x (some p.category) ps

/-- The document that links to every page, by category. -/
def renderReadme (x : PageIndex) (settings : Settings) : String :=
  String.join (Heading.line ⟨1, settings.title, false⟩ :: "\n" :: pageLines x none x.pages)

end ApiPages
