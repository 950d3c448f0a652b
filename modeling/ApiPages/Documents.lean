import ApiPages.Declaration.Merge
import ApiPages.Declaration.Structure
import ApiPages.Declaration.Visibility
import ApiPages.Inventory.Basic
import ApiPages.Page.Footer
import ApiPages.Page.Readme
import ApiPages.Page.Writer

/-!
# From declarations to documents

Extensions are folded, what is not visible is left out, the rest goes into the catalog, every page
gets its place, and then the documents are written: one for each page or for each category, and the
index. Declarations with a fault in their structure give no documents at all.
-/

namespace ApiPages

/-- Documents by path, ordered by path. -/
structure Documents where
  entries : List (String × String)
deriving DecidableEq, Repr

namespace Documents

/-- Entries ordered by path with one more in its place, instead of one with the same path. -/
def place (path content : String) : List (String × String) → List (String × String)
  | [] => [(path, content)]
  | e :: es =>
    if path = e.1 then (path, content) :: es
    else if path < e.1 then (path, content) :: e :: es
    else e :: place path content es

/-- The documents with one more. -/
def insert (docs : Documents) (path content : String) : Documents :=
  ⟨place path content docs.entries⟩

/-- Documents given in any order; the last at a path counts. -/
def ofList (entries : List (String × String)) : Documents :=
  entries.foldl (fun docs e => docs.insert e.1 e.2) ⟨[]⟩

/-- The content of the document at a path. -/
def get? (docs : Documents) (path : String) : Option String :=
  docs.entries.lookup path

/-- The paths of the documents. -/
def paths (docs : Documents) : List String :=
  docs.entries.map (·.1)

/-- The documents with a footer each, if there is a time to write in it. -/
def stamp (docs : Documents) : Option String → Documents
  | none => docs
  | some time => ⟨docs.entries.map fun e => (e.1, e.2 ++ "\n" ++ footer time)⟩

end Documents

/-- The declarations that get a page. -/
def catalogOf (settings : Settings) (ds : List Declaration) : Catalog :=
  .ofList (Declaration.visible settings.minAccess (Merge.mergeExtensions ds))

/-- The pages of a catalog as documents, with their paths. -/
def pageDocuments (settings : Settings) (k : Catalog) (x : PageIndex) : List (String × String) :=
  if settings.collapse then
    k.groups.map fun g => (g.1.path, renderCollapsed x settings g.1.path g.2)
  else
    (k.entries.zip x.pages).map fun e => (e.2.path, renderPage x settings e.2.path e.1.2)

/-- The documents of declarations in traversal order, stamped with a time if one is given. -/
def Documents.generate (settings : Settings) (time : Option String) (ds : List Declaration) :
    Except InventoryFault Documents :=
  match Declaration.checkStructure ds with
  | .error fault => .error fault
  | .ok () =>
    let k := catalogOf settings ds
    let x := PageIndex.ofCatalog settings k
    let docs := Documents.ofList (pageDocuments settings k x)
    .ok ((docs.insert readmePath (renderReadme x settings)).stamp time)

/-- The settings for an inventory: the module has the name chosen, else the one the inventory gives. -/
def Settings.forInventory (settings : Settings) (inventory : Inventory) : Settings :=
  { settings with moduleName := settings.moduleName.or inventory.moduleName }

/-- The documents of an inventory. -/
def Documents.ofInventory (settings : Settings) (time : Option String) (inventory : Inventory) :
    Except InventoryFault Documents :=
  generate (settings.forInventory inventory) time inventory.declarations

/-- The documents of the inventory that a text is. -/
def Documents.ofText (settings : Settings) (time : Option String) (text : String) :
    Except InventoryError Documents :=
  match Inventory.read text with
  | .error e => .error e
  | .ok inventory =>
    match ofInventory settings time inventory with
    | .error fault => .error (.fault fault)
    | .ok docs => .ok docs

end ApiPages
