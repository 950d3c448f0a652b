import ApiPages.Declaration.Kind

/-!
# Categories of pages
-/

namespace ApiPages

/-- The groups that top-level declarations are listed in. -/
inductive Category where
  | classes
  | structs
  | enums
  | protocols
  | extensions
  | typeAliases
  | methods
  | globalVariables
deriving DecidableEq, Repr

namespace Category

/-- Every category, in the order of the index. -/
def all : List Category :=
  [classes, structs, enums, protocols, extensions, typeAliases, methods, globalVariables]

/-- The category of top-level declarations of a kind. Cases have none. -/
def ofKind? : Kind → Option Category
  | .classType => some classes
  | .structType => some structs
  | .enumType => some enums
  | .protocolType => some protocols
  | .typeExtension => some extensions
  | .typeAlias => some typeAliases
  | .function => some methods
  | .property => some globalVariables
  | .enumCase => none

/-- The heading of the category in the index. -/
def title : Category → String
  | classes => "Classes"
  | structs => "Structs"
  | enums => "Enums"
  | protocols => "Protocols"
  | extensions => "Extensions"
  | typeAliases => "Type Aliases"
  | methods => "Methods"
  | globalVariables => "Global Variables"

/-- The folder of the category's pages; without the ending also the file that holds them all. -/
def folder : Category → String
  | classes => "classes"
  | structs => "structs"
  | enums => "enums"
  | protocols => "protocols"
  | extensions => "extensions"
  | typeAliases => "typealiases"
  | methods => "methods"
  | globalVariables => "globals"

end Category

end ApiPages
