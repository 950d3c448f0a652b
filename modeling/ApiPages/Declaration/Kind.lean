import ApiPages.Text.Letters

/-!
# Kinds of declaration
-/

namespace ApiPages

/-- What a declaration declares. -/
inductive Kind where
  | classType
  | structType
  | enumType
  | protocolType
  /-- Members added to a type that is declared elsewhere. -/
  | typeExtension
  | typeAlias
  | function
  | property
  /-- A case of an enum; it stands only among the members of one. -/
  | enumCase
deriving DecidableEq, Repr

namespace Kind

/-- Every kind. -/
def all : List Kind :=
  [classType, structType, enumType, protocolType, typeExtension, typeAlias, function, property,
    enumCase]

/-- The keyword of the kind. -/
def keyword : Kind → String
  | classType => "class"
  | structType => "struct"
  | enumType => "enum"
  | protocolType => "protocol"
  | typeExtension => "extension"
  | typeAlias => "typealias"
  | function => "function"
  | property => "variable"
  | enumCase => "case"

/-- Other words for a kind. -/
def synonyms : Kind → List String
  | function => ["func", "method"]
  | property => ["var", "property"]
  | _ => []

/-- The kind whose keyword the text is, letter by letter. -/
def ofKeyword? (s : String) : Option Kind :=
  all.find? (·.keyword = s)

/-- The kind that a word names: its keyword or another word for it, in capitals or not. -/
def ofWord? (s : String) : Option Kind :=
  let word := Text.lowerAscii s
  all.find? fun k => k.keyword = word ∨ word ∈ k.synonyms

/-- The kinds of type that an extension can add members to. -/
def isExtendable : Kind → Bool
  | classType | structType | enumType | protocolType => true
  | _ => false

/-- Whether cases may stand among the members of a declaration of this kind: those of an enum, and
those that an extension adds to one. -/
def holdsCases : Kind → Bool
  | enumType | typeExtension => true
  | _ => false

end Kind

end ApiPages
