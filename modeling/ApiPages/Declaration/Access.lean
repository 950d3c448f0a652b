import ApiPages.Text.Letters

/-!
# Access levels
-/

namespace ApiPages

/-- How far a declaration can be seen. -/
inductive Access where
  | openLevel
  | publicLevel
  | internalLevel
  | fileLevel
  | privateLevel
deriving DecidableEq, Repr

namespace Access

/-- Every level, the most visible first. -/
def all : List Access :=
  [openLevel, publicLevel, internalLevel, fileLevel, privateLevel]

/-- The tier of visibility, a higher one being more visible. Open and public share one. -/
def rank : Access → Nat
  | openLevel | publicLevel => 3
  | internalLevel => 2
  | fileLevel => 1
  | privateLevel => 0

/-- Whether a level is at least as visible as the least level asked for. -/
def meets (level least : Access) : Bool :=
  least.rank ≤ level.rank

/-- The keyword of the level. -/
def keyword : Access → String
  | openLevel => "open"
  | publicLevel => "public"
  | internalLevel => "internal"
  | fileLevel => "fileprivate"
  | privateLevel => "private"

/-- The level whose keyword the text is, letter by letter. -/
def ofKeyword? (s : String) : Option Access :=
  all.find? (·.keyword = s)

/-- The level that a word names, in capitals or not. -/
def ofWord? (s : String) : Option Access :=
  ofKeyword? (Text.lowerAscii s)

end Access

end ApiPages
