/-!
# Documentation comments
-/

namespace ApiPages

/-- What a comment says of one parameter of a function. -/
structure Parameter where
  name : String
  description : String
deriving DecidableEq, Repr

/-- A documentation comment, taken apart. -/
structure Comment where
  /-- The first paragraph, on one line. -/
  summary : String
  /-- Everything that is neither summary nor callout. -/
  discussion : Option String
  parameters : List Parameter
  /-- What is said of the return value. -/
  returns : Option String
  /-- What is said of thrown errors. -/
  throws : Option String
deriving DecidableEq, Repr

namespace Comment

/-- The comment that says nothing. -/
def empty : Comment :=
  ⟨"", none, [], none, none⟩

/-- Whether a comment says nothing. -/
def isEmpty (c : Comment) : Bool :=
  c.summary.isEmpty && c.discussion.isNone && c.parameters.isEmpty && c.returns.isNone &&
    c.throws.isNone

end Comment

end ApiPages
