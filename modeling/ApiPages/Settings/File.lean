import ApiPages.Text.Hex

/-!
# Settings files

A settings file is a TOML document. Every setting is a text, a switch, or a choice among names, which
may also be written as a table with one entry, named for the choice and empty. So only these values
are read, with tables no deeper than that; a file with any other value holds no settings. A reader
takes the text that is left and gives back a value and the text after it.
-/

namespace ApiPages.SettingsFile

/-- The value of an entry. -/
inductive Value where
  | text (s : String)
  | switch (on : Bool)
  /-- An array or a table without entries. -/
  | vacant
  /-- A table whose one entry is vacant. -/
  | choice (name : String)
deriving DecidableEq, Repr

/-- The key of an entry or a table, in one part or two. -/
structure Key where
  first : String
  second : Option String
deriving DecidableEq, Repr

/-- A statement of a settings file. -/
inductive Statement where
  | entry (key : Key) (value : Value)
  /-- The head of a table, to which the entries after it belong. -/
  | table (key : Key)
deriving DecidableEq, Repr

/-- What a reader finds at the beginning of a text, and the text after it. -/
abbrev Found (α : Type) := Option (α × List Char)

/-! ## Space, comments and line ends -/

/-- The text without the spaces and tabs it begins with. -/
def skipSpace (cs : List Char) : List Char :=
  cs.dropWhile fun c => c == ' ' || c == '\t'

/-- Whether a character may stand in a comment or, unless it is a mark there, in a text. -/
def isPlain (c : Char) : Bool :=
  c == '\t' || (0x20 ≤ c.toNat && c.toNat ≠ 0x7F)

/-- The text after a line end. -/
def newline? : List Char → Option (List Char)
  | '\n' :: cs => some cs
  | '\r' :: '\n' :: cs => some cs
  | _ => none

/-- The text without the comment it begins with. -/
def skipComment : List Char → List Char
  | '#' :: cs => cs.dropWhile isPlain
  | cs => cs

/-- The text after the rest of a line that holds nothing more than a comment. -/
def lineEnd? (cs : List Char) : Option (List Char) :=
  match skipComment (skipSpace cs) with
  | [] => some []
  | rest => newline? rest

/-- The text without the spaces, tabs and line ends it begins with. -/
def skipLines : List Char → List Char
  | ' ' :: cs => skipLines cs
  | '\t' :: cs => skipLines cs
  | '\n' :: cs => skipLines cs
  | '\r' :: '\n' :: cs => skipLines cs
  | cs => cs

/-! ## Texts -/

/-- The character of a number of hexadecimal digits. -/
def codePoint? (width : Nat) (cs : List Char) : Found Char :=
  let digits := cs.take width
  if digits.length = width then
    (Text.hexNumber? digits).bind fun n =>
      if n.isValidChar then some (Char.ofNat n, cs.drop width) else none
  else none

/-- The character of an escape, given the text after its backslash. -/
def escape? : List Char → Found Char
  | [] => none
  | c :: cs =>
    if c = 'u' then codePoint? 4 cs
    else if c = 'U' then codePoint? 8 cs
    else if c = '"' ∨ c = '\\' then some (c, cs)
    else if c = 'b' then some ('\x08', cs)
    else if c = 't' then some ('\t', cs)
    else if c = 'n' then some ('\n', cs)
    else if c = 'f' then some ('\x0c', cs)
    else if c = 'r' then some ('\r', cs)
    else none

/-- What was found, with further characters before it. -/
def before (cs : List Char) (found : Found (List Char)) : Found (List Char) :=
  found.map fun f => (cs ++ f.1, f.2)

/-- The characters of a text up to the quote that closes it, reading at most `limit` of them. -/
def basicText? : Nat → List Char → Found (List Char)
  | 0, _ => none
  | _, [] => none
  | limit + 1, c :: cs =>
    if c = '"' then some ([], cs)
    else if c = '\\' then (escape? cs).bind fun e => before [e.1] (basicText? limit e.2)
    else if isPlain c then before [c] (basicText? limit cs)
    else none

/-- The characters of a text without escapes, up to the quote that closes it. -/
def literalText? (cs : List Char) : Found (List Char) :=
  let inside := fun c => isPlain c && c != '\x27'
  match cs.dropWhile inside with
  | '\x27' :: rest => some (cs.takeWhile inside, rest)
  | _ => none

/-- A run of quotes inside of a text of several lines: three of them close it, after at most two
that belong to it, and fewer than three belong to it. -/
def quotes? (quote : Char) (cs : List Char) (more : List Char → Found (List Char)) :
    Found (List Char) :=
  let count := (cs.takeWhile (· == quote)).length
  let rest := cs.dropWhile (· == quote)
  if count < 3 then before (List.replicate count quote) (more rest)
  else if count ≤ 5 then some (List.replicate (count - 3) quote, rest)
  else none

/-- The characters of a text of several lines. A backslash at the end of a line joins it to the next
text. -/
def basicLines? : Nat → List Char → Found (List Char)
  | 0, _ => none
  | _, [] => none
  | limit + 1, c :: cs =>
    match newline? (c :: cs) with
    | some rest => before ['\n'] (basicLines? limit rest)
    | none =>
      if c = '"' then quotes? '"' (c :: cs) (basicLines? limit)
      else if c = '\\' then
        match newline? (skipSpace cs) with
        | some rest => basicLines? limit (skipLines rest)
        | none => (escape? cs).bind fun e => before [e.1] (basicLines? limit e.2)
      else if isPlain c then before [c] (basicLines? limit cs)
      else none

/-- The characters of a text of several lines without escapes. -/
def literalLines? : Nat → List Char → Found (List Char)
  | 0, _ => none
  | _, [] => none
  | limit + 1, c :: cs =>
    match newline? (c :: cs) with
    | some rest => before ['\n'] (literalLines? limit rest)
    | none =>
      if c = '\x27' then quotes? '\x27' (c :: cs) (literalLines? limit)
      else if isPlain c then before [c] (literalLines? limit cs)
      else none

/-- The text of several lines that follows its opening quotes, without the line end right there. -/
def longText? (read : List Char → Found (List Char)) (cs : List Char) : Found (List Char) :=
  read ((newline? cs).getD cs)

/-- A quoted text on one line. -/
def shortText? (cs : List Char) : Found (List Char) :=
  match cs with
  | '"' :: rest => basicText? (rest.length + 1) rest
  | '\x27' :: rest => literalText? rest
  | _ => none

/-- A quoted text. -/
def text? (cs : List Char) : Found (List Char) :=
  match cs with
  | '"' :: '"' :: '"' :: rest => longText? (basicLines? (rest.length + 1)) rest
  | '\x27' :: '\x27' :: '\x27' :: rest => longText? (literalLines? (rest.length + 1)) rest
  | _ => shortText? cs

/-! ## Keys -/

/-- Whether a character may stand in a key without quotes. -/
def isKeyChar (c : Char) : Bool :=
  c.isAlphanum || c == '-' || c == '_'

/-- A part of a key. -/
def keyPart? (cs : List Char) : Found String :=
  match shortText? cs with
  | some (name, rest) => some (String.ofList name, rest)
  | none =>
    let name := cs.takeWhile isKeyChar
    if name.isEmpty then none else some (String.ofList name, cs.dropWhile isKeyChar)

/-- A key, and the text after the space that follows it. -/
def key? (cs : List Char) : Found Key :=
  (keyPart? (skipSpace cs)).bind fun first =>
    match skipSpace first.2 with
    | '.' :: rest =>
      (keyPart? (skipSpace rest)).map fun second =>
        (⟨first.1, some second.1⟩, skipSpace second.2)
    | rest => some (⟨first.1, none⟩, rest)

/-! ## Values -/

/-- The text after the end of an array without elements; there may be comments inside. -/
def arrayEnd? : Nat → List Char → Option (List Char)
  | 0, _ => none
  | limit + 1, cs =>
    match skipLines cs with
    | ']' :: rest => some rest
    | '#' :: rest => (newline? (skipComment ('#' :: rest))).bind (arrayEnd? limit)
    | _ => none

/-- The text after a vacant value. -/
def vacant? : List Char → Option (List Char)
  | '[' :: cs => arrayEnd? (cs.length + 1) cs
  | '\x7b' :: cs =>
    match skipSpace cs with
    | '\x7d' :: rest => some rest
    | _ => none
  | _ => none

/-- A table with one vacant entry, given the text after the brace that opens it. -/
def choice? (cs : List Char) : Found Value :=
  match key? cs with
  | some (⟨name, none⟩, '=' :: rest) =>
    (vacant? (skipSpace rest)).bind fun rest =>
      match skipSpace rest with
      | '\x7d' :: rest => some (.choice name, rest)
      | _ => none
  | _ => none

/-- A value. -/
def value? (cs : List Char) : Found Value :=
  match cs with
  | 't' :: 'r' :: 'u' :: 'e' :: rest => some (.switch true, rest)
  | 'f' :: 'a' :: 'l' :: 's' :: 'e' :: rest => some (.switch false, rest)
  | _ =>
    match vacant? cs, cs with
    | some rest, _ => some (.vacant, rest)
    | none, '\x7b' :: rest => choice? rest
    | none, _ => (text? cs).map fun t => (.text (String.ofList t.1), t.2)

/-! ## Statements -/

/-- The statement that a text begins with, and the text after its line. -/
def statement? (cs : List Char) : Found Statement :=
  match cs with
  | '[' :: rest =>
    match key? rest with
    | some (key, ']' :: rest) => (lineEnd? rest).map fun rest => (.table key, rest)
    | _ => none
  | _ =>
    match key? cs with
    | some (key, '=' :: rest) =>
      (value? (skipSpace rest)).bind fun v => (lineEnd? v.2).map fun rest => (.entry key v.1, rest)
    | _ => none

/-- The statements of a text, of which at most `limit` lines are read. -/
def statements? : Nat → List Char → Option (List Statement)
  | 0, _ => none
  | limit + 1, cs =>
    match skipSpace cs with
    | [] => some []
    | cs =>
      match lineEnd? cs with
      | some rest => statements? limit rest
      | none => (statement? cs).bind fun s => (statements? limit s.2).map (s.1 :: ·)

/-- The text without the mark of its encoding. -/
def dropEncodingMark : List Char → List Char
  | '\ufeff' :: cs => cs
  | cs => cs

/-- The statements of a settings file. -/
def parse? (file : String) : Option (List Statement) :=
  let cs := dropEncodingMark file.toList
  statements? (cs.length + 1) cs

end ApiPages.SettingsFile
