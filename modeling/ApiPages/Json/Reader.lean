import ApiPages.Json.Basic
import ApiPages.Text.Hex

/-!
# Reading JSON

The reader is a machine that takes the text one character at a time. Its state is what it is in the
middle of and, for every bracket that is open around it, what is done of that array or object. So a
text has one of three outcomes: a value, a character at which no value goes on, or an end that comes
too early; the first of the last two that arises decides.
-/

namespace ApiPages.Json

/-- Why a text is no JSON. -/
inductive ReadError where
  /-- A character at which no value goes on. -/
  | malformed
  /-- The text ends before the value does. -/
  | ended
deriving DecidableEq, Repr

/-- An array or an object that waits for a value: what is done of it, last first. -/
inductive Frame where
  | array (done : List Json)
  | object (done : List (String × Json)) (key : String)

/-- What a text between quotes is for. -/
inductive TextRole where
  | value
  /-- The key of an object's next member. -/
  | key (done : List (String × Json))

/-- The part of a number that was read last. -/
inductive NumberPart where
  | sign
  | zero
  | whole
  | point
  | fraction
  | exponentMark
  | exponentSign
  | exponent
deriving DecidableEq, Repr

/-- A number that is being read, its digits last first. -/
structure NumberDraft where
  part : NumberPart
  negative : Bool
  whole : List Nat
  fraction : List Nat
  exponentNegative : Bool
  exponent : List Nat

/-- What the reader is in the middle of. Characters of a text are held last first. -/
inductive Phase where
  /-- A value must come. -/
  | value
  /-- An array was opened: a value or its end must come. -/
  | arrayStart
  /-- An object was opened: a key or its end must come. -/
  | objectStart
  | key (done : List (String × Json))
  | colon (done : List (String × Json)) (key : String)
  /-- An element was read: a comma or the end of the array must come. -/
  | element (done : List Json)
  /-- A member was read: a comma or the end of the object must come. -/
  | member (done : List (String × Json))
  | text (role : TextRole) (read : List Char)
  /-- A backslash was read. -/
  | escape (role : TextRole) (read : List Char)
  /-- Hexadecimal digits are being read; `high` is the first half of a surrogate pair. -/
  | unicode (role : TextRole) (read : List Char) (high : Option Nat) (digits : List Char)
  /-- The first half of a pair was read: the backslash of the second must come. -/
  | pairBackslash (role : TextRole) (read : List Char) (high : Nat)
  | pairLetter (role : TextRole) (read : List Char) (high : Nat)
  /-- The letters that are left of the name of `value`. -/
  | word (left : List Char) (value : Json)
  | number (n : NumberDraft)
  /-- The outermost value is complete; `trailing` when more than white space followed it. -/
  | done (value : Json) (trailing : Bool)

/-- The state of the reader. -/
structure State where
  stack : List Frame
  phase : Phase

/-- The most arrays and objects that may be open at once. -/
def maxDepth : Nat := 127

/-- The white space of JSON. -/
def isSpace (c : Char) : Bool :=
  c == ' ' || c == '\t' || c == '\n' || c == '\r'

/-- Whether a UTF-16 unit is the first half of a surrogate pair. -/
def isHighSurrogate (n : Nat) : Bool :=
  0xD800 ≤ n && n ≤ 0xDBFF

/-- Whether a UTF-16 unit is the second half of a surrogate pair. -/
def isLowSurrogate (n : Nat) : Bool :=
  0xDC00 ≤ n && n ≤ 0xDFFF

/-- The digit of a decimal digit character. -/
def digitValue (c : Char) : Nat :=
  c.toNat - 0x30

/-- The numeral that a draft holds. -/
def NumberDraft.numeral (n : NumberDraft) : Numeral where
  negative := n.negative
  whole := n.whole.reverse
  fraction := if n.fraction.isEmpty then none else some n.fraction.reverse
  exponent := if n.exponent.isEmpty then none else some (n.exponentNegative, n.exponent.reverse)

/-- Whether a number may end after the part. -/
def NumberPart.mayEnd : NumberPart → Bool
  | zero | whole | fraction | exponent => true
  | sign | point | exponentMark | exponentSign => false

/-- The draft that goes on with a character, if the number does. -/
def NumberDraft.extend? (n : NumberDraft) (c : Char) : Option NumberDraft :=
  let isMark := c == 'e' || c == 'E'
  match n.part with
  | .sign =>
    if c = '0' then some { n with part := .zero, whole := [0] }
    else if c.isDigit then some { n with part := .whole, whole := [digitValue c] } else none
  | .zero =>
    if c = '.' then some { n with part := .point }
    else if isMark then some { n with part := .exponentMark } else none
  | .whole =>
    if c.isDigit then some { n with whole := digitValue c :: n.whole }
    else if c = '.' then some { n with part := .point }
    else if isMark then some { n with part := .exponentMark } else none
  | .point =>
    if c.isDigit then some { n with part := .fraction, fraction := [digitValue c] } else none
  | .fraction =>
    if c.isDigit then some { n with fraction := digitValue c :: n.fraction }
    else if isMark then some { n with part := .exponentMark } else none
  | .exponentMark =>
    if c = '+' then some { n with part := .exponentSign }
    else if c = '-' then some { n with part := .exponentSign, exponentNegative := true }
    else if c.isDigit then some { n with part := .exponent, exponent := [digitValue c] } else none
  | .exponentSign =>
    if c.isDigit then some { n with part := .exponent, exponent := [digitValue c] } else none
  | .exponent =>
    if c.isDigit then some { n with exponent := digitValue c :: n.exponent } else none

/-- The state after a value: the innermost open bracket takes it. -/
def deliver (v : Json) : List Frame → State
  | [] => ⟨[], .done v false⟩
  | .array done :: stack => ⟨stack, .element (v :: done)⟩
  | .object done key :: stack => ⟨stack, .member ((key, v) :: done)⟩

/-- The state after the number that a draft holds; one that overflows a double is malformed. -/
def deliverNumber (n : NumberDraft) (stack : List Frame) : Except ReadError State :=
  if n.numeral.fitsDouble then .ok (deliver (.number n.numeral) stack) else .error .malformed

/-- The state after a text. -/
def deliverText (role : TextRole) (read : List Char) (stack : List Frame) : State :=
  let s := String.ofList read.reverse
  match role with
  | .value => deliver (.text s) stack
  | .key done => ⟨stack, .colon done s⟩

/-- The state after the first character of a value. -/
def beginValue (stack : List Frame) (c : Char) : Except ReadError State :=
  if c = '"' then .ok ⟨stack, .text .value []⟩
  else if c = '[' then
    if stack.length < maxDepth then .ok ⟨stack, .arrayStart⟩ else .error .malformed
  else if c = '\x7b' then
    if stack.length < maxDepth then .ok ⟨stack, .objectStart⟩ else .error .malformed
  else if c = 't' then .ok ⟨stack, .word ['r', 'u', 'e'] (.boolean true)⟩
  else if c = 'f' then .ok ⟨stack, .word ['a', 'l', 's', 'e'] (.boolean false)⟩
  else if c = 'n' then .ok ⟨stack, .word ['u', 'l', 'l'] .null⟩
  else if c = '-' then .ok ⟨stack, .number ⟨.sign, true, [], [], false, []⟩⟩
  else
    match NumberDraft.extend? ⟨.sign, false, [], [], false, []⟩ c with
    | some n => .ok ⟨stack, .number n⟩
    | none => .error .malformed

/-- The state after a character that follows a complete value. -/
def afterValue (stack : List Frame) (phase : Phase) (c : Char) : Except ReadError State :=
  if isSpace c then .ok ⟨stack, phase⟩
  else
    match phase with
    | .element done =>
      if c = ',' then .ok ⟨.array done :: stack, .value⟩
      else if c = ']' then .ok (deliver (.array done.reverse) stack)
      else .error .malformed
    | .member done =>
      if c = ',' then .ok ⟨stack, .key done⟩
      else if c = '\x7d' then .ok (deliver (.object done.reverse) stack)
      else .error .malformed
    | .done v _ => .ok ⟨stack, .done v true⟩
    | _ => .error .malformed

/-- The character that a letter after a backslash stands for. -/
def escaped? (c : Char) : Option Char :=
  if c = '"' ∨ c = '\\' ∨ c = '/' then some c
  else if c = 'b' then some '\x08'
  else if c = 'f' then some '\x0c'
  else if c = 'n' then some '\n'
  else if c = 'r' then some '\r'
  else if c = 't' then some '\t'
  else none

/-- The state after one more character of a Unicode escape. The four bytes after `\u` are taken
before they are looked at. -/
def readUnicode (stack : List Frame) (role : TextRole) (read : List Char) (high : Option Nat)
    (digits : List Char) : Except ReadError State :=
  if (String.ofList digits).utf8ByteSize < 4 then .ok ⟨stack, .unicode role read high digits⟩
  else
    match Text.hexNumber? digits, high with
    | none, _ => .error .malformed
    | some n, none =>
      if isLowSurrogate n then .error .malformed
      else if isHighSurrogate n then .ok ⟨stack, .pairBackslash role read n⟩
      else .ok ⟨stack, .text role (Char.ofNat n :: read)⟩
    | some n, some h =>
      if isLowSurrogate n then
        .ok ⟨stack, .text role (Char.ofNat (0x10000 + (h - 0xD800) * 0x400 + (n - 0xDC00)) :: read)⟩
      else .error .malformed

/-- The state after one more character. -/
def step (s : State) (c : Char) : Except ReadError State :=
  match s.phase with
  | .value => if isSpace c then .ok s else beginValue s.stack c
  | .arrayStart =>
    if isSpace c then .ok s
    else if c = ']' then .ok (deliver (.array []) s.stack)
    else beginValue (.array [] :: s.stack) c
  | .objectStart =>
    if isSpace c then .ok s
    else if c = '\x7d' then .ok (deliver (.object []) s.stack)
    else if c = '"' then .ok ⟨s.stack, .text (.key []) []⟩
    else .error .malformed
  | .key done =>
    if isSpace c then .ok s
    else if c = '"' then .ok ⟨s.stack, .text (.key done) []⟩
    else .error .malformed
  | .colon done key =>
    if isSpace c then .ok s
    else if c = ':' then .ok ⟨.object done key :: s.stack, .value⟩
    else .error .malformed
  | .element _ | .member _ | .done _ _ => afterValue s.stack s.phase c
  | .text role read =>
    if c = '"' then .ok (deliverText role read s.stack)
    else if c = '\\' then .ok ⟨s.stack, .escape role read⟩
    else if c.toNat < 0x20 then .error .malformed
    else .ok ⟨s.stack, .text role (c :: read)⟩
  | .escape role read =>
    if c = 'u' then .ok ⟨s.stack, .unicode role read none []⟩
    else
      match escaped? c with
      | some e => .ok ⟨s.stack, .text role (e :: read)⟩
      | none => .error .malformed
  | .unicode role read high digits => readUnicode s.stack role read high (digits ++ [c])
  | .pairBackslash role read high =>
    if c = '\\' then .ok ⟨s.stack, .pairLetter role read high⟩ else .error .malformed
  | .pairLetter role read high =>
    if c = 'u' then .ok ⟨s.stack, .unicode role read (some high) []⟩ else .error .malformed
  | .word [] v => let t := deliver v s.stack; afterValue t.stack t.phase c
  | .word [last] v => if c = last then .ok (deliver v s.stack) else .error .malformed
  | .word (letter :: left) v =>
    if c = letter then .ok ⟨s.stack, .word left v⟩ else .error .malformed
  | .number n =>
    match n.extend? c with
    | some n => .ok ⟨s.stack, .number n⟩
    | none =>
      if n.part.mayEnd && !(n.part = .zero && c.isDigit) then
        match deliverNumber n s.stack with
        | .ok t => afterValue t.stack t.phase c
        | .error e => .error e
      else .error .malformed

/-- What a text holds: its first value, and whether more than white space follows it. -/
structure Reading where
  value : Json
  trailing : Bool

/-- The outcome at the end of the text. -/
def atEnd (s : State) : Except ReadError Reading :=
  match s.phase with
  | .done v trailing => .ok ⟨v, trailing⟩
  | .number n =>
    if n.part.mayEnd then
      match deliverNumber n s.stack with
      | .ok ⟨_, .done v trailing⟩ => .ok ⟨v, trailing⟩
      | .ok _ => .error .ended
      | .error e => .error e
    else .error .ended
  | _ => .error .ended

/-- The state before the first character. -/
def start : State :=
  ⟨[], .value⟩

/-- The value at the beginning of a text. -/
def read (text : String) : Except ReadError Reading :=
  match text.toList.foldlM step start with
  | .ok s => atEnd s
  | .error e => .error e

end ApiPages.Json
