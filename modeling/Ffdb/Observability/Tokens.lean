import Ffdb.Lib.Spans
import Ffdb.Lib.Text

/-! The tokens of SQLite, version 3.46: classes of bytes, and what begins at a byte. -/
namespace Ffdb.Observability

def ascii (c : Char) : UInt8 := c.toUInt8

section Bytes
variable (b : UInt8)

def isDigit : Bool := ascii '0' ≤ b && b ≤ ascii '9'

def isLetter : Bool := ascii 'a' ≤ b && b ≤ ascii 'z' || ascii 'A' ≤ b && b ≤ ascii 'Z'

def isHexDigit : Bool := isDigit b || ascii 'a' ≤ b && b ≤ ascii 'f' || ascii 'A' ≤ b && b ≤ ascii 'F'

/-- White space as Rust has it: a vertical tab is none. -/
def isAsciiWhitespace : Bool := b = 9 || b = 10 || b = 12 || b = 13 || b = 32

def isSpace : Bool := 9 ≤ b && b ≤ 13 || b = 32

def isIdChar : Bool := isDigit b || isLetter b || b = ascii '_' || b = ascii '$' || 128 ≤ b

def isQuote : Bool := b = 39 || b = ascii '"' || b = 96

end Bytes

inductive CharClass where
  | space
  | quote
  | bracket
  | digit
  | varAlpha
  | varNum
  | pipe
  | minus
  | lt
  | gt
  | eq
  | bang
  | slash
  /-- A token by itself. -/
  | single
  | dot
  | x
  | id
  | bom
  | illegal
  deriving DecidableEq

def isSingle (b : UInt8) : Bool :=
  b = ascii '(' || b = ascii ')' || b = ascii ';' || b = ascii '+' || b = ascii '*' || b = ascii '%' ||
    b = ascii ',' || b = ascii '&' || b = ascii '~'

def classOf (b : UInt8) : CharClass :=
  if isAsciiWhitespace b then .space
  else if isQuote b then .quote
  else if b = ascii '[' then .bracket
  else if isDigit b then .digit
  else if b = ascii '$' || b = ascii '@' || b = ascii '#' || b = ascii ':' then .varAlpha
  else if b = ascii '?' then .varNum
  else if b = ascii '|' then .pipe
  else if b = ascii '-' then .minus
  else if b = ascii '<' then .lt
  else if b = ascii '>' then .gt
  else if b = ascii '=' then .eq
  else if b = ascii '!' then .bang
  else if b = ascii '/' then .slash
  else if isSingle b then .single
  else if b = ascii '.' then .dot
  else if b = ascii 'x' || b = ascii 'X' then .x
  else if b = 0xef then .bom
  else if isLetter b || b = ascii '_' || 128 ≤ b then .id
  else .illegal

inductive Kind where
  | space
  | comment
  | word
  /-- A name in quotes or brackets. -/
  | name
  | string
  | blob
  | number
  | variable
  /-- An operator or a punctuation mark. -/
  | symbol
  | illegal
  deriving DecidableEq

section Lengths

def count (p : UInt8 → Bool) (text : List UInt8) : Nat := (text.takeWhile p).length

/-- What a quote opens, to the closing quote or to the end; a doubled quote does not close. -/
def quoteLength (quote : UInt8) : List UInt8 → Nat
  | [] => 0
  | b :: rest =>
    if b = quote then
      match rest with
      | [] => 1
      | b' :: rest' => if b' = quote then 2 + quoteLength quote rest' else 1
    else 1 + quoteLength quote rest

def isClosed (quote : UInt8) : List UInt8 → Bool
  | [] => false
  | b :: rest =>
    if b = quote then
      match rest with
      | [] => true
      | b' :: rest' => if b' = quote then isClosed quote rest' else true
    else isClosed quote rest

def bracketLength (text : List UInt8) : Nat := min (count (· ≠ ascii ']') text + 1) text.length

def blockLength : List UInt8 → Nat
  | [] => 0
  | [_] => 1
  | b :: b' :: rest => if b = ascii '*' ∧ b' = ascii '/' then 2 else 1 + blockLength (b' :: rest)

def isDigitOrSeparator (b : UInt8) : Bool := isDigit b || b = ascii '_'

def isHexOrSeparator (b : UInt8) : Bool := isHexDigit b || b = ascii '_'

def numberLength (text : List UInt8) : Nat :=
  if text.head? = some (ascii '0') ∧ (text[1]? = some (ascii 'x') ∨ text[1]? = some (ascii 'X')) ∧
      text[2]?.any isHexDigit then
    2 + count isHexOrSeparator (text.drop 2)
  else
    let whole := count isDigitOrSeparator text
    let fraction :=
      if text[whole]? = some (ascii '.') then whole + 1 + count isDigitOrSeparator (text.drop (whole + 1)) else whole
    let exponent := text.drop fraction
    if (exponent.head? = some (ascii 'e') ∨ exponent.head? = some (ascii 'E')) ∧
        (exponent[1]?.any isDigit ∨
          (exponent[1]? = some (ascii '+') ∨ exponent[1]? = some (ascii '-')) ∧ exponent[2]?.any isDigit) then
      fraction + 2 + count isDigitOrSeparator (exponent.drop 2)
    else fraction

def lexNumber (text : List UInt8) : Kind × Nat :=
  let length := numberLength text
  let more := count isIdChar (text.drop length)
  (if more = 0 then .number else .illegal, length + more - 1)

/-- The name of a variable: how long it is, and whether it is one. Some characters were read before. -/
def lexVariable : Nat → List UInt8 → Kind × Nat
  | read, [] => (if read = 0 then .illegal else .variable, 0)
  | read, b :: rest =>
    if isIdChar b then
      let (kind, length) := lexVariable (read + 1) rest
      (kind, length + 1)
    else if b = ascii '(' ∧ 0 < read then
      let inside := count (fun c => !isSpace c && c ≠ ascii ')') rest
      if rest[inside]? = some (ascii ')') then (.variable, inside + 2) else (.illegal, inside + 1)
    else if b = ascii ':' then
      match rest with
      | [] => (if read = 0 then .illegal else .variable, 0)
      | b' :: rest' =>
        if b' = ascii ':' then
          let (kind, length) := lexVariable read rest'
          (kind, length + 2)
        else (if read = 0 then .illegal else .variable, 0)
    else (if read = 0 then .illegal else .variable, 0)

def lexBlob (text : List UInt8) : Kind × Nat :=
  let digits := count isHexDigit text
  if text[digits]? = some 39 ∧ digits % 2 = 0 then (.blob, digits + 2)
  else (.illegal, min (count (· ≠ 39) text + 1) text.length + 1)

end Lengths

def lexOne (b : UInt8) (rest : List UInt8) : Kind × Nat :=
  match classOf b with
  | .space => (.space, count isSpace rest)
  | .minus =>
    if rest.head? = some (ascii '-') then (.comment, 1 + count (· ≠ 10) rest.tail)
    else if rest.head? = some (ascii '>') then (.symbol, if rest[1]? = some (ascii '>') then 2 else 1)
    else (.symbol, 0)
  | .slash =>
    if rest.head? = some (ascii '*') ∧ rest.tail ≠ [] then (.comment, 1 + blockLength rest.tail) else (.symbol, 0)
  | .single => (.symbol, 0)
  | .eq => (.symbol, if rest.head? = some (ascii '=') then 1 else 0)
  | .lt =>
    (.symbol, if rest.head? = some (ascii '=') ∨ rest.head? = some (ascii '>') ∨ rest.head? = some (ascii '<') then 1 else 0)
  | .gt => (.symbol, if rest.head? = some (ascii '=') ∨ rest.head? = some (ascii '>') then 1 else 0)
  | .bang => if rest.head? = some (ascii '=') then (.symbol, 1) else (.illegal, 0)
  | .pipe => (.symbol, if rest.head? = some (ascii '|') then 1 else 0)
  | .quote => (if isClosed b rest then (if b = 39 then .string else .name) else .illegal, quoteLength b rest)
  | .dot => if rest.head?.any isDigit then lexNumber (b :: rest) else (.symbol, 0)
  | .digit => lexNumber (b :: rest)
  | .bracket => (if ascii ']' ∈ rest then .name else .illegal, bracketLength rest)
  | .varNum => (.variable, count isDigit rest)
  | .varAlpha => lexVariable 0 rest
  | .x =>
    if rest.head? = some 39 then
      let (kind, length) := lexBlob rest.tail
      (kind, length)
    else (.word, count isIdChar rest)
  | .bom => if rest.take 2 = [0xbb, 0xbf] then (.space, 2) else (.word, count isIdChar rest)
  | .id => (.word, count isIdChar rest)
  | .illegal => (.illegal, 0)

/-- The tokens of a text, which ends where a zero byte stands. -/
def tokens (bytes : List UInt8) : List (Spans.Span UInt8 Kind) := Spans.spans lexOne (bytes.takeWhile (· ≠ 0))

end Ffdb.Observability
