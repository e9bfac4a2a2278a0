import Ffdb.Observability.Shape

/-! What may be seen of a statement: the kinds of its tokens, its keywords and its operators. -/
namespace Ffdb.Observability
open Spans

/-- What may be seen of a token. Of a name that is no keyword, of a value and of a parameter that is only its kind. -/
inductive View where
  | keyword (word : Piece)
  | name
  | string
  | blob
  | number
  | variable
  | symbol (text : List UInt8)
  | illegal
  deriving DecidableEq

def wordView (text : List UInt8) : View :=
  let word := Text.toAsciiUppercase (chars text)
  if keywords.contains (String.ofList word) then .keyword word else .name

def viewOf (span : Span UInt8 Kind) : Option View :=
  match span.kind with
  | .space => none
  | .comment => none
  | .word => some (wordView span.text)
  | .name => some .name
  | .string => some .string
  | .blob => some .blob
  | .number => some .number
  | .variable => some .variable
  | .symbol => some (.symbol span.text)
  | .illegal => some .illegal

def views (sql : List Char) : List View := (tokens (Text.utf8 sql)).filterMap viewOf

/-- What might be seen if the text did not end where a zero byte stands. -/
def viewsOfAll (sql : List Char) : List View := (spans lexOne (Text.utf8 sql)).filterMap viewOf

def arrow2 : List UInt8 := [ascii '-', ascii '>', ascii '>']

def unequal : List UInt8 := [ascii '!', ascii '=']

def View.pieces : View → List Piece
  | .keyword word => [word]
  | .blob => [hidden, hidden]
  | .symbol text =>
    if text = arrow2 then [chars [ascii '-', ascii '>'], chars [ascii '>']]
    else if text = unequal then [hidden, chars [ascii '=']]
    else if text = [ascii '&'] ∨ text = [ascii '~'] then [hidden]
    else [chars text]
  | _ => [hidden]

def shapeText (pieces : List Piece) : List Char :=
  let shape := [' '].intercalate (pieces.take maxTokens)
  (if shape = [] then "UNKNOWN".toList else shape).take maxShapeBytes

def shapeOf (views : List View) : List Char := shapeText (views.flatMap View.pieces)

section Alike
variable (span : Span UInt8 Kind)

def endsWith (p : UInt8 → Bool) : Bool := span.text.tail.all p && !span.rest.head?.any p

def headIs (p : UInt8 → Bool) : Bool := span.text.head?.any p

def isDrawn : Bool :=
  headIs span (fun b => isOperator b || b = ascii '!') &&
    (span.text.length = 1 || span.text = arrow2 || span.text = unequal) && span.rest.head?.any isJoined

/-- Behind a carriage return, a line comment goes on with white space or as another comment. -/
def isQuiet : Bool → List UInt8 → Bool
  | _, [] => true
  | true, b :: rest => isQuiet (b ≠ 13) rest
  | false, b :: rest =>
    if isAsciiWhitespace b then isQuiet false rest
    else b = ascii '-' && rest.head? = some (ascii '-') && isQuiet true rest

def isAlike : Bool :=
  match span.kind with
  | .space => span.text.all isAsciiWhitespace
  | .comment => !headIs span (· = ascii '-') || isQuiet true span.text
  | .word => span.text.all isWordByte
  | .name => true
  | .string => true
  | .blob => span.rest.head? ≠ some 39
  | .number => headIs span isDigit && endsWith span isNumberByte
  | .variable => headIs span (· ≠ ascii '#') && endsWith span isWordByte
  | .symbol => !isDrawn span && !(span.text = [ascii '/'] && span.rest.head? = some (ascii '*'))
  | .illegal =>
    (span.text.length = 1 && headIs span fun b => b = ascii '!' || classOf b = .varAlpha || classOf b = .illegal) ||
      headIs span (fun b => isQuote b || b = ascii '[') || headIs span isDigit && endsWith span isNumberByte

end Alike

def spanPieces (span : Span UInt8 Kind) : List Piece := (viewOf span).toList.flatMap View.pieces

def isFull (pieces : List Piece) : Bool :=
  maxTokens ≤ pieces.length || maxShapeBytes ≤ ([' '].intercalate pieces).length

/-- The redaction reads a statement as SQLite does until the shape is full, and what stands behind a zero byte, where
SQLite's text ends, adds nothing to the shape. -/
def ReadAlike (sql : List Char) : Prop :=
  goodUntil isAlike spanPieces isFull [] (spans lexOne (Text.utf8 sql)) = true ∧
    shapeOf (viewsOfAll sql) = shapeOf (views sql)

instance (sql : List Char) : Decidable (ReadAlike sql) := inferInstanceAs (Decidable (_ ∧ _))

end Ffdb.Observability
