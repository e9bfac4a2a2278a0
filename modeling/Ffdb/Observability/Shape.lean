import Ffdb.Lib.Sha256
import Ffdb.Observability.Tokens
import Ffdb.Sql.Scanner

/-! The shape of a statement that telemetry keeps: its keywords and operators, with a mark for everything else. -/
namespace Ffdb.Observability
open Sql (StatementKind classifyStatement)

abbrev Piece := List Char

def hidden : Piece := ['?']

def keywords : List String :=
  ["ABORT", "ACTION", "ADD", "AFTER", "ALL", "ALTER", "ANALYZE", "AND", "AS", "ASC", "ATTACH", "BEFORE", "BEGIN",
    "BETWEEN", "BY", "CASCADE", "CASE", "CAST", "CHECK", "COLLATE", "COLUMN", "COMMIT", "CONFLICT", "CONSTRAINT",
    "CREATE", "CROSS", "CURRENT", "DEFAULT", "DELETE", "DESC", "DETACH", "DISTINCT", "DO", "DROP", "EACH", "ELSE",
    "END", "ESCAPE", "EXCEPT", "EXCLUDE", "EXISTS", "EXPLAIN", "FAIL", "FILTER", "FOLLOWING", "FOR", "FOREIGN",
    "FROM", "FULL", "GENERATED", "GLOB", "GROUP", "HAVING", "IF", "IGNORE", "IN", "INDEX", "INDEXED", "INITIALLY",
    "INNER", "INSERT", "INSTEAD", "INTERSECT", "INTO", "IS", "JOIN", "KEY", "LEFT", "LIKE", "LIMIT", "MATCH",
    "MATERIALIZED", "NATURAL", "NO", "NOT", "NOTHING", "NULL", "NULLS", "OF", "OFFSET", "ON", "OR", "ORDER",
    "OTHERS", "OUTER", "OVER", "PARTITION", "PLAN", "PRAGMA", "PRECEDING", "PRIMARY", "QUERY", "RAISE", "RANGE",
    "RECURSIVE", "REFERENCES", "REGEXP", "REINDEX", "RELEASE", "RENAME", "REPLACE", "RESTRICT", "RETURNING", "RIGHT",
    "ROLLBACK", "ROW", "ROWS", "SAVEPOINT", "SELECT", "SET", "TABLE", "TEMP", "TEMPORARY", "THEN", "TIES", "TO",
    "TRANSACTION", "TRIGGER", "UNBOUNDED", "UNION", "UNIQUE", "UPDATE", "USING", "VACUUM", "VALUES", "VIEW",
    "VIRTUAL", "WHEN", "WHERE", "WINDOW", "WITH", "WITHOUT"]

section Bytes
variable (b : UInt8)

def isWordByte : Bool := isDigit b || isLetter b || b = ascii '_'

def isNumberByte : Bool :=
  isDigit b || isLetter b || b = ascii '.' || b = ascii '_' || b = ascii '+' || b = ascii '-'

def isLineEnd : Bool := b = 10 || b = 13

def isPunctuation : Bool := b = ascii '(' || b = ascii ')' || b = ascii ',' || b = ascii ';' || b = ascii '.'

def isOperator : Bool :=
  b = ascii '=' || b = ascii '<' || b = ascii '>' || b = ascii '+' || b = ascii '-' || b = ascii '*' ||
    b = ascii '/' || b = ascii '%' || b = ascii '|'

def isJoined : Bool := b = ascii '=' || b = ascii '>' || b = ascii '<' || b = ascii '|'

end Bytes

def chars (bytes : List UInt8) : List Char := bytes.map fun b => Char.ofNat b.toNat

def wordPiece (bytes : List UInt8) : Piece :=
  let word := Text.toAsciiUppercase (chars bytes)
  if keywords.contains (String.ofList word) then word else hidden

/-- One turn of the loop: what it pushes, and how far it goes behind the first byte. -/
def redactOne (b : UInt8) (rest : List UInt8) : List Piece × Nat :=
  if isAsciiWhitespace b then ([], 0)
  else if b = ascii '-' ∧ rest.head? = some (ascii '-') then ([], 1 + count (!isLineEnd ·) rest.tail)
  else if b = ascii '/' ∧ rest.head? = some (ascii '*') then ([], 1 + blockLength rest.tail)
  else if isQuote b then ([hidden], quoteLength b rest)
  else if b = ascii '[' then ([hidden], bracketLength rest)
  else if b = ascii '?' || b = ascii ':' || b = ascii '@' || b = ascii '$' then ([hidden], count isWordByte rest)
  else if isDigit b then ([hidden], count isNumberByte rest)
  else if isLetter b || b = ascii '_' then
    let more := rest.takeWhile isWordByte
    ([wordPiece (b :: more)], more.length)
  else if isPunctuation b then ([chars [b]], 0)
  else if isOperator b then
    match rest with
    | b' :: _ => if isJoined b' then ([chars [b, b']], 1) else ([chars [b]], 0)
    | [] => ([chars [b]], 0)
  else ([hidden], 0)

def redactLoop : Nat → Nat → List UInt8 → List Piece
  | 0, _, _ => []
  | _, _, [] => []
  | limit, skip+1, _ :: rest => redactLoop limit skip rest
  | limit, 0, b :: rest =>
    let (pushed, skip) := redactOne b rest
    pushed ++ redactLoop (limit - pushed.length) skip rest

def maxTokens : Nat := 96

def maxShapeBytes : Nat := 320

def redactSqlShape (sql : List Char) : List Char :=
  let shape := [' '].intercalate (redactLoop maxTokens 0 (Text.utf8 sql))
  (if shape = [] then "UNKNOWN".toList else shape).take maxShapeBytes

def statementKindName : StatementKind → String
  | .select => "select"
  | .insert => "insert"
  | .update => "update"
  | .delete => "delete"
  | .ddl => "ddl"
  | .pragma => "pragma"
  | .attach => "attach"
  | .detach => "detach"
  | .vacuum => "vacuum"
  | .transactionControl => "transaction_control"
  | .rls => "rls"
  | .other => "other"

structure QueryProfile where
  fingerprint : List Char
  shape : List Char
  statementKind : String
  readOnly : Bool

def profileSql (sql : List Char) : QueryProfile :=
  let (statementKind, readOnly) :=
    match classifyStatement sql with
    | .ok statementClass => (statementKindName statementClass.kind, statementClass.readOnly)
    | .error _ => ("other", false)
  let shape := redactSqlShape sql
  { fingerprint := Text.hex (Sha256.digest (Text.utf8 shape))
    shape
    statementKind
    readOnly }

end Ffdb.Observability
