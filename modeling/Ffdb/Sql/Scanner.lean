import Ffdb.Sql.Lexer

/-! Splitting a text into statements and classifying one by its words outside
parentheses. -/
namespace Ffdb.Sql
open Text Fallible Scan

def skipQuoted (quote : Char) (error : SqlScanError) : List Char → Except SqlScanError Nat
  | [] => .error error
  | c :: rest =>
    if c = quote then
      match rest with
      | [] => .ok 1
      | c' :: rest' => if c' = quote then (skipQuoted quote error rest').map (·+2) else .ok 1
    else (skipQuoted quote error rest).map (·+1)

def skipBracketIdentifier : List Char → Except SqlScanError Nat
  | [] => .error .unterminatedIdentifier
  | c :: rest => if c = ']' then .ok 1 else (skipBracketIdentifier rest).map (·+1)

def skipBlockComment : List Char → Except SqlScanError Nat
  | [] => .error .unterminatedComment
  | [_] => .error .unterminatedComment
  | c :: c' :: rest =>
    if c = '*' ∧ c' = '/' then .ok 2 else (skipBlockComment (c' :: rest)).map (·+1)

/-- A text of white space and comments; the loop ends at anything else. -/
def triviaBody (_ : Unit) (c : Char) (rest : List Char) : Except Unit (Turn Unit ByteClass) :=
  if isAsciiWhitespace c then .ok ⟨(), 0, .code⟩
  else if c = '-' ∧ rest.head? = some '-' then .ok ⟨(), 1+lineComment rest.tail, .inComment⟩
  else if c = '/' ∧ rest.head? = some '*' then
    match skipBlockComment rest.tail with
    | .ok n => .ok ⟨(), 1+n, .inComment⟩
    | .error _ => .error ()
  else .error ()

def isTrivia (input : List Char) : Bool := (loop triviaBody () .code 0 input).isOk

/-- The statements so far, the text since the last one ended, and what its words and
parentheses have opened. -/
structure Split where
  statements : List (List Char) := []
  current : List Char := []
  depth : Nat := 0
  triggerBodyDepth : Nat := 0
  possibleTrigger : Bool := false
  words : List (List Char) := []

def Split.pass (s : Split) (c : Char) (rest : List Char) (skip : Nat) : Split :=
  { s with current := s.current ++ c :: rest.take skip }

def isTriggerStart (words : List (List Char)) : Bool :=
  words = ["CREATE".toList, "TRIGGER".toList] ||
    words = ["CREATE".toList, "TEMP".toList, "TRIGGER".toList] ||
    words = ["CREATE".toList, "TEMPORARY".toList, "TRIGGER".toList]

/-- A word outside parentheses. The first three tell whether a trigger is created, whose
body opens with `BEGIN` and counts `CASE` and `END`. -/
def Split.topLevelWord (s : Split) (word : List Char) : Split :=
  let words := if s.words.length < 3 then s.words ++ [word] else s.words
  let possibleTrigger :=
    s.possibleTrigger || (decide (s.words.length < 3) && isTriggerStart words)
  let triggerBodyDepth :=
    if (possibleTrigger && word = "BEGIN".toList) ||
        (decide (0 < s.triggerBodyDepth) && word = "CASE".toList) then s.triggerBodyDepth+1
    else if 0 < s.triggerBodyDepth ∧ word = "END".toList then s.triggerBodyDepth-1
    else s.triggerBodyDepth
  { s with words, possibleTrigger, triggerBodyDepth }

/-- The text since the last statement ended is one, unless it is trivia. -/
def Split.close (s : Split) : List (List Char) :=
  if isTrivia s.current then s.statements else s.statements ++ [trim s.current]

def splitBody (s : Split) (c : Char) (rest : List Char) :
    Except SqlScanError (Turn Split ByteClass) :=
  if c = apostrophe then do
    let n ← skipQuoted c .unterminatedString rest
    pure ⟨s.pass c rest n, n, .inString⟩
  else if c = '"' ∨ c = backtick then do
    let n ← skipQuoted c .unterminatedIdentifier rest
    pure ⟨s.pass c rest n, n, .inQuotedIdentifier⟩
  else if c = '[' then do
    let n ← skipBracketIdentifier rest
    pure ⟨s.pass c rest n, n, .inQuotedIdentifier⟩
  else if c = '-' ∧ rest.head? = some '-' then
    let n := 1+lineComment rest.tail
    .ok ⟨s.pass c rest n, n, .inComment⟩
  else if c = '/' ∧ rest.head? = some '*' then do
    let n ← skipBlockComment rest.tail
    pure ⟨s.pass c rest (1+n), 1+n, .inComment⟩
  else if c = '(' then .ok ⟨{ s.pass c rest 0 with depth := s.depth+1 }, 0, .code⟩
  else if c = ')' then
    if s.depth = 0 then .error .unbalancedParenthesis
    else .ok ⟨{ s.pass c rest 0 with depth := s.depth-1 }, 0, .code⟩
  else if isWordStart c then
    let more := rest.takeWhile isWordContinue
    let passed := s.pass c rest more.length
    .ok ⟨if s.depth = 0 then passed.topLevelWord (toAsciiUppercase (c :: more)) else passed,
      more.length, .code⟩
  else if c = ';' ∧ s.depth = 0 ∧ s.triggerBodyDepth = 0 then
    .ok ⟨{ s with statements := s.close, current := [], words := [], possibleTrigger := false },
      0, .code⟩
  else .ok ⟨s.pass c rest 0, 0, .code⟩

def splitSqlStatements (sql : List Char) : Except SqlScanError (List (List Char)) := do
  let (s, _) ← loop splitBody {} .code 0 sql
  require (s.depth = 0) .unbalancedParenthesis
  pure s.close

structure TopLevel where
  depth : Nat := 0
  words : List (List Char) := []

def topLevelBody (s : TopLevel) (c : Char) (rest : List Char) :
    Except SqlScanError (Turn TopLevel ByteClass) :=
  if c = apostrophe then do
    let n ← skipQuoted c .unterminatedString rest
    pure ⟨s, n, .inString⟩
  else if c = '"' ∨ c = backtick then do
    let n ← skipQuoted c .unterminatedIdentifier rest
    pure ⟨s, n, .inQuotedIdentifier⟩
  else if c = '[' then
    let value := bracketText rest
    if value.length = rest.length then .error .unterminatedIdentifier
    else .ok ⟨s, value.length+1, .inQuotedIdentifier⟩
  else if c = '-' ∧ rest.head? = some '-' then .ok ⟨s, 1+lineComment rest.tail, .inComment⟩
  else if c = '/' ∧ rest.head? = some '*' then do
    let n ← skipBlockComment rest.tail
    pure ⟨s, 1+n, .inComment⟩
  else if c = '(' then .ok ⟨{ s with depth := s.depth+1 }, 0, .code⟩
  else if c = ')' then
    if s.depth = 0 then .error .unbalancedParenthesis
    else .ok ⟨{ s with depth := s.depth-1 }, 0, .code⟩
  else if s.depth = 0 ∧ isWordStart c then
    let more := rest.takeWhile isWordContinue
    .ok ⟨{ s with words := s.words ++ [toAsciiUppercase (c :: more)] }, more.length, .code⟩
  else .ok ⟨s, 0, .code⟩

def topLevelWords (sql : List Char) : Except SqlScanError (List (List Char)) := do
  let (s, _) ← loop topLevelBody {} .code 0 sql
  require (s.depth = 0) .unbalancedParenthesis
  pure s.words

inductive StatementKind where
  | select
  | insert
  | update
  | delete
  | ddl
  | pragma
  | attach
  | detach
  | vacuum
  | transactionControl
  | rls
  | other
  deriving DecidableEq

structure StatementClass where
  kind : StatementKind
  readOnly : Bool
  deriving DecidableEq

def StatementClass.allowedForEndUser (statementClass : StatementClass) : Bool :=
  statementClass.kind = .select || statementClass.kind = .insert ||
    statementClass.kind = .update || statementClass.kind = .delete

inductive ClassificationError where
  | expectedOneStatement
  | ambiguous
  | scan (error : SqlScanError)
  deriving DecidableEq

def verbKind (word : List Char) : Option StatementKind :=
  if word = "SELECT".toList then some .select
  else if word = "INSERT".toList ∨ word = "REPLACE".toList then some .insert
  else if word = "UPDATE".toList then some .update
  else if word = "DELETE".toList then some .delete
  else none

def classifyWith (words : List (List Char)) : Except ClassificationError StatementKind :=
  orError ((words.drop 1).reverse.findSome? verbKind) .ambiguous

def isTransactionControl (word : List Char) : Bool :=
  word = "BEGIN".toList || word = "COMMIT".toList || word = "END".toList ||
    word = "ROLLBACK".toList || word = "SAVEPOINT".toList || word = "RELEASE".toList

def statementKind (first : List Char) (words : List (List Char)) :
    Except ClassificationError StatementKind :=
  match verbKind first with
  | some kind => .ok kind
  | none =>
    if first = "WITH".toList then classifyWith words
    else if first = "CREATE".toList ∨ first = "DROP".toList then
      .ok (if words[1]? = some "POLICY".toList then .rls else .ddl)
    else if first = "ALTER".toList then
      .ok (if (words[1]? = some "POLICY".toList ∨ words[1]? = some "TABLE".toList) ∧
          words.any (fun word => word = "POLICY".toList || word = "SECURITY".toList) then .rls
        else .ddl)
    else if first = "PRAGMA".toList then .ok .pragma
    else if first = "ATTACH".toList then .ok .attach
    else if first = "DETACH".toList then .ok .detach
    else if first = "VACUUM".toList then .ok .vacuum
    else if isTransactionControl first then .ok .transactionControl
    else .ok .other

def singleStatement (sql : List Char) : Except ClassificationError (List Char) := do
  match ← (splitSqlStatements sql).mapError .scan with
  | [statement] => pure statement
  | _ => .error .expectedOneStatement

def classifyStatement (sql : List Char) : Except ClassificationError StatementClass := do
  let statement ← singleStatement sql
  let words ← (topLevelWords statement).mapError .scan
  let first ← orError words.head? .ambiguous
  let kind ← statementKind first words
  pure { kind, readOnly := kind = .select }

end Ffdb.Sql
