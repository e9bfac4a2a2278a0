import Ffdb.Sql.Identifier
import Ffdb.Lib.Scan

/-! Tokens of the policy grammar, the rewriting of `auth.*` calls and the predicates a
policy may hold. The loops move through the text one character at a time; where the
source sets its index past a comment or a quoted text, they pass over as many characters. -/
namespace Ffdb.Sql
open Text Fallible Scan

inductive PolicyMode where
  | permissive
  | restrictive
  deriving DecidableEq

inductive PolicyCommand where
  | all
  | select
  | insert
  | update
  | delete
  deriving DecidableEq

inductive SqlScanError where
  | unterminatedString
  | unterminatedIdentifier
  | unterminatedComment
  | unbalancedParenthesis
  deriving DecidableEq

inductive RlsParseError where
  | empty
  | syntaxError (offset : Nat) (message : String)
  | internalIdentifier
  | unsafePredicate
  | unsupportedAuthFunction
  | invalidClaimArgument
  | malformedPredicate
  | invalidPolicyClause (command : PolicyCommand) (clause : String)
  | identifier (error : IdentifierError)
  | scan (error : SqlScanError)
  deriving DecidableEq

inductive TokenKind where
  | word (value : List Char)
  | identifier (value : List Char)
  | stringLiteral (value : List Char)
  | symbol (c : Char)
  | other
  deriving DecidableEq

structure Token where
  kind : TokenKind
  start : Nat
  stop : Nat
  deriving DecidableEq

def isLineEnd (c : Char) : Bool := c = '\n' || c = '\r'

def isWordStart (c : Char) : Bool := c.isAlpha || c = '_'

def isWordContinue (c : Char) : Bool := c.isAlphanum || c = '_' || c = '$'

/-- What a quote opens, which the quote doubled stands for itself in: its length to the
closing quote and the text. -/
def decodeQuoted (quote : Char) : List Char → Option (Nat × List Char)
  | [] => none
  | c :: rest =>
    if c = quote then
      match rest with
      | [] => some (1, [])
      | c' :: rest' =>
        if c' = quote then
          (decodeQuoted quote rest').map fun (n, value) => (n+2, quote :: value)
        else some (1, [])
    else (decodeQuoted quote rest).map fun (n, value) => (n+1, c :: value)

/-- The length of a block comment after its opening. One that ends with its opening is
passed over. -/
def lexBlockComment : List Char → Option Nat
  | [] => some 2
  | [_] => none
  | c :: c' :: rest =>
    if c = '*' ∧ c' = '/' then some 2 else (lexBlockComment (c' :: rest)).map (·+1)

def lineComment (text : List Char) : Nat := (text.takeWhile fun c => !isLineEnd c).length

def bracketText (text : List Char) : List Char := text.takeWhile (· ≠ ']')

def quotedKind (quote : Char) : List Char → TokenKind :=
  if quote = apostrophe then .stringLiteral else .identifier

inductive ByteClass where
  | inString
  | inQuotedIdentifier
  | inComment
  | code
  deriving DecidableEq

def quoteClass (quote : Char) : ByteClass :=
  if quote = apostrophe then .inString else .inQuotedIdentifier

structure Lexing where
  tokens : List Token := []
  index : Nat := 0

def Lexing.pass (s : Lexing) (c : Char) (rest : List Char) (skip : Nat) : Lexing :=
  { s with index := s.index+c.utf8Size+byteLength (rest.take skip) }

def Lexing.push (s : Lexing) (kind : TokenKind) (c : Char) (rest : List Char) (skip : Nat) : Lexing :=
  { s.pass c rest skip with
    tokens := s.tokens ++ [⟨kind, s.index, (s.pass c rest skip).index⟩] }

def lexBody (allowComments : Bool) (s : Lexing) (c : Char) (rest : List Char) :
    Except RlsParseError (Turn Lexing ByteClass) :=
  if isAsciiWhitespace c then .ok ⟨s.pass c rest 0, 0, .code⟩
  else if c = '-' ∧ rest.head? = some '-' then
    if allowComments then
      let skip := 1+lineComment rest.tail
      .ok ⟨s.pass c rest skip, skip, .inComment⟩
    else .error .unsafePredicate
  else if c = '/' ∧ rest.head? = some '*' then
    if allowComments then
      match lexBlockComment rest.tail with
      | some n => .ok ⟨s.pass c rest (1+n), 1+n, .inComment⟩
      | none => .error .malformedPredicate
    else .error .unsafePredicate
  else if c = apostrophe ∨ c = '"' ∨ c = backtick then
    match decodeQuoted c rest with
    | some (n, value) => .ok ⟨s.push (quotedKind c value) c rest n, n, quoteClass c⟩
    | none => .error .malformedPredicate
  else if c = '[' then
    let value := bracketText rest
    if value.length = rest.length then .error .malformedPredicate
    else .ok ⟨s.push (.identifier value) c rest (value.length+1), value.length+1, .inQuotedIdentifier⟩
  else if isWordStart c then
    let more := rest.takeWhile isWordContinue
    .ok ⟨s.push (.word (c :: more)) c rest more.length, more.length, .code⟩
  else if c = '(' ∨ c = ')' ∨ c = ',' ∨ c = '.' ∨ c = ';' then
    .ok ⟨s.push (.symbol c) c rest 0, 0, .code⟩
  else
    -- a character beyond ASCII is as many tokens as it has bytes
    let others := (List.range c.utf8Size).map fun k => ⟨.other, s.index+k, s.index+k+1⟩
    .ok ⟨{ s.pass c rest 0 with tokens := s.tokens ++ others }, 0, .code⟩

def lex (sql : List Char) (allowComments : Bool) : Except RlsParseError (List Token) :=
  (loop (lexBody allowComments) {} .code 0 sql).map fun (s, _) => s.tokens

def dropBytes : Nat → List Char → List Char
  | 0, text => text
  | _+1, [] => []
  | n+1, c :: rest => dropBytes (n+1-c.utf8Size) rest

def takeBytes : Nat → List Char → List Char
  | 0, _ => []
  | _+1, [] => []
  | n+1, c :: rest => c :: takeBytes (n+1-c.utf8Size) rest

def sliceBytes (text : List Char) (start stop : Nat) : List Char :=
  takeBytes (stop-start) (dropBytes start text)

def TokenKind.isInternal : TokenKind → Bool
  | .word value | .identifier value => Identifier.isInternalName value
  | _ => false

def isSymbol (c : Char) (token : Option Token) : Bool := token.any fun token => token.kind = .symbol c

/-- An `auth.*` call: its private name, where the public one ends, and how many tokens
lie before its closing parenthesis. -/
structure AuthCall where
  replacement : List Char
  functionEnd : Nat
  close : Nat

def authReplacement (function : List Char) : Option (List Char) :=
  if function = "uid".toList then some "__ffdb_auth_uid".toList
  else if function = "role".toList then some "__ffdb_auth_role".toList
  else if function = "jwt".toList then some "__ffdb_auth_jwt".toList
  else if function = "claim".toList then some "__ffdb_auth_claim".toList
  else none

def isClaimArgument : Option Token → Bool
  | some ⟨.stringLiteral value, _, _⟩ => !value.isEmpty && decide (value.length ≤ 128)
  | _ => false

def authCall (tokens : List Token) : Except RlsParseError (Option AuthCall) :=
  match (tokens[0]? : Option Token) with
  | some ⟨.word auth, _, _⟩ =>
    if eqIgnoreAsciiCase auth "auth".toList && isSymbol '.' tokens[1]? then
      match (tokens[2]? : Option Token) with
      | some ⟨.word function, _, functionEnd⟩ =>
        match authReplacement (toAsciiLowercase function) with
        | none => .error .unsupportedAuthFunction
        | some replacement =>
          if !isSymbol '(' tokens[3]? then .error .unsupportedAuthFunction
          else if replacement = "__ffdb_auth_claim".toList then
            if isClaimArgument tokens[4]? && isSymbol ')' tokens[5]? then
              .ok (some ⟨replacement, functionEnd, 5⟩)
            else .error .invalidClaimArgument
          else if isSymbol ')' tokens[4]? then .ok (some ⟨replacement, functionEnd, 4⟩)
          else .error .unsupportedAuthFunction
      | _ => .error .unsupportedAuthFunction
    else .ok none
  | _ => .ok none

/-- The text from the cursor on with its calls rewritten, the next tokens passed over. -/
def rewriteFrom (sql : List Char) : Nat → Nat → List Token → Except RlsParseError (List Char)
  | sourceCursor, _, [] => .ok (dropBytes sourceCursor sql)
  | sourceCursor, skip+1, _ :: rest => rewriteFrom sql sourceCursor skip rest
  | sourceCursor, 0, token :: rest => do
    match ← authCall (token :: rest) with
    | none => rewriteFrom sql sourceCursor 0 rest
    | some call => do
      let output ← rewriteFrom sql call.functionEnd call.close rest
      pure (sliceBytes sql sourceCursor token.start ++ call.replacement ++ output)

def rewriteAuthFunctions (sql : List Char) (allowComments : Bool) :
    Except RlsParseError (List Char) := do
  let tokens ← lex sql allowComments
  require (!tokens.any (·.kind.isInternal)) .internalIdentifier
  rewriteFrom sql 0 0 tokens

def rewriteAuthFunctionsForExecution (sql : List Char) : Except RlsParseError (List Char) :=
  rewriteAuthFunctions sql true

def predicateDepth : Nat → List Token → Except RlsParseError Nat
  | depth, [] => .ok depth
  | depth, token :: rest =>
    if token.kind = .symbol '(' then predicateDepth (depth+1) rest
    else if token.kind = .symbol ')' then
      if depth = 0 then .error .malformedPredicate else predicateDepth (depth-1) rest
    else if token.kind.isInternal then .error .internalIdentifier
    else predicateDepth depth rest

def validatePredicate (sql : List Char) : Except RlsParseError Unit := do
  require (trim sql ≠ []) .malformedPredicate
  let tokens ← lex sql false
  require (!tokens.any (·.kind = .symbol ';')) .unsafePredicate
  let depth ← predicateDepth 0 tokens
  require (depth = 0) .malformedPredicate
  let _ ← rewriteAuthFunctions sql false

structure Predicate where
  sql : List Char
  valid : validatePredicate sql = .ok ()
  deriving DecidableEq

def Predicate.new (sql : List Char) : Except RlsParseError Predicate :=
  match h : validatePredicate sql with
  | .ok () => .ok ⟨sql, h⟩
  | .error error => .error error

def Predicate.sqliteSql (predicate : Predicate) : List Char :=
  match rewriteAuthFunctions predicate.sql false with
  | .ok sql => sql
  | .error _ => "0".toList

/-- The fallback of `sqliteSql` is never taken: the check has rewritten the text already. -/
theorem Predicate.rewritten (predicate : Predicate) :
    rewriteAuthFunctions predicate.sql false = .ok predicate.sqliteSql := by
  have hvalid := predicate.valid
  cases hrewrite : rewriteAuthFunctions predicate.sql false with
  | ok sql => simp [sqliteSql, hrewrite]
  | error error =>
    simp [validatePredicate, hrewrite] at hvalid

end Ffdb.Sql
