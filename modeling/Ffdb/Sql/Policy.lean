import Ffdb.Sql.Lexer

/-! The parser of policy statements: the remaining tokens are its state, and the first
error ends it. -/
namespace Ffdb.Sql
open Text Fallible

structure RoleName where
  name : Identifier
  deriving DecidableEq

structure CreatePolicy where
  name : Identifier
  table : Identifier
  mode : PolicyMode
  command : PolicyCommand
  roles : List RoleName
  usingClause : Option Predicate
  withCheck : Option Predicate
  deriving DecidableEq

structure AlterPolicy where
  name : Identifier
  table : Identifier
  renameTo : Option Identifier
  roles : Option (List RoleName)
  usingClause : Option Predicate
  withCheck : Option Predicate
  deriving DecidableEq

structure DropPolicy where
  name : Identifier
  table : Identifier
  ifExists : Bool
  deriving DecidableEq

inductive AlterTableRls where
  | enable
  | disable
  | force
  | noForce
  deriving DecidableEq

inductive RlsStatement where
  | alterTable (table : Identifier) (action : AlterTableRls)
  | createPolicy (statement : CreatePolicy)
  | alterPolicy (statement : AlterPolicy)
  | dropPolicy (statement : DropPolicy)
  deriving DecidableEq

abbrev Parser := StateT (List Token) (Except RlsParseError)

namespace Parser

def consumeKeyword (expected : String) : Parser Bool
  | [] => .ok (false, [])
  | token :: rest =>
    match token.kind with
    | .word word =>
      if eqIgnoreAsciiCase word expected.toList then .ok (true, rest)
      else .ok (false, token :: rest)
    | _ => .ok (false, token :: rest)

section Text
variable (sql : List Char) {α : Type}

def syntaxError (tokens : List Token) (message : String) : RlsParseError :=
  .syntaxError (tokens.head?.elim (byteLength sql) Token.start) message

def fail (message : String) : Parser α := fun tokens => .error (syntaxError sql tokens message)

def expectKeyword (expected : String) : Parser Unit := do
  if ← consumeKeyword expected then pure () else fail sql ("expected " ++ expected)

def newIdentifier (value : List Char) : Except RlsParseError Identifier :=
  (Identifier.new value).mapError .identifier

def tokenIdentifier (token : Token) : Except RlsParseError Identifier :=
  match token.kind with
  | .word value | .identifier value => do
    let identifier ← newIdentifier value
    require (!identifier.isInternal) .internalIdentifier
    pure identifier
  | _ => .error (.syntaxError token.start "expected identifier")

def identifier : Parser Identifier
  | [] => .error (syntaxError sql [] "expected identifier")
  | token :: rest => do
    let name ← tokenIdentifier token
    pure (name, rest)

def roleList : Parser (List RoleName)
  | [] => .error (syntaxError sql [] "expected identifier")
  | [token] => do
    let name ← tokenIdentifier token
    pure ([⟨name⟩], [])
  | token :: next :: rest => do
    let name ← tokenIdentifier token
    if next.kind = .symbol ',' then
      let (roles, last) ← roleList rest
      pure (⟨name⟩ :: roles, last)
    else pure ([⟨name⟩], next :: rest)

def closingParenthesis : Nat → List Token → Option (Token × List Token)
  | _, [] => none
  | depth, token :: rest =>
    if token.kind = .symbol '(' then closingParenthesis (depth+1) rest
    else if token.kind = .symbol ')' then
      if depth = 1 then some (token, rest) else closingParenthesis (depth-1) rest
    else closingParenthesis depth rest

def parenthesizedPredicate : Parser Predicate
  | [] => .error (syntaxError sql [] "expected '('")
  | opening :: rest =>
    if opening.kind ≠ .symbol '(' then
      .error (syntaxError sql (opening :: rest) "expected '('")
    else
      match closingParenthesis 1 rest with
      | none => .error .malformedPredicate
      | some (closing, rest) => do
        let value := trim (sliceBytes sql opening.stop closing.start)
        require (value ≠ []) (syntaxError sql rest "policy predicate must not be empty")
        let predicate ← Predicate.new value
        pure (predicate, rest)

def policyMode : Parser PolicyMode := do
  if ← consumeKeyword "PERMISSIVE" then pure .permissive
  else if ← consumeKeyword "RESTRICTIVE" then pure .restrictive
  else fail sql "expected PERMISSIVE or RESTRICTIVE"

def policyCommand : Parser PolicyCommand := do
  if ← consumeKeyword "ALL" then pure .all
  else if ← consumeKeyword "SELECT" then pure .select
  else if ← consumeKeyword "INSERT" then pure .insert
  else if ← consumeKeyword "UPDATE" then pure .update
  else if ← consumeKeyword "DELETE" then pure .delete
  else fail sql "expected ALL, SELECT, INSERT, UPDATE, or DELETE"

def validatePolicyClauses (command : PolicyCommand) (hasUsing hasCheck : Bool) :
    Except RlsParseError Unit := do
  require (!(hasUsing && decide (command = .insert))) (.invalidPolicyClause command "USING")
  require (!(hasCheck && (decide (command = .select) || decide (command = .delete))))
    (.invalidPolicyClause command "WITH CHECK")

def optional (keyword : String) (clause : Parser α) : Parser (Option α) := do
  if ← consumeKeyword keyword then
    let value ← clause
    pure (some value)
  else pure none

def checkClause : Parser Predicate := do
  expectKeyword sql "CHECK"
  parenthesizedPredicate sql

def parseCreatePolicy : Parser CreatePolicy := do
  let name ← identifier sql
  expectKeyword sql "ON"
  let table ← identifier sql
  let publicRole ← newIdentifier "public".toList
  let mode ← optional "AS" (policyMode sql)
  let command ← optional "FOR" (policyCommand sql)
  let roles ← optional "TO" (roleList sql)
  let usingClause ← optional "USING" (parenthesizedPredicate sql)
  let withCheck ← optional "WITH" (checkClause sql)
  let command := command.getD .all
  validatePolicyClauses command usingClause.isSome withCheck.isSome
  pure
    { name, table, mode := mode.getD .permissive, command
      roles := roles.getD [⟨publicRole⟩], usingClause, withCheck }

def rowLevelSecurity (action : AlterTableRls) : Parser AlterTableRls := do
  expectKeyword sql "ROW"
  expectKeyword sql "LEVEL"
  expectKeyword sql "SECURITY"
  pure action

def alterAction : Parser AlterTableRls := do
  if ← consumeKeyword "ENABLE" then rowLevelSecurity sql .enable
  else if ← consumeKeyword "DISABLE" then rowLevelSecurity sql .disable
  else if ← consumeKeyword "FORCE" then rowLevelSecurity sql .force
  else if ← consumeKeyword "NO" then
    expectKeyword sql "FORCE"
    rowLevelSecurity sql .noForce
  else fail sql "expected ENABLE, DISABLE, FORCE, or NO FORCE"

def parseAlterTable : Parser RlsStatement := do
  let table ← identifier sql
  let action ← alterAction sql
  pure (.alterTable table action)

def parseAlterPolicy : Parser AlterPolicy := do
  let name ← identifier sql
  expectKeyword sql "ON"
  let table ← identifier sql
  if ← consumeKeyword "RENAME" then
    expectKeyword sql "TO"
    let renameTo ← identifier sql
    pure { name, table, renameTo := some renameTo, roles := none, usingClause := none, withCheck := none }
  else
    let roles ← optional "TO" (roleList sql)
    let usingClause ← optional "USING" (parenthesizedPredicate sql)
    let withCheck ← optional "WITH" (checkClause sql)
    if roles.isNone && usingClause.isNone && withCheck.isNone then
      fail sql "ALTER POLICY requires RENAME, TO, USING, or WITH CHECK"
    else pure { name, table, renameTo := none, roles, usingClause, withCheck }

def parseDropPolicy : Parser DropPolicy := do
  let ifExists ← consumeKeyword "IF"
  if ifExists then expectKeyword sql "EXISTS"
  let name ← identifier sql
  expectKeyword sql "ON"
  let table ← identifier sql
  if !(← consumeKeyword "CASCADE") then
    let _ ← consumeKeyword "RESTRICT"
  pure { name, table, ifExists }

def expectEnd : Parser Unit
  | [] => .ok ((), [])
  | tokens => .error (syntaxError sql tokens "unexpected trailing syntax")

def statement : Parser RlsStatement := do
  if ← consumeKeyword "CREATE" then
    expectKeyword sql "POLICY"
    let policy ← parseCreatePolicy sql
    pure (.createPolicy policy)
  else if ← consumeKeyword "ALTER" then
    if ← consumeKeyword "TABLE" then parseAlterTable sql
    else
      expectKeyword sql "POLICY"
      let policy ← parseAlterPolicy sql
      pure (.alterPolicy policy)
  else if ← consumeKeyword "DROP" then
    expectKeyword sql "POLICY"
    let policy ← parseDropPolicy sql
    pure (.dropPolicy policy)
  else fail sql "expected CREATE POLICY, ALTER POLICY, DROP POLICY, or ALTER TABLE"

end Text
end Parser

def parseRlsStatement (sql : List Char) : Except RlsParseError RlsStatement := do
  let tokens ← lex sql true
  require (tokens ≠ []) .empty
  let (statement, rest) ← Parser.statement sql tokens
  let _ ← Parser.expectEnd sql rest
  pure statement

structure ClausesAllowed (command : PolicyCommand) (usingClause withCheck : Option Predicate) :
    Prop where
  onInsert : command = .insert → usingClause = none
  onRead : command = .select ∨ command = .delete → withCheck = none

def RlsStatement.WellFormed : RlsStatement → Prop
  | .createPolicy statement => statement.roles ≠ [] ∧
      ClausesAllowed statement.command statement.usingClause statement.withCheck
  | .alterPolicy statement => ∀ roles ∈ statement.roles, roles ≠ []
  | _ => True

namespace Parser
variable (sql : List Char)

theorem roleList_ensures : Ensures (roleList sql) (· ≠ []) := by
  intro tokens roles rest h
  fun_cases roleList sql tokens with
  | case1 => simp [roleList] at h
  | case2 token =>
    simp only [roleList, bind_ok_iff, pure_ok_iff, Prod.mk.injEq] at h
    obtain ⟨name, _, rfl, _⟩ := h
    simp
  | case3 token next rest =>
    simp only [roleList, bind_ok_iff] at h
    obtain ⟨name, _, h⟩ := h
    split at h
    · simp only [bind_ok_iff, pure_ok_iff, Prod.mk.injEq, Prod.exists] at h
      obtain ⟨more, last, _, rfl, _⟩ := h
      simp
    · simp only [pure_ok_iff, Prod.mk.injEq] at h
      obtain ⟨rfl, _⟩ := h
      simp

theorem optional_ensures {α : Type} {keyword : String} {clause : Parser α} {P : α → Prop}
    (h : Ensures clause P) : Ensures (optional keyword clause) (∀ a ∈ ·, P a) := by
  refine Ensures.skip fun found => Ensures.ite ?_ (Ensures.pure (by simp))
  exact h.bind fun a ha => Ensures.pure (by simpa using ha)

theorem validatePolicyClauses_ok {command : PolicyCommand} {usingClause withCheck : Option Predicate}
    (h : validatePolicyClauses command usingClause.isSome withCheck.isSome = .ok ()) :
    ClausesAllowed command usingClause withCheck := by
  simp only [validatePolicyClauses, bind_ok_iff, require_ok_iff] at h
  obtain ⟨_, husing, hcheck⟩ := h
  constructor
  · intro hcommand
    simpa [hcommand] using husing
  · intro hcommand
    obtain rfl | rfl := hcommand <;> simpa using hcheck

theorem parseCreatePolicy_ensures :
    Ensures (parseCreatePolicy sql) fun s => (RlsStatement.createPolicy s).WellFormed := by
  refine Ensures.skip fun name => Ensures.skip fun _ => Ensures.skip fun table =>
    Ensures.skip fun publicRole => Ensures.skip fun mode => Ensures.skip fun command => ?_
  refine (optional_ensures (roleList_ensures sql)).bind fun roles hroles => ?_
  refine Ensures.skip fun usingClause => Ensures.skip fun withCheck => ?_
  refine (Ensures.lift _).bind fun _ hvalid => Ensures.pure ⟨?_, validatePolicyClauses_ok hvalid⟩
  cases roles with
  | none => simp
  | some roles => exact hroles roles rfl

theorem parseAlterPolicy_ensures :
    Ensures (parseAlterPolicy sql) fun s => (RlsStatement.alterPolicy s).WellFormed := by
  refine Ensures.skip fun name => Ensures.skip fun _ => Ensures.skip fun table =>
    Ensures.skip fun rename => Ensures.ite ?_ ?_
  · exact Ensures.skip fun _ => Ensures.skip fun renameTo => Ensures.pure (by
      simp [RlsStatement.WellFormed])
  · refine (optional_ensures (roleList_ensures sql)).bind fun roles hroles => ?_
    refine Ensures.skip fun usingClause => Ensures.skip fun withCheck => Ensures.ite ?_ ?_
    · intro _ _ _ h
      cases h
    · exact Ensures.pure hroles

theorem statement_ensures : Ensures (statement sql) RlsStatement.WellFormed := by
  refine Ensures.skip fun create => Ensures.ite ?_ (Ensures.skip fun alter => Ensures.ite ?_
    (Ensures.skip fun drop => Ensures.ite ?_ ?_))
  · exact Ensures.skip fun _ => (parseCreatePolicy_ensures sql).bind fun s hs => Ensures.pure hs
  · refine Ensures.skip fun table => Ensures.ite ?_ ?_
    · exact Ensures.skip fun table => Ensures.skip fun action => Ensures.pure trivial
    · exact Ensures.skip fun _ => (parseAlterPolicy_ensures sql).bind fun s hs => Ensures.pure hs
  · exact Ensures.skip fun _ => Ensures.skip fun s => Ensures.pure trivial
  · intro _ _ _ h
    cases h

end Parser

theorem parseRlsStatement_wellFormed {sql : List Char} {statement : RlsStatement}
    (h : parseRlsStatement sql = .ok statement) : statement.WellFormed := by
  simp only [parseRlsStatement, bind_ok_iff, require_ok_iff, Prod.exists, pure_ok_iff] at h
  obtain ⟨tokens, _, _, _, parsed, rest, hparse, _, _, _, rfl⟩ := h
  exact Parser.statement_ensures sql tokens parsed rest hparse

end Ffdb.Sql
