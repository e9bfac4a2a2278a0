import Ffdb.Auth.Refresh

/-! The tables of accounts, their one-time tokens and their sessions, and the transactions on them. -/
namespace Ffdb.Auth
open Fallible

def oneTimeTokenTtlMs : Int := 30*60*1000

structure AuthUserRecord where
  id : Uuid
  projectId : Uuid
  normalizedEmail : List Char
  passwordHash : List Char
  emailVerifiedAtMs : Option Int64
  disabledAtMs : Option Int64
  passwordChangedAtMs : Int64
  deriving DecidableEq

inductive OneTimePurpose where
  | emailVerification
  | passwordReset
  deriving DecidableEq

structure OneTimeTokenRecord where
  id : Uuid
  projectId : Uuid
  userId : Uuid
  purpose : OneTimePurpose
  parts : TokenParts
  expiresAtMs : Int64
  consumedAtMs : Option Int64
  deriving DecidableEq

structure OneTimeToken where
  plaintext : List Char
  record : OneTimeTokenRecord
  deriving DecidableEq

inductive OneTimeStoreError where
  | rejected
  | unavailable
  deriving DecidableEq

structure AuthTables where
  users : Table Uuid AuthUserRecord := ∅
  oneTimeTokens : Table Uuid OneTimeTokenRecord := ∅
  refresh : RefreshState := {}

/-- What a transaction does: one that fails is rolled back. -/
def transact {α ε : Type} (tables : AuthTables) : Except ε (AuthTables × α) → AuthTables × Except ε α
  | .ok (tables', answer) => (tables', .ok answer)
  | .error error => (tables, .error error)

namespace AuthTables
variable (tables : AuthTables)

def findById (projectId userId : Uuid) : Option AuthUserRecord :=
  (tables.users.lookup userId).filter fun user => user.projectId = projectId

/-- Emails are compared without case. -/
def findByEmail (projectId : Uuid) (normalizedEmail : List Char) : Option AuthUserRecord :=
  (tables.users.findEntry fun _ user =>
    user.projectId = projectId && user.normalizedEmail.map Char.toLower = normalizedEmail.map Char.toLower).map (·.2)

def revokeUserSessions (projectId userId : Uuid) (nowMs : Int64) (reason : List Char) : AuthTables :=
  { tables with refresh := { tables.refresh with
    sessions := tables.refresh.sessions.mapValues fun _ session =>
      if session.projectId = projectId && session.userId = userId then session.revoke nowMs reason else session
    families := tables.refresh.families.mapValues fun _ family =>
      if family.projectId = projectId && family.userId = userId then family.revoke nowMs reason else family } }

/-- A user's row changed, if the account is not disabled. -/
def updateEnabled (projectId userId : Uuid) (update : AuthUserRecord → AuthUserRecord) : Option AuthTables :=
  match tables.findById projectId userId with
  | some user =>
    if user.disabledAtMs.isNone then some { tables with users := tables.users.insert userId (update user) } else none
  | none => none

def setPassword (projectId userId : Uuid) (hash : List Char) (atMs : Int64) : AuthTables × Bool :=
  match tables.updateEnabled projectId userId
    fun user => { user with passwordHash := hash, passwordChangedAtMs := atMs } with
  | some tables => (tables.revokeUserSessions projectId userId atMs "password_changed".toList, true)
  | none => (tables, false)

def disable (projectId userId : Uuid) (atMs : Int64) : AuthTables × Bool :=
  match tables.findById projectId userId with
  | some user =>
    let tables := { tables with
      users := tables.users.insert userId { user with disabledAtMs := some (user.disabledAtMs.getD atMs) } }
    (tables.revokeUserSessions projectId userId atMs "account_disabled".toList, true)
  | none => (tables, false)

/-- Enabling an account, or disabling it, moves its password's time on. -/
def setDisabledForProject (projectId userId : Uuid) (disabled : Bool) (nowMs : Int64) : AuthTables × Bool :=
  match tables.findById projectId userId with
  | some user =>
    let disabledAtMs := if disabled then some (user.disabledAtMs.getD nowMs) else none
    let passwordChangedAtMs := max user.passwordChangedAtMs nowMs
    let tables := { tables with users := tables.users.insert userId { user with disabledAtMs, passwordChangedAtMs } }
    (if disabled then tables.revokeUserSessions projectId userId nowMs "account_disabled".toList else tables, true)
  | none => (tables, false)

section OneTime
variable (codec : OpaqueTokenCodec)

def oneTimeByPrefix (lookupPrefix : List Char) : Option OneTimeTokenRecord :=
  (tables.oneTimeTokens.findEntry fun _ record => record.parts.tokenPrefix = lookupPrefix).map (·.2)

def presentOneTime (plaintext : List Char) (purpose : OneTimePurpose) (nowMs : Int64) :
    Except OneTimeStoreError OneTimeTokenRecord := do
  let candidate ← orError (codec.parseAndDigest plaintext) .rejected
  let record ← orError (tables.oneTimeByPrefix candidate.tokenPrefix) .rejected
  require (record.purpose = purpose && record.consumedAtMs.isNone && nowMs < record.expiresAtMs &&
    candidate.digest = record.parts.digest) .rejected
  pure record

def lockOneTimeToken (projectId : Uuid) (plaintext : List Char) (purpose : OneTimePurpose) (nowMs : Int64) :
    Except OneTimeStoreError OneTimeTokenRecord := do
  let record ← tables.presentOneTime codec plaintext purpose nowMs
  require (record.projectId = projectId) .rejected
  pure record

def markConsumed (record : OneTimeTokenRecord) (nowMs : Int64) : AuthTables :=
  { tables with
    oneTimeTokens := tables.oneTimeTokens.insert record.id { record with consumedAtMs := some nowMs } }

def consumeOneTimeToken (tokenId : Uuid) (nowMs : Int64) : Except OneTimeStoreError AuthTables := do
  let record ← orError (tables.oneTimeTokens.lookup tokenId) .rejected
  require record.consumedAtMs.isNone .rejected
  pure (tables.markConsumed record nowMs)

/-- The first half of a consumption for a project, which only reads. -/
def checkForProject (projectId : Uuid) (plaintext : List Char) : Except OneTimeStoreError Unit := do
  let candidate ← orError (codec.parseAndDigest plaintext) .rejected
  let record ← orError (tables.oneTimeByPrefix candidate.tokenPrefix) .rejected
  require (record.projectId = projectId && candidate.digest = record.parts.digest) .rejected

def consume (plaintext : List Char) (purpose : OneTimePurpose) (nowMs : Int64) :
    Except OneTimeStoreError (AuthTables × OneTimeTokenRecord) := do
  let record ← tables.presentOneTime codec plaintext purpose nowMs
  pure (tables.markConsumed record nowMs, { record with consumedAtMs := some nowMs })

def verifyEmailForProject (projectId : Uuid) (plaintext : List Char) (nowMs : Int64) :
    Except OneTimeStoreError (AuthTables × Uuid) := do
  let record ← tables.lockOneTimeToken codec projectId plaintext .emailVerification nowMs
  let updated ← orError (tables.updateEnabled projectId record.userId
    fun user => { user with emailVerifiedAtMs := some (user.emailVerifiedAtMs.getD nowMs) }) .rejected
  let tables ← updated.consumeOneTimeToken record.id nowMs
  pure (tables, record.userId)

def resetPasswordForProject (projectId : Uuid) (plaintext passwordHash : List Char) (nowMs : Int64) :
    Except OneTimeStoreError (AuthTables × Uuid) := do
  let record ← tables.lockOneTimeToken codec projectId plaintext .passwordReset nowMs
  let updated ← orError (tables.updateEnabled projectId record.userId
    fun user => { user with passwordHash, passwordChangedAtMs := nowMs }) .rejected
  let revoked := updated.revokeUserSessions projectId record.userId nowMs "password_reset".toList
  let tables ← revoked.consumeOneTimeToken record.id nowMs
  pure (tables, record.userId)

def supersede (projectId userId : Uuid) (purpose : OneTimePurpose) (nowMs : Int64) : Table Uuid OneTimeTokenRecord :=
  tables.oneTimeTokens.mapValues fun _ record =>
    if record.projectId = projectId && record.userId = userId && record.purpose = purpose && record.consumedAtMs.isNone
    then { record with consumedAtMs := some nowMs } else record

def issue (projectId userId : Uuid) (purpose : OneTimePurpose) (nowMs : Int64) (mint : TokenMint) :
    Except OneTimeStoreError (AuthTables × OneTimeToken) := do
  require (nowMs.toInt + oneTimeTokenTtlMs < 2^63) .unavailable
  let (plaintext, parts) ← orError (codec.issue mint.entropy) .unavailable
  let record : OneTimeTokenRecord :=
    { id := mint.tokenId, projectId, userId, purpose, parts
      expiresAtMs := Int64.ofInt (nowMs.toInt + oneTimeTokenTtlMs), consumedAtMs := none }
  require (tables.findById projectId userId).isSome .rejected
  let superseded := tables.supersede projectId userId purpose nowMs
  require ((superseded.lookup record.id).isNone && (tables.oneTimeByPrefix parts.tokenPrefix).isNone) .unavailable
  pure ({ tables with oneTimeTokens := superseded.insert record.id record }, ⟨plaintext, record⟩)

end OneTime

end AuthTables

end Ffdb.Auth
