import Ffdb.Auth.OneTime

/-! Signing in and changing a password take two transactions each: one that the old password is verified against, and
one that writes. What comes between the two decides whether a cutover of the credential holds. -/
namespace Ffdb.Auth
open Fallible

inductive AccountError where
  | invalidCredentials
  | disabled
  | verificationRequired
  | notFound
  deriving DecidableEq

structure AuthConfig where
  action : OpaqueTokenCodec
  refresh : OpaqueTokenCodec
  verify : List Char → List Char → Bool

namespace AuthTables
variable (config : AuthConfig) (tables : AuthTables)

def authenticate (projectId : Uuid) (normalizedEmail password : List Char) (emailVerificationRequired : Bool) :
    Except AccountError AuthUserRecord := do
  let record ← orError (tables.findByEmail projectId normalizedEmail) .invalidCredentials
  require (config.verify password record.passwordHash) .invalidCredentials
  require record.disabledAtMs.isNone .disabled
  require (!emailVerificationRequired || record.emailVerifiedAtMs.isSome) .verificationRequired
  pure record

def verifyCurrentPassword (projectId userId : Uuid) (currentPassword : List Char) : Except AccountError Unit := do
  let record ← orError (tables.findById projectId userId) .invalidCredentials
  require (record.disabledAtMs.isNone && config.verify currentPassword record.passwordHash) .invalidCredentials

def admitsSession (projectId userId : Uuid) (mint : SessionMint) (parts : TokenParts) : Bool :=
  (tables.findById projectId userId).isSome && (tables.refresh.sessions.lookup mint.sessionId).isNone &&
    (tables.refresh.families.lookup mint.familyId).isNone && (tables.refresh.tokens.lookup mint.tokenId).isNone &&
    (tables.refresh.tokenByPrefix.lookup parts.tokenPrefix).isNone

def issueSessionWithTtl (projectId userId : Uuid) (nowMs : Int64) (ttlSeconds : Nat) (mint : SessionMint) :
    Except RefreshStoreError (AuthTables × RefreshIssue) := do
  require (3600 ≤ ttlSeconds && ttlSeconds ≤ 7776000) .invalid
  require (nowMs.toInt + ttlSeconds * 1000 < 2^63) .invalid
  let expiresAtMs := Int64.ofInt (nowMs.toInt + ttlSeconds * 1000)
  let (plaintext, parts) ← orError (config.refresh.issue mint.entropy) .unavailable
  let session : SessionRecord := { id := mint.sessionId, projectId, userId, expiresAtMs }
  let family : RefreshFamily := { id := mint.familyId, projectId, userId, sessionId := session.id }
  let token : RefreshTokenRecord := { id := mint.tokenId, familyId := family.id, parts, issuedAtMs := nowMs, expiresAtMs }
  require (tables.admitsSession projectId userId mint parts) .unavailable
  pure ({ tables with refresh := tables.refresh.enrol session family token }, ⟨plaintext, session, family, token⟩)

def presentRefresh (presented : List Char) : Option Presented := do
  let candidate ← config.refresh.parseAndDigest presented
  let tokenId ← tables.refresh.tokenByPrefix.lookup candidate.tokenPrefix
  let current ← tables.refresh.tokens.lookup tokenId
  let family ← tables.refresh.families.lookup current.familyId
  let session ← tables.refresh.sessions.lookup family.sessionId
  guard (candidate.digest = current.parts.digest)
  pure ⟨tokenId, current, family, session⟩

def rotate (presented : List Char) (nowMs : Int64) (mint : TokenMint) :
    Except RefreshStoreError (AuthTables × RefreshRotation) :=
  match tables.presentRefresh config presented with
  | none => pure (tables, .rejected)
  | some found =>
    if !found.live nowMs then pure (tables, .rejected)
    else if found.current.usedAtMs.isSome then
      pure ({ tables with refresh := tables.refresh.revokeFamily found.family.id nowMs "refresh_reuse".toList },
        .reuseDetected found.family.id found.family.sessionId)
    else do
      let (plaintext, parts) ← orError (config.refresh.issue mint.entropy) .unavailable
      let next : RefreshTokenRecord :=
        { id := mint.tokenId, familyId := found.family.id, parts, issuedAtMs := nowMs,
          expiresAtMs := found.current.expiresAtMs }
      require ((tables.refresh.tokens.lookup mint.tokenId).isNone &&
        (tables.refresh.tokenByPrefix.lookup parts.tokenPrefix).isNone) .unavailable
      pure ({ tables with refresh := tables.refresh.replace found nowMs next }, .rotated plaintext next found.family)

end AuthTables

structure Owner where
  projectId : Uuid
  userId : Uuid
  deriving DecidableEq

structure PasswordChange where
  owner : Owner
  passwordHash : List Char
  deriving DecidableEq

/-- The tables, with the sign-ins and the changes of passwords that have verified a password and are yet to write. -/
structure CredentialState where
  tables : AuthTables
  signIns : Table Nat Owner := ∅
  changes : Table Nat PasswordChange := ∅

inductive CredentialCall where
  | authenticate (caller : Nat) (projectId : Uuid) (normalizedEmail password : List Char) (emailVerificationRequired : Bool)
  | issueSession (caller : Nat) (nowMs : Int64) (ttlSeconds : Nat) (mint : SessionMint)
  | rotate (presented : List Char) (nowMs : Int64) (mint : TokenMint)
  | verifyCurrentPassword (caller : Nat) (owner : Owner) (currentPassword newHash : List Char)
  | setPassword (caller : Nat) (nowMs : Int64)
  | issueOneTime (owner : Owner) (purpose : OneTimePurpose) (nowMs : Int64) (mint : TokenMint)
  | resetPassword (projectId : Uuid) (plaintext passwordHash : List Char) (nowMs : Int64)
  | disable (owner : Owner) (nowMs : Int64)

inductive CredentialAnswer where
  | authenticated (result : Except AccountError Owner)
  | issued (result : Except RefreshStoreError RefreshIssue)
  | rotated (result : Except RefreshStoreError RefreshRotation)
  | verified (result : Except AccountError Unit)
  | changed (result : Except AccountError Owner)
  | token (result : Except OneTimeStoreError OneTimeToken)
  | reset (result : Except OneTimeStoreError Uuid)
  | disabled (result : Bool)
  | idle

section Steps
variable (config : AuthConfig)

def credentialCall (state : CredentialState) : CredentialCall → CredentialState × CredentialAnswer
  | .authenticate caller projectId normalizedEmail password emailVerificationRequired =>
    match state.tables.authenticate config projectId normalizedEmail password emailVerificationRequired with
    | .error error => (state, .authenticated (.error error))
    | .ok record =>
      ({ state with signIns := state.signIns.insert caller ⟨record.projectId, record.id⟩ },
        .authenticated (.ok ⟨record.projectId, record.id⟩))
  | .issueSession caller nowMs ttlSeconds mint =>
    match state.signIns.lookup caller with
    | none => (state, .idle)
    | some owner =>
      let result := transact state.tables
        (state.tables.issueSessionWithTtl config owner.projectId owner.userId nowMs ttlSeconds mint)
      ({ state with tables := result.1, signIns := state.signIns.erase caller }, .issued result.2)
  | .rotate presented nowMs mint =>
    let result := transact state.tables (state.tables.rotate config presented nowMs mint)
    ({ state with tables := result.1 }, .rotated result.2)
  | .verifyCurrentPassword caller owner currentPassword newHash =>
    match state.tables.verifyCurrentPassword config owner.projectId owner.userId currentPassword with
    | .error error => (state, .verified (.error error))
    | .ok _ => ({ state with changes := state.changes.insert caller ⟨owner, newHash⟩ }, .verified (.ok ()))
  | .setPassword caller nowMs =>
    match state.changes.lookup caller with
    | none => (state, .idle)
    | some change =>
      let result := state.tables.setPassword change.owner.projectId change.owner.userId change.passwordHash nowMs
      ({ state with tables := result.1, changes := state.changes.erase caller },
        .changed (if result.2 then .ok change.owner else .error .invalidCredentials))
  | .issueOneTime owner purpose nowMs mint =>
    let result := transact state.tables
      (state.tables.issue config.action owner.projectId owner.userId purpose nowMs mint)
    ({ state with tables := result.1 }, .token result.2)
  | .resetPassword projectId plaintext passwordHash nowMs =>
    let result := transact state.tables
      (state.tables.resetPasswordForProject config.action projectId plaintext passwordHash nowMs)
    ({ state with tables := result.1 }, .reset result.2)
  | .disable owner nowMs =>
    let result := state.tables.disable owner.projectId owner.userId nowMs
    ({ state with tables := result.1 }, .disabled result.2)

def credentialStep (state : CredentialState) (call : CredentialCall) : CredentialState := (credentialCall config state call).1

def cutover (state : CredentialState) (call : CredentialCall) : Option Owner :=
  match call, (credentialCall config state call).2 with
  | .setPassword .., .changed (.ok owner) => some owner
  | .resetPassword projectId .., .reset (.ok userId) => some ⟨projectId, userId⟩
  | .disable owner _, .disabled true => some owner
  | _, _ => none

theorem cutover_disable (state : CredentialState) (owner : Owner) (nowMs : Int64) :
    cutover config state (.disable owner nowMs) =
      if (state.tables.disable owner.projectId owner.userId nowMs).2 then some owner else none := by
  simp only [cutover, credentialCall]
  cases (state.tables.disable owner.projectId owner.userId nowMs).2 <;> rfl

end Steps

/-- A sign-in or a change of a password as it is seen from outside: whose it is, and whether a cutover of that
credential has committed since the password was verified. -/
structure Sighting where
  owner : Owner
  old : Bool
  deriving DecidableEq

def Sighting.cut (owner : Owner) (sighting : Sighting) : Sighting :=
  { sighting with old := sighting.old || sighting.owner = owner }

structure Observed where
  signIns : Table Nat Sighting := ∅
  changes : Table Nat Sighting := ∅
  sessions : Table Uuid Sighting := ∅

def Observed.cut (seen : Observed) (owner : Owner) : Observed where
  signIns := seen.signIns.mapValues fun _ sighting => sighting.cut owner
  changes := seen.changes.mapValues fun _ sighting => sighting.cut owner
  sessions := seen.sessions.mapValues fun _ sighting => sighting.cut owner

section Observation
variable (config : AuthConfig)

def Observed.afterCutover (seen : Observed) (state : CredentialState) (call : CredentialCall) : Observed :=
  match cutover config state call with
  | some owner => seen.cut owner
  | none => seen

def observe (state : CredentialState) (call : CredentialCall) (seen : Observed) : Observed :=
  match call, (credentialCall config state call).2 with
  | .authenticate caller .., .authenticated (.ok owner) =>
    { seen with signIns := seen.signIns.insert caller ⟨owner, false⟩ }
  | .verifyCurrentPassword caller owner .., .verified (.ok _) =>
    { seen with changes := seen.changes.insert caller ⟨owner, false⟩ }
  | .issueSession caller _ _ _, .issued (.ok issue) =>
    match seen.signIns.lookup caller with
    | some sighting => { seen with sessions := seen.sessions.insert issue.session.id sighting }
    | none => seen
  | call, _ => seen.afterCutover config state call

theorem observe_disable (state : CredentialState) (seen : Observed) (owner : Owner) (nowMs : Int64) :
    observe config state (.disable owner nowMs) seen =
      if (state.tables.disable owner.projectId owner.userId nowMs).2 then seen.cut owner else seen := by
  simp only [observe, Observed.afterCutover, cutover_disable]
  cases (state.tables.disable owner.projectId owner.userId nowMs).2 <;> rfl

def watch (watched : CredentialState × Observed) (call : CredentialCall) : CredentialState × Observed :=
  (credentialStep config watched.1 call, observe config watched.1 call watched.2)

def watched (tables : AuthTables) (calls : List CredentialCall) : CredentialState × Observed :=
  Machine.run (watch config) ({ tables }, {}) calls

end Observation

def AuthTables.Rotatable (tables : AuthTables) (s : Uuid) : Prop :=
  ∃ (found : Presented) (nowMs : Int64), tables.refresh.tokens.lookup found.tokenId = some found.current ∧
    tables.refresh.families.lookup found.current.familyId = some found.family ∧
    tables.refresh.sessions.lookup found.family.sessionId = some found.session ∧ found.family.sessionId = s ∧
    found.live nowMs = true ∧ found.current.usedAtMs = none

/-- Once a credential is cut over, no session of a sign-in that verified it before can be rotated, and no change of the
password that verified it before takes effect. -/
structure CutoverHolds (config : AuthConfig) (tables : AuthTables) (calls : List CredentialCall) : Prop where
  sessions : ∀ before after, calls = before ++ after → ∀ s sighting,
    (watched config tables before).2.sessions.lookup s = some sighting → sighting.old = true →
    ¬(watched config tables before).1.tables.Rotatable s
  changes : ∀ before caller nowMs after, calls = before ++ .setPassword caller nowMs :: after → ∀ owner sighting,
    (credentialCall config (watched config tables before).1 (.setPassword caller nowMs)).2 = .changed (.ok owner) →
    (watched config tables before).2.changes.lookup caller = some sighting → sighting.old = false

def AuthTables.canIssue (config : AuthConfig) (tables : AuthTables) (owner : Owner) (nowMs : Int64) (ttlSeconds : Nat)
    (mint : SessionMint) : Prop :=
  (3600 ≤ ttlSeconds ∧ ttlSeconds ≤ 7776000) ∧ nowMs.toInt + ttlSeconds * 1000 < 2^63 ∧
    ∃ entropy, mint.entropy = some entropy ∧
      tables.admitsSession owner.projectId owner.userId mint (config.refresh.parts entropy) = true

/-- A write that depends on a password that was verified: no cutover has committed since, or it cannot go through. -/
def WritesInTime (config : AuthConfig) (watched : CredentialState × Observed) : CredentialCall → Prop
  | .issueSession caller nowMs ttlSeconds mint => ∀ owner sighting, watched.1.signIns.lookup caller = some owner →
    watched.2.signIns.lookup caller = some sighting → sighting.old = true →
    ¬watched.1.tables.canIssue config owner nowMs ttlSeconds mint
  | .setPassword caller _ => ∀ change sighting, watched.1.changes.lookup caller = some change →
    watched.2.changes.lookup caller = some sighting → sighting.old = true →
    ∀ user, watched.1.tables.findById change.owner.projectId change.owner.userId = some user → user.disabledAtMs.isSome = true
  | _ => True

section Writes
variable {config : AuthConfig} {tables tables' : AuthTables} {projectId userId : Uuid} {nowMs : Int64}

theorem issueSession_ok_iff {ttlSeconds : Nat} {mint : SessionMint} :
    (∃ result, tables.issueSessionWithTtl config projectId userId nowMs ttlSeconds mint = .ok result) ↔
      tables.canIssue config ⟨projectId, userId⟩ nowMs ttlSeconds mint := by
  simp only [AuthTables.issueSessionWithTtl, AuthTables.canIssue, OpaqueTokenCodec.issue, bind_ok_iff, require_ok_iff,
    orError_ok_iff, Bool.and_eq_true, decide_eq_true_eq, pure_ok_iff, Option.map_eq_some_iff]
  constructor
  · rintro ⟨result, _, httl, _, hfits, ⟨text, parts⟩, ⟨entropy, hentropy, hparts⟩, _, hadmits, -⟩
    obtain ⟨-, rfl⟩ := Prod.mk.inj hparts
    exact ⟨httl, hfits, entropy, hentropy, hadmits⟩
  · rintro ⟨httl, hfits, entropy, hentropy, hadmits⟩
    exact ⟨_, (), httl, (), hfits, _, ⟨entropy, hentropy, rfl⟩, (), hadmits, rfl⟩

structure Issued (tables tables' : AuthTables) (projectId userId : Uuid) (nowMs : Int64) (issue : RefreshIssue) : Prop where
  tables_eq : tables' = { tables with refresh := tables.refresh.enrol issue.session issue.family issue.token }
  owned : issue.session.projectId = projectId ∧ issue.session.userId = userId
  linked : issue.family.sessionId = issue.session.id ∧ issue.token.familyId = issue.family.id
  unrevoked : issue.session.revokedAtMs = none ∧ issue.family.revokedAtMs = none ∧ issue.token.usedAtMs = none
  unexpired : nowMs < issue.session.expiresAtMs ∧ nowMs < issue.token.expiresAtMs
  fresh : tables.refresh.sessions.lookup issue.session.id = none

theorem issueSession_ok {ttlSeconds : Nat} {mint : SessionMint} {issue : RefreshIssue}
    (h : tables.issueSessionWithTtl config projectId userId nowMs ttlSeconds mint = .ok (tables', issue)) :
    Issued tables tables' projectId userId nowMs issue := by
  simp only [AuthTables.issueSessionWithTtl, AuthTables.admitsSession, bind_ok_iff, require_ok_iff, orError_ok_iff,
    Bool.and_eq_true, decide_eq_true_eq, Option.isNone_iff_eq_none, pure_ok_iff, Prod.mk.injEq] at h
  obtain ⟨_, ⟨httl, -⟩, _, hfits, ⟨text, parts⟩, -, _, ⟨⟨⟨⟨-, hfresh⟩, -⟩, -⟩, -⟩, rfl, rfl⟩ := h
  have hlater : nowMs < Int64.ofInt (nowMs.toInt + ttlSeconds * 1000) := by
    have hlow := Int64.le_toInt nowMs
    rw [Int64.lt_iff_toInt_lt, Int64.toInt_ofInt_of_le (by omega) (by omega)]
    omega
  exact ⟨rfl, ⟨rfl, rfl⟩, ⟨rfl, rfl⟩, ⟨rfl, rfl, rfl⟩, ⟨hlater, hlater⟩, hfresh⟩

/-- A session can be rotated right after it was issued. -/
theorem Issued.rotatable {issue : RefreshIssue} (h : Issued tables tables' projectId userId nowMs issue) :
    tables'.Rotatable issue.session.id := by
  refine ⟨⟨issue.token.id, issue.token, issue.family, issue.session⟩, nowMs, ?_, ?_, ?_, h.linked.1, ?_, h.unrevoked.2.2⟩
  · rw [h.tables_eq]
    exact AList.lookup_insert _
  · rw [h.tables_eq, h.linked.2]
    exact AList.lookup_insert _
  · rw [h.tables_eq, h.linked.1]
    exact AList.lookup_insert _
  · simp [Presented.live, h.unrevoked, Int64.not_le, h.unexpired]

def AuthTables.KeepsSessions (tables tables' : AuthTables) : Prop :=
  ∀ s session, tables.refresh.sessions.lookup s = some session → ∃ session',
    tables'.refresh.sessions.lookup s = some session' ∧ session'.projectId = session.projectId ∧
      session'.userId = session.userId ∧ (session.revokedAtMs.isSome = true → session'.revokedAtMs.isSome = true)

def AuthTables.RevokedFor (tables : AuthTables) (owner : Owner) : Prop :=
  ∀ s session, tables.refresh.sessions.lookup s = some session → session.projectId = owner.projectId →
    session.userId = owner.userId → session.revokedAtMs.isSome = true

theorem keepsSessions_of_eq (h : tables'.refresh.sessions = tables.refresh.sessions) : tables.KeepsSessions tables' :=
  fun _ session hlookup => ⟨session, h ▸ hlookup, rfl, rfl, id⟩

theorem keepsSessions_revokeUserSessions (reason : List Char) :
    tables.KeepsSessions (tables.revokeUserSessions projectId userId nowMs reason) := by
  intro s session hlookup
  simp only [AuthTables.revokeUserSessions, AList.lookup_mapValues, hlookup, Option.map_some]
  refine ⟨_, rfl, ?_⟩
  split
  · exact ⟨rfl, rfl, fun _ => rfl⟩
  · exact ⟨rfl, rfl, id⟩

theorem revokedFor_revokeUserSessions (reason : List Char) :
    (tables.revokeUserSessions projectId userId nowMs reason).RevokedFor ⟨projectId, userId⟩ := by
  intro s session hlookup hproject huser
  simp only [AuthTables.revokeUserSessions, AList.lookup_mapValues] at hlookup
  obtain ⟨old, -, rfl⟩ := Option.map_eq_some_iff.mp hlookup
  split
  · rfl
  · rename_i hother
    rw [if_neg hother] at hproject huser
    exact absurd (by simp [hproject, huser]) hother

theorem keepsSessions_revokeFamily (familyId : Uuid) (reason : List Char) : tables.KeepsSessions
    { tables with refresh := tables.refresh.revokeFamily familyId nowMs reason } := by
  intro s session hlookup
  cases hfamily : tables.refresh.families.lookup familyId with
  | none =>
    rw [RefreshState.revokeFamily_of_none hfamily]
    exact ⟨session, hlookup, rfl, rfl, id⟩
  | some family =>
    dsimp only
    rw [RefreshState.sessions_revokeFamily hfamily, hlookup]
    split
    · exact ⟨_, rfl, rfl, rfl, fun _ => rfl⟩
    · exact ⟨session, rfl, rfl, rfl, id⟩

theorem Issued.keepsSessions {issue : RefreshIssue} (h : Issued tables tables' projectId userId nowMs issue) :
    tables.KeepsSessions tables' := by
  intro s session hlookup
  have hne : s ≠ issue.session.id := by
    rintro rfl
    rw [h.fresh] at hlookup
    cases hlookup
  refine ⟨session, ?_, rfl, rfl, id⟩
  rw [h.tables_eq]
  exact (AList.lookup_insert_ne hne).trans hlookup

theorem rotate_keepsSessions {presented : List Char} {mint : TokenMint} {answer : RefreshRotation}
    (h : tables.rotate config presented nowMs mint = .ok (tables', answer)) : tables.KeepsSessions tables' := by
  unfold AuthTables.rotate at h
  cases hpresent : tables.presentRefresh config presented with
  | none =>
    rw [hpresent] at h
    cases h
    exact keepsSessions_of_eq rfl
  | some found =>
    rw [hpresent] at h
    dsimp only at h
    split at h
    · cases h
      exact keepsSessions_of_eq rfl
    · split at h
      · cases h
        exact keepsSessions_revokeFamily _ _
      · simp only [bind_ok_iff, pure_ok_iff, Prod.mk.injEq] at h
        obtain ⟨_, -, _, -, rfl, -⟩ := h
        exact keepsSessions_of_eq rfl

theorem not_rotatable_of_revoked {s : Uuid} {session : SessionRecord}
    (hlookup : tables.refresh.sessions.lookup s = some session) (hrevoked : session.revokedAtMs.isSome = true) :
    ¬tables.Rotatable s := by
  rintro ⟨found, now, -, -, hsession, rfl, hlive, -⟩
  obtain rfl := Option.some.inj (hlookup.symm.trans hsession)
  simp [Presented.live, hrevoked] at hlive

theorem rotatable_of_rotated {presented plaintext : List Char} {mint : TokenMint} {next : RefreshTokenRecord}
    {family : RefreshFamily} (h : tables.rotate config presented nowMs mint = .ok (tables', .rotated plaintext next family)) :
    tables.Rotatable family.sessionId := by
  unfold AuthTables.rotate at h
  cases hpresent : tables.presentRefresh config presented with
  | none =>
    rw [hpresent] at h
    cases h
  | some found =>
    rw [hpresent] at h
    dsimp only at h
    split at h
    · cases h
    · rename_i hlive
      split at h
      · cases h
      · rename_i hunused
        simp only [bind_ok_iff, pure_ok_iff, Prod.mk.injEq, RefreshRotation.rotated.injEq] at h
        obtain ⟨_, -, _, -, -, -, -, rfl⟩ := h
        simp only [AuthTables.presentRefresh, Option.bind_eq_bind, Option.bind_eq_some_iff, Option.pure_def,
          Option.some.injEq] at hpresent
        obtain ⟨_, -, _, -, current, hcurrent, family, hfamily, session, hsession, _, -, rfl⟩ := hpresent
        exact ⟨_, nowMs, hcurrent, hfamily, hsession, rfl, by simpa using hlive, by simpa using hunused⟩

theorem setPassword_spec (tables : AuthTables) (hash : List Char) :
    (tables.setPassword projectId userId hash nowMs = (tables, false)) ∨
    ∃ updated, tables.updateEnabled projectId userId
        (fun user => { user with passwordHash := hash, passwordChangedAtMs := nowMs }) = some updated ∧
      tables.setPassword projectId userId hash nowMs =
        (updated.revokeUserSessions projectId userId nowMs "password_changed".toList, true) := by
  unfold AuthTables.setPassword
  cases hupdate : tables.updateEnabled projectId userId
    fun user => { user with passwordHash := hash, passwordChangedAtMs := nowMs } with
  | none => exact .inl rfl
  | some updated => exact .inr ⟨updated, rfl, rfl⟩

theorem disable_spec (tables : AuthTables) : (tables.disable projectId userId nowMs = (tables, false)) ∨
    ∃ users, tables.disable projectId userId nowMs =
      ({ tables with users }.revokeUserSessions projectId userId nowMs "account_disabled".toList, true) := by
  unfold AuthTables.disable
  cases tables.findById projectId userId with
  | none => exact .inl rfl
  | some user => exact .inr ⟨_, rfl⟩

theorem resetPassword_ok {codec : OpaqueTokenCodec} {plaintext hash : List Char} {user : Uuid}
    (h : tables.resetPasswordForProject codec projectId plaintext hash nowMs = .ok (tables', user)) :
    ∃ users, tables'.refresh =
      ({ tables with users }.revokeUserSessions projectId user nowMs "password_reset".toList).refresh := by
  simp only [AuthTables.resetPasswordForProject, bind_ok_iff, orError_ok_iff, pure_ok_iff, Prod.mk.injEq] at h
  obtain ⟨record, -, updated, hupdate, _, hconsume, rfl, rfl⟩ := h
  obtain ⟨_, -, -, -, rfl⟩ := updateEnabled_eq_some hupdate
  obtain ⟨_, -, rfl⟩ := consumeOneTimeToken_ok hconsume
  exact ⟨_, rfl⟩

theorem keepsSessions_of_refresh (tables : AuthTables) {users : Table Uuid AuthUserRecord} {user : Uuid} {reason : List Char}
    (h : tables'.refresh = ({ tables with users }.revokeUserSessions projectId user nowMs reason).refresh) :
    tables.KeepsSessions tables' ∧ tables'.RevokedFor ⟨projectId, user⟩ := by
  have hkeeps : AuthTables.KeepsSessions { tables with users }
      ({ tables with users }.revokeUserSessions projectId user nowMs reason) := keepsSessions_revokeUserSessions reason
  unfold AuthTables.KeepsSessions AuthTables.RevokedFor at *
  rw [h]
  exact ⟨hkeeps, revokedFor_revokeUserSessions reason⟩

end Writes

structure Agrees (watched : CredentialState × Observed) : Prop where
  signIns : ∀ caller owner, watched.1.signIns.lookup caller = some owner →
    ∃ sighting, watched.2.signIns.lookup caller = some sighting ∧ sighting.owner = owner
  sessions : ∀ s sighting, watched.2.sessions.lookup s = some sighting → ∃ session,
    watched.1.tables.refresh.sessions.lookup s = some session ∧ session.projectId = sighting.owner.projectId ∧
      session.userId = sighting.owner.userId ∧ (sighting.old = true → session.revokedAtMs.isSome = true)

section Runs
variable {config : AuthConfig} {state state' : CredentialState} {seen : Observed}

theorem Agrees.keep (h : Agrees (state, seen)) (hkeeps : state.tables.KeepsSessions state'.tables)
    (hsignIns : ∀ caller owner, state'.signIns.lookup caller = some owner → state.signIns.lookup caller = some owner) :
    Agrees (state', seen) where
  signIns := fun caller owner hlookup => h.signIns caller owner (hsignIns caller owner hlookup)
  sessions := by
    intro s sighting hlookup
    obtain ⟨session, hsession, hproject, huser, hold⟩ := h.sessions s sighting hlookup
    obtain ⟨session', hsession', hproject', huser', hkept⟩ := hkeeps s session hsession
    exact ⟨session', hsession', hproject'.trans hproject, huser'.trans huser, fun hsighted => hkept (hold hsighted)⟩

/-- A cutover revokes the sessions of its user. -/
theorem Agrees.cut (h : Agrees (state, seen)) {owner : Owner} (hkeeps : state.tables.KeepsSessions state'.tables)
    (hrevoked : state'.tables.RevokedFor owner) (hsignIns : state'.signIns = state.signIns) :
    Agrees (state', seen.cut owner) where
  signIns := by
    intro caller owner' hlookup
    obtain ⟨sighting, hsighting, howner⟩ := h.signIns caller owner' (hsignIns ▸ hlookup)
    refine ⟨sighting.cut owner, ?_, howner⟩
    simp only [Observed.cut, AList.lookup_mapValues, hsighting, Option.map_some]
  sessions := by
    intro s sighting hlookup
    simp only [Observed.cut, AList.lookup_mapValues] at hlookup
    obtain ⟨old, hold, rfl⟩ := Option.map_eq_some_iff.mp hlookup
    obtain ⟨session, hsession, hproject, huser, hrevokedIf⟩ := h.sessions s old hold
    obtain ⟨session', hsession', hproject', huser', hkept⟩ := hkeeps s session hsession
    refine ⟨session', hsession', hproject'.trans hproject, huser'.trans huser, ?_⟩
    intro hcut
    simp only [Sighting.cut, Bool.or_eq_true, decide_eq_true_eq] at hcut
    obtain hwasOld | rfl := hcut
    · exact hkept (hrevokedIf hwasOld)
    · exact hrevoked s session' hsession' (hproject'.trans hproject) (huser'.trans huser)

theorem Agrees.issue (h : Agrees (state, seen)) {caller : Nat} {owner : Owner} {nowMs : Int64} {issue : RefreshIssue}
    (howner : state.signIns.lookup caller = some owner)
    (hissued : Issued state.tables state'.tables owner.projectId owner.userId nowMs issue) {sighting : Sighting}
    (hsighting : seen.signIns.lookup caller = some sighting) (hnew : sighting.old = false)
    (hsignIns : state'.signIns = state.signIns.erase caller) :
    Agrees (state', { seen with sessions := seen.sessions.insert issue.session.id sighting }) where
  signIns := by
    intro caller' owner' hlookup
    rw [hsignIns] at hlookup
    exact h.signIns caller' owner' (AList.lookup_erase_eq_some_iff.mp hlookup).2
  sessions := by
    intro s sighting' hlookup
    obtain ⟨rfl, rfl⟩ | ⟨-, hlookup⟩ := AList.lookup_insert_eq_some_iff.mp hlookup
    · obtain ⟨sighting'', hsighting'', hsame⟩ := h.signIns caller owner howner
      obtain rfl := Option.some.inj (hsighting.symm.trans hsighting'')
      refine ⟨issue.session, ?_, ?_, ?_, ?_⟩
      · rw [hissued.tables_eq]
        exact AList.lookup_insert _
      · rw [hissued.owned.1, hsame]
      · rw [hissued.owned.2, hsame]
      · rw [hnew]
        exact fun hfalse => nomatch hfalse
    · obtain ⟨session, hsession, hproject, huser, hold⟩ := h.sessions s sighting' hlookup
      obtain ⟨session', hsession', hproject', huser', hkept⟩ := hissued.keepsSessions s session hsession
      exact ⟨session', hsession', hproject'.trans hproject, huser'.trans huser, fun hsighted => hkept (hold hsighted)⟩

theorem Agrees.authenticate (h : Agrees (state, seen)) (caller : Nat) (projectId : Uuid)
    (normalizedEmail password : List Char) (emailVerificationRequired : Bool) :
    Agrees (watch config (state, seen)
      (.authenticate caller projectId normalizedEmail password emailVerificationRequired)) := by
  simp only [watch, credentialStep, observe, Observed.afterCutover, cutover, credentialCall]
  cases state.tables.authenticate config projectId normalizedEmail password emailVerificationRequired with
  | error error => exact h
  | ok record =>
    refine ⟨?_, h.sessions⟩
    intro caller' owner hlookup
    obtain ⟨rfl, rfl⟩ | ⟨hne, hlookup⟩ := AList.lookup_insert_eq_some_iff.mp hlookup
    · exact ⟨_, AList.lookup_insert _, rfl⟩
    · obtain ⟨sighting, hsighting, howner⟩ := h.signIns caller' owner hlookup
      exact ⟨sighting, (AList.lookup_insert_ne hne).trans hsighting, howner⟩

theorem Agrees.issueSession (h : Agrees (state, seen)) {caller : Nat} {nowMs : Int64} {ttlSeconds : Nat}
    {mint : SessionMint} (hwrites : WritesInTime config (state, seen) (.issueSession caller nowMs ttlSeconds mint)) :
    Agrees (watch config (state, seen) (.issueSession caller nowMs ttlSeconds mint)) := by
  simp only [watch, credentialStep, observe, Observed.afterCutover, cutover, credentialCall]
  cases howner : state.signIns.lookup caller with
  | none => exact h
  | some owner =>
    dsimp only
    cases hissue : state.tables.issueSessionWithTtl config owner.projectId owner.userId nowMs ttlSeconds mint with
    | error error =>
      exact h.keep (keepsSessions_of_eq rfl) fun _ _ hlookup => (AList.lookup_erase_eq_some_iff.mp hlookup).2
    | ok result =>
      obtain ⟨tables, issue⟩ := result
      obtain ⟨sighting, hsighting, -⟩ := h.signIns caller owner howner
      dsimp only [transact]
      rw [hsighting]
      have hnew : sighting.old = false := by
        cases hold : sighting.old with
        | false => rfl
        | true => exact absurd (issueSession_ok_iff.mp ⟨_, hissue⟩) (hwrites owner sighting howner hsighting hold)
      exact h.issue howner (issueSession_ok hissue) hsighting hnew rfl

theorem Agrees.setPassword (h : Agrees (state, seen)) (caller : Nat) (nowMs : Int64) :
    Agrees (watch config (state, seen) (.setPassword caller nowMs)) := by
  simp only [watch, credentialStep, observe, Observed.afterCutover, cutover, credentialCall]
  cases hchange : state.changes.lookup caller with
  | none => exact h
  | some change =>
    dsimp only
    obtain hrefused | ⟨updated, hupdate, hset⟩ := setPassword_spec state.tables change.passwordHash
    · rw [hrefused]
      exact h.keep (keepsSessions_of_eq rfl) fun _ _ hlookup => hlookup
    · obtain ⟨user, -, -, -, rfl⟩ := updateEnabled_eq_some hupdate
      rw [hset]
      obtain ⟨hkeeps, hrevoked⟩ := keepsSessions_of_refresh state.tables rfl
      exact h.cut hkeeps hrevoked rfl

theorem Agrees.resetPassword (h : Agrees (state, seen)) (projectId : Uuid) (plaintext passwordHash : List Char)
    (nowMs : Int64) : Agrees (watch config (state, seen) (.resetPassword projectId plaintext passwordHash nowMs)) := by
  simp only [watch, credentialStep, observe, Observed.afterCutover, cutover, credentialCall]
  cases hreset : state.tables.resetPasswordForProject config.action projectId plaintext passwordHash nowMs with
  | error error => exact h.keep (keepsSessions_of_eq rfl) fun _ _ hlookup => hlookup
  | ok result =>
    obtain ⟨users, hrefresh⟩ := resetPassword_ok hreset
    obtain ⟨hkeeps, hrevoked⟩ := keepsSessions_of_refresh state.tables hrefresh
    exact h.cut hkeeps hrevoked rfl

theorem Agrees.disable (h : Agrees (state, seen)) (owner : Owner) (nowMs : Int64) :
    Agrees (watch config (state, seen) (.disable owner nowMs)) := by
  simp only [watch, credentialStep, observe_disable, credentialCall]
  obtain hrefused | ⟨users, hdisable⟩ := disable_spec state.tables
  · rw [hrefused]
    exact h.keep (keepsSessions_of_eq rfl) fun _ _ hlookup => hlookup
  · rw [hdisable]
    obtain ⟨hkeeps, hrevoked⟩ := keepsSessions_of_refresh state.tables rfl
    exact h.cut hkeeps hrevoked rfl

/-- One call, if its write is in time. -/
theorem Agrees.step (h : Agrees (state, seen)) {call : CredentialCall} (hwrites : WritesInTime config (state, seen) call) :
    Agrees (watch config (state, seen) call) := by
  cases call with
  | authenticate caller projectId normalizedEmail password emailVerificationRequired =>
    exact h.authenticate caller projectId normalizedEmail password emailVerificationRequired
  | issueSession caller nowMs ttlSeconds mint => exact h.issueSession hwrites
  | rotate presented nowMs mint =>
    simp only [watch, credentialStep, observe, Observed.afterCutover, cutover, credentialCall]
    cases hrotate : state.tables.rotate config presented nowMs mint with
    | error error => exact h.keep (keepsSessions_of_eq rfl) fun _ _ hlookup => hlookup
    | ok result => exact h.keep (rotate_keepsSessions hrotate) fun _ _ hlookup => hlookup
  | verifyCurrentPassword caller owner currentPassword newHash =>
    simp only [watch, credentialStep, observe, Observed.afterCutover, cutover, credentialCall]
    cases state.tables.verifyCurrentPassword config owner.projectId owner.userId currentPassword with
    | error error => exact h
    | ok _ => exact ⟨h.signIns, h.sessions⟩
  | setPassword caller nowMs => exact h.setPassword caller nowMs
  | issueOneTime owner purpose nowMs mint =>
    simp only [watch, credentialStep, observe, Observed.afterCutover, cutover, credentialCall]
    cases hissue : state.tables.issue config.action owner.projectId owner.userId purpose nowMs mint with
    | error error => exact h.keep (keepsSessions_of_eq rfl) fun _ _ hlookup => hlookup
    | ok result =>
      simp only [AuthTables.issue, bind_ok_iff, pure_ok_iff] at hissue
      obtain ⟨_, -, _, -, _, -, _, -, rfl⟩ := hissue
      exact h.keep (keepsSessions_of_eq rfl) fun _ _ hlookup => hlookup
  | resetPassword projectId plaintext passwordHash nowMs => exact h.resetPassword projectId plaintext passwordHash nowMs
  | disable owner nowMs => exact h.disable owner nowMs

theorem watched_concat (config : AuthConfig) (tables : AuthTables) (calls : List CredentialCall) (call : CredentialCall) :
    watched config tables (calls ++ [call]) = watch config (watched config tables calls) call := by
  unfold watched
  rw [Machine.run_append]
  rfl

variable {tables : AuthTables} {calls : List CredentialCall}

theorem agrees_watched (h : ∀ before call after, calls = before ++ call :: after →
    WritesInTime config (watched config tables before) call) : Agrees (watched config tables calls) := by
  induction calls using List.reverseRecOn with
  | nil =>
    refine ⟨?_, ?_⟩
    · intro caller owner hlookup
      cases hlookup
    · intro s sighting hlookup
      cases hlookup
  | append_singleton calls call ih =>
    rw [watched_concat]
    refine (ih ?_).step (h calls call [] rfl)
    intro before call' after hsplit
    exact h before call' (after ++ [call]) (by rw [hsplit]; simp)

/-- A change of a password takes effect only on an account that is not disabled. -/
theorem setPassword_changed_iff {caller : Nat} {nowMs : Int64} {change : PasswordChange}
    (hchange : state.changes.lookup caller = some change) :
    (∃ owner, (credentialCall config state (.setPassword caller nowMs)).2 = .changed (.ok owner)) ↔
      ∃ user, state.tables.findById change.owner.projectId change.owner.userId = some user ∧ user.disabledAtMs = none := by
  simp only [credentialCall, hchange, AuthTables.setPassword, AuthTables.updateEnabled]
  cases state.tables.findById change.owner.projectId change.owner.userId with
  | none => simp
  | some user =>
    cases hdisabled : user.disabledAtMs with
    | none => simp [hdisabled]
    | some _ => simp [hdisabled]

theorem watch_issue {at' : CredentialState × Observed} {caller : Nat} {owner : Owner} {nowMs : Int64} {ttlSeconds : Nat}
    {mint : SessionMint} {sighting : Sighting} (howner : at'.1.signIns.lookup caller = some owner)
    (hsighting : at'.2.signIns.lookup caller = some sighting) {tables' : AuthTables} {issue : RefreshIssue}
    (hissue : at'.1.tables.issueSessionWithTtl config owner.projectId owner.userId nowMs ttlSeconds mint =
      .ok (tables', issue)) :
    watch config at' (.issueSession caller nowMs ttlSeconds mint) =
      ({ at'.1 with tables := tables', signIns := at'.1.signIns.erase caller },
        { at'.2 with sessions := at'.2.sessions.insert issue.session.id sighting }) := by
  simp only [watch, credentialStep, observe, credentialCall, howner, hissue, transact, hsighting]

/-- The cutover holds over a run exactly if no write that depends on a password comes after the cutover. -/
theorem cutover_holds_iff (config : AuthConfig) (tables : AuthTables) (calls : List CredentialCall) :
    CutoverHolds config tables calls ↔ ∀ before call after, calls = before ++ call :: after →
      WritesInTime config (watched config tables before) call := by
  constructor
  · intro hholds before call after hsplit
    cases call with
    | issueSession caller nowMs ttlSeconds mint =>
      intro owner sighting howner hsighting hold hcan
      obtain ⟨⟨tables', issue⟩, hissue⟩ := issueSession_ok_iff.mpr hcan
      have hbroken := hholds.sessions (before ++ [.issueSession caller nowMs ttlSeconds mint]) after
        (by rw [hsplit]; simp) issue.session.id sighting
      rw [watched_concat, watch_issue howner hsighting hissue] at hbroken
      exact hbroken (AList.lookup_insert _) hold (issueSession_ok hissue).rotatable
    | setPassword caller nowMs =>
      intro change sighting hchange hsighting hold user huser
      by_contra henabled
      obtain ⟨owner, hchanged⟩ := (setPassword_changed_iff hchange).mpr ⟨user, huser, by simpa using henabled⟩
      rw [hholds.changes before caller nowMs after hsplit owner sighting hchanged hsighting] at hold
      cases hold
    | authenticate | rotate | verifyCurrentPassword | issueOneTime | resetPassword | disable => trivial
  · intro hwrites
    refine ⟨?_, ?_⟩
    · rintro before after rfl s sighting hsighting hold
      have hagrees : Agrees (watched config tables before) := by
        refine agrees_watched fun before' call after' hsplit => hwrites before' call (after' ++ after) ?_
        rw [hsplit]
        simp
      obtain ⟨session, hsession, -, -, hrevoked⟩ := hagrees.sessions s sighting hsighting
      exact not_rotatable_of_revoked hsession (hrevoked hold)
    · intro before caller nowMs after hsplit owner sighting hchanged hsighting
      cases hold : sighting.old with
      | false => rfl
      | true =>
        cases hchange : (watched config tables before).1.changes.lookup caller with
        | none =>
          simp only [credentialCall, hchange] at hchanged
          cases hchanged
        | some change =>
          obtain ⟨user, huser, henabled⟩ := (setPassword_changed_iff hchange).mp ⟨owner, hchanged⟩
          have hdisabled := hwrites before _ after hsplit change sighting hchange hsighting hold user huser
          rw [henabled] at hdisabled
          cases hdisabled

end Runs

section Sample

private def plainConfig : AuthConfig where
  action := ⟨"action".toList, fun token => token.map fun c => UInt8.ofNat c.toNat⟩
  refresh := ⟨"refresh".toList, fun token => token.map fun c => UInt8.ofNat c.toNat⟩
  verify := fun password hash => password = hash

private def zeroEntropy : Entropy := ⟨Vector.replicate 12 0, Vector.replicate 32 0⟩

private def oneUser : AuthTables where
  users := AList.insert 1 ⟨1, 2, ['a'], ['o', 'l', 'd'], some 0, none, 0⟩ ∅

private def resetWithinSignIn : List CredentialCall :=
  [.authenticate 0 2 ['a'] ['o', 'l', 'd'] true,
    .issueOneTime ⟨2, 1⟩ .passwordReset 1000 ⟨3, some zeroEntropy⟩,
    .resetPassword 2 (plainConfig.action.plaintext zeroEntropy) ['n', 'e', 'w'] 2000,
    .issueSession 0 3000 3600 ⟨10, 11, 12, some zeroEntropy⟩]

private def rotatesSession (tables : AuthTables) (s : Uuid) : Bool :=
  match tables.rotate plainConfig (plainConfig.refresh.plaintext zeroEntropy) 4000
    ⟨13, some ⟨Vector.replicate 12 1, Vector.replicate 32 1⟩⟩ with
  | .ok (_, .rotated _ _ family) => family.sessionId = s
  | _ => false

/-- The session that the old password was verified for is issued after the reset, and can be rotated. -/
theorem session_survives_reset : ¬CutoverHolds plainConfig oneUser resetWithinSignIn := by
  intro hholds
  refine hholds.sessions resetWithinSignIn [] (by simp) 10 ⟨⟨2, 1⟩, true⟩ (by decide +kernel) rfl ?_
  have hrotates : rotatesSession (watched plainConfig oneUser resetWithinSignIn).1.tables 10 = true := by decide +kernel
  unfold rotatesSession at hrotates
  split at hrotates
  · rename_i hrotated
    rw [← of_decide_eq_true hrotates]
    exact rotatable_of_rotated hrotated
  · cases hrotates

end Sample

end Ffdb.Auth
