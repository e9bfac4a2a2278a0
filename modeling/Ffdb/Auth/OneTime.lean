import Ffdb.Auth.Accounts

/-! One-time tokens over whole runs of calls, which may interleave as they like. A token is used at most once, and
what it is for happens when it is used and at no other time. -/
namespace Ffdb.Auth
open Fallible

structure ConsumeRequest where
  plaintext : List Char
  purpose : OneTimePurpose
  nowMs : Int64
  deriving DecidableEq

/-- The tables, and the calls that have checked a token's project and are yet to consume it. -/
structure OneTimeState where
  tables : AuthTables
  checked : Table Nat ConsumeRequest := ∅

inductive OneTimeCall where
  | issue (projectId userId : Uuid) (purpose : OneTimePurpose) (nowMs : Int64) (mint : TokenMint)
  | consume (request : ConsumeRequest)
  | checkForProject (caller : Nat) (projectId : Uuid) (request : ConsumeRequest)
  | consumeForProject (caller : Nat)
  | verifyEmailForProject (projectId : Uuid) (plaintext : List Char) (nowMs : Int64)
  | resetPasswordForProject (projectId : Uuid) (plaintext passwordHash : List Char) (nowMs : Int64)
  | setDisabledForProject (projectId userId : Uuid) (disabled : Bool) (nowMs : Int64)

inductive OneTimeAnswer where
  | issued (result : Except OneTimeStoreError OneTimeToken)
  | checked (result : Except OneTimeStoreError Unit)
  | consumed (result : Except OneTimeStoreError OneTimeTokenRecord)
  | applied (result : Except OneTimeStoreError Uuid)
  | changed (result : Bool)

def OneTimeAnswer.isError : OneTimeAnswer → Bool
  | .issued (.error _) | .checked (.error _) | .consumed (.error _) | .applied (.error _) => true
  | _ => false

def OneTimeAnswer.isConsumption : OneTimeAnswer → Bool
  | .consumed (.ok _) | .applied (.ok _) => true
  | _ => false

section Steps
variable (codec : OpaqueTokenCodec)

/-- A call that consumes for a project takes two transactions, of which the first only reads. -/
def oneTimeCall (state : OneTimeState) : OneTimeCall → OneTimeState × OneTimeAnswer
  | .issue projectId userId purpose nowMs mint =>
    let result := transact state.tables (state.tables.issue codec projectId userId purpose nowMs mint)
    ({ state with tables := result.1 }, .issued result.2)
  | .consume request =>
    let result := transact state.tables (state.tables.consume codec request.plaintext request.purpose request.nowMs)
    ({ state with tables := result.1 }, .consumed result.2)
  | .checkForProject caller projectId request =>
    match state.tables.checkForProject codec projectId request.plaintext with
    | .error error => (state, .checked (.error error))
    | .ok _ => ({ state with checked := state.checked.insert caller request }, .checked (.ok ()))
  | .consumeForProject caller =>
    match state.checked.lookup caller with
    | none => (state, .changed false)
    | some request =>
      let result := transact state.tables (state.tables.consume codec request.plaintext request.purpose request.nowMs)
      (⟨result.1, state.checked.erase caller⟩, .consumed result.2)
  | .verifyEmailForProject projectId plaintext nowMs =>
    let result := transact state.tables (state.tables.verifyEmailForProject codec projectId plaintext nowMs)
    ({ state with tables := result.1 }, .applied result.2)
  | .resetPasswordForProject projectId plaintext passwordHash nowMs =>
    let result := transact state.tables (state.tables.resetPasswordForProject codec projectId plaintext passwordHash nowMs)
    ({ state with tables := result.1 }, .applied result.2)
  | .setDisabledForProject projectId userId disabled nowMs =>
    let result := state.tables.setDisabledForProject projectId userId disabled nowMs
    ({ state with tables := result.1 }, .changed result.2)

def oneTimeStep (state : OneTimeState) (call : OneTimeCall) : OneTimeState := (oneTimeCall codec state call).1

def oneTimeRun (users : Table Uuid AuthUserRecord) (refresh : RefreshState) (calls : List OneTimeCall) : OneTimeState :=
  Machine.run (oneTimeStep codec) { tables := { users, refresh } } calls

def OneTimeCall.request (state : OneTimeState) : OneTimeCall → Option ConsumeRequest
  | .consume request => some request
  | .consumeForProject caller => state.checked.lookup caller
  | .verifyEmailForProject _ plaintext nowMs => some ⟨plaintext, .emailVerification, nowMs⟩
  | .resetPasswordForProject _ plaintext _ nowMs => some ⟨plaintext, .passwordReset, nowMs⟩
  | .issue .. | .checkForProject .. | .setDisabledForProject .. => none

def Consumes (state : OneTimeState) (call : OneTimeCall) (request : ConsumeRequest) (record : OneTimeTokenRecord) : Prop :=
  (oneTimeCall codec state call).2.isConsumption = true ∧ call.request state = some request ∧
    ∃ candidate, codec.parseAndDigest request.plaintext = some candidate ∧
      state.tables.oneTimeByPrefix candidate.tokenPrefix = some record

end Steps

def AuthUserRecord.credentials (user : AuthUserRecord) : Option Int64 × List Char :=
  (user.emailVerifiedAtMs, user.passwordHash)

def AuthTables.credentials (tables : AuthTables) (userId : Uuid) : Option (Option Int64 × List Char) :=
  (tables.users.lookup userId).map (·.credentials)

structure OneTimeTokenRecord.Usable (record : OneTimeTokenRecord) (request : ConsumeRequest) : Prop where
  purpose : record.purpose = request.purpose
  unconsumed : record.consumedAtMs = none
  unexpired : request.nowMs < record.expiresAtMs

section Effects
variable {codec : OpaqueTokenCodec} {tables tables' : AuthTables} {record : OneTimeTokenRecord} {plaintext : List Char}
  {purpose : OneTimePurpose} {nowMs : Int64}

theorem presentOneTime_ok (h : tables.presentOneTime codec plaintext purpose nowMs = .ok record) :
    record.Usable ⟨plaintext, purpose, nowMs⟩ ∧ ∃ candidate, codec.parseAndDigest plaintext = some candidate ∧
      tables.oneTimeByPrefix candidate.tokenPrefix = some record := by
  simp only [AuthTables.presentOneTime, bind_ok_iff, orError_ok_iff, require_ok_iff, Bool.and_eq_true,
    decide_eq_true_eq, Option.isNone_iff_eq_none, pure_ok_iff] at h
  obtain ⟨candidate, hparse, found, hfound, _, ⟨⟨⟨hpurpose, hunconsumed⟩, hunexpired⟩, -⟩, rfl⟩ := h
  exact ⟨⟨hpurpose, hunconsumed, hunexpired⟩, candidate, hparse, hfound⟩

theorem lockOneTimeToken_ok {projectId : Uuid}
    (h : tables.lockOneTimeToken codec projectId plaintext purpose nowMs = .ok record) :
    tables.presentOneTime codec plaintext purpose nowMs = .ok record ∧ record.projectId = projectId := by
  simp only [AuthTables.lockOneTimeToken, bind_ok_iff, require_ok_iff, decide_eq_true_eq, pure_ok_iff] at h
  obtain ⟨found, hpresent, _, hproject, rfl⟩ := h
  exact ⟨hpresent, hproject⟩

theorem oneTimeByPrefix_eq_some {lookupPrefix : List Char} (h : tables.oneTimeByPrefix lookupPrefix = some record) :
    ∃ t, tables.oneTimeTokens.lookup t = some record := by
  obtain ⟨entry, hentry, rfl⟩ := Option.map_eq_some_iff.mp h
  exact ⟨entry.1, (AList.findEntry_eq_some hentry).1⟩

theorem updateEnabled_eq_some {projectId userId : Uuid} {update : AuthUserRecord → AuthUserRecord}
    (h : tables.updateEnabled projectId userId update = some tables') :
    ∃ user, tables.users.lookup userId = some user ∧ user.projectId = projectId ∧ user.disabledAtMs = none ∧
      tables' = { tables with users := tables.users.insert userId (update user) } := by
  unfold AuthTables.updateEnabled at h
  cases hfind : tables.findById projectId userId with
  | none =>
    rw [hfind] at h
    cases h
  | some user =>
    rw [hfind] at h
    obtain ⟨hlookup, hproject⟩ := Option.filter_eq_some_iff.mp hfind
    dsimp only at h
    split at h
    · rename_i hnone
      exact ⟨user, hlookup, by simpa using hproject, by simpa using hnone, (Option.some.inj h).symm⟩
    · cases h

theorem credentials_of_insert {userId : Uuid} {user : AuthUserRecord} {tables' : AuthTables}
    (h : tables'.users = tables.users.insert userId user) {u : Uuid} (hne : u ≠ userId) :
    tables'.credentials u = tables.credentials u := by
  unfold AuthTables.credentials
  rw [h, AList.lookup_insert_ne hne]

theorem setDisabled_users {projectId userId : Uuid} {user : AuthUserRecord} (disabled : Bool) (nowMs : Int64)
    (hfind : tables.findById projectId userId = some user) : ∃ disabledAtMs passwordChangedAtMs,
      (tables.setDisabledForProject projectId userId disabled nowMs).1.users =
        tables.users.insert userId { user with disabledAtMs, passwordChangedAtMs } := by
  unfold AuthTables.setDisabledForProject
  rw [hfind]
  cases disabled with
  | true => exact ⟨_, _, rfl⟩
  | false => exact ⟨_, _, rfl⟩

theorem setDisabled_oneTimeTokens (projectId userId : Uuid) (disabled : Bool) :
    (tables.setDisabledForProject projectId userId disabled nowMs).1.oneTimeTokens = tables.oneTimeTokens := by
  unfold AuthTables.setDisabledForProject
  cases tables.findById projectId userId with
  | none => rfl
  | some user =>
    cases disabled with
    | true => rfl
    | false => rfl

theorem credentials_setDisabled (projectId userId : Uuid) (disabled : Bool) :
    (tables.setDisabledForProject projectId userId disabled nowMs).1.credentials = tables.credentials := by
  funext u
  cases hfind : tables.findById projectId userId with
  | none =>
    unfold AuthTables.setDisabledForProject
    rw [hfind]
  | some user =>
    obtain ⟨disabledAtMs, passwordChangedAtMs, husers⟩ := setDisabled_users disabled nowMs hfind
    by_cases hu : u = userId
    · subst hu
      simp only [AuthTables.credentials, husers, AList.lookup_insert, (Option.filter_eq_some_iff.mp hfind).1]
      rfl
    · exact credentials_of_insert husers hu

theorem consumeOneTimeToken_ok {t : Uuid} (h : tables.consumeOneTimeToken t nowMs = .ok tables') :
    ∃ record, tables.oneTimeTokens.lookup t = some record ∧ tables' = tables.markConsumed record nowMs := by
  simp only [AuthTables.consumeOneTimeToken, bind_ok_iff, orError_ok_iff, pure_ok_iff] at h
  obtain ⟨record, hlookup, _, -, rfl⟩ := h
  exact ⟨record, hlookup, rfl⟩

inductive OneTimeEffect (codec : OpaqueTokenCodec) (state : OneTimeState) (call : OneTimeCall) :
    AuthTables → OneTimeAnswer → Prop
  | kept {tables : AuthTables} {answer : OneTimeAnswer} (htokens : tables.oneTimeTokens = state.tables.oneTimeTokens)
      (hcredentials : tables.credentials = state.tables.credentials) (hconsumption : answer.isConsumption = false)
      (herror : answer.isError = true → tables = state.tables) (hissued : ∀ token, answer ≠ .issued (.ok token)) :
      OneTimeEffect codec state call tables answer
  | issued (projectId userId : Uuid) (purpose : OneTimePurpose) (nowMs : Int64) (mint : TokenMint) (token : OneTimeToken)
      (tables : AuthTables) (hcall : call = .issue projectId userId purpose nowMs mint)
      (hrecord : token.record.projectId = projectId ∧ token.record.userId = userId ∧ token.record.purpose = purpose ∧
        token.record.consumedAtMs = none)
      (hfresh : state.tables.oneTimeTokens.lookup token.record.id = none)
      (htokens : tables.oneTimeTokens =
        (state.tables.supersede projectId userId purpose nowMs).insert token.record.id token.record)
      (hcredentials : tables.credentials = state.tables.credentials) :
      OneTimeEffect codec state call tables (.issued (.ok token))
  | consumed (request : ConsumeRequest) (record : OneTimeTokenRecord) (tables : AuthTables) (answer : OneTimeAnswer)
      (hrequest : call.request state = some request)
      (hpresent : state.tables.presentOneTime codec request.plaintext request.purpose request.nowMs = .ok record)
      (htokens : tables.oneTimeTokens =
        state.tables.oneTimeTokens.insert record.id { record with consumedAtMs := some request.nowMs })
      (hcredentials : ∀ u, u ≠ record.userId → tables.credentials u = state.tables.credentials u)
      (hconsumption : answer.isConsumption = true) :
      OneTimeEffect codec state call tables answer

theorem consume_effect {state : OneTimeState} {call : OneTimeCall} {request : ConsumeRequest}
    (hrequest : call.request state = some request) :
    let result := transact state.tables (state.tables.consume codec request.plaintext request.purpose request.nowMs)
    OneTimeEffect codec state call result.1 (.consumed result.2) := by
  dsimp only
  cases hconsume : state.tables.consume codec request.plaintext request.purpose request.nowMs with
  | error error => exact .kept rfl rfl rfl (fun _ => rfl) (fun _ hfalse => nomatch hfalse)
  | ok result =>
    simp only [AuthTables.consume, bind_ok_iff, pure_ok_iff] at hconsume
    obtain ⟨record, hpresent, rfl⟩ := hconsume
    exact .consumed request record _ _ hrequest hpresent rfl (fun _ _ => rfl) rfl

def AuthTables.Keyed (tables : AuthTables) : Prop := ∀ t record, tables.oneTimeTokens.lookup t = some record → record.id = t

theorem lookup_of_present (hkeyed : tables.Keyed) (h : tables.presentOneTime codec plaintext purpose nowMs = .ok record) :
    tables.oneTimeTokens.lookup record.id = some record := by
  obtain ⟨-, candidate, -, hfound⟩ := presentOneTime_ok h
  obtain ⟨t, hlookup⟩ := oneTimeByPrefix_eq_some hfound
  rwa [hkeyed t record hlookup]

theorem applied_effect {state : OneTimeState} {call : OneTimeCall} {request : ConsumeRequest} {updated : AuthTables}
    {projectId : Uuid} (hkeyed : state.tables.Keyed) (hrequest : call.request state = some request)
    (hlock : state.tables.lockOneTimeToken codec projectId request.plaintext request.purpose request.nowMs = .ok record)
    (hconsume : updated.consumeOneTimeToken record.id request.nowMs = .ok tables)
    (htokens : updated.oneTimeTokens = state.tables.oneTimeTokens) {user : AuthUserRecord}
    (husers : updated.users = state.tables.users.insert record.userId user) :
    OneTimeEffect codec state call tables (.applied (.ok record.userId)) := by
  obtain ⟨hpresent, -⟩ := lockOneTimeToken_ok hlock
  obtain ⟨found, hfound, rfl⟩ := consumeOneTimeToken_ok hconsume
  rw [htokens, lookup_of_present hkeyed hpresent] at hfound
  obtain rfl := Option.some.inj hfound
  refine .consumed request record _ _ hrequest hpresent ?_ ?_ rfl
  · simp only [AuthTables.markConsumed, htokens]
  · exact fun u hu => credentials_of_insert husers hu

theorem issue_effect (state : OneTimeState) (projectId userId : Uuid) (purpose : OneTimePurpose) (nowMs : Int64)
    (mint : TokenMint) :
    let result := transact state.tables (state.tables.issue codec projectId userId purpose nowMs mint)
    OneTimeEffect codec state (.issue projectId userId purpose nowMs mint) result.1 (.issued result.2) := by
  dsimp only
  cases hissue : state.tables.issue codec projectId userId purpose nowMs mint with
  | error error => exact .kept rfl rfl rfl (fun _ => rfl) (fun _ hfalse => nomatch hfalse)
  | ok result =>
    simp only [AuthTables.issue, bind_ok_iff, require_ok_iff, orError_ok_iff, Bool.and_eq_true,
      Option.isNone_iff_eq_none, pure_ok_iff] at hissue
    obtain ⟨_, -, ⟨text, parts⟩, -, _, -, _, ⟨hid, -⟩, rfl⟩ := hissue
    rw [AuthTables.supersede, AList.lookup_mapValues, Option.map_eq_none_iff] at hid
    dsimp only [transact]
    refine .issued projectId userId purpose nowMs mint _ _ rfl ?_ ?_ rfl rfl
    · exact ⟨rfl, rfl, rfl, rfl⟩
    · exact hid

theorem oneTimeCall_effect {state : OneTimeState} (hkeyed : state.tables.Keyed) (call : OneTimeCall) :
    OneTimeEffect codec state call (oneTimeCall codec state call).1.tables (oneTimeCall codec state call).2 := by
  cases call with
  | issue projectId userId purpose nowMs mint => exact issue_effect state projectId userId purpose nowMs mint
  | consume request => exact consume_effect rfl
  | checkForProject caller projectId request =>
    simp only [oneTimeCall]
    cases hcheck : state.tables.checkForProject codec projectId request.plaintext with
    | error error => exact .kept rfl rfl rfl (fun _ => rfl) (fun _ hfalse => by cases hfalse)
    | ok _ => exact .kept rfl rfl rfl (fun _ => rfl) (fun _ hfalse => by cases hfalse)
  | consumeForProject caller =>
    simp only [oneTimeCall]
    cases hchecked : state.checked.lookup caller with
    | none => exact .kept rfl rfl rfl (fun _ => rfl) (fun _ hfalse => by cases hfalse)
    | some request => exact consume_effect hchecked
  | verifyEmailForProject projectId plaintext nowMs =>
    simp only [oneTimeCall]
    cases hverify : state.tables.verifyEmailForProject codec projectId plaintext nowMs with
    | error error => exact .kept rfl rfl rfl (fun _ => rfl) (fun _ hfalse => by cases hfalse)
    | ok result =>
      simp only [AuthTables.verifyEmailForProject, bind_ok_iff, orError_ok_iff, pure_ok_iff] at hverify
      obtain ⟨record, hlock, updated, hupdate, tables, hconsume, rfl⟩ := hverify
      obtain ⟨user, -, -, -, rfl⟩ := updateEnabled_eq_some hupdate
      exact applied_effect hkeyed rfl hlock hconsume rfl rfl
  | resetPasswordForProject projectId plaintext passwordHash nowMs =>
    simp only [oneTimeCall]
    cases hreset : state.tables.resetPasswordForProject codec projectId plaintext passwordHash nowMs with
    | error error => exact .kept rfl rfl rfl (fun _ => rfl) (fun _ hfalse => by cases hfalse)
    | ok result =>
      simp only [AuthTables.resetPasswordForProject, bind_ok_iff, orError_ok_iff, pure_ok_iff] at hreset
      obtain ⟨record, hlock, updated, hupdate, tables, hconsume, rfl⟩ := hreset
      obtain ⟨user, -, -, -, rfl⟩ := updateEnabled_eq_some hupdate
      exact applied_effect hkeyed rfl hlock hconsume rfl rfl
  | setDisabledForProject projectId userId disabled nowMs =>
    refine .kept ?_ ?_ rfl (fun hfalse => (by cases hfalse)) (fun _ hfalse => by cases hfalse)
    · exact setDisabled_oneTimeTokens projectId userId disabled
    · exact credentials_setDisabled projectId userId disabled

end Effects

/-- What holds of the tokens in every run: each is kept under its id, and one at most is outstanding for a purpose. -/
structure AuthTables.OneTimeSound (tables : AuthTables) : Prop where
  keyed : tables.Keyed
  outstanding : ∀ t t' record record', tables.oneTimeTokens.lookup t = some record →
    tables.oneTimeTokens.lookup t' = some record' → record.consumedAtMs = none → record'.consumedAtMs = none →
    record.projectId = record'.projectId → record.userId = record'.userId → record.purpose = record'.purpose → t = t'

def AuthTables.OneTimeSpent (tables : AuthTables) (t : Uuid) : Prop :=
  ∃ record, tables.oneTimeTokens.lookup t = some record ∧ record.consumedAtMs.isSome = true

section Runs
variable {codec : OpaqueTokenCodec} {state : OneTimeState} {call : OneTimeCall} {t : Uuid}

theorem lookup_supersede {tables : AuthTables} {projectId userId : Uuid} {purpose : OneTimePurpose} {nowMs : Int64}
    {record : OneTimeTokenRecord} (h : (tables.supersede projectId userId purpose nowMs).lookup t = some record) :
    ∃ old, tables.oneTimeTokens.lookup t = some old ∧ record.id = old.id ∧ record.projectId = old.projectId ∧
      record.userId = old.userId ∧ record.purpose = old.purpose ∧ (record.consumedAtMs = none → old.consumedAtMs = none ∧
        ¬(old.projectId = projectId ∧ old.userId = userId ∧ old.purpose = purpose)) := by
  rw [AuthTables.supersede, AList.lookup_mapValues] at h
  obtain ⟨old, hold, rfl⟩ := Option.map_eq_some_iff.mp h
  refine ⟨old, hold, ?_⟩
  split
  · exact ⟨rfl, rfl, rfl, rfl, fun hfalse => nomatch hfalse⟩
  · rename_i hother
    refine ⟨rfl, rfl, rfl, rfl, fun hnone => ⟨hnone, ?_⟩⟩
    rintro ⟨hproject, huser, hpurpose⟩
    exact hother (by simp [hproject, huser, hpurpose, hnone])

theorem AuthTables.OneTimeSound.step (h : state.tables.OneTimeSound) (call : OneTimeCall) :
    (oneTimeStep codec state call).tables.OneTimeSound := by
  have heffect := @oneTimeCall_effect codec _ h.keyed call
  unfold oneTimeStep
  generalize (oneTimeCall codec state call).1.tables = tables at heffect ⊢
  generalize (oneTimeCall codec state call).2 = answer at heffect
  cases heffect with
  | kept htokens _ _ _ _ =>
    refine ⟨?_, ?_⟩
    · unfold AuthTables.Keyed
      rw [htokens]
      exact h.keyed
    · rw [htokens]
      exact h.outstanding
  | issued projectId userId purpose nowMs mint token _ hcall hrecord hfresh htokens _ =>
    obtain ⟨hproject, huser, hpurpose, -⟩ := hrecord
    refine ⟨?_, ?_⟩
    · intro t record hlookup
      rw [htokens] at hlookup
      obtain ⟨rfl, rfl⟩ | ⟨-, hlookup⟩ := AList.lookup_insert_eq_some_iff.mp hlookup
      · rfl
      · obtain ⟨old, hold, hid, -⟩ := lookup_supersede hlookup
        exact hid.trans (h.keyed t old hold)
    · intro t t' record record' hlookup hlookup' hnone hnone' hsameProject hsameUser hsamePurpose
      rw [htokens] at hlookup hlookup'
      obtain ⟨rfl, rfl⟩ | ⟨-, hlookup⟩ := AList.lookup_insert_eq_some_iff.mp hlookup
      · obtain ⟨rfl, rfl⟩ | ⟨-, hlookup'⟩ := AList.lookup_insert_eq_some_iff.mp hlookup'
        · rfl
        · obtain ⟨old, -, -, hp, hu, hpu, hactive⟩ := lookup_supersede hlookup'
          obtain ⟨-, hother⟩ := hactive hnone'
          exact absurd ⟨hp ▸ hsameProject ▸ hproject, hu ▸ hsameUser ▸ huser, hpu ▸ hsamePurpose ▸ hpurpose⟩ hother
      · obtain ⟨old, hold, -, hp, hu, hpu, hactive⟩ := lookup_supersede hlookup
        obtain ⟨hunconsumed, hother⟩ := hactive hnone
        obtain ⟨rfl, rfl⟩ | ⟨-, hlookup'⟩ := AList.lookup_insert_eq_some_iff.mp hlookup'
        · exact absurd ⟨hp ▸ hsameProject.trans hproject, hu ▸ hsameUser.trans huser,
            hpu ▸ hsamePurpose.trans hpurpose⟩ hother
        · obtain ⟨old', hold', -, hp', hu', hpu', hactive'⟩ := lookup_supersede hlookup'
          exact h.outstanding t t' old old' hold hold' hunconsumed (hactive' hnone').1
            (hp ▸ hp' ▸ hsameProject) (hu ▸ hu' ▸ hsameUser) (hpu ▸ hpu' ▸ hsamePurpose)
  | consumed request record tables answer hrequest hpresent htokens _ _ =>
    refine ⟨?_, ?_⟩
    · intro t found hlookup
      rw [htokens] at hlookup
      obtain ⟨rfl, rfl⟩ | ⟨-, hlookup⟩ := AList.lookup_insert_eq_some_iff.mp hlookup
      · rfl
      · exact h.keyed t found hlookup
    · intro t t' found found' hlookup hlookup' hnone hnone'
      rw [htokens] at hlookup hlookup'
      obtain ⟨rfl, rfl⟩ | ⟨-, hlookup⟩ := AList.lookup_insert_eq_some_iff.mp hlookup
      · cases hnone
      · obtain ⟨rfl, rfl⟩ | ⟨-, hlookup'⟩ := AList.lookup_insert_eq_some_iff.mp hlookup'
        · cases hnone'
        · exact h.outstanding t t' found found' hlookup hlookup' hnone hnone'

theorem AuthTables.OneTimeSpent.step (hsound : state.tables.OneTimeSound) (h : state.tables.OneTimeSpent t) (call : OneTimeCall) :
    (oneTimeStep codec state call).tables.OneTimeSpent t := by
  obtain ⟨record, hlookup, hspent⟩ := h
  have heffect := @oneTimeCall_effect codec _ hsound.keyed call
  unfold oneTimeStep
  generalize (oneTimeCall codec state call).1.tables = tables at heffect ⊢
  generalize (oneTimeCall codec state call).2 = answer at heffect
  cases heffect with
  | kept htokens _ _ _ _ => exact ⟨record, htokens ▸ hlookup, hspent⟩
  | issued projectId userId purpose nowMs mint token _ hcall hrecord hfresh htokens _ =>
    refine ⟨record, ?_, hspent⟩
    have hne : t ≠ token.record.id := by
      rintro rfl
      rw [hfresh] at hlookup
      cases hlookup
    rw [htokens, AList.lookup_insert_ne hne, AuthTables.supersede, AList.lookup_mapValues, hlookup, Option.map_some]
    have hnone : record.consumedAtMs.isNone = false := by simpa using hspent
    simp [hnone]
  | consumed request found _ _ hrequest hpresent htokens _ _ =>
    by_cases ht : t = found.id
    · subst ht
      exact ⟨_, htokens ▸ AList.lookup_insert _, rfl⟩
    · exact ⟨record, htokens ▸ (AList.lookup_insert_ne ht).trans hlookup, hspent⟩

/-- A consumption consumes a token that can be used, and changes nobody's credentials but its user's. -/
theorem Consumes.effect (hsound : state.tables.OneTimeSound) {request : ConsumeRequest} {record : OneTimeTokenRecord}
    (h : Consumes codec state call request record) :
    record.Usable request ∧ state.tables.oneTimeTokens.lookup record.id = some record ∧
      (oneTimeStep codec state call).tables.oneTimeTokens.lookup record.id =
        some { record with consumedAtMs := some request.nowMs } := by
  obtain ⟨hconsumption, hrequest, candidate, hparse, hfound⟩ := h
  have heffect := @oneTimeCall_effect codec _ hsound.keyed call
  unfold oneTimeStep
  generalize (oneTimeCall codec state call).1.tables = tables at heffect ⊢
  generalize (oneTimeCall codec state call).2 = answer at heffect hconsumption
  cases heffect with
  | kept _ _ hfalse _ _ =>
    rw [hfalse] at hconsumption
    cases hconsumption
  | issued => cases hconsumption
  | consumed request' found _ _ hrequest' hpresent htokens _ _ =>
    obtain rfl := Option.some.inj (hrequest.symm.trans hrequest')
    obtain ⟨husable, candidate', hparse', hfound'⟩ := presentOneTime_ok hpresent
    obtain rfl := Option.some.inj (hparse.symm.trans hparse')
    obtain rfl := Option.some.inj (hfound.symm.trans hfound')
    exact ⟨husable, lookup_of_present hsound.keyed hpresent, htokens ▸ AList.lookup_insert _⟩

def NeverConsumed (codec : OpaqueTokenCodec) (state : OneTimeState) (calls : List OneTimeCall) (t : Uuid) : Prop :=
  ∀ before call after, calls = before ++ call :: after → ∀ request record,
    Consumes codec (Machine.run (oneTimeStep codec) state before) call request record → record.id ≠ t

theorem AuthTables.OneTimeSpent.neverConsumed (hsound : state.tables.OneTimeSound) (h : state.tables.OneTimeSpent t)
    (calls : List OneTimeCall) : NeverConsumed codec state calls t := by
  induction calls generalizing state with
  | nil => exact Machine.forall_point_nil
  | cons call calls ih =>
    refine Machine.forall_point_cons ?_ ?_
    · rintro request record hconsumes rfl
      obtain ⟨husable, hlookup, -⟩ := hconsumes.effect hsound
      obtain ⟨found, hfound, hspent⟩ := h
      change state.tables.oneTimeTokens.lookup record.id = some record at hlookup
      obtain rfl := Option.some.inj (hlookup.symm.trans hfound)
      rw [husable.unconsumed] at hspent
      cases hspent
    · exact ih (hsound.step call) (h.step hsound call)

structure OneTimeLaws (codec : OpaqueTokenCodec) (state : OneTimeState) (call : OneTimeCall) (after : List OneTimeCall) :
    Prop where
  failed : (oneTimeCall codec state call).2.isError = true → (oneTimeStep codec state call).tables = state.tables
  consumed : ∀ request record, Consumes codec state call request record → record.Usable request ∧
    state.tables.oneTimeTokens.lookup record.id = some record ∧
    (oneTimeStep codec state call).tables.oneTimeTokens.lookup record.id =
      some { record with consumedAtMs := some request.nowMs } ∧
    NeverConsumed codec (oneTimeStep codec state call) after record.id
  superseded : ∀ projectId userId purpose nowMs mint token, call = .issue projectId userId purpose nowMs mint →
    (oneTimeCall codec state call).2 = .issued (.ok token) → ∀ t record,
    state.tables.oneTimeTokens.lookup t = some record → record.projectId = projectId → record.userId = userId →
    record.purpose = purpose → NeverConsumed codec (oneTimeStep codec state call) after t
  credentials : ∀ userId,
    (oneTimeStep codec state call).tables.credentials userId ≠ state.tables.credentials userId →
    ∃ request record, Consumes codec state call request record ∧ record.userId = userId

theorem failed_keeps (hsound : state.tables.OneTimeSound) (call : OneTimeCall)
    (herror : (oneTimeCall codec state call).2.isError = true) : (oneTimeStep codec state call).tables = state.tables := by
  have heffect := @oneTimeCall_effect codec _ hsound.keyed call
  unfold oneTimeStep
  generalize (oneTimeCall codec state call).1.tables = tables at heffect ⊢
  generalize (oneTimeCall codec state call).2 = answer at heffect herror
  cases heffect with
  | kept _ _ _ hsame _ => exact hsame herror
  | issued => cases herror
  | consumed _ _ _ _ _ _ _ _ hconsumption =>
    cases answer with
    | consumed result | applied result =>
      cases result with
      | ok _ => cases herror
      | error _ => cases hconsumption
    | issued | checked | changed => cases hconsumption

theorem superseded_spent (hsound : state.tables.OneTimeSound) {projectId userId : Uuid} {purpose : OneTimePurpose}
    {nowMs : Int64} {mint : TokenMint} {token : OneTimeToken}
    (hissued : (oneTimeCall codec state (.issue projectId userId purpose nowMs mint)).2 = .issued (.ok token))
    {record : OneTimeTokenRecord} (hlookup : state.tables.oneTimeTokens.lookup t = some record)
    (hproject : record.projectId = projectId) (huser : record.userId = userId) (hpurpose : record.purpose = purpose) :
    (oneTimeStep codec state (.issue projectId userId purpose nowMs mint)).tables.OneTimeSpent t := by
  have heffect := @oneTimeCall_effect codec _ hsound.keyed (.issue projectId userId purpose nowMs mint)
  unfold oneTimeStep
  generalize (oneTimeCall codec state (.issue projectId userId purpose nowMs mint)).1.tables = tables at heffect ⊢
  rw [hissued] at heffect
  cases heffect with
  | kept _ _ _ _ hfalse => exact absurd rfl (hfalse token)
  | issued projectId' userId' purpose' nowMs' mint' _ _ hcall hrecord hfresh htokens _ =>
    cases hcall
    have hne : t ≠ token.record.id := by
      rintro rfl
      rw [hfresh] at hlookup
      cases hlookup
    rw [AuthTables.OneTimeSpent, htokens, AList.lookup_insert_ne hne, AuthTables.supersede, AList.lookup_mapValues, hlookup]
    cases hconsumed : record.consumedAtMs with
    | none => exact ⟨_, rfl, by simp [hproject, huser, hpurpose, hconsumed]⟩
    | some _ => exact ⟨_, rfl, by simp [hconsumed]⟩
  | consumed _ _ _ _ _ _ _ _ hconsumption => cases hconsumption

theorem credentials_consumes (hsound : state.tables.OneTimeSound) (call : OneTimeCall) {userId : Uuid}
    (hchanged : (oneTimeStep codec state call).tables.credentials userId ≠ state.tables.credentials userId) :
    ∃ request record, Consumes codec state call request record ∧ record.userId = userId := by
  have heffect := @oneTimeCall_effect codec _ hsound.keyed call
  unfold oneTimeStep at hchanged
  unfold Consumes
  generalize (oneTimeCall codec state call).1.tables = tables at heffect hchanged
  generalize (oneTimeCall codec state call).2 = answer at heffect ⊢
  cases heffect with
  | kept _ hcredentials _ _ _ => exact absurd (congrFun hcredentials userId) hchanged
  | issued _ _ _ _ _ _ _ _ _ _ _ hcredentials => exact absurd (congrFun hcredentials userId) hchanged
  | consumed request record _ _ hrequest hpresent _ hcredentials hconsumption =>
    obtain ⟨-, candidate, hparse, hfound⟩ := presentOneTime_ok hpresent
    refine ⟨request, record, ⟨hconsumption, hrequest, candidate, hparse, hfound⟩, ?_⟩
    by_contra hne
    exact hchanged (hcredentials userId (Ne.symm hne))

theorem oneTimeLaws (hsound : state.tables.OneTimeSound) (call : OneTimeCall) (after : List OneTimeCall) :
    OneTimeLaws codec state call after where
  failed := failed_keeps hsound call
  consumed := by
    intro request record hconsumes
    obtain ⟨husable, hlookup, hnext⟩ := hconsumes.effect hsound
    refine ⟨husable, hlookup, hnext, ?_⟩
    exact AuthTables.OneTimeSpent.neverConsumed (hsound.step call) ⟨_, hnext, rfl⟩ after
  superseded := by
    rintro projectId userId purpose nowMs mint token rfl hissued t record hlookup hproject huser hpurpose
    exact (superseded_spent hsound hissued hlookup hproject huser hpurpose).neverConsumed
      (hsound.step _) after
  credentials := fun _ hchanged => credentials_consumes hsound call hchanged

theorem oneTimeSound_run (users : Table Uuid AuthUserRecord) (refresh : RefreshState) (calls : List OneTimeCall) :
    (oneTimeRun codec users refresh calls).tables.OneTimeSound := by
  refine Machine.run_preserves (P := fun state : OneTimeState => state.tables.OneTimeSound)
    (fun _ call hsound => hsound.step call) _ calls ⟨?_, ?_⟩
  · intro t record hlookup
    cases hlookup
  · intro t t' record record' hlookup
    cases hlookup

end Runs

/-- One-time tokens, over every interleaving of the calls: one at most is outstanding for a purpose, each is used once
at most and only while it counts, what fails changes nothing, and an account changes only as its token is used. -/
theorem one_time_tokens_used_once (codec : OpaqueTokenCodec) (users : Table Uuid AuthUserRecord) (refresh : RefreshState)
    (calls : List OneTimeCall) :
    (oneTimeRun codec users refresh calls).tables.OneTimeSound ∧ ∀ before call after, calls = before ++ call :: after →
      OneTimeLaws codec (oneTimeRun codec users refresh before) call after :=
  ⟨oneTimeSound_run users refresh calls, fun before call after _ => oneTimeLaws (oneTimeSound_run users refresh before) call after⟩

section Sample

private def actionCodec : OpaqueTokenCodec := ⟨"action".toList, fun token => token.map fun c => UInt8.ofNat c.toNat⟩

private def actionEntropy : Entropy := ⟨Vector.replicate 12 0, Vector.replicate 32 0⟩

private def sampleUser : AuthUserRecord := ⟨1, 2, ['a'], ['o', 'l', 'd'], none, none, 0⟩

private def resetTwice : List OneTimeCall :=
  [.issue 2 1 .passwordReset 1000 ⟨3, some actionEntropy⟩,
    .resetPasswordForProject 2 (actionCodec.plaintext actionEntropy) ['n', 'e', 'w'] 2000,
    .resetPasswordForProject 2 (actionCodec.plaintext actionEntropy) ['b', 'a', 'd'] 3000]

/-- A reset link that is used again changes nothing. -/
example : (oneTimeRun actionCodec (AList.insert 1 sampleUser ∅) {} resetTwice).tables.credentials 1 =
    some (none, ['n', 'e', 'w']) := by decide +kernel

theorem reset_link_used_once :
    OneTimeLaws actionCodec (oneTimeRun actionCodec (AList.insert 1 sampleUser ∅) {} (resetTwice.take 1))
      (.resetPasswordForProject 2 (actionCodec.plaintext actionEntropy) ['n', 'e', 'w'] 2000) (resetTwice.drop 2) :=
  (one_time_tokens_used_once actionCodec (AList.insert 1 sampleUser ∅) {} resetTwice).2 _ _ _ rfl

end Sample

end Ffdb.Auth
