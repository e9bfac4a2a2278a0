import Ffdb.Auth.Token
import Ffdb.Lib.Machine

/-! The signing keys of projects, and the access tokens that are signed with them. A rotation puts the key that it
replaces into a grace period, during which tokens signed with it are still accepted. -/
namespace Ffdb.Auth
open Fallible

def minGraceSeconds : Int := 60
def maxGraceSeconds : Int := 30*24*60*60
def maxAccessTokenLifetimeSeconds : Int := 900
def maxClockSkewSeconds : Int := 30
def maxBearerTokenBytes : Nat := 16*1024

inductive VerificationKeyStatus where
  | active
  | grace
  | revoked
  deriving DecidableEq

def validateKid (kid : List Char) : Bool :=
  8 ≤ Text.byteLength kid && Text.byteLength kid ≤ 64 && kid.all fun c => c.isAlphanum || c = '_' || c = '-'

structure GeneratedKey (κ : Type) where
  kid : List Char
  publicKey : κ
  valid : validateKid kid = true

structure SigningKey (κ : Type) where
  projectId : Uuid
  kid : List Char
  publicKey : κ
  status : VerificationKeyStatus
  validFrom : Int
  validUntil : Option Int
  deriving DecidableEq

inductive SigningKeyManagementError where
  | invalidInput
  | projectNotFound
  | activeKeyExists
  | noActiveKey

section Management
variable {κ : Type} (projects : Uuid → Bool) (keys : List (SigningKey κ)) (projectId : Uuid) (nowSeconds : Int)
  (generated : GeneratedKey κ)

def SigningKey.isActive (key : SigningKey κ) (projectId : Uuid) : Bool :=
  key.projectId = projectId && key.status = .active

/-- The identifiers of a project's keys are unique, which a failing insertion reports as an existing key. -/
def insertKey : Except SigningKeyManagementError (List (SigningKey κ)) := do
  require (!keys.any fun key => key.projectId = projectId && key.kid = generated.kid) .activeKeyExists
  pure (keys ++ [⟨projectId, generated.kid, generated.publicKey, .active, nowSeconds, none⟩])

def bootstrap : Except SigningKeyManagementError (List (SigningKey κ)) := do
  require (0 < nowSeconds) .invalidInput
  require (projects projectId) .projectNotFound
  require (!keys.any (·.isActive projectId)) .activeKeyExists
  insertKey keys projectId nowSeconds generated

def SigningKey.retire (key : SigningKey κ) (projectId : Uuid) (graceUntil : Int) : SigningKey κ :=
  if key.isActive projectId then
    { key with status := .grace, validUntil := some (max (key.validFrom+1) graceUntil) }
  else key

def rotate (gracePeriodSeconds : Int) : Except SigningKeyManagementError (List (SigningKey κ)) := do
  require (0 < nowSeconds) .invalidInput
  require (minGraceSeconds ≤ gracePeriodSeconds && gracePeriodSeconds ≤ maxGraceSeconds) .invalidInput
  require (nowSeconds+gracePeriodSeconds < 2^63) .invalidInput
  require (projects projectId) .projectNotFound
  require (keys.any (·.isActive projectId)) .noActiveKey
  insertKey (keys.map (·.retire projectId (nowSeconds+gracePeriodSeconds))) projectId nowSeconds generated

def activeSigner : Option (SigningKey κ) :=
  keys.find? fun key => key.isActive projectId && key.validFrom ≤ nowSeconds && key.validUntil.all (nowSeconds < ·)

def verificationKeys : List (SigningKey κ) :=
  keys.filter fun key => key.projectId = projectId && (key.status = .active || key.status = .grace)

inductive KeyCall (κ : Type) where
  | bootstrap (projectId : Uuid) (generated : GeneratedKey κ)
  | rotate (projectId : Uuid) (generated : GeneratedKey κ) (gracePeriodSeconds : Int)

def KeyCall.perform (nowSeconds : Int) : KeyCall κ → Except SigningKeyManagementError (List (SigningKey κ))
  | .bootstrap projectId generated => Auth.bootstrap projects keys projectId nowSeconds generated
  | .rotate projectId generated gracePeriodSeconds =>
    Auth.rotate projects keys projectId nowSeconds generated gracePeriodSeconds

/-- A call at a time; one that fails changes nothing. -/
def keyStep (keys : List (SigningKey κ)) (call : Int × KeyCall κ) : List (SigningKey κ) :=
  ((call.2.perform projects keys call.1).toOption).getD keys

abbrev keysAfter (calls : List (Int × KeyCall κ)) : List (SigningKey κ) := Machine.run (keyStep projects) [] calls

end Management

section Tokens
variable {κ γ : Type} [DecidableEq κ]

structure AccessTokenClaims (γ : Type) where
  iss : List Char
  aud : List Char
  sub : Uuid
  projectId : Uuid
  jti : Uuid
  sid : Option Uuid
  iat : Int
  nbf : Int
  exp : Int
  role : List Char
  claims : γ

/-- A decoded token, with the key whose signature it carries. -/
structure AccessToken (κ γ : Type) where
  alg : String
  typ : String
  kid : List Char
  claims : AccessTokenClaims γ
  signedBy : κ

inductive JwtError where
  | malformed
  | unsupportedAlgorithm
  | unknownKey
  | invalidSignature
  | invalidClaims
  | timeInvalid

structure JwtIssuer where
  issuer : List Char
  audience : List Char

structure AccessTokenSubject (γ : Type) where
  subject : Uuid
  jti : Uuid
  role : List Char
  claims : γ
  sessionId : Option Uuid
  ttlSeconds : Int

def validateClaimStrings (bounded : γ → Bool) (claims : AccessTokenClaims γ) : Except JwtError Unit :=
  require (claims.iss ≠ [] && Text.byteLength claims.iss ≤ 256 && claims.aud ≠ [] && Text.byteLength claims.aud ≤ 128 &&
    claims.role ≠ [] && Text.byteLength claims.role ≤ 64 &&
    (claims.role.all fun c => c.isAlphanum || c = '_' || c = '-' || c = ':') && bounded claims.claims) .invalidClaims

variable (bounded : γ → Bool) (issuer : JwtIssuer) (projectId : Uuid) (nowSeconds : Int)

def claimsWithSessionPolicy (subject : AccessTokenSubject γ) : Except JwtError (AccessTokenClaims γ) := do
  require (60 ≤ subject.ttlSeconds && subject.ttlSeconds ≤ maxAccessTokenLifetimeSeconds) .invalidClaims
  require (nowSeconds+subject.ttlSeconds < 2^63) .invalidClaims
  let claims : AccessTokenClaims γ := ⟨issuer.issuer, issuer.audience, subject.subject, projectId, subject.jti,
    subject.sessionId, nowSeconds, nowSeconds, nowSeconds+subject.ttlSeconds, subject.role, subject.claims⟩
  validateClaimStrings bounded claims
  pure claims

def issueToken (keys : List (SigningKey κ)) (subject : AccessTokenSubject γ) : Except JwtError (AccessToken κ γ) := do
  let key ← orError (activeSigner keys projectId nowSeconds) .unknownKey
  let claims ← claimsWithSessionPolicy bounded issuer projectId nowSeconds subject
  pure ⟨"EdDSA", "JWT", key.kid, claims, key.publicKey⟩

def verifyAccessToken (textLength : AccessToken κ γ → Nat) (keys : List (SigningKey κ)) (token : AccessToken κ γ) :
    Except JwtError (AccessTokenClaims γ) := do
  require (0 < textLength token && textLength token ≤ maxBearerTokenBytes) .malformed
  require (token.alg = "EdDSA" && token.typ = "JWT") .unsupportedAlgorithm
  require (validateKid token.kid) .unknownKey
  let key ← orError (keys.find? fun key => key.projectId = projectId && key.kid = token.kid) .unknownKey
  require (key.status ≠ .revoked && key.validFrom ≤ nowSeconds+maxClockSkewSeconds &&
    key.validUntil.all (nowSeconds-maxClockSkewSeconds ≤ ·)) .unknownKey
  require (token.signedBy = key.publicKey) .invalidSignature
  let claims := token.claims
  validateClaimStrings bounded claims
  require (claims.iss = issuer.issuer && claims.aud = issuer.audience && claims.projectId = projectId &&
    claims.sub ≠ 0 && claims.jti ≠ 0) .invalidClaims
  require (claims.iat < claims.exp && claims.nbf ≤ claims.exp &&
    claims.exp-claims.iat ≤ maxAccessTokenLifetimeSeconds && claims.iat ≤ nowSeconds+maxClockSkewSeconds &&
    claims.nbf ≤ nowSeconds+maxClockSkewSeconds && nowSeconds-maxClockSkewSeconds < claims.exp) .timeInvalid
  pure claims

end Tokens

section Invariant
variable {κ : Type} {projects : Uuid → Bool} {keys keys' : List (SigningKey κ)} {key : SigningKey κ}
  {projectId : Uuid} {nowSeconds graceUntil : Int} {generated : GeneratedKey κ}

theorem SigningKey.retire_identity (key : SigningKey κ) (projectId : Uuid) (graceUntil : Int) :
    (key.retire projectId graceUntil).projectId = key.projectId ∧ (key.retire projectId graceUntil).kid = key.kid := by
  unfold retire
  split <;> exact ⟨rfl, rfl⟩

theorem SigningKey.isActive_retire (key : SigningKey κ) (projectId other : Uuid) (graceUntil : Int) :
    (key.retire projectId graceUntil).isActive other = (key.isActive other && other ≠ projectId) := by
  unfold retire
  split
  · next hactive =>
    simp only [isActive, Bool.and_eq_true, decide_eq_true_eq] at hactive
    rw [← hactive.1]
    by_cases hother : other = key.projectId
    · simp [isActive, hother]
    · simp [isActive, Ne.symm hother]
  · next hactive =>
    by_cases hother : other = projectId
    · subst hother
      simpa using hactive
    · simp [hother]

theorem insertKey_ok (h : insertKey keys projectId nowSeconds generated = .ok keys') :
    (∀ key ∈ keys, ¬(key.projectId = projectId ∧ key.kid = generated.kid)) ∧
      keys' = keys ++ [⟨projectId, generated.kid, generated.publicKey, .active, nowSeconds, none⟩] := by
  simp only [insertKey, bind_ok_iff, require_ok_iff, pure_ok_iff] at h
  obtain ⟨-, hnew, hsame⟩ := h
  refine ⟨fun key hkey hboth => ?_, hsame.symm⟩
  simp only [Bool.not_eq_true', List.any_eq_false, Bool.and_eq_true, decide_eq_true_eq] at hnew
  exact hnew key hkey hboth

/-- Identifiers are unique within a project, a project that has keys has exactly one that is active, and that one has no
end. -/
structure KeysSound (keys : List (SigningKey κ)) : Prop where
  distinct : keys.Pairwise fun a b => ¬(a.projectId = b.projectId ∧ a.kid = b.kid)
  single : ∀ projectId, keys.countP (·.isActive projectId) = if keys.any (·.projectId = projectId) then 1 else 0
  named : ∀ key ∈ keys, validateKid key.kid = true
  unbounded : ∀ key ∈ keys, key.status = .active → key.validUntil = none

theorem KeysSound.eq_of_identity {a b : SigningKey κ} (h : KeysSound keys) (ha : a ∈ keys) (hb : b ∈ keys)
    (hsame : a.projectId = b.projectId ∧ a.kid = b.kid) : a = b := by
  obtain ⟨i, hi, rfl⟩ := List.getElem_of_mem ha
  obtain ⟨j, hj, rfl⟩ := List.getElem_of_mem hb
  have hpairs := List.pairwise_iff_getElem.mp h.distinct
  obtain hlt | rfl | hgt := Nat.lt_trichotomy i j
  · exact absurd hsame (hpairs i j hi hj hlt)
  · rfl
  · exact absurd ⟨hsame.1.symm, hsame.2.symm⟩ (hpairs j i hj hi hgt)

/-- A key is inserted into keys of which none is active for its project, and that are otherwise sound. -/
theorem KeysSound.insert (hdistinct : keys.Pairwise fun a b => ¬(a.projectId = b.projectId ∧ a.kid = b.kid))
    (hsingle : ∀ other, keys.countP (·.isActive other) =
      if other ≠ projectId ∧ keys.any (·.projectId = other) then 1 else 0)
    (hnamed : ∀ key ∈ keys, validateKid key.kid = true)
    (hunbounded : ∀ key ∈ keys, key.status = .active → key.validUntil = none)
    (hinsert : insertKey keys projectId nowSeconds generated = .ok keys') : KeysSound keys' := by
  obtain ⟨hnew, rfl⟩ := insertKey_ok hinsert
  refine ⟨List.pairwise_append.mpr ⟨hdistinct, List.pairwise_singleton _ _, ?_⟩, fun other => ?_, ?_, ?_⟩
  · intro key hkey inserted hinserted hsame
    rw [List.mem_singleton.mp hinserted] at hsame
    exact hnew key hkey hsame
  · rw [List.countP_append, hsingle, List.any_append]
    by_cases hother : other = projectId
    · simp [hother, SigningKey.isActive]
    · simp [hother, SigningKey.isActive, Ne.symm hother]
  · intro key hkey
    obtain hkey | hkey := List.mem_append.mp hkey
    · exact hnamed key hkey
    · rw [List.mem_singleton.mp hkey]
      exact generated.valid
  · intro key hkey hactive
    obtain hkey | hkey := List.mem_append.mp hkey
    · exact hunbounded key hkey hactive
    · rw [List.mem_singleton.mp hkey]

theorem KeysSound.bootstrap (h : KeysSound keys) (hok : bootstrap projects keys projectId nowSeconds generated = .ok keys') :
    KeysSound keys' := by
  simp only [Auth.bootstrap, bind_ok_iff, require_ok_iff] at hok
  obtain ⟨-, -, -, -, -, hnone, hinsert⟩ := hok
  refine KeysSound.insert h.distinct (fun other => ?_) h.named h.unbounded hinsert
  by_cases hother : other = projectId
  · subst hother
    simp only [Bool.not_eq_true', List.any_eq_false] at hnone
    simpa [List.countP_eq_zero] using hnone
  · simp [h.single, hother]

theorem KeysSound.rotate {grace : Int} (h : KeysSound keys)
    (hok : rotate projects keys projectId nowSeconds generated grace = .ok keys') : KeysSound keys' := by
  simp only [Auth.rotate, bind_ok_iff, require_ok_iff] at hok
  obtain ⟨-, -, -, -, -, -, -, -, -, hactive, hinsert⟩ := hok
  have hidentity := fun key : SigningKey κ => key.retire_identity projectId (nowSeconds+grace)
  refine KeysSound.insert ?_ (fun other => ?_) ?_ ?_ hinsert
  · rw [List.pairwise_map]
    refine h.distinct.imp fun {a b} hab hsame => hab ?_
    rwa [(hidentity a).1, (hidentity b).1, (hidentity a).2, (hidentity b).2] at hsame
  · rw [List.countP_map, List.any_map]
    by_cases hother : other = projectId
    · simp [hother, Function.comp_def, SigningKey.isActive_retire]
    · simpa [hother, Function.comp_def, SigningKey.isActive_retire, hidentity] using h.single other
  · intro key hkey
    obtain ⟨old, hold, rfl⟩ := List.mem_map.mp hkey
    rw [(hidentity old).2]
    exact h.named old hold
  · intro key hkey hstatus
    obtain ⟨old, hold, rfl⟩ := List.mem_map.mp hkey
    unfold SigningKey.retire at hstatus ⊢
    split at hstatus
    · cases hstatus
    · next hother =>
      rw [if_neg hother]
      exact h.unbounded old hold hstatus

theorem keysSound_nil : KeysSound ([] : List (SigningKey κ)) :=
  ⟨List.Pairwise.nil, fun _ => rfl, by simp, by simp⟩

/-- What every call that succeeds keeps, every run keeps. -/
theorem keyStep_keeps {P : List (SigningKey κ) → Prop} {call : Int × KeyCall κ} (h : P keys)
    (hok : ∀ keys', call.2.perform projects keys call.1 = .ok keys' → P keys') : P (keyStep projects keys call) := by
  unfold keyStep
  cases hcall : call.2.perform projects keys call.1 with
  | error error => exact h
  | ok keys' => exact hok keys' hcall

theorem KeysSound.run (h : KeysSound keys) (projects : Uuid → Bool) (calls : List (Int × KeyCall κ)) :
    KeysSound (Machine.run (keyStep projects) keys calls) := by
  refine Machine.run_preserves (fun keys call h => keyStep_keeps h fun keys' hok => ?_) keys calls h
  obtain ⟨nowSeconds, call⟩ := call
  cases call with
  | bootstrap projectId generated => exact h.bootstrap hok
  | rotate projectId generated grace => exact h.rotate hok

def Serves (keys : List (SigningKey κ)) (key : SigningKey κ) (untilSeconds : Int) : Prop :=
  ∃ row ∈ keys, row.projectId = key.projectId ∧ row.kid = key.kid ∧ row.publicKey = key.publicKey ∧
    row.validFrom = key.validFrom ∧ (row.status = .active ∧ row.validUntil = none ∨
      row.status = .grace ∧ ∃ validUntil, row.validUntil = some validUntil ∧ untilSeconds ≤ validUntil)

theorem retire_mem_of_rotate {grace : Int} (hkey : key ∈ keys)
    (hok : rotate projects keys projectId nowSeconds generated grace = .ok keys') :
    key.retire projectId (nowSeconds+grace) ∈ keys' := by
  simp only [Auth.rotate, bind_ok_iff, require_ok_iff] at hok
  obtain ⟨-, -, -, -, -, -, -, -, -, -, hinsert⟩ := hok
  rw [(insertKey_ok hinsert).2]
  exact List.mem_append_left _ (List.mem_map_of_mem hkey)

/-- A row is as a call found it, or it was active and a rotation of its project has put it into its grace period. -/
theorem mem_of_perform {call : KeyCall κ} {row : SigningKey κ} (hrow : row ∈ keys)
    (hok : call.perform projects keys nowSeconds = .ok keys') : row ∈ keys' ∨ ∃ generated grace,
      call = .rotate row.projectId generated grace ∧ row.status = .active ∧
        { row with status := .grace, validUntil := some (max (row.validFrom+1) (nowSeconds+grace)) } ∈ keys' := by
  cases call with
  | bootstrap projectId generated =>
    simp only [KeyCall.perform, Auth.bootstrap, bind_ok_iff, require_ok_iff] at hok
    obtain ⟨-, -, -, -, -, -, hinsert⟩ := hok
    obtain ⟨-, rfl⟩ := insertKey_ok hinsert
    exact .inl (List.mem_append_left _ hrow)
  | rotate projectId generated grace =>
    have hretired := retire_mem_of_rotate hrow hok
    unfold SigningKey.retire at hretired
    split at hretired
    · next hactive =>
      simp only [SigningKey.isActive, Bool.and_eq_true, decide_eq_true_eq] at hactive
      exact .inr ⟨generated, grace, by rw [hactive.1], hactive.2, hretired⟩
    · exact .inl hretired

theorem mem_run_of_grace {row : SigningKey κ} (hrow : row ∈ keys) (hstatus : row.status = .grace) (projects : Uuid → Bool)
    (calls : List (Int × KeyCall κ)) : row ∈ Machine.run (keyStep projects) keys calls := by
  refine Machine.run_preserves (P := (row ∈ ·)) (fun keys call h => keyStep_keeps (P := (row ∈ ·)) h fun keys' hok => ?_)
    keys calls hrow
  obtain hsame | ⟨-, -, -, hactive, -⟩ := mem_of_perform h hok
  · exact hsame
  · rw [hstatus] at hactive
    cases hactive

theorem Serves.step {untilSeconds : Int} {call : KeyCall κ} (h : Serves keys key untilSeconds)
    (hgrace : ∀ generated grace, call = .rotate key.projectId generated grace → untilSeconds ≤ nowSeconds+grace) :
    Serves (keyStep projects keys (nowSeconds, call)) key untilSeconds := by
  refine keyStep_keeps (P := fun keys => Serves keys key untilSeconds) h fun keys' hok => ?_
  obtain ⟨row, hrow, hproject, hkid, hpublic, hfrom, hstands⟩ := h
  obtain hkept | ⟨generated, grace, hcall, -, hretired⟩ := mem_of_perform hrow hok
  · exact ⟨row, hkept, hproject, hkid, hpublic, hfrom, hstands⟩
  · have hlong := hgrace generated grace (hproject ▸ hcall)
    exact ⟨_, hretired, hproject, hkid, hpublic, hfrom, .inr ⟨rfl, _, rfl, hlong.trans (le_max_right _ _)⟩⟩

theorem find_verificationKey {row : SigningKey κ} (h : KeysSound keys) (hrow : row ∈ keys) (hstatus : row.status ≠ .revoked) :
    (verificationKeys keys row.projectId).find?
      (fun candidate => candidate.projectId = row.projectId && candidate.kid = row.kid) = some row := by
  have hlisted : row ∈ verificationKeys keys row.projectId := by
    refine List.mem_filter.mpr ⟨hrow, ?_⟩
    cases hcase : row.status <;> simp_all
  cases hfind : (verificationKeys keys row.projectId).find?
      fun candidate => candidate.projectId = row.projectId && candidate.kid = row.kid with
  | none => simpa using List.find?_eq_none.mp hfind row hlisted
  | some found =>
    have hsame := List.find?_some hfind
    simp only [Bool.and_eq_true, decide_eq_true_eq] at hsame
    rw [h.eq_of_identity (List.mem_of_mem_filter (List.mem_of_find?_eq_some hfind)) hrow hsame]

end Invariant

/-- After every run, a project that has signing keys has exactly one that is active; and a token is accepted from its issue
to its expiry, whatever rotations come in between, as long as each of its project's has a grace period of at least the
token's lifetime less the clock skew. -/
theorem tokens_survive_rotations {κ γ : Type} [DecidableEq κ] (bounded : γ → Bool) (textLength : AccessToken κ γ → Nat)
    (projects : Uuid → Bool) (issuer : JwtIssuer) :
    (∀ (calls : List (Int × KeyCall κ)) (projectId : Uuid),
      (keysAfter projects calls).countP (·.isActive projectId) =
        if (keysAfter projects calls).any (·.projectId = projectId) then 1 else 0) ∧
    ∀ (projectId : Uuid) (before after : List (Int × KeyCall κ)) (issuedAt atSeconds : Int)
      (subject : AccessTokenSubject γ) (token : AccessToken κ γ), subject.subject ≠ 0 ∧ subject.jti ≠ 0 →
      0 < textLength token ∧ textLength token ≤ maxBearerTokenBytes →
      issueToken bounded issuer projectId issuedAt (keysAfter projects before) subject = .ok token →
      (∀ call ∈ after, issuedAt ≤ call.1) →
      (∀ call ∈ after, ∀ generated grace, call.2 = .rotate projectId generated grace →
        subject.ttlSeconds ≤ grace+maxClockSkewSeconds) →
      issuedAt ≤ atSeconds → atSeconds ≤ token.claims.exp →
      verifyAccessToken bounded issuer projectId atSeconds textLength
        (verificationKeys (keysAfter projects (before ++ after)) projectId) token = .ok token.claims := by
  have hsound := (keysSound_nil (κ := κ)).run projects
  refine ⟨fun calls => (hsound calls).single, ?_⟩
  intro projectId before after issuedAt atSeconds subject token hids hlength hissued hlater hgrace hfrom huntil
  simp only [issueToken, claimsWithSessionPolicy, bind_ok_iff, orError_ok_iff, require_ok_iff, pure_ok_iff,
    Bool.and_eq_true, decide_eq_true_eq] at hissued
  obtain ⟨key, hkey, claims, ⟨_, hshort, _, -, _, hstrings, rfl⟩, rfl⟩ := hissued
  have hmem := List.mem_of_find?_eq_some hkey
  have hsigner := List.find?_some hkey
  simp only [SigningKey.isActive, Bool.and_eq_true, decide_eq_true_eq] at hsigner
  obtain ⟨⟨⟨hproject, hactive⟩, hvalid⟩, -⟩ := hsigner
  have hskew : maxClockSkewSeconds = 30 := rfl
  -- The key that signed the token outlives it.
  have hserves : Serves (keysAfter projects (before ++ after)) key (issuedAt+subject.ttlSeconds-maxClockSkewSeconds) := by
    have hsigns (untilSeconds : Int) : Serves (keysAfter projects before) key untilSeconds :=
      ⟨key, hmem, rfl, rfl, rfl, rfl, .inl ⟨hactive, (hsound before).unbounded key hmem hactive⟩⟩
    rw [keysAfter, Machine.run_append]
    refine Machine.run_preserves_of (P := (Serves · key _)) (A := (· ∈ after)) (fun keys call hcall h => ?_) _ after
      (fun _ h => h) (hsigns _)
    refine h.step fun generated grace hrotate => ?_
    have htime := hlater call hcall
    have hlong := hgrace call hcall generated grace (hproject ▸ hrotate)
    omega
  obtain ⟨row, hrow, h1, h2, h3, h4, hstands⟩ := hserves
  have hwindow : row.status ≠ .revoked ∧ row.validUntil.all (atSeconds-maxClockSkewSeconds ≤ ·) = true := by
    obtain ⟨hstatus, hnone⟩ | ⟨hstatus, validUntil, hsome, hlate⟩ := hstands
    · simp [hstatus, hnone]
    · refine ⟨by simp [hstatus], ?_⟩
      simp only at huntil
      simp only [hsome, Option.all_some, decide_eq_true_eq]
      omega
  have hfound := find_verificationKey (hsound (before ++ after)) hrow hwindow.1
  rw [h1, h2, hproject] at hfound
  simp only at huntil
  simp only [verifyAccessToken, bind_ok_iff, orError_ok_iff, require_ok_iff, pure_ok_iff, Bool.and_eq_true,
    decide_eq_true_eq]
  have htimes : row.validFrom ≤ atSeconds+maxClockSkewSeconds := by omega
  refine ⟨(), hlength, (), by decide, (), (hsound before).named key hmem, row, hfound, (), ?_, (), h3.symm, _, hstrings, (),
    ?_, (), ?_, trivial⟩
  · exact ⟨⟨hwindow.1, htimes⟩, hwindow.2⟩
  · simpa only [true_and] using hids
  · omega

/-- A key that was replaced never signs again, and once its grace period is over no token under it is accepted, whatever
calls follow the rotation. -/
theorem retired_key_refused {κ γ : Type} [DecidableEq κ] (bounded : γ → Bool) (textLength : AccessToken κ γ → Nat)
    (projects : Uuid → Bool) (issuer : JwtIssuer) (projectId : Uuid) (before after : List (Int × KeyCall κ))
    (rotatedAt grace : Int) (generated : GeneratedKey κ) (keys : List (SigningKey κ)) (key : SigningKey κ)
    (token : AccessToken κ γ) (hkey : key ∈ keysAfter projects before) (hactive : key.isActive projectId = true)
    (hrotate : rotate projects (keysAfter projects before) projectId rotatedAt generated grace = .ok keys)
    (hkid : token.kid = key.kid) (atSeconds : Int) :
    (∀ signer, activeSigner (Machine.run (keyStep projects) keys after) projectId atSeconds = some signer →
      signer.kid ≠ key.kid) ∧
    (max (key.validFrom+1) (rotatedAt+grace)+maxClockSkewSeconds < atSeconds →
      ∀ claims, verifyAccessToken bounded issuer projectId atSeconds textLength
        (verificationKeys (Machine.run (keyStep projects) keys after) projectId) token ≠ .ok claims) := by
  have hsound := ((keysSound_nil.run projects before).rotate hrotate).run projects after
  have hkept := retire_mem_of_rotate hkey hrotate
  rw [SigningKey.retire, if_pos hactive] at hkept
  have hlater := mem_run_of_grace hkept rfl projects after
  simp only [SigningKey.isActive, Bool.and_eq_true, decide_eq_true_eq] at hactive
  constructor
  · intro signer hsigner hsame
    have hsigns := List.find?_some hsigner
    simp only [SigningKey.isActive, Bool.and_eq_true, decide_eq_true_eq] at hsigns
    rw [hsound.eq_of_identity (List.mem_of_find?_eq_some hsigner) hlater ⟨hsigns.1.1.1.trans hactive.1.symm, hsame⟩]
      at hsigns
    simp at hsigns
  · intro hlate claims hok
    have hfound := find_verificationKey hsound hlater (by simp)
    rw [hactive.1] at hfound
    simp only [verifyAccessToken, bind_ok_iff, orError_ok_iff, require_ok_iff, Bool.and_eq_true, decide_eq_true_eq,
      hkid, hfound, Option.some.injEq] at hok
    obtain ⟨-, -, -, -, -, -, -, rfl, -, hwindow, -⟩ := hok
    have hend := hwindow.2
    simp only [Option.all_some, decide_eq_true_eq] at hend
    omega

private def bootKey : GeneratedKey Nat := ⟨['k', 'e', 'y', '_', '0', '0', '0', '1'], 1, by decide⟩

private def nextKey : GeneratedKey Nat := ⟨['k', 'e', 'y', '_', '0', '0', '0', '2'], 2, by decide⟩

private def longToken : AccessToken Nat Unit :=
  ⟨"EdDSA", "JWT", bootKey.kid, ⟨['i'], ['a'], 5, 1, 6, none, 1, 1, 901, ['u'], ()⟩, 1⟩

private def checked (grace atSeconds : Int) : Except JwtError (AccessTokenClaims Unit) :=
  verifyAccessToken (fun _ => true) ⟨['i'], ['a']⟩ 1 atSeconds (fun _ => 300) (verificationKeys
    (keysAfter (fun _ => true) [(1, .bootstrap 1 bootKey), (2, .rotate 1 nextKey grace)]) 1) longToken

theorem token_survives_rotation : checked 900 901 = .ok longToken.claims :=
  (tokens_survive_rotations (fun _ => true) (fun _ => 300) (fun _ => true) ⟨['i'], ['a']⟩).2 1 [(1, .bootstrap 1 bootKey)]
    [(2, .rotate 1 nextKey 900)] 1 901 ⟨5, 6, ['u'], (), none, 900⟩ longToken (by decide) (by decide) rfl (by simp)
    (by simp [maxClockSkewSeconds]) (by decide) (by decide)

/-- Under a grace period of a minute the token is refused long before it expires. -/
theorem token_outlives_its_key :
    issueToken (fun _ => true) ⟨['i'], ['a']⟩ 1 1 (keysAfter (fun _ => true) [(1, .bootstrap 1 bootKey)])
      ⟨5, 6, ['u'], (), none, 900⟩ = .ok longToken ∧
    (rotate (fun _ => true) (keysAfter (fun _ => true) [(1, .bootstrap 1 bootKey)]) 1 2 nextKey 60).isOk = true ∧
    checked 60 93 = .error .unknownKey ∧ 93 < longToken.claims.exp := ⟨rfl, rfl, rfl, by decide⟩

theorem replaced_key_refused : checked 60 93 ≠ .ok longToken.claims :=
  (retired_key_refused (fun _ => true) (fun _ => 300) (fun _ => true) ⟨['i'], ['a']⟩ 1 [(1, .bootstrap 1 bootKey)] [] 2 60
    nextKey _ ⟨1, bootKey.kid, 1, .active, 1, none⟩ longToken (by decide) rfl rfl rfl 93).2 (by decide) _

end Ffdb.Auth
