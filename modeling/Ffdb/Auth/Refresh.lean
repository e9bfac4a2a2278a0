import Ffdb.Auth.Token
import Ffdb.Lib.Keyed
import Ffdb.Lib.Machine
import Ffdb.Lib.Saturating
import Mathlib.Data.List.Induction

/-! Sessions with refresh tokens that are used once. A token that is presented again ends its family. -/
namespace Ffdb.Auth
open Fallible

def refreshTokenTtlMs : Int := 30*24*60*60*1000

structure SessionRecord where
  id : Uuid
  projectId : Uuid
  userId : Uuid
  expiresAtMs : Int64
  revokedAtMs : Option Int64 := none
  revokeReason : Option (List Char) := none
  deriving DecidableEq

structure RefreshFamily where
  id : Uuid
  projectId : Uuid
  userId : Uuid
  sessionId : Uuid
  revokedAtMs : Option Int64 := none
  revokeReason : Option (List Char) := none
  deriving DecidableEq

/-- A record that is revoked stays revoked as it was. -/
def RefreshFamily.revoke (family : RefreshFamily) (nowMs : Int64) (reason : List Char) : RefreshFamily :=
  { family with
    revokedAtMs := some (family.revokedAtMs.getD nowMs)
    revokeReason := some (family.revokeReason.getD reason) }

def SessionRecord.revoke (session : SessionRecord) (nowMs : Int64) (reason : List Char) : SessionRecord :=
  { session with
    revokedAtMs := some (session.revokedAtMs.getD nowMs)
    revokeReason := some (session.revokeReason.getD reason) }

structure RefreshTokenRecord where
  id : Uuid
  familyId : Uuid
  parts : TokenParts
  issuedAtMs : Int64
  expiresAtMs : Int64
  usedAtMs : Option Int64 := none
  replacedBy : Option Uuid := none
  deriving DecidableEq

structure RefreshIssue where
  plaintext : List Char
  session : SessionRecord
  family : RefreshFamily
  token : RefreshTokenRecord
  deriving DecidableEq

inductive RefreshRotation where
  | rotated (plaintext : List Char) (token : RefreshTokenRecord) (family : RefreshFamily)
  | reuseDetected (familyId sessionId : Uuid)
  | rejected
  deriving DecidableEq

inductive RefreshStoreError where
  | unavailable
  | invalid
  deriving DecidableEq

structure RefreshState where
  sessions : Table Uuid SessionRecord := ∅
  families : Table Uuid RefreshFamily := ∅
  tokens : Table Uuid RefreshTokenRecord := ∅
  tokenByPrefix : Table (List Char) Uuid := ∅

structure SessionMint where
  sessionId : Uuid
  familyId : Uuid
  tokenId : Uuid
  entropy : Option Entropy

structure TokenMint where
  tokenId : Uuid
  entropy : Option Entropy

structure Presented where
  tokenId : Uuid
  current : RefreshTokenRecord
  family : RefreshFamily
  session : SessionRecord

def Presented.live (found : Presented) (nowMs : Int64) : Bool :=
  !(found.family.revokedAtMs.isSome || found.session.revokedAtMs.isSome || found.session.expiresAtMs ≤ nowMs ||
    found.current.expiresAtMs ≤ nowMs)

namespace RefreshState
variable (codec : OpaqueTokenCodec) (state : RefreshState)

def enrol (session : SessionRecord) (family : RefreshFamily) (token : RefreshTokenRecord) : RefreshState where
  sessions := state.sessions.insert session.id session
  families := state.families.insert family.id family
  tokens := state.tokens.insert token.id token
  tokenByPrefix := state.tokenByPrefix.insert token.parts.tokenPrefix token.id

def issueSession (projectId userId : Uuid) (nowMs : Int64) (mint : SessionMint) :
    RefreshState × Except RefreshStoreError RefreshIssue :=
  if nowMs.toInt + refreshTokenTtlMs < 2^63 then
    let expiresAtMs := Int64.ofInt (nowMs.toInt + refreshTokenTtlMs)
    match codec.issue mint.entropy with
    | none => (state, .error .unavailable)
    | some (plaintext, parts) =>
      let session : SessionRecord := { id := mint.sessionId, projectId, userId, expiresAtMs }
      let family : RefreshFamily := { id := mint.familyId, projectId, userId, sessionId := session.id }
      let token : RefreshTokenRecord :=
        { id := mint.tokenId, familyId := family.id, parts, issuedAtMs := nowMs, expiresAtMs }
      (state.enrol session family token, .ok ⟨plaintext, session, family, token⟩)
  else (state, .error .invalid)

def revokeFamily (familyId : Uuid) (nowMs : Int64) (reason : List Char) : RefreshState :=
  match state.families.lookup familyId with
  | none => state
  | some family =>
    let families := state.families.insert familyId (family.revoke nowMs reason)
    match state.sessions.lookup family.sessionId with
    | none => { state with families }
    | some session =>
      { state with
        families
        sessions := state.sessions.insert family.sessionId (session.revoke nowMs reason) }

/-- The token that a text stands for; an error is the answer of a rotation that ends here. -/
def present (presented : List Char) : Except (Except RefreshStoreError RefreshRotation) Presented := do
  let candidate ← orError (codec.parseAndDigest presented) (.ok .rejected)
  let tokenId ← orError (state.tokenByPrefix.lookup candidate.tokenPrefix) (.ok .rejected)
  let current ← orError (state.tokens.lookup tokenId) (.error .unavailable)
  require (candidate.digest = current.parts.digest) (.ok .rejected)
  let family ← orError (state.families.lookup current.familyId) (.error .unavailable)
  let session ← orError (state.sessions.lookup family.sessionId) (.error .unavailable)
  pure ⟨tokenId, current, family, session⟩

def replace (found : Presented) (nowMs : Int64) (next : RefreshTokenRecord) : RefreshState :=
  { state with
    tokens := (state.tokens.insert found.tokenId
      { found.current with usedAtMs := some nowMs, replacedBy := some next.id }).insert next.id next
    tokenByPrefix := state.tokenByPrefix.insert next.parts.tokenPrefix next.id }

def rotate (presented : List Char) (nowMs : Int64) (mint : TokenMint) :
    RefreshState × Except RefreshStoreError RefreshRotation :=
  match state.present codec presented with
  | .error answer => (state, answer)
  | .ok found =>
    if !found.live nowMs then (state, .ok .rejected)
    else if found.current.usedAtMs.isSome then
      (state.revokeFamily found.family.id nowMs "refresh_reuse".toList,
        .ok (.reuseDetected found.family.id found.family.sessionId))
    else
      match codec.issue mint.entropy with
      | none => (state, .error .unavailable)
      | some (plaintext, parts) =>
        let next : RefreshTokenRecord :=
          { id := mint.tokenId, familyId := found.family.id, parts, issuedAtMs := nowMs,
            expiresAtMs := found.current.expiresAtMs }
        (state.replace found nowMs next, .ok (.rotated plaintext next found.family))

def familyOf (sessionId : Uuid) : Option Uuid :=
  (state.families.entries.find? fun entry => entry.2.sessionId = sessionId).map fun entry => entry.2.id

def revokeSession (sessionId : Uuid) (nowMs : Int64) (reason : List Char) :
    RefreshState × Except RefreshStoreError Bool :=
  if reason.isEmpty || 64 < Text.byteLength reason then (state, .error .invalid)
  else
    match state.familyOf sessionId with
    | none => (state, .ok false)
    | some familyId => (state.revokeFamily familyId nowMs reason, .ok true)

end RefreshState

inductive RefreshCall where
  | issueSession (projectId userId : Uuid) (nowMs : Int64) (mint : SessionMint)
  | rotate (presented : List Char) (nowMs : Int64) (mint : TokenMint)
  | revokeSession (sessionId : Uuid) (nowMs : Int64) (reason : List Char)

inductive RefreshAnswer where
  | issued (result : Except RefreshStoreError RefreshIssue)
  | rotation (result : Except RefreshStoreError RefreshRotation)
  | revoked (result : Except RefreshStoreError Bool)

section Steps
variable (codec : OpaqueTokenCodec)

def refreshCall (state : RefreshState) : RefreshCall → RefreshState × RefreshAnswer
  | .issueSession projectId userId nowMs mint =>
    let issued := state.issueSession codec projectId userId nowMs mint
    (issued.1, .issued issued.2)
  | .rotate presented nowMs mint =>
    let rotated := state.rotate codec presented nowMs mint
    (rotated.1, .rotation rotated.2)
  | .revokeSession sessionId nowMs reason =>
    let revoked := state.revokeSession sessionId nowMs reason
    (revoked.1, .revoked revoked.2)

def refreshStep (state : RefreshState) (call : RefreshCall) : RefreshState := (refreshCall codec state call).1

def refreshTrace (state : RefreshState) (call : RefreshCall) : List (RefreshCall × RefreshAnswer) :=
  [(call, (refreshCall codec state call).2)]

def RefreshCall.target (state : RefreshState) : RefreshCall → Option Uuid
  | .issueSession _ _ _ mint => some mint.familyId
  | .rotate presented _ _ =>
    match state.present codec presented with
    | .ok found => some found.family.id
    | .error _ => none
  | .revokeSession sessionId _ _ => state.familyOf sessionId

def refreshRun (calls : List RefreshCall) : RefreshState := Machine.run (refreshStep codec) {} calls

end Steps

section Mints
variable (codec : OpaqueTokenCodec)

namespace RefreshCall

def tokenIds : RefreshCall → List Uuid
  | .issueSession _ _ _ mint => [mint.tokenId]
  | .rotate _ _ mint => [mint.tokenId]
  | .revokeSession _ _ _ => []

def parts : RefreshCall → List TokenParts
  | .issueSession _ _ _ mint => (mint.entropy.map codec.parts).toList
  | .rotate _ _ mint => (mint.entropy.map codec.parts).toList
  | .revokeSession _ _ _ => []

def familyIds : RefreshCall → List Uuid
  | .issueSession _ _ _ mint => [mint.familyId]
  | _ => []

def sessionIds : RefreshCall → List Uuid
  | .issueSession _ _ _ mint => [mint.sessionId]
  | _ => []

end RefreshCall

structure UniqueMints (calls : List RefreshCall) : Prop where
  tokenIds : (calls.flatMap RefreshCall.tokenIds).Nodup
  parts : (calls.flatMap (RefreshCall.parts codec)).Nodup
  familyIds : (calls.flatMap RefreshCall.familyIds).Nodup
  sessionIds : (calls.flatMap RefreshCall.sessionIds).Nodup

structure RefreshState.Sound (calls : List RefreshCall) (state : RefreshState) : Prop where
  token : ∀ {t record}, state.tokens.lookup t = some record →
    record.id = t ∧ t ∈ calls.flatMap RefreshCall.tokenIds ∧ record.parts ∈ calls.flatMap (RefreshCall.parts codec)
  parts_inj : ∀ {t t' record record'}, state.tokens.lookup t = some record → state.tokens.lookup t' = some record' →
    record.parts = record'.parts → t = t'
  byPrefix : ∀ {tokenPrefix t}, state.tokenByPrefix.lookup tokenPrefix = some t →
    ∃ record, state.tokens.lookup t = some record ∧ record.parts.tokenPrefix = tokenPrefix
  family : ∀ {f family}, state.families.lookup f = some family →
    family.id = f ∧ f ∈ calls.flatMap RefreshCall.familyIds ∧ ∃ session, state.sessions.lookup family.sessionId = some session
  session : ∀ {s session}, state.sessions.lookup s = some session → s ∈ calls.flatMap RefreshCall.sessionIds
  session_inj : ∀ {f f' family family'}, state.families.lookup f = some family →
    state.families.lookup f' = some family' → family.sessionId = family'.sessionId → f = f'
  lifetime : ∀ {t record}, state.tokens.lookup t = some record →
    ∃ family session, state.families.lookup record.familyId = some family ∧
      state.sessions.lookup family.sessionId = some session ∧ record.expiresAtMs = session.expiresAtMs
  unused : ∀ {t t' record record'}, state.tokens.lookup t = some record → state.tokens.lookup t' = some record' →
    record.familyId = record'.familyId → record.usedAtMs = none → record'.usedAtMs = none → t = t'

variable {codec} {calls : List RefreshCall} {call : RefreshCall} {state : RefreshState}

theorem UniqueMints.fresh (h : UniqueMints codec (calls ++ [call])) :
    (∀ t ∈ call.tokenIds, t ∉ calls.flatMap RefreshCall.tokenIds) ∧
    (∀ p ∈ call.parts codec, p ∉ calls.flatMap (RefreshCall.parts codec)) ∧
    (∀ f ∈ call.familyIds, f ∉ calls.flatMap RefreshCall.familyIds) ∧
    ∀ s ∈ call.sessionIds, s ∉ calls.flatMap RefreshCall.sessionIds := by
  have disjoint : ∀ {α : Type} (draws : RefreshCall → List α), ((calls ++ [call]).flatMap draws).Nodup →
      ∀ a ∈ draws call, a ∉ calls.flatMap draws := by
    intro α draws hnodup a ha hbefore
    rw [List.flatMap_append, List.nodup_append] at hnodup
    exact hnodup.2.2 a hbefore a (by simpa using ha) rfl
  exact ⟨disjoint _ h.tokenIds, disjoint _ h.parts, disjoint _ h.familyIds, disjoint _ h.sessionIds⟩

theorem UniqueMints.of_append {after : List RefreshCall} (h : UniqueMints codec (calls ++ after)) :
    UniqueMints codec calls := by
  obtain ⟨htokens, hparts, hfamilies, hsessions⟩ := h
  rw [List.flatMap_append, List.nodup_append] at htokens hparts hfamilies hsessions
  exact ⟨htokens.1, hparts.1, hfamilies.1, hsessions.1⟩

namespace RefreshState.Sound

theorem empty : ({} : RefreshState).Sound codec [] := by
  constructor <;> intros <;> contradiction

theorem mono (h : state.Sound codec calls) (call : RefreshCall) : state.Sound codec (calls ++ [call]) where
  token hlookup := by
    obtain ⟨hid, hmem, hparts⟩ := h.token hlookup
    simp only [List.flatMap_append, List.mem_append]
    exact ⟨hid, .inl hmem, .inl hparts⟩
  parts_inj := h.parts_inj
  byPrefix := h.byPrefix
  family hlookup := by
    obtain ⟨hid, hmem, hsession⟩ := h.family hlookup
    simp only [List.flatMap_append, List.mem_append]
    exact ⟨hid, .inl hmem, hsession⟩
  session hlookup := by
    simp only [List.flatMap_append, List.mem_append]
    exact .inl (h.session hlookup)
  session_inj := h.session_inj
  lifetime := h.lifetime
  unused := h.unused

theorem enrol {session : SessionRecord} {family : RefreshFamily} {token : RefreshTokenRecord}
    (h : state.Sound codec calls) (hunique : UniqueMints codec (calls ++ [call]))
    (hsession : session.id ∈ call.sessionIds) (hfamily : family.id ∈ call.familyIds)
    (htoken : token.id ∈ call.tokenIds) (hparts : token.parts ∈ call.parts codec)
    (hfs : family.sessionId = session.id) (htf : token.familyId = family.id)
    (hexpiry : token.expiresAtMs = session.expiresAtMs) :
    (state.enrol session family token).Sound codec (calls ++ [call]) := by
  obtain ⟨freshTokens, freshParts, freshFamilies, freshSessions⟩ := hunique.fresh
  have later : ∀ {α : Type} (draws : RefreshCall → List α) {a : α},
      a ∈ (calls ++ [call]).flatMap draws ↔ a ∈ calls.flatMap draws ∨ a ∈ draws call := by
    intro α draws a
    simp
  refine ⟨?_, ?_, ?_, ?_, ?_, ?_, ?_, ?_⟩
  · intro t record hlookup
    rw [later, later]
    obtain ⟨rfl, rfl⟩ | ⟨-, hold⟩ := AList.lookup_insert_eq_some_iff.mp hlookup
    · exact ⟨rfl, .inr htoken, .inr hparts⟩
    · obtain ⟨hid, hmem, hmem'⟩ := h.token hold
      exact ⟨hid, .inl hmem, .inl hmem'⟩
  · intro t t' record record' hlookup hlookup' hsame
    obtain ⟨rfl, rfl⟩ | ⟨-, hold⟩ := AList.lookup_insert_eq_some_iff.mp hlookup
    · obtain ⟨rfl, rfl⟩ | ⟨-, hold'⟩ := AList.lookup_insert_eq_some_iff.mp hlookup'
      · rfl
      · exact absurd (hsame ▸ (h.token hold').2.2) (freshParts _ hparts)
    · obtain ⟨rfl, rfl⟩ | ⟨-, hold'⟩ := AList.lookup_insert_eq_some_iff.mp hlookup'
      · exact absurd (hsame ▸ (h.token hold).2.2) (freshParts _ hparts)
      · exact h.parts_inj hold hold' hsame
  · intro tokenPrefix t hlookup
    obtain ⟨rfl, rfl⟩ | ⟨-, hold⟩ := AList.lookup_insert_eq_some_iff.mp hlookup
    · exact ⟨token, AList.lookup_insert _, rfl⟩
    · obtain ⟨record, hrecord, hleading⟩ := h.byPrefix hold
      refine ⟨record, ?_, hleading⟩
      refine AList.lookup_insert_eq_some_iff.mpr (.inr ⟨?_, hrecord⟩)
      rintro rfl
      exact freshTokens _ htoken (h.token hrecord).2.1
  · intro f family' hlookup
    rw [later]
    obtain ⟨rfl, rfl⟩ | ⟨-, hold⟩ := AList.lookup_insert_eq_some_iff.mp hlookup
    · refine ⟨rfl, .inr hfamily, session, ?_⟩
      rw [hfs]
      exact AList.lookup_insert _
    · obtain ⟨hid, hmem, session', hsession'⟩ := h.family hold
      refine ⟨hid, .inl hmem, session', ?_⟩
      refine AList.lookup_insert_eq_some_iff.mpr (.inr ⟨?_, hsession'⟩)
      intro hsame
      exact freshSessions _ hsession (h.session (hsame ▸ hsession'))
  · intro s session' hlookup
    rw [later]
    obtain ⟨rfl, rfl⟩ | ⟨-, hold⟩ := AList.lookup_insert_eq_some_iff.mp hlookup
    · exact .inr hsession
    · exact .inl (h.session hold)
  · intro f f' family' family'' hlookup hlookup' hsame
    have hnew : ∀ {f : Uuid} {family' : RefreshFamily}, state.families.lookup f = some family' →
        family'.sessionId ≠ family.sessionId := by
      intro f family' hold hsame
      obtain ⟨-, -, session', hsession'⟩ := h.family hold
      rw [hsame, hfs] at hsession'
      exact freshSessions _ hsession (h.session hsession')
    obtain ⟨rfl, rfl⟩ | ⟨-, hold⟩ := AList.lookup_insert_eq_some_iff.mp hlookup
    · obtain ⟨rfl, rfl⟩ | ⟨-, hold'⟩ := AList.lookup_insert_eq_some_iff.mp hlookup'
      · rfl
      · exact absurd hsame.symm (hnew hold')
    · obtain ⟨rfl, rfl⟩ | ⟨-, hold'⟩ := AList.lookup_insert_eq_some_iff.mp hlookup'
      · exact absurd hsame (hnew hold)
      · exact h.session_inj hold hold' hsame
  · intro t record hlookup
    obtain ⟨rfl, rfl⟩ | ⟨-, hold⟩ := AList.lookup_insert_eq_some_iff.mp hlookup
    · refine ⟨family, session, ?_, ?_, hexpiry⟩
      · rw [htf]
        exact AList.lookup_insert _
      · rw [hfs]
        exact AList.lookup_insert _
    · obtain ⟨family', session', hfamily', hsession', hexpiry'⟩ := h.lifetime hold
      refine ⟨family', session', ?_, ?_, hexpiry'⟩
      · refine AList.lookup_insert_eq_some_iff.mpr (.inr ⟨?_, hfamily'⟩)
        intro hsame
        exact freshFamilies _ hfamily (hsame ▸ (h.family hfamily').2.1)
      · refine AList.lookup_insert_eq_some_iff.mpr (.inr ⟨?_, hsession'⟩)
        intro hsame
        exact freshSessions _ hsession (hsame ▸ h.session hsession')
  · intro t t' record record' hlookup hlookup' hsame hunused hunused'
    have hnew : ∀ {t : Uuid} {record : RefreshTokenRecord}, state.tokens.lookup t = some record →
        record.familyId ≠ token.familyId := by
      intro t record hold hsame
      obtain ⟨family', -, hfamily', -, -⟩ := h.lifetime hold
      rw [hsame, htf] at hfamily'
      exact freshFamilies _ hfamily (h.family hfamily').2.1
    obtain ⟨rfl, rfl⟩ | ⟨-, hold⟩ := AList.lookup_insert_eq_some_iff.mp hlookup
    · obtain ⟨rfl, rfl⟩ | ⟨-, hold'⟩ := AList.lookup_insert_eq_some_iff.mp hlookup'
      · rfl
      · exact absurd hsame.symm (hnew hold')
    · obtain ⟨rfl, rfl⟩ | ⟨-, hold'⟩ := AList.lookup_insert_eq_some_iff.mp hlookup'
      · exact absurd hsame (hnew hold)
      · exact h.unused hold hold' hsame hunused hunused'

end RefreshState.Sound

section Revocation
variable {f g : Uuid} {nowMs : Int64} {reason : List Char}

@[simp] theorem RefreshState.tokens_revokeFamily : (state.revokeFamily f nowMs reason).tokens = state.tokens := by
  unfold RefreshState.revokeFamily
  cases state.families.lookup f with
  | none => rfl
  | some family =>
    simp only
    cases state.sessions.lookup family.sessionId with
    | none => rfl
    | some session => rfl

@[simp] theorem RefreshState.tokenByPrefix_revokeFamily :
    (state.revokeFamily f nowMs reason).tokenByPrefix = state.tokenByPrefix := by
  unfold RefreshState.revokeFamily
  cases state.families.lookup f with
  | none => rfl
  | some family =>
    simp only
    cases state.sessions.lookup family.sessionId with
    | none => rfl
    | some session => rfl

theorem RefreshState.families_revokeFamily :
    (state.revokeFamily f nowMs reason).families.lookup g =
      if g = f then (state.families.lookup f).map fun family => family.revoke nowMs reason
      else state.families.lookup g := by
  unfold RefreshState.revokeFamily
  cases hfamily : state.families.lookup f with
  | none =>
    by_cases hg : g = f
    · subst hg
      simp [hfamily]
    · simp [hg]
  | some family =>
    have hinsert : (state.families.insert f (family.revoke nowMs reason)).lookup g =
        if g = f then some (family.revoke nowMs reason) else state.families.lookup g := by
      by_cases hg : g = f
      · rw [if_pos hg, hg, AList.lookup_insert]
      · rw [if_neg hg, AList.lookup_insert_ne hg]
    simp only
    cases state.sessions.lookup family.sessionId with
    | none => exact hinsert
    | some session => exact hinsert

theorem RefreshState.sessions_revokeFamily {family : RefreshFamily} (hfamily : state.families.lookup f = some family)
    (s : Uuid) :
    (state.revokeFamily f nowMs reason).sessions.lookup s =
      if s = family.sessionId then (state.sessions.lookup s).map fun session => session.revoke nowMs reason
      else state.sessions.lookup s := by
  unfold RefreshState.revokeFamily
  simp only [hfamily]
  cases hsession : state.sessions.lookup family.sessionId with
  | none =>
    by_cases hs : s = family.sessionId
    · subst hs
      simp [hsession]
    · simp [hs]
  | some session =>
    by_cases hs : s = family.sessionId
    · subst hs
      simp [hsession]
    · simp [hs]

theorem RefreshState.revokeFamily_of_none (h : state.families.lookup f = none) :
    state.revokeFamily f nowMs reason = state := by
  unfold RefreshState.revokeFamily
  rw [h]

theorem RefreshState.family_of_revokeFamily {family : RefreshFamily}
    (h : (state.revokeFamily f nowMs reason).families.lookup g = some family) :
    ∃ old, state.families.lookup g = some old ∧ family.id = old.id ∧ family.sessionId = old.sessionId := by
  rw [families_revokeFamily] at h
  by_cases hg : g = f
  · rw [if_pos hg] at h
    obtain ⟨old, hold, rfl⟩ := Option.map_eq_some_iff.mp h
    exact ⟨old, hg ▸ hold, rfl, rfl⟩
  · rw [if_neg hg] at h
    exact ⟨family, h, rfl, rfl⟩

theorem RefreshState.revokeFamily_of_family {family : RefreshFamily} (h : state.families.lookup g = some family) :
    ∃ family', (state.revokeFamily f nowMs reason).families.lookup g = some family' ∧
      family'.sessionId = family.sessionId ∧ (family.revokedAtMs.isSome → family'.revokedAtMs.isSome) := by
  rw [families_revokeFamily]
  by_cases hg : g = f
  · rw [if_pos hg, ← hg, h]
    exact ⟨family.revoke nowMs reason, rfl, rfl, fun _ => rfl⟩
  · rw [if_neg hg]
    exact ⟨family, h, rfl, id⟩

/-- No session comes or goes, and none lives longer. -/
theorem RefreshState.session_revokeFamily (s : Uuid) :
    ((state.revokeFamily f nowMs reason).sessions.lookup s).map SessionRecord.expiresAtMs =
      (state.sessions.lookup s).map SessionRecord.expiresAtMs := by
  cases hfamily : state.families.lookup f with
  | none => rw [revokeFamily_of_none hfamily]
  | some family =>
    rw [sessions_revokeFamily hfamily]
    by_cases hs : s = family.sessionId
    · rw [if_pos hs, Option.map_map]
      rfl
    · rw [if_neg hs]

end Revocation

namespace RefreshState.Sound
variable {nowMs : Int64} {reason : List Char} {f : Uuid}

theorem session_of_revokeFamily {s : Uuid} {session : SessionRecord}
    (h : (state.revokeFamily f nowMs reason).sessions.lookup s = some session) :
    ∃ old, state.sessions.lookup s = some old ∧ old.expiresAtMs = session.expiresAtMs := by
  have hmap : Option.map _ ((state.revokeFamily f nowMs reason).sessions.lookup s) = _ := session_revokeFamily s
  rw [h] at hmap
  exact Option.map_eq_some_iff.mp hmap.symm

theorem revokeFamily_of_session {s : Uuid} {session : SessionRecord} (h : state.sessions.lookup s = some session) :
    ∃ session', (state.revokeFamily f nowMs reason).sessions.lookup s = some session' ∧
      session'.expiresAtMs = session.expiresAtMs := by
  have hmap : Option.map _ ((state.revokeFamily f nowMs reason).sessions.lookup s) = _ := session_revokeFamily s
  rw [h] at hmap
  exact Option.map_eq_some_iff.mp hmap

theorem revokeFamily (h : state.Sound codec calls) : (state.revokeFamily f nowMs reason).Sound codec calls where
  token hlookup := h.token (tokens_revokeFamily ▸ hlookup)
  parts_inj hlookup hlookup' hsame := by
    rw [tokens_revokeFamily] at hlookup hlookup'
    exact h.parts_inj hlookup hlookup' hsame
  byPrefix hlookup := by
    rw [tokenByPrefix_revokeFamily] at hlookup
    rw [tokens_revokeFamily]
    exact h.byPrefix hlookup
  family hlookup := by
    obtain ⟨old, hold, hid, hsession⟩ := family_of_revokeFamily hlookup
    obtain ⟨hid', hmem, session, hlookup'⟩ := h.family hold
    obtain ⟨session', hlookup'', -⟩ := revokeFamily_of_session hlookup'
    rw [hid, hsession]
    exact ⟨hid', hmem, session', hlookup''⟩
  session hlookup := by
    obtain ⟨old, hold, -⟩ := session_of_revokeFamily hlookup
    exact h.session hold
  session_inj hlookup hlookup' hsame := by
    obtain ⟨old, hold, -, hsession⟩ := family_of_revokeFamily hlookup
    obtain ⟨old', hold', -, hsession'⟩ := family_of_revokeFamily hlookup'
    exact h.session_inj hold hold' (hsession ▸ hsession' ▸ hsame)
  lifetime hlookup := by
    rw [tokens_revokeFamily] at hlookup
    obtain ⟨family, session, hfamily, hsession, hexpiry⟩ := h.lifetime hlookup
    obtain ⟨family', hfamily', hid, -⟩ := revokeFamily_of_family hfamily
    obtain ⟨session', hsession', hexpiry'⟩ := revokeFamily_of_session hsession
    exact ⟨family', session', hfamily', hid ▸ hsession', hexpiry'.trans hexpiry.symm |>.symm⟩
  unused hlookup hlookup' hsame hunused hunused' := by
    rw [tokens_revokeFamily] at hlookup hlookup'
    exact h.unused hlookup hlookup' hsame hunused hunused'

/-- A record after a replacement is the new one, or one from before that may have been used since. -/
theorem token_of_replace {found : Presented} {next record : RefreshTokenRecord} {t : Uuid}
    (hcurrent : state.tokens.lookup found.tokenId = some found.current)
    (h : (state.replace found nowMs next).tokens.lookup t = some record) :
    (t = next.id ∧ record = next) ∨
    t ≠ next.id ∧ ∃ old, state.tokens.lookup t = some old ∧ record.id = old.id ∧ record.familyId = old.familyId ∧
      record.parts = old.parts ∧ record.expiresAtMs = old.expiresAtMs ∧
      (record.usedAtMs = none → old.usedAtMs = none ∧ t ≠ found.tokenId) := by
  obtain hnew | ⟨hne, hold⟩ := AList.lookup_insert_eq_some_iff.mp h
  · exact .inl hnew
  · obtain ⟨rfl, rfl⟩ | ⟨hne', hold⟩ := AList.lookup_insert_eq_some_iff.mp hold
    · exact .inr ⟨hne, found.current, hcurrent, rfl, rfl, rfl, rfl, fun h => nomatch h⟩
    · exact .inr ⟨hne, record, hold, rfl, rfl, rfl, rfl, fun h => ⟨h, hne'⟩⟩

theorem replace_of_token (nowMs : Int64) {found : Presented} {next old : RefreshTokenRecord} {t : Uuid}
    (hcurrent : state.tokens.lookup found.tokenId = some found.current) (hne : t ≠ next.id)
    (h : state.tokens.lookup t = some old) :
    ∃ record, (state.replace found nowMs next).tokens.lookup t = some record ∧ record.parts = old.parts ∧
      record.familyId = old.familyId ∧ (old.usedAtMs.isSome → record.usedAtMs.isSome) ∧
      (t = found.tokenId → record.usedAtMs.isSome) ∧ (t ≠ found.tokenId → record = old) := by
  by_cases ht : t = found.tokenId
  · subst ht
    rw [hcurrent] at h
    cases h
    refine ⟨{ found.current with usedAtMs := some nowMs, replacedBy := some next.id }, ?_, rfl, rfl, fun _ => rfl,
      fun _ => rfl, fun h => absurd rfl h⟩
    exact (AList.lookup_insert_ne hne).trans (AList.lookup_insert _)
  · refine ⟨old, ?_, rfl, rfl, id, fun h => absurd h ht, fun _ => rfl⟩
    exact ((AList.lookup_insert_ne hne).trans (AList.lookup_insert_ne ht)).trans h

theorem replace {found : Presented} {next : RefreshTokenRecord} (h : state.Sound codec calls)
    (hunique : UniqueMints codec (calls ++ [call])) (hid : next.id ∈ call.tokenIds)
    (hparts : next.parts ∈ call.parts codec) (hcurrent : state.tokens.lookup found.tokenId = some found.current)
    (hfree : found.current.usedAtMs = none) (hfamily : next.familyId = found.current.familyId)
    (hexpiry : next.expiresAtMs = found.current.expiresAtMs) :
    (state.replace found nowMs next).Sound codec (calls ++ [call]) := by
  obtain ⟨freshTokens, freshParts, -, -⟩ := hunique.fresh
  have hkept : ∀ {t : Uuid} {record : RefreshTokenRecord}, state.tokens.lookup t = some record → t ≠ next.id := by
    rintro t record hlookup rfl
    exact freshTokens _ hid (h.token hlookup).2.1
  have hmono := h.mono call
  refine ⟨?_, ?_, ?_, hmono.family, hmono.session, hmono.session_inj, ?_, ?_⟩
  · intro t record hlookup
    obtain ⟨rfl, rfl⟩ | ⟨-, old, hold, hsame, -, hsame', -⟩ := token_of_replace hcurrent hlookup
    · refine ⟨rfl, ?_, ?_⟩
      · simp [hid]
      · simp [hparts]
    · rw [hsame, hsame']
      exact hmono.token hold
  · intro t t' record record' hlookup hlookup' hsame
    obtain ⟨rfl, rfl⟩ | ⟨-, old, hold, -, -, hp, -⟩ := token_of_replace hcurrent hlookup
    · obtain ⟨rfl, rfl⟩ | ⟨-, old', hold', -, -, hp', -⟩ := token_of_replace hcurrent hlookup'
      · rfl
      · exact absurd (hsame.trans hp' ▸ (h.token hold').2.2) (freshParts _ hparts)
    · obtain ⟨rfl, rfl⟩ | ⟨-, old', hold', -, -, hp', -⟩ := token_of_replace hcurrent hlookup'
      · exact absurd (hsame.symm.trans hp ▸ (h.token hold).2.2) (freshParts _ hparts)
      · exact h.parts_inj hold hold' (hp.symm.trans (hsame.trans hp'))
  · intro tokenPrefix t hlookup
    obtain ⟨rfl, rfl⟩ | ⟨-, hold⟩ := AList.lookup_insert_eq_some_iff.mp hlookup
    · exact ⟨next, AList.lookup_insert _, rfl⟩
    · obtain ⟨record, hrecord, hleading⟩ := h.byPrefix hold
      obtain ⟨record', hrecord', hp, -⟩ := replace_of_token nowMs hcurrent (hkept hrecord) hrecord
      exact ⟨record', hrecord', hp ▸ hleading⟩
  · intro t record hlookup
    obtain ⟨rfl, rfl⟩ | ⟨-, old, hold, -, hf, -, he, -⟩ := token_of_replace hcurrent hlookup
    · rw [hfamily, hexpiry]
      exact h.lifetime hcurrent
    · rw [hf, he]
      exact h.lifetime hold
  · intro t t' record record' hlookup hlookup' hsame hunused hunused'
    obtain ⟨rfl, rfl⟩ | ⟨-, old, hold, -, hf, -, -, hu⟩ := token_of_replace hcurrent hlookup
    · obtain ⟨rfl, rfl⟩ | ⟨-, old', hold', -, hf', -, -, hu'⟩ := token_of_replace hcurrent hlookup'
      · rfl
      · obtain ⟨hunused', hne⟩ := hu' hunused'
        exact absurd (h.unused hold' hcurrent (hf'.symm.trans (hsame.symm.trans hfamily)) hunused' hfree) hne
    · obtain ⟨rfl, rfl⟩ | ⟨-, old', hold', -, hf', -, -, hu'⟩ := token_of_replace hcurrent hlookup'
      · obtain ⟨hunused, hne⟩ := hu hunused
        exact absurd (h.unused hold hcurrent (hf.symm.trans (hsame.trans hfamily)) hunused hfree) hne
      · obtain ⟨hunused, -⟩ := hu hunused
        obtain ⟨hunused', -⟩ := hu' hunused'
        exact h.unused hold hold' (hf.symm.trans (hsame.trans hf')) hunused hunused'

end RefreshState.Sound

theorem RefreshState.present_ok {presented : List Char} {found : Presented} (h : state.present codec presented = .ok found) :
    ∃ parts, codec.parseAndDigest presented = some parts ∧
      state.tokenByPrefix.lookup parts.tokenPrefix = some found.tokenId ∧
      state.tokens.lookup found.tokenId = some found.current ∧ parts.digest = found.current.parts.digest ∧
      state.families.lookup found.current.familyId = some found.family ∧
      state.sessions.lookup found.family.sessionId = some found.session := by
  simp only [RefreshState.present, bind_ok_iff, require_ok_iff, orError_ok_iff, pure_ok_iff, decide_eq_true_eq] at h
  obtain ⟨parts, hparts, tokenId, htoken, current, hcurrent, -, hdigest, family, hfamily, session, hsession, rfl⟩ := h
  exact ⟨parts, hparts, htoken, hcurrent, hdigest, hfamily, hsession⟩

theorem RefreshState.familyOf_eq_some {sessionId f : Uuid} (h : state.familyOf sessionId = some f) :
    ∃ g family, state.families.lookup g = some family ∧ family.sessionId = sessionId ∧ family.id = f := by
  obtain ⟨⟨g, family⟩, hfind, hid⟩ := Option.map_eq_some_iff.mp h
  have hmem := AList.mem_entries.mp (List.mem_of_find?_eq_some hfind)
  have hsession := List.find?_some hfind
  exact ⟨g, family, hmem, by simpa using hsession, hid⟩

def RefreshAnswer.isRotated : RefreshAnswer → Bool
  | .rotation (.ok (.rotated _ _ _)) => true
  | _ => false

def RefreshAnswer.endsFamily : RefreshAnswer → Bool
  | .rotation (.ok (.reuseDetected _ _)) => true
  | .revoked (.ok found) => found
  | _ => false

inductive RefreshEffect (codec : OpaqueTokenCodec) (state : RefreshState) (call : RefreshCall) :
    RefreshState → RefreshAnswer → Prop
  | kept {answer : RefreshAnswer} (hrotated : answer.isRotated = false) (hends : answer.endsFamily = false) :
    RefreshEffect codec state call state answer
  | enrolled {session : SessionRecord} {family : RefreshFamily} {token : RefreshTokenRecord} {plaintext : List Char}
    (hsession : session.id ∈ call.sessionIds) (hfamily : family.id ∈ call.familyIds)
    (htoken : token.id ∈ call.tokenIds) (hparts : token.parts ∈ call.parts codec)
    (hfs : family.sessionId = session.id) (htf : token.familyId = family.id)
    (hexpiry : token.expiresAtMs = session.expiresAtMs) (htarget : call.target codec state = some family.id) :
    RefreshEffect codec state call (state.enrol session family token) (.issued (.ok ⟨plaintext, session, family, token⟩))
  | ended {familyId : Uuid} {nowMs : Int64} {reason : List Char} {answer : RefreshAnswer}
    (hrotated : answer.isRotated = false)
    (hfamily : ∃ g family, state.families.lookup g = some family ∧ family.id = familyId)
    (htarget : call.target codec state = some familyId) :
    RefreshEffect codec state call (state.revokeFamily familyId nowMs reason) answer
  | replaced {presented : List Char} {found : Presented} {next : RefreshTokenRecord} {plaintext : List Char}
    {nowMs : Int64} {mint : TokenMint} (hcall : call = .rotate presented nowMs mint)
    (hfound : state.present codec presented = .ok found) (hlive : found.live nowMs = true)
    (hfree : found.current.usedAtMs = none) (hid : next.id ∈ call.tokenIds) (hparts : next.parts ∈ call.parts codec)
    (hfamily : next.familyId = found.family.id) (hexpiry : next.expiresAtMs = found.current.expiresAtMs)
    (htarget : call.target codec state = some found.family.id) :
    RefreshEffect codec state call (state.replace found nowMs next) (.rotation (.ok (.rotated plaintext next found.family)))

theorem OpaqueTokenCodec.issue_eq_some {entropy : Option Entropy} {plaintext : List Char} {parts : TokenParts}
    (h : codec.issue entropy = some (plaintext, parts)) : parts ∈ (entropy.map codec.parts).toList := by
  obtain ⟨drawn, rfl, hdrawn⟩ := Option.map_eq_some_iff.mp h
  cases hdrawn
  simp

theorem issueSession_effect (state : RefreshState) (projectId userId : Uuid) (nowMs : Int64) (mint : SessionMint) :
    RefreshEffect codec state (.issueSession projectId userId nowMs mint)
      (state.issueSession codec projectId userId nowMs mint).1
      (.issued (state.issueSession codec projectId userId nowMs mint).2) := by
  unfold RefreshState.issueSession
  by_cases htime : nowMs.toInt + refreshTokenTtlMs < 2^63
  · rw [if_pos htime]
    cases hissue : codec.issue mint.entropy with
    | none => exact .kept rfl rfl
    | some issued =>
      obtain ⟨plaintext, parts⟩ := issued
      exact .enrolled (by simp [RefreshCall.sessionIds]) (by simp [RefreshCall.familyIds])
        (by simp [RefreshCall.tokenIds]) (OpaqueTokenCodec.issue_eq_some hissue) rfl rfl rfl rfl
  · rw [if_neg htime]
    exact .kept rfl rfl

theorem RefreshState.present_error {presented : List Char} {answer : Except RefreshStoreError RefreshRotation}
    (h : state.present codec presented = .error answer) : answer = .ok .rejected ∨ answer = .error .unavailable := by
  simp only [RefreshState.present, bind_error_iff, orError_error_iff, require_error_iff] at h
  obtain ⟨-, rfl⟩ | ⟨_, -, ⟨-, rfl⟩ | ⟨_, -, ⟨-, rfl⟩ | ⟨_, -, ⟨-, rfl⟩ | ⟨_, -, ⟨-, rfl⟩ | ⟨_, -, ⟨-, rfl⟩ | ⟨_, -, h⟩⟩⟩⟩⟩⟩ := h
  · exact .inl rfl
  · exact .inl rfl
  · exact .inr rfl
  · exact .inl rfl
  · exact .inr rfl
  · exact .inr rfl
  · cases h

theorem rotate_effect (state : RefreshState) (presented : List Char) (nowMs : Int64) (mint : TokenMint) :
    RefreshEffect codec state (.rotate presented nowMs mint) (state.rotate codec presented nowMs mint).1
      (.rotation (state.rotate codec presented nowMs mint).2) := by
  unfold RefreshState.rotate
  cases hpresent : state.present codec presented with
  | error answer =>
    obtain rfl | rfl := RefreshState.present_error hpresent
    · exact .kept rfl rfl
    · exact .kept rfl rfl
  | ok found =>
    have htarget : (RefreshCall.rotate presented nowMs mint).target codec state = some found.family.id := by
      simp only [RefreshCall.target, hpresent]
    simp only
    by_cases hlive : found.live nowMs = true
    · rw [if_neg (by simp [hlive])]
      by_cases hused : found.current.usedAtMs.isSome = true
      · rw [if_pos hused]
        obtain ⟨-, -, -, -, -, hfamily, -⟩ := RefreshState.present_ok hpresent
        exact .ended rfl ⟨_, _, hfamily, rfl⟩ htarget
      · rw [if_neg hused]
        cases hissue : codec.issue mint.entropy with
        | none => exact .kept rfl rfl
        | some issued =>
          obtain ⟨plaintext, parts⟩ := issued
          exact .replaced rfl hpresent hlive (by simpa using hused) (by simp [RefreshCall.tokenIds])
            (OpaqueTokenCodec.issue_eq_some hissue) rfl rfl htarget
    · rw [if_pos (by simp [hlive])]
      exact .kept rfl rfl

theorem revokeSession_effect (state : RefreshState) (sessionId : Uuid) (nowMs : Int64) (reason : List Char) :
    RefreshEffect codec state (.revokeSession sessionId nowMs reason) (state.revokeSession sessionId nowMs reason).1
      (.revoked (state.revokeSession sessionId nowMs reason).2) := by
  unfold RefreshState.revokeSession
  by_cases hreason : (reason.isEmpty || 64 < Text.byteLength reason) = true
  · rw [if_pos hreason]
    exact .kept rfl rfl
  · rw [if_neg hreason]
    cases hfamily : state.familyOf sessionId with
    | none => exact .kept rfl rfl
    | some familyId =>
      obtain ⟨g, family, hlookup, -, hid⟩ := RefreshState.familyOf_eq_some hfamily
      exact .ended rfl ⟨g, family, hlookup, hid⟩ hfamily

theorem refreshCall_effect (codec : OpaqueTokenCodec) (state : RefreshState) (call : RefreshCall) :
    RefreshEffect codec state call (refreshStep codec state call) (refreshCall codec state call).2 := by
  cases call with
  | issueSession projectId userId nowMs mint => exact issueSession_effect state projectId userId nowMs mint
  | rotate presented nowMs mint => exact rotate_effect state presented nowMs mint
  | revokeSession sessionId nowMs reason => exact revokeSession_effect state sessionId nowMs reason

theorem RefreshState.Sound.step (h : state.Sound codec calls) (hunique : UniqueMints codec (calls ++ [call])) :
    (refreshStep codec state call).Sound codec (calls ++ [call]) := by
  have heffect := refreshCall_effect codec state call
  generalize refreshStep codec state call = next, (refreshCall codec state call).2 = answer at heffect
  cases heffect with
  | kept => exact h.mono call
  | enrolled hsession hfamily htoken hparts hfs htf hexpiry =>
    exact h.enrol hunique hsession hfamily htoken hparts hfs htf hexpiry
  | ended => exact (h.mono call).revokeFamily
  | replaced hcall hfound hlive hfree hid hparts hfamily hexpiry =>
    obtain ⟨-, -, -, hcurrent, -, hlookup, -⟩ := RefreshState.present_ok hfound
    exact h.replace hunique hid hparts hcurrent hfree (hfamily.trans (h.family hlookup).1) hexpiry

theorem refreshRun_append (calls after : List RefreshCall) :
    refreshRun codec (calls ++ after) = Machine.run (refreshStep codec) (refreshRun codec calls) after := by
  unfold refreshRun
  exact Machine.run_append _ calls after

theorem sound_refreshRun (hunique : UniqueMints codec calls) : (refreshRun codec calls).Sound codec calls := by
  induction calls using List.reverseRecOn with
  | nil => exact RefreshState.Sound.empty
  | append_singleton calls call ih =>
    rw [refreshRun_append]
    exact (ih hunique.of_append).step hunique

/-- What every sound step keeps holds after every further call. -/
theorem refreshRun_keeps {P : RefreshState → Prop}
    (hstep : ∀ {calls call}, UniqueMints codec (calls ++ [call]) → (refreshRun codec calls).Sound codec calls →
      P (refreshRun codec calls) → P (refreshStep codec (refreshRun codec calls) call))
    {before after : List RefreshCall} (hunique : UniqueMints codec (before ++ after))
    (h : P (refreshRun codec before)) : P (refreshRun codec (before ++ after)) := by
  induction after using List.reverseRecOn with
  | nil => simpa using h
  | append_singleton after call ih =>
    rw [← List.append_assoc] at hunique ⊢
    rw [refreshRun_append]
    exact hstep hunique (sound_refreshRun hunique.of_append) (ih hunique.of_append)

def RefreshState.Spent (parts : TokenParts) (state : RefreshState) : Prop :=
  ∃ t record, state.tokens.lookup t = some record ∧ record.parts = parts ∧ record.usedAtMs.isSome

def RefreshState.Ended (f : Uuid) (state : RefreshState) : Prop :=
  ∃ family, state.families.lookup f = some family ∧ family.revokedAtMs.isSome

def RefreshState.Expires (s : Uuid) (expiresAtMs : Int64) (state : RefreshState) : Prop :=
  ∃ session, state.sessions.lookup s = some session ∧ session.expiresAtMs = expiresAtMs

namespace RefreshState.Sound

theorem spent_step {parts : TokenParts} (h : state.Sound codec calls) (hunique : UniqueMints codec (calls ++ [call]))
    (hspent : state.Spent parts) : (refreshStep codec state call).Spent parts := by
  obtain ⟨t, record, hlookup, hparts, hused⟩ := hspent
  have hfresh : ∀ t' ∈ call.tokenIds, t ≠ t' := by
    rintro t' ht' rfl
    exact hunique.fresh.1 _ ht' (h.token hlookup).2.1
  have heffect := refreshCall_effect codec state call
  generalize refreshStep codec state call = next, (refreshCall codec state call).2 = answer at heffect
  cases heffect with
  | kept => exact ⟨t, record, hlookup, hparts, hused⟩
  | enrolled _ _ htoken =>
    exact ⟨t, record, (AList.lookup_insert_ne (hfresh _ htoken)).trans hlookup, hparts, hused⟩
  | ended =>
    refine ⟨t, record, ?_, hparts, hused⟩
    rw [tokens_revokeFamily]
    exact hlookup
  | replaced _ hfound _ _ hid =>
    obtain ⟨-, -, -, hcurrent, -⟩ := present_ok hfound
    obtain ⟨record', hlookup', hparts', -, hused', -⟩ := replace_of_token _ hcurrent (hfresh _ hid) hlookup
    exact ⟨t, record', hlookup', hparts'.trans hparts, hused' hused⟩

theorem ended_step {f : Uuid} (h : state.Sound codec calls) (hunique : UniqueMints codec (calls ++ [call]))
    (hended : state.Ended f) : (refreshStep codec state call).Ended f := by
  obtain ⟨family, hlookup, hrevoked⟩ := hended
  have heffect := refreshCall_effect codec state call
  generalize refreshStep codec state call = next, (refreshCall codec state call).2 = answer at heffect
  cases heffect with
  | kept => exact ⟨family, hlookup, hrevoked⟩
  | enrolled _ hfamily =>
    refine ⟨family, (AList.lookup_insert_ne ?_).trans hlookup, hrevoked⟩
    rintro rfl
    exact hunique.fresh.2.2.1 _ hfamily (h.family hlookup).2.1
  | ended =>
    obtain ⟨family', hlookup', -, hrevoked'⟩ := revokeFamily_of_family hlookup
    exact ⟨family', hlookup', hrevoked' hrevoked⟩
  | replaced => exact ⟨family, hlookup, hrevoked⟩

theorem expires_step {s : Uuid} {expiresAtMs : Int64} (h : state.Sound codec calls)
    (hunique : UniqueMints codec (calls ++ [call])) (hexpires : state.Expires s expiresAtMs) :
    (refreshStep codec state call).Expires s expiresAtMs := by
  obtain ⟨session, hlookup, hexpiry⟩ := hexpires
  have heffect := refreshCall_effect codec state call
  generalize refreshStep codec state call = next, (refreshCall codec state call).2 = answer at heffect
  cases heffect with
  | kept => exact ⟨session, hlookup, hexpiry⟩
  | enrolled hsession =>
    refine ⟨session, (AList.lookup_insert_ne ?_).trans hlookup, hexpiry⟩
    rintro rfl
    exact hunique.fresh.2.2.2 _ hsession (h.session hlookup)
  | ended =>
    obtain ⟨session', hlookup', hexpiry'⟩ := revokeFamily_of_session hlookup
    exact ⟨session', hlookup', hexpiry'.trans hexpiry⟩
  | replaced => exact ⟨session, hlookup, hexpiry⟩

/-- A text is only taken for the token that it is. -/
theorem present_parts {presented : List Char} {found : Presented} (h : state.Sound codec calls)
    (hfound : state.present codec presented = .ok found) :
    codec.parseAndDigest presented = some found.current.parts ∧
      state.tokens.lookup found.tokenId = some found.current := by
  obtain ⟨parts, hparse, hleading, hcurrent, hdigest, -⟩ := present_ok hfound
  obtain ⟨record, hlookup, hleading'⟩ := h.byPrefix hleading
  obtain rfl := Option.some.inj (hcurrent.symm.trans hlookup)
  have hsame : parts = found.current.parts := TokenParts.ext hleading'.symm hdigest
  exact ⟨hsame ▸ hparse, hcurrent⟩

/-- A text whose token was used is not answered with another one. -/
theorem not_rotated_of_spent {presented : List Char} {nowMs : Int64} {mint : TokenMint} {parts : TokenParts}
    (h : state.Sound codec calls) (hparse : codec.parseAndDigest presented = some parts) (hspent : state.Spent parts) :
    (refreshCall codec state (.rotate presented nowMs mint)).2.isRotated = false := by
  have heffect := refreshCall_effect codec state (.rotate presented nowMs mint)
  generalize refreshStep codec state (.rotate presented nowMs mint) = next,
    (refreshCall codec state (.rotate presented nowMs mint)).2 = answer at heffect
  cases heffect with
  | kept hrotated => exact hrotated
  | enrolled => rfl
  | ended hrotated => exact hrotated
  | replaced hcall hfound _ hfree =>
    cases hcall
    obtain ⟨hparse', hcurrent⟩ := h.present_parts hfound
    obtain rfl := Option.some.inj (hparse.symm.trans hparse')
    obtain ⟨t, record, hlookup, hparts, hused⟩ := hspent
    obtain rfl := h.parts_inj hlookup hcurrent hparts
    obtain rfl := Option.some.inj (hlookup.symm.trans hcurrent)
    simp [hfree] at hused

theorem spent_of_rotated {presented : List Char} {nowMs : Int64} {mint : TokenMint} (h : state.Sound codec calls)
    (hunique : UniqueMints codec (calls ++ [.rotate presented nowMs mint]))
    (hrotated : (refreshCall codec state (.rotate presented nowMs mint)).2.isRotated = true) :
    ∃ parts, codec.parseAndDigest presented = some parts ∧
      (refreshStep codec state (.rotate presented nowMs mint)).Spent parts := by
  have heffect := refreshCall_effect codec state (.rotate presented nowMs mint)
  generalize refreshStep codec state (.rotate presented nowMs mint) = next,
    (refreshCall codec state (.rotate presented nowMs mint)).2 = answer at heffect hrotated
  cases heffect with
  | kept hquiet => simp [hquiet] at hrotated
  | enrolled => cases hrotated
  | ended hquiet => simp [hquiet] at hrotated
  | @replaced _ found next' _ _ _ hcall hfound _ hfree hid =>
    cases hcall
    obtain ⟨hparse, hcurrent⟩ := h.present_parts hfound
    have hne : found.tokenId ≠ next'.id := by
      intro he
      exact hunique.fresh.1 _ hid (he ▸ (h.token hcurrent).2.1)
    obtain ⟨record, hlookup, hparts, -, -, hused, -⟩ := replace_of_token nowMs hcurrent hne hcurrent
    exact ⟨_, hparse, _, record, hlookup, hparts, hused rfl⟩

theorem not_rotated_of_ended {f : Uuid} (h : state.Sound codec calls) (hended : state.Ended f) {plaintext : List Char}
    {token : RefreshTokenRecord} {family : RefreshFamily}
    (hanswer : (refreshCall codec state call).2 = .rotation (.ok (.rotated plaintext token family))) :
    token.familyId ≠ f := by
  have heffect := refreshCall_effect codec state call
  generalize refreshStep codec state call = next, (refreshCall codec state call).2 = answer at heffect hanswer
  subst hanswer
  cases heffect with
  | kept hquiet => cases hquiet
  | ended hquiet => cases hquiet
  | replaced hcall hfound hlive hfree hid hparts hfamily =>
    obtain ⟨-, -, -, -, -, hlookup, -⟩ := present_ok hfound
    rintro rfl
    obtain ⟨family', hlookup', hrevoked⟩ := hended
    rw [hfamily, (h.family hlookup).1, hlookup] at hlookup'
    cases hlookup'
    simp [Presented.live, hrevoked] at hlive

theorem ended_of_answer {f : Uuid} (h : state.Sound codec calls) (htarget : call.target codec state = some f)
    (hends : (refreshCall codec state call).2.endsFamily = true) : (refreshStep codec state call).Ended f := by
  have heffect := refreshCall_effect codec state call
  generalize refreshStep codec state call = next, (refreshCall codec state call).2 = answer at heffect hends
  cases heffect with
  | kept _ hquiet => simp [hquiet] at hends
  | enrolled => cases hends
  | @ended _ nowMs reason _ _ hfamily htarget' =>
    obtain rfl := Option.some.inj (htarget.symm.trans htarget')
    obtain ⟨g, family, hlookup, rfl⟩ := hfamily
    obtain rfl := (h.family hlookup).1
    refine ⟨family.revoke nowMs reason, ?_, rfl⟩
    rw [families_revokeFamily, if_pos rfl, hlookup]
    rfl
  | replaced => cases hends

end RefreshState.Sound

/-- Nothing of the family is changed: neither its record, nor its tokens, nor its session. -/
structure RefreshState.Untouched (f : Uuid) (before after : RefreshState) : Prop where
  family : after.families.lookup f = before.families.lookup f
  tokens : ∀ t record, record.familyId = f →
    (after.tokens.lookup t = some record ↔ before.tokens.lookup t = some record)
  session : ∀ family, before.families.lookup f = some family →
    after.sessions.lookup family.sessionId = before.sessions.lookup family.sessionId

theorem RefreshState.Sound.untouched_step {f : Uuid} (h : state.Sound codec calls)
    (hunique : UniqueMints codec (calls ++ [call])) (htarget : call.target codec state ≠ some f) :
    state.Untouched f (refreshStep codec state call) := by
  have heffect := refreshCall_effect codec state call
  generalize refreshStep codec state call = next, (refreshCall codec state call).2 = answer at heffect
  cases heffect with
  | kept => exact ⟨rfl, fun _ _ _ => Iff.rfl, fun _ _ => rfl⟩
  | @enrolled session family token _ hsession _ htoken _ _ htf _ htarget' =>
    have hne : f ≠ family.id := by
      rintro rfl
      exact htarget htarget'
    refine ⟨AList.lookup_insert_ne hne, ?_, ?_⟩
    · intro t record hfamily
      refine AList.lookup_insert_eq_some_iff.trans ⟨?_, ?_⟩
      · rintro (⟨-, rfl⟩ | ⟨-, hold⟩)
        · exact absurd (hfamily.symm.trans htf) hne
        · exact hold
      · intro hold
        refine .inr ⟨?_, hold⟩
        rintro rfl
        exact hunique.fresh.1 _ htoken (h.token hold).2.1
    · intro family' hlookup
      obtain ⟨-, -, session', hsession'⟩ := h.family hlookup
      refine AList.lookup_insert_ne ?_
      intro he
      exact hunique.fresh.2.2.2 _ hsession (he ▸ h.session hsession')
  | @ended familyId nowMs reason _ _ hfamily htarget' =>
    have hne : f ≠ familyId := by
      rintro rfl
      exact htarget htarget'
    obtain ⟨g, family, hlookup, rfl⟩ := hfamily
    obtain rfl := (h.family hlookup).1
    refine ⟨?_, ?_, ?_⟩
    · rw [families_revokeFamily, if_neg hne]
    · intro t record _
      rw [tokens_revokeFamily]
    · intro family' hlookup'
      rw [sessions_revokeFamily hlookup, if_neg]
      intro he
      exact hne (h.session_inj hlookup' hlookup he)
  | @replaced _ found token _ nowMs _ _ hfound _ _ hid _ hfamily _ htarget' =>
    obtain ⟨-, -, -, hcurrent, -, hlookup, -⟩ := present_ok hfound
    have hne : f ≠ found.family.id := by
      rintro rfl
      exact htarget htarget'
    have hcurrentFamily : found.current.familyId = found.family.id := (h.family hlookup).1.symm
    refine ⟨rfl, ?_, fun _ _ => rfl⟩
    intro t record hrecord
    refine AList.lookup_insert_eq_some_iff.trans ⟨?_, ?_⟩
    · rintro (⟨-, rfl⟩ | ⟨-, hold⟩)
      · exact absurd (hrecord.symm.trans hfamily) hne
      · obtain ⟨-, rfl⟩ | ⟨-, hold⟩ := AList.lookup_insert_eq_some_iff.mp hold
        · exact absurd (hrecord.symm.trans hcurrentFamily) hne
        · exact hold
    · intro hold
      refine .inr ⟨?_, AList.lookup_insert_eq_some_iff.mpr (.inr ⟨?_, hold⟩)⟩
      · rintro rfl
        exact hunique.fresh.1 _ hid (h.token hold).2.1
      · rintro rfl
        obtain rfl := Option.some.inj (hold.symm.trans hcurrent)
        exact hne (hrecord.symm.trans hcurrentFamily)

def exchanges (presented : List Char) : RefreshCall × RefreshAnswer → Bool
  | (.rotate presented' _ _, answer) => presented' = presented && answer.isRotated
  | _ => false

def exchangeCount (codec : OpaqueTokenCodec) (presented : List Char) (calls : List RefreshCall) : Nat :=
  (Machine.trace (refreshStep codec) (refreshTrace codec) {} calls).countP (exchanges presented)

theorem exchangeCount_append (presented : List Char) (calls : List RefreshCall) (call : RefreshCall) :
    exchangeCount codec presented (calls ++ [call]) = exchangeCount codec presented calls +
      if exchanges presented (call, (refreshCall codec (refreshRun codec calls) call).2) = true then 1 else 0 := by
  unfold exchangeCount
  rw [Machine.trace_append, List.countP_append]
  exact congrArg _ (List.countP_singleton ..)

/-- A text is exchanged once, and spent from then on. -/
theorem exchangeCount_spent (presented : List Char) (hunique : UniqueMints codec calls) :
    exchangeCount codec presented calls = 0 ∨ exchangeCount codec presented calls = 1 ∧
      ∃ parts, codec.parseAndDigest presented = some parts ∧ (refreshRun codec calls).Spent parts := by
  induction calls using List.reverseRecOn with
  | nil => exact .inl rfl
  | append_singleton calls call ih =>
    have hsound := sound_refreshRun hunique.of_append
    rw [exchangeCount_append, refreshRun_append]
    by_cases hexchanges : exchanges presented (call, (refreshCall codec (refreshRun codec calls) call).2) = true
    · rw [if_pos hexchanges]
      obtain ⟨presented', nowMs, mint, rfl⟩ : ∃ presented' nowMs mint, call = .rotate presented' nowMs mint := by
        cases call with
        | issueSession => cases hexchanges
        | rotate presented' nowMs mint => exact ⟨presented', nowMs, mint, rfl⟩
        | revokeSession => cases hexchanges
      simp only [exchanges, Bool.and_eq_true, decide_eq_true_eq] at hexchanges
      obtain ⟨rfl, hrotated⟩ := hexchanges
      obtain hzero | ⟨-, parts, hparse, hspent⟩ := ih hunique.of_append
      · rw [hzero]
        exact .inr ⟨rfl, hsound.spent_of_rotated hunique hrotated⟩
      · rw [hsound.not_rotated_of_spent hparse hspent] at hrotated
        cases hrotated
    · rw [if_neg hexchanges]
      obtain hzero | ⟨hone, parts, hparse, hspent⟩ := ih hunique.of_append
      · exact .inl hzero
      · exact .inr ⟨hone, parts, hparse, hsound.spent_step hunique hspent⟩

/-- The guarantees of refresh tokens, for every interleaving of calls: each is exchanged at most once; a
family has one token at most that is not used; what has ended stays so; nothing lives longer than its
session, whose end never moves; and a call leaves every other family alone. -/
theorem refresh_tokens_rotate_once (codec : OpaqueTokenCodec) (calls : List RefreshCall)
    (hunique : UniqueMints codec calls) :
    (∀ presented, exchangeCount codec presented calls ≤ 1) ∧
    (∀ t t' record record', (refreshRun codec calls).tokens.lookup t = some record →
      (refreshRun codec calls).tokens.lookup t' = some record' → record.familyId = record'.familyId →
      record.usedAtMs = none → record'.usedAtMs = none → t = t') ∧
    (∀ before call after, calls = before ++ call :: after →
      let state := refreshRun codec before
      ∀ f, state.Ended f ∨ ((refreshCall codec state call).2.endsFamily = true ∧ call.target codec state = some f) →
        ∀ between later rest, after = between ++ later :: rest → ∀ plaintext token family,
          (refreshCall codec (refreshRun codec (before ++ call :: between)) later).2 =
            .rotation (.ok (.rotated plaintext token family)) → token.familyId ≠ f) ∧
    (∀ t record, (refreshRun codec calls).tokens.lookup t = some record → ∃ family,
      (refreshRun codec calls).families.lookup record.familyId = some family ∧
      (refreshRun codec calls).Expires family.sessionId record.expiresAtMs) ∧
    (∀ before after, calls = before ++ after → ∀ s expiresAtMs, (refreshRun codec before).Expires s expiresAtMs →
      (refreshRun codec calls).Expires s expiresAtMs) ∧
    ∀ before call after, calls = before ++ call :: after →
      ∀ f, call.target codec (refreshRun codec before) ≠ some f →
        (refreshRun codec before).Untouched f (refreshRun codec (before ++ [call])) := by
  have hsound := sound_refreshRun hunique
  refine ⟨?_, ?_, ?_, ?_, ?_, ?_⟩
  · intro presented
    obtain h | ⟨h, -⟩ := exchangeCount_spent presented hunique
    · omega
    · omega
  · intro t t' record record' hlookup hlookup' hsame hunused hunused'
    exact hsound.unused hlookup hlookup' hsame hunused hunused'
  · rintro before call _ rfl
    intro state f hended between later rest hafter plaintext token family hanswer
    subst hafter
    have hbefore : UniqueMints codec (before ++ [call]) := by
      have hall : UniqueMints codec ((before ++ [call]) ++ (between ++ later :: rest)) := by simpa using hunique
      exact hall.of_append
    have hnext : (refreshRun codec (before ++ [call])).Ended f := by
      rw [refreshRun_append]
      obtain hended | ⟨hends, htarget⟩ := hended
      · exact (sound_refreshRun hbefore.of_append).ended_step hbefore hended
      · exact (sound_refreshRun hbefore.of_append).ended_of_answer htarget hends
    have hbetween : UniqueMints codec ((before ++ [call]) ++ between) := by
      have hall : UniqueMints codec (((before ++ [call]) ++ between) ++ (later :: rest)) := by simpa using hunique
      exact hall.of_append
    have hlater := refreshRun_keeps (fun hunique hsound => hsound.ended_step hunique) hbetween hnext
    have hsound := sound_refreshRun hbetween
    rw [List.append_assoc] at hlater hsound
    exact hsound.not_rotated_of_ended hlater hanswer
  · intro t record hlookup
    obtain ⟨family, session, hfamily, hsession, hexpiry⟩ := hsound.lifetime hlookup
    exact ⟨family, hfamily, session, hsession, hexpiry.symm⟩
  · rintro before after rfl s expiresAtMs hexpires
    exact refreshRun_keeps (fun hunique hsound => hsound.expires_step hunique) hunique hexpires
  · rintro before call after rfl f htarget
    have hbefore : UniqueMints codec (before ++ [call]) := by
      have hall : UniqueMints codec ((before ++ [call]) ++ after) := by simpa using hunique
      exact hall.of_append
    rw [refreshRun_append]
    exact (sound_refreshRun hbefore.of_append).untouched_step hbefore htarget

end Mints

section Samples

private def bareCodec : OpaqueTokenCodec := ⟨"refresh".toList, fun token => token.map fun c => UInt8.ofNat c.toNat⟩

private def drawn (n : Nat) : Entropy := ⟨Vector.replicate 12 (UInt8.ofNat n), Vector.replicate 32 (UInt8.ofNat n)⟩

private def replay : List RefreshCall :=
  [.issueSession 1 2 1000 ⟨3, 4, 5, some (drawn 0)⟩,
    .rotate (bareCodec.plaintext (drawn 0)) 2000 ⟨6, some (drawn 1)⟩,
    .rotate (bareCodec.plaintext (drawn 0)) 2001 ⟨7, some (drawn 2)⟩]

private theorem uniqueMints_replay : UniqueMints bareCodec replay where
  tokenIds := by decide
  parts := by decide +kernel
  familyIds := by decide
  sessionIds := by decide

theorem replayed_token_exchanged_once :
    exchangeCount bareCodec (bareCodec.plaintext (drawn 0)) replay ≠ 0 ∧
      exchangeCount bareCodec (bareCodec.plaintext (drawn 0)) replay ≤ 1 :=
  ⟨by decide +kernel, (refresh_tokens_rotate_once bareCodec replay uniqueMints_replay).1 _⟩

end Samples

end Ffdb.Auth
