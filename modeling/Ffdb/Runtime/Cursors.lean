import Ffdb.Runtime.Convergence
import Ffdb.Lib.Base64
import Ffdb.Lib.Sha256

/-! Cursors of a project database over its backups and restores: how they are issued and verified,
and what they stand for when the log that they were issued on is replaced. -/
namespace Ffdb.Runtime
open Sql Rls Relation Fallible
open Sync (Value JsonMap Bytes utf8)

structure SyncClient extends AuthContext where
  projectId : String

structure CursorClaims where
  projectId : String
  subject : String
  clientId : String
  scopeFingerprint : List Char
  sequence : Nat
  schemaVersion : Nat
  issuedAtMs : Nat
  expiresAtMs : Nat
  deriving DecidableEq

structure ClaimsCodec where
  toVec : CursorClaims → Option Bytes
  fromSlice : Bytes → Option CursorClaims

def ClaimsCodec.Lawful (codec : ClaimsCodec) : Prop :=
  ∀ claims payload, codec.toVec claims = some payload → codec.fromSlice payload = some claims

/-- A project database with the state that a restore replaces as a whole. -/
structure SyncImage where
  db : Database
  schemaVersion : Nat
  cursorSecret : Bytes

def cursorTtlMs : Nat := 30*24*60*60*1000

def maxCursorBytes : Nat := 2048

section Cursors
variable (doubles : Doubles) (codec : ClaimsCodec)

def scopeFingerprint (client : SyncClient) : List Char :=
  Text.hex (Sha256.digest (utf8 (String.ofList (valueText doubles
    (.array [.string (String.ofList client.role), .object client.claims])))))

def SyncImage.cursorClaims (image : SyncImage) (client : SyncClient) (sequence nowMs : Nat) : CursorClaims where
  projectId := client.projectId
  subject := client.subject
  clientId := client.tokenId
  scopeFingerprint := scopeFingerprint doubles client
  sequence
  schemaVersion := image.schemaVersion
  issuedAtMs := nowMs
  expiresAtMs := min (nowMs+cursorTtlMs) (2^63-1)

def signCursor (secret payload : Bytes) : List Char :=
  Base64.encode payload ++ '.' :: Base64.encode (Sha256.hmac secret payload)

def SyncImage.issueSyncCursor (image : SyncImage) (client : SyncClient) (sequence nowMs : Nat) :
    Except RuntimeError (List Char) := do
  let payload ← orError (codec.toVec (image.cursorClaims doubles client sequence nowMs)) .database
  pure (signCursor image.cursorSecret payload)

def SyncImage.openCursor (image : SyncImage) (cursor : List Char) : Except RuntimeError Bytes := do
  require (Text.byteLength cursor ≤ maxCursorBytes) .syncCursorInvalid
  let (payload, signature) ← orError (Text.splitOnce '.' cursor) .syncCursorInvalid
  let payload ← orError (Base64.decode payload) .syncCursorInvalid
  let signature ← orError (Base64.decode signature) .syncCursorInvalid
  require (Sha256.hmac image.cursorSecret payload = signature) .syncCursorInvalid
  pure payload

def SyncImage.verifySyncCursor (image : SyncImage) (client : SyncClient) (cursor : List Char) (nowMs : Nat) :
    Except RuntimeError Nat := do
  let payload ← image.openCursor cursor
  let claims ← orError (codec.fromSlice payload) .syncCursorInvalid
  require (claims.projectId = client.projectId && claims.subject = client.subject &&
    claims.clientId = client.tokenId && claims.scopeFingerprint = scopeFingerprint doubles client &&
    claims.schemaVersion = image.schemaVersion && claims.issuedAtMs ≤ nowMs && nowMs < claims.expiresAtMs)
    .syncCursorInvalid
  pure claims.sequence

end Cursors

/-- A cursor that was given out: the secret and the claims that it was made of, its text, and the changes
that the one who holds it was told of or may not see. -/
structure IssuedCursor where
  secret : Bytes
  claims : CursorClaims
  text : List Char
  covers : List ChangeRow

def IssuedCursor.payload (issued : IssuedCursor) : Option Bytes := do
  let (payload, _) ← Text.splitOnce '.' issued.text
  Base64.decode payload

structure SyncWorld where
  image : SyncImage
  backups : List SyncImage
  nowMs : Nat
  issued : List IssuedCursor

inductive SyncEvent where
  | write (step : CaptureStep)
  /-- with the next version of the schema -/
  | migrate (steps : List CaptureStep)
  | snapshot (client : SyncClient)
  | pull (client : SyncClient) (cursor : Option (List Char)) (limit : Nat)
  | backup
  | restore (index : Nat)
  | wait (elapsedMs : Nat)

section Steps
variable (doubles : Doubles) (codec : ClaimsCodec) (reader : JsonReader) (limits : ExecutionLimits)
  (truth bare : Verdict)

def SyncWorld.log (world : SyncWorld) : List ChangeRow := world.image.db.sync.changes

def SyncWorld.give (world : SyncWorld) (client : SyncClient) (sequence : Nat) (covers : List ChangeRow) : SyncWorld :=
  match world.image.issueSyncCursor doubles codec client sequence world.nowMs with
  | .ok text => { world with issued := world.issued ++
      [⟨world.image.cursorSecret, world.image.cursorClaims doubles client sequence world.nowMs, text, covers⟩] }
  | .error _ => world

def SyncWorld.syncPull (world : SyncWorld) (client : SyncClient) (cursor : Option (List Char)) (limit : Nat) :
    Except RuntimeError (Nat × SyncPullResult) := do
  require (!(limit = 0 || limit > 1000)) .statementNotAllowed
  let after ← match cursor with
    | some cursor => world.image.verifySyncCursor doubles codec client cursor world.nowMs
    | none => pure 0
  let page ← world.image.db.syncPull doubles reader limits bare client.toAuthContext after limit
  pure (after, page)

def SyncWorld.told (world : SyncWorld) (cursor : Option (List Char)) : List ChangeRow :=
  match cursor with
  | none => []
  | some cursor =>
    match world.image.openCursor cursor with
    | .error _ => []
    | .ok payload =>
      match world.issued.find? fun issued => issued.secret = world.image.cursorSecret ∧ issued.payload = some payload with
      | some issued => issued.covers
      | none => []

def syncStep (world : SyncWorld) : SyncEvent → SyncWorld
  | .write step => { world with image := { world.image with db := world.image.db.perform doubles step } }
  | .migrate steps => { world with image := { world.image with
      db := steps.foldl (Database.perform doubles) world.image.db
      schemaVersion := world.image.schemaVersion+1 } }
  | .snapshot client =>
    match world.image.db.syncSnapshot doubles limits truth client.toAuthContext with
    | .ok snapshot => world.give doubles codec client snapshot.cursor world.log
    | .error _ => world
  | .pull client cursor limit =>
    match world.syncPull doubles codec reader limits bare client cursor limit with
    | .ok (after, page) => world.give doubles codec client page.cursor
        (world.told cursor ++ (world.log.filter fun change => after < change.sequence ∧ change.sequence ≤ page.cursor))
    | .error _ => world
  | .backup => { world with backups := world.backups ++ [world.image] }
  | .restore index =>
    match world.backups[index]? with
    | some image => { world with image := { image with db := image.db.refreshChangeCapture } }
    | none => world
  | .wait elapsedMs => { world with nowMs := world.nowMs+elapsedMs }

def changesTo (changes : List ChangeRow) (sequence : Nat) : List ChangeRow :=
  changes.filter (·.sequence ≤ sequence)

def SyncWorld.Live (world : SyncWorld) (issued : IssuedCursor) : Prop := world.nowMs < issued.claims.expiresAtMs

/-- What the steps of a run have to meet. A signature that is that of the database was made by it;
and a restore discards no change at or below the sequence of a cursor that can still be accepted,
and brings none back. -/
structure SyncWorld.Admits (world : SyncWorld) (event : SyncEvent) : Prop where
  genuine : ∀ client cursor limit payload, event = .pull client (some cursor) limit →
    world.image.openCursor cursor = .ok payload →
      ∃ issued ∈ world.issued, issued.secret = world.image.cursorSecret ∧ issued.payload = some payload
  restores : ∀ index image, event = .restore index → world.backups[index]? = some image →
    ∀ issued ∈ world.issued, world.Live issued → issued.claims.sequence ≤ image.db.sync.latestSequence ∧
      changesTo image.db.sync.changes issued.claims.sequence = changesTo world.log issued.claims.sequence

def SyncWorld.AdmitsAll (world : SyncWorld) : List SyncEvent → Prop
  | [] => True
  | event :: events => world.Admits event ∧
    (syncStep doubles codec reader limits truth bare world event).AdmitsAll events

end Steps

section Issued
variable {doubles : Doubles} {codec : ClaimsCodec} {image : SyncImage}

theorem byteLength_signCursor (secret payload : Bytes) :
    Text.byteLength (signCursor secret payload) = (4*payload.length+2)/3+44 := by
  have hmac := Sha256.length_hmac secret payload
  unfold signCursor
  generalize Sha256.hmac secret payload = mac at hmac ⊢
  have hdot : Text.byteLength ('.' :: Base64.encode mac) = 1+Text.byteLength (Base64.encode mac) := rfl
  rw [Text.byteLength_append, hdot, Base64.byteLength_encode, Base64.byteLength_encode, hmac]

theorem payload_sign {secret : Bytes} {claims : CursorClaims} {covers : List ChangeRow} (payload : Bytes) :
    IssuedCursor.payload ⟨secret, claims, signCursor secret payload, covers⟩ = some payload := by
  unfold IssuedCursor.payload signCursor
  rw [Text.splitOnce_append _ _ (Base64.dot_notMem_encode payload)]
  exact Base64.decode_encode payload

theorem openCursor_sign {payload : Bytes} (h : (4*payload.length+2)/3 ≤ 2004) :
    image.openCursor (signCursor image.cursorSecret payload) = .ok payload := by
  have hlength := byteLength_signCursor image.cursorSecret payload
  simp only [SyncImage.openCursor, bind_ok_iff, require_ok_iff, orError_ok_iff, pure_ok_iff, decide_eq_true_eq,
    hlength, maxCursorBytes]
  unfold signCursor
  generalize hmac : Sha256.hmac image.cursorSecret payload = mac
  exact ⟨(), by omega, _, Text.splitOnce_append _ _ (Base64.dot_notMem_encode payload), payload,
    Base64.decode_encode _, mac, Base64.decode_encode _, (), hmac, rfl⟩

/-- A cursor is accepted by every image with the secret and the version that it was issued with,
whatever its log is, until it expires. -/
theorem verifySyncCursor_issued {image' : SyncImage} {client : SyncClient} {sequence issuedAtMs nowMs : Nat}
    {payload : Bytes} (hcodec : codec.Lawful)
    (hpayload : codec.toVec (image.cursorClaims doubles client sequence issuedAtMs) = some payload)
    (hlength : (4*payload.length+2)/3 ≤ 2004) (hsecret : image'.cursorSecret = image.cursorSecret)
    (hversion : image'.schemaVersion = image.schemaVersion) (hissued : issuedAtMs ≤ nowMs)
    (hexpires : nowMs < min (issuedAtMs+cursorTtlMs) (2^63-1)) :
    image'.verifySyncCursor doubles codec client (signCursor image.cursorSecret payload) nowMs = .ok sequence := by
  simp only [SyncImage.verifySyncCursor, bind_ok_iff, orError_ok_iff, require_ok_iff, pure_ok_iff, Bool.and_eq_true,
    decide_eq_true_eq]
  refine ⟨payload, ?_, _, hcodec _ payload hpayload, (), ?_, rfl⟩
  · rw [← hsecret]
    exact openCursor_sign hlength
  · exact ⟨⟨⟨⟨⟨⟨rfl, rfl⟩, rfl⟩, rfl⟩, hversion.symm⟩, hissued⟩, hexpires⟩

end Issued

section Log
variable {doubles : Doubles} {db db' : Database}

theorem sequence_le_of_mem_take {s : SyncTables} (h : s.Ledger) {sequence : Nat} {change : ChangeRow}
    (hchange : change ∈ s.changes.take sequence) : change.sequence ≤ sequence := by
  have hmem : change.sequence ∈ (s.changes.take sequence).map ChangeRow.sequence := List.mem_map_of_mem hchange
  rw [List.map_take, h.sequences, List.mem_take_iff_getElem] at hmem
  obtain ⟨i, hi, hsequence⟩ := hmem
  rw [List.getElem_range'] at hsequence
  omega

theorem lt_sequence_of_mem_drop {s : SyncTables} (h : s.Ledger) {sequence : Nat} {change : ChangeRow}
    (hchange : change ∈ s.changes.drop sequence) : sequence < change.sequence := by
  have hmem : change.sequence ∈ (s.changes.drop sequence).map ChangeRow.sequence := List.mem_map_of_mem hchange
  rw [sequences_drop h] at hmem
  exact (List.mem_range'_1.mp hmem).1

/-- The changes up to a sequence, and those from there to the next. -/
theorem changesTo_split {s : SyncTables} (h : s.Ledger) {after sequence : Nat} (hle : after ≤ sequence) :
    changesTo s.changes sequence =
      s.changes.take after ++ s.changes.filter fun change => after < change.sequence ∧ change.sequence ≤ sequence := by
  have hsplit := List.take_append_drop after s.changes
  have htaken : (s.changes.take after).filter (·.sequence ≤ sequence) = s.changes.take after :=
    List.filter_eq_self.mpr fun change hchange =>
      decide_eq_true (Nat.le_trans (sequence_le_of_mem_take h hchange) hle)
  have hnone : (s.changes.take after).filter (fun change => after < change.sequence ∧ change.sequence ≤ sequence) = [] := by
    rw [List.filter_eq_nil_iff]
    intro change hchange
    have hbound := sequence_le_of_mem_take h hchange
    simp only [decide_eq_true_eq]
    omega
  have hdropped : (s.changes.drop after).filter (fun change => after < change.sequence ∧ change.sequence ≤ sequence) =
      (s.changes.drop after).filter (·.sequence ≤ sequence) := by
    refine List.filter_congr fun change hchange => ?_
    rw [decide_eq_decide]
    exact and_iff_right (lt_sequence_of_mem_drop h hchange)
  unfold changesTo
  conv_lhs => rw [← hsplit, List.filter_append, htaken]
  conv_rhs => rw [← hsplit, List.filter_append, hsplit, hnone, List.nil_append, hdropped]

theorem changesTo_eq_take {s : SyncTables} (h : s.Ledger) (sequence : Nat) :
    changesTo s.changes sequence = s.changes.take sequence := by
  rw [changesTo_split h (Nat.le_refl sequence)]
  have hnone : s.changes.filter (fun change => sequence < change.sequence ∧ change.sequence ≤ sequence) = [] := by
    rw [List.filter_eq_nil_iff]
    intro change _
    simp only [decide_eq_true_eq]
    omega
  rw [hnone, List.append_nil]

theorem latestSequence_eq {s : SyncTables} (h : s.Ledger) : s.latestSequence = s.changes.length := by
  rw [SyncTables.latestSequence, h.next, Nat.add_sub_cancel]

theorem writeRows_grows {context : RequestContext} {events : List RowEvent}
    (h : db.writeRows doubles context events = some db') : db.sync.changes <+: db'.sync.changes :=
  writeRows_sync (P := fun sync => db.sync.changes <+: sync.changes)
    (fun _ _ _ _ hgrows => hgrows.trans (List.prefix_append _ _)) List.prefix_rfl h

/-- Nothing that happens to a database, short of a restore, takes a change back. -/
theorem perform_grows (db : Database) (step : CaptureStep) :
    db.sync.changes <+: (db.perform doubles step).sync.changes := by
  obtain hsame | ⟨before, after, context, events, hbefore, hwrite, hsync⟩ := @perform_sync doubles db step
  · exact hsame.symm ▸ List.prefix_rfl
  · rw [hsync, ← hbefore]
    exact writeRows_grows hwrite

theorem changesTo_of_grows {s s' : SyncTables} (h : s.Ledger) (h' : s'.Ledger) (hgrows : s.changes <+: s'.changes)
    {sequence : Nat} (hle : sequence ≤ s.latestSequence) :
    sequence ≤ s'.latestSequence ∧ changesTo s'.changes sequence = changesTo s.changes sequence := by
  rw [latestSequence_eq h] at hle
  rw [latestSequence_eq h', changesTo_eq_take h, changesTo_eq_take h']
  obtain ⟨more, hmore⟩ := hgrows
  rw [← hmore]
  refine ⟨?_, List.take_append_of_le_length hle⟩
  rw [List.length_append]
  omega

end Log

section Pages
variable {doubles : Doubles} {reader : JsonReader} {limits : ExecutionLimits} {bare : Verdict} {auth : AuthContext}
  {db : Database}

/-- The cursor of a page is at a change that was looked at, or where it was. -/
theorem examine_cursor {limit : Nat} {changes : List SyncChange} {page page' : SyncPullResult}
    (h : db.examine doubles bare auth limit page changes = .ok page') :
    page'.cursor = page.cursor ∨ ∃ change ∈ changes, page'.cursor = change.sequence := by
  induction changes generalizing page with
  | nil =>
    cases h
    exact .inl rfl
  | cons change rest ih =>
    have hstep {next : SyncPullResult} (hcursor : next.cursor = change.sequence)
        (hnext : db.examine doubles bare auth limit next rest = .ok page') :
        page'.cursor = page.cursor ∨ ∃ other ∈ change :: rest, page'.cursor = other.sequence := by
      obtain hsame | ⟨other, hother, hsequence⟩ := ih hnext
      · exact .inr ⟨change, List.mem_cons_self, hsame.trans hcursor⟩
      · exact .inr ⟨other, List.mem_cons_of_mem change hother, hsequence⟩
    simp only [Database.examine, bind_ok_iff] at h
    obtain ⟨primaryKey, -, hrest⟩ := h
    split at hrest
    · rw [bind_ok_iff] at hrest
      obtain ⟨seen, -, hseen⟩ := hrest
      split at hseen
      · split at hseen
        · cases hseen
          exact .inl rfl
        · exact hstep rfl hseen
      · exact hstep rfl hseen
    · exact hstep rfl hrest

theorem loadSyncChange_sequence {change : ChangeRow} {loaded : SyncChange}
    (h : Database.loadSyncChange reader change = .ok loaded) : loaded.sequence = change.sequence := by
  simp only [Database.loadSyncChange, bind_ok_iff, pure_ok_iff] at h
  obtain ⟨primaryKey, -, rfl⟩ := h
  rfl

/-- A pull goes on from where it starts, and not behind the log. -/
theorem syncPull_cursor (hledger : db.sync.Ledger) {after limit : Nat} {page : SyncPullResult}
    (hafter : after ≤ db.sync.latestSequence)
    (h : db.syncPull doubles reader limits bare auth after limit = .ok page) :
    after ≤ page.cursor ∧ page.cursor ≤ db.sync.latestSequence := by
  simp only [Database.syncPull, bind_ok_iff, pure_ok_iff] at h
  obtain ⟨_, -, loaded, hload, examined, hexamine, rfl⟩ := h
  obtain hsame | ⟨change, hchange, hsequence⟩ := examine_cursor hexamine
  · exact ⟨Nat.le_of_eq hsame.symm, Nat.le_trans (Nat.le_of_eq hsame) hafter⟩
  · rw [loadSyncChanges_eq hledger, mapM_ok_iff] at hload
    have hsequences := List.forall₂_map_left_iff.mpr (List.forall₂_map_right_iff.mpr
      (hload.imp fun _ _ hloaded => (loadSyncChange_sequence hloaded).symm))
    rw [List.forall₂_eq_eq_eq] at hsequences
    have hmem : change.sequence ∈ loaded.map SyncChange.sequence := List.mem_map_of_mem hchange
    rw [← hsequences, List.map_take] at hmem
    replace hmem := List.mem_of_mem_take hmem
    rw [sequences_drop hledger, List.mem_range'_1, List.length_drop] at hmem
    rw [latestSequence_eq hledger] at hafter ⊢
    dsimp only
    omega

end Pages

section Runs
variable {doubles : Doubles} {codec : ClaimsCodec} {reader : JsonReader} {limits : ExecutionLimits}
  {truth bare : Verdict} {world : SyncWorld} {event : SyncEvent}

def Denotes (image : SyncImage) (sequence : Nat) (covers : List ChangeRow) : Prop :=
  sequence ≤ image.db.sync.latestSequence ∧ changesTo image.db.sync.changes sequence = covers

/-- Cursors that can still be accepted denote prefixes of the log. -/
structure SyncWorld.Sound (codec : ClaimsCodec) (world : SyncWorld) : Prop where
  ledger : world.image.db.sync.Ledger
  backups : ∀ image ∈ world.backups, image.db.sync.Ledger
  written : ∀ issued ∈ world.issued, issued.payload = codec.toVec issued.claims
  denotes : ∀ issued ∈ world.issued, world.Live issued → Denotes world.image issued.claims.sequence issued.covers

theorem SyncWorld.Sound.grow {db : Database} (schemaVersion : Nat) (h : world.Sound codec) (hledger : db.sync.Ledger)
    (hgrows : world.image.db.sync.changes <+: db.sync.changes) :
    ({ world with image := { world.image with db, schemaVersion } } : SyncWorld).Sound codec where
  ledger := hledger
  backups := h.backups
  written := h.written
  denotes issued hissued hlive := by
    obtain ⟨hle, hcovers⟩ := h.denotes issued hissued hlive
    obtain ⟨hle', hsame⟩ := changesTo_of_grows h.ledger hledger hgrows hle
    exact ⟨hle', hsame.trans hcovers⟩

theorem SyncWorld.Sound.give {client : SyncClient} {sequence : Nat} {covers : List ChangeRow} (h : world.Sound codec)
    (hdenotes : Denotes world.image sequence covers) : (world.give doubles codec client sequence covers).Sound codec := by
  unfold SyncWorld.give
  split
  next text hissue =>
    refine ⟨h.ledger, h.backups, ?_, ?_⟩
    · intro issued hissued
      obtain hissued | hissued := List.mem_append.mp hissued
      · exact h.written issued hissued
      · rw [List.mem_singleton.mp hissued]
        simp only [SyncImage.issueSyncCursor, bind_ok_iff, orError_ok_iff, pure_ok_iff] at hissue
        obtain ⟨payload, hpayload, rfl⟩ := hissue
        exact (payload_sign payload).trans hpayload.symm
    · intro issued hissued hlive
      obtain hissued | hissued := List.mem_append.mp hissued
      · exact h.denotes issued hissued hlive
      · rw [List.mem_singleton.mp hissued]
        exact hdenotes
  · exact h

/-- A cursor that is accepted denotes what its holder was told of. -/
theorem SyncWorld.Sound.accepted {client : SyncClient} {cursor : List Char} {sequence : Nat} (hcodec : codec.Lawful)
    (h : world.Sound codec)
    (hgenuine : ∀ payload, world.image.openCursor cursor = .ok payload →
      ∃ issued ∈ world.issued, issued.secret = world.image.cursorSecret ∧ issued.payload = some payload)
    (haccepts : world.image.verifySyncCursor doubles codec client cursor world.nowMs = .ok sequence) :
    Denotes world.image sequence (world.told (some cursor)) := by
  simp only [SyncImage.verifySyncCursor, bind_ok_iff, orError_ok_iff, require_ok_iff, pure_ok_iff] at haccepts
  obtain ⟨payload, hopen, claims, hclaims, _, hchecks, rfl⟩ := haccepts
  have htold : ∃ issued ∈ world.issued, issued.payload = some payload ∧ world.told (some cursor) = issued.covers := by
    unfold SyncWorld.told
    dsimp only
    rw [hopen]
    dsimp only
    cases hfind : world.issued.find? fun issued =>
        decide (issued.secret = world.image.cursorSecret ∧ issued.payload = some payload) with
    | some issued =>
      have hfound := List.find?_some hfind
      rw [decide_eq_true_iff] at hfound
      exact ⟨issued, List.mem_of_find?_eq_some hfind, hfound.2, rfl⟩
    | none =>
      obtain ⟨issued, hissued, hsecret, hpayload⟩ := hgenuine payload hopen
      have hnone := List.find?_eq_none.mp hfind issued hissued
      rw [decide_eq_true_iff] at hnone
      exact absurd ⟨hsecret, hpayload⟩ hnone
  obtain ⟨issued, hissued, hpayload, htold⟩ := htold
  have hread := hcodec issued.claims payload ((h.written issued hissued).symm.trans hpayload)
  rw [hclaims] at hread
  obtain rfl := Option.some.inj hread
  rw [htold]
  refine h.denotes issued hissued ?_
  simp only [Bool.and_eq_true, decide_eq_true_eq] at hchecks
  exact hchecks.2

theorem SyncWorld.Sound.pulled {client : SyncClient} {cursor : Option (List Char)} {limit after : Nat}
    {page : SyncPullResult} (hcodec : codec.Lawful) (h : world.Sound codec)
    (hadmits : world.Admits (.pull client cursor limit))
    (hpull : world.syncPull doubles codec reader limits bare client cursor limit = .ok (after, page)) :
    Denotes world.image after (world.told cursor) ∧
      after ≤ page.cursor ∧ page.cursor ≤ world.image.db.sync.latestSequence := by
  have hstart : Denotes world.image after (world.told cursor) ∧
      world.image.db.syncPull doubles reader limits bare client.toAuthContext after limit = .ok page := by
    cases cursor with
    | none =>
      simp only [SyncWorld.syncPull, bind_ok_iff, pure_ok_iff, Prod.mk.injEq] at hpull
      obtain ⟨_, -, after', rfl, page', hpage, rfl, rfl⟩ := hpull
      refine ⟨⟨Nat.zero_le _, ?_⟩, hpage⟩
      rw [changesTo_eq_take h.ledger]
      rfl
    | some text =>
      simp only [SyncWorld.syncPull, bind_ok_iff, pure_ok_iff, Prod.mk.injEq] at hpull
      obtain ⟨_, -, after', hverify, page', hpage, rfl, rfl⟩ := hpull
      exact ⟨h.accepted hcodec (fun payload hopen => hadmits.genuine client text limit payload rfl hopen) hverify, hpage⟩
  obtain ⟨hdenotes, hpage⟩ := hstart
  exact ⟨hdenotes, syncPull_cursor h.ledger hdenotes.1 hpage⟩

theorem SyncWorld.Sound.step (hcodec : codec.Lawful) (h : world.Sound codec) (hadmits : world.Admits event) :
    (syncStep doubles codec reader limits truth bare world event).Sound codec := by
  cases event with
  | write step => exact h.grow world.image.schemaVersion (perform_ledger step h.ledger) (perform_grows _ step)
  | migrate steps =>
    have hrun (steps : List CaptureStep) (db : Database) (hledger : db.sync.Ledger) :
        (steps.foldl (Database.perform doubles) db).sync.Ledger ∧
          db.sync.changes <+: (steps.foldl (Database.perform doubles) db).sync.changes := by
      induction steps generalizing db with
      | nil => exact ⟨hledger, List.prefix_rfl⟩
      | cons step steps ih =>
        obtain ⟨hend, hgrows⟩ := ih (db.perform doubles step) (perform_ledger step hledger)
        exact ⟨hend, (perform_grows db step).trans hgrows⟩
    obtain ⟨hledger, hgrows⟩ := hrun steps world.image.db h.ledger
    exact h.grow (world.image.schemaVersion+1) hledger hgrows
  | snapshot client =>
    unfold syncStep
    dsimp only
    split
    next snapshot hsnapshot =>
      rw [snapshot_cursor h.ledger hsnapshot]
      refine h.give ⟨Nat.le_of_eq (latestSequence_eq h.ledger).symm, ?_⟩
      rw [changesTo_eq_take h.ledger, List.take_length]
      rfl
    · exact h
  | pull client cursor limit =>
    unfold syncStep
    dsimp only
    split
    next after page hpull =>
      obtain ⟨⟨hle, hcovers⟩, hbehind, hlatest⟩ := h.pulled hcodec hadmits hpull
      refine h.give ⟨hlatest, ?_⟩
      rw [changesTo_split h.ledger hbehind, ← hcovers, changesTo_eq_take h.ledger]
      rfl
    · exact h
  | backup =>
    refine ⟨h.ledger, ?_, h.written, h.denotes⟩
    intro image himage
    obtain himage | himage := List.mem_append.mp himage
    · exact h.backups image himage
    · rw [List.mem_singleton.mp himage]
      exact h.ledger
  | restore index =>
    unfold syncStep
    dsimp only
    split
    next image himage =>
      refine ⟨h.backups image (List.mem_of_getElem? himage), h.backups, h.written, ?_⟩
      intro issued hissued hlive
      obtain ⟨hle, hsame⟩ := hadmits.restores index image rfl himage issued hissued hlive
      exact ⟨hle, hsame.trans (h.denotes issued hissued hlive).2⟩
    · exact h
  | wait elapsedMs =>
    refine ⟨h.ledger, h.backups, h.written, ?_⟩
    intro issued hissued hlive
    exact h.denotes issued hissued (Nat.lt_of_le_of_lt (Nat.le_add_right _ _) hlive)

theorem SyncWorld.Sound.run (hcodec : codec.Lawful) (events : List SyncEvent) (h : world.Sound codec)
    (hadmits : world.AdmitsAll doubles codec reader limits truth bare events) :
    (Machine.run (syncStep doubles codec reader limits truth bare) world events).Sound codec := by
  induction events generalizing world with
  | nil => exact h
  | cons event events ih => exact ih (h.step hcodec hadmits.1) hadmits.2

def SyncWorld.fresh (image : SyncImage) (nowMs : Nat) : SyncWorld := ⟨image, [], nowMs, []⟩

/-- In every run in which no restore discards or brings back a change at or below the sequence of
a cursor that can still be accepted, every cursor that a pull accepts denotes a prefix of the log:
its sequence is not behind the log, the changes up to it are those that its holder was told of, and
all others have larger sequences. -/
theorem accepted_cursor_denotes_prefix (hcodec : codec.Lawful) (image : SyncImage) (nowMs : Nat)
    (hledger : image.db.sync.Ledger) (events : List SyncEvent)
    (hadmits : (SyncWorld.fresh image nowMs).AdmitsAll doubles codec reader limits truth bare events)
    (world : SyncWorld)
    (hworld : Machine.run (syncStep doubles codec reader limits truth bare) (.fresh image nowMs) events = world)
    (client : SyncClient) (cursor : List Char) (limit sequence : Nat)
    (hpull : world.Admits (.pull client (some cursor) limit))
    (haccepts : world.image.verifySyncCursor doubles codec client cursor world.nowMs = .ok sequence) :
    sequence ≤ world.image.db.sync.latestSequence ∧
      changesTo world.log sequence = world.told (some cursor) ∧
      ∀ change ∈ world.log, change ∉ world.told (some cursor) → sequence < change.sequence := by
  have hstart : (SyncWorld.fresh image nowMs).Sound codec :=
    ⟨hledger, fun _ h => (by cases h), fun _ h => (by cases h), fun _ h => (by cases h)⟩
  have hsound := hstart.run hcodec events hadmits
  rw [hworld] at hsound
  obtain ⟨hle, hcovers⟩ := hsound.accepted hcodec
    (fun payload hopen => hpull.genuine client cursor limit payload rfl hopen) haccepts
  refine ⟨hle, hcovers, ?_⟩
  intro change hchange hnot
  rw [← hcovers] at hnot
  by_contra hbehind
  exact hnot (List.mem_filter.mpr ⟨hchange, decide_eq_true (Nat.le_of_not_lt hbehind)⟩)

end Runs

section Sample

def claimsText (claims : CursorClaims) : String :=
  Sync.renderStruct
    [("project_id", Sync.renderString claims.projectId), ("subject", Sync.renderString claims.subject),
     ("client_id", Sync.renderString claims.clientId),
     ("scope_fingerprint", Sync.renderString (String.ofList claims.scopeFingerprint)),
     ("sequence", toString claims.sequence), ("schema_version", toString claims.schemaVersion),
     ("issued_at_ms", toString claims.issuedAtMs), ("expires_at_ms", toString claims.expiresAtMs)]

def ClaimsCodec.listing (known : List CursorClaims) : ClaimsCodec where
  toVec := Sync.writeListed (fun claims => some (claimsText claims)) known
  fromSlice := Sync.readListed (fun claims => some (claimsText claims)) known

def syncClient : SyncClient := { author with projectId := "p" }

def ownedImage : SyncImage := ⟨ownedDocuments, 1, Sync.sampleSecret⟩

def firstClaims : CursorClaims := ownedImage.cursorClaims sampleDoubles syncClient 1 1000

def firstCursor : List Char := signCursor Sync.sampleSecret (utf8 (claimsText firstClaims))

def sampleSync : SyncWorld → SyncEvent → SyncWorld :=
  syncStep sampleDoubles (.listing [firstClaims]) firstKeyReader sampleLimits ownerVerdict ownerVerdict

def documentInserted (id : Int64) : CaptureStep :=
  .write firstRequest [.write (.insert documents (documentRow id "me")), .fire]

def followed : SyncWorld :=
  Machine.run sampleSync (.fresh ownedImage 1000)
    [.write (documentInserted 2), .snapshot syncClient]

theorem listing_lawful (claims : CursorClaims) : (ClaimsCodec.listing [claims]).Lawful :=
  fun value bytes h => Sync.readListed_writeListed (fun claims => some (claimsText claims))
    (List.pairwise_singleton _ claims) value bytes h

theorem listing_toVec (claims : CursorClaims) :
    (ClaimsCodec.listing [claims]).toVec claims = some (utf8 (claimsText claims)) :=
  Sync.writeListed_of_mem (fun claims => some (claimsText claims)) (List.mem_singleton_self claims)

theorem firstClaims_length : (4*(utf8 (claimsText firstClaims)).length+2)/3 ≤ 2004 := by decide +kernel

theorem firstCursor_accepted {image : SyncImage} (hsecret : image.cursorSecret = Sync.sampleSecret)
    (hversion : image.schemaVersion = 1) :
    image.verifySyncCursor sampleDoubles (.listing [firstClaims]) syncClient firstCursor 1000 = .ok 1 := by
  have hwritten : (ClaimsCodec.listing [firstClaims]).toVec (ownedImage.cursorClaims sampleDoubles syncClient 1 1000) =
      some (utf8 (claimsText firstClaims)) :=
    listing_toVec firstClaims
  have hopened : firstCursor = signCursor ownedImage.cursorSecret (utf8 (claimsText firstClaims)) := by
    unfold firstCursor ownedImage
    rfl
  rw [hopened]
  exact verifySyncCursor_issued (listing_lawful firstClaims) hwritten firstClaims_length hsecret hversion
    le_rfl (by decide +kernel)

theorem firstCursor_opened {image : SyncImage} (hsecret : image.cursorSecret = Sync.sampleSecret) :
    image.openCursor firstCursor = .ok (utf8 (claimsText firstClaims)) := by
  unfold firstCursor
  rw [← hsecret]
  exact openCursor_sign firstClaims_length

theorem followed_cursor_denotes_prefix :
    1 ≤ followed.image.db.sync.latestSequence ∧ changesTo followed.log 1 = followed.told (some firstCursor) ∧
      ∀ change ∈ followed.log, change ∉ followed.told (some firstCursor) → 1 < change.sequence := by
  have hstate : followed.image.cursorSecret = Sync.sampleSecret ∧ followed.image.schemaVersion = 1 ∧
      followed.nowMs = 1000 ∧ ∃ issued ∈ followed.issued, issued.secret = followed.image.cursorSecret ∧
        issued.payload = some (utf8 (claimsText firstClaims)) := by
    decide +kernel
  obtain ⟨hsecret, hversion, hnow, hissued⟩ := hstate
  refine accepted_cursor_denotes_prefix (listing_lawful firstClaims) ownedImage 1000 empty_ledger
    [.write (documentInserted 2), .snapshot syncClient]
    ⟨⟨nofun, nofun⟩, ⟨nofun, nofun⟩, trivial⟩ followed rfl syncClient firstCursor 10 1 ⟨?_, nofun⟩ ?_
  · intro client cursor limit payload hevent hopen
    obtain ⟨-, hcursor, -⟩ := SyncEvent.pull.inj hevent
    obtain rfl := Option.some.inj hcursor
    rw [firstCursor_opened hsecret] at hopen
    obtain rfl := Except.ok.inj hopen
    exact hissued
  · rw [hnow]
    exact firstCursor_accepted hsecret hversion

/-- The backup from before the change is restored, and another change is committed. -/
def rewound : SyncWorld :=
  Machine.run sampleSync (.fresh ownedImage 1000)
    [.backup, .write (documentInserted 2), .snapshot syncClient,
      .restore 0, .write (documentInserted 3)]

/-- The cursor of the discarded change is accepted, and the other change is never told. -/
theorem rewound_cursor_skips_change :
    rewound.image.verifySyncCursor sampleDoubles (.listing [firstClaims]) syncClient firstCursor rewound.nowMs = .ok 1 ∧
      ∃ change ∈ rewound.log, change ∉ rewound.told (some firstCursor) ∧ ¬1 < change.sequence := by
  have hstate : rewound.image.cursorSecret = Sync.sampleSecret ∧ rewound.image.schemaVersion = 1 ∧
      rewound.nowMs = 1000 ∧ ∃ change ∈ rewound.log, change ∉
        ((rewound.issued.find? fun issued => decide (issued.secret = rewound.image.cursorSecret ∧
          issued.payload = some (utf8 (claimsText firstClaims)))).elim [] IssuedCursor.covers) ∧ ¬1 < change.sequence := by
    decide +kernel
  obtain ⟨hsecret, hversion, hnow, hskipped⟩ := hstate
  have htold : rewound.told (some firstCursor) =
      ((rewound.issued.find? fun issued => decide (issued.secret = rewound.image.cursorSecret ∧
        issued.payload = some (utf8 (claimsText firstClaims)))).elim [] IssuedCursor.covers) := by
    unfold SyncWorld.told
    dsimp only
    rw [firstCursor_opened hsecret]
    dsimp only
    split <;> rename_i hfind <;> rw [hfind] <;> rfl
  rw [hnow, htold]
  exact ⟨firstCursor_accepted hsecret hversion, hskipped⟩

end Sample
end Ffdb.Runtime
