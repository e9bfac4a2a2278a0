import Ffdb.Lib.Sha256
import Ffdb.Sync.Steps

/-! The texts serde_json writes for the engine's values, and instances of the
external crates that write them. Only floats have no text here. -/
namespace Ffdb.Sync

def utf8 (text : String) : Bytes := text.toByteArray.data.toList

def quote : Char := Char.ofNat 0x22
def backslash : Char := Char.ofNat 0x5c

def hexDigit (n : Nat) : Char := if n < 10 then Char.ofNat (48+n) else Char.ofNat (87+n)

def escapeChar (c : Char) : List Char :=
  if c = quote ∨ c = backslash then [backslash, c]
  else if c = Char.ofNat 8 then [backslash, 'b']
  else if c = Char.ofNat 9 then [backslash, 't']
  else if c = Char.ofNat 10 then [backslash, 'n']
  else if c = Char.ofNat 12 then [backslash, 'f']
  else if c = Char.ofNat 13 then [backslash, 'r']
  else if c.toNat < 0x20 then
    [backslash, 'u', '0', '0', hexDigit (c.toNat/16), hexDigit (c.toNat%16)]
  else [c]

def renderString (text : String) : String :=
  String.ofList (quote :: text.toList.flatMap escapeChar ++ [quote])

def renderNumber : Number → Option String
  | .posInt value => some (toString value)
  | .negInt value => some (toString value)
  | .float _ => none

def bracketed (opening : String) (items : List String) (closing : String) : String :=
  opening ++ String.intercalate "," items ++ closing

def renderObject (fields : List (String × String)) : String :=
  bracketed "\x7b" (fields.map fun (name, text) => renderString name ++ ":" ++ text) "\x7d"

def renderStruct (fields : List (String × String)) : String :=
  bracketed "\x7b" (fields.map fun (name, text) => "\"" ++ name ++ "\":" ++ text) "\x7d"

def renderValue : Value → Option String
  | .null => some "null"
  | .bool value => some (toString value)
  | .number value => renderNumber value
  | .string value => some (renderString value)
  | .array items => (renderItems items).map fun texts => bracketed "[" texts "]"
  | .object fields => (renderFields fields).map renderObject
where
  renderItems : List Value → Option (List String)
    | [] => some []
    | item :: rest => do
      let text ← renderValue item
      pure (text :: (← renderItems rest))
  renderFields : List (String × Value) → Option (List (String × String))
    | [] => some []
    | (name, value) :: rest => do
      let text ← renderValue value
      pure ((name, text) :: (← renderFields rest))

def renderOption {α : Type} (render : α → String) : Option α → String
  | some value => render value
  | none => "null"

def renderInt64 (value : Int64) : String := toString value.toInt

def renderOperation : MutationOperation → String
  | .upsert => renderString "upsert"
  | .delete => renderString "delete"

def renderMutation (mutation : ClientMutation) : Option String := do
  let primaryKey ← renderValue mutation.primaryKey
  let values ← renderValue (.object mutation.values)
  pure (renderStruct
    [("mutation_id", renderString mutation.mutationId), ("table", renderString mutation.table),
     ("primary_key", primaryKey), ("operation", renderOperation mutation.operation),
     ("values", values), ("base_row_version", renderOption toString mutation.baseRowVersion),
     ("client_timestamp_ms", renderOption renderInt64 mutation.clientTimestampMs)])

def renderClaims (claims : CursorClaims) : String :=
  renderStruct
    [("project_id", renderString claims.projectId), ("subject", renderString claims.subject),
     ("trusted_client_id", renderString claims.trustedClientId),
     ("sequence", toString claims.sequence), ("schema_version", toString claims.schemaVersion),
     ("scope_fingerprint", renderString claims.scopeFingerprint),
     ("issued_at_ms", renderInt64 claims.issuedAtMs),
     ("expires_at_ms", renderInt64 claims.expiresAtMs)]

def renderReason : ResnapshotReason → String
  | .cursorExpired => renderString "cursor_expired"
  | .schemaChanged => renderString "schema_changed"
  | .authorizationChanged => renderString "authorization_changed"
  | .policyChanged => renderString "policy_changed"

def renderOutcome : MutationOutcome → String
  | .applied => renderString "applied"
  | .alreadyApplied => renderString "already_applied"

def renderStoredRow (row : StoredRow) : Option String := do
  let primaryKey ← renderValue row.primaryKey
  let values ← renderValue (.object row.values)
  pure (renderStruct
    [("primary_key", primaryKey), ("values", values), ("row_version", toString row.rowVersion),
     ("server_sequence", toString row.serverSequence),
     ("deleted_at_ms", renderOption renderInt64 row.deletedAtMs)])

/-- The two row events differ in their tag and in the name of their values. -/
def renderRowEvent (tag valuesName : String) (sequence : Nat) (transactionId table : String)
    (primaryKey : Value) (values : JsonMap) (rowVersion : Nat) (actor : String)
    (schemaVersion : Nat) (serverCommitMs : Int64) (clientMutationId : Option String) :
    Option String := do
  let primaryKey ← renderValue primaryKey
  let values ← renderValue (.object values)
  pure (renderStruct
    [("type", renderString tag), ("sequence", toString sequence),
     ("transaction_id", renderString transactionId), ("table", renderString table),
     ("primary_key", primaryKey), (valuesName, values), ("row_version", toString rowVersion),
     ("actor", renderString actor), ("schema_version", toString schemaVersion),
     ("server_commit_ms", renderInt64 serverCommitMs),
     ("client_mutation_id", renderOption renderString clientMutationId)])

def renderEvent : LogicalEvent → Option String
  | .upsert sequence transactionId table primaryKey values rowVersion actor schemaVersion
      serverCommitMs clientMutationId =>
    renderRowEvent "upsert" "values" sequence transactionId table primaryKey values rowVersion
      actor schemaVersion serverCommitMs clientMutationId
  | .delete sequence transactionId table primaryKey tombstone rowVersion actor schemaVersion
      serverCommitMs clientMutationId =>
    renderRowEvent "delete" "tombstone" sequence transactionId table primaryKey tombstone
      rowVersion actor schemaVersion serverCommitMs clientMutationId
  | .resnapshotRequired sequence reason schemaVersion serverCommitMs =>
    some (renderStruct
      [("type", renderString "resnapshot_required"), ("sequence", toString sequence),
       ("reason", renderReason reason), ("schema_version", toString schemaVersion),
       ("server_commit_ms", renderInt64 serverCommitMs)])

def renderRecord (record : IdempotencyRecord) : String :=
  renderStruct
    [("payload_hash", bracketed "[" (record.payloadHash.map fun byte => toString byte.toNat) "]"),
     ("receipt", renderStruct
       [("mutation_id", renderString record.receipt.mutationId),
        ("sequence", toString record.receipt.sequence),
        ("row_version", toString record.receipt.rowVersion),
        ("outcome", renderOutcome record.receipt.outcome)]),
     ("committed_at_ms", renderInt64 record.committedAtMs)]

def renderState (state : EngineState) : Option String := do
  let rows ← state.rows.toList.mapM fun (key, row) => do pure (key, ← renderStoredRow row)
  let events ← state.events.mapM renderEvent
  pure (renderStruct
    [("next_sequence", toString state.nextSequence),
     ("minimum_available_sequence", toString state.minimumAvailableSequence),
     ("transaction_counter", toString state.transactionCounter),
     ("rows", renderObject rows), ("events", bracketed "[" events "]"),
     ("idempotency", renderObject (state.idempotency.toList.map fun (key, record) =>
       (key, renderRecord record)))])

def renderEnvelope (envelope : CheckpointEnvelope) : Option String := do
  let state ← renderState envelope.state
  pure (renderStruct
    [("format_version", toString envelope.formatVersion),
     ("project_id", renderString envelope.projectId),
     ("schema_version", toString envelope.schemaVersion), ("state", state)])

section Listed
variable {α : Type} [DecidableEq α]

def writeListed (render : α → Option String) (known : List α) (value : α) : Option Bytes :=
  if value ∈ known then (render value).map utf8 else none

theorem writeListed_of_mem (render : α → Option String) {known : List α} {value : α}
    (h : value ∈ known) : writeListed render known value = (render value).map utf8 :=
  if_pos h

def readListed (render : α → Option String) (known : List α) (bytes : Bytes) : Option α :=
  known.find? fun value => (render value).map utf8 = some bytes

/-- Distinct texts are read back as what was written. -/
theorem readListed_writeListed (render : α → Option String) {known : List α}
    (hdistinct : known.Pairwise fun a b => (render a).map utf8 ≠ (render b).map utf8)
    (value : α) (bytes : Bytes) (h : writeListed render known value = some bytes) :
    readListed render known bytes = some value := by
  simp only [writeListed, Option.ite_none_right_eq_some, readListed] at h ⊢
  obtain ⟨hmem, hbytes⟩ := h
  induction known with
  | nil => simp at hmem
  | cons first rest ih =>
    obtain ⟨hfirst, hrest⟩ := List.pairwise_cons.mp hdistinct
    rcases List.mem_cons.mp hmem with rfl | hmem
    · exact List.find?_cons_of_pos (decide_eq_true hbytes)
    · have hne : (render first).map utf8 ≠ some bytes := hbytes ▸ hfirst value hmem
      rw [List.find?_cons_of_neg (by rw [decide_eq_true_iff]; exact hne)]
      exact ih hrest hmem

end Listed

/-- Crates that know a list of cursor claims and of envelopes: these are written as
serde_json writes them and read back by looking them up. -/
def Crates.listing (claims : List CursorClaims) (envelopes : List CheckpointEnvelope) :
    Crates where
  valueToString := renderValue
  mutationToVec mutation := (renderMutation mutation).map utf8
  sha256 := Sha256.digest
  claimsToVec := writeListed (fun claims => some (renderClaims claims)) claims
  claimsFromSlice := readListed (fun claims => some (renderClaims claims)) claims
  hmacSha256 secret message := some (Sha256.hmac secret message)
  envelopeToVec := writeListed renderEnvelope envelopes
  envelopeFromSlice := readListed renderEnvelope envelopes

section Sample

def sampleConfig : SyncConfig where
  cursorTtlMs := 1000
  changeRetentionMs := 100
  tombstoneRetentionMs := 100
  maxPullEvents := 10
  maxPushMutations := 10
  idempotencyRetentionMs := 1000
  maxIdempotencyRecords := 10

def sampleSecret : Bytes := List.replicate 32 7

def sampleEngine : SyncEngine := ⟨"p", 1, sampleConfig, ⟨sampleSecret⟩, .initial⟩

theorem sampleEngine_started (crates : Crates) : Started crates sampleEngine :=
  .inl ⟨"p", 1, sampleSecret, sampleConfig, rfl⟩

def sampleContext (subject client : String) : SyncContext := ⟨"p", subject, "user", "scope", client⟩

def allowAll : SyncAuthorizer := ⟨fun _ _ _ => true, fun _ _ _ _ => true⟩

def sampleUpsert (mutationId primaryKey owner : String) : ClientMutation :=
  ⟨mutationId, "docs", .string primaryKey, .upsert, [("owner", .string owner)], none, none⟩

def sampleDelete (mutationId primaryKey : String) : ClientMutation :=
  ⟨mutationId, "docs", .string primaryKey, .delete, [], none, none⟩

def sampleBatch (client : String) (mutations : List ClientMutation) : PushBatch :=
  ⟨client, 1, .partialBatch, mutations⟩

def alice : SyncContext := sampleContext "alice" "phone"

def bob : SyncContext := sampleContext "bob" "tablet"

def pushAs (context : SyncContext) (mutation : ClientMutation) (nowMs : Int64) : Op :=
  .push context (sampleBatch context.trustedClientId [mutation]) allowAll nowMs

end Sample

end Ffdb.Sync
