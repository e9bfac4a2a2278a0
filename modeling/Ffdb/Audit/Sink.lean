import Ffdb.Lib.Fallible
import Ffdb.Lib.HashChain
import Ffdb.Lib.Keyed
import Ffdb.Lib.Machine
import Ffdb.Runtime.Json

/-! Audit events, a chain for each project, for each organization and for what belongs to neither.
A verification computes the chains again; the recorded heads it does not look at. -/
namespace Ffdb.Audit
open Fallible Text
open Sync (Value)

abbrev Uuid := BitVec 128

inductive ActorKind where
  | anonymous
  | user
  | apiKey
  | operator
  | service
  deriving DecidableEq

inductive AuditOutcome where
  | success
  | denied
  | failure
  deriving DecidableEq

inductive IpAddr where
  | v4 (octets : BitVec 32)
  | v6 (octets : BitVec 128)
  deriving DecidableEq

structure AuditDraft where
  occurredAtMs : Int64
  organizationId : Option Uuid
  projectId : Option Uuid
  requestId : Uuid
  actorKind : ActorKind
  actorId : Option Uuid
  action : List Char
  resourceKind : List Char
  resourceId : Option Uuid
  outcome : AuditOutcome
  sourceIp : Option IpAddr
  metadata : Value
  deriving DecidableEq

structure HashedEvent (Digest : Type) extends AuditDraft where
  id : Uuid
  previousHash : Option Digest
  deriving DecidableEq

structure AuditEvent (Digest : Type) extends HashedEvent Digest where
  eventHash : Digest
  deriving DecidableEq

inductive AuditError where
  | invalidEvent
  | integrity
  deriving DecidableEq

inductive AuditStream where
  | project (id : Uuid)
  | organization (id : Uuid)
  | global
  deriving DecidableEq

def maxMetadataBytes : Nat := 16*1024

def isSensitiveKey (key : List Char) : Bool :=
  let normalized := replaceWith '-' ['_'] (toAsciiLowercase key)
  normalized = "authorization".toList || normalized = "cookie".toList || normalized = "set_cookie".toList ||
    ["password", "secret", "token", "private_key", "api_key"].any fun word => hasInfix word.toList normalized

/-- Secrets out of a value; the count of its nodes goes through. -/
def redactValue (key : Option String) (depth : Nat) (value : Value) (nodes : Nat) : Except AuditError (Value × Nat) :=
  let nodes := nodes + 1
  if 8 < depth || 512 < nodes then .error .invalidEvent
  else if key.any fun key => isSensitiveKey key.toList then .ok (.string "[REDACTED]", nodes)
  else match value with
    | .array items => (redactItems (depth + 1) items nodes).map fun (items, nodes) => (.array items, nodes)
    | .object fields => (redactFields (depth + 1) fields nodes).map fun (fields, nodes) => (.object fields, nodes)
    | .string text => if 2048 < byteLength text.toList then .error .invalidEvent else .ok (.string text, nodes)
    | value => .ok (value, nodes)
where
  redactItems (depth : Nat) : List Value → Nat → Except AuditError (List Value × Nat)
    | [], nodes => .ok ([], nodes)
    | item :: rest, nodes => do
      let (item, nodes) ← redactValue none depth item nodes
      let (rest, nodes) ← redactItems depth rest nodes
      pure (item :: rest, nodes)
  redactFields (depth : Nat) : List (String × Value) → Nat → Except AuditError (List (String × Value) × Nat)
    | [], nodes => .ok ([], nodes)
    | (name, field) :: rest, nodes => do
      let (field, nodes) ← redactValue (some name) depth field nodes
      let (rest, nodes) ← redactFields depth rest nodes
      pure ((name, field) :: rest, nodes)

def safeIdentifier (value : List Char) : Bool :=
  1 ≤ byteLength value && byteLength value ≤ 128 &&
    value.all fun c => c.isLower || c.isDigit || c = '.' || c = '_' || c = '-'

section Sink
variable {Digest : Type} [DecidableEq Digest] (doubles : Runtime.Doubles) (hash : HashedEvent Digest → Digest)

def validateAndRedact (draft : AuditDraft) : Except AuditError AuditDraft := do
  require (!(draft.occurredAtMs < 0 || !safeIdentifier draft.action || !safeIdentifier draft.resourceKind ||
    (draft.actorKind = .anonymous && draft.actorId.isSome))) .invalidEvent
  let (metadata, _) ← redactValue none 0 draft.metadata 0
  require (byteLength (Runtime.valueText doubles metadata) ≤ maxMetadataBytes) .invalidEvent
  pure { draft with metadata }

def AuditDraft.stream (draft : AuditDraft) : AuditStream :=
  match draft.projectId, draft.organizationId with
  | some id, _ => .project id
  | none, some id => .organization id
  | none, none => .global

def buildEvent (id : Uuid) (draft : AuditDraft) (previousHash : Option Digest) : AuditEvent Digest :=
  let hashed : HashedEvent Digest := { draft with id, previousHash }
  { hashed with eventHash := hash hashed }

structure AuditState (Digest : Type) where
  events : List (AuditEvent Digest) := []
  heads : Table AuditStream Digest := ∅

def append (state : AuditState Digest) (draft : AuditDraft) (id : Uuid) :
    AuditState Digest × Except AuditError (AuditEvent Digest) :=
  match validateAndRedact doubles draft with
  | .error error => (state, .error error)
  | .ok draft =>
    let event := buildEvent hash id draft (state.heads.lookup draft.stream)
    (⟨state.events ++ [event], state.heads.insert draft.stream event.eventHash⟩, .ok event)

def AuditEvent.stream (event : AuditEvent Digest) : AuditStream := event.toAuditDraft.stream

def verifyFrom (heads : Table AuditStream Digest) : List (AuditEvent Digest) → Except AuditError Unit
  | [] => .ok ()
  | event :: rest =>
    if event.previousHash ≠ heads.lookup event.stream ∨ hash event.toHashedEvent ≠ event.eventHash then
      .error .integrity
    else verifyFrom (heads.insert event.stream event.eventHash) rest

def verify (state : AuditState Digest) : Except AuditError Unit := verifyFrom hash ∅ state.events

def appendStep (state : AuditState Digest) (call : AuditDraft × Uuid) : AuditState Digest :=
  (append doubles hash state call.1 call.2).1

end Sink

end Ffdb.Audit
