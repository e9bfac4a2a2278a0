import Ffdb.Lib.Base64
import Ffdb.Lib.Sha256
import Ffdb.ObjectStorage.Project

/-! Grants as tokens: their claims as JSON under a keyed hash. Verification bounds the length of the JSON, and issuing
does not: a token that is issued can be one that is never accepted. -/
namespace Ffdb.ObjectStorage
open Text Fallible Saturating
open Sync (Value Number JsonMap Bytes escapeChar backslash quote)
open Ffdb.Runtime (Doubles stringText valueText)

def StorageAction.name : StorageAction → String
  | .upload => "upload"
  | .download => "download"
  | .delete => "delete"
  | .list => "list"
  | .createMultipart => "create_multipart"
  | .uploadPart => "upload_part"
  | .completeMultipart => "complete_multipart"
  | .abortMultipart => "abort_multipart"

def storageActions : List StorageAction :=
  [.upload, .download, .delete, .list, .createMultipart, .uploadPart, .completeMultipart, .abortMultipart]

section Claims

def textValue (text : List Char) : Value := .string (String.ofList text)

def intValue (value : Int64) : Value :=
  .number (if value.toInt < 0 then .negInt value.toInt else .posInt value.toInt.toNat)

def optionValue {α : Type} (write : α → Value) : Option α → Value
  | none => .null
  | some value => write value

def GrantClaims.toFields (claims : GrantClaims) : JsonMap :=
  [("project_id", textValue claims.projectId),
   ("subject", textValue claims.subject),
   ("token_id", textValue claims.tokenId),
   ("bucket", textValue claims.bucket),
   ("object_key", textValue claims.objectKey),
   ("provider_key", textValue claims.providerKey),
   ("action", .string claims.action.name),
   ("max_bytes", optionValue (fun n => .number (.posInt n)) claims.maxBytes),
   ("checksum_sha256", optionValue textValue claims.checksumSha256),
   ("content_type", optionValue textValue claims.contentType),
   ("upload_id", optionValue textValue claims.uploadId),
   ("part_number", optionValue (fun n => .number (.posInt n)) claims.partNumber),
   ("scope_fingerprint", textValue claims.scopeFingerprint),
   ("issued_at_ms", intValue claims.issuedAtMs),
   ("expires_at_ms", intValue claims.expiresAtMs),
   ("nonce", textValue claims.nonce),
   ("reservation_bytes", .number (.posInt claims.reservationBytes)),
   ("reservation_expires_at_ms", intValue claims.reservationExpiresAtMs),
   ("replacement_fingerprint", optionValue textValue claims.replacementFingerprint)]

def readText : Value → Option (List Char)
  | .string text => some text.toList
  | _ => none

def readAction : Value → Option StorageAction
  | .string text => storageActions.find? (·.name = text)
  | .object [(text, .null)] => storageActions.find? (·.name = text)
  | _ => none

def readUnsigned (maximum : Nat) : Value → Option Nat
  | .number (.posInt n) => if n ≤ maximum then some n else none
  | _ => none

def readI64 : Value → Option Int64
  | .number (.posInt n) => if (n : Int) ≤ Int64.maxValue.toInt then some (Int64.ofInt n) else none
  | .number (.negInt i) => if Int64.minValue.toInt ≤ i then some (Int64.ofInt i) else none
  | _ => none

def u32Max : Nat := 2^32-1

def soleField (fields : JsonMap) (name : String) : Option (Option Value) :=
  match fields.filter (·.1 = name) with
  | [] => some none
  | [field] => some (some field.2)
  | _ => none

def requiredField {α : Type} (read : Value → Option α) (fields : JsonMap) (name : String) : Option α :=
  match soleField fields name with
  | some (some value) => read value
  | _ => none

def optionalField {α : Type} (read : Value → Option α) (fields : JsonMap) (name : String) : Option (Option α) :=
  match soleField fields name with
  | some none => some none
  | some (some .null) => some none
  | some (some value) => (read value).map some
  | none => none

def GrantClaims.fromFields (fields : JsonMap) : Option GrantClaims := do
  let projectId ← requiredField readText fields "project_id"
  let subject ← requiredField readText fields "subject"
  let tokenId ← requiredField readText fields "token_id"
  let bucket ← requiredField readText fields "bucket"
  let objectKey ← requiredField readText fields "object_key"
  let providerKey ← requiredField readText fields "provider_key"
  let action ← requiredField readAction fields "action"
  let maxBytes ← optionalField (readUnsigned u64Max) fields "max_bytes"
  let checksumSha256 ← optionalField readText fields "checksum_sha256"
  let contentType ← optionalField readText fields "content_type"
  let uploadId ← optionalField readText fields "upload_id"
  let partNumber ← optionalField (readUnsigned u32Max) fields "part_number"
  let scopeFingerprint ← requiredField readText fields "scope_fingerprint"
  let issuedAtMs ← requiredField readI64 fields "issued_at_ms"
  let expiresAtMs ← requiredField readI64 fields "expires_at_ms"
  let nonce ← requiredField readText fields "nonce"
  let reservationBytes ← requiredField (readUnsigned u64Max) fields "reservation_bytes"
  let reservationExpiresAtMs ← requiredField readI64 fields "reservation_expires_at_ms"
  let replacementFingerprint ← optionalField readText fields "replacement_fingerprint"
  pure { projectId, subject, tokenId, bucket, objectKey, providerKey, action, maxBytes, checksumSha256, contentType,
         uploadId, partNumber, scopeFingerprint, issuedAtMs, expiresAtMs, nonce, reservationBytes,
         reservationExpiresAtMs, replacementFingerprint }

def grantFieldNames : List String :=
  ["project_id", "subject", "token_id", "bucket", "object_key", "provider_key", "action", "max_bytes",
   "checksum_sha256", "content_type", "upload_id", "part_number", "scope_fingerprint", "issued_at_ms",
   "expires_at_ms", "nonce", "reservation_bytes", "reservation_expires_at_ms", "replacement_fingerprint"]

/-- The derived reader of the claims, which takes their values in order as well. -/
def GrantClaims.fromValue : Value → Option GrantClaims
  | .object fields => fromFields fields
  | .array items => if items.length = grantFieldNames.length then fromFields (grantFieldNames.zip items) else none
  | _ => none

end Claims

abbrev SliceReader := Bytes → Option Value

def Plain : Value → Prop
  | .null => True
  | .string _ => True
  | .number (.posInt n) => n ≤ u64Max
  | .number (.negInt i) => Int64.minValue.toInt ≤ i ∧ i < 0
  | _ => False

/-- An object of plain values is read as it was written. -/
def SliceReader.Lawful (doubles : Doubles) (fromSlice : SliceReader) : Prop :=
  ∀ fields : JsonMap, (∀ field ∈ fields, Plain field.2) →
    fromSlice (utf8 (valueText doubles (.object fields))) = some (.object fields)

def maxTokenBytes : Nat := 8192
def maxPayloadEncodedBytes : Nat := 7000
def maxPayloadBytes : Nat := 5120
def signatureEncodedBytes : Nat := 43

section Tokens
variable (doubles : Doubles) (fromSlice : SliceReader) (secret : Bytes)

def issue (claims : GrantClaims) : List Char :=
  let payload := utf8 (valueText doubles (.object claims.toFields))
  Base64.encode payload ++ '.' :: Base64.encode (Sha256.hmac secret payload)

def verifyAuthenticated (token : List Char) : Except StorageError GrantClaims := do
  require (byteLength token ≤ maxTokenBytes) .invalidGrant
  let (payload, signature) ← orError (splitOnce '.' token) .invalidGrant
  require (byteLength payload ≤ maxPayloadEncodedBytes && byteLength signature = signatureEncodedBytes) .invalidGrant
  let payload ← orError (Base64.decode payload) .invalidGrant
  require (payload.length ≤ maxPayloadBytes) .invalidGrant
  let signature ← orError (Base64.decode signature) .invalidGrant
  require (signature.length = 32) .invalidGrant
  require (Sha256.hmac secret payload = signature) .invalidGrant
  orError ((fromSlice payload).bind GrantClaims.fromValue) .invalidGrant

/-- The codec of a gateway: grants live no longer than it lets them. -/
def signingCodec (limits : StorageLimits) : GrantCodec (List Char) where
  verifyAuthenticated := verifyAuthenticated fromSlice secret
  maxTtlMs := limits.grantTtlMs.toInt

/-- Only writes reserve in the database. -/
def reserveDurably (action : StorageAction) (reserved : Except StorageError Unit) : Except StorageError Unit :=
  if requiresDurableReservation action then reserved else .ok ()

/-- A grant for a request: `decision` and `reserved` are what the database answers, `reservations` what the gateway
holds when it has the decision. -/
def authorizeWithNonce (limits : StorageLimits) (request : AuthorizationRequest) (nowMs : Int64) (nonce : List Char)
    (decision : Except StorageError MetadataAuthorization) (reservations : Reservations)
    (reserved : Except StorageError Unit) : Except StorageError (List Char) := do
  validateRequest doubles request
  require (!(byteLength nonce < 16 || 128 < byteLength nonce)) .invalidGrant
  let authorization ← decision
  checkAuthorization request authorization
  (admitReservation limits authorization request.auth.projectId nonce nowMs reservations).2
  reserveDurably request.action reserved
  pure (issue doubles secret (grantClaims request authorization nonce nowMs limits.grantTtlMs))

end Tokens

section RoundTrip

theorem readText_textValue (text : List Char) : readText (textValue text) = some text := by
  simp [readText, textValue]

theorem readAction_name (action : StorageAction) : readAction (.string action.name) = some action := by
  cases action <;> decide

theorem readUnsigned_posInt {maximum n : Nat} (h : n ≤ maximum) :
    readUnsigned maximum (.number (.posInt n)) = some n := if_pos h

theorem readI64_intValue (value : Int64) : readI64 (intValue value) = some value := by
  have hlow := Int64.minValue_le_toInt value
  have hhigh := Int64.toInt_le value
  unfold intValue
  split
  · simp only [readI64, if_pos hlow, Int64.ofInt_toInt]
  · have hnat : (value.toInt.toNat : Int) = value.toInt := Int.toNat_of_nonneg (by omega)
    rw [Int64.toInt_maxValue] at *
    simp only [readI64, hnat, if_pos hhigh, Int64.toInt_maxValue, Int64.ofInt_toInt]

theorem requiredField_of_sole {α : Type} {read : Value → Option α} {fields : JsonMap} {name : String} {value : Value}
    {result : α} (h : soleField fields name = some (some value)) (hread : read value = some result) :
    requiredField read fields name = some result := by
  rw [requiredField, h]
  exact hread

theorem optionalField_of_sole {α : Type} {read : Value → Option α} {write : α → Value} {fields : JsonMap}
    {name : String} {value : Option α} (h : soleField fields name = some (some (optionValue write value)))
    (hread : ∀ a, value = some a → read (write a) = some a) (hnull : ∀ a, write a ≠ .null) :
    optionalField read fields name = some value := by
  cases value with
  | none => rw [optionalField, h, optionValue]
  | some a =>
    have hvalue := hread a rfl
    have hwritten := hnull a
    rw [optionalField, h, optionValue]
    cases hwrite : write a with
    | null => exact absurd hwrite hwritten
    | _ =>
      rw [hwrite] at hvalue
      simp only [hvalue, Option.map_some]

structure GrantClaims.Sized (claims : GrantClaims) : Prop where
  maxBytes : ∀ n, claims.maxBytes = some n → n ≤ u64Max
  partNumber : ∀ n, claims.partNumber = some n → n ≤ u32Max
  reservationBytes : claims.reservationBytes ≤ u64Max

theorem fromFields_toFields {claims : GrantClaims} (h : claims.Sized) :
    GrantClaims.fromFields claims.toFields = some claims := by
  have htext {name : String} {text : List Char}
      (hsole : soleField claims.toFields name = some (some (textValue text))) :
      requiredField readText claims.toFields name = some text :=
    requiredField_of_sole hsole (readText_textValue text)
  have hint {name : String} {value : Int64} (hsole : soleField claims.toFields name = some (some (intValue value))) :
      requiredField readI64 claims.toFields name = some value :=
    requiredField_of_sole hsole (readI64_intValue value)
  have hoption {name : String} {text : Option (List Char)}
      (hsole : soleField claims.toFields name = some (some (optionValue textValue text))) :
      optionalField readText claims.toFields name = some text :=
    optionalField_of_sole hsole (fun a _ => readText_textValue a) fun _ => by simp [textValue]
  have hcount {name : String} {maximum : Nat} {value : Option Nat} (hbound : ∀ n, value = some n → n ≤ maximum)
      (hsole : soleField claims.toFields name =
        some (some (optionValue (fun n => .number (.posInt n)) value))) :
      optionalField (readUnsigned maximum) claims.toFields name = some value :=
    optionalField_of_sole hsole (fun a ha => readUnsigned_posInt (hbound a ha)) fun _ => by simp
  unfold GrantClaims.fromFields
  rw [(htext rfl : requiredField readText claims.toFields "project_id" = some claims.projectId)]
  rw [(htext rfl : requiredField readText claims.toFields "subject" = some claims.subject)]
  rw [(htext rfl : requiredField readText claims.toFields "token_id" = some claims.tokenId)]
  rw [(htext rfl : requiredField readText claims.toFields "bucket" = some claims.bucket)]
  rw [(htext rfl : requiredField readText claims.toFields "object_key" = some claims.objectKey)]
  rw [(htext rfl : requiredField readText claims.toFields "provider_key" = some claims.providerKey)]
  rw [(requiredField_of_sole rfl (readAction_name claims.action) :
    requiredField readAction claims.toFields "action" = some claims.action)]
  rw [(hcount h.maxBytes rfl : optionalField (readUnsigned u64Max) claims.toFields "max_bytes" = some claims.maxBytes)]
  rw [(hoption rfl : optionalField readText claims.toFields "checksum_sha256" = some claims.checksumSha256)]
  rw [(hoption rfl : optionalField readText claims.toFields "content_type" = some claims.contentType)]
  rw [(hoption rfl : optionalField readText claims.toFields "upload_id" = some claims.uploadId)]
  rw [(hcount h.partNumber rfl :
    optionalField (readUnsigned u32Max) claims.toFields "part_number" = some claims.partNumber)]
  rw [(htext rfl : requiredField readText claims.toFields "scope_fingerprint" = some claims.scopeFingerprint)]
  rw [(hint rfl : requiredField readI64 claims.toFields "issued_at_ms" = some claims.issuedAtMs)]
  rw [(hint rfl : requiredField readI64 claims.toFields "expires_at_ms" = some claims.expiresAtMs)]
  rw [(htext rfl : requiredField readText claims.toFields "nonce" = some claims.nonce)]
  rw [(requiredField_of_sole rfl (readUnsigned_posInt h.reservationBytes) :
    requiredField (readUnsigned u64Max) claims.toFields "reservation_bytes" = some claims.reservationBytes)]
  rw [(hint rfl :
    requiredField readI64 claims.toFields "reservation_expires_at_ms" = some claims.reservationExpiresAtMs)]
  rw [(hoption rfl :
    optionalField readText claims.toFields "replacement_fingerprint" = some claims.replacementFingerprint)]
  rfl

end RoundTrip

section Sizes

def escapedBytes (c : Char) : Nat :=
  if c = quote ∨ c = backslash ∨ c.toNat ∈ [8, 9, 10, 12, 13] then 2 else if c.toNat < 0x20 then 6 else c.utf8Size

def textBytes (text : List Char) : Nat := (text.map escapedBytes).sum+2

def digitBytes (n : Nat) : Nat := n.repr.length

def intBytes (i : Int) : Nat := i.repr.length

def optionBytes {α : Type} (bytes : α → Nat) : Option α → Nat
  | none => 4
  | some value => bytes value

/-- The bytes of the claims of a grant: 304 for their names and what separates them, and what the request, the
decision and the time take. -/
def grantBytes (request : AuthorizationRequest) (authorization : MetadataAuthorization) (nonce : List Char)
    (nowMs grantTtlMs : Int64) : Nat :=
  304+textBytes request.auth.projectId+textBytes request.auth.subject+textBytes request.auth.tokenId+
    textBytes request.bucket+textBytes request.objectKey+textBytes authorization.providerKey+
    (request.action.name.length+2)+optionBytes digitBytes request.contentLength+
    optionBytes textBytes request.checksumSha256+optionBytes textBytes request.contentType+
    optionBytes textBytes request.uploadId+optionBytes digitBytes request.partNumber+
    textBytes authorization.scopeFingerprint+intBytes nowMs.toInt+intBytes (Saturating.add nowMs grantTtlMs).toInt+
    textBytes nonce+digitBytes authorization.reservationBytes+intBytes (Saturating.add nowMs grantTtlMs).toInt+
    optionBytes textBytes authorization.replacementFingerprint

theorem byteLength_escapeChar (c : Char) : byteLength (escapeChar c) = escapedBytes c := by
  by_cases hcontrol : c.toNat < 0x20
  · have hall : ∀ n : Fin 32, byteLength (escapeChar (Char.ofNat n)) = escapedBytes (Char.ofNat n) := by decide
    have hc := hall ⟨c.toNat, hcontrol⟩
    rwa [Char.ofNat_toNat] at hc
  · have hne (n : Nat) (hn : n < 0x20) : c ≠ Char.ofNat n := by
      rintro rfl
      have hsmall : ∀ n : Fin 32, (Char.ofNat n).toNat < 0x20 := by decide
      exact hcontrol (hsmall ⟨n, hn⟩)
    by_cases hself : c = quote ∨ c = backslash
    · obtain rfl | rfl := hself <;> decide
    · have hspecial : ¬ (c = quote ∨ c = backslash ∨ c.toNat ∈ [8, 9, 10, 12, 13]) := by
        simp only [List.mem_cons, List.not_mem_nil, or_false]
        rintro (hquote | hbackslash | hcode)
        · exact hself (.inl hquote)
        · exact hself (.inr hbackslash)
        · omega
      rw [escapeChar, escapedBytes, if_neg hself, if_neg (hne 8 (by decide)), if_neg (hne 9 (by decide)),
        if_neg (hne 10 (by decide)), if_neg (hne 12 (by decide)), if_neg (hne 13 (by decide)), if_neg hcontrol,
        if_neg hspecial, if_neg hcontrol]
      simp [byteLength]

theorem byteLength_stringText (text : List Char) : byteLength (stringText (String.ofList text)) = textBytes text := by
  have hbody : byteLength (text.flatMap escapeChar) = (text.map escapedBytes).sum := by
    induction text with
    | nil => rfl
    | cons c text ih =>
      rw [List.flatMap_cons, byteLength_append, byteLength_escapeChar, ih, List.map_cons, List.sum_cons]
  have hquote : byteLength [quote] = 1 := by decide
  rw [stringText, String.toList_ofList, List.cons_append, ← List.singleton_append, byteLength_append, byteLength_append,
    hbody, hquote, textBytes]
  omega

/-- The bytes of the fields of an object: a name in quotes, a colon, the value and what follows it. -/
def fieldBytes (doubles : Doubles) (field : String × Value) : Nat :=
  byteLength (stringText field.1)+byteLength (valueText doubles field.2)+2

variable {doubles : Doubles}

theorem byteLength_fieldsText (fields : JsonMap) :
    byteLength (valueText.fieldsText doubles fields) = (fields.map (fieldBytes doubles)).sum+1 := by
  induction fields with
  | nil => rfl
  | cons field fields ih =>
    have hcomma : (',' : Char).utf8Size = 1 := rfl
    have hcolon : (':' : Char).utf8Size = 1 := rfl
    simp only [valueText.fieldsText, List.cons_append, List.append_assoc, byteLength_cons, byteLength_append, ih,
      List.map_cons, List.sum_cons, fieldBytes, hcomma, hcolon]
    omega

theorem byteLength_objectText (field : String × Value) (fields : JsonMap) :
    byteLength (valueText doubles (.object (field :: fields))) =
      ((field :: fields).map (fieldBytes doubles)).sum+1 := by
  have hbrace : Runtime.openBrace.utf8Size = 1 := rfl
  have hcomma : (',' : Char).utf8Size = 1 := rfl
  have hfields := @byteLength_fieldsText doubles (field :: fields)
  simp only [valueText.fieldsText, valueText, List.cons_append, List.append_assoc, byteLength_cons,
    hbrace, hcomma] at hfields ⊢
  exact hfields

theorem byteLength_textValue (text : List Char) : byteLength (valueText doubles (textValue text)) = textBytes text :=
  byteLength_stringText text

theorem utf8Size_of_isNumberChar {c : Char} (h : Runtime.isNumberChar c = true) : c.utf8Size = 1 := by
  simp only [Runtime.isNumberChar, Char.isDigit, Bool.or_eq_true, Bool.and_eq_true, decide_eq_true_eq] at h
  obtain (((⟨-, hnine⟩ | rfl) | rfl) | rfl) | rfl := h
  · have hascii : (57 : UInt32) ≤ 127 := by decide
    exact Char.utf8Size_eq_one_iff.mpr (UInt32.le_trans hnine hascii)
  all_goals rfl

theorem byteLength_natural (n : Nat) : byteLength (valueText doubles (.number (.posInt n))) = digitBytes n := by
  have hascii : ∀ c ∈ n.repr.toList, c.utf8Size = 1 := by
    intro c hc
    exact utf8Size_of_isNumberChar (by simp [Runtime.isNumberChar, Runtime.repr_chars n c hc])
  exact byteLength_of_ascii hascii

theorem byteLength_intValue (value : Int64) :
    byteLength (valueText doubles (intValue value)) = intBytes value.toInt := by
  unfold intValue
  split
  case isTrue hneg =>
    have hascii : ∀ c ∈ value.toInt.repr.toList, c.utf8Size = 1 := by
      intro c hc
      rw [Runtime.int_repr_neg hneg] at hc
      obtain rfl | hc := List.mem_cons.mp hc
      · rfl
      · exact utf8Size_of_isNumberChar (by simp [Runtime.isNumberChar, Runtime.repr_chars _ c hc])
    exact byteLength_of_ascii hascii
  case isFalse hneg =>
    have hnat : (value.toInt.toNat : Int) = value.toInt := Int.toNat_of_nonneg (by omega)
    rw [byteLength_natural, ← hnat]
    rfl

theorem byteLength_optionValue {α : Type} {write : α → Value} {bytes : α → Nat}
    (h : ∀ a, byteLength (valueText doubles (write a)) = bytes a) (value : Option α) :
    byteLength (valueText doubles (optionValue write value)) = optionBytes bytes value := by
  cases value with
  | none => rfl
  | some a => exact h a

theorem byteLength_name (action : StorageAction) :
    byteLength (valueText doubles (.string action.name)) = action.name.length+2 := by
  cases action <;> rfl

theorem byteLength_payload (request : AuthorizationRequest) (authorization : MetadataAuthorization)
    (nonce : List Char) (nowMs grantTtlMs : Int64) :
    byteLength (valueText doubles (.object (grantClaims request authorization nonce nowMs grantTtlMs).toFields)) =
      grantBytes request authorization nonce nowMs grantTtlMs := by
  have hnames : grantFieldNames.map (fun name => byteLength (stringText name)) =
      [12, 9, 10, 8, 12, 14, 8, 11, 17, 14, 11, 13, 19, 14, 15, 7, 19, 27, 25] := by decide +kernel
  simp only [grantFieldNames, List.map_cons, List.map_nil, List.cons.injEq] at hnames
  rw [GrantClaims.toFields, byteLength_objectText]
  simp only [List.map_cons, List.map_nil, List.sum_cons, List.sum_nil, fieldBytes, hnames, grantClaims,
    byteLength_textValue, byteLength_intValue, byteLength_natural, byteLength_name,
    byteLength_optionValue byteLength_textValue, byteLength_optionValue byteLength_natural, grantBytes]
  omega

end Sizes

section Verify
variable {doubles : Doubles} {fromSlice : SliceReader} {secret : Bytes} {claims : GrantClaims}

theorem plain_intValue (value : Int64) : Plain (intValue value) := by
  have hlow := Int64.minValue_le_toInt value
  have hhigh := Int64.toInt_lt value
  unfold intValue
  split
  case isTrue hneg => exact ⟨hlow, hneg⟩
  case isFalse hneg =>
    have hmax : u64Max = 2^64-1 := rfl
    change value.toInt.toNat ≤ u64Max
    omega

theorem plain_optionValue {α : Type} {write : α → Value} {value : Option α}
    (h : ∀ a, value = some a → Plain (write a)) : Plain (optionValue write value) := by
  cases value with
  | none => trivial
  | some a => exact h a rfl

theorem GrantClaims.Sized.plain (h : claims.Sized) : ∀ field ∈ claims.toFields, Plain field.2 := by
  have htext (text : List Char) : Plain (textValue text) := trivial
  have hname (text : String) : Plain (.string text) := trivial
  have hbytes : Plain (.number (.posInt claims.reservationBytes)) := h.reservationBytes
  have hmax : Plain (optionValue (fun n => .number (.posInt n)) claims.maxBytes) := plain_optionValue h.maxBytes
  have hpart : Plain (optionValue (fun n => .number (.posInt n)) claims.partNumber) := by
    refine plain_optionValue fun n hn => ?_
    have hwide : u32Max ≤ u64Max := by decide
    exact (h.partNumber n hn).trans hwide
  have hoption (text : Option (List Char)) : Plain (optionValue textValue text) := plain_optionValue fun a _ => htext a
  simp only [GrantClaims.toFields, List.forall_mem_cons, htext, hname, hbytes, hmax, hpart, hoption, plain_intValue,
    true_and, List.not_mem_nil, false_implies, implies_true]

theorem verifyAuthenticated_failsOnly (token : List Char) :
    FailsOnly .invalidGrant (verifyAuthenticated fromSlice secret token) := by
  refine (FailsOnly.require _).bind fun _ _ => (FailsOnly.orError _).bind fun _ _ => ?_
  refine (FailsOnly.require _).bind fun _ _ => (FailsOnly.orError _).bind fun _ _ => ?_
  refine (FailsOnly.require _).bind fun _ _ => (FailsOnly.orError _).bind fun _ _ => ?_
  exact (FailsOnly.require _).bind fun _ _ => (FailsOnly.require _).bind fun _ _ => FailsOnly.orError _

theorem byteLength_signed (payload mac : Bytes) (hmac : mac.length = 32) :
    byteLength (Base64.encode payload ++ '.' :: Base64.encode mac) = (4*payload.length+2)/3+44 := by
  have hdot : ('.' : Char).utf8Size = 1 := rfl
  rw [byteLength_append, byteLength_cons, hdot, Base64.byteLength_encode, Base64.byteLength_encode, hmac]

/-- What a signed payload takes to be accepted; the bound of the payload is the one that matters. -/
theorem verifyAuthenticated_signed (payload : Bytes) (claims : GrantClaims) :
    verifyAuthenticated fromSlice secret (Base64.encode payload ++ '.' :: Base64.encode (Sha256.hmac secret payload)) =
        .ok claims ↔
      payload.length ≤ maxPayloadBytes ∧ (fromSlice payload).bind GrantClaims.fromValue = some claims := by
  have hlength := Sha256.length_hmac secret payload
  have hsplit := splitOnce_append (Base64.encode payload) (Base64.encode (Sha256.hmac secret payload))
    (Base64.dot_notMem_encode payload)
  have hpayload := Base64.byteLength_encode payload
  have hsignature := Base64.byteLength_encode (Sha256.hmac secret payload)
  have htoken := byteLength_signed payload (Sha256.hmac secret payload) hlength
  simp only [verifyAuthenticated, bind_ok_iff, require_ok_iff, orError_ok_iff, Bool.and_eq_true, decide_eq_true_eq,
    hsplit, htoken, hpayload, hsignature, hlength, Base64.decode_encode, Option.some.injEq, exists_eq_left',
    exists_const, true_and, maxTokenBytes, maxPayloadEncodedBytes, maxPayloadBytes, signatureEncodedBytes]
  constructor
  · rintro ⟨-, -, hfits, hread⟩
    exact ⟨of_decide_eq_true hfits, hread⟩
  · rintro ⟨hfits, hread⟩
    exact ⟨by omega, ⟨by omega, trivial⟩, decide_eq_true hfits, hread⟩

/-- An issued token is accepted when its payload is within the limit, and refused otherwise. -/
theorem verifyAuthenticated_issue (secret : Bytes) (hlawful : fromSlice.Lawful doubles) (h : claims.Sized) :
    verifyAuthenticated fromSlice secret (issue doubles secret claims) =
      if byteLength (valueText doubles (.object claims.toFields)) ≤ maxPayloadBytes then .ok claims
      else .error .invalidGrant := by
  have hread : (fromSlice (utf8 (valueText doubles (.object claims.toFields)))).bind GrantClaims.fromValue =
      some claims := by
    rw [hlawful claims.toFields h.plain]
    exact fromFields_toFields h
  have hsize := length_utf8 (valueText doubles (.object claims.toFields))
  unfold issue
  split
  case isTrue hfits => exact (verifyAuthenticated_signed _ claims).mpr ⟨hsize.symm ▸ hfits, hread⟩
  case isFalse hlong =>
    rw [← hsize] at hlong
    generalize utf8 (valueText doubles (.object claims.toFields)) = payload at *
    cases hverify : verifyAuthenticated fromSlice secret
        (Base64.encode payload ++ '.' :: Base64.encode (Sha256.hmac secret payload)) with
    | error e => rw [verifyAuthenticated_failsOnly _ e hverify]
    | ok accepted => exact absurd ((verifyAuthenticated_signed _ accepted).mp hverify).1 hlong

/-- The end of a grant, without the clamping. -/
theorem toInt_add_of_nonneg {a b : Int64} (h : 0 ≤ b.toInt) :
    (Saturating.add a b).toInt = min (a.toInt+b.toInt) Int64.maxValue.toInt := by
  have hlow := Int64.minValue_le_toInt a
  unfold Saturating.add Int64.ofIntClamp
  rw [dif_pos (by omega)]
  split
  case isTrue hfits => rw [Int64.toInt_ofIntLE, min_eq_left hfits]
  case isFalse hpast => rw [min_eq_right (by omega)]

end Verify

section Grants
variable {doubles : Doubles} {fromSlice : SliceReader} {secret : Bytes} {limits : StorageLimits}
  {request : AuthorizationRequest} {authorization : MetadataAuthorization} {nowMs : Int64} {nonce token : List Char}
  {reservations : Reservations} {reserved : Except StorageError Unit}

theorem partNumber_le (h : validateRequest doubles request = .ok ()) :
    ∀ n, request.partNumber = some n → n ≤ u32Max := by
  intro n hn
  simp only [validateRequest, bind_ok_iff, require_ok_iff] at h
  obtain ⟨-, -, -, -, -, -, hpart⟩ := h
  have hbound : n ≤ 10000 := by
    by_contra hpast
    simp only [hn, Option.any_some] at hpart
    rw [decide_eq_true (by omega : 10000 < n)] at hpart
    simp at hpart
  exact hbound.trans (by decide)

theorem authorizeWithNonce_ok
    (h : authorizeWithNonce doubles secret limits request nowMs nonce (.ok authorization) reservations reserved =
      .ok token) :
    validateRequest doubles request = .ok () ∧
      token = issue doubles secret (grantClaims request authorization nonce nowMs limits.grantTtlMs) := by
  simp only [authorizeWithNonce, bind_ok_iff, pure_ok_iff, Except.ok.injEq, exists_eq_left'] at h
  obtain ⟨_, hvalid, _, -, _, -, _, -, _, -, rfl⟩ := h
  exact ⟨hvalid, rfl⟩

/-- When a grant is accepted, given that its token is. -/
theorem verify_of_authenticated {claims : GrantClaims} {readMs : Int64}
    (htoken : verifyAuthenticated fromSlice secret token = .ok claims)
    (hfrom : claims.issuedAtMs ≤ readMs) (hto : readMs < claims.expiresAtMs)
    (httl : claims.expiresAtMs.toInt-claims.issuedAtMs.toInt ≤ limits.grantTtlMs.toInt) :
    (signingCodec fromSlice secret limits).verify token readMs = .ok claims := by
  simp only [GrantCodec.verify, bind_ok_iff, require_ok_iff, pure_ok_iff, Bool.and_eq_true, decide_eq_true_eq]
  exact ⟨claims, htoken, (), ⟨⟨hfrom, hto⟩, httl⟩, rfl⟩

theorem verify_of_refused {error : StorageError} {readMs : Int64}
    (h : verifyAuthenticated fromSlice secret token = .error error) :
    (signingCodec fromSlice secret limits).verify token readMs = .error error := by
  simp only [GrantCodec.verify, signingCodec, h]
  rfl

/-- A grant that is issued is accepted as what it was issued for until it expires, just when its claims fit the limit
of verification; the last moment there is issues grants that have expired. -/
theorem grant_accepted_iff (hlawful : fromSlice.Lawful doubles) (hlimits : 0 < limits.grantTtlMs)
    (hlength : ∀ n, request.contentLength = some n → n ≤ u64Max) (hbytes : authorization.reservationBytes ≤ u64Max)
    (h : authorizeWithNonce doubles secret limits request nowMs nonce (.ok authorization) reservations reserved =
      .ok token) :
    (∀ readMs, nowMs ≤ readMs → readMs < Saturating.add nowMs limits.grantTtlMs →
      (signingCodec fromSlice secret limits).verify token readMs =
        .ok (grantClaims request authorization nonce nowMs limits.grantTtlMs)) ↔
      nowMs = Int64.maxValue ∨ grantBytes request authorization nonce nowMs limits.grantTtlMs ≤ maxPayloadBytes := by
  obtain ⟨hvalid, rfl⟩ := authorizeWithNonce_ok h
  have hsized : (grantClaims request authorization nonce nowMs limits.grantTtlMs).Sized :=
    ⟨hlength, partNumber_le hvalid, hbytes⟩
  have hissue := verifyAuthenticated_issue secret hlawful hsized
  rw [byteLength_payload] at hissue
  have hpositive : 0 < limits.grantTtlMs.toInt := Int64.lt_iff_toInt_lt.mp hlimits
  have hend := toInt_add_of_nonneg (a := nowMs) (le_of_lt hpositive)
  have hnow := Int64.toInt_le nowMs
  have hlast : nowMs = Int64.maxValue ↔ nowMs.toInt = Int64.maxValue.toInt := Int64.toInt_inj.symm
  rw [Int64.toInt_maxValue] at hend hlast hnow
  constructor
  · intro haccepted
    by_contra hneither
    rw [not_or, hlast] at hneither
    obtain ⟨hearly, hlong⟩ := hneither
    have hlive : nowMs < Saturating.add nowMs limits.grantTtlMs := Int64.lt_iff_toInt_lt.mpr (by omega)
    rw [if_neg hlong] at hissue
    cases (haccepted nowMs Int64.le_rfl hlive).symm.trans (verify_of_refused hissue)
  · intro hcondition readMs hfrom hto
    have hfrom' := Int64.le_iff_toInt_le.mp hfrom
    have hto' := Int64.lt_iff_toInt_lt.mp hto
    have hfits : grantBytes request authorization nonce nowMs limits.grantTtlMs ≤ maxPayloadBytes :=
      hcondition.resolve_left fun hmax => by
        have hmax' := hlast.mp hmax
        omega
    rw [if_pos hfits] at hissue
    have httl : (Saturating.add nowMs limits.grantTtlMs).toInt-nowMs.toInt ≤ limits.grantTtlMs.toInt := by omega
    exact verify_of_authenticated hissue hfrom hto httl

end Grants

section Sample

noncomputable def inverseSlice (doubles : Doubles) : SliceReader := fun payload => open Classical in
  if h : ∃ fields : JsonMap, (∀ field ∈ fields, Plain field.2) ∧
      utf8 (valueText doubles (.object fields)) = payload then
    some (.object h.choose)
  else none

theorem Plain.wellFormed {value : Value} (h : Plain value) : Runtime.Value.WellFormed value := by
  cases value with
  | number number =>
    cases number with
    | posInt n => trivial
    | negInt i => exact h.2
    | float bits => exact h.elim
  | array items => exact h.elim
  | object fields => exact h.elim
  | _ => trivial

theorem inverseSlice_lawful {doubles : Doubles} (hdoubles : doubles.Lawful) :
    (inverseSlice doubles).Lawful doubles := by
  intro fields hplain
  have hexists : ∃ fields' : JsonMap, (∀ field ∈ fields', Plain field.2) ∧
      utf8 (valueText doubles (.object fields')) = utf8 (valueText doubles (.object fields)) := ⟨fields, hplain, rfl⟩
  obtain ⟨hchosen, htext⟩ := hexists.choose_spec
  have hwell (fields : JsonMap) (h : ∀ field ∈ fields, Plain field.2) : Runtime.Value.FieldsWellFormed fields :=
    (Runtime.fieldsWellFormed_iff fields).mpr fun field hfield => (h field hfield).wellFormed
  have hsame := Text.utf8_injective htext
  have hnil := congrArg (· ++ ([] : List Char)) hsame
  have heq := (Runtime.objectText_append_inj hdoubles (hwell _ hchosen) (hwell _ hplain) hnil).1
  rw [inverseSlice, dif_pos hexists, heq]

/-- An object whose key is made of characters that JSON writes with six bytes each. -/
def controlKey : AuthorizationRequest :=
  { tenBytes .upload with objectKey := List.replicate 1024 (Char.ofNat 1) }

def sampleDecision : MetadataAuthorization where
  providerKey := "projects/p/buckets/b/objects/o".toList
  scopeFingerprint := "scope".toList
  projectQuotaBytes := 1000
  currentProjectBytes := 0
  maxObjectBytes := 100
  reservationBytes := 10
  replacementFingerprint := none
  quota_lt := Nat.le_of_ble_eq_true rfl

def sampleLimits : StorageLimits := ⟨600000, 10⟩

def sampleNonce : List Char := "nonce-of-16-bytes".toList

def sampleSecret : Bytes := List.replicate 32 7

def sampleGrant (request : AuthorizationRequest) : Except StorageError (List Char) :=
  authorizeWithNonce Runtime.sampleDoubles sampleSecret sampleLimits request 0 sampleNonce (.ok sampleDecision) {}
    (.ok ())

theorem sampleGrant_issued {request : AuthorizationRequest}
    (hvalid : validateRequest Runtime.sampleDoubles request = .ok ())
    (hcheck : checkAuthorization request sampleDecision = .ok ()) :
    sampleGrant request =
      .ok (issue Runtime.sampleDoubles sampleSecret (grantClaims request sampleDecision sampleNonce 0 600000)) := by
  have hnonce : (require (!(byteLength sampleNonce < 16 || 128 < byteLength sampleNonce)) .invalidGrant :
      Except StorageError Unit) = .ok () := by decide
  have hadmit : (admitReservation sampleLimits sampleDecision request.auth.projectId sampleNonce 0 {}).2 = .ok () := rfl
  have hreserve : reserveDurably request.action (.ok ()) = .ok () := by
    unfold reserveDurably
    split <;> rfl
  simp only [sampleGrant, authorizeWithNonce, bind_ok_iff, pure_ok_iff]
  exact ⟨(), hvalid, (), hnonce, sampleDecision, rfl, (), hcheck, (), hadmit, (), hreserve, rfl⟩

/-- The bytes are reserved, and the token is refused at once. -/
theorem control_key_unusable :
    ∃ token, sampleGrant controlKey = .ok token ∧ (0 : Int64) < Saturating.add 0 sampleLimits.grantTtlMs ∧
      (signingCodec (inverseSlice Runtime.sampleDoubles) sampleSecret sampleLimits).verify token 0 =
        .error .invalidGrant := by
  have hvalid : validateRequest Runtime.sampleDoubles controlKey = .ok () := by decide +kernel
  have hcheck : checkAuthorization controlKey sampleDecision = .ok () := by decide +kernel
  have hlong : ¬ grantBytes controlKey sampleDecision sampleNonce 0 600000 ≤ maxPayloadBytes := by decide +kernel
  have hsized : (grantClaims controlKey sampleDecision sampleNonce 0 600000).Sized := by
    refine ⟨fun n hn => ?_, fun n hn => ?_, by decide⟩
    · obtain rfl := Option.some.inj hn
      decide
    · cases hn
  have hissue := verifyAuthenticated_issue sampleSecret (inverseSlice_lawful Runtime.sampleDoubles_lawful) hsized
  rw [byteLength_payload, if_neg hlong] at hissue
  exact ⟨_, sampleGrant_issued hvalid hcheck, by decide, verify_of_refused hissue⟩

theorem ten_bytes_accepted :
    ∃ token, sampleGrant (tenBytes .upload) = .ok token ∧
      ∀ readMs, 0 ≤ readMs → readMs < Saturating.add 0 sampleLimits.grantTtlMs →
        (signingCodec (inverseSlice Runtime.sampleDoubles) sampleSecret sampleLimits).verify token readMs =
          .ok (grantClaims (tenBytes .upload) sampleDecision sampleNonce 0 600000) := by
  have hvalid : validateRequest Runtime.sampleDoubles (tenBytes .upload) = .ok () := by decide +kernel
  have hcheck : checkAuthorization (tenBytes .upload) sampleDecision = .ok () := by decide +kernel
  have hissued := sampleGrant_issued hvalid hcheck
  have hlength : ∀ n, (tenBytes .upload).contentLength = some n → n ≤ u64Max := by
    intro n hn
    obtain rfl := Option.some.inj hn
    decide
  have hfits : grantBytes (tenBytes .upload) sampleDecision sampleNonce 0 600000 ≤ maxPayloadBytes := by decide +kernel
  exact ⟨_, hissued, (grant_accepted_iff (inverseSlice_lawful Runtime.sampleDoubles_lawful) (by decide)
    hlength (by decide) hissued).mpr (.inr hfits)⟩

end Sample

end Ffdb.ObjectStorage
