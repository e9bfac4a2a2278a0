import Ffdb.Lib.Fallible
import Ffdb.Lib.Saturating
import Ffdb.Runtime.Json

/-! Grants for operations on objects: what is asked for, what the policies of the project answer,
and the claims that a signed token carries between them. -/
namespace Ffdb.ObjectStorage
open Text Fallible
open Sync (JsonMap)

inductive StorageAction where
  | upload
  | download
  | delete
  | list
  | createMultipart
  | uploadPart
  | completeMultipart
  | abortMultipart
  deriving DecidableEq

inductive StorageError where
  | rlsDenied
  | invalidObjectKey
  | invalidProviderKey
  | invalidMultipartRequest
  | invalidGrant
  | expiredGrant
  | objectQuotaExceeded
  | projectQuotaExceeded
  | duplicateReservation
  | invalidAuthorizationDecision
  | tooManyReservations
  | internal
  deriving DecidableEq

structure AuthContext where
  projectId : List Char
  subject : List Char
  role : List Char
  claims : JsonMap
  tokenId : List Char

structure AuthorizationRequest where
  auth : AuthContext
  bucket : List Char
  objectKey : List Char
  action : StorageAction
  contentLength : Option Nat
  checksumSha256 : Option (List Char)
  contentType : Option (List Char)
  uploadId : Option (List Char)
  partNumber : Option Nat

/-- What the policies decide. The quota is an integer of SQLite. -/
structure MetadataAuthorization where
  providerKey : List Char
  scopeFingerprint : List Char
  projectQuotaBytes : Nat
  currentProjectBytes : Nat
  maxObjectBytes : Nat
  reservationBytes : Nat
  replacementFingerprint : Option (List Char)
  quota_lt : projectQuotaBytes < 2^63

structure GrantClaims where
  projectId : List Char
  subject : List Char
  tokenId : List Char
  bucket : List Char
  objectKey : List Char
  providerKey : List Char
  action : StorageAction
  maxBytes : Option Nat
  checksumSha256 : Option (List Char)
  contentType : Option (List Char)
  uploadId : Option (List Char)
  partNumber : Option Nat
  scopeFingerprint : List Char
  issuedAtMs : Int64
  expiresAtMs : Int64
  nonce : List Char
  reservationBytes : Nat
  reservationExpiresAtMs : Int64
  replacementFingerprint : Option (List Char)
  deriving DecidableEq

structure StorageCommitResult where
  contentLength : Option Nat := none
  checksumSha256 : Option (List Char) := none
  etag : Option (List Char) := none
  versionId : Option (List Char) := none
  deriving DecidableEq

structure StorageMetadataCommit where
  auth : AuthContext
  bucket : List Char
  objectKey : List Char
  providerKey : List Char
  action : StorageAction
  contentLength : Option Nat
  checksumSha256 : Option (List Char)
  contentType : Option (List Char)
  uploadId : Option (List Char)
  partNumber : Option Nat
  etag : Option (List Char)
  versionId : Option (List Char)
  reservationNonce : List Char
  reservationBytes : Nat
  reservationExpiresAtMs : Int64
  replacementFingerprint : Option (List Char)

structure StorageReceiptRequest where
  auth : AuthContext
  bucket : List Char
  objectKey : List Char
  providerKey : List Char
  action : StorageAction
  contentLength : Option Nat
  checksumSha256 : Option (List Char)
  contentType : Option (List Char)
  uploadId : Option (List Char)
  partNumber : Option Nat
  reservationNonce : List Char
  reservationBytes : Nat
  reservationExpiresAtMs : Int64
  replacementFingerprint : Option (List Char)

/-- Signed tokens; what is authenticated gives its claims. -/
structure GrantCodec (Token : Type) where
  verifyAuthenticated : Token → Except StorageError GrantClaims
  maxTtlMs : Int

def GrantCodec.verify {Token : Type} (codec : GrantCodec Token) (token : Token) (nowMs : Int64) :
    Except StorageError GrantClaims := do
  let claims ← codec.verifyAuthenticated token
  require (claims.issuedAtMs ≤ nowMs && nowMs < claims.expiresAtMs &&
    claims.expiresAtMs.toInt - claims.issuedAtMs.toInt ≤ codec.maxTtlMs) .expiredGrant
  pure claims

def requiresDurableReservation (action : StorageAction) : Bool := action ≠ .download && action ≠ .list

def GrantClaims.isFor (claims : GrantClaims) (auth : AuthContext) : Bool :=
  claims.projectId = auth.projectId && claims.subject = auth.subject && claims.tokenId = auth.tokenId

def receiptRequest (claims : GrantClaims) (auth : AuthContext) : StorageReceiptRequest where
  auth
  bucket := claims.bucket
  objectKey := claims.objectKey
  providerKey := claims.providerKey
  action := claims.action
  contentLength := claims.maxBytes
  checksumSha256 := claims.checksumSha256
  contentType := claims.contentType
  uploadId := claims.uploadId
  partNumber := claims.partNumber
  reservationNonce := claims.nonce
  reservationBytes := claims.reservationBytes
  reservationExpiresAtMs := claims.reservationExpiresAtMs
  replacementFingerprint := claims.replacementFingerprint

/-- What is committed; the grant fills in what the provider does not say. -/
def commitRequest (claims : GrantClaims) (auth : AuthContext) (result : StorageCommitResult) :
    StorageMetadataCommit where
  auth
  bucket := claims.bucket
  objectKey := claims.objectKey
  providerKey := claims.providerKey
  action := claims.action
  contentLength := result.contentLength.or claims.maxBytes
  checksumSha256 := result.checksumSha256.or claims.checksumSha256
  contentType := claims.contentType
  uploadId := claims.uploadId
  partNumber := claims.partNumber
  etag := result.etag
  versionId := result.versionId
  reservationNonce := claims.nonce
  reservationBytes := claims.reservationBytes
  reservationExpiresAtMs := claims.reservationExpiresAtMs
  replacementFingerprint := claims.replacementFingerprint

def GrantClaims.allowsResult (claims : GrantClaims) (result : StorageCommitResult) : Bool :=
  (match result.contentLength, claims.maxBytes with
    | some actual, some maximum => actual ≤ maximum
    | _, _ => true) &&
  match result.checksumSha256, claims.checksumSha256 with
    | some actual, some expected => actual = expected
    | _, _ => true

section Validation
variable (doubles : Runtime.Doubles)

/-- Segments that would leave the prefix of the keys. -/
def hasDotSegment (key : List Char) : Bool :=
  (key.splitOn '/').any fun segment => segment = ['.'] || segment = ['.', '.']

def validateRequest (request : AuthorizationRequest) : Except StorageError Unit := do
  let claimsText := Runtime.valueText doubles (.object request.auth.claims)
  require (!(request.auth.role.isEmpty || 128 < byteLength request.auth.role || 128 < request.auth.claims.length ||
    16384 < byteLength claimsText || request.bucket.isEmpty || request.objectKey.isEmpty ||
    63 < byteLength request.bucket || 1024 < byteLength request.objectKey || request.objectKey.head? = some '/' ||
    request.objectKey.contains '\x00' ||
    request.contentType.any (fun value => value.isEmpty || 255 < byteLength value || value.any isControl) ||
    request.checksumSha256.any (fun value => value.isEmpty || 128 < byteLength value || value.any isWhitespace) ||
    request.uploadId.any (fun value => value.isEmpty || 256 < byteLength value || value.any isControl) ||
    hasDotSegment request.objectKey)) .invalidObjectKey
  require (!(request.action = .uploadPart &&
    (request.uploadId.isNone || request.contentLength.isNone || request.partNumber.isNone))) .invalidMultipartRequest
  require (!((request.action = .completeMultipart || request.action = .abortMultipart) &&
    request.uploadId.isNone)) .invalidMultipartRequest
  require (!(request.partNumber.any (fun part => part < 1 || 10000 < part) ||
    (request.partNumber.isSome && request.action ≠ .uploadPart))) .invalidMultipartRequest

def validateProviderKey (key : List Char) : Except StorageError Unit :=
  require (!(key.isEmpty || 1024 < byteLength key || key.head? = some '/' || key.contains '\x00' ||
    hasDotSegment key)) .invalidProviderKey

def checkObjectBytes (request : AuthorizationRequest) (authorization : MetadataAuthorization) :
    Except StorageError Unit :=
  require (!(request.action ∈ [.upload, .createMultipart, .uploadPart, .completeMultipart] &&
    (request.contentLength.isNone || authorization.maxObjectBytes < request.contentLength.getD 0)))
      .objectQuotaExceeded

end Validation

end Ffdb.ObjectStorage
