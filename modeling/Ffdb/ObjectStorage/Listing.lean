import Mathlib.Data.List.Lex
import Mathlib.Data.Prod.Lex
import Ffdb.Lib.Keyset
import Ffdb.ObjectStorage.Codec

/-! Listing the objects of a bucket in pages, with cursors that are signed for one caller and one listing. -/
namespace Ffdb.ObjectStorage
open Text Fallible Keyset
open Sync (Value JsonMap Bytes)
open Ffdb.Runtime (Doubles valueText)

structure StorageListRequest where
  bucket : List Char
  startsWith : List Char
  limit : Nat
  cursor : Option (List Char)

structure StorageObjectItem where
  id : List Char
  objectKey : List Char
  ownerId : List Char
  sizeBytes : Nat
  contentType : Option (List Char)
  checksumSha256 : Option (List Char)
  etag : Option (List Char)
  versionId : Option (List Char)
  createdAtMs : Int64
  updatedAtMs : Int64

structure StorageListResponse where
  items : List StorageObjectItem
  nextCursor : Option (List Char)

structure ListCursor where
  projectId : List Char
  subject : List Char
  tokenId : List Char
  scopeFingerprint : List Char
  bucket : List Char
  startsWith : List Char
  objectKey : List Char
  id : List Char
  deriving DecidableEq

def maxListCursorBytes : Nat := 4096

section Cursors

def ListCursor.toFields (cursor : ListCursor) : JsonMap :=
  [("project_id", textValue cursor.projectId),
   ("subject", textValue cursor.subject),
   ("token_id", textValue cursor.tokenId),
   ("scope_fingerprint", textValue cursor.scopeFingerprint),
   ("bucket", textValue cursor.bucket),
   ("prefix", textValue cursor.startsWith),
   ("object_key", textValue cursor.objectKey),
   ("id", textValue cursor.id)]

def ListCursor.fromFields (fields : JsonMap) : Option ListCursor := do
  let projectId ← requiredField readText fields "project_id"
  let subject ← requiredField readText fields "subject"
  let tokenId ← requiredField readText fields "token_id"
  let scopeFingerprint ← requiredField readText fields "scope_fingerprint"
  let bucket ← requiredField readText fields "bucket"
  let startsWith ← requiredField readText fields "prefix"
  let objectKey ← requiredField readText fields "object_key"
  let id ← requiredField readText fields "id"
  pure { projectId, subject, tokenId, scopeFingerprint, bucket, startsWith, objectKey, id }

def listCursorNames : List String :=
  ["project_id", "subject", "token_id", "scope_fingerprint", "bucket", "prefix", "object_key", "id"]

def ListCursor.fromValue : Value → Option ListCursor
  | .object fields => fromFields fields
  | .array items => if items.length = listCursorNames.length then fromFields (listCursorNames.zip items) else none
  | _ => none

variable (doubles : Doubles) (fromSlice : SliceReader) (secret : Bytes)

def ListCursor.encode (cursor : ListCursor) : Except StorageError (List Char) := do
  let payload := utf8 (valueText doubles (.object cursor.toFields))
  let encoded := Base64.encode payload ++ '.' :: Base64.encode (Sha256.hmac secret payload)
  require (byteLength encoded ≤ maxListCursorBytes) .internal
  pure encoded

def ListCursor.decode (cursor : List Char) : Except StorageError ListCursor := do
  require (!(cursor.isEmpty || maxListCursorBytes < byteLength cursor)) .invalidGrant
  let (payload, signature) ← orError ((splitOnce '.' cursor).filter fun parts => !parts.2.contains '.') .invalidGrant
  let payload ← orError (Base64.decode payload) .invalidGrant
  let signature ← orError (Base64.decode signature) .invalidGrant
  require (Sha256.hmac secret payload = signature) .invalidGrant
  orError ((fromSlice payload).bind fromValue) .invalidGrant

end Cursors

section Listing
variable {δ : Type} (codecs : StorageCodecs δ) (fromSlice : SliceReader) (secret : Bytes) (projectId : List Char)
  (policies : StoragePolicies δ) (tables : StorageTables δ) (auth : AuthContext) (request : StorageListRequest)

/-- An object whose bucket the caller sees under the name that is asked for, with a key that starts as is asked. -/
def isListed (id : List Char) (row : ObjectRow) : Bool :=
  policies.objects.select tables id row &&
    (tables.buckets.lookup row.bucketId).any (fun bucket =>
      policies.buckets.select tables row.bucketId bucket && bucket.name = request.bucket) &&
    row.objectKey.take request.startsWith.length = request.startsWith

def storageItem (id : List Char) (row : ObjectRow) : StorageObjectItem where
  id
  objectKey := row.objectKey
  ownerId := row.ownerId
  sizeBytes := row.sizeBytes
  contentType := row.contentType
  checksumSha256 := row.checksumSha256
  etag := row.etag
  versionId := row.versionId
  createdAtMs := row.createdAtMs
  updatedAtMs := row.updatedAtMs

/-- By key and then by identifier, both as SQLite compares texts. -/
def StorageObjectItem.position (item : StorageObjectItem) : List Char ×ₗ List Char := toLex (item.objectKey, item.id)

def isBehind (cursorKey cursorId : List Char) (item : StorageObjectItem) : Bool :=
  cursorKey < item.objectKey || (item.objectKey = cursorKey && cursorId < item.id)

def objectsBehind (cursorKey cursorId : List Char) : List StorageObjectItem :=
  inOrder StorageObjectItem.position
    (((tables.objects.entries.filter fun entry => isListed policies tables request entry.1 entry.2).map fun entry =>
      storageItem entry.1 entry.2).filter (isBehind cursorKey cursorId))

def cursorOf (item : StorageObjectItem) : ListCursor where
  projectId := auth.projectId
  subject := auth.subject
  tokenId := auth.tokenId
  scopeFingerprint := codecs.scope auth
  bucket := request.bucket
  startsWith := request.startsWith
  objectKey := item.objectKey
  id := item.id

def ListCursor.isFor (cursor : ListCursor) : Bool :=
  cursor.projectId = auth.projectId && cursor.subject = auth.subject && cursor.tokenId = auth.tokenId &&
    cursor.scopeFingerprint = codecs.scope auth && cursor.bucket = request.bucket &&
    cursor.startsWith = request.startsWith

def nextCursor : Option StorageObjectItem → Except MetadataError (Option (List Char))
  | none => pure none
  | some item => do
    let cursor ← ((cursorOf codecs auth request item).encode codecs.doubles secret).mapError fun _ => .database
    pure (some cursor)

def listPage (cursor : Option ListCursor) : Except MetadataError StorageListResponse := do
  let cursorKey := (cursor.map ListCursor.objectKey).getD []
  let cursorId := (cursor.map ListCursor.id).getD []
  let items := (objectsBehind policies tables request cursorKey cursorId).take (request.limit+1)
  if request.limit < items.length then
    let items := items.take request.limit
    let next ← nextCursor codecs secret auth request items.getLast?
    pure ⟨items, next⟩
  else pure ⟨items, none⟩

def decodeCursor : Option (List Char) → Except StorageError (Option ListCursor)
  | none => pure none
  | some cursor => do
    let decoded ← ListCursor.decode fromSlice secret cursor
    pure (some decoded)

def listSync : Except StorageError StorageListResponse := do
  require (!(request.limit = 0 || 200 < request.limit || 1024 < byteLength request.startsWith ||
    request.startsWith.contains '\x00')) .invalidObjectKey
  let cursor ← decodeCursor fromSlice secret request.cursor
  require (cursor.all fun cursor => cursor.isFor codecs auth request) .invalidGrant
  withUser projectId auth (listPage codecs secret policies tables auth request cursor)

def listFrom (cursor : Option (List Char)) : Except StorageError (Page StorageObjectItem (List Char)) :=
  (listSync codecs fromSlice secret projectId policies tables auth { request with cursor }).map fun response =>
    (response.items, response.nextCursor)

end Listing

section Cursors
variable {doubles : Doubles} {fromSlice : SliceReader} {secret : Bytes}

theorem fromFields_toFields_cursor (cursor : ListCursor) : ListCursor.fromFields cursor.toFields = some cursor := by
  have htext {name : String} {text : List Char}
      (hsole : soleField cursor.toFields name = some (some (textValue text))) :
      requiredField readText cursor.toFields name = some text :=
    requiredField_of_sole hsole (readText_textValue text)
  unfold ListCursor.fromFields
  rw [(htext rfl : requiredField readText cursor.toFields "project_id" = some cursor.projectId)]
  rw [(htext rfl : requiredField readText cursor.toFields "subject" = some cursor.subject)]
  rw [(htext rfl : requiredField readText cursor.toFields "token_id" = some cursor.tokenId)]
  rw [(htext rfl : requiredField readText cursor.toFields "scope_fingerprint" = some cursor.scopeFingerprint)]
  rw [(htext rfl : requiredField readText cursor.toFields "bucket" = some cursor.bucket)]
  rw [(htext rfl : requiredField readText cursor.toFields "prefix" = some cursor.startsWith)]
  rw [(htext rfl : requiredField readText cursor.toFields "object_key" = some cursor.objectKey)]
  rw [(htext rfl : requiredField readText cursor.toFields "id" = some cursor.id)]
  rfl

/-- The bytes of the JSON text of a cursor: 99 for its names and what separates them. -/
def ListCursor.bytes (cursor : ListCursor) : Nat :=
  99+textBytes cursor.projectId+textBytes cursor.subject+textBytes cursor.tokenId+textBytes cursor.scopeFingerprint+
    textBytes cursor.bucket+textBytes cursor.startsWith+textBytes cursor.objectKey+textBytes cursor.id

theorem byteLength_cursor (cursor : ListCursor) :
    byteLength (valueText doubles (.object cursor.toFields)) = cursor.bytes := by
  have hnames : listCursorNames.map (fun name => byteLength (Runtime.stringText name)) =
      [12, 9, 10, 19, 8, 8, 12, 4] := by decide +kernel
  simp only [listCursorNames, List.map_cons, List.map_nil, List.cons.injEq] at hnames
  rw [ListCursor.toFields, byteLength_objectText]
  simp only [List.map_cons, List.map_nil, List.sum_cons, List.sum_nil, fieldBytes, hnames, byteLength_textValue,
    ListCursor.bytes]
  omega

def maxCursorPayloadBytes : Nat := 3039

theorem encode_ok_iff (cursor : ListCursor) :
    (∃ encoded, cursor.encode doubles secret = .ok encoded) ↔ cursor.bytes ≤ maxCursorPayloadBytes := by
  have hlength : (utf8 (valueText doubles (.object cursor.toFields))).length = cursor.bytes :=
    (length_utf8 _).trans (byteLength_cursor cursor)
  simp only [ListCursor.encode, bind_ok_iff, require_ok_iff, pure_ok_iff, decide_eq_true_eq,
    byteLength_signed _ _ (Sha256.length_hmac secret _), hlength, maxListCursorBytes, maxCursorPayloadBytes]
  constructor
  · rintro ⟨_, _, hfits, -⟩
    omega
  · intro hfits
    exact ⟨_, (), by omega, rfl⟩

/-- A cursor that is given out is read as what it was made of. -/
theorem decode_encode (hlawful : fromSlice.Lawful doubles) {cursor : ListCursor} {encoded : List Char}
    (h : cursor.encode doubles secret = .ok encoded) : ListCursor.decode fromSlice secret encoded = .ok cursor := by
  have hread : (fromSlice (utf8 (valueText doubles (.object cursor.toFields)))).bind ListCursor.fromValue =
      some cursor := by
    rw [hlawful cursor.toFields]
    · exact fromFields_toFields_cursor cursor
    · have htext (text : List Char) : Plain (textValue text) := trivial
      simp only [ListCursor.toFields, List.forall_mem_cons, htext, true_and, List.not_mem_nil, false_implies,
        implies_true]
  simp only [ListCursor.encode, bind_ok_iff, require_ok_iff, pure_ok_iff, decide_eq_true_eq] at h
  obtain ⟨_, hfits, rfl⟩ := h
  generalize utf8 (valueText doubles (.object cursor.toFields)) = payload at hread hfits ⊢
  have hsplit := splitOnce_append (Base64.encode payload) (Base64.encode (Sha256.hmac secret payload))
    (Base64.dot_notMem_encode payload)
  have hdot := Base64.dot_notMem_encode (Sha256.hmac secret payload)
  have hempty : (Base64.encode payload ++ '.' :: Base64.encode (Sha256.hmac secret payload)).isEmpty = false := by
    cases Base64.encode payload <;> rfl
  have hparts : (some (Base64.encode payload, Base64.encode (Sha256.hmac secret payload))).filter
      (fun parts => !parts.2.contains '.') =
        some (Base64.encode payload, Base64.encode (Sha256.hmac secret payload)) := by
    rw [Option.filter_some, if_pos]
    simpa using hdot
  simp only [ListCursor.decode, bind_ok_iff, require_ok_iff, orError_ok_iff, hsplit, hparts, hempty, Bool.false_or,
    Bool.not_eq_true', decide_eq_false_iff_not]
  exact ⟨(), by omega, _, rfl, payload, Base64.decode_encode _, _, Base64.decode_encode _, (), decide_eq_true rfl,
    hread⟩

end Cursors

section Order
variable {δ : Type} {policies : StoragePolicies δ} {tables : StorageTables δ} {request : StorageListRequest}

theorem isBehind_iff (cursorKey cursorId : List Char) (item : StorageObjectItem) :
    isBehind cursorKey cursorId item = true ↔ toLex (cursorKey, cursorId) < item.position := by
  rw [StorageObjectItem.position, Prod.Lex.toLex_lt_toLex]
  simp only [isBehind, Bool.or_eq_true, Bool.and_eq_true, decide_eq_true_eq, eq_comm (a := item.objectKey)]

def listedRows (policies : StoragePolicies δ) (tables : StorageTables δ) (request : StorageListRequest) :
    List StorageObjectItem :=
  (tables.objects.entries.filter fun entry => isListed policies tables request entry.1 entry.2).map fun entry =>
    storageItem entry.1 entry.2

theorem nodup_listedRows : ((listedRows policies tables request).map StorageObjectItem.position).Nodup := by
  have hids : ((listedRows policies tables request).map StorageObjectItem.id).Nodup := by
    have hkeys : (tables.objects.entries.map Sigma.fst).Nodup := tables.objects.nodupKeys
    rw [listedRows, List.map_map]
    exact hkeys.sublist (List.filter_sublist.map Sigma.fst)
  have hposition : (listedRows policies tables request).map StorageObjectItem.id =
      ((listedRows policies tables request).map StorageObjectItem.position).map fun position => (ofLex position).2 := by
    rw [List.map_map]
    rfl
  rw [hposition] at hids
  exact hids.of_map _

def listedObjects (policies : StoragePolicies δ) (tables : StorageTables δ) (request : StorageListRequest) :
    List StorageObjectItem :=
  inOrder StorageObjectItem.position (listedRows policies tables request)

theorem objectsBehind_eq (cursorKey cursorId : List Char) :
    objectsBehind policies tables request cursorKey cursorId =
      (listedObjects policies tables request).filter (isBehind cursorKey cursorId) :=
  inOrder_filter StorageObjectItem.position _ nodup_listedRows

theorem pairwise_listedObjects :
    (listedObjects policies tables request).Pairwise fun a b => a.position < b.position :=
  pairwise_inOrder StorageObjectItem.position nodup_listedRows

/-- Behind the last item of a page are the items that follow the page. -/
theorem objectsBehind_next {cursorKey cursorId : List Char} {item : StorageObjectItem} {limit : Nat}
    (h : ((objectsBehind policies tables request cursorKey cursorId).take limit).getLast? = some item) :
    objectsBehind policies tables request item.objectKey item.id =
      (objectsBehind policies tables request cursorKey cursorId).drop limit := by
  obtain ⟨front, hfront⟩ := List.getLast?_eq_some_iff.mp h
  have hsplit := List.take_append_drop limit (objectsBehind policies tables request cursorKey cursorId)
  rw [hfront, List.append_assoc, List.singleton_append] at hsplit
  have hbehind : isBehind cursorKey cursorId item = true := by
    have hmem : item ∈ front ++ item :: (objectsBehind policies tables request cursorKey cursorId).drop limit :=
      List.mem_append_right front List.mem_cons_self
    rw [hsplit, objectsBehind_eq] at hmem
    exact (List.mem_filter.mp hmem).2
  have hordered : (front ++ item :: (objectsBehind policies tables request cursorKey cursorId).drop limit).Pairwise
      fun a b => a.position < b.position := by
    rw [hsplit, objectsBehind_eq]
    exact pairwise_listedObjects.filter _
  have hagain : objectsBehind policies tables request item.objectKey item.id =
      (objectsBehind policies tables request cursorKey cursorId).filter fun row => item.position < row.position := by
    rw [objectsBehind_eq, objectsBehind_eq, List.filter_filter]
    refine List.filter_congr fun row _ => ?_
    rw [Bool.eq_iff_iff, Bool.and_eq_true, isBehind_iff, isBehind_iff, decide_eq_true_eq]
    refine ⟨fun hrow => ⟨hrow, ((isBehind_iff _ _ _).mp hbehind).trans hrow⟩, And.left⟩
  rw [hagain]
  conv_lhs => rw [← hsplit]
  exact filter_behind StorageObjectItem.position hordered

theorem objectsBehind_start :
    objectsBehind policies tables request [] [] = listedObjects policies tables request ↔
      ∀ item ∈ listedObjects policies tables request, item.objectKey ≠ [] ∨ item.id ≠ [] := by
  rw [objectsBehind_eq, List.filter_eq_self]
  refine forall₂_congr fun item _ => ?_
  cases hkey : item.objectKey with
  | nil => cases hid : item.id <;> simp [isBehind, hkey, hid]
  | cons c rest => simp [isBehind, hkey]

/-- Every object that the caller sees in the bucket and whose key starts as is asked, once and in order. -/
structure IsListing (policies : StoragePolicies δ) (tables : StorageTables δ) (request : StorageListRequest)
    (items : List StorageObjectItem) : Prop where
  ordered : items.Pairwise fun a b => a.position < b.position
  mem_iff : ∀ item, item ∈ items ↔ ∃ id row bucket, tables.objects.lookup id = some row ∧
    policies.objects.select tables id row = true ∧ tables.buckets.lookup row.bucketId = some bucket ∧
    policies.buckets.select tables row.bucketId bucket = true ∧ bucket.name = request.bucket ∧
    request.startsWith <+: row.objectKey ∧ item = storageItem id row

theorem isListing_iff (items : List StorageObjectItem) :
    IsListing policies tables request items ↔ items = listedObjects policies tables request := by
  have hlisted : IsListing policies tables request (listedObjects policies tables request) := by
    refine ⟨pairwise_listedObjects, fun item => ?_⟩
    rw [listedObjects, mem_inOrder, listedRows, List.mem_map]
    constructor
    · rintro ⟨⟨id, row⟩, hentry, rfl⟩
      obtain ⟨hentry, hshown⟩ := List.mem_filter.mp hentry
      simp only [isListed, Bool.and_eq_true, decide_eq_true_eq, Option.any_eq_true] at hshown
      obtain ⟨⟨hselect, bucket, hbucket, hvisible, hname⟩, hlead⟩ := hshown
      exact ⟨id, row, bucket, AList.mem_entries.mp hentry, hselect, hbucket, hvisible, hname,
        List.prefix_iff_eq_take.mpr hlead.symm, rfl⟩
    · rintro ⟨id, row, bucket, hrow, hselect, hbucket, hvisible, hname, hlead, rfl⟩
      refine ⟨⟨id, row⟩, List.mem_filter.mpr ⟨AList.mem_entries.mpr hrow, ?_⟩, rfl⟩
      simp only [isListed, Bool.and_eq_true, decide_eq_true_eq, Option.any_eq_true]
      exact ⟨⟨hselect, bucket, hbucket, hvisible, hname⟩, (List.prefix_iff_eq_take.mp hlead).symm⟩
  constructor
  · intro h
    have hnodup {rows : List StorageObjectItem} (hrows : rows.Pairwise fun a b => a.position < b.position) :
        rows.Nodup := by
      refine hrows.imp fun {a b} hlt heq => ?_
      rw [heq] at hlt
      exact lt_irrefl _ hlt
    have hperm : items.Perm (listedObjects policies tables request) :=
      (List.perm_ext_iff_of_nodup (hnodup h.ordered) (hnodup hlisted.ordered)).mpr fun item =>
        (h.mem_iff item).trans (hlisted.mem_iff item).symm
    exact hperm.eq_of_pairwise (fun a b _ _ hab hba => absurd hab (not_lt_of_gt hba)) h.ordered hlisted.ordered
  · rintro rfl
    exact hlisted

end Order

section Pages
variable {δ : Type} {codecs : StorageCodecs δ} {fromSlice : SliceReader} {secret : Bytes} {projectId : List Char}
  {policies : StoragePolicies δ} {tables : StorageTables δ} {auth : AuthContext} {request : StorageListRequest}

def StorageListRequest.IsValid (request : StorageListRequest) : Prop :=
  byteLength request.startsWith ≤ 1024 ∧ '\x00' ∉ request.startsWith

def pageCursor (codecs : StorageCodecs δ) (secret : Bytes) (auth : AuthContext) (request : StorageListRequest)
    (item : StorageObjectItem) : Except StorageError (List Char) :=
  ((cursorOf codecs auth request item).encode codecs.doubles secret).mapError fun _ => mapRuntime .database

theorem pageCursor_ok_iff (item : StorageObjectItem) (cursor : List Char) :
    pageCursor codecs secret auth request item = .ok cursor ↔
      (cursorOf codecs auth request item).encode codecs.doubles secret = .ok cursor :=
  mapError_ok_iff _ _ _

theorem listPage_eq (cursor : Option ListCursor) :
    ((listPage codecs secret policies tables auth request cursor).mapError mapRuntime).map
        (fun response => (response.items, response.nextCursor)) =
      page request.limit (pageCursor codecs secret auth request) (objectsBehind policies tables request
        ((cursor.map ListCursor.objectKey).getD []) ((cursor.map ListCursor.id).getD [])) := by
  dsimp only [listPage, page]
  generalize objectsBehind policies tables request _ _ = rows
  by_cases hmore : request.limit < rows.length
  · have htaken : request.limit < (rows.take (request.limit+1)).length := by
      rw [List.length_take]
      omega
    have hsame : (rows.take (request.limit+1)).take request.limit = rows.take request.limit := by
      rw [List.take_take, Nat.min_eq_left (Nat.le_succ _)]
    simp only [if_pos hmore, if_pos htaken, hsame]
    cases (rows.take request.limit).getLast? with
    | none => rfl
    | some item =>
      simp only [nextCursor, pageCursor]
      cases (cursorOf codecs auth request item).encode codecs.doubles secret <;> rfl
  · have hall : rows.take (request.limit+1) = rows := List.take_of_length_le (by omega)
    simp only [hall, if_neg hmore]
    rfl

theorem listFrom_eq (hproject : auth.projectId = projectId) (hlimit : 0 < request.limit ∧ request.limit ≤ 200)
    (hvalid : request.IsValid) {cursor : Option (List Char)} {decoded : Option ListCursor}
    (hdecode : decodeCursor fromSlice secret cursor = .ok decoded)
    (hfor : decoded.all (fun cursor => cursor.isFor codecs auth request) = true) :
    listFrom codecs fromSlice secret projectId policies tables auth request cursor =
      page request.limit (pageCursor codecs secret auth request) (objectsBehind policies tables request
        ((decoded.map ListCursor.objectKey).getD []) ((decoded.map ListCursor.id).getD [])) := by
  have hrequest : (!(request.limit = 0 || 200 < request.limit || 1024 < byteLength request.startsWith ||
      request.startsWith.contains '\x00')) = true := by
    simp only [Bool.not_eq_true', Bool.or_eq_false_iff, decide_eq_false_iff_not, List.contains_eq_mem]
    exact ⟨⟨⟨by omega, by omega⟩, Nat.not_lt.mpr hvalid.1⟩, hvalid.2⟩
  have hfor' : (decoded.all fun decoded => decoded.isFor codecs auth { request with cursor }) = true := hfor
  have hown : decide (auth.projectId = projectId) = true := decide_eq_true hproject
  rw [← listPage_eq, listFrom, listSync]
  simp only [hrequest, hdecode, require, withUser, hown, if_true, bind, Except.bind, hfor']
  rfl

theorem listFrom_error (h : auth.projectId ≠ projectId ∨ ¬ request.IsValid) (cursor : Option (List Char)) :
    ∃ error, listFrom codecs fromSlice secret projectId policies tables auth request cursor = .error error := by
  unfold listFrom
  cases hlist : listSync codecs fromSlice secret projectId policies tables auth { request with cursor } with
  | error error => exact ⟨error, rfl⟩
  | ok response =>
    simp only [listSync, withUser, bind_ok_iff, require_ok_iff, Bool.not_eq_true', Bool.or_eq_false_iff,
      decide_eq_false_iff_not, decide_eq_true_eq, List.contains_eq_mem] at hlist
    obtain ⟨_, ⟨⟨⟨-, -⟩, hlength⟩, hzero⟩, _, -, _, -, _, hproject, -⟩ := hlist
    obtain hother | hinvalid := h
    · exact absurd hproject hother
    · exact absurd ⟨Nat.not_lt.mp hlength, hzero⟩ hinvalid

theorem decodeCursor_encode (hlawful : fromSlice.Lawful codecs.doubles) {cursor : ListCursor} {encoded : List Char}
    (h : cursor.encode codecs.doubles secret = .ok encoded) :
    decodeCursor fromSlice secret (some encoded) = .ok (some cursor) := by
  simp only [decodeCursor, bind_ok_iff, pure_ok_iff]
  exact ⟨cursor, decode_encode hlawful h, rfl⟩

inductive Shows (codecs : StorageCodecs δ) (secret : Bytes) (policies : StoragePolicies δ) (tables : StorageTables δ)
    (auth : AuthContext) (request : StorageListRequest) : Option (List Char) → List StorageObjectItem → Prop where
  | start : Shows codecs secret policies tables auth request none (objectsBehind policies tables request [] [])
  | after {item : StorageObjectItem} {cursor : List Char}
      (h : (cursorOf codecs auth request item).encode codecs.doubles secret = .ok cursor) :
      Shows codecs secret policies tables auth request (some cursor)
        (objectsBehind policies tables request item.objectKey item.id)

theorem Shows.read (hlawful : fromSlice.Lawful codecs.doubles) (hproject : auth.projectId = projectId)
    (hlimit : 0 < request.limit ∧ request.limit ≤ 200) (hvalid : request.IsValid) {cursor : Option (List Char)}
    {rows : List StorageObjectItem} (h : Shows codecs secret policies tables auth request cursor rows) :
    listFrom codecs fromSlice secret projectId policies tables auth request cursor =
      page request.limit (pageCursor codecs secret auth request) rows := by
  cases h with
  | start =>
    have hnone : decodeCursor fromSlice secret none = .ok none := rfl
    exact listFrom_eq hproject hlimit hvalid hnone rfl
  | after hencode =>
    refine listFrom_eq hproject hlimit hvalid (decodeCursor_encode hlawful hencode) ?_
    simp [ListCursor.isFor, cursorOf]

theorem Shows.next {cursor : Option (List Char)} {rows : List StorageObjectItem} {item : StorageObjectItem}
    {after : List Char} (h : Shows codecs secret policies tables auth request cursor rows)
    (hlast : (rows.take request.limit).getLast? = some item)
    (hcursor : pageCursor codecs secret auth request item = .ok after) :
    Shows codecs secret policies tables auth request (some after) (rows.drop request.limit) := by
  have hencode := (pageCursor_ok_iff item after).mp hcursor
  cases h with
  | start =>
    rw [← objectsBehind_next hlast]
    exact .after hencode
  | after _ =>
    rw [← objectsBehind_next hlast]
    exact .after hencode

/-- Following a listing from its start. -/
theorem follows_listing_iff (hlawful : fromSlice.Lawful codecs.doubles) (hproject : auth.projectId = projectId)
    (hlimit : 0 < request.limit ∧ request.limit ≤ 200) (hvalid : request.IsValid) (found : List StorageObjectItem) :
    Follows (listFrom codecs fromSlice secret projectId policies tables auth request) none found ↔
      found = objectsBehind policies tables request [] [] ∧
        ∀ item, IsPageEnd request.limit (objectsBehind policies tables request [] []) item →
          (cursorOf codecs auth request item).bytes ≤ maxCursorPayloadBytes := by
  rw [follows_iff hlimit.1 (fun h => h.read hlawful hproject hlimit hvalid)
    (fun h _ hlast hcursor => h.next hlast hcursor) Shows.start]
  simp only [pageCursor_ok_iff, encode_ok_iff]

/-- Where a cursor comes from. -/
theorem nextCursor_of_listSync {response : StorageListResponse} {cursor : List Char}
    (hresponse : listSync codecs fromSlice secret projectId policies tables auth request = .ok response)
    (hcursor : response.nextCursor = some cursor) :
    ∃ item, (cursorOf codecs auth request item).encode codecs.doubles secret = .ok cursor := by
  simp only [listSync, withUser, bind_ok_iff, mapError_ok_iff] at hresponse
  obtain ⟨_, -, decoded, -, _, -, _, -, hpage⟩ := hresponse
  have hsame := @listPage_eq _ codecs secret policies tables auth request decoded
  rw [hpage] at hsame
  have hread : page request.limit (pageCursor codecs secret auth request) (objectsBehind policies tables request
      ((decoded.map ListCursor.objectKey).getD []) ((decoded.map ListCursor.id).getD [])) =
        .ok (response.items, some cursor) := by
    rw [← hsame, ← hcursor]
    rfl
  obtain ⟨item, hitem⟩ := cursorOf_of_page hread
  exact ⟨item, (pageCursor_ok_iff item cursor).mp hitem⟩

/-- A cursor that was given out is refused wherever the listing is another. -/
theorem listSync_refuses (hlawful : fromSlice.Lawful codecs.doubles) {response : StorageListResponse}
    {cursor : List Char}
    (hresponse : listSync codecs fromSlice secret projectId policies tables auth request = .ok response)
    (hcursor : response.nextCursor = some cursor) (policies' : StoragePolicies δ) (tables' : StorageTables δ)
    {auth' : AuthContext} {request' : StorageListRequest} (hrequest : request'.cursor = some cursor)
    (hother : auth'.projectId ≠ auth.projectId ∨ auth'.subject ≠ auth.subject ∨ auth'.tokenId ≠ auth.tokenId ∨
      codecs.scope auth' ≠ codecs.scope auth ∨ request'.bucket ≠ request.bucket ∨
      request'.startsWith ≠ request.startsWith) :
    ∃ error, listSync codecs fromSlice secret projectId policies' tables' auth' request' = .error error := by
  obtain ⟨item, hencode⟩ := nextCursor_of_listSync hresponse hcursor
  cases hlist : listSync codecs fromSlice secret projectId policies' tables' auth' request' with
  | error error => exact ⟨error, rfl⟩
  | ok response' =>
    simp only [listSync, hrequest, decodeCursor_encode hlawful hencode, bind_ok_iff, require_ok_iff, Except.ok.injEq,
      exists_eq_left', Option.all_some, ListCursor.isFor, cursorOf, Bool.and_eq_true, decide_eq_true_eq] at hlist
    obtain ⟨_, -, _, ⟨⟨⟨⟨⟨hproject, hsubject⟩, htoken⟩, hscope⟩, hbucket⟩, hlead⟩, -⟩ := hlist
    obtain h | h | h | h | h | h := hother
    · exact absurd hproject.symm h
    · exact absurd hsubject.symm h
    · exact absurd htoken.symm h
    · exact absurd hscope.symm h
    · exact absurd hbucket.symm h
    · exact absurd hlead.symm h

/-- Following a listing gives every object that it asks for, once and in order, just when its prefix is not refused,
some name is not empty, and the cursor of every page that others follow is within the limit. A cursor is refused in
any other listing. -/
theorem listing_complete_iff (hlawful : fromSlice.Lawful codecs.doubles) (hproject : auth.projectId = projectId)
    (hlimit : 0 < request.limit ∧ request.limit ≤ 200) :
    ((∃ items, IsListing policies tables request items ∧
        Follows (listFrom codecs fromSlice secret projectId policies tables auth request) none items) ↔
      request.IsValid ∧
        (∀ item ∈ listedObjects policies tables request, item.objectKey ≠ [] ∨ item.id ≠ []) ∧
        ∀ item, IsPageEnd request.limit (listedObjects policies tables request) item →
          (cursorOf codecs auth request item).bytes ≤ maxCursorPayloadBytes) ∧
    ∀ response cursor, listSync codecs fromSlice secret projectId policies tables auth request = .ok response →
      response.nextCursor = some cursor → ∀ (policies' : StoragePolicies δ) (tables' : StorageTables δ)
        (auth' : AuthContext) (request' : StorageListRequest), request'.cursor = some cursor →
        (auth'.projectId ≠ auth.projectId ∨ auth'.subject ≠ auth.subject ∨ auth'.tokenId ≠ auth.tokenId ∨
          codecs.scope auth' ≠ codecs.scope auth ∨ request'.bucket ≠ request.bucket ∨
          request'.startsWith ≠ request.startsWith) →
        ∃ error, listSync codecs fromSlice secret projectId policies' tables' auth' request' = .error error := by
  refine ⟨?_, fun response cursor hresponse hcursor policies' tables' auth' request' hrequest hother =>
    listSync_refuses hlawful hresponse hcursor policies' tables' hrequest hother⟩
  by_cases hvalid : request.IsValid
  · simp only [isListing_iff, exists_eq_left, follows_listing_iff hlawful hproject hlimit hvalid, hvalid, true_and]
    constructor
    · rintro ⟨hall, hends⟩
      rw [← hall] at hends
      exact ⟨objectsBehind_start.mp hall.symm, hall ▸ hends⟩
    · rintro ⟨hnamed, hends⟩
      rw [objectsBehind_start.mpr hnamed]
      exact ⟨rfl, hends⟩
  · refine iff_of_false ?_ fun h => hvalid h.1
    rintro ⟨items, -, hfollows⟩
    obtain ⟨error, herror⟩ := listFrom_error (.inr hvalid) none
    exact not_follows_of_error herror hfollows

end Pages

section Sample

def sampleObject (objectKey : List Char) : ObjectRow where
  bucketId := "b".toList
  objectKey
  ownerId := "alice".toList
  sizeBytes := 10
  contentType := none
  checksumSha256 := none
  etag := none
  versionId := none
  createdAtMs := 0
  updatedAtMs := 0

theorem sampleQuota_lt : 1000 < 2^63 := by decide

def twoObjects (objectKey : List Char) : StorageTables (CommitBinding × Option StorageCommitResult) where
  buckets := AList.singleton "b".toList ⟨"files".toList, 100, 1000, sampleQuota_lt⟩
  objects := (AList.singleton "second".toList (sampleObject "z".toList)).insert "first".toList (sampleObject objectKey)

def oneAtATime : StorageListRequest where
  bucket := "files".toList
  startsWith := []
  limit := 1
  cursor := none

noncomputable def sampleListing (objectKey : List Char) : Option (List Char) →
    Except StorageError (Page StorageObjectItem (List Char)) :=
  listFrom sampleCodecs (inverseSlice Runtime.sampleDoubles) sampleSecret alice.projectId openPolicies
    (twoObjects objectKey) alice oneAtATime

def escapedKey : List Char := List.replicate 800 (Char.ofNat 1)

def sampleListed (objectKey : List Char) : List StorageObjectItem :=
  listedObjects openPolicies (twoObjects objectKey) oneAtATime

theorem oneAtATime_valid : oneAtATime.IsValid := ⟨by decide, by decide⟩

/-- The first page of two needs a cursor that is not made: there is no way to the second. -/
theorem escaped_key_stops_listing :
    ¬ ∃ items, IsListing openPolicies (twoObjects escapedKey) oneAtATime items ∧
      Follows (sampleListing escapedKey) none items := by
  rintro ⟨items, -, hfollows⟩
  obtain ⟨-, hends⟩ := (follows_listing_iff (inverseSlice_lawful Runtime.sampleDoubles_lawful) rfl
    ⟨by decide, by decide⟩ oneAtATime_valid items).mp hfollows
  have hkeys : (objectsBehind openPolicies (twoObjects escapedKey) oneAtATime [] []).map StorageObjectItem.objectKey =
      [escapedKey, ['z']] := by decide +kernel
  obtain ⟨first, rest, hrows, hkey, hrest⟩ := List.map_eq_cons_iff.mp hkeys
  have hlength := congrArg List.length hrest
  rw [List.length_map] at hlength
  have hend : IsPageEnd 1 (first :: rest) first := ⟨0, by simp [hlength], rfl⟩
  have hfits := hends first (hrows ▸ hend)
  have hlong : maxCursorPayloadBytes < textBytes escapedKey := by decide +kernel
  simp only [ListCursor.bytes, cursorOf, hkey] at hfits
  omega

theorem two_objects_listed :
    ∃ items, IsListing openPolicies (twoObjects "a".toList) oneAtATime items ∧
      Follows (sampleListing "a".toList) none items := by
  have hmain := (@listing_complete_iff _ sampleCodecs (inverseSlice Runtime.sampleDoubles) sampleSecret alice.projectId
    openPolicies (twoObjects "a".toList) alice oneAtATime (inverseSlice_lawful Runtime.sampleDoubles_lawful) rfl
    ⟨by decide, by decide⟩).1
  have hall : (sampleListed "a".toList).all (fun item => item.objectKey ≠ [] ∧
      (cursorOf sampleCodecs alice oneAtATime item).bytes ≤ maxCursorPayloadBytes) = true := by decide +kernel
  have hitem {item : StorageObjectItem} (h : item ∈ sampleListed "a".toList) :=
    of_decide_eq_true (List.all_eq_true.mp hall item h)
  refine hmain.mpr ⟨oneAtATime_valid, fun item h => .inl (hitem h).1, fun item h => ?_⟩
  obtain ⟨_, -, hget⟩ := h
  exact (hitem (List.mem_of_getElem? hget)).2

end Sample

end Ffdb.ObjectStorage
