import Ffdb.Lib.Bytes
import Ffdb.Lib.Text
import Ffdb.Lib.Saturating
import Ffdb.Lib.Fallible

/-! The encrypted backup file: a header and frames, each a chunk of the database sealed
under its place in the file. The cipher and the key derivation are parameters. -/
namespace Ffdb.Backup
open Octets Fallible
open Sha256 (bytesOf length_bytesOf)

abbrev Bytes := List UInt8

def magic : Bytes := [0x46, 0x46, 0x44, 0x42, 0x42, 0x4b, 0x30, 0x31]
def chunkBytes : Nat := 64*1024
def tagBytes : Nat := 16
def maxCiphertextChunk : Nat := chunkBytes+tagBytes

inductive BackupCryptoError where
  | invalidKey | invalidCiphertext | io | cancelled | deadlineExceeded
  deriving DecidableEq

structure DatabaseRoute where
  projectId : Block 16
  databaseId : Block 16
  deriving DecidableEq

abbrev BackupId := Block 16

structure Crates where
  encrypt : (key nonce aad message : Bytes) → Option Bytes
  decrypt : (key nonce aad ciphertext : Bytes) → Option Bytes
  hkdf : (salt masterKey info : Bytes) → Bytes

structure BackupCrypto where
  masterKey : Bytes
  long : 32 ≤ masterKey.length

def BackupCrypto.new (masterKey : Bytes) : Except BackupCryptoError BackupCrypto :=
  if h : masterKey.length < 32 then .error .invalidKey else .ok ⟨masterKey, by omega⟩

def deriveKey (crates : Crates) (crypto : BackupCrypto) (route : DatabaseRoute) (backupId : BackupId) :
    Bytes :=
  crates.hkdf (route.projectId.1 ++ route.databaseId.1 ++ backupId.1) crypto.masterKey
    "ffdb.backup.aead.v1".toByteArray.data.toList

/-- The bytes of `ffdb.backup.file.v1` and a zero. -/
def fileLabel : Bytes := "ffdb.backup.file.v1".toByteArray.data.toList ++ [0]

def associatedData (route : DatabaseRoute) (backupId : BackupId) : Bytes :=
  fileLabel ++ route.projectId.1 ++ route.databaseId.1 ++ backupId.1

def flagByte (finalChunk : Bool) : UInt8 := if finalChunk then 1 else 0

def chunkAssociatedData (label : Bytes) (counter : Nat) (finalChunk : Bool) : Bytes :=
  label ++ bytesOf 4 counter ++ [flagByte finalChunk]

def chunkNonce (noncePrefix : Block 8) (counter : Nat) : Bytes := noncePrefix.1 ++ bytesOf 4 counter

structure FileKey where
  key : Bytes
  label : Bytes
  noncePrefix : Block 8

def BackupCrypto.fileKey (crates : Crates) (crypto : BackupCrypto) (route : DatabaseRoute)
    (backupId : BackupId) (noncePrefix : Block 8) : FileKey :=
  ⟨deriveKey crates crypto route backupId, associatedData route backupId, noncePrefix⟩

structure Frame where
  counter : Nat
  finalChunk : Bool
  message : Bytes
  encrypted : Bytes

def frameBytes (finalChunk : Bool) (encrypted : Bytes) : Bytes :=
  bytesOf 4 encrypted.length ++ [flagByte finalChunk] ++ encrypted

def Frame.bytes (frame : Frame) : Bytes := frameBytes frame.finalChunk frame.encrypted

def Frame.nonce (file : FileKey) (frame : Frame) : Bytes := chunkNonce file.noncePrefix frame.counter

def Frame.aad (file : FileKey) (frame : Frame) : Bytes :=
  chunkAssociatedData file.label frame.counter frame.finalChunk

/-- How the checks of the token and of the clock come out, one after another. -/
abbrev Budget := Nat → Except BackupCryptoError Unit

def Budget.unlimited : Budget := fun _ => .ok ()

section Encryption
variable (crates : Crates) (file : FileKey) (budget : Budget)

/-- The loop of `encrypt_file`: the frames that it sealed, and how it ended. A chunk is the
last one when nothing is read behind it. -/
def encryptLoop (current input : Bytes) (counter : Nat) :
    List Frame × Except BackupCryptoError Unit :=
  match budget (counter+1) with
  | .error e => ([], .error e)
  | .ok () =>
    let next := input.take chunkBytes
    let finalChunk := next.isEmpty
    match crates.encrypt file.key (chunkNonce file.noncePrefix counter)
        (chunkAssociatedData file.label counter finalChunk) current with
    | none => ([], .error .invalidCiphertext)
    | some encrypted =>
      let frame : Frame := ⟨counter, finalChunk, current, encrypted⟩
      if encrypted.length < 2^32 then
        if _ : finalChunk then ([frame], .ok ())
        else if counter+1 < 2^32 then
          let (frames, outcome) := encryptLoop next (input.drop chunkBytes) (counter+1)
          (frame :: frames, outcome)
        else ([frame], .error .invalidCiphertext)
      else ([frame], .error .invalidCiphertext)
termination_by input.length
decreasing_by
  have hinput : input ≠ [] := fun hinput => ‹¬finalChunk› (by simp [finalChunk, next, hinput])
  have hlength := List.length_pos_iff.mpr hinput
  simp only [List.length_drop, chunkBytes]
  omega

/-- A call of `encrypt_file`: its arguments, the random bytes that it drew, and how its checks
and the final flush came out. -/
structure EncryptCall where
  route : DatabaseRoute
  backupId : BackupId
  noncePrefix : Block 8
  plaintext : Bytes
  budget : Budget
  synced : Except BackupCryptoError Unit

variable (crypto : BackupCrypto) (call : EncryptCall)

def EncryptCall.fileKey : FileKey := crypto.fileKey crates call.route call.backupId call.noncePrefix

/-- What the loop of the call did; it is not entered when the first check fails. -/
def EncryptCall.loop : List Frame × Except BackupCryptoError Unit :=
  match call.budget 0 with
  | .error e => ([], .error e)
  | .ok () => encryptLoop crates (call.fileKey crates crypto) call.budget
      (call.plaintext.take chunkBytes) (call.plaintext.drop chunkBytes) 0

def EncryptCall.frames : List Frame := (call.loop crates crypto).1

def EncryptCall.written : Bytes :=
  magic ++ call.noncePrefix.1 ++ (call.frames crates crypto).flatMap Frame.bytes

def EncryptCall.encryptFile : Except BackupCryptoError (Nat × List Char) := do
  (call.loop crates crypto).2
  call.synced
  let written := call.written crates crypto
  .ok (min written.length Saturating.u64Max, Text.hex (Sha256.digest written))

end Encryption

section Decryption
variable (crates : Crates) (file : FileKey) (budget : Budget)

def readFlag : Bytes → Option Bool
  | [0] => some false
  | [1] => some true
  | _ => none

def readFrame (input : Bytes) : Option (Bool × Bytes × Bytes) := do
  let (length, input) ← readExact 4 input
  let length := ofBytes length
  guard (tagBytes ≤ length ∧ length ≤ maxCiphertextChunk)
  let (finalFlag, input) ← readExact 1 input
  let finalChunk ← readFlag finalFlag
  let (encrypted, input) ← readExact length input
  some (finalChunk, encrypted, input)

theorem readFlag_eq_some_iff {flag : Bytes} {finalChunk : Bool} :
    readFlag flag = some finalChunk ↔ flag = [flagByte finalChunk] := by
  unfold readFlag
  constructor
  · intro h
    split at h
    · cases h
      rfl
    · cases h
      rfl
    · cases h
  · intro h
    subst h
    cases finalChunk with
    | true => rfl
    | false => rfl

/-- A frame is read off an input exactly when the input begins with it. -/
theorem readFrame_eq_some_iff {input : Bytes} {finalChunk : Bool} {encrypted rest : Bytes} :
    readFrame input = some (finalChunk, encrypted, rest) ↔
      input = frameBytes finalChunk encrypted ++ rest ∧
        tagBytes ≤ encrypted.length ∧ encrypted.length ≤ maxCiphertextChunk := by
  constructor
  · intro h
    simp only [readFrame, Option.bind_eq_bind, Option.bind_eq_some_iff, Option.guard_eq_some'] at h
    obtain ⟨⟨length, afterLength⟩, hlength, ⟨⟩, hbounds, ⟨flag, afterFlag⟩, hflag, final, hfinal,
      ⟨bytes, left⟩, hbytes, hresult⟩ := h
    obtain ⟨rfl, hcount⟩ := readExact_eq_some_iff.mp hlength
    obtain ⟨rfl, -⟩ := readExact_eq_some_iff.mp hflag
    obtain ⟨rfl, hencrypted⟩ := readExact_eq_some_iff.mp hbytes
    obtain ⟨rfl, rfl, rfl⟩ : final = finalChunk ∧ bytes = encrypted ∧ left = rest := by
      simpa using hresult
    have hleading : length = bytesOf 4 bytes.length := by
      rw [hencrypted, ← hcount, bytesOf_ofBytes]
    have hbyte : flag = [flagByte final] := readFlag_eq_some_iff.mp hfinal
    rw [hleading, hbyte, frameBytes, hencrypted]
    exact ⟨by simp, hbounds⟩
  · intro h
    obtain ⟨rfl, hbounds⟩ := h
    have hsmall : encrypted.length < 256^4 := by
      have := hbounds.2
      simp only [maxCiphertextChunk, chunkBytes, tagBytes] at this
      omega
    have hlength : readExact 4 (frameBytes finalChunk encrypted ++ rest) =
        some (bytesOf 4 encrypted.length, flagByte finalChunk :: (encrypted ++ rest)) :=
      readExact_eq_some_iff.mpr ⟨by simp [frameBytes], length_bytesOf 4 _⟩
    have hflag : readExact 1 (flagByte finalChunk :: (encrypted ++ rest)) =
        some ([flagByte finalChunk], encrypted ++ rest) :=
      readExact_eq_some_iff.mpr ⟨rfl, rfl⟩
    have hencrypted : readExact encrypted.length (encrypted ++ rest) = some (encrypted, rest) :=
      readExact_eq_some_iff.mpr ⟨rfl, rfl⟩
    have hfinal : readFlag [flagByte finalChunk] = some finalChunk := readFlag_eq_some_iff.mpr rfl
    simp [readFrame, hlength, ofBytes_bytesOf hsmall, guard, hbounds, hflag, hfinal, hencrypted]

def decryptLoop (input : Bytes) (counter : Nat) : Except BackupCryptoError Bytes :=
  match budget (counter+1) with
  | .error e => .error e
  | .ok () =>
    match _hframe : readFrame input with
    | none => .error .invalidCiphertext
    | some (finalChunk, encrypted, rest) =>
      match crates.decrypt file.key (chunkNonce file.noncePrefix counter)
          (chunkAssociatedData file.label counter finalChunk) encrypted with
      | none => .error .invalidCiphertext
      | some decrypted =>
        if finalChunk then
          if rest = [] then .ok decrypted else .error .invalidCiphertext
        else if counter+1 < 2^32 then
          (decryptLoop rest (counter+1)).map (decrypted ++ ·)
        else .error .invalidCiphertext
termination_by input.length
decreasing_by
  obtain ⟨rfl, -⟩ := readFrame_eq_some_iff.mp _hframe
  simp only [frameBytes, List.length_append, List.length_singleton]
  omega

def decryptFile (crypto : BackupCrypto) (ciphertext : Bytes) (route : DatabaseRoute)
    (backupId : BackupId) : Except BackupCryptoError Bytes := do
  budget 0
  let (header, input) ← orError (readExact 8 ciphertext) .invalidCiphertext
  require (header = magic) .invalidCiphertext
  if h : 8 ≤ input.length then
    let noncePrefix : Block 8 := ⟨input.take 8, List.length_take_of_le h⟩
    decryptLoop crates (crypto.fileKey crates route backupId noncePrefix) budget (input.drop 8) 0
  else .error .invalidCiphertext

end Decryption
end Ffdb.Backup
