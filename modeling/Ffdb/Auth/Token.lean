import Ffdb.Lib.Base64
import Ffdb.Lib.Fallible

/-! Opaque tokens: a random part to look a token up by, and a digest of the whole to know it by. -/
namespace Ffdb.Auth
open Text

abbrev Uuid := BitVec 128

@[ext] structure TokenParts where
  tokenPrefix : List Char
  digest : List UInt8
  deriving DecidableEq

structure Entropy where
  prefixBytes : Vector UInt8 12
  secretBytes : Vector UInt8 32

structure OpaqueTokenCodec where
  label : List Char
  digest : List Char → List UInt8

namespace OpaqueTokenCodec
variable (codec : OpaqueTokenCodec)

def start : List Char := "ffdb_".toList ++ codec.label ++ ['_']

def plaintext (entropy : Entropy) : List Char :=
  codec.start ++ Base64.encode entropy.prefixBytes.toList ++ '.' :: Base64.encode entropy.secretBytes.toList

def parts (entropy : Entropy) : TokenParts :=
  ⟨Base64.encode entropy.prefixBytes.toList, codec.digest (codec.plaintext entropy)⟩

def issue (entropy : Option Entropy) : Option (List Char × TokenParts) :=
  entropy.map fun entropy => (codec.plaintext entropy, codec.parts entropy)

def parseAndDigest (token : List Char) : Option TokenParts := do
  guard (byteLength token ≤ 256)
  let remainder ← codec.start.isPrefixOf? token
  let (tokenPrefix, secret) ← splitOnce '.' remainder
  guard (!secret.contains '.')
  let prefixBytes ← Base64.decode tokenPrefix
  let secretBytes ← Base64.decode secret
  guard (prefixBytes.length = 12 ∧ secretBytes.length = 32 ∧
    Base64.encode prefixBytes = tokenPrefix ∧ Base64.encode secretBytes = secret)
  pure ⟨tokenPrefix, codec.digest token⟩

end OpaqueTokenCodec

end Ffdb.Auth
