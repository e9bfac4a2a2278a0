import Mathlib.Tactic.Linarith

/-! SHA-256 and HMAC-SHA-256 over byte lists, on naturals below `2^32`, so that
programs that authenticate their messages can be evaluated. -/
namespace Sha256

abbrev Word := Nat

def rotr (n : Nat) (x : Word) : Word := (x >>> n) ||| ((x <<< (32-n)) % 2^32)

def roundConstants : List Word :=
  [0x428a2f98, 0x71374491, 0xb5c0fbcf, 0xe9b5dba5, 0x3956c25b, 0x59f111f1, 0x923f82a4, 0xab1c5ed5,
   0xd807aa98, 0x12835b01, 0x243185be, 0x550c7dc3, 0x72be5d74, 0x80deb1fe, 0x9bdc06a7, 0xc19bf174,
   0xe49b69c1, 0xefbe4786, 0x0fc19dc6, 0x240ca1cc, 0x2de92c6f, 0x4a7484aa, 0x5cb0a9dc, 0x76f988da,
   0x983e5152, 0xa831c66d, 0xb00327c8, 0xbf597fc7, 0xc6e00bf3, 0xd5a79147, 0x06ca6351, 0x14292967,
   0x27b70a85, 0x2e1b2138, 0x4d2c6dfc, 0x53380d13, 0x650a7354, 0x766a0abb, 0x81c2c92e, 0x92722c85,
   0xa2bfe8a1, 0xa81a664b, 0xc24b8b70, 0xc76c51a3, 0xd192e819, 0xd6990624, 0xf40e3585, 0x106aa070,
   0x19a4c116, 0x1e376c08, 0x2748774c, 0x34b0bcb5, 0x391c0cb3, 0x4ed8aa4a, 0x5b9cca4f, 0x682e6ff3,
   0x748f82ee, 0x78a5636f, 0x84c87814, 0x8cc70208, 0x90befffa, 0xa4506ceb, 0xbef9a3f7, 0xc67178f2]

structure Registers where
  (a b c d e f g h : Word)

def Registers.initial : Registers :=
  ⟨0x6a09e667, 0xbb67ae85, 0x3c6ef372, 0xa54ff53a, 0x510e527f, 0x9b05688c, 0x1f83d9ab, 0x5be0cd19⟩

def scheduled (w0 w1 w9 w14 : Word) : Word :=
  let s0 := rotr 7 w1 ^^^ rotr 18 w1 ^^^ (w1 >>> 3)
  let s1 := rotr 17 w14 ^^^ rotr 19 w14 ^^^ (w14 >>> 10)
  (w0+s0+w9+s1) % 2^32

def round (r : Registers) (k w : Word) : Registers :=
  let s1 := rotr 6 r.e ^^^ rotr 11 r.e ^^^ rotr 25 r.e
  let ch := (r.e &&& r.f) ^^^ ((2^32-1-r.e) &&& r.g)
  let t1 := (r.h+s1+ch+k+w) % 2^32
  let s0 := rotr 2 r.a ^^^ rotr 13 r.a ^^^ rotr 22 r.a
  let maj := (r.a &&& r.b) ^^^ (r.a &&& r.c) ^^^ (r.b &&& r.c)
  ⟨(t1+s0+maj) % 2^32, r.a, r.b, r.c, (r.d+t1) % 2^32, r.e, r.f, r.g⟩

def rounds : List Word → List Word → Registers → Registers
  | [], _, r => r
  | k :: ks, window, r =>
    let w0 := window.headD 0
    let next := scheduled w0 (window.getD 1 0) (window.getD 9 0) (window.getD 14 0)
    rounds ks (window.drop 1 ++ [next]) (round r k w0)

def compress (r : Registers) (block : List Word) : Registers :=
  let s := rounds roundConstants block r
  ⟨(r.a+s.a) % 2^32, (r.b+s.b) % 2^32, (r.c+s.c) % 2^32, (r.d+s.d) % 2^32,
   (r.e+s.e) % 2^32, (r.f+s.f) % 2^32, (r.g+s.g) % 2^32, (r.h+s.h) % 2^32⟩

def words : List UInt8 → List Word
  | a :: b :: c :: d :: rest =>
    (a.toNat*2^24 + b.toNat*2^16 + c.toNat*2^8 + d.toNat) :: words rest
  | _ => []

def bytesOf : Nat → Nat → List UInt8
  | 0, _ => []
  | count+1, n => bytesOf count (n/256) ++ [UInt8.ofNat n]

def padded (message : List UInt8) : List UInt8 :=
  message ++ 0x80 :: List.replicate ((119-message.length%64)%64) 0 ++ bytesOf 8 (8*message.length)

def blocks : Nat → List Word → Registers → Registers
  | 0, _, r => r
  | count+1, message, r => blocks count (message.drop 16) (compress r (message.take 16))

def digest (message : List UInt8) : List UInt8 :=
  let message := words (padded message)
  let r := blocks (message.length/16) message .initial
  [r.a, r.b, r.c, r.d, r.e, r.f, r.g, r.h].flatMap (bytesOf 4)

def hmac (key message : List UInt8) : List UInt8 :=
  let key := if 64 < key.length then digest key else key
  let key := key ++ List.replicate (64-key.length) 0
  digest (key.map (· ^^^ 0x5c) ++ digest (key.map (· ^^^ 0x36) ++ message))

theorem length_bytesOf (count n : Nat) : (bytesOf count n).length = count := by
  induction count generalizing n with
  | zero => rfl
  | succ count ih => simp [bytesOf, ih]

theorem length_digest (message : List UInt8) : (digest message).length = 32 := by
  simp [digest, length_bytesOf]

theorem length_hmac (key message : List UInt8) : (hmac key message).length = 32 :=
  length_digest _

end Sha256
