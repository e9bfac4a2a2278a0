import Mathlib.Tactic.Linarith
import Mathlib.Data.Nat.Digits.Defs
import Ffdb.Lib.Text

/-! Base64, URL-safe without padding and standard with it. Decoding is strict: a symbol
outside the alphabet, a lone trailing symbol and non-zero trailing bits fail. -/
namespace Base64

def symbol (n : Nat) : Char :=
  if n < 26 then Char.ofNat (65+n)
  else if n < 52 then Char.ofNat (97+(n-26))
  else if n < 62 then Char.ofNat (48+(n-52))
  else if n = 62 then '-'
  else '_'

def group (c : Char) : Option Nat :=
  let n := c.toNat
  if 65 ≤ n ∧ n ≤ 90 then some (n-65)
  else if 97 ≤ n ∧ n ≤ 122 then some (n-97+26)
  else if 48 ≤ n ∧ n ≤ 57 then some (n-48+52)
  else if c = '-' then some 62
  else if c = '_' then some 63
  else none

def encode : List UInt8 → List Char
  | [] => []
  | [a] => [symbol (a.toNat/4), symbol (a.toNat%4*16)]
  | [a, b] => [symbol (a.toNat/4), symbol (a.toNat%4*16+b.toNat/16), symbol (b.toNat%16*4)]
  | a :: b :: c :: rest =>
    symbol (a.toNat/4) :: symbol (a.toNat%4*16+b.toNat/16) ::
      symbol (b.toNat%16*4+c.toNat/64) :: symbol (c.toNat%64) :: encode rest

def decode : List Char → Option (List UInt8)
  | [] => some []
  | [_] => none
  | [x, y] => do
    let p ← group x
    let q ← group y
    if q%16 = 0 then some [UInt8.ofNat (p*4+q/16)] else none
  | [x, y, z] => do
    let p ← group x
    let q ← group y
    let r ← group z
    if r%4 = 0 then some [UInt8.ofNat (p*4+q/16), UInt8.ofNat (q%16*16+r/4)] else none
  | x :: y :: z :: w :: rest => do
    let p ← group x
    let q ← group y
    let r ← group z
    let s ← group w
    let tail ← decode rest
    some (UInt8.ofNat (p*4+q/16) :: UInt8.ofNat (q%16*16+r/4) :: UInt8.ofNat (r%4*64+s) :: tail)

theorem group_symbol {n : Nat} (h : n < 64) : group (symbol n) = some n := by
  revert h n
  decide

private theorem byte_eq {a : UInt8} {n : Nat} (h : n = a.toNat) : UInt8.ofNat n = a := by
  subst h
  exact UInt8.ofNat_toNat

/-- Decoding inverts encoding on every byte string. -/
theorem decode_encode (bytes : List UInt8) : decode (encode bytes) = some bytes := by
  induction bytes using encode.induct with
  | case1 => rfl
  | case2 a =>
    have ha := a.toNat_lt
    simp only [encode, decode]
    rw [group_symbol (by omega), group_symbol (by omega)]
    simp only [Option.bind_eq_bind, Option.bind_some]
    rw [if_pos (by omega), byte_eq (a := a) (by omega)]
  | case3 a b =>
    have ha := a.toNat_lt
    have hb := b.toNat_lt
    simp only [encode, decode]
    rw [group_symbol (by omega), group_symbol (by omega), group_symbol (by omega)]
    simp only [Option.bind_eq_bind, Option.bind_some]
    rw [if_pos (by omega), byte_eq (a := a) (by omega), byte_eq (a := b) (by omega)]
  | case4 a b c rest ih =>
    have ha := a.toNat_lt
    have hb := b.toNat_lt
    have hc := c.toNat_lt
    simp only [encode, decode]
    rw [group_symbol (by omega), group_symbol (by omega), group_symbol (by omega),
      group_symbol (by omega), ih]
    simp only [Option.bind_eq_bind, Option.bind_some]
    rw [byte_eq (a := a) (by omega), byte_eq (a := b) (by omega), byte_eq (a := c) (by omega)]

theorem symbol_of_group {c : Char} {n : Nat} (h : group c = some n) : symbol n = c ∧ n < 64 := by
  by_cases hascii : c.toNat < 128
  · have hall : ∀ k : Fin 128, ∀ n ∈ group (Char.ofNat k), symbol n = Char.ofNat k ∧ n < 64 := by decide
    have hc := hall ⟨c.toNat, hascii⟩ n
    rw [Char.ofNat_toNat] at hc
    exact hc h
  · have hdash : c ≠ '-' := by
      rintro rfl
      exact hascii (by decide)
    have hline : c ≠ '_' := by
      rintro rfl
      exact hascii (by decide)
    simp only [group, hdash, hline, if_false] at h
    rw [if_neg (by omega), if_neg (by omega), if_neg (by omega)] at h
    cases h

theorem toNat_ofNat_byte {n : Nat} (h : n < 256) : (UInt8.ofNat n).toNat = n := by
  simpa using h

/-- Only the encoding of its bytes is decoded. -/
theorem encode_of_decode {text : List Char} {bytes : List UInt8} (h : decode text = some bytes) :
    encode bytes = text := by
  fun_induction decode text generalizing bytes with
  | case1 =>
    cases h
    rfl
  | case2 => cases h
  | case3 x y =>
    simp only [Option.bind_eq_bind, Option.bind_eq_some_iff] at h
    obtain ⟨p, hp, q, hq, h⟩ := h
    obtain ⟨rfl, hpb⟩ := symbol_of_group hp
    obtain ⟨rfl, hqb⟩ := symbol_of_group hq
    split at h
    · next hzero =>
      cases h
      have hbyte : (UInt8.ofNat (p*4+q/16)).toNat = p*4+q/16 := toNat_ofNat_byte (by omega)
      have hx : (p*4+q/16)/4 = p := by omega
      have hy : (p*4+q/16)%4*16 = q := by omega
      rw [encode, hbyte, hx, hy]
    · cases h
  | case4 x y z =>
    simp only [Option.bind_eq_bind, Option.bind_eq_some_iff] at h
    obtain ⟨p, hp, q, hq, r, hr, h⟩ := h
    obtain ⟨rfl, hpb⟩ := symbol_of_group hp
    obtain ⟨rfl, hqb⟩ := symbol_of_group hq
    obtain ⟨rfl, hrb⟩ := symbol_of_group hr
    split at h
    · next hzero =>
      cases h
      have hfirst : (UInt8.ofNat (p*4+q/16)).toNat = p*4+q/16 := toNat_ofNat_byte (by omega)
      have hsecond : (UInt8.ofNat (q%16*16+r/4)).toNat = q%16*16+r/4 := toNat_ofNat_byte (by omega)
      have hx : (p*4+q/16)/4 = p := by omega
      have hy : (p*4+q/16)%4*16+(q%16*16+r/4)/16 = q := by omega
      have hz : (q%16*16+r/4)%16*4 = r := by omega
      rw [encode, hfirst, hsecond, hx, hy, hz]
    · cases h
  | case5 x y z w rest ih =>
    simp only [Option.bind_eq_bind, Option.bind_eq_some_iff, Option.some.injEq] at h
    obtain ⟨p, hp, q, hq, r, hr, s, hs, tail, htail, rfl⟩ := h
    obtain ⟨rfl, hpb⟩ := symbol_of_group hp
    obtain ⟨rfl, hqb⟩ := symbol_of_group hq
    obtain ⟨rfl, hrb⟩ := symbol_of_group hr
    obtain ⟨rfl, hsb⟩ := symbol_of_group hs
    have hfirst : (UInt8.ofNat (p*4+q/16)).toNat = p*4+q/16 := toNat_ofNat_byte (by omega)
    have hsecond : (UInt8.ofNat (q%16*16+r/4)).toNat = q%16*16+r/4 := toNat_ofNat_byte (by omega)
    have hthird : (UInt8.ofNat (r%4*64+s)).toNat = r%4*64+s := toNat_ofNat_byte (by omega)
    have hx : (p*4+q/16)/4 = p := by omega
    have hy : (p*4+q/16)%4*16+(q%16*16+r/4)/16 = q := by omega
    have hz : (q%16*16+r/4)%16*4+(r%4*64+s)/64 = r := by omega
    have hw : (r%4*64+s)%64 = s := by omega
    rw [encode, hfirst, hsecond, hthird, ih htail, hx, hy, hz, hw]

theorem mem_encode {bytes : List UInt8} {c : Char} (h : c ∈ encode bytes) :
    ∃ n < 64, c = symbol n := by
  induction bytes using encode.induct with
  | case1 => simp [encode] at h
  | case2 a =>
    have ha := a.toNat_lt
    simp only [encode, List.mem_cons, List.not_mem_nil, or_false] at h
    obtain rfl | rfl := h
    · exact ⟨_, by omega, rfl⟩
    · exact ⟨_, by omega, rfl⟩
  | case3 a b =>
    have ha := a.toNat_lt
    have hb := b.toNat_lt
    simp only [encode, List.mem_cons, List.not_mem_nil, or_false] at h
    obtain rfl | rfl | rfl := h
    · exact ⟨_, by omega, rfl⟩
    · exact ⟨_, by omega, rfl⟩
    · exact ⟨_, by omega, rfl⟩
  | case4 a b c' rest ih =>
    have ha := a.toNat_lt
    have hb := b.toNat_lt
    have hc := c'.toNat_lt
    simp only [encode, List.mem_cons] at h
    obtain rfl | rfl | rfl | rfl | h := h
    · exact ⟨_, by omega, rfl⟩
    · exact ⟨_, by omega, rfl⟩
    · exact ⟨_, by omega, rfl⟩
    · exact ⟨_, by omega, rfl⟩
    · exact ih h

theorem symbol_ascii {n : Nat} (h : n < 64) :
    (symbol n).utf8Size = 1 ∧ symbol n ≠ '.' ∧ symbol n ≠ '=' := by
  revert h n
  decide

/-- No encoded text contains the separator of a dotted token. -/
theorem dot_notMem_encode (bytes : List UInt8) : '.' ∉ encode bytes := by
  intro h
  obtain ⟨n, hn, hdot⟩ := mem_encode h
  exact (symbol_ascii hn).2.1 hdot.symm

theorem utf8Size_of_mem_encode {bytes : List UInt8} {c : Char} (h : c ∈ encode bytes) :
    c.utf8Size = 1 := by
  obtain ⟨n, hn, rfl⟩ := mem_encode h
  exact (symbol_ascii hn).1

theorem length_encode (bytes : List UInt8) : (encode bytes).length = (4*bytes.length+2)/3 := by
  induction bytes using encode.induct with
  | case1 => rfl
  | case2 a => simp [encode]
  | case3 a b => simp [encode]
  | case4 a b c rest ih =>
    simp only [encode, List.length_cons, ih]
    omega

theorem byteLength_encode (bytes : List UInt8) : Text.byteLength (encode bytes) = (4*bytes.length+2)/3 := by
  rw [Text.byteLength_of_ascii fun _ h => utf8Size_of_mem_encode h, length_encode]

def toStandard (c : Char) : Char :=
  if c = '-' then '+' else if c = '_' then '/' else c

/-- A text of the standard alphabet in the URL-safe one; symbols of the latter become
invalid. -/
def fromStandard (c : Char) : Char :=
  if c = '+' then '-' else if c = '/' then '_' else if c = '-' ∨ c = '_' then '.' else c

/-- The standard alphabet with padding to groups of four. -/
def encodeStandard (bytes : List UInt8) : List Char :=
  (encode bytes).map toStandard ++ List.replicate ((4-(encode bytes).length%4)%4) '='

def decodeStandard (text : List Char) : Option (List UInt8) :=
  let body := text.takeWhile (· ≠ '=')
  if text = body ++ List.replicate ((4-body.length%4)%4) '=' then decode (body.map fromStandard)
  else none

theorem fromStandard_toStandard {n : Nat} (h : n < 64) :
    fromStandard (toStandard (symbol n)) = symbol n ∧ toStandard (symbol n) ≠ '=' := by
  revert h n
  decide

theorem decodeStandard_encodeStandard (bytes : List UInt8) :
    decodeStandard (encodeStandard bytes) = some bytes := by
  have hpad : ∀ c ∈ (encode bytes).map toStandard, (c ≠ '=' : Bool) = true := by
    intro c hc
    obtain ⟨d, hd, rfl⟩ := List.mem_map.mp hc
    obtain ⟨n, hn, rfl⟩ := mem_encode hd
    simpa using (fromStandard_toStandard hn).2
  have hbody : (encodeStandard bytes).takeWhile (· ≠ '=') = (encode bytes).map toStandard := by
    rw [encodeStandard, List.takeWhile_append_of_pos hpad]
    cases (4-(encode bytes).length%4)%4 with
    | zero => simp
    | succ n => simp [List.replicate_succ]
  have hback : ((encode bytes).map toStandard).map fromStandard = encode bytes := by
    rw [List.map_map]
    refine (List.map_congr_left (g := id) ?_).trans (List.map_id _)
    intro c hc
    obtain ⟨n, hn, rfl⟩ := mem_encode hc
    exact (fromStandard_toStandard hn).1
  simp only [decodeStandard, hbody, hback, decode_encode]
  simp [encodeStandard]

end Base64
