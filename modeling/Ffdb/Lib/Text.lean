import Mathlib.Tactic.Linarith
import Mathlib.Data.String.Basic

/-! Splitting texts at a separator, their length in bytes, bytes in hexadecimal, and
what is white space or a letter case in ASCII. -/
namespace Text

def apostrophe : Char := Char.ofNat 39

def backtick : Char := Char.ofNat 96

def isAsciiWhitespace (c : Char) : Bool :=
  c = ' ' || c = '\t' || c = '\n' || c = '\x0c' || c = '\r'

def isWhitespace (c : Char) : Bool :=
  (9 ≤ c.toNat && c.toNat ≤ 13) || c.toNat = 0x20 || c.toNat = 0x85 || c.toNat = 0xa0 ||
    c.toNat = 0x1680 || (0x2000 ≤ c.toNat && c.toNat ≤ 0x200a) || c.toNat = 0x2028 ||
    c.toNat = 0x2029 || c.toNat = 0x202f || c.toNat = 0x205f || c.toNat = 0x3000

def isControl (c : Char) : Bool := c.toNat < 0x20 || (0x7f ≤ c.toNat && c.toNat ≤ 0x9f)

def trim (text : List Char) : List Char :=
  ((text.dropWhile isWhitespace).reverse.dropWhile isWhitespace).reverse

def toAsciiUppercase (text : List Char) : List Char := text.map Char.toUpper

def toAsciiLowercase (text : List Char) : List Char := text.map Char.toLower

def eqIgnoreAsciiCase (text text' : List Char) : Bool :=
  toAsciiLowercase text = toAsciiLowercase text'

def hexDigit (n : Nat) : Char := if n < 10 then Char.ofNat (48+n) else Char.ofNat (87+n)

def hex (bytes : List UInt8) : List Char :=
  bytes.flatMap fun byte => [hexDigit (byte.toNat/16), hexDigit (byte.toNat%16)]

def utf8 (text : List Char) : List UInt8 := (String.ofList text).toByteArray.data.toList

def replaceWith (c : Char) (text' text : List Char) : List Char :=
  text.flatMap fun d => if d = c then text' else [d]

def hasInfix (word text : List Char) : Bool := text.tails.any fun rest => word.isPrefixOf rest

def byteLength (text : List Char) : Nat := (text.map Char.utf8Size).sum

theorem byteLength_cons (c : Char) (text : List Char) :
    byteLength (c :: text) = c.utf8Size+byteLength text := by
  simp [byteLength]

theorem byteLength_append (text text' : List Char) :
    byteLength (text ++ text') = byteLength text+byteLength text' := by
  simp [byteLength]

theorem byteLength_of_ascii {text : List Char} (h : ∀ c ∈ text, c.utf8Size = 1) :
    byteLength text = text.length := by
  induction text with
  | nil => rfl
  | cons c text ih =>
    have hc := h c (by simp)
    have ht := ih fun d hd => h d (List.mem_cons_of_mem c hd)
    simp only [byteLength, List.map_cons, List.sum_cons, List.length_cons] at ht ⊢
    omega

theorem length_utf8 (text : List Char) : (utf8 text).length = byteLength text := by
  have hsize (text : List Char) : text.utf8Encode.size = byteLength text := by
    induction text with
    | nil => rfl
    | cons c text ih =>
      rw [List.utf8Encode_cons, ByteArray.size_append, ih, List.utf8Encode_singleton, List.size_toByteArray,
        String.length_utf8EncodeChar, byteLength_cons]
  rw [utf8, String.toByteArray_ofList]
  exact hsize text

theorem utf8_injective {text text' : List Char} (h : utf8 text = utf8 text') : text = text' := by
  have hbytes : (String.ofList text).toByteArray = (String.ofList text').toByteArray :=
    ByteArray.ext (Array.toList_inj.mp h)
  exact String.ofList_injective (String.toByteArray_inj.mp hbytes)

theorem utf8_append (text text' : List Char) : utf8 (text ++ text') = utf8 text ++ utf8 text' := by
  simp [utf8, String.ofList_append]

def splitOnce (separator : Char) : List Char → Option (List Char × List Char)
  | [] => none
  | c :: rest =>
    if c = separator then some ([], rest)
    else (splitOnce separator rest).map fun (before, after) => (c :: before, after)

theorem splitOnce_append {separator : Char} (before after : List Char)
    (h : separator ∉ before) :
    splitOnce separator (before ++ separator :: after) = some (before, after) := by
  induction before with
  | nil => simp [splitOnce]
  | cons c before ih =>
    have hc : c ≠ separator := fun he => h (by simp [he])
    have ht : separator ∉ before := fun hm => h (List.mem_cons_of_mem c hm)
    simp [splitOnce, hc, ih ht]

/-- Two texts that split alike are alike, when the first parts avoid the separator. -/
theorem append_separator_inj {separator : Char} {a b c d : List Char}
    (ha : separator ∉ a) (hc : separator ∉ c)
    (h : a ++ separator :: b = c ++ separator :: d) : a = c ∧ b = d := by
  have hs := congrArg (splitOnce separator) h
  rw [splitOnce_append a b ha, splitOnce_append c d hc] at hs
  simpa using hs

end Text
