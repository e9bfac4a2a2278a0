import Ffdb.Sync.Wire
import Std.Data.String.ToNat
import Std.Data.String.ToInt

/-! The text of a JSON value, and that no two values share one. Doubles are kept by their
bits; how one is written and how a large integer is rounded to one are left open. -/
namespace Ffdb.Runtime
open Sync (Value Number JsonMap escapeChar backslash quote hexDigit)

def openBrace : Char := '\x7b'
def closeBrace : Char := '\x7d'

structure Doubles where
  text : UInt64 → List Char
  ofInt : Int → UInt64

/-- Neither an infinity nor a NaN: the exponent is not all ones. -/
def isFinite (bits : UInt64) : Bool := bits.toNat/2^52%2^11 ≠ 2^11-1

def isNumberChar (c : Char) : Bool :=
  c.isDigit || c = '-' || c = '+' || c = '.' || c = 'e'

/-- A finite double is written by digits, a fraction or an exponent, so that it reads back as
itself and never as an integer. -/
structure Doubles.Lawful (doubles : Doubles) : Prop where
  injective {a b : UInt64} (ha : isFinite a = true) (hb : isFinite b = true)
    (h : doubles.text a = doubles.text b) : a = b
  chars {a : UInt64} (ha : isFinite a = true) : ∀ c ∈ doubles.text a, isNumberChar c = true
  head {a : UInt64} (ha : isFinite a = true) :
    ∃ c rest, doubles.text a = c :: rest ∧ (c.isDigit = true ∨ c = '-')
  marked {a : UInt64} (ha : isFinite a = true) :
    '.' ∈ doubles.text a ∨ 'e' ∈ doubles.text a

variable (doubles : Doubles)

def stringText (value : String) : List Char :=
  quote :: value.toList.flatMap escapeChar ++ [quote]

def numberText : Number → List Char
  | .posInt value => value.repr.toList
  | .negInt value => value.repr.toList
  | .float bits => doubles.text bits

def valueText : Value → List Char
  | .null => "null".toList
  | .bool value => if value then "true".toList else "false".toList
  | .number value => numberText doubles value
  | .string value => stringText value
  | .array [] => ['[', ']']
  | .array (item :: rest) => '[' :: valueText item ++ itemsText rest
  | .object [] => [openBrace, closeBrace]
  | .object ((name, value) :: rest) =>
    openBrace :: stringText name ++ ':' :: valueText value ++ fieldsText rest
where
  itemsText : List Value → List Char
    | [] => [']']
    | item :: rest => ',' :: valueText item ++ itemsText rest
  fieldsText : List (String × Value) → List Char
    | [] => [closeBrace]
    | (name, value) :: rest => ',' :: stringText name ++ ':' :: valueText value ++ fieldsText rest

/-- The numbers a JSON value can hold: negative ones apart from the others, doubles finite. -/
def Number.WellFormed : Number → Prop
  | .posInt _ => True
  | .negInt value => value < 0
  | .float bits => isFinite bits = true

mutual
def Value.WellFormed : Value → Prop
  | .number value => Number.WellFormed value
  | .array items => Value.ItemsWellFormed items
  | .object fields => Value.FieldsWellFormed fields
  | _ => True

def Value.ItemsWellFormed : List Value → Prop
  | [] => True
  | item :: rest => Value.WellFormed item ∧ Value.ItemsWellFormed rest

def Value.FieldsWellFormed : List (String × Value) → Prop
  | [] => True
  | (_, value) :: rest => Value.WellFormed value ∧ Value.FieldsWellFormed rest
end

def unescape : List Char → Option (Char × List Char)
  | [] => none
  | c :: rest =>
    if c ≠ backslash then some (c, rest)
    else match rest with
      | 'b' :: rest => some (Char.ofNat 8, rest)
      | 't' :: rest => some (Char.ofNat 9, rest)
      | 'n' :: rest => some (Char.ofNat 10, rest)
      | 'f' :: rest => some (Char.ofNat 12, rest)
      | 'r' :: rest => some (Char.ofNat 13, rest)
      | 'u' :: _ :: _ :: high :: low :: rest =>
        some (Char.ofNat ((if high = '1' then 16 else 0)+
          (if low.isDigit then low.toNat-48 else low.toNat-87)), rest)
      | d :: rest => some (d, rest)
      | [] => none

theorem unescape_hex : ∀ n : Fin 32, ∀ rest : List Char,
    unescape ([backslash, 'u', '0', '0', hexDigit (n.val/16), hexDigit (n.val%16)] ++ rest) =
      some (Char.ofNat n, rest) := by
  intro n rest
  have hdigits : ∀ n : Fin 32, Char.ofNat ((if hexDigit (n.val/16) = '1' then 16 else 0)+
      (if (hexDigit (n.val%16)).isDigit then (hexDigit (n.val%16)).toNat-48
        else (hexDigit (n.val%16)).toNat-87)) = Char.ofNat n := by decide
  simp [unescape, hdigits n]

theorem unescape_escape (c : Char) (rest : List Char) :
    unescape (escapeChar c ++ rest) = some (c, rest) := by
  rw [escapeChar]
  split_ifs with hself hb ht hn hf hr hcontrol
  · obtain rfl | rfl := hself <;> rfl
  · rw [hb]; rfl
  · rw [ht]; rfl
  · rw [hn]; rfl
  · rw [hf]; rfl
  · rw [hr]; rfl
  · have hhex := unescape_hex ⟨c.toNat, hcontrol⟩ rest
    simpa using hhex
  · have hplain : c ≠ backslash := fun h => hself (.inr h)
    simp [unescape, hplain]

theorem escape_ne_quote (c : Char) (rest : List Char) :
    (escapeChar c ++ rest).head? ≠ some quote := by
  by_cases hself : c = quote ∨ c = backslash
  · rw [escapeChar, if_pos hself]
    simp [backslash, quote]
  · have hquote : c ≠ quote := fun h => hself (.inl h)
    rw [escapeChar, if_neg hself]
    split_ifs <;> first | simpa using hquote | simp [backslash, quote]

theorem escapes_append_inj {a b s t : List Char}
    (h : a.flatMap escapeChar ++ quote :: s = b.flatMap escapeChar ++ quote :: t) :
    a = b ∧ s = t := by
  induction a generalizing b with
  | nil =>
    cases b with
    | nil => exact ⟨rfl, (List.cons.inj h).2⟩
    | cons d b =>
      have hhead := congrArg List.head? h
      rw [List.flatMap_cons, List.append_assoc] at hhead
      exact absurd hhead.symm (escape_ne_quote d _)
  | cons c a ih =>
    cases b with
    | nil =>
      have hhead := congrArg List.head? h
      rw [List.flatMap_cons, List.append_assoc] at hhead
      exact absurd hhead (escape_ne_quote c _)
    | cons d b =>
      have hread := congrArg unescape h
      simp only [List.flatMap_cons, List.append_assoc, unescape_escape, Option.some.injEq,
        Prod.mk.injEq] at hread
      obtain ⟨rfl, hrest⟩ := hread
      obtain ⟨rfl, hst⟩ := ih hrest
      exact ⟨rfl, hst⟩

theorem stringText_append_inj {a b : String} {s t : List Char}
    (h : stringText a ++ s = stringText b ++ t) : a = b ∧ s = t := by
  simp only [stringText, List.cons_append, List.append_assoc, List.cons.injEq, true_and,
    List.nil_append] at h
  obtain ⟨hab, hst⟩ := escapes_append_inj h
  exact ⟨String.toList_inj.mp hab, hst⟩

def Delimited (text : List Char) : Prop :=
  ∀ c, text.head? = some c → c = ',' ∨ c = ']' ∨ c = closeBrace

theorem Delimited.not_number {text : List Char} (h : Delimited text) :
    ∀ c, text.head? = some c → isNumberChar c = false := by
  intro c hc
  obtain rfl | rfl | rfl := h c hc <;> decide

theorem repr_chars (n : Nat) : ∀ c ∈ n.repr.toList, c.isDigit = true := by
  intro c hc
  rw [Nat.toList_repr] at hc
  exact Nat.isDigit_of_mem_toDigits (by decide) (by decide) hc

theorem repr_head (n : Nat) : ∃ c rest, n.repr.toList = c :: rest ∧ c.isDigit = true := by
  cases htext : n.repr.toList with
  | nil =>
    rw [Nat.toList_repr] at htext
    exact absurd htext Nat.toDigits_ne_nil
  | cons c rest => exact ⟨c, rest, rfl, repr_chars n c (by simp [htext])⟩

theorem int_repr_neg {i : Int} (h : i < 0) : i.repr.toList = '-' :: i.natAbs.repr.toList := by
  obtain ⟨n, rfl⟩ := Int.eq_negSucc_of_lt_zero h
  simp [Int.repr]

variable {doubles}

/-- What a number's text is made of, and its first character. -/
theorem numberText_chars (hlawful : doubles.Lawful) {n : Number} (h : Number.WellFormed n) :
    (∀ c ∈ numberText doubles n, isNumberChar c = true) ∧
      ∃ c rest, numberText doubles n = c :: rest ∧ (c.isDigit = true ∨ c = '-') := by
  cases n with
  | posInt m =>
    refine ⟨fun c hc => ?_, ?_⟩
    · simp [isNumberChar, repr_chars m c hc]
    · obtain ⟨c, rest, htext, hdigit⟩ := repr_head m
      exact ⟨c, rest, htext, .inl hdigit⟩
  | negInt i =>
    have htext := int_repr_neg h
    refine ⟨fun c hc => ?_, '-', _, htext, .inr rfl⟩
    rw [numberText, htext] at hc
    cases hc with
    | head => decide
    | tail _ hc => simp [isNumberChar, repr_chars i.natAbs c hc]
  | float bits => exact ⟨hlawful.chars h, hlawful.head h⟩

theorem numberText_inj (hlawful : doubles.Lawful) {a b : Number} (ha : Number.WellFormed a)
    (hb : Number.WellFormed b) (h : numberText doubles a = numberText doubles b) : a = b := by
  have hnat (m : Nat) : '.' ∉ m.repr.toList ∧ 'e' ∉ m.repr.toList ∧ '-' ∉ m.repr.toList := by
    refine ⟨fun hc => ?_, fun hc => ?_, fun hc => ?_⟩ <;>
      exact absurd (repr_chars m _ hc) (by decide)
  have hmarked {bits : UInt64} {m : Nat} (hfinite : isFinite bits = true)
      (heq : m.repr.toList = doubles.text bits) : False := by
    have hmark := hlawful.marked hfinite
    rw [← heq] at hmark
    exact hmark.elim (hnat m).1 (hnat m).2.1
  have hmarked' {bits : UInt64} {i : Int} (hi : i < 0) (hfinite : isFinite bits = true)
      (heq : i.repr.toList = doubles.text bits) : False := by
    have hmark := hlawful.marked hfinite
    rw [← heq, int_repr_neg hi] at hmark
    simp only [List.mem_cons, (hnat i.natAbs).1, (hnat i.natAbs).2.1] at hmark
    exact absurd hmark (by decide)
  have hsign {m : Nat} {i : Int} (hi : i < 0) (heq : m.repr.toList = i.repr.toList) : False := by
    rw [int_repr_neg hi] at heq
    exact (hnat m).2.2 (by simp [heq])
  cases a with
  | posInt m =>
    cases b with
    | posInt n => rw [Nat.repr_injective (String.toList_inj.mp h)]
    | negInt j => exact (hsign hb h).elim
    | float bits => exact (hmarked hb h).elim
  | negInt i =>
    cases b with
    | posInt n => exact (hsign ha h.symm).elim
    | negInt j => rw [Int.repr_injective (String.toList_inj.mp h)]
    | float bits => exact (hmarked' ha hb h).elim
  | float bits =>
    cases b with
    | posInt n => exact (hmarked ha h.symm).elim
    | negInt j => exact (hmarked' hb ha h.symm).elim
    | float bits' => rw [hlawful.injective ha hb h]

theorem numberText_append_inj (hlawful : doubles.Lawful) {a b : Number} {s t : List Char}
    (ha : Number.WellFormed a) (hb : Number.WellFormed b) (hs : Delimited s) (ht : Delimited t)
    (h : numberText doubles a ++ s = numberText doubles b ++ t) : a = b ∧ s = t := by
  have htake {n : Number} {text : List Char} (hn : Number.WellFormed n) (hd : Delimited text) :
      (numberText doubles n ++ text).takeWhile isNumberChar = numberText doubles n := by
    rw [List.takeWhile_append_of_pos (numberText_chars hlawful hn).1]
    cases text with
    | nil => simp
    | cons c rest => simp [hd.not_number c rfl]
  have htext := congrArg (List.takeWhile isNumberChar) h
  rw [htake ha hs, htake hb ht] at htext
  rw [htext] at h
  exact ⟨numberText_inj hlawful ha hb htext, List.append_cancel_left h⟩

inductive Kind where
  | null
  | true
  | false
  | number
  | string
  | array
  | object
  deriving DecidableEq

def Value.kind : Value → Kind
  | .null => .null
  | .bool value => if value then .true else .false
  | .number _ => .number
  | .string _ => .string
  | .array _ => .array
  | .object _ => .object

def kindOf (c : Char) : Kind :=
  if c = 'n' then .null
  else if c = 't' then .true
  else if c = 'f' then .false
  else if c = quote then .string
  else if c = '[' then .array
  else if c = openBrace then .object
  else .number

theorem kindOf_number {c : Char} (h : c.isDigit = true ∨ c = '-') : kindOf c = .number := by
  obtain hdigit | rfl := h
  · have hne (d : Char) (hd : d.isDigit = false) : c ≠ d := by
      rintro rfl
      rw [hd] at hdigit
      cases hdigit
    simp [kindOf, hne 'n' rfl, hne 't' rfl, hne 'f' rfl, hne quote (by decide), hne '[' rfl,
      hne openBrace (by decide)]
  · decide

theorem valueText_head (hlawful : doubles.Lawful) {value : Value} (h : Value.WellFormed value) :
    ∃ c rest, valueText doubles value = c :: rest ∧ kindOf c = Value.kind value ∧ c ≠ ']' := by
  cases value with
  | null => exact ⟨'n', _, rfl, rfl, by decide⟩
  | bool b =>
    cases b with
    | true => exact ⟨'t', _, rfl, rfl, by decide⟩
    | false => exact ⟨'f', _, rfl, rfl, by decide⟩
  | number n =>
    obtain ⟨c, rest, htext, hc⟩ := (numberText_chars hlawful h).2
    refine ⟨c, rest, htext, kindOf_number hc, ?_⟩
    rintro rfl
    exact absurd hc (by decide)
  | string text => exact ⟨quote, _, rfl, rfl, by decide⟩
  | array items => cases items <;> exact ⟨'[', _, rfl, rfl, by decide⟩
  | object fields => cases fields <;> exact ⟨openBrace, _, rfl, rfl, by decide⟩

theorem delimited_items (items : List Value) (s : List Char) :
    Delimited (valueText.itemsText doubles items ++ s) := by
  intro c hc
  cases items with
  | nil =>
    cases hc
    exact .inr (.inl rfl)
  | cons item rest =>
    cases hc
    exact .inl rfl

theorem delimited_fields (fields : JsonMap) (s : List Char) :
    Delimited (valueText.fieldsText doubles fields ++ s) := by
  intro c hc
  cases fields with
  | nil =>
    cases hc
    exact .inr (.inr rfl)
  | cons field rest =>
    cases hc
    exact .inl rfl

theorem kind_eq (hlawful : doubles.Lawful) {a b : Value} {s t : List Char} (ha : Value.WellFormed a)
    (hb : Value.WellFormed b) (h : valueText doubles a ++ s = valueText doubles b ++ t) :
    Value.kind a = Value.kind b := by
  obtain ⟨c, rest, hca, hka, _⟩ := valueText_head hlawful ha
  obtain ⟨d, rest', hcb, hkb, _⟩ := valueText_head hlawful hb
  rw [hca, hcb] at h
  rw [← hka, ← hkb, (List.cons.inj h).1]

-- by recursion on the first value; the second has its kind
mutual
theorem valueText_append_inj (hlawful : doubles.Lawful) : {a b : Value} → {s t : List Char} →
    Value.WellFormed a → Value.WellFormed b → Delimited s → Delimited t →
    valueText doubles a ++ s = valueText doubles b ++ t → a = b ∧ s = t
  | .null, b, s, t, ha, hb, _, _, h => by
    have hkind := kind_eq hlawful ha hb h
    cases b with
    | null => exact ⟨rfl, List.append_cancel_left h⟩
    | bool value => cases value <;> cases hkind
    | _ => cases hkind
  | .bool value, b, s, t, ha, hb, _, _, h => by
    have hkind := kind_eq hlawful ha hb h
    cases b with
    | bool value' =>
      have hvalue : value = value' := by cases value <;> cases value' <;> first | rfl | cases hkind
      subst hvalue
      exact ⟨rfl, List.append_cancel_left h⟩
    | _ => cases value <;> cases hkind
  | .number n, b, s, t, ha, hb, hs, ht, h => by
    have hkind := kind_eq hlawful ha hb h
    cases b with
    | number m =>
      obtain ⟨rfl, hst⟩ := numberText_append_inj hlawful ha hb hs ht h
      exact ⟨rfl, hst⟩
    | bool value => cases value <;> cases hkind
    | _ => cases hkind
  | .string text, b, s, t, ha, hb, _, _, h => by
    have hkind := kind_eq hlawful ha hb h
    cases b with
    | string text' =>
      obtain ⟨rfl, hst⟩ := stringText_append_inj h
      exact ⟨rfl, hst⟩
    | bool value => cases value <;> cases hkind
    | _ => cases hkind
  | .array items, b, s, t, ha, hb, _, _, h => by
    have hkind := kind_eq hlawful ha hb h
    cases b with
    | array items' =>
      obtain ⟨rfl, hst⟩ := arrayText_append_inj hlawful ha hb h
      exact ⟨rfl, hst⟩
    | bool value => cases value <;> cases hkind
    | _ => cases hkind
  | .object fields, b, s, t, ha, hb, _, _, h => by
    have hkind := kind_eq hlawful ha hb h
    cases b with
    | object fields' =>
      obtain ⟨rfl, hst⟩ := objectText_append_inj hlawful ha hb h
      exact ⟨rfl, hst⟩
    | bool value => cases value <;> cases hkind
    | _ => cases hkind

theorem arrayText_append_inj (hlawful : doubles.Lawful) : {a b : List Value} → {s t : List Char} →
    Value.ItemsWellFormed a → Value.ItemsWellFormed b →
    valueText doubles (.array a) ++ s = valueText doubles (.array b) ++ t → a = b ∧ s = t
  | [], [], _, _, _, _, h => ⟨rfl, List.append_cancel_left h⟩
  | [], item :: _, _, _, _, hb, h => by
    obtain ⟨c, rest, htext, _, hc⟩ := valueText_head hlawful hb.1
    simp only [valueText, htext, List.cons_append, List.cons.injEq, true_and] at h
    exact absurd h.1.symm hc
  | item :: _, [], _, _, ha, _, h => by
    obtain ⟨c, rest, htext, _, hc⟩ := valueText_head hlawful ha.1
    simp only [valueText, htext, List.cons_append, List.cons.injEq, true_and] at h
    exact absurd h.1 hc
  | item :: rest, item' :: rest', s, t, ha, hb, h => by
    simp only [valueText, List.cons_append, List.append_assoc, List.cons.injEq, true_and] at h
    obtain ⟨rfl, hrest⟩ := valueText_append_inj hlawful ha.1 hb.1 (delimited_items rest s)
      (delimited_items rest' t) h
    obtain ⟨rfl, hst⟩ := itemsText_append_inj hlawful ha.2 hb.2 hrest
    exact ⟨rfl, hst⟩

theorem itemsText_append_inj (hlawful : doubles.Lawful) : {a b : List Value} → {s t : List Char} →
    Value.ItemsWellFormed a → Value.ItemsWellFormed b →
    valueText.itemsText doubles a ++ s = valueText.itemsText doubles b ++ t → a = b ∧ s = t
  | [], [], _, _, _, _, h => ⟨rfl, List.append_cancel_left h⟩
  | [], _ :: _, _, _, _, _, h => by simp [valueText.itemsText] at h
  | _ :: _, [], _, _, _, _, h => by simp [valueText.itemsText] at h
  | item :: rest, item' :: rest', s, t, ha, hb, h => by
    simp only [valueText.itemsText, List.cons_append, List.append_assoc, List.cons.injEq,
      true_and] at h
    obtain ⟨rfl, hrest⟩ := valueText_append_inj hlawful ha.1 hb.1 (delimited_items rest s)
      (delimited_items rest' t) h
    obtain ⟨rfl, hst⟩ := itemsText_append_inj hlawful ha.2 hb.2 hrest
    exact ⟨rfl, hst⟩

theorem objectText_append_inj (hlawful : doubles.Lawful) : {a b : JsonMap} → {s t : List Char} →
    Value.FieldsWellFormed a → Value.FieldsWellFormed b →
    valueText doubles (.object a) ++ s = valueText doubles (.object b) ++ t → a = b ∧ s = t
  | [], [], _, _, _, _, h => ⟨rfl, List.append_cancel_left h⟩
  | [], (_, _) :: _, _, _, _, _, h => by
    simp [valueText, stringText, closeBrace, quote] at h
  | (_, _) :: _, [], _, _, _, _, h => by
    simp [valueText, stringText, closeBrace, quote] at h
  | (name, value) :: rest, (name', value') :: rest', s, t, ha, hb, h => by
    simp only [valueText, List.cons_append, List.append_assoc, List.cons.injEq, true_and] at h
    obtain ⟨rfl, hvalue⟩ := stringText_append_inj h
    obtain ⟨rfl, hrest⟩ := valueText_append_inj hlawful ha.1 hb.1 (delimited_fields rest s)
      (delimited_fields rest' t) (List.cons.inj hvalue).2
    obtain ⟨rfl, hst⟩ := fieldsText_append_inj hlawful ha.2 hb.2 hrest
    exact ⟨rfl, hst⟩

theorem fieldsText_append_inj (hlawful : doubles.Lawful) : {a b : JsonMap} → {s t : List Char} →
    Value.FieldsWellFormed a → Value.FieldsWellFormed b →
    valueText.fieldsText doubles a ++ s = valueText.fieldsText doubles b ++ t → a = b ∧ s = t
  | [], [], _, _, _, _, h => ⟨rfl, List.append_cancel_left h⟩
  | [], (_, _) :: _, _, _, _, _, h => by simp [valueText.fieldsText, closeBrace] at h
  | (_, _) :: _, [], _, _, _, _, h => by simp [valueText.fieldsText, closeBrace] at h
  | (name, value) :: rest, (name', value') :: rest', s, t, ha, hb, h => by
    simp only [valueText.fieldsText, List.cons_append, List.append_assoc, List.cons.injEq,
      true_and] at h
    obtain ⟨rfl, hvalue⟩ := stringText_append_inj h
    obtain ⟨rfl, hrest⟩ := valueText_append_inj hlawful ha.1 hb.1 (delimited_fields rest s)
      (delimited_fields rest' t) (List.cons.inj hvalue).2
    obtain ⟨rfl, hst⟩ := fieldsText_append_inj hlawful ha.2 hb.2 hrest
    exact ⟨rfl, hst⟩
end

end Ffdb.Runtime
