import Ffdb.Observability.Views

/-! When the shape of a statement hides what it should: where the redaction reads a text as SQLite does, the shape is
that of the tokens' kinds. -/
namespace Ffdb.Observability
open Spans

section Loop

theorem length_pushed (b : UInt8) (rest : List UInt8) : (redactOne b rest).1.length ≤ 1 := by
  fun_cases redactOne b rest <;> simp

/-- The loop pushes what would be pushed without a limit, up to it. -/
theorem redactLoop_eq (limit skip : Nat) (text : List UInt8) :
    redactLoop limit skip text = (written redactOne (text.drop skip)).take limit := by
  induction text generalizing limit skip with
  | nil =>
    cases limit <;> simp [redactLoop, written, spans, spansFrom]
  | cons b rest ih =>
    cases limit with
    | zero => simp [redactLoop]
    | succ limit =>
      cases skip with
      | succ skip => exact ih (limit + 1) skip
      | zero =>
        have hlength := length_pushed b rest
        rw [List.drop_zero, written_cons]
        change (redactOne b rest).1 ++
          redactLoop (limit + 1 - (redactOne b rest).1.length) (redactOne b rest).2 rest = _
        rw [ih, List.take_append, List.take_of_length_le (l := (redactOne b rest).1) (by omega)]

end Loop

section Bytes

theorem forall_byte {p : UInt8 → Prop} (h : ∀ n : Fin 256, p (UInt8.ofNat n)) (b : UInt8) : p b := by
  have hb := h ⟨b.toNat, b.toNat_lt⟩
  simpa using hb

theorem wordByte_idChar : ∀ b : UInt8, isWordByte b = true → isIdChar b = true := by
  intro b h
  simp only [isWordByte, isIdChar, Bool.or_eq_true] at h ⊢
  obtain (h | h) | h := h
  · exact .inl (.inl (.inl (.inl h)))
  · exact .inl (.inl (.inl (.inr h)))
  · exact .inl (.inl (.inr h))

theorem take_count (p : UInt8 → Bool) (text : List UInt8) : text.take (count p text) = text.takeWhile p := by
  induction text with
  | nil => rfl
  | cons b rest ih =>
    by_cases hb : p b = true
    · simp only [count, List.takeWhile_cons_of_pos hb, List.length_cons, List.take_succ_cons]
      exact congrArg (b :: ·) ih
    · simp [count, hb]

theorem head_drop_count (p : UInt8 → Bool) (text : List UInt8) : (text.drop (count p text)).head?.any p = false := by
  induction text with
  | nil => rfl
  | cons b rest ih =>
    by_cases hb : p b = true
    · simpa [count, hb] using ih
    · simp [count, hb]

/-- What goes on as long as it can ends where it is told to end. -/
theorem takeWhile_of_ends {p : UInt8 → Bool} {text : List UInt8} {k : Nat} (hall : ∀ b ∈ text.take k, p b = true)
    (hnext : (text.drop k).head?.any p = false) : text.takeWhile p = text.take k := by
  conv_lhs => rw [← List.take_append_drop k text]
  rw [List.takeWhile_append_of_pos hall]
  cases hrest : text.drop k with
  | nil => simp
  | cons b rest =>
    rw [hrest] at hnext
    have hb : p b = false := by simpa using hnext
    simp [hb]

theorem count_of_ends {p : UInt8 → Bool} {text : List UInt8} {k : Nat} (hall : ∀ b ∈ text.take k, p b = true)
    (hnext : (text.drop k).head?.any p = false) : text.drop (count p text) = text.drop k := by
  rw [count, takeWhile_of_ends hall hnext, List.length_take]
  obtain hle | hle := Nat.le_total k text.length
  · rw [Nat.min_eq_left hle]
  · rw [Nat.min_eq_right hle, List.drop_length, List.drop_of_length_le hle]

def isUnread (b : UInt8) : Bool :=
  !(isAsciiWhitespace b || b = ascii '-' || b = ascii '/' || isQuote b || b = ascii '[' ||
    (b = ascii '?' || b = ascii ':' || b = ascii '@' || b = ascii '$') || isDigit b ||
    (isLetter b || b = ascii '_') || isPunctuation b || isOperator b)

def isOfClass : CharClass → UInt8 → Bool
  | .space, b => isAsciiWhitespace b
  | .quote, b => isQuote b
  | .bracket, b => b = ascii '['
  | .digit, b => isDigit b
  | .varAlpha, b => b = ascii '$' || b = ascii '@' || b = ascii '#' || b = ascii ':'
  | .varNum, b => b = ascii '?'
  | .pipe, b => b = ascii '|'
  | .minus, b => b = ascii '-'
  | .lt, b => b = ascii '<'
  | .gt, b => b = ascii '>'
  | .eq, b => b = ascii '='
  | .bang, b => b = ascii '!'
  | .slash, b => b = ascii '/'
  | .single, b => isSingle b
  | .dot, b => b = ascii '.'
  | .x, b => b = ascii 'x' || b = ascii 'X'
  | .id, b => !isDigit b
  | .bom, b => !isDigit b
  | .illegal, b => isUnread b

theorem kinds_of_byte : ∀ b : UInt8, isOfClass (classOf b) b = true ∧ ascii (Char.ofNat b.toNat) = b ∧
    (isQuote b = true → isAsciiWhitespace b = false ∧ b ≠ ascii '-' ∧ b ≠ ascii '/') ∧
    (isDigit b = true → ¬ (b = ascii '!' ∨ classOf b = .varAlpha ∨ classOf b = .illegal)) :=
  forall_byte (by decide +kernel)

theorem kinds_apart : ∀ b : UInt8,
    (isDigit b = true → isAsciiWhitespace b = false ∧ b ≠ ascii '-' ∧ b ≠ ascii '/' ∧ isQuote b = false ∧
      b ≠ ascii '[' ∧ (b = ascii '?' || b = ascii ':' || b = ascii '@' || b = ascii '$') = false) ∧
    ((isLetter b || b = ascii '_') = true → isAsciiWhitespace b = false ∧ b ≠ ascii '-' ∧ b ≠ ascii '/' ∧
      isQuote b = false ∧ b ≠ ascii '[' ∧
      (b = ascii '?' || b = ascii ':' || b = ascii '@' || b = ascii '$') = false ∧ isDigit b = false) ∧
    (isOperator b = true → isAsciiWhitespace b = false ∧ isQuote b = false ∧ b ≠ ascii '[' ∧
      (b = ascii '?' || b = ascii ':' || b = ascii '@' || b = ascii '$') = false ∧ isDigit b = false ∧
      (isLetter b || b = ascii '_') = false ∧ isPunctuation b = false) :=
  forall_byte (by decide +kernel)

theorem isOfClass_classOf (b : UInt8) : isOfClass (classOf b) b = true := (kinds_of_byte b).1

end Bytes

section Turns
variable {b : UInt8} {rest : List UInt8}

theorem redactOne_space (hb : isAsciiWhitespace b = true) : redactOne b rest = ([], 0) := by
  rw [redactOne.eq_def, if_pos hb]

theorem redactOne_quote (hb : isQuote b = true) : redactOne b rest = ([hidden], quoteLength b rest) := by
  have hother : isAsciiWhitespace b = false ∧ b ≠ ascii '-' ∧ b ≠ ascii '/' :=
    (kinds_of_byte b).2.2.1 hb
  simp [redactOne.eq_def, hother, hb]

theorem redactOne_digit (hb : isDigit b = true) : redactOne b rest = ([hidden], count isNumberByte rest) := by
  have hother : isAsciiWhitespace b = false ∧ b ≠ ascii '-' ∧ b ≠ ascii '/' ∧ isQuote b = false ∧ b ≠ ascii '[' ∧
      (b = ascii '?' || b = ascii ':' || b = ascii '@' || b = ascii '$') = false :=
    (kinds_apart b).1 hb
  obtain ⟨hspace, hminus, hslash, hquote, hbracket, hvariable⟩ := hother
  simp only [redactOne.eq_def, hspace, hminus, hslash, hquote, hbracket, hvariable, hb, false_and, if_false, if_true,
    Bool.false_eq_true]

theorem redactOne_word (hb : (isLetter b || b = ascii '_') = true) :
    redactOne b rest = ([wordPiece (b :: rest.takeWhile isWordByte)], (rest.takeWhile isWordByte).length) := by
  have hother : isAsciiWhitespace b = false ∧ b ≠ ascii '-' ∧ b ≠ ascii '/' ∧ isQuote b = false ∧ b ≠ ascii '[' ∧
      (b = ascii '?' || b = ascii ':' || b = ascii '@' || b = ascii '$') = false ∧ isDigit b = false :=
    (kinds_apart b).2.1 hb
  obtain ⟨hspace, hminus, hslash, hquote, hbracket, hvariable, hdigit⟩ := hother
  simp only [redactOne.eq_def, hspace, hminus, hslash, hquote, hbracket, hvariable, hdigit, hb, false_and, if_false,
    if_true, Bool.false_eq_true]

theorem redactOne_variable (hb : (b = ascii '?' || b = ascii ':' || b = ascii '@' || b = ascii '$') = true) :
    redactOne b rest = ([hidden], count isWordByte rest) := by
  simp only [Bool.or_eq_true, decide_eq_true_eq] at hb
  obtain ((rfl | rfl) | rfl) | rfl := hb <;> rfl

theorem redactOne_operator (hb : isOperator b = true) (hnext : rest.head?.any isJoined = false)
    (hminus : b = ascii '-' → rest.head? ≠ some (ascii '-')) (hslash : b = ascii '/' → rest.head? ≠ some (ascii '*')) :
    redactOne b rest = ([chars [b]], 0) := by
  have hother : isAsciiWhitespace b = false ∧ isQuote b = false ∧ b ≠ ascii '[' ∧
      (b = ascii '?' || b = ascii ':' || b = ascii '@' || b = ascii '$') = false ∧ isDigit b = false ∧
      (isLetter b || b = ascii '_') = false ∧ isPunctuation b = false :=
    (kinds_apart b).2.2 hb
  obtain ⟨hspace, hquote, hbracket, hvariable, hdigit, hword, hpunctuation⟩ := hother
  have hcomment : ¬ (b = ascii '-' ∧ rest.head? = some (ascii '-')) := fun h => hminus h.1 h.2
  have hblock : ¬ (b = ascii '/' ∧ rest.head? = some (ascii '*')) := fun h => hslash h.1 h.2
  simp only [redactOne.eq_def, hspace, hcomment, hblock, hquote, hbracket, hvariable, hdigit, hword, hpunctuation, hb,
    if_false, if_true, Bool.false_eq_true]
  cases rest with
  | nil => rfl
  | cons b' rest =>
    have hb' : isJoined b' = false := by simpa using hnext
    simp [hb']

theorem redactOne_joined {b' : UInt8} (hb : isOperator b = true) (hb' : isJoined b' = true) :
    redactOne b (b' :: rest) = ([chars [b, b']], 1) := by
  simp only [isOperator, isJoined, Bool.or_eq_true, decide_eq_true_eq] at hb hb'
  obtain (((((((rfl | rfl) | rfl) | rfl) | rfl) | rfl) | rfl) | rfl) | rfl := hb <;>
    obtain ((rfl | rfl) | rfl) | rfl := hb' <;> rfl

end Turns

section Agreement
variable {b : UInt8} {rest : List UInt8} {n : Nat}

def Agrees (b : UInt8) (rest : List UInt8) (token : Kind × Nat) : Prop :=
  isAlike ⟨token.1, b :: rest.take token.2, rest.drop token.2⟩ = true →
    written redactOne (b :: rest) =
      spanPieces ⟨token.1, b :: rest.take token.2, rest.drop token.2⟩ ++ written redactOne (rest.drop token.2)

theorem written_spaces (front rest : List UInt8) (h : ∀ b ∈ front, isAsciiWhitespace b = true) :
    written redactOne (front ++ rest) = written redactOne rest := by
  induction front with
  | nil => rfl
  | cons b front ih =>
    rw [List.cons_append, written_cons, redactOne_space (h b List.mem_cons_self)]
    exact ih fun b hb => h b (List.mem_cons_of_mem _ hb)

theorem agrees_space : Agrees b rest (.space, n) := by
  intro h
  have hall : ∀ b' ∈ b :: rest.take n, isAsciiWhitespace b' = true := List.all_eq_true.mp h
  have hskip := written_spaces (b :: rest.take n) (rest.drop n) hall
  rwa [List.cons_append, List.take_append_drop] at hskip

/-- What the redaction does with a comment that stays quiet: by induction on its text, inside and outside of what it
takes for the comment. -/
theorem written_quiet (text rest : List UInt8) (htext : 10 ∉ text) (hrest : rest.head?.any (· ≠ 10) = false) :
    (isQuiet true text = true →
        written redactOne ((text ++ rest).drop (count (!isLineEnd ·) (text ++ rest))) = written redactOne rest) ∧
      (isQuiet false text = true → written redactOne (text ++ rest) = written redactOne rest) := by
  induction text with
  | nil =>
    refine ⟨fun _ => ?_, fun _ => rfl⟩
    cases rest with
    | nil => rfl
    | cons b rest =>
      have hb : b = 10 := by simpa using hrest
      subst hb
      rfl
  | cons b text ih =>
    rw [List.mem_cons, not_or] at htext
    obtain ⟨hline, hspace⟩ := ih htext.2
    have h10 : b ≠ 10 := fun h => htext.1 h.symm
    constructor
    · intro h
      obtain rfl | h13 := eq_or_ne b 13
      · exact hspace h
      · have hcount : count (!isLineEnd ·) (b :: (text ++ rest)) = count (!isLineEnd ·) (text ++ rest) + 1 := by
          simp [count, isLineEnd, h10, h13]
        simp only [isQuiet, h13, ne_eq, not_false_eq_true, decide_true] at h
        rw [List.cons_append, hcount, List.drop_succ_cons, hline h]
    · intro h
      rw [isQuiet] at h
      split at h
      · next hb =>
        rw [List.cons_append, written_cons, redactOne_space hb]
        exact hspace h
      · simp only [Bool.and_eq_true, decide_eq_true_eq] at h
        obtain ⟨⟨rfl, hnext⟩, h⟩ := h
        obtain ⟨text', rfl⟩ := List.head?_eq_some_iff.mp hnext
        rw [← hline h, List.cons_append, written_cons]
        change written redactOne ((ascii '-' :: (text' ++ rest)).drop (1 + count (!isLineEnd ·) (text' ++ rest))) = _
        rw [Nat.add_comm]
        rfl

theorem agrees_line : Agrees (ascii '-') (ascii '-' :: rest) (.comment, 1 + count (· ≠ 10) rest) := by
  intro h
  rw [Nat.add_comm, List.take_succ_cons, List.drop_succ_cons] at h ⊢
  have hquiet : isQuiet true (rest.take (count (· ≠ 10) rest)) = true := h
  have htext : 10 ∉ rest.take (count (· ≠ 10) rest) := by
    rw [take_count]
    intro hmem
    have h10 := List.all_eq_true.mp List.all_takeWhile _ hmem
    exact absurd h10 (by decide)
  have hskip := (written_quiet _ _ htext (head_drop_count (· ≠ 10) rest)).1 hquiet
  rw [List.take_append_drop] at hskip
  rw [written_cons]
  change written redactOne ((ascii '-' :: rest).drop (1 + count (!isLineEnd ·) rest)) = _
  rw [Nat.add_comm 1, List.drop_succ_cons, hskip]
  rfl

theorem agrees_block : Agrees (ascii '/') (ascii '*' :: rest) (.comment, 1 + blockLength rest) := by
  intro _
  rw [written_cons]
  rfl

theorem agrees_quote {kind : Kind} (hb : isQuote b = true) (hkind : kind = .string ∨ kind = .name ∨ kind = .illegal) :
    Agrees b rest (kind, quoteLength b rest) := by
  intro _
  rw [written_cons, redactOne_quote hb]
  obtain rfl | rfl | rfl := hkind <;> rfl

theorem agrees_bracket {kind : Kind} (hkind : kind = .name ∨ kind = .illegal) :
    Agrees (ascii '[') rest (kind, bracketLength rest) := by
  intro _
  rw [written_cons]
  obtain rfl | rfl := hkind <;> rfl

/-- What a token of a kind of bytes is read as that may stand where it ends. -/
theorem drop_of_endsWith {p : UInt8 → Bool} {kind : Kind}
    (h : endsWith ⟨kind, b :: rest.take n, rest.drop n⟩ p = true) : rest.drop (count p rest) = rest.drop n := by
  simp only [endsWith, Bool.and_eq_true, Bool.not_eq_true'] at h
  exact count_of_ends (List.all_eq_true.mp h.1) h.2

theorem agrees_number : Agrees b rest (.number, n) := by
  intro h
  simp only [isAlike, Bool.and_eq_true] at h
  have hb : isDigit b = true := by simpa [headIs] using h.1
  rw [written_cons, redactOne_digit hb, drop_of_endsWith h.2]
  rfl

theorem agrees_variable
    (hb : (b = ascii '?' || b = ascii ':' || b = ascii '@' || b = ascii '$' || b = ascii '#') = true) :
    Agrees b rest (.variable, n) := by
  intro h
  simp only [isAlike, Bool.and_eq_true] at h
  have hhash : b ≠ ascii '#' := by simpa [headIs] using h.1
  rw [decide_eq_false hhash, Bool.or_false] at hb
  rw [written_cons, redactOne_variable hb, drop_of_endsWith h.2]
  rfl

theorem agrees_word (hb : isDigit b = false) : Agrees b rest (.word, count isIdChar rest) := by
  intro h
  have hall : ∀ b' ∈ b :: rest.takeWhile isIdChar, isWordByte b' = true := by
    rw [← take_count]
    exact List.all_eq_true.mp h
  have hletter : (isLetter b || b = ascii '_') = true := by
    simpa [isWordByte, hb] using hall b List.mem_cons_self
  have hword : rest.takeWhile isWordByte = rest.take (count isIdChar rest) := by
    apply takeWhile_of_ends
    · intro b' hb'
      rw [take_count] at hb'
      exact hall b' (List.mem_cons_of_mem _ hb')
    · have hnext := head_drop_count isIdChar rest
      cases hrest : (rest.drop (count isIdChar rest)).head? with
      | none => rfl
      | some b' =>
        rw [hrest, Option.any_some] at hnext
        cases hb' : isWordByte b' with
        | false => exact hb'
        | true => exact absurd (wordByte_idChar b' hb') (by simp [hnext])
  have hlength : (rest.take (count isIdChar rest)).length = count isIdChar rest := by
    rw [take_count]
    rfl
  rw [written_cons, redactOne_word hletter, hword, hlength]
  congr 1
  simp only [spanPieces, viewOf, wordView, wordPiece]
  split <;> rfl

theorem quoteLength_append {quote : UInt8} (front rest : List UInt8) (h : ∀ b ∈ front, b ≠ quote)
    (hnext : rest.head? ≠ some quote) : quoteLength quote (front ++ quote :: rest) = front.length + 1 := by
  induction front with
  | nil =>
    cases rest with
    | nil => simp [quoteLength]
    | cons b rest =>
      have hb : b ≠ quote := by simpa using hnext
      simp [quoteLength, hb]
  | cons b front ih =>
    have hrest := ih fun b' hb' => h b' (List.mem_cons_of_mem _ hb')
    have hb : b ≠ quote := h b List.mem_cons_self
    simp only [List.cons_append, quoteLength.eq_def quote (b :: _), if_neg hb, hrest, List.length_cons]
    omega

theorem agrees_blob (hb : b = ascii 'x' ∨ b = ascii 'X') (hclosed : rest[count isHexDigit rest]? = some 39) :
    Agrees b (39 :: rest) (.blob, count isHexDigit rest + 2) := by
  intro h
  obtain ⟨front, tail, hrest, hfront⟩ : ∃ front tail, rest = front ++ 39 :: tail ∧
      front = rest.takeWhile isHexDigit := by
    obtain ⟨hlt, hget⟩ := List.getElem?_eq_some_iff.mp hclosed
    refine ⟨rest.take (count isHexDigit rest), rest.drop (count isHexDigit rest + 1), ?_, take_count _ _⟩
    rw [← hget, List.getElem_cons_drop hlt, List.take_append_drop]
  have hlength : count isHexDigit rest = front.length := by rw [hfront, count]
  have hnext : tail.head? ≠ some 39 := by
    have hdrop : (39 :: rest).drop (count isHexDigit rest + 2) = tail := by
      rw [List.drop_succ_cons, hlength, hrest, List.drop_append]
      simp
    simp only [isAlike, hdrop] at h
    simpa using h
  have hquote : quoteLength 39 rest = count isHexDigit rest + 1 := by
    rw [hlength, hrest]
    apply quoteLength_append _ _ _ hnext
    intro b' hb'
    rw [hfront] at hb'
    have hhex := List.all_eq_true.mp List.all_takeWhile b' hb'
    rintro rfl
    exact absurd hhex (by decide)
  have hword : redactOne b (39 :: rest) = ([hidden], 0) := by
    obtain rfl | rfl := hb <;> rfl
  rw [written_cons, hword, List.drop_zero, written_cons, redactOne_quote rfl, hquote]
  rfl

theorem drawn_of_isAlike {text : List UInt8} (h : isAlike ⟨.symbol, text, rest⟩ = true)
    (hhead : headIs ⟨Kind.symbol, text, rest⟩ (fun b => isOperator b || b = ascii '!') = true)
    (htext : text.length = 1 ∨ text = arrow2 ∨ text = unequal) : rest.head?.any isJoined = false := by
  simp only [isAlike, isDrawn, hhead, Bool.true_and, Bool.and_eq_true, Bool.not_eq_true', Bool.and_eq_false_iff] at h
  obtain hnot | hnext := h.1
  · exfalso
    obtain h1 | h2 | h3 := htext
    · simp [h1] at hnot
    · simp [h2] at hnot
    · simp [h3] at hnot
  · exact hnext

theorem agrees_operator (hb : isOperator b = true) (hminus : b = ascii '-' → rest.head? ≠ some (ascii '-')) :
    Agrees b rest (.symbol, 0) := by
  intro h
  have hhead : headIs ⟨Kind.symbol, [b], rest⟩ (fun b => isOperator b || b = ascii '!') = true := by
    simp [headIs, hb]
  have hnext : rest.head?.any isJoined = false := drawn_of_isAlike h hhead (.inl rfl)
  have hslash : b = ascii '/' → rest.head? ≠ some (ascii '*') := by
    rintro rfl hstar
    simp [isAlike, hstar] at h
  rw [written_cons, redactOne_operator hb hnext hminus hslash]
  simp only [isOperator, Bool.or_eq_true, decide_eq_true_eq] at hb
  obtain (((((((rfl | rfl) | rfl) | rfl) | rfl) | rfl) | rfl) | rfl) | rfl := hb <;> rfl

theorem agrees_joined {b' : UInt8} (hb : isOperator b = true) (hb' : isJoined b' = true) :
    Agrees b (b' :: rest) (.symbol, 1) := by
  intro _
  rw [written_cons, redactOne_joined hb hb']
  simp only [isOperator, isJoined, Bool.or_eq_true, decide_eq_true_eq] at hb hb'
  obtain (((((((rfl | rfl) | rfl) | rfl) | rfl) | rfl) | rfl) | rfl) | rfl := hb <;>
    obtain ((rfl | rfl) | rfl) | rfl := hb' <;> rfl

theorem agrees_arrow2 : Agrees (ascii '-') (ascii '>' :: ascii '>' :: rest) (.symbol, 2) := by
  intro h
  have hnext : rest.head?.any isJoined = false := drawn_of_isAlike h rfl (.inr (.inl rfl))
  rw [written_cons, redactOne_joined rfl rfl]
  change _ ++ written redactOne (ascii '>' :: rest) = _
  rw [written_cons, redactOne_operator rfl hnext (fun h => absurd h (by decide)) (fun h => absurd h (by decide))]
  rfl

theorem agrees_unequal : Agrees (ascii '!') (ascii '=' :: rest) (.symbol, 1) := by
  intro h
  have hnext : rest.head?.any isJoined = false := drawn_of_isAlike h rfl (.inr (.inr rfl))
  rw [written_cons]
  change [hidden] ++ written redactOne (ascii '=' :: rest) = _
  rw [written_cons, redactOne_operator rfl hnext (fun h => absurd h (by decide)) (fun h => absurd h (by decide))]
  rfl

theorem agrees_single (hb : isSingle b = true) : Agrees b rest (.symbol, 0) := by
  simp only [isSingle, Bool.or_eq_true, decide_eq_true_eq] at hb
  obtain (((((((rfl | rfl) | rfl) | rfl) | rfl) | rfl) | rfl) | rfl) | rfl := hb
  · exact fun _ => written_cons _ _
  · exact fun _ => written_cons _ _
  · exact fun _ => written_cons _ _
  · exact agrees_operator rfl fun h => absurd h (by decide)
  · exact agrees_operator rfl fun h => absurd h (by decide)
  · exact agrees_operator rfl fun h => absurd h (by decide)
  · exact fun _ => written_cons _ _
  · exact fun _ => written_cons _ _
  · exact fun _ => written_cons _ _

theorem isAlike_illegal {text : List UInt8} (h : isAlike ⟨.illegal, b :: text, rest⟩ = true) :
    (text = [] ∧ (b = ascii '!' ∨ classOf b = .varAlpha ∨ classOf b = .illegal)) ∨
      (isQuote b = true ∨ b = ascii '[') ∨
        isDigit b = true ∧ endsWith ⟨Kind.illegal, b :: text, rest⟩ isNumberByte = true := by
  simp only [isAlike, headIs, List.length_cons, List.head?_cons, Option.any_some, Bool.or_eq_true, Bool.and_eq_true,
    decide_eq_true_eq, Nat.add_eq_right, List.length_eq_zero_iff] at h
  obtain (⟨htext, (hb | hb) | hb⟩ | hb) | hb := h
  · exact .inl ⟨htext, .inl hb⟩
  · exact .inl ⟨htext, .inr (.inl hb)⟩
  · exact .inl ⟨htext, .inr (.inr hb)⟩
  · exact .inr (.inl hb)
  · exact .inr (.inr hb)

theorem agrees_stuck (hb : isDigit b = true ∨ b = ascii '.') : Agrees b rest (.illegal, n) := by
  intro h
  obtain ⟨_, hother⟩ | hother | ⟨hdigit, hends⟩ := isAlike_illegal h
  · exfalso
    obtain hb | rfl := hb
    · exact (kinds_of_byte b).2.2.2 hb hother
    · exact absurd hother (by decide)
  · exfalso
    obtain hb | rfl := hb
    · obtain ⟨-, -, -, hquote, hbracket, -⟩ := (kinds_apart b).1 hb
      rw [hquote] at hother
      exact absurd hother (by simp [hbracket])
    · exact absurd hother (by decide)
  · rw [written_cons, redactOne_digit hdigit, drop_of_endsWith hends]
    rfl

theorem lexVariable_zero {kind : Kind} (h : lexVariable 0 rest = (kind, 0)) : count isWordByte rest = 0 := by
  cases rest with
  | nil => rfl
  | cons b rest =>
    cases hb : isWordByte b with
    | false => simp [count, hb]
    | true =>
      rw [lexVariable.eq_def] at h
      simp [wordByte_idChar b hb] at h

theorem agrees_unnamed
    (hb : ((b = ascii '$' ∨ b = ascii '@') ∨ b = ascii '#') ∨ b = ascii ':') (hlex : lexVariable 0 rest = (.illegal, n)) :
    Agrees b rest (.illegal, n) := by
  intro h
  obtain ⟨htext, _⟩ | hother | ⟨hother, _⟩ := isAlike_illegal h
  · have hnothing : rest.drop (count isWordByte rest) = rest ∧ rest.drop n = rest := by
      obtain hn | hrest := List.take_eq_nil_iff.mp htext
      · have hn : n = 0 := hn
        rw [hn] at hlex
        rw [lexVariable_zero hlex, hn, List.drop_zero]
        exact ⟨rfl, rfl⟩
      · rw [hrest, List.drop_nil, List.drop_nil]
        exact ⟨rfl, rfl⟩
    have hturn : (redactOne b rest).1 = [hidden] ∧ rest.drop (redactOne b rest).2 = rest := by
      obtain ((rfl | rfl) | rfl) | rfl := hb
      · exact ⟨rfl, hnothing.1⟩
      · exact ⟨rfl, hnothing.1⟩
      · exact ⟨rfl, rfl⟩
      · exact ⟨rfl, hnothing.1⟩
    rw [written_cons, hturn.1, hturn.2]
    change _ = _ ++ written redactOne (rest.drop n)
    rw [hnothing.2]
    rfl
  · exfalso
    obtain ((rfl | rfl) | rfl) | rfl := hb <;> exact absurd hother (by decide)
  · exfalso
    obtain ((rfl | rfl) | rfl) | rfl := hb <;> exact absurd hother (by decide)

theorem agrees_illegal (hb : isUnread b = true) : Agrees b rest (.illegal, 0) := by
  intro _
  simp only [isUnread, Bool.not_eq_true', Bool.or_eq_false_iff, decide_eq_false_iff_not] at hb
  obtain ⟨⟨⟨⟨⟨⟨⟨⟨⟨hspace, hminus⟩, hslash⟩, hquote⟩, hbracket⟩, hvariable⟩, hdigit⟩, hword⟩, hpunctuation⟩,
    hoperator⟩ := hb
  have hturn : redactOne b rest = ([hidden], 0) := by
    simp [redactOne.eq_def, hspace, hminus, hslash, hquote, hbracket, hvariable, hdigit, hword, hpunctuation,
      hoperator]
  rw [written_cons, hturn]
  rfl

theorem agrees_lexNumber (hb : isDigit b = true ∨ b = ascii '.') (text : List UInt8) :
    Agrees b rest (lexNumber text) := by
  rw [lexNumber]
  split
  · exact agrees_number
  · exact agrees_stuck hb

theorem lexVariable_kind (read : Nat) (text : List UInt8) :
    (lexVariable read text).1 = .variable ∨ (lexVariable read text).1 = .illegal := by
  fun_induction lexVariable read text <;> simp_all <;> omega

theorem lexBlob_kind (text : List UInt8) :
    lexBlob text = (.blob, count isHexDigit text + 2) ∧ text[count isHexDigit text]? = some 39 ∨
      ∃ n, lexBlob text = (.illegal, n + 1) := by
  rw [lexBlob]
  split
  · next h => exact .inl ⟨rfl, h.1⟩
  · exact .inr ⟨_, rfl⟩

/-- Every token that is read alike shows as it should. -/
theorem agrees_lexOne (b : UInt8) (rest : List UInt8) : Agrees b rest (lexOne b rest) := by
  have hb := isOfClass_classOf b
  cases hclass : classOf b <;> rw [hclass] at hb <;>
    simp only [isOfClass, Bool.or_eq_true, Bool.not_eq_true', decide_eq_true_eq] at hb <;> simp only [lexOne, hclass]
  case space => exact agrees_space
  case quote =>
    apply agrees_quote hb
    split
    · split <;> simp
    · simp
  case bracket =>
    subst hb
    apply agrees_bracket
    split <;> simp
  case digit => exact agrees_lexNumber (.inl hb) _
  case varAlpha =>
    cases hlex : lexVariable 0 rest with
    | mk kind length =>
      obtain hkind | hkind := lexVariable_kind 0 rest
      · rw [hlex] at hkind
        change kind = _ at hkind
        subst hkind
        apply agrees_variable
        obtain ((rfl | rfl) | rfl) | rfl := hb <;> rfl
      · rw [hlex] at hkind
        change kind = _ at hkind
        subst hkind
        exact agrees_unnamed hb hlex
  case varNum =>
    subst hb
    exact agrees_variable rfl
  case pipe =>
    subst hb
    split
    · next h =>
      obtain ⟨rest', rfl⟩ := List.head?_eq_some_iff.mp h
      exact agrees_joined rfl rfl
    · exact agrees_operator rfl fun h => absurd h (by decide)
  case minus =>
    subst hb
    split
    · next h =>
      obtain ⟨rest', rfl⟩ := List.head?_eq_some_iff.mp h
      exact agrees_line
    · next hminus =>
      split
      · next h =>
        obtain ⟨rest', rfl⟩ := List.head?_eq_some_iff.mp h
        split
        · next h =>
          cases rest' with
          | nil => cases h
          | cons b' rest' =>
            have hb' : b' = ascii '>' := by simpa using h
            subst hb'
            exact agrees_arrow2
        · exact agrees_joined rfl rfl
      · exact agrees_operator rfl fun _ => hminus
  case lt =>
    subst hb
    split
    · next h =>
      obtain h | h | h := h <;> obtain ⟨rest', rfl⟩ := List.head?_eq_some_iff.mp h <;> exact agrees_joined rfl rfl
    · exact agrees_operator rfl fun h => absurd h (by decide)
  case gt =>
    subst hb
    split
    · next h =>
      obtain h | h := h <;> obtain ⟨rest', rfl⟩ := List.head?_eq_some_iff.mp h <;> exact agrees_joined rfl rfl
    · exact agrees_operator rfl fun h => absurd h (by decide)
  case eq =>
    subst hb
    split
    · next h =>
      obtain ⟨rest', rfl⟩ := List.head?_eq_some_iff.mp h
      exact agrees_joined rfl rfl
    · exact agrees_operator rfl fun h => absurd h (by decide)
  case bang =>
    subst hb
    split
    · next h =>
      obtain ⟨rest', rfl⟩ := List.head?_eq_some_iff.mp h
      exact agrees_unequal
    · exact fun _ => written_cons _ _
  case slash =>
    subst hb
    split
    · next h =>
      obtain ⟨rest', rfl⟩ := List.head?_eq_some_iff.mp h.1
      exact agrees_block
    · exact agrees_operator rfl fun h => absurd h (by decide)
  case single => exact agrees_single hb
  case dot =>
    subst hb
    split
    · exact agrees_lexNumber (.inr rfl) _
    · exact fun _ => written_cons _ _
  case x =>
    split
    · next h =>
      obtain ⟨rest', rfl⟩ := List.head?_eq_some_iff.mp h
      obtain ⟨hblob, hclosed⟩ | ⟨n, hblob⟩ := lexBlob_kind rest'
      · simp only [List.tail_cons, hblob]
        exact agrees_blob hb hclosed
      · simp only [List.tail_cons, hblob]
        intro h
        exfalso
        obtain ⟨htext, _⟩ | hother | ⟨hother, _⟩ := isAlike_illegal h
        · cases htext
        · obtain rfl | rfl := hb <;> exact absurd hother (by decide)
        · obtain rfl | rfl := hb <;> exact absurd hother (by decide)
    · apply agrees_word
      obtain rfl | rfl := hb <;> rfl
  case id => exact agrees_word hb
  case bom =>
    split
    · exact agrees_space
    · exact agrees_word hb
  case illegal => exact agrees_illegal hb

end Agreement

section Shapes

def isMark : Piece → Bool
  | [c] => isPunctuation (ascii c) || isOperator (ascii c)
  | [c, d] => isOperator (ascii c) && isJoined (ascii d)
  | _ => false

def isShown (piece : Piece) : Bool := keywords.contains (String.ofList piece) || piece = hidden || isMark piece

def shown (views : List View) : List Piece := (views.flatMap View.pieces).take maxTokens

theorem shown_wordPiece (bytes : List UInt8) : isShown (wordPiece bytes) = true := by
  simp only [wordPiece]
  split
  · next h => rw [isShown, h, Bool.true_or, Bool.true_or]
  · rfl

theorem ascii_chars (b : UInt8) : ascii (Char.ofNat b.toNat) = b := (kinds_of_byte b).2.1

theorem shown_mark {b : UInt8} (hb : isPunctuation b = true ∨ isOperator b = true) : isShown (chars [b]) = true := by
  simp only [isShown, chars, List.map_cons, List.map_nil, isMark, ascii_chars, Bool.or_eq_true]
  exact .inr hb

theorem shown_joined {b b' : UInt8} (hb : isOperator b = true) (hb' : isJoined b' = true) :
    isShown (chars [b, b']) = true := by
  simp only [isShown, chars, List.map_cons, List.map_nil, isMark, ascii_chars, hb, hb', Bool.and_true, Bool.or_true]

theorem pushed_shown (b : UInt8) (rest : List UInt8) : ∀ piece ∈ (redactOne b rest).1, isShown piece = true := by
  intro piece
  fun_cases redactOne b rest <;> simp only [List.not_mem_nil, List.mem_singleton, false_implies] <;> rintro rfl
  case case8 => exact shown_wordPiece _
  case case9 => exact shown_mark (.inl (by assumption))
  case case10 => exact shown_joined (by assumption) (by assumption)
  case case11 => exact shown_mark (.inr (by assumption))
  case case12 => exact shown_mark (.inr (by assumption))
  all_goals rfl

theorem written_shown (text : List UInt8) : ∀ piece ∈ written redactOne text, isShown piece = true := by
  intro piece hpiece
  obtain ⟨span, hspan, hmem⟩ := List.mem_flatMap.mp hpiece
  obtain ⟨b, rest, rfl⟩ := eq_of_mem hspan
  exact pushed_shown b rest piece hmem

/-- What is stored of a statement, whatever it is, is made of pieces that may be shown. -/
theorem redactLoop_shown (limit : Nat) (text : List UInt8) :
    ∀ piece ∈ redactLoop limit 0 text, isShown piece = true := by
  intro piece hpiece
  rw [redactLoop_eq] at hpiece
  exact written_shown text piece (List.mem_of_mem_take hpiece)

theorem intercalate_append {pieces : List Piece} (hpieces : pieces ≠ []) (more : List Piece) :
    ∃ rest, [' '].intercalate (pieces ++ more) = [' '].intercalate pieces ++ rest := by
  induction pieces with
  | nil => exact absurd rfl hpieces
  | cons piece pieces ih =>
    cases pieces with
    | nil =>
      cases more with
      | nil => exact ⟨[], by simp⟩
      | cons other more =>
        refine ⟨[' '] ++ [' '].intercalate (other :: more), ?_⟩
        simp only [List.singleton_append, List.intercalate_cons_cons, List.intercalate_singleton, List.append_assoc]
    | cons other pieces =>
      obtain ⟨rest, hrest⟩ := ih (List.cons_ne_nil _ _)
      refine ⟨rest, ?_⟩
      rw [List.cons_append, List.cons_append, List.intercalate_cons_cons, ← List.cons_append, hrest,
        List.intercalate_cons_cons]
      simp only [List.append_assoc]

/-- Once the shape is full, it stays as it is. -/
theorem shapeText_of_full (pieces more : List Piece) (h : isFull pieces = true) :
    shapeText (pieces ++ more) = shapeText pieces := by
  obtain hcount | hcount := Nat.le_total maxTokens pieces.length
  · rw [shapeText, shapeText, List.take_append_of_le_length hcount]
  · obtain hcount' | hbytes : maxTokens ≤ pieces.length ∨ maxShapeBytes ≤ ([' '].intercalate pieces).length := by
      simpa [isFull] using h
    · rw [shapeText, shapeText, List.take_append_of_le_length hcount']
    · have hlong : [' '].intercalate pieces ≠ [] := by
        intro hnil
        rw [hnil] at hbytes
        exact absurd hbytes (by decide)
      have hpieces : pieces ≠ [] := by
        rintro rfl
        exact hlong rfl
      obtain ⟨rest, hrest⟩ := intercalate_append hpieces (more.take (maxTokens - pieces.length))
      have hlong' : [' '].intercalate pieces ++ rest ≠ [] := by simp [hlong]
      simp only [shapeText, List.take_append, List.take_of_length_le hcount, hrest, if_neg hlong, if_neg hlong',
        List.take_append_of_le_length hbytes]

theorem flatMap_spanPieces (spans : List (Span UInt8 Kind)) :
    spans.flatMap spanPieces = (spans.filterMap viewOf).flatMap View.pieces := by
  induction spans with
  | nil => rfl
  | cons span spans ih =>
    rw [List.flatMap_cons, ih, List.filterMap_cons, spanPieces]
    cases viewOf span <;> simp

theorem redactSqlShape_of_alike {sql : List Char} (h : ReadAlike sql) : redactSqlShape sql = shapeOf (views sql) := by
  have hwritten := made_of_goodUntil shapeText_of_full agrees_lexOne [] (Text.utf8 sql) h.1
  rw [← h.2, shapeOf, viewsOfAll, ← flatMap_spanPieces]
  rw [List.nil_append, List.nil_append] at hwritten
  rw [← hwritten, redactSqlShape, redactLoop_eq, List.drop_zero]
  rfl

theorem pieces_ne_nil (view : View) : view.pieces ≠ [] := by
  cases view <;> simp only [View.pieces]
  case symbol text =>
    split
    · simp
    · split
      · simp
      · split <;> simp
  all_goals simp

theorem intercalate_ne_nil {pieces : List Piece} (hpieces : pieces ≠ [])
    (h : ∀ piece ∈ pieces, isShown piece = true) :
    [' '].intercalate pieces ≠ [] := by
  cases pieces with
  | nil => exact absurd rfl hpieces
  | cons piece pieces =>
    have hpiece : piece ≠ [] := by
      rintro rfl
      exact absurd (h [] List.mem_cons_self) (by decide +kernel)
    cases pieces with
    | nil => simpa using hpiece
    | cons other pieces => simp [List.intercalate, hpiece]

theorem shown_one {b : UInt8} (hb : isPunctuation b = true ∨ isOperator b = true ∨ b = ascii '&' ∨ b = ascii '~') :
    ∀ piece ∈ (View.symbol [b]).pieces, isShown piece = true := by
  intro piece hpiece
  simp only [View.pieces, arrow2, unequal, List.cons.injEq, reduceCtorEq, and_false, if_false, and_true] at hpiece
  split at hpiece
  · obtain rfl := List.mem_singleton.mp hpiece
    rfl
  · next hother =>
    obtain rfl := List.mem_singleton.mp hpiece
    obtain hb | hb | hb := hb
    · exact shown_mark (.inl hb)
    · exact shown_mark (.inr hb)
    · exact absurd hb hother

theorem shown_two {b b' : UInt8} (hb : isOperator b = true) (hb' : isJoined b' = true) :
    ∀ piece ∈ (View.symbol [b, b']).pieces, isShown piece = true := by
  intro piece hpiece
  have hunequal : [b, b'] ≠ unequal := by
    intro h
    rw [unequal, List.cons.injEq] at h
    rw [h.1] at hb
    exact absurd hb (by decide)
  simp only [View.pieces, if_neg hunequal, arrow2, List.cons.injEq, List.cons_ne_nil, reduceCtorEq, and_false,
    if_false, or_self, List.mem_singleton] at hpiece
  rw [hpiece]
  exact shown_joined hb hb'

theorem shown_arrow2 : ∀ piece ∈ (View.symbol arrow2).pieces, isShown piece = true := by
  simp only [View.pieces, if_true, List.mem_cons, List.not_mem_nil, or_false]
  rintro piece (rfl | rfl)
  · exact shown_joined rfl rfl
  · exact shown_mark (.inr rfl)

theorem shown_unequal : ∀ piece ∈ (View.symbol unequal).pieces, isShown piece = true := by
  have harrow : unequal ≠ arrow2 := by decide
  simp only [View.pieces, if_neg harrow, if_true, List.mem_cons, List.not_mem_nil, or_false]
  rintro piece (rfl | rfl)
  · rfl
  · exact shown_mark (.inr rfl)

theorem mark_of_single {b : UInt8} (hb : isSingle b = true) :
    isPunctuation b = true ∨ isOperator b = true ∨ b = ascii '&' ∨ b = ascii '~' := by
  simp only [isSingle, Bool.or_eq_true, decide_eq_true_eq] at hb
  obtain (((((((rfl | rfl) | rfl) | rfl) | rfl) | rfl) | rfl) | rfl) | rfl := hb <;> simp [isPunctuation, isOperator]

theorem lexNumber_kind (text : List UInt8) : (lexNumber text).1 = .number ∨ (lexNumber text).1 = .illegal := by
  rw [lexNumber]
  split
  · exact .inl rfl
  · exact .inr rfl

/-- What SQLite takes for an operator or a punctuation mark may be shown. -/
theorem symbol_shown (b : UInt8) (rest : List UInt8) (h : (lexOne b rest).1 = .symbol) :
    ∀ piece ∈ (View.symbol (b :: rest.take (lexOne b rest).2)).pieces, isShown piece = true := by
  have hb := isOfClass_classOf b
  cases hclass : classOf b <;> rw [hclass] at hb <;>
    simp only [isOfClass, Bool.or_eq_true, Bool.not_eq_true', decide_eq_true_eq] at hb <;>
    simp only [lexOne, hclass] at h ⊢
  case quote =>
    split at h
    · split at h <;> cases h
    · cases h
  case bracket => split at h <;> cases h
  case digit => obtain hkind | hkind := lexNumber_kind (b :: rest) <;> rw [hkind] at h <;> cases h
  case varAlpha => obtain hkind | hkind := lexVariable_kind 0 rest <;> rw [hkind] at h <;> cases h
  case pipe =>
    subst hb
    split
    · next hnext =>
      obtain ⟨rest', rfl⟩ := List.head?_eq_some_iff.mp hnext
      exact shown_two rfl rfl
    · exact shown_one (.inr (.inl rfl))
  case minus =>
    subst hb
    split
    · next hcomment => simp [hcomment] at h
    · split
      · next hnext =>
        obtain ⟨rest', rfl⟩ := List.head?_eq_some_iff.mp hnext
        split
        · next harrow =>
          obtain ⟨rest, rfl⟩ : ∃ rest, rest' = ascii '>' :: rest := by
            cases rest' with
            | nil => cases harrow
            | cons b' rest => exact ⟨rest, by simpa using harrow⟩
          exact shown_arrow2
        · exact shown_two rfl rfl
      · exact shown_one (.inr (.inl rfl))
  case lt =>
    subst hb
    split
    · next hnext =>
      obtain hnext | hnext | hnext := hnext <;> obtain ⟨rest', rfl⟩ := List.head?_eq_some_iff.mp hnext <;>
        exact shown_two rfl rfl
    · exact shown_one (.inr (.inl rfl))
  case gt =>
    subst hb
    split
    · next hnext =>
      obtain hnext | hnext := hnext <;> obtain ⟨rest', rfl⟩ := List.head?_eq_some_iff.mp hnext <;>
        exact shown_two rfl rfl
    · exact shown_one (.inr (.inl rfl))
  case eq =>
    subst hb
    split
    · next hnext =>
      obtain ⟨rest', rfl⟩ := List.head?_eq_some_iff.mp hnext
      exact shown_two rfl rfl
    · exact shown_one (.inr (.inl rfl))
  case bang =>
    subst hb
    split
    · next hnext =>
      obtain ⟨rest', rfl⟩ := List.head?_eq_some_iff.mp hnext
      exact shown_unequal
    · next hnext => simp [hnext] at h
  case slash =>
    subst hb
    split
    · next hcomment => simp [hcomment] at h
    · exact shown_one (.inr (.inl rfl))
  case single => exact shown_one (mark_of_single hb)
  case dot =>
    subst hb
    split
    · next hdigit =>
      rw [if_pos hdigit] at h
      obtain hkind | hkind := lexNumber_kind (ascii '.' :: rest) <;> rw [hkind] at h <;> cases h
    · exact shown_one (.inl rfl)
  case x =>
    split at h
    · obtain ⟨hblob, -⟩ | ⟨n, hblob⟩ := lexBlob_kind rest.tail <;> rw [hblob] at h <;> cases h
    · cases h
  case bom => split at h <;> cases h
  all_goals cases h

theorem shown_word (text : List UInt8) : ∀ piece ∈ (wordView text).pieces, isShown piece = true := by
  intro piece hpiece
  simp only [wordView] at hpiece
  split at hpiece
  · next hkeyword =>
    obtain rfl := List.mem_singleton.mp hpiece
    rw [isShown, hkeyword, Bool.true_or, Bool.true_or]
  · obtain rfl := List.mem_singleton.mp hpiece
    rfl

theorem view_shown {text : List UInt8} {view : View} (h : view ∈ (spans lexOne text).filterMap viewOf) :
    ∀ piece ∈ view.pieces, isShown piece = true := by
  obtain ⟨span, hspan, hview⟩ := List.mem_filterMap.mp h
  obtain ⟨b, rest, rfl⟩ := eq_of_mem hspan
  cases hkind : (lexOne b rest).1 <;> simp only [viewOf, hkind, reduceCtorEq, Option.some.injEq] at hview <;>
    subst hview
  case word => exact shown_word _
  case symbol => exact symbol_shown b rest hkind
  all_goals
    intro piece hpiece
    simp only [View.pieces, List.mem_cons, List.not_mem_nil, or_false, or_self] at hpiece
    subst hpiece
    rfl

theorem shape_of_alike {sql : List Char} (h : ReadAlike sql) (htoken : views sql ≠ []) :
    redactSqlShape sql = ([' '].intercalate (shown (views sql))).take maxShapeBytes ∧
      ∀ piece ∈ shown (views sql), isShown piece = true := by
  have hshown : ∀ piece ∈ shown (views sql), isShown piece = true := by
    intro piece hpiece
    obtain ⟨view, hview, hmem⟩ := List.mem_flatMap.mp (List.mem_of_mem_take hpiece)
    exact view_shown hview piece hmem
  have hpieces : shown (views sql) ≠ [] := by
    cases hviews : views sql with
    | nil => exact absurd hviews htoken
    | cons view rest =>
      have hview := pieces_ne_nil view
      simp [shown, maxTokens, hview]
  refine ⟨?_, hshown⟩
  have hshape : [' '].intercalate (((views sql).flatMap View.pieces).take maxTokens) ≠ [] :=
    intercalate_ne_nil hpieces hshown
  rw [redactSqlShape_of_alike h, shapeOf, shapeText, if_neg hshape, shown]

end Shapes

section Noninterference

/-- Of two statements that are read as SQLite reads them and of which the same may be seen, the same is stored: the
tokens in their order, as they may be shown. -/
theorem shapes_alike {sql sql' : List Char} (h : ReadAlike sql) (h' : ReadAlike sql')
    (hviews : views sql = views sql') :
    redactSqlShape sql = redactSqlShape sql' ∧ (profileSql sql).fingerprint = (profileSql sql').fingerprint ∧
      (views sql ≠ [] → redactSqlShape sql = ([' '].intercalate (shown (views sql))).take maxShapeBytes ∧
        ∀ piece ∈ shown (views sql), isShown piece = true) := by
  have hshape : redactSqlShape sql = redactSqlShape sql' := by
    rw [redactSqlShape_of_alike h, redactSqlShape_of_alike h', hviews]
  refine ⟨hshape, ?_, shape_of_alike h⟩
  simp only [profileSql, hshape]

theorem users_alike :
    redactSqlShape "SELECT a FROM t WHERE b = 'x' -- one\r\n".toList =
        redactSqlShape "select  \"é\" FROM users WHERE c=  'two'-- a\x00b".toList ∧
      (profileSql "SELECT a FROM t WHERE b = 'x' -- one\r\n".toList).fingerprint =
        (profileSql "select  \"é\" FROM users WHERE c=  'two'-- a\x00b".toList).fingerprint ∧
      (views "SELECT a FROM t WHERE b = 'x' -- one\r\n".toList ≠ [] →
        redactSqlShape "SELECT a FROM t WHERE b = 'x' -- one\r\n".toList =
          ([' '].intercalate (shown (views "SELECT a FROM t WHERE b = 'x' -- one\r\n".toList))).take maxShapeBytes ∧
        ∀ piece ∈ shown (views "SELECT a FROM t WHERE b = 'x' -- one\r\n".toList), isShown piece = true) :=
  shapes_alike (by decide +kernel) (by decide +kernel) (by decide +kernel)

/-- A text whose shape is full is read no further. -/
example : ReadAlike (List.replicate 96 ';' ++ " é".toList) := by decide +kernel

/-- The bytes of a name that is not ASCII are counted, a sum is read as one number, and what stands behind a carriage
return in a comment shows. -/
theorem shapes_not_alike :
    (views "SELECT é".toList = views "SELECT e".toList ∧
        redactSqlShape "SELECT é".toList ≠ redactSqlShape "SELECT e".toList) ∧
      (views "SELECT 1+2".toList = views "SELECT 1 + 2".toList ∧
        redactSqlShape "SELECT 1+2".toList ≠ redactSqlShape "SELECT 1 + 2".toList) ∧
      views "SELECT x --\rDROP".toList = views "SELECT x --\rc".toList ∧
        redactSqlShape "SELECT x --\rDROP".toList ≠ redactSqlShape "SELECT x --\rc".toList := by
  decide +kernel

end Noninterference

end Ffdb.Observability
