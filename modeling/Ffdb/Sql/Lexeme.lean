import Ffdb.Sql.Agreement
import Mathlib.Data.List.TakeWhile

/-! The texts that the lexer accepts, written down from their tokens: a text is a sequence of
lexemes, each of which may stand before the next. Texts that meet at a separator are read
one after the other. -/
namespace Ffdb.Sql
open Text Fallible Scan

def isSymbolChar (c : Char) : Bool := c = '(' || c = ')' || c = ',' || c = '.' || c = ';'

/-- A character that is a token, or several, of no particular kind. -/
def isOther (c : Char) : Bool :=
  !(isAsciiWhitespace c || Lexical.isQuote c || c = '[' || isWordStart c || isSymbolChar c)

/-- What the lexer passes over in one turn, before a given character, and its tokens. -/
inductive Lexeme : List Char → Option Char → List TokenKind → Prop
  | space {c : Char} {next : Option Char} (h : isAsciiWhitespace c = true) : Lexeme [c] next []
  | quoted {quote : Char} {value : List Char} {next : Option Char}
      (hquote : Lexical.isQuote quote = true) (hnext : next ≠ some quote) :
      Lexeme (quote :: (replaceWith quote [quote, quote] value ++ [quote])) next
        [quotedKind quote value]
  | bracketed {value : List Char} {next : Option Char} (h : ']' ∉ value) :
      Lexeme ('[' :: (value ++ [']'])) next [.identifier value]
  | word {c : Char} {more : List Char} {next : Option Char} (hc : isWordStart c = true)
      (hmore : ∀ d ∈ more, isWordContinue d = true) (hnext : next.any isWordContinue = false) :
      Lexeme (c :: more) next [.word (c :: more)]
  | symbol {c : Char} {next : Option Char} (h : isSymbolChar c = true) : Lexeme [c] next [.symbol c]
  | other {c : Char} {next : Option Char} (h : isOther c = true)
      (hline : c = '-' → next ≠ some '-') (hblock : c = '/' → next ≠ some '*') :
      Lexeme [c] next (List.replicate c.utf8Size .other)

inductive Reads (next : Option Char) : List Char → List TokenKind → Prop
  | nil : Reads next [] []
  | cons {text rest : List Char} {kinds more : List TokenKind}
      (h : Lexeme text (rest.head?.or next) kinds) (hrest : Reads next rest more) :
      Reads next (text ++ rest) (kinds ++ more)

structure Emits (index : Nat) (text : List Char) (kinds : List TokenKind) (tokens : List Token) :
    Prop where
  map_kind : tokens.map Token.kind = kinds
  place : ∀ kind, kinds = [kind] → tokens = [⟨kind, index, index+byteLength text⟩]

theorem Lexeme.ne_nil {text : List Char} {next : Option Char} {kinds : List TokenKind}
    (h : Lexeme text next kinds) : text ≠ [] := by
  cases h <;> simp

section Lexer
variable {s : Lexing} {allow : Bool}

structure Passes (s : Lexing) (text : List Char) (kinds : List TokenKind) (t : Lexing) : Prop where
  index : t.index = s.index+byteLength text
  tokens : ∃ emitted, t.tokens = s.tokens ++ emitted ∧ Emits s.index text kinds emitted

theorem passes_push (s : Lexing) (kind : TokenKind) (c : Char) (more rest : List Char) :
    Passes s (c :: more) [kind] (s.push kind c (more ++ rest) more.length) where
  index := by
    simp only [Lexing.push, Lexing.pass, List.take_left', byteLength_cons]
    omega
  tokens := by
    refine ⟨_, rfl, rfl, ?_⟩
    intro kind' hkind
    cases hkind
    simp [Lexing.pass, byteLength_cons, Nat.add_assoc]

theorem decodeQuoted_append {quote : Char} (value rest : List Char)
    (h : rest.head? ≠ some quote) :
    decodeQuoted quote (replaceWith quote [quote, quote] value ++ quote :: rest) =
      some ((replaceWith quote [quote, quote] value).length+1, value) := by
  induction value with
  | nil =>
    cases rest with
    | nil => simp [replaceWith, decodeQuoted]
    | cons c rest =>
      have hc : c ≠ quote := by simpa using h
      simp [replaceWith, decodeQuoted, hc]
  | cons c value ih =>
    by_cases hc : c = quote
    · subst hc
      have hreplace : replaceWith c [c, c] (c :: value) = c :: c :: replaceWith c [c, c] value := by
        simp [replaceWith]
      rw [hreplace, List.cons_append, List.cons_append, decodeQuoted.eq_def]
      simp [ih]
    · have hreplace : replaceWith quote [quote, quote] (c :: value) =
          c :: replaceWith quote [quote, quote] value := by
        simp [replaceWith, hc]
      rw [hreplace, List.cons_append, decodeQuoted.eq_def]
      simp [hc, ih]

theorem takeWhile_append_stop {p : Char → Bool} {more rest : List Char} (hmore : ∀ d ∈ more, p d = true)
    (hrest : rest.head?.any p = false) : (more ++ rest).takeWhile p = more := by
  rw [List.takeWhile_append_of_pos hmore]
  cases rest with
  | nil => simp
  | cons c rest =>
    have hc : p c = false := by simpa using hrest
    simp [hc]

theorem isOther_iff (c : Char) : isOther c = true ↔ isAsciiWhitespace c = false ∧
    Lexical.isQuote c = false ∧ c ≠ '[' ∧ isWordStart c = false ∧ isSymbolChar c = false := by
  simp [isOther, and_assoc]

theorem isSymbolChar_iff (c : Char) :
    isSymbolChar c = true ↔ c = '(' ∨ c = ')' ∨ c = ',' ∨ c = '.' ∨ c = ';' := by
  simp [isSymbolChar, or_assoc]

/-- What starts a word or is a symbol starts nothing else. -/
theorem lexBody_start {c : Char} (h : isWordStart c = true ∨ isSymbolChar c = true) :
    isAsciiWhitespace c = false ∧ c ≠ '-' ∧ c ≠ '/' ∧ ¬(c = apostrophe ∨ c = '"' ∨ c = backtick) ∧
      c ≠ '[' := by
  obtain h | h := h
  · refine ⟨?_, ?_, ?_, ?_, ?_⟩
    · cases hspace : isAsciiWhitespace c with
      | false => rfl
      | true => exact absurd h (by simp [whitespace_not_word hspace])
    · exact wordStart_ne h (by decide)
    · exact wordStart_ne h (by decide)
    · intro hc
      obtain rfl | rfl | rfl := hc <;> exact absurd h (by decide)
    · exact wordStart_ne h (by decide)
  · rw [isSymbolChar_iff] at h
    obtain rfl | rfl | rfl | rfl | rfl := h <;> decide

theorem not_quote_iff {c : Char} :
    Lexical.isQuote c = false ↔ ¬(c = apostrophe ∨ c = '"' ∨ c = backtick) := by
  simp [Lexical.isQuote, apostrophe, backtick, and_assoc]

theorem lexBody_lexeme (allow : Bool) (s : Lexing) {c : Char} {more rest : List Char}
    {kinds : List TokenKind} (h : Lexeme (c :: more) rest.head? kinds) :
    ∃ t label, lexBody allow s c (more ++ rest) = .ok ⟨t, more.length, label⟩ ∧
      Passes s (c :: more) kinds t := by
  cases h with
  | space h =>
    refine ⟨s.pass c rest 0, .code, by simp [lexBody, h], by simp [Lexing.pass, byteLength], ?_⟩
    exact ⟨[], by simp [Lexing.pass], rfl, by simp⟩
  | @quoted _ value _ hquote hnext =>
    obtain ⟨hspace, hline, hblock⟩ := quote_not hquote
    refine ⟨_, quoteClass c, ?_, passes_push s (quotedKind c value) c _ rest⟩
    simp only [lexBody, hspace, hline, hblock, false_and, if_false, if_pos (quote_cases hquote),
      Bool.false_eq_true, List.append_assoc, List.singleton_append, decodeQuoted_append value rest hnext,
      List.length_append, List.length_singleton]
  | @bracketed value _ hvalue =>
    have htext : bracketText (value ++ ']' :: rest) = value := by
      refine takeWhile_append_stop (fun d hd => ?_) (by simp)
      simpa using fun hd' : d = ']' => hvalue (hd' ▸ hd)
    refine ⟨_, .inQuotedIdentifier, ?_, passes_push s (.identifier value) '[' _ rest⟩
    simp [lexBody, isAsciiWhitespace, apostrophe, backtick, htext]
  | word hc hmore hnext =>
    obtain ⟨hspace, hline, hblock, hquote, hbracket⟩ := lexBody_start (.inl hc)
    refine ⟨_, .code, ?_, passes_push s (.word (c :: more)) c more rest⟩
    simp only [lexBody, hspace, hline, hblock, hquote, hbracket, false_and, if_false, hc, if_true,
      Bool.false_eq_true, takeWhile_append_stop hmore hnext]
  | symbol h =>
    obtain ⟨hspace, hline, hblock, hquote, hbracket⟩ := lexBody_start (.inr h)
    have hword : isWordStart c = false := by
      rw [isSymbolChar_iff] at h
      obtain rfl | rfl | rfl | rfl | rfl := h <;> decide
    refine ⟨_, .code, ?_, passes_push s (.symbol c) c [] rest⟩
    simp only [lexBody, hspace, hline, hblock, hquote, hbracket, hword, false_and, if_false, if_true,
      Bool.false_eq_true, (isSymbolChar_iff c).mp h, List.nil_append, List.length_nil]
  | other h hline hblock =>
    obtain ⟨hspace, hquote, hbracket, hword, hsymbol⟩ := (isOther_iff c).mp h
    have hline' : ¬(c = '-' ∧ rest.head? = some '-') := fun h => hline h.1 h.2
    have hblock' : ¬(c = '/' ∧ rest.head? = some '*') := fun h => hblock h.1 h.2
    have hsymbol' : ¬(c = '(' ∨ c = ')' ∨ c = ',' ∨ c = '.' ∨ c = ';') := by
      simpa [← isSymbolChar_iff] using hsymbol
    refine ⟨{ s.pass c rest 0 with tokens := s.tokens ++ (List.range c.utf8Size).map fun k =>
      ⟨.other, s.index+k, s.index+k+1⟩ }, .code, ?_, ?_, ?_⟩
    · simp only [lexBody, hspace, List.nil_append, hline', hblock', not_quote_iff.mp hquote, hbracket,
        hword, hsymbol', if_false, Bool.false_eq_true, List.length_nil]
    · simp [Lexing.pass, byteLength]
    · refine ⟨_, rfl, by simp [Function.comp_def, List.map_const'], ?_⟩
      intro kind hkind
      have hsize : c.utf8Size = 1 := by simpa using congrArg List.length hkind
      rw [hsize] at hkind ⊢
      cases hkind
      simp [byteLength, hsize]

theorem decodeQuoted_split {quote : Char} {rest value : List Char} {n : Nat}
    (h : decodeQuoted quote rest = some (n, value)) :
    ∃ after, rest = (replaceWith quote [quote, quote] value ++ [quote]) ++ after ∧
      n = (replaceWith quote [quote, quote] value ++ [quote]).length ∧ after.head? ≠ some quote := by
  fun_induction decodeQuoted quote rest generalizing n value with
  | case1 => cases h
  | case2 =>
    cases h
    exact ⟨[], rfl, rfl, by simp⟩
  | case3 rest ih =>
    simp only [Option.map_eq_some_iff, Prod.exists, Prod.mk.injEq] at h
    obtain ⟨m, inner, hm, rfl, rfl⟩ := h
    obtain ⟨after, rfl, rfl, hnext⟩ := ih hm
    exact ⟨after, by simp [replaceWith], by simp [replaceWith], hnext⟩
  | case4 c' rest' hne =>
    cases h
    exact ⟨c' :: rest', rfl, rfl, by simpa using hne⟩
  | case5 c rest hne ih =>
    simp only [Option.map_eq_some_iff, Prod.exists, Prod.mk.injEq] at h
    obtain ⟨m, inner, hm, rfl, rfl⟩ := h
    obtain ⟨after, rfl, rfl, hnext⟩ := ih hm
    exact ⟨after, by simp [replaceWith, hne], by simp [replaceWith, hne], hnext⟩

theorem bracketText_split {rest : List Char} (h : (bracketText rest).length ≠ rest.length) :
    ∃ after, rest = bracketText rest ++ ']' :: after := by
  have hsplit : bracketText rest ++ rest.dropWhile (· ≠ ']') = rest := List.takeWhile_append_dropWhile
  cases hdrop : rest.dropWhile (· ≠ ']') with
  | nil =>
    rw [hdrop, List.append_nil] at hsplit
    exact absurd (congrArg List.length hsplit) h
  | cons c after =>
    have hc : c = ']' := by
      have hhead := List.head?_dropWhile_not (fun c : Char => decide (c ≠ ']')) rest
      rw [hdrop] at hhead
      simpa using hhead
    rw [hdrop, hc] at hsplit
    exact ⟨after, hsplit.symm⟩

/-- Every turn of the lexer, where comments are refused, passes over a lexeme. -/
theorem lexeme_of_lexBody {c : Char} {rest : List Char} {turn : Turn Lexing ByteClass}
    (h : lexBody false s c rest = .ok turn) :
    ∃ more after kinds, rest = more ++ after ∧ turn.skip = more.length ∧
      Lexeme (c :: more) after.head? kinds := by
  by_cases hspace : isAsciiWhitespace c = true
  · simp only [lexBody, hspace, if_true, Except.ok.injEq] at h
    subst h
    exact ⟨[], rest, [], rfl, rfl, .space hspace⟩
  rw [Bool.not_eq_true] at hspace
  by_cases hline : c = '-' ∧ rest.head? = some '-'
  · simp only [lexBody, hspace, if_pos hline, Bool.false_eq_true, if_false] at h
    cases h
  by_cases hblock : c = '/' ∧ rest.head? = some '*'
  · simp only [lexBody, hspace, if_neg hline, if_pos hblock, Bool.false_eq_true, if_false] at h
    cases h
  by_cases hquote : c = apostrophe ∨ c = '"' ∨ c = backtick
  · simp only [lexBody, hspace, hline, hblock, hquote, Bool.false_eq_true, if_false, if_true] at h
    cases hdecode : decodeQuoted c rest with
    | none =>
      simp [hdecode] at h
    | some r =>
      obtain ⟨n, value⟩ := r
      simp only [hdecode, Except.ok.injEq] at h
      subst h
      obtain ⟨after, hrest, hn, hnext⟩ := decodeQuoted_split hdecode
      have hisQuote : Lexical.isQuote c = true := by
        by_contra hnot
        exact not_quote_iff.mp (by simpa using hnot) hquote
      exact ⟨_, after, _, hrest, hn, .quoted hisQuote hnext⟩
  by_cases hbracket : c = '['
  · simp only [lexBody, hspace, hline, hblock, hquote, if_pos hbracket, Bool.false_eq_true, if_false] at h
    split at h
    · cases h
    · next hclosed =>
      cases h
      obtain ⟨after, hrest⟩ := bracketText_split hclosed
      subst hbracket
      refine ⟨bracketText rest ++ [']'], after, _, by simpa using hrest, by simp, .bracketed ?_⟩
      intro hmem
      simpa using List.mem_takeWhile_imp hmem
  by_cases hword : isWordStart c = true
  · simp only [lexBody, hspace, hline, hblock, hquote, hbracket, hword, Bool.false_eq_true, if_false, if_true,
      Except.ok.injEq] at h
    subst h
    refine ⟨rest.takeWhile isWordContinue, rest.dropWhile isWordContinue, _,
      List.takeWhile_append_dropWhile.symm, rfl, .word hword (fun d hd => List.mem_takeWhile_imp hd) ?_⟩
    have hhead := List.head?_dropWhile_not isWordContinue rest
    cases hdrop : rest.dropWhile isWordContinue with
    | nil => rfl
    | cons d after =>
      rw [hdrop] at hhead
      simpa using hhead
  by_cases hsymbol : c = '(' ∨ c = ')' ∨ c = ',' ∨ c = '.' ∨ c = ';'
  · simp only [lexBody, hspace, hline, hblock, hquote, hbracket, hword, hsymbol, Bool.false_eq_true, if_false, if_true,
      Except.ok.injEq] at h
    subst h
    exact ⟨[], rest, _, rfl, rfl, .symbol ((isSymbolChar_iff c).mpr hsymbol)⟩
  · simp only [lexBody, hspace, hline, hblock, hquote, hbracket, hword, hsymbol, Bool.false_eq_true, if_false,
      Except.ok.injEq] at h
    subst h
    have hother : isOther c = true := by
      rw [isOther_iff, not_quote_iff]
      refine ⟨hspace, hquote, hbracket, by simpa using hword, ?_⟩
      simpa [← isSymbolChar_iff] using hsymbol
    exact ⟨[], rest, _, rfl, rfl, .other hother (fun hc hnext => hline ⟨hc, hnext⟩)
      fun hc hnext => hblock ⟨hc, hnext⟩⟩

end Lexer

section Joining
variable {text text' : List Char} {next next' : Option Char} {kinds kinds' : List TokenKind}

/-- A character that neither goes on with what stands before it nor looks at what follows. -/
def isSeparator (c : Char) : Bool := c = ' ' || isSymbolChar c

theorem separator_not {c : Char} (h : isSeparator c = true) :
    isWordContinue c = false ∧ Lexical.isQuote c = false ∧ c ≠ '-' ∧ c ≠ '*' ∧ c ≠ '/' := by
  simp only [isSeparator, Bool.or_eq_true, decide_eq_true_eq, isSymbolChar_iff] at h
  obtain rfl | rfl | rfl | rfl | rfl | rfl := h <;> decide

theorem Lexeme.before_separator {c : Char} (h : Lexeme text none kinds) (hc : isSeparator c = true) :
    Lexeme text (some c) kinds := by
  obtain ⟨hword, hquote, hline, hblock, _⟩ := separator_not hc
  cases h with
  | space h => exact .space h
  | quoted hisQuote _ =>
    refine .quoted hisQuote fun hnext => ?_
    cases hnext
    rw [hisQuote] at hquote
    cases hquote
  | bracketed h => exact .bracketed h
  | word hstart hmore _ => exact .word hstart hmore (by simpa using hword)
  | symbol h => exact .symbol h
  | other h _ _ => exact .other h (fun _ => by simpa using hline) fun _ => by simpa using hblock

/-- A lexeme that ends with a separator is that separator. -/
theorem Lexeme.after_separator {c : Char} (h : Lexeme text next kinds) (hlast : text.getLast? = some c)
    (hc : isSeparator c = true) (next' : Option Char) : Lexeme text next' kinds := by
  obtain ⟨hword, hquote, hline, _, hblock⟩ := separator_not hc
  cases h with
  | space h => exact .space h
  | @quoted quote value _ hisQuote hnext =>
    have hlast' : quote = c := by
      rw [← List.cons_append, List.getLast?_append] at hlast
      simpa using hlast
    rw [← hlast', hisQuote] at hquote
    cases hquote
  | bracketed h => exact .bracketed h
  | @word d more _ hstart hmore _ =>
    have hmem : c ∈ d :: more := List.mem_of_getLast? hlast
    have hcontinue : isWordContinue c = true := by
      obtain rfl | hmem := List.mem_cons.mp hmem
      · exact wordContinue_of_wordStart hstart
      · exact hmore c hmem
    rw [hcontinue] at hword
    cases hword
  | symbol h => exact .symbol h
  | @other d _ h _ _ =>
    obtain rfl : d = c := by simpa using hlast
    exact .other h (fun hd => absurd hd hline) fun hd => absurd hd hblock

theorem Reads.before_separator {c : Char} (h : Reads none text kinds) (hc : isSeparator c = true) :
    Reads (some c) text kinds := by
  induction h with
  | nil => exact .nil
  | @cons text rest kinds more hlexeme _ ih =>
    refine .cons ?_ ih
    cases rest with
    | nil => exact hlexeme.before_separator hc
    | cons d rest => exact hlexeme

theorem Reads.of_nil (h : Reads next text kinds) (htext : text = []) : kinds = [] := by
  cases h with
  | nil => rfl
  | cons hlexeme _ => exact absurd (List.append_eq_nil_iff.mp htext).1 hlexeme.ne_nil

theorem Reads.after_separator {c : Char} (h : Reads next text kinds) (hlast : text.getLast? = some c)
    (hc : isSeparator c = true) (next' : Option Char) : Reads next' text kinds := by
  induction h with
  | nil => exact .nil
  | @cons text rest kinds more hlexeme hrest ih =>
    cases rest with
    | nil =>
      rw [List.append_nil] at hlast
      obtain rfl := hrest.of_nil rfl
      exact .cons (hlexeme.after_separator hlast hc _) .nil
    | cons d rest =>
      refine .cons hlexeme (ih ?_)
      rwa [List.getLast?_append_of_ne_nil _ (by simp)] at hlast

theorem Reads.append (h : Reads (text'.head?.or next) text kinds) (h' : Reads next text' kinds') :
    Reads next (text ++ text') (kinds ++ kinds') := by
  induction h with
  | nil => exact h'
  | @cons text rest kinds more hlexeme _ ih =>
    rw [List.append_assoc, List.append_assoc]
    refine .cons ?_ ih
    rwa [List.head?_append, Option.or_assoc]

end Joining

end Ffdb.Sql
