import Ffdb.Lib.Lexical
import Ffdb.Sql.Scanner

/-! The scanners read a text as one machine does: what stands at the head of a text, how
far it reaches, and what the machine makes of it. -/
namespace Ffdb.Sql
open Text Fallible Scan
open Lexical (Mode Event Rules)

def scannerRules : Rules := ⟨isWordStart, isWordContinue, isLineEnd⟩

/-- How a text ends: complete, or inside something that was not closed. A block comment
that ends with its opening is told apart. -/
inductive Ending where
  | complete
  | inQuote (quote : Char)
  | inBracket
  | inBlock
  | atBlock
  deriving DecidableEq

def ending : Mode → Ending
  | .quoted quote _ | .otherQuote quote _ => .inQuote quote
  | .bracketed _ => .inBracket
  | .block [] => .atBlock
  | .block _ | .star | .slash => .inBlock
  | _ => .complete

def blockEnding : List Char → Ending
  | [] => .atBlock
  | _ => .inBlock

inductive Head where
  | quoted (quote : Char) (value : List Char)
  | bracketed (value : List Char)
  | comment
  | word (value : List Char)
  | plain (c : Char)
  | unclosed (ending : Ending)
  deriving DecidableEq

def head (c : Char) (rest : List Char) : Head × Nat :=
  if Lexical.isQuote c then
    match decodeQuoted c rest with
    | some (n, value) => (.quoted c value, n)
    | none => (.unclosed (.inQuote c), rest.length)
  else if c = '[' then
    let value := bracketText rest
    if value.length = rest.length then (.unclosed .inBracket, rest.length)
    else (.bracketed value, value.length+1)
  else if c = '-' ∧ rest.head? = some '-' then (.comment, 1+lineComment rest.tail)
  else if c = '/' ∧ rest.head? = some '*' then
    match skipBlockComment rest.tail with
    | .ok n => (.comment, 1+n)
    | .error _ => (.unclosed (blockEnding rest.tail), rest.length)
  else if isWordStart c then
    let more := rest.takeWhile isWordContinue
    (.word (c :: more), more.length)
  else (.plain c, 0)

def reading (text : List Char) : List Event × Ending :=
  ((Lexical.run scannerRules .code text).1, ending (Lexical.run scannerRules .code text).2)

def Head.events : Head → Nat → List Event
  | .quoted quote value, n => .inside :: List.replicate (n-1) .inside ++ [.quoted quote value]
  | .bracketed value, n => .inside :: List.replicate (n-1) .inside ++ [.bracketed value]
  | .comment, n => .comment :: List.replicate n .inside
  | .word value, n => List.replicate n .inside ++ [.word value]
  | .plain c, _ => [.code c]
  | .unclosed .complete, n => List.replicate (n+1) .inside
  | .unclosed (.inQuote _), n | .unclosed .inBracket, n => List.replicate (n+1) .inside
  | .unclosed .inBlock, n | .unclosed .atBlock, n => .comment :: List.replicate n .inside

theorem run_cons (mode : Mode) (c : Char) (rest : List Char) :
    Lexical.run scannerRules mode (c :: rest) =
      ((Lexical.step scannerRules mode c rest.head?).2 ::
          (Lexical.run scannerRules (Lexical.step scannerRules mode c rest.head?).1 rest).1,
        (Lexical.run scannerRules (Lexical.step scannerRules mode c rest.head?).1 rest).2) := rfl

theorem run_quoted {quote : Char} {text value : List Char} {n : Nat}
    (h : decodeQuoted quote text = some (n, value)) (read : List Char) :
    1 ≤ n ∧ n ≤ text.length ∧ Lexical.run scannerRules (.quoted quote read) text =
      (List.replicate (n-1) .inside ++ .quoted quote (read ++ value) ::
          (Lexical.run scannerRules .code (text.drop n)).1,
        (Lexical.run scannerRules .code (text.drop n)).2) := by
  fun_induction decodeQuoted quote text generalizing n value read with
  | case1 => cases h
  | case2 =>
    cases h
    simp [run_cons, Lexical.step]
  | case3 rest ih =>
    simp only [Option.map_eq_some_iff, Prod.exists, Prod.mk.injEq] at h
    obtain ⟨m, inner, hm, rfl, rfl⟩ := h
    obtain ⟨hpos, hle, hrun⟩ := ih hm (read ++ [quote])
    refine ⟨by omega, by simp; omega, ?_⟩
    obtain ⟨k, rfl⟩ : ∃ k, m = k+1 := ⟨m-1, by omega⟩
    simp [run_cons, Lexical.step, hrun, List.replicate_succ]
  | case4 c' rest' hne =>
    cases h
    simp [run_cons, Lexical.step, hne]
  | case5 c rest hne ih =>
    simp only [Option.map_eq_some_iff, Prod.exists, Prod.mk.injEq] at h
    obtain ⟨m, inner, hm, rfl, rfl⟩ := h
    obtain ⟨hpos, hle, hrun⟩ := ih hm (read ++ [c])
    refine ⟨by omega, by simp; omega, ?_⟩
    obtain ⟨k, rfl⟩ : ∃ k, m = k+1 := ⟨m-1, by omega⟩
    simp [run_cons, Lexical.step, hne, hrun, List.replicate_succ]

theorem run_quoted_open {quote : Char} {text : List Char} (h : decodeQuoted quote text = none)
    (read : List Char) :
    ∃ read', Lexical.run scannerRules (.quoted quote read) text =
      (List.replicate text.length .inside, .quoted quote read') := by
  fun_induction decodeQuoted quote text generalizing read with
  | case1 => exact ⟨read, rfl⟩
  | case2 => cases h
  | case3 rest ih =>
    obtain ⟨read', hrun⟩ := ih (by simpa using h) (read ++ [quote])
    exact ⟨read', by simp [run_cons, Lexical.step, hrun, List.replicate_succ]⟩
  | case4 c' rest' hne => cases h
  | case5 c rest hne ih =>
    obtain ⟨read', hrun⟩ := ih (by simpa using h) (read ++ [c])
    exact ⟨read', by simp [run_cons, Lexical.step, hne, hrun, List.replicate_succ]⟩

theorem run_bracketed (text read : List Char) :
    if (bracketText text).length = text.length then
      ∃ read', Lexical.run scannerRules (.bracketed read) text =
        (List.replicate text.length .inside, .bracketed read')
    else (bracketText text).length+1 ≤ text.length ∧
      Lexical.run scannerRules (.bracketed read) text =
        (List.replicate (bracketText text).length .inside ++
            .bracketed (read ++ bracketText text) ::
            (Lexical.run scannerRules .code (text.drop ((bracketText text).length+1))).1,
          (Lexical.run scannerRules .code (text.drop ((bracketText text).length+1))).2) := by
  induction text generalizing read with
  | nil => exact ⟨read, rfl⟩
  | cons c rest ih =>
    by_cases hc : c = ']'
    · simp [hc, bracketText, run_cons, Lexical.step]
    · have htake : bracketText (c :: rest) = c :: bracketText rest := by simp [bracketText, hc]
      have hih := ih (read ++ [c])
      rw [htake]
      simp only [List.length_cons, Nat.add_right_cancel_iff]
      split at hih
      · next hopen =>
        obtain ⟨read', hrun⟩ := hih
        rw [if_pos hopen]
        exact ⟨read', by simp [run_cons, Lexical.step, hc, hrun, List.replicate_succ]⟩
      · next hclosed =>
        obtain ⟨hle, hrun⟩ := hih
        rw [if_neg hclosed]
        refine ⟨by omega, ?_⟩
        simp [run_cons, Lexical.step, hc, hrun, List.replicate_succ]

theorem run_block {text : List Char} {n : Nat} (h : skipBlockComment text = .ok n) (read : List Char) :
    n ≤ text.length ∧ Lexical.run scannerRules (.block read) text =
      (List.replicate n .inside ++ (Lexical.run scannerRules .code (text.drop n)).1,
        (Lexical.run scannerRules .code (text.drop n)).2) := by
  fun_induction skipBlockComment text generalizing n read with
  | case1 => cases h
  | case2 => cases h
  | case3 c c' rest hclose =>
    cases h
    obtain ⟨rfl, rfl⟩ := hclose
    refine ⟨by simp, ?_⟩
    simp [run_cons, Lexical.step, List.replicate_succ]
  | case4 c c' rest hopen ih =>
    cases hm : skipBlockComment (c' :: rest) with
    | error e =>
      rw [hm] at h
      cases h
    | ok m =>
      rw [hm] at h
      cases h
      obtain ⟨hle, hrun⟩ := ih hm (read ++ [c])
      refine ⟨by simpa using hle, ?_⟩
      have hstep : Lexical.step scannerRules (.block read) c (some c') = (.block (read ++ [c]), .inside) := by
        simp only [Lexical.step]
        rw [if_neg (by simpa using hopen)]
      rw [run_cons, List.head?_cons, hstep, hrun]
      simp [List.replicate_succ]

theorem run_block_open {text : List Char} {error : SqlScanError}
    (h : skipBlockComment text = .error error) (read : List Char) :
    Lexical.run scannerRules (.block read) text =
      (List.replicate text.length .inside, .block (read ++ text)) := by
  fun_induction skipBlockComment text generalizing read with
  | case1 => simp [Lexical.run]
  | case2 c => simp [Lexical.run, Lexical.step]
  | case3 c c' rest hclose => cases h
  | case4 c c' rest hopen ih =>
    have hinner : skipBlockComment (c' :: rest) = .error error := by
      cases hm : skipBlockComment (c' :: rest) with
      | error e =>
        rw [hm] at h
        exact congrArg _ (Except.error.inj h)
      | ok m =>
        rw [hm] at h
        cases h
    have hstep : Lexical.step scannerRules (.block read) c (some c') = (.block (read ++ [c]), .inside) := by
      simp only [Lexical.step]
      rw [if_neg (by simpa using hopen)]
    rw [run_cons, List.head?_cons, hstep, ih hinner]
    simp [List.replicate_succ]

theorem run_word (rest read : List Char) :
    ((Lexical.wordTo scannerRules read rest.head?).2 ::
        (Lexical.run scannerRules (Lexical.wordTo scannerRules read rest.head?).1 rest).1,
      (Lexical.run scannerRules (Lexical.wordTo scannerRules read rest.head?).1 rest).2) =
    (List.replicate (rest.takeWhile isWordContinue).length .inside ++
        .word (read ++ rest.takeWhile isWordContinue) ::
        (Lexical.run scannerRules .code (rest.drop (rest.takeWhile isWordContinue).length)).1,
      (Lexical.run scannerRules .code (rest.drop (rest.takeWhile isWordContinue).length)).2) := by
  induction rest generalizing read with
  | nil => simp [Lexical.wordTo]
  | cons c rest ih =>
    by_cases hc : isWordContinue c = true
    · have hgo : Lexical.wordTo scannerRules read (some c) = (.word read, .inside) := by
        simp [Lexical.wordTo, scannerRules, hc]
      have htake : (c :: rest).takeWhile isWordContinue = c :: rest.takeWhile isWordContinue := by
        simp [hc]
      have hih := ih (read ++ [c])
      simp only [Prod.mk.injEq] at hih
      rw [List.head?_cons, hgo, htake, run_cons, Lexical.step, hih.1, hih.2]
      simp [List.replicate_succ]
    · simp [Lexical.wordTo, scannerRules, hc]

theorem reading_nil : reading [] = ([], .complete) := rfl

theorem run_line (text read : List Char) :
    lineComment text ≤ text.length ∧
    ((Lexical.run scannerRules (.line read) text).1,
        ending (Lexical.run scannerRules (.line read) text).2) =
      (List.replicate (lineComment text) .inside ++ (reading (text.drop (lineComment text))).1,
        (reading (text.drop (lineComment text))).2) := by
  induction text generalizing read with
  | nil => exact ⟨Nat.le_refl 0, rfl⟩
  | cons c rest ih =>
    by_cases hc : isLineEnd c = true
    · have hplain : Lexical.step scannerRules .code c rest.head? = (.code, .code c) := by
        simp only [isLineEnd, Bool.or_eq_true, decide_eq_true_eq] at hc
        obtain rfl | rfl := hc <;>
          simp [Lexical.step, Lexical.codeStep, Lexical.isQuote, scannerRules, isWordStart]
      have hline : Lexical.step scannerRules (.line read) c rest.head? = (.code, .code c) := by
        simp [Lexical.step, scannerRules, hc]
      have hzero : lineComment (c :: rest) = 0 := by simp [lineComment, hc]
      rw [hzero]
      refine ⟨Nat.zero_le _, ?_⟩
      simp [reading, run_cons, hplain, hline]
    · obtain ⟨hle, hrun⟩ := ih (read ++ [c])
      have hsucc : lineComment (c :: rest) = lineComment rest+1 := by simp [lineComment, hc]
      rw [hsucc]
      refine ⟨by simpa using hle, ?_⟩
      have hstep : Lexical.step scannerRules (.line read) c rest.head? = (.line (read ++ [c]), .inside) := by
        simp [Lexical.step, scannerRules, hc]
      simp only [Prod.mk.injEq] at hrun
      rw [run_cons, hstep, hrun.1, hrun.2]
      simp [List.replicate_succ]

def Continues (c : Char) (rest : List Char) (h : Head) (n : Nat) : Prop :=
  n ≤ rest.length ∧ reading (c :: rest) =
    (h.events n ++ (reading (rest.drop n)).1, (reading (rest.drop n)).2)

def Stops (c : Char) (rest : List Char) (e : Ending) : Prop :=
  reading (c :: rest) = ((Head.unclosed e).events rest.length, e)

theorem reading_of_run {c : Char} {rest : List Char} {mode : Mode} {event : Event}
    {events : List Event} {e : Ending}
    (hstep : Lexical.step scannerRules .code c rest.head? = (mode, event))
    (hrun : ((Lexical.run scannerRules mode rest).1, ending (Lexical.run scannerRules mode rest).2) =
      (events, e)) : reading (c :: rest) = (event :: events, e) := by
  simp only [Prod.mk.injEq] at hrun
  simp [reading, run_cons, hstep, hrun]

theorem head_quote {c : Char} (rest : List Char) (hquote : Lexical.isQuote c = true) :
    (∃ n value, decodeQuoted c rest = some (n, value) ∧ head c rest = (.quoted c value, n) ∧
      Continues c rest (.quoted c value) n) ∨
    (decodeQuoted c rest = none ∧ head c rest = (.unclosed (.inQuote c), rest.length) ∧
      Stops c rest (.inQuote c)) := by
  have hstep : Lexical.step scannerRules .code c rest.head? = (.quoted c [], .inside) := by
    simp [Lexical.step, Lexical.codeStep, hquote]
  cases hdecode : decodeQuoted c rest with
  | none =>
    obtain ⟨read', hrun⟩ := run_quoted_open hdecode []
    exact .inr ⟨rfl, by simp [head, hquote, hdecode], reading_of_run hstep (by rw [hrun]; rfl)⟩
  | some r =>
    obtain ⟨n, value⟩ := r
    obtain ⟨hpos, hle, hrun⟩ := run_quoted hdecode []
    refine .inl ⟨n, value, rfl, by simp [head, hquote, hdecode], hle, ?_⟩
    rw [reading_of_run hstep (by rw [hrun])]
    simp [Head.events, reading]

theorem head_bracket (rest : List Char) :
    ((bracketText rest).length ≠ rest.length ∧
      head '[' rest = (.bracketed (bracketText rest), (bracketText rest).length+1) ∧
      Continues '[' rest (.bracketed (bracketText rest)) ((bracketText rest).length+1)) ∨
    ((bracketText rest).length = rest.length ∧ head '[' rest = (.unclosed .inBracket, rest.length) ∧
      Stops '[' rest .inBracket) := by
  have hquote : Lexical.isQuote '[' = false := by decide
  have hstep : Lexical.step scannerRules .code '[' rest.head? = (.bracketed [], .inside) := by
    simp [Lexical.step, Lexical.codeStep, hquote]
  have hrun := run_bracketed rest []
  split at hrun
  · next hopen =>
    obtain ⟨read', hrun⟩ := hrun
    exact .inr ⟨hopen, by simp [head, hquote, hopen], reading_of_run hstep (by rw [hrun]; rfl)⟩
  · next hclosed =>
    obtain ⟨hle, hrun⟩ := hrun
    refine .inl ⟨hclosed, by simp [head, hquote, hclosed], hle, ?_⟩
    rw [reading_of_run hstep (by rw [hrun])]
    simp [Head.events, reading]

theorem head_line (rest : List Char) :
    head '-' ('-' :: rest) = (.comment, 1+lineComment rest) ∧
      Continues '-' ('-' :: rest) .comment (1+lineComment rest) := by
  have hstep : Lexical.step scannerRules .code '-' (some '-') = (.otherHyphen, .comment) := by decide
  obtain ⟨hle, hrun⟩ := run_line rest []
  refine ⟨by simp [head, Lexical.isQuote], by simp; omega, ?_⟩
  rw [reading_of_run hstep (by rw [run_cons])]
  simp only [Lexical.step, Prod.mk.injEq] at hrun ⊢
  simp [Head.events, Nat.add_comm 1, List.replicate_succ, hrun]

theorem head_block (rest : List Char) :
    (∃ n, skipBlockComment rest = .ok n ∧ head '/' ('*' :: rest) = (.comment, 1+n) ∧
      Continues '/' ('*' :: rest) .comment (1+n)) ∨
    (∃ e, skipBlockComment rest = .error e ∧
      head '/' ('*' :: rest) = (.unclosed (blockEnding rest), rest.length+1) ∧
      Stops '/' ('*' :: rest) (blockEnding rest)) := by
  have hstep : Lexical.step scannerRules .code '/' (some '*') = (.star, .comment) := by decide
  cases hskip : skipBlockComment rest with
  | ok n =>
    obtain ⟨hle, hrun⟩ := run_block hskip []
    refine .inl ⟨n, rfl, by simp [head, Lexical.isQuote, hskip], by simp; omega, ?_⟩
    rw [reading_of_run hstep (by rw [run_cons])]
    simp [Lexical.step, hrun, Head.events, Nat.add_comm 1, List.replicate_succ, reading]
  | error e =>
    have hrun := run_block_open hskip []
    refine .inr ⟨e, rfl, by simp [head, Lexical.isQuote, hskip], ?_⟩
    refine (reading_of_run hstep (by rw [run_cons])).trans ?_
    cases rest with
    | nil => rfl
    | cons c rest => simp [Lexical.step, hrun, Head.events, ending, blockEnding, List.replicate_succ]

structure PlainStart (c : Char) (rest : List Char) : Prop where
  quote : Lexical.isQuote c = false
  bracket : c ≠ '['
  line : ¬(c = '-' ∧ rest.head? = some '-')
  block : ¬(c = '/' ∧ rest.head? = some '*')

theorem head_word {c : Char} {rest : List Char} (h : PlainStart c rest) (hc : isWordStart c = true) :
    head c rest = (.word (c :: rest.takeWhile isWordContinue), (rest.takeWhile isWordContinue).length) ∧
      Continues c rest (.word (c :: rest.takeWhile isWordContinue))
        (rest.takeWhile isWordContinue).length := by
  have hstep : Lexical.step scannerRules .code c rest.head? = Lexical.wordTo scannerRules [c] rest.head? := by
    simp only [Lexical.step, Lexical.codeStep, h.quote, h.bracket, h.line, h.block]
    simp [scannerRules, hc]
  refine ⟨by simp [head, h.quote, h.bracket, h.line, h.block, hc], (List.takeWhile_sublist _).length_le, ?_⟩
  have hrun := run_word rest [c]
  simp only [Prod.mk.injEq] at hrun
  simp [reading, run_cons, hstep, hrun, Head.events]

theorem head_plain {c : Char} {rest : List Char} (h : PlainStart c rest) (hc : isWordStart c = false) :
    head c rest = (.plain c, 0) ∧ Continues c rest (.plain c) 0 := by
  have hstep : Lexical.step scannerRules .code c rest.head? = (.code, .code c) := by
    simp only [Lexical.step, Lexical.codeStep, h.quote, h.bracket, h.line, h.block]
    simp [scannerRules, hc]
  refine ⟨by simp [head, h.quote, h.bracket, h.line, h.block, hc], Nat.zero_le _, ?_⟩
  simp [reading, run_cons, hstep, Head.events]

end Ffdb.Sql
