import Ffdb.Sql.Reading

/-! Each scanner is a fold over the events of the machine, and all of them take every
character for the same. -/
namespace Ffdb.Sql
open Text Fallible Scan
open Lexical (Mode Event Rules)

def Head.byteClass : Head → ByteClass
  | .quoted quote _ => quoteClass quote
  | .bracketed _ => .inQuotedIdentifier
  | .comment => .inComment
  | .word _ | .plain _ => .code
  | .unclosed (.inQuote quote) => quoteClass quote
  | .unclosed .inBracket => .inQuotedIdentifier
  | .unclosed .inBlock | .unclosed .atBlock => .inComment
  | .unclosed .complete => .code

def classes : List Char → List ByteClass
  | [] => []
  | c :: rest =>
    List.replicate ((head c rest).2+1) (head c rest).1.byteClass ++
      classes (rest.drop (head c rest).2)
termination_by text => text.length
decreasing_by
  simp only [List.length_drop, List.length_cons]
  omega

/-- Induction over the heads of a text. -/
theorem head_induction {P : List Char → Prop} (nil : P [])
    (cons : ∀ c rest, (∀ n, P (rest.drop n)) → P (c :: rest)) (text : List Char) : P text := by
  induction hlength : text.length using Nat.strong_induction_on generalizing text with
  | _ length ih =>
    cases text with
    | nil => exact nil
    | cons c rest =>
      refine cons c rest fun n => ih (rest.drop n).length ?_ _ rfl
      simp only [List.length_drop, ← hlength, List.length_cons]
      omega

inductive HeadCase (c : Char) (rest : List Char) : Prop
  | quoted (n : Nat) (value : List Char) (hquote : Lexical.isQuote c = true)
      (hdecode : decodeQuoted c rest = some (n, value)) (hhead : head c rest = (.quoted c value, n))
      (hreads : Continues c rest (.quoted c value) n)
  | openQuote (hquote : Lexical.isQuote c = true) (hdecode : decodeQuoted c rest = none)
      (hreads : Stops c rest (.inQuote c))
  | bracketed (hc : c = '[') (hclosed : (bracketText rest).length ≠ rest.length)
      (hhead : head c rest = (.bracketed (bracketText rest), (bracketText rest).length+1))
      (hreads : Continues c rest (.bracketed (bracketText rest)) ((bracketText rest).length+1))
  | openBracket (hc : c = '[') (hopen : (bracketText rest).length = rest.length)
      (hreads : Stops c rest .inBracket)
  | line (more : List Char) (hc : c = '-') (hrest : rest = '-' :: more)
      (hhead : head c rest = (.comment, 1+lineComment more))
      (hreads : Continues c rest .comment (1+lineComment more))
  | block (more : List Char) (n : Nat) (hc : c = '/') (hrest : rest = '*' :: more)
      (hskip : skipBlockComment more = .ok n) (hhead : head c rest = (.comment, 1+n))
      (hreads : Continues c rest .comment (1+n))
  | openBlock (more : List Char) (error : SqlScanError) (hc : c = '/') (hrest : rest = '*' :: more)
      (hskip : skipBlockComment more = .error error)
      (hhead : head c rest = (.unclosed (blockEnding more), more.length+1))
      (hreads : Stops c rest (blockEnding more))
  | word (hplain : PlainStart c rest) (hc : isWordStart c = true)
      (hhead : head c rest = (.word (c :: rest.takeWhile isWordContinue),
        (rest.takeWhile isWordContinue).length))
      (hreads : Continues c rest (.word (c :: rest.takeWhile isWordContinue))
        (rest.takeWhile isWordContinue).length)
  | plain (hplain : PlainStart c rest) (hc : isWordStart c = false)
      (hhead : head c rest = (.plain c, 0)) (hreads : Continues c rest (.plain c) 0)

theorem headCase (c : Char) (rest : List Char) : HeadCase c rest := by
  by_cases hquote : Lexical.isQuote c = true
  · obtain ⟨n, value, hdecode, hhead, hreads⟩ | ⟨hdecode, hhead, hreads⟩ := head_quote rest hquote
    · exact .quoted n value hquote hdecode hhead hreads
    · exact .openQuote hquote hdecode hreads
  by_cases hbracket : c = '['
  · subst hbracket
    obtain ⟨hclosed, hhead, hreads⟩ | ⟨hopen, hhead, hreads⟩ := head_bracket rest
    · exact .bracketed rfl hclosed hhead hreads
    · exact .openBracket rfl hopen hreads
  by_cases hline : c = '-' ∧ rest.head? = some '-'
  · obtain ⟨rfl, hnext⟩ := hline
    obtain ⟨more, rfl⟩ := List.head?_eq_some_iff.mp hnext
    obtain ⟨hhead, hreads⟩ := head_line more
    exact .line more rfl rfl hhead hreads
  by_cases hblock : c = '/' ∧ rest.head? = some '*'
  · obtain ⟨rfl, hnext⟩ := hblock
    obtain ⟨more, rfl⟩ := List.head?_eq_some_iff.mp hnext
    obtain ⟨n, hskip, hhead, hreads⟩ | ⟨e, hskip, hhead, hreads⟩ := head_block more
    · exact .block more n rfl rfl hskip hhead hreads
    · exact .openBlock more e rfl rfl hskip hhead hreads
  have hplain : PlainStart c rest := ⟨by simpa using hquote, hbracket, hline, hblock⟩
  cases hc : isWordStart c with
  | true =>
    obtain ⟨hhead, hreads⟩ := head_word hplain hc
    exact .word hplain hc hhead hreads
  | false =>
    obtain ⟨hhead, hreads⟩ := head_plain hplain hc
    exact .plain hplain hc hhead hreads

theorem classes_cons {c : Char} {rest : List Char} {h : Head} {n : Nat} (hhead : head c rest = (h, n)) :
    classes (c :: rest) = List.replicate (n+1) h.byteClass ++ classes (rest.drop n) := by
  rw [classes, hhead]

def eventKinds : Event → List TokenKind
  | .word value => [.word value]
  | .quoted quote value => [quotedKind quote value]
  | .bracketed value => [.identifier value]
  | .code c =>
    if isAsciiWhitespace c then []
    else if c = '(' ∨ c = ')' ∨ c = ',' ∨ c = '.' ∨ c = ';' then [.symbol c]
    else List.replicate c.utf8Size .other
  | .comment | .inside => []

@[simp] theorem flatMap_inside (n : Nat) :
    (List.replicate n Event.inside).flatMap eventKinds = [] := by
  induction n with
  | zero => rfl
  | succ n ih => simp [List.replicate_succ, eventKinds, ih]

def Ending.lexes : Ending → Bool
  | .complete | .atBlock => true
  | _ => false

def LexReads (s : Lexing) (text : List Char) : Prop :=
  if (reading text).2.lexes then
    ∃ s', loop (lexBody true) s .code 0 text = .ok (s', classes text) ∧
      s'.tokens.map Token.kind = s.tokens.map Token.kind ++ (reading text).1.flatMap eventKinds
  else loop (lexBody true) s .code 0 text = .error .malformedPredicate

theorem lexReads_turn {s t : Lexing} {c : Char} {rest : List Char} {h : Head} {n : Nat}
    (hhead : head c rest = (h, n)) (hreads : Continues c rest h n)
    (hbody : lexBody true s c rest = .ok ⟨t, n, h.byteClass⟩)
    (hkinds : t.tokens.map Token.kind = s.tokens.map Token.kind ++ (h.events n).flatMap eventKinds)
    (ih : LexReads t (rest.drop n)) : LexReads s (c :: rest) := by
  obtain ⟨hle, hreading⟩ := hreads
  have hloop := loop_turn .code hbody
  simp only [LexReads, hreading] at ih ⊢
  split at ih
  · next hlexes =>
    obtain ⟨s', hs', htokens⟩ := ih
    rw [if_pos hlexes]
    refine ⟨s', ?_, by simp [htokens, hkinds]⟩
    rw [hloop, hs', classes_cons hhead, Nat.min_eq_left hle]
    simp [Except.map, List.replicate_succ]
  · next hfails =>
    rw [if_neg hfails, hloop, ih]
    rfl

theorem lexReads_error {s : Lexing} {c : Char} {rest : List Char} {e : Ending}
    (hreads : Stops c rest e) (he : e.lexes = false)
    (hbody : lexBody true s c rest = .error .malformedPredicate) : LexReads s (c :: rest) := by
  rw [LexReads, hreads, if_neg (by simp [he])]
  exact loop_error hbody

theorem quote_cases {c : Char} (h : Lexical.isQuote c = true) :
    c = apostrophe ∨ c = '"' ∨ c = backtick := by
  simpa [Lexical.isQuote, apostrophe, backtick, or_assoc] using h

theorem quote_not {c : Char} (h : Lexical.isQuote c = true) :
    isAsciiWhitespace c = false ∧ c ≠ '-' ∧ c ≠ '/' := by
  obtain rfl | rfl | rfl := quote_cases h <;> decide

theorem PlainStart.not_quote {c : Char} {rest : List Char} (h : PlainStart c rest) :
    ¬(c = apostrophe ∨ c = '"' ∨ c = backtick) := by
  have hquote := h.quote
  intro hc
  obtain rfl | rfl | rfl := hc <;> exact absurd hquote (by decide)

theorem whitespace_not_word {c : Char} (h : isAsciiWhitespace c = true) : isWordStart c = false := by
  simp only [isAsciiWhitespace, Bool.or_eq_true, decide_eq_true_eq] at h
  obtain (((rfl | rfl) | rfl) | rfl) | rfl := h <;> decide

theorem lexBody_quote {s : Lexing} {c : Char} {rest : List Char} (h : Lexical.isQuote c = true) :
    lexBody true s c rest =
      match decodeQuoted c rest with
      | some (n, value) => .ok ⟨s.push (quotedKind c value) c rest n, n, quoteClass c⟩
      | none => .error .malformedPredicate := by
  obtain ⟨hspace, hline, hblock⟩ := quote_not h
  cases hquote : decodeQuoted c rest <;>
    simp only [lexBody, hspace, hline, hblock, false_and, if_false, if_pos (quote_cases h), Bool.false_eq_true, hquote]

theorem lexBody_block {s : Lexing} {more : List Char} :
    lexBody true s '/' ('*' :: more) =
      match lexBlockComment more with
      | some n => .ok ⟨s.pass '/' ('*' :: more) (1+n), 1+n, .inComment⟩
      | none => .error .malformedPredicate := by
  cases hcomment : lexBlockComment more <;> simp [lexBody, isAsciiWhitespace, hcomment]

theorem lexBlockComment_eq {c : Char} {rest : List Char} :
    lexBlockComment (c :: rest) = (skipBlockComment (c :: rest)).toOption := by
  induction rest generalizing c with
  | nil => rfl
  | cons c' rest ih =>
    rw [lexBlockComment, skipBlockComment]
    split
    · rfl
    · rw [ih]
      cases skipBlockComment (c' :: rest) <;> rfl

theorem lexBody_word {s : Lexing} {c : Char} {rest : List Char} (h : PlainStart c rest)
    (hc : isWordStart c = true) :
    lexBody true s c rest =
      .ok ⟨s.push (.word (c :: rest.takeWhile isWordContinue)) c rest
        (rest.takeWhile isWordContinue).length, (rest.takeWhile isWordContinue).length, .code⟩ := by
  have hspace : isAsciiWhitespace c = false := by
    cases hspace : isAsciiWhitespace c with
    | false => rfl
    | true => exact absurd hc (by simp [whitespace_not_word hspace])
  simp only [lexBody, hspace, h.line, h.block, h.not_quote, h.bracket, if_false, hc,
    Bool.false_eq_true, if_true]

theorem lexBody_plain {s : Lexing} {c : Char} {rest : List Char} (h : PlainStart c rest)
    (hc : isWordStart c = false) :
    ∃ t, lexBody true s c rest = .ok ⟨t, 0, .code⟩ ∧
      t.tokens.map Token.kind = s.tokens.map Token.kind ++ eventKinds (.code c) := by
  by_cases hspace : isAsciiWhitespace c = true
  · exact ⟨s.pass c rest 0, by simp [lexBody, hspace], by simp [eventKinds, hspace, Lexing.pass]⟩
  by_cases hsymbol : c = '(' ∨ c = ')' ∨ c = ',' ∨ c = '.' ∨ c = ';'
  · refine ⟨s.push (.symbol c) c rest 0, ?_, by simp [eventKinds, hspace, hsymbol, Lexing.push]⟩
    simp only [lexBody, hspace, h.line, h.block, h.not_quote, h.bracket, hc, hsymbol, if_false,
      Bool.false_eq_true, if_true]
  · refine ⟨{ s.pass c rest 0 with tokens := s.tokens ++ (List.range c.utf8Size).map fun k =>
      ⟨.other, s.index+k, s.index+k+1⟩ }, ?_, ?_⟩
    · simp only [lexBody, hspace, h.line, h.block, h.not_quote, h.bracket, hc, hsymbol, if_false,
        Bool.false_eq_true]
    · simp [eventKinds, hspace, hsymbol, Function.comp_def, List.map_const']

/-- The lexer reads every text as the machine does. -/
theorem lexReads (s : Lexing) (text : List Char) : LexReads s text := by
  induction text using head_induction generalizing s with
  | nil => exact ⟨s, by simp [loop, classes], by simp [reading_nil]⟩
  | cons c rest ih =>
    cases headCase c rest with
    | quoted n value hquote hdecode hhead hreads =>
      refine lexReads_turn hhead hreads (by rw [lexBody_quote hquote, hdecode]; rfl) ?_ (ih _ _)
      simp [Lexing.push, Head.events, eventKinds]
    | openQuote hquote hdecode hreads =>
      exact lexReads_error hreads rfl (by rw [lexBody_quote hquote, hdecode])
    | bracketed hc hclosed hhead hreads =>
      subst hc
      have hbody : lexBody true s '[' rest = .ok ⟨s.push (.identifier (bracketText rest)) '[' rest
          ((bracketText rest).length+1), (bracketText rest).length+1, .inQuotedIdentifier⟩ := by
        simp [lexBody, hclosed, isAsciiWhitespace, apostrophe, backtick]
      refine lexReads_turn hhead hreads hbody ?_ (ih _ _)
      simp [Lexing.push, Head.events, eventKinds]
    | openBracket hc hopen hreads =>
      subst hc
      refine lexReads_error hreads rfl ?_
      simp [lexBody, hopen, isAsciiWhitespace, apostrophe, backtick]
    | line more hc hrest hhead hreads =>
      subst hc hrest
      have hbody : lexBody true s '-' ('-' :: more) = .ok ⟨s.pass '-' ('-' :: more)
          (1+lineComment more), 1+lineComment more, .inComment⟩ := by
        simp [lexBody, isAsciiWhitespace]
      refine lexReads_turn hhead hreads hbody ?_ (ih _ _)
      simp [Lexing.pass, Head.events, eventKinds]
    | block more n hc hrest hskip hhead hreads =>
      subst hc hrest
      have hlex : lexBlockComment more = some n := by
        cases more with
        | nil => cases hskip
        | cons c rest => rw [lexBlockComment_eq, hskip]; rfl
      refine lexReads_turn hhead hreads (by rw [lexBody_block, hlex]; rfl) ?_ (ih _ _)
      simp [Lexing.pass, Head.events, eventKinds]
    | openBlock more error hc hrest hskip hhead hreads =>
      subst hc hrest
      cases more with
      | nil =>
        have hevents : reading ['/', '*'] = ([.comment, .inside], .atBlock) := hreads
        rw [LexReads, hevents]
        refine ⟨s.pass '/' ['*'] 3, ?_, by simp [eventKinds, Lexing.pass]⟩
        have hbody : lexBody true s '/' ['*'] = .ok ⟨s.pass '/' ['*'] 3, 3, .inComment⟩ := lexBody_block
        rw [loop_turn .code hbody]
        simp [classes_cons hhead, classes, loop, Except.map, Head.byteClass, blockEnding]
      | cons c rest =>
        exact lexReads_error hreads rfl (by rw [lexBody_block, lexBlockComment_eq, hskip]; rfl)
    | word hplain hc hhead hreads =>
      refine lexReads_turn hhead hreads (lexBody_word hplain hc) ?_ (ih _ _)
      simp [Lexing.push, Head.events, eventKinds]
    | plain hplain hc hhead hreads =>
      obtain ⟨t, hbody, hkinds⟩ := lexBody_plain (s := s) hplain hc
      refine lexReads_turn hhead hreads hbody ?_ (ih _ _)
      simpa [Head.events] using hkinds

theorem reading_length (text : List Char) : (reading text).1.length = text.length := by
  have hrun (mode : Mode) : (Lexical.run scannerRules mode text).1.length = text.length := by
    induction text generalizing mode with
    | nil => rfl
    | cons c rest ih => simp [run_cons, ih]
  exact hrun .code

theorem Continues.events_length {c : Char} {rest : List Char} {h : Head} {n : Nat}
    (hreads : Continues c rest h n) : (h.events n).length = n+1 := by
  obtain ⟨hle, hreading⟩ := hreads
  have htext := reading_length (c :: rest)
  have hbehind := reading_length (rest.drop n)
  simp only [hreading, List.length_append, hbehind, List.length_drop, List.length_cons] at htext
  omega

def Split.read (s : Split) (x : Char × Event) : Except SqlScanError Split :=
  let passed := { s with current := s.current ++ [x.1] }
  match x.2 with
  | .code c =>
    if c = '(' then .ok { passed with depth := s.depth+1 }
    else if c = ')' then
      if s.depth = 0 then .error .unbalancedParenthesis else .ok { passed with depth := s.depth-1 }
    else if c = ';' ∧ s.depth = 0 ∧ s.triggerBodyDepth = 0 then
      .ok { s with statements := s.close, current := [], words := [], possibleTrigger := false }
    else .ok passed
  | .word value =>
    .ok (if s.depth = 0 then passed.topLevelWord (toAsciiUppercase value) else passed)
  | _ => .ok passed

def Split.readAll (s : Split) (text : List Char) (events : List Event) : Except SqlScanError Split :=
  (text.zip events).foldlM Split.read s

def Ending.scanError : Ending → SqlScanError
  | .inQuote quote => if quote = apostrophe then .unterminatedString else .unterminatedIdentifier
  | .inBracket => .unterminatedIdentifier
  | _ => .unterminatedComment

/-- What the splitter makes of a text: the fold over its events, unless one fails or the
text is not complete. -/
def SplitReads (s : Split) (text : List Char) : Prop :=
  loop splitBody s .code 0 text = (s.readAll text (reading text).1).bind fun last =>
    if (reading text).2 = .complete then .ok (last, classes text)
    else .error (reading text).2.scanError

theorem readAll_append (s : Split) {text text' : List Char} {events events' : List Event}
    (h : text.length = events.length) :
    s.readAll (text ++ text') (events ++ events') =
      (s.readAll text events).bind (·.readAll text' events') := by
  rw [Split.readAll, List.zip_append h, List.foldlM_append]
  rfl

theorem readAll_continues {s : Split} {c : Char} {rest : List Char} {h : Head} {n : Nat}
    (hreads : Continues c rest h n) :
    s.readAll (c :: rest) (reading (c :: rest)).1 =
      (s.readAll (c :: rest.take n) (h.events n)).bind
        (·.readAll (rest.drop n) (reading (rest.drop n)).1) := by
  have htext : c :: rest = (c :: rest.take n) ++ rest.drop n := by simp
  have hlength : (c :: rest.take n).length = (h.events n).length := by
    rw [hreads.events_length]
    simp [hreads.1]
  rw [hreads.2]
  nth_rewrite 1 [htext]
  exact readAll_append s hlength

def Quiet (events : List Event) : Prop :=
  ∀ event ∈ events, (∀ c, event ≠ .code c) ∧ ∀ value, event ≠ .word value

theorem quiet_inside (n : Nat) : Quiet (List.replicate n .inside) := by
  intro event hmem
  simp [List.eq_of_mem_replicate hmem]

theorem quiet_append {events events' : List Event} (h : Quiet events) (h' : Quiet events') :
    Quiet (events ++ events') := by
  intro event hmem
  obtain hmem | hmem := List.mem_append.mp hmem
  · exact h event hmem
  · exact h' event hmem

theorem quiet_quoted (quote : Char) (value : List Char) (n : Nat) :
    Quiet ((Head.quoted quote value).events n) :=
  quiet_append (quiet_inside (n-1+1)) (by simp [Quiet])

theorem quiet_bracketed (value : List Char) (n : Nat) : Quiet ((Head.bracketed value).events n) :=
  quiet_append (quiet_inside (n-1+1)) (by simp [Quiet])

theorem quiet_comment (n : Nat) : Quiet (Head.comment.events n) :=
  @quiet_append [.comment] _ (by simp [Quiet]) (quiet_inside n)

theorem quiet_unclosed (e : Ending) (n : Nat) : Quiet ((Head.unclosed e).events n) := by
  intro event hmem
  have hevent : event = .inside ∨ event = .comment := by
    cases e <;> simp only [Head.events, List.mem_cons, List.mem_replicate] at hmem <;> tauto
  obtain rfl | rfl := hevent <;> simp

/-- They only pass over the text. -/
theorem readAll_quiet (s : Split) {text : List Char} {events : List Event}
    (hlength : text.length = events.length) (hquiet : Quiet events) :
    s.readAll text events = .ok { s with current := s.current ++ text } := by
  induction text generalizing s events with
  | nil => simp [Split.readAll, pure, Except.pure]
  | cons c rest ih =>
    cases events with
    | nil => simp at hlength
    | cons event events =>
      obtain ⟨hcode, hword⟩ := hquiet event (by simp)
      have hstep : s.read (c, event) = .ok { s with current := s.current ++ [c] } := by
        cases event with
        | code d => exact absurd rfl (hcode d)
        | word value => exact absurd rfl (hword value)
        | quoted quote value => rfl
        | bracketed value => rfl
        | comment => rfl
        | inside => rfl
      have hrest := ih { s with current := s.current ++ [c] } (by simpa using hlength)
        fun event' hmem => hquiet event' (List.mem_cons_of_mem event hmem)
      simp only [Split.readAll, List.zip_cons_cons, List.foldlM_cons, hstep] at hrest ⊢
      simpa using hrest

theorem splitReads_turn {s t : Split} {c : Char} {rest : List Char} {h : Head} {n : Nat}
    (hhead : head c rest = (h, n)) (hreads : Continues c rest h n)
    (hbody : splitBody s c rest = .ok ⟨t, n, h.byteClass⟩)
    (hevents : s.readAll (c :: rest.take n) (h.events n) = .ok t)
    (ih : SplitReads t (rest.drop n)) : SplitReads s (c :: rest) := by
  rw [SplitReads, loop_turn .code hbody, ih, readAll_continues hreads, hevents, hreads.2]
  simp only [Except.bind, Nat.min_eq_left hreads.1, classes_cons hhead]
  cases t.readAll (rest.drop n) (reading (rest.drop n)).1 with
  | error error => rfl
  | ok last =>
    simp only
    split
    · simp [Except.map, List.replicate_succ]
    · rfl

theorem splitReads_error {s : Split} {c : Char} {rest : List Char} {e : Ending}
    (hreads : Stops c rest e) (he : e ≠ .complete)
    (hbody : splitBody s c rest = .error e.scanError) : SplitReads s (c :: rest) := by
  have hquiet : s.readAll (c :: rest) (reading (c :: rest)).1 =
      .ok { s with current := s.current ++ c :: rest } := by
    refine readAll_quiet s (reading_length _).symm ?_
    rw [hreads]
    exact quiet_unclosed e _
  rw [SplitReads, loop_error hbody, hquiet, hreads]
  simp [he, Except.bind]

theorem skipQuoted_eq (quote : Char) (error : SqlScanError) (text : List Char) :
    skipQuoted quote error text =
      (decodeQuoted quote text).elim (.error error) fun r => .ok r.1 := by
  fun_induction skipQuoted quote error text with
  | case1 => rfl
  | case2 => simp [decodeQuoted]
  | case3 rest ih =>
    rw [ih]
    cases hinner : decodeQuoted quote rest <;> simp [Except.map, decodeQuoted, hinner]
  | case4 c' rest hne => simp [decodeQuoted, hne]
  | case5 c rest hne ih =>
    rw [ih, decodeQuoted.eq_def quote (c :: rest)]
    cases hinner : decodeQuoted quote rest <;> simp [Except.map, hne, hinner]

theorem skipBracketIdentifier_eq (text : List Char) :
    skipBracketIdentifier text =
      if (bracketText text).length = text.length then .error .unterminatedIdentifier
      else .ok ((bracketText text).length+1) := by
  induction text with
  | nil => rfl
  | cons c rest ih =>
    by_cases hc : c = ']'
    · simp [skipBracketIdentifier, bracketText, hc]
    · have htake : bracketText (c :: rest) = c :: bracketText rest := by simp [bracketText, hc]
      rw [skipBracketIdentifier, if_neg hc, ih, htake]
      simp only [List.length_cons, Nat.add_right_cancel_iff]
      split <;> rfl

theorem skipBlockComment_error {text : List Char} {error : SqlScanError}
    (h : skipBlockComment text = .error error) : error = .unterminatedComment := by
  fun_induction skipBlockComment text with
  | case1 => cases h; rfl
  | case2 => cases h; rfl
  | case3 => cases h
  | case4 c c' rest hopen ih =>
    cases hinner : skipBlockComment (c' :: rest) with
    | error e =>
      rw [hinner] at h ih
      cases h
      exact ih rfl
    | ok n =>
      rw [hinner] at h
      cases h

theorem splitBody_quote {s : Split} {c : Char} {rest : List Char} (h : Lexical.isQuote c = true) :
    splitBody s c rest = (decodeQuoted c rest).elim (.error (Ending.inQuote c).scanError)
      fun r => .ok ⟨s.pass c rest r.1, r.1, quoteClass c⟩ := by
  have hquote : (if c = apostrophe then SqlScanError.unterminatedString else .unterminatedIdentifier) =
      (Ending.inQuote c).scanError := rfl
  by_cases hc : c = apostrophe
  · rw [splitBody, if_pos hc, ← hquote, if_pos hc, skipQuoted_eq, quoteClass, if_pos hc]
    cases decodeQuoted c rest <;> rfl
  · have hother : c = '"' ∨ c = backtick := (quote_cases h).resolve_left hc
    rw [splitBody, if_neg hc, if_pos hother, ← hquote, if_neg hc, skipQuoted_eq, quoteClass, if_neg hc]
    cases decodeQuoted c rest <;> rfl

theorem PlainStart.ne_apostrophe {c : Char} {rest : List Char} (h : PlainStart c rest) :
    c ≠ apostrophe ∧ ¬(c = '"' ∨ c = backtick) := by
  have hquote := h.not_quote
  tauto

theorem wordStart_ne {c d : Char} (hc : isWordStart c = true) (hd : isWordStart d = false) : c ≠ d := by
  intro heq
  rw [heq, hd] at hc
  cases hc

theorem splitBody_word {s : Split} {c : Char} {rest : List Char} (h : PlainStart c rest)
    (hc : isWordStart c = true) :
    splitBody s c rest =
      .ok ⟨if s.depth = 0 then (s.pass c rest (rest.takeWhile isWordContinue).length).topLevelWord
          (toAsciiUppercase (c :: rest.takeWhile isWordContinue))
        else s.pass c rest (rest.takeWhile isWordContinue).length,
        (rest.takeWhile isWordContinue).length, .code⟩ := by
  have hopen : c ≠ '(' := wordStart_ne hc (by decide)
  have hclose : c ≠ ')' := wordStart_ne hc (by decide)
  simp only [splitBody, h.ne_apostrophe, h.bracket, h.line, h.block, hopen, hclose, hc, if_false,
    if_true]

/-- A word: its last character completes it. -/
theorem readAll_word (s : Split) {text value : List Char} {n : Nat} (h : text.length = n+1) :
    s.readAll text (List.replicate n .inside ++ [.word value]) =
      .ok (if s.depth = 0 then
        ({ s with current := s.current ++ text } : Split).topLevelWord (toAsciiUppercase value)
      else { s with current := s.current ++ text }) := by
  have hne : text ≠ [] := by
    intro hnil
    rw [hnil] at h
    cases h
  obtain ⟨init, last, rfl⟩ : ∃ init last, text = init ++ [last] :=
    ⟨text.dropLast, text.getLast hne, (List.dropLast_append_getLast hne).symm⟩
  have hinit : init.length = (List.replicate n Event.inside).length := by simpa using h
  have hpassed := readAll_quiet s hinit (quiet_inside n)
  rw [readAll_append s hinit, hpassed]
  simp [Except.bind, Split.readAll, Split.read, pure, Except.pure]

/-- Parentheses, separators and any other character of code. -/
theorem splitBody_plain {s : Split} {c : Char} {rest : List Char} (h : PlainStart c rest)
    (hc : isWordStart c = false) :
    splitBody s c rest = (s.read (c, .code c)).map fun t => ⟨t, 0, .code⟩ := by
  simp only [splitBody, h.ne_apostrophe, h.bracket, h.line, h.block, hc, if_false, Split.read,
    Bool.false_eq_true]
  split
  · rfl
  · split
    · split <;> rfl
    · split <;> rfl

/-- The splitter reads every text as the machine does. -/
theorem splitReads (s : Split) (text : List Char) : SplitReads s text := by
  induction text using head_induction generalizing s with
  | nil => simp [SplitReads, reading_nil, loop, classes, Split.readAll, pure, Except.pure, Except.bind]
  | cons c rest ih =>
    have hpass {h : Head} {n : Nat} (hreads : Continues c rest h n) (hquiet : Quiet (h.events n)) :
        s.readAll (c :: rest.take n) (h.events n) = .ok (s.pass c rest n) :=
      readAll_quiet s (by simp [hreads.events_length, hreads.1]) hquiet
    cases headCase c rest with
    | quoted n value hquote hdecode hhead hreads =>
      exact splitReads_turn hhead hreads (by rw [splitBody_quote hquote, hdecode]; rfl)
        (hpass hreads (quiet_quoted c value n)) (ih _ _)
    | openQuote hquote hdecode hreads =>
      exact splitReads_error hreads (by simp) (by rw [splitBody_quote hquote, hdecode]; rfl)
    | bracketed hc hclosed hhead hreads =>
      subst hc
      have hbody : splitBody s '[' rest = .ok ⟨s.pass '[' rest ((bracketText rest).length+1),
          (bracketText rest).length+1, .inQuotedIdentifier⟩ := by
        simp [splitBody, skipBracketIdentifier_eq, hclosed, apostrophe, backtick, bind, Except.bind,
          pure, Except.pure]
      exact splitReads_turn hhead hreads hbody (hpass hreads (quiet_bracketed _ _)) (ih _ _)
    | openBracket hc hopen hreads =>
      subst hc
      refine splitReads_error hreads (by simp) ?_
      simp only [splitBody, apostrophe, Char.reduceEq, reduceIte, backtick, or_self, bind, Except.bind,
        skipBracketIdentifier_eq, hopen]
      rfl
    | line more hc hrest hhead hreads =>
      subst hc hrest
      have hbody : splitBody s '-' ('-' :: more) = .ok ⟨s.pass '-' ('-' :: more)
          (1+lineComment more), 1+lineComment more, .inComment⟩ := by
        simp [splitBody, apostrophe, backtick]
      exact splitReads_turn hhead hreads hbody (hpass hreads (quiet_comment _)) (ih _ _)
    | block more n hc hrest hskip hhead hreads =>
      subst hc hrest
      have hbody : splitBody s '/' ('*' :: more) = .ok ⟨s.pass '/' ('*' :: more) (1+n), 1+n,
          .inComment⟩ := by
        simp [splitBody, hskip, apostrophe, backtick, bind, Except.bind, pure, Except.pure]
      exact splitReads_turn hhead hreads hbody (hpass hreads (quiet_comment _)) (ih _ _)
    | openBlock more error hc hrest hskip hhead hreads =>
      subst hc hrest
      have hbody : splitBody s '/' ('*' :: more) = .error .unterminatedComment := by
        simp [splitBody, hskip, skipBlockComment_error hskip, apostrophe, backtick, bind, Except.bind]
      refine splitReads_error hreads ?_ ?_
      · cases more <;> simp [blockEnding]
      · rw [hbody]
        cases more <;> rfl
    | word hplain hc hhead hreads =>
      refine splitReads_turn hhead hreads (splitBody_word hplain hc) ?_ (ih _ _)
      rw [Head.events, readAll_word s (by simp [hreads.1])]
      rfl
    | plain hplain hc hhead hreads =>
      have hevents : s.readAll (c :: rest.take 0) ((Head.plain c).events 0) = s.read (c, .code c) := by
        simp [Split.readAll, Head.events]
      have hbody := splitBody_plain (s := s) hplain hc
      cases hread : s.read (c, .code c) with
      | ok t =>
        rw [hread] at hbody hevents
        exact splitReads_turn hhead hreads hbody hevents (ih _ _)
      | error error =>
        rw [hread] at hbody hevents
        rw [SplitReads, loop_error hbody, readAll_continues hreads, hevents]
        rfl

def TopLevel.read (s : TopLevel) : Event → Except SqlScanError TopLevel
  | .code c =>
    if c = '(' then .ok { s with depth := s.depth+1 }
    else if c = ')' then
      if s.depth = 0 then .error .unbalancedParenthesis else .ok { s with depth := s.depth-1 }
    else .ok s
  | .word value =>
    .ok (if s.depth = 0 then { s with words := s.words ++ [toAsciiUppercase value] } else s)
  | _ => .ok s

def TopLevelReads (s : TopLevel) (text : List Char) : Prop :=
  loop topLevelBody s .code 0 text = ((reading text).1.foldlM TopLevel.read s).bind fun last =>
    if (reading text).2 = .complete then .ok (last, classes text)
    else .error (reading text).2.scanError

theorem topLevel_quiet (s : TopLevel) {events : List Event} (hquiet : Quiet events) :
    events.foldlM TopLevel.read s = .ok s := by
  induction events with
  | nil => rfl
  | cons event events ih =>
    obtain ⟨hcode, hword⟩ := hquiet event (by simp)
    have hstep : s.read event = .ok s := by
      cases event with
      | code c => exact absurd rfl (hcode c)
      | word value => exact absurd rfl (hword value)
      | quoted quote value => rfl
      | bracketed value => rfl
      | comment => rfl
      | inside => rfl
    rw [List.foldlM_cons, hstep]
    exact ih fun event' hmem => hquiet event' (List.mem_cons_of_mem event hmem)

theorem topLevelReads_turn {s t : TopLevel} {c : Char} {rest : List Char} {h : Head} {n : Nat}
    (hhead : head c rest = (h, n)) (hreads : Continues c rest h n)
    (hbody : loop topLevelBody s .code 0 (c :: rest) =
      (loop topLevelBody t .code 0 (rest.drop n)).map fun (last, labels) =>
        (last, List.replicate (n+1) h.byteClass ++ labels))
    (hevents : (h.events n).foldlM TopLevel.read s = .ok t)
    (ih : TopLevelReads t (rest.drop n)) : TopLevelReads s (c :: rest) := by
  rw [TopLevelReads, hbody, ih, hreads.2, List.foldlM_append, hevents, classes_cons hhead]
  simp only [Except.bind, bind]
  cases (reading (rest.drop n)).1.foldlM TopLevel.read t with
  | error error => rfl
  | ok last =>
    simp only
    split
    · simp [Except.map]
    · rfl

theorem topLevel_loop {s t : TopLevel} {c : Char} {rest : List Char} {h : Head} {n : Nat}
    (hreads : Continues c rest h n) (hbody : topLevelBody s c rest = .ok ⟨t, n, h.byteClass⟩) :
    loop topLevelBody s .code 0 (c :: rest) =
      (loop topLevelBody t .code 0 (rest.drop n)).map fun (last, labels) =>
        (last, List.replicate (n+1) h.byteClass ++ labels) := by
  rw [loop_turn .code hbody, Nat.min_eq_left hreads.1]
  rfl

theorem topLevelReads_error {s : TopLevel} {c : Char} {rest : List Char} {e : Ending}
    (hreads : Stops c rest e) (he : e ≠ .complete)
    (hbody : topLevelBody s c rest = .error e.scanError) : TopLevelReads s (c :: rest) := by
  have hquiet : (reading (c :: rest)).1.foldlM TopLevel.read s = .ok s := by
    rw [hreads]
    exact topLevel_quiet s (quiet_unclosed e _)
  rw [TopLevelReads, loop_error hbody, hquiet, hreads]
  simp [he, Except.bind]

theorem topLevelBody_quote {s : TopLevel} {c : Char} {rest : List Char}
    (h : Lexical.isQuote c = true) :
    topLevelBody s c rest = (decodeQuoted c rest).elim (.error (Ending.inQuote c).scanError)
      fun r => .ok ⟨s, r.1, quoteClass c⟩ := by
  have hquote : (if c = apostrophe then SqlScanError.unterminatedString else .unterminatedIdentifier) =
      (Ending.inQuote c).scanError := rfl
  by_cases hc : c = apostrophe
  · rw [topLevelBody, if_pos hc, ← hquote, if_pos hc, skipQuoted_eq, quoteClass, if_pos hc]
    cases decodeQuoted c rest <;> rfl
  · have hother : c = '"' ∨ c = backtick := (quote_cases h).resolve_left hc
    rw [topLevelBody, if_neg hc, if_pos hother, ← hquote, if_neg hc, skipQuoted_eq, quoteClass,
      if_neg hc]
    cases decodeQuoted c rest <;> rfl

theorem plainStart_of_word {c : Char} (rest : List Char) (h : isWordContinue c = true) :
    PlainStart c rest ∧ c ≠ '(' ∧ c ≠ ')' := by
  have hne (d : Char) (hd : isWordContinue d = false) : c ≠ d := by
    intro heq
    rw [heq, hd] at h
    cases h
  refine ⟨⟨?_, hne _ (by decide), ?_, ?_⟩, hne _ (by decide), hne _ (by decide)⟩
  · simp only [Lexical.isQuote, Bool.or_eq_false_iff, decide_eq_false_iff_not]
    exact ⟨⟨hne _ (by decide), hne _ (by decide)⟩, hne _ (by decide)⟩
  · exact fun hc => hne '-' (by decide) hc.1
  · exact fun hc => hne '/' (by decide) hc.1

/-- Inside parentheses the classifier goes through a word one character at a time. -/
theorem topLevel_word_inside {s : TopLevel} (hdepth : s.depth ≠ 0) {word : List Char} (rest : List Char)
    (hword : ∀ c ∈ word, isWordContinue c = true) :
    loop topLevelBody s .code 0 (word ++ rest) =
      (loop topLevelBody s .code 0 rest).map fun (last, labels) =>
        (last, List.replicate word.length .code ++ labels) := by
  induction word with
  | nil =>
    cases hloop : loop topLevelBody s .code 0 rest <;> simp [hloop, Except.map]
  | cons c word ih =>
    obtain ⟨hplain, hopen, hclose⟩ := plainStart_of_word (word ++ rest) (hword c (by simp))
    have hbody : topLevelBody s c (word ++ rest) = .ok ⟨s, 0, .code⟩ := by
      simp only [topLevelBody, hplain.ne_apostrophe, hplain.bracket, hplain.line, hplain.block, hopen,
        hclose, hdepth, if_false, false_and]
    rw [List.cons_append, loop_turn .code hbody, List.drop_zero,
      ih fun d hd => hword d (List.mem_cons_of_mem c hd)]
    cases loop topLevelBody s .code 0 rest <;> simp [Except.map, List.replicate_succ]

theorem wordContinue_of_wordStart {c : Char} (h : isWordStart c = true) : isWordContinue c = true := by
  simp only [isWordStart, isWordContinue, Char.isAlphanum, Bool.or_eq_true, decide_eq_true_eq] at h ⊢
  tauto

theorem topLevelReads_word {s : TopLevel} {c : Char} {rest : List Char} (hplain : PlainStart c rest)
    (hc : isWordStart c = true)
    (hreads : Continues c rest (.word (c :: rest.takeWhile isWordContinue))
      (rest.takeWhile isWordContinue).length) :
    loop topLevelBody s .code 0 (c :: rest) =
      (loop topLevelBody
        (if s.depth = 0 then
          { s with words := s.words ++ [toAsciiUppercase (c :: rest.takeWhile isWordContinue)] }
        else s) .code 0 (rest.drop (rest.takeWhile isWordContinue).length)).map
      fun (last, labels) =>
        (last, List.replicate ((rest.takeWhile isWordContinue).length+1) .code ++ labels) := by
  by_cases hdepth : s.depth = 0
  · have hopen : c ≠ '(' := wordStart_ne hc (by decide)
    have hclose : c ≠ ')' := wordStart_ne hc (by decide)
    rw [if_pos hdepth]
    refine topLevel_loop (h := .word _) hreads ?_
    simp only [topLevelBody, hplain.ne_apostrophe, hplain.bracket, hplain.line, hplain.block, hopen,
      hclose, hc, hdepth, if_false, and_self, if_true]
    rfl
  · have hsplit : c :: rest = (c :: rest.takeWhile isWordContinue) ++
        rest.drop (rest.takeWhile isWordContinue).length := by
      rw [List.cons_append]
      exact congrArg _ (List.prefix_iff_eq_append.mp (List.takeWhile_prefix isWordContinue)).symm
    have hword : ∀ d ∈ c :: rest.takeWhile isWordContinue, isWordContinue d = true := by
      intro d hd
      obtain rfl | hd := List.mem_cons.mp hd
      · exact wordContinue_of_wordStart hc
      · exact List.all_eq_true.mp List.all_takeWhile d hd
    rw [if_neg hdepth, hsplit, topLevel_word_inside hdepth _ hword]
    simp

/-- The classifier reads every text as the machine does. -/
theorem topLevelReads (s : TopLevel) (text : List Char) : TopLevelReads s text := by
  induction text using head_induction generalizing s with
  | nil => simp [TopLevelReads, reading_nil, loop, classes, pure, Except.pure, Except.bind]
  | cons c rest ih =>
    cases headCase c rest with
    | quoted n value hquote hdecode hhead hreads =>
      exact topLevelReads_turn hhead hreads
        (topLevel_loop hreads (by rw [topLevelBody_quote hquote, hdecode]; rfl))
        (topLevel_quiet s (quiet_quoted c value n)) (ih _ _)
    | openQuote hquote hdecode hreads =>
      exact topLevelReads_error hreads (by simp) (by rw [topLevelBody_quote hquote, hdecode]; rfl)
    | bracketed hc hclosed hhead hreads =>
      subst hc
      have hbody : topLevelBody s '[' rest = .ok ⟨s, (bracketText rest).length+1,
          .inQuotedIdentifier⟩ := by
        simp [topLevelBody, hclosed, apostrophe, backtick]
      exact topLevelReads_turn hhead hreads (topLevel_loop hreads hbody)
        (topLevel_quiet s (quiet_bracketed _ _)) (ih _ _)
    | openBracket hc hopen hreads =>
      subst hc
      refine topLevelReads_error hreads (by simp) ?_
      simp only [topLevelBody, apostrophe, Char.reduceEq, reduceIte, backtick, or_self, hopen]
      rfl
    | line more hc hrest hhead hreads =>
      subst hc hrest
      have hbody : topLevelBody s '-' ('-' :: more) = .ok ⟨s, 1+lineComment more, .inComment⟩ := by
        simp [topLevelBody, apostrophe, backtick]
      exact topLevelReads_turn hhead hreads (topLevel_loop hreads hbody)
        (topLevel_quiet s (quiet_comment _)) (ih _ _)
    | block more n hc hrest hskip hhead hreads =>
      subst hc hrest
      have hbody : topLevelBody s '/' ('*' :: more) = .ok ⟨s, 1+n, .inComment⟩ := by
        simp [topLevelBody, hskip, apostrophe, backtick, bind, Except.bind, pure, Except.pure]
      exact topLevelReads_turn hhead hreads (topLevel_loop hreads hbody)
        (topLevel_quiet s (quiet_comment _)) (ih _ _)
    | openBlock more error hc hrest hskip hhead hreads =>
      subst hc hrest
      have hbody : topLevelBody s '/' ('*' :: more) = .error .unterminatedComment := by
        simp [topLevelBody, hskip, skipBlockComment_error hskip, apostrophe, backtick, bind,
          Except.bind]
      refine topLevelReads_error hreads ?_ ?_
      · cases more <;> simp [blockEnding]
      · rw [hbody]
        cases more <;> rfl
    | word hplain hc hhead hreads =>
      refine topLevelReads_turn hhead hreads (topLevelReads_word hplain hc hreads) ?_ (ih _ _)
      rw [Head.events, List.foldlM_append, topLevel_quiet s (quiet_inside _)]
      simp [TopLevel.read, bind, Except.bind, pure, Except.pure]
    | plain hplain hc hhead hreads =>
      have hbody : topLevelBody s c rest = (s.read (.code c)).map fun t => ⟨t, 0, .code⟩ := by
        simp only [topLevelBody, hplain.ne_apostrophe, hplain.bracket, hplain.line, hplain.block, hc,
          if_false, TopLevel.read, Bool.false_eq_true, and_false]
        split
        · rfl
        · split
          · split <;> rfl
          · rfl
      have hevents : ((Head.plain c).events 0).foldlM TopLevel.read s = s.read (.code c) := by
        simp [Head.events]
      cases hread : s.read (.code c) with
      | ok t =>
        rw [hread] at hbody hevents
        exact topLevelReads_turn hhead hreads (topLevel_loop hreads hbody) hevents (ih _ _)
      | error error =>
        rw [hread] at hbody hevents
        rw [TopLevelReads, loop_error hbody, hreads.2, List.foldlM_append, hevents]
        rfl

def splitClasses (sql : List Char) : Except SqlScanError (List ByteClass) :=
  (loop splitBody {} .code 0 sql).map Prod.snd

def lexClasses (sql : List Char) : Except RlsParseError (List ByteClass) :=
  (loop (lexBody true) {} .code 0 sql).map Prod.snd

def topLevelClasses (sql : List Char) : Except SqlScanError (List ByteClass) :=
  (loop topLevelBody {} .code 0 sql).map Prod.snd

/-- The scanners accept the same text and take every character of it for the same. -/
structure ScannersAgree (sql : List Char) : Prop where
  accept : (splitSqlStatements sql).isOk = (lex sql true).isOk
  classes : (splitSqlStatements sql).isOk = true → ∃ labels, labels.length = sql.length ∧
    splitClasses sql = .ok labels ∧ lexClasses sql = .ok labels ∧ topLevelClasses sql = .ok labels ∧
    (topLevelWords sql).isOk = true

def EndsAtBlock (sql : List Char) : Prop :=
  ∃ before, sql = before ++ ['/', '*'] ∧ (Lexical.run scannerRules .code before).2 = .code

theorem run_block_opening {mode : Mode} (hvalid : mode.Valid) :
    (Lexical.run scannerRules mode ['/', '*']).2 = .block [] ↔ mode = .code := by
  cases mode with
  | code => exact iff_of_true (by decide) rfl
  | word read => simp [Lexical.run, Lexical.step, Lexical.wordTo, Lexical.codeStep, scannerRules,
      isWordContinue, isWordStart, Lexical.isQuote]
  | quoted quote read =>
    have hslash : '/' ≠ quote := by
      intro heq
      have hquote : Lexical.isQuote '/' = true := heq ▸ hvalid
      exact absurd hquote (by decide)
    by_cases hstar : '*' = quote
    · simp [Lexical.run, Lexical.step, ← hstar]
    · simp [Lexical.run, Lexical.step, hslash, hstar]
  | otherQuote quote read =>
    by_cases hstar : '*' = quote
    · simp [Lexical.run, Lexical.step, ← hstar]
    · simp [Lexical.run, Lexical.step, hstar]
  | bracketed read => simp [Lexical.run, Lexical.step]
  | otherHyphen => simp [Lexical.run, Lexical.step, scannerRules, isLineEnd]
  | line read => simp [Lexical.run, Lexical.step, scannerRules, isLineEnd]
  | star => simp [Lexical.run, Lexical.step]
  | block read => simp [Lexical.run, Lexical.step]
  | slash => simp [Lexical.run, Lexical.step, Lexical.codeStep, Lexical.isQuote, scannerRules,
      isWordStart]

theorem step_before_slash {mode : Mode} (hvalid : mode.Valid) (c : Char) :
    (Lexical.step scannerRules mode c (some '/')).1 = .code ↔
      (Lexical.step scannerRules mode c none).1 = .code := by
  have hword : isWordContinue '/' = false := by decide
  cases mode with
  | code => simp [Lexical.step, Lexical.codeStep, Lexical.wordTo, scannerRules, hword]
  | word read => simp [Lexical.step, Lexical.wordTo, scannerRules, hword]
  | quoted quote read =>
    have hslash : '/' ≠ quote := by
      intro heq
      have hquote : Lexical.isQuote '/' = true := heq ▸ hvalid
      exact absurd hquote (by decide)
    by_cases hc : c = quote <;> simp [Lexical.step, hc, hslash]
  | otherQuote quote read => simp [Lexical.step]
  | bracketed read => simp [Lexical.step]
  | otherHyphen => simp [Lexical.step]
  | line read => simp [Lexical.step]
  | star => simp [Lexical.step]
  | block read => by_cases hc : c = '*' <;> simp [Lexical.step, hc]
  | slash => simp [Lexical.step]

theorem run_append_opening (mode : Mode) (hvalid : mode.Valid) (before : List Char) :
    (Lexical.run scannerRules mode (before ++ ['/', '*'])).2 = .block [] ↔
      (Lexical.run scannerRules mode before).2 = .code := by
  induction before generalizing mode with
  | nil => exact run_block_opening hvalid
  | cons c rest ih =>
    rw [List.cons_append, run_cons, run_cons]
    cases rest with
    | nil =>
      refine (run_block_opening (Lexical.step_valid _ hvalid c _)).trans ?_
      exact step_before_slash hvalid c
    | cons d rest => exact ih _ (Lexical.step_valid _ hvalid c _)

theorem step_eq_block {mode : Mode} {c : Char} {next : Option Char}
    (h : (Lexical.step scannerRules mode c next).1 = .block []) : mode = .star := by
  cases mode with
  | star => rfl
  | code =>
    simp only [Lexical.step, Lexical.codeStep, Lexical.wordTo] at h
    split_ifs at h
  | word read =>
    simp only [Lexical.step, Lexical.wordTo] at h
    split at h <;> cases h
  | quoted quote read =>
    simp only [Lexical.step] at h
    split_ifs at h
  | otherQuote quote read => cases h
  | bracketed read =>
    simp only [Lexical.step] at h
    split at h <;> cases h
  | otherHyphen => cases h
  | line read =>
    simp only [Lexical.step] at h
    split at h <;> cases h
  | block read =>
    simp only [Lexical.step] at h
    split at h <;> simp at h
  | slash => cases h

theorem step_eq_star {mode : Mode} {c : Char} {next : Option Char}
    (h : (Lexical.step scannerRules mode c next).1 = .star) :
    mode = .code ∧ c = '/' ∧ next = some '*' := by
  cases mode with
  | star => cases h
  | code =>
    simp only [Lexical.step, Lexical.codeStep, Lexical.wordTo] at h
    split_ifs at h
    exact ⟨rfl, by assumption⟩
  | word read =>
    simp only [Lexical.step, Lexical.wordTo] at h
    split at h <;> cases h
  | quoted quote read =>
    simp only [Lexical.step] at h
    split_ifs at h
  | otherQuote quote read => cases h
  | bracketed read =>
    simp only [Lexical.step] at h
    split at h <;> cases h
  | otherHyphen => cases h
  | line read =>
    simp only [Lexical.step] at h
    split at h <;> cases h
  | block read =>
    simp only [Lexical.step] at h
    split at h <;> cases h
  | slash => cases h

/-- A block comment that the text ends with was opened by its last two characters. -/
theorem exists_opening {mode : Mode} {text : List Char}
    (h : (Lexical.run scannerRules mode text).2 = .block []) :
    (mode = .block [] ∧ text = []) ∨ (mode = .star ∧ text.length = 1) ∨
      ∃ before, text = before ++ ['/', '*'] := by
  induction text generalizing mode with
  | nil => exact .inl ⟨h, rfl⟩
  | cons c rest ih =>
    rw [run_cons] at h
    obtain ⟨hmode, rfl⟩ | ⟨hmode, hlength⟩ | ⟨before, rfl⟩ := ih h
    · exact .inr (.inl ⟨step_eq_block hmode, rfl⟩)
    · obtain ⟨_, rfl, hnext⟩ := step_eq_star hmode
      obtain ⟨more, rfl⟩ := List.head?_eq_some_iff.mp hnext
      have hmore : more = [] := by simpa using hlength
      exact .inr (.inr ⟨[], by simp [hmore]⟩)
    · exact .inr (.inr ⟨c :: before, rfl⟩)

theorem reading_atBlock_iff (sql : List Char) : (reading sql).2 = .atBlock ↔ EndsAtBlock sql := by
  have hending (mode : Mode) : ending mode = .atBlock ↔ mode = .block [] := by
    cases mode with
    | block read => cases read <;> simp [ending]
    | _ => simp [ending]
  rw [reading, hending, EndsAtBlock]
  constructor
  · intro h
    obtain ⟨hmode, _⟩ | ⟨hmode, _⟩ | ⟨before, rfl⟩ := exists_opening h
    · cases hmode
    · cases hmode
    · exact ⟨before, rfl, (run_append_opening .code trivial before).mp h⟩
  · intro h
    obtain ⟨before, rfl, hcode⟩ := h
    exact (run_append_opening .code trivial before).mpr hcode

/-- Parentheses are counted alike: where the splitter gets through, so does the classifier. -/
theorem topLevel_of_split {s last : Split} {t : TopLevel} (hdepth : t.depth = s.depth)
    {text : List Char} {events : List Event} (hlength : text.length = events.length)
    (h : s.readAll text events = .ok last) :
    ∃ t', events.foldlM TopLevel.read t = .ok t' ∧ t'.depth = last.depth := by
  induction events generalizing s t text with
  | nil =>
    cases text with
    | nil =>
      cases h
      exact ⟨t, rfl, hdepth⟩
    | cons c rest => simp at hlength
  | cons event events ih =>
    cases text with
    | nil => simp at hlength
    | cons c rest =>
      simp only [Split.readAll, List.zip_cons_cons, List.foldlM_cons, bind_ok_iff] at h
      obtain ⟨s', hstep, hrest⟩ := h
      have hnext : ∃ t', t.read event = .ok t' ∧ t'.depth = s'.depth := by
        cases event with
        | code d =>
          simp only [Split.read, TopLevel.read, hdepth] at hstep ⊢
          split_ifs at hstep ⊢ with hopen hclose hzero hend <;> cases hstep <;>
            exact ⟨_, rfl, by simp [hdepth]⟩
        | word value =>
          cases hstep
          refine ⟨_, rfl, ?_⟩
          split_ifs <;> simp_all [Split.topLevelWord]
        | _ =>
          cases hstep
          exact ⟨t, rfl, hdepth⟩
      obtain ⟨t', hread, hdepth'⟩ := hnext
      rw [List.foldlM_cons, hread]
      exact ih hdepth' (by simpa using hlength) hrest

theorem isOk_map {ε α β : Type} (f : α → β) (x : Except ε α) : (x.map f).isOk = x.isOk := by
  cases x <;> rfl

theorem lex_isOk (sql : List Char) : (lex sql true).isOk = (reading sql).2.lexes := by
  have hreads := lexReads {} sql
  rw [lex, isOk_map]
  simp only [LexReads] at hreads
  split at hreads
  · next hlexes =>
    obtain ⟨s, hloop, _⟩ := hreads
    rw [hloop, hlexes]
    rfl
  · next hfails =>
    rw [hreads]
    simpa [Except.isOk, Except.toBool] using hfails

/-- The splitter gets through a complete text with balanced parentheses. -/
theorem splitSqlStatements_eq (sql : List Char) :
    splitSqlStatements sql = (({} : Split).readAll sql (reading sql).1).bind fun last =>
      if (reading sql).2 = .complete then
        if last.depth = 0 then .ok last.close else .error .unbalancedParenthesis
      else .error (reading sql).2.scanError := by
  have hreads := splitReads {} sql
  rw [SplitReads] at hreads
  rw [splitSqlStatements, hreads]
  cases ({} : Split).readAll sql (reading sql).1 with
  | error error => rfl
  | ok last =>
    by_cases hcomplete : (reading sql).2 = .complete
    · by_cases hdepth : last.depth = 0 <;>
        simp [hcomplete, hdepth, Except.bind, bind, require, pure, Except.pure]
    · simp [hcomplete, Except.bind, bind]

/-- An event fails for its parenthesis alone. -/
theorem Split.read_error {s : Split} {x : Char × Event} {error : SqlScanError}
    (h : s.read x = .error error) : error = .unbalancedParenthesis := by
  obtain ⟨c, event⟩ := x
  cases event with
  | code d =>
    simp only [Split.read] at h
    split_ifs at h
    cases h
    rfl
  | _ => cases h

theorem Split.readAll_error {s : Split} {text : List Char} {events : List Event}
    {error : SqlScanError} (h : s.readAll text events = .error error) :
    error = .unbalancedParenthesis := by
  rw [Split.readAll] at h
  generalize text.zip events = pairs at h
  induction pairs generalizing s with
  | nil => cases h
  | cons x xs ih =>
    rw [List.foldlM_cons] at h
    cases hread : s.read x with
    | error e =>
      rw [hread] at h
      cases h
      exact Split.read_error hread
    | ok t =>
      rw [hread] at h
      exact ih h

/-- A text that is not rejected for its parentheses is read to its end. -/
theorem readAll_of_balanced {sql : List Char}
    (h : splitSqlStatements sql ≠ .error .unbalancedParenthesis) :
    ∃ last, ({} : Split).readAll sql (reading sql).1 = .ok last ∧
      splitSqlStatements sql = if (reading sql).2 = .complete then .ok last.close
        else .error (reading sql).2.scanError := by
  rw [splitSqlStatements_eq] at h ⊢
  cases hread : ({} : Split).readAll sql (reading sql).1 with
  | error error =>
    rw [hread, Split.readAll_error hread] at h
    exact absurd rfl h
  | ok last =>
    refine ⟨last, rfl, ?_⟩
    rw [hread] at h
    simp only [Except.bind] at h ⊢
    split_ifs at h ⊢ with hcomplete hdepth
    · rfl
    · exact absurd rfl h
    · rfl

theorem splitSqlStatements_isOk {sql : List Char}
    (h : splitSqlStatements sql ≠ .error .unbalancedParenthesis) :
    (splitSqlStatements sql).isOk = true ↔ (reading sql).2 = .complete := by
  obtain ⟨last, _, heq⟩ := readAll_of_balanced h
  rw [heq]
  split_ifs with hcomplete
  · exact iff_of_true rfl hcomplete
  · exact iff_of_false (by simp [Except.isOk, Except.toBool]) hcomplete

/-- What the scanners take the characters of an accepted text for. -/
theorem classes_of_split {sql : List Char} (h : (splitSqlStatements sql).isOk = true) :
    splitClasses sql = .ok (classes sql) ∧ lexClasses sql = .ok (classes sql) ∧
      topLevelClasses sql = .ok (classes sql) ∧ (topLevelWords sql).isOk = true := by
  have hbalanced : splitSqlStatements sql ≠ .error .unbalancedParenthesis := by
    intro hfails
    rw [hfails] at h
    cases h
  have hcomplete := (splitSqlStatements_isOk hbalanced).mp h
  obtain ⟨last, hread, _⟩ := readAll_of_balanced hbalanced
  have hdepth : last.depth = 0 := by
    by_contra hdepth
    apply hbalanced
    rw [splitSqlStatements_eq, hread]
    simp [Except.bind, hcomplete, hdepth]
  obtain ⟨top, htop, htopDepth⟩ := topLevel_of_split (s := {}) (t := {}) rfl
    (reading_length sql).symm hread
  have hsplit := splitReads {} sql
  have hlex := lexReads {} sql
  have hwords := topLevelReads {} sql
  simp only [SplitReads, hread, Except.bind, hcomplete, if_true] at hsplit
  simp only [LexReads, hcomplete, Ending.lexes, if_true] at hlex
  simp only [TopLevelReads, htop, Except.bind, hcomplete, if_true] at hwords
  obtain ⟨tokens, hlex, _⟩ := hlex
  refine ⟨?_, ?_, ?_, ?_⟩
  · rw [splitClasses, hsplit]
    rfl
  · rw [lexClasses, hlex]
    rfl
  · rw [topLevelClasses, hwords]
    rfl
  · rw [topLevelWords, hwords]
    simp [bind, Except.bind, require, htopDepth, hdepth, pure, Except.pure, Except.isOk,
      Except.toBool]

/-- Of the texts whose parentheses are balanced, the scanners agree on exactly those that do
not end with the opening of a block comment. -/
theorem scanners_agree_iff (sql : List Char)
    (hbalanced : splitSqlStatements sql ≠ .error .unbalancedParenthesis) :
    ScannersAgree sql ↔ ¬EndsAtBlock sql := by
  have hsplit := splitSqlStatements_isOk hbalanced
  have hlex := lex_isOk sql
  rw [← reading_atBlock_iff]
  constructor
  · intro hagree hatBlock
    have haccept := hagree.accept
    rw [hlex, hatBlock, Ending.lexes, hsplit, hatBlock] at haccept
    cases haccept
  · intro hatBlock
    refine ⟨?_, fun hok => ?_⟩
    · rw [hlex, Bool.eq_iff_iff, hsplit]
      cases hending : (reading sql).2 with
      | complete => simp [Ending.lexes]
      | atBlock => exact absurd hending hatBlock
      | _ => simp [Ending.lexes]
    · obtain ⟨hs, hl, ht, hwords⟩ := classes_of_split hok
      refine ⟨classes sql, ?_, hs, hl, ht, hwords⟩
      rw [splitClasses] at hs
      cases hloop : loop splitBody {} .code 0 sql with
      | error error =>
        rw [hloop] at hs
        cases hs
      | ok last =>
        rw [hloop] at hs
        have hlabels : last.2 = classes sql := Except.ok.inj hs
        rw [← hlabels]
        exact loop_length hloop

theorem scanners_agree_select :
    ScannersAgree "SELECT auth.uid() /* ; */ FROM t WHERE x = '('".toList := by
  refine (scanners_agree_iff _ (by decide +kernel)).mpr ?_
  rw [← reading_atBlock_iff]
  decide +kernel

/-- The lexer takes a comment for closed when nothing stands behind its opening. -/
theorem scanners_disagree_open_block :
    splitSqlStatements "SELECT 1 /*".toList = .error .unterminatedComment ∧
      (lex "SELECT 1 /*".toList true).isOk = true ∧ ¬ScannersAgree "SELECT 1 /*".toList := by
  have hsplit : splitSqlStatements "SELECT 1 /*".toList = .error .unterminatedComment := by
    decide +kernel
  have hlex : (lex "SELECT 1 /*".toList true).isOk = true := by decide +kernel
  refine ⟨hsplit, hlex, fun hagree => ?_⟩
  have haccept := hagree.accept
  rw [hsplit, hlex] at haccept
  cases haccept

end Ffdb.Sql
