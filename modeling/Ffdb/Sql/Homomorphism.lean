import Ffdb.Sql.Rewriting
import Ffdb.Sql.Splitting

/-! The rewriting of `auth.*` calls, also in a text with comments: its tokens are those of the text with every
call under its private name, and the text around the calls is kept as it stands. -/
namespace Ffdb.Sql
open Text Fallible Scan

/-- What the lexer passes over in one turn, before a given character: a lexeme, or a comment where they are
allowed. A text may end with the opening of a block comment. -/
inductive Passage (allow : Bool) : List Char → Option Char → List TokenKind → Prop
  | lexeme {text : List Char} {next : Option Char} {kinds : List TokenKind} (h : Lexeme text next kinds) :
      Passage allow text next kinds
  | line {comment : List Char} {next : Option Char} (hallow : allow = true)
      (hcomment : ∀ c ∈ comment, isLineEnd c = false) (hnext : next.all isLineEnd = true) :
      Passage allow ('-' :: '-' :: comment) next []
  | block {comment : List Char} {next : Option Char} (hallow : allow = true)
      (hcomment : skipBlockComment (comment ++ ['*', '/']) = .ok (comment.length+2)) :
      Passage allow ('/' :: '*' :: (comment ++ ['*', '/'])) next []
  | opening (hallow : allow = true) : Passage allow ['/', '*'] none []

inductive Passages (allow : Bool) : List Char → List TokenKind → Prop
  | nil : Passages allow [] []
  | cons {text rest : List Char} {kinds more : List TokenKind} (h : Passage allow text rest.head? kinds)
      (hrest : Passages allow rest more) : Passages allow (text ++ rest) (kinds ++ more)

inductive Placed (allow : Bool) : Nat → List Char → List Token → Prop
  | nil {index : Nat} : Placed allow index [] []
  | cons {index : Nat} {text rest : List Char} {kinds : List TokenKind} {emitted tokens : List Token}
      (h : Passage allow text rest.head? kinds) (hemits : Emits index text kinds emitted)
      (hrest : Placed allow (index+byteLength text) rest tokens) : Placed allow index (text ++ rest) (emitted ++ tokens)

section Lexer
variable {allow : Bool} {text : List Char} {next : Option Char} {kinds : List TokenKind} {s : Lexing}

theorem Passage.ne_nil (h : Passage allow text next kinds) : text ≠ [] := by
  cases h with
  | lexeme h => exact h.ne_nil
  | _ => simp

/-- A block comment is closed where it is closed at first, whatever follows. -/
theorem skipBlockComment_append {comment : List Char} {n : Nat} (h : skipBlockComment comment = .ok n)
    (rest : List Char) : skipBlockComment (comment ++ rest) = .ok n := by
  fun_induction skipBlockComment comment generalizing n with
  | case1 => cases h
  | case2 => cases h
  | case3 c c' comment hclose =>
    cases h
    simp [skipBlockComment, hclose]
  | case4 c c' comment hopen ih =>
    cases hm : skipBlockComment (c' :: comment) with
    | error e =>
      rw [hm] at h
      cases h
    | ok m =>
      rw [hm] at h
      cases h
      rw [List.cons_append, List.cons_append, skipBlockComment, if_neg hopen, ← List.cons_append, ih hm]
      rfl

theorem lexBlockComment_append {comment : List Char} {n : Nat} (h : skipBlockComment comment = .ok n)
    (rest : List Char) : lexBlockComment (comment ++ rest) = some n := by
  have hskip := skipBlockComment_append h rest
  cases hall : comment ++ rest with
  | nil =>
    rw [hall] at hskip
    cases hskip
  | cons c all =>
    rw [hall] at hskip
    rw [lexBlockComment_eq, hskip]
    rfl

theorem lineComment_append {comment rest : List Char} (hcomment : ∀ c ∈ comment, isLineEnd c = false)
    (hrest : rest.head?.all isLineEnd = true) : lineComment (comment ++ rest) = comment.length := by
  have htake := @takeWhile_append_stop (fun c => !isLineEnd c) comment rest (fun c hc => by simp [hcomment c hc]) (by
    cases rest with
    | nil => rfl
    | cons c rest => simpa using hrest)
  rw [lineComment, htake]

theorem passes_comment (s : Lexing) (c : Char) (more rest : List Char) :
    Passes s (c :: more) [] (s.pass c (more ++ rest) more.length) where
  index := by
    simp only [Lexing.pass, List.take_left', byteLength_cons]
    omega
  tokens := ⟨[], by simp [Lexing.pass], rfl, by simp⟩

/-- The lexer goes through the text in such turns. -/
theorem lexBody_passage (s : Lexing) {c : Char} {more rest : List Char}
    (h : Passage allow (c :: more) rest.head? kinds) :
    ∃ t skip label, lexBody allow s c (more ++ rest) = .ok ⟨t, skip, label⟩ ∧ (more ++ rest).drop skip = rest ∧
      Passes s (c :: more) kinds t := by
  generalize hnext : rest.head? = next at h
  generalize htext : c :: more = text at h
  cases h with
  | lexeme h =>
    subst hnext htext
    obtain ⟨t, label, hturn, hpasses⟩ := lexBody_lexeme allow s h
    exact ⟨t, _, label, hturn, List.drop_left, hpasses⟩
  | @line comment _ hallow hcomment hend =>
    obtain ⟨rfl, rfl⟩ := List.cons.inj htext
    subst hnext
    refine ⟨_, ('-' :: comment).length, .inComment, ?_, List.drop_left, passes_comment s '-' ('-' :: comment) rest⟩
    simp [lexBody, isAsciiWhitespace, hallow, lineComment_append hcomment hend, Nat.add_comm]
  | @block comment _ hallow hcomment =>
    obtain ⟨rfl, rfl⟩ := List.cons.inj htext
    refine ⟨_, ('*' :: (comment ++ ['*', '/'])).length, .inComment, ?_, List.drop_left,
      passes_comment s '/' ('*' :: (comment ++ ['*', '/'])) rest⟩
    have hlength : 1+(comment.length+2) = ('*' :: (comment ++ ['*', '/'])).length := by
      simp only [List.length_cons, List.length_append, List.length_nil]
      omega
    rw [hallow, List.cons_append, lexBody_block, lexBlockComment_append hcomment rest]
    simp only [hlength]
  | opening hallow =>
    obtain ⟨rfl, rfl⟩ := List.cons.inj htext
    obtain rfl : rest = [] := by simpa using hnext
    refine ⟨s.pass '/' ['*'] 3, 3, .inComment, ?_, rfl, ?_⟩
    · rw [hallow, List.append_nil, lexBody_block]
      rfl
    · exact passes_comment s '/' ['*'] []

theorem lexBody_allow {c : Char} {rest : List Char} (hline : ¬(c = '-' ∧ rest.head? = some '-'))
    (hblock : ¬(c = '/' ∧ rest.head? = some '*')) : lexBody true s c rest = lexBody false s c rest := by
  simp only [lexBody, if_neg hline, if_neg hblock]

theorem lineComment_split (text : List Char) : ∃ comment rest, text = comment ++ rest ∧
    comment.length = lineComment text ∧ (∀ c ∈ comment, isLineEnd c = false) ∧ rest.head?.all isLineEnd = true := by
  refine ⟨text.takeWhile fun c => !isLineEnd c, text.dropWhile fun c => !isLineEnd c,
    List.takeWhile_append_dropWhile.symm, rfl, fun c hc => by simpa using List.mem_takeWhile_imp hc, ?_⟩
  have hhead := List.head?_dropWhile_not (fun c => !isLineEnd c) text
  cases hrest : text.dropWhile fun c => !isLineEnd c with
  | nil => rfl
  | cons d rest =>
    rw [hrest] at hhead
    simpa using hhead

theorem blockComment_split {text : List Char} {n : Nat} (h : skipBlockComment text = .ok n) :
    ∃ comment rest, text = comment ++ ['*', '/'] ++ rest ∧ n = comment.length+2 ∧
      skipBlockComment (comment ++ ['*', '/']) = .ok (comment.length+2) := by
  fun_induction skipBlockComment text generalizing n with
  | case1 => cases h
  | case2 => cases h
  | case3 c c' rest hclose =>
    cases h
    obtain ⟨rfl, rfl⟩ := hclose
    exact ⟨[], rest, rfl, rfl, rfl⟩
  | case4 c c' rest hopen ih =>
    cases hm : skipBlockComment (c' :: rest) with
    | error e =>
      rw [hm] at h
      cases h
    | ok m =>
      rw [hm] at h
      cases h
      obtain ⟨comment, after, htext, rfl, hskip⟩ := ih hm
      refine ⟨c :: comment, after, by simp [htext], rfl, ?_⟩
      cases hall : comment ++ ['*', '/'] with
      | nil => simp at hall
      | cons d all =>
        have hd : c' = d := by
          rw [hall, List.cons_append] at htext
          exact (List.cons.inj htext).1
        rw [List.cons_append, hall, skipBlockComment, if_neg (hd ▸ hopen), ← hall, hskip]
        rfl

/-- Every turn of the lexer is such a passage. -/
theorem passage_of_lexBody {c : Char} {rest : List Char} {turn : Turn Lexing ByteClass}
    (h : lexBody allow s c rest = .ok turn) :
    ∃ more after kinds, rest = more ++ after ∧ Passage allow (c :: more) after.head? kinds := by
  cases allow with
  | false =>
    obtain ⟨more, after, kinds, hrest, -, hlexeme⟩ := lexeme_of_lexBody h
    exact ⟨more, after, kinds, hrest, .lexeme hlexeme⟩
  | true =>
    by_cases hline : c = '-' ∧ rest.head? = some '-'
    · obtain ⟨rfl, hnext⟩ := hline
      obtain ⟨rest, rfl⟩ := List.head?_eq_some_iff.mp hnext
      obtain ⟨comment, after, rfl, -, hcomment, hend⟩ := lineComment_split rest
      exact ⟨'-' :: comment, after, [], rfl, .line rfl hcomment hend⟩
    by_cases hblock : c = '/' ∧ rest.head? = some '*'
    · obtain ⟨rfl, hnext⟩ := hblock
      obtain ⟨rest, rfl⟩ := List.head?_eq_some_iff.mp hnext
      rw [lexBody_block] at h
      cases rest with
      | nil => exact ⟨['*'], [], [], rfl, .opening rfl⟩
      | cons d rest =>
        rw [lexBlockComment_eq] at h
        cases hskip : skipBlockComment (d :: rest) with
        | error e =>
          rw [hskip] at h
          cases h
        | ok n =>
          obtain ⟨comment, after, htext, -, hclosed⟩ := blockComment_split hskip
          exact ⟨'*' :: (comment ++ ['*', '/']), after, [], by rw [htext]; rfl, .block rfl hclosed⟩
    · rw [lexBody_allow hline hblock] at h
      obtain ⟨more, after, kinds, hrest, -, hlexeme⟩ := lexeme_of_lexBody h
      exact ⟨more, after, kinds, hrest, .lexeme hlexeme⟩

theorem placed_of_loop {t : Lexing} {text : List Char} {labels : List ByteClass}
    (h : loop (lexBody allow) s .code 0 text = .ok (t, labels)) :
    ∃ tokens, t.tokens = s.tokens ++ tokens ∧ Placed allow s.index text tokens := by
  induction hlength : text.length using Nat.strong_induction_on generalizing s text labels with
  | _ length ih =>
    cases text with
    | nil =>
      cases h
      exact ⟨[], by simp, .nil⟩
    | cons c rest =>
      cases hbody : lexBody allow s c rest with
      | error e =>
        rw [loop_error hbody] at h
        cases h
      | ok turn =>
        obtain ⟨more, after, kinds, rfl, hpassage⟩ := passage_of_lexBody hbody
        obtain ⟨next, skip, label, hturn, hdrop, hindex, emitted, htokens, hemits⟩ := lexBody_passage s hpassage
        have hloop := loop_turn .code hturn
        rw [h, hdrop] at hloop
        cases hrest : loop (lexBody allow) next .code 0 after with
        | error e =>
          rw [hrest] at hloop
          cases hloop
        | ok r =>
          obtain ⟨last, labels'⟩ := r
          rw [hrest] at hloop
          obtain rfl : t = last := by
            simp only [Except.map, Except.ok.injEq, Prod.mk.injEq] at hloop
            exact hloop.1
          obtain ⟨tokens, htail, hplaced⟩ := ih after.length
            (by simp only [← hlength, List.length_cons, List.length_append]; omega) hrest rfl
          rw [hindex] at hplaced
          refine ⟨emitted ++ tokens, by rw [htail, htokens, List.append_assoc], ?_⟩
          exact Placed.cons hpassage hemits hplaced

theorem placed_of_lex {text : List Char} {tokens : List Token} (h : lex text allow = .ok tokens) :
    Placed allow 0 text tokens := by
  cases hloop : loop (lexBody allow) {} .code 0 text with
  | error e =>
    rw [lex, hloop] at h
    cases h
  | ok r =>
    obtain ⟨t, labels⟩ := r
    obtain ⟨found, htokens, hplaced⟩ := placed_of_loop hloop
    rw [lex, hloop] at h
    cases h
    change Placed allow 0 text t.tokens
    rw [htokens]
    exact hplaced

theorem lex_of_passages {text : List Char} {kinds : List TokenKind} (h : Passages allow text kinds) :
    ∃ tokens, lex text allow = .ok tokens ∧ tokens.map Token.kind = kinds := by
  have hloop (s : Lexing) : ∃ t labels, loop (lexBody allow) s .code 0 text = .ok (t, labels) ∧
      t.tokens.map Token.kind = s.tokens.map Token.kind ++ kinds := by
    induction h generalizing s with
    | nil => exact ⟨s, [], rfl, by simp⟩
    | @cons text rest kinds more hpassage _ ih =>
      obtain ⟨c, text, rfl⟩ := List.exists_cons_of_ne_nil hpassage.ne_nil
      obtain ⟨next, skip, label, hturn, hdrop, -, emitted, htokens, hemits⟩ := lexBody_passage s hpassage
      obtain ⟨t, labels, hrest, hkinds⟩ := ih next
      have hstep := loop_turn .code hturn
      rw [hdrop, hrest] at hstep
      refine ⟨t, _, hstep, ?_⟩
      rw [hkinds, htokens, List.map_append, hemits.map_kind, List.append_assoc]
  obtain ⟨t, labels, hrun, hkinds⟩ := hloop {}
  exact ⟨t.tokens, by rw [lex, hrun]; rfl, by simpa using hkinds⟩

end Lexer

def authPrefix : List TokenKind → Option (List Char)
  | .word auth :: .symbol '.' :: .word function :: _ =>
    if eqIgnoreAsciiCase auth "auth".toList then authReplacement (toAsciiLowercase function) else none
  | _ => none

/-- The tokens with the prefix of every call, three tokens, replaced by one private name. -/
def rewriteKinds : Nat → List TokenKind → List TokenKind
  | _, [] => []
  | skip+1, _ :: rest => rewriteKinds skip rest
  | 0, kind :: rest =>
    match authPrefix (kind :: rest) with
    | some replacement => .word replacement :: rewriteKinds 2 rest
    | none => kind :: rewriteKinds 0 rest

structure Span where
  start : Nat
  stop : Nat
  replacement : List Char

def callSpans : Nat → List Token → List Span
  | _, [] => []
  | skip+1, _ :: rest => callSpans skip rest
  | 0, token :: rest =>
    match authPrefix ((token :: rest).map Token.kind) with
    | some replacement => ⟨token.start, rest[1]?.elim 0 Token.stop, replacement⟩ :: callSpans 2 rest
    | none => callSpans 0 rest

/-- A text from a byte offset on, and the same with its stretches replaced: they lie between characters, and what
is around them is the same. -/
inductive Spliced : Nat → List Char → List Span → List Char → Prop
  | last {index : Nat} {text : List Char} : Spliced index text [] text
  | span {index : Nat} {before cut rest replacement out : List Char} {spans : List Span}
      (h : Spliced (index+byteLength (before ++ cut)) rest spans out) :
      Spliced index (before ++ (cut ++ rest))
        (⟨index+byteLength before, index+byteLength (before ++ cut), replacement⟩ :: spans)
        (before ++ (replacement ++ out))

theorem Spliced.prepend {index : Nat} {front text out : List Char} {spans : List Span}
    (h : Spliced (index+byteLength front) text spans out) : Spliced index (front ++ text) spans (front ++ out) := by
  generalize hindex : index+byteLength front = index' at h
  cases h with
  | last => exact .last
  | @span _ before cut rest replacement out spans h =>
    subst hindex
    have hspan := @Spliced.span index (front ++ before) cut rest replacement out spans (by
      rw [List.append_assoc, byteLength_append front, ← Nat.add_assoc]
      exact h)
    rw [List.append_assoc front before cut, byteLength_append front, byteLength_append front, ← Nat.add_assoc,
      ← Nat.add_assoc] at hspan
    simpa using hspan

section Kinds

theorem authPrefix_none {kind : TokenKind} (h : ∀ value, kind ≠ .word value) (rest : List TokenKind) :
    authPrefix (kind :: rest) = none := by
  cases kind with
  | word value => exact absurd rfl (h value)
  | _ => rfl

theorem rewriteKinds_pass {kinds : List TokenKind} (h : ∀ kind ∈ kinds, ∀ value, kind ≠ .word value)
    (rest : List TokenKind) : rewriteKinds 0 (kinds ++ rest) = kinds ++ rewriteKinds 0 rest := by
  induction kinds with
  | nil => rfl
  | cons kind kinds ih =>
    rw [List.cons_append, rewriteKinds, authPrefix_none (h kind List.mem_cons_self)]
    simp only [List.cons_append]
    rw [ih fun k hk => h k (List.mem_cons_of_mem kind hk)]

theorem callSpans_pass {tokens : List Token} (h : ∀ token ∈ tokens, ∀ value, token.kind ≠ .word value)
    (rest : List Token) : callSpans 0 (tokens ++ rest) = callSpans 0 rest := by
  induction tokens with
  | nil => rfl
  | cons token tokens ih =>
    rw [List.cons_append, callSpans, List.map_cons, authPrefix_none (h token List.mem_cons_self)]
    exact ih fun t ht => h t (List.mem_cons_of_mem token ht)

/-- A call is where its prefix is. -/
theorem authPrefix_of_call {tokens : List Token} {found : Option AuthCall} (h : authCall tokens = .ok found) :
    authPrefix (tokens.map Token.kind) = found.map AuthCall.replacement := by
  cases tokens with
  | nil =>
    cases h
    rfl
  | cons first rest =>
    obtain ⟨kind, start, stop⟩ := first
    by_cases hword : ∃ auth, kind = .word auth
    · obtain ⟨auth, rfl⟩ := hword
      rw [authCall] at h
      simp only [List.getElem?_cons_zero, List.getElem?_cons_succ] at h
      by_cases hname : (eqIgnoreAsciiCase auth "auth".toList && isSymbol '.' rest[0]?) = true
      · rw [if_pos hname] at h
        rw [Bool.and_eq_true, isSymbol_iff] at hname
        obtain ⟨hauth, dot, hdot, hkind⟩ := hname
        obtain ⟨rest, rfl⟩ : ∃ rest', rest = dot :: rest' := ⟨_, cons_of_getElem? hdot⟩
        cases rest with
        | nil => cases h
        | cons third rest =>
          obtain ⟨kind, start, stop⟩ := third
          cases kind with
          | word function =>
            simp only [List.getElem?_cons_zero, List.getElem?_cons_succ] at h
            simp only [List.map_cons, hkind, authPrefix, hauth, if_true]
            cases hreplacement : authReplacement (toAsciiLowercase function) with
            | none =>
              rw [hreplacement] at h
              cases h
            | some replacement =>
              rw [hreplacement] at h
              simp only at h
              split_ifs at h <;> cases h <;> rfl
          | _ => cases h
      · rw [if_neg hname] at h
        cases h
        cases rest with
        | nil => rfl
        | cons dot rest =>
          rw [List.map_cons, List.map_cons, authPrefix.eq_def]
          split
          · next auth' function rest' hkinds =>
            simp only [List.cons.injEq, TokenKind.word.injEq] at hkinds
            obtain ⟨rfl, hdot, -⟩ := hkinds
            have hauth : ¬ eqIgnoreAsciiCase auth "auth".toList = true := by
              intro hauth
              exact hname (by rw [hauth]; simp [isSymbol, hdot])
            rw [if_neg hauth]
            rfl
          · rfl
    · rw [List.map_cons, authPrefix_none fun value hvalue => hword ⟨value, hvalue⟩]
      rw [authCall_of_not_word fun value hvalue => hword ⟨value, hvalue⟩] at h
      cases h
      rfl

end Kinds

section Calls
variable {allow : Bool} {text rest rest' : List Char} {next : Option Char} {kinds : List TokenKind}

/-- What is passed over is a word, or holds none. -/
theorem Passage.word_or_not (h : Passage allow text next kinds) :
    (kinds = [.word text] ∧ text.head?.any isWordContinue = true ∧ next.any isWordContinue = false) ∨
      ∀ kind ∈ kinds, ∀ value, kind ≠ .word value := by
  cases h with
  | lexeme h => exact h.word_or_not
  | _ => exact .inr (by simp)

theorem lineEnd_not_word {c : Char} (h : isLineEnd c = true) : isWordContinue c = false :=
  (whitespace_not (lineEnd_isWhitespace h)).1

theorem Passage.before_underscore (h : Passage allow text next kinds) (hnext : next.any isWordContinue = true) :
    Passage allow text (some '_') kinds := by
  cases h with
  | lexeme h => exact .lexeme (h.before_underscore hnext)
  | line _ _ hend =>
    cases next with
    | none => cases hnext
    | some c =>
      have hword := lineEnd_not_word (c := c) (by simpa using hend)
      rw [Option.any_some, hword] at hnext
      cases hnext
  | block hallow hcomment => exact .block hallow hcomment
  | opening _ => cases hnext

/-- The first token of a text, behind white space and comments. -/
theorem Placed.first {index : Nat} {token : Token} {tokens : List Token} (h : Placed allow index text (token :: tokens))
    (hkind : token.kind ≠ .other) :
    ∃ front lexeme rest, text = front ++ (lexeme ++ rest) ∧ Lexeme lexeme rest.head? [token.kind] ∧
      token.stop = index+byteLength (front ++ lexeme) ∧ Placed allow token.stop rest tokens := by
  generalize hall : token :: tokens = all at h
  induction h with
  | nil => cases hall
  | @cons index text rest kinds emitted tokens' hpassage hemits hrest ih =>
    have hskip (hempty : kinds = []) : ∃ front lexeme rest', text ++ rest = front ++ (lexeme ++ rest') ∧
        Lexeme lexeme rest'.head? [token.kind] ∧ token.stop = index+byteLength (front ++ lexeme) ∧
          Placed allow token.stop rest' tokens := by
      have hnone : emitted = [] := by simpa [hempty] using hemits.map_kind
      rw [hnone, List.nil_append] at hall
      obtain ⟨front, lexeme, rest, rfl, hlexeme, hstop, hplaced⟩ := ih hall
      refine ⟨text ++ front, lexeme, rest, by simp, hlexeme, ?_, hplaced⟩
      rw [hstop, List.append_assoc, byteLength_append text]
      omega
    have hfound (hsingle : kinds = [token.kind]) (hlexeme : Lexeme text rest.head? kinds) :
        ∃ front lexeme rest', text ++ rest = front ++ (lexeme ++ rest') ∧ Lexeme lexeme rest'.head? [token.kind] ∧
          token.stop = index+byteLength (front ++ lexeme) ∧ Placed allow token.stop rest' tokens := by
      have hplace := hemits.place token.kind hsingle
      rw [hplace, List.singleton_append, List.cons.injEq] at hall
      obtain ⟨htoken, rfl⟩ := hall
      have hstop : token.stop = index+byteLength text := congrArg Token.stop htoken
      refine ⟨[], text, rest, rfl, hsingle ▸ hlexeme, hstop, ?_⟩
      rw [hstop]
      exact hrest
    have hhead (kind : TokenKind) (more : List TokenKind) (hkinds : kinds = kind :: more) : token.kind = kind := by
      have hmap := hemits.map_kind
      rw [hkinds] at hmap
      obtain ⟨first, others, rfl, hfirst, -⟩ := List.map_eq_cons_iff.mp hmap
      rw [List.cons_append, List.cons.injEq] at hall
      exact hall.1 ▸ hfirst
    generalize hnext : rest.head? = next at hpassage
    cases hpassage with
    | line _ _ _ => exact hskip rfl
    | block _ _ => exact hskip rfl
    | opening _ => exact hskip rfl
    | lexeme h =>
      subst hnext
      cases h with
      | space _ => exact hskip rfl
      | @other c _ hother hline hblock =>
        obtain ⟨n, hn⟩ : ∃ n, c.utf8Size = n+1 := ⟨c.utf8Size-1, by have := c.utf8Size_pos; omega⟩
        exact absurd (hhead .other (List.replicate n .other) (by rw [hn, List.replicate_succ])) hkind
      | quoted hquote hnext => exact hfound (by rw [hhead _ _ rfl]) (.quoted hquote hnext)
      | bracketed hvalue => exact hfound (by rw [hhead _ _ rfl]) (.bracketed hvalue)
      | word hc hmore hnext => exact hfound (by rw [hhead _ _ rfl]) (.word hc hmore hnext)
      | symbol hc => exact hfound (by rw [hhead _ _ rfl]) (.symbol hc)

/-- What lies behind the name of a function that is called, and that it does not go on there. -/
theorem Placed.behind_function {index : Nat} {function : List Char} {dot name : Token} {tokens : List Token}
    (h : Placed allow index text (dot :: name :: tokens)) (hdot : dot.kind = .symbol '.')
    (hname : name.kind = .word function) :
    ∃ between rest, text = between ++ rest ∧ rest.head?.any isWordContinue = false ∧
      name.stop = index+byteLength between ∧ Placed allow name.stop rest tokens := by
  obtain ⟨front, lexeme, rest, rfl, -, hdotStop, h⟩ := h.first (by simp [hdot])
  obtain ⟨front', lexeme', rest, rfl, hlexeme, hstop, h⟩ := h.first (by simp [hname])
  rw [hname] at hlexeme
  refine ⟨front ++ lexeme ++ (front' ++ lexeme'), rest, by simp, hlexeme.of_word.2, ?_, h⟩
  rw [hstop, hdotStop, byteLength_append (front ++ lexeme), Nat.add_assoc]

/-- A text with its calls rewritten: its tokens are the rewritten ones, it is the same but for the stretches of the
calls, and it begins as it did, or with the underscore of a private name in the place of a word. -/
structure RewrittenAt (allow : Bool) (index : Nat) (text : List Char) (tokens : List Token) (text' : List Char) :
    Prop where
  passages : Passages allow text' (rewriteKinds 0 (tokens.map Token.kind))
  spliced : Spliced index text (callSpans 0 tokens) text'
  start : text'.head? = text.head? ∨ (text.head?.any isWordContinue = true ∧ text'.head? = some '_')

/-- What is no call is kept. -/
theorem RewrittenAt.keep {index : Nat} {emitted tokens : List Token} (hpassage : Passage allow text rest.head? kinds)
    (hemitted : emitted.map Token.kind = kinds)
    (hkinds : rewriteKinds 0 (kinds ++ tokens.map Token.kind) = kinds ++ rewriteKinds 0 (tokens.map Token.kind))
    (hspans : callSpans 0 (emitted ++ tokens) = callSpans 0 tokens)
    (h : RewrittenAt allow (index+byteLength text) rest tokens rest') :
    RewrittenAt allow index (text ++ rest) (emitted ++ tokens) (text ++ rest') where
  passages := by
    rw [List.map_append, hemitted, hkinds]
    refine .cons ?_ h.passages
    obtain hsame | ⟨hword, hunderscore⟩ := h.start
    · rwa [hsame]
    · rw [hunderscore]
      exact hpassage.before_underscore hword
  spliced := by
    rw [hspans]
    exact h.spliced.prepend
  start := by
    obtain ⟨c, text, rfl⟩ := List.exists_cons_of_ne_nil hpassage.ne_nil
    exact .inl rfl

/-- The prefix of a call gives way to its private name, which what follows it cannot continue. -/
theorem RewrittenAt.call {index : Nat} {auth between name : List Char} {tokens more : List Token}
    (hlead : rewriteKinds 0 (tokens.map Token.kind) = .word ('_' :: name) :: rewriteKinds 0 (more.map Token.kind))
    (hspan : callSpans 0 tokens =
      ⟨index, index+byteLength (auth ++ between), '_' :: name⟩ :: callSpans 0 more)
    (hauth : auth.head?.any isWordContinue = true) (hstop : rest.head?.any isWordContinue = false)
    (hname : ∀ d ∈ name, isWordContinue d = true)
    (h : RewrittenAt allow (index+byteLength (auth ++ between)) rest more rest') :
    RewrittenAt allow index (auth ++ (between ++ rest)) tokens (('_' :: name) ++ rest') where
  passages := by
    have hsame : rest'.head? = rest.head? := by
      obtain hsame | ⟨hword, -⟩ := h.start
      · exact hsame
      · rw [hstop] at hword
        cases hword
    rw [hlead]
    exact .cons (.lexeme (.word (by decide) hname (by rwa [hsame]))) h.passages
  spliced := by
    rw [hspan]
    have hspliced := @Spliced.span index [] (auth ++ between) rest ('_' :: name) rest' _ h.spliced
    simpa [byteLength] using hspliced
  start := by
    cases auth with
    | nil => cases hauth
    | cons c auth => exact .inr ⟨hauth, rfl⟩

/-- The rewriting copies the text from the cursor on and gives its calls their private names. -/
theorem rewriteFrom_at {before mid text out : List Char} {tokens : List Token}
    (hplaced : Placed allow (byteLength (before ++ mid)) text tokens)
    (h : rewriteFrom (before ++ mid ++ text) (byteLength before) 0 tokens = .ok out) :
    ∃ text', out = mid ++ text' ∧ RewrittenAt allow (byteLength (before ++ mid)) text tokens text' := by
  induction hlength : text.length using Nat.strong_induction_on generalizing before mid text tokens out with
  | _ length ih =>
    cases hplaced with
    | nil =>
      simp only [rewriteFrom, Except.ok.injEq, List.append_assoc, dropBytes_append] at h
      exact ⟨[], h.symm, .nil, .last, .inl rfl⟩
    | @cons _ text rest kinds emitted tokens hpassage hemits hrest =>
      have htext : 0 < text.length := List.length_pos_iff.mpr hpassage.ne_nil
      -- what is no call is copied as it stands
      have hkeep (h : rewriteFrom (before ++ mid ++ (text ++ rest)) (byteLength before) 0 tokens = .ok out)
          (hkinds : rewriteKinds 0 (kinds ++ tokens.map Token.kind) = kinds ++ rewriteKinds 0 (tokens.map Token.kind))
          (hspans : callSpans 0 (emitted ++ tokens) = callSpans 0 tokens) :
          ∃ text', out = mid ++ text' ∧
            RewrittenAt allow (byteLength (before ++ mid)) (text ++ rest) (emitted ++ tokens) text' := by
        have hindex : byteLength (before ++ mid)+byteLength text = byteLength (before ++ (mid ++ text)) := by
          rw [← List.append_assoc, byteLength_append (before ++ mid)]
        rw [hindex] at hrest
        have hsql : before ++ mid ++ (text ++ rest) = before ++ (mid ++ text) ++ rest := by simp
        rw [hsql] at h
        obtain ⟨rest', rfl, hrewritten⟩ := ih rest.length (by rw [← hlength, List.length_append]; omega) hrest h rfl
        rw [← hindex] at hrewritten
        exact ⟨text ++ rest', by simp, hrewritten.keep hpassage hemits.map_kind hkinds hspans⟩
      obtain ⟨hword, hauth, -⟩ | hnot := hpassage.word_or_not
      · have hemitted := hemits.place _ hword
        rw [hemitted, List.singleton_append, rewriteFrom] at h
        obtain ⟨found, hfound, h⟩ := (bind_ok_iff _ _ _).mp h
        have hlead := authPrefix_of_call hfound
        cases found with
        | none =>
          refine hkeep h ?_ ?_
          · rw [hword, List.singleton_append, rewriteKinds]
            rw [List.map_cons] at hlead
            rw [hlead]
            rfl
          · rw [hemitted, List.singleton_append, callSpans, hlead]
            rfl
        | some call =>
          obtain ⟨output, houtput, hout⟩ := (bind_ok_iff _ _ _).mp h
          cases hout
          obtain ⟨auth, start, stop, dot, function, functionStart, arguments, more, htokens, hdot, hclose,
            harguments, name, hreplacement, hname⟩ := authCall_some hfound
          rw [List.cons.injEq] at htokens
          obtain ⟨-, rfl⟩ := htokens
          obtain ⟨between, rest, rfl, hstop, hend, hrest⟩ := hrest.behind_function hdot rfl
          have hindex : call.functionEnd = byteLength (before ++ mid ++ text ++ between) := by
            rw [byteLength_append, byteLength_append (before ++ mid)]
            exact hend
          have hsql : before ++ mid ++ (text ++ (between ++ rest)) =
              before ++ mid ++ text ++ between ++ [] ++ rest := by simp
          have hrest' : Placed allow (byteLength (before ++ mid ++ text ++ between ++ [])) rest
              (arguments ++ more) := by
            rw [List.append_nil, ← hindex]
            exact hrest
          rw [rewriteFrom_skip, hclose, List.drop_succ_cons, List.drop_succ_cons, List.drop_left,
            ← rewriteFrom_pass harguments, hindex, hsql] at houtput
          obtain ⟨_, rfl, hrewritten⟩ := ih rest.length
            (by simp only [← hlength, List.length_append]; omega) hrest' houtput rfl
          refine ⟨('_' :: name) ++ output, ?_, ?_⟩
          · rw [hreplacement, sliceBytes_append]
            simp
          · rw [Option.map_some, hreplacement] at hlead
            have hplace : byteLength (before ++ mid ++ text ++ between ++ []) =
                byteLength (before ++ mid)+byteLength (text ++ between) := by
              rw [List.append_nil, List.append_assoc (before ++ mid), byteLength_append (before ++ mid)]
            rw [hplace] at hrewritten
            refine hrewritten.call ?_ ?_ hauth hstop hname
            · rw [hemitted, List.singleton_append, List.map_cons, rewriteKinds]
              rw [List.map_cons] at hlead
              rw [hlead]
              rfl
            · rw [hemitted, List.singleton_append, callSpans, hlead]
              simp only [List.getElem?_cons_succ, List.getElem?_cons_zero, Option.elim_some, callSpans, hindex]
              rw [List.append_assoc (before ++ mid), byteLength_append (before ++ mid)]
      · rw [rewriteFrom_pass ?_ tokens] at h
        · refine hkeep h (rewriteKinds_pass hnot _) (callSpans_pass ?_ _)
          intro token htoken
          exact hnot token.kind (by rw [← hemits.map_kind]; exact List.mem_map_of_mem htoken)
        · intro token htoken
          exact hnot token.kind (by rw [← hemits.map_kind]; exact List.mem_map_of_mem htoken)

end Calls

theorem authReplacement_not_auth {function replacement : List Char}
    (h : authReplacement (toAsciiLowercase function) = some replacement) :
    eqIgnoreAsciiCase function "auth".toList = false := by
  have hauth : authReplacement (toAsciiLowercase "auth".toList) = none := by decide
  rw [eqIgnoreAsciiCase, decide_eq_false_iff_not]
  intro hsame
  rw [hsame, hauth] at h
  cases h

theorem authCall_of_other_word {function : List Char} (h : eqIgnoreAsciiCase function "auth".toList = false)
    (start stop : Nat) (rest : List Token) : authCall (⟨.word function, start, stop⟩ :: rest) = .ok none := by
  rw [authCall]
  simp only [List.getElem?_cons_zero, h, Bool.false_and, Bool.false_eq_true, if_false]

/-- Wherever `auth` and a dot stand, a call stands that there is. -/
theorem authCall_of_rewriteFrom {sql out : List Char} {cursor : Nat} {tokens : List Token}
    (h : rewriteFrom sql cursor 0 tokens = .ok out) (k : Nat) : ∃ found, authCall (tokens.drop k) = .ok found := by
  induction hlength : tokens.length using Nat.strong_induction_on generalizing cursor tokens out k with
  | _ length ih =>
    cases tokens with
    | nil => exact ⟨none, by rw [List.drop_nil]; rfl⟩
    | cons token rest =>
      rw [rewriteFrom] at h
      obtain ⟨found, hfound, h⟩ := (bind_ok_iff _ _ _).mp h
      cases k with
      | zero => exact ⟨found, hfound⟩
      | succ k =>
        rw [List.drop_succ_cons]
        cases found with
        | none => exact ih rest.length (by simp [← hlength]) h k rfl
        | some call =>
          obtain ⟨output, houtput, -⟩ := (bind_ok_iff _ _ _).mp h
          obtain ⟨auth, start, stop, dot, function, functionStart, arguments, more, htokens, hdot, hclose,
            harguments, -⟩ := authCall_some hfound
          have hlead := authPrefix_of_call hfound
          obtain ⟨rfl, rfl⟩ := List.cons.inj htokens
          cases k with
          | zero => exact ⟨none, authCall_of_not_word (by simp [hdot]) _⟩
          | succ k =>
            rw [List.drop_succ_cons]
            cases k with
            | zero =>
              have hname : eqIgnoreAsciiCase function "auth".toList = false := by
                simp only [List.map_cons, hdot, authPrefix, Option.map_some] at hlead
                split_ifs at hlead
                exact authReplacement_not_auth hlead
              exact ⟨none, authCall_of_other_word hname _ _ _⟩
            | succ k =>
              rw [rewriteFrom_skip, hclose, List.drop_succ_cons, List.drop_succ_cons, List.drop_left,
                ← rewriteFrom_pass harguments] at houtput
              rw [List.drop_succ_cons]
              exact ih _ (by simp [← hlength]; omega) houtput k rfl

structure Homomorphic (sql out : List Char) (allow : Bool) (tokens : List Token) : Prop where
  lexed : lex sql allow = .ok tokens
  placed : Placed allow 0 sql tokens
  noneInternal : ∀ token ∈ tokens, token.kind.isInternal = false
  calls : ∀ k, ∃ found, authCall (tokens.drop k) = .ok found
  rewritten : ∃ rewritten, lex out allow = .ok rewritten ∧
    rewritten.map Token.kind = rewriteKinds 0 (tokens.map Token.kind)
  spliced : Spliced 0 sql (callSpans 0 tokens) out

/-- A text that is rewritten has no private names, and only its calls are given theirs. -/
theorem rewriteAuthFunctions_homomorphic (sql out : List Char) (allow : Bool)
    (h : rewriteAuthFunctions sql allow = .ok out) : ∃ tokens, Homomorphic sql out allow tokens := by
  simp only [rewriteAuthFunctions, bind_ok_iff, require_ok_iff] at h
  obtain ⟨tokens, hlex, _, hpublic, hrewrite⟩ := h
  have hplaced := placed_of_lex hlex
  obtain ⟨text, rfl, hrewritten⟩ := @rewriteFrom_at allow [] [] sql out tokens hplaced hrewrite
  refine ⟨tokens, hlex, hplaced, ?_, authCall_of_rewriteFrom hrewrite, lex_of_passages hrewritten.passages,
    hrewritten.spliced⟩
  intro token htoken
  simp only [Bool.not_eq_true', List.any_eq_false, Bool.not_eq_true] at hpublic
  exact hpublic token htoken

/-- Comments stand between the names of a call, and characters beyond ASCII around it. -/
theorem commented_call_homomorphic :
    ∃ tokens, Homomorphic "SELECT 'é', Auth /* id */ . uid ()".toList "SELECT 'é', __ffdb_auth_uid ()".toList true
      tokens :=
  rewriteAuthFunctions_homomorphic _ _ true (by decide +kernel)

end Ffdb.Sql
