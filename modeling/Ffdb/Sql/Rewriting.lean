import Ffdb.Sql.Lexeme

/-! What the rewriting of `auth.*` calls looks at: the bytes of a text, its words, and the tokens of a call. -/
namespace Ffdb.Sql
open Text Fallible

section Bytes

theorem dropBytes_append (before rest : List Char) :
    dropBytes (byteLength before) (before ++ rest) = rest := by
  induction before with
  | nil => simp [byteLength, dropBytes]
  | cons c before ih =>
    obtain ⟨k, hk⟩ : ∃ k, c.utf8Size = k+1 := ⟨c.utf8Size-1, by have := c.utf8Size_pos; omega⟩
    have hlength : byteLength (c :: before) = (k+byteLength before)+1 := by
      rw [byteLength_cons, hk]
      omega
    rw [hlength, List.cons_append, dropBytes, hk]
    have hsub : k+byteLength before+1-(k+1) = byteLength before := by omega
    rw [hsub, ih]

theorem takeBytes_append (before rest : List Char) :
    takeBytes (byteLength before) (before ++ rest) = before := by
  induction before with
  | nil => simp [byteLength, takeBytes]
  | cons c before ih =>
    obtain ⟨k, hk⟩ : ∃ k, c.utf8Size = k+1 := ⟨c.utf8Size-1, by have := c.utf8Size_pos; omega⟩
    have hlength : byteLength (c :: before) = (k+byteLength before)+1 := by
      rw [byteLength_cons, hk]
      omega
    rw [hlength, List.cons_append, takeBytes, hk]
    have hsub : k+byteLength before+1-(k+1) = byteLength before := by omega
    rw [hsub, ih]

theorem sliceBytes_append (before mid rest : List Char) :
    sliceBytes (before ++ mid ++ rest) (byteLength before) (byteLength (before ++ mid)) = mid := by
  have hsub : byteLength (before ++ mid)-byteLength before = byteLength mid := by
    rw [byteLength_append]
    omega
  rw [sliceBytes, hsub, List.append_assoc, dropBytes_append, takeBytes_append]

end Bytes

theorem authCall_of_not_word {token : Token} (h : ∀ value, token.kind ≠ .word value)
    (rest : List Token) : authCall (token :: rest) = .ok none := by
  obtain ⟨kind, start, stop⟩ := token
  cases kind with
  | word value => exact absurd rfl (h value)
  | _ => rfl

theorem rewriteFrom_skip (sql : List Char) (cursor skip : Nat) (tokens : List Token) :
    rewriteFrom sql cursor skip tokens = rewriteFrom sql cursor 0 (tokens.drop skip) := by
  induction tokens generalizing skip with
  | nil => cases skip <;> simp [rewriteFrom]
  | cons token tokens ih =>
    cases skip with
    | zero => rfl
    | succ skip => rw [rewriteFrom, ih, List.drop_succ_cons]

/-- Tokens that are no words are copied with the text around them. -/
theorem rewriteFrom_pass {sql : List Char} {cursor : Nat} {tokens : List Token}
    (h : ∀ token ∈ tokens, ∀ value, token.kind ≠ .word value) (rest : List Token) :
    rewriteFrom sql cursor 0 (tokens ++ rest) = rewriteFrom sql cursor 0 rest := by
  induction tokens with
  | nil => rfl
  | cons token tokens ih =>
    rw [List.cons_append, rewriteFrom, authCall_of_not_word (h token (by simp))]
    exact ih fun t ht => h t (List.mem_cons_of_mem token ht)

theorem isSymbol_iff {c : Char} {token : Option Token} :
    isSymbol c token = true ↔ ∃ found, token = some found ∧ found.kind = .symbol c := by
  cases token <;> simp [isSymbol]

theorem isClaimArgument_some {token : Option Token} (h : isClaimArgument token = true) :
    ∃ found value, token = some found ∧ found.kind = .stringLiteral value := by
  rw [isClaimArgument.eq_def] at h
  split at h
  · exact ⟨_, _, rfl, rfl⟩
  · cases h

theorem authReplacement_word {function replacement : List Char}
    (h : authReplacement function = some replacement) :
    ∃ more, replacement = '_' :: more ∧ ∀ d ∈ more, isWordContinue d = true := by
  simp only [authReplacement] at h
  split_ifs at h <;> cases h <;> exact ⟨_, rfl, List.all_eq_true.mp (by decide +kernel)⟩

theorem cons_of_getElem? {α : Type} {xs : List α} {x : α} (h : xs[0]? = some x) :
    xs = x :: xs.drop 1 := by
  cases xs with
  | nil => cases h
  | cons y ys =>
    cases h
    rfl

/-- A call: its three first tokens, and its argument in parentheses. -/
theorem authCall_some {tokens : List Token} {call : AuthCall} (h : authCall tokens = .ok (some call)) :
    ∃ auth start stop dot function functionStart arguments rest,
      tokens = ⟨.word auth, start, stop⟩ :: dot :: ⟨.word function, functionStart, call.functionEnd⟩ ::
        (arguments ++ rest) ∧ dot.kind = .symbol '.' ∧ call.close = arguments.length+2 ∧
      (∀ token ∈ arguments, ∀ value, token.kind ≠ .word value) ∧
      ∃ more, call.replacement = '_' :: more ∧ ∀ d ∈ more, isWordContinue d = true := by
  have hdrop (k : Nat) : tokens[k]? = (tokens.drop k)[0]? := by simp
  have hcons (k : Nat) {x : Token} (hx : tokens[k]? = some x) :
      tokens.drop k = x :: tokens.drop (k+1) := by
    have := cons_of_getElem? ((hdrop k).symm.trans hx)
    rwa [List.drop_drop] at this
  rw [authCall] at h
  split at h
  · next auth start stop hauth =>
    split at h
    · next hname =>
      rw [Bool.and_eq_true, isSymbol_iff] at hname
      obtain ⟨_, dot, hdot, hdotKind⟩ := hname
      split at h
      · next function functionStart functionEnd hfunction =>
        split at h
        · cases h
        · next replacement hreplacement =>
          have hthree : tokens = ⟨.word auth, start, stop⟩ :: dot ::
              ⟨.word function, functionStart, functionEnd⟩ :: tokens.drop 3 := by
            have h0 := hcons 0 hauth
            rwa [List.drop_zero, hcons 1 hdot, hcons 2 hfunction] at h0
          split_ifs at h with hopen hclaim hargument hclose
          · rw [Bool.and_eq_true, isSymbol_iff] at hargument
            obtain ⟨hargument, closing, hclosing, hclosingKind⟩ := hargument
            obtain ⟨argument, value, hargument, hargumentKind⟩ := isClaimArgument_some hargument
            obtain ⟨opening, hopening, hopeningKind⟩ := isSymbol_iff.mp (by simpa using hopen)
            cases h
            refine ⟨auth, start, stop, dot, function, functionStart, [opening, argument, closing],
              tokens.drop 6, ?_, hdotKind, rfl, ?_, authReplacement_word hreplacement⟩
            · rw [hthree]
              simp [hcons 3 hopening, hcons 4 hargument, hcons 5 hclosing]
            · simp [hopeningKind, hargumentKind, hclosingKind]
          · rw [isSymbol_iff] at hclose
            obtain ⟨closing, hclosing, hclosingKind⟩ := hclose
            obtain ⟨opening, hopening, hopeningKind⟩ := isSymbol_iff.mp (by simpa using hopen)
            cases h
            refine ⟨auth, start, stop, dot, function, functionStart, [opening, closing],
              tokens.drop 5, ?_, hdotKind, rfl, ?_, authReplacement_word hreplacement⟩
            · rw [hthree]
              simp [hcons 3 hopening, hcons 4 hclosing]
            · simp [hopeningKind, hclosingKind]
      · cases h
    · cases h
  · cases h

theorem Lexeme.before_underscore {text : List Char} {next : Option Char} {kinds : List TokenKind}
    (h : Lexeme text next kinds) (hnext : next.any isWordContinue = true) :
    Lexeme text (some '_') kinds := by
  cases h with
  | space h => exact .space h
  | quoted hquote _ =>
    refine .quoted hquote fun hsame => ?_
    cases hsame
    exact absurd hquote (by decide)
  | bracketed h => exact .bracketed h
  | word _ _ hstop =>
    rw [hnext] at hstop
    cases hstop
  | symbol h => exact .symbol h
  | other h _ _ => exact .other h (fun _ => by decide) fun _ => by decide

/-- A lexeme that is a word starts and ends as one, and the others hold no words. -/
theorem Lexeme.word_or_not {text : List Char} {next : Option Char} {kinds : List TokenKind}
    (h : Lexeme text next kinds) :
    (kinds = [.word text] ∧ text.head?.any isWordContinue = true ∧ next.any isWordContinue = false) ∨
      ∀ kind ∈ kinds, ∀ value, kind ≠ .word value := by
  cases h with
  | word hc _ hnext => exact .inl ⟨rfl, by simpa using wordContinue_of_wordStart hc, hnext⟩
  | quoted =>
    right
    simp only [List.mem_singleton, forall_eq, quotedKind]
    intro value
    split_ifs <;> simp
  | other =>
    right
    intro kind hkind value
    rw [List.eq_of_mem_replicate hkind]
    simp
  | _ => exact .inr (by simp)

theorem Lexeme.of_word {text value : List Char} {next : Option Char} (h : Lexeme text next [.word value]) :
    text.head?.any isWordContinue = true ∧ next.any isWordContinue = false := by
  obtain ⟨_, hword⟩ | hnot := h.word_or_not
  · exact hword
  · exact absurd rfl (hnot _ (by simp) value)

end Ffdb.Sql
