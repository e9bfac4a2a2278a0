import Ffdb.Sql.Homomorphism

/-! What a checked predicate can contribute to a statement: tokens that cannot get out of parentheses around them, also
with the `auth.*` calls rewritten. -/
namespace Ffdb.Sql
open Text Fallible

section Reading
variable {allow : Bool} {index : Nat} {text : List Char} {next : Option Char} {kinds : List TokenKind}
  {tokens : List Token}

theorem Passage.lexeme_of (h : Passage false text next kinds) : Lexeme text next kinds := by
  cases h with
  | lexeme h => exact h
  | line hallow => cases hallow
  | block hallow => cases hallow
  | opening hallow => cases hallow

/-- Without comments, what is passed over are lexemes. -/
theorem Passages.reads (h : Passages false text kinds) : Reads none text kinds := by
  induction h with
  | nil => exact .nil
  | cons hpassage _ ih => exact .cons (by simpa using hpassage.lexeme_of) ih

theorem Reads.passages (h : Reads none text kinds) (allow : Bool) : Passages allow text kinds := by
  induction h with
  | nil => exact .nil
  | cons hlexeme _ ih => exact .cons (.lexeme (by simpa using hlexeme)) ih

theorem Placed.passages (h : Placed allow index text tokens) : Passages allow text (tokens.map Token.kind) := by
  induction h with
  | nil => exact .nil
  | cons hpassage hemits _ ih =>
    rw [List.map_append, hemits.map_kind]
    exact .cons hpassage ih

theorem reads_of_lex (h : lex text false = .ok tokens) : Reads none text (tokens.map Token.kind) :=
  (placed_of_lex h).passages.reads

/-- What reads as a sequence of lexemes is lexed to their tokens, and has no comments. -/
theorem lex_of_reads (allow : Bool) (h : Reads none text kinds) :
    ∃ tokens, lex text allow = .ok tokens ∧ tokens.map Token.kind = kinds :=
  lex_of_passages (h.passages allow)

end Reading

inductive Rewritten : List TokenKind → List TokenKind → Prop
  | nil : Rewritten [] []
  | keep (kind : TokenKind) {kinds kinds' : List TokenKind} (h : Rewritten kinds kinds') :
      Rewritten (kind :: kinds) (kind :: kinds')
  | call (auth function replacement : List Char) {kinds kinds' : List TokenKind}
      (h : Rewritten kinds kinds') :
      Rewritten (.word auth :: .symbol '.' :: .word function :: kinds) (.word replacement :: kinds')

/-- The depth of parentheses after some tokens, if none closes more than was open. -/
def parenthesisDepth : Nat → List TokenKind → Option Nat
  | depth, [] => some depth
  | depth, kind :: rest =>
    if kind = .symbol '(' then parenthesisDepth (depth+1) rest
    else if kind = .symbol ')' then
      if depth = 0 then none else parenthesisDepth (depth-1) rest
    else parenthesisDepth depth rest

theorem Rewritten.parenthesisDepth_eq {kinds kinds' : List TokenKind} (h : Rewritten kinds kinds')
    (depth : Nat) : parenthesisDepth depth kinds' = parenthesisDepth depth kinds := by
  induction h generalizing depth with
  | nil => rfl
  | keep kind _ ih => simp only [parenthesisDepth, ih]
  | call auth function replacement _ ih => simp [parenthesisDepth, ih]

theorem Rewritten.symbol_mem {kinds kinds' : List TokenKind} (h : Rewritten kinds kinds') {c : Char}
    (hmem : .symbol c ∈ kinds') : .symbol c ∈ kinds := by
  induction h with
  | nil => exact hmem
  | keep kind _ ih =>
    obtain hkind | hmem := List.mem_cons.mp hmem
    · exact hkind ▸ List.mem_cons_self
    · exact List.mem_cons_of_mem kind (ih hmem)
  | call auth function replacement _ ih =>
    obtain hkind | hmem := List.mem_cons.mp hmem
    · cases hkind
    · simp [ih hmem]

theorem predicateDepth_ok {depth depth' : Nat} {tokens : List Token}
    (h : predicateDepth depth tokens = .ok depth') :
    parenthesisDepth depth (tokens.map Token.kind) = some depth' := by
  fun_induction predicateDepth depth tokens with
  | case1 depth =>
    cases h
    rfl
  | case2 depth token rest hopen ih => simp [parenthesisDepth, hopen, ih h]
  | case3 => cases h
  | case4 depth token rest hopen hclose hdepth ih => simp [parenthesisDepth, hclose, hdepth, ih h]
  | case5 => cases h
  | case6 depth token rest hopen hclose _ ih => simp [parenthesisDepth, hopen, hclose, ih h]

theorem authPrefix_some {kinds : List TokenKind} {replacement : List Char} (h : authPrefix kinds = some replacement) :
    ∃ auth function rest, kinds = .word auth :: .symbol '.' :: .word function :: rest := by
  rw [authPrefix.eq_def] at h
  split at h
  · exact ⟨_, _, _, rfl⟩
  · cases h

theorem rewritten_rewriteKinds (kinds : List TokenKind) : Rewritten kinds (rewriteKinds 0 kinds) := by
  induction hlength : kinds.length using Nat.strong_induction_on generalizing kinds with
  | _ length ih =>
    cases kinds with
    | nil => exact .nil
    | cons kind rest =>
      rw [rewriteKinds]
      cases hlead : authPrefix (kind :: rest) with
      | none => exact .keep kind (ih rest.length (by simp [← hlength]) rest rfl)
      | some replacement =>
        obtain ⟨auth, function, more, hkinds⟩ := authPrefix_some hlead
        obtain ⟨rfl, rfl⟩ := List.cons.inj hkinds
        exact .call auth function replacement (ih more.length (by simp [← hlength]; omega) more rfl)

/-- What a text without comments is rewritten to has none either, and has the rewritten tokens. -/
theorem rewriteAuthFunctions_spec {sql out : List Char} (h : rewriteAuthFunctions sql false = .ok out) :
    ∃ tokens kinds, lex sql false = .ok tokens ∧ Reads none out kinds ∧
      Rewritten (tokens.map Token.kind) kinds := by
  simp only [rewriteAuthFunctions, bind_ok_iff, require_ok_iff] at h
  obtain ⟨tokens, hlex, _, _, hrewrite⟩ := h
  obtain ⟨text, rfl, hrewritten⟩ := @rewriteFrom_at false [] [] sql out tokens (placed_of_lex hlex) hrewrite
  exact ⟨tokens, _, hlex, hrewritten.passages.reads, rewritten_rewriteKinds _⟩

def tokenKinds (text : List Char) : List TokenKind :=
  match lex text false with
  | .ok tokens => tokens.map Token.kind
  | .error _ => []

/-- Tokens that cannot get out of parentheses around them: no prefix closes more than it
opens, all that is opened is closed, and no statement ends among them. -/
structure Contained (kinds : List TokenKind) : Prop where
  balanced : parenthesisDepth 0 kinds = some 0
  single : .symbol ';' ∉ kinds

theorem tokenKinds_of_reads {text : List Char} {kinds : List TokenKind} (h : Reads none text kinds) :
    tokenKinds text = kinds := by
  obtain ⟨tokens, hlex, hkinds⟩ := lex_of_reads false h
  rw [tokenKinds, hlex]
  exact hkinds

theorem Rewritten.contained {kinds kinds' : List TokenKind} (h : Rewritten kinds kinds') (hkinds : Contained kinds) :
    Contained kinds' where
  balanced := by
    rw [h.parenthesisDepth_eq]
    exact hkinds.balanced
  single := fun hmem => hkinds.single (h.symbol_mem hmem)

/-- A checked predicate reads as tokens without comments, which are contained. -/
theorem Predicate.reads (predicate : Predicate) :
    trim predicate.sql ≠ [] ∧
      ∃ kinds, Reads none predicate.sql kinds ∧ tokenKinds predicate.sql = kinds ∧ Contained kinds := by
  have hvalid := predicate.valid
  simp only [validatePredicate, bind_ok_iff, require_ok_iff] at hvalid
  obtain ⟨_, hne, tokens, hlex, _, hsingle, depth, hdepth, _, hzero, _⟩ := hvalid
  have hreads := reads_of_lex hlex
  refine ⟨by simpa using hne, _, hreads, tokenKinds_of_reads hreads, ?_, ?_⟩
  · exact predicateDepth_ok (by simpa [decide_eq_true_eq.mp hzero] using hdepth)
  · intro hmem
    obtain ⟨token, htoken, hkind⟩ := List.mem_map.mp hmem
    simp only [Bool.not_eq_true', List.any_eq_false, decide_eq_true_eq] at hsingle
    exact hsingle token htoken hkind

/-- What a predicate is rewritten to lexes without comments, and its tokens stay contained. -/
theorem Predicate.contained (predicate : Predicate) :
    Reads none predicate.sqliteSql (tokenKinds predicate.sqliteSql) ∧
      Contained (tokenKinds predicate.sqliteSql) := by
  obtain ⟨tokens, kinds, hlex, hreads, hrewritten⟩ := rewriteAuthFunctions_spec predicate.rewritten
  obtain ⟨-, kinds', hreads', -, hcontained⟩ := predicate.reads
  obtain ⟨tokens', hlex', rfl⟩ := lex_of_reads false hreads'
  obtain rfl : tokens = tokens' := Except.ok.inj (hlex.symm.trans hlex')
  rw [tokenKinds_of_reads hreads]
  exact ⟨hreads, hrewritten.contained hcontained⟩

end Ffdb.Sql
