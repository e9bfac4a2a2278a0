import Ffdb.Sql.Policy
import Ffdb.Sql.Containment

/-! Policy statements written out: what the parser can produce is read back from its text, and what it accepts has
contained predicates and is read to its end. -/
namespace Ffdb.Sql
open Text Fallible Scan

def commandText : PolicyCommand → String
  | .all => "ALL"
  | .select => "SELECT"
  | .insert => "INSERT"
  | .update => "UPDATE"
  | .delete => "DELETE"

def modeText : PolicyMode → String
  | .permissive => "PERMISSIVE"
  | .restrictive => "RESTRICTIVE"

def keyword (word : String) : List Char := ' ' :: word.toList

def identifierText (name : Identifier) : List Char := ' ' :: name.quoted

def rolesText : List RoleName → List Char
  | [] => []
  | [role] => identifierText role.name
  | role :: next :: rest => identifierText role.name ++ ',' :: rolesText (next :: rest)

def predicateText (predicate : Predicate) : List Char := ' ' :: '(' :: (predicate.sql ++ [')'])

def optionalText {α : Type} (word : String) (text : α → List Char) : Option α → List Char
  | some value => keyword word ++ text value
  | none => []

def checkText (predicate : Predicate) : List Char := keyword "CHECK" ++ predicateText predicate

def actionText : AlterTableRls → List Char
  | .enable => keyword "ENABLE"
  | .disable => keyword "DISABLE"
  | .force => keyword "FORCE"
  | .noForce => keyword "NO" ++ keyword "FORCE"

def RlsStatement.text : RlsStatement → List Char
  | .alterTable table action =>
    "ALTER".toList ++ (keyword "TABLE" ++ (identifierText table ++ (actionText action ++
      (keyword "ROW" ++ (keyword "LEVEL" ++ keyword "SECURITY")))))
  | .createPolicy s =>
    "CREATE".toList ++ (keyword "POLICY" ++ (identifierText s.name ++ (keyword "ON" ++ (identifierText s.table ++
      (optionalText "AS" (fun mode => keyword (modeText mode)) (some s.mode) ++
        (optionalText "FOR" (fun command => keyword (commandText command)) (some s.command) ++
          (optionalText "TO" rolesText (some s.roles) ++ (optionalText "USING" predicateText s.usingClause ++
            optionalText "WITH" checkText s.withCheck))))))))
  | .alterPolicy s =>
    "ALTER".toList ++ (keyword "POLICY" ++ (identifierText s.name ++ (keyword "ON" ++ (identifierText s.table ++
      match s.renameTo with
      | some name => keyword "RENAME" ++ (keyword "TO" ++ identifierText name)
      | none => optionalText "TO" rolesText s.roles ++ (optionalText "USING" predicateText s.usingClause ++
          optionalText "WITH" checkText s.withCheck)))))
  | .dropPolicy s =>
    "DROP".toList ++ (keyword "POLICY" ++ ((if s.ifExists then keyword "IF" ++ keyword "EXISTS" else []) ++
      (identifierText s.name ++ (keyword "ON" ++ identifierText s.table))))

section Places
variable {allow : Bool}

theorem Passage.unique {text text' rest rest' : List Char} {kinds kinds' : List TokenKind}
    (h : Passage allow text rest.head? kinds) (h' : Passage allow text' rest'.head? kinds')
    (hsame : text ++ rest = text' ++ rest') : text = text' ∧ rest = rest' ∧ kinds = kinds' := by
  obtain ⟨c, more, rfl⟩ := List.exists_cons_of_ne_nil h.ne_nil
  obtain ⟨c', more', rfl⟩ := List.exists_cons_of_ne_nil h'.ne_nil
  rw [List.cons_append, List.cons_append, List.cons.injEq] at hsame
  obtain ⟨rfl, hmore⟩ := hsame
  obtain ⟨t, skip, label, hturn, hdrop, -, emitted, htokens, hemits⟩ := lexBody_passage {} h
  obtain ⟨t', skip', label', hturn', hdrop', -, emitted', htokens', hemits'⟩ := lexBody_passage {} h'
  rw [hmore, hturn'] at hturn
  cases hturn
  have hrest : rest = rest' := by rw [← hdrop, ← hdrop', hmore]
  subst hrest
  refine ⟨by rw [List.append_cancel_right hmore], rfl, ?_⟩
  rw [htokens] at htokens'
  obtain rfl := List.append_cancel_left htokens'
  exact hemits.map_kind.symm.trans hemits'.map_kind

theorem Placed.split {index : Nat} {text rest : List Char} {kinds : List TokenKind} {tokens : List Token}
    (h : Placed allow index (text ++ rest) tokens) (hpassage : Passage allow text rest.head? kinds) :
    ∃ emitted more, tokens = emitted ++ more ∧ Emits index text kinds emitted ∧
      Placed allow (index+byteLength text) rest more := by
  generalize hall : text ++ rest = all at h
  cases h with
  | nil => exact absurd (List.append_eq_nil_iff.mp hall).1 hpassage.ne_nil
  | cons h hemits hrest =>
    obtain ⟨rfl, rfl, rfl⟩ := hpassage.unique h hall
    exact ⟨_, _, rfl, hemits, hrest⟩

theorem Placed.token {index : Nat} {text rest : List Char} {kind : TokenKind} {tokens : List Token}
    (h : Placed allow index (text ++ rest) tokens) (hlexeme : Lexeme text rest.head? [kind]) :
    ∃ more, tokens = ⟨kind, index, index+byteLength text⟩ :: more ∧ Placed allow (index+byteLength text) rest more := by
  obtain ⟨emitted, more, rfl, hemits, hrest⟩ := h.split (.lexeme hlexeme)
  rw [hemits.place kind rfl]
  exact ⟨more, rfl, hrest⟩

theorem Placed.space {index : Nat} {rest : List Char} {tokens : List Token}
    (h : Placed allow index (' ' :: rest) tokens) : Placed allow (index+1) rest tokens := by
  obtain ⟨emitted, more, rfl, hemits, hrest⟩ := @Placed.split allow index [' '] rest [] tokens h (.lexeme (.space rfl))
  have hnone : emitted = [] := by simpa using hemits.map_kind
  rw [hnone]
  exact hrest

theorem Placed.reads {index : Nat} {text rest : List Char} {c : Char} {kinds : List TokenKind} {tokens : List Token}
    (hreads : Reads (some c) text kinds) (h : Placed allow index (text ++ c :: rest) tokens) :
    ∃ emitted more, tokens = emitted ++ more ∧ emitted.map Token.kind = kinds ∧
      Placed allow (index+byteLength text) (c :: rest) more := by
  induction hreads generalizing index tokens with
  | nil => exact ⟨[], tokens, rfl, rfl, h⟩
  | @cons text rest' kinds more hlexeme _ ih =>
    rw [List.append_assoc] at h
    have hnext : rest'.head?.or (some c) = (rest' ++ c :: rest).head? := by cases rest' <;> rfl
    rw [hnext] at hlexeme
    obtain ⟨emitted, others, rfl, hemits, hrest⟩ := h.split (.lexeme hlexeme)
    obtain ⟨emitted', last, rfl, hkinds, hlast⟩ := ih hrest
    refine ⟨emitted ++ emitted', last, by simp, by rw [List.map_append, hemits.map_kind, hkinds], ?_⟩
    rw [byteLength_append, ← Nat.add_assoc]
    exact hlast

def Legible (text : List Char) : Prop := ∃ kinds, Passages true text kinds

theorem Legible.lexeme {text rest : List Char} {kinds : List TokenKind} (hlexeme : Lexeme text rest.head? kinds)
    (h : Legible rest) : Legible (text ++ rest) := by
  obtain ⟨more, hrest⟩ := h
  exact ⟨_, .cons (.lexeme hlexeme) hrest⟩

theorem Legible.space {rest : List Char} (h : Legible rest) : Legible (' ' :: rest) :=
  @Legible.lexeme [' '] rest [] (.space rfl) h

theorem Legible.reads {text rest : List Char} {c : Char} {kinds : List TokenKind} (hreads : Reads (some c) text kinds)
    (h : Legible (c :: rest)) : Legible (text ++ c :: rest) := by
  induction hreads with
  | nil => exact h
  | @cons text rest' kinds more hlexeme _ ih =>
    have hnext : rest'.head?.or (some c) = (rest' ++ c :: rest).head? := by cases rest' <;> rfl
    rw [hnext] at hlexeme
    rw [List.append_assoc]
    exact ih.lexeme hlexeme

end Places

section Reading
variable {sql : List Char} {α β : Type} {F G : List Char → Prop}

/-- In front of every text that may follow it, a text is one the lexer goes through, and a parser takes its tokens
wherever they stand. -/
structure Takes (sql : List Char) (F : List Char → Prop) (p : Parser α) (text : List Char) (a : α) : Prop where
  legible : ∀ back, F back → Legible back → Legible (text ++ back)
  reads : ∀ front back tokens, sql = front ++ (text ++ back) → F back →
    Placed true (byteLength front) (text ++ back) tokens →
    ∃ rest, p tokens = .ok (a, rest) ∧ Placed true (byteLength (front ++ text)) back rest

theorem parser_bind {p : Parser α} {f : α → Parser β} {tokens rest : List Token} {a : α}
    (h : p tokens = .ok (a, rest)) : (p >>= f) tokens = f a rest := by
  change (p tokens >>= fun r => f r.1 r.2) = f a rest
  rw [h]
  rfl

theorem Takes.pure (a : α) : Takes sql F (pure a) [] a where
  legible := fun _ _ hlegible => hlegible
  reads := by
    intro front back tokens _ _ h
    exact ⟨tokens, rfl, by rwa [List.append_nil]⟩

theorem Takes.bind {p : Parser α} {f : α → Parser β} {text text' : List Char} {a : α} {b : β}
    (h : Takes sql F p text a) (h' : Takes sql G (f a) text' b) (hfollow : ∀ back, G back → F (text' ++ back)) :
    Takes sql G (p >>= f) (text ++ text') b where
  legible := by
    intro back hback hlegible
    rw [List.append_assoc]
    exact h.legible _ (hfollow back hback) (h'.legible back hback hlegible)
  reads := by
    intro front back tokens hsql hback hplaced
    rw [List.append_assoc] at hsql hplaced
    obtain ⟨rest, hp, hrest⟩ := h.reads front (text' ++ back) tokens hsql (hfollow back hback) hplaced
    obtain ⟨last, hf, hlast⟩ := h'.reads (front ++ text) back rest (by rw [hsql, List.append_assoc]) hback hrest
    refine ⟨last, (parser_bind hp).trans hf, ?_⟩
    rwa [List.append_assoc] at hlast

/-- The last of two steps that takes nothing. -/
theorem Takes.map {p : Parser α} {text : List Char} {a : α} (h : Takes sql F p text a) (f : α → β) :
    Takes sql F (p >>= fun value => Pure.pure (f value)) text (f a) := by
  have hbind := h.bind (f := fun value => (Pure.pure (f value) : Parser β)) (Takes.pure (F := F) _) fun _ hback => hback
  rwa [List.append_nil] at hbind

def Stop (back : List Char) : Prop := ∀ c, back.head? = some c → c = ' ' ∨ c = ','

theorem stop_space (back : List Char) : Stop (' ' :: back) := by
  intro c hc
  cases hc
  exact .inl rfl

theorem stop_keyword (word : String) (back : List Char) : Stop (keyword word ++ back) := stop_space _

theorem Stop.next {back : List Char} (h : Stop back) :
    back.head?.any isWordContinue = false ∧ back.head? ≠ some '"' := by
  cases hhead : back.head? with
  | none => simp
  | some c =>
    obtain rfl | rfl := h c hhead <;> decide

def IsKeyword (word : String) : Prop :=
  ∃ c more, word.toList = c :: more ∧ isWordStart c = true ∧ ∀ d ∈ more, isWordContinue d = true

theorem IsKeyword.lexeme {word : String} (h : IsKeyword word) {back : List Char} (hback : Stop back) :
    Lexeme word.toList back.head? [.word word.toList] := by
  obtain ⟨c, more, hword, hc, hmore⟩ := h
  rw [hword]
  exact .word hc hmore hback.next.1

theorem isKeyword_of {word : String}
    (h : (word.toList.head?.any isWordStart && word.toList.all isWordContinue) = true) : IsKeyword word := by
  rw [Bool.and_eq_true] at h
  cases hword : word.toList with
  | nil =>
    rw [hword] at h
    cases h.1
  | cons c more =>
    rw [hword, List.all_cons, Bool.and_eq_true] at h
    exact ⟨c, more, hword, h.1, List.all_eq_true.mp h.2.2⟩

theorem byteLength_behind_space (front text : List Char) :
    byteLength (front ++ ' ' :: text) = byteLength front+1+byteLength text := by
  rw [byteLength_append, byteLength_cons, ← Nat.add_assoc]
  rfl

theorem consumeKeyword_hit (word : String) (start stop : Nat) (rest : List Token) :
    Parser.consumeKeyword word (⟨.word word.toList, start, stop⟩ :: rest) = .ok (true, rest) := by
  simp [Parser.consumeKeyword, eqIgnoreAsciiCase]

theorem takes_consume {word : String} (h : IsKeyword word) :
    Takes sql Stop (Parser.consumeKeyword word) (keyword word) true where
  legible := fun _ hback hlegible => (hlegible.lexeme (h.lexeme hback)).space
  reads := by
    intro front back tokens _ hback hplaced
    obtain ⟨rest, rfl, hrest⟩ := Placed.token (Placed.space hplaced) (h.lexeme hback)
    refine ⟨rest, consumeKeyword_hit word _ _ rest, ?_⟩
    rwa [keyword, byteLength_behind_space]

/-- The keyword that a statement begins with. -/
theorem takes_first {word : String} (h : IsKeyword word) :
    Takes sql Stop (Parser.consumeKeyword word) word.toList true where
  legible := fun _ hback hlegible => hlegible.lexeme (h.lexeme hback)
  reads := by
    intro front back tokens _ hback hplaced
    obtain ⟨rest, rfl, hrest⟩ := hplaced.token (h.lexeme hback)
    refine ⟨rest, consumeKeyword_hit word _ _ rest, ?_⟩
    rwa [byteLength_append]

theorem takes_keyword {word : String} (h : IsKeyword word) :
    Takes sql Stop (Parser.expectKeyword sql word) (keyword word) () := by
  have hpure : Takes sql Stop (if true then pure () else Parser.fail sql ("expected " ++ word)) [] () := Takes.pure ()
  have hbind : Takes sql Stop (Parser.expectKeyword sql word) (keyword word ++ []) () :=
    (takes_consume h).bind hpure fun _ hback => hback
  rwa [List.append_nil] at hbind

theorem new_value (name : Identifier) : Parser.newIdentifier name.value = .ok name := by
  have hempty := name.nonempty
  have hbounded : ¬ name.value.length > 128 := Nat.not_lt.mpr name.bounded
  simp [Parser.newIdentifier, Identifier.new, hempty, hbounded, name.printable, Except.mapError]

theorem tokenIdentifier_quoted {name : Identifier} (h : name.isInternal = false) (start stop : Nat) :
    Parser.tokenIdentifier ⟨.identifier name.value, start, stop⟩ = .ok name := by
  simp [Parser.tokenIdentifier, new_value, h, bind, Except.bind, require, pure, Except.pure]

theorem quoted_lexeme (name : Identifier) {back : List Char} (hback : Stop back) :
    Lexeme name.quoted back.head? [.identifier name.value] := .quoted rfl hback.next.2

theorem placed_identifier {index : Nat} {name : Identifier} {back : List Char} {tokens : List Token}
    (h : Placed true index (identifierText name ++ back) tokens) (hback : Stop back) :
    ∃ start stop rest, tokens = ⟨.identifier name.value, start, stop⟩ :: rest ∧
      Placed true (index+1+byteLength name.quoted) back rest := by
  obtain ⟨rest, rfl, hrest⟩ := Placed.token (Placed.space h) (quoted_lexeme name hback)
  exact ⟨_, _, rest, rfl, hrest⟩

theorem takes_identifier {name : Identifier} (h : name.isInternal = false) :
    Takes sql Stop (Parser.identifier sql) (identifierText name) name where
  legible := fun _ hback hlegible => (hlegible.lexeme (quoted_lexeme name hback)).space
  reads := by
    intro front back tokens _ hback hplaced
    obtain ⟨start, stop, rest, rfl, hrest⟩ := placed_identifier hplaced hback
    refine ⟨rest, ?_, by rwa [identifierText, byteLength_behind_space]⟩
    simp [Parser.identifier, tokenIdentifier_quoted h, bind, Except.bind, pure, Except.pure]

theorem consumeKeyword_miss {word : String} {value : List Char} (h : eqIgnoreAsciiCase value word.toList = false)
    (start stop : Nat) (rest : List Token) :
    Parser.consumeKeyword word (⟨.word value, start, stop⟩ :: rest) =
      .ok (false, ⟨.word value, start, stop⟩ :: rest) := by
  simp only [Parser.consumeKeyword, h, Bool.false_eq_true, if_false]

def Misses (word : String) (text : List Char) : Prop :=
  ∀ index tokens, Placed true index text tokens → Parser.consumeKeyword word tokens = .ok (false, tokens)

theorem Takes.pass {word : String} {f : Bool → Parser β} {text : List Char} {b : β}
    (h : Takes sql F (f false) text b) (hmiss : ∀ back, F back → Misses word (text ++ back)) :
    Takes sql F (Parser.consumeKeyword word >>= f) text b where
  legible := h.legible
  reads := by
    intro front back tokens hsql hback hplaced
    obtain ⟨rest, hf, hrest⟩ := h.reads front back tokens hsql hback hplaced
    exact ⟨rest, (parser_bind (hmiss back hback _ tokens hplaced)).trans hf, hrest⟩

theorem misses_first {word other : String} {back : List Char} (hother : IsKeyword other)
    (hne : eqIgnoreAsciiCase other.toList word.toList = false) (hback : Stop back) :
    Misses word (other.toList ++ back) := by
  intro index tokens hplaced
  obtain ⟨rest, rfl, -⟩ := hplaced.token (hother.lexeme hback)
  exact consumeKeyword_miss hne _ _ rest

theorem misses_keyword {word other : String} {back : List Char} (hother : IsKeyword other)
    (hne : eqIgnoreAsciiCase other.toList word.toList = false) (hback : Stop back) :
    Misses word (keyword other ++ back) :=
  fun index tokens hplaced => misses_first hother hne hback (index+1) tokens (Placed.space hplaced)

theorem misses_name {word : String} {back : List Char} (name : Identifier) (hback : Stop back) :
    Misses word (identifierText name ++ back) := by
  intro index tokens hplaced
  obtain ⟨start, stop, rest, rfl, -⟩ := placed_identifier hplaced hback
  rfl

theorem Placed.of_nil {index : Nat} {tokens : List Token} (h : Placed true index [] tokens) : tokens = [] := by
  generalize htext : ([] : List Char) = text at h
  cases h with
  | nil => rfl
  | cons hpassage _ _ => exact absurd (List.append_eq_nil_iff.mp htext.symm).1 hpassage.ne_nil

theorem misses_nil (word : String) : Misses word [] := by
  intro index tokens hplaced
  rw [hplaced.of_nil]
  rfl

def Behind (words : List String) (back : List Char) : Prop :=
  back = [] ∨ ∃ word rest, IsKeyword word ∧
    (∀ other ∈ words, eqIgnoreAsciiCase word.toList other.toList = false) ∧ Stop rest ∧ back = keyword word ++ rest

theorem Behind.stop {words : List String} {back : List Char} (h : Behind words back) : Stop back := by
  obtain rfl | ⟨word, rest, -, -, -, rfl⟩ := h
  · intro c hc
    cases hc
  · exact stop_keyword word _

theorem Behind.misses {words : List String} {word : String} {back : List Char} (h : Behind words back)
    (hword : word ∈ words) : Misses word back := by
  obtain rfl | ⟨other, rest, hother, hnone, hrest, rfl⟩ := h
  · exact misses_nil word
  · exact misses_keyword hother (hnone word hword) hrest

theorem Behind.tokens {words : List String} {back : List Char} {index : Nat} {tokens : List Token}
    (h : Behind words back) (hplaced : Placed true index back tokens) :
    tokens = [] ∨ ∃ word start stop rest, tokens = ⟨.word word, start, stop⟩ :: rest := by
  obtain rfl | ⟨word, rest, hword, -, hrest, rfl⟩ := h
  · exact .inl hplaced.of_nil
  · obtain ⟨more, rfl, -⟩ := Placed.token (Placed.space hplaced) (hword.lexeme hrest)
    exact .inr ⟨_, _, _, more, rfl⟩

theorem takes_none {words : List String} {word : String} (clause : Parser α) (h : word ∈ words) :
    Takes sql (Behind words) (Parser.optional word clause) [] none :=
  (Takes.pure none).pass fun _ hback => hback.misses h

theorem takes_some {word : String} {clause : Parser α} {text : List Char} {a : α} (hword : IsKeyword word)
    (h : Takes sql F clause text a) (hstop : ∀ back, F back → Stop (text ++ back)) :
    Takes sql F (Parser.optional word clause) (keyword word ++ text) (some a) :=
  (takes_consume hword).bind (h.map some) hstop

theorem takes_optional {words : List String} {word : String} {clause : Parser α} {text : α → List Char}
    {value : Option α} (hword : IsKeyword word) (hmem : word ∈ words)
    (h : ∀ a ∈ value, Takes sql (Behind words) clause (text a) a) (hspace : ∀ a ∈ value, ∃ more, text a = ' ' :: more) :
    Takes sql (Behind words) (Parser.optional word clause) (optionalText word text value) value := by
  cases value with
  | none => exact takes_none clause hmem
  | some a =>
    refine takes_some hword (h a rfl) fun back _ => ?_
    obtain ⟨more, hmore⟩ := hspace a rfl
    rw [hmore]
    exact stop_space _

theorem behind_optional {words words' : List String} {word : String} {text : α → List Char} {value : Option α}
    (hword : IsKeyword word) (hnone : ∀ other ∈ words, eqIgnoreAsciiCase word.toList other.toList = false)
    (hspace : ∀ a ∈ value, ∃ more, text a = ' ' :: more) (hwords : words ⊆ words') {back : List Char}
    (h : Behind words' back) : Behind words (optionalText word text value ++ back) := by
  cases value with
  | none =>
    obtain rfl | ⟨other, rest, hother, hothers, hrest, rfl⟩ := h
    · exact .inl rfl
    · exact .inr ⟨other, rest, hother, fun w hw => hothers w (hwords hw), hrest, rfl⟩
  | some a =>
    obtain ⟨more, hmore⟩ := hspace a rfl
    exact .inr ⟨word, ' ' :: more ++ back, hword, hnone, stop_space _, by simp [optionalText, hmore]⟩

theorem stop_comma (back : List Char) : Stop (',' :: back) := by
  intro c hc
  cases hc
  exact .inr rfl

theorem legible_roles {roles : List RoleName} {back : List Char} (hback : Stop back) (h : Legible back) :
    Legible (rolesText roles ++ back) := by
  induction roles with
  | nil => exact h
  | cons role roles ih =>
    cases roles with
    | nil => exact (h.lexeme (quoted_lexeme role.name hback)).space
    | cons next more =>
      have hcomma : Legible (',' :: (rolesText (next :: more) ++ back)) :=
        @Legible.lexeme [','] _ [.symbol ','] (.symbol rfl) ih
      rw [rolesText, List.append_assoc]
      exact (hcomma.lexeme (quoted_lexeme role.name (stop_comma _))).space

theorem takes_roles {words : List String} {roles : List RoleName} (hne : roles ≠ [])
    (hpublic : ∀ role ∈ roles, role.name.isInternal = false) :
    Takes sql (Behind words) (Parser.roleList sql) (rolesText roles) roles where
  legible := fun _ hback hlegible => legible_roles hback.stop hlegible
  reads := by
    intro front back tokens hsql hback hplaced
    clear hsql
    rw [byteLength_append]
    generalize byteLength front = index at hplaced ⊢
    induction roles generalizing index tokens with
    | nil => exact absurd rfl hne
    | cons role roles ih =>
      have hrole := hpublic role List.mem_cons_self
      cases roles with
      | nil =>
        obtain ⟨start, stop, rest, rfl, hrest⟩ := placed_identifier hplaced hback.stop
        refine ⟨rest, ?_, by rwa [rolesText, identifierText, byteLength_cons, ← Nat.add_assoc]⟩
        obtain rfl | ⟨word, start', stop', more, rfl⟩ := hback.tokens hrest <;>
          simp [Parser.roleList, tokenIdentifier_quoted hrole, bind, Except.bind, pure, Except.pure]
      | cons next more =>
        have htext : rolesText (role :: next :: more) ++ back =
            identifierText role.name ++ ',' :: (rolesText (next :: more) ++ back) := by simp [rolesText]
        have hlength : index+byteLength (rolesText (role :: next :: more)) =
            index+1+byteLength role.name.quoted+byteLength [',']+byteLength (rolesText (next :: more)) := by
          simp only [rolesText, identifierText, byteLength_append, byteLength_cons]
          change _ = index + ' '.utf8Size + byteLength role.name.quoted + ','.utf8Size +
            byteLength (rolesText (next :: more))
          omega
        rw [htext] at hplaced
        obtain ⟨start, stop, behind, rfl, hbehind⟩ := placed_identifier hplaced (stop_comma _)
        obtain ⟨rest, rfl, hrest⟩ := @Placed.token _ _ [','] _ _ _ hbehind (.symbol rfl)
        obtain ⟨last, hlast, hend⟩ := ih (List.cons_ne_nil _ _) (fun r hr => hpublic r (List.mem_cons_of_mem role hr))
          rest _ hrest
        refine ⟨last, ?_, by rwa [hlength]⟩
        simp [Parser.roleList, tokenIdentifier_quoted hrole, hlast, bind, Except.bind, pure, Except.pure]

theorem closingParenthesis_of_depth {depth depth' : Nat} {tokens : List Token}
    (h : parenthesisDepth depth (tokens.map Token.kind) = some depth') (rest : List Token) :
    Parser.closingParenthesis (depth+1) (tokens ++ rest) = Parser.closingParenthesis (depth'+1) rest := by
  induction tokens generalizing depth with
  | nil =>
    cases h
    rfl
  | cons token tokens ih =>
    rw [List.map_cons, parenthesisDepth] at h
    rw [List.cons_append, Parser.closingParenthesis]
    by_cases hopen : token.kind = .symbol '('
    · rw [if_pos hopen] at h ⊢
      exact ih h
    · rw [if_neg hopen] at h ⊢
      by_cases hclose : token.kind = .symbol ')'
      · rw [if_pos hclose] at h ⊢
        by_cases hzero : depth = 0
        · rw [if_pos hzero] at h
          cases h
        · rw [if_neg hzero] at h
          rw [if_neg (by omega)]
          obtain ⟨k, rfl⟩ : ∃ k, depth = k+1 := ⟨depth-1, by omega⟩
          exact ih h
      · rw [if_neg hclose] at h ⊢
        exact ih h

theorem Predicate.new_sql (predicate : Predicate) : Predicate.new predicate.sql = .ok predicate := by
  rw [Predicate.new]
  split
  · rfl
  · next error herror =>
    rw [predicate.valid] at herror
    cases herror

theorem predicateText_append (predicate : Predicate) (back : List Char) :
    predicateText predicate ++ back = ' ' :: (['('] ++ (predicate.sql ++ ([')'] ++ back))) := by
  simp [predicateText]

theorem legible_predicate (predicate : Predicate) {back : List Char} (h : Legible back) :
    Legible (predicateText predicate ++ back) := by
  obtain ⟨-, kinds, hreads, -, -⟩ := predicate.reads
  have hclosing : Legible (')' :: back) := @Legible.lexeme [')'] back [.symbol ')'] (.symbol rfl) h
  rw [predicateText_append]
  exact (@Legible.lexeme ['('] _ [.symbol '('] (.symbol rfl) (hclosing.reads (hreads.before_separator rfl))).space

theorem takes_predicate {predicate : Predicate} (htrim : trim predicate.sql = predicate.sql) :
    Takes sql F (Parser.parenthesizedPredicate sql) (predicateText predicate) predicate where
  legible := fun _ _ hlegible => legible_predicate predicate hlegible
  reads := by
    intro front back tokens hsql _ hplaced
    obtain ⟨hne, kinds, hreads, -, hcontained⟩ := predicate.reads
    rw [predicateText_append] at hsql hplaced
    obtain ⟨inside, rfl, hinside⟩ := @Placed.token _ _ ['('] _ _ _ (Placed.space hplaced) (.symbol rfl)
    obtain ⟨emitted, others, rfl, hkinds, hothers⟩ := Placed.reads (hreads.before_separator rfl) hinside
    obtain ⟨rest, rfl, hrest⟩ := @Placed.token _ _ [')'] back _ _ hothers (.symbol rfl)
    have hstart : byteLength front+1+byteLength ['('] = byteLength (front ++ [' ', '(']) := by
      rw [byteLength_append]
      rfl
    have hstop : byteLength front+1+byteLength ['(']+byteLength predicate.sql =
        byteLength (front ++ [' ', '('] ++ predicate.sql) := by rw [hstart, byteLength_append _ predicate.sql]
    have hend : byteLength front+1+byteLength ['(']+byteLength predicate.sql+byteLength [')'] =
        byteLength (front ++ predicateText predicate) := by
      rw [hstop, ← byteLength_append]
      simp [predicateText]
    refine ⟨rest, ?_, by rwa [← hend]⟩
    generalize hlast : (⟨.symbol ')', byteLength front+1+byteLength ['(']+byteLength predicate.sql,
      byteLength front+1+byteLength ['(']+byteLength predicate.sql+byteLength [')']⟩ : Token) = last
    have hclose : Parser.closingParenthesis 1 (emitted ++ last :: rest) = some (last, rest) := by
      rw [@closingParenthesis_of_depth 0 0 emitted (by rw [hkinds]; exact hcontained.balanced), ← hlast]
      rfl
    have hslice : sliceBytes sql (byteLength front+1+byteLength ['(']) last.start = predicate.sql := by
      have hwhole : sql = front ++ [' ', '('] ++ predicate.sql ++ ')' :: back := by
        rw [hsql]
        simp
      rw [← hlast, hwhole]
      change sliceBytes _ _ (byteLength front+1+byteLength ['(']+byteLength predicate.sql) = _
      rw [hstop, hstart]
      exact sliceBytes_append _ _ _
    rw [htrim] at hne
    simp [Parser.parenthesizedPredicate, hclose, hslice, htrim, hne, require, Predicate.new_sql, bind, Except.bind,
      pure, Except.pure]

theorem takes_hit {word : String} {f : Bool → Parser β} {b : β} (h : IsKeyword word) (hf : f true = pure b) :
    Takes sql Stop (Parser.consumeKeyword word >>= f) (keyword word) b := by
  have hpure : Takes sql Stop (f true) [] b := by
    rw [hf]
    exact Takes.pure b
  have hbind : Takes sql Stop (Parser.consumeKeyword word >>= f) (keyword word ++ []) b :=
    (takes_consume h).bind hpure fun _ hback => hback
  rwa [List.append_nil] at hbind

def words : List String :=
  ["CREATE", "ALTER", "DROP", "POLICY", "TABLE", "ON", "AS", "FOR", "TO", "USING", "WITH", "CHECK", "PERMISSIVE",
    "RESTRICTIVE", "ALL", "SELECT", "INSERT", "UPDATE", "DELETE", "ENABLE", "DISABLE", "FORCE", "NO", "ROW", "LEVEL",
    "SECURITY", "RENAME", "IF", "EXISTS"]

theorem isKeyword_words {word : String} (h : word ∈ words) : IsKeyword word := by
  have hall : words.all (fun word => word.toList.head?.any isWordStart && word.toList.all isWordContinue) = true := by
    decide +kernel
  exact isKeyword_of (List.all_eq_true.mp hall word h)

theorem words_differ {word other : String} (h : word ∈ words) (h' : other ∈ words) (hne : other ≠ word) :
    eqIgnoreAsciiCase other.toList word.toList = false := by
  have hall : words.all (fun word => words.all fun other =>
      decide (other = word) || !eqIgnoreAsciiCase other.toList word.toList) = true := by decide +kernel
  have hpair := List.all_eq_true.mp (List.all_eq_true.mp hall word h) other h'
  simpa [hne] using hpair

theorem Takes.miss {word other : String} {f : Bool → Parser β} {text : List Char} {b : β} (hword : word ∈ words)
    (hother : other ∈ words) (hne : other ≠ word) (hstop : ∀ back, F back → Stop (text ++ back))
    (h : Takes sql F (f false) (keyword other ++ text) b) :
    Takes sql F (Parser.consumeKeyword word >>= f) (keyword other ++ text) b := by
  refine h.pass fun back hback => ?_
  rw [List.append_assoc]
  exact misses_keyword (isKeyword_words hother) (words_differ hword hother hne) (hstop back hback)

theorem Takes.other {word other : String} {f : Bool → Parser β} {b : β} (hword : word ∈ words) (hother : other ∈ words)
    (hne : other ≠ word) (h : Takes sql Stop (f false) (keyword other) b) :
    Takes sql Stop (Parser.consumeKeyword word >>= f) (keyword other) b :=
  h.pass fun _ hback => misses_keyword (isKeyword_words hother) (words_differ hword hother hne) hback

theorem takes_mode (mode : PolicyMode) : Takes sql Stop (Parser.policyMode sql) (keyword (modeText mode)) mode := by
  cases mode with
  | permissive => exact takes_hit (isKeyword_words (by simp [words])) rfl
  | restrictive =>
    refine Takes.other (by simp [words]) (by simp [words, modeText]) (by simp [modeText]) ?_
    exact takes_hit (isKeyword_words (by simp [words])) rfl

theorem takes_command (command : PolicyCommand) :
    Takes sql Stop (Parser.policyCommand sql) (keyword (commandText command)) command := by
  have hword : commandText command ∈ words := by cases command <;> simp [commandText, words]
  have hhit : IsKeyword (commandText command) := isKeyword_words hword
  cases command with
  | all => exact takes_hit hhit rfl
  | select =>
    refine Takes.other (by simp [words]) hword (by simp [commandText]) ?_
    exact takes_hit hhit rfl
  | insert =>
    refine Takes.other (by simp [words]) hword (by simp [commandText]) ?_
    refine Takes.other (by simp [words]) hword (by simp [commandText]) ?_
    exact takes_hit hhit rfl
  | update =>
    refine Takes.other (by simp [words]) hword (by simp [commandText]) ?_
    refine Takes.other (by simp [words]) hword (by simp [commandText]) ?_
    refine Takes.other (by simp [words]) hword (by simp [commandText]) ?_
    exact takes_hit hhit rfl
  | delete =>
    refine Takes.other (by simp [words]) hword (by simp [commandText]) ?_
    refine Takes.other (by simp [words]) hword (by simp [commandText]) ?_
    refine Takes.other (by simp [words]) hword (by simp [commandText]) ?_
    refine Takes.other (by simp [words]) hword (by simp [commandText]) ?_
    exact takes_hit hhit rfl

theorem takes_then {word : String} {p : Parser β} {text : List Char} {b : β} (hword : word ∈ words)
    (h : Takes sql F p text b) (hstop : ∀ back, F back → Stop (text ++ back)) :
    Takes sql F (do
      Parser.expectKeyword sql word
      p) (keyword word ++ text) b :=
  (takes_keyword (isKeyword_words hword)).bind h hstop

theorem takes_check {predicate : Predicate} (htrim : trim predicate.sql = predicate.sql) :
    Takes sql F (Parser.checkClause sql) (checkText predicate) predicate :=
  takes_then (by simp [words]) (takes_predicate htrim) fun _ _ => stop_space _

theorem takes_rls (action : AlterTableRls) : Takes sql Stop (Parser.rowLevelSecurity sql action)
    (keyword "ROW" ++ (keyword "LEVEL" ++ keyword "SECURITY")) action := by
  have hsecurity : Takes sql Stop (do
      Parser.expectKeyword sql "SECURITY"
      pure action) (keyword "SECURITY") action :=
    (takes_keyword (isKeyword_words (by simp [words]))).map fun _ => action
  refine takes_then (by simp [words]) ?_ fun _ _ => stop_space _
  exact takes_then (by simp [words]) hsecurity fun _ _ => stop_space _

theorem takes_action (action : AlterTableRls) : Takes sql Stop (Parser.alterAction sql)
    (actionText action ++ (keyword "ROW" ++ (keyword "LEVEL" ++ keyword "SECURITY"))) action := by
  have hhit {word : String} (h : word ∈ words) : Takes sql Stop (Parser.consumeKeyword word) (keyword word) true :=
    takes_consume (isKeyword_words h)
  cases action with
  | enable => exact (hhit (by simp [words])).bind (takes_rls .enable) fun _ _ => stop_space _
  | disable =>
    refine Takes.miss (by simp [words]) (by simp [words]) (by simp) (fun _ _ => stop_space _) ?_
    exact (hhit (by simp [words])).bind (takes_rls .disable) fun _ _ => stop_space _
  | force =>
    refine Takes.miss (by simp [words]) (by simp [words]) (by simp) (fun _ _ => stop_space _) ?_
    refine Takes.miss (by simp [words]) (by simp [words]) (by simp) (fun _ _ => stop_space _) ?_
    exact (hhit (by simp [words])).bind (takes_rls .force) fun _ _ => stop_space _
  | noForce =>
    rw [actionText, List.append_assoc]
    refine Takes.miss (by simp [words]) (by simp [words]) (by simp) (fun _ _ => stop_space _) ?_
    refine Takes.miss (by simp [words]) (by simp [words]) (by simp) (fun _ _ => stop_space _) ?_
    refine Takes.miss (by simp [words]) (by simp [words]) (by simp) (fun _ _ => stop_space _) ?_
    refine (hhit (by simp [words])).bind ?_ fun _ _ => stop_space _
    exact takes_then (by simp [words]) (takes_rls .noForce) fun _ _ => stop_space _

end Reading

structure Produced (sql : List Char) (predicate : Predicate) : Prop where
  trimmed : trim predicate.sql = predicate.sql
  cut : predicate.sql <:+: sql

def NamedRoles (roles : List RoleName) : Prop := roles ≠ [] ∧ ∀ role ∈ roles, role.name.isInternal = false

def RlsStatement.Canonical (sql : List Char) : RlsStatement → Prop
  | .alterTable table _ => table.isInternal = false
  | .createPolicy s => (s.name.isInternal = false ∧ s.table.isInternal = false) ∧ NamedRoles s.roles ∧
      (∀ p ∈ s.usingClause, Produced sql p) ∧ (∀ p ∈ s.withCheck, Produced sql p) ∧
      ClausesAllowed s.command s.usingClause s.withCheck
  | .alterPolicy s => (s.name.isInternal = false ∧ s.table.isInternal = false) ∧
      match s.renameTo with
      | some name => name.isInternal = false ∧ s.roles = none ∧ s.usingClause = none ∧ s.withCheck = none
      | none => (∀ roles ∈ s.roles, NamedRoles roles) ∧ (∀ p ∈ s.usingClause, Produced sql p) ∧
          (∀ p ∈ s.withCheck, Produced sql p) ∧ (s.roles.isNone && s.usingClause.isNone && s.withCheck.isNone) = false
  | .dropPolicy s => s.name.isInternal = false ∧ s.table.isInternal = false

section Statements
variable {sql : List Char} {α β : Type} {F G : List Char → Prop}

def Ends (back : List Char) : Prop := back = []

theorem Takes.weaken {p : Parser α} {text : List Char} {a : α} (h : Takes sql F p text a)
    (hFG : ∀ back, G back → F back) : Takes sql G p text a where
  legible := fun back hback => h.legible back (hFG back hback)
  reads := fun front back tokens hsql hback => h.reads front back tokens hsql (hFG back hback)

theorem Ends.stop {back : List Char} (h : Ends back) : Stop back := by
  rw [h]
  intro c hc
  cases hc

theorem Ends.behind {back : List Char} (h : Ends back) (words : List String) : Behind words back := .inl h

theorem Takes.lift {x : Except RlsParseError α} {f : α → Parser β} {text : List Char} {a : α} {b : β}
    (hx : x = .ok a) (h : Takes sql F (f a) text b) : Takes sql F ((liftM x : Parser α) >>= f) text b where
  legible := h.legible
  reads := by
    intro front back tokens hsql hback hplaced
    obtain ⟨rest, hf, hrest⟩ := h.reads front back tokens hsql hback hplaced
    subst hx
    exact ⟨rest, (parser_bind rfl).trans hf, hrest⟩

theorem takes_named {name table : Identifier} (hname : name.isInternal = false) (htable : table.isInternal = false)
    {f : Identifier → Identifier → Parser β} {text : List Char} {b : β} (h : Takes sql F (f name table) text b)
    (hstop : ∀ back, F back → Stop (text ++ back)) :
    Takes sql F (do
      let name ← Parser.identifier sql
      Parser.expectKeyword sql "ON"
      let table ← Parser.identifier sql
      f name table) (identifierText name ++ (keyword "ON" ++ (identifierText table ++ text))) b := by
  refine (takes_identifier hname).bind ?_ fun _ _ => stop_space _
  exact takes_then (by simp [words]) ((takes_identifier htable).bind h hstop) fun _ _ => stop_space _

theorem rolesText_space {roles : List RoleName} (h : roles ≠ []) : ∃ more, rolesText roles = ' ' :: more := by
  cases roles with
  | nil => exact absurd rfl h
  | cons role rest => cases rest <;> exact ⟨_, rfl⟩

theorem behind_check (withCheck : Option Predicate) {before : List String}
    (hbefore : before ⊆ ["RENAME", "TO", "USING"]) {back : List Char} (h : Ends back) :
    Behind before (optionalText "WITH" checkText withCheck ++ back) := by
  refine behind_optional (isKeyword_words (by simp [words])) ?_ (fun _ _ => ⟨_, rfl⟩) (List.Subset.refl before)
    (h.behind before)
  intro other hother
  have hmem := hbefore hother
  simp only [List.mem_cons, List.not_mem_nil, or_false] at hmem
  exact words_differ (by obtain rfl | rfl | rfl := hmem <;> simp [words]) (by simp [words])
    (by obtain rfl | rfl | rfl := hmem <;> simp)

theorem behind_using (usingClause withCheck : Option Predicate) {before : List String}
    (hbefore : before ⊆ ["RENAME", "TO"]) {back : List Char} (h : Ends back) :
    Behind before (optionalText "USING" predicateText usingClause ++
      (optionalText "WITH" checkText withCheck ++ back)) := by
  have hcheck := behind_check withCheck (fun other hother => List.mem_append_left ["USING"] (hbefore hother)) h
  refine behind_optional (isKeyword_words (by simp [words])) ?_ (fun _ _ => ⟨_, rfl⟩) (fun _ h => h) hcheck
  intro other hother
  have hmem := hbefore hother
  simp only [List.mem_cons, List.not_mem_nil, or_false] at hmem
  exact words_differ (by obtain rfl | rfl := hmem <;> simp [words]) (by simp [words])
    (by obtain rfl | rfl := hmem <;> simp)

theorem takes_clauses {roles : Option (List RoleName)} {usingClause withCheck : Option Predicate}
    (hroles : ∀ names ∈ roles, NamedRoles names) (husing : ∀ p ∈ usingClause, trim p.sql = p.sql)
    (hcheck : ∀ p ∈ withCheck, trim p.sql = p.sql)
    {f : Option (List RoleName) → Option Predicate → Option Predicate → Parser β} {b : β}
    (h : Takes sql Ends (f roles usingClause withCheck) [] b) :
    Takes sql Ends (do
      let roles ← Parser.optional "TO" (Parser.roleList sql)
      let usingClause ← Parser.optional "USING" (Parser.parenthesizedPredicate sql)
      let withCheck ← Parser.optional "WITH" (Parser.checkClause sql)
      f roles usingClause withCheck)
      (optionalText "TO" rolesText roles ++ (optionalText "USING" predicateText usingClause ++
        (optionalText "WITH" checkText withCheck ++ []))) b := by
  refine (@takes_optional sql _ ["TO"] _ _ _ _ (isKeyword_words (by simp [words])) (by simp)
    (fun names hnames => takes_roles (hroles names hnames).1 (hroles names hnames).2)
    fun names hnames => rolesText_space (hroles names hnames).1).bind ?_ fun back hback => ?_
  · refine (@takes_optional sql _ ["USING"] _ _ _ _ (isKeyword_words (by simp [words])) (by simp)
      (fun p hp => takes_predicate (husing p hp)) fun _ _ => ⟨_, rfl⟩).bind ?_ fun back hback => ?_
    · exact (@takes_optional sql _ ["WITH"] _ _ _ _ (isKeyword_words (by simp [words])) (by simp)
        (fun p hp => takes_check (hcheck p hp)) fun _ _ => ⟨_, rfl⟩).bind h fun back hback => hback.behind _
    · rw [List.append_nil]
      exact behind_check withCheck (by simp) hback
  · rw [List.append_nil, List.append_assoc]
    exact behind_using usingClause withCheck (by simp) hback

theorem new_public : ∃ name, Parser.newIdentifier "public".toList = .ok name ∧ name.isInternal = false :=
  ⟨⟨"public".toList, by decide, by decide, by decide⟩, by rfl, by decide⟩

theorem ClausesAllowed.validated {command : PolicyCommand} {usingClause withCheck : Option Predicate}
    (h : ClausesAllowed command usingClause withCheck) :
    Parser.validatePolicyClauses command usingClause.isSome withCheck.isSome = .ok () := by
  simp only [Parser.validatePolicyClauses, bind_ok_iff, require_ok_iff]
  refine ⟨(), ?_, ?_⟩
  · by_cases hcommand : command = .insert
    · simp [h.onInsert hcommand]
    · simp [hcommand]
  · by_cases hcommand : command = .select ∨ command = .delete
    · simp [h.onRead hcommand]
    · simp only [not_or] at hcommand
      simp [hcommand]

theorem takes_create {s : CreatePolicy} (h : (RlsStatement.createPolicy s).Canonical source) :
    Takes sql Ends (Parser.parseCreatePolicy sql) (identifierText s.name ++ (keyword "ON" ++ (identifierText s.table ++
      (optionalText "AS" (fun mode => keyword (modeText mode)) (some s.mode) ++
        (optionalText "FOR" (fun command => keyword (commandText command)) (some s.command) ++
          (optionalText "TO" rolesText (some s.roles) ++ (optionalText "USING" predicateText s.usingClause ++
            optionalText "WITH" checkText s.withCheck))))))) s := by
  obtain ⟨⟨hname, htable⟩, hroles, husing, hcheck, hallowed⟩ := h
  obtain ⟨publicRole, hpublic, -⟩ := new_public
  refine takes_named hname htable ?_ fun _ _ => stop_space _
  refine Takes.lift hpublic ?_
  refine (takes_some (isKeyword_words (by simp [words])) (takes_mode s.mode) fun _ _ => stop_space _).bind ?_
    fun _ _ => stop_space _
  refine (takes_some (isKeyword_words (by simp [words])) (takes_command s.command) fun _ _ => stop_space _).bind ?_
    fun _ _ => stop_space _
  have hclauses := @takes_clauses sql CreatePolicy (some s.roles) s.usingClause s.withCheck
    (fun names hnames => by cases hnames; exact hroles) (fun p hp => (husing p hp).trimmed)
    fun p hp => (hcheck p hp).trimmed
  rw [List.append_nil] at hclauses
  refine hclauses (Takes.lift hallowed.validated ?_)
  exact Takes.pure s

theorem takes_alter {s : AlterPolicy} (h : (RlsStatement.alterPolicy s).Canonical source) :
    Takes sql Ends (Parser.parseAlterPolicy sql) (identifierText s.name ++ (keyword "ON" ++ (identifierText s.table ++
      match s.renameTo with
      | some name => keyword "RENAME" ++ (keyword "TO" ++ identifierText name)
      | none => optionalText "TO" rolesText s.roles ++ (optionalText "USING" predicateText s.usingClause ++
          optionalText "WITH" checkText s.withCheck)))) s := by
  obtain ⟨name, table, renameTo, roles, usingClause, withCheck⟩ := s
  obtain ⟨⟨hname, htable⟩, hclauses⟩ := h
  cases renameTo with
  | some renamed =>
    obtain ⟨hrenamed, hroles, husing, hcheck⟩ := hclauses
    subst hroles husing hcheck
    refine takes_named hname htable ?_ fun _ _ => stop_space _
    refine (takes_consume (isKeyword_words (by simp [words]))).bind ?_ fun _ _ => stop_space _
    refine takes_then (by simp [words]) ?_ fun _ _ => stop_space _
    exact ((takes_identifier hrenamed).map _).weaken fun _ hback => hback.stop
  | none =>
    obtain ⟨hroles, husing, hcheck, hsome⟩ := hclauses
    have htakes := @takes_clauses sql AlterPolicy roles usingClause withCheck hroles (fun p hp => (husing p hp).trimmed)
      fun p hp => (hcheck p hp).trimmed
    rw [List.append_nil] at htakes
    have hbehind (back : List Char) (hback : Ends back) : Behind ["RENAME"] (optionalText "TO" rolesText roles ++
        (optionalText "USING" predicateText usingClause ++ optionalText "WITH" checkText withCheck) ++ back) := by
      rw [List.append_assoc, List.append_assoc]
      refine behind_optional (isKeyword_words (by simp [words])) ?_
        (fun names hnames => rolesText_space (hroles names hnames).1) (List.Subset.refl _)
        (behind_using usingClause withCheck (by simp) hback)
      intro other hother
      rw [List.mem_singleton.mp hother]
      exact words_differ (by simp [words]) (by simp [words]) (by simp)
    refine takes_named hname htable (Takes.pass ?_ fun back hback => (hbehind back hback).misses (by simp))
      fun back hback => (hbehind back hback).stop
    refine htakes ?_
    simp only at hsome
    simp only [hsome]
    exact Takes.pure _

theorem takes_dropped {word : String} : Takes sql Ends (Parser.consumeKeyword word) [] false := by
  have hpass : Takes sql Ends (Parser.consumeKeyword word >>= pure) [] false :=
    (Takes.pure false).pass fun back hback => by
      rw [hback]
      exact misses_nil word
  rwa [bind_pure] at hpass

theorem takes_drop {s : DropPolicy} (hname : s.name.isInternal = false) (htable : s.table.isInternal = false) :
    Takes sql Ends (Parser.parseDropPolicy sql) ((if s.ifExists then keyword "IF" ++ keyword "EXISTS" else []) ++
      (identifierText s.name ++ (keyword "ON" ++ identifierText s.table))) s := by
  have hend : Takes sql Ends (do
      let cascade ← Parser.consumeKeyword "CASCADE"
      if !cascade then
        let _ ← Parser.consumeKeyword "RESTRICT"
        pure s
      else pure s) [] s :=
    takes_dropped.bind (f := fun cascade => if !cascade then do
      let _ ← Parser.consumeKeyword "RESTRICT"
      pure s else pure s) (takes_dropped.map fun _ => s) fun _ hback => hback
  have hnamed := takes_named hname htable (f := fun name table => (do
    let cascade ← Parser.consumeKeyword "CASCADE"
    if !cascade then
      let _ ← Parser.consumeKeyword "RESTRICT"
      pure ⟨name, table, s.ifExists⟩
    else pure ⟨name, table, s.ifExists⟩ : Parser DropPolicy)) hend fun _ (hback : Ends _) => hback.stop
  rw [List.append_nil] at hnamed
  unfold Parser.parseDropPolicy
  cases hexists : s.ifExists with
  | true =>
    rw [hexists] at hnamed
    rw [if_pos rfl, List.append_assoc]
    refine (takes_consume (isKeyword_words (by simp [words]))).bind ?_ fun _ _ => stop_space _
    exact takes_then (by simp [words]) hnamed fun _ _ => stop_space _
  | false =>
    rw [hexists] at hnamed
    rw [if_neg (by simp), List.nil_append]
    refine Takes.pass hnamed fun back _ => ?_
    rw [List.append_assoc]
    exact misses_name s.name (stop_space _)

/-- A parser reads the text of a statement from its beginning. -/
theorem takes_statement {statement : RlsStatement} (h : statement.Canonical source) :
    Takes sql Ends (Parser.statement sql) statement.text statement := by
  have hfirst {word other : String} {f : Bool → Parser RlsStatement} {text : List Char} (hword : word ∈ words)
      (hother : other ∈ words) (hne : other ≠ word) (h : Takes sql Ends (f false) (other.toList ++ text) statement)
      (hstop : ∀ back, Ends back → Stop (text ++ back)) :
      Takes sql Ends (Parser.consumeKeyword word >>= f) (other.toList ++ text) statement := by
    refine h.pass fun back hback => ?_
    rw [List.append_assoc]
    exact misses_first (isKeyword_words hother) (words_differ hword hother hne) (hstop back hback)
  cases statement with
  | createPolicy s =>
    refine (takes_first (isKeyword_words (by simp [words]))).bind ?_ fun _ _ => stop_space _
    exact takes_then (by simp [words]) ((takes_create h).map _) fun _ _ => stop_space _
  | alterPolicy s =>
    refine hfirst (by simp [words]) (by simp [words]) (by simp) ?_ fun _ _ => stop_space _
    refine (takes_first (isKeyword_words (by simp [words]))).bind ?_ fun _ _ => stop_space _
    refine Takes.miss (by simp [words]) (by simp [words]) (by simp) (fun _ _ => stop_space _) ?_
    exact takes_then (by simp [words]) ((takes_alter h).map _) fun _ _ => stop_space _
  | alterTable table action =>
    refine hfirst (by simp [words]) (by simp [words]) (by simp) ?_ fun _ _ => stop_space _
    refine (takes_first (isKeyword_words (by simp [words]))).bind ?_ fun _ _ => stop_space _
    refine (takes_consume (isKeyword_words (by simp [words]))).bind ?_ fun _ _ => stop_space _
    refine (takes_identifier h).bind ?_ fun back _ => ?_
    · exact ((takes_action action).map _).weaken fun _ hback => hback.stop
    · cases action <;> exact stop_space _
  | dropPolicy s =>
    refine hfirst (by simp [words]) (by simp [words]) (by simp) ?_ fun _ _ => stop_space _
    refine hfirst (by simp [words]) (by simp [words]) (by simp) ?_ fun _ _ => stop_space _
    refine (takes_first (isKeyword_words (by simp [words]))).bind ?_ fun _ _ => stop_space _
    refine takes_then (by simp [words]) ((takes_drop h.1 h.2).map _) fun _ _ => ?_
    cases s.ifExists <;> exact stop_space _

/-- What the parser can produce is read back from its text. -/
theorem parseRlsStatement_text {statement : RlsStatement} (h : statement.Canonical sql) :
    parseRlsStatement statement.text = .ok statement := by
  have htakes : Takes statement.text Ends (Parser.statement statement.text) statement.text statement :=
    takes_statement h
  obtain ⟨kinds, hpassages⟩ := htakes.legible [] rfl ⟨[], .nil⟩
  rw [List.append_nil] at hpassages
  obtain ⟨tokens, hlex, -⟩ := lex_of_passages hpassages
  have hplaced : Placed true (byteLength []) (statement.text ++ []) tokens := by
    rw [List.append_nil]
    exact placed_of_lex hlex
  obtain ⟨rest, hparse, hrest⟩ := htakes.reads [] [] tokens (by simp) rfl hplaced
  rw [hrest.of_nil] at hparse
  have hsome : tokens ≠ [] := by
    rintro rfl
    cases hparse
  simp [parseRlsStatement, hlex, hsome, hparse, require, Parser.expectEnd, bind, Except.bind, pure, Except.pure]

end Statements

section Produced
variable (sql : List Char)

theorem takeBytes_front (n : Nat) (text : List Char) : takeBytes n text <+: text := by
  fun_induction takeBytes n text with
  | case1 => exact List.nil_prefix
  | case2 => exact List.nil_prefix
  | case3 n c rest ih => exact (List.prefix_cons_inj c).mpr ih

theorem dropBytes_suffix (n : Nat) (text : List Char) : dropBytes n text <:+ text := by
  fun_induction dropBytes n text with
  | case1 text => exact List.suffix_rfl
  | case2 => exact List.suffix_rfl
  | case3 n c rest ih => exact ih.trans (List.suffix_cons c rest)

theorem trim_within (text : List Char) : trim text <:+: text := by
  obtain ⟨front, back, htext, -, -⟩ := trim_split text
  exact ⟨front, back, by rw [List.append_assoc]; exact htext.symm⟩

theorem sliceBytes_within (text : List Char) (start stop : Nat) : sliceBytes text start stop <:+: text :=
  (takeBytes_front _ _).isInfix.trans (dropBytes_suffix start text).isInfix

theorem tokenIdentifier_public {token : Token} {name : Identifier} (h : Parser.tokenIdentifier token = .ok name) :
    name.isInternal = false := by
  obtain ⟨kind, start, stop⟩ := token
  cases kind with
  | word value | identifier value =>
    simp only [Parser.tokenIdentifier, bind_ok_iff, require_ok_iff, pure_ok_iff] at h
    obtain ⟨_, _, _, hpublic, rfl⟩ := h
    simpa using hpublic
  | _ => cases h

theorem identifier_public : Ensures (Parser.identifier sql) fun name => name.isInternal = false := by
  intro tokens name rest h
  cases tokens with
  | nil => cases h
  | cons token tokens =>
    simp only [Parser.identifier, bind_ok_iff, pure_ok_iff, Prod.mk.injEq] at h
    obtain ⟨_, hname, rfl, _⟩ := h
    exact tokenIdentifier_public hname

theorem roleList_named : Ensures (Parser.roleList sql) NamedRoles := by
  intro tokens roles rest h
  fun_induction Parser.roleList sql tokens generalizing roles rest with
  | case1 => cases h
  | case2 token =>
    simp only [bind_ok_iff, pure_ok_iff, Prod.mk.injEq] at h
    obtain ⟨name, hname, rfl, _⟩ := h
    refine ⟨by simp, fun role hrole => ?_⟩
    rw [List.mem_singleton.mp hrole]
    exact tokenIdentifier_public hname
  | case3 token next tokens ih =>
    simp only [bind_ok_iff] at h
    obtain ⟨name, hname, h⟩ := h
    have hpublic := tokenIdentifier_public hname
    split at h
    · simp only [bind_ok_iff, pure_ok_iff, Prod.mk.injEq, Prod.exists] at h
      obtain ⟨more, last, hmore, rfl, _⟩ := h
      obtain ⟨-, hmore⟩ := ih _ _ hmore
      refine ⟨by simp, fun role hrole => ?_⟩
      obtain rfl | hrole := List.mem_cons.mp hrole
      · exact hpublic
      · exact hmore role hrole
    · simp only [pure_ok_iff, Prod.mk.injEq] at h
      obtain ⟨rfl, _⟩ := h
      refine ⟨by simp, fun role hrole => ?_⟩
      rw [List.mem_singleton.mp hrole]
      exact hpublic

theorem sql_of_new {value : List Char} {predicate : Predicate} (h : Predicate.new value = .ok predicate) :
    predicate.sql = value := by
  rw [Predicate.new] at h
  split at h
  · cases h
    rfl
  · cases h

theorem parenthesizedPredicate_produced : Ensures (Parser.parenthesizedPredicate sql) (Produced sql) := by
  intro tokens predicate rest h
  cases tokens with
  | nil => cases h
  | cons opening tokens =>
    rw [Parser.parenthesizedPredicate] at h
    split at h
    · cases h
    split at h
    · cases h
    · next closing after _ =>
      simp only [bind_ok_iff, pure_ok_iff, Prod.mk.injEq] at h
      obtain ⟨_, _, found, hnew, rfl, _⟩ := h
      have hsql := sql_of_new hnew
      exact ⟨by rw [hsql, trim_trim], by rw [hsql]; exact (trim_within _).trans (sliceBytes_within sql _ _)⟩

theorem checkClause_produced : Ensures (Parser.checkClause sql) (Produced sql) :=
  Ensures.skip fun _ => parenthesizedPredicate_produced sql

theorem parseCreatePolicy_canonical :
    Ensures (Parser.parseCreatePolicy sql) fun s => (RlsStatement.createPolicy s).Canonical sql := by
  refine (identifier_public sql).bind fun name hname => Ensures.skip fun _ => ?_
  refine (identifier_public sql).bind fun table htable => ?_
  refine (Ensures.lift _).bind fun publicRole hrole => Ensures.skip fun mode => Ensures.skip fun command => ?_
  refine (Parser.optional_ensures (roleList_named sql)).bind fun roles hroles => ?_
  refine (Parser.optional_ensures (parenthesizedPredicate_produced sql)).bind fun usingClause husing => ?_
  refine (Parser.optional_ensures (checkClause_produced sql)).bind fun withCheck hcheck => ?_
  refine (Ensures.lift _).bind fun _ hvalid => Ensures.pure
    ⟨⟨hname, htable⟩, ?_, husing, hcheck, Parser.validatePolicyClauses_ok hvalid⟩
  cases roles with
  | some roles => exact hroles roles rfl
  | none =>
    obtain ⟨name, hnew, hpublic⟩ := new_public
    rw [hnew, Except.ok.injEq] at hrole
    subst hrole
    exact ⟨by simp, by simpa using hpublic⟩

theorem parseAlterPolicy_canonical :
    Ensures (Parser.parseAlterPolicy sql) fun s => (RlsStatement.alterPolicy s).Canonical sql := by
  refine (identifier_public sql).bind fun name hname => Ensures.skip fun _ => ?_
  refine (identifier_public sql).bind fun table htable => Ensures.skip fun rename => Ensures.ite ?_ ?_
  · refine Ensures.skip fun _ => (identifier_public sql).bind fun renameTo hrenamed => ?_
    exact Ensures.pure ⟨⟨hname, htable⟩, hrenamed, rfl, rfl, rfl⟩
  · refine (Parser.optional_ensures (roleList_named sql)).bind fun roles hroles => ?_
    refine (Parser.optional_ensures (parenthesizedPredicate_produced sql)).bind fun usingClause husing => ?_
    refine (Parser.optional_ensures (checkClause_produced sql)).bind fun withCheck hcheck => ?_
    cases hnone : (roles.isNone && usingClause.isNone && withCheck.isNone) with
    | true =>
      intro _ _ _ h
      cases h
    | false => exact Ensures.pure ⟨⟨hname, htable⟩, hroles, husing, hcheck, hnone⟩

theorem parseDropPolicy_canonical :
    Ensures (Parser.parseDropPolicy sql) fun s => (RlsStatement.dropPolicy s).Canonical sql := by
  refine Ensures.skip fun ifExists => ?_
  have hnamed (found : Bool) : Ensures (do
      let name ← Parser.identifier sql
      Parser.expectKeyword sql "ON"
      let table ← Parser.identifier sql
      if !(← Parser.consumeKeyword "CASCADE") then
        let _ ← Parser.consumeKeyword "RESTRICT"
      pure (⟨name, table, found⟩ : DropPolicy)) fun s => (RlsStatement.dropPolicy s).Canonical sql := by
    refine (identifier_public sql).bind fun name hname => Ensures.skip fun _ => ?_
    refine (identifier_public sql).bind fun table htable => Ensures.skip fun cascade => Ensures.ite ?_ ?_
    · exact Ensures.skip fun _ => Ensures.pure ⟨hname, htable⟩
    · exact Ensures.pure ⟨hname, htable⟩
  exact Ensures.ite (Ensures.skip fun _ => hnamed ifExists) (hnamed ifExists)

theorem statement_canonical : Ensures (Parser.statement sql) fun statement => statement.Canonical sql := by
  refine Ensures.skip fun create => Ensures.ite ?_ (Ensures.skip fun alter => Ensures.ite ?_
    (Ensures.skip fun drop => Ensures.ite ?_ ?_))
  · exact Ensures.skip fun _ => (parseCreatePolicy_canonical sql).bind fun s hs => Ensures.pure hs
  · refine Ensures.skip fun table => Ensures.ite ?_ ?_
    · exact (identifier_public sql).bind fun table htable => Ensures.skip fun action => Ensures.pure htable
    · exact Ensures.skip fun _ => (parseAlterPolicy_canonical sql).bind fun s hs => Ensures.pure hs
  · exact Ensures.skip fun _ => (parseDropPolicy_canonical sql).bind fun s hs => Ensures.pure hs
  · intro _ _ _ h
    cases h

end Produced

def RlsStatement.predicates : RlsStatement → List Predicate
  | .createPolicy s => s.usingClause.toList ++ s.withCheck.toList
  | .alterPolicy s => s.usingClause.toList ++ s.withCheck.toList
  | _ => []

theorem RlsStatement.Canonical.produced {sql : List Char} {statement : RlsStatement} (h : statement.Canonical sql)
    {predicate : Predicate} (hmem : predicate ∈ statement.predicates) : Produced sql predicate := by
  have hclauses {usingClause withCheck : Option Predicate} (husing : ∀ p ∈ usingClause, Produced sql p)
      (hcheck : ∀ p ∈ withCheck, Produced sql p) (hmem : predicate ∈ usingClause.toList ++ withCheck.toList) :
      Produced sql predicate := by
    obtain hmem | hmem := List.mem_append.mp hmem
    · exact husing predicate (Option.mem_toList.mp hmem)
    · exact hcheck predicate (Option.mem_toList.mp hmem)
  cases statement with
  | createPolicy s => exact hclauses h.2.2.1 h.2.2.2.1 hmem
  | alterPolicy s =>
    obtain ⟨name, table, renameTo, roles, usingClause, withCheck⟩ := s
    cases renameTo with
    | some name =>
      obtain ⟨-, -, -, rfl, rfl⟩ := h
      cases hmem
    | none => exact hclauses h.2.2.1 h.2.2.2.1 hmem
  | _ => cases hmem

/-- A statement that is accepted is read to its end, its predicates are contained parts of the text, and its own text
says the same again. -/
theorem parseRlsStatement_exact {sql : List Char} {statement : RlsStatement}
    (h : parseRlsStatement sql = .ok statement) :
    parseRlsStatement statement.text = .ok statement ∧
      (∀ predicate ∈ statement.predicates, trim predicate.sql ≠ [] ∧ predicate.sql <:+: sql ∧
        Reads none predicate.sql (tokenKinds predicate.sql) ∧ Contained (tokenKinds predicate.sql)) ∧
      ∃ tokens, lex sql true = .ok tokens ∧ Parser.statement sql tokens = .ok (statement, []) := by
  simp only [parseRlsStatement, bind_ok_iff, require_ok_iff, Prod.exists, pure_ok_iff] at h
  obtain ⟨tokens, hlex, _, _, parsed, rest, hparse, _, _, hend, rfl⟩ := h
  have hcanonical : parsed.Canonical sql := statement_canonical sql tokens parsed rest hparse
  refine ⟨parseRlsStatement_text hcanonical, fun predicate hmem => ?_, tokens, hlex, ?_⟩
  · obtain ⟨hne, kinds, hreads, hkinds, hcontained⟩ := predicate.reads
    rw [hkinds]
    exact ⟨hne, (hcanonical.produced hmem).cut, hreads, hcontained⟩
  · cases rest with
    | nil => exact hparse
    | cons token rest => cases hend

def adminPolicy : List Char :=
  ("create policy [own] ON notes FOR SELECT TO \"an admin\", public " ++
    "USING ( owner = auth.uid() AND (kind <> ';') )").toList

theorem admin_policy_exact : ∃ statement, parseRlsStatement adminPolicy = .ok statement ∧
    parseRlsStatement statement.text = .ok statement ∧ statement.predicates.length = 1 := by
  have hone : (parseRlsStatement adminPolicy).toOption.map (fun statement => statement.predicates.length) = some 1 := by
    decide +kernel
  cases h : parseRlsStatement adminPolicy with
  | error error =>
    rw [h] at hone
    cases hone
  | ok statement =>
    rw [h] at hone
    exact ⟨statement, rfl, (parseRlsStatement_exact h).1, Option.some.inj hone⟩

end Ffdb.Sql
