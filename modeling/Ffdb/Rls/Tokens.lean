import Ffdb.Sql.Containment
import Ffdb.Rls.Algebra
import Ffdb.Rls.Template

/-! The tokens of the generated SQL. Written as tokens, a statement is a template: names and
roles are one token each, and the predicates are left open. The text lexes to its template
with the predicates filled in. -/
namespace Ffdb.Rls
open Sql Text Fallible

def Writer.tokens : Writer (TokenKind ⊕ Clause) where
  literal text := (tokenKinds text.toList).map .inl
  name identifier := [.inl (.identifier identifier.value)]
  role role := [.inl (.stringLiteral role.name.value)]
  clause clause := [.inr clause]

def fillToken : Piece → List TokenKind
  | .inl kind => [kind]
  | .inr clause => tokenKinds clause.predicate.sqliteSql

/-- Every predicate stands between an opening and a closing parenthesis of the template. -/
def Enclosed (template : List (TokenKind ⊕ Clause)) : Prop :=
  ∀ before clause after, template = before ++ .inr clause :: after →
    before.getLast? = some (.inl (.symbol '(')) ∧ after.head? = some (.inl (.symbol ')'))

structure Tokenised (text : List Char) (template : List (TokenKind ⊕ Clause)) : Prop where
  reads : Reads none text (template.flatMap fillToken)
  enclosed : Enclosed template

structure Begun (text : List Char) (template : List (TokenKind ⊕ Clause)) : Prop extends
    Tokenised text template where
  separated : text.getLast?.any isSeparator = true

def lexes (literal : String) : Bool := (lex literal.toList false).isOk

def follows (literal : String) : Bool := lexes literal && literal.toList.head?.any isSeparator

def precedes (literal : String) : Bool := lexes literal && literal.toList.getLast?.any isSeparator

theorem Enclosed.append {template template' : List (TokenKind ⊕ Clause)} (h : Enclosed template)
    (h' : Enclosed template') : Enclosed (template ++ template') := by
  intro before clause after hsplit
  obtain ⟨mid, rfl, hmid⟩ | ⟨mid, rfl, hmid⟩ := List.append_eq_append_iff.mp hsplit
  · -- the predicate lies in the second part
    obtain ⟨hbefore, hafter⟩ := h' mid clause after hmid
    refine ⟨?_, hafter⟩
    rw [List.getLast?_append, hbefore, Option.some_or]
  · cases mid with
    | nil =>
      obtain ⟨hbefore, _⟩ := h' [] clause after (by simpa using hmid.symm)
      cases hbefore
    | cons first mid =>
      rw [List.cons_append, List.cons.injEq] at hmid
      obtain ⟨rfl, rfl⟩ := hmid
      obtain ⟨hbefore, hafter⟩ := h before clause mid rfl
      refine ⟨hbefore, ?_⟩
      rw [List.head?_append, hafter, Option.some_or]

theorem Enclosed.hole {template template' : List (TokenKind ⊕ Clause)} (h : Enclosed template)
    (hopen : template.getLast? = some (.inl (.symbol '('))) (clause : Clause) (h' : Enclosed template')
    (hclose : template'.head? = some (.inl (.symbol ')'))) :
    Enclosed (template ++ [.inr clause] ++ template') := by
  intro before found after hsplit
  rw [List.append_assoc, List.singleton_append] at hsplit
  obtain ⟨mid, rfl, hmid⟩ | ⟨mid, rfl, hmid⟩ := List.append_eq_append_iff.mp hsplit
  · cases mid with
    | nil =>
      cases hmid
      exact ⟨by simpa using hopen, hclose⟩
    | cons first mid =>
      rw [List.cons_append, List.cons.injEq] at hmid
      obtain ⟨hbefore, hafter⟩ := h' mid found after hmid.2
      refine ⟨?_, hafter⟩
      rw [List.getLast?_append, List.getLast?_cons, hbefore]
      rfl
  · cases mid with
    | nil =>
      cases hmid
      exact ⟨by simpa using hopen, hclose⟩
    | cons first mid =>
      rw [List.cons_append, List.cons.injEq] at hmid
      obtain ⟨rfl, rfl⟩ := hmid
      obtain ⟨hbefore, hafter⟩ := h before found mid rfl
      refine ⟨hbefore, ?_⟩
      rw [List.head?_append, hafter, Option.some_or]

theorem enclosed_tokens (kinds : List TokenKind) : Enclosed (kinds.map .inl) := by
  intro before clause after hsplit
  have hmem : (Sum.inr clause : TokenKind ⊕ Clause) ∈ kinds.map .inl := by simp [hsplit]
  simp at hmem

theorem fill_tokens (kinds : List TokenKind) :
    (kinds.map (Sum.inl : TokenKind → TokenKind ⊕ Clause)).flatMap fillToken = kinds := by
  induction kinds with
  | nil => rfl
  | cons kind kinds ih => simp [fillToken, ih]

theorem tokenised_literal (literal : String) (h : lexes literal = true) :
    Tokenised literal.toList (Writer.tokens.literal literal) where
  reads := by
    cases hlex : lex literal.toList false with
    | error e => simp [lexes, hlex, Except.isOk, Except.toBool] at h
    | ok tokens =>
      have hreads := reads_of_lex hlex
      rw [Writer.tokens, fill_tokens, tokenKinds_of_reads hreads]
      exact hreads
  enclosed := enclosed_tokens _

theorem begun_literal (literal : String) (h : precedes literal = true) :
    Begun literal.toList (Writer.tokens.literal literal) := by
  rw [precedes, Bool.and_eq_true] at h
  exact ⟨tokenised_literal literal h.1, h.2⟩

theorem tokenised_name (identifier : Identifier) :
    Tokenised identifier.quoted (Writer.tokens.name identifier) where
  reads := by
    have hlexeme := @Lexeme.quoted '"' identifier.value none (by decide) (by simp)
    have hreads := Reads.cons hlexeme .nil
    rwa [List.append_nil] at hreads
  enclosed := enclosed_tokens [.identifier identifier.value]

theorem tokenised_role (role : RoleName) :
    Tokenised (quoteLiteral role.name.value) (Writer.tokens.role role) where
  reads := by
    have hlexeme := @Lexeme.quoted apostrophe role.name.value none (by decide) (by simp)
    have hreads := Reads.cons hlexeme .nil
    rwa [List.append_nil] at hreads
  enclosed := enclosed_tokens [.stringLiteral role.name.value]

section Join
variable {text text' : List Char} {template template' : List (TokenKind ⊕ Clause)}

theorem Begun.append (h : Begun text template) (h' : Tokenised text' template') :
    Tokenised (text ++ text') (template ++ template') where
  reads := by
    obtain ⟨c, hlast, hc⟩ := (Option.any_eq_true _ _).mp h.separated
    rw [List.flatMap_append]
    exact (h.reads.after_separator hlast hc _).append h'.reads
  enclosed := h.enclosed.append h'.enclosed

theorem Begun.begun (h : Begun text template) (h' : Begun text' template') :
    Begun (text ++ text') (template ++ template') where
  toTokenised := h.append h'.toTokenised
  separated := by
    obtain ⟨c, hlast, hc⟩ := (Option.any_eq_true _ _).mp h'.separated
    rw [List.getLast?_append, hlast, Option.some_or]
    exact hc

theorem Reads.followed {kinds kinds' : List TokenKind} (h : Reads none text kinds)
    (h' : Reads none text' kinds') (hstart : text'.head?.any isSeparator = true) :
    Reads none (text ++ text') (kinds ++ kinds') := by
  obtain ⟨c, hhead, hc⟩ := (Option.any_eq_true _ _).mp hstart
  refine Reads.append ?_ h'
  rw [hhead, Option.some_or]
  exact h.before_separator hc

theorem Tokenised.close (h : Tokenised text template) (fixed : String) (hliteral : follows fixed = true) :
    Tokenised (text ++ fixed.toList) (template ++ Writer.tokens.literal fixed) := by
  rw [follows, Bool.and_eq_true] at hliteral
  have hliteral' := tokenised_literal fixed hliteral.1
  refine ⟨?_, h.enclosed.append hliteral'.enclosed⟩
  rw [List.flatMap_append]
  exact Reads.followed h.reads hliteral'.reads hliteral.2

theorem Tokenised.step (h : Tokenised text template) (fixed : String)
    (hfollows : follows fixed = true) (hprecedes : precedes fixed = true) :
    Begun (text ++ fixed.toList) (template ++ Writer.tokens.literal fixed) where
  toTokenised := h.close fixed hfollows
  separated := by
    obtain ⟨c, hlast, hc⟩ := (Option.any_eq_true _ _).mp (begun_literal fixed hprecedes).separated
    rw [List.getLast?_append, hlast, Option.some_or]
    exact hc

theorem tokenised_intercalate {α : Type} {f : α → List Char} {g : α → List (TokenKind ⊕ Clause)}
    (fixed : String) (items : List α) (hitems : ∀ a ∈ items, Tokenised (f a) (g a))
    (hfollows : follows fixed = true) (hprecedes : precedes fixed = true) :
    Tokenised (fixed.toList.intercalate (items.map f))
      ((Writer.tokens.literal fixed).intercalate (items.map g)) := by
  induction items with
  | nil => exact ⟨.nil, enclosed_tokens []⟩
  | cons a items ih =>
    have ha := hitems a (by simp)
    cases items with
    | nil => simpa using ha
    | cons b items =>
      rw [List.map_cons, List.map_cons, List.intercalate_cons_cons, List.map_cons, List.map_cons,
        List.intercalate_cons_cons]
      exact (ha.step fixed hfollows hprecedes).append (ih fun c hc => hitems c (List.mem_cons_of_mem a hc))

theorem Begun.enclose (h : Begun text template) (hopen : template.getLast? = some (.inl (.symbol '(')))
    (policy : Policy) (purpose : PredicatePurpose) :
    Tokenised (text ++ clauseSql Writer.sql policy purpose ++ "))".toList)
      (template ++ clauseSql Writer.tokens policy purpose ++ Writer.tokens.literal "))") := by
  have hliteral : follows "))" = true := by decide
  cases hclause : policy.clause purpose with
  | none =>
    simp only [clauseSql, hclause, Option.elim_none]
    exact (h.append (tokenised_literal "1" (by decide))).close "))" hliteral
  | some clause =>
    simp only [clauseSql, hclause, Option.elim_some]
    obtain ⟨hreads, _⟩ := clause.predicate.contained
    obtain ⟨c, hlast, hc⟩ := (Option.any_eq_true _ _).mp h.separated
    have hclose := (tokenised_literal "))" (by decide)).reads
    constructor
    · rw [List.flatMap_append, List.flatMap_append, List.append_assoc, List.append_assoc]
      refine Reads.append (h.reads.after_separator hlast hc _) (Reads.followed ?_ hclose (by decide))
      simpa [Writer.tokens, Writer.sql, fillToken] using hreads
    · exact h.enclosed.hole hopen clause (enclosed_tokens _) (by decide)

end Join

section Expressions

theorem getLast?_append_literal {template : List (TokenKind ⊕ Clause)} {fixed : String}
    {token : TokenKind ⊕ Clause} (h : (Writer.tokens.literal fixed).getLast? = some token) :
    (template ++ Writer.tokens.literal fixed).getLast? = some token := by
  rw [List.getLast?_append, h, Option.some_or]

theorem tokenised_roleGuard (roles : List RoleName) :
    Tokenised (roleGuard Writer.sql roles) (roleGuard Writer.tokens roles) := by
  rw [roleGuard, roleGuard]
  split_ifs
  · exact tokenised_literal "1" (by decide)
  · refine tokenised_intercalate " OR " roles ?_ (by decide) (by decide)
    intro role _
    exact (begun_literal "__ffdb_auth_role() = " (by decide)).append (tokenised_role role)

theorem tokenised_permissive (purpose : PredicatePurpose) (policy : Policy) :
    Tokenised (permissiveSql Writer.sql purpose policy) (permissiveSql Writer.tokens purpose policy) := by
  have hguard := (begun_literal "((" (by decide)).append (tokenised_roleGuard policy.roles)
  have hopen := hguard.step ") AND (" (by decide) (by decide)
  exact hopen.enclose (getLast?_append_literal (by decide)) policy purpose

theorem tokenised_restrictive (purpose : PredicatePurpose) (policy : Policy) :
    Tokenised (restrictiveSql Writer.sql purpose policy) (restrictiveSql Writer.tokens purpose policy) := by
  have hguard := (begun_literal "((NOT (" (by decide)).append (tokenised_roleGuard policy.roles)
  have hopen := hguard.step ")) OR (" (by decide) (by decide)
  exact hopen.enclose (getLast?_append_literal (by decide)) policy purpose

theorem tokenised_joinOr {f : Policy → List Char} {g : Policy → List (TokenKind ⊕ Clause)}
    (policies : List Policy) (h : ∀ policy, Tokenised (f policy) (g policy)) (fixed empty : String)
    (hfollows : follows fixed = true) (hprecedes : precedes fixed = true) (hempty : lexes empty = true) :
    Tokenised (joinOr Writer.sql (policies.map f) fixed empty)
      (joinOr Writer.tokens (policies.map g) fixed empty) := by
  rw [joinOr, joinOr, List.isEmpty_map, List.isEmpty_map]
  split_ifs
  · exact tokenised_literal empty hempty
  · exact tokenised_intercalate fixed policies (fun policy _ => h policy) hfollows hprecedes

theorem tokenised_combine (policies : List Policy) (purpose : PredicatePurpose) (forced : Bool) :
    Tokenised (combine Writer.sql policies purpose forced) (combine Writer.tokens policies purpose forced) := by
  have hpermissive := tokenised_joinOr (policies.filter (·.mode = .permissive))
    (tokenised_permissive purpose) " OR " "0" (by decide) (by decide) (by decide)
  have hrestrictive := tokenised_joinOr (policies.filter (·.mode = .restrictive))
    (tokenised_restrictive purpose) " AND " "1" (by decide) (by decide) (by decide)
  have hfirst := (begun_literal "((" (by decide)).append hpermissive
  have hresult := ((hfirst.step ") AND (" (by decide) (by decide)).append hrestrictive).close
      "))" (by decide)
  cases forced with
  | true => exact hresult
  | false =>
    exact ((begun_literal "(__ffdb_is_developer() OR " (by decide)).append hresult).close
      ")" (by decide)

theorem tokenised_expression (catalog : RlsCatalog) (table : Identifier) (operation : Operation)
    (purpose : PredicatePurpose) :
    Tokenised (catalog.expression Writer.sql table operation purpose)
      (catalog.expression Writer.tokens table operation purpose) := by
  rw [RlsCatalog.expression, RlsCatalog.expression, expression_eq, expression_eq]
  split_ifs
  · exact tokenised_combine _ purpose _
  · exact tokenised_literal "1" (by decide)
  · exact tokenised_literal "0" (by decide)

end Expressions

section Statements
variable (table : TableSchema) (columns : List ColumnSchema) (backingTable trigger : Identifier)
  {text text' : List Char} {template template' : List (TokenKind ⊕ Clause)} {fixed : String}

def openings : List String :=
  ["NEW.", "OLD.", "CREATE VIEW ", "CREATE TRIGGER ", "INSERT INTO ", "UPDATE ", "DELETE FROM ",
    "SELECT CASE WHEN NOT EXISTS (SELECT 1 FROM (SELECT ", "DROP TRIGGER IF EXISTS ", "DROP VIEW IF EXISTS ",
    "ALTER TABLE "]

def joints : List String :=
  [", ", " AND ", " = NEW.", " IS OLD.", " AS ", ") AS ", " WHERE (", " WHERE ", " AS SELECT ", " FROM ",
    " INSTEAD OF INSERT ON ", " INSTEAD OF UPDATE ON ", " INSTEAD OF DELETE ON ", " BEGIN ",
    ")) THEN RAISE(ABORT, 'rls.using_violation') END; ", ")) THEN RAISE(ABORT, 'rls.with_check_violation') END; ",
    " (", ") VALUES (", " SET ", " RENAME TO "]

def endings : List String := [")", "; END", "); END"]

theorem fixed_separates : openings.all precedes = true ∧
    (joints.all follows = true ∧ joints.all precedes = true) ∧ endings.all follows = true := by
  decide +kernel

theorem precedes_opening (h : fixed ∈ openings) : precedes fixed = true :=
  List.all_eq_true.mp fixed_separates.1 fixed h

theorem follows_joint (h : fixed ∈ joints) : follows fixed = true :=
  List.all_eq_true.mp fixed_separates.2.1.1 fixed h

theorem precedes_joint (h : fixed ∈ joints) : precedes fixed = true :=
  List.all_eq_true.mp fixed_separates.2.1.2 fixed h

theorem follows_ending (h : fixed ∈ endings) : follows fixed = true :=
  List.all_eq_true.mp fixed_separates.2.2 fixed h

theorem begun_opening (fixed : String) (h : fixed ∈ openings) :
    Begun fixed.toList (Writer.tokens.literal fixed) :=
  begun_literal fixed (precedes_opening h)

theorem Tokenised.joined (h : Tokenised text template) (fixed : String)
    (hfixed : fixed ∈ joints) :
    Begun (text ++ fixed.toList) (template ++ Writer.tokens.literal fixed) :=
  h.step fixed (follows_joint hfixed) (precedes_joint hfixed)

theorem Tokenised.ended (h : Tokenised text template) (fixed : String)
    (hfixed : fixed ∈ endings) :
    Tokenised (text ++ fixed.toList) (template ++ Writer.tokens.literal fixed) :=
  h.close fixed (follows_ending hfixed)

theorem tokenised_list {α : Type} {f : α → List Char} {g : α → List (TokenKind ⊕ Clause)} (fixed : String)
    (items : List α) (hitems : ∀ a ∈ items, Tokenised (f a) (g a)) (h : fixed ∈ joints) :
    Tokenised (fixed.toList.intercalate (items.map f))
      ((Writer.tokens.literal fixed).intercalate (items.map g)) :=
  tokenised_intercalate fixed items hitems (follows_joint h) (precedes_joint h)

theorem tokenised_nameList : Tokenised (nameList Writer.sql columns) (nameList Writer.tokens columns) :=
  tokenised_list ", " columns (fun column _ => tokenised_name column.name) (by simp [joints])

theorem tokenised_newValues : Tokenised (newValues Writer.sql columns) (newValues Writer.tokens columns) := by
  refine tokenised_list ", " columns ?_ (by simp [joints])
  intro column _
  exact (begun_opening "NEW." (by simp [openings])).append (tokenised_name column.name)

theorem tokenised_assignments :
    Tokenised (assignments Writer.sql columns) (assignments Writer.tokens columns) := by
  refine tokenised_list ", " columns ?_ (by simp [joints])
  intro column _
  exact ((tokenised_name column.name).joined " = NEW." (by simp [joints])).append
    (tokenised_name column.name)

theorem tokenised_keyMatch : Tokenised (keyMatch Writer.sql columns) (keyMatch Writer.tokens columns) := by
  refine tokenised_list " AND " columns ?_ (by simp [joints])
  intro column _
  exact ((tokenised_name column.name).joined " IS OLD." (by simp [joints])).append
    (tokenised_name column.name)

theorem tokenised_candidateRow (rowAlias : String) (h : rowAlias ++ "." ∈ openings) :
    Tokenised (candidateRow Writer.sql table rowAlias) (candidateRow Writer.tokens table rowAlias) := by
  refine tokenised_list ", " table.columns ?_ (by simp [joints])
  intro column _
  have hname := (begun_opening (rowAlias ++ ".") h).append (tokenised_name column.name)
  exact (hname.joined " AS " (by simp [joints])).append (tokenised_name column.name)

theorem begun_raiseUnless (rowAlias failure : String) (halias : rowAlias ++ "." ∈ openings)
    (hfailure : failure ∈ joints) (h : Tokenised text template) :
    Begun (raiseUnless Writer.sql table rowAlias text failure)
      (raiseUnless Writer.tokens table rowAlias template failure) := by
  have hrow := (begun_opening "SELECT CASE WHEN NOT EXISTS (SELECT 1 FROM (SELECT " (by simp [openings])).append
    (tokenised_candidateRow table rowAlias halias)
  have hname := (hrow.joined ") AS " (by simp [joints])).append (tokenised_name table.name)
  exact ((hname.joined " WHERE (" (by simp [joints])).append h).joined failure hfailure

theorem tokenised_viewSql (h : Tokenised text template) :
    Tokenised (viewSql Writer.sql table backingTable text)
      (viewSql Writer.tokens table backingTable template) := by
  have hview := (begun_opening "CREATE VIEW " (by simp [openings])).append (tokenised_name table.name)
  have hcolumns := (hview.joined " AS SELECT " (by simp [joints])).append
    (tokenised_nameList table.columns)
  have hbacking := (hcolumns.joined " FROM " (by simp [joints])).append (tokenised_name backingTable)
  have halias := (hbacking.joined " AS " (by simp [joints])).append (tokenised_name table.name)
  exact ((halias.joined " WHERE (" (by simp [joints])).append h).ended ")" (by simp [endings])

theorem begun_trigger (event : String) (hevent : event ∈ joints) :
    Begun (Writer.sql.literal "CREATE TRIGGER " ++ Writer.sql.name trigger ++ Writer.sql.literal event ++
        Writer.sql.name table.name ++ Writer.sql.literal " BEGIN ")
      (Writer.tokens.literal "CREATE TRIGGER " ++ Writer.tokens.name trigger ++ Writer.tokens.literal event ++
        Writer.tokens.name table.name ++ Writer.tokens.literal " BEGIN ") := by
  have htrigger := (begun_opening "CREATE TRIGGER " (by simp [openings])).append (tokenised_name trigger)
  have htable := (htrigger.joined event hevent).append (tokenised_name table.name)
  exact htable.joined " BEGIN " (by simp [joints])

theorem tokenised_insertSql (h : Tokenised text template) :
    Tokenised (insertSql Writer.sql table backingTable trigger text)
      (insertSql Writer.tokens table backingTable trigger template) := by
  have hhead := begun_trigger table trigger " INSTEAD OF INSERT ON " (by simp [joints])
  have hcheck := hhead.begun (begun_raiseUnless table "NEW"
    ")) THEN RAISE(ABORT, 'rls.with_check_violation') END; " (by simp [openings]) (by simp [joints]) h)
  have hinto := (hcheck.begun (begun_opening "INSERT INTO " (by simp [openings]))).append (tokenised_name backingTable)
  have hcolumns := (hinto.joined " (" (by simp [joints])).append
    (tokenised_nameList (table.columns.filter (!·.generated)))
  have hvalues := (hcolumns.joined ") VALUES (" (by simp [joints])).append
    (tokenised_newValues (table.columns.filter (!·.generated)))
  exact hvalues.ended "); END" (by simp [endings])

theorem tokenised_updateSql (h : Tokenised text template) (h' : Tokenised text' template') :
    Tokenised (updateSql Writer.sql table backingTable trigger text text')
      (updateSql Writer.tokens table backingTable trigger template template') := by
  have hhead := begun_trigger table trigger " INSTEAD OF UPDATE ON " (by simp [joints])
  have husing := hhead.begun (begun_raiseUnless table "OLD"
    ")) THEN RAISE(ABORT, 'rls.using_violation') END; " (by simp [openings]) (by simp [joints]) h)
  have hcheck := husing.begun (begun_raiseUnless table "NEW"
    ")) THEN RAISE(ABORT, 'rls.with_check_violation') END; " (by simp [openings]) (by simp [joints]) h')
  have hupdate := (hcheck.begun (begun_opening "UPDATE " (by simp [openings]))).append (tokenised_name backingTable)
  have hset := (hupdate.joined " SET " (by simp [joints])).append
    (tokenised_assignments (table.columns.filter (!·.generated)))
  have hwhere := (hset.joined " WHERE " (by simp [joints])).append
    (tokenised_keyMatch (table.columns.filter (·.primaryKeyOrdinal.isSome)))
  exact hwhere.ended "; END" (by simp [endings])

theorem tokenised_deleteSql (h : Tokenised text template) :
    Tokenised (deleteSql Writer.sql table backingTable trigger text)
      (deleteSql Writer.tokens table backingTable trigger template) := by
  have hhead := begun_trigger table trigger " INSTEAD OF DELETE ON " (by simp [joints])
  have husing := hhead.begun (begun_raiseUnless table "OLD"
    ")) THEN RAISE(ABORT, 'rls.using_violation') END; " (by simp [openings]) (by simp [joints]) h)
  have hdelete := (husing.begun (begun_opening "DELETE FROM " (by simp [openings]))).append
    (tokenised_name backingTable)
  have hwhere := (hdelete.joined " WHERE " (by simp [joints])).append
    (tokenised_keyMatch (table.columns.filter (·.primaryKeyOrdinal.isSome)))
  exact hwhere.ended "; END" (by simp [endings])

end Statements

section Templates

def fixedTexts : List (String × List Piece) :=
  [("0", other), ("1", other), (", ", symbol ','), ("((", symbol '(' ++ symbol '('), (")", symbol ')'),
    ("))", symbol ')' ++ symbol ')'), (" OR ", keywords ["OR"]), (" AND ", keywords ["AND"]),
    ("__ffdb_auth_role() = ", callOf "__ffdb_auth_role" ++ other),
    ("(__ffdb_is_developer() OR ", symbol '(' ++ callOf "__ffdb_is_developer" ++ keywords ["OR"]),
    (") AND (", symbol ')' ++ keywords ["AND"] ++ symbol '('),
    ("((NOT (", symbol '(' ++ symbol '(' ++ keywords ["NOT"] ++ symbol '('),
    (")) OR (", symbol ')' ++ symbol ')' ++ keywords ["OR"] ++ symbol '('),
    ("NEW.", keywords ["NEW"] ++ symbol '.'), ("OLD.", keywords ["OLD"] ++ symbol '.'),
    (" AS ", keywords ["AS"]), (" IS OLD.", keywords ["IS", "OLD"] ++ symbol '.'),
    (" = NEW.", other ++ keywords ["NEW"] ++ symbol '.'),
    ("SELECT CASE WHEN NOT EXISTS (SELECT 1 FROM (SELECT ", keywords ["SELECT", "CASE", "WHEN", "NOT", "EXISTS"] ++
      symbol '(' ++ keywords ["SELECT"] ++ other ++ keywords ["FROM"] ++ symbol '(' ++ keywords ["SELECT"]),
    (") AS ", symbol ')' ++ keywords ["AS"]), (" WHERE (", keywords ["WHERE"] ++ symbol '('),
    (")) THEN RAISE(ABORT, 'rls.using_violation') END; ", symbol ')' ++ symbol ')' ++ keywords ["THEN", "RAISE"] ++
      symbol '(' ++ keywords ["ABORT"] ++ symbol ',' ++ quotedText "rls.using_violation".toList ++ symbol ')' ++
      keywords ["END"] ++ symbol ';'),
    (")) THEN RAISE(ABORT, 'rls.with_check_violation') END; ", symbol ')' ++ symbol ')' ++ keywords ["THEN", "RAISE"] ++
      symbol '(' ++ keywords ["ABORT"] ++ symbol ',' ++ quotedText "rls.with_check_violation".toList ++ symbol ')' ++
      keywords ["END"] ++ symbol ';'),
    ("CREATE VIEW ", keywords ["CREATE", "VIEW"]), (" AS SELECT ", keywords ["AS", "SELECT"]),
    (" FROM ", keywords ["FROM"]), ("CREATE TRIGGER ", keywords ["CREATE", "TRIGGER"]),
    (" INSTEAD OF INSERT ON ", keywords ["INSTEAD", "OF", "INSERT", "ON"]),
    (" INSTEAD OF UPDATE ON ", keywords ["INSTEAD", "OF", "UPDATE", "ON"]),
    (" INSTEAD OF DELETE ON ", keywords ["INSTEAD", "OF", "DELETE", "ON"]), (" BEGIN ", keywords ["BEGIN"]),
    ("INSERT INTO ", keywords ["INSERT", "INTO"]), (" (", symbol '('),
    (") VALUES (", symbol ')' ++ keywords ["VALUES"] ++ symbol '('),
    ("); END", symbol ')' ++ symbol ';' ++ keywords ["END"]), ("UPDATE ", keywords ["UPDATE"]),
    (" SET ", keywords ["SET"]), (" WHERE ", keywords ["WHERE"]), ("; END", symbol ';' ++ keywords ["END"]),
    ("DELETE FROM ", keywords ["DELETE", "FROM"]), ("ALTER TABLE ", keywords ["ALTER", "TABLE"]),
    (" RENAME TO ", keywords ["RENAME", "TO"]),
    ("DROP TRIGGER IF EXISTS ", keywords ["DROP", "TRIGGER", "IF", "EXISTS"]),
    ("DROP VIEW IF EXISTS ", keywords ["DROP", "VIEW", "IF", "EXISTS"])]

theorem fixedTexts_tokens : ∀ fixed ∈ fixedTexts, Writer.tokens.literal fixed.1 = fixed.2 := by
  decide +kernel

variable (table : TableSchema) (catalog : RlsCatalog) (columns : List ColumnSchema) (backing trigger : Identifier)

theorem roleGuard_tokens (roles : List RoleName) : roleGuard Writer.tokens roles = rolesTemplate roles := by
  have hfixed := fixedTexts_tokens
  simp only [fixedTexts, List.forall_mem_cons] at hfixed
  simp only [roleGuard, rolesTemplate, joinedBy, hfixed]
  rfl

theorem clauseSql_tokens (policy : Policy) (purpose : PredicatePurpose) :
    clauseSql Writer.tokens policy purpose = predicateTemplate policy purpose := by
  rw [clauseSql, predicateTemplate.eq_def]
  cases policy.clause purpose with
  | none => exact fixedTexts_tokens ("1", other) (by simp [fixedTexts])
  | some clause => rfl

theorem combine_tokens (policies : List Policy) (purpose : PredicatePurpose) (forced : Bool) :
    combine Writer.tokens policies purpose forced = policiesTemplate policies purpose forced := by
  have hfixed := fixedTexts_tokens
  simp only [fixedTexts, List.forall_mem_cons] at hfixed
  have hpermissive : permissiveSql Writer.tokens purpose = permissiveTemplate purpose := by
    funext policy
    simp [permissiveSql, permissiveTemplate, parenthesised, roleGuard_tokens, clauseSql_tokens, hfixed]
  have hrestrictive : restrictiveSql Writer.tokens purpose = restrictiveTemplate purpose := by
    funext policy
    simp [restrictiveSql, restrictiveTemplate, parenthesised, roleGuard_tokens, clauseSql_tokens, hfixed]
  simp [combine, policiesTemplate, joinOr, someOf, joinedBy, parenthesised, hpermissive, hrestrictive, hfixed]

theorem expression_tokens {operation : Operation} {purpose : PredicatePurpose}
    (h : concerns operation purpose = true) :
    catalog.expression Writer.tokens table.name operation purpose =
      accessTemplate catalog table.name operation purpose := by
  rw [RlsCatalog.expression, expression_eq, if_pos h, Option.getD_some, accessTemplate, combine_tokens]
  exact congrArg _ (fixedTexts_tokens ("1", other) (by simp [fixedTexts]))

theorem name_tokens (name : Identifier) : Writer.tokens.name name = quotedName name := rfl

theorem viewSql_tokens : viewSql Writer.tokens table backing (accessTemplate catalog table.name .select .forUsing) =
    viewTemplate table catalog backing := by
  have hfixed := fixedTexts_tokens
  simp only [fixedTexts, List.forall_mem_cons] at hfixed
  simp [viewSql, viewTemplate, nameList, listOf, columnsTemplate, parenthesised, name_tokens, hfixed]

theorem keyMatch_tokens :
    keyMatch Writer.tokens (table.columns.filter (·.primaryKeyOrdinal.isSome)) = keyTemplate table := by
  have hfixed := fixedTexts_tokens
  simp only [fixedTexts, List.forall_mem_cons] at hfixed
  simp [keyMatch, keyTemplate, joinedBy, columnsTemplate, ofRow, keywords, name_tokens, hfixed]


theorem candidateRow_tokens {row : String} (hrow : Writer.tokens.literal (row ++ ".") = keywords [row] ++ symbol '.') :
    candidateRow Writer.tokens table row =
      listOf (columnsTemplate table.columns fun column => ofRow row column ++ keywords ["AS"] ++ column) := by
  have hfixed := fixedTexts_tokens
  simp only [fixedTexts, List.forall_mem_cons] at hfixed
  simp [candidateRow, listOf, columnsTemplate, ofRow, name_tokens, hrow, hfixed]

theorem raiseUnless_tokens {row failure message : String} (expression : List Piece)
    (hrow : Writer.tokens.literal (row ++ ".") = keywords [row] ++ symbol '.')
    (hfailure : Writer.tokens.literal failure = symbol ')' ++ symbol ')' ++ keywords ["THEN", "RAISE"] ++
      symbol '(' ++ keywords ["ABORT"] ++ symbol ',' ++ quotedText message.toList ++ symbol ')' ++
      keywords ["END"] ++ symbol ';') :
    raiseUnless Writer.tokens table row expression failure = guardTemplate table row expression message := by
  have hfixed := fixedTexts_tokens
  simp only [fixedTexts, List.forall_mem_cons] at hfixed
  simp [raiseUnless, guardTemplate, parenthesised, candidateRow_tokens table hrow, name_tokens, hfailure, hfixed]

theorem insertSql_tokens :
    insertSql Writer.tokens table backing trigger (accessTemplate catalog table.name .insert .forCheck) =
      insertTemplate table catalog backing trigger := by
  have hfixed := fixedTexts_tokens
  simp only [fixedTexts, List.forall_mem_cons] at hfixed
  have hguard := @raiseUnless_tokens table "NEW" ")) THEN RAISE(ABORT, 'rls.with_check_violation') END; "
    "rls.with_check_violation" (accessTemplate catalog table.name .insert .forCheck) (by simp [hfixed]) (by simp [hfixed])
  simp [insertSql, insertTemplate, triggerTemplate, hguard, nameList, newValues, listOf, columnsTemplate, ofRow,
    writableColumns, parenthesised, name_tokens, hfixed]

theorem updateSql_tokens :
    updateSql Writer.tokens table backing trigger (accessTemplate catalog table.name .update .forUsing)
        (accessTemplate catalog table.name .update .forCheck) =
      updateTemplate table catalog backing trigger := by
  have hfixed := fixedTexts_tokens
  simp only [fixedTexts, List.forall_mem_cons] at hfixed
  have husing := @raiseUnless_tokens table "OLD" ")) THEN RAISE(ABORT, 'rls.using_violation') END; "
    "rls.using_violation" (accessTemplate catalog table.name .update .forUsing) (by simp [hfixed]) (by simp [hfixed])
  have hcheck := @raiseUnless_tokens table "NEW" ")) THEN RAISE(ABORT, 'rls.with_check_violation') END; "
    "rls.with_check_violation" (accessTemplate catalog table.name .update .forCheck) (by simp [hfixed]) (by simp [hfixed])
  simp [updateSql, updateTemplate, triggerTemplate, husing, hcheck, keyMatch_tokens, assignments, listOf,
    columnsTemplate, ofRow, writableColumns, name_tokens, hfixed]

theorem deleteSql_tokens :
    deleteSql Writer.tokens table backing trigger (accessTemplate catalog table.name .delete .forUsing) =
      deleteTemplate table catalog backing trigger := by
  have hfixed := fixedTexts_tokens
  simp only [fixedTexts, List.forall_mem_cons] at hfixed
  have hguard := @raiseUnless_tokens table "OLD" ")) THEN RAISE(ABORT, 'rls.using_violation') END; "
    "rls.using_violation" (accessTemplate catalog table.name .delete .forUsing) (by simp [hfixed]) (by simp [hfixed])
  simp [deleteSql, deleteTemplate, triggerTemplate, hguard, keyMatch_tokens, name_tokens, hfixed]

end Templates

/-- A text lexes, with or without comments allowed, to its template with the predicates filled in; each
predicate stands between parentheses of the template. -/
def Lexes (text : List Char) (template : List Piece) : Prop :=
  Enclosed template ∧ ∀ allowComments, ∃ tokens, lex text allowComments = .ok tokens ∧
    tokens.map Token.kind = template.flatMap fillToken

/-- Every generated statement lexes to its template, and a predicate lexes by itself and cannot get out
of its parentheses. -/
theorem generated_sql_tokens (table : TableSchema) (catalog : RlsCatalog) (plan : CompiledTablePlan Char)
    (h : compileTable Writer.sql table catalog = .ok plan) :
    ∃ insert update delete, generatedIdentifier "insert" table.name = .ok insert ∧
      generatedIdentifier "update" table.name = .ok update ∧ generatedIdentifier "delete" table.name = .ok delete ∧
      backingTableName table.name = .ok plan.backingTable ∧
      List.Forall₂ Lexes plan.statements
        (statementTemplates table catalog plan.backingTable insert update delete) ∧
      ∀ clause : Clause, Contained (fillToken (.inr clause)) ∧
        ∃ tokens, lex clause.predicate.sqliteSql false = .ok tokens ∧
          tokens.map Token.kind = fillToken (.inr clause) := by
  have hlexes {text : List Char} {template : List Piece} (h : Tokenised text template) : Lexes text template :=
    ⟨h.enclosed, fun allow => lex_of_reads allow h.reads⟩
  simp only [compileTable, bind_ok_iff, pure_ok_iff] at h
  obtain ⟨_, _, _, _, backing, hbacking, insert, hinsert, update, hupdate, delete, hdelete, _, _, rfl⟩ := h
  refine ⟨insert, update, delete, hinsert, hupdate, hdelete, hbacking, ?_, ?_⟩
  · have hexpression {operation : Operation} {purpose : PredicatePurpose} (h : concerns operation purpose = true) :
        Tokenised (catalog.expression Writer.sql table.name operation purpose)
          (accessTemplate catalog table.name operation purpose) :=
      expression_tokens table catalog h ▸ tokenised_expression catalog table.name operation purpose
    have hdrop (name : Identifier) := (begun_opening "DROP TRIGGER IF EXISTS " (by simp [openings])).append
      (tokenised_name name)
    have halter := (begun_opening "ALTER TABLE " (by simp [openings])).append (tokenised_name table.name)
    have hrename := (halter.joined " RENAME TO " (by simp [joints])).append (tokenised_name backing)
    have hdropView := (begun_opening "DROP VIEW IF EXISTS " (by simp [openings])).append (tokenised_name table.name)
    have hfixed := fixedTexts_tokens
    simp only [fixedTexts, List.forall_mem_cons] at hfixed
    simp only [hfixed, name_tokens] at hdrop hrename hdropView
    rw [statementTemplates, ← viewSql_tokens, ← insertSql_tokens, ← updateSql_tokens, ← deleteSql_tokens]
    rw [CompiledTablePlan.statements, List.append_assoc]
    refine List.rel_append ?_ ?_
    · cases table.isProtected with
      | true => exact .nil
      | false => exact .cons (hlexes hrename) .nil
    · refine .cons (hlexes (hdrop insert)) (.cons (hlexes (hdrop update)) (.cons (hlexes (hdrop delete))
        (.cons (hlexes hdropView) ?_)))
      exact .cons (hlexes (tokenised_viewSql table backing (hexpression rfl)))
        (.cons (hlexes (tokenised_insertSql table backing insert (hexpression rfl)))
        (.cons (hlexes (tokenised_updateSql table backing update (hexpression rfl) (hexpression rfl)))
        (.cons (hlexes (tokenised_deleteSql table backing delete (hexpression rfl))) .nil)))
  · intro clause
    obtain ⟨hreads, hcontained⟩ := clause.predicate.contained
    exact ⟨hcontained, lex_of_reads false hreads⟩

def hostileColumn : Identifier := ⟨"id\" FROM x; --".toList, by decide, by decide, by decide⟩

def documentsSchema : TableSchema := ⟨documents, [⟨hostileColumn, some 1, false⟩], false⟩

theorem generated_sql_tokens_documents :
    ∃ plan, compileTable Writer.sql documentsSchema (RlsCatalog.after documentStatements) = .ok plan ∧
      plan.statements.length = 9 ∧ ∃ insert update delete, List.Forall₂ Lexes plan.statements
        (statementTemplates documentsSchema (RlsCatalog.after documentStatements) plan.backingTable insert update
          delete) := by
  have hlength : (compileTable Writer.sql documentsSchema (RlsCatalog.after documentStatements)).map
      (·.statements.length) = .ok 9 := by decide +kernel
  cases hplan : compileTable Writer.sql documentsSchema (RlsCatalog.after documentStatements) with
  | error e =>
    rw [hplan] at hlength
    cases hlength
  | ok plan =>
    rw [hplan] at hlength
    obtain ⟨insert, update, delete, _, _, _, _, hstatements, _⟩ := generated_sql_tokens documentsSchema
      (RlsCatalog.after documentStatements) plan hplan
    exact ⟨plan, rfl, by simpa [Except.map] using hlength, insert, update, delete, hstatements⟩

end Ffdb.Rls
