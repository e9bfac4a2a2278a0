import Ffdb.Migration.Engine
import Ffdb.Runtime.Atomicity

/-! A migration that fails leaves the database as it was, but for a commit of its own SQL. -/
namespace Ffdb.Migration
open Sql Rls Ffdb.Runtime Savepoint Act
variable {δ ρ : Type} {sqlite : Sqlite (Store δ) ρ} {limits : SessionLimits} {start : Store δ}

/-- What SQLite reads as the end of a transaction is known as transaction control, or never
reaches SQLite. -/
def Known (sqlite : Sqlite (Store δ) ρ) (sql : List Char) : Prop :=
  sqlite.control sql = some .commit ∨ sqlite.control sql = some .rollback →
    ∀ statementClass, classifyStatement sql = .ok statementClass →
      statementClass.kind = .transactionControl ∨ statementClass.kind = .rls

section Statement
variable {sql : List Char}

theorem safe_executePolicy : Safe start (executePolicy sqlite sql) := by
  refine (Safe.given _).bind fun statement => (Safe.query _).bind fun catalog => (Safe.query _).bind fun schema => ?_
  refine (Safe.given _).bind fun _ => (Safe.query _).bind fun current => (Safe.given _).bind fun plan => ?_
  exact (Safe.applyRlsPlan plan).bind fun _ => Safe.onContents _

/-- A text that is not classified, or is a policy statement, does not reach SQLite. -/
theorem safe_of_unsent (hunsent : ∀ statementClass, classifyStatement sql = .ok statementClass →
    statementClass.kind = .rls) : Safe start (executeStatement sqlite limits sql) := by
  unfold executeStatement
  cases hclass : classifyStatement sql with
  | error e => exact Triple.bind (Q := fun _ _ => False) (Triple.given (fun _ _ h => nomatch h)
      fun _ _ _ h => .inl h) fun _ _ h => h.elim
  | ok statementClass =>
    have hkind := hunsent statementClass hclass
    refine Triple.bind (Q := fun found session => found = statementClass ∧ session.Held start)
      (Triple.given (fun _ _ h hs => ⟨(Except.ok.inj h).symm, hs⟩) fun _ _ h => nomatch h) fun found => ?_
    intro session h
    obtain ⟨rfl, hheld⟩ := h
    rw [if_pos hkind]
    exact safe_executePolicy session hheld

theorem executeStatement_sent {statementClass : StatementClass}
    (hclass : classifyStatement sql = .ok statementClass) (hkind : statementClass.kind ≠ .rls)
    (session : Session (Store δ)) :
    executeStatement sqlite limits sql session =
      (do let _ ← execute sqlite limits .developer ⟨sql, []⟩ : Run (Store δ) Unit) session := by
  unfold executeStatement
  rw [hclass]
  refine (Act.bind_ok (given_apply ..)).trans ?_
  rw [if_neg hkind]

theorem safe_of_harmless (hharmless : Harmless sqlite sql) : Safe start (executeStatement sqlite limits sql) := by
  refine (Safe.given _).bind fun statementClass => ?_
  split
  · exact safe_executePolicy
  · exact (Safe.execute hharmless).bind fun _ => Safe.pure ()

structure Commits (sqlite : Sqlite (Store δ) ρ) (limits : SessionLimits) (sql : List Char) : Prop where
  control : sqlite.control sql = some .commit
  classed : ClassedAsControl sql
  admitted : ∃ statementClass, validate limits .developer ⟨sql, []⟩ = .ok statementClass

theorem executeStatement_fails {session after : Session (Store δ)} {e : RuntimeError}
    (hclassed : ClassedAsControl sql) (h : execute sqlite limits .developer ⟨sql, []⟩ session = (.error e, after)) :
    executeStatement sqlite limits sql session = (.error e, after) := by
  obtain ⟨statementClass, hclass, hkind⟩ := hclassed
  rw [executeStatement_sent hclass (by rw [hkind]; decide)]
  exact Act.bind_error h

theorem perform_commit {session : Session (Store δ)} (hheld : session.Held start) :
    Connection.perform sqlite (session.connection.savepoint statementLimit) .commit =
      if sqlite.valid session.contents then some ⟨session.contents, none⟩ else none := by
  have hcontents : (session.connection.savepoint statementLimit).contents = session.contents := by
    unfold Connection.savepoint
    cases session.connection.transaction with
    | none => rfl
    | some t => rfl
  refine (hheld.savepoint statementLimit).commit.trans ?_
  rw [hcontents]

/-- A commit that goes through fails its statement and ends the transaction. -/
theorem executeStatement_commit {session : Session (Store δ)} (hcommits : Commits sqlite limits sql)
    (hheld : session.Held start) (hvalid : sqlite.valid session.contents = true) :
    ∃ e, executeStatement sqlite limits sql session =
      (.error e, { session with connection := ⟨session.contents, none⟩ }) := by
  obtain ⟨statementClass, hadmitted⟩ := hcommits.admitted
  obtain ⟨e, he⟩ := execute_ended hcommits.control hcommits.classed hadmitted
    ((perform_commit hheld).trans (if_pos hvalid))
  exact ⟨e, executeStatement_fails hcommits.classed he⟩

/-- A statement that is known keeps the transaction, unless it is a commit that goes through. -/
theorem executeStatement_known (hknown : Known sqlite sql) :
    Triple (fun session => session.Held start ∧
        ¬ (Commits sqlite limits sql ∧ sqlite.valid session.contents = true))
      (executeStatement sqlite limits sql) (fun _ => Session.Held start)
      fun _ => Session.HeldOrUndone start := by
  by_cases hcommit : sqlite.control sql = some .commit
  · by_cases hclassed : ClassedAsControl sql
    · intro session h
      obtain ⟨hheld, hblocked⟩ := h
      cases hvalid : validate limits .developer ⟨sql, []⟩ with
      | error e =>
        rw [executeStatement_fails hclassed (execute_invalid hvalid)]
        exact .inl hheld
      | ok statementClass =>
        have hinvalid : sqlite.valid session.contents ≠ true := fun h =>
          hblocked ⟨⟨hcommit, hclassed, statementClass, hvalid⟩, h⟩
        obtain ⟨e, after, he, hafter⟩ := execute_refused hcommit hclassed hvalid hheld
          ((perform_commit hheld).trans (if_neg hinvalid))
        rw [executeStatement_fails hclassed he]
        exact hafter
    · refine Triple.weaken (safe_of_unsent fun statementClass hclass => ?_) (fun _ h => h.1) (fun _ _ h => h)
        fun _ _ h => h
      obtain hkind | hkind := hknown (.inl hcommit) statementClass hclass
      · exact absurd ⟨statementClass, hclass, hkind⟩ hclassed
      · exact hkind
  · by_cases hrollback : sqlite.control sql = some .rollback
    · by_cases hclassed : ClassedAsControl sql
      · exact Triple.weaken (safe_of_harmless ⟨hcommit, fun _ => hclassed⟩) (fun _ h => h.1) (fun _ _ h => h)
          fun _ _ h => h
      · refine Triple.weaken (safe_of_unsent fun statementClass hclass => ?_) (fun _ h => h.1) (fun _ _ h => h)
          fun _ _ h => h
        obtain hkind | hkind := hknown (.inr hrollback) statementClass hclass
        · exact absurd ⟨statementClass, hclass, hkind⟩ hclassed
        · exact hkind
    · exact Triple.weaken (safe_of_harmless ⟨hcommit, fun h => absurd h hrollback⟩) (fun _ h => h.1)
        (fun _ _ h => h) fun _ _ h => h

/-- A statement that is known and succeeds has kept the transaction. -/
theorem executeStatement_keeps (hknown : Known sqlite sql) :
    Triple (Session.Held start) (executeStatement sqlite limits sql) (fun _ => Session.Held start)
      fun _ _ => True := by
  intro session hheld
  by_cases hcommits : Commits sqlite limits sql ∧ sqlite.valid session.contents = true
  · obtain ⟨e, he⟩ := executeStatement_commit hcommits.1 hheld hcommits.2
    rw [he]
    trivial
  · exact (executeStatement_known hknown).weaken (fun _ h => h) (fun _ _ h => h) (fun _ _ _ => trivial) session
      ⟨hheld, hcommits⟩

end Statement

section Statements
variable {session : Session (Store δ)} {statements : List (List Char)}

theorem executeStatements_append (front back : List (List Char)) (session : Session (Store δ)) :
    executeStatements sqlite limits (front ++ back) session =
      (do executeStatements sqlite limits front; executeStatements sqlite limits back : Run (Store δ) Unit)
        session := by
  induction front generalizing session with
  | nil => rfl
  | cons sql front ih =>
    cases hfirst : executeStatement sqlite limits sql session with
    | mk result after =>
      cases result with
      | error e =>
        have hrest : executeStatements sqlite limits (sql :: front) session = (.error e, after) :=
          Act.bind_error hfirst
        exact (Act.bind_error hfirst).trans (Act.bind_error hrest).symm
      | ok u =>
        have hrest : executeStatements sqlite limits (sql :: front) session =
            executeStatements sqlite limits front after := Act.bind_ok hfirst
        refine (Act.bind_ok hfirst).trans ((ih after).trans ?_)
        cases hfront : executeStatements sqlite limits front after with
        | mk result last =>
          cases result with
          | error e => rw [Act.bind_error hfront, Act.bind_error (hrest.trans hfront)]
          | ok v => rw [Act.bind_ok hfront, Act.bind_ok (hrest.trans hfront)]

theorem executeStatements_keeps (hknown : ∀ sql ∈ statements, Known sqlite sql) :
    Triple (Session.Held start) (executeStatements sqlite limits statements) (fun _ => Session.Held start)
      fun _ _ => True := by
  induction statements with
  | nil => exact Triple.pure fun _ h => h
  | cons sql rest ih =>
    exact (executeStatement_keeps (hknown sql (by simp))).bind fun _ =>
      ih fun sql hsql => hknown sql (List.mem_cons_of_mem _ hsql)

/-- A commit of the SQL's own is reached only while nothing has changed. -/
def CommitsNothing (sqlite : Sqlite (Store δ) ρ) (limits : SessionLimits) (session : Session (Store δ))
    (sql : List Char) : Prop :=
  ∀ statements front commit back, splitSqlStatements sql = .ok statements →
    statements = front ++ commit :: back → Commits sqlite limits commit →
      ∀ mid, executeStatements sqlite limits front session.begun = (.ok (), mid) →
        sqlite.valid mid.contents = true → mid.contents = session.contents

/-- From where the statements have come, the rest of them keeps the transaction or undoes it. -/
theorem executeStatements_from (hknown : ∀ sql ∈ statements, Known sqlite sql)
    (hnothing : ∀ front commit back, statements = front ++ commit :: back → Commits sqlite limits commit →
      ∀ mid, executeStatements sqlite limits front session.begun = (.ok (), mid) →
        sqlite.valid mid.contents = true → mid.contents = session.contents)
    (front back : List (List Char)) (hstatements : statements = front ++ back) :
    Triple (fun mid => executeStatements sqlite limits front session.begun = (.ok (), mid))
      (executeStatements sqlite limits back) (fun _ => Session.Held session.contents)
      fun _ => Session.HeldOrUndone session.contents := by
  induction back generalizing front with
  | nil =>
    refine Triple.pure fun mid hmid => ?_
    exact (executeStatements_keeps fun sql hsql => hknown sql (by simp [hstatements, hsql])).ok
      session.held_begun hmid
  | cons sql rest ih =>
    intro mid hmid
    have hheld : mid.Held session.contents :=
      (executeStatements_keeps fun sql hsql => hknown sql (by simp [hstatements, hsql])).ok
        session.held_begun hmid
    cases hfirst : executeStatement sqlite limits sql mid with
    | mk result after =>
      cases result with
      | ok u =>
        have hlonger : executeStatements sqlite limits (front ++ [sql]) session.begun = (.ok (), after) := by
          rw [executeStatements_append, Act.bind_ok hmid]
          exact Act.bind_ok hfirst
        have hall : executeStatements sqlite limits (sql :: rest) mid =
            executeStatements sqlite limits rest after := Act.bind_ok hfirst
        rw [hall]
        exact ih (front ++ [sql]) (by simp [hstatements]) after hlonger
      | error e =>
        have hall : executeStatements sqlite limits (sql :: rest) mid = (.error e, after) :=
          Act.bind_error hfirst
        rw [hall]
        by_cases hcommits : Commits sqlite limits sql ∧ sqlite.valid mid.contents = true
        · obtain ⟨e', he⟩ := executeStatement_commit hcommits.1 hheld hcommits.2
          have hsame := hnothing front sql rest hstatements hcommits.1 mid hmid hcommits.2
          have hafter : after = { mid with connection := ⟨mid.contents, none⟩ } :=
            (congrArg Prod.snd hfirst).symm.trans (congrArg Prod.snd he)
          rw [hafter, hsame]
          exact .inr rfl
        · exact (executeStatement_known (hknown sql (by simp [hstatements]))).error ⟨hheld, hcommits⟩ hfirst

/-- What follows the statements of a migration stays inside the transaction. -/
theorem executeSql_safe {sql : List Char}
    (hknown : ∀ statements, splitSqlStatements sql = .ok statements → ∀ s ∈ statements, Known sqlite s)
    (hnothing : CommitsNothing sqlite limits session sql) :
    Triple (· = session.begun) (executeSql sqlite limits sql) (fun _ => Session.Held session.contents)
      fun _ => Session.HeldOrUndone session.contents := by
  have hheld : ∀ mid, mid = session.begun → mid.Held session.contents := by
    rintro _ rfl
    exact session.held_begun
  unfold executeSql
  refine Triple.bind (Q := fun statements mid => splitSqlStatements sql = .ok statements ∧ mid = session.begun)
    (Triple.given ?_ fun _ mid _ h => .inl (hheld mid h)) fun statements => ?_
  · intro statements mid hsplit hmid
    refine ⟨?_, hmid⟩
    cases h : splitSqlStatements sql with
    | error e =>
      rw [h] at hsplit
      cases hsplit
    | ok found =>
      rw [h] at hsplit
      exact congrArg Except.ok (Except.ok.inj hsplit)
  · intro mid h
    obtain ⟨hsplit, rfl⟩ := h
    by_cases hempty : statements.isEmpty = true
    · rw [if_pos hempty]
      exact .inl session.held_begun
    · rw [if_neg hempty]
      have hrun := executeStatements_from (hknown statements hsplit)
        (fun front commit back => hnothing statements front commit back hsplit) [] statements rfl
      have hall : Triple (· = session.begun)
          (do executeStatements sqlite limits statements
              let catalog ← query sqlite.rlsCatalog
              refreshCapture sqlite catalog : Run (Store δ) Unit)
          (fun _ => Session.Held session.contents) fun _ => Session.HeldOrUndone session.contents :=
        Triple.bind (hrun.weaken (fun _ h => congrArg _ h.symm) (fun _ _ h => h) fun _ _ h => h) fun _ =>
          (Safe.query _).bind fun catalog => Safe.refreshCapture catalog
      exact hall session.begun rfl

/-- A commit that goes through is where the SQL ends, with what was done before it. -/
theorem executeSql_commit {sql : List Char} {statements front back : List (List Char)} {commit : List Char}
    {mid : Session (Store δ)} (hsplit : splitSqlStatements sql = .ok statements)
    (hstatements : statements = front ++ commit :: back) (hknown : ∀ s ∈ statements, Known sqlite s)
    (hcommits : Commits sqlite limits commit)
    (hmid : executeStatements sqlite limits front session.begun = (.ok (), mid))
    (hvalid : sqlite.valid mid.contents = true) :
    ∃ e, executeSql sqlite limits sql session.begun =
      (.error e, { mid with connection := ⟨mid.contents, none⟩ }) := by
  have hheld : mid.Held session.contents :=
    (executeStatements_keeps fun s hs => hknown s (by simp [hstatements, hs])).ok session.held_begun hmid
  obtain ⟨e, he⟩ := executeStatement_commit hcommits hheld hvalid
  refine ⟨e, ?_⟩
  have hrun : executeStatements sqlite limits statements session.begun =
      (.error e, { mid with connection := ⟨mid.contents, none⟩ }) := by
    rw [hstatements, executeStatements_append, Act.bind_ok hmid]
    exact Act.bind_error he
  have hnonempty : ¬ statements.isEmpty = true := by simp [hstatements]
  unfold executeSql
  rw [hsplit]
  refine (Act.bind_ok (given_apply ..)).trans ?_
  rw [if_neg hnonempty]
  exact Act.bind_error hrun

end Statements

section Blocks
variable {session : Session (Store δ)} {sql : List Char}

theorem safe_setSchemaVersion (version : Nat) : Safe start (setSchemaVersion sqlite version) := by
  unfold setSchemaVersion
  split
  · exact Safe.write _
  · exact Safe.fail _

theorem safe_storeMigration (record : StoredMigration) : Safe start (storeMigration sqlite record) := by
  unfold storeMigration
  split
  · exact Safe.write _
  · exact Safe.fail _

theorem safe_storeDurableReceipt (receipt : Option DurableOperationReceipt) (operation : String)
    (outcome : MigrationOutcome) (recordedAtMs : Int) :
    Safe start (storeDurableReceipt sqlite receipt operation outcome recordedAtMs) := by
  cases receipt with
  | none => exact Safe.pure ()
  | some receipt => exact (Safe.query _).bind fun _ => Safe.write _

/-- SQL at the head of an atomic block, and what follows it. -/
theorem block_safe {α : Type} {record : Nat → Run (Store δ) α}
    (hsql : Triple (· = session.begun) (executeSql sqlite limits sql) (fun _ => Session.Held session.contents)
      fun _ => Session.HeldOrUndone session.contents)
    (hrecord : ∀ version, Safe session.contents (record version)) :
    Triple (· = session.begun)
      (do let version ← Act.read fun session => session.contents.schemaVersion
          executeSql sqlite limits sql
          record version : Run (Store δ) α)
      (fun _ => Session.Held session.contents) fun _ => Session.HeldOrUndone session.contents :=
  Triple.bind (Q := fun _ mid => mid = session.begun) (Triple.read fun _ h => h) fun version =>
    hsql.bind fun _ => hrecord version

theorem applyUp_safe {spec : MigrationSpec} {request : Request}
    (hsql : Triple (· = session.begun) (executeSql sqlite limits spec.upSql)
      (fun _ => Session.Held session.contents) fun _ => Session.HeldOrUndone session.contents) :
    Triple (· = session.begun) (applyUp sqlite limits spec request)
      (fun _ => Session.Held session.contents) fun _ => Session.HeldOrUndone session.contents := by
  refine block_safe hsql fun version => (Safe.given _).bind fun _ => ?_
  refine (safe_setSchemaVersion _).bind fun _ => (Safe.given _).bind fun _ => ?_
  exact (safe_storeMigration _).bind fun _ => (safe_storeDurableReceipt _ _ _ _).bind fun _ => Safe.pure _

theorem rollbackDown_safe {existing : StoredMigration} {request : Request}
    (hsql : Triple (· = session.begun) (executeSql sqlite limits existing.downSql)
      (fun _ => Session.Held session.contents) fun _ => Session.HeldOrUndone session.contents) :
    Triple (· = session.begun) (rollbackDown sqlite limits existing request)
      (fun _ => Session.Held session.contents) fun _ => Session.HeldOrUndone session.contents := by
  refine block_safe hsql fun version => (Safe.given _).bind fun _ => ?_
  refine (safe_setSchemaVersion _).bind fun _ => ?_
  exact (safe_storeMigration _).bind fun _ => (safe_storeDurableReceipt _ _ _ _).bind fun _ => Safe.pure _

end Blocks

section Operations
variable {session : Session (Store δ)} {request : Request}

/-- The application runs the SQL of its specification: it is valid, and its id is new or was
rolled back. -/
structure RunsUp (session : Session (Store δ)) (spec : MigrationSpec) : Prop where
  valid : spec.validate = .ok ()
  open_ : ∀ existing, session.contents.migrationRecord spec.id = some existing →
    decodeChecksum spec.checksum = .ok existing.checksum ∧ existing.status ≠ .applied

theorem applyInSession_runs {spec : MigrationSpec} (hruns : RunsUp session spec) :
    applyInSession sqlite limits spec request session =
      atomic sqlite (applyUp sqlite limits spec request) session := by
  unfold applyInSession
  rw [Act.bind_ok (read_apply ..)]
  cases hrecord : session.contents.migrationRecord spec.id with
  | none => rfl
  | some existing =>
    obtain ⟨hchecksum, hstatus⟩ := hruns.open_ existing hrecord
    dsimp only
    rw [hchecksum]
    refine (Act.bind_ok (given_apply ..)).trans ?_
    rw [if_neg (by simp), if_neg hstatus]

/-- An application that does not run SQL fails without effect. -/
theorem applyInSession_error {spec : MigrationSpec} {after : Session (Store δ)} {e : RuntimeError}
    (hidle : session.connection.Idle) (hvalid : spec.validate = .ok ()) (hruns : ¬ RunsUp session spec)
    (h : applyInSession sqlite limits spec request session = (.error e, after)) : after = session := by
  unfold applyInSession at h
  rw [Act.bind_ok (read_apply ..)] at h
  cases hrecord : session.contents.migrationRecord spec.id with
  | none =>
    refine absurd ⟨hvalid, ?_⟩ hruns
    intro existing hexisting
    rw [hrecord] at hexisting
    cases hexisting
  | some existing =>
    rw [hrecord] at h
    dsimp only at h
    cases hchecksum : decodeChecksum spec.checksum with
    | error e' =>
      rw [hchecksum, Act.bind_error (given_apply ..)] at h
      exact (congrArg Prod.snd h).symm
    | ok checksum =>
      rw [hchecksum, Act.bind_ok (given_apply ..)] at h
      by_cases hsame : existing.checksum ≠ checksum
      · rw [if_pos hsame] at h
        exact (congrArg Prod.snd h).symm
      · rw [if_neg hsame] at h
        by_cases happlied : existing.status = .applied
        · rw [if_pos happlied] at h
          cases hreceipt : request.receipt with
          | none =>
            rw [hreceipt] at h
            cases congrArg Prod.fst h
          | some receipt =>
            rw [hreceipt] at h
            refine atomic_error hidle (Safe.begun ?_) h
            exact (safe_storeDurableReceipt _ _ _ _).bind fun _ => Safe.pure _
        · refine absurd ⟨hvalid, ?_⟩ hruns
          intro other hother
          obtain rfl := Option.some.inj (hrecord.symm.trans hother)
          exact ⟨by rw [hchecksum, not_not.mp hsame], happlied⟩

def AllKnown (sqlite : Sqlite (Store δ) ρ) (sql : List Char) : Prop :=
  ∀ statements, splitSqlStatements sql = .ok statements → ∀ statement ∈ statements, Known sqlite statement

/-- A commit that goes through leaves an atomic block failed, and what was done before it. -/
theorem atomic_commit {α : Type} {block : Run (Store δ) α} {sql : List Char} (hidle : session.connection.Idle)
    (hfree : session.inAtomic = false) (hknown : AllKnown sqlite sql)
    (hblock : ∀ e ended, executeSql sqlite limits sql session.begun = (.error e, ended) →
      block session.begun = (.error e, ended))
    (hunchanged : ∀ e after, atomic sqlite block session = (.error e, after) → after = session) :
    CommitsNothing sqlite limits session sql := by
  intro statements front commit back hsplit hstatements hcommits mid hmid hvalid
  obtain ⟨e, he⟩ := executeSql_commit hsplit hstatements (hknown statements hsplit) hcommits hmid hvalid
  obtain ⟨e', he'⟩ := @atomic_ended _ _ _ sqlite _ _ _ mid.contents _ hidle hfree (hblock e _ he) rfl
  have hsession := hunchanged e' _ he'
  rw [← hsession]
  rfl

theorem applyUp_error {spec : MigrationSpec} {e : RuntimeError} {ended : Session (Store δ)}
    (h : executeSql sqlite limits spec.upSql session.begun = (.error e, ended)) :
    applyUp sqlite limits spec request session.begun = (.error e, ended) := by
  unfold applyUp
  rw [Act.bind_ok (read_apply ..)]
  exact Act.bind_error h

theorem rollbackDown_error {existing : StoredMigration} {e : RuntimeError} {ended : Session (Store δ)}
    (h : executeSql sqlite limits existing.downSql session.begun = (.error e, ended)) :
    rollbackDown sqlite limits existing request session.begun = (.error e, ended) := by
  unfold rollbackDown
  rw [Act.bind_ok (read_apply ..)]
  exact Act.bind_error h

/-- Errors are renamed on the way out; the session is not touched. -/
theorem error_iff_of_mapError {α ε ε' τ : Type} {f : ε → ε'} {x : Except ε α × τ} {P : τ → Prop} :
    (∀ e after, (x.1.mapError f, x.2) = (.error e, after) → P after) ↔
      ∀ e after, x = (.error e, after) → P after := by
  obtain ⟨result, state⟩ := x
  cases result with
  | ok value => simp [Except.mapError]
  | error e => simp [Except.mapError]

theorem apply_unchanged_iff {spec : MigrationSpec} (hidle : session.connection.Idle)
    (hfree : session.inAtomic = false) (hknown : AllKnown sqlite spec.upSql) :
    (∀ e after, apply sqlite limits spec request session = (.error e, after) → after = session) ↔
      (RunsUp session spec → CommitsNothing sqlite limits session spec.upSql) := by
  cases hvalid : spec.validate with
  | error e =>
    refine ⟨fun _ hruns => ?_, fun _ e' after h => ?_⟩
    · have := hruns.valid
      rw [hvalid] at this
      cases this
    · simp only [apply, hvalid] at h
      exact (congrArg Prod.snd h).symm
  | ok u =>
    have happly : apply sqlite limits spec request session =
        ((applyInSession sqlite limits spec request session).1.mapError applyError,
          (applyInSession sqlite limits spec request session).2) := by
      simp only [apply, hvalid]
    rw [happly, error_iff_of_mapError]
    constructor
    · intro hunchanged hruns
      rw [applyInSession_runs hruns] at hunchanged
      exact atomic_commit hidle hfree hknown (fun _ _ h => applyUp_error h) hunchanged
    · intro hnothing e after h
      by_cases hruns : RunsUp session spec
      · rw [applyInSession_runs hruns] at h
        exact atomic_error hidle (applyUp_safe (executeSql_safe hknown (hnothing hruns))) h
      · exact applyInSession_error hidle hvalid hruns h

theorem rollback_unchanged_iff {id : List Char} (hidle : session.connection.Idle)
    (hfree : session.inAtomic = false)
    (hknown : ∀ existing, session.contents.migrationRecord id = some existing → AllKnown sqlite existing.downSql) :
    (∀ e after, rollback sqlite limits id request session = (.error e, after) → after = session) ↔
      ∀ existing, session.contents.migrationRecord id = some existing → existing.status = .applied →
        CommitsNothing sqlite limits session existing.downSql := by
  have hrollback : rollback sqlite limits id request session =
      ((rollbackInSession sqlite limits id request session).1.mapError rollbackError,
        (rollbackInSession sqlite limits id request session).2) := rfl
  rw [hrollback, error_iff_of_mapError]
  unfold rollbackInSession
  rw [Act.bind_ok (read_apply ..)]
  cases hrecord : session.contents.migrationRecord id with
  | none =>
    refine ⟨fun _ existing h => (nomatch h), fun _ e after h => (congrArg Prod.snd h).symm⟩
  | some existing =>
    dsimp only
    by_cases happlied : existing.status = .applied
    · rw [if_neg (not_not.mpr happlied)]
      constructor
      · intro hunchanged other hother _
        obtain rfl := Option.some.inj hother
        exact atomic_commit hidle hfree (hknown existing hrecord) (fun _ _ h => rollbackDown_error h) hunchanged
      · intro hnothing e after h
        exact atomic_error hidle (rollbackDown_safe
          (executeSql_safe (hknown existing hrecord) (hnothing existing rfl happlied))) h
    · rw [if_pos happlied]
      refine ⟨fun _ other hother h => ?_, fun _ e after h => (congrArg Prod.snd h).symm⟩
      obtain rfl := Option.some.inj hother
      exact absurd h happlied

/-- A migration or rollback that fails leaves the database, and the sources that its views and
triggers were approved as, exactly as they were, if and only if no commit of its own SQL is
reached after a change. -/
theorem failed_migration_unchanged_iff (hidle : session.connection.Idle) (hfree : session.inAtomic = false) :
    (∀ spec, AllKnown sqlite spec.upSql →
      ((∀ e after, apply sqlite limits spec request session = (.error e, after) → after = session) ↔
        (RunsUp session spec → CommitsNothing sqlite limits session spec.upSql))) ∧
    ∀ id, (∀ existing, session.contents.migrationRecord id = some existing →
        AllKnown sqlite existing.downSql) →
      ((∀ e after, rollback sqlite limits id request session = (.error e, after) → after = session) ↔
        ∀ existing, session.contents.migrationRecord id = some existing → existing.status = .applied →
          CommitsNothing sqlite limits session existing.downSql) :=
  ⟨fun _ hknown => apply_unchanged_iff hidle hfree hknown,
    fun _ hknown => rollback_unchanged_iff hidle hfree hknown⟩

end Operations

section Sample

def sampleControl (sql : List Char) : Option Control :=
  let word := Text.toAsciiUppercase (Text.trim sql)
  if word = "COMMIT".toList ∨ word = "END".toList then some .commit
  else if word = "ROLLBACK".toList then some .rollback
  else if word = "BEGIN".toList then some .begin
  else none

/-- A database that keeps the definitions of its tables; it understands `CREATE TABLE` alone. -/
def sampleSqlite : Sqlite (Store (List (List Char))) Unit where
  control := sampleControl
  run _ request store :=
    if "CREATE TABLE ".toList.isPrefixOf request.sql then
      .done { store with rest := store.rest ++ [request.sql] } ()
    else .failed .database store
  trusted _ store := .done store ()
  controlled := ()
  valid _ := true
  fits _ := true
  persists _ := .ok ()
  rlsCatalog _ := .ok {}
  storeRlsCatalog _ store := .done store ()
  schemaSnapshot _ _ := .ok ⟨[]⟩
  captureTriggers _ := .ok []
  captureSql _ := []
  captureSources _ := []

def sampleLimits : SessionLimits := ⟨1000000, 100⟩

def sampleSession : Session (Store (List (List Char))) := ⟨⟨⟨0, [], [], []⟩, none⟩, [], false⟩

def sampleSpec (upSql : String) : MigrationSpec :=
  let spec : MigrationSpec := ⟨"m1".toList, "first".toList, upSql.toList, "DROP TABLE a".toList, [], 0⟩
  { spec with checksum := spec.calculateChecksum }

def sampleRequest : Request := ⟨"key".toList, 0, 0, none⟩

/-- A migration with a commit fails and leaves its table behind. -/
theorem commit_escapes_migration :
    ∃ e after, apply sampleSqlite sampleLimits (sampleSpec "CREATE TABLE a(x); COMMIT") sampleRequest
        sampleSession = (.error e, after) ∧
      after.contents.rest = ["CREATE TABLE a(x)".toList] ∧ sampleSession.contents.rest = [] := by
  have hfails : (apply sampleSqlite sampleLimits (sampleSpec "CREATE TABLE a(x); COMMIT") sampleRequest
      sampleSession).1.isOk = false := by decide +kernel
  have hrest : (apply sampleSqlite sampleLimits (sampleSpec "CREATE TABLE a(x); COMMIT") sampleRequest
      sampleSession).2.contents.rest = ["CREATE TABLE a(x)".toList] := by decide +kernel
  cases hresult : apply sampleSqlite sampleLimits (sampleSpec "CREATE TABLE a(x); COMMIT") sampleRequest
      sampleSession with
  | mk result after =>
    rw [hresult] at hfails hrest
    cases result with
    | ok outcome => cases hfails
    | error e => exact ⟨e, after, rfl, hrest, rfl⟩

def brokenSpec : MigrationSpec := sampleSpec "CREATE TABLE a(x); CREAT TABLE b(x)"

/-- A migration that fails in its second statement takes the first one back. -/
theorem broken_migration_unchanged :
    (apply sampleSqlite sampleLimits brokenSpec sampleRequest sampleSession).1.isOk = false ∧
    ∀ e after, apply sampleSqlite sampleLimits brokenSpec sampleRequest sampleSession = (.error e, after) →
      after = sampleSession := by
  have hsplit : splitSqlStatements brokenSpec.upSql =
      .ok ["CREATE TABLE a(x)".toList, "CREAT TABLE b(x)".toList] := by decide +kernel
  have hnone : ∀ statement ∈ ["CREATE TABLE a(x)".toList, "CREAT TABLE b(x)".toList],
      sampleControl statement = none := by decide +kernel
  have hknown : AllKnown sampleSqlite brokenSpec.upSql := by
    intro statements hstatements statement hmem hcontrol
    obtain rfl := Except.ok.inj (hsplit.symm.trans hstatements)
    have hcontrolled : sampleSqlite.control statement = none := hnone statement hmem
    simp [hcontrolled] at hcontrol
  have hidle : sampleSession.connection.Idle := rfl
  refine ⟨by decide +kernel, ((failed_migration_unchanged_iff hidle rfl).1 brokenSpec hknown).mpr fun _ => ?_⟩
  intro statements front commit back hstatements hsplitted hcommits
  obtain rfl := Except.ok.inj (hsplit.symm.trans hstatements)
  have hcontrolled : sampleSqlite.control commit = none := hnone commit (by rw [hsplitted]; simp)
  have := hcommits.control
  rw [hcontrolled] at this
  cases this

end Sample
end Ffdb.Migration
