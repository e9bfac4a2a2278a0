import Ffdb.Migration.Atomicity
import Ffdb.Runtime.Frame
import Ffdb.Lib.Machine

/-! The history of migrations over runs of applications and rollbacks: the version counts what
was executed, and the record of an id is that of its last operation. -/
namespace Ffdb.Migration
open Sql Rls Ffdb.Runtime Savepoint Act
variable {δ ρ : Type} {sqlite : Sqlite (Store δ) ρ} {limits : SessionLimits}

section Lookup
variable (store : Store δ) (record : StoredMigration)

theorem find?_map_replaced {records : List StoredMigration} {id : List Char} :
    (records.map fun stored => if stored.id = record.id then { record with createdAtMs := stored.createdAtMs }
      else stored).find? (·.id = id) =
    if id = record.id then
      (records.find? (·.id = id)).map fun stored => { record with createdAtMs := stored.createdAtMs }
    else records.find? (·.id = id) := by
  induction records with
  | nil => simp
  | cons stored records ih =>
    rw [List.map_cons]
    by_cases hstored : stored.id = record.id
    · rw [if_pos hstored]
      by_cases hid : id = record.id
      · subst hid
        simp [hstored]
      · have hne : ¬ record.id = id := fun h => hid h.symm
        rw [List.find?_cons_of_neg (by simpa using hne), ih, if_neg hid, if_neg hid,
          List.find?_cons_of_neg (by simpa [hstored] using hne)]
    · rw [if_neg hstored]
      by_cases hsame : stored.id = id
      · subst hsame
        simp [hstored]
      · rw [List.find?_cons_of_neg (by simpa using hsame), ih,
          List.find?_cons_of_neg (by simpa using hsame)]

/-- What is stored is found, but for its time of creation; the other records stay. -/
theorem migrationRecord_storeMigration (id : List Char) :
    ∃ createdAtMs, (store.storeMigration record).migrationRecord id =
      if id = record.id then some { record with createdAtMs } else store.migrationRecord id := by
  unfold Store.storeMigration
  cases hfound : store.migrationRecord record.id with
  | none =>
    refine ⟨record.createdAtMs, ?_⟩
    unfold Store.migrationRecord at hfound ⊢
    dsimp only
    rw [List.find?_append]
    by_cases hid : id = record.id
    · subst hid
      simp [hfound]
    · have hne : ¬ record.id = id := fun h => hid h.symm
      simp [hid, hne]
  | some stored =>
    refine ⟨stored.createdAtMs, ?_⟩
    unfold Store.migrationRecord at hfound ⊢
    dsimp only
    rw [find?_map_replaced]
    by_cases hid : id = record.id
    · subst hid
      simp [hfound]
    · simp [hid]

end Lookup

inductive Op where
  | apply (spec : MigrationSpec) (request : Request)
  | rollback (id : List Char) (request : Request)

def step (sqlite : Sqlite (Store δ) ρ) (limits : SessionLimits) (session : Session (Store δ)) :
    Op → Except MigrationError MigrationOutcome × Session (Store δ)
  | .apply spec request => apply sqlite limits spec request session
  | .rollback id request => rollback sqlite limits id request session

def Op.sql (store : Store δ) : Op → Option (List Char)
  | .apply spec _ =>
    if spec.validate.isOk && (match store.migrationRecord spec.id with
        | none => true
        | some existing => decide (decodeChecksum spec.checksum = .ok existing.checksum) &&
            decide (existing.status ≠ .applied)) then some spec.upSql
    else none
  | .rollback id _ => (store.migrationRecord id).bind fun existing =>
      if existing.status = .applied then some existing.downSql else none

section Success
variable {session mid : Session (Store δ)} {request : Request} {outcome : MigrationOutcome}

theorem setSchemaVersion_ok {version : Nat} (h : setSchemaVersion sqlite version session = (.ok (), mid)) :
    mid.contents = { session.contents with schemaVersion := version } := by
  unfold setSchemaVersion at h
  split at h
  · exact write_ok h
  · cases congrArg Prod.fst h

theorem storeMigration_ok {record : StoredMigration} (h : storeMigration sqlite record session = (.ok (), mid)) :
    mid.contents = session.contents.storeMigration record := by
  unfold storeMigration at h
  split at h
  · exact write_ok h
  · cases congrArg Prod.fst h

/-- A receipt changes the receipts alone. -/
theorem storeDurableReceipt_ok {receipt : Option DurableOperationReceipt} {operation : String} {recordedAtMs : Int}
    (h : storeDurableReceipt sqlite receipt operation outcome recordedAtMs session = (.ok (), mid)) :
    ∃ receipts, mid.contents = { session.contents with receipts } := by
  cases receipt with
  | none =>
    have hmid : session = mid := congrArg Prod.snd h
    rw [← hmid]
    exact ⟨session.contents.receipts, rfl⟩
  | some receipt =>
    obtain ⟨store, found, hquery, hwrite⟩ := Act.bind_eq_ok h
    have hcontents := write_ok hwrite
    have hfound := congrArg Prod.fst hquery
    rw [hcontents]
    simp only [query, Fallible.orError_ok_iff, Store.storeReceipt] at hfound
    split at hfound
    · exact ⟨_, (Option.some.inj hfound).symm⟩
    · split at hfound
      · exact ⟨_, (Option.some.inj hfound).symm⟩
      · cases hfound

/-- What a successful operation leaves: the contents after its SQL, with the next version and its
record; its receipt is stored beside. -/
def Advances (sqlite : Sqlite (Store δ) ρ) (limits : SessionLimits) (session : Session (Store δ)) (sql : List Char)
    (stored : StoredMigration) (contents : Store δ) : Prop :=
  ∃ mid receipts, executeSql sqlite limits sql session.begun = (.ok (), mid) ∧
    contents = { Store.storeMigration { mid.contents with schemaVersion := session.contents.schemaVersion+1 } stored
      with receipts }

theorem nextVersion_ok {version next : Nat} (h : nextVersion version = .ok next) : next = version+1 := by
  unfold nextVersion at h
  split at h
  · exact (Except.ok.inj h).symm
  · cases h

theorem given_ok {α : Type} {result : Except RuntimeError α} {value : α}
    (h : (Act.given result : Run (Store δ) α) session = (.ok value, mid)) : result = .ok value ∧ session = mid :=
  ⟨congrArg Prod.fst h, congrArg Prod.snd h⟩

/-- The writes that follow the SQL, one after the other. -/
theorem advances_of_writes {sql : List Char} {stored : StoredMigration} {version : Nat} {operation : String}
    {session afterSql afterVersion afterRecord last : Session (Store δ)}
    (hsql : executeSql sqlite limits sql session.begun = (.ok (), afterSql))
    (hnext : nextVersion session.contents.schemaVersion = .ok version)
    (hset : setSchemaVersion sqlite version afterSql = (.ok (), afterVersion))
    (hrecord : storeMigration sqlite stored afterVersion = (.ok (), afterRecord))
    (hreceipt : storeDurableReceipt sqlite request.receipt operation outcome request.atMs afterRecord =
      (.ok (), last)) : Advances sqlite limits session sql stored last.contents := by
  obtain ⟨receipts, hlast⟩ := storeDurableReceipt_ok hreceipt
  refine ⟨afterSql, receipts, hsql, ?_⟩
  rw [hlast, storeMigration_ok hrecord, setSchemaVersion_ok hset, nextVersion_ok hnext]

theorem applyUp_ok {spec : MigrationSpec} {session last : Session (Store δ)}
    (h : applyUp sqlite limits spec request session.begun = (.ok outcome, last)) :
    ∃ stored, Advances sqlite limits session spec.upSql stored last.contents ∧
      outcome = outcomeFromRecord stored .applied ∧ stored.status = .applied ∧ stored.id = spec.id ∧
      stored.downSql = spec.downSql ∧ decodeChecksum spec.checksum = .ok stored.checksum := by
  unfold applyUp at h
  rw [Act.bind_ok (read_apply ..)] at h
  obtain ⟨⟨⟩, afterSql, hsql, h₁⟩ := Act.bind_eq_ok h
  obtain ⟨versionAfter, afterNext, hnext, h₂⟩ := Act.bind_eq_ok h₁
  obtain ⟨hversion, rfl⟩ := given_ok hnext
  obtain ⟨⟨⟩, afterVersion, hset, h₃⟩ := Act.bind_eq_ok h₂
  obtain ⟨checksum, afterDecode, hdecode, h₄⟩ := Act.bind_eq_ok h₃
  obtain ⟨hchecksum, rfl⟩ := given_ok hdecode
  obtain ⟨⟨⟩, afterRecord, hrecord, h₅⟩ := Act.bind_eq_ok h₄
  obtain ⟨⟨⟩, afterReceipt, hreceipt, h₆⟩ := Act.bind_eq_ok h₅
  obtain rfl : afterReceipt = last := congrArg Prod.snd h₆
  exact ⟨_, advances_of_writes hsql hversion hset hrecord hreceipt,
    (Except.ok.inj (congrArg Prod.fst h₆)).symm, rfl, rfl, rfl, hchecksum⟩

theorem rollbackDown_ok {existing : StoredMigration} {session last : Session (Store δ)}
    (h : rollbackDown sqlite limits existing request session.begun = (.ok outcome, last)) :
    ∃ stored, Advances sqlite limits session existing.downSql stored last.contents ∧
      stored.status = .rolledBack ∧ stored.id = existing.id ∧ stored.checksum = existing.checksum := by
  unfold rollbackDown at h
  rw [Act.bind_ok (read_apply ..)] at h
  obtain ⟨⟨⟩, afterSql, hsql, h₁⟩ := Act.bind_eq_ok h
  obtain ⟨versionAfter, afterNext, hnext, h₂⟩ := Act.bind_eq_ok h₁
  obtain ⟨hversion, rfl⟩ := given_ok hnext
  obtain ⟨⟨⟩, afterVersion, hset, h₃⟩ := Act.bind_eq_ok h₂
  obtain ⟨⟨⟩, afterRecord, hrecord, h₄⟩ := Act.bind_eq_ok h₃
  obtain ⟨⟨⟩, afterReceipt, hreceipt, h₅⟩ := Act.bind_eq_ok h₄
  obtain rfl : afterReceipt = last := congrArg Prod.snd h₅
  exact ⟨_, advances_of_writes hsql hversion hset hrecord hreceipt, rfl, rfl, rfl⟩

end Success
section Frame
variable {P : Store δ → Prop}

theorem eq_ok_of_mapError {ε ε' α : Type} {f : ε → ε'} {result : Except ε α} {value : α}
    (h : result.mapError f = .ok value) : result = .ok value := by
  cases result with
  | error e => cases h
  | ok found => exact congrArg Except.ok (Except.ok.inj h)

theorem keeps_executePolicy (htrusted : Trusted sqlite P) (sql : List Char) :
    Keeps P (executePolicy sqlite sql) := by
  refine (Keeps.given _).bind fun statement => (Keeps.query _).bind fun catalog => (Keeps.query _).bind fun schema => ?_
  refine (Keeps.given _).bind fun _ => (Keeps.query _).bind fun current => ?_
  refine Triple.bind (Q := fun plan session =>
      compile Writer.sql current (catalog.apply schema statement).2 = .ok plan ∧ session.connection.All P)
    (Triple.given (fun plan session hplan h => ⟨eq_ok_of_mapError hplan, h⟩) fun _ _ _ h => h) fun plan => ?_
  rintro session ⟨hcompile, h⟩
  have hrest : Keeps P (do applyRlsPlan sqlite plan
                           onContents (sqlite.storeRlsCatalog (catalog.apply schema statement).2) :
      Run (Store δ) Unit) :=
    (Keeps.applyRlsPlan htrusted hcompile).bind fun _ => Keeps.onContents (htrusted.catalog _)
  exact hrest session h

theorem keeps_executeStatement (htrusted : Trusted sqlite P) {sql : List Char}
    (halone : LeavesAlone sqlite P ⟨sql, []⟩) : Keeps P (executeStatement sqlite limits sql) := by
  refine (Keeps.given _).bind fun statementClass => ?_
  split
  · exact keeps_executePolicy htrusted sql
  · exact (Keeps.execute htrusted halone).bind fun _ => Keeps.pure ()

theorem keeps_executeStatements (htrusted : Trusted sqlite P) {statements : List (List Char)}
    (halone : ∀ sql ∈ statements, LeavesAlone sqlite P ⟨sql, []⟩) :
    Keeps P (executeStatements sqlite limits statements) := by
  induction statements with
  | nil => exact Keeps.pure ()
  | cons sql rest ih =>
    exact (keeps_executeStatement htrusted (halone sql (by simp))).bind fun _ =>
      ih fun sql hsql => halone sql (List.mem_cons_of_mem _ hsql)

theorem keeps_executeSql (htrusted : Trusted sqlite P) {sql : List Char}
    (halone : ∀ statements, splitSqlStatements sql = .ok statements →
      ∀ statement ∈ statements, LeavesAlone sqlite P ⟨statement, []⟩) :
    Keeps P (executeSql sqlite limits sql) := by
  refine Triple.bind (Q := fun statements session =>
      splitSqlStatements sql = .ok statements ∧ session.connection.All P)
    (Triple.given (fun statements session hsplit h => ⟨eq_ok_of_mapError hsplit, h⟩) fun _ _ _ h => h)
    fun statements => ?_
  rintro session ⟨hsplit, h⟩
  by_cases hempty : statements.isEmpty = true
  · rw [if_pos hempty]
    exact h
  · rw [if_neg hempty]
    have hrest : Keeps P (do executeStatements sqlite limits statements
                             let catalog ← query sqlite.rlsCatalog
                             refreshCapture sqlite catalog : Run (Store δ) Unit) :=
      (keeps_executeStatements htrusted (halone statements hsplit)).bind fun _ =>
        (Keeps.query _).bind fun catalog => Keeps.refreshCapture htrusted catalog
    exact hrest session h

end Frame

section Events

inductive Event where
  | applied (spec : MigrationSpec) (outcome : MigrationOutcome)
  | rolledBack (id : List Char) (outcome : MigrationOutcome)

def Event.id : Event → List Char
  | .applied spec _ => spec.id
  | .rolledBack id _ => id

def Op.event (store : Store δ) (op : Op) (result : Except MigrationError MigrationOutcome) : List Event :=
  match result, op with
  | .error _, _ => []
  | .ok outcome, .apply spec _ => if (op.sql store).isSome then [.applied spec outcome] else []
  | .ok outcome, .rollback id _ => [.rolledBack id outcome]

def latest (past : List Event) (id : List Char) : Option Event := past.reverse.find? (·.id = id)

theorem latest_append (past : List Event) (event : Event) (id : List Char) :
    latest (past ++ [event]) id = if event.id = id then some event else latest past id := by
  unfold latest
  rw [List.reverse_append, List.reverse_singleton, List.singleton_append, List.find?_cons]
  by_cases h : event.id = id
  · simp [h]
  · simp [h]

def Event.Describes (event : Event) (record : StoredMigration) : Prop :=
  match event with
  | .applied spec outcome =>
    record.status = .applied ∧ record.downSql = spec.downSql ∧ outcomeFromRecord record .applied = outcome
  | .rolledBack _ _ => record.status = .rolledBack

theorem Event.Describes.recreated {event : Event} {record : StoredMigration} (h : event.Describes record)
    (createdAtMs : Int) : event.Describes { record with createdAtMs } := by
  cases event with
  | applied spec outcome => exact h
  | rolledBack id outcome => exact h

structure Recorded (past : List Event) (session : Session (Store δ)) : Prop where
  idle : session.connection.Idle
  free : session.inAtomic = false
  described : ∀ id record, session.contents.migrationRecord id = some record →
    ∃ event, latest past id = some event ∧ event.Describes record
  applied : ∀ spec outcome, Event.applied spec outcome ∈ past → spec.validate = .ok () ∧
    ∃ record, session.contents.migrationRecord spec.id = some record ∧
      decodeChecksum spec.checksum = .ok record.checksum

variable {past : List Event} {session : Session (Store δ)}

/-- One more event: its record takes the place of the one before, and keeps the checksum. -/
theorem Recorded.advance {sql : List Char} {stored : StoredMigration} {contents : Store δ} {event : Event}
    {approved : List (List Char)} (h : Recorded past session) (hid : event.id = stored.id)
    (hdescribes : event.Describes stored)
    (hadvances : Advances sqlite limits session sql stored contents)
    (hkept : ∀ mid, executeSql sqlite limits sql session.begun = (.ok (), mid) →
      mid.contents.migrations = session.contents.migrations)
    (hchecksum : ∀ record, session.contents.migrationRecord stored.id = some record →
      record.checksum = stored.checksum)
    (hspec : ∀ spec outcome, event = .applied spec outcome → spec.validate = .ok () ∧
      decodeChecksum spec.checksum = .ok stored.checksum) :
    Recorded (past ++ [event]) ⟨⟨contents, none⟩, approved, false⟩ := by
  obtain ⟨mid, receipts, hsql, rfl⟩ := hadvances
  have hlookup : ∀ id, ∃ createdAtMs,
      (Store.storeMigration { mid.contents with schemaVersion := session.contents.schemaVersion+1 }
        stored).migrationRecord id =
      if id = stored.id then some { stored with createdAtMs } else session.contents.migrationRecord id := by
    intro id
    obtain ⟨createdAtMs, hfound⟩ := migrationRecord_storeMigration
      { mid.contents with schemaVersion := session.contents.schemaVersion+1 } stored id
    refine ⟨createdAtMs, hfound.trans ?_⟩
    unfold Store.migrationRecord
    rw [hkept mid hsql]
  refine ⟨rfl, rfl, ?_, ?_⟩
  · intro id record hrecord
    obtain ⟨createdAtMs, hfound⟩ := hlookup id
    replace hrecord := hfound.symm.trans hrecord
    rw [latest_append]
    by_cases hsame : id = stored.id
    · rw [if_pos hsame] at hrecord
      obtain rfl := Option.some.inj hrecord
      exact ⟨event, by rw [if_pos (hid.trans hsame.symm)], hdescribes.recreated createdAtMs⟩
    · rw [if_neg hsame] at hrecord
      rw [if_neg (fun h => hsame (h.symm.trans hid))]
      exact h.described id record hrecord
  · intro spec outcome hmem
    obtain ⟨createdAtMs, hfound⟩ := hlookup spec.id
    have hrecord : ∀ record, (if spec.id = stored.id then some { stored with createdAtMs }
        else session.contents.migrationRecord spec.id) = some record →
        (Store.migrationRecord { Store.storeMigration
          { mid.contents with schemaVersion := session.contents.schemaVersion+1 } stored with receipts } spec.id) =
          some record := fun record hr => hfound.trans hr
    obtain hmem | hmem := List.mem_append.mp hmem
    · obtain ⟨hvalid, record, hrecorded, hdecode⟩ := h.applied spec outcome hmem
      refine ⟨hvalid, ?_⟩
      by_cases hsame : spec.id = stored.id
      · refine ⟨_, hrecord _ (if_pos hsame), ?_⟩
        rw [hsame] at hrecorded
        rw [hdecode, hchecksum record hrecorded]
      · exact ⟨record, hrecord _ ((if_neg hsame).trans hrecorded), hdecode⟩
    · obtain rfl := List.mem_singleton.mp hmem
      obtain ⟨hvalid, hdecode⟩ := hspec spec outcome rfl
      exact ⟨hvalid, _, hrecord _ (if_pos hid), hdecode⟩

theorem Recorded.receipts {after : Session (Store δ)} (h : Recorded past session)
    (hidle : after.connection.Idle) (hfree : after.inAtomic = false)
    (hcontents : after.contents.migrations = session.contents.migrations) : Recorded past after := by
  have hlookup : ∀ id, after.contents.migrationRecord id = session.contents.migrationRecord id := by
    intro id
    unfold Store.migrationRecord
    rw [hcontents]
  refine ⟨hidle, hfree, ?_, ?_⟩
  · intro id record hrecord
    exact h.described id record ((hlookup id).symm.trans hrecord)
  · intro spec outcome hmem
    obtain ⟨hvalid, record, hrecord, hdecode⟩ := h.applied spec outcome hmem
    exact ⟨hvalid, record, (hlookup spec.id).trans hrecord, hdecode⟩

end Events

section Steps
variable {session after : Session (Store δ)} {request : Request} {outcome : MigrationOutcome}

theorem sql_apply_iff {spec : MigrationSpec} {sql : List Char} :
    (Op.apply spec request).sql session.contents = some sql ↔ RunsUp session spec ∧ spec.upSql = sql := by
  have hvalid : spec.validate.isOk = true ↔ spec.validate = .ok () := by
    cases spec.validate with
    | error e => simp [Except.isOk, Except.toBool]
    | ok u => simp [Except.isOk, Except.toBool]
  simp only [Op.sql, Option.ite_none_right_eq_some, Option.some.injEq, Bool.and_eq_true, hvalid]
  refine and_congr_left fun _ => ?_
  constructor
  · rintro ⟨hok, hopen⟩
    refine ⟨hok, ?_⟩
    intro existing hexisting
    rw [hexisting] at hopen
    simpa using hopen
  · rintro ⟨hok, hopen⟩
    refine ⟨hok, ?_⟩
    cases hrecord : session.contents.migrationRecord spec.id with
    | none => rfl
    | some existing => simpa using hopen existing hrecord

theorem sql_rollback_iff {id : List Char} {sql : List Char} :
    (Op.rollback id request).sql session.contents = some sql ↔
      ∃ existing, session.contents.migrationRecord id = some existing ∧ existing.status = .applied ∧
        existing.downSql = sql := by
  simp [Op.sql, Option.bind_eq_some_iff]

theorem apply_of_valid {spec : MigrationSpec} (hvalid : spec.validate = .ok ()) :
    apply sqlite limits spec request session =
      ((applyInSession sqlite limits spec request session).1.mapError applyError,
        (applyInSession sqlite limits spec request session).2) := by
  simp only [apply, hvalid]

theorem apply_of_invalid {spec : MigrationSpec} {e : MigrationError} (hvalid : spec.validate = .error e) :
    apply sqlite limits spec request session = (.error e, session) := by
  simp only [apply, hvalid]

theorem mapError_ok {α ε ε' τ : Type} {f : ε → ε'} {x : Except ε α × τ} {value : α} {t : τ}
    (h : (x.1.mapError f, x.2) = (.ok value, t)) : x = (.ok value, t) := by
  obtain ⟨hresult, hstate⟩ := Prod.mk.inj h
  exact Prod.ext (eq_ok_of_mapError hresult) hstate

theorem apply_ok {spec : MigrationSpec} (h : apply sqlite limits spec request session = (.ok outcome, after)) :
    spec.validate = .ok () ∧ applyInSession sqlite limits spec request session = (.ok outcome, after) := by
  cases hvalid : spec.validate with
  | error e =>
    rw [apply_of_invalid hvalid] at h
    cases congrArg Prod.fst h
  | ok u =>
    rw [apply_of_valid hvalid] at h
    exact ⟨rfl, mapError_ok h⟩

theorem apply_ran {spec : MigrationSpec} (hidle : session.connection.Idle) (hfree : session.inAtomic = false)
    (hruns : RunsUp session spec) (h : apply sqlite limits spec request session = (.ok outcome, after)) :
    ∃ stored approved, Advances sqlite limits session spec.upSql stored after.contents ∧
      after = ⟨⟨after.contents, none⟩, approved, false⟩ ∧ stored.id = spec.id ∧
      (Event.applied spec outcome).Describes stored ∧ decodeChecksum spec.checksum = .ok stored.checksum := by
  obtain ⟨-, hrun⟩ := apply_ok h
  rw [applyInSession_runs hruns] at hrun
  obtain ⟨mid, hcallback, rfl⟩ := atomic_ok hidle hfree hrun
  obtain ⟨stored, hadvances, houtcome, hstatus, hid, hdown, hchecksum⟩ := applyUp_ok hcallback
  exact ⟨stored, mid.approvedSources, hadvances, rfl, hid, ⟨hstatus, hdown, houtcome.symm⟩, hchecksum⟩

/-- The record that answers an application that runs no SQL. -/
theorem apply_replayed {spec : MigrationSpec} (hidle : session.connection.Idle) (hfree : session.inAtomic = false)
    (hruns : ¬ RunsUp session spec) (h : apply sqlite limits spec request session = (.ok outcome, after)) :
    ∃ existing, session.contents.migrationRecord spec.id = some existing ∧
      decodeChecksum spec.checksum = .ok existing.checksum ∧ existing.status = .applied ∧
      outcome = outcomeFromRecord existing .applied ∧
      ∃ receipts approved, after = ⟨⟨{ session.contents with receipts }, none⟩, approved, false⟩ := by
  obtain ⟨hvalid, hrun⟩ := apply_ok h
  unfold applyInSession at hrun
  rw [Act.bind_ok (read_apply ..)] at hrun
  cases hrecord : session.contents.migrationRecord spec.id with
  | none =>
    refine absurd ⟨hvalid, ?_⟩ hruns
    intro existing hexisting
    rw [hrecord] at hexisting
    cases hexisting
  | some existing =>
    rw [hrecord] at hrun
    dsimp only at hrun
    obtain ⟨checksum, mid, hdecode, hrest⟩ := Act.bind_eq_ok hrun
    obtain ⟨hchecksum, rfl⟩ := given_ok hdecode
    by_cases hsame : existing.checksum ≠ checksum
    · rw [if_pos hsame] at hrest
      cases congrArg Prod.fst hrest
    · rw [if_neg hsame] at hrest
      obtain rfl := not_not.mp hsame
      by_cases happlied : existing.status = .applied
      · rw [if_pos happlied] at hrest
        cases hreceipt : request.receipt with
        | none =>
          rw [hreceipt] at hrest
          obtain ⟨rfl, rfl⟩ : outcomeFromRecord existing .applied = outcome ∧ session = after :=
            ⟨Except.ok.inj (congrArg Prod.fst hrest), congrArg Prod.snd hrest⟩
          exact ⟨existing, rfl, hchecksum, happlied, rfl, session.contents.receipts, session.approvedSources,
            (Session.eq_of_idle hidle hfree).symm⟩
        | some receipt =>
          rw [hreceipt] at hrest
          obtain ⟨mid, hcallback, rfl⟩ := atomic_ok hidle hfree hrest
          obtain ⟨⟨⟩, last, hstored, hpure⟩ := Act.bind_eq_ok hcallback
          obtain ⟨receipts, hlast⟩ := storeDurableReceipt_ok hstored
          obtain ⟨rfl, rfl⟩ : outcomeFromRecord existing .applied = outcome ∧ last = mid :=
            ⟨Except.ok.inj (congrArg Prod.fst hpure), congrArg Prod.snd hpure⟩
          exact ⟨existing, rfl, hchecksum, happlied, rfl, receipts, last.approvedSources, by rw [hlast]; rfl⟩
      · refine absurd ⟨hvalid, ?_⟩ hruns
        intro other hother
        obtain rfl := Option.some.inj (hrecord.symm.trans hother)
        exact ⟨hchecksum, happlied⟩

/-- A rollback that succeeded ran the SQL of its record. -/
theorem rollback_ran {id : List Char} (hidle : session.connection.Idle) (hfree : session.inAtomic = false)
    (h : rollback sqlite limits id request session = (.ok outcome, after)) :
    ∃ existing stored approved, session.contents.migrationRecord id = some existing ∧
      existing.status = .applied ∧ Advances sqlite limits session existing.downSql stored after.contents ∧
      after = ⟨⟨after.contents, none⟩, approved, false⟩ ∧ stored.id = id ∧
      stored.status = .rolledBack ∧ stored.checksum = existing.checksum := by
  have hrun : rollbackInSession sqlite limits id request session = (.ok outcome, after) := mapError_ok h
  unfold rollbackInSession at hrun
  rw [Act.bind_ok (read_apply ..)] at hrun
  cases hrecord : session.contents.migrationRecord id with
  | none =>
    rw [hrecord] at hrun
    cases congrArg Prod.fst hrun
  | some existing =>
    rw [hrecord] at hrun
    dsimp only at hrun
    by_cases happlied : existing.status ≠ .applied
    · rw [if_pos happlied] at hrun
      cases congrArg Prod.fst hrun
    · rw [if_neg happlied] at hrun
      obtain ⟨mid, hcallback, rfl⟩ := atomic_ok hidle hfree hrun
      obtain ⟨stored, hadvances, hstatus, hid, hchecksum⟩ := rollbackDown_ok hcallback
      have hname : existing.id = id := by simpa using List.find?_some hrecord
      exact ⟨existing, stored, mid.approvedSources, rfl, not_not.mp happlied, hadvances, rfl,
        hid.trans hname, hstatus, hchecksum⟩

/-- A rollback of an id that is not applied. -/
theorem rollback_refused {id : List Char} {result : Except MigrationError MigrationOutcome}
    (hsql : (Op.rollback id request).sql session.contents = none)
    (h : rollback sqlite limits id request session = (result, after)) : after = session := by
  have hsession : (rollbackInSession sqlite limits id request session).2 = after := congrArg Prod.snd h
  unfold rollbackInSession at hsession
  rw [Act.bind_ok (read_apply ..)] at hsession
  cases hrecord : session.contents.migrationRecord id with
  | none =>
    rw [hrecord] at hsession
    exact hsession.symm
  | some existing =>
    rw [hrecord] at hsession
    dsimp only at hsession
    have hstatus : existing.status ≠ .applied := by
      intro happlied
      rw [sql_rollback_iff.mpr ⟨existing, hrecord, happlied, rfl⟩] at hsql
      cases hsql
    rw [if_pos hstatus] at hsession
    exact hsession.symm

end Steps

section Checksum

theorem hexValue_hexDigit : ∀ n < 16, hexValue (Text.hexDigit n) = some n := by decide

theorem decodePairs_hex (bytes : Bytes) : decodePairs (Text.hex bytes) = some bytes := by
  induction bytes with
  | nil => rfl
  | cons byte bytes ih =>
    have hbyte : byte.toNat < 256 := byte.toNat_lt
    have hsplit : 16*(byte.toNat/16)+byte.toNat%16 = byte.toNat := Nat.div_add_mod ..
    have hhex : Text.hex (byte :: bytes) =
        Text.hexDigit (byte.toNat/16) :: Text.hexDigit (byte.toNat%16) :: Text.hex bytes := rfl
    rw [hhex]
    simp only [decodePairs, hexValue_hexDigit (byte.toNat/16) (by omega),
      hexValue_hexDigit (byte.toNat%16) (by omega), ih, Option.bind_eq_bind, Option.bind_some, hsplit]
    simp

/-- A checksum that passed validation is the text of the bytes that it decodes to. -/
theorem checksum_of_valid {spec : MigrationSpec} (hvalid : spec.validate = .ok ()) :
    ∃ bytes, spec.checksum = Text.hex bytes ∧ decodeChecksum spec.checksum = .ok bytes := by
  simp only [MigrationSpec.validate, Fallible.bind_ok_iff, Fallible.require_ok_iff] at hvalid
  obtain ⟨_, -, _, -, hchecksum⟩ := hvalid
  simp only [Bool.not_eq_true', Bool.or_eq_false_iff, decide_eq_false_iff_not, not_not] at hchecksum
  refine ⟨_, hchecksum.2, ?_⟩
  simp only [decodeChecksum, Fallible.bind_ok_iff, Fallible.require_ok_iff, Fallible.orError_ok_iff]
  refine ⟨(), by simpa using hchecksum.1, ?_⟩
  rw [hchecksum.2, MigrationSpec.calculateChecksum]
  exact decodePairs_hex _

end Checksum

section Runs
variable (sqlite : Sqlite (Store δ) ρ) (limits : SessionLimits)

/-- The SQL reaches no commit of its own after a change, and leaves the records alone. -/
structure Orderly (session : Session (Store δ)) (sql : List Char) : Prop where
  known : AllKnown sqlite sql
  commits : CommitsNothing sqlite limits session sql
  records : ∀ statements, splitSqlStatements sql = .ok statements → ∀ statement ∈ statements, ∀ migrations,
    LeavesAlone sqlite (fun store => store.migrations = migrations) ⟨statement, []⟩

def next (session : Session (Store δ)) (op : Op) : Session (Store δ) := (step sqlite limits session op).2

def Admitted (session : Session (Store δ)) (op : Op) : Prop :=
  ∀ sql, op.sql session.contents = some sql → Orderly sqlite limits session sql

def AdmittedRun (session : Session (Store δ)) : List Op → Prop
  | [] => True
  | op :: ops => Admitted sqlite limits session op ∧ AdmittedRun (next sqlite limits session op) ops

def Executed (session : Session (Store δ)) (op : Op) : Prop :=
  (op.sql session.contents).isSome = true ∧ next sqlite limits session op ≠ session

open Classical in
noncomputable def executions (session : Session (Store δ)) : List Op → Nat
  | [] => 0
  | op :: ops => (if Executed sqlite limits session op then 1 else 0) +
      executions (next sqlite limits session op) ops

def events (session : Session (Store δ)) (ops : List Op) : List Event :=
  Machine.trace (next sqlite limits)
    (fun session op => op.event session.contents (step sqlite limits session op).1) session ops

end Runs

section Invariant
variable {session : Session (Store δ)} {past : List Event} {op : Op}

/-- What one step does: it executes SQL for the next version and one more event, or leaves the
version and the records. -/
structure Stepped (sqlite : Sqlite (Store δ) ρ) (limits : SessionLimits) (past : List Event)
    (session : Session (Store δ)) (op : Op) : Prop where
  recorded : Recorded (past ++ op.event session.contents (step sqlite limits session op).1)
    (next sqlite limits session op)
  executed : Executed sqlite limits session op →
    (next sqlite limits session op).contents.schemaVersion = session.contents.schemaVersion+1
  idle : ¬ Executed sqlite limits session op →
    (next sqlite limits session op).contents.schemaVersion = session.contents.schemaVersion

theorem Stepped.unchanged (h : Recorded past session) (hevent : op.event session.contents (step sqlite limits session op).1 = [])
    (hnext : next sqlite limits session op = session) : Stepped sqlite limits past session op := by
  refine ⟨?_, ?_, ?_⟩
  · rw [hevent, hnext, List.append_nil]
    exact h
  · exact fun hexecuted => absurd hnext hexecuted.2
  · rw [hnext]
    exact fun _ => rfl

theorem Advances.version {sql : List Char} {stored : StoredMigration} {contents : Store δ}
    (h : Advances sqlite limits session sql stored contents) :
    contents.schemaVersion = session.contents.schemaVersion+1 := by
  obtain ⟨mid, receipts, -, rfl⟩ := h
  simp only [Store.storeMigration]
  split
  · rfl
  · rfl

theorem Stepped.advanced {sql : List Char} {stored : StoredMigration} {event : Event} {after : Session (Store δ)}
    {approved : List (List Char)} (h : Recorded past session) (hsql : op.sql session.contents = some sql)
    (hnext : next sqlite limits session op = after) (hafter : after = ⟨⟨after.contents, none⟩, approved, false⟩)
    (hevent : op.event session.contents (step sqlite limits session op).1 = [event]) (hid : event.id = stored.id)
    (hdescribes : event.Describes stored) (hadvances : Advances sqlite limits session sql stored after.contents)
    (htrusted : ∀ migrations, Trusted sqlite fun store => store.migrations = migrations)
    (hadmitted : Admitted sqlite limits session op)
    (hchecksum : ∀ record, session.contents.migrationRecord stored.id = some record →
      record.checksum = stored.checksum)
    (hspec : ∀ spec outcome, event = .applied spec outcome → spec.validate = .ok () ∧
      decodeChecksum spec.checksum = .ok stored.checksum) : Stepped sqlite limits past session op := by
  have hversion : after.contents.schemaVersion = session.contents.schemaVersion+1 := hadvances.version
  have hkept : ∀ mid, executeSql sqlite limits sql session.begun = (.ok (), mid) →
      mid.contents.migrations = session.contents.migrations := by
    intro mid hmid
    have hkeeps : Keeps (fun store => store.migrations = session.contents.migrations)
        (executeSql sqlite limits sql) :=
      keeps_executeSql (htrusted session.contents.migrations) fun statements hsplit statement hstatement =>
        (hadmitted sql hsql).records statements hsplit statement hstatement session.contents.migrations
    exact (hkeeps.ok (Session.all_begun rfl) hmid).1
  refine ⟨?_, ?_, ?_⟩
  · rw [hevent, hnext, hafter]
    exact h.advance hid hdescribes hadvances hkept hchecksum hspec
  · intro _
    rw [hnext, hversion]
  · intro hidle
    refine absurd ⟨by rw [hsql]; rfl, fun hsame => ?_⟩ hidle
    rw [hsame.symm.trans hnext] at hversion
    omega

variable (htrusted : ∀ migrations, Trusted sqlite fun store => store.migrations = migrations)
include htrusted

theorem stepped_apply {spec : MigrationSpec} {request : Request} (h : Recorded past session)
    (hadmitted : Admitted sqlite limits session (.apply spec request)) :
    Stepped sqlite limits past session (.apply spec request) := by
  cases hresult : apply sqlite limits spec request session with
  | mk result after =>
    have hstep : step sqlite limits session (.apply spec request) = (result, after) := hresult
    have hnext : next sqlite limits session (.apply spec request) = after := congrArg Prod.snd hresult
    by_cases hruns : RunsUp session spec
    · have hsql : (Op.apply spec request).sql session.contents = some spec.upSql :=
        sql_apply_iff.mpr ⟨hruns, rfl⟩
      cases result with
      | error e =>
        have horderly := hadmitted spec.upSql hsql
        have hsame := (apply_unchanged_iff h.idle h.free horderly.known).mpr (fun _ => horderly.commits)
          e after hresult
        exact Stepped.unchanged h (by rw [hstep]; rfl) (hnext.trans hsame)
      | ok outcome =>
        obtain ⟨stored, approved, hadvances, hafter, hid, hdescribes, hdecode⟩ :=
          apply_ran h.idle h.free hruns hresult
        have hevent : (Op.apply spec request).event session.contents
            (step sqlite limits session (.apply spec request)).1 = [.applied spec outcome] := by
          rw [hstep]
          simp only [Op.event, hsql, Option.isSome_some, if_true]
        refine Stepped.advanced h hsql hnext hafter hevent hid.symm hdescribes hadvances htrusted hadmitted ?_ ?_
        · intro record hrecord
          rw [hid] at hrecord
          have := (hruns.open_ record hrecord).1
          rw [hdecode] at this
          exact (Except.ok.inj this).symm
        · rintro other _ hother
          obtain ⟨rfl, -⟩ := Event.applied.inj hother
          exact ⟨hruns.valid, hdecode⟩
    · have hsql : (Op.apply spec request).sql session.contents = none := by
        rw [Option.eq_none_iff_forall_ne_some]
        exact fun sql hsome => hruns (sql_apply_iff.mp hsome).1
      have hevent : (Op.apply spec request).event session.contents
          (step sqlite limits session (.apply spec request)).1 = [] := by
        rw [hstep]
        cases result with
        | error e => rfl
        | ok outcome => simp only [Op.event, hsql, Option.isSome_none, Bool.false_eq_true, if_false]
      cases result with
      | error e =>
        refine Stepped.unchanged h hevent (hnext.trans ?_)
        cases hvalid : spec.validate with
        | error e' =>
          rw [apply_of_invalid hvalid] at hresult
          exact (congrArg Prod.snd hresult).symm
        | ok u =>
          rw [apply_of_valid hvalid] at hresult
          exact error_iff_of_mapError.mpr (fun e' after' h' => applyInSession_error h.idle hvalid hruns h')
            e after hresult
      | ok outcome =>
        obtain ⟨existing, -, -, -, -, receipts, approved, hafter⟩ := apply_replayed h.idle h.free hruns hresult
        refine ⟨?_, ?_, ?_⟩
        · rw [hevent, hnext, hafter, List.append_nil]
          exact h.receipts rfl rfl rfl
        · rintro ⟨hsome, -⟩
          rw [hsql] at hsome
          cases hsome
        · rw [hnext, hafter]
          exact fun _ => rfl

theorem stepped_rollback {id : List Char} {request : Request} (h : Recorded past session)
    (hadmitted : Admitted sqlite limits session (.rollback id request)) :
    Stepped sqlite limits past session (.rollback id request) := by
  cases hresult : rollback sqlite limits id request session with
  | mk result after =>
    have hstep : step sqlite limits session (.rollback id request) = (result, after) := hresult
    have hnext : next sqlite limits session (.rollback id request) = after := congrArg Prod.snd hresult
    cases result with
    | error e =>
      refine Stepped.unchanged h (by rw [hstep]; rfl) (hnext.trans ?_)
      cases hsql : (Op.rollback id request).sql session.contents with
      | none => exact rollback_refused hsql hresult
      | some sql =>
        obtain ⟨existing, hrecord, happlied, rfl⟩ := sql_rollback_iff.mp hsql
        have horderly := hadmitted existing.downSql hsql
        have hone : ∀ other, session.contents.migrationRecord id = some other → existing = other :=
          fun other hother => Option.some.inj (hrecord.symm.trans hother)
        refine (rollback_unchanged_iff h.idle h.free ?_).mpr ?_ e after hresult
        · intro other hother
          obtain rfl := hone other hother
          exact horderly.known
        · intro other hother _
          obtain rfl := hone other hother
          exact horderly.commits
    | ok outcome =>
      obtain ⟨existing, stored, approved, hrecord, happlied, hadvances, hafter, hid, hstatus, hchecksum⟩ :=
        rollback_ran h.idle h.free hresult
      have hsql : (Op.rollback id request).sql session.contents = some existing.downSql :=
        sql_rollback_iff.mpr ⟨existing, hrecord, happlied, rfl⟩
      refine @Stepped.advanced _ _ _ _ _ _ _ _ _ (.rolledBack id outcome) _ _ h hsql hnext hafter (by rw [hstep]; rfl) hid.symm
        hstatus hadvances htrusted hadmitted ?_ (fun _ _ hother => (nomatch hother))
      intro record hfound
      rw [hid] at hfound
      obtain rfl := Option.some.inj (hrecord.symm.trans hfound)
      exact hchecksum.symm

theorem stepped (h : Recorded past session) (hadmitted : Admitted sqlite limits session op) :
    Stepped sqlite limits past session op := by
  cases op with
  | apply spec request => exact stepped_apply htrusted h hadmitted
  | rollback id request => exact stepped_rollback htrusted h hadmitted

theorem recorded_run (h : Recorded past session) {ops : List Op} (hrun : AdmittedRun sqlite limits session ops) :
    Recorded (past ++ events sqlite limits session ops) (Machine.run (next sqlite limits) session ops) ∧
    (Machine.run (next sqlite limits) session ops).contents.schemaVersion =
      session.contents.schemaVersion + executions sqlite limits session ops := by
  induction ops generalizing session past with
  | nil => exact ⟨by simpa [events, Machine.trace, Machine.run] using h, rfl⟩
  | cons op ops ih =>
    obtain ⟨hadmitted, hrest⟩ := hrun
    have hstep := stepped htrusted h hadmitted
    obtain ⟨hrecorded, hversion⟩ := ih hstep.recorded hrest
    refine ⟨by simpa [events, Machine.trace, Machine.run] using hrecorded, hversion.trans ?_⟩
    by_cases hexecuted : Executed sqlite limits session op
    · rw [hstep.executed hexecuted, executions, if_pos hexecuted]
      omega
    · rw [hstep.idle hexecuted, executions, if_neg hexecuted]
      omega

end Invariant

/-- What the history promises in a state with the past: an applied id is answered from its
record, a known id keeps its checksum, and a rollback runs the SQL of the last application. -/
structure HistoryLaws (sqlite : Sqlite (Store δ) ρ) (limits : SessionLimits) (past : List Event)
    (session : Session (Store δ)) : Prop where
  advances : ∀ op, Admitted sqlite limits session op →
    (Executed sqlite limits session op →
      (next sqlite limits session op).contents.schemaVersion = session.contents.schemaVersion+1) ∧
    (¬ Executed sqlite limits session op →
      (next sqlite limits session op).contents.schemaVersion = session.contents.schemaVersion)
  replays : ∀ spec request applied outcome, latest past spec.id = some (.applied applied outcome) →
    spec.checksum = applied.checksum →
      (Op.apply spec request).sql session.contents = none ∧
      (∃ receipts, (next sqlite limits session (.apply spec request)).contents =
        { session.contents with receipts }) ∧
      (∀ outcome' after, apply sqlite limits spec request session = (.ok outcome', after) → outcome' = outcome) ∧
      (spec.validate = .ok () → request.receipt = none →
        apply sqlite limits spec request session = (.ok outcome, session))
  rejects : ∀ spec request applied outcome, Event.applied applied outcome ∈ past → applied.id = spec.id →
    applied.checksum ≠ spec.checksum →
      ∃ e, apply sqlite limits spec request session = (.error e, session) ∧
        (spec.validate = .ok () → e = .checksumMismatch)
  rollsBack : ∀ id request outcome after, rollback sqlite limits id request session = (.ok outcome, after) →
    ∃ applied outcome', latest past id = some (.applied applied outcome') ∧
      (Op.rollback id request).sql session.contents = some applied.downSql ∧
      ∃ mid, executeSql sqlite limits applied.downSql session.begun = (.ok (), mid) ∧
        after.contents.rest = mid.contents.rest

section Laws
variable {session : Session (Store δ)} {past : List Event}

theorem mem_of_latest {id : List Char} {event : Event} (h : latest past id = some event) :
    event ∈ past ∧ event.id = id := by
  unfold latest at h
  exact ⟨by simpa using List.mem_of_find?_eq_some h, by simpa using List.find?_some h⟩

/-- An id whose latest event is its application has the record of it. -/
theorem Recorded.of_latest (h : Recorded past session) {id : List Char} {applied : MigrationSpec}
    {outcome : MigrationOutcome} (hlatest : latest past id = some (.applied applied outcome)) :
    ∃ record, session.contents.migrationRecord id = some record ∧ record.status = .applied ∧
      record.downSql = applied.downSql ∧ outcomeFromRecord record .applied = outcome ∧
      decodeChecksum applied.checksum = .ok record.checksum := by
  obtain ⟨hmem, hid⟩ := mem_of_latest hlatest
  obtain ⟨-, record, hrecord, hdecode⟩ := h.applied applied outcome hmem
  change applied.id = id at hid
  rw [hid] at hrecord
  obtain ⟨event, hevent, hdescribes⟩ := h.described id record hrecord
  obtain rfl := Option.some.inj (hlatest.symm.trans hevent)
  obtain ⟨hstatus, hdown, houtcome⟩ := hdescribes
  exact ⟨record, hrecord, hstatus, hdown, houtcome, hdecode⟩

theorem not_runsUp_of_applied {spec : MigrationSpec} {record : StoredMigration}
    (hrecord : session.contents.migrationRecord spec.id = some record) (hstatus : record.status = .applied) :
    ¬ RunsUp session spec :=
  fun hruns => (hruns.open_ record hrecord).2 hstatus

/-- An application whose id has a record of another checksum. -/
theorem apply_mismatch {spec : MigrationSpec} {request : Request} {record : StoredMigration} {checksum : Bytes}
    (hvalid : spec.validate = .ok ()) (hrecord : session.contents.migrationRecord spec.id = some record)
    (hdecode : decodeChecksum spec.checksum = .ok checksum) (hother : record.checksum ≠ checksum) :
    apply sqlite limits spec request session = (.error .checksumMismatch, session) := by
  have hrun : applyInSession sqlite limits spec request session = (.error .constraintViolation, session) := by
    unfold applyInSession
    rw [Act.bind_ok (read_apply ..), hrecord]
    dsimp only
    rw [hdecode]
    refine (Act.bind_ok (given_apply ..)).trans ?_
    rw [if_pos hother]
    rfl
  rw [apply_of_valid hvalid, hrun]
  rfl

theorem apply_recorded {spec : MigrationSpec} {request : Request} {record : StoredMigration}
    (hvalid : spec.validate = .ok ()) (hrecord : session.contents.migrationRecord spec.id = some record)
    (hdecode : decodeChecksum spec.checksum = .ok record.checksum) (hstatus : record.status = .applied)
    (hreceipt : request.receipt = none) :
    apply sqlite limits spec request session = (.ok (outcomeFromRecord record .applied), session) := by
  have hrun : applyInSession sqlite limits spec request session =
      (.ok (outcomeFromRecord record .applied), session) := by
    unfold applyInSession
    rw [Act.bind_ok (read_apply ..), hrecord]
    dsimp only
    rw [hdecode]
    refine (Act.bind_ok (given_apply ..)).trans ?_
    rw [if_neg (by simp), if_pos hstatus, hreceipt]
    rfl
  rw [apply_of_valid hvalid, hrun]
  rfl

theorem historyLaws (htrusted : ∀ migrations, Trusted sqlite fun store => store.migrations = migrations)
    (h : Recorded past session) : HistoryLaws sqlite limits past session := by
  refine ⟨?_, ?_, ?_, ?_⟩
  · intro op hadmitted
    have hstep := stepped htrusted h hadmitted
    exact ⟨hstep.executed, hstep.idle⟩
  · intro spec request applied outcome hlatest hchecksum
    obtain ⟨record, hrecord, hstatus, -, houtcome, hdecode⟩ := h.of_latest hlatest
    have hruns := not_runsUp_of_applied hrecord hstatus
    have hsql : (Op.apply spec request).sql session.contents = none := by
      rw [Option.eq_none_iff_forall_ne_some]
      exact fun sql hsome => hruns (sql_apply_iff.mp hsome).1
    refine ⟨hsql, ?_, ?_, ?_⟩
    · cases hresult : apply sqlite limits spec request session with
      | mk result after =>
        have hnext : next sqlite limits session (.apply spec request) = after := congrArg Prod.snd hresult
        rw [hnext]
        cases result with
        | ok outcome' =>
          obtain ⟨-, -, -, -, -, receipts, approved, hafter⟩ := apply_replayed h.idle h.free hruns hresult
          exact ⟨receipts, by rw [hafter]; rfl⟩
        | error e =>
          have hunchanged : after = session := by
            cases hvalid : spec.validate with
            | error e' =>
              rw [apply_of_invalid hvalid] at hresult
              exact (congrArg Prod.snd hresult).symm
            | ok u =>
              rw [apply_of_valid hvalid] at hresult
              exact error_iff_of_mapError.mpr (fun e' after' h' => applyInSession_error h.idle hvalid hruns h')
                e after hresult
          exact ⟨session.contents.receipts, by rw [hunchanged]⟩
    · intro outcome' after hresult
      obtain ⟨existing, hexisting, -, -, hfound, -⟩ := apply_replayed h.idle h.free hruns hresult
      obtain rfl := Option.some.inj (hrecord.symm.trans hexisting)
      exact hfound.trans houtcome
    · intro hvalid hreceipt
      rw [apply_recorded hvalid hrecord (hchecksum ▸ hdecode) hstatus hreceipt, houtcome]
  · intro spec request applied outcome hmem hid hother
    cases hvalid : spec.validate with
    | error e => exact ⟨e, apply_of_invalid hvalid, fun h => (nomatch h)⟩
    | ok u =>
      obtain ⟨happlied, record, hrecord, hdecode⟩ := h.applied applied outcome hmem
      obtain ⟨bytes, htext, hbytes⟩ := checksum_of_valid happlied
      obtain ⟨checksum, htext', hchecksum⟩ := checksum_of_valid hvalid
      obtain rfl := Except.ok.inj (hdecode.symm.trans hbytes)
      rw [hid] at hrecord
      refine ⟨.checksumMismatch, apply_mismatch hvalid hrecord hchecksum fun hsame => hother ?_, fun _ => rfl⟩
      rw [htext, htext', hsame]
  · intro id request outcome after hresult
    obtain ⟨existing, stored, approved, hrecord, happlied, ⟨mid, receipts, hsql, hcontents⟩, -⟩ :=
      rollback_ran h.idle h.free hresult
    obtain ⟨event, hlatest, hdescribes⟩ := h.described id existing hrecord
    cases event with
    | rolledBack id' outcome' =>
      rw [show existing.status = .rolledBack from hdescribes] at happlied
      cases happlied
    | applied spec outcome' =>
      obtain ⟨-, hdown, -⟩ := hdescribes
      refine ⟨spec, outcome', hlatest, sql_rollback_iff.mpr ⟨existing, hrecord, happlied, hdown⟩, mid,
        hdown ▸ hsql, ?_⟩
      rw [hcontents]
      simp only [Store.storeMigration]
      split
      · rfl
      · rfl

structure Fresh (session : Session (Store δ)) : Prop where
  idle : session.connection.Idle
  free : session.inAtomic = false
  version : session.contents.schemaVersion = 0
  records : session.contents.migrations = []

theorem Fresh.recorded (h : Fresh session) : Recorded [] session := by
  refine ⟨h.idle, h.free, ?_, by simp⟩
  intro id record hrecord
  simp [Store.migrationRecord, h.records] at hrecord

/-- Over every run of applications and rollbacks from a fresh database whose SQL commits nothing
of its own and leaves the records alone, the version counts the executions, and every state that
is reached keeps the promises of the history. -/
theorem history_of_run (htrusted : ∀ migrations, Trusted sqlite fun store => store.migrations = migrations)
    (hfresh : Fresh session) (ops : List Op) (hrun : AdmittedRun sqlite limits session ops) :
    (Machine.run (next sqlite limits) session ops).contents.schemaVersion = executions sqlite limits session ops ∧
      HistoryLaws sqlite limits (events sqlite limits session ops) (Machine.run (next sqlite limits) session ops) := by
  obtain ⟨hrecorded, hversion⟩ := recorded_run htrusted hfresh.recorded hrun
  rw [hfresh.version, Nat.zero_add] at hversion
  exact ⟨hversion, historyLaws htrusted hrecorded⟩

end Laws

section Sample

theorem fresh_sampleSession : Fresh sampleSession := ⟨rfl, rfl, rfl, rfl⟩

/-- A migration with a commit executes SQL and does not advance the version. -/
theorem commit_escapes_history :
    executions sampleSqlite sampleLimits sampleSession
        [.apply (sampleSpec "CREATE TABLE a(x); COMMIT") sampleRequest] = 1 ∧
    (Machine.run (next sampleSqlite sampleLimits) sampleSession
        [.apply (sampleSpec "CREATE TABLE a(x); COMMIT") sampleRequest]).contents.schemaVersion = 0 := by
  have hrest : (next sampleSqlite sampleLimits sampleSession
      (.apply (sampleSpec "CREATE TABLE a(x); COMMIT") sampleRequest)).contents.rest =
      ["CREATE TABLE a(x)".toList] := by decide +kernel
  have hexecuted : Executed sampleSqlite sampleLimits sampleSession
      (.apply (sampleSpec "CREATE TABLE a(x); COMMIT") sampleRequest) := by
    refine ⟨by decide +kernel, fun hsame => ?_⟩
    rw [hsame] at hrest
    cases hrest
  exact ⟨by simp [executions, hexecuted], by decide +kernel⟩

def droppingSqlite : Sqlite (Store (List (List Char))) Unit :=
  { sampleSqlite with
    run := fun _ request store =>
      if "CREATE TABLE ".toList.isPrefixOf request.sql then .done { store with rest := store.rest ++ [request.sql] } ()
      else if "DROP TABLE ".toList.isPrefixOf request.sql then .done { store with rest := [] } ()
      else .failed .database store }

theorem trusted_droppingSqlite (migrations : List StoredMigration) :
    Trusted droppingSqlite fun store => store.migrations = migrations :=
  ⟨fun _ _ _ h => h, fun _ _ h => h⟩

theorem orderly_droppingSqlite {session : Session (Store (List (List Char)))} {sql : List Char}
    (statements : List (List Char)) (hsplit : splitSqlStatements sql = .ok statements)
    (hnone : ∀ statement ∈ statements, sampleControl statement = none) :
    Orderly droppingSqlite sampleLimits session sql := by
  refine ⟨?_, ?_, ?_⟩
  · intro found hfound statement hmem hcontrol
    obtain rfl := Except.ok.inj (hsplit.symm.trans hfound)
    have hcontrolled : droppingSqlite.control statement = none := hnone statement hmem
    simp [hcontrolled] at hcontrol
  · intro found front commit back hfound hstatements hcommits
    obtain rfl := Except.ok.inj (hsplit.symm.trans hfound)
    have hcontrolled : droppingSqlite.control commit = none := hnone commit (by rw [hstatements]; simp)
    have := hcommits.control
    rw [hcontrolled] at this
    cases this
  · intro _ _ statement _ migrations sources store hstore
    simp only [droppingSqlite]
    split
    · exact hstore
    · split
      · exact hstore
      · exact hstore

def sampleOps : List Op :=
  [.apply (sampleSpec "CREATE TABLE a(x)") sampleRequest, .apply (sampleSpec "CREATE TABLE a(x)") sampleRequest,
    .rollback "m1".toList sampleRequest]

/-- A migration, the same again, and its rollback make two versions. -/
theorem sampleOps_history :
    (Machine.run (next droppingSqlite sampleLimits) sampleSession sampleOps).contents.schemaVersion = 2 ∧
    executions droppingSqlite sampleLimits sampleSession sampleOps = 2 ∧
    HistoryLaws droppingSqlite sampleLimits (events droppingSqlite sampleLimits sampleSession sampleOps)
      (Machine.run (next droppingSqlite sampleLimits) sampleSession sampleOps) := by
  have hcreate : ∀ session, Orderly droppingSqlite sampleLimits session "CREATE TABLE a(x)".toList := fun session =>
    orderly_droppingSqlite ["CREATE TABLE a(x)".toList] (by decide +kernel) (by decide +kernel)
  have hdrop : ∀ session, Orderly droppingSqlite sampleLimits session "DROP TABLE a".toList := fun session =>
    orderly_droppingSqlite ["DROP TABLE a".toList] (by decide +kernel) (by decide +kernel)
  have hadmitted : AdmittedRun droppingSqlite sampleLimits sampleSession sampleOps := by
    refine ⟨?_, ?_, ?_, trivial⟩
    · intro sql hsql
      obtain ⟨-, rfl⟩ := sql_apply_iff.mp hsql
      exact hcreate _
    · intro sql hsql
      obtain ⟨-, rfl⟩ := sql_apply_iff.mp hsql
      exact hcreate _
    · intro sql hsql
      have hfound : (Op.rollback "m1".toList sampleRequest).sql (next droppingSqlite sampleLimits
          (next droppingSqlite sampleLimits sampleSession (.apply (sampleSpec "CREATE TABLE a(x)") sampleRequest))
          (.apply (sampleSpec "CREATE TABLE a(x)") sampleRequest)).contents = some "DROP TABLE a".toList := by
        decide +kernel
      obtain rfl := Option.some.inj (hfound.symm.trans hsql)
      exact hdrop _
  obtain ⟨hversion, hlaws⟩ := history_of_run trusted_droppingSqlite fresh_sampleSession sampleOps hadmitted
  have htwo : (Machine.run (next droppingSqlite sampleLimits) sampleSession sampleOps).contents.schemaVersion = 2 := by
    decide +kernel
  exact ⟨htwo, hversion.symm.trans htwo, hlaws⟩

end Sample

end Ffdb.Migration
