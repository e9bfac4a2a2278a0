import Mathlib.Data.List.Induction
import Ffdb.Lib.Excerpt
import Ffdb.Runtime.Completeness
import Ffdb.Runtime.Pull

/-! Writes as a client sees them: when the log from some point on makes the rows of the tables,
and never leaves a row out of sight in the place of one in sight. -/
namespace Ffdb.Runtime
open Sql Rls Relation Fallible Excerpt
open Sync (Value JsonMap)

/-- A row that reaches the client as it is, in a snapshot and in a change alike. -/
structure Row.Exact (reader : JsonReader) (row : Row) (table : TableSchema) : Prop
    extends Row.Storable row table where
  plain : ∀ column, (row.value column).isPlain = true
  reals : ∀ column bits, row.value column = .real bits → reader.double bits = bits

/-- The rows of a table with a key: each its own, and no two under one key. -/
structure Held (doubles : Doubles) (reader : JsonReader) (table : TableSchema) (entries : Contents) :
    Prop where
  distinct : Distinct entries
  exact : ∀ entry ∈ entries, entry.row.Exact reader table
  unique : ∀ a ∈ entries, ∀ b ∈ entries,
    capturedKey doubles table a.row = capturedKey doubles table b.row → a = b

def Database.sees (db : Database) (truth : Verdict) (auth : AuthContext) (name : Identifier) (row : Row) :
    Bool :=
  (db.policies truth auth name).passes name (db.contents name) .select .forUsing row

section Conditions
variable (doubles : Doubles) (reader : JsonReader)

structure Database.Settled (db : Database) : Prop where
  suffixes : (db.tables.map (captureSuffix ·.schema.name)).Nodup
  columns : ∀ table ∈ db.tables, (table.schema.columns.map ColumnSchema.name).Nodup
  inCatalog : ∀ table ∈ db.tables, table.schema.isProtected = true →
    db.catalog.tables.contains table.schema.name = true
  shown : ∀ table ∈ db.tables, keyColumns table.schema ≠ [] → table.schema.isProtected = false →
    isHiddenName table.schema.name = false ∧ isShadowed db.temporary table.schema.name = false
  installed : ∀ table ∈ db.tables, table.schema.name ∈ db.captured ↔ keyColumns table.schema ≠ []
  compiled : db.Compiled
  held : ∀ table ∈ db.tables, keyColumns table.schema ≠ [] →
    Held doubles reader table.schema (db.contents table.schema.name)
  ledger : db.sync.Ledger

/-- The policies of tables with keys look at nothing but the values of the row: neither at other
rows nor at the types of its columns. -/
def Database.DecidedByRow (db : Database) (truth bare : Verdict) (auth : AuthContext) : Prop :=
  ∀ table ∈ db.tables, keyColumns table.schema ≠ [] → ∀ (now : Identifier → Contents) (row : Row),
    row.Of table.schema →
      { db with contents := now }.sees truth auth table.schema.name row =
        db.sees truth auth table.schema.name row ∧
      ∀ candidate : Row, (∀ column, candidate.value column = row.value column) →
        { db with contents := now }.sees bare auth table.schema.name candidate =
          db.sees truth auth table.schema.name row

variable (sees : Identifier → Row → Bool)

/-- A write leaves no row out of sight where there was one in sight. -/
def Database.KeepsSight (db : Database) : RowEvent → Prop
  | .write (.insert name row) => ∀ table, db.table name = some table → keyColumns table.schema ≠ [] →
    row.Exact reader table.schema
  | .write (.update name old row _) => ∀ table, db.table name = some table → keyColumns table.schema ≠ [] →
    row.Exact reader table.schema ∧ (sees name old.row = true → sees name row = true)
  | .write (.displace name old new) => ∀ table, db.table name = some table → keyColumns table.schema ≠ [] →
    sees name old.row = true → sees name new = true
  | _ => True

def Execution.KeepsSightAll (context : RequestContext) : Execution → List RowEvent → Prop
  | _, [] => True
  | run, event :: events => run.db.KeepsSight reader sees event ∧
    ∀ next, run.step doubles context event = some next → next.KeepsSightAll context events

/-- What is committed in a run is logged, and leaves nothing in the place of what was in sight
that is out of it. -/
def Database.CommitsInSight : Database → List FollowStep → Prop
  | _, [] => True
  | db, .write context events :: steps =>
    (db.writeRows doubles context events ≠ none →
      Execution.FollowsAll doubles context ⟨db, []⟩ events ∧
        Execution.KeepsSightAll doubles reader sees context ⟨db, []⟩ events) ∧
    ((db.writeRows doubles context events).getD db).CommitsInSight steps
  | db, .pull _ :: steps => db.CommitsInSight steps

end Conditions

variable {doubles : Doubles} {reader : JsonReader} {db db' : Database}

section Rebase
variable {base : List ChangeRow} {n : Nat}

def SyncTables.rebase (s : SyncTables) (base : List ChangeRow) (n : Nat) : SyncTables :=
  { s with changes := base ++ s.changes.drop n }

def Database.rebase (db : Database) (base : List ChangeRow) (n : Nat) : Database :=
  { db with sync := db.sync.rebase base n }

theorem capture_rebase {s : SyncTables} (h : n ≤ s.changes.length) (context : RequestContext)
    (table : TableSchema) (operation : SyncChangeOperation) (row : Row) :
    (s.rebase base n).capture doubles context table operation row =
      (s.capture doubles context table operation row).rebase base n := by
  simp [SyncTables.capture, SyncTables.rebase, List.drop_append_of_le_length h]

def Execution.rebase (run : Execution) (base : List ChangeRow) (n : Nat) : Execution :=
  ⟨run.db.rebase base n, run.waiting⟩

theorem write_rebase (base : List ChangeRow) (n : Nat) {run next : Execution} {write : RowWrite} (h : run.write write = some next) :
    (run.rebase base n).write write = some (next.rebase base n) ∧ next.db.sync = run.db.sync := by
  cases write with
  | insert name row =>
    simp only [Execution.write, Option.bind_eq_bind, Option.bind_eq_some_iff] at h ⊢
    obtain ⟨table, htable, guarded, hguard, written, hwritten, hnext⟩ := h
    cases hnext
    exact ⟨⟨table, htable, guarded, hguard, written, hwritten, rfl⟩, rfl⟩
  | update name old row namesKey =>
    simp only [Execution.write, Option.bind_eq_bind, Option.bind_eq_some_iff] at h ⊢
    obtain ⟨table, htable, guarded, hguard, kept, hkept, written, hwritten, hnext⟩ := h
    cases hnext
    exact ⟨⟨table, htable, guarded, hguard, kept, hkept, written, hwritten, rfl⟩, rfl⟩
  | delete name old =>
    simp only [Execution.write, Option.bind_eq_bind, Option.bind_eq_some_iff] at h ⊢
    obtain ⟨table, htable, guarded, hguard, hnext⟩ := h
    cases hnext
    exact ⟨⟨table, htable, guarded, hguard, rfl⟩, rfl⟩
  | displace name old new =>
    simp only [Execution.write, Option.bind_eq_bind, Option.bind_eq_some_iff] at h ⊢
    obtain ⟨table, htable, guarded, hguard, hnext⟩ := h
    cases hnext
    exact ⟨⟨table, htable, guarded, hguard, rfl⟩, rfl⟩

theorem log_rebase (doubles : Doubles) (base : List ChangeRow) (context : RequestContext) (w : Waiting)
    (hn : n ≤ db.sync.changes.length) :
    (db.rebase base n).log doubles context w = (db.log doubles context w).rebase base n ∧
      db.sync.changes <+: (db.log doubles context w).sync.changes := by
  by_cases hcaptured : w.table.name ∈ db.captured
  · have hcaptured' : w.table.name ∈ (db.rebase base n).captured := hcaptured
    rw [Database.log, Database.log, if_pos hcaptured, if_pos hcaptured']
    refine ⟨congrArg (fun sync => { db with sync }) ?_, List.prefix_append _ _⟩
    exact capture_rebase hn context w.table w.operation w.row
  · have hcaptured' : w.table.name ∉ (db.rebase base n).captured := hcaptured
    rw [Database.log, Database.log, if_neg hcaptured, if_neg hcaptured']
    exact ⟨rfl, List.prefix_rfl⟩

theorem step_rebase (base : List ChangeRow) {run next : Execution} {context : RequestContext} {event : RowEvent}
    (hn : n ≤ run.db.sync.changes.length) (h : run.step doubles context event = some next) :
    (run.rebase base n).step doubles context event = some (next.rebase base n) ∧
      run.db.sync.changes <+: next.db.sync.changes := by
  have hinner : (run.rebase base n).innermost = run.innermost := rfl
  cases event with
  | write write =>
    obtain ⟨hwrite, hsync⟩ := write_rebase base n h
    exact ⟨hwrite, hsync ▸ List.prefix_rfl⟩
  | ignore =>
    obtain ⟨⟨w, outer⟩, hin, hnext⟩ := Option.map_eq_some_iff.mp h
    cases hnext
    refine ⟨?_, List.prefix_rfl⟩
    rw [Execution.step, hinner, hin]
    rfl
  | fire =>
    obtain ⟨⟨w, outer⟩, hin, hnext⟩ := Option.map_eq_some_iff.mp h
    obtain rfl : Execution.mk (run.db.log doubles context w) outer = next := hnext
    obtain ⟨hlog, hgrows⟩ := log_rebase doubles base context w hn
    refine ⟨?_, hgrows⟩
    rw [Execution.step, hinner, hin]
    exact congrArg (fun db => some (Execution.mk db outer)) hlog

end Rebase

section Inserts

def Database.keyedRows (db : Database) : List (TableSchema × Row) :=
  (db.tables.filter fun table => !(keyColumns table.schema).isEmpty).flatMap fun table =>
    (db.contents table.schema.name).map fun entry => (table.schema, entry.row)

def insertLog (doubles : Doubles) (rows : List (TableSchema × Row)) : SyncTables → SyncTables :=
  rows.foldl fun s pair => s.capture doubles ⟨"", none⟩ pair.1 .insert pair.2

theorem replay_insertLog (rows : List (TableSchema × Row)) (s : SyncTables) (name : Identifier)
    (key : List Char) :
    (∃ pair ∈ rows, pair.1.name = name ∧ capturedKey doubles pair.1 pair.2 = key ∧
      replay (insertLog doubles rows s).changes name key = some (rowObject pair.1 pair.2)) ∨
    ((∀ pair ∈ rows, ¬(pair.1.name = name ∧ capturedKey doubles pair.1 pair.2 = key)) ∧
      replay (insertLog doubles rows s).changes name key = replay s.changes name key) := by
  induction rows generalizing s with
  | nil => exact .inr ⟨by simp, rfl⟩
  | cons first rows ih =>
    obtain ⟨pair, hmem, hname, hkey, hreplay⟩ | ⟨hnone, hreplay⟩ :=
      ih (s.capture doubles ⟨"", none⟩ first.1 .insert first.2)
    · exact .inl ⟨pair, List.mem_cons_of_mem first hmem, hname, hkey, hreplay⟩
    · rw [replay_capture] at hreplay
      by_cases hfirst : first.1.name = name ∧ capturedKey doubles first.1 first.2 = key
      · rw [if_pos hfirst, if_neg (by simp)] at hreplay
        exact .inl ⟨first, by simp, hfirst.1, hfirst.2, hreplay⟩
      · rw [if_neg hfirst] at hreplay
        refine .inr ⟨fun pair hmem => ?_, hreplay⟩
        obtain rfl | hmem := List.mem_cons.mp hmem
        · exact hfirst
        · exact hnone pair hmem

theorem mem_keyedRows {pair : TableSchema × Row} :
    pair ∈ db.keyedRows ↔ ∃ table ∈ db.tables, keyColumns table.schema ≠ [] ∧
      ∃ entry ∈ db.contents table.schema.name, (table.schema, entry.row) = pair := by
  simp [Database.keyedRows, and_assoc]

/-- The inserts of the rows that are there are a log that makes them. -/
theorem insertLog_faithful (h : db.Settled doubles reader) {table : PhysicalTable} (hmem : table ∈ db.tables)
    (hkeyed : keyColumns table.schema ≠ []) :
    Faithful doubles table.schema (replay (insertLog doubles db.keyedRows {}).changes)
      (db.contents table.schema.name) := by
  have hheld := h.held table hmem hkeyed
  have hown {pair : TableSchema × Row} (hpair : pair ∈ db.keyedRows) (hname : pair.1.name = table.schema.name) :
      ∃ entry ∈ db.contents table.schema.name, (table.schema, entry.row) = pair := by
    obtain ⟨other, hother, _, entry, hentry, rfl⟩ := mem_keyedRows.mp hpair
    have hsame : other = table :=
      List.inj_on_of_nodup_map h.suffixes hother hmem (congrArg captureSuffix hname)
    subst hsame
    exact ⟨entry, hentry, rfl⟩
  have hcases := fun key => @replay_insertLog doubles db.keyedRows {} table.schema.name key
  refine ⟨hheld.distinct, fun entry hentry => (hheld.exact entry hentry).toStorable, ?_, ?_, hheld.unique⟩
  · intro entry hentry
    obtain ⟨pair, hpair, hname, hkey, hreplay⟩ | ⟨hnone, _⟩ := hcases (capturedKey doubles table.schema entry.row)
    · obtain ⟨other, hother, rfl⟩ := hown hpair hname
      obtain rfl := hheld.unique other hother entry hentry hkey
      exact ⟨_, hreplay, decodeRow_rowObject (hheld.exact other hother).toStorable (h.columns table hmem)⟩
    · refine absurd ⟨rfl, rfl⟩ (hnone (table.schema, entry.row) ?_)
      exact mem_keyedRows.mpr ⟨table, hmem, hkeyed, entry, hentry, rfl⟩
  · intro key values hvalues
    obtain ⟨pair, hpair, hname, hkey, _⟩ | ⟨_, hreplay⟩ := hcases key
    · obtain ⟨entry, hentry, rfl⟩ := hown hpair hname
      exact ⟨entry, hentry, hkey⟩
    · rw [hreplay] at hvalues
      cases hvalues

/-- A settled database is sound over the log of its inserts. -/
theorem Database.Settled.sound (h : db.Settled doubles reader) :
    (db.rebase (insertLog doubles db.keyedRows {}).changes db.sync.changes.length).Sound doubles where
  suffixes := h.suffixes
  columns := h.columns
  inCatalog := h.inCatalog
  shown := h.shown
  faithful := by
    intro table hmem hkeyed
    have hchanges : (db.rebase (insertLog doubles db.keyedRows {}).changes db.sync.changes.length).sync.changes =
        (insertLog doubles db.keyedRows {}).changes := by
      simp [Database.rebase, SyncTables.rebase]
    rw [hchanges]
    exact insertLog_faithful h hmem hkeyed
  installed table hmem hkeyed := (h.installed table hmem).mpr hkeyed

end Inserts

section Sight

def ChangeRow.update (change : ChangeRow) : Update (Identifier × List Char) JsonMap where
  key := (change.table, change.primaryKeyJson)
  value := (change.valuesJson.or change.tombstoneJson).getD []
  removes := change.valuesJson.isNone

def logStore (changes : List ChangeRow) : Store (Identifier × List Char) JsonMap :=
  fun (name, key) => replay changes name key

theorem logStore_append (changes more : List ChangeRow) :
    logStore (changes ++ more) = (more.map ChangeRow.update).foldl Store.apply (logStore changes) := by
  induction more using List.reverseRecOn with
  | nil => simp
  | append_singleton more last ih =>
    have hlast : logStore (changes ++ more ++ [last]) = (logStore (changes ++ more)).apply last.update := by
      funext ⟨name, key⟩
      rw [logStore, replay, List.foldl_append]
      simp only [List.foldl_cons, List.foldl_nil, Replica.applyChange, Store.apply, ChangeRow.update,
        Prod.mk.injEq]
      by_cases hkey : last.table = name ∧ last.primaryKeyJson = key
      · simp only [if_pos hkey]
        cases last with
        | mk _ _ _ _ _ _ values _ _ => cases values <;> rfl
      · simp only [if_neg hkey]
        rfl
    rw [← List.append_assoc, hlast, ih, List.map_append, List.foldl_append]
    rfl

variable (doubles) (tables : List PhysicalTable) (sees : Identifier → Row → Bool)

def sight : Identifier × List Char → JsonMap → Bool := fun (name, _) values =>
  ((tables.find? (·.schema.name = name)).bind fun table => decodeRow doubles table.schema values).any (sees name)

def ChangeRow.Proper (reader : JsonReader) (change : ChangeRow) : Prop :=
  ∃ table ∈ tables, keyColumns table.schema ≠ [] ∧ ∃ row : Row, row.Exact reader table.schema ∧
    change.table = table.schema.name ∧ change.primaryKeyJson = capturedKey doubles table.schema row ∧
    change.valuesJson.or change.tombstoneJson = some (rowObject table.schema row)

/-- A log from some changes on: they are proper, and leave nothing out of sight in the place of
what was in sight. -/
def Tidy (reader : JsonReader) (base : List ChangeRow) (changes : List ChangeRow) : Prop :=
  ∃ since, changes = base ++ since ∧
    KeepsAll (sight doubles tables sees) (logStore base) (since.map ChangeRow.update) ∧
    ∀ change ∈ since, change.Proper doubles tables reader

structure Keyed (table : PhysicalTable) : Prop where
  mem : table ∈ tables
  found : tables.find? (·.schema.name = table.schema.name) = some table
  key : keyColumns table.schema ≠ []
  columns : (table.schema.columns.map ColumnSchema.name).Nodup

variable {doubles tables sees} {base : List ChangeRow} {table : PhysicalTable}

theorem sight_of_decode (hkeyed : Keyed tables table) {values : JsonMap} {row : Row}
    (h : decodeRow doubles table.schema values = some row) (key : List Char) :
    sight doubles tables sees (table.schema.name, key) values = sees table.schema.name row := by
  simp [sight, hkeyed.found, h]

theorem Tidy.capture {s : SyncTables} (h : Tidy doubles tables sees reader base s.changes)
    (hkeyed : Keyed tables table) (context : RequestContext) (operation : SyncChangeOperation) {row : Row}
    (hrow : row.Exact reader table.schema)
    (hkeeps : ∀ values, replay s.changes table.schema.name (capturedKey doubles table.schema row) = some values →
      sight doubles tables sees (table.schema.name, capturedKey doubles table.schema row) values = true →
        sees table.schema.name row = true) :
    Tidy doubles tables sees reader base (s.capture doubles context table.schema operation row).changes := by
  obtain ⟨since, hchanges, hkept, hproper⟩ := h
  have hvalue : (s.changeOf doubles context table.schema operation row).valuesJson.or
      (s.changeOf doubles context table.schema operation row).tombstoneJson =
        some (rowObject table.schema row) := by
    by_cases hdelete : operation = .delete <;> simp [SyncTables.changeOf, hdelete]
  refine ⟨since ++ [s.changeOf doubles context table.schema operation row], ?_, ?_, ?_⟩
  · rw [capture_changes, hchanges, List.append_assoc]
  · rw [List.map_append, List.map_singleton]
    refine hkept.append fun values hvalues hseen => ?_
    rw [← logStore_append, ← hchanges] at hvalues
    rw [Update.shown, ChangeRow.update, hvalue, Option.getD_some]
    exact (sight_of_decode hkeyed (decodeRow_rowObject hrow.toStorable hkeyed.columns) _).trans
      (hkeeps values hvalues hseen)
  · intro change hchange
    obtain hchange | hchange := List.mem_append.mp hchange
    · exact hproper change hchange
    · rw [List.mem_singleton.mp hchange]
      exact ⟨table, hkeyed.mem, hkeyed.key, row, hrow, rfl, rfl, hvalue⟩

/-- The row that is to stand under the key of one that waits, or what it is deleted as. -/
def Waiting.shown (w : Waiting) : Row := w.room.getD w.row

variable (doubles tables sees reader) in
/-- A row that waits reaches the client as it is, and is in sight where what the log has under
its key is. -/
structure Waiting.Due (changes : List ChangeRow) (w : Waiting) : Prop where
  exact : w.row.Exact reader w.table
  keeps : ∀ values, replay changes w.table.name (capturedKey doubles w.table w.row) = some values →
    sight doubles tables sees (w.table.name, capturedKey doubles w.table w.row) values = true →
      sees w.table.name w.shown = true

variable (doubles sees reader base) in
/-- A statement under way whose log is tidy: what waits is due, each under a key of its own. -/
structure Execution.Traced (run : Execution) : Prop extends sound : Execution.Sound doubles run where
  tidy : Tidy doubles run.db.tables sees reader base run.db.sync.changes
  due : ∀ w ∈ run.waiting, keyColumns w.table ≠ [] →
    w.Due doubles reader run.db.tables sees run.db.sync.changes
  apart : run.waiting.Pairwise fun a b => keyColumns a.table ≠ [] → Unawaited doubles [b] a.table a.row
  only : ∀ table ∈ run.db.tables, table.schema.name ∈ run.db.captured → keyColumns table.schema ≠ []
  exact : ∀ table ∈ run.db.tables, keyColumns table.schema ≠ [] →
    ∀ entry ∈ run.db.contents table.schema.name, entry.row.Exact reader table.schema

variable {run next : Execution} {context : RequestContext}

/-- Under a key for which nothing waits, the log stands for the row that is there. -/
theorem replay_of_unawaited (h : run.Sound doubles) (hmem : table ∈ run.db.tables)
    (hkeyed : keyColumns table.schema ≠ []) {row : Row} (hfree : Unawaited doubles run.waiting table.schema row)
    {values : JsonMap}
    (hvalues : replay run.db.sync.changes table.schema.name (capturedKey doubles table.schema row) = some values) :
    ∃ entry ∈ run.db.contents table.schema.name,
      capturedKey doubles table.schema entry.row = capturedKey doubles table.schema row ∧
        decodeRow doubles table.schema values = some entry.row := by
  have hfaithful : Faithful doubles table.schema (run.rows doubles) (run.db.contents table.schema.name) :=
    h.faithful table hmem hkeyed
  have hrows : run.rows doubles table.schema.name (capturedKey doubles table.schema row) = some values :=
    (awaiting_eq fun w hw hsame => hfree w hw hsame.1 hsame.2).trans hvalues
  obtain ⟨entry, hentry, hkey⟩ := hfaithful.live _ values hrows
  obtain ⟨logged, hlogged, hdecode⟩ := hfaithful.logged entry hentry
  rw [hkey, hrows] at hlogged
  obtain rfl : values = logged := Option.some.inj hlogged
  exact ⟨entry, hentry, hkey, hdecode⟩

/-- A row is due if it is in sight where the row is that stands under its key, and where what it
finds displaced is. -/
theorem Execution.Traced.due_placed (h : run.Traced doubles reader sees base) {name : Identifier}
    (hfound : run.db.table name = some table) (hkeyed : keyColumns table.schema ≠ []) {row : Row}
    {operation : SyncChangeOperation} (hrow : row.Exact reader table.schema)
    (hfree : Unawaited doubles (run.placed name row) table.schema row)
    (hsees : ∀ entry ∈ run.db.contents name,
      capturedKey doubles table.schema entry.row = capturedKey doubles table.schema row →
        sees name entry.row = true → sees name row = true) :
    Waiting.Due doubles reader run.db.tables sees run.db.sync.changes
      { table := table.schema, operation, row } := by
  have hmem := List.mem_of_find?_eq_some hfound
  obtain rfl : table.schema.name = name := table_name hfound
  refine ⟨hrow, fun values hvalues hseen => ?_⟩
  obtain ⟨dropped, hwaiting, hroom⟩ := placed_eq run table.schema.name row
  cases dropped with
  | nil =>
    rw [List.nil_append] at hwaiting
    rw [← hwaiting] at hfree
    obtain ⟨entry, hentry, hkey, hdecode⟩ := replay_of_unawaited h.sound hmem hkeyed hfree hvalues
    have hsight := @sight_of_decode doubles run.db.tables sees table ⟨hmem, hfound, hkeyed, h.columns table hmem⟩
      values entry.row hdecode (capturedKey doubles table.schema row)
    exact hsees entry hentry hkey (hsight.symm.trans hseen)
  | cons w dropped =>
    -- the row takes the place of one that was displaced for it, and was due already
    have hin : w ∈ run.waiting := by simp [hwaiting]
    obtain ⟨hname, hsame⟩ := hroom w (by simp)
    have hschema := h.table_eq_of_waits hin hmem hname.symm
    have hkeyed' : keyColumns w.table ≠ [] := hschema ▸ hkeyed
    have hkeeps := (h.due w hin hkeyed').keeps
    rw [h.rooms w hin hkeyed' row hsame, ← hschema, Waiting.shown, hsame] at hkeeps
    exact hkeeps values hvalues hseen

/-- Under the key of a row for which nothing waits, the log is in sight where the row is. -/
theorem Execution.Traced.sight_of_free (h : run.Traced doubles reader sees base) {name : Identifier}
    (hfound : run.db.table name = some table) (hkeyed : keyColumns table.schema ≠ []) {old : Entry Row}
    (hold : old ∈ run.db.contents table.schema.name)
    (hfree : Unawaited doubles run.waiting table.schema old.row) {values : JsonMap}
    (hvalues : replay run.db.sync.changes table.schema.name (capturedKey doubles table.schema old.row) =
      some values) :
    sight doubles run.db.tables sees (table.schema.name, capturedKey doubles table.schema old.row) values =
      sees table.schema.name old.row := by
  have hmem := List.mem_of_find?_eq_some hfound
  obtain rfl : table.schema.name = name := table_name hfound
  obtain ⟨entry, hentry, hkey, hdecode⟩ := replay_of_unawaited h.sound hmem hkeyed hfree hvalues
  rw [(h.faithful table hmem hkeyed).unique entry hentry old hold hkey] at hdecode
  exact sight_of_decode ⟨hmem, hfound, hkeyed, h.columns table hmem⟩ hdecode _

/-- The rows of a table after a write are those before and the one written. -/
theorem Execution.Traced.exact_write (h : run.Traced doubles reader sees base) {write : RowWrite}
    (hkeeps : run.db.KeepsSight reader sees (.write write)) (hwrite : run.write write = some next) :
    ∀ table ∈ next.db.tables, keyColumns table.schema ≠ [] →
      ∀ entry ∈ next.db.contents table.schema.name, entry.row.Exact reader table.schema := by
  intro table hmem hkeyed entry hentry
  have htouches := write_touches doubles hwrite
  rw [htouches.tables] at hmem
  by_cases hname : table.schema.name = write.table
  · have hfound : run.db.table write.table = some table := hname ▸ h.table_eq hmem
    rw [hname] at hentry
    have hold := h.exact table hmem hkeyed
    rw [hname] at hold
    cases write with
    | insert name row =>
      simp only [Execution.write, Option.bind_eq_bind, Option.bind_eq_some_iff] at hwrite
      obtain ⟨found, _, _, _, written, hwritten, hnext⟩ := hwrite
      cases hnext
      rw [RowWrite.table, put_contents] at hentry
      obtain ⟨hin, _⟩ | rfl := (mem_insert hwritten entry).mp hentry
      · exact hold entry hin
      · exact hkeeps table hfound hkeyed
    | update name old row namesKey =>
      simp only [Execution.write, Option.bind_eq_bind, Option.bind_eq_some_iff] at hwrite
      obtain ⟨found, _, _, _, _, _, written, hwritten, hnext⟩ := hwrite
      cases hnext
      rw [RowWrite.table, put_contents] at hentry
      obtain ⟨hin, _⟩ | ⟨_, rfl⟩ := (mem_change hwritten entry).mp hentry
      · exact hold entry hin
      · exact (hkeeps table hfound hkeyed).1
    | delete name old =>
      simp only [Execution.write, Option.bind_eq_bind, Option.bind_eq_some_iff] at hwrite
      obtain ⟨found, _, _, _, hnext⟩ := hwrite
      cases hnext
      rw [RowWrite.table, put_contents] at hentry
      exact hold entry (List.mem_filter.mp hentry).1
    | displace name old new =>
      simp only [Execution.write, Option.bind_eq_bind, Option.bind_eq_some_iff] at hwrite
      obtain ⟨found, _, _, _, hnext⟩ := hwrite
      cases hnext
      rw [RowWrite.table, put_contents] at hentry
      exact hold entry (List.mem_filter.mp hentry).1
  · rw [htouches.contents _ hname] at hentry
    exact h.exact table hmem hkeyed entry hentry

/-- What a write adds to what waits is due, under a key of its own. -/
theorem Execution.Traced.due_write (hlawful : doubles.Lawful) (h : run.Traced doubles reader sees base)
    {write : RowWrite} (hfollows : run.Follows doubles (.write write))
    (hkeeps : run.db.KeepsSight reader sees (.write write)) (hwrite : run.write write = some next) :
    ∃ w rest, next.waiting = w :: rest ∧ rest.Sublist run.waiting ∧
      (keyColumns w.table ≠ [] → w.Due doubles reader run.db.tables sees run.db.sync.changes ∧
        Unawaited doubles rest w.table w.row) := by
  have hplaced (name : Identifier) (row : Row) : (run.placed name row).Sublist run.waiting :=
    List.dropWhile_sublist _
  cases write with
  | insert name row =>
    simp only [Execution.write, Option.bind_eq_bind, Option.bind_eq_some_iff] at hwrite
    obtain ⟨table, hfound, _, _, written, hwritten, hnext⟩ := hwrite
    cases hnext
    refine ⟨_, _, rfl, hplaced name row, fun hkeyed => ?_⟩
    have hrow := hkeeps table hfound hkeyed
    obtain ⟨_, hfree⟩ := hfollows table hfound hkeyed
    refine ⟨h.due_placed hfound hkeyed hrow hfree fun entry hentry hkey _ => ?_, hfree⟩
    have hmem := List.mem_of_find?_eq_some hfound
    obtain rfl : table.schema.name = name := table_name hfound
    have hclash := no_clash_of_insert hwritten entry hentry
    rw [clash_of_capturedKey hlawful hrow.toStorable (h.exact table hmem hkeyed entry hentry).toStorable hkeyed
      hkey.symm] at hclash
    cases hclash
  | update name old row namesKey =>
    simp only [Execution.write, Option.bind_eq_bind, Option.bind_eq_some_iff, Option.guard_eq_some'] at hwrite
    obtain ⟨table, hfound, _, ⟨hold, _⟩, _, hguard, written, hwritten, hnext⟩ := hwrite
    cases hnext
    refine ⟨_, _, rfl, hplaced name row, fun hkeyed => ?_⟩
    have hmem := List.mem_of_find?_eq_some hfound
    obtain rfl : table.schema.name = name := table_name hfound
    obtain ⟨hrow, hsees⟩ := hkeeps table hfound hkeyed
    obtain ⟨hnames, hchanged⟩ | ⟨_, hfree, hkey⟩ := hfollows table hfound hkeyed
    · simp [hnames, hchanged, h.installed table hmem hkeyed] at hguard
    refine ⟨h.due_placed hfound hkeyed hrow hfree fun entry hentry hsame hseen => hsees ?_, hfree⟩
    have hfaithful := h.faithful table hmem hkeyed
    rw [← hfaithful.unique entry hentry old hold (hsame.trans hkey.symm)]
    exact hseen
  | delete name old =>
    simp only [Execution.write, Option.bind_eq_bind, Option.bind_eq_some_iff, Option.guard_eq_some'] at hwrite
    obtain ⟨table, hfound, _, hold, hnext⟩ := hwrite
    cases hnext
    refine ⟨_, _, rfl, List.Sublist.refl _, fun hkeyed => ?_⟩
    have hmem := List.mem_of_find?_eq_some hfound
    obtain rfl : table.schema.name = name := table_name hfound
    have hfree := hfollows table hfound hkeyed
    refine ⟨⟨h.exact table hmem hkeyed old hold, fun values hvalues hseen => ?_⟩, hfree⟩
    exact (h.sight_of_free hfound hkeyed hold hfree hvalues).symm.trans hseen
  | displace name old new =>
    simp only [Execution.write, Option.bind_eq_bind, Option.bind_eq_some_iff, Option.guard_eq_some',
      Bool.and_eq_true, decide_eq_true_eq] at hwrite
    obtain ⟨table, hfound, _, ⟨hold, _⟩, hnext⟩ := hwrite
    cases hnext
    refine ⟨_, _, rfl, List.Sublist.refl _, fun hkeyed => ?_⟩
    have hmem := List.mem_of_find?_eq_some hfound
    obtain rfl : table.schema.name = name := table_name hfound
    obtain ⟨hfree, _⟩ := hfollows table hfound hkeyed
    refine ⟨⟨h.exact table hmem hkeyed old hold, fun values hvalues hseen => ?_⟩, hfree⟩
    exact hkeeps table hfound hkeyed ((h.sight_of_free hfound hkeyed hold hfree hvalues).symm.trans hseen)

theorem Execution.Traced.step (hlawful : doubles.Lawful) (h : run.Traced doubles reader sees base)
    {event : RowEvent} (hfollows : run.Follows doubles event)
    (hkeeps : run.db.KeepsSight reader sees event)
    (hstep : run.step doubles context event = some next) : next.Traced doubles reader sees base := by
  have hsound := h.sound.step hlawful hfollows hstep
  by_cases hevent : ∃ write, event = .write write
  · obtain ⟨write, rfl⟩ := hevent
    obtain ⟨w, rest, hwaiting, hsub, hdue⟩ := h.due_write hlawful hfollows hkeeps hstep
    have htouches := write_touches doubles hstep
    have hsync : next.db.sync = run.db.sync := (write_rebase [] 0 hstep).2
    refine ⟨hsound, ?_, ?_, ?_, ?_, ?_⟩
    · rw [hsync, htouches.tables]
      exact h.tidy
    · rw [hsync, htouches.tables, hwaiting]
      intro w' hin hkeyed
      obtain rfl | hin := List.mem_cons.mp hin
      · exact (hdue hkeyed).1
      · exact h.due w' (hsub.subset hin) hkeyed
    · rw [hwaiting, List.pairwise_cons]
      refine ⟨fun b hb hkeyed => ?_, h.apart.sublist hsub⟩
      intro w' hin
      rw [List.mem_singleton.mp hin]
      exact (hdue hkeyed).2 b hb
    · rw [htouches.tables, htouches.captured]
      exact h.only
    · exact h.exact_write hkeeps hstep
  · obtain ⟨w, hwaiting, hroom, hcontents, htouches, hlogged⟩ := step_eq_some (not_exists.mp hevent) hstep
    have hin {w' : Waiting} (h : w' ∈ next.waiting) : w' ∈ run.waiting := by
      rw [hwaiting]
      exact List.mem_cons_of_mem w h
    obtain ⟨hfirst, hapart⟩ := List.pairwise_cons.mp (hwaiting ▸ h.apart)
    have hkept : Tidy doubles next.db.tables sees reader base next.db.sync.changes ∧
        ∀ w' ∈ next.waiting, keyColumns w'.table ≠ [] →
          w'.Due doubles reader next.db.tables sees next.db.sync.changes := by
      rw [htouches.tables]
      obtain ⟨hcaptured, hsync, _⟩ | ⟨hsync, _⟩ := hlogged
      · rw [hsync]
        have hw : w ∈ run.waiting := by simp [hwaiting]
        obtain ⟨table, hmem, hschema⟩ := h.known w hw
        have hkeyed := h.only table hmem (hschema ▸ hcaptured)
        have hdue := h.due w hw (hschema ▸ hkeyed)
        rw [← hschema] at hfirst ⊢
        constructor
        · refine h.tidy.capture ⟨hmem, h.table_eq hmem, hkeyed, h.columns table hmem⟩ context w.operation
            (hschema ▸ hdue.exact) fun values hvalues hseen => ?_
          rw [hschema] at hvalues hseen ⊢
          have hshown := hdue.keeps values hvalues hseen
          rwa [Waiting.shown, hroom] at hshown
        · intro w' hw' hkeyed'
          have hdue' := h.due w' (hin hw') hkeyed'
          refine ⟨hdue'.exact, fun values hvalues hseen => hdue'.keeps values ?_ hseen⟩
          rwa [replay_capture, if_neg] at hvalues
          intro hsame
          exact hfirst w' hw' hkeyed w' (by simp) hsame.1.symm hsame.2.symm
      · rw [hsync]
        exact ⟨h.tidy, fun w' hw' => h.due w' (hin hw')⟩
    refine ⟨hsound, hkept.1, hkept.2, hapart, ?_, ?_⟩
    · rw [htouches.tables, htouches.captured]
      exact h.only
    · rw [htouches.tables, hcontents]
      exact h.exact

theorem Execution.Traced.steps (hlawful : doubles.Lawful) {n : Nat} {events : List RowEvent}
    (hn : n ≤ run.db.sync.changes.length) (h : (run.rebase base n).Traced doubles reader sees base)
    (hfollows : run.FollowsAll doubles context events)
    (hkeeps : run.KeepsSightAll doubles reader sees context events)
    (hsteps : run.steps doubles context events = some next) :
    (next.rebase base n).Traced doubles reader sees base ∧ run.db.sync.changes <+: next.db.sync.changes := by
  induction events generalizing run with
  | nil =>
    cases hsteps
    exact ⟨h, List.prefix_rfl⟩
  | cons event events ih =>
    simp only [Execution.steps, Option.bind_eq_bind, Option.bind_eq_some_iff] at hsteps
    obtain ⟨mid, hmid, hrest⟩ := hsteps
    obtain ⟨hrebased, hgrows⟩ := step_rebase base hn hmid
    have hfollows' : (run.rebase base n).Follows doubles event := by
      cases event with
      | write write => cases write <;> exact hfollows.1
      | _ => exact hfollows.1
    have hkeeps' : (run.rebase base n).db.KeepsSight reader sees event := by
      cases event with
      | write write => cases write <;> exact hkeeps.1
      | _ => trivial
    obtain ⟨htraced, hgrows'⟩ := ih (hn.trans hgrows.length_le) (h.step hlawful hfollows' hkeeps' hrebased)
      (hfollows.2 mid hmid) (hkeeps.2 mid hmid) hrest
    exact ⟨htraced, hgrows.trans hgrows'⟩

end Sight

section Tracks
variable (doubles reader) (sees : Identifier → Row → Bool) (start : Database)

def Database.baseLog : List ChangeRow := (insertLog doubles start.keyedRows {}).changes

/-- A database that has come from the start by writes: over the inserts of the rows that were
there, the changes since then make the rows of now. -/
structure Tracks (db : Database) : Prop where
  grows : start.sync.changes <+: db.sync.changes
  sound : (db.rebase (start.baseLog doubles) start.sync.changes.length).Sound doubles
  tidy : Tidy doubles db.tables sees reader (start.baseLog doubles)
    (db.rebase (start.baseLog doubles) start.sync.changes.length).sync.changes
  installed : ∀ table ∈ db.tables, table.schema.name ∈ db.captured ↔ keyColumns table.schema ≠ []
  exact : ∀ table ∈ db.tables, keyColumns table.schema ≠ [] →
    ∀ entry ∈ db.contents table.schema.name, entry.row.Exact reader table.schema
  ledger : db.sync.Ledger
  tables : db.tables = start.tables
  catalog : db.catalog = start.catalog

variable {doubles reader sees start}

theorem Database.Settled.tracks (h : start.Settled doubles reader) : Tracks doubles reader sees start start where
  grows := List.prefix_rfl
  sound := h.sound
  tidy := ⟨[], by simp [Database.rebase, SyncTables.rebase], trivial, by simp⟩
  installed := h.installed
  exact table hmem hkeyed := (h.held table hmem hkeyed).exact
  ledger := h.ledger
  tables := rfl
  catalog := rfl

theorem Tracks.writeRows (hlawful : doubles.Lawful) {context : RequestContext} {events : List RowEvent}
    (h : Tracks doubles reader sees start db) (hfollows : Execution.FollowsAll doubles context ⟨db, []⟩ events)
    (hkeeps : Execution.KeepsSightAll doubles reader sees context ⟨db, []⟩ events)
    (hwrite : db.writeRows doubles context events = some db') :
    Tracks doubles reader sees start db' ∧ db.sync.changes <+: db'.sync.changes := by
  have hsteps := writeRows_eq_some.mp hwrite
  have hsame := steps_unaltered hsteps
  have hstart : (Execution.rebase ⟨db, []⟩ (start.baseLog doubles) start.sync.changes.length).Traced doubles reader
      sees (start.baseLog doubles) :=
    ⟨⟨h.sound, by simp [Execution.rebase], by simp [Execution.rebase]⟩, h.tidy, by simp [Execution.rebase],
      List.Pairwise.nil, fun table hmem => (h.installed table hmem).mp, h.exact⟩
  obtain ⟨htraced, hgrows⟩ := hstart.steps hlawful h.grows.length_le hfollows hkeeps hsteps
  refine ⟨⟨h.grows.trans hgrows, htraced.sound.toSound, htraced.tidy, ?_, htraced.exact, ?_, ?_, ?_⟩, hgrows⟩
  · intro table hmem
    exact ⟨htraced.only table hmem, htraced.installed table hmem⟩
  · exact writeRows_ledger h.ledger hwrite
  · exact hsame.tables.trans h.tables
  · exact hsame.catalog.trans h.catalog

end Tracks

end Ffdb.Runtime
