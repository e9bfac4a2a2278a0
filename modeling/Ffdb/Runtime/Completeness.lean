import Ffdb.Runtime.Faithful

/-! Completeness of the capture. Over every run whose steps keep to the conditions below, each
table with a key has its triggers, and the log replayed over empty tables makes its rows. -/
namespace Ffdb.Runtime
open Sql Rls Relation Text

/-- The capture is complete: triggers are installed for every table with a key, replaying the
log makes exactly the rows under each key, and the numbering of the log is right. -/
structure Database.Complete (doubles : Doubles) (db : Database) : Prop where
  installed : ∀ table ∈ db.tables, keyColumns table.schema ≠ [] → table.schema.name ∈ db.captured
  replayed : ∀ table ∈ db.tables, keyColumns table.schema ≠ [] → ∀ key,
    ((db.contents table.schema.name).map Entry.row).filter
        (capturedKey doubles table.schema · = key) =
      ((replay db.sync.changes table.schema.name key).bind (decodeRow doubles table.schema)).toList
  ledger : db.sync.Ledger

section Conditions
variable (doubles : Doubles)

/-- What a row event must keep to where its table has a key: the row can be read back from the
log, an update that the guard lets pass does not change the text of the key, no row that still
waits for its trigger has the same key, what is displaced has the key of the row that it makes
room for, and no trigger is given up. -/
def Execution.Follows (run : Execution) : RowEvent → Prop
  | .write (.insert name row) => ∀ table, run.db.table name = some table → keyColumns table.schema ≠ [] →
    row.Readable table.schema ∧ Unawaited doubles (run.placed name row) table.schema row
  | .write (.update name old row namesKey) => ∀ table, run.db.table name = some table →
    keyColumns table.schema ≠ [] → (namesKey = true ∧ table.sameKey old.row row = false) ∨
      (row.Readable table.schema ∧ Unawaited doubles (run.placed name row) table.schema row ∧
        capturedKey doubles table.schema old.row = capturedKey doubles table.schema row)
  | .write (.delete name old) => ∀ table, run.db.table name = some table → keyColumns table.schema ≠ [] →
    Unawaited doubles run.waiting table.schema old.row
  | .write (.displace name old new) => ∀ table, run.db.table name = some table →
    keyColumns table.schema ≠ [] → Unawaited doubles run.waiting table.schema old.row ∧
      capturedKey doubles table.schema old.row = capturedKey doubles table.schema new
  | .fire => True
  | .ignore => ∀ w ∈ run.waiting.head?, keyColumns w.table = []

def Execution.FollowsAll (context : RequestContext) : Execution → List RowEvent → Prop
  | _, [] => True
  | run, event :: events => run.Follows doubles event ∧
    ∀ next, run.step doubles context event = some next → next.FollowsAll context events

variable (db : Database)

/-- A name under which a table with a key can start: the snapshot shows it, no temporary table
hides it, its triggers have names of their own, and no rows are logged under it. -/
structure FreshName (temporary : List Identifier) (changes : List ChangeRow) (table : TableSchema)
    (others : List PhysicalTable) : Prop where
  suffix : ∀ other ∈ others, captureSuffix other.schema.name ≠ captureSuffix table.name
  shown : keyColumns table ≠ [] → isHiddenName table.name = false
  unshadowed : keyColumns table ≠ [] → isShadowed temporary table.name = false
  unlogged : keyColumns table ≠ [] → ∀ key, replay changes table.name key = none

def Database.Admits : CaptureStep → Prop
  | .createTable table => db.isCreatable table.schema.name = true →
    FreshName db.temporary db.sync.changes table.schema db.tables
  | .createTemporary name => ∀ table ∈ db.tables, keyColumns table.schema ≠ [] →
    table.schema.isProtected = false → eqIgnoreAsciiCase name.value table.schema.name.value = false
  | .dropTable _ cascades => ∀ write, .write write ∈ cascades → ∀ table,
    db.table write.table = some table → keyColumns table.schema = []
  | .renameTable name newName => ∀ table, db.table name = some table → db.isCreatable newName = true →
    FreshName db.temporary db.sync.changes { table.schema with name := newName }
      (db.tables.filter (·.schema.name ≠ name)) ∧
      (keyColumns table.schema ≠ [] → db.contents name = [])
  | .alterTable altered convert => ∀ table, db.table altered.schema.name = some table →
    keyColumns table.schema ≠ [] → ∀ entry ∈ db.contents altered.schema.name,
      (convert entry.row).Readable altered.schema ∧
      capturedKey doubles altered.schema (convert entry.row) = capturedKey doubles table.schema entry.row ∧
      ∀ values, replay db.sync.changes altered.schema.name (capturedKey doubles table.schema entry.row) =
        some values → decodeRow doubles altered.schema values = some (convert entry.row)
  | .write context events => db.writeRows doubles context events ≠ none →
    Execution.FollowsAll doubles context ⟨db, []⟩ events
  | _ => True

def Database.AdmitsAll : Database → List CaptureStep → Prop
  | _, [] => True
  | db, step :: steps => db.Admits doubles step ∧ (db.perform doubles step).AdmitsAll steps

end Conditions

/-- What the installation of triggers rests on, and the agreement of the rows with the log and
what waits to be logged. -/
structure Database.Ready (doubles : Doubles) (db : Database) (waiting : List Waiting := []) : Prop where
  suffixes : (db.tables.map (captureSuffix ·.schema.name)).Nodup
  columns : ∀ table ∈ db.tables, (table.schema.columns.map ColumnSchema.name).Nodup
  inCatalog : ∀ table ∈ db.tables, table.schema.isProtected = true →
    db.catalog.tables.contains table.schema.name = true
  shown : ∀ table ∈ db.tables, keyColumns table.schema ≠ [] → table.schema.isProtected = false →
    isHiddenName table.schema.name = false ∧ isShadowed db.temporary table.schema.name = false
  faithful : ∀ table ∈ db.tables, keyColumns table.schema ≠ [] →
    Faithful doubles table.schema ((replay db.sync.changes).awaiting doubles waiting)
      (db.contents table.schema.name)

structure Database.Sound (doubles : Doubles) (db : Database) (waiting : List Waiting := []) : Prop
    extends Database.Ready doubles db waiting where
  installed : ∀ table ∈ db.tables, keyColumns table.schema ≠ [] → table.schema.name ∈ db.captured

variable {doubles : Doubles} {db db' : Database}

section Installation

theorem mem_refreshOne_of_ne {temporary captured : List Identifier} {table : TableSchema} {name : Identifier}
    (h : name ∈ captured) (hne : captureSuffix name ≠ captureSuffix table.name) :
    name ∈ refreshOne temporary captured table := by
  have hfilter : name ∈ captured.filter (captureSuffix · ≠ captureSuffix table.name) :=
    List.mem_filter.mpr ⟨h, by simpa using hne⟩
  rw [refreshOne]
  split_ifs
  · exact hfilter
  · exact List.mem_append_left _ hfilter

theorem mem_refresh {temporary : List Identifier} {tables : List TableSchema}
    (hsuffixes : (tables.map (captureSuffix ·.name)).Nodup) {table : TableSchema} (htable : table ∈ tables)
    (hkeyed : keyColumns table ≠ [])
    (hshown : table.isProtected = true ∨ isShadowed temporary table.name = false)
    (captured : List Identifier) : table.name ∈ tables.foldl (refreshOne temporary) captured := by
  -- a name that is there stays where no other table has its suffix
  have hstays (rest : List TableSchema) (captured : List Identifier) (hin : table.name ∈ captured)
      (hrest : ∀ other ∈ rest, captureSuffix table.name ≠ captureSuffix other.name) :
      table.name ∈ rest.foldl (refreshOne temporary) captured := by
    induction rest generalizing captured with
    | nil => exact hin
    | cons other rest ih =>
      refine ih _ (mem_refreshOne_of_ne hin (hrest other (by simp))) fun o ho => ?_
      exact hrest o (List.mem_cons_of_mem other ho)
  induction tables generalizing captured with
  | nil => cases htable
  | cons first rest ih =>
    rw [List.map_cons, List.nodup_cons] at hsuffixes
    rw [List.foldl_cons]
    obtain rfl | htable := List.mem_cons.mp htable
    · refine hstays rest _ ?_ fun other hother hsame => ?_
      · have hinstalls : ((keyColumns table).isEmpty || (!table.isProtected && isShadowed temporary table.name)) =
            false := by
          obtain hprotected | hshadow := hshown
          · simp [hprotected, hkeyed]
          · simp [hshadow, hkeyed]
        rw [refreshOne, hinstalls]
        simp
      · exact hsuffixes.1 (List.mem_map.mpr ⟨other, hother, hsame.symm⟩)
    · exact ih hsuffixes.2 htable _

theorem Database.Ready.mem_schemaSnapshot (h : db.Ready doubles) {table : PhysicalTable}
    (hmem : table ∈ db.tables) (hkeyed : keyColumns table.schema ≠ []) :
    table.schema ∈ db.schemaSnapshot.tables := by
  refine (List.mem_insertionSort _).mpr (List.mem_map.mpr ⟨table, List.mem_filter.mpr ⟨hmem, ?_⟩, rfl⟩)
  cases hprotected : table.schema.isProtected with
  | true => simpa using h.inCatalog table hmem hprotected
  | false => simp [(h.shown table hmem hkeyed hprotected).1]

/-- The rebuilt triggers cover every table with a key. -/
theorem Database.Ready.refresh (h : db.Ready doubles) : db.refreshChangeCapture.Sound doubles where
  suffixes := h.suffixes
  columns := h.columns
  inCatalog := h.inCatalog
  shown := h.shown
  faithful := h.faithful
  installed := by
    intro table htable hkeyed
    have hsuffixes : (db.schemaSnapshot.tables.map (captureSuffix ·.name)).Nodup := by
      refine ((List.perm_insertionSort _ _).map _).nodup_iff.mpr ?_
      rw [List.map_map]
      exact h.suffixes.sublist (List.filter_sublist.map _)
    refine mem_refresh hsuffixes (h.mem_schemaSnapshot htable hkeyed) hkeyed ?_ db.captured
    cases hprotected : table.schema.isProtected with
    | true => exact .inl rfl
    | false => exact .inr (h.shown table htable hkeyed hprotected).2

end Installation

section Writes
variable {context : RequestContext} {table : PhysicalTable} {name : Identifier} {run next : Execution}

structure Unaltered (db db' : Database) : Prop where
  tables : db'.tables = db.tables
  catalog : db'.catalog = db.catalog
  captured : db'.captured = db.captured
  temporary : db'.temporary = db.temporary
  recursiveTriggers : db'.recursiveTriggers = db.recursiveTriggers

def Execution.rows (doubles : Doubles) (run : Execution) : Replica :=
  (replay run.db.sync.changes).awaiting doubles run.waiting

/-- An event that concerns one table: the schema stays, and so do the rows of the other tables
and what the log makes of them. -/
structure Touches (doubles : Doubles) (name : Identifier) (run next : Execution) : Prop
    extends Unaltered run.db next.db where
  contents : ∀ other ≠ name, next.db.contents other = run.db.contents other
  rows : ∀ other ≠ name, ∀ key, next.rows doubles other key = run.rows doubles other key

theorem table_name (h : db.table name = some table) : table.schema.name = name := by
  simpa using List.find?_some h

theorem put_contents (run : Execution) (name : Identifier) (entries : Contents) (waiting : List Waiting) :
    (run.put name entries waiting).db.contents name = entries := if_pos rfl

theorem placed_eq (run : Execution) (name : Identifier) (row : Row) :
    ∃ dropped, run.waiting = dropped ++ run.placed name row ∧
      ∀ w ∈ dropped, w.table.name = name ∧ w.room = some row := by
  refine ⟨_, List.takeWhile_append_dropWhile.symm, fun w hw => ?_⟩
  have hroom := List.mem_takeWhile_imp hw
  simpa [Waiting.isRoomFor] using hroom

/-- What a write does: its table has other entries, its row waits, and the room that was made
for it does not. -/
theorem write_eq_some {write : RowWrite} (h : run.write write = some next) :
    ∃ table entries w dropped rest, run.db.table write.table = some table ∧ w.table = table.schema ∧
      next = run.put write.table entries (w :: rest) ∧ run.waiting = dropped ++ rest ∧
      (∀ other ∈ dropped, other.table.name = write.table) ∧
      ∀ new, w.room = some new → ∃ old, write = .displace write.table old new ∧ w.row = old.row := by
  cases write with
  | insert name row =>
    simp only [Execution.write, Option.bind_eq_bind, Option.bind_eq_some_iff] at h
    obtain ⟨table, htable, _, _, written, _, hnext⟩ := h
    cases hnext
    obtain ⟨dropped, hwaiting, hroom⟩ := placed_eq run name row
    exact ⟨table, _, _, dropped, _, htable, rfl, rfl, hwaiting, fun w hw => (hroom w hw).1, by simp⟩
  | update name old row namesKey =>
    simp only [Execution.write, Option.bind_eq_bind, Option.bind_eq_some_iff] at h
    obtain ⟨table, htable, _, _, _, _, written, _, hnext⟩ := h
    cases hnext
    obtain ⟨dropped, hwaiting, hroom⟩ := placed_eq run name row
    exact ⟨table, _, _, dropped, _, htable, rfl, rfl, hwaiting, fun w hw => (hroom w hw).1, by simp⟩
  | delete name old =>
    simp only [Execution.write, Option.bind_eq_bind, Option.bind_eq_some_iff] at h
    obtain ⟨table, htable, _, _, hnext⟩ := h
    cases hnext
    exact ⟨table, _, _, [], _, htable, rfl, rfl, rfl, by simp, by simp⟩
  | displace name old new =>
    simp only [Execution.write, Option.bind_eq_bind, Option.bind_eq_some_iff] at h
    obtain ⟨table, htable, _, _, hnext⟩ := h
    cases hnext
    refine ⟨table, _, _, [], _, htable, rfl, rfl, rfl, by simp, fun row hrow => ?_⟩
    obtain rfl : new = row := Option.some.inj hrow
    exact ⟨old, rfl, rfl⟩

theorem write_touches (doubles : Doubles) {write : RowWrite} (h : run.write write = some next) :
    Touches doubles write.table run next := by
  obtain ⟨table, entries, w, dropped, rest, htable, hw, rfl, hwaiting, hdropped, _⟩ := write_eq_some h
  refine ⟨⟨rfl, rfl, rfl, rfl, rfl⟩, fun other hother => if_neg hother, fun other hother key => ?_⟩
  have hname : w.table.name = write.table := by rw [hw, table_name htable]
  have hfirst : Waiting.apply doubles (replay run.db.sync.changes) w other key =
      replay run.db.sync.changes other key := if_neg fun hsame => hother (hsame.1.symm.trans hname)
  have hrest := @awaiting_append doubles (replay run.db.sync.changes) rest other key dropped
    fun w hw hsame => hother (hsame.1.symm.trans (hdropped w hw))
  rw [Execution.rows, Execution.rows, hwaiting, hrest]
  exact awaiting_congr hfirst

/-- The database of a statement under way, whose capture is complete once nothing waits. What
waits belongs to its tables, and a displaced row has the key of the one it makes room for. -/
structure Execution.Sound (doubles : Doubles) (run : Execution) : Prop
    extends Database.Sound doubles run.db run.waiting where
  known : ∀ w ∈ run.waiting, ∃ table ∈ run.db.tables, table.schema = w.table
  rooms : ∀ w ∈ run.waiting, keyColumns w.table ≠ [] → ∀ new, w.room = some new →
    capturedKey doubles w.table w.row = capturedKey doubles w.table new

theorem Database.Ready.table_eq {waiting : List Waiting} (h : db.Ready doubles waiting)
    (hmem : table ∈ db.tables) : db.table table.schema.name = some table := by
  cases hfound : db.table table.schema.name with
  | none =>
    have hnone := List.find?_eq_none.mp hfound table hmem
    simp at hnone
  | some found =>
    have hsuffix : captureSuffix found.schema.name = captureSuffix table.schema.name := by
      rw [table_name hfound]
    exact congrArg some (List.inj_on_of_nodup_map h.suffixes (List.mem_of_find?_eq_some hfound) hmem hsuffix)

/-- What a row comes to wait for: under its key its values, elsewhere what there was. -/
theorem rows_placed (h : run.Sound doubles) (htable : run.db.table name = some table)
    (hkeyed : keyColumns table.schema ≠ []) {row : Row} {operation : SyncChangeOperation}
    (hoperation : operation ≠ .delete) (hfree : Unawaited doubles (run.placed name row) table.schema row)
    (key : List Char) :
    (replay run.db.sync.changes).awaiting doubles
        ({ table := table.schema, operation, row } :: run.placed name row) table.schema.name key =
      if key = capturedKey doubles table.schema row then some (rowObject table.schema row)
      else run.rows doubles table.schema.name key := by
  obtain ⟨dropped, hwaiting, hroom⟩ := placed_eq run name row
  refine (awaiting_cons (w := { table := table.schema, operation, row }) hfree).trans ?_
  rw [if_neg hoperation]
  by_cases hkey : key = capturedKey doubles table.schema row
  · rw [if_pos hkey, if_pos hkey]
  · rw [if_neg hkey, if_neg hkey, Execution.rows, hwaiting]
    refine (awaiting_append fun w hw hsame => hkey ?_).symm
    -- what is displaced for the row has its key
    have hin : w ∈ run.waiting := hwaiting ▸ List.mem_append_left _ hw
    obtain ⟨found, hmem, hschema⟩ := h.known w hin
    have hfound := h.table_eq hmem
    rw [hschema, hsame.1, table_name htable, htable, Option.some.injEq] at hfound
    subst hfound
    have hkeyed' : keyColumns w.table ≠ [] := hschema ▸ hkeyed
    rw [← hsame.2, h.rooms w hin hkeyed' row (hroom w hw).2, hschema]

theorem rows_removed {old : Row} {room : Option Row} (hfree : Unawaited doubles run.waiting table.schema old)
    (key : List Char) :
    (replay run.db.sync.changes).awaiting doubles
        ({ table := table.schema, operation := .delete, row := old, room } :: run.waiting) table.schema.name key =
      if key = capturedKey doubles table.schema old then none else run.rows doubles table.schema.name key :=
  awaiting_cons (w := { table := table.schema, operation := .delete, row := old, room }) hfree

/-- A write to a table with a key keeps its rows in step with the log and what waits. -/
theorem write_faithful (hlawful : doubles.Lawful) (h : run.Sound doubles) {write : RowWrite}
    (hfollows : run.Follows doubles (.write write)) (hwrite : run.write write = some next)
    (htable : run.db.table write.table = some table) (hkeyed : keyColumns table.schema ≠ []) :
    Faithful doubles table.schema (next.rows doubles) (next.db.contents table.schema.name) := by
  have hmem : table ∈ run.db.tables := List.mem_of_find?_eq_some htable
  have hfaithful : Faithful doubles table.schema (run.rows doubles) (run.db.contents table.schema.name) :=
    h.faithful table hmem hkeyed
  have hcaptured := h.installed table hmem hkeyed
  have hcolumns := h.columns table hmem
  have hname := table_name htable
  cases write with
  | insert name row =>
    obtain rfl : table.schema.name = name := hname
    simp only [Execution.write, Option.bind_eq_bind, Option.bind_eq_some_iff, Option.guard_eq_some'] at hwrite
    obtain ⟨found, hfound, _, hof, written, hwritten, hnext⟩ := hwrite
    obtain rfl : table = found := Option.some.inj (htable.symm.trans hfound)
    cases hnext
    obtain ⟨hreadable, hfree⟩ := hfollows table htable hkeyed
    rw [put_contents]
    have hstorable : row.Storable table.schema := ⟨hreadable, hof⟩
    refine hfaithful.place hcolumns ⟨fresh (run.db.contents table.schema.name), row⟩ hstorable
      (hfaithful.distinct.insert hwritten) (fun entry => ?_) (rows_placed h htable hkeyed (by simp) hfree)
    rw [mem_insert hwritten]
    refine or_congr_left (and_congr_right fun hentry => ?_)
    have hclash := no_clash_of_insert hwritten entry hentry
    refine iff_of_true hclash fun hkey => ?_
    rw [clash_of_capturedKey hlawful hstorable (hfaithful.storable entry hentry) hkeyed hkey.symm] at hclash
    cases hclash
  | update name old row namesKey =>
    obtain rfl : table.schema.name = name := hname
    simp only [Execution.write, Option.bind_eq_bind, Option.bind_eq_some_iff, Option.guard_eq_some'] at hwrite
    obtain ⟨found, hfound, _, ⟨hold, hof⟩, _, hguard, written, hwritten, hnext⟩ := hwrite
    obtain rfl : table = found := Option.some.inj (htable.symm.trans hfound)
    cases hnext
    obtain ⟨hnames, hchanged⟩ | ⟨hreadable, hfree, hkey⟩ := hfollows table htable hkeyed
    · simp [hnames, hchanged, hcaptured] at hguard
    rw [put_contents]
    have hstorable : row.Storable table.schema := ⟨hreadable, hof⟩
    refine hfaithful.place hcolumns ⟨old.id, row⟩ hstorable (hfaithful.distinct.change hwritten)
      (fun entry => ?_) (rows_placed h htable hkeyed (by simp) hfree)
    rw [mem_change hwritten]
    refine or_congr (and_congr_right fun hentry => ?_) (and_iff_right ⟨old, hold, rfl⟩)
    constructor
    · intro hstays hsame
      rw [clash_of_capturedKey hlawful hstorable (hfaithful.storable entry hentry) hkeyed hsame.symm] at hstays
      cases hstays.2
    · intro hother
      have hid : entry.id ≠ old.id := by
        intro hid
        rw [hfaithful.distinct.eq_of_id hentry hold hid] at hother
        exact hother hkey
      exact ⟨hid, by simpa using fun hclash => hid (no_clash_of_change hwritten entry hentry hclash)⟩
  | delete name old =>
    obtain rfl : table.schema.name = name := hname
    simp only [Execution.write, Option.bind_eq_bind, Option.bind_eq_some_iff, Option.guard_eq_some'] at hwrite
    obtain ⟨found, hfound, _, hold, hnext⟩ := hwrite
    obtain rfl : table = found := Option.some.inj (htable.symm.trans hfound)
    cases hnext
    rw [put_contents]
    exact hfaithful.remove hold (rows_removed (hfollows table htable hkeyed))
  | displace name old new =>
    obtain rfl : table.schema.name = name := hname
    simp only [Execution.write, Option.bind_eq_bind, Option.bind_eq_some_iff, Option.guard_eq_some',
      Bool.and_eq_true, decide_eq_true_eq] at hwrite
    obtain ⟨found, hfound, _, ⟨hold, _⟩, hnext⟩ := hwrite
    obtain rfl : table = found := Option.some.inj (htable.symm.trans hfound)
    cases hnext
    rw [put_contents]
    exact hfaithful.remove hold (rows_removed (hfollows table htable hkeyed).1)

/-- What an event keeps of the invariant, where the table that it concerns stays faithful. -/
theorem Database.Ready.of_touches (h : run.db.Ready doubles run.waiting) (htouches : Touches doubles name run next)
    (hfaithful : ∀ table ∈ run.db.tables, table.schema.name = name → keyColumns table.schema ≠ [] →
      Faithful doubles table.schema (next.rows doubles) (next.db.contents table.schema.name)) :
    next.db.Ready doubles next.waiting where
  suffixes := by
    rw [htouches.tables]
    exact h.suffixes
  columns := by
    rw [htouches.tables]
    exact h.columns
  inCatalog := by
    rw [htouches.tables, htouches.catalog]
    exact h.inCatalog
  shown := by
    rw [htouches.tables, htouches.temporary]
    exact h.shown
  faithful := by
    rw [htouches.tables]
    intro table hmem hkeyed
    by_cases hname : table.schema.name = name
    · exact hfaithful table hmem hname hkeyed
    · rw [htouches.contents table.schema.name hname]
      exact (h.faithful table hmem hkeyed).congr (htouches.rows table.schema.name hname)

theorem Execution.Sound.write (hlawful : doubles.Lawful) (h : run.Sound doubles) {write : RowWrite}
    (hfollows : run.Follows doubles (.write write)) (hwrite : run.write write = some next) :
    next.Sound doubles := by
  have htouches := write_touches doubles hwrite
  obtain ⟨found, entries, w, dropped, rest, hfound, hw, hnext, hwaiting, _, hdisplaced⟩ := write_eq_some hwrite
  have hrest {w' : Waiting} (hin : w' ∈ rest) : w' ∈ run.waiting := hwaiting ▸ List.mem_append_right _ hin
  refine ⟨⟨h.toReady.of_touches htouches fun table hmem hname hkeyed => ?_, ?_⟩, ?_, ?_⟩
  · have htable := h.table_eq hmem
    rw [hname] at htable
    exact write_faithful hlawful h hfollows hwrite htable hkeyed
  · rw [htouches.tables, htouches.captured]
    exact h.installed
  · subst hnext
    intro w' hin
    obtain rfl | hin := List.mem_cons.mp hin
    · exact ⟨found, List.mem_of_find?_eq_some hfound, hw.symm⟩
    · exact h.known w' (hrest hin)
  · subst hnext
    intro w' hin hkeyed new hroom
    obtain rfl | hin := List.mem_cons.mp hin
    · obtain ⟨old, hwrite, hrow⟩ := hdisplaced new hroom
      rw [hwrite] at hfollows
      rw [hw] at hkeyed ⊢
      rw [hrow]
      exact (hfollows found hfound hkeyed).2
    · exact h.rooms w' (hrest hin) hkeyed new hroom

theorem innermost_eq {w : Waiting} {outer : List Waiting} (h : run.innermost = some (w, outer)) :
    run.waiting = w :: outer ∧ w.room = none := by
  rw [Execution.innermost.eq_def] at h
  split at h
  · cases h
  · next w' outer' hwaiting =>
    rw [Option.ite_none_right_eq_some] at h
    cases h.2
    exact ⟨hwaiting, h.1⟩

/-- The innermost row is logged or given up: what the log makes of the rows stays, if it is
logged, and otherwise changes for its table alone. -/
theorem step_eq_some {event : RowEvent} (hevent : ∀ write, event ≠ .write write)
    (h : run.step doubles context event = some next) :
    ∃ w, run.waiting = w :: next.waiting ∧ w.room = none ∧ next.db.contents = run.db.contents ∧
      Touches doubles w.table.name run next ∧
      ((w.table.name ∈ run.db.captured ∧
          next.db.sync = run.db.sync.capture doubles context w.table w.operation w.row ∧
          next.rows doubles = run.rows doubles) ∨
        (next.db.sync = run.db.sync ∧ (event = .fire → w.table.name ∉ run.db.captured))) := by
  have hgone {w : Waiting} {outer : List Waiting} (hwaiting : run.waiting = w :: outer) :
      Touches doubles w.table.name run ⟨run.db, outer⟩ := by
    refine ⟨⟨rfl, rfl, rfl, rfl, rfl⟩, fun _ _ => rfl, fun other hother key => ?_⟩
    rw [Execution.rows, Execution.rows, hwaiting]
    exact awaiting_congr (if_neg fun hsame => hother hsame.1.symm).symm
  cases event with
  | write write => exact absurd rfl (hevent write)
  | ignore =>
    obtain ⟨⟨w, outer⟩, hin, hnext⟩ := Option.map_eq_some_iff.mp h
    cases hnext
    obtain ⟨hwaiting, hroom⟩ := innermost_eq hin
    exact ⟨w, hwaiting, hroom, rfl, hgone hwaiting, .inr ⟨rfl, by simp⟩⟩
  | fire =>
    obtain ⟨⟨w, outer⟩, hin, hnext⟩ := Option.map_eq_some_iff.mp h
    obtain rfl : Execution.mk (run.db.log doubles context w) outer = next := hnext
    obtain ⟨hwaiting, hroom⟩ := innermost_eq hin
    by_cases hcaptured : w.table.name ∈ run.db.captured
    · have hrows : Execution.rows doubles ⟨run.db.log doubles context w, outer⟩ = run.rows doubles := by
        rw [Execution.rows, Execution.rows, hwaiting, Database.log, if_pos hcaptured]
        refine congrArg (Replica.awaiting doubles · outer) ?_
        funext name key
        exact replay_capture run.db.sync context w.table w.operation w.row name key
      have hsync : (run.db.log doubles context w).sync =
          run.db.sync.capture doubles context w.table w.operation w.row := by
        simp only [Database.log, if_pos hcaptured]
      refine ⟨w, hwaiting, hroom, ?_, ?_, .inl ⟨hcaptured, hsync, hrows⟩⟩
      · simp only [Database.log, if_pos hcaptured]
      · refine ⟨?_, fun _ _ => ?_, fun _ _ _ => by rw [hrows]⟩
        · simp only [Database.log, if_pos hcaptured]
          exact ⟨rfl, rfl, rfl, rfl, rfl⟩
        · simp only [Database.log, if_pos hcaptured]
    · have hlog : run.db.log doubles context w = run.db := if_neg hcaptured
      rw [hlog]
      exact ⟨w, hwaiting, hroom, rfl, hgone hwaiting, .inr ⟨rfl, fun _ => hcaptured⟩⟩

theorem Execution.Sound.table_eq_of_waits (h : run.Sound doubles) {w : Waiting} (hw : w ∈ run.waiting)
    (hmem : table ∈ run.db.tables) (hname : table.schema.name = w.table.name) : table.schema = w.table := by
  obtain ⟨found, hfound, hschema⟩ := h.known w hw
  have hfound := h.table_eq hfound
  rw [hschema, ← hname, h.table_eq hmem, Option.some.injEq] at hfound
  rw [hfound, hschema]

theorem Execution.Sound.step (hlawful : doubles.Lawful) (h : run.Sound doubles) {event : RowEvent}
    (hfollows : run.Follows doubles event) (hstep : run.step doubles context event = some next) :
    next.Sound doubles := by
  by_cases hevent : ∃ write, event = .write write
  · obtain ⟨write, rfl⟩ := hevent
    exact h.write hlawful hfollows hstep
  · obtain ⟨w, hwaiting, _, hcontents, htouches, hlogged⟩ := step_eq_some (not_exists.mp hevent) hstep
    have houter {w' : Waiting} (hin : w' ∈ next.waiting) : w' ∈ run.waiting := by
      rw [hwaiting]
      exact List.mem_cons_of_mem w hin
    refine ⟨⟨h.toReady.of_touches htouches fun table hmem hname hkeyed => ?_, ?_⟩, ?_, ?_⟩
    · have hschema := h.table_eq_of_waits (w := w) (by simp [hwaiting]) hmem hname
      obtain ⟨_, _, hrows⟩ | ⟨_, huncaptured⟩ := hlogged
      · rw [hrows, hcontents]
        exact h.faithful table hmem hkeyed
      · exfalso
        cases event with
        | write write => exact hevent ⟨write, rfl⟩
        | fire => exact huncaptured rfl (hschema ▸ h.installed table hmem hkeyed)
        | ignore => exact hkeyed (hschema ▸ hfollows w (by simp [hwaiting]))
    · rw [htouches.tables, htouches.captured]
      exact h.installed
    · rw [htouches.tables]
      exact fun w' hin => h.known w' (houter hin)
    · exact fun w' hin => h.rooms w' (houter hin)

theorem Execution.Sound.steps (hlawful : doubles.Lawful) {events : List RowEvent} (h : run.Sound doubles)
    (hfollows : run.FollowsAll doubles context events) (hsteps : run.steps doubles context events = some next) :
    next.Sound doubles := by
  induction events generalizing run with
  | nil =>
    cases hsteps
    exact h
  | cons event events ih =>
    simp only [Execution.steps, Option.bind_eq_bind, Option.bind_eq_some_iff] at hsteps
    obtain ⟨mid, hmid, hrest⟩ := hsteps
    exact ih (h.step hlawful hfollows.1 hmid) (hfollows.2 mid hmid) hrest

theorem writeRows_eq_some {events : List RowEvent} :
    db.writeRows doubles context events = some db' ↔
      Execution.steps doubles context ⟨db, []⟩ events = some ⟨db', []⟩ := by
  simp only [Database.writeRows, Option.bind_eq_bind, Option.bind_eq_some_iff, Option.guard_eq_some',
    List.isEmpty_iff]
  constructor
  · intro h
    obtain ⟨⟨run, waiting⟩, hrun, _, hempty, hdb⟩ := h
    cases hdb
    obtain rfl : waiting = [] := hempty
    exact hrun
  · intro h
    exact ⟨_, h, (), rfl, rfl⟩

theorem Database.Sound.writeRows (hlawful : doubles.Lawful) {events : List RowEvent} (h : db.Sound doubles)
    (hfollows : Execution.FollowsAll doubles context ⟨db, []⟩ events)
    (hwrite : db.writeRows doubles context events = some db') : db'.Sound doubles := by
  have hstart : Execution.Sound doubles ⟨db, []⟩ := ⟨h, by simp, by simp⟩
  exact (hstart.steps hlawful hfollows (writeRows_eq_some.mp hwrite)).toSound

/-- The table that an event concerns: that of the row written, or that of the innermost. -/
theorem step_touches {event : RowEvent} (hstep : run.step doubles context event = some next) :
    ∃ name, Touches doubles name run next ∧ (∀ w ∈ next.waiting, w ∈ run.waiting ∨ w.table.name = name) ∧
      ((∃ write, event = .write write ∧ write.table = name) ∨ ∃ w ∈ run.waiting, w.table.name = name) := by
  by_cases hevent : ∃ write, event = .write write
  · obtain ⟨write, rfl⟩ := hevent
    have htouches := write_touches doubles hstep
    obtain ⟨table, entries, w, dropped, rest, htable, hw, rfl, hwaiting, _⟩ := write_eq_some hstep
    refine ⟨write.table, htouches, fun w' hin => ?_, .inl ⟨write, rfl, rfl⟩⟩
    obtain rfl | hin := List.mem_cons.mp hin
    · exact .inr (by rw [hw, table_name htable])
    · exact .inl (hwaiting ▸ List.mem_append_right _ hin)
  · obtain ⟨w, hwaiting, _, _, htouches, _⟩ := step_eq_some (not_exists.mp hevent) hstep
    refine ⟨w.table.name, htouches, fun w' hin => .inl ?_, .inr ⟨w, by simp [hwaiting], rfl⟩⟩
    rw [hwaiting]
    exact List.mem_cons_of_mem w hin

/-- What every event of a statement keeps, the statement does. -/
theorem steps_preserves {P : Execution → Prop} {events : List RowEvent}
    (hstep : ∀ run next event, event ∈ events → P run → run.step doubles context event = some next → P next)
    (hstart : P run) (hsteps : run.steps doubles context events = some next) : P next := by
  induction events generalizing run with
  | nil =>
    cases hsteps
    exact hstart
  | cons event events ih =>
    simp only [Execution.steps, Option.bind_eq_bind, Option.bind_eq_some_iff] at hsteps
    obtain ⟨mid, hmid, hrest⟩ := hsteps
    have hfirst : P mid := hstep run mid event (by simp) hstart hmid
    exact ih (fun run next event hin => hstep run next event (List.mem_cons_of_mem _ hin)) hfirst hrest

theorem Unaltered.trans {first second third : Database} (h : Unaltered first second) (h' : Unaltered second third) :
    Unaltered first third :=
  ⟨h'.tables.trans h.tables, h'.catalog.trans h.catalog, h'.captured.trans h.captured,
    h'.temporary.trans h.temporary, h'.recursiveTriggers.trans h.recursiveTriggers⟩

theorem steps_unaltered {events : List RowEvent} (hsteps : run.steps doubles context events = some next) :
    Unaltered run.db next.db := by
  refine steps_preserves (P := fun now => Unaltered run.db now.db) ?_ ⟨rfl, rfl, rfl, rfl, rfl⟩ hsteps
  intro now next event _ h hstep
  obtain ⟨_, htouches, _⟩ := step_touches hstep
  exact h.trans htouches.toUnaltered

/-- Writes to tables without keys do not concern the log of the others. -/
theorem Database.Ready.steps_unkeyed (run : Execution) {events : List RowEvent} (h : run.db.Ready doubles run.waiting)
    (hwaits : ∀ w ∈ run.waiting, ∀ table, run.db.table w.table.name = some table → keyColumns table.schema = [])
    (hunkeyed : ∀ write, .write write ∈ events → ∀ table, run.db.table write.table = some table →
      keyColumns table.schema = [])
    (hsteps : run.steps doubles context events = some next) : next.db.Ready doubles next.waiting := by
  have hall := steps_preserves (P := fun now => now.db.Ready doubles now.waiting ∧ now.db.tables = run.db.tables ∧
    ∀ w ∈ now.waiting, ∀ table, run.db.table w.table.name = some table → keyColumns table.schema = [])
    ?_ ⟨h, rfl, hwaits⟩ hsteps
  · exact hall.1
  · intro now mid event hevent hnow hmid
    obtain ⟨hready, htables, hwaits⟩ := hnow
    obtain ⟨name, htouches, hwaiting, hwhy⟩ := step_touches hmid
    have hname (table : PhysicalTable) (htable : run.db.table name = some table) : keyColumns table.schema = [] := by
      obtain ⟨write, rfl, rfl⟩ | ⟨w, hw, rfl⟩ := hwhy
      · exact hunkeyed write hevent table htable
      · exact hwaits w hw table htable
    refine ⟨hready.of_touches htouches fun table hmem hsame hkeyed => absurd ?_ hkeyed,
      htouches.tables.trans htables, fun w hw table htable => ?_⟩
    · rw [htables] at hmem
      exact hname table (hsame ▸ h.table_eq hmem)
    · obtain hw | rfl := hwaiting w hw
      · exact hwaits w hw table htable
      · exact hname table htable

theorem Database.Ready.writeRows_unkeyed {events : List RowEvent} (h : db.Ready doubles)
    (hunkeyed : ∀ write, .write write ∈ events → ∀ table, db.table write.table = some table →
      keyColumns table.schema = [])
    (hwrite : db.writeRows doubles context events = some db') : db'.Ready doubles := by
  exact Database.Ready.steps_unkeyed ⟨db, []⟩ h (by simp) hunkeyed (writeRows_eq_some.mp hwrite)

/-- The log grows by what is captured, and by nothing else. -/
theorem step_sync {event : RowEvent} (hstep : run.step doubles context event = some next) :
    next.db.sync = run.db.sync ∨ ∃ table operation row,
      next.db.sync = run.db.sync.capture doubles context table operation row := by
  cases event with
  | write write =>
    obtain ⟨table, entries, w, dropped, rest, htable, hw, rfl, _⟩ := write_eq_some hstep
    exact .inl rfl
  | ignore =>
    obtain ⟨⟨w, outer⟩, _, hnext⟩ := Option.map_eq_some_iff.mp hstep
    cases hnext
    exact .inl rfl
  | fire =>
    obtain ⟨⟨w, outer⟩, _, hnext⟩ := Option.map_eq_some_iff.mp hstep
    cases hnext
    by_cases hcaptured : w.table.name ∈ run.db.captured
    · refine .inr ⟨w.table, w.operation, w.row, ?_⟩
      simp only [Database.log, if_pos hcaptured]
    · refine .inl ?_
      simp only [Database.log, if_neg hcaptured]

theorem writeRows_sync {P : SyncTables → Prop} {events : List RowEvent}
    (hcapture : ∀ sync table operation row, P sync → P (sync.capture doubles context table operation row))
    (h : P db.sync) (hwrite : db.writeRows doubles context events = some db') : P db'.sync := by
  refine steps_preserves (P := fun run => P run.db.sync) ?_ h (writeRows_eq_some.mp hwrite)
  intro run next event _ hrun hstep
  obtain hsame | ⟨table, operation, row, hsync⟩ := step_sync hstep
  · rwa [hsame]
  · rw [hsync]
    exact hcapture _ table operation row hrun

theorem writeRows_ledger {events : List RowEvent} (h : db.sync.Ledger)
    (hwrite : db.writeRows doubles context events = some db') : db'.sync.Ledger :=
  writeRows_sync (fun _ table operation row hledger => hledger.capture context table operation row) h hwrite

end Writes

section Schema
variable {table : PhysicalTable} {name : Identifier}

theorem faithful_nil {schema : TableSchema} {rows : Replica}
    (h : ∀ key, rows schema.name key = none) : Faithful doubles schema rows [] where
  distinct := List.nodup_nil
  storable _ hentry := by cases hentry
  logged _ hentry := by cases hentry
  live key values hvalues := by
    rw [h] at hvalues
    cases hvalues
  unique _ ha := by cases ha

/-- The invariant for some of the tables and one more. -/
theorem Database.Ready.extend {tables : List PhysicalTable} (h : db.Ready doubles)
    (hsub : tables.Sublist db.tables) (htables : db'.tables = tables ++ [table])
    (hcatalog : db'.catalog = db.catalog) (htemporary : db'.temporary = db.temporary)
    (hchanges : db'.sync.changes = db.sync.changes)
    (hcontents : ∀ other ∈ tables, db'.contents other.schema.name = db.contents other.schema.name)
    (hsuffix : ∀ other ∈ tables, captureSuffix other.schema.name ≠ captureSuffix table.schema.name)
    (hcolumns : (table.schema.columns.map ColumnSchema.name).Nodup)
    (hprotected : table.schema.isProtected = false)
    (hshown : keyColumns table.schema ≠ [] →
      isHiddenName table.schema.name = false ∧ isShadowed db.temporary table.schema.name = false)
    (hfaithful : keyColumns table.schema ≠ [] →
      Faithful doubles table.schema (replay db.sync.changes) (db'.contents table.schema.name)) :
    db'.Ready doubles := by
  have hcases (other : PhysicalTable) (hother : other ∈ db'.tables) : other ∈ tables ∨ other = table := by
    simpa [htables] using hother
  refine ⟨?_, ?_, ?_, ?_, ?_⟩
  · rw [htables, List.map_append, List.map_singleton]
    refine List.Nodup.append (h.suffixes.sublist (hsub.map _)) (List.nodup_singleton _) ?_
    intro suffix hin hnew
    obtain ⟨other, hother, rfl⟩ := List.mem_map.mp hin
    exact hsuffix other hother (List.mem_singleton.mp hnew)
  · intro other hother
    obtain hother | rfl := hcases other hother
    · exact h.columns other (hsub.subset hother)
    · exact hcolumns
  · intro other hother hisProtected
    obtain hother | rfl := hcases other hother
    · rw [hcatalog]
      exact h.inCatalog other (hsub.subset hother) hisProtected
    · rw [hprotected] at hisProtected
      cases hisProtected
  · intro other hother hkeyed hnot
    rw [htemporary]
    obtain hother | rfl := hcases other hother
    · exact h.shown other (hsub.subset hother) hkeyed hnot
    · exact hshown hkeyed
  · intro other hother hkeyed
    rw [hchanges]
    obtain hother | rfl := hcases other hother
    · rw [hcontents other hother]
      exact h.faithful other (hsub.subset hother) hkeyed
    · exact hfaithful hkeyed

theorem ddl_createTable (h : db.Ready doubles) (hadmits : db.Admits doubles (.createTable table))
    (hddl : db.ddl doubles (.createTable table) = some db') : db'.Ready doubles := by
  simp only [Database.ddl, Option.bind_eq_bind, Option.bind_eq_some_iff, Option.guard_eq_some',
    Bool.and_eq_true, Bool.not_eq_true', Database.hasDistinctColumns, decide_eq_true_eq] at hddl
  obtain ⟨_, ⟨⟨hcreatable, hprotected⟩, hcolumns⟩, hdb⟩ := hddl
  cases hdb
  have hfresh := hadmits hcreatable
  refine h.extend (List.Sublist.refl _) rfl rfl rfl rfl (fun other hother => if_neg fun hname => ?_)
    hfresh.suffix hcolumns hprotected (fun hkeyed => ⟨hfresh.shown hkeyed, hfresh.unshadowed hkeyed⟩) ?_
  · exact hfresh.suffix other hother (by rw [hname])
  · intro hkeyed
    have hempty : db.put table.schema.name [] table.schema.name = [] := if_pos rfl
    simp only [hempty]
    exact faithful_nil (hfresh.unlogged hkeyed)

theorem ddl_createTemporary (h : db.Ready doubles) (hadmits : db.Admits doubles (.createTemporary name))
    (hddl : db.ddl doubles (.createTemporary name) = some db') : db'.Ready doubles := by
  simp only [Database.ddl, Option.bind_eq_bind, Option.bind_eq_some_iff] at hddl
  obtain ⟨_, _, hdb⟩ := hddl
  cases hdb
  refine ⟨h.suffixes, h.columns, h.inCatalog, fun table hmem hkeyed hprotected => ?_, h.faithful⟩
  obtain ⟨hshown, hshadow⟩ := h.shown table hmem hkeyed hprotected
  refine ⟨hshown, ?_⟩
  have hname := hadmits table hmem hkeyed hprotected
  simpa [isShadowed, hname] using hshadow

theorem ddl_dropTemporary (h : db.Ready doubles)
    (hddl : db.ddl doubles (.dropTemporary name) = some db') : db'.Ready doubles := by
  cases hddl
  refine ⟨h.suffixes, h.columns, h.inCatalog, fun table hmem hkeyed hprotected => ?_, h.faithful⟩
  obtain ⟨hshown, hshadow⟩ := h.shown table hmem hkeyed hprotected
  refine ⟨hshown, ?_⟩
  simp only [isShadowed, List.any_eq_false] at hshadow ⊢
  exact fun other hother => hshadow other (List.mem_of_mem_erase hother)

theorem ddl_dropTable {cascades : List RowEvent} (h : db.Ready doubles)
    (hadmits : db.Admits doubles (.dropTable name cascades))
    (hddl : db.ddl doubles (.dropTable name cascades) = some db') : db'.Ready doubles := by
  simp only [Database.ddl, Option.bind_eq_bind, Option.bind_eq_some_iff] at hddl
  obtain ⟨table, _, _, _, next, hnext, hdb⟩ := hddl
  cases hdb
  have hready := h.writeRows_unkeyed hadmits hnext
  have hmem {table : PhysicalTable} (htable : table ∈ next.tables.filter (·.schema.name ≠ name)) :
      table ∈ next.tables ∧ table.schema.name ≠ name := by simpa using htable
  refine ⟨hready.suffixes.sublist (List.filter_sublist.map _), ?_, ?_, ?_, ?_⟩
  · intro table htable
    exact hready.columns table (hmem htable).1
  · intro table htable
    exact hready.inCatalog table (hmem htable).1
  · intro table htable
    exact hready.shown table (hmem htable).1
  · intro table htable hkeyed
    have hcontents : next.put name [] table.schema.name = next.contents table.schema.name :=
      if_neg (hmem htable).2
    simp only [hcontents]
    exact hready.faithful table (hmem htable).1 hkeyed

theorem ddl_renameTable {newName : Identifier} (h : db.Ready doubles)
    (hadmits : db.Admits doubles (.renameTable name newName))
    (hddl : db.ddl doubles (.renameTable name newName) = some db') : db'.Ready doubles := by
  simp only [Database.ddl, Option.bind_eq_bind, Option.bind_eq_some_iff, Option.guard_eq_some',
    Bool.and_eq_true, Bool.not_eq_true'] at hddl
  obtain ⟨table, htable, _, ⟨hprotected, hcreatable⟩, hdb⟩ := hddl
  cases hdb
  obtain ⟨hfresh, hempty⟩ := hadmits table htable hcreatable
  refine h.extend List.filter_sublist rfl rfl rfl rfl (fun other hother => ?_) hfresh.suffix
    (h.columns table (List.mem_of_find?_eq_some htable)) hprotected
    (fun hkeyed => ⟨hfresh.shown hkeyed, hfresh.unshadowed hkeyed⟩) (fun hkeyed => ?_)
  · have hnew : other.schema.name ≠ newName := by
      intro hsame
      exact hfresh.suffix other hother (by rw [hsame])
    have hold : other.schema.name ≠ name := by simpa using (List.mem_filter.mp hother).2
    simp [Database.put, hnew, hold]
  · have hcontents : db.contents name = [] := hempty hkeyed
    simp only [Database.put, if_true, hcontents]
    exact faithful_nil (hfresh.unlogged hkeyed)

/-- The rows of an altered table, where each keeps its key and is what its logged values stand
for under the new columns. -/
theorem Faithful.alter {schema altered : TableSchema} {rows : Replica} {entries : Contents}
    {convert : Row → Row} (h : Faithful doubles schema rows entries) (hname : altered.name = schema.name)
    (hof : ∀ entry ∈ entries, (convert entry.row).Of altered)
    (hrows : ∀ entry ∈ entries, (convert entry.row).Readable altered ∧
      capturedKey doubles altered (convert entry.row) = capturedKey doubles schema entry.row ∧
      ∀ values, rows schema.name (capturedKey doubles schema entry.row) = some values →
        decodeRow doubles altered values = some (convert entry.row)) :
    Faithful doubles altered rows (entries.map fun entry => ⟨entry.id, convert entry.row⟩) where
  distinct := by
    rw [Distinct, List.map_map]
    exact h.distinct
  storable := by
    intro entry hentry
    obtain ⟨old, hold, rfl⟩ := List.mem_map.mp hentry
    exact ⟨(hrows old hold).1, hof old hold⟩
  logged := by
    intro entry hentry
    obtain ⟨old, hold, rfl⟩ := List.mem_map.mp hentry
    obtain ⟨_, hkey, hdecode⟩ := hrows old hold
    obtain ⟨values, hvalues, _⟩ := h.logged old hold
    exact ⟨values, by rw [hname, hkey]; exact hvalues, hdecode values hvalues⟩
  live := by
    intro key values hvalues
    rw [hname] at hvalues
    obtain ⟨old, hold, rfl⟩ := h.live key values hvalues
    exact ⟨_, List.mem_map_of_mem hold, (hrows old hold).2.1⟩
  unique := by
    intro a ha b hb hkey
    obtain ⟨old, hold, rfl⟩ := List.mem_map.mp ha
    obtain ⟨old', hold', rfl⟩ := List.mem_map.mp hb
    rw [(hrows old hold).2.1, (hrows old' hold').2.1] at hkey
    rw [h.unique old hold old' hold' hkey]

theorem ddl_alterTable {altered : PhysicalTable} {convert : Row → Row} (h : db.Ready doubles)
    (hadmits : db.Admits doubles (.alterTable altered convert))
    (hddl : db.ddl doubles (.alterTable altered convert) = some db') : db'.Ready doubles := by
  simp only [Database.ddl, Option.bind_eq_bind, Option.bind_eq_some_iff, Option.guard_eq_some',
    Bool.and_eq_true, Bool.not_eq_true', Database.hasDistinctColumns, decide_eq_true_eq] at hddl
  obtain ⟨table, htable, _, ⟨⟨hprotected, hprotected'⟩, hcolumns⟩, _, hkeys, _, hof, hdb⟩ := hddl
  cases hdb
  have hmem := List.mem_of_find?_eq_some htable
  have hname := table_name htable
  have hkeyed : keyColumns altered.schema ≠ [] → keyColumns table.schema ≠ [] := by
    intro hkeyed hempty
    rw [hempty, List.isEmpty_nil, List.isEmpty_iff] at hkeys
    exact hkeyed hkeys
  refine h.extend List.filter_sublist rfl rfl rfl rfl (fun other hother => ?_) (fun other hother hsuffix => ?_)
    hcolumns hprotected' (fun hkeyed' => ?_) (fun hkeyed' => ?_)
  · have hother : other.schema.name ≠ altered.schema.name := by simpa using (List.mem_filter.mp hother).2
    exact if_neg hother
  · have hne : other.schema.name ≠ altered.schema.name := by simpa using (List.mem_filter.mp hother).2
    rw [← hname] at hsuffix hne
    exact hne (by rw [List.inj_on_of_nodup_map h.suffixes (List.mem_filter.mp hother).1 hmem hsuffix])
  · rw [← hname]
    exact h.shown table hmem (hkeyed hkeyed') hprotected
  · have hcontents : db.put altered.schema.name ((db.contents altered.schema.name).map fun entry =>
        ⟨entry.id, convert entry.row⟩) altered.schema.name =
          (db.contents altered.schema.name).map fun entry => ⟨entry.id, convert entry.row⟩ := if_pos rfl
    simp only [hcontents]
    have hfaithful := h.faithful table hmem (hkeyed hkeyed')
    have hrows := hadmits table htable (hkeyed hkeyed')
    rw [hname] at hfaithful
    refine hfaithful.alter hname.symm (fun entry hentry => ?_) fun entry hentry => ?_
    · exact hof ⟨entry.id, convert entry.row⟩ (List.mem_map_of_mem hentry)
    · rw [hname]
      exact hrows entry hentry

theorem contains_apply {catalog : RlsCatalog} {schema : SchemaSnapshot} {statement : RlsStatement}
    (h : catalog.tables.contains name = true) :
    (catalog.apply schema statement).2.tables.contains name = true := by
  have hchange (table : Identifier) (f : TablePolicies → Rls.Outcome) :
      (catalog.change schema table f).2.tables.contains name = true := by
    simp only [RlsCatalog.change]
    split_ifs
    · simp [RlsCatalog.put, Std.ExtTreeMap.contains_insert, h]
    · exact h
  cases statement with
  | _ => exact hchange _ _

theorem contains_of_enabled {catalog : RlsCatalog} (h : (catalog.metadata name).enabled = true) :
    catalog.tables.contains name = true := by
  by_contra hnot
  have hnone : catalog.tables[name]? = none := by simpa using hnot
  simp [RlsCatalog.metadata, hnone] at h

/-- A change of the policies protects more tables, which the catalog shows. -/
theorem Database.Sound.migrate {catalog : RlsCatalog} (h : db.Sound doubles)
    (hcatalog : ∀ name, db.catalog.tables.contains name = true → catalog.tables.contains name = true) :
    (db.migrate catalog).Sound doubles := by
  refine ⟨⟨?_, ?_, ?_, ?_, ?_⟩, ?_⟩
  · have hsuffixes := h.suffixes
    rw [Database.migrate, List.map_map]
    exact hsuffixes
  · intro migrated hmem
    obtain ⟨table, htable, rfl⟩ := List.mem_map.mp hmem
    exact h.columns table htable
  · intro migrated hmem hprotected
    obtain ⟨table, htable, rfl⟩ := List.mem_map.mp hmem
    obtain hprotected | henabled := (Bool.or_eq_true _ _).mp hprotected
    · exact hcatalog _ (h.inCatalog table htable hprotected)
    · exact contains_of_enabled henabled
  · intro migrated hmem hkeyed hprotected
    obtain ⟨table, htable, rfl⟩ := List.mem_map.mp hmem
    exact h.shown table htable hkeyed (Bool.or_eq_false_iff.mp hprotected).1
  · intro migrated hmem hkeyed
    obtain ⟨table, htable, rfl⟩ := List.mem_map.mp hmem
    obtain ⟨hdistinct, hstorable, hlogged, hlive, hunique⟩ := h.faithful table htable hkeyed
    refine ⟨hdistinct, fun entry hentry => ?_, hlogged, hlive, hunique⟩
    obtain ⟨⟨hfinite, hkey⟩, hof⟩ := hstorable entry hentry
    exact ⟨⟨hfinite, hkey⟩, hof⟩
  · intro migrated hmem hkeyed
    obtain ⟨table, htable, rfl⟩ := List.mem_map.mp hmem
    exact h.installed table htable hkeyed

/-- A policy statement that is applied is a change of the policies. -/
theorem applyRls_eq_some {statement : RlsStatement} (h : db.applyRls statement = some db') :
    db' = db.migrate (db.catalog.apply db.schemaSnapshot statement).2 := by
  rw [Database.applyRls.eq_def] at h
  split at h
  · next catalog hcatalog =>
    split at h
    · cases h
      rw [hcatalog]
    · cases h
  · cases h

end Schema

/-- A schema statement that meets its condition leaves a database whose triggers can be
rebuilt. -/
theorem ddl_ready {step : CaptureStep} (h : db.Ready doubles) (hadmits : db.Admits doubles step)
    (hddl : db.ddl doubles step = some db') : db'.Ready doubles := by
  cases step with
  | createTable table => exact ddl_createTable h hadmits hddl
  | createTemporary name => exact ddl_createTemporary h hadmits hddl
  | dropTemporary name => exact ddl_dropTemporary h hddl
  | dropTable name cascades => exact ddl_dropTable h hadmits hddl
  | renameTable name newName => exact ddl_renameTable h hadmits hddl
  | alterTable altered convert => exact ddl_alterTable h hadmits hddl
  | _ =>
    cases hddl
    exact h

theorem Database.Ready.suspend (h : db.Ready doubles) : db.suspendChangeCapture.Ready doubles :=
  ⟨h.suffixes, h.columns, h.inCatalog, h.shown, h.faithful⟩

/-- A schema statement with the suspension and the rebuilding of triggers around it. -/
theorem Database.Sound.ddl (step : CaptureStep) (h : db.Sound doubles)
    (hadmits : db.suspendChangeCapture.Admits doubles step) :
    (((db.suspendChangeCapture.ddl doubles step).map Database.refreshChangeCapture).getD db).Sound doubles := by
  cases hddl : db.suspendChangeCapture.ddl doubles step with
  | none => exact h
  | some next => exact (ddl_ready h.toReady.suspend hadmits hddl).refresh

theorem Database.Sound.perform (hlawful : doubles.Lawful) (h : db.Sound doubles) {step : CaptureStep}
    (hadmits : db.Admits doubles step) : (db.perform doubles step).Sound doubles := by
  cases step with
  | rls statement =>
    rw [Database.perform]
    cases happly : db.applyRls statement with
    | none => exact h
    | some next =>
      rw [Option.getD_some, applyRls_eq_some happly]
      exact h.migrate fun name hname => contains_apply hname
  | refresh => exact h.toReady.refresh
  | pragma recursiveTriggers =>
    exact ⟨⟨h.suffixes, h.columns, h.inCatalog, h.shown, h.faithful⟩, h.installed⟩
  | write context events =>
    rw [Database.perform]
    cases hwrite : db.writeRows doubles context events with
    | none => exact h
    | some next => exact h.writeRows hlawful (hadmits (by simp [hwrite])) hwrite
  | createTable table => exact Database.Sound.ddl (.createTable table) h hadmits
  | createTemporary name => exact Database.Sound.ddl (.createTemporary name) h hadmits
  | dropTemporary name => exact Database.Sound.ddl (.dropTemporary name) h trivial
  | dropTable name cascades => exact Database.Sound.ddl (.dropTable name cascades) h hadmits
  | renameTable name newName => exact Database.Sound.ddl (.renameTable name newName) h hadmits
  | alterTable altered convert => exact Database.Sound.ddl (.alterTable altered convert) h hadmits
  | otherDdl => exact Database.Sound.ddl .otherDdl h trivial

def SyncTables.Advances (doubles : Doubles) (s s' : SyncTables) : Prop :=
  s' = s ∨ ∃ (before after : Database) (context : RequestContext) (events : List RowEvent),
    before.sync = s ∧ before.writeRows doubles context events = some after ∧ s' = after.sync

/-- A schema statement touches the log only through the rows that it removes. -/
theorem ddl_sync {step : CaptureStep} (hddl : db.ddl doubles step = some db') :
    db.sync.Advances doubles db'.sync := by
  cases step with
  | createTable table =>
    simp only [Database.ddl, Option.bind_eq_bind, Option.bind_eq_some_iff] at hddl
    obtain ⟨_, _, hdb⟩ := hddl
    cases hdb
    exact .inl rfl
  | createTemporary name =>
    simp only [Database.ddl, Option.bind_eq_bind, Option.bind_eq_some_iff] at hddl
    obtain ⟨_, _, hdb⟩ := hddl
    cases hdb
    exact .inl rfl
  | dropTable name cascades =>
    simp only [Database.ddl, Option.bind_eq_bind, Option.bind_eq_some_iff] at hddl
    obtain ⟨table, _, _, _, next, hnext, hdb⟩ := hddl
    cases hdb
    exact .inr ⟨db, next, _, cascades, rfl, hnext, rfl⟩
  | renameTable name newName =>
    simp only [Database.ddl, Option.bind_eq_bind, Option.bind_eq_some_iff] at hddl
    obtain ⟨table, _, _, _, hdb⟩ := hddl
    cases hdb
    exact .inl rfl
  | alterTable altered convert =>
    simp only [Database.ddl, Option.bind_eq_bind, Option.bind_eq_some_iff] at hddl
    obtain ⟨table, _, _, _, _, _, _, _, hdb⟩ := hddl
    cases hdb
    exact .inl rfl
  | _ =>
    cases hddl
    exact .inl rfl

theorem perform_sync (db : Database) (step : CaptureStep) :
    db.sync.Advances doubles (db.perform doubles step).sync := by
  have hddl (step : CaptureStep) : db.sync.Advances doubles
      (((db.suspendChangeCapture.ddl doubles step).map Database.refreshChangeCapture).getD db).sync := by
    cases hnext : db.suspendChangeCapture.ddl doubles step with
    | none => exact .inl rfl
    | some next => exact @ddl_sync doubles db.suspendChangeCapture next step hnext
  cases step with
  | rls statement =>
    rw [Database.perform]
    cases happly : db.applyRls statement with
    | none => exact .inl rfl
    | some next =>
      rw [Option.getD_some, applyRls_eq_some happly]
      exact .inl rfl
  | refresh => exact .inl rfl
  | pragma recursiveTriggers => exact .inl rfl
  | write context events =>
    rw [Database.perform]
    cases hwrite : db.writeRows doubles context events with
    | none => exact .inl rfl
    | some next => exact .inr ⟨db, next, context, events, rfl, hwrite, rfl⟩
  | _ => exact hddl _

/-- The numbering of the log is right whatever happens. -/
theorem perform_ledger (step : CaptureStep) (h : db.sync.Ledger) : (db.perform doubles step).sync.Ledger := by
  obtain hsame | ⟨before, after, context, events, hbefore, hwrite, hsync⟩ := @perform_sync doubles db step
  · rwa [hsame]
  · rw [hsync]
    exact writeRows_ledger (hbefore ▸ h) hwrite

theorem empty_ledger : ({} : SyncTables).Ledger where
  next := rfl
  sequences := rfl
  rowVersions := by
    intro before change after hsplit
    cases before <;> cases hsplit
  versions _ _ := rfl

def firstRequest : RequestContext := ⟨"t1", none⟩

end Ffdb.Runtime
