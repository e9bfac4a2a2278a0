import Ffdb.Runtime.Database

/-! Mutations that clients push: each is applied through the policies of its table and leaves a
receipt, which a repeated submission gets back. -/
namespace Ffdb.Runtime
open Sql Rls Relation Text Fallible
open Sync (Value JsonMap MutationOperation)

structure AuthContext where
  subject : String
  role : List Char
  claims : JsonMap
  tokenId : String

abbrev SyncMutation := Sync.ClientMutation

structure SyncMutationReceipt where
  mutationId : String
  sequence : Nat
  rowVersion : Nat
  duplicate : Bool
  deriving DecidableEq

/-- What predicates say of a row: they may read the caller's claims and any table. -/
abbrev Verdict := AuthContext → (Identifier → Contents) → Clause → Row → Truth

variable (doubles : Doubles) (truth : Verdict)

def mutationText (mutation : SyncMutation) : List Char :=
  let field (name : String) (text : List Char) := ("\"" ++ name ++ "\":").toList ++ text
  let fields := [
    field "mutation_id" (stringText mutation.mutationId),
    field "table" (stringText mutation.table),
    field "primary_key" (valueText doubles mutation.primaryKey),
    field "operation" (Sync.renderOperation mutation.operation).toList,
    field "values" (valueText doubles (.object mutation.values)),
    field "base_row_version" (Sync.renderOption toString mutation.baseRowVersion).toList,
    field "client_timestamp_ms" (Sync.renderOption Sync.renderInt64 mutation.clientTimestampMs).toList]
  openBrace :: [','].intercalate fields ++ [closeBrace]

def payloadHash (mutation : SyncMutation) : List UInt8 :=
  Sha256.digest (Sync.utf8 (String.ofList (mutationText doubles mutation)))

def validateMutation (mutation : SyncMutation) : Except RuntimeError Unit :=
  require (!(mutation.mutationId.isEmpty || mutation.mutationId.utf8ByteSize > 200 ||
    mutation.table.isEmpty || mutation.table.utf8ByteSize > 128 || mutation.values.length > 256))
    .syncMutationInvalid

def Database.policies (db : Database) (auth : AuthContext) (name : Identifier) : Policies where
  catalog := db.catalog
  caller := ⟨auth.role, false⟩
  truth contents := truth auth (db.put name contents)

def executeTable (table : PhysicalTable) (contents : Contents) : ViewStatement → Option (Written Row)
  | .insert conflict rows =>
    forEach (fun now given => do
      let row ← table.storeNew conflict now given
      insert table.clash conflict now row) contents rows
  | .update conflict selected assign =>
    forEach (fun now old =>
      if old ∈ now then do
        let row ← table.storeChange conflict old.row (assign old.row)
        change table.clash conflict now old row
      else some ⟨now, []⟩) contents (contents.filter (selected ·.row))
  | .delete selected => some (delete contents selected)

def Database.shown (db : Database) (auth : AuthContext) (table : PhysicalTable) : Contents :=
  if table.schema.isProtected then
    visible table (db.policies truth auth table.schema.name) (db.contents table.schema.name)
  else db.contents table.schema.name

def Database.execute (db : Database) (auth : AuthContext) (context : RequestContext)
    (table : PhysicalTable) (namesKey : Bool) (statement : ViewStatement) :
    Except RuntimeError Database := do
  let contents := db.contents table.schema.name
  let written ← orError
    (if table.schema.isProtected then
      executeView table (db.policies truth auth table.schema.name) contents statement
    else executeTable table contents statement) .constraintViolation
  orError (db.commit doubles context table (table.schema.isProtected || namesKey) written)
    .constraintViolation

/-- The row is the one a key names, as `IS` compares its columns. -/
def keyMatches (table : PhysicalTable) (key : List (Identifier × SqlValue)) (row : Row) : Bool :=
  key.all fun (column, value) => table.canonical column value = table.canonical column (row.value column)

def columnOf (table : TableSchema) (name : Identifier) : Except RuntimeError Identifier :=
  orError ((table.columns.find? fun column => eqIgnoreAsciiCase column.name.value name.value).map
    ColumnSchema.name) .database

def resolveFields (table : TableSchema) (fields : List (Identifier × Value)) :
    Except RuntimeError Row := do
  let parameters ← fields.mapM fun (_, value) => jsonParameter doubles value
  let columns ← fields.mapM fun (name, _) => columnOf table name
  pure (columns.zip parameters)

/-- The fields of a mutation by their names, which must not be internal ones. -/
def mutationFields (values : JsonMap) : Except RuntimeError (List (Identifier × Value)) :=
  values.mapM fun (name, value) => do
    let identifier ← (Identifier.new name.toList).mapError fun _ => RuntimeError.syncMutationInvalid
    require (!identifier.isInternal) .syncMutationInvalid
    pure (identifier, value)

def mutationAssignments (values : JsonMap) (key : List (Identifier × Value)) :
    Except RuntimeError (List (Identifier × Value)) := do
  let fields ← mutationFields values
  require (fields.all fun (name, _) => name ∉ key.map Prod.fst) .syncMutationInvalid
  pure fields

def mutationColumns (values : JsonMap) (key : List (Identifier × Value)) :
    Except RuntimeError (List (Identifier × Value)) := do
  let fields ← mutationFields values
  require (decide ((key ++ fields).map Prod.fst).Nodup) .syncMutationInvalid
  pure (key ++ fields)

def Row.assign (row assignments : Row) : Row :=
  row.map fun (column, value) => (column, (assignments.lookup column).getD value)

/-- The row that a table is given: a view has NULL where nothing is. -/
def givenRow (table : TableSchema) (given : Row) : Row :=
  if table.isProtected then table.columns.map fun column => (column.name, given.value column.name)
  else given

def keyParameters (key : List (Identifier × Value)) : Except RuntimeError (List (Identifier × SqlValue)) :=
  key.mapM fun (column, value) => do
    let parameter ← jsonParameter doubles value
    pure (column, parameter)

/-- The values that an update of the row gives its columns; without any, the key its own. -/
def updateValues (table : TableSchema) (key : List (Identifier × Value)) (values : JsonMap) :
    Except RuntimeError Row := do
  let assignments ← mutationAssignments values key
  resolveFields doubles table assignments

def insertValues (table : TableSchema) (key : List (Identifier × Value)) (values : JsonMap) :
    Except RuntimeError Row := do
  let columns ← mutationColumns values key
  let given ← resolveFields doubles table columns
  pure (givenRow table given)

def Database.selectSyncRow (db : Database) (auth : AuthContext) (table : PhysicalTable)
    (key : List (Identifier × SqlValue)) : Except RuntimeError (Option Row) :=
  match ((db.shown truth auth table).filter (keyMatches table key ·.row)).head? with
  | none => .ok none
  | some entry => do
    let _ ← (entry.row.map Prod.fst).mapM (resultField entry.row)
    pure (some entry.row)

def Database.updateSyncRow (db : Database) (auth : AuthContext) (context : RequestContext)
    (table : PhysicalTable) (key : List (Identifier × Value)) (values : JsonMap) :
    Except RuntimeError Database := do
  let assignments ← updateValues doubles table.schema key values
  let parameters ← keyParameters doubles key
  let namesKey := assignments.isEmpty ||
    assignments.any fun (column, _) => column ∈ keyColumns table.schema
  let db' ← db.execute doubles truth auth context table namesKey
    (.update .abort (keyMatches table parameters) (·.assign assignments))
  require (!((db.shown truth auth table).filter (keyMatches table parameters ·.row)).isEmpty)
    .constraintViolation
  pure db'

def Database.insertSyncRow (db : Database) (auth : AuthContext) (context : RequestContext)
    (table : PhysicalTable) (key : List (Identifier × Value)) (values : JsonMap) :
    Except RuntimeError Database := do
  let row ← insertValues doubles table.schema key values
  db.execute doubles truth auth context table false (.insert .abort [row])

def Database.deleteSyncRow (db : Database) (auth : AuthContext) (context : RequestContext)
    (table : PhysicalTable) (key : List (Identifier × Value)) : Except RuntimeError Database := do
  let parameters ← keyParameters doubles key
  db.execute doubles truth auth context table false (.delete (keyMatches table parameters))

def Database.loadSyncMutation (db : Database) (auth : AuthContext) (mutationId : String) :
    Option MutationRow :=
  db.mutations.find? fun row =>
    row.subject = auth.subject ∧ row.clientId = auth.tokenId ∧ row.mutationId = mutationId

def Database.writeSyncRow (db : Database) (auth : AuthContext) (context : RequestContext)
    (table : PhysicalTable) (key : List (Identifier × Value)) (mutation : SyncMutation)
    (current : Option Row) : Except RuntimeError Database :=
  match mutation.operation, current with
  | .upsert, some _ => db.updateSyncRow doubles truth auth context table key mutation.values
  | .upsert, none => db.insertSyncRow doubles truth auth context table key mutation.values
  | .delete, some _ => db.deleteSyncRow doubles truth auth context table key
  | .delete, none => .error .constraintViolation

def Database.applyFresh (db : Database) (auth : AuthContext) (transactionId : String)
    (mutation : SyncMutation) : Except RuntimeError (SyncMutationReceipt × Database) := do
  let name ← (Identifier.new mutation.table.toList).mapError fun _ => RuntimeError.syncMutationInvalid
  require (!name.isInternal) .syncMutationInvalid
  let (key, keyJson) ← resolvePrimaryKey doubles db.schemaSnapshot name mutation.primaryKey
  let table ← orError (db.table name) .syncMutationInvalid
  let parameters ← keyParameters doubles key
  let current ← db.selectSyncRow truth auth table parameters
  let context : RequestContext := ⟨transactionId, some mutation.mutationId⟩
  let db' ← db.writeSyncRow doubles truth auth context table key mutation current
  let (sequence, rowVersion) ← orError
    (db'.sync.loadCapturedSyncChange transactionId name keyJson mutation.mutationId) .database
  let row : MutationRow :=
    ⟨auth.subject, auth.tokenId, mutation.mutationId, payloadHash doubles mutation, sequence, rowVersion⟩
  pure (⟨mutation.mutationId, sequence, rowVersion, false⟩,
    { db' with mutations := db'.mutations ++ [row] })

def Database.applySyncMutation (db : Database) (auth : AuthContext) (transactionId : String)
    (mutation : SyncMutation) : Except RuntimeError (SyncMutationReceipt × Database) := do
  validateMutation mutation
  match db.loadSyncMutation auth mutation.mutationId with
  | some stored =>
    require (stored.payloadHash = payloadHash doubles mutation) .syncMutationInvalid
    pure (⟨mutation.mutationId, stored.sequence, stored.rowVersion, true⟩, db)
  | none => db.applyFresh doubles truth auth transactionId mutation

/-- Whether the policies in force let the caller do what a mutation asks for: to the row it
names, if the caller can see it, and as a new row else. -/
def Database.permits (db : Database) (auth : AuthContext) (mutation : SyncMutation) :
    Except RuntimeError Bool := do
  let name ← (Identifier.new mutation.table.toList).mapError fun _ => RuntimeError.syncMutationInvalid
  let (key, _) ← resolvePrimaryKey doubles db.schemaSnapshot name mutation.primaryKey
  let table ← orError (db.table name) .syncMutationInvalid
  let parameters ← keyParameters doubles key
  let policies := db.policies truth auth name
  let passes := policies.passes name (db.contents name)
  let current := ((visible table policies (db.contents name)).filter
    (keyMatches table parameters ·.row)).head?
  match mutation.operation, current with
  | .upsert, some entry => do
    let assignments ← updateValues doubles table.schema key mutation.values
    pure (passes .update .forUsing entry.row && passes .update .forCheck (entry.row.assign assignments))
  | .upsert, none => do
    let row ← insertValues doubles table.schema key mutation.values
    pure (passes .insert .forCheck row)
  | .delete, some entry => pure (passes .delete .forUsing entry.row)
  | .delete, none => pure false

def Database.Permits (db : Database) (auth : AuthContext) (mutation : SyncMutation) : Prop :=
  db.permits doubles truth auth mutation = .ok true

def Database.Compiled (db : Database) : Prop :=
  ∀ table ∈ db.tables, (db.catalog.metadata table.schema.name).enabled = true →
    table.schema.isProtected = true

/-- A change of the policies: what they are enabled for becomes protected. -/
def Database.migrate (db : Database) (catalog : RlsCatalog) : Database :=
  { db with
    catalog
    tables := db.tables.map fun table =>
      { table with schema := { table.schema with
          isProtected := table.schema.isProtected || (catalog.metadata table.schema.name).enabled } } }

inductive Action where
  | migrate (catalog : RlsCatalog)
  | write (contents : Identifier → Contents) (sync : SyncTables)
  | push (auth : AuthContext) (transactionId : String) (mutation : SyncMutation)

def Database.act (db : Database) : Action → Database
  | .migrate catalog => db.migrate catalog
  | .write contents sync => { db with contents, sync }
  | .push auth transactionId mutation =>
    match db.applySyncMutation doubles truth auth transactionId mutation with
    | .ok (_, db') => db'
    | .error _ => db

structure Disclosure where
  db : Database
  auth : AuthContext
  mutation : SyncMutation
  receipt : SyncMutationReceipt

def Database.disclose (db : Database) : Action → List Disclosure
  | .push auth transactionId mutation =>
    match db.applySyncMutation doubles truth auth transactionId mutation with
    | .ok (receipt, _) => [⟨db, auth, mutation, receipt⟩]
    | .error _ => []
  | _ => []

def Database.Unanswered (db : Database) : Action → Prop
  | .push auth _ mutation => db.loadSyncMutation auth mutation.mutationId = none
  | _ => True

variable {doubles truth}

theorem passes_of_disabled {policies : Policies} {name : Identifier}
    (h : (policies.catalog.metadata name).enabled = false) {operation : Operation}
    {purpose : PredicatePurpose} (hconcerns : concerns operation purpose = true) (contents : Contents)
    (row : Row) : policies.passes name contents operation purpose row = true := by
  rw [Policies.passes, expression_eq, if_pos hconcerns, h]
  exact decide_eq_true (Formula.truthOf_of_isExpr Formula.isTerm_one.expr)

theorem Database.Compiled.disabled {db : Database} (h : db.Compiled) {name : Identifier}
    {table : PhysicalTable} (htable : db.table name = some table)
    (hprotected : table.schema.isProtected = false) :
    (db.catalog.metadata name).enabled = false := by
  have hname : table.schema.name = name := by simpa using List.find?_some htable
  have henabled := h table (List.mem_of_find?_eq_some htable)
  rw [hname, hprotected] at henabled
  simpa using henabled

/-- What is shown is what the policies let the caller see. -/
theorem Database.Compiled.shown {db : Database} (h : db.Compiled) {name : Identifier}
    {table : PhysicalTable} (htable : db.table name = some table) (auth : AuthContext) :
    db.shown truth auth table = visible table (db.policies truth auth name) (db.contents name) := by
  have hname : table.schema.name = name := by simpa using List.find?_some htable
  rw [Database.shown, hname]
  split_ifs with hprotected
  · rfl
  · rw [visible, List.filter_eq_self.mpr]
    intro entry _
    rw [hname]
    exact passes_of_disabled (h.disabled htable (by simpa using hprotected)) rfl _ _

/-- The first of a list of writes succeeded. -/
theorem forEach_first {ρ α : Type} {write : List (Entry ρ) → α → Option (Written ρ)}
    {entries : List (Entry ρ)} {items : List α} {written : Written ρ} {a : α}
    (h : forEach write entries items = some written) (hhead : items.head? = some a) :
    ∃ first, write entries a = some first := by
  cases items with
  | nil => cases hhead
  | cons b rest =>
    cases hhead
    simp only [forEach, Option.bind_eq_bind, Option.bind_eq_some_iff] at h
    obtain ⟨first, hfirst, _⟩ := h
    exact ⟨first, hfirst⟩

theorem execute_ok {db db' : Database} {auth : AuthContext} {context : RequestContext}
    {table : PhysicalTable} {namesKey : Bool} {statement : ViewStatement}
    (h : db.execute doubles truth auth context table namesKey statement = .ok db')
    (hprotected : table.schema.isProtected = true) :
    ∃ written, executeView table (db.policies truth auth table.schema.name)
      (db.contents table.schema.name) statement = some written := by
  simp only [Database.execute, bind_ok_iff, orError_ok_iff, hprotected, if_true] at h
  obtain ⟨written, hwritten, _⟩ := h
  exact ⟨written, hwritten⟩

section Fresh
variable {db db' : Database} {auth : AuthContext} {context : RequestContext} {name : Identifier}
  {table : PhysicalTable} {key : List (Identifier × Value)} {values : JsonMap}

theorem update_permitted (hcompiled : db.Compiled) (htable : db.table name = some table)
    {parameters : List (Identifier × SqlValue)} (hparameters : keyParameters doubles key = .ok parameters)
    {entry : Entry Row}
    (hcurrent : ((visible table (db.policies truth auth name) (db.contents name)).filter
      (keyMatches table parameters ·.row)).head? = some entry)
    (h : db.updateSyncRow doubles truth auth context table key values = .ok db') :
    ∃ assignments, updateValues doubles table.schema key values = .ok assignments ∧
      (db.policies truth auth name).passes name (db.contents name) .update .forUsing entry.row = true ∧
      (db.policies truth auth name).passes name (db.contents name) .update .forCheck
        (entry.row.assign assignments) = true := by
  have hname : table.schema.name = name := by simpa using List.find?_some htable
  simp only [Database.updateSyncRow, bind_ok_iff, pure_ok_iff, hparameters] at h
  obtain ⟨assignments, hassignments, _, hsame, db'', hexecute, _⟩ := h
  cases hsame
  refine ⟨assignments, hassignments, ?_⟩
  cases hprotected : table.schema.isProtected with
  | false =>
    have hdisabled := hcompiled.disabled htable hprotected
    exact ⟨passes_of_disabled hdisabled rfl _ _, passes_of_disabled hdisabled rfl _ _⟩
  | true =>
    obtain ⟨written, hwritten⟩ := execute_ok hexecute hprotected
    rw [hname] at hwritten
    obtain ⟨first, hfirst⟩ := forEach_first hwritten hcurrent
    simp only [updateTrigger, Option.bind_eq_bind, Option.bind_eq_some_iff, Option.guard_eq_some',
      hname] at hfirst
    obtain ⟨_, husing, _, hcheck, _⟩ := hfirst
    exact ⟨husing, hcheck⟩

theorem insert_permitted (hcompiled : db.Compiled) (htable : db.table name = some table)
    (h : db.insertSyncRow doubles truth auth context table key values = .ok db') :
    ∃ row, insertValues doubles table.schema key values = .ok row ∧
      (db.policies truth auth name).passes name (db.contents name) .insert .forCheck row = true := by
  have hname : table.schema.name = name := by simpa using List.find?_some htable
  simp only [Database.insertSyncRow, bind_ok_iff] at h
  obtain ⟨row, hrow, hexecute⟩ := h
  refine ⟨row, hrow, ?_⟩
  cases hprotected : table.schema.isProtected with
  | false => exact passes_of_disabled (hcompiled.disabled htable hprotected) rfl _ _
  | true =>
    obtain ⟨written, hwritten⟩ := execute_ok hexecute hprotected
    rw [hname] at hwritten
    obtain ⟨first, hfirst⟩ := forEach_first hwritten rfl
    simp only [insertTrigger, Option.bind_eq_bind, Option.bind_eq_some_iff, Option.guard_eq_some',
      hname] at hfirst
    obtain ⟨_, hcheck, _⟩ := hfirst
    exact hcheck

theorem delete_permitted (hcompiled : db.Compiled) (htable : db.table name = some table)
    {parameters : List (Identifier × SqlValue)} (hparameters : keyParameters doubles key = .ok parameters)
    {entry : Entry Row}
    (hcurrent : ((visible table (db.policies truth auth name) (db.contents name)).filter
      (keyMatches table parameters ·.row)).head? = some entry)
    (h : db.deleteSyncRow doubles truth auth context table key = .ok db') :
    (db.policies truth auth name).passes name (db.contents name) .delete .forUsing entry.row = true := by
  have hname : table.schema.name = name := by simpa using List.find?_some htable
  simp only [Database.deleteSyncRow, bind_ok_iff, hparameters] at h
  obtain ⟨_, hsame, hexecute⟩ := h
  cases hsame
  cases hprotected : table.schema.isProtected with
  | false => exact passes_of_disabled (hcompiled.disabled htable hprotected) rfl _ _
  | true =>
    obtain ⟨written, hwritten⟩ := execute_ok hexecute hprotected
    rw [hname] at hwritten
    obtain ⟨first, hfirst⟩ := forEach_first hwritten hcurrent
    simp only [deleteTrigger, Option.bind_eq_bind, Option.bind_eq_some_iff, Option.guard_eq_some',
      hname] at hfirst
    obtain ⟨_, husing, _⟩ := hfirst
    exact husing

end Fresh

/-- Whatever is applied for the first time was permitted. -/
theorem applyFresh_permitted {db db' : Database} (hcompiled : db.Compiled) {auth : AuthContext}
    {transactionId : String} {mutation : SyncMutation} {receipt : SyncMutationReceipt}
    (h : db.applyFresh doubles truth auth transactionId mutation = .ok (receipt, db')) :
    db.Permits doubles truth auth mutation := by
  simp only [Database.applyFresh, bind_ok_iff, orError_ok_iff] at h
  obtain ⟨name, hname, _, _, ⟨key, keyJson⟩, hkey, table, htable, parameters, hparameters, current,
    hcurrent, db'', happly, _⟩ := h
  simp only [Database.Permits, Database.permits, bind_ok_iff, orError_ok_iff]
  refine ⟨name, hname, (key, keyJson), hkey, table, htable, parameters, hparameters, ?_⟩
  simp only [Database.selectSyncRow, hcompiled.shown htable] at hcurrent
  cases hhead : ((visible table (db.policies truth auth name) (db.contents name)).filter
      (keyMatches table parameters ·.row)).head? with
  | none =>
    rw [hhead] at hcurrent
    cases hcurrent
    cases hoperation : mutation.operation with
    | upsert =>
      simp only [Database.writeSyncRow, hoperation] at happly
      obtain ⟨row, hrow, hcheck⟩ := insert_permitted hcompiled htable happly
      simp [hrow, hcheck, bind, Except.bind, pure, Except.pure]
    | delete =>
      simp only [Database.writeSyncRow, hoperation] at happly
      cases happly
  | some entry =>
    rw [hhead] at hcurrent
    simp only [bind_ok_iff, pure_ok_iff] at hcurrent
    obtain ⟨_, _, rfl⟩ := hcurrent
    cases hoperation : mutation.operation with
    | upsert =>
      simp only [Database.writeSyncRow, hoperation] at happly
      obtain ⟨assignments, hassignments, husing, hcheck⟩ :=
        update_permitted hcompiled htable hparameters hhead happly
      simp [hassignments, husing, hcheck, bind, Except.bind, pure, Except.pure]
    | delete =>
      simp only [Database.writeSyncRow, hoperation] at happly
      simp [delete_permitted hcompiled htable hparameters hhead happly, pure, Except.pure]

def Database.SameSchema (db db' : Database) : Prop :=
  db'.catalog = db.catalog ∧ db'.tables = db.tables

theorem execute_sameSchema {db db' : Database} {auth : AuthContext} {context : RequestContext}
    {table : PhysicalTable} {namesKey : Bool} {statement : ViewStatement}
    (h : db.execute doubles truth auth context table namesKey statement = .ok db') :
    db.SameSchema db' := by
  simp only [Database.execute, bind_ok_iff, orError_ok_iff, Database.commit] at h
  obtain ⟨written, _, hcommit⟩ := h
  split_ifs at hcommit <;> cases hcommit <;> exact ⟨rfl, rfl⟩

theorem writeSyncRow_sameSchema {db db' : Database} {auth : AuthContext} {context : RequestContext}
    {table : PhysicalTable} {key : List (Identifier × Value)} {mutation : SyncMutation}
    {current : Option Row}
    (h : db.writeSyncRow doubles truth auth context table key mutation current = .ok db') :
    db.SameSchema db' := by
  rw [Database.writeSyncRow.eq_def] at h
  split at h
  · simp only [Database.updateSyncRow, bind_ok_iff, pure_ok_iff] at h
    obtain ⟨_, _, _, _, _, hexecute, _, _, rfl⟩ := h
    exact execute_sameSchema hexecute
  · simp only [Database.insertSyncRow, bind_ok_iff] at h
    obtain ⟨_, _, hexecute⟩ := h
    exact execute_sameSchema hexecute
  · simp only [Database.deleteSyncRow, bind_ok_iff] at h
    obtain ⟨_, _, hexecute⟩ := h
    exact execute_sameSchema hexecute
  · cases h

theorem applySyncMutation_sameSchema {db db' : Database} {auth : AuthContext}
    {transactionId : String} {mutation : SyncMutation} {receipt : SyncMutationReceipt}
    (h : db.applySyncMutation doubles truth auth transactionId mutation = .ok (receipt, db')) :
    db.SameSchema db' := by
  simp only [Database.applySyncMutation, bind_ok_iff] at h
  obtain ⟨_, _, h⟩ := h
  split at h
  · simp only [bind_ok_iff, pure_ok_iff] at h
    obtain ⟨_, _, heq⟩ := h
    cases heq
    exact ⟨rfl, rfl⟩
  · simp only [Database.applyFresh, bind_ok_iff, pure_ok_iff] at h
    obtain ⟨_, _, _, _, _, _, _, _, _, _, _, _, _, hwrite, _, _, heq⟩ := h
    cases heq
    obtain ⟨hcatalog, htables⟩ := writeSyncRow_sameSchema hwrite
    exact ⟨hcatalog, htables⟩

/-- Policies stay compiled through every action. -/
theorem compiled_act {db : Database} (h : db.Compiled) (action : Action) :
    (db.act doubles truth action).Compiled := by
  cases action with
  | migrate catalog =>
    intro table htable henabled
    obtain ⟨before, _, rfl⟩ := List.mem_map.mp htable
    simp only at henabled ⊢
    rw [Bool.or_eq_true]
    exact .inr henabled
  | write contents sync => exact h
  | push auth transactionId mutation =>
    simp only [Database.act]
    split
    · next receipt db' happly =>
      obtain ⟨hcatalog, htables⟩ := applySyncMutation_sameSchema happly
      rw [Database.Compiled, hcatalog, htables]
      exact h
    · exact h

/-- In a run no push of which is answered from a stored receipt, every receipt that is
returned is for a mutation that the policies of that moment permit. -/
theorem receipts_permitted (doubles : Doubles) (truth : Verdict) (db : Database) (actions : List Action)
    (hcompiled : db.Compiled)
    (hunanswered : ∀ before action after, actions = before ++ action :: after →
      (Machine.run (Database.act doubles truth) db before).Unanswered action) :
    ∀ disclosure ∈ Machine.trace (Database.act doubles truth) (Database.disclose doubles truth) db actions,
      disclosure.db.Permits doubles truth disclosure.auth disclosure.mutation := by
  intro disclosure hdisclosure
  obtain ⟨before, action, after, hsplit, hout⟩ := Machine.mem_trace hdisclosure
  have hthen : (Machine.run (Database.act doubles truth) db before).Compiled :=
    Machine.run_preserves (P := Database.Compiled) (fun _ action h => compiled_act h action) db before
      hcompiled
  have hfresh := hunanswered before action after hsplit
  generalize Machine.run (Database.act doubles truth) db before = now at hout hthen hfresh
  cases action with
  | push auth transactionId mutation =>
    simp only [Database.disclose] at hout
    split at hout
    · next receipt db' happly =>
      rw [List.mem_singleton] at hout
      subst hout
      have hnone : now.loadSyncMutation auth mutation.mutationId = none := hfresh
      simp only [Database.applySyncMutation, bind_ok_iff, hnone] at happly
      obtain ⟨_, _, happly⟩ := happly
      exact applyFresh_permitted hthen happly
    · cases hout
  | _ => cases hout

def author : AuthContext := ⟨"me", "author".toList, [], "phone"⟩

def ownerVerdict : Verdict := fun auth _ _ row => .ofBool (row.value ownerId = .text auth.subject)

def documentsDatabase : Database where
  tables := [{ documentsTable with schema := { documentsTable.schema with isProtected := false } }]
  contents _ := [⟨1, documentRow 1 "me"⟩]
  captured := [documents]

def touchDocument : SyncMutation :=
  ⟨"m1", "documents", .number (.posInt 1), .upsert, [("owner_id", .string "me")], none, none⟩

def revokedCatalog : RlsCatalog :=
  RlsCatalog.after (documentStatements ++
    [(⟨[⟨documents, [], false⟩]⟩, "DROP POLICY own ON documents".toList)])

theorem documentsDatabase_compiled : documentsDatabase.Compiled := by
  intro table htable henabled
  obtain rfl := List.mem_singleton.mp htable
  exact absurd henabled (by decide +kernel)

def firstPush : List Action :=
  [.migrate (RlsCatalog.after documentStatements), .push author "t1" touchDocument]

theorem first_receipt_permitted :
    (Machine.trace (Database.act sampleDoubles ownerVerdict) (Database.disclose sampleDoubles ownerVerdict)
        documentsDatabase firstPush).map Disclosure.receipt = [⟨"m1", 1, 1, false⟩] ∧
      ∀ disclosure ∈ Machine.trace (Database.act sampleDoubles ownerVerdict)
          (Database.disclose sampleDoubles ownerVerdict) documentsDatabase firstPush,
        disclosure.db.Permits sampleDoubles ownerVerdict disclosure.auth disclosure.mutation := by
  refine ⟨by decide +kernel, ?_⟩
  refine receipts_permitted sampleDoubles ownerVerdict documentsDatabase firstPush
    documentsDatabase_compiled ?_
  intro before action after hsplit
  cases before with
  | nil =>
    simp only [firstPush, List.nil_append, List.cons.injEq] at hsplit
    rw [← hsplit.1]
    trivial
  | cons first before =>
    cases before with
    | nil =>
      simp only [firstPush, List.cons_append, List.nil_append, List.cons.injEq] at hsplit
      rw [← hsplit.1, ← hsplit.2.1]
      rfl
    | cons second before => simp [firstPush] at hsplit

/-- The second submission gets the stored receipt, though nothing lets the author write any
more. -/
theorem duplicate_receipt_after_revocation :
    let db := Machine.run (Database.act sampleDoubles ownerVerdict) documentsDatabase
      (firstPush ++ [.migrate revokedCatalog])
    (db.applySyncMutation sampleDoubles ownerVerdict author "t2" touchDocument).map Prod.fst =
        .ok ⟨"m1", 1, 1, true⟩ ∧
      ¬db.Permits sampleDoubles ownerVerdict author touchDocument := by
  intro db
  refine ⟨by decide +kernel, ?_⟩
  rw [Database.Permits]
  decide +kernel

end Ffdb.Runtime
