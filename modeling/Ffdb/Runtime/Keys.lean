import Ffdb.Runtime.Change

/-! The three places that spell the key of a row: the capture triggers, the annotation of a
snapshot and the resolution of a mutation. -/
namespace Ffdb.Runtime
open Sql Rls Fallible
open Sync (Value JsonMap)

variable (doubles : Doubles)

def resultField (row : Row) (column : Identifier) : Except RuntimeError (String × Value) := do
  let value ← orError (row.lookup column) .database
  let json ← resultJson (.fromValueRef value)
  pure (columnName column, json)

/-- The key that `annotate_snapshot_rows` looks a row up by. -/
def storedKey (table : TableSchema) (row : Row) : Except RuntimeError (List Char) := do
  let fields ← (keyColumns table).mapM (resultField row)
  pure (valueText doubles (.object (collectMap fields)))

def resolveColumns (keys : List Identifier) (value : Value) :
    Except RuntimeError (List (Identifier × Value)) :=
  match keys, value with
  | [column], .object fields => resolveObject [column] fields
  | [column], value => .ok [(column, value)]
  | keys, .object fields => resolveObject keys fields
  | _, _ => .error .syncMutationInvalid
where
  resolveObject (keys : List Identifier) (fields : JsonMap) :
      Except RuntimeError (List (Identifier × Value)) := do
    require (fields.length = keys.length) .syncMutationInvalid
    keys.mapM fun column => do
      let value ← orError (fields.lookup (columnName column)) .syncMutationInvalid
      pure (column, value)

def resolvePrimaryKey (schema : SchemaSnapshot) (table : Identifier) (value : Value) :
    Except RuntimeError (List (Identifier × Value) × List Char) := do
  let tableSchema ← orError (schema.table table) .syncMutationInvalid
  let keys := keyColumns tableSchema
  require (!keys.isEmpty) .syncMutationInvalid
  let resolved ← resolveColumns keys value
  let _ ← resolved.mapM fun (_, value) => jsonParameter doubles value
  let fields := resolved.map fun (column, value) => (columnName column, value)
  pure (resolved, valueText doubles (.object (collectMap fields)))

def KeysInNameOrder (table : TableSchema) : Prop :=
  ((keyColumns table).map columnName).Pairwise (· < ·)

/-- A value that query results spell as the triggers do: no integer beyond the safe ones and
no infinity. -/
def SqlValue.isPlain : SqlValue → Bool
  | .integer value => isSafeInteger value
  | .real bits => isFinite bits
  | _ => true

theorem resultJson_eq_syncJson (value : SqlValue) :
    resultJson (.fromValueRef value) = .ok (syncJson value) ↔ value.isPlain = true := by
  cases value with
  | integer value =>
    by_cases hsafe : isSafeInteger value = true
    · simp [ResultValue.fromValueRef, hsafe, resultJson, syncJson, SqlValue.isPlain]
    · simp [ResultValue.fromValueRef, hsafe, resultJson, syncJson, SqlValue.isPlain]
  | real bits => by_cases hfinite : isFinite bits = true <;>
      simp [ResultValue.fromValueRef, hfinite, resultJson, syncJson, SqlValue.isPlain]
  | _ => simp [ResultValue.fromValueRef, resultJson, syncJson, SqlValue.isPlain, blobJson]

theorem wellFormed_ofInteger (value : Int64) : Number.WellFormed (ofInteger value) := by
  rw [ofInteger]
  split_ifs with h
  · trivial
  · exact not_le.mp h

theorem wellFormed_syncJson (value : SqlValue) : Value.WellFormed (syncJson value) := by
  cases value with
  | integer value => exact wellFormed_ofInteger value
  | real bits =>
    rw [syncJson]
    split_ifs with h
    · exact h
    · trivial
  | blob bytes => exact ⟨trivial, trivial⟩
  | _ => trivial

theorem wellFormed_resultJson {value : ResultValue} {json : Value} (h : resultJson value = .ok json) :
    Value.WellFormed json := by
  cases value with
  | integer value =>
    cases h
    exact wellFormed_ofInteger value
  | real bits =>
    rw [resultJson] at h
    split_ifs at h with hfinite
    cases h
    exact hfinite
  | blob data =>
    cases h
    exact ⟨trivial, trivial⟩
  | _ =>
    cases h
    trivial

theorem fieldsWellFormed_iff (fields : JsonMap) :
    Value.FieldsWellFormed fields ↔ ∀ field ∈ fields, Value.WellFormed field.2 := by
  induction fields with
  | nil => exact iff_of_true trivial (by simp)
  | cons field rest ih => simp [Value.FieldsWellFormed, ih]

theorem mem_collectMap {fields : JsonMap} {field : String × Value} (h : field ∈ collectMap fields) :
    field ∈ fields := by
  have hinsert (name : String) (value : Value) (map : JsonMap)
      (hfield : field ∈ mapInsert name value map) : field = (name, value) ∨ field ∈ map := by
    induction map with
    | nil => simpa [mapInsert] using hfield
    | cons other rest ih =>
      rw [mapInsert] at hfield
      split_ifs at hfield
      · simpa using hfield
      · simp only [List.mem_cons] at hfield ⊢
        exact hfield.imp_right .inr
      · simp only [List.mem_cons] at hfield ⊢
        obtain hfield | hfield := hfield
        · exact .inr (.inl hfield)
        · exact (ih hfield).imp_right .inr
  have hfold (rest map : JsonMap)
      (hfield : field ∈ rest.foldl (fun map field => mapInsert field.1 field.2 map) map) :
      field ∈ rest ∨ field ∈ map := by
    induction rest generalizing map with
    | nil => exact .inr hfield
    | cons other rest ih =>
      obtain hrest | hmap := ih _ hfield
      · exact .inl (List.mem_cons_of_mem _ hrest)
      · obtain rfl | hmap := hinsert other.1 other.2 map hmap
        · exact .inl (by simp)
        · exact .inr hmap
  simpa using hfold fields [] h

variable {doubles}

/-- The text of a collected map is that of a captured object only if the columns are in the
order of their names and the fields are the captured ones. -/
theorem collected_eq_captured (hlawful : doubles.Lawful) {columns : List Identifier} {row : Row}
    {fields : JsonMap} (hnames : fields.map Prod.fst = columns.map columnName)
    (hfields : ∀ field ∈ fields, Value.WellFormed field.2) :
    valueText doubles (.object (collectMap fields)) = valueText doubles (.object (jsonObject columns row)) ↔
      (columns.map columnName).Pairwise (· < ·) ∧ fields = jsonObject columns row := by
  have hcaptured : (jsonObject columns row).map Prod.fst = columns.map columnName := by
    simp [jsonObject]
  constructor
  · intro h
    have hwellFormed : Value.WellFormed (.object (collectMap fields)) :=
      (fieldsWellFormed_iff _).mpr fun field hfield => hfields field (mem_collectMap hfield)
    have hwellFormed' : Value.WellFormed (.object (jsonObject columns row)) := by
      refine (fieldsWellFormed_iff _).mpr fun field hfield => ?_
      obtain ⟨column, _, rfl⟩ := List.mem_map.mp hfield
      exact wellFormed_syncJson _
    have hdelimited : Delimited [] := fun c hc => by cases hc
    have hobjects := (valueText_append_inj hlawful hwellFormed hwellFormed' hdelimited hdelimited
      (by rw [h])).1
    have hmaps : collectMap fields = jsonObject columns row := Value.object.inj hobjects
    have hsorted : (columns.map columnName).Pairwise (· < ·) := by
      have := sorted_collectMap fields
      rwa [SortedFields, hmaps, hcaptured] at this
    refine ⟨hsorted, ?_⟩
    rw [← hmaps, collectMap_of_sorted]
    rwa [SortedFields, hnames]
  · intro h
    obtain ⟨hsorted, rfl⟩ := h
    rw [collectMap_of_sorted]
    rwa [SortedFields, hcaptured]

theorem Row.lookup_of_mem {row : Row} {column : Identifier} (h : column ∈ row.map Prod.fst) :
    row.lookup column = some (row.value column) := by
  have hsome : (row.lookup column).isSome = true := by
    obtain ⟨⟨name, value⟩, hfield, rfl⟩ := List.mem_map.mp h
    exact List.lookup_isSome_iff.mpr ⟨(name, value), hfield, by simp⟩
  obtain ⟨found, hfound⟩ := Option.isSome_iff_exists.mp hsome
  simp [Row.value, hfound]

theorem Row.Of.lookup {row : Row} {table : TableSchema} (h : row.Of table) {column : Identifier}
    (hcolumn : column ∈ keyColumns table) : row.lookup column = some (row.value column) := by
  apply Row.lookup_of_mem
  rw [h]
  obtain ⟨⟨ordinal, name⟩, hpair, rfl⟩ := List.mem_map.mp hcolumn
  rw [List.mem_insertionSort, List.mem_filterMap] at hpair
  obtain ⟨c, hc, hordinal⟩ := hpair
  obtain ⟨_, _, hname⟩ := Option.map_eq_some_iff.mp hordinal
  exact List.mem_map.mpr ⟨c, hc, (Prod.mk.inj hname).2⟩

theorem resultField_ok_iff {row : Row} {column : Identifier}
    (hlookup : row.lookup column = some (row.value column)) (field : String × Value) :
    resultField row column = .ok field ↔
      field.1 = columnName column ∧ resultJson (.fromValueRef (row.value column)) = .ok field.2 := by
  simp only [resultField, bind_ok_iff, orError_ok_iff, pure_ok_iff, hlookup, Option.some.injEq]
  constructor
  · intro h
    obtain ⟨value, rfl, json, hjson, rfl⟩ := h
    exact ⟨rfl, hjson⟩
  · intro h
    obtain ⟨hname, hjson⟩ := h
    exact ⟨_, rfl, field.2, hjson, Prod.ext hname.symm rfl⟩

theorem resultFields_names {row : Row} {columns : List Identifier} {fields : JsonMap}
    (hlookup : ∀ column ∈ columns, row.lookup column = some (row.value column))
    (h : List.Forall₂ (fun column field => resultField row column = .ok field) columns fields) :
    fields.map Prod.fst = columns.map columnName ∧ ∀ field ∈ fields, Value.WellFormed field.2 := by
  induction h with
  | nil => exact ⟨rfl, by simp⟩
  | cons hfield _ ih =>
    obtain ⟨hname, hjson⟩ := (resultField_ok_iff (hlookup _ (by simp)) _).mp hfield
    obtain ⟨hnames, hwellFormed⟩ := ih fun column hcolumn => hlookup column (List.mem_cons_of_mem _ hcolumn)
    refine ⟨by simp [hname, hnames], fun field hmem => ?_⟩
    obtain rfl | hmem := List.mem_cons.mp hmem
    · exact wellFormed_resultJson hjson
    · exact hwellFormed field hmem

theorem storedKey_eq_captured (hlawful : doubles.Lawful) {table : TableSchema} {row : Row}
    (hrow : row.Of table) :
    storedKey doubles table row = .ok (capturedKey doubles table row) ↔
      KeysInNameOrder table ∧ ∀ column ∈ keyColumns table, (row.value column).isPlain = true := by
  have hlookup (column : Identifier) (hcolumn : column ∈ keyColumns table) := hrow.lookup hcolumn
  have hplain {column : Identifier} (hcolumn : column ∈ keyColumns table) :
      resultField row column = .ok (columnName column, syncJson (row.value column)) ↔
        (row.value column).isPlain = true := by
    rw [resultField_ok_iff (hlookup column hcolumn), resultJson_eq_syncJson]
    simp
  have hcaptured : List.Forall₂ (fun column field => resultField row column = .ok field)
      (keyColumns table) (jsonObject (keyColumns table) row) ↔
        ∀ column ∈ keyColumns table, (row.value column).isPlain = true := by
    rw [jsonObject, List.forall₂_map_right_iff, List.forall₂_same]
    exact forall₂_congr fun column hcolumn => hplain hcolumn
  simp only [storedKey, bind_ok_iff, pure_ok_iff, mapM_ok_iff]
  constructor
  · intro h
    obtain ⟨fields, hfields, htext⟩ := h
    obtain ⟨hnames, hwellFormed⟩ := resultFields_names hlookup hfields
    obtain ⟨hsorted, rfl⟩ := (collected_eq_captured hlawful hnames hwellFormed).mp htext
    exact ⟨hsorted, hcaptured.mp hfields⟩
  · intro h
    obtain ⟨hsorted, hvalues⟩ := h
    have hfields := hcaptured.mpr hvalues
    obtain ⟨hnames, hwellFormed⟩ := resultFields_names hlookup hfields
    exact ⟨_, hfields, (collected_eq_captured hlawful hnames hwellFormed).mpr ⟨hsorted, rfl⟩⟩

theorem resolveObject_spec {keys : List Identifier} {fields : JsonMap}
    {resolved : List (Identifier × Value)} (hfields : ∀ field ∈ fields, Value.WellFormed field.2)
    (h : List.Forall₂ (fun column pair => ∃ value, fields.lookup (columnName column) = some value ∧
      (column, value) = pair) keys resolved) :
    resolved.map Prod.fst = keys ∧ ∀ pair ∈ resolved, Value.WellFormed pair.2 := by
  induction h with
  | nil => exact ⟨rfl, by simp⟩
  | cons hpair _ ih =>
    obtain ⟨found, hfound, rfl⟩ := hpair
    obtain ⟨hnames, hwellFormed⟩ := ih
    refine ⟨by simp [hnames], fun pair hmem => ?_⟩
    obtain rfl | hmem := List.mem_cons.mp hmem
    · obtain ⟨before, after, hsplit, _⟩ := List.lookup_eq_some_iff.mp hfound
      exact hfields (_, found) (by rw [hsplit]; exact List.mem_append_right before (List.mem_cons_self ..))
    · exact hwellFormed pair hmem

/-- The key values of a mutation are values of its JSON, one for each key column. -/
theorem resolveColumns_spec {keys : List Identifier} {value : Value} (hvalue : Value.WellFormed value)
    {resolved : List (Identifier × Value)} (h : resolveColumns keys value = .ok resolved) :
    resolved.map Prod.fst = keys ∧ ∀ pair ∈ resolved, Value.WellFormed pair.2 := by
  cases value with
  | object fields =>
    have hobject : resolveColumns.resolveObject keys fields = .ok resolved := by
      cases keys with
      | nil => exact h
      | cons column rest => cases rest <;> exact h
    simp only [resolveColumns.resolveObject, bind_ok_iff, mapM_ok_iff, orError_ok_iff,
      pure_ok_iff] at hobject
    obtain ⟨_, _, hpairs⟩ := hobject
    exact resolveObject_spec ((fieldsWellFormed_iff fields).mp hvalue) hpairs
  | _ =>
    cases keys with
    | nil => cases h
    | cons column rest =>
      cases rest with
      | nil =>
        cases h
        exact ⟨rfl, by simpa using hvalue⟩
      | cons other rest => cases h

theorem resolvedKey_eq_captured (hlawful : doubles.Lawful) {schema : SchemaSnapshot}
    {table : TableSchema} (htable : schema.table table.name = some table) {row : Row} {value : Value}
    (hvalue : Value.WellFormed value) {resolved : List (Identifier × Value)} {key : List Char}
    (hresolve : resolvePrimaryKey doubles schema table.name value = .ok (resolved, key)) :
    key = capturedKey doubles table row ↔
      KeysInNameOrder table ∧ ∀ pair ∈ resolved, pair.2 = syncJson (row.value pair.1) := by
  simp only [resolvePrimaryKey, bind_ok_iff, orError_ok_iff, pure_ok_iff, htable,
    Option.some.injEq] at hresolve
  obtain ⟨_, rfl, _, _, _, hcolumns, _, _, heq⟩ := hresolve
  cases heq
  obtain ⟨hnames, hwellFormed⟩ := resolveColumns_spec hvalue hcolumns
  rw [capturedKey, collected_eq_captured hlawful]
  · refine and_congr_right fun _ => ?_
    have hpairs : jsonObject (keyColumns table) row =
        resolved.map fun pair => (columnName pair.1, syncJson (row.value pair.1)) := by
      rw [jsonObject, ← hnames, List.map_map]
      rfl
    rw [hpairs, List.map_inj_left]
    simp
  · simp [← hnames]
  · intro field hfield
    obtain ⟨pair, hpair, rfl⟩ := List.mem_map.mp hfield
    exact hwellFormed pair hpair

/-- The three spellings of the key of a row, and what rests on them: a snapshot row carries
the version of its key, and a mutation finds the change that was captured for it. -/
structure RowKeysAgree (doubles : Doubles) (table : TableSchema) (row : Row) (key : List Char) :
    Prop where
  stored : storedKey doubles table row = .ok (capturedKey doubles table row)
  resolved : key = capturedKey doubles table row
  version : ∀ (s : SyncTables) (version : VersionRow),
    s.versions table.name (capturedKey doubles table row) = some version → version.deleted = false →
    (storedKey doubles table row).map (s.loadSyncVersion table.name) =
      .ok (version.rowVersion, version.lastSequence)
  finds : ∀ (s : SyncTables) (context : RequestContext) (operation : SyncChangeOperation)
    (mutationId : String), context.clientMutationId = some mutationId →
    ((s.capture doubles context table operation row).loadCapturedSyncChange context.transactionId
      table.name key mutationId).map Prod.fst = some s.nextSequence

/-- The keys agree exactly for tables whose key columns stand in the order of their names,
rows whose key values query results spell plainly, and mutations that spell each key value as
the triggers do. -/
theorem row_keys_agree_iff (hlawful : doubles.Lawful) (schema : SchemaSnapshot) (table : TableSchema)
    (htable : schema.table table.name = some table) (row : Row) (hrow : row.Of table) (value : Value)
    (hvalue : Value.WellFormed value) (resolved : List (Identifier × Value)) (key : List Char)
    (hresolve : resolvePrimaryKey doubles schema table.name value = .ok (resolved, key)) :
    RowKeysAgree doubles table row key ↔
      KeysInNameOrder table ∧ (∀ column ∈ keyColumns table, (row.value column).isPlain = true) ∧
        ∀ pair ∈ resolved, pair.2 = syncJson (row.value pair.1) := by
  have hstored := storedKey_eq_captured hlawful hrow
  have hresolved : key = capturedKey doubles table row ↔ _ :=
    resolvedKey_eq_captured hlawful htable hvalue hresolve
  constructor
  · intro h
    obtain ⟨horder, hplain⟩ := hstored.mp h.stored
    exact ⟨horder, hplain, (hresolved.mp h.resolved).2⟩
  · intro h
    obtain ⟨horder, hplain, hvalues⟩ := h
    have hstored := hstored.mpr ⟨horder, hplain⟩
    have hresolved := hresolved.mpr ⟨horder, hvalues⟩
    refine ⟨hstored, hresolved, ?_, ?_⟩
    · intro s version hversion hdeleted
      rw [hstored]
      simp [Except.map, SyncTables.loadSyncVersion, hversion, hdeleted]
    · intro s context operation mutationId hmutation
      simp [SyncTables.loadCapturedSyncChange, SyncTables.capture, hresolved, hmutation]

def sampleDoubles : Doubles where
  text bits := bits.toNat.repr.toList ++ ['e', '0']
  ofInt _ := 0

theorem sampleDoubles_lawful : sampleDoubles.Lawful where
  injective := by
    intro a b _ _ h
    have htext := List.append_cancel_right h
    exact UInt64.toNat_inj.mp (Nat.repr_injective (String.toList_inj.mp htext))
  chars := by
    intro a _ c hc
    obtain hc | hc := List.mem_append.mp hc
    · simp [isNumberChar, repr_chars _ c hc]
    · have hends : ['e', '0'].all isNumberChar = true := by decide
      exact List.all_eq_true.mp hends c hc
  head := by
    intro a _
    obtain ⟨c, rest, htext, hc⟩ := repr_head a.toNat
    exact ⟨c, rest ++ ['e', '0'], by simp only [sampleDoubles, htext, List.cons_append], .inl hc⟩
  marked := by
    intro a _
    exact .inr (by simp [sampleDoubles])

def tasks : Identifier := ⟨"tasks".toList, by decide, by decide, by decide⟩

def tenant : Identifier := ⟨"tenant".toList, by decide, by decide, by decide⟩

def idColumn : Identifier := ⟨"id".toList, by decide, by decide, by decide⟩

def taskTenants : TableSchema := ⟨tasks, [⟨tenant, some 2, false⟩, ⟨idColumn, some 1, false⟩], false⟩

def tenantTasks : TableSchema := ⟨tasks, [⟨idColumn, some 2, false⟩, ⟨tenant, some 1, false⟩], false⟩

def firstTask : Row := [(idColumn, .integer 1), (tenant, .text "a")]

def taskOfTenant : Row := [(tenant, .text "a"), (idColumn, .integer 1)]

theorem taskTenants_inNameOrder : KeysInNameOrder taskTenants := by
  have hnames : (keyColumns taskTenants).map columnName = ["id", "tenant"] := by decide +kernel
  rw [KeysInNameOrder, hnames]
  simp only [List.pairwise_cons, List.mem_singleton, forall_eq, List.not_mem_nil, false_implies, implies_true,
    List.Pairwise.nil, and_true]
  decide

theorem row_keys_agree_first_task :
    RowKeysAgree sampleDoubles taskTenants taskOfTenant "\x7b\"id\":1,\"tenant\":\"a\"\x7d".toList :=
  (row_keys_agree_iff sampleDoubles_lawful ⟨[taskTenants]⟩ taskTenants rfl taskOfTenant rfl
    (.object [("id", .number (.posInt 1)), ("tenant", .string "a")]) ⟨trivial, trivial, trivial⟩
    [(idColumn, .number (.posInt 1)), (tenant, .string "a")] _ (by decide +kernel)).mpr
    ⟨taskTenants_inNameOrder, by decide +kernel, by decide +kernel⟩

/-- The triggers keep the order of the key, where the other two sort by name. -/
theorem row_keys_disagree_composite :
    let mutation : Value := .object [("id", .number (.posInt 1)), ("tenant", .string "a")]
    let sorted := "\x7b\"id\":1,\"tenant\":\"a\"\x7d".toList
    capturedKey sampleDoubles tenantTasks firstTask = "\x7b\"tenant\":\"a\",\"id\":1\x7d".toList ∧
      storedKey sampleDoubles tenantTasks firstTask = .ok sorted ∧
      (resolvePrimaryKey sampleDoubles ⟨[tenantTasks]⟩ tasks mutation).map Prod.snd = .ok sorted ∧
      ¬RowKeysAgree sampleDoubles tenantTasks firstTask sorted := by
  have hcaptured : capturedKey sampleDoubles tenantTasks firstTask =
      "\x7b\"tenant\":\"a\",\"id\":1\x7d".toList := by decide +kernel
  refine ⟨hcaptured, by decide +kernel, by decide +kernel, fun h => ?_⟩
  have hresolved := h.resolved
  rw [hcaptured] at hresolved
  exact absurd hresolved (by decide)

end Ffdb.Runtime
