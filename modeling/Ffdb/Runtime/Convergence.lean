import Ffdb.Runtime.Sight

/-! Convergence of a client: from a snapshot on, the changes of every pull bring its rows to
those of a fresh snapshot, as long as no row in sight is replaced by one out of sight. -/
namespace Ffdb.Runtime
open Sql Rls Relation Fallible Excerpt
open Sync (Value JsonMap)

variable {doubles : Doubles} {reader : JsonReader} {db : Database}

section Fields

theorem mapInsert_perm {name : String} {value : Value} {map : JsonMap} (h : name ∉ map.map Prod.fst) :
    (mapInsert name value map).Perm ((name, value) :: map) := by
  induction map with
  | nil => exact List.Perm.refl _
  | cons field rest ih =>
    obtain ⟨other, otherValue⟩ := field
    rw [List.map_cons, List.mem_cons, not_or] at h
    rw [mapInsert, if_neg h.1]
    split_ifs
    · exact List.Perm.refl _
    · exact (List.Perm.cons _ (ih h.2)).trans (List.Perm.swap _ _ _)

theorem collectMap_perm {fields : JsonMap} (h : (fields.map Prod.fst).Nodup) : (collectMap fields).Perm fields := by
  have hfold (fields map : JsonMap) (hall : ((map ++ fields).map Prod.fst).Nodup) :
      (fields.foldl (fun map field => mapInsert field.1 field.2 map) map).Perm (map ++ fields) := by
    induction fields generalizing map with
    | nil => simp
    | cons field rest ih =>
      rw [List.map_append, List.map_cons] at hall
      have hnew : field.1 ∉ map.map Prod.fst := fun hin =>
        (List.nodup_append.mp hall).2.2 field.1 hin field.1 (by simp) rfl
      have hperm : (mapInsert field.1 field.2 map ++ rest).Perm (map ++ field :: rest) :=
        ((mapInsert_perm hnew).append_right rest).trans List.perm_middle.symm
      refine (ih _ ?_).trans hperm
      rw [(hperm.map Prod.fst).nodup_iff, List.map_append, List.map_cons]
      exact hall
  exact hfold fields [] h

theorem Identifier.new_value (identifier : Identifier) : Identifier.new identifier.value = .ok identifier := by
  have hlong : ¬identifier.value.length > 128 := Nat.not_lt.mpr identifier.bounded
  have hprintable : ¬identifier.value.any Text.isControl = true := by simp [identifier.printable]
  rw [Identifier.new, dif_neg identifier.nonempty, dif_neg hlong, dif_neg hprintable]

theorem keyColumns_nodup {table : TableSchema} (h : (table.columns.map ColumnSchema.name).Nodup) :
    (keyColumns table).Nodup := by
  have hsub (columns : List ColumnSchema) : ((columns.filterMap fun column =>
      column.primaryKeyOrdinal.map (·, column.name)).map Prod.snd).Sublist (columns.map ColumnSchema.name) := by
    induction columns with
    | nil => exact List.Sublist.refl _
    | cons column columns ih =>
      rw [List.filterMap_cons]
      cases column.primaryKeyOrdinal with
      | none => exact ih.cons _
      | some ordinal => exact ih.cons_cons _
  exact (((List.perm_insertionSort _ _).map Prod.snd).nodup_iff).mpr (h.sublist (hsub table.columns))

theorem mem_columns_of_key {table : TableSchema} {column : Identifier} (h : column ∈ keyColumns table) :
    column ∈ table.columns.map ColumnSchema.name := by
  obtain ⟨⟨ordinal, name⟩, hpair, rfl⟩ := List.mem_map.mp h
  rw [List.mem_insertionSort, List.mem_filterMap] at hpair
  obtain ⟨c, hc, hordinal⟩ := hpair
  obtain ⟨_, _, hname⟩ := Option.map_eq_some_iff.mp hordinal
  exact List.mem_map.mpr ⟨c, hc, (Prod.mk.inj hname).2⟩

theorem jsonObject_names (columns : List Identifier) (row : Row) :
    (jsonObject columns row).map Prod.fst = columns.map columnName := by
  simp [jsonObject]

theorem names_nodup {columns : List Identifier} (h : columns.Nodup) (row : Row) :
    ((jsonObject columns row).map Prod.fst).Nodup := by
  rw [jsonObject_names]
  exact h.map fun a b hab => columnName_inj hab

/-- The objects of a row whose reals are read as they were written. -/
theorem readFields_of_reals {row : Row} (hfinite : ∀ column, (row.value column).isFinite = true)
    (hreals : ∀ column bits, row.value column = .real bits → reader.double bits = bits) (columns : List Identifier) :
    reader.readFields (jsonObject columns row) = collectMap (jsonObject columns row) := by
  rw [JsonReader.readFields, jsonObject, List.map_map]
  refine congrArg collectMap (List.map_congr_left fun column _ => ?_)
  have hread : reader.readValue (syncJson (row.value column)) = syncJson (row.value column) := by
    cases hvalue : row.value column with
    | real bits =>
      have hbits := hfinite column
      rw [hvalue] at hbits
      have hbits : isFinite bits = true := hbits
      simp [syncJson, hbits, JsonReader.readValue, hreals column bits hvalue]
    | integer value =>
      rw [syncJson, ofInteger]
      split_ifs <;> rfl
    | _ => rfl
  exact congrArg (Prod.mk (columnName column)) hread

/-- The objects of an exact row are read as they are. -/
theorem Row.Exact.readFields {row : Row} {table : TableSchema} (h : row.Exact reader table)
    (columns : List Identifier) : reader.readFields (jsonObject columns row) = collectMap (jsonObject columns row) :=
  readFields_of_reals h.finite h.reals columns

/-- The parameters that logged values are bound to are the values of the row. -/
theorem candidateRow_eq {row : Row} {table : TableSchema} (hfinite : ∀ column, (row.value column).isFinite = true)
    (hof : row.Of table) (hcolumns : (table.columns.map ColumnSchema.name).Nodup) :
    ∃ candidate, Database.candidateRow doubles (collectMap (rowObject table row)) = .ok candidate ∧
      ∀ column, Row.value candidate column = row.value column := by
  have hfields : List.Forall₂ (fun (field : String × Value) column =>
      field = (columnName column, syncJson (row.value column)))
      (rowObject table row) (table.columns.map ColumnSchema.name) := by
    rw [rowObject, jsonObject, List.forall₂_map_left_iff, List.forall₂_same]
    exact fun _ _ => rfl
  obtain ⟨columns, hsorted, hperm⟩ :=
    List.perm_comp_forall₂ (collectMap_perm (names_nodup hcolumns row)) hfields
  refine ⟨columns.map fun column => (column, row.value column), ?_, fun column => ?_⟩
  · rw [Database.candidateRow, mapM_ok_iff, List.forall₂_map_right_iff]
    refine hsorted.imp fun field column hfield => ?_
    subst hfield
    simp only [bind_ok_iff, pure_ok_iff]
    refine ⟨column, ?_, row.value column, jsonParameter_syncJson (hfinite column), rfl⟩
    rw [columnName, String.toList_ofList, Identifier.new_value]
    rfl
  · have hnodup : columns.Nodup := hperm.nodup_iff.mpr hcolumns
    by_cases hcolumn : column ∈ columns
    · refine @Row.value_of_mem (columns.map fun column => (column, row.value column)) ?_
        (column, row.value column) (List.mem_map.mpr ⟨column, hcolumn, rfl⟩)
      rw [List.map_map]
      exact (List.map_id columns).symm ▸ hnodup
    · have hof : row.map Prod.fst = table.columns.map ColumnSchema.name := hof
      have hmissing (fields : Row) (hfields : column ∉ fields.map Prod.fst) : fields.value column = .null := by
        have hnone : fields.lookup column = none := by
          rw [List.lookup_eq_none_iff]
          intro field hfield
          have hne : field.1 ≠ column := fun hsame => hfields (List.mem_map.mpr ⟨field, hfield, hsame⟩)
          simpa using hne.symm
        rw [Row.value, hnone]
        rfl
      rw [hmissing, hmissing]
      · rw [hof]
        exact fun hin => hcolumn (hperm.mem_iff.mpr hin)
      · rw [List.map_map]
        exact fun hin => hcolumn ((List.map_id columns) ▸ hin)

end Fields

section Mirror

def publicKeyText (doubles : Doubles) (table : TableSchema) (row : Row) : List Char :=
  valueText doubles (publicKey (collectMap (jsonObject (keyColumns table) row)))

theorem wellFormed_collected (columns : List Identifier) (row : Row) :
    Value.FieldsWellFormed (collectMap (jsonObject columns row)) := by
  refine (fieldsWellFormed_iff _).mpr fun field hfield => ?_
  obtain ⟨column, _, rfl⟩ := List.mem_map.mp (mem_collectMap hfield)
  exact wellFormed_syncJson _

theorem wellFormed_publicKey {fields : JsonMap} (h : Value.FieldsWellFormed fields) :
    Value.WellFormed (publicKey fields) := by
  rw [publicKey.eq_def]
  split
  · exact h.1
  · exact h

/-- Keys of one table are shown alike only if they are alike. -/
theorem collected_of_publicKey {columns : List Identifier} (hcolumns : columns.Nodup) {a b : Row}
    (h : publicKey (collectMap (jsonObject columns a)) = publicKey (collectMap (jsonObject columns b))) :
    collectMap (jsonObject columns a) = collectMap (jsonObject columns b) := by
  have hlength (row : Row) : (collectMap (jsonObject columns row)).length = columns.length := by
    rw [(collectMap_perm (names_nodup hcolumns row)).length_eq, jsonObject, List.length_map]
  obtain _ | ⟨column, _ | ⟨second, rest⟩⟩ := columns
  · rfl
  · have hvalue : syncJson (a.value column) = syncJson (b.value column) := h
    simp [collectMap, jsonObject, mapInsert, hvalue]
  · have hobject (fields : JsonMap) (hfields : fields.length = rest.length+2) :
        publicKey fields = .object fields := by
      obtain _ | ⟨_, _ | ⟨_, _⟩⟩ := fields
      · cases hfields
      · cases hfields
      · rfl
    rw [hobject _ (hlength a), hobject _ (hlength b)] at h
    exact Value.object.inj h

/-- The two texts of a key tell the same rows apart. -/
theorem publicKeyText_eq_iff (hlawful : doubles.Lawful) {table : TableSchema}
    (hcolumns : (table.columns.map ColumnSchema.name).Nodup) {a b : Row} (ha : a.Exact reader table)
    (hb : b.Exact reader table) :
    publicKeyText doubles table a = publicKeyText doubles table b ↔
      capturedKey doubles table a = capturedKey doubles table b := by
  have hkeys := keyColumns_nodup hcolumns
  have hdelimited : Delimited [] := fun c hc => by cases hc
  constructor
  · intro h
    have hpublic := (valueText_append_inj hlawful (wellFormed_publicKey (wellFormed_collected _ a))
      (wellFormed_publicKey (wellFormed_collected _ b)) hdelimited hdelimited (congrArg (· ++ []) h)).1
    have hcollected := collected_of_publicKey hkeys hpublic
    have hfields : jsonObject (keyColumns table) a = jsonObject (keyColumns table) b := by
      refine List.map_congr_left fun column hcolumn => ?_
      have hmem : (columnName column, syncJson (a.value column)) ∈ jsonObject (keyColumns table) b := by
        apply mem_collectMap
        rw [← hcollected, (collectMap_perm (names_nodup hkeys a)).mem_iff]
        exact List.mem_map.mpr ⟨column, hcolumn, rfl⟩
      obtain ⟨other, _, hother⟩ := List.mem_map.mp hmem
      obtain ⟨hname, hvalue⟩ := Prod.mk.inj hother
      rw [← hvalue, columnName_inj hname]
    rw [capturedKey, capturedKey, hfields]
  · intro h
    have hfields : jsonObject (keyColumns table) a = jsonObject (keyColumns table) b := by
      refine List.map_congr_left fun column hcolumn => ?_
      rw [value_eq_of_capturedKey hlawful ha.toStorable hb.toStorable h column hcolumn]
    rw [publicKeyText, publicKeyText, hfields]

def heldFields (doubles : Doubles) (table : TableSchema) (values : JsonMap) : Option JsonMap :=
  (decodeRow doubles table values).map fun row => collectMap (rowObject table row)

/-- The rows of a client are those of a store, under the keys that are shown for them. -/
structure Mirrors (doubles : Doubles) (reader : JsonReader) (tables : List PhysicalTable) (rows : Replica)
    (store : Store (Identifier × List Char) JsonMap) : Prop where
  held : ∀ table, Keyed tables table → ∀ row : Row, row.Exact reader table.schema →
    rows table.schema.name (publicKeyText doubles table.schema row) =
      (store (table.schema.name, capturedKey doubles table.schema row)).bind (heldFields doubles table.schema)
  only : ∀ name key, rows name key ≠ none → ∃ table, Keyed tables table ∧ table.schema.name = name ∧
    ∃ row : Row, row.Exact reader table.schema ∧ publicKeyText doubles table.schema row = key

variable {tables : List PhysicalTable} {rows rows' : Replica} {store : Store (Identifier × List Char) JsonMap}

theorem Mirrors.unique (h : Mirrors doubles reader tables rows store)
    (h' : Mirrors doubles reader tables rows' store) : rows = rows' := by
  funext name key
  by_cases hknown : ∃ table, Keyed tables table ∧ table.schema.name = name ∧
      ∃ row : Row, row.Exact reader table.schema ∧ publicKeyText doubles table.schema row = key
  · obtain ⟨table, hkeyed, rfl, row, hrow, rfl⟩ := hknown
    rw [h.held table hkeyed row hrow, h'.held table hkeyed row hrow]
  · have hnone : rows name key = none := by
      by_contra hsome
      exact hknown (h.only name key hsome)
    have hnone' : rows' name key = none := by
      by_contra hsome
      exact hknown (h'.only name key hsome)
    rw [hnone, hnone']

def ChangeRow.told (reader : JsonReader) (change : ChangeRow) : SyncChange where
  sequence := change.sequence
  transactionId := change.transactionId
  table := change.table
  primaryKey := match reader.fromStr change.primaryKeyJson with
    | some (.object fields) => publicKey fields
    | _ => .null
  operation := change.operation
  rowVersion := change.rowVersion
  values := change.valuesJson.map reader.readFields
  tombstone := change.tombstoneJson.map reader.readFields
  clientMutationId := change.clientMutationId

theorem fromStr_capturedKey (hreader : reader.Lawful doubles) {table : TableSchema} {row : Row}
    (h : row.Exact reader table) :
    reader.fromStr (capturedKey doubles table row) =
      some (.object (collectMap (jsonObject (keyColumns table) row))) := by
  rw [capturedKey, hreader, h.readFields]

theorem told_primaryKey (hreader : reader.Lawful doubles) {change : ChangeRow} {table : TableSchema} {row : Row}
    (h : row.Exact reader table) (hkey : change.primaryKeyJson = capturedKey doubles table row) :
    valueText doubles (change.told reader).primaryKey = publicKeyText doubles table row := by
  simp only [ChangeRow.told, hkey, fromStr_capturedKey hreader h]
  rfl

/-- A change that the client is told of does to its rows what it does to the store. -/
theorem Mirrors.receive (hlawful : doubles.Lawful) (hreader : reader.Lawful doubles)
    (h : Mirrors doubles reader tables rows store) {change : ChangeRow}
    (hproper : change.Proper doubles tables reader)
    (hcolumns : ∀ table ∈ tables, (table.schema.columns.map ColumnSchema.name).Nodup)
    (hnames : ∀ table ∈ tables, tables.find? (·.schema.name = table.schema.name) = some table) :
    Mirrors doubles reader tables (rows.receive doubles (change.told reader)) (store.apply change.update) := by
  obtain ⟨table, hmem, hkey, row, hrow, hname, hjson, hvalue⟩ := hproper
  have hkeyed : Keyed tables table := ⟨hmem, hnames table hmem, hkey, hcolumns table hmem⟩
  have htext := told_primaryKey hreader hrow hjson
  have htable : (change.told reader).table = table.schema.name := hname
  refine ⟨fun other hother otherRow hotherRow => ?_, fun name key hsome => ?_⟩
  · rw [Replica.receive, htable, htext]
    simp only [Store.apply, ChangeRow.update, hname, hjson, Prod.mk.injEq]
    by_cases hsame : table.schema.name = other.schema.name
    · obtain rfl : table = other := Option.some.inj ((hsame ▸ hkeyed.found).symm.trans hother.found)
      simp only [true_and, publicKeyText_eq_iff hlawful hkeyed.columns hrow hotherRow]
      by_cases htexts : capturedKey doubles table.schema row = capturedKey doubles table.schema otherRow
      · rw [if_pos htexts, if_pos htexts, hvalue]
        cases hvalues : change.valuesJson with
        | none => simp [ChangeRow.told, hvalues]
        | some values =>
          obtain rfl : values = rowObject table.schema row := by simpa [hvalues] using hvalue
          have hdecode := @decodeRow_rowObject doubles row table.schema hrow.toStorable hkeyed.columns
          have hread : reader.readFields (rowObject table.schema row) = collectMap (rowObject table.schema row) :=
            hrow.readFields _
          simp [ChangeRow.told, hvalues, heldFields, hdecode, hread]
      · rw [if_neg htexts, if_neg htexts]
        exact h.held table hother otherRow hotherRow
    · simp only [hsame, false_and, if_false]
      exact h.held other hother otherRow hotherRow
  · rw [Replica.receive, htable, htext] at hsome
    split_ifs at hsome with hsame
    · exact ⟨table, hkeyed, hsame.1, row, hrow, hsame.2⟩
    · exact h.only name key hsome

theorem Mirrors.receiveAll (hlawful : doubles.Lawful) (hreader : reader.Lawful doubles)
    {changes : List ChangeRow} (hproper : ∀ change ∈ changes, change.Proper doubles tables reader)
    (hcolumns : ∀ table ∈ tables, (table.schema.columns.map ColumnSchema.name).Nodup)
    (hnames : ∀ table ∈ tables, tables.find? (·.schema.name = table.schema.name) = some table)
    (h : Mirrors doubles reader tables rows store) :
    Mirrors doubles reader tables ((changes.map (·.told reader)).foldl (Replica.receive doubles) rows)
      ((changes.map ChangeRow.update).foldl Store.apply store) := by
  induction changes generalizing rows store with
  | nil => exact h
  | cons change changes ih =>
    refine ih (fun other hother => hproper other (List.mem_cons_of_mem _ hother)) ?_
    exact h.receive hlawful hreader (hproper change (by simp)) hcolumns hnames

end Mirror

section Pages
variable {bare : Verdict} {auth : AuthContext} {sees : Identifier → Row → Bool}

/-- Logged changes as a pull takes them: each can be loaded and shown, and the policies say of it
what they say of its row. -/
structure Loads (doubles : Doubles) (reader : JsonReader) (bare : Verdict) (auth : AuthContext)
    (sees : Identifier → Row → Bool) (db : Database) (change : ChangeRow) (loaded : SyncChange) : Prop where
  load : Database.loadSyncChange reader change = .ok loaded
  key : publicSyncPrimaryKey loaded.primaryKey = .ok (change.told reader).primaryKey
  told : { loaded with primaryKey := (change.told reader).primaryKey } = change.told reader
  seen : ∃ row, loaded.values.or loaded.tombstone = some row ∧
    db.evaluateSelectPolicy doubles bare auth loaded.table row =
      .ok (change.update.shown (sight doubles db.tables sees))

/-- A proper change loads, where the policies look at nothing but its row. -/
theorem ChangeRow.Proper.loads (hreader : reader.Lawful doubles) {change : ChangeRow}
    (h : change.Proper doubles db.tables reader)
    (hkeyed : ∀ table ∈ db.tables, keyColumns table.schema ≠ [] → Keyed db.tables table)
    (hverdict : ∀ table ∈ db.tables, keyColumns table.schema ≠ [] → ∀ row : Row, row.Of table.schema →
      ∀ candidate : Row, (∀ column, candidate.value column = row.value column) →
        db.sees bare auth table.schema.name candidate = sees table.schema.name row) :
    ∃ loaded, Loads doubles reader bare auth sees db change loaded := by
  obtain ⟨table, hmem, hkey, row, hrow, hname, hjson, hvalue⟩ := h
  have hkeyed := hkeyed table hmem hkey
  have hstr := fromStr_capturedKey hreader hrow
  have hread : reader.readFields (rowObject table.schema row) = collectMap (rowObject table.schema row) :=
    hrow.readFields _
  refine ⟨{ change.told reader with
    primaryKey := .object (collectMap (jsonObject (keyColumns table.schema) row)) }, ?_, ?_, rfl, ?_⟩
  · simp only [Database.loadSyncChange, hjson, hstr]
    rfl
  · have hnonempty : collectMap (jsonObject (keyColumns table.schema) row) ≠ [] := by
      intro hempty
      have hlength := (collectMap_perm (names_nodup (keyColumns_nodup hkeyed.columns) row)).length_eq
      rw [hempty, jsonObject, List.length_map] at hlength
      exact hkey (List.length_eq_zero_iff.mp hlength.symm)
    simp only [ChangeRow.told, hjson, hstr]
    rw [publicSyncPrimaryKey.eq_def]
    split
    · next heq => exact absurd (Value.object.inj heq) hnonempty
    · next heq => rw [Value.object.inj heq]
    · next hnot => exact absurd rfl (hnot _)
  · refine ⟨collectMap (rowObject table.schema row), ?_, ?_⟩
    · simp only [ChangeRow.told, ← Option.map_or, hvalue, Option.map_some, hread]
    · obtain ⟨candidate, hcandidate, hvalues⟩ :=
        @candidateRow_eq doubles row table.schema hrow.finite hrow.of hkeyed.columns
      have hdecode := @decodeRow_rowObject doubles row table.schema hrow.toStorable hkeyed.columns
      have hseen := hverdict table hmem hkey row hrow.of candidate hvalues
      simp only [Database.evaluateSelectPolicy, ChangeRow.told, hname, hcandidate]
      rw [Update.shown, ChangeRow.update, hvalue, hname, Option.getD_some, sight_of_decode hkeyed hdecode]
      exact congrArg Except.ok hseen

theorem examine_cons {limit : Nat} {page : SyncPullResult} {change : ChangeRow} {loaded : SyncChange}
    {rest : List SyncChange} (h : Loads doubles reader bare auth sees db change loaded) :
    db.examine doubles bare auth limit page (loaded :: rest) =
      if change.update.shown (sight doubles db.tables sees) then
        if page.changes.length = limit then .ok { page with hasMore := true }
        else db.examine doubles bare auth limit
          { page with changes := page.changes ++ [change.told reader], cursor := change.sequence } rest
      else db.examine doubles bare auth limit { page with cursor := change.sequence } rest := by
  obtain ⟨row, hrow, hseen⟩ := h.seen
  have hloaded : loaded.sequence = change.sequence := congrArg SyncChange.sequence h.told
  have hstep : db.examine doubles bare auth limit page (loaded :: rest) =
      if change.update.shown (sight doubles db.tables sees) then
        if page.changes.length = limit then .ok { page with hasMore := true }
        else db.examine doubles bare auth limit { page with
          changes := page.changes ++ [{ loaded with primaryKey := (change.told reader).primaryKey }]
          cursor := loaded.sequence } rest
      else db.examine doubles bare auth limit { page with cursor := loaded.sequence } rest := by
    rw [Database.examine, h.key, hrow]
    simp only [hseen]
    rfl
  rw [hstep, h.told, hloaded]

/-- The loop of a pull takes the changes up to the first that finds no place on the page. -/
theorem examine_spec (limit : Nat) (page : SyncPullResult) {changes : List ChangeRow} {loaded : List SyncChange}
    (h : List.Forall₂ (Loads doubles reader bare auth sees db) changes loaded)
    (hsequences : changes.map ChangeRow.sequence = List.range' (page.cursor+1) changes.length) :
    ∃ taken rest, changes = taken ++ rest ∧
      db.examine doubles bare auth limit page loaded =
        .ok ⟨page.changes ++ (taken.filter (·.update.shown (sight doubles db.tables sees))).map (·.told reader),
          page.cursor+taken.length, page.hasMore || !rest.isEmpty⟩ ∧
      (rest ≠ [] → page.changes.length+
        (taken.filter (·.update.shown (sight doubles db.tables sees))).length = limit) := by
  induction h generalizing page with
  | nil => exact ⟨[], [], rfl, by simp [Database.examine], by simp⟩
  | @cons change loaded changes rest hloads _ ih =>
    rw [List.map_cons, List.length_cons, List.range'_succ, List.cons.injEq] at hsequences
    obtain ⟨hsequence, hsequences⟩ := hsequences
    rw [examine_cons hloads]
    cases hshown : change.update.shown (sight doubles db.tables sees) with
    | true =>
      by_cases hfull : page.changes.length = limit
      · refine ⟨[], change :: changes, rfl, ?_, fun _ => by simpa using hfull⟩
        simp [hfull]
      · obtain ⟨taken, left, rfl, hexamine, hleft⟩ := ih
          { page with changes := page.changes ++ [change.told reader], cursor := change.sequence }
          (by simpa [hsequence] using hsequences)
        refine ⟨change :: taken, left, rfl, ?_, fun hne => ?_⟩
        · rw [if_pos rfl, if_neg hfull, hexamine, List.filter_cons, hshown]
          simp [hsequence, Nat.add_comm, Nat.add_left_comm]
        · have hcount := hleft hne
          rw [List.filter_cons, hshown]
          simp only [List.length_append, List.length_cons, List.length_nil, if_true] at hcount ⊢
          omega
    | false =>
      obtain ⟨taken, left, rfl, hexamine, hleft⟩ := ih { page with cursor := change.sequence }
        (by simpa [hsequence] using hsequences)
      refine ⟨change :: taken, left, rfl, ?_, fun hne => ?_⟩
      · rw [if_neg (by simp), hexamine, List.filter_cons, hshown]
        simp [hsequence, Nat.add_comm, Nat.add_left_comm]
      · rw [List.filter_cons, hshown]
        exact hleft hne

theorem forall₂_of_forall {α β : Type} {R : α → β → Prop} {as : List α} (h : ∀ a ∈ as, ∃ b, R a b) :
    ∃ bs, List.Forall₂ R as bs := by
  induction as with
  | nil => exact ⟨[], .nil⟩
  | cons a as ih =>
    obtain ⟨b, hb⟩ := h a (by simp)
    obtain ⟨bs, hbs⟩ := ih fun a ha => h a (List.mem_cons_of_mem _ ha)
    exact ⟨b :: bs, .cons hb hbs⟩

namespace SyncTables.Numbered

theorem sequences_drop {s : SyncTables} (h : s.Numbered) (after : Nat) :
    (s.changes.drop after).map ChangeRow.sequence = List.range' (after+1) (s.changes.drop after).length := by
  rw [List.map_drop, h.sequences, List.length_drop, List.drop_range', Nat.mul_one, Nat.add_comm]

/-- The changes behind a sequence are the log without so many. -/
theorem filter_sequence {s : SyncTables} (h : s.Numbered) (after : Nat) :
    s.changes.filter (after < ·.sequence) = s.changes.drop after := by
  have hsplit := List.take_append_drop after s.changes
  have htaken : (s.changes.take after).filter (after < ·.sequence) = [] := by
    rw [List.filter_eq_nil_iff]
    intro change hchange
    have hmem : change.sequence ∈ (s.changes.take after).map ChangeRow.sequence := List.mem_map_of_mem hchange
    rw [List.map_take, h.sequences, List.mem_take_iff_getElem] at hmem
    obtain ⟨i, hi, hsequence⟩ := hmem
    rw [List.getElem_range'] at hsequence
    simp only [decide_eq_true_eq]
    omega
  have hdropped : (s.changes.drop after).filter (after < ·.sequence) = s.changes.drop after := by
    rw [List.filter_eq_self]
    intro change hchange
    have hmem : change.sequence ∈ (s.changes.drop after).map ChangeRow.sequence := List.mem_map_of_mem hchange
    rw [h.sequences_drop] at hmem
    have hbound := (List.mem_range'_1.mp hmem).1
    exact decide_eq_true (by omega)
  calc s.changes.filter (after < ·.sequence)
      = (s.changes.take after ++ s.changes.drop after).filter (after < ·.sequence) := by rw [hsplit]
    _ = s.changes.drop after := by rw [List.filter_append, htaken, hdropped, List.nil_append]

theorem loadSyncChanges_eq (h : db.sync.Numbered) (after limit : Nat) :
    db.loadSyncChanges reader after limit =
      ((db.sync.changes.drop after).take limit).mapM (Database.loadSyncChange reader) := by
  have hsorted : (db.sync.changes.drop after).Pairwise fun a b => a.sequence ≤ b.sequence := by
    have hpairs : ((db.sync.changes.drop after).map ChangeRow.sequence).Pairwise (· ≤ ·) := by
      rw [h.sequences_drop]
      exact (List.pairwise_lt_range' 1).imp Nat.le_of_lt
    exact List.pairwise_map.mp hpairs
  rw [Database.loadSyncChanges, h.filter_sequence, hsorted.insertionSort_eq]

end SyncTables.Numbered

theorem sequences_drop {s : SyncTables} (h : s.Ledger) (after : Nat) :
    (s.changes.drop after).map ChangeRow.sequence = List.range' (after+1) (s.changes.drop after).length :=
  h.numbered.sequences_drop after

theorem loadSyncChanges_eq (h : db.sync.Ledger) (after limit : Nat) :
    db.loadSyncChanges reader after limit =
      ((db.sync.changes.drop after).take limit).mapM (Database.loadSyncChange reader) :=
  h.numbered.loadSyncChanges_eq after limit

/-- A pull takes the changes behind its cursor up to some point, and at least one if there are
any. -/
theorem syncPull_spec {limits : ExecutionLimits} (hledger : db.sync.Ledger) {after limit : Nat}
    (hafter : after ≤ db.sync.changes.length) (hlimit : 0 < limit ∧ limit ≤ 1000)
    (hloads : ∀ change ∈ db.sync.changes.drop after,
      ∃ loaded, Loads doubles reader bare auth sees db change loaded) :
    ∃ taken rest, db.sync.changes.drop after = taken ++ rest ∧
      db.syncPull doubles reader limits bare auth after limit =
        .ok ⟨(taken.filter (·.update.shown (sight doubles db.tables sees))).map (·.told reader),
          after+taken.length, !rest.isEmpty⟩ ∧
      (rest ≠ [] → taken ≠ []) := by
  let scan := max (min limits.maxRows 10000) (limit+1)
  have hscan : 0 < scan := by omega
  have hscanned (change : ChangeRow) (hchange : change ∈ (db.sync.changes.drop after).take scan) :=
    hloads change (List.mem_of_mem_take hchange)
  obtain ⟨loaded, hloaded⟩ := forall₂_of_forall hscanned
  have hsequences : ((db.sync.changes.drop after).take scan).map ChangeRow.sequence =
      List.range' (after+1) ((db.sync.changes.drop after).take scan).length := by
    rw [List.map_take, sequences_drop hledger, List.length_take]
    obtain hle | hge := Nat.le_total (db.sync.changes.drop after).length scan
    · rw [List.take_range'_of_length_le hle, Nat.min_eq_right hle]
    · rw [List.take_range'_of_length_ge hge, Nat.min_eq_left hge]
  obtain ⟨taken, left, hsplit, hexamine, hleft⟩ := examine_spec limit ⟨[], after, false⟩ hloaded hsequences
  have hload : db.loadSyncChanges reader after scan = .ok loaded := by
    rw [loadSyncChanges_eq hledger, mapM_ok_iff]
    exact hloaded.imp fun _ _ h => h.load
  have hdrop : db.sync.changes.drop after = taken ++ (left ++ (db.sync.changes.drop after).drop scan) := by
    rw [← List.append_assoc, ← hsplit, List.take_append_drop]
  refine ⟨taken, left ++ (db.sync.changes.drop after).drop scan, hdrop, ?_, fun hrest htaken => ?_⟩
  · have hlimit' : (!(decide (limit = 0) || decide (limit > 1000))) = true := by
      simp only [Bool.not_eq_true', Bool.or_eq_false_iff, decide_eq_false_iff_not]
      omega
    have hlength := congrArg List.length hdrop
    rw [List.length_append, List.length_drop] at hlength
    have hlatest : db.sync.latestSequence = db.sync.changes.length := by
      rw [SyncTables.latestSequence, hledger.next, Nat.add_sub_cancel]
    have hmore : ((false || !left.isEmpty) || decide (after+taken.length < db.sync.latestSequence)) =
        !(left ++ (db.sync.changes.drop after).drop scan).isEmpty := by
      rw [hlatest]
      cases hrest : left ++ (db.sync.changes.drop after).drop scan with
      | nil =>
        rw [hrest, List.length_nil] at hlength
        have hdone : ¬after+taken.length < db.sync.changes.length := by omega
        simp [(List.append_eq_nil_iff.mp hrest).1, hdone]
      | cons first rest =>
        rw [hrest, List.length_cons] at hlength
        have hbehind : after+taken.length < db.sync.changes.length := by omega
        simp [hbehind]
    simp only [Database.syncPull, bind_ok_iff, require_ok_iff, pure_ok_iff]
    refine ⟨(), hlimit', loaded, hload, _, hexamine, ?_⟩
    simp only [hmore, List.nil_append]
  · subst htaken
    -- nothing was taken only if there was nothing to take
    have hleft' : left = [] := by
      by_contra hne
      have hcount := hleft hne
      simp only [List.filter_nil, List.length_nil] at hcount
      omega
    rw [hleft', List.nil_append, List.take_eq_nil_iff] at hsplit
    obtain hzero | hempty := hsplit
    · omega
    · rw [hempty, hleft', List.drop_nil, List.append_nil] at hrest
      exact hrest rfl

end Pages

section Snapshots
variable {truth : Verdict} {auth : AuthContext} {limits : ExecutionLimits} {table : PhysicalTable}

theorem Row.Exact.resultField_eq {row : Row} {schema : TableSchema} (h : row.Exact reader schema)
    {column : Identifier} (hcolumn : column ∈ schema.columns.map ColumnSchema.name) :
    resultField row column = .ok (columnName column, syncJson (row.value column)) := by
  have hof : row.map Prod.fst = schema.columns.map ColumnSchema.name := h.of
  rw [resultField_ok_iff (Row.lookup_of_mem (hof ▸ hcolumn)), resultJson_eq_syncJson]
  exact ⟨rfl, h.plain column⟩

theorem Row.Exact.keyFields {row : Row} {schema : TableSchema} (h : row.Exact reader schema) :
    (keyColumns schema).mapM (resultField row) = .ok (jsonObject (keyColumns schema) row) := by
  rw [mapM_ok_iff, jsonObject, List.forall₂_map_right_iff, List.forall₂_same]
  exact fun column hcolumn => h.resultField_eq (mem_columns_of_key hcolumn)

/-- A row of a snapshot is annotated with the key that the client knows it by. -/
theorem annotateSnapshotRow_exact {row : Row} {schema : TableSchema} (h : row.Exact reader schema)
    {values : List ResultValue} {annotated : SnapshotRow}
    (hannotate : db.annotateSnapshotRow doubles schema row values = .ok annotated) :
    annotated.values = values ∧ annotated.primaryKey = publicKeyText doubles schema row := by
  simp only [Database.annotateSnapshotRow, h.keyFields, bind_ok_iff, pure_ok_iff] at hannotate
  obtain ⟨fields, hfields, rfl⟩ := hannotate
  cases hfields
  exact ⟨rfl, rfl⟩

/-- The values of a result are those that the triggers write. -/
theorem snapshotFields_exact {row : Row} {schema : TableSchema} (h : row.Exact reader schema)
    (hcolumns : (schema.columns.map ColumnSchema.name).Nodup) :
    collectMap (((schema.columns.map ColumnSchema.name).zip (row.map fun field =>
      ResultValue.fromValueRef field.2)).map fun (column, value) => (columnName column, value.json)) =
        collectMap (rowObject schema row) := by
  have hof : row.map Prod.fst = schema.columns.map ColumnSchema.name := h.of
  refine congrArg collectMap ?_
  rw [rowObject, jsonObject, ← hof, List.zip_map', List.map_map, List.map_map]
  refine List.map_congr_left fun field hfield => ?_
  have hvalue : row.value field.1 = field.2 := Row.value_of_mem (hof ▸ hcolumns) hfield
  have hplain := (resultJson_eq_syncJson (row.value field.1)).mpr (h.plain field.1)
  rw [hvalue] at hplain
  simp [ResultValue.json, hplain, hvalue, Except.toOption]

theorem find?_of_forall₂ {α β γ : Type} {p : α → Bool} {q : β → Bool} {f : α → γ} {g : β → γ} {as : List α}
    {bs : List β} (h : List.Forall₂ (fun a b => p a = q b ∧ f a = g b) as bs) :
    (as.find? p).map f = (bs.find? q).map g := by
  induction h with
  | nil => rfl
  | cons hfirst _ ih =>
    rw [List.find?_cons, List.find?_cons, hfirst.1]
    split
    · exact congrArg some hfirst.2
    · exact ih

/-- A table of a snapshot holds the rows that are shown, by the keys that the client knows. -/
theorem snapshotTable_spec {result : Identifier × SnapshotTable}
    (hcolumns : (table.schema.columns.map ColumnSchema.name).Nodup)
    (hexact : ∀ entry ∈ db.shown truth auth table, entry.row.Exact reader table.schema)
    (h : db.snapshotTable doubles limits truth auth table = .ok result) (key : List Char) :
    (result.2.rows.find? (·.primaryKey = key)).map result.2.fields =
      ((db.shown truth auth table).find? fun entry => publicKeyText doubles table.schema entry.row = key).map
        fun entry => collectMap (rowObject table.schema entry.row) := by
  simp only [Database.snapshotTable, bind_ok_iff, pure_ok_iff, require_ok_iff] at h
  obtain ⟨values, hvalues, annotated, hannotated, _, _, rfl⟩ := h
  refine find?_of_forall₂ ?_
  simp only [resultRows, bind_ok_iff, pure_ok_iff] at hvalues
  obtain ⟨_, _, _, _, rfl⟩ := hvalues
  rw [List.map_map, List.zip_map', mapM_ok_iff, List.forall₂_map_left_iff] at hannotated
  refine List.Forall₂.flip (((List.forall₂_and_left _ _).mpr ⟨hexact, hannotated⟩).imp fun entry row hrow => ?_)
  obtain ⟨hentry, hannotate⟩ := hrow
  obtain ⟨hvalues, hkey⟩ := annotateSnapshotRow_exact hentry hannotate
  refine ⟨by rw [hkey], ?_⟩
  rw [SnapshotTable.fields, hvalues]
  exact snapshotFields_exact hentry hcolumns

/-- The tables of a snapshot are the tables with a key that the schema shows. -/
theorem mem_snapshot {snapshot : SyncSnapshot} (h : db.syncSnapshot doubles limits truth auth = .ok snapshot)
    (hnames : ∀ table ∈ db.tables, db.table table.schema.name = some table) :
    (∀ result ∈ snapshot.tables, ∃ table, db.table result.1 = some table ∧ keyColumns table.schema ≠ [] ∧
      db.snapshotTable doubles limits truth auth table = .ok result) ∧
    ∀ schema ∈ db.schemaSnapshot.tables, keyColumns schema ≠ [] →
      ∃ result ∈ snapshot.tables, result.1 = schema.name := by
  have hname {table : PhysicalTable} {result : Identifier × SnapshotTable}
      (hone : db.snapshotTable doubles limits truth auth table = .ok result) : result.1 = table.schema.name := by
    simp only [Database.snapshotTable, bind_ok_iff, pure_ok_iff] at hone
    obtain ⟨_, _, _, _, _, _, rfl⟩ := hone
    rfl
  simp only [Database.syncSnapshot, bind_ok_iff, pure_ok_iff] at h
  obtain ⟨results, hresults, rfl⟩ := h
  obtain ⟨hfrom, hto⟩ := mem_of_mapM_ok hresults
  refine ⟨fun result hresult => ?_, fun schema hschema hkeyed => ?_⟩
  · obtain ⟨schema, hschema, hone⟩ := hfrom result hresult
    simp only [bind_ok_iff, orError_ok_iff] at hone
    obtain ⟨table, htable, hone⟩ := hone
    have hsame : schema.name = result.1 := by rw [hname hone, table_name htable]
    obtain ⟨hschema, hkeyed⟩ := List.mem_filter.mp hschema
    obtain ⟨own, hown, rfl⟩ := List.mem_map.mp ((List.mem_insertionSort _).mp hschema)
    obtain rfl : own = table := Option.some.inj ((hnames own (List.mem_filter.mp hown).1).symm.trans htable)
    rw [hsame] at htable
    exact ⟨own, htable, by simpa using hkeyed, hone⟩
  · obtain ⟨result, hresult, hone⟩ := hto schema (List.mem_filter.mpr ⟨hschema, by simpa using hkeyed⟩)
    simp only [bind_ok_iff, orError_ok_iff] at hone
    obtain ⟨table, htable, hone⟩ := hone
    exact ⟨result, hresult, by rw [hname hone, table_name htable]⟩

/-- A snapshot holds the rows of a table that are shown. -/
theorem ofSnapshot_eq {snapshot : SyncSnapshot} (h : db.syncSnapshot doubles limits truth auth = .ok snapshot)
    (hnames : ∀ table ∈ db.tables, db.table table.schema.name = some table)
    (hexact : ∀ entry ∈ db.shown truth auth table, entry.row.Exact reader table.schema)
    (hkeyed : Keyed db.tables table) (hmem : table.schema ∈ db.schemaSnapshot.tables) (key : List Char) :
    Replica.ofSnapshot snapshot table.schema.name key =
      ((db.shown truth auth table).find? fun entry => publicKeyText doubles table.schema entry.row = key).map
        fun entry => collectMap (rowObject table.schema entry.row) := by
  obtain ⟨hfrom, hto⟩ := mem_snapshot h hnames
  obtain ⟨result, hresult, hname⟩ := hto table.schema hmem hkeyed.key
  have hsome : (snapshot.tables.lookup table.schema.name).isSome = true :=
    List.lookup_isSome_iff.mpr ⟨result, hresult, by simp [hname]⟩
  obtain ⟨shown, hshown⟩ := Option.isSome_iff_exists.mp hsome
  have hin : (table.schema.name, shown) ∈ snapshot.tables := by
    obtain ⟨before, after, hsplit, _⟩ := List.lookup_eq_some_iff.mp hshown
    rw [hsplit]
    simp
  obtain ⟨found, hfound, _, hone⟩ := hfrom _ hin
  obtain rfl : table = found := Option.some.inj (hkeyed.found.symm.trans hfound)
  rw [Replica.ofSnapshot, hshown]
  exact snapshotTable_spec hkeyed.columns hexact hone key

/-- A table can be shown unless it is too large. -/
theorem snapshotTable_failsOnly
    (hexact : ∀ entry ∈ db.shown truth auth table, entry.row.Exact reader table.schema) :
    FailsOnly .responseTooLarge (db.snapshotTable doubles limits truth auth table) := by
  refine FailsOnly.bind ?_ fun values _ => FailsOnly.bind (FailsOnly.mapM fun pair hpair => ?_) fun annotated _ =>
    (FailsOnly.require _).bind fun _ _ => FailsOnly.ok _
  · exact (FailsOnly.require _).bind fun _ _ => (FailsOnly.require _).bind fun _ _ => FailsOnly.ok _
  · obtain ⟨entry, hentry, hrow⟩ := List.mem_map.mp (List.of_mem_zip hpair).1
    refine FailsOnly.bind ?_ fun fields _ => FailsOnly.ok _
    rw [← hrow, (hexact entry hentry).keyFields]
    exact FailsOnly.ok _

/-- Of the rows in sight one has a given key: the one that the log makes of it. -/
theorem Faithful.find?_sees (hlawful : doubles.Lawful) {changes : List ChangeRow} {entries : Contents}
    {sees : Identifier → Row → Bool} {tables : List PhysicalTable} (h : Faithful doubles table.schema (replay changes) entries)
    (hkeyed : Keyed tables table) (hexact : ∀ entry ∈ entries, entry.row.Exact reader table.schema) {row : Row}
    (hrow : row.Exact reader table.schema) :
    ((entries.filter (sees table.schema.name ·.row)).find? fun entry =>
        publicKeyText doubles table.schema entry.row = publicKeyText doubles table.schema row).map
        (fun entry => collectMap (rowObject table.schema entry.row)) =
      ((logStore changes).excerpt (sight doubles tables sees)
        (table.schema.name, capturedKey doubles table.schema row)).bind (heldFields doubles table.schema) := by
  have hsame (entry : Entry Row) (hentry : entry ∈ entries) :
      publicKeyText doubles table.schema entry.row = publicKeyText doubles table.schema row ↔
        capturedKey doubles table.schema entry.row = capturedKey doubles table.schema row :=
    publicKeyText_eq_iff hlawful hkeyed.columns (hexact entry hentry) hrow
  have hnone (hno : ∀ entry ∈ entries, sees table.schema.name entry.row = true →
      capturedKey doubles table.schema entry.row ≠ capturedKey doubles table.schema row) :
      (entries.filter (sees table.schema.name ·.row)).find? (fun entry =>
        publicKeyText doubles table.schema entry.row = publicKeyText doubles table.schema row) = none := by
    rw [List.find?_eq_none]
    intro entry hentry
    obtain ⟨hentry, hseen⟩ := List.mem_filter.mp hentry
    rw [decide_eq_true_eq, hsame entry hentry]
    exact hno entry hentry hseen
  cases hreplay : replay changes table.schema.name (capturedKey doubles table.schema row) with
  | none =>
    have hstore : (logStore changes).excerpt (sight doubles tables sees)
        (table.schema.name, capturedKey doubles table.schema row) = none := by
      simp [Store.excerpt, logStore, hreplay]
    rw [hstore, hnone]
    · rfl
    · intro entry hentry _ hkey
      obtain ⟨values, hvalues, _⟩ := h.logged entry hentry
      rw [hkey, hreplay] at hvalues
      cases hvalues
  | some values =>
    obtain ⟨entry, hentry, hkey⟩ := h.live _ values hreplay
    obtain ⟨logged, hlogged, hdecode⟩ := h.logged entry hentry
    obtain rfl : values = logged := Option.some.inj (hreplay.symm.trans (hkey ▸ hlogged))
    have hsight := @sight_of_decode doubles tables sees table hkeyed values entry.row hdecode
      (capturedKey doubles table.schema row)
    cases hseen : sees table.schema.name entry.row with
    | true =>
      have hstore : (logStore changes).excerpt (sight doubles tables sees)
          (table.schema.name, capturedKey doubles table.schema row) = some values := by
        simp [Store.excerpt, logStore, hreplay, hsight, hseen]
      have hfind : (entries.filter (sees table.schema.name ·.row)).find? (fun entry =>
          publicKeyText doubles table.schema entry.row = publicKeyText doubles table.schema row) = some entry := by
        have hsome : ((entries.filter (sees table.schema.name ·.row)).find? fun entry =>
            publicKeyText doubles table.schema entry.row = publicKeyText doubles table.schema row).isSome := by
          rw [List.find?_isSome]
          exact ⟨entry, List.mem_filter.mpr ⟨hentry, hseen⟩, decide_eq_true ((hsame entry hentry).mpr hkey)⟩
        obtain ⟨found, hfound⟩ := Option.isSome_iff_exists.mp hsome
        have hmem := (List.mem_filter.mp (List.mem_of_find?_eq_some hfound)).1
        have hkeys := (hsame found hmem).mp (by simpa using List.find?_some hfound)
        rw [hfound, h.unique found hmem entry hentry (hkeys.trans hkey.symm)]
      rw [hstore, hfind]
      simp [heldFields, hdecode]
    | false =>
      have hstore : (logStore changes).excerpt (sight doubles tables sees)
          (table.schema.name, capturedKey doubles table.schema row) = none := by
        simp [Store.excerpt, logStore, hreplay, hsight, hseen]
      rw [hstore, hnone]
      · rfl
      · intro other hother hsees hsamekey
        rw [h.unique other hother entry hentry (hsamekey.trans hkey.symm), hseen] at hsees
        cases hsees

end Snapshots

section Run
variable {truth bare : Verdict} {auth : AuthContext} {limits : ExecutionLimits} {start : Database}
  {follower : Follower}

theorem Tracks.keyed {sees : Identifier → Row → Bool} (h : Tracks doubles reader sees start db)
    (table : PhysicalTable) (hmem : table ∈ db.tables) (hkey : keyColumns table.schema ≠ []) :
    Keyed db.tables table :=
  ⟨hmem, h.sound.toReady.table_eq hmem, hkey, h.sound.columns table hmem⟩

/-- The policies say the same all along. -/
theorem Tracks.sees_eq {sees : Identifier → Row → Bool} (h : Tracks doubles reader sees start db)
    (verdict : Verdict) (name : Identifier) (row : Row) :
    db.sees verdict auth name row = { start with contents := db.contents }.sees verdict auth name row := by
  simp only [Database.sees, Database.policies, h.catalog]
  rfl

theorem Tracks.shown_eq (hcompiled : start.Compiled) (hdecided : start.DecidedByRow truth bare auth)
    (h : Tracks doubles reader (start.sees truth auth) start db) {table : PhysicalTable}
    (hkeyed : Keyed db.tables table) :
    db.shown truth auth table =
      (db.contents table.schema.name).filter (start.sees truth auth table.schema.name ·.row) := by
  have hcompiled : db.Compiled := by
    rw [Database.Compiled, h.tables, h.catalog]
    exact hcompiled
  have hmem := hkeyed.mem
  rw [h.tables] at hmem
  rw [hcompiled.shown hkeyed.found auth]
  refine List.filter_congr fun entry hentry => ?_
  have hof := (h.exact table hkeyed.mem hkeyed.key entry hentry).of
  exact (h.sees_eq truth table.schema.name entry.row).trans
    (hdecided table hmem hkeyed.key db.contents entry.row hof).1

/-- A snapshot is what can be seen of the rows that the log makes. -/
theorem Tracks.snapshot_mirrors (hlawful : doubles.Lawful) (hcompiled : start.Compiled)
    (hdecided : start.DecidedByRow truth bare auth)
    (h : Tracks doubles reader (start.sees truth auth) start db) {snapshot : SyncSnapshot}
    (hsnapshot : db.syncSnapshot doubles limits truth auth = .ok snapshot) :
    Mirrors doubles reader db.tables (Replica.ofSnapshot snapshot)
      ((logStore (db.rebase (start.baseLog doubles) start.sync.changes.length).sync.changes).excerpt
        (sight doubles db.tables (start.sees truth auth))) := by
  have hnames (table : PhysicalTable) (hmem : table ∈ db.tables) := h.sound.toReady.table_eq hmem
  have hshown {table : PhysicalTable} (hkeyed : Keyed db.tables table) :=
    h.shown_eq hcompiled hdecided hkeyed
  have hexact {table : PhysicalTable} (hkeyed : Keyed db.tables table) :
      ∀ entry ∈ db.shown truth auth table, entry.row.Exact reader table.schema := by
    intro entry hentry
    rw [hshown hkeyed] at hentry
    exact h.exact table hkeyed.mem hkeyed.key entry (List.mem_filter.mp hentry).1
  have heq {table : PhysicalTable} (hkeyed : Keyed db.tables table) :=
    ofSnapshot_eq hsnapshot hnames (hexact hkeyed) hkeyed
      (h.sound.toReady.mem_schemaSnapshot hkeyed.mem hkeyed.key)
  refine ⟨fun table hkeyed row hrow => ?_, fun name key hsome => ?_⟩
  · rw [heq hkeyed, hshown hkeyed]
    exact (h.sound.faithful table hkeyed.mem hkeyed.key).find?_sees hlawful hkeyed
      (h.exact table hkeyed.mem hkeyed.key) hrow
  · obtain ⟨shown, hlookup⟩ : ∃ shown, snapshot.tables.lookup name = some shown := by
      rw [← Option.isSome_iff_exists]
      by_contra hnone
      rw [Option.not_isSome_iff_eq_none] at hnone
      simp [Replica.ofSnapshot, hnone] at hsome
    have hin : (name, shown) ∈ snapshot.tables := by
      obtain ⟨before, after, hsplit, _⟩ := List.lookup_eq_some_iff.mp hlookup
      rw [hsplit]
      simp
    obtain ⟨table, htable, hkey, _⟩ := (mem_snapshot hsnapshot hnames).1 _ hin
    obtain rfl : table.schema.name = name := table_name htable
    have hkeyed := h.keyed table (List.mem_of_find?_eq_some htable) hkey
    rw [heq hkeyed] at hsome
    cases hfind : (db.shown truth auth table).find? fun entry =>
        publicKeyText doubles table.schema entry.row = key with
    | none => simp [hfind] at hsome
    | some entry =>
      exact ⟨table, hkeyed, rfl, entry.row, hexact hkeyed entry (List.mem_of_find?_eq_some hfind),
        by simpa using List.find?_some hfind⟩

def changesUpTo (start db : Database) (cursor : Nat) : List ChangeRow :=
  (db.sync.changes.take cursor).drop start.sync.changes.length

structure InStep (doubles : Doubles) (reader : JsonReader) (truth : Verdict) (auth : AuthContext)
    (start : Database) (db : Database) (follower : Follower) : Prop
    extends Tracks doubles reader (start.sees truth auth) start db where
  from_start : start.sync.changes.length ≤ follower.cursor
  to_latest : follower.cursor ≤ db.sync.changes.length
  mirrors : Mirrors doubles reader db.tables follower.rows
    ((((changesUpTo start db follower.cursor).map ChangeRow.update).filter
      (·.shown (sight doubles db.tables (start.sees truth auth)))).foldl Store.apply
        ((logStore (start.baseLog doubles)).excerpt (sight doubles db.tables (start.sees truth auth))))

theorem InStep.write (hlawful : doubles.Lawful) {context : RequestContext} {events : List RowEvent}
    (h : InStep doubles reader truth auth start db follower) {db' : Database}
    (hfollows : Execution.FollowsAll doubles context ⟨db, []⟩ events)
    (hkeeps : Execution.KeepsSightAll doubles reader (start.sees truth auth) context ⟨db, []⟩ events)
    (hwrite : db.writeRows doubles context events = some db') :
    InStep doubles reader truth auth start db' follower := by
  obtain ⟨htracks, hgrows⟩ := h.toTracks.writeRows hlawful hfollows hkeeps hwrite
  have htables : db'.tables = db.tables := htracks.tables.trans h.tables.symm
  have hsame : changesUpTo start db' follower.cursor = changesUpTo start db follower.cursor := by
    obtain ⟨more, hmore⟩ := hgrows
    rw [changesUpTo, ← hmore, List.take_append_of_le_length h.to_latest]
    rfl
  refine ⟨htracks, h.from_start, h.to_latest.trans hgrows.length_le, ?_⟩
  rw [hsame, htables]
  exact h.mirrors

theorem Tracks.since {sees : Identifier → Row → Bool} (h : Tracks doubles reader sees start db) :
    KeepsAll (sight doubles db.tables sees) (logStore (start.baseLog doubles))
        ((db.sync.changes.drop start.sync.changes.length).map ChangeRow.update) ∧
      ∀ change ∈ db.sync.changes.drop start.sync.changes.length, change.Proper doubles db.tables reader := by
  obtain ⟨since, hchanges, hkeeps, hproper⟩ := h.tidy
  obtain rfl : db.sync.changes.drop start.sync.changes.length = since := List.append_cancel_left hchanges
  exact ⟨hkeeps, hproper⟩

/-- A pull of a client in step is answered, and keeps it in step. -/
theorem InStep.pull (hlawful : doubles.Lawful) (hreader : reader.Lawful doubles)
    (hdecided : start.DecidedByRow truth bare auth) (h : InStep doubles reader truth auth start db follower)
    {limit : Nat} (hlimit : 0 < limit ∧ limit ≤ 1000) :
    ∃ page, db.syncPull doubles reader limits bare auth follower.cursor limit = .ok page ∧
      InStep doubles reader truth auth start db (follower.receive doubles page) ∧
      (page.hasMore = true → follower.cursor < page.cursor) ∧
      (page.hasMore = false → page.cursor = db.sync.changes.length) := by
  obtain ⟨_, hproper⟩ := h.toTracks.since
  have hbehind : db.sync.changes.drop follower.cursor =
      (db.sync.changes.drop start.sync.changes.length).drop (follower.cursor-start.sync.changes.length) := by
    rw [List.drop_drop, Nat.add_sub_cancel' h.from_start]
  have hproper (change : ChangeRow) (hchange : change ∈ db.sync.changes.drop follower.cursor) :
      change.Proper doubles db.tables reader := by
    rw [hbehind] at hchange
    exact hproper change (List.mem_of_mem_drop hchange)
  have hverdict (table : PhysicalTable) (hmem : table ∈ db.tables) (hkey : keyColumns table.schema ≠ [])
      (row : Row) (hof : row.Of table.schema) (candidate : Row)
      (hsame : ∀ column, candidate.value column = row.value column) :
      db.sees bare auth table.schema.name candidate = start.sees truth auth table.schema.name row := by
    rw [h.toTracks.sees_eq]
    exact (hdecided table (h.tables ▸ hmem) hkey db.contents row hof).2 candidate hsame
  obtain ⟨taken, rest, hsplit, hpull, hprogress⟩ := @syncPull_spec doubles reader db bare auth
    (start.sees truth auth) limits h.ledger follower.cursor limit h.to_latest hlimit fun change hchange =>
      (hproper change hchange).loads hreader h.toTracks.keyed hverdict
  have hlength := congrArg List.length hsplit
  rw [List.length_append, List.length_drop] at hlength
  have hlatest := h.to_latest
  refine ⟨_, hpull, ⟨h.toTracks, ?_, ?_, ?_⟩, fun hmore => ?_, fun hdone => ?_⟩
  · exact h.from_start.trans (Nat.le_add_right _ _)
  · exact Nat.le_of_add_le_add_right (b := rest.length) (by simp only [Follower.receive]; omega)
  · have hupTo : changesUpTo start db (follower.cursor+taken.length) =
        changesUpTo start db follower.cursor ++ taken := by
      have htaken : (db.sync.changes.drop follower.cursor).take taken.length = taken := by
        rw [hsplit, List.take_left]
      rw [changesUpTo, List.take_add, htaken, List.drop_append_of_le_length]
      · rfl
      · rw [List.length_take, Nat.min_eq_left hlatest]
        exact h.from_start
    simp only [Follower.receive, hupTo, List.map_append, List.filter_append, List.foldl_append]
    rw [List.filter_map (f := ChangeRow.update) (l := taken)]
    refine h.mirrors.receiveAll hlawful hreader (fun change hchange => ?_) h.sound.columns
      fun table hmem => h.sound.toReady.table_eq hmem
    refine hproper change ?_
    rw [hsplit]
    exact List.mem_append_left _ (List.mem_filter.mp hchange).1
  · have htaken : taken ≠ [] := hprogress (by simpa using hmore)
    have hpos := List.length_pos_iff.mpr htaken
    simp only
    omega
  · have hrest : rest = [] := by simpa using hdone
    rw [hrest, List.length_nil] at hlength
    simp only
    omega

/-- A client that keeps pulling is told of everything. -/
theorem InStep.catchUp (hlawful : doubles.Lawful) (hreader : reader.Lawful doubles)
    (hdecided : start.DecidedByRow truth bare auth) {limit : Nat} (hlimit : 0 < limit ∧ limit ≤ 1000)
    (pulls : Nat) (h : InStep doubles reader truth auth start db follower)
    (hpulls : db.sync.changes.length-follower.cursor < pulls) :
    ∃ final, catchUp doubles reader limits bare auth db limit pulls follower = some final ∧
      InStep doubles reader truth auth start db final ∧ final.cursor = db.sync.changes.length := by
  induction pulls generalizing follower with
  | zero => omega
  | succ pulls ih =>
    obtain ⟨page, hpage, hstep, hmore, hdone⟩ := @InStep.pull doubles reader db truth bare auth limits start follower
      hlawful hreader hdecided h limit hlimit
    rw [Runtime.catchUp, hpage]
    cases hhas : page.hasMore with
    | true =>
      have hprogress := hmore hhas
      have hbound := hstep.to_latest
      have hcursor : (follower.receive doubles page).cursor = page.cursor := rfl
      simp only [hhas, if_true]
      exact ih hstep (by omega)
    | false =>
      simp only [hhas, Bool.false_eq_true, if_false]
      exact ⟨_, rfl, hstep, hdone hhas⟩

/-- The fresh snapshot fails only where it is too large. -/
theorem Tracks.snapshot_failsOnly (hcompiled : start.Compiled) (hdecided : start.DecidedByRow truth bare auth)
    (h : Tracks doubles reader (start.sees truth auth) start db) :
    FailsOnly .responseTooLarge (db.syncSnapshot doubles limits truth auth) := by
  refine FailsOnly.bind (FailsOnly.mapM fun schema hschema => ?_) fun tables _ => FailsOnly.ok _
  obtain ⟨hschema, hkey⟩ := List.mem_filter.mp hschema
  obtain ⟨table, htable, rfl⟩ := List.mem_map.mp ((List.mem_insertionSort _).mp hschema)
  have hkeyed := h.keyed table (List.mem_filter.mp htable).1 (by simpa using hkey)
  have hfound : db.table table.schema.name = some table := hkeyed.found
  rw [hfound]
  refine @snapshotTable_failsOnly doubles reader db truth auth limits table fun entry hentry => ?_
  rw [h.shown_eq hcompiled hdecided hkeyed] at hentry
  exact h.exact table hkeyed.mem hkeyed.key entry (List.mem_filter.mp hentry).1

theorem InStep.step (hlawful : doubles.Lawful) (hreader : reader.Lawful doubles)
    (hdecided : start.DecidedByRow truth bare auth) (steps : List FollowStep)
    (h : InStep doubles reader truth auth start db follower)
    (hsteps : db.CommitsInSight doubles reader (start.sees truth auth) steps) :
    InStep doubles reader truth auth start
      (Machine.run (followStep doubles reader limits bare auth) (db, follower) steps).1
      (Machine.run (followStep doubles reader limits bare auth) (db, follower) steps).2 := by
  induction steps generalizing db follower with
  | nil => exact h
  | cons step steps ih =>
    cases step with
    | write context events =>
      obtain ⟨hcommit, hrest⟩ := hsteps
      refine ih ?_ hrest
      cases hwrite : db.writeRows doubles context events with
      | none => exact h
      | some next =>
        obtain ⟨hfollows, hkeeps⟩ := hcommit (by simp [hwrite])
        exact h.write hlawful hfollows hkeeps hwrite
    | pull limit =>
      rw [Machine.run, followStep]
      by_cases hlimit : 0 < limit ∧ limit ≤ 1000
      · obtain ⟨page, hpage, hstep, _⟩ := @InStep.pull doubles reader db truth bare auth limits start follower
          hlawful hreader hdecided h limit hlimit
        simp only [hpage]
        exact ih hstep hsteps
      · have hrefused : (!(decide (limit = 0) || decide (limit > 1000))) = false := by
          simp only [Bool.not_eq_false', Bool.or_eq_true, decide_eq_true_eq]
          omega
        have herror : db.syncPull doubles reader limits bare auth follower.cursor limit =
            .error .statementNotAllowed := by
          simp only [Database.syncPull, hrefused]
          rfl
        simp only [herror]
        exact ih h hsteps

theorem snapshot_cursor {snapshot : SyncSnapshot} (hledger : db.sync.Ledger)
    (h : db.syncSnapshot doubles limits truth auth = .ok snapshot) :
    snapshot.cursor = db.sync.changes.length := by
  simp only [Database.syncSnapshot, bind_ok_iff, pure_ok_iff] at h
  obtain ⟨_, _, rfl⟩ := h
  rw [SyncTables.latestSequence, hledger.next, Nat.add_sub_cancel]

/-- A snapshot puts a client in step. -/
theorem Database.Settled.inStep (hlawful : doubles.Lawful) (h : start.Settled doubles reader)
    (hdecided : start.DecidedByRow truth bare auth) {snapshot : SyncSnapshot}
    (hsnapshot : start.syncSnapshot doubles limits truth auth = .ok snapshot) :
    InStep doubles reader truth auth start start ⟨Replica.ofSnapshot snapshot, snapshot.cursor⟩ := by
  have htracks : Tracks doubles reader (start.sees truth auth) start start := h.tracks
  have hcursor := snapshot_cursor h.ledger hsnapshot
  have hmirrors := htracks.snapshot_mirrors hlawful h.compiled hdecided hsnapshot
  have hbase : (start.rebase (start.baseLog doubles) start.sync.changes.length).sync.changes =
      start.baseLog doubles := by
    simp [Database.rebase, SyncTables.rebase]
  have hnone : changesUpTo start start start.sync.changes.length = [] := by simp [changesUpTo]
  rw [hbase] at hmirrors
  refine ⟨htracks, hcursor.ge, hcursor.le, ?_⟩
  simp only [hcursor, hnone, List.map_nil, List.filter_nil, List.foldl_nil]
  exact hmirrors

/-- A client in step that has been told of everything holds what a fresh snapshot shows. -/
theorem InStep.eq_fresh (hlawful : doubles.Lawful) (hcompiled : start.Compiled)
    (hdecided : start.DecidedByRow truth bare auth) (h : InStep doubles reader truth auth start db follower)
    (hcursor : follower.cursor = db.sync.changes.length) {fresh : SyncSnapshot}
    (hfresh : db.syncSnapshot doubles limits truth auth = .ok fresh) :
    follower = ⟨Replica.ofSnapshot fresh, fresh.cursor⟩ := by
  obtain ⟨rows, cursor⟩ := follower
  obtain rfl : cursor = db.sync.changes.length := hcursor
  have hmirrors := h.mirrors
  have hall : changesUpTo start db db.sync.changes.length = db.sync.changes.drop start.sync.changes.length := by
    rw [changesUpTo, List.take_length]
  simp only [hall] at hmirrors
  rw [foldl_shown h.toTracks.since.1, ← logStore_append] at hmirrors
  rw [snapshot_cursor h.ledger hfresh,
    hmirrors.unique (h.toTracks.snapshot_mirrors hlawful hcompiled hdecided hfresh)]

end Run

/-- A client that starts from a snapshot and pulls while rows are written, and then until there
is no more, holds what a fresh snapshot shows, unless that is too large to be shown. -/
theorem runtime_replica_converges (doubles : Doubles) (hlawful : doubles.Lawful) (reader : JsonReader)
    (hreader : reader.Lawful doubles) (limits : ExecutionLimits) (truth bare : Verdict) (auth : AuthContext)
    (start : Database) (hsettled : start.Settled doubles reader)
    (hdecided : start.DecidedByRow truth bare auth) (snapshot : SyncSnapshot)
    (hsnapshot : start.syncSnapshot doubles limits truth auth = .ok snapshot) (steps : List FollowStep)
    (hsteps : start.CommitsInSight doubles reader (start.sees truth auth) steps) (limit : Nat)
    (hlimit : 0 < limit ∧ limit ≤ 1000) :
    let (db, follower) := Machine.run (followStep doubles reader limits bare auth)
      (start, ⟨Replica.ofSnapshot snapshot, snapshot.cursor⟩) steps
    ∃ final, catchUp doubles reader limits bare auth db limit (db.sync.latestSequence+1) follower = some final ∧
      (db.syncSnapshot doubles limits truth auth = .error .responseTooLarge ∨
        ∃ fresh, db.syncSnapshot doubles limits truth auth = .ok fresh ∧
          final = ⟨Replica.ofSnapshot fresh, fresh.cursor⟩) := by
  have hstart := hsettled.inStep hlawful hdecided hsnapshot
  have hrun := @InStep.step doubles reader start truth bare auth limits start _ hlawful hreader hdecided steps
    hstart hsteps
  generalize Machine.run (followStep doubles reader limits bare auth)
    (start, ⟨Replica.ofSnapshot snapshot, snapshot.cursor⟩) steps = reached at hrun ⊢
  obtain ⟨db, follower⟩ := reached
  have hlatest : db.sync.latestSequence = db.sync.changes.length := by
    rw [SyncTables.latestSequence, hrun.ledger.next, Nat.add_sub_cancel]
  obtain ⟨final, hcatchUp, hfinal, hcursor⟩ := @InStep.catchUp doubles reader db truth bare auth limits start follower
    hlawful hreader hdecided limit hlimit (db.sync.latestSequence+1) hrun (by omega)
  refine ⟨final, hcatchUp, ?_⟩
  cases hfresh : db.syncSnapshot doubles limits truth auth with
  | error e =>
    have honly := @Tracks.snapshot_failsOnly doubles reader db truth bare auth limits start hsettled.compiled hdecided
      hrun.toTracks e hfresh
    exact .inl (congrArg Except.error honly)
  | ok fresh => exact .inr ⟨fresh, rfl, hfinal.eq_fresh hlawful hsettled.compiled hdecided hcursor hfresh⟩

noncomputable def inverseReader (doubles : Doubles) : JsonReader where
  fromStr text := open Classical in
    if h : ∃ fields, Value.FieldsWellFormed fields ∧ valueText doubles (.object fields) = text then
      some (.object (collectMap h.choose))
    else none
  double bits := bits

theorem inverseReader_lawful (hlawful : doubles.Lawful) : (inverseReader doubles).Lawful doubles := by
  intro columns row
  have hwellFormed : Value.FieldsWellFormed (jsonObject columns row) := by
    refine (fieldsWellFormed_iff _).mpr fun field hfield => ?_
    obtain ⟨column, _, rfl⟩ := List.mem_map.mp hfield
    exact wellFormed_syncJson _
  have hread : (inverseReader doubles).readFields (jsonObject columns row) = collectMap (jsonObject columns row) := by
    refine congrArg collectMap ((List.map_congr_left fun field _ => ?_).trans (List.map_id _))
    refine congrArg (Prod.mk field.1) ?_
    rw [JsonReader.readValue.eq_def]
    split
    · next hvalue => exact hvalue.symm
    · rfl
  have hexists : ∃ fields, Value.FieldsWellFormed fields ∧
      valueText doubles (.object fields) = valueText doubles (.object (jsonObject columns row)) :=
    ⟨_, hwellFormed, rfl⟩
  have hdelimited : Delimited [] := fun c hc => by cases hc
  have hchosen := (valueText_append_inj hlawful (a := .object hexists.choose) (b := .object (jsonObject columns row))
    hexists.choose_spec.1 hwellFormed hdelimited hdelimited (congrArg (· ++ []) hexists.choose_spec.2)).1
  have hfound : (inverseReader doubles).fromStr (valueText doubles (.object (jsonObject columns row))) =
      some (.object (collectMap hexists.choose)) := dif_pos hexists
  rw [hfound, hread, Value.object.inj hchosen]

def ownedDocuments : Database where
  catalog := RlsCatalog.after documentStatements
  tables := [documentsTable]
  contents name := if name = documents then [⟨1, documentRow 1 "me"⟩] else []
  captured := [documents]

def sampleLimits : ExecutionLimits := ⟨100, 10000⟩

def Follower.ofResult : Except RuntimeError SyncSnapshot → Follower
  | .ok snapshot => ⟨Replica.ofSnapshot snapshot, snapshot.cursor⟩
  | .error _ => ⟨fun _ _ => none, 0⟩

def firstFollower : Follower :=
  Follower.ofResult (ownedDocuments.syncSnapshot sampleDoubles sampleLimits ownerVerdict author)

theorem documentRow_value (id : Int64) (owner : String) (column : Identifier) :
    (documentRow id owner).value column = .integer id ∨ (documentRow id owner).value column = .text owner ∨
      (documentRow id owner).value column = .null := by
  simp only [Row.value, documentRow, List.lookup_cons, List.lookup_nil]
  split
  · exact .inl rfl
  · split
    · exact .inr (.inl rfl)
    · exact .inr (.inr rfl)

theorem documentRow_exact (id : Int64) (hid : isSafeInteger id = true) (owner : String) :
    (documentRow id owner).Exact (inverseReader sampleDoubles) documentsTable.schema := by
  have hvalue := documentRow_value id owner
  have hkeys : keyColumns documentsTable.schema = [rowId] := by decide +kernel
  refine ⟨⟨⟨fun column => ?_, fun column hcolumn => ?_⟩, rfl⟩, fun column => ?_, fun column bits _ => rfl⟩
  · obtain h | h | h := hvalue column <;> rw [h] <;> rfl
  · rw [hkeys, List.mem_singleton] at hcolumn
    simp [hcolumn, Row.value, documentRow]
  · obtain h | h | h := hvalue column
    · rw [h]
      exact hid
    · rw [h]
      rfl
    · rw [h]
      rfl

theorem ownedDocuments_settled : ownedDocuments.Settled sampleDoubles (inverseReader sampleDoubles) where
  suffixes := List.nodup_singleton _
  columns table htable := by
    obtain rfl := List.mem_singleton.mp htable
    decide +kernel
  inCatalog table htable _ := by
    obtain rfl := List.mem_singleton.mp htable
    decide +kernel
  shown table htable _ hprotected := by
    obtain rfl := List.mem_singleton.mp htable
    cases hprotected
  installed table htable := by
    obtain rfl := List.mem_singleton.mp htable
    decide +kernel
  compiled table htable _ := by
    obtain rfl := List.mem_singleton.mp htable
    rfl
  held table htable _ := by
    obtain rfl := List.mem_singleton.mp htable
    have hcontents : ownedDocuments.contents documentsTable.schema.name = [⟨1, documentRow 1 "me"⟩] := by
      decide +kernel
    rw [hcontents]
    refine ⟨List.nodup_singleton _, fun entry hentry => ?_, fun a ha b hb _ => ?_⟩
    · rw [List.mem_singleton.mp hentry]
      exact documentRow_exact 1 (by decide) "me"
    · rw [List.mem_singleton.mp ha, List.mem_singleton.mp hb]
  ledger := empty_ledger

theorem ownedDocuments_decided : ownedDocuments.DecidedByRow ownerVerdict ownerVerdict author := by
  intro table _ _ now row _
  refine ⟨rfl, fun candidate hsame => ?_⟩
  simp only [Database.sees, Database.policies, Policies.passes, ownerVerdict, hsame]
  rfl

/-- One more document of the same owner, behind which a foreign key or a trigger writes one of
another; pulled on the way. -/
def documentAdded : List FollowStep :=
  [.write firstRequest [.write (.insert documents (documentRow 2 "me")),
    .write (.insert documents (documentRow 3 "other")), .fire, .fire], .pull 1]

theorem added_document_arrives :
    let (db, follower) := Machine.run
      (followStep sampleDoubles (inverseReader sampleDoubles) sampleLimits ownerVerdict author)
      (ownedDocuments, firstFollower) documentAdded
    ∃ final, catchUp sampleDoubles (inverseReader sampleDoubles) sampleLimits ownerVerdict author db 1
        (db.sync.latestSequence+1) follower = some final ∧
      (db.syncSnapshot sampleDoubles sampleLimits ownerVerdict author = .error .responseTooLarge ∨
        ∃ fresh, db.syncSnapshot sampleDoubles sampleLimits ownerVerdict author = .ok fresh ∧
          final = ⟨Replica.ofSnapshot fresh, fresh.cursor⟩) := by
  cases hsnapshot : ownedDocuments.syncSnapshot sampleDoubles sampleLimits ownerVerdict author with
  | error e =>
    have hok : (ownedDocuments.syncSnapshot sampleDoubles sampleLimits ownerVerdict author).isOk = true := by
      decide +kernel
    rw [hsnapshot] at hok
    cases hok
  | ok snapshot =>
    have hfirst : firstFollower = Follower.ofResult (.ok snapshot) := congrArg Follower.ofResult hsnapshot
    rw [hfirst, Follower.ofResult]
    refine runtime_replica_converges sampleDoubles sampleDoubles_lawful (inverseReader sampleDoubles)
      (inverseReader_lawful sampleDoubles_lawful) sampleLimits ownerVerdict ownerVerdict author ownedDocuments
      ownedDocuments_settled ownedDocuments_decided snapshot hsnapshot documentAdded
      ⟨fun _ => ⟨⟨fun table htable _ => ?_, fun first hfirst => ⟨fun table htable _ => ?_, fun _ _ =>
        ⟨trivial, fun _ _ => ⟨trivial, fun _ _ => trivial⟩⟩⟩⟩, ⟨fun table htable _ => ?_,
        fun first hfirst => ⟨fun table htable _ => ?_, fun _ _ => ⟨trivial, fun _ _ =>
          ⟨trivial, fun _ _ => trivial⟩⟩⟩⟩⟩, trivial⟩ 1 (by decide)
    · obtain rfl : documentsTable = table := Option.some.inj htable
      exact ⟨(documentRow_exact 2 (by decide) "me").toStorable.toReadable, by decide +kernel⟩
    · obtain rfl := Option.some.inj hfirst
      obtain rfl : documentsTable = table := Option.some.inj htable
      exact ⟨(documentRow_exact 3 (by decide) "other").toStorable.toReadable, by decide +kernel⟩
    · obtain rfl : documentsTable = table := Option.some.inj htable
      exact documentRow_exact 2 (by decide) "me"
    · obtain rfl := Option.some.inj hfirst
      obtain rfl : documentsTable = table := Option.some.inj htable
      exact documentRow_exact 3 (by decide) "other"

def firstKeyReader : JsonReader where
  fromStr text := if text = "\x7b\"id\":1\x7d".toList then some (.object [("id", .number (.posInt 1))]) else none
  double bits := bits

def transferred : Database × Follower :=
  Machine.run (followStep sampleDoubles firstKeyReader sampleLimits ownerVerdict author)
    (ownedDocuments, firstFollower)
    [.write firstRequest
      [.write (.update documents ⟨1, documentRow 1 "me"⟩ (documentRow 1 "other") false), .fire]]

/-- The client is not told, and keeps the document that a fresh snapshot no longer shows. -/
theorem transferred_document_stays :
    transferred.1.contents documents = [⟨1, documentRow 1 "other"⟩] ∧
      (catchUp sampleDoubles firstKeyReader sampleLimits ownerVerdict author transferred.1 10 2 transferred.2).map
          (·.rows documents ['1']) =
        some (some [("id", .number (.posInt 1)), ("owner_id", .string "me")]) ∧
      (transferred.1.syncSnapshot sampleDoubles sampleLimits ownerVerdict author).map
          (Replica.ofSnapshot · documents ['1']) = .ok none := by
  refine ⟨by decide +kernel, by decide +kernel, by decide +kernel⟩

end Ffdb.Runtime
