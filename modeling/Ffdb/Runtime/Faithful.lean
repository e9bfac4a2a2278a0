import Mathlib.Data.List.TakeWhile
import Ffdb.Runtime.Capture

/-! The log of one table against its rows: when every write leaves the rows and what replaying
the log makes of their keys in step. -/
namespace Ffdb.Runtime
open Sql Rls Relation Fallible
open Sync (Value Number JsonMap)

/-- A value that the triggers write so that it can be read back: no infinity. -/
def SqlValue.isFinite : SqlValue → Bool
  | .real bits => Runtime.isFinite bits
  | _ => true

/-- The value that JSON from the log stands for; a column that it lacks is NULL. -/
def decodeField (doubles : Doubles) (values : JsonMap) (column : Identifier) :
    Except RuntimeError (Identifier × SqlValue) := do
  let value ← jsonParameter doubles ((values.lookup (columnName column)).getD .null)
  pure (column, value)

def decodeRow (doubles : Doubles) (table : TableSchema) (values : JsonMap) : Option Row :=
  ((table.columns.map ColumnSchema.name).mapM (decodeField doubles values)).toOption

/-- A row that the log can hold: its values can be read back and its key is not NULL. -/
structure Row.Readable (row : Row) (table : TableSchema) : Prop where
  finite : ∀ column, (row.value column).isFinite = true
  key : ∀ column ∈ keyColumns table, row.value column ≠ .null

structure Row.Storable (row : Row) (table : TableSchema) : Prop extends Row.Readable row table where
  of : row.Of table

variable {doubles : Doubles}

theorem asI64_ofInteger (value : Int64) : Number.asI64 (ofInteger value) = some value := by
  have hlt := value.toInt_lt
  rw [ofInteger]
  split_ifs with h
  · have hnat : (value.toInt.toNat : Int) = value.toInt := Int.toNat_of_nonneg h
    rw [Number.asI64, if_pos (by omega)]
    refine congrArg some (Int64.toInt_inj.mp ?_)
    rw [Int64.toInt_ofNat_of_lt (by omega), hnat]
  · rw [Number.asI64]
    exact congrArg some (Int64.ofInt_toInt value)

/-- What the triggers write is read back. -/
theorem jsonParameter_syncJson {value : SqlValue} (h : value.isFinite = true) :
    jsonParameter doubles (syncJson value) = .ok value := by
  cases value with
  | null => rfl
  | integer value =>
    rw [syncJson, jsonParameter, asI64_ofInteger]
  | real bits =>
    have hfinite : isFinite bits = true := h
    simp [syncJson, hfinite, jsonParameter, Number.asI64, Number.asF64]
  | text value => rfl
  | blob bytes =>
    simp [syncJson, blobJson, jsonParameter, Base64.decodeStandard_encodeStandard, orError]

theorem columnName_inj {a b : Identifier} (h : columnName a = columnName b) : a = b :=
  Identifier.ext (String.ofList_injective h)

theorem lookup_jsonObject {columns : List Identifier} {column : Identifier} (h : column ∈ columns)
    (row : Row) :
    (jsonObject columns row).lookup (columnName column) = some (syncJson (row.value column)) := by
  induction columns with
  | nil => cases h
  | cons first columns ih =>
    rw [jsonObject, List.map_cons, List.lookup_cons]
    by_cases hsame : column = first
    · simp [hsame]
    · have hname : (columnName column == columnName first) = false := by
        simpa using fun hname => hsame (columnName_inj hname)
      rw [hname]
      exact ih (List.mem_of_ne_of_mem hsame h)

theorem Row.value_of_mem {row : Row} (h : (row.map Prod.fst).Nodup) {field : Identifier × SqlValue}
    (hfield : field ∈ row) : row.value field.1 = field.2 := by
  obtain ⟨before, after, rfl⟩ := List.append_of_mem hfield
  have hlookup : (before ++ field :: after).lookup field.1 = some field.2 := by
    refine List.lookup_eq_some_iff.mpr ⟨before, after, rfl, fun other hother => ?_⟩
    rw [List.map_append, List.map_cons] at h
    have hne := (List.nodup_append.mp h).2.2 other.1 (List.mem_map_of_mem hother) field.1 (by simp)
    simpa using hne.symm
  rw [Row.value, hlookup]
  rfl

theorem Row.eq_map {row : Row} (h : (row.map Prod.fst).Nodup) :
    (row.map Prod.fst).map (fun column => (column, row.value column)) = row := by
  rw [List.map_map]
  refine (List.map_congr_left fun field hfield => ?_).trans (List.map_id row)
  rw [Function.comp_apply, Row.value_of_mem h hfield]
  rfl

/-- What the triggers write of a row stands for that row. -/
theorem decodeRow_rowObject {row : Row} {table : TableSchema} (h : row.Storable table)
    (hcolumns : (table.columns.map ColumnSchema.name).Nodup) :
    decodeRow doubles table (rowObject table row) = some row := by
  have hmap : (table.columns.map ColumnSchema.name).mapM (decodeField doubles (rowObject table row)) =
      .ok ((table.columns.map ColumnSchema.name).map fun column => (column, row.value column)) := by
    rw [mapM_ok_iff, List.forall₂_map_right_iff, List.forall₂_same]
    intro column hcolumn
    rw [decodeField, rowObject, lookup_jsonObject hcolumn, Option.getD_some,
      jsonParameter_syncJson (h.finite column)]
    rfl
  have hrow : row.map Prod.fst = table.columns.map ColumnSchema.name := h.of
  rw [decodeRow, hmap, ← hrow, Row.eq_map (hrow ▸ hcolumns)]
  rfl

/-- Rows with the same key text have the same key. -/
theorem value_eq_of_capturedKey (hlawful : doubles.Lawful) {table : TableSchema} {a b : Row}
    (ha : a.Storable table) (hb : b.Storable table)
    (h : capturedKey doubles table a = capturedKey doubles table b) :
    ∀ column ∈ keyColumns table, a.value column = b.value column := by
  have hwellFormed (row : Row) : Value.WellFormed (.object (jsonObject (keyColumns table) row)) := by
    refine (fieldsWellFormed_iff _).mpr fun field hfield => ?_
    obtain ⟨column, _, rfl⟩ := List.mem_map.mp hfield
    exact wellFormed_syncJson _
  have hdelimited : Delimited [] := fun c hc => by cases hc
  have hobjects := (valueText_append_inj hlawful (hwellFormed a) (hwellFormed b) hdelimited hdelimited
    (congrArg (· ++ []) h)).1
  intro column hcolumn
  have hfields := List.map_inj_left.mp (Value.object.inj hobjects) column hcolumn
  have hsame : syncJson (a.value column) = syncJson (b.value column) := (Prod.mk.inj hfields).2
  have hread : jsonParameter doubles (syncJson (a.value column)) = .ok (a.value column) :=
    jsonParameter_syncJson (ha.finite column)
  rw [hsame, jsonParameter_syncJson (hb.finite column), Except.ok.injEq] at hread
  exact hread.symm

/-- Rows of one key cannot stand together. -/
theorem clash_of_capturedKey (hlawful : doubles.Lawful) {table : PhysicalTable} {a b : Row}
    (ha : a.Storable table.schema) (hb : b.Storable table.schema) (hkeyed : keyColumns table.schema ≠ [])
    (h : capturedKey doubles table.schema a = capturedKey doubles table.schema b) :
    table.clash a b = true := by
  have hvalues := value_eq_of_capturedKey hlawful ha hb h
  refine List.any_eq_true.mpr ⟨keyColumns table.schema, List.mem_cons_self, ?_⟩
  simp only [Bool.and_eq_true, Bool.not_eq_true', List.isEmpty_eq_false_iff, List.all_eq_true,
    decide_eq_true_eq, PhysicalTable.agree]
  refine ⟨⟨hkeyed, fun column hcolumn => ⟨ha.key column hcolumn, hb.key column hcolumn⟩⟩, ?_⟩
  intro column hcolumn
  rw [hvalues column hcolumn]

/-- What the log makes of a row once its trigger has fired, or the row it makes room for has
come. -/
def Waiting.apply (doubles : Doubles) (rows : Replica) (waiting : Waiting) : Replica := fun name key =>
  if waiting.table.name = name ∧ capturedKey doubles waiting.table waiting.row = key then
    if waiting.operation = .delete then none else some (rowObject waiting.table waiting.row)
  else rows name key

def Replica.awaiting (doubles : Doubles) (rows : Replica) (waiting : List Waiting) : Replica :=
  waiting.foldl (Waiting.apply doubles) rows

def Unawaited (doubles : Doubles) (waiting : List Waiting) (table : TableSchema) (row : Row) : Prop :=
  ∀ w ∈ waiting, w.table.name = table.name → capturedKey doubles w.table w.row ≠ capturedKey doubles table row

instance (waiting : List Waiting) (table : TableSchema) (row : Row) :
    Decidable (Unawaited doubles waiting table row) :=
  inferInstanceAs (Decidable (∀ w ∈ waiting, w.table.name = table.name → _ ≠ _))

section Awaiting
variable {rows rows' : Replica} {waiting : List Waiting} {name : Identifier} {key : List Char}

/-- What waits decides for its own keys alone. -/
theorem awaiting_congr (h : rows name key = rows' name key) :
    rows.awaiting doubles waiting name key = rows'.awaiting doubles waiting name key := by
  induction waiting generalizing rows rows' with
  | nil => exact h
  | cons w waiting ih =>
    refine ih ?_
    simp only [Waiting.apply, h]

theorem awaiting_eq (h : ∀ w ∈ waiting, ¬(w.table.name = name ∧ capturedKey doubles w.table w.row = key)) :
    rows.awaiting doubles waiting name key = rows name key := by
  induction waiting generalizing rows with
  | nil => rfl
  | cons w waiting ih =>
    refine (ih fun other hother => h other (List.mem_cons_of_mem w hother)).trans ?_
    exact if_neg (h w (by simp))

/-- A row comes to wait whose key none of the others has. -/
theorem awaiting_cons {w : Waiting} (h : Unawaited doubles waiting w.table w.row) :
    rows.awaiting doubles (w :: waiting) w.table.name key =
      if key = capturedKey doubles w.table w.row then
        if w.operation = .delete then none else some (rowObject w.table w.row)
      else rows.awaiting doubles waiting w.table.name key := by
  by_cases hkey : key = capturedKey doubles w.table w.row
  · rw [if_pos hkey]
    refine (awaiting_eq fun other hother hsame => h other hother hsame.1 (hsame.2.trans hkey)).trans ?_
    exact if_pos ⟨rfl, hkey.symm⟩
  · rw [if_neg hkey]
    have hother : Waiting.apply doubles rows w w.table.name key = rows w.table.name key :=
      if_neg fun hsame => hkey hsame.2.symm
    exact awaiting_congr hother

theorem awaiting_append {dropped : List Waiting}
    (h : ∀ w ∈ dropped, ¬(w.table.name = name ∧ capturedKey doubles w.table w.row = key)) :
    rows.awaiting doubles (dropped ++ waiting) name key = rows.awaiting doubles waiting name key := by
  rw [Replica.awaiting, List.foldl_append]
  exact awaiting_congr (awaiting_eq h)

end Awaiting

structure Faithful (doubles : Doubles) (table : TableSchema) (rows : Replica) (entries : Contents) :
    Prop where
  distinct : Distinct entries
  storable : ∀ entry ∈ entries, entry.row.Storable table
  logged : ∀ entry ∈ entries, ∃ values,
    rows table.name (capturedKey doubles table entry.row) = some values ∧
      decodeRow doubles table values = some entry.row
  live : ∀ key values, rows table.name key = some values →
    ∃ entry ∈ entries, capturedKey doubles table entry.row = key
  unique : ∀ a ∈ entries, ∀ b ∈ entries,
    capturedKey doubles table a.row = capturedKey doubles table b.row → a = b

section Faithful
variable {table : TableSchema} {rows rows' : Replica} {entries entries' : Contents}

/-- A row takes its place: it is what its key stands for, and of the others those stay that do
not have its key. -/
theorem Faithful.place (h : Faithful doubles table rows entries)
    (hcolumns : (table.columns.map ColumnSchema.name).Nodup) (new : Entry Row)
    (hnew : new.row.Storable table) (hdistinct : Distinct entries')
    (hentries : ∀ entry, entry ∈ entries' ↔ (entry ∈ entries ∧
      capturedKey doubles table entry.row ≠ capturedKey doubles table new.row) ∨ entry = new)
    (hrows : ∀ key, rows' table.name key =
      if key = capturedKey doubles table new.row then some (rowObject table new.row)
      else rows table.name key) :
    Faithful doubles table rows' entries' where
  distinct := hdistinct
  storable entry hentry := by
    obtain ⟨hold, _⟩ | rfl := (hentries entry).mp hentry
    · exact h.storable entry hold
    · exact hnew
  logged entry hentry := by
    obtain ⟨hold, hkey⟩ | rfl := (hentries entry).mp hentry
    · rw [hrows, if_neg hkey]
      exact h.logged entry hold
    · rw [hrows, if_pos rfl]
      exact ⟨_, rfl, decodeRow_rowObject hnew hcolumns⟩
  live key values hvalues := by
    rw [hrows] at hvalues
    by_cases hkey : key = capturedKey doubles table new.row
    · exact ⟨new, (hentries new).mpr (.inr rfl), hkey.symm⟩
    · rw [if_neg hkey] at hvalues
      obtain ⟨entry, hold, rfl⟩ := h.live key values hvalues
      exact ⟨entry, (hentries entry).mpr (.inl ⟨hold, hkey⟩), rfl⟩
  unique a ha b hb hkey := by
    obtain ⟨ha, hother⟩ | rfl := (hentries a).mp ha
    · obtain ⟨hb, _⟩ | rfl := (hentries b).mp hb
      · exact h.unique a ha b hb hkey
      · exact absurd hkey hother
    · obtain ⟨hb, hother⟩ | rfl := (hentries b).mp hb
      · exact absurd hkey.symm hother
      · rfl

theorem Faithful.remove (h : Faithful doubles table rows entries) {old : Entry Row} (hold : old ∈ entries)
    (hrows : ∀ key, rows' table.name key =
      if key = capturedKey doubles table old.row then none else rows table.name key) :
    Faithful doubles table rows' (entries.filter (·.id ≠ old.id)) := by
  have hmem (entry : Entry Row) : entry ∈ entries.filter (·.id ≠ old.id) ↔ entry ∈ entries ∧ entry ≠ old := by
    rw [List.mem_filter, decide_eq_true_eq]
    refine and_congr_right fun hentry => not_congr ⟨fun hid => ?_, fun hsame => hsame ▸ rfl⟩
    exact h.distinct.eq_of_id hentry hold hid
  refine ⟨h.distinct.sublist (List.filter_sublist.map _), ?_, ?_, ?_, ?_⟩
  · intro entry hentry
    exact h.storable entry ((hmem entry).mp hentry).1
  · intro entry hentry
    obtain ⟨hentry, hne⟩ := (hmem entry).mp hentry
    rw [hrows, if_neg fun hkey => hne (h.unique entry hentry old hold hkey)]
    exact h.logged entry hentry
  · intro key values hvalues
    rw [hrows] at hvalues
    split_ifs at hvalues with hkey
    obtain ⟨entry, hentry, rfl⟩ := h.live key values hvalues
    exact ⟨entry, (hmem entry).mpr ⟨hentry, fun hsame => hkey (hsame ▸ rfl)⟩, rfl⟩
  · intro a ha b hb
    exact h.unique a ((hmem a).mp ha).1 b ((hmem b).mp hb).1

theorem Faithful.congr (h : Faithful doubles table rows entries)
    (hrows : ∀ key, rows' table.name key = rows table.name key) : Faithful doubles table rows' entries where
  distinct := h.distinct
  storable := h.storable
  logged entry hentry := by
    rw [hrows]
    exact h.logged entry hentry
  live key values hvalues := h.live key values ((hrows key).symm.trans hvalues)
  unique := h.unique

end Faithful

end Ffdb.Runtime
