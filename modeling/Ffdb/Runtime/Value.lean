import Ffdb.Runtime.Json
import Ffdb.Lib.Base64
import Ffdb.Rls.Catalog
import Mathlib.Data.List.Sort

/-! Values of columns and the JSON they are exchanged as: by the capture triggers, by query
results and by the mutations of clients. -/
namespace Ffdb.Runtime
open Sql Rls Fallible
open Sync (Value Number JsonMap)

/-- A stored value, or a parameter bound to a statement. Reals by their bits. -/
inductive SqlValue where
  | null
  | integer (value : Int64)
  | real (bits : UInt64)
  | text (value : String)
  | blob (bytes : List UInt8)
  deriving DecidableEq

inductive RuntimeError where
  | sqlTooLarge
  | tooManyVariables
  | statementNotAllowed
  | responseTooLarge
  | databaseTooLarge
  | cancelled
  | deadlineExceeded
  | constraintViolation
  | syncCursorInvalid
  | syncSchemaMismatch
  | syncMutationInvalid
  | storageQuotaExceeded
  | storageReservationDuplicate
  | storageReservationMismatch
  | usageReceiptConflict
  | usageReceiptInvalid
  | database
  deriving DecidableEq

abbrev Row := List (Identifier × SqlValue)

def Row.value (row : Row) (column : Identifier) : SqlValue := (row.lookup column).getD .null

def Row.Of (row : Row) (table : TableSchema) : Prop :=
  row.map Prod.fst = table.columns.map ColumnSchema.name

def columnName (column : Identifier) : String := String.ofList column.value

def keyColumns (table : TableSchema) : List Identifier :=
  ((table.columns.filterMap fun column => column.primaryKeyOrdinal.map (·, column.name)).insertionSort
    (·.1 ≤ ·.1)).map Prod.snd

def ofInteger (value : Int64) : Number :=
  if 0 ≤ value.toInt then .posInt value.toInt.toNat else .negInt value.toInt

def blobJson (bytes : List UInt8) : Value :=
  .object [("$blob", .string (String.ofList (Base64.encodeStandard bytes)))]

/-- The function `__ffdb_sync_json`, by which the triggers write a value. -/
def syncJson : SqlValue → Value
  | .null => .null
  | .integer value => .number (ofInteger value)
  | .real bits => if isFinite bits then .number (.float bits) else .null
  | .text value => .string value
  | .blob bytes => blobJson bytes

inductive ResultValue where
  | null
  | integer (value : Int64)
  | integerString (value : String)
  | real (bits : UInt64)
  | text (value : String)
  | blob (data : String)
  deriving DecidableEq

def maxSafeInteger : Int := 9007199254740991

def isSafeInteger (value : Int64) : Bool :=
  -maxSafeInteger ≤ value.toInt && value.toInt ≤ maxSafeInteger

def ResultValue.fromValueRef : SqlValue → ResultValue
  | .null => .null
  | .integer value =>
    if isSafeInteger value then .integer value
    else .integerString value.toInt.repr
  | .real bits => .real bits
  | .text value => .text value
  | .blob bytes => .blob (String.ofList (Base64.encodeStandard bytes))

def resultJson : ResultValue → Except RuntimeError Value
  | .null => .ok .null
  | .integer value => .ok (.number (ofInteger value))
  | .integerString value => .ok (.string value)
  | .real bits => if isFinite bits then .ok (.number (.float bits)) else .error .database
  | .text value => .ok (.string value)
  | .blob data => .ok (.object [("$blob", .string data)])

def Number.asI64 : Number → Option Int64
  | .posInt value => if value < 2^63 then some (Int64.ofNat value) else none
  | .negInt value => some (Int64.ofInt value)
  | .float _ => none

section Doubles
variable (doubles : Doubles)

def Number.asF64 : Number → UInt64
  | .posInt value => doubles.ofInt value
  | .negInt value => doubles.ofInt value
  | .float bits => bits

def jsonParameter : Value → Except RuntimeError SqlValue
  | .null => .ok .null
  | .bool value => .ok (.integer (if value then 1 else 0))
  | .number value =>
    match Number.asI64 value with
    | some integer => .ok (.integer integer)
    | none =>
      if isFinite (Number.asF64 doubles value) then .ok (.real (Number.asF64 doubles value))
      else .error .syncMutationInvalid
  | .string value => .ok (.text value)
  | .object [("$blob", .string data)] => do
    let bytes ← orError (Base64.decodeStandard data.toList) .syncMutationInvalid
    pure (.blob bytes)
  | .object [("$blob", _)] => .error .syncMutationInvalid
  | .array items => .ok (.text (String.ofList (valueText doubles (.array items))))
  | .object fields => .ok (.text (String.ofList (valueText doubles (.object fields))))

end Doubles

/-- `Map::insert`: fields are kept in the order of their names. -/
def mapInsert (name : String) (value : Value) : JsonMap → JsonMap
  | [] => [(name, value)]
  | (other, otherValue) :: rest =>
    if name < other then (name, value) :: (other, otherValue) :: rest
    else if name = other then (name, value) :: rest
    else (other, otherValue) :: mapInsert name value rest

def collectMap (fields : JsonMap) : JsonMap :=
  fields.foldl (fun map field => mapInsert field.1 field.2 map) []

def SortedFields (fields : JsonMap) : Prop := (fields.map Prod.fst).Pairwise (· < ·)

theorem mem_mapInsert {name other : String} {value : Value} {map : JsonMap}
    (h : other ∈ (mapInsert name value map).map Prod.fst) :
    other = name ∨ other ∈ map.map Prod.fst := by
  induction map with
  | nil => simpa [mapInsert] using h
  | cons field rest ih =>
    obtain ⟨n, v⟩ := field
    rw [mapInsert] at h
    split_ifs at h with hlt heq
    · simpa using h
    · simp only [List.map_cons, List.mem_cons] at h ⊢
      obtain h | h := h
      · exact .inl h
      · exact .inr (.inr h)
    · simp only [List.map_cons, List.mem_cons] at h ⊢
      obtain h | h := h
      · exact .inr (.inl h)
      · exact (ih h).imp_right .inr

theorem sorted_mapInsert (name : String) (value : Value) {map : JsonMap} (h : SortedFields map) :
    SortedFields (mapInsert name value map) := by
  induction map with
  | nil => exact List.pairwise_singleton _ _
  | cons field rest ih =>
    obtain ⟨n, v⟩ := field
    obtain ⟨hhead, htail⟩ := List.pairwise_cons.mp h
    rw [mapInsert]
    split_ifs with hlt heq
    · refine List.pairwise_cons.mpr ⟨fun other hother => ?_, h⟩
      obtain rfl | hother := List.mem_cons.mp hother
      · exact hlt
      · exact hlt.trans (hhead other hother)
    · subst heq
      exact h
    · refine List.pairwise_cons.mpr ⟨fun other hother => ?_, ih htail⟩
      obtain rfl | hother := mem_mapInsert hother
      · exact lt_of_le_of_ne (not_lt.mp hlt) (Ne.symm heq)
      · exact hhead other hother

theorem sorted_collectMap (fields : JsonMap) : SortedFields (collectMap fields) := by
  have hfold (map : JsonMap) (hmap : SortedFields map) :
      SortedFields (fields.foldl (fun map field => mapInsert field.1 field.2 map) map) := by
    induction fields generalizing map with
    | nil => exact hmap
    | cons field rest ih => exact ih _ (sorted_mapInsert field.1 field.2 hmap)
  exact hfold [] List.Pairwise.nil

theorem mapInsert_last {name : String} {value : Value} {map : JsonMap}
    (h : ∀ other ∈ map.map Prod.fst, other < name) : mapInsert name value map = map ++ [(name, value)] := by
  induction map with
  | nil => rfl
  | cons field rest ih =>
    obtain ⟨n, v⟩ := field
    have hlt : n < name := h n (by simp)
    rw [mapInsert, if_neg (not_lt.mpr hlt.le), if_neg hlt.ne', List.cons_append,
      ih fun other hother => h other (List.mem_cons_of_mem n hother)]

theorem collectMap_of_sorted {fields : JsonMap} (h : SortedFields fields) :
    collectMap fields = fields := by
  have hfold (fields map : JsonMap) (hall : SortedFields (map ++ fields)) :
      fields.foldl (fun map field => mapInsert field.1 field.2 map) map = map ++ fields := by
    induction fields generalizing map with
    | nil => simp
    | cons field rest ih =>
      have hlast : mapInsert field.1 field.2 map = map ++ [field] := by
        refine mapInsert_last fun other hother => ?_
        rw [SortedFields, List.map_append, List.pairwise_append] at hall
        exact hall.2.2 other hother field.1 (by simp)
      have hsplit : map ++ field :: rest = map ++ [field] ++ rest := by simp
      rw [List.foldl_cons, hlast, hsplit]
      exact ih _ (hsplit ▸ hall)
  exact hfold fields [] h

end Ffdb.Runtime
