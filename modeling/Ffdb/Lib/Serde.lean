import Ffdb.Lib.Keyed

/-! Formats: how the values of a type are written as JSON, and how they are read from it. A format for each shape that
a derived implementation has, and when a value survives being written and read again. -/

inductive Json (ν : Type) where
  | null
  | bool (value : Bool)
  | number (value : ν)
  | string (value : List Char)
  | array (items : List (Json ν))
  | object (fields : List (List Char × Json ν))

/-- Some values cannot be written. -/
structure Format (ν α : Type) where
  write : α → Option (Json ν)
  read : Json ν → Option α

/-- The fields of a part of an object: what is written has their names, and what is read depends on nothing else. -/
structure Fields (ν α : Type) where
  names : List (List Char)
  write : α → Option (List (List Char × Json ν))
  read : List (List Char × Json ν) → Option α
  named {a : α} {written : List (List Char × Json ν)} (h : write a = some written) : written.map Prod.fst = names
  own {found found' : List (List Char × Json ν)} (h : ∀ name ∈ names, found.lookup name = found'.lookup name) :
    read found = read found'

variable {ν α β γ : Type}

def Format.Keeps (format : Format ν α) (a : α) : Prop := ∃ json, format.write a = some json ∧ format.read json = some a

def Fields.Keeps (fields : Fields ν α) (a : α) : Prop :=
  fields.names.Nodup → ∃ written, fields.write a = some written ∧ fields.read written = some a

namespace Format

def string : Format ν (List Char) where
  write text := some (.string text)
  read
    | .string text => some text
    | _ => none

def bool : Format ν Bool where
  write value := some (.bool value)
  read
    | .bool value => some value
    | _ => none

def number : Format ν ν where
  write value := some (.number value)
  read
    | .number value => some value
    | _ => none

def as (format : Format ν α) (encode : β → α) (decode : α → Option β) : Format ν β where
  write b := format.write (encode b)
  read json := (format.read json).bind decode

def option (format : Format ν α) : Format ν (Option α) where
  write
    | none => some .null
    | some a => format.write a
  read
    | .null => some none
    | json => (format.read json).map some

def list (format : Format ν α) : Format ν (List α) where
  write items := (items.mapM format.write).map .array
  read
    | .array items => items.mapM format.read
    | _ => none

def enumeration (values : List α) (name : α → String) : Format ν α where
  write a := some (.string (name a).toList)
  read
    | .string text => values.find? fun a => (name a).toList = text
    | _ => none

def struct (fields : Fields ν α) : Format ν α where
  write a := (fields.write a).map .object
  read
    | .object found => fields.read found
    | _ => none

end Format

namespace Fields

def nothing : Fields ν Unit where
  names := []
  write _ := some []
  read _ := some ()
  named h := by
    cases h
    rfl
  own _ := rfl

def one (name : List Char) (format : Format ν α) : Fields ν α where
  names := [name]
  write a := (format.write a).map fun json => [(name, json)]
  read found := (found.lookup name).bind format.read
  named h := by
    obtain ⟨json, -, rfl⟩ := Option.map_eq_some_iff.mp h
    rfl
  own h := by rw [h name (by simp)]

def maybe (name : List Char) (format : Format ν α) : Fields ν (Option α) where
  names := [name]
  write a := (format.option.write a).map fun json => [(name, json)]
  read found := ((found.lookup name).getD .null) |> format.option.read
  named h := by
    obtain ⟨json, -, rfl⟩ := Option.map_eq_some_iff.mp h
    rfl
  own h := by rw [h name (by simp)]

def and (fields : Fields ν α) (others : Fields ν β) : Fields ν (α × β) where
  names := fields.names ++ others.names
  write pair := do
    let written ← fields.write pair.1
    let rest ← others.write pair.2
    pure (written ++ rest)
  read found := do
    let a ← fields.read found
    let b ← others.read found
    pure (a, b)
  named h := by
    simp only [Option.bind_eq_bind, Option.bind_eq_some_iff] at h
    obtain ⟨written, hwritten, rest, hrest, hpure⟩ := h
    obtain rfl := Option.some.inj hpure
    rw [List.map_append, fields.named hwritten, others.named hrest]
  own h := by
    rw [fields.own fun name hname => h name (List.mem_append_left _ hname),
      others.own fun name hname => h name (List.mem_append_right _ hname)]

def as (fields : Fields ν α) (encode : β → α) (decode : α → Option β) : Fields ν β where
  names := fields.names
  write b := fields.write (encode b)
  read found := (fields.read found).bind decode
  named h := fields.named h
  own h := by rw [fields.own h]

def form (fields : Fields ν α) (encode : β → Option α) (decode : α → β) : Fields ν β where
  names := fields.names
  write b := (encode b).bind fields.write
  read found := (fields.read found).map decode
  named h := by
    obtain ⟨a, -, hwrite⟩ := Option.bind_eq_some_iff.mp h
    exact fields.named hwrite
  own h := by rw [fields.own h]

end Fields

structure Variant (ν α : Type) where
  name : List Char
  is : α → Bool
  fields : Fields ν α

def Variant.of (name : List Char) (fields : Fields ν α) (encode : β → Option α) (decode : α → β) : Variant ν β :=
  ⟨name, fun b => (encode b).isSome, fields.form encode decode⟩

/-- The name of the form under a tag, next to the fields of the form. -/
def Format.tagged (tag : List Char) (variants : List (Variant ν α)) : Format ν α where
  write a := do
    let variant ← variants.find? (·.is a)
    let written ← variant.fields.write a
    pure (.object ((tag, .string variant.name) :: written))
  read
    | .object found => do
      let name ← (found.lookup tag).bind Format.string.read
      let variant ← variants.find? (·.name = name)
      variant.fields.read found
    | _ => none

/-- A key of an object is a text; a number and a boolean are written as one, and no other value can be a key. -/
def Json.keyText (numberText : ν → List Char) : Json ν → Option (List Char)
  | .string text => some text
  | .number value => some (numberText value)
  | .bool value => some (if value then ['t', 'r', 'u', 'e'] else ['f', 'a', 'l', 's', 'e'])
  | _ => none

section Tables
variable {κ : Type} [DecidableEq κ] (numberText : ν → List Char) (key : Format ν κ) (value : Format ν α)

def Format.entry : Sigma (fun _ : κ => α) → Option (List Char × Json ν)
  | ⟨k, a⟩ => do
    let text ← (key.write k).bind (Json.keyText numberText)
    let json ← value.write a
    pure (text, json)

def Format.readEntry (field : List Char × Json ν) : Option (Sigma fun _ : κ => α) := do
  let k ← key.read (.string field.1)
  let a ← value.read field.2
  pure ⟨k, a⟩

/-- The table of some entries; of two with one key the last counts. -/
def tableOf (entries : List (Sigma fun _ : κ => α)) : Table κ α :=
  entries.foldr (fun entry table => if (table.lookup entry.1).isSome then table else table.insert entry.1 entry.2) ∅

def Format.table : Format ν (Table κ α) where
  write table := (table.entries.mapM (Format.entry numberText key value)).map .object
  read
    | .object fields => (fields.mapM (Format.readEntry key value)).map tableOf
    | _ => none

end Tables

section Names
variable (name : List Char) (format : Format ν α) (fields : Fields ν α)

@[simp]
theorem names_nothing : (Fields.nothing : Fields ν Unit).names = [] := rfl

@[simp]
theorem names_one : (Fields.one name format).names = [name] := rfl

@[simp]
theorem names_maybe : (Fields.maybe name format).names = [name] := rfl

@[simp]
theorem names_and (others : Fields ν β) : (fields.and others).names = fields.names ++ others.names := rfl

@[simp]
theorem names_as (encode : β → α) (decode : α → Option β) : (fields.as encode decode).names = fields.names := rfl

@[simp]
theorem name_of (encode : β → Option α) (decode : α → β) : (Variant.of name fields encode decode).name = name := rfl

@[simp]
theorem fields_of (encode : β → Option α) (decode : α → β) :
    (Variant.of name fields encode decode).fields.names = fields.names := rfl

end Names

section Keeps
variable {format : Format ν α} {fields : Fields ν α} {others : Fields ν β}

theorem keeps_string (text : List Char) : (Format.string : Format ν (List Char)).Keeps text := ⟨_, rfl, rfl⟩

theorem keeps_bool (value : Bool) : (Format.bool : Format ν Bool).Keeps value := ⟨_, rfl, rfl⟩

theorem keeps_number (value : ν) : Format.number.Keeps value := ⟨_, rfl, rfl⟩

theorem Format.Keeps.as {encode : β → α} {decode : α → Option β} {b : β} (h : format.Keeps (encode b))
    (hdecode : decode (encode b) = some b) :
    (format.as encode decode).Keeps b := by
  obtain ⟨json, hwrite, hread⟩ := h
  exact ⟨json, hwrite, by simp [Format.as, hread, hdecode]⟩

/-- A value that is not written as null survives as one that may be absent. -/
theorem Format.Keeps.option {value : Option α} (h : ∀ a ∈ value, format.Keeps a) (hnull : format.read .null = .none)
    : format.option.Keeps value := by
  cases value with
  | none => exact ⟨.null, rfl, rfl⟩
  | some a =>
    obtain ⟨json, hwrite, hread⟩ := h a rfl
    refine ⟨json, hwrite, ?_⟩
    cases json with
    | null =>
      rw [hnull] at hread
      cases hread
    | bool _ | number _ | string _ | array _ | object _ => simp [Format.option, hread]

theorem Format.Keeps.list {items : List α} (h : ∀ a ∈ items, format.Keeps a) : format.list.Keeps items := by
  have hall : ∃ jsons, items.mapM format.write = some jsons ∧ jsons.mapM format.read = some items := by
    induction items with
    | nil => exact ⟨[], rfl, rfl⟩
    | cons a items ih =>
      obtain ⟨json, hwrite, hread⟩ := h a (by simp)
      obtain ⟨jsons, hwrites, hreads⟩ := ih fun a ha => h a (List.mem_cons_of_mem _ ha)
      exact ⟨json :: jsons, by simp [hwrite, hwrites], by simp [hread, hreads]⟩
  obtain ⟨jsons, hwrites, hreads⟩ := hall
  exact ⟨.array jsons, by simp [Format.list, hwrites], hreads⟩

theorem keeps_enumeration {values : List α} {name : α → String} {a : α} (hmem : a ∈ values)
    (hnames : (values.map name).Nodup) : (Format.enumeration values name : Format ν α).Keeps a := by
  refine ⟨_, rfl, ?_⟩
  simp only [Format.enumeration]
  cases hfound : values.find? fun b => (name b).toList = (name a).toList with
  | none => simpa using List.find?_eq_none.mp hfound a hmem
  | some b =>
    have hsame : name b = name a := String.toList_inj.mp (by simpa using List.find?_some hfound)
    rw [List.inj_on_of_nodup_map hnames (List.mem_of_find?_eq_some hfound) hmem hsame]

theorem Fields.Keeps.struct {a : α} (h : fields.Keeps a) (hnames : fields.names.Nodup) :
    (Format.struct fields).Keeps a := by
  obtain ⟨written, hwrite, hread⟩ := h hnames
  exact ⟨.object written, by simp [Format.struct, hwrite], hread⟩

theorem keeps_nothing : (Fields.nothing : Fields ν Unit).Keeps () := fun _ => ⟨[], rfl, rfl⟩

theorem Format.Keeps.one {a : α} (h : format.Keeps a) {name : List Char} : (Fields.one name format).Keeps a := by
  intro _
  obtain ⟨json, hwrite, hread⟩ := h
  exact ⟨[(name, json)], by simp [Fields.one, hwrite], by simp [Fields.one, hread]⟩

theorem Format.Keeps.maybe {value : Option α} (h : format.option.Keeps value) {name : List Char} :
    (Fields.maybe name format).Keeps value := by
  intro _
  obtain ⟨json, hwrite, hread⟩ := h
  exact ⟨[(name, json)], by simp [Fields.maybe, hwrite], by simp [Fields.maybe, hread]⟩

theorem Fields.Keeps.as {encode : β → α} {decode : α → Option β} {b : β} (h : fields.Keeps (encode b))
    (hdecode : decode (encode b) = some b) : (fields.as encode decode).Keeps b := by
  intro hnames
  obtain ⟨written, hwrite, hread⟩ := h hnames
  exact ⟨written, hwrite, by simp [Fields.as, hread, hdecode]⟩

theorem Fields.Keeps.form {encode : β → Option α} {decode : α → β} {a : α} {b : β} (h : fields.Keeps a)
    (hencode : encode b = some a) (hdecode : decode a = b) : (fields.form encode decode).Keeps b := by
  intro hnames
  obtain ⟨written, hwrite, hread⟩ := h hnames
  exact ⟨written, by simp [Fields.form, hencode, hwrite], by simp [Fields.form, hread, hdecode]⟩

theorem isSome_lookup_of_mem {written : List (List Char × Json ν)} {name : List Char}
    (h : name ∈ written.map Prod.fst) : (written.lookup name).isSome = true := by
  induction written with
  | nil => cases h
  | cons field rest ih =>
    rw [List.lookup_cons]
    cases hname : name == field.1 with
    | true => rfl
    | false =>
      refine ih ?_
      obtain hhead | hrest := List.mem_cons.mp h
      · simp [hhead] at hname
      · exact hrest

theorem lookup_eq_none_of_not_mem {written : List (List Char × Json ν)} {name : List Char}
    (h : name ∉ written.map Prod.fst) : written.lookup name = none := by
  induction written with
  | nil => rfl
  | cons field rest ih =>
    obtain ⟨hhead, hrest⟩ : name ≠ field.1 ∧ name ∉ rest.map Prod.fst := by simpa using h
    rw [List.lookup_cons, beq_eq_false_iff_ne.mpr hhead]
    exact ih hrest

/-- Two parts with names of their own do not disturb each other. -/
theorem Fields.Keeps.and {a : α} {b : β} (h : fields.Keeps a) (hothers : others.Keeps b) :
    (fields.and others).Keeps (a, b) := by
  intro hnames
  obtain ⟨hfields, hrest, hdisjoint⟩ := List.nodup_append.mp hnames
  obtain ⟨written, hwrite, hread⟩ := h hfields
  obtain ⟨rest, hwriteRest, hreadRest⟩ := hothers hrest
  refine ⟨written ++ rest, by simp [Fields.and, hwrite, hwriteRest], ?_⟩
  have hleft : fields.read (written ++ rest) = some a := by
    rw [← hread]
    refine fields.own fun name hname => ?_
    rw [List.lookup_append]
    obtain ⟨json, hjson⟩ := Option.isSome_iff_exists.mp (isSome_lookup_of_mem (fields.named hwrite ▸ hname))
    rw [hjson, Option.some_or]
  have hright : others.read (written ++ rest) = some b := by
    rw [← hreadRest]
    refine others.own fun name hname => ?_
    rw [List.lookup_append, lookup_eq_none_of_not_mem, Option.none_or]
    rw [fields.named hwrite]
    exact fun hmem => hdisjoint name hmem name hname rfl
  simp [Fields.and, hleft, hright]

/-- A value survives under a tag if it does in the form that it has. -/
theorem keeps_tagged {tag : List Char} {variants : List (Variant ν α)} {variant : Variant ν α} {a : α}
    (hnames : (variants.map Variant.name).Nodup) (hfound : variants.find? (·.is a) = some variant)
    (hfields : (tag :: variant.fields.names).Nodup) (h : variant.fields.Keeps a) :
    (Format.tagged tag variants).Keeps a := by
  have hmem := List.mem_of_find?_eq_some hfound
  obtain ⟨htag, hnodup⟩ := List.nodup_cons.mp hfields
  obtain ⟨written, hwrite, hread⟩ := h hnodup
  refine ⟨.object ((tag, .string variant.name) :: written), by simp [Format.tagged, hfound, hwrite], ?_⟩
  have hnamed : variants.find? (·.name = variant.name) = some variant := by
    cases hagain : variants.find? (·.name = variant.name) with
    | none => simpa using List.find?_eq_none.mp hagain variant hmem
    | some other =>
      have hsame : other.name = variant.name := by simpa using List.find?_some hagain
      rw [List.inj_on_of_nodup_map hnames (List.mem_of_find?_eq_some hagain) hmem hsame]
  have hown : variant.fields.read ((tag, .string variant.name) :: written) = some a := by
    rw [← hread]
    refine variant.fields.own fun name hname => ?_
    have hne : name ≠ tag := fun hsame => htag (hsame ▸ hname)
    rw [List.lookup_cons, beq_eq_false_iff_ne.mpr hne]
  simp [Format.tagged, Format.string, hnamed, hown]

section Refused

theorem Fields.write_one {a : α} (h : format.write a = .none) {name : List Char} :
    (Fields.one name format).write a = .none := by simp [Fields.one, h]

theorem Fields.write_and_left {a : α} {b : β} (h : fields.write a = .none) :
    (fields.and others).write (a, b) = .none := by simp [Fields.and, h]

theorem Fields.write_and_right {a : α} {b : β} (h : others.write b = .none) :
    (fields.and others).write (a, b) = .none := by simp [Fields.and, h]

theorem Format.write_struct {a : α} (h : fields.write a = .none) : (Format.struct fields).write a = .none := by
  simp [Format.struct, h]

theorem Format.Keeps.ne_none {a : α} (h : format.Keeps a) : format.write a ≠ .none := by
  obtain ⟨json, hwrite, -⟩ := h
  simp [hwrite]

end Refused

end Keeps

section Tables
variable {κ : Type} [DecidableEq κ] {numberText : ν → List Char} {key : Format ν κ} {value : Format ν α}

theorem entries_tableOf {entries : List (Sigma fun _ : κ => α)} (h : entries.NodupKeys) :
    (tableOf entries).entries = entries := by
  induction entries with
  | nil => rfl
  | cons entry rest ih =>
    obtain ⟨hkey, hrest⟩ := List.nodupKeys_cons.mp h
    have hsame := ih hrest
    have habsent : entry.1 ∉ tableOf rest := fun hmem => hkey (by rwa [AList.mem_keys, AList.keys, hsame] at hmem)
    change (if ((tableOf rest).lookup entry.1).isSome then tableOf rest
      else (tableOf rest).insert entry.1 entry.2).entries = _
    rw [AList.lookup_eq_none.mpr habsent]
    simp only [Option.isSome_none, Bool.false_eq_true, if_false]
    rw [AList.entries_insert_of_notMem habsent, hsame]

theorem keeps_table {table : Table κ α}
    (hkeys : ∀ entry ∈ table.entries, ∃ text, key.write entry.1 = some (.string text) ∧
      key.read (.string text) = some entry.1)
    (hvalues : ∀ entry ∈ table.entries, value.Keeps entry.2) : (Format.table numberText key value).Keeps table := by
  have hall (entries : List (Sigma fun _ : κ => α)) (hin : ∀ entry ∈ entries, entry ∈ table.entries) :
      ∃ fields, entries.mapM (Format.entry numberText key value) = some fields ∧
        fields.mapM (Format.readEntry key value) = some entries := by
    induction entries with
    | nil => exact ⟨[], rfl, rfl⟩
    | cons entry rest ih =>
      obtain ⟨text, hkey, hreadKey⟩ := hkeys entry (hin entry (by simp))
      obtain ⟨json, hvalue, hreadValue⟩ := hvalues entry (hin entry (by simp))
      obtain ⟨fields, hfields, hread⟩ := ih fun entry hentry => hin entry (List.mem_cons_of_mem _ hentry)
      refine ⟨(text, json) :: fields, ?_, ?_⟩
      · simp [Format.entry, Json.keyText, hkey, hvalue, hfields]
      · simp [Format.readEntry, hreadKey, hreadValue, hread]
  obtain ⟨fields, hfields, hread⟩ := hall table.entries fun _ h => h
  refine ⟨.object fields, by simp [Format.table, hfields], ?_⟩
  simp only [Format.table, hread, Option.map_some]
  rw [AList.ext (entries_tableOf table.nodupKeys)]

theorem keeps_table_empty : (Format.table numberText key value).Keeps ∅ :=
  keeps_table (fun _ hentry => (List.not_mem_nil hentry).elim) fun _ hentry => (List.not_mem_nil hentry).elim

/-- A table with a key that is no text, number or boolean cannot be written. -/
theorem write_table_eq_none {table : Table κ α} {entry : Sigma fun _ : κ => α} (hentry : entry ∈ table.entries)
    (hkey : (key.write entry.1).bind (Json.keyText numberText) = none) :
    (Format.table numberText key value).write table = none := by
  have hall (entries : List (Sigma fun _ : κ => α)) (hin : entry ∈ entries) :
      entries.mapM (Format.entry numberText key value) = none := by
    induction entries with
    | nil => cases hin
    | cons first rest ih =>
      obtain rfl | hrest := List.mem_cons.mp hin
      · simp [Format.entry, hkey]
      · simp [ih hrest]
  simp [Format.table, hall table.entries hentry]

end Tables
