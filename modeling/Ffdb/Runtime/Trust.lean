import Ffdb.Lib.Machine
import Ffdb.Runtime.Authorizer
import Ffdb.Runtime.Capture

/-! What the approved sources of the authorizer denote over whole runs: schema statements, the
application of policies, the refresh of change capture and atomic blocks, in any order. -/
namespace Ffdb.Runtime
open Sql Rls Text Authorizer

inductive Origin where
  | developer
  /-- by the compiler of policies or by change capture -/
  | generated
  deriving DecidableEq

/-- An action of a statement or a body, and the innermost of its common table expressions that the
action is for. -/
structure CompiledAction where
  action : AuthAction
  expression : Option (List Char) := none
  deriving DecidableEq

/-- An object of the schema. A trigger or an index is on a table; the body of a view or a trigger
is compiled to actions. -/
structure SchemaObject where
  kind : ObjectKind
  temporary : Bool
  name : List Char
  table : List Char
  tableTemporary : Bool
  body : List CompiledAction
  origin : Origin

/-- Triggers have names of their own; all other objects of a database share theirs. -/
def SchemaObject.sharesName (object : SchemaObject) (isTrigger temporary : Bool) (name : List Char) : Bool :=
  decide ((object.kind = .trigger) = (isTrigger = true)) && object.temporary = temporary &&
    eqIgnoreAsciiCase object.name name

def AuthAction.renamed (old new : List Char) : AuthAction → AuthAction
  | .read table column => .read (if eqIgnoreAsciiCase table old then new else table) column
  | .insert table => .insert (if eqIgnoreAsciiCase table old then new else table)
  | .update table column => .update (if eqIgnoreAsciiCase table old then new else table) column
  | .delete table => .delete (if eqIgnoreAsciiCase table old then new else table)
  | action => action

def CompiledAction.renamed (old new : List Char) (compiled : CompiledAction) : CompiledAction :=
  { compiled with action := compiled.action.renamed old new }

section Schema
variable (objects : List SchemaObject)

def isTaken (isTrigger temporary : Bool) (name : List Char) : Bool :=
  objects.any (·.sharesName isTrigger temporary name)

/-- Temporary objects are found first. -/
def resolve (kinds : List ObjectKind) (name : List Char) : Option SchemaObject :=
  let named (temporary : Bool) := objects.find? fun object =>
    object.temporary = temporary && object.kind ∈ kinds && eqIgnoreAsciiCase object.name name
  (named true).or (named false)

def createObject (object : SchemaObject) : Option (List SchemaObject) :=
  if isTaken objects (object.kind = .trigger) object.temporary object.name then none else some (objects ++ [object])

/-- An object goes, and its triggers and indexes with it. -/
def dropObject (object : SchemaObject) : List SchemaObject :=
  objects.filter fun other =>
    !other.sharesName (object.kind = .trigger) object.temporary object.name &&
      !(object.kind ∈ [.table, .view] && other.kind ∈ [.trigger, .index] &&
        other.tableTemporary = object.temporary && eqIgnoreAsciiCase other.table object.name)

/-- SQLite writes the new name of a table wherever the old one stands. -/
def renameObject (object : SchemaObject) (newName : List Char) : List SchemaObject :=
  objects.map fun other =>
    let body := other.body.map (CompiledAction.renamed object.name newName)
    if other.sharesName false object.temporary object.name then { other with name := newName, body }
    else if other.kind ∈ [.trigger, .index] ∧ other.tableTemporary = object.temporary ∧
        eqIgnoreAsciiCase other.table object.name = true then
      { other with table := newName, body }
    else { other with body }

/-- `ALTER TABLE ... RENAME TO ...`, as SQLite executes it. -/
def renameTable (name newName : List Char) : Option (List SchemaObject) := do
  let object ← resolve objects [.table, .view] name
  guard (object.kind = .table && !isTaken objects false object.temporary newName)
  pure (renameObject objects object newName)

def dropTriggerIfExists (name : List Char) : List SchemaObject :=
  match resolve objects [.trigger] name with
  | some trigger => dropObject objects trigger
  | none => objects

/-- A table of the name is an error. -/
def dropViewIfExists (name : List Char) : Option (List SchemaObject) :=
  match resolve objects [.table, .view] name with
  | some object => if object.kind = .view then some (dropObject objects object) else none
  | none => some objects

end Schema

/-- What is on a temporary table is temporary. -/
def objectToCreate (objects : List SchemaObject) (kind : ObjectKind) (temporary : Bool) (name on : List Char)
    (body : List CompiledAction) : Option SchemaObject :=
  match kind with
  | .table | .view => some ⟨kind, temporary, name, name, temporary, body, .developer⟩
  | .trigger | .index =>
    (resolve objects [.table, .view] on).map fun table =>
      ⟨kind, temporary || table.temporary, name, table.name, table.temporary, body, .developer⟩

inductive Ddl where
  | create (kind : ObjectKind) (temporary : Bool) (name : List Char) (on : List Char) (body : List CompiledAction)
  | drop (kind : ObjectKind) (name : List Char)
  | renameTable (name newName : List Char)

section Statements
variable (context : ContextState) (objects : List SchemaObject)

def executeDdl : Ddl → Option (List SchemaObject)
  | .create kind temporary name on body => do
    let object ← objectToCreate objects kind temporary name on body
    guard (authorize context (.create kind object.temporary name object.table) none)
    createObject objects object
  | .drop kind name => do
    let object ← resolve objects [kind] name
    guard (authorize context (.drop kind object.temporary object.name object.table) none)
    pure (dropObject objects object)
  | .renameTable name newName => do
    let object ← resolve objects [.table, .view] name
    -- the authorizer is not told the new name; the text may hold any, as a string
    guard (authorize context (.alterTable object.name) none)
    renameTable objects name newName

end Statements

structure ProtectionPlan where
  table : Identifier
  isProtected : Bool
  view : List CompiledAction
  triggers : List (List CompiledAction)

/-- The table becomes the backing one, unless it is already. -/
def moveToBacking (objects : List SchemaObject) (plan : ProtectionPlan) (backing : Identifier) :
    Option (List SchemaObject) :=
  if plan.isProtected then some objects else renameTable objects plan.table.value backing.value

def protectTable (objects : List SchemaObject) (plan : ProtectionPlan) :
    Option (List SchemaObject × List Identifier) := do
  guard (!isHiddenName plan.table)
  let backing ← (backingTableName plan.table).toOption
  let sources ← (generatedSourceNames plan.table).toOption
  let objects ← moveToBacking objects plan backing
  let objects ← dropViewIfExists (sources.tail.foldl (fun objects name => dropTriggerIfExists objects name.value) objects)
    plan.table.value
  let objects ← createObject objects ⟨.view, false, plan.table.value, plan.table.value, false, plan.view, .generated⟩
  let objects ← (sources.tail.zip plan.triggers).foldlM (fun objects (name, body) =>
    createObject objects ⟨.trigger, false, name.value, plan.table.value, false, body, .generated⟩) objects
  pure (objects, sources)

def captureSourceNames (table : Identifier) : List (List Char) :=
  ["insert", "update", "delete", "guard"].map fun kind =>
    "__ffdb_sync_capture_".toList ++ kind.toList ++ ['_'] ++ captureSuffix table

structure CapturePlan where
  table : Identifier
  physical : List Char
  bodies : List (List CompiledAction)

def captureTable (objects : List SchemaObject) (plan : CapturePlan) : Option (List SchemaObject) :=
  let names := captureSourceNames plan.table
  (names.zip plan.bodies).foldlM (fun objects (name, body) =>
    createObject objects ⟨.trigger, false, name, plan.physical, false, body, .generated⟩)
      (names.foldl dropTriggerIfExists objects)

structure TrustState where
  objects : List SchemaObject
  approvedSources : List (List Char)
  /-- what an atomic block goes back to -/
  saved : Option (List SchemaObject × List (List Char))

inductive TrustEvent where
  | ddl (mode : ExecutionMode) (statement : Ddl)
  | applyRlsPlan (plans : List ProtectionPlan)
  | suspendChangeCapture
  | refreshChangeCapture (plans : List CapturePlan)
  | begin
  | commit
  | rollback

def applyPlans (objects : List SchemaObject) : List ProtectionPlan → Option (List SchemaObject × List Identifier)
  | [] => some (objects, [])
  | plan :: plans => do
    let (objects, sources) ← protectTable objects plan
    let (objects, more) ← applyPlans objects plans
    pure (objects, sources ++ more)

def capturePrefix : List Char := "__ffdb_sync_capture_".toList

def trustStep (state : TrustState) : TrustEvent → TrustState
  | .ddl mode statement =>
    match executeDdl ⟨some mode, 0, 0, state.approvedSources⟩ state.objects statement with
    | some objects => { state with objects }
    | none => state
  | .applyRlsPlan plans =>
    match applyPlans state.objects plans with
    | some (objects, sources) => { state with
        objects
        approvedSources := state.approvedSources ++ sources.map fun source => toAsciiLowercase source.value }
    | none => state
  | .suspendChangeCapture => { state with objects := state.objects.filter fun object =>
      !(object.kind = .trigger && !object.temporary && capturePrefix.isPrefixOf object.name) }
  | .refreshChangeCapture plans =>
    match plans.foldlM captureTable state.objects with
    | some objects => { state with
        objects
        approvedSources := state.approvedSources ++
          plans.flatMap fun plan => (captureSourceNames plan.table).map toAsciiLowercase }
    | none => state
  | .begin =>
    match state.saved with
    | none => { state with saved := some (state.objects, state.approvedSources) }
    | some _ => state
  | .commit => { state with saved := none }
  | .rollback =>
    match state.saved with
    | some (objects, approvedSources) => ⟨objects, approvedSources, none⟩
    | none => state

/-- What the steps of a run have to meet: a table is not renamed to an approved or an internal name,
and policies are put in force on a table only if no trigger and no index of a developer has its
name. -/
structure TrustState.Admits (state : TrustState) (event : TrustEvent) : Prop where
  renames : ∀ mode name newName, event = .ddl mode (.renameTable name newName) →
    toAsciiLowercase newName ∉ state.approvedSources ∧ isInternal newName = false
  protects : ∀ plans, event = .applyRlsPlan plans → ∀ plan ∈ plans, ∀ object ∈ state.objects,
    object.origin = .developer → object.kind = .trigger ∨ object.kind = .index →
      eqIgnoreAsciiCase object.name plan.table.value = false

def TrustState.AdmitsAll (state : TrustState) : List TrustEvent → Prop
  | [] => True
  | event :: events => state.Admits event ∧ (trustStep state event).AdmitsAll events

section Names

theorem eqIgnoreAsciiCase_iff {a b : List Char} : eqIgnoreAsciiCase a b = true ↔ toAsciiLowercase a = toAsciiLowercase b := by
  simp [eqIgnoreAsciiCase]

def dataPrefix : List Char := "__ffdb_data_".toList

def isDataName (name : List Char) : Bool := dataPrefix.isPrefixOf (toAsciiLowercase name)

theorem isInternal_of_isDataName {name : List Char} (h : isDataName name = true) : isInternal name = true := by
  have hleading : Identifier.internalPrefix <+: dataPrefix := by decide
  exact List.isPrefixOf_iff_prefix.mpr (hleading.trans (List.isPrefixOf_iff_prefix.mp h))

theorem isInternal_congr {a b : List Char} (h : eqIgnoreAsciiCase a b = true) : isInternal a = isInternal b := by
  unfold isInternal Identifier.isInternalName
  rw [eqIgnoreAsciiCase_iff.mp h]

theorem isDataName_congr {a b : List Char} (h : eqIgnoreAsciiCase a b = true) : isDataName a = isDataName b := by
  unfold isDataName
  rw [eqIgnoreAsciiCase_iff.mp h]

theorem startsLike_of_isPrefixOf {pattern : List Char} (hlower : ∀ c ∈ pattern, c.toLower = c) {text : List Char}
    (h : pattern.isPrefixOf (toAsciiLowercase text) = true) : startsLike pattern text = true := by
  induction pattern generalizing text with
  | nil => rfl
  | cons p pattern ih =>
    cases text with
    | nil => cases h
    | cons c text =>
      obtain ⟨hfirst, hrest⟩ := Bool.and_eq_true_iff.mp h
      have hsame : p = c.toLower := by simpa using hfirst
      refine Bool.and_eq_true_iff.mpr ⟨?_, ih (fun c hc => hlower c (List.mem_cons_of_mem p hc)) hrest⟩
      simp [(hlower p List.mem_cons_self).trans hsame]

theorem isHiddenName_of_isInternal {name : Identifier} (h : isInternal name.value = true) :
    isHiddenName name = true := by
  have hlower : "__ffdb_".toList.all (fun c => c.toLower == c) = true := by decide +kernel
  have hlike : startsLike "__ffdb_".toList name.value = true :=
    startsLike_of_isPrefixOf (fun c hc => eq_of_beq (List.all_eq_true.mp hlower c hc)) h
  unfold isHiddenName
  rw [hlike, Bool.true_or]

theorem generatedIdentifier_value {kind : String} {table name : Identifier}
    (h : generatedIdentifier kind table = .ok name) :
    ∃ encoded, name.value = "__ffdb_".toList ++ kind.toList ++ ['_'] ++ encoded := by
  unfold generatedIdentifier at h
  dsimp only at h
  unfold Identifier.new at h
  split_ifs at h
  all_goals simp only [Except.mapError, reduceCtorEq] at h
  obtain rfl := Except.ok.inj h
  exact ⟨_, rfl⟩

theorem isDataName_backingTableName {table name : Identifier} (h : backingTableName table = .ok name) :
    isDataName name.value = true := by
  obtain ⟨encoded, hvalue⟩ := generatedIdentifier_value h
  rw [hvalue]
  rfl

theorem generatedSourceNames_eq {table : Identifier} {names : List Identifier}
    (h : generatedSourceNames table = .ok names) :
    ∃ triggers, names = table :: triggers ∧
      ∀ name ∈ triggers, isInternal name.value = true ∧ isDataName name.value = false := by
  unfold generatedSourceNames at h
  obtain ⟨insert, hinsert, h⟩ := (Fallible.bind_ok_iff _ _ _).mp h
  obtain ⟨update, hupdate, h⟩ := (Fallible.bind_ok_iff _ _ _).mp h
  obtain ⟨delete, hdelete, h⟩ := (Fallible.bind_ok_iff _ _ _).mp h
  obtain rfl := Except.ok.inj h
  refine ⟨[insert, update, delete], rfl, ?_⟩
  intro name hname
  simp only [List.mem_cons, List.not_mem_nil, or_false] at hname
  obtain rfl | rfl | rfl := hname
  · obtain ⟨encoded, hvalue⟩ := generatedIdentifier_value hinsert
    rw [hvalue]
    exact ⟨rfl, rfl⟩
  · obtain ⟨encoded, hvalue⟩ := generatedIdentifier_value hupdate
    rw [hvalue]
    exact ⟨rfl, rfl⟩
  · obtain ⟨encoded, hvalue⟩ := generatedIdentifier_value hdelete
    rw [hvalue]
    exact ⟨rfl, rfl⟩

theorem captureSourceNames_internal {table : Identifier} {name : List Char} (h : name ∈ captureSourceNames table) :
    isInternal name = true ∧ isDataName name = false := by
  obtain ⟨kind, -, rfl⟩ := List.mem_map.mp h
  exact ⟨rfl, rfl⟩

end Names

/-- What a developer made is none of what the runtime approves of: the only internal names among
its objects are those of backing tables, and those are never approved. -/
structure TrustedSchema (objects : List SchemaObject) (approved : List (List Char)) : Prop where
  unapproved : ∀ object ∈ objects, object.origin = .developer → toAsciiLowercase object.name ∉ approved
  backing : ∀ object ∈ objects, object.origin = .developer → isInternal object.name = true →
    isDataName object.name = true
  sources : ∀ name ∈ approved, dataPrefix.isPrefixOf name = false

/-- A developer gets no new objects, and none of them a new name but that of a backing table. -/
def Shrinks (objects objects' : List SchemaObject) : Prop :=
  ∀ object' ∈ objects', object'.origin = .developer → isDataName object'.name = true ∨
    ∃ object ∈ objects, object.origin = .developer ∧ object.kind = object'.kind ∧ object.name = object'.name

structure Approvable (objects : List SchemaObject) (name : List Char) : Prop where
  notData : isDataName name = false
  free : ∀ object ∈ objects, object.origin = .developer → eqIgnoreAsciiCase object.name name = false

def Clear (objects : List SchemaObject) (table : Identifier) : Prop :=
  ∀ object ∈ objects, object.origin = .developer → object.kind = .trigger ∨ object.kind = .index →
    isDataName object.name = true ∨ eqIgnoreAsciiCase object.name table.value = false

section Invariant
variable {objects objects' objects'' : List SchemaObject} {approved : List (List Char)} {name : List Char}

theorem Shrinks.of_subset (h : objects' ⊆ objects) : Shrinks objects objects' :=
  fun object' hobject' hdeveloper => .inr ⟨object', h hobject', hdeveloper, rfl, rfl⟩

theorem Shrinks.trans (h : Shrinks objects objects') (h' : Shrinks objects' objects'') : Shrinks objects objects'' := by
  intro object'' hobject'' hdeveloper
  obtain hdata | ⟨object', hobject', hdeveloper', hkind, hname⟩ := h' object'' hobject'' hdeveloper
  · exact .inl hdata
  · rw [← hkind, ← hname]
    exact h object' hobject' hdeveloper'

theorem TrustedSchema.shrink (h : TrustedSchema objects approved) (hshrinks : Shrinks objects objects') :
    TrustedSchema objects' approved := by
  refine ⟨?_, ?_, h.sources⟩
  · intro object' hobject' hdeveloper hmem
    obtain hdata | ⟨object, hobject, hdeveloper', -, hname⟩ := hshrinks object' hobject' hdeveloper
    · exact absurd hdata (Bool.not_eq_true _ ▸ h.sources _ hmem)
    · exact h.unapproved object hobject hdeveloper' (hname ▸ hmem)
  · intro object' hobject' hdeveloper hinternal
    obtain hdata | ⟨object, hobject, hdeveloper', -, hname⟩ := hshrinks object' hobject' hdeveloper
    · exact hdata
    · rw [← hname] at hinternal ⊢
      exact h.backing object hobject hdeveloper' hinternal

theorem Approvable.shrink (h : Approvable objects name) (hshrinks : Shrinks objects objects') :
    Approvable objects' name := by
  refine ⟨h.notData, ?_⟩
  intro object' hobject' hdeveloper
  obtain hdata | ⟨object, hobject, hdeveloper', -, hname⟩ := hshrinks object' hobject' hdeveloper
  · by_contra hsame
    have hsame := isDataName_congr (Bool.not_eq_false _ ▸ hsame)
    rw [hdata, h.notData] at hsame
    cases hsame
  · rw [← hname]
    exact h.free object hobject hdeveloper'

theorem Clear.shrink {table : Identifier} (h : Clear objects table) (hshrinks : Shrinks objects objects') :
    Clear objects' table := by
  intro object' hobject' hdeveloper hkind
  obtain hdata | ⟨object, hobject, hdeveloper', hkind', hname⟩ := hshrinks object' hobject' hdeveloper
  · exact .inl hdata
  · rw [← hname]
    exact h object hobject hdeveloper' (hkind' ▸ hkind)

/-- An internal name that is not of a backing table is free. -/
theorem TrustedSchema.approvable (h : TrustedSchema objects approved) (hinternal : isInternal name = true)
    (hdata : isDataName name = false) : Approvable objects name := by
  refine ⟨hdata, ?_⟩
  intro object hobject hdeveloper
  by_contra hsame
  have hsame := Bool.not_eq_false _ ▸ hsame
  have := h.backing object hobject hdeveloper ((isInternal_congr hsame).trans hinternal)
  rw [isDataName_congr hsame, hdata] at this
  cases this

theorem TrustedSchema.approve (h : TrustedSchema objects approved) {names : List (List Char)}
    (hnames : ∀ name ∈ names, Approvable objects name) :
    TrustedSchema objects (approved ++ names.map toAsciiLowercase) := by
  refine ⟨?_, h.backing, ?_⟩
  · intro object hobject hdeveloper hmem
    obtain hmem | hmem := List.mem_append.mp hmem
    · exact h.unapproved object hobject hdeveloper hmem
    · obtain ⟨name, hname, hlower⟩ := List.mem_map.mp hmem
      have := (hnames name hname).free object hobject hdeveloper
      rw [eqIgnoreAsciiCase_iff.mpr hlower.symm] at this
      cases this
  · intro name hmem
    obtain hmem | hmem := List.mem_append.mp hmem
    · exact h.sources name hmem
    · obtain ⟨name, hname, rfl⟩ := List.mem_map.mp hmem
      exact (hnames name hname).notData

end Invariant

section Operations
variable {objects objects' : List SchemaObject} {approved : List (List Char)}

theorem dropTriggerIfExists_subset (name : List Char) : dropTriggerIfExists objects name ⊆ objects := by
  unfold dropTriggerIfExists
  split
  · exact List.filter_subset_self _
  · exact fun _ h => h

theorem foldl_dropTriggerIfExists_subset {α : Type} (value : α → List Char) (names : List α) :
    names.foldl (fun objects name => dropTriggerIfExists objects (value name)) objects ⊆ objects := by
  induction names generalizing objects with
  | nil => exact fun _ h => h
  | cons name names ih => exact fun object h => dropTriggerIfExists_subset (value name) (ih h)

/-- A name that is not found has no temporary object. -/
theorem named_of_resolve {kinds : List ObjectKind} {name : List Char} {object : SchemaObject}
    (hobject : object ∈ objects) (htemporary : object.temporary = true) (hkind : object.kind ∈ kinds)
    (hname : eqIgnoreAsciiCase object.name name = true) :
    ∃ found, resolve objects kinds name = some found ∧ found.temporary = true := by
  unfold resolve
  dsimp only
  cases hfind : objects.find? fun object =>
      object.temporary = true && object.kind ∈ kinds && eqIgnoreAsciiCase object.name name with
  | none =>
    have := List.find?_eq_none.mp hfind object hobject
    simp [htemporary, hkind, hname] at this
  | some found =>
    have := List.find?_some hfind
    simp only [Bool.and_eq_true, decide_eq_true_eq] at this
    exact ⟨found, rfl, this.1.1⟩

theorem resolve_name {kinds : List ObjectKind} {name : List Char} {object : SchemaObject}
    (h : resolve objects kinds name = some object) :
    object ∈ objects ∧ object.kind ∈ kinds ∧ eqIgnoreAsciiCase object.name name = true := by
  unfold resolve at h
  dsimp only at h
  obtain h | ⟨-, h⟩ := Option.or_eq_some_iff.mp h
  all_goals
    have := List.find?_some h
    simp only [Bool.and_eq_true, decide_eq_true_eq] at this
    exact ⟨List.mem_of_find?_eq_some h, this.1.2, this.2⟩

theorem dropViewIfExists_spec {name : List Char} (h : dropViewIfExists objects name = some objects') :
    objects' ⊆ objects ∧ ∀ object ∈ objects', object.temporary = true → object.kind = .table ∨ object.kind = .view →
      eqIgnoreAsciiCase object.name name = false := by
  unfold dropViewIfExists at h
  split at h
  case h_1 found hfound =>
    obtain ⟨-, -, hname⟩ := resolve_name hfound
    split_ifs at h with hview
    obtain rfl := Option.some.inj h
    refine ⟨List.filter_subset_self _, ?_⟩
    intro object hobject htemporary hkind
    obtain ⟨hmem, hkept⟩ := List.mem_filter.mp hobject
    by_contra hsame
    have hsame := Bool.not_eq_false _ ▸ hsame
    obtain ⟨found', hfound', htemporary'⟩ := named_of_resolve hmem htemporary
      (show object.kind ∈ [ObjectKind.table, .view] by simpa using hkind) hsame
    obtain rfl := Option.some.inj (hfound.symm.trans hfound')
    have hsame' : eqIgnoreAsciiCase object.name found.name = true :=
      eqIgnoreAsciiCase_iff.mpr ((eqIgnoreAsciiCase_iff.mp hsame).trans (eqIgnoreAsciiCase_iff.mp hname).symm)
    have hshares : object.sharesName (found.kind = .trigger) found.temporary found.name = true := by
      obtain hkind | hkind := hkind <;> simp [SchemaObject.sharesName, hkind, hview, htemporary, htemporary', hsame']
    simp [hshares] at hkept
  case h_2 hnone =>
    obtain rfl := Option.some.inj h
    refine ⟨fun _ hmem => hmem, ?_⟩
    intro object hobject htemporary hkind
    by_contra hsame
    obtain ⟨found, hfound, -⟩ := named_of_resolve hobject htemporary
      (show object.kind ∈ [ObjectKind.table, .view] by simpa using hkind) (Bool.not_eq_false _ ▸ hsame)
    rw [hnone] at hfound
    cases hfound

theorem createObject_spec {object : SchemaObject} (h : createObject objects object = some objects') :
    objects' = objects ++ [object] ∧ isTaken objects (object.kind = .trigger) object.temporary object.name = false := by
  unfold createObject at h
  split_ifs at h with htaken
  obtain rfl := Option.some.inj h
  exact ⟨rfl, Bool.not_eq_true _ ▸ htaken⟩

theorem shrinks_createObject {object : SchemaObject} (hgenerated : object.origin = .generated)
    (h : createObject objects object = some objects') : Shrinks objects objects' := by
  obtain ⟨rfl, -⟩ := createObject_spec h
  intro object' hobject' hdeveloper
  obtain hmem | hmem := List.mem_append.mp hobject'
  · exact .inr ⟨object', hmem, hdeveloper, rfl, rfl⟩
  · obtain rfl := List.mem_singleton.mp hmem
    rw [hgenerated] at hdeveloper
    cases hdeveloper

theorem shrinks_foldlM {α : Type} {step : List SchemaObject → α → Option (List SchemaObject)}
    (hstep : ∀ {objects objects' x}, step objects x = some objects' → Shrinks objects objects') {xs : List α}
    (h : xs.foldlM step objects = some objects') : Shrinks objects objects' := by
  induction xs generalizing objects with
  | nil =>
    obtain rfl := Option.some.inj h
    exact .of_subset fun _ hmem => hmem
  | cons x xs ih =>
    obtain ⟨middle, hmiddle, h⟩ := Option.bind_eq_some_iff.mp h
    exact (hstep hmiddle).trans (ih h)

theorem mem_renameObject {object other' : SchemaObject} {newName : List Char}
    (h : other' ∈ renameObject objects object newName) :
    ∃ other ∈ objects, other'.origin = other.origin ∧ other'.kind = other.kind ∧
      (other'.name = newName ∨ other'.name = other.name) := by
  obtain ⟨other, hother, rfl⟩ := List.mem_map.mp h
  refine ⟨other, hother, ?_⟩
  dsimp only
  split_ifs
  · exact ⟨rfl, rfl, .inl rfl⟩
  · exact ⟨rfl, rfl, .inr rfl⟩
  · exact ⟨rfl, rfl, .inr rfl⟩

theorem renameTable_eq {name newName : List Char} (h : renameTable objects name newName = some objects') :
    ∃ object, objects' = renameObject objects object newName := by
  obtain ⟨object, -, h⟩ := Option.bind_eq_some_iff.mp h
  obtain ⟨-, -, h⟩ := Option.bind_eq_some_iff.mp h
  exact ⟨object, (Option.some.inj h).symm⟩

theorem shrinks_renameTable {name newName : List Char} (hdata : isDataName newName = true)
    (h : renameTable objects name newName = some objects') : Shrinks objects objects' := by
  obtain ⟨object, rfl⟩ := renameTable_eq h
  intro other' hother' hdeveloper
  obtain ⟨other, hother, horigin, hkind, hname | hname⟩ := mem_renameObject hother'
  · exact .inl (hname ▸ hdata)
  · exact .inr ⟨other, hother, horigin ▸ hdeveloper, hkind.symm, hname.symm⟩

/-- Once the view of a table is there, the only objects of a developer with its name are triggers
and indexes. -/
theorem approvable_of_createObject {table : Identifier} {body : List CompiledAction} (hhidden : isHiddenName table = false)
    (htemporary : ∀ object ∈ objects, object.temporary = true → object.kind = .table ∨ object.kind = .view →
      eqIgnoreAsciiCase object.name table.value = false)
    (hclear : Clear objects table)
    (h : createObject objects ⟨.view, false, table.value, table.value, false, body, .generated⟩ = some objects') :
    Approvable objects' table.value := by
  obtain ⟨rfl, htaken⟩ := createObject_spec h
  have hdata : isDataName table.value = false := by
    by_contra hdata
    have := isHiddenName_of_isInternal (isInternal_of_isDataName (Bool.not_eq_false _ ▸ hdata))
    rw [hhidden] at this
    cases this
  have hother : ∀ object ∈ objects, object.origin = .developer → object.kind = .trigger ∨ object.kind = .index →
      eqIgnoreAsciiCase object.name table.value = false := by
    intro object hobject hdeveloper hkind
    obtain hnamed | hfree := hclear object hobject hdeveloper hkind
    · by_contra hsame
      rw [isDataName_congr (Bool.not_eq_false _ ▸ hsame), hdata] at hnamed
      cases hnamed
    · exact hfree
  refine ⟨hdata, ?_⟩
  · intro object hobject hdeveloper
    obtain hmem | hmem := List.mem_append.mp hobject
    · have hfree : object.sharesName false false table.value = false := by
        simpa using List.any_eq_false.mp htaken object hmem
      cases hkind : object.kind with
      | trigger => exact hother object hmem hdeveloper (.inl hkind)
      | index => exact hother object hmem hdeveloper (.inr hkind)
      | table | view =>
        cases htemp : object.temporary with
        | true => exact htemporary object hmem htemp (by simp [hkind])
        | false => simpa [SchemaObject.sharesName, hkind, htemp] using hfree
    · obtain rfl := List.mem_singleton.mp hmem
      cases hdeveloper

theorem toOption_eq_some {ε α : Type} {x : Except ε α} {a : α} (h : x.toOption = some a) : x = .ok a := by
  cases x with
  | error e => cases h
  | ok value => rw [Option.some.inj h]

theorem shrinks_moveToBacking {plan : ProtectionPlan} {backing : Identifier} (hdata : isDataName backing.value = true)
    (h : moveToBacking objects plan backing = some objects') : Shrinks objects objects' := by
  unfold moveToBacking at h
  split_ifs at h
  · obtain rfl := Option.some.inj h
    exact .of_subset fun _ hmem => hmem
  · exact shrinks_renameTable hdata h

theorem protectTable_spec {plan : ProtectionPlan} {sources : List Identifier} (htrusted : TrustedSchema objects approved)
    (hclear : Clear objects plan.table) (h : protectTable objects plan = some (objects', sources)) :
    Shrinks objects objects' ∧ ∀ source ∈ sources, Approvable objects' source.value := by
  obtain ⟨_, hguard, h⟩ := Option.bind_eq_some_iff.mp h
  have hhidden : isHiddenName plan.table = false := by simpa using (Option.guard_eq_some' _).mp hguard
  obtain ⟨backing, hbacking, h⟩ := Option.bind_eq_some_iff.mp h
  obtain ⟨names, hnames, h⟩ := Option.bind_eq_some_iff.mp h
  obtain ⟨renamed, hrenamed, h⟩ := Option.bind_eq_some_iff.mp h
  obtain ⟨dropped, hdropped, h⟩ := Option.bind_eq_some_iff.mp h
  obtain ⟨viewed, hviewed, h⟩ := Option.bind_eq_some_iff.mp h
  obtain ⟨triggered, htriggered, h⟩ := Option.bind_eq_some_iff.mp h
  obtain ⟨rfl, rfl⟩ := Prod.mk.inj (Option.some.inj h)
  have hrename : Shrinks objects renamed :=
    shrinks_moveToBacking (isDataName_backingTableName (toOption_eq_some hbacking)) hrenamed
  obtain ⟨hsubset, htemporary⟩ := dropViewIfExists_spec hdropped
  have hdrop : Shrinks objects dropped :=
    hrename.trans (.of_subset fun _ hmem => foldl_dropTriggerIfExists_subset Identifier.value _ (hsubset hmem))
  have hview : Shrinks objects viewed := hdrop.trans (shrinks_createObject rfl hviewed)
  have hafter : Shrinks viewed triggered := shrinks_foldlM (fun hcreate => shrinks_createObject rfl hcreate) htriggered
  refine ⟨hview.trans hafter, ?_⟩
  obtain ⟨triggers, rfl, htriggers⟩ := generatedSourceNames_eq (toOption_eq_some hnames)
  intro source hsource
  obtain rfl | hsource := List.mem_cons.mp hsource
  · exact (approvable_of_createObject hhidden htemporary (hclear.shrink hdrop) hviewed).shrink hafter
  · obtain ⟨hinternal, hdata⟩ := htriggers source hsource
    exact (htrusted.shrink (hview.trans hafter)).approvable hinternal hdata

theorem applyPlans_spec {plans : List ProtectionPlan} {sources : List Identifier} (htrusted : TrustedSchema objects approved)
    (hclear : ∀ plan ∈ plans, Clear objects plan.table)
    (h : applyPlans objects plans = some (objects', sources)) :
    Shrinks objects objects' ∧ ∀ source ∈ sources, Approvable objects' source.value := by
  induction plans generalizing objects sources with
  | nil =>
    obtain ⟨rfl, rfl⟩ := Prod.mk.inj (Option.some.inj h)
    exact ⟨.of_subset fun _ hmem => hmem, nofun⟩
  | cons plan plans ih =>
    obtain ⟨⟨middle, first⟩, hfirst, h⟩ := Option.bind_eq_some_iff.mp h
    obtain ⟨⟨last, more⟩, hmore, h⟩ := Option.bind_eq_some_iff.mp h
    obtain ⟨rfl, rfl⟩ := Prod.mk.inj (Option.some.inj h)
    obtain ⟨hshrinks, happrovable⟩ := protectTable_spec htrusted (hclear plan List.mem_cons_self) hfirst
    obtain ⟨hshrinks', happrovable'⟩ := ih (htrusted.shrink hshrinks)
      (fun plan hplan => (hclear plan (List.mem_cons_of_mem _ hplan)).shrink hshrinks) hmore
    refine ⟨hshrinks.trans hshrinks', ?_⟩
    intro source hsource
    obtain hsource | hsource := List.mem_append.mp hsource
    · exact (happrovable source hsource).shrink hshrinks'
    · exact happrovable' source hsource

theorem captureTable_shrinks {plan : CapturePlan} (h : captureTable objects plan = some objects') :
    Shrinks objects objects' :=
  Shrinks.trans (.of_subset (foldl_dropTriggerIfExists_subset id _))
    (shrinks_foldlM (fun hcreate => shrinks_createObject rfl hcreate) h)

/-- What a caller is allowed to create has a name that is not protected. -/
theorem not_isProtected_of_create {mode : ExecutionMode} {depth : Nat} {kind : ObjectKind} {temporary : Bool}
    {name table : List Char}
    (h : authorize ⟨some mode, 0, depth, approved⟩ (.create kind temporary name table) none = true) :
    isInternal name = false ∧ toAsciiLowercase name ∉ approved := by
  have hprotected : isProtected approved name = false := by
    by_contra hprotected
    have hdenied : createsOrDropsProtected approved (.create kind temporary name table) = true := by
      cases kind <;> simp [createsOrDropsProtected, Bool.not_eq_false _ ▸ hprotected]
    simp [authorize, hdenied] at h
  simpa [isProtected] using hprotected

theorem objectToCreate_name {kind : ObjectKind} {temporary : Bool} {name on : List Char} {body : List CompiledAction}
    {object : SchemaObject} (h : objectToCreate objects kind temporary name on body = some object) :
    object.name = name := by
  cases kind with
  | table | view =>
    obtain rfl := Option.some.inj h
    rfl
  | trigger | index =>
    obtain ⟨table, -, rfl⟩ := Option.map_eq_some_iff.mp h
    rfl

theorem TrustedSchema.create (h : TrustedSchema objects approved) {object : SchemaObject}
    (hname : object.origin = .developer → isInternal object.name = false ∧ toAsciiLowercase object.name ∉ approved)
    (hcreate : createObject objects object = some objects') : TrustedSchema objects' approved := by
  obtain ⟨rfl, -⟩ := createObject_spec hcreate
  refine ⟨?_, ?_, h.sources⟩
  · intro other hother hdeveloper
    obtain hmem | hmem := List.mem_append.mp hother
    · exact h.unapproved other hmem hdeveloper
    · obtain rfl := List.mem_singleton.mp hmem
      exact (hname hdeveloper).2
  · intro other hother hdeveloper hinternal
    obtain hmem | hmem := List.mem_append.mp hother
    · exact h.backing other hmem hdeveloper hinternal
    · obtain rfl := List.mem_singleton.mp hmem
      rw [(hname hdeveloper).1] at hinternal
      cases hinternal

theorem TrustedSchema.rename (h : TrustedSchema objects approved) {name newName : List Char}
    (hinternal : isInternal newName = false) (hnew : toAsciiLowercase newName ∉ approved) (hrename : renameTable objects name newName = some objects') :
    TrustedSchema objects' approved := by
  obtain ⟨object, rfl⟩ := renameTable_eq hrename
  refine ⟨?_, ?_, h.sources⟩
  · intro other' hother' hdeveloper
    obtain ⟨other, hother, horigin, -, hname | hname⟩ := mem_renameObject hother'
    · rwa [hname]
    · rw [hname]
      exact h.unapproved other hother (horigin ▸ hdeveloper)
  · intro other' hother' hdeveloper hother_internal
    obtain ⟨other, hother, horigin, -, hname | hname⟩ := mem_renameObject hother'
    · rw [hname, hinternal] at hother_internal
      cases hother_internal
    · rw [hname] at hother_internal ⊢
      exact h.backing other hother (horigin ▸ hdeveloper) hother_internal

theorem TrustedSchema.ddl (h : TrustedSchema objects approved) {mode : ExecutionMode} {depth : Nat} {statement : Ddl}
    (hrenames : ∀ name newName, statement = .renameTable name newName →
      toAsciiLowercase newName ∉ approved ∧ isInternal newName = false)
    (hexecute : executeDdl ⟨some mode, 0, depth, approved⟩ objects statement = some objects') :
    TrustedSchema objects' approved := by
  cases statement with
  | create kind temporary name on body =>
    obtain ⟨object, hobject, hexecute⟩ := Option.bind_eq_some_iff.mp hexecute
    obtain ⟨_, hguard, hcreate⟩ := Option.bind_eq_some_iff.mp hexecute
    have hname := objectToCreate_name hobject
    refine h.create (fun _ => ?_) hcreate
    rw [hname]
    exact not_isProtected_of_create ((Option.guard_eq_some' _).mp hguard)
  | drop kind name =>
    obtain ⟨object, -, hexecute⟩ := Option.bind_eq_some_iff.mp hexecute
    obtain ⟨_, -, hexecute⟩ := Option.bind_eq_some_iff.mp hexecute
    obtain rfl := Option.some.inj hexecute
    exact h.shrink (.of_subset (List.filter_subset_self _))
  | renameTable name newName =>
    obtain ⟨object, -, hexecute⟩ := Option.bind_eq_some_iff.mp hexecute
    obtain ⟨_, -, hexecute⟩ := Option.bind_eq_some_iff.mp hexecute
    obtain ⟨hnew, hinternal⟩ := hrenames name newName rfl
    exact h.rename hinternal hnew hexecute

end Operations

/-- The objects are trusted, and so are those that an open block would go back to. -/
structure TrustState.Sound (state : TrustState) : Prop where
  current : TrustedSchema state.objects state.approvedSources
  saved : ∀ objects approved, state.saved = some (objects, approved) → TrustedSchema objects approved

/-- Before anyone made anything: the objects of the runtime itself. -/
structure TrustState.Bootstrapped (state : TrustState) : Prop where
  objects : ∀ object ∈ state.objects, object.origin = .generated
  sources : ∀ name ∈ state.approvedSources, dataPrefix.isPrefixOf name = false
  saved : state.saved = none

section Runs
variable {state : TrustState}

theorem TrustState.Bootstrapped.sound (h : state.Bootstrapped) : state.Sound := by
  refine ⟨⟨?_, ?_, h.sources⟩, ?_⟩
  · intro object hobject hdeveloper
    rw [h.objects object hobject] at hdeveloper
    cases hdeveloper
  · intro object hobject hdeveloper
    rw [h.objects object hobject] at hdeveloper
    cases hdeveloper
  · intro objects approved hsaved
    rw [h.saved] at hsaved
    cases hsaved

theorem TrustState.Sound.step (h : state.Sound) {event : TrustEvent} (hadmits : state.Admits event) :
    (trustStep state event).Sound := by
  cases event with
  | ddl mode statement =>
    simp only [trustStep]
    cases hexecute : executeDdl ⟨some mode, 0, 0, state.approvedSources⟩ state.objects statement with
    | none => exact h
    | some objects =>
      refine ⟨h.current.ddl ?_ hexecute, h.saved⟩
      rintro name newName rfl
      exact hadmits.renames mode name newName rfl
  | applyRlsPlan plans =>
    simp only [trustStep]
    cases happly : applyPlans state.objects plans with
    | none => exact h
    | some result =>
      have hclear : ∀ plan ∈ plans, Clear state.objects plan.table := fun plan hplan object hobject hdeveloper hkind =>
        .inr (hadmits.protects plans rfl plan hplan object hobject hdeveloper hkind)
      obtain ⟨hshrinks, happrovable⟩ := applyPlans_spec h.current hclear happly
      refine ⟨?_, h.saved⟩
      have hnames : ∀ name ∈ result.2.map Identifier.value, Approvable result.1 name := by
        intro name hname
        obtain ⟨source, hsource, rfl⟩ := List.mem_map.mp hname
        exact happrovable source hsource
      have happroved := (h.current.shrink hshrinks).approve hnames
      rwa [List.map_map] at happroved
  | suspendChangeCapture => exact ⟨h.current.shrink (.of_subset (List.filter_subset_self _)), h.saved⟩
  | refreshChangeCapture plans =>
    simp only [trustStep]
    cases hcapture : plans.foldlM captureTable state.objects with
    | none => exact h
    | some objects =>
      have htrusted := h.current.shrink (shrinks_foldlM captureTable_shrinks hcapture)
      refine ⟨?_, h.saved⟩
      have hnames : ∀ name ∈ plans.flatMap fun plan => captureSourceNames plan.table, Approvable objects name := by
        intro name hname
        obtain ⟨plan, -, hname⟩ := List.mem_flatMap.mp hname
        obtain ⟨hinternal, hdata⟩ := captureSourceNames_internal hname
        exact htrusted.approvable hinternal hdata
      simpa [List.map_flatMap] using htrusted.approve hnames
  | begin =>
    simp only [trustStep]
    split
    · refine ⟨h.current, ?_⟩
      intro objects approved hsaved
      cases hsaved
      exact h.current
    · exact h
  | commit => exact ⟨h.current, nofun⟩
  | rollback =>
    simp only [trustStep]
    split
    case h_1 objects approved hsaved => exact ⟨h.saved objects approved hsaved, nofun⟩
    case h_2 => exact h

theorem TrustState.Sound.run {events : List TrustEvent} (h : state.Sound) (hadmits : state.AdmitsAll events) :
    (Machine.run trustStep state events).Sound := by
  induction events generalizing state with
  | nil => exact h
  | cons event events ih => exact ih (h.step hadmits.1) hadmits.2

end Runs

/-- What SQLite asks about for a statement with some actions of its own: these, and the actions of
the views and triggers that what is asked about opens; each with the view or the trigger, and the
common table expression in it, that it is for. -/
inductive Asked (objects : List SchemaObject) (direct : List CompiledAction) :
    AuthAction → Option SchemaObject → Option (List Char) → Prop
  | own {compiled : CompiledAction} : compiled ∈ direct →
      Asked objects direct compiled.action none compiled.expression
  | view {action : AuthAction} {inner : CompiledAction} {source : Option SchemaObject}
      {expression : Option (List Char)} {table : List Char} {object : SchemaObject} :
      Asked objects direct action source expression → accessed action = some table → object ∈ objects →
      object.kind = .view → eqIgnoreAsciiCase object.name table = true → inner ∈ object.body →
      Asked objects direct inner.action (some object) inner.expression
  | trigger {action : AuthAction} {inner : CompiledAction} {source : Option SchemaObject}
      {expression : Option (List Char)} {table : List Char} {object : SchemaObject} :
      Asked objects direct action source expression → accessed action = some table → object ∈ objects →
      object.kind = .trigger → eqIgnoreAsciiCase object.table table = true → inner ∈ object.body →
      Asked objects direct inner.action (some object) inner.expression

/-- What SQLite tells the authorizer of where an action stands: one name, of the innermost view,
trigger or common table expression. -/
def accessor (source : Option SchemaObject) (expression : Option (List Char)) : Option (List Char) :=
  expression.or (source.map (·.name))

def NamesApart (approved : List (List Char)) (body : List CompiledAction) : Prop :=
  ∀ compiled ∈ body, ∀ name ∈ compiled.expression, toAsciiLowercase name ∉ approved

section Calls
variable {objects : List SchemaObject} {direct : List CompiledAction} {approved : List (List Char)}
  {action : AuthAction} {source : Option SchemaObject} {expression : Option (List Char)}

/-- An approved accessor is the name of something generated, or stands in it. -/
theorem Asked.generated (h : Asked objects direct action source expression)
    (hdirect : NamesApart approved direct)
    (hdevelopers : ∀ object ∈ objects, object.origin = .developer → NamesApart approved object.body)
    (hgenerated : ∀ object ∈ objects, toAsciiLowercase object.name ∈ approved → object.origin = .generated)
    (happroved : (accessor source expression).any (approvedGeneratedSource · approved) = true) :
    ∃ object, source = some object ∧ object.origin = .generated := by
  have hobject {object : SchemaObject} {inner : CompiledAction} (hmem : object ∈ objects) (hinner : inner ∈ object.body)
      (happroved : (accessor (some object) inner.expression).any (approvedGeneratedSource · approved) = true) :
      object.origin = .generated := by
    cases horigin : object.origin with
    | generated => rfl
    | developer =>
      have hapart := hdevelopers object hmem horigin inner hinner
      cases hexpression : inner.expression with
      | some name =>
        rw [hexpression] at happroved
        exact absurd (of_decide_eq_true happroved) (hapart name hexpression)
      | none =>
        rw [hexpression] at happroved
        rw [hgenerated object hmem (of_decide_eq_true happroved)] at horigin
        cases horigin
  cases h with
  | @own compiled hmem =>
    cases hexpression : compiled.expression with
    | some name =>
      rw [hexpression] at happroved
      exact absurd (of_decide_eq_true happroved) (hdirect compiled hmem name hexpression)
    | none =>
      rw [hexpression] at happroved
      cases happroved
  | view _ _ hmem _ _ hinner => exact ⟨_, rfl, hobject hmem hinner happroved⟩
  | trigger _ _ hmem _ _ hinner => exact ⟨_, rfl, hobject hmem hinner happroved⟩

end Calls

end Ffdb.Runtime
