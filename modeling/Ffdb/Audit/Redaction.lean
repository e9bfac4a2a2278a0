import Ffdb.Audit.Sink
import Ffdb.Runtime.Keys

/-! What the redaction of audit metadata makes of a value, and which values it refuses. -/
namespace Ffdb.Audit
open Fallible Text
open Sync (Value)

def sensitive (key : Option String) : Bool := key.any fun key => isSensitiveKey key.toList

mutual
def redacted (key : Option String) (value : Value) : Value :=
  if sensitive key then .string "[REDACTED]" else match value with
    | .array items => .array (redactedItems items)
    | .object fields => .object (redactedFields fields)
    | value => value

def redactedItems : List Value → List Value
  | [] => []
  | item :: rest => redacted none item :: redactedItems rest

def redactedFields : List (String × Value) → List (String × Value)
  | [] => []
  | (name, field) :: rest => (name, redacted (some name) field) :: redactedFields rest
end

section Redacted
variable {key : Option String}

theorem redacted_sensitive (hkey : sensitive key = true) (value : Value) :
    redacted key value = .string "[REDACTED]" := by
  unfold redacted
  exact if_pos hkey

theorem redacted_array (hkey : ¬sensitive key = true) (items : List Value) :
    redacted key (.array items) = .array (redactedItems items) := by
  unfold redacted
  exact if_neg hkey

theorem redacted_object (hkey : ¬sensitive key = true) (fields : List (String × Value)) :
    redacted key (.object fields) = .object (redactedFields fields) := by
  unfold redacted
  exact if_neg hkey

theorem redacted_string (hkey : ¬sensitive key = true) (text : String) : redacted key (.string text) = .string text := by
  unfold redacted
  exact if_neg hkey

end Redacted

mutual
/-- Redacting twice is redacting once. -/
theorem redacted_redacted (key : Option String) (value : Value) :
    redacted key (redacted key value) = redacted key value := by
  by_cases hkey : sensitive key = true
  · rw [redacted_sensitive hkey, redacted_sensitive hkey]
  · cases value with
    | array items => rw [redacted_array hkey, redacted_array hkey, redactedItems_redacted items]
    | object fields => rw [redacted_object hkey, redacted_object hkey, redactedFields_redacted fields]
    | null | bool _ | number _ | string _ => simp only [redacted, if_neg hkey]

theorem redactedItems_redacted : (items : List Value) → redactedItems (redactedItems items) = redactedItems items
  | [] => rfl
  | item :: rest => by
    simp only [redactedItems, redacted_redacted none item, redactedItems_redacted rest]

theorem redactedFields_redacted : (fields : List (String × Value)) →
    redactedFields (redactedFields fields) = redactedFields fields
  | [] => rfl
  | (name, field) :: rest => by
    simp only [redactedFields, redacted_redacted (some name) field, redactedFields_redacted rest]
end

mutual
def visits (depth : Nat) : Value → List (Nat × Value)
  | .array items => (depth, .array items) :: itemVisits (depth + 1) items
  | .object fields => (depth, .object fields) :: fieldVisits (depth + 1) fields
  | value => [(depth, value)]

def itemVisits (depth : Nat) : List Value → List (Nat × Value)
  | [] => []
  | item :: rest => visits depth item ++ itemVisits depth rest

def fieldVisits (depth : Nat) : List (String × Value) → List (Nat × Value)
  | [] => []
  | (_, field) :: rest => visits depth field ++ fieldVisits depth rest
end

def withinLimits (visit : Nat × Value) : Bool :=
  visit.1 ≤ 8 && match visit.2 with
    | .string text => byteLength text.toList ≤ 2048
    | _ => true

def Fits (nodes : Nat) (visited : List (Nat × Value)) : Prop :=
  nodes + visited.length ≤ 512 ∧ visited.all withinLimits = true

instance (nodes : Nat) (visited : List (Nat × Value)) : Decidable (Fits nodes visited) :=
  inferInstanceAs (Decidable (_ ∧ _))

theorem fits_append {nodes : Nat} {first rest : List (Nat × Value)} :
    Fits nodes (first ++ rest) ↔ Fits nodes first ∧ Fits (nodes + first.length) rest := by
  unfold Fits
  rw [List.length_append, List.all_append, Bool.and_eq_true]
  constructor
  · rintro ⟨hlength, hfirst, hrest⟩
    exact ⟨⟨by omega, hfirst⟩, by omega, hrest⟩
  · rintro ⟨⟨-, hfirst⟩, hlength, hrest⟩
    exact ⟨by omega, hfirst, hrest⟩

theorem fits_cons {nodes : Nat} {visit : Nat × Value} {rest : List (Nat × Value)} :
    Fits nodes (visit :: rest) ↔ Fits nodes [visit] ∧ Fits (nodes + 1) rest :=
  @fits_append nodes [visit] rest

theorem fits_nil {nodes : Nat} : Fits nodes [] ↔ nodes ≤ 512 := by
  simp [Fits]

theorem fits_node {nodes depth : Nat} {value : Value} (hvalue : ∀ text, value ≠ .string text) :
    Fits nodes [(depth, value)] ↔ depth ≤ 8 ∧ nodes + 1 ≤ 512 := by
  have hlimits : withinLimits (depth, value) = decide (depth ≤ 8) := by
    cases value with
    | string text => exact absurd rfl (hvalue text)
    | _ => simp [withinLimits]
  simp [Fits, hlimits, and_comm]

theorem fits_string {nodes depth : Nat} {text : String} : Fits nodes [(depth, .string text)] ↔
    (depth ≤ 8 ∧ nodes + 1 ≤ 512) ∧ byteLength text.toList ≤ 2048 := by
  simp only [Fits, List.length_singleton, List.all_cons, List.all_nil, Bool.and_true, withinLimits, Bool.and_eq_true,
    decide_eq_true_eq]
  tauto

theorem visits_eq (depth : Nat) (value : Value) : ∃ rest, visits depth value = (depth, value) :: rest := by
  cases value with
  | array items => exact ⟨_, by rw [visits]⟩
  | object fields => exact ⟨_, by rw [visits]⟩
  | _ => exact ⟨[], by rw [visits] <;> simp⟩

theorem place_of_fits {nodes depth : Nat} {value : Value} (h : Fits nodes (visits depth value)) :
    depth ≤ 8 ∧ nodes + 1 ≤ 512 := by
  obtain ⟨rest, hvisits⟩ := visits_eq depth value
  rw [hvisits, fits_cons] at h
  obtain ⟨⟨hnodes, hlimits⟩, -⟩ := h
  simp only [withinLimits, List.all_cons, List.all_nil, Bool.and_true, Bool.and_eq_true, decide_eq_true_eq] at hlimits
  exact ⟨hlimits.1, hnodes⟩

theorem visits_string (depth : Nat) (text : String) : visits depth (.string text) = [(depth, .string text)] := by
  rw [visits] <;> simp

theorem fits_container {α : Type} {depth nodes : Nat} {container : Value} {visited : List (Nat × Value)} {result : α}
    {wrap : α → Value} (hplace : depth ≤ 8 ∧ nodes + 1 ≤ 512) (hcontainer : ∀ text, container ≠ .string text)
    (hwrap : wrap result = container) :
    (if Fits (nodes + 1) visited then Except.ok (result, nodes + 1 + visited.length)
      else Except.error AuditError.invalidEvent).map (fun done => (wrap done.1, done.2)) =
      if Fits nodes ((depth, container) :: visited) then
        .ok (container, nodes + ((depth, container) :: visited).length) else .error .invalidEvent := by
  have hfits : Fits nodes ((depth, container) :: visited) ↔ Fits (nodes + 1) visited := by
    rw [fits_cons, fits_node hcontainer]
    exact and_iff_right hplace
  by_cases h : Fits (nodes + 1) visited
  · rw [if_pos h, if_pos (hfits.mpr h), List.length_cons, ← hwrap, Nat.add_assoc, Nat.add_comm 1]
    rfl
  · rw [if_neg h, if_neg fun hall => h (hfits.mp hall)]
    rfl

section Value
variable {key : Option String} {depth nodes : Nat} {value : Value}

/-- A value that is too deep, or one too many. -/
theorem redactValue_misplaced (h : ¬(depth ≤ 8 ∧ nodes + 1 ≤ 512)) :
    redactValue key depth value nodes = .error .invalidEvent := by
  have hover : (decide (8 < depth) || decide (512 < nodes + 1)) = true := by
    simp only [Bool.or_eq_true, decide_eq_true_eq]
    omega
  unfold redactValue
  dsimp only
  rw [if_pos hover]

theorem not_misplaced (hplace : depth ≤ 8 ∧ nodes + 1 ≤ 512) :
    ¬(decide (8 < depth) || decide (512 < nodes + 1)) = true := by
  simp only [Bool.or_eq_true, decide_eq_true_eq]
  omega

theorem redactValue_sensitive (hplace : depth ≤ 8 ∧ nodes + 1 ≤ 512) (hkey : sensitive key = true) :
    redactValue key depth value nodes = .ok (.string "[REDACTED]", nodes + 1) := by
  unfold redactValue
  dsimp only
  rw [if_neg (not_misplaced hplace)]
  exact if_pos hkey

theorem redactValue_array {items : List Value} (hplace : depth ≤ 8 ∧ nodes + 1 ≤ 512) (hkey : ¬sensitive key = true) :
    redactValue key depth (.array items) nodes =
      (redactValue.redactItems (depth + 1) items (nodes + 1)).map fun done => (.array done.1, done.2) := by
  unfold redactValue
  dsimp only
  rw [if_neg (not_misplaced hplace)]
  exact if_neg hkey

theorem redactValue_object {fields : List (String × Value)} (hplace : depth ≤ 8 ∧ nodes + 1 ≤ 512)
    (hkey : ¬sensitive key = true) :
    redactValue key depth (.object fields) nodes =
      (redactValue.redactFields (depth + 1) fields (nodes + 1)).map fun done => (.object done.1, done.2) := by
  unfold redactValue
  dsimp only
  rw [if_neg (not_misplaced hplace)]
  exact if_neg hkey

theorem redactValue_string {text : String} (hplace : depth ≤ 8 ∧ nodes + 1 ≤ 512) (hkey : ¬sensitive key = true) :
    redactValue key depth (.string text) nodes =
      if 2048 < byteLength text.toList then .error .invalidEvent else .ok (.string text, nodes + 1) := by
  unfold redactValue
  dsimp only
  rw [if_neg (not_misplaced hplace)]
  exact if_neg hkey

end Value

mutual
theorem redactValue_eq (key : Option String) (depth : Nat) : (value : Value) → (nodes : Nat) →
    redactValue key depth value nodes = if Fits nodes (visits depth (redacted key value)) then
      .ok (redacted key value, nodes + (visits depth (redacted key value)).length) else .error .invalidEvent
  | value, nodes => by
    by_cases hplace : depth ≤ 8 ∧ nodes + 1 ≤ 512
    · by_cases hkey : sensitive key = true
      · rw [redactValue_sensitive hplace hkey, redacted_sensitive hkey, visits_string, if_pos]
        · rfl
        · exact fits_string.mpr ⟨hplace, by decide⟩
      · cases value with
        | array items =>
          rw [redactValue_array hplace hkey, redacted_array hkey, visits, redactItems_eq (depth + 1) items _ hplace.2]
          exact fits_container hplace (fun _ h => by cases h) rfl
        | object fields =>
          rw [redactValue_object hplace hkey, redacted_object hkey, visits, redactFields_eq (depth + 1) fields _ hplace.2]
          exact fits_container hplace (fun _ h => by cases h) rfl
        | string text =>
          rw [redactValue_string hplace hkey, redacted_string hkey, visits_string]
          by_cases hlong : 2048 < byteLength text.toList
          · rw [if_pos hlong, if_neg fun hfits => absurd hlong (not_lt.mpr (fits_string.mp hfits).2)]
          · rw [if_neg hlong, if_pos (fits_string.mpr ⟨hplace, not_lt.mp hlong⟩)]
            rfl
        | null | bool _ | number _ =>
          unfold redactValue redacted
          dsimp only
          rw [if_neg (not_misplaced hplace), if_neg hkey, visits]
          · refine (if_neg hkey).trans (if_pos ((fits_node ?_).mpr hplace)).symm
            exact fun _ h => by cases h
          all_goals exact fun _ h => by cases h
    · rw [redactValue_misplaced hplace, if_neg fun hfits => hplace (place_of_fits hfits)]

theorem redactItems_eq (depth : Nat) : (items : List Value) → (nodes : Nat) → nodes ≤ 512 →
    redactValue.redactItems depth items nodes = if Fits nodes (itemVisits depth (redactedItems items)) then
      .ok (redactedItems items, nodes + (itemVisits depth (redactedItems items)).length) else .error .invalidEvent
  | [], nodes, hnodes => by
    rw [redactedItems, itemVisits, if_pos (fits_nil.mpr hnodes)]
    rfl
  | item :: rest, nodes, hnodes => by
    rw [redactedItems, itemVisits, redactValue.redactItems, redactValue_eq none depth item nodes]
    by_cases hitem : Fits nodes (visits depth (redacted none item))
    · rw [if_pos hitem]
      have hrest := redactItems_eq depth rest (nodes + (visits depth (redacted none item)).length) hitem.1
      simp only [bind, Except.bind, hrest]
      by_cases hfits : Fits (nodes + (visits depth (redacted none item)).length) (itemVisits depth (redactedItems rest))
      · rw [if_pos hfits, if_pos (fits_append.mpr ⟨hitem, hfits⟩), List.length_append, Nat.add_assoc]
        rfl
      · rw [if_neg hfits, if_neg fun hall => hfits (fits_append.mp hall).2]
    · rw [if_neg hitem, if_neg fun hall => hitem (fits_append.mp hall).1]
      rfl

theorem redactFields_eq (depth : Nat) : (fields : List (String × Value)) → (nodes : Nat) → nodes ≤ 512 →
    redactValue.redactFields depth fields nodes = if Fits nodes (fieldVisits depth (redactedFields fields)) then
      .ok (redactedFields fields, nodes + (fieldVisits depth (redactedFields fields)).length) else .error .invalidEvent
  | [], nodes, hnodes => by
    rw [redactedFields, fieldVisits, if_pos (fits_nil.mpr hnodes)]
    rfl
  | (name, field) :: rest, nodes, hnodes => by
    rw [redactedFields, fieldVisits, redactValue.redactFields, redactValue_eq (some name) depth field nodes]
    by_cases hfield : Fits nodes (visits depth (redacted (some name) field))
    · rw [if_pos hfield]
      have hrest := redactFields_eq depth rest (nodes + (visits depth (redacted (some name) field)).length) hfield.1
      simp only [bind, Except.bind, hrest]
      by_cases hfits : Fits (nodes + (visits depth (redacted (some name) field)).length)
          (fieldVisits depth (redactedFields rest))
      · rw [if_pos hfits, if_pos (fits_append.mpr ⟨hfield, hfits⟩), List.length_append, Nat.add_assoc]
        rfl
      · rw [if_neg hfits, if_neg fun hall => hfits (fits_append.mp hall).2]
    · rw [if_neg hfield, if_neg fun hall => hfield (fits_append.mp hall).1]
      rfl
end

theorem mem_redactedFields {fields : List (String × Value)} {name : String} {field : Value}
    (h : (name, field) ∈ redactedFields fields) : ∃ original, field = redacted (some name) original := by
  induction fields with
  | nil => cases h
  | cons entry rest ih =>
    rw [redactedFields, List.mem_cons] at h
    obtain hfirst | hrest := h
    · obtain ⟨rfl, rfl⟩ := Prod.mk.inj hfirst
      exact ⟨entry.2, rfl⟩
    · exact ih hrest

def Clean (visited : List (Nat × Value)) : Prop :=
  ∀ depth fields, (depth, .object fields) ∈ visited → ∀ name field, (name, field) ∈ fields → sensitive (some name) = true →
    field = .string "[REDACTED]"

theorem clean_append {first rest : List (Nat × Value)} : Clean (first ++ rest) ↔ Clean first ∧ Clean rest := by
  constructor
  · intro h
    exact ⟨fun depth fields hmem => h depth fields (List.mem_append_left rest hmem),
      fun depth fields hmem => h depth fields (List.mem_append_right first hmem)⟩
  · rintro ⟨hfirst, hrest⟩ depth fields hmem
    obtain hmem | hmem := List.mem_append.mp hmem
    · exact hfirst depth fields hmem
    · exact hrest depth fields hmem

theorem clean_cons {depth : Nat} {value : Value} {rest : List (Nat × Value)}
    (hvalue : ∀ fields, value = .object fields → ∀ name field, (name, field) ∈ fields → sensitive (some name) = true →
      field = .string "[REDACTED]") (hrest : Clean rest) : Clean ((depth, value) :: rest) := by
  intro depth' fields hmem
  obtain hfirst | hmem := List.mem_cons.mp hmem
  · exact hvalue fields (Prod.mk.inj hfirst).2.symm
  · exact hrest depth' fields hmem

theorem clean_nil : Clean [] := by
  intro depth fields hmem
  cases hmem

mutual
theorem clean_redacted (key : Option String) (depth : Nat) (value : Value) :
    Clean (visits depth (redacted key value)) := by
  by_cases hkey : sensitive key = true
  · rw [redacted_sensitive hkey, visits_string]
    exact clean_cons (fun fields h => by cases h) clean_nil
  · cases value with
    | array items =>
      rw [redacted_array hkey, visits]
      exact clean_cons (fun fields h => by cases h) (clean_redactedItems (depth + 1) items)
    | object fields =>
      rw [redacted_object hkey, visits]
      refine clean_cons ?_ (clean_redactedFields (depth + 1) fields)
      intro fields' hfields name field hmem hname
      obtain rfl := Value.object.inj hfields
      obtain ⟨original, rfl⟩ := mem_redactedFields hmem
      exact redacted_sensitive hname original
    | string text =>
      rw [redacted_string hkey, visits_string]
      exact clean_cons (fun fields h => by cases h) clean_nil
    | null | bool _ | number _ =>
      simp only [redacted, if_neg hkey, visits]
      exact clean_cons (fun fields h => by cases h) clean_nil

theorem clean_redactedItems (depth : Nat) : (items : List Value) → Clean (itemVisits depth (redactedItems items))
  | [] => clean_nil
  | item :: rest => by
    rw [redactedItems, itemVisits]
    exact clean_append.mpr ⟨clean_redacted none depth item, clean_redactedItems depth rest⟩

theorem clean_redactedFields (depth : Nat) :
    (fields : List (String × Value)) → Clean (fieldVisits depth (redactedFields fields))
  | [] => clean_nil
  | (name, field) :: rest => by
    rw [redactedFields, fieldVisits]
    exact clean_append.mpr ⟨clean_redacted (some name) depth field, clean_redactedFields depth rest⟩
end

theorem fits_iff {visited : List (Nat × Value)} : Fits 0 visited ↔ ¬((∃ visit ∈ visited, 8 < visit.1) ∨
    512 < visited.length ∨ ∃ depth text, (depth, .string text) ∈ visited ∧ 2048 < byteLength text.toList) := by
  unfold Fits
  rw [Nat.zero_add, List.all_eq_true]
  constructor
  · rintro ⟨hlength, hlimits⟩ (⟨visit, hvisit, hdeep⟩ | hmany | ⟨depth, text, hvisit, hlong⟩)
    · have hvisit := hlimits visit hvisit
      simp only [withinLimits, Bool.and_eq_true, decide_eq_true_eq] at hvisit
      omega
    · omega
    · have hvisit := hlimits _ hvisit
      simp only [withinLimits, Bool.and_eq_true, decide_eq_true_eq] at hvisit
      omega
  · intro h
    push Not at h
    obtain ⟨hdepth, hlength, htext⟩ := h
    refine ⟨hlength, fun visit hvisit => ?_⟩
    obtain ⟨depth, value⟩ := visit
    rw [withinLimits, Bool.and_eq_true]
    refine ⟨decide_eq_true (hdepth _ hvisit), ?_⟩
    cases value with
    | string text => exact decide_eq_true (htext depth text hvisit)
    | _ => rfl

section Draft
variable {doubles : Runtime.Doubles} {draft redactedDraft : AuditDraft}

def AuditDraft.Acceptable (draft : AuditDraft) : Prop :=
  0 ≤ draft.occurredAtMs ∧ ¬(draft.actorKind = .anonymous ∧ draft.actorId.isSome = true)

def Exceeds (doubles : Runtime.Doubles) (metadata : Value) : Prop :=
  (∃ visit ∈ visits 0 metadata, 8 < visit.1) ∨ 512 < (visits 0 metadata).length ∨
    (∃ depth text, (depth, .string text) ∈ visits 0 metadata ∧ 2048 < byteLength text.toList) ∨
    maxMetadataBytes < byteLength (Runtime.valueText doubles metadata)

theorem exceeds_iff {metadata : Value} : ¬Exceeds doubles metadata ↔
    Fits 0 (visits 0 metadata) ∧ byteLength (Runtime.valueText doubles metadata) ≤ maxMetadataBytes := by
  rw [fits_iff, Exceeds, ← not_lt, ← not_or, or_assoc, or_assoc]

theorem acceptable_iff (hids : safeIdentifier draft.action = true ∧ safeIdentifier draft.resourceKind = true) :
    (!(draft.occurredAtMs < 0 || !safeIdentifier draft.action || !safeIdentifier draft.resourceKind ||
      (draft.actorKind = .anonymous && draft.actorId.isSome))) = true ↔ draft.Acceptable := by
  rw [hids.1, hids.2, AuditDraft.Acceptable, ← Int64.not_lt]
  simp only [Bool.not_true, Bool.or_false, Bool.not_or, Bool.not_and, Option.not_isSome, Bool.and_eq_true,
    Bool.not_eq_eq_eq_not, decide_eq_false_iff_not, Int64.not_lt, Bool.or_eq_true, Option.isNone_iff_eq_none, not_and,
    Bool.not_eq_true, Option.isSome_eq_false_iff, and_congr_right_iff]
  tauto

theorem validateAndRedact_ok_iff (hids : safeIdentifier draft.action = true ∧ safeIdentifier draft.resourceKind = true) :
    validateAndRedact doubles draft = .ok redactedDraft ↔
      draft.Acceptable ∧ ¬Exceeds doubles (redacted none draft.metadata) ∧
        redactedDraft = { draft with metadata := redacted none draft.metadata } := by
  rw [exceeds_iff]
  unfold validateAndRedact
  rw [redactValue_eq]
  simp only [bind_ok_iff, require_ok_iff, pure_ok_iff, acceptable_iff hids]
  constructor
  · rintro ⟨-, hacceptable, result, hredacted, -, hsize, rfl⟩
    split at hredacted
    next hfits =>
      obtain rfl := Except.ok.inj hredacted
      exact ⟨hacceptable, ⟨hfits, of_decide_eq_true hsize⟩, rfl⟩
    · cases hredacted
  · rintro ⟨hacceptable, ⟨hfits, hsize⟩, rfl⟩
    exact ⟨(), hacceptable, _, if_pos hfits, (), decide_eq_true hsize, rfl⟩

theorem validateAndRedact_failsOnly : FailsOnly .invalidEvent (validateAndRedact doubles draft) := by
  unfold validateAndRedact
  rw [redactValue_eq]
  refine (FailsOnly.require _).bind fun _ _ => ?_
  split
  · exact (FailsOnly.require _).bind fun _ _ => FailsOnly.ok _
  · intro e he
    exact (Except.error.inj he).symm

end Draft

section Claim
variable (doubles : Runtime.Doubles) (draft : AuditDraft)

/-- A draft whose identifiers are valid is refused exactly for its time, its actor, or for what its metadata are after
redaction; otherwise its metadata are replaced by them, no secret is left, and redacting again changes nothing. -/
theorem validateAndRedact_exact
    (hids : safeIdentifier draft.action = true ∧ safeIdentifier draft.resourceKind = true) :
    let metadata := redacted none draft.metadata
    (validateAndRedact doubles draft = .error .invalidEvent ↔ ¬draft.Acceptable ∨ Exceeds doubles metadata) ∧
      (∀ redactedDraft, validateAndRedact doubles draft = .ok redactedDraft →
        redactedDraft = { draft with metadata } ∧ validateAndRedact doubles redactedDraft = .ok redactedDraft) ∧
      Clean (visits 0 metadata) := by
  intro metadata
  refine ⟨?_, ?_, clean_redacted none 0 draft.metadata⟩
  · cases hresult : validateAndRedact doubles draft with
    | error error =>
      obtain rfl := validateAndRedact_failsOnly error hresult
      refine iff_of_true rfl ?_
      by_contra hfine
      rw [not_or, not_not] at hfine
      have hok := (@validateAndRedact_ok_iff doubles _ _ hids).mpr ⟨hfine.1, hfine.2, rfl⟩
      rw [hresult] at hok
      cases hok
    | ok redactedDraft =>
      obtain ⟨hacceptable, hfits, -⟩ := (validateAndRedact_ok_iff hids).mp hresult
      refine iff_of_false (fun h => by cases h) ?_
      rw [not_or, not_not]
      exact ⟨hacceptable, hfits⟩
  · intro redactedDraft hresult
    obtain ⟨hacceptable, hfits, rfl⟩ := (validateAndRedact_ok_iff hids).mp hresult
    have hagain : redacted none metadata = metadata := redacted_redacted none draft.metadata
    refine ⟨rfl, (@validateAndRedact_ok_iff doubles { draft with metadata } _ hids).mpr ⟨hacceptable, ?_, ?_⟩⟩
    · rw [hagain]
      exact hfits
    · rw [hagain]

end Claim

section Sample

def sampleDraft (occurredAtMs : Int64) (metadata : Value) : AuditDraft where
  occurredAtMs := occurredAtMs
  organizationId := none
  projectId := some 1
  requestId := 2
  actorKind := .service
  actorId := none
  action := "project.update".toList
  resourceKind := "project".toList
  resourceId := none
  outcome := .success
  sourceIp := none
  metadata := metadata

def sampleMetadata : Value :=
  .object [("list", .array [.object [("Api-Key", .array [.null])], .string "x"]), ("password", .string "y")]

theorem sampleMetadata_redacted :
    let draft := sampleDraft 0 sampleMetadata
    let metadata := redacted none draft.metadata
    metadata = .object [("list", .array [.object [("Api-Key", .string "[REDACTED]")], .string "x"]),
        ("password", .string "[REDACTED]")] ∧
      (validateAndRedact Runtime.sampleDoubles draft = .error .invalidEvent ↔
        ¬draft.Acceptable ∨ Exceeds Runtime.sampleDoubles metadata) ∧
      (∀ redactedDraft, validateAndRedact Runtime.sampleDoubles draft = .ok redactedDraft →
        redactedDraft = { draft with metadata } ∧
          validateAndRedact Runtime.sampleDoubles redactedDraft = .ok redactedDraft) ∧
      Clean (visits 0 metadata) :=
  ⟨by decide +kernel, validateAndRedact_exact Runtime.sampleDoubles (sampleDraft 0 sampleMetadata) (by decide +kernel)⟩

/-- Nothing is wrong with the metadata, but the time is before 1970. -/
theorem early_draft_refused :
    let draft := sampleDraft (-1) .null
    (safeIdentifier draft.action = true ∧ safeIdentifier draft.resourceKind = true) ∧
      ¬Exceeds Runtime.sampleDoubles (redacted none draft.metadata) ∧
      validateAndRedact Runtime.sampleDoubles draft = .error .invalidEvent := by
  intro draft
  refine ⟨by decide +kernel, ?_, by decide +kernel⟩
  rw [exceeds_iff]
  decide +kernel

end Sample

end Ffdb.Audit
