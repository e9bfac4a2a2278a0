import Mathlib.Data.Finmap
import Ffdb.Rls.Atomic

/-! What statements that succeed have built. A table's entry is compared with a finite map
of policies on which the statements act one after another. -/
namespace Ffdb.Rls
open Sql

def subject : RlsStatement → Identifier
  | .alterTable table _ => table
  | .createPolicy statement => statement.table
  | .alterPolicy statement => statement.table
  | .dropPolicy statement => statement.table

def RlsCatalog.applyAll : RlsCatalog → List (SchemaSnapshot × RlsStatement) →
    Except RlsCompileError RlsCatalog
  | catalog, [] => .ok catalog
  | catalog, (schema, statement) :: rest =>
    match catalog.apply schema statement with
    | (.ok (), next) => next.applyAll rest
    | (.error error, _) => .error error

structure TableSpec where
  enabled : Bool := false
  forced : Bool := false
  policies : Finmap (fun _ : Identifier => Policy) := ∅

def TableSpec.step (table : Identifier) (spec : TableSpec) (statement : RlsStatement) : TableSpec :=
  if subject statement = table then
    match statement with
    | .alterTable _ .enable => { spec with enabled := true }
    | .alterTable _ .disable => { spec with enabled := false }
    | .alterTable _ .force => { spec with forced := true }
    | .alterTable _ .noForce => { spec with forced := false }
    | .createPolicy statement =>
      { spec with policies := spec.policies.insert statement.name (.ofCreate statement) }
    | .alterPolicy statement =>
      match spec.policies.lookup statement.name with
      | none => spec
      | some policy =>
        { spec with policies := ((spec.policies.erase statement.name).insert
            (statement.renameTo.getD statement.name) (TablePolicies.altered policy statement)) }
    | .dropPolicy statement => { spec with policies := spec.policies.erase statement.name }
  else spec

structure Represents (metadata : TablePolicies) (spec : TableSpec) : Prop where
  enabled : metadata.enabled = spec.enabled
  forced : metadata.forced = spec.forced
  policies : ∀ name : Identifier, metadata.policies[name]? = spec.policies.lookup name

structure SameExcept (m m' : TablePolicies) (names : List Identifier) : Prop where
  enabled : m'.enabled = m.enabled
  forced : m'.forced = m.forced
  policies : ∀ name : Identifier, name ∉ names → m'.policies[name]? = m.policies[name]?

/-- Only what the statement names has changed: one table, and of it one flag, or the policy
under its old and its new name. -/
structure ChangesOnly (catalog : RlsCatalog) (statement : RlsStatement) (next : RlsCatalog) :
    Prop where
  tables : ∀ table, table ≠ subject statement → next.tables[table]? = catalog.tables[table]?
  entry : let m := catalog.metadata (subject statement)
    let m' := next.metadata (subject statement)
    match statement with
    | .alterTable _ .enable | .alterTable _ .disable => m'.forced = m.forced ∧ m'.policies = m.policies
    | .alterTable _ .force | .alterTable _ .noForce => m'.enabled = m.enabled ∧ m'.policies = m.policies
    | .createPolicy statement => SameExcept m m' [statement.name]
    | .alterPolicy statement => SameExcept m m' (statement.name :: statement.renameTo.toList)
    | .dropPolicy statement => SameExcept m m' [statement.name]

variable {catalog next : RlsCatalog} {schema : SchemaSnapshot}

theorem change_ok {table : Identifier} {f : TablePolicies → Outcome}
    (h : catalog.change schema table f = (.ok (), next)) :
    (f (catalog.metadata table)).1 = .ok () ∧
      next = catalog.put table (f (catalog.metadata table)).2 := by
  simp only [RlsCatalog.change] at h
  split at h
  · cases hf : f (catalog.metadata table) with
    | mk result m =>
      rw [hf] at h
      simp only [Prod.mk.injEq] at h
      exact ⟨h.1, h.2.symm⟩
  · cases h

theorem tables_put_of_ne {table table' : Identifier} (m : TablePolicies) (h : table' ≠ table) :
    (catalog.put table m).tables[table']? = catalog.tables[table']? := by
  simp [RlsCatalog.put, Std.ExtTreeMap.getElem?_insert, Ne.symm h]

def Effect (m : TablePolicies) : RlsStatement → TablePolicies → Prop
  | .alterTable _ action, m' => m' = m.alterTable action
  | .createPolicy s, m' => m' = { m with policies := m.policies.insert s.name (.ofCreate s) }
  | .alterPolicy s, m' => ∃ policy, m.policies[s.name]? = some policy ∧
      m' = { m with policies := ((m.policies.erase s.name).insert (s.renameTo.getD s.name)
        (TablePolicies.altered policy s)) }
  | .dropPolicy s, m' => m' = { m with policies := m.policies.erase s.name }

theorem apply_ok {statement : RlsStatement} (hwf : catalog.WellFormed)
    (h : catalog.apply schema statement = (.ok (), next)) :
    ∃ m', next = catalog.put (subject statement) m' ∧
      Effect (catalog.metadata (subject statement)) statement m' := by
  cases statement with simp only [RlsCatalog.apply] at h
  | alterTable table action =>
    obtain ⟨_, rfl⟩ := change_ok h
    exact ⟨_, rfl, rfl⟩
  | createPolicy s =>
    obtain ⟨hok, rfl⟩ := change_ok h
    refine ⟨_, rfl, ?_⟩
    simp only [TablePolicies.createPolicy] at hok ⊢
    split at hok
    · cases hok
    · next hfree =>
      rw [if_neg hfree]
      rfl
  | alterPolicy s =>
    obtain ⟨hok, rfl⟩ := change_ok h
    refine ⟨_, rfl, ?_⟩
    cases hget : (catalog.metadata s.table).policies[s.name]? with
    | none => simp [TablePolicies.alterPolicy, hget] at hok
    | some policy =>
      refine ⟨policy, hget, ?_⟩
      obtain ⟨_, clause, halter⟩ | ⟨_, halter⟩ := alterPolicy_of_get hget
      · rw [halter] at hok
        cases hok
      · have hname : (TablePolicies.altered policy s).name = s.renameTo.getD s.name := by
          rw [TablePolicies.altered, (hwf s.table s.name policy hget).1]
        rw [halter, hname]
        rfl
  | dropPolicy s =>
    obtain ⟨hok, rfl⟩ := change_ok h
    refine ⟨_, rfl, ?_⟩
    simp only [TablePolicies.dropPolicy] at hok ⊢
    split at hok
    · next hfound =>
      rw [if_pos hfound]
      rfl
    · cases hok

theorem changesOnly_of_apply {statement : RlsStatement} (hwf : catalog.WellFormed)
    (h : catalog.apply schema statement = (.ok (), next)) : ChangesOnly catalog statement next := by
  obtain ⟨m, rfl, hm⟩ := apply_ok hwf h
  refine ⟨fun table htable => tables_put_of_ne m htable, ?_⟩
  cases statement with
  | alterTable table action =>
    subst hm
    cases action <;> simp [subject, TablePolicies.alterTable]
  | createPolicy s =>
    subst hm
    refine ⟨by simp [subject], by simp [subject], fun name hname => ?_⟩
    have hne : s.name ≠ name := by simpa [eq_comm] using hname
    simp [subject, Std.ExtTreeMap.getElem?_insert, hne]
  | alterPolicy s =>
    obtain ⟨policy, hget, rfl⟩ := hm
    refine ⟨by simp [subject], by simp [subject], fun name hname => ?_⟩
    simp only [List.mem_cons, Option.mem_toList, not_or] at hname
    have hne : s.name ≠ name := Ne.symm hname.1
    have hnew : s.renameTo.getD s.name ≠ name := by
      cases hrename : s.renameTo with
      | none => simpa using hne
      | some newName =>
        intro heq
        exact hname.2 (by simp [hrename, ← heq])
    simp [subject, Std.ExtTreeMap.getElem?_insert, Std.ExtTreeMap.getElem?_erase, hne, hnew]
  | dropPolicy s =>
    subst hm
    refine ⟨by simp [subject], by simp [subject], fun name hname => ?_⟩
    have hne : s.name ≠ name := by simpa [eq_comm] using hname
    simp [subject, Std.ExtTreeMap.getElem?_erase, hne]

/-- The entry of the table a statement names follows the specification. -/
theorem represents_of_effect {m m' : TablePolicies} {spec : TableSpec} {statement : RlsStatement}
    (h : Represents m spec) (heffect : Effect m statement m') :
    Represents m' (spec.step (subject statement) statement) := by
  cases statement with
  | alterTable table action =>
    cases heffect
    cases action <;> exact ⟨by simp [TablePolicies.alterTable, TableSpec.step, h.enabled],
      by simp [TablePolicies.alterTable, TableSpec.step, h.forced],
      by simp [TablePolicies.alterTable, TableSpec.step, h.policies]⟩
  | createPolicy s =>
    cases heffect
    simp only [TableSpec.step, if_pos]
    refine ⟨h.enabled, h.forced, fun name => ?_⟩
    by_cases hname : s.name = name
    · simp [hname]
    · simp [Std.ExtTreeMap.getElem?_insert, hname, Finmap.lookup_insert_of_ne _ (Ne.symm hname),
        h.policies]
  | alterPolicy s =>
    obtain ⟨policy, hget, rfl⟩ := heffect
    have hlookup : spec.policies.lookup s.name = some policy := by rw [← h.policies, hget]
    simp only [TableSpec.step, if_pos, hlookup]
    refine ⟨h.enabled, h.forced, fun name => ?_⟩
    by_cases hnew : s.renameTo.getD s.name = name
    · simp [hnew]
    · rw [Finmap.lookup_insert_of_ne _ (Ne.symm hnew)]
      by_cases hold : s.name = name
      · subst hold
        simp [hnew]
      · simp [Std.ExtTreeMap.getElem?_insert, Std.ExtTreeMap.getElem?_erase, hnew, hold,
          Finmap.lookup_erase_ne (Ne.symm hold), h.policies]
  | dropPolicy s =>
    cases heffect
    simp only [TableSpec.step, if_pos]
    refine ⟨h.enabled, h.forced, fun name => ?_⟩
    by_cases hname : s.name = name
    · subst hname
      simp
    · simp [Std.ExtTreeMap.getElem?_erase, hname, Finmap.lookup_erase_ne (Ne.symm hname), h.policies]

theorem represents_of_apply {statement : RlsStatement} (hwf : catalog.WellFormed)
    (h : catalog.apply schema statement = (.ok (), next)) {table : Identifier} {spec : TableSpec}
    (hspec : Represents (catalog.metadata table) spec) :
    Represents (next.metadata table) (spec.step table statement) := by
  obtain ⟨m', rfl, heffect⟩ := apply_ok hwf h
  rw [RlsCatalog.metadata_put]
  by_cases htable : subject statement = table
  · subst htable
    rw [if_pos rfl]
    exact represents_of_effect hspec heffect
  · simp only [TableSpec.step, if_neg htable]
    exact hspec

theorem applyAll_append {catalog last : RlsCatalog}
    {before after : List (SchemaSnapshot × RlsStatement)}
    (h : catalog.applyAll (before ++ after) = .ok last) :
    ∃ between, catalog.applyAll before = .ok between ∧ between.applyAll after = .ok last := by
  induction before generalizing catalog with
  | nil => exact ⟨catalog, rfl, h⟩
  | cons input before ih =>
    obtain ⟨schema, statement⟩ := input
    simp only [List.cons_append, RlsCatalog.applyAll] at h ⊢
    split at h
    · exact ih h
    · cases h

/-- The invariant and the specification hold after statements that parse and succeed. -/
theorem applyAll_represents (statements : List (SchemaSnapshot × RlsStatement))
    (hparsed : ∀ input ∈ statements, input.2.WellFormed) {catalog last : RlsCatalog}
    (h : catalog.applyAll statements = .ok last) (hwf : catalog.WellFormed) {table : Identifier}
    {spec : TableSpec} (hspec : Represents (catalog.metadata table) spec) :
    last.WellFormed ∧
      Represents (last.metadata table) ((statements.map Prod.snd).foldl (·.step table) spec) := by
  induction statements generalizing catalog spec with
  | nil =>
    cases h
    exact ⟨hwf, hspec⟩
  | cons input statements ih =>
    obtain ⟨schema, statement⟩ := input
    simp only [RlsCatalog.applyAll] at h
    split at h
    · next next hnext =>
      have hnextWf : next.WellFormed := by
        have hstep := RlsCatalog.apply_wellFormed hwf schema (hparsed _ List.mem_cons_self)
        rwa [hnext] at hstep
      exact ih (fun input hmem => hparsed input (List.mem_cons_of_mem _ hmem)) h hnextWf
        (represents_of_apply hwf hnext hspec)
    · cases h

theorem represents_empty (table : Identifier) :
    Represents (({} : RlsCatalog).metadata table) {} := by
  refine ⟨rfl, rfl, fun name => ?_⟩
  simp [RlsCatalog.metadata]

/-- After parsed statements that all succeed on an empty catalog, the policies are well
formed, every statement has changed only what it names, and each table holds what the
statements make of an empty finite map. -/
theorem statements_build_catalog (statements : List (SchemaSnapshot × RlsStatement))
    (catalog : RlsCatalog)
    (hparsed : ∀ input ∈ statements, ∃ sql, parseRlsStatement sql = .ok input.2)
    (h : ({} : RlsCatalog).applyAll statements = .ok catalog) :
    catalog.WellFormed ∧
      (∀ before schema statement after, statements = before ++ (schema, statement) :: after →
        ∃ current next, ({} : RlsCatalog).applyAll before = .ok current ∧
          current.apply schema statement = (.ok (), next) ∧ ChangesOnly current statement next) ∧
      ∀ table, Represents (catalog.metadata table)
        ((statements.map Prod.snd).foldl (·.step table) {}) := by
  have hwellFormed : ∀ input ∈ statements, input.2.WellFormed := by
    intro input hmem
    obtain ⟨sql, hsql⟩ := hparsed input hmem
    exact parseRlsStatement_wellFormed hsql
  have hrun (table : Identifier) := applyAll_represents statements hwellFormed h
    RlsCatalog.empty_wellFormed (represents_empty table)
  refine ⟨(hrun own).1, ?_, fun table => (hrun table).2⟩
  intro before schema statement after hsplit
  subst hsplit
  obtain ⟨current, hbefore, hafter⟩ := applyAll_append h
  have hcurrent := (applyAll_represents before
    (fun input hmem => hwellFormed input (List.mem_append_left _ hmem)) hbefore
    RlsCatalog.empty_wellFormed (represents_empty own)).1
  simp only [RlsCatalog.applyAll] at hafter
  split at hafter
  · next next hnext => exact ⟨current, next, hbefore, hnext, changesOnly_of_apply hcurrent hnext⟩
  · cases hafter

def mine : Identifier := ⟨"mine".toList, by decide, by decide, by decide⟩

def renamedPolicy : List (SchemaSnapshot × RlsStatement) :=
  [(reportsSchema, .createPolicy
      { name := own, table := reports, mode := .permissive, command := .all
        roles := [⟨⟨"public".toList, by decide, by decide, by decide⟩⟩]
        usingClause := some ⟨"1".toList, by decide +kernel⟩, withCheck := none }),
   (reportsSchema, .alterPolicy
      { name := own, table := reports, renameTo := some mine, roles := none, usingClause := none
        withCheck := none })]

theorem statements_build_renamed_policy :
    ∃ catalog, ({} : RlsCatalog).applyAll renamedPolicy = .ok catalog ∧ catalog.WellFormed ∧
      Represents (catalog.metadata reports) ((renamedPolicy.map Prod.snd).foldl (·.step reports) {}) := by
  have hparsed : ∀ input ∈ renamedPolicy, ∃ sql, parseRlsStatement sql = .ok input.2 := by
    intro input hmem
    simp only [renamedPolicy, List.mem_cons, List.not_mem_nil, or_false] at hmem
    obtain rfl | rfl := hmem
    · exact ⟨"CREATE POLICY own ON reports USING (1)".toList, by decide +kernel⟩
    · exact ⟨"ALTER POLICY own ON reports RENAME TO mine".toList, by decide +kernel⟩
  have hok : (({} : RlsCatalog).applyAll renamedPolicy).toOption.isSome = true := by decide +kernel
  cases h : ({} : RlsCatalog).applyAll renamedPolicy with
  | error error =>
    rw [h] at hok
    cases hok
  | ok catalog =>
    obtain ⟨hwf, _, hrepresents⟩ := statements_build_catalog renamedPolicy catalog hparsed h
    exact ⟨catalog, rfl, hwf, hrepresents reports⟩

end Ffdb.Rls
