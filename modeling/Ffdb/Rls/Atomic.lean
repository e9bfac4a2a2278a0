import Ffdb.Rls.Catalog

/-! What a statement that fails leaves behind. A policy that is altered is taken out
before its clauses and its new name are checked, and an entry of the table is made before
the policy is looked up. -/
namespace Ffdb.Rls
open Sql

def RlsCatalog.Atomic (catalog : RlsCatalog) (schema : SchemaSnapshot) (statement : RlsStatement) :
    Prop :=
  ∀ error, (catalog.apply schema statement).1 = .error error →
    (catalog.apply schema statement).2 = catalog

def AlterPolicy.fits (statement : AlterPolicy) (policy : Policy) : Bool :=
  !(statement.usingClause.isSome && decide (policy.command = .insert)) &&
    !(statement.withCheck.isSome &&
      (decide (policy.command = .select) || decide (policy.command = .delete)))

def AlterPolicy.renames (statement : AlterPolicy) (policy : Policy) (metadata : TablePolicies) :
    Prop :=
  statement.renameTo.getD policy.name = statement.name ∨
    metadata.policies.contains (statement.renameTo.getD policy.name) = false

/-- The statements that a catalog survives: of those that alter or drop a policy of a
table in the schema, the table has an entry (or the policy may be missing), and one that
alters a policy of the entry fits it and renames it to no other. -/
def RlsCatalog.Survives (catalog : RlsCatalog) (schema : SchemaSnapshot) : RlsStatement → Prop
  | .alterTable _ _ | .createPolicy _ => True
  | .alterPolicy statement => (schema.table statement.table).isSome →
      ∃ metadata, catalog.tables[statement.table]? = some metadata ∧
        ∀ policy, metadata.policies[statement.name]? = some policy →
          AlterPolicy.fits statement policy ∧ AlterPolicy.renames statement policy metadata
  | .dropPolicy statement => (schema.table statement.table).isSome →
      statement.ifExists = false → (catalog.tables[statement.table]?).isSome

variable {catalog : RlsCatalog}

theorem put_eq_self (table : Identifier) (m : TablePolicies) :
    catalog.put table m = catalog ↔ catalog.tables[table]? = some m := by
  constructor
  · intro h
    rw [← h]
    simp [RlsCatalog.put]
  · intro h
    obtain ⟨tables⟩ := catalog
    simp only [RlsCatalog.put, RlsCatalog.mk.injEq] at h ⊢
    refine Std.ExtTreeMap.ext_getElem? fun table' => ?_
    rw [Std.ExtTreeMap.getElem?_insert]
    split
    · next heq =>
      rw [← h, Std.compare_eq_iff_eq.mp heq]
    · rfl

/-- A change fails cleanly exactly when what it leaves of the table was there. -/
theorem change_atomic_iff (schema : SchemaSnapshot) (table : Identifier)
    (f : TablePolicies → Outcome) :
    (∀ error, (catalog.change schema table f).1 = .error error →
        (catalog.change schema table f).2 = catalog) ↔
      ((schema.table table).isSome → ∀ error, (f (catalog.metadata table)).1 = .error error →
        catalog.tables[table]? = some (f (catalog.metadata table)).2) := by
  by_cases htable : (schema.table table).isSome = true
  · simp [RlsCatalog.change, htable, put_eq_self]
  · simp [RlsCatalog.change, htable]

theorem metadata_of_get {table : Identifier} {m : TablePolicies}
    (h : catalog.tables[table]? = some m) : catalog.metadata table = m := by
  simp [RlsCatalog.metadata, h]

theorem createPolicy_atomic (schema : SchemaSnapshot) (statement : CreatePolicy) :
    catalog.Atomic schema (.createPolicy statement) := by
  refine (change_atomic_iff schema statement.table _).mpr fun _ error herror => ?_
  cases hget : catalog.tables[statement.table]? with
  | none => simp [TablePolicies.createPolicy, RlsCatalog.metadata, hget] at herror
  | some m =>
    rw [metadata_of_get hget] at herror ⊢
    simp only [TablePolicies.createPolicy] at herror ⊢
    split at herror
    · next htaken => rw [if_pos htaken]
    · cases herror

theorem dropPolicy_atomic_iff (schema : SchemaSnapshot) (statement : DropPolicy) :
    catalog.Atomic schema (.dropPolicy statement) ↔ catalog.Survives schema (.dropPolicy statement) := by
  refine (change_atomic_iff schema statement.table _).trans (forall_congr' fun _ => ?_)
  cases hget : catalog.tables[statement.table]? with
  | none => cases hexists : statement.ifExists <;>
      simp [TablePolicies.dropPolicy, RlsCatalog.metadata, hget, hexists]
  | some m =>
    rw [metadata_of_get hget]
    simp only [TablePolicies.dropPolicy, Option.isSome_some, implies_true, iff_true]
    intro error herror
    split at herror
    · cases herror
    · next hmissing => rw [if_neg hmissing]

theorem erase_ne {m : TablePolicies} {policies : Std.ExtTreeMap Identifier Policy} {name : Identifier}
    {policy : Policy} (h : m.policies[name]? = some policy) (h' : policies[name]? = none) :
    m ≠ { m with policies } := by
  intro heq
  have hpolicies := congrArg TablePolicies.policies heq
  simp only at hpolicies
  rw [hpolicies, h'] at h
  cases h

/-- What becomes of a policy that is altered: it is lost, or stored under its name. -/
theorem alterPolicy_of_get {m : TablePolicies} {statement : AlterPolicy} {policy : Policy}
    (h : m.policies[statement.name]? = some policy) :
    (AlterPolicy.fits statement policy = false ∧ ∃ clause, m.alterPolicy statement =
        (.error (.incompatibleAlter clause), { m with policies := m.policies.erase statement.name })) ∨
      (AlterPolicy.fits statement policy = true ∧
        m.alterPolicy statement =
          (if (m.policies.erase statement.name).contains (TablePolicies.altered policy statement).name
            then .error (.duplicatePolicy statement.table.value
              (TablePolicies.altered policy statement).name.value)
            else .ok (),
          { m with policies := ((m.policies.erase statement.name).insert
              (TablePolicies.altered policy statement).name
              (TablePolicies.altered policy statement)) })) := by
  simp only [TablePolicies.alterPolicy, h, AlterPolicy.fits]
  split
  · next husing => exact .inl ⟨by simp [husing], "USING", rfl⟩
  · next husing =>
    split
    · next hcheck => exact .inl ⟨by simp [hcheck], "WITH CHECK", rfl⟩
    · next hcheck => exact .inr ⟨by simp [husing, hcheck], rfl⟩

theorem alterPolicy_unchanged_iff (m : TablePolicies) (statement : AlterPolicy) :
    (∀ error, (m.alterPolicy statement).1 = .error error → m = (m.alterPolicy statement).2) ↔
      ∀ policy, m.policies[statement.name]? = some policy →
        AlterPolicy.fits statement policy ∧ AlterPolicy.renames statement policy m := by
  cases hget : m.policies[statement.name]? with
  | none => simp [TablePolicies.alterPolicy, hget]
  | some policy =>
    simp only [Option.some.injEq, forall_eq']
    have herased : (m.policies.erase statement.name)[statement.name]? = none := by simp
    obtain ⟨hfits, clause, halter⟩ | ⟨hfits, halter⟩ := alterPolicy_of_get hget
    · rw [halter]
      have hlost := erase_ne hget herased
      simp [hfits, hlost]
    · rw [halter]
      have hname : (TablePolicies.altered policy statement).name =
          statement.renameTo.getD policy.name := rfl
      by_cases hsame : statement.renameTo.getD policy.name = statement.name
      · simp [hfits, AlterPolicy.renames, hname, hsame]
      · have hmoved : ((m.policies.erase statement.name).insert
            (TablePolicies.altered policy statement).name
            (TablePolicies.altered policy statement))[statement.name]? = none := by
          rw [Std.ExtTreeMap.getElem?_insert, if_neg (by simpa [hname] using hsame), herased]
        have hlost := erase_ne hget hmoved
        have hcontains : (m.policies.erase statement.name).contains
            (TablePolicies.altered policy statement).name =
              m.policies.contains (statement.renameTo.getD policy.name) := by
          simp [hname, Std.ExtTreeMap.contains_erase, Ne.symm hsame]
        rw [hcontains]
        cases htaken : m.policies.contains (statement.renameTo.getD policy.name) with
        | true =>
          refine iff_of_false (fun h => hlost (h _ rfl)) fun h => ?_
          simp only [AlterPolicy.renames, htaken, hsame, Bool.true_eq_false, or_self, and_false] at h
        | false => exact iff_of_true (by simp) ⟨hfits, .inr htaken⟩

theorem alterPolicy_atomic_iff (schema : SchemaSnapshot) (statement : AlterPolicy) :
    catalog.Atomic schema (.alterPolicy statement) ↔
      catalog.Survives schema (.alterPolicy statement) := by
  refine (change_atomic_iff schema statement.table _).trans (forall_congr' fun _ => ?_)
  cases hget : catalog.tables[statement.table]? with
  | none => simp [TablePolicies.alterPolicy, RlsCatalog.metadata, hget]
  | some m =>
    rw [metadata_of_get hget]
    simpa using alterPolicy_unchanged_iff m statement

/-- A statement that fails leaves the catalog as it was exactly when it is one the catalog
survives. -/
theorem apply_atomic_iff (catalog : RlsCatalog) (schema : SchemaSnapshot)
    (statement : RlsStatement) :
    catalog.Atomic schema statement ↔ catalog.Survives schema statement := by
  cases statement with
  | alterTable table action =>
    refine (change_atomic_iff schema table _).trans ?_
    simp [RlsCatalog.Survives]
  | createPolicy statement =>
    exact iff_of_true (createPolicy_atomic schema statement) trivial
  | alterPolicy statement => exact alterPolicy_atomic_iff schema statement
  | dropPolicy statement => exact dropPolicy_atomic_iff schema statement

def reports : Identifier := ⟨"reports".toList, by decide, by decide, by decide⟩

def reportsSchema : SchemaSnapshot := ⟨[⟨reports, [], false⟩]⟩

def own : Identifier := ⟨"own".toList, by decide, by decide, by decide⟩

/-- A restrictive policy that an `ALTER POLICY` with a clause it cannot take has removed. -/
theorem rejected_alter_removes_policy :
    let catalog := RlsCatalog.after [(reportsSchema,
      "CREATE POLICY own ON reports AS RESTRICTIVE FOR SELECT USING (owner_id = auth.uid())".toList)]
    ∃ statement, parseRlsStatement "ALTER POLICY own ON reports WITH CHECK (1)".toList = .ok statement ∧
      ¬catalog.Atomic reportsSchema statement ∧
      ((catalog.metadata reports).policies[own]?).isSome = true ∧
      (catalog.apply reportsSchema statement).1 = .error (.incompatibleAlter "WITH CHECK") ∧
      (((catalog.apply reportsSchema statement).2.metadata reports).policies[own]?).isSome = false := by
  intro catalog
  let statement : RlsStatement := .alterPolicy
    { name := own, table := reports, renameTo := none, roles := none, usingClause := none
      withCheck := some ⟨"1".toList, by decide +kernel⟩ }
  have hbefore : ((catalog.metadata reports).policies[own]?).isSome = true := by decide +kernel
  have herror : (catalog.apply reportsSchema statement).1 = .error (.incompatibleAlter "WITH CHECK") := by
    decide +kernel
  have hafter : (((catalog.apply reportsSchema statement).2.metadata reports).policies[own]?).isSome =
      false := by decide +kernel
  refine ⟨statement, by decide +kernel, ?_, hbefore, herror, hafter⟩
  intro hatomic
  rw [hatomic _ herror, hbefore] at hafter
  cases hafter

end Ffdb.Rls
