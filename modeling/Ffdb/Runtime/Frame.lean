import Ffdb.Runtime.Atomicity

/-! What statements leave alone, a session leaves alone, through savepoints and rollbacks. -/
namespace Ffdb.Runtime
open Sql Rls Savepoint Act
variable {σ ρ α β : Type} {sqlite : Sqlite σ ρ} {P : σ → Prop}

def Outcome.All (P : σ → Prop) : Outcome σ α → Prop
  | .done contents _ => P contents
  | .failed _ contents => P contents
  | .aborted _ => True

/-- The computation keeps the property of the contents, and of all it could go back to. -/
def Keeps (P : σ → Prop) (x : Run σ α) : Prop :=
  Triple (fun session => session.connection.All P) x (fun _ session => session.connection.All P)
    fun _ session => session.connection.All P

inductive Generated (sqlite : Sqlite σ ρ) : List Char → Prop
  | plan {schema : SchemaSnapshot} {catalog : RlsCatalog} {plan : List (CompiledTablePlan Char)} {sql : List Char}
      (hcompile : compile Writer.sql schema catalog = .ok plan)
      (h : sql ∈ plan.flatMap CompiledTablePlan.statements) : Generated sqlite sql
  | capture {schema : SchemaSnapshot} {sql : List Char} (h : sql ∈ sqlite.captureSql schema) : Generated sqlite sql
  | suspend (name : Identifier) : Generated sqlite ("DROP TRIGGER ".toList ++ name.quoted)

structure Trusted (sqlite : Sqlite σ ρ) (P : σ → Prop) : Prop where
  generated : ∀ sql, Generated sqlite sql → ∀ contents, P contents → (sqlite.trusted sql contents).All P
  catalog : ∀ catalog contents, P contents → (sqlite.storeRlsCatalog catalog contents).All P

/-- SQLite keeps the property on the statement, unless it is transaction control. -/
def LeavesAlone (sqlite : Sqlite σ ρ) (P : σ → Prop) (request : StatementRequest) : Prop :=
  ∀ sources contents, P contents → (sqlite.run sources request contents).All P

section Rules
variable {x : Run σ α}

theorem Keeps.pure (a : α) : Keeps P (pure a : Run σ α) := Triple.pure fun _ h => h

theorem Keeps.fail (e : RuntimeError) : Keeps P (Act.fail e : Run σ α) := Triple.fail fun _ h => h

theorem Keeps.given (result : Except RuntimeError α) : Keeps P (Act.given result : Run σ α) :=
  Triple.given (fun _ _ _ h => h) fun _ _ _ h => h

theorem Keeps.bind {f : α → Run σ β} (hx : Keeps P x) (hf : ∀ a, Keeps P (f a)) : Keeps P (x >>= f) :=
  Triple.bind hx hf

theorem Keeps.read (f : Session σ → α) : Keeps P (Act.read f : Run σ α) := Triple.read fun _ h => h

theorem Keeps.attempt (h : Keeps P x) : Keeps P x.attempt := by
  refine (Triple.attempt h).weaken (fun _ h => h) ?_ fun _ _ h => h
  intro result session h
  cases result with
  | ok a => exact h
  | error e => exact h

theorem Keeps.ignore (h : Keeps P x) : Keeps P x.ignore := Triple.ignore h

theorem Keeps.query (f : σ → Except RuntimeError α) : Keeps P (query f) := by
  intro session h
  unfold Runtime.query
  cases f session.contents with
  | ok a => exact h
  | error e => exact h

theorem Keeps.batch (control : Control) : Keeps P (batch sqlite control) := by
  intro session h
  unfold Runtime.batch
  cases hperform : Connection.perform sqlite session.connection control with
  | none => exact h
  | some connection =>
    change connection.All P
    cases control with
    | begin => exact h.begin hperform
    | commit => exact h.commit hperform
    | rollback => exact h.rollback hperform
    | savepoint name =>
      obtain rfl := Option.some.inj hperform
      exact h.savepoint name
    | release name => exact h.release hperform
    | rollbackTo name => exact h.rollbackTo hperform

theorem Keeps.settle {outcome : Outcome σ α} (houtcome : outcome.All P) : Keeps P (settle outcome) := by
  intro session h
  cases outcome with
  | done contents result => exact h.write houtcome
  | failed error contents => exact h.write houtcome
  | aborted error => exact h.abort

theorem Keeps.onContents {statement : σ → Outcome σ α} (hstatement : ∀ contents, P contents → (statement contents).All P) :
    Keeps P (onContents statement) :=
  fun session h => Keeps.settle (hstatement session.contents h.1) session h

theorem Keeps.executeBatches {statements : List (List Char)}
    (h : ∀ sql ∈ statements, ∀ contents, P contents → (sqlite.trusted sql contents).All P) :
    Keeps P (executeBatches sqlite statements) := by
  induction statements with
  | nil => exact Keeps.pure ()
  | cons sql rest ih =>
    exact (Keeps.onContents (h sql (by simp))).bind fun _ => ih fun sql hsql => h sql (List.mem_cons_of_mem _ hsql)

theorem Keeps.giveUp (name : List Char) (e : RuntimeError) :
    Keeps P (do (Runtime.batch sqlite (.rollbackTo name)).ignore; (Runtime.batch sqlite (.release name)).ignore
                Act.fail e : Run σ α) :=
  (Keeps.batch _).ignore.bind fun _ => (Keeps.batch _).ignore.bind fun _ => Keeps.fail e

theorem Keeps.guarded {name : List Char} {body : Run σ Unit} (hbody : Keeps P body) :
    Keeps P (guarded sqlite name body) := by
  refine (Keeps.batch _).bind fun _ => hbody.attempt.bind fun result => ?_
  cases result with
  | error e => exact Keeps.giveUp name e
  | ok u => exact Keeps.batch _

theorem Keeps.approve (sources : List (List Char)) : Keeps P (approve sources : Run σ Unit) :=
  Triple.modify fun _ h => h

end Rules

section Statements
variable {request : StatementRequest} {statementClass : StatementClass}

theorem Keeps.applyRlsPlan (htrusted : Trusted sqlite P) {schema : SchemaSnapshot} {catalog : RlsCatalog}
    {plan : List (CompiledTablePlan Char)} (hcompile : compile Writer.sql schema catalog = .ok plan) :
    Keeps P (applyRlsPlan sqlite plan) :=
  (Keeps.guarded (Keeps.executeBatches fun sql hsql => htrusted.generated sql (.plan hcompile hsql))).bind
    fun _ => Keeps.approve _

theorem Keeps.refreshCapture (htrusted : Trusted sqlite P) (catalog : RlsCatalog) :
    Keeps P (refreshCapture sqlite catalog) :=
  (Keeps.query _).bind fun _ =>
    (Keeps.guarded (Keeps.executeBatches fun sql hsql => htrusted.generated sql (.capture hsql))).bind
      fun _ => Keeps.approve _

theorem Keeps.suspendChangeCapture (htrusted : Trusted sqlite P) : Keeps P (suspendChangeCapture sqlite) := by
  refine (Keeps.query _).bind fun names => Keeps.executeBatches fun sql hsql => ?_
  obtain ⟨name, -, rfl⟩ := List.mem_map.mp hsql
  exact htrusted.generated _ (.suspend name)

theorem Keeps.executeInner (hrequest : LeavesAlone sqlite P request) : Keeps P (executeInner sqlite request) := by
  unfold Runtime.executeInner
  split
  · exact (Keeps.batch _).bind fun _ => Keeps.pure _
  · exact fun session h => Keeps.settle (hrequest session.approvedSources session.contents h.1) session h

theorem Keeps.executeAndRefresh (htrusted : Trusted sqlite P) (hrequest : LeavesAlone sqlite P request) :
    Keeps P (executeAndRefresh sqlite statementClass request) := by
  refine (Keeps.executeInner hrequest).bind fun result => ?_
  split
  · exact (Keeps.query _).bind fun catalog => (Keeps.refreshCapture htrusted catalog).bind fun _ => Keeps.pure result
  · exact Keeps.pure result

theorem Keeps.suspendFor (htrusted : Trusted sqlite P) : Keeps P (suspendFor sqlite statementClass) := by
  unfold Runtime.suspendFor
  split
  · refine (Keeps.suspendChangeCapture htrusted).attempt.bind fun result => ?_
    cases result with
    | error e => exact Keeps.giveUp _ e
    | ok u => exact Keeps.pure ()
  · exact Keeps.pure ()

theorem Keeps.executeInSavepoint (htrusted : Trusted sqlite P) (hrequest : LeavesAlone sqlite P request) :
    Keeps P (executeInSavepoint sqlite statementClass request) := by
  refine (Keeps.executeAndRefresh htrusted hrequest).attempt.bind fun result => ?_
  cases result with
  | error e => exact Keeps.giveUp _ e
  | ok value =>
    refine (Keeps.query _).attempt.bind fun result => ?_
    cases result with
    | error e => exact Keeps.giveUp _ e
    | ok u => exact (Keeps.batch _).bind fun _ => Keeps.pure value

theorem Keeps.executeBounded (htrusted : Trusted sqlite P) (hrequest : LeavesAlone sqlite P request) :
    Keeps P (executeBounded sqlite statementClass request) := by
  unfold Runtime.executeBounded
  split
  · exact Keeps.executeAndRefresh htrusted hrequest
  · exact (Keeps.batch _).bind fun _ => (Keeps.suspendFor htrusted).bind fun _ =>
      Keeps.executeInSavepoint htrusted hrequest

theorem Keeps.execute {limits : SessionLimits} {mode : ExecutionMode} (htrusted : Trusted sqlite P)
    (hrequest : LeavesAlone sqlite P request) : Keeps P (execute sqlite limits mode request) :=
  (Keeps.given _).bind fun _ => Keeps.executeBounded htrusted hrequest

/-- A statement that is classed as a read runs alone, without a savepoint or a refresh. -/
theorem Keeps.execute_read {limits : SessionLimits} {mode : ExecutionMode}
    (hread : ∀ statementClass, classifyStatement request.sql = .ok statementClass → statementClass.readOnly = true)
    (hrequest : LeavesAlone sqlite P request) : Keeps P (Runtime.execute sqlite limits mode request) := by
  refine Triple.bind (Q := fun statementClass session =>
      classifyStatement request.sql = .ok statementClass ∧ session.connection.All P)
    (Triple.given (fun _ _ hvalid h => ⟨class_of_validate hvalid, h⟩) fun _ _ _ h => h) fun statementClass => ?_
  rintro session ⟨hclass, h⟩
  have hreads := hread statementClass hclass
  have hkind : statementClass.kind ≠ .ddl := by
    have hselect := hreads
    rw [classifyStatement_readOnly hclass] at hselect
    rw [of_decide_eq_true hselect]
    decide
  have hrun : Keeps P (Runtime.executeBounded sqlite statementClass request) := by
    unfold Runtime.executeBounded
    rw [if_pos hreads]
    refine (Keeps.executeInner hrequest).bind fun result => ?_
    rw [if_neg hkind]
    exact Keeps.pure result
  exact hrun session h

end Statements

structure Sequential (K : ∀ {α : Type}, Run σ α → Prop) : Prop where
  pure : ∀ {α : Type} (a : α), K (pure a : Run σ α)
  fail : ∀ {α : Type} (e : RuntimeError), K (Act.fail e : Run σ α)
  read : ∀ {α : Type} (f : Session σ → α), K (Act.read f : Run σ α)
  bind : ∀ {α β : Type} {x : Run σ α} {f : α → Run σ β}, K x → (∀ a, K (f a)) → K (x >>= f)

theorem sequential_safe (start : σ) : Sequential (Safe start) :=
  ⟨Safe.pure, Safe.fail, Safe.read, Safe.bind⟩

theorem sequential_keeps (P : σ → Prop) : Sequential (Keeps P) :=
  ⟨Keeps.pure, Keeps.fail, Keeps.read, Keeps.bind⟩

theorem Session.all_begun {session : Session σ} (h : P session.contents) : session.begun.connection.All P := by
  refine ⟨h, ?_⟩
  intro t ht
  obtain rfl := Option.some.inj ht
  exact ⟨h, by simp⟩

end Ffdb.Runtime
