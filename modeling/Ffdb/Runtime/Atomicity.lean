import Ffdb.Runtime.Session

/-! Statements inside an atomic block keep its transaction or lose all of it, so that a failure
takes the whole block back; only a commit of the caller's own gets out. -/
namespace Ffdb.Runtime
open Sql Rls Savepoint Act
variable {σ ρ α β : Type} {sqlite : Sqlite σ ρ} {start : σ}

def Session.Held (start : σ) (session : Session σ) : Prop := session.connection.Since start

def Session.Undone (start : σ) (session : Session σ) : Prop := session.connection = ⟨start, none⟩

def Session.HeldOrUndone (start : σ) (session : Session σ) : Prop :=
  session.Held start ∨ session.Undone start

/-- The computation keeps the transaction; a failure may have undone it. -/
def Safe (start : σ) (x : Run σ α) : Prop :=
  Triple (Session.Held start) x (fun _ => Session.Held start) fun _ => Session.HeldOrUndone start

section Rules
variable {x : Run σ α}

theorem Safe.pure (a : α) : Safe start (pure a : Run σ α) := Triple.pure fun _ h => h

theorem Safe.fail (e : RuntimeError) : Safe start (Act.fail e : Run σ α) := Triple.fail fun _ h => .inl h

theorem Safe.given (result : Except RuntimeError α) : Safe start (Act.given result : Run σ α) :=
  Triple.given (fun _ _ _ h => h) fun _ _ _ h => .inl h

theorem Safe.bind {f : α → Run σ β} (hx : Safe start x) (hf : ∀ a, Safe start (f a)) :
    Safe start (x >>= f) := Triple.bind hx hf

theorem Safe.read (f : Session σ → α) : Safe start (Act.read f : Run σ α) := Triple.read fun _ h => h

theorem Safe.query (f : σ → Except RuntimeError α) : Safe start (query f) := by
  intro session h
  unfold Runtime.query
  cases f session.contents with
  | ok a => exact h
  | error e => exact .inl h

theorem Safe.settle (outcome : Outcome σ α) : Safe start (settle outcome) := by
  intro session h
  cases outcome with
  | done contents result => exact h.write contents
  | failed error contents => exact .inl (h.write contents)
  | aborted error => exact .inr h.abort

theorem Safe.onContents (statement : σ → Outcome σ α) : Safe start (onContents statement) :=
  fun session h => Safe.settle (statement session.contents) session h

theorem Safe.write (change : σ → σ) : Safe start (write sqlite change) := Safe.onContents _

theorem Safe.executeBatches (statements : List (List Char)) : Safe start (executeBatches sqlite statements) := by
  induction statements with
  | nil => exact Safe.pure ()
  | cons sql rest ih => exact (Safe.onContents _).bind fun _ => ih

theorem Safe.checkDatabaseSize : Safe start (checkDatabaseSize sqlite) := Safe.query _

theorem Safe.approve (sources : List (List Char)) : Safe start (approve sources : Run σ Unit) :=
  Triple.modify fun _ h => h

/-- Control statements other than the end of the transaction keep it. -/
theorem Safe.batch {control : Control} (hcommit : control ≠ .commit) (hrollback : control ≠ .rollback) :
    Safe start (batch sqlite control) := by
  intro session h
  unfold Runtime.batch
  cases hperform : Connection.perform sqlite session.connection control with
  | none => exact .inl h
  | some connection =>
    change connection.Since start
    cases control with
    | begin =>
      obtain ⟨t, ht, -⟩ := h
      simp [Connection.perform, Connection.begin, ht] at hperform
    | commit => exact absurd rfl hcommit
    | rollback => exact absurd rfl hrollback
    | savepoint name =>
      obtain rfl := Option.some.inj hperform
      exact h.savepoint name
    | release name => exact (h.release hperform).1
    | rollbackTo name => exact h.rollbackTo hperform

end Rules

section Failure
variable {name : List Char} {control : Control} {e : RuntimeError}

/-- Outside of a transaction nothing can be gone back to or released. -/
theorem batch_undone (hcontrol : control = .rollbackTo name ∨ control = .release name) {session : Session σ}
    (h : session.Undone start) : batch sqlite control session = (.error .database, session) := by
  have hidle : session.connection.Idle := by rw [Session.Undone] at h; rw [h]; rfl
  unfold batch
  obtain rfl | rfl := hcontrol
  · rw [Connection.perform, hidle.rollbackTo]
  · rw [Connection.perform, hidle.release]

theorem batch_heldOrUndone (hcontrol : control = .rollbackTo name ∨ control = .release name) :
    Triple (Session.HeldOrUndone start) (batch sqlite control) (fun _ => Session.Held start)
      fun _ => Session.HeldOrUndone start := by
  intro session h
  obtain h | h := h
  · have hsafe : Safe start (batch sqlite control) := by
      obtain rfl | rfl := hcontrol
      · exact Safe.batch (by simp) (by simp)
      · exact Safe.batch (by simp) (by simp)
    exact hsafe session h
  · rw [batch_undone hcontrol h]
    exact .inr h

/-- What tidies up after a failure finds the transaction, or nothing to do. -/
theorem ignore_heldOrUndone (hcontrol : control = .rollbackTo name ∨ control = .release name)
    {E : RuntimeError → Session σ → Prop} :
    Triple (Session.HeldOrUndone start) (batch sqlite control).ignore
      (fun _ => Session.HeldOrUndone start) E := by
  refine Triple.ignore ?_
  exact (batch_heldOrUndone hcontrol).weaken (fun _ h => h) (fun _ _ h => .inl h) fun _ _ h => h

theorem giveUp_heldOrUndone (name : List Char) {Q : α → Session σ → Prop} :
    Triple (Session.HeldOrUndone start)
      (do (batch sqlite (.rollbackTo name)).ignore; (batch sqlite (.release name)).ignore; Act.fail e : Run σ α)
      Q fun _ => Session.HeldOrUndone start :=
  (ignore_heldOrUndone (.inl rfl)).bind fun _ =>
    (ignore_heldOrUndone (.inr rfl)).bind fun _ => Triple.fail fun _ h => h

theorem giveUpStatement_heldOrUndone {Q : α → Session σ → Prop} :
    Triple (Session.HeldOrUndone start) (giveUpStatement sqlite e : Run σ α) Q
      fun _ => Session.HeldOrUndone start := giveUp_heldOrUndone statementLimit

/-- After a computation that keeps the transaction, its failure is dealt with. -/
theorem Safe.attempt_bind {x : Run σ α} {f : Except RuntimeError α → Run σ β} (hx : Safe start x)
    (hok : ∀ a, Safe start (f (.ok a)))
    (herror : ∀ e, Triple (Session.HeldOrUndone start) (f (.error e)) (fun _ => Session.Held start)
      fun _ => Session.HeldOrUndone start) :
    Safe start (x.attempt >>= f) := by
  refine Triple.bind (Triple.attempt hx) fun result => ?_
  cases result with
  | ok a => exact hok a
  | error e => exact herror e

theorem Safe.guarded (name : List Char) {body : Run σ Unit} (hbody : Safe start body) :
    Safe start (guarded sqlite name body) := by
  refine (Safe.batch (by simp) (by simp)).bind fun _ => hbody.attempt_bind (fun _ => ?_) fun e => ?_
  · exact Safe.batch (by simp) (by simp)
  · exact giveUp_heldOrUndone name

end Failure

theorem Safe.applyRlsPlan (plan : List (CompiledTablePlan Char)) : Safe start (applyRlsPlan sqlite plan) :=
  (Safe.guarded _ (Safe.executeBatches _)).bind fun _ => Safe.approve _

theorem Safe.suspendChangeCapture : Safe start (suspendChangeCapture sqlite) :=
  (Safe.query _).bind fun _ => Safe.executeBatches _

theorem Safe.refreshCapture (catalog : RlsCatalog) : Safe start (refreshCapture sqlite catalog) :=
  (Safe.query _).bind fun _ => (Safe.guarded _ (Safe.executeBatches _)).bind fun _ => Safe.approve _

section Statements
variable {request : StatementRequest} {statementClass : StatementClass}

theorem Safe.executeInner (hcommit : sqlite.control request.sql ≠ some .commit)
    (hrollback : sqlite.control request.sql ≠ some .rollback) : Safe start (executeInner sqlite request) := by
  unfold Runtime.executeInner
  cases hcontrol : sqlite.control request.sql with
  | none => exact fun session h => Safe.settle _ session h
  | some control =>
    refine (Safe.batch ?_ ?_).bind fun _ => Safe.pure _
    · rintro rfl
      exact hcommit hcontrol
    · rintro rfl
      exact hrollback hcontrol

theorem Safe.executeAndRefresh (hinner : Safe start (Runtime.executeInner sqlite request)) :
    Safe start (executeAndRefresh sqlite statementClass request) := by
  refine hinner.bind fun result => ?_
  dsimp only
  split
  · exact (Safe.query _).bind fun catalog => (Safe.refreshCapture catalog).bind fun _ => Safe.pure _
  · exact Safe.pure _

theorem Safe.suspendFor : Safe start (suspendFor sqlite statementClass) := by
  unfold Runtime.suspendFor
  split
  · exact Safe.suspendChangeCapture.attempt_bind (fun _ => Safe.pure ()) fun _ => giveUpStatement_heldOrUndone
  · exact Safe.pure ()

theorem Safe.executeInSavepoint (hinner : Safe start (Runtime.executeInner sqlite request)) :
    Safe start (executeInSavepoint sqlite statementClass request) := by
  refine (Safe.executeAndRefresh hinner).attempt_bind (fun result => ?_) fun _ => giveUpStatement_heldOrUndone
  refine Safe.checkDatabaseSize.attempt_bind (fun _ => ?_) fun _ => giveUpStatement_heldOrUndone
  exact (Safe.batch (by simp) (by simp)).bind fun _ => Safe.pure _

/-- A statement that does not end the transaction keeps it. -/
theorem Safe.executeBounded (hinner : Safe start (Runtime.executeInner sqlite request)) :
    Safe start (executeBounded sqlite statementClass request) := by
  unfold Runtime.executeBounded
  split
  · exact Safe.executeAndRefresh hinner
  · exact (Safe.batch (by simp) (by simp)).bind fun _ => Safe.suspendFor.bind fun _ =>
      Safe.executeInSavepoint hinner

theorem executeAndRefresh_control {control : Control} {session : Session σ} {connection : Connection σ}
    (hcontrol : sqlite.control request.sql = some control) (hkind : statementClass.kind ≠ .ddl)
    (hperform : Connection.perform sqlite session.connection control = some connection) :
    executeAndRefresh sqlite statementClass request session =
      (.ok sqlite.controlled, { session with connection }) := by
  have hinner : executeInner sqlite request session = (.ok sqlite.controlled, { session with connection }) := by
    unfold executeInner
    rw [hcontrol]
    have hbatch : batch sqlite control session = (.ok (), { session with connection }) := by
      unfold batch
      rw [hperform]
    exact Act.bind_ok hbatch
  unfold executeAndRefresh
  rw [Act.bind_ok hinner, if_neg hkind]
  rfl

/-- A statement that ends the transaction fails, as its savepoint is gone; what the end of the
transaction left stays. -/
theorem executeInSavepoint_ended {control : Control} {session : Session σ} {contents : σ}
    (hcontrol : sqlite.control request.sql = some control) (hkind : statementClass.kind ≠ .ddl)
    (hperform : Connection.perform sqlite session.connection control = some ⟨contents, none⟩) :
    ∃ e, executeInSavepoint sqlite statementClass request session =
      (.error e, { session with connection := ⟨contents, none⟩ }) := by
  let ended : Session σ := { session with connection := ⟨contents, none⟩ }
  have hrun := @executeAndRefresh_control σ ρ sqlite request statementClass control session ⟨contents, none⟩
    hcontrol hkind hperform
  have hended : ended.Undone contents := rfl
  have hrelease : batch sqlite (.release statementLimit) ended = (.error .database, ended) :=
    batch_undone (.inr rfl) hended
  have hgiveUp : ∀ e, (giveUpStatement sqlite e : Run σ ρ) ended = (.error e, ended) := by
    intro e
    have hback : (batch sqlite (.rollbackTo statementLimit)).ignore ended = (.ok (), ended) := by
      rw [ignore_apply, batch_undone (.inl rfl) hended]
    have hfree : (batch sqlite (.release statementLimit)).ignore ended = (.ok (), ended) := by
      rw [ignore_apply, hrelease]
    unfold giveUpStatement
    rw [Act.bind_ok hback, Act.bind_ok hfree]
    rfl
  unfold executeInSavepoint
  rw [Act.bind_ok (attempt_apply ..), hrun]
  dsimp only
  rw [Act.bind_ok (attempt_apply ..)]
  cases hcheck : (checkDatabaseSize sqlite ended).1 with
  | error e => exact ⟨e, hgiveUp e⟩
  | ok u => exact ⟨.database, Act.bind_error hrelease⟩

def ClassedAsControl (sql : List Char) : Prop :=
  ∃ statementClass, classifyStatement sql = .ok statementClass ∧ statementClass.kind = .transactionControl

theorem classifyStatement_readOnly {sql : List Char} (h : classifyStatement sql = .ok statementClass) :
    statementClass.readOnly = decide (statementClass.kind = .select) := by
  simp only [classifyStatement, Fallible.bind_ok_iff, Fallible.pure_ok_iff] at h
  obtain ⟨_, _, _, _, _, _, kind, _, rfl⟩ := h
  rfl

theorem class_of_validate {limits : SessionLimits} {mode : ExecutionMode}
    (h : validate limits mode request = .ok statementClass) : classifyStatement request.sql = .ok statementClass := by
  simp only [validate, Fallible.bind_ok_iff, Fallible.pure_ok_iff] at h
  obtain ⟨_, _, _, _, found, hfound, _, _, rfl⟩ := h
  cases hclass : classifyStatement request.sql with
  | error e =>
    rw [hclass] at hfound
    cases hfound
  | ok other =>
    rw [hclass] at hfound
    exact congrArg Except.ok (Except.ok.inj hfound)

theorem ClassedAsControl.kind {limits : SessionLimits} {mode : ExecutionMode}
    (hclassed : ClassedAsControl request.sql) (h : validate limits mode request = .ok statementClass) :
    statementClass.kind = .transactionControl ∧ statementClass.readOnly = false := by
  obtain ⟨known, hknown, hkind⟩ := hclassed
  have hclass := class_of_validate h
  rw [hknown] at hclass
  obtain rfl := Except.ok.inj hclass
  rw [classifyStatement_readOnly hknown, hkind]
  exact ⟨rfl, rfl⟩

theorem execute_admitted {limits : SessionLimits} {mode : ExecutionMode} {session : Session σ}
    (hclassed : ClassedAsControl request.sql) (hvalid : validate limits mode request = .ok statementClass) :
    execute sqlite limits mode request session = executeInSavepoint sqlite statementClass request
      { session with connection := session.connection.savepoint statementLimit } := by
  obtain ⟨hkind, hwrites⟩ := hclassed.kind hvalid
  let inside : Session σ := { session with connection := session.connection.savepoint statementLimit }
  have hsavepoint : batch sqlite (.savepoint statementLimit) session = (.ok (), inside) := rfl
  have hsuspend : suspendFor sqlite statementClass inside = (.ok (), inside) := by
    unfold suspendFor
    rw [hkind, if_neg (by decide)]
    rfl
  have hgiven : (Act.given (validate limits mode request) : Run σ StatementClass) session =
      (.ok statementClass, session) := by
    rw [given_apply, hvalid]
  unfold execute
  rw [Act.bind_ok hgiven]
  unfold executeBounded
  rw [hwrites, if_neg Bool.false_ne_true, Act.bind_ok hsavepoint, Act.bind_ok hsuspend]

/-- Control that SQLite refuses fails the statement inside the transaction. -/
theorem execute_refused {limits : SessionLimits} {mode : ExecutionMode} {control : Control}
    {session : Session σ} (hcontrol : sqlite.control request.sql = some control)
    (hclassed : ClassedAsControl request.sql) (hvalid : validate limits mode request = .ok statementClass)
    (hheld : session.Held start)
    (hperform : Connection.perform sqlite (session.connection.savepoint statementLimit) control = none) :
    ∃ e after, execute sqlite limits mode request session = (.error e, after) ∧ after.HeldOrUndone start := by
  let inside : Session σ := { session with connection := session.connection.savepoint statementLimit }
  have hinside : inside.Held start := hheld.savepoint statementLimit
  have hbatch : batch sqlite control inside = (.error .database, inside) := by
    unfold batch
    rw [hperform]
  have hinner : executeInner sqlite request inside = (.error .database, inside) := by
    unfold executeInner
    rw [hcontrol]
    exact Act.bind_error hbatch
  have hrun : executeAndRefresh sqlite statementClass request inside = (.error .database, inside) :=
    Act.bind_error hinner
  rw [execute_admitted hclassed hvalid]
  unfold executeInSavepoint
  rw [Act.bind_ok (attempt_apply ..), hrun]
  dsimp only
  have hgiveUp : Triple (Session.HeldOrUndone start) (giveUpStatement sqlite .database : Run σ ρ)
      (fun _ _ => False) fun _ => Session.HeldOrUndone start := giveUpStatement_heldOrUndone
  cases hresult : (giveUpStatement sqlite .database : Run σ ρ) inside with
  | mk result after =>
    cases result with
    | ok value => exact (hgiveUp.ok (.inl hinside) hresult).elim
    | error e => exact ⟨e, after, rfl, hgiveUp.error (.inl hinside) hresult⟩

/-- An admitted statement that ends the transaction, and is known as transaction control, fails
and leaves what the end of the transaction left. -/
theorem execute_ended {limits : SessionLimits} {mode : ExecutionMode} {control : Control} {contents : σ}
    {session : Session σ} (hcontrol : sqlite.control request.sql = some control)
    (hclassed : ClassedAsControl request.sql) (hvalid : validate limits mode request = .ok statementClass)
    (hperform : Connection.perform sqlite (session.connection.savepoint statementLimit) control =
      some ⟨contents, none⟩) :
    ∃ e, execute sqlite limits mode request session =
      (.error e, { session with connection := ⟨contents, none⟩ }) := by
  have hddl : statementClass.kind ≠ .ddl := by
    rw [(hclassed.kind hvalid).1]
    decide
  rw [execute_admitted hclassed hvalid]
  exact executeInSavepoint_ended hcontrol hddl hperform

theorem execute_invalid {limits : SessionLimits} {mode : ExecutionMode} {session : Session σ} {e : RuntimeError}
    (h : validate limits mode request = .error e) :
    execute sqlite limits mode request session = (.error e, session) := by
  have hgiven : (Act.given (validate limits mode request) : Run σ StatementClass) session =
      (.error e, session) := by
    rw [given_apply, h]
  exact Act.bind_error hgiven

/-- The statement does not commit, and what SQLite reads as a rollback is known as one. -/
structure Harmless (sqlite : Sqlite σ ρ) (sql : List Char) : Prop where
  commit : sqlite.control sql ≠ some .commit
  rollback : sqlite.control sql = some .rollback → ClassedAsControl sql

theorem Safe.execute {limits : SessionLimits} {mode : ExecutionMode} (hharmless : Harmless sqlite request.sql) :
    Safe start (execute sqlite limits mode request) := by
  by_cases hrollback : sqlite.control request.sql = some .rollback
  · intro session h
    cases hvalid : validate limits mode request with
    | error e =>
      rw [execute_invalid hvalid]
      exact .inl h
    | ok statementClass =>
      obtain ⟨e, he⟩ := execute_ended hrollback (hharmless.rollback hrollback) hvalid
        (h.savepoint statementLimit).rollback
      rw [he]
      exact .inr rfl
  · exact (Safe.given _).bind fun statementClass =>
      Safe.executeBounded (Safe.executeInner hharmless.commit hrollback)

end Statements

theorem write_ok {change : σ → σ} {session after : Session σ} (h : write sqlite change session = (.ok (), after)) :
    after.contents = change session.contents := by
  unfold write onContents at h
  beta_reduce at h
  cases hpersists : sqlite.persists (change session.contents) with
  | error e =>
    rw [hpersists] at h
    cases congrArg Prod.fst h
  | ok u =>
    rw [hpersists] at h
    have hafter : { session with connection := { session.connection with contents := change session.contents } } =
        after := congrArg Prod.snd h
    rw [← hafter]
    rfl

section Atomic
variable {callback : Run σ α} {approvedBefore : List (List Char)}

def Session.begun (session : Session σ) : Session σ where
  connection := ⟨session.contents, some ⟨session.contents, true, []⟩⟩
  approvedSources := session.approvedSources
  inAtomic := true

theorem Session.held_begun (session : Session σ) : session.begun.Held session.contents :=
  ⟨_, rfl, rfl, rfl⟩

theorem giveUpAtomic_undone {e : RuntimeError} {Q : α → Session σ → Prop} :
    Triple (Session.HeldOrUndone start) (giveUpAtomic sqlite approvedBefore e : Run σ α) Q
      fun _ session => session = ⟨⟨start, none⟩, approvedBefore, false⟩ := by
  have hrollback : Triple (Session.HeldOrUndone start) (batch sqlite .rollback).ignore
      (fun _ => Session.Undone start)
      fun (_ : RuntimeError) session => session = ⟨⟨start, none⟩, approvedBefore, false⟩ := by
    intro session h
    rw [ignore_apply]
    obtain h | h := h
    · have hperform : Connection.perform sqlite session.connection .rollback = some ⟨start, none⟩ := h.rollback
      simp only [batch, hperform]
      rfl
    · have hperform : Connection.perform sqlite session.connection .rollback = none := by
        rw [Session.Undone] at h
        rw [h]
        rfl
      simp only [batch, hperform]
      exact h
  refine hrollback.bind fun _ => Triple.bind (Q := fun _ session =>
    session = ⟨⟨start, none⟩, approvedBefore, false⟩) (Triple.modify ?_) fun _ => Triple.fail fun _ h => h
  intro session h
  rw [h.symm]

/-- The end of a block that kept its transaction: what fails leaves nothing behind. -/
theorem finishAtomic_error {P : Session σ → Prop}
    (hsafe : Triple P callback (fun _ => Session.Held start) fun _ => Session.HeldOrUndone start) :
    Triple P (finishAtomic sqlite approvedBefore callback) (fun _ _ => True)
      fun _ session => session = ⟨⟨start, none⟩, approvedBefore, false⟩ := by
  have hgiveUp : ∀ e, Triple (Session.HeldOrUndone start) (giveUpAtomic sqlite approvedBefore e : Run σ α)
      (fun _ _ => True) fun _ session => session = ⟨⟨start, none⟩, approvedBefore, false⟩ :=
    fun e => giveUpAtomic_undone
  refine Triple.bind (Triple.attempt hsafe) fun result => ?_
  cases result with
  | error e => exact hgiveUp e
  | ok value =>
    refine Triple.bind (Triple.attempt Safe.checkDatabaseSize) fun result => ?_
    cases result with
    | error e => exact hgiveUp e
    | ok u =>
      have hcommit : Triple (Session.Held start) (batch sqlite .commit) (fun _ _ => True)
          fun (_ : RuntimeError) => Session.HeldOrUndone start := by
        intro session h
        unfold batch
        cases Connection.perform sqlite session.connection .commit with
        | none => exact .inl h
        | some connection => trivial
      refine Triple.bind (Triple.attempt hcommit) fun result => ?_
      cases result with
      | error e => exact hgiveUp e
      | ok u => exact Triple.bind (Triple.modify fun _ _ => trivial) fun _ => Triple.pure fun _ h => h

theorem atomic_eq {session : Session σ} (hidle : session.connection.Idle) (hfree : session.inAtomic = false) :
    atomic sqlite callback session = finishAtomic sqlite session.approvedSources callback session.begun := by
  have hbegin : batch sqlite .begin session =
      (.ok (), { session with connection := session.begun.connection }) := by
    unfold Connection.Idle at hidle
    simp only [batch, Connection.perform, Connection.begin, hidle]
    rfl
  unfold atomic
  rw [Act.bind_ok (read_apply ..), hfree, if_neg Bool.false_ne_true, Act.bind_ok (read_apply ..),
    Act.bind_ok hbegin]
  rfl

theorem Session.eq_of_idle {session : Session σ} (hidle : session.connection.Idle)
    (hfree : session.inAtomic = false) :
    (⟨⟨session.contents, none⟩, session.approvedSources, false⟩ : Session σ) = session := by
  cases session with
  | mk connection approvedSources inAtomic =>
    cases connection with
    | mk contents transaction =>
      obtain rfl : transaction = none := hidle
      obtain rfl : inAtomic = false := hfree
      rfl

/-- An atomic block that keeps its transaction and fails leaves the session as it was. -/
theorem atomic_error {session after : Session σ} {e : RuntimeError} (hidle : session.connection.Idle)
    (hsafe : Triple (· = session.begun) callback (fun _ => Session.Held session.contents)
      fun _ => Session.HeldOrUndone session.contents)
    (h : atomic sqlite callback session = (.error e, after)) :
    after = session := by
  cases hfree : session.inAtomic with
  | true =>
    have hfail : atomic sqlite callback session = (.error .statementNotAllowed, session) := by
      unfold atomic
      rw [Act.bind_ok (read_apply ..), hfree]
      rfl
    rw [hfail] at h
    exact (congrArg Prod.snd h).symm
  | false =>
    rw [atomic_eq hidle hfree] at h
    rw [(finishAtomic_error hsafe).error rfl h, Session.eq_of_idle hidle hfree]

theorem commit_eq {c c' : Connection σ} (h : Connection.perform sqlite c .commit = some c') :
    c' = ⟨c.contents, none⟩ ∧ sqlite.valid c.contents = true := by
  simp only [Connection.perform, Connection.commit] at h
  split at h
  · cases h
  · split at h
    · exact ⟨(Option.some.inj h).symm, ‹_›⟩
    · cases h

/-- An atomic block that succeeds has committed what its callback left, and it fits. -/
theorem atomic_committed {session after : Session σ} {value : α} (hidle : session.connection.Idle)
    (hfree : session.inAtomic = false) (h : atomic sqlite callback session = (.ok value, after)) :
    ∃ mid, callback session.begun = (.ok value, mid) ∧
      after = ⟨⟨mid.contents, none⟩, mid.approvedSources, false⟩ ∧
      sqlite.fits mid.contents = true ∧ sqlite.valid mid.contents = true := by
  rw [atomic_eq hidle hfree] at h
  unfold finishAtomic at h
  rw [attempt_bind] at h
  cases hcallback : callback session.begun with
  | mk result mid =>
    rw [hcallback] at h
    cases result with
    | error e => cases congrArg Prod.fst h
    | ok value' =>
      dsimp only at h
      rw [attempt_bind] at h
      cases hsize : (checkDatabaseSize sqlite mid).1 with
      | error e =>
        rw [hsize] at h
        cases congrArg Prod.fst h
      | ok u =>
        have hfits : sqlite.fits mid.contents = true := by
          by_contra hlarge
          simp [checkDatabaseSize, query, hlarge] at hsize
        rw [hsize] at h
        dsimp only at h
        have hmid : (checkDatabaseSize sqlite mid).2 = mid := rfl
        rw [attempt_bind, hmid] at h
        unfold batch at h
        cases hcommit : Connection.perform sqlite mid.connection .commit with
        | none =>
          rw [hcommit] at h
          cases congrArg Prod.fst h
        | some connection =>
          rw [hcommit] at h
          obtain ⟨hconnection, hvalid⟩ := commit_eq hcommit
          subst hconnection
          obtain ⟨rfl, rfl⟩ : value' = value ∧ after = ⟨⟨mid.contents, none⟩, mid.approvedSources, false⟩ :=
            ⟨Except.ok.inj (congrArg Prod.fst h), (congrArg Prod.snd h).symm⟩
          exact ⟨mid, rfl, rfl, hfits, hvalid⟩

theorem atomic_ok {session after : Session σ} {value : α} (hidle : session.connection.Idle)
    (hfree : session.inAtomic = false) (h : atomic sqlite callback session = (.ok value, after)) :
    ∃ mid, callback session.begun = (.ok value, mid) ∧
      after = ⟨⟨mid.contents, none⟩, mid.approvedSources, false⟩ := by
  obtain ⟨mid, hcallback, hafter, -⟩ := atomic_committed hidle hfree h
  exact ⟨mid, hcallback, hafter⟩

/-- A block that succeeds and keeps the transaction commits what fits. -/
theorem atomic_returns {session mid : Session σ} {value : α} (hidle : session.connection.Idle)
    (hfree : session.inAtomic = false) (hcallback : callback session.begun = (.ok value, mid))
    (hheld : mid.Held session.contents) (hfits : sqlite.fits mid.contents = true)
    (hvalid : sqlite.valid mid.contents = true) :
    atomic sqlite callback session = (.ok value, ⟨⟨mid.contents, none⟩, mid.approvedSources, false⟩) := by
  have hsize : checkDatabaseSize sqlite mid = (.ok (), mid) := by
    simp only [checkDatabaseSize, query, hfits, if_true]
  have hcommit : batch sqlite .commit mid = (.ok (), { mid with connection := ⟨mid.contents, none⟩ }) := by
    have hperform : Connection.perform sqlite mid.connection .commit = some ⟨mid.contents, none⟩ :=
      hheld.commit.trans (if_pos hvalid)
    simp only [batch, hperform]
  rw [atomic_eq hidle hfree]
  unfold finishAtomic
  rw [attempt_bind, hcallback]
  dsimp only
  rw [attempt_bind, hsize]
  dsimp only
  rw [attempt_bind, hcommit]
  rfl

/-- A block that fails outside of its transaction leaves what it finds there. -/
theorem atomic_ended {session ended : Session σ} {contents : σ} {e : RuntimeError}
    (hidle : session.connection.Idle) (hfree : session.inAtomic = false)
    (hcallback : callback session.begun = (.error e, ended)) (hended : ended.Undone contents) :
    ∃ e', atomic sqlite callback session = (.error e', ⟨⟨contents, none⟩, session.approvedSources, false⟩) := by
  have hgiveUp : Triple (Session.HeldOrUndone contents)
      (giveUpAtomic sqlite session.approvedSources e : Run σ α) (fun _ _ => False)
      fun _ session' => session' = ⟨⟨contents, none⟩, session.approvedSources, false⟩ := giveUpAtomic_undone
  have hfinish : finishAtomic sqlite session.approvedSources callback session.begun =
      (giveUpAtomic sqlite session.approvedSources e : Run σ α) ended := by
    unfold finishAtomic
    rw [Act.bind_ok (attempt_apply ..), hcallback]
  rw [atomic_eq hidle hfree, hfinish]
  cases hresult : (giveUpAtomic sqlite session.approvedSources e : Run σ α) ended with
  | mk result after =>
    cases result with
    | ok value => exact (hgiveUp.ok (.inr hended) hresult).elim
    | error e' =>
      obtain rfl := hgiveUp.error (.inr hended) hresult
      exact ⟨e', rfl⟩

/-- A block that fails inside of its transaction leaves the session as it was. -/
theorem atomic_failed {session mid : Session σ} {e : RuntimeError} (hidle : session.connection.Idle)
    (hfree : session.inAtomic = false) (hcallback : callback session.begun = (.error e, mid))
    (hheld : mid.Held session.contents) : atomic sqlite callback session = (.error e, session) := by
  have hperform : Connection.perform sqlite mid.connection .rollback = some ⟨session.contents, none⟩ :=
    hheld.rollback
  have hrollback : (batch sqlite .rollback).ignore mid =
      (.ok (), { mid with connection := ⟨session.contents, none⟩ }) := by
    rw [ignore_apply]
    simp only [batch, hperform]
  rw [atomic_eq hidle hfree]
  unfold finishAtomic
  rw [attempt_bind, hcallback]
  dsimp only
  unfold giveUpAtomic
  rw [Act.bind_ok hrollback, Act.bind_ok (modify_apply ..)]
  exact congrArg _ (Session.eq_of_idle hidle hfree)

theorem Safe.begun {session : Session σ} (h : Safe session.contents callback) :
    Triple (· = session.begun) callback (fun _ => Session.Held session.contents)
      fun _ => Session.HeldOrUndone session.contents := by
  refine Triple.weaken h ?_ (fun _ _ h => h) fun _ _ h => h
  rintro _ rfl
  exact session.held_begun

end Atomic
end Ffdb.Runtime
