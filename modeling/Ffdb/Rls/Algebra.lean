import Ffdb.Rls.Combine

/-! What the generated expressions decide. Their text is read as SQL, with the predicates
of the policies as holes to which any truth value may be given. -/
namespace Ffdb.Rls
open Sql Text Formula

def session (role : List Char) (developer : Bool) (callee : List Char) : Option Value :=
  if callee = "__ffdb_auth_role".toList then some (.text role)
  else if callee = "__ffdb_is_developer".toList then some (.truth (.ofBool developer))
  else none

def matchesRole (roles : List RoleName) (role : List Char) : Bool :=
  roles.any fun r => isPublic r || decide (role = r.name.value)

def Policy.truth (policy : Policy) (purpose : PredicatePurpose) (truth : Clause → Truth) : Truth :=
  (policy.clause purpose).elim .true truth

/-- When a table lets a row pass: the policies that apply to the operation and name the
caller's role are counted, a permissive one grants and every restrictive one must agree. -/
def TablePolicies.Admits (metadata : TablePolicies) (operation : Operation)
    (purpose : PredicatePurpose) (role : List Char) (developer : Bool) (truth : Clause → Truth) :
    Prop :=
  metadata.enabled = false ∨ (metadata.forced = false ∧ developer = true) ∨
  ((∃ (name : Identifier) (policy : Policy), metadata.policies[name]? = some policy ∧ applies policy.command operation ∧
      policy.mode = .permissive ∧ matchesRole policy.roles role ∧
      policy.truth purpose truth = .true) ∧
    ∀ (name : Identifier) (policy : Policy), metadata.policies[name]? = some policy → applies policy.command operation →
      policy.mode = .restrictive → matchesRole policy.roles role →
      policy.truth purpose truth = .true)

section Meaning
variable (role : List Char) (developer : Bool) (truth : Clause → Truth)

theorem isTerm_role (r : RoleName) :
    IsTerm (session role developer) truth
      (Writer.template.literal "__ffdb_auth_role() = " ++ Writer.template.role r)
      (.ofBool (role = r.name.value)) := by
  exact isTerm_equal r.name.value rfl rfl

theorem foldl_or_ofBool (b : Bool) (bs : List Bool) :
    (bs.map Truth.ofBool).foldl Truth.or (.ofBool b) = .ofBool (b || bs.any id) := by
  induction bs generalizing b with
  | nil => simp
  | cons c bs ih => simp [ih, Bool.or_assoc]

/-- The guard of a role list that is not empty tells whether the caller's role is in it. -/
theorem isExpr_roleGuard {roles : List RoleName} (h : roles ≠ []) :
    IsExpr (session role developer) truth (roleGuard Writer.template roles)
      (.ofBool (matchesRole roles role)) := by
  by_cases hpublic : roles.any isPublic = true
  · have hmatch : matchesRole roles role = true := by
      simp only [matchesRole, List.any_eq_true, Bool.or_eq_true] at hpublic ⊢
      obtain ⟨r, hr, hpublic⟩ := hpublic
      exact ⟨r, hr, .inl hpublic⟩
    rw [roleGuard, if_pos hpublic, hmatch]
    exact isTerm_one.expr
  · rw [roleGuard, if_neg hpublic]
    cases roles with
    | nil => exact absurd rfl h
    | cons r roles =>
      have hjoin := isExpr_join disjunction _ _ r roles fun r' _ => isTerm_role role developer truth r'
      have hnone : ∀ r' ∈ r :: roles, isPublic r' = false := by simpa using hpublic
      have hvalue : matchesRole (r :: roles) role = (decide (role = r.name.value) ||
          (roles.map fun r' => decide (role = r'.name.value)).any id) := by
        rw [Bool.eq_iff_iff]
        simp only [matchesRole, List.any_cons, List.any_map, Bool.or_eq_true, hnone r (by simp),
          Bool.false_eq_true, false_or, List.any_eq_true, Function.comp_apply, id_eq]
        refine or_congr_right (exists_congr fun r' => and_congr_right fun hr' => ?_)
        simp [hnone r' (by simp [hr'])]
      rw [hvalue, ← foldl_or_ofBool, List.map_map]
      exact hjoin

theorem isExpr_clause (policy : Policy) (purpose : PredicatePurpose) :
    IsExpr (session role developer) truth (clauseSql Writer.template policy purpose)
      (policy.truth purpose truth) := by
  rw [clauseSql, Policy.truth]
  cases policy.clause purpose with
  | none => exact isTerm_one.expr
  | some clause => exact (isTerm_hole clause).expr

/-- Two expressions in parentheses with a connective between them, in parentheses. -/
theorem isTerm_pair (connective : Connective Clause) {source source' : List (Char ⊕ Clause)}
    {t t' : Truth} (h : IsExpr (session role developer) truth source t)
    (h' : IsExpr (session role developer) truth source' t') :
    IsTerm (session role developer) truth
      (chars ['(', '('] ++ source ++ chars [')'] ++ chars connective.separator ++ chars ['('] ++
        source' ++ chars [')', ')']) (connective.truth t t') := by
  have hpair := isExpr_join connective Prod.fst Prod.snd
    (chars ['('] ++ source ++ chars [')'], t) [(chars ['('] ++ source' ++ chars [')'], t')] (by
      simp only [List.mem_cons, List.not_mem_nil, or_false, forall_eq_or_imp, forall_eq]
      exact ⟨h.group, h'.group⟩)
  simpa [chars] using hpair.group

theorem isTerm_permissive (purpose : PredicatePurpose) {policy : Policy} (h : policy.WellFormed) :
    IsTerm (session role developer) truth (permissiveSql Writer.template purpose policy)
      (.and (.ofBool (matchesRole policy.roles role)) (policy.truth purpose truth)) := by
  have hpair := isTerm_pair role developer truth conjunction
    (isExpr_roleGuard role developer truth h.roles) (isExpr_clause role developer truth policy purpose)
  simpa [permissiveSql, Writer.template, chars, conjunction] using hpair

theorem isTerm_restrictive (purpose : PredicatePurpose) {policy : Policy} (h : policy.WellFormed) :
    IsTerm (session role developer) truth (restrictiveSql Writer.template purpose policy)
      (.or (.not (.ofBool (matchesRole policy.roles role))) (policy.truth purpose truth)) := by
  have hguard := (isExpr_roleGuard role developer truth h.roles).group.not
  have hpair := isTerm_pair role developer truth disjunction hguard
    (isExpr_clause role developer truth policy purpose)
  simpa [restrictiveSql, Writer.template, chars, disjunction] using hpair

/-- One permissive policy that grants is enough, and there must be one. -/
theorem isExpr_permissive (purpose : PredicatePurpose) (policies : List Policy)
    (h : ∀ policy ∈ policies, policy.WellFormed) :
    ∃ t, IsExpr (session role developer) truth
        (joinOr Writer.template (policies.map (permissiveSql Writer.template purpose)) " OR " "0") t ∧
      (t = .true ↔ ∃ policy ∈ policies, matchesRole policy.roles role ∧
        policy.truth purpose truth = .true) := by
  cases policies with
  | nil => exact ⟨.false, isTerm_zero.expr, by simp⟩
  | cons policy policies =>
    refine ⟨_, isExpr_join disjunction _ _ policy policies fun p hp =>
      isTerm_permissive role developer truth purpose (h p hp), ?_⟩
    refine (Truth.foldl_or_eq_true (fun p : Policy =>
      (Truth.ofBool (matchesRole p.roles role)).and (p.truth purpose truth)) policy policies).trans ?_
    simp only [Truth.and_eq_true, Truth.ofBool_eq_true]

/-- Every restrictive policy that names the role must agree. -/
theorem isExpr_restrictive (purpose : PredicatePurpose) (policies : List Policy)
    (h : ∀ policy ∈ policies, policy.WellFormed) :
    ∃ t, IsExpr (session role developer) truth
        (joinOr Writer.template (policies.map (restrictiveSql Writer.template purpose)) " AND " "1") t ∧
      (t = .true ↔ ∀ policy ∈ policies, matchesRole policy.roles role →
        policy.truth purpose truth = .true) := by
  cases policies with
  | nil => exact ⟨.true, isTerm_one.expr, by simp⟩
  | cons policy policies =>
    refine ⟨_, isExpr_join conjunction _ _ policy policies fun p hp =>
      isTerm_restrictive role developer truth purpose (h p hp), ?_⟩
    refine (Truth.foldl_and_eq_true (fun p : Policy =>
      (Truth.not (.ofBool (matchesRole p.roles role))).or (p.truth purpose truth))
      policy policies).trans ?_
    refine forall₂_congr fun p _ => ?_
    rw [Truth.or_eq_true, Truth.not_ofBool, Truth.ofBool_eq_true, Bool.not_eq_true',
      ← Bool.not_eq_true, ← imp_iff_not_or]

theorem isTerm_developer :
    IsTerm (session role developer) truth (Writer.template.literal "__ffdb_is_developer()")
      (.ofBool developer) :=
  isTerm_call rfl rfl

/-- The combined expression of well-formed policies. -/
theorem isExpr_combine (purpose : PredicatePurpose) (forced : Bool) (policies : List Policy)
    (h : ∀ policy ∈ policies, policy.WellFormed) :
    ∃ t, IsExpr (session role developer) truth (combine Writer.template policies purpose forced) t ∧
      (t = .true ↔ (forced = false ∧ developer = true) ∨
        ((∃ policy ∈ policies, policy.mode = .permissive ∧ matchesRole policy.roles role ∧
            policy.truth purpose truth = .true) ∧
          ∀ policy ∈ policies, policy.mode = .restrictive → matchesRole policy.roles role →
            policy.truth purpose truth = .true)) := by
  obtain ⟨p, hpermissive, hp⟩ := isExpr_permissive role developer truth purpose
    (policies.filter (·.mode = .permissive)) fun policy hmem => h policy (List.mem_of_mem_filter hmem)
  obtain ⟨r, hrestrictive, hr⟩ := isExpr_restrictive role developer truth purpose
    (policies.filter (·.mode = .restrictive)) fun policy hmem => h policy (List.mem_of_mem_filter hmem)
  have hresult := isTerm_pair role developer truth conjunction hpermissive hrestrictive
  cases forced with
  | true =>
    refine ⟨p.and r, ?_, ?_⟩
    · simpa [combine, Writer.template, chars, conjunction] using hresult.expr
    · simp [hp, hr, and_assoc]
  | false =>
    have hbypass := isExpr_join disjunction Prod.fst Prod.snd
      (_, Truth.ofBool developer) [(_, p.and r)] (by
        simp only [List.mem_cons, List.not_mem_nil, or_false, forall_eq_or_imp, forall_eq]
        exact ⟨isTerm_developer role developer truth, hresult⟩)
    refine ⟨.or (.ofBool developer) (p.and r), ?_, ?_⟩
    · simpa [combine, Writer.template, chars, disjunction, conjunction] using hbypass.group.expr
    · simp [hp, hr, and_assoc]

end Meaning

def render (source : List (Char ⊕ Clause)) : List Char :=
  source.flatMap (Sum.elim (fun c => [c]) fun clause => clause.predicate.sqliteSql)

@[simp] theorem render_append (source source' : List (Char ⊕ Clause)) :
    render (source ++ source') = render source ++ render source' :=
  List.flatMap_append

@[simp] theorem render_chars (text : List Char) : render (chars text) = text := by
  simp [render, chars, List.flatMap_map]

@[simp] theorem render_literal (text : String) :
    render (Writer.template.literal text) = Writer.sql.literal text :=
  render_chars _

@[simp] theorem render_role (role : RoleName) :
    render (Writer.template.role role) = Writer.sql.role role :=
  render_chars _

theorem render_intercalate (separator : List (Char ⊕ Clause)) (items : List (List (Char ⊕ Clause))) :
    render (separator.intercalate items) = (render separator).intercalate (items.map render) := by
  cases items with
  | nil => rfl
  | cons item items =>
    rw [List.map_cons, intercalate_cons, intercalate_cons, render_append]
    congr 1
    induction items with
    | nil => rfl
    | cons item items ih => simp [ih]

theorem render_roleGuard (roles : List RoleName) :
    render (roleGuard Writer.template roles) = roleGuard Writer.sql roles := by
  simp only [roleGuard]
  split
  · exact render_literal _
  · rw [render_intercalate, List.map_map, render_literal]
    congr 1
    refine List.map_congr_left fun role _ => ?_
    simp

theorem render_clause (policy : Policy) (purpose : PredicatePurpose) :
    render (clauseSql Writer.template policy purpose) = clauseSql Writer.sql policy purpose := by
  simp only [clauseSql]
  cases policy.clause purpose with
  | none => exact render_literal _
  | some clause => simp [render, Writer.template, Writer.sql]

theorem render_joinOr (items : List (List (Char ⊕ Clause))) (separator empty : String) :
    render (joinOr Writer.template items separator empty) =
      joinOr Writer.sql (items.map render) separator empty := by
  simp only [joinOr, List.isEmpty_map]
  split
  · exact render_literal _
  · rw [render_intercalate, render_literal]

theorem render_combine (policies : List Policy) (purpose : PredicatePurpose) (forced : Bool) :
    render (combine Writer.template policies purpose forced) =
      combine Writer.sql policies purpose forced := by
  have hpermissive : render ∘ permissiveSql Writer.template purpose =
      permissiveSql Writer.sql purpose := by
    funext policy
    simp [permissiveSql, render_roleGuard, render_clause]
  have hrestrictive : render ∘ restrictiveSql Writer.template purpose =
      restrictiveSql Writer.sql purpose := by
    funext policy
    simp [restrictiveSql, render_roleGuard, render_clause]
  cases forced with
  | true => simp [combine, render_joinOr, hpermissive, hrestrictive]
  | false => simp [combine, render_joinOr, hpermissive, hrestrictive]

def concerns (operation : Operation) : PredicatePurpose → Bool
  | .forUsing => operationUsesExisting operation
  | .forCheck => operationChecksNew operation

theorem expression_eq {β : Type} (w : Writer β) (catalog : RlsCatalog) (table : Identifier)
    (operation : Operation) (purpose : PredicatePurpose) :
    (catalog.combinedPredicates w table operation).expression purpose =
      if concerns operation purpose then
        some (if (catalog.metadata table).enabled then
          combine w ((catalog.metadata table).values.filter (applies ·.command operation)) purpose
            (catalog.metadata table).forced
        else w.literal "1")
      else none := by
  cases purpose <;> rfl

/-- The expressions of a catalog are their templates with the predicates put in. -/
theorem render_combinedPredicates (catalog : RlsCatalog) (table : Identifier)
    (operation : Operation) (purpose : PredicatePurpose) :
    (catalog.combinedPredicates Writer.sql table operation).expression purpose =
      ((catalog.combinedPredicates Writer.template table operation).expression purpose).map render := by
  rw [expression_eq, expression_eq]
  split
  · split <;> simp [render_combine]
  · rfl

theorem mem_values {metadata : TablePolicies} {policy : Policy} :
    policy ∈ metadata.values ↔ ∃ name : Identifier, metadata.policies[name]? = some policy := by
  simp [TablePolicies.values, Std.ExtTreeMap.mem_toList_iff_getElem?_eq_some]

/-- Every expression of a catalog that parsed statements have built, read as SQL with any
truth values for the predicates, is true exactly where the policies admit the row. -/
theorem combined_predicates_decide (inputs : List (SchemaSnapshot × List Char))
    (table : Identifier) (operation : Operation) (purpose : PredicatePurpose)
    (role : List Char) (developer : Bool) (truth : Clause → Truth)
    (template : List (Char ⊕ Clause))
    (h : ((RlsCatalog.after inputs).combinedPredicates Writer.template table operation).expression
      purpose = some template) :
    ((RlsCatalog.after inputs).combinedPredicates Writer.sql table operation).expression purpose =
        some (render template) ∧
      ∃ t, truthOf (session role developer) truth template = some t ∧
        (t = .true ↔ ((RlsCatalog.after inputs).metadata table).Admits operation purpose role
          developer truth) := by
  refine ⟨by rw [render_combinedPredicates, h, Option.map_some], ?_⟩
  have hwellFormed := RlsCatalog.after_wellFormed inputs table
  rw [expression_eq, Option.ite_none_right_eq_some, Option.some.injEq] at h
  have htemplate := h.2.symm
  generalize (RlsCatalog.after inputs).metadata table = metadata at hwellFormed htemplate ⊢
  cases henabled : metadata.enabled with
  | false =>
    rw [henabled, if_neg (by simp)] at htemplate
    refine ⟨.true, ?_, by simp [TablePolicies.Admits, henabled]⟩
    rw [htemplate]
    exact truthOf_of_isExpr isTerm_one.expr
  | true =>
    rw [henabled, if_pos rfl] at htemplate
    obtain ⟨t, hexpr, ht⟩ := isExpr_combine role developer truth purpose metadata.forced
      (metadata.values.filter (applies ·.command operation)) (by
        intro policy hmem
        obtain ⟨name, hname⟩ := mem_values.mp (List.mem_of_mem_filter hmem)
        exact (hwellFormed name policy hname).2)
    refine ⟨t, by rw [htemplate]; exact truthOf_of_isExpr hexpr, ht.trans ?_⟩
    simp only [TablePolicies.Admits, henabled, List.mem_filter, mem_values, Bool.true_eq_false,
      false_or]
    refine or_congr_right (and_congr ?_ ?_)
    · constructor
      · intro hgrant
        obtain ⟨policy, ⟨⟨name, hname⟩, happlies⟩, hrest⟩ := hgrant
        exact ⟨name, policy, hname, happlies, hrest⟩
      · intro hgrant
        obtain ⟨name, policy, hname, happlies, hrest⟩ := hgrant
        exact ⟨policy, ⟨⟨name, hname⟩, happlies⟩, hrest⟩
    · constructor
      · intro hagree name policy hname happlies
        exact hagree policy ⟨⟨name, hname⟩, happlies⟩
      · intro hagree policy hmem
        obtain ⟨⟨name, hname⟩, happlies⟩ := hmem
        exact hagree name policy hname happlies

def documents : Identifier := ⟨"documents".toList, by decide, by decide, by decide⟩

def documentStatements : List (SchemaSnapshot × List Char) :=
  [(⟨[⟨documents, [], false⟩]⟩, "ALTER TABLE documents ENABLE ROW LEVEL SECURITY".toList),
   (⟨[⟨documents, [], false⟩]⟩,
    "CREATE POLICY own ON documents TO author USING (owner_id = auth.uid())".toList)]

theorem combined_predicates_decide_documents :
    ((RlsCatalog.after documentStatements).metadata documents).enabled = true ∧
    ∃ template, ((RlsCatalog.after documentStatements).combinedPredicates Writer.template documents
        .select).expression .forUsing = some template ∧
      ∃ t, truthOf (session "author".toList false) (fun _ => .unknown) template = some t ∧
        (t = .true ↔ ((RlsCatalog.after documentStatements).metadata documents).Admits .select
          .forUsing "author".toList false fun _ => .unknown) := by
  refine ⟨by decide +kernel, _, (expression_eq ..).trans (if_pos rfl), ?_⟩
  exact (combined_predicates_decide documentStatements documents .select .forUsing "author".toList
    false (fun _ => .unknown) _ ((expression_eq ..).trans (if_pos rfl))).2

end Ffdb.Rls
