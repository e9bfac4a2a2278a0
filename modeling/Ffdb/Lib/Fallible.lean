import Mathlib.Tactic.Linarith
import Mathlib.Data.List.Forall2

/-! Inversion rules for computations in `Except`: a success is peeled apart one
bind at a time, so that callers never unfold the monad; and postconditions of stateful
ones. -/
namespace Fallible
variable {ε α β : Type}

def require (condition : Bool) (error : ε) : Except ε Unit :=
  if condition then .ok () else .error error

def orError (value : Option α) (error : ε) : Except ε α :=
  match value with
  | some a => .ok a
  | none => .error error

@[simp] theorem bind_ok_iff (x : Except ε α) (f : α → Except ε β) (b : β) :
    (do let a ← x; f a) = .ok b ↔ ∃ a, x = .ok a ∧ f a = .ok b := by
  rcases x with e | a
  · refine ⟨fun h => (nomatch h), ?_⟩
    rintro ⟨a, h, _⟩
    exact nomatch h
  · refine ⟨fun h => ⟨a, rfl, h⟩, ?_⟩
    rintro ⟨a', h, hf⟩
    cases h
    exact hf

@[simp] theorem pure_ok_iff (a b : α) : (pure a : Except ε α) = .ok b ↔ a = b :=
  ⟨fun h => Except.ok.inj h, fun h => congrArg Except.ok h⟩

@[simp] theorem require_ok_iff (condition : Bool) (error : ε) (u : Unit) :
    require condition error = .ok u ↔ condition = true := by
  cases condition <;> simp [require]

@[simp] theorem orError_ok_iff (value : Option α) (error : ε) (a : α) :
    orError value error = .ok a ↔ value = some a := by
  cases value <;> simp [orError]

@[simp] theorem mapError_ok_iff {ε' : Type} (f : ε → ε') (x : Except ε α) (a : α) :
    x.mapError f = .ok a ↔ x = .ok a := by
  cases x <;> simp [Except.mapError]

theorem exists_ok_of_toOption {x : Except ε α} (h : x.toOption.isSome = true) : ∃ a, x = .ok a := by
  cases x with
  | error e => cases h
  | ok a => exact ⟨a, rfl⟩

theorem map_error_iff (f : α → β) (x : Except ε α) (e : ε) : x.map f = .error e ↔ x = .error e := by
  cases x <;> simp [Except.map]

theorem bind_error_iff (x : Except ε α) (f : α → Except ε β) (e : ε) :
    x >>= f = .error e ↔ x = .error e ∨ ∃ a, x = .ok a ∧ f a = .error e := by
  cases x with
  | error e' => simp [bind, Except.bind]
  | ok a => simp [bind, Except.bind]

theorem require_error_iff (condition : Bool) (error e : ε) :
    require condition error = .error e ↔ condition = false ∧ error = e := by
  cases condition <;> simp [require]

theorem orError_error_iff (value : Option α) (error e : ε) :
    orError value error = .error e ↔ value = none ∧ error = e := by
  cases value <;> simp [orError]

theorem foldlM_keeps {σ : Type} {f : σ → α → Except ε σ} {P : σ → Prop} {xs : List α} {s s' : σ}
    (hstep : ∀ {s x s'}, x ∈ xs → P s → f s x = .ok s' → P s') (h : xs.foldlM f s = .ok s') (hs : P s) : P s' := by
  induction xs generalizing s with
  | nil =>
    obtain rfl := Except.ok.inj h
    exact hs
  | cons x xs ih =>
    rw [List.foldlM_cons, bind_ok_iff] at h
    obtain ⟨middle, hfirst, hrest⟩ := h
    exact ih (fun hx => hstep (List.mem_cons_of_mem _ hx)) hrest (hstep List.mem_cons_self hs hfirst)

/-- A traversal succeeds when each of its computations does. -/
theorem mapM_ok_iff (f : α → Except ε β) (xs : List α) (ys : List β) :
    xs.mapM f = .ok ys ↔ List.Forall₂ (fun x y => f x = .ok y) xs ys := by
  induction xs generalizing ys with
  | nil =>
    rw [List.mapM_nil, pure_ok_iff, List.forall₂_nil_left_iff]
    exact eq_comm
  | cons x xs ih =>
    simp only [List.mapM_cons, bind_ok_iff, pure_ok_iff, List.forall₂_cons_left_iff]
    constructor
    · intro h
      obtain ⟨y, hy, rest, hrest, rfl⟩ := h
      exact ⟨y, rest, hy, (ih rest).mp hrest, rfl⟩
    · intro h
      obtain ⟨y, rest, hy, hrest, rfl⟩ := h
      exact ⟨y, hy, rest, (ih rest).mpr hrest, rfl⟩

/-- Every result of a traversal comes from one of its elements, and every element has one. -/
theorem mem_of_mapM_ok {f : α → Except ε β} {xs : List α} {ys : List β} (h : xs.mapM f = .ok ys) :
    (∀ y ∈ ys, ∃ x ∈ xs, f x = .ok y) ∧ ∀ x ∈ xs, ∃ y ∈ ys, f x = .ok y := by
  rw [mapM_ok_iff] at h
  induction h with
  | nil => simp
  | cons hfirst _ ih =>
    refine ⟨fun y hy => ?_, fun x hx => ?_⟩
    · obtain rfl | hy := List.mem_cons.mp hy
      · exact ⟨_, List.mem_cons_self, hfirst⟩
      · obtain ⟨x, hx, hxy⟩ := ih.1 y hy
        exact ⟨x, List.mem_cons_of_mem _ hx, hxy⟩
    · obtain rfl | hx := List.mem_cons.mp hx
      · exact ⟨_, List.mem_cons_self, hfirst⟩
      · obtain ⟨y, hy, hxy⟩ := ih.2 x hx
        exact ⟨y, List.mem_cons_of_mem _ hy, hxy⟩

section FailsOnly
variable {x : Except ε α} {f : α → Except ε β} {error : ε}

def FailsOnly (error : ε) (x : Except ε α) : Prop := ∀ e, x = .error e → e = error

theorem FailsOnly.ok (a : α) : FailsOnly error (.ok a) := fun _ h => nomatch h

theorem FailsOnly.require (condition : Bool) : FailsOnly error (require condition error) := by
  intro e h
  cases condition with
  | true => exact nomatch h
  | false => exact (Except.error.inj h).symm

theorem FailsOnly.orError (value : Option α) : FailsOnly error (orError value error) := by
  intro e h
  cases value with
  | some a => exact nomatch h
  | none => exact (Except.error.inj h).symm

theorem FailsOnly.bind (hx : FailsOnly error x) (hf : ∀ a, x = .ok a → FailsOnly error (f a)) :
    FailsOnly error (x >>= f) := by
  intro e h
  cases x with
  | error e' => exact hx e (congrArg Except.error (Except.error.inj h))
  | ok a => exact hf a rfl e h

theorem FailsOnly.mapM {xs : List α} (h : ∀ a ∈ xs, FailsOnly error (f a)) : FailsOnly error (xs.mapM f) := by
  induction xs with
  | nil => exact FailsOnly.ok []
  | cons a xs ih =>
    rw [List.mapM_cons]
    refine (h a (by simp)).bind fun b _ => ?_
    exact (ih fun a ha => h a (List.mem_cons_of_mem _ ha)).bind fun bs _ => FailsOnly.ok (b :: bs)

end FailsOnly

section Ensures
variable {σ : Type} {x : StateT σ (Except ε) α} {f : α → StateT σ (Except ε) β}
  {P : α → Prop} {Q : β → Prop}

def Ensures (x : StateT σ (Except ε) α) (P : α → Prop) : Prop :=
  ∀ s a s', x s = .ok (a, s') → P a

theorem Ensures.bind (hx : Ensures x P) (hf : ∀ a, P a → Ensures (f a) Q) :
    Ensures (x >>= f) Q := by
  intro s b s' h
  obtain ⟨⟨a, between⟩, ha, hb⟩ := (bind_ok_iff (x s) (fun r => f r.1 r.2) (b, s')).mp h
  exact hf a (hx s a between ha) between b s' hb

theorem Ensures.skip (hf : ∀ a, Ensures (f a) Q) : Ensures (x >>= f) Q :=
  Ensures.bind (P := fun _ => True) (fun _ _ _ _ => trivial) fun a _ => hf a

theorem Ensures.pure {a : α} (h : P a) : Ensures (pure a : StateT σ (Except ε) α) P := by
  intro s b s' hb
  cases hb
  exact h

theorem Ensures.lift (y : Except ε α) :
    Ensures (liftM y : StateT σ (Except ε) α) (fun a => y = .ok a) := by
  intro s a s' h
  obtain ⟨b, hb, hpure⟩ := (bind_ok_iff y (fun b => Pure.pure (b, s)) (a, s')).mp h
  cases hpure
  exact hb

theorem Ensures.ite {c : Bool} {y : StateT σ (Except ε) α} (hx : Ensures x P) (hy : Ensures y P) :
    Ensures (if c = true then x else y) P := by
  cases c with
  | true => exact hx
  | false => exact hy

end Ensures

end Fallible
