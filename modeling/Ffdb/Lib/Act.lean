import Mathlib.Tactic.Linarith

/-! Computations on a state that may fail, where a failure keeps the state as it then is,
with rules for what they leave behind. -/

def Act (σ ε α : Type) := σ → Except ε α × σ

namespace Act
variable {σ ε α β : Type}

instance : Monad (Act σ ε) where
  pure a s := (.ok a, s)
  bind x f s :=
    match x s with
    | (.ok a, s') => f a s'
    | (.error e, s') => (.error e, s')

def fail (e : ε) : Act σ ε α := fun s => (.error e, s)

def given (result : Except ε α) : Act σ ε α := fun s => (result, s)

def read (f : σ → α) : Act σ ε α := fun s => (.ok (f s), s)

def ask (f : σ → Except ε α) : Act σ ε α := fun s => (f s, s)

def modify (f : σ → σ) : Act σ ε Unit := fun s => (.ok (), f s)

def zoom {τ : Type} (get : τ → σ) (set : σ → τ → τ) (x : Act σ ε α) : Act τ ε α :=
  fun t => ((x (get t)).1, set (x (get t)).2 t)

def attempt (x : Act σ ε α) : Act σ ε (Except ε α) := fun s => (.ok (x s).1, (x s).2)

/-- The computation for its effect; a failure is passed over. -/
def ignore (x : Act σ ε α) : Act σ ε Unit := fun s => (.ok (), (x s).2)

@[simp] theorem pure_apply (a : α) (s : σ) : (pure a : Act σ ε α) s = (.ok a, s) := rfl

@[simp] theorem given_apply (result : Except ε α) (s : σ) :
    (given result : Act σ ε α) s = (result, s) := rfl

@[simp] theorem read_apply (f : σ → α) (s : σ) : (read f : Act σ ε α) s = (.ok (f s), s) := rfl

@[simp] theorem modify_apply (f : σ → σ) (s : σ) : (modify f : Act σ ε Unit) s = (.ok (), f s) := rfl

@[simp] theorem attempt_apply (x : Act σ ε α) (s : σ) : attempt x s = (.ok (x s).1, (x s).2) := rfl

@[simp] theorem ignore_apply (x : Act σ ε α) (s : σ) : ignore x s = (.ok (), (x s).2) := rfl

theorem bind_ok {x : Act σ ε α} {f : α → Act σ ε β} {s s' : σ} {a : α} (h : x s = (.ok a, s')) :
    (x >>= f) s = f a s' := by
  change (match x s with | (.ok a, s') => f a s' | (.error e, s') => (.error e, s')) = f a s'
  rw [h]

theorem bind_error {x : Act σ ε α} {f : α → Act σ ε β} {s s' : σ} {e : ε} (h : x s = (.error e, s')) :
    (x >>= f) s = (.error e, s') := by
  change (match x s with | (.ok a, s') => f a s' | (.error e, s') => (.error e, s')) = (.error e, s')
  rw [h]

theorem ask_ok {f : σ → Except ε α} {g : α → Act σ ε β} {s : σ} {a : α} (h : f s = .ok a) :
    (ask f >>= g) s = g a s :=
  bind_ok (congrArg (·, s) h)

theorem ask_error {f : σ → Except ε α} {g : α → Act σ ε β} {s : σ} {e : ε} (h : f s = .error e) :
    (ask f >>= g) s = (.error e, s) :=
  bind_error (congrArg (·, s) h)

theorem attempt_bind (x : Act σ ε α) (f : Except ε α → Act σ ε β) (s : σ) :
    (attempt x >>= f) s = f (x s).1 (x s).2 := rfl

theorem bind_eq_ok {x : Act σ ε α} {f : α → Act σ ε β} {s s'' : σ} {b : β}
    (h : (x >>= f) s = (.ok b, s'')) : ∃ a s', x s = (.ok a, s') ∧ f a s' = (.ok b, s'') := by
  cases hx : x s with
  | mk result s' =>
    cases result with
    | ok a => exact ⟨a, s', rfl, (bind_ok hx).symm.trans h⟩
    | error e =>
      rw [bind_error hx] at h
      cases congrArg Prod.fst h

section Commits
variable {τ ρ : Type} {out : τ → σ × α} {x : Act σ ε α} {s s' : σ}

/-- The computation comes to a function that tells its result with the state it leaves, or its failure, which leaves the
state as it was. -/
def Commits (out : τ → σ × α) (x : Act σ ε α) (s : σ) (result : Except ε τ) : Prop :=
  x s = match result with
    | .ok t => (.ok (out t).2, (out t).1)
    | .error e => (.error e, s)

theorem Commits.unchanged {result : Except ε τ} (h : Commits out x s result) {e : ε} (hx : x s = (.error e, s')) :
    s' = s := by
  unfold Commits at h
  rw [hx] at h
  cases result with
  | ok t => cases congrArg Prod.fst h
  | error e' => exact congrArg Prod.snd h

theorem Commits.pure {t : τ} (h : x s = (.ok (out t).2, (out t).1)) : Commits out x s (pure t) := h

theorem Commits.ask {f : σ → Except ε ρ} {g : ρ → Act σ ε α} {result : ρ → Except ε τ}
    (h : ∀ r, f s = .ok r → Commits out (g r) s (result r)) : Commits out (ask f >>= g) s (f s >>= result) := by
  cases hr : f s with
  | ok r => exact (ask_ok hr).trans (h r hr)
  | error e => exact ask_error hr

theorem Commits.given {r : Except ε ρ} {g : ρ → Act σ ε α} {result : ρ → Except ε τ}
    (h : ∀ a, r = .ok a → Commits out (g a) s (result a)) : Commits out (given r >>= g) s (r >>= result) := by
  cases hr : r with
  | ok a => exact h a hr
  | error e => rfl

theorem Commits.zoom {υ ω : Type} {get : σ → υ} {set : υ → σ → σ} {y : Act υ ε ρ} {first : ω → υ × ρ}
    {begun : Except ε ω} {g : ρ → Act σ ε α} {finish : ω → τ} (hy : Commits first y (get s) begun)
    (hset : set (get s) s = s)
    (h : ∀ w, begun = .ok w →
      g (first w).2 (set (first w).1 s) = (.ok (out (finish w)).2, (out (finish w)).1)) :
    Commits out (zoom get set y >>= g) s (begun >>= fun w => Pure.pure (finish w)) := by
  cases hbegun : begun with
  | ok w =>
    rw [hbegun] at hy
    exact (bind_ok (congrArg (fun r => (r.1, set r.2 s)) hy)).trans (h w hbegun)
  | error e =>
    rw [hbegun] at hy
    refine (bind_error (congrArg (fun r => (r.1, set r.2 s)) hy)).trans ?_
    rw [hset]
    rfl

end Commits

/-- From a state with the precondition, a success leaves the one condition and a failure the
other. -/
def Triple (P : σ → Prop) (x : Act σ ε α) (Q : α → σ → Prop) (E : ε → σ → Prop) : Prop :=
  ∀ s, P s → match x s with
    | (.ok a, s') => Q a s'
    | (.error e, s') => E e s'

section Rules
variable {P P' : σ → Prop} {Q Q' : α → σ → Prop} {R : β → σ → Prop} {E E' : ε → σ → Prop}
  {x : Act σ ε α} {f : α → Act σ ε β}

theorem Triple.ok (h : Triple P x Q E) {s s' : σ} {a : α} (hs : P s) (hx : x s = (.ok a, s')) : Q a s' := by
  have := h s hs
  rw [hx] at this
  exact this

theorem Triple.error (h : Triple P x Q E) {s s' : σ} {e : ε} (hs : P s) (hx : x s = (.error e, s')) :
    E e s' := by
  have := h s hs
  rw [hx] at this
  exact this

theorem triple_iff : Triple P x Q E ↔
    ∀ s, P s → (∀ a s', x s = (.ok a, s') → Q a s') ∧ ∀ e s', x s = (.error e, s') → E e s' := by
  constructor
  · intro h s hs
    exact ⟨fun a s' hx => h.ok hs hx, fun e s' hx => h.error hs hx⟩
  · intro h s hs
    obtain ⟨hok, herror⟩ := h s hs
    cases hx : x s with
    | mk result s' =>
      cases result with
      | ok a => exact hok a s' hx
      | error e => exact herror e s' hx

theorem Triple.bind (hx : Triple P x Q E) (hf : ∀ a, Triple (Q a) (f a) R E) :
    Triple P (x >>= f) R E := by
  intro s hs
  cases hresult : x s with
  | mk result s' =>
    cases result with
    | ok a =>
      rw [bind_ok hresult]
      exact hf a s' (hx.ok hs hresult)
    | error e =>
      rw [bind_error hresult]
      exact hx.error hs hresult

theorem Triple.weaken (h : Triple P x Q E) (hpre : ∀ s, P' s → P s) (hpost : ∀ a s, Q a s → Q' a s)
    (herror : ∀ e s, E e s → E' e s) : Triple P' x Q' E' := by
  rw [triple_iff] at h ⊢
  intro s hs
  obtain ⟨hok, hfail⟩ := h s (hpre s hs)
  exact ⟨fun a s' hx => hpost a s' (hok a s' hx), fun e s' hx => herror e s' (hfail e s' hx)⟩

theorem Triple.pure {a : α} (h : ∀ s, P s → Q a s) : Triple P (pure a : Act σ ε α) Q E := h

theorem Triple.fail {e : ε} (h : ∀ s, P s → E e s) : Triple P (fail e : Act σ ε α) Q E := h

theorem Triple.given {result : Except ε α} (hok : ∀ a s, result = .ok a → P s → Q a s)
    (herror : ∀ e s, result = .error e → P s → E e s) : Triple P (given result : Act σ ε α) Q E := by
  intro s hs
  cases hresult : result with
  | ok a => exact hok a s hresult hs
  | error e => exact herror e s hresult hs

theorem Triple.read {f : σ → α} (h : ∀ s, P s → Q (f s) s) : Triple P (read f : Act σ ε α) Q E := h

theorem Triple.modify {g : σ → σ} {S : Unit → σ → Prop} (h : ∀ s, P s → S () (g s)) :
    Triple P (modify g : Act σ ε Unit) S E := h

theorem Triple.attempt (h : Triple P x Q E) :
    Triple P (attempt x) (fun result s => match result with | .ok a => Q a s | .error e => E e s) E' := by
  intro s hs
  have := h s hs
  cases hx : x s with
  | mk result s' =>
    rw [hx] at this
    rw [attempt_apply, hx]
    cases result with
    | ok a => exact this
    | error e => exact this

theorem Triple.ignore {S : σ → Prop} (h : Triple P x (fun _ => S) (fun _ => S)) :
    Triple P (ignore x) (fun _ => S) E' := by
  intro s hs
  have := h s hs
  cases hx : x s with
  | mk result s' =>
    rw [hx] at this
    rw [ignore_apply, hx]
    cases result with
    | ok a => exact this
    | error e => exact this

end Rules

/-- What holds of the state still holds afterwards, also of a failure. -/
def Preserves (P : σ → Prop) (x : Act σ ε α) : Prop := ∀ s, P s → P (x s).2

section Preserves
variable {P : σ → Prop} {x : Act σ ε α} {f : α → Act σ ε β}

theorem Preserves.pure {a : α} : Preserves P (pure a : Act σ ε α) := fun _ hs => hs

theorem Preserves.given {result : Except ε α} : Preserves P (given result : Act σ ε α) := fun _ hs => hs

theorem Preserves.ask {g : σ → Except ε α} : Preserves P (ask g) := fun _ hs => hs

theorem Preserves.bind (hx : Preserves P x) (hf : ∀ a, Preserves P (f a)) : Preserves P (x >>= f) := by
  intro s hs
  have hnext := hx s hs
  cases hresult : x s with
  | mk result s' =>
    rw [hresult] at hnext
    cases result with
    | ok a =>
      rw [bind_ok hresult]
      exact hf a s' hnext
    | error e =>
      rw [bind_error hresult]
      exact hnext

end Preserves
end Act
