import Mathlib.Data.List.Basic

/-! Calls on a state. Each call is suspended after some of its operations, and one that fails puts the whole state
back as it found it. -/
namespace Turns

/-- What a call does, depending on what it is answered; it is suspended after an operation that it awaits. -/
inductive Work (Op : Type) (Answer : Op → Type) (ε ρ : Type) where
  | done (result : ρ)
  | fail (error : ε)
  | now (op : Op) (next : Answer op → Work Op Answer ε ρ)
  | await (op : Op) (next : Answer op → Work Op Answer ε ρ)

variable {Op : Type} {Answer : Op → Type} {ε ρ τ σ : Type}

def Work.bind : Work Op Answer ε ρ → (ρ → Work Op Answer ε τ) → Work Op Answer ε τ
  | .done result, f => f result
  | .fail error, _ => .fail error
  | .now op next, f => .now op fun answer => (next answer).bind f
  | .await op next, f => .await op fun answer => (next answer).bind f

instance : Monad (Work Op Answer ε) where
  pure := .done
  bind := .bind

section Alone
variable (perform : σ → (op : Op) → σ × Answer op)

def Work.run : Work Op Answer ε ρ → σ → σ × Except ε ρ
  | .done result, s => (s, .ok result)
  | .fail error, s => (s, .error error)
  | .now op next, s => (next (perform s op).2).run (perform s op).1
  | .await op next, s => (next (perform s op).2).run (perform s op).1

def Work.transact (work : Work Op Answer ε ρ) (s : σ) : σ × Except ε ρ :=
  match work.run perform s with
  | (s', .ok result) => (s', .ok result)
  | (_, .error error) => (s, .error error)

variable {perform}

theorem run_bind (work : Work Op Answer ε ρ) (f : ρ → Work Op Answer ε τ) (s : σ) :
    (work >>= f).run perform s = match work.run perform s with
      | (s', .ok result) => (f result).run perform s'
      | (s', .error error) => (s', .error error) := by
  change (work.bind f).run perform s = _
  induction work generalizing s with
  | done result => rfl
  | fail error => rfl
  | now op next ih => exact ih _ _
  | await op next ih => exact ih _ _

theorem run_bind_ok {work : Work Op Answer ε ρ} {f : ρ → Work Op Answer ε τ} {s s' : σ} {result : τ}
    (h : (work >>= f).run perform s = (s', .ok result)) :
    ∃ middle a, work.run perform s = (middle, .ok a) ∧ (f a).run perform middle = (s', .ok result) := by
  rw [run_bind] at h
  split at h
  next middle a hwork => exact ⟨middle, a, hwork, h⟩
  next => cases h

end Alone

section Apart
variable {perform : σ → (op : Op) → σ × Answer op} {works : Nat → Work Op Answer ε ρ} {start : σ}

def Work.Only (allowed : Op → Prop) : Work Op Answer ε ρ → Prop
  | .done _ => True
  | .fail _ => True
  | .now op next => allowed op ∧ ∀ answer, (next answer).Only allowed
  | .await op next => allowed op ∧ ∀ answer, (next answer).Only allowed

theorem Work.Only.bind {allowed : Op → Prop} {work : Work Op Answer ε ρ} {f : ρ → Work Op Answer ε τ}
    (hwork : work.Only allowed) (hf : ∀ result, (f result).Only allowed) : (work >>= f).Only allowed := by
  change (work.bind f).Only allowed
  induction work with
  | done result => exact hf result
  | fail error => trivial
  | now op next ih => exact ⟨hwork.1, fun answer => ih answer (hwork.2 answer)⟩
  | await op next ih => exact ⟨hwork.1, fun answer => ih answer (hwork.2 answer)⟩

theorem Work.Only.keeps {allowed : Op → Prop} {kept : σ → Prop} {work : Work Op Answer ε ρ} (honly : work.Only allowed)
    (hstep : ∀ s op, allowed op → kept s → kept (perform s op).1) {s : σ} (hs : kept s) : kept (work.run perform s).1 := by
  induction work generalizing s with
  | done result => exact hs
  | fail error => exact hs
  | now op next ih => exact ih _ (honly.2 _) (hstep s op honly.1 hs)
  | await op next ih => exact ih _ (honly.2 _) (hstep s op honly.1 hs)

theorem Work.Only.transact_keeps {allowed : Op → Prop} {kept : σ → Prop} {work : Work Op Answer ε ρ}
    (honly : work.Only allowed) (hstep : ∀ s op, allowed op → kept s → kept (perform s op).1) {s : σ} (hs : kept s) :
    kept (work.transact perform s).1 := by
  have hrun := honly.keeps hstep hs
  unfold Work.transact
  split
  next heq => rwa [heq] at hrun
  next => exact hs

end Apart

end Turns
