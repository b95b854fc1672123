import BoundSql.Fault

/-!
# Computations that may fail

Computations on a state that may fail, one after the other.  What a computation did to the state
until it failed stays done, and nothing that follows it is done.  So a relation between the states
before and after that composes is kept along a sequence (`Along.bind`), and two sequences whose
steps go in parallel do so as a whole (`Parallel.bind`).
-/

namespace BoundSql

section Sequence

variable {σ α β : Type}

theorem bind_apply (c : ExceptT Fault (StateM σ) α) (k : α → ExceptT Fault (StateM σ) β) (s : σ) :
    (c >>= k) s =
      match c s with
      | (.ok a, after) => k a after
      | (.error e, after) => (.error e, after) := by
  show ExceptT.bindCont k (c s).1 (c s).2 = _
  rcases c s with ⟨r, after⟩
  cases r <;> rfl

theorem get_bind_apply (k : σ → ExceptT Fault (StateM σ) α) (s : σ) : (get >>= k) s = k s s := rfl

/-- What a computation that succeeds went through. -/
theorem of_bind_ok {c : ExceptT Fault (StateM σ) α} {k : α → ExceptT Fault (StateM σ) β} {b : β}
    {s after : σ} (h : (c >>= k) s = (.ok b, after)) :
    ∃ a middle, c s = (.ok a, middle) ∧ k a middle = (.ok b, after) := by
  rw [bind_apply] at h
  rcases hrun : c s with ⟨r, middle⟩
  rw [hrun] at h
  cases r with
  | error e => cases h
  | ok a => exact ⟨a, middle, rfl, h⟩

/-- A fault of the first computation is the fault of both. -/
theorem bind_error {c : ExceptT Fault (StateM σ) α} {k : α → ExceptT Fault (StateM σ) β} {s : σ}
    {e : Fault} (h : (c s).1 = .error e) : ((c >>= k) s).1 = .error e := by
  rw [bind_apply]
  rcases hrun : c s with ⟨r, after⟩
  rw [hrun] at h
  obtain rfl : r = .error e := h
  rfl

theorem ok_of_isOk {c : ExceptT Fault (StateM σ) Unit} {s : σ} (h : (c s).1.isOk = true) :
    c s = (.ok (), (c s).2) := by
  rcases hrun : c s with ⟨r, after⟩
  rw [hrun] at h
  cases r with
  | error e => cases h
  | ok u => rfl

/-! ### One computation -/

/-- The state before and the one after are related, also where the computation fails. -/
def Along (T : σ → σ → Prop) (c : ExceptT Fault (StateM σ) α) : Prop := ∀ s, T s (c s).2

theorem Along.bind {T : σ → σ → Prop} {c : ExceptT Fault (StateM σ) α}
    {k : α → ExceptT Fault (StateM σ) β} (htrans : ∀ {s t u}, T s t → T t u → T s u)
    (hc : Along T c) (hk : ∀ a, Along T (k a)) : Along T (c >>= k) := by
  intro s
  have hfirst := hc s
  rw [bind_apply]
  rcases hrun : c s with ⟨r, after⟩
  rw [hrun] at hfirst
  cases r with
  | error e => exact hfirst
  | ok a => exact htrans hfirst (hk a after)

/-- What results, where the computation succeeds, has a property. -/
def Yields (P : α → Prop) (c : ExceptT Fault (StateM σ) α) : Prop :=
  ∀ s a, (c s).1 = .ok a → P a

theorem Yields.bind {P : α → Prop} {Q : β → Prop} {c : ExceptT Fault (StateM σ) α}
    {k : α → ExceptT Fault (StateM σ) β} (hc : Yields P c) (hk : ∀ a, P a → Yields Q (k a)) :
    Yields Q (c >>= k) := by
  intro s b
  have hfirst := hc s
  rw [bind_apply]
  rcases hrun : c s with ⟨r, after⟩
  rw [hrun] at hfirst
  cases r with
  | error e =>
    intro hb
    cases hb
  | ok a => exact hk a (hfirst a rfl) after b

/-- What follows matters for what results only. -/
theorem Yields.bind_congr {P : α → Prop} {c : ExceptT Fault (StateM σ) α}
    {k k' : α → ExceptT Fault (StateM σ) β} (hc : Yields P c) (hk : ∀ a, P a → k a = k' a) :
    c >>= k = c >>= k' := by
  funext s
  have hresult := hc s
  rw [bind_apply, bind_apply]
  rcases hrun : c s with ⟨r, after⟩
  rw [hrun] at hresult
  cases r with
  | error e => rfl
  | ok a => exact congrFun (hk a (hresult a rfl)) after

end Sequence

/-! ### Two computations -/

/-- Results that are both there and related, or both faults. -/
inductive SameOutcome {α β : Type} (R : α → β → Prop) : Except Fault α → Except Fault β → Prop where
  | ok {a : α} {b : β} (h : R a b) : SameOutcome R (.ok a) (.ok b)
  | error (e e' : Fault) : SameOutcome R (.error e) (.error e')

namespace SameOutcome

variable {α β : Type} {R S : α → β → Prop} {r : Except Fault α} {r' : Except Fault β}

theorem isOk_eq (h : SameOutcome R r r') : r.isOk = r'.isOk := by
  cases h <;> rfl

theorem refl (r : Except Fault α) : SameOutcome Eq r r := by
  cases r with
  | ok a => exact .ok rfl
  | error e => exact .error e e

/-- The same result twice, or two faults. -/
theorem both {r r' : Except Fault α} (h : SameOutcome Eq r r') :
    (∃ a, r = .ok a ∧ r' = .ok a) ∨ ∃ e e', r = .error e ∧ r' = .error e' := by
  cases h with
  | @ok a b h => exact .inl ⟨a, rfl, by rw [h]⟩
  | error e e' => exact .inr ⟨e, e', rfl, rfl⟩

theorem mono (h : SameOutcome R r r') (hRS : ∀ a b, R a b → S a b) : SameOutcome S r r' := by
  cases h with
  | ok h => exact .ok (hRS _ _ h)
  | error e e' => exact .error e e'

end SameOutcome

/-- From related states both computations leave related states, and both fail or their results are
related. -/
def Parallel {σ τ α β : Type} (T : σ → τ → Prop) (R : α → β → Prop)
    (c : ExceptT Fault (StateM σ) α) (c' : ExceptT Fault (StateM τ) β) : Prop :=
  ∀ s t, T s t → T (c s).2 (c' t).2 ∧ SameOutcome R (c s).1 (c' t).1

section Parallel

variable {σ τ α β γ δ : Type} {T : σ → τ → Prop} {R : α → β → Prop} {S : γ → δ → Prop}

theorem parallel_pure {a : α} {b : β} (h : R a b) :
    Parallel T R (pure a : ExceptT Fault (StateM σ) α) (pure b : ExceptT Fault (StateM τ) β) :=
  fun _ _ hst => ⟨hst, .ok h⟩

theorem Parallel.bind {c : ExceptT Fault (StateM σ) α} {c' : ExceptT Fault (StateM τ) β}
    {k : α → ExceptT Fault (StateM σ) γ} {k' : β → ExceptT Fault (StateM τ) δ}
    (hc : Parallel T R c c') (hk : ∀ a b, R a b → Parallel T S (k a) (k' b)) :
    Parallel T S (c >>= k) (c' >>= k') := by
  intro s t hst
  obtain ⟨hafter, hresult⟩ := hc s t hst
  rw [bind_apply, bind_apply]
  rcases hrun : c s with ⟨r, after⟩
  rcases hrun' : c' t with ⟨r', after'⟩
  rw [hrun, hrun'] at hafter hresult
  cases hresult with
  | ok h => exact hk _ _ h after after' hafter
  | error e e' => exact ⟨hafter, .error e e'⟩

/-- What reads the state first. -/
theorem Parallel.get_bind {k : σ → ExceptT Fault (StateM σ) α} {k' : τ → ExceptT Fault (StateM τ) β}
    (hk : ∀ s t, T s t → Parallel T R (k s) (k' t)) : Parallel T R (get >>= k) (get >>= k') := by
  intro s t hst
  rw [get_bind_apply, get_bind_apply]
  exact hk s t hst s t hst

end Parallel

end BoundSql
