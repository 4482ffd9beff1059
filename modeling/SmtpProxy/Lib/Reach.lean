import Mathlib.Algebra.GroupWithZero.Nat

/-!
# Runs of a step system

A system is a partial step function `step : σ → α → Option σ`: an action that is not
enabled in a state has no successor. `Reach step ok s t` says that `t` is reached from
`s` by some sequence of steps each of which meets the condition `ok` (a condition on the
state before the step and on the action).
-/

namespace SmtpProxy.Lib

open List Option

variable {σ α : Type}

/-- `t` is reached from `s₀` by steps that all meet `ok`. -/
inductive Reach (step : σ → α → Option σ) (ok : σ → α → Prop) (s₀ : σ) : σ → Prop where
  | refl : Reach step ok s₀ s₀
  | tail {s t : σ} {a : α} : Reach step ok s₀ s → ok s a → step s a = some t →
      Reach step ok s₀ t

namespace Reach

variable {step : σ → α → Option σ} {ok : σ → α → Prop} {s₀ s t : σ}

theorem invariant {I : σ → Prop} (h0 : I s₀)
    (hstep : ∀ s a t, I s → ok s a → step s a = some t → I t)
    (h : Reach step ok s₀ t) : I t := by
  induction h with
  | refl => exact h0
  | tail _ hok hs ih => exact hstep _ _ _ ih hok hs

theorem trans (h₁ : Reach step ok s₀ s) (h₂ : Reach step ok s t) : Reach step ok s₀ t := by
  induction h₂ with
  | refl => exact h₁
  | tail _ hok hs ih => exact .tail ih hok hs

end Reach

/-! ## Executing a list of actions -/

/-- Run a list of actions, stopping at the first that is not enabled. -/
def runActions (step : σ → α → Option σ) : σ → List α → Option σ
  | s, [] => some s
  | s, a :: as => (step s a).bind fun t => runActions step t as

/-- Every action of the list meets `ok` in the state it is executed in. -/
def AllMeet (step : σ → α → Option σ) (ok : σ → α → Prop) : σ → List α → Prop
  | _, [] => True
  | s, a :: as => ok s a ∧ ∀ t, step s a = some t → AllMeet step ok t as

/-- Whether a given list of actions meets a condition can be computed. -/
def decideAllMeet (step : σ → α → Option σ) (ok : σ → α → Prop) [∀ s a, Decidable (ok s a)] :
    (s : σ) → (as : List α) → Decidable (AllMeet step ok s as)
  | _, [] => isTrue trivial
  | s, a :: as =>
    match hs : step s a with
    | none =>
      decidable_of_iff (ok s a)
        ⟨fun h => ⟨h, fun t ht => absurd (hs.symm.trans ht) (by simp)⟩, And.left⟩
    | some t =>
      have := decideAllMeet step ok t as
      decidable_of_iff (ok s a ∧ AllMeet step ok t as)
        ⟨fun h => ⟨h.1, fun u hu => some.inj (hs.symm.trans hu) ▸ h.2⟩, fun h => ⟨h.1, h.2 t hs⟩⟩

instance (step : σ → α → Option σ) (ok : σ → α → Prop) [∀ s a, Decidable (ok s a)] (s : σ)
    (as : List α) : Decidable (AllMeet step ok s as) :=
  decideAllMeet step ok s as

theorem reach_of_runActions {step : σ → α → Option σ} {ok : σ → α → Prop} :
    ∀ (as : List α) {s t : σ}, AllMeet step ok s as → runActions step s as = some t →
      Reach step ok s t := by
  intro as
  induction as with
  | nil =>
    intro s t _ h
    cases h
    exact .refl
  | cons a as ih =>
  intro s t hall h
  obtain ⟨u, hu, hrest⟩ := bind_eq_some_iff.1 h
  exact (Reach.tail .refl hall.1 hu).trans (ih (hall.2 u hu) hrest)

/-- Some action of the list is taken in a state with which it meets `P`. -/
def Took (step : σ → α → Option σ) (P : σ → α → Prop) : σ → List α → Prop
  | _, [] => False
  | s, a :: as => P s a ∨ ∃ t, step s a = some t ∧ Took step P t as

/-- What only an action with `P` can end holds to the end of a run, or such an action was taken. -/
theorem holds_or_took {step : σ → α → Option σ} {P : σ → α → Prop} {I : σ → Prop}
    (hstep : ∀ s a t, I s → step s a = some t → I t ∨ P s a) :
    ∀ (as : List α) {s t : σ}, I s → runActions step s as = some t → I t ∨ Took step P s as := by
  intro as
  induction as with
  | nil =>
    intro s t hI h
    cases h
    exact .inl hI
  | cons a as ih =>
  intro s t hI h
  obtain ⟨u, hu, hrest⟩ := bind_eq_some_iff.1 h
  obtain hI | hP := hstep s a u hI hu
  · exact (ih hI hrest).imp id fun htook => .inr ⟨u, hu, htook⟩
  · exact .inr (.inl hP)

/-! ## Counting participants

A system keeps its participants in a list, and a step changes one of them. -/

section

variable {α : Type} {l : List α} {i j : Nat} {a b c : α} {p : α → Bool}

theorem countP_set_add (h : l[i]? = some a) (b : α) (p : α → Bool) :
    (l.set i b).countP p + (p a).toNat = l.countP p + (p b).toNat := by
  obtain ⟨hi, ha⟩ := List.getElem?_eq_some_iff.1 h
  have hpos : p a = true → 0 < l.countP p := fun hp =>
    countP_pos_iff.2 ⟨a, ha ▸ getElem_mem hi, hp⟩
  rw [countP_set hi, ha]
  cases hpa : p a <;> cases hpb : p b <;> simp
  all_goals
    have := hpos hpa
    omega

theorem countP_set_same (h : l[i]? = some a) (hp : p a = p b) :
    (l.set i b).countP p = l.countP p := by
  have hadd := countP_set_add h b p
  rw [hp] at hadd
  omega

theorem sum_map_set_add (h : l[i]? = some a) (b : α) (f : α → Nat) :
    ((l.set i b).map f).sum + f a = (l.map f).sum + f b := by
  induction l generalizing i with
  | nil => cases h
  | cons x l ih =>
  cases i with
  | zero =>
    cases h
    simp only [set_cons_zero, map_cons, sum_cons]
    omega
  | succ i =>
  have := ih (i := i) (by simpa using h)
  simp only [set_cons_succ, map_cons, sum_cons]
  omega

theorem getElem?_set_cases (h : (l.set i b)[j]? = some c) :
    (j = i ∧ c = b) ∨ (j ≠ i ∧ l[j]? = some c) := by
  rw [getElem?_set] at h
  split at h
  · next hij =>
    split at h
    · exact .inl ⟨hij.symm, (some.inj h).symm⟩
    · cases h
  · next hij => exact .inr ⟨fun e => hij e.symm, h⟩

theorem getElem?_set_of_some (h : l[i]? = some a) (b : α) : (l.set i b)[i]? = some b := by
  obtain ⟨hi, -⟩ := List.getElem?_eq_some_iff.1 h
  rw [getElem?_set, if_pos rfl, if_pos hi]

theorem forall_mem_set {q : α → Prop} (hall : ∀ x ∈ l, q x) (hb : q b) : ∀ x ∈ l.set i b, q x := by
  intro x hx
  rcases mem_or_eq_of_mem_set hx with hmem | rfl
  · exact hall x hmem
  · exact hb

end

end SmtpProxy.Lib
