import Mathlib.Algebra.Order.Ring.Defs
import Mathlib.Tactic.Linarith

/-!
# Token buckets

A bucket holds at most `cap` tokens and is refilled continuously, `rate` of them
per unit of time. An attempt brings the bucket up to date and takes one token if
there is one. Time is the bucket's own: an attempt that comes with an earlier
reading than one before it happens at the later of the two.

Two statements about arbitrary windows of time describe such a bucket completely. No
window of length `t` sees more than `cap + rate * t` tokens given out
(`Metered.window`), and an attempt is refused only if some window that ends with it has
used up all but a fraction of one token of that allowance (`Metered.refused`).
-/

namespace SmtpProxy.Lib

variable {K : Type} [LinearOrder K]

/-- The attempts made, newest first: when, and whether a token was given out. -/
abbrev Attempts (K : Type) := List (K × Bool)

/-- How many tokens were given out from `a` to `b`. -/
def granted (log : Attempts K) (a b : K) : Nat :=
  log.countP fun e => e.2 && decide (a ≤ e.1) && decide (e.1 ≤ b)

@[simp] theorem granted_refused (log : Attempts K) (t a b : K) :
    granted ((t, false) :: log) a b = granted log a b := by
  simp [granted]

theorem granted_inside {log : Attempts K} {t a b : K} (ha : a ≤ t) (hb : t ≤ b) :
    granted ((t, true) :: log) a b = granted log a b + 1 := by
  simp [granted, ha, hb]

theorem granted_outside {log : Attempts K} {t a b : K} (h : t < a ∨ b < t) :
    granted ((t, true) :: log) a b = granted log a b := by
  rcases h with h | h
  · simp [granted, not_le.2 h]
  · simp [granted, not_le.2 h]

theorem granted_stop {log : Attempts K} {c d : K} (hlog : ∀ e ∈ log, e.1 ≤ c) (hcd : c ≤ d) (a : K) :
    granted log a d = granted log a c := by
  refine List.countP_congr fun e he => ?_
  have hc := hlog e he
  simp [hc, hc.trans hcd]

theorem granted_later {log : Attempts K} {c a : K} (hlog : ∀ e ∈ log, e.1 ≤ c) (h : c < a) (b : K) :
    granted log a b = 0 := by
  refine List.countP_eq_zero.2 fun e he => ?_
  have hlt : ¬ a ≤ e.1 := not_le.2 ((hlog e he).trans_lt h)
  simp [hlt]

variable [CommRing K]

/-- What the bucket holds, and the time up to which it has been refilled. -/
structure Bucket (K : Type) where
  tokens : K
  last : K

/-- Bring the bucket up to date. A time it has passed already changes nothing. -/
def Bucket.refill (rate cap : K) (b : Bucket K) (now : K) : Bucket K :=
  if b.last < now then ⟨min (b.tokens + (now - b.last) * rate) cap, now⟩ else b

/-- A bucket and the attempts made at it. -/
structure Meter (K : Type) where
  bucket : Bucket K
  log : Attempts K

def Meter.attempt (rate cap : K) (m : Meter K) (now : K) : Meter K :=
  let b := m.bucket.refill rate cap now
  if 1 ≤ b.tokens then ⟨⟨b.tokens - 1, b.last⟩, (b.last, true) :: m.log⟩
  else ⟨b, (b.last, false) :: m.log⟩

variable {rate cap start now : K} {b : Bucket K} {log : Attempts K}

/-- The bucket is what its history says. -/
structure Metered (rate cap start : K) (b : Bucket K) (log : Attempts K) : Prop where
  nonneg : 0 ≤ b.tokens
  le_cap : b.tokens ≤ cap
  times : ∀ e ∈ log, e.1 ≤ b.last
  burst : ∀ a ≤ b.last, granted log a b.last + b.tokens ≤ cap + rate * (b.last - a)
  window : ∀ a c, a ≤ c → (granted log a c : K) ≤ cap + rate * (c - a)
  full : ∃ a, start ≤ a ∧ a ≤ b.last ∧
    cap + rate * (b.last - a) ≤ b.tokens + granted log a b.last
  refused : ∀ later u earlier, log = later ++ (u, false) :: earlier →
    ∃ a, start ≤ a ∧ a ≤ u ∧ rate * (u - a) + cap - 1 < granted earlier a u

theorem refused_cons {t : K} {ok : Bool} (h : Metered rate cap start b log)
    (hnow : ok = false → ∃ a, start ≤ a ∧ a ≤ t ∧ rate * (t - a) + cap - 1 < granted log a t)
    (later : Attempts K) (u : K) (earlier : Attempts K)
    (heq : (t, ok) :: log = later ++ (u, false) :: earlier) :
    ∃ a, start ≤ a ∧ a ≤ u ∧ rate * (u - a) + cap - 1 < granted earlier a u := by
  cases later with
  | nil =>
    obtain ⟨hhead, rfl⟩ := List.cons.inj heq
    cases hhead
    exact hnow rfl
  | cons _ later => exact h.refused later u earlier (List.cons.inj heq).2

variable [IsStrictOrderedRing K]

theorem metered_new (hrate : 0 ≤ rate) (hcap : 0 ≤ cap) :
    Metered rate cap start ⟨cap, start⟩ [] where
  nonneg := hcap
  le_cap := le_refl cap
  times := by simp
  burst := fun a ha => by
    have hmul : 0 ≤ rate * (start - a) := mul_nonneg hrate (sub_nonneg.2 ha)
    simpa [granted] using hmul
  window := fun a c hac => by
    have hmul : 0 ≤ rate * (c - a) := mul_nonneg hrate (sub_nonneg.2 hac)
    simpa [granted] using add_nonneg hcap hmul
  full := ⟨start, le_refl _, le_refl _, by simp [granted]⟩
  refused := fun later u earlier h => absurd h (by simp)

theorem metered_refill (hrate : 0 ≤ rate) (h : Metered rate cap start b log) (now : K) :
    Metered rate cap start (b.refill rate cap now) log := by
  unfold Bucket.refill
  split
  · next hlt =>
    have hgain : 0 ≤ (now - b.last) * rate := mul_nonneg (sub_nonneg.2 hlt.le) hrate
    have hstop := granted_stop h.times hlt.le
    refine ⟨le_min (add_nonneg h.nonneg hgain) (h.nonneg.trans h.le_cap), min_le_right _ _,
      fun e he => (h.times e he).trans hlt.le, fun a ha => ?_, h.window, ?_, h.refused⟩
    · dsimp only at ha ⊢
      rcases le_or_gt a b.last with hold | hnew
      · have hb := h.burst a hold
        have hmin := min_le_left (b.tokens + (now - b.last) * rate) cap
        rw [hstop a]
        linarith
      · -- the window begins after the last attempt: only the capacity counts
        have hmul : 0 ≤ rate * (now - a) := mul_nonneg hrate (sub_nonneg.2 ha)
        have hmin := min_le_right (b.tokens + (now - b.last) * rate) cap
        rw [granted_later h.times hnew, Nat.cast_zero]
        linarith
    obtain ⟨a, hstart, ha, hfull⟩ := h.full
    dsimp only
    rcases le_total (b.tokens + (now - b.last) * rate) cap with hle | hge
    · refine ⟨a, hstart, ha.trans hlt.le, ?_⟩
      rw [min_eq_left hle, hstop a]
      linarith
    · -- the bucket is full now
      refine ⟨now, hstart.trans (ha.trans hlt.le), le_refl _, ?_⟩
      rw [min_eq_right hge, sub_self, mul_zero, add_zero]
      exact le_add_of_nonneg_right (Nat.cast_nonneg _)
  · exact h

theorem metered_grant (hrate : 0 ≤ rate) (h : Metered rate cap start b log) (hone : 1 ≤ b.tokens) :
    Metered rate cap start ⟨b.tokens - 1, b.last⟩ ((b.last, true) :: log) where
  nonneg := sub_nonneg.2 hone
  le_cap := (sub_le_self _ zero_le_one).trans h.le_cap
  times := List.forall_mem_cons.2 ⟨le_refl _, h.times⟩
  burst := fun a ha => by
    rw [granted_inside ha (le_refl _), Nat.cast_add, Nat.cast_one]
    have hb := h.burst a ha
    dsimp only
    linarith
  window := fun a c hac => by
    rcases lt_or_ge b.last a with hbefore | hfrom
    · rw [granted_outside (.inl hbefore)]
      exact h.window a c hac
    rcases lt_or_ge c b.last with hafter | hto
    · rw [granted_outside (.inr hafter)]
      exact h.window a c hac
    · -- the token just taken was among those the bucket held
      rw [granted_inside hfrom hto, granted_stop h.times hto, Nat.cast_add, Nat.cast_one]
      have hb := h.burst a hfrom
      have hmul : rate * (b.last - a) ≤ rate * (c - a) :=
        mul_le_mul_of_nonneg_left (sub_le_sub_right hto a) hrate
      linarith
  full := by
    obtain ⟨a, hstart, ha, hfull⟩ := h.full
    refine ⟨a, hstart, ha, ?_⟩
    rw [granted_inside ha (le_refl _), Nat.cast_add, Nat.cast_one]
    dsimp only
    linarith
  refused := refused_cons h (by simp)

theorem metered_refuse (h : Metered rate cap start b log) (hless : b.tokens < 1) :
    Metered rate cap start b ((b.last, false) :: log) where
  nonneg := h.nonneg
  le_cap := h.le_cap
  times := List.forall_mem_cons.2 ⟨le_refl _, h.times⟩
  burst := fun a ha => by
    rw [granted_refused]
    exact h.burst a ha
  window := fun a c hac => by
    rw [granted_refused]
    exact h.window a c hac
  full := by
    obtain ⟨a, hstart, ha, hfull⟩ := h.full
    exact ⟨a, hstart, ha, by rwa [granted_refused]⟩
  refused := refused_cons h fun _ => by
    obtain ⟨a, hstart, ha, hfull⟩ := h.full
    exact ⟨a, hstart, ha, by linarith⟩

/-- **Every attempt keeps the bucket what its history says.** -/
theorem metered_attempt (hrate : 0 ≤ rate) {m : Meter K}
    (h : Metered rate cap start m.bucket m.log) (now : K) :
    Metered rate cap start (m.attempt rate cap now).bucket (m.attempt rate cap now).log := by
  have hfill := metered_refill hrate h now
  unfold Meter.attempt
  dsimp only
  split
  · next hone => exact metered_grant hrate hfill hone
  · next hless => exact metered_refuse hfill (not_le.1 hless)

end SmtpProxy.Lib
