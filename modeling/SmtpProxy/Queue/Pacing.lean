import SmtpProxy.Lib.TokenBucket
import SmtpProxy.Queue.RateLimit

/-!
# Deliveries are paced

The code's bucket is the library's, with times in seconds, `perMinute / 60`
tokens a second and room for `perMinute` of them. The mutex makes any
interleaving of callers one sequence of `take` calls. A caller reads the clock
before it takes the mutex, so a reading can be overtaken by a later one; `take`
then acts at the later one, and that is the time the log records. As long as the
readings do not decrease it is the reading itself.
-/

namespace SmtpProxy.Queue

open Lib

def seconds (t : Int) : ℚ := (t : ℚ) / 1000000000

/-- A bucket with the `take` calls made at it, newest first: when, and whether a
token was taken. -/
structure Takes where
  bucket : TokenBucket
  log : List (Int × Bool) := []

def takeStep (s : Takes) (now : Int) : Option Takes :=
  (s.bucket.take now).map fun r => { bucket := r.2, log := (r.2.last, r.1.2) :: s.log }

def inSeconds (log : List (Int × Bool)) : Attempts ℚ := log.map fun e => (seconds e.1, e.2)

/-- How many tokens were taken from `a` to `b`, in seconds. -/
def taken (log : List (Int × Bool)) (a b : ℚ) : Nat := granted (inSeconds log) a b

/-! ## The code's bucket is a token bucket -/

def TokenBucket.rate (b : TokenBucket) : ℚ := b.perMinute / 60

def TokenBucket.abstract (b : TokenBucket) : Bucket ℚ := ⟨b.tokens, seconds b.last⟩

theorem seconds_lt_iff (a b : Int) : seconds a < seconds b ↔ a < b := by
  unfold seconds
  rw [div_lt_div_iff_of_pos_right (by norm_num), Int.cast_lt]

theorem refill_abstract (b : TokenBucket) (now : Int) :
    (b.refill now).abstract = b.abstract.refill b.rate b.capacity (seconds now) := by
  unfold TokenBucket.refill Bucket.refill
  by_cases hnow : now ≤ b.last
  · rw [if_pos hnow, if_neg]
    exact fun hlt => absurd ((seconds_lt_iff _ _).1 hlt) (not_lt.2 hnow)
  have hlt : b.abstract.last < seconds now := (seconds_lt_iff _ _).2 (not_le.1 hnow)
  rw [if_neg hnow, if_pos hlt]
  have hgain : ((now - b.last : Int) : ℚ) / minute * b.perMinute
      = (seconds now - seconds b.last) * b.rate := by
    unfold seconds TokenBucket.rate minute
    push_cast
    ring
  simp only [TokenBucket.abstract, hgain]
  congr 1
  split
  · next hover => rw [min_eq_right hover.le]
  · next hunder => rw [min_eq_left (not_lt.1 hunder)]

/-- Refilling and taking change nothing but the tokens and the time. -/
theorem refill_fixed (b : TokenBucket) (now : Int) :
    (b.refill now).perMinute = b.perMinute ∧ (b.refill now).capacity = b.capacity ∧
      (b.refill now).last = max b.last now := by
  unfold TokenBucket.refill
  split
  · next h => exact ⟨rfl, rfl, (max_eq_left h).symm⟩
  · next h => exact ⟨rfl, rfl, (max_eq_right (not_le.1 h).le).symm⟩

theorem take_spec {b : TokenBucket} (hrate : b.perMinute ≠ 0) (now : Int) :
    ∃ r, b.take now = some r ∧ r.2.perMinute = b.perMinute ∧ r.2.capacity = b.capacity ∧
      r.2.last = max b.last now ∧
      ∀ log, (⟨b.abstract, inSeconds log⟩ : Meter ℚ).attempt b.rate b.capacity (seconds now)
        = ⟨r.2.abstract, inSeconds ((r.2.last, r.1.2) :: log)⟩ := by
  obtain ⟨hper, hcap, hlast⟩ := refill_fixed b now
  have habs := refill_abstract b now
  unfold TokenBucket.take
  dsimp only
  by_cases hone : 1 ≤ (b.refill now).tokens
  · rw [if_pos hone]
    refine ⟨_, rfl, hper, hcap, hlast, fun log => ?_⟩
    unfold Meter.attempt
    simp only [← habs]
    exact if_pos hone
  rw [if_neg hone, if_neg (by rw [hper]; exact hrate)]
  refine ⟨_, rfl, hper, hcap, hlast, fun log => ?_⟩
  unfold Meter.attempt
  simp only [← habs]
  exact if_neg hone

/-! ## Any sequence of calls -/

/-- A bucket for `p` messages a minute that was created at `created` is what its
log says. -/
structure Paced (p created : Int) (s : Takes) : Prop where
  perMinute : s.bucket.perMinute = p
  capacity : s.bucket.capacity = p
  metered : Metered ((p : ℚ) / 60) p (seconds created) s.bucket.abstract (inSeconds s.log)

theorem paced_new {p : Int} (hp : 1 ≤ p) (created : Int) :
    Paced p created { bucket := newTokenBucket p created } := by
  have hp' : (0 : ℚ) ≤ p := by exact_mod_cast (by omega : (0 : Int) ≤ p)
  exact ⟨rfl, rfl, metered_new (div_nonneg hp' (by norm_num)) hp'⟩

theorem paced_step {p created : Int} (hp : 1 ≤ p) {s : Takes} (h : Paced p created s) (now : Int) :
    ∃ t, takeStep s now = some t ∧ Paced p created t ∧ t.bucket.last = max s.bucket.last now ∧
      t.log.map Prod.fst = t.bucket.last :: s.log.map Prod.fst := by
  have hp' : (0 : ℚ) ≤ p := by exact_mod_cast (by omega : (0 : Int) ≤ p)
  obtain ⟨r, hr, hper, hcap, hlast, hattempt⟩ :=
    take_spec (b := s.bucket) (by rw [h.perMinute]; omega) now
  refine ⟨⟨r.2, (r.2.last, r.1.2) :: s.log⟩, by rw [takeStep, hr]; rfl,
    ⟨hper.trans h.perMinute, hcap.trans h.capacity, ?_⟩, hlast, rfl⟩
  have hmeter := metered_attempt (div_nonneg hp' (by norm_num : (0 : ℚ) ≤ 60))
    (m := ⟨s.bucket.abstract, inSeconds s.log⟩) h.metered (seconds now)
  have heq := hattempt s.log
  rw [TokenBucket.rate, h.perMinute, h.capacity] at heq
  rwa [heq] at hmeter

/-- Every sequence of calls goes through and leaves the bucket paced. If the
readings do not decrease, the logged times are the readings. -/
theorem paced_run {p created : Int} (hp : 1 ≤ p) (readings : List Int) {s : Takes}
    (h : Paced p created s) :
    ∃ t, runActions takeStep s readings = some t ∧ Paced p created t ∧
      ((s.bucket.last :: readings).Pairwise (· ≤ ·) →
        t.log.map Prod.fst = readings.reverse ++ s.log.map Prod.fst) := by
  induction readings generalizing s with
  | nil => exact ⟨s, rfl, h, fun _ => rfl⟩
  | cons now readings ih =>
  obtain ⟨u, hu, hpaced, hlast, hlog⟩ := paced_step hp h now
  obtain ⟨t, ht, hpaced', htimes⟩ := ih hpaced
  refine ⟨t, by rw [runActions, hu]; exact ht, hpaced', fun hsorted => ?_⟩
  obtain ⟨hfirst, hrest⟩ := List.pairwise_cons.1 hsorted
  have hnow : u.bucket.last = now := hlast.trans (max_eq_right (hfirst now (.head _)))
  rw [htimes (by rw [hnow]; exact hrest), hlog, hnow]
  simp

theorem effective_permitted (l : Limiter) (budget : Budget) : (l.effective budget).Permitted :=
  Budget.clamp_permitted _

/-- **Deliveries of one mailbox are paced.** For every default and override, every
creation time and every sequence of `take` calls: the budget `p` that reaches the
bucket is within 1..30 and no call panics; the bucket holds between 0 and `p`
tokens; no window of `t` seconds sees more than `p + p * t / 60` tokens taken; and
a call at `u` is refused only if some window of `t` seconds that ends at `u` and
does not begin before the bucket was created has seen more than
`p * t / 60 + p - 1` of them already. A call's time is its clock reading as long
as the readings do not decrease. -/
theorem deliveries_paced (defaults budget : Budget) (created : Int) (readings : List Int) :
    ∃ p s, p = ((newLimiter defaults).effective budget).perMinute ∧ 1 ≤ p ∧ p ≤ 30 ∧
      runActions takeStep { bucket := newTokenBucket p created } readings = some s ∧
      (0 ≤ s.bucket.tokens ∧ s.bucket.tokens ≤ p) ∧
      (∀ from_ t : ℚ, 0 ≤ t → (taken s.log from_ (from_ + t) : ℚ) ≤ p + p * t / 60) ∧
      (∀ later u earlier, s.log = later ++ (u, false) :: earlier →
        ∃ t : ℚ, 0 ≤ t ∧ seconds created ≤ seconds u - t ∧
          p * t / 60 + p - 1 < taken earlier (seconds u - t) (seconds u)) ∧
      ((created :: readings).Pairwise (· ≤ ·) → s.log.map Prod.fst = readings.reverse) := by
  have hperm := effective_permitted (newLimiter defaults) budget
  have hp := hperm.one_le_perMinute
  obtain ⟨s, hs, hpaced, htimes⟩ := paced_run hp readings (paced_new hp created)
  refine ⟨_, s, rfl, hp, hperm.perMinute_le, hs, ⟨hpaced.metered.nonneg, hpaced.metered.le_cap⟩,
    fun a t ht => ?_, fun later u earlier heq => ?_, fun hsorted => by simpa using htimes hsorted⟩
  · have hwindow := hpaced.metered.window a (a + t) (by linarith)
    rw [add_sub_cancel_left] at hwindow
    exact hwindow.trans (le_of_eq (by ring))
  obtain ⟨a, hstart, ha, hlt⟩ := hpaced.metered.refused (inSeconds later) (seconds u)
    (inSeconds earlier) (by rw [heq, inSeconds, List.map_append]; rfl)
  refine ⟨seconds u - a, sub_nonneg.2 ha, by rwa [sub_sub_cancel], ?_⟩
  rw [sub_sub_cancel]
  refine lt_of_eq_of_lt ?_ hlt
  ring

end SmtpProxy.Queue
