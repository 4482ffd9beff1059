import Mathlib.Logic.Function.Basic
import SmtpProxy.Lib.Net

/-!
# The connection limiter

`internal/smtpsrv/limits.go`. `Counted` says what the limiter's fields must be for
a given population of connections; acquiring and releasing a slot keep it
(`counted_acquire`, `counted_release`). A method holds the mutex throughout, so each is one
function; `counts`, for metrics, is left out.
-/

namespace SmtpProxy.Smtpsrv

open Lib Function

variable (n : NetText)

/-- `addrKey`: the host of an address. A nil address has the key `unknown`. -/
def addrKey : Option Addr → Bytes
  | none => ascii "unknown"
  | some addr => (splitHost (addr.string n)).getD (addr.string n)

/-- `remoteIP`; the empty list is nil. -/
def remoteIP : Option Addr → IP
  | none => []
  | some (.tcp ip _ _) => ip
  | some addr =>
    match splitHost (addr.string n) with
    | none => (n.parseIP (addr.string n)).getD []
    | some host => (n.parseIP host).getD []

structure ConnLimiter where
  perIP : Bytes → Option Int := fun _ => none
  total : Int := 0
  maxIP : Int
  maxAll : Int

namespace ConnLimiter

def new (maxPerIP maxTotal : Int) : ConnLimiter := { maxIP := maxPerIP, maxAll := maxTotal }

/-- `perIP[key]` of a Go map: zero if there is no entry. -/
def count (l : ConnLimiter) (key : Bytes) : Int := (l.perIP key).getD 0

def fullAll (l : ConnLimiter) : Bool := 0 < l.maxAll && l.maxAll ≤ l.total

def fullIP (l : ConnLimiter) (key : Bytes) : Bool := 0 < l.maxIP && l.maxIP ≤ l.count key

/-- `acquire`: `none` if a limit is reached. -/
def acquire (l : ConnLimiter) (key : Bytes) : Option ConnLimiter :=
  if l.fullAll then none
  else if l.fullIP key then none
  else some { l with
    perIP := update l.perIP key (some (l.count key + 1))
    total := l.total + 1 }

def release (l : ConnLimiter) (key : Bytes) : ConnLimiter :=
  { l with
    perIP := update l.perIP key
      (if l.count key ≤ 1 then none else some (l.count key - 1))
    total := if 0 < l.total then l.total - 1 else l.total }

/-! ## The limiter and the connections it counts -/

/-- The limiter is what it must be for connections of which `pop k` have the key
`k`, and `all` there are in total. -/
structure Counted (l : ConnLimiter) (pop : Bytes → Nat) (all : Nat) : Prop where
  total : l.total = all
  perIP : ∀ k, l.perIP k = if pop k = 0 then none else some (pop k : Int)
  total_le : 0 < l.maxAll → l.total ≤ l.maxAll
  perIP_le : 0 < l.maxIP → ∀ k, l.count k ≤ l.maxIP

variable {l l' : ConnLimiter} {key : Bytes} {pop : Bytes → Nat} {all : Nat}

theorem Counted.count (h : Counted l pop all) (k : Bytes) : l.count k = pop k := by
  rw [ConnLimiter.count, h.perIP]
  split
  · next hzero => simp [hzero]
  · rfl

theorem counted_new (maxPerIP maxTotal : Int) : Counted (new maxPerIP maxTotal) (fun _ => 0) 0 where
  total := rfl
  perIP := fun _ => rfl
  total_le := Int.le_of_lt
  perIP_le := fun h _ => Int.le_of_lt h

theorem acquire_eq_none_iff : l.acquire key = none ↔ l.fullAll = true ∨ l.fullIP key = true := by
  unfold acquire
  cases hall : l.fullAll <;> cases hip : l.fullIP key <;> simp

theorem counted_acquire (h : Counted l pop all) (hacq : l.acquire key = some l') :
    Counted l' (update pop key (pop key + 1)) (all + 1) ∧
      l'.maxIP = l.maxIP ∧ l'.maxAll = l.maxAll := by
  unfold acquire at hacq
  split at hacq
  · cases hacq
  next hall =>
  split at hacq
  · cases hacq
  next hip =>
  cases hacq
  have hcount := h.count key
  refine ⟨⟨?_, fun k => ?_, fun hpos => ?_, fun hpos k => ?_⟩, rfl, rfl⟩
  · have := h.total
    push_cast
    omega
  · by_cases hk : k = key
    · subst hk
      simp only [update_self, hcount]
      rw [if_neg (Nat.succ_ne_zero _)]
      rfl
    · simp only [update_of_ne hk]
      exact h.perIP k
  · simp only [fullAll, Bool.and_eq_true, decide_eq_true_eq] at hall
    have := h.total_le hpos
    change 0 < l.maxAll at hpos
    show l.total + 1 ≤ l.maxAll
    omega
  simp only [fullIP, Bool.and_eq_true, decide_eq_true_eq] at hip
  by_cases hk : k = key
  · subst hk
    simp only [ConnLimiter.count, update_self, Option.getD_some]
    simp only [ConnLimiter.count] at hip
    change 0 < l.maxIP at hpos
    omega
  simp only [ConnLimiter.count, update_of_ne hk]
  exact h.perIP_le hpos k

theorem counted_release (h : Counted l pop all) (hpos : 0 < pop key) (hall : 0 < all) :
    Counted (l.release key) (update pop key (pop key - 1)) (all - 1) := by
  have hcount := h.count key
  have htotal := h.total
  refine ⟨?_, fun k => ?_, fun hmax => ?_, fun hmax k => ?_⟩
  · show (if 0 < l.total then l.total - 1 else l.total) = _
    rw [if_pos (by omega)]
    omega
  · show update l.perIP key _ k = _
    by_cases hk : k = key
    · subst hk
      simp only [update_self, hcount]
      by_cases hone : pop k = 1
      · rw [if_pos (by omega), if_pos (by omega)]
      rw [if_neg (by omega), if_neg (by omega)]
      congr 1
      omega
    simp only [update_of_ne hk]
    exact h.perIP k
  · have := h.total_le hmax
    show (if 0 < l.total then l.total - 1 else l.total) ≤ l.maxAll
    split <;> omega
  have hle := h.perIP_le hmax k
  by_cases hk : k = key
  · subst hk
    show (update l.perIP k _ k).getD 0 ≤ l.maxIP
    rw [update_self]
    change 0 < l.maxIP at hmax
    split
    · exact Int.le_of_lt hmax
    rw [Option.getD_some]
    omega
  show (update l.perIP key _ k).getD 0 ≤ l.maxIP
  rw [update_of_ne hk]
  exact hle

end ConnLimiter

end SmtpProxy.Smtpsrv
