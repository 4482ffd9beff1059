import SmtpProxy.Lib.Bytes

/-!
# Readers of a finite text

An `io.Reader` that delivers a text and then `io.EOF`. The contract leaves it
free to return fewer bytes than asked for, none at all now and then, and to
report the end together with the last bytes or by a later call. `Stream` has all
of these: `plan` says how much the next calls return at most, and once it is used
up every call returns as much as fits.
-/

namespace SmtpProxy.Lib

open List

/-- A reader: what it has still to deliver, and how it will. -/
structure Stream where
  left : Bytes
  plan : List Nat := []
  /-- The end is reported together with the last bytes. -/
  eofWithData : Bool := false

namespace Stream

/-- `Read` into `size` bytes: what was read, and whether the end was reported. -/
def read (s : Stream) (size : Nat) : (Bytes × Bool) × Stream :=
  let n := min (s.plan.headD size) size
  let chunk := s.left.take n
  let rest := s.left.drop n
  ((chunk, (s.left = [] && s.plan = []) || (s.eofWithData && rest = [] && chunk ≠ [])),
    { s with left := rest, plan := s.plan.tail })

def calls (s : Stream) : Nat := s.plan.length + s.left.length

/-- What a call does. -/
structure ReadSpec (s : Stream) (size : Nat) (chunk : Bytes) (eof : Bool) (s' : Stream) : Prop where
  left : s.left = chunk ++ s'.left
  le : chunk.length ≤ size
  same : s'.eofWithData = s.eofWithData
  /-- The end is reported where the text has ended. -/
  ended : eof = true → s'.left = [] ∧ (chunk ≠ [] → s.eofWithData = true)
  /-- The last bytes without the end are returned by a reader that reports it later. -/
  later : eof = false → s'.left = [] → chunk ≠ [] → s.eofWithData = false
  /-- A call that does not report the end brings it nearer. -/
  nearer : eof = false → 0 < size → s'.calls < s.calls

theorem read_spec (s : Stream) (size : Nat) :
    ReadSpec s size (s.read size).1.1 (s.read size).1.2 (s.read size).2 := by
  constructor
  case left => exact (take_append_drop _ _).symm
  case le =>
    simp only [read, length_take]
    omega
  case same => rfl
  case ended =>
    intro heof
    simp only [read, Bool.or_eq_true, Bool.and_eq_true, decide_eq_true_eq] at heof
    obtain ⟨hleft, -⟩ | ⟨⟨hwith, hrest⟩, -⟩ := heof
    · simp [read, hleft]
    · exact ⟨hrest, fun _ => hwith⟩
  case later =>
    intro heof hrest hchunk
    simp only [read, Bool.or_eq_false_iff, Bool.and_eq_false_iff, decide_eq_false_iff_not] at heof
    obtain ⟨-, (hwith | hrest') | hchunk'⟩ := heof
    · exact hwith
    · exact absurd hrest hrest'
    · exact absurd hchunk hchunk'
  case nearer =>
    intro heof hsize
    simp only [read, Bool.or_eq_false_iff, Bool.and_eq_false_iff, decide_eq_false_iff_not] at heof
    simp only [read, calls, length_tail, length_drop]
    cases hplan : s.plan with
    | nil =>
      have hleft : s.left ≠ [] := by
        obtain hleft | hplan' := heof.1
        · exact hleft
        · exact absurd hplan hplan'
      have hpos := length_pos_iff.2 hleft
      simp only [headD_nil, length_nil]
      omega
    | cons c plan =>
      simp only [length_cons]
      omega

def discardSize : Nat := 8192

def discardLoop : Nat → Stream → Stream
  | 0, s => s
  | fuel + 1, s =>
    let r := s.read discardSize
    if r.1.2 then r.2 else discardLoop fuel r.2

def discard (s : Stream) : Stream := discardLoop (s.calls + 1) s

theorem discard_left (s : Stream) : s.discard.left = [] := by
  have hloop : ∀ fuel s, calls s < fuel → (discardLoop fuel s).left = [] := by
    intro fuel
    induction fuel with
    | zero => exact fun s hs => absurd hs (by omega)
    | succ fuel ih =>
    intro s hs
    have hspec := s.read_spec discardSize
    rw [discardLoop]
    split
    · next heof => exact (hspec.ended heof).1
    next heof =>
    have hnear := hspec.nearer (eq_false_of_ne_true heof) (by decide)
    exact ih _ (by omega)
  exact hloop _ s (Nat.lt_succ_self _)

end Stream

end SmtpProxy.Lib
