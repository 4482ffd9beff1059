import SmtpProxy.Lib.Stream
import SmtpProxy.Smtpsrv.Session

/-!
# The size limit of a message

`session.readMessage` once more, now over a reader that is itself modelled: the
limit reader passes on one byte more than the limit allows, the loop asks for 32
KiB at a time, and a message that is too large is drained before the error is
returned. `readStream_eq` ties this to `readMessage`, which is given what the calls
of the reader deliver.

The loop looks at the size only after a call that did not report the end. So a
message one byte over the limit passes where the end comes with its last bytes
(`size_limit_iff`). The allowance of one byte is added in 64 bits: with the
greatest limit it wraps around, and nothing is read at all.
-/

namespace SmtpProxy.Smtpsrv

open Lib List

def chunkSize : Nat := 32 * 1024

/-- The loop of `session.readMessage`: `n` is what the limit reader still lets
through. The stream is returned as it was left. -/
def readFrom (limit : Int) : Nat → Int → Bytes → Stream → Option (Except Err Bytes × Stream)
  | 0, _, _, _ => none
  | fuel + 1, n, buf, s =>
    if n ≤ 0 then some (.ok buf, s)
    else
      let r := s.read (min chunkSize n.toNat)
      let buf := buf ++ r.1.1
      if r.1.2 then some (.ok buf, r.2)
      else if limit < buf.length then some (.error (messageTooLarge limit), r.2.discard)
      else readFrom limit fuel (n - r.1.1.length) buf r.2

def readStream (limit : Int) (s : Stream) : Option (Except Err Bytes × Stream) :=
  readFrom limit (s.calls + 1) (int64 (limit + 1)) [] s

/-- What comes of a message of this size: one byte over the limit passes with the
end of the stream. -/
def verdict (limit : Int) (s : Stream) (buf : Bytes) : Except Err Bytes :=
  let size : Int := buf.length + s.left.length
  if limit < size ∧ ¬ (s.eofWithData = true ∧ size = limit + 1) then .error (messageTooLarge limit)
  else .ok (buf ++ s.left)

/-- **The loop comes to its verdict and leaves nothing unread.** The buffer is
within the limit at the head of the loop, and the limit reader lets one byte more
through than is missing. -/
theorem readFrom_spec {limit : Int} {fuel : Nat} {buf : Bytes} {s : Stream}
    (hfuel : s.calls < fuel) (hbuf : (buf.length : Int) ≤ limit) :
    ∃ s', readFrom limit fuel (limit + 1 - buf.length) buf s = some (verdict limit s buf, s') ∧
      s'.left = [] := by
  induction fuel generalizing buf s with
  | zero => omega
  | succ fuel ih =>
  rw [readFrom, if_neg (by omega)]
  generalize hsize : min chunkSize (limit + 1 - (buf.length : Int)).toNat = size
  have hpos : 0 < size := by
    have : 0 < chunkSize := by decide
    omega
  have hspec := s.read_spec size
  generalize s.read size = r at hspec ⊢
  obtain ⟨⟨chunk, eof⟩, s'⟩ := r
  dsimp only at hspec ⊢
  have hleft : s.left.length = chunk.length + s'.left.length := by
    rw [hspec.left, length_append]
  have hle := hspec.le
  have hchunk : chunk ≠ [] ↔ 0 < chunk.length := length_pos_iff.symm
  cases heof : eof with
  | true =>
    obtain ⟨hrest, hwith⟩ := hspec.ended heof
    have hlen : s.left.length = chunk.length := by rw [hleft, hrest, length_nil]; omega
    have hpass : ¬ (limit < (buf.length : Int) + s.left.length ∧
        ¬ (s.eofWithData = true ∧ (buf.length : Int) + s.left.length = limit + 1)) := by
      rintro ⟨hover, hnot⟩
      exact hnot ⟨hwith (hchunk.2 (by omega)), by omega⟩
    rw [if_pos rfl, verdict, if_neg hpass, hspec.left, hrest, append_nil]
    exact ⟨s', rfl, hrest⟩
  | false =>
  rw [if_neg (by simp), length_append]
  split
  · next hover =>
    -- the buffer is full: one byte over the limit, and more to come or the end outstanding
    have htoo : limit < (buf.length : Int) + s.left.length ∧
        ¬ (s.eofWithData = true ∧ (buf.length : Int) + s.left.length = limit + 1) := by
      refine ⟨by omega, ?_⟩
      rintro ⟨hwith, hsize⟩
      have hrest : s'.left = [] := length_eq_zero_iff.1 (by omega)
      have hlater := hspec.later heof hrest (hchunk.2 (by omega))
      rw [hwith] at hlater
      cases hlater
    rw [verdict, if_pos htoo]
    exact ⟨_, rfl, s'.discard_left⟩
  next hwithin =>
  have hnear := hspec.nearer heof hpos
  have hsum : ((buf ++ chunk).length : Int) + s'.left.length = buf.length + s.left.length := by
    rw [length_append]
    omega
  have hn : limit + 1 - (buf.length : Int) - chunk.length
      = limit + 1 - (buf ++ chunk).length := by
    rw [length_append]
    omega
  have hverdict : verdict limit s' (buf ++ chunk) = verdict limit s buf := by
    simp only [verdict, hsum, hspec.same, append_assoc, ← hspec.left]
  rw [hn, ← hverdict]
  exact ih (by omega) (by rw [length_append]; omega)

/-! ## The calls of the reader -/

/-- What the calls of the loop deliver. -/
def delivered : Nat → Int → Stream → Reads
  | 0, _, _ => []
  | fuel + 1, n, s =>
    if n ≤ 0 then []
    else
      let r := s.read (min chunkSize n.toNat)
      (r.1.1, if r.1.2 then some .eof else none) :: delivered fuel (n - r.1.1.length) r.2

theorem readFrom_eq {limit : Int} {fuel : Nat} {n : Int} {buf : Bytes} {s s' : Stream}
    {result : Except Err Bytes} (hn : n = int64 (limit + 1) - buf.length)
    (h : readFrom limit fuel n buf s = some (result, s')) :
    readLoop limit buf (delivered fuel n s) = result := by
  induction fuel generalizing n buf s with
  | zero => cases h
  | succ fuel ih =>
  rw [readFrom] at h
  rw [delivered]
  split at h
  · next hend =>
    rw [if_pos hend]
    cases h
    rfl
  next hroom =>
  rw [if_neg hroom]
  have hle := (s.read_spec (min chunkSize n.toNat)).le
  generalize s.read (min chunkSize n.toNat) = r at h hle ⊢
  obtain ⟨⟨chunk, eof⟩, rest⟩ := r
  dsimp only at h hle ⊢
  have htake : chunk.take n.toNat = chunk := take_of_length_le (by omega)
  rw [readLoop, ← hn, if_neg hroom, htake, if_neg (by omega : ¬ n < chunk.length)]
  cases eof with
  | true =>
    cases h
    rfl
  | false =>
  simp only [Bool.false_eq_true, if_false] at h ⊢
  split at h
  · next hover =>
    rw [if_pos hover]
    cases h
    rfl
  next hwithin =>
  rw [if_neg hwithin]
  exact ih (by rw [hn, length_append]; omega) h

/-- **Reading from a stream is reading what its calls deliver.** -/
theorem readStream_eq {limit : Int} {s s' : Stream} {result : Except Err Bytes}
    (h : readStream limit s = some (result, s')) :
    readLoop limit [] (delivered (s.calls + 1) (int64 (limit + 1)) s) = result :=
  readFrom_eq (by simp) h

/-! ## The limit -/

/-- A message within the limit is read whole, a larger one is refused, and the
stream is used up either way. -/
structure SizeLimit (limit : Int) (s : Stream) : Prop where
  fits : (s.left.length : Int) ≤ limit →
    ∃ s', readStream limit s = some (.ok s.left, s') ∧ s'.left = []
  beyond : limit < s.left.length →
    ∃ s', readStream limit s = some (.error (messageTooLarge limit), s') ∧ s'.left = []

/-- **The size limit is exact but for two cases**: one byte over it where the
reader reports the end with the last bytes, and the greatest limit of all, with
which only the empty message is read. -/
theorem size_limit_iff {limit : Int} (h0 : 0 ≤ limit) (hmax : limit < 2 ^ 63) (s : Stream) :
    SizeLimit limit s ↔ ¬ (s.eofWithData = true ∧ (s.left.length : Int) = limit + 1) ∧
        (limit + 1 = 2 ^ 63 → s.left = []) := by
  by_cases hwrap : limit + 1 = 2 ^ 63
  · have hread : readStream limit s = some (.ok [], s) := by
      rw [readStream, hwrap, readFrom, if_pos (by decide)]
    constructor
    · rintro ⟨hfits, hover⟩
      by_cases hle : (s.left.length : Int) ≤ limit
      · obtain ⟨s', hs', -⟩ := hfits hle
        rw [hread] at hs'
        have hempty : s.left = [] := by
          have := (Prod.mk.inj (Option.some.inj hs')).1
          exact (Except.ok.inj this).symm
        exact ⟨fun h => by rw [hempty] at h; simp at h; omega, fun _ => hempty⟩
      obtain ⟨s', hs', -⟩ := hover (by omega)
      rw [hread] at hs'
      exact absurd (Prod.mk.inj (Option.some.inj hs')).1 (by simp)
    rintro ⟨-, hempty⟩
    have hempty := hempty hwrap
    refine ⟨fun _ => ⟨s, by rw [hread, hempty], hempty⟩, fun hlt => ?_⟩
    rw [hempty, length_nil] at hlt
    omega
  have hsmall : limit + 1 < 2 ^ 63 := by omega
  have hloop : ∃ s', readFrom limit (s.calls + 1) (limit + 1 - ([] : Bytes).length) [] s
      = some (verdict limit s [], s') ∧ s'.left = [] :=
    readFrom_spec (Nat.lt_succ_self s.calls) (by simpa using h0)
  obtain ⟨s', hs', hleft⟩ := hloop
  rw [length_nil, Int.natCast_zero, Int.sub_zero, ← int64_eq (by omega) hsmall] at hs'
  have hread : readStream limit s = some (verdict limit s [], s') := hs'
  have hverdict : verdict limit s [] = if limit < s.left.length ∧
      ¬ (s.eofWithData = true ∧ (s.left.length : Int) = limit + 1)
      then .error (messageTooLarge limit) else .ok s.left := by
    simp [verdict]
  rw [hverdict] at hread
  constructor
  · rintro ⟨-, hover⟩
    refine ⟨?_, fun h => absurd h hwrap⟩
    rintro ⟨hwith, hsize⟩
    obtain ⟨s'', hs'', -⟩ := hover (by omega)
    rw [hread, if_neg (by simp [hwith, hsize])] at hs''
    exact absurd (Prod.mk.inj (Option.some.inj hs'')).1 (by simp)
  rintro ⟨hnot, -⟩
  refine ⟨fun hle => ⟨s', ?_, hleft⟩, fun hlt => ⟨s', ?_, hleft⟩⟩
  · rw [hread, if_neg (by omega)]
  · rw [hread, if_pos ⟨hlt, hnot⟩]

def twoPieces : Stream := { left := ascii "abcd", plan := [1, 3] }

/-- With a limit of three bytes they are refused. -/
theorem twoPieces_over : (0 : Int) ≤ 3 ∧ (3 : Int) < 2 ^ 63 ∧ SizeLimit 3 twoPieces :=
  ⟨by decide, by decide, (size_limit_iff (by decide) (by decide) twoPieces).2
    ⟨by simp [twoPieces], by decide⟩⟩

/-- Where the end comes with the last of the four bytes, they pass; and with the
greatest limit nothing is read. -/
theorem oneByteOver_passes :
    (readStream 3 { twoPieces with eofWithData := true }).map Prod.fst = some (.ok (ascii "abcd")) ∧
    ((readStream (2 ^ 63 - 1) twoPieces).map fun r => (r.1, r.2.left))
      = some (.ok [], ascii "abcd") :=
  ⟨rfl, rfl⟩

end SmtpProxy.Smtpsrv
