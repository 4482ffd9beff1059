import SmtpProxy.Lib.Bytes

/-!
# Reading from a connection through a buffer

What a peer sends arrives in chunks of any size, and reading one can fail. A
`bufio.Reader` takes chunks into its buffer as it needs them. All that matters of it is
its `stream`: the bytes in the buffer, then those still to arrive.

An operation that needs more than has arrived waits; its result is then `none`.
The buffer has no bound here: how much is read ahead cannot be observed.
-/

namespace SmtpProxy.Lib

open List Option

/-- How reading from a connection fails. -/
inductive ReadFailure where
  | eof
  | unexpectedEOF
  | timeout
  | broken (text : Bytes)
  deriving DecidableEq

/-- What the reads of a connection deliver. A failure is met again by every later
read. -/
inductive Arrival where
  | data (chunk : Bytes)
  | fail (e : ReadFailure)
  deriving DecidableEq

def arriving : List Arrival → Bytes
  | [] => []
  | .data chunk :: rest => chunk ++ arriving rest
  | .fail _ :: _ => []

def ending : List Arrival → Option ReadFailure
  | [] => none
  | .data _ :: rest => ending rest
  | .fail e :: _ => some e

theorem arriving_append (input more : List Arrival) : arriving (input ++ more)
      = if ending input = none then arriving input ++ arriving more else arriving input := by
  induction input with
  | nil => rfl
  | cons a rest ih =>
  cases a with
  | data chunk =>
    rw [cons_append, arriving, ih, arriving, ending]
    split
    · rw [append_assoc]
    · rfl
  | fail e => rfl

theorem ending_append (input more : List Arrival) :
    ending (input ++ more) = (ending input).or (ending more) := by
  induction input with
  | nil => rfl
  | cons a rest ih =>
  cases a with
  | data chunk => exact ih
  | fail e => rfl

/-- `bufio.Reader`. -/
structure Reader where
  buf : Bytes := []
  input : List Arrival
  deriving DecidableEq

namespace Reader

def stream (r : Reader) : Bytes := r.buf ++ arriving r.input

theorem append_arriving (buf chunk : Bytes) (rest : List Arrival) :
    buf ++ arriving (.data chunk :: rest) = (buf ++ chunk) ++ arriving rest := by
  rw [arriving, append_assoc]

/-! ## Peek -/

/-- Fill the buffer until it has `n` bytes. -/
def peekFrom (n : Nat) (buf : Bytes) : List Arrival → Option ((Bytes × Option ReadFailure) × Reader)
  | [] => if n ≤ buf.length then some ((buf.take n, none), ⟨buf, []⟩) else none
  | .data chunk :: rest =>
    if n ≤ buf.length then some ((buf.take n, none), ⟨buf, .data chunk :: rest⟩)
    else peekFrom n (buf ++ chunk) rest
  | .fail e :: rest =>
    if n ≤ buf.length then some ((buf.take n, none), ⟨buf, .fail e :: rest⟩)
    else some ((buf, some e), ⟨buf, .fail e :: rest⟩)

/-- `Peek`: the next `n` bytes, or the fewer there are with the failure behind
them. -/
def peek (r : Reader) (n : Nat) : Option ((Bytes × Option ReadFailure) × Reader) :=
  peekFrom n r.buf r.input

theorem peekFrom_enough {n : Nat} (buf : Bytes) (input : List Arrival)
    (h : n ≤ (buf ++ arriving input).length) :
    ∃ r, peekFrom n buf input = some (((buf ++ arriving input).take n, none), r) ∧
      r.stream = buf ++ arriving input ∧ ending r.input = ending input := by
  induction input generalizing buf with
  | nil =>
    have hlen : n ≤ buf.length := by simpa [arriving] using h
    rw [peekFrom, if_pos hlen]
    refine ⟨⟨buf, []⟩, ?_, rfl, rfl⟩
    rw [take_append_of_le_length hlen]
  | cons a rest ih =>
  by_cases hlen : n ≤ buf.length
  · refine ⟨⟨buf, a :: rest⟩, ?_, rfl, rfl⟩
    rw [take_append_of_le_length hlen]
    cases a <;> rw [peekFrom, if_pos hlen]
  cases a with
  | data chunk =>
    rw [append_arriving] at h ⊢
    rw [peekFrom, if_neg hlen]
    exact ih (buf ++ chunk) h
  | fail e => exact absurd (by simpa [arriving] using h) hlen

theorem peekFrom_short {n : Nat} (buf : Bytes) (input : List Arrival)
    (h : (buf ++ arriving input).length < n) :
    (ending input = none ∧ peekFrom n buf input = none) ∨
    ∃ e r, ending input = some e ∧
      peekFrom n buf input = some ((buf ++ arriving input, some e), r) ∧
      r.stream = buf ++ arriving input ∧ ending r.input = some e := by
  induction input generalizing buf with
  | nil =>
    have hlen : ¬ n ≤ buf.length := by simpa [arriving] using h
    exact .inl ⟨rfl, by rw [peekFrom, if_neg hlen]⟩
  | cons a rest ih =>
  have hlen : ¬ n ≤ buf.length := by
    rw [length_append] at h
    omega
  cases a with
  | data chunk =>
    rw [append_arriving] at h ⊢
    rw [peekFrom, if_neg hlen, ending]
    exact ih (buf ++ chunk) h
  | fail e =>
    refine .inr ⟨e, ⟨buf, .fail e :: rest⟩, rfl, ?_, rfl, rfl⟩
    rw [peekFrom, if_neg hlen, arriving, append_nil]

/-! ## ReadString -/

/-- Cut behind the first occurrence of a byte. -/
def cutAfter (d : UInt8) : Bytes → Option (Bytes × Bytes)
  | [] => none
  | b :: s => if b = d then some ([b], s) else (cutAfter d s).map fun p => (b :: p.1, p.2)

variable {d : UInt8} {line : Bytes}

theorem cutAfter_some (hline : d ∉ line) (rest : Bytes) :
    cutAfter d (line ++ d :: rest) = some (line ++ [d], rest) := by
  induction line with
  | nil => simp [cutAfter]
  | cons b line ih =>
  obtain ⟨hb, hline⟩ := not_or.1 (mt mem_cons.2 hline)
  rw [cons_append, cutAfter, if_neg (Ne.symm hb), ih hline]
  rfl

variable {rest : Bytes}

theorem cutAfter_spec {s : Bytes} (h : cutAfter d s = some (line, rest)) :
    s = line ++ rest ∧ ∃ text, d ∉ text ∧ line = text ++ [d] := by
  induction s generalizing line rest with
  | nil => simp [cutAfter] at h
  | cons b s ih =>
  rw [cutAfter] at h
  split at h
  · next hb =>
    cases h
    exact ⟨rfl, [], not_mem_nil, by rw [hb]; rfl⟩
  next hb =>
  obtain ⟨p, hp, hpair⟩ := map_eq_some_iff.1 h
  cases hpair
  obtain ⟨hs, text, htext, hline⟩ := ih hp
  refine ⟨congrArg (b :: ·) hs, b :: text, ?_, congrArg (b :: ·) hline⟩
  exact not_mem_cons_of_ne_of_not_mem (Ne.symm hb) htext

theorem cutAfter_append {s : Bytes} (h : cutAfter d s = some (line, rest)) (more : Bytes) :
    cutAfter d (s ++ more) = some (line, rest ++ more) := by
  obtain ⟨rfl, text, htext, rfl⟩ := cutAfter_spec h
  rw [append_assoc, append_assoc]
  exact cutAfter_some htext (rest ++ more)

/-- Fill the buffer until it has the byte. -/
def readStringFrom (d : UInt8) (buf : Bytes) :
    List Arrival → Option (Except ReadFailure Bytes × Reader)
  | [] => (cutAfter d buf).map fun p => (.ok p.1, ⟨p.2, []⟩)
  | .data chunk :: rest =>
    match cutAfter d buf with
    | some p => some (.ok p.1, ⟨p.2, .data chunk :: rest⟩)
    | none => readStringFrom d (buf ++ chunk) rest
  | .fail e :: rest =>
    match cutAfter d buf with
    | some p => some (.ok p.1, ⟨p.2, .fail e :: rest⟩)
    | none => some (.error e, ⟨[], .fail e :: rest⟩)

/-- `ReadString`: up to and including the first occurrence of the byte. -/
def readString (r : Reader) (d : UInt8) : Option (Except ReadFailure Bytes × Reader) :=
  readStringFrom d r.buf r.input

theorem readStringFrom_cut (buf : Bytes) (input : List Arrival)
    (h : cutAfter d (buf ++ arriving input) = some (line, rest)) :
    ∃ r, readStringFrom d buf input = some (.ok line, r) ∧ r.stream = rest := by
  induction input generalizing buf with
  | nil =>
    rw [arriving, append_nil] at h
    refine ⟨⟨rest, []⟩, by rw [readStringFrom, h]; rfl, ?_⟩
    rw [stream, arriving, append_nil]
  | cons a more ih =>
  cases hcut : cutAfter d buf with
  | some p =>
    rw [cutAfter_append hcut] at h
    cases h
    refine ⟨⟨p.2, a :: more⟩, ?_, rfl⟩
    cases a <;> simp only [readStringFrom, hcut]
  | none =>
  cases a with
  | data chunk =>
    rw [arriving, ← append_assoc] at h
    obtain ⟨r, hr, hstream⟩ := ih (buf ++ chunk) h
    exact ⟨r, by simp only [readStringFrom, hcut]; exact hr, hstream⟩
  | fail e =>
    rw [arriving, append_nil, hcut] at h
    cases h

theorem readStringFrom_ok {r : Reader} (buf : Bytes) (input : List Arrival)
    (h : readStringFrom d buf input = some (.ok line, r)) :
    cutAfter d (buf ++ arriving input) = some (line, r.stream) := by
  induction input generalizing buf with
  | nil =>
    obtain ⟨p, hp, hpair⟩ := map_eq_some_iff.1 h
    obtain ⟨hline, rfl⟩ := Prod.mk.inj hpair
    rw [stream, arriving, append_nil, append_nil, hp, ← Except.ok.inj hline]
  | cons a more ih =>
  cases hcut : cutAfter d buf with
  | some p =>
    have hret : some ((Except.ok p.1 : Except ReadFailure Bytes), Reader.mk p.2 (a :: more))
        = some (.ok line, r) := by
      rw [← h]
      cases a <;> simp only [readStringFrom, hcut]
    obtain ⟨hline, rfl⟩ := Prod.mk.inj (some.inj hret)
    rw [cutAfter_append hcut, ← Except.ok.inj hline]
    rfl
  | none =>
  cases a with
  | data chunk =>
    simp only [readStringFrom, hcut] at h
    rw [arriving, ← append_assoc]
    exact ih (buf ++ chunk) h
  | fail e => simp [readStringFrom, hcut] at h

/-! ## ReadFull -/

/-- Fill the buffer until it has `n` bytes and take them. -/
def readFullFrom (n : Nat) (buf : Bytes) :
    List Arrival → Option (Except ReadFailure Bytes × Reader)
  | [] => if n ≤ buf.length then some (.ok (buf.take n), ⟨buf.drop n, []⟩) else none
  | .data chunk :: rest =>
    if n ≤ buf.length then some (.ok (buf.take n), ⟨buf.drop n, .data chunk :: rest⟩)
    else readFullFrom n (buf ++ chunk) rest
  | .fail e :: rest =>
    if n ≤ buf.length then some (.ok (buf.take n), ⟨buf.drop n, .fail e :: rest⟩)
    else
      -- an end of the stream after some of the bytes is unexpected
      some (.error (if e = .eof ∧ buf ≠ [] then .unexpectedEOF else e), ⟨[], .fail e :: rest⟩)

/-- `io.ReadFull` with a buffer of `n` bytes. -/
def readFull (r : Reader) (n : Nat) : Option (Except ReadFailure Bytes × Reader) :=
  readFullFrom n r.buf r.input

theorem readFullFrom_enough {bytes : Bytes} (buf : Bytes) (input : List Arrival)
    (h : buf ++ arriving input = bytes ++ rest) :
    ∃ r, readFullFrom bytes.length buf input = some (.ok bytes, r) ∧ r.stream = rest := by
  -- once the buffer has them, it begins with them
  have hdone : ∀ (buf : Bytes) (input : List Arrival), buf ++ arriving input = bytes ++ rest →
      bytes.length ≤ buf.length →
      buf.take bytes.length = bytes ∧ stream ⟨buf.drop bytes.length, input⟩ = rest := by
    intro buf input h hlen
    have htake := congrArg (List.take bytes.length) h
    have hdrop := congrArg (List.drop bytes.length) h
    rw [take_append_of_le_length hlen, take_left] at htake
    rw [drop_append_of_le_length hlen, drop_left] at hdrop
    exact ⟨htake, hdrop⟩
  induction input generalizing buf with
  | nil =>
    have hlen : bytes.length ≤ buf.length := by
      have := congrArg List.length h
      rw [arriving, append_nil, length_append] at this
      omega
    obtain ⟨htake, hstream⟩ := hdone buf [] h hlen
    exact ⟨_, by rw [readFullFrom, if_pos hlen, htake], hstream⟩
  | cons a more ih =>
  by_cases hlen : bytes.length ≤ buf.length
  · obtain ⟨htake, hstream⟩ := hdone buf (a :: more) h hlen
    refine ⟨⟨buf.drop bytes.length, a :: more⟩, ?_, hstream⟩
    cases a <;> rw [readFullFrom, if_pos hlen, htake]
  cases a with
  | data chunk =>
    rw [arriving, ← append_assoc] at h
    obtain ⟨r, hr, hstream⟩ := ih (buf ++ chunk) h
    exact ⟨r, by rw [readFullFrom, if_neg hlen]; exact hr, hstream⟩
  | fail e =>
  have := congrArg List.length h
  rw [arriving, append_nil, length_append] at this
  omega

theorem readFullFrom_ok {n : Nat} {bytes : Bytes} {r : Reader} (buf : Bytes)
    (input : List Arrival) (h : readFullFrom n buf input = some (.ok bytes, r)) :
    bytes.length = n ∧ buf ++ arriving input = bytes ++ r.stream := by
  have hdone : ∀ (buf : Bytes) (input : List Arrival), n ≤ buf.length →
      some ((Except.ok (buf.take n) : Except ReadFailure Bytes), Reader.mk (buf.drop n) input)
        = some (.ok bytes, r) →
      bytes.length = n ∧ buf ++ arriving input = bytes ++ r.stream := by
    intro buf input hlen hret
    obtain ⟨hbytes, rfl⟩ := Prod.mk.inj (some.inj hret)
    rw [← Except.ok.inj hbytes, stream, ← append_assoc, take_append_drop]
    exact ⟨length_take_of_le hlen, rfl⟩
  induction input generalizing buf with
  | nil =>
    rw [readFullFrom] at h
    split at h
    · next hlen => exact hdone buf [] hlen h
    · cases h
  | cons a more ih =>
  by_cases hlen : n ≤ buf.length
  · refine hdone buf (a :: more) hlen ?_
    rw [← h]
    cases a <;> rw [readFullFrom, if_pos hlen]
  cases a with
  | data chunk =>
    rw [readFullFrom, if_neg hlen] at h
    rw [arriving, ← append_assoc]
    exact ih (buf ++ chunk) h
  | fail e => simp [readFullFrom, hlen] at h

/-! ## Read -/

/-- Take the next chunk that has any bytes. -/
def readNext (size : Nat) : List Arrival → Option (Except ReadFailure Bytes × Reader)
  | [] => none
  | .data [] :: rest => readNext size rest
  | .data (b :: chunk) :: rest => some (.ok ((b :: chunk).take size), ⟨(b :: chunk).drop size, rest⟩)
  | .fail e :: rest => some (.error e, ⟨[], .fail e :: rest⟩)

/-- `Read` into a buffer of `size` bytes. -/
def read (r : Reader) (size : Nat) : Option (Except ReadFailure Bytes × Reader) :=
  if r.buf = [] then readNext size r.input
  else some (.ok (r.buf.take size), ⟨r.buf.drop size, r.input⟩)

/-- Reading on, with buffers of any size, until a read fails or waits yields these
bytes. -/
inductive Yields : Reader → Bytes → Prop where
  | waits {r : Reader} {size : Nat} (hsize : 0 < size) (h : r.read size = none) : Yields r []
  | ends {r r' : Reader} {size : Nat} {e : ReadFailure} (hsize : 0 < size)
      (h : r.read size = some (.error e, r')) : Yields r []
  | more {r r' : Reader} {size : Nat} {chunk rest : Bytes} (hsize : 0 < size)
      (h : r.read size = some (.ok chunk, r')) (hrest : Yields r' rest) : Yields r (chunk ++ rest)

theorem readNext_spec {size : Nat} (hsize : 0 < size) (input : List Arrival) :
    (arriving input = [] ∧ (readNext size input = none ∨
      ∃ e r, readNext size input = some (.error e, r))) ∨
    ∃ chunk r, readNext size input = some (.ok chunk, r) ∧ chunk ≠ [] ∧
      chunk ++ r.stream = arriving input := by
  induction input with
  | nil => exact .inl ⟨rfl, .inl rfl⟩
  | cons a rest ih =>
  cases a with
  | fail e => exact .inl ⟨rfl, .inr ⟨e, _, rfl⟩⟩
  | data chunk =>
  cases chunk with
  | nil => exact ih
  | cons b chunk =>
  refine .inr ⟨_, _, rfl, ?_, ?_⟩
  · rw [ne_eq, take_eq_nil_iff]
    simp only [reduceCtorEq, or_false]
    omega
  · rw [stream, ← append_assoc, take_append_drop, arriving]

theorem read_spec (r : Reader) {size : Nat} (hsize : 0 < size) :
    (r.stream = [] ∧ (r.read size = none ∨ ∃ e r', r.read size = some (.error e, r'))) ∨
    ∃ chunk r', r.read size = some (.ok chunk, r') ∧ chunk ≠ [] ∧
      chunk ++ r'.stream = r.stream := by
  unfold read stream
  split
  · next hbuf =>
    rw [hbuf, nil_append]
    exact readNext_spec hsize r.input
  next hbuf =>
  refine .inr ⟨_, _, rfl, ?_, ?_⟩
  · rw [ne_eq, take_eq_nil_iff]
    simp only [hbuf, or_false]
    omega
  · rw [← append_assoc, take_append_drop]

/-- **Reading on yields the stream, however it is cut up.** -/
theorem yields_iff (r : Reader) (bytes : Bytes) : Yields r bytes ↔ bytes = r.stream := by
  constructor
  · intro h
    induction h with
    | @waits r size hsize h =>
      rcases read_spec r hsize with ⟨hnil, -⟩ | ⟨chunk, r', hok, -⟩
      · exact hnil.symm
      · cases h.symm.trans hok
    | @ends r r' size e hsize h =>
      rcases read_spec r hsize with ⟨hnil, -⟩ | ⟨chunk, r', hok, -⟩
      · exact hnil.symm
      · cases h.symm.trans hok
    | @more r r' size chunk rest hsize h _ ih =>
    rcases read_spec r hsize with ⟨-, hnone | ⟨e, r'', herr⟩⟩ | ⟨chunk', r'', hok, -, hstream⟩
    · cases h.symm.trans hnone
    · cases h.symm.trans herr
    obtain ⟨hchunk, rfl⟩ := Prod.mk.inj (some.inj (h.symm.trans hok))
    rw [Except.ok.inj hchunk, ih, hstream]
  rintro rfl
  -- byte by byte; each read shortens the stream
  induction hn : r.stream.length using Nat.strong_induction_on generalizing r with
  | _ n ih =>
  rcases read_spec r Nat.one_pos with ⟨hnil, hnone | ⟨e, r', herr⟩⟩ | ⟨chunk, r', hok, hne, hstream⟩
  · rw [hnil]
    exact .waits Nat.one_pos hnone
  · rw [hnil]
    exact .ends Nat.one_pos herr
  rw [← hstream]
  have hlt : r'.stream.length < n := by
    have hlen := congrArg List.length hstream
    rw [length_append, hn] at hlen
    have := length_pos_of_ne_nil hne
    omega
  exact .more Nat.one_pos hok (ih _ hlt r' rfl)

end Reader

end SmtpProxy.Lib
