import Mathlib.Algebra.Group.Int.Defs
import Mathlib.Algebra.Group.Nat.Defs
import Mathlib.Data.List.DropRight

/-!
# Go byte strings

A Go `string` and a Go `[]byte` are both sequences of bytes, so both are
`Bytes` here. Text constants are written with `ascii`. The functions are those
of Go's `strings` and `strconv` packages.
-/

namespace SmtpProxy.Lib

open List Option

/-- A Go `string` or `[]byte`. -/
abbrev Bytes := List UInt8

/-- What holds of the 256 byte values holds of every byte. -/
theorem forall_byte {p : UInt8 → Prop} (h : ∀ n : Fin 256, p (UInt8.ofNat n)) (b : UInt8) :
    p b := by
  have hb := h ⟨b.toNat, b.toNat_lt⟩
  rwa [UInt8.ofNat_toNat] at hb

def ascii (s : String) : Bytes := s.toList.map fun c => UInt8.ofNat c.toNat

/-- `strconv.Itoa`, and `%d` in a format string. -/
def itoa (n : Int) : Bytes := ascii (toString n)

def lf : UInt8 := 10

def cr : UInt8 := 13

def crlf : Bytes := [cr, lf]

def asciiLower (b : UInt8) : UInt8 := if 65 ≤ b ∧ b ≤ 90 then b + 32 else b

def indexOf (pat : Bytes) : Bytes → Option Nat
  | [] => if pat = [] then some 0 else none
  | b :: s => if pat.isPrefixOf (b :: s) then some 0 else (indexOf pat s).map (· + 1)

variable {s : Bytes}

theorem indexOf_some {pat : Bytes} {i : Nat} (h : indexOf pat s = some i) :
    ∃ front rest, s = front ++ pat ++ rest ∧ front.length = i := by
  induction s generalizing i with
  | nil =>
    rw [indexOf] at h
    split at h
    · next hp => exact ⟨[], [], by simp [hp], some.inj h⟩
    · cases h
  | cons b s ih =>
  rw [indexOf] at h
  split at h
  · next hp =>
    obtain ⟨rest, hrest⟩ := isPrefixOf_iff_prefix.1 hp
    exact ⟨[], rest, by simp [hrest], some.inj h⟩
  obtain ⟨j, hj, rfl⟩ := map_eq_some_iff.1 h
  obtain ⟨front, rest, rfl, rfl⟩ := ih hj
  exact ⟨b :: front, rest, rfl, rfl⟩

def lastIndexByte (c : UInt8) (s : Bytes) : Int :=
  if s.contains c then (s.length : Int) - 1 - (s.reverse.takeWhile (· ≠ c)).length else -1

variable {c : UInt8} {x : Bytes}

theorem lastIndexByte_append {y : Bytes} (h : c ∉ y) :
    lastIndexByte c (x ++ c :: y) = x.length := by
  have hstop : (x ++ c :: y).reverse.takeWhile (· ≠ c) = y.reverse := by
    rw [reverse_append, reverse_cons, append_assoc, singleton_append,
      takeWhile_append_of_pos, takeWhile_cons_of_neg (by simp), append_nil]
    intro b hb
    simpa using ne_of_mem_of_not_mem (mem_reverse.1 hb) h
  rw [lastIndexByte, if_pos (by simp), hstop, length_append, length_cons, length_reverse]
  omega

theorem exists_last_append (h : c ∈ s) : ∃ x y, s = x ++ c :: y ∧ c ∉ y := by
  obtain ⟨y, x, hs, hy⟩ := eq_append_cons_of_mem (mem_reverse.2 h)
  refine ⟨x.reverse, y.reverse, ?_, fun hmem => hy (mem_reverse.1 hmem)⟩
  rw [← s.reverse_reverse, hs]
  simp

def trimSet (cutset s : Bytes) : Bytes :=
  (s.dropWhile cutset.contains).rdropWhile cutset.contains

/-- What is cut off at both ends. -/
theorem trimSet_split (cutset s : Bytes) : ∃ p q, (∀ b ∈ p, cutset.contains b = true) ∧
    (∀ b ∈ q, cutset.contains b = true) ∧ s = p ++ (trimSet cutset s ++ q) := by
  refine ⟨s.takeWhile cutset.contains, (s.dropWhile cutset.contains).rtakeWhile cutset.contains,
    fun b => mem_takeWhile_imp, fun b => mem_rtakeWhile_imp, ?_⟩
  rw [trimSet, rdropWhile_append_rtakeWhile, takeWhile_append_dropWhile]

theorem trimSet_append {cutset p q : Bytes} (hp : ∀ b ∈ p, cutset.contains b = true)
    (hq : ∀ b ∈ q, cutset.contains b = true) (hne : s ≠ []) (hhead : ¬ cutset.contains (s.head hne) = true)
    (hlast : ¬ cutset.contains (s.getLast hne) = true) : trimSet cutset (p ++ (s ++ q)) = s := by
  have hfront : (s ++ q).dropWhile cutset.contains = s ++ q := by
    obtain ⟨b, t, rfl⟩ := exists_cons_of_ne_nil hne
    exact dropWhile_cons_of_neg hhead
  have hback : (s ++ q).rdropWhile cutset.contains = s.rdropWhile cutset.contains := by
    rw [rdropWhile, reverse_append, dropWhile_append_of_pos fun b hb => hq b (mem_reverse.1 hb)]
    rfl
  rw [trimSet, dropWhile_append_of_pos hp, hfront, hback]
  exact rdropWhile_eq_self_iff.2 fun _ => hlast

def joinWith (sep : Bytes) (parts : List Bytes) : Bytes := (parts.intersperse sep).flatten

theorem joinWith_cons (sep c : Bytes) (cs : List Bytes) :
    joinWith sep (c :: cs) = c ++ cs.flatMap (sep ++ ·) := by
  induction cs generalizing c with
  | nil => simp [joinWith]
  | cons d cs ih =>
    have hjoin : joinWith sep (c :: d :: cs) = c ++ (sep ++ joinWith sep (d :: cs)) := rfl
    rw [hjoin, ih, flatMap_cons, append_assoc]

/-! ## Parts that end in a byte of their own -/

/-- `strings.Cut` at a byte: what stands before its first occurrence and what follows it. -/
def cut (c : UInt8) : Bytes → Option (Bytes × Bytes)
  | [] => none
  | b :: s => if b = c then some ([], s) else (cut c s).map fun p => (b :: p.1, p.2)

theorem cut_append (hx : c ∉ x) (r : Bytes) : cut c (x ++ c :: r) = some (x, r) := by
  induction x with
  | nil => simp [cut]
  | cons a x ih =>
  have ha : a ≠ c := fun h => hx (h ▸ .head _)
  rw [cons_append, cut, if_neg ha, ih fun h => hx (.tail _ h)]
  rfl

theorem cut_eq_some {r : Bytes} (h : cut c s = some (x, r)) : s = x ++ c :: r ∧ c ∉ x := by
  induction s generalizing x with
  | nil => simp [cut] at h
  | cons b s ih =>
  rw [cut] at h
  split at h
  · next hb =>
    cases h
    exact ⟨by rw [hb, nil_append], not_mem_nil⟩
  next hb =>
  obtain ⟨p, hp, heq⟩ := map_eq_some_iff.1 h
  cases heq
  obtain ⟨hs, hnot⟩ := ih hp
  refine ⟨by rw [hs, cons_append], fun hc => ?_⟩
  obtain hc | hc := mem_cons.1 hc
  · exact hb hc.symm
  · exact hnot hc

theorem cut_inj {y r : Bytes} (hx : c ∉ x) (hy : c ∉ y) (h : x ++ c :: r = y ++ c :: s) :
    x = y ∧ r = s := by
  have hcut := cut_append hx r
  rw [h, cut_append hy] at hcut
  obtain ⟨hxy, hrs⟩ := Prod.mk.inj (some.inj hcut)
  exact ⟨hxy.symm, hrs.symm⟩

theorem terminated_inj {rest rest' : Bytes} : ∀ {xs ys : List Bytes},
    xs.length = ys.length → (∀ x ∈ xs, c ∉ x) → (∀ y ∈ ys, c ∉ y) →
    xs.flatMap (· ++ [c]) ++ rest = ys.flatMap (· ++ [c]) ++ rest' → xs = ys
  | [], [], _, _, _, _ => rfl
  | x :: xs, y :: ys, hlen, hx, hy, h => by
    simp only [flatMap_cons, append_assoc, cons_append, nil_append] at h
    obtain ⟨rfl, hrest⟩ := cut_inj (hx x (.head _)) (hy y (.head _)) h
    have hmore := terminated_inj (by simpa using hlen) (fun z hz => hx z (.tail _ hz))
      (fun z hz => hy z (.tail _ hz)) hrest
    rw [hmore]

/-! ## White space -/

/-- The UTF-8 encodings of the code points `unicode.IsSpace` accepts. -/
def spaceEncodings : List Bytes :=
  [[0x09], [0x0a], [0x0b], [0x0c], [0x0d], [0x20], [0xc2, 0x85], [0xc2, 0xa0],
    [0xe1, 0x9a, 0x80], [0xe2, 0x80, 0xa8], [0xe2, 0x80, 0xa9], [0xe2, 0x80, 0xaf],
    [0xe2, 0x81, 0x9f], [0xe3, 0x80, 0x80]]
  ++ (List.range 11).map fun i => [0xe2, 0x80, 0x80 + UInt8.ofNat i]

/-- Drop leading occurrences of the given words, at most `fuel` of them. -/
def stripLeading (words : List Bytes) : Nat → Bytes → Bytes
  | 0, s => s
  | fuel + 1, s =>
    match words.find? (·.isPrefixOf s) with
    | some w => stripLeading words fuel (s.drop w.length)
    | none => s

/-- `strings.TrimSpace`. A byte sequence that is not UTF-8 is never white space,
and no encoding of a space is a suffix of another, so the end is the mirror
image of the beginning. -/
def trimSpace (s : Bytes) : Bytes :=
  let left := stripLeading spaceEncodings s.length s
  (stripLeading (spaceEncodings.map List.reverse) left.length left.reverse).reverse

/-- What is dropped, and what is left. -/
theorem stripLeading_split (words : List Bytes) (fuel : Nat) (s : Bytes) :
    ∃ ws : List Bytes, (∀ w ∈ ws, w ∈ words) ∧ s = ws.flatten ++ stripLeading words fuel s := by
  induction fuel generalizing s with
  | zero => exact ⟨[], by simp, rfl⟩
  | succ fuel ih =>
  rw [stripLeading]
  split
  · next w hfind =>
    have hprefix := find?_some hfind
    obtain ⟨rest, rfl⟩ := isPrefixOf_iff_prefix.1 hprefix
    rw [drop_left]
    obtain ⟨ws, hws, hrest⟩ := ih rest
    refine ⟨w :: ws, forall_mem_cons.2 ⟨mem_of_find?_eq_some hfind, hws⟩, ?_⟩
    rw [flatten_cons, append_assoc, ← hrest]
  · exact ⟨[], by simp, rfl⟩

variable {words : List Bytes}

theorem stripLeading_done (hne : ∀ w ∈ words, w ≠ []) {fuel : Nat} (hfuel : s.length ≤ fuel) :
    ∀ w ∈ words, ¬ w.isPrefixOf (stripLeading words fuel s) = true := by
  induction fuel generalizing s with
  | zero =>
    intro w hw hprefix
    have hs : s = [] := eq_nil_of_length_eq_zero (by omega)
    rw [stripLeading, hs, isPrefixOf_iff_prefix, prefix_nil] at hprefix
    exact hne w hw hprefix
  | succ fuel ih =>
  rw [stripLeading]
  split
  · next w hfind =>
    apply ih
    have hpos := length_pos_iff.2 (hne w (mem_of_find?_eq_some hfind))
    rw [length_drop]
    omega
  · next hfind => exact fun w hw => find?_eq_none.1 hfind w hw

theorem stripLeading_of_none (h : ∀ w ∈ words, ¬ w.isPrefixOf s = true) (fuel : Nat) :
    stripLeading words fuel s = s := by
  cases fuel with
  | zero => rfl
  | succ fuel => rw [stripLeading, find?_eq_none.2 h]

/-- What is left neither begins nor ends with white space. -/
theorem trimSpace_ends (s : Bytes) {w : Bytes} (hw : w ∈ spaceEncodings) :
    ¬ w <+: trimSpace s ∧ ¬ w <:+ trimSpace s := by
  have hne : ∀ w ∈ spaceEncodings, w ≠ [] := by decide
  have hne' : ∀ w ∈ spaceEncodings.map List.reverse, w ≠ [] := by decide
  generalize hleft : stripLeading spaceEncodings s.length s = left
  have hfront := stripLeading_done hne (le_refl s.length)
  rw [hleft] at hfront
  have hend := stripLeading_done hne' (le_refl left.reverse.length)
  rw [length_reverse] at hend
  have htrim : trimSpace s =
      (stripLeading (spaceEncodings.map List.reverse) left.length left.reverse).reverse := by
    rw [trimSpace, hleft]
  -- what is left of `left` begins as `left` does
  have hprefix : trimSpace s <+: left := by
    rw [htrim, ← reverse_reverse left, reverse_prefix, reverse_reverse]
    obtain ⟨ws, -, hsplit⟩ :=
      stripLeading_split (spaceEncodings.map List.reverse) left.length left.reverse
    exact ⟨ws.flatten, hsplit.symm⟩
  constructor
  · exact fun hfound => hfront w hw ( isPrefixOf_iff_prefix.2 (hfound.trans hprefix))
  · intro hfound
    refine hend w.reverse (mem_map_of_mem hw) ( isPrefixOf_iff_prefix.2 ?_)
    rwa [htrim, ← reverse_prefix, reverse_reverse] at hfound

theorem trimSpace_eq_self (h : ∀ w ∈ spaceEncodings, ¬ w <+: s ∧ ¬ w <:+ s) : trimSpace s = s := by
  have hleft : stripLeading spaceEncodings s.length s = s :=
    stripLeading_of_none (fun w hw hp => (h w hw).1 ( isPrefixOf_iff_prefix.1 hp)) _
  have hright : stripLeading (spaceEncodings.map List.reverse) s.length s.reverse = s.reverse := by
    refine stripLeading_of_none (fun v hv hp => ?_) _
    obtain ⟨w, hw, rfl⟩ := mem_map.1 hv
    exact (h w hw).2 ( reverse_prefix.1 ( isPrefixOf_iff_prefix.1 hp))
  rw [trimSpace, hleft, hright, reverse_reverse]

theorem trimSpace_trimSpace (s : Bytes) : trimSpace (trimSpace s) = trimSpace s :=
  trimSpace_eq_self fun _ => trimSpace_ends s

/-- Nothing but white space. -/
def Blank (s : Bytes) : Prop := ∃ ws : List Bytes, (∀ w ∈ ws, w ∈ spaceEncodings) ∧ s = ws.flatten

theorem trimSpace_split (s : Bytes) : ∃ a b, Blank a ∧ Blank b ∧ s = a ++ trimSpace s ++ b := by
  obtain ⟨ws, hws, hs⟩ := stripLeading_split spaceEncodings s.length s
  generalize hleft : stripLeading spaceEncodings s.length s = left at hs
  obtain ⟨vs, hvs, hend⟩ :=
    stripLeading_split (spaceEncodings.map List.reverse) left.length left.reverse
  refine ⟨_, _, ⟨ws, hws, rfl⟩, ⟨(vs.map List.reverse).reverse, ?_, reverse_flatten⟩, ?_⟩
  · intro w hw
    obtain ⟨v, hv, rfl⟩ := mem_map.1 (mem_reverse.1 hw)
    obtain ⟨w, hw, rfl⟩ := mem_map.1 (hvs v hv)
    rwa [reverse_reverse]
  have hleft' := congrArg List.reverse hend
  rw [reverse_reverse, reverse_append] at hleft'
  rw [trimSpace, hleft, append_assoc, ← hleft', ← hs]

variable {b : UInt8}

theorem mem_of_mem_trimSpace (h : b ∈ trimSpace s) : b ∈ s := by
  obtain ⟨_, _, -, -, hs⟩ := trimSpace_split s
  rw [hs]
  exact mem_append_left _ (mem_append_right _ h)

theorem Blank.countP {p : UInt8 → Bool} (h : Blank s)
    (hp : ∀ w ∈ spaceEncodings, ∀ b ∈ w, p b = false) : s.countP p = 0 := by
  obtain ⟨ws, hws, rfl⟩ := h
  rw [countP_eq_zero]
  intro b hb
  obtain ⟨w, hw, hbw⟩ := mem_flatten.1 hb
  simp [hp w (hws w hw) b hbw]

theorem countP_trimSpace {p : UInt8 → Bool} (hp : ∀ w ∈ spaceEncodings, ∀ b ∈ w, p b = false)
    (s : Bytes) : (trimSpace s).countP p = s.countP p := by
  obtain ⟨a, b, ha, hb, hs⟩ := trimSpace_split s
  conv_rhs => rw [hs, countP_append, countP_append, ha.countP hp, hb.countP hp]
  omega

theorem mem_trimSpace (hb : ∀ w ∈ spaceEncodings, b ∉ w) (h : b ∈ s) : b ∈ trimSpace s := by
  have hcount := countP_trimSpace (p := (· == b)) (fun w hw c hc => by
    have hne : c ≠ b := fun heq => hb w hw (heq ▸ hc)
    simpa using hne) s
  have hpos : 0 < s.countP (· == b) := countP_pos_iff.2 ⟨b, h, by simp⟩
  rw [← hcount] at hpos
  obtain ⟨c, hc, hcb⟩ := countP_pos_iff.1 hpos
  rwa [← eq_of_beq hcb]

/-- Bytes that neither begin nor end the encoding of a space. -/
def isVisible (b : UInt8) : Bool := 33 ≤ b && b ≤ 126

theorem not_prefix_visible (hw : ∀ w ∈ words, (w.head?.any fun b => !isVisible b) = true)
    (hb : isVisible b = true) : ∀ w ∈ words, ¬ w.isPrefixOf (b :: s) = true := by
  intro w hmem hp
  have hhead := hw w hmem
  cases w with
  | nil => cases hhead
  | cons c w =>
  have hcb : c = b := by
    simp only [List.isPrefixOf, Bool.and_eq_true, beq_iff_eq] at hp
    exact hp.1
  rw [head?_cons, any_some, hcb, hb] at hhead
  cases hhead

/-- Of words none of which begins another, all are dropped. -/
theorem stripLeading_append (hfree : ∀ v ∈ words, ∀ w ∈ words, v <+: w → v = w)
    (hne : [] ∉ words) (hs : ∀ w ∈ words, ¬ w.isPrefixOf s = true) {ws : List Bytes}
    (hws : ∀ w ∈ ws, w ∈ words) {fuel : Nat} (hfuel : ws.flatten.length ≤ fuel) :
    stripLeading words fuel (ws.flatten ++ s) = s := by
  induction ws generalizing fuel with
  | nil => exact stripLeading_of_none hs fuel
  | cons w ws ih =>
  obtain ⟨hw, hws⟩ := forall_mem_cons.1 hws
  have hpos : 0 < w.length := length_pos_iff.2 fun hnil => hne (hnil ▸ hw)
  rw [flatten_cons, length_append] at hfuel
  obtain ⟨fuel, rfl⟩ : ∃ n, fuel = n + 1 := ⟨fuel - 1, by omega⟩
  have hfound : words.find? (·.isPrefixOf (w ++ (ws.flatten ++ s))) = some w := by
    cases hfind : words.find? (·.isPrefixOf (w ++ (ws.flatten ++ s))) with
    | none => exact absurd (by simp) (find?_eq_none.1 hfind w hw)
    | some v =>
    have hv := mem_of_find?_eq_some hfind
    have hprefix := find?_some hfind
    rw [ isPrefixOf_iff_prefix] at hprefix
    obtain hvw | hwv := prefix_or_prefix_of_prefix hprefix (prefix_append w _)
    · rw [hfree v hv w hw hvw]
    · rw [hfree w hw v hv hwv]
  rw [flatten_cons, append_assoc, stripLeading, hfound]
  dsimp only
  rw [drop_left]
  exact ih hws (by omega)

/-- **Blanks after a visible text are all that is trimmed from it.** -/
theorem trimSpace_blanks {blanks : Bytes} (hne : s ≠ []) (hhead : isVisible (s.head hne) = true)
    (hlast : isVisible (s.getLast hne) = true) (hb : ∀ b ∈ blanks, b = 32 ∨ b = 9) :
    trimSpace (s ++ blanks) = s := by
  have hwords : ∀ w ∈ spaceEncodings, (w.head?.any fun b => !isVisible b) = true := by decide
  have hrev : ∀ w ∈ spaceEncodings.map List.reverse,
      (w.head?.any fun b => !isVisible b) = true := by decide
  have hblank : ∀ w ∈ blanks.reverse.map fun b => [b], w ∈ spaceEncodings.map List.reverse := by
    intro w hw
    obtain ⟨b, hmem, rfl⟩ := mem_map.1 hw
    obtain rfl | rfl := hb b (mem_reverse.1 hmem) <;> decide
  have hleft : stripLeading spaceEncodings (s ++ blanks).length (s ++ blanks) = s ++ blanks := by
    cases s with
    | nil => exact absurd rfl hne
    | cons c cs => exact stripLeading_of_none (not_prefix_visible hwords hhead) _
  have hjoin : (blanks.reverse.map fun b => [b]).flatten = blanks.reverse := by
    induction blanks.reverse <;> simp_all
  have hsplit : (s ++ blanks).reverse =
      (blanks.reverse.map fun b => [b]).flatten ++ s.getLast hne :: s.dropLast.reverse := by
    conv_lhs => rw [← dropLast_append_getLast hne]
    rw [hjoin]
    simp
  rw [trimSpace, hleft, hsplit, stripLeading_append (by decide) (by decide)
    (not_prefix_visible hrev hlast) hblank (by rw [hjoin]; simp), reverse_cons, reverse_reverse,
    dropLast_append_getLast hne]

example : trimSpace (ascii "  a b\r\n" ++ [0xc2, 0xa0]) = ascii "a b" := by decide

/-! ## Numbers -/

def isDigit (c : UInt8) : Bool := 48 ≤ c && c ≤ 57

/-- Read digits, most significant first, behind those that make up `n`. -/
def parseDigits (n : Nat) : Bytes → Option Nat
  | [] => some n
  | c :: s => if isDigit c then parseDigits (n * 10 + (c.toNat - 48)) s else none

def parseUnsigned (s : Bytes) : Option Nat := if s = [] then none else parseDigits 0 s

def atoi (s : Bytes) : Option Int :=
  let value : Option Int :=
    match s with
    | 43 :: digits => (parseUnsigned digits).map fun n => (n : Int)
    | 45 :: digits => (parseUnsigned digits).map fun n => -(n : Int)
    | digits => (parseUnsigned digits).map fun n => (n : Int)
  value.filter fun n => -2 ^ 63 ≤ n && n < 2 ^ 63

def parseUint (bits : Nat) (s : Bytes) : Option Nat := (parseUnsigned s).filter (· < 2 ^ bits)

/-- White space in front of what is scanned, at most `fuel` pieces of it; a line feed is not
skipped but refused. -/
def skipSpace : Nat → Bytes → Option Bytes
  | 0, s => some s
  | fuel + 1, s =>
    match spaceEncodings.find? (·.isPrefixOf s) with
    | none => some s
    | some w => if w = [lf] then none else skipSpace fuel (s.drop w.length)

/-- `%d` of `fmt.Sscanf` into an `int`. What stands behind the number is left unread. -/
def scanInt (s : Bytes) : Option Int :=
  match skipSpace s.length s with
  | none => none
  | some [] => none
  | some (c :: rest) =>
    if c = 43 ∨ c = 45 then atoi (c :: rest.takeWhile isDigit)
    else atoi ((c :: rest).takeWhile isDigit)

/-- The `int64` a sum, a difference or a product comes to. -/
def int64 (n : Int) : Int := (n + 2 ^ 63) % 2 ^ 64 - 2 ^ 63

theorem int64_eq {n : Int} (hlo : -2 ^ 63 ≤ n) (hhi : n < 2 ^ 63) : int64 n = n := by
  unfold int64
  omega

theorem int64_lt (n : Int) : int64 n < 2 ^ 63 := by
  unfold int64
  omega

theorem itoa_eq (n : Nat) : itoa n = (Nat.toDigits 10 n).map fun c => UInt8.ofNat c.toNat := by
  rw [itoa, ascii, show toString (n : Int) = n.repr from rfl, Nat.repr_eq_ofList_toDigits,
    String.toList_ofList]

theorem parseDigits_append (n : Nat) (s t : Bytes) :
    parseDigits n (s ++ t) = (parseDigits n s).bind fun m => parseDigits m t := by
  induction s generalizing n with
  | nil => rfl
  | cons c s ih =>
  rw [cons_append, parseDigits, parseDigits]
  split
  · exact ih _
  · rfl

theorem digitChar_byte {d : Nat} (hd : d < 10) :
    UInt8.ofNat (Nat.digitChar d).toNat = UInt8.ofNat (48 + d) := by
  have hall : ∀ d : Fin 10, UInt8.ofNat (Nat.digitChar d).toNat = UInt8.ofNat (48 + d) := by decide
  exact hall ⟨d, hd⟩

variable {n : Nat}

theorem itoa_of_lt (h : n < 10) : itoa n = [UInt8.ofNat (48 + n)] := by
  rw [itoa_eq, Nat.toDigits_of_lt_base h, map_singleton, digitChar_byte h]

/-- All digits but the last are those of `n / 10`. -/
theorem itoa_of_le (h : 10 ≤ n) : itoa n = itoa ↑(n / 10) ++ [UInt8.ofNat (48 + n % 10)] := by
  rw [itoa_eq, Nat.toDigits_of_base_le (by omega) h, map_append, ← itoa_eq, map_singleton,
    digitChar_byte (Nat.mod_lt _ (by omega))]

theorem parseDigits_digit (m : Nat) {d : Nat} (hd : d < 10) :
    parseDigits m [UInt8.ofNat (48 + d)] = some (m * 10 + d) := by
  have hall : ∀ d : Fin 10, isDigit (UInt8.ofNat (48 + d)) = true ∧
      (UInt8.ofNat (48 + d)).toNat - 48 = d := by decide
  obtain ⟨hdigit, hvalue⟩ := hall ⟨d, hd⟩
  rw [parseDigits, if_pos hdigit, hvalue, parseDigits]

theorem parseDigits_itoa (n : Nat) : parseDigits 0 (itoa n) = some n := by
  induction n using Nat.strong_induction_on with
  | _ n ih =>
  by_cases hn : n < 10
  · rw [itoa_of_lt hn, parseDigits_digit 0 hn, Nat.zero_mul, Nat.zero_add]
  rw [itoa_of_le (by omega), parseDigits_append, ih (n / 10) (by omega), bind_some,
    parseDigits_digit _ (Nat.mod_lt _ (by omega)), Nat.div_add_mod' n 10]

theorem itoa_ne_nil (n : Nat) : itoa n ≠ [] := by
  rw [itoa_eq, ne_eq, map_eq_nil_iff]
  exact Nat.toDigits_ne_nil

theorem itoa_digit (h : b ∈ itoa n) : isDigit b = true := by
  rw [itoa_eq] at h
  obtain ⟨c, hc, rfl⟩ := mem_map.1 h
  have hdigit := Nat.isDigit_of_mem_toDigits (by omega) (by omega) hc
  have hrange : 48 ≤ c.toNat ∧ c.toNat ≤ 57 := by
    simpa [Char.isDigit, UInt32.le_iff_toNat_le] using hdigit
  obtain ⟨hlo, hhi⟩ := hrange
  rw [isDigit, Bool.and_eq_true, decide_eq_true_eq, decide_eq_true_eq, UInt8.le_iff_toNat_le,
    UInt8.le_iff_toNat_le, UInt8.toNat_ofNat_of_lt' (show c.toNat < UInt8.size by
      simp only [UInt8.size]; omega)]
  exact ⟨hlo, hhi⟩

theorem itoa_length {k : Nat} (hk : 0 < k) (h : n < 10 ^ k) : (itoa n).length ≤ k := by
  rw [itoa_eq, length_map]
  exact (Nat.length_toDigits_le_iff (by omega) hk).2 h

theorem parseUnsigned_itoa (n : Nat) : parseUnsigned (itoa n) = some n := by
  rw [parseUnsigned, if_neg (itoa_ne_nil n), parseDigits_itoa]

theorem parseUint_itoa {bits : Nat} (h : n < 2 ^ bits) : parseUint bits (itoa n) = some n := by
  rw [parseUint, parseUnsigned_itoa, filter_some, if_pos (decide_eq_true h)]

/-- **A number that fits is read back.** -/
theorem atoi_itoa (h : n < 2 ^ 63) : atoi (itoa n) = some (n : Int) := by
  have hparse := parseUnsigned_itoa n
  have hvalue : atoi (itoa n) = (some (n : Int)).filter fun n => -2 ^ 63 ≤ n && n < 2 ^ 63 := by
    -- a digit is not a sign
    unfold atoi
    cases hcases : itoa n with
    | nil => exact absurd hcases (itoa_ne_nil n)
    | cons c s =>
    have hdigit : isDigit c = true := itoa_digit (n := n) (by rw [hcases]; exact .head _)
    rw [hcases] at hparse
    split
    · next heq => rw [(List.cons.inj heq).1] at hdigit; exact absurd hdigit (by decide)
    · next heq => rw [(List.cons.inj heq).1] at hdigit; exact absurd hdigit (by decide)
    rw [hparse]
    rfl
  rw [hvalue, filter_some, if_pos]
  simp only [Bool.and_eq_true, decide_eq_true_eq]
  omega

end SmtpProxy.Lib
