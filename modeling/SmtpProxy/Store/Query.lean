import SmtpProxy.Store.Audit

/-!
# Queries with a filter

The placeholders of `internal/store/dialect.go` and the queries that the `List`
and `Count` of messages and of the audit log execute. The code writes a `?` for
each value and passes the values beside the text; `rebindDollar` turns the `?`
outside quotes into `$1`, `$2`, ….

`build` appends to two slices, one of clauses and one of arguments. What it should
ask is said apart from it: each field that is set compares columns of its own with
its value (`comparisons`), and a comparison has a placeholder for each value. The
query then consists of parts with the values for their own placeholders
(`Query.Binds`), so that the numbers `rebindDollar` gives out are the positions of
the arguments. A time is a number here, with 0 for the zero time.
-/

namespace SmtpProxy.Store

open Lib List

/-! ## Placeholders -/

/-- The loop of `itoa`, with `room` bytes of its buffer left; the index is out of
range when they do not suffice. -/
def Dialect.writeDigits : (room n : Nat) → Bytes → Option Bytes
  | 0, n, buf => if n = 0 then some buf else none
  | room + 1, n, buf =>
    if n = 0 then some buf else writeDigits room (n / 10) (UInt8.ofNat (48 + n % 10) :: buf)

/-- `itoa` of the dialects. -/
def Dialect.itoa (n : Nat) : Option Bytes :=
  if n < 10 then some [UInt8.ofNat (48 + n)] else writeDigits 8 n []

/-- The loop of `rebindDollar` after `n` placeholders. -/
def rebindFrom (inSingle inDouble : Bool) (n : Nat) : Bytes → Option Bytes
  | [] => some []
  | c :: rest =>
    if inSingle then
      if c = 39 then
        match rest with
        | [] => some [c]
        | d :: after =>
          if d = 39 then (rebindFrom true inDouble n after).map ([c, d] ++ ·)
          else (rebindFrom false inDouble n (d :: after)).map ([c] ++ ·)
      else (rebindFrom true inDouble n rest).map ([c] ++ ·)
    else if inDouble then (rebindFrom false (c != 34) n rest).map ([c] ++ ·)
    else if c = 39 then (rebindFrom true false n rest).map ([c] ++ ·)
    else if c = 34 then (rebindFrom false true n rest).map ([c] ++ ·)
    else if c = 63 then
      (Dialect.itoa (n + 1)).bind fun k => (rebindFrom false false (n + 1) rest).map ([36] ++ k ++ ·)
    else (rebindFrom false false n rest).map ([c] ++ ·)

def rebindDollar (query : Bytes) : Option Bytes := rebindFrom false false 0 query

inductive Dialect where
  | sqlite
  | postgres

def Dialect.rebind : Dialect → Bytes → Option Bytes
  | .sqlite, query => some query
  | .postgres, query => rebindDollar query

/-- The part of a query a byte is in. -/
inductive Region where
  | code
  | single
  | double
  deriving DecidableEq

/-- A doubled quote closes a literal and opens it again. -/
def Region.next (r : Region) (c : UInt8) : Region :=
  match r with
  | .code => if c = 39 then .single else if c = 34 then .double else .code
  | .single => if c = 39 then .code else .single
  | .double => if c = 34 then .code else .double

def Region.inSingle : Region → Bool
  | .single => true
  | _ => false

def Region.inDouble : Region → Bool
  | .double => true
  | _ => false

/-- The query with its placeholders numbered, after `k` of them. -/
def dollars (r : Region) (k : Nat) : Bytes → Bytes
  | [] => []
  | c :: q =>
    if r = .code ∧ c = 63 then 36 :: itoa ↑(k + 1) ++ dollars r (k + 1) q
    else c :: dollars (r.next c) k q

def placeholders (r : Region) : Bytes → Nat
  | [] => 0
  | c :: q => if r = .code ∧ c = 63 then placeholders r q + 1 else placeholders (r.next c) q

theorem placeholders_le (r : Region) (q : Bytes) : placeholders r q ≤ q.count 63 := by
  induction q generalizing r with
  | nil => exact le_rfl
  | cons c q ih =>
  rw [placeholders]
  split
  · next h => rw [h.2, count_cons_self]; exact Nat.succ_le_succ (ih r)
  · exact (ih _).trans count_le_count_cons

theorem Dialect.writeDigits_eq (room : Nat) {n : Nat} (hn : 0 < n) (buf : Bytes) :
    writeDigits room n buf = if n < 10 ^ room then some (Lib.itoa n ++ buf) else none := by
  induction room generalizing n buf with
  | zero => rw [writeDigits, if_neg (by omega), if_neg (by omega)]
  | succ room ih =>
  rw [writeDigits, if_neg (by omega)]
  by_cases hlt : n < 10
  · have hpow : n < 10 ^ (room + 1) := hlt.trans_le (Nat.le_self_pow (by omega) 10)
    rw [if_pos hpow, itoa_of_lt hlt, Nat.div_eq_of_lt hlt, Nat.mod_eq_of_lt hlt]
    cases room <;> rfl
  rw [ih (by omega), itoa_of_le (show 10 ≤ n by omega), append_assoc, Nat.pow_succ]
  simp only [Nat.div_lt_iff_lt_mul (show 0 < 10 by omega), singleton_append]

theorem Dialect.itoa_eq (n : Nat) :
    Dialect.itoa n = if n < 10 ^ 8 then some (Lib.itoa n) else none := by
  rw [Dialect.itoa]
  split
  · next h => rw [if_pos (by omega), itoa_of_lt h]
  · next h => rw [writeDigits_eq 8 (by omega), append_nil]

/-- In a literal a quote is copied, and a second one after it as the code outside copies it. -/
theorem rebindFrom_quote (n : Nat) (q : Bytes) :
    rebindFrom true false n (39 :: q) = (rebindFrom false false n q).map ([39] ++ ·) := by
  cases q with
  | nil => rfl
  | cons c q =>
  by_cases hc : c = 39
  · subst hc
    have hopen : rebindFrom false false n (39 :: q) =
        (rebindFrom true false n q).map ([39] ++ ·) := by
      rw [rebindFrom.eq_def]
      simp
    rw [hopen, Option.map_map]
    rfl
  rw [rebindFrom.eq_def]
  simp [hc]

theorem rebindFrom_copy {r : Region} {c : UInt8} (hc : ¬ (r = .code ∧ c = 63)) (n : Nat)
    (q : Bytes) : rebindFrom r.inSingle r.inDouble n (c :: q) =
      (rebindFrom (r.next c).inSingle (r.next c).inDouble n q).map ([c] ++ ·) := by
  cases r with
  | single =>
    by_cases h : c = 39
    · subst h
      exact rebindFrom_quote n q
    rw [rebindFrom.eq_def]
    simp [Region.next, Region.inSingle, Region.inDouble, h]
  | double =>
    rw [rebindFrom.eq_def]
    by_cases h : c = 34
    · simp [Region.next, Region.inSingle, Region.inDouble, h]
    · simp [Region.next, Region.inSingle, Region.inDouble, h, bne_iff_ne.2 h]
  | code =>
  rw [rebindFrom.eq_def]
  have hc : c ≠ 63 := fun h => hc ⟨rfl, h⟩
  by_cases h : c = 39
  · simp [Region.next, Region.inSingle, Region.inDouble, h]
  · by_cases h' : c = 34 <;> simp [Region.next, Region.inSingle, Region.inDouble, h, h', hc]

theorem rebindFrom_eq (r : Region) {n : Nat} (hn : n < 10 ^ 8) (q : Bytes) :
    rebindFrom r.inSingle r.inDouble n q =
      if n + placeholders r q < 10 ^ 8 then some (dollars r n q) else none := by
  induction q generalizing r n with
  | nil => exact (if_pos hn).symm
  | cons c q ih =>
  simp only [placeholders, dollars]
  by_cases hc : r = .code ∧ c = 63
  · simp only [if_pos hc]
    obtain ⟨rfl, rfl⟩ := hc
    have hstep : rebindFrom false false n (63 :: q) = (Dialect.itoa (n + 1)).bind fun k =>
        (rebindFrom false false (n + 1) q).map ([36] ++ k ++ ·) := by
      rw [rebindFrom.eq_def]
      rfl
    refine hstep.trans ?_
    rw [Dialect.itoa_eq]
    by_cases hroom : n + 1 < 10 ^ 8
    · rw [if_pos hroom, Option.bind_some]
      refine (congrArg _ (ih .code hroom)).trans ?_
      rw [show n + (placeholders .code q + 1) = n + 1 + placeholders .code q by omega]
      split <;> rfl
    rw [if_neg hroom, if_neg (by omega)]
    rfl
  simp only [rebindFrom_copy hc, ih _ hn, if_neg hc]
  split <;> rfl

/-! ## The filters -/

/-- An argument of a query. -/
inductive Value where
  | text (t : Bytes)
  | time (t : Int)
  | int (n : Int)

/-- The two slices of `build`. -/
structure Building where
  clauses : List Bytes := []
  args : List Value := []

/-- The results of `build`. -/
def Building.result (b : Building) : Bytes × List Value :=
  (if b.clauses.length = 0 then [] else ascii " WHERE " ++ joinWith (ascii " AND ") b.clauses, b.args)

/-- `MessageFilter.build`, up to its return. -/
def MessageFilter.build (f : MessageFilter) : Building :=
  let b : Building := {}
  let b := if f.status.length > 0 then
      { clauses := b.clauses ++ [ascii "status IN (" ++
          joinWith (ascii ", ") (f.status.map fun _ => ascii "?") ++ ascii ")"]
        args := b.args ++ f.status.map .text }
    else b
  let b := if f.mailboxID ≠ [] then
      { clauses := b.clauses ++ [ascii "mailbox_id = ?"], args := b.args ++ [.text f.mailboxID] }
    else b
  let b := if f.accountID ≠ [] then
      { clauses := b.clauses ++ [ascii "smtp_account_id = ?"], args := b.args ++ [.text f.accountID] }
    else b
  let b := if f.search ≠ [] then
      let like := .text (ascii "%" ++ f.search ++ ascii "%")
      { clauses := b.clauses ++
          [ascii "(envelope_from LIKE ? OR header_from LIKE ? OR recipients LIKE ?)"]
        args := b.args ++ [like, like, like] }
    else b
  let b := if f.since ≠ 0 then
      { clauses := b.clauses ++ [ascii "received_at >= ?"], args := b.args ++ [.time f.since] }
    else b
  if f.until_ ≠ 0 then
    { clauses := b.clauses ++ [ascii "received_at <= ?"], args := b.args ++ [.time f.until_] }
  else b

/-- `AuditFilter.build`, up to its return. -/
def AuditFilter.build (f : AuditFilter) : Building :=
  let b : Building := {}
  let b := if f.actorID ≠ [] then
      { clauses := b.clauses ++ [ascii "actor_id = ?"], args := b.args ++ [.text f.actorID] }
    else b
  let b := if f.action ≠ [] then
      { clauses := b.clauses ++ [ascii "action = ?"], args := b.args ++ [.text f.action] }
    else b
  let b := if f.targetType ≠ [] then
      { clauses := b.clauses ++ [ascii "target_type = ?"], args := b.args ++ [.text f.targetType] }
    else b
  let b := if f.targetID ≠ [] then
      { clauses := b.clauses ++ [ascii "target_id = ?"], args := b.args ++ [.text f.targetID] }
    else b
  let b := if f.since ≠ 0 then
      { clauses := b.clauses ++ [ascii "at >= ?"], args := b.args ++ [.time f.since] }
    else b
  if f.until_ ≠ 0 then
    { clauses := b.clauses ++ [ascii "at <= ?"], args := b.args ++ [.time f.until_] }
  else b

/-- A table and how it is listed. -/
inductive Log where
  | messages
  | audit

/-- `messageColumns` and `auditColumns`. -/
def Log.columns : Log → Bytes
  | messages => ascii "\n\tid, smtp_account_id, mailbox_id, account_username, mailbox_address," ++
    ascii "\n\tenvelope_from, header_from, recipients, recipient_count, size_bytes," ++
    ascii "\n\tsubject, message_id, status, attempts, next_attempt_at," ++
    ascii "\n\tlease_owner, lease_expires_at, last_error, last_error_code," ++
    ascii "\n\tlast_error_permanent, client_ip, blob_ref, received_at, sent_at, updated_at, origin"
  | audit => ascii "\n\tid, at, actor_type, actor_id, actor_name, action," ++
    ascii "\n\ttarget_type, target_id, target_name, details, result, ip, user_agent"

def Log.table : Log → Bytes
  | messages => ascii " FROM messages"
  | audit => ascii " FROM audit_logs"

def Log.ending : Log → Bytes
  | messages => ascii " ORDER BY received_at DESC, id DESC LIMIT ? OFFSET ?"
  | audit => ascii " ORDER BY at DESC, id DESC LIMIT ? OFFSET ?"

structure Query where
  text : Bytes
  args : List Value

inductive Filter where
  | messages (f : MessageFilter)
  | audit (f : AuditFilter)

namespace Filter

def log : Filter → Log
  | messages _ => .messages
  | audit _ => .audit

def build : Filter → Bytes × List Value
  | messages f => f.build.result
  | audit f => f.build.result

/-- The arguments `List` adds. -/
def page : Filter → List Value
  | messages f => [.int (pageSize f.limit), .int f.offset]
  | audit f => [.int (pageSize f.limit), .int f.offset]

def count (f : Filter) : Query where
  text := ascii "SELECT COUNT(*)" ++ f.log.table ++ f.build.1
  args := f.build.2

def list (f : Filter) : Query where
  text := ascii "SELECT " ++ f.log.columns ++ f.log.table ++ f.build.1 ++ f.log.ending
  args := f.build.2 ++ f.page

/-- The number of statuses and which fields are set. -/
def fields : Filter → Nat × List Bool
  | messages f => (f.status.length, [decide (f.mailboxID ≠ []), decide (f.accountID ≠ []),
      decide (f.search ≠ []), decide (f.since ≠ 0), decide (f.until_ ≠ 0)])
  | audit f => (0, [decide (f.actorID ≠ []), decide (f.action ≠ []), decide (f.targetType ≠ []),
      decide (f.targetID ≠ []), decide (f.since ≠ 0), decide (f.until_ ≠ 0)])

end Filter

/-! ## What a filter asks

Said without `build`: each field that is set compares columns of its own with its value. -/

/-- What is asked of the columns of a row. -/
inductive Comparison where
  | oneOf (column : String) (values : List Bytes)
  | compare (column operator : String) (value : Value)
  | like (columns : List String) (pattern : Bytes)

/-- A piece of a query, and the values its placeholders stand for. -/
abbrev Part := Bytes × List Value

/-- The comparison in SQL: a placeholder next to each column stands for what it is compared with. -/
def Comparison.part : Comparison → Part
  | oneOf column values => (ascii column ++ ascii " IN (" ++
      joinWith (ascii ", ") (values.map fun _ => ascii "?") ++ ascii ")", values.map .text)
  | compare column operator value =>
      (ascii column ++ ascii " " ++ ascii operator ++ ascii " ?", [value])
  | like columns pattern => (ascii "(" ++
      joinWith (ascii " OR ") (columns.map fun c => ascii c ++ ascii " LIKE ?") ++ ascii ")",
      columns.map fun _ => .text pattern)

def given {α : Type} (set : Bool) (x : α) : List α := if set then [x] else []

def MessageFilter.comparisons (f : MessageFilter) : List Comparison :=
  [] ++ given (f.status.length > 0) (.oneOf "status" f.status) ++
  given (f.mailboxID ≠ []) (.compare "mailbox_id" "=" (.text f.mailboxID)) ++
  given (f.accountID ≠ []) (.compare "smtp_account_id" "=" (.text f.accountID)) ++
  given (f.search ≠ []) (.like ["envelope_from", "header_from", "recipients"]
    (ascii "%" ++ f.search ++ ascii "%")) ++
  given (f.since ≠ 0) (.compare "received_at" ">=" (.time f.since)) ++
  given (f.until_ ≠ 0) (.compare "received_at" "<=" (.time f.until_))

def AuditFilter.comparisons (f : AuditFilter) : List Comparison :=
  [] ++ given (f.actorID ≠ []) (.compare "actor_id" "=" (.text f.actorID)) ++
  given (f.action ≠ []) (.compare "action" "=" (.text f.action)) ++
  given (f.targetType ≠ []) (.compare "target_type" "=" (.text f.targetType)) ++
  given (f.targetID ≠ []) (.compare "target_id" "=" (.text f.targetID)) ++
  given (f.since ≠ 0) (.compare "at" ">=" (.time f.since)) ++
  given (f.until_ ≠ 0) (.compare "at" "<=" (.time f.until_))

namespace Filter

/-- The clauses of the filter. -/
def clauses : Filter → List Part
  | messages f => f.comparisons.map Comparison.part
  | audit f => f.comparisons.map Comparison.part

/-- The clauses between what joins them. -/
def joined : List Part → List Part
  | [] => []
  | c :: cs => (ascii " WHERE ", []) :: c :: cs.flatMap fun c => [(ascii " AND ", []), c]

def counted (f : Filter) : List Part :=
  (ascii "SELECT COUNT(*)" ++ f.log.table, []) :: joined f.clauses

def listed (f : Filter) : List Part :=
  (ascii "SELECT " ++ f.log.columns ++ f.log.table, []) :: joined f.clauses ++ [(f.log.ending, f.page)]

end Filter

/-! ## Every part has its arguments -/

/-- The part has as many placeholders as arguments, and no quote or `$`. -/
def Part.Aligned (p : Part) : Prop := p.1.count 63 = p.2.length ∧ p.1.all (· ∉ ascii "'\"$") = true

/-- The parts with every placeholder numbered by the position of its argument, after `k`
arguments. -/
def numbered (k : Nat) : List Part → Bytes
  | [] => []
  | p :: parts => dollars .code k p.1 ++ numbered (k + p.2.length) parts

/-- The query consists of the parts. -/
structure Query.Binds (q : Query) (parts : List Part) : Prop where
  text : q.text = parts.flatMap (·.1)
  args : q.args = parts.flatMap (·.2)
  aligned : ∀ p ∈ parts, p.Aligned
  -- `itoa` has room for eight digits
  rebound : Dialect.postgres.rebind q.text =
    if q.args.length < 10 ^ 8 then some (numbered 0 parts) else none

theorem plain_append {t : Bytes} (h : t.all (· ∉ ascii "'\"$") = true) (k : Nat) (u : Bytes) :
    placeholders .code (t ++ u) = t.count 63 + placeholders .code u ∧
      dollars .code k (t ++ u) = dollars .code k t ++ dollars .code (k + t.count 63) u := by
  induction t generalizing k with
  | nil => exact ⟨(Nat.zero_add _).symm, rfl⟩
  | cons c t ih =>
  obtain ⟨hc, ht⟩ := Bool.and_eq_true_iff.1 h
  have hnext : Region.next .code c = .code := by
    have hquote : ¬ c = 39 ∧ ¬ c = 34 := by
      constructor <;> rintro rfl <;> revert hc <;> decide
    simp [Region.next, hquote]
  have hcount := (ih ht k).1
  by_cases hmark : c = 63
  · subst hmark
    simp [placeholders, dollars, hcount, ih ht, Nat.add_assoc, Nat.add_comm 1]
  · simp [placeholders, dollars, hnext, hmark, hcount, ih ht]

theorem parts_eq {parts : List Part} (h : ∀ p ∈ parts, p.Aligned) (k : Nat) :
    placeholders .code (parts.flatMap (·.1)) = (parts.flatMap (·.2)).length ∧
      dollars .code k (parts.flatMap (·.1)) = numbered k parts := by
  induction parts generalizing k with
  | nil => exact ⟨rfl, rfl⟩
  | cons p parts ih =>
  obtain ⟨hp, hparts⟩ := forall_mem_cons.1 h
  have hsplit := plain_append hp.2 k (parts.flatMap (·.1))
  have hcount := (ih hparts k).1
  simp only [flatMap_cons, length_append, numbered, hsplit, hp.1, hcount, ih hparts, and_self]

theorem Query.Binds.of_eq {q : Query} {parts : List Part} (htext : q.text = parts.flatMap (·.1))
    (hargs : q.args = parts.flatMap (·.2)) (h : ∀ p ∈ parts, p.Aligned) : q.Binds parts := by
  refine ⟨htext, hargs, h, ?_⟩
  rw [htext, hargs, ← (parts_eq h 0).1, ← (parts_eq h 0).2, ← Nat.zero_add (placeholders _ _)]
  exact rebindFrom_eq .code (by omega) _

/-! ## `build` asks that -/

namespace Building

/-- The slices after these comparisons. -/
def of (cs : List Comparison) : Building where
  clauses := cs.map (·.part.1)
  args := cs.flatMap (·.part.2)

/-- One `if` of `build`. -/
theorem of_append_given (cs : List Comparison) (set : Prop) [Decidable set] (c : Comparison) :
    of (cs ++ given set c) = if set then
      { clauses := (of cs).clauses ++ [c.part.1], args := (of cs).args ++ c.part.2 } else of cs := by
  by_cases h : set
  · simp [of, given, h]
  · simp [given, h]

theorem messages_eq (f : MessageFilter) : f.build = of f.comparisons := by
  simp only [MessageFilter.comparisons, of_append_given]
  rfl

theorem audit_eq (f : AuditFilter) : f.build = of f.comparisons := by
  simp only [AuditFilter.comparisons, of_append_given]
  rfl

end Building

namespace Filter

theorem joined_eq (cs : List Comparison) :
    (Building.of cs).result = ((joined (cs.map Comparison.part)).flatMap (·.1),
      (joined (cs.map Comparison.part)).flatMap (·.2)) := by
  cases cs with
  | nil => rfl
  | cons c cs =>
    simp [Building.of, Building.result, joined, joinWith_cons, flatMap_assoc, flatMap_map]

theorem build_eq (f : Filter) :
    f.build = ((joined f.clauses).flatMap (·.1), (joined f.clauses).flatMap (·.2)) := by
  cases f with
  | messages f => exact (congrArg _ (Building.messages_eq f)).trans (joined_eq _)
  | audit f => exact (congrArg _ (Building.audit_eq f)).trans (joined_eq _)

theorem map_given {α β : Type} (g : α → β) (set : Bool) (x : α) :
    (given set x).map g = given set (g x) := by
  cases set <;> rfl

theorem forall_given (set : Bool) {p : Part} (h : p.Aligned) : ∀ c ∈ given set p, c.Aligned := by
  cases set <;> simp [given, h]

theorem aligned_status (status : List Bytes) : (Comparison.oneOf "status" status).part.Aligned := by
  cases status with
  | nil => exact ⟨rfl, rfl⟩
  | cons s status =>
  rw [Part.Aligned, Comparison.part, map_cons, joinWith_cons]
  have hmarks : ((status.map fun _ => ascii "?").flatMap (ascii ", " ++ ·)).count 63 =
      status.length ∧ ((status.map fun _ => ascii "?").flatMap (ascii ", " ++ ·)).all
        (· ∉ ascii "'\"$") = true := by
    induction status with
    | nil => exact ⟨rfl, rfl⟩
    | cons s status ih =>
    rw [map_cons, flatMap_cons, count_append, all_append, ih.1, ih.2, length_cons, Nat.add_comm]
    exact ⟨rfl, rfl⟩
  rw [count_append, count_append, count_append, count_append, hmarks.1, all_append, all_append,
    all_append, all_append, hmarks.2, length_map]
  exact ⟨show 0 + 0 + (1 + status.length) + 0 = status.length + 1 by omega, rfl⟩

theorem aligned_clauses (f : Filter) : ∀ c ∈ f.clauses, c.Aligned := by
  cases f with
  | messages f =>
    simp only [clauses, MessageFilter.comparisons, map_append, map_given, forall_mem_append]
    refine ⟨⟨⟨⟨⟨⟨forall_mem_nil _, forall_given _ (aligned_status f.status)⟩, forall_given _ ⟨rfl, rfl⟩⟩,
      forall_given _ ⟨rfl, rfl⟩⟩, forall_given _ ⟨rfl, rfl⟩⟩, forall_given _ ⟨rfl, rfl⟩⟩,
      forall_given _ ⟨rfl, rfl⟩⟩
  | audit f =>
    simp only [clauses, AuditFilter.comparisons, map_append, map_given, forall_mem_append]
    exact ⟨⟨⟨⟨⟨⟨forall_mem_nil _, forall_given _ ⟨rfl, rfl⟩⟩, forall_given _ ⟨rfl, rfl⟩⟩,
      forall_given _ ⟨rfl, rfl⟩⟩, forall_given _ ⟨rfl, rfl⟩⟩, forall_given _ ⟨rfl, rfl⟩⟩,
      forall_given _ ⟨rfl, rfl⟩⟩

theorem aligned_joined {cs : List Part} (h : ∀ c ∈ cs, c.Aligned) : ∀ p ∈ joined cs, p.Aligned := by
  cases cs with
  | nil => simp [joined]
  | cons c cs =>
  obtain ⟨hc, hcs⟩ := forall_mem_cons.1 h
  refine forall_mem_cons.2 ⟨⟨rfl, rfl⟩, forall_mem_cons.2 ⟨hc, fun p hp => ?_⟩⟩
  obtain ⟨c', hc', hp⟩ := mem_flatMap.1 hp
  rcases mem_pair.1 hp with rfl | rfl
  · exact ⟨rfl, rfl⟩
  · exact hcs _ hc'

theorem binds_counted (f : Filter) : f.count.Binds f.counted := by
  refine .of_eq ?_ ?_ (forall_mem_cons.2 ⟨?_, aligned_joined f.aligned_clauses⟩)
  · simp [count, counted, build_eq]
  · simp [count, counted, build_eq]
  · cases f <;> exact ⟨rfl, rfl⟩

theorem aligned_columns (l : Log) : Part.Aligned (ascii "SELECT " ++ l.columns ++ l.table, []) := by
  cases l <;> exact ⟨by decide +kernel, by decide +kernel⟩

theorem binds_listed (f : Filter) : f.list.Binds f.listed := by
  refine .of_eq ?_ ?_ (forall_mem_append.2 ⟨forall_mem_cons.2
    ⟨?_, aligned_joined f.aligned_clauses⟩, forall_mem_singleton.2 ?_⟩)
  · simp [list, listed, build_eq]
  · simp [list, listed, build_eq]
  · exact aligned_columns f.log
  · cases f <;> exact ⟨rfl, rfl⟩

/-- The text of a clause is that of its columns, whatever they are compared with. -/
theorem build_fields {f g : Filter} (hlog : g.log = f.log) (hfields : g.fields = f.fields) :
    g.build.1 = f.build.1 := by
  have hresult : ∀ {b c : Building}, b.clauses = c.clauses → b.result.1 = c.result.1 := by
    intro b c h
    rw [Building.result, h, Building.result]
  cases f with
  | messages f =>
    cases g with
    | messages g =>
      refine hresult ?_
      rw [Building.messages_eq, Building.messages_eq]
      simp only [fields, Prod.mk.injEq, List.cons.injEq, and_true] at hfields
      simp only [Building.of, MessageFilter.comparisons, map_append, map_given, Comparison.part,
        map_const', hfields]
    | audit g => cases hlog
  | audit f =>
    cases g with
    | messages g => cases hlog
    | audit g =>
      refine hresult ?_
      rw [Building.audit_eq, Building.audit_eq]
      simp only [fields, Prod.mk.injEq, List.cons.injEq, true_and, and_true] at hfields
      simp only [Building.of, AuditFilter.comparisons, map_append, map_given, Comparison.part,
        hfields]

end Filter

/-- **A filter's values are bound, never spliced.** The text executed for it depends on which
fields are set and on the number of statuses. It asks the comparisons of the filter, and on
PostgreSQL each of them has the numbers of its own values among the arguments. -/
theorem filters_bound : (∀ (f g : Filter) (d : Dialect), g.log = f.log → g.fields = f.fields →
      d.rebind g.list.text = d.rebind f.list.text ∧ d.rebind g.count.text = d.rebind f.count.text) ∧
    (∀ f : Filter, f.list.Binds f.listed ∧ f.count.Binds f.counted) ∧
    ∀ query : Bytes, query.count 63 < 10 ^ 8 → rebindDollar query = some (dollars .code 0 query) := by
  refine ⟨fun f g d hlog h => ?_, fun f => ⟨f.binds_listed, f.binds_counted⟩, fun query h => ?_⟩
  · simp only [Filter.list, Filter.count, Filter.build_fields hlog h, hlog, and_self]
  exact (rebindFrom_eq .code (by omega) query).trans
    (if_pos (by have := placeholders_le .code query; omega))

end SmtpProxy.Store
