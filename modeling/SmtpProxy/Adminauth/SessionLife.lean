import SmtpProxy.Adminauth.Sessions
import SmtpProxy.Lib.Reach

/-!
# A dead session stays dead

Calls of `SessionManager` one after the other, together with anything that is done
to the users meanwhile. Each call sees one value of a clock that does not go back,
and any of its statements may fail: an expired session that could not be deleted, a
use that could not be recorded.

The history of the calls is kept beside the tables. The invariant `Books` says what a
session's row owes to the history: it was issued for its token and not revoked since, it
expires when its lifetime is over, and its `last_seen_at` is a time at which the token
was issued or accepted.

Tokens are 32 random bytes, stored as their SHA-256: a new token is taken to be one
that was not issued before, and different tokens to have different hashes.
-/

namespace SmtpProxy.Adminauth

open Lib Store List

/-- What is done in one call. `users` stands for everything that is done to the users:
the table afterwards. -/
inductive SessionAct where
  | issue (user : AdminUser) (r : HTTPRequest) (draw : SessionDraw)
  | authenticate (token : Bytes)
  | revoke (sessionID : Bytes)
  | revokeAllForUser (userID : Bytes)
  | purgeExpired
  | users (table : Table Bytes AdminUser AdminUser.id)

/-- A call: when it is made, which of its statements fail, and what it does. -/
structure Call where
  now : Int
  failures : AdminOp → Option Err := fun _ => none
  act : SessionAct

def Call.env (call : Call) (op : AdminOp) : Fate := ⟨call.now, call.failures op⟩

inductive Event where
  | issued (token sessionID userID : Bytes) (at_ : Int)
  | accepted (token : Bytes) (at_ : Int)
  /-- The token was refused because its session had expired or was idle. -/
  | died (token : Bytes)
  | revoked (sessionID : Bytes)
  | revokedAll (userID : Bytes)
  deriving DecidableEq

def Event.ends (sessionID userID : Bytes) : Event → Bool
  | .revoked id => id = sessionID
  | .revokedAll id => id = userID
  | _ => false

structure Console where
  db : AdminDB
  clock : Int
  history : List Event

variable (n : NetText) (hash : Bytes → Bytes) (m : SessionConfig)

/-- The session of a token has expired or is idle. -/
def diesNow (db : AdminDB) (call : Call) (token : Bytes) : Bool :=
  (call.failures .sessionLookup).isNone &&
    (db.findSession (hash token)).any fun found =>
      found.1.expiredAt call.now || found.1.idleAt m.idleTimeout call.now

def perform (db : AdminDB) (call : Call) : AdminDB × List Event :=
  match call.act with
  | .issue user r draw =>
    let (answer, db) := (issue n hash m user r draw).run call.env db
    (db, match answer with
      | .ok issued => [.issued issued.token issued.session.id issued.session.userID call.now]
      | .error _ => [])
  | .authenticate token =>
    let (answer, after) := (resolve hash m token).run call.env db
    (after, match answer with
      | .ok _ => [.accepted token call.now]
      | .error _ => if token ≠ [] ∧ diesNow hash m db call token = true then [.died token] else [])
  | .revoke sessionID =>
    let (answer, db) := (revoke sessionID).run call.env db
    (db, match answer with
      | .ok _ => [.revoked sessionID]
      | .error _ => [])
  | .revokeAllForUser userID =>
    let (answer, db) := (revokeAllForUser userID).run call.env db
    (db, match answer with
      | .ok _ => [.revokedAll userID]
      | .error _ => [])
  | .purgeExpired => ((SessionRepo.purgeExpired.run call.env db).2, [])
  | .users table =>
    ({ users := table
       sessions := db.sessions.deleteWhere fun s => (table.get s.userID).isNone }, [])

def step (s : Console) (call : Call) : Option Console :=
  if s.clock ≤ call.now then
    let (db, events) := perform n hash m s.db call
    some { db, clock := call.now, history := events ++ s.history }
  else none

def WasIssued (history : List Event) (token : Bytes) : Prop :=
  ∃ sessionID userID at_, .issued token sessionID userID at_ ∈ history

def FreshTokens (s : Console) (call : Call) : Prop :=
  ∀ user r draw token, call.act = .issue user r draw → draw.token = .ok token →
    ¬ WasIssued s.history token

/-! ## What an accepted token owes to the history -/

/-- The token was issued at this time for this session, which has not been revoked
since. -/
def IssuedUnrevoked (history : List Event) (token sessionID userID : Bytes) (at_ : Int) : Prop :=
  ∃ later earlier, history = later ++ .issued token sessionID userID at_ :: earlier ∧
    ∀ e ∈ later, e.ends sessionID userID = false

/-- The token was issued or accepted at this time. -/
def UsedAt (history : List Event) (token : Bytes) (at_ : Int) : Prop :=
  (∃ sessionID userID, .issued token sessionID userID at_ ∈ history) ∨ .accepted token at_ ∈ history

/-- What holds of a token that is accepted at `now` for the session `s` of `u`. -/
structure LiveToken (c : Console) (now : Int) (token : Bytes) (s : Session) (u : AdminUser) : Prop where
  issued : ∃ t₀, IssuedUnrevoked c.history token s.id s.userID t₀ ∧ now < t₀ + m.lifetime
  user : c.db.users.get s.userID = some u
  enabled : u.disabled = false
  used : 0 < m.idleTimeout → ∃ t₁, UsedAt c.history token t₁ ∧ now - m.idleTimeout ≤ t₁
  notDead : .died token ∉ c.history

/-! ## The invariant -/

structure RowBooks (history : List Event) (s : Session) (token : Bytes) : Prop where
  hash : s.tokenHash = hash token
  issued : ∃ t₀, IssuedUnrevoked history token s.id s.userID t₀ ∧ s.expiresAt = t₀ + m.lifetime
  seen : UsedAt history token s.lastSeenAt

structure Books (c : Console) : Prop where
  rows : ∀ s ∈ c.db.sessions.rows, ∃ token, RowBooks hash m c.history s token
  /-- No two sessions have the same token. -/
  unique : ∀ s ∈ c.db.sessions.rows, ∀ s' ∈ c.db.sessions.rows, s.tokenHash = s'.tokenHash → s = s'
  /-- The session of a token that died is dead, if it is still there. -/
  dead : ∀ token, .died token ∈ c.history → WasIssued c.history token ∧
    ∀ s ∈ c.db.sessions.rows, s.tokenHash = hash token →
      s.expiredAt c.clock = true ∨ s.idleAt m.idleTimeout c.clock = true

variable {n hash m} {c : Console} {call : Call} {db : AdminDB}

/-! ## What each call does -/

theorem Call.answer (call : Call) {β : Type} (op : AdminOp) (f : Int → AdminDB → Except Err β × AdminDB)
    (db : AdminDB) : (call.env op).answer f db =
      match call.failures op with
      | some e => (.error e, db)
      | none => f call.now db := rfl

inductive LookedUp (m : SessionConfig) (hash : Bytes → Bytes) (db : AdminDB) (call : Call)
    (token : Bytes) : Except Err (Session × AdminUser) → AdminDB → Prop where
  | refused (e : Err) (hlive : diesNow hash m db call token = false) :
      LookedUp m hash db call token (.error e) db
  | died (e : Err) (s : Session) (u : AdminUser) (after : AdminDB)
      (hfound : db.findSession (hash token) = some (s, u))
      (hdead : s.expiredAt call.now = true ∨ s.idleAt m.idleTimeout call.now = true)
      (hafter : ∀ r ∈ after.sessions.rows, r ∈ db.sessions.rows) :
      LookedUp m hash db call token (.error e) after
  | found (s : Session) (u : AdminUser) (hfound : db.findSession (hash token) = some (s, u))
      (hexpired : s.expiredAt call.now = false) (hidle : s.idleAt m.idleTimeout call.now = false)
      (hon : u.disabled = false) : LookedUp m hash db call token (.ok (s, u)) db

theorem delete_run (id : Bytes) (r : Session)
    (hr : r ∈ ((SessionRepo.delete id).run call.env db).2.sessions.rows) : r ∈ db.sessions.rows := by
  rw [SessionRepo.delete, statement, Prog.run_exec, call.answer] at hr
  cases hfate : call.failures .sessionDelete with
  | some e =>
    rw [hfate] at hr
    exact hr
  | none =>
    rw [hfate] at hr
    exact mem_of_mem_filter hr

theorem lookup_cases (m : SessionConfig) (hash : Bytes → Bytes) (db : AdminDB) (call : Call)
    (token : Bytes) :
    LookedUp m hash db call token ((SessionRepo.lookup hash token m.idleTimeout).run call.env db).1
      ((SessionRepo.lookup hash token m.idleTimeout).run call.env db).2 := by
  have hnow : (call.env .sessionLookup).now = call.now := rfl
  simp only [SessionRepo.lookup, Prog.run_bind, timedQuery, Prog.run_exec, call.answer, hnow]
  cases hfate : call.failures .sessionLookup with
  | some e => exact .refused _ (by simp [diesNow, hfate])
  | none =>
  cases hfound : db.findSession (hash token) with
  | none => exact .refused _ (by simp [diesNow, hfound])
  | some found =>
  obtain ⟨s, u⟩ := found
  dsimp only
  by_cases hexpired : s.expiredAt call.now = true
  · rw [if_pos hexpired]
    exact .died _ s u _ hfound (.inl hexpired) (delete_run s.id)
  rw [if_neg hexpired]
  by_cases hidle : s.idleAt m.idleTimeout call.now = true
  · rw [if_pos hidle]
    exact .died _ s u _ hfound (.inr hidle) (delete_run s.id)
  rw [if_neg hidle]
  by_cases hoff : u.disabled = true
  · rw [if_pos hoff]
    exact .refused _ (by simp [diesNow, hfound, hexpired, hidle])
  rw [if_neg hoff]
  exact .found s u hfound (by simpa using hexpired) (by simpa using hidle)
    (by simpa using hoff)

inductive Resolved (m : SessionConfig) (hash : Bytes → Bytes) (db : AdminDB) (call : Call)
    (token : Bytes) : Except Err (Session × AdminUser) → AdminDB → Prop where
  | refused (e : Err) (hlive : token = [] ∨ diesNow hash m db call token = false) :
      Resolved m hash db call token (.error e) db
  | died (e : Err) (s : Session) (u : AdminUser) (after : AdminDB)
      (hfound : db.findSession (hash token) = some (s, u))
      (hdead : s.expiredAt call.now = true ∨ s.idleAt m.idleTimeout call.now = true)
      (hafter : ∀ r ∈ after.sessions.rows, r ∈ db.sessions.rows) :
      Resolved m hash db call token (.error e) after
  | accepted (s : Session) (u : AdminUser) (after : AdminDB)
      (hfound : db.findSession (hash token) = some (s, u))
      (hexpired : s.expiredAt call.now = false) (hidle : s.idleAt m.idleTimeout call.now = false)
      (hon : u.disabled = false)
      (hafter : after = db ∨ after.sessions = db.sessions.updateWhere (fun r => r.id = s.id)
        (fun r => { r with lastSeenAt := call.now }) fun _ => rfl) :
      Resolved m hash db call token (.ok (s, u)) after

theorem resolve_cases (m : SessionConfig) (hash : Bytes → Bytes) (db : AdminDB) (call : Call)
    (token : Bytes) :
    Resolved m hash db call token ((resolve hash m token).run call.env db).1
      ((resolve hash m token).run call.env db).2 := by
  unfold resolve
  by_cases htoken : token = []
  · rw [if_pos htoken]
    exact .refused _ (.inl htoken)
  rw [if_neg htoken, Prog.run_bind]
  have hlookup := lookup_cases m hash db call token
  revert hlookup
  generalize (SessionRepo.lookup hash token m.idleTimeout).run call.env db = out
  obtain ⟨answer, after⟩ := out
  intro hlookup
  cases hlookup with
  | refused e hlive => exact .refused _ (.inr hlive)
  | died e s u after hfound hdead hafter => exact .died _ s u after hfound hdead hafter
  | found s u hfound hexpired hidle hon =>
  refine .accepted s u _ hfound hexpired hidle hon ?_
  simp only [Prog.run_bind, SessionRepo.touch, statement, Prog.run_exec, call.answer]
  cases call.failures .sessionTouch with
  | some e => exact .inl rfl
  | none => exact .inr rfl

/-! ## Time only goes on -/

variable {s : Session}

theorem expiredAt_mono {t t' : Int} (h : t ≤ t') (hs : s.expiredAt t = true) :
    s.expiredAt t' = true := by
  simp only [Session.expiredAt, decide_eq_true_eq] at hs ⊢
  omega

theorem idleAt_mono {idle t t' : Int} (h : t ≤ t') (hs : s.idleAt idle t = true) :
    s.idleAt idle t' = true := by
  simp only [Session.idleAt, decide_eq_true_eq] at hs ⊢
  omega

variable {history events : List Event} {token : Bytes}

theorem IssuedUnrevoked.append {sid uid : Bytes} {t₀ : Int}
    (h : IssuedUnrevoked history token sid uid t₀) (hends : ∀ e ∈ events, e.ends sid uid = false) :
    IssuedUnrevoked (events ++ history) token sid uid t₀ := by
  obtain ⟨later, earlier, rfl, hlater⟩ := h
  refine ⟨events ++ later, earlier, by rw [append_assoc], ?_⟩
  intro e he
  rcases mem_append.1 he with he | he
  · exact hends e he
  · exact hlater e he

theorem UsedAt.append {at_ : Int} (events : List Event) (h : UsedAt history token at_) :
    UsedAt (events ++ history) token at_ := by
  obtain ⟨sid, uid, h⟩ | h := h
  · exact .inl ⟨sid, uid, mem_append_right _ h⟩
  · exact .inr (mem_append_right _ h)

theorem WasIssued.append (events : List Event) (h : WasIssued history token) :
    WasIssued (events ++ history) token := by
  obtain ⟨sid, uid, at_, h⟩ := h
  exact ⟨sid, uid, at_, mem_append_right _ h⟩

theorem RowBooks.append (h : RowBooks hash m history s token)
    (hends : ∀ e ∈ events, e.ends s.id s.userID = false) :
    RowBooks hash m (events ++ history) s token := by
  obtain ⟨t₀, hissued, hexpires⟩ := h.issued
  exact ⟨h.hash, ⟨t₀, hissued.append hends, hexpires⟩, h.seen.append events⟩

theorem RowBooks.wasIssued (h : RowBooks hash m history s token) : WasIssued history token := by
  obtain ⟨t₀, ⟨later, earlier, rfl, -⟩, -⟩ := h.issued
  exact ⟨s.id, s.userID, t₀, mem_append_right _ (.head _)⟩

/-! ## Each call keeps the books -/

section

variable {now : Int} (h : Books hash m c)
include h

/-- A call that adds and changes no session. -/
theorem Books.shrink {after : AdminDB} (hclock : c.clock ≤ now)
    (hrows : ∀ s ∈ after.sessions.rows, s ∈ c.db.sessions.rows)
    (hends : ∀ e ∈ events, ∀ s ∈ after.sessions.rows, e.ends s.id s.userID = false)
    (hdied : ∀ token, .died token ∈ events → WasIssued c.history token ∧ ∀ s ∈ after.sessions.rows,
      s.tokenHash = hash token → s.expiredAt now = true ∨ s.idleAt m.idleTimeout now = true) :
    Books hash m ⟨after, now, events ++ c.history⟩ := by
  refine ⟨?_, ?_, ?_⟩
  · intro s hs
    obtain ⟨token, hbooks⟩ := h.rows s (hrows s hs)
    exact ⟨token, hbooks.append fun e he => hends e he s hs⟩
  · intro s hs s' hs'
    exact h.unique s (hrows s hs) s' (hrows s' hs')
  intro token htoken
  rcases mem_append.1 htoken with htoken | htoken
  · obtain ⟨hissued, hdead⟩ := hdied token htoken
    exact ⟨hissued.append events, hdead⟩
  obtain ⟨hissued, hdead⟩ := h.dead token htoken
  refine ⟨hissued.append events, ?_⟩
  intro s hs hhash
  exact (hdead s (hrows s hs) hhash).imp (expiredAt_mono hclock) (idleAt_mono hclock)

theorem Books.same (hclock : c.clock ≤ now)
    (hevents : ∀ e ∈ events, ∃ token at_, e = .accepted token at_) :
    Books hash m ⟨c.db, now, events ++ c.history⟩ := by
  apply h.shrink hclock (fun _ hs => hs)
  · intro e he s _
    obtain ⟨token, at_, rfl⟩ := hevents e he
    rfl
  intro token htoken
  obtain ⟨token', at_, heq⟩ := hevents _ htoken
  cases heq

theorem Books.insert (hinj : Function.Injective hash)
    (hclock : c.clock ≤ now) (hfresh : ¬ WasIssued c.history token) {row : Session}
    {sessions : Table Bytes Session Session.id}
    (hinsert : c.db.sessions.insert row = some sessions)
    (hfree : ∀ r ∈ c.db.sessions.rows, r.tokenHash ≠ row.tokenHash)
    (hhash : row.tokenHash = hash token) (hexpires : row.expiresAt = now + m.lifetime)
    (hseen : row.lastSeenAt = now) :
    Books hash m
      ⟨{ c.db with sessions }, now, [.issued token row.id row.userID now] ++ c.history⟩ := by
  have hmem : ∀ s ∈ sessions.rows, s ∈ c.db.sessions.rows ∨ s = row := fun s hs =>
    (Table.mem_insert hinsert).1 hs
  refine ⟨?_, ?_, ?_⟩
  · intro s hs
    rcases hmem s hs with hs | rfl
    · obtain ⟨token', hbooks⟩ := h.rows s hs
      refine ⟨token', hbooks.append ?_⟩
      intro e he
      rw [mem_singleton.1 he]
      rfl
    exact ⟨token, hhash, ⟨now, ⟨[], c.history, rfl, by simp⟩, hexpires⟩,
      hseen ▸ .inl ⟨s.id, s.userID, .head _⟩⟩
  · intro s hs s' hs' heq
    rcases hmem s hs with hold | rfl <;> rcases hmem s' hs' with hold' | rfl
    · exact h.unique s hold s' hold' heq
    · exact absurd heq (hfree s hold)
    · exact absurd heq.symm (hfree s' hold')
    · rfl
  intro dead hdead
  have hdead : .died dead ∈ c.history := by
    rcases mem_append.1 hdead with h | h
    · cases mem_singleton.1 h
    · exact h
  obtain ⟨hissued, hrows⟩ := h.dead dead hdead
  refine ⟨hissued.append _, ?_⟩
  intro s hs htoken
  rcases hmem s hs with hs | rfl
  · exact (hrows s hs htoken).imp (expiredAt_mono hclock) (idleAt_mono hclock)
  rw [hhash] at htoken
  exact absurd (hinj htoken ▸ hissued) hfresh

theorem Books.touch (hinj : Function.Injective hash) (hclock : c.clock ≤ now)
    {live : Session} (hlive : live ∈ c.db.sessions.rows) (hhash : live.tokenHash = hash token)
    (hexpired : live.expiredAt now = false) (hidle : live.idleAt m.idleTimeout now = false)
    {after : AdminDB}
    (hafter : after.sessions = c.db.sessions.updateWhere (fun r => r.id = live.id)
      (fun r => { r with lastSeenAt := now }) fun _ => rfl) :
    Books hash m ⟨after, now, [.accepted token now] ++ c.history⟩ := by
  -- a row afterwards is the live one, or as it was
  have hmem : ∀ s ∈ after.sessions.rows,
      (s = { live with lastSeenAt := now }) ∨ (s ∈ c.db.sessions.rows ∧ s.id ≠ live.id) := by
    intro s hs
    rw [hafter] at hs
    obtain ⟨r, hr, rfl⟩ := mem_map.1 hs
    by_cases hid : r.id = live.id
    · rw [if_pos (decide_eq_true hid)]
      have hsame : some r = some live := by
        rw [← Table.get_key hr, hid, Table.get_key hlive]
      rw [Option.some.inj hsame]
      exact .inl rfl
    rw [if_neg (by simpa using hid)]
    exact .inr ⟨hr, hid⟩
  have hquiet : ∀ e ∈ [Event.accepted token now], ∀ sid uid, e.ends sid uid = false := by
    intro e he sid uid
    rw [mem_singleton.1 he]
    rfl
  refine ⟨?_, ?_, ?_⟩
  · intro s hs
    rcases hmem s hs with rfl | ⟨hs, -⟩
    · obtain ⟨token', hbooks⟩ := h.rows live hlive
      obtain rfl : token' = token := hinj (hbooks.hash.symm.trans hhash)
      have hbooks := hbooks.append (hquiet · · live.id live.userID)
      exact ⟨token', hbooks.hash, hbooks.issued, .inr (.head _)⟩
    obtain ⟨token', hbooks⟩ := h.rows s hs
    exact ⟨token', hbooks.append (hquiet · · s.id s.userID)⟩
  · intro s hs s' hs' heq
    rcases hmem s hs with rfl | ⟨hs, hid⟩ <;> rcases hmem s' hs' with rfl | ⟨hs', hid'⟩
    · rfl
    · exact absurd (congrArg Session.id (h.unique live hlive s' hs' heq)).symm hid'
    · exact absurd (congrArg Session.id (h.unique s hs live hlive heq)) hid
    · exact h.unique s hs s' hs' heq
  intro dead hdead
  have hdead : .died dead ∈ c.history := by
    rcases mem_append.1 hdead with h | h
    · cases mem_singleton.1 h
    · exact h
  obtain ⟨hissued, hrows⟩ := h.dead dead hdead
  refine ⟨hissued.append _, ?_⟩
  intro s hs htoken
  rcases hmem s hs with rfl | ⟨hs, -⟩
  · -- the live session was not one of a dead token
    rcases hrows live hlive htoken with hbad | hbad
    · rw [expiredAt_mono hclock hbad] at hexpired
      cases hexpired
    rw [idleAt_mono hclock hbad] at hidle
    cases hidle
  · exact (hrows s hs htoken).imp (expiredAt_mono hclock) (idleAt_mono hclock)

theorem Books.authenticate (hinj : Function.Injective hash)
    (hclock : c.clock ≤ call.now) (hact : call.act = .authenticate token) :
    Books hash m ⟨(perform n hash m c.db call).1, call.now,
      (perform n hash m c.db call).2 ++ c.history⟩ := by
  have hres := resolve_cases m hash c.db call token
  simp only [perform, hact]
  revert hres
  generalize (resolve hash m token).run call.env c.db = out
  obtain ⟨answer, after⟩ := out
  intro hres
  cases hres with
  | refused e hlive =>
    dsimp only
    rw [if_neg (by
      rintro ⟨hne, hdies⟩
      rcases hlive with hlive | hlive
      · exact hne hlive
      rw [hlive] at hdies
      exact absurd hdies (by simp))]
    exact h.same hclock (by simp)
  | died e s u after hfound hdead hafter =>
    obtain ⟨hmem, hhash, -⟩ := c.db.findSession_some hfound
    obtain ⟨token', hbooks⟩ := h.rows s hmem
    obtain rfl : token' = token := hinj (hbooks.hash.symm.trans hhash)
    apply h.shrink hclock hafter
    · intro e he r _
      dsimp only at he
      split at he
      · rw [mem_singleton.1 he]
        rfl
      · cases he
    intro dead hd
    dsimp only at hd
    split at hd
    · obtain rfl : dead = token' := by simpa using hd
      refine ⟨hbooks.wasIssued, ?_⟩
      intro r hr htoken
      rw [h.unique r (hafter r hr) s hmem (htoken.trans hhash.symm)]
      exact hdead
    · cases hd
  | accepted s u after hfound hexpired hidle hon hafter =>
  obtain ⟨hmem, hhash, -⟩ := c.db.findSession_some hfound
  obtain rfl | hafter := hafter
  · apply h.same hclock
    intro e he
    exact ⟨_, _, mem_singleton.1 he⟩
  · exact h.touch hinj hclock hmem hhash hexpired hidle hafter

theorem Books.issue (hinj : Function.Injective hash)
    (hclock : c.clock ≤ call.now) (hfresh : FreshTokens c call) {user : AdminUser} {r : HTTPRequest}
    {draw : SessionDraw} (hact : call.act = .issue user r draw) :
    Books hash m ⟨(perform n hash m c.db call).1, call.now,
      (perform n hash m c.db call).2 ++ c.history⟩ := by
  have hfresh := hfresh user r draw
  simp only [perform, hact, Adminauth.issue]
  cases htoken : draw.token with
  | error e => exact h.same hclock (by simp)
  | ok token =>
  cases hcsrf : draw.csrf with
  | error e => exact h.same hclock (by simp)
  | ok csrf =>
  simp only [Prog.run_exec, call.answer]
  cases call.failures .sessionCreate with
  | some e => exact h.same hclock (by simp [Except.map])
  | none =>
  have hnow : (call.env .sessionCreate).now = call.now := rfl
  rw [hnow]
  obtain ⟨e, he⟩ | ⟨row, sessions, rfl, hfree, hinsert, -, he⟩ :=
    c.db.insertSession_cases call.now (newSession n hash m user r draw.id token csrf call.now)
  · rw [he]
    exact h.same hclock (by simp [Except.map])
  rw [he]
  have hbooks := h.insert hinj hclock (hfresh token hact htoken) hinsert hfree rfl rfl rfl
  exact hbooks

theorem Books.perform (hinj : Function.Injective hash)
    (hclock : c.clock ≤ call.now) (hfresh : FreshTokens c call) :
    Books hash m ⟨(perform n hash m c.db call).1, call.now,
      (perform n hash m c.db call).2 ++ c.history⟩ := by
  cases hact : call.act with
  | issue user r draw => exact h.issue hinj hclock hfresh hact
  | authenticate token => exact h.authenticate hinj hclock hact
  | revoke sessionID =>
    simp only [Adminauth.perform, hact, revoke, SessionRepo.delete, statement, Prog.run_exec, call.answer]
    cases call.failures .sessionDelete with
    | some e => exact h.same hclock (by simp)
    | none =>
    apply h.shrink hclock (fun s hs => mem_of_mem_filter hs)
    · intro e he s hs
      rw [mem_singleton.1 he]
      have hkept := (mem_filter.1 hs).2
      simp only [Bool.not_eq_true', decide_eq_false_iff_not] at hkept
      exact decide_eq_false (Ne.symm hkept)
    intro token htoken
    cases mem_singleton.1 htoken
  | revokeAllForUser userID =>
    simp only [Adminauth.perform, hact, revokeAllForUser, SessionRepo.deleteForUser, statement,
      Prog.run_bind, Prog.run_exec, call.answer]
    cases call.failures .sessionDeleteForUser with
    | some e => exact h.same hclock (by simp [Except.mapError])
    | none =>
    apply h.shrink hclock (fun s hs => mem_of_mem_filter hs)
    · intro e he s hs
      rw [mem_singleton.1 he]
      have hkept := (mem_filter.1 hs).2
      simp only [Bool.not_eq_true', decide_eq_false_iff_not] at hkept
      exact decide_eq_false (Ne.symm hkept)
    intro token htoken
    cases mem_singleton.1 htoken
  | purgeExpired =>
    simp only [Adminauth.perform, hact, SessionRepo.purgeExpired, statement, Prog.run_bind,
      Prog.run_exec, call.answer]
    apply h.shrink hclock _ (by simp) (by simp)
    intro s hs
    cases hfate : call.failures .sessionPurgeExpired with
    | some e =>
      rw [hfate] at hs
      exact hs
    | none =>
      rw [hfate] at hs
      exact mem_of_mem_filter hs
  | users table =>
    simp only [Adminauth.perform, hact]
    exact h.shrink hclock (fun s hs => mem_of_mem_filter hs) (by simp) (by simp)

end

/-! ## Whole runs -/

def Console.initial (users : Table Bytes AdminUser AdminUser.id) (clock : Int) : Console :=
  ⟨⟨users, .empty⟩, clock, []⟩

theorem books_run {users : Table Bytes AdminUser AdminUser.id} {clock : Int}
    (hinj : Function.Injective hash)
    (hrun : Reach (step n hash m) FreshTokens (.initial users clock) c) : Books hash m c := by
  apply Reach.invariant (I := Books hash m) _ _ hrun
  · refine ⟨?_, ?_, ?_⟩
    · intro s hs
      simp [Console.initial, Table.empty] at hs
    · intro s hs
      simp [Console.initial, Table.empty] at hs
    · intro token htoken
      simp [Console.initial] at htoken
  intro c call c' h hfresh hstep
  unfold step at hstep
  split at hstep
  · next hclock =>
    cases hstep
    exact h.perform hinj hclock hfresh
  · cases hstep

/-- **A token is accepted only for a session that was issued for it, is within its
lifetime, has been used in time and not been revoked, of a user who is there and may
sign in, and whose role at that moment is the one returned; and never again once it
was refused as expired or idle.** -/
theorem accepted_token_is_live {users : Table Bytes AdminUser AdminUser.id} {clock : Int}
    (hinj : Function.Injective hash)
    (hrun : Reach (step n hash m) FreshTokens (.initial users clock) c)
    (hclock : c.clock ≤ call.now) {token : Bytes} {s : Session} {u : AdminUser}
    (hcall : ((resolve hash m token).run call.env c.db).1 = .ok (s, u)) :
    LiveToken m c call.now token s u := by
  have hbooks := books_run hinj hrun
  have hres := resolve_cases m hash c.db call token
  rw [hcall] at hres
  cases hres with
  | accepted s u after hfound hexpired hidle hon hafter =>
  obtain ⟨hmem, hhash, huser⟩ := c.db.findSession_some hfound
  obtain ⟨token', hrow⟩ := hbooks.rows s hmem
  obtain rfl : token' = token := hinj (hrow.hash.symm.trans hhash)
  obtain ⟨t₀, hissued, hexpires⟩ := hrow.issued
  simp only [Session.expiredAt, decide_eq_false_iff_not] at hexpired
  refine ⟨⟨t₀, hissued, by omega⟩, huser, hon, ?_, ?_⟩
  · intro hpos
    simp only [Session.idleAt, decide_eq_false_iff_not] at hidle
    exact ⟨s.lastSeenAt, hrow.seen, by omega⟩
  intro hdied
  rcases (hbooks.dead token' hdied).2 s hmem hhash with hbad | hbad
  · simp only [Session.expiredAt, decide_eq_true_eq] at hbad
    omega
  rw [idleAt_mono hclock hbad] at hidle
  cases hidle

def someUser : AdminUser := { id := ascii "u", username := ascii "alice", role := .admin }

def briefSessions : SessionConfig := { lifetime := 10, idleTimeout := 5 }

/-- Alice signs in at time 1 and is seen at time 4; another token is tried, and another
session revoked. -/
def firstCalls : List Call :=
  [{ now := 1
     act := .issue someUser { remoteAddr := ascii "10.0.0.1:1" }
      { id := ascii "s", token := .ok (ascii "t"), csrf := .ok (ascii "c") } },
    { now := 4, act := .authenticate (ascii "t") }, { now := 5, act := .authenticate (ascii "x") },
    { now := 6, act := .revoke (ascii "r") }]

def lateCall : Call := { now := 8, act := .authenticate (ascii "t") }

/-- At time 8 the token is still accepted, seven after it was issued. -/
theorem firstSignIn_accepted :
    ∃ c s u, runActions (step dottedText (fun t => t) briefSessions)
        (.initial ⟨[someUser], by decide⟩ 0) firstCalls = some c ∧
      ((resolve (fun t => t) briefSessions (ascii "t")).run lateCall.env c.db).1 = .ok (s, u) ∧
      LiveToken briefSessions c 8 (ascii "t") s u := by
  have hend : (runActions (step dottedText (fun t => t) briefSessions)
      (.initial ⟨[someUser], by decide⟩ 0) firstCalls).map (fun c => (c.clock,
        ((resolve (fun t => t) briefSessions (ascii "t")).run lateCall.env c.db).1.isOk))
      = some (6, true) := by decide +kernel
  obtain ⟨c, hc, hstate⟩ := Option.map_eq_some_iff.1 hend
  obtain ⟨hclock, hok⟩ := Prod.mk.inj hstate
  have hmeet : AllMeet (step dottedText (fun t => t) briefSessions) FreshTokens
      (.initial ⟨[someUser], by decide⟩ 0) firstCalls := by
    simp [firstCalls, AllMeet, FreshTokens, WasIssued, Console.initial]
  cases hanswer : ((resolve (fun t => t) briefSessions (ascii "t")).run lateCall.env c.db).1 with
  | error e => simp [hanswer, Except.isOk, Except.toBool] at hok
  | ok found =>
    exact ⟨c, found.1, found.2, hc, hanswer,
      accepted_token_is_live (fun _ _ h => h) (reach_of_runActions _ hmeet hc)
        (hclock ▸ by decide) hanswer⟩

end SmtpProxy.Adminauth
