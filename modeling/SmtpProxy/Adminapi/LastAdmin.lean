import SmtpProxy.Adminapi.Users
import SmtpProxy.Lib.Interleave

/-!
# An administrator remains

`handleUpdateUser` and `handleDeleteUser` refuse to take the last administrator
away. They check in one statement and write in a later one, so two requests that
take each other's administrator away can both pass the check. An `Update` also
writes the role it read, which may have been changed since.

Run alone, each handler keeps an administrator (`program_along`). By the rule for
programs that interleave, so does every run in which no request writes to the
users after another request has changed them since it began.
-/

namespace SmtpProxy.Adminapi

open Lib Store App Adminauth Table

/-- Somebody can administer the proxy. -/
def HasAdmin (users : Table Bytes AdminUser AdminUser.id) : Prop :=
  ∃ u ∈ users.rows, u.role = .admin ∧ u.disabled = false

instance (users : Table Bytes AdminUser AdminUser.id) : Decidable (HasAdmin users) :=
  inferInstanceAs (Decidable (∃ u ∈ users.rows, _))

inductive UserRequest where
  | update (id : Bytes) (body : Decoded UpdateUserRequest)
  | delete (actorID id : Bytes)

def UserRequest.program : UserRequest → AdminProg (Response Payload)
  | .update id body => handleUpdateUser id body
  | .delete actorID id => handleDeleteUser actorID id

/-! ## Other administrators -/

variable {db : AdminDB} {user changed : AdminUser} {id : Bytes}

def HasOther (users : Table Bytes AdminUser AdminUser.id) (id : Bytes) : Prop :=
  ∃ u ∈ users.rows, isOtherAdmin id u = true

theorem isOtherAdmin_iff {u : AdminUser} :
    isOtherAdmin id u = true ↔ u.id ≠ id ∧ u.role = .admin ∧ u.disabled = false := by
  simp [isOtherAdmin, and_assoc]

theorem HasAdmin.other (h : HasAdmin db.users) (hget : db.users.get user.id = some user)
    (hnot : ¬ (user.role = .admin ∧ user.disabled = false)) : HasOther db.users user.id := by
  obtain ⟨u, hu, hadmin⟩ := h
  refine ⟨u, hu, isOtherAdmin_iff.2 ⟨?_, hadmin⟩⟩
  intro hid
  have hsame := get_key hu
  rw [hid, hget] at hsame
  rw [Option.some.inj hsame] at hnot
  exact hnot hadmin

theorem get_ok {found : AdminUser} (h : db.users.get id = some found) :
    found.id = id ∧ db.users.get found.id = some found := by
  have hid := key_of_get h
  exact ⟨hid, by rw [hid]; exact h⟩

/-! ## What the writes keep -/

theorem updateUser_hasAdmin (h : HasAdmin db.users)
    (hkeep : HasOther db.users changed.id ∨ (changed.role = .admin ∧ changed.disabled = false))
    (c : Fate) : HasAdmin (c.answer (fun now db => db.updateUser now changed) db).2.users := by
  obtain ⟨e, he⟩ | ⟨⟨r, hr⟩, he⟩ := db.answer_updateUser c changed
  · rw [he]
    exact h
  rw [he]
  obtain ⟨u, hu, hother⟩ | hadmin := hkeep
  · obtain ⟨hid, hadmin⟩ := isOtherAdmin_iff.1 hother
    have hget := db.get_writeUser c.now changed u.id
    rw [get_key hu, Option.map_some, if_neg hid] at hget
    exact ⟨u, mem_of_get hget, hadmin⟩
  have hget := db.get_writeUser c.now changed changed.id
  rw [hr, Option.map_some, if_pos (key_of_get hr)] at hget
  exact ⟨_, mem_of_get hget, hadmin⟩

theorem deleteUser_hasAdmin (h : HasAdmin db.users) (hkeep : HasOther db.users id) :
    HasAdmin (db.deleteUser id).2.users := by
  unfold AdminDB.deleteUser
  split
  · exact h
  obtain ⟨u, hu, hother⟩ := hkeep
  obtain ⟨hid, hadmin⟩ := isOtherAdmin_iff.1 hother
  exact ⟨u, List.mem_filter.2 ⟨hu, by simpa using hid⟩, hadmin⟩

/-! ## Each handler alone -/

/-- An administrator remains throughout. -/
abbrev KeepsAdmin (prog : AdminProg (Response Payload)) (db : AdminDB) : Prop :=
  prog.Along (fun db => HasAdmin db.users) (fun _ _ => True) db

variable {write : AdminProg (Response Payload)}

theorem unlessLast_along {needed : Bool} (h : HasAdmin db.users)
    (hchecked : HasOther db.users id → KeepsAdmin write db)
    (hfree : needed = false → KeepsAdmin write db) :
    KeepsAdmin (unlessLast (fun p => p) needed id write) db := by
  unfold unlessLast
  split
  · unfold requireAnotherAdmin
    rw [bind_assoc]
    refine .bind ?_
    apply query_along
    · exact h
    · intro e
      exact ⟨h, trivial⟩
    dsimp only
    split
    · next hany =>
      obtain ⟨u, hu, hother⟩ := List.any_eq_true.1 hany
      exact hchecked ⟨u, (List.mem_insertionSort _).1 hu, hother⟩
    · exact ⟨h, trivial⟩
  · next hneeded => exact hfree (by simpa using hneeded)

theorem storeUser_along (h : HasAdmin db.users)
    (hkeep : HasOther db.users changed.id ∨ (changed.role = .admin ∧ changed.disabled = false))
    (previousRole : Role) (answer : AdminUser → Response Payload) :
    KeepsAdmin (storeUser (fun p => p) changed previousRole fun user => return answer user) db := by
  unfold storeUser whenStored UserRepo.update
  refine .bind ?_
  refine Prog.along_exec h ?_
  intro c
  have hwritten := updateUser_hasAdmin h hkeep c
  refine ⟨hwritten, ?_⟩
  dsimp only
  split
  · exact ⟨hwritten, trivial⟩
  · -- ending the sessions does not touch the users
    refine .bind ?_
    unfold endSessions
    split
    · unfold revokeAllForUser SessionRepo.deleteForUser
      refine .bind ?_
      refine .bind ?_
      apply statement_along
      · exact hwritten
      · intro e
        exact ⟨hwritten, hwritten, hwritten, trivial⟩
      intro now
      exact ⟨hwritten, hwritten, hwritten, hwritten, trivial⟩
    · exact ⟨hwritten, hwritten, trivial⟩

theorem removeUser_along (h : HasAdmin db.users) (hkeep : HasOther db.users id) :
    KeepsAdmin (removeUser (fun p => p) id (return .noContent)) db := by
  unfold removeUser orFail UserRepo.delete
  refine .bind ?_
  have hdeleted := deleteUser_hasAdmin h hkeep
  apply statement_along
  · exact h
  · intro e
    exact ⟨h, trivial⟩
  intro now
  refine ⟨hdeleted, ?_⟩
  cases (db.deleteUser id).1 <;> exact ⟨hdeleted, trivial⟩

theorem keeps_of_not_losing (h : HasAdmin db.users) (hget : db.users.get user.id = some user)
    (hid : changed.id = user.id) (hlosing : losingAdmin changed user.role = false) :
    HasOther db.users changed.id ∨ (changed.role = .admin ∧ changed.disabled = false) := by
  unfold losingAdmin at hlosing
  split at hlosing
  · next hrole =>
    rw [hid]
    exact .inl (h.other hget fun hadmin => hrole hadmin.1)
  simp only [Bool.or_eq_false_iff, decide_eq_false_iff_not, ne_eq, not_not] at hlosing
  exact .inr hlosing

/-- **Each request keeps an administrator when it is the only one.** -/
theorem program_along (r : UserRequest) (db : AdminDB) (h : HasAdmin db.users) :
    KeepsAdmin r.program db := by
  cases r with
  | update id body =>
    show KeepsAdmin (handleUpdateUser id body) db
    unfold handleUpdateUser updateUser orFail
    cases body with
    | error why => exact ⟨h, trivial⟩
    | ok req =>
    refine .bind ?_
    apply query_along
    · exact h
    · intro e
      exact ⟨h, trivial⟩
    cases hget : db.users.get id with
    | none => exact ⟨h, trivial⟩
    | some user =>
    obtain ⟨-, hget⟩ := get_ok hget
    dsimp only
    split
    · exact ⟨h, trivial⟩
    next changed happly =>
    have hid := apply_id happly
    apply unlessLast_along h
    · intro hother
      exact storeUser_along h (.inl hother) _ _
    intro hlosing
    exact storeUser_along h (keeps_of_not_losing h hget hid hlosing) _ _
  | delete actorID id =>
    show KeepsAdmin (handleDeleteUser actorID id) db
    unfold handleDeleteUser deleteUser orFail
    refine .bind ?_
    apply query_along
    · exact h
    · intro e
      exact ⟨h, trivial⟩
    cases hget : db.users.get id with
    | none => exact ⟨h, trivial⟩
    | some user =>
    obtain ⟨hid, hget⟩ := get_ok hget
    dsimp only
    split
    · exact ⟨h, trivial⟩
    apply unlessLast_along h
    · intro hother
      exact removeUser_along h (hid ▸ hother)
    intro hfree
    have hnot : ¬ (user.role = .admin ∧ user.disabled = false) := by
      rintro ⟨hrole, hon⟩
      simp [hrole, hon] at hfree
    exact removeUser_along h (hid ▸ h.other hget hnot)

/-! ## The handlers act on the users through the users alone -/

theorem updateUser_congr {s t : AdminDB} (h : s.users = t.users) (now : Int) (u : AdminUser) :
    (s.updateUser now u).1 = (t.updateUser now u).1 ∧
      (s.updateUser now u).2.users = (t.updateUser now u).2.users := by
  obtain ⟨users, sessions⟩ := s
  obtain ⟨users', sessions'⟩ := t
  obtain rfl : users = users' := h
  have hconflict : (AdminDB.mk users sessions).userConflict u
      = (AdminDB.mk users sessions').userConflict u := rfl
  unfold AdminDB.updateUser
  rw [hconflict]
  split
  · exact ⟨rfl, rfl⟩
  · split <;> exact ⟨rfl, rfl⟩

theorem deleteUser_congr {s t : AdminDB} (h : s.users = t.users) (id : Bytes) :
    (s.deleteUser id).1 = (t.deleteUser id).1 ∧
      (s.deleteUser id).2.users = (t.deleteUser id).2.users := by
  simp only [AdminDB.deleteUser, h]
  split
  · exact ⟨rfl, h⟩
  · exact ⟨rfl, rfl⟩

theorem get_respects (id : Bytes) : (UserRepo.get id).Respects AdminDB.users :=
  query_respects fun _ _ h => by rw [h]

theorem update_respects (u : AdminUser) : (UserRepo.update u).Respects AdminDB.users := by
  apply Prog.respects_exec
  intro c s t h
  simp only [Fate.answer]
  cases c.failure with
  | some e => exact ⟨rfl, h⟩
  | none =>
    obtain ⟨hanswer, husers⟩ := updateUser_congr h c.now u
    exact ⟨by rw [hanswer], husers⟩

theorem unlessLast_respects {needed : Bool} (h : write.Respects AdminDB.users) :
    (unlessLast (fun p => p) needed id write).Respects AdminDB.users := by
  unfold unlessLast
  split
  · refine .bind ?_ ?_
    · unfold requireAnotherAdmin UserRepo.list
      refine .bind ?_ ?_
      · exact query_respects fun _ _ h => by rw [h]
      intro users
      cases users with
      | error e => exact .pure
      | ok users =>
        dsimp only
        split <;> exact .pure
    · intro checked
      cases checked with
      | error why => exact .pure
      | ok _ => exact h
  · exact h

theorem storeUser_respects (u : AdminUser) (previousRole : Role)
    (answer : AdminUser → Response Payload) :
    (storeUser (fun p => p) u previousRole fun user => return answer user : AdminProg _).Respects
      AdminDB.users := by
  unfold storeUser whenStored
  refine .bind (update_respects u) ?_
  rintro ⟨user, updated⟩
  cases updated with
  | error e => exact .pure
  | ok _ =>
  refine .bind ?_ ?_
  · unfold endSessions
    split
    · refine .bind ?_ ?_
      · unfold revokeAllForUser SessionRepo.deleteForUser
        refine .bind ?_ ?_
        · exact statement_respects fun _ _ _ h => ⟨rfl, h⟩
        intro _
        exact .pure
      · intro _
        exact .pure
    · exact .pure
  intro _
  exact .pure

theorem removeUser_respects (id : Bytes) (answer : Response Payload) :
    (removeUser (fun p => p) id (return answer) : AdminProg _).Respects AdminDB.users := by
  unfold removeUser orFail
  refine .bind ?_ ?_
  · exact statement_respects fun _ _ _ h => deleteUser_congr h id
  intro deleted
  cases deleted <;> exact .pure

theorem program_respects (r : UserRequest) : r.program.Respects AdminDB.users := by
  cases r with
  | update id body =>
    show (handleUpdateUser id body).Respects _
    unfold handleUpdateUser updateUser orFail
    cases body with
    | error why => exact .pure
    | ok req =>
    refine .bind (get_respects id) ?_
    intro found
    cases found with
    | error e => exact .pure
    | ok user =>
    dsimp only
    split
    · exact .pure
    · exact unlessLast_respects (storeUser_respects _ _ _)
  | delete actorID id =>
  show (handleDeleteUser actorID id).Respects _
  unfold handleDeleteUser deleteUser orFail
  refine .bind (get_respects id) ?_
  intro found
  cases found with
  | error e => exact .pure
  | ok user =>
  dsimp only
  split
  · exact .pure
  · exact unlessLast_respects (removeUser_respects _ _)

/-! ## Requests at the same time -/

def serving (db : AdminDB) (requests : List UserRequest) : Pool AdminOp Fate AdminDB (Response Payload) :=
  .start db (requests.map UserRequest.program)

abbrev serve (p : Pool AdminOp Fate AdminDB (Response Payload)) (a : Nat × Fate) :
    Option (Pool AdminOp Fate AdminDB (Response Payload)) :=
  p.step AdminDB.users a

/-- No request writes to the users after another has changed them since it began. -/
def WritesInTime (p : Pool AdminOp Fate AdminDB (Response Payload)) (a : Nat × Fate) : Prop :=
  p.staleWrite AdminDB.users a = false

instance (p : Pool AdminOp Fate AdminDB (Response Payload)) (a : Nat × Fate) :
    Decidable (WritesInTime p a) :=
  inferInstanceAs (Decidable (_ = false))

/-- **An administrator remains**, in every run in which no request acts on a table
that has changed under it. -/
theorem admin_remains {db : AdminDB} {requests : List UserRequest}
    {p : Pool AdminOp Fate AdminDB (Response Payload)} (hadmin : HasAdmin db.users)
    (hrun : Reach serve WritesInTime (serving db requests) p) : HasAdmin p.shared.users := by
  apply Pool.along hadmin _ _ hrun
  · intro r hr
    obtain ⟨request, -, rfl⟩ := List.mem_map.1 hr
    exact program_respects request
  intro r hr t ht
  obtain ⟨request, -, rfl⟩ := List.mem_map.1 hr
  exact program_along request t ht

def twoAdmins : AdminDB where
  users := ⟨[{ id := ascii "a", username := ascii "alice", role := .admin },
             { id := ascii "b", username := ascii "bob", role := .admin }], by decide⟩
  sessions := .empty

def eachOther : List UserRequest :=
  [.update (ascii "b") (.ok { disabled := some true }),
   .update (ascii "a") (.ok { disabled := some true })]

/-- One after the other: the second request is refused. -/
theorem eachOther_in_turn : ∃ p, runActions serve (serving twoAdmins eachOther)
        (Pool.turns {} [0, 0, 0, 0, 1, 1]) = some p ∧ HasAdmin p.shared.users := by
  obtain ⟨p, hp, -⟩ := Option.map_eq_some_iff.1
    (show (runActions serve (serving twoAdmins eachOther)
        (Pool.turns {} [0, 0, 0, 0, 1, 1])).map (fun _ => ()) = some () by
      decide +kernel)
  exact ⟨p, hp, admin_remains (by decide) (reach_of_runActions _ (by decide +kernel) hp)⟩

/-- Both check before either writes: nobody is left who can administer the proxy. -/
theorem eachOther_at_once : HasAdmin twoAdmins.users ∧
      ∃ p, runActions serve (serving twoAdmins eachOther)
          (Pool.turns {} [0, 1, 0, 1, 0, 1]) = some p ∧
        ¬ HasAdmin p.shared.users := by
  refine ⟨by decide, ?_⟩
  obtain ⟨p, hp, hnone⟩ := Option.map_eq_some_iff.1
    (show (runActions serve (serving twoAdmins eachOther)
        (Pool.turns {} [0, 1, 0, 1, 0, 1])).map
          (fun p => decide (HasAdmin p.shared.users)) = some false by decide +kernel)
  exact ⟨p, hp, of_decide_eq_false hnone⟩

end SmtpProxy.Adminapi
