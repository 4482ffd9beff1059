import Mathlib.Data.List.Sort
import SmtpProxy.Lib.Net
import SmtpProxy.Lib.Prog
import SmtpProxy.Store.Models

/-!
# Schema migrations

`internal/store/migrate.go`: the binary carries a list of migrations, the database a table of
those that ran. `Up` runs the scripts the table does not list yet, `Down` the scripts that undo
those above a version; a script and its row in the table are one transaction.

What a script does to the schema is arbitrary and may fail. For each transaction the
environment decides whether it goes through, is rolled back, or is committed and then reported
as failed; a run may be cut short between any two of them (`Prog.Visits`).

The loops go by positions in the binary's list, the table by versions. What ties them together
is `AtVersion`: the table lists the first `k` migrations, and the schema is where the scripts
that were committed lead, of which the steps of `Course` are up from or down to `k`.
-/

namespace SmtpProxy.Store

open Lib List

structure Migration where
  version : Int
  name : Bytes
  up : Bytes := []
  down : Bytes := []
  checksum : Bytes := []
  deriving DecidableEq

/-- `AppliedMigration`, a row of `schema_migrations`. -/
structure AppliedMigration where
  version : Int
  name : Bytes
  checksum : Bytes
  appliedAt : Int
  deriving DecidableEq

def errDirtySchema : Bytes :=
  ascii "store: an applied migration has been modified since it ran"

def errSchemaAhead : Bytes := ascii "store: database schema is newer than this binary"

/-- A number with at least four characters, `%04d`. -/
def fourDigits (n : Int) : Bytes :=
  let digits := itoa n.natAbs
  let sign := if n < 0 then [45] else []
  sign ++ List.replicate (4 - sign.length - digits.length) 48 ++ digits

/-! ## The binary's list -/

/-- The functions of other packages this one uses. -/
structure MigrateText where
  /-- `%q`. -/
  quote : Bytes → Bytes
  /-- `sha256.Sum256`. -/
  sum256 : Bytes → Bytes

/-- A file of the embedded directory. -/
structure ScriptFile where
  name : Bytes
  body : Bytes

/-- Which of a migration's two scripts a file holds. -/
inductive Direction where
  | up
  | down
  deriving DecidableEq

def cutSuffix (suffix s : Bytes) : Option Bytes :=
  if suffix.isSuffixOf s then some (s.take (s.length - suffix.length)) else none

variable (text : MigrateText)

def cutDirection (base filename : Bytes) : Except Err (Bytes × Direction) :=
  match cutSuffix (ascii ".up") base with
  | some rest => .ok (rest, .up)
  | none =>
    match cutSuffix (ascii ".down") base with
    | some rest => .ok (rest, .down)
    | none =>
      .error (.new (ascii "store: migration " ++ text.quote filename ++
        ascii " must end in .up.sql or .down.sql"))

def parseMigrationName (filename : Bytes) : Except Err (Int × Bytes × Direction) := do
  let some base := cutSuffix (ascii ".sql") filename
    | .error (.new (ascii "store: migration " ++ text.quote filename ++ ascii " must end in .sql"))
  let (base, direction) ← cutDirection text base filename
  let unnamed : Err := .new (ascii "store: migration " ++ text.quote filename ++
    ascii " must be named <version>_<name>.<up|down>.sql")
  let some (versionStr, name) := cut 95 base | .error unnamed
  if name = [] then .error unnamed
  let invalid : Err := .new (ascii "store: migration " ++ text.quote filename ++
    ascii " has an invalid version " ++ text.quote versionStr)
  let some version := atoi versionStr | .error invalid
  if version ≤ 0 then .error invalid
  pure (version, name, direction)

/-- One round of the loop over the directory. The map is the list of its values. -/
def addScript (byVersion : List Migration) (file : ScriptFile) : Except Err (List Migration) := do
  let (version, name, direction) ← parseMigrationName text file.name
  let m := (byVersion.find? (·.version = version)).getD { version, name }
  if m.name ≠ name then
    .error (.new (ascii "store: migration " ++ fourDigits version ++
      ascii " has conflicting names " ++ text.quote m.name ++ ascii " and " ++ text.quote name))
  let m : Migration :=
    match direction with
    | .up => { m with up := file.body, checksum := hexString (text.sum256 file.body) }
    | .down => { m with down := file.body }
  pure (m :: byVersion.filter (·.version ≠ version))

/-- Whether a migration has both scripts. -/
def checkScripts (m : Migration) : Except Err Unit :=
  let label := ascii "store: migration " ++ fourDigits m.version ++ ascii "_" ++ m.name
  if m.up = [] then .error (.new (label ++ ascii " has no .up.sql"))
  else if m.down = [] then .error (.new (label ++ ascii " has no .down.sql"))
  else .ok ()

/-- The check of the versions against the positions, from position `i` on. -/
def checkContiguous (i : Nat) : List Migration → Except Err Unit
  | [] => .ok ()
  | m :: rest =>
    if m.version ≠ i + 1 then
      .error (.new (ascii "store: migration versions must be contiguous from 1; found " ++
        fourDigits m.version ++ ascii " at position " ++ itoa (i + 1)))
    else checkContiguous (i + 1) rest

/-- `LoadMigrations`. Which of several incomplete migrations is reported depends on the order
in which Go goes through a map; whether one is does not. -/
def loadMigrations (files : List ScriptFile) : Except Err (List Migration) := do
  let byVersion ← files.foldlM (addScript text) []
  byVersion.forM checkScripts
  let out := byVersion.insertionSort fun a b => a.version ≤ b.version
  checkContiguous 0 out
  pure out

/-- The versions count the positions from 1. -/
def Contiguous (migrations : List Migration) : Prop :=
  ∀ (i : Nat) (m : Migration), migrations[i]? = some m → m.version = i + 1

theorem checkContiguous_ok : ∀ {migrations : List Migration} {i : Nat},
    checkContiguous i migrations = .ok () →
      ∀ (j : Nat) (m : Migration), migrations[j]? = some m → m.version = i + j + 1
  | [], _, _, _, _, hm => absurd hm (by simp)
  | m :: rest, i, h, j, m', hm => by
    rw [checkContiguous] at h
    split at h
    · cases h
    next hversion =>
    cases j with
    | zero =>
      cases hm
      simpa using hversion
    | succ j =>
      have hrest := checkContiguous_ok h j m' (by simpa using hm)
      omega

variable {files : List ScriptFile}

theorem loadMigrations_contiguous {migrations : List Migration}
    (h : loadMigrations text files = .ok migrations) : Contiguous migrations := by
  unfold loadMigrations at h
  cases hfold : files.foldlM (addScript text) [] with
  | error e => rw [hfold] at h; cases h
  | ok byVersion =>
  rw [hfold] at h
  cases hscripts : byVersion.forM checkScripts with
  | error e => simp only [bind, Except.bind, hscripts] at h; cases h
  | ok u =>
  simp only [bind, Except.bind, hscripts] at h
  split at h
  · cases h
  next hcheck =>
  cases h
  intro i m hm
  have hversion := checkContiguous_ok hcheck i m hm
  omega

/-! ## The runner -/

variable {σ : Type}

/-- A database: its schema, and `schema_migrations` once it has been created. -/
structure SchemaDB (σ : Type) where
  schema : σ
  recorded : Option (Table Int AppliedMigration AppliedMigration.version) := none

/-- What the environment decides for one transaction or statement: what the clock shows,
whether it is reported as failed, and whether such a failure comes after the commit. -/
structure Outcome where
  now : Int := 0
  failure : Option Err := none
  committed : Bool := false

inductive MigrateOp where
  | createTable
  | readTable
  | apply (version : Int)
  | revert (version : Int)
  deriving DecidableEq

abbrev MigrateProg (σ α : Type) := Prog MigrateOp Outcome (SchemaDB σ) α

/-- `inTx`: a failure before the commit rolls everything back. -/
def Outcome.inTx (c : Outcome) (fn : Int → SchemaDB σ → Except Err (SchemaDB σ))
    (db : SchemaDB σ) : Except Err Unit × SchemaDB σ :=
  match fn c.now db, c.failure with
  | .error e, none => (.error e, db)
  | .error _, some e => (.error e, db)
  | .ok db', some e => (.error e, if c.committed then db' else db)
  | .ok db', none => (.ok (), db')

def createTable : MigrateProg σ (Except Err Unit) :=
  .exec .createTable fun c db =>
    c.inTx (fun _ db => .ok { db with recorded := some (db.recorded.getD .empty) }) db

/-- The rows of `schema_migrations`, oldest version first. -/
def SchemaDB.listed (db : SchemaDB σ) : List AppliedMigration :=
  ((db.recorded.map Table.rows).getD []).insertionSort fun a b => a.version ≤ b.version

def readTable : MigrateProg σ (Except Err (List AppliedMigration)) :=
  .exec .readTable fun c db =>
    match c.failure with
    | some e => (.error e, db)
    | none => (.ok db.listed, db)

def applied : MigrateProg σ (Except Err (List AppliedMigration)) := do
  match ← createTable with
  | .error e => pure (.error (.wrap (ascii "store: creating schema_migrations: " ++ e.text) e))
  | .ok () =>
    match ← readTable with
    | .error e => pure (.error (.wrap (ascii "store: reading schema_migrations: " ++ e.text) e))
    | .ok rows => pure (.ok rows)

def short (sum : Bytes) : Bytes := if sum.length > 12 then sum.take 12 else sum

def verifyRows : List Migration → List AppliedMigration → Option Err
  | _, [] => none
  | [], _ :: _ => none
  | want :: migrations, a :: applied =>
    if a.version ≠ want.version ∨ a.name ≠ want.name then
      some (sentinelFor errDirtySchema (ascii "version " ++ itoa a.version ++
        ascii " is recorded as " ++ text.quote a.name ++ ascii " but this binary has " ++
        text.quote want.name))
    else if a.checksum ≠ want.checksum then
      some (sentinelFor errDirtySchema (fourDigits a.version ++ ascii "_" ++ a.name ++
        ascii " (recorded " ++ short a.checksum ++ ascii ", computed " ++ short want.checksum ++
        ascii ")"))
    else verifyRows migrations applied

def verifyApplied (migrations : List Migration) (applied : List AppliedMigration) : Option Err :=
  if applied.length > migrations.length then
    some (sentinelFor errSchemaAhead (ascii "database is at version " ++
      itoa ((applied.getLast?.map AppliedMigration.version).getD 0) ++
      ascii ", this binary knows " ++ itoa migrations.length))
  else verifyRows text migrations applied

abbrev Effect (σ : Type) := Bytes → σ → Except Err σ

variable (effect : Effect σ)

def recordMigration (mig : Migration) (now : Int) (db : SchemaDB σ) : Except Err (SchemaDB σ) :=
  match (db.recorded.getD .empty).insert ⟨mig.version, mig.name, mig.checksum, now⟩ with
  | none => .error (.new (ascii "UNIQUE constraint failed: schema_migrations.version"))
  | some rows => .ok { db with recorded := some rows }

def runUpTx (mig : Migration) (now : Int) (db : SchemaDB σ) : Except Err (SchemaDB σ) :=
  let label := fourDigits mig.version ++ ascii "_" ++ mig.name ++ ascii ": "
  match effect mig.up db.schema with
  | .error e => .error (.wrap (ascii "store: applying " ++ label ++ e.text) e)
  | .ok schema =>
    match recordMigration mig now { db with schema } with
    | .error e => .error (.wrap (ascii "store: recording " ++ label ++ e.text) e)
    | .ok db' => .ok db'

def runUp (mig : Migration) : MigrateProg σ (Except Err Unit) :=
  .exec (.apply mig.version) fun c db => c.inTx (runUpTx effect mig) db

def runAll (ran : Nat) : List Migration → MigrateProg σ (Nat × Option Err)
  | [] => pure (ran, none)
  | mig :: rest => do
    match ← runUp effect mig with
    | .error e => pure (ran, some e)
    | .ok () => runAll (ran + 1) rest

/-- How `Up` and `Down` begin: with the binary's list, and what is recorded if it fits. -/
def verified (files : List ScriptFile)
    (next : List Migration → List AppliedMigration → MigrateProg σ (Nat × Option Err)) :
    MigrateProg σ (Nat × Option Err) :=
  match loadMigrations text files with
  | .error e => pure (0, some e)
  | .ok migrations => do
    match ← applied with
    | .error e => pure (0, some e)
    | .ok applied =>
      match verifyApplied text migrations applied with
      | some e => pure (0, some e)
      | none => next migrations applied

/-- `Up`: how many migrations ran, and the error if there was one. -/
def up (files : List ScriptFile) : MigrateProg σ (Nat × Option Err) :=
  verified text files fun migrations applied =>
    runAll effect 0 (migrations.drop applied.length)

def revertTx (mig : Migration) (_now : Int) (db : SchemaDB σ) : Except Err (SchemaDB σ) :=
  match effect mig.down db.schema with
  | .error e =>
    .error (.wrap (ascii "store: reverting " ++ fourDigits mig.version ++ ascii "_" ++ mig.name ++
      ascii ": " ++ e.text) e)
  | .ok schema =>
    .ok { schema, recorded := db.recorded.map fun t => t.deleteWhere (·.version = mig.version) }

def revert (mig : Migration) : MigrateProg σ (Except Err Unit) :=
  .exec (.revert mig.version) fun c db => c.inTx (revertTx effect mig) db

/-- The loop of `Down`, where `i` counts the migrations that are left. -/
def revertTo (migrations : List Migration) (target : Nat) :
    (i reverted : Nat) → MigrateProg σ (Nat × Option Err)
  | 0, reverted => pure (reverted, none)
  | i + 1, reverted =>
    if i < target then pure (reverted, none)
    else
      match migrations[i]? with
      | none => pure (reverted, some (.new (ascii "runtime error: index out of range")))
      | some mig => do
        match ← revert effect mig with
        | .error e => pure (reverted, some e)
        | .ok () => revertTo migrations target i (reverted + 1)

def down (files : List ScriptFile) (target : Int) : MigrateProg σ (Nat × Option Err) :=
  verified text files fun migrations applied =>
    if target < 0 ∨ target > applied.length then
      pure (0, some (.new (ascii "store: cannot roll back to version " ++ itoa target ++
        ascii "; database is at " ++ itoa applied.length)))
    else revertTo effect migrations target.toNat applied.length 0

inductive Command where
  | up
  | down (target : Int)
  deriving DecidableEq

def Command.prog (files : List ScriptFile) : Command → MigrateProg σ (Nat × Option Err)
  | .up => Store.up text effect files
  | .down target => Store.down text effect files target

/-- The databases that runs, each cut short at any point, make of an empty one. -/
inductive Migrated (files : List ScriptFile) (empty : σ) : SchemaDB σ → Prop where
  | empty : Migrated files empty { schema := empty }
  | run {db db' : SchemaDB σ} (command : Command) : Migrated files empty db →
      (command.prog text effect files).Visits db db' → Migrated files empty db'

/-! ## What is recorded, compared with the binary's list -/

/-- What `verifyApplied` compares of a migration. -/
def Migration.recordKey (m : Migration) : Int × Bytes × Bytes := (m.version, m.name, m.checksum)

/-- What `verifyApplied` compares of a row. -/
def AppliedMigration.recordKey (a : AppliedMigration) : Int × Bytes × Bytes :=
  (a.version, a.name, a.checksum)

variable {text effect}

theorem verifyRows_none : ∀ {migrations : List Migration} {applied : List AppliedMigration},
    applied.length ≤ migrations.length → (verifyRows text migrations applied = none ↔
        applied.map AppliedMigration.recordKey <+: migrations.map Migration.recordKey)
  | migrations, [], _ => by simp [verifyRows]
  | want :: migrations, a :: applied, hlen => by
    rw [verifyRows, map_cons, map_cons, cons_prefix_cons]
    split
    · next hdiffers =>
      refine ⟨nofun, fun h => ?_⟩
      have hversion : a.version = want.version := congrArg (·.1) h.1
      have hname : a.name = want.name := congrArg (·.2.1) h.1
      simp [hversion, hname] at hdiffers
    next hsame =>
    split
    · next hdiffers =>
      refine ⟨nofun, fun h => ?_⟩
      exact absurd (congrArg (·.2.2) h.1) hdiffers
    next hchecksum =>
    simp only [not_or, not_not] at hsame hchecksum
    rw [verifyRows_none (by simpa using hlen)]
    simp [AppliedMigration.recordKey, Migration.recordKey, hsame, hchecksum]

/-- **What is recorded passes exactly if it is a beginning of the binary's list.** -/
theorem verifyApplied_none {migrations : List Migration} {applied : List AppliedMigration} :
    verifyApplied text migrations applied = none ↔
      applied.map AppliedMigration.recordKey <+: migrations.map Migration.recordKey := by
  unfold verifyApplied
  split
  · next hlen =>
    refine ⟨nofun, fun h => ?_⟩
    have hle := h.length_le
    simp only [length_map] at hle
    omega
  · next hlen => exact verifyRows_none (by omega)

/-! ## The invariant -/

/-- The schemas that committed scripts lead to: each up script from the version before its
own, each down script back to it. -/
inductive Course (effect : Effect σ) (migrations : List Migration) (empty : σ) :
    Nat → σ → Prop where
  | empty : Course effect migrations empty 0 empty
  | up {k : Nat} {s s' : σ} {mig : Migration} : Course effect migrations empty k s →
      migrations[k]? = some mig → effect mig.up s = .ok s' →
      Course effect migrations empty (k + 1) s'
  | down {k : Nat} {s s' : σ} {mig : Migration} : Course effect migrations empty (k + 1) s →
      migrations[k]? = some mig → effect mig.down s = .ok s' →
      Course effect migrations empty k s'

def SchemaDB.rows (db : SchemaDB σ) : List AppliedMigration :=
  (db.recorded.map Table.rows).getD []

/-- The database is at version `k` of the list. -/
structure AtVersion (effect : Effect σ) (migrations : List Migration) (empty : σ) (k : Nat)
    (db : SchemaDB σ) : Prop where
  le : k ≤ migrations.length
  rows : db.rows.map AppliedMigration.recordKey =
    (migrations.take k).map Migration.recordKey
  course : Course effect migrations empty k db.schema

variable {migrations : List Migration} {empty : σ} {k : Nat} {db db' : SchemaDB σ}

namespace AtVersion

theorem versions (h : AtVersion effect migrations empty k db) :
    db.rows.map AppliedMigration.version = (migrations.take k).map Migration.version := by
  have hkeys := congrArg (List.map Prod.fst) h.rows
  rw [map_map, map_map] at hkeys
  exact hkeys

theorem listed_eq (hcont : Contiguous migrations) (h : AtVersion effect migrations empty k db) :
    db.listed = db.rows := by
  apply List.Pairwise.insertionSort_eq
  have hsorted : ((migrations.take k).map Migration.version).Pairwise (· ≤ ·) := by
    rw [pairwise_iff_getElem]
    intro i j hi hj hij
    simp only [getElem_map, getElem_take]
    simp only [length_map, length_take] at hi hj
    rw [hcont i _ (getElem?_eq_getElem (by omega)), hcont j _ (getElem?_eq_getElem (by omega))]
    omega
  rw [← h.versions, pairwise_map] at hsorted
  exact hsorted

theorem listed (hcont : Contiguous migrations) (h : AtVersion effect migrations empty k db) :
    db.listed.map AppliedMigration.recordKey = (migrations.take k).map Migration.recordKey := by
  rw [h.listed_eq hcont, h.rows]

theorem listed_length (hcont : Contiguous migrations) (h : AtVersion effect migrations empty k db) :
    db.listed.length = k := by
  have hlen := congrArg List.length (h.listed hcont)
  have hle := h.le
  simpa [hle] using hlen

end AtVersion

/-! ## One transaction -/

theorem Outcome.inTx_cases (c : Outcome) (fn : Int → SchemaDB σ → Except Err (SchemaDB σ))
    (db : SchemaDB σ) :
    (∃ e, (c.inTx fn db).1 = .error e ∧
      ((c.inTx fn db).2 = db ∨ fn c.now db = .ok (c.inTx fn db).2)) ∨
    ((c.inTx fn db).1 = .ok () ∧ fn c.now db = .ok (c.inTx fn db).2) := by
  unfold inTx
  split
  · exact .inl ⟨_, rfl, .inl rfl⟩
  · exact .inl ⟨_, rfl, .inl rfl⟩
  · next hfn _ =>
    refine .inl ⟨_, rfl, ?_⟩
    cases c.committed with
    | true => exact .inr hfn
    | false => exact .inl rfl
  · next hfn _ => exact .inr ⟨rfl, hfn⟩

variable {mig : Migration}

theorem runUp_step (h : AtVersion effect migrations empty k db) (hmig : migrations[k]? = some mig)
    {now : Int} (htx : runUpTx effect mig now db = .ok db') :
    AtVersion effect migrations empty (k + 1) db' := by
  unfold runUpTx at htx
  split at htx
  · cases htx
  next schema heffect =>
  split at htx
  · cases htx
  next recorded hrecord =>
  cases htx
  unfold recordMigration at hrecord
  split at hrecord
  · cases hrecord
  next rows hrows =>
  cases hrecord
  obtain ⟨hlt, hget⟩ := List.getElem?_eq_some_iff.1 hmig
  refine ⟨hlt, ?_, h.course.up hmig heffect⟩
  have happend : rows.rows = db.rows ++ [⟨mig.version, mig.name, mig.checksum, now⟩] := by
    rw [Table.rows_insert hrows]
    cases hrec : db.recorded <;> simp [SchemaDB.rows, hrec, Table.empty]
  show rows.rows.map _ = _
  rw [happend, map_append, h.rows, take_add_one, hmig, map_append]
  rfl

theorem revert_step (hcont : Contiguous migrations)
    (h : AtVersion effect migrations empty (k + 1) db) (hmig : migrations[k]? = some mig)
    {now : Int} (htx : revertTx effect mig now db = .ok db') :
    AtVersion effect migrations empty k db' := by
  unfold revertTx at htx
  split at htx
  · cases htx
  next schema heffect =>
  cases htx
  refine ⟨Nat.le_of_succ_le h.le, ?_, h.course.down hmig heffect⟩
  have hrows : SchemaDB.rows
      { schema, recorded := db.recorded.map fun t => t.deleteWhere (·.version = mig.version) } =
      db.rows.filter fun a => !decide (a.version = mig.version) := by
    cases hrec : db.recorded <;> simp [SchemaDB.rows, hrec, Table.deleteWhere]
  rw [hrows]
  -- the last row is the one of this version, and those before it are of lower ones
  have hsplit := h.rows
  rw [take_add_one, hmig, map_append] at hsplit
  obtain ⟨front, last, hdb, hfront, hlast⟩ := map_eq_append_iff.1 hsplit
  have hlower : ∀ a ∈ front, (!decide (a.version = mig.version)) = true := by
    intro a ha
    have hmem : a.recordKey ∈ (migrations.take k).map Migration.recordKey :=
      hfront ▸ mem_map_of_mem ha
    obtain ⟨m, hm, hkey⟩ := mem_map.1 hmem
    obtain ⟨i, hi, rfl⟩ := mem_take_iff_getElem.1 hm
    have hversion : a.version = i + 1 := by
      rw [← hcont i _ (getElem?_eq_getElem (by omega))]
      exact (congrArg (·.1) hkey).symm
    have hmigVersion := hcont k mig hmig
    simp only [Bool.not_eq_true', decide_eq_false_iff_not]
    omega
  have hgone : ∀ a ∈ last, ¬ (!decide (a.version = mig.version)) = true := by
    intro a ha
    have hmem : a.recordKey ∈ (some mig).toList.map Migration.recordKey :=
      hlast ▸ mem_map_of_mem ha
    have hversion : a.version = mig.version := congrArg (·.1) (mem_singleton.1 hmem)
    simp [hversion]
  rw [hdb, filter_append, filter_eq_self.2 hlower, filter_eq_nil_iff.2 hgone, append_nil, hfront]

/-! ## Whole runs -/

def AtSome (effect : Effect σ) (migrations : List Migration) (empty : σ) (db : SchemaDB σ) : Prop :=
  ∃ k, AtVersion effect migrations empty k db

theorem inTx_along {op : MigrateOp} {fn : Int → SchemaDB σ → Except Err (SchemaDB σ)}
    {I : SchemaDB σ → Prop} {R : Except Err Unit → SchemaDB σ → Prop} (hI : I db)
    (hrolled : ∀ e, R (.error e) db)
    (hdone : ∀ now db', fn now db = .ok db' → I db' ∧ ∀ r, R r db') :
    (Prog.exec op fun (c : Outcome) db => c.inTx fn db).Along I R db := by
  refine Prog.along_exec hI fun c => ?_
  obtain ⟨e, hr, hdb | hdb⟩ | ⟨-, hdb⟩ := c.inTx_cases fn db
  · rw [hr, hdb]
    exact ⟨hI, hrolled e⟩
  · exact ⟨(hdone _ _ hdb).1, (hdone _ _ hdb).2 _⟩
  · exact ⟨(hdone _ _ hdb).1, (hdone _ _ hdb).2 _⟩

/-- Reading what is recorded, which creates the table if it is missing: `J` is what both keep. -/
theorem applied_along {I J : SchemaDB σ → Prop} (hJI : ∀ db, J db → I db) (hJ : J db)
    (hcreated : ∀ db, J db → J { db with recorded := some (db.recorded.getD .empty) }) :
    (applied (σ := σ)).Along I
      (fun r db' => J db' ∧ ∀ rows, r = .ok rows → rows = db'.listed) db := by
  refine .bind ?_
  apply inTx_along (hJI db hJ)
  · exact fun e => ⟨hJI db hJ, hJ, nofun⟩
  intro now db' hdb
  cases hdb
  have hJ' := hcreated db hJ
  refine ⟨hJI _ hJ', fun r => ?_⟩
  cases r with
  | error e => exact ⟨hJI _ hJ', hJ', nofun⟩
  | ok u =>
  refine .bind ?_
  refine Prog.along_exec (hJI _ hJ') fun c => ?_
  cases c.failure with
  | some e => exact ⟨hJI _ hJ', hJI _ hJ', hJ', nofun⟩
  | none =>
    refine ⟨hJI _ hJ', hJI _ hJ', hJ', fun rows hrows => ?_⟩
    exact (Except.ok.inj hrows).symm

theorem AtVersion.created (h : AtVersion effect migrations empty k db) :
    AtVersion effect migrations empty k { db with recorded := some (db.recorded.getD .empty) } := by
  refine ⟨h.le, ?_, h.course⟩
  rw [← h.rows]
  cases hrec : db.recorded <;> simp [SchemaDB.rows, hrec, Table.empty]

/-- From a version on, the rest of a run keeps the invariant if what follows the comparison
does; the comparison itself passes. -/
theorem verified_along (hload : loadMigrations text files = .ok migrations)
    (h : AtVersion effect migrations empty k db)
    {next : List Migration → List AppliedMigration → MigrateProg σ (Nat × Option Err)}
    {R : Nat × Option Err → SchemaDB σ → Prop} (herror : ∀ n e db', R (n, some e) db')
    (hnext : ∀ rows db', rows.length = k → AtVersion effect migrations empty k db' →
      (next migrations rows).Along (AtSome effect migrations empty) R db') :
    (verified text files next).Along (AtSome effect migrations empty) R db := by
  have hcont := loadMigrations_contiguous text hload
  unfold verified
  rw [hload]
  refine .bind ?_
  refine (applied_along (J := AtVersion effect migrations empty k) (fun _ hJ => ⟨k, hJ⟩) h
    fun _ hJ => hJ.created).mono ?_
  rintro r db' ⟨hdb', hrows⟩
  cases r with
  | error e => exact ⟨⟨k, hdb'⟩, herror _ _ _⟩
  | ok rows =>
  obtain rfl := hrows rows rfl
  have hverify : verifyApplied text migrations db'.listed = none := by
    rw [verifyApplied_none, hdb'.listed hcont]
    exact ( take_prefix k migrations).map _
  simp only [hverify]
  exact hnext _ db' (hdb'.listed_length hcont) hdb'

theorem runAll_along : ∀ {rest : List Migration} {k ran : Nat} {db : SchemaDB σ},
    AtVersion effect migrations empty k db → rest = migrations.drop k →
      (runAll effect ran rest).Along (AtSome effect migrations empty)
        (fun r db' => r.2 = none → AtVersion effect migrations empty migrations.length db') db
  | [], k, ran, db, h, hrest => by
    have hk : k = migrations.length := by
      have hlen := congrArg List.length hrest
      have hle := h.le
      simp only [length_nil, length_drop] at hlen
      omega
    exact ⟨⟨k, h⟩, fun _ => hk ▸ h⟩
  | mig :: rest, k, ran, db, h, hrest => by
    obtain ⟨hmig, hdrop⟩ : migrations[k]? = some mig ∧ rest = migrations.drop (k + 1) := by
      constructor
      · rw [← head?_drop, ← hrest, head?_cons]
      · rw [← tail_drop, ← hrest, tail_cons]
    refine .bind ?_
    apply inTx_along ⟨k, h⟩
    · exact fun e => ⟨⟨k, h⟩, nofun⟩
    intro now db' htx
    have hnext := runUp_step h hmig htx
    refine ⟨⟨k + 1, hnext⟩, fun r => ?_⟩
    cases r with
    | error e => exact ⟨⟨k + 1, hnext⟩, nofun⟩
    | ok u => exact runAll_along hnext hdrop

theorem revertTo_along (hcont : Contiguous migrations) {target : Nat} :
    ∀ {i reverted : Nat} {db : SchemaDB σ}, AtVersion effect migrations empty i db → target ≤ i →
      (revertTo effect migrations target i reverted).Along (AtSome effect migrations empty)
        (fun r db' => r.2 = none → AtVersion effect migrations empty target db') db
  | 0, reverted, db, h, hi => by
    obtain rfl : target = 0 := by omega
    exact ⟨⟨0, h⟩, fun _ => h⟩
  | i + 1, reverted, db, h, hi => by
    rw [revertTo]
    split
    · next hlt =>
      obtain rfl : target = i + 1 := by omega
      exact ⟨⟨i + 1, h⟩, fun _ => h⟩
    next hge =>
    have hlt : i < migrations.length := h.le
    rw [getElem?_eq_getElem hlt]
    refine .bind ?_
    apply inTx_along ⟨i + 1, h⟩
    · exact fun e => ⟨⟨i + 1, h⟩, nofun⟩
    intro now db' htx
    have hnext := revert_step hcont h (getElem?_eq_getElem hlt) htx
    refine ⟨⟨i, hnext⟩, fun r => ?_⟩
    cases r with
    | error e => exact ⟨⟨i, hnext⟩, nofun⟩
    | ok u => exact revertTo_along hcont hnext (by omega)

def Command.Done (effect : Effect σ) (migrations : List Migration) (empty : σ) (db : SchemaDB σ) :
    Command → Prop
  | .up => AtVersion effect migrations empty migrations.length db
  | .down target => 0 ≤ target ∧ AtVersion effect migrations empty target.toNat db

theorem Command.along (hload : loadMigrations text files = .ok migrations)
    (h : AtVersion effect migrations empty k db) (command : Command) :
    (command.prog text effect files).Along (AtSome effect migrations empty)
      (fun r db' => r.2 = none → command.Done effect migrations empty db') db := by
  have hcont := loadMigrations_contiguous text hload
  cases command with
  | up =>
    refine verified_along hload h (fun _ _ _ => nofun) fun rows db' hlen hdb' => ?_
    exact runAll_along hdb' (hlen ▸ rfl)
  | down target =>
  refine verified_along hload h (fun _ _ _ => nofun) fun rows db' hlen hdb' => ?_
  split
  · exact ⟨⟨k, hdb'⟩, nofun⟩
  next htarget =>
  rw [not_or, hlen] at htarget
  have hle : target.toNat ≤ rows.length := by omega
  refine (revertTo_along hcont (hlen ▸ hdb') hle).mono ?_
  exact fun r db'' hr hok => ⟨by omega, hr hok⟩

theorem Migrated.atSome (hload : loadMigrations text files = .ok migrations)
    (h : Migrated text effect files empty db) : AtSome effect migrations empty db := by
  induction h with
  | empty => exact ⟨0, Nat.zero_le _, rfl, .empty⟩
  | run command _ hvisits ih =>
    obtain ⟨k, hk⟩ := ih
    exact (command.along hload hk).visits hvisits

/-! ## Scripts that undo each other -/

/-- Every down script undoes its up script. -/
def Undoes (effect : Effect σ) (migrations : List Migration) : Prop :=
  ∀ m ∈ migrations, ∀ s s', effect m.up s = .ok s' → effect m.down s' = .ok s

def runUps (effect : Effect σ) (s : σ) (migrations : List Migration) : Except Err σ :=
  migrations.foldlM (fun s m => effect m.up s) s

theorem runUps_take_succ (hmig : migrations[k]? = some mig) :
    runUps effect empty (migrations.take (k + 1)) =
      runUps effect empty (migrations.take k) >>= effect mig.up := by
  rw [take_add_one, hmig, runUps, foldlM_append]
  simp only [Option.toList_some, foldlM_cons, foldlM_nil, bind_pure]
  rfl

/-- If downs undo ups, only the ups that were not undone matter. -/
theorem Course.runUps (hundoes : Undoes effect migrations) {s : σ}
    (h : Course effect migrations empty k s) :
    runUps effect empty (migrations.take k) = .ok s := by
  induction h with
  | empty => rfl
  | up _ hmig heffect ih =>
    rw [runUps_take_succ hmig, ih]
    exact heffect
  | @down k s s' mig _ hmig heffect ih =>
  rw [runUps_take_succ hmig] at ih
  cases hbefore : Store.runUps effect empty (migrations.take k) with
  | error e => rw [hbefore] at ih; cases ih
  | ok before =>
  rw [hbefore] at ih
  have hundone := hundoes mig (mem_of_getElem? hmig) before s ih
  rw [heffect] at hundone
  rw [Except.ok.inj hundone]

/-! ## What does not fit -/

theorem Command.refused (hload : loadMigrations text files = .ok migrations)
    (hnot : ¬ db.listed.map AppliedMigration.recordKey <+: migrations.map Migration.recordKey)
    (command : Command) :
    (command.prog text effect files).Along (· = db) (fun r _ => r.1 = 0 ∧ r.2 ≠ none) db := by
  -- there are rows, and so there is a table to be left alone
  have hcreated : { db with recorded := some (db.recorded.getD .empty) } = db := by
    cases hrec : db.recorded with
    | some rows =>
      obtain ⟨schema, recorded⟩ := db
      obtain rfl : recorded = some rows := hrec
      rfl
    | none =>
    refine absurd ?_ hnot
    rw [SchemaDB.listed, hrec]
    exact nil_prefix
  have hbegin : ∀ next : List Migration → List AppliedMigration → MigrateProg σ (Nat × Option Err),
      (verified text files next).Along (· = db) (fun r _ => r.1 = 0 ∧ r.2 ≠ none) db := by
    intro next
    unfold verified
    rw [hload]
    refine .bind ?_
    refine (applied_along (J := (· = db)) (fun _ hJ => hJ) rfl ?_).mono ?_
    · rintro _ rfl
      exact hcreated
    rintro r db' ⟨hsame, hrows⟩
    cases r with
    | error e => exact ⟨hsame, rfl, by simp⟩
    | ok rows =>
    obtain rfl := hrows rows rfl
    rw [hsame]
    cases hverify : verifyApplied text migrations db.listed with
    | some e =>
      simp only [hverify]
      exact ⟨rfl, rfl, by simp⟩
    | none => exact absurd (verifyApplied_none.1 hverify) hnot
  cases command <;> exact hbegin _

/-- **Migrations always leave a recorded prefix.** Whatever runs of `Up` and `Down` were cut
short wherever they were, `schema_migrations` lists the first `k` migrations of the binary, and
the schema is where the committed scripts lead: if downs undo ups, where the first `k` ups
lead. A run that succeeds has reached the end of the list, or its target. Where the table does
not list a beginning of the binary's list, a run fails and changes nothing. -/
theorem migrations_prefix_recorded (text : MigrateText) (effect : Effect σ)
    {files : List ScriptFile} {migrations : List Migration}
    (hload : loadMigrations text files = .ok migrations) (empty : σ) :
    (∀ db, Migrated text effect files empty db → (∃ k ≤ migrations.length,
        db.listed.map AppliedMigration.recordKey = (migrations.take k).map Migration.recordKey ∧
        Course effect migrations empty k db.schema ∧
        (Undoes effect migrations → runUps effect empty (migrations.take k) = .ok db.schema)) ∧
      (∀ n db', (up text effect files).Ends db (n, none) db' →
        db'.listed.map AppliedMigration.recordKey = migrations.map Migration.recordKey) ∧
      (∀ target n db', (down text effect files target).Ends db (n, none) db' →
        0 ≤ target ∧ target ≤ migrations.length ∧ db'.listed.map AppliedMigration.recordKey =
            (migrations.take target.toNat).map Migration.recordKey)) ∧
    (∀ db : SchemaDB σ,
      ¬ db.listed.map AppliedMigration.recordKey <+: migrations.map Migration.recordKey →
      ∀ (command : Command) db', ((command.prog text effect files).Visits db db' → db' = db) ∧
        ∀ n err, (command.prog text effect files).Ends db (n, err) db' →
          n = 0 ∧ err ≠ none ∧ db' = db) := by
  have hcont := loadMigrations_contiguous text hload
  constructor
  · intro db hdb
    obtain ⟨k, hk⟩ := hdb.atSome hload
    refine ⟨⟨k, hk.le, hk.listed hcont, hk.course, hk.course.runUps⟩, ?_, ?_⟩
    · intro n db' hends
      have hdone := ((Command.up.along hload hk).ends hends).2 rfl
      rw [AtVersion.listed hcont hdone, take_length]
    intro target n db' hends
    obtain ⟨hpos, hdone⟩ := (((Command.down target).along hload hk).ends hends).2 rfl
    have hle := hdone.le
    exact ⟨hpos, by omega, hdone.listed hcont⟩
  intro db hnot command db'
  have hrefused : (command.prog text effect files).Along (· = db)
      (fun r _ => r.1 = 0 ∧ r.2 ≠ none) db := command.refused hload hnot
  refine ⟨fun hvisits => hrefused.visits hvisits, fun n err hends => ?_⟩
  obtain ⟨hsame, hn, herr⟩ := hrefused.ends hends
  exact ⟨hn, herr, hsame⟩

def sampleFiles : List ScriptFile :=
  [⟨ascii "0001_initial_schema.down.sql", [2]⟩, ⟨ascii "0001_initial_schema.up.sql", [1]⟩,
    ⟨ascii "0002_diagnostics.down.sql", [4]⟩, ⟨ascii "0002_diagnostics.up.sql", [3]⟩]

def sampleMigrations : List Migration :=
  [⟨1, ascii "initial_schema", [1], [2], ascii "01"⟩, ⟨2, ascii "diagnostics", [3], [4], ascii "03"⟩]

/-- A first run that is cut short after its first script leaves the first migration recorded. -/
theorem interrupted_first_run : loadMigrations ⟨id, id⟩ sampleFiles = .ok sampleMigrations ∧
    ∃ db, Migrated ⟨id, id⟩ (fun script s => .ok (s ++ script)) sampleFiles ([] : Bytes) db ∧
      db.schema = [1] ∧
      ∃ k ≤ 2, db.listed.map AppliedMigration.recordKey =
        (sampleMigrations.take k).map Migration.recordKey := by
  have hload : loadMigrations ⟨id, id⟩ sampleFiles = .ok sampleMigrations := by decide +kernel
  have hvisits : (Command.up.prog ⟨id, id⟩ (fun script s => .ok (s ++ script)) sampleFiles).Visits
      { schema := ([] : Bytes) }
      ⟨[1], some ⟨[⟨1, ascii "initial_schema", ascii "01", 0⟩], nodup_singleton _⟩⟩ := by
    simp only [Command.prog, up, verified, hload]
    exact .inr ⟨{}, .inr ⟨{}, .inr ⟨{}, .inl rfl⟩⟩⟩
  have hdb := Migrated.run .up .empty hvisits
  obtain ⟨⟨k, hk, hlisted, -⟩, -⟩ := (migrations_prefix_recorded ⟨id, id⟩
    (fun script s => .ok (s ++ script)) hload ([] : Bytes)).1 _ hdb
  exact ⟨hload, _, hdb, rfl, k, hk, hlisted⟩

end SmtpProxy.Store
