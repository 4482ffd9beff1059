import Mathlib.Data.List.Nodup
import Mathlib.Logic.Function.Basic

/-!
# Keyed tables

A relational table with a primary key, as a list of rows whose keys are
pairwise distinct. The three statements a store issues are `updateWhere`,
`deleteWhere` and `insert`; each keeps the key constraint by construction, so
no caller has to carry it.

What callers reason with is the pointwise view: `get k` is the row under key `k`, and
each statement is described by what it does to `get k` for every `k` (`get_updateWhere`,
`get_deleteWhere`, `get_insert`).
-/

namespace SmtpProxy.Lib

open List Option Function

theorem find?_agree {α : Type} {p q : α → Bool} {l : List α} (h : ∀ x ∈ l, p x = q x) :
    l.find? p = l.find? q := by
  induction l with
  | nil => rfl
  | cons x l ih =>
    rw [find?_cons, find?_cons, h x (.head _), ih fun y hy => h y (.tail _ hy)]

variable {κ ρ : Type} [DecidableEq κ] {key : ρ → κ}

/-- Rows with pairwise distinct keys. -/
@[ext] structure Table (κ ρ : Type) (key : ρ → κ) where
  rows : List ρ
  nodup : (rows.map key).Nodup

namespace Table

instance {κ ρ : Type} {key : ρ → κ} [DecidableEq ρ] : DecidableEq (Table κ ρ key) :=
  fun s t => decidable_of_iff (s.rows = t.rows) Table.ext_iff.symm

def empty : Table κ ρ key := ⟨[], nodup_nil⟩

def get (t : Table κ ρ key) (k : κ) : Option ρ :=
  t.rows.find? fun r => decide (key r = k)

/-- `UPDATE … SET f WHERE p`, for an assignment that leaves the key alone. -/
def updateWhere (t : Table κ ρ key) (p : ρ → Bool) (f : ρ → ρ)
    (hf : ∀ r, key (f r) = key r) : Table κ ρ key where
  rows := t.rows.map fun r => if p r then f r else r
  nodup := by
    have hkeys : (t.rows.map fun r => if p r then f r else r).map key = t.rows.map key := by
      rw [List.map_map]
      apply map_congr_left
      intro r _
      show key (if p r then f r else r) = key r
      split
      · exact hf r
      · rfl
    rw [hkeys]
    exact t.nodup

def deleteWhere (t : Table κ ρ key) (p : ρ → Bool) : Table κ ρ key where
  rows := t.rows.filter fun r => !p r
  nodup := (filter_sublist.map key).nodup t.nodup

/-- `INSERT`, refused when the key is taken. -/
def insert (t : Table κ ρ key) (r : ρ) : Option (Table κ ρ key) :=
  if h : key r ∈ t.rows.map key then none
  else some ⟨t.rows ++ [r], by
    rw [map_append]
    exact t.nodup.append (nodup_singleton _)
      (fun k hk hk' => h (mem_singleton.1 hk' ▸ hk))⟩

/-! ## The pointwise view -/

@[simp] theorem get_empty (k : κ) : (empty : Table κ ρ key).get k = none := rfl

variable {t : Table κ ρ key} {r : ρ}

theorem get_eq_some_iff {k : κ} : t.get k = some r ↔ r ∈ t.rows ∧ key r = k := by
  constructor
  · intro h
    exact ⟨mem_of_find?_eq_some h, by simpa using find?_some h⟩
  rintro ⟨hmem, rfl⟩
  obtain ⟨r', hr'⟩ : ∃ r', t.get (key r) = some r' := by
    rw [← isSome_iff_exists, get, find?_isSome]
    exact ⟨r, hmem, by simp⟩
  have hkey : key r' = key r := by simpa using find?_some hr'
  have hsame : r' = r :=
    inj_on_of_nodup_map t.nodup (mem_of_find?_eq_some hr') hmem hkey
  rw [hr', hsame]

theorem get_eq_none_iff {k : κ} : t.get k = none ↔ ∀ r ∈ t.rows, key r ≠ k := by
  simp [get, find?_eq_none]

theorem mem_of_get {k : κ} (h : t.get k = some r) : r ∈ t.rows :=
  (get_eq_some_iff.1 h).1

theorem key_of_get {k : κ} (h : t.get k = some r) : key r = k :=
  (get_eq_some_iff.1 h).2

theorem get_key (h : r ∈ t.rows) : t.get (key r) = some r :=
  get_eq_some_iff.2 ⟨h, rfl⟩

theorem get_updateWhere (t : Table κ ρ key) (p : ρ → Bool) (f : ρ → ρ)
    (hf : ∀ r, key (f r) = key r) (k : κ) :
    (t.updateWhere p f hf).get k = (t.get k).map fun r => if p r then f r else r := by
  cases hk : t.get k with
  | none =>
    rw [map_none, get_eq_none_iff]
    intro r hr
    obtain ⟨r₀, hr₀, rfl⟩ := List.mem_map.1 hr
    have hne := get_eq_none_iff.1 hk r₀ hr₀
    split
    · rw [hf]; exact hne
    · exact hne
  | some r₀ =>
  obtain ⟨hmem, hkey⟩ := get_eq_some_iff.1 hk
  rw [map_some, get_eq_some_iff]
  refine ⟨List.mem_map.2 ⟨r₀, hmem, rfl⟩, ?_⟩
  split
  · rw [hf]; exact hkey
  · exact hkey

theorem get_deleteWhere (t : Table κ ρ key) (p : ρ → Bool) (k : κ) :
    (t.deleteWhere p).get k = (t.get k).filter fun r => !p r := by
  cases hk : t.get k with
  | none =>
    rw [filter_none, get_eq_none_iff]
    intro r hr
    exact get_eq_none_iff.1 hk r (mem_of_mem_filter hr)
  | some r₀ =>
  obtain ⟨hmem, hkey⟩ := get_eq_some_iff.1 hk
  cases hp : p r₀ with
  | false =>
    rw [filter_some, if_pos (by simp [hp]), get_eq_some_iff]
    exact ⟨mem_filter.2 ⟨hmem, by simp [hp]⟩, hkey⟩
  | true =>
  rw [filter_some, if_neg (by simp [hp]), get_eq_none_iff]
  intro r hr hrk
  obtain ⟨hrm, hrp⟩ := mem_filter.1 hr
  have hsame : r = r₀ := inj_on_of_nodup_map t.nodup hrm hmem (hrk.trans hkey.symm)
  rw [hsame, hp] at hrp
  cases hrp

variable {t' : Table κ ρ key}

theorem get_insert (h : t.insert r = some t') (k : κ) :
    t'.get k = if key r = k then some r else t.get k := by
  unfold insert at h
  split at h
  · cases h
  next hfree =>
  cases h
  by_cases hk : key r = k
  · rw [if_pos hk, get_eq_some_iff]
    exact ⟨mem_append_right _ (mem_singleton.2 rfl), hk⟩
  rw [if_neg hk]
  simp [get, find?_append, hk]

theorem rows_insert (h : t.insert r = some t') : t'.rows = t.rows ++ [r] := by
  unfold insert at h
  split at h
  · cases h
  cases h
  rfl

theorem mem_insert {x : ρ} (h : t.insert r = some t') : x ∈ t'.rows ↔ x ∈ t.rows ∨ x = r := by
  rw [rows_insert h, mem_append, mem_singleton]

theorem insert_free (h : t.insert r = some t') : t.get (key r) = none := by
  unfold insert at h
  split at h
  · cases h
  next hfree =>
  rw [get_eq_none_iff]
  intro r' hr' hkey
  exact hfree (List.mem_map.2 ⟨r', hr', hkey⟩)

theorem insert_taken (h : t.insert r = none) : (t.get (key r)).isSome := by
  unfold insert at h
  split at h
  · next hmem =>
    obtain ⟨r', hr', hkey⟩ := List.mem_map.1 hmem
    rw [← hkey, get_key hr']
    rfl
  · cases h

/-! ## A second key

An attribute that no two rows share (`UNIQUE`) finds a row as well as the key does. -/

section

variable {α : Type} [DecidableEq α] {attr : ρ → α}

def lookupBy (t : Table κ ρ key) (attr : ρ → α) (x : α) : Option ρ :=
  t.rows.find? fun r => decide (attr r = x)

variable {t : Table κ ρ key} {r : ρ}

omit [DecidableEq κ] in
theorem lookupBy_mem {x : α} (h : t.lookupBy attr x = some r) : r ∈ t.rows ∧ attr r = x :=
  ⟨mem_of_find?_eq_some h, by simpa using find?_some h⟩

omit [DecidableEq κ] in
theorem lookupBy_eq_none_iff {x : α} : t.lookupBy attr x = none ↔ ∀ r ∈ t.rows, attr r ≠ x := by
  simp [lookupBy, find?_eq_none]

omit [DecidableEq κ] in
theorem lookupBy_eq_some_iff (hunique : (t.rows.map attr).Nodup) {x : α} :
    t.lookupBy attr x = some r ↔ r ∈ t.rows ∧ attr r = x := by
  refine ⟨lookupBy_mem, ?_⟩
  rintro ⟨hr, rfl⟩
  cases hfound : t.lookupBy attr (attr r) with
  | none => exact absurd rfl (lookupBy_eq_none_iff.1 hfound r hr)
  | some r' =>
    obtain ⟨hr', hattr⟩ := lookupBy_mem hfound
    rw [inj_on_of_nodup_map hunique hr' hr hattr]

variable {t' : Table κ ρ key}

theorem lookupBy_insert (h : t.insert r = some t') (hfree : ∀ y ∈ t.rows, attr y ≠ attr r) (x : α) :
    t'.lookupBy attr x = if attr r = x then some r else t.lookupBy attr x := by
  rw [lookupBy, rows_insert h, find?_append]
  split
  · next hx =>
    have hnone : t.rows.find? (fun y => decide (attr y = x)) = none :=
      lookupBy_eq_none_iff.2 (hx ▸ hfree)
    rw [hnone]
    simp [hx]
  · next hx => simp [hx, lookupBy]

omit [DecidableEq α] in
theorem nodup_attr_insert (h : t.insert r = some t') (hunique : (t.rows.map attr).Nodup)
    (hfree : ∀ y ∈ t.rows, attr y ≠ attr r) : (t'.rows.map attr).Nodup := by
  rw [rows_insert h, map_append]
  refine hunique.append (nodup_singleton _) ?_
  intro x hx hx'
  obtain ⟨y, hy, rfl⟩ := List.mem_map.1 hx
  exact hfree y hy (mem_singleton.1 hx')

theorem eq_of_key {k : κ} {row : ρ} (hrow : t.get k = some row) (hr : r ∈ t.rows)
    (hkey : key r = k) : r = row :=
  some.inj ((get_eq_some_iff.2 ⟨hr, hkey⟩).symm.trans hrow)

omit [DecidableEq α] in
theorem nodup_attr_updateWhere {k : κ} {f : ρ → ρ} {x : α} (hf : ∀ r, key (f r) = key r)
    (hunique : (t.rows.map attr).Nodup) (hvalue : ∀ r, attr (f r) = x)
    (hfree : ∀ r ∈ t.rows, key r ≠ k → attr r ≠ x) :
    ((t.updateWhere (fun r => decide (key r = k)) f hf).rows.map attr).Nodup := by
  have hrows : t.rows.Nodup := List.Nodup.of_map key t.nodup
  rw [updateWhere, List.map_map, nodup_map_iff_inj_on hrows]
  intro r hr r' hr' heq
  simp only [comp_apply, decide_eq_true_eq] at heq
  by_cases hk : key r = k
  · by_cases hk' : key r' = k
    · exact inj_on_of_nodup_map t.nodup hr hr' (hk.trans hk'.symm)
    · rw [if_pos hk, if_neg hk', hvalue] at heq
      exact absurd heq.symm (hfree r' hr' hk')
  by_cases hk' : key r' = k
  · rw [if_neg hk, if_pos hk', hvalue] at heq
    exact absurd heq (hfree r hr hk)
  rw [if_neg hk, if_neg hk'] at heq
  exact inj_on_of_nodup_map hunique hr hr' heq

theorem viewBy_insert {V : Type} (w : ρ → V) (h : t.insert r = some t')
    (hfree : ∀ y ∈ t.rows, attr y ≠ attr r) :
    (fun x => (t'.lookupBy attr x).map w) =
      update (fun x => (t.lookupBy attr x).map w) (attr r) (some (w r)) := by
  funext x
  rw [lookupBy_insert h hfree, update_apply]
  by_cases hx : attr r = x
  · rw [if_pos hx, if_pos hx.symm, map_some]
  · rw [if_neg hx, if_neg (Ne.symm hx)]

/-- A row is written with a value of the attribute no other row has: its entry moves there. -/
theorem viewBy_move {V : Type} {k : κ} {row : ρ} {f : ρ → ρ} {y : α} (w : ρ → V)
    (hf : ∀ r, key (f r) = key r) (hunique : (t.rows.map attr).Nodup) (hrow : t.get k = some row)
    (hvalue : ∀ r, attr (f r) = y) (hfree : ∀ r ∈ t.rows, key r ≠ k → attr r ≠ y) :
    (fun x => ((t.updateWhere (fun r => decide (key r = k)) f hf).lookupBy attr x).map w) =
      update (update (fun x => (t.lookupBy attr x).map w) (attr row) none) y
        (some (w (f row))) := by
  obtain ⟨hmem, hkey⟩ := get_eq_some_iff.1 hrow
  have hunique' := nodup_attr_updateWhere hf hunique hvalue hfree
  -- but for the row that is written, nothing moves
  have hstays : ∀ x, x ≠ y → ∀ r,
      (t.updateWhere (fun r => decide (key r = k)) f hf).lookupBy attr x = some r ↔
        t.lookupBy attr x = some r ∧ key r ≠ k := by
    intro x hx r
    rw [lookupBy_eq_some_iff hunique', lookupBy_eq_some_iff hunique]
    constructor
    · rintro ⟨hr, rfl⟩
      obtain ⟨r', hr', rfl⟩ := List.mem_map.1 hr
      by_cases hk : key r' = k
      · rw [if_pos (decide_eq_true hk), hvalue] at hx
        exact absurd rfl hx
      rw [if_neg (by simpa using hk)]
      exact ⟨⟨hr', rfl⟩, hk⟩
    rintro ⟨⟨hr, rfl⟩, hk⟩
    exact ⟨List.mem_map.2 ⟨r, hr, if_neg (by simpa using hk)⟩, rfl⟩
  funext x
  rw [update_apply, update_apply]
  split
  · next hx =>
    rw [(lookupBy_eq_some_iff hunique').2 ⟨List.mem_map.2 ⟨row, hmem, if_pos (by simpa)⟩, ?_⟩,
      map_some]
    rw [hvalue, hx]
  next hx =>
  split
  · next hold =>
    rw [map_eq_none_iff, eq_none_iff_forall_ne_some]
    intro r hr
    obtain ⟨hr, hk⟩ := (hstays x hx r).1 hr
    obtain ⟨hr, hrx⟩ := lookupBy_mem hr
    exact hk (inj_on_of_nodup_map hunique hr hmem (hrx.trans hold) ▸ hkey)
  next hold =>
  congr 1
  refine Option.ext fun r => (hstays x hx r).trans (and_iff_left_of_imp fun hr hk => hold ?_)
  obtain ⟨hr, hrx⟩ := lookupBy_mem hr
  rw [← hrx, eq_of_key hrow hr hk]

theorem viewBy_updateWhere {V : Type} {k : κ} {row : ρ} {f : ρ → ρ} (w : ρ → V)
    (hf : ∀ r, key (f r) = key r) (hunique : (t.rows.map attr).Nodup) (hrow : t.get k = some row)
    (hvalue : ∀ r, attr (f r) = attr row) :
    (fun x => ((t.updateWhere (fun r => decide (key r = k)) f hf).lookupBy attr x).map w) =
      update (fun x => (t.lookupBy attr x).map w) (attr row) (some (w (f row))) := by
  obtain ⟨hmem, hkey⟩ := get_eq_some_iff.1 hrow
  rw [viewBy_move w hf hunique hrow hvalue, update_idem]
  intro r hr hk hattr
  exact hk (inj_on_of_nodup_map hunique hr hmem hattr ▸ hkey)

end

/-! ## What holds of every row -/

variable {P : ρ → Prop}

theorem forall_insert (h : ∀ x ∈ t.rows, P x) (hr : P r) (hinsert : t.insert r = some t') :
    ∀ x ∈ t'.rows, P x := by
  intro x hx
  obtain hold | rfl := (mem_insert hinsert).1 hx
  · exact h x hold
  · exact hr

omit [DecidableEq κ] in
theorem forall_updateWhere {p : ρ → Bool} {f : ρ → ρ} (hf : ∀ r, key (f r) = key r)
    (h : ∀ x ∈ t.rows, P x) (hchanged : ∀ x ∈ t.rows, p x = true → P (f x)) :
    ∀ x ∈ (t.updateWhere p f hf).rows, P x := by
  intro x hx
  obtain ⟨y, hy, rfl⟩ := List.mem_map.1 hx
  split
  · next hp => exact hchanged y hy hp
  · exact h y hy

omit [DecidableEq κ] in
theorem forall_deleteWhere {p : ρ → Bool} (h : ∀ x ∈ t.rows, P x) :
    ∀ x ∈ (t.deleteWhere p).rows, P x :=
  fun x hx => h x (mem_filter.1 hx).1

/-! ## Every row through a function

A function that leaves the keys alone, applied to every row, commutes with each statement
whose conditions do not look at what the function changes. -/

section

variable {f : ρ → ρ} (hf : ∀ r, key (f r) = key r)

def mapRows (f : ρ → ρ) (hf : ∀ r, key (f r) = key r) (t : Table κ ρ key) : Table κ ρ key where
  rows := t.rows.map f
  nodup := by
    have hkeys : (t.rows.map f).map key = t.rows.map key := by
      rw [List.map_map]
      exact map_congr_left fun r _ => hf r
    rw [hkeys]
    exact t.nodup

omit [DecidableEq κ] in
theorem rows_mapRows (t : Table κ ρ key) : (t.mapRows f hf).rows = t.rows.map f := rfl

theorem get_mapRows (t : Table κ ρ key) (k : κ) : (t.mapRows f hf).get k = (t.get k).map f := by
  show (t.rows.map f).find? _ = (t.rows.find? _).map f
  rw [find?_map]
  congr 1
  apply find?_agree
  intro r _
  rw [comp_apply, hf]

variable {p : ρ → Bool}

omit [DecidableEq κ] in
theorem any_mapRows (t : Table κ ρ key) (hp : ∀ r, p (f r) = p r) :
    (t.mapRows f hf).rows.any p = t.rows.any p := by
  rw [rows_mapRows, List.any_map]
  congr 1
  funext r
  exact hp r

theorem insert_mapRows (t : Table κ ρ key) (r : ρ) :
    (t.mapRows f hf).insert (f r) = (t.insert r).map (mapRows f hf) := by
  have hkeys : (t.mapRows f hf).rows.map key = t.rows.map key := by
    rw [rows_mapRows, List.map_map]
    exact map_congr_left fun r _ => hf r
  unfold insert
  by_cases hmem : key r ∈ t.rows.map key
  · rw [dif_pos hmem, dif_pos (by rw [hkeys, hf]; exact hmem), map_none]
  rw [dif_neg hmem, dif_neg (by rw [hkeys, hf]; exact hmem), map_some]
  congr 1
  apply Table.ext
  show t.rows.map f ++ [f r] = (t.rows ++ [r]).map f
  rw [map_append]
  rfl

omit [DecidableEq κ] in
theorem updateWhere_mapRows (t : Table κ ρ key) {g g' : ρ → ρ} (hg : ∀ r, key (g r) = key r)
    (hg' : ∀ r, key (g' r) = key r) (hp : ∀ r, p (f r) = p r) (hfg : ∀ r, f (g r) = g' (f r)) :
    (t.mapRows f hf).updateWhere p g' hg' = (t.updateWhere p g hg).mapRows f hf := by
  apply Table.ext
  show (t.rows.map f).map _ = (t.rows.map _).map f
  rw [List.map_map, List.map_map]
  apply map_congr_left
  intro r _
  simp only [comp_apply, hp]
  split
  · exact (hfg r).symm
  · rfl

omit [DecidableEq κ] in
theorem deleteWhere_mapRows (t : Table κ ρ key) (hp : ∀ r, p (f r) = p r) :
    (t.mapRows f hf).deleteWhere p = (t.deleteWhere p).mapRows f hf := by
  apply Table.ext
  show (t.rows.map f).filter _ = (t.rows.filter _).map f
  rw [List.filter_map]
  congr 1
  apply filter_congr
  intro r _
  rw [comp_apply, hp]

end

end Table

end SmtpProxy.Lib
