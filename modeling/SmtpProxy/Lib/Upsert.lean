import Mathlib.Data.List.Nodup
import Mathlib.Logic.Function.Basic

/-!
# Writes that are done again

A job goes through a list of entries and writes each under a key of its own, as a
function of what it finds there. It may be cut short, between two entries or in the
middle of one, and is then run again from the start.

What matters is only what each key ends up with: a second run comes to the same end
exactly if each write finds, in what the first run left, something it makes the same
of as of what was there at first (`writeAll_eq_iff`).
-/

namespace SmtpProxy.Lib

open List

variable {κ V α : Type}

/-- A write under a key. What is there once it has begun need not be what it ends with. -/
structure Upsert (κ V : Type) where
  key : κ
  write : Option V → V
  partway : Option V → V → Prop
  ends : ∀ old, partway old (write old)

/-- The writes of a list of entries. A write may depend on what the entries before it
have left known. -/
def upserts (up : List κ → α → Upsert κ V) (grow : List κ → α → List κ) :
    List κ → List α → List (Upsert κ V)
  | _, [] => []
  | known, x :: xs => up known x :: upserts up grow (grow known x) xs

variable {up : List κ → α → Upsert κ V} {grow : List κ → α → List κ}

theorem upserts_keys {name : α → κ} (hkey : ∀ known x, (up known x).key = name x) (known : List κ)
    (xs : List α) : (upserts up grow known xs).map (·.key) = xs.map name := by
  induction xs generalizing known with
  | nil => rfl
  | cons x xs ih => rw [upserts, map_cons, map_cons, hkey, ih]

theorem mem_upserts {known : List κ} {xs : List α} {u : Upsert κ V}
    (h : u ∈ upserts up grow known xs) : ∃ known', ∃ x ∈ xs, u = up known' x := by
  induction xs generalizing known with
  | nil => cases h
  | cons x xs ih =>
  rcases mem_cons.1 h with rfl | h
  · exact ⟨known, x, .head _, rfl⟩
  obtain ⟨known', y, hy, hu⟩ := ih h
  exact ⟨known', y, .tail _ hy, hu⟩

theorem exists_mem_upserts {known : List κ} {xs : List α} {x : α} (h : x ∈ xs) :
    ∃ known', up known' x ∈ upserts up grow known xs := by
  induction xs generalizing known with
  | nil => cases h
  | cons y xs ih =>
  rcases mem_cons.1 h with rfl | h
  · exact ⟨known, .head _⟩
  obtain ⟨known', hmem⟩ := ih h
  exact ⟨known', .tail _ hmem⟩

section

variable [DecidableEq κ]

def Upsert.on (u : Upsert κ V) (m : κ → Option V) : κ → Option V :=
  Function.update m u.key (some (u.write (m u.key)))

def writeAll (us : List (Upsert κ V)) (m : κ → Option V) : κ → Option V :=
  us.foldl (fun m u => u.on m) m

variable {us : List (Upsert κ V)} {u : Upsert κ V} {m m' : κ → Option V} {k : κ}

theorem Upsert.on_of_ne (h : k ≠ u.key) : u.on m k = m k := Function.update_of_ne h _ _

theorem Upsert.on_key : u.on m u.key = some (u.write (m u.key)) := Function.update_self ..

theorem writeAll_cons : writeAll (u :: us) m = writeAll us (u.on m) := rfl

theorem writeAll_of_not_mem (h : k ∉ us.map (·.key)) : writeAll us m k = m k := by
  induction us generalizing m with
  | nil => rfl
  | cons u us ih =>
    rw [map_cons, mem_cons, not_or] at h
    rw [writeAll_cons, ih h.2, Upsert.on_of_ne h.1]

theorem writeAll_of_mem (hkeys : (us.map (·.key)).Nodup) (hu : u ∈ us) :
    writeAll us m u.key = some (u.write (m u.key)) := by
  induction us generalizing m with
  | nil => cases hu
  | cons u' us ih =>
  rw [map_cons, nodup_cons] at hkeys
  rw [writeAll_cons]
  rcases mem_cons.1 hu with rfl | hu
  · rw [writeAll_of_not_mem hkeys.1, Upsert.on_key]
  have hne : u.key ≠ u'.key := by
    intro heq
    exact hkeys.1 (heq ▸ mem_map_of_mem hu)
  rw [ih hkeys.2 hu, Upsert.on_of_ne hne]

/-! ## Cut short -/

/-- What may be there when the writes have begun: under each key what was there before, or
what a write has made of it so far. -/
def Begun (us : List (Upsert κ V)) (m m' : κ → Option V) : Prop :=
  ∀ k, m' k = m k ∨ ∃ u ∈ us, u.key = k ∧ ∃ v, m' k = some v ∧ u.partway (m k) v

omit [DecidableEq κ] in
theorem Begun.refl (us : List (Upsert κ V)) (m : κ → Option V) : Begun us m m := fun _ => .inl rfl

omit [DecidableEq κ] in
theorem Begun.mono {us' : List (Upsert κ V)} (h : Begun us m m') (hsub : us ⊆ us') :
    Begun us' m m' := by
  intro k
  obtain hsame | ⟨u, hu, hrest⟩ := h k
  · exact .inl hsame
  · exact .inr ⟨u, hsub hu, hrest⟩

theorem Begun.cons (hkeys : u.key ∉ us.map (·.key)) (h : Begun us (u.on m) m') :
    Begun (u :: us) m m' := by
  intro k
  by_cases hk : k = u.key
  · subst hk
    right
    refine ⟨u, .head _, rfl, u.write (m u.key), ?_, u.ends _⟩
    obtain hsame | ⟨u', hu', hkey, -⟩ := h u.key
    · rw [hsame, Upsert.on_key]
    · exact absurd (mem_map.2 ⟨u', hu', hkey⟩) hkeys
  obtain hsame | ⟨u', hu', hkey, v, hv, hpart⟩ := h k
  · exact .inl (hsame.trans (Upsert.on_of_ne hk))
  rw [Upsert.on_of_ne hk] at hpart
  exact .inr ⟨u', .tail _ hu', hkey, v, hv, hpart⟩

omit [DecidableEq κ] in
theorem Begun.of_not_mem (h : Begun us m m') (hk : k ∉ us.map (·.key)) : m' k = m k := by
  obtain hsame | ⟨u, hu, hkey, -⟩ := h k
  · exact hsame
  · exact absurd (mem_map.2 ⟨u, hu, hkey⟩) hk

omit [DecidableEq κ] in
theorem Begun.of_mem (hkeys : (us.map (·.key)).Nodup) (h : Begun us m m') (hu : u ∈ us) :
    m' u.key = m u.key ∨ ∃ v, m' u.key = some v ∧ u.partway (m u.key) v := by
  obtain hsame | ⟨u', hu', hkey, v, hv, hpart⟩ := h u.key
  · exact .inl hsame
  obtain rfl := inj_on_of_nodup_map hkeys hu' hu hkey
  exact .inr ⟨v, hv, hpart⟩

omit [DecidableEq κ] in
theorem Begun.eq_of_settled (h : Begun us m m')
    (hsettled : ∀ u ∈ us, ∀ v, u.partway (m u.key) v → m u.key = some v) : m' = m := by
  funext k
  obtain hsame | ⟨u, hu, rfl, v, hv, hpart⟩ := h k
  · exact hsame
  · rw [hv, hsettled u hu v hpart]

/-- Done again on what a run that was cut short has left, the writes come to the same end
exactly if each of them does. -/
theorem writeAll_eq_iff (hkeys : (us.map (·.key)).Nodup) (h : Begun us m m') :
    writeAll us m' = writeAll us m ↔ ∀ u ∈ us, u.write (m' u.key) = u.write (m u.key) := by
  constructor
  · intro heq u hu
    have hkey := congrFun heq u.key
    rw [writeAll_of_mem hkeys hu, writeAll_of_mem hkeys hu] at hkey
    exact Option.some.inj hkey
  intro hall
  funext k
  by_cases hk : k ∈ us.map (·.key)
  · obtain ⟨u, hu, rfl⟩ := mem_map.1 hk
    rw [writeAll_of_mem hkeys hu, writeAll_of_mem hkeys hu, hall u hu]
  · rw [writeAll_of_not_mem hk, writeAll_of_not_mem hk, h.of_not_mem hk]

theorem Begun.writeAll_eq (hkeys : (us.map (·.key)).Nodup) (h : Begun us m m')
    (hagain : ∀ u ∈ us, ∀ old v, u.partway old v → u.write (some v) = u.write old) :
    writeAll us m' = writeAll us m := by
  rw [writeAll_eq_iff hkeys h]
  intro u hu
  obtain hsame | ⟨v, hv, hpart⟩ := h.of_mem hkeys hu
  · rw [hsame]
  · rw [hv, hagain u hu _ v hpart]

theorem begun_writeAll (hkeys : (us.map (·.key)).Nodup) : Begun us m (writeAll us m) := by
  intro k
  by_cases hk : k ∈ us.map (·.key)
  · obtain ⟨u, hu, rfl⟩ := mem_map.1 hk
    exact .inr ⟨u, hu, rfl, _, writeAll_of_mem hkeys hu, u.ends _⟩
  · exact .inl (writeAll_of_not_mem hk)

end

end SmtpProxy.Lib
