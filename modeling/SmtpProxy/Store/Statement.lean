import SmtpProxy.Lib.Prog
import SmtpProxy.Store.Models

/-!
# Statements of the store

What the environment decides for one statement is its `Fate`: what the clock shows
when it runs, and whether it fails. A statement that fails changes nothing; a
transaction that is one unit of the code's work (`InTx`) is one statement here,
because a failure inside it rolls all of it back.
-/

namespace SmtpProxy.Store

open Lib

/-- What the environment decides for one statement. -/
structure Fate where
  now : Int := 0
  failure : Option Err := none
  deriving DecidableEq

variable {ω σ β : Type}

/-- What a statement answers and leaves: an error and the store as it was, or what
`f` says. -/
def Fate.answer (c : Fate) (f : Int → σ → Except Err β × σ) (s : σ) : Except Err β × σ :=
  match c.failure with
  | some e => (.error e, s)
  | none => f c.now s

/-- A statement with the effect `f`. -/
def statement (op : ω) (f : Int → σ → Except Err β × σ) : Prog ω Fate σ (Except Err β) :=
  .exec op fun c s => c.answer f s

def query (op : ω) (f : σ → Except Err β) : Prog ω Fate σ (Except Err β) :=
  statement op fun _ s => (f s, s)

/-- A query together with what the clock shows when it has answered. -/
def timedQuery (op : ω) (f : σ → Except Err β) : Prog ω Fate σ (Int × Except Err β) :=
  .exec op fun c s => ((c.now, (c.answer (fun _ s => (f s, s)) s).1), s)

/-- A statement that writes a row the caller's copy of which it stamps with the time. -/
def stamping {ρ : Type} (op : ω) (stamp : Int → ρ) (f : Int → σ → Except Err β × σ) :
    Prog ω Fate σ (ρ × Except Err β) :=
  .exec op fun c s => ((stamp c.now, (c.answer f s).1), (c.answer f s).2)

/-- `fmt.Errorf("store: …: %w", err)`. -/
def wrapping (what : Bytes) (e : Err) : Err := .wrap (what ++ ascii ": " ++ e.text) e

def nullTime (t : Int) : Option Int := if t = 0 then none else some t

/-! ## What is known of an answer -/

section

variable {op : ω} {f : Int → σ → Except Err β × σ} {g : σ → Except Err β}

theorem Fate.answer_cases (c : Fate) (f : Int → σ → Except Err β × σ) (s : σ) :
    (∃ e, c.answer f s = (.error e, s)) ∨ c.answer f s = f c.now s := by
  unfold answer
  cases c.failure with
  | some e => exact .inl ⟨e, rfl⟩
  | none => exact .inr rfl

theorem statement_run (op : ω) (f : Int → σ → Except Err β × σ) (env : ω → Fate) (s : σ) :
    (∃ e, (statement op f).run env s = (.error e, s)) ∨
      (statement op f).run env s = f (env op).now s :=
  (env op).answer_cases f s

theorem query_run (op : ω) (g : σ → Except Err β) (env : ω → Fate) (s : σ) :
    (∃ e, (query op g).run env s = (.error e, s)) ∨ (query op g).run env s = (g s, s) :=
  statement_run op (fun _ s => (g s, s)) env s

theorem timedQuery_run (op : ω) (g : σ → Except Err β) (env : ω → Fate) (s : σ) :
    (∃ e, (timedQuery op g).run env s = (((env op).now, .error e), s)) ∨
      (timedQuery op g).run env s = (((env op).now, g s), s) := by
  obtain ⟨e, he⟩ | he := (env op).answer_cases (fun _ s => (g s, s)) s
  · left
    refine ⟨e, ?_⟩
    rw [timedQuery, Prog.run_exec, he]
  right
  rw [timedQuery, Prog.run_exec, he]

theorem stamping_run {ρ : Type} (op : ω) (stamp : Int → ρ) (f : Int → σ → Except Err β × σ)
    (env : ω → Fate) (s : σ) :
    (∃ e, (stamping op stamp f).run env s = ((stamp (env op).now, .error e), s)) ∨
      (stamping op stamp f).run env s =
        ((stamp (env op).now, (f (env op).now s).1), (f (env op).now s).2) := by
  obtain ⟨e, he⟩ | he := (env op).answer_cases f s
  · left
    refine ⟨e, ?_⟩
    rw [stamping, Prog.run_exec, he]
  right
  rw [stamping, Prog.run_exec, he]

variable {I : σ → Prop} {Q : Except Err β → Prop}

theorem statement_keeps (herror : ∀ e, Q (.error e))
    (h : ∀ now s, I s → I (f now s).2 ∧ Q (f now s).1) : (statement op f).Keeps I Q := by
  apply Prog.keeps_exec
  intro c s hI
  obtain ⟨e, he⟩ | he := c.answer_cases f s
  · rw [he]
    exact ⟨hI, herror e⟩
  rw [he]
  exact h c.now s hI

theorem query_keeps (herror : ∀ e, Q (.error e)) (h : ∀ s, I s → Q (g s)) :
    (query op g).Keeps I Q :=
  statement_keeps herror fun _ s hI => ⟨hI, h s hI⟩

theorem query_readOnly : (query op g).ReadOnly := by
  intro c s
  refine ⟨?_, trivial⟩
  show (c.answer (fun _ s => (g s, s)) s).2 = s
  obtain ⟨e, he⟩ | he := c.answer_cases (fun _ s => (g s, s)) s <;> rw [he]

theorem query_reads : (query op g).Keeps I fun _ => True :=
  query_readOnly.keeps

theorem stamping_keeps {ρ : Type} {stamp : Int → ρ} (h : ∀ now s, I s → I (f now s).2) :
    (stamping op stamp f).Keeps I fun _ => True := by
  apply Prog.keeps_exec
  intro c s hI
  obtain ⟨e, he⟩ | he := c.answer_cases f s
  · rw [he]
    exact ⟨hI, trivial⟩
  rw [he]
  exact ⟨h c.now s hI, trivial⟩

theorem timedQuery_keeps {R : Int × Except Err β → Prop} (herror : ∀ now e, R (now, .error e))
    (h : ∀ now s, I s → R (now, g s)) : (timedQuery op g).Keeps I R := by
  apply Prog.keeps_exec
  intro c s hI
  refine ⟨hI, ?_⟩
  obtain ⟨e, he⟩ | he := c.answer_cases (fun _ s => (g s, s)) s
  · rw [he]
    exact herror c.now e
  rw [he]
  exact h c.now s hI

variable {R : Except Err β → σ → Prop}

theorem statement_along {s : σ} (hI : I s) (herror : ∀ e, R (.error e) s)
    (h : ∀ now, I (f now s).2 ∧ R (f now s).1 (f now s).2) : (statement op f).Along I R s := by
  apply Prog.along_exec hI
  intro c
  obtain ⟨e, he⟩ | he := c.answer_cases f s
  · rw [he]
    exact ⟨hI, herror e⟩
  rw [he]
  exact h c.now

theorem query_along {s : σ} (hI : I s) (herror : ∀ e, R (.error e) s) (h : R (g s) s) :
    (query op g).Along I R s :=
  statement_along hI herror fun _ => ⟨hI, h⟩

theorem stamping_along {ρ : Type} {stamp : Int → ρ} {R : ρ × Except Err β → σ → Prop} {s : σ}
    (hI : I s) (herror : ∀ now e, R (stamp now, .error e) s)
    (h : ∀ now, I (f now s).2 ∧ R (stamp now, (f now s).1) (f now s).2) :
    (stamping op stamp f).Along I R s := by
  apply Prog.along_exec hI
  intro c
  obtain ⟨e, he⟩ | he := c.answer_cases f s
  · rw [he]
    exact ⟨hI, herror c.now e⟩
  rw [he]
  exact h c.now

section

-- a statement that only answers that it is done, and leaves the store alone when it fails
variable {write : Int → σ → Except Err Unit × σ} {s : σ}
  (hfailed : ∀ now, (write now s).1 ≠ .ok () → (write now s).2 = s)

include hfailed

theorem write_cases (now : Int) :
    (∃ e, write now s = (.error e, s)) ∨ ∃ t, write now s = (.ok (), t) := by
  cases hw : write now s with
  | mk answer t =>
  cases answer with
  | ok u => exact .inr ⟨t, rfl⟩
  | error e =>
  have hsame := hfailed now (by rw [hw]; simp)
  rw [hw] at hsame
  exact .inl ⟨e, Prod.ext rfl hsame⟩

theorem write_along {R : Except Err Unit → σ → Prop} (hI : I s) (herror : ∀ e, R (.error e) s)
    (hok : ∀ now t, write now s = (.ok (), t) → I t ∧ R (.ok ()) t) :
    (statement op write).Along I R s := by
  apply statement_along hI herror
  intro now
  obtain ⟨e, he⟩ | ⟨t, ht⟩ := write_cases hfailed now
  · rw [he]
    exact ⟨hI, herror e⟩
  rw [ht]
  exact hok now t ht

theorem stampedWrite_along {ρ : Type} {stamp : Int → ρ} {R : ρ × Except Err Unit → σ → Prop}
    (hI : I s) (herror : ∀ r e, R (r, .error e) s)
    (hok : ∀ now t, write now s = (.ok (), t) → I t ∧ R (stamp now, .ok ()) t) :
    (stamping op stamp write).Along I R s := by
  apply stamping_along hI fun now => herror (stamp now)
  intro now
  obtain ⟨e, he⟩ | ⟨t, ht⟩ := write_cases hfailed now
  · rw [he]
    exact ⟨hI, herror _ e⟩
  rw [ht]
  exact hok now t ht

end

variable {ν : Type} {view : σ → ν}

theorem statement_respects (h : ∀ now s t, view s = view t →
      (f now s).1 = (f now t).1 ∧ view (f now s).2 = view (f now t).2) :
    (statement op f).Respects view := by
  apply Prog.respects_exec
  intro c s t hst
  unfold Fate.answer
  cases c.failure with
  | some e => exact ⟨rfl, hst⟩
  | none => exact h c.now s t hst

theorem query_respects (h : ∀ s t, view s = view t → g s = g t) : (query op g).Respects view :=
  statement_respects fun _ s t hst => ⟨h s t hst, hst⟩

end

/-! ## Two runs -/

section

variable {β' : Type} {R : σ → σ → Prop} {S : β → β' → Prop} {op : ω}
  {f : Int → σ → Except Err β × σ} {g : Int → σ → Except Err β' × σ}

theorem answer_twin
    (h : ∀ now s t, R s t → SameOutcome S (f now s).1 (g now t).1 ∧ R (f now s).2 (g now t).2)
    (c : Fate) {s t : σ} (hst : R s t) :
    SameOutcome S (c.answer f s).1 (c.answer g t).1 ∧ R (c.answer f s).2 (c.answer g t).2 := by
  unfold Fate.answer
  cases c.failure with
  | some e => exact ⟨.error e, hst⟩
  | none => exact h c.now s t hst

theorem statement_twin
    (h : ∀ now s t, R s t → SameOutcome S (f now s).1 (g now t).1 ∧ R (f now s).2 (g now t).2) :
    (statement op f).Twin R (SameOutcome S) (statement op g) :=
  Prog.twin_exec fun c _ _ hst => answer_twin h c hst

theorem query_twin {f : σ → Except Err β} {g : σ → Except Err β'}
    (h : ∀ s t, R s t → SameOutcome S (f s) (g t)) :
    (query op f).Twin R (SameOutcome S) (query op g) :=
  statement_twin fun _ s t hst => ⟨h s t hst, hst⟩

theorem timedQuery_twin {f : σ → Except Err β} {g : σ → Except Err β'}
    (h : ∀ s t, R s t → SameOutcome S (f s) (g t)) :
    (timedQuery op f).Twin R (fun x y => x.1 = y.1 ∧ SameOutcome S x.2 y.2) (timedQuery op g) :=
  Prog.twin_exec fun c _ _ hst =>
    ⟨⟨rfl, (answer_twin (fun _ s t hst => ⟨h s t hst, hst⟩) c hst).1⟩, hst⟩

theorem stamping_twin {ρ ρ' : Type} {T : ρ → ρ' → Prop} {stamp : Int → ρ} {stamp' : Int → ρ'}
    (hstamp : ∀ now, T (stamp now) (stamp' now))
    (h : ∀ now s t, R s t → SameOutcome S (f now s).1 (g now t).1 ∧ R (f now s).2 (g now t).2) :
    (stamping op stamp f).Twin R (fun x y => T x.1 y.1 ∧ SameOutcome S x.2 y.2)
      (stamping op stamp' g) :=
  Prog.twin_exec fun c _ _ hst =>
    ⟨⟨hstamp c.now, (answer_twin h c hst).1⟩, (answer_twin h c hst).2⟩

theorem found_cases {α ν : Type} {f : α → ν} {x y : Option α} (h : x.map f = y.map f) :
    x = none ∧ y = none ∨ ∃ a b, x = some a ∧ y = some b ∧ f a = f b := by
  cases x with
  | none =>
    cases y with
    | none => exact .inl ⟨rfl, rfl⟩
    | some b => cases h
  | some a =>
  cases y with
  | none => cases h
  | some b => exact .inr ⟨a, b, rfl, rfl, Option.some.inj h⟩

/-- Statements that do the same to what `view` shows answer the same, and show the same. -/
theorem same_view {ν : Type} {view : σ → ν} {x y : Except Err β × σ} {z : Except Err β × ν}
    (hx : Prod.map id view x = z) (hy : Prod.map id view y = z) :
    SameOutcome (· = ·) x.1 y.1 ∧ view x.2 = view y.2 := by
  subst hx
  exact ⟨.of_eq (fun _ => rfl) (congrArg Prod.fst hy).symm, (congrArg Prod.snd hy).symm⟩

end

/-! ### Statements that commute with a map of the store -/

section

variable (e : σ → σ) {op : ω} {ρ : Type} (r : ρ → ρ)

theorem statement_commutes {f : Int → σ → Except Err β × σ}
    (h : ∀ now s, Prod.map id e (f now s) = f now (e s)) :
    (statement op f).Twin (fun s t => e s = e t) (SameOutcome (· = ·)) (statement op f) := by
  apply statement_twin
  intro now s t hst
  refine same_view (h now s) ((h now t).trans ?_)
  rw [hst]

/-- A row is written that `r` takes to the same on both sides. -/
theorem stamping_commutes (stamp : ρ → Int → ρ) (write : ρ → Int → σ → Except Err β × σ)
    (hstamp : ∀ x now, r (stamp x now) = stamp (r x) now)
    (hwrite : ∀ x now s, Prod.map id e (write x now s) = write (r x) now (e s))
    {x y : ρ} (h : r x = r y) :
    (stamping op (stamp x) (write x)).Twin (fun s t => e s = e t)
      (fun a b => r a.1 = r b.1 ∧ SameOutcome (· = ·) a.2 b.2)
      (stamping op (stamp y) (write y)) := by
  refine stamping_twin (T := fun a b => r a = r b) (fun now => by rw [hstamp, hstamp, h]) ?_
  intro now s t hst
  refine same_view (hwrite x now s) ((hwrite y now t).trans ?_)
  rw [hst, h]

theorem find_commutes (find : σ → Option ρ) (h : ∀ s, find (e s) = (find s).map r)
    {f : σ → Except Err ρ} {missing : Err} (hf : ∀ s, f s = (find s).elim (.error missing) .ok) :
    (query op f).Twin (fun s t => e s = e t) (SameOutcome fun x y => r x = r y) (query op f) := by
  apply query_twin
  intro s t hst
  have hfind : (find s).map r = (find t).map r := by rw [← h, ← h, hst]
  rw [hf, hf]
  obtain ⟨hs, ht⟩ | ⟨a, b, hs, ht, hab⟩ := found_cases hfind
  · rw [hs, ht]
    exact .error _
  rw [hs, ht]
  exact .ok hab

end

end SmtpProxy.Store
