import SmtpProxy.Lib.Prog
import SmtpProxy.Lib.Reach

/-!
# Programs whose statements interleave

A `Pool` is any number of programs at work on one store. A step lets one client
issue its next statement, in any order and with any decision of the environment.

Beside the programs, a pool records for each client whether it has issued a
statement and whether it has been *overtaken*: since its first statement, another
client has changed the part of the store that is being watched (`view`). A client
that changes this part after it was overtaken acts on what it read too early;
that is a stale write.

Three rules reduce a statement about every interleaving to one about each program.

* `Pool.keeps`: an invariant every statement keeps, holds throughout, and with it what each
  program makes of it.
* `Pool.along`: an invariant of `view` that each program keeps when it runs
  *alone* holds in every run without a stale write.
* `Pool.attains`: what a client that succeeded has brought about, holds from then on
  in every run in which no other client makes a stale write.
-/

namespace SmtpProxy.Lib

open List Option

variable {ω γ σ α ν : Type}

/-- A program at work: what it still has to do. -/
structure Client (ω γ σ α : Type) where
  rest : Prog ω γ σ α
  started : Bool := false
  overtaken : Bool := false

/-- Another client issued a statement, and perhaps changed what is watched. -/
def Client.pass (changed : Bool) (c : Client ω γ σ α) : Client ω γ σ α :=
  { c with overtaken := c.overtaken || (changed && c.started) }

/-- A store and the programs at work on it. -/
structure Pool (ω γ σ α : Type) where
  shared : σ
  clients : List (Client ω γ σ α)

namespace Pool

def start (s : σ) (programs : List (Prog ω γ σ α)) : Pool ω γ σ α :=
  ⟨s, programs.map fun p => { rest := p }⟩

/-- The clients' statements in this order, with the same decision for each. -/
def turns (c : γ) (order : List Nat) : List (Nat × γ) := order.map fun i => (i, c)

variable [DecidableEq ν] (view : σ → ν)

/-- Client `a.1` issues its next statement, which the environment decides by
`a.2`. -/
def step (p : Pool ω γ σ α) (a : Nat × γ) : Option (Pool ω γ σ α) :=
  match p.clients[a.1]? with
  | none => none
  | some mover =>
    match mover.rest with
    | .done _ => none
    | .stmt _ effect next =>
      let shared := effect a.2 p.shared
      let changed := decide (view shared ≠ view p.shared)
      some { shared
             clients := (p.clients.map (Client.pass changed)).set a.1
               { rest := next a.2 p.shared, started := true, overtaken := mover.overtaken } }

/-- The step changes what is watched, and its client was overtaken before. -/
def staleWrite (p : Pool ω γ σ α) (a : Nat × γ) : Bool :=
  (p.clients[a.1]?).any Client.overtaken &&
    (p.step view a).any fun q => decide (view q.shared ≠ view p.shared)

variable {view} {p q : Pool ω γ σ α} {a : Nat × γ}

/-- What a step does: one client goes on, and every other learns whether what is
watched was changed. -/
structure Step (view : σ → ν) (p : Pool ω γ σ α) (a : Nat × γ) (q : Pool ω γ σ α)
    (mover : Client ω γ σ α) (op : ω) (effect : γ → σ → σ) (next : γ → σ → Prog ω γ σ α) :
    Prop where
  before : p.clients[a.1]? = some mover
  rest : mover.rest = .stmt op effect next
  shared : q.shared = effect a.2 p.shared
  moved : q.clients[a.1]? =
    some { rest := next a.2 p.shared, started := true, overtaken := mover.overtaken }
  clients : q.clients = (p.clients.map (Client.pass (decide (view q.shared ≠ view p.shared)))).set
    a.1 { rest := next a.2 p.shared, started := true, overtaken := mover.overtaken }
  other : ∀ j, j ≠ a.1 →
    q.clients[j]? = (p.clients[j]?).map (Client.pass (decide (view q.shared ≠ view p.shared)))

theorem step_cases (h : p.step view a = some q) :
    ∃ mover op effect next, Step view p a q mover op effect next := by
  unfold step at h
  split at h
  · cases h
  next mover hmover =>
  split at h
  · cases h
  next op effect next hrest =>
  cases h
  refine ⟨mover, op, effect, next, hmover, hrest, rfl, ?_, rfl, ?_⟩
  · apply getElem?_set_of_some
    rw [getElem?_map, hmover]
    rfl
  intro j hj
  rw [getElem?_set_ne (Ne.symm hj), getElem?_map]

variable {mover c : Client ω γ σ α} {effect : γ → σ → σ} {next : γ → σ → Prog ω γ σ α}

theorem Step.client_cases {op : ω} (h : Step view p a q mover op effect next) {j : Nat}
    (hc : q.clients[j]? = some c) :
    (j = a.1 ∧ c = { rest := next a.2 p.shared, started := true, overtaken := mover.overtaken }) ∨
      (j ≠ a.1 ∧ ∃ b, p.clients[j]? = some b ∧
        c = b.pass (decide (view q.shared ≠ view p.shared))) := by
  by_cases hj : j = a.1
  · rw [hj, h.moved] at hc
    exact .inl ⟨hj, (some.inj hc).symm⟩
  rw [h.other j hj] at hc
  obtain ⟨b, hb, hbc⟩ := map_eq_some_iff.1 hc
  exact .inr ⟨hj, b, hb, hbc.symm⟩

theorem Step.countP {op : ω} (h : Step view p a q mover op effect next) (f : Prog ω γ σ α → Bool) :
    q.clients.countP (fun c => f c.rest) + (f mover.rest).toNat =
      p.clients.countP (fun c => f c.rest) + (f (next a.2 p.shared)).toNat := by
  rw [h.clients]
  have hbefore : (p.clients.map (Client.pass (decide (view q.shared ≠ view p.shared))))[a.1]?
      = some (mover.pass (decide (view q.shared ≠ view p.shared))) := by
    rw [getElem?_map, h.before]
    rfl
  have hset := countP_set_add hbefore
    { rest := next a.2 p.shared, started := true, overtaken := mover.overtaken } fun c => f c.rest
  rw [countP_map] at hset
  exact hset

/-- A step without a stale write changes what is watched only for a client that has
not been overtaken. -/
theorem Step.not_overtaken {op : ω} (h : Step view p a q mover op effect next)
    (hstep : p.step view a = some q) (hok : p.staleWrite view a = false)
    (hchanged : view q.shared ≠ view p.shared) : mover.overtaken = false := by
  unfold staleWrite at hok
  rw [h.before, hstep, any_some, any_some, decide_eq_true hchanged, Bool.and_true] at hok
  exact hok

/-! ## Statements that all keep an invariant -/

/-- The store has `I`, the statements still to come keep it, and the result of client `j` will
meet `Q j`. -/
structure Kept (I : σ → Prop) (Q : Nat → α → Prop) (p : Pool ω γ σ α) : Prop where
  shared : I p.shared
  rest : ∀ (j : Nat) (c : Client ω γ σ α), p.clients[j]? = some c → c.rest.Keeps I (Q j)

variable {I : σ → Prop} {Q : Nat → α → Prop}

theorem Kept.step (hp : Kept I Q p) (h : p.step view a = some q) : Kept I Q q := by
  obtain ⟨mover, op, effect, next, hs⟩ := step_cases h
  have hkeeps := hp.rest _ _ hs.before
  rw [hs.rest] at hkeeps
  obtain ⟨hI, hnext⟩ := hkeeps a.2 p.shared hp.shared
  refine ⟨hs.shared ▸ hI, ?_⟩
  intro j c hc
  obtain ⟨rfl, rfl⟩ | ⟨-, b, hb, rfl⟩ := hs.client_cases hc
  · exact hnext
  · exact hp.rest j b hb

variable {s : σ} {programs : List (Prog ω γ σ α)}

/-- **What every statement keeps, every interleaving keeps.** -/
theorem keeps {ok : Pool ω γ σ α → Nat × γ → Prop} (hI : I s)
    (hprograms : ∀ (j : Nat) (r : Prog ω γ σ α), programs[j]? = some r → r.Keeps I (Q j))
    (h : Reach (Pool.step view) ok (start s programs) p) : Kept I Q p := by
  apply Reach.invariant (I := Kept I Q) _ (fun _ _ _ hq _ hs => hq.step hs) h
  refine ⟨hI, ?_⟩
  intro j c hc
  rw [start, getElem?_map] at hc
  obtain ⟨r, hr, rfl⟩ := map_eq_some_iff.1 hc
  exact hprograms j r hr

theorem Kept.result (hp : Kept I Q p) {j : Nat} {a : α} (hc : p.clients[j]? = some c)
    (ha : c.rest.result? = some a) : Q j a := by
  have hkeeps := hp.rest j c hc
  cases hrest : c.rest with
  | done b =>
    rw [hrest] at hkeeps ha
    exact some.inj ha ▸ hkeeps
  | stmt op effect next =>
    rw [hrest] at ha
    simp [Prog.result?] at ha

/-! ## Programs that keep an invariant when they run alone -/

/-- What is known of a client while no stale write has been made: unless it was
overtaken, the run from here on is one of the program alone. -/
structure Sound (view : σ → ν) (I : ν → Prop) (s : σ) (c : Client ω γ σ α) : Prop where
  respects : c.rest.Respects view
  idle : c.started = false →
    ∀ t, I (view t) → c.rest.Along (fun t => I (view t)) (fun _ _ => True) t
  alone : c.overtaken = false → c.rest.Along (fun t => I (view t)) (fun _ _ => True) s

/-- Another client's statement leaves a client sound: either it did not change what
is watched, or the client is marked, or it has not begun. -/
theorem Sound.pass {I : ν → Prop} {t : σ} (h : Sound view I s c) (ht : I (view t)) :
    Sound view I t (c.pass (decide (view t ≠ view s))) := by
  refine ⟨h.respects, h.idle, ?_⟩
  intro hmark
  simp only [Client.pass, Bool.or_eq_false_iff] at hmark
  by_cases hview : view t = view s
  · exact (h.alone hmark.1).transfer h.respects hview.symm
  rw [decide_eq_true hview, Bool.true_and] at hmark
  exact h.idle hmark.2 t ht

/-- **What each program keeps by itself, every interleaving without a stale write
keeps.** -/
theorem along {I : ν → Prop} (hI : I (view s)) (hrespects : ∀ r ∈ programs, r.Respects view)
    (halone : ∀ r ∈ programs, ∀ t, I (view t) → r.Along (fun t => I (view t)) (fun _ _ => True) t)
    (h : Reach (step view) (fun p a => p.staleWrite view a = false) (start s programs) p) :
    I (view p.shared) := by
  have hinv : I (view p.shared) ∧
      ∀ (j : Nat) (c : Client ω γ σ α), p.clients[j]? = some c → Sound view I p.shared c := by
    apply Reach.invariant (I := fun p => I (view p.shared) ∧
      ∀ (j : Nat) (c : Client ω γ σ α), p.clients[j]? = some c → Sound view I p.shared c) _ _ h
    · refine ⟨hI, ?_⟩
      intro j c hc
      rw [start, getElem?_map] at hc
      obtain ⟨r, hr, rfl⟩ := map_eq_some_iff.1 hc
      have hmem := mem_of_getElem? hr
      exact ⟨hrespects r hmem, fun _ => halone r hmem, fun _ => halone r hmem s hI⟩
    intro p a q hp hok hstep
    obtain ⟨mover, op, effect, next, hs⟩ := step_cases hstep
    have hsound := hp.2 _ _ hs.before
    have hnext : mover.overtaken = false →
        (next a.2 p.shared).Along (fun t => I (view t)) (fun _ _ => True) q.shared := by
      intro hmark
      have halong := hsound.alone hmark
      rw [hs.rest] at halong
      exact hs.shared ▸ halong.2 a.2
    -- a change of what is watched comes from a client that runs as if alone
    have hI : I (view q.shared) := by
      by_cases hview : view q.shared = view p.shared
      · exact hview ▸ hp.1
      · exact (hnext (hs.not_overtaken hstep hok hview)).holds
    refine ⟨hI, ?_⟩
    intro j c hc
    obtain ⟨-, rfl⟩ | ⟨-, b, hb, rfl⟩ := hs.client_cases hc
    · have hrespects := hsound.respects
      rw [hs.rest] at hrespects
      exact ⟨hrespects.2 _ _, by simp, hnext⟩
    · exact (hp.2 j b hb).pass hI
  exact hinv.1

/-! ## What one client brings about -/

/-- A client that has not been overtaken does not undo `J`. -/
structure Harmless (view : σ → ν) (J : ν → Prop) (s : σ) (c : Client ω γ σ α) : Prop where
  idle : c.started = false → ∀ v, c.rest.Steady view J (fun _ _ => True) v
  alone : c.overtaken = false → c.rest.Steady view J (fun _ _ => True) (view s)

theorem Harmless.pass {J : ν → Prop} {t : σ} (h : Harmless view J s c) :
    Harmless view J t (c.pass (decide (view t ≠ view s))) := by
  refine ⟨h.idle, ?_⟩
  intro hmark
  simp only [Client.pass, Bool.or_eq_false_iff] at hmark
  by_cases hview : view t = view s
  · rw [hview]
    exact h.alone hmark.1
  rw [decide_eq_true hview, Bool.true_and] at hmark
  exact h.idle hmark.2 (view t)

/-- No client but the first makes a stale write. -/
def OthersInTime (view : σ → ν) (p : Pool ω γ σ α) (a : Nat × γ) : Prop :=
  a.1 ≠ 0 → p.staleWrite view a = false

instance (view : σ → ν) (p : Pool ω γ σ α) (a : Nat × γ) : Decidable (OthersInTime view p a) :=
  inferInstanceAs (Decidable (_ → _))

def firstResult (p : Pool ω γ σ α) : Option α := (p.clients[0]?).bind fun c => c.rest.result?

/-- The first client has reached some of its goals, which hold, and has the others to reach;
the other clients are harmless to what is reached. -/
structure Attaining (view : σ → ν) (ok : α → Prop) (goals : List (ν → Prop)) (p : Pool ω γ σ α) :
    Prop where
  first : ∃ met todo, met ++ todo = goals ∧ (∀ J ∈ met, J (view p.shared)) ∧
    ∀ c, p.clients[0]? = some c → c.rest.Attains view ok met todo
  others : ∀ (j : Nat) (c : Client ω γ σ α), j ≠ 0 → p.clients[j]? = some c →
    ∀ met, met <+: goals → Harmless view (fun v => ∀ J ∈ met, J v) p.shared c

variable {ok : α → Prop} {goals : List (ν → Prop)}

/-- The statements of the others make a stale write, or undo nothing. -/
theorem Attaining.others_keep (hp : Attaining view ok goals p) (hstep : p.step view a = some q)
    (hother : a.1 ≠ 0) (hok : OthersInTime view p a) {met : List (ν → Prop)} (hmet : met <+: goals)
    (hJ : ∀ J ∈ met, J (view p.shared)) : ∀ J ∈ met, J (view q.shared) := by
  obtain ⟨mover, op, effect, next, hs⟩ := step_cases hstep
  by_cases hview : view q.shared = view p.shared
  · rw [hview]
    exact hJ
  have hsteady := (hp.others _ _ hother hs.before met hmet).alone
    (hs.not_overtaken hstep (hok hother) hview)
  rw [hs.rest] at hsteady
  rw [hs.shared]
  exact (hsteady a.2 p.shared rfl).1 hJ

theorem Attaining.first_step (hp : Attaining view ok goals p) (hok : OthersInTime view p a)
    (hstep : p.step view a = some q) :
    ∃ met todo, met ++ todo = goals ∧ (∀ J ∈ met, J (view q.shared)) ∧
      ∀ c, q.clients[0]? = some c → c.rest.Attains view ok met todo := by
  obtain ⟨mover, op, effect, next, hs⟩ := step_cases hstep
  obtain ⟨met, todo, hgoals, hmet, hfirst⟩ := hp.first
  by_cases hzero : a.1 = 0
  · have hmover := hfirst mover (hzero ▸ hs.before)
    rw [hs.rest] at hmover
    obtain ⟨reached, rest, rfl, hreached, hnext⟩ := hmover a.2 p.shared hmet
    refine ⟨met ++ reached, rest, by rw [append_assoc]; exact hgoals, ?_, ?_⟩
    · rw [hs.shared]
      exact hreached
    intro c hc
    have hmoved := hs.moved
    rw [hzero] at hmoved
    cases hmoved.symm.trans hc
    exact hnext
  refine ⟨met, todo, hgoals, hp.others_keep hstep hzero hok ⟨todo, hgoals⟩ hmet, ?_⟩
  intro c hc
  obtain ⟨hmoved, -⟩ | ⟨-, b, hb, rfl⟩ := hs.client_cases hc
  · exact absurd hmoved.symm hzero
  · exact hfirst b hb

theorem Attaining.step (hp : Attaining view ok goals p) (hok : OthersInTime view p a)
    (hstep : p.step view a = some q) : Attaining view ok goals q := by
  refine ⟨hp.first_step hok hstep, ?_⟩
  obtain ⟨mover, op, effect, next, hs⟩ := step_cases hstep
  intro j c hj hc met hmet
  obtain ⟨hmoved, rfl⟩ | ⟨-, b, hb, rfl⟩ := hs.client_cases hc
  · have hharmless := hp.others j mover hj (by rw [hmoved]; exact hs.before) met hmet
    refine ⟨by simp, ?_⟩
    intro hmark
    have hsteady := hharmless.alone hmark
    rw [hs.rest] at hsteady
    rw [hs.shared]
    exact (hsteady a.2 p.shared rfl).2
  · exact (hp.others j b hj hb met hmet).pass

variable {others : List (Prog ω γ σ α)}

/-- **What the first client has reached stays reached**, in every run in which no other
client makes a stale write. -/
theorem attains {first : Prog ω γ σ α} (hfirst : first.Attains view ok [] goals)
    (hothers : ∀ r ∈ others, ∀ met, met <+: goals → ∀ v,
      r.Steady view (fun v => ∀ J ∈ met, J v) (fun _ _ => True) v)
    (h : Reach (step view) (OthersInTime view) (start s (first :: others)) p) {b : α}
    (hresult : p.firstResult = some b) (hb : ok b) : ∀ J ∈ goals, J (view p.shared) := by
  have hinv : Attaining view ok goals p := by
    apply Reach.invariant (I := Attaining view ok goals) _ (fun _ _ _ hp hok hs => hp.step hok hs) h
    refine ⟨⟨[], goals, rfl, by simp, ?_⟩, ?_⟩
    · intro c hc
      cases hc
      exact hfirst
    intro j c hj hc met hmet
    obtain ⟨i, rfl⟩ := Nat.exists_eq_succ_of_ne_zero hj
    rw [start, map_cons, getElem?_cons_succ, getElem?_map] at hc
    obtain ⟨r, hr, rfl⟩ := map_eq_some_iff.1 hc
    have hmem := mem_of_getElem? hr
    exact ⟨fun _ => hothers r hmem met hmet, fun _ => hothers r hmem met hmet _⟩
  obtain ⟨met, todo, hgoals, hmet, hrest⟩ := hinv.first
  obtain ⟨c, hc, hresult⟩ := bind_eq_some_iff.1 hresult
  have hattains := hrest c hc
  cases hprog : c.rest with
  | stmt op effect next =>
    rw [hprog] at hresult
    simp [Prog.result?] at hresult
  | done a =>
  rw [hprog] at hattains hresult
  cases hresult
  obtain rfl : todo = [] := hattains hb
  rw [← hgoals, append_nil]
  exact hmet

theorem commits {J : ν → Prop} {first : Prog ω γ σ α}
    (hfirst : first.Commits (fun s => J (view s)) ok)
    (hothers : ∀ r ∈ others, ∀ v, r.Steady view J (fun _ _ => True) v)
    (h : Reach (step view) (OthersInTime view) (start s (first :: others)) p) {b : α}
    (hresult : p.firstResult = some b) (hb : ok b) : J (view p.shared) := by
  apply attains hfirst.attains _ h hresult hb J (mem_singleton_self J)
  intro r hr met hmet v
  obtain rfl | rfl : met = [] ∨ met = [J] := by
    obtain ⟨rest, hrest⟩ := hmet
    cases met with
    | nil => exact .inl rfl
    | cons K Ks =>
    obtain ⟨hK, htail⟩ := List.cons.inj hrest
    rw [hK, (append_eq_nil_iff.1 htail).1]
    exact .inr rfl
  · exact Prog.steady_of_forall (by simp)
  · simpa using hothers r hr v

end Pool

end SmtpProxy.Lib
