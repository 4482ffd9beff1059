import Mathlib.Logic.Basic

/-!
# Programs that issue statements

A request handler works on a store it shares with others, one statement at a
time. `Prog ω γ σ α` is such a program: it is done with a result, or it issues a
statement, named by an `ω`, and goes on with what the statement answered. What a
statement does and answers depends on the store and on a `γ` the environment
decides (whether the statement fails, what the clock shows).

`run` executes a program with nobody else at work. What several of them do when
their statements interleave is the subject of `Lib.Interleave`; the predicates
here are what its rules ask of each program by itself:

* `Along`: run alone, an invariant holds before every statement and at the end (`Visits` and
  `Ends` say in which states a run may be cut short, and how it may end);
* `Keeps`: each statement keeps an invariant, whatever others that keep it too
  did since the statement before;
* `Respects`: the program acts on a part of the store through that part only;
* `Attains`: a program that succeeds has brought a list of goals about, one after the
  other, and kept each from there on (`Commits` is the case of one goal);
* `Steady`: while nobody else changes a part of the store, the program does not
  undo `J` of it.
-/

namespace SmtpProxy.Lib

open List

/-- A program over a store `σ`, with a result in `α`. -/
inductive Prog (ω γ σ α : Type) where
  | done (a : α)
  | stmt (op : ω) (effect : γ → σ → σ) (next : γ → σ → Prog ω γ σ α)

namespace Prog

variable {ω γ σ α β : Type}

def bind : Prog ω γ σ α → (α → Prog ω γ σ β) → Prog ω γ σ β
  | .done a, k => k a
  | .stmt op effect next, k => .stmt op effect fun c s => (next c s).bind k

instance : Monad (Prog ω γ σ) where
  pure := .done
  bind := Prog.bind

/-- A single statement: its answer and the store it leaves. -/
def exec (op : ω) (f : γ → σ → β × σ) : Prog ω γ σ β :=
  .stmt op (fun c s => (f c s).2) fun c s => .done (f c s).1

def op? : Prog ω γ σ α → Option ω
  | .done _ => none
  | .stmt op _ _ => some op

def result? : Prog ω γ σ α → Option α
  | .done a => some a
  | .stmt _ _ _ => none

theorem bind_done (p : Prog ω γ σ α) : p.bind .done = p := by
  induction p with
  | done a => rfl
  | stmt op effect next ih =>
  show Prog.stmt op effect (fun c s => (next c s).bind .done) = _
  congr 1
  funext c s
  exact ih c s

theorem bind_bind {δ : Type} (p : Prog ω γ σ α) (k : α → Prog ω γ σ β) (l : β → Prog ω γ σ δ) :
    (p.bind k).bind l = p.bind fun a => (k a).bind l := by
  induction p with
  | done a => rfl
  | stmt op effect next ih =>
  show Prog.stmt op effect (fun c s => ((next c s).bind k).bind l) = Prog.stmt op effect _
  congr 1
  funext c s
  exact ih c s

instance : LawfulMonad (Prog ω γ σ) :=
  LawfulMonad.mk' _ bind_done (fun _ _ => rfl) bind_bind

/-! ## Running alone -/

/-- Run a program with nobody else at work. The environment decides each statement
by its name. -/
def run (env : ω → γ) : Prog ω γ σ α → σ → α × σ
  | .done a, s => (a, s)
  | .stmt op effect next, s => (next (env op) s).run env (effect (env op) s)

variable {env : ω → γ}

@[simp] theorem run_pure (a : α) (s : σ) : (pure a : Prog ω γ σ α).run env s = (a, s) := rfl

@[simp] theorem run_exec (op : ω) (f : γ → σ → β × σ) (s : σ) :
    (exec op f).run env s = f (env op) s := rfl

@[simp] theorem run_bind (p : Prog ω γ σ α) (k : α → Prog ω γ σ β) (s : σ) :
    (p >>= k).run env s = (k (p.run env s).1).run env (p.run env s).2 := by
  show (p.bind k).run env s = _
  induction p generalizing s with
  | done a => rfl
  | stmt op effect next ih => exact ih (env op) s (effect (env op) s)

@[simp] theorem run_map (f : α → β) (p : Prog ω γ σ α) (s : σ) :
    (f <$> p).run env s = (f (p.run env s).1, (p.run env s).2) := by
  rw [← bind_pure_comp, run_bind]
  rfl

/-! ## An invariant along a run -/

/-- Run alone from `s`, the program finds `I` before every statement and at its
end, where `Q` holds of the result. -/
def Along (I : σ → Prop) (Q : α → σ → Prop) : Prog ω γ σ α → σ → Prop
  | .done a, s => I s ∧ Q a s
  | .stmt _ effect next, s => I s ∧ ∀ c, (next c s).Along I Q (effect c s)

section

variable {I : σ → Prop} {Q : α → σ → Prop} {R : β → σ → Prop} {s : σ} {p : Prog ω γ σ α}

theorem Along.holds (h : p.Along I Q s) : I s := by
  cases p <;> exact h.1

theorem Along.bind {k : α → Prog ω γ σ β} (h : p.Along I (fun a t => (k a).Along I R t) s) :
    (p >>= k).Along I R s := by
  show (p.bind k).Along I R s
  induction p generalizing s with
  | done a => exact h.2
  | stmt op effect next ih => exact ⟨h.1, fun c => ih c s (h.2 c)⟩

theorem Along.mono' {Q' : α → σ → Prop} (h : p.Along I Q s) (hQ : ∀ a t, I t → Q a t → Q' a t) :
    p.Along I Q' s := by
  induction p generalizing s with
  | done a => exact ⟨h.1, hQ a s h.1 h.2⟩
  | stmt op effect next ih => exact ⟨h.1, fun c => ih c s (h.2 c)⟩

theorem Along.mono {Q' : α → σ → Prop} (h : p.Along I Q s) (hQ : ∀ a t, Q a t → Q' a t) :
    p.Along I Q' s :=
  h.mono' fun a t _ => hQ a t

theorem Along.weaken {I' : σ → Prop} (h : p.Along I Q s) (hI : ∀ t, I t → I' t) :
    p.Along I' Q s := by
  induction p generalizing s with
  | done a => exact ⟨hI s h.1, h.2⟩
  | stmt op effect next ih => exact ⟨hI s h.1, fun c => ih c s (h.2 c)⟩

theorem along_exec {op : ω} {f : γ → σ → β × σ} (h : I s)
    (hf : ∀ c, I (f c s).2 ∧ R (f c s).1 (f c s).2) : (exec op f).Along I R s :=
  ⟨h, hf⟩

end

/-! ## Runs that are cut short -/

/-- Run alone from `s`, whatever the environment decides, the program may leave `t` behind when
it is cut short before a statement or has come to its end. -/
def Visits : Prog ω γ σ α → (s t : σ) → Prop
  | .done _, s, t => t = s
  | .stmt _ effect next, s, t => t = s ∨ ∃ c, (next c s).Visits (effect c s) t

/-- Run alone from `s`, whatever the environment decides, the program may end with `a` in `t`. -/
def Ends : Prog ω γ σ α → (s : σ) → (a : α) → (t : σ) → Prop
  | .done b, s, a, t => a = b ∧ t = s
  | .stmt _ effect next, s, a, t => ∃ c, (next c s).Ends (effect c s) a t

section

variable {I : σ → Prop} {Q : α → σ → Prop} {p : Prog ω γ σ α} {s t : σ} {a : α}

theorem Along.visits (h : p.Along I Q s) (hv : p.Visits s t) : I t := by
  induction p generalizing s with
  | done b =>
    obtain rfl : t = s := hv
    exact h.1
  | stmt op effect next ih =>
  obtain rfl | ⟨c, hc⟩ := hv
  · exact h.1
  · exact ih c s (h.2 c) hc

theorem Along.ends (h : p.Along I Q s) (he : p.Ends s a t) : I t ∧ Q a t := by
  induction p generalizing s with
  | done b =>
    obtain ⟨rfl, rfl⟩ := he
    exact h
  | stmt op effect next ih =>
    obtain ⟨c, hc⟩ := he
    exact ih c s (h.2 c) hc

theorem Ends.visits (he : p.Ends s a t) : p.Visits s t := by
  induction p generalizing s with
  | done b => exact he.2
  | stmt op effect next ih =>
    obtain ⟨c, hc⟩ := he
    exact .inr ⟨c, ih c s hc⟩

/-- A run that is not cut short ends as it does. -/
theorem ends_run (p : Prog ω γ σ α) (env : ω → γ) (s : σ) :
    p.Ends s (p.run env s).1 (p.run env s).2 := by
  induction p generalizing s with
  | done b => exact ⟨rfl, rfl⟩
  | stmt op effect next ih => exact ⟨env op, ih (env op) s (effect (env op) s)⟩

/-- Run a program with nobody else at work, and cut it short after this many statements. -/
def runFor (env : ω → γ) : Nat → Prog ω γ σ α → σ → σ
  | 0, _, s => s
  | _ + 1, .done _, s => s
  | n + 1, .stmt op effect next, s => runFor env n (next (env op) s) (effect (env op) s)

theorem visits_runFor (env : ω → γ) (n : Nat) (p : Prog ω γ σ α) (s : σ) :
    p.Visits s (runFor env n p s) := by
  induction n generalizing p s with
  | zero =>
    cases p with
    | done b => exact rfl
    | stmt op effect next => exact .inl rfl
  | succ n ih =>
  cases p with
  | done b => exact rfl
  | stmt op effect next => exact .inr ⟨env op, ih _ _⟩

end

/-! ## Keeping an invariant among others that keep it -/

/-- Each statement keeps `I`, and the result meets `Q`. Between two statements the
store may become any other one with `I`. -/
def Keeps (I : σ → Prop) (Q : α → Prop) : Prog ω γ σ α → Prop
  | .done a => Q a
  | .stmt _ effect next => ∀ c s, I s → I (effect c s) ∧ (next c s).Keeps I Q

section

variable {I : σ → Prop} {Q : α → Prop} {R : β → Prop} {p : Prog ω γ σ α}

@[simp] theorem keeps_pure {a : α} : (pure a : Prog ω γ σ α).Keeps I Q ↔ Q a := Iff.rfl

theorem Keeps.mono {Q' : α → Prop} (h : p.Keeps I Q) (hQ : ∀ a, Q a → Q' a) : p.Keeps I Q' := by
  induction p with
  | done a => exact hQ a h
  | stmt op effect next ih => exact fun c s hI => ⟨(h c s hI).1, ih c s (h c s hI).2⟩

theorem Keeps.bind {k : α → Prog ω γ σ β} (h : p.Keeps I fun a => (k a).Keeps I R) :
    (p >>= k).Keeps I R := by
  show (p.bind k).Keeps I R
  induction p with
  | done a => exact h
  | stmt op effect next ih => exact fun c s hI => ⟨(h c s hI).1, ih c s (h c s hI).2⟩

theorem Keeps.seq {k : α → Prog ω γ σ β} (hp : p.Keeps I fun _ => True)
    (hk : ∀ a, (k a).Keeps I fun _ => True) : (p >>= k).Keeps I fun _ => True :=
  .bind (hp.mono fun a _ => hk a)

theorem Keeps.along (h : p.Keeps I Q) {s : σ} (hI : I s) : p.Along I (fun a _ => Q a) s := by
  induction p generalizing s with
  | done a => exact ⟨hI, h⟩
  | stmt op effect next ih => exact ⟨hI, fun c => ih c s (h c s hI).2 (h c s hI).1⟩

theorem keeps_of_forall (p : Prog ω γ σ α) (hI : ∀ s, I s) : p.Keeps I fun _ => True := by
  induction p with
  | done a => trivial
  | stmt op effect next ih => exact fun c s _ => ⟨hI _, ih c s⟩

theorem Keeps.run (h : p.Keeps I Q) {s : σ} (hI : I s) (env : ω → γ) :
    I (p.run env s).2 ∧ Q (p.run env s).1 := by
  induction p generalizing s with
  | done a => exact ⟨hI, h⟩
  | stmt op effect next ih =>
    obtain ⟨hI, hnext⟩ := h (env op) s hI
    exact ih (env op) s hnext hI

/-- A program that keeps everything changes nothing. -/
theorem run_of_keeps (h : ∀ I : σ → Prop, p.Keeps I fun _ => True) (env : ω → γ) (s : σ) :
    (p.run env s).2 = s :=
  ((h (· = s)).run rfl env).1

theorem Keeps.map {f : α → β} (h : p.Keeps I fun a => R (f a)) : (f <$> p).Keeps I R := by
  rw [← bind_pure_comp]
  exact Keeps.bind h

theorem keeps_exec {op : ω} {f : γ → σ → β × σ}
    (h : ∀ c s, I s → I (f c s).2 ∧ R (f c s).1) : (exec op f).Keeps I R := h

end

/-! ## Acting through a part of the store -/

variable {ν : Type} {view : σ → ν}

/-- What the program does to `view`, and how it goes on, depends on the store
through `view` alone. -/
def Respects (view : σ → ν) : Prog ω γ σ α → Prop
  | .done _ => True
  | .stmt _ effect next =>
    (∀ c s t, view s = view t → view (effect c s) = view (effect c t) ∧ next c s = next c t) ∧
      ∀ c s, (next c s).Respects view

@[simp] protected theorem Respects.pure {a : α} : (pure a : Prog ω γ σ α).Respects view := trivial

theorem Respects.bind {p : Prog ω γ σ α} {k : α → Prog ω γ σ β} (hp : p.Respects view)
    (hk : ∀ a, (k a).Respects view) : (p >>= k).Respects view := by
  show (p.bind k).Respects view
  induction p with
  | done a => exact hk a
  | stmt op effect next ih =>
  refine ⟨fun c s t hst => ⟨(hp.1 c s t hst).1, ?_⟩, fun c s => ih c s (hp.2 c s)⟩
  show (next c s).bind k = (next c t).bind k
  rw [(hp.1 c s t hst).2]

theorem respects_exec {op : ω} {f : γ → σ → β × σ}
    (h : ∀ c s t, view s = view t → (f c s).1 = (f c t).1 ∧ view (f c s).2 = view (f c t).2) :
    (exec op f).Respects view :=
  ⟨fun c s t hst => ⟨(h c s t hst).2, congrArg Prog.done (h c s t hst).1⟩, fun _ _ => trivial⟩

/-- A program that acts through `view` alone keeps an invariant of `view` along its
run from every store with the same `view`. -/
theorem Along.transfer {I : ν → Prop} {p : Prog ω γ σ α} (hp : p.Respects view) {s t : σ}
    (hst : view s = view t) (h : p.Along (fun s => I (view s)) (fun _ _ => True) s) :
    p.Along (fun s => I (view s)) (fun _ _ => True) t := by
  induction p generalizing s t with
  | done a =>
    have hI : I (view t) := hst ▸ show I (view s) from h.1
    exact ⟨hI, trivial⟩
  | stmt op effect next ih =>
  have hI : I (view t) := hst ▸ show I (view s) from h.1
  refine ⟨hI, fun c => ?_⟩
  obtain ⟨heffect, hnext⟩ := hp.1 c s t hst
  rw [← hnext]
  exact ih c s (hp.2 c s) heffect (h.2 c)

/-! ## Bringing something about -/

/-- The program cannot end with a result in `ok` unless one of its statements has
made `J` true and those after it keep `J`. -/
def Commits (J : σ → Prop) (ok : α → Prop) : Prog ω γ σ α → Prop
  | .done a => ¬ ok a
  | .stmt _ effect next =>
    ∀ c s, (next c s).Commits J ok ∨ (J (effect c s) ∧ (next c s).Keeps J fun _ => True)

section

variable {J : σ → Prop} {ok : β → Prop}

@[simp] theorem commits_pure {b : β} : (pure b : Prog ω γ σ β).Commits J ok ↔ ¬ ok b := Iff.rfl

theorem Commits.after {p : Prog ω γ σ α} {k : α → Prog ω γ σ β}
    (h : p.Keeps (fun _ => True) fun a => (k a).Commits J ok) : (p >>= k).Commits J ok := by
  show (p.bind k).Commits J ok
  induction p with
  | done a => exact h
  | stmt op effect next ih => exact fun c s => .inl (ih c s (h c s trivial).2)

theorem commits_exec {op : ω} {f : γ → σ → α × σ} {k : α → Prog ω γ σ β}
    (h : ∀ c s, (k (f c s).1).Commits J ok ∨
      (J (f c s).2 ∧ (k (f c s).1).Keeps J fun _ => True)) : (exec op f >>= k).Commits J ok := h

theorem Commits.map {p : Prog ω γ σ α} {f : α → β} (h : p.Commits J fun a => ok (f a)) :
    (f <$> p).Commits J ok := by
  rw [← bind_pure_comp]
  show (p.bind _).Commits J ok
  induction p with
  | done a => exact h
  | stmt op effect next ih =>
  intro c s
  obtain hnext | ⟨hJ, hkeeps⟩ := h c s
  · exact .inl (ih c s hnext)
  · exact .inr ⟨hJ, Keeps.bind (hkeeps.mono fun _ _ => trivial)⟩

end

/-- The program cannot end with a result in `ok` before its statements have made the goals
in `todo` true of the `view`, one after the other. Those in `met` hold already, and each goal
is kept from the statement on that brought it about. -/
def Attains (view : σ → ν) (ok : α → Prop) : Prog ω γ σ α → (met todo : List (ν → Prop)) → Prop
  | .done a, _, todo => ok a → todo = []
  | .stmt _ effect next, met, todo =>
    ∀ c s, (∀ J ∈ met, J (view s)) → ∃ reached rest, todo = reached ++ rest ∧
      (∀ J ∈ met ++ reached, J (view (effect c s))) ∧
        (next c s).Attains view ok (met ++ reached) rest

section

variable {ok : β → Prop} {met todo : List (ν → Prop)}

@[simp] theorem attains_pure {b : β} :
    (pure b : Prog ω γ σ β).Attains view ok met todo ↔ (ok b → todo = []) := Iff.rfl

/-- What keeps the goals that are reached may come first. -/
theorem Attains.after {p : Prog ω γ σ α} {k : α → Prog ω γ σ β}
    (h : p.Keeps (fun s => ∀ J ∈ met, J (view s)) fun a => (k a).Attains view ok met todo) :
    (p >>= k).Attains view ok met todo := by
  show (p.bind k).Attains view ok met todo
  induction p with
  | done a => exact h
  | stmt op effect next ih =>
  intro c s hs
  obtain ⟨hkept, hnext⟩ := h c s hs
  refine ⟨[], todo, rfl, ?_, ?_⟩
  · rw [append_nil]
    exact hkept
  rw [append_nil]
  exact ih c s hnext

theorem Attains.map {p : Prog ω γ σ α} {f : α → β}
    (h : p.Attains view (fun a => ok (f a)) met todo) : (f <$> p).Attains view ok met todo := by
  rw [← bind_pure_comp]
  show (p.bind _).Attains view ok met todo
  induction p generalizing met todo with
  | done a => exact h
  | stmt op effect next ih =>
  intro c s hs
  obtain ⟨reached, rest, htodo, hreached, hnext⟩ := h c s hs
  exact ⟨reached, rest, htodo, hreached, ih c s hnext⟩

theorem attains_exec {op : ω} {f : γ → σ → α × σ} {k : α → Prog ω γ σ β} {J : ν → Prop}
    (h : ∀ c s, (∀ J ∈ met, J (view s)) →
      ((∀ J ∈ met, J (view (f c s).2)) ∧ (k (f c s).1).Attains view ok met (J :: todo)) ∨
        ((∀ J ∈ met, J (view (f c s).2)) ∧ J (view (f c s).2) ∧
          (k (f c s).1).Attains view ok (met ++ [J]) todo)) :
    (exec op f >>= k).Attains view ok met (J :: todo) := by
  intro c s hs
  obtain ⟨hkept, hnext⟩ | ⟨hkept, hJ, hnext⟩ := h c s hs
  · refine ⟨[], J :: todo, rfl, ?_, ?_⟩
    · rw [append_nil]
      exact hkept
    · rw [append_nil]
      exact hnext
  refine ⟨[J], todo, rfl, ?_, hnext⟩
  intro K hK
  obtain hK | hK := mem_append.1 hK
  · exact hkept K hK
  rw [mem_singleton.1 hK]
  exact hJ

theorem Keeps.attains {p : Prog ω γ σ β} {Q : β → Prop}
    (h : p.Keeps (fun s => ∀ J ∈ met, J (view s)) Q) : p.Attains view ok met [] := by
  induction p with
  | done b => exact fun _ => rfl
  | stmt op effect next ih =>
  intro c s hs
  obtain ⟨hkept, hnext⟩ := h c s hs
  refine ⟨[], [], rfl, ?_, ?_⟩
  · rw [append_nil]
    exact hkept
  rw [append_nil]
  exact ih c s hnext

theorem Commits.attains {J : ν → Prop} {p : Prog ω γ σ β} (h : p.Commits (fun s => J (view s)) ok) :
    p.Attains view ok [] [J] := by
  induction p with
  | done b => exact fun hb => absurd hb h
  | stmt op effect next ih =>
  intro c s _
  obtain hnext | ⟨hJ, hkeeps⟩ := h c s
  · exact ⟨[], [J], rfl, by simp, ih c s hnext⟩
  refine ⟨[J], [], rfl, by simpa using hJ, ?_⟩
  exact Keeps.attains (Q := fun _ => True) (by simpa using hkeeps)

end

/-! ## Undoing nothing -/

/-- From a store whose `view` is `v` on, and as long as others leave the `view` as the
program's own statements do, no statement makes `J` of it false. At the end, `Q` holds
of the result and the `view`. -/
def Steady (view : σ → ν) (J : ν → Prop) (Q : α → ν → Prop) : Prog ω γ σ α → ν → Prop
  | .done a, v => Q a v
  | .stmt _ effect next, v =>
    ∀ c s, view s = v →
      (J v → J (view (effect c s))) ∧ (next c s).Steady view J Q (view (effect c s))

section

variable {J : ν → Prop} {Q : α → ν → Prop} {R : β → ν → Prop} {v : ν} {p : Prog ω γ σ α}

theorem Steady.bind {k : α → Prog ω γ σ β}
    (h : p.Steady view J (fun a w => (k a).Steady view J R w) v) : (p >>= k).Steady view J R v := by
  show (p.bind k).Steady view J R v
  induction p generalizing v with
  | done a => exact h
  | stmt op effect next ih => exact fun c s hs => ⟨(h c s hs).1, ih c s (h c s hs).2⟩

theorem Steady.mono {Q' : α → ν → Prop} (h : p.Steady view J Q v) (hQ : ∀ a w, Q a w → Q' a w) :
    p.Steady view J Q' v := by
  induction p generalizing v with
  | done a => exact hQ a v h
  | stmt op effect next ih => exact fun c s hs => ⟨(h c s hs).1, ih c s (h c s hs).2⟩

theorem Steady.map {f : α → β} (h : p.Steady view J (fun a w => R (f a) w) v) :
    (f <$> p).Steady view J R v := by
  rw [← bind_pure_comp]
  exact Steady.bind h

theorem steady_exec {op : ω} {f : γ → σ → β × σ}
    (h : ∀ c s, view s = v → (J v → J (view (f c s).2)) ∧ R (f c s).1 (view (f c s).2)) :
    (exec op f).Steady view J R v := h

theorem Keeps.steady {P : α → Prop} (h : p.Keeps (fun s => view s = v) P) (hQ : ∀ a, P a → Q a v) :
    p.Steady view J Q v := by
  induction p with
  | done a => exact hQ a h
  | stmt op effect next ih =>
  intro c s hs
  obtain ⟨hview, hnext⟩ := h c s hs
  rw [hview]
  exact ⟨id, ih c s hnext⟩

theorem steady_of_forall (hJ : ∀ v, J v) : p.Steady view J (fun _ _ => True) v := by
  induction p generalizing v with
  | done a => trivial
  | stmt op effect next ih => exact fun c s _ => ⟨fun _ => hJ _, ih c s⟩

/-- A program that does not make `A` true, from where it is false, does not undo what `A` is
needed for. -/
theorem Keeps.steady_of_not {A : ν → Prop} {P : α → Prop} (h : p.Keeps (fun s => ¬ A (view s)) P)
    (hJ : ∀ w, J w → A w) (hv : ¬ A v) : p.Steady view J (fun _ _ => True) v := by
  induction p generalizing v with
  | done a => trivial
  | stmt op effect next ih =>
  intro c s hs
  obtain ⟨hkept, hnext⟩ := h c s (show ¬ A (view s) from hs ▸ hv)
  exact ⟨fun hJv => absurd (hJ v hJv) hv, ih c s hnext hkept⟩

end

end Prog

/-! ## Two programs side by side

`p.Twin R S q` relates two programs that issue the same statements on stores related by `R`:
each pair of statements keeps the stores related, and results that are reached are related by
`S`. -/

structure Lens (τ σ : Type) where
  get : τ → σ
  set : σ → τ → τ
  get_set : ∀ x s, get (set x s) = x
  set_get : ∀ s, set (get s) s = s
  set_set : ∀ x y s, set y (set x s) = set y s

/-- Both failed, in the same way, or both have results that are related. -/
inductive SameOutcome {ε α β : Type} (S : α → β → Prop) : Except ε α → Except ε β → Prop where
  | error (e : ε) : SameOutcome S (.error e) (.error e)
  | ok {a : α} {b : β} (h : S a b) : SameOutcome S (.ok a) (.ok b)

namespace SameOutcome

variable {ε α β : Type} {S : α → β → Prop} {x : Except ε α}

theorem of_eq {S : α → α → Prop} (hS : ∀ a, S a a) {y : Except ε α} (h : x = y) :
    SameOutcome S x y := by
  subst h
  cases x with
  | error e => exact .error e
  | ok a => exact .ok (hS a)

theorem refl (x : Except ε α) : SameOutcome (· = ·) x x := of_eq (fun _ => rfl) rfl

variable {y : Except ε β}

theorem mapError (h : SameOutcome S x y) (f : ε → ε) :
    SameOutcome S (x.mapError f) (y.mapError f) := by
  cases h with
  | error e => exact .error (f e)
  | ok h => exact .ok h

theorem isOk (h : SameOutcome S x y) : x.isOk = y.isOk := by
  cases h <;> rfl

theorem bind {α' β' : Type} {T : α' → β' → Prop} {f : α → Except ε α'} {g : β → Except ε β'}
    (h : SameOutcome S x y) (hf : ∀ a b, S a b → SameOutcome T (f a) (g b)) :
    SameOutcome T (x >>= f) (y >>= g) := by
  cases h with
  | error e => exact .error e
  | ok h => exact hf _ _ h

end SameOutcome

namespace Prog

variable {ω ω' γ σ τ α β α' β' : Type}

/-- The program on the part of a larger store a lens shows, under other names. -/
def zoom (name : ω → ω') (l : Lens τ σ) : Prog ω γ σ α → Prog ω' γ τ α
  | .done a => .done a
  | .stmt op effect next =>
    .stmt (name op) (fun c s => l.set (effect c (l.get s)) s) fun c s =>
      (next c (l.get s)).zoom name l

/-- The run of a program each statement of which meets something else: the `n`-th what the
environment has at `n`. -/
def course : Prog ω γ σ α → (Nat → γ) → σ → α × σ
  | .done a, _, s => (a, s)
  | .stmt _ effect next, env, s =>
    (next (env 0) s).course (fun n => env (n + 1)) (effect (env 0) s)

/-- The programs issue the same statements; these keep the stores related, and the results
are related. -/
def Twin (R : σ → σ → Prop) (S : α → β → Prop) : Prog ω γ σ α → Prog ω γ σ β → Prop
  | .done a, .done b => S a b
  | .stmt op effect next, .stmt op' effect' next' =>
    op = op' ∧ ∀ c s t, R s t → R (effect c s) (effect' c t) ∧ (next c s).Twin R S (next' c t)
  | .done _, .stmt _ _ _ => False
  | .stmt _ _ _, .done _ => False

variable {R : σ → σ → Prop} {S : α → β → Prop} {S' : α' → β' → Prop}

protected theorem Twin.pure {a : α} {b : β} (h : S a b) : (pure a : Prog ω γ σ α).Twin R S (pure b) := h

theorem twin_exec {op : ω} {f : γ → σ → α × σ} {g : γ → σ → β × σ}
    (h : ∀ c s t, R s t → S (f c s).1 (g c t).1 ∧ R (f c s).2 (g c t).2) :
    (exec op f).Twin R S (exec op g) :=
  ⟨rfl, fun c s t hst => ⟨(h c s t hst).2, (h c s t hst).1⟩⟩

variable {p : Prog ω γ σ α} {q : Prog ω γ σ β}

theorem Twin.bind {k : α → Prog ω γ σ α'} {k' : β → Prog ω γ σ β'} (hp : p.Twin R S q)
    (hk : ∀ a b, S a b → (k a).Twin R S' (k' b)) : (p >>= k).Twin R S' (q >>= k') := by
  show (p.bind k).Twin R S' (q.bind k')
  induction p generalizing q with
  | done a =>
    cases q with
    | done b => exact hk a b hp
    | stmt op effect next => exact absurd hp id
  | stmt op effect next ih =>
  cases q with
  | done b => exact absurd hp id
  | stmt op' effect' next' =>
    refine ⟨hp.1, fun c s t hst => ⟨(hp.2 c s t hst).1, ?_⟩⟩
    exact ih c s (hp.2 c s t hst).2

theorem Twin.bindOk {ε : Type} {p : Prog ω γ σ (Except ε α)} {q : Prog ω γ σ (Except ε β)}
    {k : Except ε α → Prog ω γ σ α'} {k' : Except ε β → Prog ω γ σ β'}
    (hp : p.Twin R (SameOutcome S) q) (herror : ∀ e, (k (.error e)).Twin R S' (k' (.error e)))
    (hok : ∀ a b, S a b → (k (.ok a)).Twin R S' (k' (.ok b))) : (p >>= k).Twin R S' (q >>= k') := by
  refine hp.bind fun found found' h => ?_
  cases h with
  | error e => exact herror e
  | ok h => exact hok _ _ h

theorem Twin.mapError {ε : Type} {p : Prog ω γ σ (Except ε α)} {q : Prog ω γ σ (Except ε β)}
    (h : p.Twin R (SameOutcome S) q) (f : ε → ε) :
    (do return (← p).mapError f).Twin R (SameOutcome S) (do return (← q).mapError f) :=
  h.bind fun _ _ hout => .pure (hout.mapError f)

theorem Twin.course (h : p.Twin R S q) {s t : σ} (hst : R s t) (env : Nat → γ) :
    S (p.course env s).1 (q.course env t).1 ∧ R (p.course env s).2 (q.course env t).2 := by
  induction p generalizing q s t env with
  | done a =>
    cases q with
    | done b => exact ⟨h, hst⟩
    | stmt op effect next => exact absurd h id
  | stmt op effect next ih =>
  cases q with
  | done b => exact absurd h id
  | stmt op' effect' next' =>
    obtain ⟨heffect, hnext⟩ := h.2 (env 0) s t hst
    exact ih (env 0) s hnext heffect fun n => env (n + 1)

theorem Twin.zoom {R' : τ → τ → Prop} {name : ω → ω'} {l : Lens τ σ}
    (hget : ∀ s t, R' s t → R (l.get s) (l.get t))
    (hset : ∀ x y s t, R x y → R' s t → R' (l.set x s) (l.set y t)) (h : p.Twin R S q) :
    (p.zoom name l).Twin R' S (q.zoom name l) := by
  induction p generalizing q with
  | done a =>
    cases q with
    | done b => exact h
    | stmt op effect next => exact absurd h id
  | stmt op effect next ih =>
  cases q with
  | done b => exact absurd h id
  | stmt op' effect' next' =>
  obtain ⟨rfl, hstep⟩ := h
  refine ⟨rfl, fun c s t hst => ?_⟩
  obtain ⟨heffect, hnext⟩ := hstep c (l.get s) (l.get t) (hget s t hst)
  exact ⟨hset _ _ s t heffect hst, ih c (l.get s) hnext⟩

/-! ## Programs that only read -/

/-- No statement of the program changes the store. -/
def ReadOnly : Prog ω γ σ α → Prop
  | .done _ => True
  | .stmt _ effect next => ∀ c s, effect c s = s ∧ (next c s).ReadOnly

variable {name : ω → ω'} {l : Lens τ σ}

theorem ReadOnly.bind {k : α → Prog ω γ σ β} (hp : p.ReadOnly) (hk : ∀ a, (k a).ReadOnly) :
    (p >>= k).ReadOnly := by
  show (p.bind k).ReadOnly
  induction p with
  | done a => exact hk a
  | stmt op effect next ih => exact fun c s => ⟨(hp c s).1, ih c s (hp c s).2⟩

theorem ReadOnly.keeps {I : σ → Prop} (h : p.ReadOnly) : p.Keeps I fun _ => True := by
  induction p with
  | done a => trivial
  | stmt op effect next ih => exact fun c s hI => ⟨(h c s).1.symm ▸ hI, ih c s (h c s).2⟩

end Prog

end SmtpProxy.Lib
