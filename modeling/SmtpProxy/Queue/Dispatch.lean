import SmtpProxy.Store.Claim

/-!
# The dispatcher

`Runner.dispatch` of `internal/queue/worker.go`. One goroutine claims messages and starts a
goroutine for each; a channel with room for as many elements as there are workers counts those
under way. How many elements are free is read before the claim and relied on after it, while
deliveries finish and take their elements out again.

It works because nobody else puts elements in. Between the reading and the last message of the
batch the channel only gets emptier but for the dispatcher's own sends, so the elements in it and
the messages still to be handed out never exceed its room together (`Fits`). Hence no delivery
waits for a slot: `claimed_starts_at_once`.

Log lines and the housekeeping goroutine of `Run` are left out.
-/

namespace SmtpProxy.Queue.Dispatch

open Lib

variable {M : Type}

inductive Place (M : Type) where
  /-- `Run` has not been called, or has returned. -/
  | idle
  /-- At the top of the loop. -/
  | top
  /-- In `claim`, which was asked for so many messages. -/
  | claiming (limit : Int)
  /-- In the loop over the claimed messages, with those left; whether there were any at all. -/
  | handing (any : Bool) (rest : List M)
  /-- An element is in the channel for the message, but its goroutine is not started yet. -/
  | launching (m : M) (rest : List M)
  /-- Nothing was claimed: waiting for the ticker. -/
  | waiting
  /-- Out of the loop, waiting for the goroutines. -/
  | draining
  deriving DecidableEq

inductive Progress where
  | started
  | delivering
  | delivered
  deriving DecidableEq

structure Pool (M : Type) where
  place : Place M := .idle
  /-- `len(slots)`. -/
  slots : Nat := 0
  goroutines : List (M × Progress) := []
  /-- `ctx` is done. -/
  cancelled : Bool := false
  deriving DecidableEq

inductive Act (M : Type) where
  /-- `Run` is called. -/
  | run
  /-- `cap(slots)-len(slots)` is read. -/
  | sample
  /-- `ClaimMessages` returns; `none` is an error. -/
  | claim (rows : Option (List M))
  /-- `slots <- struct{}{}`. -/
  | send
  | launch
  /-- `ctx.Done()` is chosen where a message was to be handed out. -/
  | abandon
  /-- The loop over the claimed messages ends. -/
  | endBatch
  | tick
  /-- `ctx.Done()` is chosen instead of the ticker. -/
  | leave
  | cancel
  | begin (i : Nat)
  | finish (i : Nat)
  /-- `<-slots` of a goroutine whose delivery is over. -/
  | release (i : Nat)
  /-- `Run` returns. -/
  | stop
  deriving DecidableEq

def workersOf (workers : Int) : Nat := if workers ≤ 0 then 4 else workers.toNat

/-- `Runner.claim`, given what the database returned if it was asked. -/
def claimed (limit : Int) (rows : Option (List M)) : List M :=
  if limit ≤ 0 then [] else rows.getD []

/-- One step of the dispatcher, of a goroutine or of the one who cancels the context. -/
def step (workers : Nat) (s : Pool M) : Act M → Option (Pool M)
  | .run =>
    match s.place with
    | .idle => some { place := .top }
    -- `Run` returns "queue: already running"
    | _ => some s
  | .sample =>
    match s.place with
    | .top => some { s with place := .claiming (workers - s.slots) }
    | _ => none
  | .claim rows =>
    match s.place with
    | .claiming limit =>
      some { s with place := .handing (!(claimed limit rows).isEmpty) (claimed limit rows) }
    | _ => none
  | .send =>
    match s.place with
    | .handing _ (m :: rest) =>
      if s.slots < workers then some { s with slots := s.slots + 1, place := .launching m rest }
      else none
    | _ => none
  | .launch =>
    match s.place with
    | .launching m rest =>
      some { s with goroutines := s.goroutines ++ [(m, .started)], place := .handing true rest }
    | _ => none
  | .abandon =>
    match s.place with
    | .handing _ (_ :: _) => if s.cancelled then some { s with place := .draining } else none
    | _ => none
  | .endBatch =>
    match s.place with
    | .handing true [] =>
      if s.cancelled then some { s with place := .draining } else some { s with place := .top }
    | .handing false [] => some { s with place := .waiting }
    | _ => none
  | .tick =>
    match s.place with
    | .waiting => some { s with place := .top }
    | _ => none
  | .leave =>
    match s.place with
    | .waiting => if s.cancelled then some { s with place := .draining } else none
    | _ => none
  | .cancel => some { s with cancelled := true }
  | .begin i =>
    match s.goroutines[i]? with
    | some (m, .started) => some { s with goroutines := s.goroutines.set i (m, .delivering) }
    | _ => none
  | .finish i =>
    match s.goroutines[i]? with
    | some (m, .delivering) => some { s with goroutines := s.goroutines.set i (m, .delivered) }
    | _ => none
  | .release i =>
    match s.goroutines[i]? with
    | some (_, .delivered) =>
      if 0 < s.slots then
        some { s with slots := s.slots - 1, goroutines := s.goroutines.eraseIdx i }
      else none
    | _ => none
  | .stop =>
    match s.place with
    | .draining => if s.goroutines = [] then some { s with place := .idle } else none
    | _ => none

def Place.asked : Place M → Int
  | .claiming limit => limit
  | _ => 0

def Act.rows : Act M → List M
  | .claim rows => rows.getD []
  | _ => []

/-- The database, if it is asked, returns no more messages than it was asked for. -/
def AtMost (s : Pool M) (a : Act M) : Prop :=
  0 < s.place.asked → (a.rows.length : Int) ≤ s.place.asked

instance (s : Pool M) (a : Act M) : Decidable (AtMost s a) := inferInstanceAs (Decidable (_ → _))

def Reachable (workers : Nat) (s : Pool M) : Prop := Reach (step workers) AtMost {} s

/-! ## The elements and the messages fit -/

/-- The messages the dispatcher may still have to find a slot for. -/
def Place.pending : Place M → Nat
  | .claiming limit => limit.toNat
  | .handing _ rest => rest.length
  | .launching _ rest => rest.length
  | _ => 0

/-- The elements in the channel that no goroutine has to take out yet. -/
def Place.ahead : Place M → Nat
  | .launching _ _ => 1
  | _ => 0

/-- The channel has room for what is still to come, and in it is one element for each
goroutine. -/
structure Fits (workers : Nat) (s : Pool M) : Prop where
  room : s.slots + s.place.pending ≤ workers
  taken : s.slots = s.goroutines.length + s.place.ahead

theorem fits_init (workers : Nat) : Fits workers ({} : Pool M) := ⟨Nat.zero_le _, rfl⟩

variable {workers : Nat} {s t : Pool M}

theorem Fits.goto {p : Place M} (h : Fits workers s) (hahead : s.place.ahead = 0)
    (hp : p.pending = 0) (hp' : p.ahead = 0) : Fits workers { s with place := p } := by
  have hroom := h.room
  have htaken := h.taken
  exact ⟨by simp only [hp]; omega, by simp only [hp']; omega⟩

theorem claimed_le {limit : Int} {rows : Option (List M)}
    (h : 0 < limit → ((rows.getD []).length : Int) ≤ limit) :
    (claimed limit rows).length ≤ limit.toNat := by
  unfold claimed
  split
  · exact Nat.zero_le _
  have hle := h (by omega)
  omega

/-- **Every step keeps the elements and the messages within the channel's room.** -/
theorem fits_step {a : Act M} (h : Fits workers s) (hok : AtMost s a)
    (hstep : step workers s a = some t) : Fits workers t := by
  have hroom := h.room
  have htaken := h.taken
  cases a <;> simp only [step] at hstep
  case run =>
    split at hstep
    · cases hstep
      exact ⟨Nat.zero_le _, rfl⟩
    cases hstep
    exact h
  case sample =>
    split at hstep
    · next hplace =>
      cases hstep
      rw [hplace] at htaken
      exact ⟨by simp only [Place.pending]; omega, htaken⟩
    · cases hstep
  case claim rows =>
    split at hstep
    · next limit hplace =>
      cases hstep
      simp only [AtMost, hplace, Place.asked, Act.rows] at hok
      rw [hplace] at hroom htaken
      have hle := claimed_le hok
      simp only [Place.pending] at hroom
      exact ⟨by simp only [Place.pending]; omega, htaken⟩
    · cases hstep
  case send =>
    split at hstep
    · next any m rest hplace =>
      split at hstep
      · cases hstep
        rw [hplace] at hroom htaken
        simp only [Place.pending, Place.ahead, List.length_cons] at hroom htaken
        exact ⟨by simp only [Place.pending]; omega, by simp only [Place.ahead]; omega⟩
      · cases hstep
    · cases hstep
  case launch =>
    split at hstep
    · next m rest hplace =>
      cases hstep
      rw [hplace] at hroom htaken
      exact ⟨hroom, by simpa [Place.ahead] using htaken⟩
    · cases hstep
  case abandon =>
    split at hstep
    · next any m rest hplace =>
      split at hstep
      · cases hstep
        exact h.goto (by rw [hplace]; rfl) rfl rfl
      · cases hstep
    · cases hstep
  case endBatch =>
    split at hstep
    · next hplace =>
      split at hstep
      · cases hstep
        exact h.goto (by rw [hplace]; rfl) rfl rfl
      cases hstep
      exact h.goto (by rw [hplace]; rfl) rfl rfl
    · next hplace =>
      cases hstep
      exact h.goto (by rw [hplace]; rfl) rfl rfl
    · cases hstep
  case tick =>
    split at hstep
    · next hplace =>
      cases hstep
      exact h.goto (by rw [hplace]; rfl) rfl rfl
    · cases hstep
  case leave =>
    split at hstep
    · next hplace =>
      split at hstep
      · cases hstep
        exact h.goto (by rw [hplace]; rfl) rfl rfl
      · cases hstep
    · cases hstep
  case cancel =>
    cases hstep
    exact ⟨hroom, htaken⟩
  case begin i =>
    split at hstep
    · cases hstep
      exact ⟨hroom, by simpa using htaken⟩
    · cases hstep
  case finish i =>
    split at hstep
    · cases hstep
      exact ⟨hroom, by simpa using htaken⟩
    · cases hstep
  case release i =>
    split at hstep
    · next m hi =>
      split at hstep
      · cases hstep
        -- the goroutine goes and takes one element along
        have hlt := (List.getElem?_eq_some_iff.1 hi).1
        refine ⟨by simp only; omega, ?_⟩
        simp only [List.length_eraseIdx_of_lt hlt]
        omega
      · cases hstep
    · cases hstep
  case stop =>
    split at hstep
    · next hplace =>
      split at hstep
      · cases hstep
        exact h.goto (by rw [hplace]; rfl) rfl rfl
      · cases hstep
    · cases hstep

theorem Reachable.fits (h : Reachable workers s) : Fits workers s :=
  h.invariant (fits_init workers) fun _ _ _ hfits hok hstep => fits_step hfits hok hstep

def Pool.running (s : Pool M) : Nat := s.goroutines.countP fun g => g.2 = .delivering

/-- **A claimed message starts at once.** Whatever the database returns within the size it was
asked for, however long deliveries take and in whatever order they end: at most as many
deliveries run as there are workers; where the dispatcher holds a claimed message a slot is free,
so that sending to the channel does not block; and it asks for, and holds, no more messages than
there are free slots. -/
theorem claimed_starts_at_once (workers : Int) (s : Pool M) (h : Reachable (workersOf workers) s) :
    s.running ≤ workersOf workers ∧ (∀ any m rest, s.place = .handing any (m :: rest) →
        s.slots < workersOf workers ∧ ∃ t, step (workersOf workers) s .send = some t) ∧
      (∀ any rest, s.place = .handing any rest → rest.length ≤ workersOf workers - s.slots) ∧
      ∀ limit, s.place = .claiming limit → limit.toNat ≤ workersOf workers - s.slots := by
  obtain ⟨hroom, htaken⟩ := h.fits
  refine ⟨?_, fun any m rest hplace => ?_, fun any rest hplace => ?_, fun limit hplace => ?_⟩
  · have hle : s.running ≤ s.goroutines.length := List.countP_le_length
    omega
  · rw [hplace] at hroom
    have hfree : s.slots < workersOf workers := by
      simp only [Place.pending, List.length_cons] at hroom
      omega
    exact ⟨hfree, _, by simp only [step, hplace]; rw [if_pos hfree]⟩
  · rw [hplace] at hroom
    simp only [Place.pending] at hroom
    omega
  rw [hplace] at hroom
  simp only [Place.pending] at hroom
  omega

/-- Two workers have one delivery under way and the dispatcher hands out a second message. -/
theorem second_of_two :
    ∃ s : Pool Nat, Reachable (workersOf 2) s ∧ s.running = 1 ∧ s.place = .handing true [8] ∧
      ∃ t, step (workersOf 2) s .send = some t := by
  have hrun : ∃ s : Pool Nat, runActions (step (workersOf 2)) {}
      [.run, .sample, .claim (some [7, 8]), .send, .launch, .begin 0] = some s ∧ s.running = 1 ∧
        s.place = .handing true [8] := ⟨_, rfl, rfl, rfl⟩
  obtain ⟨s, hs, hrunning, hplace⟩ := hrun
  have hreach : Reachable (workersOf 2) s := reach_of_runActions _ (by decide) hs
  exact ⟨s, hreach, hrunning, hplace, ((claimed_starts_at_once 2 s hreach).2.1 _ _ _ hplace).2⟩

end SmtpProxy.Queue.Dispatch
