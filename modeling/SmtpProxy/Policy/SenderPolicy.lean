import SmtpProxy.Policy.Resolve

/-!
# The sender policy as it is meant

`Permitted` states the policy without the code's order of checks: which decision,
if any, a submission is entitled to. Addresses are compared as they are
everywhere else, in lower case. `Resolve` compares a mailbox's address with the
`From` by `strings.EqualFold`, and the two differ on some letters: the long s
(U+017F) folds to s but is its own lower case. `resolve_exact` says that `Resolve`
is the policy exactly where a message that may be sent gets the same with the mailbox
folding finds as with the one lower case finds.
-/

namespace SmtpProxy.Policy

open Lib Store

variable (g : GoText)

/-- The first mailbox whose address in lower case is this one. -/
def ownMailbox (mailboxes : List Mailbox) (normalized : Bytes) : Option Mailbox :=
  mailboxes.find? fun mb => g.toLower mb.address = normalized

/-- The mailbox with this id if it is in the list, otherwise the first. -/
def preferredMailbox (mailboxes : List Mailbox) (id : Bytes) : Option Mailbox :=
  (mailboxes.find? fun mb => mb.id = id).or mailboxes.head?

structure UsesDefault (inp : Input) (mb : Mailbox) : Prop where
  noOwn : ownMailbox g inp.mailboxes inp.headerFrom.normalized = none
  preferred : preferredMailbox inp.mailboxes inp.account.defaultMailboxID = some mb
  enabled : mb.enabled = true

/-- The account may send at all, and the message says as whom. -/
structure MaySend (inp : Input) : Prop where
  enabled : inp.account.enabled = true
  mailboxes : inp.mailboxes ≠ []
  sender : inp.headerFrom.isEmpty = false

inductive Permitted (inp : Input) : Decision → Prop where
  | own {mb : Mailbox} (hmay : MaySend inp)
      (hown : ownMailbox g inp.mailboxes inp.headerFrom.normalized = some mb)
      (hen : mb.enabled = true) :
      Permitted inp (accept inp mb)
  | listed {mb : Mailbox} (hmay : MaySend inp) (hdef : UsesDefault g inp mb)
      (hlist : matchesAny g inp.headerFrom.normalized inp.account.allowedSenders = true) :
      Permitted inp (accept inp mb)
  | rewritten {mb : Mailbox} (hmay : MaySend inp) (hdef : UsesDefault g inp mb)
      (hlist : matchesAny g inp.headerFrom.normalized inp.account.allowedSenders = false)
      (hpol : inp.account.policy = .rewrite) :
      Permitted inp (rewriteAs inp mb)
  | passed {mb : Mailbox} (hmay : MaySend inp) (hdef : UsesDefault g inp mb)
      (hlist : matchesAny g inp.headerFrom.normalized inp.account.allowedSenders = false)
      (hpol : inp.account.policy = .passthrough) :
      Permitted inp (accept inp mb)

/-- The comparisons agree: folding and lower case on every address of the
account, and an absent default id is nobody's id. -/
structure ComparesAlike (inp : Input) : Prop where
  fold : ∀ mb ∈ inp.mailboxes, g.equalFold mb.address inp.headerFrom.normalized = true ↔
    g.toLower mb.address = inp.headerFrom.normalized
  ids : inp.account.defaultMailboxID = [] → ∀ mb ∈ inp.mailboxes, mb.id ≠ []

variable {inp : Input}

theorem ComparesAlike.matchMailbox_eq (h : ComparesAlike g inp) :
    matchMailbox g inp.mailboxes inp.headerFrom.normalized
      = ownMailbox g inp.mailboxes inp.headerFrom.normalized := by
  have hcongr : ∀ l : List Mailbox, (∀ mb ∈ l, mb ∈ inp.mailboxes) →
      l.find? (fun mb => g.equalFold mb.address inp.headerFrom.normalized)
        = l.find? fun mb => decide (g.toLower mb.address = inp.headerFrom.normalized) := by
    intro l
    induction l with
    | nil => exact fun _ => rfl
    | cons mb l ih =>
    intro hl
    have hmb : g.equalFold mb.address inp.headerFrom.normalized
        = decide (g.toLower mb.address = inp.headerFrom.normalized) := by
      rw [Bool.eq_iff_iff, decide_eq_true_eq]
      exact h.fold mb (hl mb (.head _))
    rw [List.find?_cons, List.find?_cons, hmb, ih fun mb' hmb' => hl mb' (.tail _ hmb')]
  exact hcongr _ fun _ hmb => hmb

theorem ComparesAlike.defaultMailbox_eq {first : Mailbox} {rest : List Mailbox}
    (h : ComparesAlike g inp) (hlist : inp.mailboxes = first :: rest) :
    preferredMailbox inp.mailboxes inp.account.defaultMailboxID
      = some (defaultMailbox first inp.mailboxes inp.account.defaultMailboxID) := by
  unfold preferredMailbox defaultMailbox
  by_cases hid : inp.account.defaultMailboxID = []
  · have hnone : (inp.mailboxes.find? fun mb => mb.id = inp.account.defaultMailboxID) = none := by
      refine List.find?_eq_none.2 fun mb hmb => ?_
      simpa [hid] using h.ids hid mb hmb
    rw [hnone, if_neg (by simpa using hid), hlist]
    rfl
  rw [if_pos hid]
  cases inp.mailboxes.find? fun mb => mb.id = inp.account.defaultMailboxID with
  | none => rw [hlist]; rfl
  | some mb => rfl

/-! ## What a message gets -/

/-- What a message gets that may be sent, if `own` is the mailbox of its `From` and `default` the
one it goes out as otherwise. -/
def granted (inp : Input) (own default : Option Mailbox) : Option Decision :=
  match own with
  | some mb => if mb.enabled then some (accept inp mb) else none
  | none =>
    (default.filter (·.enabled)).bind fun mb =>
      if matchesAny g inp.headerFrom.normalized inp.account.allowedSenders then some (accept inp mb)
      else
        match inp.account.policy with
        | .rewrite => some (rewriteAs inp mb)
        | .passthrough => some (accept inp mb)
        | _ => none

/-- What it gets by the mailboxes that `Resolve` finds. -/
def grantedByFolding (inp : Input) : Option Decision :=
  granted g inp (matchMailbox g inp.mailboxes inp.headerFrom.normalized)
    (inp.mailboxes.head?.map fun first =>
      defaultMailbox first inp.mailboxes inp.account.defaultMailboxID)

/-- What it gets by the mailboxes that the policy means. -/
def grantedByPolicy (inp : Input) : Option Decision :=
  granted g inp (ownMailbox g inp.mailboxes inp.headerFrom.normalized)
    (preferredMailbox inp.mailboxes inp.account.defaultMailboxID)

theorem permitted_iff {d : Decision} :
    Permitted g inp d ↔ MaySend inp ∧ grantedByPolicy g inp = some d := by
  unfold grantedByPolicy granted
  constructor
  · intro hd
    cases hd with
    | own hmay hown hen => exact ⟨hmay, by simp [hown, hen]⟩
    | listed hmay hdef hmatch =>
      exact ⟨hmay, by simp [hdef.noOwn, hdef.preferred, Option.filter_some, hdef.enabled, hmatch]⟩
    | rewritten hmay hdef hmatch hpol =>
      exact ⟨hmay, by simp [hdef.noOwn, hdef.preferred, Option.filter_some, hdef.enabled, hmatch, hpol]⟩
    | passed hmay hdef hmatch hpol =>
      exact ⟨hmay, by simp [hdef.noOwn, hdef.preferred, Option.filter_some, hdef.enabled, hmatch, hpol]⟩
  rintro ⟨hmay, hgranted⟩
  cases hown : ownMailbox g inp.mailboxes inp.headerFrom.normalized with
  | some mb =>
    simp only [hown, Option.ite_none_right_eq_some, Option.some.injEq] at hgranted
    obtain ⟨hen, rfl⟩ := hgranted
    exact .own hmay hown hen
  | none =>
    simp only [hown] at hgranted
    obtain ⟨mb, hdefault, hgranted⟩ := Option.bind_eq_some_iff.1 hgranted
    obtain ⟨hpreferred, hen⟩ := Option.filter_eq_some_iff.1 hdefault
    have hdef : UsesDefault g inp mb := ⟨hown, hpreferred, hen⟩
    split at hgranted
    · next hmatch =>
      cases hgranted
      exact .listed hmay hdef hmatch
    next hmatch =>
    have hmatch := eq_false_of_ne_true hmatch
    split at hgranted
    · next hpol =>
      cases hgranted
      exact .rewritten hmay hdef hmatch hpol
    · next hpol =>
      cases hgranted
      exact .passed hmay hdef hmatch hpol
    · cases hgranted

theorem resolve_of_maySend {first : Mailbox} {rest : List Mailbox} (hmay : MaySend inp)
    (hlist : inp.mailboxes = first :: rest) :
    resolve g inp =
      match matchMailbox g inp.mailboxes inp.headerFrom.normalized with
      | some mb =>
        if !mb.enabled then mailboxDisabled mb
        else accept inp mb
      | none =>
        if matchesAny g inp.headerFrom.normalized inp.account.allowedSenders then
          let mb := defaultMailbox first inp.mailboxes inp.account.defaultMailboxID
          if !mb.enabled then mailboxDisabled mb
          else accept inp mb
        else applyFromPolicy g inp first := by
  obtain ⟨account, mailboxes, envelopeFrom, headerFrom⟩ := inp
  obtain rfl : mailboxes = first :: rest := hlist
  have hen : account.enabled = true := hmay.enabled
  have hfrom : headerFrom.isEmpty = false := hmay.sender
  rw [resolve, if_neg (by simp [hen])]
  dsimp only
  exact if_neg (by simp [hfrom])

/-- `Resolve` rejects where nothing is granted. -/
theorem granted_eq (hmay : MaySend inp) : grantedByFolding g inp =
    if (resolve g inp).rejected then none else some (resolve g inp) := by
  obtain ⟨first, rest, hlist⟩ := List.exists_cons_of_ne_nil hmay.mailboxes
  have hhead : inp.mailboxes.head? = some first := by rw [hlist]; rfl
  rw [resolve_of_maySend g hmay hlist, grantedByFolding, hhead, Option.map_some]
  cases matchMailbox g inp.mailboxes inp.headerFrom.normalized with
  | some mb =>
    cases hen : mb.enabled <;> simp [granted, hen, mailboxDisabled, reject, Decision.rejected]
  | none =>
    unfold granted applyFromPolicy
    generalize defaultMailbox first inp.mailboxes inp.account.defaultMailboxID = mb
    cases hen : mb.enabled <;>
      cases matchesAny g inp.headerFrom.normalized inp.account.allowedSenders <;>
        cases inp.account.policy <;>
          simp [Option.filter_some, hen, mailboxDisabled, reject, Decision.rejected]

theorem maySend_of_resolve (hrej : (resolve g inp).rejected = false) : MaySend inp := by
  unfold resolve at hrej
  split at hrej
  · exact absurd hrej (by decide)
  next hen =>
  split at hrej
  · exact absurd hrej (by decide)
  next first rest hlist =>
  split at hrej
  · exact absurd hrej (by decide)
  · next hfrom => exact ⟨by simpa using hen, by simp [hlist], by simpa using hfrom⟩

/-- `Resolve` as the sender policy. -/
structure IsPolicy (inp : Input) : Prop where
  /-- It decides for a message exactly what the message is entitled to. -/
  decides : ∀ d : Decision, d.rejected = false → (resolve g inp = d ↔ Permitted g inp d)
  /-- It rejects exactly the messages that are entitled to nothing. -/
  rejects : (resolve g inp).rejected = true ↔ ∀ d, ¬ Permitted g inp d
  /-- The envelope sender plays no part. -/
  envelope : ∀ sender, resolve g { inp with envelopeFrom := sender } = resolve g inp
  /-- A disabled mailbox of that address is not bypassed. -/
  disabled : ∀ mb, ownMailbox g inp.mailboxes inp.headerFrom.normalized = some mb →
    mb.enabled = false → (resolve g inp).rejected = true

theorem isPolicy_of_granted (h : MaySend inp → grantedByFolding g inp = grantedByPolicy g inp) :
    IsPolicy g inp := by
  have hdecides : ∀ d : Decision, d.rejected = false → (resolve g inp = d ↔ Permitted g inp d) := by
    intro d hd
    rw [permitted_iff]
    constructor
    · rintro rfl
      have hmay := maySend_of_resolve g hd
      rw [← h hmay, granted_eq g hmay, if_neg (by simp [hd])]
      exact ⟨hmay, rfl⟩
    · rintro ⟨hmay, hgranted⟩
      rw [← h hmay, granted_eq g hmay] at hgranted
      split at hgranted
      · cases hgranted
      · exact Option.some.inj hgranted
  have hrejects : (resolve g inp).rejected = true ↔ ∀ d, ¬ Permitted g inp d := by
    constructor
    · intro hrej d hd
      have hok : d.rejected = false := by cases hd <;> rfl
      rw [(hdecides d hok).2 hd, hok] at hrej
      cases hrej
    intro hnone
    by_contra hrej
    exact hnone _ ((hdecides _ (eq_false_of_ne_true hrej)).1 rfl)
  refine ⟨hdecides, hrejects, fun _ => rfl, fun mb hown hdis => hrejects.2 fun d hd => ?_⟩
  have hgranted := ((permitted_iff g).1 hd).2
  simp [grantedByPolicy, granted, hown, hdis] at hgranted

theorem IsPolicy.granted (h : IsPolicy g inp) (hmay : MaySend inp) :
    grantedByFolding g inp = grantedByPolicy g inp := by
  rw [granted_eq g hmay]
  split
  · next hrej =>
    refine (Option.eq_none_iff_forall_ne_some.2 fun d hd => ?_).symm
    exact h.rejects.1 hrej d ((permitted_iff g).2 ⟨hmay, hd⟩)
  · next hok =>
    have hpermitted := (h.decides _ (eq_false_of_ne_true hok)).1 rfl
    exact ((permitted_iff g).1 hpermitted).2.symm

theorem ComparesAlike.granted (h : ComparesAlike g inp) (hmay : MaySend inp) :
    grantedByFolding g inp = grantedByPolicy g inp := by
  obtain ⟨first, rest, hlist⟩ := List.exists_cons_of_ne_nil hmay.mailboxes
  have hhead : inp.mailboxes.head? = some first := by rw [hlist]; rfl
  rw [grantedByFolding, grantedByPolicy, h.matchMailbox_eq, h.defaultMailbox_eq g hlist, hhead]
  rfl

/-- **`Resolve` is the sender policy exactly where folding finds what lower case finds**, or
something the message gets the same with; and so wherever the comparisons agree. -/
theorem resolve_exact (inp : Input) :
    (IsPolicy g inp ↔ (MaySend inp → grantedByFolding g inp = grantedByPolicy g inp)) ∧
      (ComparesAlike g inp → IsPolicy g inp) :=
  ⟨⟨fun h => h.granted g, isPolicy_of_granted g⟩, fun h => isPolicy_of_granted g (h.granted g)⟩

/-! ## Samples -/

/-- ASCII letters and the long s: it folds to s, but has no lower case of its own. -/
def foldLongS : Bytes → Bytes
  | 0xc5 :: 0xbf :: s => 115 :: foldLongS s
  | b :: s => asciiLower b :: foldLongS s
  | [] => []

def longSText : GoText := { bareText with equalFold := fun a b => foldLongS a = foldLongS b }

/-- An account with the one mailbox s@x that may not send as anybody else. -/
def sales : Input :=
  { account := { id := ascii "a1", username := ascii "printer" }
    mailboxes := [{ id := ascii "m1", address := ascii "s@x", oauthCredentialID := ascii "c1" }]
    envelopeFrom := {}
    headerFrom := { original := ascii "S@x", normalized := ascii "s@x", domain := ascii "x" } }

theorem sales_exact : ComparesAlike longSText sales ∧ IsPolicy longSText sales := by
  have halike : ComparesAlike longSText sales := ⟨by decide, by decide⟩
  exact ⟨halike, (resolve_exact longSText sales).2 halike⟩

def longSFrom : Address :=
  { original := [0xc5, 0xbf] ++ ascii "@x", normalized := [0xc5, 0xbf] ++ ascii "@x",
    domain := ascii "x" }

-- a mailbox that folds alike is not looked at behind the right one
example : let inp := { sales with
      mailboxes := sales.mailboxes.map ({ · with address := longSFrom.original }) ++ sales.mailboxes
      headerFrom := longSFrom }
    grantedByFolding longSText inp = grantedByPolicy longSText inp := by decide

/-- It is taken for the account's own mailbox s@x, though the account may not send
as it. -/
theorem longS_accepted : parseAddress longSText ([0xc5, 0xbf] ++ ascii "@x") = .ok longSFrom ∧
    (resolve longSText { sales with headerFrom := longSFrom }).rejected = false ∧
    ∀ d, ¬ Permitted longSText { sales with headerFrom := longSFrom } d := by
  refine ⟨rfl, by decide, fun d hd => ?_⟩
  have hnone : ownMailbox longSText sales.mailboxes longSFrom.normalized = none := by decide
  have hlist : matchesAny longSText longSFrom.normalized sales.account.allowedSenders = false := by
    decide
  cases hd with
  | own _ hown => cases hnone.symm.trans hown
  | listed _ _ hmatch => cases hlist.symm.trans hmatch
  | rewritten _ _ _ hpol => exact absurd hpol (by decide)
  | passed _ _ _ hpol => exact absurd hpol (by decide)

end SmtpProxy.Policy
