import Mathlib.Data.List.Find
import SmtpProxy.Smtpsrv.Rewrite
import SmtpProxy.Smtpsrv.Safety

/-!
# Which `From` fields leave the proxy

The session checks one `From`: the first value `net/textproto` has under the
canonical name. The recipient reads all of them. A second `From` field, or one
with white space before its colon, is passed on unchecked when the message is
accepted as it is (`second_from_passes`), and is replaced along with the first
when it is rewritten. `from_guard_iff` says when no unauthorised `From` leaves.

What a field that leaves carries is read as the recipient reads it, by the address
list of `net/mail` (`carried`), and not by `ParseHeaderFrom`, which parses the
address of the list once more and may come to another.
-/

namespace SmtpProxy.Smtpsrv

open Lib Textproto Policy List Option

/-! ## The checked field -/

/-- The field is named `From`, with nothing between the name and the colon. -/
def exactFrom (f : Field) : Bool :=
  (beforeColon f.line).map (List.map asciiLower) = some (ascii "from")

def checkedField (raw : Bytes) : Option Field := (fields raw).find? exactFrom

theorem from_validName : ValidName (ascii "From") := ⟨by decide, by decide +kernel⟩

theorem exactFrom_iff {f : Field} (hf : f.WellFormed) (hacc : Accepted f) : exactFrom f = true ↔
      canonicalMIMEHeaderKey (key f) = canonicalMIMEHeaderKey (ascii "From") := by
  have hname : beforeColon f.line = some (key f) := by
    rw [key_eq hf hacc.colon, beforeColon, if_pos (by simpa using hacc.colon)]
  have hlower : ascii "from" = (ascii "From").map asciiLower := by decide
  rw [exactFrom, hname, map_some, decide_eq_true_eq, Option.some.injEq, hlower]
  refine ⟨fun h => (canonical_of_lower from_validName h).2, fun h => ?_⟩
  rw [← canonical_lower, h, canonical_lower]

/-- **What `Get` returns is the value of the first field named exactly `From`.** -/
theorem get_from {g : GoText} {raw : Bytes} {m : Message} (h : parseMessage g raw = .ok m) :
    m.get (ascii "From") = ((checkedField raw).map Textproto.value).getD [] := by
  obtain ⟨hblock, hread⟩ := parseMessage_ok h
  obtain ⟨-, hheader, hacc⟩ := readMIMEHeader_ok hread
  have hfields : fields m.block = fields raw := by rw [fields, hblock, fields]
  rw [hfields] at hheader hacc
  have hfind : (fields raw).find? ((fun e : Bytes × Bytes => decide (e.1 = canonicalMIMEHeaderKey
      (ascii "From"))) ∘ fun f => (canonicalMIMEHeaderKey (key f), Textproto.value f))
      = checkedField raw := by
    refine find?_congr fun f hf => ?_
    rw [Bool.eq_iff_iff, exactFrom_iff (fields_clean hf).wellFormed (hacc f hf)]
    simp
  rw [Message.get, Textproto.get, hheader, find?_map, hfind]
  cases checkedField raw <;> rfl

variable (g : GoText)

/-- The address the policy is enforced against is the one `ParseHeaderFrom` finds in the checked
field. -/
theorem checkedFrom_field {raw : Bytes} {m : Message} {a : Address}
    (h : parseMessage g raw = .ok m) (hfrom : checkedFrom g m = .ok a) (hne : a.isEmpty = false) :
    ∃ f, checkedField raw = some f ∧ parseHeaderFrom g (Textproto.value f) = .ok a := by
  unfold checkedFrom at hfrom
  rw [get_from h] at hfrom
  cases hf : checkedField raw with
  | none =>
    -- no such field: the value is empty, and so is the address
    rw [hf] at hfrom
    have hnone : parseHeaderFrom g [] = .error ⟨.sentinel errNoAddress, []⟩ := rfl
    simp only [map_none, getD_none, hnone] at hfrom
    rw [if_pos (by decide)] at hfrom
    rw [← Except.ok.inj hfrom] at hne
    exact absurd hne (by decide)
  | some f =>
  rw [hf] at hfrom
  refine ⟨f, rfl, ?_⟩
  simp only [map_some, getD_some] at hfrom
  cases hparse : parseHeaderFrom g (Textproto.value f) with
  | ok b =>
    rw [hparse] at hfrom
    exact hfrom
  | error e =>
  rw [hparse] at hfrom
  dsimp only at hfrom
  split at hfrom
  · rw [← Except.ok.inj hfrom] at hne
    exact absurd hne (by decide)
  · cases hfrom

/-! ## The fields of the result -/

variable {srv : Server} {g : GoText} {peer : Peer} {s : Session} {identity : Identity}
  {parsed : Message} {d : Decision} {headerFrom finalFrom : Address} {o : MapOrder}
  {raw stamp final : Bytes}

theorem decisionEdits_valid (e : HeaderEdit)
    (he : e ∈ s.decisionEdits srv g peer identity parsed d headerFrom stamp) :
    ValidName e.key := by
  have hvalid : ∀ k ∈ [ascii "Received", ascii "From", ascii "X-Original-From", ascii "Reply-To"],
      k ≠ [] ∧ ∀ b ∈ k, isToken b = true := by decide +kernel
  have hmem : e.key ∈ [ascii "Received", ascii "From", ascii "X-Original-From",
      ascii "Reply-To"] := by
    unfold Session.decisionEdits at he
    dsimp only at he
    split at he
    · split at he <;> simp only [cons_append, nil_append, mem_cons,
        not_mem_nil, or_false] at he <;> rcases he with rfl | rfl | rfl | rfl <;> simp
    rw [mem_singleton.1 he]
    simp
  exact ⟨(hvalid _ hmem).1, (hvalid _ hmem).2⟩

theorem applyDecision_raw
    (h : s.applyDecision srv g peer identity o parsed d headerFrom stamp = .ok (final, finalFrom)) :
    final = parsed.rewriteHeaders o
      (s.decisionEdits srv g peer identity parsed d headerFrom stamp) := by
  unfold Session.applyDecision at h
  dsimp only at h
  split at h
  · split at h
    · cases h
    · exact (Prod.mk.inj (Except.ok.inj h)).1.symm
  · exact (Prod.mk.inj (Except.ok.inj h)).1.symm

/-- The reader's view of the result, in terms of the client's message. -/
theorem fields_final (hparse : parseMessage g raw = .ok parsed)
    (h : s.applyDecision srv g peer identity o parsed d headerFrom stamp = .ok (final, finalFrom)) :
    fields final =
      ((s.decisionEdits srv g peer identity parsed d headerFrom stamp).filter (·.prepend)).map
        (fun e => writtenField e.key e.value) ++
      (fields raw).flatMap (rewriteField
        (replaceOf (s.decisionEdits srv g peer identity parsed d headerFrom stamp))) ++
      missingFields o (replaceOf (s.decisionEdits srv g peer identity parsed d headerFrom stamp))
        (fields raw) := by
  obtain ⟨hblock, hread⟩ := parseMessage_ok hparse
  obtain ⟨hlead, -⟩ := readMIMEHeader_ok hread
  have hfields : fields parsed.block = fields raw := by rw [fields, hblock, fields]
  rw [applyDecision_raw h, fields_rewriteHeaders o decisionEdits_valid hlead, hfields]

theorem received_not_from (value : Bytes) :
    (writtenField (ascii "Received") value).nameFold ≠ some (ascii "from") := by
  have hvalid : ValidName (ascii "Received") := ⟨by decide, by decide +kernel⟩
  rw [writtenField_nameFold hvalid]
  decide

/-- **An accepted message keeps its `From` fields**, checked or not. -/
theorem fieldsNamed_accepted (hparse : parseMessage g raw = .ok parsed) (hd : d.action ≠ .rewrite)
    (h : s.applyDecision srv g peer identity o parsed d headerFrom stamp = .ok (final, finalFrom)) :
    fieldsNamed (ascii "from") final = fieldsNamed (ascii "from") raw := by
  have hedits : s.decisionEdits srv g peer identity parsed d headerFrom stamp
      = [{ key := ascii "Received", value := s.receivedHeader srv peer identity stamp,
           prepend := true }] := by
    rw [Session.decisionEdits, if_neg hd]
  have hkeep : ∀ f, rewriteField [] f = [f] := by
    intro f
    rw [rewriteField, editOf]
    split <;> simp_all
  have hfields := fields_final hparse h
  have horder : o.order [] = [] := perm_nil.1 (o.perm [])
  rw [hedits] at hfields
  simp only [replaceOf, filter_cons, filter_nil, Bool.not_true, Bool.false_eq_true,
    if_false, if_true, foldl_nil, map_cons, map_nil, missingFields, horder,
    append_nil] at hfields
  rw [fieldsNamed, hfields, filter_append, filter_cons_of_neg (by
    simpa using received_not_from _), filter_nil, nil_append, fieldsNamed]
  rw [show rewriteField [] = fun f => [f] from funext hkeep, flatMap_singleton']

theorem decisionEdits_rewrite (hd : d.action = .rewrite) {e : HeaderEdit}
    (he : e ∈ s.decisionEdits srv g peer identity parsed d headerFrom stamp)
    (hkey : e.key.map asciiLower = ascii "from") :
    e.key = ascii "From" ∧ e.value = d.rewriteFrom := by
  have hother : ∀ k ∈ [ascii "Received", ascii "X-Original-From", ascii "Reply-To"],
      k.map asciiLower ≠ ascii "from" := by decide
  unfold Session.decisionEdits at he
  dsimp only at he
  rw [if_pos hd] at he
  rcases mem_append.1 he with he | he
  · simp only [mem_cons, not_mem_nil, or_false] at he
    rcases he with rfl | rfl | rfl
    · exact absurd hkey (hother _ (by simp))
    · exact ⟨rfl, rfl⟩
    · exact absurd hkey (hother _ (by simp))
  split at he
  · rw [mem_singleton.1 he] at hkey
    exact absurd hkey (hother _ (by simp))
  · cases he

theorem lookup_from (hd : d.action = .rewrite) :
    (replaceOf (s.decisionEdits srv g peer identity parsed d headerFrom stamp)).lookup
      (ascii "From") = some d.rewriteFrom := by
  have hcanon : canonicalMIMEHeaderKey (ascii "From") = ascii "From" := by decide
  have hcanon' : canonicalMIMEHeaderKey (ascii "X-Original-From") = ascii "X-Original-From" := by
    decide
  have hcanon'' : canonicalMIMEHeaderKey (ascii "Reply-To") = ascii "Reply-To" := by decide
  have hne : ascii "From" ≠ ascii "X-Original-From" := by decide
  have hne' : ascii "From" ≠ ascii "Reply-To" := by decide
  have hne'' : ascii "X-Original-From" ≠ ascii "Reply-To" := by decide
  unfold Session.decisionEdits
  dsimp only
  rw [if_pos hd]
  split <;> simp [replaceOf, setKey, hcanon, hcanon', hcanon'', hne, hne', hne'']

/-- **A rewritten message has no `From` but the mailbox's address.** -/
theorem fieldsNamed_rewritten (hparse : parseMessage g raw = .ok parsed) (hd : d.action = .rewrite)
    (h : s.applyDecision srv g peer identity o parsed d headerFrom stamp = .ok (final, finalFrom))
    {f : Field} (hf : f ∈ fieldsNamed (ascii "from") final) :
    f = writtenField (ascii "From") d.rewriteFrom := by
  obtain ⟨hmem, hname⟩ := mem_filter.1 hf
  rw [decide_eq_true_eq] at hname
  -- a field the rewriter wrote under this name can only be the replacement
  have hwritten : ∀ {k v : Bytes},
      (k, v) ∈ replaceOf (s.decisionEdits srv g peer identity parsed d headerFrom stamp) →
      f = writtenField k v → f = writtenField (ascii "From") d.rewriteFrom := by
    rintro k v hkv rfl
    obtain ⟨e, he, -, rfl, rfl⟩ := mem_replaceOf hkv
    rw [writtenField_nameFold (decisionEdits_valid e he).canonical, canonical_lower,
      Option.some.injEq] at hname
    obtain ⟨hkey, hvalue⟩ := decisionEdits_rewrite hd he hname
    rw [hkey, hvalue]
    rfl
  rw [fields_final hparse h] at hmem
  rcases mem_append.1 hmem with hmem | hmem
  · rcases mem_append.1 hmem with hmem | hmem
    · obtain ⟨e, he, rfl⟩ := List.mem_map.1 hmem
      obtain ⟨he, hpre⟩ := mem_filter.1 he
      rw [writtenField_nameFold (decisionEdits_valid e he), Option.some.injEq] at hname
      obtain ⟨hkey, hvalue⟩ := decisionEdits_rewrite hd he hname
      rw [hkey, hvalue]
    · obtain ⟨f₀, hf₀, hmem⟩ := mem_flatMap.1 hmem
      unfold rewriteField at hmem
      cases hedit : editOf (replaceOf
          (s.decisionEdits srv g peer identity parsed d headerFrom stamp)) f₀ with
      | none =>
        -- a field of that name is edited
        rw [hedit] at hmem
        obtain rfl := mem_singleton.1 hmem
        obtain ⟨hnamed, hkey⟩ := walkKey_eq from_validName
          (show f.nameFold = some ((ascii "From").map asciiLower) from hname)
        rw [editOf_named hnamed, hkey,
          show canonicalMIMEHeaderKey (ascii "From") = ascii "From" by decide, lookup_from hd] at hedit
        cases hedit
      | some v =>
      simp only [hedit] at hmem
      split at hmem
      · refine hwritten (k := walkKey f₀) (v := v) ?_ (mem_singleton.1 hmem)
        unfold editOf at hedit
        split at hedit
        · cases hedit
        · exact mem_of_lookup hedit
      · cases hmem
  · obtain ⟨e, he, heq⟩ := List.mem_map.1 hmem
    exact hwritten ((o.perm _).mem_iff.1 (mem_filter.1 he).1) heq.symm

/-! ## No unauthorised `From` -/

/-- The account may send as this address: it is that of an enabled linked
mailbox, or matches an allowed pattern. -/
def Permitted (g : GoText) (identity : Identity) (a : Bytes) : Prop :=
  (∃ mb ∈ identity.mailboxes, mb.enabled = true ∧ mb.address = a) ∨
    matchesAny g a identity.account.allowedSenders = true

/-- The one address in the address list of a `From` field, in lower case. -/
def carried (g : GoText) (f : Field) : Option Bytes :=
  match g.parseAddressList (Textproto.value f) with
  | some [one] => some (g.toLower one.address)
  | _ => none

/-- The field carries exactly one address, and the account may send as it. -/
def Authorised (g : GoText) (identity : Identity) (f : Field) : Prop :=
  ∃ a, carried g f = some a ∧ Permitted g identity a

/-- The decision on a message, if the session comes to one. -/
def Session.decisionOn (g : GoText) (s : Session) (identity : Identity) (raw : Bytes) :
    Option Decision :=
  match parseMessage g raw with
  | .error _ => none
  | .ok parsed =>
    match checkedFrom g parsed with
    | .error _ => none
    | .ok headerFrom =>
      some (resolve g ⟨identity.account, identity.mailboxes, s.envelopeFrom, headerFrom⟩)

/-- The field is the `From` the decision on the message puts in place. -/
def Replaced (g : GoText) (s : Session) (identity : Identity) (raw : Bytes) (f : Field) : Prop :=
  ∃ d, s.decisionOn g identity raw = some d ∧ d.action = .rewrite ∧
    f = writtenField (ascii "From") d.rewriteFrom

/-- The message that goes out shows no `From` the account may not use. -/
def FromsAuthorised (g : GoText) (s : Session) (raw : Bytes) (sub : Submission) : Prop :=
  ∀ f ∈ fieldsNamed (ascii "from") sub.raw,
    Authorised g sub.identity f ∨ Replaced g s sub.identity raw f

/-- The policy rewrites the message: the address it finds in the checked field is neither a
mailbox of the account nor in its allow-list. -/
def FromRewritten (g : GoText) (identity : Identity) (raw : Bytes) : Prop :=
  identity.account.policy = .rewrite ∧ ∃ f a, checkedField raw = some f ∧
    parseHeaderFrom g (Textproto.value f) = .ok a ∧ a.isEmpty = false ∧
    matchMailbox g identity.mailboxes a.normalized = none ∧
    matchesAny g a.normalized identity.account.allowedSenders = false

/-- What the client's message must be like: it is rewritten, or the account may send as every
`From` field in it, checked or not. -/
def FromsGuarded (g : GoText) (identity : Identity) (raw : Bytes) : Prop :=
  FromRewritten g identity raw ∨ ∀ f ∈ fieldsNamed (ascii "from") raw, Authorised g identity f

/-- **No unauthorised `From` leaves the proxy, exactly when every `From` field of the client's
message is authorised** — or the message is rewritten. -/
theorem from_guard_iff (srv : Server) (g : GoText) (peer : Peer) {s : Session} {c : DataCall}
    {sub : Submission} {answer : Except Err Bytes} {raw : Bytes}
    (hsub : (sub, answer) ∈ (s.data srv g peer c).submitted)
    (hread : readMessage srv c.reads = .ok raw)
    (hpol : sub.identity.account.policy = .reject ∨ sub.identity.account.policy = .rewrite) :
    FromsAuthorised g s raw sub ↔ FromsGuarded g sub.identity raw := by
  have hcourse := data_course srv g peer s c
  generalize s.data srv g peer c = r at hcourse hsub
  cases hcourse with
  | refused _ hnone => exact absurd (hnone ▸ hsub) not_mem_nil
  | @submitted identity raw' final parsed headerFrom finalFrom d hid _ hread' hparse hfrom hd hrej
      hfinal hsubmitted =>
    obtain rfl : raw' = raw := Except.ok.inj (hread'.symm.trans hread)
    rw [hsubmitted, mem_singleton] at hsub
    obtain rfl := (Prod.mk.inj hsub).1
    have hdecision : s.decisionOn g identity raw' = some d := by
      rw [Session.decisionOn, hparse]
      simp only [hfrom, hd]
    have hres := resolve_resolved g ⟨identity.account, identity.mailboxes, s.envelopeFrom, headerFrom⟩
    rw [← hd] at hres
    show (∀ f ∈ fieldsNamed (ascii "from") final,
      Authorised g identity f ∨ Replaced g s identity raw' f) ↔ FromsGuarded g identity raw'
    -- an accepted message keeps its fields, and is not one that is rewritten
    have haccept : d.action = .accept → headerFrom.isEmpty = false →
        ¬ Foreign g ⟨identity.account, identity.mailboxes, s.envelopeFrom, headerFrom⟩ →
        ((∀ f ∈ fieldsNamed (ascii "from") final,
          Authorised g identity f ∨ Replaced g s identity raw' f) ↔ FromsGuarded g identity raw') := by
      intro hact hne hforeign
      obtain ⟨f, hf, hread⟩ := checkedFrom_field g hparse hfrom hne
      have hrepl : ∀ f, ¬ Replaced g s identity raw' f := by
        rintro f ⟨d', hd', hact', -⟩
        rw [← some.inj (hdecision.symm.trans hd'), hact] at hact'
        cases hact'
      have hrewritten : ¬ FromRewritten g identity raw' := by
        rintro ⟨-, f', a, hf', ha, -, hown, hlisted⟩
        cases hf.symm.trans hf'
        cases hread.symm.trans ha
        exact hforeign ⟨hown, hlisted⟩
      rw [fieldsNamed_accepted hparse (by rw [hact]; simp) hfinal]
      simp only [hrepl, or_false, FromsGuarded, hrewritten, false_or]
    cases hres with
    | rejected hbad => simp [Decision.rejected, hbad] at hrej
    | own _ _ hne hmatch =>
      refine haccept rfl hne fun hforeign => ?_
      cases hmatch.symm.trans hforeign.1
    | listed _ _ hne hmatch =>
      refine haccept rfl hne fun hforeign => ?_
      cases hmatch.symm.trans hforeign.2
    | passed _ _ _ _ hpass =>
      exact absurd hpol (by
        show ¬ (identity.account.policy = _ ∨ identity.account.policy = _)
        rw [show identity.account.policy = .passthrough from hpass]
        simp)
    | rewritten _ _ hne hforeign hrewrite =>
    obtain ⟨f, hf, hread⟩ := checkedFrom_field g hparse hfrom hne
    refine ⟨fun _ => .inl ⟨hrewrite, f, _, hf, hread, hne, hforeign⟩, fun _ f' hf' => .inr ?_⟩
    exact ⟨_, hdecision, rfl, fieldsNamed_rewritten hparse rfl hfinal hf'⟩

def readySession : Session where
  encrypted := true
  identity := some senderIdentity
  recipients := [ascii "r@y"]

def submitted (raw : Bytes) : List (Submission × Except Err Bytes) :=
  (readySession.data smallServer bareText {} (dataOf raw)).submitted

def oneFrom : Bytes := ascii "From: a@x\r\n\r\nhi"

def twoFroms : Bytes := ascii "From: a@x\r\nFrom: evil@z\r\n\r\nhi"

/-- A message with one `From`, the account's own mailbox. -/
theorem from_guard_iff_single :
    ∃ sub answer, (sub, answer) ∈ submitted oneFrom ∧
      FromsAuthorised bareText readySession oneFrom sub := by
  have hread : readMessage smallServer (dataOf oneFrom).reads = .ok oneFrom := rfl
  have hfields : fieldsNamed (ascii "from") oneFrom = [⟨ascii "From: a@x", []⟩] := by
    decide +kernel
  obtain ⟨⟨sub, answer⟩, hmem⟩ := exists_mem_of_ne_nil _
    (show submitted oneFrom ≠ [] from isEmpty_eq_false_iff.1 (by decide +kernel))
  have hidentity : sub.identity = senderIdentity := by
    have hall : ∀ p ∈ submitted oneFrom, p.1.identity = senderIdentity := by decide +kernel
    exact hall _ hmem
  refine ⟨sub, answer, hmem, ?_⟩
  refine (from_guard_iff smallServer bareText {} hmem hread (.inl (by rw [hidentity]; rfl))).2 ?_
  rw [hidentity, FromsGuarded, hfields]
  refine .inr fun f hf => ⟨ascii "a@x", ?_, .inl ⟨_, mem_singleton_self _, rfl, by decide +kernel⟩⟩
  rw [mem_singleton.1 hf]
  decide +kernel

/-- A second `From` behind the account's own: the message is accepted as it is and
goes out with both. -/
theorem second_from_passes :
    ∃ sub answer, (sub, answer) ∈ submitted twoFroms ∧ sub.identity.account.policy = .reject ∧
      ¬ FromsAuthorised bareText readySession twoFroms sub := by
  obtain ⟨⟨sub, answer⟩, hmem⟩ := exists_mem_of_ne_nil _
    (show submitted twoFroms ≠ [] from isEmpty_eq_false_iff.1 (by decide +kernel))
  have hall : ∀ p ∈ submitted twoFroms, p.1.identity = senderIdentity ∧
      (⟨ascii "From: evil@z", []⟩ : Field) ∈ fieldsNamed (ascii "from") p.1.raw := by
    decide +kernel
  obtain ⟨hidentity, hfield⟩ := hall _ hmem
  simp only at hidentity hfield
  refine ⟨sub, answer, hmem, by rw [hidentity]; rfl, fun h => ?_⟩
  rw [FromsAuthorised, hidentity] at h
  rcases h _ hfield with ⟨a, ha, hp⟩ | ⟨d, hd, hact, -⟩
  · have hcarried : carried bareText ⟨ascii "From: evil@z", []⟩ = some (ascii "evil@z") := by
      decide +kernel
    cases hcarried.symm.trans ha
    rcases hp with ⟨mb, hmb, -, haddr⟩ | hlisted
    · rw [mem_singleton.1 hmb] at haddr
      exact absurd haddr (by decide +kernel)
    · exact absurd hlisted (by decide +kernel)
  have haccept : (readySession.decisionOn bareText senderIdentity twoFroms).map Decision.action =
      some .accept := by decide +kernel
  rw [hd, map_some, hact] at haccept
  cases haccept

end SmtpProxy.Smtpsrv
