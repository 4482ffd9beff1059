import SmtpProxy.Lib.Net
import SmtpProxy.Policy.Resolve

/-!
# Where an account may connect from

`CheckSourceAddress` and `AccountFromStore` of `internal/policy/resolve.go`.

The loop stops at the first network that contains the address and at the first
entry that cannot be read, whichever comes first. So the verdict depends on the
order of the list where it has entries of both kinds, and only there
(`source_rule_iff`). `net.ParseCIDR` and the text of an address are parameters.
-/

namespace SmtpProxy.Policy

open Lib Store

variable (n : NetText) (g : GoText)

/-- The loop of `CheckSourceAddress` over the account's networks. -/
def checkNetworks (account : Account) (ip : IP) : List Bytes → Option Err
  | [] =>
    some (.new (ascii "policy: account " ++ account.username ++
      ascii " is not allowed to connect from " ++ n.ipString ip))
  | raw :: rest =>
    match n.parseCIDR raw with
    -- a network that cannot be read does not widen the access
    | none =>
      some (.new (ascii "policy: account " ++ account.username ++
        ascii " has an invalid allowed network " ++ g.quote raw ++
        ascii ": invalid CIDR address: " ++ raw))
    | some network => if network.contains ip then none else checkNetworks account ip rest

/-- `CheckSourceAddress`; `none` is a nil error. -/
def checkSourceAddress (account : Account) (ip : IP) : Option Err :=
  if account.allowCIDRs = [] then none
  else if ip = [] then
    some (.new (ascii "policy: account " ++ account.username ++
      ascii " restricts source addresses, but the client address is unknown"))
  else checkNetworks n g account ip account.allowCIDRs

def accountFromStore (a : SMTPAccount) (allowed : List AllowedSender) : Account where
  id := a.id
  username := a.username
  enabled := a.enabled
  policy := a.fromPolicy
  defaultMailboxID := a.defaultMailboxID.getD []
  allowedSenders := allowed.map (·.pattern)
  allowCIDRs := a.allowCIDRs

/-! ## The order of the list -/

def Malformed (raw : Bytes) : Prop := n.parseCIDR raw = none

/-- The text is a network with this address in it. -/
def Covers (raw : Bytes) (ip : IP) : Prop :=
  ∃ network, n.parseCIDR raw = some network ∧ network.contains ip = true

theorem Covers.not_malformed {n : NetText} {raw : Bytes} {ip : IP} (h : Covers n raw ip) :
    ¬ Malformed n raw := by
  obtain ⟨network, hparse, -⟩ := h
  intro hbad
  rw [Malformed, hparse] at hbad
  cases hbad

variable {account : Account}

/-- The loop accepts where a network with the address comes before every entry
that cannot be read. -/
theorem checkNetworks_none_iff {ip : IP} (cidrs : List Bytes) :
    checkNetworks n g account ip cidrs = none ↔
      ∃ before raw after, cidrs = before ++ raw :: after ∧ Covers n raw ip ∧
        ∀ r ∈ before, ¬ Malformed n r := by
  induction cidrs with
  | nil => simp [checkNetworks]
  | cons raw rest ih =>
  rw [checkNetworks]
  split
  · next hbad =>
    refine ⟨by simp, ?_⟩
    rintro ⟨_ | ⟨r, before⟩, raw', after, hsplit, hcovers, hbefore⟩
    · obtain ⟨rfl, -⟩ := List.cons.inj hsplit
      exact absurd hbad hcovers.not_malformed
    obtain ⟨rfl, -⟩ := List.cons.inj hsplit
    exact absurd hbad (hbefore raw (.head _))
  next network hparse =>
  have hgood : ¬ Malformed n raw := by simp [Malformed, hparse]
  split
  · next hin =>
    exact ⟨fun _ => ⟨[], raw, rest, rfl, ⟨network, hparse, hin⟩, by simp⟩, fun _ => rfl⟩
  next hout =>
  rw [ih]
  constructor
  · rintro ⟨before, raw', after, rfl, hcovers, hbefore⟩
    refine ⟨raw :: before, raw', after, rfl, hcovers, ?_⟩
    intro r hr
    obtain rfl | hr := List.mem_cons.1 hr
    · exact hgood
    · exact hbefore r hr
  rintro ⟨_ | ⟨r, before⟩, raw', after, hsplit, hcovers, hbefore⟩
  · obtain ⟨rfl, -⟩ := List.cons.inj hsplit
    obtain ⟨network', hparse', hin⟩ := hcovers
    rw [hparse] at hparse'
    exact absurd (Option.some.inj hparse' ▸ hin) hout
  obtain ⟨rfl, rfl⟩ := List.cons.inj hsplit
  exact ⟨before, raw', after, rfl, hcovers, fun r hr => hbefore r (.tail _ hr)⟩

theorem exists_covers_of_accepted {ip : IP} (h : checkSourceAddress n g account ip = none) :
    account.allowCIDRs = [] ∨ (ip ≠ [] ∧ ∃ raw ∈ account.allowCIDRs, Covers n raw ip) := by
  unfold checkSourceAddress at h
  split at h
  · next hempty => exact .inl hempty
  split at h
  · cases h
  next hip =>
  obtain ⟨before, raw, after, hsplit, hcovers, -⟩ := (checkNetworks_none_iff n g _).1 h
  exact .inr ⟨hip, raw, by simp [hsplit], hcovers⟩

theorem accepted_iff_of_wellFormed {ip : IP}
    (hgood : ∀ raw ∈ account.allowCIDRs, ¬ Malformed n raw) :
    checkSourceAddress n g account ip = none ↔
      account.allowCIDRs = [] ∨ (ip ≠ [] ∧ ∃ raw ∈ account.allowCIDRs, Covers n raw ip) := by
  refine ⟨exists_covers_of_accepted n g, ?_⟩
  rintro (hempty | ⟨hip, raw, hraw, hcovers⟩)
  · rw [checkSourceAddress, if_pos hempty]
  have hne : account.allowCIDRs ≠ [] := List.ne_nil_of_mem hraw
  rw [checkSourceAddress, if_neg hne, if_neg hip, checkNetworks_none_iff]
  obtain ⟨before, after, hsplit⟩ := List.append_of_mem hraw
  exact ⟨before, raw, after, hsplit, hcovers, fun r hr => hgood r (by simp [hsplit, hr])⟩

/-- How source restrictions are meant. The verdict is the same for every order of
the list, only a listed network lets an address in, and an entry that cannot be
read refuses every address. -/
structure SourceRule (account : Account) (ip : IP) : Prop where
  anyOrder : ∀ cidrs, cidrs.Perm account.allowCIDRs →
    ((checkSourceAddress n g { account with allowCIDRs := cidrs } ip = none) ↔
      checkSourceAddress n g account ip = none)
  onlyListed : checkSourceAddress n g account ip = none →
    account.allowCIDRs = [] ∨ (ip ≠ [] ∧ ∃ raw ∈ account.allowCIDRs, Covers n raw ip)
  malformedRefused : (∃ raw ∈ account.allowCIDRs, Malformed n raw) →
    checkSourceAddress n g account ip ≠ none

/-- **Source restrictions are as they are meant exactly where no network with the
address is listed together with an entry that cannot be read.** -/
theorem source_rule_iff (account : Account) (ip : IP) : SourceRule n g account ip ↔
      ¬ (ip ≠ [] ∧ (∃ raw ∈ account.allowCIDRs, Malformed n raw) ∧
        ∃ raw ∈ account.allowCIDRs, Covers n raw ip) := by
  constructor
  · -- with the network in front, the address is accepted in spite of the entry
    rintro hrule ⟨hip, hbad, raw, hraw, hcovers⟩
    have hperm := List.perm_cons_erase hraw
    have hfront : checkSourceAddress n g
        { account with allowCIDRs := raw :: account.allowCIDRs.erase raw } ip = none := by
      rw [checkSourceAddress, if_neg (List.cons_ne_nil _ _), if_neg hip, checkNetworks_none_iff]
      exact ⟨[], raw, _, rfl, hcovers, by simp⟩
    exact hrule.malformedRefused hbad ((hrule.anyOrder _ hperm.symm).1 hfront)
  intro hclear
  have hrefused : (∃ raw ∈ account.allowCIDRs, Malformed n raw) →
      ∀ cidrs, cidrs.Perm account.allowCIDRs →
        checkSourceAddress n g { account with allowCIDRs := cidrs } ip ≠ none := by
    rintro ⟨bad, hbad, hmal⟩ cidrs hperm hok
    obtain hempty | ⟨hip, raw, hraw, hcovers⟩ := exists_covers_of_accepted n g hok
    · exact absurd (hperm.mem_iff.2 hbad) (by simp [show cidrs = [] from hempty])
    · exact hclear ⟨hip, ⟨bad, hbad, hmal⟩, raw, hperm.mem_iff.1 hraw, hcovers⟩
  refine ⟨?_, exists_covers_of_accepted n g, fun hbad => hrefused hbad _ (List.Perm.refl _)⟩
  intro cidrs hperm
  by_cases hbad : ∃ raw ∈ account.allowCIDRs, Malformed n raw
  · exact iff_of_false (hrefused hbad cidrs hperm) (hrefused hbad _ (List.Perm.refl _))
  have hgood : ∀ raw ∈ account.allowCIDRs, ¬ Malformed n raw := by
    intro raw hraw hmal
    exact hbad ⟨raw, hraw, hmal⟩
  have hgood' : ∀ raw ∈ cidrs, ¬ Malformed n raw :=
    fun raw hraw => hgood raw (hperm.mem_iff.1 hraw)
  have hother : checkSourceAddress n g { account with allowCIDRs := cidrs } ip = none ↔
      cidrs = [] ∨ (ip ≠ [] ∧ ∃ raw ∈ cidrs, Covers n raw ip) :=
    accepted_iff_of_wellFormed n g hgood'
  rw [hother, accepted_iff_of_wellFormed n g hgood]
  -- only which entries are listed is left
  have hnil : cidrs = [] ↔ account.allowCIDRs = [] := by
    rw [← List.length_eq_zero_iff, hperm.length_eq, List.length_eq_zero_iff]
  simp only [hnil, hperm.mem_iff]

def oneNetwork : NetText :=
  { dottedText with
    parseCIDR := fun raw =>
      if raw = ascii "10.0.0.0/8" then some ⟨[10, 0, 0, 0], [255, 0, 0, 0]⟩ else none }

/-- An account that may connect from the office network, written in two ways. -/
def officeAccount (cidrs : List Bytes) : Account :=
  { id := ascii "a1", username := ascii "printer", allowCIDRs := cidrs }

/-- Swapping the two entries turns the refusal into an acceptance, and the entry
that cannot be read is then never looked at. -/
theorem swapped_entries_accept : (checkSourceAddress oneNetwork bareText
      (officeAccount [ascii "everywhere", ascii "10.0.0.0/8"]) [10, 1, 2, 3]).isSome = true ∧
    checkSourceAddress oneNetwork bareText
      (officeAccount [ascii "10.0.0.0/8", ascii "everywhere"]) [10, 1, 2, 3] = none ∧
    Malformed oneNetwork (ascii "everywhere") := by
  exact ⟨by decide, by decide, rfl⟩

end SmtpProxy.Policy
