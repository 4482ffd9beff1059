import SmtpProxy.Policy.Canonical

/-!
# What an allow-list entry matches

`ValidatePattern` parses an entry, `MatchesPattern` compares its text in lower
case. An entry is one domain or one address at most. It is one at least exactly
where an address that can be written has its text for a normal form, or its domain
(`Means`); a plain address is one, `*` counting as a local part. The parser also takes
entries no address is ever equal to, such as the null path.
-/

namespace SmtpProxy.Policy

open Lib Utf8

variable {g : GoText} {lib : NetMail.Tables}

/-- The text an entry is compared as. -/
def comparedAs (g : GoText) (pattern : Bytes) : Bytes := g.toLower (trimSpace pattern)

variable {pattern : Bytes}

theorem validatePattern_ok (h : validatePattern g pattern = .ok ()) :
    (∃ d, trimSpace pattern = 42 :: 64 :: d ∧ 64 ∉ d) ∨ 42 ∉ trimSpace pattern := by
  unfold validatePattern at h
  dsimp only at h
  split at h
  · cases h
  split at h
  · cases h
  split at h
  · next hstar =>
    obtain ⟨d, hd⟩ := List.isPrefixOf_iff_prefix.1 hstar
    left
    refine ⟨d, hd.symm, fun hmem => ?_⟩
    split at h
    · cases h
    next hclean =>
    rw [not_or] at hclean
    apply hclean.2
    refine List.any_eq_true.2 ⟨64, ?_, by decide⟩
    rw [← hd]
    exact hmem
  split at h
  · cases h
  · next hstar => exact .inr (by simpa using hstar)

theorem matchesPattern_domain {normalized d : Bytes} (h : comparedAs g pattern = 42 :: 64 :: d) :
    matchesPattern g normalized pattern = true ↔
      d ≠ [] ∧ 64 ∈ normalized ∧ domainPart normalized = d := by
  unfold matchesPattern
  dsimp only
  rw [show g.toLower (trimSpace pattern) = 42 :: 64 :: d from h]
  by_cases hn : normalized = []
  · simp [hn]
  rw [if_neg (by simpa using hn), if_pos (show (ascii "*@").isPrefixOf (42 :: 64 :: d) = true from rfl)]
  have hmem : 0 ≤ lastIndexByte 64 normalized ↔ 64 ∈ normalized := by
    constructor
    · intro h0
      by_contra hnot
      rw [lastIndexByte, if_neg (by simpa using hnot)] at h0
      exact absurd h0 (by decide)
    intro hin
    obtain ⟨x, y, hxy, hy⟩ := exists_last_append hin
    rw [hxy, lastIndexByte_append hy]
    omega
  rw [show (42 :: 64 :: d).drop 2 = d from rfl, ← hmem]
  by_cases hd : d = []
  · simp [hd]
  rw [if_neg hd]
  simp [hd, domainPart]

theorem matchesPattern_exact {normalized : Bytes} (h : 42 ∉ comparedAs g pattern) :
    matchesPattern g normalized pattern = true ↔
      comparedAs g pattern ≠ [] ∧ normalized = comparedAs g pattern := by
  unfold matchesPattern
  dsimp only
  rw [show g.toLower (trimSpace pattern) = comparedAs g pattern from rfl]
  have hstar : ¬ (ascii "*@").isPrefixOf (comparedAs g pattern) = true := by
    intro hp
    exact h ((List.isPrefixOf_iff_prefix.1 hp).subset (by decide))
  by_cases hne : comparedAs g pattern = []
  · simp [hne]
  by_cases hn : normalized = []
  · subst hn
    simp only [or_true, if_true, Bool.false_eq_true, false_iff, not_and]
    exact fun _ => Ne.symm hne
  rw [if_neg (by simp [hne, hn]), if_neg hstar]
  simp [hne]

/-- What an entry says of an address: it has this domain, or it is this address. -/
def Means (g : GoText) (pattern o : Bytes) : Prop :=
  (∃ d, d ≠ [] ∧ comparedAs g pattern = ascii "*@" ++ d ∧ domainPart (g.toLower o) = d) ∨
    (42 ∉ comparedAs g pattern ∧ g.toLower o = comparedAs g pattern)

theorem parsed_of_matches {raw : Bytes} {a : Address}
    (ha : parseAddress (g.withMail lib) raw = .ok a)
    (hmatch : matchesPattern (g.withMail lib) a.normalized pattern = true) :
    Parsed g lib raw a := by
  refine parseAddress_ok ha ?_
  unfold Address.isEmpty
  by_contra hempty
  have hnil : a.normalized = [] := by simpa using hempty
  unfold matchesPattern at hmatch
  dsimp only at hmatch
  rw [if_pos (.inr hnil)] at hmatch
  cases hmatch

section

variable (hlow : Lowers g.toLower)
include hlow

theorem compared_kinds {pattern : Bytes} (h : validatePattern (g.withMail lib) pattern = .ok ()) :
    (∃ d, trimSpace pattern = 42 :: 64 :: d ∧ comparedAs g pattern = 42 :: 64 :: g.toLower d ∧
      64 ∉ g.toLower d) ∨ 42 ∉ comparedAs g pattern := by
  obtain ⟨d, hd, hclean⟩ | hstar := validatePattern_ok h
  · left
    refine ⟨d, hd, ?_, fun hmem => hclean (hlow.letters _ _ (by decide) (by decide) hmem)⟩
    have hstep := hlow.split [] 42 (64 :: d) (by decide)
    have hstep' := hlow.split [] 64 d (by decide)
    rw [hlow.nil] at hstep hstep'
    rw [comparedAs, hd]
    exact hstep.trans (congrArg (asciiLower 42 :: ·) hstep')
  · exact .inr fun hmem => hstar (hlow.letters _ _ (by decide) (by decide) hmem)

theorem mem_at_toLower {o : Bytes} (h : TwoParts o) : 64 ∈ g.toLower o := by
  obtain ⟨x, y, rfl, -⟩ := h
  rw [hlow.split x 64 y (by decide)]
  exact List.mem_append_right _ (.head _)

theorem matchesPattern_iff {pattern o : Bytes}
    (h : validatePattern (g.withMail lib) pattern = .ok ()) (ho : TwoParts o) :
    matchesPattern (g.withMail lib) (g.toLower o) pattern = true ↔ Means g pattern o := by
  have hat := mem_at_toLower hlow ho
  obtain ⟨d, -, hd, -⟩ | hstar := compared_kinds hlow h
  · rw [matchesPattern_domain (g := g.withMail lib) hd]
    constructor
    · exact fun ⟨hne, _, hdomain⟩ => .inl ⟨_, hne, hd, hdomain⟩
    rintro (⟨d', hne, hd', hdomain⟩ | ⟨hstar, -⟩)
    · have hsame : ascii "*@" ++ g.toLower d = ascii "*@" ++ d' := hd.symm.trans hd'
      obtain rfl := List.append_cancel_left hsame
      exact ⟨hne, hat, hdomain⟩
    · exact absurd (hd ▸ .head _) hstar
  · rw [matchesPattern_exact (g := g.withMail lib) hstar]
    constructor
    · exact fun ⟨_, hsame⟩ => .inr ⟨hstar, hsame⟩
    rintro (⟨d', -, hd', -⟩ | ⟨-, hsame⟩)
    · exact absurd (hd' ▸ .head _) hstar
    · exact ⟨List.ne_nil_of_mem (hsame ▸ hat), hsame⟩

theorem Parsed.domain_eq {raw : Bytes} {a : Address} (h : Parsed g lib raw a) :
    a.domain = domainPart a.normalized := by
  obtain ⟨x, y, hxy, hy, -, -⟩ := h.parts
  have hnormal : a.normalized = g.toLower x ++ 64 :: g.toLower y := by
    rw [h.read]
    show g.toLower a.original = _
    rw [hxy, hlow.split x 64 y (by decide)]
    rfl
  have hdomain : a.domain = g.toLower y := by
    rw [h.read]
    show g.toLower (domainPart a.original) = _
    rw [hxy, domainPart_append hy]
  rw [hdomain, hnormal,
    domainPart_append fun hmem => hy (hlow.letters _ _ (by decide) (by decide) hmem)]

/-- An entry matches something exactly where it means an address that can be written. -/
theorem matches_some_iff {pattern : Bytes} (h : validatePattern (g.withMail lib) pattern = .ok ()) :
    (∃ raw a, parseAddress (g.withMail lib) raw = .ok a ∧
      matchesPattern (g.withMail lib) a.normalized pattern = true) ↔
    ∃ o, Written lib o ∧ Means g pattern o := by
  constructor
  · rintro ⟨raw, a, ha, hmatch⟩
    have hparsed := parsed_of_matches ha hmatch
    rw [hparsed.read] at hmatch
    exact ⟨a.original, hparsed.written, (matchesPattern_iff hlow h hparsed.parts).1 hmatch⟩
  · rintro ⟨o, hwritten, hmeans⟩
    have hparts : TwoParts o := by
      obtain ⟨t, s, hdirect, -⟩ := hwritten
      exact twoParts_of_direct hdirect
    obtain ⟨raw, a, ha, hnormal⟩ := hwritten.parseAddress (g := g)
    exact ⟨raw, a, ha, hnormal ▸ (matchesPattern_iff hlow h hparts).2 hmeans⟩

omit hlow in
theorem Standing.written {s : Bytes} (h : Standing g lib s) : Written lib s :=
  (parseAddress_ok h.parseAddress h.isEmpty_read).written

/-- **An accepted entry is at most one domain or one address, and at least one exactly where
it means an address that can be written**, as it does where its text is a plain address. -/
theorem entry_means {pattern : Bytes} (h : validatePattern (g.withMail lib) pattern = .ok ()) :
    ((∃ raw a, parseAddress (g.withMail lib) raw = .ok a ∧
      matchesPattern (g.withMail lib) a.normalized pattern = true) ↔
        ∃ o, Written lib o ∧ Means g pattern o) ∧
    (Standing g lib (comparedAs g pattern) → ∃ o, Written lib o ∧ Means g pattern o) ∧
    ∀ raw raw' a a', parseAddress (g.withMail lib) raw = .ok a →
      parseAddress (g.withMail lib) raw' = .ok a' →
      matchesPattern (g.withMail lib) a.normalized pattern = true →
      matchesPattern (g.withMail lib) a'.normalized pattern = true →
      a.domain = a'.domain ∧
        (a.normalized = a'.normalized ∨ ∃ d, trimSpace pattern = ascii "*@" ++ d) := by
  have hkinds := compared_kinds hlow h
  refine ⟨matches_some_iff hlow h, fun hstanding => ⟨_, hstanding.written, ?_⟩, ?_⟩
  · obtain ⟨d, -, hd, hclean⟩ | hstar := hkinds
    · have hpart : domainPart (42 :: 64 :: g.toLower d) = g.toLower d :=
        domainPart_append (x := [42]) hclean
      refine .inl ⟨g.toLower d, ?_, hd, by rw [hstanding.lower, hd, hpart]⟩
      obtain ⟨x, y, hxy, hy, -, hne⟩ := twoParts_of_addrSpec hstanding.spec
      rw [hd] at hxy
      rw [← hpart, hxy, domainPart_append hy]
      exact hne
    · exact .inr ⟨hstar, hstanding.lower⟩
  intro raw raw' a a' ha ha' hmatch hmatch'
  have hdomain := (parsed_of_matches ha hmatch).domain_eq hlow
  have hdomain' := (parsed_of_matches ha' hmatch').domain_eq hlow
  obtain ⟨d, hd, hcompared, -⟩ | hstar := hkinds
  · have hsame := ((matchesPattern_domain (g := g.withMail lib) hcompared).1 hmatch).2.2
    have hsame' := ((matchesPattern_domain (g := g.withMail lib) hcompared).1 hmatch').2.2
    exact ⟨by rw [hdomain, hdomain', hsame, hsame'], .inr ⟨d, hd⟩⟩
  have hsame := ((matchesPattern_exact (g := g.withMail lib) hstar).1 hmatch).2
  have hsame' := ((matchesPattern_exact (g := g.withMail lib) hstar).1 hmatch').2
  have hnormal : a.normalized = a'.normalized := hsame.trans hsame'.symm
  exact ⟨by rw [hdomain, hdomain', hnormal], .inl hnormal⟩

end

/-- The entry `"a b"@x` is alive: what it says is what a quoted local part stands for. -/
theorem quotedEntry_means : validatePattern mailText (ascii "\"a b\"@x") = .ok () ∧
    ∃ raw a, parseAddress mailText raw = .ok a ∧
      matchesPattern mailText a.normalized (ascii "\"a b\"@x") = true := by
  have hvalid : validatePattern mailText (ascii "\"a b\"@x") = .ok () := by decide +kernel
  have hparse : parseAddress mailText (ascii "\"\\\"a b\\\"\"@x") =
      .ok { original := ascii "\"a b\"@x", normalized := ascii "\"a b\"@x", domain := ascii "x" } := by
    decide +kernel
  have hwritten : Written NetMail.bareTables (ascii "\"a b\"@x") := (parseAddress_ok hparse rfl).written
  exact ⟨hvalid, (entry_means bareText_lowers hvalid).1.2
    ⟨_, hwritten, .inr ⟨by decide +kernel, by decide +kernel⟩⟩⟩

/-- The null path is accepted, and no address is ever equal to it. -/
theorem nullPath_matches_nothing : validatePattern mailText (ascii "<>") = .ok () ∧
    ∀ raw a, parseAddress mailText raw = .ok a →
      matchesPattern mailText a.normalized (ascii "<>") = false := by
  refine ⟨by decide +kernel, fun raw a ha => ?_⟩
  by_contra hmatch
  have hmatch : matchesPattern mailText a.normalized (ascii "<>") = true := by simpa using hmatch
  have hnormal : a.normalized = ascii "<>" :=
    ((matchesPattern_exact (g := mailText) (by decide +kernel)).1 hmatch).2.trans (by decide +kernel)
  have hparsed := parsed_of_matches (g := bareText) ha hmatch
  have hat : 64 ∈ a.normalized := by
    rw [hparsed.read]
    exact mem_at_toLower bareText_lowers hparsed.parts
  rw [hnormal] at hat
  exact absurd hat (by decide)

end SmtpProxy.Policy
