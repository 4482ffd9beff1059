import SmtpProxy.Errors

/-!
# Redacting what the token endpoint said

`redactToken` of `internal/oauth/provider.go` cuts an error text off in front of a
marker of token material. It looks for the markers one after the other and cuts at the
first one that occurs at all. Where another marker stands further in front, that one and
what follows it stay in the text (`refresh_token_revealed`).

`redaction_iff` says when the cut is right: exactly if the marker found is also the one
that occurs first.
-/

namespace SmtpProxy.Oauth

open Lib List Option

/-- The markers, in the order of the loop. -/
def markers : List Bytes :=
  [ascii "access_token", ascii "client_assertion", ascii "client_secret", ascii "refresh_token"]

def redacted (front marker : Bytes) : Bytes :=
  trimSpace front ++ (ascii " [redacted: the response mentioned " ++ marker ++ ascii "]")

/-- The first of the markers that occurs, and where. -/
def foundMarker (ks : List Bytes) (msg : Bytes) : Option (Bytes × Nat) :=
  ks.findSome? fun k => (indexOf k msg).map fun i => (k, i)

def redactToken (err : Option Err) : Option Err :=
  err.map fun e =>
    match foundMarker markers e.text with
    | some (k, i) => .new (redacted (e.text.take i) k)
    | none => e

def redactText (msg : Bytes) : Bytes :=
  match foundMarker markers msg with
  | some (k, i) => redacted (msg.take i) k
  | none => msg

theorem redactToken_text (e : Err) :
    (redactToken (some e)).map Err.text = some (redactText e.text) := by
  unfold redactToken redactText
  rw [map_some, map_some]
  cases foundMarker markers e.text <;> rfl

/-! ## What may be told -/

def firstMarker (msg : Bytes) : Option Nat := (markers.filterMap fun k => indexOf k msg).min?

def beforeMarkers (msg : Bytes) : Bytes := msg.take ((firstMarker msg).getD msg.length)

def mentioned (msg : Bytes) : List Bytes := markers.filter fun k => (indexOf k msg).isSome

/-- Two texts that do not differ in what may be told. -/
structure ToldAlike (msg msg' : Bytes) : Prop where
  before : beforeMarkers msg = beforeMarkers msg'
  mentioned : mentioned msg = mentioned msg'

def toldText (front : Bytes) : List Bytes → Bytes
  | [] => front
  | k :: _ => redacted front k

/-- The marker that is found is the one that occurs first. -/
def FoundFirst (msg : Bytes) : Prop :=
  ∀ k i, foundMarker markers msg = some (k, i) → firstMarker msg = some i

/-! ## The marker that is found -/

variable {msg k : Bytes}

theorem foundMarker_head {ks : List Bytes} {i : Nat} (h : foundMarker ks msg = some (k, i)) :
    indexOf k msg = some i ∧ ∃ rest, (ks.filter fun k => (indexOf k msg).isSome) = k :: rest := by
  induction ks with
  | nil => simp [foundMarker] at h
  | cons first ks ih =>
  rw [foundMarker, findSome?_cons] at h
  cases hfirst : indexOf first msg with
  | none =>
    rw [hfirst] at h
    obtain ⟨hk, rest, hrest⟩ := ih h
    refine ⟨hk, rest, ?_⟩
    rw [filter_cons_of_neg (by simp [hfirst]), hrest]
  | some j =>
  rw [hfirst] at h
  cases h
  exact ⟨hfirst, _, filter_cons_of_pos (by simp [hfirst])⟩

theorem foundMarker_of_mem {ks : List Bytes} (hk : k ∈ ks) (hindex : (indexOf k msg).isSome) :
    ∃ found, foundMarker ks msg = some found := by
  obtain ⟨i, hi⟩ := isSome_iff_exists.1 hindex
  rw [← isSome_iff_exists, foundMarker, findSome?_isSome_iff]
  exact ⟨k, hk, by rw [hi]; rfl⟩

theorem firstMarker_le {i : Nat} (h : foundMarker markers msg = some (k, i)) :
    ∃ j first, firstMarker msg = some j ∧ first ∈ markers ∧ indexOf first msg = some j ∧ j ≤ i := by
  have hmem : i ∈ markers.filterMap fun k => indexOf k msg := by
    obtain ⟨hindex, rest, hrest⟩ := foundMarker_head h
    have hk : k ∈ mentioned msg := by
      rw [mentioned, hrest]
      exact .head _
    exact mem_filterMap.2 ⟨k, (mem_filter.1 hk).1, hindex⟩
  cases hmin : (markers.filterMap fun k => indexOf k msg).min? with
  | none =>
    rw [min?_eq_none_iff.1 hmin] at hmem
    cases hmem
  | some j =>
  obtain ⟨hj, hle⟩ := min?_eq_some_iff.1 hmin
  obtain ⟨first, hfirst, hindex⟩ := mem_filterMap.1 hj
  exact ⟨j, first, hmin, hfirst, hindex, hle i hmem⟩

/-! ## What trimming leaves -/

/-- A text that reaches beyond the beginning of a marker has more in it than one that
does not, trimmed or not. -/
theorem trimSpace_take_ne {first : Bytes} {i j : Nat} (hfirst : first ∈ markers)
    (hindex : indexOf first msg = some j) (hlt : j < i) :
    trimSpace (msg.take i) ≠ trimSpace (msg.take j) := by
  obtain ⟨front, rest, hmsg, hlen⟩ := indexOf_some hindex
  have hvisible : ∀ k ∈ markers, ∃ b tail, k = b :: tail ∧ isVisible b = true := by
    intro k hk
    simp only [markers, mem_cons, not_mem_nil, or_false] at hk
    obtain rfl | rfl | rfl | rfl := hk <;> exact ⟨_, _, rfl, by decide⟩
  obtain ⟨b, tail, rfl, hb⟩ := hvisible first hfirst
  have hfront : msg.take j = front := by
    rw [hmsg, append_assoc, ← hlen, take_left]
  have hmore : ∃ c, msg.take i = front ++ b :: c := by
    obtain ⟨n, rfl⟩ : ∃ n, i = front.length + (n + 1) := ⟨i - front.length - 1, by omega⟩
    refine ⟨(tail ++ rest).take n, ?_⟩
    rw [hmsg, append_assoc, take_length_add_append, cons_append, take_succ_cons]
  obtain ⟨c, hmore⟩ := hmore
  intro heq
  -- both have as many visible bytes as before they were trimmed
  have hcount := congrArg (List.countP isVisible) heq
  have hspaces : ∀ w ∈ spaceEncodings, ∀ b ∈ w, isVisible b = false := by decide +kernel
  rw [countP_trimSpace hspaces, countP_trimSpace hspaces, hfront, hmore, countP_append,
    countP_cons_of_pos hb] at hcount
  omega

theorem redactText_eq_iff (hmark : ∃ k ∈ markers, (indexOf k msg).isSome) :
    redactText msg = toldText (beforeMarkers msg) (mentioned msg) ↔ FoundFirst msg := by
  obtain ⟨k₀, hk₀, hindex₀⟩ := hmark
  obtain ⟨⟨k, i⟩, hfound⟩ := foundMarker_of_mem hk₀ hindex₀
  obtain ⟨j, first, hj, hfirst, hindex, hle⟩ := firstMarker_le hfound
  obtain ⟨-, rest, hrest⟩ := foundMarker_head hfound
  have hmentioned : mentioned msg = k :: rest := hrest
  have hbefore : beforeMarkers msg = msg.take j := by rw [beforeMarkers, hj, getD_some]
  have hcut : redactText msg = redacted (msg.take i) k := by rw [redactText, hfound]
  rw [hcut, hmentioned, hbefore, toldText, redacted, redacted, append_left_inj]
  constructor
  · intro heq k' i' hfound'
    cases hfound.symm.trans hfound'
    obtain hlt | rfl := Nat.lt_or_eq_of_le hle
    · exact absurd heq (trimSpace_take_ne hfirst hindex hlt)
    · exact hj
  intro hthis
  cases hj.symm.trans (hthis k i hfound)
  rfl

/-- **The redacted text tells the part before the first marker and the first of those
mentioned, and nothing else, exactly if the marker it was cut at occurs first.** So of
two texts cut there that do not differ in these, the results do not either. -/
theorem redaction_iff (msg msg' : Bytes) (hmark : ∃ k ∈ markers, (indexOf k msg).isSome) :
    (redactText msg = toldText (beforeMarkers msg) (mentioned msg) ↔ FoundFirst msg) ∧
    (FoundFirst msg → FoundFirst msg' → ToldAlike msg msg' → redactText msg = redactText msg') := by
  refine ⟨redactText_eq_iff hmark, fun hfirst hfirst' halike => ?_⟩
  have hmark' : ∃ k ∈ markers, (indexOf k msg').isSome := by
    obtain ⟨k, hk, hindex⟩ := hmark
    have hmem : k ∈ mentioned msg := mem_filter.2 ⟨hk, hindex⟩
    rw [halike.mentioned] at hmem
    exact ⟨k, mem_filter.1 hmem⟩
  rw [(redactText_eq_iff hmark).2 hfirst, (redactText_eq_iff hmark').2 hfirst', halike.before,
    halike.mentioned]

instance (msg msg' : Bytes) : Decidable (ToldAlike msg msg') :=
  decidable_of_iff (beforeMarkers msg = beforeMarkers msg' ∧ mentioned msg = mentioned msg')
    ⟨fun h => ⟨h.1, h.2⟩, fun h => ⟨h.before, h.mentioned⟩⟩

def echoed (order : String × String) (token : String) : Bytes :=
  ascii "bad request: " ++ ascii order.1 ++ ascii "=" ++ ascii token ++ ascii "&" ++ ascii order.2

theorem foundFirst_of {i : Nat} (hfound : foundMarker markers msg = some (k, i))
    (hfirst : firstMarker msg = some i) : FoundFirst msg := by
  intro k' i' hfound'
  cases hfound.symm.trans hfound'
  exact hfirst

/-- In the order of the list the token does not matter. -/
theorem access_token_hidden : redactText (echoed ("access_token", "refresh_token") "AAA")
        = redactText (echoed ("access_token", "refresh_token") "BBBB") ∧
      redactText (echoed ("access_token", "refresh_token") "AAA")
        = ascii "bad request: [redacted: the response mentioned access_token]" := by
  have hfirst : FoundFirst (echoed ("access_token", "refresh_token") "AAA") :=
    foundFirst_of (k := ascii "access_token") (i := 13) (by decide +kernel) (by decide +kernel)
  have hfirst' : FoundFirst (echoed ("access_token", "refresh_token") "BBBB") :=
    foundFirst_of (k := ascii "access_token") (i := 13) (by decide +kernel) (by decide +kernel)
  refine ⟨?_, by decide +kernel⟩
  exact (redaction_iff _ _ ⟨ascii "access_token", by decide, by decide +kernel⟩).2 hfirst hfirst'
    (by decide +kernel)

/-- **In the other order it is told.** -/
theorem refresh_token_revealed : ToldAlike (echoed ("refresh_token", "access_token") "AAA")
        (echoed ("refresh_token", "access_token") "BBBB") ∧
      redactText (echoed ("refresh_token", "access_token") "AAA")
        = ascii "bad request: refresh_token=AAA& [redacted: the response mentioned access_token]" ∧
      redactText (echoed ("refresh_token", "access_token") "AAA")
        ≠ redactText (echoed ("refresh_token", "access_token") "BBBB") := by
  decide +kernel

end SmtpProxy.Oauth
