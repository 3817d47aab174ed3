import ThreatGraph.Proofs.UrlText

/-!
# Redaction is exact

What is shown of a URL with a token is the text of a URL again: that with the same parts and the
same pairs in its query, but for the values of the token.  Nothing of these values is left in it,
and showing it once more changes nothing.
-/

namespace ThreatGraph
namespace Web

namespace Url

/-- A URL is read from a text, and extended by segments and pairs. -/
inductive IsMade : Url → Prop
  | read {s : String} {u : Url} (h : Url.read s = .ok u) : IsMade u
  /-- A file URL whose path would be read as one on a drive is left out. -/
  | extendPath {u v : Url} {texts : List String} (h : IsMade u) (hv : u.extendPath? texts = some v)
    (hdrive : v.scheme = fileScheme → v.normalizeDrive = v) : IsMade v
  | appendPairs {u : Url} (h : IsMade u) (pairs : Form.Pairs) : IsMade (u.appendPairs pairs)
  | withPairs {u : Url} (h : IsMade u) (pairs : Form.Pairs) : IsMade (u.withPairs pairs)

variable {u : Url}

theorem IsMade.isWritten (h : u.IsMade) : u.IsWritten := by
  induction h with
  | read h => exact isWritten_of_read h
  | extendPath _ hv hdrive ih => exact ih.extendPath hv hdrive
  | appendPairs _ pairs ih => exact ih.appendPairs pairs
  | withPairs _ pairs ih => exact ih.withPairs pairs

theorem queryPairs_withPairs (u : Url) (pairs : Form.Pairs) :
    (u.withPairs pairs).queryPairs = pairs := Form.decode_encode pairs

end Url

/-- Some pair of the query has the name of the token. -/
def CarriesToken (u : Url) : Prop := ∃ value, ("access_token", value) ∈ u.queryPairs

/-- A pair and what is shown of it. -/
structure ShownAs (pair shown : String × String) : Prop where
  name : shown.1 = pair.1
  token : pair.1 = "access_token" → shown.2 = "REDACTED"
  other : pair.1 ≠ "access_token" → shown.2 = pair.2

/-- Pairs that differ at most in the value of a token. -/
structure AgreeButToken (pair pair' : String × String) : Prop where
  name : pair.1 = pair'.1
  other : pair.1 ≠ "access_token" → pair.2 = pair'.2

/-- URLs that have everything but the query in common. -/
structure SameButQuery (u u' : Url) : Prop where
  scheme : u.scheme = u'.scheme
  authority : u.authority = u'.authority
  path : u.path = u'.path
  fragment : u.fragment = u'.fragment

theorem hasToken_iff {u : Url} : hasToken u = true ↔ CarriesToken u := by
  simp only [hasToken, List.any_eq_true, beq_iff_eq, CarriesToken, tokenName]
  constructor
  · rintro ⟨⟨name, value⟩, hmem, rfl⟩
    exact ⟨value, hmem⟩
  · rintro ⟨value, hmem⟩
    exact ⟨_, hmem, rfl⟩

theorem shownAs_hideToken (p : String × String) : ShownAs p (hideToken p) := by
  unfold hideToken tokenName hidden
  split
  · next h => exact ⟨rfl, fun _ => rfl, fun hne => absurd h hne⟩
  · next h => exact ⟨rfl, fun heq => absurd heq h, fun _ => rfl⟩

theorem hideToken_hideToken (p : String × String) : hideToken (hideToken p) = hideToken p := by
  by_cases h : p.1 = tokenName <;> simp [hideToken, h]

theorem hideToken_eq_of_agree {p q : String × String} (h : AgreeButToken p q) :
    hideToken p = hideToken q := by
  obtain ⟨name, value⟩ := p
  obtain ⟨name', value'⟩ := q
  obtain rfl : name = name' := h.name
  by_cases hname : name = tokenName
  · simp [hideToken, hname]
  · obtain rfl : value = value' := h.other hname
    rfl

section

variable {pairs pairs' : Form.Pairs} (h : List.Forall₂ AgreeButToken pairs pairs')

include h

theorem map_hideToken_eq_of_agree : pairs.map hideToken = pairs'.map hideToken := by
  induction h with
  | nil => rfl
  | cons hpair _ ih => rw [List.map_cons, List.map_cons, hideToken_eq_of_agree hpair, ih]

theorem names_eq_of_agree : pairs.map Prod.fst = pairs'.map Prod.fst := by
  induction h with
  | nil => rfl
  | cons hpair _ ih => rw [List.map_cons, List.map_cons, hpair.name, ih]

end

theorem CarriesToken.of_agree {u u' : Url} (h : CarriesToken u)
    (hpairs : List.Forall₂ AgreeButToken u.queryPairs u'.queryPairs) : CarriesToken u' := by
  obtain ⟨value, hmem⟩ := h
  have hname : "access_token" ∈ u'.queryPairs.map Prod.fst := by
    rw [← names_eq_of_agree hpairs]
    exact List.mem_map_of_mem hmem
  obtain ⟨⟨name, value'⟩, hmem', rfl⟩ := List.mem_map.1 hname
  exact ⟨value', hmem'⟩

variable {u : Url}

theorem redacted_of_carriesToken (h : CarriesToken u) :
    u.redacted = u.withPairs (u.queryPairs.map hideToken) := if_pos (hasToken_iff.2 h)

theorem redacted_redacted (u : Url) : u.redacted.redacted = u.redacted := by
  by_cases h : hasToken u = true
  · have hshown : u.redacted = u.withPairs (u.queryPairs.map hideToken) := if_pos h
    have htoken : hasToken (u.withPairs (u.queryPairs.map hideToken)) = true := by
      simpa [hasToken, Url.queryPairs_withPairs, List.any_map, Function.comp_def] using h
    rw [hshown, Url.redacted, if_pos htoken, Url.queryPairs_withPairs, List.map_map]
    have hideToken_twice : hideToken ∘ hideToken = hideToken := funext hideToken_hideToken
    rw [hideToken_twice]
    rfl
  · have hshown : u.redacted = u := if_neg h
    rw [hshown, hshown]

/-- How a URL is shown. -/
structure ShownExactly (u : Url) : Prop where
  hides : CarriesToken u → ∃ v, Url.read (redact u) = .ok v ∧
    List.Forall₂ ShownAs u.queryPairs v.queryPairs ∧ SameButQuery v u ∧ redact v = redact u
  forgets : ∀ u', SameButQuery u u' → List.Forall₂ AgreeButToken u.queryPairs u'.queryPairs →
    CarriesToken u → redact u = redact u'
  keeps : ¬ CarriesToken u → redact u = u.text

theorem redact_shownExactly (h : u.IsMade) : ShownExactly u where
  hides htoken := by
    have hshown := redacted_of_carriesToken htoken
    have hread := (h.withPairs (u.queryPairs.map hideToken)).isWritten.read_text
    refine ⟨u.redacted, ?_, ?_, ?_, ?_⟩
    · rw [redact, hshown, hread]
    · rw [hshown, Url.queryPairs_withPairs, List.forall₂_map_right_iff, List.forall₂_same]
      exact fun p _ => shownAs_hideToken p
    · rw [hshown]
      exact ⟨rfl, rfl, rfl, rfl⟩
    · rw [redact, redact, redacted_redacted]
  forgets u' hsame hpairs htoken := by
    have hshown := redacted_of_carriesToken htoken
    have hshown' := redacted_of_carriesToken (htoken.of_agree hpairs)
    rw [redact, redact, hshown, hshown', map_hideToken_eq_of_agree hpairs]
    -- Both have got the same query; the one they had is nowhere in what is shown.
    obtain ⟨scheme, authority, path, query, fragment⟩ := u
    obtain ⟨scheme', authority', path', query', fragment'⟩ := u'
    obtain ⟨rfl, rfl, rfl, rfl⟩ := hsame
    rfl
  keeps htoken := redact_of_not_hasToken (by simpa [← hasToken_iff] using htoken)

def twoTokens : Url :=
  ⟨"http".toList, some ⟨none, .name "graph.test".toList, none⟩, .segments ["a".toList],
    some "access%5Ftoken=%zz&b=c+d&&access_token".toList, some "f".toList⟩

theorem twoTokens_shownExactly :
    Url.read "http://graph.test/a?access%5Ftoken=%zz&b=c+d&&access_token#f" = .ok twoTokens ∧
      CarriesToken twoTokens ∧ ShownExactly twoTokens ∧
      redact twoTokens =
        "http://graph.test/a?access_token=REDACTED&b=c+d&access_token=REDACTED#f" := by
  have hread : Url.read "http://graph.test/a?access%5Ftoken=%zz&b=c+d&&access_token#f" =
      .ok twoTokens := rfl
  exact ⟨hread, hasToken_iff.1 (by decide), redact_shownExactly (.read hread), by decide⟩

end Web
end ThreatGraph
