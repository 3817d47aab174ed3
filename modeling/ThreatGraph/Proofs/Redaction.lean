import ThreatGraph.Web.Http
import ThreatGraph.Web.Redaction

/-!
# Hiding the token

Pairs that are added to a query are read back as pairs of their own, so the token that an endpoint
puts there is found and hidden: URLs that differ in it are shown the same.
-/

namespace ThreatGraph

namespace Text

variable {isSeparator : Char → Bool}

theorem split_append_cons {c : Char} (hc : isSeparator c = true) (front back : List Char) :
    split isSeparator (front ++ c :: back) = split isSeparator front ++ split isSeparator back := by
  induction front with
  | nil => simp [split, hc]
  | cons d front ih =>
    rw [List.cons_append, split, split, ih]
    by_cases hd : isSeparator d = true
    · rw [if_pos hd, if_pos hd, List.cons_append]
    · rw [if_neg hd, if_neg hd]
      cases hfront : split isSeparator front with
      | nil => exact absurd hfront (split_ne_nil _ _)
      | cons part rest => rfl

theorem split_of_free {cs : List Char} (h : ∀ c ∈ cs, isSeparator c = false) :
    split isSeparator cs = [cs] := by
  induction cs with
  | nil => rfl
  | cons c cs ih =>
    obtain ⟨hc, hcs⟩ := List.forall_mem_cons.1 h
    simp [split, hc, ih hcs]

end Text

namespace Web

open Text (split split_append_cons split_of_free)

namespace Form

theorem encodeText_free (s : String) : ∀ c ∈ encodeText s, c ≠ '&' ∧ c ≠ '=' := by
  have hhex : ∀ n < 16, Text.upperHex n ≠ '&' ∧ Text.upperHex n ≠ '=' := by decide
  have hbyte : ∀ b, ∀ c ∈ Percent.encodeByte b, c ≠ '&' ∧ c ≠ '=' := by
    intro b c hc
    have hb := UInt8.toNat_lt b
    simp only [Percent.encodeByte, List.mem_cons, List.not_mem_nil, or_false] at hc
    rcases hc with rfl | rfl | rfl
    · decide
    · exact hhex _ (by omega)
    · exact hhex _ (by omega)
  intro c hc
  obtain ⟨d, -, hd⟩ := List.mem_flatMap.1 hc
  unfold encodeChar at hd
  split at hd
  · next hplain =>
    obtain rfl := List.mem_singleton.1 hd
    constructor <;> rintro rfl <;> revert hplain <;> decide
  · split at hd
    · obtain rfl := List.mem_singleton.1 hd
      decide
    · obtain ⟨b, -, hb⟩ := List.mem_flatMap.1 hd
      exact hbyte b c hb

theorem decodePair_encode (p : String × String) :
    decodePair (encodePair p) = (decodeText (encodeText p.1), decodeText (encodeText p.2)) := by
  have hfree : '=' ∉ encodeText p.1 := fun h => (encodeText_free p.1 _ h).2 rfl
  have hsplit : Text.splitFirst '=' (encodeText p.1 ++ '=' :: encodeText p.2) =
      some (encodeText p.1, encodeText p.2) := Text.splitFirst_eq_some_iff.2 ⟨hfree, rfl⟩
  simp only [decodePair, encodePair, hsplit]

theorem split_encodePair (p : String × String) :
    split (· == '&') (encodePair p) = [encodePair p] := by
  apply split_of_free
  intro c hc
  rcases List.mem_append.1 hc with hc | hc
  · simpa using (encodeText_free p.1 c hc).1
  · rcases List.mem_cons.1 hc with rfl | hc
    · rfl
    · simpa using (encodeText_free p.2 c hc).1

theorem encodePair_ne_nil (p : String × String) : encodePair p ≠ [] := by
  simp [encodePair]

theorem decode_append (query : List Char) (pairs : Pairs) :
    decode (append query pairs) = decode query ++ pairs.map fun p => decodePair (encodePair p) := by
  induction pairs generalizing query with
  | nil => simp [append]
  | cons p pairs ih =>
    have hone : decode ((if query.isEmpty then query else query ++ ['&']) ++ encodePair p) =
        decode query ++ [decodePair (encodePair p)] := by
      have hne := encodePair_ne_nil p
      cases query with
      | nil => simp [decode, split, split_encodePair, hne]
      | cons c query =>
        have hsplit := @split_append_cons (· == '&') '&' rfl (c :: query) (encodePair p)
        simp only [decode, List.isEmpty_cons, Bool.false_eq_true, if_false, List.append_assoc,
          List.singleton_append, hsplit, split_encodePair]
        simp [hne]
    rw [append, List.foldl_cons, ← append, ih, hone, List.map_cons, List.append_assoc,
      List.singleton_append]

theorem append_append (query : List Char) (pairs more : Pairs) :
    append (append query pairs) more = append query (pairs ++ more) := by
  simp only [append, List.foldl_append]

end Form

/-- URLs that are the same, or the same but for the token in the query that an endpoint added. -/
inductive SameButToken (token token' : String) : Url → Url → Prop
  | same (u : Url) : SameButToken token token' u u
  | token (base : Url) (pairs : Form.Pairs) :
    SameButToken token token' (base.appendPairs ((tokenName, token) :: pairs))
      (base.appendPairs ((tokenName, token') :: pairs))

theorem appendPairs_appendPairs (u : Url) (pairs more : Form.Pairs) :
    (u.appendPairs pairs).appendPairs more = u.appendPairs (pairs ++ more) := by
  simp only [Url.appendPairs, Option.getD_some, Form.append_append]

theorem withoutUserinfo_appendPairs (u : Url) (pairs : Form.Pairs) :
    (u.appendPairs pairs).withoutUserinfo = u.withoutUserinfo.appendPairs pairs := by
  obtain ⟨scheme, authority, path, query, fragment⟩ := u
  unfold Url.withoutUserinfo Url.appendPairs
  cases authority with
  | none => rfl
  | some a =>
    cases hinfo : a.userinfo with
    | none => simp only [hinfo]
    | some i =>
      simp only [hinfo]
      split <;> rfl

theorem queryPairs_appendPairs (u : Url) (pairs : Form.Pairs) :
    (u.appendPairs pairs).queryPairs =
      u.queryPairs ++ pairs.map fun p => Form.decodePair (Form.encodePair p) :=
  Form.decode_append _ _

theorem decode_tokenPair (token : String) :
    ∃ s, Form.decodePair (Form.encodePair (tokenName, token)) = (tokenName, s) := by
  have hname : Form.decodeText (Form.encodeText tokenName) = tokenName := rfl
  exact ⟨Form.decodeText (Form.encodeText token), by rw [Form.decodePair_encode, hname]⟩

theorem redacted_token (base : Url) (token : String) (pairs : Form.Pairs) :
    (base.appendPairs ((tokenName, token) :: pairs)).redacted =
      base.withPairs (base.queryPairs.map hideToken ++ (tokenName, hidden) ::
        pairs.map fun p => hideToken (Form.decodePair (Form.encodePair p))) := by
  obtain ⟨s, hs⟩ := decode_tokenPair token
  have hpairs := queryPairs_appendPairs base ((tokenName, token) :: pairs)
  rw [List.map_cons, hs] at hpairs
  have hfound : hasToken (base.appendPairs ((tokenName, token) :: pairs)) = true := by
    simp [hasToken, hpairs]
  rw [Url.redacted, if_pos hfound, hpairs, List.map_append, List.map_cons, List.map_map]
  have hhidden : hideToken (tokenName, s) = (tokenName, hidden) := by simp [hideToken]
  rw [hhidden]
  rfl

namespace SameButToken

variable {token token' : String} {u u' : Url}

theorem redact_eq (h : SameButToken token token' u u') : redact u = redact u' := by
  cases h with
  | same => rfl
  | token base pairs => rw [redact, redact, redacted_token, redacted_token]

theorem appendPairs (h : SameButToken token token' u u') (pairs : Form.Pairs) :
    SameButToken token token' (u.appendPairs pairs) (u'.appendPairs pairs) := by
  cases h with
  | same => exact .same _
  | token base before =>
    rw [appendPairs_appendPairs, appendPairs_appendPairs]
    exact .token base (before ++ pairs)

theorem target (h : SameButToken token token' u u') :
    SameButToken token token' u.target u'.target := by
  cases h with
  | same => exact .same _
  | token base pairs =>
    have htarget : ∀ pairs, (base.appendPairs pairs).target = base.target.appendPairs pairs := by
      intro pairs
      rw [Url.target, withoutUserinfo_appendPairs]
      rfl
    rw [htarget, htarget]
    exact .token _ pairs

end SameButToken
end Web
end ThreatGraph
