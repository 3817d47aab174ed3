import ThreatGraph.Proofs.Lookup
import ThreatGraph.Proofs.Redaction

/-!
# Lengths of URLs

Pairs make a URL longer by what they are encoded in.  So a lookup can be requested exactly as long
as its ids leave the URL short enough.
-/

namespace ThreatGraph
namespace Web

theorem Form.append_eq {query : List Char} (h : query ≠ []) (pairs : Form.Pairs) :
    append query pairs = query ++ pairs.flatMap fun p => '&' :: encodePair p := by
  induction pairs generalizing query with
  | nil => exact (List.append_nil query).symm
  | cons p pairs ih =>
    have hne : query ++ '&' :: encodePair p ≠ [] := by simp
    have hcons : append query (p :: pairs) = append (query ++ '&' :: encodePair p) pairs := by
      simp [append, List.isEmpty_iff, h]
    rw [hcons, ih hne, List.flatMap_cons, List.append_assoc]

namespace Url

theorem length_print_appendPairs {u : Url} {query : List Char} (hquery : u.query = some query)
    (h : query ≠ []) (pairs : Form.Pairs) :
    (u.appendPairs pairs).print.length =
      u.print.length + (pairs.flatMap fun p => '&' :: Form.encodePair p).length := by
  have hprint : (u.appendPairs pairs).print =
      u.printFront ++ u.path.print ++ '?' :: Form.append query pairs ++ u.printFragment := by
    rw [appendPairs, hquery]
    rfl
  have hplain : u.print = u.printFront ++ u.path.print ++ '?' :: query ++ u.printFragment := by
    rw [print, printQuery, hquery]
  rw [hprint, hplain, Form.append_eq h]
  simp only [List.length_append, List.length_cons]
  omega

theorem length_print_pair (u : Url) (name value : String) :
    (u.appendPairs [(name, value)]).print.length =
      (u.appendPairs [(name, "")]).print.length + (Form.encodeText value).length := by
  have hprint : ∀ value, (u.appendPairs [(name, value)]).print =
      u.printFront ++ u.path.print ++ '?' :: Form.append (u.query.getD []) [(name, value)] ++
        u.printFragment := fun _ => rfl
  have hempty : (Form.encodeText "").length = 0 := rfl
  rw [hprint, hprint]
  simp only [List.length_append, List.length_cons, Form.append, List.foldl_cons, List.foldl_nil,
    Form.encodePair, hempty]
  omega

theorem requestFault?_eq_none {u : Url} : u.requestFault? = none ↔
    u.isHttp = true ∧ u.hasSendableHost = true ∧ u.withoutUserinfo.print.length ≤ maxLength := by
  unfold requestFault?
  cases u.isHttp <;> cases u.hasSendableHost <;> simp

theorem withoutUserinfo_query (u : Url) : u.withoutUserinfo.query = u.query := by
  unfold withoutUserinfo
  split
  · split
    · split <;> rfl
    · rfl
  · rfl

end Url
end Web

open Web (Url)

namespace Client

/-- A lookup whose URL can be made and requested. -/
def CanLookUp (c : Client) (ids : List String) : Prop :=
  ∃ url, c.lookupUrl ids = .ok url ∧ url.requestFault? = none

theorem query_of_endpoint {c : Client} {segments : List String} {u : Url}
    (h : c.endpoint segments = .ok u) : ∃ query, u.query = some query ∧ query ≠ [] := by
  unfold endpoint at h
  split at h
  · cases h
  · next base _ =>
    split at h
    · cases h
    · next url _ =>
      obtain rfl := Except.ok.inj h
      refine ⟨_, rfl, ?_⟩
      simp [Web.Form.append, Web.Form.encodePair]

theorem canLookUp_iff {c : Client} {u : Url} (h : c.endpoint [] = .ok u) {ids : List String} :
    c.CanLookUp ids ↔ u.isHttp = true ∧ u.hasSendableHost = true ∧
      u.withoutUserinfo.print.length +
        (Web.Form.encodePair ("ids", String.intercalate "," ids)).length +
        (Web.Form.encodePair ("fields", descriptorFields)).length + 2 ≤ Url.maxLength := by
  have hurl : c.lookupUrl ids = .ok (u.appendPairs
      [("ids", String.intercalate "," ids), ("fields", descriptorFields)]) := by
    rw [lookupUrl, h]
    rfl
  obtain ⟨query, hquery, hne⟩ := query_of_endpoint h
  have hlength := Url.length_print_appendPairs ((Url.withoutUserinfo_query u).trans hquery) hne
    [("ids", String.intercalate "," ids), ("fields", descriptorFields)]
  rw [← Web.withoutUserinfo_appendPairs] at hlength
  simp only [List.flatMap_cons, List.flatMap_nil, List.length_append, List.length_cons,
    List.length_nil] at hlength
  constructor
  · rintro ⟨url, hlookup, hfault⟩
    obtain rfl := Except.ok.inj (hurl.symm.trans hlookup)
    obtain ⟨hhttp, hhost, hle⟩ := Url.requestFault?_eq_none.1 hfault
    exact ⟨hhttp, hhost, by omega⟩
  · rintro ⟨hhttp, hhost, hle⟩
    exact ⟨_, hurl, Url.requestFault?_eq_none.2 ⟨hhttp, hhost, by omega⟩⟩

theorem length_fields : (Web.Form.encodePair ("fields", descriptorFields)).length = 187 := by
  decide +kernel

end Client
end ThreatGraph
