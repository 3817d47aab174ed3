import ThreatGraph.Proofs.Coupling
import ThreatGraph.Proofs.Encoding
import ThreatGraph.Proofs.Lengths
import ThreatGraph.Proofs.WriteOutcomes

/-!
# Pairs in queries and forms

A text is read back as it was, whatever is in it, so nothing in it can start another pair.  The
query of a request has the pairs of the base URL, the token, and the pairs of the operation; a post
has the last of these in its body as well.
-/

namespace ThreatGraph

open Json (Value)
open Post (Field Fields Kind validate copyFields)
open Web (Network Reply Request Url redact tokenName)

namespace Text.Utf8

theorem decodeLossyFrom_skip (skipped rest : List UInt8) :
    decodeLossyFrom skipped.length (skipped ++ rest) = decodeLossyFrom 0 rest := by
  induction skipped with
  | nil => rfl
  | cons b skipped ih => simp [decodeLossyFrom, ih]

theorem decodeLossyFrom_encode (cs : List Char) : decodeLossyFrom 0 (encode cs) = cs := by
  induction cs with
  | nil => rfl
  | cons c cs ih =>
    obtain ⟨a, tail, hc, hhead⟩ := head_encodeChar c
    rw [encode_cons, hc, List.cons_append, decodeLossyFrom, hhead]
    simp [decodeLossyFrom_skip, ih]

theorem decodeLossy_encode (cs : List Char) : decodeLossy (encode cs) = String.ofList cs := by
  rw [decodeLossy, decodeLossyFrom_encode]

end Text.Utf8

namespace Web.Form

def escapes (c : Char) : Bool := !isPlain c && c != ' '

theorem isPlain_bounds {c : Char} (h : isPlain c = true) : c.toNat < 0x80 ∧ c ≠ '+' := by
  have hle : ∀ d : Char, d.toNat < 0x80 → c ≤ d → c.toNat < 0x80 := fun d hd hcd =>
    Nat.lt_of_le_of_lt (Char.le_def.1 hcd) hd
  constructor
  · simp only [isPlain, Bool.or_eq_true, Bool.and_eq_true, decide_eq_true_eq,
      List.contains_iff_mem, List.mem_cons, List.not_mem_nil, or_false] at h
    rcases h with ((⟨-, h⟩ | ⟨-, h⟩) | ⟨-, h⟩) | rfl | rfl | rfl | rfl
    · exact hle 'Z' (by decide) h
    · exact hle 'z' (by decide) h
    · exact hle '9' (by decide) h
    all_goals decide
  · rintro rfl
    revert h
    decide

theorem faithful_escapes : Percent.Faithful escapes := by
  refine ⟨by decide, fun c hc => ?_⟩
  simp only [escapes, Bool.and_eq_false_iff, Bool.not_eq_false', bne_eq_false_iff_eq] at hc
  rcases hc with hc | rfl
  · exact (isPlain_bounds hc).1
  · decide

/-- A plus for a space, as it is read back. -/
def spaced (c : Char) : Char := if c = '+' then ' ' else c

theorem map_spaced_encodeByte (b : UInt8) :
    (Percent.encodeByte b).map spaced = Percent.encodeByte b := by
  have hhex : ∀ n < 16, spaced (Text.upperHex n) = Text.upperHex n := by decide
  have hb := UInt8.toNat_lt b
  have hhigh := hhex (b.toNat / 16) (by omega)
  have hlow := hhex (b.toNat % 16) (by omega)
  have hpercent : spaced '%' = '%' := by decide
  simp [Percent.encodeByte, hhigh, hlow, hpercent]

theorem map_spaced_encodeChar (c : Char) :
    (encodeChar c).map spaced = Percent.encodeChar escapes c := by
  unfold encodeChar Percent.encodeChar
  by_cases hplain : isPlain c = true
  · simp [hplain, escapes, spaced, (isPlain_bounds hplain).2]
  · by_cases hspace : c = ' '
    · subst hspace
      decide
    · have hescapes : escapes c = true := by simp [escapes, hplain, hspace]
      simp only [hplain, hspace, hescapes, if_false, if_true, Bool.false_eq_true, List.map_flatMap,
        map_spaced_encodeByte]

theorem decodeText_encodeText (s : String) : decodeText (encodeText s) = s := by
  have hspaced : (encodeText s).map spaced = Percent.encode escapes s.toList := by
    simp [encodeText, Percent.encode, List.map_flatMap, map_spaced_encodeChar]
  change Text.Utf8.decodeLossy (Percent.decodeText ((encodeText s).map spaced)) = s
  rw [hspaced, Percent.decodeText_encode faithful_escapes, Text.Utf8.decodeLossy_encode,
    String.ofList_toList]

theorem decodePair_encodePair (p : String × String) : decodePair (encodePair p) = p := by
  rw [decodePair_encode, decodeText_encodeText, decodeText_encodeText]

theorem decode_encode (pairs : Pairs) : decode (encode pairs) = pairs := by
  have hempty : decode [] = [] := rfl
  rw [encode, decode_append, hempty]
  simp [decodePair_encodePair]

end Web.Form

namespace Client

variable {c : Client}

def firstGet (c : Client) (segments : List String) (pairs : Web.Form.Pairs) : Option Request :=
  match c.endpoint segments with
  | .error _ => none
  | .ok url =>
    if (url.appendPairs pairs).requestFault? = none then
      some (getOf (url.appendPairs pairs)).onWire
    else none

theorem firstGet_method {c : Client} {segments : List String} {pairs : Web.Form.Pairs}
    {r : Request} (h : r ∈ c.firstGet segments pairs) : r.method = .get := by
  unfold firstGet at h
  cases hurl : c.endpoint segments with
  | error e => simp [hurl] at h
  | ok url =>
    simp only [hurl] at h
    split at h
    · obtain rfl := Option.some.inj h
      rfl
    · cases h

def lookupPairs (ids : List String) : Web.Form.Pairs :=
  [("ids", String.intercalate "," ids), ("fields", descriptorFields)]

section FirstRequests

variable {replies : List Reply} {t : Traffic}

/-- Before the first request. -/
structure Unsent (replies : List Reply) (t : Traffic) : Prop where
  network : t.network = .scripted replies
  sent : t.sent = []

theorem Unsent.of_same {u : Traffic} (h : Unsent replies t) (hu : SameTraffic u t) :
    Unsent replies u := ⟨hu.1.trans h.network, hu.2.trans h.sent⟩

theorem fetchJson_first (url : Url) (h : Unsent replies t) :
    ((c.fetchJson url).run.run t).2.sent.head? =
      if url.requestFault? = none then some (getOf url).onWire else none := by
  cases hurl : url.requestFault? with
  | none =>
    have hup : t.network ≠ .down := by simp [h.network]
    obtain ⟨n, hsent⟩ := fetchFrom_requests hurl 1 (c.maxAttempts - 1) hup
    simp [fetchJson, hsent, h.sent, List.replicate_succ]
  | some fault => simp [fetchJson_refused c hurl, h.sent]

theorem sent_exchange_bind {α β : Type} {x : Exchange α} {f : α → Exchange β}
    (hf : ∀ a, Silent (f a).run) (t : Traffic) :
    ((x >>= f).run.run t).2.sent = (x.run.run t).2.sent := by
  rw [run_exchange_bind]
  rcases x.run.run t with ⟨e | a, u⟩
  · rfl
  · exact ((hf a) u).2

theorem read_first {α : Type} {segments : List String} {pairs : Web.Form.Pairs}
    {rest : Value → Exchange α} (hrest : ∀ v, Silent (rest v).run) (showUrls : Bool)
    (h : Unsent replies t) :
    ((do
      let url ← Exchange.ofExcept id (c.endpoint segments)
      noteIf showUrls (.request (redact (url.appendPairs pairs)))
      let response ← c.fetchJson (url.appendPairs pairs)
      rest response : Exchange α).run.run t).2.sent.head? = c.firstGet segments pairs := by
  unfold firstGet
  rw [run_exchange_bind, run_ofExcept]
  cases c.endpoint segments with
  | error e => simp [Except.mapError, h.sent]
  | ok url =>
    simp only [mapError_ok]
    rw [run_lift_bind, run_noteIf, sent_exchange_bind hrest]
    exact fetchJson_first _ (h.of_same (.noteIf _ _ _))

theorem descriptorsOfIds_first {ids : List String} (hids : malformedId? ids = none)
    (opts : QueryOptions) (h : Unsent replies t) :
    ((c.descriptorsOfIds ids opts).run.run t).2.sent.head? =
      c.firstGet [] (lookupPairs ids) := by
  unfold descriptorsOfIds
  rw [hids]
  refine read_first (fun v => ?_) opts.showUrls h
  cases v with
  | object byId => exact silent_collectDescriptors opts ids byId
  | _ => exact Silent.pure _

theorem submit_sent (c : Client) {fs : Fields} (hvalid : validate .submit fs = none)
    (opts : WriteOptions) {t : Traffic} (hup : t.network ≠ .down) :
    ((c.submit fs opts).run t).2.sent = t.sent ++ c.posted ["threat_descriptors"] fs opts := by
  simp only [submit, hvalid]
  exact postTo_sent c _ fs opts hup

theorem submit_grows (c : Client) (fs : Fields) (opts : WriteOptions) {t : Traffic}
    (hup : t.network ≠ .down) : ∃ posts, ((c.submit fs opts).run t).2.sent = t.sent ++ posts := by
  cases hvalid : validate .submit fs with
  | none => exact ⟨_, c.submit_sent hvalid opts hup⟩
  | some e =>
    refine ⟨[], ?_⟩
    simp only [submit, hvalid, List.append_nil]
    rfl

theorem sent_of_found {ids : List String} {opts : QueryOptions} {ds : List Descriptor}
    {u : Traffic} (hrun : (c.descriptorsOfIds ids opts).run.run t = (.ok ds, u)) : u.sent ≠ [] := by
  rw [descriptorsOfIds_run] at hrun
  cases hids : malformedId? ids with
  | some id =>
    rw [hids] at hrun
    cases hrun
  | none =>
    cases hurl : c.lookupUrl ids with
    | error e =>
      rw [hids, hurl] at hrun
      cases hrun
    | ok url =>
      simp only [hids, hurl] at hrun
      rcases hfetch : (c.fetchJson url).run.run
        (if opts.showUrls then t.note (.request (redact url)) else t) with ⟨e | v, w⟩ <;>
        rw [hfetch] at hrun
      · cases hrun
      · obtain ⟨n, hn, -, hw, -⟩ := fetchJson_ok hfetch
        have hnonempty : w.sent ≠ [] := by simp [hw, Nat.ne_of_gt hn]
        cases v with
        | object byId =>
          have hsilent := (silent_collectDescriptors opts ids byId w).2
          simp only at hrun
          have hsame : u.sent = w.sent := by rwa [hrun] at hsilent
          rwa [hsame]
        | _ => cases hrun

theorem copy_first {fs : Fields} {id : String} (hvalid : validate .copy fs = none)
    (hnamed : fs.get? .descriptorId = some id) (hid : malformedId? [id] = none)
    (opts : WriteOptions) (h : Unsent replies t) :
    ((c.copy fs opts).run t).2.sent.head? = c.firstGet [] (lookupPairs [id]) := by
  have hfirst := descriptorsOfIds_first (c := c) hid { showUrls := opts.showUrls } h
  have hthere : t.network ≠ .down := by simp [h.network]
  have hup := c.descriptorsOfIds_up [id] { showUrls := opts.showUrls } hthere
  rw [c.copy_run opts hvalid hnamed]
  rcases hrun : (c.descriptorsOfIds [id] { showUrls := opts.showUrls }).run.run t with
    ⟨e | (_ | ⟨source, others⟩), u⟩ <;> rw [hrun] at hfirst hup
  · exact hfirst
  · exact hfirst
  · obtain ⟨posts, hposts⟩ := c.submit_grows (copyFields source fs) opts hup
    simp only [hposts]
    rw [List.head?_append_of_ne_nil _ (sent_of_found hrun)]
    exact hfirst

end FirstRequests

end Client
end ThreatGraph
