import ThreatGraph.Proofs.PathSegments
import ThreatGraph.Proofs.WriteDiscipline

/-!
# Ids in endpoints

An endpoint is always on the host of the base URL.  What its path makes of the ids depends on them:
dots and line breaks can alter it, although ids are percent-encoded.
-/

namespace ThreatGraph

open Post (Fields)
open Web (Request Reply Url)
open Web.Url (withoutSlash counted IsDots Separate extendPath?_eq lists_extendPath_iff
  extendPath_single_inj)

namespace Client

variable {c : Client} {base : Url} {segments : List (List Char)}

theorem endpoint_eq (hread : Url.read c.baseUrl = .ok base) (hpath : base.path = .segments segments)
    (ids : List String) : ∃ u, base.extendPath? ids = some u ∧ u.scheme = base.scheme ∧
      u.authority = base.authority ∧
      c.endpoint ids = .ok (u.appendPairs [(Web.tokenName, c.accessToken)]) := by
  refine ⟨_, extendPath?_eq hpath ids, rfl, rfl, ?_⟩
  simp only [endpoint, hread, extendPath?_eq hpath ids]

theorem onWire_path (r : Request) : r.onWire.url.path = r.url.path := by
  simp only [Web.Request.onWire, Url.target, Url.withoutUserinfo]
  split
  · split
    · split <;> rfl
    · rfl
  · rfl

theorem path_of_mem_update {fs : Fields} {opts : WriteOptions} {replies : List Reply} {id : String}
    {r : Request} (hid : fs.get? .descriptorId = some id)
    (hr : r ∈ ((c.update fs opts).run (.start (.scripted replies))).2.sent) :
    ∃ url, c.endpoint [id] = .ok url ∧ r.url.path = url.path := by
  rcases c.update_ends fs opts (.start (.scripted replies)) with ⟨_, _, hp, hrun⟩ | ⟨-, hrun⟩
  · cases hp with
    | update _ named =>
      obtain rfl := Option.some.inj (named.symm.trans hid)
      change (c.update fs opts).run _ = _ at hrun
      rw [hrun, postTo_sent c _ fs opts (by simp [Traffic.start])] at hr
      obtain ⟨-, url, hurl, -, rfl⟩ := mem_posted.1 hr
      exact ⟨url, hurl, onWire_path _⟩
  · change ((c.update fs opts).run _).2 = _ at hrun
    rw [hrun] at hr
    cases hr

/-- Endpoints stay on the host of an `http` or `https` base URL.  Their path lists the ids behind
that of the base exactly when these are separate.  Two updates of ids that are not dots go to the
same path exactly when the ids agree in the characters that count. -/
theorem endpoint_confinement (c : Client) {base : Url} (hread : Url.read c.baseUrl = .ok base)
    (hscheme : base.scheme = "http".toList ∨ base.scheme = "https".toList) :
    ∃ segments, base.path = .segments segments ∧
      (∀ ids, ∃ url, c.endpoint ids = .ok url ∧ url.scheme = base.scheme ∧
        url.authority = base.authority ∧
        (url.Lists (withoutSlash segments) ids ↔ Separate (withoutSlash segments) ids)) ∧
      ∀ (fs fs' : Fields) (opts opts' : WriteOptions) (replies replies' : List Reply)
        (id id' : String) (r r' : Request),
        fs.get? .descriptorId = some id → fs'.get? .descriptorId = some id' →
        ¬ IsDots (counted id.toList) → ¬ IsDots (counted id'.toList) →
        r ∈ ((c.update fs opts).run (.start (.scripted replies))).2.sent →
        r' ∈ ((c.update fs' opts').run (.start (.scripted replies'))).2.sent →
        (r.url.path = r'.url.path ↔ counted id.toList = counted id'.toList) := by
  have hspecial : Web.isSpecial base.scheme = true := by
    rcases hscheme with h | h <;> rw [h] <;> decide
  obtain ⟨segments, hpath⟩ := Web.Url.read_path hread hspecial
  refine ⟨segments, hpath, fun ids => ?_, ?_⟩
  · obtain ⟨u, hu, hs, ha, hurl⟩ := endpoint_eq hread hpath ids
    have hlists := lists_extendPath_iff hpath hu
    exact ⟨_, hurl, hs, ha, hlists⟩
  · intro fs fs' opts opts' replies replies' id id' r r' hid hid' hdots hdots' hr hr'
    obtain ⟨u, hu, -, -, hurl⟩ := endpoint_eq hread hpath [id]
    obtain ⟨u', hu', -, -, hurl'⟩ := endpoint_eq hread hpath [id']
    obtain ⟨v, hv, hrpath⟩ := path_of_mem_update hid hr
    obtain ⟨v', hv', hrpath'⟩ := path_of_mem_update hid' hr'
    obtain rfl := Except.ok.inj (hurl.symm.trans hv)
    obtain rfl := Except.ok.inj (hurl'.symm.trans hv')
    rw [hrpath, hrpath']
    have hinj := extendPath_single_inj hpath hu hu' hdots hdots'
    exact hinj

def defaultBase : Url :=
  ⟨"https".toList, some ⟨none, .name "graph.facebook.com".toList, none⟩, .segments ["v6.0".toList],
    none, none⟩

theorem read_defaultBaseUrl : Url.read defaultBaseUrl = .ok defaultBase := by
  rfl

/-- An id cannot leave its place by slashes. -/
theorem endpoint_keeps_slashes : Separate ["v6.0".toList] ["../a"] ∧
    ∃ url, (ofToken "tok").endpoint ["../a"] = .ok url ∧ url.authority = defaultBase.authority ∧
      url.Lists ["v6.0".toList] ["../a"] := by
  have hsep : Separate ["v6.0".toList] ["../a"] := ⟨by decide, by decide, by decide⟩
  obtain ⟨segments, hpath, hids, -⟩ :=
    endpoint_confinement (ofToken "tok") read_defaultBaseUrl (.inr rfl)
  cases hpath
  obtain ⟨url, hurl, -, hauthority, hlists⟩ := hids ["../a"]
  exact ⟨hsep, url, hurl, hauthority, hlists.2 hsep⟩

/-- Ids are not confined whatever they are: two dots around a tab take the base path away, and a tab
inside an id leads to the path of another one. -/
theorem ids_not_confined :
    ¬ (∀ (c : Client) (base : Url) (segments : List (List Char)) (ids : List String),
        Url.read c.baseUrl = .ok base → base.scheme = "https".toList →
        base.path = .segments segments →
        ∃ url, c.endpoint ids = .ok url ∧ url.Lists (withoutSlash segments) ids) ∧
    ¬ (∀ (c : Client) (id id' : String) (url url' : Url), id ≠ id' → c.endpoint [id] = .ok url →
        c.endpoint [id'] = .ok url' → url.path ≠ url'.path) := by
  constructor
  · intro h
    obtain ⟨url, hurl, named, hpath, -⟩ := h (ofToken "tok") defaultBase ["v6.0".toList] [".\t."]
      read_defaultBaseUrl rfl rfl
    have hroot : (ofToken "tok").endpoint [".\t."] = .ok
        { defaultBase with path := .segments [[]], query := some "access_token=tok".toList } := by
      decide +kernel
    rw [hroot] at hurl
    cases hurl
    simp [withoutSlash] at hpath
  · intro h
    have htab : (ofToken "tok").endpoint ["12\t3"] = (ofToken "tok").endpoint ["123"] := by
      decide +kernel
    obtain ⟨_, _, _, _, hurl⟩ :=
      @endpoint_eq (ofToken "tok") defaultBase _ read_defaultBaseUrl rfl ["123"]
    exact h (ofToken "tok") "12\t3" "123" _ _ (by decide) (htab.trans hurl) hurl rfl

end Client
end ThreatGraph
