import ThreatGraph.Proofs.Lines
import ThreatGraph.Proofs.Server

/-!
# Details in chunks

Ids are looked up in chunks of the size of a page.  A chunk prints the details of its ids, so the
size does not matter, as long as no chunk has an id twice: a lookup has one member for it, which is
used up when the id is met first.
-/

namespace ThreatGraph
namespace Command

open Json (Value Members)
open Web (Request Response Url)

variable {server : Server} {known : String → Option Value}

namespace Setup

variable {s : Setup} {args ids : List String}

def withPageSize (s : Setup) (size : Nat) : Setup := { s with query.pageSize := size }

/-- The ids that are asked for: those that are given, or those on the lines of the input. -/
def asked (s : Setup) (args : List String) : Except Report (List String) :=
  if args.isEmpty then inputLines s.input else .ok args

/-- What is printed of an id: its descriptor if that lies in the window. -/
def detailLines (s : Setup) (known : String → Option Value) (id : String) : List String :=
  (((described s.query known id).filter (s.created.contains s.now)).map (·.line)).toList

theorem printDescriptors_prints (s : Setup) (ds : List Descriptor) :
    Prints server (s.printDescriptors ds) []
      ((ds.filter (s.created.contains s.now)).map (·.line)) () := by
  rw [List.map_eq_flatMap]
  exact .forM_silent fun d _ => .printText (splitLines_text _)

theorem map_described (s : Setup) (known : String → Option Value) (ids : List String) :
    ((ids.filterMap (described s.query known)).filter (s.created.contains s.now)).map (·.line) =
      ids.flatMap (s.detailLines known) := by
  induction ids with
  | nil => rfl
  | cons id ids ih =>
    rw [List.flatMap_cons, ← ih, detailLines]
    cases hd : described s.query known id with
    | none =>
      rw [List.filterMap_cons_none hd]
      rfl
    | some d =>
      rw [List.filterMap_cons_some hd, List.filter_cons, Option.filter_some]
      split <;> rfl

def printDetails (s : Setup) (ids : List String) : Run Unit := do
  let ds ← Command.exchange (during fetchingDetails) (s.client.descriptorsOfIds ids s.query)
  s.printDescriptors ds

theorem printDetails_of_asks {requests : List Request} {ds : List Descriptor}
    (h : Asks server (s.client.descriptorsOfIds ids s.query).run requests (.ok ds)) :
    Prints server (s.printDetails ids) requests
      ((ds.filter (s.created.contains s.now)).map (·.line)) () := by
  have hfetch : Prints server (Command.exchange (during fetchingDetails)
      (s.client.descriptorsOfIds ids s.query)) _ _ _ := .exchange h
  exact hfetch.askThenPrint (s.printDescriptors_prints ds)

theorem printDetails_prints (hwhole : Whole ids)
    (hanswers : server.AnswersLookup s.client known ids) (hurl : s.client.CanLookUp ids)
    (honce : KnownOnce known ids) (hnormal : Normalizing s.query known ids) :
    Prints server (s.printDetails ids) (s.client.lookupRequests ids)
      (ids.flatMap (s.detailLines known)) () := by
  rw [← map_described]
  exact printDetails_of_asks
    (Client.descriptorsOfIds_known hwhole hanswers hurl honce hnormal)

theorem runFrom_idsToDetails (hids : s.asked args = .ok ids) (out : List String) (t : Traffic) :
    runFrom (s.idsToDetails args) out t =
      runFrom ((chunks s.query.pageSize ids).forM s.printDetails) out t := by
  unfold asked at hids
  unfold idsToDetails
  split at hids
  · next hempty =>
    rw [if_pos hempty, hids]
    rfl
  · next hempty =>
    obtain rfl := Except.ok.inj hids
    rw [if_neg hempty]
    rfl

theorem idsToDetails_chunks (hids : s.asked args = .ok ids) {requests : List String → List Request}
    {lines : List String → List String}
    (h : ∀ chunk ∈ chunks s.query.pageSize ids,
      Prints server (s.printDetails chunk) (requests chunk) (lines chunk) ()) :
    Prints server (s.idsToDetails args) ((chunks s.query.pageSize ids).flatMap requests)
      ((chunks s.query.pageSize ids).flatMap lines) () := by
  intro rest out t ht
  rw [runFrom_idsToDetails hids]
  exact Prints.forM h rest out t ht

theorem idsToDetails_prints (hids : s.asked args = .ok ids)
    (hwhole : Whole ids) (hnormal : Normalizing s.query known ids)
    (hknows : server.Knows s.client known)
    (hcan : ∀ chunk ∈ chunks s.query.pageSize ids, s.client.CanLookUp chunk)
    (honce : ∀ chunk ∈ chunks s.query.pageSize ids, KnownOnce known chunk) :
    Prints server (s.idsToDetails args)
      ((chunks s.query.pageSize ids).flatMap s.client.lookupRequests)
      (ids.flatMap (s.detailLines known)) () := by
  have hmem : ∀ chunk ∈ chunks s.query.pageSize ids, ∀ id ∈ chunk, id ∈ ids := by
    intro chunk hchunk id hid
    rw [← chunks_flatten s.query.pageSize ids]
    exact List.mem_flatten_of_mem hchunk hid
  have hlines : ids.flatMap (s.detailLines known) =
      (chunks s.query.pageSize ids).flatMap fun chunk => chunk.flatMap (s.detailLines known) := by
    rw [← List.flatMap_assoc, List.flatMap_id', chunks_flatten]
  rw [hlines]
  exact idsToDetails_chunks hids fun chunk hchunk =>
    have hwhole : Whole chunk := fun id hid => hwhole id (hmem chunk hchunk id hid)
    printDetails_prints hwhole (hknows chunk hwhole) (hcan chunk hchunk) (honce chunk hchunk)
      fun id hid => hnormal id (hmem chunk hchunk id hid)

end Setup

/-- The details of some ids are printed in their order, whatever the size of the chunks: those of an
id that stands there again are printed again, unless that is in the same chunk. -/
theorem details_of_any_size {s : Setup} {args ids : List String} (hids : s.asked args = .ok ids)
    (hwhole : Whole ids) (hnormal : Normalizing s.query known ids)
    (hknows : server.Knows s.client known) (size : Nat)
    (hcan : ∀ chunk ∈ chunks size ids, s.client.CanLookUp chunk)
    (honce : ∀ chunk ∈ chunks size ids, KnownOnce known chunk) :
    Serves server ((s.withPageSize size).idsToDetails args) (.ok ())
      (ids.flatMap (s.detailLines known)) := by
  have hprints : Prints server ((s.withPageSize size).idsToDetails args) _ _ () :=
    Setup.idsToDetails_prints (s := s.withPageSize size) hids hwhole hnormal hknows hcan honce
  exact hprints.serves

/-- A server that answers every lookup with the same object. -/
def oneDescriptor : Server :=
  fun _ => ⟨200, Text.Utf8.encode "\x7b\"1\":\x7b\x7d\x7d".toList, true⟩

def knowsOne (id : String) : Option Value := if id = "1" then some (.object []) else none

theorem oneDescriptor_answered (url : Url) :
    oneDescriptor.Answers url (.object [("1", .object [])]) := by
  have hbody : readBody ⟨200, Text.Utf8.encode "\x7b\"1\":\x7b\x7d\x7d".toList, true⟩ =
      .ok (.object [("1", .object [])]) := rfl
  exact ⟨rfl, hbody⟩

theorem oneDescriptor_knows (c : Client) : oneDescriptor.Knows c knowsOne := by
  intro ids _ url _
  refine ⟨_, oneDescriptor_answered url, fun id _ => ?_⟩
  unfold knowsOne
  by_cases hid : id = "1"
  · subst hid
    rfl
  · rw [if_neg hid]
    simp [Members.get?, Ne.symm hid]

def bare : Setup := ⟨.ofToken "tok", {}, ⟨none, none⟩, 0, []⟩

def descriptorOne : Descriptor := { (default : Descriptor) with id := "1" }

theorem normalize_one :
    Descriptor.normalize (withId "1" (.object [])) true = .ok descriptorOne := by
  decide +kernel

theorem knowsOne_normal (ids : List String) : Normalizing bare.query knowsOne ids := by
  intro id _ raw hraw
  unfold knowsOne at hraw
  split at hraw
  · next hid =>
    subst hid
    obtain rfl := Option.some.inj hraw
    exact ⟨_, normalize_one⟩
  · cases hraw

/-- The second time, there is nothing left of an id. -/
theorem collect_twice {opts : QueryOptions} (h : opts.includeIndicator = true) (t : Traffic) :
    ((collectDescriptors opts ["1", "1"] [("1", .object [])]).run.run t).1 =
      .ok [descriptorOne] := by
  have hfirst : Members.get? "1" [("1", Value.object [])] = some (.object []) := rfl
  unfold collectDescriptors
  rw [hfirst]
  simp only
  rw [run_exchange_bind, run_ofExcept, h, normalize_one]
  rfl

theorem bare_canLookUp {ids : List String}
    (h : (Web.Form.encodePair ("ids", String.intercalate "," ids)).length ≤ 1000) :
    bare.client.CanLookUp ids := by
  have hurl : bare.client.endpoint [] = .ok
      ⟨"https".toList, some ⟨none, .name "graph.facebook.com".toList, none⟩,
        .segments ["v6.0".toList, []], some "access_token=tok".toList, none⟩ := rfl
  have hlength : (Url.withoutUserinfo ⟨"https".toList,
      some ⟨none, .name "graph.facebook.com".toList, none⟩, .segments ["v6.0".toList, []],
      some "access_token=tok".toList, none⟩).print.length = 49 := rfl
  refine (Client.canLookUp_iff hurl).2 ⟨by decide, by decide, ?_⟩
  rw [hlength, Client.length_fields, Url.maxLength]
  omega

/-- An id that stands there again in another chunk is printed again. -/
theorem details_of_three_ids :
    Serves oneDescriptor ((bare.withPageSize 2).idsToDetails ["1", "2", "1"]) (.ok ())
      (["1", "2", "1"].flatMap (bare.detailLines knowsOne)) := by
  have hshort : ∀ chunk ∈ chunks 2 ["1", "2", "1"],
      (Web.Form.encodePair ("ids", String.intercalate "," chunk)).length ≤ 1000 := by
    decide +kernel
  exact details_of_any_size rfl (by decide) (knowsOne_normal _)
    (oneDescriptor_knows _) 2 (fun chunk hchunk => bare_canLookUp (hshort chunk hchunk))
    (by decide +kernel)

/-- With an id twice in a chunk, fewer lines are printed than in smaller chunks. -/
theorem repeated_ids_lost :
    ¬ ∀ (s : Setup) (server : Server) (known : String → Option Value) (args ids : List String)
        (size size' : Nat) (lines lines' : List String), s.asked args = .ok ids →
        Whole ids → Normalizing s.query known ids →
        server.Knows s.client known →
        Serves server ((s.withPageSize size).idsToDetails args) (.ok ()) lines →
        Serves server ((s.withPageSize size').idsToDetails args) (.ok ()) lines' →
        lines = lines' := by
  intro h
  have hshort : ∀ chunk ∈ chunks 1 ["1", "1"],
      (Web.Form.encodePair ("ids", String.intercalate "," chunk)).length ≤ 1000 := by
    decide +kernel
  have hsingles : Prints oneDescriptor ((bare.withPageSize 1).idsToDetails ["1", "1"]) _ _ () :=
    Setup.idsToDetails_prints (s := bare.withPageSize 1) rfl (by decide) (knowsOne_normal _)
      (oneDescriptor_knows _) (fun chunk hchunk => bare_canLookUp (hshort chunk hchunk))
      (by decide +kernel)
  obtain ⟨url, hurl, hfault⟩ := @bare_canLookUp ["1", "1"] (by decide +kernel)
  have hasks : Asks oneDescriptor
      (bare.client.descriptorsOfIds ["1", "1"] (bare.withPageSize 2).query).run _ _ :=
    Client.descriptorsOfIds_asks (by decide) hurl hfault (oneDescriptor_answered url)
      (collect_twice rfl)
  have hchunks : chunks 2 ["1", "1"] = [["1", "1"]] := by decide +kernel
  have hchunk : ∀ chunk ∈ chunks 2 ["1", "1"],
      Prints oneDescriptor ((bare.withPageSize 2).printDetails chunk)
        (bare.client.lookupRequests ["1", "1"])
        (([descriptorOne].filter (bare.created.contains bare.now)).map (·.line)) () := by
    intro chunk hchunk
    rw [hchunks] at hchunk
    obtain rfl := List.mem_singleton.1 hchunk
    exact Setup.printDetails_of_asks hasks
  have hpair : Prints oneDescriptor ((bare.withPageSize 2).idsToDetails ["1", "1"]) _ _ () :=
    Setup.idsToDetails_chunks (s := bare.withPageSize 2) rfl hchunk
  have hsame := h bare oneDescriptor knowsOne ["1", "1"] ["1", "1"] 1 2 _ _ rfl (by decide)
    (knowsOne_normal _) (oneDescriptor_knows _) hsingles.serves hpair.serves
  exact absurd (congrArg List.length hsame) (by decide +kernel)

end Command
end ThreatGraph
