import ThreatGraph.Proofs.Grammar
import ThreatGraph.Proofs.Server

/-!
# What a lookup gives

A lookup makes one read, and takes from the object that comes back the members with the names that
it asked for.  Each of the distinct ids, in the order in which they first occur, gives the
normalized form of its member; the first one that has no normal form is the error.
-/

namespace ThreatGraph

open Json (Value Members)
open Web (Url redact)

/-- What a member is read as under its id.  An object without an id gets this one; with an id of its
own it stays as it is, and so does whatever is no object. -/
inductive Identified (id : String) : Value → Value → Prop
  | object {ms ms' : Members Value}
    (h : ∀ name, Members.get? name ms' = if name = "id" then
      (Members.get? "id" ms).or (some (.string id)) else Members.get? name ms) :
    Identified id (.object ms) (.object ms')
  | other {v : Value} (h : ∀ ms, v ≠ .object ms) : Identified id v v

theorem identified_withId (id : String) (raw : Value) : Identified id raw (withId id raw) := by
  cases raw with
  | object ms =>
    cases hid : Members.get? "id" ms with
    | none =>
      simp only [withId, hid, Option.isSome_none, Bool.false_eq_true, if_false]
      refine .object fun name => ?_
      rw [Members.get?_insert, hid]
      by_cases hname : name = "id"
      · simp [hname]
      · simp [hname, Ne.symm hname]
    | some v =>
      simp only [withId, hid, Option.isSome_some, if_true]
      refine .object fun name => ?_
      rw [hid]
      by_cases hname : name = "id"
      · simp [hname, hid]
      · simp [hname]
  | _ => exact .other (by simp)

namespace Descriptor

theorem normalize_object_congr {ms ms' : Members Value}
    (h : ∀ name, Members.get? name ms = Members.get? name ms') (wanted : Bool) :
    normalize (.object ms) wanted = normalize (.object ms') wanted := by
  have hsorted : Members.sorted ms = Members.sorted ms' :=
    (Members.ordered_sorted ms).ext (Members.ordered_sorted ms') (by simpa using h)
  simp only [normalize, hsorted]

end Descriptor

theorem Identified.normalize_eq {id : String} {raw v v' : Value} (h : Identified id raw v)
    (h' : Identified id raw v') (wanted : Bool) :
    Descriptor.normalize v wanted = Descriptor.normalize v' wanted := by
  cases h with
  | object hget =>
    cases h' with
    | object hget' =>
      exact Descriptor.normalize_object_congr (fun name => (hget name).trans (hget' name).symm) _
    | other hne => exact absurd rfl (hne _)
  | other hne =>
    cases h' with
    | object => exact absurd rfl (hne _)
    | other => rfl

section Collecting

variable (opts : QueryOptions) (byId : Members Value)

/-- What the member of this name is normalized to. -/
def ReadsMember (id : String) (result : Except InputError Descriptor) : Prop :=
  ∃ raw v, Members.get? id byId = some raw ∧ Identified id raw v ∧
    Descriptor.normalize v opts.includeIndicator = result

/-- The distinct ids of which the object has a member, in the order in which they first occur. -/
def usedIds (ids : List String) : List String :=
  (ids.filter fun id => (Members.get? id byId).isSome).eraseDups

/-- What is collected for some ids: all of their descriptors, or the error of the first member that
has no normal form. -/
structure Collects (ids : List String) (result : Except ClientError (List Descriptor)) : Prop where
  ok_iff : ∀ ds, result = .ok ds ↔
    List.Forall₂ (fun id d => ReadsMember opts byId id (.ok d)) (usedIds byId ids) ds
  error_iff : ∀ e, result = .error e ↔ ∃ front id back m,
    usedIds byId ids = front ++ id :: back ∧ (∀ i ∈ front, ∃ d, ReadsMember opts byId i (.ok d)) ∧
      ReadsMember opts byId id (.error m) ∧ e = .input m

def memberFor (id : String) : Except InputError Descriptor :=
  match Members.get? id byId with
  | some raw => Descriptor.normalize (withId id raw) opts.includeIndicator
  | none => .error (.malformedDescriptor .missingId)

end Collecting

section Collected

variable {opts : QueryOptions} {byId : Members Value} {id : String} {ids : List String}

theorem mem_usedIds : id ∈ usedIds byId ids ↔ id ∈ ids ∧ (Members.get? id byId).isSome = true := by
  rw [usedIds, List.mem_eraseDups, List.mem_filter]

theorem readsMember_iff (h : id ∈ usedIds byId ids) (result : Except InputError Descriptor) :
    ReadsMember opts byId id result ↔ memberFor opts byId id = result := by
  obtain ⟨raw, hraw⟩ := Option.isSome_iff_exists.1 (mem_usedIds.1 h).2
  simp only [memberFor, hraw]
  constructor
  · rintro ⟨raw', v, hraw', hv, hresult⟩
    obtain rfl := Option.some.inj (hraw.symm.trans hraw')
    rw [(identified_withId id raw).normalize_eq hv, hresult]
  · exact fun hresult => ⟨raw, _, hraw, identified_withId id raw, hresult⟩

theorem usedIds_cons_absent (h : Members.get? id byId = none) :
    usedIds byId (id :: ids) = usedIds byId ids := by
  rw [usedIds, List.filter_cons_of_neg (by simp [h]), usedIds]

theorem usedIds_cons_present {raw : Value} (h : Members.get? id byId = some raw) :
    usedIds byId (id :: ids) = id :: usedIds (Members.erase id byId) ids := by
  have hrest : (ids.filter fun i => (Members.get? i (Members.erase id byId)).isSome) =
      (ids.filter fun i => (Members.get? i byId).isSome).filter fun i => !i == id := by
    rw [List.filter_filter]
    refine List.filter_congr fun i _ => ?_
    rw [Members.get?_erase]
    by_cases hi : i = id <;> simp [hi]
  rw [usedIds, List.filter_cons_of_pos (by simp [h]), List.eraseDups_cons, usedIds, hrest]

theorem memberFor_erase {i : String} (h : i ∈ usedIds (Members.erase id byId) ids) :
    memberFor opts (Members.erase id byId) i = memberFor opts byId i := by
  have hpresent := (mem_usedIds.1 h).2
  rw [Members.get?_erase] at hpresent
  by_cases hi : i = id
  · simp [hi] at hpresent
  · simp only [memberFor, Members.get?_erase, if_neg hi]

theorem collectDescriptors_mapM (t : Traffic) :
    ((collectDescriptors opts ids byId).run.run t).1 =
      ((usedIds byId ids).mapM (memberFor opts byId)).mapError .input := by
  -- On the ids, for every object, since each turn takes a member out of it.
  induction ids generalizing byId t with
  | nil => rfl
  | cons id ids ih =>
    unfold collectDescriptors
    cases hraw : Members.get? id byId with
    | none =>
      rw [usedIds_cons_absent hraw]
      exact ih _
    | some raw =>
      have hmember : memberFor opts byId id =
          Descriptor.normalize (withId id raw) opts.includeIndicator := by
        simp only [memberFor, hraw]
      rw [usedIds_cons_present hraw, List.mapM_cons, hmember,
        ← mapM_eq_of_forall₂ (List.forall₂_same.2 fun i hi => memberFor_erase hi)]
      rw [run_exchange_bind, run_ofExcept]
      cases Descriptor.normalize (withId id raw) opts.includeIndicator with
      | error m => rfl
      | ok d =>
        simp only [mapError_ok]
        rw [run_lift_bind, run_exchange_bind]
        generalize ((noteIf opts.verbose (.descriptor d.line)).run t).2 = u
        have hrest := @ih (Members.erase id byId) u
        rcases hr : (collectDescriptors opts ids (Members.erase id byId)).run.run u with ⟨result, w⟩
        rw [hr] at hrest
        obtain rfl : result = _ := hrest
        cases (usedIds (Members.erase id byId) ids).mapM
          (memberFor opts (Members.erase id byId)) <;> rfl

theorem collectDescriptors_collects (opts : QueryOptions) (ids : List String)
    (byId : Members Value) (t : Traffic) :
    Collects opts byId ids ((collectDescriptors opts ids byId).run.run t).1 := by
  have hreads := fun id (h : id ∈ usedIds byId ids) => @readsMember_iff opts byId id ids h
  rw [collectDescriptors_mapM]
  constructor
  · intro ds
    rw [mapError_eq_ok_iff, mapM_ok_iff]
    exact forall₂_congr fun id hid d => (hreads id hid _).symm
  · intro e
    simp only [mapError_eq_error_iff, mapM_error_iff]
    constructor
    · rintro ⟨m, ⟨front, id, back, hused, hfront, hid⟩, he⟩
      rw [hused] at hreads
      refine ⟨front, id, back, m, hused, fun i hi => ?_, ?_, he⟩
      · obtain ⟨d, hd⟩ := hfront i hi
        exact ⟨d, (hreads i (List.mem_append_left _ hi) _).2 hd⟩
      · exact (hreads id (List.mem_append_right _ List.mem_cons_self) _).2 hid
    · rintro ⟨front, id, back, m, hused, hfront, hid, he⟩
      rw [hused] at hreads
      refine ⟨m, ⟨front, id, back, hused, fun i hi => ?_, ?_⟩, he⟩
      · obtain ⟨d, hd⟩ := hfront i hi
        exact ⟨d, (hreads i (List.mem_append_left _ hi) _).1 hd⟩
      · exact (hreads id (List.mem_append_right _ List.mem_cons_self) _).1 hid

end Collected

namespace Client

/-- What the read of a lookup makes of it. -/
inductive LookupResult (opts : QueryOptions) (ids : List String) :
    Except ClientError Value → Except ClientError (List Descriptor) → Prop
  | failed (e : ClientError) : LookupResult opts ids (.error e) (.error e)
  | object {byId : Members Value} {result : Except ClientError (List Descriptor)}
    (h : Collects opts byId ids result) : LookupResult opts ids (.ok (.object byId)) result
  | other {v : Value} (h : ∀ byId, v ≠ .object byId) :
    LookupResult opts ids (.ok v) (.error (.unexpectedShape .lookupNotObject))

/-- What a lookup comes to, and the traffic that it leaves. -/
inductive LooksUp (c : Client) (ids : List String) (opts : QueryOptions) (t : Traffic) :
    Except ClientError (List Descriptor) × Traffic → Prop
  /-- The first id that is no whole number is refused before anything is sent. -/
  | malformed {front back : List String} {id : String} (hids : ids = front ++ id :: back)
    (hfront : Whole front) (hid : Text.readInt64? id = none) :
    LooksUp c ids opts t (.error (.input (.malformedDescriptorId id)), t)
  /-- Without a URL for the lookup, nothing is sent either. -/
  | unlocated {e : ClientError} (hids : Whole ids) (hurl : c.lookupUrl ids = .error e) :
    LooksUp c ids opts t (.error e, t)
  /-- Otherwise the URL is read once, with no traffic but that of the read.  It is requested at least
  once, unless the transfer itself fails. -/
  | read {url : Url} {fetched : Except ClientError Value} {start u w : Traffic} {attempts : Nat}
    {result : Except ClientError (List Descriptor)} (hids : Whole ids)
    (hurl : c.lookupUrl ids = .ok url) (hstart : SameTraffic start t)
    (hfetch : (c.fetchJson url).run.run start = (fetched, u)) (hafter : SameTraffic w u)
    (hattempts : attempts ≤ max 1 c.maxAttempts)
    (htried : 0 < attempts ∨ ∃ fault, fetched = .error (.transfer fault))
    (hsent : w.sent = t.sent ++ List.replicate attempts (getOf url).onWire)
    (hresult : LookupResult opts ids fetched result) : LooksUp c ids opts t (result, w)

theorem whole_of_malformedId? {ids : List String} (h : malformedId? ids = none) : Whole ids := by
  intro id hid
  have hread := List.find?_eq_none.1 h id hid
  cases hn : Text.readInt64? id with
  | none => simp [hn] at hread
  | some n => rfl

theorem malformedId?_eq_some {ids : List String} {id : String} (h : malformedId? ids = some id) :
    ∃ front back, ids = front ++ id :: back ∧ Whole front ∧ Text.readInt64? id = none := by
  obtain ⟨hid, front, back, hids, hfront⟩ := List.find?_eq_some_iff_append.1 h
  refine ⟨front, back, hids, fun i hi => ?_, by simpa using hid⟩
  have hi := hfront i hi
  cases hread : Text.readInt64? i with
  | none => simp [hread] at hi
  | some n => rfl

/-- Every lookup of every client goes one of these ways. -/
theorem descriptorsOfIds_looksUp (c : Client) (ids : List String) (opts : QueryOptions)
    (t : Traffic) : LooksUp c ids opts t ((c.descriptorsOfIds ids opts).run.run t) := by
  rw [descriptorsOfIds_run]
  cases hmalformed : malformedId? ids with
  | some id =>
    obtain ⟨front, back, hids, hfront, hid⟩ := malformedId?_eq_some hmalformed
    exact .malformed hids hfront hid
  | none =>
    have hwhole := whole_of_malformedId? hmalformed
    cases hurl : c.lookupUrl ids with
    | error e => exact .unlocated hwhole hurl
    | ok url =>
      have hstart := SameTraffic.noteIf opts.showUrls (.request (redact url)) t
      obtain ⟨n, hn, hsent, htried⟩ := c.fetchJson_sent url
        (if opts.showUrls then t.note (.request (redact url)) else t)
      rw [hstart.2] at hsent
      simp only
      rcases hfetch : (c.fetchJson url).run.run
        (if opts.showUrls then t.note (.request (redact url)) else t) with ⟨e | v, u⟩ <;>
        rw [hfetch] at hsent htried
      · exact .read hwhole hurl hstart hfetch .rfl hn htried hsent (.failed e)
      · cases v with
        | object byId =>
          have hsilent := silent_collectDescriptors opts ids byId u
          exact .read hwhole hurl hstart hfetch hsilent hn htried (hsilent.2.trans hsent)
            (.object (collectDescriptors_collects opts ids byId u))
        | _ => exact .read hwhole hurl hstart hfetch .rfl hn htried hsent (.other (by simp))

end Client
end ThreatGraph
