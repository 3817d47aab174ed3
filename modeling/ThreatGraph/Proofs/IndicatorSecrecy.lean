import ThreatGraph.Command.Run
import ThreatGraph.Proofs.HiddenMembers

/-!
# The hidden indicator stays hidden

Replies that differ in the indicators of descriptors, or in the names of tagged objects, are twins.
Where the indicator is not wanted, a read makes the same of twins: the same requests, results and
errors, the same log, and for a command the same output.
-/

namespace ThreatGraph

open Json (Value Members)
open Web (Network Response Url)

variable {ε α β α' β' : Type}

/-- What a name finds in two responses: the same, items that may differ, or a descriptor, which is
under its id and so under no name that a page has. -/
inductive MemberTwins (item : Value → Value → Prop) (name : String) :
    Option Value → Option Value → Prop
  | same (o : Option Value) : MemberTwins item name o o
  | items {items items' : List Value} (hname : name = "data") (h : List.Forall₂ item items items') :
    MemberTwins item name (some (.array items)) (some (.array items'))
  | descriptor {raw raw' : Value} (hname : name ∉ ["data", "paging"])
    (h : DescriptorTwins raw raw') : MemberTwins item name (some raw) (some raw')

inductive BodyTwins (item : Value → Value → Prop) : Value → Value → Prop
  | same (v : Value) : BodyTwins item v v
  | members {ms ms' : Members Value}
    (h : ∀ name, MemberTwins item name (ms.get? name) (ms'.get? name)) :
    BodyTwins item (.object ms) (.object ms')

/-- Responses that are the same, or that have twins for their bodies.  A failure is reported with
the body that came with it, so only where `failing` may those of failures differ too. -/
inductive ResponseTwins (item : Value → Value → Prop) (failing : Prop) : Response → Response → Prop
  | same (r : Response) : ResponseTwins item failing r r
  | success {r r' : Response} {v v' : Value} (hstatus : r.status = r'.status)
    (hsuccess : Web.Status.isSuccess r.status = true) (hv : readBody r = .ok v)
    (hv' : readBody r' = .ok v') (h : BodyTwins item v v') : ResponseTwins item failing r r'
  | failure {r r' : Response} {v v' : Value} (hfailing : failing) (hstatus : r.status = r'.status)
    (hfailure : Web.Status.isSuccess r.status = false) (hv : errorBody r = some v)
    (hv' : errorBody r' = some v') (h : BodyTwins item v v') : ResponseTwins item failing r r'

/-- Networks that reply with twins. -/
abbrev NetworkTwins (item : Value → Value → Prop) (failing : Prop) : Network → Network → Prop :=
  AlikeNetworks (ResponseTwins item failing)

/-- Errors that are the same, or where `failing`, the same but for twins that came with them. -/
inductive SameButBody (item : Value → Value → Prop) (failing : Prop) :
    ClientError → ClientError → Prop
  | same (e : ClientError) : SameButBody item failing e e
  | body {status : Nat} {url : String} {v v' : Value} (hfailing : failing)
    (h : BodyTwins item v v') :
    SameButBody item failing (.status ⟨status, url, some v⟩) (.status ⟨status, url, some v'⟩)

theorem BodyTwins.get? {item : Value → Value → Prop} {v v' : Value} (h : BodyTwins item v v')
    (name : String) : MemberTwins item name (v.get? name) (v'.get? name) := by
  cases h with
  | same => exact .same _
  | members h => exact h name

theorem MemberTwins.eq {item : Value → Value → Prop} {o o' : Option Value}
    (h : MemberTwins item "paging" o o') : o = o' := by
  cases h with
  | same => rfl
  | items hname _ => exact absurd hname (by decide)
  | descriptor hname _ => exact absurd hname (by decide)

/-- Failures of which no run has one alone. -/
def Failures.Shared (F : Failures ε) : Prop := ∀ e, ¬ F.left e ∧ ¬ F.right e

def equalFailures : Failures ε := ⟨Eq, fun _ => False, fun _ => False⟩

/-- Failures that have to be equal but for their bodies. -/
def bodyFailures (item : Value → Value → Prop) (failing : Prop) : Failures ClientError :=
  ⟨SameButBody item failing, fun _ => False, fun _ => False⟩

theorem equalFailures_shared : (equalFailures : Failures ε).Shared := fun _ => ⟨id, id⟩

section Pairings

variable {item : Value → Value → Prop} {failing : Prop}

theorem bodyFailures_shared : (bodyFailures item failing).Shared := fun _ => ⟨id, id⟩

theorem alikeBody_refl (x : Except ClientError α) : (bodyFailures item failing).Alike Eq x x :=
  Failures.alike_refl SameButBody.same x

theorem pageData_twins (hitem : ∀ v, item v v) {v v' : Value} (h : BodyTwins item v v') :
    (bodyFailures item failing).Alike (List.Forall₂ item) (pageData v) (pageData v') := by
  have hdata := h.get? "data"
  unfold pageData
  generalize v.get? "data" = o at hdata ⊢
  generalize v'.get? "data" = o' at hdata ⊢
  cases hdata with
  | same =>
    refine (alikeBody_refl _).imp ?_
    rintro items _ rfl
    exact List.forall₂_same.2 fun v _ => hitem v
  | items _ h => exact .ok h
  | descriptor hname _ => exact absurd hname (by decide)

theorem readPage_twins (hitem : ∀ v, item v v) {v v' : Value} (h : BodyTwins item v v')
    (index : Nat) :
    (bodyFailures item failing).Alike (AlikePages item) (readPage index v) (readPage index v') := by
  have hdata := @pageData_twins item failing hitem v v' h
  have hpaging := (h.get? "paging").eq
  have hlink : pageLink v = pageLink v' := by
    unfold pageLink
    rw [hpaging]
  unfold readPage
  rw [hlink]
  generalize pageData v = x at hdata ⊢
  generalize pageData v' = y at hdata ⊢
  cases hdata with
  | error h => exact .error h
  | ok h =>
    cases pageLink v' with
    | error e => exact .error (.same e)
    | ok next => exact .ok ⟨rfl, h, rfl⟩

end Pairings

/-- Two runs with replies that are twins. -/
def indicatorPairing (item : Value → Value → Prop) (failing : Prop) (hitem : ∀ v, item v v) :
    Pairing where
  url := Eq
  response := ResponseTwins item failing
  value := BodyTwins item
  item := item
  failures := bodyFailures item failing
  url_refl := fun _ => rfl
  url_append := fun pairs h => congrArg (·.appendPairs pairs) h
  url_target := fun h => congrArg Url.target h
  url_redact := fun h => congrArg Web.redact h
  url_fault := by
    rintro u _ rfl
    cases hf : u.requestFault? with
    | some f => exact .refused hf hf (.same _)
    | none => exact .sendable hf hf (.same _) (.same _)
  same_refl := .same
  response_refl := .same
  response_status := by
    rintro r r' (_ | ⟨hstatus, -, -, -, -⟩ | ⟨-, hstatus, -, -, -, -⟩)
    · rfl
    · exact hstatus
    · exact hstatus
  response_body := by
    rintro r r' (_ | ⟨-, -, hv, hv', h⟩ | ⟨-, -, hfailure, -, -, -⟩) hsuccess
    · refine (alikeBody_refl _).imp ?_
      rintro v _ rfl
      exact .same v
    · rw [hv, hv']
      exact .ok h
    · rw [hfailure] at hsuccess
      cases hsuccess
  response_error := by
    rintro r r' (_ | ⟨-, hsuccess, -, -, -⟩ | ⟨hfailing, -, -, hv, hv', h⟩) hfailure url
    · exact .same _
    · rw [hsuccess] at hfailure
      cases hfailure
    · rw [hv, hv']
      exact .body hfailing h
  value_page := fun h index => readPage_twins hitem h index

/-- A session sends and logs the same on two networks, and gives results that are alike. -/
def SameRun (R : α → α → Prop) (s : Session α) (n n' : Network) : Prop :=
  R (s.run (.start n)).1 (s.run (.start n')).1 ∧
  (s.run (.start n)).2.sent = (s.run (.start n')).2.sent ∧
  (s.run (.start n)).2.log = (s.run (.start n')).2.log

section Reads

variable {item : Value → Value → Prop} {failing : Prop} {hitem : ∀ v, item v v} {F : Failures ε}

theorem sent_eq {t t' : Traffic} (ht : (indicatorPairing item failing hitem).Alongside t t') :
    t.sent = t'.sent := by
  have hsent := ht.sent
  have hrequests : ∀ r r', (indicatorPairing item failing hitem).Requests r r' → r = r' := by
    intro r r' ⟨hmethod, hurl, hform⟩
    have hurl : r.url = r'.url := hurl
    cases r
    cases r'
    simp_all
  have hequal := hsent.imp hrequests
  rwa [List.forall₂_eq_eq_eq] at hequal

theorem sameRun_of_together {R : α → α → Prop} {s : Session α}
    (hs : Together (indicatorPairing item failing hitem) R s s) {n n' : Network}
    (h : NetworkTwins item failing n n') : SameRun R s n n' := by
  rcases hs _ _ (Pairing.Alongside.start h) with ⟨hresult, ht⟩ | h
  · exact ⟨hresult, sent_eq ht, ht.log⟩
  · exact h.elim

/-- Runs part over a failure that one of them has alone, and over nothing else. -/
theorem InStep.together (hF : F.Shared) {R : α → β → Prop} {P : Pairing} {x : ExceptT ε Session α}
    {x' : ExceptT ε Session β} (h : InStep P F R x x') : Together P (F.Alike R) x.run x'.run := by
  refine h.imp (fun _ _ h => h) fun a b h => ?_
  rcases h with ⟨e, -, h⟩ | ⟨e, -, h⟩
  · exact (hF e).1 h
  · exact (hF e).2 h

theorem together_walk (hF : F.Shared) {R : α → β → Prop} {P : Pairing}
    {s : Session (Client.Walk ε α)} {s' : Session (Client.Walk ε β)}
    (h : Lockstep P (F.AlikeWalks R) F.PartedWalks s s') : Together P (F.AlikeWalks R) s s' := by
  refine h.imp (fun _ _ h => h) fun w w' h => ?_
  rcases h with ⟨e, -, h⟩ | ⟨e, -, h⟩
  · exact (hF e).1 h
  · exact (hF e).2 h

theorem peers_same (c : Client) : Peers (indicatorPairing item failing hitem) c c := by
  refine ⟨rfl, fun segments => ?_⟩
  exact alikeBody_refl (c.endpoint segments)

theorem readTags_twins (htag : ∀ v v', item v v' → TagRef.decode v = TagRef.decode v')
    {v v' : Value} (h : BodyTwins item v v') : readTags v = readTags v' := by
  have hdata := h.get? "data"
  unfold readTags
  generalize v.get? "data" = o at hdata ⊢
  generalize v'.get? "data" = o' at hdata ⊢
  cases hdata with
  | same => rfl
  | items _ h => exact congrArg some (mapM_eq_of_forall₂ (h.imp htag))
  | descriptor hname _ => exact absurd hname (by decide)

theorem lookup_twins {opts : QueryOptions} (hopts : opts.includeIndicator = false)
    {ids : List String} (hids : malformedId? ids = none) {v v' : Value}
    (h : BodyTwins item v v') :
    v = v' ∧ (∀ ms, v ≠ .object ms) ∨
      ∃ ms ms', v = .object ms ∧ v' = .object ms' ∧ AlikeLookups opts ids ms ms' := by
  have hwhole : ∀ id ∈ ids, (Text.readInt64? id).isSome := by
    intro id hid
    have hnot := List.find?_eq_none.1 hids id hid
    cases hread : Text.readInt64? id with
    | some n => rfl
    | none => simp [hread] at hnot
  have hmembers : ∀ ms ms' : Members Value,
      (∀ name, MemberTwins item name (ms.get? name) (ms'.get? name)) →
      AlikeLookups opts ids ms ms' := by
    intro ms ms' hms id hid
    have hfound := hms id
    have hnumber := hwhole id hid
    generalize ms.get? id = o at hfound ⊢
    generalize ms'.get? id = o' at hfound ⊢
    cases hfound with
    | same =>
      cases o with
      | none => exact .none
      | some raw => exact .some rfl
    | items hname _ =>
      rw [hname] at hnumber
      exact absurd hnumber (by decide)
    | descriptor _ htwins =>
      refine .some ?_
      unfold AlikeRaw
      rw [hopts]
      exact normalize_withId htwins
  cases h with
  | members hms => exact .inr ⟨_, _, rfl, rfl, hmembers _ _ hms⟩
  | same =>
    cases v with
    | object ms => exact .inr ⟨ms, ms, rfl, rfl, hmembers ms ms fun name => .same _⟩
    | _ => exact .inl ⟨rfl, fun ms => by simp⟩

theorem alikeRaw_of_twins {opts : QueryOptions} (hopts : opts.includeIndicator = false)
    {raw raw' : Value} (h : DescriptorTwins raw raw') : AlikeRaw opts raw raw' := by
  unfold AlikeRaw
  rw [hopts]
  exact normalize_twins h

end Reads

/-- A read of the client.  Listings are pulled page by page, as often as it says, and every page is
read. -/
inductive Read where
  | tagId (name : String)
  | objects (tag : String) (pulls : Nat)
  | ids (tag : String)
  | details (ids : List String)
  | results (params : Web.Form.Pairs) (pulls : Nat)
  | search (params : Web.Form.Pairs)

def readPulled (read : Page → Exchange α) :
    Except ClientError (Option Page) → Session (Except ClientError (Option α))
  | .error e => pure (.error e)
  | .ok none => pure (.ok none)
  | .ok (some page) => do
    let result ← (read page).run
    return result.map some

def pullEach (c : Client) (read : Page → Exchange α) :
    Nat → Listing → Session (List (Except ClientError (Option α)))
  | 0, _ => pure []
  | pulls + 1, l => do
    let (page, l) ← c.nextPage l
    let result ← readPulled read page
    let results ← pullEach c read pulls l
    return result :: results

def pullOpened (c : Client) (read : Page → Exchange α) (pulls : Nat) :
    Except ClientError Listing →
      Session (Except ClientError (List (Except ClientError (Option α))))
  | .error e => pure (.error e)
  | .ok l => do
    let results ← pullEach c read pulls l
    return .ok results

namespace Read

def Result : Read → Type
  | .tagId _ => Except ClientError (Option String)
  | .objects _ _ => Except ClientError (List (Except ClientError (Option (List TaggedObject))))
  | .ids _ => Client.Walk ClientError (List String)
  | .details _ => Except ClientError (List Descriptor)
  | .results _ _ => Except ClientError (List (Except ClientError (Option (List Descriptor))))
  | .search _ => Client.Walk ClientError (List Descriptor)

def run (c : Client) (opts : QueryOptions) : (r : Read) → Session r.Result
  | .tagId name => (c.tagId name opts.showUrls).run
  | .objects tag pulls =>
    pullOpened c (taggedDescriptors opts) pulls (c.taggedObjects tag opts)
  | .ids tag => c.descriptorIdsOfTag tag opts
  | .details wanted => (c.descriptorsOfIds wanted opts).run
  | .results params pulls =>
    pullOpened c (pageDescriptors opts) pulls (c.searchListing params opts)
  | .search params => c.search params opts

/-- Which items of pages may differ: search results are descriptors, other pages have tagged
objects. -/
def Twins : Read → Value → Value → Prop
  | .results _ _ => DescriptorTwins
  | .search _ => DescriptorTwins
  | _ => TaggedTwins

theorem twins_refl (r : Read) (v : Value) : r.Twins v v := by
  cases r with
  | results => exact SameBut.same v
  | search => exact SameBut.same v
  | _ => exact TaggedTwins.same v

/-- Results that are equal but for failures that are the same. -/
def Alike (F : Failures ClientError) : (r : Read) → r.Result → r.Result → Prop
  | .tagId _ => F.Alike Eq
  | .objects _ _ => F.Alike (List.Forall₂ (F.Alike Eq))
  | .ids _ => F.AlikeWalks Eq
  | .details _ => F.Alike Eq
  | .results _ _ => F.Alike (List.Forall₂ (F.Alike Eq))
  | .search _ => F.AlikeWalks Eq

/-- Results that are equal but for the bodies that came with errors, which are twins. -/
abbrev SameButBodies (r : Read) : r.Result → r.Result → Prop :=
  r.Alike (bodyFailures r.Twins True)

end Read

section Reads

variable {item : Value → Value → Prop} {failing : Prop} {hitem : ∀ v, item v v}

theorem SameButBody.eq {e e' : ClientError} (h : SameButBody item False e e') : e = e' := by
  cases h with
  | same => rfl
  | body hfailing _ => exact hfailing.elim

theorem alike_eq {F : Failures ε} (hF : ∀ e e', F.same e e' → e = e') {R : α → α → Prop}
    (hR : ∀ a b, R a b → a = b) {x y : Except ε α} (h : F.Alike R x y) : x = y := by
  cases h with
  | ok h => rw [hR _ _ h]
  | error h => rw [hF _ _ h]

theorem alikeWalks_eq {F : Failures ε} (hF : ∀ e e', F.same e e' → e = e')
    {w w' : Client.Walk ε α} (h : F.AlikeWalks Eq w w') : w = w' := by
  obtain ⟨hdelivered, hfailure⟩ := h
  rw [List.forall₂_eq_eq_eq] at hdelivered
  refine Prod.ext hdelivered ?_
  cases w
  cases w'
  cases hfailure with
  | none => rfl
  | some h => exact congrArg some (hF _ _ h)

theorem Read.eq_of_alike {r : Read} {x y : r.Result} (h : r.Alike (bodyFailures item False) x y) :
    x = y := by
  have hsame : ∀ e e', (bodyFailures item False).same e e' → e = e' := fun _ _ => SameButBody.eq
  have hpulled : ∀ {α : Type} (as bs : List (Except ClientError α)),
      List.Forall₂ ((bodyFailures item False).Alike Eq) as bs → as = bs := by
    intro α as bs h
    have hequal := h.imp fun a b hab => alike_eq hsame (fun _ _ h => h) hab
    rwa [List.forall₂_eq_eq_eq] at hequal
  cases r with
  | tagId => exact alike_eq hsame (fun _ _ h => h) h
  | objects => exact alike_eq hsame hpulled h
  | ids => exact alikeWalks_eq hsame h
  | details => exact alike_eq hsame (fun _ _ h => h) h
  | results => exact alike_eq hsame hpulled h
  | search => exact alikeWalks_eq hsame h

theorem readPulled_together {read : Page → Exchange α} {x x' : Except ClientError (Option Page)}
    (hread : ∀ p p', AlikePages item p p' →
      InStep (indicatorPairing item failing hitem) (bodyFailures item failing) Eq (read p)
        (read p'))
    (h : (bodyFailures item failing).Alike (Option.Rel (AlikePages item)) x x') :
    Together (indicatorPairing item failing hitem) ((bodyFailures item failing).Alike Eq)
      (readPulled read x) (readPulled read x') := by
  cases h with
  | error h => exact Lockstep.pure (.error h)
  | ok h =>
    cases h with
    | none => exact Lockstep.pure (.ok rfl)
    | some hp =>
      refine Lockstep.bind ((hread _ _ hp).together bodyFailures_shared) (fun a b hab => ?_)
        (fun _ _ h => h.elim)
      cases hab with
      | ok h => exact Lockstep.pure (.ok (congrArg some h))
      | error h => exact Lockstep.pure (.error h)

theorem pullEach_together {read : Page → Exchange α}
    (hread : ∀ p p', AlikePages item p p' →
      InStep (indicatorPairing item failing hitem) (bodyFailures item failing) Eq (read p)
        (read p'))
    (c : Client) (pulls : Nat) {l l' : Listing}
    (hl : (indicatorPairing item failing hitem).Listings l l') :
    Together (indicatorPairing item failing hitem)
      (List.Forall₂ ((bodyFailures item failing).Alike Eq)) (pullEach c read pulls l)
      (pullEach c read pulls l') := by
  induction pulls generalizing l l' with
  | zero => exact Lockstep.pure .nil
  | succ pulls ih =>
    have hnext := (peers_same c).nextPage hl
    have hnever : ∀ x y : Except ClientError (Option Page) × Listing,
        (bodyFailures item failing).Parted x.1 y.1 → False := by
      rintro x y (⟨e, -, h⟩ | ⟨e, -, h⟩) <;> exact h
    refine Lockstep.bind hnext (fun x y hxy => ?_) (fun x y hxy => (hnever x y hxy).elim)
    obtain ⟨page, l⟩ := x
    obtain ⟨page', l'⟩ := y
    obtain ⟨hpage, hl⟩ := hxy
    refine Lockstep.bind (readPulled_together hread hpage) (fun a b hab => ?_)
      (fun _ _ h => h.elim)
    refine Lockstep.bind (ih hl) (fun as bs habs => ?_) (fun _ _ h => h.elim)
    exact Lockstep.pure (.cons hab habs)

theorem pullOpened_together {read : Page → Exchange α}
    (hread : ∀ p p', AlikePages item p p' →
      InStep (indicatorPairing item failing hitem) (bodyFailures item failing) Eq (read p)
        (read p'))
    (c : Client) (pulls : Nat) (listing : Except ClientError Listing) :
    Together (indicatorPairing item failing hitem)
      ((bodyFailures item failing).Alike (List.Forall₂ ((bodyFailures item failing).Alike Eq)))
      (pullOpened c read pulls listing) (pullOpened c read pulls listing) := by
  cases listing with
  | error e => exact Lockstep.pure (.error (.same e))
  | ok l =>
    have hl : (indicatorPairing item failing hitem).Listings l l :=
      ⟨(indicatorPairing item failing hitem).links_refl _, rfl, rfl⟩
    refine Lockstep.bind (pullEach_together hread c pulls hl) (fun as bs habs => ?_)
      (fun _ _ h => h.elim)
    exact Lockstep.pure (.ok habs)

theorem tagRef_of_tagged (v v' : Value) (h : TaggedTwins v v') :
    TagRef.decode v = TagRef.decode v' :=
  TagRef.decode_twins (by decide) h.sameBut

variable {opts : QueryOptions}

theorem Read.together (c : Client) (hopts : opts.includeIndicator = false) (failing : Prop)
    (r : Read) :
    Together (indicatorPairing r.Twins failing r.twins_refl)
      (r.Alike (bodyFailures r.Twins failing)) (r.run c opts) (r.run c opts) := by
  have htagged : ∀ p p', AlikePages TaggedTwins p p' → AlikePages (AlikeTagged opts) p p' :=
    fun p p' hp => ⟨hp.index, hp.data.imp fun _ _ => alikeTagged_of_twins hopts, hp.next⟩
  have hraw : ∀ p p', AlikePages DescriptorTwins p p' → AlikePages (AlikeRaw opts) p p' :=
    fun p p' hp => ⟨hp.index, hp.data.imp fun _ _ => alikeRaw_of_twins hopts, hp.next⟩
  cases r with
  | tagId name =>
    refine ((peers_same c).tagId (fun v v' h => ?_) name _).together bodyFailures_shared
    exact readTags_twins tagRef_of_tagged h
  | objects tag pulls =>
    exact pullOpened_together (fun p p' hp => taggedDescriptors_inStep (htagged p p' hp)) c pulls _
  | ids tag =>
    refine together_walk bodyFailures_shared
      ((peers_same c).descriptorIdsOfTag (fun v v' h => ?_) tag)
    exact alikeTagged_of_twins hopts h
  | details wanted =>
    refine ((peers_same c).descriptorsOfIds fun hids v v' h => ?_).together bodyFailures_shared
    exact lookup_twins hopts hids h
  | results params pulls =>
    exact pullOpened_together (fun p p' hp => pageDescriptors_inStep (hraw p p' hp)) c pulls _
  | search params =>
    refine together_walk bodyFailures_shared ((peers_same c).search (fun v v' h => ?_) params)
    exact alikeRaw_of_twins hopts h

end Reads

namespace Command

/-- Two runs of a command that print the same and end alike. -/
def RunInStep (P : Pairing) (R : α → β → Prop) (x : Run α) (x' : Run β) : Prop :=
  ∀ lines, Together P
    (fun r r' => (equalFailures : Failures Report).Alike R r.1 r'.1 ∧ r.2 = r'.2)
    (x.run.run lines) (x'.run.run lines)

namespace RunInStep

variable {P : Pairing} {R : α → β → Prop}

theorem pure {a : α} {b : β} (h : R a b) : RunInStep P R (pure a) (pure b) :=
  fun _ => Lockstep.pure ⟨.ok h, rfl⟩

theorem fail (r : Report) : RunInStep P R (Command.fail r : Run α) (Command.fail r : Run β) :=
  fun _ => Lockstep.pure ⟨.error rfl, rfl⟩

theorem bind {R' : α' → β' → Prop} {x : Run α} {x' : Run β} {f : α → Run α'} {f' : β → Run β'}
    (hx : RunInStep P R x x') (hf : ∀ a b, R a b → RunInStep P R' (f a) (f' b)) :
    RunInStep P R' (x >>= f) (x' >>= f') := by
  intro lines
  unfold Together
  rw [ExceptT.run_bind, ExceptT.run_bind, StateT.run_bind, StateT.run_bind]
  refine Lockstep.bind (hx lines) (fun r r' hr => ?_) (fun _ _ h => h.elim)
  obtain ⟨result, lines⟩ := r
  obtain ⟨result', lines'⟩ := r'
  obtain ⟨hresult, hlines⟩ := hr
  obtain rfl : lines = lines' := hlines
  cases hresult with
  | error h => exact Lockstep.pure ⟨.error h, rfl⟩
  | ok h => exact hf _ _ h lines

theorem bindEq {R' : α' → β' → Prop} {x x' : Run α} {f : α → Run α'} {f' : α → Run β'}
    (hx : RunInStep P Eq x x') (hf : ∀ a, RunInStep P R' (f a) (f' a)) :
    RunInStep P R' (x >>= f) (x' >>= f') := by
  refine hx.bind fun a b hab => ?_
  rw [hab]
  exact hf b

theorem printText (text : String) : RunInStep P Eq (printText text) (printText text) :=
  fun _ => Lockstep.pure ⟨.ok rfl, rfl⟩

theorem inSession {s : Session α} {s' : Session β} (hs : Together P R s s') :
    RunInStep P R (inSession s) (inSession s') := by
  intro lines
  have hrun : ∀ {α : Type} (s : Session α), (Command.inSession s).run.run lines =
      s >>= fun a => Pure.pure (.ok a, lines) := fun _ => rfl
  unfold Together
  rw [hrun, hrun]
  refine Lockstep.bind hs (fun a b hab => ?_) (fun _ _ h => h.elim)
  exact Lockstep.pure ⟨.ok hab, rfl⟩

theorem ofExcept {ε : Type} (report : ε → Report) (x : Except ε α) :
    RunInStep P Eq (ofExcept report x) (ofExcept report x) := by
  cases x with
  | ok a => exact pure rfl
  | error e => exact fail _

theorem exchange {F : Failures ClientError} (hF : F.Shared) {report : ClientError → Report}
    (hreport : ∀ e e', F.same e e' → report e = report e') {x x' : Exchange α}
    (h : InStep P F Eq x x') : RunInStep P Eq (exchange report x) (exchange report x') := by
  refine (inSession (h.together hF)).bind fun a b hab => ?_
  cases hab with
  | ok h => exact pure h
  | @error e e' h =>
    have hfail : RunInStep P Eq (Command.fail (report e) : Run α) (Command.fail (report e')) := by
      rw [hreport _ _ h]
      exact fail _
    exact hfail

theorem forM {as : List α} {f : α → Run Unit} (hf : ∀ a, RunInStep P Eq (f a) (f a)) :
    RunInStep P Eq (as.forM f) (as.forM f) := by
  induction as with
  | nil => exact pure rfl
  | cons a as ih => exact (hf a).bindEq fun _ => ih

theorem finishWalk {print : α → Run Unit} (hprint : ∀ a, RunInStep P Eq (print a) (print a))
    (w : Client.Walk Report α) : RunInStep P Eq (finishWalk print w) (finishWalk print w) := by
  refine (forM hprint).bindEq fun _ => ?_
  cases w.2 with
  | none => exact pure rfl
  | some report => exact fail report

theorem finishReported {F : Failures ClientError} {report : ClientError → Report}
    (hreport : ∀ e e', F.same e e' → report e = report e') {print : α → Run Unit}
    (hprint : ∀ a, RunInStep P Eq (print a) (print a)) {w w' : Client.Walk ClientError α}
    (hw : F.AlikeWalks Eq w w') :
    RunInStep P Eq (Command.finishWalk print (w.1, w.2.map report))
      (Command.finishWalk print (w'.1, w'.2.map report)) := by
  have hdelivered := List.forall₂_eq_eq_eq ▸ hw.delivered
  have hfailure : w.2.map report = w'.2.map report := by
    have hrel := hw.failure
    generalize w.2 = o at hrel ⊢
    generalize w'.2 = o' at hrel ⊢
    cases hrel with
    | none => rfl
    | some h => exact congrArg some (hreport _ _ h)
  rw [hdelivered, hfailure]
  exact finishWalk hprint _

end RunInStep

section ReadCommands

variable {item : Value → Value → Prop} {failing : Prop} {hitem : ∀ v, item v v}

theorem ofClientError_eq (e e' : ClientError) (h : SameButBody item failing e e') :
    Report.ofClientError e = Report.ofClientError e' := by
  cases h with
  | same => rfl
  | body => rfl

theorem during_eq (activity : String) (e e' : ClientError) (h : SameButBody item failing e e') :
    during activity e = during activity e' :=
  congrArg (·.during activity) (ofClientError_eq e e' h)

theorem within_reports (activity : String) :
    (bodyFailures item failing).Within
      ((equalFailures : Failures Report).under (during activity)) :=
  ⟨during_eq activity _ _, id, id⟩

theorem adapt_inStep {P : Pairing} {report : ClientError → Report}
    (hreport : ∀ e e', SameButBody item failing e e' → report e = report e') {x x' : Exchange α}
    (h : InStep P (bodyFailures item failing) Eq x x') :
    InStep P equalFailures Eq (x.adapt report) (x'.adapt report) := by
  intro t t' ht
  rcases h.together bodyFailures_shared t t' ht with ⟨hresult, ht⟩ | h
  · refine .inl ⟨?_, ht⟩
    have hadapt : ∀ (x : Exchange α) (t : Traffic),
        ((x.adapt report).run.run t).1 = (x.run.run t).1.mapError report := fun _ _ => rfl
    rw [hadapt, hadapt]
    generalize (x.run.run t).1 = a at hresult ⊢
    generalize (x'.run.run t').1 = b at hresult ⊢
    cases hresult with
    | ok h => exact .ok h
    | error h => exact .error (hreport _ _ h)
  · exact h.elim

namespace Setup

variable {s : Setup}

theorem printDescriptors_inStep {P : Pairing} (s : Setup) (ds : List Descriptor) :
    RunInStep P Eq (s.printDescriptors ds) (s.printDescriptors ds) :=
  RunInStep.forM fun d => RunInStep.printText d.line

theorem resolveTag_inStep (s : Setup) (tag : String) :
    RunInStep (indicatorPairing TaggedTwins failing TaggedTwins.same) Eq (s.resolveTag tag)
      (s.resolveTag tag) := by
  have hpeers : Peers (indicatorPairing TaggedTwins failing TaggedTwins.same) s.client s.client :=
    peers_same s.client
  have hlookup := hpeers.tagId (fun v v' h => readTags_twins tagRef_of_tagged h) tag
    s.query.showUrls
  refine (RunInStep.exchange bodyFailures_shared ofClientError_eq hlookup).bindEq fun found => ?_
  cases found with
  | none => exact RunInStep.fail _
  | some id =>
    exact (RunInStep.inSession (Lockstep.noteIf _ _)).bindEq fun _ => RunInStep.pure rfl

theorem tagToIds_inStep (hopts : s.query.includeIndicator = false) (tag : String) :
    RunInStep (indicatorPairing TaggedTwins failing TaggedTwins.same) Eq (s.tagToIds tag)
      (s.tagToIds tag) := by
  refine (s.resolveTag_inStep tag).bindEq fun id => ?_
  have hpeers : Peers (indicatorPairing TaggedTwins failing TaggedTwins.same) s.client s.client :=
    peers_same s.client
  have hwalk := together_walk bodyFailures_shared (hpeers.descriptorIdsOfTag
    (fun v v' h => alikeTagged_of_twins hopts h) id)
  refine (RunInStep.inSession hwalk).bind fun w w' hw => ?_
  exact RunInStep.finishReported (during_eq _)
    (fun ids => RunInStep.forM RunInStep.printText) hw

theorem details_inStep (hopts : s.query.includeIndicator = false) (ids : List String) :
    InStep (indicatorPairing item failing hitem) (bodyFailures item failing) Eq
      (s.client.descriptorsOfIds ids s.query) (s.client.descriptorsOfIds ids s.query) :=
  (peers_same s.client).descriptorsOfIds fun hids _ _ h => lookup_twins hopts hids h

theorem idsToDetails_inStep (hopts : s.query.includeIndicator = false) (ids : List String) :
    RunInStep (indicatorPairing item failing hitem) Eq (s.idsToDetails ids)
      (s.idsToDetails ids) := by
  have hchunks : ∀ ids, RunInStep (indicatorPairing item failing hitem) Eq
      ((chunks s.query.pageSize ids).forM fun chunk => do
        let ds ← Command.exchange (during fetchingDetails)
          (s.client.descriptorsOfIds chunk s.query)
        s.printDescriptors ds)
      ((chunks s.query.pageSize ids).forM fun chunk => do
        let ds ← Command.exchange (during fetchingDetails)
          (s.client.descriptorsOfIds chunk s.query)
        s.printDescriptors ds) := by
    intro ids
    refine RunInStep.forM fun chunk => ?_
    have hdetails := RunInStep.exchange bodyFailures_shared (during_eq fetchingDetails)
      (@details_inStep item failing hitem s hopts chunk)
    exact hdetails.bindEq s.printDescriptors_inStep
  unfold idsToDetails
  by_cases hids : ids.isEmpty = true
  · rw [if_pos hids]
    exact (RunInStep.ofExcept _ _).bindEq hchunks
  · rw [if_neg hids]
    exact (RunInStep.pure rfl).bindEq hchunks

theorem pageDetails_inStep (hopts : s.query.includeIndicator = false) {p p' : Page}
    (hp : AlikePages TaggedTwins p p') :
    InStep (indicatorPairing TaggedTwins failing TaggedTwins.same) equalFailures Eq
      (s.pageDetails p) (s.pageDetails p') := by
  have hids : AlikePages (AlikeTagged s.query) p p' :=
    ⟨hp.index, hp.data.imp fun _ _ => alikeTagged_of_twins hopts, hp.next⟩
  have hread : InStep (indicatorPairing TaggedTwins failing TaggedTwins.same)
      (bodyFailures TaggedTwins failing) Eq (descriptorIds s.query p) (descriptorIds s.query p') :=
    descriptorIds_inStep hids
  refine (adapt_inStep ofClientError_eq hread).bind fun ids ids' h => ?_
  rw [h]
  by_cases hempty : ids'.isEmpty = true
  · rw [if_pos hempty]
    exact InStep.pure rfl
  · rw [if_neg hempty]
    exact adapt_inStep (during_eq fetchingDetails) (details_inStep hopts ids')

theorem tagToDetails_inStep (hopts : s.query.includeIndicator = false) (tag : String) :
    RunInStep (indicatorPairing TaggedTwins failing TaggedTwins.same) Eq (s.tagToDetails tag)
      (s.tagToDetails tag) := by
  refine (s.resolveTag_inStep tag).bindEq fun id => ?_
  refine (RunInStep.ofExcept _ _).bindEq fun l => ?_
  have hl : (indicatorPairing TaggedTwins failing TaggedTwins.same).Listings l l :=
    ⟨Pairing.links_refl _ _, rfl, rfl⟩
  have hpeers : Peers (indicatorPairing TaggedTwins failing TaggedTwins.same) s.client s.client :=
    peers_same s.client
  have hwalk := together_walk equalFailures_shared (hpeers.walk (within_reports (listing tag))
    (fun p p' hp => pageDetails_inStep hopts hp) hl)
  refine (RunInStep.inSession hwalk).bind fun w w' hw => ?_
  rw [alikeWalks_eq (fun _ _ h => h) hw]
  exact RunInStep.finishWalk s.printDescriptors_inStep w'

theorem search_inStep (hopts : s.query.includeIndicator = false)
    (params : List (String × String)) :
    RunInStep (indicatorPairing DescriptorTwins failing SameBut.same) Eq (s.search params)
      (s.search params) := by
  have hpeers : Peers (indicatorPairing DescriptorTwins failing SameBut.same) s.client s.client :=
    peers_same s.client
  have hwalk := together_walk bodyFailures_shared
    (hpeers.search (fun v v' h => alikeRaw_of_twins hopts h) params)
  refine (RunInStep.inSession hwalk).bind fun w w' hw => ?_
  exact RunInStep.finishReported (during_eq _) s.printDescriptors_inStep hw

end Setup
end ReadCommands

def Action.reads : Action → Bool
  | .write .. => false
  | _ => true

/-- Which items of pages may differ for an action. -/
def Action.Twins : Action → Value → Value → Prop
  | .search _ => DescriptorTwins
  | _ => TaggedTwins

theorem Action.twins_refl (a : Action) (v : Value) : a.Twins v v := by
  cases a with
  | search => exact SameBut.same v
  | _ => exact TaggedTwins.same v

theorem act_inStep {s : Setup} (hopts : s.query.includeIndicator = false) (failing : Prop)
    {a : Action} (ha : a.reads = true) :
    RunInStep (indicatorPairing a.Twins failing a.twins_refl) Eq (s.act a) (s.act a) := by
  cases a with
  | tagToIds tag => exact Setup.tagToIds_inStep hopts tag
  | idsToDetails ids => exact Setup.idsToDetails_inStep hopts ids
  | tagToDetails tag => exact Setup.tagToDetails_inStep hopts tag
  | search params => exact Setup.search_inStep hopts params
  | write => cases ha

theorem resolveTime_inStep {P : Pairing} (now : Int) (flag : String) (value : Option String) :
    RunInStep P Eq (resolveTime now flag value) (resolveTime now flag value) := by
  unfold resolveTime
  cases value with
  | none => exact RunInStep.pure rfl
  | some value =>
    dsimp only
    cases Time.resolve value now with
    | some t => exact RunInStep.pure rfl
    | none => exact (RunInStep.inSession (Lockstep.note _)).bindEq fun _ => RunInStep.pure rfl

/-- What is read of the world beforehand is the same, and the switch hides the indicator. -/
theorem prepare_inStep {P : Pairing} (w : World) (o : Options) (network : Network) :
    RunInStep P (fun s s' => s = s' ∧ s.query.includeIndicator = !o.hideIndicator) (prepare w o)
      (prepare { w with network } o) := by
  unfold prepare
  refine (RunInStep.ofExcept _ _).bindEq fun settings => ?_
  refine (RunInStep.ofExcept _ _).bindEq fun client => ?_
  refine (resolveTime_inStep _ _ _).bindEq fun taggedSince => ?_
  refine (resolveTime_inStep _ _ _).bindEq fun taggedUntil => ?_
  refine (resolveTime_inStep _ _ _).bindEq fun since => ?_
  refine (resolveTime_inStep _ _ _).bindEq fun upTo => ?_
  exact RunInStep.pure ⟨rfl, rfl⟩

/-- What a run shows: its exit code, what it printed, what it sent and what it logged. -/
def Outcome.Same (o o' : Outcome) : Prop :=
  o.exitCode = o'.exitCode ∧ o.output = o'.output ∧ o.errors = o'.errors ∧
    o.traffic.sent = o'.traffic.sent ∧ o.traffic.log = o'.traffic.log

theorem runInvocation_same {i : Invocation} (hhide : i.options.hideIndicator = true)
    (hreads : i.action.reads = true) (w : World) {network : Network}
    (h : NetworkTwins i.action.Twins True w.network network) :
    (runInvocation w i).Same (runInvocation { w with network } i) := by
  have hrun : RunInStep (indicatorPairing i.action.Twins True i.action.twins_refl) Eq
      (do let setup ← prepare w i.options; setup.act i.action)
      (do let setup ← prepare { w with network } i.options; setup.act i.action) := by
    refine (prepare_inStep w i.options network).bind fun s s' hs => ?_
    obtain ⟨rfl, hopts⟩ := hs
    rw [hhide] at hopts
    exact act_inStep hopts True hreads
  rcases hrun [] _ _ (Pairing.Alongside.start h) with ⟨⟨hresult, hlines⟩, ht⟩ | h
  · have hsent := sent_eq ht
    have hlog := ht.log
    revert hresult hlines hsent hlog
    unfold runInvocation
    dsimp only
    generalize StateT.run _ (Traffic.start w.network) = x
    generalize StateT.run _ (Traffic.start network) = y
    obtain ⟨⟨result, output⟩, traffic⟩ := x
    obtain ⟨⟨result', output'⟩, traffic'⟩ := y
    intro hresult hlines hsent hlog
    cases hresult with
    | ok h => exact ⟨rfl, hlines, rfl, hsent, hlog⟩
    | error h => exact ⟨rfl, hlines, congrArg Report.lines h, hsent, hlog⟩
  · exact h.elim

end Command

/-- Where the indicator is not wanted, reads of the client and commands that read show the same
whatever indicators the graph sends, and whatever it calls tagged objects.  If it sends them with
failures too, then the client gives out errors with the bodies that came, and is the same in all
else; commands do not show these bodies. -/
theorem indicator_noninterference :
    (∀ (c : Client) (opts : QueryOptions) (r : Read) (network network' : Network),
      opts.includeIndicator = false → NetworkTwins r.Twins False network network' →
      SameRun Eq (r.run c opts) network network') ∧
    (∀ (c : Client) (opts : QueryOptions) (r : Read) (network network' : Network),
      opts.includeIndicator = false → NetworkTwins r.Twins True network network' →
      SameRun r.SameButBodies (r.run c opts) network network') ∧
    (∀ (w : Command.World) (i : Command.Invocation) (network : Network),
      i.options.hideIndicator = true → i.action.reads = true →
      NetworkTwins i.action.Twins True w.network network →
      (Command.runInvocation w i).Same (Command.runInvocation { w with network } i)) := by
  refine ⟨?_, ?_, ?_⟩
  · intro c opts r network network' hopts h
    obtain ⟨hresult, hsame⟩ := sameRun_of_together (r.together c hopts False) h
    exact ⟨Read.eq_of_alike hresult, hsame⟩
  · intro c opts r network network' hopts h
    exact sameRun_of_together (r.together c hopts True) h
  · intro w i network hhide hreads h
    exact Command.runInvocation_same hhide hreads w h

def lookupReply (status : Nat) (text : String) : Network :=
  .scripted [.response ⟨status, Text.Utf8.encode text.toList, true⟩]

def withIndicator (status : Nat) : Network :=
  lookupReply status "\x7b\"7\":\x7b\"raw_indicator\":5\x7d\x7d"

def withoutIndicator (status : Nat) : Network := lookupReply status "\x7b\"7\":\x7b\x7d\x7d"

theorem lookupBody_twins :
    BodyTwins TaggedTwins (.object [("7", .object [("raw_indicator", .ofInt 5)])])
      (.object [("7", .object [])]) := by
  refine .members fun name => ?_
  by_cases hname : name = "7"
  · subst hname
    exact .descriptor (by decide) (.member rfl)
  · rw [Members.get?_cons, Members.get?_cons, if_neg (Ne.symm hname), if_neg (Ne.symm hname)]
    exact .same none

theorem found_twins (failing : Prop) :
    NetworkTwins TaggedTwins failing (withIndicator 200) (withoutIndicator 200) := by
  have hread : ∀ (text : String) (v : Value), Json.read text = .ok v →
      readBody ⟨200, Text.Utf8.encode text.toList, true⟩ = .ok v := by
    intro text v hv
    simp [readBody, Text.Utf8.decode_encode, hv]
  refine .scripted (.cons (.response ?_) .nil)
  refine .success rfl rfl (hread _ _ ?_) (hread _ _ ?_) lookupBody_twins
  · decide +kernel
  · decide +kernel

theorem refused_twins :
    NetworkTwins TaggedTwins True (withIndicator 400) (withoutIndicator 400) := by
  refine .scripted (.cons (.response ?_) .nil)
  refine .failure trivial rfl rfl ?_ ?_ lookupBody_twins
  · decide +kernel
  · decide +kernel

/-- A world with a token, and a lookup of one descriptor without its indicator. -/
def lookupWorld : Command.World :=
  ⟨[(Client.defaultTokenVariable, "t")], [], [], 0, withIndicator 200⟩

def lookupInvocation : Command.Invocation where
  options := { ({} : Command.Scan).options with hideIndicator := true }
  action := .idsToDetails ["7"]

theorem indicator_of_lookup :
    SameRun Eq ((Read.details ["7"]).run (.ofToken "t") { includeIndicator := false })
      (withIndicator 200) (withoutIndicator 200) ∧
    SameRun (Read.details ["7"]).SameButBodies
      ((Read.details ["7"]).run (.ofToken "t") { includeIndicator := false })
      (withIndicator 400) (withoutIndicator 400) ∧
    (Command.runInvocation lookupWorld lookupInvocation).Same
      (Command.runInvocation { lookupWorld with network := withoutIndicator 200 }
        lookupInvocation) ∧
    withIndicator 200 ≠ withoutIndicator 200 := by
  obtain ⟨hread, hbodies, hcommand⟩ := indicator_noninterference
  refine ⟨hread _ _ _ _ _ rfl (found_twins False), hbodies _ _ _ _ _ rfl refused_twins, ?_,
    by decide +kernel⟩
  exact hcommand lookupWorld lookupInvocation (withoutIndicator 200) rfl rfl (found_twins True)

end ThreatGraph
