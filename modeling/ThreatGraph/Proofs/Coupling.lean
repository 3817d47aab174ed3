import ThreatGraph.Proofs.Chunks
import ThreatGraph.Proofs.TokenSecrecy

/-!
# Coupled runs

Two runs of one client over different traffics.  A `Coupling` relates the traffics and says that
fetches and posts keep them related and bring the same in both; whatever else a call does is silent.
So every call, and every command, comes to the same in both runs.  The runs may also differ in the
flags that ask for more to be logged.
-/

namespace ThreatGraph

open Json (Value Members)
open Post (Field Fields Kind)
open Web (Network Request Url redact)

variable {ε α β : Type}

/-- What a traffic may have become later: nothing sent is forgotten, and no reply is added. -/
structure Later (t u : Traffic) : Prop where
  sent : ∃ more, u.sent = t.sent ++ more
  size : u.network.size ≤ t.network.size

namespace Later

theorem rfl {t : Traffic} : Later t t := ⟨⟨[], by simp⟩, Nat.le_refl _⟩

theorem trans {t u w : Traffic} (h : Later t u) (h' : Later u w) : Later t w := by
  obtain ⟨more, hmore⟩ := h.sent
  obtain ⟨more', hmore'⟩ := h'.sent
  have hsent : w.sent = t.sent ++ (more ++ more') := by simp [hmore', hmore]
  exact ⟨⟨_, hsent⟩, Nat.le_trans h'.size h.size⟩

theorem of_same {t u : Traffic} (h : SameTraffic u t) : Later t u :=
  ⟨⟨[], by simp [h.2]⟩, by simp [h.1]⟩

theorem send (r : Request) (t : Traffic) : Later t (t.send r).2 := by
  have hsize : (t.send r).2.network.size ≤ t.network.size := by
    unfold Traffic.send
    cases r.url.requestFault? with
    | some fault => simp
    | none =>
      rcases hn : t.network with _ | (_ | ⟨_ | _, rest⟩) <;> simp [hn, Network.next?, Network.size]
  exact ⟨⟨_, send_sent t r⟩, hsize⟩

end Later

theorem Silent.later {s : Session α} (h : Silent s) (t : Traffic) : Later t (s.run t).2 :=
  .of_same (h t)

theorem fetchFrom_later (url : Url) (attempt retries : Nat) (t : Traffic) :
    Later t ((fetchFrom url attempt retries).run.run t).2 := by
  have hnote : ∀ u e, Later t u → Later t (u.note e) := fun u e h => h.trans (.of_same ⟨rfl, rfl⟩)
  have hsend : ∀ u, Later t u → Later t (u.send (getOf url)).2 := fun u h => h.trans (.send _ u)
  exact fetchFrom_keeps hnote hsend attempt retries .rfl

/-- A relation between the traffics of two runs that fetches and posts respect, as long as what the
first run sends is fair. -/
structure Coupling (c : Client) where
  fair : List Request → Prop
  related : Traffic → Traffic → Prop
  fair_of_append : ∀ {sent more}, fair (sent ++ more) → fair sent
  silent : ∀ {t t' u u'}, related t t' → SameTraffic u t → SameTraffic u' t' → related u u'
  fetch : ∀ url {t t'}, related t t' → fair ((c.fetchJson url).run.run t).2.sent →
    ((c.fetchJson url).run.run t).1 = ((c.fetchJson url).run.run t').1 ∧
      related ((c.fetchJson url).run.run t).2 ((c.fetchJson url).run.run t').2
  post : ∀ {r : Request}, r.method = .post → ∀ {t t'}, related t t' → fair (t.send r).2.sent →
    (t.send r).1 = (t'.send r).1 ∧ related (t.send r).2 (t'.send r).2

variable {c : Client} {K : Coupling c}

/-- Two sessions whose results are related by `R` when they are run on related traffics. -/
structure Coupled (K : Coupling c) (R : α → α → Prop) (s s' : Session α) : Prop where
  later : ∀ t, Later t (s.run t).2
  later' : ∀ t, Later t (s'.run t).2
  keeps : ∀ t t', K.related t t' → K.fair (s.run t).2.sent →
    R (s.run t).1 (s'.run t').1 ∧ K.related (s.run t).2 (s'.run t').2

namespace Coupled

variable {R : α → α → Prop} {R' : β → β → Prop}

theorem silent {s s' : Session α} (hs : Silent s) (hs' : Silent s')
    (h : ∀ t t', R (s.run t).1 (s'.run t').1) : Coupled K R s s' :=
  ⟨hs.later, hs'.later, fun t t' ht _ => ⟨h t t', K.silent ht (hs t) (hs' t')⟩⟩

theorem pure {a b : α} (h : R a b) : Coupled K R (pure a) (pure b) :=
  .silent (.pure a) (.pure b) fun _ _ => h

theorem note (e e' : Event) : Coupled K Eq (note e) (note e') :=
  .silent (.note e) (.note e') fun _ _ => rfl

theorem noteIf (wanted wanted' : Bool) (e e' : Event) :
    Coupled K Eq (noteIf wanted e) (noteIf wanted' e') :=
  .silent (.noteIf wanted e) (.noteIf wanted' e') fun _ _ => rfl

/-- What is done next has to be coupled only on results that the first halves can have. -/
theorem bind {s s' : Session α} {f f' : α → Session β} (hrefl : ∀ a, R a a)
    (hs : Coupled K R s s') (hf : ∀ a b, R a b → Coupled K R' (f a) (f' b)) :
    Coupled K R' (s >>= f) (s' >>= f') := by
  refine ⟨fun t => ?_, fun t => ?_, fun t t' ht hfair => ?_⟩
  · rw [run_bind]
    exact (hs.later t).trans ((hf _ _ (hrefl _)).later _)
  · rw [run_bind]
    exact (hs.later' t).trans ((hf _ _ (hrefl _)).later' _)
  · rw [run_bind] at hfair
    have hfirst : K.fair (s.run t).2.sent := by
      obtain ⟨more, hmore⟩ := ((hf _ _ (hrefl (s.run t).1)).later (s.run t).2).sent
      rw [hmore] at hfair
      exact K.fair_of_append hfair
    obtain ⟨hresult, hrelated⟩ := hs.keeps t t' ht hfirst
    rw [run_bind, run_bind]
    exact (hf _ _ hresult).keeps _ _ hrelated hfair

theorem bindEq {s s' : Session α} {f f' : α → Session β} (hs : Coupled K Eq s s')
    (hf : ∀ a, Coupled K R' (f a) (f' a)) : Coupled K R' (s >>= f) (s' >>= f') := by
  refine hs.bind (fun _ => rfl) fun a b hab => ?_
  rw [hab]
  exact hf b

theorem exchangeBind {x x' : ExceptT ε Session α} {f f' : α → ExceptT ε Session β}
    (hx : Coupled K Eq x.run x'.run) (hf : ∀ a, Coupled K Eq (f a).run (f' a).run) :
    Coupled K Eq (x >>= f).run (x' >>= f').run := by
  rw [ExceptT.run_bind, ExceptT.run_bind]
  refine hx.bindEq fun result => ?_
  cases result with
  | ok a => exact hf a
  | error e => exact pure rfl

theorem lift {s s' : Session α} (hs : Coupled K Eq s s') :
    Coupled K Eq (liftM s : ExceptT ε Session α).run (liftM s' : ExceptT ε Session α).run :=
  ⟨hs.later, hs.later', fun t t' ht hfair =>
    ⟨congrArg Except.ok (hs.keeps t t' ht hfair).1, (hs.keeps t t' ht hfair).2⟩⟩

theorem ofExcept (wrap : ε → ClientError) (x : Except ε α) :
    Coupled K Eq (Exchange.ofExcept wrap x).run (Exchange.ofExcept wrap x).run := by
  cases x with
  | ok a => exact pure rfl
  | error e => exact pure rfl

theorem adapt {ε' : Type} {x x' : ExceptT ε Session α} (report : ε → ε')
    (hx : Coupled K Eq x.run x'.run) : Coupled K Eq (x.adapt report).run (x'.adapt report).run :=
  ⟨hx.later, hx.later', fun t t' ht hfair =>
    ⟨congrArg (Except.mapError report) (hx.keeps t t' ht hfair).1, (hx.keeps t t' ht hfair).2⟩⟩

theorem fetchJson (url : Url) : Coupled K Eq (c.fetchJson url).run (c.fetchJson url).run :=
  ⟨fetchFrom_later url 1 _, fetchFrom_later url 1 _, fun _ _ ht hfair => K.fetch url ht hfair⟩

theorem post {r : Request} (hr : r.method = .post) : Coupled K Eq (send r) (send r) :=
  ⟨Later.send r, Later.send r, fun _ _ ht hfair => K.post hr ht hfair⟩

end Coupled

/-- The same with the flags that say what is logged set otherwise. -/
def QueryOptions.flagged (opts : QueryOptions) (verbose showUrls : Bool) : QueryOptions :=
  { opts with verbose, showUrls }

section Reading

variable (opts : QueryOptions) (verbose showUrls : Bool)

theorem readTagged_coupled (items : List Value) :
    Coupled K Eq (readTagged opts items).run
      (readTagged (opts.flagged verbose showUrls) items).run := by
  induction items with
  | nil => exact Coupled.pure rfl
  | cons item rest ih =>
    unfold readTagged
    by_cases hclaims : claimsDescriptor item = true
    · rw [if_pos hclaims, if_pos hclaims]
      refine (Coupled.ofExcept _ _).exchangeBind fun o => ?_
      refine (Coupled.noteIf _ _ _ _).lift.exchangeBind fun _ => ?_
      exact ih.exchangeBind fun os => Coupled.pure rfl
    · rw [if_neg hclaims, if_neg hclaims]
      exact ih

theorem taggedDescriptors_coupled (page : Page) :
    Coupled K Eq (taggedDescriptors opts page).run
      (taggedDescriptors (opts.flagged verbose showUrls) page).run := by
  refine (readTagged_coupled opts verbose showUrls page.data).exchangeBind fun os => ?_
  exact (Coupled.note _ _).lift.exchangeBind fun _ => Coupled.pure rfl

theorem descriptorIds_coupled (page : Page) :
    Coupled K Eq (descriptorIds opts page).run
      (descriptorIds (opts.flagged verbose showUrls) page).run :=
  (taggedDescriptors_coupled opts verbose showUrls page).exchangeBind fun _ => Coupled.pure rfl

theorem pageDescriptors_coupled (page : Page) :
    Coupled K Eq (pageDescriptors opts page).run
      (pageDescriptors (opts.flagged verbose showUrls) page).run := by
  refine (Coupled.ofExcept ClientError.input _).exchangeBind fun ds => ?_
  exact (Coupled.note _ _).lift.exchangeBind fun _ => Coupled.pure rfl

theorem collectDescriptors_coupled (ids : List String) (byId : Members Value) :
    Coupled K Eq (collectDescriptors opts ids byId).run
      (collectDescriptors (opts.flagged verbose showUrls) ids byId).run := by
  induction ids generalizing byId with
  | nil => exact Coupled.pure rfl
  | cons id ids ih =>
    unfold collectDescriptors
    cases Members.get? id byId with
    | none => exact (Coupled.note _ _).lift.exchangeBind fun _ => ih byId
    | some raw =>
      refine (Coupled.ofExcept ClientError.input _).exchangeBind fun d => ?_
      refine (Coupled.noteIf _ _ _ _).lift.exchangeBind fun _ => ?_
      exact (ih _).exchangeBind fun ds => Coupled.pure rfl

end Reading

/-- Listings that go on at the same place. -/
structure SamePlace (l l' : Listing) : Prop where
  next : l.next = l'.next
  index : l.index = l'.index

theorem SamePlace.rfl {l : Listing} : SamePlace l l := ⟨Eq.refl _, Eq.refl _⟩

def Listing.flagged (l : Listing) (showUrls : Bool) : Listing := { l with showUrls }

def WriteOptions.flagged (opts : WriteOptions) (showUrls : Bool) : WriteOptions :=
  { opts with showUrls }

namespace Client

variable (K : Coupling c) (opts : QueryOptions) (verbose showUrls : Bool)

theorem tagId_coupled (name : String) (showUrls showUrls' : Bool) :
    Coupled K Eq (c.tagId name showUrls).run (c.tagId name showUrls').run := by
  refine (Coupled.ofExcept id _).exchangeBind fun url => ?_
  refine (Coupled.noteIf _ _ _ _).lift.exchangeBind fun _ => ?_
  refine (Coupled.fetchJson _).exchangeBind fun response => ?_
  cases response.get? "data" with
  | none => exact Coupled.pure rfl
  | some data => exact (Coupled.ofExcept _ _).exchangeBind fun tags => Coupled.pure rfl

theorem descriptorsOfIds_coupled (ids : List String) :
    Coupled K Eq (c.descriptorsOfIds ids opts).run
      (c.descriptorsOfIds ids (opts.flagged verbose showUrls)).run := by
  unfold descriptorsOfIds
  cases malformedId? ids with
  | some id => exact Coupled.pure rfl
  | none =>
    refine (Coupled.ofExcept id _).exchangeBind fun url => ?_
    refine (Coupled.noteIf _ _ _ _).lift.exchangeBind fun _ => ?_
    refine (Coupled.fetchJson _).exchangeBind fun response => ?_
    cases response with
    | object byId => exact collectDescriptors_coupled opts verbose showUrls ids byId
    | _ => exact Coupled.pure rfl

theorem fetchPage_coupled (index : Nat) (showUrls showUrls' : Bool) (url : Url) :
    Coupled K Eq (c.fetchPage index showUrls url).run (c.fetchPage index showUrls' url).run := by
  refine (Coupled.noteIf _ _ _ _).lift.exchangeBind fun _ => ?_
  refine (Coupled.fetchJson _).exchangeBind fun response => ?_
  refine (Coupled.ofExcept _ _).exchangeBind fun page => ?_
  exact (Coupled.note _ _).lift.exchangeBind fun _ => Coupled.pure rfl

def SamePull (x x' : Except ClientError (Option Page) × Listing) : Prop :=
  x.1 = x'.1 ∧ SamePlace x.2 x'.2

theorem nextPage_coupled {l l' : Listing} (hl : SamePlace l l') :
    Coupled K SamePull (c.nextPage l) (c.nextPage l') := by
  unfold nextPage
  rw [← hl.next, ← hl.index]
  cases hnext : l.next with
  | none => exact Coupled.pure ⟨rfl, hl⟩
  | some url =>
    refine (fetchPage_coupled K l.index l.showUrls l'.showUrls url).bindEq fun result => ?_
    cases result with
    | ok page => exact Coupled.pure ⟨rfl, rfl, rfl⟩
    | error e => exact Coupled.pure ⟨rfl, rfl, rfl⟩

section Walks

variable {wrap : ClientError → ε} {read read' : Page → ExceptT ε Session α}

/-- Every page takes a reply, so more fuel than there are replies makes no difference. -/
theorem walkFrom_fuel (hread : ∀ page t, Later t ((read page).run.run t).2) {fuel fuel' : Nat}
    {l : Listing} {t : Traffic} (h : t.network.size < fuel) (h' : t.network.size < fuel') :
    (c.walkFrom wrap read fuel l).run t = (c.walkFrom wrap read fuel' l).run t := by
  induction fuel generalizing fuel' l t with
  | zero => omega
  | succ fuel ih =>
    cases fuel' with
    | zero => omega
    | succ fuel' =>
      rw [walkFrom_succ_run, walkFrom_succ_run]
      cases hl : l.next with
      | none => rw [nextPage_run, hl]
      | some url =>
        rcases c.nextPage_visits hl t with
          ⟨v, u, hv, -, -, hbefore, hafter, hrun⟩ | ⟨e, before, after, -, -, hrun⟩
        · rw [hrun]
          dsimp only
          have hlater := hread v.page u
          rcases hr : (read v.page).run.run u with ⟨e | a, w⟩
          · rfl
          · have hsize : w.network.size < t.network.size := by
              have hlt := hv.size_lt
              rw [hr] at hlater
              rw [← hafter.1, hbefore.1] at hlt
              exact Nat.lt_of_le_of_lt hlater.size hlt
            dsimp only
            rw [@ih fuel' _ w (by omega) (by omega)]
        · rw [hrun]

theorem walkFrom_coupled (hread : ∀ page, Coupled K Eq (read page).run (read' page).run)
    (fuel : Nat) {l l' : Listing} (hl : SamePlace l l') :
    Coupled K Eq (c.walkFrom wrap read fuel l) (c.walkFrom wrap read' fuel l') := by
  have hrefl : ∀ x, SamePull x x := fun _ => ⟨rfl, .rfl⟩
  induction fuel generalizing l l' with
  | zero => exact Coupled.pure rfl
  | succ fuel ih =>
    refine (nextPage_coupled K hl).bind hrefl fun x x' hx => ?_
    obtain ⟨result, l⟩ := x
    obtain ⟨result', l'⟩ := x'
    obtain ⟨rfl, hl⟩ : result = result' ∧ SamePlace l l' := hx
    rcases result with e | (_ | page)
    · exact Coupled.pure rfl
    · exact Coupled.pure rfl
    · refine (hread page).bindEq fun result => ?_
      cases result with
      | error e => exact Coupled.pure rfl
      | ok a => exact (ih hl).bindEq fun _ => Coupled.pure rfl

/-- The two runs may have different numbers of replies left. -/
theorem walk_coupled (hread : ∀ page, Coupled K Eq (read page).run (read' page).run)
    {l l' : Listing} (hl : SamePlace l l') :
    Coupled K Eq (c.walk wrap read l) (c.walk wrap read' l') := by
  have hfuel : ∀ {fuel t}, t.network.size < fuel →
      (c.walk wrap read l).run t = (c.walkFrom wrap read fuel l).run t :=
    fun h => walkFrom_fuel (fun page => (hread page).later) (Nat.lt_succ_self _) h
  have hfuel' : ∀ {fuel t}, t.network.size < fuel →
      (c.walk wrap read' l').run t = (c.walkFrom wrap read' fuel l').run t :=
    fun h => walkFrom_fuel (fun page => (hread page).later') (Nat.lt_succ_self _) h
  refine ⟨fun t => ?_, fun t => ?_, fun t t' ht hfair => ?_⟩
  · rw [hfuel (Nat.lt_succ_self _)]
    exact (walkFrom_coupled K hread _ hl).later t
  · rw [hfuel' (Nat.lt_succ_self _)]
    exact (walkFrom_coupled K hread _ hl).later' t
  · have hsize : t.network.size < t.network.size + t'.network.size + 1 := by omega
    have hsize' : t'.network.size < t.network.size + t'.network.size + 1 := by omega
    rw [hfuel hsize] at hfair ⊢
    rw [hfuel' hsize']
    exact (walkFrom_coupled K hread _ hl).keeps t t' ht hfair

end Walks

theorem walkOf_coupled {read read' : Page → Exchange α}
    (hread : ∀ page, Coupled K Eq (read page).run (read' page).run)
    (x : Except ClientError Listing) :
    Coupled K Eq (c.walkOf read x) (c.walkOf read' (x.map (·.flagged showUrls))) := by
  cases x with
  | error e => exact Coupled.pure rfl
  | ok l => exact walk_coupled K hread ⟨rfl, rfl⟩

theorem taggedObjects_flagged (tag : String) :
    c.taggedObjects tag (opts.flagged verbose showUrls) =
      (c.taggedObjects tag opts).map (·.flagged showUrls) := by
  unfold taggedObjects
  cases c.endpoint [tag, "tagged_objects"] <;> rfl

theorem searchListing_flagged (params : Web.Form.Pairs) :
    c.searchListing params (opts.flagged verbose showUrls) =
      (c.searchListing params opts).map (·.flagged showUrls) := by
  unfold searchListing
  cases c.endpoint ["threat_descriptors"] <;> rfl

theorem descriptorIdsOfTag_coupled (tag : String) :
    Coupled K Eq (c.descriptorIdsOfTag tag opts)
      (c.descriptorIdsOfTag tag (opts.flagged verbose showUrls)) := by
  have hwalk := walkOf_coupled K showUrls (descriptorIds_coupled opts verbose showUrls)
    (c.taggedObjects tag opts)
  rw [← taggedObjects_flagged opts verbose] at hwalk
  exact hwalk

theorem search_coupled (params : Web.Form.Pairs) :
    Coupled K Eq (c.search params opts) (c.search params (opts.flagged verbose showUrls)) := by
  have hwalk := walkOf_coupled K showUrls (pageDescriptors_coupled opts verbose showUrls)
    (c.searchListing params opts)
  rw [← searchListing_flagged opts verbose] at hwalk
  exact hwalk

theorem postFields_coupled (url : Url) (fs : Fields) (opts : WriteOptions) :
    Coupled K Eq (postFields url fs opts) (postFields url fs (opts.flagged showUrls)) := by
  refine (Coupled.noteIf _ _ _ _).bindEq fun _ => ?_
  by_cases hdry : opts.dryRun = true
  · have hdry' : (opts.flagged showUrls).dryRun = true := hdry
    rw [if_pos hdry, if_pos hdry']
    exact Coupled.pure rfl
  · have hdry' : ¬ (opts.flagged showUrls).dryRun = true := hdry
    rw [if_neg hdry, if_neg hdry']
    refine (Coupled.post rfl).bindEq fun reply => ?_
    cases reply with
    | error fault => exact Coupled.pure rfl
    | ok response => exact (Coupled.note _ _).bindEq fun _ => Coupled.pure rfl

theorem postTo_coupled (segments : List String) (fs : Fields) (opts : WriteOptions) :
    Coupled K Eq (c.postTo segments fs opts) (c.postTo segments fs (opts.flagged showUrls)) := by
  unfold postTo
  cases c.endpoint segments with
  | ok url => exact postFields_coupled K showUrls url fs opts
  | error e => exact Coupled.pure rfl

theorem submit_coupled (fs : Fields) (opts : WriteOptions) :
    Coupled K Eq (c.submit fs opts) (c.submit fs (opts.flagged showUrls)) := by
  unfold submit
  cases Post.validate .submit fs with
  | some e => exact Coupled.pure rfl
  | none => exact postTo_coupled K showUrls _ fs opts

theorem update_coupled (fs : Fields) (opts : WriteOptions) :
    Coupled K Eq (c.update fs opts) (c.update fs (opts.flagged showUrls)) := by
  unfold update
  cases Post.validate .update fs with
  | some e => exact Coupled.pure rfl
  | none =>
    cases fs.get? .descriptorId with
    | some id => exact postTo_coupled K showUrls _ fs opts
    | none => exact Coupled.pure rfl

theorem copy_coupled (fs : Fields) (opts : WriteOptions) :
    Coupled K Eq (c.copy fs opts) (c.copy fs (opts.flagged showUrls)) := by
  unfold copy
  cases Post.validate .copy fs with
  | some e => exact Coupled.pure rfl
  | none =>
    cases fs.get? .descriptorId with
    | none => exact Coupled.pure rfl
    | some id =>
      have hlookup := descriptorsOfIds_coupled K { showUrls := opts.showUrls } false showUrls [id]
      refine hlookup.bindEq fun found => ?_
      rcases found with e | (_ | ⟨source, others⟩)
      · exact Coupled.pure rfl
      · exact Coupled.pure rfl
      · exact submit_coupled K showUrls _ opts

theorem write_coupled (kind : Kind) (fs : Fields) (opts : WriteOptions) :
    Coupled K Eq (c.write kind fs opts) (c.write kind fs (opts.flagged showUrls)) := by
  cases kind with
  | submit => exact submit_coupled K showUrls fs opts
  | update => exact update_coupled K showUrls fs opts
  | copy => exact copy_coupled K showUrls fs opts

end Client

def Call.flagged (verbose showUrls : Bool) : Call → Call
  | .fetch url => .fetch url
  | .tagId name _ => .tagId name showUrls
  | .openTag tag opts => .openTag tag (opts.flagged verbose showUrls)
  | .openSearch params opts => .openSearch params (opts.flagged verbose showUrls)
  | .openUrl url _ => .openUrl url showUrls
  | .pull listing => .pull listing
  | .pageObjects page opts => .pageObjects page (opts.flagged verbose showUrls)
  | .pageIds page opts => .pageIds page (opts.flagged verbose showUrls)
  | .pageDescriptors page opts => .pageDescriptors page (opts.flagged verbose showUrls)
  | .idsOfTag tag opts => .idsOfTag tag (opts.flagged verbose showUrls)
  | .descriptorsOfIds ids opts => .descriptorsOfIds ids (opts.flagged verbose showUrls)
  | .search params opts => .search params (opts.flagged verbose showUrls)
  | .write kind fields opts => .write kind fields (opts.flagged showUrls)

/-- Calls that are the same but for their flags. -/
def SameButFlags (call call' : Call) : Prop :=
  ∃ verbose showUrls, call' = call.flagged verbose showUrls

theorem SameButFlags.rfl {call : Call} : SameButFlags call call := by
  cases call with
  | fetch => exact ⟨false, false, Eq.refl _⟩
  | tagId name showUrls => exact ⟨false, showUrls, Eq.refl _⟩
  | openUrl url showUrls => exact ⟨false, showUrls, Eq.refl _⟩
  | pull => exact ⟨false, false, Eq.refl _⟩
  | write kind fields opts => exact ⟨false, opts.showUrls, Eq.refl _⟩
  | openTag _ opts | openSearch _ opts | pageObjects _ opts | pageIds _ opts
  | pageDescriptors _ opts | idsOfTag _ opts | descriptorsOfIds _ opts | search _ opts =>
    exact ⟨opts.verbose, opts.showUrls, Eq.refl _⟩

section Calls

variable (K : Coupling c) {ls ls' : List Listing}

/-- Equal answers, with listings that go on at the same places. -/
def SameAnswers (x x' : α × List Listing) : Prop :=
  x.1 = x'.1 ∧ List.Forall₂ SamePlace x.2 x'.2

theorem SameAnswers.rfl {x : α × List Listing} : SameAnswers x x :=
  ⟨Eq.refl _, List.forall₂_same.2 fun _ _ => .rfl⟩

theorem coupled_answer {s s' : Session α} (hs : Coupled K Eq s s') (answer : α → Answer)
    (hls : List.Forall₂ SamePlace ls ls') :
    Coupled K SameAnswers (do return (answer (← s), ls)) (do return (answer (← s'), ls')) :=
  hs.bindEq fun _ => Coupled.pure ⟨rfl, hls⟩

theorem coupled_opened (x : Except ClientError Listing) (showUrls : Bool)
    (hls : List.Forall₂ SamePlace ls ls') :
    Coupled K SameAnswers (pure (Answer.ofOpened x, opened ls x))
      (pure (Answer.ofOpened (x.map (·.flagged showUrls)),
        opened ls' (x.map (·.flagged showUrls)))) := by
  cases x with
  | error e => exact Coupled.pure ⟨rfl, hls⟩
  | ok l =>
    have hl : SamePlace l (l.flagged showUrls) := ⟨rfl, rfl⟩
    exact Coupled.pure ⟨rfl, List.rel_append hls (.cons hl .nil)⟩

theorem call_coupled (call : Call) (verbose showUrls : Bool)
    (hls : List.Forall₂ SamePlace ls ls') :
    Coupled K SameAnswers (call.run c ls) ((call.flagged verbose showUrls).run c ls') := by
  cases call with
  | fetch url => exact coupled_answer K (Coupled.fetchJson url) (.ofResult .value) hls
  | tagId name showUrls' =>
    exact coupled_answer K (Client.tagId_coupled K name showUrls' showUrls) (.ofResult .tag) hls
  | openTag tag opts =>
    have hopened := coupled_opened K (c.taggedObjects tag opts) showUrls hls
    rw [← Client.taggedObjects_flagged opts verbose] at hopened
    exact hopened
  | openSearch params opts =>
    have hopened := coupled_opened K (c.searchListing params opts) showUrls hls
    rw [← Client.searchListing_flagged opts verbose] at hopened
    exact hopened
  | openUrl url showUrls' =>
    have hl : SamePlace (.start url showUrls') (.start url showUrls) := ⟨rfl, rfl⟩
    exact Coupled.pure ⟨rfl, List.rel_append hls (.cons hl .nil)⟩
  | pull n =>
    have hlisting := forall₂_getElem? hls n
    simp only [Call.flagged, Call.run]
    generalize ls[n]? = listing at hlisting ⊢
    generalize ls'[n]? = listing' at hlisting ⊢
    cases hlisting with
    | none => exact Coupled.pure ⟨rfl, hls⟩
    | some hl =>
      refine (Client.nextPage_coupled K hl).bind (fun _ => ⟨rfl, .rfl⟩) fun x x' hx => ?_
      obtain ⟨page, l⟩ := x
      obtain ⟨page', l'⟩ := x'
      obtain ⟨rfl, hl⟩ : page = page' ∧ SamePlace l l' := hx
      exact Coupled.pure ⟨rfl, forall₂_set hls n hl⟩
  | pageObjects page opts =>
    exact coupled_answer K (taggedDescriptors_coupled opts verbose showUrls page)
      (.ofResult .objects) hls
  | pageIds page opts =>
    exact coupled_answer K (descriptorIds_coupled opts verbose showUrls page) (.ofResult .ids) hls
  | pageDescriptors page opts =>
    exact coupled_answer K (pageDescriptors_coupled opts verbose showUrls page)
      (.ofResult .descriptors) hls
  | idsOfTag tag opts =>
    exact coupled_answer K (Client.descriptorIdsOfTag_coupled K opts verbose showUrls tag)
      (.ofWalk .ids) hls
  | descriptorsOfIds ids opts =>
    exact coupled_answer K (Client.descriptorsOfIds_coupled K opts verbose showUrls ids)
      (.ofResult .descriptors) hls
  | search params opts =>
    exact coupled_answer K (Client.search_coupled K opts verbose showUrls params)
      (.ofWalk .descriptors) hls
  | write kind fields opts =>
    exact coupled_answer K (Client.write_coupled K showUrls kind fields opts) .ofOutcome hls

theorem runCalls_coupled {calls calls' : List Call} (h : List.Forall₂ SameButFlags calls calls')
    (hls : List.Forall₂ SamePlace ls ls') :
    Coupled K SameAnswers (runCalls c calls ls) (runCalls c calls' ls') := by
  induction h generalizing ls ls' with
  | nil => exact Coupled.pure ⟨rfl, hls⟩
  | @cons call call' calls calls' hcall _ ih =>
    obtain ⟨verbose, showUrls, rfl⟩ := hcall
    refine (call_coupled K call verbose showUrls hls).bind (fun _ => .rfl) fun x x' hx => ?_
    obtain ⟨answer, ls⟩ := x
    obtain ⟨answer', ls'⟩ := x'
    obtain ⟨rfl, hls⟩ : answer = answer' ∧ List.Forall₂ SamePlace ls ls' := hx
    refine (ih hls).bind (fun _ => .rfl) fun x x' hx => ?_
    obtain ⟨answers, ls⟩ := x
    obtain ⟨answers', ls'⟩ := x'
    obtain ⟨rfl, hls⟩ : answers = answers' ∧ List.Forall₂ SamePlace ls ls' := hx
    exact Coupled.pure ⟨rfl, hls⟩

end Calls

namespace Command

/-- Two runs of a command that print the same and end in the same. -/
def RunCoupled (K : Coupling c) (x x' : Run α) : Prop :=
  ∀ lines, Coupled K Eq (x.run.run lines) (x'.run.run lines)

namespace RunCoupled

theorem pure (a : α) : RunCoupled K (pure a) (pure a) := fun _ => Coupled.pure rfl

theorem fail (r : Report) : RunCoupled K (Command.fail r : Run α) (Command.fail r) :=
  fun _ => Coupled.pure rfl

theorem bind {x x' : Run α} {f f' : α → Run β} (hx : RunCoupled K x x')
    (hf : ∀ a, RunCoupled K (f a) (f' a)) : RunCoupled K (x >>= f) (x' >>= f') := by
  intro lines
  rw [ExceptT.run_bind, ExceptT.run_bind, StateT.run_bind, StateT.run_bind]
  refine (hx lines).bindEq fun result => ?_
  obtain ⟨result, lines⟩ := result
  cases result with
  | ok a => exact hf a lines
  | error r => exact Coupled.pure rfl

theorem printText (text : String) : RunCoupled K (printText text) (printText text) :=
  fun _ => Coupled.pure rfl

theorem inSession {s s' : Session α} (hs : Coupled K Eq s s') :
    RunCoupled K (inSession s) (inSession s') := by
  intro lines
  have hrun : ∀ s : Session α, (Command.inSession s).run.run lines =
      s >>= fun a => Pure.pure (.ok a, lines) := fun _ => rfl
  rw [hrun, hrun]
  exact hs.bindEq fun _ => Coupled.pure rfl

theorem ofExcept (report : ε → Report) (x : Except ε α) :
    RunCoupled K (ofExcept report x) (ofExcept report x) := by
  cases x with
  | ok a => exact pure a
  | error e => exact fail _

theorem exchange {x x' : Exchange α} (report : ClientError → Report)
    (hx : Coupled K Eq x.run x'.run) : RunCoupled K (exchange report x) (exchange report x') :=
  (inSession hx).bind fun _ => ofExcept _ _

theorem forM {as : List α} {f f' : α → Run Unit} (hf : ∀ a, RunCoupled K (f a) (f' a)) :
    RunCoupled K (as.forM f) (as.forM f') := by
  induction as with
  | nil => exact pure ()
  | cons a as ih => exact (hf a).bind fun _ => ih

theorem mapM {as : List α} {f f' : α → Run β} (hf : ∀ a, RunCoupled K (f a) (f' a)) :
    RunCoupled K (as.mapM f) (as.mapM f') := by
  induction as with
  | nil => exact pure []
  | cons a as ih =>
    rw [List.mapM_cons, List.mapM_cons]
    exact (hf a).bind fun _ => ih.bind fun _ => pure _

theorem finishWalk {print : α → Run Unit} (hprint : ∀ a, RunCoupled K (print a) (print a))
    (w : Client.Walk Report α) : RunCoupled K (finishWalk print w) (finishWalk print w) := by
  refine (forM hprint).bind fun _ => ?_
  cases w.2 with
  | none => exact pure ()
  | some report => exact fail report

end RunCoupled

def Setup.flagged (s : Setup) (verbose showUrls : Bool) : Setup :=
  { s with query := s.query.flagged verbose showUrls }

namespace Setup

variable (s : Setup) (K : Coupling s.client) (verbose showUrls : Bool)

theorem printDescriptors_coupled (ds : List Descriptor) :
    RunCoupled K (s.printDescriptors ds) (s.printDescriptors ds) :=
  RunCoupled.forM fun d => RunCoupled.printText d.line

theorem resolveTag_coupled (tag : String) :
    RunCoupled K (s.resolveTag tag) ((s.flagged verbose showUrls).resolveTag tag) := by
  have hlookup := Client.tagId_coupled K tag s.query.showUrls showUrls
  refine (RunCoupled.exchange .ofClientError hlookup).bind fun found => ?_
  cases found with
  | none => exact RunCoupled.fail _
  | some id =>
    have hnote := Coupled.noteIf (K := K) s.query.verbose verbose (.resolvedTag tag id)
      (.resolvedTag tag id)
    exact (RunCoupled.inSession hnote).bind fun _ => RunCoupled.pure id

theorem tagToIds_coupled (tag : String) :
    RunCoupled K (s.tagToIds tag) ((s.flagged verbose showUrls).tagToIds tag) := by
  refine (s.resolveTag_coupled K verbose showUrls tag).bind fun id => ?_
  have hwalk := Client.descriptorIdsOfTag_coupled K s.query verbose showUrls id
  refine (RunCoupled.inSession hwalk).bind fun w => ?_
  exact RunCoupled.finishWalk (fun ids => RunCoupled.forM RunCoupled.printText) _

theorem idsToDetails_coupled (ids : List String) :
    RunCoupled K (s.idsToDetails ids) ((s.flagged verbose showUrls).idsToDetails ids) := by
  have hchunk : ∀ chunk, RunCoupled K (s.printDetails chunk)
      ((s.flagged verbose showUrls).printDetails chunk) := by
    intro chunk
    have hlookup := Client.descriptorsOfIds_coupled K s.query verbose showUrls chunk
    exact (RunCoupled.exchange _ hlookup).bind fun ds => s.printDescriptors_coupled K ds
  unfold idsToDetails
  by_cases hids : ids.isEmpty = true
  · rw [if_pos hids, if_pos hids]
    exact (RunCoupled.ofExcept id (inputLines s.input)).bind fun ids => RunCoupled.forM hchunk
  · rw [if_neg hids, if_neg hids]
    exact (RunCoupled.pure ids).bind fun ids => RunCoupled.forM hchunk

theorem pageDetails_coupled (page : Page) :
    Coupled K Eq (s.pageDetails page).run ((s.flagged verbose showUrls).pageDetails page).run := by
  have hids := descriptorIds_coupled (K := K) s.query verbose showUrls page
  refine (hids.adapt Report.ofClientError).exchangeBind fun ids => ?_
  by_cases hempty : ids.isEmpty = true
  · rw [if_pos hempty, if_pos hempty]
    exact Coupled.pure rfl
  · rw [if_neg hempty, if_neg hempty]
    exact (Client.descriptorsOfIds_coupled K s.query verbose showUrls ids).adapt _

theorem tagToDetails_coupled (tag : String) :
    RunCoupled K (s.tagToDetails tag) ((s.flagged verbose showUrls).tagToDetails tag) := by
  refine (s.resolveTag_coupled K verbose showUrls tag).bind fun id => ?_
  have hflagged : (s.flagged verbose showUrls).client.taggedObjects id
      (s.flagged verbose showUrls).query =
      (s.client.taggedObjects id s.query).map (·.flagged showUrls) :=
    Client.taggedObjects_flagged s.query verbose showUrls id
  rw [hflagged]
  cases s.client.taggedObjects id s.query with
  | error e => exact fun _ => Coupled.pure rfl
  | ok l =>
    have hl : SamePlace l (l.flagged showUrls) := ⟨rfl, rfl⟩
    have hwalk : Coupled K Eq (s.client.walk (during (listing tag)) s.pageDetails l)
        (s.client.walk (during (listing tag)) (s.flagged verbose showUrls).pageDetails
          (l.flagged showUrls)) :=
      Client.walk_coupled K (s.pageDetails_coupled K verbose showUrls) hl
    have hrest := (RunCoupled.inSession hwalk).bind
      (RunCoupled.finishWalk (s.printDescriptors_coupled K))
    exact hrest

theorem search_coupled (params : List (String × String)) :
    RunCoupled K (s.search params) ((s.flagged verbose showUrls).search params) := by
  have hwalk := Client.search_coupled K s.query verbose showUrls params
  refine (RunCoupled.inSession hwalk).bind fun w => ?_
  exact RunCoupled.finishWalk (s.printDescriptors_coupled K) _

theorem writeOne_coupled (kind : Kind) (opts : WriteOptions) (item : Except Report Fields) :
    RunCoupled K (s.writeOne kind opts item)
      ((s.flagged verbose showUrls).writeOne kind (opts.flagged showUrls) item) := by
  cases item with
  | ok fs =>
    refine (RunCoupled.inSession (Client.write_coupled K showUrls kind fs opts)).bind fun o => ?_
    exact (RunCoupled.printText _).bind fun _ => RunCoupled.pure _
  | error r =>
    refine (RunCoupled.inSession (Coupled.note _ _)).bind fun _ => ?_
    exact (RunCoupled.printText _).bind fun _ => RunCoupled.pure _

theorem write_coupled (kind : Kind) (fields : List String) (fromInput : Bool)
    (opts : WriteOptions) :
    RunCoupled K (s.write kind fields fromInput opts)
      ((s.flagged verbose showUrls).write kind fields fromInput (opts.flagged showUrls)) := by
  refine (RunCoupled.ofExcept id (s.batch fields fromInput)).bind fun items => ?_
  refine (RunCoupled.mapM (s.writeOne_coupled K verbose showUrls kind opts)).bind fun results => ?_
  by_cases hfailed : 0 < results.countP (!·)
  · simp only [hfailed, if_true]
    exact RunCoupled.fail _
  · simp only [hfailed, if_false]
    exact RunCoupled.pure ()

theorem act_coupled (a : Action) :
    RunCoupled K (s.act a) ((s.flagged verbose showUrls).act a) := by
  cases a with
  | tagToIds tag => exact s.tagToIds_coupled K verbose showUrls tag
  | idsToDetails ids => exact s.idsToDetails_coupled K verbose showUrls ids
  | tagToDetails tag => exact s.tagToDetails_coupled K verbose showUrls tag
  | search params => exact s.search_coupled K verbose showUrls params
  | write kind fields fromInput dryRun =>
    exact s.write_coupled K verbose showUrls kind fields fromInput ⟨dryRun, s.query.showUrls⟩

end Setup

def Options.flagged (o : Options) (verbose showUrls : Bool) : Options :=
  { o with verbose, showUrls }

def Invocation.flagged (i : Invocation) (verbose showUrls : Bool) : Invocation :=
  { i with options := i.options.flagged verbose showUrls }

theorem setupOf_flagged (w : World) (o : Options) (verbose showUrls : Bool) :
    setupOf w (o.flagged verbose showUrls) =
      (setupOf w o).map (·.flagged verbose showUrls) := by
  unfold setupOf
  dsimp only [Options.flagged]
  cases Settings.load w.files o.config w.environment with
  | error e => rfl
  | ok settings =>
    have hoverride : override settings { o with verbose, showUrls } = override settings o := rfl
    dsimp only
    rw [hoverride]
    cases (override settings o).client w.environment <;> rfl

/-- What two runs show is the same. -/
structure Outcome.Shows (o o' : Outcome) : Prop where
  exitCode : o.exitCode = o'.exitCode
  output : o.output = o'.output
  errors : o.errors = o'.errors

theorem outcomeOf_shows {x x' : (Except Report Unit × List String) × Traffic} (h : x.1 = x'.1) :
    (outcomeOf x).Shows (outcomeOf x') := by
  obtain ⟨⟨result, output⟩, traffic⟩ := x
  obtain ⟨y, traffic'⟩ := x'
  obtain rfl : (result, output) = y := h
  cases result <;> exact ⟨rfl, rfl, rfl⟩

theorem runInvocation_unprepared {w : World} {i : Invocation} {r : Report}
    (h : setupOf w i.options = .error r) :
    ∃ log, runInvocation w i = ⟨1, [], r.lines, ⟨w.network, [], log⟩⟩ := by
  obtain ⟨⟨network, sent, log⟩, hprepare, hnetwork, hsent⟩ :=
    runFrom_prepare w i.options [] (.start w.network)
  obtain rfl : network = w.network := hnetwork
  obtain rfl : sent = [] := hsent
  refine ⟨log, ?_⟩
  rw [runInvocation_runFrom, runFrom_bind, hprepare, h]
  rfl

theorem runInvocation_coupled {w w' : World} {i : Invocation} {s : Setup}
    {verbose showUrls : Bool} (hs : setupOf w i.options = .ok s)
    (hs' : setupOf w' (i.flagged verbose showUrls).options = .ok (s.flagged verbose showUrls))
    (K : Coupling s.client) (hstart : K.related (.start w.network) (.start w'.network))
    (hfair : K.fair (runInvocation w i).traffic.sent) :
    (runInvocation w i).Shows (runInvocation w' (i.flagged verbose showUrls)) ∧
      K.related (runInvocation w i).traffic
        (runInvocation w' (i.flagged verbose showUrls)).traffic := by
  obtain ⟨log, hrun⟩ := runInvocation_eq hs
  obtain ⟨log', hrun'⟩ := runInvocation_eq hs'
  have ht : K.related ⟨w.network, [], log⟩ ⟨w'.network, [], log'⟩ :=
    K.silent hstart ⟨rfl, rfl⟩ ⟨rfl, rfl⟩
  rw [hrun] at hfair ⊢
  rw [hrun']
  rw [outcomeOf_traffic] at hfair
  obtain ⟨hresult, hrelated⟩ :=
    (s.act_coupled K verbose showUrls i.action []).keeps _ _ ht hfair
  refine ⟨outcomeOf_shows hresult, ?_⟩
  rw [outcomeOf_traffic, outcomeOf_traffic]
  exact hrelated

end Command
end ThreatGraph
