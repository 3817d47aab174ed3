import ThreatGraph.Client.Traffic

/-!
# What sessions leave behind

One equation per step of a session, and the sessions that are silent: they may log, but neither send
anything nor take a reply from the network.
-/

namespace ThreatGraph

open Web (Network Request Response Reply TransferFault Url)

/-- A request as the network sees it. -/
def Web.Request.onWire (r : Request) : Request := { r with url := r.url.target }

variable {α β : Type}

@[simp] theorem run_note (e : Event) (t : Traffic) : (note e).run t = ((), t.note e) := rfl

@[simp] theorem run_send (r : Request) (t : Traffic) : (send r).run t = t.send r := rfl

theorem run_noteIf (wanted : Bool) (e : Event) (t : Traffic) :
    (noteIf wanted e).run t = ((), if wanted then t.note e else t) := by
  cases wanted <;> rfl

@[simp] theorem noteIf_network (wanted : Bool) (e : Event) (t : Traffic) :
    (if wanted then t.note e else t).network = t.network := by
  cases wanted <;> rfl

@[simp] theorem noteIf_sent (wanted : Bool) (e : Event) (t : Traffic) :
    (if wanted then t.note e else t).sent = t.sent := by
  cases wanted <;> rfl

theorem run_bind (s : Session α) (f : α → Session β) (t : Traffic) :
    (s >>= f).run t = (f (s.run t).1).run (s.run t).2 := rfl

theorem run_exchange_bind (x : Exchange α) (f : α → Exchange β) (t : Traffic) :
    (x >>= f).run.run t =
      match x.run.run t with
      | (.ok a, u) => (f a).run.run u
      | (.error e, u) => (.error e, u) := by
  rw [ExceptT.run_bind, run_bind]
  rcases x.run.run t with ⟨_ | a, u⟩ <;> rfl

theorem run_lift_bind (s : Session α) (f : α → Exchange β) (t : Traffic) :
    ((liftM s : Exchange α) >>= f).run.run t = (f (s.run t).1).run.run (s.run t).2 := rfl

@[simp] theorem mapError_ok {ε ε' : Type} (wrap : ε → ε') (a : α) :
    (Except.ok a : Except ε α).mapError wrap = .ok a := rfl

@[simp] theorem mapError_error {ε ε' : Type} (wrap : ε → ε') (e : ε) :
    (Except.error e : Except ε α).mapError wrap = .error (wrap e) := rfl

theorem mapError_eq_ok_iff {ε ε' : Type} {f : ε → ε'} {x : Except ε α} {a : α} :
    x.mapError f = .ok a ↔ x = .ok a := by
  cases x <;> simp

theorem mapError_eq_error_iff {ε ε' : Type} {f : ε → ε'} {x : Except ε α} {e : ε'} :
    x.mapError f = .error e ↔ ∃ m, x = .error m ∧ e = f m := by
  cases x <;> simp [eq_comm]

theorem run_ofExcept {ε : Type} (wrap : ε → ClientError) (x : Except ε α) (t : Traffic) :
    (Exchange.ofExcept wrap x).run.run t = (x.mapError wrap, t) := by
  cases x <;> rfl

theorem send_sent (t : Traffic) (r : Request) :
    (t.send r).2.sent = t.sent ++
      if r.url.requestFault? = none ∧ t.network ≠ .down then [r.onWire] else [] := by
  unfold Traffic.send
  cases hf : r.url.requestFault? with
  | some fault => simp
  | none =>
    rcases hn : t.network with _ | (_ | ⟨_ | _, rest⟩) <;>
      simp [Network.next?, Web.Request.onWire]

theorem send_ok {t u : Traffic} {r : Request} {response : Response}
    (h : t.send r = (.ok response, u)) :
    (u.sent = t.sent ++ [r.onWire]) ∧
      (response = Network.exhausted ∨ u.network.size + 1 = t.network.size) := by
  unfold Traffic.send at h
  cases hf : r.url.requestFault? with
  | some fault => simp [hf] at h
  | none =>
    rcases hn : t.network with _ | (_ | ⟨reply | _, rest⟩) <;>
      simp only [hf, hn, Network.next?, Prod.mk.injEq, Except.ok.injEq, reduceCtorEq,
        false_and] at h
    · obtain ⟨rfl, rfl⟩ := h
      exact ⟨rfl, .inl rfl⟩
    · obtain ⟨rfl, rfl⟩ := h
      exact ⟨rfl, .inr rfl⟩

theorem send_up {t : Traffic} (h : t.network ≠ .down) (r : Request) :
    (t.send r).2.network ≠ .down := by
  unfold Traffic.send
  cases r.url.requestFault? with
  | some fault => exact h
  | none =>
    rcases hn : t.network with _ | (_ | ⟨_ | _, rest⟩)
    · exact absurd hn h
    all_goals simp [Network.next?]

/-- A session that neither sends nor takes a reply. -/
def Silent (s : Session α) : Prop :=
  ∀ t, (s.run t).2.network = t.network ∧ (s.run t).2.sent = t.sent

namespace Silent

theorem pure (a : α) : Silent (pure a) := fun _ => ⟨rfl, rfl⟩

theorem note (e : Event) : Silent (note e) := fun _ => ⟨rfl, rfl⟩

theorem noteIf (wanted : Bool) (e : Event) : Silent (noteIf wanted e) := fun t => by
  simp [run_noteIf]

theorem ofExcept {ε : Type} (wrap : ε → ClientError) (x : Except ε α) :
    Silent (Exchange.ofExcept wrap x).run := fun t => by
  simp [run_ofExcept]

theorem lift {s : Session α} (h : Silent s) : Silent (monadLift s : Exchange α).run := h

theorem exchangeBind {x : Exchange α} {f : α → Exchange β} (hx : Silent x.run)
    (hf : ∀ a, Silent (f a).run) : Silent (x >>= f).run := by
  intro t
  rw [run_exchange_bind]
  have hx := hx t
  rcases hr : x.run.run t with ⟨_ | a, u⟩ <;> simp only [hr] at hx ⊢
  · exact hx
  · exact ⟨((hf a) u).1.trans hx.1, ((hf a) u).2.trans hx.2⟩

end Silent

end ThreatGraph
