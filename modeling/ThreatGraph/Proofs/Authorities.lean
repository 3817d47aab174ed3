import ThreatGraph.Proofs.Hosts
import ThreatGraph.Web.UrlReader

/-!
# Authorities read back

The userinfo, the host and the port of an authority are found in its text as they were written, and
what is read is written in the same way.
-/

namespace ThreatGraph
namespace Web

open Percent (Clean)

namespace Userinfo

/-- A user whose name and password are encoded; one of them at least is given. -/
structure IsWritten (u : Userinfo) : Prop where
  username : Clean Percent.inUserinfo u.username
  password : ∀ p ∈ u.password, p ≠ [] ∧ Clean Percent.inUserinfo p
  given : u.password = none → u.username ≠ []

def body (u : Userinfo) : List Char :=
  u.username ++ (match u.password with
    | some p => ':' :: p
    | none => [])

theorem print_eq (u : Userinfo) : u.print = u.body ++ ['@'] := rfl

variable {u : Userinfo}

theorem IsWritten.body_ne_nil (h : u.IsWritten) : u.body ≠ [] := by
  cases hp : u.password with
  | none => simpa [body, hp] using h.given hp
  | some p => simp [body, hp]

theorem not_inUserinfo_of_clean {cs : List Char} (h : Clean Percent.inUserinfo cs) : ':' ∉ cs :=
  fun hmem => absurd (h ':' hmem) (by decide)

theorem makeUserinfo_body (h : u.IsWritten) : Url.makeUserinfo u.body = some u := by
  have hname := Percent.encode_of_clean h.username
  obtain ⟨username, password⟩ := u
  cases password with
  | none =>
    have hne : username ≠ [] := h.given rfl
    have hsplit : Text.splitFirst ':' username = none :=
      Text.splitFirst_eq_none_iff.2 (not_inUserinfo_of_clean h.username)
    simp only at hname
    simp [Url.makeUserinfo, body, hsplit, hne, hname]
  | some p =>
    obtain ⟨hne, hclean⟩ := h.password p rfl
    have hsplit : Text.splitFirst ':' (username ++ ':' :: p) = some (username, p) :=
      Text.splitFirst_eq_some_iff.2 ⟨not_inUserinfo_of_clean h.username, rfl⟩
    simp only at hname
    simp [Url.makeUserinfo, body, hsplit, hne, hname, Percent.encode_of_clean hclean]

end Userinfo

theorem Userinfo.isWritten_encode {username password : List Char}
    (h : ¬ (username.isEmpty && password.isEmpty) = true) :
    IsWritten ⟨Percent.encode Percent.inUserinfo username,
      if password.isEmpty then none else some (Percent.encode Percent.inUserinfo password)⟩ := by
  have hclean := Percent.idempotent_inUserinfo.clean
  refine ⟨hclean _, fun p hp => ?_, fun hnone hname => h ?_⟩
  · simp only [Option.mem_def] at hp
    split at hp
    · cases hp
    · next hne =>
      obtain rfl := Option.some.inj hp
      exact ⟨fun hnil => hne (List.isEmpty_iff.2 (Percent.encode_eq_nil_iff.1 hnil)), hclean _⟩
  · simp only [ite_eq_left_iff, reduceCtorEq, imp_false, Bool.not_eq_true, Bool.not_eq_false]
      at hnone
    rw [hnone, Percent.encode_eq_nil_iff.1 hname]
    rfl

theorem Url.isWritten_makeUserinfo {text : List Char} {u : Userinfo}
    (h : makeUserinfo text = some u) : u.IsWritten := by
  unfold makeUserinfo at h
  split at h
  all_goals
    split at h
    · cases h
    · next hgiven =>
      obtain rfl := Option.some.inj h
      exact Userinfo.isWritten_encode hgiven

namespace Url

theorem isAuthorityEnd_of_isHostChar {special : Bool} {c : Char} (h : Host.isHostChar c = true) :
    isAuthorityEnd special c = false := by
  simp only [Host.isHostChar, Bool.and_eq_true, Bool.not_eq_true', List.contains_eq_mem,
    decide_eq_false_iff_not, List.mem_cons, List.not_mem_nil, or_false, not_or] at h
  simp [isAuthorityEnd, h.2]

theorem hostLength_append {cs : List Char} (h : Host.IsText cs) (special : Bool) {rest : List Char}
    (hrest : ∀ c ∈ rest.head?, c = ':' ∨ isAuthorityEnd special c = true) :
    hostLength special false (cs ++ rest) = cs.length := by
  have hstop : hostLength special false rest = 0 := by
    cases rest with
    | nil => rfl
    | cons c rest =>
      have hc := hrest c rfl
      simp only [hostLength, Bool.not_false, Bool.and_true, Bool.or_eq_true, beq_iff_eq, hc,
        if_true]
  cases h with
  | plain h =>
    induction cs with
    | nil => exact hstop
    | cons c cs ih =>
      obtain ⟨⟨hc, hcolon, hbracket⟩, hcs⟩ := List.forall_mem_cons.1 h
      simp [hostLength, hcolon, hbracket, isAuthorityEnd_of_isHostChar hc, ih hcs]
  | @bracketed cs h =>
    -- Up to the closing bracket a colon ends nothing, so this part is gone through on its own.
    have hinner : hostLength special true (cs ++ (']' :: rest)) = cs.length + 1 := by
      induction cs with
      | nil =>
        have hend : isAuthorityEnd special ']' = false := isAuthorityEnd_of_isHostChar (by decide)
        simp [hostLength, hend, hstop]
      | cons c cs ih =>
        obtain ⟨⟨hc, hbracket⟩, hcs⟩ := List.forall_mem_cons.1 h
        simp [hostLength, hbracket, isAuthorityEnd_of_isHostChar hc, ih hcs]
    have hopen : isAuthorityEnd special '[' = false := isAuthorityEnd_of_isHostChar (by decide)
    simp [hostLength, hopen, hinner]

def IsPort (scheme : List Char) (port : Nat) : Prop :=
  port ≤ 65535 ∧ some port ≠ defaultPort scheme

/-- What follows an authority. -/
def EndsAuthority (special : Bool) (rest : List Char) : Prop :=
  ∀ c ∈ rest.head?, isAuthorityEnd special c = true

theorem EndsAuthority.of_special {special : Bool} {rest : List Char}
    (h : EndsAuthority special rest) : EndsAuthority true rest := by
  intro c hc
  have hend := h c hc
  simp only [isAuthorityEnd, Bool.or_eq_true, Bool.and_eq_true] at hend ⊢
  rcases hend with hend | hend
  · exact .inl hend
  · exact .inr ⟨trivial, hend.2⟩

theorem EndsAuthority.head_ne_colon {special : Bool} {rest : List Char}
    (h : EndsAuthority special rest) : rest.head? ≠ some ':' := fun hcolon =>
  absurd (h ':' hcolon) (by cases special <;> decide)

theorem readPort_append {scheme rest : List Char} {port : Nat} (h : IsPort scheme port)
    (hrest : EndsAuthority true rest) :
    readPort scheme (Nat.toDigits 10 port ++ rest) = .ok (some port, rest) := by
  have hdigit : ∀ c, isAuthorityEnd true c = true → Text.isDigit c = false := by
    intro c hc
    simp only [isAuthorityEnd, Bool.or_eq_true, Bool.and_eq_true, beq_iff_eq] at hc
    rcases hc with ((rfl | rfl) | rfl) | ⟨-, rfl⟩ <;> decide
  obtain ⟨htake, hdrop⟩ := Text.takeWhile_dropWhile_append (Nat.toDigits 10 port) rest
    (fun _ => Host.isDigit_of_mem_toDigits) fun c hc => hdigit c (hrest c hc)
  have hsmall : ¬ 65535 < port := Nat.not_lt.2 h.1
  have hend : (rest.head?.any fun c => !isAuthorityEnd true c) = false := by
    rw [Option.any_eq_false]
    exact fun c hc => by simp [hrest c hc]
  have hne : (Nat.toDigits 10 port).isEmpty = false :=
    List.isEmpty_eq_false_iff.2 Nat.toDigits_ne_nil
  have hdefault : (some port == defaultPort scheme) = false := beq_eq_false_iff_ne.2 h.2
  simp only [readPort, htake, hdrop, Text.digitsValue_toDigits, hsmall, hend, hne, hdefault,
    if_false, Bool.false_eq_true, Bool.or_self]

def readEnd (scheme : List Char) (userinfo : Option Userinfo) (host : Host) :
    List Char → Except UrlFault (Authority × List Char)
  | ':' :: rest => (readPort scheme rest).map fun r => (⟨userinfo, host, r.1⟩, r.2)
  | rest => .ok (⟨userinfo, host, none⟩, rest)

theorem readEnd_of_ne {scheme : List Char} {userinfo : Option Userinfo} {host : Host}
    {rest : List Char} (h : ∀ port, rest ≠ ':' :: port) :
    readEnd scheme userinfo host rest = .ok (⟨userinfo, host, none⟩, rest) := by
  unfold readEnd
  split
  · exact absurd rfl (h _)
  · rfl

def readHostAndPort (scheme : List Char) (userinfo : Option Userinfo) (cs : List Char) :
    Except UrlFault (Authority × List Char) :=
  let length := hostLength (isSpecial scheme) false cs
  if isSpecial scheme && (cs.take length).isEmpty then .error .emptyHost
  else (Host.readAs (isSpecial scheme) (cs.take length)).bind fun host =>
    if host = .name [] && (userinfo.isSome || (cs.drop length).head? = some ':') then
      .error .emptyHost
    else readEnd scheme userinfo host (cs.drop length)

theorem readAuthority_eq (scheme cs : List Char) :
    readAuthority scheme cs =
      (readUserinfo (isSpecial scheme) cs).bind fun r => readHostAndPort scheme r.1 r.2 := by
  unfold readAuthority readHostAndPort
  simp only [bind, Except.bind, pure, Except.pure, throw, throwThe, MonadExceptOf.throw,
    Host.readAs]
  cases readUserinfo (isSpecial scheme) cs with
  | error e => rfl
  | ok r =>
    obtain ⟨userinfo, cs⟩ := r
    simp only
    generalize cs.take (hostLength (isSpecial scheme) false cs) = text
    generalize cs.drop (hostLength (isSpecial scheme) false cs) = rest
    split
    · rfl
    · split
      all_goals
        split
        · rfl
        · split
          · rfl
          · split
            · next rest _ =>
              rw [readEnd]
              cases readPort scheme rest <;> rfl
            · next hcolon => rw [readEnd_of_ne hcolon]

end Url

/-- An authority whose parts are read from what is written of them. -/
structure Authority.IsWritten (scheme : List Char) (a : Authority) : Prop where
  userinfo : ∀ u ∈ a.userinfo, u.IsWritten
  host : a.host.IsWritten (isSpecial scheme)
  port : ∀ n ∈ a.port, Url.IsPort scheme n
  special : isSpecial scheme = true → a.host.print ≠ []
  alone : a.host = .name [] → a.userinfo = none ∧ a.port = none

namespace Authority

variable {scheme : List Char} {a : Authority}

def portText (a : Authority) : List Char :=
  match a.port with
  | some n => ':' :: Nat.toDigits 10 n
  | none => []

def userinfoText (a : Authority) : List Char :=
  match a.userinfo with
  | some u => u.print
  | none => []

theorem print_eq (a : Authority) : a.print = a.userinfoText ++ a.host.print ++ a.portText := rfl

theorem isHostChar_of_isText {cs : List Char} (h : Host.IsText cs) {c : Char} (hc : c ∈ cs) :
    Host.isHostChar c = true := by
  cases h with
  | plain h => exact (h c hc).1
  | bracketed h =>
    rcases List.mem_cons.1 hc with rfl | hc
    · decide
    · rcases List.mem_append.1 hc with hc | hc
      · exact (h c hc).1
      · rw [List.mem_singleton.1 hc]
        decide

theorem isHostChar_portText {c : Char} (h : c ∈ a.portText) : Host.isHostChar c = true := by
  have hdigits : ∀ d < 10, Host.isHostChar (Nat.digitChar d) = true := by decide
  unfold portText at h
  split at h
  · rcases List.mem_cons.1 h with rfl | h
    · decide
    · obtain ⟨d, hd, rfl⟩ := mem_toDigits (by decide) h
      exact hdigits d hd
  · cases h

theorem isHostChar_hostText (h : a.IsWritten scheme) {c : Char}
    (hc : c ∈ a.host.print ++ a.portText) : Host.isHostChar c = true := by
  rcases List.mem_append.1 hc with hc | hc
  · exact isHostChar_of_isText h.host.text hc
  · exact isHostChar_portText hc

theorem isAuthorityEnd_of_not_inUserinfo {special : Bool} {c : Char}
    (h : Percent.inUserinfo c = false) : Url.isAuthorityEnd special c = false := by
  simp only [Percent.inUserinfo, Percent.inPath, Bool.or_eq_false_iff, List.contains_eq_mem,
    decide_eq_false_iff_not, List.mem_cons, List.not_mem_nil, or_false, not_or] at h
  simp [Url.isAuthorityEnd, h]

theorem not_isAuthorityEnd_body {u : Userinfo} (h : u.IsWritten) (special : Bool) {c : Char}
    (hc : c ∈ u.body) : Url.isAuthorityEnd special c = false := by
  unfold Userinfo.body at hc
  rcases List.mem_append.1 hc with hc | hc
  · exact isAuthorityEnd_of_not_inUserinfo (h.username c hc)
  · split at hc
    · next p hp =>
      rcases List.mem_cons.1 hc with rfl | hc
      · cases special <;> decide
      · exact isAuthorityEnd_of_not_inUserinfo ((h.password p hp).2 c hc)
    · cases hc

theorem not_isAuthorityEnd_print (h : a.IsWritten scheme) (special : Bool) {c : Char}
    (hc : c ∈ a.print) : Url.isAuthorityEnd special c = false := by
  rw [print_eq, List.append_assoc] at hc
  rcases List.mem_append.1 hc with hc | hc
  · unfold userinfoText at hc
    split at hc
    · next u hu =>
      rw [Userinfo.print_eq] at hc
      rcases List.mem_append.1 hc with hc | hc
      · exact not_isAuthorityEnd_body (h.userinfo u hu) special hc
      · rw [List.mem_singleton.1 hc]
        cases special <;> decide
    · cases hc
  · exact Url.isAuthorityEnd_of_isHostChar (isHostChar_hostText h hc)

theorem readUserinfo_print (h : a.IsWritten scheme) {special : Bool} {rest : List Char}
    (hrest : Url.EndsAuthority special rest) :
    Url.readUserinfo special (a.print ++ rest) =
      .ok (a.userinfo, a.host.print ++ a.portText ++ rest) := by
  -- The last `@` ends the userinfo, as there is none behind it.
  have hat : '@' ∉ a.host.print ++ a.portText := fun hmem =>
    absurd (isHostChar_hostText h hmem) (by decide)
  have htake : (a.print ++ rest).takeWhile (fun c => !Url.isAuthorityEnd special c) = a.print :=
    (Text.takeWhile_dropWhile_append _ _
      (fun c hc => by simp [not_isAuthorityEnd_print h special hc])
      fun c hc => by simp [hrest c hc]).1
  rw [Url.readUserinfo, htake]
  cases hu : a.userinfo with
  | none =>
    have hprint : a.print = a.host.print ++ a.portText := by
      simp [print_eq, userinfoText, hu]
    rw [hprint, Text.splitLast_of_not_mem hat]
  | some u =>
    have hwritten := h.userinfo u hu
    have hprint : a.print = u.body ++ '@' :: (a.host.print ++ a.portText) := by
      simp [print_eq, userinfoText, hu, Userinfo.print_eq]
    have hdrop : (u.body ++ '@' :: (a.host.print ++ a.portText) ++ rest).drop
        (u.body.length + 1) = a.host.print ++ a.portText ++ rest := by
      rw [← List.drop_drop, List.append_assoc, List.drop_left]
      rfl
    have hne : u.body.isEmpty = false := List.isEmpty_eq_false_iff.2 hwritten.body_ne_nil
    rw [hprint, Text.splitLast_append hat]
    simp only [hdrop, hne, Bool.false_and, Bool.false_eq_true, if_false,
      Userinfo.makeUserinfo_body hwritten]

theorem readAuthority_print (h : a.IsWritten scheme) {rest : List Char}
    (hrest : Url.EndsAuthority (isSpecial scheme) rest) :
    Url.readAuthority scheme (a.print ++ rest) = .ok (a, rest) := by
  have hend : ∀ c ∈ (a.portText ++ rest).head?,
      c = ':' ∨ Url.isAuthorityEnd (isSpecial scheme) c = true := by
    intro c hc
    cases hp : a.port with
    | none => exact .inr (hrest c (by simpa [portText, hp] using hc))
    | some n => exact .inl (by simpa [portText, hp, eq_comm] using hc)
  have hlength := Url.hostLength_append h.host.text (isSpecial scheme) hend
  have htake : (a.host.print ++ (a.portText ++ rest)).take a.host.print.length = a.host.print :=
    List.take_left
  have hdrop : (a.host.print ++ (a.portText ++ rest)).drop a.host.print.length =
      a.portText ++ rest := List.drop_left
  have hspecial : (isSpecial scheme && a.host.print.isEmpty) = false := by
    rw [Bool.and_eq_false_imp]
    exact fun hs => List.isEmpty_eq_false_iff.2 (h.special hs)
  have halone : (decide (a.host = .name []) &&
      (a.userinfo.isSome || decide ((a.portText ++ rest).head? = some ':'))) = false := by
    rw [Bool.and_eq_false_imp, decide_eq_true_eq]
    intro hname
    obtain ⟨huser, hport⟩ := h.alone hname
    simp [huser, portText, hport, hrest.head_ne_colon]
  have hport : Url.readEnd scheme a.userinfo a.host (a.portText ++ rest) = .ok (a, rest) := by
    obtain ⟨userinfo, host, port⟩ := a
    cases port with
    | none =>
      refine Url.readEnd_of_ne fun port heq => ?_
      obtain rfl : rest = ':' :: port := heq
      exact hrest.head_ne_colon rfl
    | some n =>
      have hread := Url.readPort_append (h.port n rfl) hrest.of_special
      rw [portText, List.cons_append, Url.readEnd, hread]
      rfl
  rw [Url.readAuthority_eq, readUserinfo_print h hrest, List.append_assoc]
  simp only [Except.bind, Url.readHostAndPort, hlength, htake, hdrop, hspecial, h.host.reads,
    halone, hport, Bool.false_eq_true, if_false]

end Authority

namespace Url

theorem isPort_of_readPort {scheme cs rest : List Char} {port : Option Nat}
    (h : readPort scheme cs = .ok (port, rest)) : ∀ n ∈ port, IsPort scheme n := by
  unfold readPort at h
  simp only at h
  split at h
  · cases h
  · next hsmall =>
    split at h
    · cases h
    · obtain ⟨rfl, -⟩ := Prod.mk.inj (Except.ok.inj h)
      intro n hn
      simp only [Option.mem_def] at hn
      split at hn
      · cases hn
      · next hdefault =>
        obtain rfl := Option.some.inj hn
        simp only [Bool.or_eq_true, beq_iff_eq, not_or] at hdefault
        exact ⟨Nat.not_lt.1 hsmall, hdefault.2⟩

theorem isWritten_of_readUserinfo {special : Bool} {cs rest : List Char}
    {userinfo : Option Userinfo} (h : readUserinfo special cs = .ok (userinfo, rest)) :
    ∀ u ∈ userinfo, u.IsWritten := by
  unfold readUserinfo at h
  split at h
  · obtain ⟨rfl, -⟩ := Prod.mk.inj (Except.ok.inj h)
    simp
  · simp only at h
    split at h
    · cases h
    · obtain ⟨rfl, -⟩ := Prod.mk.inj (Except.ok.inj h)
      exact fun u hu => isWritten_makeUserinfo hu

theorem readEnd_ok {scheme : List Char} {userinfo : Option Userinfo} {host : Host} {cs : List Char}
    {a : Authority} {rest : List Char} (h : readEnd scheme userinfo host cs = .ok (a, rest)) :
    a.userinfo = userinfo ∧ a.host = host ∧ (∀ n ∈ a.port, IsPort scheme n) ∧
      (cs.head? ≠ some ':' → a.port = none) := by
  unfold readEnd at h
  split at h
  · next cs =>
    cases hport : readPort scheme cs with
    | error e => simp [hport, Except.map] at h
    | ok r =>
      rw [hport] at h
      obtain ⟨rfl, -⟩ := Prod.mk.inj (Except.ok.inj h)
      exact ⟨rfl, rfl, isPort_of_readPort hport, fun hne => absurd rfl hne⟩
  · obtain ⟨rfl, -⟩ := Prod.mk.inj (Except.ok.inj h)
    exact ⟨rfl, rfl, by simp, fun _ => rfl⟩

theorem isWritten_of_readAuthority {scheme cs rest : List Char} {a : Authority}
    (h : readAuthority scheme cs = .ok (a, rest)) : a.IsWritten scheme := by
  rw [readAuthority_eq] at h
  cases huser : readUserinfo (isSpecial scheme) cs with
  | error e => simp [huser, Except.bind] at h
  | ok r =>
    obtain ⟨userinfo, cs⟩ := r
    simp only [huser, Except.bind, readHostAndPort] at h
    split at h
    · cases h
    · cases hhost : Host.readAs (isSpecial scheme)
          (cs.take (hostLength (isSpecial scheme) false cs)) with
      | error e => simp [hhost] at h
      | ok host =>
        simp only [hhost] at h
        split at h
        · cases h
        · next hempty =>
          obtain ⟨rfl, rfl, hport, hnone⟩ := readEnd_ok h
          refine ⟨isWritten_of_readUserinfo huser, Host.isWritten_of_readAs hhost, hport, ?_, ?_⟩
          · intro hspecial
            rw [Host.readAs, if_pos hspecial] at hhost
            exact (Host.isWritten_of_readSpecial hhost).2
          · intro hname
            simp only [hname, decide_true, Bool.true_and, Bool.or_eq_true, decide_eq_true_eq,
              not_or, Bool.not_eq_true, Option.isSome_eq_false_iff, Option.isNone_iff_eq_none]
              at hempty
            exact ⟨hempty.1, hnone hempty.2⟩

end Url
end Web
end ThreatGraph
