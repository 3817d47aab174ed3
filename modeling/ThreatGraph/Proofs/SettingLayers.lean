import ThreatGraph.Proofs.CommandRuns

/-!
# Layers of settings

Each setting has a key of its own.  It is what the variable for this key is set to, or else what the
file sets the key to, or else its default, and nothing that other names are set to changes it.  So
settings cannot be loaded just when the file cannot be read or when what one of the keys is set to
in the end is nothing for its setting; a value that a variable hides does no harm.  The switches of
the command come last, each for its own setting.
-/

namespace ThreatGraph

section Except

variable {ε α β : Type} {x : Except ε α} {f : α → Except ε β}

theorem bind_ok_iff {b : β} : x >>= f = .ok b ↔ ∃ a, x = .ok a ∧ f a = .ok b := by
  cases x <;> simp [bind, Except.bind]

theorem bind_error_iff {e : ε} :
    x >>= f = .error e ↔ x = .error e ∨ ∃ a, x = .ok a ∧ f a = .error e := by
  cases x <;> simp [bind, Except.bind]

end Except

namespace Settings

/-- The settings, as a file or the environment can set them. -/
inductive Key where
  | baseUrl
  | tokenVariable
  | pageSize
  | timeoutSeconds
  | maxAttempts
  | backoff
  deriving DecidableEq, Repr

namespace Key

def name : Key → String
  | .baseUrl => "base_url"
  | .tokenVariable => "token_env"
  | .pageSize => "page_size"
  | .timeoutSeconds => "timeout_secs"
  | .maxAttempts => "retry_attempts"
  | .backoff => "retry_backoff_ms"

/-- What a setting consists of: a text or a number. -/
def Value : Key → Type
  | .baseUrl => String
  | .tokenVariable => String
  | .pageSize => Nat
  | .timeoutSeconds => Nat
  | .maxAttempts => Nat
  | .backoff => Nat

def of : (k : Key) → Settings → k.Value
  | .baseUrl => Settings.baseUrl
  | .tokenVariable => Settings.tokenVariable
  | .pageSize => Settings.pageSize
  | .timeoutSeconds => Settings.timeoutSeconds
  | .maxAttempts => Settings.maxAttempts
  | .backoff => Settings.backoff

def default (k : Key) : k.Value := k.of {}

/-- How an entry is read as this setting. -/
def entry : (k : Key) → Entry → String → Except Fault k.Value
  | .baseUrl => Entry.text
  | .tokenVariable => Entry.text
  | .pageSize => Entry.halfWord
  | .timeoutSeconds => Entry.word
  | .maxAttempts => Entry.word
  | .backoff => Entry.word

/-- What a value becomes as this setting, if it can be one. -/
def convert (k : Key) (raw : Raw) : Option k.Value := (k.entry ⟨raw, none⟩ k.name).toOption

def read (k : Key) (l : Layer) : Except Fault k.Value := Settings.read k.entry l k.name k.default

end Key

theorem ext_key {s s' : Settings} (h : ∀ k : Key, k.of s = k.of s') : s = s' := by
  obtain ⟨baseUrl, tokenVariable, pageSize, timeoutSeconds, maxAttempts, backoff⟩ := s
  obtain rfl : baseUrl = _ := h .baseUrl
  obtain rfl : tokenVariable = _ := h .tokenVariable
  obtain rfl : pageSize = _ := h .pageSize
  obtain rfl : timeoutSeconds = _ := h .timeoutSeconds
  obtain rfl : maxAttempts = _ := h .maxAttempts
  obtain rfl : backoff = _ := h .backoff
  rfl

theorem ofLayer_ok_iff {l : Layer} {s : Settings} :
    ofLayer l = .ok s ↔ ∀ k : Key, k.read l = .ok (k.of s) := by
  constructor
  · intro h
    simp only [ofLayer, bind_ok_iff] at h
    obtain ⟨_, hbaseUrl, _, htoken, _, hpageSize, _, htimeout, _, hattempts, _, hbackoff, hs⟩ := h
    cases hs
    intro k
    cases k <;> assumption
  · intro h
    simp only [ofLayer, bind_ok_iff]
    exact ⟨_, h .baseUrl, _, h .tokenVariable, _, h .pageSize, _, h .timeoutSeconds, _,
      h .maxAttempts, _, h .backoff, rfl⟩

theorem exists_of_ofLayer_error {l : Layer} {f : Fault} (h : ofLayer l = .error f) :
    ∃ k : Key, k.read l = .error f := by
  simp only [ofLayer, bind_error_iff] at h
  rcases h with h | ⟨_, -, h | ⟨_, -, h | ⟨_, -, h | ⟨_, -, h | ⟨_, -, h | ⟨_, -, h⟩⟩⟩⟩⟩⟩
  · exact ⟨.baseUrl, h⟩
  · exact ⟨.tokenVariable, h⟩
  · exact ⟨.pageSize, h⟩
  · exact ⟨.timeoutSeconds, h⟩
  · exact ⟨.maxAttempts, h⟩
  · exact ⟨.backoff, h⟩
  · cases h

theorem toOption_text (e : Entry) (key : String) :
    (e.text key).toOption = ((⟨e.raw, none⟩ : Entry).text key).toOption := by
  obtain ⟨raw, origin⟩ := e
  cases raw <;> rfl

theorem toOption_word (e : Entry) (key : String) :
    (e.word key).toOption = ((⟨e.raw, none⟩ : Entry).word key).toOption := by
  obtain ⟨raw, origin⟩ := e
  cases raw with
  | integer n => by_cases h : 0 ≤ n <;> simp [Entry.word, h, Entry.refuse, Except.toOption]
  | text s => cases h : wordOfText? s <;> simp [Entry.word, h, Entry.refuse, Except.toOption]
  | _ => rfl

theorem toOption_halfWord (e : Entry) (key : String) :
    (e.halfWord key).toOption = ((⟨e.raw, none⟩ : Entry).halfWord key).toOption := by
  have hbind (e : Entry) : (e.halfWord key).toOption =
      (e.word key).toOption.bind fun n => if n ≤ maxHalfWord then some n else none := by
    unfold Entry.halfWord
    cases e.word key with
    | error f => rfl
    | ok n => by_cases h : n ≤ maxHalfWord <;> simp [h, Except.toOption]
  rw [hbind, hbind, toOption_word]

theorem toOption_entry (k : Key) (e : Entry) : (k.entry e k.name).toOption = k.convert e.raw := by
  cases k with
  | baseUrl => exact toOption_text e _
  | tokenVariable => exact toOption_text e _
  | pageSize => exact toOption_halfWord e _
  | timeoutSeconds => exact toOption_word e _
  | maxAttempts => exact toOption_word e _
  | backoff => exact toOption_word e _

theorem key_of_refused {k : Key} {e : Entry} {f : Fault} (h : k.entry e k.name = .error f) :
    f.key = k.name := by
  have hrefuse {α : Type} {key : String} {expected : Expected}
      (h : (e.refuse key expected : Except Fault α) = .error f) : f.key = key := by
    cases h
    rfl
  have htext {key : String} (h : e.text key = .error f) : f.key = key := by
    unfold Entry.text at h
    split at h <;> first | exact hrefuse h | cases h
  have hword {key : String} (h : e.word key = .error f) : f.key = key := by
    unfold Entry.word at h
    repeat' split at h
    all_goals first | exact hrefuse h | cases h
  cases k with
  | baseUrl => exact htext h
  | tokenVariable => exact htext h
  | pageSize =>
    -- A word that does not fit into half a word has a fault without an origin.
    change e.halfWord _ = .error f at h
    unfold Entry.halfWord at h
    split at h
    · next f' hf =>
      cases h
      exact hword hf
    · split at h <;> cases h
      rfl
  | timeoutSeconds => exact hword h
  | maxAttempts => exact hword h
  | backoff => exact hword h

/-- A name in a file stands for a key, in any case. -/
def SpellsKey (name key : String) : Prop := lower name.toList = key.toList

/-- A name of a variable stands for a key: it has the mark in front of it. -/
def SpellsVariable (name key : String) : Prop := lower name.toList = variableMark ++ key.toList

def SetByVariable (env : Environment) (key text : String) : Prop :=
  ∃ name, (name, text) ∈ env ∧ SpellsVariable name key

/-- There is a file at the path, and it holds these members. -/
def FileHolds (files : Files) (path : String) (ms : Toml.Members) : Prop :=
  ∃ file text, findFile? files path = some (file, text) ∧ Toml.read? text = some ms

def SetByFile (files : Files) (path key : String) (v : Toml.Value) : Prop :=
  ∃ ms name, FileHolds files path ms ∧ (name, v) ∈ ms ∧ SpellsKey name key

/-- There is a file at the path that is no TOML. -/
def Unreadable (files : Files) (path : String) : Prop :=
  ∃ file text, findFile? files path = some (file, text) ∧ Toml.read? text = none

/-- What a key is set to in the end: by its variable, or else by the file. -/
inductive SetTo (files : Files) (path : String) (env : Environment) (key : String) : Raw → Prop
  | ofVariable {text : String} (h : SetByVariable env key text) :
    SetTo files path env key (.ofVariable text)
  | ofFile {v : Toml.Value} (hunset : ∀ text, ¬ SetByVariable env key text)
    (h : SetByFile files path key v) : SetTo files path env key (.ofToml v)

/-- Every key has one spelling among the variables and one in the file, and no name is a path into a
table. -/
structure PlainKeys (files : Files) (path : String) (env : Environment) : Prop where
  oneVariable : ∀ a ∈ env, ∀ b ∈ env, ∀ key,
    SpellsVariable a.1 key → SpellsVariable b.1 key → a = b
  oneMember : ∀ ms, FileHolds files path ms → ∀ a ∈ ms, ∀ b ∈ ms, ∀ key,
    SpellsKey a.1 key → SpellsKey b.1 key → a = b
  noVariablePath : ∀ a ∈ env, ∀ key, SpellsVariable a.1 key → '.' ∉ key.toList ∧ '[' ∉ key.toList
  noMemberPath : ∀ ms, FileHolds files path ms → ∀ a ∈ ms, '.' ∉ a.1.toList ∧ '[' ∉ a.1.toList

namespace Layer

variable {l : Layer} {key : String} {e : Entry}

theorem get?_append (l l' : Layer) (key : String) :
    (l ++ l').get? key = (l'.get? key).or (l.get? key) := by
  rw [get?, get?, get?, List.reverse_append, List.lookup_append]

theorem mem_of_get? (h : l.get? key = some e) : (key, e) ∈ l := by
  obtain ⟨front, back, hl, -⟩ := List.lookup_eq_some_iff.1 h
  rw [← List.mem_reverse, hl]
  simp

theorem get?_eq_none_iff : l.get? key = none ↔ ∀ e, (key, e) ∉ l := by
  rw [get?, List.lookup_eq_none_iff]
  simp only [List.mem_reverse, bne_iff_ne]
  constructor
  · intro h e he
    exact h _ he rfl
  · rintro h p hp rfl
    exact h p.2 hp

theorem mem_ofEnvironment {env : Environment} : (key, e) ∈ ofEnvironment env ↔
    ∃ text, SetByVariable env key text ∧ e = ⟨.ofVariable text, environmentOrigin⟩ := by
  have hof (v : String × String) : ofVariable? v = some (key, e) ↔
      SpellsVariable v.1 key ∧ e = ⟨.ofVariable v.2, environmentOrigin⟩ := by
    simp only [ofVariable?, SpellsVariable]
    by_cases hmark : variableMark.isPrefixOf (lower v.1.toList) = true
    · obtain ⟨rest, hrest⟩ := List.isPrefixOf_iff_prefix.1 hmark
      rw [if_pos hmark, ← hrest, List.drop_left, Option.some.injEq, Prod.mk.injEq,
        List.append_cancel_left_eq, eq_comm (a := rest), ← String.toList_inj,
        String.toList_ofList, eq_comm (a := rest), eq_comm (a := e)]
    · rw [if_neg hmark]
      simp only [reduceCtorEq, false_iff, not_and]
      intro hspells
      exact absurd (List.isPrefixOf_iff_prefix.2 ⟨_, hspells.symm⟩) hmark
  simp only [ofEnvironment, List.mem_filterMap, hof]
  constructor
  · rintro ⟨⟨name, text⟩, hmem, hspells, he⟩
    exact ⟨text, ⟨name, hmem, hspells⟩, he⟩
  · rintro ⟨text, ⟨name, hmem, hspells⟩, he⟩
    exact ⟨(name, text), hmem, hspells, he⟩

theorem mem_ofToml {file : String} {ms : Toml.Members} : (key, e) ∈ ofToml file ms ↔
    ∃ m ∈ ms, SpellsKey m.1 key ∧
      e = ⟨.ofToml m.2, if Raw.ofToml m.2 = .map then none else some file⟩ := by
  simp only [ofToml, List.mem_map, Prod.mk.injEq, SpellsKey]
  refine exists_congr fun m => and_congr_right fun _ => ?_
  rw [← String.toList_inj, String.toList_ofList, eq_comm (a := e)]

end Layer

variable {files : Files} {path : String} {env : Environment} {key : String} {raw : Raw} {l : Layer}

theorem fileLayer_ok_iff : (∃ l, fileLayer files path = .ok l) ↔ ¬ Unreadable files path := by
  unfold fileLayer Unreadable
  cases findFile? files path with
  | none => simp
  | some p =>
    obtain ⟨file, text⟩ := p
    cases h : Toml.read? text <;> simp [h]

theorem fileLayer_error {e : LoadError} (h : fileLayer files path = .error e) :
    e = .unreadable path := by
  unfold fileLayer at h
  split at h
  · cases h
  · split at h <;> cases h
    rfl

theorem mem_fileLayer (h : fileLayer files path = .ok l) :
    (∃ e, (key, e) ∈ l ∧ e.raw = raw) ↔ ∃ v, SetByFile files path key v ∧ raw = .ofToml v := by
  unfold fileLayer at h
  cases hfile : findFile? files path with
  | none =>
    rw [hfile] at h
    cases h
    simp [SetByFile, FileHolds, hfile]
  | some p =>
    obtain ⟨file, text⟩ := p
    rw [hfile] at h
    cases hms : Toml.read? text with
    | none => simp [hms] at h
    | some ms =>
      simp only [hms, Except.ok.injEq] at h
      subst h
      have hholds (ms' : Toml.Members) : FileHolds files path ms' ↔ ms' = ms := by
        simp [FileHolds, hfile, hms, eq_comm]
      simp only [Layer.mem_ofToml, SetByFile, hholds]
      constructor
      · rintro ⟨_, ⟨⟨name, v⟩, hmem, hspells, rfl⟩, rfl⟩
        exact ⟨v, ⟨ms, name, rfl, hmem, hspells⟩, rfl⟩
      · rintro ⟨v, ⟨_, name, rfl, hmem, hspells⟩, rfl⟩
        exact ⟨_, ⟨(name, v), hmem, hspells, rfl⟩, rfl⟩

theorem mem_environment : (∃ e, (key, e) ∈ Layer.ofEnvironment env ∧ e.raw = raw) ↔
    ∃ text, SetByVariable env key text ∧ raw = .ofVariable text := by
  simp only [Layer.mem_ofEnvironment]
  constructor
  · rintro ⟨_, ⟨text, hset, rfl⟩, rfl⟩
    exact ⟨text, hset, rfl⟩
  · rintro ⟨text, hset, rfl⟩
    exact ⟨_, ⟨text, hset, rfl⟩, rfl⟩

theorem get?_map_raw {p : Raw → Prop} (hmem : ∀ raw, (∃ e, (key, e) ∈ l ∧ e.raw = raw) ↔ p raw)
    (hone : ∀ raw raw', p raw → p raw' → raw = raw') :
    (l.get? key).map (·.raw) = some raw ↔ p raw := by
  constructor
  · intro h
    obtain ⟨e, he, rfl⟩ := Option.map_eq_some_iff.1 h
    exact (hmem _).1 ⟨e, Layer.mem_of_get? he, rfl⟩
  · intro h
    cases hget : l.get? key with
    | none =>
      obtain ⟨e, he, -⟩ := (hmem raw).2 h
      exact absurd he (Layer.get?_eq_none_iff.1 hget e)
    | some e =>
      have he := (hmem e.raw).1 ⟨e, Layer.mem_of_get? hget, rfl⟩
      exact congrArg some (hone _ _ he h)

theorem SetByVariable.unique (h : PlainKeys files path env) {text text' : String}
    (ht : SetByVariable env key text) (ht' : SetByVariable env key text') : text = text' := by
  obtain ⟨name, hmem, hspells⟩ := ht
  obtain ⟨name', hmem', hspells'⟩ := ht'
  exact congrArg Prod.snd (h.oneVariable _ hmem _ hmem' key hspells hspells')

theorem SetByFile.unique (h : PlainKeys files path env) {v v' : Toml.Value}
    (hv : SetByFile files path key v) (hv' : SetByFile files path key v') : v = v' := by
  obtain ⟨ms, name, hms, hmem, hspells⟩ := hv
  obtain ⟨ms', name', hms', hmem', hspells'⟩ := hv'
  obtain rfl : ms = ms' := by
    obtain ⟨file, text, hfile, hread⟩ := hms
    obtain ⟨file', text', hfile', hread'⟩ := hms'
    obtain ⟨rfl, rfl⟩ := Prod.mk.inj (Option.some.inj (hfile.symm.trans hfile'))
    exact Option.some.inj (hread.symm.trans hread')
  exact congrArg Prod.snd (h.oneMember ms hms _ hmem _ hmem' key hspells hspells')

theorem SetTo.congr {files' : Files} {path' : String} {env' : Environment}
    (hvariable : ∀ text, SetByVariable env key text ↔ SetByVariable env' key text)
    (hfile : (∀ text, ¬ SetByVariable env key text) →
      ∀ v, SetByFile files path key v ↔ SetByFile files' path' key v) :
    SetTo files path env key raw ↔ SetTo files' path' env' key raw := by
  have hunset : (∀ text, ¬ SetByVariable env key text) ↔ ∀ text, ¬ SetByVariable env' key text := by
    simp only [hvariable]
  constructor
  · intro hset
    cases hset with
    | ofVariable ht => exact .ofVariable ((hvariable _).1 ht)
    | ofFile hnone hv => exact .ofFile (hunset.1 hnone) ((hfile hnone _).1 hv)
  · intro hset
    cases hset with
    | ofVariable ht => exact .ofVariable ((hvariable _).2 ht)
    | ofFile hnone hv => exact .ofFile (hunset.2 hnone) ((hfile (hunset.2 hnone) _).2 hv)

theorem get?_raw_eq_some_iff (h : PlainKeys files path env) (hl : fileLayer files path = .ok l) :
    ((l ++ .ofEnvironment env).get? key).map (·.raw) = some raw ↔
      SetTo files path env key raw := by
  have hvariable (raw : Raw) : ((Layer.ofEnvironment env).get? key).map (·.raw) = some raw ↔
      ∃ text, SetByVariable env key text ∧ raw = .ofVariable text := by
    refine get?_map_raw (fun _ => mem_environment) ?_
    rintro _ _ ⟨text, ht, rfl⟩ ⟨text', ht', rfl⟩
    rw [ht.unique h ht']
  have hfile : (l.get? key).map (·.raw) = some raw ↔
      ∃ v, SetByFile files path key v ∧ raw = .ofToml v := by
    refine get?_map_raw (fun _ => mem_fileLayer hl) ?_
    rintro _ _ ⟨v, hv, rfl⟩ ⟨v', hv', rfl⟩
    rw [hv.unique h hv']
  have hnone : ((Layer.ofEnvironment env).get? key).map (·.raw) = none ↔
      ∀ text, ¬ SetByVariable env key text := by
    simp only [Option.eq_none_iff_forall_ne_some, ne_eq, hvariable]
    exact ⟨fun h text ht => h _ ⟨text, ht, rfl⟩, fun h raw ⟨text, ht, _⟩ => h text ht⟩
  -- The environment is looked up first, so the file counts just where no variable is found.
  rw [Layer.get?_append, Option.map_or, Option.or_eq_some_iff, hvariable, hnone, hfile]
  constructor
  · rintro (⟨text, ht, rfl⟩ | ⟨hunset, v, hv, rfl⟩)
    · exact .ofVariable ht
    · exact .ofFile hunset hv
  · intro hset
    cases hset with
    | ofVariable ht => exact .inl ⟨_, ht, rfl⟩
    | ofFile hunset hv => exact .inr ⟨hunset, _, hv, rfl⟩

theorem toOption_read (k : Key) (l : Layer) : (k.read l).toOption =
    ((l.get? k.name).map (·.raw)).elim (some k.default) k.convert := by
  rw [Key.read, read]
  cases l.get? k.name with
  | none => rfl
  | some e => exact toOption_entry k e

theorem load_of_fileLayer (hl : fileLayer files path = .ok l) :
    load files path env = (ofLayer (l ++ .ofEnvironment env)).mapError .mismatch := by
  rw [load, hl]
  dsimp only
  cases ofLayer (l ++ .ofEnvironment env) <;> rfl

/-- How settings are loaded from a file and an environment. -/
structure Layered (files : Files) (path : String) (env : Environment) : Prop where
  value : ∀ s, load files path env = .ok s → ∀ k : Key,
    (∀ raw, SetTo files path env k.name raw → k.convert raw = some (k.of s)) ∧
    ((∀ raw, ¬ SetTo files path env k.name raw) → k.of s = k.default)
  /-- What other names are set to does not matter, nor does the file if there is a variable. -/
  own : ∀ files' path' env', PlainKeys files' path' env' → ∀ k : Key,
    (∀ text, SetByVariable env k.name text ↔ SetByVariable env' k.name text) →
    ((∀ text, ¬ SetByVariable env k.name text) →
      ∀ v, SetByFile files path k.name v ↔ SetByFile files' path' k.name v) →
    ∀ s s', load files path env = .ok s → load files' path' env' = .ok s' → k.of s = k.of s'
  /-- A value in the file that a variable hides does no harm. -/
  hidden : ∀ files' path', PlainKeys files' path' env → ¬ Unreadable files' path' →
    (∀ k : Key, (∀ text, ¬ SetByVariable env k.name text) →
      ∀ v, SetByFile files path k.name v ↔ SetByFile files' path' k.name v) →
    ∀ s, load files path env = .ok s → load files' path' env = .ok s
  fails_iff : (∃ e, load files path env = .error e) ↔ Unreadable files path ∨
    ∃ (k : Key) (raw : Raw), SetTo files path env k.name raw ∧ k.convert raw = none
  error : ∀ e, load files path env = .error e →
    Unreadable files path ∧ e = .unreadable path ∨
    ∃ (k : Key) (raw : Raw) (f : Fault), SetTo files path env k.name raw ∧ k.convert raw = none ∧
      e = .mismatch f ∧ f.key = k.name

theorem exists_fileLayer_of_load {s : Settings} (h : load files path env = .ok s) :
    ∃ l, fileLayer files path = .ok l := by
  cases hl : fileLayer files path with
  | ok l => exact ⟨l, rfl⟩
  | error e => simp [load, hl] at h

theorem toOption_read_of_load {s : Settings} (hl : fileLayer files path = .ok l)
    (h : load files path env = .ok s) (k : Key) :
    ((((l ++ .ofEnvironment env).get? k.name).map (·.raw)).elim (some k.default) k.convert) =
      some (k.of s) := by
  rw [load_of_fileLayer hl] at h
  have hok : ofLayer (l ++ .ofEnvironment env) = .ok s := by
    cases hlayer : ofLayer (l ++ .ofEnvironment env) <;> simp_all [Except.mapError]
  rw [← toOption_read, ofLayer_ok_iff.1 hok k]
  rfl

theorem value_of_load (h : PlainKeys files path env) {s : Settings}
    (hs : load files path env = .ok s) (k : Key) :
    (∀ raw, SetTo files path env k.name raw → k.convert raw = some (k.of s)) ∧
      ((∀ raw, ¬ SetTo files path env k.name raw) → k.of s = k.default) := by
  obtain ⟨l, hl⟩ := exists_fileLayer_of_load hs
  have hread := toOption_read_of_load hl hs k
  constructor
  · intro raw hset
    rwa [(get?_raw_eq_some_iff h hl).2 hset] at hread
  · intro hunset
    have hnone : ((l ++ .ofEnvironment env).get? k.name).map (·.raw) = none :=
      Option.eq_none_iff_forall_ne_some.2 fun raw hraw =>
        hunset raw ((get?_raw_eq_some_iff h hl).1 hraw)
    rw [hnone] at hread
    exact (Option.some.inj hread).symm

theorem refused_of_ofLayer_error (h : PlainKeys files path env)
    (hl : fileLayer files path = .ok l) {f : Fault}
    (hf : ofLayer (l ++ .ofEnvironment env) = .error f) :
    ∃ (k : Key) (raw : Raw), SetTo files path env k.name raw ∧ k.convert raw = none ∧
      f.key = k.name := by
  obtain ⟨k, hk⟩ := exists_of_ofLayer_error hf
  cases hget : (l ++ .ofEnvironment env).get? k.name with
  | none => simp [Key.read, read, hget] at hk
  | some e =>
    have hentry : k.entry e k.name = .error f := by simpa [Key.read, read, hget] using hk
    refine ⟨k, e.raw, (get?_raw_eq_some_iff h hl).1 (by rw [hget]; rfl), ?_, key_of_refused hentry⟩
    rw [← toOption_entry, hentry]
    rfl

/-- Why loading fails. -/
theorem refused_of_load_error (h : PlainKeys files path env) {e : LoadError}
    (he : load files path env = .error e) :
    Unreadable files path ∧ e = .unreadable path ∨
      ∃ (k : Key) (raw : Raw) (f : Fault), SetTo files path env k.name raw ∧
        k.convert raw = none ∧ e = .mismatch f ∧ f.key = k.name := by
  cases hl : fileLayer files path with
  | error e' =>
    have hread : Unreadable files path := by
      by_contra hread
      obtain ⟨l, hl'⟩ := fileLayer_ok_iff.2 hread
      simp [hl'] at hl
    obtain rfl : e' = e := by simpa [load, hl] using he
    exact .inl ⟨hread, fileLayer_error hl⟩
  | ok l =>
    rw [load_of_fileLayer hl] at he
    cases hlayer : ofLayer (l ++ .ofEnvironment env) with
    | ok s => simp [hlayer, Except.mapError] at he
    | error f =>
      obtain rfl : .mismatch f = e := by simpa [hlayer, Except.mapError] using he
      obtain ⟨k, raw, hset, hrefused, hkey⟩ := refused_of_ofLayer_error h hl hlayer
      exact .inr ⟨k, raw, f, hset, hrefused, rfl, hkey⟩

theorem of_eq_of_load {files' : Files} {path' : String} {env' : Environment}
    (h : PlainKeys files path env) (h' : PlainKeys files' path' env') {s s' : Settings}
    (hs : load files path env = .ok s) (hs' : load files' path' env' = .ok s') (k : Key)
    (hset : ∀ raw, SetTo files path env k.name raw ↔ SetTo files' path' env' k.name raw) :
    k.of s = k.of s' := by
  obtain ⟨hvalue, hdefault⟩ := value_of_load h hs k
  obtain ⟨hvalue', hdefault'⟩ := value_of_load h' hs' k
  by_cases hsome : ∃ raw, SetTo files path env k.name raw
  · obtain ⟨raw, hraw⟩ := hsome
    exact Option.some.inj ((hvalue raw hraw).symm.trans (hvalue' raw ((hset raw).1 hraw)))
  · have hnone := not_exists.1 hsome
    rw [hdefault hnone, hdefault' fun raw hraw => hnone raw ((hset raw).2 hraw)]

theorem layered (h : PlainKeys files path env) : Layered files path env where
  value _ hs := value_of_load h hs
  own _ _ _ h' k hvariable hfile _ _ hs hs' :=
    of_eq_of_load h h' hs hs' k fun _ => SetTo.congr hvariable hfile
  hidden files' path' h' hread hfile s hs := by
    have hset (k : Key) (raw : Raw) :
        SetTo files path env k.name raw ↔ SetTo files' path' env k.name raw :=
      SetTo.congr (fun _ => Iff.rfl) (hfile k)
    -- A refusal in the other file would be one in this file, which has loaded.
    cases hs' : load files' path' env with
    | ok s' => rw [ext_key fun k => of_eq_of_load h h' hs hs' k (hset k)]
    | error e =>
      rcases refused_of_load_error h' hs' with ⟨hread', -⟩ | ⟨k, raw, -, hraw, hrefused, -⟩
      · exact absurd hread' hread
      · have hvalue := (value_of_load h hs k).1 raw ((hset k raw).2 hraw)
        simp [hrefused] at hvalue
  fails_iff := by
    constructor
    · rintro ⟨e, he⟩
      rcases refused_of_load_error h he with ⟨hread, -⟩ | ⟨k, raw, -, hset, hrefused, -⟩
      · exact .inl hread
      · exact .inr ⟨k, raw, hset, hrefused⟩
    · intro hwhy
      cases hs : load files path env with
      | error e => exact ⟨e, rfl⟩
      | ok s =>
        rcases hwhy with hread | ⟨k, raw, hset, hrefused⟩
        · exact absurd hread (fileLayer_ok_iff.1 (exists_fileLayer_of_load hs))
        · have hvalue := (value_of_load h hs k).1 raw hset
          simp [hrefused] at hvalue
  error _ he := refused_of_load_error h he

open Command

/-- What a switch of the command says about a setting. -/
def Key.switch : (k : Key) → Options → Option k.Value
  | .baseUrl, o => o.baseUrl
  | .tokenVariable, o => o.tokenVariable
  | .pageSize, o => o.pageSize
  | .timeoutSeconds, _ => none
  | .maxAttempts, _ => none
  | .backoff, _ => none

theorem of_override (k : Key) (s : Settings) (o : Options) :
    k.of (override s o) = (k.switch o).getD (k.of s) := by
  cases k <;> rfl

/-- What a run is set up with. -/
def setUp (w : World) (o : Options) : Except Report Setup :=
  (runFrom (prepare w o) [] (.start w.network)).1.1

theorem setUp_eq (w : World) (o : Options) : setUp w o = setupOf w o := by
  obtain ⟨u, hu, -⟩ := runFrom_prepare w o [] (.start w.network)
  rw [setUp, hu]

/-- A setup has these settings, with a token. -/
structure Shows (s : Settings) (token : String) (setup : Setup) : Prop where
  baseUrl : setup.client.baseUrl = s.baseUrl
  token : setup.client.accessToken = token
  pageSize : setup.query.pageSize = s.pageSize
  timeout : setup.client.timeout = s.timeoutSeconds * 1000
  maxAttempts : setup.client.maxAttempts = s.maxAttempts
  backoff : setup.client.backoff = s.backoff

/-- How switches go into the setup of a run: they do not help settings that cannot be loaded, and
each of them takes the place of its own setting. -/
structure Switched (w : World) (o : Options) : Prop where
  fails : ∀ e, load w.files o.config w.environment = .error e → setUp w o = .error (.ofLoadError e)
  settings : ∀ s, load w.files o.config w.environment = .ok s →
    ∃ s' : Settings, (∀ k : Key, k.of s' = (k.switch o).getD (k.of s)) ∧
      (w.environment.value? s'.tokenVariable = none →
        setUp w o = .error (.ofClientError (.missingCredential s'.tokenVariable))) ∧
      ∀ token, w.environment.value? s'.tokenVariable = some token →
        ∃ setup, setUp w o = .ok setup ∧ Shows s' token setup

theorem switched (w : World) (o : Options) : Switched w o where
  fails e he := by rw [setUp_eq, setupOf, he]
  settings s hs := by
    refine ⟨override s o, fun k => of_override k s o, fun htoken => ?_, fun token htoken => ?_⟩
    · simp [setUp_eq, setupOf, hs, client, Client.ofEnvironment, htoken, Except.map]
    · simp only [setUp_eq, setupOf, hs, client, Client.ofEnvironment, htoken, Except.map]
      exact ⟨_, rfl, rfl, rfl, rfl, rfl, rfl, rfl⟩

/-- Each setting is what its own key is set to, in the layers that are loaded and then by a
switch. -/
theorem settings_layered :
    (∀ files path env, PlainKeys files path env → Layered files path env) ∧
    ∀ (w : World) (o : Options), Switched w o :=
  ⟨fun _ _ _ h => layered h, switched⟩

def twoLayers : World where
  environment := [("THREATX_PAGE_SIZE", "25"), ("TX_ACCESS_TOKEN", "tok")]
  files := [("threatx.toml", "page_size = \"many\"\nretry_attempts = 3\nunknown = 7\n")]
  input := []
  now := 0
  network := .down

theorem findFile_twoLayers : findFile? twoLayers.files "threatx.toml" =
    some ("threatx.toml", "page_size = \"many\"\nretry_attempts = 3\nunknown = 7\n") := by
  decide +kernel

theorem fileHolds_twoLayers {ms : Toml.Members}
    (h : FileHolds twoLayers.files "threatx.toml" ms) :
    ms = [("page_size", .string "many"), ("retry_attempts", .integer 3),
      ("unknown", .integer 7)] := by
  obtain ⟨file, text, hfile, hread⟩ := h
  obtain ⟨rfl, rfl⟩ := Prod.mk.inj (Option.some.inj (hfile.symm.trans findFile_twoLayers))
  exact Option.some.inj (hread.symm.trans rfl)

theorem spellsVariable_twoLayers {v : String × String} {key : String}
    (hmem : v ∈ twoLayers.environment) (h : SpellsVariable v.1 key) :
    v = ("THREATX_PAGE_SIZE", "25") ∧ key = "page_size" := by
  simp only [twoLayers, List.mem_cons, List.not_mem_nil, or_false] at hmem
  rcases hmem with rfl | rfl
  · refine ⟨rfl, ?_⟩
    rw [← String.toList_inj]
    exact (congrArg (List.drop variableMark.length) h).symm
  · have hmark : variableMark.isPrefixOf (lower "TX_ACCESS_TOKEN".toList) = true :=
      List.isPrefixOf_iff_prefix.2 ⟨_, h.symm⟩
    exact absurd hmark (by decide)

theorem plainKeys_twoLayers :
    PlainKeys twoLayers.files "threatx.toml" twoLayers.environment where
  oneVariable a ha b hb key hkey hkey' :=
    (spellsVariable_twoLayers ha hkey).1.trans (spellsVariable_twoLayers hb hkey').1.symm
  noVariablePath a ha key hkey := by
    rw [(spellsVariable_twoLayers ha hkey).2]
    decide
  oneMember ms hms a ha b hb key hkey hkey' := by
    have hsame : lower a.1.toList = lower b.1.toList := hkey.trans hkey'.symm
    rw [fileHolds_twoLayers hms] at ha hb
    simp only [List.mem_cons, List.not_mem_nil, or_false] at ha hb
    rcases ha with rfl | rfl | rfl <;> rcases hb with rfl | rfl | rfl <;>
      first | rfl | exact absurd hsame (by decide)
  noMemberPath ms hms a ha := by
    rw [fileHolds_twoLayers hms] at ha
    simp only [List.mem_cons, List.not_mem_nil, or_false] at ha
    rcases ha with rfl | rfl | rfl <;> decide

theorem convert_many : Key.pageSize.convert (.text "many") = none := by
  have hword : wordOfText? "many" = none := by decide +kernel
  change (Entry.halfWord ⟨.text "many", none⟩ "page_size").toOption = none
  simp [Entry.halfWord, Entry.word, hword, Entry.refuse, Except.toOption]

/-- The value in the file does harm only without the variable, and a switch wins over both. -/
theorem twoLayers_layered :
    Layered twoLayers.files "threatx.toml" twoLayers.environment ∧
    load twoLayers.files "threatx.toml" twoLayers.environment =
      .ok { pageSize := 25, maxAttempts := 3 } ∧
    (∃ e, load twoLayers.files "threatx.toml" [] = .error e) ∧
    ∃ setup, setUp twoLayers ⟨"threatx.toml", none, none, false, false, false, some 5, none, none,
      none, none⟩ = .ok setup ∧ Shows { pageSize := 5, maxAttempts := 3 } "tok" setup := by
  have hload : load twoLayers.files "threatx.toml" twoLayers.environment =
      .ok { pageSize := 25, maxAttempts := 3 } := by decide +kernel
  have hbare : PlainKeys twoLayers.files "threatx.toml" [] :=
    { plainKeys_twoLayers with oneVariable := nofun, noVariablePath := nofun }
  refine ⟨settings_layered.1 _ _ _ plainKeys_twoLayers, hload, ?_, ?_⟩
  · refine (settings_layered.1 _ _ _ hbare).fails_iff.2
      (.inr ⟨.pageSize, .text "many", .ofFile (v := .string "many") nofun ?_, convert_many⟩)
    exact ⟨_, "page_size", ⟨_, _, findFile_twoLayers, rfl⟩, .head _, rfl⟩
  · obtain ⟨s', hs', -, hsetup⟩ := (settings_layered.2 twoLayers
      ⟨"threatx.toml", none, none, false, false, false, some 5, none, none, none, none⟩).settings
        _ hload
    obtain rfl : s' = { pageSize := 5, maxAttempts := 3 } := ext_key fun k => by
      rw [hs' k]
      cases k <;> rfl
    exact hsetup "tok" (by decide)

end Settings
end ThreatGraph
