import FleetLedger.Config
import FleetLedger.Proofs.Numerals
import FleetLedger.Proofs.Trimming

/-!
# Which configuration is loaded

A configuration is loaded by a sequence of steps, each of which may stop it.  What the steps look for
is said here without them: what a variable says (`Config.Says`) and when it says nothing
(`Config.Silent`), which text or number that makes (`Config.Setting.Is`, `Config.Amount.Is`), and which
configuration fits what is said (`Config.Fits`).

The checks stand in a list (`Config.checks`), each with the variable it is about, when it passes and
what it reports otherwise.  One lemma relates a step to a check (`Config.Decides`), and one puts them
in a row (`Config.GoesThrough.bind`), so that the whole goes through all of them: what is reported
belongs to the first check that fails.  Two of the checks come late: the durations are turned into
seconds when both have been read.  **`Config.load_exact`** is all of it.
-/

namespace FleetLedger

/-- The variable that an error is about. -/
def ConfigError.name : ConfigError → String
  | missing name => name
  | invalid name _ _ => name
  | undetected name => name

/-- The text of an error names the variable. -/
lemma ConfigError.exists_message (e : ConfigError) :
    ∃ before after, e.message = before ++ e.name ++ after := by
  cases e with
  | missing name =>
      refine ⟨"", " environment variable is required", ?_⟩
      simp only [message.eq_def, ConfigError.name, String.empty_append]
  | invalid name value reason =>
      refine ⟨"", " has invalid value " ++ Quoted.quote value ++ ": " ++ reason, ?_⟩
      simp only [message.eq_def, ConfigError.name, String.empty_append, String.append_assoc]
  | undetected name =>
      refine ⟨"Could not detect ", "; set it explicitly", ?_⟩
      simp only [message.eq_def, ConfigError.name]

namespace Config

variable {α β : Type} {vars : Lookup} {host : Host} {c : Config} {e : ConfigError}

/-! ## What the variables say -/

/-- A value that is not there, or blank. -/
def Silent (value : Option String) : Prop :=
  ∀ text, value = some text → Blank.AllBlank text.toList

/-- What a value says is its text without the blanks around it. -/
def Says (value : Option String) (w : String) : Prop :=
  ∃ text, value = some text ∧ Blank.Around w text ∧ Blank.Tight w

/-- Trimming finds what a value says. -/
lemma bind_trimmed?_eq_some_iff {value : Option String} {w : String} :
    value.bind Blank.trimmed? = some w ↔ Says value w := by
  simp only [Option.bind_eq_some_iff, Blank.trimmed?_eq_some_iff_around, Says]

/-- Trimming finds nothing exactly in a value that says nothing. -/
lemma bind_trimmed?_eq_none_iff {value : Option String} :
    value.bind Blank.trimmed? = none ↔ Silent value := by
  simp only [Option.bind_eq_none_iff, Blank.trimmed?_eq_none_iff, Silent, Blank.AllBlank]

lemma Silent.not_said {value : Option String} (h : Silent value) (w : String) : ¬ Says value w := by
  intro hw
  rw [← bind_trimmed?_eq_none_iff] at h
  rw [← bind_trimmed?_eq_some_iff, h] at hw
  cases hw

lemma Says.unique {value : Option String} {w w' : String} (h : Says value w) (h' : Says value w') :
    w = w' := by
  rw [← bind_trimmed?_eq_some_iff] at h h'
  exact Option.some.inj (h.symm.trans h')

/-- A value says something or nothing. -/
lemma silent_or_said (value : Option String) : Silent value ∨ ∃ w, Says value w := by
  rw [← bind_trimmed?_eq_none_iff]
  cases hvalue : value.bind Blank.trimmed? with
  | none => exact Or.inl rfl
  | some w => exact Or.inr ⟨w, bind_trimmed?_eq_some_iff.mp hvalue⟩

/-- A text that is said or given by other means: a name or an address. -/
structure Setting where
  name : String
  /-- What stands in for the variable. -/
  StandsIn : String → Prop

/-- The text of a setting. -/
def Setting.Is (s : Setting) (vars : Lookup) (w : String) : Prop :=
  Says (vars s.name) w ∨ Silent (vars s.name) ∧ s.StandsIn w

/-- A whole number that is said, up to a greatest one, and what it is if it is not said. -/
structure Amount where
  name : String
  greatest : Nat
  standard : Nat

/-- The number that an amount is. -/
def Amount.Is (a : Amount) (vars : Lookup) (n : Nat) : Prop :=
  (∃ w, Says (vars a.name) w ∧ Numeral.Spells w n ∧ n ≤ a.greatest)
    ∨ Silent (vars a.name) ∧ n = a.standard

/-- How many connections to the database there may be: a number of 32 bits, twenty unless said. -/
def connections : Amount := ⟨"DATABASE_MAX_CONNECTIONS", greatest32, 20⟩

/-- How many minutes lie between sweeps: a number of 64 bits, an hour unless said. -/
def minutes : Amount := ⟨"LOG_CLEAN_PERIOD_MINS", greatest64, 60⟩

/-- For how many days executions are kept: a number of 64 bits, thirty unless said. -/
def days : Amount := ⟨"LOG_EXPIRATION_DAYS", greatest64, 30⟩

/-- The machine identifier is what the file says, which must be text. -/
def nodeIdentity (host : Host) : Setting where
  name := "NODE_ID"
  StandsIn := Says (host.machineIdFile.bind fun bytes => String.fromUTF8? ⟨bytes.toArray⟩)

/-- The address of a node is that by which its host reaches others, unless said. -/
def nodeAddress (host : Host) : Setting where
  name := "NODE_IP"
  StandsIn w := ∃ address, host.outbound = some address ∧ address.text = w

/-- The keys under which nodes announce themselves. -/
def nodeScope : Setting := ⟨"NODE_KEY_PREFIX", (· = "/jobwatch/node/")⟩

/-- The keys under which groups of nodes are defined. -/
def groupScope : Setting := ⟨"GROUP_KEY_PREFIX", (· = "/jobwatch/group/")⟩

/-- A configuration is the one that the variables and the host describe. -/
structure Fits (vars : Lookup) (host : Host) (c : Config) : Prop where
  /-- The address of the database is taken with the blanks around it. -/
  url : vars "DATABASE_URL" = some c.databaseUrl ∧ ¬ Blank.AllBlank c.databaseUrl.toList
  connections : connections.Is vars c.databaseMaxConnections
  nodeId : (nodeIdentity host).Is vars c.nodeId
  nodeIp : (nodeAddress host).Is vars c.nodeIp
  nodes : nodeScope.Is vars c.keys.nodes
  groups : groupScope.Is vars c.keys.groups
  cleanPeriod : ∃ m, minutes.Is vars m ∧ m * 60 ≤ greatest64
    ∧ c.cleanPeriod = if m = 0 then none else some (m * 60)
  expiration : ∃ d, days.Is vars d ∧ d * 86400 ≤ greatest64 ∧ c.expiration = d * 86400

/-! ## The checks -/

/-- A check of the variables. -/
structure Check where
  /-- The variable that is checked. -/
  name : String
  Passes : Prop
  /-- What is reported if the check fails. -/
  Reports : ConfigError → Prop

namespace Check

/-- The address of the database must be said; nothing stands in for it. -/
def address (vars : Lookup) : Check where
  name := "DATABASE_URL"
  Passes := ¬ Silent (vars "DATABASE_URL")
  Reports e := e = .missing "DATABASE_URL"

/-- A text must be said or stood in for; what is reported otherwise is that it was not detected. -/
def setting (vars : Lookup) (s : Setting) : Check where
  name := s.name
  Passes := ∃ w, s.Is vars w
  Reports e := e = .undetected s.name

/-- A number must be one, and not too large; of two faults the one further left is reported. -/
def amount (vars : Lookup) (a : Amount) : Check where
  name := a.name
  Passes := ∃ n, a.Is vars n
  Reports e := ∃ w reason, Says (vars a.name) w ∧ e = .invalid a.name w reason
    ∧ (Numeral.Exceeds a.greatest w ∧ reason = "number too large to fit in target type"
      ∨ ¬ Numeral.Exceeds a.greatest w ∧ reason = "invalid digit found in string")

/-- So many units must be a number of seconds that 64 bits hold. -/
def duration (vars : Lookup) (a : Amount) (unit : Nat) : Check where
  name := a.name
  Passes := ∃ n, a.Is vars n ∧ n * unit ≤ greatest64
  Reports e := ∃ n, a.Is vars n ∧ e = .invalid a.name (toString n) "number too large"

end Check

/-- The checks in their order. -/
def checks (vars : Lookup) (host : Host) : List Check :=
  [.address vars, .amount vars connections, .setting vars (nodeIdentity host),
    .setting vars (nodeAddress host), .amount vars minutes, .amount vars days,
    .duration vars minutes 60, .duration vars days 86400]

/-- The first check that fails. -/
def FirstFailing (ks : List Check) (k : Check) : Prop :=
  ∃ before after, ks = before ++ k :: after ∧ (∀ k' ∈ before, k'.Passes) ∧ ¬ k.Passes

/-- The first failing check of a row is its head, or the head passes and it is the first one of the
rest. -/
lemma firstFailing_cons {k j : Check} {ks : List Check} : FirstFailing (k :: ks) j
    ↔ j = k ∧ ¬ k.Passes ∨ k.Passes ∧ FirstFailing ks j := by
  constructor
  · rintro ⟨before, after, happend, hbefore, hj⟩
    cases before with
    | nil =>
        obtain ⟨rfl, -⟩ := List.cons.inj happend
        exact Or.inl ⟨rfl, hj⟩
    | cons b before =>
        obtain ⟨rfl, hrest⟩ := List.cons.inj happend
        obtain ⟨hk, hbefore⟩ := List.forall_mem_cons.mp hbefore
        exact Or.inr ⟨hk, before, after, hrest, hbefore, hj⟩
  · rintro (⟨rfl, hj⟩ | ⟨hk, before, after, rfl, hbefore, hj⟩)
    · exact ⟨[], ks, rfl, List.forall_mem_nil _, hj⟩
    · exact ⟨k :: before, after, rfl, List.forall_mem_cons.mpr ⟨hk, hbefore⟩, hj⟩

/-! ## Steps -/

/-- A step of loading decides a check. -/
structure Decides (x : Except ConfigError α) (k : Check) : Prop where
  ok_iff : (∃ a, x = .ok a) ↔ k.Passes
  reports : ∀ e, x = .error e ↔ ¬ k.Passes ∧ k.Reports e

/-- A sequence of steps goes through checks up to the first one that fails. -/
structure GoesThrough (x : Except ConfigError α) (ks : List Check) : Prop where
  ok_iff : (∃ a, x = .ok a) ↔ ∀ k ∈ ks, k.Passes
  reports : ∀ e, x = .error e ↔ ∃ k, FirstFailing ks k ∧ k.Reports e

/-- A configuration that is there already has no check left to go through. -/
lemma GoesThrough.pure (a : α) : GoesThrough (.ok a) [] where
  ok_iff := ⟨fun _ => List.forall_mem_nil _, fun _ => ⟨a, rfl⟩⟩
  reports e := by
    constructor
    · intro h
      cases h
    · rintro ⟨k, ⟨before, after, happend, -⟩, -⟩
      cases List.append_eq_nil_iff.mp happend.symm |>.2

/-- **Steps in a row go through their checks in a row.**  A step that fails its check ends the
sequence with what that check reports; one that passes leaves all to the steps behind it. -/
theorem GoesThrough.bind {x : Except ConfigError α} {f : α → Except ConfigError β} {k : Check}
    {ks : List Check} (hx : Decides x k) (hf : ∀ a, x = .ok a → GoesThrough (f a) ks) :
    GoesThrough (x >>= f) (k :: ks) := by
  cases x with
  | error e =>
      obtain ⟨hk, he⟩ := (hx.reports e).mp rfl
      have hstop : (.error e >>= f) = (.error e : Except ConfigError β) := rfl
      rw [hstop]
      refine ⟨⟨?_, fun h => absurd (h k List.mem_cons_self) hk⟩, fun e' => ⟨?_, ?_⟩⟩
      · rintro ⟨b, hb⟩
        cases hb
      · rintro ⟨⟩
        exact ⟨k, firstFailing_cons.mpr (Or.inl ⟨rfl, hk⟩), he⟩
      · rintro ⟨j, hj, hreports⟩
        obtain ⟨rfl, -⟩ := (firstFailing_cons.mp hj).resolve_right fun h => hk h.1
        have herror := (hx.reports e').mpr ⟨hk, hreports⟩
        cases herror
        rfl
  | ok a =>
      have hk : k.Passes := hx.ok_iff.mp ⟨a, rfl⟩
      have hrest := hf a rfl
      refine ⟨hrest.ok_iff.trans ?_, fun e => (hrest.reports e).trans ?_⟩
      · rw [List.forall_mem_cons]
        exact (and_iff_right hk).symm
      · simp only [firstFailing_cons, hk, not_true_eq_false, and_false, false_or, true_and]

/-! ## What the steps give -/

/-- A number that is said is read from the text. -/
lemma number_of_said {a : Amount} {w : String} (hsaid : Says (vars a.name) w) :
    number vars a.name a.greatest a.standard
      = (Numeral.readNat a.greatest w).mapError fun fault => .invalid a.name w fault.message := by
  rw [number, value?, bind_trimmed?_eq_some_iff.mpr hsaid]

/-- A number that is not said is the standard one. -/
lemma number_of_silent {a : Amount} (hsilent : Silent (vars a.name)) :
    number vars a.name a.greatest a.standard = .ok a.standard := by
  rw [number, value?, bind_trimmed?_eq_none_iff.mpr hsilent]

lemma mapError_eq_ok_iff {ε : Type} {f : ε → ConfigError} {x : Except ε α} {a : α} :
    x.mapError f = .ok a ↔ x = .ok a := by
  cases x with
  | error fault => exact ⟨nofun, nofun⟩
  | ok b =>
      have hok : (Except.ok b : Except ε α).mapError f = .ok b := rfl
      rw [hok, Except.ok.injEq, Except.ok.injEq]

/-- **The number that is read is the one that the amount is**, and none is read where the amount is
none. -/
theorem number_eq_ok_iff (a : Amount) {n : Nat} :
    number vars a.name a.greatest a.standard = .ok n ↔ a.Is vars n := by
  rcases silent_or_said (vars a.name) with hsilent | ⟨w, hsaid⟩
  · simp only [number_of_silent hsilent, Amount.Is, hsilent.not_said, hsilent, true_and, false_and,
      exists_false, false_or, Except.ok.injEq, eq_comm]
  · rw [number_of_said hsaid, mapError_eq_ok_iff, Numeral.readNat_eq_ok_iff]
    constructor
    · intro h
      exact Or.inl ⟨w, hsaid, h⟩
    · rintro (⟨w', hw', h⟩ | ⟨hsilent, -⟩)
      · rwa [hsaid.unique hw']
      · exact absurd hsaid (hsilent.not_said w)

/-- Units are turned into seconds exactly where 64 bits hold the product, which does not wrap
around. -/
lemma seconds_eq_ok_iff {name : String} {count unit n : Nat} :
    seconds name count unit = .ok n ↔ n = count * unit ∧ count * unit ≤ greatest64 := by
  rw [seconds]
  split
  case isTrue hfits => simp [hfits, eq_comm]
  case isFalse hfits => simp [hfits]

/-- An amount is one number at most. -/
lemma Amount.Is.unique {a : Amount} {m n : Nat} (hm : a.Is vars m) (hn : a.Is vars n) : m = n := by
  rw [← number_eq_ok_iff] at hm hn
  exact Except.ok.inj (hm.symm.trans hn)

/-- The setting that a variable makes, when something may stand in for it. -/
lemma or_eq_some_iff (s : Setting) {given : Option String} {w : String}
    (h : given = some w ↔ s.StandsIn w) : (value? vars s.name).or given = some w ↔ s.Is vars w := by
  rw [Option.or_eq_some_iff, h, Setting.Is, value?, bind_trimmed?_eq_some_iff,
    bind_trimmed?_eq_none_iff]

/-- The host gives the identifier that stands in for the one of a node. -/
lemma machineId?_eq_some_iff {w : String} :
    host.machineId? = some w ↔ (nodeIdentity host).StandsIn w := by
  simp only [nodeIdentity, ← bind_trimmed?_eq_some_iff, Option.bind_assoc]
  rfl

/-- The host gives the address that stands in for the one of a node. -/
lemma outboundIp?_eq_some_iff {w : String} :
    host.outboundIp? = some w ↔ (nodeAddress host).StandsIn w := by
  rw [Host.outboundIp?, Option.map_eq_some_iff, nodeAddress]

/-- A setting with a standard text is always one: what is said, or the standard. -/
lemma getD_eq_iff {name standard w : String} :
    (value? vars name).getD standard = w ↔ Setting.Is ⟨name, (· = standard)⟩ vars w := by
  have hstands : some standard = some w ↔ w = standard := by
    rw [Option.some.injEq, eq_comm]
  have hor : (value? vars name).or (some standard) = some w
      ↔ Setting.Is ⟨name, (· = standard)⟩ vars w := or_eq_some_iff ⟨name, _⟩ hstands
  rw [← hor]
  cases value? vars name <;> simp

/-- A value that is not blank is taken as it stands. -/
lemma filter_isSome_eq_some_iff {value : Option String} {text : String} :
    value.filter (fun v => (Blank.trimmed? v).isSome) = some text
      ↔ value = some text ∧ ¬ Blank.AllBlank text.toList := by
  rw [Option.filter_eq_some_iff, Option.isSome_iff_ne_none, ne_eq, Blank.trimmed?_eq_none_iff,
    Blank.AllBlank]

lemma orElse_eq_ok_iff {value : Option α} {a : α} : orElse value e = .ok a ↔ value = some a := by
  cases value <;> simp [orElse]

lemma bind_eq_ok_iff {x : Except ConfigError α} {f : α → Except ConfigError β} {b : β} :
    x >>= f = .ok b ↔ ∃ a, x = .ok a ∧ f a = .ok b := by
  cases x <;> simp [bind, Except.bind]

/-- A period is none exactly if it has no minutes, for minutes have seconds. -/
lemma period_eq (m : Nat) :
    (if m * 60 = 0 then none else some (m * 60)) = if m = 0 then none else some (m * 60) := by
  have hzero : m * 60 = 0 ↔ m = 0 := by omega
  simp only [hzero]

/-- **A configuration is loaded exactly if it fits** what the variables and the host say. -/
theorem load_eq_ok_iff : load vars host = .ok c ↔ Fits vars host c := by
  have hconnections (n : Nat) : number vars "DATABASE_MAX_CONNECTIONS" greatest32 20 = .ok n
      ↔ connections.Is vars n := number_eq_ok_iff connections
  have hminutes (n : Nat) : number vars "LOG_CLEAN_PERIOD_MINS" greatest64 60 = .ok n
      ↔ minutes.Is vars n := number_eq_ok_iff minutes
  have hdays (n : Nat) : number vars "LOG_EXPIRATION_DAYS" greatest64 30 = .ok n
      ↔ days.Is vars n := number_eq_ok_iff days
  have hid (w : String) : (value? vars "NODE_ID").or host.machineId? = some w
      ↔ (nodeIdentity host).Is vars w := or_eq_some_iff _ machineId?_eq_some_iff
  have hip (w : String) : (value? vars "NODE_IP").or host.outboundIp? = some w
      ↔ (nodeAddress host).Is vars w := or_eq_some_iff _ outboundIp?_eq_some_iff
  simp only [load, bind_eq_ok_iff, url, orElse_eq_ok_iff, filter_isSome_eq_some_iff, hconnections,
    hminutes, hdays, hid, hip, seconds_eq_ok_iff]
  constructor
  · rintro ⟨url, hurl, n, hn, id, hid, ip, hip, m, hm, d, hd, _, ⟨rfl, hperiod⟩, _,
      ⟨rfl, hexpiration⟩, hc⟩
    cases hc
    exact {
      url := hurl
      connections := hn
      nodeId := hid
      nodeIp := hip
      nodes := getD_eq_iff.mp rfl
      groups := getD_eq_iff.mp rfl
      cleanPeriod := ⟨m, hm, hperiod, period_eq m⟩
      expiration := ⟨d, hd, hexpiration, rfl⟩ }
  · intro h
    obtain ⟨m, hm, hperiod, hcleanPeriod⟩ := h.cleanPeriod
    obtain ⟨d, hd, hfits, hexpiration⟩ := h.expiration
    refine ⟨_, h.url, _, h.connections, _, h.nodeId, _, h.nodeIp, m, hm, d, hd, _, ⟨rfl, hperiod⟩,
      _, ⟨rfl, hfits⟩, ?_⟩
    rw [period_eq, ← hcleanPeriod, ← hexpiration, getD_eq_iff.mpr h.nodes, getD_eq_iff.mpr h.groups]
    rfl

/-! ## Each step decides a check -/

/-- Looking for a value decides the check that there is one. -/
lemma decides_orElse {value : Option α} {k : Check} (hpasses : (∃ a, value = some a) ↔ k.Passes)
    (hreports : ∀ e', k.Reports e' ↔ e' = e) : Decides (orElse value e) k where
  ok_iff := by simp only [orElse_eq_ok_iff, hpasses]
  reports e' := by
    rw [hreports, ← hpasses]
    cases value <;> simp [orElse, eq_comm]

lemma decides_address : Decides (url vars) (.address vars) := by
  refine decides_orElse ?_ fun e' => Iff.rfl
  simp only [filter_isSome_eq_some_iff, Check.address, Silent, Classical.not_forall, exists_prop]

/-- The step for a text decides its check, whatever the host can give to stand in for it. -/
lemma decides_setting {s : Setting} {given : Option String}
    (h : ∀ w, given = some w ↔ s.StandsIn w) :
    Decides (orElse ((value? vars s.name).or given) (.undetected s.name)) (.setting vars s) := by
  refine decides_orElse ?_ fun e' => Iff.rfl
  simp only [or_eq_some_iff s (h _), Check.setting]

section Numbers

variable {a : Amount} {w : String}

/-- Digits that run past the greatest number are reported as a number too large. -/
lemma number_of_exceeds (hsaid : Says (vars a.name) w) (h : Numeral.Exceeds a.greatest w) :
    number vars a.name a.greatest a.standard
      = .error (.invalid a.name w "number too large to fit in target type") := by
  rw [number_of_said hsaid, Numeral.readNat_of_exceeds h]
  rfl

/-- Any other text that is no number is reported for a character in it. -/
lemma number_of_not_exceeds (hsaid : Says (vars a.name) w) (h : ¬ Numeral.Exceeds a.greatest w)
    (hnone : ¬ ∃ n, a.Is vars n) : number vars a.name a.greatest a.standard
      = .error (.invalid a.name w "invalid digit found in string") := by
  have hspells (n : Nat) : ¬ Numeral.Spells w n :=
    fun hn => hnone ⟨n, Or.inl ⟨w, hsaid, hn, hn.le h⟩⟩
  have hw : w ≠ "" := by
    obtain ⟨-, -, -, htight⟩ := hsaid
    exact htight.nonempty
  rw [number_of_said hsaid, Numeral.readNat_of_not_spells hw h hspells]
  rfl

/-- An amount is none only because of what is said, for a variable that says nothing makes it the
standard. -/
lemma exists_said (hnone : ¬ ∃ n, a.Is vars n) : ∃ w, Says (vars a.name) w :=
  (silent_or_said _).resolve_left fun hsilent => hnone ⟨_, Or.inr ⟨hsilent, rfl⟩⟩

/-- The step for a number decides its check, with the same text to report. -/
lemma decides_amount (a : Amount) :
    Decides (number vars a.name a.greatest a.standard) (.amount vars a) where
  ok_iff := by simp only [number_eq_ok_iff, Check.amount]
  reports e := by
    constructor
    · intro h
      have hnone : ¬ ∃ n, a.Is vars n := by
        rintro ⟨n, hn⟩
        rw [(number_eq_ok_iff a).mpr hn] at h
        cases h
      obtain ⟨w, hsaid⟩ := exists_said hnone
      by_cases hexceeds : Numeral.Exceeds a.greatest w
      · rw [number_of_exceeds hsaid hexceeds] at h
        cases h
        exact ⟨hnone, w, _, hsaid, rfl, Or.inl ⟨hexceeds, rfl⟩⟩
      · rw [number_of_not_exceeds hsaid hexceeds hnone] at h
        cases h
        exact ⟨hnone, w, _, hsaid, rfl, Or.inr ⟨hexceeds, rfl⟩⟩
    · rintro ⟨hnone, w, _, hsaid, rfl, ⟨hexceeds, rfl⟩ | ⟨hexceeds, rfl⟩⟩
      · exact number_of_exceeds hsaid hexceeds
      · exact number_of_not_exceeds hsaid hexceeds hnone

/-- What is asked of some number that an amount is, is asked of the only one. -/
lemma Amount.Is.exists_iff {n : Nat} (hn : a.Is vars n) (P : Nat → Prop) :
    (∃ m, a.Is vars m ∧ P m) ↔ P n :=
  ⟨fun ⟨_, hm, h⟩ => hn.unique hm ▸ h, fun h => ⟨n, hn, h⟩⟩

/-- The step for a duration decides its check, once the number of units has been read. -/
lemma decides_duration {n : Nat} (unit : Nat) (hn : a.Is vars n) :
    Decides (seconds a.name n unit) (.duration vars a unit) where
  ok_iff := by simp only [seconds_eq_ok_iff, Check.duration, hn.exists_iff, exists_eq_left]
  reports e := by
    simp only [Check.duration, hn.exists_iff]
    rw [seconds]
    split
    case isTrue hfits => simp [hfits]
    case isFalse hfits => simp [hfits, eq_comm]

end Numbers

/-- **Loading goes through the checks in their order.** -/
theorem load_goesThrough : GoesThrough (load vars host) (checks vars host) := by
  refine GoesThrough.bind decides_address fun url _ => ?_
  refine GoesThrough.bind (decides_amount connections) fun _ _ => ?_
  refine GoesThrough.bind (decides_setting fun _ => machineId?_eq_some_iff) fun _ _ => ?_
  refine GoesThrough.bind (decides_setting fun _ => outboundIp?_eq_some_iff) fun _ _ => ?_
  refine GoesThrough.bind (decides_amount minutes) fun m hm => ?_
  refine GoesThrough.bind (decides_amount days) fun d hd => ?_
  have hminutes : minutes.Is vars m := (number_eq_ok_iff minutes).mp hm
  have hdays : days.Is vars d := (number_eq_ok_iff days).mp hd
  refine GoesThrough.bind (decides_duration 60 hminutes) fun _ _ => ?_
  refine GoesThrough.bind (decides_duration 86400 hdays) fun _ _ => ?_
  exact GoesThrough.pure _

/-! ## What is reported -/

namespace Check

lemma name_of_reports_address (h : (address vars).Reports e) : e.name = "DATABASE_URL" :=
  congrArg ConfigError.name h

lemma name_of_reports_setting {s : Setting} (h : (setting vars s).Reports e) : e.name = s.name :=
  congrArg ConfigError.name h

lemma name_of_reports_amount {a : Amount} (h : (amount vars a).Reports e) : e.name = a.name := by
  obtain ⟨w, reason, -, rfl, -⟩ := h
  rfl

lemma name_of_reports_duration {a : Amount} {unit : Nat} (h : (duration vars a unit).Reports e) :
    e.name = a.name := by
  obtain ⟨n, -, rfl⟩ := h
  rfl

end Check

/-- What is reported names the variable that is checked. -/
lemma name_of_reports {k : Check} (hk : k ∈ checks vars host) : k.Reports e → e.name = k.name := by
  revert k
  simp only [checks, List.forall_mem_cons]
  exact ⟨Check.name_of_reports_address, Check.name_of_reports_amount, Check.name_of_reports_setting,
    Check.name_of_reports_setting, Check.name_of_reports_amount, Check.name_of_reports_amount,
    Check.name_of_reports_duration, Check.name_of_reports_duration, List.forall_mem_nil _⟩

/-! ## Blanks do not matter -/

/-- Two values of a variable differ in nothing but the blanks around them, and a value of blanks
alone is as good as none. -/
def Alike (value value' : Option String) : Prop :=
  Silent value ∧ Silent value'
    ∨ ∃ core text text', value = some text ∧ value' = some text' ∧ Blank.Around core text
      ∧ Blank.Around core text'

/-- Alike values say the same. -/
lemma value?_eq_of_alike {vars' : Lookup} {name : String} (h : Alike (vars name) (vars' name)) :
    value? vars name = value? vars' name := by
  rcases h with ⟨hsilent, hsilent'⟩ | ⟨core, text, text', htext, htext', haround, haround'⟩
  · rw [value?, value?, bind_trimmed?_eq_none_iff.mpr hsilent,
      bind_trimmed?_eq_none_iff.mpr hsilent']
  · rw [value?, value?, htext, htext', Option.bind_some, Option.bind_some, Blank.trimmed?,
      Blank.trimmed?, Blank.trim_of_around haround, Blank.trim_of_around haround']

/-- **Blanks around values do not matter**, but for the address of the database. -/
theorem load_eq_of_alike {vars' : Lookup} (hurl : vars "DATABASE_URL" = vars' "DATABASE_URL")
    (h : ∀ name, name ≠ "DATABASE_URL" → Alike (vars name) (vars' name)) :
    load vars host = load vars' host := by
  have hvalue (name : String) (hname : name ≠ "DATABASE_URL") : value? vars name = value? vars' name :=
    value?_eq_of_alike (h name hname)
  simp only [load, url, number, hurl, hvalue "DATABASE_MAX_CONNECTIONS" (by decide),
    hvalue "NODE_ID" (by decide), hvalue "NODE_IP" (by decide),
    hvalue "NODE_KEY_PREFIX" (by decide), hvalue "GROUP_KEY_PREFIX" (by decide),
    hvalue "LOG_CLEAN_PERIOD_MINS" (by decide), hvalue "LOG_EXPIRATION_DAYS" (by decide)]

/-- **Loading a configuration is exact.**  What is loaded is the configuration that the variables and
the host describe, with both durations as the whole products.  There is one exactly when all checks
pass.  Otherwise the first check that fails is reported, under the name of its variable.  Blanks around
a value do not matter, but for the address of the database. -/
theorem load_exact (vars : Lookup) (host : Host) :
    (∀ c, load vars host = .ok c ↔ Fits vars host c)
    ∧ ((∃ c, load vars host = .ok c) ↔ ∀ k ∈ checks vars host, k.Passes)
    ∧ (∀ e, load vars host = .error e ↔ ∃ k, FirstFailing (checks vars host) k ∧ k.Reports e)
    ∧ (∀ k ∈ checks vars host, ∀ e, k.Reports e → e.name = k.name
      ∧ ∃ before after, e.message = before ++ k.name ++ after)
    ∧ ∀ vars', vars "DATABASE_URL" = vars' "DATABASE_URL" →
      (∀ name, name ≠ "DATABASE_URL" → Alike (vars name) (vars' name)) →
      load vars host = load vars' host := by
  refine ⟨fun c => load_eq_ok_iff, load_goesThrough.ok_iff, load_goesThrough.reports, ?_, ?_⟩
  · intro k hk e he
    have hname : e.name = k.name := name_of_reports hk he
    exact ⟨hname, hname ▸ e.exists_message⟩
  · intro vars' hurl halike
    exact load_eq_of_alike hurl halike

/-- Both durations are read before one is turned into seconds. -/
example : load (fun name => [("DATABASE_URL", "postgres://localhost/jobwatch"), ("NODE_ID", "node-a"),
    ("NODE_IP", "10.0.0.7"), ("LOG_CLEAN_PERIOD_MINS", "18446744073709551615"),
    ("LOG_EXPIRATION_DAYS", " thirty ")].lookup name) {}
      = .error (.invalid "LOG_EXPIRATION_DAYS" "thirty" "invalid digit found in string") := by
  rfl

end Config

end FleetLedger
