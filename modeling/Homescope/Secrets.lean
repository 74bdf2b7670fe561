import Homescope.Commands
import Homescope.DeployConfig
import Homescope.KekImport
import Homescope.ShellWords

/-! The podman secrets of a host, through the root phase of a deploy
(`deploy/deploy.sh`, `deploy/components`) and `homescope secret`
(`deploy/homescope`). -/

namespace Homescope.Secrets

open Commands Commands.Prog Deploy

inductive SecretName
  | kek
  | adminToken
  | mqttApi
  | mqttGateway
  | mqttPasswd
  | mqttAcl
  deriving DecidableEq, Repr

/-- A password file stands for the users and passwords that it was made of, one
after the other. -/
inductive SecretData
  | text (s : Text)
  | passwd (entries : List (Text × Text))
  deriving DecidableEq

def SecretData.text? : SecretData → Option Text
  | text s => some s
  | passwd _ => none

/-- The labels `homescope.generated` and `homescope.source` stand beside the data. -/
structure Secret where
  data : SecretData
  generated : Bool := false
  source : Option Text := none
  deriving DecidableEq

abbrev Store := SecretName → Option Secret

def isBlank (c : Char) : Bool := c == ' ' || c == '\t'

/-- `read -r`: the next line without the blanks around it, and what is left of
the input. -/
def readLine (input : Text) : Text × Text :=
  let line := input.takeWhile (· ≠ '\n')
  (((line.dropWhile isBlank).rdropWhile isBlank), (input.dropWhile (· ≠ '\n')).drop 1)

/-- The script of the throwaway container, with the passwords on its input: what
it gives `mosquitto_passwd -b`. -/
def passwdEntries (apiUser apiPassword gatewayUser gatewayPassword : Text) : List (Text × Text) :=
  let api := readLine (Shell.unlines [apiPassword, gatewayPassword])
  let gateway := readLine api.2
  [(apiUser, api.1), (gatewayUser, gateway.1)]

/-- What the scripts ask of `podman`, of other tools and of the operator.
`host` stands for a step that touches no secret. -/
inductive SecretCmd
  | secretExists (name : SecretName)
  | matchesFile (name : SecretName) (file : Text)
  | secretValue (name : SecretName)
  | printed (name : SecretName)
  | generatedLabel (name : SecretName)
  | sourceLabel (name : SecretName)
  | secretPut (name : SecretName) (secret : Secret)
  | secretRm (name : SecretName)
  | randHex (bytes : Nat)
  | mosquittoPasswd (apiUser apiPassword gatewayUser gatewayPassword : Text)
  | readTty
  | host

inductive TtyAnswer
  | noTerminal
  | eof
  | value (s : Text)

/-- No answer is a command that failed. -/
abbrev SecretCmd.Answer : SecretCmd → Type
  | secretExists _ => Bool
  | matchesFile .. => Bool
  | secretValue _ => Option Text
  | printed _ => Text
  | generatedLabel _ => Option Bool
  | sourceLabel _ => Option Text
  | secretPut .. => Option Unit
  | secretRm _ => Option Unit
  | randHex _ => Option Text
  | mosquittoPasswd .. => Option (List (Text × Text))
  | readTty => TtyAnswer
  | host => Option Unit

/-- How a script ends early: in an error, or with the banner of what is missing. -/
inductive Stop
  | died
  | missing (names : List SecretName)
  deriving DecidableEq

abbrev SecretM := ExceptT Stop (Prog SecretCmd SecretCmd.Answer)

def ask (c : SecretCmd) : SecretM c.Answer := ExceptT.lift (perform c)

/-- `set -e`. -/
def orDie {α : Type} : Option α → SecretM α
  | some a => pure a
  | none => throw .died

def secretPut (name : SecretName) (data : Text) (generated : Bool) : SecretM Unit := do
  orDie (← ask (.secretPut name { data := .text data, generated }))

/-! ### The scripts -/

structure Flags where
  newKek : Bool := false
  importKek : Option Text := none
  importAdminToken : Option Text := none
  mqttApiPassword : Option Text := none
  mqttGatewayPassword : Option Text := none

variable (spaces : List Char) (date : Text) (sha256 : Text → Text) (c : Config) (flags : Flags)

def newKek (hex : Text) : Text :=
  Shell.unlines ["# homescope KEK ring — wraps the per-device keys in devices.key.".toList,
    "# Generated ".toList ++ date ++ " by deploy.sh.".toList, "current = 1".toList,
    "1 = ".toList ++ hex]

/-- A failed `openssl` leaves the line of the key without it. -/
def setupKek : SecretM Unit := do
  if ← ask (.secretExists .kek) then
    match flags.importKek with
    | some file => if ← ask (.matchesFile .kek file) then pure () else throw .died
    | none => pure ()
  else
    match flags.importKek with
    | some file =>
      if KekImport.looksLikeKekFile spaces file then secretPut .kek file false else throw .died
    | none =>
      if flags.newKek then
        let hex ← ask (.randHex 32)
        secretPut .kek (newKek date (hex.getD [])) false
      else throw .died

def setupAdminToken : SecretM Unit := do
  if ← ask (.secretExists .adminToken) then
    match flags.importAdminToken with
    | some file => if ← ask (.matchesFile .adminToken file) then pure () else throw .died
    | none => pure ()
  else
    match flags.importAdminToken with
    | some file => secretPut .adminToken file false
    | none =>
      let hex ← orDie (← ask (.randHex 32))
      secretPut .adminToken (hex ++ ['\n']) false

/-- A password that a deploy generated for its own broker counts as unset. -/
def setByOperator (name : SecretName) : SecretM Bool := do
  if ← ask (.secretExists name) then
    let generated ← orDie (← ask (.generatedLabel name))
    pure !generated
  else pure false

/-- The names that stay missing. -/
def operatorSecret (name : SecretName) (file : Option Text) : SecretM (List SecretName) := do
  match file with
  | some file =>
    if ← ask (.secretExists name) then
      if ← ask (.matchesFile name file) then return []
      else
        secretPut name file false
        return []
    else
      secretPut name file false
      return []
  | none =>
    if ← setByOperator name then return []
    else
      match ← ask .readTty with
      | .eof => throw .died
      | .noTerminal => return [name]
      | .value value =>
        if value = [] then return [name]
        else
          secretPut name (value ++ ['\n']) false
          return []

def brokerAcl : Text :=
  Shell.unlines ["# Generated by homescope's deploy.sh from deploy.toml; changes are overwritten.".toList,
    "user ".toList ++ c.mqttApiUser, "topic read homescope/+/sensors/+/envelope".toList, [],
    "user ".toList ++ c.mqttGatewayUser, "topic write homescope/".toList ++ c.site ++ "/#".toList]

def ensurePassword (name : SecretName) : SecretM Unit := do
  if ← ask (.secretExists name) then pure ()
  else
    let hex ← orDie (← ask (.randHex 24))
    secretPut name (hex ++ ['\n']) true

def writeAcl : SecretM Unit := do
  let acl := Shell.capture (brokerAcl c)
  if (← ask (.printed .mqttAcl)) = acl then pure () else secretPut .mqttAcl (acl ++ ['\n']) false

def fingerprint (apiPassword gatewayPassword : Text) : Text :=
  sha256 (Shell.unlines [c.mqttApiUser, apiPassword, c.mqttGatewayUser, gatewayPassword])

def writePasswd : SecretM Unit := do
  let apiPassword ← orDie (← ask (.secretValue .mqttApi))
  let gatewayPassword ← orDie (← ask (.secretValue .mqttGateway))
  let fingerprint := fingerprint sha256 c apiPassword gatewayPassword
  if (← ask (.sourceLabel .mqttPasswd)) = some fingerprint then pure ()
  else
    let entries ← orDie
      (← ask (.mosquittoPasswd c.mqttApiUser apiPassword c.mqttGatewayUser gatewayPassword))
    orDie (← ask (.secretPut .mqttPasswd { data := .passwd entries, source := some fingerprint }))

def brokerRoot : SecretM (List SecretName) := do
  ensurePassword .mqttApi
  ensurePassword .mqttGateway
  writeAcl c
  writePasswd sha256 c
  return []

def apiRoot : SecretM (List SecretName) := do
  setupKek spaces date flags
  setupAdminToken flags
  let missing ← if c.brokerLocal then pure [] else operatorSecret .mqttApi flags.mqttApiPassword
  orDie (← ask .host)
  return missing

def gatewayRoot : SecretM (List SecretName) := do
  orDie (← ask .host)
  if c.brokerLocal then return [] else operatorSecret .mqttGateway flags.mqttGatewayPassword

def componentRoot : Component → SecretM (List SecretName)
  | .broker => brokerRoot sha256 c
  | .api => apiRoot spaces date c flags
  | .gateway => gatewayRoot c flags

/-- No two flags exclude each other, and the configuration has a use for each. -/
def Flags.accepted : Bool :=
  !(flags.newKek && flags.importKek.isSome) &&
    !(c.brokerLocal && (flags.mqttApiPassword.isSome || flags.mqttGatewayPassword.isSome)) &&
    !(flags.mqttApiPassword.isSome && !c.has .api) &&
    !(flags.mqttGatewayPassword.isSome && !c.has .gateway)

def componentRoots : List Component → SecretM (List SecretName)
  | [] => return []
  | component :: components => do
    let missing ← componentRoot spaces date sha256 c flags component
    let others ← componentRoots components
    return missing ++ others

/-- A deploy up to its user phase, which it goes on to where nothing is missing. -/
def rootPhase : SecretM Unit := do
  if flags.accepted c then
    orDie (← ask .host)
    let missing ← componentRoots spaces date sha256 c flags c.components
    if missing = [] then pure () else throw (.missing missing)
  else throw .died

/-! ### `homescope secret` -/

inductive SetInput
  | piped (data : Text)
  | typed (value : Text)

def SecretName.settable : SecretName → Bool
  | mqttPasswd => false
  | mqttAcl => false
  | _ => true

def secretSet (name : SecretName) (input : SetInput) : SecretM Unit :=
  if name.settable = false then throw .died
  else if name = .kek then do
    if ← ask (.secretExists .kek) then throw .died
    else
      match input with
      | .typed _ => throw .died
      | .piped data => secretPut .kek data false
  else
    match input with
    | .typed value => if value = [] then throw .died else secretPut name (value ++ ['\n']) false
    | .piped data => secretPut name data false

def secretRm (name : SecretName) (answer : Text) : SecretM Unit :=
  if name.settable = false then throw .died
  else if name = .kek ∧ answer ≠ "orphan".toList then throw .died
  else do orDie (← ask (.secretRm name))

/-- What an operator runs. -/
inductive Op
  | deploy (date : Text) (c : Config) (flags : Flags)
  | secretSet (name : SecretName) (input : SetInput)
  | secretRm (name : SecretName) (answer : Text)

def Op.program : Op → SecretM Unit
  | deploy date c flags => rootPhase spaces date sha256 c flags
  | secretSet name input => Secrets.secretSet name input
  | secretRm name answer => Secrets.secretRm name answer

/-! ### What `podman` does -/

/-- A command that fails changes nothing, but for a replacement, which may have
removed the secret. `secret exists` may also fail on a secret that is there. -/
def step : Commands.Device SecretCmd SecretCmd.Answer Store
  | s, .secretExists name, a, t => (a = true → s name ≠ none) ∧ t = s
  | s, .matchesFile name file, a, t =>
    (a = true → ∃ secret, s name = some secret ∧ secret.data = .text file) ∧ t = s
  | s, .secretValue name, a, t =>
    (∀ value, a = some value → ∃ secret data, s name = some secret ∧ secret.data = .text data ∧
      value = Shell.capture data) ∧ t = s
  | s, .printed name, a, t =>
    (a ≠ [] → ∃ secret data, s name = some secret ∧ secret.data = .text data ∧
      a = Shell.capture data) ∧ t = s
  | s, .generatedLabel name, a, t =>
    (∀ generated, a = some generated → ∃ secret, s name = some secret ∧
      generated = secret.generated) ∧ t = s
  | s, .sourceLabel name, a, t =>
    (∀ source, a = some source → ∃ secret, s name = some secret ∧ secret.source = some source) ∧ t = s
  | s, .secretPut name secret, some _, t =>
    secret.data ≠ .text [] ∧ t = Function.update s name (some secret)
  | s, .secretPut name _, none, t => t = s ∨ t = Function.update s name none
  | s, .secretRm name, some _, t => t = Function.update s name none
  | s, .secretRm _, none, t => t = s
  | s, .mosquittoPasswd apiUser apiPassword gatewayUser gatewayPassword, a, t =>
    (∀ entries, a = some entries →
      entries = passwdEntries apiUser apiPassword gatewayUser gatewayPassword) ∧ t = s
  | s, .randHex _, _, t => t = s
  | s, .readTty, _, t => t = s
  | s, .host, _, t => t = s

/-- A `podman` that never fails, where `openssl` prints `hex`. -/
def podman (hex : Text) (s : Store) : (c : SecretCmd) → c.Answer × Store
  | .secretExists name => ((s name).isSome, s)
  | .matchesFile name file => ((s name).map Secret.data == some (.text file), s)
  | .secretValue name => (((s name).bind fun secret => secret.data.text?).map Shell.capture, s)
  | .printed name => ((((s name).bind fun secret => secret.data.text?).map Shell.capture).getD [], s)
  | .generatedLabel name => ((s name).map Secret.generated, s)
  | .sourceLabel name => ((s name).bind Secret.source, s)
  | .secretPut name secret =>
    if secret.data = .text [] then (none, s) else (some (), Function.update s name (some secret))
  | .secretRm name => (some (), Function.update s name none)
  | .randHex _ => (some hex, s)
  | .mosquittoPasswd apiUser apiPassword gatewayUser gatewayPassword =>
    (some (passwdEntries apiUser apiPassword gatewayUser gatewayPassword), s)
  | .readTty => (.noTerminal, s)
  | .host => (some (), s)

theorem text?_eq_some {data : SecretData} {s : Text} : data.text? = some s ↔ data = .text s := by
  cases data <;> simp [SecretData.text?]

theorem podman_step (hex : Text) (s : Store) (c : SecretCmd) :
    step s c (podman hex s c).1 (podman hex s c).2 := by
  cases c with
  | secretExists name => exact ⟨fun h => Option.isSome_iff_ne_none.mp h, rfl⟩
  | matchesFile name file =>
    refine ⟨fun h => ?_, rfl⟩
    obtain ⟨secret, hsecret, hdata⟩ := Option.map_eq_some_iff.mp (beq_iff_eq.mp h)
    exact ⟨secret, hsecret, hdata⟩
  | secretValue name =>
    refine ⟨fun value h => ?_, rfl⟩
    obtain ⟨data, hdata, rfl⟩ := Option.map_eq_some_iff.mp h
    obtain ⟨secret, hsecret, htext⟩ := Option.bind_eq_some_iff.mp hdata
    exact ⟨secret, data, hsecret, text?_eq_some.mp htext, rfl⟩
  | printed name =>
    refine ⟨fun h => ?_, rfl⟩
    cases hdata : (s name).bind fun secret => secret.data.text? with
    | none => exact absurd (by simp [podman, hdata]) h
    | some data =>
      obtain ⟨secret, hsecret, htext⟩ := Option.bind_eq_some_iff.mp hdata
      exact ⟨secret, data, hsecret, text?_eq_some.mp htext, by simp [podman, hdata]⟩
  | generatedLabel name =>
    refine ⟨fun generated h => ?_, rfl⟩
    obtain ⟨secret, hsecret, rfl⟩ := Option.map_eq_some_iff.mp h
    exact ⟨secret, hsecret, rfl⟩
  | sourceLabel name => exact ⟨fun source h => Option.bind_eq_some_iff.mp h, rfl⟩
  | secretPut name secret =>
    by_cases hempty : secret.data = .text []
    · rw [podman, if_pos hempty]
      exact .inl rfl
    · rw [podman, if_neg hempty]
      exact ⟨hempty, rfl⟩
  | mosquittoPasswd => exact ⟨fun entries h => (Option.some.inj h).symm, rfl⟩
  | _ => rfl

/-- A host, with what is left of the command that an operator runs. -/
structure Host where
  store : Store
  work : Prog SecretCmd SecretCmd.Answer (Except Stop Unit)

/-- Only steps that meet a condition are taken. -/
inductive HostStep (P : Store → (c : SecretCmd) → c.Answer → Prop) : Host → Host → Prop
  | start {s : Host} {r : Except Stop Unit} (hs : s.work = .ret r) (op : Op) :
      HostStep P s ⟨s.store, (op.program spaces sha256).run⟩
  | ran {s : Host} {c : SecretCmd} {k : c.Answer → Prog SecretCmd SecretCmd.Answer (Except Stop Unit)}
      {a : c.Answer} {store : Store} (hs : s.work = .cmd c k) (hc : step s.store c a store)
      (hP : P s.store c a) : HostStep P s ⟨store, k a⟩
  | cut {s : Host} : HostStep P s ⟨s.store, .ret (.error .died)⟩

theorem step_other {s t : Store} {c : SecretCmd} {a : c.Answer} {name : SecretName}
    (h : step s c a t) (hput : ∀ secret, c ≠ .secretPut name secret) (hrm : c ≠ .secretRm name) :
    t name = s name := by
  have hne {other : SecretName} (x : Option Secret) (hother : name ≠ other) :
      Function.update s other x name = s name := Function.update_of_ne hother ..
  cases c with
  | secretPut other secret =>
    have hother : name ≠ other := fun heq => hput secret (heq ▸ rfl)
    cases a with
    | none => exact h.elim (fun h => h ▸ rfl) fun h => h ▸ hne _ hother
    | some u => exact h.2 ▸ hne _ hother
  | secretRm other =>
    have hother : name ≠ other := fun heq => hrm (heq ▸ rfl)
    cases a with
    | none => exact h ▸ rfl
    | some u => exact h ▸ hne _ hother
  | randHex n => exact h ▸ rfl
  | readTty => exact h ▸ rfl
  | host => exact h ▸ rfl
  | _ => exact h.2 ▸ rfl

theorem HostStep.run {P : Store → (c : SecretCmd) → c.Answer → Prop} {hex : Text}
    {p : Prog SecretCmd SecretCmd.Answer (Except Stop Unit)} {R : Except Stop Unit → Prop}
    (hp : p.Only (fun c => ∀ s, P s c (podman hex s c).1) R) (s : Store) :
    Relation.ReflTransGen (HostStep spaces sha256 P) ⟨s, p⟩
      ⟨(p.run (podman hex) s).2, .ret (p.run (podman hex) s).1⟩ := by
  induction p generalizing s with
  | ret r => exact .refl
  | cmd c k ih => exact .head (.ran rfl (podman_step hex s c) (hp.1 s)) (ih _ (hp.2 _) _)

/-! ### The KEK -/

/-- The KEK is not removed, and `podman` does not deny one that is there. -/
def Keeping : Store → (c : SecretCmd) → c.Answer → Prop
  | s, .secretExists .kek, a => a = false → s .kek = none
  | _, .secretRm .kek, _ => False
  | _, _, _ => True

/-- A KEK is only put where none is. -/
def Fresh (s : Store) (c : SecretCmd) : Prop := ∀ secret, c = .secretPut .kek secret → s .kek = none

def Careful {α : Type} (x : SecretM α) : Prop :=
  ∀ s, Guarded (fun s c a t => step s c a t ∧ Keeping s c a) Fresh x.run (fun _ _ => True) s

theorem Careful.bind {α β : Type} {x : SecretM α} {f : α → SecretM β} (hx : Careful x)
    (hf : ∀ a, Careful (f a)) : Careful (x >>= f) := by
  intro s
  apply Guarded.bindExcept
  refine (hx s).mono fun r t _ => ?_
  cases r with
  | ok a => exact hf a t
  | error e => trivial

theorem Careful.pure {α : Type} (a : α) : Careful (Pure.pure a : SecretM α) := fun _ => trivial

theorem Careful.throw {α : Type} (e : Stop) : Careful (throw e : SecretM α) := fun _ => trivial

theorem Careful.ask {c : SecretCmd} (hc : ∀ secret, c ≠ .secretPut .kek secret) : Careful (ask c) :=
  fun _ => ⟨fun secret h => absurd h (hc secret), fun _ _ _ => trivial⟩

theorem Careful.orDie {α : Type} (a : Option α) : Careful (orDie a) := by
  cases a with
  | none => exact .throw _
  | some a => exact .pure a

theorem Careful.ite {α : Type} {p : Prop} [Decidable p] {x y : SecretM α} (hx : Careful x)
    (hy : Careful y) : Careful (if p then x else y) := by
  split
  · exact hx
  · exact hy

theorem Careful.secretPut {name : SecretName} (hname : name ≠ .kek) (data : Text) (generated : Bool) :
    Careful (secretPut name data generated) := by
  refine .bind (.ask ?_) fun a => .orDie a
  rintro secret ⟨⟩
  exact hname rfl

section Careful

variable {spaces : List Char} {date : Text} {sha256 : Text → Text} {c : Config} {flags : Flags}

theorem setupKek_careful : Careful (setupKek spaces date flags) := by
  intro s
  refine ⟨nofun, fun found t ht => ?_⟩
  obtain ⟨⟨-, rfl⟩, habsent⟩ := ht
  cases found with
  | true =>
    cases flags.importKek with
    | none => trivial
    | some file =>
      refine ⟨nofun, fun same _ _ => ?_⟩
      cases same <;> trivial
  | false =>
    have hnone := habsent rfl
    cases flags.importKek with
    | some file =>
      change Guarded _ _ (ExceptT.run (if _ then _ else _)) _ _
      split
      · refine ⟨fun _ _ => hnone, fun a _ _ => ?_⟩
        cases a <;> trivial
      · trivial
    | none =>
      change Guarded _ _ (ExceptT.run (if _ then _ else _)) _ _
      split
      · refine ⟨nofun, fun hex t ht => ?_⟩
        obtain ⟨rfl, -⟩ := ht
        refine ⟨fun _ _ => hnone, fun a _ _ => ?_⟩
        cases a <;> trivial
      · trivial

theorem setupAdminToken_careful : Careful (setupAdminToken flags) := by
  refine .bind (.ask nofun) fun found => .ite ?_ ?_
  · cases flags.importAdminToken with
    | none => exact .pure ()
    | some file => exact .bind (.ask nofun) fun same => .ite (.pure ()) (.throw _)
  · cases flags.importAdminToken with
    | some file => exact .secretPut (by decide) file false
    | none =>
      refine .bind (.ask nofun) fun hex => .bind (.orDie hex) fun hex => ?_
      exact .secretPut (by decide) _ false

theorem operatorSecret_careful {name : SecretName} (hname : name ≠ .kek) (file : Option Text) :
    Careful (operatorSecret name file) := by
  cases file with
  | some file =>
    have hput : Careful (do secretPut name file false; return ([] : List SecretName)) :=
      .bind (.secretPut hname file false) fun _ => .pure []
    refine .bind (.ask nofun) fun found => .ite ?_ hput
    exact .bind (.ask nofun) fun same => .ite (.pure []) hput
  | none =>
    have hset : Careful (setByOperator name) := by
      refine .bind (.ask nofun) fun found => .ite ?_ (.pure false)
      exact .bind (.ask nofun) fun generated => .bind (.orDie generated) fun _ => .pure _
    refine .bind hset fun set => .ite (.pure []) (.bind (.ask nofun) fun answer => ?_)
    cases answer with
    | eof => exact .throw _
    | noTerminal => exact .pure _
    | value value => exact .ite (.pure _) (.bind (.secretPut hname _ false) fun _ => .pure [])

theorem brokerRoot_careful : Careful (brokerRoot sha256 c) := by
  have hensure {name : SecretName} (hname : name ≠ .kek) : Careful (ensurePassword name) := by
    refine .bind (.ask nofun) fun found => .ite (.pure ()) ?_
    exact .bind (.ask nofun) fun hex => .bind (.orDie hex) fun hex => .secretPut hname _ true
  have hacl : Careful (writeAcl c) :=
    .bind (.ask nofun) fun printed => .ite (.pure ()) (.secretPut (by decide) _ false)
  have hpasswd : Careful (writePasswd sha256 c) := by
    refine .bind (.ask nofun) fun api => .bind (.orDie api) fun api => ?_
    refine .bind (.ask nofun) fun gateway => .bind (.orDie gateway) fun gateway => ?_
    refine .bind (.ask nofun) fun label => .ite (.pure ()) (.bind (.ask nofun) fun entries => ?_)
    exact .bind (.orDie entries) fun entries => .bind (.ask nofun) fun a => .orDie a
  refine .bind (hensure (by decide)) fun _ => .bind (hensure (by decide)) fun _ => ?_
  exact .bind hacl fun _ => .bind hpasswd fun _ => .pure []

theorem componentRoot_careful (component : Component) :
    Careful (componentRoot spaces date sha256 c flags component) := by
  cases component with
  | broker => exact brokerRoot_careful
  | api =>
    have hlast (missing : List SecretName) :
        Careful (do orDie (← ask .host); return missing) :=
      .bind (.ask nofun) fun a => .bind (.orDie a) fun _ => .pure missing
    refine .bind setupKek_careful fun _ => .bind setupAdminToken_careful fun _ => ?_
    exact .ite (.bind (.pure []) hlast) (.bind (operatorSecret_careful (by decide) _) hlast)
  | gateway =>
    refine .bind (.ask nofun) fun a => .bind (.orDie a) fun _ => ?_
    exact .ite (.pure []) (operatorSecret_careful (by decide) _)

theorem componentRoots_careful (components : List Component) :
    Careful (componentRoots spaces date sha256 c flags components) := by
  induction components with
  | nil => exact .pure []
  | cons component components ih =>
    exact .bind (componentRoot_careful component) fun missing => .bind ih fun others => .pure _

theorem rootPhase_careful : Careful (rootPhase spaces date sha256 c flags) := by
  refine .ite (.bind (.ask nofun) fun a => .bind (.orDie a) fun _ => ?_) (.throw _)
  exact .bind (componentRoots_careful _) fun missing => .ite (.pure ()) (.throw _)

theorem secretSet_careful (name : SecretName) (input : SetInput) : Careful (secretSet name input) := by
  rw [secretSet.eq_def]
  refine .ite (.throw _) ?_
  by_cases hname : name = .kek
  · rw [if_pos hname]
    intro s
    refine ⟨nofun, fun found t ht => ?_⟩
    obtain ⟨⟨-, rfl⟩, habsent⟩ := ht
    cases found with
    | true => trivial
    | false =>
      cases input with
      | typed value => trivial
      | piped data =>
        refine ⟨fun _ _ => habsent rfl, fun a _ _ => ?_⟩
        cases a <;> trivial
  · rw [if_neg hname]
    cases input with
    | typed value => exact .ite (.throw _) (.secretPut hname _ false)
    | piped data => exact .secretPut hname data false

theorem secretRm_careful (name : SecretName) (answer : Text) : Careful (secretRm name answer) :=
  .ite (.throw _) (.ite (.throw _) (.bind (.ask nofun) fun a => .orDie a))

theorem Op.program_careful (op : Op) : Careful (op.program spaces sha256) := by
  cases op with
  | deploy date c flags => exact rootPhase_careful
  | secretSet name input => exact secretSet_careful name input
  | secretRm name answer => exact secretRm_careful name answer

/-- The KEK is there, and what is left of a command will not replace it. -/
def KeepsKek (kek : Secret) (s : Host) : Prop :=
  s.store .kek = some kek ∧ Guarded (fun s c a t => step s c a t ∧ Keeping s c a) Fresh s.work
    (fun _ _ => True) s.store

theorem HostStep.keepsKek {s t : Host} {kek : Secret} (ht : HostStep spaces sha256 Keeping s t)
    (hs : KeepsKek kek s) : KeepsKek kek t := by
  obtain ⟨hkek, hwork⟩ := hs
  cases ht with
  | start hs op => exact ⟨hkek, op.program_careful s.store⟩
  | @ran c k a store hs hc hP =>
    rw [hs] at hwork
    refine ⟨?_, hwork.2 a store ⟨hc, hP⟩⟩
    rw [← hkek]
    refine step_other hc (fun secret hput => ?_) ?_
    · rw [hwork.1 secret hput] at hkek
      cases hkek
    · rintro rfl
      exact hP
  | cut => exact ⟨hkek, trivial⟩

/-- However often the secrets are deployed, set and removed, and wherever a
command fails or is cut off: a KEK that is there stays as it is, unless it is
removed or `podman` denies it. -/
theorem kek_kept {s t : Host} {r : Except Stop Unit} {kek : Secret}
    (h : Relation.ReflTransGen (HostStep spaces sha256 Keeping) s t) (hidle : s.work = .ret r)
    (hkek : s.store .kek = some kek) : t.store .kek = some kek := by
  have hstart : KeepsKek kek s := ⟨hkek, by rw [hidle]; trivial⟩
  exact (invariant_run h (fun _ _ => HostStep.keepsKek) hstart).1

def sampleKek : Secret := { data := .text "current = 1\n".toList }

def kekStore : Store := Function.update (fun _ => none) .kek (some sampleKek)

def pipedKek : Op := .secretSet .kek (.piped "current = 2\n".toList)

theorem kek_kept_piped : ∃ t : Host, Relation.ReflTransGen (HostStep [' '] id Keeping)
    ⟨kekStore, .ret (.ok ())⟩ t ∧ t.work = .ret (.error .died) ∧ t.store .kek = some sampleKek := by
  have hstart : HostStep [' '] id Keeping ⟨kekStore, .ret (.ok ())⟩
      ⟨kekStore, (pipedKek.program [' '] id).run⟩ :=
    .start rfl pipedKek
  have honly : (pipedKek.program [' '] id).run.Only
      (fun c => ∀ s, Keeping s c (podman [] s c).1) fun _ => True := by
    refine ⟨fun s hfalse => by simpa [podman] using hfalse, fun found => ?_⟩
    cases found with
    | true => trivial
    | false => exact ⟨fun _ => trivial, fun put => by cases put <;> trivial⟩
  have hrun := Relation.ReflTransGen.head hstart (HostStep.run _ _ honly kekStore)
  exact ⟨_, hrun, rfl, kek_kept hrun rfl rfl⟩

end Careful

end Homescope.Secrets
