import Homescope.ApiUrl
import Homescope.Commands
import Mathlib.Logic.Function.Basic

/-! The tool's profiles and credentials (`provision/src/store.rs`, and `login`
and `logout` in `provision/src/commands.rs`): two files that are written one
after the other and joined when they are read. -/

namespace Homescope

open Commands

structure Token where
  raw : String
  deriving DecidableEq, Repr

structure Credentials where
  token : Token
  subject : Option String := none
  expiresAt : Option Int := none
  deriving DecidableEq, Repr

structure Profile where
  apiUrl : Text
  deriving DecidableEq, Repr

structure ConfigFile where
  defaultProfile : Option String := none
  profiles : String → Option Profile := fun _ => none

structure CredentialsFile where
  profiles : String → Option Credentials := fun _ => none

structure ApiTarget where
  label : String
  url : Text
  token : Token
  deriving DecidableEq, Repr

inductive StoreCmd
  | readConfig
  | readCredentials
  | writeConfig (file : ConfigFile)
  | writeCredentials (file : CredentialsFile)
  | readToken
  | checkAuth (target : ApiTarget)

/-- How a command of the tool ends early. -/
inductive LoginError
  | store (e : StoreError)
  | noToken
  | noProfile
  | auth
  deriving DecidableEq, Repr

@[reducible] def StoreCmd.Answer : StoreCmd → Type
  | readConfig => Except LoginError (Option ConfigFile)
  | readCredentials => Except LoginError (Option CredentialsFile)
  | writeConfig _ => Except LoginError Unit
  | writeCredentials _ => Except LoginError Unit
  | readToken => Except LoginError Token
  | checkAuth _ => Except LoginError Unit

abbrev StoreM := ExceptT LoginError (Prog StoreCmd StoreCmd.Answer)

/-- The two files, joined in memory. -/
structure ProfileStore where
  config : ConfigFile
  credentials : CredentialsFile

/-- The `--api-url` branch of `resolve`. -/
def directTarget (url : Text) (envToken : Option String) : Except StoreError ApiTarget := do
  let url ← parseUrl url
  match envToken.filter (· ≠ "") with
  | none => throw .noEnvToken
  | some token => return { label := String.ofList url, url, token := ⟨token⟩ }

namespace ProfileStore

def load : StoreM ProfileStore := do
  let config ← ExceptT.mk (Prog.perform StoreCmd.readConfig)
  let credentials ← ExceptT.mk (Prog.perform StoreCmd.readCredentials)
  return ⟨config.getD {}, credentials.getD {}⟩

def resolve (self : ProfileStore) (profile : Option String) (apiUrl : Option Text)
    (envToken : Option String) : Except StoreError ApiTarget :=
  match apiUrl with
  | some url => directTarget url envToken
  | none => do
    match profile.or self.config.defaultProfile with
    | none => throw .noProfile
    | some name =>
      match self.config.profiles name with
      | none => throw (.unknownProfile name)
      | some configured =>
        match self.credentials.profiles name with
        | none => throw (.noCredentials name)
        | some credentials =>
          return { label := name, url := ← parseUrl configured.apiUrl, token := credentials.token }

def loginUrl (self : ProfileStore) (profile : String) (apiUrl : Option Text) :
    Except StoreError Text :=
  match apiUrl with
  | some url => parseUrl url
  | none =>
    match self.config.profiles profile with
    | none => throw (.unknownProfile profile)
    | some configured => parseUrl configured.apiUrl

def saveConfig (self : ProfileStore) : StoreM Unit :=
  ExceptT.mk (Prog.perform (StoreCmd.writeConfig self.config))

def saveCredentials (self : ProfileStore) : StoreM Unit :=
  ExceptT.mk (Prog.perform (StoreCmd.writeCredentials self.credentials))

/-- The store that `login` writes. -/
def withLogin (self : ProfileStore) (profile : String) (apiUrl : Text) (credentials : Credentials) :
    ProfileStore where
  config :=
    { profiles := Function.update self.config.profiles profile (some { apiUrl })
      defaultProfile := some (self.config.defaultProfile.getD profile) }
  credentials :=
    { profiles := Function.update self.credentials.profiles profile (some credentials) }

def login (self : ProfileStore) (profile : String) (apiUrl : Option Text)
    (credentials : Credentials) : StoreM Unit :=
  match self.loginUrl profile apiUrl with
  | .error e => throw (.store e)
  | .ok apiUrl => do
    let self := self.withLogin profile apiUrl credentials
    self.saveConfig
    self.saveCredentials

def logout (self : ProfileStore) (profile : String) : StoreM Bool :=
  match self.credentials.profiles profile with
  | none => return false
  | some _ => do
    let self := { self with
      credentials := { profiles := Function.update self.credentials.profiles profile none } }
    self.saveCredentials
    return true

end ProfileStore

/-! ### The commands -/

def targetProfile (store : ProfileStore) (profile : Option String) : Option String :=
  profile.or store.config.defaultProfile

def login (profile : Option String) (apiUrl : Option Text) : StoreM Unit := do
  let store ← ProfileStore.load
  let profile := (targetProfile store profile).getD "default"
  match store.loginUrl profile apiUrl with
  | .error e => throw (.store e)
  | .ok url =>
    let token ← ExceptT.mk (Prog.perform StoreCmd.readToken)
    ExceptT.mk (Prog.perform (StoreCmd.checkAuth { label := profile, url, token }))
    store.login profile (some url) { token }

def logout (profile : Option String) : StoreM Unit := do
  let store ← ProfileStore.load
  match targetProfile store profile with
  | none => throw .noProfile
  | some profile =>
    let _ ← store.logout profile

/-! ### The files -/

structure Disk where
  config : Option ConfigFile
  credentials : Option CredentialsFile

namespace Disk

def empty : Disk := ⟨none, none⟩

def store (s : Disk) : ProfileStore := ⟨s.config.getD {}, s.credentials.getD {}⟩

def url (s : Disk) (profile : String) : Option Text :=
  (s.store.config.profiles profile).map Profile.apiUrl

def token (s : Disk) (profile : String) : Option Token :=
  (s.store.credentials.profiles profile).map Credentials.token

end Disk

/-- The files, and the targets that login runs have checked: a profile with the
URL and the token it was given. -/
structure Files where
  disk : Disk
  given : List ApiTarget

/-- A file is replaced whole or not at all. -/
def filesStep (s : Files) : (c : StoreCmd) → c.Answer → Files → Prop
  | .readConfig, a, t => (∀ file, a = .ok file → file = s.disk.config) ∧ t = s
  | .readCredentials, a, t => (∀ file, a = .ok file → file = s.disk.credentials) ∧ t = s
  | .writeConfig file, a, t => match a with
    | .ok _ => t = { s with disk := { s.disk with config := some file } }
    | .error _ => t = s
  | .writeCredentials file, a, t => match a with
    | .ok _ => t = { s with disk := { s.disk with credentials := some file } }
    | .error _ => t = s
  | .readToken, _, t => t = s
  | .checkAuth target, _, t => t = { s with given := target :: s.given }

/-! ### Runs of the tool -/

inductive LoginRun
  | login (profile : Option String) (apiUrl : Option Text)
  | logout (profile : Option String)

def LoginRun.program : LoginRun → StoreM Unit
  | login profile apiUrl => Homescope.login profile apiUrl
  | logout profile => Homescope.logout profile

/-- A run that has started, and the files as it found them. -/
structure LoginProcess where
  before : Disk
  program : Prog StoreCmd StoreCmd.Answer (Except LoginError Unit)

structure Workstation where
  files : Files
  process : Option LoginProcess

def Workstation.init : Workstation := ⟨⟨.empty, []⟩, none⟩

/-- Whether a command did what it was asked to. -/
def StoreCmd.succeeded : (c : StoreCmd) → c.Answer → Bool
  | readConfig, a => a.isOk
  | readCredentials, a => a.isOk
  | writeConfig _, a => a.isOk
  | writeCredentials _, a => a.isOk
  | readToken, a => a.isOk
  | checkAuth _, a => a.isOk

inductive WorkstationEvent
  | start (run : LoginRun)
  | ran (succeeded : Bool)
  | finish
  | kill

inductive WorkstationStep : Workstation → WorkstationEvent → Workstation → Prop
  | start {files : Files} (run : LoginRun) :
      WorkstationStep ⟨files, none⟩ (.start run) ⟨files, some ⟨files.disk, run.program.run⟩⟩
  | ran {files files' : Files} {before : Disk} {c : StoreCmd} {k} {a : c.Answer}
      (h : filesStep files c a files') :
      WorkstationStep ⟨files, some ⟨before, .cmd c k⟩⟩ (.ran (c.succeeded a))
        ⟨files', some ⟨before, k a⟩⟩
  | finish {files : Files} {before : Disk} {r : Except LoginError Unit} :
      WorkstationStep ⟨files, some ⟨before, .ret r⟩⟩ .finish ⟨files, none⟩
  | kill {files : Files} {before : Disk} {c : StoreCmd} {k} :
      WorkstationStep ⟨files, some ⟨before, .cmd c k⟩⟩ .kill ⟨files, none⟩

/-- The run has given a profile with a stored token another URL than it had. -/
def Disk.Moved (before disk : Disk) : Prop :=
  ∃ profile, (before.token profile).isSome = true ∧ disk.url profile ≠ before.url profile

/-- What `parse_url` leaves of a URL that it accepts. -/
def trimUrl (url : Text) : Text := trimEndMatches '/' (trim url)

/-- A step that neither cuts a run nor fails between the two writes of a login
that moved a profile, and checks no URL that a second trimming would change. -/
def Workstation.Whole (s : Workstation) (e : WorkstationEvent) : Prop :=
  match s.process with
  | some ⟨before, .cmd c _⟩ =>
    (before.Moved s.files.disk → e = .ran true) ∧
      ∀ target, c = .checkAuth target → trimUrl target.url = target.url
  | _ => True

abbrev WholeRun : Workstation → Workstation → Prop :=
  Relation.ReflTransGen fun s t => ∃ e, WorkstationStep s e t ∧ s.Whole e

/-- Every stored token was given together with the URL stored for its profile. -/
def Files.Paired (s : Files) : Prop :=
  ∀ profile url token, s.disk.url profile = some url → s.disk.token profile = some token →
    trimUrl url = url ∧ ⟨profile, url, token⟩ ∈ s.given

theorem parseUrl_eq_ok {u v : Text} (h : parseUrl u = .ok v) : v = trimUrl u := by
  rw [parseUrl] at h
  split at h
  · cases h
  · split at h
    · cases h
      rfl
    · split at h
      · split at h
        · cases h
          rfl
        · cases h
      · cases h

/-- The steps that `Whole` allows while a run that found `before` goes on. -/
def wholeStep (before : Disk) : Device StoreCmd StoreCmd.Answer Files := fun s c a t =>
  filesStep s c a t ∧ (before.Moved s.disk → c.succeeded a = true) ∧
    ∀ target, c = .checkAuth target → trimUrl target.url = target.url

/-- Between two steps of a run the tokens are paired, or the run has moved a
profile and is about to write its token. -/
def PairedOrMoved (before : Disk) (s : Files) : Prop := before.Moved s.disk ∨ s.Paired

section Programs

variable {before : Disk} {s : Files} {α : Type}

theorem Files.Paired.checked {target : ApiTarget} (h : s.Paired) :
    Files.Paired { s with given := target :: s.given } := by
  intro profile url token hu ht
  obtain ⟨htrim, hmem⟩ := h profile url token hu ht
  exact ⟨htrim, List.mem_cons_of_mem target hmem⟩

theorem load_safe {f : ProfileStore → StoreM Unit} (hs : s.Paired)
    (hf : Safe (wholeStep before) (PairedOrMoved before) (f s.disk.store).run
      (fun _ t => t.Paired) s) :
    Safe (wholeStep before) (PairedOrMoved before) (ProfileStore.load >>= f).run
      (fun _ t => t.Paired) s := by
  refine ⟨.inr hs, ?_⟩
  rintro (e | config) t ⟨⟨hconfig, rfl⟩, -⟩
  · exact ⟨.inr hs, hs⟩
  · obtain rfl := hconfig config rfl
    refine ⟨.inr hs, ?_⟩
    rintro (e | credentials) t ⟨⟨hcredentials, rfl⟩, -⟩
    · exact ⟨.inr hs, hs⟩
    · obtain rfl := hcredentials credentials rfl
      exact hf

theorem withLogin_url {disk : Disk} {profile : String} {url : Text} {credentials : Credentials}
    (config : Option CredentialsFile) (name : String) :
    Disk.url ⟨some (disk.store.withLogin profile url credentials).config, config⟩ name =
      if name = profile then some url else disk.url name := by
  by_cases h : name = profile
  · simp [Disk.url, Disk.store, ProfileStore.withLogin, h]
  · simp [Disk.url, Disk.store, ProfileStore.withLogin, h]

theorem withLogin_token {disk : Disk} {profile : String} {url : Text} {credentials : Credentials}
    (config : Option ConfigFile) (name : String) :
    Disk.token ⟨config, some (disk.store.withLogin profile url credentials).credentials⟩ name =
      if name = profile then some credentials.token else disk.token name := by
  by_cases h : name = profile
  · simp [Disk.token, Disk.store, ProfileStore.withLogin, h]
  · simp [Disk.token, Disk.store, ProfileStore.withLogin, h]

/-- The first write pairs the new URL with the old token, unless it moves no
profile; the second completes the pair. -/
theorem ProfileStore.login_safe {profile : String} {url : Text} {token : Token} (hs : s.Paired)
    (htrim : trimUrl url = url) (hgiven : ⟨profile, url, token⟩ ∈ s.given) :
    Safe (wholeStep s.disk) (PairedOrMoved s.disk)
      (s.disk.store.login profile (some url) { token }).run (fun _ t => t.Paired) s := by
  rw [ProfileStore.login, ProfileStore.loginUrl]
  cases hparse : parseUrl url with
  | error e => exact ⟨.inr hs, hs⟩
  | ok url' =>
    obtain rfl : url' = url := (parseUrl_eq_ok hparse).trans htrim
    refine ⟨.inr hs, ?_⟩
    rintro (e | _) t ⟨hstep, -⟩
    · obtain rfl : t = s := hstep
      exact ⟨.inr hs, hs⟩
    · have htoken : ∀ name, t.disk.token name = s.disk.token name := by
        intro name
        obtain rfl : t = _ := hstep
        rfl
      have hgiven' : t.given = s.given := by
        obtain rfl : t = _ := hstep
        rfl
      have hpaired : ¬s.disk.Moved t.disk → t.Paired := by
        intro hmoved name u tok hu ht
        rw [htoken] at ht
        have hsame : t.disk.url name = s.disk.url name := by
          by_contra hne
          exact hmoved ⟨name, Option.isSome_of_eq_some ht, hne⟩
        rw [hgiven']
        exact hs name u tok (hsame ▸ hu) ht
      refine ⟨(em (s.disk.Moved t.disk)).imp id hpaired, ?_⟩
      rintro (e | _) t' ⟨hstep', hok, -⟩
      · have hmoved : ¬s.disk.Moved t.disk := fun hm => by cases hok hm
        obtain rfl : t' = t := hstep'
        exact ⟨.inr (hpaired hmoved), hpaired hmoved⟩
      · have hdone : t'.Paired := by
          intro name u tok hu ht
          obtain rfl : t = _ := hstep
          obtain rfl : t' = _ := hstep'
          change Disk.url ⟨some (s.disk.store.withLogin profile url' _).config, _⟩ name = some u at hu
          change Disk.token ⟨_, some (s.disk.store.withLogin profile url' _).credentials⟩ name =
            some tok at ht
          rw [withLogin_url] at hu
          rw [withLogin_token] at ht
          by_cases hname : name = profile
          · rw [if_pos hname, Option.some.injEq] at hu ht
            rw [← hu, ← ht, hname]
            exact ⟨htrim, hgiven⟩
          · rw [if_neg hname] at hu ht
            exact hs name u tok hu ht
        exact ⟨.inr hdone, hdone⟩

theorem login_safe (profile : Option String) (apiUrl : Option Text) (hs : s.Paired) :
    Safe (wholeStep s.disk) (PairedOrMoved s.disk) (login profile apiUrl).run
      (fun _ t => t.Paired) s := by
  apply load_safe hs
  dsimp only
  cases s.disk.store.loginUrl ((targetProfile s.disk.store profile).getD "default") apiUrl with
  | error e => exact ⟨.inr hs, hs⟩
  | ok url =>
    refine ⟨.inr hs, ?_⟩
    rintro (e | token) t ⟨rfl, -⟩
    · exact ⟨.inr hs, hs⟩
    · refine ⟨.inr hs, ?_⟩
      rintro (e | _) t ⟨rfl, -, htrim⟩
      · exact ⟨.inr hs.checked, hs.checked⟩
      · exact ProfileStore.login_safe (s := { t with given := _ :: t.given }) hs.checked (htrim _ rfl)
          List.mem_cons_self

theorem logout_safe (profile : Option String) (hs : s.Paired) :
    Safe (wholeStep s.disk) (PairedOrMoved s.disk) (logout profile).run
      (fun _ t => t.Paired) s := by
  apply load_safe hs
  cases targetProfile s.disk.store profile with
  | none => exact ⟨.inr hs, hs⟩
  | some profile =>
    dsimp only
    rw [ProfileStore.logout]
    cases s.disk.store.credentials.profiles profile with
    | none => exact ⟨.inr hs, hs⟩
    | some credentials =>
      refine ⟨.inr hs, ?_⟩
      rintro (e | _) t ⟨hstep, -⟩
      · obtain rfl : t = s := hstep
        exact ⟨.inr hs, hs⟩
      · have hdone : t.Paired := by
          intro name u tok hu ht
          obtain rfl : t = _ := hstep
          refine hs name u tok hu ?_
          by_cases hname : name = profile
          · simp [Disk.token, Disk.store, hname] at ht
          · simpa [Disk.token, Disk.store, hname] using ht
        exact ⟨.inr hdone, hdone⟩

end Programs

def Workstation.Inv (s : Workstation) : Prop :=
  match s.process with
  | none => s.files.Paired
  | some ⟨before, p⟩ =>
    Safe (wholeStep before) (PairedOrMoved before) p (fun _ t => t.Paired) s.files

theorem Workstation.inv_step {s t : Workstation} {e : WorkstationEvent}
    (h : WorkstationStep s e t) (hwhole : s.Whole e) (hs : s.Inv) : t.Inv := by
  cases h with
  | start run =>
    cases run with
    | login profile apiUrl => exact login_safe profile apiUrl hs
    | logout profile => exact logout_safe profile hs
  | ran h =>
    obtain ⟨hmoved, htrim⟩ := hwhole
    exact hs.2 _ _ ⟨h, fun hm => by
      have hh := hmoved hm
      rwa [WorkstationEvent.ran.injEq] at hh, htrim⟩
  | finish => exact hs.2
  | kill =>
    obtain ⟨hmoved, -⟩ := hwhole
    rcases Safe.now hs with hm | hpaired
    · cases hmoved hm
    · exact hpaired

/-- In runs of whole steps, a resolved token was given by a login run together
with the same URL and profile. -/
theorem resolve_given {t : Workstation} (hrun : WholeRun .init t) (hidle : t.process = none)
    {profile : Option String} {envToken : Option String} {target : ApiTarget}
    (h : t.files.disk.store.resolve profile none envToken = .ok target) :
    target ∈ t.files.given := by
  have hinit : Workstation.init.Inv := by
    intro name url token hu
    cases hu
  have hinv := invariant_run hrun (fun _ _ ⟨_, hstep, hwhole⟩ => Workstation.inv_step hstep hwhole)
    hinit
  rw [Workstation.Inv, hidle] at hinv
  rw [ProfileStore.resolve] at h
  cases hname : profile.or t.files.disk.store.config.defaultProfile with
  | none =>
    rw [hname] at h
    cases h
  | some name =>
    rw [hname] at h
    dsimp only at h
    cases hp : t.files.disk.store.config.profiles name with
    | none =>
      rw [hp] at h
      cases h
    | some configured =>
      rw [hp] at h
      dsimp only at h
      cases hc : t.files.disk.store.credentials.profiles name with
      | none =>
        rw [hc] at h
        cases h
      | some credentials =>
        rw [hc] at h
        dsimp only at h
        cases hparse : parseUrl configured.apiUrl with
        | error e =>
          rw [hparse] at h
          cases h
        | ok url =>
          rw [hparse] at h
          cases h
          obtain ⟨htrim, hmem⟩ := hinv name configured.apiUrl credentials.token
            (by rw [Disk.url, hp]; rfl) (by rw [Disk.token, hc]; rfl)
          rwa [parseUrl_eq_ok hparse, htrim]

/-! ### Runs with a given token -/

/-- Answers for a login with `token`; `saved` says whether the second write succeeds. -/
def filesRun (token : Token) (saved : Bool) (s : Files) : (c : StoreCmd) → c.Answer × Files
  | .readConfig => (.ok s.disk.config, s)
  | .readCredentials => (.ok s.disk.credentials, s)
  | .writeConfig file => (.ok (), { s with disk := { s.disk with config := some file } })
  | .writeCredentials file =>
    if saved then (.ok (), { s with disk := { s.disk with credentials := some file } })
    else (.error (.store .write), s)
  | .readToken => (.ok token, s)
  | .checkAuth target => (.ok (), { s with given := target :: s.given })

theorem filesRun_step (token : Token) (saved : Bool) (s : Files) (c : StoreCmd) :
    filesStep s c (filesRun token saved s c).1 (filesRun token saved s c).2 := by
  cases c with
  | readConfig => exact ⟨fun _ h => (Except.ok.inj h).symm, rfl⟩
  | readCredentials => exact ⟨fun _ h => (Except.ok.inj h).symm, rfl⟩
  | writeCredentials file => cases saved <;> rfl
  | _ => rfl

abbrev AnyRun : Workstation → Workstation → Prop :=
  Relation.ReflTransGen fun s t => ∃ e, WorkstationStep s e t

theorem AnyRun.ran {before : Disk} {p q} {s t : Files} (h : Steps filesStep (p, s) (q, t)) :
    AnyRun ⟨s, some ⟨before, p⟩⟩ ⟨t, some ⟨before, q⟩⟩ := by
  refine h.lift (fun c => Workstation.mk c.2 (some ⟨before, c.1⟩)) fun a b hab => ?_
  cases hab with
  | cmd hd => exact ⟨_, .ran hd⟩

theorem AnyRun.run (run : LoginRun) (token : Token) (saved : Bool) (s : Files) :
    AnyRun ⟨s, none⟩ ⟨(run.program.run.run (filesRun token saved) s).2, none⟩ :=
  .head ⟨_, .start run⟩ ((AnyRun.ran (Prog.run_steps (filesRun_step token saved)
    run.program.run s)).tail ⟨_, .finish⟩)

def sampleLogin (url : String) : LoginRun := .login (some "dev") (some url.toList)

/-- Every URL that a command checks is left alone by trimming. -/
def StoreCmd.Trimmed (c : StoreCmd) : Prop :=
  ∀ target, c = .checkAuth target → trimUrl target.url = target.url

theorem load_trimmed {f : ProfileStore → StoreM Unit}
    (hf : ∀ store, (f store).run.Only StoreCmd.Trimmed fun _ => True) :
    (ProfileStore.load >>= f).run.Only StoreCmd.Trimmed fun _ => True := by
  refine ⟨nofun, ?_⟩
  rintro (e | config)
  · trivial
  refine ⟨nofun, ?_⟩
  rintro (e | credentials)
  · trivial
  exact hf _

theorem ProfileStore.login_trimmed (self : ProfileStore) (profile : String) (apiUrl : Option Text)
    (credentials : Credentials) :
    (self.login profile apiUrl credentials).run.Only StoreCmd.Trimmed fun _ => True := by
  rw [ProfileStore.login]
  cases self.loginUrl profile apiUrl with
  | error e => trivial
  | ok url =>
    refine ⟨nofun, ?_⟩
    rintro (e | _)
    · trivial
    refine ⟨nofun, ?_⟩
    rintro (e | _) <;> trivial

theorem login_trimmed (profile : Option String) {url : Text} (h : trimUrl (trimUrl url) = trimUrl url) :
    (login profile (some url)).run.Only StoreCmd.Trimmed fun _ => True := by
  apply load_trimmed
  intro store
  dsimp only
  cases hparse : store.loginUrl ((targetProfile store profile).getD "default") (some url) with
  | error e => trivial
  | ok url' =>
    obtain rfl := parseUrl_eq_ok hparse
    apply Prog.Only.bindExcept
    refine ⟨nofun, ?_⟩
    rintro (e | token)
    · trivial
    apply Prog.Only.bindExcept
    refine ⟨fun target ht => ?_, ?_⟩
    · cases ht
      exact h
    rintro (e | _)
    · trivial
    dsimp only [Prog.Only]
    exact store.login_trimmed _ _ _

theorem WholeRun.run {token : Token} {before : Disk} {R : Except LoginError Unit → Prop} {p}
    (hp : Prog.Only StoreCmd.Trimmed R p) (s : Files) :
    WholeRun ⟨s, some ⟨before, p⟩⟩ ⟨(p.run (filesRun token true) s).2, none⟩ := by
  induction p generalizing s with
  | ret r => exact .single ⟨_, .finish, trivial⟩
  | cmd c k ih =>
    have hok : c.succeeded (filesRun token true s c).1 = true := by cases c <;> rfl
    exact .head ⟨_, .ran (filesRun_step token true s c),
      fun _ => congrArg WorkstationEvent.ran hok, hp.1⟩ (ih _ (hp.2 _) _)

/-- The first login of a workstation. -/
theorem resolve_given_first :
    (⟨"dev", "https://a.example".toList, ⟨"A"⟩⟩ : ApiTarget) ∈
      ((sampleLogin "https://a.example").program.run.run (filesRun ⟨"A"⟩ true)
        ⟨.empty, []⟩).2.given := by
  have htrim : trimUrl (trimUrl "https://a.example".toList) = trimUrl "https://a.example".toList := by
    decide +kernel
  have hrun : WholeRun .init ⟨((sampleLogin "https://a.example").program.run.run
      (filesRun ⟨"A"⟩ true) ⟨.empty, []⟩).2, none⟩ :=
    .head ⟨_, .start (sampleLogin "https://a.example"), trivial⟩
      (WholeRun.run (login_trimmed (some "dev") htrim) _)
  have hresolve : ((sampleLogin "https://a.example").program.run.run (filesRun ⟨"A"⟩ true)
      ⟨.empty, []⟩).2.disk.store.resolve (some "dev") none none =
        .ok ⟨"dev", "https://a.example".toList, ⟨"A"⟩⟩ := by decide +kernel
  exact resolve_given hrun rfl hresolve

/-- A profile that is logged in, then moved by a login whose second write fails. -/
def sampleMoved : Files :=
  ((sampleLogin "https://b.example").program.run.run (filesRun ⟨"B"⟩ false)
    ((sampleLogin "https://a.example").program.run.run (filesRun ⟨"A"⟩ true) ⟨.empty, []⟩).2).2

/-- The first URL's token is then sent to the second. -/
theorem not_resolve_given :
    ¬∀ t, AnyRun .init t → t.process = none → ∀ profile envToken target,
      t.files.disk.store.resolve profile none envToken = .ok target → target ∈ t.files.given := by
  intro hall
  have hrun : AnyRun .init ⟨sampleMoved, none⟩ :=
    (AnyRun.run (sampleLogin "https://a.example") ⟨"A"⟩ true _).trans
      (AnyRun.run (sampleLogin "https://b.example") ⟨"B"⟩ false _)
  have hresolve : sampleMoved.disk.store.resolve (some "dev") none none =
      .ok ⟨"dev", "https://b.example".toList, ⟨"A"⟩⟩ := by decide +kernel
  have hnot : (⟨"dev", "https://b.example".toList, ⟨"A"⟩⟩ : ApiTarget) ∉ sampleMoved.given := by
    decide +kernel
  exact hnot (hall _ hrun rfl _ _ _ hresolve)

end Homescope
