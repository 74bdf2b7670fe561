import Homescope.AdminToken
import Homescope.Secrets

/-! What a deploy that goes on to its user phase leaves of the secrets, and the
logins of the API and the gateway at the broker of the host
(`host-util/src/mqtt.rs`). -/

namespace Homescope.Secrets

open Commands Commands.Prog Deploy

variable {sha256 : Text → Text} {spaces : List Char} {date : Text} {c : Config} {flags : Flags}
  {α β : Type} {s t : Store}

/-- A password file is labelled with the fingerprint of what it was made from. -/
def Secret.Genuine (sha256 : Text → Text) (secret : Secret) : Prop :=
  ∀ source, secret.source = some source → ∃ apiUser apiPassword gatewayUser gatewayPassword,
    source = sha256 (Shell.unlines [apiUser, apiPassword, gatewayUser, gatewayPassword]) ∧
      secret.data = .passwd (passwdEntries apiUser apiPassword gatewayUser gatewayPassword)

def PutsGenuine (sha256 : Text → Text) (_ : Store) (c : SecretCmd) : Prop :=
  ∀ name secret, c = .secretPut name secret → secret.Genuine sha256

/-- Where the script goes on, `Q` holds of its value and of the secrets. -/
def Ends (sha256 : Text → Text) (x : SecretM α) (s : Store) (Q : α → Store → Prop) : Prop :=
  Guarded step (PutsGenuine sha256) x.run (fun r t => ∀ a, r = .ok a → Q a t) s

namespace Ends

variable {Q R : α → Store → Prop}

theorem bind {x : SecretM α} {f : α → SecretM β} {Q : β → Store → Prop}
    (h : Ends sha256 x s fun a t => Ends sha256 (f a) t Q) : Ends sha256 (x >>= f) s Q :=
  Returns.bind h

theorem mono {x : SecretM α} (h : Ends sha256 x s Q) (hQ : ∀ a t, Q a t → R a t) :
    Ends sha256 x s R :=
  Returns.mono h hQ

theorem pure {a : α} (h : Q a s) : Ends sha256 (Pure.pure a) s Q := Returns.pure h

theorem throw (e : Stop) : Ends sha256 (throw e) s Q := Returns.throw e

theorem ask {c : SecretCmd} {Q : c.Answer → Store → Prop} (hc : PutsGenuine sha256 s c)
    (h : ∀ a t, step s c a t → Q a t) : Ends sha256 (ask c) s Q :=
  Returns.lift hc h

theorem orDie {a : Option α} (h : ∀ b, a = some b → Q b s) : Ends sha256 (orDie a) s Q := by
  cases a with
  | none => exact throw _
  | some b => exact pure (h b rfl)

theorem ite {p : Prop} [Decidable p] {x y : SecretM α} (hx : p → Ends sha256 x s Q)
    (hy : ¬ p → Ends sha256 y s Q) : Ends sha256 (if p then x else y) s Q := by
  split
  · exact hx ‹_›
  · exact hy ‹_›

/-- A command whose answer is handed on. -/
theorem ask_bind {c : SecretCmd} {f : c.Answer → SecretM α} (hc : PutsGenuine sha256 s c)
    (h : ∀ a t, step s c a t → Ends sha256 (f a) t Q) : Ends sha256 (Secrets.ask c >>= f) s Q :=
  bind (ask hc h)

theorem orDie_bind {a : Option β} {f : β → SecretM α} (h : ∀ b, a = some b → Ends sha256 (f b) s Q) :
    Ends sha256 (Secrets.orDie a >>= f) s Q :=
  bind (orDie h)

/-- The secret is put, or the script ends. -/
theorem put {name : SecretName} {secret : Secret} (hsecret : secret.Genuine sha256)
    {Q : Unit → Store → Prop} (h : Q () (Function.update s name (some secret))) :
    Ends sha256 (Secrets.ask (.secretPut name secret) >>= fun a => Secrets.orDie a) s Q := by
  refine ask_bind (by rintro _ _ ⟨⟩; exact hsecret) fun a t ht => orDie ?_
  rintro u rfl
  exact ht.2 ▸ h

theorem secretPut {name : SecretName} {data : Text} {generated : Bool} {Q : Unit → Store → Prop}
    (h : Q () (Function.update s name (some { data := .text data, generated }))) :
    Ends sha256 (secretPut name data generated) s Q :=
  put (by rintro _ ⟨⟩) h

end Ends

/-! ### The parts of the root phase -/

/-- The other secrets are as they were. -/
def SameBut (names : List SecretName) (s t : Store) : Prop := ∀ name ∉ names, t name = s name

theorem SameBut.refl {names : List SecretName} {s : Store} : SameBut names s s := fun _ _ => rfl

theorem SameBut.update {names : List SecretName} {name : SecretName} {s : Store} {x : Option Secret}
    (hname : name ∈ names) : SameBut names s (Function.update s name x) :=
  fun _ hother => Function.update_of_ne (ne_of_mem_of_not_mem hname hother).symm ..

theorem SameBut.trans {names names' : List SecretName} {u : Store} (h : SameBut names s t)
    (h' : SameBut names' t u) : SameBut (names ++ names') s u := by
  intro name hname
  rw [List.mem_append, not_or] at hname
  exact (h' name hname.2).trans (h name hname.1)

theorem setupKek_ends : Ends sha256 (setupKek spaces date flags) s fun _ t =>
    t .kek ≠ none ∧ SameBut [.kek] s t := by
  have hput (data : Text) : Ends sha256 (secretPut .kek data false) s fun _ t =>
      t .kek ≠ none ∧ SameBut [.kek] s t :=
    .secretPut ⟨by simp, .update (by simp)⟩
  refine .ask_bind nofun fun found t ht => ?_
  obtain ⟨hfound, rfl⟩ := ht
  refine .ite (fun hyes => ?_) fun _ => ?_
  · have hdone : t .kek ≠ none ∧ SameBut [.kek] t t := ⟨hfound hyes, .refl⟩
    cases flags.importKek with
    | none => exact .pure hdone
    | some file =>
      refine .ask_bind nofun fun same u hu => .ite (fun _ => .pure ?_) fun _ => .throw _
      exact hu.2 ▸ hdone
  · cases flags.importKek with
    | some file => exact .ite (fun _ => hput file) fun _ => .throw _
    | none =>
      refine .ite (fun _ => .ask_bind nofun fun hex u hu => ?_) fun _ => .throw _
      obtain rfl : u = t := hu
      exact hput _

theorem setupAdminToken_ends : Ends sha256 (setupAdminToken flags) s fun _ t =>
    t .adminToken ≠ none ∧ SameBut [.adminToken] s t := by
  have hput (data : Text) : Ends sha256 (secretPut .adminToken data false) s fun _ t =>
      t .adminToken ≠ none ∧ SameBut [.adminToken] s t :=
    .secretPut ⟨by simp, .update (by simp)⟩
  refine .ask_bind nofun fun found t ht => ?_
  obtain ⟨hfound, rfl⟩ := ht
  refine .ite (fun hyes => ?_) fun _ => ?_
  · have hdone : t .adminToken ≠ none ∧ SameBut [.adminToken] t t := ⟨hfound hyes, .refl⟩
    cases flags.importAdminToken with
    | none => exact .pure hdone
    | some file =>
      refine .ask_bind nofun fun same u hu => .ite (fun _ => .pure ?_) fun _ => .throw _
      exact hu.2 ▸ hdone
  · cases flags.importAdminToken with
    | some file => exact hput file
    | none =>
      refine .ask_bind nofun fun hex u hu => .orDie_bind fun hex _ => ?_
      obtain rfl : u = t := hu
      exact hput _

/-- The operator gave the secret, or a file that it equals. -/
def Provided (name : SecretName) (file : Option Text) (s : Store) : Prop :=
  ∃ secret, s name = some secret ∧
    (secret.generated = false ∨ ∃ data, file = some data ∧ secret.data = .text data)

theorem setByOperator_ends {name : SecretName} : Ends sha256 (setByOperator name) s fun set t =>
    (set = true → ∃ secret, s name = some secret ∧ secret.generated = false) ∧ t = s := by
  refine .ask_bind nofun fun found t ht => ?_
  obtain ⟨-, rfl⟩ := ht
  refine .ite (fun _ => .ask_bind nofun fun generated u hu => .orDie_bind ?_) fun _ => .pure ⟨nofun, rfl⟩
  rintro generated rfl
  obtain ⟨hlabel, rfl⟩ := hu
  obtain ⟨secret, hsecret, hgenerated⟩ := hlabel generated rfl
  refine .pure ⟨fun hset => ⟨secret, hsecret, ?_⟩, rfl⟩
  rw [← hgenerated]
  simpa using hset

theorem operatorSecret_ends {name : SecretName} (file : Option Text) :
    Ends sha256 (operatorSecret name file) s fun missing t =>
      (missing = [] → Provided name file t) ∧ SameBut [name] s t := by
  have hprovided (data : Text) : Provided name file
      (Function.update s name (some { data := .text data })) :=
    ⟨_, Function.update_self .., .inl rfl⟩
  cases file with
  | some file =>
    have hput : Ends sha256 (do secretPut name file false; return ([] : List SecretName)) s
        fun missing t => (missing = [] → Provided name (some file) t) ∧ SameBut [name] s t :=
      .bind (.secretPut (.pure ⟨fun _ => hprovided file, .update (by simp)⟩))
    refine .ask_bind nofun fun found t ht => ?_
    obtain ⟨-, rfl⟩ := ht
    refine .ite (fun _ => .ask_bind nofun fun same u hu => ?_) fun _ => hput
    obtain ⟨hsame, rfl⟩ := hu
    refine .ite (fun hyes => .pure ⟨fun _ => ?_, .refl⟩) fun _ => hput
    obtain ⟨secret, hsecret, hdata⟩ := hsame hyes
    exact ⟨secret, hsecret, .inr ⟨file, rfl, hdata⟩⟩
  | none =>
    refine .bind (setByOperator_ends.mono fun set t ht => ?_)
    obtain ⟨hset, rfl⟩ := ht
    refine .ite (fun hyes => .pure ⟨fun _ => ?_, .refl⟩) fun _ => ?_
    · obtain ⟨secret, hsecret, hgenerated⟩ := hset hyes
      exact ⟨secret, hsecret, .inl hgenerated⟩
    · have hmissing : ([name] = [] → Provided name none t) ∧ SameBut [name] t t := ⟨nofun, .refl⟩
      refine .ask_bind nofun fun answer u hu => ?_
      obtain rfl : u = t := hu
      cases answer with
      | eof => exact .throw _
      | noTerminal => exact .pure hmissing
      | value value =>
        refine .ite (fun _ => .pure hmissing) fun _ => .bind (.secretPut (.pure ?_))
        exact ⟨fun _ => hprovided _, .update (by simp)⟩

theorem ensurePassword_ends {name : SecretName} : Ends sha256 (ensurePassword name) s fun _ t =>
    SameBut [name] s t := by
  refine .ask_bind nofun fun found t ht => ?_
  obtain ⟨-, rfl⟩ := ht
  refine .ite (fun _ => .pure (.refl)) fun _ => .ask_bind nofun fun hex u hu => .orDie_bind ?_
  rintro hex -
  obtain rfl : u = t := hu
  exact .secretPut (.update (by simp))

theorem capture_captured (x : Text) : Shell.capture (Shell.capture x ++ ['\n']) = Shell.capture x := by
  have hnul : Shell.dropNul (Shell.capture x) = Shell.capture x := by
    refine Shell.dropNul_eq_self_iff.mpr fun hmem => ?_
    have hmem := (List.rdropWhile_prefix (· == '\n') _).subset hmem
    simp [Shell.dropNul] at hmem
  have hconcat : Shell.dropNul (Shell.capture x ++ ['\n']) = Shell.capture x ++ ['\n'] := by
    rw [Shell.dropNul_append, hnul]
    rfl
  rw [Shell.capture, hconcat, List.rdropWhile_concat_pos _ _ _ rfl, Shell.capture]
  exact List.rdropWhile_idempotent _ _

theorem capture_brokerAcl_ne_nil : Shell.capture (brokerAcl c) ≠ [] := by
  intro h
  have hline : '#' ∈ brokerAcl c :=
    List.mem_flatMap.mpr ⟨_, List.mem_cons_self, List.mem_append_left _ (by decide)⟩
  have hmem : '#' ∈ Shell.dropNul (brokerAcl c) := List.mem_filter.mpr ⟨hline, by decide⟩
  simpa using List.rdropWhile_eq_nil_iff.mp h '#' hmem

def Holds (s : Store) (name : SecretName) (data : Text) : Prop :=
  ∃ secret, s name = some secret ∧ secret.data = .text data

theorem Holds.congr {name : SecretName} {data : Text} (h : t name = s name) (hs : Holds s name data) :
    Holds t name data := by
  obtain ⟨secret, hsecret, hdata⟩ := hs
  exact ⟨secret, h.trans hsecret, hdata⟩

theorem writeAcl_ends : Ends sha256 (writeAcl c) s fun _ t =>
    (∃ data, Holds t .mqttAcl data ∧ Shell.capture data = Shell.capture (brokerAcl c)) ∧
      SameBut [.mqttAcl] s t := by
  refine .ask_bind nofun fun printed t ht => ?_
  obtain ⟨hprinted, rfl⟩ := ht
  refine .ite (fun heq => .pure ⟨?_, .refl⟩) fun _ => .secretPut ⟨?_, .update (by simp)⟩
  · obtain ⟨secret, data, hsecret, hdata, hcapture⟩ := hprinted (heq ▸ capture_brokerAcl_ne_nil)
    exact ⟨data, ⟨secret, hsecret, hdata⟩, hcapture.symm.trans heq⟩
  · exact ⟨_, ⟨_, Function.update_self .., rfl⟩, capture_captured _⟩

/-- The secrets of the broker of the host fit together. -/
structure Fits (sha256 : Text → Text) (c : Config) (s : Store) (apiData gatewayData : Text) : Prop where
  api : Holds s .mqttApi apiData
  gateway : Holds s .mqttGateway gatewayData
  passwd : ∃ passwd, s .mqttPasswd = some passwd ∧
    passwd.source = some (fingerprint sha256 c (Shell.capture apiData) (Shell.capture gatewayData))

theorem writePasswd_ends : Ends sha256 (writePasswd sha256 c) s fun _ t =>
    (∃ apiData gatewayData, Fits sha256 c t apiData gatewayData) ∧ SameBut [.mqttPasswd] s t := by
  refine .ask_bind nofun fun api t ht => .orDie_bind ?_
  rintro api rfl
  obtain ⟨hapi, rfl⟩ := ht
  obtain ⟨apiSecret, apiData, hapiSecret, hapiData, rfl⟩ := hapi api rfl
  refine .ask_bind nofun fun gateway u hu => .orDie_bind ?_
  rintro gateway rfl
  obtain ⟨hgateway, rfl⟩ := hu
  obtain ⟨gatewaySecret, gatewayData, hgatewaySecret, hgatewayData, rfl⟩ := hgateway gateway rfl
  have hapi : Holds u .mqttApi apiData := ⟨apiSecret, hapiSecret, hapiData⟩
  have hgateway : Holds u .mqttGateway gatewayData := ⟨gatewaySecret, hgatewaySecret, hgatewayData⟩
  refine .ask_bind nofun fun label v hv => ?_
  obtain ⟨hlabel, rfl⟩ := hv
  refine .ite (fun heq => .pure ⟨⟨apiData, gatewayData, hapi, hgateway, hlabel _ heq⟩, .refl⟩) fun _ => ?_
  refine .ask_bind nofun fun entries w hw => .orDie_bind ?_
  rintro entries rfl
  obtain ⟨hentries, rfl⟩ := hw
  refine .put ?_ ⟨⟨apiData, gatewayData, ?_, ?_, _, Function.update_self .., rfl⟩, .update (by simp)⟩
  · rintro source ⟨⟩
    exact ⟨_, _, _, _, rfl, congrArg SecretData.passwd (hentries entries rfl)⟩
  · exact hapi.congr (Function.update_of_ne (by decide) ..)
  · exact hgateway.congr (Function.update_of_ne (by decide) ..)

def Config.touched (c : Config) : Component → List SecretName
  | .broker => [.mqttApi, .mqttGateway, .mqttAcl, .mqttPasswd]
  | .api => .kek :: .adminToken :: if c.brokerLocal then [] else [.mqttApi]
  | .gateway => if c.brokerLocal then [] else [.mqttGateway]

/-- What a component needs of the secrets. -/
def Ready (sha256 : Text → Text) (c : Config) (flags : Flags) (s : Store) : Component → Prop
  | .broker => (∃ apiData gatewayData, Fits sha256 c s apiData gatewayData) ∧
    ∃ data, Holds s .mqttAcl data ∧ Shell.capture data = Shell.capture (brokerAcl c)
  | .api => s .kek ≠ none ∧ s .adminToken ≠ none ∧
    (c.brokerLocal = false → Provided .mqttApi flags.mqttApiPassword s)
  | .gateway => c.brokerLocal = false → Provided .mqttGateway flags.mqttGatewayPassword s

theorem Provided.congr {name : SecretName} {file : Option Text} (h : t name = s name)
    (hs : Provided name file s) : Provided name file t := by
  obtain ⟨secret, hsecret, hgiven⟩ := hs
  exact ⟨secret, h.trans hsecret, hgiven⟩

theorem Ready.congr {component : Component} (h : ∀ name ∈ Config.touched c component, t name = s name)
    (hs : Ready sha256 c flags s component) : Ready sha256 c flags t component := by
  cases component with
  | broker =>
    obtain ⟨⟨apiData, gatewayData, hapi, hgateway, hpasswd⟩, data, hacl, hcapture⟩ := hs
    have hsame : t .mqttPasswd = s .mqttPasswd := h _ (by simp [Config.touched])
    refine ⟨⟨apiData, gatewayData, hapi.congr (h _ (by simp [Config.touched])),
      hgateway.congr (h _ (by simp [Config.touched])), by rwa [hsame]⟩, data, ?_, hcapture⟩
    exact hacl.congr (h _ (by simp [Config.touched]))
  | api =>
    obtain ⟨hkek, htoken, hprovided⟩ := hs
    refine ⟨?_, ?_, fun hexternal => (hprovided hexternal).congr (h _ ?_)⟩
    · rwa [h _ (by simp [Config.touched])]
    · rwa [h _ (by simp [Config.touched])]
    · simp [Config.touched, hexternal]
  | gateway =>
    refine fun hexternal => (hs hexternal).congr (h _ ?_)
    simp [Config.touched, hexternal]

theorem componentRoot_ends (component : Component) :
    Ends sha256 (componentRoot spaces date sha256 c flags component) s fun missing t =>
      (missing = [] → Ready sha256 c flags t component) ∧ SameBut (Config.touched c component) s t := by
  cases component with
  | broker =>
    refine .bind (ensurePassword_ends.mono fun _ t ht => ?_)
    refine .bind (ensurePassword_ends.mono fun _ u hu => ?_)
    refine .bind (writeAcl_ends.mono fun _ v hv => ?_)
    refine .bind (writePasswd_ends.mono fun _ w hw => .pure ⟨fun _ => ⟨hw.1, ?_⟩, ?_⟩)
    · obtain ⟨data, hacl, hcapture⟩ := hv.1
      exact ⟨data, hacl.congr (hw.2 _ (by decide)), hcapture⟩
    · exact ht.trans (hu.trans (hv.2.trans hw.2))
  | api =>
    refine .bind (setupKek_ends.mono fun _ t ht => ?_)
    refine .bind (setupAdminToken_ends.mono fun _ u hu => ?_)
    have hlast (missing : List SecretName) {v : Store}
        (hv : SameBut (if c.brokerLocal then [] else [.mqttApi]) u v)
        (hprovided : missing = [] → c.brokerLocal = false →
          Provided .mqttApi flags.mqttApiPassword v) :
        Ends sha256 (do Secrets.orDie (← Secrets.ask .host); return missing) v fun missing t =>
          (missing = [] → Ready sha256 c flags t .api) ∧ SameBut (Config.touched c .api) s t := by
      have hkept (name : SecretName) (hname : name ≠ .mqttApi) : v name = u name := by
        refine hv name ?_
        split <;> simp [hname]
      refine .ask_bind nofun fun a w hw => .orDie_bind fun _ _ => .pure ⟨fun hmissing => ⟨?_, ?_, ?_⟩, ?_⟩
      all_goals obtain rfl : w = v := hw
      · rw [hkept .kek (by decide), hu.2 _ (by decide)]
        exact ht.1
      · rw [hkept .adminToken (by decide)]
        exact hu.1
      · exact hprovided hmissing
      · exact ht.2.trans (hu.2.trans hv)
    refine .ite (fun hlocal => .bind (.pure (hlast [] .refl ?_))) fun hexternal => ?_
    · simp [hlocal]
    · refine .bind ((operatorSecret_ends _).mono fun missing v hv => hlast missing ?_ ?_)
      · simpa [hexternal] using hv.2
      · exact fun hmissing _ => hv.1 hmissing
  | gateway =>
    refine .ask_bind nofun fun a t ht => .orDie_bind fun _ _ => ?_
    obtain rfl : t = s := ht
    refine .ite (fun hlocal => .pure ⟨fun _ => ?_, .refl⟩) fun hexternal => ?_
    · intro hexternal
      rw [hlocal] at hexternal
      cases hexternal
    · refine (operatorSecret_ends _).mono fun missing u hu => ⟨fun hmissing _ => hu.1 hmissing, ?_⟩
      simpa [Config.touched, hexternal] using hu.2

theorem touched_disjoint {component other : Component} (hne : component ≠ other)
    (hlocal : c.brokerLocal = false → component ≠ .broker ∧ other ≠ .broker) :
    ∀ name ∈ Config.touched c component, name ∉ Config.touched c other := by
  cases hbroker : c.brokerLocal <;> cases component <;> cases other <;>
    simp_all [Config.touched]

theorem componentRoots_ends {components : List Component} (hnodup : components.Nodup)
    (hlocal : c.brokerLocal = false → Component.broker ∉ components) :
    Ends sha256 (componentRoots spaces date sha256 c flags components) s fun missing t =>
      (missing = [] → ∀ component ∈ components, Ready sha256 c flags t component) ∧
        SameBut (components.flatMap (Config.touched c)) s t := by
  induction components generalizing s with
  | nil => exact .pure ⟨fun _ => by simp, .refl⟩
  | cons component components ih =>
    obtain ⟨hnotMem, hnodup⟩ := List.nodup_cons.mp hnodup
    refine .bind ((componentRoot_ends component).mono fun missing t ht => ?_)
    refine .bind ((ih hnodup fun h hmem => hlocal h (List.mem_cons_of_mem _ hmem)).mono ?_)
    refine fun others u hu => .pure ⟨fun hnone => ?_, ht.2.trans hu.2⟩
    obtain ⟨hmissing, hothers⟩ := List.append_eq_nil_iff.mp hnone
    refine List.forall_mem_cons.mpr ⟨(ht.1 hmissing).congr fun name hname => ?_, hu.1 hothers⟩
    refine hu.2 name fun hmem => ?_
    obtain ⟨other, hother, hname'⟩ := List.mem_flatMap.mp hmem
    refine touched_disjoint ?_ (fun h => ⟨?_, ?_⟩) name hname hname'
    · rintro rfl
      exact hnotMem hother
    · rintro rfl
      exact hlocal h List.mem_cons_self
    · rintro rfl
      exact hlocal h (List.mem_cons_of_mem _ hother)

theorem rootPhase_ends (hcomponents : c.components = Component.all.filter c.has)
    (hlocal : c.brokerLocal = c.has .broker) :
    Ends sha256 (rootPhase spaces date sha256 c flags) s fun _ t =>
      ∀ component, c.has component = true → Ready sha256 c flags t component := by
  have hnodup : c.components.Nodup := by
    rw [hcomponents]
    exact List.Nodup.filter _ (by decide)
  have hbroker : c.brokerLocal = false → Component.broker ∉ c.components := by
    intro h hmem
    rw [hlocal, Config.has, List.contains_eq_mem] at h
    simp [hmem] at h
  have hhost : PutsGenuine sha256 s .host := fun _ _ h => by cases h
  refine .ite (fun _ => .ask_bind hhost fun a t _ => .orDie_bind fun _ _ => ?_) fun _ => .throw _
  refine .bind ((componentRoots_ends hnodup hbroker).mono fun missing u hu => ?_)
  refine .ite (fun hmissing => .pure fun component hhas => hu.1 hmissing component ?_) fun _ => .throw _
  rwa [Config.has, List.contains_eq_mem, decide_eq_true_eq] at hhas

/-! ### Runs -/

theorem secretSet_ends (name : SecretName) (input : SetInput) :
    Ends sha256 (secretSet name input) s fun _ _ => True := by
  rw [secretSet.eq_def]
  refine .ite (fun _ => .throw _) fun _ => .ite (fun _ => ?_) fun _ => ?_
  · have hexists : PutsGenuine sha256 s (.secretExists .kek) := fun _ _ h => by cases h
    refine .ask_bind hexists fun found t _ => .ite (fun _ => .throw _) fun _ => ?_
    cases input with
    | typed value => exact .throw _
    | piped data => exact .secretPut trivial
  · cases input with
    | typed value => exact .ite (fun _ => .throw _) fun _ => .secretPut trivial
    | piped data => exact .secretPut trivial

theorem secretRm_ends (name : SecretName) (answer : Text) :
    Ends sha256 (secretRm name answer) s fun _ _ => True :=
  .ite (fun _ => .throw _) fun _ => .ite (fun _ => .throw _) fun _ =>
    .ask_bind nofun fun _ _ _ => .orDie fun _ _ => trivial

theorem deploy_ends : Ends sha256 (rootPhase spaces date sha256 c flags) s fun _ _ => True := by
  have hroots (components : List Component) {s : Store} :
      Ends sha256 (componentRoots spaces date sha256 c flags components) s fun _ _ => True := by
    induction components generalizing s with
    | nil => exact .pure trivial
    | cons component components ih =>
      exact .bind ((componentRoot_ends component).mono fun _ _ _ => .bind (ih.mono fun _ _ _ => .pure trivial))
  refine .ite (fun _ => .ask_bind nofun fun a t _ => .orDie_bind fun _ _ => ?_) fun _ => .throw _
  exact .bind ((hroots _).mono fun _ _ _ => .ite (fun _ => .pure trivial) fun _ => .throw _)

theorem Op.program_ends (op : Op) : Ends sha256 (op.program spaces sha256) s fun _ _ => True := by
  cases op with
  | deploy date c flags => exact deploy_ends
  | secretSet name input => exact secretSet_ends name input
  | secretRm name answer => exact secretRm_ends name answer

/-- Every secret is genuine, and what is left of a command keeps them so. -/
def KeepsGenuine (sha256 : Text → Text) (s : Host) : Prop :=
  (∀ name secret, s.store name = some secret → secret.Genuine sha256) ∧
    Guarded step (PutsGenuine sha256) s.work (fun _ _ => True) s.store

theorem step_genuine {c : SecretCmd} {a : c.Answer} (h : step s c a t) (hc : PutsGenuine sha256 s c)
    (hs : ∀ name secret, s name = some secret → secret.Genuine sha256) :
    ∀ name secret, t name = some secret → secret.Genuine sha256 := by
  have hupdate {name : SecretName} {x : Option Secret} (hx : ∀ secret, x = some secret → secret.Genuine sha256) :
      ∀ other secret, Function.update s name x other = some secret → secret.Genuine sha256 := by
    intro other secret hother
    by_cases heq : other = name
    · subst heq
      rw [Function.update_self] at hother
      exact hx secret hother
    · rw [Function.update_of_ne heq] at hother
      exact hs other secret hother
  cases c with
  | secretPut name secret =>
    cases a with
    | none =>
      rcases h with rfl | rfl
      · exact hs
      · exact hupdate nofun
    | some u =>
      obtain ⟨-, rfl⟩ := h
      refine hupdate ?_
      rintro _ ⟨⟩
      exact hc name secret rfl
  | secretRm name =>
    cases a with
    | none =>
      obtain rfl : t = s := h
      exact hs
    | some u =>
      obtain rfl : t = _ := h
      exact hupdate nofun
  | randHex n =>
    obtain rfl : t = s := h
    exact hs
  | readTty =>
    obtain rfl : t = s := h
    exact hs
  | host =>
    obtain rfl : t = s := h
    exact hs
  | _ =>
    obtain ⟨-, rfl⟩ := h
    exact hs

theorem HostStep.keepsGenuine {P : Store → (c : SecretCmd) → c.Answer → Prop} {s t : Host}
    (ht : HostStep spaces sha256 P s t) (hs : KeepsGenuine sha256 s) : KeepsGenuine sha256 t := by
  obtain ⟨hgenuine, hwork⟩ := hs
  cases ht with
  | start hs op => exact ⟨hgenuine, Guarded.mono op.program_ends fun _ _ _ => trivial⟩
  | @ran c k a store hs hc hP =>
    rw [hs] at hwork
    exact ⟨step_genuine hc hwork.1 hgenuine, hwork.2 a store hc⟩
  | cut => exact ⟨hgenuine, trivial⟩

/-- The script ran to its end. -/
theorem Ends.steps {x : SecretM α} {a : α} {Q : α → Store → Prop} (hx : Ends sha256 x s Q)
    (h : Steps step (x.run, s) (.ret (.ok a), t)) : Q a t :=
  (Guarded.steps hx trivial (fun _ _ _ _ _ _ _ => trivial) h).1 a rfl

theorem steps_genuine {x : SecretM α} {r : Except Stop α} {Q : α → Store → Prop} (hx : Ends sha256 x s Q)
    (hs : ∀ name secret, s name = some secret → secret.Genuine sha256)
    (h : Steps step (x.run, s) (.ret r, t)) :
    ∀ name secret, t name = some secret → secret.Genuine sha256 :=
  (Guarded.steps hx hs (fun _ _ _ _ hc hd hs => step_genuine hd hc hs) h).2

/-! ### Logins -/

/-- `read_password`: an empty password is an error. -/
def readPassword (contents : Text) : Option Text :=
  let password := trim ((Homescope.lines contents).head?.getD [])
  if password = [] then none else some password

/-- The broker takes what a client reads of its secret. -/
def LogsIn (admits : List (Text × Text) → Text → Text → Prop) (entries : List (Text × Text))
    (user contents : Text) : Prop :=
  ∃ password, readPassword contents = some password ∧ admits entries user password

/-- What is asked of `mosquitto_passwd -b` and of the broker that reads its file:
a user gets in with the password that was given last for it. -/
structure Mosquitto (admits : List (Text × Text) → Text → Text → Prop) : Prop where
  given (entries : List (Text × Text)) (user password tried : Text) :
    admits (entries ++ [(user, password)]) user tried ↔ tried = password
  others (entries : List (Text × Text)) {user other : Text} (password tried : Text) (h : other ≠ user) :
    admits (entries ++ [(user, password)]) other tried ↔ admits entries other tried

/-- One line of printable ASCII or tabs, as `openssl rand -hex` and a prompt give it. -/
def OneLine (contents w : Text) : Prop :=
  (∀ c ∈ w, Visible c) ∧ trim w ≠ [] ∧ (contents = w ∨ contents = w ++ ['\n'])

theorem visible_ne_newline {c : Char} (h : Visible c) : c ≠ '\n' := by
  rintro rfl
  exact absurd h (by simp [Visible])

theorem visible_isBlank {c : Char} (h : Visible c) : isBlank c = isWhitespace c := by
  rw [Bool.eq_iff_iff, visible_whitespace h]
  simp [Secrets.isBlank]

namespace OneLine

variable {contents w : Text}

theorem newline_not_mem (h : OneLine contents w) : '\n' ∉ w :=
  fun hmem => visible_ne_newline (h.1 _ hmem) rfl

theorem ne_nil (h : OneLine contents w) : w ≠ [] := by
  rintro rfl
  exact h.2.1 rfl

theorem capture (h : OneLine contents w) : Shell.capture contents = w := by
  obtain ⟨c, hlast⟩ := List.getLast?_isSome.mpr h.ne_nil |> Option.isSome_iff_exists.mp
  have hc : c ≠ '\n' := visible_ne_newline (h.1 c (List.mem_of_getLast? hlast))
  have hnul : Shell.dropNul w = w := by
    refine Shell.dropNul_eq_self_iff.mpr fun hmem => ?_
    exact absurd (h.1 _ hmem) (by simp [Visible])
  rcases h.2.2 with rfl | rfl
  · rw [Shell.capture, hnul, List.rdropWhile_eq_self_iff]
    intro hne
    rw [List.getLast?_eq_some_getLast hne, Option.some.injEq] at hlast
    simpa [hlast] using hc
  · exact (Shell.capture_concat_newline (by rwa [hnul]) hc).trans hnul

theorem firstLine (h : OneLine contents w) : firstLine contents = contents := by
  have hpieces : ∀ v : Text, '\n' ∉ v → ∀ rest, rest = [] ∨ rest = ['\n'] → v ++ rest ≠ [] →
      splitInclusive '\n' (v ++ rest) = [v ++ rest] := by
    intro v
    induction v with
    | nil =>
      rintro - rest (rfl | rfl) hne
      · exact absurd rfl hne
      · rfl
    | cons c v ih =>
      intro hnot rest hrest _
      rw [List.mem_cons, not_or] at hnot
      rw [List.cons_append, splitInclusive, if_neg (Ne.symm hnot.1)]
      by_cases hnil : v ++ rest = []
      · rw [hnil]
        rfl
      · rw [ih hnot.2 rest hrest hnil]
  have hne : contents ≠ [] := by
    rcases h.2.2 with rfl | rfl
    · exact h.ne_nil
    · simp
  rw [Homescope.firstLine]
  rcases h.2.2 with rfl | rfl
  · have hsplit := hpieces contents h.newline_not_mem [] (.inl rfl) (by rwa [List.append_nil])
    rw [List.append_nil] at hsplit
    rw [hsplit]
    rfl
  · rw [hpieces w h.newline_not_mem _ (.inr rfl) hne]
    rfl

theorem readPassword (h : OneLine contents w) : readPassword contents = some (trim w) := by
  have hfirst : trim (Homescope.firstLine contents) = trim w := by
    rw [h.firstLine]
    rcases h.2.2 with rfl | rfl
    · rfl
    · exact trim_append_blanks (by simp [isWhitespace])
  have hline : trim ((Homescope.lines contents).head?.getD []) = trim w := by
    rw [← hfirst]
    cases hhead : (Homescope.lines contents).head? with
    | some line => exact (trim_firstLine hhead).symm
    | none =>
      have hnone : (splitInclusive '\n' contents).head? = none := by
        rwa [Homescope.lines, List.head?_map, Option.map_eq_none_iff] at hhead
      rw [Homescope.firstLine, hnone]
  simp only [Secrets.readPassword, hline]
  exact if_neg h.2.1

end OneLine

theorem readLine_visible {w rest : Text} (h : ∀ c ∈ w, Visible c) :
    readLine (w ++ '\n' :: rest) = (trim w, rest) := by
  have hne : ∀ c ∈ w, decide (c ≠ '\n') = true := fun c hc => by simpa using visible_ne_newline (h c hc)
  have hblank : ∀ v : Text, (∀ c ∈ v, Visible c) → v.dropWhile isBlank = v.dropWhile isWhitespace := by
    intro v
    induction v with
    | nil => exact fun _ => rfl
    | cons c v ih =>
      intro hv
      obtain ⟨hc, hv⟩ := List.forall_mem_cons.mp hv
      rw [List.dropWhile_cons, List.dropWhile_cons, visible_isBlank hc, ih hv]
  have htrim : (w.dropWhile isBlank).rdropWhile isBlank = trim w := by
    rw [hblank w h, trim, List.rdropWhile, hblank]
    intro c hc
    exact h c ((List.dropWhile_suffix _).subset (List.mem_reverse.mp hc))
  have htake : (w ++ '\n' :: rest).takeWhile (· ≠ '\n') = w := by
    rw [List.takeWhile_append_of_pos hne]
    simp
  have hdrop : (w ++ '\n' :: rest).dropWhile (· ≠ '\n') = '\n' :: rest := by
    rw [List.dropWhile_append_of_pos hne]
    simp
  simp only [readLine, htake, hdrop, htrim, List.drop_one, List.tail_cons]

theorem passwdEntries_oneLine {apiUser gatewayUser v w : Text} (hv : ∀ c ∈ v, Visible c)
    (hw : ∀ c ∈ w, Visible c) : passwdEntries apiUser v gatewayUser w =
      [(apiUser, trim v), (gatewayUser, trim w)] := by
  have hinput : Shell.unlines [v, w] = v ++ '\n' :: (w ++ '\n' :: []) := by simp [Shell.unlines]
  simp only [passwdEntries, hinput, readLine_visible hv, readLine_visible hw]

theorem logsIn_oneLine {admits : List (Text × Text) → Text → Text → Prop} {entries : List (Text × Text)}
    {user data v : Text} (hv : OneLine data v) :
    LogsIn admits entries user data ↔ admits entries user (trim v) := by
  simp [LogsIn, hv.readPassword]

/-- Two passwords for one user leave the last one. -/
theorem logsIn_iff {admits : List (Text × Text) → Text → Text → Prop} (hmosquitto : Mosquitto admits)
    {apiUser gatewayUser apiData gatewayData v w : Text} (hv : OneLine apiData v)
    (hw : OneLine gatewayData w) :
    (LogsIn admits (passwdEntries apiUser v gatewayUser w) apiUser apiData ↔
      apiUser ≠ gatewayUser ∨ trim v = trim w) ∧
    LogsIn admits (passwdEntries apiUser v gatewayUser w) gatewayUser gatewayData := by
  rw [passwdEntries_oneLine hv.1 hw.1, logsIn_oneLine hv, logsIn_oneLine hw]
  have hgateway := hmosquitto.given [(apiUser, trim v)] gatewayUser (trim w)
  refine ⟨?_, (hgateway _).mpr rfl⟩
  by_cases heq : apiUser = gatewayUser
  · subst heq
    rw [or_iff_right (not_not_intro rfl)]
    exact hgateway (trim v)
  · have hapi := (hmosquitto.others [(apiUser, trim v)] (trim w) (trim v) heq).trans
      (hmosquitto.given [] apiUser (trim v) (trim v))
    exact ⟨fun _ => .inl heq, fun _ => hapi.mpr rfl⟩

theorem count_unlines (ls : List Text) :
    (Shell.unlines ls).count '\n' = ls.length + (ls.map (List.count '\n')).sum := by
  induction ls with
  | nil => rfl
  | cons l ls ih =>
    have hcons : Shell.unlines (l :: ls) = (l ++ ['\n']) ++ Shell.unlines ls := List.flatMap_cons ..
    rw [hcons, List.count_append, List.count_append, ih, List.map_cons, List.sum_cons, List.length_cons]
    simp only [List.count_singleton_self]
    omega

/-- As many lines that make the same text are the same, when those of one side
have no newline in them. -/
theorem unlines_injective {ls ms : List Text} (hlength : ls.length = ms.length)
    (hms : ∀ m ∈ ms, '\n' ∉ m) (h : Shell.unlines ls = Shell.unlines ms) : ls = ms := by
  have hls : ∀ l ∈ ls, '\n' ∉ l := by
    have hcount := congrArg (List.count '\n') h
    have hzero : (ms.map (List.count '\n')).sum = 0 := by
      rw [List.sum_eq_zero_iff_forall_eq_nat]
      intro n hn
      obtain ⟨m, hm, rfl⟩ := List.mem_map.mp hn
      exact List.count_eq_zero.mpr (hms m hm)
    rw [count_unlines, count_unlines, hlength, hzero] at hcount
    have hsum : (ls.map (List.count '\n')).sum = 0 := by omega
    intro l hl
    rw [List.sum_eq_zero_iff_forall_eq_nat] at hsum
    exact List.count_eq_zero.mp (hsum _ (List.mem_map_of_mem hl))
  clear hlength
  induction ls generalizing ms with
  | nil =>
    cases ms with
    | nil => rfl
    | cons m ms => simp [Shell.unlines] at h
  | cons l ls ih =>
    cases ms with
    | nil => simp [Shell.unlines] at h
    | cons m ms =>
      obtain ⟨hl, hls'⟩ := List.forall_mem_cons.mp hls
      obtain ⟨hm, hms'⟩ := List.forall_mem_cons.mp hms
      have hcons (x : Text) (xs : List Text) : Shell.unlines (x :: xs) = x ++ '\n' :: Shell.unlines xs := by
        simp [Shell.unlines]
      rw [hcons, hcons] at h
      have hsplit := congrArg (splitOnceChar '\n') h
      rw [splitOnceChar_eq_some.mpr ⟨rfl, hl⟩, splitOnceChar_eq_some.mpr ⟨rfl, hm⟩] at hsplit
      obtain ⟨rfl, hrest⟩ := Prod.mk.inj (Option.some.inj hsplit)
      rw [ih hms' hrest hls']

theorem localUsers {decimal : Char → Option Nat} {raw : Table} (h : Loaded decimal raw c)
    (hlocal : c.brokerLocal = true) :
    c.mqttApiUser = "homescope-api".toList ∧ c.mqttGatewayUser = "homescope-".toList ++ c.site := by
  have hmqtt := h.mqtt
  rw [readMqtt, if_pos (h.brokerLocal_eq ▸ hlocal)] at hmqtt
  obtain ⟨_, -, hmqtt⟩ := bind_eq_ok.mp hmqtt
  have hmqtt := Except.ok.inj hmqtt
  exact ⟨(congrArg Mqtt.apiUser hmqtt).symm, (congrArg Mqtt.gatewayUser hmqtt).symm⟩

/-- The two clients of the broker of the host have one name. -/
theorem users_eq_iff {decimal : Char → Option Nat} {raw : Table} (h : Loaded decimal raw c)
    (hlocal : c.brokerLocal = true) : c.mqttApiUser = c.mqttGatewayUser ↔ c.site = "api".toList := by
  obtain ⟨hapi, hgateway⟩ := localUsers h hlocal
  have hsplit : "homescope-api".toList = "homescope-".toList ++ "api".toList := by decide
  rw [hapi, hgateway, hsplit, List.append_cancel_left_eq, eq_comm]

/-- The password file is made from what the secrets hold now. -/
theorem Fits.entries {apiData gatewayData v w : Text} (h : Fits sha256 c t apiData gatewayData)
    (hgenuine : ∀ name secret, t name = some secret → secret.Genuine sha256)
    (hv : OneLine apiData v) (hw : OneLine gatewayData w) (hapi : '\n' ∉ c.mqttApiUser)
    (hgateway : '\n' ∉ c.mqttGatewayUser)
    (hsha : ∀ text, sha256 text = fingerprint sha256 c v w →
      text = Shell.unlines [c.mqttApiUser, v, c.mqttGatewayUser, w]) :
    ∃ passwd, t .mqttPasswd = some passwd ∧
      passwd.data = .passwd (passwdEntries c.mqttApiUser v c.mqttGatewayUser w) := by
  obtain ⟨passwd, hpasswd, hsource⟩ := h.passwd
  rw [hv.capture, hw.capture] at hsource
  obtain ⟨apiUser, apiPassword, gatewayUser, gatewayPassword, hfingerprint, hdata⟩ :=
    hgenuine _ _ hpasswd _ hsource
  have htext := hsha _ hfingerprint.symm
  have hlines : [apiUser, apiPassword, gatewayUser, gatewayPassword] =
      [c.mqttApiUser, v, c.mqttGatewayUser, w] := unlines_injective rfl
    (by simp [hapi, hgateway, hv.newline_not_mem, hw.newline_not_mem]) htext
  simp only [List.cons.injEq, and_true] at hlines
  obtain ⟨rfl, rfl, rfl, rfl⟩ := hlines
  exact ⟨passwd, hpasswd, hdata⟩

/-- Whatever the secrets were: a deploy that goes on to its user phase leaves a
KEK and an admin token for the API, and for a broker elsewhere no password that
a deploy generated, unless the operator gave that very password. -/
theorem deploy_provides {decimal : Char → Option Nat} {raw : Table} (hload : load decimal raw = .ok c)
    (h : Steps step ((rootPhase spaces date sha256 c flags).run, s) (.ret (.ok ()), t)) :
    (c.has .api = true → t .kek ≠ none ∧ t .adminToken ≠ none) ∧
    (c.brokerLocal = false →
      (c.has .api = true → Provided .mqttApi flags.mqttApiPassword t) ∧
      (c.has .gateway = true → Provided .mqttGateway flags.mqttGatewayPassword t)) := by
  have hloaded := load_loaded hload
  have hready := (rootPhase_ends hloaded.components_eq hloaded.brokerLocal_eq).steps h
  refine ⟨fun hapi => ?_, fun hexternal => ⟨fun hapi => ?_, fun hgateway => ?_⟩⟩
  · obtain ⟨hkek, htoken, -⟩ := hready .api hapi
    exact ⟨hkek, htoken⟩
  · exact (hready .api hapi).2.2 hexternal
  · exact hready .gateway hgateway hexternal

/-- From an empty host, whatever was deployed, set, removed, cut off or failed
before: after a deploy with its own broker the gateway logs in, and so does the
API unless the site is called `api`, when both are one user. -/
theorem deploy_logsIn {admits : List (Text × Text) → Text → Text → Prop} (hmosquitto : Mosquitto admits)
    {decimal : Char → Option Nat} {raw : Table} (hload : load decimal raw = .ok c)
    (hlocal : c.brokerLocal = true) (hsite : '\n' ∉ c.site) {s : Host} {r : Except Stop Unit}
    (hrun : Relation.ReflTransGen (HostStep spaces sha256 fun _ _ _ => True)
      ⟨fun _ => none, .ret r⟩ s)
    (h : Steps step ((rootPhase spaces date sha256 c flags).run, s.store) (.ret (.ok ()), t)) :
    ∃ apiData gatewayData, Holds t .mqttApi apiData ∧ Holds t .mqttGateway gatewayData ∧
      (∃ data, Holds t .mqttAcl data ∧ Shell.capture data = Shell.capture (brokerAcl c)) ∧
      ∀ v w, OneLine apiData v → OneLine gatewayData w →
        (∀ text, sha256 text = fingerprint sha256 c v w →
          text = Shell.unlines [c.mqttApiUser, v, c.mqttGatewayUser, w]) →
        ∃ passwd entries, t .mqttPasswd = some passwd ∧ passwd.data = .passwd entries ∧
          (LogsIn admits entries c.mqttApiUser apiData ↔ c.site ≠ "api".toList ∨ trim v = trim w) ∧
          LogsIn admits entries c.mqttGatewayUser gatewayData := by
  have hloaded := load_loaded hload
  obtain ⟨hapiUser, hgatewayUser⟩ := localUsers hloaded hlocal
  have hempty : KeepsGenuine sha256 ⟨fun _ => none, .ret r⟩ := ⟨nofun, trivial⟩
  have hbefore := (invariant_run hrun (fun _ _ => HostStep.keepsGenuine) hempty).1
  have hends : Ends sha256 (rootPhase spaces date sha256 c flags) s.store fun _ t =>
      ∀ component, c.has component = true → Ready sha256 c flags t component :=
    rootPhase_ends hloaded.components_eq hloaded.brokerLocal_eq
  have hgenuine := steps_genuine hends hbefore h
  have hbroker : c.has .broker = true := hloaded.brokerLocal_eq ▸ hlocal
  obtain ⟨⟨apiData, gatewayData, hfits⟩, hacl⟩ := hends.steps h .broker hbroker
  refine ⟨apiData, gatewayData, hfits.api, hfits.gateway, hacl, fun v w hv hw hsha => ?_⟩
  have hapiLine : '\n' ∉ c.mqttApiUser := by
    rw [hapiUser]
    decide
  have hgatewayLine : '\n' ∉ c.mqttGatewayUser := by
    rw [hgatewayUser, List.mem_append, not_or]
    exact ⟨by decide, hsite⟩
  obtain ⟨passwd, hpasswd, hdata⟩ := hfits.entries hgenuine hv hw hapiLine hgatewayLine hsha
  obtain ⟨hapi, hgateway⟩ := @logsIn_iff _ hmosquitto c.mqttApiUser c.mqttGatewayUser _ _ _ _ hv hw
  refine ⟨passwd, _, hpasswd, hdata, ?_, hgateway⟩
  rw [hapi, ne_eq, users_eq_iff hloaded hlocal]

/-! ### Two hosts -/

def externalConfig : Config := gatewayConfig "home".toList "broker".toList

def externalFlags : Flags := { mqttGatewayPassword := some "s3cret\n".toList }

theorem deploy_provides_external : ∃ t, Provided .mqttGateway externalFlags.mqttGatewayPassword t ∧
    Steps step ((rootPhase [' '] [] id externalConfig externalFlags).run, fun _ => none)
      (.ret (.ok ()), t) := by
  have hload : load (fun _ => none) (gatewayToml "home".toList "broker".toList) = .ok externalConfig :=
    load_gatewayToml (by decide) (by decide) (by decide)
  have hrun := Prog.run_steps (podman_step "ab".toList)
    (rootPhase [' '] [] id externalConfig externalFlags).run (fun _ => none)
  exact ⟨_, ((deploy_provides hload hrun).2 rfl).2 rfl, hrun⟩

def allInOneToml (site : Text) : Table :=
  [("components", .array [.string "broker".toList, .string "api".toList, .string "gateway".toList]),
    ("site", .string site)]

def allInOneConfig (site : Text) : Config :=
  { gatewayConfig site "homescope-mqtt".toList with
    components := [.broker, .api, .gateway]
    brokerLocal := true }

theorem load_allInOneToml {decimal : Char → Option Nat} {site : Text} (hsite : site ≠ [])
    (hmatch : Regex.matchesLine '\n' siteRe site = true) :
    load decimal (allInOneToml site) = .ok (allInOneConfig site) := by
  have hread : readSite (allInOneToml site) [Component.broker, .api, .gateway].contains = .ok site :=
    readSite_eq_ok.mpr ⟨rfl, hsite, hmatch⟩
  refine bind_eq_ok.mpr ⟨(), rfl, bind_eq_ok.mpr ⟨[.broker, .api, .gateway], rfl, ?_⟩⟩
  refine bind_eq_ok.mpr ⟨(), rfl, bind_eq_ok.mpr ⟨(), rfl, ?_⟩⟩
  refine bind_eq_ok.mpr ⟨site, hread, ?_⟩
  rfl

def localFlags : Flags := { newKek := true }

def localHex : Text := "0123456789abcdef".toList

/-- The first deploy of a host with its own broker, and what it leaves. -/
def firstDeploy : Except Stop Unit × Store :=
  (rootPhase [' '] [] id (allInOneConfig "home".toList) localFlags).run.run (podman localHex)
    fun _ => none

def localPassword : Secret := { data := .text (localHex ++ ['\n']), generated := true }

def admitsLast (entries : List (Text × Text)) (user tried : Text) : Prop :=
  entries.reverse.lookup user = some tried

theorem admitsLast_mosquitto : Mosquitto admitsLast where
  given entries user password tried := by
    rw [admitsLast, List.reverse_append]
    simp [eq_comm]
  others entries user other password tried h := by
    have hne : (other == user) = false := beq_eq_false_iff_ne.mpr h
    rw [admitsLast, admitsLast, List.reverse_append]
    simp [List.lookup_cons, hne]

theorem deploy_logsIn_first : ∃ t passwd entries,
    Steps step ((rootPhase [' '] [] id (allInOneConfig "home".toList) localFlags).run, fun _ => none)
      (.ret (.ok ()), t) ∧
    t .mqttPasswd = some passwd ∧ passwd.data = .passwd entries ∧
    LogsIn admitsLast entries "homescope-api".toList (localHex ++ ['\n']) ∧
    LogsIn admitsLast entries "homescope-home".toList (localHex ++ ['\n']) := by
  have hload : load (fun _ => none) (allInOneToml "home".toList) = .ok (allInOneConfig "home".toList) :=
    load_allInOneToml (by decide) (by decide)
  have hrun : Steps step _ (.ret firstDeploy.1, firstDeploy.2) :=
    Prog.run_steps (podman_step localHex)
      (rootPhase [' '] [] id (allInOneConfig "home".toList) localFlags).run (fun _ => none)
  have hok : firstDeploy.1 = .ok () := by decide +kernel
  have hheld : firstDeploy.2 .mqttApi = some localPassword ∧
      firstDeploy.2 .mqttGateway = some localPassword := by
    decide +kernel
  have hline : OneLine (localHex ++ ['\n']) localHex := by
    have hall : localHex.all (fun c => 32 ≤ c.toNat && c.toNat < 127) = true := by decide
    have hvisible : ∀ c ∈ localHex, Visible c := fun c hc => .inl (by simpa using List.all_eq_true.mp hall c hc)
    have hblank : trim localHex ≠ [] := by decide
    exact ⟨hvisible, hblank, .inr rfl⟩
  rw [hok] at hrun
  obtain ⟨apiData, gatewayData, hapi, hgateway, -, hlogs⟩ :=
    deploy_logsIn admitsLast_mosquitto hload rfl (by decide) (r := .ok ()) .refl hrun
  obtain ⟨_, hsecret, hdata⟩ := hapi
  obtain rfl := Option.some.inj (hheld.1.symm.trans hsecret)
  cases hdata
  obtain ⟨_, hsecret, hdata⟩ := hgateway
  obtain rfl := Option.some.inj (hheld.2.symm.trans hsecret)
  cases hdata
  obtain ⟨passwd, entries, hpasswd, hentries, hlogin, hgateway⟩ := hlogs _ _ hline hline fun _ h => h
  exact ⟨_, passwd, entries, hrun, hpasswd, hentries, hlogin.mpr (.inr rfl), hgateway⟩

end Homescope.Secrets
