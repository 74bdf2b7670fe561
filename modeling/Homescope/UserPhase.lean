import Homescope.Commands
import Homescope.DeployFiles

/-! The user phase of a deploy (`deploy/lib/user-phase.sh`): the quadlets of the
host are made those of the configuration, and its units are restarted. -/

namespace Homescope.UserPhase

open Commands Commands.Prog Deploy

inductive UnitName
  | db
  | api
  | grafana
  | gateway
  | mqtt
  /-- A container that is no part of homescope. -/
  | other (name : Text)
  deriving DecidableEq

/-- A container file, and the drop-in of the host next to it. -/
structure Definition where
  container : Text
  dropin : Option Text
  deriving DecidableEq

abbrev Quadlets := UnitName → Option Definition

/-- What a podman without quadlet drop-ins makes of a definition. -/
def Definition.bare (d : Definition) : Definition := { d with dropin := none }

/-- The dots of a pattern match any character of a line. -/
def matchHere : Text → Text → Bool
  | [], _ => true
  | _ :: _, [] => false
  | p :: pattern, c :: text => c ≠ '\n' && (p = '.' || p = c) && matchHere pattern text

def grep (pattern text : Text) : Bool := text.tails.any (matchHere pattern)

/-- `systemctl cat` shows the label of the drop-in. -/
def Definition.marked (d : Definition) : Bool :=
  grep hostConfigMarker d.container || d.dropin.any (grep hostConfigMarker)

def UnitName.service : UnitName → Text
  | .db => "homescope-db.service".toList
  | .api => "homescope-api.service".toList
  | .grafana => "homescope-grafana.service".toList
  | .gateway => "homescope-gateway.service".toList
  | .mqtt => "homescope-mqtt.service".toList
  | .other name => name ++ ".service".toList

def wantsIn (u : UnitName) (text : Text) : Bool :=
  (Shell.lines text).any fun l =>
    "Wants=".toList.isPrefixOf l && (Shell.words (l.drop 6)).contains u.service

/-- Systemd starts `u` where it starts this unit. -/
def Definition.wants (d : Definition) (u : UnitName) : Bool :=
  wantsIn u d.container || d.dropin.any (wantsIn u)

/-- What podman's generator makes of the quadlets: it may know no drop-ins, and
it skips those that it cannot read. -/
def Generated (disk loaded : Quadlets) : Prop :=
  ∀ u, loaded u = disk u ∨ loaded u = (disk u).map Definition.bare ∨ loaded u = none

inductive Cmd
  /-- What a component writes besides its quadlets. -/
  | componentUser (component : Component)
  | quadletsOnDisk
  | stop (unit : UnitName)
  | sync (quadlets : Quadlets)
  | removeTimer
  | daemonReload
  | cat (unit : UnitName)
  | autoUpdate
  | restart (unit : UnitName)

abbrev Cmd.Answer : Cmd → Type
  | .quadletsOnDisk => List UnitName
  | _ => Bool

abbrev PhaseM := ExceptT Unit (Prog Cmd Cmd.Answer)

def ask (c : Cmd) : PhaseM c.Answer := ExceptT.lift (perform c)

/-- `set -e`. -/
def orDie : Bool → PhaseM Unit
  | true => pure ()
  | false => throw ()

/-! ### The script -/

variable (shipped : UnitName → Text) (value : Var → Text) (components : List Component)

/-- `*_units`. -/
def componentUnits : Component → List UnitName
  | .broker => [.mqtt]
  | .api => [.db, .api] ++ if value .grafanaEnabled = "true".toList then [.grafana] else []
  | .gateway => [.gateway]

def desiredUnits : List UnitName := components.flatMap (componentUnits value)

def dropinFile : UnitName → Option File
  | .db => some .dbDropin
  | .api => some .apiDropin
  | .grafana => some .grafanaDropin
  | .gateway => some .gatewayDropin
  | .mqtt => some .mqttDropin
  | .other _ => none

/-- The shipped container file with the drop-in that is written for it. -/
def definition (u : UnitName) : Option Definition := do
  let file ← dropinFile u
  let text ← file.contents value
  return ⟨shipped u, some text⟩

/-- The set that is assembled aside. -/
def assembled : Quadlets := fun u =>
  if u ∈ desiredUnits value components then definition shipped value u else none

/-- Each writes its drop-ins too, and ends the deploy where it cannot. -/
def componentsUser : List Component → PhaseM Unit
  | [] => pure ()
  | component :: components => do
    orDie (← ask (.componentUser component))
    orDie ((componentUnits value component).all fun u => (definition shipped value u).isSome)
    componentsUser components

/-- A unit that cannot be stopped does not end the deploy. -/
def stopRemoved (quadlets : Quadlets) : List UnitName → PhaseM Unit
  | [] => pure ()
  | u :: units =>
    if (quadlets u).isSome then stopRemoved quadlets units
    else do
      let _ ← ask (.stop u)
      stopRemoved quadlets units

def checkMarkers : List UnitName → PhaseM Unit
  | [] => pure ()
  | u :: units => do
    orDie (← ask (.cat u))
    checkMarkers units

/-- The gateway does not start without its receiver. -/
def restartAll : List UnitName → PhaseM Unit
  | [] => pure ()
  | u :: units => do
    let started ← ask (.restart u)
    orDie (started || u = .gateway)
    restartAll units

def userPhase : PhaseM Unit := do
  componentsUser shipped value components
  let units ← ask .quadletsOnDisk
  stopRemoved (assembled shipped value components) units
  orDie (← ask (.sync (assembled shipped value components)))
  orDie (← ask .removeTimer)
  orDie (← ask .daemonReload)
  checkMarkers (desiredUnits value components)
  orDie (← ask .autoUpdate)
  restartAll (desiredUnits value components)

/-! ### The host -/

/-- The quadlets on disk, the units that systemd made of them, what it keeps
running of each (a unit that it starts again and again is one), which units
refused to stop, and which ones it started out of turn. -/
structure Host where
  disk : Quadlets
  loaded : Quadlets
  running : Quadlets
  refused : List UnitName
  strays : Set UnitName

/-- A unit runs on, or is started as systemd knows it now. A command may start
every unit that is wanted by some other. -/
def Restarted (s : Host) (running : Quadlets) (v : UnitName) : Prop :=
  running v = s.running v ∨ running v = s.loaded v

/-- A unit may also be gone. -/
def Updated (s : Host) (running : Quadlets) (v : UnitName) : Prop :=
  Restarted s running v ∨ running v = none

def step (s : Host) : (c : Cmd) → c.Answer → Host → Prop
  | .componentUser _, _, t => t = s
  | .quadletsOnDisk, units, t => t = s ∧ ∀ u, u ∈ units ↔ s.disk u ≠ none
  | .stop u, true, t => t = { s with running := Function.update s.running u none }
  | .stop u, false, t => ∃ running, (running = s.running ∨ running = Function.update s.running u none) ∧
      t = { s with running, refused := u :: s.refused }
  | .sync quadlets, true, t => t = { s with disk := quadlets }
  -- cut short, but what stays is never gone in between
  | .sync quadlets, false, t => ∃ disk : Quadlets,
      (∀ u, s.disk u ≠ none → quadlets u ≠ none → disk u ≠ none) ∧ t = { s with disk }
  | .removeTimer, _, t => t = s
  | .daemonReload, true, t => ∃ loaded, Generated s.disk loaded ∧ t = { s with loaded }
  | .daemonReload, false, t => ∃ loaded, t = { s with loaded }
  -- `pipefail`: it may fail on a unit that has the label
  | .cat u, found, t => t = s ∧ (found = true → ∃ d, s.loaded u = some d ∧ d.marked = true)
  | .autoUpdate, _, t => ∃ running, (∀ v, Updated s running v) ∧ t = { s with running }
  | .restart u, true, t => ∃ running, (∀ v, Restarted s running v) ∧ running u = s.loaded u ∧
      t = { s with running }
  | .restart u, false, t => ∃ running, (∀ v ≠ u, Restarted s running v) ∧
      (running u = none ∨ running u = s.loaded u) ∧ t = { s with running }

/-! ### What the phase issues, and what it leaves -/

section Ends

variable {α β : Type} {s t : Host} {shipped : UnitName → Text} {value : Var → Text}
  {components : List Component} {quadlets : Quadlets}

/-- No unit is missing from the set that is synced in while it runs, and units
are only started of quadlets on disk, as their files say. -/
def Allowed (s : Host) : Cmd → Prop
  | .sync quadlets => ∀ u, s.running u ≠ none → s.disk u ≠ none → quadlets u = none →
      u ∈ s.refused ∨ u ∈ s.strays
  | .autoUpdate => ∀ v, s.loaded v ≠ none → s.disk v ≠ none
  | .restart u => (∃ d, s.loaded u = some d ∧ d.marked = true) ∧
      ∀ v, s.loaded v ≠ none → s.disk v ≠ none
  | _ => True

/-- Only allowed commands are issued, and where the script goes on, `Q` holds
of its value and of the host. -/
def Ends (x : PhaseM α) (s : Host) (Q : α → Host → Prop) : Prop := Returns step Allowed x Q s

namespace Ends

variable {Q R : α → Host → Prop}

theorem bind {x : PhaseM α} {f : α → PhaseM β} {Q : β → Host → Prop}
    (h : Ends x s fun a t => Ends (f a) t Q) : Ends (x >>= f) s Q :=
  Returns.bind h

theorem mono {x : PhaseM α} (h : Ends x s Q) (hQ : ∀ a t, Q a t → R a t) : Ends x s R :=
  Returns.mono h hQ

theorem pure {a : α} (h : Q a s) : Ends (Pure.pure a) s Q := Returns.pure h

/-- A command whose answer is handed on. -/
theorem ask_bind {c : Cmd} {f : c.Answer → PhaseM α} (hc : Allowed s c)
    (h : ∀ a t, step s c a t → Ends (f a) t Q) : Ends (ask c >>= f) s Q :=
  bind (Returns.lift hc h)

theorem orDie_bind {a : Bool} {f : Unit → PhaseM α} (h : a = true → Ends (f ()) s Q) :
    Ends (orDie a >>= f) s Q := by
  cases a with
  | true => exact h rfl
  | false => exact Returns.throw ()

theorem result {x : PhaseM α} {a : α} (h : Ends x s Q) (hrun : Steps step (x.run, s) (.ret (.ok a), t)) :
    Q a t :=
  Returns.result h hrun

end Ends

/-! ### The loops -/

/-- What a component writes is not for this host to see. -/
theorem componentsUser_ends : Ends (componentsUser shipped value components) s fun _ t =>
    t = s ∧ ∀ u ∈ desiredUnits value components, (definition shipped value u).isSome := by
  induction components generalizing s with
  | nil => exact .pure ⟨rfl, by simp [desiredUnits]⟩
  | cons component components ih =>
    refine .ask_bind trivial fun a t ht => .orDie_bind fun _ => .orDie_bind fun hall => ?_
    obtain rfl : t = s := ht
    refine ih.mono fun _ t hrest => ⟨hrest.1, fun u hu => ?_⟩
    rw [desiredUnits, List.flatMap_cons, List.mem_append] at hu
    rcases hu with hu | hu
    · exact List.all_eq_true.mp hall u hu
    · exact hrest.2 u hu

/-- What stopping units makes of a host. -/
structure Stopped (s t : Host) : Prop where
  disk : t.disk = s.disk
  loaded : t.loaded = s.loaded
  running : ∀ u, t.running u = s.running u ∨ t.running u = none
  refused : s.refused ⊆ t.refused
  strays : t.strays = s.strays

theorem Stopped.refl : Stopped s s := ⟨rfl, rfl, fun _ => .inl rfl, List.Subset.refl _, rfl⟩

theorem Stopped.trans {u : Host} (h : Stopped s t) (h' : Stopped t u) : Stopped s u where
  disk := h'.disk.trans h.disk
  loaded := h'.loaded.trans h.loaded
  running v := by
    rcases h'.running v with hv | hv
    · rw [hv]
      exact h.running v
    · exact .inr hv
  refused := List.Subset.trans h.refused h'.refused
  strays := h'.strays.trans h.strays

/-- A unit is down, or it refused to stop. -/
def Down (s : Host) (u : UnitName) : Prop := s.running u = none ∨ u ∈ s.refused

theorem Down.stopped {u : UnitName} (h : Down s u) (hst : Stopped s t) : Down t u := by
  rcases h with h | h
  · rcases hst.running u with hu | hu
    · exact .inl (hu.trans h)
    · exact .inl hu
  · exact .inr (hst.refused h)

theorem update_none (running : Quadlets) (u v : UnitName) :
    Function.update running u none v = running v ∨ Function.update running u none v = none := by
  by_cases hv : v = u
  · subst hv
    exact .inr (Function.update_self ..)
  · exact .inl (Function.update_of_ne hv ..)

theorem stop_down {u : UnitName} {a : Bool} (h : step s (.stop u) a t) : Stopped s t ∧ Down t u := by
  cases a with
  | true =>
    obtain rfl : t = _ := h
    exact ⟨⟨rfl, rfl, update_none _ _, List.Subset.refl _, rfl⟩, .inl (Function.update_self ..)⟩
  | false =>
    obtain ⟨running, hrunning, rfl⟩ := h
    refine ⟨⟨rfl, rfl, fun v => ?_, List.subset_cons_self .., rfl⟩, .inr List.mem_cons_self⟩
    rcases hrunning with rfl | rfl
    · exact .inl rfl
    · exact update_none _ _ v

theorem stopRemoved_ends {units : List UnitName} : Ends (stopRemoved quadlets units) s fun _ t =>
    Stopped s t ∧ ∀ u ∈ units, quadlets u = none → Down t u := by
  induction units generalizing s with
  | nil => exact .pure ⟨.refl, by simp⟩
  | cons u units ih =>
    rw [stopRemoved]
    split
    next hkept =>
      refine ih.mono fun _ t ht => ⟨ht.1, fun v hv hnone => ?_⟩
      rcases List.mem_cons.mp hv with rfl | hv
      · simp [hnone] at hkept
      · exact ht.2 v hv hnone
    next =>
      refine .ask_bind trivial fun a t ht => ?_
      obtain ⟨hst, hdown⟩ := stop_down ht
      refine ih.mono fun _ r hr => ⟨hst.trans hr.1, fun v hv hnone => ?_⟩
      rcases List.mem_cons.mp hv with rfl | hv
      · exact hdown.stopped hr.1
      · exact hr.2 v hv hnone

theorem checkMarkers_ends {units : List UnitName} : Ends (checkMarkers units) s fun _ t =>
    t = s ∧ ∀ u ∈ units, ∃ d, s.loaded u = some d ∧ d.marked = true := by
  induction units generalizing s with
  | nil => exact .pure ⟨rfl, by simp⟩
  | cons u units ih =>
    refine .ask_bind trivial fun a t ht => .orDie_bind fun hfound => ?_
    obtain ⟨rfl, hmark⟩ := ht
    refine ih.mono fun _ r hr => ⟨hr.1, ?_⟩
    rw [List.forall_mem_cons]
    exact ⟨hmark hfound, hr.2⟩

/-- What starting units makes of a host. -/
structure Started (s t : Host) : Prop where
  disk : t.disk = s.disk
  loaded : t.loaded = s.loaded
  refused : t.refused = s.refused
  running : ∀ u, Restarted s t.running u ∨ u = .gateway ∧ t.running u = none

theorem Started.refl : Started s s := ⟨rfl, rfl, rfl, fun _ => .inl (.inl rfl)⟩

theorem Started.trans {u : Host} (h : Started s t) (h' : Started t u) : Started s u where
  disk := h'.disk.trans h.disk
  loaded := h'.loaded.trans h.loaded
  refused := h'.refused.trans h.refused
  running v := by
    rcases h'.running v with (hv | hv) | hv
    · rw [Restarted, hv]
      exact h.running v
    · exact .inl (.inr (hv.trans (congrFun h.loaded v)))
    · exact .inr hv

/-- A unit runs as systemd knows it; the gateway may wait for its receiver. -/
def Fresh (s : Host) (u : UnitName) : Prop :=
  s.running u = s.loaded u ∨ u = .gateway ∧ s.running u = none

theorem Fresh.started {u : UnitName} (h : Fresh s u) (hst : Started s t) : Fresh t u := by
  rw [Fresh, hst.loaded]
  rcases hst.running u with (hu | hu) | hu
  · rw [hu]
    exact h
  · exact .inl hu
  · exact .inr hu

theorem restart_fresh {u : UnitName} {a : Bool} (h : step s (.restart u) a t)
    (hgo : (a || u = .gateway) = true) : Started s t ∧ Fresh t u := by
  cases a with
  | true =>
    obtain ⟨running, hrunning, hu, rfl⟩ := h
    exact ⟨⟨rfl, rfl, rfl, fun v => .inl (hrunning v)⟩, .inl hu⟩
  | false =>
    obtain ⟨running, hrunning, hu, rfl⟩ := h
    obtain rfl : u = .gateway := by simpa using hgo
    refine ⟨⟨rfl, rfl, rfl, fun v => ?_⟩, hu.symm.imp_right fun hnone => ⟨rfl, hnone⟩⟩
    by_cases hv : v = .gateway
    · subst hv
      exact hu.symm.imp .inr fun hnone => ⟨rfl, hnone⟩
    · exact .inl (hrunning v hv)

theorem restartAll_ends {units : List UnitName}
    (hmarked : ∀ u ∈ units, ∃ d, s.loaded u = some d ∧ d.marked = true)
    (hloaded : ∀ u, s.loaded u ≠ none → s.disk u ≠ none) :
    Ends (restartAll units) s fun _ t => Started s t ∧ ∀ u ∈ units, Fresh t u := by
  induction units generalizing s with
  | nil => exact .pure ⟨.refl, by simp⟩
  | cons u units ih =>
    rw [List.forall_mem_cons] at hmarked
    refine .ask_bind ⟨hmarked.1, hloaded⟩ fun a t ht => .orDie_bind fun hgo => ?_
    obtain ⟨hst, hfresh⟩ := restart_fresh ht hgo
    have hrest := @ih t (by rw [hst.loaded]; exact hmarked.2)
      (by rw [hst.loaded, hst.disk]; exact hloaded)
    refine hrest.mono fun _ r hr => ⟨hst.trans hr.1, ?_⟩
    rw [List.forall_mem_cons]
    exact ⟨hfresh.started hr.1, hr.2⟩

/-! ### The whole phase -/

variable (shipped value components) in
/-- The units of the configuration run as their files say, and the others are
gone, but for a container that would not stop or that had no quadlet. -/
structure Converged (s t : Host) : Prop where
  desired : ∀ u ∈ desiredUnits value components, ∃ d, definition shipped value u = some d ∧
    t.disk u = some d ∧ t.loaded u = some d ∧
    (t.running u = some d ∨ u = .gateway ∧ t.running u = none)
  others : ∀ u ∉ desiredUnits value components, t.disk u = none ∧ t.loaded u = none ∧
    (t.running u = none ∨ t.running u = s.running u ∧ (s.disk u = none ∨ u ∈ t.refused))

theorem assembled_of_mem {u : UnitName} (h : u ∈ desiredUnits value components) :
    assembled shipped value components u = definition shipped value u := if_pos h

theorem assembled_of_not_mem {u : UnitName} (h : u ∉ desiredUnits value components) :
    assembled shipped value components u = none := if_neg h

theorem Generated.none {disk loaded : Quadlets} (h : Generated disk loaded) {u : UnitName}
    (hu : disk u = none) : loaded u = none := by
  rcases h u with h | h | h
  · exact h.trans hu
  · rw [h, hu]
    rfl
  · exact h

/-- The label shows that podman read the drop-in. -/
theorem Generated.of_marked {disk loaded : Quadlets} (h : Generated disk loaded) {u : UnitName}
    {d d' : Definition} (hdisk : disk u = some d) (hplain : grep hostConfigMarker d.container = false)
    (hloaded : loaded u = some d') (hmarked : d'.marked = true) : d' = d := by
  rcases h u with h | h | h
  · exact Option.some.inj (hloaded.symm.trans (h.trans hdisk))
  · rw [hdisk, hloaded] at h
    obtain rfl : d' = d.bare := Option.some.inj h
    simp [Definition.marked, Definition.bare, hplain] at hmarked
  · rw [h] at hloaded
    cases hloaded

theorem definition_container {u : UnitName} {d : Definition} (h : definition shipped value u = some d) :
    d.container = shipped u := by
  simp only [definition, Option.bind_eq_bind, Option.bind_eq_some_iff] at h
  obtain ⟨file, -, text, -, h⟩ := h
  obtain rfl := Option.some.inj h
  rfl

/-- A unit that passes the check was made of the files of the configuration. -/
theorem Generated.definition {loaded : Quadlets} {u : UnitName}
    (h : Generated (assembled shipped value components) loaded)
    (hshipped : ∀ u, grep hostConfigMarker (shipped u) = false) (hu : u ∈ desiredUnits value components)
    (hdefined : (definition shipped value u).isSome)
    (hmarked : ∃ d, loaded u = some d ∧ d.marked = true) : ∃ d, definition shipped value u = some d ∧
      assembled shipped value components u = some d ∧ loaded u = some d := by
  obtain ⟨d, hd⟩ := Option.isSome_iff_exists.mp hdefined
  have hassembled := (assembled_of_mem hu).trans hd
  obtain ⟨d', hloaded, hmark⟩ := hmarked
  have hplain : grep hostConfigMarker d.container = false := by
    rw [definition_container hd]
    exact hshipped u
  obtain rfl := h.of_marked hassembled hplain hloaded hmark
  exact ⟨d', hd, hassembled, hloaded⟩

/-- Where every unit that is not wanted is down, the wanted set may be synced in. -/
theorem allowed_sync {units : List UnitName} (hunits : ∀ u, u ∈ units ↔ s.disk u ≠ none)
    (hst : Stopped s t) (hdown : ∀ u ∈ units, quadlets u = none → Down t u) :
    Allowed t (.sync quadlets) := by
  intro u hrunning hdisk hnone
  rw [hst.disk] at hdisk
  exact .inl ((hdown u ((hunits u).mpr hdisk) hnone).resolve_left hrunning)

/-- What stays of a unit that is not wanted. -/
def Left (s t : Host) (u : UnitName) : Prop :=
  t.running u = none ∨ t.running u = s.running u ∧ (s.disk u = none ∨ u ∈ t.refused)

theorem Stopped.left {u : UnitName} (h : Stopped s t) (hdown : s.disk u ≠ none → Down t u) :
    Left s t u := by
  rcases h.running u with hrunning | hrunning
  · by_cases hdisk : s.disk u = none
    · exact .inr ⟨hrunning, .inl hdisk⟩
    · exact (hdown hdisk).imp_right fun hrefused => ⟨hrunning, .inr hrefused⟩
  · exact .inl hrunning

theorem Left.of_running {r : Host} {u : UnitName} (h : Left s t u) (hrefused : r.refused = t.refused)
    (hrunning : r.running u = t.running u ∨ r.running u = none) : Left s r u := by
  rcases hrunning with hu | hu
  · rw [Left, hu, hrefused]
    exact h
  · exact .inl hu

theorem Updated.left {r : Host} {u : UnitName} (h : Updated t r.running u) (hleft : Left s t u)
    (hrefused : r.refused = t.refused) (hloaded : t.loaded u = none) : Left s r u := by
  refine hleft.of_running hrefused ?_
  rcases h with (hu | hu) | hu
  · exact .inl hu
  · exact .inr (hu.trans hloaded)
  · exact .inr hu

theorem Started.left {r : Host} {u : UnitName} (h : Started t r) (hleft : Left s t u)
    (hloaded : t.loaded u = none) : Left s r u := by
  refine hleft.of_running h.refused ?_
  rcases h.running u with (hu | hu) | hu
  · exact .inl hu
  · exact .inr (hu.trans hloaded)
  · exact .inr hu.2

theorem userPhase_ends : Ends (userPhase shipped value components) s fun _ t =>
    (∀ u, grep hostConfigMarker (shipped u) = false) → Converged shipped value components s t := by
  refine .bind (componentsUser_ends.mono fun _ s' hs => ?_)
  obtain ⟨rfl, hdefined⟩ := hs
  refine .ask_bind trivial fun units s'' hs => ?_
  obtain ⟨rfl, hunits⟩ := hs
  refine .bind (stopRemoved_ends.mono fun _ t ht => ?_)
  obtain ⟨hst, hdown⟩ := ht
  refine .ask_bind (allowed_sync hunits hst hdown) fun synced t₁ ht₁ => .orDie_bind fun hsynced => ?_
  subst hsynced
  obtain rfl : t₁ = _ := ht₁
  refine .ask_bind trivial fun removed t₂ ht₂ => .orDie_bind fun _ => ?_
  obtain rfl : t₂ = _ := ht₂
  refine .ask_bind trivial fun reloaded t₃ ht₃ => .orDie_bind fun hreloaded => ?_
  subst hreloaded
  obtain ⟨loaded, hgenerated, rfl⟩ := ht₃
  refine .bind (checkMarkers_ends.mono fun _ t₄ ht₄ => ?_)
  obtain ⟨rfl, hmarked⟩ := ht₄
  have hdisk (u : UnitName) : loaded u ≠ none → assembled shipped value components u ≠ none :=
    mt hgenerated.none
  refine .ask_bind hdisk fun updated t₅ ht₅ => .orDie_bind fun _ => ?_
  obtain ⟨running, hupdated, rfl⟩ := ht₅
  refine Ends.mono (restartAll_ends ?_ ?_) fun _ r hr hshipped => ?_
  · exact hmarked
  · exact hdisk
  obtain ⟨hstarted, hfresh⟩ := hr
  constructor
  · intro u hu
    obtain ⟨d, hd, hassembled, hloaded⟩ := hgenerated.definition hshipped hu (hdefined u hu) (hmarked u hu)
    have hr : r.loaded u = some d := (congrFun hstarted.loaded u).trans hloaded
    refine ⟨d, hd, (congrFun hstarted.disk u).trans hassembled, hr, ?_⟩
    exact (hfresh u hu).imp_left fun hrun => hrun.trans hr
  · intro u hu
    have hassembled : assembled shipped value components u = none := assembled_of_not_mem hu
    have hloaded : loaded u = none := hgenerated.none hassembled
    refine ⟨(congrFun hstarted.disk u).trans hassembled, (congrFun hstarted.loaded u).trans hloaded, ?_⟩
    have hleft : Left s'' t u := hst.left fun hdisk => hdown u ((hunits u).mpr hdisk) hassembled
    exact hstarted.left (Updated.left (hupdated u) hleft rfl hloaded) hloaded

end Ends

end Homescope.UserPhase
