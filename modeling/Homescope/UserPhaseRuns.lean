import Homescope.UserPhase

/-! Deploys that come to their end, and histories of a host on which deploys are
cut off, repeated and come between reboots. -/

namespace Homescope.UserPhase

open Commands Commands.Prog Deploy

section Reaches

variable {α β : Type} {s t : Host} {shipped : UnitName → Text} {value : Var → Text}
  {components : List Component} {quadlets : Quadlets}

/-! ### A deploy where everything succeeds -/

theorem matchHere_append {pattern rest : Text} (h : '\n' ∉ pattern) :
    matchHere pattern (pattern ++ rest) = true := by
  induction pattern with
  | nil => rfl
  | cons p pattern ih =>
    obtain ⟨hp, hpattern⟩ := List.ne_and_not_mem_of_not_mem_cons h
    simp [matchHere, ih hpattern, hp.symm]

theorem grep_append {pattern pre rest : Text} (h : '\n' ∉ pattern) :
    grep pattern (pre ++ (pattern ++ rest)) = true :=
  List.any_eq_true.mpr ⟨_, (List.mem_tails _ _).mpr (List.suffix_append ..), matchHere_append h⟩

theorem lines_unlines_cons {l : Text} {ls : List Text} (h : '\n' ∉ l) :
    ∃ ls', Shell.lines (Shell.unlines (l :: ls)) = l :: ls' := by
  have hsplit : (Shell.unlines (l :: ls)).splitOn '\n' = l :: (Shell.unlines ls).splitOn '\n' := by
    rw [Shell.unlines, List.flatMap_cons, List.append_assoc]
    exact List.splitOn_append_cons_self_of_not_mem h _
  have hne : (Shell.unlines ls).splitOn '\n' ≠ [] := List.splitOn_ne_nil _ _
  rw [Shell.lines, hsplit]
  split
  · exact ⟨_, List.dropLast_cons_of_ne_nil hne⟩
  · exact ⟨_, rfl⟩

/-- `write_dropin` labels every drop-in, whatever the values are. -/
theorem contents_marked {file : File} (h : file.isDropin = true) :
    ∃ text, file.contents value = some text ∧ grep hostConfigMarker text = true := by
  obtain ⟨ls, hls⟩ := @lines_unlines_cons File.container (file.body value) (by decide)
  refine ⟨_, by rw [File.contents, if_pos h, writeDropin, hls, mark, if_pos rfl, Option.map_some], ?_⟩
  have happend : Shell.unlines (dropinHeader :: File.container :: ("Label=".toList ++ hostConfigMarker) :: ls) =
      (dropinHeader ++ '\n' :: File.container ++ '\n' :: "Label=".toList) ++
        (hostConfigMarker ++ '\n' :: Shell.unlines ls) := by
    simp [Shell.unlines]
  rw [happend]
  exact grep_append (by decide)

theorem dropinFile_of_mem {u : UnitName} {component : Component} (h : u ∈ componentUnits value component) :
    ∃ file, dropinFile u = some file ∧ file.isDropin = true := by
  cases component with
  | broker =>
    obtain rfl := List.mem_singleton.mp h
    exact ⟨_, rfl, rfl⟩
  | api =>
    rw [componentUnits, List.mem_append] at h
    rcases h with h | h
    · rcases List.mem_pair.mp h with rfl | rfl
      · exact ⟨_, rfl, rfl⟩
      · exact ⟨_, rfl, rfl⟩
    · split at h
      · obtain rfl := List.mem_singleton.mp h
        exact ⟨_, rfl, rfl⟩
      · cases h
  | gateway =>
    obtain rfl := List.mem_singleton.mp h
    exact ⟨_, rfl, rfl⟩

theorem definition_marked {u : UnitName} (h : u ∈ desiredUnits value components) :
    ∃ d, definition shipped value u = some d ∧ d.marked = true := by
  obtain ⟨component, -, hu⟩ := List.mem_flatMap.mp h
  obtain ⟨file, hdropin, hmarked⟩ := dropinFile_of_mem hu
  obtain ⟨text, htext, hgrep⟩ := @contents_marked value file hmarked
  refine ⟨⟨shipped u, some text⟩, by simp [definition, hdropin, htext], ?_⟩
  simp [Definition.marked, hgrep]

/-- The script may come to its end with this value, and leave this host. -/
def Reaches (x : PhaseM α) (s : Host) (a : α) (t : Host) : Prop :=
  Steps step (x.run, s) (.ret (.ok a), t)

namespace Reaches

variable {a : α} {b : β} {r : Host}

theorem bind {x : PhaseM α} {f : α → PhaseM β} (h : Reaches x s a t) (hf : Reaches (f a) t b r) :
    Reaches (x >>= f) s b r :=
  (Steps.bind h (ExceptT.bindCont f)).trans hf

theorem ask_bind {c : Cmd} {f : c.Answer → PhaseM α} {v : c.Answer} (h : step s c v t)
    (hf : Reaches (f v) t a r) : Reaches (ask c >>= f) s a r :=
  .cmd h hf

theorem orDie_bind {c : Bool} {f : Unit → PhaseM α} (hc : c = true) (hf : Reaches (f ()) s a t) :
    Reaches (orDie c >>= f) s a t := by
  subst hc
  exact hf

end Reaches

theorem componentsUser_reaches (h : ∀ u ∈ desiredUnits value components, (definition shipped value u).isSome) :
    Reaches (componentsUser shipped value components) s () s := by
  induction components with
  | nil => exact .refl
  | cons component components ih =>
    rw [desiredUnits, List.flatMap_cons, List.forall_mem_append] at h
    refine .ask_bind (v := true) (t := s) rfl <| .orDie_bind rfl ?_
    exact .orDie_bind (List.all_eq_true.mpr h.1) (ih h.2)

theorem stopRemoved_reaches {units : List UnitName} :
    ∃ t, Reaches (stopRemoved quadlets units) s () t := by
  induction units generalizing s with
  | nil => exact ⟨s, .refl⟩
  | cons u units ih =>
    rw [stopRemoved]
    split
    · exact ih
    · obtain ⟨t, ht⟩ := @ih { s with running := Function.update s.running u none }
      exact ⟨t, .ask_bind (v := true) rfl ht⟩

theorem checkMarkers_reaches {units : List UnitName}
    (h : ∀ u ∈ units, ∃ d, s.loaded u = some d ∧ d.marked = true) :
    Reaches (checkMarkers units) s () s := by
  induction units with
  | nil => exact .refl
  | cons u units ih =>
    rw [List.forall_mem_cons] at h
    exact .ask_bind (v := true) ⟨rfl, fun _ => h.1⟩ (.orDie_bind rfl (ih h.2))

theorem restartAll_reaches {units : List UnitName} : ∃ t, Reaches (restartAll units) s () t := by
  induction units generalizing s with
  | nil => exact ⟨s, .refl⟩
  | cons u units ih =>
    let running := Function.update s.running u (s.loaded u)
    have hrunning (v : UnitName) : Restarted s running v := by
      by_cases hv : v = u
      · subst hv
        exact .inr (Function.update_self ..)
      · exact .inl (Function.update_of_ne hv ..)
    obtain ⟨t, ht⟩ := @ih { s with running }
    refine ⟨t, .ask_bind (v := true) ?_ (.orDie_bind rfl ht)⟩
    exact ⟨running, hrunning, Function.update_self .., rfl⟩

/-- A podman that reads the drop-ins lets the deploy finish. -/
theorem userPhase_reaches {units : List UnitName} (hunits : ∀ u, u ∈ units ↔ s.disk u ≠ none) :
    ∃ t, Reaches (userPhase shipped value components) s () t := by
  have hmarked (u : UnitName) (hu : u ∈ desiredUnits value components) :
      ∃ d, assembled shipped value components u = some d ∧ d.marked = true := by
    rw [assembled_of_mem hu]
    exact definition_marked hu
  have hdefined (u : UnitName) (hu : u ∈ desiredUnits value components) :
      (definition shipped value u).isSome := by
    obtain ⟨d, hd, -⟩ := hmarked u hu
    rw [← assembled_of_mem hu, hd]
    rfl
  let loaded := assembled shipped value components
  obtain ⟨t, hstop⟩ : ∃ t, Reaches (stopRemoved loaded units) s () t := stopRemoved_reaches
  obtain ⟨r, hr⟩ : ∃ r, Reaches (restartAll (desiredUnits value components))
      { t with disk := loaded, loaded } () r := restartAll_reaches
  refine ⟨r, .bind (componentsUser_reaches hdefined) <| .ask_bind ⟨rfl, hunits⟩ <| .bind hstop ?_⟩
  refine .ask_bind (v := true) rfl <| .orDie_bind rfl ?_
  refine .ask_bind (v := true) rfl <| .orDie_bind rfl ?_
  refine .ask_bind (v := true) ⟨loaded, fun _ => .inl rfl, rfl⟩ <| .orDie_bind rfl ?_
  refine .bind (checkMarkers_reaches hmarked) ?_
  exact .ask_bind (v := true) ⟨t.running, fun _ => .inl (.inl rfl), rfl⟩ (.orDie_bind rfl hr)

/-- A finished deploy has made the host what the configuration says: the label
of the drop-ins tells a podman that ignored them. -/
theorem userPhase_converges (hshipped : ∀ u, grep hostConfigMarker (shipped u) = false)
    (hrun : Steps step ((userPhase shipped value components).run, s) (.ret (.ok ()), t)) :
    Converged shipped value components s t :=
  userPhase_ends.result hrun hshipped

def plainContainer : Text := Shell.unlines [File.container]

def gatewayValue : Var → Text := (gatewayConfig "odin".toList "broker".toList).value

def brokerQuadlets (u : UnitName) : Option Definition :=
  if u = .mqtt then some ⟨plainContainer, none⟩ else none

/-- A host whose broker runs from an earlier configuration. -/
def brokerHost : Host := ⟨brokerQuadlets, brokerQuadlets, brokerQuadlets, [], ∅⟩

theorem brokerHost_disk (u : UnitName) : u ∈ [UnitName.mqtt] ↔ brokerHost.disk u ≠ none := by
  simp [brokerHost, brokerQuadlets]

theorem gatewayDeploy_reaches : ∃ t,
    Reaches (userPhase (fun _ => plainContainer) gatewayValue [.gateway]) brokerHost () t :=
  userPhase_reaches brokerHost_disk

theorem grep_plainContainer : grep hostConfigMarker plainContainer = false := by decide

theorem userPhase_converges_gateway : ∃ t,
    Steps step ((userPhase (fun _ => plainContainer) gatewayValue [.gateway]).run, brokerHost)
      (.ret (.ok ()), t) ∧
    t.disk .gateway = definition (fun _ => plainContainer) gatewayValue .gateway ∧ t.disk .mqtt = none ∧
    (t.running .mqtt = none ∨ .mqtt ∈ t.refused) := by
  obtain ⟨t, hrun⟩ := gatewayDeploy_reaches
  have hconverged := userPhase_converges (fun _ => grep_plainContainer) hrun
  obtain ⟨d, hd, hdisk, -⟩ := hconverged.desired .gateway List.mem_cons_self
  obtain ⟨hgone, -, hleft⟩ := hconverged.others .mqtt (by simp [desiredUnits, componentUnits])
  refine ⟨t, hrun, hdisk.trans hd.symm, hgone, hleft.imp_right fun hrefused => ?_⟩
  exact hrefused.2.resolve_left (by simp [brokerHost, brokerQuadlets])

end Reaches

/-! ### Histories of a host -/

/-- The unit, what it wants, what that wants in turn. -/
def Pulled (loaded : Quadlets) : UnitName → UnitName → Prop :=
  Relation.ReflTransGen fun u v => ∃ d, loaded u = some d ∧ d.wants v = true

/-- What comes up although it was down, while a deploy is under way or without a
quadlet. -/
def outOfTurn (deploying : Bool) (s : Host) (running : Quadlets) : Set UnitName :=
  {v | s.running v = none ∧ running v ≠ none ∧ (deploying = true ∨ s.disk v = none)}

/-- A host, and what is left to do of the deploy that runs on it. -/
structure Deploys where
  phase : Option (Prog Cmd Cmd.Answer (Except Unit Unit))
  host : Host

inductive Event : Deploys → Deploys → Prop
  | start {s : Host} (shipped : UnitName → Text) (value : Var → Text) (components : List Component) :
      Event ⟨none, s⟩ ⟨some (userPhase shipped value components).run, s⟩
  | ran {p q : Prog Cmd Cmd.Answer (Except Unit Unit)} {s t : Host} (h : Step step (p, s) (q, t)) :
      Event ⟨some p, s⟩ ⟨some q, t⟩
  /-- It came to its end, or was cut off. -/
  | ended {p : Prog Cmd Cmd.Answer (Except Unit Unit)} {s : Host} : Event ⟨some p, s⟩ ⟨none, s⟩
  /-- `Restart=on-failure`. What the unit wants is started with it. -/
  | retried {phase : Option (Prog Cmd Cmd.Answer (Except Unit Unit))} {s : Host} {running : Quadlets}
      (u : UnitName) (hu : s.running u ≠ none)
      (hrunning : ∀ v, running v = s.running v ∨ Pulled s.loaded u v ∧ running v = s.loaded v) :
      Event ⟨phase, s⟩ ⟨phase,
        { s with running, strays := s.strays ∪ outOfTurn phase.isSome s running }⟩
  | reboot {phase : Option (Prog Cmd Cmd.Answer (Except Unit Unit))} {s : Host}
      {loaded running : Quadlets} (hloaded : Generated s.disk loaded)
      (hrunning : ∀ u, running u = none ∨ running u = loaded u) :
      Event ⟨phase, s⟩ ⟨none, { s with loaded, running, refused := [], strays := ∅ }⟩

/-- No container runs without a quadlet, unless it would not stop or came up out
of turn. -/
def Host.Managed (s : Host) : Prop :=
  ∀ u, s.running u ≠ none → s.disk u ≠ none ∨ u ∈ s.refused ∨ u ∈ s.strays

section Histories

variable {α β : Type} {s t s' t' : Host} {x y : Deploys}

theorem Host.Managed.of_running (h : s.Managed) (hdisk : t.disk = s.disk) (hrefused : t.refused = s.refused)
    (hstrays : t.strays = s.strays)
    (hrunning : ∀ u, t.running u ≠ none → s.running u ≠ none ∨ s.disk u ≠ none) : t.Managed := by
  intro u hu
  rw [hdisk, hrefused, hstrays]
  rcases hrunning u hu with hu | hu
  · exact h u hu
  · exact .inl hu

theorem Restarted.up {running : Quadlets} {v : UnitName} (h : Restarted s running v)
    (hloaded : ∀ v, s.loaded v ≠ none → s.disk v ≠ none) (hv : running v ≠ none) :
    s.running v ≠ none ∨ s.disk v ≠ none := by
  rcases h with hrun | hrun
  · exact .inl (hrun ▸ hv)
  · exact .inr (hloaded v (hrun ▸ hv))

/-- What an allowed command keeps, whatever it is answered. -/
theorem Host.Managed.step {c : Cmd} {a : c.Answer} (hc : Allowed s c) (hstep : step s c a t)
    (h : s.Managed) : t.Managed := by
  cases c with
  | componentUser component =>
    obtain rfl : t = s := hstep
    exact h
  | quadletsOnDisk => exact hstep.1 ▸ h
  | stop u =>
    obtain ⟨hst, -⟩ := stop_down hstep
    intro v hv
    rcases hst.running v with hrun | hrun
    · rw [hrun] at hv
      rw [hst.disk, hst.strays]
      exact (h v hv).imp_right fun hleft => hleft.imp_left fun hrefused => hst.refused hrefused
    · exact absurd hrun hv
  | sync quadlets =>
    obtain ⟨disk, hkept, rfl⟩ : ∃ disk : Quadlets,
        (∀ u, s.disk u ≠ none → quadlets u ≠ none → disk u ≠ none) ∧ t = { s with disk } := by
      cases a with
      | true => exact ⟨quadlets, fun _ _ hkept => hkept, hstep⟩
      | false => exact hstep
    intro u hu
    rcases h u hu with hdisk | hleft
    · by_cases hnone : quadlets u = none
      · exact .inr (hc u hu hdisk hnone)
      · exact .inl (hkept u hdisk hnone)
    · exact .inr hleft
  | removeTimer =>
    obtain rfl : t = s := hstep
    exact h
  | daemonReload =>
    obtain ⟨loaded, rfl⟩ : ∃ loaded, t = { s with loaded } := by
      cases a with
      | true => exact hstep.imp fun _ hloaded => hloaded.2
      | false => exact hstep
    exact h
  | cat u => exact hstep.1 ▸ h
  | autoUpdate =>
    obtain ⟨running, hupdated, rfl⟩ := hstep
    refine h.of_running rfl rfl rfl fun v hv => ?_
    exact ((hupdated v).resolve_right hv).up hc hv
  | restart u =>
    cases a with
    | true =>
      obtain ⟨running, hrunning, -, rfl⟩ := hstep
      exact h.of_running rfl rfl rfl fun v hv => (hrunning v).up hc.2 hv
    | false =>
      obtain ⟨running, hrunning, hu, rfl⟩ := hstep
      refine h.of_running rfl rfl rfl fun v hv => ?_
      by_cases hvu : v = u
      · subst hvu
        exact .inr (hc.2 v ((hu.resolve_left hv) ▸ hv))
      · exact (hrunning v hvu).up hc.2 hv

/-! ### Units that systemd starts meanwhile -/

/-- What more runs on `t` has come up out of turn. -/
structure Shadows (s t : Host) : Prop where
  disk : t.disk = s.disk
  loaded : t.loaded = s.loaded
  refused : t.refused = s.refused
  strays : s.strays ⊆ t.strays
  running : ∀ u, t.running u ≠ none → s.running u ≠ none ∨ u ∈ t.strays

theorem Shadows.allowed {c : Cmd} (h : Shadows s t) (hc : Allowed s c) : Allowed t c := by
  cases c with
  | sync quadlets =>
    intro u hu hdisk hnone
    rw [h.disk] at hdisk
    rw [h.refused]
    rcases h.running u hu with hu | hu
    · exact (hc u hu hdisk hnone).imp_right fun hstray => h.strays hstray
    · exact .inr hu
  | autoUpdate =>
    rw [Allowed, h.loaded, h.disk]
    exact hc
  | restart u =>
    rw [Allowed, h.loaded, h.disk]
    exact hc
  | _ => trivial

/-- `running` came of what ran on `t`; this would have come of what ran on `s`. -/
def mirrored (s t : Host) (running : Quadlets) : Quadlets := fun v =>
  if running v = t.running v then s.running v else running v

theorem mirrored_restarted (h : Shadows s t) {running : Quadlets} {v : UnitName}
    (hv : Restarted t running v) : Restarted s (mirrored s t running) v := by
  rw [Restarted, mirrored]
  split
  · exact .inl rfl
  · rename_i hne
    rw [← h.loaded]
    exact .inr (hv.resolve_left hne)

theorem mirrored_up (h : Shadows s t) {running : Quadlets} {v : UnitName} (hv : running v ≠ none) :
    mirrored s t running v ≠ none ∨ v ∈ t.strays := by
  rw [mirrored]
  split
  · rename_i hsame
    exact h.running v (hsame ▸ hv)
  · exact .inl hv

/-- Every step is one that the host would have taken without them. -/
theorem Shadows.step {c : Cmd} {a : c.Answer} (h : Shadows s s') (hstep : step s' c a t') :
    ∃ t, UserPhase.step s c a t ∧ Shadows t t' := by
  cases c with
  | componentUser component =>
    obtain rfl : t' = s' := hstep
    exact ⟨s, rfl, h⟩
  | quadletsOnDisk =>
    obtain ⟨rfl, hunits⟩ := hstep
    rw [h.disk] at hunits
    exact ⟨s, ⟨rfl, hunits⟩, h⟩
  | stop u =>
    have hdown (v : UnitName) (hv : Function.update s'.running u none v ≠ none) :
        Function.update s.running u none v ≠ none ∨ v ∈ s'.strays := by
      by_cases hvu : v = u
      · subst hvu
        exact absurd (Function.update_self ..) hv
      · rw [Function.update_of_ne hvu] at hv ⊢
        exact h.running v hv
    have hrefused : u :: s'.refused = u :: s.refused := congrArg (u :: ·) h.refused
    cases a with
    | true =>
      obtain rfl : t' = _ := hstep
      exact ⟨_, rfl, { h with running := hdown }⟩
    | false =>
      obtain ⟨running, hrunning, rfl⟩ := hstep
      rcases hrunning with rfl | rfl
      · exact ⟨_, ⟨_, .inl rfl, rfl⟩, { h with refused := hrefused }⟩
      · exact ⟨_, ⟨_, .inr rfl, rfl⟩, { h with refused := hrefused, running := hdown }⟩
  | sync quadlets =>
    cases a with
    | true =>
      obtain rfl : t' = _ := hstep
      exact ⟨_, rfl, { h with disk := rfl }⟩
    | false =>
      obtain ⟨disk, hkept, rfl⟩ := hstep
      rw [h.disk] at hkept
      exact ⟨_, ⟨disk, hkept, rfl⟩, { h with disk := rfl }⟩
  | removeTimer =>
    obtain rfl : t' = s' := hstep
    exact ⟨s, rfl, h⟩
  | daemonReload =>
    cases a with
    | true =>
      obtain ⟨loaded, hgenerated, rfl⟩ := hstep
      rw [h.disk] at hgenerated
      exact ⟨_, ⟨loaded, hgenerated, rfl⟩, { h with loaded := rfl }⟩
    | false =>
      obtain ⟨loaded, rfl⟩ := hstep
      exact ⟨_, ⟨loaded, rfl⟩, { h with loaded := rfl }⟩
  | cat u =>
    obtain ⟨rfl, hfound⟩ := hstep
    rw [h.loaded] at hfound
    exact ⟨s, ⟨rfl, hfound⟩, h⟩
  | autoUpdate =>
    obtain ⟨running, hupdated, rfl⟩ := hstep
    have hmirrored (v : UnitName) : Updated s (mirrored s s' running) v := by
      rcases hupdated v with hv | hv
      · exact .inl (mirrored_restarted h hv)
      · rw [Updated, Restarted, mirrored]
        split
        · exact .inl (.inl rfl)
        · exact .inr hv
    exact ⟨_, ⟨_, hmirrored, rfl⟩, { h with running := fun v hv => mirrored_up h hv }⟩
  | restart u =>
    -- what becomes of the unit itself does not depend on what ran
    have hmirrored {running : Quadlets} (hrunning : ∀ v ≠ u, Restarted s' running v) (v : UnitName)
        (hv : v ≠ u) : Restarted s (Function.update (mirrored s s' running) u (running u)) v := by
      rw [Restarted, Function.update_of_ne hv]
      exact mirrored_restarted h (hrunning v hv)
    have hup (running : Quadlets) (v : UnitName) (hv : running v ≠ none) :
        Function.update (mirrored s s' running) u (running u) v ≠ none ∨ v ∈ s'.strays := by
      by_cases hvu : v = u
      · subst hvu
        rw [Function.update_self]
        exact .inl hv
      · rw [Function.update_of_ne hvu]
        exact mirrored_up h hv
    cases a with
    | true =>
      obtain ⟨running, hrunning, hu, rfl⟩ := hstep
      rw [h.loaded] at hu
      refine ⟨_, ⟨_, fun v => ?_, (Function.update_self ..).trans hu, rfl⟩, { h with running := hup running }⟩
      by_cases hvu : v = u
      · subst hvu
        exact .inr ((Function.update_self ..).trans hu)
      · exact hmirrored (fun v _ => hrunning v) v hvu
    | false =>
      obtain ⟨running, hrunning, hu, rfl⟩ := hstep
      rw [h.loaded] at hu
      refine ⟨_, ⟨_, hmirrored hrunning, ?_, rfl⟩, { h with running := hup running }⟩
      rw [Function.update_self]
      exact hu

/-! ### Any history -/

/-- The containers are managed, and a deploy only issues what is allowed. -/
def Deploys.Kept (x : Deploys) : Prop :=
  x.host.Managed ∧ ∀ p, x.phase = some p → Guarded step Allowed p (fun _ _ => True) x.host

theorem Event.kept (h : Event x y) (hx : x.Kept) : y.Kept := by
  cases h with
  | start shipped value components =>
    refine ⟨hx.1, ?_⟩
    rintro _ ⟨⟩
    exact Guarded.mono userPhase_ends fun _ _ _ => trivial
  | ran h =>
    obtain ⟨hguarded, hmanaged⟩ := (hx.2 _ rfl).steps hx.1 (fun _ _ _ _ hc hstep h => h.step hc hstep)
      (.single h)
    refine ⟨hmanaged, ?_⟩
    rintro _ ⟨⟩
    exact hguarded
  | ended => exact ⟨hx.1, fun _ hp => by cases hp⟩
  | @retried phase s running u hu hrunning =>
    obtain ⟨hmanaged, hguarded⟩ := hx
    refine ⟨fun v hv => ?_, fun p hp => ?_⟩
    · by_cases hdown : s.running v = none
      · by_cases hdisk : s.disk v = none
        · exact .inr (.inr (.inr ⟨hdown, hv, .inr hdisk⟩))
        · exact .inl hdisk
      · exact (hmanaged v hdown).imp_right fun hleft => hleft.imp_right .inl
    · have hshadows : Shadows s
          { s with running, strays := s.strays ∪ outOfTurn phase.isSome s running } := by
        refine ⟨rfl, rfl, rfl, Set.subset_union_left, fun v hv => ?_⟩
        by_cases hdown : s.running v = none
        · exact .inr (.inr ⟨hdown, hv, .inl (Option.isSome_iff_exists.mpr ⟨p, hp⟩)⟩)
        · exact .inl hdown
      exact ((hguarded p hp).simulate hshadows (fun _ _ _ => Shadows.allowed)
        fun _ _ _ _ _ => Shadows.step).mono fun _ _ _ => trivial
  | reboot hloaded hrunning =>
    refine ⟨fun u hu => .inl fun hdisk => hu ?_, fun _ hp => by cases hp⟩
    rcases hrunning u with hrun | hrun
    · exact hrun
    · exact hrun.trans (hloaded.none hdisk)

/-- However deploys of whatever configurations are cut off and repeated, and
whatever systemd starts again meanwhile: no container outlives its quadlet but
those that would not stop or came up out of turn, and no unit is started by a
deploy that was made without its drop-in. -/
theorem deploys_keep (h : Relation.ReflTransGen Event x y) (hidle : x.phase = none)
    (hmanaged : x.host.Managed) : y.host.Managed ∧
      ∀ u k, y.phase = some (.cmd (.restart u) k) → ∃ d, y.host.loaded u = some d ∧ d.marked = true := by
  have hkept := invariant_run h (fun _ _ hstep => hstep.kept)
    ⟨hmanaged, fun p hp => by rw [hidle] at hp; cases hp⟩
  exact ⟨hkept.1, fun u k hphase => (hkept.2 _ hphase).1.1⟩

theorem Event.run {p q : Prog Cmd Cmd.Answer (Except Unit Unit)} (h : Steps step (p, s) (q, t)) :
    Relation.ReflTransGen Event ⟨some p, s⟩ ⟨some q, t⟩ := by
  refine h.lift (fun c : Prog Cmd Cmd.Answer (Except Unit Unit) × Host => (⟨some c.1, c.2⟩ : Deploys)) ?_
  exact fun _ _ hstep => .ran hstep

theorem deploys_keep_gateway : ∃ t, Relation.ReflTransGen Event ⟨none, brokerHost⟩ ⟨none, t⟩ ∧
    t.disk .mqtt = none ∧ (t.running .mqtt ≠ none → .mqtt ∈ t.refused ∨ .mqtt ∈ t.strays) := by
  obtain ⟨t, hrun⟩ := gatewayDeploy_reaches
  have hdisk : t.disk .mqtt = none := by
    have hconverged := userPhase_ends.result hrun fun _ => grep_plainContainer
    exact (hconverged.others .mqtt (by simp [desiredUnits, componentUnits])).1
  have hevents : Relation.ReflTransGen Event ⟨none, brokerHost⟩ ⟨none, t⟩ :=
    .tail (.head (.start (fun _ => plainContainer) gatewayValue [.gateway]) (Event.run hrun)) .ended
  have hmanaged : brokerHost.Managed := fun u hu => .inl hu
  have hkept := (deploys_keep hevents rfl hmanaged).1
  exact ⟨t, hevents, hdisk, fun hrunning => (hkept .mqtt hrunning).resolve_left fun hd => hd hdisk⟩

/-- The script may be cut off on this host. -/
def CutOff (x : PhaseM α) (s t : Host) : Prop := ∃ q, Steps step (x.run, s) (q, t)

namespace CutOff

variable {r : Host}

theorem now {x : PhaseM α} : CutOff x s s := ⟨_, .refl⟩

theorem bind {x : PhaseM α} {f : α → PhaseM β} {a : α} (h : Reaches x s a t) (hf : CutOff (f a) t r) :
    CutOff (x >>= f) s r := by
  obtain ⟨q, hq⟩ := hf
  exact ⟨q, (Steps.bind h (ExceptT.bindCont f)).trans hq⟩

theorem ask_bind {c : Cmd} {f : c.Answer → PhaseM α} {v : c.Answer} (h : step s c v t)
    (hf : CutOff (f v) t r) : CutOff (ask c >>= f) s r := by
  obtain ⟨q, hq⟩ := hf
  exact ⟨q, .cmd h hq⟩

end CutOff

def localQuadlets (u : UnitName) : Option Definition :=
  if u = .gateway then
    some ⟨plainContainer, some (Shell.unlines ["[Unit]".toList, "Wants=homescope-mqtt.service".toList])⟩
  else brokerQuadlets u

/-- A host whose gateway uses the broker next to it. -/
def localHost : Host := ⟨localQuadlets, localQuadlets, localQuadlets, [], ∅⟩

/-- A deploy that drops the broker is cut off after its sync, and the gateway is
started again: it brings up the broker, which has no quadlet any more. -/
theorem broker_stray : ∃ t, Relation.ReflTransGen Event ⟨none, localHost⟩ ⟨none, t⟩ ∧
    t.disk .mqtt = none ∧ t.running .mqtt ≠ none ∧ t.refused = [] := by
  let wanted := assembled (fun _ => plainContainer) gatewayValue [.gateway]
  let stopped : Host := { localHost with
    disk := wanted
    running := Function.update localQuadlets .mqtt none }
  have hmember : UnitName.gateway ∈ desiredUnits gatewayValue [.gateway] := List.mem_cons_self
  have hmqtt : wanted .mqtt = none := assembled_of_not_mem (by simp [desiredUnits, componentUnits])
  obtain ⟨d, hd, -⟩ := @definition_marked (fun _ => plainContainer) gatewayValue [.gateway] .gateway hmember
  have hgateway : wanted .gateway = some d := (assembled_of_mem hmember).trans hd
  have hdefined : ∀ u ∈ desiredUnits gatewayValue [.gateway],
      (definition (fun _ => plainContainer) gatewayValue u).isSome := by
    intro u hu
    obtain ⟨d, hd, -⟩ := @definition_marked (fun _ => plainContainer) gatewayValue [.gateway] u hu
    rw [hd]
    rfl
  have hunits (u : UnitName) : u ∈ [UnitName.gateway, .mqtt] ↔ localHost.disk u ≠ none := by
    by_cases hu : u = .gateway
    · simp [localHost, localQuadlets, hu]
    · simp [localHost, localQuadlets, brokerQuadlets, hu]
  have hstop : Reaches (stopRemoved wanted [.gateway, .mqtt]) localHost ()
      { localHost with running := Function.update localQuadlets .mqtt none } := by
    rw [stopRemoved, if_pos (by rw [hgateway]; rfl), stopRemoved, if_neg (by rw [hmqtt]; decide)]
    exact .ask_bind (v := true) rfl .refl
  obtain ⟨q, hsteps⟩ : CutOff (userPhase (fun _ => plainContainer) gatewayValue [.gateway]) localHost
      stopped :=
    .bind (componentsUser_reaches hdefined) <| .ask_bind ⟨rfl, hunits⟩ <| .bind hstop <|
      .ask_bind (v := true) rfl .now
  have hpulled : Pulled stopped.loaded .gateway .mqtt := by
    refine .single ⟨_, rfl, ?_⟩
    decide
  have hrunning (v : UnitName) : localQuadlets v = stopped.running v ∨
      Pulled stopped.loaded .gateway v ∧ localQuadlets v = stopped.loaded v := by
    by_cases hv : v = .mqtt
    · subst hv
      exact .inr ⟨hpulled, rfl⟩
    · exact .inl (Function.update_of_ne hv ..).symm
  have hup : stopped.running .gateway ≠ none := by simp [stopped, localQuadlets]
  refine ⟨_, .tail (.tail (.head (.start _ _ _) (Event.run hsteps)) .ended) (.retried .gateway hup hrunning),
    hmqtt, by simp [localQuadlets, brokerQuadlets], rfl⟩

end Histories

end Homescope.UserPhase
