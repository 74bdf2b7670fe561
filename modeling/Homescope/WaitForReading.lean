import Homescope.Tool

/-! The wait for a reading under the current key (`provision/src/verify.rs`): a
loop of polls against a deadline. -/

namespace Homescope

/-- Whether retrying could plausibly succeed. -/
def ApiClientError.isTransient : ApiClientError → Bool
  | rejected _ _ _ => false
  | transportError => true
  | responseDeserializationError _ => true

namespace Verify

/-- Five seconds, in nanoseconds as every `Instant` and `Duration` here. -/
def pollInterval : Nat := 5000000000

def asSecs (duration : Nat) : Nat := duration / 1000000000

inductive Progress
  | reported (at_ : Timestamp)
  | waiting
  | undecryptable (status : DeviceKeyStatus)
  deriving DecidableEq, Repr

def assess (baseline : Option Timestamp) (current : DeviceSummary) : Progress :=
  match current.keyStatus with
  | .ok | .unknown =>
    match baseline, current.lastSeen with
    | _, none => .waiting
    | none, some seen => .reported seen
    | some before, some seen => if before < seen then .reported seen else .waiting
  | status => .undecryptable status

inductive WaitError
  | timedOut (secs : Nat)
  | unreachable (secs : Nat) (problem : String)
  | undecryptable (status : DeviceKeyStatus)
  | unregistered
  | api (error : ApiClientError)
  deriving DecidableEq, Repr

/-- What `ApiClient::device` returns. -/
abbrev Poll := Except ApiClientError (Option DeviceSummary)

/-- A turn of the loop: the clock before the sleep, the answer to the poll, and
the clock after it. -/
structure Turn where
  asleep : Nat
  poll : Poll
  finished : Nat

/-- `POLL_INTERVAL.min(deadline.saturating_duration_since(now))`. -/
def pause (deadline now : Nat) : Nat := min pollInterval (deadline - now)

section

-- `display` stands for the messages of the HTTP client's errors.
variable (display : ApiClientError → String) (baseline : Option Timestamp) (timeout deadline : Nat)

/-- The end of a turn that has not returned. -/
def checkDeadline (now : Nat) (unreachable : Option String) : Option (Except WaitError Timestamp) :=
  if now ≥ deadline then
    some (.error (match unreachable with
      | some problem => .unreachable (asSecs timeout) problem
      | none => .timedOut (asSecs timeout)))
  else none

/-- `none` goes round the loop again. -/
def runTurn (turn : Turn) : Option (Except WaitError Timestamp) :=
  match turn.poll with
  | .ok (some summary) =>
    let unreachable := none
    match assess baseline summary with
    | .reported at_ => some (.ok at_)
    | .undecryptable status => some (.error (.undecryptable status))
    | .waiting => checkDeadline timeout deadline turn.finished unreachable
  | .ok none => some (.error .unregistered)
  | .error err =>
    if err.isTransient then
      let unreachable := some (display err)
      checkDeadline timeout deadline turn.finished unreachable
    else some (.error (.api err))

/-- The count of polls and the result, if `fuel` turns from the turn `i` on are
enough. -/
def runTurns (turns : Nat → Turn) : Nat → Nat → Option (Nat × Except WaitError Timestamp)
  | 0, _ => none
  | fuel + 1, i =>
    match runTurn display baseline timeout deadline (turns i) with
    | some result => some (i + 1, result)
    | none => runTurns turns fuel (i + 1)

end

def waitForReading (display : ApiClientError → String) (baseline : Option Timestamp)
    (start timeout : Nat) (turns : Nat → Turn) (fuel : Nat) :
    Option (Nat × Except WaitError Timestamp) :=
  let deadline := start + timeout
  runTurns display baseline timeout deadline turns fuel 0

/-! ### The polls that end the wait -/

def Usable (status : DeviceKeyStatus) : Prop := status = .ok ∨ status = .unknown

def Newer (baseline : Option Timestamp) (seen : Timestamp) : Prop := ∀ before ∈ baseline, before < seen

inductive Terminal (baseline : Option Timestamp) : Poll → Prop
  | reported {summary : DeviceSummary} {seen : Timestamp} (husable : Usable summary.keyStatus)
      (hseen : summary.lastSeen = some seen) (hnewer : Newer baseline seen) :
      Terminal baseline (.ok (some summary))
  | undecryptable {summary : DeviceSummary} (h : ¬Usable summary.keyStatus) :
      Terminal baseline (.ok (some summary))
  | unregistered : Terminal baseline (.ok none)
  | refused {err : ApiClientError} (h : err.isTransient = false) : Terminal baseline (.error err)

/-- The wait is over after a terminal poll, or one that finished late. -/
def Over (baseline : Option Timestamp) (deadline : Nat) (turn : Turn) : Prop :=
  Terminal baseline turn.poll ∨ deadline ≤ turn.finished

def Transient (poll : Poll) : Prop := ∃ err, poll = .error err ∧ err.isTransient = true

/-- How the summary of a device is judged. -/
inductive Assessed (baseline : Option Timestamp) (summary : DeviceSummary) : Progress → Prop
  | reported {seen : Timestamp} (husable : Usable summary.keyStatus)
      (hseen : summary.lastSeen = some seen) (hnewer : Newer baseline seen) :
      Assessed baseline summary (.reported seen)
  | waiting (husable : Usable summary.keyStatus)
      (hold : ∀ seen, summary.lastSeen = some seen → ¬Newer baseline seen) :
      Assessed baseline summary .waiting
  | undecryptable (h : ¬Usable summary.keyStatus) :
      Assessed baseline summary (.undecryptable summary.keyStatus)

theorem assess_assessed (baseline : Option Timestamp) (summary : DeviceSummary) :
    Assessed baseline summary (assess baseline summary) := by
  have hcurrent : Usable summary.keyStatus → Assessed baseline summary
      (match baseline, summary.lastSeen with
        | _, none => .waiting
        | none, some seen => .reported seen
        | some before, some seen => if before < seen then .reported seen else .waiting) := by
    intro husable
    cases hseen : summary.lastSeen with
    | none => exact .waiting husable (by simp [hseen])
    | some seen =>
      cases baseline with
      | none => exact .reported husable hseen (by simp [Newer])
      | some before =>
        by_cases hlt : before < seen
        · simpa [hlt] using Assessed.reported husable hseen (by simpa [Newer] using hlt)
        · simpa [hlt] using Assessed.waiting husable (by simpa [hseen, Newer] using hlt)
  have hunusable : ¬Usable summary.keyStatus →
      Assessed baseline summary (.undecryptable summary.keyStatus) := .undecryptable
  unfold assess
  cases hstatus : summary.keyStatus with
  | ok => exact hcurrent (.inl hstatus)
  | unknown => exact hcurrent (.inr hstatus)
  | _ =>
    rw [hstatus] at hunusable
    exact hunusable (by simp [Usable])

section

variable {display : ApiClientError → String} {baseline : Option Timestamp} {timeout deadline : Nat}

theorem not_terminal_waiting {summary : DeviceSummary} (husable : Usable summary.keyStatus)
    (hold : ∀ seen, summary.lastSeen = some seen → ¬Newer baseline seen) :
    ¬Terminal baseline (.ok (some summary)) := by
  intro h
  cases h with
  | reported _ hseen hnewer => exact hold _ hseen hnewer
  | undecryptable h => exact h husable

theorem not_terminal_transient {err : ApiClientError} (h : err.isTransient = true) :
    ¬Terminal baseline (.error err) := by
  intro hterminal
  cases hterminal with
  | refused hfalse => exact Bool.noConfusion (h.symm.trans hfalse)

/-- The ways in which a turn ends. -/
inductive Outcome (display : ApiClientError → String) (baseline : Option Timestamp)
    (timeout deadline : Nat) (turn : Turn) : Option (Except WaitError Timestamp) → Prop
  | reported {summary : DeviceSummary} {seen : Timestamp} (hpoll : turn.poll = .ok (some summary))
      (husable : Usable summary.keyStatus) (hseen : summary.lastSeen = some seen)
      (hnewer : Newer baseline seen) :
      Outcome display baseline timeout deadline turn (some (.ok seen))
  | undecryptable {summary : DeviceSummary} (hpoll : turn.poll = .ok (some summary))
      (h : ¬Usable summary.keyStatus) :
      Outcome display baseline timeout deadline turn (some (.error (.undecryptable summary.keyStatus)))
  | unregistered (hpoll : turn.poll = .ok none) :
      Outcome display baseline timeout deadline turn (some (.error .unregistered))
  | refused {err : ApiClientError} (hpoll : turn.poll = .error err) (h : err.isTransient = false) :
      Outcome display baseline timeout deadline turn (some (.error (.api err)))
  | timedOut {summary : DeviceSummary} (hpoll : turn.poll = .ok (some summary))
      (hwaiting : ¬Terminal baseline turn.poll) (hlate : deadline ≤ turn.finished) :
      Outcome display baseline timeout deadline turn (some (.error (.timedOut (asSecs timeout))))
  | unreachable {err : ApiClientError} (hpoll : turn.poll = .error err) (h : err.isTransient = true)
      (hlate : deadline ≤ turn.finished) : Outcome display baseline timeout deadline turn
        (some (.error (.unreachable (asSecs timeout) (display err))))
  | again (hwaiting : ¬Terminal baseline turn.poll) (hearly : turn.finished < deadline) :
      Outcome display baseline timeout deadline turn none

theorem runTurn_outcome (display : ApiClientError → String) (baseline : Option Timestamp)
    (timeout deadline : Nat) (turn : Turn) : Outcome display baseline timeout deadline turn
      (runTurn display baseline timeout deadline turn) := by
  rw [runTurn]
  cases hpoll : turn.poll with
  | error err =>
    cases htransient : err.isTransient with
    | false => simpa [htransient] using Outcome.refused hpoll htransient
    | true =>
      by_cases hlate : deadline ≤ turn.finished
      · simpa [htransient, checkDeadline, hlate] using Outcome.unreachable hpoll htransient hlate
      · have hwaiting : ¬Terminal baseline turn.poll := hpoll ▸ not_terminal_transient htransient
        simpa [htransient, checkDeadline, hlate] using Outcome.again hwaiting (Nat.lt_of_not_le hlate)
  | ok found =>
    cases found with
    | none => exact .unregistered hpoll
    | some summary =>
      have hassessed := assess_assessed baseline summary
      dsimp only
      generalize assess baseline summary = progress at hassessed
      cases hassessed with
      | reported husable hseen hnewer => exact .reported hpoll husable hseen hnewer
      | undecryptable h => exact .undecryptable hpoll h
      | waiting husable hold =>
        have hwaiting : ¬Terminal baseline turn.poll := hpoll ▸ not_terminal_waiting husable hold
        by_cases hlate : deadline ≤ turn.finished
        · simpa [checkDeadline, hlate] using Outcome.timedOut hpoll hwaiting hlate
        · simpa [checkDeadline, hlate] using Outcome.again hwaiting (Nat.lt_of_not_le hlate)

theorem runTurn_eq_none {turn : Turn} : runTurn display baseline timeout deadline turn = none ↔
    ¬Over baseline deadline turn := by
  have houtcome := runTurn_outcome display baseline timeout deadline turn
  constructor
  · intro h
    rw [h] at houtcome
    cases houtcome with
    | again hwaiting hearly => exact not_or.mpr ⟨hwaiting, Nat.not_le.mpr hearly⟩
  · intro hover
    generalize runTurn display baseline timeout deadline turn = result at houtcome
    cases houtcome with
    | again => rfl
    | reported hpoll husable hseen hnewer =>
      exact absurd (.inl (hpoll ▸ .reported husable hseen hnewer)) hover
    | undecryptable hpoll h => exact absurd (.inl (hpoll ▸ .undecryptable h)) hover
    | unregistered hpoll => exact absurd (.inl (hpoll ▸ .unregistered)) hover
    | refused hpoll h => exact absurd (.inl (hpoll ▸ .refused h)) hover
    | timedOut _ _ hlate => exact absurd (.inr hlate) hover
    | unreachable _ _ hlate => exact absurd (.inr hlate) hover

theorem runTurns_eq_some {turns : Nat → Turn} {fuel i polls : Nat} {result : Except WaitError Timestamp} :
    runTurns display baseline timeout deadline turns fuel i = some (polls, result) ↔
      ∃ last, i ≤ last ∧ last < i + fuel ∧ polls = last + 1 ∧
        (∀ j, i ≤ j → j < last → runTurn display baseline timeout deadline (turns j) = none) ∧
        runTurn display baseline timeout deadline (turns last) = some result := by
  induction fuel generalizing i with
  | zero =>
    refine iff_of_false (by simp [runTurns]) ?_
    rintro ⟨last, hi, hlt, -⟩
    omega
  | succ fuel ih =>
    rw [runTurns]
    cases hturn : runTurn display baseline timeout deadline (turns i) with
    | some r =>
      constructor
      · intro h
        cases h
        exact ⟨i, le_rfl, by omega, rfl, fun j hj hlt => absurd hlt (by omega), hturn⟩
      · rintro ⟨last, hi, -, rfl, hbefore, hlast⟩
        rcases hi.eq_or_lt with rfl | hlt
        · rw [hturn] at hlast
          rw [Option.some.inj hlast]
        · rw [hbefore i le_rfl hlt] at hturn
          cases hturn
    | none =>
      simp only [ih]
      constructor
      · rintro ⟨last, hi, hlt, rfl, hbefore, hlast⟩
        refine ⟨last, by omega, by omega, rfl, fun j hj hjlt => ?_, hlast⟩
        rcases hj.eq_or_lt with rfl | hij
        · exact hturn
        · exact hbefore j hij hjlt
      · rintro ⟨last, hi, hlt, rfl, hbefore, hlast⟩
        have hne : i ≠ last := by
          rintro rfl
          rw [hturn] at hlast
          cases hlast
        exact ⟨last, by omega, by omega, rfl, fun j hj => hbefore j (by omega), hlast⟩

end

/-- The clock does not go back, and a sleep lasts as long as it was asked to. -/
structure Clock (start deadline : Nat) (turns : Nat → Turn) : Prop where
  first : start ≤ (turns 0).asleep
  slept : ∀ i, (turns i).asleep + pause deadline (turns i).asleep ≤ (turns i).finished
  next : ∀ i, (turns i).finished ≤ (turns (i + 1)).asleep

/-- Each turn that ends before the deadline took a whole interval. -/
theorem Clock.finished_ge {start deadline : Nat} {turns : Nat → Turn} (h : Clock start deadline turns)
    (i : Nat) (hearly : ∀ j ≤ i, (turns j).finished < deadline) :
    start + pollInterval * (i + 1) ≤ (turns i).finished := by
  have hslept {j : Nat} (hj : (turns j).finished < deadline) :
      (turns j).asleep + pollInterval ≤ (turns j).finished := by
    have hturn := h.slept j
    rw [pause] at hturn
    omega
  induction i with
  | zero =>
    have hfirst := h.first
    have hturn := hslept (hearly 0 le_rfl)
    omega
  | succ i ih =>
    have hprevious := ih fun j hj => hearly j (by omega)
    have hnext := h.next i
    have hturn := hslept (hearly (i + 1) le_rfl)
    rw [Nat.mul_succ]
    omega

/-- What is asked of the end of a wait whose last poll has the index `last`. -/
structure Ends (baseline : Option Timestamp) (deadline : Nat) (turns : Nat → Turn) (last : Nat)
    (result : Except WaitError Timestamp) : Prop where
  before : ∀ i < last, ¬Over baseline deadline (turns i)
  here : Over baseline deadline (turns last)
  ok : ∀ seen, result = .ok seen → ∃ summary, (turns last).poll = .ok (some summary) ∧
    summary.lastSeen = some seen ∧ Usable summary.keyStatus ∧ Newer baseline seen
  unreachable : (∃ secs problem, result = .error (.unreachable secs problem)) ↔
    Transient (turns last).poll

theorem Outcome.ok {display : ApiClientError → String} {baseline : Option Timestamp}
    {timeout deadline : Nat} {turn : Turn} {seen : Timestamp}
    (h : Outcome display baseline timeout deadline turn (some (.ok seen))) :
    ∃ summary, turn.poll = .ok (some summary) ∧ summary.lastSeen = some seen ∧
      Usable summary.keyStatus ∧ Newer baseline seen := by
  cases h with
  | reported hpoll husable hseen hnewer => exact ⟨_, hpoll, hseen, husable, hnewer⟩

theorem Outcome.unreachable_iff {display : ApiClientError → String} {baseline : Option Timestamp}
    {timeout deadline : Nat} {turn : Turn} {result : Except WaitError Timestamp}
    (h : Outcome display baseline timeout deadline turn (some result)) :
    (∃ secs problem, result = .error (.unreachable secs problem)) ↔ Transient turn.poll := by
  constructor
  · rintro ⟨secs, problem, rfl⟩
    cases h with
    | unreachable hpoll h => exact ⟨_, hpoll, h⟩
  · rintro ⟨err, hpoll, htransient⟩
    cases h with
    | unreachable => exact ⟨_, _, rfl⟩
    | refused hpoll' h =>
      cases hpoll.symm.trans hpoll'
      exact Bool.noConfusion (h.symm.trans htransient)
    | reported hpoll' => cases hpoll.symm.trans hpoll'
    | undecryptable hpoll' => cases hpoll.symm.trans hpoll'
    | unregistered hpoll' => cases hpoll.symm.trans hpoll'
    | timedOut hpoll' => cases hpoll.symm.trans hpoll'

end Verify

end Homescope
