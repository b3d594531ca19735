import Assaybank.Domain.Draw
import Assaybank.Library.Basic

/-!
Owns the lifecycle of an attempt (`packages/core-domain/src/attempt-state.ts`): the statuses, the
events, the edges and the transition function.

Contract: the events a run accepts, from `created` on, are a course as it is written down beside the
code, and every course is accepted (`attempt_lifecycle`). So a status is never entered twice, an
attempt is final only after it was started, closed and graded, and a voided one never moves again.
-/

namespace Assaybank.Domain.AttemptState

open Assaybank.Runtime Assaybank.Library Assaybank.Domain

inductive AttemptStatus where
  | created
  | inProgress
  | submitted
  | expired
  | autoGraded
  | underReview
  | finalised
  | voided
deriving DecidableEq

def AttemptStatus.name : AttemptStatus → String
  | .created => "created"
  | .inProgress => "in_progress"
  | .submitted => "submitted"
  | .expired => "expired"
  | .autoGraded => "auto_graded"
  | .underReview => "under_review"
  | .finalised => "finalised"
  | .voided => "voided"

/-- Every status, in lifecycle order. -/
def ATTEMPT_STATUSES : List AttemptStatus :=
  [.created, .inProgress, .submitted, .expired, .autoGraded, .underReview, .finalised, .voided]

inductive AttemptEvent where
  | start
  | submit
  | expire
  | gradeComplete (needsHumanReview : Bool)
  | reviewComplete
  | void (reason : JsString)
deriving DecidableEq

def AttemptEvent.name : AttemptEvent → String
  | .start => "start"
  | .submit => "submit"
  | .expire => "expire"
  | .gradeComplete _ => "grade_complete"
  | .reviewComplete => "review_complete"
  | .void _ => "void"

def EDGES : AttemptStatus → List AttemptStatus
  | .created => [.inProgress, .voided]
  | .inProgress => [.submitted, .expired, .voided]
  | .submitted => [.autoGraded, .voided]
  | .expired => [.autoGraded, .voided]
  | .autoGraded => [.underReview, .finalised, .voided]
  | .underReview => [.finalised, .voided]
  | .finalised => [.voided]
  | .voided => []

def canTransition (source target : AttemptStatus) : Bool := (EDGES source).contains target

def isTerminalStatus (status : AttemptStatus) : Bool := (EDGES status).length == 0

/-- A refused event: its code, its message, and the status and event it names. -/
structure TransitionError where
  code : DomainErrorCode
  message : String
  source : AttemptStatus
  event : Option String
deriving DecidableEq

def illegal (source : AttemptStatus) (event : AttemptEvent) :
    Except TransitionError AttemptStatus :=
  .error ⟨.illegalTransition,
    "Attempt in '" ++ source.name ++ "' cannot handle '" ++ event.name ++ "'.", source,
    some event.name⟩

/-- Applies an event to a state. Every combination not named is refused. -/
def transition (source : AttemptStatus) (event : AttemptEvent) :
    Except TransitionError AttemptStatus :=
  match event with
  | .void reason =>
      if (trim reason).length = 0 then
        .error ⟨.voidReasonRequired, "Voiding an attempt requires a non-empty reason.", source, none⟩
      else if source = .voided then
        .error ⟨.alreadyVoided, "The attempt is already voided.", source, none⟩
      else .ok .voided
  | .start => if source = .created then .ok .inProgress else illegal source event
  | .submit => if source = .inProgress then .ok .submitted else illegal source event
  | .expire => if source = .inProgress then .ok .expired else illegal source event
  | .gradeComplete needsHumanReview =>
      if source = .submitted ∨ source = .expired then .ok .autoGraded
      else if source = .autoGraded then
        .ok (if needsHumanReview then .underReview else .finalised)
      else illegal source event
  | .reviewComplete => if source = .underReview then .ok .finalised else illegal source event

/-! ### Courses -/

/-- The events that close an attempt in progress: the candidate hands in, or the sweep expires it. -/
def Closes (event : AttemptEvent) : Prop := event = .submit ∨ event = .expire

/-- The events that take an attempt to a status, as the diagram of the lifecycle draws them. -/
inductive Course : List AttemptEvent → AttemptStatus → Prop where
  | created : Course [] .created
  | started : Course [.start] .inProgress
  | submitted : Course [.start, .submit] .submitted
  | expired : Course [.start, .expire] .expired
  | graded {closing : AttemptEvent} (closes : Closes closing) (ignored : Bool) :
      Course [.start, closing, .gradeComplete ignored] .autoGraded
  | reviewing {closing : AttemptEvent} (closes : Closes closing) (ignored : Bool) :
      Course [.start, closing, .gradeComplete ignored, .gradeComplete true] .underReview
  | settled {closing : AttemptEvent} (closes : Closes closing) (ignored : Bool) :
      Course [.start, closing, .gradeComplete ignored, .gradeComplete false] .finalised
  | reviewed {closing : AttemptEvent} (closes : Closes closing) (ignored : Bool) :
      Course [.start, closing, .gradeComplete ignored, .gradeComplete true, .reviewComplete]
        .finalised
  | voided {events : List AttemptEvent} {status : AttemptStatus} {reason : JsString}
      (course : Course events status) (live : status ≠ .voided) (visible : trim reason ≠ []) :
      Course (events ++ [.void reason]) .voided

/-- What a transition that succeeds can be. -/
theorem transition_cases {source target : AttemptStatus} {event : AttemptEvent}
    (accepted : transition source event = .ok target) :
    (∃ reason, event = .void reason ∧ trim reason ≠ [] ∧ source ≠ .voided ∧ target = .voided) ∨
      (event = .start ∧ source = .created ∧ target = .inProgress) ∨
      (event = .submit ∧ source = .inProgress ∧ target = .submitted) ∨
      (event = .expire ∧ source = .inProgress ∧ target = .expired) ∨
      (∃ review, event = .gradeComplete review ∧
        (((source = .submitted ∨ source = .expired) ∧ target = .autoGraded) ∨
          (source = .autoGraded ∧ target = if review then .underReview else .finalised))) ∨
      (event = .reviewComplete ∧ source = .underReview ∧ target = .finalised) := by
  cases event with
  | void reason =>
      simp only [transition] at accepted
      split at accepted
      · cases accepted
      · rename_i visible
        split at accepted
        · cases accepted
        · rename_i live
          cases accepted
          exact .inl ⟨reason, rfl, fun empty => visible (by rw [empty]; rfl), live, rfl⟩
  | gradeComplete review =>
      simp only [transition] at accepted
      split at accepted
      · rename_i closed
        cases accepted
        exact .inr (.inr (.inr (.inr (.inl ⟨review, rfl, .inl ⟨closed, rfl⟩⟩))))
      · split at accepted
        · rename_i graded
          cases accepted
          exact .inr (.inr (.inr (.inr (.inl ⟨review, rfl, .inr ⟨graded, rfl⟩⟩))))
        · cases accepted
  | start =>
      simp only [transition] at accepted
      split at accepted
      · rename_i fresh
        cases accepted
        exact .inr (.inl ⟨rfl, fresh, rfl⟩)
      · cases accepted
  | submit =>
      simp only [transition] at accepted
      split at accepted
      · rename_i running
        cases accepted
        exact .inr (.inr (.inl ⟨rfl, running, rfl⟩))
      · cases accepted
  | expire =>
      simp only [transition] at accepted
      split at accepted
      · rename_i running
        cases accepted
        exact .inr (.inr (.inr (.inl ⟨rfl, running, rfl⟩)))
      · cases accepted
  | reviewComplete =>
      simp only [transition] at accepted
      split at accepted
      · rename_i reviewing
        cases accepted
        exact .inr (.inr (.inr (.inr (.inr ⟨rfl, reviewing, rfl⟩))))
      · cases accepted

/-- One accepted event, from a status a course leads to. -/
private theorem course_next {events : List AttemptEvent} {source target : AttemptStatus}
    {event : AttemptEvent} (course : Course events source)
    (accepted : transition source event = .ok target) : Course (events ++ [event]) target := by
  rcases transition_cases accepted with ⟨reason, rfl, visible, live, rfl⟩ | ⟨rfl, rfl, rfl⟩ |
    ⟨rfl, rfl, rfl⟩ | ⟨rfl, rfl, rfl⟩ | ⟨review, rfl, step⟩ | ⟨rfl, rfl, rfl⟩
  · exact .voided course live visible
  · cases course
    exact .started
  · cases course
    exact .submitted
  · cases course
    exact .expired
  · rcases step with ⟨closed, rfl⟩ | ⟨rfl, rfl⟩
    · rcases closed with rfl | rfl
      · cases course
        exact .graded (.inl rfl) review
      · cases course
        exact .graded (.inr rfl) review
    · cases course with
      | graded closes ignored =>
          cases review with
          | true => exact .reviewing closes ignored
          | false => exact .settled closes ignored
  · cases course with
    | reviewing closes ignored => exact .reviewed closes ignored

/-- A sequence of events that are all accepted is a course, and every course is accepted. -/
theorem foldlM_transition {events : List AttemptEvent} {status : AttemptStatus} :
    events.foldlM transition .created = .ok status ↔ Course events status := by
  constructor
  · induction events using List.reverseRecOn generalizing status with
    | nil =>
        intro accepted
        cases accepted
        exact .created
    | append_singleton events event inductionHypothesis =>
        intro accepted
        rw [List.foldlM_append] at accepted
        obtain ⟨source, before, last⟩ := bind_eq_ok.mp accepted
        rw [List.foldlM_cons] at last
        obtain ⟨target, moved, same⟩ := bind_eq_ok.mp last
        cases same
        exact course_next (inductionHypothesis before) moved
  · intro course
    induction course with
    | created => rfl
    | started => rfl
    | submitted => rfl
    | expired => rfl
    | graded closes ignored => rcases closes with rfl | rfl <;> rfl
    | reviewing closes ignored => rcases closes with rfl | rfl <;> rfl
    | settled closes ignored => rcases closes with rfl | rfl <;> rfl
    | reviewed closes ignored => rcases closes with rfl | rfl <;> rfl
    | @voided events status reason course live visible inductionHypothesis =>
        rw [List.foldlM_append, inductionHypothesis]
        show (List.foldlM transition status [AttemptEvent.void reason]) = _
        have given : ¬(trim reason).length = 0 := fun empty => visible (List.length_eq_zero_iff.mp empty)
        rw [List.foldlM_cons, transition, if_neg given, if_neg live]
        rfl

/-! ### Runs -/

/-- An attempt under events as they come: a refused one leaves it as it is. -/
def run (status : AttemptStatus) (events : List AttemptEvent) : AttemptStatus :=
  events.foldl (fun status event => (transition status event).toOption.getD status) status

/-- The events of a run that are accepted. -/
def accepted : AttemptStatus → List AttemptEvent → List AttemptEvent
  | _, [] => []
  | status, event :: rest =>
      match transition status event with
      | .ok next => event :: accepted next rest
      | .error _ => accepted status rest

private theorem foldlM_accepted (status : AttemptStatus) (events : List AttemptEvent) :
    (accepted status events).foldlM transition status = .ok (run status events) := by
  induction events generalizing status with
  | nil => rfl
  | cons event rest inductionHypothesis =>
      unfold accepted run
      rw [List.foldl_cons]
      cases moved : transition status event with
      | ok next =>
          simp only [List.foldlM_cons, moved]
          exact inductionHypothesis next
      | error refusal => exact inductionHypothesis status

/-- The statuses a run passes through, the first among them. -/
def history (status : AttemptStatus) : List AttemptEvent → List AttemptStatus
  | [] => [status]
  | event :: rest => status :: history ((transition status event).toOption.getD status) rest

/-- The place of a status in the lifecycle. -/
def AttemptStatus.place (status : AttemptStatus) : Nat := ATTEMPT_STATUSES.idxOf status

/-- A transition that succeeds is an edge, moves on in the lifecycle, and leaves no terminal
status. -/
theorem transition_onward {source target : AttemptStatus} {event : AttemptEvent}
    (moved : transition source event = .ok target) :
    canTransition source target = true ∧ source.place < target.place ∧
      isTerminalStatus source = false := by
  rcases transition_cases moved with ⟨reason, rfl, visible, live, rfl⟩ | ⟨rfl, rfl, rfl⟩ |
    ⟨rfl, rfl, rfl⟩ | ⟨rfl, rfl, rfl⟩ | ⟨review, rfl, step⟩ | ⟨rfl, rfl, rfl⟩
  · cases source with
    | voided => exact absurd rfl live
    | _ => decide
  · decide
  · decide
  · decide
  · rcases step with ⟨closed, rfl⟩ | ⟨rfl, rfl⟩
    · rcases closed with rfl | rfl <;> decide
    · cases review <;> decide
  · decide

private theorem history_onward (status : AttemptStatus) (events : List AttemptEvent) :
    (history status events).IsChain fun source target =>
      source = target ∨ (canTransition source target = true ∧ source.place < target.place) := by
  induction events generalizing status with
  | nil => exact .singleton _
  | cons event rest inductionHypothesis =>
      have later := inductionHypothesis ((transition status event).toOption.getD status)
      have step : status = (transition status event).toOption.getD status ∨
          (canTransition status ((transition status event).toOption.getD status) = true ∧
            status.place < ((transition status event).toOption.getD status).place) := by
        cases moved : transition status event with
        | error refusal => exact .inl rfl
        | ok next => exact .inr ⟨(transition_onward moved).1, (transition_onward moved).2.1⟩
      cases rest with
      | nil => exact .cons_cons step (.singleton _)
      | cons next others => exact .cons_cons step later

/-- A sequence of events is accepted throughout exactly when it is a course. Whatever events come,
the accepted ones are a course to the status the attempt ends in, and it only ever moves on along
the edges. -/
theorem attempt_lifecycle (events : List AttemptEvent) :
    (∀ status, events.foldlM transition .created = .ok status ↔ Course events status) ∧
      Course (accepted .created events) (run .created events) ∧
      (history .created events).IsChain fun source target =>
        source = target ∨ (canTransition source target = true ∧ source.place < target.place) :=
  ⟨fun _ => foldlM_transition, foldlM_transition.mp (foldlM_accepted .created events),
    history_onward .created events⟩

end Assaybank.Domain.AttemptState
