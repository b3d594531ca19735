import Assaybank.Contracts.Errors

/-!
Owns the authoring lifecycle of a question
(`packages/core-domain/src/question-lifecycle.ts`): which event moves which status where.

Contract: a transition that succeeds is an edge of the graph, and no event leaves `retired`.
-/

namespace Assaybank.Domain

open Assaybank.Runtime Assaybank.Contracts

/-- What can happen to a question. -/
inductive QuestionEvent where
  | submitForReview
  | requestChanges
  | publish
  | retire
deriving DecidableEq

def QuestionEvent.name : QuestionEvent → String
  | .submitForReview => "submit_for_review"
  | .requestChanges => "request_changes"
  | .publish => "publish"
  | .retire => "retire"

/-- The legal edges. -/
def EDGES : QuestionStatus → List QuestionStatus
  | .draft => [.review]
  | .review => [.draft, .published]
  | .published => [.published, .retired]
  | .retired => []

def canTransitionQuestion (source target : QuestionStatus) : Bool := (EDGES source).contains target

/-- A status no event can leave. -/
def isTerminalQuestionStatus (status : QuestionStatus) : Bool := (EDGES status).length == 0

/-- The refusal of an event, with the status and the event it names. -/
structure IllegalTransition where
  source : QuestionStatus
  event : QuestionEvent
deriving DecidableEq

def IllegalTransition.message (refusal : IllegalTransition) : String :=
  s!"A question in '{refusal.source.name}' cannot handle '{refusal.event.name}'."

def transitionQuestion (source : QuestionStatus) (event : QuestionEvent) :
    Except IllegalTransition QuestionStatus :=
  match event with
  | .submitForReview => if source = .draft then .ok .review else .error ⟨source, event⟩
  | .requestChanges => if source = .review then .ok .draft else .error ⟨source, event⟩
  | .publish =>
      if source = .review ∨ source = .published then .ok .published else .error ⟨source, event⟩
  | .retire => if source = .published then .ok .retired else .error ⟨source, event⟩

/-- Every success is an edge. -/
theorem transitionQuestion_edge {source target : QuestionStatus} {event : QuestionEvent}
    (moved : transitionQuestion source event = .ok target) :
    canTransitionQuestion source target = true := by
  cases event <;> cases source <;> cases moved <;> rfl

theorem isTerminalQuestionStatus_iff {status : QuestionStatus} :
    isTerminalQuestionStatus status = true ↔ status = .retired := by
  cases status <;> decide

/-- No event leaves a terminal status. -/
theorem transitionQuestion_terminal {source : QuestionStatus} {event : QuestionEvent}
    (terminal : isTerminalQuestionStatus source = true) :
    transitionQuestion source event = .error ⟨source, event⟩ := by
  rw [isTerminalQuestionStatus_iff.mp terminal]
  cases event <;> rfl

end Assaybank.Domain
