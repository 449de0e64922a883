import Susm.Domain.Execution
import Susm.Foundation.EventHistory

/-!
# Controller state machines

The desired state of a service and the activity of a job, as the controller
keeps them.  Definitions come and go with configuration reloads, which reach
these machines only as the `definition` field that they find.
-/

namespace Susm.Domain

open Susm.Foundation

inductive Enablement where
  | disabled
  | enabled
  deriving DecidableEq, Repr

inductive DefinitionState where
  | available (generation : ConfigGeneration)
      (processDefinition : ProcessDefinitionHash)
  | missing
  deriving DecidableEq

def DefinitionState.isAvailable : DefinitionState → Bool
  | .available .. => true
  | .missing => false

inductive ControllerTransitionError where
  | definitionMissing
  | staleExecution
  | staleIntentRevision
  deriving DecidableEq, Repr

/-! ## Services -/

inductive StoppedPhase where
  | idle
  | draining (executionId : ExecutionId)
  deriving DecidableEq

inductive RunningPhase where
  | needsExecution
  | active (executionId : ExecutionId)
  | draining (executionId : ExecutionId)
  | blocked (executionId : ExecutionId) (outcome : ExecutionOutcome)
  deriving DecidableEq

inductive ServiceControl where
  | stopped (phase : StoppedPhase)
  | running (revision : IntentRevision) (phase : RunningPhase)
  deriving DecidableEq

structure ServiceState where
  definition : DefinitionState
  enablement : Enablement
  control : ServiceControl
  deriving DecidableEq

inductive ServiceCommand where
  | start (revision : IntentRevision)
  | restart (revision : IntentRevision)
  | stop
  deriving DecidableEq

inductive ServiceControlEvent where
  | command (command : ServiceCommand)
  | executionAllocated (revision : IntentRevision) (executionId : ExecutionId)
  | executionTerminated (executionId : ExecutionId)
      (outcome : ExecutionOutcome)
  deriving DecidableEq

inductive ServiceControlEffect where
  | allocateExecution (revision : IntentRevision)
  | stopExecution (executionId : ExecutionId) (cause : ServiceStopCause)
  deriving DecidableEq

abbrev ServiceResult :=
  Except ControllerTransitionError
    (Transition ServiceState ServiceControlEffect)

namespace ServiceState

def command (self : ServiceState) : ServiceCommand → ServiceResult
  | .start revision =>
      if !self.definition.isAvailable then .error .definitionMissing
      else
        match self.control with
        | .stopped .idle | .running _ (.blocked ..) =>
            .ok (.new
              { self with control := .running revision .needsExecution }
              [.allocateExecution revision])
        | .stopped (.draining executionId) =>
            .ok (.new
              { self with control := .running revision (.draining executionId) }
              [])
        | .running .. => .ok (.new self [])
  | .restart revision =>
      if !self.definition.isAvailable then .error .definitionMissing
      else
        match self.control with
        | .stopped .idle | .running _ .needsExecution
        | .running _ (.blocked ..) =>
            .ok (.new
              { self with control := .running revision .needsExecution }
              [.allocateExecution revision])
        | .stopped (.draining executionId)
        | .running _ (.draining executionId) =>
            .ok (.new
              { self with control := .running revision (.draining executionId) }
              [])
        | .running _ (.active executionId) =>
            .ok (.new
              { self with control := .running revision (.draining executionId) }
              [.stopExecution executionId .restart])
  | .stop =>
      match self.control with
      | .stopped _ => .ok (.new self [])
      | .running _ (.active executionId) | .running _ (.draining executionId) =>
          .ok (.new { self with control := .stopped (.draining executionId) }
            [.stopExecution executionId .stop])
      | .running _ .needsExecution | .running _ (.blocked ..) =>
          .ok (.new { self with control := .stopped .idle } [])

def executionAllocated (self : ServiceState) (revision : IntentRevision)
    (executionId : ExecutionId) : ServiceResult :=
  match self.control with
  | .running current phase =>
      if current = revision ∧ phase = .needsExecution then
        .ok (.withoutEffects
          { self with control := .running revision (.active executionId) })
      else if current ≠ revision then .error .staleIntentRevision
      else .error .staleExecution
  | .stopped _ => .error .staleExecution

def executionTerminated (self : ServiceState) (executionId : ExecutionId)
    (outcome : ExecutionOutcome) : ServiceResult :=
  match self.control with
  | .stopped (.draining current) =>
      if current = executionId then
        .ok (.new { self with control := .stopped .idle } [])
      else .error .staleExecution
  | .running revision (.active current) =>
      if current = executionId then
        .ok (.new
          { self with
            control := .running revision (.blocked executionId outcome) }
          [])
      else .error .staleExecution
  | .running revision (.draining current) =>
      if current = executionId then
        .ok (.new { self with control := .running revision .needsExecution }
          [.allocateExecution revision])
      else .error .staleExecution
  | _ => .error .staleExecution

def transition (self : ServiceState) : ServiceControlEvent → ServiceResult
  | .command command => self.command command
  | .executionAllocated revision executionId =>
      self.executionAllocated revision executionId
  | .executionTerminated executionId outcome =>
      self.executionTerminated executionId outcome

end ServiceState

/-! ## Jobs -/

inductive SessionTrigger where
  | never
  | triggered (managerSessionId : ManagerSessionId)
  deriving DecidableEq

structure JobEnablement where
  state : Enablement
  lastTrigger : SessionTrigger
  deriving DecidableEq

inductive AfterActive where
  | nothing
  | rerun
  deriving DecidableEq, Repr

inductive JobActivity where
  | idle
  | active (executionId : ExecutionId) (after : AfterActive)
  deriving DecidableEq

structure JobState where
  definition : DefinitionState
  enablement : JobEnablement
  activity : JobActivity
  deriving DecidableEq

inductive RerunDisposition where
  | notRequested
  | start (executionId : ExecutionId)
  | definitionMissing
  deriving DecidableEq

inductive JobActivityEvent where
  | startRequested (executionId : ExecutionId) (origin : JobExecutionOrigin)
  | rerunRequested (executionIdIfIdle : ExecutionId)
  | cancelRequested
  | executionTerminated (executionId : ExecutionId)
      (outcome : ExecutionOutcome) (rerun : RerunDisposition)
  deriving DecidableEq

inductive JobActivityEffect where
  | startExecution (executionId : ExecutionId) (origin : JobExecutionOrigin)
  | cancelExecution (executionId : ExecutionId) (cause : JobCancelCause)
  | rerunSkippedDefinitionMissing
  deriving DecidableEq

abbrev JobResult :=
  Except ControllerTransitionError (Transition JobState JobActivityEffect)

namespace JobState

def startRequested (self : JobState) (executionId : ExecutionId)
    (origin : JobExecutionOrigin) : JobResult :=
  if !self.definition.isAvailable then .error .definitionMissing
  else
    match self.activity with
    | .idle =>
        .ok (.new { self with activity := .active executionId .nothing }
          [.startExecution executionId origin])
    | .active .. => .ok (.new self [])

def rerunRequested (self : JobState) (executionIdIfIdle : ExecutionId) :
    JobResult :=
  if !self.definition.isAvailable then .error .definitionMissing
  else
    match self.activity with
    | .idle =>
        .ok (.new { self with activity := .active executionIdIfIdle .nothing }
          [.startExecution executionIdIfIdle .manual])
    | .active executionId .nothing =>
        .ok (.new { self with activity := .active executionId .rerun }
          [.cancelExecution executionId .rerun])
    | .active _ .rerun => .ok (.new self [])

def cancelRequested (self : JobState) : JobResult :=
  match self.activity with
  | .idle => .ok (.new self [])
  | .active executionId _ =>
      .ok (.new { self with activity := .active executionId .nothing }
        [.cancelExecution executionId .cancel])

def executionTerminated (self : JobState) (executionId : ExecutionId)
    (rerun : RerunDisposition) : JobResult :=
  match self.activity with
  | .active current after =>
      if current = executionId then
        match after, rerun with
        | .nothing, .notRequested =>
            .ok (.new { self with activity := .idle } [])
        | .rerun, .definitionMissing =>
            .ok (.new { self with activity := .idle }
              [.rerunSkippedDefinitionMissing])
        | .rerun, .start next =>
            .ok (.new { self with activity := .active next .nothing }
              [.startExecution next (.rerun executionId)])
        | _, _ => .error .staleExecution
      else .error .staleExecution
  | .idle => .error .staleExecution

def transition (self : JobState) : JobActivityEvent → JobResult
  | .startRequested executionId origin => self.startRequested executionId origin
  | .rerunRequested executionIdIfIdle => self.rerunRequested executionIdIfIdle
  | .cancelRequested => self.cancelRequested
  | .executionTerminated executionId _ rerun =>
      self.executionTerminated executionId rerun

end JobState

end Susm.Domain
