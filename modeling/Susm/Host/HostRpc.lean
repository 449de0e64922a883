import Susm.Host.Sessions

/-!
# The machine host

The host keeps one registration for each registered user.  A registration has
a runner while the user's controller is kept running, and is bound to the
logon the runner was started for.  Whatever the host does besides is an effect.
-/

namespace Susm.Host

open Susm.Foundation

/-- The text of an identifier that was just made. -/
abbrev Uuid := { text : String // text ≠ "" }

structure ProcessIdentity where
  processId : UInt32
  creationTime : UInt64
  deriving DecidableEq, Repr

structure RuntimeSession where
  managerSessionId : String
  windowsSessionId : UInt32
  authenticationId : UInt64
  controllerProcessId : UInt32
  controllerCreationTime : UInt64
  deriving DecidableEq, Repr

def RuntimeSession.logon (session : RuntimeSession) : Logon :=
  ⟨session.windowsSessionId, session.authenticationId⟩

def RuntimeSession.of (managerSessionId : String) (logon : Logon)
    (identity : Option ProcessIdentity) : RuntimeSession where
  managerSessionId := managerSessionId
  windowsSessionId := logon.sessionId
  authenticationId := logon.authenticationId
  controllerProcessId := identity.elim 0 ProcessIdentity.processId
  controllerCreationTime := identity.elim 0 ProcessIdentity.creationTime

/-- The process that a record names, unless one of its numbers is zero. -/
def RuntimeSession.process (session : RuntimeSession) :
    Option ProcessIdentity :=
  if session.controllerProcessId ≠ 0 ∧ session.controllerCreationTime ≠ 0 then
    some ⟨session.controllerProcessId, session.controllerCreationTime⟩
  else none

structure EndingEvent where
  managerSessionId : String
  deriving DecidableEq, Repr

/-- A runner's thread observes its process under the names it was given. -/
structure ControllerRunner where
  managerSessionId : String
  logon : Logon
  process : Option ProcessIdentity
  deriving DecidableEq, Repr

structure Registration where
  managerSessionId : String
  windowsSessionId : Option UInt32
  authenticationId : Option UInt64
  endingEvent : Option EndingEvent
  runner : Option ControllerRunner
  recordedProcess : Option ProcessIdentity
  sessionConflict : Bool
  deriving DecidableEq, Repr

def Registration.empty : Registration :=
  ⟨"", none, none, none, none, none, false⟩

inductive Effect
  /-- The inventory was read. -/
  | sampled (users : List (Sid × Logon))
  /-- The registered users were read. -/
  | listed (sids : List Sid)
  | signaled (event : EndingEvent)
  /-- A runner was told to end, and its thread was joined. -/
  | waited (sid : Sid)
  | detached (sid : Sid)
  /-- A controller was launched, or a running one adopted. -/
  | controller (sid : Sid) (logon : Logon) (managerSessionId : String)
      (process : ProcessIdentity)
  | saved (sid : Sid) (session : RuntimeSession)
  | removed (sid : Sid)
  /-- The logon was marked as ending. -/
  | ended (logon : Logon)
  deriving DecidableEq, Repr

/-- What the system answers while one controller is started. -/
structure Attempt where
  previousEvent : Bool
  uuid : Uuid
  endingEvent : Bool
  duplicated : Bool
  localAppData : Bool
  /-- The recorded process still runs in the session. -/
  existing : Bool
  /-- The user's installation names a controller that may be launched. -/
  selected : Bool
  process : Option ProcessIdentity
  spawned : Bool
  deriving DecidableEq, Repr

/-! ## Runners -/

namespace ControllerRunner

/-- What is left to do once it is settled which process there is. -/
def observed (sid : Sid) (logon : Logon) (managerSessionId : String)
    (initial : Option ProcessIdentity) (attempt : Attempt) :
    Option ControllerRunner × List Effect :=
  (if attempt.spawned then some ⟨managerSessionId, logon, initial⟩ else none,
    initial.toList.map (Effect.controller sid logon managerSessionId) ++
      [.saved sid (.of managerSessionId logon initial)])

def fromToken (sid : Sid) (logon : Logon) (managerSessionId : String)
    (adopted : Option ProcessIdentity) (attempt : Attempt) :
    Option ControllerRunner × List Effect :=
  if attempt.duplicated = false ∨ attempt.localAppData = false then (none, [])
  else
    match adopted.filter fun _ => attempt.existing with
    | some process =>
        observed sid logon managerSessionId (some process) attempt
    | none =>
        if attempt.selected then
          observed sid logon managerSessionId attempt.process attempt
        else (none, [])

def endSession (sid : Sid) (runner : ControllerRunner) : List Effect :=
  .waited sid ::
    if runner.process.isSome then
      [.saved sid (.of runner.managerSessionId runner.logon none)]
    else []

/-- The thread reports another process, or that there is none any more. -/
def observe (sid : Sid) (process : Option ProcessIdentity)
    (runner : ControllerRunner) : ControllerRunner × List Effect :=
  ({ runner with process },
    (if process = runner.process then [] else
      process.toList.map
        (Effect.controller sid runner.logon runner.managerSessionId)) ++
      [.saved sid (.of runner.managerSessionId runner.logon process)])

end ControllerRunner

/-! ## Registrations -/

def parsesWindows (sid : Sid) : Bool :=
  ['S', '-'].isPrefixOf sid.toList &&
    !sid.toList.any fun character => character ∈ ['\\', '/', '\x00']

namespace Registration

def runtimeSession (registration : Registration) : Option RuntimeSession := do
  let windowsSessionId ← registration.windowsSessionId
  let authenticationId ← registration.authenticationId
  return .of registration.managerSessionId
    ⟨windowsSessionId, authenticationId⟩
    ((registration.runner.bind ControllerRunner.process).or
      registration.recordedProcess)

def persistRuntime (sid : Sid) (registration : Registration) : List Effect :=
  registration.runtimeSession.toList.map (Effect.saved sid)

def endRegistration (sid : Sid) (registration : Registration) :
    Registration × List Effect :=
  ({ registration with
      managerSessionId := ""
      windowsSessionId := none
      authenticationId := none
      endingEvent := none
      runner := none
      recordedProcess := none },
    registration.endingEvent.toList.map Effect.signaled ++
      registration.runner.toList.flatMap (ControllerRunner.endSession sid) ++
      [.removed sid])

def signalPreviousSession (attempt : Attempt) (registration : Registration) :
    List Effect :=
  if registration.managerSessionId ≠ "" ∧ attempt.previousEvent then
    [.signaled ⟨registration.managerSessionId⟩]
  else []

def forgetPrevious (sid : Sid) (logon : Logon) (attempt : Attempt)
    (registration : Registration) : Registration × List Effect :=
  if registration.authenticationId = some logon.authenticationId then
    (registration, [])
  else
    ({ registration with
        managerSessionId := ""
        windowsSessionId := none
        recordedProcess := none },
      registration.signalPreviousSession attempt ++ [.removed sid])

def nextId (attempt : Attempt) (registration : Registration) : String :=
  if registration.managerSessionId = "" then attempt.uuid
  else registration.managerSessionId

def started (managerSessionId : String) (logon : Logon)
    (runner : ControllerRunner) (registration : Registration) :
    Registration :=
  { registration with
    managerSessionId
    windowsSessionId := some logon.sessionId
    authenticationId := some logon.authenticationId
    endingEvent := some ⟨managerSessionId⟩
    runner := some runner }

def launch (sid : Sid) (logon : Logon) (attempt : Attempt)
    (registration : Registration) : Registration × List Effect :=
  if attempt.endingEvent = false then (registration, [])
  else
    let managerSessionId := registration.nextId attempt
    let taken := { registration with recordedProcess := none }
    match ControllerRunner.fromToken sid logon managerSessionId
        registration.recordedProcess attempt with
    | (none, effects) => (taken, effects)
    | (some runner, effects) =>
        let registration := taken.started managerSessionId logon runner
        (registration, effects ++ registration.persistRuntime sid)

def start (sid : Sid) (logon : Logon) (attempt : Attempt)
    (registration : Registration) : Registration × List Effect :=
  if parsesWindows sid then
    let (registration, forgotten) :=
      registration.forgetPrevious sid logon attempt
    let (registration, launched) := registration.launch sid logon attempt
    (registration, forgotten ++ launched)
  else (registration, [])

def settle (sid : Sid) (session : Option Logon) (attempt : Attempt)
    (registration : Registration) : Registration × List Effect :=
  if registration.sessionConflict then
    (registration, registration.persistRuntime sid)
  else
    match registration.runner.isSome, session with
    | false, some logon => registration.start sid logon attempt
    | true, none => registration.endRegistration sid
    | true, some logon =>
        if registration.windowsSessionId = some logon.sessionId ∧
            registration.authenticationId = some logon.authenticationId then
          (registration, registration.persistRuntime sid)
        else registration.endRegistration sid
    | false, none => (registration, [])

def restored (saved : Option RuntimeSession) : Registration where
  managerSessionId := saved.elim "" RuntimeSession.managerSessionId
  windowsSessionId := saved.map RuntimeSession.windowsSessionId
  authenticationId := saved.map RuntimeSession.authenticationId
  endingEvent := none
  runner := none
  recordedProcess := saved.bind RuntimeSession.process
  sessionConflict := false

end Registration

/-! ## The host -/

structure HostRpc where
  controllers : OrderedMap Sid Registration
  endingWindowsSessions : Finset Logon

/-- What a reconciliation reads, and how each start goes. -/
structure Reconciliation where
  entries : Option (List SessionInfo)
  registered : Option (List Sid)
  attempts : Sid → Attempt

structure HostStatus where
  registered : Bool
  controllerRunning : Bool
  managerSessionId : String
  controllerProcessId : UInt32
  message : String
  deriving DecidableEq, Repr

inductive Refusal
  | internal
  | failedPrecondition
  deriving DecidableEq, Repr

namespace HostRpc

def known (registered : List Sid)
    (controllers : OrderedMap Sid Registration) :
    OrderedMap Sid Registration :=
  registered.foldl (fun map sid => map.insertMissing sid .empty)
    (controllers.retain fun sid _ => sid ∈ registered)

def session (active : ActiveSessions) (ending : Finset Logon) (sid : Sid) :
    Option Logon :=
  (active.sessions.lookup sid).filter fun logon => logon ∉ ending

def visit (active : ActiveSessions) (ending : Finset Logon)
    (attempts : Sid → Attempt) (sid : Sid) (registration : Registration) :
    Registration × List Effect :=
  { registration with sessionConflict := sid ∈ active.conflicts }.settle sid
    (session active ending sid) (attempts sid)

def reconcile (input : Reconciliation) (host : HostRpc) :
    HostRpc × List Effect :=
  match input.entries with
  | none => (host, [])
  | some entries =>
      let active := activeSessions entries
      let ending := host.endingWindowsSessions.filter (· ∈ active.logons)
      match input.registered with
      | none =>
          ({ host with endingWindowsSessions := ending },
            [.sampled (users entries)])
      | some registered =>
          let controllers := known registered host.controllers
          let visit := visit active ending input.attempts
          (⟨controllers.mapValues fun sid registration =>
              (visit sid registration).1, ending⟩,
            .sampled (users entries) :: .listed registered ::
              controllers.entries.flatMap fun entry =>
                (visit entry.1 entry.2).2)

/-- The registrations at the start, before the first reconciliation. -/
def restored (registered : List Sid)
    (runtime : OrderedMap Sid RuntimeSession) : HostRpc where
  controllers := registered.foldl (fun map sid =>
    map.insert sid (.restored (runtime.lookup sid))) .empty
  endingWindowsSessions := ∅

def new (registered : List Sid) (runtime : OrderedMap Sid RuntimeSession)
    (input : Reconciliation) : HostRpc × List Effect :=
  let unregistered := runtime.keys.filter (· ∉ registered)
  let (host, effects) := (restored registered runtime).reconcile input
  (host, .listed registered :: unregistered.map Effect.removed ++ effects)

/-- The runners are let go; their controllers run on. -/
def detachAll (host : HostRpc) : HostRpc × List Effect :=
  ({ host with controllers := .empty },
    host.controllers.entries.flatMap fun entry =>
      entry.2.persistRuntime entry.1 ++
        entry.2.runner.toList.map fun _ => .detached entry.1)

def endAll (host : HostRpc) : HostRpc × List Effect :=
  ({ host with
      controllers := host.controllers.mapValues fun sid registration =>
        (registration.endRegistration sid).1 },
    host.controllers.entries.flatMap fun entry =>
      (entry.2.endRegistration entry.1).2)

def endedLogon (sessionId : UInt32) (registration : Registration) :
    Option Logon :=
  if registration.windowsSessionId = some sessionId then
    registration.authenticationId.map (⟨sessionId, ·⟩)
  else none

def endWindowsSession (sessionId : UInt32) (host : HostRpc) :
    HostRpc × List Effect :=
  let visit := fun (sid : Sid) (registration : Registration) =>
    if registration.windowsSessionId = some sessionId then
      registration.endRegistration sid
    else (registration, [])
  let endedLogons := host.controllers.entries.filterMap fun entry =>
    endedLogon sessionId entry.2
  (⟨host.controllers.mapValues fun sid registration =>
      (visit sid registration).1,
    host.endingWindowsSessions ∪ endedLogons.toFinset⟩,
    (host.controllers.entries.flatMap fun entry =>
      (visit entry.1 entry.2).2) ++ endedLogons.map Effect.ended)

def status (sid : Sid) (host : HostRpc) : HostStatus :=
  match host.controllers.lookup sid with
  | some registration =>
      let processId := (registration.runner.bind
        ControllerRunner.process).elim 0 ProcessIdentity.processId
      { registered := true
        controllerRunning := processId ≠ 0
        managerSessionId := registration.managerSessionId
        controllerProcessId := processId
        message := if registration.sessionConflict then
          "multiple eligible Windows sessions are active for this user"
        else "" }
  | none => ⟨false, false, "", 0, ""⟩

end HostRpc

namespace Registration

def startNew (sid : Sid) (session : Option Logon) (attempt : Attempt)
    (registration : Registration) :
    Registration × List Effect × Option Refusal :=
  match session with
  | none => (registration, [], none)
  | some logon =>
      if attempt.endingEvent = false then
        (registration, [], some .internal)
      else
        match ControllerRunner.fromToken sid logon attempt.uuid none
            attempt with
        | (none, effects) =>
            (registration, effects, some .failedPrecondition)
        | (some runner, effects) =>
            let registration :=
              registration.started attempt.uuid logon runner
            (registration, effects ++ registration.persistRuntime sid, none)

def register (sid : Sid) (entries : Option (List SessionInfo))
    (attempt : Attempt) (registration : Registration) :
    Registration × List Effect × Option Refusal :=
  if registration.runner.isSome then (registration, [], none)
  else
    match entries with
    | none => (registration, [], some .internal)
    | some entries =>
        let active := activeSessions entries
        let conflict : Bool := sid ∈ active.conflicts
        let session := if conflict then none
          else active.sessions.lookup sid
        let (registration, effects, refusal) :=
          { registration with sessionConflict := conflict }.startNew sid
            session attempt
        (registration, .sampled (users entries) :: effects, refusal)

end Registration

/-- The caller is entered in the registry first, which may fail. -/
def HostRpc.registerUser (sid : Sid) (added : Bool)
    (entries : Option (List SessionInfo)) (attempt : Attempt)
    (host : HostRpc) : HostRpc × List Effect × Except Refusal HostStatus :=
  if added then
    let registration := (host.controllers.lookup sid).getD .empty
    let (registration, effects, refusal) :=
      registration.register sid entries attempt
    let host := { host with
      controllers := host.controllers.insert sid registration }
    (host, effects, refusal.elim (.ok (host.status sid)) .error)
  else (host, [], .error .internal)

end Susm.Host
