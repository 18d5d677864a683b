import Pgpod.Control.Operations

/-!
# Waiting for an instance, and holding the poolers in front of it
-/

namespace Pgpod

open Effect

namespace Control

def invalidOf {α : Type} (why : String) : CtlTask α := Task.throw (.invalid why)

/-! ## Registry rows -/

def requireCluster (cluster : ClusterId) : CtlTask ClusterRecord := do
  match ← registry (.cluster cluster) with
  | some record => pure record
  | none => Task.throw (.registry ("cluster " ++ cluster.name ++ " is not known to pgpod"))

def instanceRow (cluster : ClusterId) (ordinal : UInt32) : CtlTask (Option InstanceRecord) := do
  let rows ← registry (.instances cluster)
  pure (rows.find? fun r => r.ordinal = ordinal)

def recordEvent (cluster : ClusterId) (ordinal : Option UInt32) (level message : String) :
    CtlTask Unit :=
  registry (.recordEvent cluster.name ordinal level message)

/-! ## Instances -/

/-- The container of an instance that is up. -/
def runningContainer (inst : InstanceId) : CtlTask String := do
  match ← podman (.probe inst.containerName) with
  | some p =>
    if p.running then pure inst.containerName
    else invalidOf ("instance " ++ inst.toText ++ " is not running (state: " ++
      p.status.getD "unknown" ++ ")")
  | none => invalidOf ("instance " ++ inst.toText ++ " has no container — has it been created?")

def logsOrWhyNot (ref : String) : CtlTask Logs := do
  match ← Task.attempt (podman (.logs ref)) with
  | .ok logs => pure logs
  | .error e => pure ⟨"<logs unavailable: " ++ e.toString ++ ">", []⟩

/-- The "did not come up" error, with the container's logs attached. -/
def notReady {α : Type} (inst : InstanceId) (timeout : Duration) (last : String) : CtlTask α := do
  let logs ← logsOrWhyNot inst.containerName
  Task.throw (.notReady inst.toText timeout.asSecs
    ("last probe: " ++ last ++ "\n\ncontainer logs:\n" ++ logs.text))

def printed (out : ExecOutput) : String := Text.trim out.stdout ++ Text.trim out.stderr

/-- Record that an instance accepts connections. -/
def markRunning (inst : InstanceId) : CtlTask Unit := do
  match ← instanceRow inst.cluster inst.ordinal with
  | some row => registry (.putInstance { row with phase := .running })
  | none => pure ()

/-- Poll until the instance accepts connections, its container exits, or the time is up. -/
def pollReady (inst : InstanceId) (timeout : Duration) : Nat → String → CtlTask Unit
  | 0, last => notReady inst timeout last
  | rounds + 1, last => do
    let time ← Task.perform (.host .beforeDeadline)
    if !time then notReady inst timeout last
    else
      let again (last : String) : CtlTask Unit := do
        let probe ← podman (.probe inst.containerName)
        if probe.any fun p => !p.running then notReady inst timeout last
        else pollReady inst timeout rounds last
      match ← Task.attempt (podman (.exec inst.containerName .pgIsReady)) with
      | .ok out => if out.success then markRunning inst else again (printed out)
      | .error e => again e.toString

def waitReady (inst : InstanceId) (timeout : Duration) : CtlTask Unit :=
  pollReady inst timeout timeout.polls ""

def neverWritable {α : Type} (inst : InstanceId) (timeout : Duration) (last : String) :
    CtlTask α :=
  Task.throw (.notReady inst.toText timeout.asSecs ("never left recovery: " ++ last))

def pollWritable (inst : InstanceId) (timeout : Duration) : Nat → String → CtlTask Unit
  | 0, last => neverWritable inst timeout last
  | rounds + 1, last => do
    let time ← Task.perform (.host .beforeDeadline)
    if !time then neverWritable inst timeout last
    else
      let again (last : String) : CtlTask Unit := do
        let probe ← podman (.probe inst.containerName)
        if probe.any fun p => !p.running then neverWritable inst timeout last
        else pollWritable inst timeout rounds last
      match ← Task.attempt (podman (.exec inst.containerName .isInRecovery)) with
      | .ok out =>
        if out.success && Text.trim out.stdout = "f" then pure ()
        else if out.success then again "still in recovery"
        else again (printed out)
      | .error e => again e.toString

/-- Wait until the instance is out of recovery. -/
def waitWritable (inst : InstanceId) (timeout : Duration) : CtlTask Unit :=
  pollWritable inst timeout timeout.polls ""

/-! ## The hold -/

/-- Run one control verb inside a pooler container. -/
def poolerControl (pooler : PoolerId) (verb : String) (args : List String) : CtlTask String := do
  let out ← podman (.exec pooler.containerName (.poolerControl verb args))
  if out.success then pure out.stdout
  else invalidOf ("pooler " ++ pooler.name ++ ": " ++ Text.trim out.stdout ++ " " ++
    Text.trim out.stderr)

def poolerPause (pooler : PoolerId) (cluster : ClusterId) : CtlTask Unit := do
  let _ ← poolerControl pooler "pause" [cluster.asStr]
  pure ()

def poolerResume (pooler : PoolerId) (cluster : ClusterId) : CtlTask Unit := do
  let _ ← poolerControl pooler "resume" [cluster.asStr]
  pure ()

namespace PoolerHold

/-- Best-effort release, for the failure paths. -/
def release (cluster : ClusterId) : List PoolerId → CtlTask Unit
  | [] => pure ()
  | id :: rest => do
    ignore (poolerResume id cluster)
    release cluster rest

def pauseEach (cluster : ClusterId) : List PoolerRecord → List PoolerId → CtlTask (List PoolerId)
  | [], held => pure held
  | record :: rest, held => do
    let id ← Task.ofExcept ((PoolerId.new record.name).mapError fun e =>
      Error.invalid ("stored pooler name: " ++ e.toString))
    match ← Task.attempt (poolerPause id cluster) with
    | .ok () => pauseEach cluster rest (held ++ [id])
    | .error e => do
      release cluster held
      invalidOf ("could not hold pooler " ++ record.name ++ " for " ++ cluster.name ++
        ", so the switchover would drop connections it promised to keep: " ++ e.toString)

/-- Pause every pooler fronting the cluster. -/
def acquire (cluster : ClusterId) : CtlTask (List PoolerId) := do
  let poolers ← registry (.poolersForCluster cluster)
  let held ← pauseEach cluster poolers []
  recordEvent cluster none "info" ("held " ++ toString held.length ++ " pooler(s)")
  pure held

/-- Recycle backends, then release. -/
def releaseAfterRecreate (cluster : ClusterId) : List PoolerId → CtlTask Unit
  | [] => pure ()
  | id :: rest => do
    let _ ← poolerControl id "reconnect" [cluster.asStr]
    poolerResume id cluster
    releaseAfterRecreate cluster rest

end PoolerHold

end Control

end Pgpod
