import Pgpod.Control.PoolerApply

/-!
# Boot recovery

`resumeWith` puts back what was running and nothing else.  What can go wrong for
one container is an outcome in the report; the registry's readers are not asked
that way, and the error of one of them ends the whole.
-/

namespace Pgpod

open Effect

namespace Control

/-! ## What is decided about one container -/

inductive ResumeAction
  | adopted
  | started
  | wouldStart
  | skipped
  | missing
  | failed
deriving DecidableEq, Repr

inductive Decision
  | adopt
  | start
  | skip (why : String)
  | missing
deriving DecidableEq, Repr

/-- Why an instance phase forbids a restart, phrased for an operator. -/
def whyBlocked : InstancePhase → String
  | .fenced => "fenced during a failover — only an explicit rejoin or rebuild clears this"
  | .needsRebuild => "pg_rewind failed; it needs `pgpod rebuild`"
  | .stopped => "deliberately stopped — `pgpod apply -f <manifest>` brings it back"
  | .terminated => "terminated"
  | _ => "not in a restartable phase"

/-- The whole of boot recovery's judgement: the cluster's phase, then the instance's own, and
only then what podman reports. -/
def decideContainer (cluster : ClusterPhase) (inst : InstancePhase)
    (probe : Option ContainerProbe) : Decision :=
  match cluster.skipReason with
  | some why => .skip why
  | none =>
    if inst.blocksRestart then .skip (whyBlocked inst)
    else match probe with
      | none => .missing
      | some p => if p.running then .adopt else .start

/-! ## Reports -/

structure UnitResume where
  name : String
  action : ResumeAction
  detail : Option String
deriving DecidableEq

structure ClusterResume where
  cluster : String
  phase : String
  instances : List UnitResume
  skipped : Option String
deriving DecidableEq

structure ResumeReport where
  clusters : List ClusterResume
  poolers : List UnitResume
  dryRun : Bool
deriving DecidableEq

structure ResumeOptions where
  wait : Duration
  dryRun : Bool
deriving DecidableEq

def DEFAULT_RESUME_WAIT : Duration := .fromSecs 600

def countOf (units : List UnitResume) (action : ResumeAction) : String :=
  toString (units.filter fun u => u.action = action).length

def resumeCounts (units : List UnitResume) : String :=
  (if units.any fun u => u.action = .wouldStart then countOf units .wouldStart ++ " would start, "
    else "") ++
  countOf units .adopted ++ " adopted, " ++ countOf units .started ++ " started, " ++
    countOf units .skipped ++ " skipped, " ++ countOf units .missing ++ " missing, " ++
    countOf units .failed ++ " failed"

def needsAttention (u : UnitResume) : Bool := u.action = .missing || u.action = .failed

/-! ## One container -/

/-- A recorded port that can no longer be bound. -/
def portProblem : Option UInt16 → CtlTask (Option String)
  | none => pure none
  | some port => do
    match ← Task.perform (.host (.portAvailable port)) with
    | .ok () => pure none
    | .error fact => pure (some fact)

def startContainer (name containerName : String) (hostPort : Option UInt16) (dryRun : Bool) :
    CtlTask UnitResume := do
  let problem ← portProblem hostPort
  if dryRun then
    pure ⟨name, .wouldStart, problem.map fun d => "— but " ++ d ++ ", so it would not start"⟩
  else match problem with
    | some fact => pure ⟨name, .failed, some (fact ++ "; the container was not started. Free the " ++
        "port and resume again, or re-apply the manifest to move it.")⟩
    | none => do
      match ← Task.attempt (podman (.start containerName)) with
      | .ok () => pure ⟨name, .started, none⟩
      | .error e => pure ⟨name, .failed, some ("start failed: " ++ e.toString)⟩

/-- Decide and act on one container, instance or pooler alike. -/
def resumeContainer (name containerName : String) (clusterPhase : ClusterPhase)
    (unitPhase : InstancePhase) (hostPort : Option UInt16) (dryRun : Bool) :
    CtlTask UnitResume := do
  match ← Task.attempt (podman (.probe containerName)) with
  | .error e => pure ⟨name, .failed, some ("could not ask podman about it: " ++ e.toString)⟩
  | .ok probe => match decideContainer clusterPhase unitPhase probe with
    | .adopt => pure ⟨name, .adopted, none⟩
    | .skip why => pure ⟨name, .skipped, some why⟩
    | .missing => pure ⟨name, .missing, some ("podman has no container " ++ containerName ++
        ". Its volume may still hold the data — `pgpod apply -f <manifest>` recreates the " ++
        "container around it.")⟩
    | .start => startContainer name containerName hostPort dryRun

/-! ## Clusters -/

/-- Record a boot-recovery event; bookkeeping does not fail the recovery. -/
def recordResumeEvent (cluster level detail : String) : CtlTask Unit :=
  ignore (registry (.recordEvent cluster none level detail))

/-- The primary first, then the standbys in order. -/
def resumeOrder (rows : List InstanceRecord) : List InstanceRecord :=
  rows.mergeSort fun a b => decide (a.ordinal ≤ b.ordinal)

/-- Wait for a started instance; one that is slow must not stop the rest. -/
def awaitStarted (inst : InstanceId) (options : ResumeOptions) (outcome : UnitResume) :
    CtlTask Unit :=
  Task.when (outcome.action = .started) do
    match ← Task.attempt (waitReady inst options.wait) with
    | .ok () => pure ()
    | .error e =>
      recordResumeEvent inst.cluster.name "warn"
        (inst.toText ++ " started but not ready: " ++ e.toString)

def resumeInstances (cluster : ClusterId) (phase : ClusterPhase) (options : ResumeOptions) :
    List InstanceRecord → CtlTask (List UnitResume)
  | [] => pure []
  | row :: rest => do
    let id := cluster.inst row.ordinal
    let outcome ← resumeContainer id.toText row.containerName phase row.phase (some row.hostPort)
      options.dryRun
    awaitStarted id options outcome
    let outcomes ← resumeInstances cluster phase options rest
    pure (outcome :: outcomes)

def resumeCluster (name storedPhase : String) (options : ResumeOptions) :
    CtlTask ClusterResume := do
  let phase := ClusterPhase.parseLenient storedPhase
  match ClusterId.new name with
  | .error e => pure ⟨name, phase.asStr, [],
      some ("unusable cluster name in the registry: " ++ e.toString)⟩
  | .ok cluster => match phase.skipReason with
    | some why => do
      Task.when (!options.dryRun) <|
        recordResumeEvent name (if phase = .stopped then "info" else "warn")
          ("boot recovery skipped this cluster: " ++ why)
      pure ⟨name, phase.asStr, [], some why⟩
    | none => do
      let rows ← registry (.instances cluster)
      let instances ← resumeInstances cluster phase options (resumeOrder rows)
      Task.when (!instances.isEmpty && !options.dryRun) <|
        recordResumeEvent name (if instances.any needsAttention then "warn" else "info")
          ("boot recovery: " ++ resumeCounts instances)
      pure ⟨name, phase.asStr, instances, none⟩

def resumeClusters (options : ResumeOptions) : List ClusterRecord → CtlTask (List ClusterResume)
  | [] => pure []
  | record :: rest => do
    let cluster ← resumeCluster record.name record.phase options
    let clusters ← resumeClusters options rest
    pure (cluster :: clusters)

/-! ## Poolers -/

/-- A started pooler is checked: it renders its whole configuration on every start. -/
def checkPoolerUp (name : String) (options : ResumeOptions) (outcome : UnitResume) :
    CtlTask UnitResume :=
  match outcome.action, PoolerId.new name with
  | .started, .ok id => do
    match ← Task.attempt (waitPoolerReady id options.wait) with
    | .ok () => pure outcome
    | .error e => pure { outcome with
        action := .failed
        detail := some ("started, but it did not come up: " ++ e.toString ++ "\n\nA pooler " ++
          "renders its config on every start and keeps nothing durable, so `pgpod apply -f " ++
          "<pooler manifest>` recreates it safely.") }
  | _, _ => pure outcome

def resumePoolers (options : ResumeOptions) : List PoolerRecord → CtlTask (List UnitResume)
  | [] => pure []
  | record :: rest => do
    let outcome ← resumeContainer record.name record.containerName
      (ClusterPhase.parseLenient record.phase) .running (some record.hostPort) options.dryRun
    let outcome ← checkPoolerUp record.name options outcome
    let outcomes ← resumePoolers options rest
    pure (outcome :: outcomes)

/-- Bring back the clusters and poolers that were running. -/
def resumeWith (options : ResumeOptions) : CtlTask ResumeReport := do
  let records ← registry .listClusters
  let clusters ← resumeClusters options records
  let poolerRecords ← registry .listPoolers
  let poolers ← resumePoolers options poolerRecords
  pure ⟨clusters, poolers, options.dryRun⟩

end Control

end Pgpod
