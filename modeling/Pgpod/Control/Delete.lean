import Pgpod.Control.PoolerApply

/-!
# `delete`: the containers of a cluster, and with `--purge` its data

Without `--purge` the volumes and the rows stay, and a later apply adopts them.
-/

namespace Pgpod

open Effect

namespace Control

def stillFronted (cluster : ClusterId) (poolers : List String) : Error :=
  .invalid ("cluster " ++ cluster.name ++ " is still fronted by pooler " ++
    ", ".intercalate poolers ++ ", and --purge destroys its data. Delete the pooler first " ++
    "(`pgpod pooler delete " ++ poolers.headD "" ++ "`), or drop --purge to keep the volumes.")

/-- Remove the containers that are there; answers their names. -/
def removeContainers : List InstanceRecord → CtlTask (List String)
  | [] => pure []
  | row :: rest => do
    match ← podman (.probe row.containerName) with
    | some _ => do
      ignore (podman (.stop row.containerName (.fromSecs 30)))
      podman (.remove row.containerName)
      let others ← removeContainers rest
      pure (row.containerName :: others)
    | none => removeContainers rest

def removeVolumes : List InstanceRecord → CtlTask Unit
  | [] => pure ()
  | row :: rest => do
    podman (.removeVolume row.volumeName)
    removeVolumes rest

/-- A secret that cannot be removed is left there. -/
def removeSecrets : List String → CtlTask Unit
  | [] => pure ()
  | name :: rest => do
    ignore (podman (.removeSecret name))
    removeSecrets rest

/-- The rows say that the operator took the instances down. -/
def stopRows : List InstanceRecord → CtlTask Unit
  | [] => pure ()
  | row :: rest => do
    registry (.putInstance { row with phase := .stopped, containerId := none })
    stopRows rest

def purgeCluster (cluster : ClusterId) : CtlTask Unit := do
  removeSecrets (SecretNames.forCluster cluster).all
  removeSecrets [Names.poolerLookupSecret cluster]
  registry (.deleteCluster cluster)

def stopCluster (cluster : ClusterId) (rows : List InstanceRecord) : CtlTask Unit := do
  stopRows rows
  registry (.setClusterPhase cluster .stopped)

/-- Remove a cluster's containers, and its volumes only if `purge`. -/
def delete (cluster : ClusterId) (purge : Bool) : CtlTask DeleteReport := do
  let record ← requireCluster cluster
  let rows ← registry (.instances cluster)
  let poolers ← registry (.poolersForCluster cluster)
  let fronting := poolers.map PoolerRecord.name
  if purge && !fronting.isEmpty then Task.throw (stillFronted cluster fronting)
  else do
    let containersRemoved ← removeContainers rows
    Task.when purge (removeVolumes rows)
    ignore (podman (.removeNetwork cluster.networkName))
    if purge then purgeCluster cluster else stopCluster cluster rows
    registry (.recordEvent record.name none "info"
      (if purge then "cluster deleted and volumes purged" else "cluster deleted, volumes retained"))
    let volumes := rows.map InstanceRecord.volumeName
    pure
      { cluster := cluster.name
        containersRemoved
        volumesRemoved := if purge then volumes else []
        volumesRetained := if purge then [] else volumes
        poolers := fronting }

end Control

end Pgpod
