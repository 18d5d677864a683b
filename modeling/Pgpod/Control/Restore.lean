import Pgpod.Control.Apply

/-!
# `restore`: a cluster out of another's repository

The backup is chosen from what the repository says of itself; the rest is an
apply whose first start is a recovery.
-/

namespace Pgpod

open Effect

/-- What a restore is run with besides: how an instant is shown to an operator, and what the
clock shows each time it is read. -/
structure RestoreHost extends Installation where
  displayUtc : DateTime → String
  clock : Nat → DateTime

structure RestoreReport where
  sourceCluster : String
  targetCluster : String
  backupLabel : String
  targetTime : Option String
  instances : List InstanceSummary

namespace Control

def noBackup (H : RestoreHost) (source : ClusterId) (info : StanzaInfo) : Error :=
  -- the clock has been read for the choice before
  let available := ", ".intercalate (info.backupsOldestFirst.zipIdx.map fun (b, k) =>
    b.label ++ " (ended " ++ H.displayUtc (b.endedAt (H.clock (info.backup.length + k))) ++ ")")
  .invalid ("no backup of " ++ source.name ++ " finished at or before this target.\nBackups: " ++
    (if available.isEmpty then "none — take one with `pgpod backup`" else available) ++
    "\nA target earlier than the oldest backup cannot be reached.")

def otherMajor (source target : ClusterId) (label backupV currentV : String) : Error :=
  .invalid ("backup " ++ label ++ " is PostgreSQL " ++ backupV ++ ", but " ++ source.name ++
    " runs " ++ currentV ++ " now — its repository has been through a major upgrade. PostgreSQL " ++
    "cannot read a data directory from an older major version, so restoring this backup needs a " ++
    backupV ++ " image:\n\n  pgpod restore " ++ source.name ++ " --as " ++ target.name ++
    " --image <a PostgreSQL " ++ backupV ++ " image>\n\nA target after the upgrade restores onto " ++
    currentV ++ " with no --image.")

/-- Which PostgreSQL can read the backup: its version against the newest of the stanza.  An
unknown version is let through, and so is every image that was asked for. -/
def checkVersion (source target : ClusterId) (image : Option String) (info : StanzaInfo)
    (chosen : Backup) : Except Error Unit :=
  match image, info.versionOf chosen, info.currentVersion with
  | none, some backupV, some currentV =>
    if backupV ≠ currentV then .error (otherMajor source target chosen.label backupV currentV)
    else .ok ()
  | _, _, _ => .ok ()

/-- The image the restored cluster is given. -/
def restoredImage (m : ClusterManifest) (image : Option String) : String :=
  match image with
  | some i => Text.trim i
  | none => m.spec.imageName

def restoredManifest (m : ClusterManifest) (target : ClusterId) (image : Option String) :
    ClusterManifest :=
  { m with
    metadata := { m.metadata with name := target.name }
    spec := { m.spec with imageName := restoredImage m image } }

def recoveryOf (H : RestoreHost) (source : ClusterId) (m : ClusterManifest) (chosen : Backup)
    (atTime : Option DateTime) : RecoveryBootstrap where
  sourceStanza := source.name
  backupLabel := some chosen.label
  targetTime := atTime.map H.rfc3339
  destinations := m.spec.backup.destinations.map Destination.sanitized

/-- The half after the repository has answered. -/
def restoreFrom (H : RestoreHost) (source target : ClusterId) (atTime : Option DateTime)
    (image : Option String) (wait : Duration) (m : ClusterManifest) (info : StanzaInfo) :
    CtlTask RestoreReport :=
  match info.backupForTarget H.clock atTime with
  | none => Task.throw (noBackup H source info)
  | some chosen => do
    Task.ofExcept (checkVersion source target image info chosen)
    let report ← applyWithBootstrap H.toHost (restoredManifest m target image)
      (.recovery (recoveryOf H source m chosen atTime)) ⟨wait, false⟩
    pure
      { sourceCluster := source.name
        targetCluster := target.name
        backupLabel := chosen.label
        targetTime := atTime.map H.rfc3339
        instances := report.instances }

/-- Restore `source` into a new cluster, optionally at a point in time. -/
def restore (H : RestoreHost) (source target : ClusterId) (atTime : Option DateTime)
    (image : Option String) (wait : Duration) : CtlTask RestoreReport :=
  if source = target then
    invalidOf (source.name ++ " cannot be restored over itself — give --as a new cluster name")
  else do
    match ← registry (.cluster target) with
    | some _ => invalidOf (target.name ++ " already exists — delete it first, or pick another " ++
        "--as name")
    | none => do
      let record ← requireCluster source
      if !record.manifest.spec.backup.isEnabled then
        invalidOf (source.name ++ " has no spec.backup.destinations, so there is nothing to " ++
          "restore from")
      else do
        match ← stanzaInfo H.toInstallation source with
        | none => invalidOf (source.name ++ " has no pgbackrest repository yet")
        | some info => restoreFrom H source target atTime image wait record.manifest info

end Control

end Pgpod
