import Pgpod.Agent.Instance

/-!
# The upgrade jobs: `upgrade stage`, `upgrade probe` and `upgrade run`

`stage` runs in the old image beside a running instance, `probe` in the new one,
and `run` in the new one with the instance stopped.  Only `run` touches data: it
builds the upgraded cluster beside PGDATA and swaps the two with two renames.
-/

namespace Pgpod

open Effect

namespace Agent

namespace Upgrade

def pgConfig (flag : String) : AgentTask String := do
  let out ← context "failed to run pg_config — is it on PATH in this image?"
    (Task.ask (.pgConfig flag))
  if out.status.success then pure (Text.trim ("\n".intercalate out.stdout))
  else bail ("pg_config " ++ flag ++ " failed (" ++ out.status.text ++ "): " ++ Text.trim out.stderr)

def readPgVersion (dir : Dir) : AgentTask String := do
  let path := dir.path ++ "/" ++ Tree.PG_VERSION
  let raw ← context ("failed to read " ++ path ++ " — is this a data directory?")
    (Task.ask (.readFile dir Tree.PG_VERSION))
  match majorLabel ("\n".intercalate raw) with
  | some version => pure version
  | none => bail (path ++ " does not name a version: " ++ Text.debug ("\n".intercalate raw))

def isCluster (dir : Dir) : AgentTask Bool := do
  let version ← Task.perform (.isFile dir Tree.PG_VERSION)
  let control ← Task.perform (.isFile dir Tree.PG_CONTROL)
  pure (version && control)

def imageVersion : AgentTask String := do
  let raw ← pgConfig "--version"
  match majorLabel raw with
  | some version => pure version
  | none => bail "pg_config reported no version this agent understands"

/-- The path a source gets inside the staging root. -/
def mirrored (source : String) : String :=
  Container.UPGRADE_STAGE_DIR ++ "/" ++ (Text.stripPrefix source "/").getD source

/-! ## stage and probe -/

/-- Copy this image's PostgreSQL installation into the instance volume. -/
def stage : AgentTask Unit := do
  let bindir ← pgConfig "--bindir"
  let sharedir ← pgConfig "--sharedir"
  let pkglibdir ← pgConfig "--pkglibdir"
  let version ← imageVersion
  let dataVersion ← readPgVersion .pgdata
  if dataVersion ≠ version then
    bail ("this image carries PostgreSQL " ++ version ++ ", but the cluster in the volume is " ++
      dataVersion ++ ". The staging image must be the one the cluster is running — upgrade " ++
      "from the image it is on.")
  else
    let leftover ← Task.perform (.dirExists .upgradeStage)
    Task.when leftover <|
      context ("failed to clear " ++ Dir.upgradeStage.path) (Task.ask (.removeDirAll .upgradeStage))
    context ("failed to create " ++ Dir.upgradeStage.path) (Task.ask (.createDirAll .upgradeStage))
    let staged ← Task.ask (.copyInstallation [bindir, sharedir, pkglibdir])
    Task.perform (.print (.stage
      { version
        bindir := mirrored bindir
        sharedir := mirrored sharedir
        pkglibdir := mirrored pkglibdir
        libDirs := staged.libDirs ++ [mirrored pkglibdir]
        files := staged.files
        bytes := staged.bytes }))

/-- Report what PostgreSQL this image carries, changing nothing. -/
def probe : AgentTask Unit := do
  let version ← imageVersion
  let dataVersion ← Task.attempt (readPgVersion .pgdata)
  let bindir ← pgConfig "--bindir"
  Task.perform (.print (.probe { version, bindir, dataVersion := dataVersion.toOption }))

/-! ## run -/

def writeEachWrapper (spec : UpgradeSpec) : List String → AgentTask Unit
  | [] => pure ()
  | name :: rest => do
    context ("failed to write " ++ Dir.upgradeWrapper.path ++ "/" ++ name)
      (Task.ask (.writeFile .upgradeWrapper name
        ["#!/bin/sh",
         "# Written by pgpod-agent for a major-version upgrade (ADR 06 §3).",
         "LD_LIBRARY_PATH='" ++ spec.libraryPath ++ "'",
         "export LD_LIBRARY_PATH",
         "exec '" ++ spec.stagedBindir ++ "/" ++ name ++ "' \"$@\""]))
    Task.ask (.setPermissions .upgradeWrapper name 0o700)
    writeEachWrapper spec rest

/-- Write one wrapper per staged binary. -/
def writeWrappers (spec : UpgradeSpec) : AgentTask Unit := do
  let leftover ← Task.perform (.dirExists .upgradeWrapper)
  Task.when leftover <| context ("failed to clear " ++ Dir.upgradeWrapper.path)
    (Task.ask (.removeDirAll .upgradeWrapper))
  context ("failed to create " ++ Dir.upgradeWrapper.path)
    (Task.ask (.createDirAll .upgradeWrapper))
  let names ← context ("failed to read the staged bin directory " ++ spec.stagedBindir)
    (Task.ask (.readDir spec.stagedBindir))
  writeEachWrapper spec names
  if names.isEmpty then
    bail ("the staged bin directory " ++ spec.stagedBindir ++ " is empty — the staging step " ++
      "did not produce an installation")
  else pure ()

/-- Prove the staged binaries actually run here, before any data moves. -/
def verifyStagedBinaries (expected : String) : AgentTask Unit := do
  let out ← context ("failed to run " ++ Dir.upgradeWrapper.path ++ "/pg_ctl")
    (Task.ask .stagedPgCtlVersion)
  if !out.status.success then
    bail ("the staged PostgreSQL " ++ expected ++ " binaries cannot run in this image (" ++
      out.status.text ++ "): " ++ Text.trim out.stderr)
  else
    match majorLabel (Text.trim ("\n".intercalate out.stdout)) with
    | some v =>
      if v = expected then pure ()
      else bail ("the staged binaries report Some(" ++ Text.debug v ++
        "), not the expected PostgreSQL " ++ expected)
    | none =>
      bail ("the staged binaries report None, not the expected PostgreSQL " ++ expected)

structure ControlData where
  state : String
  cleanlyShutDown : Bool
  checksums : Bool
deriving DecidableEq

/-- The value of the first line that names `name`. -/
def controlField (name : String) (lines : List String) : Option String :=
  lines.findSome? fun l =>
    (Text.splitOnce l ":").bind fun (k, v) =>
      if Text.trim k = name then some (Text.trim v) else none

def readControlData (dir : Dir) : AgentTask ControlData := do
  let out ← context "failed to run the staged pg_controldata" (Task.ask .stagedControlData)
  if !out.status.success then
    bail ("pg_controldata could not read " ++ dir.path ++ ": " ++ Text.trim out.stderr)
  else
    let state := (controlField "Database cluster state" out.stdout).getD "unknown"
    let checksums := controlField "Data page checksum version" out.stdout ≠ some "0"
    pure { state, cleanlyShutDown := Text.startsWith state "shut down", checksums }

def report (spec : UpgradeSpec) (oldDataDir : String) (seconds : Nat) : AgentTask Unit :=
  Task.perform (.print (.upgradeRun
    { fromVersion := spec.fromVersion
      toVersion := spec.toVersion
      method := spec.method
      oldDataDir
      seconds }))

/-- An interrupted swap left no PGDATA and the upgraded cluster beside it: finish it. -/
def completeSwap (spec : UpgradeSpec) : AgentTask Unit := do
  context "failed to complete the interrupted swap" (Task.ask (.rename .pgdataNew .pgdata))
  report spec "" 0

/-- The two renames, the second undone by hand if it fails. -/
def swap (oldDir : Dir) : AgentTask Unit := do
  context ("failed to move the old cluster aside to " ++ oldDir.path)
    (Task.ask (.rename .pgdata oldDir))
  match ← Task.attempt (Task.ask (.rename .pgdataNew .pgdata)) with
  | .ok () => pure ()
  | .error e => do
    let _ ← Task.attempt (ε := String) (Task.ask (.rename oldDir .pgdata))
    bail ("failed to move the upgraded cluster into place: " ++ e)

/-- What follows the swap: the include line, the scratch, the report. -/
def finish (spec : UpgradeSpec) (oldDir : Dir) (seconds : Nat) : AgentTask Unit := do
  context "failed to create /pgdata/pgdata/conf.d" (Task.ask (.createSubdir .pgdata "conf.d"))
  appendIncludeDir .pgdata
  let _ ← Task.attempt (ε := String) (Task.ask (.removeDirAll .upgrade))
  report spec oldDir.path seconds

/-- The checks that precede any change to data. -/
def preflight (spec : UpgradeSpec) : AgentTask ControlData := do
  let dataVersion ← readPgVersion .pgdata
  if dataVersion ≠ spec.fromVersion then
    bail ("the cluster in the volume is PostgreSQL " ++ dataVersion ++ ", but the staged " ++
      "installation is " ++ spec.fromVersion ++ ". Nothing has been changed.")
  else
    let here ← pgConfig "--version"
    if (majorLabel here).getD "" ≠ spec.toVersion then
      bail ("this image carries PostgreSQL " ++ (majorLabel here).getD "" ++ ", but the upgrade was planned for " ++
        spec.toVersion ++ ". Nothing has been changed.")
    else
      context ("failed to create " ++ Dir.socket.path) (Task.ask (.createDirAll .socket))
      writeWrappers spec
      verifyStagedBinaries spec.fromVersion
      let control ← readControlData .pgdata
      if !control.cleanlyShutDown then
        bail ("the old cluster was not shut down cleanly (pg_controldata says " ++
          Text.debug control.state ++ "), and pg_upgrade cannot read a cluster that still " ++
          "needs recovery. Start the instance, let it finish recovery, and stop it again.")
      else pure control

/-- Build the upgraded cluster beside PGDATA; answers how long `pg_upgrade` took. -/
def build (spec : UpgradeSpec) (control : ControlData) : AgentTask Nat := do
  let leftover ← Task.perform (.dirExists .pgdataNew)
  Task.when leftover <|
    context ("failed to clear " ++ Dir.pgdataNew.path) (Task.ask (.removeDirAll .pgdataNew))
  match parseU32 ((spec.toVersion.toList.splitOn '.').headD ['0']) with
  | none => bail "invalid digit found in string"
  | some targetMajor => do
    let status ← context "failed to run initdb — is it on PATH in this image?"
      (Task.ask (.initdb
        { target := .pgdataNew, options := spec.initdb, pwfile := false,
          checksums := control.checksums, targetMajor }))
    if !status.success then
      bail ("initdb for the new cluster failed with " ++ status.text)
    else
      let newBindir ← pgConfig "--bindir"
      let status ← context "failed to run pg_upgrade" (Task.ask (.pgUpgrade
        { method := spec.method, jobs := spec.jobs, newPreload := spec.preloadLibraries,
          newBindir, checkOnly := spec.check }))
      let seconds ← Task.perform .elapsed
      if !status.success then
        let _ ← Task.attempt (ε := String) (Task.ask (.removeDirAll .pgdataNew))
        bail ("pg_upgrade failed with " ++ status.text ++ ". The cluster at " ++
          Container.PGDATA ++ " is unchanged — its own output above says why.")
      else pure seconds

/-- Check, build and swap, from a PGDATA that is there. -/
def upgradeInPlace (spec : UpgradeSpec) : AgentTask Unit := do
  let control ← preflight spec
  let seconds ← build spec control
  if spec.check then
    context "failed to remove the trial cluster" (Task.ask (.removeDirAll .pgdataNew))
    report spec "" seconds
  else
    let now ← Task.perform .stamp
    let oldDir := Dir.pgdataOld (spec.fromVersion ++ "-" ++ now)
    swap oldDir
    finish spec oldDir seconds

/-- `upgrade run`: upgrade the cluster in the volume to this image's major version. -/
def run (decode : Option String → Except SpecError UpgradeSpec) : AgentTask Unit := do
  let env ← Task.perform (.readEnv UPGRADE_SPEC_ENV)
  let spec ← context "could not read the upgrade spec"
    (Task.ofExcept ((decode env).mapError SpecError.toString))
  let present ← Task.perform (.dirExists .pgdata)
  let upgraded ← if present then pure false else isCluster .pgdataNew
  if upgraded then completeSwap spec else upgradeInPlace spec

end Upgrade

end Agent

end Pgpod
