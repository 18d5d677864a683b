import Pgpod.Agent.Volume

/-!
# `instance run`: bootstrapping and starting an instance

The agent as PID 1 of an instance container: lay out the volume, populate
PGDATA if `PG_VERSION` is not there, render the configuration, create the roles
after an `initdb`, and start PostgreSQL.
-/

namespace Pgpod

open Effect

def INCLUDE_DIR_LINE : String := "include_dir 'conf.d'"
def MANAGED_CONF_FILE : String := "00-pgpod.conf"
def USER_CONF_FILE : String := "10-user.conf"

/-- The texts of the files the agent renders, line by line. -/
structure Renderer where
  /-- The managed settings; the flag says whether recovery is still to be configured. -/
  managedConf : InstanceSpec → Bool → List String
  userConf : List (String × String) → Except String (List String)
  hba : InstanceSpec → List String
  pgbackrestConf : InstanceSpec → List Destination → List (List (String × String)) →
    Except String (List String)

structure InstanceSecrets where
  superuser : String
  replication : String
  monitor : String
  appOwner : Option String
deriving DecidableEq

inductive Bootstrapped
  | existing
  | initdb
  | restored
deriving DecidableEq, Repr

namespace Agent

abbrev AgentTask := Task AgentOp String

/-- Prefix an error with what was being attempted. -/
def context {α : Type} (what : String) (t : AgentTask α) : AgentTask α :=
  t.mapError fun e => what ++ ": " ++ e

def bail {α : Type} (why : String) : AgentTask α := Task.throw why

/-! ## Secrets -/

def trimNewlines (s : String) : String :=
  String.ofList (s.toList.reverse.dropWhile fun c => c = '\n' || c = '\r').reverse

def readOptional (path : String) : AgentTask (Option String) := do
  match ← context ("failed to read " ++ path) (Task.ask (.readMount path)) with
  | none => pure none
  | some raw =>
    if (trimNewlines raw).isEmpty then bail ("secret " ++ path ++ " is empty")
    else pure (some (trimNewlines raw))

def readRequired (path : String) : AgentTask String := do
  match ← readOptional path with
  | some value => pure value
  | none => bail ("required secret " ++ path ++ " is not mounted — the daemon did not attach it " ++
      "to this container")

def fromMounts : AgentTask InstanceSecrets := do
  let superuser ← readRequired Container.SECRET_SUPERUSER
  let replication ← readRequired Container.SECRET_REPLICATION
  let monitor ← readRequired Container.SECRET_MONITOR
  let appOwner ← readOptional Container.SECRET_APP_OWNER
  pure { superuser, replication, monitor, appOwner }

/-! ## Layout and bootstrap -/

def ensureDirs : List Dir → AgentTask Unit
  | [] => pure ()
  | dir :: rest => do
    context ("failed to create " ++ dir.path) (Task.ask (.createDirAll dir))
    context ("failed to chmod " ++ dir.path ++ " to 0700") (Task.ask (.setPermissions dir "" 0o700))
    ensureDirs rest

def ensureLayout : AgentTask Unit := ensureDirs [.pgdata, .conf, .spool, .log, .socket]

def isInitialised (dir : Dir) : AgentTask Bool := Task.perform (.isFile dir Tree.PG_VERSION)

def writePwfile (password : String) : AgentTask Unit := do
  context "failed to create /pgdata/conf/.initdb-pw" (Task.ask (.writeFile .conf PWFILE []))
  context "failed to write the initdb password file" (Task.ask (.appendFile .conf PWFILE [password]))

def runInitdb (call : InitdbCall) : AgentTask Unit := do
  let status ← context "failed to run initdb — is it on PATH in this image?"
    (Task.ask (.initdb call))
  if status.success then pure () else bail ("initdb failed with " ++ status.text)

/-- Append the include line to `postgresql.conf`, exactly once. -/
def appendIncludeDir (dir : Dir) : AgentTask Unit := do
  let existing ← context ("failed to read " ++ dir.path ++ "/" ++ Tree.POSTGRESQL_CONF)
    (Task.ask (.readFile dir Tree.POSTGRESQL_CONF))
  if existing.any (fun l => Text.trim l = INCLUDE_DIR_LINE) then pure ()
  else
    context "failed to append include_dir" (Task.ask (.appendFile dir Tree.POSTGRESQL_CONF
      ["", "# Added by pgpod. Configuration lives in conf.d/.", INCLUDE_DIR_LINE]))

def runInitdbBootstrap (init : InitdbBootstrap) (secrets : InstanceSecrets) : AgentTask Unit := do
  writePwfile secrets.superuser
  -- the password file goes whichever way initdb went
  let result ← Task.attempt (runInitdb
    { target := .pgdata, options := init, pwfile := true, checksums := true, targetMajor := 0 })
  let _ ← Task.attempt (ε := String) (Task.ask (.removeFile .conf PWFILE))
  Task.ofExcept result
  appendIncludeDir .pgdata

/-- Write through a temporary file and a rename. -/
def writeAtomically (dir : Dir) (tmp rel : String) (lines : List String) : AgentTask Unit := do
  context ("failed to write " ++ tmp) (Task.ask (.writeFile dir tmp lines))
  context ("failed to chmod " ++ tmp) (Task.ask (.setPermissions dir tmp 0o600))
  context ("failed to move " ++ rel ++ " into place") (Task.ask (.renameFile dir tmp rel))

/-- The `KEY=value` lines of a credentials file. -/
def parseCredentials (path : String) : List String → Except String (List (String × String))
  | [] => .ok []
  | raw :: rest =>
    let line := Text.trim raw
    if line.isEmpty || Text.startsWith line "#" then parseCredentials path rest
    else match Text.splitOnce line "=" with
      | none => .error (path ++ " has a line that is not KEY=value")
      | some (k, v) => do
        let more ← parseCredentials path rest
        return (Text.trim k, Text.trim v) :: more

def readStoreCredentials (index : Nat) : AgentTask (List (String × String)) := do
  let path := Destination.credentialsPath index
  match ← context (path ++ " exists but could not be read") (Task.ask (.readMount path)) with
  | none => pure []
  | some contents => Task.ofExcept (parseCredentials path (Text.lines contents))

def readAllCredentials : Nat → List Destination → AgentTask (List (List (String × String)))
  | _, [] => pure []
  | index, _ :: rest => do
    let first ← readStoreCredentials index
    let more ← readAllCredentials (index + 1) rest
    pure (first :: more)

/-- PostgreSQL removes the signal file when it promotes. -/
def recoveryFinished : AgentTask Bool := do
  let present ← Task.perform (.isFile .pgdata "recovery.signal")
  pure !present

/-- The recovery source, until the restored instance has been promoted. -/
def pendingRecovery (spec : InstanceSpec) : AgentTask (Option RecoveryBootstrap) :=
  match spec.recovery with
  | none => pure none
  | some r => do
    let finished ← recoveryFinished
    pure (if finished then none else some r)

/-- A restored instance reads the source's repository until it is promoted, and its own
thereafter. -/
def writePgbackrestConf (R : Renderer) (spec : InstanceSpec) : AgentTask Unit := do
  let recovery ← pendingRecovery spec
  let destinations := (recovery.map RecoveryBootstrap.destinations).getD spec.backup.destinations
  if destinations.isEmpty then pure ()
  else
    let credentials ← readAllCredentials 0 destinations
    let config ← context "could not build the pgbackrest configuration"
      (Task.ofExcept (R.pgbackrestConf spec destinations credentials))
    writeAtomically .conf "pgbackrest.pgpod-tmp" "pgbackrest.conf" config

def restore (r : RecoveryBootstrap) : AgentTask Unit := do
  let status ← context "pgbackrest restore failed"
    (Task.ask (.pgbackrestRestore r.sourceStanza r.backupLabel r.targetTime))
  if status.success then
    context "failed to chmod PGDATA to 0700" (Task.ask (.setPermissions .pgdata "" 0o700))
  else bail ("pgbackrest restore failed: " ++ status.text)

/-- Populate PGDATA if it is empty, by whichever route the spec asks for. -/
def bootstrapIfNeeded (R : Renderer) (spec : InstanceSpec) (secrets : InstanceSecrets) :
    AgentTask Bootstrapped := do
  if ← isInitialised .pgdata then pure .existing
  else match spec.bootstrap with
    | .initdb init => do
      runInitdbBootstrap init secrets
      pure .initdb
    | .recovery r => do
      writePgbackrestConf R spec
      restore r
      pure .restored

/-! ## Configuration -/

def renderConfig (R : Renderer) (spec : InstanceSpec) : AgentTask Unit := do
  context "failed to create /pgdata/pgdata/conf.d" (Task.ask (.createSubdir .pgdata "conf.d"))
  let recovery ← pendingRecovery spec
  writePgbackrestConf R spec
  writeAtomically .pgdata "conf.d/00-pgpod.pgpod-tmp" ("conf.d/" ++ MANAGED_CONF_FILE)
    (R.managedConf spec recovery.isSome)
  let userConf ← context "spec.postgresql.parameters could not be rendered"
    (Task.ofExcept (R.userConf spec.parameters))
  writeAtomically .pgdata "conf.d/10-user.pgpod-tmp" ("conf.d/" ++ USER_CONF_FILE) userConf
  writeAtomically .pgdata "pg_hba.pgpod-tmp" "pg_hba.conf" (R.hba spec)

/-! ## Roles -/

/-- The application database the spec asks for, with its owner's password. -/
def appDatabase (init : InitdbBootstrap) (secrets : InstanceSecrets) :
    Except String (Option AppDatabase) :=
  match init.database, init.owner with
  | some database, some owner =>
    .ok (some { database, owner, ownerPassword := secrets.appOwner.getD secrets.superuser })
  | none, none => .ok none
  | _, _ => .error "spec.bootstrap.initdb needs both `database` and `owner`, or neither"

def bootstrapRoles (app : Option AppDatabase) (secrets : InstanceSecrets) : BootstrapRoles where
  superuser := SUPERUSER_ROLE
  superuserPassword := secrets.superuser
  replicationPassword := secrets.replication
  monitorPassword := secrets.monitor
  app := app

def executeOn (port : UInt16) (stmt : Statement) (what : String) : AgentTask Unit := do
  let out ← context "failed to run psql" (Task.ask (.psql port stmt))
  if out.status.success then pure () else bail (what ++ " failed: " ++ Text.trim out.stderr)

def queryOn (port : UInt16) (stmt : Statement) : AgentTask String := do
  let out ← context "failed to run psql — is it on PATH in this image?" (Task.ask (.psql port stmt))
  if out.status.success then pure (Text.trim ("\n".intercalate out.stdout))
  else bail ("psql failed (" ++ out.status.text ++ "): " ++ Text.trim out.stderr)

def executeAll (port : UInt16) : List Statement → AgentTask Unit
  | [] => pure ()
  | stmt :: rest => do
    executeOn port stmt "role bootstrap"
    executeAll port rest

def createAppDatabase : Option (Statement × Statement) → AgentTask Unit
  | none => pure ()
  | some (check, create) => do
    let found ← queryOn Container.BOOTSTRAP_PORT check
    if (Text.trim found).isEmpty then
      executeOn Container.BOOTSTRAP_PORT create "create application database"
    else pure ()

/-- Create pgpod's roles and the application database. -/
def createRoles (spec : InstanceSpec) (secrets : InstanceSecrets) : AgentTask Unit :=
  match spec.bootstrap with
  | .recovery _ =>
    bail "create_roles was called on an instance that was not initdb-bootstrapped"
  | .initdb init => do
    let app ← Task.ofExcept (appDatabase init secrets)
    let roles := bootstrapRoles app secrets
    let stmts ← context "failed to render bootstrap SQL" (Task.ofExcept roles.statements)
    executeAll Container.BOOTSTRAP_PORT stmts
    let app ← Task.ofExcept roles.appDatabaseSql
    createAppDatabase app

/-- Run `f` with PostgreSQL up privately, and stop it whatever came of it. -/
def withLocalPostgres (f : AgentTask Unit) : AgentTask Unit := do
  let start ← context "failed to run pg_ctl start" (Task.ask (.pgCtlStart Container.BOOTSTRAP_PORT))
  if start.success then do
    let result ← Task.attempt f
    let _ ← context "failed to run pg_ctl stop" (Task.ask .pgCtlStop)
    Task.ofExcept result
  else bail ("pg_ctl start failed with " ++ start.text)

/-- A stanza that cannot be created is a warning. -/
def ensureStanza (stanza : String) (port : UInt16) : AgentTask Unit := do
  let _ ← Task.attempt (ε := String) (Task.ask (.stanzaCreate stanza port))
  pure ()

/-! ## The whole start -/

/-- `instance run`, up to the exit code of the postmaster. -/
def run (crates : Crates) (R : Renderer) : AgentTask Int := do
  let env ← Task.perform (.readEnv SPEC_ENV)
  let spec ← context "could not read the instance spec"
    (Task.ofExcept ((InstanceSpec.fromEnv crates env).mapError SpecError.toString))
  let secrets ← context "could not read the mounted secrets" fromMounts
  ensureLayout
  let bootstrapped ← bootstrapIfNeeded R spec secrets
  renderConfig R spec
  Task.when (bootstrapped = .initdb) <| withLocalPostgres do
    createRoles spec secrets
    Task.when spec.backup.isEnabled <|
      ensureStanza spec.inst.cluster.asStr Container.BOOTSTRAP_PORT
  context "failed to start postgres — is it on PATH in this image?" (Task.ask .spawnPostgres)
  -- the source does this beside the supervision, once the server answers
  Task.when (spec.backup.isEnabled && bootstrapped ≠ .initdb) <|
    ensureStanza spec.inst.cluster.asStr Container.PG_PORT
  Task.ask .supervise

end Agent

end Pgpod
