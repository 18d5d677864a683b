import Pgpod.Core.Ids

/-!
# Backup destinations and the instance spec

What the control plane tells the agent to be.  The spec travels as JSON in an
environment variable, which `podman inspect` prints: `InstanceSpec.validate`
refuses one that archives to nowhere or that looks as if it carried a
credential, and the destination that crosses into a container is the
`sanitized` one.
-/

namespace Pgpod

/-! ## Paths inside the containers -/

namespace Container

def VOLUME_MOUNT : String := "/pgdata"
def PGDATA : String := "/pgdata/pgdata"
def PGDATA_NEW : String := "/pgdata/pgdata.new"
def PGDATA_OLD_PREFIX : String := "/pgdata/pgdata.old-"
def CONF_DIR : String := "/pgdata/conf"
def SPOOL_DIR : String := "/pgdata/spool"
def LOG_DIR : String := "/pgdata/log"
def SOCKET_DIR : String := "/pgdata/run"
def UPGRADE_DIR : String := "/pgdata/upgrade"
def UPGRADE_STAGE_DIR : String := "/pgdata/upgrade/old"
def UPGRADE_WRAPPER_DIR : String := "/pgdata/upgrade/bin"
def ARCHIVE_MOUNT : String := "/archive"
def AGENT_BIN : String := "/usr/local/bin/pgpod-agent"
def PGBACKREST_BUNDLE : String := "/opt/pgpod"
def PGBACKREST_BIN : String := "/opt/pgpod/bin/pgbackrest"
def PGBACKREST_CONF : String := "/pgdata/conf/pgbackrest.conf"
def SECRET_SUPERUSER : String := "/run/secrets/pgpod-superuser"
def SECRET_REPLICATION : String := "/run/secrets/pgpod-replication"
def SECRET_MONITOR : String := "/run/secrets/pgpod-monitor"
def SECRET_APP_OWNER : String := "/run/secrets/pgpod-app-owner"
def PG_PORT : UInt16 := 5432
def BOOTSTRAP_PORT : UInt16 := 5433
def DEFAULT_POSTGRES_UID : UInt32 := 999
end Container

/-! ## Destinations -/

/-- One object-storage destination.  `credentials` names a podman secret on the host. -/
structure Destination where
  url : String
  endpoint : Option String := none
  region : Option String := none
  verifyTls : Bool := true
  credentials : Option String := none
  options : StringMap := .empty
deriving DecidableEq

def SECRET_OBJECT_STORE_PREFIX : String := "/run/secrets/pgpod-store-"

namespace Destination

/-- Where the credentials of the destination at `index` are mounted. -/
def credentialsPath (index : Nat) : String := SECRET_OBJECT_STORE_PREFIX ++ toString index

/-- The copy that goes into the container: the podman secret name is dropped. -/
def sanitized (d : Destination) : Destination := { d with credentials := none }

def debug (d : Destination) : String :=
  Text.debugStruct "Destination"
    [("url", Text.debug d.url), ("endpoint", Text.debugOption d.endpoint),
     ("region", Text.debugOption d.region), ("verify_tls", toString d.verifyTls),
     ("credentials", Text.debugOption d.credentials), ("options", d.options.debug)]

@[simp] theorem sanitized_credentials (d : Destination) : d.sanitized.credentials = none := rfl

@[simp] theorem sanitized_options (d : Destination) : d.sanitized.options = d.options := rfl

end Destination

inductive RetentionMode
  | report
  | enforce
deriving DecidableEq, Repr

def RetentionMode.debug : RetentionMode → String
  | report => "Report"
  | enforce => "Enforce"

/-- `spec.backup` of the cluster manifest. -/
structure BackupSpec where
  destinations : List Destination := []
  retention : Option String := none
  retentionMode : RetentionMode := .report
  volume : Option String := none
deriving DecidableEq

namespace BackupSpec

def isEnabled (b : BackupSpec) : Bool := !b.destinations.isEmpty

end BackupSpec

/-! ## Bootstrap -/

structure InitdbBootstrap where
  database : Option String := none
  owner : Option String := none
  encoding : String := "UTF8"
  locale : String := "C"
  options : List String := []
deriving DecidableEq

/-- Restoring from a pgBackRest repository. -/
structure RecoveryBootstrap where
  sourceStanza : String
  backupLabel : Option String
  targetTime : Option String
  destinations : List Destination
deriving DecidableEq

/-- How an instance populates its PGDATA on first start. -/
inductive Bootstrap
  | initdb (init : InitdbBootstrap)
  | recovery (r : RecoveryBootstrap)
deriving DecidableEq

namespace Bootstrap

def debug : Bootstrap → String
  | initdb i => "Initdb(" ++ Text.debugStruct "InitdbBootstrap"
      [("database", Text.debugOption i.database), ("owner", Text.debugOption i.owner),
       ("encoding", Text.debug i.encoding), ("locale", Text.debug i.locale),
       ("options", Text.debugList (i.options.map Text.debug))] ++ ")"
  | recovery r => "Recovery(" ++ Text.debugStruct "RecoveryBootstrap"
      [("source_stanza", Text.debug r.sourceStanza),
       ("backup_label", Text.debugOption r.backupLabel),
       ("target_time", Text.debugOption r.targetTime),
       ("destinations", Text.debugList (r.destinations.map Destination.debug))] ++ ")"

end Bootstrap

/-! ## The instance spec -/

def SPEC_ENV : String := "PGPOD_INSTANCE_SPEC"

/-- Everything the agent needs to bring one instance up. -/
structure InstanceSpec where
  inst : InstanceId
  port : UInt16
  bootstrap : Bootstrap
  parameters : List (String × String)
  sharedPreloadLibraries : List String
  networkCidr : Option String
  archiveCommand : Option String
  backup : BackupSpec
deriving DecidableEq

inductive SpecError
  | missing
  | malformed (why : String)
  | inconsistent (why : String)
  | poolerInconsistent (why : String)
deriving DecidableEq, Repr

namespace SpecError

def toString : SpecError → String
  | missing => SPEC_ENV ++ " is not set — the agent is being run outside a pgpod-created " ++
      "container, or the daemon failed to pass the instance spec"
  | malformed why => SPEC_ENV ++ " could not be parsed: " ++ why
  | inconsistent why => "the instance spec is self-contradictory: " ++ why
  | poolerInconsistent why => "the pooler spec is self-contradictory: " ++ why

end SpecError

/-- What the third-party crates decide: whether a text is an RFC 3339 time, and the JSON
of the documents that cross into a container.  Serializing a derived struct does not
fail, so the encoders are total. -/
structure Crates where
  isRfc3339 : String → Bool
  instanceSpecToJson : InstanceSpec → String
  instanceSpecFromJson : String → Except String InstanceSpec

/-- The words an option key must not contain. -/
def credentialWords : List String := ["secret", "password", "key", "token", "credential"]

/-- An option key that reads as if its value were a credential. -/
def looksLikeCredential (key : String) : Bool :=
  credentialWords.any fun bad => Text.contains (Text.toAsciiLowercase key) bad

namespace InstanceSpec

/-- The recovery source, if this instance is being restored. -/
def recovery (s : InstanceSpec) : Option RecoveryBootstrap :=
  match s.bootstrap with
  | .recovery r => some r
  | .initdb _ => none

/-- `archive_command` and the destinations say the same thing. -/
def validateArchive (s : InstanceSpec) : Except SpecError Unit :=
  match s.archiveCommand, s.backup.isEnabled with
  | some _, false => .error (.inconsistent
      "archive_command is set but spec.backup.destinations is empty — archiving to nowhere")
  | none, true => .error (.inconsistent
      ("spec.backup.destinations is set but archive_command is not — " ++
        "WAL would never be shipped"))
  | _, _ => .ok ()

def validateRecovery (crates : Crates) (s : InstanceSpec) : Except SpecError Unit :=
  match s.recovery with
  | none => .ok ()
  | some r =>
    if r.destinations.isEmpty then .error (.inconsistent
      "a recovery bootstrap with no destination has nowhere to read the base backup from")
    else if (Text.trim r.sourceStanza).isEmpty then .error (.inconsistent
      "a recovery bootstrap needs the stanza to restore from")
    else match r.targetTime with
      | none => .ok ()
      | some t =>
        if crates.isRfc3339 t then .ok ()
        else .error (.inconsistent ("recovery target time " ++ Text.debug t ++ " is not RFC 3339"))

def validateCredentials : Nat → List Destination → Except SpecError Unit
  | _, [] => .ok ()
  | index, dest :: rest =>
    if dest.credentials.isSome then .error (.inconsistent
      ("destination " ++ toString index ++ " still carries a podman secret name — " ++
        "the daemon must mount it at " ++ Destination.credentialsPath index ++
        " and send a sanitized destination"))
    else validateCredentials (index + 1) rest

def validateOptionKeys : List String → Except SpecError Unit
  | [] => .ok ()
  | key :: rest =>
    if looksLikeCredential key then .error (.inconsistent
      ("destination option " ++ Text.debug key ++ " looks like a credential — " ++
        "credentials are mounted as podman secrets, not passed in the instance spec"))
    else validateOptionKeys rest

/-- Refuse a spec that would archive to nowhere, or that carries a credential into the
environment. -/
def validate (crates : Crates) (s : InstanceSpec) : Except SpecError Unit := do
  s.validateArchive
  s.validateRecovery crates
  validateCredentials 0 s.backup.destinations
  validateOptionKeys (s.backup.destinations.flatMap fun d => d.options.keys)

def toEnvValue (crates : Crates) (s : InstanceSpec) : Except SpecError String := do
  s.validate crates
  return crates.instanceSpecToJson s

/-- Parse the spec from the value of the environment variable. -/
def fromEnv (crates : Crates) (env : Option String) : Except SpecError InstanceSpec :=
  match env with
  | none => .error .missing
  | some raw => (crates.instanceSpecFromJson raw).mapError .malformed

theorem validateCredentials_eq_ok {index : Nat} {dests : List Destination} :
    validateCredentials index dests = .ok () ↔ ∀ d ∈ dests, d.credentials = none := by
  induction dests generalizing index with
  | nil => simp [validateCredentials]
  | cons d rest ih =>
    unfold validateCredentials
    cases hc : d.credentials with
    | none => simp [hc, ih]
    | some _ => simp [hc]

theorem validateOptionKeys_eq_ok {keys : List String} :
    validateOptionKeys keys = .ok () ↔ ∀ k ∈ keys, looksLikeCredential k = false := by
  induction keys with
  | nil => simp [validateOptionKeys]
  | cons k rest ih =>
    unfold validateOptionKeys
    cases hk : looksLikeCredential k with
    | false => simp [hk, ih]
    | true => simp [hk]

end InstanceSpec

end Pgpod
