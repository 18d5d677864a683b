import Pgpod.Agent.Roles
import Pgpod.Core.Upgrade
import Pgpod.Effect.Machine

/-!
# The instance volume and what the agent does to it

A volume is a fixed set of directories; a data directory holds files by relative
path and, once it is a cluster, the database in its data files.  `AgentOp` is
every effect the agent has from inside a container, and `exec` what each does.
The environment decides which operation fails and what an interrupted command
leaves behind; an operation that is killed half-way is one that fails and after
which nothing more runs.
-/

namespace Pgpod

open Effect

/-- The directories of an instance volume. -/
inductive Dir
  | pgdata
  | pgdataNew
  | pgdataOld (suffix : String)
  | conf
  | spool
  | log
  | socket
  | upgrade
  | upgradeStage
  | upgradeWrapper
deriving DecidableEq

namespace Dir

def path : Dir → String
  | pgdata => Container.PGDATA
  | pgdataNew => Container.PGDATA_NEW
  | pgdataOld suffix => Container.PGDATA_OLD_PREFIX ++ suffix
  | conf => Container.CONF_DIR
  | spool => Container.SPOOL_DIR
  | log => Container.LOG_DIR
  | socket => Container.SOCKET_DIR
  | upgrade => Container.UPGRADE_DIR
  | upgradeStage => Container.UPGRADE_STAGE_DIR
  | upgradeWrapper => Container.UPGRADE_WRAPPER_DIR

/-- The directories that go when a directory is removed with its contents. -/
def within (parent : Dir) (d : Dir) : Bool :=
  d = parent || (parent = upgrade && (d = upgradeStage || d = upgradeWrapper))

end Dir

/-- The contents of a directory: its files by relative path, as lines, and the database when
the directory is a cluster. -/
structure Tree where
  files : String → Option (List String)
  subdirs : List String
  db : Option Database

namespace Tree

def PG_VERSION : String := "PG_VERSION"
def PG_CONTROL : String := "global/pg_control"
def POSTGRESQL_CONF : String := "postgresql.conf"

def empty : Tree := ⟨fun _ => none, [], none⟩

def writeFile (t : Tree) (rel : String) (lines : Option (List String)) : Tree :=
  { t with files := fun r => if r = rel then lines else t.files r }

def isInitialised (t : Tree) : Bool := (t.files PG_VERSION).isSome

/-- The test of `is_cluster`: a version file and a control file. -/
def isCluster (t : Tree) : Bool := (t.files PG_VERSION).isSome && (t.files PG_CONTROL).isSome

@[simp] theorem writeFile_db (t : Tree) (rel : String) (lines : Option (List String)) :
    (t.writeFile rel lines).db = t.db := rfl

@[simp] theorem writeFile_subdirs (t : Tree) (rel : String) (lines : Option (List String)) :
    (t.writeFile rel lines).subdirs = t.subdirs := rfl

@[simp] theorem writeFile_files_self (t : Tree) (rel : String) (lines : Option (List String)) :
    (t.writeFile rel lines).files rel = lines := by
  simp [writeFile]

theorem writeFile_files_ne (t : Tree) {rel r : String} (lines : Option (List String))
    (h : r ≠ rel) : (t.writeFile rel lines).files r = t.files r := by
  simp [writeFile, h]

end Tree

abbrev Volume := Dir → Option Tree

/-- An image's PostgreSQL: what `pg_config --version` prints and what its `initdb` writes into
`PG_VERSION` name one major version. -/
structure PgImage where
  configVersion : String
  versionFile : String
  agree : majorLabel configVersion = majorLabel versionFile

/-- The state the agent runs in: its image, environment and mounted secrets, the backup
repository it can reach, the volume, the port a postmaster listens on, and what it printed. -/
structure AgentState where
  image : PgImage
  env : String → Option String
  mounts : String → Option String
  repository : String → Option Tree
  volume : Volume
  postmaster : Option UInt16
  reports : List Report

namespace AgentState

def setTree (s : AgentState) (d : Dir) (t : Option Tree) : AgentState :=
  { s with volume := fun d' => if d' = d then t else s.volume d' }

@[simp] theorem setTree_self (s : AgentState) (d : Dir) (t : Option Tree) :
    (s.setTree d t).volume d = t := by
  simp [setTree]

theorem setTree_ne (s : AgentState) {d d' : Dir} (t : Option Tree) (h : d' ≠ d) :
    (s.setTree d t).volume d' = s.volume d' := by
  simp [setTree, h]

/-- Rewrite the database in PGDATA. -/
def mapDatabase (s : AgentState) (f : Database → Database) : AgentState :=
  s.setTree .pgdata ((s.volume .pgdata).map fun t => { t with db := t.db.map f })

end AgentState

/-- How an external command ended. -/
structure ExitStatus where
  success : Bool
  text : String
deriving DecidableEq

/-- How an external command ended, and what it printed. -/
structure Output where
  status : ExitStatus
  stdout : List String
  stderr : String
deriving DecidableEq

def PWFILE : String := ".initdb-pw"

/-- What `initdb` is told: where, how, and whether the superuser's password is in the password
file. -/
structure InitdbCall where
  target : Dir
  options : InitdbBootstrap
  pwfile : Bool
  checksums : Bool
  targetMajor : Nat

/-- What `pg_upgrade` is told. -/
structure PgUpgradePlan where
  method : UpgradeMethod
  jobs : UInt32
  newPreload : List String
  newBindir : String
  checkOnly : Bool

/-- What staging an installation copied. -/
structure Staged where
  libDirs : List String
  files : Nat
  bytes : Nat
deriving DecidableEq

/-- The effects of the agent. -/
inductive AgentOp : Type → Type
  | readEnv (key : String) : AgentOp (Option String)
  | readMount (path : String) : AgentOp (Except String (Option String))
  | dirExists (d : Dir) : AgentOp Bool
  | isFile (d : Dir) (rel : String) : AgentOp Bool
  | readFile (d : Dir) (rel : String) : AgentOp (Except String (List String))
  | readDir (path : String) : AgentOp (Except String (List String))
  | createDirAll (d : Dir) : AgentOp (Except String Unit)
  | createSubdir (d : Dir) (rel : String) : AgentOp (Except String Unit)
  | setPermissions (d : Dir) (rel : String) (mode : Nat) : AgentOp (Except String Unit)
  | writeFile (d : Dir) (rel : String) (lines : List String) : AgentOp (Except String Unit)
  | appendFile (d : Dir) (rel : String) (lines : List String) : AgentOp (Except String Unit)
  | renameFile (d : Dir) (src dst : String) : AgentOp (Except String Unit)
  | removeFile (d : Dir) (rel : String) : AgentOp (Except String Unit)
  | removeDirAll (d : Dir) : AgentOp (Except String Unit)
  | rename (src dst : Dir) : AgentOp (Except String Unit)
  | initdb (call : InitdbCall) : AgentOp (Except String ExitStatus)
  | pgUpgrade (plan : PgUpgradePlan) : AgentOp (Except String ExitStatus)
  | copyInstallation (dirs : List String) : AgentOp (Except String Staged)
  | pgConfig (flag : String) : AgentOp (Except String Output)
  | stagedPgCtlVersion : AgentOp (Except String Output)
  | stagedControlData : AgentOp (Except String Output)
  | pgCtlStart (port : UInt16) : AgentOp (Except String ExitStatus)
  | pgCtlStop : AgentOp (Except String ExitStatus)
  | psql (port : UInt16) (stmt : Statement) : AgentOp (Except String Output)
  | stanzaCreate (stanza : String) (port : UInt16) : AgentOp (Except String ExitStatus)
  | pgbackrestRestore (stanza : String) (label target : Option String) :
      AgentOp (Except String ExitStatus)
  | spawnPostgres : AgentOp (Except String Unit)
  | supervise : AgentOp (Except String Int)
  | stamp : AgentOp String
  | elapsed : AgentOp Nat
  | print (r : Report) : AgentOp Unit

/-- What the environment decides about one operation: whether it fails or its command exits
non-zero, what a failure leaves, and what it says. -/
structure AgentChoice where
  fails : Bool := false
  success : Bool := true
  /-- An effect that a failure did not prevent. -/
  applied : Bool := false
  leftover : Option Tree := none
  lines : List String := []
  text : String := ""
  number : Nat := 0

namespace AgentChoice

def exited (c : AgentChoice) : ExitStatus := ⟨c.success, c.text⟩

def failed (c : AgentChoice) : ExitStatus := ⟨false, c.text⟩

def output (c : AgentChoice) : Output := ⟨c.exited, c.lines, c.text⟩

end AgentChoice

namespace AgentOp

open Pgpod.Tree

/-- The data directory a successful `initdb` makes. -/
def freshCluster (image : PgImage) (password : Option String) (conf : List String) : Tree where
  files rel :=
    if rel = PG_VERSION then some [image.versionFile]
    else if rel = PG_CONTROL then some []
    else if rel = POSTGRESQL_CONF then some conf
    else none
  subdirs := []
  db := some
    { roles := fun r =>
        if r = SUPERUSER_ROLE then
          some { attrs := [.login, .replication], password }
        else none
      databases := fun d =>
        if d ∈ ["postgres", "template0", "template1"] then some SUPERUSER_ROLE else none
      contents := .fresh }

/-- The new cluster `pg_upgrade` leaves beside the old one. -/
def upgradedCluster (old new : Tree) : Tree :=
  { new.writeFile PG_CONTROL (some []) with db := old.db }

/-- The old cluster `pg_upgrade` leaves: in link mode its control file is moved away. -/
def retiredCluster (method : UpgradeMethod) (old : Tree) : Tree :=
  match method with
  | .link => old.writeFile PG_CONTROL none
  | .copy => old

/-- Change one existing directory. -/
def onTree (s : AgentState) (d : Dir) (f : Tree → Tree) : AgentState :=
  s.setTree d ((s.volume d).map f)

/-- The first line of the password file. -/
def pwfilePassword (s : AgentState) : Option String :=
  ((s.volume .conf).bind fun t => t.files PWFILE).bind List.head?

def exec {β : Type} : AgentOp β → AgentChoice → AgentState → β × AgentState
  | readEnv key, _, s => (s.env key, s)
  | readMount path, c, s => (if c.fails then .error c.text else .ok (s.mounts path), s)
  | dirExists d, _, s => ((s.volume d).isSome, s)
  | isFile d rel, _, s => (((s.volume d).bind fun t => t.files rel).isSome, s)
  | readFile d rel, c, s =>
    (if c.fails then .error c.text
     else match (s.volume d).bind fun t => t.files rel with
       | some lines => .ok lines
       | none => .error "No such file or directory (os error 2)", s)
  | readDir _, c, s => (if c.fails then .error c.text else .ok c.lines, s)
  | createDirAll d, c, s =>
    if c.fails then (.error c.text, s)
    else (.ok (), s.setTree d (some ((s.volume d).getD Tree.empty)))
  | createSubdir d rel, c, s =>
    if c.fails then (.error c.text, s)
    else
      let t := (s.volume d).getD Tree.empty
      (.ok (), s.setTree d (some { t with subdirs := rel :: t.subdirs }))
  | setPermissions _ _ _, c, s => (if c.fails then .error c.text else .ok (), s)
  | writeFile d rel lines, c, s =>
    if c.fails then
      (.error c.text, if c.applied then onTree s d (Tree.writeFile · rel (some c.lines)) else s)
    else (.ok (), onTree s d (Tree.writeFile · rel (some lines)))
  | appendFile d rel lines, c, s =>
    if c.fails then
      (.error c.text, onTree s d fun t => t.writeFile rel ((t.files rel).map (· ++ c.lines)))
    else (.ok (), onTree s d fun t => t.writeFile rel ((t.files rel).map (· ++ lines)))
  | renameFile d src dst, c, s =>
    if c.fails then (.error c.text, s)
    else (.ok (), onTree s d fun t => (t.writeFile dst (t.files src)).writeFile src none)
  | removeFile d rel, c, s =>
    if c.fails then (.error c.text, s) else (.ok (), onTree s d (Tree.writeFile · rel none))
  | removeDirAll d, c, s =>
    if c.fails then (.error c.text, s.setTree d c.leftover)
    else (.ok (), { s with volume := fun d' => if d.within d' then none else s.volume d' })
  | rename src dst, c, s =>
    if c.fails then (.error c.text, s)
    else match s.volume src with
      | none => (.error "No such file or directory (os error 2)", s)
      | some t => (.ok (), (s.setTree src none).setTree dst (some t))
  | initdb call, c, s =>
    if c.fails then (.error c.text, s)
    else if c.success then
      (.ok c.exited, s.setTree call.target (some
        (freshCluster s.image (if call.pwfile then pwfilePassword s else none) c.lines)))
    else (.ok c.exited, s.setTree call.target c.leftover)
  | pgUpgrade plan, c, s =>
    if c.fails then (.error c.text, s)
    else match s.volume .pgdata, s.volume .pgdataNew with
      | some old, some new =>
        if c.success then
          if plan.checkOnly then (.ok c.exited, s)
          else (.ok c.exited,
            (s.setTree .pgdata (some (retiredCluster plan.method old))).setTree .pgdataNew
              (some (upgradedCluster old new)))
        else
          -- a failure may come after the control file of a linked cluster was moved away
          (.ok c.exited,
            (s.setTree .pgdata (some (if c.applied then retiredCluster plan.method old else old))
              ).setTree .pgdataNew c.leftover)
      | _, _ => (.ok c.failed, s)
  | copyInstallation _, c, s =>
    (if c.fails then .error c.text else .ok ⟨c.lines, c.number, c.number⟩, s)
  | pgConfig flag, c, s =>
    if c.fails then (.error c.text, s)
    else if flag = "--version" then (.ok { c.output with stdout := [s.image.configVersion] }, s)
    else (.ok c.output, s)
  | stagedPgCtlVersion, c, s => (if c.fails then .error c.text else .ok c.output, s)
  | stagedControlData, c, s => (if c.fails then .error c.text else .ok c.output, s)
  | pgCtlStart port, c, s =>
    if c.fails then (.error c.text, s)
    else if c.success && ((s.volume .pgdata).any Tree.isCluster) then
      (.ok c.exited, { s with postmaster := some port })
    else (.ok c.failed, s)
  | pgCtlStop, c, s =>
    if c.fails then (.error c.text, s)
    else (.ok c.exited, if c.success then { s with postmaster := none } else s)
  | psql port stmt, c, s =>
    match (s.volume .pgdata).bind Tree.db with
    | none => (.ok { c.output with status := c.failed }, s)
    | some D =>
      if s.postmaster = some port then
        if c.fails then (.error c.text, s)
        else if c.success then
          (.ok { c.output with stdout := [stmt.answer D] }, s.mapDatabase (fun D => stmt.apply D))
        -- the connection may be lost after the statement committed
        else (.ok c.output, if c.applied then s.mapDatabase (fun D => stmt.apply D) else s)
      else (.ok { c.output with status := c.failed }, s)
  | stanzaCreate _ _, c, s => (if c.fails then .error c.text else .ok c.exited, s)
  | pgbackrestRestore stanza _ _, c, s =>
    if c.fails then (.error c.text, s)
    else match s.repository stanza with
      | some t =>
        if c.success then (.ok c.exited, s.setTree .pgdata (some t))
        else (.ok c.exited, s.setTree .pgdata c.leftover)
      | none => (.ok c.failed, s.setTree .pgdata c.leftover)
  | spawnPostgres, c, s =>
    if c.fails then (.error c.text, s)
    else (.ok (), { s with postmaster := some Container.PG_PORT })
  | supervise, c, s =>
    (if c.fails then .error c.text else .ok (Int.ofNat c.number), { s with postmaster := none })
  | stamp, c, s => (c.text, s)
  | elapsed, c, s => (c.number, s)
  | print r, _, s => ((), { s with reports := s.reports ++ [r] })

end AgentOp

/-- The agent alone on its volume: nothing else changes it. -/
def agentExec : Executable AgentOp AgentState AgentChoice Empty where
  exec op c s := op.exec c s
  move d _ := d.elim

def agentMachine : Machine AgentOp AgentState := agentExec.machine

end Pgpod
