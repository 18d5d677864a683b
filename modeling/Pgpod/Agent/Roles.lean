import Pgpod.Core.Spec

/-!
# Bootstrap SQL: roles and the application database

The statements the agent sends to its private postmaster right after `initdb`,
and what each does to the roles and databases of a cluster.
-/

namespace Pgpod

def REPLICATION_ROLE : String := "streaming_replica"
def POOLER_ROLE : String := "pgpod_pooler"
def MONITOR_ROLE : String := "pgpod_monitor"
def SUPERUSER_ROLE : String := "postgres"

inductive RoleAttr
  | login
  | replication
deriving DecidableEq, Repr

def RoleAttr.render : RoleAttr → String
  | login => "LOGIN"
  | replication => "REPLICATION"

structure Role where
  attrs : List RoleAttr
  password : Option String
  /-- Member of `pg_monitor`. -/
  monitor : Bool := false
deriving DecidableEq

/-- Whose data a cluster holds: nobody's yet, or the user's. -/
inductive Contents
  | fresh
  | user (tag : Nat)
deriving DecidableEq, Repr

/-- Who may execute a function besides its owner. -/
structure FunctionGrants where
  toPublic : Bool := true
  roles : List String := []
deriving DecidableEq

/-- What the data files of a cluster hold. -/
structure Database where
  roles : String → Option Role
  databases : String → Option String
  contents : Contents
  /-- The functions of the `postgres` database. -/
  functions : String → Option FunctionGrants := fun _ => none

/-- The statements pgpod runs, with what the text interpolates. -/
inductive Statement
  | alterRolePassword (role password : String)
  | createRoleIfAbsent (name : String) (attrs : List RoleAttr) (password : String)
  | grantPgMonitor (role : String)
  | databaseExists (name : String)
  | createDatabase (name owner : String)
  | createLookupFunction (name : String)
  | revokeFromPublic (function : String)
  | grantExecute (function role : String)
deriving DecidableEq

def quoteIdent (name : String) : String :=
  "\"" ++ String.ofList (name.toList.flatMap fun c => if c = '"' then ['"', '"'] else [c]) ++ "\""

def quoteLiteral (value : String) : String :=
  "'" ++ String.ofList (value.toList.flatMap fun c => if c = '\'' then ['\'', '\''] else [c]) ++ "'"

/-- The password a role has after `PASSWORD '…'`: the empty text takes it away. -/
def storedPassword (password : String) : Option String :=
  if password.isEmpty then none else some password

namespace Statement

/-- The SQL text. -/
def render : Statement → String
  | alterRolePassword role password =>
    "ALTER ROLE " ++ quoteIdent role ++ " WITH PASSWORD " ++ quoteLiteral password ++ ";"
  | createRoleIfAbsent name attrs password =>
    let attrs := " ".intercalate (attrs.map RoleAttr.render)
    "DO $pgpod$ BEGIN IF NOT EXISTS (SELECT FROM pg_roles WHERE rolname = " ++
      quoteLiteral name ++ ") THEN CREATE ROLE " ++ quoteIdent name ++ " " ++ attrs ++
      "; END IF; END $pgpod$; ALTER ROLE " ++ quoteIdent name ++ " WITH " ++ attrs ++
      " PASSWORD " ++ quoteLiteral password ++ ";"
  | grantPgMonitor role => "GRANT pg_monitor TO " ++ quoteIdent role ++ ";"
  | databaseExists name =>
    "SELECT 1 FROM pg_database WHERE datname = " ++ quoteLiteral name ++ ";"
  | createDatabase name owner =>
    "CREATE DATABASE " ++ quoteIdent name ++ " OWNER " ++ quoteIdent owner ++ ";"
  | createLookupFunction name =>
    "CREATE OR REPLACE FUNCTION " ++ quoteIdent name ++ "(uname text) RETURNS TABLE(passwd text) " ++
      "LANGUAGE sql SECURITY DEFINER SET search_path = pg_catalog, pg_temp " ++
      "AS $pgpod$ SELECT passwd FROM pg_shadow WHERE usename = uname; $pgpod$;"
  | revokeFromPublic function =>
    "REVOKE ALL ON FUNCTION " ++ quoteIdent function ++ "(text) FROM PUBLIC;"
  | grantExecute function role =>
    "GRANT EXECUTE ON FUNCTION " ++ quoteIdent function ++ "(text) TO " ++ quoteIdent role ++ ";"

/-- What the statement does when it commits. -/
def apply (D : Database) : Statement → Database
  | alterRolePassword role password =>
    { D with roles := fun r =>
        if r = role then (D.roles r).map fun x => { x with password := storedPassword password }
        else D.roles r }
  | createRoleIfAbsent name attrs password =>
    { D with roles := fun r =>
        if r = name then
          let old := (D.roles r).getD { attrs := [], password := none }
          some { old with attrs := old.attrs ++ attrs, password := storedPassword password }
        else D.roles r }
  | grantPgMonitor role =>
    { D with roles := fun r =>
        if r = role then (D.roles r).map fun x => { x with monitor := true } else D.roles r }
  | databaseExists _ => D
  | createDatabase name owner =>
    { D with databases := fun d => if d = name then some owner else D.databases d }
  | createLookupFunction name =>
    -- a function that is replaced keeps its privileges
    { D with functions := fun f => if f = name then some ((D.functions f).getD {}) else D.functions f }
  | revokeFromPublic function =>
    { D with functions := fun f =>
        if f = function then (D.functions f).map fun g => { g with toPublic := false }
        else D.functions f }
  | grantExecute function role =>
    { D with functions := fun f =>
        if f = function then (D.functions f).map fun g => { g with roles := g.roles ++ [role] }
        else D.functions f }

/-- The rows a query prints. -/
def answer (D : Database) : Statement → String
  | databaseExists name => if (D.databases name).isSome then "1" else ""
  | _ => ""

@[simp] theorem apply_contents (D : Database) (stmt : Statement) :
    (stmt.apply D).contents = D.contents := by
  cases stmt <;> rfl

/-- No statement drops a role. -/
theorem apply_roles_isSome {D : Database} {stmt : Statement} {r : String}
    (h : (D.roles r).isSome) : ((stmt.apply D).roles r).isSome := by
  cases stmt with
  | alterRolePassword role password =>
    by_cases hr : r = role <;> simp [apply, hr] <;> simpa [hr] using h
  | createRoleIfAbsent name attrs password => by_cases hr : r = name <;> simp [apply, hr, h]
  | grantPgMonitor role => by_cases hr : r = role <;> simp [apply, hr] <;> simpa [hr] using h
  | _ => exact h

/-- No statement drops a database. -/
theorem apply_databases_isSome {D : Database} {stmt : Statement} {d : String}
    (h : (D.databases d).isSome) : ((stmt.apply D).databases d).isSome := by
  cases stmt with
  | createDatabase name owner => by_cases hd : d = name <;> simp [apply, hd, h]
  | _ => exact h

end Statement

structure AppDatabase where
  database : String
  owner : String
  ownerPassword : String
deriving DecidableEq

structure BootstrapRoles where
  superuser : String
  superuserPassword : String
  replicationPassword : String
  monitorPassword : String
  app : Option AppDatabase
deriving DecidableEq

/-- Identifiers are `[a-z_][a-z0-9_]*`, at most 63 bytes. -/
def validIdentifier (name : String) : Bool :=
  !name.isEmpty && decide (name.utf8ByteSize ≤ 63) &&
    name.toList.head?.any (fun c => c.isLower || c == '_') &&
    name.toList.all fun c => c.isLower || c.isDigit || c == '_'

def validateIdentifier (name : String) : Except String Unit :=
  if validIdentifier name then .ok ()
  else .error (Text.debug name ++ " is not a valid PostgreSQL identifier — use lowercase " ++
    "letters, digits, and underscores, starting with a letter or underscore")

/-- The function the pooler's `auth_query` calls. -/
def poolerLookupFunction : String := POOLER_ROLE ++ "_lookup"

/-- The pooler's lookup role and function. -/
def poolerLookupSql (password : String) : Except String (List Statement) := do
  validateIdentifier POOLER_ROLE
  return [.createRoleIfAbsent POOLER_ROLE [.login] password,
    .createLookupFunction poolerLookupFunction,
    .revokeFromPublic poolerLookupFunction,
    .grantExecute poolerLookupFunction POOLER_ROLE]

namespace BootstrapRoles

/-- The statements to run in order, against the `postgres` database. -/
def statements (b : BootstrapRoles) : Except String (List Statement) := do
  validateIdentifier b.superuser
  validateIdentifier REPLICATION_ROLE
  validateIdentifier MONITOR_ROLE
  let base : List Statement :=
    [.alterRolePassword b.superuser b.superuserPassword,
     .createRoleIfAbsent REPLICATION_ROLE [.login, .replication] b.replicationPassword,
     .createRoleIfAbsent MONITOR_ROLE [.login] b.monitorPassword,
     .grantPgMonitor MONITOR_ROLE]
  match b.app with
  | none => return base
  | some app =>
    validateIdentifier app.owner
    validateIdentifier app.database
    return base ++ [.createRoleIfAbsent app.owner [.login] app.ownerPassword]

/-- The check whether the application database exists, and its creation. -/
def appDatabaseSql (b : BootstrapRoles) : Except String (Option (Statement × Statement)) := do
  match b.app with
  | none => return none
  | some app =>
    validateIdentifier app.owner
    validateIdentifier app.database
    return some (.databaseExists app.database, .createDatabase app.database app.owner)

end BootstrapRoles

end Pgpod
