import Pgpod.Agent.Configuration
import Pgpod.Control.Adoption
import Pgpod.Control.Apply
import Pgpod.Pg.Conf

/-!
# What the host accepts and the agent refuses

The host checks a manifest before it creates anything; the agent checks the spec it
is sent, in the container.  The two look at the same fields with different eyes: the
host knows only the reserved names, the agent only the grammars, and of a destination each
has a grammar of its own.
-/

namespace Pgpod

namespace Control

/-- The manifest passes every check the host makes before it creates anything. -/
structure HostAccepts (host : Host) (m : ClusterManifest) (inst : InstanceId) (ctx : ApplyContext)
    (spec : InstanceSpec) : Prop where
  manifest : m.validate = .ok ()
  parameters : validateParameters m = .ok ()
  spec : instanceSpec host m inst ctx = .ok spec

/-- The destinations pgBackRest is configured for: a restored instance reads the source's until it
has been promoted. -/
def destinationsOf (spec : InstanceSpec) (recovering : Bool) : List Destination :=
  ((spec.recovery.filter fun _ => recovering).map RecoveryBootstrap.destinations).getD
    spec.backup.destinations

/-- The agent can configure pgBackRest, whenever it is to, render the parameters and, after an
`initdb`, the SQL for the roles. -/
structure AgentAccepts (spec : InstanceSpec) (secrets : InstanceSecrets) : Prop where
  pgbackrestConf : ∀ recovering credentials, (destinationsOf spec recovering).isEmpty = false →
    ∃ config, pgbackrestConfigOf spec (destinationsOf spec recovering) credentials = .ok config
  userConf : ∃ text, renderUserConf spec.parameters = .ok text
  roles : ∀ init, spec.bootstrap = .initdb init →
    ∃ app stmts sql, Agent.appDatabase init secrets = .ok app ∧
      (Agent.bootstrapRoles app secrets).statements = .ok stmts ∧
      (Agent.bootstrapRoles app secrets).appDatabaseSql = .ok sql

/-! ## Destinations -/

theorem pgbackrestConfigOf_builds_iff {spec : InstanceSpec} {destinations : List Destination}
    (credentials : List (List (String × String))) (hsome : destinations.isEmpty = false) :
    (∃ config, pgbackrestConfigOf spec destinations credentials = .ok config) ↔
      pgbackrestOk destinations spec.backup = true := by
  rw [← builds_iff hsome spec.inst.cluster.asStr]
  unfold pgbackrestConfigOf
  cases PgBackRestConfig.new spec.inst.cluster.asStr destinations spec.backup.retention
    spec.backup.retentionMode <;> simp [bind, Except.bind, pure, Except.pure]

theorem pgbackrestOk_sanitized (destinations : List Destination) (backup : BackupSpec) :
    pgbackrestOk (destinations.map Destination.sanitized) backup =
      pgbackrestOk destinations backup := by
  simp only [pgbackrestOk, List.isEmpty_map, List.length_map, List.all_map]
  rfl

/-- The manifest's destinations, and those of the cluster a recovery reads from, are such as the
agent can configure. -/
def destinationsOk (m : ClusterManifest) : Bootstrap → Bool
  | .initdb _ => pgbackrestOk m.spec.backup.destinations m.spec.backup
  | .recovery r => pgbackrestOk m.spec.backup.destinations m.spec.backup &&
      pgbackrestOk r.destinations m.spec.backup

theorem pgbackrestConf_builds_iff {m : ClusterManifest} {inst : InstanceId} {ctx : ApplyContext} :
    (∀ recovering credentials,
      (destinationsOf (buildInstanceSpec m inst ctx) recovering).isEmpty = false →
        ∃ config, pgbackrestConfigOf (buildInstanceSpec m inst ctx)
          (destinationsOf (buildInstanceSpec m inst ctx) recovering) credentials = .ok config) ↔
      destinationsOk m ctx.bootstrap = true := by
  have hone : ∀ destinations, (∀ credentials : List (List (String × String)),
      destinations.isEmpty = false → ∃ config, pgbackrestConfigOf
        (buildInstanceSpec m inst ctx) destinations credentials = .ok config) ↔
      pgbackrestOk destinations m.spec.backup = true := by
    intro destinations
    cases hempty : destinations.isEmpty with
    | true => simp [pgbackrestOk, hempty]
    | false =>
      constructor
      · exact fun h => (pgbackrestConfigOf_builds_iff [] hempty).1 (h [] rfl)
      · exact fun h credentials _ => (pgbackrestConfigOf_builds_iff credentials hempty).2 h
  have hown : pgbackrestOk (buildInstanceSpec m inst ctx).backup.destinations m.spec.backup =
      pgbackrestOk m.spec.backup.destinations m.spec.backup := pgbackrestOk_sanitized _ _
  rw [forall_congr' fun recovering => hone (destinationsOf (buildInstanceSpec m inst ctx) recovering),
    Bool.forall_bool]
  cases hbootstrap : ctx.bootstrap with
  | initdb init =>
    have hnone : (buildInstanceSpec m inst ctx).recovery = none := by
      simp only [InstanceSpec.recovery, buildInstanceSpec, hbootstrap]
    simp only [destinationsOf, hnone, Option.filter_none, Option.map_none, Option.getD_none, hown,
      and_self, destinationsOk]
  | recovery r =>
    have hsome : (buildInstanceSpec m inst ctx).recovery = some r := by
      simp only [InstanceSpec.recovery, buildInstanceSpec, hbootstrap]
    simp [destinationsOf, hsome, hown, destinationsOk, Option.filter]

/-! ## Parameters -/

theorem reservedParameter_eq_none {params : List (String × String)} :
    reservedParameter params = none ↔
      ∀ kv ∈ params, normalizedKey kv.1 ∉ RESERVED_PARAMETERS := by
  induction params with
  | nil => simp [reservedParameter]
  | cons kv rest ih =>
    obtain ⟨key, value⟩ := kv
    rw [List.forall_mem_cons, ← ih, reservedParameter]
    change (if RESERVED_PARAMETERS.contains (normalizedKey key) = true then
      some (normalizedKey key) else reservedParameter rest) = none ↔ _
    by_cases h : normalizedKey key ∈ RESERVED_PARAMETERS
    · rw [if_pos (List.contains_iff_mem.2 h)]
      simp [h]
    · rw [if_neg (mt List.contains_iff_mem.1 h)]
      simp [h]

theorem validateParameters_eq_ok {m : ClusterManifest} :
    validateParameters m = .ok () ↔ reservedParameter m.parameters = none := by
  unfold validateParameters
  cases reservedParameter m.parameters <;> simp

/-- Every parameter's name is one PostgreSQL could have. -/
def parameterNamesOk (m : ClusterManifest) : Bool :=
  m.parameters.all fun kv => isValidParameterName (normalizedKey kv.1)

/-- Beyond the reserved names, the agent looks at the grammar of a name. -/
theorem renderUserConf_of_validateParameters {m : ClusterManifest}
    (h : validateParameters m = .ok ()) :
    (∃ text, renderUserConf m.parameters = .ok text) ↔ parameterNamesOk m = true := by
  have hreserved := reservedParameter_eq_none.1 (validateParameters_eq_ok.1 h)
  rw [renderUserConf_isOk, parameterNamesOk, List.all_eq_true]
  refine forall₂_congr fun kv hkv => ?_
  simp [acceptedKey, hreserved kv hkv]

/-! ## Roles -/

theorem validateIdentifier_of_valid {name : String} (h : validIdentifier name = true) :
    validateIdentifier name = .ok () := if_pos h

theorem validateIdentifier_of_not_valid {name : String} (h : ¬ validIdentifier name = true) :
    ∃ why, validateIdentifier name = .error why := ⟨_, if_neg h⟩

/-- The application database is not asked for, or both halves are there and are identifiers. -/
def appDatabaseOk (init : InitdbBootstrap) : Bool :=
  match init.database, init.owner with
  | some database, some owner => validIdentifier database && validIdentifier owner
  | none, none => true
  | _, _ => false

/-- Neither the roles' statements nor the database's are refused for any other reason than the
identifiers of the application database. -/
theorem roles_render_iff {app : Option AppDatabase} {secrets : InstanceSecrets} :
    (∃ stmts sql, (Agent.bootstrapRoles app secrets).statements = .ok stmts ∧
        (Agent.bootstrapRoles app secrets).appDatabaseSql = .ok sql) ↔
      ∀ a, app = some a → validIdentifier a.database = true ∧ validIdentifier a.owner = true := by
  have hsuper : validateIdentifier SUPERUSER_ROLE = .ok () := by decide
  have hrepl : validateIdentifier REPLICATION_ROLE = .ok () := by decide
  have hmonitor : validateIdentifier MONITOR_ROLE = .ok () := by decide
  simp only [BootstrapRoles.statements, BootstrapRoles.appDatabaseSql, Agent.bootstrapRoles,
    hsuper, hrepl, hmonitor, bind, Except.bind, pure, Except.pure]
  cases app with
  | none => simp
  | some a =>
    by_cases howner : validIdentifier a.owner = true
    · by_cases hdatabase : validIdentifier a.database = true
      · simp [validateIdentifier_of_valid howner, validateIdentifier_of_valid hdatabase,
          howner, hdatabase]
      · obtain ⟨why, hwhy⟩ := validateIdentifier_of_not_valid hdatabase
        simp [validateIdentifier_of_valid howner, hwhy, hdatabase]
    · obtain ⟨why, hwhy⟩ := validateIdentifier_of_not_valid howner
      simp [hwhy, howner]

theorem createRoles_builds_iff {init : InitdbBootstrap} {secrets : InstanceSecrets} :
    (∃ app stmts sql, Agent.appDatabase init secrets = .ok app ∧
        (Agent.bootstrapRoles app secrets).statements = .ok stmts ∧
        (Agent.bootstrapRoles app secrets).appDatabaseSql = .ok sql) ↔
      appDatabaseOk init = true := by
  have happ {app : Option AppDatabase} (h : Agent.appDatabase init secrets = .ok app) :
      (∃ app stmts sql, Agent.appDatabase init secrets = .ok app ∧
        (Agent.bootstrapRoles app secrets).statements = .ok stmts ∧
        (Agent.bootstrapRoles app secrets).appDatabaseSql = .ok sql) ↔
      ∀ a, app = some a → validIdentifier a.database = true ∧ validIdentifier a.owner = true := by
    rw [← @roles_render_iff app secrets]
    constructor
    · rintro ⟨app', stmts, sql, hok, hstmts, hsql⟩
      rw [h] at hok
      cases hok
      exact ⟨stmts, sql, hstmts, hsql⟩
    · rintro ⟨stmts, sql, hstmts, hsql⟩
      exact ⟨app, stmts, sql, h, hstmts, hsql⟩
  unfold appDatabaseOk
  cases hdatabase : init.database with
  | none =>
    cases howner : init.owner with
    | none =>
      have hok : Agent.appDatabase init secrets = .ok none := by
        simp only [Agent.appDatabase, hdatabase, howner]
      simpa using happ hok
    | some owner => simp [Agent.appDatabase, hdatabase, howner]
  | some database =>
    cases howner : init.owner with
    | none => simp [Agent.appDatabase, hdatabase, howner]
    | some owner =>
      have hok : Agent.appDatabase init secrets = .ok (some ⟨database, owner,
          secrets.appOwner.getD secrets.superuser⟩) := by
        simp only [Agent.appDatabase, hdatabase, howner]
      simpa using happ hok

/-- **What the host accepts, the agent accepts exactly when every parameter's name is in
PostgreSQL's grammar, the application database is named in full, by identifiers, and the
destinations are such as pgBackRest can be configured for.** -/
theorem agentAccepts_iff {host : Host} {m : ClusterManifest} {inst : InstanceId}
    {ctx : ApplyContext} {spec : InstanceSpec} (h : HostAccepts host m inst ctx spec)
    (secrets : InstanceSecrets) :
    AgentAccepts spec secrets ↔
      destinationsOk m ctx.bootstrap = true ∧ parameterNamesOk m = true ∧
        ∀ init, ctx.bootstrap = .initdb init → appDatabaseOk init = true := by
  obtain ⟨rfl, -⟩ := instanceSpec_eq_ok.1 h.spec
  rw [← renderUserConf_of_validateParameters h.parameters, ← @pgbackrestConf_builds_iff m inst ctx]
  constructor
  · intro hagent
    exact ⟨hagent.pgbackrestConf, hagent.userConf,
      fun init hinit => createRoles_builds_iff.1 (hagent.roles init hinit)⟩
  · rintro ⟨hbackup, hparams, hroles⟩
    exact ⟨hbackup, hparams, fun init hinit => createRoles_builds_iff.2 (hroles init hinit)⟩

namespace Sample

/-- The minimal manifest with one parameter of an extension. -/
def tracking : ClusterManifest :=
  { minimalManifest 999 with
    spec := { (minimalManifest 999).spec with
      postgresql := { parameters := .single "pg_stat_statements.track" "all" } } }

def applying (m : ClusterManifest) : ApplyContext where
  bootstrap := .initdb m.spec.bootstrap.initdb
  networkCidr := some "10.89.0.0/24"
  secrets := .forCluster mydb
  agent := minimalHost.agentBinary
  recreate := false
  desiredImageId := some "sha256:5a1e"

def passwords : InstanceSecrets := ⟨"s", "r", "m", none⟩

/-- A parameter of an extension has a dot in its name: the host takes it, the agent does not. -/
theorem tracking_refused_by_agent :
    HostAccepts minimalHost tracking (mydb.inst 1) (applying tracking)
        (buildInstanceSpec tracking (mydb.inst 1) (applying tracking)) ∧
      ¬ AgentAccepts (buildInstanceSpec tracking (mydb.inst 1) (applying tracking)) passwords := by
  refine ⟨⟨by decide +kernel, by decide +kernel, instanceSpec_eq_ok.2 ⟨rfl, by decide +kernel⟩⟩,
    fun hagent => ?_⟩
  obtain ⟨text, htext⟩ := hagent.userConf
  have hrefused : renderUserConf tracking.parameters =
      .error (.invalidParameterName "pg_stat_statements.track") := by decide +kernel
  exact nomatch hrefused.symm.trans htext

/-- A parameter, an application database and an archive, all of them in both grammars. -/
def full : ClusterManifest :=
  { minimalManifest 999 with
    spec := { (minimalManifest 999).spec with
      bootstrap := { initdb := { database := some "app", owner := some "app_owner" } }
      postgresql := { parameters := .single "work_mem" "16MB" }
      backup :=
        { destinations := [{ url := "file:///archive/mydb" }], volume := some "mydb-archive"
          retention := some "14d", retentionMode := .enforce } } }

/-- What the full manifest asks for the agent does. -/
theorem full_agentAccepts :
    HostAccepts minimalHost full (mydb.inst 1) (applying full)
        (buildInstanceSpec full (mydb.inst 1) (applying full)) ∧
      AgentAccepts (buildInstanceSpec full (mydb.inst 1) (applying full)) passwords := by
  have hhost : HostAccepts minimalHost full (mydb.inst 1) (applying full)
      (buildInstanceSpec full (mydb.inst 1) (applying full)) :=
    ⟨by decide +kernel, by decide +kernel, instanceSpec_eq_ok.2 ⟨rfl, by decide +kernel⟩⟩
  refine ⟨hhost, (agentAccepts_iff hhost passwords).2
    ⟨by decide +kernel, by decide +kernel, fun init hinit => ?_⟩⟩
  cases hinit
  decide +kernel

end Sample

end Control

end Pgpod
