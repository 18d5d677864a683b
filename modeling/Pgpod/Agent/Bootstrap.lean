import Pgpod.Agent.Main

/-!
# The bootstrap, resumed from one test

What a start has to do depends on `PG_VERSION` alone: the include line and the
roles are the work of the start that ran `initdb`.  A start that gets that far
and no further leaves a data directory that every later start serves as it is.
-/

namespace Pgpod

open Effect

namespace Agent

/-! ## A bootstrapped data directory -/

/-- Every role the bootstrap of `init` creates. -/
def wantedRoles (init : InitdbBootstrap) : List String :=
  [SUPERUSER_ROLE, REPLICATION_ROLE, MONITOR_ROLE] ++ init.owner.toList

/-- The roles and the application database asked for are there. -/
structure Wanted (init : InitdbBootstrap) (D : Database) : Prop where
  roles : ∀ r ∈ wantedRoles init, (D.roles r).isSome = true
  database : ∀ d, init.database = some d → (D.databases d).isSome = true

def HasInclude (t : Tree) : Prop :=
  ∃ lines, t.files Tree.POSTGRESQL_CONF = some lines ∧
    ∃ l ∈ lines, Text.trim l = INCLUDE_DIR_LINE

/-- `postgresql.conf` has the include line. -/
def Included (v : Volume) : Prop := ∃ t, v .pgdata = some t ∧ HasInclude t

/-- PGDATA is initialised, and its database satisfies `P`. -/
def Carries (P : Database → Prop) (v : Volume) : Prop :=
  ∃ t D, v .pgdata = some t ∧ t.isInitialised = true ∧ t.db = some D ∧ P D

/-- What the first successful start leaves. -/
def Ready (init : InitdbBootstrap) (v : Volume) : Prop := Included v ∧ Carries (Wanted init) v

/-- PGDATA is absent, or there is no `PG_VERSION` in it. -/
def Blank (v : Volume) : Prop := ∀ t, v .pgdata = some t → t.isInitialised = false

theorem Carries.mono {P Q : Database → Prop} {v : Volume} (hPQ : ∀ D, P D → Q D)
    (h : Carries P v) : Carries Q v := by
  obtain ⟨t, D, ht, hinit, hD, hP⟩ := h
  exact ⟨t, D, ht, hinit, hD, hPQ D hP⟩

theorem Included.frame {s t : AgentState} (h : Frame s t) (hs : Included s.volume) :
    Included t.volume := by
  obtain ⟨tr, htr, lines, hlines, hinclude⟩ := hs
  obtain ⟨tr', htr', hcore⟩ := h.kept rfl htr
  refine ⟨tr', htr', lines, ?_, hinclude⟩
  rw [hcore.files _ (by simp [Tree.vital]), hlines]

theorem Carries.frame {P : Database → Prop} {s t : AgentState} (h : Frame s t)
    (hs : Carries P s.volume) : Carries P t.volume := by
  obtain ⟨tr, D, htr, hinit, hD, hP⟩ := hs
  obtain ⟨tr', htr', hcore⟩ := h.kept rfl htr
  exact ⟨tr', D, htr', by rw [hcore.isInitialised, hinit], by rw [hcore.db, hD], hP⟩

theorem Blank.frame {s t : AgentState} (h : Frame s t) (hs : Blank s.volume) :
    Blank t.volume := by
  intro tr' htr'
  have hgrows := h .pgdata rfl
  rw [htr'] at hgrows
  cases hsome : s.volume .pgdata with
  | none =>
    rw [hsome] at hgrows
    rw [Tree.SameCore.isInitialised hgrows]
    rfl
  | some tr =>
    rw [hsome] at hgrows
    rw [Tree.SameCore.isInitialised hgrows]
    exact hs tr hsome

theorem Carries.not_blank {P : Database → Prop} {v : Volume} (h : Carries P v) : ¬ Blank v := by
  obtain ⟨t, D, ht, hinit, -⟩ := h
  intro hblank
  rw [hblank t ht] at hinit
  exact absurd hinit (by decide)

/-! ## What a statement makes -/

/-- What the statement leaves behind once it has committed. -/
def Made : Statement → Database → Prop
  | .createRoleIfAbsent name _ _, D => (D.roles name).isSome = true
  | .createDatabase name _, D => (D.databases name).isSome = true
  | _, _ => True

/-- No later statement undoes it. -/
def Closed (P : Database → Prop) : Prop := ∀ D (stmt : Statement), P D → P (stmt.apply D)

theorem made_apply (stmt : Statement) (D : Database) : Made stmt (stmt.apply D) := by
  cases stmt with
  | createRoleIfAbsent name attrs password => simp [Made, Statement.apply]
  | createDatabase name owner => simp [Made, Statement.apply]
  | _ => trivial

theorem closed_role (r : String) : Closed fun D => (D.roles r).isSome = true :=
  fun _ _ h => Statement.apply_roles_isSome h

theorem closed_database (d : String) : Closed fun D => (D.databases d).isSome = true :=
  fun _ _ h => Statement.apply_databases_isSome h

theorem closed_made (stmt : Statement) : Closed (Made stmt) := by
  cases stmt with
  | createRoleIfAbsent name attrs password => exact closed_role name
  | createDatabase name owner => exact closed_database name
  | _ => exact fun _ _ _ => trivial

theorem Closed.and {P Q : Database → Prop} (hP : Closed P) (hQ : Closed Q) :
    Closed fun D => P D ∧ Q D :=
  fun D stmt h => ⟨hP D stmt h.1, hQ D stmt h.2⟩

/-- A statement commits, or nothing changes; the exit status tells when it did for sure. -/
theorem psql_step {port : UInt16} {stmt : Statement} {s t : AgentState}
    {r : Except String Output} (h : agentMachine.step (AgentOp.psql port stmt) s r t) :
    (t = s ∧ ∀ out, r = .ok out → out.status.success = false) ∨
      (t = s.mapDatabase (fun D => stmt.apply D) ∧
        ∀ out, r = .ok out → out.status.success = true →
          ∃ tr D, s.volume .pgdata = some tr ∧ tr.db = some D ∧ out.stdout = [stmt.answer D]) := by
  obtain ⟨c, hc⟩ := h
  have hc' : (AgentOp.psql port stmt).exec c s = (r, t) := hc
  simp only [AgentOp.exec] at hc'
  split at hc'
  · obtain ⟨rfl, rfl⟩ := Prod.mk.inj hc'
    exact .inl ⟨rfl, by rintro out ⟨⟩; rfl⟩
  rename_i D hD
  split at hc'
  · split at hc'
    · obtain ⟨rfl, rfl⟩ := Prod.mk.inj hc'
      exact .inl ⟨rfl, by rintro out ⟨⟩⟩
    split at hc'
    · obtain ⟨rfl, rfl⟩ := Prod.mk.inj hc'
      obtain ⟨tr, htr, hdb⟩ := Option.bind_eq_some_iff.mp hD
      exact .inr ⟨rfl, by rintro out ⟨⟩ -; exact ⟨tr, D, htr, hdb, rfl⟩⟩
    · rename_i hfail
      have hstatus : c.output.status.success = false := by
        simpa [AgentChoice.output, AgentChoice.exited] using hfail
      obtain ⟨rfl, rfl⟩ := Prod.mk.inj hc'
      split
      · exact .inr ⟨rfl, by rintro out ⟨⟩ hok; exact absurd hok (by simp [hstatus])⟩
      · exact .inl ⟨rfl, by rintro out ⟨⟩; exact hstatus⟩
  · obtain ⟨rfl, rfl⟩ := Prod.mk.inj hc'
    exact .inl ⟨rfl, by rintro out ⟨⟩; rfl⟩

/-! ## Programs of statements -/

/-- At the start of the server for good, the bootstrap of `init` has been carried out. -/
def Bootstrapped.Guard (init : InitdbBootstrap) ⦃β : Type⦄ (op : AgentOp β)
    (s : AgentState) : Prop :=
  match op with
  | .spawnPostgres => Ready init s.volume
  | _ => True

section

variable {init : InitdbBootstrap}

/-- A data directory with its include line and a database satisfying `P`. -/
def Holding (P : Database → Prop) (s : AgentState) : Prop := Included s.volume ∧ Carries P s.volume

theorem Holding.mono {P Q : Database → Prop} {s : AgentState} (hPQ : ∀ D, P D → Q D)
    (h : Holding P s) : Holding Q s := ⟨h.1, h.2.mono hPQ⟩

theorem Holding.mapDatabase {P : Database → Prop} {s : AgentState} {f : Database → Database}
    {Q : Database → Prop} (hf : ∀ D, P D → Q (f D)) (h : Holding P s) :
    Holding Q (s.mapDatabase f) := by
  obtain ⟨⟨t, ht, hinclude⟩, t', D, ht', hinit, hD, hP⟩ := h
  obtain rfl : t = t' := Option.some.inj (ht.symm.trans ht')
  have hmap : (s.mapDatabase f).volume .pgdata = some { t with db := t.db.map f } := by
    simp [AgentState.mapDatabase, ht]
  exact ⟨⟨_, hmap, hinclude⟩, _, f D, hmap, hinit, by simp [hD], hf D hP⟩

/-- A statement keeps what no statement undoes, and leaves its own effect when it succeeds. -/
theorem Holding.psql {P : Database → Prop} (hP : Closed P) {port : UInt16} {stmt : Statement}
    {s t : AgentState} {r : Except String Output} (hs : Holding P s)
    (h : agentMachine.step (AgentOp.psql port stmt) s r t) :
    Holding P t ∧ ∀ out, r = .ok out → out.status.success = true →
      Holding (fun D => P D ∧ Made stmt D) t := by
  obtain ⟨rfl, hfail⟩ | ⟨rfl, -⟩ := psql_step h
  · refine ⟨hs, fun out hout hok => ?_⟩
    rw [hfail out hout] at hok
    exact absurd hok (by decide)
  · exact ⟨hs.mapDatabase fun D hD => hP D stmt hD,
      fun _ _ _ => hs.mapDatabase fun D hD => ⟨hP D stmt hD, made_apply stmt D⟩⟩

theorem executeOn_makes {P : Database → Prop} (hP : Closed P) (port : UInt16) (stmt : Statement)
    (what : String) :
    agentMachine.Triple (Bootstrapped.Guard init) (Holding P) (executeOn port stmt what).run
      fun r s => Holding P s ∧ (r = .ok () → Holding (fun D => P D ∧ Made stmt D) s) := by
  have hpsql : agentMachine.Triple (Bootstrapped.Guard init) (Holding P)
      (context "failed to run psql" (Task.ask (.psql port stmt))).run
      fun r s => Holding P s ∧ ∀ out, r = .ok out → out.status.success = true →
        Holding (fun D => P D ∧ Made stmt D) s :=
    triple_ask (fun _ _ => trivial) (fun s r t hs hstep => hs.psql hP hstep)
      fun _ _ _ h => ⟨h.1, by simp⟩
  refine Machine.Triple.task_bind hpsql (fun out => ?_) (fun _ => stable _)
    fun _ _ h => ⟨h.1, by simp⟩
  split
  · rename_i hok
    exact .ret (stable _) fun s h => ⟨h.1, fun _ => h.2 out rfl hok⟩
  · exact .ret (stable _) fun s h => ⟨h.1, by simp⟩

theorem executeAll_makes {P : Database → Prop} (hP : Closed P) (port : UInt16)
    (stmts : List Statement) :
    agentMachine.Triple (Bootstrapped.Guard init) (Holding P) (executeAll port stmts).run
      fun r s => Holding P s ∧
        (r = .ok () → Holding (fun D => P D ∧ ∀ stmt ∈ stmts, Made stmt D) s) := by
  induction stmts generalizing P with
  | nil =>
    refine .ret (stable _) fun s hs => ⟨hs, fun _ => hs.mono fun D hD => ⟨hD, ?_⟩⟩
    simp
  | cons stmt rest ih =>
    refine Machine.Triple.task_bind (executeOn_makes hP port stmt _) (fun _ => ?_)
      (fun _ => stable _) fun _ _ h => ⟨h.1, by simp⟩
    have hrest := ih (hP.and (closed_made stmt))
    refine (hrest.strengthen fun s hs => hs.2 rfl).weaken fun r s hs => ⟨?_, fun hok => ?_⟩
    · exact hs.1.mono fun D hD => hD.1
    · refine (hs.2 hok).mono fun D hD => ⟨hD.1.1, ?_⟩
      simpa using ⟨hD.1.2, hD.2⟩

/-- What the query for a database prints is empty exactly when there is none. -/
theorem trim_answer_databaseExists (D : Database) (name : String) :
    (Text.trim (Text.trim ("\n".intercalate [(Statement.databaseExists name).answer D]))).isEmpty =
      (D.databases name).isNone := by
  cases h : D.databases name with
  | none => simp only [Statement.answer, h, Option.isSome_none, Option.isNone_none]; rfl
  | some owner =>
    simp only [Statement.answer, h, Option.isSome_some, Option.isNone_some]
    decide

theorem queryOn_finds {P : Database → Prop} (hP : Closed P) (port : UInt16) (name : String) :
    agentMachine.Triple (Bootstrapped.Guard init) (Holding P)
      (queryOn port (.databaseExists name)).run
      fun r s => Holding P s ∧ ∀ found, r = .ok found → (Text.trim found).isEmpty = false →
        Holding (fun D => P D ∧ (D.databases name).isSome = true) s := by
  have hpsql : agentMachine.Triple (Bootstrapped.Guard init) (Holding P)
      (context "failed to run psql — is it on PATH in this image?"
        (Task.ask (.psql port (.databaseExists name)))).run
      fun r s => Holding P s ∧ ∀ out, r = .ok out → out.status.success = true →
        ∃ D, out.stdout = [(Statement.databaseExists name).answer D] ∧
          Holding (fun D' => P D' ∧ D' = D) s := by
    refine triple_ask (fun _ _ => trivial) ?_ fun _ _ _ h => ⟨h.1, by simp⟩
    intro s r t hs hstep
    refine ⟨(hs.psql hP hstep).1, fun out hout hok => ?_⟩
    obtain ⟨rfl, hfail⟩ | ⟨rfl, hsuccess⟩ := psql_step hstep
    · rw [hfail out hout] at hok
      exact absurd hok (by decide)
    · obtain ⟨tr, D, htr, hD, hstdout⟩ := hsuccess out hout hok
      have hexact : Holding (fun D' => P D' ∧ D' = D) s := by
        obtain ⟨hincluded, tr', D', htr', hinit, hD', hPD⟩ := hs
        obtain rfl : tr = tr' := Option.some.inj (htr.symm.trans htr')
        obtain rfl : D = D' := Option.some.inj (hD.symm.trans hD')
        exact ⟨hincluded, tr, D, htr, hinit, hD, hPD, rfl⟩
      exact ⟨D, hstdout, hexact.mapDatabase fun D' hD' => hD'⟩
  refine Machine.Triple.task_bind hpsql (fun out => ?_) (fun _ => stable _)
    fun _ _ h => ⟨h.1, by simp⟩
  split
  · rename_i hok
    refine .ret (stable _) fun s h => ⟨h.1, ?_⟩
    rintro found ⟨⟩ hfound
    obtain ⟨D, hstdout, hholding⟩ := h.2 out rfl hok
    rw [hstdout, trim_answer_databaseExists] at hfound
    refine hholding.mono fun D' hD' => ⟨hD'.1, ?_⟩
    rw [hD'.2, ← Option.not_isNone, hfound]
    rfl
  · exact .ret (stable _) fun s h => ⟨h.1, by simp⟩

theorem createAppDatabase_makes {P : Database → Prop} (hP : Closed P) (database owner : String) :
    agentMachine.Triple (Bootstrapped.Guard init) (Holding P)
      (createAppDatabase (some (.databaseExists database, .createDatabase database owner))).run
      fun r s => Holding P s ∧
        (r = .ok () → Holding (fun D => P D ∧ (D.databases database).isSome = true) s) := by
  refine Machine.Triple.task_bind (queryOn_finds hP _ _) (fun found => ?_) (fun _ => stable _)
    fun _ _ h => ⟨h.1, by simp⟩
  split
  · exact (executeOn_makes hP _ _ _).strengthen fun s h => h.1
  · rename_i hfound
    exact .ret (stable _) fun s h => ⟨h.1, fun _ => h.2 found rfl (by simpa using hfound)⟩

/-! ## `create_roles` -/

theorem statements_eq_ok {b : BootstrapRoles} {stmts : List Statement}
    (h : b.statements = .ok stmts) :
    .createRoleIfAbsent REPLICATION_ROLE [.login, .replication] b.replicationPassword ∈ stmts ∧
    .createRoleIfAbsent MONITOR_ROLE [.login] b.monitorPassword ∈ stmts ∧
    ∀ app, b.app = some app →
      .createRoleIfAbsent app.owner [.login] app.ownerPassword ∈ stmts := by
  unfold BootstrapRoles.statements at h
  obtain ⟨_, -, h⟩ := except_bind_eq_ok.mp h
  obtain ⟨_, -, h⟩ := except_bind_eq_ok.mp h
  obtain ⟨_, -, h⟩ := except_bind_eq_ok.mp h
  cases happ : b.app with
  | none =>
    simp only [happ] at h
    cases h
    simp
  | some app =>
    simp only [happ] at h
    obtain ⟨_, -, h⟩ := except_bind_eq_ok.mp h
    obtain ⟨_, -, h⟩ := except_bind_eq_ok.mp h
    cases h
    simp

theorem appDatabaseSql_eq_ok {b : BootstrapRoles} {sql : Option (Statement × Statement)}
    (h : b.appDatabaseSql = .ok sql) :
    sql = b.app.map fun app =>
      (.databaseExists app.database, .createDatabase app.database app.owner) := by
  unfold BootstrapRoles.appDatabaseSql at h
  cases happ : b.app with
  | none =>
    simp only [happ] at h
    cases h
    rfl
  | some app =>
    simp only [happ] at h
    obtain ⟨_, -, h⟩ := except_bind_eq_ok.mp h
    obtain ⟨_, -, h⟩ := except_bind_eq_ok.mp h
    cases h
    rfl

theorem appDatabase_eq_ok {secrets : InstanceSecrets} {app : Option AppDatabase}
    (h : appDatabase init secrets = .ok app) :
    init.owner = app.map AppDatabase.owner ∧ init.database = app.map AppDatabase.database := by
  unfold appDatabase at h
  split at h
  · rename_i database owner hdatabase howner
    cases h
    exact ⟨howner, hdatabase⟩
  · rename_i hdatabase howner
    cases h
    exact ⟨howner, hdatabase⟩
  · cases h

/-- The superuser is there as soon as `initdb` has succeeded. -/
def Super (D : Database) : Prop := (D.roles SUPERUSER_ROLE).isSome = true

theorem closed_superuser : Closed Super := closed_role SUPERUSER_ROLE

/-- Everything the statements of `create_roles` make is what the spec asked for. -/
theorem wanted_of_made {secrets : InstanceSecrets} {app : Option AppDatabase}
    {stmts : List Statement} {D : Database} (happ : appDatabase init secrets = .ok app)
    (hstmts : (bootstrapRoles app secrets).statements = .ok stmts)
    (hsuper : Super D) (hmade : ∀ stmt ∈ stmts, Made stmt D)
    (hdatabase : ∀ a, app = some a → (D.databases a.database).isSome = true) :
    Wanted init D := by
  obtain ⟨howner, hname⟩ := appDatabase_eq_ok happ
  obtain ⟨hreplication, hmonitor, happOwner⟩ := statements_eq_ok hstmts
  refine ⟨fun r hr => ?_, fun d hd => ?_⟩
  · simp only [wantedRoles, List.mem_append, List.mem_cons, List.not_mem_nil, or_false,
      Option.mem_toList] at hr
    rcases hr with (rfl | rfl | rfl) | hr
    · exact hsuper
    · exact hmade _ hreplication
    · exact hmade _ hmonitor
    · rw [howner, Option.map_eq_some_iff] at hr
      obtain ⟨a, rfl, rfl⟩ := hr
      exact hmade _ (happOwner a rfl)
  · rw [hname, Option.map_eq_some_iff] at hd
    obtain ⟨a, rfl, rfl⟩ := hd
    exact hdatabase a rfl

theorem createRoles_makes {spec : InstanceSpec} (hinit : spec.bootstrap = .initdb init)
    (secrets : InstanceSecrets) :
    agentMachine.Triple (Bootstrapped.Guard init) (Holding Super) (createRoles spec secrets).run
      fun r s => Holding Super s ∧ (r = .ok () → Holding (Wanted init) s) := by
  unfold createRoles
  rw [hinit]
  refine Machine.Triple.ofExcept_bind (fun app happ => ?_) (fun _ => stable _)
    fun _ _ hs => ⟨hs, by simp⟩
  refine Machine.Triple.mapError_ofExcept_bind (fun stmts hstmts => ?_) (fun _ => stable _)
    fun _ _ hs => ⟨hs, by simp⟩
  refine Machine.Triple.task_bind (executeAll_makes closed_superuser _ stmts) (fun _ => ?_)
    (fun _ => stable _) fun _ _ hs => ⟨hs.1, by simp⟩
  refine Machine.Triple.ofExcept_bind (fun sql hsql => ?_) (fun _ => stable _)
    fun _ _ hs => ⟨hs.1, by simp⟩
  obtain rfl := appDatabaseSql_eq_ok hsql
  cases app with
  | none =>
    refine .ret (stable _) fun s hs => ⟨hs.1, fun _ => (hs.2 rfl).mono fun D hD => ?_⟩
    exact wanted_of_made happ hstmts hD.1 hD.2 nofun
  | some a =>
    have hclosed : Closed fun D => Super D ∧ ∀ stmt ∈ stmts, Made stmt D :=
      closed_superuser.and fun D stmt h stmt' hmem => closed_made stmt' D stmt (h stmt' hmem)
    refine ((createAppDatabase_makes hclosed a.database a.owner).strengthen
      fun s hs => hs.2 rfl).weaken fun r s hs => ⟨hs.1.mono fun _ hD => hD.1, fun hok => ?_⟩
    refine (hs.2 hok).mono fun D hD => wanted_of_made happ hstmts hD.1.1 hD.1.2 ?_
    rintro a' ⟨⟩
    exact hD.2

/-! ## The start that runs `initdb` -/

theorem guard_of_quiet {β : Type} {op : AgentOp β} {s : AgentState} (hquiet : op.Quiet) :
    Bootstrapped.Guard init op s := by
  cases op with
  | spawnPostgres => exact hquiet.elim
  | _ => trivial

/-- Quiet work keeps what depends on the cores of the data directories only. -/
theorem quiet_frames {α : Type} {t : AgentTask α} {I : AgentState → Prop}
    (hI : ∀ s t, Frame s t → I s → I t) (ht : IsQuiet t) :
    agentMachine.Keeps (Bootstrapped.Guard init) I t.run :=
  .of_calls (stable _) (fun _ _ _ hquiet _ => guard_of_quiet hquiet)
    (fun _ _ _ _ _ hquiet hs hstep => hI _ _ (AgentOp.quiet_step hquiet hstep) hs) ht

theorem quiet_blank {α : Type} {t : AgentTask α} (ht : IsQuiet t) :
    agentMachine.Keeps (Bootstrapped.Guard init) (fun s => Blank s.volume) t.run :=
  quiet_frames (fun _ _ h hs => hs.frame h) ht

theorem quiet_holding {P : Database → Prop} {α : Type} {t : AgentTask α} (ht : IsQuiet t) :
    agentMachine.Keeps (Bootstrapped.Guard init) (Holding P) t.run :=
  quiet_frames (fun _ _ h hs => ⟨hs.1.frame h, hs.2.frame h⟩) ht

theorem initdb_makes {call : InitdbCall} (htarget : call.target = .pgdata) {s t : AgentState}
    {status : ExitStatus} (hok : status.success = true)
    (h : agentMachine.step (AgentOp.initdb call) s (.ok status) t) : Carries Super t.volume := by
  obtain ⟨c, hc⟩ := h
  have hc' : (AgentOp.initdb call).exec c s = (.ok status, t) := hc
  simp only [AgentOp.exec] at hc'
  split at hc'
  · exact absurd (congrArg Prod.fst hc') (by simp)
  split at hc'
  · obtain ⟨-, rfl⟩ := Prod.mk.inj hc'
    rw [htarget]
    exact ⟨_, _, AgentState.setTree_self _ _ _, rfl, rfl, rfl⟩
  · rename_i hfail
    obtain ⟨hstatus, -⟩ := Prod.mk.inj hc'
    rw [← Except.ok.inj hstatus] at hok
    exact absurd hok hfail

theorem runInitdb_makes {call : InitdbCall} (htarget : call.target = .pgdata) :
    agentMachine.Triple (Bootstrapped.Guard init) (fun s => Blank s.volume) (runInitdb call).run
      fun r s => r = .ok () → Carries Super s.volume := by
  have hinitdb : agentMachine.Triple (Bootstrapped.Guard init) (fun s => Blank s.volume)
      (context "failed to run initdb — is it on PATH in this image?"
        (Task.ask (.initdb call))).run
      fun r s => ∀ status, r = .ok status → status.success = true → Carries Super s.volume := by
    refine triple_ask (fun _ _ => trivial) ?_ fun _ _ _ _ => by simp
    rintro s r t - hstep status rfl hok
    exact initdb_makes htarget hok hstep
  refine Machine.Triple.task_bind hinitdb (fun status => ?_) (fun _ => stable _)
    fun _ _ _ => by simp
  split
  · rename_i hok
    exact .ret (stable _) fun s hs _ => hs status rfl hok
  · exact .ret (stable _) fun s _ => by simp

theorem readFile_step {dir : Dir} {rel : String} {s t : AgentState} {lines : List String}
    (h : agentMachine.step (AgentOp.readFile dir rel) s (.ok lines) t) :
    t = s ∧ ∃ tr, s.volume dir = some tr ∧ tr.files rel = some lines := by
  obtain ⟨c, hc⟩ := h
  have hc' : (AgentOp.readFile dir rel).exec c s = (.ok lines, t) := hc
  simp only [AgentOp.exec, Prod.mk.injEq] at hc'
  obtain ⟨hanswer, rfl⟩ := hc'
  refine ⟨rfl, ?_⟩
  split at hanswer
  · cases hanswer
  split at hanswer
  · rename_i lines' hlines
    cases hanswer
    exact Option.bind_eq_some_iff.mp hlines
  · cases hanswer

theorem appendFile_step {dir : Dir} {rel : String} {lines : List String} {s t : AgentState}
    (h : agentMachine.step (AgentOp.appendFile dir rel lines) s (.ok ()) t) :
    t = AgentOp.onTree s dir fun tr => tr.writeFile rel ((tr.files rel).map (· ++ lines)) := by
  obtain ⟨c, hc⟩ := h
  have hc' : (AgentOp.appendFile dir rel lines).exec c s = (.ok (), t) := hc
  simp only [AgentOp.exec] at hc'
  split at hc'
  · exact absurd (congrArg Prod.fst hc') (by simp)
  · exact (congrArg Prod.snd hc').symm

/-- Once `append_include_dir` has succeeded the include line is there, and nothing else has
changed. -/
theorem appendIncludeDir_writes {guard : ∀ ⦃β : Type⦄, AgentOp β → AgentState → Prop} (tr : Tree)
    (hread : ∀ s, guard (AgentOp.readFile .pgdata Tree.POSTGRESQL_CONF) s)
    (happend : ∀ lines s, guard (AgentOp.appendFile .pgdata Tree.POSTGRESQL_CONF lines) s) :
    agentMachine.Triple guard (fun s => s.volume .pgdata = some tr) (appendIncludeDir .pgdata).run
      fun r s => r = .ok () → ∃ t, s.volume .pgdata = some t ∧ HasInclude t ∧
        t.subdirs = tr.subdirs ∧ t.isInitialised = tr.isInitialised ∧ t.db = tr.db := by
  have hexisting : agentMachine.Triple guard (fun s => s.volume .pgdata = some tr)
      (context ("failed to read " ++ Dir.pgdata.path ++ "/" ++ Tree.POSTGRESQL_CONF)
        (Task.ask (.readFile .pgdata Tree.POSTGRESQL_CONF))).run
      fun r s => ∀ lines, r = .ok lines → s.volume .pgdata = some tr ∧
        tr.files Tree.POSTGRESQL_CONF = some lines := by
    refine triple_ask (fun s _ => hread s) ?_ fun _ _ _ _ => by simp
    rintro s r t htr hstep lines rfl
    obtain ⟨rfl, tr', htr', hlines⟩ := readFile_step hstep
    obtain rfl : tr = tr' := Option.some.inj (htr.symm.trans htr')
    exact ⟨htr, hlines⟩
  refine Machine.Triple.task_bind hexisting (fun existing => ?_) (fun _ => stable _)
    fun _ _ _ => by simp
  split
  · rename_i hpresent
    refine .ret (stable _) fun s hs _ => ?_
    obtain ⟨htr, hlines⟩ := hs existing rfl
    obtain ⟨l, hl, hline⟩ := List.any_eq_true.mp hpresent
    exact ⟨tr, htr, ⟨existing, hlines, l, hl, by simpa using hline⟩, rfl, rfl, rfl⟩
  · refine triple_ask (fun s _ => happend _ s) ?_ fun _ _ _ _ => by simp
    rintro s r t hs hstep rfl
    obtain ⟨htr, hlines⟩ := hs existing rfl
    obtain rfl := appendFile_step hstep
    have hnew := congrArg (Option.map fun tr : Tree => tr.writeFile Tree.POSTGRESQL_CONF
      ((tr.files Tree.POSTGRESQL_CONF).map (· ++
        ["", "# Added by pgpod. Configuration lives in conf.d/.", INCLUDE_DIR_LINE]))) htr
    have hvolume : ∀ f : Tree → Tree, (AgentOp.onTree s .pgdata f).volume .pgdata =
        (s.volume .pgdata).map f := fun f => AgentState.setTree_self _ _ _
    refine ⟨_, (hvolume _).trans hnew, ⟨existing ++
      ["", "# Added by pgpod. Configuration lives in conf.d/.", INCLUDE_DIR_LINE], ?_,
      INCLUDE_DIR_LINE, by simp, by decide⟩, rfl, ?_, rfl⟩
    · rw [Tree.writeFile_files_self, hlines, Option.map_some]
    · simp only [Tree.isInitialised, Tree.writeFile_files_ne tr _ (by decide :
        Tree.PG_VERSION ≠ Tree.POSTGRESQL_CONF)]

theorem appendIncludeDir_makes :
    agentMachine.Triple (Bootstrapped.Guard init) (fun s => Carries Super s.volume)
      (appendIncludeDir .pgdata).run fun r s => r = .ok () → Holding Super s := by
  rintro s ⟨tr, D, htr, hinit, hD, hsuper⟩
  refine (appendIncludeDir_writes tr (fun _ => trivial) (fun _ _ => trivial) s htr).weaken ?_
  intro r t hwrites hok
  obtain ⟨t', ht', hinclude, -, hinit', hdb⟩ := hwrites hok
  exact ⟨⟨t', ht', hinclude⟩, t', D, ht', hinit'.trans hinit, hdb.trans hD, hsuper⟩

theorem runInitdbBootstrap_makes (secrets : InstanceSecrets) :
    agentMachine.Triple (Bootstrapped.Guard init) (fun s => Blank s.volume)
      (runInitdbBootstrap init secrets).run fun r s => r = .ok () → Holding Super s := by
  refine Machine.Triple.task_bind (quiet_blank (writePwfile_quiet _)) (fun _ => ?_)
    (fun _ => stable _) fun _ _ _ => by simp
  refine Machine.Triple.attempt_bind (runInitdb_makes rfl) fun result => ?_
  have hremove : IsQuiet (Task.ask (.removeFile .conf PWFILE)) :=
    Task.calls_ask (by simp [AgentOp.Quiet, Dir.isData])
  refine Machine.Triple.attempt_bind (quiet_frames (fun s t hframe hs hok =>
    Carries.frame hframe (hs hok)) hremove) fun _ => ?_
  refine Machine.Triple.ofExcept_bind (fun _ hresult => ?_) (fun _ => stable _)
    fun _ _ _ => by simp
  exact appendIncludeDir_makes.strengthen fun s hs => hs hresult

theorem bootstrapIfNeeded_makes (R : Renderer) {spec : InstanceSpec}
    (hinit : spec.bootstrap = .initdb init) (secrets : InstanceSecrets) :
    agentMachine.Triple (Bootstrapped.Guard init) (fun s => Blank s.volume)
      (bootstrapIfNeeded R spec secrets).run
      fun r s => ∀ b, r = .ok b → b = .initdb ∧ Holding Super s := by
  have htest : agentMachine.Triple (Bootstrapped.Guard init) (fun s => Blank s.volume)
      (isInitialised .pgdata).run fun r s => r = .ok false ∧ Blank s.volume := by
    have hstep : ∀ (s : AgentState) (b : Bool) (t : AgentState), Blank s.volume →
        agentMachine.step (AgentOp.isFile .pgdata Tree.PG_VERSION) s b t →
        b = false ∧ Blank t.volume := by
      intro s b t hs hstep
      obtain ⟨hb, rfl⟩ := isFile_step hstep
      refine ⟨?_, hs⟩
      cases ht : t.volume .pgdata with
      | none => rw [hb, ht, Option.bind_none, Option.isSome_none]
      | some tr => rw [hb, ht, Option.bind_some]; exact hs tr ht
    refine Machine.Triple.call (stable _) (fun _ _ => trivial) hstep fun b => ?_
    exact .ret (stable _) fun s hs => ⟨by rw [hs.1], hs.2⟩
  refine Machine.Triple.task_bind htest (fun b => ?_) (fun _ => stable _)
    fun _ _ h => absurd h.1 (by simp)
  cases b with
  | true => exact fun s hs => absurd hs.1 (by simp)
  | false =>
    simp only [Bool.false_eq_true, if_false, hinit]
    refine Machine.Triple.task_bind (.strengthen (runInitdbBootstrap_makes secrets) fun _ hs => hs.2)
      (fun _ => ?_) (fun _ => stable _) fun _ _ _ => by simp
    refine .ret (stable _) fun s hs => ?_
    rintro b ⟨⟩
    exact ⟨rfl, hs rfl⟩

/-- The roles, created behind the private postmaster. -/
theorem withLocalPostgres_makes {spec : InstanceSpec} (hinit : spec.bootstrap = .initdb init)
    (secrets : InstanceSecrets) :
    agentMachine.Triple (Bootstrapped.Guard init) (Holding Super)
      (withLocalPostgres do
        createRoles spec secrets
        Task.when spec.backup.isEnabled <|
          ensureStanza spec.inst.cluster.asStr Container.BOOTSTRAP_PORT).run
      fun r s => r = .ok () → Ready init s.volume := by
  have hroles : agentMachine.Triple (Bootstrapped.Guard init) (Holding Super)
      (do createRoles spec secrets
          Task.when spec.backup.isEnabled <|
            ensureStanza spec.inst.cluster.asStr Container.BOOTSTRAP_PORT : AgentTask Unit).run
      fun r s => r = .ok () → Holding (Wanted init) s := by
    refine Machine.Triple.task_bind (createRoles_makes hinit secrets) (fun _ => ?_)
      (fun _ => stable _) fun _ _ _ => by simp
    have hstanza : IsQuiet (Task.when spec.backup.isEnabled
        (ensureStanza spec.inst.cluster.asStr Container.BOOTSTRAP_PORT)) :=
      Task.calls_when (ensureStanza_quiet _ _)
    exact ((quiet_holding hstanza).strengthen fun s hs => hs.2 rfl).weaken fun _ _ hs _ => hs
  refine Machine.Triple.task_bind (quiet_holding (context_calls (Task.calls_ask trivial)))
    (fun start => ?_) (fun _ => stable _) fun _ _ _ => by simp
  split
  · refine Machine.Triple.attempt_bind hroles fun result => ?_
    have hstop : IsQuiet (context "failed to run pg_ctl stop" (Task.ask .pgCtlStop)) :=
      context_calls (Task.calls_ask trivial)
    refine Machine.Triple.task_bind (quiet_frames (fun s t hframe hs hok =>
      (⟨(hs hok).1.frame hframe, (hs hok).2.frame hframe⟩ : Ready init t.volume)) hstop)
      (fun _ => ?_) (fun _ => stable _) fun _ _ _ => by simp
    exact .ret (stable _) fun s hs => hs
  · exact .ret (stable _) fun s _ => by simp

theorem readEnv_step {key : String} {s t : AgentState} {b : Option String}
    (h : agentMachine.step (AgentOp.readEnv key) s b t) : b = s.env key ∧ t = s := by
  obtain ⟨c, hc⟩ := h
  have hc' : (AgentOp.readEnv key).exec c s = (b, t) := hc
  simp only [AgentOp.exec, Prod.mk.injEq] at hc'
  exact ⟨hc'.1.symm, hc'.2.symm⟩

theorem readEnv_answers {guard : ∀ ⦃β : Type⦄, AgentOp β → AgentState → Prop}
    {env : String → Option String} {I : AgentState → Prop} (key : String)
    (hguard : ∀ s, guard (AgentOp.readEnv key) s) :
    agentMachine.Triple guard (fun s => s.env = env ∧ I s)
      (Task.perform (.readEnv key) : AgentTask (Option String)).run
      fun r s => r = .ok (env key) ∧ I s := by
  have hstep : ∀ (s : AgentState) (b : Option String) (t : AgentState), s.env = env ∧ I s →
      agentMachine.step (AgentOp.readEnv key) s b t → b = env key ∧ I t := by
    rintro s b t ⟨rfl, hI⟩ hstep
    obtain ⟨hb, rfl⟩ := readEnv_step hstep
    exact ⟨hb, hI⟩
  refine Machine.Triple.call (stable _) (fun s _ => hguard s) hstep fun b => ?_
  exact .ret (stable _) fun s hs => ⟨by rw [hs.1], hs.2⟩

/-- **The first start**: on a blank volume, the server starts only once the bootstrap is done. -/
theorem firstStart_makes (crates : Crates) (R : Renderer) {env : String → Option String}
    {spec : InstanceSpec} (hspec : InstanceSpec.fromEnv crates (env SPEC_ENV) = .ok spec)
    (hinit : spec.bootstrap = .initdb init) :
    agentMachine.Triple (Bootstrapped.Guard init) (fun s => s.env = env ∧ Blank s.volume)
      (run crates R).run fun _ _ => True := by
  refine Machine.Triple.task_bind (readEnv_answers SPEC_ENV fun _ => trivial) (fun raw => ?_)
    (fun _ => stable _) fun _ _ _ => trivial
  refine Machine.Triple.mapError_ofExcept_bind (fun spec' hspec' => ?_) (fun _ => stable _)
    fun _ _ _ => trivial
  have hsame : ∀ s : AgentState,
      (Except.ok raw : Except String (Option String)) = .ok (env SPEC_ENV) ∧ Blank s.volume →
      spec' = spec ∧ Blank s.volume := by
    rintro s ⟨hraw, hblank⟩
    rw [Except.ok.inj hraw, hspec] at hspec'
    exact ⟨(Except.ok.inj hspec').symm, hblank⟩
  refine .strengthen (fun s hs => ?_) hsame
  obtain ⟨rfl, hblank⟩ := hs
  refine Machine.Triple.task_bind (K := fun _ _ => True)
    (quiet_blank (context_calls fromMounts_quiet)) (fun secrets => ?_)
    (fun _ => stable _) (fun _ _ _ => trivial) s hblank
  refine Machine.Triple.task_bind (quiet_blank ensureLayout_quiet) (fun _ => ?_)
    (fun _ => stable _) fun _ _ _ => trivial
  refine Machine.Triple.task_bind (bootstrapIfNeeded_makes R hinit secrets) (fun b => ?_)
    (fun _ => stable _) fun _ _ _ => trivial
  refine .strengthen (fun s hs => ?_) fun s (hs : ∀ b', Except.ok b = Except.ok b' → _) => hs b rfl
  obtain ⟨rfl, hholding⟩ := hs
  refine Machine.Triple.task_bind (K := fun _ _ => True) (quiet_holding (renderConfig_quiet R spec'))
    (fun _ => ?_) (fun _ => stable _) (fun _ _ _ => trivial) s hholding
  refine Machine.Triple.task_bind (withLocalPostgres_makes hinit secrets) (fun _ => ?_)
    (fun _ => stable _) fun _ _ _ => trivial
  have hspawn : agentMachine.Triple (Bootstrapped.Guard init) (fun s => Ready init s.volume)
      (context "failed to start postgres — is it on PATH in this image?"
        (Task.ask .spawnPostgres)).run fun _ _ => True :=
    triple_ask (fun s hs => hs) (fun _ _ _ _ _ => trivial) fun _ _ _ _ => trivial
  refine Machine.Triple.task_bind (.strengthen hspawn fun s hs => hs rfl) (fun _ => ?_)
    (fun _ => stable _) fun _ _ _ => trivial
  have hrest : IsQuiet (do
      Task.when (spec'.backup.isEnabled && Bootstrapped.initdb ≠ .initdb) <|
        ensureStanza spec'.inst.cluster.asStr Container.PG_PORT
      Task.ask .supervise : AgentTask Int) :=
    Task.calls_bind (Task.calls_when (ensureStanza_quiet _ _)) fun _ => Task.calls_ask trivial
  exact quiet_frames (fun _ _ _ _ => trivial) hrest

end

/-! ## Starts on a bootstrapped volume -/

/-- The operation starts the server for good. -/
def IsSpawn : ∀ ⦃β : Type⦄, AgentOp β → Prop
  | _, .spawnPostgres => True
  | _, _ => False

/-- Once the server has been started, the start does quiet work only. -/
theorem run_after_spawn (crates : Crates) (R : Renderer) :
    (run crates R).run.After IsSpawn AgentOp.Quiet := by
  have hquiet : ∀ {α : Type} {t : AgentTask α}, IsQuiet t →
      t.run.Calls fun _ op => ¬ IsSpawn op := by
    intro α t ht
    refine Prog.Calls.mono (fun _ op hop hspawn => ?_) ht
    cases op with
    | spawnPostgres => exact hop
    | _ => exact hspawn
  have hpsql : ∀ {α : Type} {t : AgentTask α}, t.run.Calls IsPsql →
      t.run.Calls fun _ op => ¬ IsSpawn op := by
    intro α t ht
    refine Prog.Calls.mono (fun _ op hop hspawn => ?_) ht
    cases op with
    | psql => exact hspawn
    | _ => exact hop
  have hinitdb : ∀ call, (runInitdb call).run.Calls fun _ op => ¬ IsSpawn op := by
    intro call
    refine Task.calls_bind (context_calls (Task.calls_ask id)) fun status => ?_
    split
    · exact Task.calls_pure _
    · exact bail_calls
  have hinclude : (appendIncludeDir .pgdata).run.Calls fun _ op => ¬ IsSpawn op := by
    refine Task.calls_bind (context_calls (Task.calls_ask id)) fun existing => ?_
    split
    · exact Task.calls_pure _
    · exact context_calls (Task.calls_ask id)
  have hbootstrap : ∀ spec secrets, (bootstrapIfNeeded R spec secrets).run.Calls
      fun _ op => ¬ IsSpawn op := by
    intro spec secrets
    refine Task.calls_bind (Task.calls_perform id) fun b => ?_
    cases b with
    | true => exact Task.calls_pure _
    | false =>
      simp only [Bool.false_eq_true, if_false]
      cases spec.bootstrap with
      | initdb init =>
        refine Task.calls_bind (Task.calls_bind (hquiet (writePwfile_quiet _)) fun _ =>
          Task.calls_bind (Task.calls_attempt (hinitdb _)) fun _ =>
          Task.calls_bind (Task.calls_attempt (Task.calls_ask id)) fun _ =>
          Task.calls_bind (Task.calls_ofExcept _) fun _ => hinclude) fun _ => Task.calls_pure _
      | recovery r =>
        refine Task.calls_bind (hquiet (writePgbackrestConf_quiet R spec)) fun _ =>
          Task.calls_bind (Task.calls_bind (context_calls (Task.calls_ask id)) fun status => ?_)
            fun _ => Task.calls_pure _
        split
        · exact context_calls (Task.calls_ask id)
        · exact bail_calls
  refine Task.after_bind (Task.calls_perform id) fun env => ?_
  refine Task.after_bind (context_calls (Task.calls_ofExcept _)) fun spec => ?_
  refine Task.after_bind (hquiet (context_calls fromMounts_quiet)) fun secrets => ?_
  refine Task.after_bind (hquiet ensureLayout_quiet) fun _ => ?_
  refine Task.after_bind (hbootstrap spec secrets) fun bootstrapped => ?_
  refine Task.after_bind (hquiet (renderConfig_quiet R spec)) fun _ => ?_
  refine Task.after_bind (Task.calls_when (withLocalPostgres_calls
    (Task.calls_bind (hpsql (createRoles_psql spec secrets)) fun _ =>
      Task.calls_when (hquiet (ensureStanza_quiet _ _))) id id)) fun _ => ?_
  have hrest : IsQuiet (do
      Task.when (spec.backup.isEnabled && bootstrapped ≠ .initdb) <|
        ensureStanza spec.inst.cluster.asStr Container.PG_PORT
      Task.ask .supervise : AgentTask Int) :=
    Task.calls_bind (Task.calls_when (ensureStanza_quiet _ _)) fun _ => Task.calls_ask trivial
  exact ⟨fun _ r => match r with
    | .ok _ => hrest
    | .error _ => trivial, fun r => match r with
    | .ok _ => Prog.Calls.after hrest
    | .error _ => trivial⟩

theorem Ready.frame {init : InitdbBootstrap} {s t : AgentState} (h : Frame s t)
    (hs : Ready init s.volume) : Ready init t.volume :=
  ⟨hs.1.frame h, hs.2.frame h⟩

/-- Quiet work and the start of the server keep a bootstrapped data directory. -/
theorem Ready.step {init : InitdbBootstrap} {β : Type} {op : AgentOp β} {s t : AgentState} {b : β}
    (hop : op.Quiet ∨ IsSpawn op) (hs : Ready init s.volume) (hstep : agentMachine.step op s b t) :
    Ready init t.volume := by
  rcases hop with hquiet | hspawn
  · exact hs.frame (AgentOp.quiet_step hquiet hstep)
  cases op with
  | spawnPostgres =>
    obtain ⟨c, hc⟩ := hstep
    obtain rfl : t = (AgentOp.spawnPostgres.exec c s).2 := (congrArg Prod.snd hc).symm
    simp only [AgentOp.exec]
    split <;> exact hs
  | _ => exact hspawn.elim

/-- `init` is bootstrapped, at every point of a program. -/
def StaysReady (init : InitdbBootstrap) ⦃β : Type⦄ (_ : AgentOp β) (s : AgentState) : Prop :=
  Ready init s.volume

theorem quiet_ready {init : InitdbBootstrap} {α : Type} {t : AgentTask α}
    (ht : t.run.Calls fun _ op => op.Quiet ∨ IsSpawn op) :
    agentMachine.Keeps (StaysReady init) (fun s => Ready init s.volume) t.run :=
  .of_calls (stable _) (fun _ _ _ _ hs => hs) (fun _ _ _ _ _ hop hs hstep => hs.step hop hstep) ht

/-- **A later start** serves the data directory as it finds it. -/
theorem laterStart_keeps {init : InitdbBootstrap} (crates : Crates) (R : Renderer) :
    agentMachine.Keeps (StaysReady init) (fun s => Ready init s.volume) (run crates R).run := by
  have hquiet : ∀ {α : Type} {t : AgentTask α}, IsQuiet t →
      agentMachine.Keeps (StaysReady init) (fun s => Ready init s.volume) t.run :=
    fun ht => quiet_ready (Prog.Calls.mono (fun _ _ => .inl) ht)
  have htest : agentMachine.Triple (StaysReady init) (fun s => Ready init s.volume)
      (isInitialised .pgdata).run fun r s => r = .ok true ∧ Ready init s.volume := by
    have hstep : ∀ (s : AgentState) (b : Bool) (t : AgentState), Ready init s.volume →
        agentMachine.step (AgentOp.isFile .pgdata Tree.PG_VERSION) s b t →
        b = true ∧ Ready init t.volume := by
      intro s b t hs hstep
      obtain ⟨hb, rfl⟩ := isFile_step hstep
      refine ⟨?_, hs⟩
      obtain ⟨-, tr, D, htr, hinit, -⟩ := hs
      rw [hb, htr, Option.bind_some]
      exact hinit
    refine Machine.Triple.call (stable _) (fun _ hs => hs) hstep fun b => ?_
    exact .ret (stable _) fun s hs => ⟨by rw [hs.1], hs.2⟩
  refine .task_bind (stable _) (hquiet (Task.calls_perform trivial)) fun env => ?_
  refine .task_bind (stable _) (hquiet (context_calls (Task.calls_ofExcept _))) fun spec => ?_
  refine .task_bind (stable _) (hquiet (context_calls fromMounts_quiet)) fun secrets => ?_
  refine .task_bind (stable _) (hquiet ensureLayout_quiet) fun _ => ?_
  have hexisting : agentMachine.Triple (StaysReady init) (fun s => Ready init s.volume)
      (bootstrapIfNeeded R spec secrets).run
      fun r s => r = .ok .existing ∧ Ready init s.volume := by
    refine Machine.Triple.task_bind htest (fun b => ?_) (fun _ => stable _)
      fun _ _ h => absurd h.1 (by simp)
    cases b with
    | false => exact fun s hs => absurd hs.1 (by simp)
    | true => exact .ret (stable _) fun s hs => ⟨rfl, hs.2⟩
  refine Machine.Triple.task_bind hexisting (fun b => ?_) (fun _ => stable _) fun _ _ h => h.2
  cases b with
  | initdb | restored => exact fun s hs => absurd hs.1 (by simp)
  | existing =>
    refine Machine.Triple.strengthen ?_ fun s hs => hs.2
    refine Machine.Keeps.task_bind (stable _) (hquiet (renderConfig_quiet R spec)) fun _ => ?_
    refine .task_bind (stable _) (hquiet (Task.calls_pure ())) fun _ => ?_
    refine .task_bind (stable _) (quiet_ready (context_calls (Task.calls_ask (.inr trivial))))
      fun _ => ?_
    refine .task_bind (stable _) (hquiet (Task.calls_when (ensureStanza_quiet _ _))) fun _ => ?_
    exact hquiet (Task.calls_ask trivial)

/-! ## Starts one after another -/

/-- What the attempt's spec asks the bootstrap for. -/
def Attempt.Asks (A : Code) (a : Attempt) (init : InitdbBootstrap) : Prop :=
  ∃ spec, InstanceSpec.fromEnv A.crates (a.env SPEC_ENV) = .ok spec ∧ spec.bootstrap = .initdb init

/-- The attempt starts the instance, with an `initdb` bootstrap if its spec can be read at all. -/
def Attempt.IsStart (A : Code) (a : Attempt) : Prop :=
  a.job = .instanceRun ∧ ∀ spec, InstanceSpec.fromEnv A.crates (a.env SPEC_ENV) = .ok spec →
    ∃ init, spec.bootstrap = .initdb init

/-- `init` asks for no owner and no database that `first` does not ask for. -/
def AsksWithin (init first : InitdbBootstrap) : Prop :=
  (∀ owner, init.owner = some owner → first.owner = some owner) ∧
    ∀ database, init.database = some database → first.database = some database

theorem Ready.within {init first : InitdbBootstrap} (h : AsksWithin init first) {v : Volume}
    (hready : Ready first v) : Ready init v := by
  refine ⟨hready.1, hready.2.mono fun D hD => ⟨fun r hr => ?_, fun d hd => ?_⟩⟩
  · refine hD.roles r ?_
    simp only [wantedRoles, List.mem_append, Option.mem_toList] at hr ⊢
    exact hr.imp_right (h.1 r)
  · exact hD.database d (h.2 d hd)

/-- A start on a data directory that is there asks for no more than `first`. -/
def StartsWithin (A : Code) (first : InitdbBootstrap) (a : Attempt) (v : Volume) : Prop :=
  ¬ Blank v → ∀ init, a.Asks A init → AsksWithin init first

/-- A start that populates PGDATA asks for `first` and gets as far as starting the server. -/
def CarriesThrough (A : Code) (first : InitdbBootstrap) (a : Attempt) (v : Volume)
    (q : Prog AgentOp (Except String Int)) (s : AgentState) : Prop :=
  Blank v → ¬ Blank s.volume → (∀ init, a.Asks A init → AsksWithin first init) ∧
    ∃ (next : Except String Unit → Prog AgentOp (Except String Int)) (t : AgentState),
      (campaign A).Stands a v (.call .spawnPostgres next) t ∧
        agentMachine.Reach (.call .spawnPostgres next) t q s

/-- The starts of a cluster that is bootstrapped once, for `first`. -/
def Orderly (A : Code) (first : InitdbBootstrap) (a : Attempt) (v : Volume)
    (q : Prog AgentOp (Except String Int)) (s : AgentState) : Prop :=
  a.IsStart A ∧ StartsWithin A first a v ∧ CarriesThrough A first a v q s

/-- Where the server is started, what its spec asked for has been created. -/
def ServesReady (A : Code) (a : Attempt) ⦃β : Type⦄ (op : AgentOp β) (s : AgentState) : Prop :=
  IsSpawn op → ∀ init, a.Asks A init → Ready init s.volume

/-- The server is started only by a start whose spec could be read. -/
theorem spawn_asks (crates : Crates) (R : Renderer) (env : String → Option String) :
    agentMachine.Triple
      (fun _ op _ => IsSpawn op → ∃ spec, InstanceSpec.fromEnv crates (env SPEC_ENV) = .ok spec)
      (fun s => s.env = env ∧ True) (run crates R).run fun _ _ => True := by
  cases hspec : InstanceSpec.fromEnv crates (env SPEC_ENV) with
  | ok spec =>
    exact (Machine.Triple.of_calls (stable fun _ => True) (fun _ _ _ _ _ _ => ⟨spec, rfl⟩)
      (fun _ _ _ _ _ _ _ _ => trivial) (Prog.Calls.of_forall (P := fun _ _ => True)
        (fun _ _ => trivial) _)).strengthen fun _ _ => trivial
  | error e =>
    refine Machine.Triple.task_bind (readEnv_answers SPEC_ENV fun _ => False.elim)
      (fun raw => ?_) (fun _ => stable _) fun _ _ _ => trivial
    refine Machine.Triple.mapError_ofExcept_bind (fun spec hok => ?_) (fun _ => stable _)
      fun _ _ _ => trivial
    rintro s ⟨hraw, -⟩
    rw [Except.ok.inj hraw, hspec] at hok
    cases hok

theorem Attempt.IsStart.reach {A : Code} {a : Attempt} (hstart : a.IsStart A) {v : Volume}
    {q : Prog AgentOp (Except String Int)} {s : AgentState} (h : (campaign A).Stands a v q s) :
    agentMachine.Reach (run A.crates A.renderer).run (a.enter v) q s := by
  have hmain : main A a.job = run A.crates A.renderer := by rw [hstart.1]; rfl
  rw [← hmain]
  exact h

/-- A start on a blank volume that stands before the start of the server has bootstrapped. -/
theorem firstStart_ready {A : Code} {a : Attempt} (hstart : a.IsStart A) {v : Volume}
    (hblank : Blank v) {next : Except String Unit → Prog AgentOp (Except String Int)}
    {t : AgentState} (hstands : (campaign A).Stands a v (.call .spawnPostgres next) t) :
    ∃ init, a.Asks A init ∧ Ready init t.volume := by
  have hreach := hstart.reach hstands
  obtain ⟨spec, hspec⟩ := ((spawn_asks A.crates A.renderer a.env) (a.enter v)
    ⟨rfl, trivial⟩).at_call hreach trivial
  obtain ⟨init, hinit⟩ := hstart.2 spec hspec
  refine ⟨init, ⟨spec, hspec, hinit⟩, ?_⟩
  exact ((firstStart_makes A.crates A.renderer hspec hinit) (a.enter v) ⟨rfl, hblank⟩).at_call hreach

theorem Attempt.Asks.unique {A : Code} {a : Attempt} {init init' : InitdbBootstrap}
    (h : a.Asks A init) (h' : a.Asks A init') : init = init' := by
  obtain ⟨spec, hspec, hinit⟩ := h
  obtain ⟨spec', hspec', hinit'⟩ := h'
  rw [hspec] at hspec'
  cases hspec'
  rw [hinit] at hinit'
  exact Bootstrap.initdb.inj hinit'

/-- Blank, or bootstrapped for everything the starts will ask for. -/
def BlankOrReady (first : InitdbBootstrap) (v : Volume) : Prop := Blank v ∨ Ready first v

theorem history_ready {A : Code} {first : InitdbBootstrap} {v₀ v : Volume} (h₀ : Blank v₀)
    (h : (campaign A).History (Orderly A first) v₀ v) : BlankOrReady first v := by
  refine h.invariant (.inl h₀) ?_
  rintro a v q s hinv hstands ⟨hstart, hwithin, hcarries⟩
  rcases hinv with hblank | hready
  · by_cases hs : Blank s.volume
    · exact .inl hs
    obtain ⟨hasks, next, t, hspawn, hrest⟩ := hcarries hblank hs
    obtain ⟨init, hinit, hready⟩ := firstStart_ready hstart hblank hspawn
    have hafter : ∀ b, (next b).Calls AgentOp.Quiet := by
      have hrun : (Prog.call AgentOp.spawnPostgres next).After IsSpawn AgentOp.Quiet :=
        (hstart.reach hspawn).after (run_after_spawn A.crates A.renderer)
      exact hrun.1 trivial
    have hcalls : (Prog.call AgentOp.spawnPostgres next).Calls fun _ op =>
        op.Quiet ∨ IsSpawn op :=
      ⟨.inr trivial, fun b => Prog.Calls.mono (fun _ _ => .inl) (hafter b)⟩
    have hkept : Ready init s.volume :=
      hrest.keeps (I := fun s => Ready init s.volume) (stable _)
        (fun _ _ _ _ _ hop hs hstep => hs.step hop hstep) hcalls hready
    exact .inr (hkept.within (hasks init hinit))
  · have hsafe := (laterStart_keeps A.crates A.renderer (a.enter v) hready).reach
      (hstart.reach hstands)
    refine .inr ?_
    cases q with
    | ret r => exact hsafe s .refl
    | call op next => exact (hsafe s .refl).1

/-- **The server only starts on a bootstrapped data directory**, in every history of starts of
which the one that populates PGDATA carries its bootstrap through, and the later ones ask for
nothing it did not create. -/
theorem spawn_finds_bootstrapped (A : Code) (first : InitdbBootstrap) (v₀ v : Volume)
    (h₀ : Blank v₀) (h : (campaign A).History (Orderly A first) v₀ v) (a : Attempt)
    (hstart : a.IsStart A) (hwithin : StartsWithin A first a v) {β : Type} (op : AgentOp β)
    (next : β → Prog AgentOp (Except String Int)) (s : AgentState)
    (hs : (campaign A).Stands a v (.call op next) s) : ServesReady A a op s := by
  intro hspawn init hasks
  cases op with
  | spawnPostgres =>
    rcases history_ready h₀ h with hblank | hready
    · obtain ⟨init', hasks', hready'⟩ := firstStart_ready hstart hblank hs
      rw [hasks.unique hasks']
      exact hready'
    · have hnot : ¬ Blank v := hready.2.not_blank
      refine Ready.within (hwithin hnot init hasks) ?_
      exact (laterStart_keeps A.crates A.renderer (a.enter v) hready).at_call (hstart.reach hs)
  | _ => exact hspawn.elim

/-! ## A start killed right after `initdb` -/

namespace Sample

/-- The spec asks for the database `app`, owned by `app`. -/
def wantsApp : InitdbBootstrap := { database := some "app", owner := some "app" }

/-- What a first start leaves when it is killed after its `initdb` returned. -/
def killedAfterInitdb : Volume :=
  (campaign (code wantsApp)).leave (agentExec.follow (List.replicate 19 (.inl {}))
    ((campaign (code wantsApp)).program (attempt .instanceRun image18))
    ((attempt .instanceRun image18).enter fun _ => none)).2

/-- The server is about to start without one of the roles. -/
def startsWithoutRole ⦃β : Type⦄ (op : AgentOp β) (s : AgentState) : Bool :=
  match op with
  | .spawnPostgres => (s.volume .pgdata).any fun t => t.db.any fun D => (D.roles MONITOR_ROLE).isNone
  | _ => false

theorem wantsApp_asked (job : Job) (image : PgImage) :
    (attempt job image).Asks (code wantsApp) wantsApp :=
  ⟨spec wantsApp, rfl, rfl⟩

theorem not_servesReady {a : Attempt} (hasks : a.Asks (code wantsApp) wantsApp) {β : Type}
    {op : AgentOp β} {s : AgentState} (h : startsWithoutRole op s = true) :
    ¬ ServesReady (code wantsApp) a op s := by
  cases op with
  | spawnPostgres =>
    intro hserves
    obtain ⟨-, t, D, ht, -, hD, hwanted⟩ := hserves trivial wantsApp hasks
    have hmonitor := hwanted.roles MONITOR_ROLE (by decide)
    simp only [startsWithoutRole, ht, hD, Option.any_some] at h
    rw [Option.isNone_iff_eq_none] at h
    rw [h] at hmonitor
    exact absurd hmonitor (by decide)
  | _ => exact absurd h (by simp [startsWithoutRole])

/-- **A start killed after `initdb` is never made good**: the next one finds `PG_VERSION` and
starts the server without the roles. -/
theorem killed_bootstrap_serves_without_roles :
    Blank (fun _ => none) ∧
    (campaign (code wantsApp)).History (fun a _ _ _ => a.IsStart (code wantsApp))
      (fun _ => none) killedAfterInitdb ∧
    (attempt .instanceRun image18).IsStart (code wantsApp) ∧
    ∃ (β : Type) (op : AgentOp β) (next : β → Prog AgentOp (Except String Int)) (s : AgentState),
      (campaign (code wantsApp)).Stands (attempt .instanceRun image18) killedAfterInitdb
        (.call op next) s ∧
      ¬ ServesReady (code wantsApp) (attempt .instanceRun image18) op s := by
  have hstart : (attempt .instanceRun image18).IsStart (code wantsApp) :=
    ⟨rfl, by rintro _ ⟨⟩; exact ⟨wantsApp, rfl⟩⟩
  refine ⟨nofun, .attempt .refl (agentExec.follow_reach (List.replicate 19 (.inl {})) _ _) hstart,
    hstart, ?_⟩
  obtain ⟨β, op, next, s, hreach, htest⟩ := agentExec.follow_call startsWithoutRole
    (List.replicate 26 (.inl {}))
    ((campaign (code wantsApp)).program (attempt .instanceRun image18))
    ((attempt .instanceRun image18).enter killedAfterInitdb) (by decide +kernel)
  exact ⟨β, op, next, s, hreach, not_servesReady (wantsApp_asked _ _) htest⟩

/-- The first start up to the start of its server, all of it succeeding. -/
def firstStart : Prog AgentOp (Except String Int) × AgentState :=
  agentExec.follow (List.replicate 41 (.inl {}))
    ((campaign (code wantsApp)).program (attempt .instanceRun image18))
    ((attempt .instanceRun image18).enter fun _ => none)

theorem firstStart_spawns : ∃ next, firstStart.1 = .call .spawnPostgres next := by
  have hstands : Executable.standsAt startsServer firstStart = true := by decide +kernel
  obtain ⟨β, op, next, hcall, htest⟩ := Executable.of_standsAt hstands
  cases op with
  | spawnPostgres => exact ⟨next, hcall⟩
  | _ => exact absurd htest (by simp [startsServer])

/-- A start killed just before its server starts, and a second one that finds it all there. -/
theorem spawn_finds_bootstrapped_second_start :
    ∃ (β : Type) (op : AgentOp β) (next : β → Prog AgentOp (Except String Int)) (s : AgentState),
      (campaign (code wantsApp)).Stands (attempt .instanceRun image18) firstStart.2.volume
        (.call op next) s ∧
      startsServer op s = true ∧
      ServesReady (code wantsApp) (attempt .instanceRun image18) op s := by
  have hstart : (attempt .instanceRun image18).IsStart (code wantsApp) :=
    ⟨rfl, by rintro _ ⟨⟩; exact ⟨wantsApp, rfl⟩⟩
  have hwithin : ∀ init, (attempt .instanceRun image18).Asks (code wantsApp) init →
      init = wantsApp := fun init hasks => hasks.unique (wantsApp_asked _ _)
  have hsame : AsksWithin wantsApp wantsApp := ⟨fun _ => id, fun _ => id⟩
  have hreach : (campaign (code wantsApp)).Stands (attempt .instanceRun image18) (fun _ => none)
      firstStart.1 firstStart.2 :=
    agentExec.follow_reach (List.replicate 41 (.inl {}))
      ((campaign (code wantsApp)).program (attempt .instanceRun image18))
      ((attempt .instanceRun image18).enter fun _ => none)
  have horderly : Orderly (code wantsApp) wantsApp (attempt .instanceRun image18) (fun _ => none)
      firstStart.1 firstStart.2 := by
    refine ⟨hstart, fun hnot => absurd nofun hnot, fun _ _ => ⟨?_, ?_⟩⟩
    · exact fun init hasks => hwithin init hasks ▸ hsame
    · obtain ⟨next, hnext⟩ := firstStart_spawns
      rw [hnext] at hreach ⊢
      exact ⟨next, firstStart.2, hreach, .refl⟩
  have hhistory : (campaign (code wantsApp)).History (Orderly (code wantsApp) wantsApp)
      (fun _ => none) ((campaign (code wantsApp)).leave firstStart.2) :=
    .attempt .refl hreach horderly
  obtain ⟨β, op, next, s, hstands, htest⟩ := agentExec.follow_call startsServer
    (List.replicate 26 (.inl {}))
    ((campaign (code wantsApp)).program (attempt .instanceRun image18))
    ((attempt .instanceRun image18).enter firstStart.2.volume) (by decide +kernel)
  exact ⟨β, op, next, s, hstands, htest, spawn_finds_bootstrapped (code wantsApp) wantsApp
    (fun _ => none) firstStart.2.volume nofun hhistory (attempt .instanceRun image18) hstart
    (fun _ init hasks => hwithin init hasks ▸ hsame) op next s hstands⟩

end Sample

end Agent

end Pgpod
