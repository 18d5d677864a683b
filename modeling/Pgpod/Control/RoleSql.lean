import Pgpod.Core.SqlLexer
import Pgpod.Control.Apply

/-!
# Passwords in SQL

Every statement that sets a password reads, as SQL, the same whatever the password is:
the password is the value of one literal, and no other token depends on it.
-/

namespace Pgpod

open SqlText Control

/-- The tokens around the one literal that holds a password. -/
structure Template where
  before : List Token
  after : List Token
deriving DecidableEq, Repr

def Template.fill (t : Template) (password : String) : List Token :=
  t.before ++ .literal password.toList :: t.after

/-- The tokens of a statement's text. -/
def Statement.lexed (stmt : Statement) : Option (List Token) := lex stmt.render.toList

/-- The tokens of a text without quotations. -/
def tokensOf (text : String) : List Token := (run .blank text.toList).2

theorem quoteIdent_toList (name : String) : (quoteIdent name).toList = quoted '"' name.toList := by
  simp [quoteIdent, quoted, doubled]

theorem quoteLiteral_toList (value : String) :
    (quoteLiteral value).toList = quoted '\'' value.toList := by
  simp [quoteLiteral, quoted, doubled]

theorem lex_semicolon : lex ";".toList = some [.symbol ';'] := by decide +kernel

theorem semicolon_head : ";".toList.head? ≠ some '\'' ∧ ";".toList.head? ≠ some '"' := by
  decide +kernel

theorem not_mem_quoted {q c : Char} {cs : List Char} (hq : c ≠ q) (h : c ∉ cs) : c ∉ quoted q cs := by
  intro hmem
  simp only [quoted, doubled, List.mem_cons, List.mem_append, List.mem_flatMap] at hmem
  obtain hc | ⟨d, hd, hc⟩ | hc := hmem
  · exact hq hc
  · by_cases hdq : d = q
    · simp [hdq] at hc
      exact hq hc
    · simp [hdq] at hc
      exact h (hc ▸ hd)
  · simp at hc
    exact hq hc

/-! ## The statements that set a password -/

def alterTemplate (role : String) : Template where
  before := tokensOf "ALTER ROLE " ++ .name role.toList :: tokensOf " WITH PASSWORD "
  after := [.symbol ';']

theorem lexed_alterRolePassword (role password : String) :
    (Statement.alterRolePassword role password).lexed = some ((alterTemplate role).fill password) := by
  have halter : run .blank "ALTER ROLE ".toList = (.blank, tokensOf "ALTER ROLE ") := by decide +kernel
  have hwith : run .blank " WITH PASSWORD ".toList = (.blank, tokensOf " WITH PASSWORD ") := by
    decide +kernel
  have hhead : " WITH PASSWORD ".toList.head?.any (· ≠ '"') := by decide +kernel
  have htext : (Statement.alterRolePassword role password).render.toList =
      "ALTER ROLE ".toList ++ (quoted '"' role.toList ++ (" WITH PASSWORD ".toList ++
        (quoted '\'' password.toList ++ ";".toList))) := by
    change ("ALTER ROLE " ++ quoteIdent role ++ " WITH PASSWORD " ++ quoteLiteral password ++
      ";").toList = _
    simp only [String.toList_append, quoteIdent_toList, quoteLiteral_toList, List.append_assoc]
  rw [Statement.lexed, htext, lex_append halter, lex_name_append _ hhead hwith,
    lex_literal _ semicolon_head.1, lex_semicolon]
  simp [alterTemplate, Template.fill]

/-- The attributes as the text has them. -/
def attrsText (attrs : List RoleAttr) : String := " ".intercalate (attrs.map RoleAttr.render)

/-- The block that creates a role once. -/
def guardBody (name : String) (attrs : List RoleAttr) : List Char :=
  " BEGIN IF NOT EXISTS (SELECT FROM pg_roles WHERE rolname = ".toList ++
    (quoted '\'' name.toList ++ (") THEN CREATE ROLE ".toList ++ (quoted '"' name.toList ++
      (" ".toList ++ ((attrsText attrs).toList ++ "; END IF; END ".toList)))))

def createTemplate (name : String) (attrs : List RoleAttr) : Template where
  before := tokensOf "DO " ++ .dollarBody "pgpod".toList (guardBody name attrs) ::
    (tokensOf "; ALTER ROLE " ++ .name name.toList ::
      tokensOf (" WITH " ++ attrsText attrs ++ " PASSWORD "))
  after := [.symbol ';']

/-- The attribute lists the statements use. -/
def roleAttrs : List (List RoleAttr) := [[.login], [.login, .replication]]

theorem guardBody_free {name : String} (hname : '$' ∉ name.toList) {attrs : List RoleAttr}
    (hattrs : attrs ∈ roleAttrs) : '$' ∉ guardBody name attrs := by
  have htexts : '$' ∉ " BEGIN IF NOT EXISTS (SELECT FROM pg_roles WHERE rolname = ".toList ∧
      '$' ∉ ") THEN CREATE ROLE ".toList ∧ '$' ∉ " ".toList ∧ '$' ∉ "; END IF; END ".toList := by
    decide +kernel
  have hfree : ∀ a ∈ roleAttrs, '$' ∉ (attrsText a).toList := by decide +kernel
  have hlit : '$' ∉ quoted '\'' name.toList := not_mem_quoted (by decide) hname
  have hident : '$' ∉ quoted '"' name.toList := not_mem_quoted (by decide) hname
  obtain ⟨hbegin, hthen, hspace, hend⟩ := htexts
  intro hmem
  unfold guardBody at hmem
  simp only [List.mem_append] at hmem
  obtain h | h | h | h | h | h | h := hmem
  · exact hbegin h
  · exact hlit h
  · exact hthen h
  · exact hident h
  · exact hspace h
  · exact hfree attrs hattrs h
  · exact hend h

theorem lexed_createRoleIfAbsent {name : String} (hname : '$' ∉ name.toList) {attrs : List RoleAttr}
    (hattrs : attrs ∈ roleAttrs) (password : String) :
    (Statement.createRoleIfAbsent name attrs password).lexed =
      some ((createTemplate name attrs).fill password) := by
  have hdo : run .blank "DO ".toList = (.blank, tokensOf "DO ") := by decide +kernel
  have htag : run .blank (dollars "pgpod".toList) = (.dollarBody "pgpod".toList [], []) := by
    decide +kernel
  have htagfree : '$' ∉ "pgpod".toList := by decide +kernel
  have halter : run .blank "; ALTER ROLE ".toList = (.blank, tokensOf "; ALTER ROLE ") := by
    decide +kernel
  have hwith : ∀ a ∈ roleAttrs, run .blank (" WITH " ++ attrsText a ++ " PASSWORD ").toList =
      (.blank, tokensOf (" WITH " ++ attrsText a ++ " PASSWORD ")) := by decide +kernel
  have hhead : ∀ a ∈ roleAttrs,
      (" WITH " ++ attrsText a ++ " PASSWORD ").toList.head?.any (· ≠ '"') := by decide +kernel
  have hopening : "DO $pgpod$ BEGIN IF NOT EXISTS (SELECT FROM pg_roles WHERE rolname = ".toList =
      "DO ".toList ++ (dollars "pgpod".toList ++
        " BEGIN IF NOT EXISTS (SELECT FROM pg_roles WHERE rolname = ".toList) := by decide +kernel
  have hending : "; END IF; END $pgpod$; ALTER ROLE ".toList =
      "; END IF; END ".toList ++ (dollars "pgpod".toList ++ "; ALTER ROLE ".toList) := by decide +kernel
  have htext : (Statement.createRoleIfAbsent name attrs password).render.toList =
      "DO ".toList ++ (dollars "pgpod".toList ++ guardBody name attrs ++ dollars "pgpod".toList ++
        ("; ALTER ROLE ".toList ++ (quoted '"' name.toList ++
          ((" WITH " ++ attrsText attrs ++ " PASSWORD ").toList ++
            (quoted '\'' password.toList ++ ";".toList))))) := by
    change ("DO $pgpod$ BEGIN IF NOT EXISTS (SELECT FROM pg_roles WHERE rolname = " ++
      quoteLiteral name ++ ") THEN CREATE ROLE " ++ quoteIdent name ++ " " ++ attrsText attrs ++
      "; END IF; END $pgpod$; ALTER ROLE " ++ quoteIdent name ++ " WITH " ++ attrsText attrs ++
      " PASSWORD " ++ quoteLiteral password ++ ";").toList = _
    unfold guardBody
    simp only [String.toList_append, quoteIdent_toList, quoteLiteral_toList, hopening, hending,
      List.append_assoc]
  rw [Statement.lexed, htext, lex_append hdo, lex_dollars htag htagfree (guardBody_free hname hattrs),
    lex_append halter, lex_name_append _ (hhead attrs hattrs) (hwith attrs hattrs),
    lex_literal _ semicolon_head.1, lex_semicolon]
  simp [createTemplate, Template.fill]

/-! ## The statements that hold no password -/

theorem lexed_databaseExists (name : String) :
    (Statement.databaseExists name).lexed =
      some (tokensOf "SELECT 1 FROM pg_database WHERE datname = " ++
        [.literal name.toList, .symbol ';']) := by
  have hselect : run .blank "SELECT 1 FROM pg_database WHERE datname = ".toList =
      (.blank, tokensOf "SELECT 1 FROM pg_database WHERE datname = ") := by decide +kernel
  have htext : (Statement.databaseExists name).render.toList =
      "SELECT 1 FROM pg_database WHERE datname = ".toList ++
        (quoted '\'' name.toList ++ ";".toList) := by
    change ("SELECT 1 FROM pg_database WHERE datname = " ++ quoteLiteral name ++ ";").toList = _
    simp only [String.toList_append, quoteLiteral_toList, List.append_assoc]
  rw [Statement.lexed, htext, lex_append hselect, lex_literal _ semicolon_head.1, lex_semicolon]
  rfl

theorem lexed_createDatabase (name owner : String) :
    (Statement.createDatabase name owner).lexed =
      some (tokensOf "CREATE DATABASE " ++ .name name.toList :: (tokensOf " OWNER " ++
        [.name owner.toList, .symbol ';'])) := by
  have hcreate : run .blank "CREATE DATABASE ".toList = (.blank, tokensOf "CREATE DATABASE ") := by
    decide +kernel
  have howner : run .blank " OWNER ".toList = (.blank, tokensOf " OWNER ") := by decide +kernel
  have hhead : " OWNER ".toList.head?.any (· ≠ '"') := by decide +kernel
  have htext : (Statement.createDatabase name owner).render.toList =
      "CREATE DATABASE ".toList ++ (quoted '"' name.toList ++ (" OWNER ".toList ++
        (quoted '"' owner.toList ++ ";".toList))) := by
    change ("CREATE DATABASE " ++ quoteIdent name ++ " OWNER " ++ quoteIdent owner ++ ";").toList = _
    simp only [String.toList_append, quoteIdent_toList, List.append_assoc]
  rw [Statement.lexed, htext, lex_append hcreate, lex_name_append _ hhead howner, lex_name _ semicolon_head.2,
    lex_semicolon]
  simp

/-- The lookup function and its privileges. -/
def lookupStatements : List Statement :=
  [.createLookupFunction poolerLookupFunction, .revokeFromPublic poolerLookupFunction,
    .grantExecute poolerLookupFunction POOLER_ROLE]

theorem lexed_grant : (Statement.grantPgMonitor MONITOR_ROLE).lexed.isSome := by decide +kernel

theorem lexed_lookup : ∀ stmt ∈ lookupStatements, stmt.lexed.isSome := by decide +kernel

/-! ## Every statement -/

theorem dollar_not_mem {name : String} (h : validIdentifier name = true) : '$' ∉ name.toList := by
  intro hmem
  simp only [validIdentifier, Bool.and_eq_true, List.all_eq_true] at h
  have hdollar := h.2 _ hmem
  exact absurd hdollar (by decide)

theorem validateIdentifier_eq_ok {name : String} (h : validIdentifier name = true) :
    validateIdentifier name = .ok () := by
  rw [validateIdentifier, if_pos h]

namespace BootstrapRoles

/-- The names that the statements interpolate are identifiers. -/
def Accepted (b : BootstrapRoles) : Prop :=
  validIdentifier b.superuser = true ∧
    ∀ app, b.app = some app → validIdentifier app.owner = true ∧ validIdentifier app.database = true

/-- The same roles with other passwords. -/
def withPasswords (b : BootstrapRoles) (superuser replication monitor owner : String) :
    BootstrapRoles :=
  { b with
    superuserPassword := superuser
    replicationPassword := replication
    monitorPassword := monitor
    app := b.app.map fun app => { app with ownerPassword := owner } }

theorem replication_valid : validIdentifier REPLICATION_ROLE = true := by decide +kernel

theorem monitor_valid : validIdentifier MONITOR_ROLE = true := by decide +kernel

theorem pooler_valid : validIdentifier POOLER_ROLE = true := by decide +kernel

/-- The statements of accepted roles. -/
def issued (b : BootstrapRoles) : List Statement :=
  [.alterRolePassword b.superuser b.superuserPassword,
    .createRoleIfAbsent REPLICATION_ROLE [.login, .replication] b.replicationPassword,
    .createRoleIfAbsent MONITOR_ROLE [.login] b.monitorPassword,
    .grantPgMonitor MONITOR_ROLE] ++
  (b.app.map fun app => .createRoleIfAbsent app.owner [.login] app.ownerPassword).toList

theorem statements_of_accepted {b : BootstrapRoles} (h : b.Accepted) : b.statements = .ok b.issued := by
  have hsuper := validateIdentifier_eq_ok h.1
  have hrepl := validateIdentifier_eq_ok replication_valid
  have hmon := validateIdentifier_eq_ok monitor_valid
  rw [statements, issued, hsuper, hrepl, hmon]
  cases happ : b.app with
  | none => rfl
  | some app =>
    obtain ⟨howner, hdatabase⟩ := h.2 app happ
    simp only [validateIdentifier_eq_ok howner, validateIdentifier_eq_ok hdatabase]
    rfl

/-- What the statements read as, without their passwords. -/
def superuserTemplate (b : BootstrapRoles) : Template := alterTemplate b.superuser

def replicationTemplate : Template := createTemplate REPLICATION_ROLE [.login, .replication]

def monitorTemplate : Template := createTemplate MONITOR_ROLE [.login]

def ownerTemplate (b : BootstrapRoles) : Option Template :=
  b.app.map fun app => createTemplate app.owner [.login]

theorem lexed_issued {b : BootstrapRoles} (h : b.Accepted) :
    ∃ grant, ∀ superuser replication monitor owner,
      (b.withPasswords superuser replication monitor owner).issued.map Statement.lexed =
        ([b.superuserTemplate.fill superuser, replicationTemplate.fill replication,
          monitorTemplate.fill monitor, grant] ++
            (b.ownerTemplate.map fun t => t.fill owner).toList).map some := by
  obtain ⟨grant, hgrant⟩ := Option.isSome_iff_exists.mp lexed_grant
  refine ⟨grant, fun superuser replication monitor owner => ?_⟩
  have hlogin : [RoleAttr.login] ∈ roleAttrs := by decide
  have hboth : [RoleAttr.login, .replication] ∈ roleAttrs := by decide
  have halter := lexed_alterRolePassword b.superuser superuser
  have hrepl := lexed_createRoleIfAbsent (dollar_not_mem replication_valid) hboth replication
  have hmon := lexed_createRoleIfAbsent (dollar_not_mem monitor_valid) hlogin monitor
  cases happ : b.app with
  | none =>
    simp only [issued, withPasswords, happ, Option.map_none, Option.toList_none, List.append_nil,
      List.map_cons, List.map_nil, halter, hrepl, hmon, hgrant, superuserTemplate,
      replicationTemplate, monitorTemplate, ownerTemplate]
  | some app =>
    have howner := lexed_createRoleIfAbsent (dollar_not_mem (h.2 app happ).1) hlogin owner
    simp only [issued, withPasswords, happ, Option.map_some, Option.toList_some, List.map_append,
      List.map_cons, List.map_nil, halter, hrepl, hmon, hgrant, howner, superuserTemplate,
      replicationTemplate, monitorTemplate, ownerTemplate]

theorem Accepted.withPasswords {b : BootstrapRoles} (h : b.Accepted)
    (superuser replication monitor owner : String) :
    (b.withPasswords superuser replication monitor owner).Accepted := by
  refine ⟨h.1, fun app happ => ?_⟩
  obtain ⟨old, hold, rfl⟩ := Option.map_eq_some_iff.mp happ
  exact h.2 old hold

end BootstrapRoles

theorem poolerLookupSql_eq (password : String) : poolerLookupSql password =
    .ok (.createRoleIfAbsent POOLER_ROLE [.login] password :: lookupStatements) := by
  rw [poolerLookupSql, validateIdentifier_eq_ok BootstrapRoles.pooler_valid]
  rfl

/-- Texts that all read as tokens. -/
theorem exists_map_some {stmts : List Statement} (h : ∀ stmt ∈ stmts, stmt.lexed.isSome) :
    ∃ tokens : List (List Token), stmts.map Statement.lexed = tokens.map some := by
  induction stmts with
  | nil => exact ⟨[], rfl⟩
  | cons stmt rest ih =>
    rw [List.forall_mem_cons] at h
    obtain ⟨ts, hts⟩ := Option.isSome_iff_exists.mp h.1
    obtain ⟨tokens, htokens⟩ := ih h.2
    exact ⟨ts :: tokens, by rw [List.map_cons, List.map_cons, hts, htokens]⟩

theorem appDatabaseSql_eq {b : BootstrapRoles} (h : b.Accepted) : b.appDatabaseSql =
    .ok (b.app.map fun app => (.databaseExists app.database, .createDatabase app.database app.owner)) := by
  rw [BootstrapRoles.appDatabaseSql]
  cases happ : b.app with
  | none => rfl
  | some app =>
    obtain ⟨howner, hdatabase⟩ := h.2 app happ
    simp only [validateIdentifier_eq_ok howner, validateIdentifier_eq_ok hdatabase]
    rfl

/-- **A password is one literal of the SQL it is in**: the statements that bootstrap a
cluster, create its database, change a role's password or install the pooler's lookup
read as token sequences fixed before any password is known, but for one literal whose
value is the password. -/
theorem password_is_one_literal (b : BootstrapRoles) (role : String) (hb : b.Accepted)
    (hrole : validIdentifier role = true) :
    (∃ (superuser replication monitor : Template) (grant : List Token) (owner : Option Template),
      owner.isSome = b.app.isSome ∧
      ∀ superuserPassword replicationPassword monitorPassword ownerPassword, ∃ stmts,
        (b.withPasswords superuserPassword replicationPassword monitorPassword
          ownerPassword).statements = .ok stmts ∧
        stmts.map Statement.lexed =
          ([superuser.fill superuserPassword, replication.fill replicationPassword,
            monitor.fill monitorPassword, grant] ++
              (owner.map fun t => t.fill ownerPassword).toList).map some) ∧
    (∃ tokens : Option (List Token × List Token),
      ∀ superuserPassword replicationPassword monitorPassword ownerPassword, ∃ sql,
        (b.withPasswords superuserPassword replicationPassword monitorPassword
          ownerPassword).appDatabaseSql = .ok sql ∧
        sql.map (fun p => (p.1.lexed, p.2.lexed)) = tokens.map fun t => (some t.1, some t.2)) ∧
    (∃ t : Template, ∀ password, ∃ stmt,
      alterRolePasswordSql role password = .ok stmt ∧ stmt.lexed = some (t.fill password)) ∧
    (∃ (t : Template) (lookup : List (List Token)), ∀ password, ∃ stmts,
      poolerLookupSql password = .ok stmts ∧
      stmts.map Statement.lexed = (t.fill password :: lookup).map some) := by
  refine ⟨?_, ?_, ?_, ?_⟩
  · obtain ⟨grant, hgrant⟩ := BootstrapRoles.lexed_issued hb
    refine ⟨b.superuserTemplate, BootstrapRoles.replicationTemplate, BootstrapRoles.monitorTemplate,
      grant, b.ownerTemplate, by simp [BootstrapRoles.ownerTemplate], fun s r m o => ?_⟩
    exact ⟨_, BootstrapRoles.statements_of_accepted (hb.withPasswords s r m o), hgrant s r m o⟩
  · let tokens := fun app : AppDatabase => (
      tokensOf "SELECT 1 FROM pg_database WHERE datname = " ++
        [.literal app.database.toList, .symbol ';'],
      tokensOf "CREATE DATABASE " ++ .name app.database.toList :: (tokensOf " OWNER " ++
        [.name app.owner.toList, .symbol ';']))
    refine ⟨b.app.map tokens, fun s r m o => ⟨_, appDatabaseSql_eq (hb.withPasswords s r m o), ?_⟩⟩
    simp only [BootstrapRoles.withPasswords, Option.map_map]
    congr 1
    funext app
    simp only [Function.comp_apply, lexed_databaseExists, lexed_createDatabase, tokens]
  · have hok (password : String) :
        alterRolePasswordSql role password = .ok (.alterRolePassword role password) := by
      rw [alterRolePasswordSql, validateIdentifier_eq_ok hrole]
    exact ⟨alterTemplate role, fun password => ⟨_, hok password, lexed_alterRolePassword role password⟩⟩
  · obtain ⟨lookup, hlookup⟩ := exists_map_some lexed_lookup
    have hlogin : [RoleAttr.login] ∈ roleAttrs := by decide
    have hcreate := lexed_createRoleIfAbsent (dollar_not_mem BootstrapRoles.pooler_valid) hlogin
    refine ⟨createTemplate POOLER_ROLE [.login], lookup, fun password => ⟨_, poolerLookupSql_eq password, ?_⟩⟩
    rw [List.map_cons, List.map_cons, hcreate, hlookup]

def sampleRoles : BootstrapRoles where
  superuser := "postgres"
  superuserPassword := "su-pw"
  replicationPassword := "repl-pw"
  monitorPassword := "mon-pw"
  app := some { database := "appdb", owner := "app", ownerPassword := "app-pw" }

theorem password_is_one_literal_sample :
    ∃ t : Template, ∀ password, ∃ stmt, alterRolePasswordSql "app" password = .ok stmt ∧
      stmt.lexed = some (t.fill password) := by
  have haccepted : sampleRoles.Accepted := by
    refine ⟨by decide +kernel, fun app happ => ?_⟩
    obtain rfl := Option.some.inj happ
    decide +kernel
  exact (password_is_one_literal sampleRoles "app" haccepted (by decide +kernel)).2.2.1

end Pgpod
