import Pgpod.Agent.Roles

/-!
# Whose password the bootstrap's statements leave

Each role is created if it is absent and then altered, so a run that stopped half
way is taken up again by running all of it.  Every statement speaks of the role
it names, and two roles of one name have one password: the last.
-/

namespace Pgpod

/-- The names PostgreSQL lets no role be created or altered under. -/
def reservedRoleName (name : String) : Bool :=
  name == "public" || name == "none" || Text.startsWith name "pg_"

namespace Statement

/-- The role a statement gives a password, and the password. -/
def givesPassword : Statement → Option (String × String)
  | alterRolePassword role password => some (role, password)
  | createRoleIfAbsent name _ password => some (name, password)
  | _ => none

/-- Execute one statement; `none` is an error, which changes nothing. -/
def execute (D : Database) (stmt : Statement) : Option Database :=
  let accepted := match stmt with
    | alterRolePassword role _ => !reservedRoleName role && (D.roles role).isSome
    | createRoleIfAbsent name _ _ => !reservedRoleName name
    | grantPgMonitor role => (D.roles role).isSome
    | _ => true
  if accepted then some (stmt.apply D) else none

/-- Execute statements in order, up to the first that fails. -/
def executeAll : List Statement → Database → Option Database
  | [], D => some D
  | stmt :: rest, D => (stmt.execute D).bind (executeAll rest)

theorem execute_eq_apply {D D' : Database} {stmt : Statement} (h : stmt.execute D = some D') :
    D' = stmt.apply D := by
  unfold execute at h
  rw [Option.ite_none_right_eq_some] at h
  exact (Option.some.inj h.2).symm

theorem executeAll_cons {stmt : Statement} {rest : List Statement} {D D' : Database} :
    executeAll (stmt :: rest) D = some D' ↔
      stmt.execute D = some (stmt.apply D) ∧ executeAll rest (stmt.apply D) = some D' := by
  rw [executeAll, Option.bind_eq_some_iff]
  constructor
  · rintro ⟨D₁, hstmt, hrest⟩
    obtain rfl := execute_eq_apply hstmt
    exact ⟨hstmt, hrest⟩
  · rintro ⟨hstmt, hrest⟩
    exact ⟨_, hstmt, hrest⟩

/-! ## What one statement does to a role -/

/-- The role has this password. -/
def HasPassword (D : Database) (role password : String) : Prop :=
  ∃ r, D.roles role = some r ∧ r.password = some password

/-- The role has this attribute. -/
def HasAttr (D : Database) (role : String) (a : RoleAttr) : Prop :=
  ∃ r, D.roles role = some r ∧ a ∈ r.attrs

theorem HasPassword.unique {D : Database} {role p q : String} (hp : HasPassword D role p)
    (hq : HasPassword D role q) : p = q := by
  obtain ⟨r, hr, hrp⟩ := hp
  obtain ⟨r', hr', hrq⟩ := hq
  obtain rfl : r = r' := Option.some.inj (hr.symm.trans hr')
  exact Option.some.inj (hrp.symm.trans hrq)

theorem storedPassword_eq_some {p q : String} :
    storedPassword p = some q ↔ p.isEmpty = false ∧ p = q := by
  unfold storedPassword
  rw [Option.ite_none_left_eq_some, Bool.not_eq_true, Option.some.injEq]

/-- A statement that gives a password to a role it finds leaves it with that one. -/
theorem hasPassword_apply {D D' : Database} {stmt : Statement} {role p : String}
    (h : stmt.execute D = some D') (hgives : stmt.givesPassword = some (role, p))
    (hp : p.isEmpty = false) : HasPassword D' role p := by
  obtain rfl := execute_eq_apply h
  have hstored : storedPassword p = some p := storedPassword_eq_some.mpr ⟨hp, rfl⟩
  cases stmt with
  | alterRolePassword role' p' =>
    obtain ⟨rfl, rfl⟩ := Prod.mk.inj (Option.some.inj hgives)
    simp only [execute, Option.ite_none_right_eq_some, Bool.and_eq_true] at h
    obtain ⟨r, hr⟩ := Option.isSome_iff_exists.mp h.1.2
    exact ⟨{ r with password := storedPassword p' }, by simp [apply, hr], hstored⟩
  | createRoleIfAbsent role' attrs p' =>
    obtain ⟨rfl, rfl⟩ := Prod.mk.inj (Option.some.inj hgives)
    exact ⟨_, by simp only [apply, if_pos]; rfl, hstored⟩
  | _ => cases hgives

/-- A statement that gives it to other roles leaves a role's password alone. -/
theorem hasPassword_apply_of_ne {D : Database} {stmt : Statement} {role p : String}
    (h : HasPassword D role p) (hgives : ∀ q, stmt.givesPassword ≠ some (role, q)) :
    HasPassword (stmt.apply D) role p := by
  obtain ⟨r, hr, hrp⟩ := h
  cases stmt with
  | alterRolePassword role' q =>
    have hne : role ≠ role' := by
      rintro rfl
      exact hgives q rfl
    exact ⟨r, by simp [apply, hne, hr], hrp⟩
  | createRoleIfAbsent role' attrs q =>
    have hne : role ≠ role' := by
      rintro rfl
      exact hgives q rfl
    exact ⟨r, by simp [apply, hne, hr], hrp⟩
  | grantPgMonitor role' =>
    by_cases heq : role = role'
    · exact ⟨{ r with monitor := true }, by simp [apply, heq ▸ hr, heq], hrp⟩
    · exact ⟨r, by simp [apply, heq, hr], hrp⟩
  | _ => exact ⟨r, hr, hrp⟩

/-- A password that is found was there before, or it is not empty. -/
theorem hasPassword_apply_inv {D : Database} {stmt : Statement} {role q : String}
    (h : HasPassword (stmt.apply D) role q) : HasPassword D role q ∨ q.isEmpty = false := by
  obtain ⟨r, hr, hrq⟩ := h
  cases stmt with
  | alterRolePassword role' p =>
    by_cases heq : role = role'
    · simp only [apply, if_pos heq, Option.map_eq_some_iff] at hr
      obtain ⟨r', -, rfl⟩ := hr
      obtain ⟨hp, rfl⟩ := storedPassword_eq_some.mp hrq
      exact .inr hp
    · simp only [apply, if_neg heq] at hr
      exact .inl ⟨r, hr, hrq⟩
  | createRoleIfAbsent role' attrs p =>
    by_cases heq : role = role'
    · simp only [apply, if_pos heq, Option.some.injEq] at hr
      subst hr
      obtain ⟨hp, rfl⟩ := storedPassword_eq_some.mp hrq
      exact .inr hp
    · simp only [apply, if_neg heq] at hr
      exact .inl ⟨r, hr, hrq⟩
  | grantPgMonitor role' =>
    by_cases heq : role = role'
    · simp only [apply, if_pos heq, Option.map_eq_some_iff] at hr
      obtain ⟨r', hr', rfl⟩ := hr
      exact .inl ⟨r', hr', hrq⟩
    · simp only [apply, if_neg heq] at hr
      exact .inl ⟨r, hr, hrq⟩
  | _ => exact .inl ⟨r, hr, hrq⟩

/-- No statement takes an attribute away. -/
theorem hasAttr_apply {D : Database} (stmt : Statement) {role : String} {a : RoleAttr}
    (h : HasAttr D role a) : HasAttr (stmt.apply D) role a := by
  obtain ⟨r, hr, ha⟩ := h
  cases stmt with
  | alterRolePassword role' q =>
    by_cases heq : role = role'
    · exact ⟨{ r with password := storedPassword q }, by simp [apply, heq ▸ hr, heq], ha⟩
    · exact ⟨r, by simp [apply, heq, hr], ha⟩
  | createRoleIfAbsent role' attrs q =>
    by_cases heq : role = role'
    · exact ⟨{ r with attrs := r.attrs ++ attrs, password := storedPassword q },
        by simp [apply, heq ▸ hr, heq], List.mem_append_left _ ha⟩
    · exact ⟨r, by simp [apply, heq, hr], ha⟩
  | grantPgMonitor role' =>
    by_cases heq : role = role'
    · exact ⟨{ r with monitor := true }, by simp [apply, heq ▸ hr, heq], ha⟩
    · exact ⟨r, by simp [apply, heq, hr], ha⟩
  | _ => exact ⟨r, hr, ha⟩

theorem hasAttr_createRole {D : Database} {role p : String} {attrs : List RoleAttr} {a : RoleAttr}
    (h : a ∈ attrs) : HasAttr ((createRoleIfAbsent role attrs p).apply D) role a :=
  ⟨_, by simp only [apply, if_pos]; rfl, List.mem_append_right _ h⟩

/-! ## Runs -/

variable {stmts : List Statement} {D D' : Database}

/-- **Run lemma for passwords**: where every statement on a role gives the same password and there
is one, or it has it already, the run leaves it. -/
theorem executeAll_hasPassword {role p : String} (hp : p.isEmpty = false)
    (h : executeAll stmts D = some D')
    (hall : ∀ stmt ∈ stmts, ∀ q, stmt.givesPassword = some (role, q) → q = p)
    (hsome : HasPassword D role p ∨ ∃ stmt ∈ stmts, stmt.givesPassword = some (role, p)) :
    HasPassword D' role p := by
  induction stmts generalizing D with
  | nil =>
    obtain rfl := Option.some.inj h
    exact hsome.resolve_right (by simp)
  | cons stmt rest ih =>
    obtain ⟨hstmt, hrest⟩ := executeAll_cons.mp h
    refine ih hrest (fun s hs => hall s (List.mem_cons_of_mem _ hs)) ?_
    by_cases hgives : ∃ q, stmt.givesPassword = some (role, q)
    · obtain ⟨q, hq⟩ := hgives
      obtain rfl := hall stmt List.mem_cons_self q hq
      exact .inl (hasPassword_apply hstmt hq hp)
    · have hne : ∀ q, stmt.givesPassword ≠ some (role, q) := fun q hq => hgives ⟨q, hq⟩
      rcases hsome with hD | ⟨s, hs, hsp⟩
      · exact .inl (hasPassword_apply_of_ne hD hne)
      · rcases List.mem_cons.mp hs with rfl | hs
        · exact absurd hsp (hne p)
        · exact .inr ⟨s, hs, hsp⟩

/-- No run stores the empty text. -/
theorem executeAll_nonempty {role q : String} (h : executeAll stmts D = some D')
    (hD : ∀ q, HasPassword D role q → q.isEmpty = false) (hD' : HasPassword D' role q) :
    q.isEmpty = false := by
  induction stmts generalizing D with
  | nil =>
    obtain rfl := Option.some.inj h
    exact hD q hD'
  | cons stmt rest ih =>
    refine ih (executeAll_cons.mp h).2 fun q' hq' => ?_
    rcases hasPassword_apply_inv hq' with hbefore | hgiven
    · exact hD q' hbefore
    · exact hgiven

/-- Runs one after another, each stopped anywhere, and the last one complete. -/
inductive Executed (stmts : List Statement) : Database → Database → Prop
  | complete {D D' : Database} : executeAll stmts D = some D' → Executed stmts D D'
  | again {D D₁ D' : Database} (k : Nat) : executeAll (stmts.take k) D = some D₁ →
      Executed stmts D₁ D' → Executed stmts D D'

theorem executeAll_keeps {I : Database → Prop} (hkeep : ∀ D (stmt : Statement), I D → I (stmt.apply D))
    (h : executeAll stmts D = some D') (hD : I D) : I D' := by
  induction stmts generalizing D with
  | nil =>
    obtain rfl := Option.some.inj h
    exact hD
  | cons stmt rest ih => exact ih (executeAll_cons.mp h).2 (hkeep _ stmt hD)

/-- What statements keep, the last complete run starts from. -/
theorem Executed.last {I : Database → Prop} (hkeep : ∀ D (stmt : Statement), I D → I (stmt.apply D))
    (h : Executed stmts D D') (hD : I D) : ∃ D₀, I D₀ ∧ executeAll stmts D₀ = some D' := by
  induction h with
  | complete hrun => exact ⟨_, hD, hrun⟩
  | again k hrun _ ih => exact ih (executeAll_keeps hkeep hrun hD)

end Statement

namespace BootstrapRoles

open Statement

variable {b : BootstrapRoles} {stmts : List Statement}

/-- The roles a bootstrap is to leave, with the passwords given for them. -/
def passwords (b : BootstrapRoles) : List (String × String) :=
  [(b.superuser, b.superuserPassword), (REPLICATION_ROLE, b.replicationPassword),
    (MONITOR_ROLE, b.monitorPassword)] ++
    (b.app.map fun app => (app.owner, app.ownerPassword)).toList

/-- Each role has its own password, and standbys can connect. -/
structure Settled (b : BootstrapRoles) (D : Database) : Prop where
  passwords : ∀ role p, (role, p) ∈ b.passwords → HasPassword D role p
  replication : HasAttr D REPLICATION_ROLE .replication

/-- A role that is named twice is given one password, none is empty, and no name is reserved. -/
structure WellNamed (b : BootstrapRoles) : Prop where
  single : ∀ x ∈ b.passwords, ∀ y ∈ b.passwords, x.1 = y.1 → x.2 = y.2
  nonempty : ∀ x ∈ b.passwords, x.2.isEmpty = false
  allowed : ∀ x ∈ b.passwords, reservedRoleName x.1 = false

/-- A cluster right after `initdb`: one role, and no empty password.  PostgreSQL's predefined
roles, whose names are reserved, are left out. -/
structure Fresh (superuser : String) (D : Database) : Prop where
  present : (D.roles superuser).isSome = true
  alone : ∀ role, role ≠ superuser → D.roles role = none
  nonempty : ∀ q, HasPassword D superuser q → q.isEmpty = false

theorem statements_eq (h : b.statements = .ok stmts) :
    stmts = [.alterRolePassword b.superuser b.superuserPassword,
      .createRoleIfAbsent REPLICATION_ROLE [.login, .replication] b.replicationPassword,
      .createRoleIfAbsent MONITOR_ROLE [.login] b.monitorPassword,
      .grantPgMonitor MONITOR_ROLE] ++
      (b.app.map fun app => .createRoleIfAbsent app.owner [.login] app.ownerPassword).toList := by
  unfold statements at h
  have hbind : ∀ {x : Except String Unit} {f : Unit → Except String (List Statement)},
      (x >>= f) = .ok stmts → f () = .ok stmts := by
    intro x f hx
    cases x with
    | error e => cases hx
    | ok u => exact hx
  have h := hbind (hbind (hbind h))
  cases happ : b.app with
  | none =>
    rw [happ] at h
    exact (Except.ok.inj h).symm
  | some app =>
    rw [happ] at h
    exact (Except.ok.inj (hbind (hbind h))).symm

theorem mem_passwords (h : b.statements = .ok stmts) {role p : String} :
    (role, p) ∈ b.passwords ↔ ∃ stmt ∈ stmts, stmt.givesPassword = some (role, p) := by
  have hlist : stmts.filterMap givesPassword = b.passwords := by
    rw [statements_eq h, passwords]
    cases b.app <;> rfl
  rw [← hlist, List.mem_filterMap]

/-- A complete run settles well-named roles, whatever it starts from. -/
theorem settled_of_executeAll (h : b.statements = .ok stmts) (hnamed : b.WellNamed) {D D' : Database}
    (hrun : executeAll stmts D = some D') : b.Settled D' := by
  refine ⟨fun role p hmem => ?_, ?_⟩
  · refine executeAll_hasPassword (hnamed.nonempty _ hmem) hrun ?_
      (.inr ((mem_passwords h).mp hmem))
    intro stmt hstmt q hq
    exact hnamed.single (role, q) ((mem_passwords h).mpr ⟨stmt, hstmt, hq⟩) (role, p) hmem rfl
  · rw [statements_eq h] at hrun
    obtain ⟨-, hrun⟩ := executeAll_cons.mp hrun
    obtain ⟨-, hrun⟩ := executeAll_cons.mp hrun
    have hattr : HasAttr ((createRoleIfAbsent REPLICATION_ROLE [.login, .replication]
        b.replicationPassword).apply
        ((alterRolePassword b.superuser b.superuserPassword).apply D)) REPLICATION_ROLE .replication :=
      hasAttr_createRole (List.mem_cons_of_mem _ List.mem_cons_self)
    exact executeAll_keeps (I := fun D => HasAttr D REPLICATION_ROLE .replication)
      (fun D stmt => hasAttr_apply stmt) hrun hattr

/-- Nothing fails while the names are allowed and the superuser is there. -/
theorem executeAll_completes (h : b.statements = .ok stmts) (hnamed : b.WellNamed) {D : Database}
    (hsuper : (D.roles b.superuser).isSome = true) : ∃ D', executeAll stmts D = some D' := by
  have hsuperuser : reservedRoleName b.superuser = false :=
    hnamed.allowed (b.superuser, b.superuserPassword) (by simp [passwords])
  have hcons : ∀ {stmt : Statement} {rest : List Statement} {D : Database},
      stmt.execute D = some (stmt.apply D) → (∃ D', executeAll rest (stmt.apply D) = some D') →
      ∃ D', executeAll (stmt :: rest) D = some D' :=
    fun hstmt ⟨D', hrest⟩ => ⟨D', executeAll_cons.mpr ⟨hstmt, hrest⟩⟩
  rw [statements_eq h]
  refine hcons (by simp [execute, hsuperuser, hsuper]) (hcons rfl (hcons rfl (hcons ?_ ?_)))
  · simp [execute, apply]
  · cases happ : b.app with
    | none => exact ⟨_, rfl⟩
    | some app =>
      have howner : reservedRoleName app.owner = false :=
        hnamed.allowed (app.owner, app.ownerPassword) (by simp [passwords, happ])
      exact hcons (by simp [execute, howner]) ⟨_, rfl⟩

/-- A reserved name fails the run. -/
theorem allowed_of_executeAll (h : b.statements = .ok stmts) {D D' : Database}
    (hrun : executeAll stmts D = some D') {role p : String} (hmem : (role, p) ∈ b.passwords) :
    reservedRoleName role = false := by
  obtain ⟨stmt, hstmt, hgives⟩ := (mem_passwords h).mp hmem
  clear hmem h
  induction stmts generalizing D with
  | nil => cases hstmt
  | cons s rest ih =>
    obtain ⟨hs, hrest⟩ := executeAll_cons.mp hrun
    rcases List.mem_cons.mp hstmt with rfl | hstmt
    · cases stmt with
      | alterRolePassword role' q =>
        obtain ⟨rfl, rfl⟩ := Prod.mk.inj (Option.some.inj hgives)
        simp only [execute, Option.ite_none_right_eq_some, Bool.and_eq_true, Bool.not_eq_true'] at hs
        exact hs.1.1
      | createRoleIfAbsent role' attrs q =>
        obtain ⟨rfl, rfl⟩ := Prod.mk.inj (Option.some.inj hgives)
        simp only [execute, Option.ite_none_right_eq_some, Bool.not_eq_true'] at hs
        exact hs.1
      | _ => cases hgives
    · exact ih hrest hstmt

/-- **When every role ends with its own password**: run to the end on a fresh cluster, after any
number of runs that stopped half way. -/
theorem roles_settle_iff (b : BootstrapRoles) (stmts : List Statement) (h : b.statements = .ok stmts)
    (D : Database) (hfresh : Fresh b.superuser D) :
    ((∃ D', Executed stmts D D') ∧ ∀ D', Executed stmts D D' → b.Settled D') ↔ b.WellNamed := by
  constructor
  · rintro ⟨⟨D', hrun⟩, hsettled⟩
    have hset := hsettled D' hrun
    have hstored : ∀ role q, HasPassword D role q → q.isEmpty = false := by
      intro role q hq
      by_cases hrole : role = b.superuser
      · exact hfresh.nonempty q (hrole ▸ hq)
      · obtain ⟨r, hr, -⟩ := hq
        rw [hfresh.alone role hrole] at hr
        cases hr
    obtain ⟨D₀, hD₀, hlast⟩ := hrun.last
      (fun D stmt (hD : ∀ role q, HasPassword D role q → q.isEmpty = false) role q hq =>
        (hasPassword_apply_inv hq).elim (hD role q) id) hstored
    refine ⟨?_, ?_, ?_⟩
    · rintro ⟨role, p⟩ hp ⟨role', q⟩ hq (rfl : role = role')
      exact (hset.passwords role p hp).unique (hset.passwords role q hq)
    · rintro ⟨role, p⟩ hp
      exact executeAll_nonempty hlast (hD₀ role) (hset.passwords role p hp)
    · rintro ⟨role, p⟩ hp
      exact allowed_of_executeAll h hlast hp
  · intro hnamed
    obtain ⟨D', hrun⟩ := executeAll_completes h hnamed hfresh.present
    refine ⟨⟨D', .complete hrun⟩, fun D' hD' => ?_⟩
    obtain ⟨D₀, -, hlast⟩ := hD'.last (I := fun _ => True) (fun _ _ _ => trivial) trivial
    exact settled_of_executeAll h hnamed hlast

namespace PasswordSample

/-- A cluster right after `initdb`. -/
def fresh : Database where
  roles r := if r = SUPERUSER_ROLE then some { attrs := [.login, .replication], password := some "su" }
    else none
  databases _ := none
  contents := .fresh

theorem fresh_fresh : Fresh SUPERUSER_ROLE fresh := by
  refine ⟨rfl, fun role hrole => if_neg hrole, ?_⟩
  rintro q ⟨r, hr, hrq⟩
  obtain rfl := Option.some.inj hr
  obtain rfl := Option.some.inj hrq
  rfl

def roles (owner : String) : BootstrapRoles where
  superuser := SUPERUSER_ROLE
  superuserPassword := "su"
  replicationPassword := "rep"
  monitorPassword := "mon"
  app := some { database := "app", owner, ownerPassword := "own" }

def statementsOf (owner : String) : List Statement :=
  [.alterRolePassword SUPERUSER_ROLE "su",
   .createRoleIfAbsent REPLICATION_ROLE [.login, .replication] "rep",
   .createRoleIfAbsent MONITOR_ROLE [.login] "mon",
   .grantPgMonitor MONITOR_ROLE,
   .createRoleIfAbsent owner [.login] "own"]

/-- **An owner of the replication role's name takes its password over**: the statements are
accepted and all succeed. -/
theorem owner_overwrites_replication :
    (roles REPLICATION_ROLE).statements = .ok (statementsOf REPLICATION_ROLE) ∧
    Fresh (roles REPLICATION_ROLE).superuser fresh ∧
    ∃ D', Executed (statementsOf REPLICATION_ROLE) fresh D' ∧ ¬ (roles REPLICATION_ROLE).Settled D' := by
  have hrun : ∃ D', executeAll (statementsOf REPLICATION_ROLE) fresh = some D' := ⟨_, rfl⟩
  obtain ⟨D', hrun⟩ := hrun
  refine ⟨rfl, fresh_fresh, D', .complete hrun, fun hset => ?_⟩
  have hrep := hset.passwords REPLICATION_ROLE "rep" (by decide)
  have hown := hset.passwords REPLICATION_ROLE "own" (by decide)
  exact absurd (hrep.unique hown) (by decide)

theorem app_wellNamed : (roles "app").WellNamed :=
  ⟨by decide +kernel, by decide +kernel, by decide +kernel⟩

theorem roles_settle_app :
    (∃ D', Executed (statementsOf "app") fresh D') ∧
      ∀ D', Executed (statementsOf "app") fresh D' → (roles "app").Settled D' :=
  (roles_settle_iff (roles "app") (statementsOf "app") rfl fresh fresh_fresh).mpr app_wellNamed

end PasswordSample

end BootstrapRoles

end Pgpod
