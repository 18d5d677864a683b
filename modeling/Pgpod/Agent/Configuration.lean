import Mathlib.Data.String.Basic
import Pgpod.Agent.Bootstrap
import Pgpod.Backup.Render
import Pgpod.Pg.Hba
import Pgpod.Pg.ManagedConf

/-!
# The configuration a server starts on

The agent writes `conf.d` and `pg_hba.conf` anew at every start.  PostgreSQL reads the files of
`conf.d` in the order of their names and the last setting of a parameter stands, so a user's
parameter wins wherever the managed file sets it as well; a reserved one is never among them.
-/

namespace Pgpod

open ConfFile Effect

/-! ## Reading `conf.d` -/

namespace ConfDir

/-- The names that `include_dir` takes: an editor's and a half-written file are passed over. -/
def isConfName (name : String) : Bool :=
  6 ≤ name.toList.length && name.toList.head? != some '.' && ".conf".toList.isSuffixOf name.toList

/-- The files that are read, of a directory given as its names with their texts, in the order in
which they are. -/
def taken (dir : List (String × String)) : List (String × String) :=
  (dir.filter fun f => isConfName f.1).insertionSort fun a b => a.1 ≤ b.1

/-- The settings of files read one after another; nothing when one of them is refused. -/
def readAll : List (String × String) → Option (List (String × String))
  | [] => some []
  | (_, text) :: rest =>
    match readConf text, readAll rest with
    | some found, some more => some (found ++ more)
    | _, _ => none

def readConfDir (dir : List (String × String)) : Option (List (String × String)) :=
  readAll (taken dir)

/-- The value a parameter ends up with: names are compared without regard to case, and the last
setting stands. -/
def valueOf (found : List (String × String)) (name : String) : Option String :=
  (found.reverse.find? fun s => Text.toAsciiLowercase s.1 = Text.toAsciiLowercase name).map Prod.snd

theorem valueOf_append (xs ys : List (String × String)) (name : String) :
    valueOf (xs ++ ys) name = (valueOf ys name).or (valueOf xs name) := by
  rw [valueOf, List.reverse_append, List.find?_append]
  cases h : ys.reverse.find? fun s => Text.toAsciiLowercase s.1 = Text.toAsciiLowercase name with
  | none => simp [valueOf, h]
  | some s => simp [valueOf, h]

theorem valueOf_eq_none {found : List (String × String)} {name : String}
    (h : ∀ s ∈ found, Text.toAsciiLowercase s.1 ≠ Text.toAsciiLowercase name) :
    valueOf found name = none := by
  rw [valueOf, Option.map_eq_none_iff, List.find?_eq_none]
  intro s hs
  simpa using h s (List.mem_reverse.1 hs)

/-- The directory lists each of its names once, with these texts under the two that pgpod writes
and nothing else that is read. -/
structure Holds (dir : List (String × String)) (managed user : String) : Prop where
  nodup : (dir.map Prod.fst).Nodup
  managed : (MANAGED_CONF_FILE, managed) ∈ dir
  user : (USER_CONF_FILE, user) ∈ dir
  others : ∀ f ∈ dir, isConfName f.1 = true → f.1 = MANAGED_CONF_FILE ∨ f.1 = USER_CONF_FILE

theorem isConfName_files : isConfName MANAGED_CONF_FILE = true ∧ isConfName USER_CONF_FILE = true ∧
    MANAGED_CONF_FILE.toList < USER_CONF_FILE.toList := by
  decide +kernel

/-- The managed file is read first and the user's second, whatever else lies there. -/
theorem Holds.taken_eq {dir : List (String × String)} {managed user : String}
    (h : Holds dir managed user) :
    taken dir = [(MANAGED_CONF_FILE, managed), (USER_CONF_FILE, user)] := by
  obtain ⟨hmanaged, huser, hlt⟩ := isConfName_files
  have hlt : MANAGED_CONF_FILE < USER_CONF_FILE := hlt
  have hone : ∀ f ∈ dir, ∀ g ∈ dir, f.1 = g.1 → f = g :=
    fun f hf g hg hname => List.inj_on_of_nodup_map h.nodup hf hg hname
  have hmem : ∀ f, f ∈ dir.filter (fun f => isConfName f.1) ↔
      f ∈ [(MANAGED_CONF_FILE, managed), (USER_CONF_FILE, user)] := by
    intro f
    simp only [List.mem_filter, List.mem_cons, List.not_mem_nil, or_false]
    constructor
    · rintro ⟨hf, hconf⟩
      rcases h.others f hf hconf with hname | hname
      · exact .inl (hone f hf _ h.managed hname)
      · exact .inr (hone f hf _ h.user hname)
    · rintro (rfl | rfl)
      · exact ⟨h.managed, hmanaged⟩
      · exact ⟨h.user, huser⟩
  have hperm : (dir.filter fun f => isConfName f.1).Perm
      [(MANAGED_CONF_FILE, managed), (USER_CONF_FILE, user)] := by
    refine (List.perm_ext_iff_of_nodup (.filter _ (.of_map _ h.nodup)) ?_).2 hmem
    simp [hlt.ne]
  have hsorted : (taken dir).Pairwise fun a b => a.1 ≤ b.1 := by
    refine List.pairwise_insertionSort _ _
  have hpair : [(MANAGED_CONF_FILE, managed), (USER_CONF_FILE, user)].Pairwise
      fun a b => a.1 ≤ b.1 := by
    simpa using hlt.le
  have hname : ∀ a b, a ∈ taken dir → b ∈ [(MANAGED_CONF_FILE, managed), (USER_CONF_FILE, user)] →
      a.1 ≤ b.1 → b.1 ≤ a.1 → a = b := by
    intro a b ha hb hab hba
    refine hone a ?_ b ?_ (le_antisymm hab hba)
    · exact List.mem_of_mem_filter ((List.mem_insertionSort _).1 ha)
    · exact List.mem_of_mem_filter ((hmem b).2 hb)
  exact List.Perm.eq_of_pairwise hname hsorted hpair ((List.perm_insertionSort _ _).trans hperm)

theorem toLower_of_not_upper {c : Char} (h : ¬ ('A'.val ≤ c.val ∧ c.val ≤ 'Z'.val)) :
    c.toLower = c := by
  unfold Char.toLower
  rw [dif_neg h]

theorem toLower_toLower (c : Char) : c.toLower.toLower = c.toLower := by
  by_cases h : 'A'.val ≤ c.val ∧ c.val ≤ 'Z'.val
  · have hlower : c.toLower.val = c.val + 32 := by
      unfold Char.toLower
      rw [dif_pos h]
      rfl
    apply toLower_of_not_upper
    rw [hlower]
    have h1 := h.1
    have h2 := h.2
    simp only [UInt32.le_iff_toNat_le] at h1 h2 ⊢
    simp at h1 h2 ⊢
    omega
  · rw [toLower_of_not_upper h, toLower_of_not_upper h]

theorem toAsciiLowercase_normalizedKey (key : String) :
    Text.toAsciiLowercase (normalizedKey key) = normalizedKey key := by
  have htwice : ∀ cs : List Char, (cs.map Char.toLower).map Char.toLower = cs.map Char.toLower := by
    intro cs
    rw [List.map_map]
    exact List.map_congr_left fun c _ => toLower_toLower c
  simp only [normalizedKey, Text.toAsciiLowercase, String.toList_ofList, htwice]

theorem toAsciiLowercase_reserved : ∀ name ∈ RESERVED_PARAMETERS,
    Text.toAsciiLowercase name = name := by
  decide +kernel

/-- A user's parameter is never a reserved one, whatever the case of its name. -/
theorem valueOf_user {params : List (String × String)} {text : String}
    (h : renderUserConf params = .ok text) {name : String} (hname : name ∈ RESERVED_PARAMETERS) :
    valueOf ((sortedByKey params).map setting) name = none := by
  refine valueOf_eq_none fun s hs heq => ?_
  obtain ⟨kv, hkv, rfl⟩ := List.mem_map.1 hs
  have haccepted := renderUserConf_isOk.1 ⟨text, h⟩ kv ((List.mem_insertionSort _).1 hkv)
  simp only [acceptedKey, Bool.and_eq_true, Bool.not_eq_true'] at haccepted
  rw [setting, toAsciiLowercase_normalizedKey, toAsciiLowercase_reserved name hname] at heq
  rw [heq, List.contains_iff_mem.2 hname] at haccepted
  cases haccepted.1

/-- The managed settings that a user's parameters may replace. -/
def REPLACEABLE : List String :=
  ["archive_timeout", "hot_standby_feedback", "restart_after_crash", "logging_collector",
   "log_destination", "shared_preload_libraries"]

theorem reserved_or_replaceable :
    ∀ name ∈ ManagedConf.names, name ∈ RESERVED_PARAMETERS ∨ name ∈ REPLACEABLE := by
  decide +kernel

/-- What the two files come to: the managed settings under the user's parameters. -/
structure Decides (c : ManagedConf) (params : List (String × String))
    (found : List (String × String)) : Prop where
  value : ∀ name, valueOf found name =
    (valueOf ((sortedByKey params).map setting) name).or (valueOf c.settings name)
  reserved : ∀ name ∈ RESERVED_PARAMETERS, valueOf found name = valueOf c.settings name
  replaced : ∀ name ∈ ManagedConf.names, valueOf found name ≠ valueOf c.settings name →
    name ∈ REPLACEABLE

theorem readConfDir_decides {c : ManagedConf} (hc : c.plain = true)
    {params : List (String × String)} (hsafe : ∀ kv ∈ params, safeParameter kv = true)
    {user : String} (huser : renderUserConf params = .ok user) {dir : List (String × String)}
    (hdir : Holds dir c.render user) :
    ∃ found, readConfDir dir = some found ∧ Decides c params found := by
  have hmanaged := (ManagedConf.reads_render hc).readConf
  have hparams := ((renderUserConf_readsBack_iff huser).2 hsafe).settings
  refine ⟨c.settings ++ (sortedByKey params).map setting, ?_, ?_⟩
  · simp only [readConfDir, hdir.taken_eq, readAll, hmanaged, hparams, List.append_nil]
  have hreserved : ∀ name ∈ RESERVED_PARAMETERS,
      valueOf (c.settings ++ (sortedByKey params).map setting) name = valueOf c.settings name := by
    intro name hname
    rw [valueOf_append, valueOf_user huser hname, Option.none_or]
  refine ⟨fun name => valueOf_append _ _ _, hreserved, fun name hname hne => ?_⟩
  exact (reserved_or_replaceable name hname).resolve_left fun h => hne (hreserved name h)

/-- The user's file ends its last line. -/
theorem ended_renderUserConf {params : List (String × String)} {text : String}
    (h : renderUserConf params = .ok text) : Text.Ended text := by
  have hbody : ∀ (params : List (String × String)) (body : String),
      renderParameters params = .ok body → Text.Ended body := by
    intro params
    induction params with
    | nil =>
      rintro body ⟨⟩
      exact .inl rfl
    | cons kv rest ih =>
      intro body hbody
      obtain ⟨-, more, hmore, rfl⟩ := renderParameters_cons.1 hbody
      exact Text.Ended.append (.inr ⟨normalizedKey kv.1 ++ " = " ++ quote kv.2, rfl⟩)
        (ih more hmore)
  obtain ⟨body, hrest, hreturn⟩ := except_bind_eq_ok.1 h
  rw [← Except.ok.inj hreturn]
  have hheader : Text.Ended USER_CONF_HEADER :=
    Text.Ended.append (.inr ⟨_, rfl⟩) (Text.Ended.append (.inr ⟨_, rfl⟩) (.inr ⟨_, rfl⟩))
  exact hheader.append (hbody _ body hrest)

end ConfDir

/-! ## What the agent renders -/

/-- The managed settings of an instance; recovery is configured until it has been promoted. -/
def managedConfOf (spec : InstanceSpec) (recovering : Bool) : ManagedConf :=
  (((ManagedConf.primary spec.port).withArchive (match spec.archiveCommand with
    | some command => .on command
    | none => .off)).withRecovery ((spec.recovery.filter fun _ => recovering).map fun r =>
      { restoreCommand := restoreCommand r.sourceStanza, targetTime := r.targetTime })
    ).withSharedPreloadLibraries spec.sharedPreloadLibraries

def hbaConfigOf (spec : InstanceSpec) : HbaConfig :=
  match spec.networkCidr with
  | some cidr => (HbaConfig.new REPLICATION_ROLE).withNetwork cidr
  | none => HbaConfig.new REPLICATION_ROLE

def pgbackrestConfigOf (spec : InstanceSpec) (destinations : List Destination)
    (credentials : List (List (String × String))) : Except BackupError PgBackRestConfig := do
  let config ← PgBackRestConfig.new spec.inst.cluster.asStr destinations spec.backup.retention
    spec.backup.retentionMode
  return (config.withCredentials credentials).withRecoveryStanza
    (spec.recovery.map fun r => r.sourceStanza)

/-- The agent's own texts, as the lines of their files. -/
def Renderer.pgpod : Renderer where
  managedConf spec recovering := Text.fileLines (managedConfOf spec recovering).render
  userConf params := ((renderUserConf params).map Text.fileLines).mapError ConfError.toString
  hba spec := Text.fileLines (hbaConfigOf spec).render
  pgbackrestConf spec destinations credentials :=
    ((pgbackrestConfigOf spec destinations credentials).map fun c => Text.fileLines c.render
      ).mapError BackupError.toString

namespace Renderer

theorem pgpod_managedConf (spec : InstanceSpec) (recovering : Bool) :
    pgpod.managedConf spec recovering = Text.fileLines (managedConfOf spec recovering).render := by
  simp only [pgpod]

theorem pgpod_hba (spec : InstanceSpec) :
    pgpod.hba spec = Text.fileLines (hbaConfigOf spec).render := by
  simp only [pgpod]

theorem pgpod_userConf {params : List (String × String)} {lines : List String}
    (h : pgpod.userConf params = .ok lines) :
    ∃ text, renderUserConf params = .ok text ∧ lines = Text.fileLines text := by
  simp only [pgpod, except_mapError_eq_ok] at h
  cases htext : renderUserConf params with
  | error e =>
    rw [htext] at h
    cases h
  | ok text =>
    rw [htext] at h
    exact ⟨text, rfl, (Except.ok.inj h).symm⟩

end Renderer

namespace Agent

/-! ## The files of PGDATA -/

/-- The files in PGDATA by their relative paths; none when it is not there. -/
def pgFiles (s : AgentState) : Option (String → Option (List String)) :=
  (s.volume .pgdata).map Tree.files

/-- PGDATA is there, and its files satisfy `Q`. -/
def PgFiles (Q : (String → Option (List String)) → Prop) (s : AgentState) : Prop :=
  ∃ f, pgFiles s = some f ∧ Q f

/-- The operation leaves the files of a PGDATA that is there as they are, and starts no server for
good. -/
def Elsewhere : ∀ ⦃β : Type⦄, AgentOp β → Prop := fun _ op =>
  ¬ IsSpawn op ∧ ∀ c s f, pgFiles s = some f → pgFiles (op.exec c s).2 = some f

theorem pgFiles_onTree {s : AgentState} {d : Dir} {f : Tree → Tree} (h : d ≠ .pgdata) :
    pgFiles (AgentOp.onTree s d f) = pgFiles s := by
  rw [pgFiles, AgentOp.onTree, s.setTree_ne _ h.symm, pgFiles]

theorem elsewhere_readMount (path : String) : Elsewhere (AgentOp.readMount path) :=
  ⟨id, fun _ _ _ h => h⟩

theorem elsewhere_isFile (d : Dir) (rel : String) : Elsewhere (AgentOp.isFile d rel) :=
  ⟨id, fun _ _ _ h => h⟩

theorem elsewhere_setPermissions (d : Dir) (rel : String) (mode : Nat) :
    Elsewhere (AgentOp.setPermissions d rel mode) :=
  ⟨id, fun _ _ _ h => h⟩

theorem elsewhere_stanzaCreate (stanza : String) (port : UInt16) :
    Elsewhere (AgentOp.stanzaCreate stanza port) :=
  ⟨id, fun _ _ _ h => h⟩

theorem elsewhere_createSubdir (rel : String) : Elsewhere (AgentOp.createSubdir .pgdata rel) := by
  refine ⟨id, fun c s f h => ?_⟩
  simp only [AgentOp.exec]
  split
  · exact h
  · obtain ⟨t, ht, hf⟩ := Option.map_eq_some_iff.1 h
    rw [pgFiles, s.setTree_self, ht]
    exact congrArg some hf

theorem elsewhere_supervise : Elsewhere AgentOp.supervise := ⟨id, fun _ _ _ h => h⟩

theorem elsewhere_createDirAll (d : Dir) : Elsewhere (AgentOp.createDirAll d) := by
  refine ⟨id, fun c s f h => ?_⟩
  simp only [AgentOp.exec]
  split
  · exact h
  by_cases hd : d = .pgdata
  · obtain ⟨t, ht, hf⟩ := Option.map_eq_some_iff.1 h
    rw [pgFiles, hd, s.setTree_self, ht]
    exact congrArg some hf
  · rw [pgFiles, s.setTree_ne _ (Ne.symm hd)]
    exact h

theorem elsewhere_writeFile {d : Dir} (hd : d ≠ .pgdata) (rel : String) (lines : List String) :
    Elsewhere (AgentOp.writeFile d rel lines) := by
  refine ⟨id, fun c s f h => ?_⟩
  rw [← h]
  simp only [AgentOp.exec]
  split
  · split
    · exact pgFiles_onTree hd
    · rfl
  · exact pgFiles_onTree hd

theorem elsewhere_renameFile {d : Dir} (hd : d ≠ .pgdata) (src dst : String) :
    Elsewhere (AgentOp.renameFile d src dst) := by
  refine ⟨id, fun c s f h => ?_⟩
  rw [← h]
  simp only [AgentOp.exec]
  split
  · rfl
  · exact pgFiles_onTree hd

theorem elsewhere_pgCtlStart (port : UInt16) : Elsewhere (AgentOp.pgCtlStart port) := by
  refine ⟨id, fun c s f h => ?_⟩
  rw [← h]
  simp only [AgentOp.exec]
  split
  · rfl
  · split <;> rfl

theorem elsewhere_pgCtlStop : Elsewhere AgentOp.pgCtlStop := by
  refine ⟨id, fun c s f h => ?_⟩
  rw [← h]
  simp only [AgentOp.exec]
  split
  · rfl
  · dsimp only
    split <;> rfl

theorem pgFiles_mapDatabase (s : AgentState) (f : Database → Database) :
    pgFiles (s.mapDatabase f) = pgFiles s := by
  rw [pgFiles, AgentState.mapDatabase, s.setTree_self, pgFiles, Option.map_map]
  rfl

theorem elsewhere_psql (port : UInt16) (stmt : Statement) :
    Elsewhere (AgentOp.psql port stmt) := by
  refine ⟨id, fun c s f h => ?_⟩
  rw [← h]
  simp only [AgentOp.exec]
  split
  · rfl
  split
  · split
    · rfl
    split
    · exact pgFiles_mapDatabase _ _
    · dsimp only
      split
      · exact pgFiles_mapDatabase _ _
      · rfl
  · rfl

/-! ### The programs that work elsewhere -/

theorem writeAtomically_elsewhere {d : Dir} (hd : d ≠ .pgdata) (tmp rel : String)
    (lines : List String) : (writeAtomically d tmp rel lines).run.Calls Elsewhere :=
  Task.calls_bind (context_calls (Task.calls_ask (elsewhere_writeFile hd _ _))) fun _ =>
    Task.calls_bind (context_calls (Task.calls_ask (elsewhere_setPermissions _ _ _))) fun _ =>
    context_calls (Task.calls_ask (elsewhere_renameFile hd _ _))

theorem readOptional_elsewhere (path : String) : (readOptional path).run.Calls Elsewhere := by
  refine Task.calls_bind (context_calls (Task.calls_ask (elsewhere_readMount path))) fun found => ?_
  cases found with
  | none => exact Task.calls_pure _
  | some raw =>
    dsimp only
    split
    · exact bail_calls
    · exact Task.calls_pure _

theorem readRequired_elsewhere (path : String) : (readRequired path).run.Calls Elsewhere := by
  refine Task.calls_bind (readOptional_elsewhere path) fun found => ?_
  cases found with
  | none => exact bail_calls
  | some value => exact Task.calls_pure _

theorem fromMounts_elsewhere : fromMounts.run.Calls Elsewhere :=
  Task.calls_bind (readRequired_elsewhere _) fun _ =>
    Task.calls_bind (readRequired_elsewhere _) fun _ =>
    Task.calls_bind (readRequired_elsewhere _) fun _ =>
    Task.calls_bind (readOptional_elsewhere _) fun _ => Task.calls_pure _

theorem ensureDirs_elsewhere (dirs : List Dir) : (ensureDirs dirs).run.Calls Elsewhere := by
  induction dirs with
  | nil => exact Task.calls_pure _
  | cons dir rest ih =>
    exact Task.calls_bind (context_calls (Task.calls_ask (elsewhere_createDirAll dir))) fun _ =>
      Task.calls_bind (context_calls (Task.calls_ask (elsewhere_setPermissions _ _ _))) fun _ => ih

theorem readAllCredentials_elsewhere (index : Nat) (dests : List Destination) :
    (readAllCredentials index dests).run.Calls Elsewhere := by
  induction dests generalizing index with
  | nil => exact Task.calls_pure _
  | cons dest rest ih =>
    have hfirst : (readStoreCredentials index).run.Calls Elsewhere := by
      refine Task.calls_bind (context_calls (Task.calls_ask (elsewhere_readMount _)))
        fun contents => ?_
      cases contents with
      | none => exact Task.calls_pure _
      | some text => exact Task.calls_ofExcept _
    exact Task.calls_bind hfirst fun _ => Task.calls_bind (ih _) fun _ => Task.calls_pure _

theorem recoveryFinished_elsewhere : recoveryFinished.run.Calls Elsewhere :=
  Task.calls_bind (Task.calls_perform (elsewhere_isFile _ _)) fun _ => Task.calls_pure _

theorem pendingRecovery_elsewhere (spec : InstanceSpec) :
    (pendingRecovery spec).run.Calls Elsewhere := by
  unfold pendingRecovery
  cases spec.recovery with
  | none => exact Task.calls_pure _
  | some r => exact Task.calls_bind recoveryFinished_elsewhere fun _ => Task.calls_pure _

theorem writePgbackrestConf_elsewhere (R : Renderer) (spec : InstanceSpec) :
    (writePgbackrestConf R spec).run.Calls Elsewhere := by
  refine Task.calls_bind (pendingRecovery_elsewhere spec) fun recovery => ?_
  dsimp only
  split
  · exact Task.calls_pure _
  · exact Task.calls_bind (readAllCredentials_elsewhere 0 _) fun _ =>
      Task.calls_bind (context_calls (Task.calls_ofExcept _)) fun _ =>
      writeAtomically_elsewhere (by decide) _ _ _

theorem ensureStanza_elsewhere (stanza : String) (port : UInt16) :
    (ensureStanza stanza port).run.Calls Elsewhere :=
  Task.calls_bind (Task.calls_attempt (Task.calls_ask (elsewhere_stanzaCreate _ _))) fun _ =>
    Task.calls_pure _

/-- Creating the roles works in the database alone. -/
theorem createRoles_elsewhere (spec : InstanceSpec) (secrets : InstanceSecrets) :
    (createRoles spec secrets).run.Calls Elsewhere := by
  refine Prog.Calls.mono (fun _ op hop => ?_) (createRoles_psql spec secrets)
  cases op with
  | psql port stmt => exact elsewhere_psql port stmt
  | _ => exact hop.elim

/-! ### Writing the three files -/

def setFile (f : String → Option (List String)) (rel : String) (lines : Option (List String)) :
    String → Option (List String) := fun r => if r = rel then lines else f r

section Writing

variable {guard : ∀ ⦃β : Type⦄, AgentOp β → AgentState → Prop}
  {Q : (String → Option (List String)) → Prop}

theorem elsewhere_step {β : Type} {op : AgentOp β} (h : Elsewhere op) {s t : AgentState} {b : β}
    (hstep : agentMachine.step op s b t) (hs : PgFiles Q s) : PgFiles Q t := by
  obtain ⟨f, hf, hQ⟩ := hs
  obtain ⟨c, hc⟩ := hstep
  have ht : (op.exec c s).2 = t := congrArg Prod.snd hc
  exact ⟨f, ht ▸ h.2 c s f hf, hQ⟩

theorem elsewhere_keeps (hguard : ∀ ⦃β⦄ (op : AgentOp β) s, ¬ IsSpawn op → PgFiles Q s → guard op s)
    {α : Type} {t : AgentTask α} (ht : t.run.Calls Elsewhere) :
    agentMachine.Triple guard (PgFiles Q) t.run fun _ => PgFiles Q :=
  Machine.Triple.of_calls (stable _) (fun _ op s hop hs => hguard op s hop.1 hs)
    (fun _ _ _ _ _ hop hs hstep => elsewhere_step hop hstep hs) ht

/-- A write into PGDATA that may break off half-way. -/
theorem writeFile_step {rel : String} {lines : List String} (hQ : ∀ f x, Q f → Q (setFile f rel x))
    {s t : AgentState} {r : Except String Unit}
    (h : agentMachine.step (AgentOp.writeFile .pgdata rel lines) s r t) (hs : PgFiles Q s) :
    PgFiles Q t ∧ (r = .ok () → PgFiles (fun f => Q f ∧ f rel = some lines) t) := by
  obtain ⟨f, hf, hQf⟩ := hs
  obtain ⟨tr, htr, rfl⟩ := Option.map_eq_some_iff.1 hf
  have hwritten : ∀ x, pgFiles (AgentOp.onTree s .pgdata (Tree.writeFile · rel x)) =
      some (setFile tr.files rel x) := by
    intro x
    rw [pgFiles, AgentOp.onTree, s.setTree_self, htr]
    rfl
  obtain ⟨c, hc⟩ := h
  have hc' : (AgentOp.writeFile .pgdata rel lines).exec c s = (r, t) := hc
  simp only [AgentOp.exec] at hc'
  split at hc'
  · obtain ⟨rfl, rfl⟩ := Prod.mk.inj hc'
    refine ⟨?_, fun h => by cases h⟩
    split
    · exact ⟨_, hwritten _, hQ _ _ hQf⟩
    · exact ⟨_, hf, hQf⟩
  · obtain ⟨rfl, rfl⟩ := Prod.mk.inj hc'
    exact ⟨⟨_, hwritten _, hQ _ _ hQf⟩, fun _ => ⟨_, hwritten _, hQ _ _ hQf, by simp [setFile]⟩⟩

/-- The rename puts what the temporary file holds in place, or does nothing. -/
theorem renameFile_step {tmp rel : String} {lines : List String} (hne : rel ≠ tmp)
    (htmp : ∀ f x, Q f → Q (setFile f tmp x)) (hrel : ∀ f, Q f → Q (setFile f rel (some lines)))
    {s t : AgentState} {r : Except String Unit}
    (h : agentMachine.step (AgentOp.renameFile .pgdata tmp rel) s r t)
    (hs : PgFiles (fun f => Q f ∧ f tmp = some lines) s) :
    PgFiles Q t ∧ (r = .ok () → PgFiles (fun f => Q f ∧ f rel = some lines) t) := by
  obtain ⟨f, hf, hQf, hlines⟩ := hs
  obtain ⟨tr, htr, rfl⟩ := Option.map_eq_some_iff.1 hf
  obtain ⟨c, hc⟩ := h
  have hc' : (AgentOp.renameFile .pgdata tmp rel).exec c s = (r, t) := hc
  simp only [AgentOp.exec] at hc'
  split at hc'
  · obtain ⟨rfl, rfl⟩ := Prod.mk.inj hc'
    exact ⟨⟨_, hf, hQf⟩, fun h => by cases h⟩
  · obtain ⟨rfl, rfl⟩ := Prod.mk.inj hc'
    have hmoved : pgFiles (AgentOp.onTree s .pgdata fun t =>
        (t.writeFile rel (t.files tmp)).writeFile tmp none) =
        some (setFile (setFile tr.files rel (some lines)) tmp none) := by
      rw [pgFiles, AgentOp.onTree, s.setTree_self, htr, ← hlines]
      rfl
    have hQ := htmp _ none (hrel _ hQf)
    exact ⟨⟨_, hmoved, hQ⟩, fun _ => ⟨_, hmoved, hQ, by simp [setFile, hne]⟩⟩

/-- **A file is as it was until all of its new text is in place.** -/
theorem writeAtomically_writes {tmp rel : String} {lines : List String} (hne : rel ≠ tmp)
    (htmp : ∀ f x, Q f → Q (setFile f tmp x)) (hrel : ∀ f, Q f → Q (setFile f rel (some lines)))
    (hguard : ∀ ⦃β⦄ (op : AgentOp β) s, ¬ IsSpawn op → PgFiles Q s → guard op s) :
    agentMachine.Triple guard (PgFiles Q) (writeAtomically .pgdata tmp rel lines).run
      fun r s => PgFiles Q s ∧ (r = .ok () → PgFiles (fun f => Q f ∧ f rel = some lines) s) := by
  have hweaken : ∀ {s}, PgFiles (fun f => Q f ∧ f tmp = some lines) s → PgFiles Q s := by
    rintro s ⟨f, hf, hQ, -⟩
    exact ⟨f, hf, hQ⟩
  have hwrite : agentMachine.Triple guard (PgFiles Q)
      (context ("failed to write " ++ tmp) (Task.ask (.writeFile .pgdata tmp lines))).run
      fun r s => PgFiles Q s ∧ (r = .ok () → PgFiles (fun f => Q f ∧ f tmp = some lines) s) :=
    triple_ask (fun s hs => hguard _ s id hs) (fun s r t hs hstep => writeFile_step htmp hstep hs)
      fun _ _ _ h => ⟨h.1, fun h => by cases h⟩
  refine Machine.Triple.task_bind hwrite (fun _ => ?_) (fun _ => stable _)
    fun _ _ h => ⟨h.1, fun h => by cases h⟩
  refine .strengthen ?_ fun s hs => hs.2 rfl
  refine Machine.Triple.task_bind
    (elsewhere_keeps (fun _ op s hop hs => hguard op s hop (hweaken hs))
      (context_calls (Task.calls_ask (elsewhere_setPermissions _ _ _)))) (fun _ => ?_)
    (fun _ => stable _) fun _ s h => ⟨hweaken h, fun h => by cases h⟩
  exact triple_ask (fun s hs => hguard _ s id (hweaken hs))
    (fun s r t hs hstep => renameFile_step hne htmp hrel hstep hs)
    fun _ _ _ h => ⟨h.1, fun h => by cases h⟩

end Writing

/-! ### A start renders them all -/

/-- Whether recovery is still to be configured, by the files of PGDATA. -/
def recovering (spec : InstanceSpec) (f : String → Option (List String)) : Bool :=
  spec.recovery.isSome && (f "recovery.signal").isSome

/-- What a start renders, by the file it goes to. -/
def rendered (R : Renderer) (spec : InstanceSpec) (recovering : Bool) (rel : String) :
    Option (List String) :=
  if rel = "conf.d/" ++ MANAGED_CONF_FILE then some (R.managedConf spec recovering)
  else if rel = "conf.d/" ++ USER_CONF_FILE then (R.userConf spec.parameters).toOption
  else if rel = "pg_hba.conf" then some (R.hba spec)
  else none

def TEMPORARY : List String :=
  ["conf.d/00-pgpod.pgpod-tmp", "conf.d/10-user.pgpod-tmp", "pg_hba.pgpod-tmp"]

/-- Temporary files apart, every file is as it was or holds all of its new text. -/
def Untorn (R : Renderer) (spec : InstanceSpec) (f₀ f : String → Option (List String)) : Prop :=
  ∀ rel ∉ TEMPORARY, f rel = f₀ rel ∨
    ∃ lines, rendered R spec (recovering spec f₀) rel = some lines ∧ f rel = some lines

/-- The three files hold what was rendered. -/
structure AllRendered (R : Renderer) (spec : InstanceSpec) (recovering : Bool)
    (f : String → Option (List String)) : Prop where
  managed : f ("conf.d/" ++ MANAGED_CONF_FILE) = some (R.managedConf spec recovering)
  user : ∃ lines, R.userConf spec.parameters = .ok lines ∧
    f ("conf.d/" ++ USER_CONF_FILE) = some lines
  hba : f "pg_hba.conf" = some (R.hba spec)

section Rendering

variable {R : Renderer} {spec : InstanceSpec} {f₀ f : String → Option (List String)}

theorem Untorn.refl : Untorn R spec f₀ f₀ := fun _ _ => .inl rfl

theorem Untorn.temporary (h : Untorn R spec f₀ f) {tmp : String} (htmp : tmp ∈ TEMPORARY)
    (x : Option (List String)) : Untorn R spec f₀ (setFile f tmp x) := by
  intro rel hrel
  have hne : rel ≠ tmp := fun heq => hrel (heq ▸ htmp)
  rw [setFile, if_neg hne]
  exact h rel hrel

theorem Untorn.written (h : Untorn R spec f₀ f) {rel : String} {lines : List String}
    (hrendered : rendered R spec (recovering spec f₀) rel = some lines) :
    Untorn R spec f₀ (setFile f rel (some lines)) := by
  intro r hr
  by_cases heq : r = rel
  · exact .inr ⟨lines, heq ▸ hrendered, by rw [setFile, if_pos heq]⟩
  · rw [setFile, if_neg heq]
    exact h r hr

/-- What a start does not render stays. -/
theorem Untorn.kept (h : Untorn R spec f₀ f) {rel : String} (htmp : rel ∉ TEMPORARY)
    (hrel : rel ∉ ["conf.d/" ++ MANAGED_CONF_FILE, "conf.d/" ++ USER_CONF_FILE, "pg_hba.conf"]) :
    f rel = f₀ rel := by
  refine (h rel htmp).resolve_right ?_
  rintro ⟨lines, hrendered, -⟩
  simp only [List.mem_cons, List.not_mem_nil, or_false, not_or] at hrel
  rw [rendered, if_neg hrel.1, if_neg hrel.2.1, if_neg hrel.2.2] at hrendered
  cases hrendered

theorem Untorn.signal (h : Untorn R spec f₀ f) : f "recovery.signal" = f₀ "recovery.signal" :=
  h.kept (by decide) (by decide)

theorem Untorn.version (h : Untorn R spec f₀ f) : f Tree.PG_VERSION = f₀ Tree.PG_VERSION :=
  h.kept (by decide) (by decide)

theorem pendingRecovery_reads {guard : ∀ ⦃β : Type⦄, AgentOp β → AgentState → Prop}
    (hguard : ∀ ⦃β⦄ (op : AgentOp β) s, ¬ IsSpawn op → PgFiles (Untorn R spec f₀) s → guard op s) :
    agentMachine.Triple guard (PgFiles (Untorn R spec f₀)) (pendingRecovery spec).run
      fun r s => PgFiles (Untorn R spec f₀) s ∧
        ∀ o, r = .ok o → o.isSome = recovering spec f₀ := by
  unfold pendingRecovery
  cases hrecovery : spec.recovery with
  | none =>
    refine .ret (stable _) fun s hs => ⟨hs, ?_⟩
    rintro o ⟨⟩
    simp [recovering, hrecovery]
  | some r =>
    have hread : ∀ (s : AgentState) (b : Bool) (t : AgentState), PgFiles (Untorn R spec f₀) s →
        agentMachine.step (AgentOp.isFile .pgdata "recovery.signal") s b t →
        PgFiles (Untorn R spec f₀) t ∧ b = (f₀ "recovery.signal").isSome := by
      intro s b t hs hstep
      obtain ⟨hb, rfl⟩ := isFile_step hstep
      refine ⟨hs, ?_⟩
      obtain ⟨f, hf, hQ⟩ := hs
      obtain ⟨tr, htr, rfl⟩ := Option.map_eq_some_iff.1 hf
      rw [hb, htr, ← hQ.signal]
      rfl
    refine Machine.Triple.call (stable _) (fun s hs => hguard _ s id hs) hread fun b => ?_
    refine .ret (stable _) fun s hs => ⟨hs.1, ?_⟩
    rintro o ⟨⟩
    rw [recovering, hrecovery, ← hs.2]
    cases b <;> rfl

/-- The part of `render_config` that comes once `conf.d` is there. -/
def renderFiles (R : Renderer) (spec : InstanceSpec) : AgentTask Unit := do
  let recovery ← pendingRecovery spec
  writePgbackrestConf R spec
  writeAtomically .pgdata "conf.d/00-pgpod.pgpod-tmp" ("conf.d/" ++ MANAGED_CONF_FILE)
    (R.managedConf spec recovery.isSome)
  let userConf ← context "spec.postgresql.parameters could not be rendered"
    (Task.ofExcept (R.userConf spec.parameters))
  writeAtomically .pgdata "conf.d/10-user.pgpod-tmp" ("conf.d/" ++ USER_CONF_FILE) userConf
  writeAtomically .pgdata "pg_hba.pgpod-tmp" "pg_hba.conf" (R.hba spec)

theorem renderConfig_eq (R : Renderer) (spec : InstanceSpec) : renderConfig R spec = (do
    context "failed to create /pgdata/pgdata/conf.d" (Task.ask (.createSubdir .pgdata "conf.d"))
    renderFiles R spec) := rfl

/-- Some of the files hold their new text already. -/
def Progress (R : Renderer) (spec : InstanceSpec) (f₀ : String → Option (List String))
    (written : List String) (f : String → Option (List String)) : Prop :=
  Untorn R spec f₀ f ∧ ∀ rel ∈ written, f rel = rendered R spec (recovering spec f₀) rel

theorem Progress.start {s : AgentState} (h : PgFiles (Untorn R spec f₀) s) :
    PgFiles (Progress R spec f₀ []) s := by
  obtain ⟨f, hf, huntorn⟩ := h
  exact ⟨f, hf, huntorn, by simp⟩

theorem Progress.untorn {written : List String} {s : AgentState}
    (h : PgFiles (Progress R spec f₀ written) s) : PgFiles (Untorn R spec f₀) s := by
  obtain ⟨f, hf, huntorn, -⟩ := h
  exact ⟨f, hf, huntorn⟩

variable {guard : ∀ ⦃β : Type⦄, AgentOp β → AgentState → Prop}

theorem writeAtomically_renders {written : List String} (hwritten : ∀ r ∈ written, r ∉ TEMPORARY)
    {tmp rel : String} (htmp : tmp ∈ TEMPORARY) (hrel : rel ∉ TEMPORARY) {lines : List String}
    (hlines : rendered R spec (recovering spec f₀) rel = some lines)
    (hguard : ∀ ⦃β⦄ (op : AgentOp β) s, ¬ IsSpawn op → PgFiles (Untorn R spec f₀) s → guard op s) :
    agentMachine.Triple guard (PgFiles (Progress R spec f₀ written))
      (writeAtomically .pgdata tmp rel lines).run
      fun r s => PgFiles (Untorn R spec f₀) s ∧
        (r = .ok () → PgFiles (Progress R spec f₀ (rel :: written)) s) := by
  refine .weaken (writeAtomically_writes (fun heq => hrel (heq ▸ htmp)) ?_ ?_
    fun _ op s hop hs => hguard op s hop (Progress.untorn hs)) fun r s hs =>
      ⟨Progress.untorn hs.1, fun hok => ?_⟩
  · rintro f x ⟨huntorn, hdone⟩
    refine ⟨huntorn.temporary htmp x, fun r hr => ?_⟩
    have hne : r ≠ tmp := fun heq => hwritten r hr (heq ▸ htmp)
    rw [setFile, if_neg hne]
    exact hdone r hr
  · rintro f ⟨huntorn, hdone⟩
    refine ⟨huntorn.written hlines, fun r hr => ?_⟩
    by_cases heq : r = rel
    · rw [setFile, if_pos heq, heq, hlines]
    · rw [setFile, if_neg heq]
      exact hdone r hr
  · obtain ⟨f, hf, ⟨huntorn, hdone⟩, hnew⟩ := hs.2 hok
    refine ⟨f, hf, huntorn, fun r hr => ?_⟩
    rcases List.mem_cons.1 hr with rfl | hr
    · rw [hnew, hlines]
    · exact hdone r hr

theorem renderFiles_writes
    (hguard : ∀ ⦃β⦄ (op : AgentOp β) s, ¬ IsSpawn op → PgFiles (Untorn R spec f₀) s → guard op s) :
    agentMachine.Triple guard (PgFiles (Untorn R spec f₀)) (renderFiles R spec).run
      fun r s => PgFiles (Untorn R spec f₀) s ∧ (r = .ok () →
        PgFiles (fun f => Untorn R spec f₀ f ∧ AllRendered R spec (recovering spec f₀) f) s) := by
  refine Machine.Triple.task_bind (pendingRecovery_reads hguard) (fun recovery => ?_)
    (fun _ => stable _) fun _ _ h => ⟨h.1, fun h => by cases h⟩
  refine .strengthen (fun s hs => ?_) fun s hs => (⟨hs.1, hs.2 recovery rfl⟩ :
    PgFiles (Untorn R spec f₀) s ∧ recovery.isSome = recovering spec f₀)
  obtain ⟨hs, hrecovering⟩ := hs
  refine Machine.Triple.task_bind (elsewhere_keeps hguard (writePgbackrestConf_elsewhere R spec))
    (fun _ => ?_) (fun _ => stable _) (fun _ _ h => ⟨h, fun h => by cases h⟩) s hs
  rw [hrecovering]
  refine Machine.Triple.task_bind (.strengthen (writeAtomically_renders (by simp) (by decide)
    (by decide) rfl hguard) fun s hs => Progress.start hs) (fun _ => ?_) (fun _ => stable _)
    fun _ _ h => ⟨h.1, fun h => by cases h⟩
  refine .strengthen ?_ fun s hs => hs.2 rfl
  refine Machine.Triple.mapError_ofExcept_bind (fun userConf huser => ?_) (fun _ => stable _)
    fun _ s h => ⟨Progress.untorn h, fun h => by cases h⟩
  have huserLines : rendered R spec (recovering spec f₀) ("conf.d/" ++ USER_CONF_FILE) =
      some userConf := by
    rw [rendered, if_neg (by decide), if_pos rfl, huser]
    rfl
  refine Machine.Triple.task_bind (writeAtomically_renders (by decide) (by decide) (by decide)
    huserLines hguard) (fun _ => ?_) (fun _ => stable _) fun _ _ h => ⟨h.1, fun h => by cases h⟩
  refine .strengthen ?_ fun s hs => hs.2 rfl
  have hhba : rendered R spec (recovering spec f₀) "pg_hba.conf" = some (R.hba spec) := by
    rw [rendered, if_neg (by decide), if_neg (by decide), if_pos rfl]
  refine (writeAtomically_renders (by decide) (by decide) (by decide) hhba hguard).weaken
    fun r s hs => ⟨hs.1, fun hok => ?_⟩
  obtain ⟨f, hf, huntorn, hdone⟩ := hs.2 hok
  refine ⟨f, hf, huntorn, ?_, ⟨userConf, huser, ?_⟩, ?_⟩
  · rw [hdone _ (by simp), rendered, if_pos rfl]
  · rw [hdone _ (by simp), huserLines]
  · rw [hdone _ (by simp), hhba]

theorem renderConfig_writes
    (hguard : ∀ ⦃β⦄ (op : AgentOp β) s, ¬ IsSpawn op → PgFiles (Untorn R spec f₀) s → guard op s) :
    agentMachine.Triple guard (PgFiles (Untorn R spec f₀)) (renderConfig R spec).run
      fun r s => PgFiles (Untorn R spec f₀) s ∧ (r = .ok () →
        PgFiles (fun f => Untorn R spec f₀ f ∧ AllRendered R spec (recovering spec f₀) f) s) := by
  rw [renderConfig_eq]
  exact Machine.Triple.task_bind (elsewhere_keeps hguard
    (context_calls (Task.calls_ask (elsewhere_createSubdir _))))
    (fun _ => renderFiles_writes hguard) (fun _ => stable _) fun _ _ h => ⟨h, fun h => by cases h⟩

/-- `conf.d` is made if it is not there, and PGDATA with it. -/
theorem createSubdir_makes {s t : AgentState} {r : Except String Unit}
    (h : agentMachine.step (AgentOp.createSubdir .pgdata "conf.d") s r t) (hok : r = .ok ()) :
    ∃ f, pgFiles t = some f := by
  obtain ⟨c, hc⟩ := h
  have hc' : (AgentOp.createSubdir .pgdata "conf.d").exec c s = (r, t) := hc
  simp only [AgentOp.exec] at hc'
  split at hc'
  · obtain ⟨rfl, rfl⟩ := Prod.mk.inj hc'
    cases hok
  · obtain ⟨rfl, rfl⟩ := Prod.mk.inj hc'
    rw [pgFiles, AgentState.setTree_self]
    exact ⟨_, rfl⟩

/-! ### The whole start -/

/-- At the start of the server for good, the three files hold what was rendered. -/
def StartsConfigured (R : Renderer) (spec : InstanceSpec) ⦃β : Type⦄ (op : AgentOp β)
    (s : AgentState) : Prop :=
  IsSpawn op → PgFiles (fun f => AllRendered R spec (recovering spec f) f) s

theorem renderConfig_configures :
    agentMachine.Triple (StartsConfigured R spec) (fun _ => True) (renderConfig R spec).run
      fun r s => r = .ok () → PgFiles (fun f => AllRendered R spec (recovering spec f) f) s := by
  rw [renderConfig_eq]
  have hmade : agentMachine.Triple (StartsConfigured R spec) (fun _ => True)
      (context "failed to create /pgdata/pgdata/conf.d"
        (Task.ask (.createSubdir .pgdata "conf.d"))).run
      fun r s => r = .ok () → ∃ f, pgFiles s = some f :=
    triple_ask (fun _ _ hspawn => hspawn.elim)
      (fun _ _ _ _ hstep hok => createSubdir_makes hstep hok) fun _ _ _ _ h => by cases h
  refine Machine.Triple.task_bind hmade (fun _ => ?_) (fun _ => stable _)
    fun _ _ _ h => by cases h
  intro s hs
  obtain ⟨f₀, hf₀⟩ := hs rfl
  have hguard : ∀ ⦃β : Type⦄ (op : AgentOp β) (s : AgentState), ¬ IsSpawn op →
      PgFiles (Untorn R spec f₀) s → StartsConfigured R spec op s :=
    fun _ _ _ hop _ hspawn => absurd hspawn hop
  have hfiles := renderFiles_writes hguard
  refine (hfiles s ⟨f₀, hf₀, .refl⟩).weaken fun r t ht hok => ?_
  obtain ⟨f, hf, huntorn, hconfigured⟩ := ht.2 hok
  have hsignal : recovering spec f = recovering spec f₀ := by
    rw [recovering, huntorn.signal, recovering]
  refine ⟨f, hf, ?_⟩
  change AllRendered R spec (recovering spec f) f
  rw [hsignal]
  exact hconfigured

/-- Nothing before the end of a start is the start of the server. -/
theorem bootstrapIfNeeded_spawns_nothing (R : Renderer) (spec : InstanceSpec)
    (secrets : InstanceSecrets) :
    (bootstrapIfNeeded R spec secrets).run.Calls fun _ op => ¬ IsSpawn op := by
  have helsewhere : ∀ {α : Type} {t : AgentTask α}, t.run.Calls Elsewhere →
      t.run.Calls fun _ op => ¬ IsSpawn op := fun ht => ht.mono fun _ _ hop => hop.1
  refine Task.calls_bind (Task.calls_perform id) fun b => ?_
  cases b with
  | true => exact Task.calls_pure _
  | false =>
    simp only [Bool.false_eq_true, if_false]
    cases spec.bootstrap with
    | initdb init =>
      have hinitdb : ∀ call, (runInitdb call).run.Calls fun _ op => ¬ IsSpawn op := fun call =>
        Task.calls_bind (context_calls (Task.calls_ask id)) fun status => by
          split
          · exact Task.calls_pure _
          · exact bail_calls
      have hinclude : (appendIncludeDir .pgdata).run.Calls fun _ op => ¬ IsSpawn op :=
        Task.calls_bind (context_calls (Task.calls_ask id)) fun existing => by
          split
          · exact Task.calls_pure _
          · exact context_calls (Task.calls_ask id)
      have hpwfile : (writePwfile secrets.superuser).run.Calls fun _ op => ¬ IsSpawn op :=
        Task.calls_bind (context_calls (Task.calls_ask id)) fun _ =>
          context_calls (Task.calls_ask id)
      exact Task.calls_bind (Task.calls_bind hpwfile fun _ =>
        Task.calls_bind (Task.calls_attempt (hinitdb _)) fun _ =>
        Task.calls_bind (Task.calls_attempt (Task.calls_ask id)) fun _ =>
        Task.calls_bind (Task.calls_ofExcept _) fun _ => hinclude) fun _ => Task.calls_pure _
    | recovery r =>
      have hrestore : (restore r).run.Calls fun _ op => ¬ IsSpawn op :=
        Task.calls_bind (context_calls (Task.calls_ask id)) fun status => by
          split
          · exact context_calls (Task.calls_ask id)
          · exact bail_calls
      exact Task.calls_bind (helsewhere (writePgbackrestConf_elsewhere R spec)) fun _ =>
        Task.calls_bind hrestore fun _ => Task.calls_pure _

/-- What follows the rendering, up to the start of the server. -/
theorem withLocalPostgres_elsewhere (spec : InstanceSpec) (secrets : InstanceSecrets) :
    (withLocalPostgres do
      createRoles spec secrets
      Task.when spec.backup.isEnabled <|
        ensureStanza spec.inst.cluster.asStr Container.BOOTSTRAP_PORT).run.Calls Elsewhere :=
  withLocalPostgres_calls (Task.calls_bind (createRoles_elsewhere spec secrets) fun _ =>
    Task.calls_when (ensureStanza_elsewhere _ _)) (elsewhere_pgCtlStart _) elsewhere_pgCtlStop

theorem afterSpawn_elsewhere (spec : InstanceSpec) (bootstrapped : Bootstrapped) :
    (do Task.when (spec.backup.isEnabled && bootstrapped ≠ .initdb) <|
          ensureStanza spec.inst.cluster.asStr Container.PG_PORT
        Task.ask .supervise : AgentTask Int).run.Calls Elsewhere :=
  Task.calls_bind (Task.calls_when (ensureStanza_elsewhere _ _)) fun _ =>
    Task.calls_ask elsewhere_supervise

theorem run_configures (crates : Crates) (R : Renderer) {env : String → Option String}
    {spec : InstanceSpec} (hspec : InstanceSpec.fromEnv crates (env SPEC_ENV) = .ok spec) :
    agentMachine.Triple (StartsConfigured R spec) (fun s => s.env = env ∧ True)
      (run crates R).run fun _ _ => True := by
  have hnone : ∀ ⦃β : Type⦄ (op : AgentOp β) (s : AgentState), ¬ IsSpawn op →
      StartsConfigured R spec op s := fun _ _ _ hop h => absurd h hop
  have hother : ∀ {α : Type} {t : AgentTask α}, (t.run.Calls fun _ op => ¬ IsSpawn op) →
      agentMachine.Triple (StartsConfigured R spec) (fun _ => True) t.run fun _ _ => True :=
    fun ht => Machine.Triple.of_calls (stable _) (fun _ op s hop _ => hnone op s hop)
      (fun _ _ _ _ _ _ _ _ => trivial) ht
  have helsewhere : ∀ {α : Type} {t : AgentTask α}, t.run.Calls Elsewhere →
      t.run.Calls fun _ op => ¬ IsSpawn op := fun ht => ht.mono fun _ _ hop => hop.1
  refine Machine.Triple.task_bind (readEnv_answers SPEC_ENV fun s => hnone _ s id) (fun raw => ?_)
    (fun _ => stable _) fun _ _ _ => trivial
  refine Machine.Triple.mapError_ofExcept_bind (fun spec' hspec' => ?_) (fun _ => stable _)
    fun _ _ _ => trivial
  have hsame : ∀ s : AgentState,
      (Except.ok raw : Except String (Option String)) = .ok (env SPEC_ENV) ∧ True →
      spec' = spec ∧ True := by
    rintro s ⟨hraw, -⟩
    rw [Except.ok.inj hraw, hspec] at hspec'
    exact ⟨(Except.ok.inj hspec').symm, trivial⟩
  refine .strengthen (fun s hs => ?_) hsame
  obtain ⟨rfl, -⟩ := hs
  refine Machine.Triple.task_bind (K := fun _ _ => True)
    (hother (helsewhere (context_calls fromMounts_elsewhere))) (fun secrets => ?_)
    (fun _ => stable _) (fun _ _ _ => trivial) s trivial
  refine Machine.Triple.task_bind (hother (helsewhere (ensureDirs_elsewhere _))) (fun _ => ?_)
    (fun _ => stable _) fun _ _ _ => trivial
  refine Machine.Triple.task_bind (hother (bootstrapIfNeeded_spawns_nothing R spec' secrets))
    (fun bootstrapped => ?_) (fun _ => stable _) fun _ _ _ => trivial
  refine Machine.Triple.task_bind renderConfig_configures (fun _ => ?_) (fun _ => stable _)
    fun _ _ _ => trivial
  refine .strengthen ?_ fun s hs => hs rfl
  refine Machine.Triple.task_bind (elsewhere_keeps (fun _ op s hop _ => hnone op s hop)
    (Task.calls_when (withLocalPostgres_elsewhere spec' secrets))) (fun _ => ?_) (fun _ => stable _)
    fun _ _ _ => trivial
  have hspawn : agentMachine.Triple (StartsConfigured R spec')
      (PgFiles fun f => AllRendered R spec' (recovering spec' f) f)
      (context "failed to start postgres — is it on PATH in this image?"
        (Task.ask .spawnPostgres)).run fun _ _ => True :=
    triple_ask (fun _ hs _ => hs) (fun _ _ _ _ _ => trivial) fun _ _ _ _ => trivial
  exact Machine.Triple.task_bind hspawn
    (fun _ => hother (helsewhere (afterSpawn_elsewhere spec' bootstrapped))) (fun _ => stable _)
    fun _ _ _ => trivial

/-- On a PGDATA that is initialised, a start changes no file but by putting a whole new one in
place. -/
theorem run_untorn (crates : Crates) {env : String → Option String}
    (hspec : InstanceSpec.fromEnv crates (env SPEC_ENV) = .ok spec)
    (hinit : (f₀ Tree.PG_VERSION).isSome = true) :
    agentMachine.Triple (fun _ _ => PgFiles (Untorn R spec f₀))
      (fun s => s.env = env ∧ PgFiles (Untorn R spec f₀) s) (run crates R).run
      fun _ => PgFiles (Untorn R spec f₀) := by
  have hguard : ∀ ⦃β : Type⦄ (op : AgentOp β) (s : AgentState), ¬ IsSpawn op →
      PgFiles (Untorn R spec f₀) s → PgFiles (Untorn R spec f₀) s := fun _ _ _ _ hs => hs
  have hkeeps : ∀ {α : Type} {t : AgentTask α}, t.run.Calls Elsewhere →
      agentMachine.Triple (fun _ _ => PgFiles (Untorn R spec f₀)) (PgFiles (Untorn R spec f₀)) t.run
        fun _ => PgFiles (Untorn R spec f₀) := fun ht => elsewhere_keeps hguard ht
  have henv : agentMachine.Triple (fun _ _ => PgFiles (Untorn R spec f₀))
      (fun s => s.env = env ∧ PgFiles (Untorn R spec f₀) s)
      (Task.perform (.readEnv SPEC_ENV) : AgentTask (Option String)).run
      fun r s => r = .ok (env SPEC_ENV) ∧ PgFiles (Untorn R spec f₀) s := by
    have hstep : ∀ (s : AgentState) (b : Option String) (t : AgentState),
        s.env = env ∧ PgFiles (Untorn R spec f₀) s →
        agentMachine.step (AgentOp.readEnv SPEC_ENV) s b t →
        b = env SPEC_ENV ∧ PgFiles (Untorn R spec f₀) t := by
      rintro s b t ⟨rfl, hs⟩ hstep
      obtain ⟨hb, rfl⟩ := readEnv_step hstep
      exact ⟨hb, hs⟩
    refine Machine.Triple.call (stable _) (fun s hs => hs.2) hstep fun b => ?_
    exact .ret (stable _) fun s hs => ⟨by rw [hs.1], hs.2⟩
  refine Machine.Triple.task_bind henv (fun raw => ?_) (fun _ => stable _) fun _ _ h => h.2
  refine Machine.Triple.mapError_ofExcept_bind (fun spec' hspec' => ?_) (fun _ => stable _)
    fun _ _ h => h.2
  rintro s ⟨hraw, hs⟩
  rw [Except.ok.inj hraw, hspec] at hspec'
  obtain rfl : spec' = spec := (Except.ok.inj hspec').symm
  refine Machine.Triple.task_bind (K := fun _ => PgFiles (Untorn R spec' f₀))
    (hkeeps (context_calls fromMounts_elsewhere)) (fun secrets => ?_) (fun _ => stable _)
    (fun _ _ h => h) s hs
  refine Machine.Triple.task_bind (hkeeps (ensureDirs_elsewhere _)) (fun _ => ?_)
    (fun _ => stable _) fun _ _ h => h
  have hfound : agentMachine.Triple (fun _ _ => PgFiles (Untorn R spec' f₀))
      (PgFiles (Untorn R spec' f₀)) (bootstrapIfNeeded R spec' secrets).run
      fun r s => PgFiles (Untorn R spec' f₀) s ∧ ∀ b, r = .ok b → b = .existing := by
    have hread : ∀ (s : AgentState) (b : Bool) (t : AgentState), PgFiles (Untorn R spec' f₀) s →
        agentMachine.step (AgentOp.isFile .pgdata Tree.PG_VERSION) s b t →
        PgFiles (Untorn R spec' f₀) t ∧ b = true := by
      intro s b t hs hstep
      obtain ⟨hb, rfl⟩ := isFile_step hstep
      refine ⟨hs, ?_⟩
      obtain ⟨f, hf, hQ⟩ := hs
      obtain ⟨tr, htr, rfl⟩ := Option.map_eq_some_iff.1 hf
      rw [hb, htr, ← hinit, ← hQ.version]
      rfl
    refine Machine.Triple.call (stable _) (fun _ hs => hs) hread fun b => ?_
    rintro s ⟨hs, rfl⟩
    have hexisting : agentMachine.Triple (fun _ _ => PgFiles (Untorn R spec' f₀))
        (PgFiles (Untorn R spec' f₀)) (pure .existing : AgentTask Bootstrapped).run
        fun r s => PgFiles (Untorn R spec' f₀) s ∧ ∀ b, r = .ok b → b = .existing :=
      .ret (stable _) fun s hs => ⟨hs, fun b hb => (Except.ok.inj hb).symm⟩
    exact hexisting s hs
  refine Machine.Triple.task_bind hfound (fun bootstrapped => ?_) (fun _ => stable _)
    fun _ _ h => h.1
  rintro s ⟨hs, hexisting⟩
  obtain rfl := hexisting _ rfl
  refine Machine.Triple.task_bind (K := fun _ => PgFiles (Untorn R spec' f₀))
    (.weaken (renderConfig_writes hguard) fun _ _ h => h.1) (fun _ => ?_) (fun _ => stable _)
    (fun _ _ h => h) s hs
  refine Machine.Triple.task_bind (hkeeps (Task.calls_when
    (withLocalPostgres_elsewhere spec' secrets))) (fun _ => ?_) (fun _ => stable _) fun _ _ h => h
  have hspawn : agentMachine.Triple (fun _ _ => PgFiles (Untorn R spec' f₀))
      (PgFiles (Untorn R spec' f₀)) (context
        "failed to start postgres — is it on PATH in this image?" (Task.ask .spawnPostgres)).run
      fun _ => PgFiles (Untorn R spec' f₀) := by
    refine triple_ask (fun _ hs => hs) (fun s r t hs hstep => ?_) fun _ _ _ h => h
    obtain ⟨c, hc⟩ := hstep
    have hc' : AgentOp.spawnPostgres.exec c s = (r, t) := hc
    simp only [AgentOp.exec] at hc'
    split at hc'
    all_goals
      obtain ⟨rfl, rfl⟩ := Prod.mk.inj hc'
      exact hs
  exact Machine.Triple.task_bind hspawn (fun _ => hkeeps (afterSpawn_elsewhere spec' .existing))
    (fun _ => stable _) fun _ _ h => h

end Rendering

/-! ### What the server starts on -/

/-- The names that lie in `conf.d`, with the texts of the files. -/
structure Lists (f : String → Option (List String)) (dir : List (String × String)) : Prop where
  nodup : (dir.map Prod.fst).Nodup
  mem : ∀ name text, (name, text) ∈ dir ↔
    ∃ lines, f ("conf.d/" ++ name) = some lines ∧ text = Text.unlines lines

/-- The texts of a spec that go into the files as they are. -/
structure Plain (spec : InstanceSpec) : Prop where
  managed : ∀ recovering, (managedConfOf spec recovering).plain = true
  user : ∀ kv ∈ spec.parameters, safeParameter kv = true
  hba : (hbaConfigOf spec).plain = true

/-- PostgreSQL takes the managed settings under the user's parameters, and admits whom the table
of the spec admits. -/
structure FollowsSpec {α : Type} (R : HbaFile.Reader α) (spec : InstanceSpec)
    (f : String → Option (List String)) : Prop where
  settings : ∀ dir, Lists f dir →
    (∀ e ∈ dir, ConfDir.isConfName e.1 = true → e.1 = MANAGED_CONF_FILE ∨ e.1 = USER_CONF_FILE) →
    ∃ found, ConfDir.readConfDir dir = some found ∧
      ConfDir.Decides (managedConfOf spec (recovering spec f)) spec.parameters found
  admits : ∃ lines rules, f "pg_hba.conf" = some lines ∧
    R.readHba (Text.unlines lines) = some rules ∧ ∀ conn,
      HbaFile.firstMatch rules conn =
        ((hbaConfigOf spec).verdict R.covers conn).map AuthMethod.asStr

theorem AllRendered.followsSpec {α : Type} (R : HbaFile.Reader α) {spec : InstanceSpec}
    (hplain : Plain spec) {f : String → Option (List String)}
    (h : AllRendered Renderer.pgpod spec (recovering spec f) f) : FollowsSpec R spec f := by
  have hmanaged := hplain.managed (recovering spec f)
  constructor
  · intro dir hdir honly
    obtain ⟨lines, hlines, huser⟩ := h.user
    obtain ⟨text, htext, rfl⟩ := Renderer.pgpod_userConf hlines
    refine ConfDir.readConfDir_decides hmanaged hplain.user htext ⟨hdir.nodup, ?_, ?_, honly⟩
    · refine (hdir.mem _ _).2 ⟨_, h.managed, ?_⟩
      rw [Renderer.pgpod_managedConf]
      exact (Text.unlines_fileLines (ManagedConf.reads_render hmanaged).ended).symm
    · refine (hdir.mem _ _).2 ⟨_, huser, ?_⟩
      exact (Text.unlines_fileLines (ConfDir.ended_renderUserConf htext)).symm
  · have hextra : (hbaConfigOf spec).extra = [] := by
      unfold hbaConfigOf
      cases spec.networkCidr <;> rfl
    have hnone : R.readHba (Text.unlines (hbaConfigOf spec).extra) = some [] := by
      rw [hextra]
      exact R.readHba_empty
    refine ⟨_, _, h.hba, ?_, fun conn => HbaConfig.firstMatch_managed R.covers hplain.hba conn⟩
    have hread := HbaConfig.readHba_render hplain.hba R
    rw [hnone, Option.map_some, List.append_nil] at hread
    have hended := HbaConfig.ended_render hplain.hba hextra
    rw [Renderer.pgpod_hba, Text.unlines_fileLines hended]
    exact hread

/-- **Whatever state it starts from, a start comes to the server only with the files of its own
spec in place, and they say what the spec asks for.** -/
theorem spawn_follows_spec {α : Type} (R : HbaFile.Reader α) (crates : Crates)
    {s₀ : AgentState} {spec : InstanceSpec}
    (hspec : InstanceSpec.fromEnv crates (s₀.env SPEC_ENV) = .ok spec) (hplain : Plain spec)
    {β : Type} {op : AgentOp β} {next : β → Prog AgentOp (Except String Int)} {s : AgentState}
    (hreach : agentMachine.Reach (run crates Renderer.pgpod).run s₀ (.call op next) s)
    (hspawn : IsSpawn op) : ∃ f, pgFiles s = some f ∧ FollowsSpec R spec f := by
  have hstart := (run_configures crates Renderer.pgpod hspec) s₀ ⟨rfl, trivial⟩
  obtain ⟨f, hf, hconfigured⟩ := hstart.at_call hreach hspawn
  exact ⟨f, hf, hconfigured.followsSpec R hplain⟩

namespace Sample

/-- A cluster on a network of its own, with a parameter of its user's. -/
def tunedSpec : InstanceSpec :=
  { spec wantsApp with parameters := [("work_mem", "16MB")], networkCidr := some "10.89.0.0/24" }

def tunedCrates : Crates :=
  { (code wantsApp).crates with instanceSpecFromJson := fun _ => .ok tunedSpec }

/-- The files of a PGDATA that has been initialised. -/
def initialised (rel : String) : Option (List String) :=
  if rel = Tree.PG_VERSION then some ["18"] else none

/-- A later start of the cluster. -/
def laterStart : AgentState :=
  (attempt .instanceRun image18).enter fun d =>
    if d = .pgdata then some { files := initialised, subdirs := [], db := none } else none

theorem tunedSpec_plain : Plain tunedSpec := by
  refine ⟨fun recovering => ?_, by decide +kernel, by decide +kernel⟩
  cases recovering <;> decide +kernel

theorem tunedSpec_spawn_follows : ∃ (β : Type) (op : AgentOp β)
    (next : β → Prog AgentOp (Except String Int)) (s : AgentState),
    agentMachine.Reach (run tunedCrates Renderer.pgpod).run laterStart (.call op next) s ∧
    IsSpawn op ∧ ∃ f, pgFiles s = some f ∧ FollowsSpec HbaConfig.Sample.reader tunedSpec f := by
  obtain ⟨β, op, next, s, hreach, htest⟩ := agentExec.follow_call startsServer
    (List.replicate 26 (.inl {})) (run tunedCrates Renderer.pgpod).run laterStart
    (by decide +kernel)
  have hspawn : IsSpawn op := by
    cases op with
    | spawnPostgres => trivial
    | _ => cases htest
  exact ⟨β, op, next, s, hreach, hspawn,
    spawn_follows_spec HbaConfig.Sample.reader tunedCrates rfl tunedSpec_plain hreach hspawn⟩

end Sample

/-- **A start that is cut off anywhere leaves every file of an initialised PGDATA as it was or
with all of its new text**, temporary ones apart. -/
theorem start_tears_nothing (crates : Crates) (R : Renderer) {s₀ : AgentState}
    {spec : InstanceSpec} (hspec : InstanceSpec.fromEnv crates (s₀.env SPEC_ENV) = .ok spec)
    {f₀ : String → Option (List String)} (hfiles : pgFiles s₀ = some f₀)
    (hinit : (f₀ Tree.PG_VERSION).isSome = true) {q : Prog AgentOp (Except String Int)}
    {s : AgentState} (hreach : agentMachine.Reach (run crates R).run s₀ q s) :
    ∃ f, pgFiles s = some f ∧ Untorn R spec f₀ f := by
  have hstart := (run_untorn (R := R) crates hspec hinit) s₀ ⟨rfl, f₀, hfiles, .refl⟩
  cases q with
  | ret r => exact hstart.at_ret hreach
  | call op next => exact hstart.at_call hreach

namespace Sample

/-- The second of the three files is written half and then the disk is full. -/
def cutShort : List (AgentChoice ⊕ Empty) :=
  List.replicate 20 (.inl {}) ++
    [.inl { fails := true, applied := true, lines := ["work_"], text := "No space left on device" }]

theorem cutShort_tears_nothing : ∃ f,
    pgFiles (agentExec.follow cutShort (run tunedCrates Renderer.pgpod).run laterStart).2 =
      some f ∧ Untorn Renderer.pgpod tunedSpec initialised f :=
  start_tears_nothing tunedCrates Renderer.pgpod rfl rfl rfl
    (agentExec.follow_reach cutShort (run tunedCrates Renderer.pgpod).run laterStart)

end Sample

end Agent

end Pgpod
