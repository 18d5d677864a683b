import Mathlib.Data.List.TakeWhile
import Pgpod.Pg.Conf

/-!
# The managed settings, and what `conf.d` comes to

`conf.d/00-pgpod.conf` holds what pgpod manages and `conf.d/10-user.conf` what the
manifest asks for.  PostgreSQL reads the files of the directory in the order of
their names and the last setting of a parameter stands, so a user's parameter
wins wherever both files set it: the reserved ones are those that must not.
-/

namespace Pgpod

open ConfFile

/-! ## Rendering -/

inductive ArchiveMode
  | off
  | on (command : String)
deriving DecidableEq

/-- Settings of an instance that replays an archive. -/
structure RecoveryConf where
  restoreCommand : String
  targetTime : Option String
deriving DecidableEq

/-- Settings of an instance that follows another. -/
structure StandbyConf where
  primaryConninfo : String
  primarySlotName : String
  restoreCommand : Option String
deriving DecidableEq

structure ManagedConf where
  port : UInt16
  archive : ArchiveMode := .off
  sharedPreloadLibraries : List String := []
  standby : Option StandbyConf := none
  recovery : Option RecoveryConf := none
deriving DecidableEq

/-- `restore_command`, as PostgreSQL runs it. -/
def restoreCommand (stanza : String) : String :=
  Container.PGBACKREST_BIN ++ " --config=" ++ Container.PGBACKREST_CONF ++
    " --stanza=" ++ stanza ++ " archive-get %f \"%p\""

namespace ManagedConf

def primary (port : UInt16) : ManagedConf := { port }

def withArchive (c : ManagedConf) (archive : ArchiveMode) : ManagedConf := { c with archive }

def withRecovery (c : ManagedConf) (recovery : Option RecoveryConf) : ManagedConf :=
  { c with recovery }

def withSharedPreloadLibraries (c : ManagedConf) (libs : List String) : ManagedConf :=
  { c with sharedPreloadLibraries := libs }

def header : String :=
  "# Managed by pgpod. Rewritten on every instance start." ++ "\n" ++
    ("# Edits here are lost; put overrides in spec.postgresql.parameters." ++ "\n" ++ ("" ++ "\n"))

def connectivity (c : ManagedConf) : String :=
  "# --- connectivity ---" ++ "\n" ++ push "listen_addresses" (quote "*") ++
    push "port" (toString c.port.toNat) ++
    push "unix_socket_directories" (quote Container.SOCKET_DIR)

/-- What `pg_rewind` needs cannot be enabled after the fact: never conditional. -/
def writeAheadLog : String :=
  "" ++ "\n" ++ ("# --- write-ahead log ---" ++ "\n") ++ push "wal_level" (quote "replica") ++
    push "wal_log_hints" "on" ++ push "max_wal_senders" "10" ++ push "max_replication_slots" "10"

def archiving : ArchiveMode → String
  | .off => "" ++ "\n" ++ ("# --- archiving ---" ++ "\n") ++
      ("# No backup destination configured. archive_mode stays off rather" ++ "\n") ++
      ("# than archiving to nowhere — turning it on needs a restart." ++ "\n") ++
      push "archive_mode" "off"
  | .on command => "" ++ "\n" ++ ("# --- archiving ---" ++ "\n") ++ push "archive_mode" "on" ++
      push "archive_command" (quote command) ++ push "archive_timeout" (quote "5min")

def replication : String :=
  "" ++ "\n" ++ ("# --- replication ---" ++ "\n") ++ push "hot_standby" "on" ++
    push "hot_standby_feedback" "on"

def supervision : String :=
  "" ++ "\n" ++ ("# --- supervision ---" ++ "\n") ++ push "restart_after_crash" "off" ++
    push "logging_collector" "off" ++ push "log_destination" (quote "stderr")

def extensions (libs : List String) : String :=
  if libs.isEmpty then ""
  else "" ++ "\n" ++ ("# --- extensions ---" ++ "\n") ++
    push "shared_preload_libraries" (quote (",".intercalate libs))

/-- Without an action at the target PostgreSQL would pause there; the newest timeline may hold
history that nobody asked for. -/
def recoveryTarget : Option String → String
  | some t => push "recovery_target_time" (quote t) ++
      push "recovery_target_action" (quote "promote") ++
      push "recovery_target_timeline" (quote "current")
  | none => "# No recovery target: replay everything the archive has, then" ++ "\n" ++
      ("# promote. This is what \x60pgpod fork\x60 asks for." ++ "\n") ++
      push "recovery_target_timeline" (quote "current")

def recoverySection : Option RecoveryConf → String
  | none => ""
  | some r => "" ++ "\n" ++ ("# --- recovery ---" ++ "\n") ++
      push "restore_command" (quote r.restoreCommand) ++ recoveryTarget r.targetTime

def fallback : Option String → String
  | none => ""
  | some rc => push "restore_command" (quote rc)

def standbySection : Option StandbyConf → String
  | none => ""
  | some s => "" ++ "\n" ++ ("# --- standby ---" ++ "\n") ++
      push "primary_conninfo" (quote s.primaryConninfo) ++
      push "primary_slot_name" (quote s.primarySlotName) ++ fallback s.restoreCommand

/-- `conf.d/00-pgpod.conf`. -/
def render (c : ManagedConf) : String :=
  header ++ c.connectivity ++ writeAheadLog ++ archiving c.archive ++ replication ++ supervision ++
    extensions c.sharedPreloadLibraries ++ recoverySection c.recovery ++ standbySection c.standby

end ManagedConf

/-! ## Whole lines that hold known settings -/

namespace ConfFile

/-- The text is a run of whole lines, and these are the settings in it. -/
structure Reads (text : String) (found : List (String × String)) : Prop where
  ended : Text.Ended text
  reads : ∀ rest, readConf (text ++ rest) = (readConf rest).map (found ++ ·)

namespace Reads

theorem empty : Reads "" [] := by
  refine ⟨.inl rfl, fun rest => ?_⟩
  simp

theorem append {text more : String} {found others : List (String × String)} (h : Reads text found)
    (h' : Reads more others) : Reads (text ++ more) (found ++ others) := by
  refine ⟨h.ended.append h'.ended, fun rest => ?_⟩
  rw [String.append_assoc, h.reads, h'.reads, Option.map_map]
  exact congrArg (Option.map · (readConf rest)) (funext fun s => (List.append_assoc _ _ _).symm)

theorem readConf {text : String} {found : List (String × String)} (h : Reads text found) :
    ConfFile.readConf text = some found := by
  have hnothing : ConfFile.readConf "" = some [] := by
    simp [ConfFile.readConf, readLines, readLine, skipBlanks]
  have htext := h.reads ""
  rw [String.append_empty, hnothing, Option.map_some, List.append_nil] at htext
  exact htext

theorem line {line : String} {found : List (String × String)} (hone : '\n' ∉ line.toList)
    (h : readLine line.toList = some found) : Reads (line ++ "\n") found := by
  refine ⟨.inr ⟨line, rfl⟩, fun rest => ?_⟩
  have hchars : (line ++ "\n" ++ rest).toList = line.toList ++ '\n' :: rest.toList := by simp
  unfold ConfFile.readConf
  rw [hchars, List.splitOn_append_cons_self, List.splitOn_eq_singleton hone, readLines_append]
  simp only [readLines, h, List.append_nil]
  cases readLines (rest.toList.splitOn '\n') <;> rfl

theorem blank : Reads ("" ++ "\n") [] :=
  line (by simp) (by simp [readLine, skipBlanks])

theorem comment {text : String} (hhash : text.toList.head? = some '#')
    (hone : '\n' ∉ text.toList) : Reads (text ++ "\n") [] := by
  refine line hone ?_
  obtain ⟨cs, hcs⟩ := List.head?_eq_some_iff.1 hhash
  simp [hcs, readLine, skipBlanks, isBlank]

/-- The blank line and the title that begin a section. -/
theorem title {text : String} (hhash : text.toList.head? = some '#')
    (hone : '\n' ∉ text.toList) : Reads ("" ++ "\n" ++ (text ++ "\n")) [] :=
  blank.append (comment hhash hone)

theorem push_quote {key value : String} (hkey : isValidParameterName key = true)
    (hvalue : plainValue value = true) : Reads (push key (quote value)) [(key, value)] := by
  have hone : '\n' ∉ doubled value.toList ++ ['\''] := by
    simp [mem_doubled, (plainValue_iff.1 hvalue).2]
  have hchars : (key ++ " = " ++ quote value).toList =
      assignment key (doubled value.toList ++ ['\'']) := by
    simp [quote, assignment]
  refine line ?_ ?_
  · rw [hchars]
    exact newline_notMem_assignment hkey hone
  · rw [hchars]
    exact readLine_plain hkey hvalue

/-- A word stands for itself. -/
def isWord (value : String) : Bool := !value.isEmpty && value.toList.all unquotedChar

theorem readLine_word {key word : String} (hkey : isValidParameterName key = true)
    (hword : isWord word = true) :
    readLine (key.toList ++ ' ' :: '=' :: ' ' :: word.toList) = some [(key, word)] := by
  obtain ⟨c, ns, hchars, halpha, hall⟩ := isValidParameterName_cons hkey
  simp only [isWord, Bool.and_eq_true, Bool.not_eq_true', List.all_eq_true] at hword
  obtain ⟨hne, hunquoted⟩ := hword
  have hblank : isBlank c = false := by
    by_contra h
    simp only [isBlank, Bool.not_eq_false, Bool.or_eq_true, beq_iff_eq] at h
    rcases h with (rfl | rfl) | rfl <;> exact absurd halpha (by decide)
  have hcomment : c ≠ '#' := by
    rintro rfl
    exact absurd halpha (by decide)
  have hskip : skipBlanks (key.toList ++ ' ' :: '=' :: ' ' :: word.toList) =
      c :: (ns ++ ' ' :: '=' :: ' ' :: word.toList) := by
    rw [hchars, List.cons_append]
    simp [skipBlanks, hblank]
  have hname : ∀ d ∈ c :: ns, nameChar d = true := fun d hd => nameChar_of_parameter (hall d hd)
  have htake : (c :: (ns ++ ' ' :: '=' :: ' ' :: word.toList)).takeWhile nameChar = key.toList := by
    rw [← List.cons_append, List.takeWhile_append_of_pos hname, hchars]
    simp [nameChar, nameStart, show (' ' : Char).isAlpha = false from rfl,
      show (' ' : Char).isDigit = false from rfl]
  have hdrop : (c :: (ns ++ ' ' :: '=' :: ' ' :: word.toList)).dropWhile nameChar =
      ' ' :: '=' :: ' ' :: word.toList := by
    rw [← List.cons_append, List.dropWhile_append_of_pos hname]
    rfl
  obtain ⟨d, ds, hds⟩ : ∃ d ds, word.toList = d :: ds := by
    refine List.exists_cons_of_ne_nil fun hnil => ?_
    rw [String.toList_eq_nil_iff] at hnil
    rw [hnil] at hne
    cases hne
  have hd : unquotedChar d = true := hunquoted d (by rw [hds]; exact List.mem_cons_self)
  have hstart : isBlank d = false ∧ d ≠ '\'' := by
    constructor
    · by_contra h
      simp only [isBlank, Bool.not_eq_false, Bool.or_eq_true, beq_iff_eq] at h
      rcases h with (rfl | rfl) | rfl <;> exact absurd hd (by decide)
    · rintro rfl
      exact absurd hd (by decide)
  have hvalue : readValue (skipEquals (skipBlanks (' ' :: '=' :: ' ' :: word.toList))) =
      some (word.toList, []) := by
    have hfront : skipEquals (skipBlanks (' ' :: '=' :: ' ' :: word.toList)) = word.toList := by
      change skipBlanks (' ' :: word.toList) = _
      rw [hds]
      simp [skipBlanks, hstart.1, show isBlank ' ' = true from rfl]
    have htaken : word.toList.takeWhile unquotedChar = word.toList :=
      List.takeWhile_eq_self_iff.2 hunquoted
    have hrest : word.toList.dropWhile unquotedChar = [] :=
      List.dropWhile_eq_nil_iff.2 hunquoted
    have hread : readValue word.toList =
        if (word.toList.takeWhile unquotedChar).isEmpty then none
        else some (word.toList.takeWhile unquotedChar, word.toList.dropWhile unquotedChar) := by
      rw [hds]
      unfold readValue
      split
      · next heq => exact absurd (List.cons.inj heq).1 hstart.2
      · rfl
    rw [hfront, hread, htaken, hrest, hds]
    rfl
  rw [readLine, hskip]
  simp only [if_neg hcomment, nameStart_of_isAlpha halpha, if_true]
  rw [readSetting, htake, hdrop, hvalue]
  simp [lineEnds, skipBlanks]

theorem push_word {key word : String} (hkey : isValidParameterName key = true)
    (hword : isWord word = true) : Reads (push key word) [(key, word)] := by
  have hname : '\n' ∉ key.toList := by
    obtain ⟨c, ns, hchars, -, hall⟩ := isValidParameterName_cons hkey
    rw [hchars]
    intro h
    exact absurd (hall _ h) (by decide)
  have hvalue : '\n' ∉ word.toList := by
    simp only [isWord, Bool.and_eq_true, List.all_eq_true] at hword
    intro h
    exact absurd (hword.2 _ h) (by decide)
  have hchars : (key ++ " = " ++ word).toList = key.toList ++ ' ' :: '=' :: ' ' :: word.toList := by
    simp
  refine line ?_ ?_
  · rw [hchars]
    simp [hname, hvalue]
  · rw [hchars]
    exact readLine_word hkey hword

end Reads

end ConfFile

/-! ## What the managed file holds -/

namespace ManagedConf

def archiveSettings : ArchiveMode → List (String × String)
  | .off => [("archive_mode", "off")]
  | .on command => [("archive_mode", "on"), ("archive_command", command),
      ("archive_timeout", "5min")]

def extensionSettings (libs : List String) : List (String × String) :=
  if libs.isEmpty then [] else [("shared_preload_libraries", ",".intercalate libs)]

def targetSettings : Option String → List (String × String)
  | some t => [("recovery_target_time", t), ("recovery_target_action", "promote"),
      ("recovery_target_timeline", "current")]
  | none => [("recovery_target_timeline", "current")]

def recoverySettings : Option RecoveryConf → List (String × String)
  | none => []
  | some r => ("restore_command", r.restoreCommand) :: targetSettings r.targetTime

def standbySettings : Option StandbyConf → List (String × String)
  | none => []
  | some s => ("primary_conninfo", s.primaryConninfo) ::
      ("primary_slot_name", s.primarySlotName) ::
      (s.restoreCommand.map fun rc => ("restore_command", rc)).toList

/-- What every managed file sets, whatever the instance. -/
def fixedSettings : List (String × String) :=
  [("unix_socket_directories", Container.SOCKET_DIR), ("wal_level", "replica"),
   ("wal_log_hints", "on"), ("max_wal_senders", "10"), ("max_replication_slots", "10")]

def settings (c : ManagedConf) : List (String × String) :=
  [("listen_addresses", "*"), ("port", toString c.port.toNat)] ++ fixedSettings ++
    archiveSettings c.archive ++
    [("hot_standby", "on"), ("hot_standby_feedback", "on"), ("restart_after_crash", "off"),
     ("logging_collector", "off"), ("log_destination", "stderr")] ++
    extensionSettings c.sharedPreloadLibraries ++ recoverySettings c.recovery ++
    standbySettings c.standby

/-- No value that the file quotes holds a backslash or a line break. -/
def plain (c : ManagedConf) : Bool := c.settings.all fun s => plainValue s.2

theorem plain_of_mem {c : ManagedConf} (hc : c.plain = true) {s : String × String}
    (hs : s ∈ c.settings) : plainValue s.2 = true :=
  List.all_eq_true.1 hc s hs

theorem isWord_toString (n : Nat) : Reads.isWord (toString n) = true := by
  have hchars : (toString n).toList = Nat.toDigits 10 n := by
    rw [Nat.toString_eq_ofList_toDigits, String.toList_ofList]
  simp only [Reads.isWord, Bool.and_eq_true, Bool.not_eq_true', hchars, List.all_eq_true]
  refine ⟨by simp, fun c hc => ?_⟩
  have hdigit := Nat.isDigit_of_mem_toDigits (by omega) (by omega) hc
  simp [unquotedChar, nameChar, hdigit]

/-! ### Section by section -/

/-- Every parameter that the file may set. -/
def names : List String :=
  ["listen_addresses", "port", "unix_socket_directories", "wal_level", "wal_log_hints",
   "max_wal_senders", "max_replication_slots", "archive_mode", "archive_command",
   "archive_timeout", "hot_standby", "hot_standby_feedback", "restart_after_crash",
   "logging_collector", "log_destination", "shared_preload_libraries", "restore_command",
   "recovery_target_time", "recovery_target_action", "recovery_target_timeline",
   "primary_conninfo", "primary_slot_name"]

theorem isValidParameterName_names : ∀ key ∈ names, isValidParameterName key = true := by
  decide +kernel

/-- The values that the file writes without quotes, but for the port. -/
theorem isWord_words : ∀ word ∈ ["on", "off", "10"], Reads.isWord word = true := by
  decide +kernel

theorem reads_quote {key value : String} (hkey : key ∈ names) (hvalue : plainValue value = true) :
    Reads (push key (quote value)) [(key, value)] :=
  .push_quote (isValidParameterName_names key hkey) hvalue

theorem reads_word {key word : String} (hkey : key ∈ names) (hword : word ∈ ["on", "off", "10"]) :
    Reads (push key word) [(key, word)] :=
  .push_word (isValidParameterName_names key hkey) (isWord_words word hword)

theorem reads_header : Reads header [] := by
  have hmanaged : Reads ("# Managed by pgpod. Rewritten on every instance start." ++ "\n") [] :=
    .comment (by simp) (by simp)
  have hedits : Reads
      ("# Edits here are lost; put overrides in spec.postgresql.parameters." ++ "\n") [] :=
    .comment (by simp) (by simp)
  exact hmanaged.append (hedits.append .blank)

theorem reads_connectivity (c : ManagedConf) : Reads c.connectivity
    [("listen_addresses", "*"), ("port", toString c.port.toNat),
     ("unix_socket_directories", Container.SOCKET_DIR)] := by
  have htitle : Reads ("# --- connectivity ---" ++ "\n") [] := .comment (by simp) (by simp)
  have hlisten : Reads (push "listen_addresses" (quote "*")) [("listen_addresses", "*")] :=
    reads_quote (by simp [names]) (by simp [plainValue])
  have hport : Reads (push "port" (toString c.port.toNat)) [("port", toString c.port.toNat)] :=
    .push_word (isValidParameterName_names _ (by simp [names])) (isWord_toString _)
  have hsocket : Reads (push "unix_socket_directories" (quote Container.SOCKET_DIR))
      [("unix_socket_directories", Container.SOCKET_DIR)] :=
    reads_quote (by simp [names]) (by simp [plainValue, Container.SOCKET_DIR])
  exact ((htitle.append hlisten).append hport).append hsocket

theorem reads_writeAheadLog : Reads writeAheadLog
    [("wal_level", "replica"), ("wal_log_hints", "on"), ("max_wal_senders", "10"),
     ("max_replication_slots", "10")] := by
  have htitle : Reads ("" ++ "\n" ++ ("# --- write-ahead log ---" ++ "\n")) [] :=
    .title (by simp) (by simp)
  have hlevel : Reads (push "wal_level" (quote "replica")) [("wal_level", "replica")] :=
    reads_quote (by simp [names]) (by simp [plainValue])
  have hhints : Reads (push "wal_log_hints" "on") [("wal_log_hints", "on")] :=
    reads_word (by simp [names]) (by simp)
  have hsenders : Reads (push "max_wal_senders" "10") [("max_wal_senders", "10")] :=
    reads_word (by simp [names]) (by simp)
  have hslots : Reads (push "max_replication_slots" "10") [("max_replication_slots", "10")] :=
    reads_word (by simp [names]) (by simp)
  exact (((htitle.append hlevel).append hhints).append hsenders).append hslots

theorem reads_archiving {archive : ArchiveMode}
    (h : ∀ s ∈ archiveSettings archive, plainValue s.2 = true) :
    Reads (archiving archive) (archiveSettings archive) := by
  have htitle : Reads ("" ++ "\n" ++ ("# --- archiving ---" ++ "\n")) [] :=
    .title (by simp) (by simp)
  cases archive with
  | off =>
    have hnone : Reads
        ("# No backup destination configured. archive_mode stays off rather" ++ "\n") [] :=
      .comment (by simp) (by simp)
    have hrestart : Reads
        ("# than archiving to nowhere — turning it on needs a restart." ++ "\n") [] :=
      .comment (by simp) (by simp)
    have hmode : Reads (push "archive_mode" "off") [("archive_mode", "off")] :=
      reads_word (by simp [names]) (by simp)
    exact ((htitle.append hnone).append hrestart).append hmode
  | on command =>
    have hmode : Reads (push "archive_mode" "on") [("archive_mode", "on")] :=
      reads_word (by simp [names]) (by simp)
    have hcommand : Reads (push "archive_command" (quote command)) [("archive_command", command)] :=
      reads_quote (by simp [names]) (h ("archive_command", command) (by simp [archiveSettings]))
    have htimeout : Reads (push "archive_timeout" (quote "5min")) [("archive_timeout", "5min")] :=
      reads_quote (by simp [names]) (by simp [plainValue])
    exact ((htitle.append hmode).append hcommand).append htimeout

theorem reads_replication : Reads replication
    [("hot_standby", "on"), ("hot_standby_feedback", "on")] := by
  have htitle : Reads ("" ++ "\n" ++ ("# --- replication ---" ++ "\n")) [] :=
    .title (by simp) (by simp)
  have hstandby : Reads (push "hot_standby" "on") [("hot_standby", "on")] :=
    reads_word (by simp [names]) (by simp)
  have hfeedback : Reads (push "hot_standby_feedback" "on") [("hot_standby_feedback", "on")] :=
    reads_word (by simp [names]) (by simp)
  exact (htitle.append hstandby).append hfeedback

theorem reads_supervision : Reads supervision [("restart_after_crash", "off"),
    ("logging_collector", "off"), ("log_destination", "stderr")] := by
  have htitle : Reads ("" ++ "\n" ++ ("# --- supervision ---" ++ "\n")) [] :=
    .title (by simp) (by simp)
  have hrestart : Reads (push "restart_after_crash" "off") [("restart_after_crash", "off")] :=
    reads_word (by simp [names]) (by simp)
  have hcollector : Reads (push "logging_collector" "off") [("logging_collector", "off")] :=
    reads_word (by simp [names]) (by simp)
  have hdestination : Reads (push "log_destination" (quote "stderr"))
      [("log_destination", "stderr")] :=
    reads_quote (by simp [names]) (by simp [plainValue])
  exact ((htitle.append hrestart).append hcollector).append hdestination

theorem reads_extensions {libs : List String}
    (h : ∀ s ∈ extensionSettings libs, plainValue s.2 = true) :
    Reads (extensions libs) (extensionSettings libs) := by
  unfold extensions
  unfold extensionSettings at h ⊢
  split
  · exact .empty
  · next hlibs =>
    rw [if_neg hlibs] at h
    have htitle : Reads ("" ++ "\n" ++ ("# --- extensions ---" ++ "\n")) [] :=
      .title (by simp) (by simp)
    exact htitle.append (reads_quote (by simp [names]) (h _ List.mem_cons_self))

theorem reads_recoveryTarget {target : Option String}
    (h : ∀ s ∈ targetSettings target, plainValue s.2 = true) :
    Reads (recoveryTarget target) (targetSettings target) := by
  have htimeline : Reads (push "recovery_target_timeline" (quote "current"))
      [("recovery_target_timeline", "current")] :=
    reads_quote (by simp [names]) (by simp [plainValue])
  cases target with
  | none =>
    have hreplay : Reads
        ("# No recovery target: replay everything the archive has, then" ++ "\n") [] :=
      .comment (by simp) (by simp)
    have hpromote : Reads
        ("# promote. This is what \x60pgpod fork\x60 asks for." ++ "\n") [] :=
      .comment (by simp) (by simp)
    exact hreplay.append (hpromote.append htimeline)
  | some t =>
    have htime : Reads (push "recovery_target_time" (quote t)) [("recovery_target_time", t)] :=
      reads_quote (by simp [names]) (h ("recovery_target_time", t) List.mem_cons_self)
    have haction : Reads (push "recovery_target_action" (quote "promote"))
        [("recovery_target_action", "promote")] :=
      reads_quote (by simp [names]) (by simp [plainValue])
    exact (htime.append haction).append htimeline

theorem reads_recoverySection {recovery : Option RecoveryConf}
    (h : ∀ s ∈ recoverySettings recovery, plainValue s.2 = true) :
    Reads (recoverySection recovery) (recoverySettings recovery) := by
  obtain _ | r := recovery
  · exact .empty
  have htitle : Reads ("" ++ "\n" ++ ("# --- recovery ---" ++ "\n")) [] :=
    .title (by simp) (by simp)
  have hcommand : Reads (push "restore_command" (quote r.restoreCommand))
      [("restore_command", r.restoreCommand)] :=
    reads_quote (by simp [names]) (h _ List.mem_cons_self)
  exact (htitle.append hcommand).append (reads_recoveryTarget fun s hs => h s (.tail _ hs))

theorem reads_standbySection {standby : Option StandbyConf}
    (h : ∀ s ∈ standbySettings standby, plainValue s.2 = true) :
    Reads (standbySection standby) (standbySettings standby) := by
  obtain _ | s := standby
  · exact .empty
  have htitle : Reads ("" ++ "\n" ++ ("# --- standby ---" ++ "\n")) [] :=
    .title (by simp) (by simp)
  have hconninfo : Reads (push "primary_conninfo" (quote s.primaryConninfo))
      [("primary_conninfo", s.primaryConninfo)] :=
    reads_quote (by simp [names]) (h _ List.mem_cons_self)
  have hslot : Reads (push "primary_slot_name" (quote s.primarySlotName))
      [("primary_slot_name", s.primarySlotName)] :=
    reads_quote (by simp [names]) (h _ (.tail _ List.mem_cons_self))
  refine ((htitle.append hconninfo).append hslot).append ?_
  cases hrestore : s.restoreCommand with
  | none => exact .empty
  | some rc =>
    exact reads_quote (by simp [names])
      (h ("restore_command", rc) (by simp [standbySettings, hrestore]))

/-- The managed file reads back as its settings. -/
theorem reads_render {c : ManagedConf} (hc : c.plain = true) : Reads c.render c.settings := by
  have hmem : ∀ part : List (String × String), part ⊆ c.settings →
      ∀ s ∈ part, plainValue s.2 = true := fun part hpart s hs => plain_of_mem hc (hpart hs)
  have harchive : Reads (archiving c.archive) (archiveSettings c.archive) := reads_archiving
    (hmem _ fun s hs => by simp only [settings, List.mem_append]; tauto)
  have hextensions : Reads (extensions c.sharedPreloadLibraries)
      (extensionSettings c.sharedPreloadLibraries) := reads_extensions
    (hmem _ fun s hs => by simp only [settings, List.mem_append]; tauto)
  have hrecovery : Reads (recoverySection c.recovery) (recoverySettings c.recovery) :=
    reads_recoverySection (hmem _ fun s hs => by simp only [settings, List.mem_append]; tauto)
  have hstandby : Reads (standbySection c.standby) (standbySettings c.standby) :=
    reads_standbySection (hmem _ fun s hs => by simp only [settings, List.mem_append]; tauto)
  have hall := (((((((reads_header.append (reads_connectivity c)).append reads_writeAheadLog
    ).append harchive).append reads_replication).append reads_supervision).append
      hextensions).append hrecovery).append hstandby
  refine Eq.subst (motive := Reads c.render) ?_ hall
  simp [settings, fixedSettings]

end ManagedConf

end Pgpod
