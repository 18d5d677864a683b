import Pgpod.Core.Getopt
import Pgpod.Core.Spec

/-!
# Invoking `initdb`

The managed options come first and the options of the manifest after them, and `initdb`
reads the whole line: an option that occurs twice has the value it was given last.
-/

namespace Pgpod

namespace Initdb

def PWFILE_PATH : String := "/pgdata/conf/.initdb-pw"

structure InitdbOptions where
  superuser : String := "postgres"
  encoding : String := "UTF8"
  locale : String := "C"
  /-- `spec.bootstrap.initdb.options`. -/
  extra : List String := []
deriving DecidableEq

inductive DataChecksums
  | on
  | off
deriving DecidableEq, Repr

namespace InitdbOptions

/-- A blank setting is replaced by its default. -/
def orDefault (value default : String) : String :=
  if (Text.trim value).isEmpty then default else Text.trim value

/-- `initdb` into a directory, with the `initdb` of `targetMajor`. -/
def argvFor (o : InitdbOptions) (pgdata : String) (pwfile : Option String)
    (checksums : DataChecksums) (targetMajor : Nat) : List String :=
  ["initdb", "--pgdata", pgdata, "--username=" ++ o.superuser,
    "--encoding=" ++ orDefault o.encoding "UTF8", "--locale=" ++ orDefault o.locale "C",
    "--auth-local=peer", "--auth-host=scram-sha-256"] ++
  (match checksums with
    | .on => ["--data-checksums"]
    | .off => if 18 ≤ targetMajor then ["--no-data-checksums"] else []) ++
  (pwfile.map fun path => "--pwfile=" ++ path).toList ++
  o.extra

/-- `initdb` of an instance's own data directory. -/
def argv (o : InitdbOptions) : List String :=
  o.argvFor Container.PGDATA (some PWFILE_PATH) .on 0

end InitdbOptions

/-! ## The options of `initdb` -/

inductive Opt
  | pgdata
  | username
  | pwprompt
  | pwfile
  | auth
  | authLocal
  | authHost
  | dataChecksums
  | noDataChecksums
  | other (name : String)
deriving DecidableEq, Repr

structure LongOption where
  name : String
  hasValue : Bool
  key : Opt
  /-- The first major version that has it. -/
  since : Nat := 0

def longOptions : List LongOption :=
  [⟨"pgdata", true, .pgdata, 0⟩,
    ⟨"encoding", true, .other "encoding", 0⟩,
    ⟨"locale", true, .other "locale", 0⟩,
    ⟨"lc-collate", true, .other "lc-collate", 0⟩,
    ⟨"lc-ctype", true, .other "lc-ctype", 0⟩,
    ⟨"lc-monetary", true, .other "lc-monetary", 0⟩,
    ⟨"lc-numeric", true, .other "lc-numeric", 0⟩,
    ⟨"lc-time", true, .other "lc-time", 0⟩,
    ⟨"lc-messages", true, .other "lc-messages", 0⟩,
    ⟨"no-locale", false, .other "no-locale", 0⟩,
    ⟨"text-search-config", true, .other "text-search-config", 0⟩,
    ⟨"auth", true, .auth, 0⟩,
    ⟨"auth-local", true, .authLocal, 0⟩,
    ⟨"auth-host", true, .authHost, 0⟩,
    ⟨"pwprompt", false, .pwprompt, 0⟩,
    ⟨"pwfile", true, .pwfile, 0⟩,
    ⟨"username", true, .username, 0⟩,
    ⟨"debug", false, .other "debug", 0⟩,
    ⟨"show", false, .other "show", 0⟩,
    ⟨"noclean", false, .other "no-clean", 0⟩,
    ⟨"no-clean", false, .other "no-clean", 0⟩,
    ⟨"nosync", false, .other "no-sync", 0⟩,
    ⟨"no-sync", false, .other "no-sync", 0⟩,
    ⟨"no-instructions", false, .other "no-instructions", 14⟩,
    ⟨"set", true, .other "set", 16⟩,
    ⟨"sync-only", false, .other "sync-only", 0⟩,
    ⟨"waldir", true, .other "waldir", 0⟩,
    ⟨"wal-segsize", true, .other "wal-segsize", 11⟩,
    ⟨"data-checksums", false, .dataChecksums, 0⟩,
    ⟨"allow-group-access", false, .other "allow-group-access", 11⟩,
    ⟨"discard-caches", false, .other "discard-caches", 14⟩,
    ⟨"locale-provider", true, .other "locale-provider", 15⟩,
    ⟨"builtin-locale", true, .other "builtin-locale", 17⟩,
    ⟨"icu-locale", true, .other "icu-locale", 15⟩,
    ⟨"icu-rules", true, .other "icu-rules", 16⟩,
    ⟨"sync-method", true, .other "sync-method", 17⟩,
    ⟨"no-data-checksums", false, .noDataChecksums, 18⟩,
    ⟨"no-sync-data-files", false, .other "no-sync-data-files", 18⟩]

structure ShortOption where
  letter : Char
  hasValue : Bool
  key : Opt
  since : Nat := 0

def shortOptions : List ShortOption :=
  [⟨'A', true, .auth, 0⟩, ⟨'c', true, .other "set", 16⟩, ⟨'d', false, .other "debug", 0⟩,
    ⟨'D', true, .pgdata, 0⟩, ⟨'E', true, .other "encoding", 0⟩,
    ⟨'g', false, .other "allow-group-access", 11⟩, ⟨'k', false, .dataChecksums, 0⟩,
    ⟨'L', true, .other "L", 0⟩, ⟨'n', false, .other "no-clean", 0⟩,
    ⟨'N', false, .other "no-sync", 0⟩, ⟨'s', false, .other "show", 0⟩,
    ⟨'S', false, .other "sync-only", 0⟩, ⟨'T', true, .other "text-search-config", 0⟩,
    ⟨'U', true, .username, 0⟩, ⟨'W', false, .pwprompt, 0⟩, ⟨'X', true, .other "waldir", 0⟩]

/-- What the `initdb` of a major version knows.  `--help` and `--version` are for a line of
their own and end any other. -/
def table (major : Nat) : Getopt.Table Opt where
  long := (longOptions.filter fun o => o.since ≤ major).map fun o => (o.name, o.hasValue, o.key)
  short := (shortOptions.filter fun o => o.since ≤ major).map fun o => (o.letter, o.hasValue, o.key)

abbrev Event := Getopt.Event Opt

/-- The settings that pgpod manages. -/
structure Settings where
  pgdata : Option String
  username : Option String
  pwprompt : Bool
  pwfile : Option String
  authLocal : Option String
  authHost : Option String
  checksums : Bool
deriving DecidableEq

namespace Settings

/-- Before any option is read; checksums are the default from version 18 on. -/
def start (major : Nat) : Settings where
  pgdata := none
  username := none
  pwprompt := false
  pwfile := none
  authLocal := none
  authHost := none
  checksums := decide (18 ≤ major)

/-- `--auth` sets both methods; `ident` and `peer` each have a counterpart. -/
def apply (s : Settings) : Event → Settings
  | .option .pgdata (some v) => { s with pgdata := some v }
  | .option .username (some v) => { s with username := some v }
  | .option .pwprompt _ => { s with pwprompt := true }
  | .option .pwfile (some v) => { s with pwfile := some v }
  | .option .auth (some v) =>
    { s with
      authLocal := some (if v = "ident" then "peer" else v)
      authHost := some (if v = "peer" then "ident" else v) }
  | .option .authLocal (some v) => { s with authLocal := some v }
  | .option .authHost (some v) => { s with authHost := some v }
  | .option .dataChecksums _ => { s with checksums := true }
  | .option .noDataChecksums _ => { s with checksums := false }
  | _ => s

end Settings

def operandOf : Event → Option String
  | .operand text => some text
  | .option .. => none

/-- The settings `initdb` works with after it has read its command line, if it does not
refuse it: an operand is the data directory unless there is one, and one too many is an
error; a password is prompted for or in a file. -/
def settings (major : Nat) (args : List String) : Option Settings :=
  if ["--help", "-?", "--version", "-V"].any fun a => args.head? = some a then none
  else
    match (table major).parse args with
    | none => none
    | some events =>
      let s := events.foldl Settings.apply (.start major)
      let operands := events.filterMap operandOf
      let (s, operands) :=
        match s.pgdata, operands with
        | none, first :: rest => ({ s with pgdata := some first }, rest)
        | _, _ => (s, operands)
      if operands ≠ [] then none
      else if s.pwprompt && s.pwfile.isSome then none
      else some s

/-! ## What an event says of each setting -/

def pgdataOf : Event → Option (Option String)
  | .option .pgdata (some v) => some (some v)
  | _ => none

def usernameOf : Event → Option (Option String)
  | .option .username (some v) => some (some v)
  | _ => none

def pwpromptOf : Event → Option Bool
  | .option .pwprompt _ => some true
  | _ => none

def pwfileOf : Event → Option (Option String)
  | .option .pwfile (some v) => some (some v)
  | _ => none

def authLocalOf : Event → Option (Option String)
  | .option .auth (some v) => some (some (if v = "ident" then "peer" else v))
  | .option .authLocal (some v) => some (some v)
  | _ => none

def authHostOf : Event → Option (Option String)
  | .option .auth (some v) => some (some (if v = "peer" then "ident" else v))
  | .option .authHost (some v) => some (some v)
  | _ => none

def checksumsOf : Event → Option Bool
  | .option .dataChecksums _ => some true
  | .option .noDataChecksums _ => some false
  | _ => none

namespace Settings

theorem apply_eq (s : Settings) (e : Event) :
    s.apply e = ⟨(pgdataOf e).getD s.pgdata, (usernameOf e).getD s.username,
      (pwpromptOf e).getD s.pwprompt, (pwfileOf e).getD s.pwfile, (authLocalOf e).getD s.authLocal,
      (authHostOf e).getD s.authHost, (checksumsOf e).getD s.checksums⟩ := by
  cases e with
  | operand text => rfl
  | option key value => cases key <;> cases value <;> rfl

/-- Each setting has the last value that was given for it. -/
theorem foldl_apply (events : List Event) (s : Settings) :
    events.foldl apply s =
      ⟨(Getopt.last pgdataOf events).getD s.pgdata, (Getopt.last usernameOf events).getD s.username,
        (Getopt.last pwpromptOf events).getD s.pwprompt, (Getopt.last pwfileOf events).getD s.pwfile,
        (Getopt.last authLocalOf events).getD s.authLocal,
        (Getopt.last authHostOf events).getD s.authHost,
        (Getopt.last checksumsOf events).getD s.checksums⟩ := by
  have hpgdata : (events.foldl apply s).pgdata = _ :=
    Getopt.foldl_last (fun s e => congrArg pgdata (apply_eq s e)) events s
  have husername : (events.foldl apply s).username = _ :=
    Getopt.foldl_last (fun s e => congrArg username (apply_eq s e)) events s
  have hpwprompt : (events.foldl apply s).pwprompt = _ :=
    Getopt.foldl_last (fun s e => congrArg pwprompt (apply_eq s e)) events s
  have hpwfile : (events.foldl apply s).pwfile = _ :=
    Getopt.foldl_last (fun s e => congrArg pwfile (apply_eq s e)) events s
  have hlocal : (events.foldl apply s).authLocal = _ :=
    Getopt.foldl_last (fun s e => congrArg authLocal (apply_eq s e)) events s
  have hhost : (events.foldl apply s).authHost = _ :=
    Getopt.foldl_last (fun s e => congrArg authHost (apply_eq s e)) events s
  have hchecksums : (events.foldl apply s).checksums = _ :=
    Getopt.foldl_last (fun s e => congrArg checksums (apply_eq s e)) events s
  rw [← hpgdata, ← husername, ← hpwprompt, ← hpwfile, ← hlocal, ← hhost, ← hchecksums]

end Settings

end Initdb

end Pgpod
