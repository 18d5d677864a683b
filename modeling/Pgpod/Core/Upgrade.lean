import Pgpod.Core.Spec
import Mathlib.Algebra.Group.Nat.Defs

/-!
# Major-version upgrades: specs, reports and versions

The documents the control plane and the agent's upgrade jobs exchange.  A report
is the one line of a job's output that starts with `REPORT_MARKER`.
-/

namespace Pgpod

def UPGRADE_SPEC_ENV : String := "PGPOD_UPGRADE_SPEC"
def REPORT_MARKER : String := "pgpod-report:"

/-- How `pg_upgrade` moves the data. -/
inductive UpgradeMethod
  | link
  | copy
deriving DecidableEq, Repr

namespace UpgradeMethod

def asStr : UpgradeMethod → String
  | link => "link"
  | copy => "copy"

end UpgradeMethod

structure UpgradeSpec where
  fromVersion : String
  toVersion : String
  stagedBindir : String
  stagedLibDirs : List String
  method : UpgradeMethod
  jobs : UInt32
  preloadLibraries : List String
  check : Bool
  initdb : InitdbBootstrap
deriving DecidableEq

namespace UpgradeSpec

/-- `LD_LIBRARY_PATH` for the staged old binaries. -/
def libraryPath (s : UpgradeSpec) : String := ":".intercalate s.stagedLibDirs

end UpgradeSpec

structure StageReport where
  version : String
  bindir : String
  sharedir : String
  pkglibdir : String
  libDirs : List String
  files : Nat
  bytes : Nat
deriving DecidableEq

/-- What the image carries, and what the volume holds. -/
structure ProbeReport where
  version : String
  bindir : String
  dataVersion : Option String
deriving DecidableEq

structure UpgradeRunReport where
  fromVersion : String
  toVersion : String
  method : UpgradeMethod
  oldDataDir : String
  seconds : Nat
deriving DecidableEq

/-- The documents a job prints behind the marker. -/
inductive Report
  | stage (r : StageReport)
  | probe (r : ProbeReport)
  | upgradeRun (r : UpgradeRunReport)
deriving DecidableEq

/-! ## Versions -/

def isVersionSeparator (c : Char) : Bool :=
  c == '.' || c == ' ' || c == '-' || c == '+' || c == '('

/-- The pieces of a version string between its separators. -/
def versionParts : List Char → List (List Char)
  | [] => [[]]
  | c :: cs =>
    match versionParts cs with
    | [] => [[]]
    | part :: rest =>
      if isVersionSeparator c then [] :: part :: rest else (c :: part) :: rest

def digitsToNat (cs : List Char) : Nat :=
  cs.foldl (fun n c => 10 * n + (c.toNat - '0'.toNat)) 0

/-- A decimal `u32`: digits only (a leading `+` is accepted), and no overflow. -/
def parseU32 (cs : List Char) : Option Nat :=
  let digits := match cs with
    | '+' :: rest => rest
    | _ => cs
  if digits.isEmpty || !digits.all Char.isDigit then none
  else if digitsToNat digits < 2 ^ 32 then some (digitsToNat digits) else none

/-- The major version named by a `PG_VERSION` file or by `pg_config --version`. -/
def majorLabel (raw : String) : Option String := do
  let digits := (Text.trimChars raw.toList).dropWhile fun c => !c.isDigit
  let parts := versionParts digits
  let major ← parseU32 (← parts.head?)
  if major < 9 then none
  else if major = 9 then do
    let minor ← parseU32 (← parts.tail.head?)
    some ("9." ++ toString minor)
  else some (toString major)

/-- An orderable key for a major version: `major * 100 + minor`, as a `u32`. -/
def versionKey (raw : String) : Option Nat := do
  let label ← majorLabel raw
  let parts := label.toList.splitOn '.'
  let major ← parseU32 (← parts.head?)
  let minor := (parts.tail.head?.bind parseU32).getD 0
  some ((major * 100 + minor) % 2 ^ 32)

example : majorLabel "PostgreSQL 18.1 (Debian 18.1-1)" = some "18" := by decide +kernel

end Pgpod
