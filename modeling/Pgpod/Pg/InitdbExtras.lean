import Pgpod.Pg.Initdb

/-!
# What the manifest's options can change

The managed options are read first and the others after them, so a managed setting is
kept exactly when no other option names it, or the last that does gives it the managed
value, or `initdb` refuses the line.
-/

namespace Pgpod

namespace Initdb

open Getopt

/-! ## Reading the managed options -/

theorem resolve_name {major : Nat} {name : List Char} {o : LongOption}
    (hfind : (longOptions.find? fun o => o.name.toList = name) = some o) (hsince : o.since ≤ major) :
    (table major).resolve name = some (o.hasValue, o.key) := by
  obtain ⟨hname, front, back, hsplit, hfront⟩ := List.find?_eq_some_iff_append.mp hfind
  have hfirst : ((table major).long.find? fun o => o.1.toList = name) =
      some (o.name, o.hasValue, o.key) := by
    rw [table, List.find?_map, List.find?_filter, Option.map_eq_some_iff]
    refine ⟨o, List.find?_eq_some_iff_append.mpr ⟨?_, front, back, hsplit, fun p hp => ?_⟩, rfl⟩
    · simpa [hsince] using hname
    · have hne := hfront p hp
      simp only [Bool.not_eq_true', decide_eq_false_iff_not] at hne
      simp [hne]
  rw [Table.resolve, hfirst]

/-- An option of the table with its value in the same argument. -/
theorem read_value {major : Nat} {lead : String} {name : List Char} {o : LongOption}
    (hlead : lead.toList = '-' :: '-' :: (name ++ ['='])) (hfree : '=' ∉ name)
    (hfind : (longOptions.find? fun o => o.name.toList = name) = some o)
    (hsince : o.since ≤ major) (hvalue : o.hasValue = true) (value : String) :
    (table major).read (lead ++ value) = .options [.option o.key (some value)] := by
  have hresolve := resolve_name hfind hsince
  rw [hvalue] at hresolve
  refine Table.read_value ?_ hfree hresolve
  rw [String.toList_append, hlead]
  simp

theorem read_flag {major : Nat} {arg : String} {name : List Char} {o : LongOption}
    (harg : arg.toList = '-' :: '-' :: name) (hne : name ≠ []) (hfree : '=' ∉ name)
    (hfind : (longOptions.find? fun o => o.name.toList = name) = some o)
    (hsince : o.since ≤ major) (hvalue : o.hasValue = false) :
    (table major).read arg = .options [.option o.key none] := by
  have hresolve := resolve_name hfind hsince
  rw [hvalue] at hresolve
  exact Table.read_flag harg hne hfree hresolve

section Managed

variable (major : Nat)

theorem read_pgdata : (table major).read "--pgdata" = .awaits [] .pgdata := by
  have hfind : (longOptions.find? fun o => o.name.toList = "pgdata".toList) =
      some ⟨"pgdata", true, .pgdata, 0⟩ := rfl
  have hresolve := resolve_name hfind (Nat.zero_le major)
  exact Table.read_awaits (by decide) (by decide) (by decide) hresolve

theorem read_username (v : String) :
    (table major).read ("--username=" ++ v) = .options [.option .username (some v)] := by
  have hlead : "--username=".toList = '-' :: '-' :: ("username".toList ++ ['=']) := by simp
  exact read_value hlead (by decide) rfl (Nat.zero_le major) rfl v

theorem read_encoding (v : String) :
    (table major).read ("--encoding=" ++ v) = .options [.option (.other "encoding") (some v)] := by
  have hlead : "--encoding=".toList = '-' :: '-' :: ("encoding".toList ++ ['=']) := by simp
  exact read_value hlead (by decide) rfl (Nat.zero_le major) rfl v

theorem read_locale (v : String) :
    (table major).read ("--locale=" ++ v) = .options [.option (.other "locale") (some v)] := by
  have hlead : "--locale=".toList = '-' :: '-' :: ("locale".toList ++ ['=']) := by simp
  exact read_value hlead (by decide) rfl (Nat.zero_le major) rfl v

theorem read_authLocal :
    (table major).read "--auth-local=peer" = .options [.option .authLocal (some "peer")] := by
  have hlead : "--auth-local=".toList = '-' :: '-' :: ("auth-local".toList ++ ['=']) := by simp
  have harg : "--auth-local=peer" = "--auth-local=" ++ "peer" := by simp
  rw [harg]
  exact read_value hlead (by decide) rfl (Nat.zero_le major) rfl "peer"

theorem read_authHost :
    (table major).read "--auth-host=scram-sha-256" =
      .options [.option .authHost (some "scram-sha-256")] := by
  have hlead : "--auth-host=".toList = '-' :: '-' :: ("auth-host".toList ++ ['=']) := by simp
  have harg : "--auth-host=scram-sha-256" = "--auth-host=" ++ "scram-sha-256" := by simp
  rw [harg]
  exact read_value hlead (by decide) rfl (Nat.zero_le major) rfl "scram-sha-256"

theorem read_pwfile (v : String) :
    (table major).read ("--pwfile=" ++ v) = .options [.option .pwfile (some v)] := by
  have hlead : "--pwfile=".toList = '-' :: '-' :: ("pwfile".toList ++ ['=']) := by simp
  exact read_value hlead (by decide) rfl (Nat.zero_le major) rfl v

theorem read_dataChecksums :
    (table major).read "--data-checksums" = .options [.option .dataChecksums none] := by
  have harg : "--data-checksums".toList = '-' :: '-' :: "data-checksums".toList := by simp
  exact read_flag harg (by decide) (by decide) rfl (Nat.zero_le major) rfl

variable {major}

theorem read_noDataChecksums (h : 18 ≤ major) :
    (table major).read "--no-data-checksums" = .options [.option .noDataChecksums none] := by
  have harg : "--no-data-checksums".toList = '-' :: '-' :: "no-data-checksums".toList := by
    simp
  exact read_flag harg (by decide) (by decide) rfl h rfl

/-- What the managed options say. -/
def managedEvents (o : InitdbOptions) (pgdata : String) (pwfile : Option String)
    (checksums : DataChecksums) (major : Nat) : List Event :=
  [.option .pgdata (some pgdata), .option .username (some o.superuser),
    .option (.other "encoding") (some (InitdbOptions.orDefault o.encoding "UTF8")),
    .option (.other "locale") (some (InitdbOptions.orDefault o.locale "C")),
    .option .authLocal (some "peer"), .option .authHost (some "scram-sha-256")] ++
  (match checksums with
    | .on => [.option .dataChecksums none]
    | .off => if 18 ≤ major then [.option .noDataChecksums none] else []) ++
  (pwfile.map fun path => .option .pwfile (some path)).toList

theorem reads_checksums (checksums : DataChecksums) (major : Nat) :
    (table major).Reads
      (match checksums with
        | .on => ["--data-checksums"]
        | .off => if 18 ≤ major then ["--no-data-checksums"] else [])
      (match checksums with
        | .on => [.option .dataChecksums none]
        | .off => if 18 ≤ major then [.option .noDataChecksums none] else []) := by
  cases checksums with
  | on => exact Table.reads_options (read_dataChecksums major)
  | off =>
    dsimp only
    by_cases hmajor : 18 ≤ major
    · rw [if_pos hmajor, if_pos hmajor]
      exact Table.reads_options (read_noDataChecksums hmajor)
    · rw [if_neg hmajor, if_neg hmajor]
      exact Table.reads_nil

theorem reads_pwfile (pwfile : Option String) (major : Nat) :
    (table major).Reads (pwfile.map fun path => "--pwfile=" ++ path).toList
      (pwfile.map fun path => Event.option .pwfile (some path)).toList := by
  cases pwfile with
  | none => exact Table.reads_nil
  | some path => exact Table.reads_options (read_pwfile major path)

/-- `initdb` reads the managed options, and then the others. -/
theorem parse_argvFor (o : InitdbOptions) (pgdata : String) (pwfile : Option String)
    (checksums : DataChecksums) (major : Nat) :
    (table major).parse (o.argvFor pgdata pwfile checksums major).tail =
      ((table major).parse o.extra).map (managedEvents o pgdata pwfile checksums major ++ ·) := by
  have hpgdata := Table.reads_awaits (read_pgdata major) pgdata
  have husername := Table.reads_options (read_username major o.superuser)
  have hencoding := Table.reads_options (read_encoding major (InitdbOptions.orDefault o.encoding "UTF8"))
  have hlocale := Table.reads_options (read_locale major (InitdbOptions.orDefault o.locale "C"))
  have hauth := (Table.reads_options (read_authLocal major)).append
    (Table.reads_options (read_authHost major))
  have hfixed := hpgdata.append (husername.append (hencoding.append (hlocale.append hauth)))
  exact ((hfixed.append (reads_checksums checksums major)).append (reads_pwfile pwfile major)) o.extra

end Managed

/-! ## The settings of the whole line -/

/-- The managed settings. -/
def managed (o : InitdbOptions) (pgdata : String) (pwfile : Option String)
    (checksums : DataChecksums) : Settings where
  pgdata := some pgdata
  username := some o.superuser
  pwprompt := false
  pwfile := pwfile
  authLocal := some "peer"
  authHost := some "scram-sha-256"
  checksums := checksums = .on

theorem foldl_managedEvents (o : InitdbOptions) (pgdata : String) (pwfile : Option String)
    (checksums : DataChecksums) (major : Nat) :
    (managedEvents o pgdata pwfile checksums major).foldl Settings.apply (.start major) =
      managed o pgdata pwfile checksums := by
  cases checksums with
  | on => cases pwfile <;> rfl
  | off =>
    by_cases hmajor : 18 ≤ major
    · cases pwfile <;> simp [managedEvents, hmajor, Settings.apply, Settings.start, managed]
    · cases pwfile <;> simp [managedEvents, hmajor, Settings.apply, Settings.start, managed]

theorem operands_managedEvents (o : InitdbOptions) (pgdata : String) (pwfile : Option String)
    (checksums : DataChecksums) (major : Nat) :
    (managedEvents o pgdata pwfile checksums major).filterMap operandOf = [] := by
  cases checksums with
  | on => cases pwfile <;> rfl
  | off =>
    by_cases hmajor : 18 ≤ major
    · cases pwfile <;> simp [managedEvents, hmajor, operandOf]
    · cases pwfile <;> simp [managedEvents, hmajor, operandOf]

/-- The options beside the managed ones make `initdb` refuse the line: an operand, or a
prompt for the password beside a file with it. -/
def Refused (pwfile : Option String) (events : List Event) : Prop :=
  events.filterMap operandOf ≠ [] ∨
    (Getopt.last pwpromptOf events).isSome ∧ (pwfile.isSome ∨ (Getopt.last pwfileOf events).isSome)

theorem last_pgdata {events : List Event} {v : Option String}
    (h : Getopt.last pgdataOf events = some v) : v.isSome := by
  obtain ⟨e, -, he⟩ := exists_of_last h
  unfold pgdataOf at he
  split at he
  · cases he
    rfl
  · cases he

theorem last_pwfile {events : List Event} {v : Option String}
    (h : Getopt.last pwfileOf events = some v) : v.isSome := by
  obtain ⟨e, -, he⟩ := exists_of_last h
  unfold pwfileOf at he
  split at he
  · cases he
    rfl
  · cases he

theorem last_pwprompt {events : List Event} {v : Bool}
    (h : Getopt.last pwpromptOf events = some v) : v = true := by
  obtain ⟨e, -, he⟩ := exists_of_last h
  unfold pwpromptOf at he
  split at he
  · cases he
    rfl
  · cases he

/-- A prompt and a file are in each other's way. -/
theorem prompt_and_file (o : InitdbOptions) (pgdata : String) (pwfile : Option String)
    (checksums : DataChecksums) (events : List Event) :
    let s := events.foldl Settings.apply (managed o pgdata pwfile checksums)
    (s.pwprompt && s.pwfile.isSome) = true ↔
      (Getopt.last pwpromptOf events).isSome ∧ (pwfile.isSome ∨ (Getopt.last pwfileOf events).isSome) := by
  dsimp only
  rw [Settings.foldl_apply, Bool.and_eq_true]
  dsimp only [managed]
  refine and_congr ?_ ?_
  · cases hprompt : Getopt.last pwpromptOf events with
    | none => simp
    | some v => simpa using last_pwprompt hprompt
  · cases hfile : Getopt.last pwfileOf events with
    | none => simp
    | some v => simpa using last_pwfile hfile

theorem settings_argvFor (o : InitdbOptions) (pgdata : String) (pwfile : Option String)
    (checksums : DataChecksums) (major : Nat) (s : Settings) :
    settings major (o.argvFor pgdata pwfile checksums major).tail = some s ↔
      ∃ events, (table major).parse o.extra = some events ∧ ¬ Refused pwfile events ∧
        s = events.foldl Settings.apply (managed o pgdata pwfile checksums) := by
  have hhead : (o.argvFor pgdata pwfile checksums major).tail.head? = some "--pgdata" := rfl
  have hplain : (["--help", "-?", "--version", "-V"].any fun a => some "--pgdata" = some a) = false := by
    decide +kernel
  rw [settings, hhead, hplain, parse_argvFor]
  cases hparse : (table major).parse o.extra with
  | none => simp
  | some events =>
    simp only [Option.map_some, List.foldl_append, List.filterMap_append, foldl_managedEvents,
      operands_managedEvents, List.nil_append, Bool.false_eq_true, if_false]
    generalize hs : events.foldl Settings.apply (managed o pgdata pwfile checksums) = final
    have hpgdata : ∃ dir, final.pgdata = some dir := by
      rw [← hs, Settings.foldl_apply]
      cases hlast : Getopt.last pgdataOf events with
      | none => exact ⟨pgdata, rfl⟩
      | some v => exact Option.isSome_iff_exists.mp (last_pgdata hlast)
    have hboth := prompt_and_file o pgdata pwfile checksums events
    rw [hs] at hboth
    obtain ⟨dir, hdir⟩ := hpgdata
    simp only [hdir]
    by_cases hoperands : events.filterMap operandOf = []
    · by_cases hprompt : (final.pwprompt && final.pwfile.isSome) = true
      · have hrefused : Refused pwfile events := .inr (hboth.mp hprompt)
        simp [hoperands, hprompt, hrefused]
      · have hfine : ¬ Refused pwfile events := by
          rintro (h | h)
          · exact h hoperands
          · exact hprompt (hboth.mpr h)
        rw [if_neg (not_not_intro hoperands), if_neg hprompt]
        constructor
        · intro h
          exact ⟨events, rfl, hfine, (Option.some.inj h).symm.trans hs.symm⟩
        · rintro ⟨events', hevents, -, rfl⟩
          rw [← Option.some.inj hevents, hs]
    · have hrefused : Refused pwfile events := .inl hoperands
      simp [hoperands, hrefused]

/-! ## What is kept -/

/-- No event names the setting, or the last that does gives it this value. -/
def Keeps {τ : Type} (given : Event → Option τ) (value : τ) (events : List Event) : Prop :=
  ∀ v, Getopt.last given events = some v → v = value

theorem keeps_iff {τ : Type} {given : Event → Option τ} {value : τ} {events : List Event} :
    Keeps given value events ↔ (Getopt.last given events).getD value = value := by
  rw [Keeps]
  cases Getopt.last given events <;> simp

/-- As `initdb` reads them, the manifest's options are refused or have the property. -/
def Harmless (major : Nat) (pwfile : Option String) (extra : List String)
    (P : List Event → Prop) : Prop :=
  ∀ events, (table major).parse extra = some events → ¬ Refused pwfile events → P events

/-- The settings that the bootstrap of an instance relies on. -/
def IsManaged (o : InitdbOptions) (s : Settings) : Prop :=
  s.checksums = true ∧ s.pgdata = some Container.PGDATA ∧ s.username = some o.superuser ∧
    s.pwprompt = false ∧ s.pwfile = some PWFILE_PATH ∧ s.authLocal = some "peer" ∧
    s.authHost = some "scram-sha-256"

/-- **The managed settings of a new cluster.**  Whatever `initdb` does not refuse has the
managed settings exactly when the manifest's options name none of them, or name each last
with its managed value; and `argv_for` keeps checksums and data directory exactly when
the options keep these two. -/
theorem initdb_settings (o : InitdbOptions) (major : Nat) :
    ((∀ s, settings major o.argv.tail = some s → IsManaged o s) ↔
      Harmless major (some PWFILE_PATH) o.extra fun events =>
        Keeps checksumsOf true events ∧ Keeps pgdataOf (some Container.PGDATA) events ∧
          Keeps usernameOf (some o.superuser) events ∧ Keeps pwfileOf (some PWFILE_PATH) events ∧
          Keeps authLocalOf (some "peer") events ∧ Keeps authHostOf (some "scram-sha-256") events) ∧
    ∀ pgdata pwfile checksums,
      (∀ s, settings major (o.argvFor pgdata pwfile checksums major).tail = some s →
        s.checksums = decide (checksums = .on) ∧ s.pgdata = some pgdata) ↔
      Harmless major pwfile o.extra fun events =>
        Keeps checksumsOf (decide (checksums = .on)) events ∧ Keeps pgdataOf (some pgdata) events := by
  constructor
  · have hargv : o.argv = o.argvFor Container.PGDATA (some PWFILE_PATH) .on major := rfl
    simp only [hargv, settings_argvFor, keeps_iff, Harmless, IsManaged]
    constructor
    · intro h events hparse hfine
      obtain ⟨hchecksums, hpgdata, husername, -, hpwfile, hlocal, hhost⟩ := h _ ⟨events, hparse, hfine, rfl⟩
      rw [Settings.foldl_apply] at hchecksums hpgdata husername hpwfile hlocal hhost
      exact ⟨hchecksums, hpgdata, husername, hpwfile, hlocal, hhost⟩
    · rintro h s ⟨events, hparse, hfine, rfl⟩
      obtain ⟨hchecksums, hpgdata, husername, hpwfile, hlocal, hhost⟩ := h events hparse hfine
      rw [Settings.foldl_apply]
      refine ⟨hchecksums, hpgdata, husername, ?_, hpwfile, hlocal, hhost⟩
      -- a prompt beside the password file was refused
      cases hprompt : Getopt.last pwpromptOf events with
      | none => rfl
      | some v => exact absurd (.inr ⟨by rw [hprompt]; rfl, .inl rfl⟩) hfine
  · intro pgdata pwfile checksums
    simp only [settings_argvFor, keeps_iff, Harmless]
    constructor
    · intro h events hparse hfine
      have hkept := h _ ⟨events, hparse, hfine, rfl⟩
      rw [Settings.foldl_apply] at hkept
      exact hkept
    · rintro h s ⟨events, hparse, hfine, rfl⟩
      rw [Settings.foldl_apply]
      exact h events hparse hfine

/-- The options of a manifest that turns the checksums off. -/
def unchecked : InitdbOptions where
  extra := ["--no-data-checksums"]

/-- From version 18 on, an option of the manifest turns the checksums off. -/
theorem checksums_turned_off :
    ¬ ∀ s, settings 18 unchecked.argv.tail = some s → IsManaged unchecked s := by
  intro h
  have hsettings : (settings 18 unchecked.argv.tail).map Settings.checksums = some false := by
    decide +kernel
  obtain ⟨s, hs, hoff⟩ := Option.map_eq_some_iff.mp hsettings
  rw [(h s hs).1] at hoff
  cases hoff

/-- An earlier `initdb` does not know the option. -/
example : settings 17 unchecked.argv.tail = none := by decide +kernel

end Initdb

end Pgpod
