import Pgpod.Core.Text

/-!
# Who may connect: `pg_hba.conf`

pgpod writes the file whole.  PostgreSQL takes the first rule that matches a
connection and refuses one that no rule matches, so the file comes to a table: the
socket by peer, TCP by password and only from the loopback and the cluster's own
network, replication only for one role.  An operator's rules stand below and are
asked only about connections that the table says nothing of.
-/

namespace Pgpod

/-! ## Rendering -/

inductive AuthMethod
  | peer
  | scram
  | trust
deriving DecidableEq, Repr

def AuthMethod.asStr : AuthMethod → String
  | peer => "peer"
  | scram => "scram-sha-256"
  | trust => "trust"

inductive ConnType
  | unix
  | host
deriving DecidableEq, Repr

def ConnType.asStr : ConnType → String
  | unix => "local"
  | host => "host"

structure Rule where
  conn : ConnType
  database : String
  user : String
  address : Option String
  method : AuthMethod
  comment : Option String
deriving DecidableEq

structure HbaConfig where
  /-- The cluster's own network: none means no rule of it at all. -/
  networkCidr : Option String := none
  replicationRole : String
  extra : List String := []
deriving DecidableEq

/-- Left-aligned in a column of this width. -/
def padded (width : Nat) (s : String) : String :=
  s ++ String.ofList (List.replicate (width - s.toList.length) ' ')

namespace HbaConfig

def new (replicationRole : String) : HbaConfig := { replicationRole }

def withNetwork (c : HbaConfig) (cidr : String) : HbaConfig := { c with networkCidr := some cidr }

/-- The container's own loopback, that no other container reaches. -/
def LOOPBACK_V4 : String := "127.0.0.1/32"
def LOOPBACK_V6 : String := "::1/128"

def localRules : List Rule :=
  [{ conn := .unix, database := "all", user := "all", address := none, method := .peer
     comment := some "agent and pgpod psql, over the unix socket" },
   { conn := .host, database := "all", user := "all", address := some LOOPBACK_V4
     method := .scram, comment := some "container-local loopback" },
   { conn := .host, database := "all", user := "all", address := some LOOPBACK_V6, method := .scram
     comment := none }]

/-- Replication is a database of its own that `all` does not cover. -/
def networkRules (c : HbaConfig) : List Rule :=
  match c.networkCidr with
  | none => []
  | some cidr =>
    [{ conn := .host, database := "all", user := "all", address := some cidr, method := .scram
       comment := some "application traffic from the cluster network" },
     { conn := .host, database := "replication", user := c.replicationRole, address := some cidr
       method := .scram, comment := some "standbys streaming from this instance" }]

def rules (c : HbaConfig) : List Rule := localRules ++ c.networkRules

def header : String :=
  "# Managed by pgpod. Rewritten on every instance start." ++ "\n" ++
    ("# Edits here are lost; use spec.postgresql.pg_hba for extra rules." ++ "\n") ++
    ("#" ++ "\n") ++ ("# First match wins, so order matters." ++ "\n") ++ ("" ++ "\n") ++
    ("# TYPE  DATABASE        USER               ADDRESS              METHOD" ++ "\n")

def ruleLine (r : Rule) : String :=
  padded 7 r.conn.asStr ++ " " ++ padded 15 r.database ++ " " ++ padded 18 r.user ++ " " ++
    padded 20 (r.address.getD "") ++ " " ++ r.method.asStr

def ruleText (r : Rule) : String :=
  (match r.comment with
    | some comment => "# " ++ comment ++ "\n"
    | none => "") ++ (ruleLine r ++ "\n")

def extraText (extra : List String) : String :=
  if extra.isEmpty then ""
  else "" ++ "\n" ++ ("# --- from spec.postgresql.pg_hba ---" ++ "\n") ++ Text.unlines extra

/-- `pg_hba.conf`. -/
def render (c : HbaConfig) : String :=
  header ++ String.join (c.rules.map ruleText) ++ extraText c.extra

end HbaConfig

/-! ## How PostgreSQL reads the file -/

namespace HbaFile

/-- A word of a line; one that began with a quote is never a keyword. -/
structure Token where
  text : List Char
  quoted : Bool
deriving DecidableEq

def isBlank (c : Char) : Bool := c == ' ' || c == '\t' || c == '\r'

def skipBlanks (cs : List Char) : List Char := cs.dropWhile isBlank

/-- What a scanned word is: its text, whether a quote was in it, whether a comma ended it, and
what follows. -/
structure Scanned where
  text : List Char
  sawQuote : Bool
  comma : Bool
  rest : List Char

def scan : (inQuote wasQuote : Bool) → List Char → Scanned
  | _, _, [] => ⟨[], false, false, []⟩
  | inQuote, wasQuote, c :: cs =>
    if isBlank c && !inQuote then ⟨[], false, false, c :: cs⟩
    -- a comment runs to the end of the line
    else if c == '#' && !inQuote then ⟨[], false, false, []⟩
    else if c == ',' && !inQuote then ⟨[], false, true, cs⟩
    else
      let more := scan (if c == '"' then !inQuote else inQuote)
        (if inQuote && c == '"' then !wasQuote else false) cs
      { more with
        text := (if c != '"' || wasQuote then [c] else []) ++ more.text
        sawQuote := c == '"' || more.sawQuote }

/-- The next word if there is one, whether a comma ended it, and what follows. -/
def nextToken (cs : List Char) : Option Token × Bool × List Char :=
  let front := skipBlanks cs
  let s := scan false false front
  if s.sawQuote || !s.text.isEmpty then
    (some ⟨s.text, front.head? == some '"'⟩, s.comma, s.rest)
  else (none, s.comma, s.rest)

/-- A field goes on as long as its words end in commas. -/
def nextField : Nat → List Char → List Token × List Char
  | 0, cs => ([], cs)
  | fuel + 1, cs =>
    match nextToken cs with
    | (none, _, rest) => ([], rest)
    | (some t, true, rest) => (t :: (nextField fuel rest).1, (nextField fuel rest).2)
    | (some t, false, rest) => ([t], rest)

def fieldsOf : Nat → List Char → List (List Token)
  | 0, _ => []
  | _ + 1, [] => []
  | fuel + 1, c :: cs =>
    let field := nextField (fuel + 1) (c :: cs)
    if field.1.isEmpty then fieldsOf fuel field.2 else field.1 :: fieldsOf fuel field.2

/-- The fields of a line. -/
def fields (line : List Char) : List (List Token) := fieldsOf (line.length + 1) line

/-- A backslash at the end of a line goes on with the next one. -/
def joinLines : List (List Char) → List (List Char)
  | [] => []
  | line :: rest =>
    if line.getLast? = some '\\' then
      match joinLines rest with
      | [] => [line.dropLast]
      | next :: more => (line.dropLast ++ next) :: more
    else line :: joinLines rest

/-- A rule of the two kinds that are written here. -/
structure Entry where
  databases : List Token
  users : List Token
  /-- Where a TCP connection comes from; none is the socket. -/
  address : Option (List Char)
  method : List Char
deriving DecidableEq

/-- The word is `all`, `replication` or a name: no group, pattern or file of names. -/
def Token.isSimple (t : Token) : Bool :=
  t.text.head? != some '/' && (t.quoted ||
    (t.text.head? != some '+' && t.text.head? != some '@' &&
      !(["sameuser", "samerole", "samegroup"].contains (String.ofList t.text))))

def entryOf : List (List Token) → Option Entry
  | [[kind], databases, users, [method]] =>
    if kind.text = "local".toList ∧ (databases ++ users).all Token.isSimple then
      some ⟨databases, users, none, method.text⟩
    else none
  | [[kind], databases, users, [address], [method]] =>
    if kind.text = "host".toList ∧ (databases ++ users).all Token.isSimple then
      some ⟨databases, users, some address.text, method.text⟩
    else none
  | _ => none

/-! ## Which rule is taken -/

inductive Target
  | replication
  | database (name : String)
deriving DecidableEq

/-- An attempt to connect: from where, unless over the socket, to what and as whom. -/
structure Connection (α : Type) where
  source : Option α
  target : Target
  user : String

def Token.isKeyword (t : Token) (word : String) : Bool := !t.quoted && t.text == word.toList

def Token.allows (t : Token) : Target → Bool
  | .replication => t.isKeyword "replication"
  | .database name => t.isKeyword "all" || (!t.isKeyword "replication" && t.text == name.toList)

def Token.allowsUser (t : Token) (user : String) : Bool :=
  t.isKeyword "all" || t.text == user.toList

/-- A rule of whatever kind: the connections it is for, and how they are to authenticate. -/
structure Record (α : Type) where
  allows : Connection α → Bool
  method : String

section Matching

variable {α : Type}

def Entry.matchesSource (covers : List Char → α → Bool) (e : Entry) : Option α → Bool
  | none => e.address.isNone
  | some a => e.address.any fun address => covers address a

def Entry.covered (covers : List Char → α → Bool) (e : Entry) (conn : Connection α) : Bool :=
  e.matchesSource covers conn.source && e.databases.any (·.allows conn.target) &&
    e.users.any (·.allowsUser conn.user)

def Entry.record (covers : List Char → α → Bool) (e : Entry) : Record α where
  allows := e.covered covers
  method := String.ofList e.method

/-- The method of the first rule that matches; no rule means refused. -/
def firstMatch : List (Record α) → Connection α → Option String
  | [], _ => none
  | r :: rest, conn => if r.allows conn then some r.method else firstMatch rest conn

theorem firstMatch_append (xs ys : List (Record α)) (conn : Connection α) :
    firstMatch (xs ++ ys) conn = (firstMatch xs conn).or (firstMatch ys conn) := by
  induction xs with
  | nil => rfl
  | cons r xs ih =>
    rw [List.cons_append, firstMatch, firstMatch]
    split
    · rfl
    · exact ih

end Matching

/-! ## Reading a file -/

/-- What is left open of PostgreSQL's reading: where an address lies, and what a line of another
kind says (`hostssl`, options of a method, a netmask, groups, patterns, included files), unless it is
an error. -/
structure Reader (α : Type) where
  covers : List Char → α → Bool
  others : List (List Token) → Option (List (Record α))

namespace Reader

variable {α : Type} (R : Reader α)

def readLine (line : List Char) : Option (List (Record α)) :=
  if (fields line).isEmpty then some []
  else match entryOf (fields line) with
    | some e => some [e.record R.covers]
    | none => R.others (fields line)

def readLines : List (List Char) → Option (List (Record α))
  | [] => some []
  | line :: lines =>
    match R.readLine line, readLines lines with
    | some found, some more => some (found ++ more)
    | _, _ => none

/-- The rules of a file in their order; nothing when a line is an error. -/
def readHba (text : String) : Option (List (Record α)) :=
  R.readLines (joinLines (text.toList.splitOn '\n'))

theorem readHba_empty : R.readHba "" = some [] := by
  simp [readHba, joinLines, readLines, readLine, fields, fieldsOf]

end Reader

/-! ## Words between blanks -/

def plainChar (c : Char) : Bool :=
  !isBlank c && c != '#' && c != ',' && c != '"' && c != '\n' && c != '\\'

/-- A word that the reader takes as it stands. -/
def IsWord (w : List Char) : Prop := w ≠ [] ∧ ∀ c ∈ w, plainChar c = true

theorem scan_word {w rest : List Char} (hw : ∀ c ∈ w, plainChar c = true)
    (hrest : ∀ c, rest.head? = some c → isBlank c = true) :
    scan false false (w ++ rest) = ⟨w, false, false, rest⟩ := by
  induction w with
  | nil =>
    cases rest with
    | nil => rfl
    | cons c cs =>
      have hc : isBlank c = true := hrest c rfl
      simp [scan, hc]
  | cons c cs ih =>
    have hplain := hw c List.mem_cons_self
    simp only [plainChar, Bool.and_eq_true, Bool.not_eq_true', bne_iff_ne, ne_eq] at hplain
    obtain ⟨⟨⟨⟨⟨hblank, hhash⟩, hcomma⟩, hquote⟩, -⟩, -⟩ := hplain
    have hmore := ih fun d hd => hw d (.tail _ hd)
    simp [scan, hblank, hhash, hcomma, hquote, hmore]

theorem skipBlanks_replicate (n : Nat) (cs : List Char) :
    skipBlanks (List.replicate n ' ' ++ cs) = skipBlanks cs := by
  have hblank : ∀ c ∈ List.replicate n ' ', isBlank c = true := fun c hc => by
    rw [List.eq_of_mem_replicate hc]
    rfl
  exact List.dropWhile_append_of_pos hblank

theorem skipBlanks_word {w : List Char} (hw : IsWord w) (rest : List Char) :
    skipBlanks (w ++ rest) = w ++ rest := by
  obtain ⟨c, cs, rfl⟩ := List.exists_cons_of_ne_nil hw.1
  have hplain := hw.2 c List.mem_cons_self
  simp only [plainChar, Bool.and_eq_true, Bool.not_eq_true'] at hplain
  simp [skipBlanks, hplain.1.1.1.1.1]

/-- The next word after blanks. -/
theorem nextToken_word {w rest : List Char} (hw : IsWord w) (n : Nat)
    (hrest : ∀ c, rest.head? = some c → isBlank c = true) :
    nextToken (List.replicate n ' ' ++ (w ++ rest)) = (some ⟨w, false⟩, false, rest) := by
  have hfront : skipBlanks (List.replicate n ' ' ++ (w ++ rest)) = w ++ rest := by
    rw [skipBlanks_replicate, skipBlanks_word hw]
  obtain ⟨c, cs, hcs⟩ := List.exists_cons_of_ne_nil hw.1
  have hquote : (w ++ rest).head? = some '"' → False := by
    intro h
    rw [hcs, List.cons_append, List.head?_cons, Option.some.injEq] at h
    subst h
    exact absurd (hw.2 '"' (by rw [hcs]; exact List.mem_cons_self)) (by decide)
  have hunquoted : ((w ++ rest).head? == some '"') = false := by
    rw [beq_eq_false_iff_ne]
    exact hquote
  unfold nextToken
  simp only [hfront, scan_word hw.2 hrest, hunquoted]
  simp [hcs]

/-- A line of words, each followed by blanks but for the last. -/
def spaced (words : List (List Char × Nat)) (last : List Char) : List Char :=
  words.flatMap (fun w => w.1 ++ List.replicate (w.2 + 1) ' ') ++ last

theorem fieldsOf_spaced {words : List (List Char × Nat)} {last : List Char}
    (hwords : ∀ w ∈ words, IsWord w.1) (hlast : IsWord last) (n fuel : Nat)
    (hfuel : words.length < fuel) :
    fieldsOf fuel (List.replicate n ' ' ++ spaced words last) =
      words.map (fun w => [⟨w.1, false⟩]) ++ [[⟨last, false⟩]] := by
  -- one field a step: what is before it is skipped, and what is after it begins with a blank
  have hstep : ∀ {w rest : List Char} {fuel n : Nat}, IsWord w →
      (∀ c, rest.head? = some c → isBlank c = true) →
      fieldsOf (fuel + 1) (List.replicate n ' ' ++ (w ++ rest)) =
        [⟨w, false⟩] :: fieldsOf fuel rest := by
    intro w rest fuel n hw hrest
    obtain ⟨c, cs, hcs⟩ : ∃ c cs, List.replicate n ' ' ++ (w ++ rest) = c :: cs := by
      refine List.exists_cons_of_ne_nil ?_
      simp [hw.1]
    have hfield : nextField (fuel + 1) (List.replicate n ' ' ++ (w ++ rest)) =
        ([⟨w, false⟩], rest) := by
      rw [nextField, nextToken_word hw n hrest]
    rw [hcs] at hfield ⊢
    rw [fieldsOf, hfield]
    rfl
  induction words generalizing n fuel with
  | nil =>
    obtain ⟨fuel, rfl⟩ : ∃ k, fuel = k + 1 := ⟨fuel - 1, by simp at hfuel; omega⟩
    have hnone : fieldsOf fuel [] = [] := by cases fuel <;> rfl
    have hone : fieldsOf (fuel + 1) (List.replicate n ' ' ++ (last ++ [])) =
        [⟨last, false⟩] :: fieldsOf fuel [] := hstep hlast fun c hc => by cases hc
    rw [List.append_nil, hnone] at hone
    exact hone
  | cons w words ih =>
    obtain ⟨fuel, rfl⟩ : ∃ k, fuel = k + 1 := ⟨fuel - 1, by simp at hfuel; omega⟩
    have hline : spaced (w :: words) last =
        w.1 ++ (List.replicate (w.2 + 1) ' ' ++ spaced words last) := by
      simp [spaced]
    rw [hline, hstep (hwords w List.mem_cons_self) fun c hc => by
        rw [List.replicate_succ, List.cons_append, List.head?_cons] at hc
        rw [← Option.some.inj hc]
        rfl,
      ih (fun v hv => hwords v (.tail _ hv)) (w.2 + 1) fuel (by simp at hfuel; omega)]
    rfl

theorem fields_spaced {words : List (List Char × Nat)} {last : List Char}
    (hwords : ∀ w ∈ words, IsWord w.1) (hlast : IsWord last) :
    fields (spaced words last) = words.map (fun w => [⟨w.1, false⟩]) ++ [[⟨last, false⟩]] := by
  have hlength : words.length ≤ (spaced words last).length := by
    clear hwords
    induction words with
    | nil => exact Nat.zero_le _
    | cons w words ih =>
      simp only [spaced, List.flatMap_cons, List.append_assoc, List.length_append,
        List.length_replicate, List.length_cons] at ih ⊢
      omega
  exact fieldsOf_spaced hwords hlast 0 _ (by omega)

/-! ## Runs of whole lines -/

/-- The text is a run of whole lines that hold these rules. -/
structure Allows (text : String) (found : List Entry) : Prop where
  ended : Text.Ended text
  reads : ∀ {α : Type} (R : Reader α) rest,
    R.readHba (text ++ rest) = (R.readHba rest).map (found.map (Entry.record R.covers) ++ ·)

namespace Allows

theorem empty : Allows "" [] := by
  refine ⟨.inl rfl, fun R rest => ?_⟩
  simp

theorem append {text more : String} {found others : List Entry} (h : Allows text found)
    (h' : Allows more others) : Allows (text ++ more) (found ++ others) := by
  refine ⟨h.ended.append h'.ended, fun R rest => ?_⟩
  rw [String.append_assoc, h.reads, h'.reads, Option.map_map, List.map_append]
  exact congrArg (Option.map · (R.readHba rest)) (funext fun s => (List.append_assoc _ _ _).symm)

/-- One line that no other goes on with. -/
theorem line {line : String} {found : List Entry} (hone : '\n' ∉ line.toList)
    (hends : line.toList.getLast? ≠ some '\\') (hread : ∀ {α : Type} (R : Reader α),
      R.readLine line.toList = some (found.map (Entry.record R.covers))) :
    Allows (line ++ "\n") found := by
  refine ⟨.inr ⟨line, rfl⟩, fun R rest => ?_⟩
  have hchars : (line ++ "\n" ++ rest).toList = line.toList ++ '\n' :: rest.toList := by simp
  unfold Reader.readHba
  rw [hchars, List.splitOn_append_cons_self_of_not_mem hone, joinLines, if_neg hends,
    Reader.readLines, hread]
  cases R.readLines (joinLines (rest.toList.splitOn '\n')) <;> rfl

theorem blank : Allows ("" ++ "\n") [] := by
  refine .line (by simp) (by simp) fun R => ?_
  simp [Reader.readLine, fields, fieldsOf]

theorem comment {line : String} (hhash : line.toList.head? = some '#') (hone : '\n' ∉ line.toList)
    (hends : line.toList.getLast? ≠ some '\\') : Allows (line ++ "\n") [] := by
  refine .line hone hends fun R => ?_
  obtain ⟨cs, hcs⟩ := List.head?_eq_some_iff.1 hhash
  have hnone : fields ('#' :: cs) = [] := by
    simp [fields, fieldsOf, nextField, nextToken, skipBlanks, isBlank, scan]
  rw [hcs, Reader.readLine, hnone]
  rfl

theorem join {α : Type} {f : α → String} {g : α → Entry} {xs : List α}
    (h : ∀ x ∈ xs, Allows (f x) [g x]) : Allows (String.join (xs.map f)) (xs.map g) := by
  induction xs with
  | nil => exact empty
  | cons x xs ih =>
    rw [List.map_cons, String.join_cons]
    exact (h x List.mem_cons_self).append (ih fun y hy => h y (.tail _ hy))

end Allows

end HbaFile

/-! ## What the rendered file decides -/

namespace HbaConfig

open HbaFile

/-- A rule as the reader has it. -/
def entry (r : Rule) : Entry where
  databases := [⟨r.database.toList, false⟩]
  users := [⟨r.user.toList, false⟩]
  address := r.address.map String.toList
  method := r.method.asStr.toList

def isWord (s : String) : Bool := !s.isEmpty && s.toList.all plainChar

theorem isWord_iff {s : String} : isWord s = true ↔ IsWord s.toList := by
  simp [isWord, IsWord]

/-- A name that stands for itself wherever a role or a database may stand. -/
def isName (s : String) : Bool := isWord s && (Token.mk s.toList false).isSimple && s != "all"

/-- The configuration's own texts are single words. -/
def plain (c : HbaConfig) : Bool := c.networkCidr.all isWord && isName c.replicationRole

/-- A rule over the socket has no address, and one over TCP has; its texts are words. -/
structure WellFormed (r : Rule) : Prop where
  conn : r.conn = .unix ↔ r.address = none
  database : isWord r.database = true ∧ (Token.mk r.database.toList false).isSimple = true
  user : isWord r.user = true ∧ (Token.mk r.user.toList false).isSimple = true
  address : r.address.all isWord = true
  comment : ∀ comment, r.comment = some comment →
    '\n' ∉ comment.toList ∧ ("# " ++ comment).toList.getLast? ≠ some '\\'

theorem padded_toList (width : Nat) (s : String) :
    ∃ n, (padded width s ++ " ").toList = s.toList ++ List.replicate (n + 1) ' ' := by
  refine ⟨width - s.toList.length, ?_⟩
  simp [padded, List.replicate_succ']

theorem method_word (m : AuthMethod) : IsWord m.asStr.toList := by
  cases m <;> exact isWord_iff.1 (by simp [AuthMethod.asStr, isWord, plainChar, isBlank])

theorem conn_word (t : ConnType) : IsWord t.asStr.toList := by
  cases t <;> exact isWord_iff.1 (by simp [ConnType.asStr, isWord, plainChar, isBlank])

/-- The words of a rule's line. -/
theorem ruleLine_spaced (r : Rule) :
    ∃ words, (ruleLine r).toList = spaced words r.method.asStr.toList ∧
      words.map Prod.fst = [r.conn.asStr.toList, r.database.toList, r.user.toList] ++
        (r.address.map String.toList).toList := by
  obtain ⟨n₁, h₁⟩ := padded_toList 7 r.conn.asStr
  obtain ⟨n₂, h₂⟩ := padded_toList 15 r.database
  obtain ⟨n₃, h₃⟩ := padded_toList 18 r.user
  obtain ⟨n₄, h₄⟩ := padded_toList 20 (r.address.getD "")
  have hline : (ruleLine r).toList = (padded 7 r.conn.asStr ++ " ").toList ++
      ((padded 15 r.database ++ " ").toList ++ ((padded 18 r.user ++ " ").toList ++
        ((padded 20 (r.address.getD "") ++ " ").toList ++ r.method.asStr.toList))) := by
    simp [ruleLine]
  rw [hline, h₁, h₂, h₃, h₄]
  cases haddress : r.address with
  | some a =>
    refine ⟨[(r.conn.asStr.toList, n₁), (r.database.toList, n₂), (r.user.toList, n₃),
      (a.toList, n₄)], ?_, rfl⟩
    simp [spaced]
  | none =>
    -- an empty column is more blanks after the word before it
    refine ⟨[(r.conn.asStr.toList, n₁), (r.database.toList, n₂),
      (r.user.toList, n₃ + (n₄ + 1))], ?_, rfl⟩
    have hblanks : List.replicate (n₃ + (n₄ + 1) + 1) ' ' =
        List.replicate (n₃ + 1) ' ' ++ List.replicate (n₄ + 1) ' ' := by
      rw [← List.replicate_add]
      congr 1
      omega
    simp only [spaced, List.flatMap_cons, List.flatMap_nil, List.append_nil, List.append_assoc,
      hblanks, Option.getD_none, String.toList_empty, List.nil_append]

theorem readLine_rule {r : Rule} (h : WellFormed r) {α : Type} (R : Reader α) :
    R.readLine (ruleLine r).toList = some [(entry r).record R.covers] := by
  obtain ⟨words, hline, hwords⟩ := ruleLine_spaced r
  have haddress : ∀ a, r.address = some a → isWord a = true := by
    intro a ha
    have hall := h.address
    rw [ha] at hall
    exact hall
  have hword : ∀ w ∈ words, IsWord w.1 := by
    intro w hw
    have hmem : w.1 ∈ words.map Prod.fst := List.mem_map_of_mem hw
    rw [hwords] at hmem
    simp only [List.mem_append, List.mem_cons, List.not_mem_nil, or_false, Option.mem_toList,
      Option.map_eq_some_iff] at hmem
    rcases hmem with (heq | heq | heq) | ⟨a, ha, heq⟩
    · exact heq ▸ conn_word r.conn
    · exact heq ▸ isWord_iff.1 h.database.1
    · exact heq ▸ isWord_iff.1 h.user.1
    · exact heq ▸ isWord_iff.1 (haddress a ha)
  have hfields : fields (ruleLine r).toList =
      (words.map Prod.fst).map (fun w => [⟨w, false⟩]) ++ [[⟨r.method.asStr.toList, false⟩]] := by
    rw [hline, fields_spaced hword (method_word _), List.map_map]
    rfl
  rw [hwords] at hfields
  have hsimple : ([⟨r.database.toList, false⟩] ++ [⟨r.user.toList, false⟩] : List Token).all
      Token.isSimple = true := by
    simp [h.database.2, h.user.2]
  unfold Reader.readLine
  rw [hfields]
  cases hconn : r.conn with
  | unix =>
    have hnone := h.conn.1 hconn
    simp only [hnone, Option.map_none, Option.toList_none, List.append_nil, List.map_cons,
      List.map_nil, List.cons_append, List.nil_append, List.isEmpty_cons, Bool.false_eq_true,
      if_false, entryOf]
    rw [if_pos ⟨rfl, hsimple⟩]
    simp [entry, hnone]
  | host =>
    obtain ⟨a, ha⟩ : ∃ a, r.address = some a := by
      rw [← Option.ne_none_iff_exists']
      intro hnone
      rw [h.conn.2 hnone] at hconn
      cases hconn
    simp only [ha, Option.map_some, Option.toList_some, List.map_cons, List.map_nil,
      List.cons_append, List.nil_append, List.isEmpty_cons, Bool.false_eq_true, if_false, entryOf]
    rw [if_pos ⟨rfl, hsimple⟩]
    simp [entry, ha]

theorem newline_notMem_word {w : List Char} (hw : IsWord w) : '\n' ∉ w :=
  fun h => absurd (hw.2 _ h) (by decide)

/-- A rule's line stands by itself. -/
theorem allows_line {r : Rule} (h : WellFormed r) : Allows (ruleLine r ++ "\n") [entry r] := by
  have hcolumn : ∀ width s, '\n' ∉ s.toList → '\n' ∉ (padded width s).toList := by
    intro width s hs
    simp [padded, hs]
  have haddress : '\n' ∉ (r.address.getD "").toList := by
    cases ha : r.address with
    | none => simp
    | some a =>
      have hall := h.address
      rw [ha] at hall
      exact newline_notMem_word (isWord_iff.1 hall)
  have hmethod := method_word r.method
  refine .line ?_ ?_ fun R => readLine_rule h R
  · have hconn := hcolumn 7 _ (newline_notMem_word (conn_word r.conn))
    have hdatabase := hcolumn 15 _ (newline_notMem_word (isWord_iff.1 h.database.1))
    have huser := hcolumn 18 _ (newline_notMem_word (isWord_iff.1 h.user.1))
    have hcidr := hcolumn 20 _ haddress
    have hlast := newline_notMem_word hmethod
    simp [ruleLine, hconn, hdatabase, huser, hcidr, hlast]
  · intro hends
    have hline : (ruleLine r).toList = (padded 7 r.conn.asStr ++ " " ++ padded 15 r.database ++
        " " ++ padded 18 r.user ++ " " ++ padded 20 (r.address.getD "") ++ " ").toList ++
        r.method.asStr.toList := by
      simp [ruleLine]
    rw [hline, List.getLast?_append_of_ne_nil _ hmethod.1] at hends
    exact absurd (hmethod.2 _ (List.mem_of_getLast? hends)) (by decide)

theorem allows_rule {r : Rule} (h : WellFormed r) : Allows (ruleText r) [entry r] := by
  unfold ruleText
  cases hcomment : r.comment with
  | none => simpa using allows_line h
  | some comment =>
    obtain ⟨hone, hends⟩ := h.comment comment hcomment
    exact (Allows.comment (by simp) (by simp [hone]) hends).append (allows_line h)

theorem allows_header : Allows header [] := by
  have hmanaged : Allows ("# Managed by pgpod. Rewritten on every instance start." ++ "\n") [] :=
    .comment (by simp) (by simp) (by simp)
  have hedits : Allows ("# Edits here are lost; use spec.postgresql.pg_hba for extra rules." ++
      "\n") [] := .comment (by simp) (by simp) (by simp)
  have hhash : Allows ("#" ++ "\n") [] := .comment (by simp) (by simp) (by simp)
  have horder : Allows ("# First match wins, so order matters." ++ "\n") [] :=
    .comment (by simp) (by simp) (by simp)
  have hcolumns : Allows
      ("# TYPE  DATABASE        USER               ADDRESS              METHOD" ++ "\n") [] :=
    .comment (by simp) (by simp) (by simp)
  exact ((((hmanaged.append hedits).append hhash).append horder).append .blank).append hcolumns

/-- The operator's rules are read as they stand. -/
theorem readHba_extra (extra : List String) {α : Type} (R : Reader α) :
    R.readHba (extraText extra) = R.readHba (Text.unlines extra) := by
  unfold extraText
  split
  · next hnone =>
    rw [List.isEmpty_iff.1 hnone]
    rfl
  · have htitle : Allows ("" ++ "\n" ++ ("# --- from spec.postgresql.pg_hba ---" ++ "\n")) [] :=
      Allows.blank.append (.comment (by simp) (by simp) (by simp))
    rw [htitle.reads]
    exact Option.map_id'

/-! ### The rules of a configuration -/

/-- The words that the rules match on. -/
theorem keyword_simple : ∀ word ∈ ["all", "replication"],
    isWord word = true ∧ (Token.mk word.toList false).isSimple = true := by
  decide +kernel

theorem isWord_loopback : ∀ cidr ∈ [LOOPBACK_V4, LOOPBACK_V6], isWord cidr = true := by
  decide +kernel

theorem wellFormed_host {r : Rule} {a : String} (hconn : r.conn = .host)
    (haddress : r.address = some a) (ha : isWord a = true) (hdatabase : isWord r.database = true ∧
      (Token.mk r.database.toList false).isSimple = true)
    (huser : isWord r.user = true ∧ (Token.mk r.user.toList false).isSimple = true)
    (hcomment : ∀ comment, r.comment = some comment →
      '\n' ∉ comment.toList ∧ ("# " ++ comment).toList.getLast? ≠ some '\\') : WellFormed r := by
  refine ⟨?_, hdatabase, huser, ?_, hcomment⟩
  · rw [hconn, haddress]
    simp
  · rw [haddress]
    exact ha

theorem wellFormed_rules {c : HbaConfig} (hc : c.plain = true) : ∀ r ∈ c.rules, WellFormed r := by
  simp only [plain, Bool.and_eq_true] at hc
  obtain ⟨hcidr, hrole⟩ := hc
  simp only [isName, Bool.and_eq_true] at hrole
  have hall := keyword_simple "all" (by simp)
  intro r hr
  rw [rules, List.mem_append] at hr
  rcases hr with hr | hr
  · simp only [localRules, List.mem_cons, List.not_mem_nil, or_false] at hr
    rcases hr with rfl | rfl | rfl
    · refine ⟨by simp, hall, hall, rfl, ?_⟩
      rintro comment ⟨⟩
      simp
    · refine wellFormed_host rfl rfl (isWord_loopback _ (by simp)) hall hall ?_
      rintro comment ⟨⟩
      simp
    · refine wellFormed_host rfl rfl (isWord_loopback _ (by simp)) hall hall ?_
      intro comment hcomment
      cases hcomment
  · cases hnetwork : c.networkCidr with
    | none =>
      rw [networkRules, hnetwork] at hr
      cases hr
    | some cidr =>
      rw [hnetwork] at hcidr
      simp only [networkRules, hnetwork, List.mem_cons, List.not_mem_nil, or_false] at hr
      rcases hr with rfl | rfl
      · refine wellFormed_host rfl rfl hcidr hall hall ?_
        rintro comment ⟨⟩
        simp
      · refine wellFormed_host rfl rfl hcidr (keyword_simple _ (by simp)) hrole.1 ?_
        rintro comment ⟨⟩
        simp

theorem allows_rules {c : HbaConfig} (hc : c.plain = true) :
    Allows (String.join (c.rules.map ruleText)) (c.rules.map entry) :=
  .join fun r hr => allows_rule (wellFormed_rules hc r hr)

/-- Without an operator's rules the file ends with its last rule. -/
theorem ended_render {c : HbaConfig} (hc : c.plain = true) (hextra : c.extra = []) :
    Text.Ended c.render := by
  have hmanaged := allows_header.append (allows_rules hc)
  rw [render, extraText, hextra, List.isEmpty_nil, if_pos rfl, String.append_empty]
  exact hmanaged.ended

/-- The managed rules stand before what the operator's lines say, or the whole is an error. -/
theorem readHba_render {c : HbaConfig} (hc : c.plain = true) {α : Type} (R : Reader α) :
    R.readHba c.render = (R.readHba (Text.unlines c.extra)).map
      ((c.rules.map entry).map (Entry.record R.covers) ++ ·) := by
  have hmanaged := allows_header.append (allows_rules hc)
  rw [List.nil_append] at hmanaged
  unfold render
  rw [hmanaged.reads, readHba_extra]

section Verdict

variable {α : Type} (covers : List Char → α → Bool)

/-- **The table the managed rules come to.**  Peer over the socket, a password over TCP from the
loopback and the cluster's network, replication only for its role and only from that network. -/
def verdict (c : HbaConfig) (conn : Connection α) : Option AuthMethod :=
  match conn.source, conn.target with
  | none, .database _ => some .peer
  | none, .replication => none
  | some a, .database _ =>
    if covers LOOPBACK_V4.toList a || covers LOOPBACK_V6.toList a ||
      c.networkCidr.any (fun cidr => covers cidr.toList a) then some .scram else none
  | some a, .replication =>
    if c.networkCidr.any (fun cidr => covers cidr.toList a) && conn.user == c.replicationRole then
      some .scram
    else none

theorem allows_all (t : Target) :
    (Token.mk "all".toList false).allows t = decide (t ≠ .replication) := by
  cases t <;> simp [Token.allows, Token.isKeyword]

theorem allows_replication (t : Target) :
    (Token.mk "replication".toList false).allows t = decide (t = .replication) := by
  cases t <;> simp [Token.allows, Token.isKeyword]

theorem allowsUser_all (user : String) : (Token.mk "all".toList false).allowsUser user = true := by
  simp [Token.allowsUser, Token.isKeyword]

theorem allowsUser_role {role : String} (hrole : role ≠ "all") (user : String) :
    (Token.mk role.toList false).allowsUser user = (user == role) := by
  have hall : (role.toList == "all".toList) = false := by
    rw [beq_eq_false_iff_ne, Ne, String.toList_inj]
    exact hrole
  rw [Token.allowsUser, Token.isKeyword, hall, Bool.and_false, Bool.false_or, Bool.eq_iff_iff,
    beq_iff_eq, beq_iff_eq, String.toList_inj]
  exact eq_comm

/-- A rule for every database and role asks only where the connection comes from. -/
theorem covered_all {r : Rule} (hdatabase : r.database = "all") (huser : r.user = "all")
    (conn : Connection α) : (entry r).covered covers conn =
      ((entry r).matchesSource covers conn.source && decide (conn.target ≠ .replication)) := by
  simp only [Entry.covered, entry, hdatabase, huser, List.any_cons, List.any_nil, Bool.or_false,
    allows_all, allowsUser_all, Bool.and_true]

theorem firstMatch_managed {c : HbaConfig} (hc : c.plain = true) (conn : Connection α) :
    firstMatch ((c.rules.map entry).map (Entry.record covers)) conn =
      (c.verdict covers conn).map AuthMethod.asStr := by
  simp only [plain, isName, Bool.and_eq_true, bne_iff_ne] at hc
  have hrole := hc.2.2
  obtain ⟨source, target, user⟩ := conn
  have hnetwork : firstMatch ((c.networkRules.map entry).map (Entry.record covers))
      ⟨source, target, user⟩ =
      if source.any (fun a => c.networkCidr.any fun cidr => covers cidr.toList a) &&
        (decide (target ≠ .replication) || user == c.replicationRole) then
        some AuthMethod.scram.asStr
      else none := by
    unfold networkRules
    cases c.networkCidr with
    | none => cases source <;> simp [firstMatch]
    | some cidr =>
      simp only [List.map_cons, List.map_nil, firstMatch, Entry.record, covered_all]
      simp only [Entry.covered, entry, List.any_cons, List.any_nil, Bool.or_false,
        allows_replication, allowsUser_role hrole, String.ofList_toList]
      cases source with
      | none => simp [Entry.matchesSource]
      | some a =>
        cases target with
        | replication => simp [Entry.matchesSource]
        | database name => simp [Entry.matchesSource]
  rw [rules, List.map_append, List.map_append, firstMatch_append, hnetwork]
  simp only [localRules, List.map_cons, List.map_nil, firstMatch, Entry.record, covered_all]
  simp only [entry, String.ofList_toList, Entry.matchesSource]
  cases source with
  | none =>
    cases target with
    | replication => simp [verdict]
    | database name => simp [verdict]
  | some a =>
    cases target with
    | replication => simp [verdict]
    | database name =>
      by_cases h4 : covers LOOPBACK_V4.toList a = true
      · simp [verdict, h4]
      · by_cases h6 : covers LOOPBACK_V6.toList a = true
        · simp [verdict, h4, h6]
        · by_cases hcidr : c.networkCidr.any (fun cidr => covers cidr.toList a) = true
          · simp [verdict, h4, h6, hcidr]
          · simp [verdict, h4, h6, hcidr]

end Verdict

namespace Sample

/-- A cluster on its own network, and one rule of an operator's. -/
def cluster : HbaConfig where
  networkCidr := some "10.89.0.0/24"
  replicationRole := "streaming_replica"
  extra := ["hostssl all readonly 10.0.0.0/8 cert clientcert=verify-full"]

/-- Which IPv4 addresses the networks of the file cover; an address is marked with whether its
connection is encrypted. -/
def ipv4 (cidr : List Char) : Nat × Bool → Bool
  | (address, _) =>
    if cidr = LOOPBACK_V4.toList then address = 0x7f000001
    else if cidr = "10.89.0.0/24".toList then address / 0x100 = 0x0a5900
    else if cidr = "10.0.0.0/8".toList then address / 0x1000000 = 0x0a
    else false

/-- The rule of an encrypted connection, with its options after the method. -/
def hostssl (databases users : List Token) (address method : List Char) : Record (Nat × Bool) where
  allows conn := conn.source.any Prod.snd &&
    (Entry.mk databases users (some address) method).covered ipv4 conn
  method := String.ofList method

def reader : Reader (Nat × Bool) where
  covers := ipv4
  others
    | [kind] :: databases :: users :: [address] :: [method] :: _ =>
      if kind.text = "hostssl".toList then
        some [hostssl databases users address.text method.text]
      else none
    | _ => none

end Sample

end HbaConfig

end Pgpod
