import Mathlib.Data.List.Basic
import Mathlib.Tactic.Common

/-!
# Tokens of SQL text

SQL with standard-conforming strings: a quote inside `'…'` or `"…"` is doubled,
`$tag$ … $tag$` is read to the next `$tag$`, and `--` and `/* … */` are comments,
the latter nested.  The lexer is an automaton, so what is read of a text is read
whatever follows; a quoted text is one token unless another quote follows it.
-/

namespace SqlText

inductive Token
  /-- A keyword, an unquoted name or a number. -/
  | word (text : List Char)
  | name (text : List Char)
  | literal (value : List Char)
  | dollarBody (tag body : List Char)
  | symbol (c : Char)
deriving DecidableEq, Repr

/-- Where the lexer stands within a token.  Texts are in reverse. -/
inductive Mode
  | blank
  | word (text : List Char)
  | name (text : List Char)
  | literal (value : List Char)
  /-- After a quote that is the closing one or the first of two. -/
  | nameQuote (text : List Char)
  | literalQuote (value : List Char)
  | dash
  | lineComment
  | slash
  | blockComment (depth : Nat) (last : Char)
  | dollar (tag : List Char)
  | dollarBody (tag body : List Char)
deriving DecidableEq, Repr

def isBlank (c : Char) : Bool := c == ' ' || (9 ≤ c.toNat && c.toNat ≤ 13)

def isWordStart (c : Char) : Bool := c.isAlpha || c == '_' || 128 ≤ c.toNat

def isWordChar (c : Char) : Bool := isWordStart c || c.isDigit || c == '$'

/-- The first character of a token. -/
def start (c : Char) : Mode × List Token :=
  if isBlank c then (.blank, [])
  else if isWordStart c || c.isDigit then (.word [c], [])
  else if c = '\'' then (.literal [], [])
  else if c = '"' then (.name [], [])
  else if c = '-' then (.dash, [])
  else if c = '/' then (.slash, [])
  else if c = '$' then (.dollar [], [])
  else (.blank, [.symbol c])

/-- The end of the tokens before, then the first character of one. -/
def startAfter (tokens : List Token) (c : Char) : Mode × List Token :=
  ((start c).1, tokens ++ (start c).2)

/-- What a dollar sign and a tag are when no dollar sign follows. -/
def dollarTokens (tag : List Char) : List Token :=
  .symbol '$' :: if tag.isEmpty then [] else [.word tag.reverse]

def step : Mode → Char → Mode × List Token
  | .blank, c => start c
  | .word text, c =>
    if isWordChar c then (.word (c :: text), []) else startAfter [.word text.reverse] c
  | .name text, c => if c = '"' then (.nameQuote text, []) else (.name (c :: text), [])
  | .nameQuote text, c =>
    if c = '"' then (.name ('"' :: text), []) else startAfter [.name text.reverse] c
  | .literal value, c =>
    if c = '\'' then (.literalQuote value, []) else (.literal (c :: value), [])
  | .literalQuote value, c =>
    if c = '\'' then (.literal ('\'' :: value), []) else startAfter [.literal value.reverse] c
  | .dash, c => if c = '-' then (.lineComment, []) else startAfter [.symbol '-'] c
  | .lineComment, c => if c = '\n' then (.blank, []) else (.lineComment, [])
  | .slash, c => if c = '*' then (.blockComment 0 ' ', []) else startAfter [.symbol '/'] c
  | .blockComment depth last, c =>
    if last = '*' && c = '/' then
      (if depth = 0 then .blank else .blockComment (depth - 1) ' ', [])
    else if last = '/' && c = '*' then (.blockComment (depth + 1) ' ', [])
    else (.blockComment depth c, [])
  | .dollar tag, c =>
    if c = '$' then (.dollarBody tag.reverse [], [])
    else if isWordStart c || (c.isDigit && !tag.isEmpty) then (.dollar (c :: tag), [])
    else startAfter (dollarTokens tag) c
  | .dollarBody tag body, c =>
    -- the body ends where the tag stands between two dollar signs
    if c = '$' && (tag.reverse ++ ['$']).isPrefixOf body then
      (.blank, [.dollarBody tag (body.drop (tag.length + 1)).reverse])
    else (.dollarBody tag (c :: body), [])

/-- The tokens that the end of the text completes; a quotation must be closed. -/
def finish : Mode → Option (List Token)
  | .blank | .lineComment => some []
  | .word text => some [.word text.reverse]
  | .nameQuote text => some [.name text.reverse]
  | .literalQuote value => some [.literal value.reverse]
  | .dash => some [.symbol '-']
  | .slash => some [.symbol '/']
  | .dollar tag => some (dollarTokens tag)
  | .name _ | .literal _ | .blockComment .. | .dollarBody .. => none

def run : Mode → List Char → Mode × List Token
  | m, [] => (m, [])
  | m, c :: cs => ((run (step m c).1 cs).1, (step m c).2 ++ (run (step m c).1 cs).2)

/-- The tokens of what is left, from a state within a token. -/
def lexFrom (m : Mode) (cs : List Char) : Option (List Token) :=
  (finish (run m cs).1).map ((run m cs).2 ++ ·)

/-- The tokens of a text. -/
def lex (cs : List Char) : Option (List Token) := lexFrom .blank cs

/-! ## The automaton over a concatenation -/

theorem run_append (m : Mode) (cs ds : List Char) :
    run m (cs ++ ds) = ((run (run m cs).1 ds).1, (run m cs).2 ++ (run (run m cs).1 ds).2) := by
  induction cs generalizing m with
  | nil => rfl
  | cons c cs ih => rw [List.cons_append, run, run, ih, List.append_assoc]

theorem lexFrom_append (m : Mode) (cs ds : List Char) :
    lexFrom m (cs ++ ds) = (lexFrom (run m cs).1 ds).map ((run m cs).2 ++ ·) := by
  rw [lexFrom, run_append, lexFrom, Option.map_map]
  congr 1
  funext ts
  exact List.append_assoc _ _ _

/-- A text that ends between tokens yields its tokens and leaves the rest alone. -/
theorem lex_append {cs : List Char} {ts : List Token} (h : run .blank cs = (.blank, ts))
    (ds : List Char) : lex (cs ++ ds) = (lex ds).map (ts ++ ·) := by
  rw [lex, lexFrom_append, h, lex]

/-- A completed token before a character that starts another. -/
theorem lexFrom_startAfter {m : Mode} {t : Token} {cs : List Char}
    (hend : finish m = some [t]) (hnext : ∀ c, cs.head? = some c → step m c = startAfter [t] c) :
    lexFrom m cs = (lex cs).map (t :: ·) := by
  cases cs with
  | nil =>
    rw [lexFrom, run, hend]
    rfl
  | cons c cs =>
    rw [lex, lexFrom, lexFrom, run, run, hnext c rfl, startAfter, step, Option.map_map]
    rfl

/-! ## Quotations -/

/-- The text with every `q` doubled. -/
def doubled (q : Char) (cs : List Char) : List Char := cs.flatMap fun c => if c = q then [q, q] else [c]

/-- The text between quotes. -/
def quoted (q : Char) (cs : List Char) : List Char := q :: (doubled q cs ++ [q])

theorem run_literal (value cs : List Char) :
    run (.literal value) (doubled '\'' cs) = (.literal (cs.reverse ++ value), []) := by
  induction cs generalizing value with
  | nil => rfl
  | cons c cs ih =>
    rw [doubled, List.flatMap_cons]
    by_cases hc : c = '\''
    · rw [if_pos hc, List.cons_append, List.cons_append, List.nil_append, run, run]
      simp only [step, if_pos]
      rw [← doubled, ih, hc]
      simp
    · rw [if_neg hc, List.cons_append, List.nil_append, run]
      simp only [step, if_neg hc]
      rw [← doubled, ih]
      simp

theorem run_name (text cs : List Char) :
    run (.name text) (doubled '"' cs) = (.name (cs.reverse ++ text), []) := by
  induction cs generalizing text with
  | nil => rfl
  | cons c cs ih =>
    rw [doubled, List.flatMap_cons]
    by_cases hc : c = '"'
    · rw [if_pos hc, List.cons_append, List.cons_append, List.nil_append, run, run]
      simp only [step, if_pos]
      rw [← doubled, ih, hc]
      simp
    · rw [if_neg hc, List.cons_append, List.nil_append, run]
      simp only [step, if_neg hc]
      rw [← doubled, ih]
      simp

theorem run_quoted_literal (value : List Char) :
    run .blank (quoted '\'' value) = (.literalQuote value.reverse, []) := by
  have hstart : step .blank '\'' = (.literal [], []) := by decide
  rw [quoted, run, hstart, run_append, run_literal, List.append_nil]
  rfl

theorem run_quoted_name (text : List Char) :
    run .blank (quoted '"' text) = (.nameQuote text.reverse, []) := by
  have hstart : step .blank '"' = (.name [], []) := by decide
  rw [quoted, run, hstart, run_append, run_name, List.append_nil]
  rfl

/-- **A literal is one token**, whatever it quotes, unless another quote follows. -/
theorem lex_literal (value : List Char) {cs : List Char} (h : cs.head? ≠ some '\'') :
    lex (quoted '\'' value ++ cs) = (lex cs).map (.literal value :: ·) := by
  rw [lex, lexFrom_append, run_quoted_literal]
  have hafter : lexFrom (.literalQuote value.reverse) cs = (lex cs).map (.literal value :: ·) := by
    refine lexFrom_startAfter (by simp [finish]) fun c hc => ?_
    have hne : c ≠ '\'' := by
      rintro rfl
      exact h hc
    simp only [step, if_neg hne, List.reverse_reverse]
  rw [hafter, Option.map_map]
  rfl

/-- **A quoted name is one token.** -/
theorem lex_name (text : List Char) {cs : List Char} (h : cs.head? ≠ some '"') :
    lex (quoted '"' text ++ cs) = (lex cs).map (.name text :: ·) := by
  rw [lex, lexFrom_append, run_quoted_name]
  have hafter : lexFrom (.nameQuote text.reverse) cs = (lex cs).map (.name text :: ·) := by
    refine lexFrom_startAfter (by simp [finish]) fun c hc => ?_
    have hne : c ≠ '"' := by
      rintro rfl
      exact h hc
    simp only [step, if_neg hne, List.reverse_reverse]
  rw [hafter, Option.map_map]
  rfl

theorem head?_append_ne {q : Char} {cs : List Char} (h : cs.head?.any (· ≠ q)) (ds : List Char) :
    (cs ++ ds).head? ≠ some q := by
  cases cs with
  | nil => cases h
  | cons c cs =>
    intro hq
    rw [List.cons_append, List.head?_cons, Option.some.injEq] at hq
    simp [hq] at h

theorem lex_name_append (text : List Char) {cs : List Char} {ts : List Token}
    (hhead : cs.head?.any (· ≠ '"')) (h : run .blank cs = (.blank, ts)) (ds : List Char) :
    lex (quoted '"' text ++ (cs ++ ds)) = (lex ds).map (.name text :: ts ++ ·) := by
  rw [lex_name text (head?_append_ne hhead ds), lex_append h, Option.map_map]
  rfl

/-! ## Dollar quotes -/

/-- The tag between its dollar signs. -/
def dollars (tag : List Char) : List Char := '$' :: (tag ++ ['$'])

theorem run_dollarBody (tag body cs : List Char) (h : '$' ∉ cs) :
    run (.dollarBody tag body) cs = (.dollarBody tag (cs.reverse ++ body), []) := by
  induction cs generalizing body with
  | nil => rfl
  | cons c cs ih =>
    rw [List.mem_cons, not_or] at h
    have hstep : step (.dollarBody tag body) c = (.dollarBody tag (c :: body), []) := by
      simp [step, Ne.symm h.1]
    rw [run, hstep, ih _ h.2]
    simp

/-- **A dollar-quoted text is one token**, if it has no dollar sign. -/
theorem lex_dollars {tag body : List Char} (htag : run .blank (dollars tag) = (.dollarBody tag [], []))
    (hfree : '$' ∉ tag) (hbody : '$' ∉ body) (cs : List Char) :
    lex (dollars tag ++ body ++ dollars tag ++ cs) = (lex cs).map (.dollarBody tag body :: ·) := by
  have hopen : run (.dollarBody tag body.reverse) ['$'] = (.dollarBody tag ('$' :: body.reverse), []) := by
    have hnot : (tag.reverse ++ ['$']).isPrefixOf body.reverse = false := by
      rw [Bool.eq_false_iff]
      intro hprefix
      have hmem : '$' ∈ body.reverse :=
        (List.isPrefixOf_iff_prefix.mp hprefix).subset (by simp)
      exact hbody (by simpa using hmem)
    simp [run, step, hnot]
  have hclose : run (.dollarBody tag (tag.reverse ++ '$' :: body.reverse)) ['$'] =
      (.blank, [.dollarBody tag body]) := by
    have hprefix : (tag.reverse ++ ['$']).isPrefixOf (tag.reverse ++ '$' :: body.reverse) = true := by
      rw [List.isPrefixOf_iff_prefix]
      exact ⟨body.reverse, by simp⟩
    have hdrop : (tag.reverse ++ '$' :: body.reverse).drop (tag.length + 1) = body.reverse := by
      rw [List.drop_append]
      simp
    simp [run, step, hprefix, hdrop]
  have hwhole : run .blank (dollars tag ++ body ++ dollars tag) = (.blank, [.dollarBody tag body]) := by
    rw [run_append, run_append, htag, run_dollarBody _ _ _ hbody]
    have hdollars : dollars tag = ['$'] ++ (tag ++ ['$']) := rfl
    rw [hdollars, run_append, List.append_nil, hopen, run_append, run_dollarBody _ _ _ hfree, hclose]
    rfl
  rw [lex_append hwhole]
  rfl

end SqlText
