import RecordText.Text.Blank
import RecordText.Text.Offset

/-!
# Tokens of C# text

C# text is cut into tokens: comments, preprocessor lines and literals, which
are trivia to an outline, and single characters of code. Trivia may be
unfinished: a block comment, a verbatim or a raw string then runs to the end of
the text, while an ordinary string or character literal stops before the end of
its line.

Masking keeps the code and replaces every other character except line feeds by
as many spaces as it has bytes, so that all byte offsets stay valid.

## Implementation notes

A tail function reads a token from behind its opening signs and returns what
belongs to the token and what follows it. The cut passes the text before the
current position along, in reverse: a quote is verbatim if an at sign stands
before it, and a number sign starts a preprocessor line only behind blanks.
-/

namespace RecordText.Source

open RecordText.Text

/-- The kinds of text that an outline does not look into. -/
inductive TriviaKind where
  | lineComment
  | blockComment
  | directive
  | verbatimString
  | rawString
  | string
  | character
  deriving DecidableEq, Repr

/-- A token: trivia of some kind, or one character of code. -/
inductive Token where
  | trivia (kind : TriviaKind) (text : List Char)
  | code (c : Char)
  deriving DecidableEq, Repr

/-- The text of a token. -/
def Token.text : Token → List Char
  | trivia _ text => text
  | code c => [c]

/-- A text cut in two. -/
abbrev Cut := List Char × List Char

/-- Move one character into the first part of a cut. -/
def Cut.cons (c : Char) (cut : Cut) : Cut :=
  (c :: cut.1, cut.2)

@[simp] theorem Cut.cons_fst (c : Char) (cut : Cut) : (cut.cons c).1 = c :: cut.1 := rfl

@[simp] theorem Cut.cons_snd (c : Char) (cut : Cut) : (cut.cons c).2 = cut.2 := rfl

/-- The rest of the line, without the line feed. -/
def lineTail (text : List Char) : Cut :=
  (text.takeWhile (· ≠ '\n'), text.dropWhile (· ≠ '\n'))

/-- Up to and including the first star followed by a slash. -/
def blockTail : List Char → Cut
  | [] => ([], [])
  | '*' :: '/' :: rest => (['*', '/'], rest)
  | c :: rest => (blockTail rest).cons c

/-- Up to and including the first quote that is not the first of a pair. -/
def verbatimTail : List Char → Cut
  | [] => ([], [])
  | '"' :: '"' :: rest => ((verbatimTail rest).cons '"').cons '"'
  | '"' :: rest => (['"'], rest)
  | c :: rest => (verbatimTail rest).cons c

/-- Up to and including the first whole run of at least `quotes` quotes, `run` being the number of
quotes directly before the text. -/
def rawTail (quotes : Nat) : (run : Nat) → List Char → Cut
  | _, [] => ([], [])
  | run, c :: rest =>
    if c = '"' then (rawTail quotes (run + 1) rest).cons c
    else if quotes ≤ run then ([], c :: rest)
    else (rawTail quotes 0 rest).cons c

/-- Up to and including the first delimiter, or up to the first line feed; a backslash takes the
character after it along. -/
def literalTail (delimiter : Char) : List Char → Cut
  | [] => ([], [])
  | '\\' :: c :: rest => ((literalTail delimiter rest).cons c).cons '\\'
  | c :: rest =>
    if c = delimiter then ([c], rest)
    else if c = '\n' then ([], c :: rest)
    else (literalTail delimiter rest).cons c

/-- Whether only indentation stands between the last line feed and the position, given the text
before the position in reverse. -/
def atLineStart (before : List Char) : Bool :=
  (before.takeWhile (· ≠ '\n')).all isIndentChar

/-- Whether a quote behind this text, given in reverse, opens a verbatim string. -/
def opensVerbatim : List Char → Bool
  | '@' :: _ => true
  | '$' :: '@' :: _ => true
  | _ => false

/-- The number of quotes at the front. -/
def quoteRun (text : List Char) : Nat :=
  (text.takeWhile (· = '"')).length

/-- The string that starts with a quote, given the text before the quote, in reverse, and the text
behind it. -/
def stringToken (before rest : List Char) : Token × List Char :=
  if opensVerbatim before then
    let cut := (verbatimTail rest).cons '"'
    (.trivia .verbatimString cut.1, cut.2)
  else if 2 ≤ quoteRun rest then
    let quotes := rest.takeWhile (· = '"')
    let cut := rawTail (quotes.length + 1) 0 (rest.dropWhile (· = '"'))
    (.trivia .rawString ('"' :: quotes ++ cut.1), cut.2)
  else
    let cut := (literalTail '"' rest).cons '"'
    (.trivia .string cut.1, cut.2)

/-- The first token of `c :: rest`, given the text before it in reverse, and what follows it. -/
def firstToken (before : List Char) (c : Char) (rest : List Char) : Token × List Char :=
  match c, rest with
  | '/', '/' :: _ =>
    let cut := (lineTail rest).cons c
    (.trivia .lineComment cut.1, cut.2)
  | '/', '*' :: inside =>
    let cut := ((blockTail inside).cons '*').cons c
    (.trivia .blockComment cut.1, cut.2)
  | '#', _ =>
    if atLineStart before then
      let cut := (lineTail rest).cons c
      (.trivia .directive cut.1, cut.2)
    else (.code c, rest)
  | '"', _ => stringToken before rest
  | '\'', _ =>
    let cut := (literalTail '\'' rest).cons c
    (.trivia .character cut.1, cut.2)
  | _, _ => (.code c, rest)

theorem lineTail_append (text : List Char) : (lineTail text).1 ++ (lineTail text).2 = text := by
  simp only [lineTail, List.takeWhile_append_dropWhile]

theorem blockTail_append (text : List Char) : (blockTail text).1 ++ (blockTail text).2 = text := by
  fun_induction blockTail text with
  | case1 => rfl
  | case2 rest => rfl
  | case3 c rest _ ih => simp [ih]

theorem verbatimTail_append (text : List Char) :
    (verbatimTail text).1 ++ (verbatimTail text).2 = text := by
  fun_induction verbatimTail text with
  | case1 => rfl
  | case2 rest ih => simp [ih]
  | case3 rest _ => rfl
  | case4 c rest _ _ ih => simp [ih]

theorem rawTail_append (quotes run : Nat) (text : List Char) :
    (rawTail quotes run text).1 ++ (rawTail quotes run text).2 = text := by
  fun_induction rawTail quotes run text with
  | case1 => rfl
  | case2 run rest ih => simp [ih]
  | case3 run c rest _ _ => rfl
  | case4 run c rest _ _ ih => simp [ih]

theorem literalTail_append (delimiter : Char) (text : List Char) :
    (literalTail delimiter text).1 ++ (literalTail delimiter text).2 = text := by
  fun_induction literalTail delimiter text with
  | case1 => rfl
  | case2 c rest ih => simp [ih]
  | case3 rest _ => rfl
  | case4 rest _ _ => rfl
  | case5 c rest _ _ _ ih => simp [ih]

theorem stringToken_append (before rest : List Char) :
    (stringToken before rest).1.text ++ (stringToken before rest).2 = '"' :: rest := by
  unfold stringToken
  split
  · simp [Token.text, verbatimTail_append]
  · split
    · simp [Token.text, rawTail_append, List.takeWhile_append_dropWhile]
    · simp [Token.text, literalTail_append]

/-- The first token and what follows it make up the text. -/
theorem firstToken_append (before : List Char) (c : Char) (rest : List Char) :
    (firstToken before c rest).1.text ++ (firstToken before c rest).2 = c :: rest := by
  unfold firstToken
  split
  · simp [Token.text, lineTail_append]
  · simp [Token.text, blockTail_append]
  · split
    · simp [Token.text, lineTail_append]
    · simp [Token.text]
  · exact stringToken_append before _
  · simp [Token.text, literalTail_append]
  · simp [Token.text]

/-- No token is empty. -/
theorem firstToken_text_ne_nil (before : List Char) (c : Char) (rest : List Char) :
    (firstToken before c rest).1.text ≠ [] := by
  unfold firstToken
  split
  · simp [Token.text]
  · simp [Token.text]
  · split <;> simp [Token.text]
  · unfold stringToken
    split
    · simp [Token.text]
    · split <;> simp [Token.text]
  · simp [Token.text]
  · simp [Token.text]

theorem firstToken_length_lt (before : List Char) (c : Char) (rest : List Char) :
    (firstToken before c rest).2.length < (c :: rest).length := by
  have happend := congrArg List.length (firstToken_append before c rest)
  have hpos := List.length_pos_iff.2 (firstToken_text_ne_nil before c rest)
  rw [List.length_append] at happend
  omega

/-- Cut a text into tokens, given the text before it in reverse. -/
def cut (before text : List Char) : List Token :=
  match text with
  | [] => []
  | c :: rest =>
    (firstToken before c rest).1 ::
      cut ((firstToken before c rest).1.text.reverse ++ before) (firstToken before c rest).2
termination_by text.length
decreasing_by exact firstToken_length_lt before c rest

/-- The tokens make up the text. -/
theorem cut_flatten (before text : List Char) : (cut before text).flatMap Token.text = text := by
  fun_induction cut before text with
  | case1 => rfl
  | case2 before c rest ih => simp [ih, firstToken_append]

/-- A masked character: a line feed stays, any other becomes as many spaces as it has bytes. -/
def blankOut (c : Char) : List Char :=
  if c = '\n' then ['\n'] else List.replicate c.utf8Size ' '

/-- A token with its trivia masked. -/
def Token.masked : Token → List Char
  | trivia _ text => text.flatMap blankOut
  | code c => [c]

/-- The text with its trivia masked. -/
def mask (text : List Char) : List Char :=
  (cut [] text).flatMap Token.masked

theorem byteLength_replicate_space (n : Nat) : byteLength (List.replicate n ' ') = n := by
  induction n with
  | zero => rfl
  | succ n ih =>
      rw [List.replicate_succ, byteLength, ih]
      have : ' '.utf8Size = 1 := by decide
      omega

theorem byteLength_blankOut (c : Char) : byteLength (blankOut c) = c.utf8Size := by
  unfold blankOut
  split
  · rename_i h
    subst h
    decide
  · exact byteLength_replicate_space c.utf8Size

theorem byteLength_flatMap_blankOut (text : List Char) :
    byteLength (text.flatMap blankOut) = byteLength text := by
  induction text with
  | nil => rfl
  | cons c rest ih => simp [byteLength, ih, byteLength_blankOut]

theorem Token.byteLength_masked (token : Token) :
    byteLength token.masked = byteLength token.text := by
  cases token with
  | trivia kind text => exact byteLength_flatMap_blankOut text
  | code c => rfl

/-- Masking keeps the number of bytes. -/
theorem byteLength_mask (text : List Char) : byteLength (mask text) = byteLength text := by
  have h : ∀ tokens : List Token,
      byteLength (tokens.flatMap Token.masked) = byteLength (tokens.flatMap Token.text) := by
    intro tokens
    induction tokens with
    | nil => rfl
    | cons token rest ih => simp [ih, Token.byteLength_masked]
  rw [mask, h, cut_flatten]

end RecordText.Source
