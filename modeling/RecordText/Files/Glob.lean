import RecordText.Text.Slashes

/-!
# Wildcard patterns

A pattern describes paths. A question mark stands for one character, a star for
any number of characters of a name, two stars alone between slashes for any
number of directories, and a class in brackets for one of its characters, or
for one that is not in it if an exclamation mark comes first. A closing bracket
in first place belongs to the class. All other characters stand for themselves.

## Main definitions

* `Glob.tokens` reads a pattern or says where it is malformed.
* `Glob.matchesName` decides whether a pattern fits a name.
* `Glob.Query.parse` reads a pattern name by name.
-/

namespace RecordText.Files.Glob

/-- What one place of a pattern stands for. -/
inductive Token where
  | char (c : Char)
  | anyChar
  | anyRun
  | anyDirectories
  | oneOf (ranges : List (Char × Char))
  | noneOf (ranges : List (Char × Char))
  deriving DecidableEq, Repr

/-- What is wrong with a pattern. -/
inductive Problem where
  | starRun
  | looseStars
  | openClass
  deriving DecidableEq, Repr

/-- The words for a problem. -/
def Problem.message : Problem → String
  | starRun => "wildcards are either regular `*` or recursive `**`"
  | looseStars => "recursive wildcards must form a single path component"
  | openClass => "invalid range pattern"

/-- A problem with its place in the pattern, counted in characters. -/
structure Malformed where
  position : Nat
  problem : Problem
  deriving DecidableEq, Repr

/-- The text that reports a malformed pattern. -/
def Malformed.message (malformed : Malformed) : String :=
  "Pattern syntax error near position " ++ toString malformed.position ++ ": " ++
    malformed.problem.message

/-- The ranges of a class; a hyphen between two characters makes a range of them. -/
def ranges : List Char → List (Char × Char)
  | [] => []
  | low :: '-' :: high :: rest => (low, high) :: ranges rest
  | c :: rest => (c, c) :: ranges rest

/-- Cut a text at its first closing bracket. -/
def cutAtBracket? : List Char → Option (List Char × List Char)
  | [] => none
  | c :: rest =>
    if c = ']' then some ([], rest)
    else (cutAtBracket? rest).map fun cut => (c :: cut.1, cut.2)

/-- What stands behind the bracket is shorter than the text. -/
theorem length_lt_of_cutAtBracket? (text inside rest : List Char)
    (h : cutAtBracket? text = some (inside, rest)) : rest.length < text.length := by
  induction text generalizing inside with
  | nil => simp [cutAtBracket?] at h
  | cons c more ih =>
      rw [cutAtBracket?] at h
      split at h
      · obtain ⟨_, rfl⟩ : [] = inside ∧ more = rest := by simpa using h
        simp
      · obtain ⟨cut, hcut, heq⟩ := Option.map_eq_some_iff.1 h
        obtain ⟨rfl, rfl⟩ := Prod.mk.inj heq
        have := ih cut.1 hcut
        simp only [List.length_cons]
        omega

/-- The class that starts behind an opening bracket, the number of its characters, and the pattern
behind it. -/
def class? (text : List Char) : Option (Token × Nat × { rest : List Char // rest.length < text.length }) :=
  match text with
  | '!' :: first :: more =>
    match h : cutAtBracket? more with
    | some (inside, rest) =>
      some (.noneOf (ranges (first :: inside)), inside.length + 3,
        ⟨rest, by
          have := length_lt_of_cutAtBracket? more inside rest h
          simp only [List.length_cons]
          omega⟩)
    | none => none
  | first :: more =>
    match h : cutAtBracket? more with
    | some (inside, rest) =>
      some (.oneOf (ranges (first :: inside)), inside.length + 2,
        ⟨rest, by
          have := length_lt_of_cutAtBracket? more inside rest h
          simp only [List.length_cons]
          omega⟩)
    | none => none
  | [] => none

/-- Read a pattern from a position on, behind the character `previous`. -/
def tokensFrom (position : Nat) (previous : Option Char) (pattern : List Char) :
    Except Malformed (List Token) :=
  match pattern with
  | [] => .ok []
  | '?' :: rest => do
    return .anyChar :: (← tokensFrom (position + 1) (some '?') rest)
  | '*' :: '*' :: '*' :: _ => .error { position := position + 2, problem := .starRun }
  | '*' :: '*' :: rest =>
    if previous.any (· != '/') then .error { position := position - 1, problem := .looseStars }
    else
      match rest with
      | [] => .ok [.anyDirectories]
      | c :: more =>
        if c = '/' then do
          return .anyDirectories :: (← tokensFrom (position + 3) (some '/') more)
        else .error { position := position + 2, problem := .looseStars }
  | '*' :: rest => do
    return .anyRun :: (← tokensFrom (position + 1) (some '*') rest)
  | '[' :: rest =>
    match class? rest with
    | none => .error { position, problem := .openClass }
    | some (token, length, more) => do
      return token :: (← tokensFrom (position + 1 + length) (some ']') more.1)
  | c :: rest => do
    return .char c :: (← tokensFrom (position + 1) (some c) rest)
termination_by pattern.length
decreasing_by
  all_goals simp only [List.length_cons]
  all_goals (try have := more.2)
  all_goals omega

/-- Read a pattern. -/
def tokens (pattern : List Char) : Except Malformed (List Token) :=
  tokensFrom 0 none pattern

/-- Whether a character lies in one of some ranges. -/
def inRanges (ranges : List (Char × Char)) (c : Char) : Bool :=
  ranges.any fun range => range.1 ≤ c && c ≤ range.2

/-- Whether a token that stands for one character stands for this one. -/
def Token.accepts (token : Token) (c : Char) : Bool :=
  match token with
  | char d => c = d
  | anyChar => true
  | oneOf ranges => inRanges ranges c
  | noneOf ranges => !inRanges ranges c
  | anyRun => false
  | anyDirectories => false

/-- Whether a token stands for any number of characters of a name. -/
def Token.isRun : Token → Bool
  | anyRun => true
  | anyDirectories => true
  | _ => false

/-- Whether a sequence of tokens fits a name as a whole. -/
def matchesName (tokens : List Token) (name : List Char) : Bool :=
  match tokens, name with
  | [], [] => true
  | [], _ :: _ => false
  | token :: more, [] => token.isRun && matchesName more []
  | token :: more, c :: rest =>
    if token.isRun then matchesName more (c :: rest) || matchesName (token :: more) rest
    else token.accepts c && matchesName more rest
termination_by tokens.length + name.length

/-- One name of a pattern. -/
inductive Component where
  | literal (name : String)
  | directories
  | wild (tokens : List Token)
  deriving DecidableEq, Repr

/-- The characters of tokens that all stand for themselves. -/
def literal? : List Token → Option (List Char)
  | [] => some []
  | .char c :: rest => (literal? rest).map (c :: ·)
  | _ :: _ => none

/-- The component that the tokens between two slashes make. -/
def Component.ofTokens (tokens : List Token) : Component :=
  if tokens = [.anyDirectories] then directories
  else
    match literal? tokens with
    | some name => literal (String.ofList name)
    | none => wild tokens

/-- Read components one after the other. -/
def readComponents : List (List Char) → Except Malformed (List Component)
  | [] => .ok []
  | piece :: rest => do
    let first ← tokens piece
    return .ofTokens first :: (← readComponents rest)

/-- The pieces of a pattern between its slashes, without an empty one at the end. -/
def pieces (pattern : List Char) : List (List Char) :=
  let all := Text.cutAtSlashes pattern
  if all.getLast? = some [] then all.dropLast else all

/-- A pattern cut into the path at which a search starts and the names to look for from there. -/
structure Query where
  start : String
  components : List Component
  /-- Whether only directories are asked for. -/
  directoriesOnly : Bool
  deriving DecidableEq, Repr

/-- Read a pattern name by name; the pattern has to be well formed as a whole, too. -/
def Query.parse (pattern : List Char) : Except Malformed Query := do
  let _ ← tokens pattern
  let (start, names) := match pattern with
    | '/' :: names => ("/", names)
    | names => (".", names)
  let components ← readComponents (pieces names)
  return { start, components, directoriesOnly := pattern.getLast? = some '/' }

/-- Whether a text has a character that makes it a pattern. A brace does so as well, although it
stands for itself. -/
def isPattern (text : String) : Bool :=
  text.toList.any fun c => c = '*' || c = '?' || c = '[' || c = '\x7b'

end RecordText.Files.Glob
