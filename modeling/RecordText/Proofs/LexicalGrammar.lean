import RecordText.Proofs.OpaqueTrivia
import RecordText.Proofs.Utf8Bytes

/-!
# The lexical grammar in bytes

The grammar of comments, preprocessor lines and literals, stated on the bytes of
a text and without reference to how a text is cut. It says which trivia opens at
a place, given the bytes before it, and how far trivia of each kind goes. Where
no trivia opens there is one byte of code.

## Main statements

* `Opens.unique`: at most one kind of trivia opens at a place.
* `Extent.unique`: trivia of a kind ends at one place only.
* `Lexes.unique`: so there is at most one way to cut bytes into tokens.

## Implementation notes

That two pieces of trivia at one place are the same is shown by comparing their
ends: neither can run longer than the other.
-/

namespace RecordText.Source

open RecordText.Text

/-- A token of a text in bytes: trivia of some kind, or one byte of code. -/
inductive ByteToken where
  | trivia (kind : TriviaKind) (bytes : List UInt8)
  | code (b : UInt8)
  deriving DecidableEq, Repr

/-- The bytes of a token. -/
def ByteToken.bytes : ByteToken → List UInt8
  | trivia _ bytes => bytes
  | code b => [b]

/-- A masked byte: a line feed stays, any other becomes a space. -/
def blankByte (b : UInt8) : UInt8 :=
  if b = '\n'.toUInt8 then b else ' '.toUInt8

/-- The bytes of a token with its trivia masked. -/
def ByteToken.masked : ByteToken → List UInt8
  | trivia _ bytes => bytes.map blankByte
  | code b => [b]

/-- Whether a line ends in front of some bytes: a line feed comes first, or there are none. -/
def EndsLine (after : List UInt8) : Prop :=
  ∀ b ∈ after.head?, b = '\n'.toUInt8

/-- Whether only spaces and tabs stand at the end of some bytes behind the last line feed. -/
def StartsLine (before : List UInt8) : Prop :=
  ∃ front blanks, before = front ++ blanks ∧ (∀ b ∈ front.getLast?, b = '\n'.toUInt8) ∧
    ∀ b ∈ blanks, b = ' '.toUInt8 ∨ b = '\t'.toUInt8

/-- Whether some bytes end with a mark that makes the string behind them verbatim. -/
def EndsVerbatim (before : List UInt8) : Prop :=
  utf8Bytes ['@'] <:+ before ∨ utf8Bytes ['@', '$'] <:+ before

/-- Whether trivia of a kind opens at the start of a text, given the bytes before it. -/
def Opens (before : List UInt8) (kind : TriviaKind) (text : List UInt8) : Prop :=
  match kind with
  | .lineComment => utf8Bytes ['/', '/'] <+: text
  | .blockComment => utf8Bytes ['/', '*'] <+: text
  | .directive => utf8Bytes ['#'] <+: text ∧ StartsLine before
  | .verbatimString => utf8Bytes ['"'] <+: text ∧ EndsVerbatim before
  | .rawString => utf8Bytes ['"', '"', '"'] <+: text ∧ ¬ EndsVerbatim before
  | .string =>
    utf8Bytes ['"'] <+: text ∧ ¬ utf8Bytes ['"', '"', '"'] <+: text ∧ ¬ EndsVerbatim before
  | .character => utf8Bytes ['\''] <+: text

/-- What stands in a verbatim string: every quote is the first or the second of a pair. -/
inductive PairedQuotes : List UInt8 → Prop
  | nil : PairedQuotes []
  | other (b : UInt8) (rest : List UInt8) (hb : b ≠ '"'.toUInt8) (h : PairedQuotes rest) :
    PairedQuotes (b :: rest)
  | pair (rest : List UInt8) (h : PairedQuotes rest) :
    PairedQuotes ('"'.toUInt8 :: '"'.toUInt8 :: rest)

/-- What stands in a literal: a backslash takes the byte behind it along, and no other byte is the
delimiter or a line feed. -/
inductive Unclosed (delimiter : UInt8) : List UInt8 → Prop
  | nil : Unclosed delimiter []
  | plain (b : UInt8) (rest : List UInt8)
    (hb : b ≠ '\\'.toUInt8 ∧ b ≠ delimiter ∧ b ≠ '\n'.toUInt8) (h : Unclosed delimiter rest) :
    Unclosed delimiter (b :: rest)
  | escape (b : UInt8) (rest : List UInt8) (h : Unclosed delimiter rest) :
    Unclosed delimiter ('\\'.toUInt8 :: b :: rest)

/-- Whether a literal is exactly this piece in front of what follows it: it ends with the first
delimiter that no backslash takes along, or else in front of the first such line feed or at the end
of the text. -/
inductive LiteralExtent (delimiter : UInt8) : (piece after : List UInt8) → Prop
  | closed (body after : List UInt8) (hbody : Unclosed delimiter body) :
    LiteralExtent delimiter (delimiter :: (body ++ [delimiter])) after
  | brokenOff (body after : List UInt8) (hbody : Unclosed delimiter body)
    (hafter : EndsLine after) : LiteralExtent delimiter (delimiter :: body) after
  | backslashLast (body : List UInt8) (hbody : Unclosed delimiter body) :
    LiteralExtent delimiter (delimiter :: (body ++ ['\\'.toUInt8])) []

/-- Whether trivia of a kind is exactly this piece in front of what follows it. -/
inductive Extent : TriviaKind → (piece after : List UInt8) → Prop
  | lineComment (body after : List UInt8) (hbody : '\n'.toUInt8 ∉ body) (hafter : EndsLine after) :
    Extent .lineComment (utf8Bytes ['/', '/'] ++ body) after
  | blockComment (body after : List UInt8)
    (hbody : ¬ utf8Bytes ['*', '/'] <:+: body ++ ['*'.toUInt8]) :
    Extent .blockComment (utf8Bytes ['/', '*'] ++ (body ++ utf8Bytes ['*', '/'])) after
  | openBlockComment (body : List UInt8) (hbody : ¬ utf8Bytes ['*', '/'] <:+: body) :
    Extent .blockComment (utf8Bytes ['/', '*'] ++ body) []
  | directive (body after : List UInt8) (hbody : '\n'.toUInt8 ∉ body) (hafter : EndsLine after) :
    Extent .directive (utf8Bytes ['#'] ++ body) after
  | verbatimString (body after : List UInt8) (hbody : PairedQuotes body)
    (hafter : after.head? ≠ some '"'.toUInt8) :
    Extent .verbatimString (utf8Bytes ['"'] ++ (body ++ utf8Bytes ['"'])) after
  | openVerbatimString (body : List UInt8) (hbody : PairedQuotes body) :
    Extent .verbatimString (utf8Bytes ['"'] ++ body) []
  | rawString (quotes closing : Nat) (body after : List UInt8) (hquotes : 3 ≤ quotes)
    (hclosing : quotes ≤ closing) (hbody : ¬ List.replicate quotes '"'.toUInt8 <:+: body)
    (hne : body ≠ []) (hhead : body.head? ≠ some '"'.toUInt8)
    (hlast : body.getLast? ≠ some '"'.toUInt8) (hafter : after.head? ≠ some '"'.toUInt8) :
    Extent .rawString
      (List.replicate quotes '"'.toUInt8 ++ (body ++ List.replicate closing '"'.toUInt8)) after
  | openRawString (quotes : Nat) (body : List UInt8) (hquotes : 3 ≤ quotes)
    (hbody : ¬ List.replicate quotes '"'.toUInt8 <:+: body)
    (hhead : body.head? ≠ some '"'.toUInt8) :
    Extent .rawString (List.replicate quotes '"'.toUInt8 ++ body) []
  | string (piece after : List UInt8) (h : LiteralExtent '"'.toUInt8 piece after) :
    Extent .string piece after
  | character (piece after : List UInt8) (h : LiteralExtent '\''.toUInt8 piece after) :
    Extent .character piece after

/-- The ways to cut a text into tokens from left to right, given the bytes before it. -/
inductive Lexes : (before text : List UInt8) → List ByteToken → Prop
  | nil (before : List UInt8) : Lexes before [] []
  | trivia {before text piece after : List UInt8} {kind : TriviaKind} {tokens : List ByteToken}
    (htext : text = piece ++ after) (hopens : Opens before kind text)
    (hextent : Extent kind piece after) (hrest : Lexes (before ++ piece) after tokens) :
    Lexes before text (.trivia kind piece :: tokens)
  | code {before after : List UInt8} {b : UInt8} {tokens : List ByteToken}
    (hopens : ∀ kind, ¬ Opens before kind (b :: after))
    (hrest : Lexes (before ++ [b]) after tokens) :
    Lexes before (b :: after) (.code b :: tokens)

/-- The kind of trivia fixes its first byte. -/
theorem Opens.head?_eq {before text : List UInt8} {kind : TriviaKind}
    (h : Opens before kind text) : text.head? = some kind.opening.toUInt8 := by
  have hprefix : ∀ (b : UInt8) (signs : List UInt8), b :: signs <+: text → text.head? = some b := by
    rintro b signs ⟨rest, rfl⟩
    rfl
  cases kind with
  | lineComment => exact hprefix _ _ h
  | blockComment => exact hprefix _ _ h
  | directive => exact hprefix _ _ h.1
  | verbatimString => exact hprefix _ _ h.1
  | rawString => exact hprefix _ _ h.1
  | string => exact hprefix _ _ h.1
  | character => exact hprefix _ _ h

theorem not_opens_nil (before : List UInt8) (kind : TriviaKind) : ¬ Opens before kind [] := by
  intro h
  cases h.head?_eq

/-- A slash opens one kind of comment. -/
theorem not_both_comments (text : List UInt8) (hline : utf8Bytes ['/', '/'] <+: text)
    (hblock : utf8Bytes ['/', '*'] <+: text) : False := by
  obtain ⟨rest, rfl⟩ := hline
  obtain ⟨rest', heq⟩ := hblock
  have hsecond : '*'.toUInt8 = '/'.toUInt8 := (List.cons.inj (List.cons.inj heq).2).1
  exact absurd hsecond (by decide)

/-- At most one kind of trivia opens at a place. -/
theorem Opens.unique {before text : List UInt8} {kind kind' : TriviaKind}
    (h : Opens before kind text) (h' : Opens before kind' text) : kind = kind' := by
  have hsign : kind.opening.toUInt8 = kind'.opening.toUInt8 :=
    Option.some.inj (h.head?_eq.symm.trans h'.head?_eq)
  cases kind with
  | lineComment =>
      cases kind' with
      | lineComment => rfl
      | blockComment => exact (not_both_comments text h h').elim
      | _ => exact absurd hsign (by decide)
  | blockComment =>
      cases kind' with
      | lineComment => exact (not_both_comments text h' h).elim
      | blockComment => rfl
      | _ => exact absurd hsign (by decide)
  | directive =>
      cases kind' with
      | directive => rfl
      | _ => exact absurd hsign (by decide)
  | verbatimString =>
      cases kind' with
      | verbatimString => rfl
      | rawString => exact absurd h.2 h'.2
      | string => exact absurd h.2 h'.2.2
      | _ => exact absurd hsign (by decide)
  | rawString =>
      cases kind' with
      | verbatimString => exact absurd h'.2 h.2
      | rawString => rfl
      | string => exact absurd h.1 h'.2.1
      | _ => exact absurd hsign (by decide)
  | string =>
      cases kind' with
      | verbatimString => exact absurd h'.2 h.2.2
      | rawString => exact absurd h'.1 h.2.1
      | string => rfl
      | _ => exact absurd hsign (by decide)
  | character =>
      cases kind' with
      | character => rfl
      | _ => exact absurd hsign (by decide)

theorem PairedQuotes.of_other {b : UInt8} {rest : List UInt8} (h : PairedQuotes (b :: rest))
    (hb : b ≠ '"'.toUInt8) : PairedQuotes rest := by
  cases h with
  | other _ _ _ hrest => exact hrest
  | pair _ _ => exact absurd rfl hb

/-- A pair of quotes cannot be split by a quote that closes the string. -/
theorem PairedQuotes.not_append {body : List UInt8} (hbody : PairedQuotes body) (b : UInt8)
    (more : List UInt8) (hb : b ≠ '"'.toUInt8) :
    ¬ PairedQuotes (body ++ '"'.toUInt8 :: b :: more) := by
  induction hbody with
  | nil =>
      intro h
      cases h with
      | other _ _ hquote _ => exact hquote rfl
      | pair _ _ => exact hb rfl
  | other c rest hc _ ih =>
      intro h
      exact ih (h.of_other hc)
  | pair rest _ ih =>
      intro h
      cases h with
      | other _ _ hquote _ => exact hquote rfl
      | pair _ hrest => exact ih hrest

theorem Unclosed.of_plain {delimiter b : UInt8} {rest : List UInt8}
    (h : Unclosed delimiter (b :: rest)) (hb : b ≠ '\\'.toUInt8) : Unclosed delimiter rest := by
  cases h with
  | plain _ _ _ hrest => exact hrest
  | escape _ _ _ => exact absurd rfl hb

/-- A sign that ends a literal cannot stand in the literal. -/
theorem Unclosed.not_append {delimiter : UInt8} {body : List UInt8}
    (hbody : Unclosed delimiter body) (b : UInt8) (more : List UInt8) (hb : b ≠ '\\'.toUInt8)
    (hends : b = delimiter ∨ b = '\n'.toUInt8) : ¬ Unclosed delimiter (body ++ b :: more) := by
  induction hbody with
  | nil =>
      intro h
      cases h with
      | plain _ _ hplain _ => exact hends.elim hplain.2.1 hplain.2.2
      | escape _ _ _ => exact hb rfl
  | plain c rest hc _ ih =>
      intro h
      exact ih (h.of_plain hc.1)
  | escape c rest _ ih =>
      intro h
      cases h with
      | plain _ _ hplain _ => exact hplain.1 rfl
      | escape _ _ hrest => exact ih hrest

/-- A sign in front of the last one, or in the last place but another sign than the one there,
stands in the list without its last place. -/
theorem exists_append_of_append_eq {α : Type} (body front more : List α) (last b : α)
    (h : body ++ [last] = front ++ b :: more) (hb : b = last → more ≠ []) :
    ∃ more', body = front ++ b :: more' := by
  rcases List.eq_nil_or_concat more with rfl | ⟨more', last', rfl⟩
  · have hlast := congrArg List.getLast? h
    simp only [List.getLast?_append, List.getLast?_singleton, Option.some_or,
      Option.some.injEq] at hlast
    exact absurd rfl (hb hlast.symm)
  · refine ⟨more', ?_⟩
    have hcut : body ++ [last] = (front ++ b :: more') ++ [last'] := by simpa using h
    exact (List.append_inj' hcut rfl).1

/-- A literal holds no sign that ends it before its last place. -/
theorem LiteralExtent.not_ends_inside {delimiter sign : UInt8} {body rest after : List UInt8}
    (h : LiteralExtent delimiter (delimiter :: (body ++ sign :: rest)) after)
    (hbody : Unclosed delimiter body) (hsign : sign ≠ '\\'.toUInt8)
    (hends : sign = delimiter ∨ sign = '\n'.toUInt8) (hrest : sign = delimiter → rest ≠ []) :
    False := by
  generalize hwhole : delimiter :: (body ++ sign :: rest) = whole at h
  cases h with
  | closed body' after hbody' =>
      have hcut := (List.cons.inj hwhole).2.symm
      obtain ⟨rest', rfl⟩ := exists_append_of_append_eq _ _ _ _ _ hcut hrest
      exact hbody.not_append sign rest' hsign hends hbody'
  | brokenOff body' after hbody' _ =>
      rw [← (List.cons.inj hwhole).2] at hbody'
      exact hbody.not_append sign rest hsign hends hbody'
  | backslashLast body' hbody' =>
      have hcut := (List.cons.inj hwhole).2.symm
      obtain ⟨rest', rfl⟩ :=
        exists_append_of_append_eq _ _ _ _ _ hcut fun hsame => absurd hsame hsign
      exact hbody.not_append sign rest' hsign hends hbody'

/-- A literal cannot run longer than to its end. -/
theorem LiteralExtent.not_longer {delimiter : UInt8} {piece longer after after' more : List UInt8}
    {b : UInt8} (hdelimiter : delimiter ≠ '\\'.toUInt8 ∧ delimiter ≠ '\n'.toUInt8)
    (h : LiteralExtent delimiter piece after) (h' : LiteralExtent delimiter longer after')
    (hlonger : longer = piece ++ b :: more) (hafter : after.head? = some b) : False := by
  subst hlonger
  cases h with
  | closed body after hbody =>
      rw [List.cons_append, List.append_assoc] at h'
      exact h'.not_ends_inside hbody hdelimiter.1 (Or.inl rfl) fun _ => List.cons_ne_nil b more
  | brokenOff body after hbody hfeed =>
      obtain rfl : b = '\n'.toUInt8 := hfeed b hafter
      exact h'.not_ends_inside hbody (by decide) (Or.inr rfl)
        fun hsame => absurd hsame.symm hdelimiter.2
  | backslashLast body hbody => cases hafter

/-- A run of one sign goes as far as it can. -/
theorem replicate_append_inj {α : Type} (n n' : Nat) (a : α) (back back' : List α)
    (h : List.replicate n a ++ back = List.replicate n' a ++ back')
    (hback : back.head? ≠ some a) (hback' : back'.head? ≠ some a) : n = n' ∧ back = back' := by
  induction n generalizing n' with
  | zero =>
      cases n' with
      | zero => exact ⟨rfl, h⟩
      | succ n' =>
          rw [List.replicate_zero, List.nil_append] at h
          rw [h, List.replicate_succ] at hback
          exact absurd rfl hback
  | succ n ih =>
      cases n' with
      | zero =>
          rw [List.replicate_zero, List.nil_append] at h
          rw [← h, List.replicate_succ] at hback'
          exact absurd rfl hback'
      | succ n' =>
          rw [List.replicate_succ, List.replicate_succ, List.cons_append, List.cons_append] at h
          obtain ⟨rfl, hrest⟩ := ih n' (List.cons.inj h).2
          exact ⟨rfl, hrest⟩

/-- A run of quotes in front of another sign stands in every text that goes on with this sign. -/
theorem replicate_infix_of_append_eq {α : Type} (quotes closing closing' : Nat) (a b : α)
    (body body' more : List α) (hclosing : quotes ≤ closing) (hb : b ≠ a)
    (h : body' ++ List.replicate closing' a = (body ++ List.replicate closing a) ++ b :: more) :
    List.replicate quotes a <:+: body' := by
  have hrun : List.replicate quotes a <:+: List.replicate closing a := by
    refine ⟨[], List.replicate (closing - quotes) a, ?_⟩
    rw [List.nil_append, List.replicate_append_replicate, Nat.add_sub_cancel' hclosing]
  rcases List.append_eq_append_iff.1 h with ⟨more', -, hrest⟩ | ⟨more', hbody', -⟩
  · have hmem : b ∈ List.replicate closing' a := by
      rw [hrest]
      simp
    exact absurd (List.eq_of_mem_replicate hmem) hb
  · rw [hbody']
    exact hrun.trans ⟨body, more', by simp⟩

/-- A rest of a line cannot run longer than to the end of the line. -/
theorem EndsLine.not_longer {opening body body' after more : List UInt8} {b : UInt8}
    (h : EndsLine after) (hafter : after.head? = some b) (hbody : '\n'.toUInt8 ∉ body')
    (hlonger : opening ++ body' = (opening ++ body) ++ b :: more) : False := by
  rw [List.append_assoc] at hlonger
  rw [List.append_cancel_left hlonger, h b hafter] at hbody
  simp at hbody

/-- Trivia of a kind cannot run longer than to its end. -/
theorem Extent.not_longer {kind : TriviaKind} {piece longer after after' more : List UInt8}
    {b : UInt8} (h : Extent kind piece after) (h' : Extent kind longer after')
    (hlonger : longer = piece ++ b :: more) (hafter : after.head? = some b) : False := by
  cases h with
  | lineComment body after _ hends =>
      cases h' with
      | lineComment body' after' hbody' _ => exact hends.not_longer hafter hbody' hlonger
  | directive body after _ hends =>
      cases h' with
      | directive body' after' hbody' _ => exact hends.not_longer hafter hbody' hlonger
  | blockComment body after _ =>
      cases h' with
      | blockComment body' after' hbody' =>
          have hend : utf8Bytes ['*', '/'] = ['*'.toUInt8, '/'.toUInt8] := rfl
          apply hbody'
          rw [List.append_assoc, hend] at hlonger
          have hcut : (body' ++ ['*'.toUInt8]) ++ ['/'.toUInt8] =
              (body ++ ['*'.toUInt8]) ++ '/'.toUInt8 :: b :: more := by
            simpa using List.append_cancel_left hlonger
          obtain ⟨front, hfront⟩ := exists_append_of_append_eq _ _ _ _ _ hcut
            fun _ => List.cons_ne_nil b more
          rw [hfront, hend]
          exact ⟨body, front, by simp⟩
      | openBlockComment body' hbody' =>
          apply hbody'
          rw [List.append_assoc] at hlonger
          rw [List.append_cancel_left hlonger]
          exact ⟨body, b :: more, by simp⟩
  | openBlockComment body _ => cases hafter
  | verbatimString body after hbody hquote =>
      have hb : b ≠ '"'.toUInt8 := by
        rintro rfl
        exact hquote hafter
      cases h' with
      | verbatimString body' after' hbody' _ =>
          rw [List.append_assoc] at hlonger
          have hcut : body' ++ ['"'.toUInt8] = (body ++ ['"'.toUInt8]) ++ b :: more :=
            List.append_cancel_left hlonger
          obtain ⟨more', rfl⟩ :=
            exists_append_of_append_eq _ _ _ _ _ hcut fun hsame => absurd hsame hb
          rw [List.append_assoc] at hbody'
          exact hbody.not_append b more' hb hbody'
      | openVerbatimString body' hbody' =>
          rw [List.append_assoc, List.append_assoc] at hlonger
          rw [List.append_cancel_left hlonger] at hbody'
          exact hbody.not_append b more hb hbody'
  | openVerbatimString body _ => cases hafter
  | rawString quotes closing body after _ hclosing _ hne hhead _ hquote =>
      have hb : b ≠ '"'.toUInt8 := by
        rintro rfl
        exact hquote hafter
      obtain ⟨c, tail, rfl⟩ := List.exists_cons_of_ne_nil hne
      rw [List.append_assoc] at hlonger
      cases h' with
      | rawString quotes' closing' body' after' _ _ hbody' hne' hhead' _ _ =>
          obtain ⟨c', tail', rfl⟩ := List.exists_cons_of_ne_nil hne'
          obtain ⟨rfl, hcut⟩ := replicate_append_inj _ _ _ _ _ hlonger hhead' hhead
          exact hbody' (replicate_infix_of_append_eq _ _ _ _ _ _ _ _ hclosing hb hcut)
      | openRawString quotes' body' _ hbody' hhead' =>
          obtain ⟨rfl, hcut⟩ := replicate_append_inj _ _ _ _ _ hlonger hhead' hhead
          apply hbody'
          apply replicate_infix_of_append_eq _ closing 0 _ _ (c :: tail) _ more hclosing hb
          rw [hcut]
          simp
  | openRawString quotes body _ _ _ => cases hafter
  | string piece after hliteral =>
      cases h' with
      | string longer after' hliteral' =>
          exact hliteral.not_longer (by decide) hliteral' hlonger hafter
  | character piece after hliteral =>
      cases h' with
      | character longer after' hliteral' =>
          exact hliteral.not_longer (by decide) hliteral' hlonger hafter

/-- Trivia of a kind ends at one place only. -/
theorem Extent.unique {kind : TriviaKind} {piece piece' after after' : List UInt8}
    (h : Extent kind piece after) (h' : Extent kind piece' after')
    (heq : piece ++ after = piece' ++ after') : piece = piece' ∧ after = after' := by
  rcases List.append_eq_append_iff.1 heq with ⟨more, hlonger, hafter⟩ | ⟨more, hlonger, hafter⟩
  · cases more with
    | nil => exact ⟨by simpa using hlonger.symm, by simpa using hafter⟩
    | cons b more => exact (h.not_longer h' hlonger (by rw [hafter]; rfl)).elim
  · cases more with
    | nil => exact ⟨by simpa using hlonger, by simpa using hafter.symm⟩
    | cons b more => exact (h'.not_longer h hlonger (by rw [hafter]; rfl)).elim

/-- There is at most one way to cut bytes into tokens. -/
theorem Lexes.unique {before text : List UInt8} {tokens tokens' : List ByteToken}
    (h : Lexes before text tokens) (h' : Lexes before text tokens') : tokens = tokens' := by
  induction h generalizing tokens' with
  | nil before =>
      cases h' with
      | nil => rfl
      | trivia _ hopens _ _ => exact absurd hopens (not_opens_nil _ _)
  | @trivia before text piece after kind tokens htext hopens hextent _ ih =>
      cases h' with
      | nil => exact absurd hopens (not_opens_nil _ _)
      | trivia htext' hopens' hextent' hrest' =>
          obtain rfl := hopens.unique hopens'
          obtain ⟨rfl, rfl⟩ := hextent.unique hextent' (htext.symm.trans htext')
          rw [ih hrest']
      | code hnone _ => exact absurd hopens (hnone kind)
  | code hnone _ ih =>
      cases h' with
      | trivia _ hopens' _ _ => exact absurd hopens' (hnone _)
      | code _ hrest' => rw [ih hrest']

/-- The tokens make up the bytes. -/
theorem Lexes.flatMap_bytes {before text : List UInt8} {tokens : List ByteToken}
    (h : Lexes before text tokens) : tokens.flatMap ByteToken.bytes = text := by
  induction h with
  | nil => rfl
  | trivia htext _ _ _ ih => rw [List.flatMap_cons, ih, htext, ByteToken.bytes]
  | code _ _ ih => rw [List.flatMap_cons, ih, ByteToken.bytes, List.singleton_append]

end RecordText.Source
