import RecordText.Proofs.Seam
import RecordText.Text.Quoted
import Mathlib.Data.List.Basic

/-!
# Quoted text

A quoted text is read back by undoing its escapes. It stays on one line, and of
all texts without line feeds, carriage returns and tabs it is the only one that
reads back as the text that was quoted.

Inside C# text it is one string, whatever backslashes and quotes the text holds:
the string ends at the closing quote and not before. This asks for two things
only, that no mark in front makes the string verbatim, and that no quote follows
which would turn the quotes of the empty text into an opening run of three.

## Main statements

* `unquote?_quote`, `eq_quote_of_unquote?`: what reads back as a text.
* `literalTail_escape`: an escaped text does not close a string.
* `quote_reads_back_and_ends`: both together, with the place of the end.
-/

namespace RecordText

namespace Text

/-- What a quoted text stands for: the text between its outer quotes, with the escapes undone. -/
def unquote? (literal : String) : Option String :=
  match literal.toList with
  | '"' :: rest =>
    if rest.getLast? = some '"' then (unescape? rest.dropLast).map String.ofList else none
  | _ => none

/-- Whether a text has no line feeds, carriage returns and tabs. -/
def Unbroken (text : List Char) : Prop :=
  ∀ c ∈ text, c ≠ '\n' ∧ c ≠ '\r' ∧ c ≠ '\t'

instance (text : List Char) : Decidable (Unbroken text) :=
  List.decidableBAll (fun c => c ≠ '\n' ∧ c ≠ '\r' ∧ c ≠ '\t') text

theorem unbroken_append_iff (front back : List Char) :
    Unbroken (front ++ back) ↔ Unbroken front ∧ Unbroken back :=
  List.forall_mem_append

theorem unescape?_cons (c : Char) (rest : List Char) (hquote : c ≠ '"') (hslash : c ≠ '\\') :
    unescape? (c :: rest) = (unescape? rest).map (c :: ·) := by
  rw [unescape?.eq_4 c rest (fun h => (hslash h).elim) fun _ _ h => (hslash h).elim,
    if_neg hquote]

/-- What was written for a character is read back as this character. -/
theorem unescape?_escapeChar (c : Char) (rest : List Char) :
    unescape? (escapeChar c ++ rest) = (unescape? rest).map (c :: ·) := by
  unfold escapeChar
  split_ifs with hquote hslash hfeed hreturn htab
  case neg => exact unescape?_cons c rest hquote hslash
  all_goals
    subst c
    cases hrest : unescape? rest <;> simp [unescape?, unescapeChar?, hrest]

theorem unescape?_escape (text : List Char) : unescape? (escape text) = some text := by
  induction text with
  | nil => rfl
  | cons c text ih =>
      rw [escape, List.flatMap_cons, unescape?_escapeChar, ← escape, ih]
      rfl

/-- The sign behind a backslash is the one that its character is written with. -/
theorem escapeChar_of_unescapeChar? (c plain : Char) (h : unescapeChar? c = some plain) :
    escapeChar plain = ['\\', c] := by
  unfold unescapeChar? at h
  split_ifs at h
  all_goals
    subst c
    obtain rfl := Option.some.inj h
    rfl

theorem escapeChar_eq_self (c : Char) (hquote : c ≠ '"') (hslash : c ≠ '\\')
    (hlayout : c ≠ '\n' ∧ c ≠ '\r' ∧ c ≠ '\t') : escapeChar c = [c] := by
  simp [escapeChar, hquote, hslash, hlayout]

/-- Only the escaped form of a text is unbroken and reads back as the text. -/
theorem eq_escape_of_unescape? (written text : List Char) (hunbroken : Unbroken written)
    (h : unescape? written = some text) : written = escape text := by
  fun_induction unescape? written generalizing text with
  | case1 =>
      obtain rfl := Option.some.inj h
      rfl
  | case2 => cases h
  | case3 c rest ih =>
      simp only [Option.bind_eq_bind, Option.bind_eq_some_iff, Option.pure_def] at h
      obtain ⟨plain, hplain, tail, htail, heq⟩ := h
      obtain rfl := Option.some.inj heq
      have hrest : Unbroken rest := ((unbroken_append_iff ['\\', c] rest).1 hunbroken).2
      rw [escape, List.flatMap_cons, escapeChar_of_unescapeChar? c plain hplain, ← escape,
        ← ih tail hrest htail]
      rfl
  | case4 => cases h
  | case5 c rest hlast hpair hquote ih =>
      obtain ⟨tail, htail, rfl⟩ := Option.map_eq_some_iff.1 h
      have hslash : c ≠ '\\' := by
        rintro rfl
        cases rest with
        | nil => exact hlast rfl rfl
        | cons d rest => exact hpair d rest rfl rfl
      obtain ⟨hlayout, hrest⟩ := List.forall_mem_cons.1 hunbroken
      rw [escape, List.flatMap_cons, escapeChar_eq_self c hquote hslash hlayout, ← escape,
        ← ih tail hrest htail]
      rfl

theorem unbroken_escapeChar (c : Char) : Unbroken (escapeChar c) := by
  unfold escapeChar
  split_ifs with hquote hslash hfeed hreturn htab
  case neg =>
    intro d hd
    obtain rfl := List.mem_singleton.1 hd
    exact ⟨hfeed, hreturn, htab⟩
  all_goals decide

theorem unbroken_escape (text : List Char) : Unbroken (escape text) := by
  intro d hd
  obtain ⟨c, -, hc⟩ := List.mem_flatMap.1 hd
  exact unbroken_escapeChar c d hc

theorem toList_quote (text : String) :
    (quote text).toList = '"' :: (escape text.toList ++ ['"']) := by
  rw [quote, String.toList_ofList]
  rfl

theorem toList_quote_append (text : String) (behind : List Char) :
    (quote text).toList ++ behind = '"' :: (escape text.toList ++ '"' :: behind) := by
  simp [toList_quote]

theorem unquote?_quote (text : String) : unquote? (quote text) = some text := by
  simp [unquote?, toList_quote, unescape?_escape]

/-- Only the quoted form of a text is unbroken and reads back as the text. -/
theorem eq_quote_of_unquote? (literal text : String) (hunbroken : Unbroken literal.toList)
    (h : unquote? literal = some text) : literal = quote text := by
  unfold unquote? at h
  split at h
  · rename_i rest hliteral
    split at h
    · rename_i hlast
      obtain ⟨plain, hplain, rfl⟩ := Option.map_eq_some_iff.1 h
      have hrest : rest.dropLast ++ ['"'] = rest := List.dropLast_append_getLast? _ hlast
      rw [hliteral, ← hrest] at hunbroken
      have hinside : Unbroken rest.dropLast :=
        ((unbroken_append_iff _ _).1 (List.forall_mem_cons.1 hunbroken).2).1
      rw [← String.toList_inj, toList_quote, hliteral, String.toList_ofList,
        ← eq_escape_of_unescape? _ plain hinside hplain, hrest]
    · cases h
  · cases h

theorem unbroken_quote (text : String) : Unbroken (quote text).toList := by
  have hquote : Unbroken ['"'] := by decide
  rw [toList_quote, ← List.singleton_append, unbroken_append_iff, unbroken_append_iff]
  exact ⟨hquote, unbroken_escape text.toList, hquote⟩

end Text

namespace Source

open RecordText.Text

/-- What is written for a character does not end a string. -/
theorem literalTail_escapeChar (c : Char) (rest : List Char) :
    literalTail '"' (escapeChar c ++ rest) =
      (escapeChar c ++ (literalTail '"' rest).1, (literalTail '"' rest).2) := by
  unfold escapeChar
  split_ifs with hquote hslash hfeed hreturn htab
  case neg =>
    rw [List.singleton_append, literalTail_cons _ c rest hslash, if_neg hquote, if_neg hfeed]
    rfl
  all_goals rfl

/-- A string ends at the quote behind an escaped text. -/
theorem literalTail_escape (text behind : List Char) :
    literalTail '"' (escape text ++ '"' :: behind) = (escape text ++ ['"'], behind) := by
  induction text with
  | nil => rw [escape, List.flatMap_nil, List.nil_append, literalTail_cons _ _ _ (by decide),
      if_pos rfl, List.nil_append]
  | cons c text ih =>
      rw [escape, List.flatMap_cons, List.append_assoc, literalTail_escapeChar, ← escape, ih,
        List.append_assoc]

theorem head?_escapeChar (c : Char) : ∃ d ≠ '"', (escapeChar c).head? = some d := by
  unfold escapeChar
  split_ifs with hquote hslash hfeed hreturn htab
  case neg => exact ⟨c, hquote, rfl⟩
  all_goals exact ⟨'\\', by decide, rfl⟩

/-- No opening run of three quotes comes from quoting a text. -/
theorem not_two_le_quoteRun_escape (text behind : List Char) (h : behind.head? ≠ some '"') :
    ¬ 2 ≤ quoteRun (escape text ++ '"' :: behind) := by
  rw [two_le_quoteRun_iff]
  rintro ⟨rest, heq⟩
  cases text with
  | nil =>
      rw [escape, List.flatMap_nil, List.nil_append] at heq
      rw [(List.cons.inj heq).2] at h
      exact h rfl
  | cons c text =>
      obtain ⟨d, hne, hhead⟩ := head?_escapeChar c
      have hfirst := congrArg List.head? heq
      rw [escape, List.flatMap_cons, List.append_assoc, List.head?_append, hhead] at hfirst
      exact hne (Option.some.inj hfirst)

/-- The byte offset at which the string ends whose opening quote stands at a byte offset. -/
def stringEnd? (text : List Char) (start : Nat) : Option Nat :=
  match cutAt? text start with
  | some (before, '"' :: rest) =>
    some (start + byteLength (stringToken before.reverse rest).1.text)
  | _ => none

section Places

variable (front behind : List Char) (text : String)

/-- A quoted text is one string where nothing makes it verbatim or raw. -/
theorem stringToken_quote (hat : ¬ ['@'] <:+ front) (hdollar : ¬ ['@', '$'] <:+ front)
    (hbehind : behind.head? ≠ some '"') :
    stringToken front.reverse (escape text.toList ++ '"' :: behind) =
      (.trivia .string (quote text).toList, behind) := by
  have hverbatim : ¬ opensVerbatim front.reverse = true := by
    rw [opensVerbatim_iff, List.reverse_reverse]
    exact not_or.2 ⟨hat, hdollar⟩
  rw [stringToken, if_neg hverbatim, if_neg (not_two_le_quoteRun_escape _ _ hbehind),
    literalTail_escape, toList_quote]
  rfl

theorem cut_quote (hat : ¬ ['@'] <:+ front) (hdollar : ¬ ['@', '$'] <:+ front)
    (hbehind : behind.head? ≠ some '"') :
    cut front.reverse ((quote text).toList ++ behind) =
      .trivia .string (quote text).toList :: cut (front ++ (quote text).toList).reverse behind := by
  have htoken : firstToken front.reverse '"' (escape text.toList ++ '"' :: behind) =
      (.trivia .string (quote text).toList, behind) :=
    stringToken_quote front behind text hat hdollar hbehind
  rw [toList_quote_append, cut, htoken, List.reverse_append]
  rfl

theorem stringEnd?_quote (hat : ¬ ['@'] <:+ front) (hdollar : ¬ ['@', '$'] <:+ front)
    (hbehind : behind.head? ≠ some '"') :
    stringEnd? (front ++ ((quote text).toList ++ behind)) (byteLength front) =
      some (byteLength (front ++ (quote text).toList)) := by
  rw [stringEnd?, cutAt?_append, toList_quote_append]
  simp only [stringToken_quote front behind text hat hdollar hbehind, Token.text,
    byteLength_append]

end Places

/-- A quoted text is read back. It has no line feeds, carriage returns and tabs, and no other such
text reads back as the same, so no two texts are quoted alike. Where it stands in C# text, neither
behind a mark that makes a string verbatim nor in front of a quote, it is one string, which ends at
its last quote. -/
theorem quote_reads_back_and_ends (text : String) :
    unquote? (quote text) = some text ∧
    Function.Injective quote ∧
    Unbroken (quote text).toList ∧
    (∀ literal, Unbroken literal.toList → unquote? literal = some text → literal = quote text) ∧
    ∀ front behind : String, ¬ ['@'] <:+ front.toList → ¬ ['@', '$'] <:+ front.toList →
      behind.toList.head? ≠ some '"' →
      cut front.toList.reverse ((quote text).toList ++ behind.toList) =
        .trivia .string (quote text).toList ::
          cut (front ++ quote text).toList.reverse behind.toList ∧
      stringEnd? (front ++ quote text ++ behind).toList (byteLength front.toList) =
        some (byteLength (front ++ quote text).toList) := by
  have hinjective : Function.Injective quote := by
    intro first second h
    have hback := congrArg unquote? h
    rwa [unquote?_quote, unquote?_quote, Option.some.injEq] at hback
  refine ⟨unquote?_quote text, hinjective, unbroken_quote text,
    fun literal => eq_quote_of_unquote? literal text, ?_⟩
  intro front behind hat hdollar hbehind
  simp only [String.toList_append, List.append_assoc]
  exact ⟨cut_quote _ _ text hat hdollar hbehind, stringEnd?_quote _ _ text hat hdollar hbehind⟩

/-- A backslash, a quote and a line feed, quoted in front of one more string. -/
theorem quote_reads_back_and_ends_signs :
    (¬ ['@'] <:+ "s = $".toList ∧ ¬ ['@', '$'] <:+ "s = $".toList ∧
      "+\"\"".toList.head? ≠ some '"') ∧
    (Unbroken "\"\\\\\\\"\\n\"".toList ∧ unquote? "\"\\\\\\\"\\n\"" = some "\\\"\n") ∧
    quote "\\\"\n" = "\"\\\\\\\"\\n\"" ∧
    stringEnd? "s = $\"\\\\\\\"\\n\"+\"\"".toList 5 = some 13 := by
  have hfront : ¬ ['@'] <:+ "s = $".toList ∧ ¬ ['@', '$'] <:+ "s = $".toList ∧
      "+\"\"".toList.head? ≠ some '"' := by
    decide
  have hliteral : Unbroken "\"\\\\\\\"\\n\"".toList ∧
      unquote? "\"\\\\\\\"\\n\"" = some "\\\"\n" := by
    decide
  obtain ⟨-, -, -, honly, hends⟩ := quote_reads_back_and_ends "\\\"\n"
  have hquote := honly _ hliteral.1 hliteral.2
  obtain ⟨-, hend⟩ := hends "s = $" "+\"\"" hfront.1 hfront.2.1 hfront.2.2
  rw [← hquote] at hend
  exact ⟨hfront, hliteral, hquote.symm, hend⟩

/-- With one more quote, those of the empty text open a raw string. -/
example : stringEnd? "\"\"\" + 1".toList 0 = some 7 := by decide

end Source

end RecordText
