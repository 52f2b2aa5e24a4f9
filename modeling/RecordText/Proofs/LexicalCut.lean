import RecordText.Proofs.LexicalGrammar
import Mathlib.Data.List.Forall2

/-!
# The cut follows the lexical grammar

The tokens into which a text is cut, read as bytes, are a cut of the bytes of
the text by the lexical grammar, the only one there is. The mask of the text is
therefore what the grammar says: the bytes of the text, with every byte of
trivia but the line feeds replaced by a space.

## Implementation notes

A backslash takes one character along in the text and one byte in the grammar.
The bytes of a character behind its first one are no signs that end a literal,
so both come to the same end.
-/

namespace RecordText.Source

open RecordText.Text

/-- A token as tokens of bytes: a character of code is as many of them as it has bytes. -/
def Token.inBytes : Token → List ByteToken
  | trivia kind text => [.trivia kind (utf8Bytes text)]
  | code c => (String.utf8EncodeChar c).map .code

/-- A character that is not a sign of the first 128 code points has no byte of this sign. -/
theorem ne_of_mem_utf8EncodeChar (a c : Char) (ha : isAscii a = true) (hc : c ≠ a) (b : UInt8)
    (hb : b ∈ String.utf8EncodeChar c) : b ≠ a.toUInt8 := by
  rintro rfl
  exact hc (eq_of_mem_utf8EncodeChar a c ha hb)

theorem endsLine_utf8Bytes (text : List Char) (h : ∀ c ∈ text.head?, c = '\n') :
    EndsLine (utf8Bytes text) := by
  cases text with
  | nil => simp [EndsLine]
  | cons c rest =>
      obtain rfl : c = '\n' := h c rfl
      intro b hb
      exact (Option.some.inj hb).symm

/-- Where only blanks stand behind the last line feed, the last byte is this line feed or one of the
blanks. -/
theorem StartsLine.last {bytes : List UInt8} {b : UInt8} (h : StartsLine (bytes ++ [b])) :
    b = '\n'.toUInt8 ∨ (b = ' '.toUInt8 ∨ b = '\t'.toUInt8) ∧ StartsLine bytes := by
  obtain ⟨front, blanks, hbytes, hfront, hblanks⟩ := h
  rcases List.eq_nil_or_concat blanks with rfl | ⟨blanks, blank, rfl⟩
  · left
    apply hfront b
    rw [← List.append_nil front, ← hbytes]
    exact List.getLast?_concat
  · right
    have hcut : bytes ++ [b] = (front ++ blanks) ++ [blank] := by simpa using hbytes
    obtain ⟨rfl, hlast⟩ := List.append_inj' hcut rfl
    obtain rfl := (List.cons.inj hlast).1
    exact ⟨hblanks b (by simp), front, blanks, rfl, hfront, fun d hd => hblanks d (by simp [hd])⟩

/-- The last character behind which a line starts is a sign, since the last byte is one. -/
theorem isAscii_of_startsLine (bytes : List UInt8) (c : Char)
    (h : StartsLine (bytes ++ String.utf8EncodeChar c)) : isAscii c = true := by
  cases hc : isAscii c with
  | true => rfl
  | false =>
      obtain ⟨more, b, hlast⟩ :=
        (List.eq_nil_or_concat (String.utf8EncodeChar c)).resolve_left String.utf8EncodeChar_ne_nil
      have hle := le_of_mem_utf8EncodeChar c hc b (by rw [hlast]; simp)
      rw [hlast, List.concat_eq_append, ← List.append_assoc] at h
      rcases h.last with rfl | ⟨rfl | rfl, -⟩ <;> exact absurd hle (by decide)

theorem atLineStart_of_startsLine (before : List Char)
    (h : StartsLine (utf8Bytes before.reverse)) : atLineStart before = true := by
  induction before with
  | nil => rfl
  | cons c before ih =>
      rw [List.reverse_cons, utf8Bytes_append, utf8Bytes_cons, utf8Bytes_nil, List.append_nil] at h
      have hc := isAscii_of_startsLine _ c h
      rw [utf8EncodeChar_of_isAscii c hc] at h
      have hindent : ∀ blank, isAscii blank = true → isIndentChar blank = true →
          c.toUInt8 = blank.toUInt8 → StartsLine (utf8Bytes before.reverse) →
          atLineStart (c :: before) = true := by
        intro blank hblank hindent hsame hrest
        obtain rfl := toUInt8_inj_of_isAscii c blank hc hblank hsame
        have hfeed : c ≠ '\n' := by
          rintro rfl
          exact absurd hindent (by decide)
        have hstart := ih hrest
        unfold atLineStart at hstart ⊢
        rw [List.takeWhile_cons_of_pos (by simpa using hfeed), List.all_cons, hindent, hstart]
        rfl
      rcases h.last with hfeed | ⟨hspace | htab, hrest⟩
      · rw [toUInt8_inj_of_isAscii c '\n' hc (by decide) hfeed]
        rfl
      · exact hindent ' ' (by decide) (by decide) hspace hrest
      · exact hindent '\t' (by decide) (by decide) htab hrest

theorem startsLine_of_atLineStart (before : List Char) (h : atLineStart before = true) :
    StartsLine (utf8Bytes before.reverse) := by
  have hcut := List.takeWhile_append_dropWhile (p := (· ≠ '\n')) (l := before)
  refine ⟨utf8Bytes (before.dropWhile (· ≠ '\n')).reverse,
    utf8Bytes (before.takeWhile (· ≠ '\n')).reverse, ?_, ?_, ?_⟩
  · rw [← utf8Bytes_append, ← List.reverse_append, hcut]
  · have hhead := List.head?_dropWhile_not (· ≠ '\n') before
    cases hdrop : before.dropWhile (· ≠ '\n') with
    | nil => simp
    | cons c rest =>
        rw [hdrop] at hhead
        obtain rfl : c = '\n' := by simpa using hhead
        have hfeed : utf8Bytes ['\n'] = ['\n'.toUInt8] := rfl
        rw [List.reverse_cons, utf8Bytes_append, hfeed, List.getLast?_concat]
        intro b hb
        exact (Option.some.inj hb).symm
  · intro b hb
    obtain ⟨c, hc, hbc⟩ := List.mem_flatMap.1 hb
    have hindent := List.all_eq_true.1 h c (List.mem_reverse.1 hc)
    simp only [isIndentChar, Bool.or_eq_true, beq_iff_eq] at hindent
    rcases hindent with rfl | rfl
    · exact Or.inl (List.mem_singleton.1 hbc)
    · exact Or.inr (List.mem_singleton.1 hbc)

/-- Only indentation stands before a place on its line exactly if this holds of the bytes. -/
theorem startsLine_utf8Bytes_iff (before : List Char) :
    StartsLine (utf8Bytes before.reverse) ↔ atLineStart before = true :=
  ⟨atLineStart_of_startsLine before, startsLine_of_atLineStart before⟩

/-- A quote is verbatim behind a text exactly if it is behind the bytes. -/
theorem endsVerbatim_utf8Bytes_iff (before : List Char) :
    EndsVerbatim (utf8Bytes before.reverse) ↔ opensVerbatim before = true := by
  rw [EndsVerbatim, utf8Bytes_isSuffix_iff _ _ _ (by decide),
    utf8Bytes_isSuffix_iff _ _ _ (by decide), opensVerbatim_iff]

theorem feed_not_mem_lineTail (text : List Char) :
    '\n'.toUInt8 ∉ utf8Bytes (lineTail text).1 := by
  rw [mem_utf8Bytes_iff _ '\n' (by decide)]
  intro hmem
  have hfeed := List.mem_takeWhile_imp hmem
  simp at hfeed

theorem endsLine_lineTail (text : List Char) : EndsLine (utf8Bytes (lineTail text).2) := by
  apply endsLine_utf8Bytes
  intro c hc
  have hhead := List.head?_dropWhile_not (· ≠ '\n') text
  rw [show (text.dropWhile (· ≠ '\n')).head? = some c from hc] at hhead
  simpa using hhead

/-- A block comment goes to the first star in front of a slash, or it has none. -/
theorem blockTail_form (text : List Char) :
    (∃ body, (blockTail text).1 = body ++ ['*', '/'] ∧ ¬ ['*', '/'] <:+: body ++ ['*']) ∨
      (blockTail text).2 = [] ∧ ¬ ['*', '/'] <:+: (blockTail text).1 := by
  fun_induction blockTail text with
  | case1 => exact Or.inr ⟨rfl, by simp⟩
  | case2 rest => exact Or.inl ⟨[], rfl, by decide⟩
  | case3 c rest hpair ih =>
      have hfirst : ∀ back, (blockTail rest).1 <+: back → 2 ≤ (c :: (blockTail rest).1).length →
          ¬ ['*', '/'] <+: c :: back := by
        rintro back ⟨more, rfl⟩ hlength hend
        obtain ⟨d, tail, hd⟩ := List.exists_cons_of_length_pos (Nat.lt_of_succ_le
          (Nat.le_of_succ_le_succ hlength))
        rw [hd, List.cons_append, List.cons_prefix_cons, List.cons_prefix_cons] at hend
        obtain ⟨rfl, rfl, -⟩ := hend
        have hrest := blockTail_append rest
        rw [hd] at hrest
        exact hpair _ rfl hrest.symm
      rcases ih with ⟨body, hbody, hnone⟩ | ⟨hrest, hnone⟩
      · refine Or.inl ⟨c :: body, by rw [Cut.cons_fst, hbody]; rfl, ?_⟩
        rw [List.cons_append, List.infix_cons_iff, not_or]
        refine ⟨?_, hnone⟩
        intro hend
        apply hfirst (body ++ ['*', '/']) (hbody ▸ List.prefix_rfl) (by rw [hbody]; simp)
        exact hend.trans ⟨['/'], by simp⟩
      · refine Or.inr ⟨hrest, ?_⟩
        rw [Cut.cons_fst, List.infix_cons_iff, not_or]
        refine ⟨?_, hnone⟩
        intro hend
        have hlength := hend.length_le
        exact hfirst _ List.prefix_rfl (by simpa using hlength) hend

theorem extent_blockComment (inside : List Char) :
    Extent .blockComment (utf8Bytes ('/' :: '*' :: (blockTail inside).1))
      (utf8Bytes (blockTail inside).2) := by
  have hopening : ∀ body, utf8Bytes ('/' :: '*' :: body) = utf8Bytes ['/', '*'] ++ utf8Bytes body :=
    fun body => utf8Bytes_append ['/', '*'] body
  rw [hopening]
  rcases blockTail_form inside with ⟨body, hbody, hnone⟩ | ⟨hrest, hnone⟩
  · rw [hbody, utf8Bytes_append]
    apply Extent.blockComment
    intro hend
    apply hnone
    apply isInfix_of_utf8Bytes '*' ['/'] _ (by decide)
    rw [utf8Bytes_append]
    exact hend
  · rw [hrest]
    apply Extent.openBlockComment
    intro hend
    exact hnone (isInfix_of_utf8Bytes '*' ['/'] _ (by decide) hend)

theorem PairedQuotes.append {bytes rest : List UInt8} (h : PairedQuotes rest)
    (hbytes : ∀ b ∈ bytes, b ≠ '"'.toUInt8) : PairedQuotes (bytes ++ rest) := by
  induction bytes with
  | nil => exact h
  | cons b bytes ih =>
      exact .other b _ (hbytes b (by simp)) (ih fun d hd => hbytes d (by simp [hd]))

theorem PairedQuotes.append_char {text : List Char} (h : PairedQuotes (utf8Bytes text)) (c : Char)
    (hc : c ≠ '"') : PairedQuotes (utf8Bytes (c :: text)) := by
  rw [utf8Bytes_cons]
  exact h.append (ne_of_mem_utf8EncodeChar '"' c (by decide) hc)

/-- A verbatim string goes to the first quote that is not the first of a pair, or it has none. -/
theorem verbatimTail_form (text : List Char) :
    (∃ body, (verbatimTail text).1 = body ++ ['"'] ∧ PairedQuotes (utf8Bytes body) ∧
        (verbatimTail text).2.head? ≠ some '"') ∨
      (verbatimTail text).2 = [] ∧ PairedQuotes (utf8Bytes (verbatimTail text).1) := by
  fun_induction verbatimTail text with
  | case1 => exact Or.inr ⟨rfl, .nil⟩
  | case2 rest ih =>
      rcases ih with ⟨body, hbody, hpaired, hhead⟩ | ⟨hrest, hpaired⟩
      · exact Or.inl ⟨'"' :: '"' :: body, by simp [hbody], .pair _ hpaired, hhead⟩
      · exact Or.inr ⟨hrest, .pair _ hpaired⟩
  | case3 rest hsingle =>
      refine Or.inl ⟨[], rfl, .nil, ?_⟩
      intro hhead
      obtain ⟨tail, htail⟩ := List.head?_eq_some_iff.1 hhead
      exact hsingle tail htail
  | case4 c rest _ hc ih =>
      have hne : c ≠ '"' := fun heq => hc heq
      rcases ih with ⟨body, hbody, hpaired, hhead⟩ | ⟨hrest, hpaired⟩
      · exact Or.inl ⟨c :: body, by simp [hbody], hpaired.append_char c hne, hhead⟩
      · exact Or.inr ⟨hrest, hpaired.append_char c hne⟩

theorem extent_verbatimString (rest : List Char) :
    Extent .verbatimString (utf8Bytes ('"' :: (verbatimTail rest).1))
      (utf8Bytes (verbatimTail rest).2) := by
  have hopening : ∀ body, utf8Bytes ('"' :: body) = utf8Bytes ['"'] ++ utf8Bytes body :=
    fun body => utf8Bytes_append ['"'] body
  rw [hopening]
  rcases verbatimTail_form rest with ⟨body, hbody, hpaired, hhead⟩ | ⟨hrest, hpaired⟩
  · rw [hbody, utf8Bytes_append]
    apply Extent.verbatimString _ _ hpaired
    rw [Ne, head?_utf8Bytes_eq_iff _ '"' (by decide)]
    exact hhead
  · rw [hrest]
    exact .openVerbatimString _ hpaired

/-- What has no room for a sign does not go over it. -/
theorem not_infix_append_cons {α : Type} (signs front back : List α) (c : α) (hc : c ∉ signs)
    (hfront : ¬ signs <:+: front) (hback : ¬ signs <:+: back) :
    ¬ signs <:+: front ++ c :: back := by
  rintro ⟨before, after, heq⟩
  rw [List.append_assoc] at heq
  rcases List.append_eq_append_iff.1 heq with ⟨more, hmore, hrest⟩ | ⟨more, -, hrest⟩
  · apply hfront
    rcases List.append_eq_append_iff.1 hrest with ⟨more', hmore', -⟩ | ⟨more', hsigns, hafter⟩
    · exact ⟨before, more', by rw [hmore, hmore', List.append_assoc]⟩
    · cases more' with
      | nil => exact ⟨before, [], by rw [hmore, hsigns]; simp⟩
      | cons d more' =>
          obtain ⟨rfl, -⟩ := List.cons.inj hafter
          exact absurd (by rw [hsigns]; simp) hc
  · cases more with
    | nil =>
        cases signs with
        | nil => exact hfront List.nil_infix
        | cons d signs =>
            obtain ⟨rfl, -⟩ := List.cons.inj hrest
            exact absurd (by simp) hc
    | cons d more =>
        rw [List.cons_append] at hrest
        obtain ⟨-, hmore⟩ := List.cons.inj hrest
        exact hback ⟨more, after, by rw [hmore, List.append_assoc]⟩

theorem not_replicate_infix (n run : Nat) (a : Char) (hrun : run < n) :
    ¬ List.replicate n a <:+: List.replicate run a := by
  intro h
  have hlength := h.length_le
  rw [List.length_replicate, List.length_replicate] at hlength
  omega

/-- A raw string goes through the first whole run of enough quotes, or it has none; the quotes of
the run that stand before the text count. -/
theorem rawTail_form (quotes run : Nat) (text : List Char) :
    (∃ body closing, (rawTail quotes run text).1 = body ++ List.replicate closing '"' ∧
        body.getLast? ≠ some '"' ∧ (rawTail quotes run text).2.head? ≠ some '"' ∧
        (body = [] → quotes ≤ run + closing) ∧
        (body ≠ [] → quotes ≤ closing ∧
          ¬ List.replicate quotes '"' <:+: List.replicate run '"' ++ body)) ∨
      (rawTail quotes run text).2 = [] ∧
        ¬ List.replicate quotes '"' <:+: List.replicate run '"' ++ (rawTail quotes run text).1 := by
  have hrun : ∀ run (body : List Char), List.replicate run '"' ++ '"' :: body =
      List.replicate (run + 1) '"' ++ body := by
    intro run body
    rw [List.replicate_succ', List.append_assoc, List.singleton_append]
  fun_induction rawTail quotes run text with
  | case1 run =>
      by_cases henough : quotes ≤ run
      · exact Or.inl ⟨[], 0, rfl, by simp, by simp, fun _ => henough, fun h => absurd rfl h⟩
      · refine Or.inr ⟨rfl, ?_⟩
        rw [List.append_nil]
        exact not_replicate_infix quotes run '"' (Nat.lt_of_not_le henough)
  | case2 run rest ih =>
      rcases ih with ⟨body, closing, hbody, hlast, hhead, hnil, hcons⟩ | ⟨hrest, hnone⟩
      · by_cases hempty : body = []
        · subst hempty
          refine Or.inl ⟨[], closing + 1, ?_, by simp, hhead, ?_, fun h => absurd rfl h⟩
          · rw [Cut.cons_fst, hbody, List.replicate_succ]
            rfl
          · intro _
            have hle := hnil rfl
            omega
        · obtain ⟨hclosing, hnone⟩ := hcons hempty
          refine Or.inl ⟨'"' :: body, closing, by rw [Cut.cons_fst, hbody]; rfl, ?_, hhead,
            fun h => absurd h (List.cons_ne_nil _ _), fun _ => ⟨hclosing, ?_⟩⟩
          · obtain ⟨d, tail, rfl⟩ := List.exists_cons_of_ne_nil hempty
            simpa using hlast
          · rw [hrun]
            exact hnone
      · refine Or.inr ⟨hrest, ?_⟩
        rw [Cut.cons_fst, hrun]
        exact hnone
  | case3 run c rest hc henough =>
      exact Or.inl ⟨[], 0, rfl, by simp, by simpa using hc, fun _ => henough,
        fun h => absurd rfl h⟩
  | case4 run c rest hc henough ih =>
      have hout : c ∉ List.replicate quotes '"' := fun hmem => hc (List.eq_of_mem_replicate hmem)
      have hfront := not_replicate_infix quotes run '"' (Nat.lt_of_not_le henough)
      rcases ih with ⟨body, closing, hbody, hlast, hhead, hnil, hcons⟩ | ⟨hrest, hnone⟩
      · have hnone : quotes ≤ closing ∧ ¬ List.replicate quotes '"' <:+: body := by
          by_cases hempty : body = []
          · subst hempty
            exact ⟨by simpa using hnil rfl, not_replicate_infix quotes 0 '"' (by omega)⟩
          · simpa using hcons hempty
        refine Or.inl ⟨c :: body, closing, by rw [Cut.cons_fst, hbody]; rfl, ?_, hhead,
          fun h => absurd h (List.cons_ne_nil _ _), fun _ => ⟨hnone.1, ?_⟩⟩
        · cases body with
          | nil => simpa using hc
          | cons d body => simpa using hlast
        · exact not_infix_append_cons _ _ _ c hout hfront hnone.2
      · exact Or.inr ⟨hrest, not_infix_append_cons _ _ _ c hout hfront (by simpa using hnone)⟩

theorem extent_rawString (rest : List Char) (hrun : 2 ≤ quoteRun rest) :
    let quotes := rest.takeWhile (· = '"')
    let tail := rawTail (quotes.length + 1) 0 (rest.dropWhile (· = '"'))
    Extent .rawString (utf8Bytes ('"' :: quotes ++ tail.1)) (utf8Bytes tail.2) := by
  intro quotes tail
  have hquotes : quotes = List.replicate quotes.length '"' := by
    apply List.eq_replicate_of_mem
    intro c hc
    simpa using List.mem_takeWhile_imp hc
  have hopening : utf8Bytes ('"' :: quotes ++ tail.1) =
      List.replicate (quotes.length + 1) '"'.toUInt8 ++ utf8Bytes tail.1 := by
    have hrun : '"' :: quotes = List.replicate (quotes.length + 1) '"' := by
      rw [List.replicate_succ, ← hquotes]
    rw [utf8Bytes_append, hrun, utf8Bytes_replicate _ _ (by decide)]
  have hlength : 3 ≤ quotes.length + 1 := Nat.succ_le_succ hrun
  have hhead : ∀ body, body <+: tail.1 → body.head? ≠ some '"' := by
    rintro body ⟨more, hmore⟩ hquote
    obtain ⟨behind, rfl⟩ := List.head?_eq_some_iff.1 hquote
    have hinside : tail.1 ++ tail.2 = rest.dropWhile (· = '"') := rawTail_append _ _ _
    have hnot := List.head?_dropWhile_not (· = '"') rest
    rw [← hinside, ← hmore] at hnot
    simp at hnot
  rw [hopening]
  rcases rawTail_form (quotes.length + 1) 0 (rest.dropWhile (· = '"')) with
    ⟨body, closing, hbody, hlast, hafter, hnil, hcons⟩ | ⟨hrest, hfree⟩
  · change tail.1 = _ at hbody
    have hne : body ≠ [] := by
      rintro rfl
      have hclosing := hnil rfl
      obtain ⟨more, hmore⟩ := Nat.exists_eq_add_of_le' (show 1 ≤ closing by omega)
      apply hhead tail.1 List.prefix_rfl
      rw [hbody, hmore, List.replicate_succ]
      rfl
    obtain ⟨hclosing, hfree⟩ := hcons hne
    rw [hbody, utf8Bytes_append, utf8Bytes_replicate _ _ (by decide)]
    apply Extent.rawString _ _ _ _ hlength hclosing
    · intro hin
      apply hfree
      simpa using replicate_isInfix_of_utf8Bytes _ '"' body (by decide) hin
    · rwa [Ne, utf8Bytes_eq_nil_iff]
    · rw [Ne, head?_utf8Bytes_eq_iff _ '"' (by decide)]
      exact hhead body ⟨_, hbody.symm⟩
    · exact fun hquote => hlast (getLast?_of_utf8Bytes body '"' (by decide) hquote)
    · rw [Ne, head?_utf8Bytes_eq_iff _ '"' (by decide)]
      exact hafter
  · change tail.2 = [] at hrest
    rw [hrest]
    apply Extent.openRawString _ _ hlength
    · intro hin
      apply hfree
      simpa using replicate_isInfix_of_utf8Bytes _ '"' tail.1 (by decide) hin
    · rw [Ne, head?_utf8Bytes_eq_iff _ '"' (by decide)]
      exact hhead tail.1 List.prefix_rfl

theorem Unclosed.append {delimiter : UInt8} {bytes rest : List UInt8}
    (h : Unclosed delimiter rest)
    (hbytes : ∀ b ∈ bytes, b ≠ '\\'.toUInt8 ∧ b ≠ delimiter ∧ b ≠ '\n'.toUInt8) :
    Unclosed delimiter (bytes ++ rest) := by
  induction bytes with
  | nil => exact h
  | cons b bytes ih =>
      exact .plain b _ (hbytes b (by simp)) (ih fun d hd => hbytes d (by simp [hd]))

/-- A backslash takes a whole character along, though it is only known to take one byte. -/
theorem Unclosed.escape_char {delimiter : Char} {rest : List UInt8}
    (h : Unclosed delimiter.toUInt8 rest) (hdelimiter : isAscii delimiter = true) (c : Char) :
    Unclosed delimiter.toUInt8 ('\\'.toUInt8 :: String.utf8EncodeChar c ++ rest) := by
  cases hc : isAscii c with
  | true =>
      rw [utf8EncodeChar_of_isAscii c hc]
      exact .escape _ _ h
  | false =>
      have hplain : ∀ b ∈ String.utf8EncodeChar c,
          b ≠ '\\'.toUInt8 ∧ b ≠ delimiter.toUInt8 ∧ b ≠ '\n'.toUInt8 := by
        have hne : ∀ a, isAscii a = true → c ≠ a := by
          rintro a ha rfl
          rw [hc] at ha
          cases ha
        intro b hb
        exact ⟨ne_of_mem_utf8EncodeChar _ c (by decide) (hne _ (by decide)) b hb,
          ne_of_mem_utf8EncodeChar _ c hdelimiter (hne _ hdelimiter) b hb,
          ne_of_mem_utf8EncodeChar _ c (by decide) (hne _ (by decide)) b hb⟩
      cases hbytes : String.utf8EncodeChar c with
      | nil => exact absurd hbytes String.utf8EncodeChar_ne_nil
      | cons b more =>
          rw [hbytes] at hplain
          exact .escape _ _ (h.append fun d hd => hplain d (by simp [hd]))

/-- A literal may have more text behind its opening delimiter. -/
theorem LiteralExtent.prepend {delimiter : UInt8} {piece after front : List UInt8}
    (h : LiteralExtent delimiter (delimiter :: piece) after)
    (hfront : ∀ body, Unclosed delimiter body → Unclosed delimiter (front ++ body)) :
    LiteralExtent delimiter (delimiter :: (front ++ piece)) after := by
  generalize hwhole : delimiter :: piece = whole at h
  cases h with
  | closed body after hbody =>
      rw [(List.cons.inj hwhole).2, ← List.append_assoc]
      exact .closed _ _ (hfront body hbody)
  | brokenOff body after hbody hafter =>
      rw [(List.cons.inj hwhole).2]
      exact .brokenOff _ _ (hfront body hbody) hafter
  | backslashLast body hbody =>
      rw [(List.cons.inj hwhole).2, ← List.append_assoc]
      exact .backslashLast _ (hfront body hbody)

/-- A literal goes as far as its bytes do. -/
theorem literalTail_extent (delimiter : Char) (hdelimiter : isAscii delimiter = true)
    (text : List Char) :
    LiteralExtent delimiter.toUInt8 (delimiter.toUInt8 :: utf8Bytes (literalTail delimiter text).1)
      (utf8Bytes (literalTail delimiter text).2) := by
  fun_induction literalTail delimiter text with
  | case1 => exact .brokenOff [] [] .nil (by simp [EndsLine])
  | case2 c rest ih =>
      have hbytes : utf8Bytes (((literalTail delimiter rest).cons c).cons '\\').1 =
          ('\\'.toUInt8 :: String.utf8EncodeChar c) ++
            utf8Bytes (literalTail delimiter rest).1 := by
        simp only [Cut.cons_fst, utf8Bytes_cons]
        rfl
      rw [hbytes]
      exact ih.prepend fun body hbody => hbody.escape_char hdelimiter c
  | case3 rest _ =>
      rw [utf8Bytes_cons, utf8EncodeChar_of_isAscii delimiter hdelimiter]
      exact .closed [] _ .nil
  | case4 rest _ _ =>
      exact .brokenOff [] _ .nil (endsLine_utf8Bytes _ (by simp))
  | case5 c rest hpair hne hline ih =>
      by_cases hc : c = '\\'
      · subst hc
        cases rest with
        | nil => exact .backslashLast [] .nil
        | cons d rest => exact absurd rfl (hpair d rest rfl)
      · rw [Cut.cons_fst, utf8Bytes_cons]
        apply ih.prepend
        intro body hbody
        apply hbody.append
        intro b hb
        exact ⟨ne_of_mem_utf8EncodeChar _ c (by decide) hc b hb,
          ne_of_mem_utf8EncodeChar _ c hdelimiter hne b hb,
          ne_of_mem_utf8EncodeChar _ c (by decide) hline b hb⟩

/-- Which trivia opens at a place of a text can be read off its characters. -/
theorem opens_utf8Bytes_iff (before text : List Char) (kind : TriviaKind) :
    Opens (utf8Bytes before.reverse) kind (utf8Bytes text) ↔
      match kind with
      | .lineComment => ['/', '/'] <+: text
      | .blockComment => ['/', '*'] <+: text
      | .directive => ['#'] <+: text ∧ atLineStart before = true
      | .verbatimString => ['"'] <+: text ∧ opensVerbatim before = true
      | .rawString => ['"', '"', '"'] <+: text ∧ ¬ opensVerbatim before = true
      | .string =>
        ['"'] <+: text ∧ ¬ ['"', '"', '"'] <+: text ∧ ¬ opensVerbatim before = true
      | .character => ['\''] <+: text := by
  cases kind <;>
    simp only [Opens, utf8Bytes_isPrefix_iff, startsLine_utf8Bytes_iff, endsVerbatim_utf8Bytes_iff]

/-- Three quotes open a text exactly if two stand behind the first one. -/
theorem three_quotes_iff (rest : List Char) :
    ['"', '"', '"'] <+: '"' :: rest ↔ 2 ≤ quoteRun rest := by
  rw [two_le_quoteRun_iff, List.cons_prefix_cons]
  constructor
  · rintro ⟨-, more, rfl⟩
    exact ⟨more, rfl⟩
  · rintro ⟨more, rfl⟩
    exact ⟨rfl, more, rfl⟩

/-- The string that starts with a quote is the one that opens there, and goes as far as the grammar
lets it. -/
theorem stringToken_follows (before rest : List Char) (kind : TriviaKind) (text after : List Char)
    (h : stringToken before rest = (.trivia kind text, after)) :
    Opens (utf8Bytes before.reverse) kind (utf8Bytes ('"' :: rest)) ∧
      Extent kind (utf8Bytes text) (utf8Bytes after) := by
  have hquote : ['"'] <+: '"' :: rest := ⟨rest, rfl⟩
  unfold stringToken at h
  split at h
  · rename_i hverbatim
    cases h
    exact ⟨(opens_utf8Bytes_iff ..).2 ⟨hquote, hverbatim⟩, extent_verbatimString rest⟩
  · rename_i hverbatim
    split at h
    · rename_i hrun
      cases h
      exact ⟨(opens_utf8Bytes_iff ..).2 ⟨(three_quotes_iff rest).2 hrun, hverbatim⟩,
        extent_rawString rest hrun⟩
    · rename_i hrun
      cases h
      refine ⟨(opens_utf8Bytes_iff ..).2 ⟨hquote, ?_, hverbatim⟩, .string _ _ ?_⟩
      · rwa [three_quotes_iff]
      · exact literalTail_extent '"' (by decide) rest

/-- Trivia that is cut off opens where it stands, and goes as far as the grammar lets it. -/
theorem firstToken_follows (before : List Char) (c : Char) (rest : List Char) (kind : TriviaKind)
    (text after : List Char) (h : firstToken before c rest = (.trivia kind text, after)) :
    Opens (utf8Bytes before.reverse) kind (utf8Bytes (c :: rest)) ∧
      Extent kind (utf8Bytes text) (utf8Bytes after) := by
  unfold firstToken at h
  split at h
  · rename_i inside
    cases h
    refine ⟨(opens_utf8Bytes_iff ..).2 ⟨inside, rfl⟩, ?_⟩
    have htail : lineTail ('/' :: inside) = (lineTail inside).cons '/' := rfl
    rw [htail]
    have hbytes : utf8Bytes (((lineTail inside).cons '/').cons '/').1 =
        utf8Bytes ['/', '/'] ++ utf8Bytes (lineTail inside).1 :=
      utf8Bytes_append ['/', '/'] (lineTail inside).1
    rw [hbytes]
    exact .lineComment _ _ (feed_not_mem_lineTail inside) (endsLine_lineTail inside)
  · rename_i inside
    cases h
    exact ⟨(opens_utf8Bytes_iff ..).2 ⟨inside, rfl⟩, extent_blockComment inside⟩
  · split at h
    · rename_i hstart
      cases h
      refine ⟨(opens_utf8Bytes_iff ..).2 ⟨⟨rest, rfl⟩, hstart⟩, ?_⟩
      have hbytes : utf8Bytes ((lineTail rest).cons '#').1 =
          utf8Bytes ['#'] ++ utf8Bytes (lineTail rest).1 :=
        utf8Bytes_append ['#'] (lineTail rest).1
      rw [hbytes]
      exact .directive _ _ (feed_not_mem_lineTail rest) (endsLine_lineTail rest)
    · cases h
  · exact stringToken_follows before rest kind text after h
  · cases h
    exact ⟨(opens_utf8Bytes_iff ..).2 ⟨rest, rfl⟩,
      .character _ _ (literalTail_extent '\'' (by decide) rest)⟩
  · cases h

theorem stringToken_ne_code (before rest : List Char) (d : Char) (after : List Char) :
    stringToken before rest ≠ (.code d, after) := by
  unfold stringToken
  split
  · exact fun h => by cases h
  · split <;> exact fun h => by cases h

/-- Where a character of code is cut off, no trivia opens. -/
theorem firstToken_code (before : List Char) (c : Char) (rest : List Char) (d : Char)
    (after : List Char) (h : firstToken before c rest = (.code d, after)) :
    d = c ∧ after = rest ∧
      ∀ kind, ¬ Opens (utf8Bytes before.reverse) kind (utf8Bytes (c :: rest)) := by
  unfold firstToken at h
  split at h
  · cases h
  · cases h
  · split at h
    · cases h
    · rename_i hstart
      cases h
      refine ⟨rfl, rfl, ?_⟩
      intro kind hopens
      rw [opens_utf8Bytes_iff] at hopens
      cases kind <;> simp_all
  · exact absurd h (stringToken_ne_code before rest d after)
  · cases h
  · rename_i hhash hquote hsingle hline hblock
    cases h
    refine ⟨rfl, rfl, ?_⟩
    intro kind hopens
    rw [opens_utf8Bytes_iff] at hopens
    cases kind with
    | lineComment =>
        obtain ⟨more, hmore⟩ := hopens
        obtain ⟨hc, hrest⟩ := List.cons.inj hmore
        exact hline more hc.symm hrest.symm
    | blockComment =>
        obtain ⟨more, hmore⟩ := hopens
        obtain ⟨hc, hrest⟩ := List.cons.inj hmore
        exact hblock more hc.symm hrest.symm
    | directive => exact hhash (List.cons_prefix_cons.1 hopens.1).1.symm
    | verbatimString => exact hquote (List.cons_prefix_cons.1 hopens.1).1.symm
    | rawString => exact hquote (List.cons_prefix_cons.1 hopens.1).1.symm
    | string => exact hquote (List.cons_prefix_cons.1 hopens.1).1.symm
    | character => exact hsingle (List.cons_prefix_cons.1 hopens).1.symm

/-- No trivia opens inside the form of a character. -/
theorem not_opens_of_le (before after : List UInt8) (b : UInt8) (kind : TriviaKind)
    (hb : 128 ≤ b.toNat) : ¬ Opens before kind (b :: after) := by
  intro hopens
  obtain rfl := Option.some.inj hopens.head?_eq
  revert hb
  cases kind <;> decide

/-- Bytes that are no signs are tokens of code. -/
theorem lexes_code_bytes (before bytes after : List UInt8) (tokens : List ByteToken)
    (hle : ∀ b ∈ bytes, 128 ≤ b.toNat) (hrest : Lexes (before ++ bytes) after tokens) :
    Lexes before (bytes ++ after) (bytes.map .code ++ tokens) := by
  induction bytes generalizing before with
  | nil => simpa using hrest
  | cons b bytes ih =>
      apply Lexes.code
      · exact fun kind => not_opens_of_le before _ b kind (hle b (by simp))
      · exact ih _ (fun d hd => hle d (by simp [hd])) (by simpa using hrest)

/-- A character of code is as many tokens as it has bytes. -/
theorem lexes_code (before after : List UInt8) (c : Char) (tokens : List ByteToken)
    (hopens : ∀ kind, ¬ Opens before kind (String.utf8EncodeChar c ++ after))
    (hrest : Lexes (before ++ String.utf8EncodeChar c) after tokens) :
    Lexes before (String.utf8EncodeChar c ++ after)
      ((String.utf8EncodeChar c).map .code ++ tokens) := by
  cases hc : isAscii c with
  | true =>
      rw [utf8EncodeChar_of_isAscii c hc] at hopens hrest ⊢
      exact .code hopens hrest
  | false => exact lexes_code_bytes _ _ _ _ (le_of_mem_utf8EncodeChar c hc) hrest

/-- The cut of a text, read as bytes, follows the lexical grammar. -/
theorem lexes_cut (before text : List Char) :
    Lexes (utf8Bytes before.reverse) (utf8Bytes text)
      ((cut before text).flatMap Token.inBytes) := by
  fun_induction cut before text with
  | case1 => exact .nil _
  | case2 before c rest ih =>
      have happend := firstToken_append before c rest
      rw [List.flatMap_cons]
      rw [List.reverse_append, List.reverse_reverse, utf8Bytes_append] at ih
      cases hfirst : firstToken before c rest with
      | mk token after =>
          rw [hfirst] at happend ih
          cases token with
          | trivia kind text =>
              obtain ⟨hopens, hextent⟩ := firstToken_follows before c rest kind text after hfirst
              refine .trivia ?_ hopens hextent ih
              rw [← utf8Bytes_append, ← happend]
              rfl
          | code d =>
              obtain ⟨rfl, rfl, hopens⟩ := firstToken_code before c rest d after hfirst
              rw [utf8Bytes_cons] at hopens ⊢
              apply lexes_code _ _ d _ hopens
              simpa [Token.text] using ih

/-- Masking a character masks its bytes. -/
theorem map_blankByte_utf8EncodeChar (c : Char) :
    (String.utf8EncodeChar c).map blankByte = utf8Bytes (blankOut c) := by
  by_cases hc : c = '\n'
  · subst hc
    rfl
  · rw [blankOut, if_neg hc, utf8Bytes_replicate _ _ (by decide), List.map_eq_replicate_iff.2,
      String.length_utf8EncodeChar]
    intro b hb
    rw [blankByte, if_neg (ne_of_mem_utf8EncodeChar '\n' c (by decide) hc b hb)]

theorem Token.flatMap_masked_inBytes (token : Token) :
    token.inBytes.flatMap ByteToken.masked = utf8Bytes token.masked := by
  cases token with
  | trivia kind text =>
      rw [Token.inBytes, List.flatMap_singleton, ByteToken.masked, Token.masked, utf8Bytes]
      induction text with
      | nil => rfl
      | cons c rest ih =>
          rw [List.flatMap_cons, List.map_append, ih, map_blankByte_utf8EncodeChar,
            List.flatMap_cons, utf8Bytes_append]
  | code c =>
      rw [Token.inBytes, List.flatMap_map, Token.masked, utf8Bytes_cons, utf8Bytes_nil,
        List.append_nil]
      exact List.flatMap_singleton' _

/-- The bytes of a masked text are the masked tokens of its bytes. -/
theorem utf8Bytes_mask (text : List Char) :
    utf8Bytes (mask text) =
      ((cut [] text).flatMap Token.inBytes).flatMap ByteToken.masked := by
  rw [mask]
  induction cut [] text with
  | nil => rfl
  | cons token tokens ih =>
      rw [List.flatMap_cons, utf8Bytes_append, ih, List.flatMap_cons, List.flatMap_append,
        token.flatMap_masked_inBytes]

/-- Masked trivia has no byte but spaces and line feeds. -/
theorem mem_map_blankByte (bytes : List UInt8) (b : UInt8) (h : b ∈ bytes.map blankByte) :
    b = ' '.toUInt8 ∨ b = '\n'.toUInt8 := by
  obtain ⟨d, -, rfl⟩ := List.mem_map.1 h
  unfold blankByte
  split
  · rename_i hd
    exact Or.inr hd
  · exact Or.inl rfl

/-- A sign that always opens trivia is masked. -/
theorem Lexes.not_mem_masked {before text : List UInt8} {tokens : List ByteToken}
    (h : Lexes before text tokens) (b : UInt8) (hb : b ≠ ' '.toUInt8 ∧ b ≠ '\n'.toUInt8)
    (hopens : ∀ before after, ∃ kind, Opens before kind (b :: after)) :
    b ∉ tokens.flatMap ByteToken.masked := by
  induction h with
  | nil => simp
  | @trivia before text piece after kind tokens _ _ _ _ ih =>
      rw [List.flatMap_cons, List.mem_append, not_or]
      exact ⟨fun hmem => (mem_map_blankByte piece b hmem).elim hb.1 hb.2, ih⟩
  | @code before after d tokens hnone _ ih =>
      rw [List.flatMap_cons, List.mem_append, not_or]
      refine ⟨?_, ih⟩
      intro hmem
      obtain rfl := List.mem_singleton.1 hmem
      obtain ⟨kind, hkind⟩ := hopens before after
      exact hnone kind hkind

/-- A masked byte is the byte itself or what masking makes of it. -/
def MasksByte (masked b : UInt8) : Prop :=
  masked = b ∨ masked = blankByte b

/-- Masked tokens stand for their bytes one by one. -/
theorem forall₂_masksByte (tokens : List ByteToken) :
    List.Forall₂ MasksByte (tokens.flatMap ByteToken.masked) (tokens.flatMap ByteToken.bytes) := by
  induction tokens with
  | nil => exact .nil
  | cons token tokens ih =>
      rw [List.flatMap_cons, List.flatMap_cons]
      refine List.rel_append ?_ ih
      cases token with
      | trivia kind bytes =>
          rw [ByteToken.masked, ByteToken.bytes, List.forall₂_map_left_iff]
          exact List.forall₂_same.2 fun b _ => Or.inr rfl
      | code b => exact .cons (Or.inl rfl) .nil

/-- A byte of masked text that is no blank stands in the text. -/
theorem MasksByte.eq_of_ne {masked b : UInt8} (h : MasksByte masked b)
    (hmasked : masked ≠ ' '.toUInt8) : masked = b := by
  rcases h with rfl | rfl
  · rfl
  · unfold blankByte at hmasked ⊢
    split
    · rfl
    · rename_i hb
      rw [if_neg hb] at hmasked
      exact absurd rfl hmasked

/-- Signs that start with one that does not stand in front are found behind. -/
theorem not_infix_append {α : Type} (a : α) (signs front back : List α) (ha : a ∉ front)
    (h : ¬ a :: signs <:+: back) : ¬ a :: signs <:+: front ++ back := by
  induction front with
  | nil => exact h
  | cons c front ih =>
      rw [List.cons_append, List.infix_cons_iff, not_or]
      refine ⟨?_, ih fun hmem => ha (by simp [hmem])⟩
      intro hfirst
      exact ha (by simp [(List.cons_prefix_cons.1 hfirst).1])

/-- Two signs that always open trivia are masked. -/
theorem Lexes.not_infix_masked {before text : List UInt8} {tokens : List ByteToken}
    (h : Lexes before text tokens) (a b : UInt8) (ha : a ≠ ' '.toUInt8 ∧ a ≠ '\n'.toUInt8)
    (hb : b ≠ ' '.toUInt8) (hopens : ∀ before after, ∃ kind, Opens before kind (a :: b :: after)) :
    ¬ [a, b] <:+: tokens.flatMap ByteToken.masked := by
  induction h with
  | nil => simp
  | @trivia before text piece after kind tokens _ _ _ _ ih =>
      rw [List.flatMap_cons, ByteToken.masked]
      exact not_infix_append a [b] _ _
        (fun hmem => (mem_map_blankByte piece a hmem).elim ha.1 ha.2) ih
  | @code before after d tokens hnone hrest ih =>
      rw [List.flatMap_cons, ByteToken.masked, List.singleton_append, List.infix_cons_iff, not_or]
      refine ⟨?_, ih⟩
      intro hfirst
      obtain ⟨rfl, more, hmore⟩ := List.cons_prefix_cons.1 hfirst
      have hmasks := forall₂_masksByte tokens
      rw [hrest.flatMap_bytes, ← hmore] at hmasks
      obtain ⟨e, behind, hbe, -, rfl⟩ := List.forall₂_cons_left_iff.1 hmasks
      obtain rfl := hbe.eq_of_ne hb
      obtain ⟨kind, hkind⟩ := hopens before behind
      exact hnone kind hkind

/-- A quote opens a string wherever it stands. -/
theorem exists_opens_quote (before after : List UInt8) :
    ∃ kind, Opens before kind ('"'.toUInt8 :: after) := by
  have hquote : utf8Bytes ['"'] <+: '"'.toUInt8 :: after := ⟨after, rfl⟩
  by_cases hverbatim : EndsVerbatim before
  · exact ⟨.verbatimString, hquote, hverbatim⟩
  · by_cases hraw : utf8Bytes ['"', '"', '"'] <+: '"'.toUInt8 :: after
    · exact ⟨.rawString, hraw, hverbatim⟩
    · exact ⟨.string, hquote, hraw, hverbatim⟩

/-- There is exactly one way to cut the bytes of a text into tokens by the lexical grammar. The mask
of the text is these tokens one after the other, with every byte of trivia but the line feeds
replaced by a space. No quote of either kind and no start of a comment remains. -/
theorem mask_follows_grammar (text : String) :
    (∃! tokens, Lexes [] (utf8Bytes text.toList) tokens) ∧
      (∀ tokens, Lexes [] (utf8Bytes text.toList) tokens →
        tokens.flatMap ByteToken.bytes = utf8Bytes text.toList ∧
          utf8Bytes (mask text.toList) = tokens.flatMap ByteToken.masked) ∧
      '"'.toUInt8 ∉ utf8Bytes (mask text.toList) ∧
      '\''.toUInt8 ∉ utf8Bytes (mask text.toList) ∧
      ¬ utf8Bytes ['/', '/'] <:+: utf8Bytes (mask text.toList) ∧
      ¬ utf8Bytes ['/', '*'] <:+: utf8Bytes (mask text.toList) := by
  have hlexes := lexes_cut [] text.toList
  have hmask := utf8Bytes_mask text.toList
  refine ⟨⟨_, hlexes, fun tokens htokens => htokens.unique hlexes⟩, ?_, ?_, ?_, ?_, ?_⟩
  · intro tokens htokens
    rw [hmask, htokens.unique hlexes]
    exact ⟨hlexes.flatMap_bytes, rfl⟩
  · rw [hmask]
    exact hlexes.not_mem_masked _ (by decide) exists_opens_quote
  · rw [hmask]
    exact hlexes.not_mem_masked _ (by decide) fun _ after => ⟨.character, after, rfl⟩
  · rw [hmask]
    exact hlexes.not_infix_masked _ _ (by decide) (by decide)
      fun _ after => ⟨.lineComment, after, rfl⟩
  · rw [hmask]
    exact hlexes.not_infix_masked _ _ (by decide) (by decide)
      fun _ after => ⟨.blockComment, after, rfl⟩

end RecordText.Source
