import RecordText.Proofs.Seam

/-!
# Masked text around a closing brace

A brace of the masked text is a character of code of the text itself, at the
same byte offset. The text behind such a brace is cut without regard to what
stands before the brace, and the text before it is cut without regard to what
is put in its place on the way to the brace. Together this gives the mask of a
text in which something is put in front of a closing brace.
-/

namespace RecordText.Source

open RecordText.Text

/-- The masked form of a text, given the text before it in reverse. -/
def maskFrom (before text : List Char) : List Char :=
  (cut before text).flatMap Token.masked

theorem mask_eq_maskFrom (text : List Char) : mask text = maskFrom [] text := rfl

theorem byteLength_flatMap_masked (tokens : List Token) :
    byteLength (tokens.flatMap Token.masked) = byteLength (tokens.flatMap Token.text) := by
  induction tokens with
  | nil => rfl
  | cons token rest ih => simp [ih, Token.byteLength_masked]

/-- Text that opens no trivia stays as it is. -/
theorem maskFrom_append_of_plain (before plain rest : List Char)
    (h : ∀ c ∈ plain, opensTrivia c = false) :
    maskFrom before (plain ++ rest) = plain ++ maskFrom (plain.reverse ++ before) rest := by
  rw [maskFrom, cut_append_of_plain before plain rest h, List.flatMap_append, maskFrom]
  have hplain : (plain.map Token.code).flatMap Token.masked = plain := by
    simp [List.flatMap_map, Token.masked]
  rw [hplain]

theorem mem_flatMap_blankOut (text : List Char) (c : Char) (h : c ∈ text.flatMap blankOut) :
    c = ' ' ∨ c = '\n' := by
  obtain ⟨d, -, hd⟩ := List.mem_flatMap.1 h
  unfold blankOut at hd
  split at hd
  · exact Or.inr (List.mem_singleton.1 hd)
  · exact Or.inl (List.eq_of_mem_replicate hd)

/-- A text that ends with a line feed, if it is not empty, does so masked. -/
theorem getLast?_flatMap_masked (tokens : List Token)
    (h : ∀ c ∈ (tokens.flatMap Token.text).getLast?, c = '\n') :
    ∀ c ∈ (tokens.flatMap Token.masked).getLast?, c = '\n' := by
  induction tokens using List.reverseRecOn with
  | nil => simp
  | append_singleton tokens token ih =>
      rw [List.flatMap_append, List.flatMap_singleton] at h ⊢
      cases token with
      | code d => simpa [Token.text, Token.masked] using h
      | trivia kind text =>
          rcases List.eq_nil_or_concat text with rfl | ⟨front, last, rfl⟩
          · simpa [Token.text, Token.masked] using ih (by simpa [Token.text] using h)
          · obtain rfl : last = '\n' := by simpa [Token.text] using h
            simp [Token.masked, blankOut]

/-- A sign in a masked text, other than a space or a line feed, is a character of code. -/
theorem masked_eq_append (tokens : List Token) (front back : List Char) (c : Char)
    (hspace : c ≠ ' ') (hfeed : c ≠ '\n')
    (h : tokens.flatMap Token.masked = front ++ c :: back) :
    ∃ tokens₁ tokens₂, tokens = tokens₁ ++ .code c :: tokens₂ ∧
      tokens₁.flatMap Token.masked = front ∧ tokens₂.flatMap Token.masked = back := by
  induction tokens generalizing front with
  | nil => simp at h
  | cons token tokens ih =>
      rw [List.flatMap_cons] at h
      have hbehind : ∀ front', front = token.masked ++ front' →
          tokens.flatMap Token.masked = front' ++ c :: back →
          ∃ tokens₁ tokens₂, token :: tokens = tokens₁ ++ .code c :: tokens₂ ∧
            tokens₁.flatMap Token.masked = front ∧ tokens₂.flatMap Token.masked = back := by
        rintro front' rfl hrest
        obtain ⟨tokens₁, tokens₂, rfl, hmask₁, hmask₂⟩ := ih front' hrest
        exact ⟨token :: tokens₁, tokens₂, rfl, by rw [List.flatMap_cons, hmask₁], hmask₂⟩
      rcases List.append_eq_append_iff.1 h with ⟨front', hfront, hrest⟩ | ⟨inside, hin, hrest⟩
      · exact hbehind front' hfront hrest
      · cases inside with
        | nil => exact hbehind [] (by simpa using hin.symm) (by simpa using hrest.symm)
        | cons d inside =>
            obtain ⟨rfl, hback⟩ := List.cons.inj hrest
            cases token with
            | trivia kind text =>
                have hmem : c ∈ text.flatMap blankOut := by
                  change text.flatMap blankOut = front ++ c :: inside at hin
                  rw [hin]
                  simp
                rcases mem_flatMap_blankOut text c hmem with hc | hc
                · exact absurd hc hspace
                · exact absurd hc hfeed
            | code d =>
                have hlen := congrArg List.length hin
                simp only [Token.masked, List.length_cons, List.length_nil, List.length_append]
                  at hlen
                obtain rfl := List.eq_nil_of_length_eq_zero (show front.length = 0 by omega)
                obtain rfl := List.eq_nil_of_length_eq_zero (show inside.length = 0 by omega)
                obtain rfl : d = c := by simpa [Token.masked] using hin
                exact ⟨[], tokens, rfl, rfl, hback.symm⟩

/-- A place in a text where a closing brace stands that is a character of code. -/
structure ClosesAt (text : List Char) (before after : List Char) (front : List Token) : Prop where
  text_eq : text = before ++ '\x7d' :: after
  front_text : front.flatMap Token.text = before
  cut_eq : cut [] text = front ++ .code '\x7d' :: cut ('\x7d' :: before.reverse) after

/-- Every closing brace of a masked text stands in the text itself. -/
theorem exists_closesAt (text front back : List Char) (h : mask text = front ++ '\x7d' :: back) :
    ∃ before after tokens, ClosesAt text before after tokens ∧
      tokens.flatMap Token.masked = front ∧ maskFrom ('\x7d' :: before.reverse) after = back := by
  obtain ⟨tokens₁, tokens₂, hcut, hfront, hback⟩ :=
    masked_eq_append (cut [] text) front back '\x7d' (by decide) (by decide) h
  have hseam := cut_eq_append [] text (tokens₁ ++ [.code '\x7d']) tokens₂ (by simpa using hcut)
  have hafter : tokens₂ = cut ('\x7d' :: (tokens₁.flatMap Token.text).reverse)
      (tokens₂.flatMap Token.text) := by
    simpa [Token.text] using hseam
  refine ⟨tokens₁.flatMap Token.text, tokens₂.flatMap Token.text, tokens₁, ⟨?_, rfl, ?_⟩, hfront,
    ?_⟩
  · have htext := cut_flatten [] text
    rw [hcut] at htext
    simpa [Token.text] using htext.symm
  · rw [← hafter, hcut]
  · rw [maskFrom, ← hafter, hback]

/-- Two texts, in reverse, that look alike to every token behind them. -/
def LooksAlike (before before' : List Char) : Prop :=
  ∀ near, atLineStart (near ++ before) = atLineStart (near ++ before') ∧
    opensVerbatim (near ++ before) = opensVerbatim (near ++ before')

theorem LooksAlike.append {before before' : List Char} (h : LooksAlike before before')
    (near : List Char) : LooksAlike (near ++ before) (near ++ before') := by
  intro nearer
  rw [← List.append_assoc, ← List.append_assoc]
  exact h (nearer ++ near)

/-- Whether a sign keeps tokens behind it from looking further back: it is no indentation and no
mark in front of a quote. -/
def hidesBefore (c : Char) : Bool :=
  !isIndentChar c && c != '@' && c != '$'

theorem atLineStart_behind_sign (near far far' : List Char) (c c' : Char)
    (hc : isIndentChar c = false) (hc' : isIndentChar c' = false) (hfeed : c = '\n' ↔ c' = '\n') :
    atLineStart (near ++ c :: far) = atLineStart (near ++ c' :: far') := by
  unfold atLineStart
  induction near with
  | nil =>
      by_cases hline : c = '\n'
      · simp [hline, hfeed.1 hline]
      · have hline' : c' ≠ '\n' := fun h => hline (hfeed.2 h)
        simp [hline, hline', hc, hc']
  | cons d near ih =>
      by_cases hd : d = '\n'
      · simp [hd]
      · simp only [ne_eq, decide_not, List.cons_append] at ih ⊢
        rw [List.takeWhile_cons_of_pos (by simp [hd]), List.takeWhile_cons_of_pos (by simp [hd]),
          List.all_cons, List.all_cons, ih]

theorem opensVerbatim_cons_cons (c d : Char) (rest : List Char) :
    opensVerbatim (c :: d :: rest) = (c == '@' || c == '$' && d == '@') := by
  unfold opensVerbatim
  split <;> simp_all

theorem opensVerbatim_cons_of_ne (c : Char) (rest : List Char) (h : c ≠ '@' ∧ c ≠ '$') :
    opensVerbatim (c :: rest) = false := by
  unfold opensVerbatim
  split <;> simp_all

theorem opensVerbatim_behind_sign (near far far' : List Char) (c c' : Char)
    (hc : c ≠ '@' ∧ c ≠ '$') (hc' : c' ≠ '@' ∧ c' ≠ '$') :
    opensVerbatim (near ++ c :: far) = opensVerbatim (near ++ c' :: far') := by
  match near with
  | [] =>
      rw [List.nil_append, List.nil_append, opensVerbatim_cons_of_ne c far hc,
        opensVerbatim_cons_of_ne c' far' hc']
  | [d] =>
      simp only [List.cons_append, List.nil_append, opensVerbatim_cons_cons,
        beq_false_of_ne hc.1, beq_false_of_ne hc'.1]
  | d :: e :: near =>
      simp only [List.cons_append, opensVerbatim_cons_cons]

/-- Signs that hide what stands before them look alike if both or none of them end a line. -/
theorem LooksAlike.cons (c c' : Char) (far far' : List Char) (hc : hidesBefore c = true)
    (hc' : hidesBefore c' = true) (hfeed : c = '\n' ↔ c' = '\n') :
    LooksAlike (c :: far) (c' :: far') := by
  simp only [hidesBefore, Bool.and_eq_true, Bool.not_eq_true', bne_iff_ne] at hc hc'
  intro near
  exact ⟨atLineStart_behind_sign near far far' c c' hc.1.1 hc'.1.1 hfeed,
    opensVerbatim_behind_sign near far far' c c' ⟨hc.1.2, hc.2⟩ ⟨hc'.1.2, hc'.2⟩⟩

theorem LooksAlike.firstToken_eq {before before' : List Char} (h : LooksAlike before before')
    (c : Char) (rest : List Char) : firstToken before c rest = firstToken before' c rest := by
  obtain ⟨hstart, hverbatim⟩ := h []
  rw [List.nil_append, List.nil_append] at hstart hverbatim
  unfold firstToken stringToken
  rw [hstart, hverbatim]

/-- A text is cut in the same way behind texts that look alike. -/
theorem LooksAlike.cut_eq {before before' : List Char} (h : LooksAlike before before')
    (text : List Char) : cut before text = cut before' text := by
  induction hlen : text.length using Nat.strong_induction_on generalizing before before' text with
  | _ n ih =>
      cases text with
      | nil => rw [cut, cut]
      | cons c rest =>
          subst hlen
          rw [cut, cut, h.firstToken_eq c rest]
          have hrec := ih _ (firstToken_length_lt before' c rest)
            (h.append (firstToken before' c rest).1.text.reverse) _ rfl
          rw [hrec]

/-- Behind a closing brace the tokens do not depend on what stands before the brace. -/
theorem cut_behind_brace (near far far' text : List Char) :
    cut (near ++ '\x7d' :: far) text = cut (near ++ '\x7d' :: far') text :=
  ((LooksAlike.cons '\x7d' '\x7d' far far' (by decide) (by decide) Iff.rfl).append near).cut_eq text

/-- The mask of a text in which blanks in front of a closing brace are replaced: what stands before
the blanks and behind the brace is masked as before. If a line feed ends what stands before the
blanks, one ends it masked. -/
theorem mask_replace_blanks (text before after front blanks inserted : List Char)
    (tokens : List Token) (c : Char) (rest : List Char) (h : ClosesAt text before after tokens)
    (hbefore : before = front ++ blanks) (hblanks : ∀ c ∈ blanks, isBlank c = true ∧ c ≠ '\n')
    (hinserted : inserted = c :: rest) (hc : c ≠ '"' ∧ c ≠ '/' ∧ c ≠ '*') :
    ∃ kept, tokens.flatMap Token.masked = kept ++ blanks ∧
      ((∀ c ∈ front.getLast?, c = '\n') → ∀ c ∈ kept.getLast?, c = '\n') ∧
      mask (front ++ inserted ++ '\x7d' :: after) =
        kept ++ maskFrom front.reverse (inserted ++ '\x7d' :: after) := by
  obtain ⟨htext, htokens, hcut⟩ := h
  rw [hbefore] at htokens
  have hback : (Token.code '\x7d' :: cut ('\x7d' :: before.reverse) after).flatMap Token.text =
      '\x7d' :: after := by
    simp [Token.text, cut_flatten]
  obtain ⟨tokens', rfl, hfront⟩ := front_eq_append_blanks [] text front blanks after '\x7d'
    tokens _ (by decide) hblanks hcut hback htokens
  refine ⟨tokens'.flatMap Token.masked, ?_, ?_, ?_⟩
  · simp [List.flatMap_map, Token.masked]
  · rw [← hfront]
    exact getLast?_flatMap_masked tokens'
  have hold : cut [] (tokens'.flatMap Token.text ++ (blanks ++ '\x7d' :: after)) =
      tokens' ++ cut ((tokens'.flatMap Token.text).reverse ++ []) (blanks ++ '\x7d' :: after) := by
    have hrest := cut_eq_append [] text tokens' _ (by rw [hcut, List.append_assoc])
    rw [List.flatMap_append, hback] at hrest
    rw [hfront, ← List.append_assoc, ← hbefore, ← htext, hcut, List.append_assoc, hrest]
    simp [List.flatMap_map, Token.text, hfront]
  have hreplaces : Replaces (blanks ++ '\x7d' :: after) (inserted ++ '\x7d' :: after) := by
    subst hinserted
    cases blanks with
    | nil => exact Replaces.of_ne '\x7d' c after (rest ++ '\x7d' :: after) (by decide) hc
    | cons d blanks => exact Replaces.of_ne d c _ _ (hblanks d (by simp)).2 hc
  have hnew := cut_replace [] _ _ tokens' hreplaces hold
  rw [hfront, List.append_nil] at hnew
  rw [List.append_assoc, mask, hnew, List.flatMap_append, maskFrom]

end RecordText.Source
