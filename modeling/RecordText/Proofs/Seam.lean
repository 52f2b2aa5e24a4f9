import RecordText.Source.Token
import Mathlib.Data.List.Induction
import Mathlib.Data.List.TakeWhile

/-!
# Seams between tokens

A token is decided by its own text and, at most, by the first character behind
it. So what follows a seam, a place where one token ends and the next starts,
can be replaced as long as the first character behind the seam plays the same
role. The tokens in front of the seam stay as they are.

## Implementation notes

Only four kinds of characters matter behind a token: a line feed ends line
comments and unfinished literals, a quote lengthens a run of quotes, and a slash
or a star makes a comment out of a slash.
-/

namespace RecordText.Source

open RecordText.Text

/-- Whether trivia can start with `c`. -/
def opensTrivia (c : Char) : Bool :=
  c == '/' || c == '#' || c == '"' || c == '\''

theorem firstToken_of_not_opensTrivia (before : List Char) (c : Char) (rest : List Char)
    (h : opensTrivia c = false) : firstToken before c rest = (.code c, rest) := by
  simp only [opensTrivia, Bool.or_eq_false_iff, beq_eq_false_iff_ne] at h
  unfold firstToken
  split
  · exact absurd rfl h.1.1.1
  · exact absurd rfl h.1.1.1
  · exact absurd rfl h.1.1.2
  · exact absurd rfl h.1.2
  · exact absurd rfl h.2
  · rfl

/-- A text that opens no trivia is cut into single characters of code. -/
theorem cut_append_of_plain (before plain rest : List Char)
    (h : ∀ c ∈ plain, opensTrivia c = false) :
    cut before (plain ++ rest) = plain.map Token.code ++ cut (plain.reverse ++ before) rest := by
  induction plain generalizing before with
  | nil => rfl
  | cons c tail ih =>
      have hc := firstToken_of_not_opensTrivia before c (tail ++ rest) (h c (by simp))
      have htail : ∀ d ∈ tail, opensTrivia d = false := fun d hd => h d (by simp [hd])
      rw [List.cons_append, cut, hc, ih _ htail]
      simp [Token.text]

/-- One text may stand in for another behind a seam: both go on, and the first character of the new
one is a line feed if that of the old one is, and a quote, slash or star only if that of the old
one is the same. -/
def Replaces (old new : List Char) : Prop :=
  ∃ c rest c' rest', old = c :: rest ∧ new = c' :: rest' ∧
    (c = '\n' → c' = '\n') ∧ (c' = '"' ∨ c' = '/' ∨ c' = '*' → c' = c)

theorem Replaces.append (front old new : List Char) (h : Replaces old new) :
    Replaces (front ++ old) (front ++ new) := by
  cases front with
  | nil => exact h
  | cons c rest => exact ⟨c, rest ++ old, c, rest ++ new, rfl, rfl, id, fun _ => rfl⟩

/-- A line that goes on behind a seam may go on with any sign but a quote, a slash or a star. -/
theorem Replaces.of_ne (c c' : Char) (rest rest' : List Char) (hc : c ≠ '\n')
    (hc' : c' ≠ '"' ∧ c' ≠ '/' ∧ c' ≠ '*') : Replaces (c :: rest) (c' :: rest') := by
  refine ⟨c, rest, c', rest', rfl, rfl, fun h => absurd h hc, ?_⟩
  rintro (h | h | h)
  · exact absurd h hc'.1
  · exact absurd h hc'.2.1
  · exact absurd h hc'.2.2

theorem Replaces.old_ne_nil {old new : List Char} (h : Replaces old new) : old ≠ [] := by
  obtain ⟨c, rest, _, _, rfl, -⟩ := h
  exact List.cons_ne_nil c rest

theorem lineTail_fst_replace (text old new : List Char) (h : Replaces old new)
    (ht : (lineTail (text ++ old)).1 = text) : (lineTail (text ++ new)).1 = text := by
  obtain ⟨c, rest, c', rest', rfl, rfl, hfeed, -⟩ := h
  simp only [lineTail] at ht ⊢
  have htext : ∀ x ∈ text, decide (x ≠ '\n') = true := by
    intro x hx
    rw [← ht] at hx
    have hne := List.mem_takeWhile_imp hx
    exact hne
  rw [List.takeWhile_append_of_pos htext] at ht ⊢
  by_cases hc : c = '\n'
  · simp [hfeed hc]
  · simp [hc] at ht

theorem blockTail_cons (c : Char) (rest : List Char)
    (h : ¬ (c = '*' ∧ rest.head? = some '/')) :
    blockTail (c :: rest) = (blockTail rest).cons c := by
  rw [blockTail]
  rintro tail rfl rfl
  exact h ⟨rfl, rfl⟩

theorem blockTail_fst_ne_nil (c : Char) (rest : List Char) : (blockTail (c :: rest)).1 ≠ [] := by
  by_cases h : c = '*' ∧ rest.head? = some '/'
  · obtain ⟨rfl, hrest⟩ := h
    obtain ⟨tail, rfl⟩ := List.head?_eq_some_iff.1 hrest
    simp [blockTail]
  · simp [blockTail_cons c rest h]

theorem blockTail_fst_replace (text old new : List Char) (hold : old ≠ [])
    (ht : (blockTail (text ++ old)).1 = text) : (blockTail (text ++ new)).1 = text := by
  obtain ⟨d, rest, rfl⟩ := List.exists_cons_of_ne_nil hold
  induction text with
  | nil => exact absurd ht (blockTail_fst_ne_nil d rest)
  | cons c tail ih =>
      by_cases hend : c = '*' ∧ (tail ++ d :: rest).head? = some '/'
      · obtain ⟨rfl, hslash⟩ := hend
        obtain ⟨behind, hbehind⟩ := List.head?_eq_some_iff.1 hslash
        rw [List.cons_append, hbehind] at ht
        cases tail with
        | nil => simp [blockTail] at ht
        | cons e tail =>
            obtain ⟨rfl, -⟩ := List.cons.inj hbehind
            simp only [blockTail, List.cons.injEq, true_and] at ht
            simp [← ht, blockTail]
      · rw [List.cons_append, blockTail_cons _ _ hend] at ht
        have htail : tail ≠ [] := by
          rintro rfl
          exact blockTail_fst_ne_nil d rest (List.cons.inj ht).2
        obtain ⟨e, tail, rfl⟩ := List.exists_cons_of_ne_nil htail
        have hend' : ¬ (c = '*' ∧ (e :: tail ++ new).head? = some '/') := by simpa using hend
        rw [List.cons_append, blockTail_cons _ _ hend', Cut.cons_fst, ih (List.cons.inj ht).2]

/-- A quote is verbatim behind a text that ends with one of two marks. -/
theorem opensVerbatim_iff (before : List Char) :
    opensVerbatim before = true ↔ ['@'] <:+ before.reverse ∨ ['@', '$'] <:+ before.reverse := by
  have hat : ['@'] = ['@'].reverse := rfl
  have hmark : ['@', '$'] = ['$', '@'].reverse := rfl
  rw [hat, hmark, List.reverse_suffix, List.reverse_suffix]
  constructor
  · intro h
    unfold opensVerbatim at h
    split at h
    · rename_i rest
      exact Or.inl ⟨rest, rfl⟩
    · rename_i rest
      exact Or.inr ⟨rest, rfl⟩
    · cases h
  · rintro (⟨rest, rfl⟩ | ⟨rest, rfl⟩)
    · rfl
    · rfl

theorem verbatimTail_cons (c : Char) (rest : List Char) (h : c ≠ '"') :
    verbatimTail (c :: rest) = (verbatimTail rest).cons c := by
  rw [verbatimTail]
  · rintro _ rfl
    contradiction
  · exact h

theorem verbatimTail_quote (rest : List Char) (h : rest.head? ≠ some '"') :
    verbatimTail ('"' :: rest) = (['"'], rest) := by
  rw [verbatimTail]
  rintro tail rfl
  exact h rfl

theorem verbatimTail_fst_ne_nil (c : Char) (rest : List Char) :
    (verbatimTail (c :: rest)).1 ≠ [] := by
  unfold verbatimTail
  split <;> simp_all

theorem verbatimTail_fst_replace (text old new : List Char) (h : Replaces old new)
    (ht : (verbatimTail (text ++ old)).1 = text) : (verbatimTail (text ++ new)).1 = text := by
  obtain ⟨d, rest, d', rest', rfl, rfl, -, hquote⟩ := h
  fun_induction verbatimTail text with
  | case1 => exact absurd ht (verbatimTail_fst_ne_nil d rest)
  | case2 tail ih =>
      simp only [List.cons_append, verbatimTail, Cut.cons_fst, List.cons.injEq, true_and] at ht ⊢
      exact ih ht
  | case3 tail hpair =>
      cases tail with
      | cons e tail =>
          have he : e ≠ '"' := fun he => hpair tail (by rw [he])
          rw [List.cons_append, verbatimTail_quote _ (by simpa using he)] at ht
          simp at ht
      | nil =>
          by_cases hd : d = '"'
          · subst hd
            simp [verbatimTail] at ht
          · have hd' : d' ≠ '"' := fun hd' => hd (hquote (Or.inl hd') ▸ hd')
            rw [List.cons_append, verbatimTail_quote _ (by simpa using hd')]
  | case4 c tail _ hc ih =>
      have hne : c ≠ '"' := fun heq => hc heq
      rw [List.cons_append, verbatimTail_cons c _ hne] at ht ⊢
      rw [Cut.cons_fst, ih (List.cons.inj ht).2]

theorem rawTail_fst_replace (quotes run : Nat) (text old new : List Char) (h : Replaces old new)
    (ht : (rawTail quotes run (text ++ old)).1 = text) :
    (rawTail quotes run (text ++ new)).1 = text := by
  obtain ⟨d, rest, d', rest', rfl, rfl, -, hquote⟩ := h
  induction text generalizing run with
  | nil =>
      have hd : d ≠ '"' := by
        rintro rfl
        simp [rawTail] at ht
      have hrun : quotes ≤ run := by
        by_contra hrun
        simp [rawTail, hd, hrun] at ht
      have hd' : d' ≠ '"' := fun hd' => hd (hquote (Or.inl hd') ▸ hd')
      simp [rawTail, hd', hrun]
  | cons c tail ih =>
      simp only [List.cons_append, rawTail] at ht ⊢
      split at ht
      · rename_i hc
        rw [if_pos hc, Cut.cons_fst, ih _ (List.cons.inj ht).2]
      · rename_i hc
        rw [if_neg hc]
        split at ht
        · cases ht
        · rename_i hrun
          rw [if_neg hrun, Cut.cons_fst, ih _ (List.cons.inj ht).2]

theorem literalTail_cons (delimiter c : Char) (rest : List Char) (h : c ≠ '\\') :
    literalTail delimiter (c :: rest) =
      if c = delimiter then ([c], rest)
      else if c = '\n' then ([], c :: rest)
      else (literalTail delimiter rest).cons c := by
  rw [literalTail]
  rintro _ _ rfl
  contradiction

/-- Nothing of a text belongs to a literal only if the line ends at once. -/
theorem literalTail_fst_eq_nil (delimiter c : Char) (rest : List Char)
    (h : (literalTail delimiter (c :: rest)).1 = []) : c = '\n' ∧ c ≠ delimiter := by
  by_cases hc : c = '\\'
  · subst hc
    cases rest with
    | nil =>
        simp only [literalTail] at h
        split at h <;> simp at h
    | cons d rest => simp [literalTail] at h
  · rw [literalTail_cons _ _ _ hc] at h
    split at h
    · cases h
    · split at h
      · exact ⟨‹_›, ‹_›⟩
      · cases h

theorem literalTail_fst_replace (delimiter : Char) (text old new : List Char)
    (hdelimiter : delimiter ≠ '\\') (h : Replaces old new)
    (ht : (literalTail delimiter (text ++ old)).1 = text) :
    (literalTail delimiter (text ++ new)).1 = text := by
  obtain ⟨d, rest, d', rest', rfl, rfl, hfeed, -⟩ := h
  fun_induction literalTail delimiter text with
  | case1 =>
      obtain ⟨hd, hne⟩ := literalTail_fst_eq_nil _ _ _ ht
      have hd' : d' = '\n' := hfeed hd
      subst hd hd'
      rw [List.nil_append, literalTail_cons _ _ _ (by decide), if_neg hne, if_pos rfl]
  | case2 c tail ih =>
      simp only [List.cons_append, literalTail, Cut.cons_fst, List.cons.injEq, true_and] at ht ⊢
      exact ih ht
  | case3 tail _ =>
      rw [List.cons_append, literalTail_cons _ _ _ hdelimiter, if_pos rfl] at ht ⊢
      exact ht
  | case4 tail _ hne =>
      rw [List.cons_append, literalTail_cons _ _ _ (by decide), if_neg hne, if_pos rfl] at ht
      cases ht
  | case5 c tail hpair hne hline ih =>
      by_cases hc : c = '\\'
      · subst hc
        cases tail with
        | nil => simp [literalTail] at ht
        | cons e tail => exact absurd rfl (hpair e tail rfl)
      · rw [List.cons_append, literalTail_cons _ _ _ hc, if_neg hne, if_neg hline] at ht ⊢
        rw [Cut.cons_fst, ih (List.cons.inj ht).2]

theorem two_le_quoteRun_iff (text : List Char) :
    2 ≤ quoteRun text ↔ ∃ rest, text = '"' :: '"' :: rest := by
  constructor
  · intro h
    match text with
    | [] => simp [quoteRun] at h
    | [c] =>
        have := (List.takeWhile_sublist (· = '"') (l := [c])).length_le
        simp [quoteRun] at h this
        omega
    | c :: d :: rest =>
        by_cases hc : c = '"'
        · by_cases hd : d = '"'
          · exact ⟨rest, by rw [hc, hd]⟩
          · simp [quoteRun, hc, hd] at h
        · simp [quoteRun, hc] at h
  · rintro ⟨rest, rfl⟩
    simp [quoteRun]

theorem not_two_le_quoteRun_replace (text old new : List Char) (h : Replaces old new)
    (hrun : ¬ 2 ≤ quoteRun (text ++ old)) (ht : (literalTail '"' (text ++ old)).1 = text) :
    ¬ 2 ≤ quoteRun (text ++ new) := by
  rw [two_le_quoteRun_iff] at hrun ⊢
  rintro ⟨rest, hrest⟩
  obtain ⟨d, behind, d', behind', rfl, rfl, -, hquote⟩ := h
  apply hrun
  match text with
  | [] =>
      obtain ⟨rfl, -⟩ := List.cons.inj hrest
      obtain rfl := hquote (Or.inl rfl)
      simp [literalTail] at ht
  | [c] =>
      obtain ⟨rfl, hbehind⟩ := List.cons.inj hrest
      obtain ⟨rfl, -⟩ := List.cons.inj hbehind
      obtain rfl := hquote (Or.inl rfl)
      exact ⟨behind, rfl⟩
  | c :: e :: tail =>
      obtain ⟨rfl, htail⟩ := List.cons.inj hrest
      obtain ⟨rfl, -⟩ := List.cons.inj htail
      exact ⟨tail ++ d :: behind, rfl⟩

/-- A raw string that ends in front of a text is its opening quotes and, behind them, a part that
starts with something else. -/
theorem rawTail_opening (text old : List Char) (hold : old ≠ [])
    (ht : (text ++ old).takeWhile (· = '"') ++
      (rawTail (((text ++ old).takeWhile (· = '"')).length + 1) 0
        ((text ++ old).dropWhile (· = '"'))).1 = text) :
    ∃ quotes c rest, text = quotes ++ c :: rest ∧ (∀ x ∈ quotes, decide (x = '"') = true) ∧
      c ≠ '"' := by
  have hcut := List.takeWhile_append_dropWhile (p := (· = '"')) (l := text ++ old)
  have hquotes : ∀ x ∈ (text ++ old).takeWhile (· = '"'), decide (x = '"') = true := by
    intro x hx
    have hx' := List.mem_takeWhile_imp hx
    exact hx'
  have hhead := List.head?_dropWhile_not (· = '"') (text ++ old)
  revert ht hcut hquotes hhead
  generalize (text ++ old).takeWhile (· = '"') = quotes
  generalize (text ++ old).dropWhile (· = '"') = inside
  intro ht hcut hquotes hhead
  cases inside with
  | nil =>
      have hlen := congrArg List.length (ht ▸ hcut)
      simp at hlen
      exact absurd hlen hold
  | cons c inside =>
      have hc : c ≠ '"' := by simpa using hhead
      refine ⟨quotes, c, (rawTail (quotes.length + 1) 0 inside).1, ?_, hquotes, hc⟩
      rw [← ht]
      simp [rawTail, hc]

/-- The string that ends at a seam stays the same when what follows is replaced. -/
theorem stringToken_replace (before text old new : List Char) (h : Replaces old new)
    (ht : (stringToken before (text ++ old)).1.text = '"' :: text) :
    (stringToken before (text ++ new)).1 = (stringToken before (text ++ old)).1 := by
  unfold stringToken at ht ⊢
  split
  · rename_i hverbatim
    simp only [if_pos hverbatim, Token.text, Cut.cons_fst, List.cons.injEq, true_and] at ht ⊢
    rw [verbatimTail_fst_replace text old new h ht, ht]
  · rename_i hverbatim
    rw [if_neg hverbatim] at ht
    split at ht
    · rename_i hrun
      simp only [Token.text, List.cons_append, List.cons.injEq, true_and] at ht
      obtain ⟨quotes, c, rest, rfl, hquotes, hc⟩ := rawTail_opening text old h.old_ne_nil ht
      have htake : ∀ behind, (quotes ++ c :: rest ++ behind).takeWhile (· = '"') = quotes := by
        intro behind
        rw [List.append_assoc, List.takeWhile_append_of_pos hquotes]
        simp [hc]
      have hdrop : ∀ behind, (quotes ++ c :: rest ++ behind).dropWhile (· = '"') =
          c :: rest ++ behind := by
        intro behind
        rw [List.append_assoc, List.dropWhile_append_of_pos hquotes]
        simp [hc]
      have hrun' : 2 ≤ quoteRun (quotes ++ c :: rest ++ new) := by
        rw [quoteRun, htake] at hrun ⊢
        exact hrun
      rw [if_pos hrun, if_pos hrun', htake, htake, hdrop, hdrop]
      rw [htake, hdrop] at ht
      have hraw := List.append_cancel_left ht
      simp only [rawTail_fst_replace _ _ (c :: rest) old new h hraw, hraw]
    · rename_i hrun
      simp only [Token.text, Cut.cons_fst, List.cons.injEq, true_and] at ht
      rw [if_neg hrun, if_neg (not_two_le_quoteRun_replace text old new h hrun ht)]
      simp only [Cut.cons_fst, literalTail_fst_replace '"' text old new (by decide) h ht, ht]

theorem firstToken_slash (before rest : List Char)
    (h : ∀ d, rest.head? = some d → d ≠ '/' ∧ d ≠ '*') :
    firstToken before '/' rest = (.code '/', rest) := by
  cases rest with
  | nil => rfl
  | cons d rest =>
      obtain ⟨hslash, hstar⟩ := h d rfl
      unfold firstToken
      split <;> simp_all

/-- A slash that is a character of code is followed by neither a slash nor a star. -/
theorem firstToken_slash_fst_replace (before text old new : List Char) (h : Replaces old new)
    (ht : (firstToken before '/' (text ++ old)).1.text = '/' :: text) :
    (firstToken before '/' (text ++ new)).1 = (firstToken before '/' (text ++ old)).1 := by
  cases text with
  | cons d tail =>
      by_cases hslash : d = '/'
      · subst hslash
        simp only [List.cons_append, firstToken, Token.text, Cut.cons_fst, List.cons.injEq,
          true_and] at ht ⊢
        rw [← List.cons_append] at ht ⊢
        rw [lineTail_fst_replace ('/' :: tail) old new h ht, ← List.cons_append, ht]
      · by_cases hstar : d = '*'
        · subst hstar
          simp only [List.cons_append, firstToken, Token.text, Cut.cons_fst, List.cons.injEq,
            true_and] at ht ⊢
          rw [blockTail_fst_replace tail old new h.old_ne_nil ht, ht]
        · have hcode := firstToken_slash before (d :: tail ++ old) (by simp [hslash, hstar])
          rw [hcode] at ht
          simp [Token.text] at ht
  | nil =>
      obtain ⟨d, rest, d', rest', rfl, rfl, -, hstart⟩ := h
      have hold : d ≠ '/' ∧ d ≠ '*' := by
        constructor
        · rintro rfl
          simp [firstToken, Token.text, lineTail] at ht
        · rintro rfl
          simp [firstToken, Token.text] at ht
      have hnew : d' ≠ '/' ∧ d' ≠ '*' := by
        constructor
        · intro hd'
          exact hold.1 (hstart (Or.inr (Or.inl hd')) ▸ hd')
        · intro hd'
          exact hold.2 (hstart (Or.inr (Or.inr hd')) ▸ hd')
      rw [List.nil_append, List.nil_append, firstToken_slash _ _ (by simpa using hnew),
        firstToken_slash _ _ (by simpa using hold)]

/-- The token that ends at a seam stays the same when what follows is replaced. -/
theorem firstToken_replace (before : List Char) (c : Char) (text old new : List Char)
    (h : Replaces old new) (ht : (firstToken before c (text ++ old)).1.text = c :: text) :
    firstToken before c (text ++ new) = ((firstToken before c (text ++ old)).1, new) := by
  have hfst : (firstToken before c (text ++ new)).1 = (firstToken before c (text ++ old)).1 := by
    by_cases hc : opensTrivia c = true
    · simp only [opensTrivia, Bool.or_eq_true, beq_iff_eq] at hc
      rcases hc with ((rfl | rfl) | rfl) | rfl
      · exact firstToken_slash_fst_replace before text old new h ht
      · simp only [firstToken] at ht ⊢
        split
        · rename_i hstart
          simp only [if_pos hstart, Token.text, Cut.cons_fst, List.cons.injEq, true_and] at ht ⊢
          rw [lineTail_fst_replace text old new h ht, ht]
        · rfl
      · exact stringToken_replace before text old new h ht
      · simp only [firstToken, Token.text, Cut.cons_fst, List.cons.injEq, true_and] at ht ⊢
        rw [literalTail_fst_replace '\'' text old new (by decide) h ht, ht]
    · have hplain : opensTrivia c = false := by simpa using hc
      rw [firstToken_of_not_opensTrivia _ _ _ hplain, firstToken_of_not_opensTrivia _ _ _ hplain]
  have happend := firstToken_append before c (text ++ new)
  rw [hfst, ht, List.cons_append, List.cons.injEq, List.append_cancel_left_eq] at happend
  exact Prod.ext hfst happend.2

/-- The first token of a text that is cut, with the part of the text that it takes. -/
theorem cut_eq_cons (before text : List Char) (token : Token) (back : List Token)
    (h : cut before text = token :: back) :
    ∃ c tail behind, text = c :: (tail ++ behind) ∧ token.text = c :: tail ∧
      firstToken before c (tail ++ behind) = (token, behind) ∧
      back = cut (token.text.reverse ++ before) behind := by
  cases text with
  | nil => simp [cut] at h
  | cons c rest =>
      rw [cut, List.cons.injEq] at h
      obtain ⟨htoken, hback⟩ := h
      have htext := firstToken_append before c rest
      obtain ⟨d, tail, hd⟩ := List.exists_cons_of_ne_nil (firstToken_text_ne_nil before c rest)
      rw [hd, List.cons_append, List.cons.injEq] at htext
      obtain ⟨rfl, hrest⟩ := htext
      refine ⟨d, tail, (firstToken before d rest).2, by rw [hrest], ?_, ?_, ?_⟩
      · rw [← htoken, hd]
      · rw [hrest, ← htoken]
      · rw [← htoken, ← hback]

/-- What stands behind some tokens of a text is cut as a text of its own. -/
theorem cut_eq_append (before text : List Char) (front back : List Token)
    (h : cut before text = front ++ back) :
    back = cut ((front.flatMap Token.text).reverse ++ before) (back.flatMap Token.text) := by
  induction front generalizing before text with
  | nil =>
      have htext := cut_flatten before text
      rw [h] at htext
      simp only [List.nil_append] at h htext
      rw [htext, ← h]
      rfl
  | cons token front ih =>
      obtain ⟨c, tail, behind, -, -, -, hback⟩ := cut_eq_cons before text token _ h
      have hrec := ih _ _ hback.symm
      simpa using hrec

/-- What stands behind a seam is cut as a text of its own. -/
theorem cut_seam (before front rest : List Char) (tokens back : List Token)
    (hcut : cut before (front ++ rest) = tokens ++ back)
    (htokens : tokens.flatMap Token.text = front) : back = cut (front.reverse ++ before) rest := by
  have htext := cut_flatten before (front ++ rest)
  rw [hcut, List.flatMap_append, htokens] at htext
  have hback := cut_eq_append before _ tokens back hcut
  rwa [htokens, List.append_cancel_left htext] at hback

/-- The tokens in front of a seam stay the same when what follows the seam is replaced. -/
theorem cut_replace (before old new : List Char) (front : List Token) (h : Replaces old new)
    (hcut : cut before (front.flatMap Token.text ++ old) =
      front ++ cut ((front.flatMap Token.text).reverse ++ before) old) :
    cut before (front.flatMap Token.text ++ new) =
      front ++ cut ((front.flatMap Token.text).reverse ++ before) new := by
  induction front generalizing before with
  | nil => rfl
  | cons token front ih =>
      obtain ⟨c, tail, behind, htext, htoken, hfirst, hback⟩ := cut_eq_cons before _ token _ hcut
      simp only [List.flatMap_cons, htoken, List.cons_append, List.append_assoc, List.cons.injEq,
        true_and, List.append_cancel_left_eq] at htext
      subst htext
      have hnew := firstToken_replace before c tail _ (front.flatMap Token.text ++ new)
        (h.append (front.flatMap Token.text)) (by rw [hfirst, htoken])
      have hrec := ih (token.text.reverse ++ before) (by simpa using hback.symm)
      rw [List.flatMap_cons, htoken, List.append_assoc, List.cons_append, cut, hnew, hfirst, hrec]
      simp [htoken]

theorem lineTail_snd_head (text behind : List Char) (d : Char)
    (h : (lineTail text).2 = d :: behind) : d = '\n' := by
  have hhead := List.head?_dropWhile_not (fun x => decide (x ≠ '\n')) text
  simp only [lineTail] at h
  rw [h] at hhead
  simpa using hhead

theorem blockTail_getLast (text behind : List Char) (d : Char)
    (h : (blockTail text).2 = d :: behind) :
    (blockTail text).1.getLast? = some '/' := by
  fun_induction blockTail text with
  | case1 => cases h
  | case2 rest => rfl
  | case3 c rest _ ih => simp [List.getLast?_cons, ih h]

theorem verbatimTail_getLast (text behind : List Char) (d : Char)
    (h : (verbatimTail text).2 = d :: behind) :
    (verbatimTail text).1.getLast? = some '"' := by
  fun_induction verbatimTail text with
  | case1 => cases h
  | case2 rest ih => simp [List.getLast?_cons, ih h]
  | case3 rest _ => rfl
  | case4 c rest _ _ ih => simp [List.getLast?_cons, ih h]

theorem rawTail_getLast (quotes run : Nat) (text behind : List Char) (d : Char)
    (hquotes : 0 < quotes) (h : (rawTail quotes run text).2 = d :: behind) :
    (rawTail quotes run text).1 = [] ∧ quotes ≤ run ∨
      (rawTail quotes run text).1.getLast? = some '"' := by
  fun_induction rawTail quotes run text with
  | case1 => cases h
  | case2 run rest ih =>
      rcases ih h with ⟨hnil, -⟩ | hlast
      · simp [hnil]
      · simp [List.getLast?_cons, hlast]
  | case3 run c rest _ hrun => exact Or.inl ⟨rfl, hrun⟩
  | case4 run c rest _ _ ih =>
      rcases ih h with ⟨-, hzero⟩ | hlast
      · omega
      · simp [List.getLast?_cons, hlast]

theorem literalTail_getLast (delimiter : Char) (text behind : List Char) (d : Char)
    (hd : d ≠ '\n') (h : (literalTail delimiter text).2 = d :: behind) :
    (literalTail delimiter text).1.getLast? = some delimiter := by
  fun_induction literalTail delimiter text with
  | case1 => cases h
  | case2 c rest ih => simp [List.getLast?_cons, ih h]
  | case3 rest _ => rfl
  | case4 rest _ _ => exact absurd (List.cons.inj h).1.symm hd
  | case5 c rest _ _ _ ih => simp [List.getLast?_cons, ih h]

theorem stringToken_getLast (before rest : List Char) (kind : TriviaKind) (text : List Char)
    (d : Char) (behind : List Char) (hd : d ≠ '\n')
    (h : stringToken before rest = (.trivia kind text, d :: behind)) :
    text.getLast? = some '"' := by
  unfold stringToken at h
  split at h
  · simp only [Prod.mk.injEq, Token.trivia.injEq, Cut.cons_fst, Cut.cons_snd] at h
    obtain ⟨⟨-, rfl⟩, hrest⟩ := h
    have hlast := verbatimTail_getLast rest behind d hrest
    simp [List.getLast?_cons, hlast]
  · split at h
    · simp only [Prod.mk.injEq, Token.trivia.injEq] at h
      obtain ⟨⟨-, rfl⟩, hrest⟩ := h
      have hlast := rawTail_getLast _ 0 _ behind d (Nat.succ_pos _) hrest
      rcases hlast with ⟨-, hzero⟩ | hlast
      · omega
      · simp [List.getLast?_append, List.getLast?_cons, hlast]
    · simp only [Prod.mk.injEq, Token.trivia.injEq, Cut.cons_fst, Cut.cons_snd] at h
      obtain ⟨⟨-, rfl⟩, hrest⟩ := h
      simp [List.getLast?_cons, literalTail_getLast '"' rest behind d hd hrest]

/-- Trivia that does not end with its line ends with a slash, a quote or an apostrophe. -/
theorem firstToken_trivia_getLast (before : List Char) (c : Char) (rest : List Char)
    (kind : TriviaKind) (text : List Char) (d : Char) (behind : List Char) (hd : d ≠ '\n')
    (h : firstToken before c rest = (.trivia kind text, d :: behind)) :
    ∃ last, text.getLast? = some last ∧ (last = '/' ∨ last = '"' ∨ last = '\'') := by
  unfold firstToken at h
  split at h
  · simp only [Prod.mk.injEq, Cut.cons_snd] at h
    exact absurd (lineTail_snd_head _ _ _ h.2) hd
  · simp only [Prod.mk.injEq, Token.trivia.injEq, Cut.cons_fst, Cut.cons_snd] at h
    obtain ⟨⟨-, rfl⟩, hrest⟩ := h
    have hlast := blockTail_getLast _ behind d hrest
    exact ⟨'/', by simp [List.getLast?_cons, hlast], Or.inl rfl⟩
  · split at h
    · simp only [Prod.mk.injEq, Cut.cons_snd] at h
      exact absurd (lineTail_snd_head _ _ _ h.2) hd
    · cases h
  · exact ⟨'"', stringToken_getLast before rest kind text d behind hd h, Or.inr (Or.inl rfl)⟩
  · simp only [Prod.mk.injEq, Token.trivia.injEq, Cut.cons_fst, Cut.cons_snd] at h
    obtain ⟨⟨-, rfl⟩, hrest⟩ := h
    have hlast := literalTail_getLast '\'' rest behind d hd hrest
    exact ⟨'\'', by simp [List.getLast?_cons, hlast], Or.inr (Or.inr rfl)⟩
  · cases h

/-- The last token before a seam is a character of code if a blank stands there and the line goes
on behind it. -/
theorem token_eq_code_of_blank (before text behind : List Char) (token : Token)
    (back : List Token) (c d : Char) (hc : isBlank c = true) (hd : d ≠ '\n')
    (hcut : cut before text = token :: back) (hback : back.flatMap Token.text = d :: behind)
    (hlast : token.text.getLast? = some c) : token = .code c := by
  obtain ⟨e, tail, rest, -, htoken, hfirst, hrest⟩ := cut_eq_cons before text token back hcut
  rw [hrest, cut_flatten] at hback
  subst hback
  cases token with
  | code x => simpa [Token.text] using hlast
  | trivia kind inside =>
      obtain ⟨last, hinside, hend⟩ :=
        firstToken_trivia_getLast _ _ _ kind inside d behind hd hfirst
      simp only [Token.text] at hlast
      obtain rfl : last = c := Option.some.inj (hinside.symm.trans hlast)
      rcases hend with rfl | rfl | rfl <;> exact absurd hc (by decide)

/-- Blanks on the line of a seam, directly in front of it, are characters of code. -/
theorem front_eq_append_blanks (before text front blanks behind : List Char) (d : Char)
    (tokens back : List Token) (hd : d ≠ '\n')
    (hblanks : ∀ c ∈ blanks, isBlank c = true ∧ c ≠ '\n')
    (hcut : cut before text = tokens ++ back) (hback : back.flatMap Token.text = d :: behind)
    (htokens : tokens.flatMap Token.text = front ++ blanks) :
    ∃ tokens', tokens = tokens' ++ blanks.map Token.code ∧
      tokens'.flatMap Token.text = front := by
  induction blanks using List.reverseRecOn generalizing tokens back d behind with
  | nil => exact ⟨tokens, by simp, by simpa using htokens⟩
  | append_singleton blanks c ih =>
      obtain ⟨hc, hfeed⟩ := hblanks c (by simp)
      obtain rfl | ⟨tokens, token, rfl⟩ := List.eq_nil_or_concat tokens
      · simp at htokens
      rw [List.concat_eq_append] at htokens hcut ⊢
      rw [List.append_assoc, List.singleton_append] at hcut
      have hseam := cut_eq_append before text tokens (token :: back) hcut
      obtain ⟨e, tail, -, -, htext, -⟩ := cut_eq_cons _ _ token back hseam.symm
      have hlast : token.text.getLast? = some c := by
        have := congrArg List.getLast? htokens
        simpa [List.getLast?_append, htext, List.getLast?_cons] using this
      obtain rfl := token_eq_code_of_blank _ _ behind token back c d hc hd hseam.symm hback hlast
      have hfront : tokens.flatMap Token.text = front ++ blanks := by
        simpa [Token.text, ← List.append_assoc] using htokens
      obtain ⟨tokens', rfl, hfront'⟩ := ih (d :: behind) c tokens (.code c :: back) hfeed
        (fun x hx => hblanks x (by simp [hx])) hcut (by simp [Token.text, hback]) hfront
      exact ⟨tokens', by simp, hfront'⟩

end RecordText.Source
