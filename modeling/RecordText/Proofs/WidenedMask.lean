import RecordText.Proofs.CarriageReturns
import RecordText.Proofs.Masking
import Mathlib.Data.List.Chain

/-!
# Masks of texts with carriage returns

A carriage return before every line feed makes the mask of a text wider at its
line feeds and leaves it alone everywhere else: in code the carriage return
stays, in a comment or a literal a space stands for it, and the line feed stays
in both.

## Implementation notes

Comments and literals that span lines take the carriage returns inside them
along. A line comment, a preprocessor line or a literal that is not closed ends
before the line feed of its line; with carriage returns it ends one character
further behind. An escaped line feed is left out: it would let the literal run
on into the next line, but the carriage return before it would be the escaped
character.
-/

namespace RecordText.Source

open RecordText.Text

/-- Whether `c` may stand for a line end in a masked text. -/
def isSpacer (c : Char) : Bool :=
  c == ' ' || c == '\n' || c == '\r'

/-- The second text is the first one with two spacers for each line feed. -/
inductive Widened : List Char → List Char → Prop
  | nil : Widened [] []
  | sign {a b : List Char} (c : Char) (hc : c ≠ '\n') (h : Widened a b) :
      Widened (c :: a) (c :: b)
  | gap {a b : List Char} (x y : Char) (hx : isSpacer x = true) (hy : isSpacer y = true)
      (h : Widened a b) : Widened ('\n' :: a) (x :: y :: b)

theorem Widened.append {a b c d : List Char} (h : Widened a b) (h' : Widened c d) :
    Widened (a ++ c) (b ++ d) := by
  induction h with
  | nil => exact h'
  | sign s hs _ ih => exact .sign s hs ih
  | gap x y hx hy _ ih => exact .gap x y hx hy ih

theorem Widened.reverse {a b : List Char} (h : Widened a b) : Widened a.reverse b.reverse := by
  induction h with
  | nil => exact .nil
  | sign c hc _ ih =>
      rw [List.reverse_cons, List.reverse_cons]
      exact ih.append (.sign c hc .nil)
  | gap x y hx hy _ ih =>
      rw [List.reverse_cons, List.reverse_cons, List.reverse_cons, List.append_assoc]
      exact ih.append (.gap y x hy hx .nil)

/-- Without line feeds there is nothing to widen. -/
theorem Widened.refl (text : List Char) (h : '\n' ∉ text) : Widened text text := by
  induction text with
  | nil => exact .nil
  | cons c text ih =>
      rw [List.mem_cons, not_or] at h
      exact .sign c (Ne.symm h.1) (ih h.2)

theorem Widened.eq_of_not_mem {a b : List Char} (h : Widened a b) (hfeed : '\n' ∉ a) : b = a := by
  induction h with
  | nil => rfl
  | sign c _ _ ih => rw [ih fun hmem => hfeed (List.mem_cons_of_mem c hmem)]
  | gap => exact absurd (List.mem_cons_self ..) hfeed

theorem Widened.byteLength_eq {a b : List Char} (h : Widened a b) :
    byteLength b = byteLength a + lineFeeds a := by
  have hspacer : ∀ x, isSpacer x = true → x.utf8Size = 1 := by
    intro x hx
    simp only [isSpacer, Bool.or_eq_true, beq_iff_eq] at hx
    rcases hx with (rfl | rfl) | rfl <;> decide
  induction h with
  | nil => rfl
  | sign c hc _ ih =>
      simp only [lineFeeds] at ih ⊢
      simp only [byteLength, ih, List.countP_cons, hc, decide_false, Bool.false_eq_true, if_false]
      omega
  | gap x y hx hy _ ih =>
      simp only [lineFeeds] at ih ⊢
      simp only [byteLength, ih, List.countP_cons, decide_true, if_true, hspacer x hx,
        hspacer y hy]
      have hfeed : '\n'.utf8Size = 1 := by decide
      omega

/-- Carriage returns in a comment or a literal are masked like everything else in it. -/
theorem widened_blankOut (text : List Char) :
    Widened (text.flatMap blankOut) ((withReturns text).flatMap blankOut) := by
  induction text with
  | nil => exact .nil
  | cons c text ih =>
      by_cases h : c = '\n'
      · subst h
        exact .gap ' ' '\n' rfl rfl ih
      · rw [withReturns_cons_of_ne c text h, List.flatMap_cons, List.flatMap_cons]
        refine Widened.append (Widened.refl _ ?_) ih
        rw [blankOut, if_neg h]
        intro hmem
        exact absurd (List.eq_of_mem_replicate hmem) (by decide)

/-- Texts look alike with and without carriage returns. -/
theorem LooksAlike.withReturns {before before' : List Char} (h : LooksAlike before before')
    (text : List Char) :
    LooksAlike (text.reverse ++ before) ((withReturns text).reverse ++ before') := by
  rcases not_mem_or_exists_last text with hnone | ⟨front, line, rfl, hline⟩
  · rw [withReturns_of_not_mem text hnone]
    exact h.append _
  · have hfeed := LooksAlike.cons '\n' '\n' (front.reverse ++ before)
      ('\r' :: ((Text.withReturns front).reverse ++ before')) (by decide) (by decide) Iff.rfl
    simpa [withReturns_of_not_mem line hline] using hfeed.append line.reverse

theorem head?_of_head?_withReturns (text : List Char) (c : Char) (hc : c ≠ '\r')
    (h : (withReturns text).head? = some c) : text.head? = some c := by
  cases text with
  | nil => exact h
  | cons d text =>
      by_cases hd : d = '\n'
      · subst hd
        exact absurd (Option.some.inj h).symm hc
      · rwa [withReturns_cons_of_ne d text hd] at h

/-- How a token ends when carriage returns are added: it takes them along, or it ends in front of a
line feed and takes the carriage return there. -/
def EndsWidened (found wide : Cut) : Prop :=
  wide = (withReturns found.1, withReturns found.2) ∨
    ∃ rest, '\n' ∉ found.1 ∧ found.2 = '\n' :: rest ∧
      wide = (found.1 ++ ['\r'], '\n' :: withReturns rest)

theorem EndsWidened.cons {found wide : Cut} (h : EndsWidened found wide) (c : Char)
    (hc : c ≠ '\n') : EndsWidened (found.cons c) (wide.cons c) := by
  rcases h with rfl | ⟨rest, hfeed, hrest, rfl⟩
  · exact Or.inl (by rw [Cut.cons_fst, Cut.cons_snd, withReturns_cons_of_ne c _ hc]; rfl)
  · exact Or.inr ⟨rest, by simp [hfeed, Ne.symm hc], hrest, rfl⟩

theorem lineTail_withReturns (text : List Char) :
    EndsWidened (lineTail text) (lineTail (withReturns text)) := by
  induction text with
  | nil => exact Or.inl rfl
  | cons c text ih =>
      by_cases h : c = '\n'
      · subst h
        exact Or.inr ⟨text, by simp [lineTail], by simp [lineTail], by simp [lineTail]⟩
      · have hcons (rest : List Char) : lineTail (c :: rest) = (lineTail rest).cons c := by
          simp [lineTail, h, Cut.cons]
        rw [withReturns_cons_of_ne c text h, hcons, hcons]
        exact ih.cons c h

theorem blockTail_withReturns (text : List Char) :
    blockTail (withReturns text) =
      (withReturns (blockTail text).1, withReturns (blockTail text).2) := by
  fun_induction blockTail text with
  | case1 => rfl
  | case2 rest => simp [withReturns_cons_of_ne, blockTail]
  | case3 c rest hopen ih =>
      by_cases h : c = '\n'
      · subst h
        rw [withReturns_feed, blockTail_cons '\r' _ (by simp), blockTail_cons '\n' _ (by simp), ih]
        rfl
      · have hclose : ¬ (c = '*' ∧ (withReturns rest).head? = some '/') := by
          rintro ⟨rfl, hhead⟩
          have hhead' := head?_of_head?_withReturns rest '/' (by decide) hhead
          obtain ⟨tail, rfl⟩ := List.head?_eq_some_iff.1 hhead'
          exact hopen tail rfl rfl
        rw [withReturns_cons_of_ne c rest h, blockTail_cons c _ hclose, ih, Cut.cons_fst,
          withReturns_cons_of_ne c _ h]
        rfl

theorem verbatimTail_withReturns (text : List Char) :
    verbatimTail (withReturns text) =
      (withReturns (verbatimTail text).1, withReturns (verbatimTail text).2) := by
  fun_induction verbatimTail text with
  | case1 => rfl
  | case2 rest ih => simp [withReturns_cons_of_ne, verbatimTail, ih, Cut.cons]
  | case3 rest hquote =>
      have hhead : (withReturns rest).head? ≠ some '"' := by
        intro hhead
        have hhead' := head?_of_head?_withReturns rest '"' (by decide) hhead
        obtain ⟨tail, rfl⟩ := List.head?_eq_some_iff.1 hhead'
        exact hquote tail rfl
      rw [withReturns_cons_of_ne '"' rest (by decide), verbatimTail_quote _ hhead]
      rfl
  | case4 c rest _ hquote ih =>
      have hc : c ≠ '"' := hquote
      by_cases h : c = '\n'
      · subst h
        rw [withReturns_feed, verbatimTail_cons '\r' _ (by decide),
          verbatimTail_cons '\n' _ (by decide), ih]
        rfl
      · rw [withReturns_cons_of_ne c rest h, verbatimTail_cons c _ hc, ih, Cut.cons_fst,
          withReturns_cons_of_ne c _ h]
        rfl

theorem rawTail_withReturns (quotes run : Nat) (text : List Char) :
    rawTail quotes run (withReturns text) =
      (withReturns (rawTail quotes run text).1, withReturns (rawTail quotes run text).2) := by
  fun_induction rawTail quotes run text with
  | case1 => rfl
  | case2 run rest ih =>
      rw [withReturns_cons_of_ne '"' rest (by decide), rawTail, if_pos rfl, ih, Cut.cons_fst,
        withReturns_cons_of_ne '"' _ (by decide)]
      rfl
  | case3 run c rest hquote hrun =>
      by_cases h : c = '\n'
      · subst h
        rw [withReturns_feed, rawTail, if_neg (by decide), if_pos hrun]
        rfl
      · rw [withReturns_cons_of_ne c rest h, rawTail, if_neg hquote, if_pos hrun]
        rfl
  | case4 run c rest hquote hrun ih =>
      by_cases h : c = '\n'
      · subst h
        have hzero : ¬ quotes ≤ 0 := by omega
        rw [withReturns_feed, rawTail, if_neg (by decide), if_neg hrun, rawTail,
          if_neg (by decide), if_neg hzero, ih]
        rfl
      · rw [withReturns_cons_of_ne c rest h, rawTail, if_neg hquote, if_neg hrun, ih, Cut.cons_fst,
          withReturns_cons_of_ne c _ h]
        rfl

/-- Two neighbours that are not an escaped line feed. -/
def NotEscapedFeed (c d : Char) : Prop :=
  c = '\\' → d ≠ '\n'

instance (c d : Char) : Decidable (NotEscapedFeed c d) :=
  inferInstanceAs (Decidable (_ → _))

theorem literalTail_cons_withReturns (delimiter c : Char) (rest : List Char)
    (h : ∀ d more, c = '\\' → rest = d :: more → False) :
    literalTail delimiter (c :: withReturns rest) =
      if c = delimiter then ([c], withReturns rest)
      else if c = '\n' then ([], c :: withReturns rest)
      else (literalTail delimiter (withReturns rest)).cons c := by
  rw [literalTail]
  rintro d more rfl hrest
  cases rest with
  | nil => cases hrest
  | cons e tail => exact h e tail rfl rfl

theorem literalTail_withReturns (delimiter : Char) (text : List Char)
    (hdelimiter : delimiter ≠ '\n' ∧ delimiter ≠ '\r') (h : text.IsChain NotEscapedFeed) :
    EndsWidened (literalTail delimiter text) (literalTail delimiter (withReturns text)) := by
  fun_induction literalTail delimiter text with
  | case1 => exact Or.inl rfl
  | case2 c rest ih =>
      obtain ⟨hc, hrest⟩ := List.isChain_cons_cons.1 h
      have hne : c ≠ '\n' := hc rfl
      rw [withReturns_cons_of_ne '\\' _ (by decide), withReturns_cons_of_ne c _ hne, literalTail]
      exact ((ih hrest.tail).cons c hne).cons '\\' (by decide)
  | case3 rest hslash =>
      rw [withReturns_cons_of_ne _ _ hdelimiter.1, literalTail_cons_withReturns _ _ _ hslash,
        if_pos rfl]
      exact Or.inl (by rw [withReturns_cons_of_ne _ _ hdelimiter.1]; rfl)
  | case4 rest hslash hne =>
      have hreturn : literalTail delimiter ('\r' :: '\n' :: withReturns rest) =
          (['\r'], '\n' :: withReturns rest) := by
        rw [literalTail_cons _ '\r' _ (by decide), if_neg (Ne.symm hdelimiter.2),
          if_neg (by decide), literalTail_cons _ '\n' _ (by decide), if_neg hne, if_pos rfl]
        rfl
      exact Or.inr ⟨rest, by simp, rfl, hreturn⟩
  | case5 c rest hslash hne hfeed ih =>
      rw [withReturns_cons_of_ne c rest hfeed, literalTail_cons_withReturns _ c _ hslash,
        if_neg hne, if_neg hfeed]
      exact (ih h.tail).cons c hfeed

/-- A token with carriage returns. -/
def Token.withReturns : Token → Token
  | trivia kind text => trivia kind (Text.withReturns text)
  | code c => code c

/-- How the first token of a text changes when carriage returns are added. -/
def TokenWidened (found wide : Token × List Char) : Prop :=
  wide = (found.1.withReturns, withReturns found.2) ∨
    ∃ kind text rest, '\n' ∉ text ∧ found = (.trivia kind text, '\n' :: rest) ∧
      wide = (.trivia kind (text ++ ['\r']), '\n' :: withReturns rest)

theorem EndsWidened.token {found wide : Cut} (h : EndsWidened found wide) (kind : TriviaKind) :
    TokenWidened (.trivia kind found.1, found.2) (.trivia kind wide.1, wide.2) := by
  rcases h with rfl | ⟨rest, hfeed, hrest, rfl⟩
  · exact Or.inl rfl
  · exact Or.inr ⟨kind, found.1, rest, hfeed, by rw [hrest], rfl⟩

theorem takeWhile_quote_withReturns (text : List Char) :
    (withReturns text).takeWhile (· = '"') = text.takeWhile (· = '"') ∧
      (withReturns text).dropWhile (· = '"') = withReturns (text.dropWhile (· = '"')) := by
  induction text with
  | nil => exact ⟨rfl, rfl⟩
  | cons c text ih =>
      by_cases hc : c = '"'
      · subst hc
        rw [withReturns_cons_of_ne '"' text (by decide)]
        simpa using ih
      · by_cases h : c = '\n'
        · subst h
          exact ⟨rfl, rfl⟩
        · rw [withReturns_cons_of_ne c text h]
          simp [hc, withReturns_cons_of_ne c text h]

theorem stringToken_withReturns (before rest : List Char) (h : rest.IsChain NotEscapedFeed) :
    TokenWidened (stringToken before rest) (stringToken before (withReturns rest)) := by
  obtain ⟨htake, hdrop⟩ := takeWhile_quote_withReturns rest
  unfold stringToken
  split
  · refine EndsWidened.token (EndsWidened.cons ?_ '"' (by decide)) .verbatimString
    exact Or.inl (verbatimTail_withReturns rest)
  · have hrun : quoteRun (withReturns rest) = quoteRun rest := by rw [quoteRun, htake, quoteRun]
    rw [hrun, htake]
    split
    · have hquotes : '\n' ∉ '"' :: rest.takeWhile (· = '"') := by
        intro hmem
        rcases List.mem_cons.1 hmem with hquote | hquote
        · exact absurd hquote (by decide)
        · simpa using List.mem_takeWhile_imp hquote
      have hopening := withReturns_of_not_mem _ hquotes
      refine Or.inl ?_
      simp only [hdrop, rawTail_withReturns, Token.withReturns, withReturns_append, hopening]
    · exact ((literalTail_withReturns '"' rest (by decide) h).cons '"' (by decide)).token .string

theorem firstToken_hash (before rest : List Char) :
    firstToken before '#' rest =
      if atLineStart before then
        (.trivia .directive ((lineTail rest).cons '#').1, ((lineTail rest).cons '#').2)
      else (.code '#', rest) := by
  cases rest <;> rfl

theorem firstToken_slash_withReturns (before rest : List Char) :
    TokenWidened (firstToken before '/' rest) (firstToken before '/' (withReturns rest)) := by
  cases rest with
  | nil => exact Or.inl rfl
  | cons d rest =>
      by_cases hslash : d = '/'
      · subst hslash
        have hline := ((lineTail_withReturns ('/' :: rest)).cons '/' (by decide)).token .lineComment
        rw [withReturns_cons_of_ne '/' rest (by decide)] at hline ⊢
        exact hline
      · by_cases hstar : d = '*'
        · subst hstar
          have hblock : EndsWidened (blockTail rest) (blockTail (withReturns rest)) :=
            Or.inl (blockTail_withReturns rest)
          have htoken := ((hblock.cons '*' (by decide)).cons '/' (by decide)).token .blockComment
          rw [withReturns_cons_of_ne '*' rest (by decide)]
          exact htoken
        · have hwide : ∀ e, (withReturns (d :: rest)).head? = some e → e ≠ '/' ∧ e ≠ '*' := by
            intro e hhead
            constructor
            · rintro rfl
              exact hslash (Option.some.inj (head?_of_head?_withReturns _ _ (by decide) hhead))
            · rintro rfl
              exact hstar (Option.some.inj (head?_of_head?_withReturns _ _ (by decide) hhead))
          rw [firstToken_slash before (d :: rest) (by simp [hslash, hstar]),
            firstToken_slash before _ hwide]
          exact Or.inl rfl

/-- The first token takes the carriage returns inside it along, or it ends in front of a line feed
and takes the carriage return there. -/
theorem firstToken_withReturns (before : List Char) (c : Char) (rest : List Char) (hc : c ≠ '\n')
    (h : rest.IsChain NotEscapedFeed) :
    TokenWidened (firstToken before c rest) (firstToken before c (withReturns rest)) := by
  cases hopens : opensTrivia c with
  | false =>
      rw [firstToken_of_not_opensTrivia _ _ _ hopens, firstToken_of_not_opensTrivia _ _ _ hopens]
      exact Or.inl rfl
  | true =>
      simp only [opensTrivia, Bool.or_eq_true, beq_iff_eq] at hopens
      rcases hopens with ((rfl | rfl) | rfl) | rfl
      · exact firstToken_slash_withReturns before rest
      · rw [firstToken_hash, firstToken_hash]
        split
        · exact ((lineTail_withReturns rest).cons '#' (by decide)).token .directive
        · exact Or.inl rfl
      · exact stringToken_withReturns before rest h
      · exact ((literalTail_withReturns '\'' rest (by decide) h).cons '\'' (by decide)).token
          .character

theorem maskFrom_cons (before : List Char) (c : Char) (rest : List Char) :
    maskFrom before (c :: rest) =
      (firstToken before c rest).1.masked ++
        maskFrom ((firstToken before c rest).1.text.reverse ++ before)
          (firstToken before c rest).2 := by
  rw [maskFrom, cut, List.flatMap_cons]
  rfl

theorem maskFrom_feed (before rest : List Char) :
    maskFrom before ('\n' :: rest) = '\n' :: maskFrom ('\n' :: before) rest := by
  rw [maskFrom_cons, firstToken_of_not_opensTrivia _ _ _ (by decide)]
  rfl

theorem Token.widened_masked (token : Token) (h : token ≠ .code '\n') :
    Widened token.masked token.withReturns.masked := by
  cases token with
  | trivia kind text => exact widened_blankOut text
  | code c => exact .sign c (by simpa using h) .nil

theorem Token.text_withReturns (token : Token) (h : token ≠ .code '\n') :
    token.withReturns.text = Text.withReturns token.text := by
  cases token with
  | trivia kind text => rfl
  | code c => exact (withReturns_of_not_mem [c] (by simpa using Ne.symm h)).symm

/-- Carriage returns widen a masked text at its line feeds and nowhere else. -/
theorem widened_maskFrom (before before' text : List Char) (hbefore : LooksAlike before before')
    (h : text.IsChain NotEscapedFeed) :
    Widened (maskFrom before text) (maskFrom before' (withReturns text)) := by
  induction hlen : text.length using Nat.strong_induction_on generalizing before before' text with
  | _ n ih =>
      subst hlen
      cases text with
      | nil =>
          rw [withReturns_nil, maskFrom, maskFrom, cut, cut]
          exact .nil
      | cons c rest =>
          by_cases hc : c = '\n'
          · subst hc
            have hrest := ih _ (by simp) ('\n' :: before) ('\n' :: '\r' :: before') rest
              (by simpa using hbefore.withReturns ['\n']) h.tail rfl
            rw [withReturns_feed, maskFrom_feed, maskFrom_cons before' '\r',
              firstToken_of_not_opensTrivia _ '\r' _ (by decide)]
            simp only [Token.masked, Token.text, List.reverse_singleton, List.singleton_append,
              maskFrom_feed]
            exact .gap '\r' '\n' rfl rfl hrest
          · have hlt := firstToken_length_lt before c rest
            have hsplit := firstToken_append before c rest
            rw [withReturns_cons_of_ne c rest hc, maskFrom_cons, maskFrom_cons before' c,
              ← hbefore.firstToken_eq]
            rcases firstToken_withReturns before c rest hc h.tail with
              hwide | ⟨kind, token, behind, hfeed, hfound, hwide⟩
            · have hcode : (firstToken before c rest).1 ≠ .code '\n' := by
                intro hcode
                rw [hcode] at hsplit
                exact hc (List.cons.inj hsplit).1.symm
              rw [hwide, Token.text_withReturns _ hcode]
              refine (Token.widened_masked _ hcode).append (ih _ hlt _ _ _ ?_ ?_ rfl)
              · exact hbefore.withReturns _
              · rw [← hsplit] at h
                exact h.right_of_append
            · rw [hfound] at hsplit hlt
              have hmasked := widened_blankOut token
              rw [withReturns_of_not_mem token hfeed] at hmasked
              have hrest := ih behind.length (by simp at hlt ⊢; omega)
                ('\n' :: (token.reverse ++ before)) ('\n' :: ((token ++ ['\r']).reverse ++ before'))
                behind (LooksAlike.cons '\n' '\n' _ _ (by decide) (by decide) Iff.rfl)
                (by rw [← hsplit] at h; exact h.right_of_append.tail) rfl
              have hreturn : blankOut '\r' = [' '] := rfl
              rw [hfound, hwide, maskFrom_feed, maskFrom_feed]
              simp only [Token.masked, Token.text, List.flatMap_append, List.flatMap_singleton,
                hreturn, List.append_assoc, List.singleton_append]
              exact hmasked.append (.gap ' ' '\n' rfl rfl hrest)

theorem widened_mask (text : List Char) (h : text.IsChain NotEscapedFeed) :
    Widened (mask text) (mask (withReturns text)) :=
  widened_maskFrom [] [] text (fun _ => ⟨rfl, rfl⟩) h

end RecordText.Source
