import RecordText.Proofs.OpaqueTrivia

/-!
# Ordinary literals and the ends of lines

An ordinary string or a character literal that is not closed breaks off at the
end of its line. There is one way over that end: a backslash takes the character
behind it along, and this may be a line feed. The line feeds in a literal are
therefore exactly those behind an odd number of backslashes, and the one that a
literal breaks off at stands behind an even number of them.

A text without a backslash at the end of a line has all its ordinary literals on
one line each.
-/

namespace RecordText.Source

open RecordText.Text

/-- Whether trivia of a kind is a literal that is neither verbatim nor raw. -/
def TriviaKind.isOrdinaryLiteral : TriviaKind → Bool
  | string => true
  | character => true
  | _ => false

/-- The number of backslashes at the end of a text. -/
def backslashRun (text : List Char) : Nat :=
  (text.reverse.takeWhile (· = '\\')).length

@[simp] theorem backslashRun_nil : backslashRun [] = 0 := rfl

theorem backslashRun_cons_of_ne (c : Char) (rest : List Char) (h : c ≠ '\\') :
    backslashRun (c :: rest) = backslashRun rest := by
  unfold backslashRun
  rw [List.reverse_cons, List.takeWhile_append]
  split
  · rename_i hall
    rw [List.length_append, hall]
    simp [h]
  · rfl

/-- A backslash with the character that it takes along does not change whether the number of
backslashes at the end is odd. -/
theorem backslashRun_escape (c : Char) (rest : List Char) :
    backslashRun ('\\' :: c :: rest) % 2 = backslashRun rest % 2 := by
  have hsplit : ('\\' :: c :: rest).reverse = rest.reverse ++ [c, '\\'] := by simp
  unfold backslashRun
  rw [hsplit, List.takeWhile_append]
  split
  · rename_i hall
    rw [List.length_append, hall]
    by_cases hc : c = '\\'
    · simp [hc]
    · simp [hc]
  · rfl

/-- A line feed in a literal stands behind an odd number of backslashes. -/
theorem literalTail_feed_inside (delimiter : Char) (hdelimiter : delimiter ≠ '\n')
    (text before after : List Char)
    (h : (literalTail delimiter text).1 = before ++ '\n' :: after) :
    backslashRun before % 2 = 1 := by
  fun_induction literalTail delimiter text generalizing before with
  | case1 => simp at h
  | case2 c rest ih =>
      rcases before with _ | ⟨d, _ | ⟨e, before⟩⟩
      · simp at h
      · obtain rfl : '\\' = d := by simpa using (List.cons.inj h).1
        rfl
      · simp only [Cut.cons_fst, List.cons_append, List.cons.injEq] at h
        obtain ⟨rfl, rfl, hrest⟩ := h
        rw [backslashRun_escape]
        exact ih before hrest
  | case3 rest _ =>
      have hmem : '\n' ∈ [delimiter] := by
        change [delimiter] = _ at h
        simp [h]
      exact absurd (List.mem_singleton.1 hmem).symm hdelimiter
  | case4 rest _ _ => simp at h
  | case5 c rest hpair _ hfeed ih =>
      cases before with
      | nil => exact absurd (List.cons.inj h).1 hfeed
      | cons d before =>
          obtain ⟨rfl, hrest⟩ := List.cons.inj h
          by_cases hc : c = '\\'
          · subst hc
            cases rest with
            | nil => simp [literalTail] at hrest
            | cons e rest => exact absurd rfl (hpair e rest rfl)
          · rw [backslashRun_cons_of_ne c before hc]
            exact ih before hrest

/-- The line feed that a literal breaks off at stands behind an even number of backslashes. -/
theorem literalTail_feed_behind (delimiter : Char) (hdelimiter : delimiter ≠ '\\')
    (text behind : List Char) (h : (literalTail delimiter text).2 = '\n' :: behind) :
    backslashRun (literalTail delimiter text).1 % 2 = 0 := by
  fun_induction literalTail delimiter text with
  | case1 => rfl
  | case2 c rest ih =>
      simp only [Cut.cons_fst, Cut.cons_snd] at h ⊢
      rw [backslashRun_escape]
      exact ih h
  | case3 rest _ => rw [backslashRun_cons_of_ne _ _ hdelimiter, backslashRun_nil]
  | case4 rest _ _ => rfl
  | case5 c rest hpair _ _ ih =>
      simp only [Cut.cons_fst, Cut.cons_snd] at h ⊢
      by_cases hc : c = '\\'
      · subst hc
        cases rest with
        | nil => simp [literalTail] at h
        | cons e rest => exact absurd rfl (hpair e rest rfl)
      · rw [backslashRun_cons_of_ne _ _ hc]
        exact ih h

/-- An ordinary literal is a delimiter and what a literal with this delimiter takes of the text
behind it. -/
theorem firstToken_ordinaryLiteral (before : List Char) (c : Char) (rest : List Char)
    (kind : TriviaKind) (piece behind : List Char) (hkind : kind.isOrdinaryLiteral = true)
    (h : firstToken before c rest = (.trivia kind piece, behind)) :
    (c = '"' ∨ c = '\'') ∧ piece = c :: (literalTail c rest).1 ∧
      behind = (literalTail c rest).2 := by
  unfold firstToken at h
  split at h
  · cases h
    cases hkind
  · cases h
    cases hkind
  · split at h
    · cases h
      cases hkind
    · cases h
  · unfold stringToken at h
    split at h
    · cases h
      cases hkind
    · split at h
      · cases h
        cases hkind
      · cases h
        exact ⟨Or.inl rfl, rfl, rfl⟩
  · cases h
    exact ⟨Or.inr rfl, rfl, rfl⟩
  · cases h

/-- A line feed behind an odd number of backslashes stands directly behind a backslash. -/
theorem backslash_feed_isInfix (before after : List Char) (h : backslashRun before % 2 = 1) :
    ['\\', '\n'] <:+: before ++ '\n' :: after := by
  rcases List.eq_nil_or_concat before with rfl | ⟨front, last, rfl⟩
  · cases h
  · rw [List.concat_eq_append] at h ⊢
    have hlast : last = '\\' := by
      by_contra hne
      simp [backslashRun, hne] at h
    exact ⟨front, after, by simp [hlast]⟩

/-- A line feed in an ordinary literal stands behind an odd number of backslashes, and one that the
literal breaks off at behind an even number. So the literal stays on its line exactly if no
backslash in it ends a line, which holds if none does in the whole text. -/
theorem ordinary_literal_feeds (front piece behind : String) (kind : TriviaKind)
    (hkind : kind.isOrdinaryLiteral = true)
    (h : HasTrivia (front ++ piece ++ behind).toList front.toList kind piece.toList) :
    (∀ before after, piece.toList = before ++ '\n' :: after → backslashRun before % 2 = 1) ∧
      (∀ after, behind.toList = '\n' :: after → backslashRun piece.toList % 2 = 0) ∧
      ('\n' ∈ piece.toList ↔ ['\\', '\n'] <:+: piece.toList) ∧
      (¬ ['\\', '\n'] <:+: (front ++ piece ++ behind).toList → '\n' ∉ piece.toList) := by
  simp only [String.toList_append, List.append_assoc] at h ⊢
  generalize front.toList = front, piece.toList = piece, behind.toList = behind at h ⊢
  obtain ⟨c, rest, after, htext, hpiece, htoken, -⟩ := cut_eq_cons _ _ _ _ h.cut_eq
  obtain ⟨hsign, htail, hbehind⟩ := firstToken_ordinaryLiteral _ _ _ kind piece after hkind htoken
  have hafter : after = behind := by
    rw [← List.cons_append, ← (show piece = c :: rest from hpiece)] at htext
    exact (List.append_cancel_left htext).symm
  have hslash : c ≠ '\\' := by
    rcases hsign with rfl | rfl <;> decide
  have hfeed : c ≠ '\n' := by
    rcases hsign with rfl | rfl <;> decide
  have hinside : ∀ before after, piece = before ++ '\n' :: after → backslashRun before % 2 = 1 := by
    intro before after hsplit
    rw [htail] at hsplit
    cases before with
    | nil => exact absurd (List.cons.inj hsplit).1 hfeed
    | cons d before =>
        obtain ⟨rfl, hrest⟩ := List.cons.inj hsplit
        rw [backslashRun_cons_of_ne c before hslash]
        exact literalTail_feed_inside c hfeed _ before after hrest
  have hiff : '\n' ∈ piece ↔ ['\\', '\n'] <:+: piece := by
    constructor
    · intro hmem
      obtain ⟨before, after, hsplit⟩ := List.append_of_mem hmem
      rw [hsplit]
      exact backslash_feed_isInfix before after (hinside before after hsplit)
    · intro hinfix
      exact hinfix.subset (by simp)
  refine ⟨hinside, ?_, hiff, ?_⟩
  · intro more hmore
    rw [htail, backslashRun_cons_of_ne c _ hslash]
    exact literalTail_feed_behind c hslash _ more (hbehind.symm.trans (hafter.trans hmore))
  · intro hnone hmem
    apply hnone
    obtain ⟨before, after, hsplit⟩ := hiff.1 hmem
    exact ⟨front ++ before, after ++ behind, by simp [← hsplit]⟩

/-- A class with a string that is not closed, up to the string. -/
def pathFront : String := "class A \x7b\n    string S = "

theorem ordinary_literal_feeds_path :
    HasTrivia (pathFront ++ "\"C:\\\\" ++ "\n\x7d\n").toList pathFront.toList .string
        "\"C:\\\\".toList ∧ backslashRun "\"C:\\\\".toList % 2 = 0 ∧
      ('\n' ∈ "\"C:\\\\".toList ↔ ['\\', '\n'] <:+: "\"C:\\\\".toList) := by
  have h : HasTrivia (pathFront ++ "\"C:\\\\" ++ "\n\x7d\n").toList pathFront.toList .string
      "\"C:\\\\".toList :=
    ⟨pathFront.toList.map .code, "\n\x7d\n".toList.map .code, by decide +kernel,
      by decide +kernel⟩
  obtain ⟨-, hbehind, hiff, -⟩ := ordinary_literal_feeds pathFront _ _ .string rfl h
  exact ⟨h, hbehind _ rfl, hiff⟩

/-- One backslash less, and the string goes on over the end of its line: the closing brace on the
next line belongs to it, and the class is not closed. -/
theorem string_over_line_end :
    HasTrivia (pathFront ++ "\"C:\\\n\x7d" ++ "\n").toList pathFront.toList .string
        "\"C:\\\n\x7d".toList ∧ '\n' ∈ "\"C:\\\n\x7d".toList ∧
      (outline (pathFront ++ "\"C:\\\n\x7d" ++ "\n")).map ClassOutline.bodyClose = [none] := by
  refine ⟨⟨pathFront.toList.map .code, [.code '\n'], by decide +kernel, by decide +kernel⟩,
    by decide, by decide +kernel⟩

end RecordText.Source
