import RecordText.Proofs.Masking
import RecordText.Source.Outline

/-!
# Trivia is opaque

An outline does not look into comments, preprocessor lines and literals. If one
of them is exchanged for another of the same kind that takes the same bytes and
has its line feeds at the same places, the masked text stays the same, and with
it everything that the outline shows.

## Implementation notes

Three parts of the text have to be compared. The tokens in front of the trivia
see at most its first sign, which its kind fixes. The trivia itself is masked to
spaces and line feeds. The tokens behind it look back at the text, but trivia
either ends with a sign that hides what stands before it, or the line ends
directly behind it.
-/

namespace RecordText.Source

open RecordText.Text

/-- The sign with which trivia of a kind starts. -/
def TriviaKind.opening : TriviaKind → Char
  | lineComment => '/'
  | blockComment => '/'
  | directive => '#'
  | verbatimString => '"'
  | rawString => '"'
  | string => '"'
  | character => '\''

theorem stringToken_opening (before rest : List Char) (kind : TriviaKind) (text behind : List Char)
    (h : stringToken before rest = (.trivia kind text, behind)) : kind.opening = '"' := by
  unfold stringToken at h
  split at h
  · cases h
    rfl
  · split at h
    · cases h
      rfl
    · cases h
      rfl

/-- The kind of trivia fixes its first sign. -/
theorem firstToken_opening (before : List Char) (c : Char) (rest : List Char) (kind : TriviaKind)
    (text behind : List Char) (h : firstToken before c rest = (.trivia kind text, behind)) :
    kind.opening = c := by
  unfold firstToken at h
  split at h
  · cases h
    rfl
  · cases h
    rfl
  · split at h
    · cases h
      rfl
    · cases h
  · exact stringToken_opening before rest kind text behind h
  · cases h
    rfl
  · cases h

/-- Behind some text stands trivia of a kind, as one token. -/
def HasTrivia (text front : List Char) (kind : TriviaKind) (trivia : List Char) : Prop :=
  ∃ tokens back, cut [] text = tokens ++ .trivia kind trivia :: back ∧
    tokens.flatMap Token.text = front

/-- The byte offsets of the line feeds of a text that starts at a byte offset. -/
def feedOffsets (offset : Nat) : List Char → List Nat
  | [] => []
  | c :: rest =>
    if c = '\n' then offset :: feedOffsets (offset + c.utf8Size) rest
    else feedOffsets (offset + c.utf8Size) rest

theorem le_of_mem_feedOffsets (offset : Nat) (text : List Char) (place : Nat)
    (h : place ∈ feedOffsets offset text) : offset ≤ place := by
  induction text generalizing offset with
  | nil => cases h
  | cons c rest ih =>
      rw [feedOffsets] at h
      split at h
      · rcases List.mem_cons.1 h with rfl | hrest
        · exact Nat.le_refl _
        · exact Nat.le_of_add_right_le (ih _ hrest)
      · exact Nat.le_of_add_right_le (ih _ h)

/-- Masked trivia shows its bytes and its line feeds, and nothing else. -/
theorem flatMap_blankOut_eq (offset : Nat) (text : List Char) :
    text.flatMap blankOut = (List.range' offset (byteLength text)).map
      fun place => if place ∈ feedOffsets offset text then '\n' else ' ' := by
  induction text generalizing offset with
  | nil => rfl
  | cons c rest ih =>
      rw [List.flatMap_cons, byteLength, ← List.range'_append_1, List.map_append,
        ih (offset + c.utf8Size)]
      congr 1
      · by_cases hc : c = '\n'
        · subst hc
          have hsize : '\n'.utf8Size = 1 := rfl
          simp [blankOut, feedOffsets, hsize]
        · rw [blankOut, if_neg hc, eq_comm, List.map_eq_replicate_iff.2, List.length_range']
          intro place hplace
          have hlt := (List.mem_range'_1.1 hplace).2
          rw [if_neg]
          intro hmem
          rw [feedOffsets, if_neg hc] at hmem
          exact absurd (le_of_mem_feedOffsets _ _ _ hmem) (Nat.not_le.2 hlt)
      · apply List.map_congr_left
        intro place hplace
        have hle := (List.mem_range'_1.1 hplace).1
        by_cases hc : c = '\n'
        · have hne : place ≠ offset := by
            have := c.utf8Size_pos
            omega
          simp only [feedOffsets, if_pos hc, List.mem_cons, or_iff_right hne]
        · rw [feedOffsets, if_neg hc]

/-- Behind a front that ends in front of trivia the trivia is cut off as one token. -/
theorem HasTrivia.cut_eq {front trivia behind : List Char} {kind : TriviaKind}
    (h : HasTrivia (front ++ (trivia ++ behind)) front kind trivia) :
    cut front.reverse (trivia ++ behind) =
      .trivia kind trivia :: cut (trivia.reverse ++ front.reverse) behind := by
  obtain ⟨tokens, back, hcut, htokens⟩ := h
  have hseam := cut_seam [] front _ tokens _ hcut htokens
  rw [List.append_nil] at hseam
  have hback := cut_seam front.reverse trivia behind [.trivia kind trivia] back hseam.symm
    (by simp [Token.text])
  rw [← hseam, hback]

/-- The text in front of trivia is cut into the same tokens, whichever trivia of a kind follows. -/
theorem HasTrivia.cut_append {front trivia trivia' behind : List Char} {kind : TriviaKind}
    (h : HasTrivia (front ++ (trivia ++ behind)) front kind trivia)
    (h' : HasTrivia (front ++ (trivia' ++ behind)) front kind trivia') :
    ∃ tokens,
      cut [] (front ++ (trivia ++ behind)) = tokens ++ cut front.reverse (trivia ++ behind) ∧
      cut [] (front ++ (trivia' ++ behind)) = tokens ++ cut front.reverse (trivia' ++ behind) := by
  obtain ⟨c, tail, after, htext, -, htoken, -⟩ := cut_eq_cons _ _ _ _ h.cut_eq
  obtain ⟨c', tail', after', htext', -, htoken', -⟩ := cut_eq_cons _ _ _ _ h'.cut_eq
  obtain ⟨tokens, back, hcut, htokens⟩ := h
  have hold : cut [] (front ++ (trivia ++ behind)) =
      tokens ++ cut front.reverse (trivia ++ behind) := by
    have hseam := cut_seam [] front _ tokens _ hcut htokens
    rw [hcut, hseam, List.append_nil]
  refine ⟨tokens, hold, ?_⟩
  have hsign : c = c' :=
    (firstToken_opening _ _ _ _ _ _ htoken).symm.trans (firstToken_opening _ _ _ _ _ _ htoken')
  have hreplaces : Replaces (trivia ++ behind) (trivia' ++ behind) :=
    ⟨c, _, c', _, htext, htext', fun hc => hsign ▸ hc, fun _ => hsign.symm⟩
  have hnew := cut_replace [] _ _ tokens hreplaces
  rw [htokens, List.append_nil] at hnew
  exact hnew hold

/-- Trivia in front of a line that goes on ends with a sign that hides what stands before it. -/
theorem HasTrivia.exists_last {front trivia behind : List Char} {kind : TriviaKind} {d : Char}
    (h : HasTrivia (front ++ (trivia ++ d :: behind)) front kind trivia) (hd : d ≠ '\n') :
    ∃ last before, trivia.reverse = last :: before ∧ hidesBefore last = true ∧ last ≠ '\n' := by
  obtain ⟨c, tail, after, htext, htrivia, htoken, -⟩ := cut_eq_cons _ _ _ _ h.cut_eq
  have hafter : after = d :: behind := by
    rw [← List.cons_append, ← htrivia] at htext
    exact (List.append_cancel_left htext).symm
  obtain ⟨last, hlast, hend⟩ :=
    firstToken_trivia_getLast _ _ _ kind trivia d behind hd (by rw [htoken, hafter])
  rw [← List.head?_reverse, List.head?_eq_some_iff] at hlast
  obtain ⟨before, hbefore⟩ := hlast
  refine ⟨last, before, hbefore, ?_⟩
  rcases hend with rfl | rfl | rfl <;> decide

/-- The text behind trivia is cut into the same tokens, whichever trivia of a kind stands there. -/
theorem HasTrivia.cut_behind {front trivia trivia' behind : List Char} {kind : TriviaKind}
    (h : HasTrivia (front ++ (trivia ++ behind)) front kind trivia)
    (h' : HasTrivia (front ++ (trivia' ++ behind)) front kind trivia') :
    cut (trivia.reverse ++ front.reverse) behind =
      cut (trivia'.reverse ++ front.reverse) behind := by
  cases behind with
  | nil => rw [cut, cut]
  | cons d behind =>
      by_cases hd : d = '\n'
      · subst hd
        have hfeed := fun before => firstToken_of_not_opensTrivia before '\n' behind (by decide)
        rw [cut, cut, hfeed, hfeed]
        have halike := LooksAlike.cons '\n' '\n' (trivia.reverse ++ front.reverse)
          (trivia'.reverse ++ front.reverse) (by decide) (by decide) Iff.rfl
        exact congrArg (List.cons _) (halike.cut_eq behind)
      · obtain ⟨last, before, hlast, hhides, hfeed⟩ := h.exists_last hd
        obtain ⟨last', before', hlast', hhides', hfeed'⟩ := h'.exists_last hd
        rw [hlast, hlast']
        exact (LooksAlike.cons last last' _ _ hhides hhides' (iff_of_false hfeed hfeed')).cut_eq _

/-- Trivia of one kind that is masked in the same way can be exchanged in the masked text. -/
theorem HasTrivia.mask_eq {front trivia trivia' behind : List Char} {kind : TriviaKind}
    (h : HasTrivia (front ++ (trivia ++ behind)) front kind trivia)
    (h' : HasTrivia (front ++ (trivia' ++ behind)) front kind trivia')
    (hmasked : trivia.flatMap blankOut = trivia'.flatMap blankOut) :
    mask (front ++ (trivia ++ behind)) = mask (front ++ (trivia' ++ behind)) := by
  obtain ⟨tokens, hcut, hcut'⟩ := h.cut_append h'
  rw [mask, mask, hcut, hcut', h.cut_eq, h'.cut_eq, h.cut_behind h']
  simp only [List.flatMap_append, List.flatMap_cons, Token.masked, hmasked]

/-- Two texts that differ in one comment, preprocessor line or literal have the same outline, if it
is of the same kind in both, takes the same bytes and has its line feeds at the same places. -/
theorem outline_eq_of_hasTrivia (front trivia trivia' behind : String) (kind : TriviaKind)
    (h : HasTrivia (front ++ trivia ++ behind).toList front.toList kind trivia.toList)
    (h' : HasTrivia (front ++ trivia' ++ behind).toList front.toList kind trivia'.toList)
    (hlength : byteLength trivia.toList = byteLength trivia'.toList)
    (hfeeds : feedOffsets 0 trivia.toList = feedOffsets 0 trivia'.toList) :
    outline (front ++ trivia ++ behind) = outline (front ++ trivia' ++ behind) ∧
      lackingToString (front ++ trivia ++ behind) =
        lackingToString (front ++ trivia' ++ behind) := by
  have hmasked : trivia.toList.flatMap blankOut = trivia'.toList.flatMap blankOut := by
    rw [flatMap_blankOut_eq 0, flatMap_blankOut_eq 0, hlength, hfeeds]
  simp only [String.toList_append, List.append_assoc] at h h'
  have houtline : outline (front ++ trivia ++ behind) = outline (front ++ trivia' ++ behind) := by
    simp only [outline, outlineChars, String.toList_append, List.append_assoc]
    rw [h.mask_eq h' hmasked]
  exact ⟨houtline, by rw [lackingToString, lackingToString, houtline]⟩

/-- A class with a property that returns a literal, and with an interpolated string behind it. -/
def literalClass (literal : String) : String :=
  "class A \x7b string S => " ++ literal ++ "$\"\x7d\"; \x7d"

theorem outline_rawStrings :
    HasTrivia (literalClass "\"\"\"é\n@\"\"\"").toList "class A \x7b string S => ".toList
        .rawString "\"\"\"é\n@\"\"\"".toList ∧
      HasTrivia (literalClass "\"\"\"\x7d;\n\x7d\"\"\"").toList "class A \x7b string S => ".toList
        .rawString "\"\"\"\x7d;\n\x7d\"\"\"".toList ∧
      outline (literalClass "\"\"\"é\n@\"\"\"") =
        outline (literalClass "\"\"\"\x7d;\n\x7d\"\"\"") := by
  have h : HasTrivia (literalClass "\"\"\"é\n@\"\"\"").toList
      "class A \x7b string S => ".toList .rawString "\"\"\"é\n@\"\"\"".toList :=
    ⟨"class A \x7b string S => ".toList.map .code,
      [.code '$', .trivia .string "\"\x7d\"".toList] ++ "; \x7d".toList.map .code,
      by decide +kernel, by decide +kernel⟩
  have h' : HasTrivia (literalClass "\"\"\"\x7d;\n\x7d\"\"\"").toList
      "class A \x7b string S => ".toList .rawString "\"\"\"\x7d;\n\x7d\"\"\"".toList :=
    ⟨"class A \x7b string S => ".toList.map .code,
      [.code '$', .trivia .string "\"\x7d\"".toList] ++ "; \x7d".toList.map .code,
      by decide +kernel, by decide +kernel⟩
  exact ⟨h, h', (outline_eq_of_hasTrivia _ _ _ _ .rawString h h' (by decide) (by decide)).1⟩

end RecordText.Source
