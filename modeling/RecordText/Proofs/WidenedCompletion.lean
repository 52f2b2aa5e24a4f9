import RecordText.Proofs.CompletedText
import RecordText.Proofs.WidenedOutline

/-!
# Completion of text with carriage returns

A text whose lines end with a bare line feed and the same text with a carriage
return before each line feed are completed alike: the same classes are completed
and skipped, and the second result is the first one with carriage returns.

## Implementation notes

The outlines of the two texts agree in what the plan looks at. Every insertion
of the second plan is therefore one of the first, moved by the line feeds before
it, and moved insertions keep their order.
-/

namespace RecordText

open RecordText.Text
open RecordText.Source

/-- A C# member depends on the type name and the field names alone. -/
theorem generate_csharp_congr (descriptor other : Descriptor) (indent : String)
    (htype : other.typeName = descriptor.typeName)
    (hnames : other.fieldNames = descriptor.fieldNames) :
    other.generate { language := .csharp, indent } =
      descriptor.generate { language := .csharp, indent } := by
  simp only [Descriptor.generate, Descriptor.validate, Descriptor.check, htype, hnames,
    Member.layOut, Member.steps, Member.csharpSteps]

namespace Source

theorem lineFeeds_blankOut (text : List Char) :
    lineFeeds (text.flatMap blankOut) = lineFeeds text := by
  induction text with
  | nil => rfl
  | cons c text ih =>
      simp only [lineFeeds, List.flatMap_cons, List.countP_append, List.countP_cons] at ih ⊢
      rw [ih, blankOut, Nat.add_comm]
      by_cases h : c = '\n'
      · simp [h]
      · simp [h, List.countP_replicate]

/-- Masking keeps the line feeds. -/
theorem lineFeeds_flatMap_masked (tokens : List Token) :
    lineFeeds (tokens.flatMap Token.masked) = lineFeeds (tokens.flatMap Token.text) := by
  induction tokens with
  | nil => rfl
  | cons token rest ih =>
      have htoken : lineFeeds token.masked = lineFeeds token.text := by
        cases token with
        | trivia kind text => exact lineFeeds_blankOut text
        | code c => rfl
      simp only [lineFeeds, List.flatMap_cons, List.countP_append] at ih htoken ⊢
      rw [ih, htoken]

end Source

namespace Edit

/-- A closing brace is moved by the line feeds before it. -/
theorem eq_of_sameBrace (text : List Char) (place place' : Nat)
    (h : SameBrace (mask text) (mask (withReturns text)) place place') :
    place' = byteLength (withReturns (beforeOffset text place)) := by
  obtain ⟨rest, rest', front, front', hmask, -, hfront, rfl, rfl⟩ := h
  obtain ⟨before, after, tokens, hcloses, htokens, -⟩ := exists_closesAt text front rest hmask
  have hbytes : byteLength front = byteLength before := by
    rw [← htokens, byteLength_flatMap_masked, hcloses.front_text]
  have hfeeds : lineFeeds front = lineFeeds before := by
    rw [← htokens, lineFeeds_flatMap_masked, hcloses.front_text]
  rw [hfront.byteLength_eq, hfeeds, hbytes, hcloses.text_eq, beforeOffset_append,
    byteLength_withReturns]

/-- Classes that are alike are completed by the same member or skipped for the same reason. -/
theorem planClass_of_alike (indent : String) (text : List Char) (found found' : ClassOutline)
    (h : ClassOutline.Alike (mask text) (mask (withReturns text)) found found') :
    planClass indent found' = (planClass indent found).map (Insertion.withReturns text) := by
  have hgenerate := generate_csharp_congr found.descriptor found'.descriptor indent h.name_eq
    h.properties_eq
  have hclose := h.same_close
  rw [planClass, planClass, hgenerate, h.name_eq]
  generalize found.bodyClose = close at hclose ⊢
  generalize found'.bodyClose = close' at hclose ⊢
  cases hclose with
  | none => rfl
  | some hbrace =>
      rw [eq_of_sameBrace text _ _ hbrace]
      cases found.descriptor.generate { language := .csharp, indent } <;> rfl

/-- Where classes are completed alike but for the places, so are all of them together. -/
theorem plan_of_alike (style : CompletionStyle) (move : Insertion → Insertion)
    (classes classes' : List ClassOutline)
    (h : List.Forall₂ (fun found found' => found'.name = found.name ∧
      planClass style.indent found' = (planClass style.indent found).map move) classes classes') :
    plan style classes' =
      { insertions := (plan style classes).insertions.map move
        skipped := (plan style classes).skipped } := by
  induction h with
  | nil => rfl
  | @cons found found' rest rest' hfound _ ih =>
      obtain ⟨hname, hplan⟩ := hfound
      rw [plan, plan, hplan]
      cases planClass style.indent found with
      | error reason => simp only [Except.map, ih, hname]
      | ok insertion =>
          simp only [Except.map]
          split
          · rfl
          · rw [ih, List.map_cons]

/-- The classes that lack an override are alike. -/
theorem lackingToString_alike (text : String) (h : text.toList.IsChain NotEscapedFeed) :
    List.Forall₂ (ClassOutline.Alike (mask text.toList) (mask (withReturns text.toList)))
      (lackingToString text) (lackingToString (String.ofList (withReturns text.toList))) := by
  have houtline := (widened_mask text.toList h).outlineMasked
  rw [lackingToString, lackingToString, outline, outline, String.toList_ofList]
  refine List.rel_filter ?_ houtline
  intro found found' halike
  simp only [halike.hasToString_eq]

/-- The plan for the text with carriage returns has the same insertions at moved places. -/
theorem plan_withReturns (style : CompletionStyle) (text : String)
    (h : text.toList.IsChain NotEscapedFeed) :
    plan style (lackingToString (String.ofList (withReturns text.toList))) =
      { insertions := (plannedInsertions style text).map (Insertion.withReturns text.toList)
        skipped := (plan style (lackingToString text)).skipped } :=
  plan_of_alike style _ _ _ ((lackingToString_alike text h).imp fun _ _ halike =>
    ⟨halike.name_eq, planClass_of_alike _ _ _ _ halike⟩)

/-- Moved insertions stand in the same order. -/
theorem Insertion.withReturns_offset_lt {text : List Char} {first last : Insertion}
    (hfirst : ClosesText text first.offset) (hlast : ClosesText text last.offset)
    (h : first.offset < last.offset) :
    (first.withReturns text).offset < (last.withReturns text).offset := by
  obtain ⟨front, behind, htext, hfront⟩ := hfirst
  obtain ⟨before, after, rfl, hbefore⟩ := hlast
  obtain ⟨more, rfl⟩ := exists_append_of_byteLength_lt before _ front behind htext
    (by rwa [hfront, hbefore])
  rw [Insertion.withReturns_append _ _ last hbefore, htext,
    Insertion.withReturns_append _ _ first hfront]
  simp only [withReturns_closing, byteLength_append, byteLength, utf8Size_close]
  omega

theorem descending_withReturns (text : List Char) (insertions : List Insertion)
    (h : ∀ insertion ∈ insertions, ClosesText text insertion.offset) :
    descending (insertions.map (Insertion.withReturns text)) =
      (descending insertions).map (Insertion.withReturns text) := by
  refine (List.map_mergeSort ?_).symm
  intro a ha b hb
  have hlt := Insertion.withReturns_offset_lt (h a ha) (h b hb)
  have hgt := Insertion.withReturns_offset_lt (h b hb) (h a ha)
  rcases Nat.lt_trichotomy a.offset b.offset with hab | hab | hab
  · have := hlt hab
    rw [decide_eq_decide]
    omega
  · rw [decide_eq_decide, Insertion.withReturns, Insertion.withReturns, hab]
    simp
  · have := hgt hab
    rw [decide_eq_decide]
    omega

/-- With a carriage return before each line feed a text is completed like the text itself: the same
classes are completed and skipped, and the result has a carriage return before each line feed. -/
theorem complete_withReturns (text : String) (style : CompletionStyle)
    (hindent : ∀ c ∈ style.indent.toList, isIndentChar c = true) (hbodies : OwnBodies text)
    (hlines : FeedLines text.toList) (hescape : text.toList.IsChain NotEscapedFeed) :
    ∃ completion, complete text style = .ok completion ∧
      complete (String.ofList (withReturns text.toList)) style =
        .ok { completion with text := String.ofList (withReturns completion.text.toList) } := by
  have hplaces := closesText_of_mem_plannedInsertions style text
  have hmembers := not_mem_of_mem_plannedInsertions style text hindent
  have hplaces' := closesText_of_mem_descending style text
  have hmembers' := fun insertion hinsertion =>
    hmembers insertion (mem_descending_iff.1 hinsertion)
  have hordered := descending_pairwise _ (hbodies.nodup_plannedOffsets style)
  obtain ⟨result, hresult⟩ := exists_applyInsertions style.indent.toList text.toList _ hordered
    hplaces'
  have hwide := applyInsertions_withReturns style.indent.toList text.toList _ hlines hindent
    hordered hplaces' hmembers'
  have hplan := plan_withReturns style text hescape
  have hinsertions : descending
        (plannedInsertions style (String.ofList (withReturns text.toList))) =
      (descending (plannedInsertions style text)).map (Insertion.withReturns text.toList) := by
    rw [plannedInsertions, hplan, descending_withReturns _ _ hplaces]
  have hnames : Insertion.className ∘ Insertion.withReturns text.toList = Insertion.className := rfl
  rw [hresult, ← hinsertions] at hwide
  refine ⟨_, complete_eq_ok text style result hresult, ?_⟩
  rw [complete_eq_ok _ style (withReturns result) (by rw [String.toList_ofList]; exact hwide),
    hinsertions, hplan, List.map_map, hnames, String.toList_ofList]

/-- Classes and their members with line ends in comments, literals and types. -/
def manyLines : String :=
  "// one \x7b\nclass A\n\x7b\n  [X(\"\\\"\n]\n  List<\nint> N \x7b get; \x7d\n" ++
    "  /* \x7d\n */ string S => @\"\n\x7d\";\n  class B \x7b int M => 1;\x7d\n\x7d\nclass C"

theorem complete_withReturns_manyLines :
    OwnBodies manyLines ∧ FeedLines manyLines.toList ∧ manyLines.toList.IsChain NotEscapedFeed ∧
      ∃ completion, complete manyLines { indent := "\t" } = .ok completion ∧
        complete (String.ofList (withReturns manyLines.toList)) { indent := "\t" } =
          .ok { completion with text := String.ofList (withReturns completion.text.toList) } := by
  have hbodies : OwnBodies manyLines := by decide +kernel
  have hlines : FeedLines manyLines.toList := ⟨by decide +kernel, by decide +kernel⟩
  have hescape : manyLines.toList.IsChain NotEscapedFeed := by decide +kernel
  exact ⟨hbodies, hlines, hescape,
    complete_withReturns manyLines { indent := "\t" } (by decide) hbodies hlines hescape⟩

end Edit

end RecordText
