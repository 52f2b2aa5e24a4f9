import RecordText.Proofs.CommutingInsertions
import RecordText.Proofs.CompletedText
import Mathlib.Data.List.Nodup

/-!
# Completion in rounds

A text can be completed class by class: one round completes the first class that
can be, the next round reads the new text afresh, and the rounds end when one
has nothing to do. The rounds arrive at the text that completes all classes at
once, after one round for each of them.

## Implementation notes

A round keeps what the argument needs (`Ready`), so that it can be repeated: the
closing braces of the classes still to be completed are different seats, and the
line ends are uniform. The plan for the text after a round is the plan before it
without the completed class, with moved offsets. By induction on the length of
the plan every round leaves the completed text as it was.
-/

namespace RecordText.Edit

open RecordText.Text
open RecordText.Source

/-- Rounds of completion, each on the text of the one before, up to the first round that changes
nothing: how many change the text, and the text that the last one gives. -/
inductive Rounds (style : CompletionStyle) : String → Nat → String → Prop
  | done {text : String} {completion : Completion} (h : complete text style = .ok completion)
      (hchanged : completion.changed = false) : Rounds style text 0 completion.text
  | next {text final : String} {completion : Completion} {count : Nat}
      (h : complete text style = .ok completion) (hchanged : completion.changed = true)
      (rest : Rounds style completion.text count final) : Rounds style text (count + 1) final

/-- Rounds have one outcome. -/
theorem Rounds.unique {style : CompletionStyle} {text final final' : String} {count count' : Nat}
    (h : Rounds style text count final) (h' : Rounds style text count' final') :
    count = count' ∧ final = final' := by
  induction h generalizing count' with
  | done hcomplete hchanged =>
      cases h' with
      | done hcomplete' _ =>
          cases Except.ok.inj (hcomplete.symm.trans hcomplete')
          exact ⟨rfl, rfl⟩
      | next hcomplete' hchanged' _ =>
          cases Except.ok.inj (hcomplete.symm.trans hcomplete')
          rw [hchanged] at hchanged'
          cases hchanged'
  | next hcomplete hchanged _ ih =>
      cases h' with
      | done hcomplete' hchanged' =>
          cases Except.ok.inj (hcomplete.symm.trans hcomplete')
          rw [hchanged] at hchanged'
          cases hchanged'
      | next hcomplete' _ rest' =>
          cases Except.ok.inj (hcomplete.symm.trans hcomplete')
          obtain ⟨rfl, rfl⟩ := ih rest'
          exact ⟨rfl, rfl⟩

/-- What one round needs and keeps: the planned insertions have different seats, and the line ends
are uniform. -/
structure Ready (indent text : String) : Prop where
  offsets_nodup : ((plannedInsertions { indent } text).map Insertion.offset).Nodup
  seats : ∀ insertion ∈ plannedInsertions { indent } text,
    IsSeat (mask text.toList) insertion.offset
  ends : UniformEnds text.toList

theorem Ready.of_endsFinished {text indent : String} (hbodies : OwnBodies text)
    (hends : EndsFinished text indent) (huniform : UniformEnds text.toList) :
    Ready indent text := by
  refine ⟨hbodies.nodup_plannedOffsets { indent }, ?_, huniform⟩
  intro insertion hinsertion
  rw [plannedInsertions_eq] at hinsertion
  obtain ⟨found, hfound, hsome⟩ := List.mem_filterMap.1 hinsertion
  obtain ⟨houtline, hfixable⟩ := (mem_plannedClasses_iff found).1 hfound
  exact isSeat_of_endsFinished hends found houtline hfixable _ (insertion?_eq_some _ _ _ hsome).1

/-- An insertion after `added` bytes have taken the place of the `removed` bytes in front of
`place`. -/
def Insertion.moved (place removed added : Nat) (insertion : Insertion) : Insertion :=
  { insertion with offset := movedOffset place removed added insertion.offset }

theorem insertion?_completedAt (indent : String) (place removed added : Nat)
    (found : ClassOutline) :
    insertion? indent (found.completedAt place removed added) =
      (insertion? indent found).map (Insertion.moved place removed added) := by
  have hdescriptor : (found.completedAt place removed added).descriptor = found.descriptor := rfl
  unfold insertion? planClass
  rw [hdescriptor]
  cases hclose : found.bodyClose with
  | none => simp [ClassOutline.completedAt, hclose, Except.toOption]
  | some offset =>
      simp only [ClassOutline.completedAt, hclose, Option.map_some]
      cases found.descriptor.generate { language := .csharp, indent } <;> rfl

theorem plannedInsertions_eq_filterMap (indent text : String) :
    plannedInsertions { indent } text =
      ((outline text).filter fun found => !found.hasToString).filterMap (insertion? indent) := by
  rw [plannedInsertions, plan_insertions]
  rfl

/-- Completing the classes that close at a place takes their insertions out of the plan. -/
theorem filterMap_completedAt (indent : String) (place removed added : Nat)
    (classes : List ClassOutline) :
    ((classes.map (ClassOutline.completedAt place removed added)).filter
        fun found => !found.hasToString).filterMap (insertion? indent) =
      (((classes.filter fun found => !found.hasToString).filterMap (insertion? indent)).filter
        fun insertion => insertion.offset ≠ place).map (Insertion.moved place removed added) := by
  induction classes with
  | nil => rfl
  | cons found rest ih =>
      rw [List.map_cons]
      cases hold : found.hasToString with
      | true =>
          have hnew : (found.completedAt place removed added).hasToString = true := by
            simp [ClassOutline.completedAt, hold]
          simpa [hold, hnew] using ih
      | false =>
          have hnew : (found.completedAt place removed added).hasToString =
              (found.bodyClose == some place) := by
            simp [ClassOutline.completedAt, hold]
          have hmoved := insertion?_completedAt indent place removed added found
          cases hinsertion : insertion? indent found with
          | none =>
              rw [hinsertion] at hmoved
              cases hclose : found.bodyClose == some place with
              | true => simpa [hold, hnew, hclose, hinsertion] using ih
              | false => simpa [hold, hnew, hclose, hinsertion, hmoved] using ih
          | some insertion =>
              rw [hinsertion] at hmoved
              have hclose := (insertion?_eq_some _ _ _ hinsertion).1
              by_cases hplace : insertion.offset = place
              · simpa [hold, hnew, hclose, hinsertion, hplace] using ih
              · simpa [hold, hnew, hclose, hinsertion, hmoved, hplace] using ih

/-- The order of insertions at different places is theirs alone. -/
theorem descending_eq_of_perm (insertions ordered : List Insertion)
    (hperm : insertions.Perm ordered)
    (hordered : ordered.Pairwise fun a b => b.offset < a.offset) :
    descending insertions = ordered := by
  have hnodup : (insertions.map Insertion.offset).Nodup := by
    rw [(hperm.map _).nodup_iff, List.Nodup, List.pairwise_map]
    exact hordered.imp fun hlt => hlt.ne'
  apply List.Perm.eq_of_pairwise (fun a b _ _ hab hba => ?_) (descending_pairwise _ hnodup) hordered
    ((descending_perm _).trans hperm)
  omega

theorem Insertion.moved_of_lt {place removed added : Nat} {insertion : Insertion}
    (h : insertion.offset < place) : insertion.moved place removed added = insertion := by
  rw [Insertion.moved, movedOffset_of_lt h]

/-- Without the insertion that comes first the others are carried out in the same order. -/
theorem descending_moved (insertions high low : List Insertion) (first : Insertion)
    (removed added : Nat) (hremoved : removed ≤ first.offset)
    (heq : descending insertions = high ++ first :: low)
    (hordered : (high ++ first :: low).Pairwise fun a b => b.offset < a.offset)
    (hbelow : ∀ insertion ∈ low, insertion.offset + removed < first.offset) :
    descending ((insertions.filter fun insertion => insertion.offset ≠ first.offset).map
        (Insertion.moved first.offset removed added)) =
      high.map (Insertion.moved first.offset removed added) ++ low := by
  rw [List.pairwise_append, List.pairwise_cons] at hordered
  obtain ⟨hhigh, ⟨hfirst, hlow⟩, hcross⟩ := hordered
  have habove : ∀ insertion ∈ high, first.offset < insertion.offset :=
    fun insertion h => hcross insertion h first (by simp)
  have hmoved : ∀ insertion ∈ high, (insertion.moved first.offset removed added).offset =
      insertion.offset - removed + added :=
    fun insertion h => movedOffset_of_le (habove insertion h).le
  have hfilter : (high ++ first :: low).filter (fun insertion => insertion.offset ≠ first.offset) =
      high ++ low := by
    have hhigh' : ∀ insertion ∈ high, decide (insertion.offset ≠ first.offset) = true :=
      fun insertion h => decide_eq_true (habove insertion h).ne'
    have hlow' : ∀ insertion ∈ low, decide (insertion.offset ≠ first.offset) = true :=
      fun insertion h => decide_eq_true (hfirst insertion h).ne
    rw [List.filter_append, List.filter_cons_of_neg (by simp), List.filter_eq_self.2 hhigh',
      List.filter_eq_self.2 hlow']
  have hstay : low.map (Insertion.moved first.offset removed added) = low :=
    (List.map_congr_left fun insertion h => Insertion.moved_of_lt (hfirst insertion h)).trans
      (List.map_id low)
  apply descending_eq_of_perm
  · have hperm : insertions.Perm (high ++ first :: low) := heq ▸ (descending_perm _).symm
    have hplan := (hperm.filter fun insertion => insertion.offset ≠ first.offset).map
      (Insertion.moved first.offset removed added)
    rwa [hfilter, List.map_append, hstay] at hplan
  · rw [List.pairwise_append, List.pairwise_map]
    refine ⟨hhigh.imp_of_mem ?_, hlow, ?_⟩
    · intro a b ha hb hlt
      have hbehind := habove b hb
      rw [hmoved a ha, hmoved b hb]
      omega
    · intro a ha b hb
      obtain ⟨c, hc, rfl⟩ := List.mem_map.1 ha
      have hbehind := habove c hc
      have hbefore := hbelow b hb
      rw [hmoved c hc]
      omega

section Step

variable {indent text : String}

/-- A planned insertion is the member of some class. -/
theorem exists_generate_of_mem_plannedInsertions (insertion : Insertion)
    (h : insertion ∈ plannedInsertions { indent } text) :
    ∃ descriptor : Descriptor,
      descriptor.generate { language := .csharp, indent } = .ok insertion.member := by
  rw [plannedInsertions_eq] at h
  obtain ⟨found, -, hsome⟩ := List.mem_filterMap.1 h
  exact ⟨_, (insertion?_eq_some _ _ _ hsome).2.2⟩

variable {offset removed added : Nat} {result : List Char}

/-- The plan for the text after an insertion is the old one without the completed class. -/
theorem CompletesSeat.plannedInsertions_eq
    (hseat : CompletesSeat text.toList offset removed added result) :
    plannedInsertions { indent } (String.ofList result) =
      ((plannedInsertions { indent } text).filter fun insertion => insertion.offset ≠ offset).map
        (Insertion.moved offset removed added) := by
  have houtline : outline (String.ofList result) =
      (outline text).map (ClassOutline.completedAt offset removed added) := by
    rw [outline, String.toList_ofList]
    exact hseat.outline_eq
  rw [plannedInsertions_eq_filterMap, plannedInsertions_eq_filterMap, houtline,
    filterMap_completedAt]

/-- An insertion at a seat keeps what the other insertions need. -/
theorem Ready.of_completesSeat (h : Ready indent text)
    (hseat : CompletesSeat text.toList offset removed added result)
    (hends : UniformEnds result) : Ready indent (String.ofList result) := by
  refine ⟨?_, ?_, by rwa [String.toList_ofList]⟩
  · have hnodup : ((plannedInsertions { indent } text).filter
        fun insertion => insertion.offset ≠ offset).Nodup :=
      List.Nodup.filter _ (List.Nodup.of_map _ h.offsets_nodup)
    rw [hseat.plannedInsertions_eq, List.map_map]
    refine List.Nodup.map_on ?_ hnodup
    intro a ha b hb heq
    obtain ⟨ha, hane⟩ := List.mem_filter.1 ha
    obtain ⟨hb, hbne⟩ := List.mem_filter.1 hb
    apply List.inj_on_of_nodup_map h.offsets_nodup ha hb
    have hbefore := fun insertion hinsertion hlt =>
      (hseat.before _ hlt (h.seats insertion hinsertion)).1
    have hfar := hbefore a ha
    have hfar' := hbefore b hb
    have hremoved := hseat.removed_le
    simp only [Function.comp, Insertion.moved, movedOffset, decide_eq_true_eq] at heq hane hbne
    split at heq <;> split at heq <;> omega
  · intro insertion hinsertion
    rw [hseat.plannedInsertions_eq, List.mem_map] at hinsertion
    obtain ⟨old, hold, rfl⟩ := hinsertion
    obtain ⟨hold, hne⟩ := List.mem_filter.1 hold
    have hne' : old.offset ≠ offset := of_decide_eq_true hne
    rw [String.toList_ofList]
    rcases Nat.lt_or_gt_of_ne hne' with hlt | hgt
    · rw [Insertion.moved_of_lt hlt]
      exact (hseat.before _ hlt (h.seats old hold)).2
    · have hmoved : movedOffset offset removed added old.offset = old.offset - removed + added :=
        movedOffset_of_le hgt.le
      rw [Insertion.moved, hmoved]
      exact hseat.behind _ hgt (h.seats old hold)

/-- The planned insertions from the last to the first, cut at one of them. -/
theorem Ready.exists_cut (h : Ready indent text) (first : Insertion)
    (hfirst : first ∈ plannedInsertions { indent } text) :
    ∃ high low, descending (plannedInsertions { indent } text) = high ++ first :: low ∧
      (high ++ first :: low).Pairwise (fun a b => b.offset < a.offset) ∧
      ∀ insertion ∈ high ++ first :: low, insertion ∈ plannedInsertions { indent } text := by
  obtain ⟨high, low, hcut⟩ : ∃ high low,
      descending (plannedInsertions { indent } text) = high ++ first :: low :=
    List.append_of_mem (mem_descending_iff.2 hfirst)
  refine ⟨high, low, hcut, hcut ▸ descending_pairwise _ h.offsets_nodup, ?_⟩
  intro insertion hinsertion
  rw [← hcut] at hinsertion
  exact mem_descending_iff.1 hinsertion

/-- After an insertion the others are carried out in the same order, those behind it at places that
have moved with the text. -/
theorem Ready.descending_result (h : Ready indent text) (first : Insertion)
    (high low : List Insertion) (before after front : List Char)
    (hseat : CompletesSeat text.toList first.offset removed added (front ++ '\x7d' :: after))
    (htext : text.toList = before ++ '\x7d' :: after) (hoffset : byteLength before = first.offset)
    (hcut : descending (plannedInsertions { indent } text) = high ++ first :: low)
    (hordered : (high ++ first :: low).Pairwise fun a b => b.offset < a.offset)
    (hmem : ∀ insertion ∈ high ++ first :: low, insertion ∈ plannedInsertions { indent } text) :
    descending (plannedInsertions { indent } (String.ofList (front ++ '\x7d' :: after))) =
      high.map (Insertion.follow · before front) ++ low := by
  obtain ⟨-, hlow, hcross⟩ := List.pairwise_append.1 hordered
  have hbelow : ∀ insertion ∈ low, insertion.offset + removed < first.offset := by
    intro insertion hinsertion
    exact (hseat.before _ ((List.pairwise_cons.1 hlow).1 insertion hinsertion)
      (h.seats insertion (hmem insertion (by simp [hinsertion])))).1
  have hsize := hseat.length_eq
  rw [htext] at hsize
  simp only [byteLength_append] at hsize
  have hmoved : high.map (Insertion.moved first.offset removed added) =
      high.map (Insertion.follow · before front) := by
    apply List.map_congr_left
    intro insertion hinsertion
    have hgt := hcross insertion hinsertion first (by simp)
    have hremoved := hseat.removed_le
    rw [Insertion.moved, Insertion.follow, movedOffset_of_le hgt.le]
    congr 1
    omega
  rw [hseat.plannedInsertions_eq, ← hmoved]
  exact descending_moved _ high low first removed added hseat.removed_le hcut hordered hbelow

/-- Any one of the planned insertions may come first: it can be carried out, what the others need is
kept, one insertion less is planned for the new text, and completing the new text gives the same as
completing the old one. -/
theorem Ready.step (h : Ready indent text) (hindent : ∀ c ∈ indent.toList, isIndentChar c = true)
    (first : Insertion) (hfirst : first ∈ plannedInsertions { indent } text) :
    ∃ result, insertChars text.toList first.offset first.member.text.toList indent.toList =
        .ok result ∧
      Ready indent (String.ofList result) ∧
      (plannedInsertions { indent } (String.ofList result)).length + 1 =
        (plannedInsertions { indent } text).length ∧
      applyInsertions indent.toList result
          (descending (plannedInsertions { indent } (String.ofList result))) =
        applyInsertions indent.toList text.toList
          (descending (plannedInsertions { indent } text)) := by
  have hplaces := closesText_of_mem_plannedInsertions { indent } text
  have hreturns := not_mem_of_mem_plannedInsertions { indent } text hindent
  obtain ⟨descriptor, hgenerate⟩ := exists_generate_of_mem_plannedInsertions first hfirst
  obtain ⟨hmember, hnames⟩ := generate_csharp_eq_ok _ _ _ hgenerate
  obtain ⟨result, removed, added, hresult, hseat⟩ := exists_insertChars_seat text.toList
    indent.toList first.offset _ (h.seats first hfirst) hindent hnames
  rw [← hmember] at hresult
  obtain ⟨before, after, htext, hoffset⟩ := hplaces first hfirst
  obtain ⟨high, low, hcut, hordered, hmem⟩ := h.exists_cut first hfirst
  obtain ⟨hhigh, -, hcross⟩ := List.pairwise_append.1 hordered
  have hends : UniformEnds (before ++ '\x7d' :: after) := htext ▸ h.ends
  have hinsert := insertChars_eq_completedFront before after first.member.text.toList indent.toList
  obtain ⟨huniform, -⟩ := uniformEnds_completedFront before after first.member.text.toList
    indent.toList hends (hreturns first hfirst) hindent
  have hrun := applyInsertions_first indent.toList before after first high low hindent hoffset
    hends (hreturns first hfirst) hhigh
    (fun insertion hinsertion => ⟨hcross insertion hinsertion first (by simp),
      htext ▸ hplaces insertion (hmem insertion (by simp [hinsertion])),
      hreturns insertion (hmem insertion (by simp [hinsertion]))⟩) _ rfl
  rw [hoffset, ← htext, hresult] at hinsert
  obtain rfl := Except.ok.inj hinsert
  rw [← htext] at huniform hrun
  have hdescending :=
    h.descending_result first high low before after _ hseat htext hoffset hcut hordered hmem
  refine ⟨_, hresult, h.of_completesSeat hseat huniform, ?_, ?_⟩
  · have hlength := congrArg List.length hcut
    have hlength' := congrArg List.length hdescending
    simp only [descending, List.length_mergeSort, List.length_append, List.length_map,
      List.length_cons] at hlength hlength'
    omega
  · rw [hdescending, hcut, hrun]

end Step

theorem plannedInsertions_firstOnly (indent text : String) :
    plannedInsertions { indent, firstOnly := true } text =
      (plannedInsertions { indent } text).take 1 := by
  rw [plannedInsertions, plannedInsertions, plan_insertions, plan_insertions]
  rfl

/-- Rounds that complete one class each complete as many as are planned, and end with the text that
carrying out the whole plan gives. -/
theorem Ready.rounds {indent text : String} (count : Nat) (h : Ready indent text)
    (hindent : ∀ c ∈ indent.toList, isIndentChar c = true)
    (hcount : (plannedInsertions { indent } text).length = count) :
    ∃ result, applyInsertions indent.toList text.toList
        (descending (plannedInsertions { indent } text)) = .ok result ∧
      Rounds { indent, firstOnly := true } text count (String.ofList result) := by
  induction count generalizing text with
  | zero =>
      have hnil := List.length_eq_zero_iff.1 hcount
      have hnone : plannedInsertions { indent, firstOnly := true } text = [] := by
        rw [plannedInsertions_firstOnly, hnil]
        rfl
      have hround := complete_eq_ok text { indent, firstOnly := true } text.toList (by
        simp [hnone, descending, applyInsertions])
      refine ⟨text.toList, by simp [hnil, descending, applyInsertions], Rounds.done hround ?_⟩
      simp [Completion.changed, hnone, descending]
  | succ count ih =>
      obtain ⟨first, rest, hplan⟩ := List.exists_cons_of_length_eq_add_one hcount
      obtain ⟨result, hresult, hready, hlength, hsame⟩ :=
        h.step hindent first (by simp [hplan])
      obtain ⟨final, hfinal, hrounds⟩ := ih hready (by omega)
      have hone : plannedInsertions { indent, firstOnly := true } text = [first] := by
        rw [plannedInsertions_firstOnly, hplan]
        rfl
      have hround := complete_eq_ok text { indent, firstOnly := true } result (by
        rw [hone, descending, List.mergeSort_singleton, applyInsertions, hresult]
        rfl)
      rw [String.toList_ofList, hsame] at hfinal
      refine ⟨final, hfinal, Rounds.next hround ?_ hrounds⟩
      simp [Completion.changed, hone, descending]

/-- Completing one class in each round, until a round has nothing to do, takes as many rounds as
classes are completed at once, and gives the same text. -/
theorem rounds_iff_complete (text indent : String)
    (hindent : ∀ c ∈ indent.toList, isIndentChar c = true) (hbodies : OwnBodies text)
    (hends : EndsFinished text indent) (huniform : UniformEnds text.toList) :
    ∃ completion, complete text { indent } = .ok completion ∧
      ∀ count final, Rounds { indent, firstOnly := true } text count final ↔
        count = completion.completed.length ∧ final = completion.text := by
  obtain ⟨result, hresult, hrounds⟩ :=
    (Ready.of_endsFinished hbodies hends huniform).rounds _ hindent rfl
  refine ⟨_, complete_eq_ok text { indent } result hresult, ?_⟩
  intro count final
  have hlength : ((descending (plannedInsertions { indent } text)).map
      Insertion.className).reverse.length = (plannedInsertions { indent } text).length := by
    simp [descending]
  rw [hlength]
  constructor
  · intro h
    exact h.unique hrounds
  · rintro ⟨rfl, rfl⟩
    exact hrounds

/-- Classes in a class and side by side, with closing braces on one line. -/
def nestedOnOneLine : String :=
  "class A \x7b int X \x7b get; \x7d class B \x7b \x7d\x7d\r\n" ++
    "class C \x7b\r\n  string S => \"\x7d\";\r\n  \x7d"

theorem rounds_nestedOnOneLine :
    OwnBodies nestedOnOneLine ∧ EndsFinished nestedOnOneLine "\t" ∧
      UniformEnds nestedOnOneLine.toList ∧
      ∃ completion, complete nestedOnOneLine { indent := "\t" } = .ok completion ∧
        ∀ count final, Rounds { indent := "\t", firstOnly := true } nestedOnOneLine count final ↔
          count = completion.completed.length ∧ final = completion.text := by
  have hbodies : OwnBodies nestedOnOneLine := by decide +kernel
  have hends : EndsFinished nestedOnOneLine "\t" := by decide +kernel
  have huniform : UniformEnds nestedOnOneLine.toList := by decide +kernel
  exact ⟨hbodies, hends, huniform,
    rounds_iff_complete nestedOnOneLine "\t" (by decide) hbodies hends huniform⟩

end RecordText.Edit
