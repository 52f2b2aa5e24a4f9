import RecordText.Proofs.CompletedOutline

/-!
# Bodies of classes in a text

A class whose body is closed owns a pair of matching braces of the masked text.
The closing brace determines the opening one and the other way around, so two
classes share a closing brace only if they share the whole body.
-/

namespace RecordText.Source

open RecordText.Text

/-- A text has only one front of a given number of bytes. -/
theorem append_inj_of_byteLength (front back front' back' : List Char)
    (h : front ++ back = front' ++ back') (hlength : byteLength front = byteLength front') :
    front = front' ∧ back = back' := by
  have hcut := cutAt?_append front back
  rw [h, hlength, cutAt?_append front' back'] at hcut
  simpa using hcut.symm

/-- The pair of braces of a body in a masked text. -/
structure HasBody (masked front inside behind : List Char) (found : ClassOutline) : Prop where
  masked_eq : masked = front ++ '\x7b' :: (inside ++ '\x7d' :: behind)
  open_eq : found.bodyOpen = some (byteLength front)
  close_eq : found.bodyClose = some (byteLength (front ++ '\x7b' :: inside))
  depth_eq : depthAfter 0 inside = some 0

/-- A class whose body is closed has its pair of braces in the text. -/
theorem exists_hasBody (masked : List Char) (found : ClassOutline) (close : Nat)
    (hfound : found ∈ outlineMasked masked) (hclose : found.bodyClose = some close) :
    ∃ front inside behind, HasBody masked front inside behind found := by
  obtain ⟨header, hheader, rfl⟩ := List.mem_map.1 hfound
  obtain ⟨passed, hpassed, hend, -⟩ := exists_front_of_mem_headers [] 0 masked header hheader
  cases hfind : findOpen? header.endOffset header.rest with
  | none =>
      rw [header.outline_of_none hfind] at hclose
      cases hclose
  | some opened =>
      obtain ⟨bodyOpen, text⟩ := opened
      have houtline := header.outline_of_some bodyOpen text hfind
      rw [houtline] at hclose ⊢
      obtain ⟨gap, hgap, -, hopen⟩ := findOpen?_eq_some _ _ _ _ hfind
      obtain ⟨inside, behind, htext, hdepth, hplace⟩ := (walk_close_iff _ _ _ _ _).1 hclose
      have hbytes : bodyOpen = byteLength (passed ++ gap) := by
        rw [byteLength_append]
        omega
      refine ⟨passed ++ gap, inside, behind, ?_, ?_, ?_, hdepth⟩
      · rw [hpassed, hgap, htext]
        simp
      · rw [← hbytes]
        rfl
      · refine hclose.trans (congrArg some ?_)
        rw [hplace, hbytes]
        simp only [byteLength_append, byteLength, utf8Size_open]
        omega

/-- Classes that share the closing brace share the opening one. -/
theorem bodyOpen_eq_of_bodyClose_eq (masked : List Char) (found other : ClassOutline) (close : Nat)
    (hfound : found ∈ outlineMasked masked) (hother : other ∈ outlineMasked masked)
    (hclose : found.bodyClose = some close) (hclose' : other.bodyClose = some close) :
    found.bodyOpen = other.bodyOpen := by
  obtain ⟨front, inside, behind, hbody⟩ := exists_hasBody masked found close hfound hclose
  obtain ⟨front', inside', behind', hbody'⟩ := exists_hasBody masked other close hother hclose'
  have hlength : byteLength (front ++ '\x7b' :: inside) =
      byteLength (front' ++ '\x7b' :: inside') := by
    have hsome := (hbody.close_eq.symm.trans hclose).trans (hclose'.symm.trans hbody'.close_eq)
    exact Option.some.inj hsome
  have hmasked : front ++ '\x7b' :: inside ++ '\x7d' :: behind =
      front' ++ '\x7b' :: inside' ++ '\x7d' :: behind' := by
    simpa using hbody.masked_eq.symm.trans hbody'.masked_eq
  obtain ⟨hsame, -⟩ := append_inj_of_byteLength _ _ _ _ hmasked hlength
  have hfront := opening_unique front front' inside inside' hsame hbody.depth_eq hbody'.depth_eq
  rw [hbody.open_eq, hbody'.open_eq, hfront]

/-- Classes that share the opening brace share the closing one. -/
theorem bodyClose_eq_of_bodyOpen_eq (masked : List Char) (found other : ClassOutline)
    (close close' : Nat) (hfound : found ∈ outlineMasked masked)
    (hother : other ∈ outlineMasked masked) (hclose : found.bodyClose = some close)
    (hclose' : other.bodyClose = some close') (hopen : found.bodyOpen = other.bodyOpen) :
    close = close' := by
  obtain ⟨front, inside, behind, hbody⟩ := exists_hasBody masked found close hfound hclose
  obtain ⟨front', inside', behind', hbody'⟩ := exists_hasBody masked other close' hother hclose'
  have hlength : byteLength front = byteLength front' := by
    have hsome := hbody.open_eq.symm.trans (hopen.trans hbody'.open_eq)
    exact Option.some.inj hsome
  obtain ⟨rfl, htext⟩ := append_inj_of_byteLength _ _ _ _
    (hbody.masked_eq.symm.trans hbody'.masked_eq) hlength
  have hwalk := walk_close 0 [] 0 inside behind hbody.depth_eq
  rw [(List.cons.inj htext).2, walk_close 0 [] 0 inside' behind' hbody'.depth_eq] at hwalk
  have hinside : byteLength inside' = byteLength inside := by
    simpa using congrArg Body.close hwalk
  have hplace := hbody.close_eq.symm.trans hclose
  have hplace' := hbody'.close_eq.symm.trans hclose'
  simp only [byteLength_append, byteLength, Option.some.injEq] at hplace hplace'
  omega

/-- What stands behind the last reset of the segment is the unfinished piece. -/
theorem exists_stop_of_segmentAfter (depth : Nat) (segment text : List Char)
    (h : depthAfter depth text = some 0) :
    (depth = 0 ∧ segmentAfter 0 segment text = text.reverse ++ segment) ∨
      ∃ front stop, isStop stop = true ∧
        text = front ++ stop :: (segmentAfter depth segment text).reverse := by
  induction text generalizing depth segment with
  | nil =>
      obtain rfl : depth = 0 := by simpa using h
      exact Or.inl ⟨rfl, by simp⟩
  | cons c rest ih =>
      have hcons : ∀ segment' depth', (∃ front stop, isStop stop = true ∧
            rest = front ++ stop :: (segmentAfter depth' segment' rest).reverse) →
          segmentAfter depth segment (c :: rest) = segmentAfter depth' segment' rest →
          ∃ front stop, isStop stop = true ∧
            c :: rest = front ++ stop :: (segmentAfter depth segment (c :: rest)).reverse := by
        rintro segment' depth' ⟨front, stop, hstop, hrest⟩ hsegment
        exact ⟨c :: front, stop, hstop, by rw [hsegment, List.cons_append, ← hrest]⟩
      have hreset : ∀ depth', isStop c = true → depthAfter depth' rest = some 0 →
          segmentAfter depth segment (c :: rest) = segmentAfter depth' [] rest →
          ∃ front stop, isStop stop = true ∧
            c :: rest = front ++ stop :: (segmentAfter depth segment (c :: rest)).reverse := by
        intro depth' hstop hdepth hsegment
        rcases ih depth' [] hdepth with ⟨rfl, hwhole⟩ | hrest
        · exact ⟨[], c, hstop, by rw [hsegment, hwhole]; simp⟩
        · exact hcons _ _ hrest hsegment
      rcases brace_cases c with rfl | rfl | hc
      · rw [depthAfter_open] at h
        exact Or.inr (hreset (depth + 1) rfl h (segmentAfter_open ..))
      · cases depth with
        | zero => simp at h
        | succ inner =>
            rw [depthAfter_close_succ] at h
            exact Or.inr (hreset inner rfl h (segmentAfter_close_succ ..))
      · rw [depthAfter_other depth c rest hc] at h
        cases depth with
        | zero =>
            by_cases hend : c = ';'
            · subst hend
              exact Or.inr (hreset 0 rfl h (segmentAfter_zero_semicolon ..))
            · have hstep := segmentAfter_zero_other segment rest c hc hend
              rcases ih 0 (c :: segment) h with ⟨-, hwhole⟩ | hrest
              · exact Or.inl ⟨rfl, by rw [hstep, hwhole]; simp⟩
              · exact Or.inr (hcons _ _ hrest hstep)
        | succ inner =>
            have hstep := segmentAfter_succ_other segment rest inner c hc
            rcases ih (inner + 1) [] h with ⟨hzero, -⟩ | hrest
            · cases hzero
            · exact Or.inr (hcons _ _ hrest hstep)

/-- Behind the opening brace a stop comes directly before the unfinished piece of the body. -/
theorem exists_stop_unfinished (inside : List Char) (h : depthAfter 0 inside = some 0) :
    ∃ front stop, isStop stop = true ∧ '\x7b' :: inside = front ++ stop :: unfinished inside := by
  rcases exists_stop_of_segmentAfter 0 [] inside h with ⟨-, hwhole⟩ | ⟨front, stop, hstop, hinside⟩
  · exact ⟨[], '\x7b', rfl, by simp [unfinished, hwhole]⟩
  · exact ⟨'\x7b' :: front, stop, hstop, congrArg (List.cons '\x7b') hinside⟩

/-- The masked text between the braces of a class. -/
def ClassOutline.inside (masked : List Char) (found : ClassOutline) : List Char :=
  match found.bodyOpen, found.bodyClose with
  | some bodyOpen, some bodyClose =>
    match cutAt? masked bodyClose with
    | some (upToClose, _) =>
      match cutAt? upToClose (bodyOpen + 1) with
      | some (_, inside) => inside
      | none => []
    | none => []
  | _, _ => []

theorem HasBody.inside_eq {masked front inside behind : List Char} {found : ClassOutline}
    (h : HasBody masked front inside behind found) : found.inside masked = inside := by
  have hclose : cutAt? masked (byteLength (front ++ '\x7b' :: inside)) =
      some (front ++ '\x7b' :: inside, '\x7d' :: behind) := by
    have hcut := cutAt?_append (front ++ '\x7b' :: inside) ('\x7d' :: behind)
    rw [h.masked_eq]
    simpa using hcut
  have hopen : cutAt? (front ++ '\x7b' :: inside) (byteLength front + 1) =
      some (front ++ ['\x7b'], inside) := by
    have hcut := cutAt?_append (front ++ ['\x7b']) inside
    simpa [byteLength] using hcut
  simp only [ClassOutline.inside, h.open_eq, h.close_eq, hclose, hopen]

/-- The closing brace of a body stands behind the unfinished piece of the body, and a stop in front
of that piece. -/
theorem HasBody.exists_stop {masked front inside behind : List Char} {found : ClassOutline}
    (h : HasBody masked front inside behind found) :
    ∃ more stop, isStop stop = true ∧
      masked = more ++ stop :: (unfinished inside ++ '\x7d' :: behind) ∧
      found.bodyClose = some (byteLength (more ++ stop :: unfinished inside)) := by
  obtain ⟨more, stop, hstop, hinside⟩ := exists_stop_unfinished inside h.depth_eq
  refine ⟨front ++ more, stop, hstop, ?_, ?_⟩
  · calc masked
        = front ++ ('\x7b' :: inside ++ '\x7d' :: behind) := h.masked_eq
      _ = front ++ (more ++ stop :: unfinished inside ++ '\x7d' :: behind) := by rw [hinside]
      _ = front ++ more ++ stop :: (unfinished inside ++ '\x7d' :: behind) := by simp
  · rw [h.close_eq, hinside, List.append_assoc]

end RecordText.Source
