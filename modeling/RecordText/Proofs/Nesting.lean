import RecordText.Source.Body
import Mathlib.Data.List.Basic

/-!
# Nesting of braces

The depth of inner blocks behind a piece of a body decides how the walk through
the body goes on. A body closes exactly at the first closing brace that stands
at depth zero, and this brace belongs to one opening brace only.

## Implementation notes

A walk through a piece of text that does not close the body can be cut in two:
the segments of the piece come first, and the walk goes on behind it with the
depth and the segment that the piece leaves behind.
-/

namespace RecordText.Source

open RecordText.Text

/-- The depth of inner blocks behind a text, or nothing if the text closes the body. -/
def depthAfter (depth : Nat) : List Char → Option Nat
  | [] => some depth
  | c :: rest =>
    if c = '\x7b' then depthAfter (depth + 1) rest
    else if c = '\x7d' then
      match depth with
      | 0 => none
      | inner + 1 => depthAfter inner rest
    else depthAfter depth rest

/-- Whether the braces of a text match. -/
def isBalanced (text : List Char) : Bool :=
  depthAfter 0 text = some 0

/-- The current segment behind a text, in reverse, for a walk that starts with a given depth and
segment. -/
def segmentAfter (depth : Nat) (segment : List Char) : List Char → List Char
  | [] => segment
  | c :: rest =>
    match depth with
    | 0 =>
      if c = '\x7b' then segmentAfter 1 [] rest
      else if c = ';' then segmentAfter 0 [] rest
      else segmentAfter 0 (c :: segment) rest
    | inner + 1 =>
      if c = '\x7b' then segmentAfter (inner + 2) [] rest
      else if c = '\x7d' then segmentAfter inner [] rest
      else segmentAfter (inner + 1) [] rest

/-- What stands behind the last member at the top level of a body, given the text between the
braces of the body. -/
def unfinished (inside : List Char) : List Char :=
  (segmentAfter 0 [] inside).reverse

@[simp] theorem depthAfter_nil (depth : Nat) : depthAfter depth [] = some depth := rfl

@[simp] theorem depthAfter_open (depth : Nat) (rest : List Char) :
    depthAfter depth ('\x7b' :: rest) = depthAfter (depth + 1) rest := by
  rw [depthAfter.eq_def]
  rfl

@[simp] theorem depthAfter_close_zero (rest : List Char) :
    depthAfter 0 ('\x7d' :: rest) = none := by
  rw [depthAfter.eq_def]
  rfl

@[simp] theorem depthAfter_close_succ (inner : Nat) (rest : List Char) :
    depthAfter (inner + 1) ('\x7d' :: rest) = depthAfter inner rest := by
  rw [depthAfter.eq_def]
  rfl

theorem depthAfter_other (depth : Nat) (c : Char) (rest : List Char)
    (h : c ≠ '\x7b' ∧ c ≠ '\x7d') : depthAfter depth (c :: rest) = depthAfter depth rest := by
  rw [depthAfter.eq_def]
  simp only [if_neg h.1, if_neg h.2]

/-- A character opens a block, closes one, or is no brace. -/
theorem brace_cases (c : Char) : c = '\x7b' ∨ c = '\x7d' ∨ (c ≠ '\x7b' ∧ c ≠ '\x7d') := by
  by_cases hopen : c = '\x7b'
  · exact Or.inl hopen
  · by_cases hclose : c = '\x7d'
    · exact Or.inr (Or.inl hclose)
    · exact Or.inr (Or.inr ⟨hopen, hclose⟩)

theorem depthAfter_append (depth : Nat) (front back : List Char) :
    depthAfter depth (front ++ back) =
      (depthAfter depth front).bind fun behind => depthAfter behind back := by
  induction front generalizing depth with
  | nil => rfl
  | cons c rest ih =>
      rcases brace_cases c with rfl | rfl | hc
      · simp [ih]
      · cases depth with
        | zero => simp
        | succ inner => simp [ih]
      · rw [List.cons_append, depthAfter_other _ _ _ hc, depthAfter_other _ _ _ hc, ih]

/-- A text that closes no more blocks than it opens can stand inside further blocks. -/
theorem depthAfter_add (depth behind outer : Nat) (text : List Char)
    (h : depthAfter depth text = some behind) :
    depthAfter (depth + outer) text = some (behind + outer) := by
  induction text generalizing depth with
  | nil =>
      obtain rfl : depth = behind := by simpa using h
      rfl
  | cons c rest ih =>
      rcases brace_cases c with rfl | rfl | hc
      · rw [depthAfter_open] at h ⊢
        rw [Nat.add_right_comm, ih _ h]
      · cases depth with
        | zero => simp at h
        | succ inner =>
            rw [depthAfter_close_succ] at h
            rw [Nat.add_right_comm, depthAfter_close_succ, ih _ h]
      · rw [depthAfter_other _ _ _ hc] at h ⊢
        exact ih _ h

/-- A text without braces leaves the depth as it is. -/
theorem depthAfter_of_no_braces (depth : Nat) (text : List Char)
    (h : ∀ c ∈ text, c ≠ '\x7b' ∧ c ≠ '\x7d') : depthAfter depth text = some depth := by
  induction text with
  | nil => rfl
  | cons c rest ih =>
      rw [depthAfter_other _ _ _ (h c (by simp))]
      exact ih fun d hd => h d (by simp [hd])

/-- An opening brace behind the start of a body leaves the body inside a block when the block does
not close. -/
theorem depthAfter_inner_open (front inside : List Char) (hinside : depthAfter 0 inside = some 0) :
    depthAfter 0 (front ++ '\x7b' :: inside) ≠ some 0 := by
  rw [depthAfter_append]
  cases hdepth : depthAfter 0 front with
  | none => simp
  | some depth =>
      have habove := depthAfter_add 0 0 (depth + 1) inside hinside
      simp only [Nat.zero_add] at habove
      simp [habove]

/-- A closing brace belongs to one opening brace: two bodies that close at the same place start at
the same place. -/
theorem opening_unique (front front' inside inside' : List Char)
    (h : front ++ '\x7b' :: inside = front' ++ '\x7b' :: inside')
    (hinside : depthAfter 0 inside = some 0) (hinside' : depthAfter 0 inside' = some 0) :
    front = front' := by
  rcases List.append_eq_append_iff.1 h with ⟨more, hfront, hrest⟩ | ⟨more, hfront, hrest⟩
  · cases more with
    | nil => simpa using hfront.symm
    | cons c more =>
        rw [List.cons_append, List.cons.injEq] at hrest
        rw [hrest.2] at hinside
        exact absurd hinside (depthAfter_inner_open more inside' hinside')
  · cases more with
    | nil => simpa using hfront
    | cons c more =>
        rw [List.cons_append, List.cons.injEq] at hrest
        rw [hrest.2] at hinside'
        exact absurd hinside' (depthAfter_inner_open more inside hinside)

@[simp] theorem Body.cons_segments (segment : Segment) (body : Body) :
    (body.cons segment).segments = segment :: body.segments := rfl

@[simp] theorem Body.cons_close (segment : Segment) (body : Body) :
    (body.cons segment).close = body.close := rfl

/-- A body with further segments in front. -/
def Body.prepend (segments : List Segment) (body : Body) : Body :=
  { body with segments := segments ++ body.segments }

@[simp] theorem Body.prepend_nil (body : Body) : body.prepend [] = body := rfl

@[simp] theorem Body.prepend_cons (segment : Segment) (segments : List Segment) (body : Body) :
    body.prepend (segment :: segments) = (body.prepend segments).cons segment := rfl

@[simp] theorem Body.prepend_segments (segments : List Segment) (body : Body) :
    (body.prepend segments).segments = segments ++ body.segments := rfl

@[simp] theorem Body.prepend_close (segments : List Segment) (body : Body) :
    (body.prepend segments).close = body.close := rfl

/-- A body whose text stands further behind. -/
def Body.shift (bytes : Nat) (body : Body) : Body :=
  { body with close := body.close.map (· + bytes) }

@[simp] theorem utf8Size_open : '\x7b'.utf8Size = 1 := rfl

@[simp] theorem utf8Size_close : '\x7d'.utf8Size = 1 := rfl

@[simp] theorem utf8Size_semicolon : ';'.utf8Size = 1 := rfl

section WalkSteps

variable (segment : List Char) (offset : Nat) (rest : List Char)

@[simp] theorem walk_nil (depth : Nat) : walk depth segment offset [] = {} := by
  rw [walk.eq_def]

@[simp] theorem walk_zero_open :
    walk 0 segment offset ('\x7b' :: rest) =
      (walk 1 [] (offset + 1) rest).cons { text := segment.reverse, terminator := .brace } := by
  rw [walk.eq_def]
  rfl

@[simp] theorem walk_zero_close :
    walk 0 segment offset ('\x7d' :: rest) = { close := some offset } := by
  rw [walk.eq_def]
  rfl

@[simp] theorem walk_zero_semicolon :
    walk 0 segment offset (';' :: rest) =
      (walk 0 [] (offset + 1) rest).cons { text := segment.reverse, terminator := .semicolon } := by
  rw [walk.eq_def]
  rfl

theorem walk_zero_other (c : Char) (h : c ≠ '\x7b' ∧ c ≠ '\x7d') (hend : c ≠ ';') :
    walk 0 segment offset (c :: rest) = walk 0 (c :: segment) (offset + c.utf8Size) rest := by
  rw [walk.eq_def]
  simp only [if_neg h.1, if_neg h.2, if_neg hend]

@[simp] theorem walk_succ_open (inner : Nat) :
    walk (inner + 1) segment offset ('\x7b' :: rest) = walk (inner + 2) [] (offset + 1) rest := by
  rw [walk.eq_def]
  rfl

@[simp] theorem walk_succ_close (inner : Nat) :
    walk (inner + 1) segment offset ('\x7d' :: rest) = walk inner [] (offset + 1) rest := by
  rw [walk.eq_def]
  rfl

theorem walk_succ_other (inner : Nat) (c : Char) (h : c ≠ '\x7b' ∧ c ≠ '\x7d') :
    walk (inner + 1) segment offset (c :: rest) =
      walk (inner + 1) [] (offset + c.utf8Size) rest := by
  rw [walk.eq_def]
  simp only [if_neg h.1, if_neg h.2]

end WalkSteps

section SegmentSteps

variable (segment rest : List Char)

@[simp] theorem segmentAfter_nil (depth : Nat) : segmentAfter depth segment [] = segment := by
  rw [segmentAfter.eq_def]

@[simp] theorem segmentAfter_open (depth : Nat) :
    segmentAfter depth segment ('\x7b' :: rest) = segmentAfter (depth + 1) [] rest := by
  rw [segmentAfter.eq_def]
  cases depth <;> rfl

@[simp] theorem segmentAfter_close_succ (inner : Nat) :
    segmentAfter (inner + 1) segment ('\x7d' :: rest) = segmentAfter inner [] rest := by
  rw [segmentAfter.eq_def]
  rfl

@[simp] theorem segmentAfter_zero_semicolon :
    segmentAfter 0 segment (';' :: rest) = segmentAfter 0 [] rest := by
  rw [segmentAfter.eq_def]
  rfl

theorem segmentAfter_zero_other (c : Char) (h : c ≠ '\x7b' ∧ c ≠ '\x7d') (hend : c ≠ ';') :
    segmentAfter 0 segment (c :: rest) = segmentAfter 0 (c :: segment) rest := by
  rw [segmentAfter.eq_def]
  simp only [if_neg h.1, if_neg hend]

theorem segmentAfter_succ_other (inner : Nat) (c : Char) (h : c ≠ '\x7b' ∧ c ≠ '\x7d') :
    segmentAfter (inner + 1) segment (c :: rest) = segmentAfter (inner + 1) [] rest := by
  rw [segmentAfter.eq_def]
  simp only [if_neg h.1, if_neg h.2]

end SegmentSteps

/-- A walk through a text that does not close the body goes on behind it with the depth and the
segment that the text leaves. -/
theorem walk_append (depth behind : Nat) (segment : List Char) (offset : Nat)
    (front back : List Char) (h : depthAfter depth front = some behind) :
    walk depth segment offset (front ++ back) =
      (walk behind (segmentAfter depth segment front) (offset + byteLength front) back).prepend
        (walk depth segment offset front).segments := by
  induction front generalizing depth segment offset with
  | nil =>
      obtain rfl : depth = behind := by simpa using h
      simp [byteLength]
  | cons c rest ih =>
      rw [List.cons_append, byteLength, ← Nat.add_assoc]
      rcases brace_cases c with rfl | rfl | hc
      · rw [depthAfter_open] at h
        have hrec := fun segment => ih (depth + 1) segment (offset + 1) h
        cases depth with
        | zero =>
            simp only [walk_zero_open, segmentAfter_open, Body.cons_segments, Body.prepend_cons]
            rw [hrec]
            rfl
        | succ inner =>
            simp only [walk_succ_open, segmentAfter_open]
            exact hrec []
      · cases depth with
        | zero => simp at h
        | succ inner =>
            rw [depthAfter_close_succ] at h
            simp only [walk_succ_close, segmentAfter_close_succ]
            exact ih inner [] (offset + 1) h
      · rw [depthAfter_other _ _ _ hc] at h
        cases depth with
        | zero =>
            by_cases hend : c = ';'
            · subst hend
              simp only [walk_zero_semicolon, segmentAfter_zero_semicolon, Body.cons_segments,
                Body.prepend_cons]
              rw [ih 0 [] (offset + 1) h]
              rfl
            · simp only [walk_zero_other _ _ _ c hc hend, segmentAfter_zero_other _ _ c hc hend]
              exact ih 0 (c :: segment) _ h
        | succ inner =>
            simp only [walk_succ_other _ _ _ inner c hc, segmentAfter_succ_other _ _ inner c hc]
            exact ih (inner + 1) [] _ h

/-- A walk does not look behind the brace that closes the body. -/
theorem walk_append_of_closed (depth : Nat) (segment : List Char) (offset : Nat)
    (front back : List Char) (h : depthAfter depth front = none) :
    walk depth segment offset (front ++ back) = walk depth segment offset front := by
  induction front generalizing depth segment offset with
  | nil => cases h
  | cons c rest ih =>
      rw [List.cons_append]
      rcases brace_cases c with rfl | rfl | hc
      · rw [depthAfter_open] at h
        cases depth with
        | zero => simp [ih _ _ _ h]
        | succ inner => simp [ih _ _ _ h]
      · cases depth with
        | zero => simp
        | succ inner =>
            rw [depthAfter_close_succ] at h
            simp [ih _ _ _ h]
      · rw [depthAfter_other _ _ _ hc] at h
        cases depth with
        | zero =>
            by_cases hend : c = ';'
            · subst hend
              simp [ih _ _ _ h]
            · simp [walk_zero_other _ _ _ c hc hend, ih _ _ _ h]
        | succ inner => simp [walk_succ_other _ _ _ inner c hc, ih _ _ _ h]

/-- Only the place of the closing brace depends on where a walk starts. -/
theorem walk_shift (depth : Nat) (segment : List Char) (offset bytes : Nat) (text : List Char) :
    walk depth segment (offset + bytes) text = (walk depth segment offset text).shift bytes := by
  induction text generalizing depth segment offset with
  | nil => simp [Body.shift]
  | cons c rest ih =>
      have hstep : ∀ depth segment size, walk depth segment (offset + bytes + size) rest =
          (walk depth segment (offset + size) rest).shift bytes := by
        intro depth segment size
        rw [Nat.add_right_comm, ih]
      rcases brace_cases c with rfl | rfl | hc
      · cases depth with
        | zero => simp [hstep, Body.cons, Body.shift]
        | succ inner => simp [hstep]
      · cases depth with
        | zero => simp [Body.shift]
        | succ inner => simp [hstep]
      · cases depth with
        | zero =>
            by_cases hend : c = ';'
            · subst hend
              simp [hstep, Body.cons, Body.shift]
            · simp [walk_zero_other _ _ _ c hc hend, hstep]
        | succ inner => simp [walk_succ_other _ _ _ inner c hc, hstep]

/-- Inside a block only the depth matters. -/
theorem walk_inner_append (depth behind : Nat) (offset : Nat) (front back : List Char)
    (h : depthAfter depth front = some behind) :
    walk (depth + 1) [] offset (front ++ back) =
      walk (behind + 1) [] (offset + byteLength front) back := by
  induction front generalizing depth offset with
  | nil =>
      obtain rfl : depth = behind := by simpa using h
      simp [byteLength]
  | cons c rest ih =>
      rw [List.cons_append, byteLength, ← Nat.add_assoc]
      rcases brace_cases c with rfl | rfl | hc
      · rw [depthAfter_open] at h
        rw [walk_succ_open]
        exact ih (depth + 1) (offset + 1) h
      · cases depth with
        | zero => simp at h
        | succ inner =>
            rw [depthAfter_close_succ] at h
            rw [walk_succ_close]
            exact ih inner (offset + 1) h
      · rw [depthAfter_other _ _ _ hc] at h
        rw [walk_succ_other _ _ _ depth c hc]
        exact ih depth _ h

/-- A text closes a body at a closing brace at depth zero. -/
theorem exists_close_of_depthAfter_eq_none (depth : Nat) (text : List Char)
    (h : depthAfter depth text = none) :
    ∃ inside behind, text = inside ++ '\x7d' :: behind ∧ depthAfter depth inside = some 0 := by
  induction text generalizing depth with
  | nil => cases h
  | cons c rest ih =>
      rcases brace_cases c with rfl | rfl | hc
      · rw [depthAfter_open] at h
        obtain ⟨inside, behind, rfl, hdepth⟩ := ih _ h
        exact ⟨'\x7b' :: inside, behind, rfl, by simpa using hdepth⟩
      · cases depth with
        | zero => exact ⟨[], rest, rfl, rfl⟩
        | succ inner =>
            rw [depthAfter_close_succ] at h
            obtain ⟨inside, behind, rfl, hdepth⟩ := ih _ h
            exact ⟨'\x7d' :: inside, behind, rfl, by simpa using hdepth⟩
      · rw [depthAfter_other _ _ _ hc] at h
        obtain ⟨inside, behind, rfl, hdepth⟩ := ih _ h
        exact ⟨c :: inside, behind, rfl, by rw [depthAfter_other _ _ _ hc, hdepth]⟩

/-- The closing brace at depth zero ends the walk. -/
theorem walk_close (depth : Nat) (segment : List Char) (offset : Nat) (inside behind : List Char)
    (h : depthAfter depth inside = some 0) :
    walk depth segment offset (inside ++ '\x7d' :: behind) =
      { segments := (walk depth segment offset inside).segments,
        close := some (offset + byteLength inside) } := by
  rw [walk_append depth 0 segment offset inside _ h, walk_zero_close]
  simp [Body.prepend]

theorem walk_close_eq_none (depth behind : Nat) (segment : List Char) (offset : Nat)
    (text : List Char) (h : depthAfter depth text = some behind) :
    (walk depth segment offset text).close = none := by
  have hwalk := walk_append depth behind segment offset text [] h
  rw [List.append_nil, walk_nil] at hwalk
  rw [hwalk]
  rfl

/-- A body closes at the first closing brace at depth zero. -/
theorem walk_close_iff (depth : Nat) (segment : List Char) (offset place : Nat)
    (text : List Char) :
    (walk depth segment offset text).close = some place ↔
      ∃ inside behind, text = inside ++ '\x7d' :: behind ∧ depthAfter depth inside = some 0 ∧
        place = offset + byteLength inside := by
  constructor
  · intro h
    cases hdepth : depthAfter depth text with
    | some behind =>
        rw [walk_close_eq_none depth behind segment offset text hdepth] at h
        cases h
    | none =>
        obtain ⟨inside, behind, rfl, hinside⟩ :=
          exists_close_of_depthAfter_eq_none depth text hdepth
        rw [walk_close depth segment offset inside behind hinside] at h
        exact ⟨inside, behind, rfl, hinside, (Option.some.inj h).symm⟩
  · rintro ⟨inside, behind, rfl, hinside, rfl⟩
    rw [walk_close depth segment offset inside behind hinside]

/-- Whether a character ends the search for the opening brace of a body. -/
def isStop (c : Char) : Bool :=
  c == '\x7b' || c == '\x7d' || c == ';'

theorem depthAfter_of_not_isStop (depth : Nat) (text : List Char)
    (h : ∀ c ∈ text, isStop c = false) : depthAfter depth text = some depth := by
  apply depthAfter_of_no_braces
  intro c hc
  have hstop := h c hc
  simp only [isStop, Bool.or_eq_false_iff, beq_eq_false_iff_ne] at hstop
  exact hstop.1

/-- No stop stands in what is left of the current segment behind a text that does not close the
body. -/
theorem not_isStop_of_mem_segmentAfter (depth behind : Nat) (segment text : List Char)
    (h : depthAfter depth text = some behind) (hsegment : ∀ c ∈ segment, isStop c = false) :
    ∀ c ∈ segmentAfter depth segment text, isStop c = false := by
  have hnil : ∀ c ∈ ([] : List Char), isStop c = false := by simp
  induction text generalizing depth segment with
  | nil => simpa using hsegment
  | cons c rest ih =>
      rcases brace_cases c with rfl | rfl | hc
      · rw [depthAfter_open] at h
        rw [segmentAfter_open]
        exact ih _ _ h hnil
      · cases depth with
        | zero => simp at h
        | succ inner =>
            rw [depthAfter_close_succ] at h
            rw [segmentAfter_close_succ]
            exact ih _ _ h hnil
      · rw [depthAfter_other _ _ _ hc] at h
        cases depth with
        | zero =>
            by_cases hend : c = ';'
            · subst hend
              rw [segmentAfter_zero_semicolon]
              exact ih _ _ h hnil
            · rw [segmentAfter_zero_other _ _ c hc hend]
              refine ih _ _ h (List.forall_mem_cons.2 ⟨?_, hsegment⟩)
              simp [isStop, hc, hend]
        | succ inner =>
            rw [segmentAfter_succ_other _ _ inner c hc]
            exact ih _ _ h hnil

theorem findOpen?_of_not_isStop (offset : Nat) (c : Char) (rest : List Char)
    (h : isStop c = false) :
    findOpen? offset (c :: rest) = findOpen? (offset + c.utf8Size) rest := by
  simp only [isStop, Bool.or_eq_false_iff, beq_eq_false_iff_ne] at h
  simp [findOpen?, h]

theorem findOpen?_gap (offset : Nat) (gap rest : List Char) (h : ∀ c ∈ gap, isStop c = false) :
    findOpen? offset (gap ++ rest) = findOpen? (offset + byteLength gap) rest := by
  induction gap generalizing offset with
  | nil => rfl
  | cons c gap ih =>
      rw [List.cons_append, findOpen?_of_not_isStop _ _ _ (h c (by simp)),
        ih _ fun d hd => h d (by simp [hd]), byteLength, Nat.add_assoc]

/-- The opening brace of a body is the first stop behind the header. -/
theorem findOpen?_eq_some (offset place : Nat) (text inside : List Char)
    (h : findOpen? offset text = some (place, inside)) :
    ∃ gap, text = gap ++ '\x7b' :: inside ∧ (∀ c ∈ gap, isStop c = false) ∧
      place = offset + byteLength gap := by
  induction text generalizing offset with
  | nil => cases h
  | cons c rest ih =>
      rw [findOpen?] at h
      split at h
      · rename_i hopen
        obtain ⟨rfl, rfl⟩ := Prod.mk.inj (Option.some.inj h)
        exact ⟨[], by rw [hopen]; rfl, by simp, rfl⟩
      · split at h
        · cases h
        · rename_i hopen hstop
          obtain ⟨gap, rfl, hgap, rfl⟩ := ih _ h
          refine ⟨c :: gap, rfl, ?_, by rw [byteLength, Nat.add_assoc]⟩
          rintro d (_ | ⟨_, hd⟩)
          · simp only [not_or] at hstop
            simp [isStop, hopen, hstop]
          · exact hgap d hd

/-- The search for the opening brace ends at a stop, whatever follows it. -/
theorem findOpen?_append (offset : Nat) (front back : List Char) (c : Char)
    (hc : isStop c = true) :
    findOpen? offset (front ++ c :: back) =
      (findOpen? offset (front ++ [c])).map fun found => (found.1, found.2 ++ back) := by
  induction front generalizing offset with
  | nil =>
      simp only [isStop, Bool.or_eq_true, beq_iff_eq] at hc
      rcases hc with (rfl | rfl) | rfl <;> simp [findOpen?]
  | cons d front ih =>
      simp only [List.cons_append, findOpen?]
      split
      · simp
      · split
        · rfl
        · exact ih _

theorem findOpen?_shift (offset bytes : Nat) (text : List Char) :
    findOpen? (offset + bytes) text =
      (findOpen? offset text).map fun found => (found.1 + bytes, found.2) := by
  induction text generalizing offset with
  | nil => rfl
  | cons c rest ih =>
      simp only [findOpen?]
      split
      · rfl
      · split
        · rfl
        · rw [Nat.add_right_comm, ih]

end RecordText.Source
