import RecordText.Proofs.HeaderForm

/-!
# Places of class headers

The headers of a masked text can be found piece by piece: no header goes over a
brace or a semicolon, so the headers up to such a stop and those behind it make
up all headers. Behind a stop the search does not depend on what stands before
it.
-/

namespace RecordText.Source

open RecordText.Text

/-- A header whose text goes on with more characters. -/
def Header.extend (more : List Char) (header : Header) : Header :=
  { header with rest := header.rest ++ more }

/-- A header that stands further behind. -/
def Header.shift (bytes : Nat) (header : Header) : Header :=
  { header with keywordOffset := header.keywordOffset + bytes
                endOffset := header.endOffset + bytes }

/-- A matched header whose text goes on with more characters. -/
def HeaderMatch.extend (more : List Char) (found : HeaderMatch) : HeaderMatch :=
  { found with rest := found.rest ++ more }

@[simp] theorem HeaderMatch.extend_text (more : List Char) (found : HeaderMatch) :
    (found.extend more).text = found.text := rfl

@[simp] theorem HeaderMatch.extend_rest (more : List Char) (found : HeaderMatch) :
    (found.extend more).rest = found.rest ++ more := rfl

theorem headers_nil (before : List Char) (offset : Nat) : headers before offset [] = [] := by
  rw [headers]

/-- Where no header stands, the search goes on at the next character. -/
theorem headers_cons_of_none (before : List Char) (offset : Nat) (c : Char) (rest : List Char)
    (h : headerAt? before (c :: rest) = none) :
    headers before offset (c :: rest) = headers (c :: before) (offset + c.utf8Size) rest := by
  rw [headers]
  split
  · rfl
  · rename_i found hfound
    rw [h] at hfound
    cases hfound

/-- Where a header stands, the search goes on behind it. -/
theorem headers_of_some (before : List Char) (offset : Nat) (text : List Char)
    (found : HeaderMatch) (h : headerAt? before text = some found) :
    headers before offset text =
      (if declaresClass before then
        [{ name := found.name, keywordOffset := offset,
           endOffset := offset + byteLength found.text, rest := found.rest }]
      else []) ++
        headers (found.text.reverse ++ before) (offset + byteLength found.text) found.rest := by
  cases text with
  | nil =>
      have hlen := headerAt?_length_lt before [] found h
      simp at hlen
  | cons c rest =>
      rw [headers]
      split
      · rename_i hnone
        rw [h] at hnone
        cases hnone
      · rename_i found' hfound
        obtain rfl : found = found' := Option.some.inj (h.symm.trans hfound)
        dsimp only
        split <;> rfl

theorem headerAt?_append (before text : List Char) (found : HeaderMatch)
    (h : headerAt? before text = some found) : found.text ++ found.rest = text := by
  unfold headerAt? at h
  split at h
  · exact readHeader?_append text found h
  · cases h

theorem HeaderMatch.byteLength_text_pos (found : HeaderMatch) : 0 < byteLength found.text := by
  have hclass : byteLength classWord = 5 := by decide
  simp only [HeaderMatch.text, byteLength_append, hclass]
  omega

theorem headerAt?_wellFormed (before text : List Char) (found : HeaderMatch)
    (h : headerAt? before text = some found) : found.WellFormed := by
  unfold headerAt? at h
  split at h
  · exact ((readHeader?_eq_some_iff text found).1 h).2
  · cases h

/-- Whether a header is a match in a text that starts at a byte offset, with the offsets of the
place where the match stands. -/
def Header.FoundIn (offset : Nat) (text : List Char) (header : Header) : Prop :=
  ∃ (front : List Char) (found : HeaderMatch),
    text = front ++ (found.text ++ found.rest) ∧ found.WellFormed ∧
    header = { name := found.name, keywordOffset := offset + byteLength front,
               endOffset := offset + byteLength (front ++ found.text), rest := found.rest }

theorem Header.FoundIn.append {offset : Nat} {piece text : List Char} {header : Header}
    (h : header.FoundIn (offset + byteLength piece) text) :
    header.FoundIn offset (piece ++ text) := by
  obtain ⟨front, found, rfl, hform, rfl⟩ := h
  exact ⟨piece ++ front, found, by simp, hform, by simp [Nat.add_assoc]⟩

/-- Every header is a match in the text searched. -/
theorem foundIn_of_mem_headers (before : List Char) (offset : Nat) (text : List Char)
    (header : Header) (h : header ∈ headers before offset text) : header.FoundIn offset text := by
  fun_induction headers before offset text with
  | case1 => simp at h
  | case2 before offset c rest hnone ih =>
      have hrest : header.FoundIn (offset + byteLength [c]) rest := ih h
      exact hrest.append
  | case3 before offset c rest found hfound endOffset later hdeclares ih =>
      rw [← headerAt?_append before (c :: rest) found hfound]
      rcases List.mem_cons.1 h with rfl | hlater
      · exact ⟨[], found, rfl, headerAt?_wellFormed _ _ found hfound, rfl⟩
      · exact (ih hlater).append
  | case4 before offset c rest found hfound endOffset later hdeclares ih =>
      rw [← headerAt?_append before (c :: rest) found hfound]
      exact (ih h).append

/-- The text behind a header is the end of the text searched, and the header stands before it. -/
theorem exists_front_of_mem_headers (before : List Char) (offset : Nat) (text : List Char)
    (header : Header) (h : header ∈ headers before offset text) :
    ∃ front, text = front ++ header.rest ∧ header.endOffset = offset + byteLength front ∧
      header.keywordOffset < header.endOffset := by
  obtain ⟨front, found, rfl, -, rfl⟩ := foundIn_of_mem_headers before offset text header h
  refine ⟨front ++ found.text, by simp, rfl, ?_⟩
  have hpos := found.byteLength_text_pos
  simp only [byteLength_append]
  omega

/-- A sign that is not in the first part of a cut stands in the second part. -/
theorem append_eq_append_of_not_mem {front back a b : List Char} {c : Char}
    (h : a ++ b = front ++ c :: back) (hc : c ∉ a) :
    ∃ more, front = a ++ more ∧ b = more ++ c :: back := by
  rcases List.append_eq_append_iff.1 h with ⟨more, hfront, hb⟩ | ⟨more, ha, hrest⟩
  · exact ⟨more, hfront, hb⟩
  · cases more with
    | nil => exact ⟨[], by simpa using ha.symm, by simpa using hrest.symm⟩
    | cons d more =>
        obtain ⟨rfl, -⟩ := List.cons.inj hrest
        exact absurd (by rw [ha]; simp) hc

/-- A header in front of a stop is the same whatever follows the stop. -/
theorem readHeader?_append_stop (front back : List Char) (c : Char) (hc : isStop c = true) :
    readHeader? (front ++ c :: back) =
      (readHeader? (front ++ [c])).map (HeaderMatch.extend back) := by
  have hmem : ∀ found : HeaderMatch, found.WellFormed → c ∉ found.text := by
    intro found hfound hmem
    rw [not_isStop_of_mem_text found hfound c hmem] at hc
    cases hc
  have hend : Language.csharp.isNameRest c = false := not_isNameRest_of_isStop c hc
  cases hshort : readHeader? (front ++ [c]) with
  | some found =>
      obtain ⟨htext, hform⟩ := (readHeader?_eq_some_iff _ found).1 hshort
      obtain ⟨more, rfl, hrest⟩ := append_eq_append_of_not_mem htext.symm (hmem found hform)
      rw [Option.map_some, readHeader?_eq_some_iff]
      refine ⟨by simp [hrest], hform.gap_ne_nil, hform.gap_blank, hform.name_form, ?_⟩
      have hname := hform.name_end
      rw [HeaderMatch.extend_rest, hrest]
      rw [hrest] at hname
      cases more with
      | nil => simpa using hend
      | cons d more => simpa using hname
  | none =>
      rw [Option.map_none]
      by_contra hlong
      obtain ⟨found, hfound⟩ := Option.ne_none_iff_exists'.1 hlong
      obtain ⟨htext, hform⟩ := (readHeader?_eq_some_iff _ found).1 hfound
      obtain ⟨more, rfl, hrest⟩ := append_eq_append_of_not_mem htext.symm (hmem found hform)
      have hfound' : readHeader? (found.text ++ more ++ [c]) =
          some { found with rest := more ++ [c] } := by
        rw [readHeader?_eq_some_iff]
        refine ⟨by simp [HeaderMatch.text], hform.gap_ne_nil, hform.gap_blank, hform.name_form, ?_⟩
        have hname := hform.name_end
        rw [hrest] at hname
        cases more with
        | nil => simpa using hend
        | cons d more => simpa using hname
      rw [hfound'] at hshort
      cases hshort

theorem headerAt?_append_stop (before front back : List Char) (c : Char)
    (hc : isStop c = true) :
    headerAt? before (front ++ c :: back) =
      (headerAt? before (front ++ [c])).map (HeaderMatch.extend back) := by
  unfold headerAt?
  split
  · exact readHeader?_append_stop front back c hc
  · rfl

/-- A header starts with the first letter of the word `class`. -/
theorem readHeader?_eq_none_of_ne (c : Char) (rest : List Char) (hc : c ≠ 'c') :
    readHeader? (c :: rest) = none := by
  simp [readHeader?, classWord, behind?, hc.symm]

theorem headerAt?_eq_none_of_ne (before : List Char) (c : Char) (rest : List Char)
    (hc : c ≠ 'c') : headerAt? before (c :: rest) = none := by
  unfold headerAt?
  rw [readHeader?_eq_none_of_ne c rest hc]
  split <;> rfl

theorem ne_of_isStop (c : Char) (hc : isStop c = true) : c ≠ 'c' := by
  rintro rfl
  revert hc
  decide

/-- A header that is found in front of a stop leaves the stop behind it. -/
theorem headerAt?_rest_stop (before front : List Char) (c : Char) (hc : isStop c = true)
    (found : HeaderMatch) (h : headerAt? before (front ++ [c]) = some found) :
    ∃ more, front = found.text ++ more ∧ found.rest = more ++ [c] := by
  have happend := headerAt?_append before _ found h
  unfold headerAt? at h
  split at h
  · obtain ⟨-, hform⟩ := (readHeader?_eq_some_iff _ found).1 h
    apply append_eq_append_of_not_mem happend
    intro hmem
    rw [not_isStop_of_mem_text found hform c hmem] at hc
    cases hc
  · cases h

theorem HeaderMatch.text_length_pos (found : HeaderMatch) : 0 < found.text.length := by
  simp [HeaderMatch.text, classWord]

/-- A header in front of a stop leaves the stop behind it. -/
theorem exists_rest_of_mem_headers (before : List Char) (offset : Nat) (front : List Char)
    (c : Char) (hc : isStop c = true) (header : Header)
    (h : header ∈ headers before offset (front ++ [c])) : ∃ more, header.rest = more ++ [c] := by
  induction hlen : front.length using Nat.strong_induction_on generalizing before offset front with
  | _ n ih =>
      subst hlen
      cases hat : headerAt? before (front ++ [c]) with
      | none =>
          cases front with
          | nil =>
              rw [List.nil_append] at h hat
              rw [headers_cons_of_none _ _ _ _ hat, headers_nil] at h
              cases h
          | cons d front =>
              rw [List.cons_append] at h hat
              rw [headers_cons_of_none _ _ _ _ hat] at h
              exact ih front.length (by simp) _ _ front h rfl
      | some found =>
          obtain ⟨more, rfl, hrest⟩ := headerAt?_rest_stop before front c hc found hat
          have hlt : more.length < (found.text ++ more).length := by
            have := found.text_length_pos
            rw [List.length_append]
            omega
          rw [headers_of_some _ _ _ _ hat, List.mem_append, hrest] at h
          rcases h with hfirst | hlater
          · split at hfirst
            · obtain rfl := List.mem_singleton.1 hfirst
              exact ⟨more, rfl⟩
            · cases hfirst
          · exact ih more.length hlt _ _ more hlater rfl

/-- The headers up to a stop and the headers behind it make up all headers. -/
theorem headers_append_stop (before : List Char) (offset : Nat) (front back : List Char)
    (c : Char) (hc : isStop c = true) :
    headers before offset (front ++ c :: back) =
      (headers before offset (front ++ [c])).map (Header.extend back) ++
        headers ((front ++ [c]).reverse ++ before) (offset + byteLength (front ++ [c])) back := by
  induction hlen : front.length using Nat.strong_induction_on generalizing before offset front with
  | _ n ih =>
      subst hlen
      cases hat : headerAt? before (front ++ [c]) with
      | none =>
          have hat' : headerAt? before (front ++ c :: back) = none := by
            rw [headerAt?_append_stop before front back c hc, hat]
            rfl
          cases front with
          | nil =>
              rw [List.nil_append] at hat hat' ⊢
              rw [List.nil_append, headers_cons_of_none _ _ _ _ hat,
                headers_cons_of_none _ _ _ _ hat', headers_nil]
              simp [byteLength]
          | cons d front =>
              rw [List.cons_append] at hat hat' ⊢
              rw [List.cons_append, headers_cons_of_none _ _ _ _ hat,
                headers_cons_of_none _ _ _ _ hat', ih front.length (by simp) _ _ _ rfl]
              simp [byteLength, Nat.add_assoc]
      | some found =>
          have hat' : headerAt? before (front ++ c :: back) = some (found.extend back) := by
            rw [headerAt?_append_stop before front back c hc, hat]
            rfl
          obtain ⟨more, rfl, hrest⟩ := headerAt?_rest_stop before front c hc found hat
          have hlt : more.length < (found.text ++ more).length := by
            have := found.text_length_pos
            rw [List.length_append]
            omega
          rw [headers_of_some _ _ _ _ hat, headers_of_some _ _ _ _ hat', HeaderMatch.extend_text,
            HeaderMatch.extend_rest, hrest, List.append_assoc more, List.singleton_append,
            ih more.length hlt _ _ _ rfl, List.map_append]
          have hfirst : (if declaresClass before = true then
              [{ name := (found.extend back).name, keywordOffset := offset,
                 endOffset := offset + byteLength found.text,
                 rest := more ++ c :: back : Header }] else []) =
              (if declaresClass before = true then
                [{ name := found.name, keywordOffset := offset,
                   endOffset := offset + byteLength found.text,
                   rest := more ++ [c] : Header }] else []).map (Header.extend back) := by
            split <;> simp [Header.extend, HeaderMatch.extend]
          rw [hfirst]
          simp [Nat.add_assoc]

/-- Only the offsets of headers depend on where the search starts. -/
theorem headers_shift (before : List Char) (offset bytes : Nat) (text : List Char) :
    headers before (offset + bytes) text =
      (headers before offset text).map (Header.shift bytes) := by
  induction hlen : text.length using Nat.strong_induction_on generalizing before offset text with
  | _ n ih =>
      subst hlen
      cases text with
      | nil => simp [headers_nil]
      | cons c rest =>
          cases hat : headerAt? before (c :: rest) with
          | none =>
              rw [headers_cons_of_none _ _ _ _ hat, headers_cons_of_none _ _ _ _ hat,
                Nat.add_right_comm, ih rest.length (by simp) _ _ _ rfl]
          | some found =>
              have hlt := headerAt?_length_lt before (c :: rest) found hat
              rw [headers_of_some _ _ _ _ hat, headers_of_some _ _ _ _ hat,
                Nat.add_right_comm, ih _ hlt _ _ _ rfl, List.map_append]
              congr 1
              split <;> simp [Header.shift]

/-- Only two signs in front of a header matter: the one directly before it and the last one that is
no blank. -/
theorem declaresClass_eq (before : List Char) :
    declaresClass before = (before.head? != some '@' &&
      (before.dropWhile isPlainBlank).head? != some ':' &&
      (before.dropWhile isPlainBlank).head? != some ',') := by
  unfold declaresClass
  split
  · rfl
  · rename_i hat
    have hhead : (before.head? != some '@') = true := by
      cases before with
      | nil => rfl
      | cons c rest =>
          have hc : c ≠ '@' := fun hc => hat rest (by rw [hc])
          simpa using hc
    rw [hhead, Bool.true_and]
    split
    · rename_i hdrop
      rw [hdrop]
      rfl
    · rename_i hdrop
      rw [hdrop]
      rfl
    · rename_i hcolon hcomma
      cases hdrop : before.dropWhile isPlainBlank with
      | nil => rfl
      | cons c rest =>
          have hc : c ≠ ':' ∧ c ≠ ',' :=
            ⟨fun heq => hcolon rest (by rw [hdrop, heq]),
              fun heq => hcomma rest (by rw [hdrop, heq])⟩
          simp [hc]

section Stop

variable (near far : List Char) (c : Char) (hc : isStop c = true)

include hc

theorem startsOutsideWord_behind_stop :
    startsOutsideWord (near ++ c :: far) = startsOutsideWord near := by
  cases near with
  | nil =>
      have hword : isWordChar c = false := by
        simp only [isStop, Bool.or_eq_true, beq_iff_eq] at hc
        rcases hc with (rfl | rfl) | rfl <;> decide
      simp [startsOutsideWord, hword]
  | cons d near => rfl

/-- Nothing in front of a stop keeps a header behind it from declaring a class. -/
theorem declaresClass_behind_stop : declaresClass (near ++ c :: far) = declaresClass near := by
  have hsigns : isPlainBlank c = false ∧ c ≠ '@' ∧ c ≠ ':' ∧ c ≠ ',' := by
    simp only [isStop, Bool.or_eq_true, beq_iff_eq] at hc
    rcases hc with (rfl | rfl) | rfl <;> decide
  have hother : ∀ sign : Char, c ≠ sign →
      (some c != some sign) = ((none : Option Char) != some sign) := by
    intro sign hsign
    have hne : (some c != some sign) = true := by simpa using hsign
    exact hne
  have hhead : ((near ++ c :: far).head? != some '@') = (near.head? != some '@') := by
    cases near with
    | nil => exact hother '@' hsigns.2.1
    | cons d near => rfl
  have hdrop : ∀ sign : Char, c ≠ sign →
      (((near ++ c :: far).dropWhile isPlainBlank).head? != some sign) =
        ((near.dropWhile isPlainBlank).head? != some sign) := by
    intro sign hsign
    rw [List.dropWhile_append]
    cases hnear : near.dropWhile isPlainBlank with
    | nil =>
        rw [List.dropWhile_cons_of_neg (by simp [hsigns.1])]
        exact hother sign hsign
    | cons d rest => rfl
  rw [declaresClass_eq, declaresClass_eq, hhead, hdrop ':' hsigns.2.2.1, hdrop ',' hsigns.2.2.2]

/-- Behind a stop the headers do not depend on what stands before the stop. -/
theorem headers_behind_stop (offset : Nat) (text : List Char) :
    headers (near ++ c :: far) offset text = headers near offset text := by
  induction hlen : text.length using Nat.strong_induction_on generalizing near offset text with
  | _ n ih =>
      subst hlen
      have hat : headerAt? (near ++ c :: far) text = headerAt? near text := by
        unfold headerAt?
        rw [startsOutsideWord_behind_stop near far c hc]
      cases text with
      | nil => rw [headers_nil, headers_nil]
      | cons d rest =>
          cases hfound : headerAt? near (d :: rest) with
          | none =>
              rw [headers_cons_of_none _ _ _ _ hfound,
                headers_cons_of_none _ _ _ _ (hat.trans hfound)]
              exact ih rest.length (by simp) (d :: near) _ rest rfl
          | some found =>
              have hlt := headerAt?_length_lt _ (d :: rest) found hfound
              rw [headers_of_some _ _ _ _ hfound, headers_of_some _ _ _ _ (hat.trans hfound),
                declaresClass_behind_stop near far c hc, ← List.append_assoc, ih _ hlt _ _ _ rfl]

end Stop

/-- A piece of text in which no header starts is passed over. -/
theorem headers_skip (before : List Char) (offset : Nat) (piece rest : List Char)
    (h : ∀ front back, piece = front ++ back → back ≠ [] →
      headerAt? (front.reverse ++ before) (back ++ rest) = none) :
    headers before offset (piece ++ rest) =
      headers (piece.reverse ++ before) (offset + byteLength piece) rest := by
  induction piece generalizing before offset with
  | nil => rfl
  | cons c piece ih =>
      have hfirst : headerAt? before (c :: (piece ++ rest)) = none :=
        h [] (c :: piece) rfl (List.cons_ne_nil _ _)
      rw [List.cons_append, headers_cons_of_none _ _ _ _ hfirst, ih]
      · simp [byteLength, Nat.add_assoc]
      · rintro front back rfl hback
        have := h (c :: front) back rfl hback
        simpa using this

end RecordText.Source
