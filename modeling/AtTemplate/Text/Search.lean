/-!
# AtTemplate.Text.Search

Looking for the first occurrence of a mark in a text.
-/

namespace AtTemplate.Text

/-- The text before the first occurrence of `mark`, when there is one. -/
def before? (mark : List Char) : List Char → Option (List Char)
  | [] => if mark.isEmpty then some [] else none
  | c :: text =>
    if mark.isPrefixOf (c :: text) then some [] else (before? mark text).map (c :: ·)

/-- What stands before the first occurrence is followed by the mark. -/
theorem append_of_before? {mark text found : List Char} (h : before? mark text = some found) :
    ∃ rest, text = found ++ mark ++ rest := by
  induction text generalizing found with
  | nil =>
    simp only [before?, List.isEmpty_iff] at h
    split at h
    · next hm => obtain rfl := Option.some.inj h; exact ⟨[], by simp [hm]⟩
    · simp at h
  | cons c text ih =>
    simp only [before?] at h
    split at h
    · next hm =>
      obtain rfl := Option.some.inj h
      obtain ⟨rest, hr⟩ := List.isPrefixOf_iff_prefix.1 hm
      exact ⟨rest, by simp [hr]⟩
    · obtain ⟨tail, ht, rfl⟩ := Option.map_eq_some_iff.1 h
      obtain ⟨rest, hr⟩ := ih ht
      exact ⟨rest, by simp [hr]⟩

/-- No occurrence stands before the first. -/
theorem length_le_of_before? {mark text found s rest : List Char}
    (h : before? mark text = some found) (ht : text = s ++ mark ++ rest) :
    found.length ≤ s.length := by
  induction text generalizing found s with
  | nil =>
    simp only [before?] at h
    split at h
    · obtain rfl := Option.some.inj h; exact Nat.zero_le _
    · cases h
  | cons c text ih =>
    simp only [before?] at h
    split at h
    · obtain rfl := Option.some.inj h; exact Nat.zero_le _
    · next hm =>
      obtain ⟨tail, htail, rfl⟩ := Option.map_eq_some_iff.1 h
      cases s with
      | nil => exact absurd (List.isPrefixOf_iff_prefix.2 ⟨rest, ht.symm⟩) hm
      | cons d s =>
        obtain ⟨-, ht⟩ := List.cons.inj ht
        exact Nat.succ_le_succ (ih htail ht)

/-- A mark that is found within a text is found there whatever follows. -/
theorem before?_append_of_le {mark text after found : List Char}
    (h : before? mark (text ++ after) = some found)
    (hle : found.length + mark.length ≤ text.length) (after' : List Char) :
    before? mark (text ++ after') = some found := by
  have hmark (text : List Char) {after after' : List Char} (hl : mark.length ≤ text.length)
      (hp : mark.isPrefixOf (text ++ after) = true) : mark.isPrefixOf (text ++ after') = true := by
    rw [List.isPrefixOf_iff_prefix] at hp ⊢
    exact (List.prefix_of_prefix_length_le hp (List.prefix_append _ _) hl).trans
      (List.prefix_append _ _)
  induction text generalizing found with
  | nil =>
    rw [List.length_nil] at hle
    obtain rfl : found = [] := List.eq_nil_of_length_eq_zero (by omega)
    obtain rfl : mark = [] := List.eq_nil_of_length_eq_zero (by omega)
    cases after' <;> simp [before?]
  | cons c text ih =>
    simp only [List.cons_append, before?] at h ⊢
    split at h
    · next hp =>
      cases h
      have hl : mark.length ≤ (c :: text).length := by simpa using hle
      exact if_pos (hmark (c :: text) hl hp)
    · next hp =>
      obtain ⟨tail, ht, rfl⟩ := Option.map_eq_some_iff.1 h
      have hl : tail.length + mark.length ≤ text.length := by
        simp only [List.length_cons] at hle
        omega
      have hp' : ¬ mark.isPrefixOf (c :: (text ++ after')) = true := fun hp' =>
        hp (hmark (c :: text) (by simp only [List.length_cons]; omega) hp')
      rw [if_neg hp', ih ht hl]
      rfl

theorem before?_append {mark text found : List Char} (h : before? mark text = some found)
    (after : List Char) : before? mark (text ++ after) = some found := by
  obtain ⟨rest, hr⟩ := append_of_before? h
  have h' : before? mark (text ++ []) = some found := by rw [List.append_nil, h]
  refine before?_append_of_le h' ?_ after
  simp only [hr, List.length_append]
  omega

/-- The first line of a text, with the line break that ends it. -/
def firstLine : List Char → List Char
  | [] => []
  | c :: text => if c = '\n' then [c] else c :: firstLine text

theorem firstLine_newline (text : List Char) : firstLine ('\n' :: text) = ['\n'] := rfl

theorem firstLine_ne_nil {text : List Char} (h : text ≠ []) : firstLine text ≠ [] := by
  obtain ⟨c, text, rfl⟩ := List.exists_cons_of_ne_nil h
  unfold firstLine
  split <;> exact List.cons_ne_nil _ _

/-- The first line begins the text. -/
theorem firstLine_append_drop (text : List Char) :
    firstLine text ++ text.drop (firstLine text).length = text := by
  induction text with
  | nil => rfl
  | cons c text ih =>
    simp only [firstLine]
    split
    · simp
    · simp [ih]

/-- The first line ends with a line break, or it is the whole text; there is no line break within
it. -/
theorem firstLine_cases (text : List Char) :
    (∃ line, '\n' ∉ line ∧ firstLine text = line ++ ['\n']) ∨
      '\n' ∉ text ∧ firstLine text = text := by
  induction text with
  | nil => exact .inr ⟨List.not_mem_nil, rfl⟩
  | cons c text ih =>
    by_cases hc : c = '\n'
    · exact .inl ⟨[], List.not_mem_nil, by simp [firstLine, hc]⟩
    · have hne : '\n' ≠ c := fun h => hc h.symm
      obtain ⟨line, hl, he⟩ | ⟨hl, he⟩ := ih
      · exact .inl ⟨c :: line, by simp [hne, hl], by simp [firstLine, hc, he]⟩
      · exact .inr ⟨by simp [hne, hl], by simp [firstLine, hc, he]⟩

theorem length_firstLine_le (text : List Char) : (firstLine text).length ≤ text.length := by
  have := congrArg List.length (firstLine_append_drop text)
  simp at this; omega

/-- A text without line breaks lies in the first line. -/
theorem firstLine_append_of_not_mem {line : List Char} (h : '\n' ∉ line) (after : List Char) :
    firstLine (line ++ after) = line ++ firstLine after := by
  induction line with
  | nil => rfl
  | cons c line ih =>
    rw [List.mem_cons, not_or] at h
    rw [List.cons_append, firstLine, if_neg (Ne.symm h.1), ih h.2, List.cons_append]

/-- A first line that ends within a text ends there whatever follows. -/
theorem firstLine_append {text : List Char} (h : text.drop (firstLine text).length ≠ [])
    (after : List Char) : firstLine (text ++ after) = firstLine text := by
  induction text with
  | nil => exact absurd rfl h
  | cons c text ih =>
    simp only [List.cons_append, firstLine] at h ⊢
    split
    · rfl
    · next hc =>
      rw [if_neg hc] at h
      rw [ih (by simpa using h)]

end AtTemplate.Text
