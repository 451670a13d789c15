import AtTemplate.Proofs.Headers

/-!
# AtTemplate.Proofs.HeaderGroups

The header of a clause as it is mostly written: tokens and groups in parentheses, up to the brace of
the body.  The search for that brace counts parentheses by itself.  It sees the groups that the
search for a closing parenthesis finds, and nothing that stands in them ends it.

* `body?_of_closing?` — the two searches side by side, from within a group;
* `HeaderItems.body?_eq` — the search comes to the end of the items with no parenthesis open;
* `findBody_of_items` — **the brace behind the items is the body, and a group without an end is
  reported as its own search reports it.**
-/

namespace AtTemplate.Code

variable {c d : Cursor} {token : Token} {depth : Nat} {open_ : Int}

/-! ## from within a group -/

@[simp] theorem parens_parenOpen : parens [.parenOpen] = 1 := rfl

@[simp] theorem parens_parenClose : parens [.parenClose] = -1 := rfl

/-- Only parentheses count as such. -/
theorem parens_of_ne (ho : token ≠ .parenOpen) (hc : token ≠ .parenClose) : parens [token] = 0 := by
  simp [parens, ho, hc]

/-- A token that always stands alone is passed by one character. -/
theorem eq_advance_one {x : Char} (hx : single? x = some token)
    (hn : next c = .ok (some (token, d))) : d = c.advance 1 := by
  obtain ⟨text, rest, hr, rfl, -⟩ := next_eq_some hn
  rw [(Reading.eq_of_read_single hx hr).1]
  rfl

/-- From within `depth + 1` groups the search for a body goes on behind the parenthesis that closes
them, with as many parentheses open as before them.  It ends as the search for that parenthesis does
when there is none. -/
theorem body?_of_closing? (hopen : 0 ≤ open_) :
    body? (open_ + (depth + 1)) c = (closing? .paren depth c).bind fun found =>
      match found with
      | none => .ok none
      | some q => body? open_ (q.advance 1) := by
  fun_induction closing? .paren depth c with
  | case1 depth c e hn | case2 depth c hn =>
    rw [body?_of_stop (by simp [hn]), hn]
    rfl
  | case3 depth c d hn ih =>
    have hn : next c = .ok (some (.parenOpen, d)) := hn
    rw [body?_of_next hn, if_neg (by simp), ← ih, parens_parenOpen]
    congr 1
    push_cast
    omega
  | case4 c d hn =>
    have hn : next c = .ok (some (.parenClose, d)) := hn
    rw [body?_of_next hn, if_neg (by simp), parens_parenClose,
      eq_advance_one (x := ')') rfl hn]
    show body? (open_ + (0 + 1) + -1) _ = body? open_ _
    rw [Int.zero_add, Int.add_neg_cancel_right]
  | case5 c d depth hn _ ih =>
    have hn : next c = .ok (some (.parenClose, d)) := hn
    rw [body?_of_next hn, if_neg (by simp), ← ih, parens_parenClose]
    congr 1
    push_cast
    omega
  | case6 depth c token d hn ho hc ih =>
    -- a brace among them stands in parentheses
    rw [body?_of_next hn, if_neg (by omega), ← ih, parens_of_ne ho hc, Int.add_zero]

/-- A search for a body that enters a group goes on from within it. -/
theorem body?_of_parenOpen (hopen : 0 ≤ open_) (hn : next c = .ok (some (.parenOpen, d))) :
    body? open_ c = (closing? .paren 0 d).bind fun found =>
      match found with
      | none => .ok none
      | some q => body? open_ (q.advance 1) := by
  rw [body?_of_next hn, if_neg (by simp), parens_parenOpen, ← body?_of_closing? hopen]
  rfl

/-! ## the items of a header -/

/-- Items of a header stand between the two places: tokens other than parentheses and braces, and
groups in parentheses. -/
inductive HeaderItems : Cursor → Cursor → Prop
  | nil (c : Cursor) : HeaderItems c c
  | token {c d e : Cursor} {t : Token} (hn : next c = .ok (some (t, d)))
      (ht : t ∉ [.parenOpen, .parenClose, .braceOpen, .braceClose])
      (h : HeaderItems d e) : HeaderItems c e
  | group {c d q e : Cursor} (hn : next c = .ok (some (.parenOpen, d)))
      (hq : findClosing .paren d = .ok q) (h : HeaderItems (q.advance 1) e) : HeaderItems c e

/-- **The search for a body passes the items of a header.** -/
theorem HeaderItems.body?_eq (h : HeaderItems c d) : body? 0 c = body? 0 d := by
  induction h with
  | nil => rfl
  | token hn ht _ ih =>
    simp only [List.mem_cons, List.not_mem_nil, or_false, not_or] at ht
    obtain ⟨ho, hc, hbrace, -⟩ := ht
    rw [body?_of_next hn, if_neg fun h => hbrace h.1, parens_of_ne ho hc, ← ih]
    rfl
  | group hn hq _ ih =>
    rw [body?_of_parenOpen (Int.le_refl 0) hn, findClosing_eq_ok_iff_closing?.1 hq]
    exact ih

/-! ## the body behind the items -/

/-- **The body of a clause opens at the brace behind the items of its header**, whatever stands in
their groups.  When a group behind the items has no end, the error is that of the search for its
end where a token is to blame, and else points at the keyword, whatever braces follow. -/
theorem findBody_of_items (keyword : Span) (h : HeaderItems c d) :
    (StandsAt .braceOpen d → findBody keyword c = .ok d) ∧
    ∀ p error, next d = .ok (some (.parenOpen, p)) → findClosing .paren p = .error error →
      (∀ f, Fault p f → error = .unclosed .quotation (f.span 1) ∧
        findBody keyword c = .error error) ∧
      ((∀ f, ¬ Fault p f) → findBody keyword c = .error (.unclosed .block keyword)) := by
  constructor
  · intro hd
    obtain ⟨e, hn⟩ := next_of_standsAt hd
    have hbody : body? 0 c = .ok (some d) := by
      rw [h.body?_eq, body?_of_next hn, if_pos ⟨rfl, Int.le_refl 0⟩]
    rw [findBody, hbody]
  · intro p error hn herror
    have hbody := h.body?_eq.trans (body?_of_parenOpen (Int.le_refl 0) hn)
    obtain ⟨f, hfault, hsearch⟩ | ⟨hnone, hsearch⟩ :=
      closing?_of_not_closes (not_closes_of_error herror)
    · rw [hsearch] at hbody
      rw [findClosing, hsearch] at herror
      cases herror
      refine ⟨fun f' hf' => ?_, fun hnone => absurd hfault (hnone f)⟩
      rw [hf'.unique hfault, findBody, hbody]
      exact ⟨rfl, rfl⟩
    · rw [hsearch] at hbody
      refine ⟨fun f hf => absurd hf (hnone f), fun _ => ?_⟩
      rw [findBody, hbody]
      rfl

/-- The braces of an object within the parentheses are passed; a quotation that is left open there
is reported, whatever brace follows. -/
theorem findBody_of_object :
    findBody ⟨0, 2⟩ ((Cursor.start r"if (f({k: '}'})) y {".toList).advance 2) =
      .ok ((Cursor.start r"if (f({k: '}'})) y {".toList).advance 19) ∧
    findBody ⟨0, 2⟩ ((Cursor.start r"if (' {".toList).advance 2) =
      .error (.unclosed .quotation ⟨4, 5⟩) := by
  let c := (Cursor.start r"if (f({k: '}'})) y {".toList).advance 2
  have hitems : HeaderItems c (c.advance 17) :=
    .token (t := .space) (d := c.advance 1) (by decide +kernel) (by decide) <|
    .group (d := c.advance 2) (q := c.advance 13) (by decide +kernel) (by decide +kernel) <|
    .token (t := .space) (d := c.advance 15) (by decide +kernel) (by decide) <|
    .token (t := .word) (d := c.advance 16) (by decide +kernel) (by decide) <|
    .token (t := .space) (d := c.advance 17) (by decide +kernel) (by decide) <| .nil _
  have hbrace : StandsAt .braceOpen (c.advance 17) := ⟨['{'], [], by decide +kernel⟩
  let b := (Cursor.start r"if (' {".toList).advance 2
  have hblank : HeaderItems b (b.advance 1) :=
    .token (t := .space) (by decide +kernel) (by decide) (.nil _)
  have hopen : next (b.advance 1) = .ok (some (.parenOpen, b.advance 2)) := by decide +kernel
  have herror : findClosing .paren (b.advance 2) = .error (.unclosed .quotation ⟨4, 5⟩) := by
    decide +kernel
  have hfault : Fault (b.advance 2) (b.advance 2) := ⟨⟨[], .nil _⟩, by decide +kernel⟩
  exact ⟨(findBody_of_items ⟨0, 2⟩ hitems).1 hbrace,
    (((findBody_of_items ⟨0, 2⟩ hblank).2 _ _ hopen herror).1 _ hfault).2⟩

end AtTemplate.Code
