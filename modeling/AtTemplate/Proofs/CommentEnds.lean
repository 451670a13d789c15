import AtTemplate.Code.Group
import AtTemplate.Proofs.EndRuns
import AtTemplate.Proofs.Lexing

/-!
# AtTemplate.Proofs.CommentEnds

Where a block comment of code ends.  The pattern of these comments takes the stars two by two, so
that the closing mark is not simply the first one: a star in front of it may have taken the star of
the mark with it.

* `closeComment_eq_some_iff` — the comment is the part of the text that the pattern matches;
* `commentBody_iff` — the pattern, by the number of stars in front of each mark;
* `next_of_comment` — **a comment ends at the first mark behind an even number of stars**;
* `next_of_even_comment` — a comment of two stars is an error, and one with a later mark runs on.
-/

namespace AtTemplate.Code

open Text

variable {c : Cursor} {text body s rest front back : List Char} {x : Char}

/-! ## the pattern -/

/-- What stands between the marks of a block comment: characters other than stars, and stars that
take the next character with them, which is no slash. -/
inductive CommentBody : List Char → Prop
  | nil : CommentBody []
  | char {x : Char} {body : List Char} (hx : x ≠ '*') (h : CommentBody body) :
      CommentBody (x :: body)
  | pair {x : Char} {body : List Char} (hx : x ≠ '/') (h : CommentBody body) :
      CommentBody ('*' :: x :: body)

/-- The mark behind the body of a comment closes it. -/
theorem closeComment_of_commentBody (h : CommentBody body) (rest : List Char) :
    closeComment (body ++ '*' :: '/' :: rest) = some (body ++ ['*', '/'], rest) := by
  induction h with
  | nil => rfl
  | char hx _ ih => simp [closeComment_cons, hx, ih]
  | pair hx _ ih => simp [closeComment_cons, hx, ih]

/-- What is read as a comment is a body with a mark behind it. -/
theorem exists_commentBody (h : closeComment text = some (s, rest)) :
    ∃ body, CommentBody body ∧ s = body ++ ['*', '/'] ∧ text = body ++ '*' :: '/' :: rest := by
  fun_induction closeComment text generalizing s with
  | case1 => cases h
  | case2 => cases h
  | case3 text =>
    cases h
    exact ⟨[], .nil, rfl, rfl⟩
  | case4 x text hx ih =>
    obtain ⟨⟨t, r⟩, ht, hs⟩ := Option.map_eq_some_iff.1 h
    obtain ⟨rfl, rfl⟩ := Prod.mk.inj hs
    obtain ⟨body, hbody, rfl, rfl⟩ := ih ht
    exact ⟨_, .pair hx hbody, rfl, rfl⟩
  | case5 x text hx ih =>
    obtain ⟨⟨t, r⟩, ht, hs⟩ := Option.map_eq_some_iff.1 h
    obtain ⟨rfl, rfl⟩ := Prod.mk.inj hs
    obtain ⟨body, hbody, rfl, rfl⟩ := ih ht
    exact ⟨_, .char hx hbody, rfl, rfl⟩

/-- **The pattern matches one part of the text.** -/
theorem closeComment_eq_some_iff : closeComment text = some (s, rest) ↔
    ∃ body, CommentBody body ∧ s = body ++ ['*', '/'] ∧ text = body ++ '*' :: '/' :: rest := by
  constructor
  · exact exists_commentBody
  · rintro ⟨body, hbody, rfl, rfl⟩
    exact closeComment_of_commentBody hbody rest

/-! ## the stars in front of a mark -/

/-- How many stars a text ends with. -/
def endStars (text : List Char) : Nat :=
  (text.rtakeWhile (· = '*')).length

@[simp] theorem endStars_nil : endStars [] = 0 := rfl

/-- A character that is no star leaves the run of stars at the end of a text as it is. -/
theorem endStars_cons_of_ne (hx : x ≠ '*') (text : List Char) :
    endStars (x :: text) = endStars text :=
  endRun_cons_of_ne hx text

/-- A star and the character that it takes leave it open whether the stars behind them are even in
number. -/
theorem even_endStars_pair (x : Char) (text : List Char) :
    Even (endStars ('*' :: x :: text)) ↔ Even (endStars text) :=
  even_endRun_pair '*' x text

/-- Every closing mark of the text stands behind an odd number of stars. -/
def MarksOdd (text : List Char) : Prop :=
  ∀ front back, text = front ++ '*' :: '/' :: back → ¬ Even (endStars front)

/-- No mark stands in a text that is shorter than one. -/
theorem marksOdd_of_length_lt (h : text.length < 2) : MarksOdd text := by
  rintro front back rfl
  simp only [List.length_append, List.length_cons] at h
  omega

/-- A character that is no star does not change what stands before the marks. -/
theorem marksOdd_cons_iff (hx : x ≠ '*') : MarksOdd (x :: text) ↔ MarksOdd text := by
  constructor
  · rintro h front back rfl
    rw [← endStars_cons_of_ne hx]
    exact h (x :: front) back rfl
  · intro h front back hfront
    cases front with
    | nil => exact absurd (List.cons.inj hfront).1 hx
    | cons y front =>
      obtain ⟨rfl, hrest⟩ := List.cons.inj hfront
      rw [endStars_cons_of_ne hx]
      exact h front back hrest

/-- A star takes the next character with it, which is no slash. -/
theorem marksOdd_pair_iff : MarksOdd ('*' :: x :: text) ↔ x ≠ '/' ∧ MarksOdd text := by
  constructor
  · intro h
    constructor
    · rintro rfl
      exact absurd (h [] text rfl) (by simp)
    · rintro front back rfl
      rw [← even_endStars_pair x]
      exact h ('*' :: x :: front) back rfl
  · rintro ⟨hx, h⟩ front back hfront
    match front with
    | [] => exact absurd (List.cons.inj (List.cons.inj hfront).2).1 hx
    | [y] =>
      obtain rfl : '*' = y := (List.cons.inj hfront).1
      decide
    | y :: z :: front =>
      obtain ⟨rfl, hrest⟩ := List.cons.inj hfront
      rw [even_endStars_pair]
      exact h front back (List.cons.inj hrest).2

/-- **The bodies of the pattern**: each mark in them stands behind an odd number of stars, and they
end with an even number. -/
theorem commentBody_iff : CommentBody body ↔ Even (endStars body) ∧ MarksOdd body := by
  constructor
  · intro h
    induction h with
    | nil => exact ⟨by simp, marksOdd_of_length_lt (by simp)⟩
    | char hx _ ih => rwa [endStars_cons_of_ne hx, marksOdd_cons_iff hx]
    | pair hx _ ih => exact ⟨(even_endStars_pair _ _).2 ih.1, marksOdd_pair_iff.2 ⟨hx, ih.2⟩⟩
  · rintro ⟨heven, hmarks⟩
    -- by the same two steps as the pattern: a star goes with the character behind it
    fun_induction closeComment body with
    | case1 => exact .nil
    | case2 => exact absurd heven (by decide)
    | case3 => exact absurd rfl (marksOdd_pair_iff.1 hmarks).1
    | case4 x body hx ih =>
      exact .pair hx (ih ((even_endStars_pair x body).1 heven) (marksOdd_pair_iff.1 hmarks).2)
    | case5 x body hx ih =>
      rw [endStars_cons_of_ne hx] at heven
      exact .char hx (ih heven ((marksOdd_cons_iff hx).1 hmarks))

/-! ## the first mark that closes -/

/-- A mark behind this part of the text is the first that closes a comment: it stands behind an even
number of stars, and every mark before it behind an odd number. -/
def ClosedBehind (text body : List Char) : Prop :=
  (∃ rest, text = body ++ '*' :: '/' :: rest) ∧ Even (endStars body) ∧
    ∀ front back, text = front ++ '*' :: '/' :: back → front.length < body.length →
      ¬ Even (endStars front)

/-- A mark that begins before another one stands in front of it as a whole. -/
theorem exists_of_mark_lt (h : body ++ '*' :: '/' :: rest = front ++ '*' :: '/' :: back)
    (hlt : front.length < body.length) : ∃ between, body = front ++ '*' :: '/' :: between := by
  obtain ⟨between, rfl, hbetween⟩ | ⟨between, rfl, hbetween⟩ := List.append_eq_append_iff.1 h
  · simp only [List.length_append] at hlt
    omega
  · match between with
    | [] => simp at hlt
    | [y] => simp at hbetween
    | y :: z :: between =>
      simp only [List.cons_append, List.cons.injEq] at hbetween
      obtain ⟨rfl, rfl, -⟩ := hbetween
      exact ⟨between, rfl⟩

/-- A comment is closed at the first mark behind a body of one. -/
theorem closedBehind_iff (h : text = body ++ '*' :: '/' :: rest) :
    ClosedBehind text body ↔ CommentBody body := by
  subst h
  rw [commentBody_iff]
  constructor
  · rintro ⟨-, heven, hmarks⟩
    refine ⟨heven, fun front back hfront => hmarks front (back ++ '*' :: '/' :: rest) ?_ ?_⟩
    all_goals
      rw [hfront]
      simp
  · rintro ⟨heven, hmarks⟩
    refine ⟨⟨rest, rfl⟩, heven, fun front back hfront hlt => ?_⟩
    obtain ⟨between, hbetween⟩ := exists_of_mark_lt hfront hlt
    exact hmarks front between hbetween

/-- A comment has no end when every mark stands behind an odd number of stars. -/
theorem closeComment_eq_none_iff : closeComment text = none ↔ MarksOdd text := by
  fun_induction closeComment text with
  | case1 => exact iff_of_true rfl (marksOdd_of_length_lt (by simp))
  | case2 => exact iff_of_true rfl (marksOdd_of_length_lt (by simp))
  | case3 => exact iff_of_false (by simp) fun h => absurd rfl (marksOdd_pair_iff.1 h).1
  | case4 x text hx ih => rw [Option.map_eq_none_iff, ih, marksOdd_pair_iff, and_iff_right hx]
  | case5 x text hx ih => rw [Option.map_eq_none_iff, ih, marksOdd_cons_iff hx]

/-- A comment that has an end ends at the first mark that closes. -/
theorem closedBehind_of_closeComment (h : closeComment text = some (s, rest)) :
    ∃ body, ClosedBehind text body ∧ s = body ++ ['*', '/'] ∧
      text = body ++ '*' :: '/' :: rest := by
  obtain ⟨body, hbody, hs, htext⟩ := closeComment_eq_some_iff.1 h
  exact ⟨body, (closedBehind_iff htext).2 hbody, hs, htext⟩

/-- Only one mark is the first that closes. -/
theorem ClosedBehind.unique (h : ClosedBehind text body) (h' : ClosedBehind text front) :
    body = front := by
  obtain ⟨⟨rest, htext⟩, -⟩ := id h
  obtain ⟨⟨rest', htext'⟩, -⟩ := id h'
  have hclose := closeComment_of_commentBody ((closedBehind_iff htext).1 h) rest
  have hclose' := closeComment_of_commentBody ((closedBehind_iff htext').1 h') rest'
  rw [← htext] at hclose
  rw [← htext', hclose] at hclose'
  exact List.append_cancel_right (Prod.mk.inj (Option.some.inj hclose')).1

/-! ## the token -/

theorem read_comment (text : List Char) :
    read ('/' :: '*' :: text) = enclosed .blockComment ['/', '*'] (closeComment text) := rfl

/-- What is read as a block comment is what the pattern matches. -/
theorem read_comment_eq_iff (hs : s ++ rest = '/' :: '*' :: text) :
    read ('/' :: '*' :: text) = .token .blockComment s rest ↔
      ∃ body, CommentBody body ∧ s = '/' :: '*' :: (body ++ ['*', '/']) := by
  rw [read_comment]
  constructor
  · intro h
    cases hclose : closeComment text with
    | none => simp [hclose, enclosed] at h
    | some found =>
      obtain ⟨t, r⟩ := found
      obtain ⟨body, hbody, rfl, -⟩ := closeComment_eq_some_iff.1 hclose
      simp only [hclose, enclosed, Reading.token.injEq] at h
      exact ⟨body, hbody, h.2.1.symm⟩
  · rintro ⟨body, hbody, rfl⟩
    obtain rfl : body ++ '*' :: '/' :: rest = text := by simpa using hs
    rw [closeComment_of_commentBody hbody]
    rfl

/-- Either no mark closes a comment, and then its beginning is an error, or the token ends behind
the first that does. -/
theorem next_of_comment_cases (hc : c.rest = '/' :: '*' :: text) :
    (MarksOdd text ∧ next c = .error (.unclosed .quotation (c.span 1))) ∨
      ∃ body, ClosedBehind text body ∧
        next c = .ok (some (.blockComment, c.advance (body.length + 4))) := by
  cases hclose : closeComment text with
  | none =>
    refine .inl ⟨closeComment_eq_none_iff.1 hclose, ?_⟩
    simp [next, hc, read_comment, hclose, enclosed]
  | some found =>
    obtain ⟨s, rest⟩ := found
    obtain ⟨body, hbody, rfl, -⟩ := closedBehind_of_closeComment hclose
    refine .inr ⟨body, hbody, ?_⟩
    simp [next, hc, read_comment, hclose, enclosed]

/-- No mark stands before the first. -/
theorem length_le_of_mark (h : before? ['*', '/'] text = some body)
    (hmark : text = front ++ '*' :: '/' :: back) : body.length ≤ front.length :=
  length_le_of_before? h (hmark.trans (List.append_assoc front ['*', '/'] back).symm)

/-- The first mark of all closes a comment if it stands behind an even number of stars. -/
theorem closedBehind_of_before? (h : before? ['*', '/'] text = some body)
    (heven : Even (endStars body)) : ClosedBehind text body := by
  obtain ⟨rest, htext⟩ := append_of_before? h
  refine ⟨⟨rest, by simp [htext]⟩, heven, fun front back hfront hlt => ?_⟩
  exact absurd hlt (Nat.not_lt_of_le (length_le_of_mark h hfront))

/-- The mark that closes a comment stands behind the first mark of all, unless it is that. -/
theorem length_lt_of_closedBehind (h : before? ['*', '/'] text = some body)
    (hodd : ¬ Even (endStars body)) (hclosed : ClosedBehind text front) :
    body.length < front.length := by
  obtain ⟨rest, htext⟩ := append_of_before? h
  obtain ⟨⟨back, hfront⟩, heven, -⟩ := hclosed
  refine Nat.lt_of_le_of_ne (length_le_of_mark h hfront) fun hlength => hodd ?_
  rw [htext, List.append_assoc] at hfront
  rwa [(List.append_inj hfront hlength).1]

/-- **A block comment ends at the first mark behind an even number of stars**, and the pattern
matches no other part of the text.  Where every mark stands behind an odd number its beginning is an
error.  So it ends at the first mark of all exactly when the stars in front of that are even in
number; otherwise it has no end, or takes in what stands behind the mark. -/
theorem next_of_comment (hc : c.rest = '/' :: '*' :: text) :
    (∀ s rest, s ++ rest = c.rest → (read c.rest = .token .blockComment s rest ↔
      ∃ body, CommentBody body ∧ s = '/' :: '*' :: (body ++ ['*', '/']))) ∧
    (∀ body, ClosedBehind text body →
      next c = .ok (some (.blockComment, c.advance (body.length + 4)))) ∧
    (MarksOdd text → next c = .error (.unclosed .quotation (c.span 1))) ∧
    ∀ body, before? ['*', '/'] text = some body →
      (Even (endStars body) →
        next c = .ok (some (.blockComment, c.advance (body.length + 4)))) ∧
      (¬ Even (endStars body) → next c = .error (.unclosed .quotation (c.span 1)) ∨
        ∃ n, body.length + 4 < n ∧ n ≤ c.rest.length ∧
          next c = .ok (some (.blockComment, c.advance n))) := by
  have hclosed : ∀ body, ClosedBehind text body →
      next c = .ok (some (.blockComment, c.advance (body.length + 4))) := by
    intro body hbody
    obtain ⟨hmarks, -⟩ | ⟨body', hbody', hnext⟩ := next_of_comment_cases hc
    · obtain ⟨⟨rest, htext⟩, heven, -⟩ := hbody
      exact absurd heven (hmarks body rest htext)
    · rwa [hbody.unique hbody']
  refine ⟨fun s rest hs => ?_, hclosed, fun hmarks => ?_, fun body hbody => ⟨fun heven => ?_,
    fun hodd => ?_⟩⟩
  · rw [hc] at hs ⊢
    exact read_comment_eq_iff hs
  · obtain ⟨-, hnext⟩ | ⟨body, ⟨⟨rest, htext⟩, heven, -⟩, -⟩ := next_of_comment_cases hc
    · exact hnext
    · exact absurd heven (hmarks body rest htext)
  · exact hclosed body (closedBehind_of_before? hbody heven)
  · obtain ⟨-, hnext⟩ | ⟨front, hfront, hnext⟩ := next_of_comment_cases hc
    · exact .inl hnext
    · have hlt := length_lt_of_closedBehind hbody hodd hfront
      obtain ⟨⟨back, htext⟩, -⟩ := hfront
      refine .inr ⟨front.length + 4, by omega, ?_, hnext⟩
      rw [hc, htext]
      simp

/-- Two stars in front of the star of the mark belong together, and the comment ends there. -/
theorem next_of_odd_comment :
    next (Cursor.start "/** a ***/ b */".toList) =
      .ok (some (.blockComment, (Cursor.start "/** a ***/ b */".toList).advance 10)) := by
  have hc : (Cursor.start "/** a ***/ b */".toList).rest =
      '/' :: '*' :: "* a ***/ b */".toList := by
    decide +kernel
  have hfirst : before? ['*', '/'] "* a ***/ b */".toList = some "* a **".toList := by
    decide +kernel
  exact ((next_of_comment hc).2.2.2 _ hfirst).1 (by decide +kernel)

/-- A mark behind one star closes no comment, since that star takes the star of the mark with it:
the comment is an error, or it goes on up to a later mark. -/
theorem next_of_even_comment :
    (before? ['*', '/'] "**/ x".toList = some ['*'] ∧
      next (Cursor.start "/***/ x".toList) = .error (.unclosed .quotation ⟨0, 1⟩)) ∧
    before? ['*', '/'] "**/ x */ y".toList = some ['*'] ∧
      next (Cursor.start "/***/ x */ y".toList) =
        .ok (some (.blockComment, (Cursor.start "/***/ x */ y".toList).advance 10)) := by
  decide +kernel

end AtTemplate.Code
