import AtTemplate.Proofs.Groups

/-!
# AtTemplate.Proofs.Headers

The header of a clause, from its keyword to the brace that opens its body.  The search for that
brace counts parentheses only.  A header without a body is not told from others by it: the search
runs over the brace that closes the block around the clause, and takes a later brace for the body.

* `depth?_eq_some_iff` — the counter of open groups, by the delimiters of each prefix;
* `body?_eq_some_iff` — the brace that the search finds, by the parentheses before it;
* `depth?_eq_none_iff_closes` — where a header runs over the end of what is open around it;
* `findBody_eq` — **which brace opens the body, and when the braces of the header are balanced;**
* `findBody_of_call` — a header that runs over the end of its block.
-/

namespace AtTemplate.Code

variable {kind : Delimiter} {c d e p q : Cursor} {token : Token} {tokens u v w : List Token}
  {depth m n : Nat} {open_ : Int} {keyword : Span}

/-! ## walks in two parts -/

/-- A walk over two stretches is one over each. -/
theorem walk_append_iff : Walk c (u ++ v) e ↔ ∃ d, Walk c u d ∧ Walk d v e := by
  constructor
  · intro h
    induction u generalizing c with
    | nil => exact ⟨c, .nil c, h⟩
    | cons token u ih =>
      cases h with
      | cons hn hw =>
        obtain ⟨d, hu, hv⟩ := ih hw
        exact ⟨d, .cons hn hu, hv⟩
  · rintro ⟨d, hu, hv⟩
    induction hu with
    | nil => exact hv
    | cons hn _ ih => exact .cons hn (ih hv)

/-! ## the counter by the delimiters of each prefix -/

theorem forall_prefix_cons_iff {P : List Token → Prop} :
    (∀ u, u <+: token :: w → P u) ↔ P [] ∧ ∀ u, u <+: w → P (token :: u) := by
  constructor
  · intro h
    exact ⟨h [] (List.nil_prefix), fun u hu => h _ (List.cons_prefix_cons.2 ⟨rfl, hu⟩)⟩
  · rintro ⟨hnil, hcons⟩ u hu
    obtain rfl | ⟨u', rfl, hu'⟩ := List.prefix_cons_iff.1 hu
    · exact hnil
    · exact hcons u' hu'

/-- The counter goes below zero at no delimiter exactly when no prefix closes more groups than it
finds open, and what it ends with are the groups that are not closed. -/
theorem depth?_eq_some_iff :
    depth? kind n w = some m ↔
      (∀ u, u <+: w → u.count kind.closing ≤ n + u.count kind.opening) ∧
        n + w.count kind.opening = m + w.count kind.closing := by
  induction w generalizing n with
  | nil => simp
  | cons token w ih =>
    rw [forall_prefix_cons_iff]
    by_cases ho : token = kind.opening
    · subst ho
      rw [depth?_opening, ih]
      simp only [List.count_cons_self, List.count_cons_of_ne kind.closing_ne_opening.symm,
        List.count_nil]
      simp [Nat.add_assoc, Nat.add_comm]
    · by_cases hc : token = kind.closing
      · subst hc
        simp only [List.count_cons_self, List.count_cons_of_ne kind.closing_ne_opening,
          List.count_nil]
        cases n with
        | zero =>
          rw [depth?_closing_zero]
          refine iff_of_false nofun fun h => ?_
          have := h.1.2 [] List.nil_prefix
          simp at this
        | succ n =>
          rw [depth?_closing_succ, ih]
          have hcount (u : List Token) : u.count kind.closing + 1 ≤ n + 1 + u.count kind.opening ↔
              u.count kind.closing ≤ n + u.count kind.opening := by omega
          simp only [hcount]
          grind
      · rw [depth?_of_not_counts ho hc, ih]
        simp [List.count_cons_of_ne ho, List.count_cons_of_ne hc]

/-- The levels of a stretch can be counted where no beginning of it closes more groups than are
open. -/
theorem depth?_ne_none_iff :
    depth? kind n w ≠ none ↔ ∀ u, u <+: w → u.count kind.closing ≤ n + u.count kind.opening := by
  constructor
  · intro h
    obtain ⟨m, hm⟩ := Option.ne_none_iff_exists'.1 h
    exact (depth?_eq_some_iff.1 hm).1
  · intro h
    have hle := h w List.prefix_rfl
    rw [Option.ne_none_iff_exists']
    exact ⟨n + w.count kind.opening - w.count kind.closing, depth?_eq_some_iff.2 ⟨h, by omega⟩⟩

/-- The braces of tokens are balanced: no prefix closes more than it opens, and what is opened is
closed. -/
def BracesBalanced (tokens : List Token) : Prop :=
  (∀ u, u <+: tokens → u.count .braceClose ≤ u.count .braceOpen) ∧
    tokens.count .braceOpen = tokens.count .braceClose

/-! ## the search for a body -/

/-- The parentheses that are opened, less those that are closed. -/
def parens (tokens : List Token) : Int :=
  tokens.count .parenOpen - tokens.count .parenClose

/-- Parentheses are counted token by token. -/
theorem parens_cons : parens (token :: tokens) = parens [token] + parens tokens := by
  simp only [parens, List.count_cons, List.count_nil]
  omega

/-- The tokens before the body of a clause, where `open_` parentheses are open before them: none is
open behind them, and every opening brace among them stands in parentheses. -/
def IsHeader (open_ : Int) (tokens : List Token) : Prop :=
  open_ + parens tokens ≤ 0 ∧ ∀ u v, tokens = u ++ .braceOpen :: v → 0 < open_ + parens u

theorem forall_eq_append_cons_iff {P : List Token → Prop} {x : Token} :
    (∀ u v, token :: tokens = u ++ x :: v → P u) ↔
      (token = x → P []) ∧ ∀ u v, tokens = u ++ x :: v → P (token :: u) := by
  constructor
  · intro h
    refine ⟨?_, fun u v huv => h (token :: u) v (by rw [huv, List.cons_append])⟩
    rintro rfl
    exact h [] tokens rfl
  · rintro ⟨hnil, hcons⟩ u v huv
    cases u with
    | nil => exact hnil (List.cons.inj huv).1
    | cons y u =>
      obtain ⟨rfl, hrest⟩ := List.cons.inj huv
      exact hcons u v hrest

/-- A stretch is a header where its first token is no brace, or stands within parentheses, and the
rest is one behind it. -/
theorem isHeader_cons_iff : IsHeader open_ (token :: tokens) ↔
    (token = .braceOpen → 0 < open_) ∧ IsHeader (open_ + parens [token]) tokens := by
  unfold IsHeader
  rw [forall_eq_append_cons_iff, parens_cons, and_left_comm]
  have hnil : parens [] = 0 := rfl
  have hcons (u : List Token) : 0 < open_ + parens (token :: u) ↔
      0 < open_ + parens [token] + parens u := by
    rw [parens_cons, Int.add_assoc]
  simp only [hnil, hcons, Int.add_zero, Int.add_assoc]

/-- A search goes on behind each token but an opening brace outside parentheses. -/
theorem body?_of_next (hn : next c = .ok (some (token, d))) :
    body? open_ c =
      if token = .braceOpen ∧ open_ ≤ 0 then .ok (some c)
      else body? (open_ + parens [token]) d := by
  rw [body?]
  split
  · next h => rw [hn] at h; cases h
  · next h => rw [hn] at h; cases h
  · next h =>
    obtain ⟨rfl, rfl⟩ : token = _ ∧ d = _ := by simpa using hn.symm.trans h
    cases token <;> simp [parens, Int.sub_eq_add_neg]

/-- What holds at a place if it holds behind the token there holds everywhere. -/
theorem next_induction {P : Cursor → Prop}
    (h : ∀ c, (∀ token d, next c = .ok (some (token, d)) → P d) → P c) (c : Cursor) : P c :=
  h c fun _ d _ => next_induction h d
termination_by c.rest.length
decreasing_by exact next_lt ‹_›

/-- Where the tokens end the body has not been found. -/
theorem body?_of_stop (hn : ∀ token d, next c ≠ .ok (some (token, d))) :
    body? open_ c = (next c).map (·.map Prod.snd) := by
  rw [body?]
  split
  · next h => rw [h]; rfl
  · next h => rw [h]; rfl
  · next h => exact absurd h (hn _ _)

/-- **The brace that the search finds is the first outside parentheses.** -/
theorem body?_eq_some_iff :
    body? open_ c = .ok (some p) ↔
      ∃ tokens, Walk c tokens p ∧ StandsAt .braceOpen p ∧ IsHeader open_ tokens := by
  induction c using next_induction generalizing open_ with
  | h c ih =>
    by_cases hn : ∃ token d, next c = .ok (some (token, d))
    · obtain ⟨token, d, hn⟩ := hn
      rw [body?_of_next hn]
      split
      · next hbrace =>
        obtain ⟨rfl, hopen⟩ := hbrace
        constructor
        · intro h
          obtain rfl := Option.some.inj (Except.ok.inj h)
          exact ⟨[], .nil c, standsAt_of_next hn, by simpa [parens] using hopen, by simp⟩
        · rintro ⟨tokens, hw, -, hheader⟩
          obtain ⟨-, rfl⟩ | ⟨rest, rfl, -⟩ := (walk_iff_of_next hn).1 hw
          · rfl
          · have := (isHeader_cons_iff.1 hheader).1 rfl
            omega
      · next hbrace =>
        refine (ih token d hn).trans ((exists_walk_iff hn ?_).trans ?_).symm
        · rintro ⟨rfl, hp, hheader⟩
          exact hbrace ⟨(standsAt_of_next hn).eq hp, by simpa [parens] using hheader.1⟩
        · have hparens : token = .braceOpen → 0 < open_ := fun ht => by
            simpa using fun hopen => hbrace ⟨ht, hopen⟩
          simp only [isHeader_cons_iff, iff_true_intro hparens, true_and]
    · refine iff_of_false ?_ fun ⟨tokens, hw, hp, _⟩ => hn (hw.exists_next hp)
      simp only [not_exists] at hn
      rw [body?_of_stop hn]
      obtain ⟨-, h⟩ | h := next_of_stop hn
      all_goals
        rw [h]
        nofun

/-- A search that finds nothing has come to the place at which no token is read. -/
theorem exists_stops_of_body? (h : ∀ p, body? open_ c ≠ .ok (some p)) :
    ∃ d, Stops c d ∧ body? open_ c = (next d).map (·.map Prod.snd) := by
  induction c using next_induction generalizing open_ with
  | h c ih =>
    by_cases hn : ∃ token d, next c = .ok (some (token, d))
    · obtain ⟨token, d, hn⟩ := hn
      rw [body?_of_next hn] at h ⊢
      split at h
      · exact absurd rfl (h c)
      · next hbrace =>
        rw [if_neg hbrace]
        obtain ⟨e, he, heq⟩ := ih token d hn h
        exact ⟨e, he.of_next hn, heq⟩
    · simp only [not_exists] at hn
      exact ⟨c, .self hn, body?_of_stop hn⟩

/-! ## the end of what is open around a header -/

/-- A walk that comes further than another one goes on behind it. -/
theorem Walk.exists_of_offset_lt (hu : Walk c u d) (hv : Walk c v e) (h : d.offset < e.offset) :
    ∃ token w d', v = u ++ token :: w ∧ next d = .ok (some (token, d')) ∧ Walk d' w e := by
  obtain ⟨w, rfl, hw⟩ | ⟨w, rfl, hw⟩ := hu.total hv
  · cases hw with
    | nil => exact absurd h (Nat.lt_irrefl _)
    | cons hn hw => exact ⟨_, _, _, rfl, hn, hw⟩
  · exact absurd hw.reaches.offset_le (Nat.not_le_of_lt h)

/-- The counter goes below zero at the delimiter before which it is at zero. -/
theorem depth?_eq_none_iff :
    depth? kind n w = none ↔ ∃ u v, w = u ++ kind.closing :: v ∧ depth? kind n u = some 0 := by
  constructor
  · intro h
    induction w generalizing n with
    | nil => cases h
    | cons token w ih =>
      by_cases ho : token = kind.opening
      · subst ho
        obtain ⟨u, v, rfl, hu⟩ := ih (depth?_opening.symm.trans h)
        exact ⟨kind.opening :: u, v, rfl, depth?_opening.trans hu⟩
      · by_cases hc : token = kind.closing
        · subst hc
          cases n with
          | zero => exact ⟨[], w, rfl, rfl⟩
          | succ n =>
            obtain ⟨u, v, rfl, hu⟩ := ih (depth?_closing_succ.symm.trans h)
            exact ⟨kind.closing :: u, v, rfl, depth?_closing_succ.trans hu⟩
        · obtain ⟨u, v, rfl, hu⟩ := ih ((depth?_of_not_counts ho hc).symm.trans h)
          exact ⟨token :: u, v, rfl, (depth?_of_not_counts ho hc).trans hu⟩
  · rintro ⟨u, v, rfl, hu⟩
    by_contra hne
    obtain ⟨m, hm⟩ := Option.ne_none_iff_exists'.1 hne
    obtain ⟨between, hbetween, hlast⟩ := depth?_append_iff.1 hm
    rw [hu] at hbetween
    cases hbetween
    simp at hlast

/-- **The counter goes below zero on the way exactly when a group that was open before ends
there.** -/
theorem depth?_eq_none_iff_closes (hw : Walk c tokens p) :
    depth? kind 0 tokens = none ↔ ∃ q, kind.Closes c q ∧ q.offset < p.offset := by
  rw [depth?_eq_none_iff]
  constructor
  · rintro ⟨u, v, rfl, hu⟩
    obtain ⟨q, hq, hrest⟩ := walk_append_iff.1 hw
    refine ⟨q, ⟨u, hq, ?_, balanced_filter_iff.2 hu⟩, ?_⟩
    · cases hrest with
      | cons hn _ => exact standsAt_of_next hn
    · exact hrest.reaches.offset_lt_iff.2 (hrest.lt_of_ne_nil (List.cons_ne_nil _ _))
  · rintro ⟨q, ⟨u, hu, hq, hbalanced⟩, hlt⟩
    obtain ⟨token, v, d, rfl, hn, -⟩ := hu.exists_of_offset_lt hw hlt
    obtain rfl := (standsAt_of_next hn).eq hq
    exact ⟨u, v, rfl, balanced_filter_iff.1 hbalanced⟩

/-! ## the header of a clause -/

/-- The brace that opens the body of a clause stands at the second place, where its header begins
at the first. -/
def BodyAt (c p : Cursor) : Prop :=
  ∃ tokens, Walk c tokens p ∧ StandsAt .braceOpen p ∧ IsHeader 0 tokens

/-- The body of a clause is found where it stands behind a header. -/
theorem findBody_eq_ok_iff : findBody keyword c = .ok p ↔ BodyAt c p := by
  have hsearch : findBody keyword c = .ok p ↔ body? 0 c = .ok (some p) := by
    unfold findBody
    split <;> simp [*]
  rw [hsearch, body?_eq_some_iff, BodyAt]

/-- What is reported of a header without a body: the first token without an end, or else the
keyword. -/
theorem findBody_eq_error (keyword : Span) (h : ∀ p, ¬ BodyAt c p) :
    (∃ d, Fault c d ∧ findBody keyword c = .error (.unclosed .quotation (d.span 1))) ∨
      ((∀ d, ¬ Fault c d) ∧ findBody keyword c = .error (.unclosed .block keyword)) := by
  have hsearch : ∀ p, body? 0 c ≠ .ok (some p) := fun p hp => h p (body?_eq_some_iff.1 hp)
  obtain ⟨d, hd, heq⟩ := exists_stops_of_body? hsearch
  obtain ⟨hfault, hn⟩ | ⟨hnone, hn⟩ := hd.fault_or
  · exact .inl ⟨d, hfault, by rw [findBody, heq, hn]; rfl⟩
  · exact .inr ⟨hnone, by rw [findBody, heq, hn]; rfl⟩

/-- The braces of a header are balanced unless the block around the clause ends in it or a brace
is left open in it. -/
theorem bracesBalanced_iff_of_walk (hw : Walk c tokens p) :
    BracesBalanced tokens ↔ tokens.count .braceOpen = tokens.count .braceClose ∧
      ∀ q, findClosing .brace c = .ok q → p.offset ≤ q.offset := by
  have hprefix : (∀ u, u <+: tokens → u.count .braceClose ≤ u.count .braceOpen) ↔
      depth? .brace 0 tokens ≠ none := by
    rw [depth?_ne_none_iff]
    simp [Delimiter.opening, Delimiter.closing]
  rw [BracesBalanced, hprefix, ne_eq, depth?_eq_none_iff_closes hw, and_comm]
  simp only [findClosing_eq_ok_iff, not_exists, not_and, Nat.not_lt]

/-- **The body of a clause opens at the first brace outside parentheses, whatever is closed before
it.**  If there is none, the error points at the first token without an end, and else at the
keyword.  The braces of the header that ends at the body are balanced exactly if as many are opened
as are closed and no brace that was opened before the header is closed in it. -/
theorem findBody_eq (keyword : Span) (c : Cursor) :
    (∀ p, findBody keyword c = .ok p ↔ BodyAt c p) ∧
    ((∀ p, ¬ BodyAt c p) →
      (∀ d, Fault c d → findBody keyword c = .error (.unclosed .quotation (d.span 1))) ∧
      ((∀ d, ¬ Fault c d) → findBody keyword c = .error (.unclosed .block keyword))) ∧
    ∀ p tokens, findBody keyword c = .ok p → Walk c tokens p →
      (BracesBalanced tokens ↔ tokens.count .braceOpen = tokens.count .braceClose ∧
        ∀ q, findClosing .brace c = .ok q → p.offset ≤ q.offset) := by
  refine ⟨fun p => findBody_eq_ok_iff, fun h => ?_, fun p tokens _ hw =>
    bracesBalanced_iff_of_walk hw⟩
  obtain ⟨d, hd, herror⟩ | ⟨hnone, herror⟩ := findBody_eq_error keyword h
  · refine ⟨fun d' hfault => ?_, fun hnone => absurd hd (hnone d)⟩
    rw [hfault.unique hd, herror]
  · exact ⟨fun d hfault => absurd hfault (hnone d), fun _ => herror⟩

/-- A clause without a body in a block: the brace that ends the block is taken into the header, and
a brace in the text behind it for the body. -/
theorem findBody_of_call :
    ∃ c p tokens, c = (Cursor.start r"@{ @if (x) f(); } {".toList).advance 6 ∧
      findBody ⟨4, 6⟩ c = .ok p ∧ p.offset = 18 ∧ Walk c tokens p ∧ ¬ BracesBalanced tokens := by
  let c := (Cursor.start r"@{ @if (x) f(); } {".toList).advance 6
  have hfound : findBody ⟨4, 6⟩ c = .ok (c.advance 12) := by decide +kernel
  have hend : findClosing .brace c = .ok (c.advance 10) := by decide +kernel
  obtain ⟨tokens, hw, -⟩ := findBody_eq_ok_iff.1 hfound
  refine ⟨c, _, tokens, rfl, hfound, by decide +kernel, hw, fun h => ?_⟩
  have hle := ((bracesBalanced_iff_of_walk hw).1 h).2 _ hend
  exact absurd hle (by decide +kernel)

end AtTemplate.Code
