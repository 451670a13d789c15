import AtTemplate.Code.Group
import AtTemplate.Proofs.EndRuns
import AtTemplate.Proofs.Lexing

/-!
# AtTemplate.Proofs.QuotationEnds

Where a quotation of code ends.  A backslash takes the next character with it, so that the quotation
ends at the first quote behind an even number of backslashes.

* `closeQuotation_eq_some_iff` — the quotation is the part of the text that the pattern matches;
* `quotationBody_iff` — the pattern, by the backslashes in front of quotes and line breaks;
* `next_of_quotation` — **a quotation ends at the first quote that is not escaped**, if there is one
  and, but for back quotes, the line does not break before it.
-/

namespace AtTemplate.Code

variable {c : Cursor} {kind : Token} {quote x y : Char} {text body s rest : List Char}

/-! ## the pattern -/

/-- What stands between the quotes of a quotation: characters other than the quote, of the same line
unless the quote is a back quote, and backslashes that take the next character with them. -/
inductive QuotationBody (quote : Char) : List Char → Prop
  | nil : QuotationBody quote []
  | char {x : Char} {body : List Char} (hquote : x ≠ quote) (hescape : x ≠ '\\')
      (hline : x = '\n' → quote = '\x60') (h : QuotationBody quote body) :
      QuotationBody quote (x :: body)
  | escape {x : Char} {body : List Char} (h : QuotationBody quote body) :
      QuotationBody quote ('\\' :: x :: body)

/-- Bodies of quotations are joined to one. -/
theorem QuotationBody.append {front back : List Char} (hf : QuotationBody quote front)
    (hb : QuotationBody quote back) : QuotationBody quote (front ++ back) := by
  induction hf with
  | nil => exact hb
  | char hquote hescape hline _ ih => exact .char hquote hescape hline ih
  | escape _ ih => exact .escape ih

/-- The quote behind the body of a quotation closes it. -/
theorem closeQuotation_of_quotationBody (hq : quote ≠ '\\') (h : QuotationBody quote body)
    (rest : List Char) :
    closeQuotation quote (body ++ quote :: rest) = some (body ++ [quote], rest) := by
  induction h with
  | nil => simp [closeQuotation_cons]
  | char hquote hescape hline _ ih =>
    simp only [List.cons_append, closeQuotation_cons, if_neg hquote, if_neg hescape, ih]
    rw [if_neg fun h => h.2 (hline h.1)]
    rfl
  | escape _ ih => simp [closeQuotation_cons, hq.symm, ih]

/-- What is read as a quotation is a body with a quote behind it. -/
theorem exists_quotationBody (h : closeQuotation quote text = some (s, rest)) :
    ∃ body, QuotationBody quote body ∧ s = body ++ [quote] ∧ text = body ++ quote :: rest := by
  fun_induction closeQuotation quote text generalizing s with
  | case1 => cases h
  | case2 text =>
    cases h
    exact ⟨[], .nil, rfl, rfl⟩
  | case3 => cases h
  | case4 hquote x text ih =>
    obtain ⟨⟨t, r⟩, ht, hs⟩ := Option.map_eq_some_iff.1 h
    obtain ⟨rfl, rfl⟩ := Prod.mk.inj hs
    obtain ⟨body, hbody, rfl, rfl⟩ := ih ht
    exact ⟨_, .escape hbody, rfl, rfl⟩
  | case5 => cases h
  | case6 x text hquote hescape hline ih =>
    obtain ⟨⟨t, r⟩, ht, hs⟩ := Option.map_eq_some_iff.1 h
    obtain ⟨rfl, rfl⟩ := Prod.mk.inj hs
    obtain ⟨body, hbody, rfl, rfl⟩ := ih ht
    refine ⟨_, .char hquote hescape (fun hx => ?_) hbody, rfl, rfl⟩
    exact not_not.1 fun hback => hline ⟨hx, hback⟩

/-- **The pattern matches one part of the text.** -/
theorem closeQuotation_eq_some_iff (hq : quote ≠ '\\') :
    closeQuotation quote text = some (s, rest) ↔
      ∃ body, QuotationBody quote body ∧ s = body ++ [quote] ∧ text = body ++ quote :: rest := by
  constructor
  · exact exists_quotationBody
  · rintro ⟨body, hbody, rfl, rfl⟩
    exact closeQuotation_of_quotationBody hq hbody rest

/-! ## the backslashes in front of a character -/

/-- What follows the text is taken by a backslash: an odd number of them stands at its end. -/
def Escaping (text : List Char) : Prop :=
  ¬ Even (endRun '\\' text)

/-- Wherever the character stands in the text, a backslash takes it. -/
def AlwaysEscaped (x : Char) (text : List Char) : Prop :=
  ∀ front back, text = front ++ x :: back → Escaping front

/-- Nothing is escaped behind nothing. -/
theorem not_escaping_nil : ¬ Escaping [] := by
  simp [Escaping]

/-- Whether the end of a text is escaped does not depend on a character that is no backslash in
front of it. -/
theorem escaping_cons_iff (hy : y ≠ '\\') : Escaping (y :: text) ↔ Escaping text := by
  rw [Escaping, Escaping, endRun_cons_of_ne hy]

/-- Nor does it depend on a backslash and the character that it takes. -/
theorem escaping_pair_iff : Escaping ('\\' :: y :: text) ↔ Escaping text :=
  not_congr (even_endRun_pair '\\' y text)

/-- In nothing every quote is escaped. -/
theorem alwaysEscaped_nil (x : Char) : AlwaysEscaped x [] := by
  simp [AlwaysEscaped]

/-- Quotes that stand unescaped at the beginning of a text are not escaped in it. -/
theorem alwaysEscaped_cons_iff (hy : y ≠ '\\') :
    AlwaysEscaped x (y :: text) ↔ y ≠ x ∧ AlwaysEscaped x text := by
  constructor
  · intro h
    constructor
    · rintro rfl
      exact not_escaping_nil (h [] text rfl)
    · rintro front back rfl
      exact (escaping_cons_iff hy).1 (h (y :: front) back rfl)
  · rintro ⟨hx, h⟩ front back hfront
    cases front with
    | nil => exact absurd (List.cons.inj hfront).1 hx
    | cons z front =>
      obtain ⟨rfl, hrest⟩ := List.cons.inj hfront
      exact (escaping_cons_iff hy).2 (h front back hrest)

/-- A backslash escapes what follows it, quote or not. -/
theorem alwaysEscaped_pair_iff (hx : x ≠ '\\') :
    AlwaysEscaped x ('\\' :: y :: text) ↔ AlwaysEscaped x text := by
  constructor
  · rintro h front back rfl
    exact escaping_pair_iff.1 (h ('\\' :: y :: front) back rfl)
  · intro h front back hfront
    match front with
    | [] => exact absurd (List.cons.inj hfront).1.symm hx
    | [z] =>
      obtain rfl : '\\' = z := (List.cons.inj hfront).1
      simp [Escaping, endRun, List.rtakeWhile]
    | z :: w :: front =>
      obtain ⟨rfl, htail⟩ := List.cons.inj hfront
      obtain ⟨rfl, hrest⟩ := List.cons.inj htail
      exact escaping_pair_iff.2 (h front back hrest)

/-- **The bodies of the pattern**: a backslash takes each quote in them and, but for back quotes,
each line break, and none takes what follows them. -/
theorem quotationBody_iff (hq : quote ≠ '\\') :
    QuotationBody quote body ↔ ¬ Escaping body ∧ AlwaysEscaped quote body ∧
      (quote ≠ '\x60' → AlwaysEscaped '\n' body) := by
  constructor
  · intro h
    induction h with
    | nil => exact ⟨not_escaping_nil, alwaysEscaped_nil _, fun _ => alwaysEscaped_nil _⟩
    | char hquote hescape hline _ ih =>
      rw [escaping_cons_iff hescape, alwaysEscaped_cons_iff hescape, alwaysEscaped_cons_iff hescape]
      exact ⟨ih.1, ⟨hquote, ih.2.1⟩, fun hback => ⟨fun hx => hback (hline hx), ih.2.2 hback⟩⟩
    | escape _ ih =>
      rwa [escaping_pair_iff, alwaysEscaped_pair_iff hq, alwaysEscaped_pair_iff (by decide)]
  · rintro ⟨hend, hquotes, hlines⟩
    -- by the same two steps as the pattern: a backslash goes with the character behind it
    fun_induction closeQuotation quote body with
    | case1 => exact .nil
    | case2 text => exact absurd (hquotes [] text rfl) not_escaping_nil
    | case3 => exact absurd (by simp [Escaping, endRun, List.rtakeWhile]) hend
    | case4 hquote x text ih =>
      rw [escaping_pair_iff] at hend
      rw [alwaysEscaped_pair_iff hq] at hquotes
      rw [alwaysEscaped_pair_iff (by decide)] at hlines
      exact .escape (ih hend hquotes hlines)
    | case5 x text hquote hescape hline =>
      obtain ⟨rfl, hback⟩ := hline
      exact absurd (hlines hback [] text rfl) not_escaping_nil
    | case6 x text hquote hescape hline ih =>
      rw [escaping_cons_iff hescape] at hend
      rw [alwaysEscaped_cons_iff hescape] at hquotes
      rw [alwaysEscaped_cons_iff hescape] at hlines
      refine .char hquote hescape (fun hx => ?_) (ih hend hquotes.2 fun hback => (hlines hback).2)
      exact not_not.1 fun hback => hline ⟨hx, hback⟩

/-! ## the quote that closes -/

/-- A quote behind this part of the text is the first that no backslash takes, and the line does not
break before it unless the quote is a back quote. -/
structure ClosedByQuote (quote : Char) (text body : List Char) : Prop where
  stands : ∃ rest, text = body ++ quote :: rest
  free : ¬ Escaping body
  first : AlwaysEscaped quote body
  line : quote ≠ '\x60' → AlwaysEscaped '\n' body

/-- A text is closed by the first quote that is not escaped: what stands in front of it is the body
of a quotation. -/
theorem closedByQuote_iff (hq : quote ≠ '\\') : ClosedByQuote quote text body ↔
    QuotationBody quote body ∧ ∃ rest, text = body ++ quote :: rest := by
  rw [quotationBody_iff hq]
  constructor
  · rintro ⟨hstands, hfree, hfirst, hline⟩
    exact ⟨⟨hfree, hfirst, hline⟩, hstands⟩
  · rintro ⟨⟨hfree, hfirst, hline⟩, hstands⟩
    exact ⟨hstands, hfree, hfirst, hline⟩

/-! ## the token -/

/-- A backslash does not begin a quotation. -/
theorem ne_backslash_of_quoted? (h : quoted? x = some kind) : x ≠ '\\' := by
  rintro rfl
  cases h

/-- A quote is no token of its own. -/
theorem single?_of_quoted? (h : quoted? x = some kind) : single? x = none := by
  unfold quoted? at h
  split at h <;> first | rfl | cases h

/-- A quotation is read up to its closing quote. -/
theorem read_quoted (h : quoted? quote = some kind) (text : List Char) :
    read (quote :: text) = enclosed kind [quote] (closeQuotation quote text) := by
  simp only [read, single?_of_quoted? h, h]

/-- What a quotation is read as behind its quote, whatever follows. -/
theorem read_quotation (h : quoted? quote = some kind) (hbody : QuotationBody quote body)
    (rest : List Char) : read (quote :: (body ++ quote :: rest)) =
      .token kind (quote :: (body ++ [quote])) rest := by
  rw [read_quoted h, closeQuotation_of_quotationBody (ne_backslash_of_quoted? h) hbody]
  rfl

/-- **A quotation ends at the first quote that no backslash takes**, if there is one and, but for
back quotes, the line does not break before it.  Otherwise the quote that opens it is an error. -/
theorem next_of_quotation (h : quoted? quote = some kind) (hc : c.rest = quote :: text) :
    (∀ body, ClosedByQuote quote text body →
      next c = .ok (some (kind, c.advance (body.length + 2)))) ∧
    ((∀ body, ¬ ClosedByQuote quote text body) →
      next c = .error (.unclosed .quotation (c.span 1))) := by
  have hq := ne_backslash_of_quoted? h
  constructor
  · intro body hbody
    obtain ⟨hpattern, rest, rfl⟩ := (closedByQuote_iff hq).1 hbody
    simp [next, hc, read_quotation h hpattern]
  · intro hnone
    have hclose : closeQuotation quote text = none := by
      refine Option.eq_none_iff_forall_ne_some.2 fun ⟨s, rest⟩ hclose => ?_
      obtain ⟨body, hbody, -, htext⟩ := (closeQuotation_eq_some_iff hq).1 hclose
      exact hnone body ((closedByQuote_iff hq).2 ⟨hbody, rest, htext⟩)
    simp [next, hc, read_quoted h, hclose, enclosed]

end AtTemplate.Code
