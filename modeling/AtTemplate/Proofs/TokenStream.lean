import AtTemplate.Proofs.CommentEnds
import AtTemplate.Proofs.Groups
import AtTemplate.Proofs.Offsets
import AtTemplate.Proofs.QuotationEnds

/-!
# AtTemplate.Proofs.TokenStream

The tokens that are read one after another from a place in code, with the places where they stand.
They cover the code without a gap up to its end or to the first token without an end, and no
delimiter in it is missed but for those in quotations and comments.

* `delimiter_of_read` — a delimiter in a token is the token, or stands between the marks of it;
* `endToEnd_occurrences` — the tokens lie end to end;
* `exists_occurrence` — each place of the code that is covered lies in a token;
* `occurrences_cover` — **the tokens cover the code, and hide delimiters in quotations and comments
  only.**
-/

namespace AtTemplate

open Text

namespace Cursor

variable {c d p : Cursor} {m n : Nat}

/-- More characters lead further ahead. -/
theorem reaches_of_le (h : m ≤ n) : (c.advance m).Reaches (c.advance n) :=
  ⟨n - m, by rw [advance_advance, Nat.add_sub_cancel' h]⟩

/-- Of two places ahead, the first comes before the second or lies ahead of it. -/
theorem Reaches.lt_or_reaches (hp : c.Reaches p) (hd : c.Reaches d) :
    p.offset < d.offset ∨ d.Reaches p := by
  obtain ⟨m, rfl⟩ := hp
  obtain ⟨n, hn, rfl⟩ := hd.exists_advance
  rcases Nat.lt_or_ge m n with hlt | hle
  · refine .inl ((reaches_of_le hlt.le).offset_lt_iff.2 ?_)
    simp only [rest_advance, List.length_drop]
    omega
  · exact .inr (reaches_of_le hle)

/-- A place that comes before another one is not beyond it behind its character either. -/
theorem Reaches.advance_one_reaches (hp : c.Reaches p) (hd : c.Reaches d)
    (hlt : p.offset < d.offset) : (p.advance 1).Reaches d := by
  obtain ⟨m, rfl⟩ := hp
  obtain ⟨n, rfl⟩ := hd
  rw [advance_advance]
  refine reaches_of_le (Nat.lt_of_not_le fun hle => ?_)
  exact absurd (reaches_of_le hle).offset_le (Nat.not_le_of_lt hlt)

/-- Places without a text between them are one. -/
theorem Reaches.eq_of_textTo (h : c.Reaches d) (ht : c.textTo d = []) : c = d := by
  obtain ⟨n, hn, rfl⟩ := h.exists_advance
  rw [textTo_advance, List.take_eq_nil_iff] at ht
  obtain rfl : n = 0 := ht.elim id fun hr => by simpa [hr] using hn
  rfl

end Cursor

namespace Code

variable {c d p : Cursor} {kind token k : Token} {x : Char}
variable {text s rest front back t opening : List Char}

/-! ## the characters of a token -/

/-- The marks between which the text of a quotation or a comment stands. -/
def Token.marks : Token → List Char × List Char
  | .doubleQuoted => (['"'], ['"'])
  | .singleQuoted => (['\''], ['\''])
  | .backQuoted => (['\x60'], ['\x60'])
  | .lineComment => (['/', '/'], [])
  | .blockComment => (['/', '*'], ['*', '/'])
  | _ => ([], [])

/-- Something between these two texts stands strictly within a quotation or a comment of the kind:
the opening mark comes before it, and the closing mark after it. -/
def Token.Hides (kind : Token) (front back : List Char) : Prop :=
  kind.isEnclosed = true ∧ kind.marks.1 <+: front ∧ kind.marks.2 <:+ back

/-- An opening mark stands whole in front of a character that is not part of it. -/
theorem prefix_of_not_mem (h : opening ++ t = front ++ x :: back) (hx : x ∉ opening) :
    opening <+: front := by
  obtain ⟨between, rfl, -⟩ | ⟨between, rfl, hbetween⟩ := List.append_eq_append_iff.1 h
  · exact List.prefix_append _ _
  · cases between with
    | nil => simp
    | cons y between =>
      obtain ⟨rfl, -⟩ := List.cons.inj hbetween
      simp at hx

/-- A closing mark stands whole behind a character that is not part of it. -/
theorem suffix_of_not_mem {closing : List Char} (h : t ++ closing = front ++ x :: back)
    (hx : x ∉ closing) : closing <:+ back := by
  have hreverse : closing.reverse ++ t.reverse = back.reverse ++ x :: front.reverse := by
    simpa using congrArg List.reverse h
  exact List.reverse_prefix.1 (prefix_of_not_mem hreverse (by simpa using hx))

/-- What a token encloses stands between its marks. -/
theorem Token.hides_of_enclosed (he : kind.isEnclosed = true)
    (hx : x ∉ kind.marks.1 ∧ x ∉ kind.marks.2)
    (h : kind.marks.1 ++ (t ++ kind.marks.2) = front ++ x :: back) : kind.Hides front back :=
  ⟨he, prefix_of_not_mem h hx.1, suffix_of_not_mem ((List.append_assoc _ _ _).trans h) hx.2⟩

/-- A quotation is marked by its quote on both sides. -/
theorem marks_of_quoted? (h : quoted? x = some kind) :
    kind.isEnclosed = true ∧ kind.marks = ([x], [x]) := by
  unfold quoted? at h
  split at h <;> cases h <;> exact ⟨rfl, rfl⟩

theorem ne_slash_of_single? (h : single? x = some k) : x ≠ '/' ∧ x ≠ '*' := by
  constructor <;> (rintro rfl; cases h)

theorem not_isSpace_of_single? (h : single? x = some k) : isSpace x = false := by
  unfold single? at h
  split at h <;> first | rfl | cases h

theorem not_isWordChar_of_single? (h : single? x = some k) : isWordChar x = false := by
  unfold single? at h
  split at h <;> first | decide | cases h

/-- A run of other characters holds no delimiter. -/
theorem not_mem_of_run {inClass : Char → Bool} (h : run k inClass text = .token kind s rest)
    (hx : inClass x = false) : x ∉ s := by
  simp only [run, Reading.token.injEq] at h
  obtain ⟨-, rfl, -⟩ := h
  intro hmem
  rw [List.mem_takeWhile_imp hmem] at hx
  cases hx

/-- A delimiter behind a slash stands within a comment. -/
theorem hides_of_readSlash (hx : single? x = some k) (h : readSlash text = .token kind s rest)
    (hs : s = front ++ x :: back) : kind.Hides front back := by
  obtain ⟨hslash, hstar⟩ := ne_slash_of_single? hx
  unfold readSlash at h
  split at h
  · next text =>
    simp only [run, Reading.token.injEq] at h
    obtain ⟨rfl, htext, -⟩ := h
    refine Token.hides_of_enclosed (t := text.takeWhile (· ≠ '\n')) (x := x) rfl
      (by simp [Token.marks, hslash]) ?_
    rw [← hs, ← htext]
    simp [Token.marks]
  · next text =>
    cases hclose : closeComment text with
    | none => simp [hclose, enclosed] at h
    | some found =>
      obtain ⟨body, -, hbody, -⟩ := closeComment_eq_some_iff.1 hclose
      simp only [hclose, enclosed, Reading.token.injEq] at h
      obtain ⟨rfl, htext, -⟩ := h
      refine Token.hides_of_enclosed (t := body) (x := x) rfl
        (by simp [Token.marks, hslash, hstar]) ?_
      rw [← hs, ← htext, hbody]
      rfl
  · cases h
    have hmem : x ∈ ['/'] := by simp [hs]
    exact absurd (List.mem_singleton.1 hmem) hslash

/-- A delimiter behind a quote stands within a quotation. -/
theorem hides_of_quotation {quote : Char} (hx : single? x = some k) (hq : quoted? quote = some kind)
    (h : enclosed kind [quote] (closeQuotation quote text) = .token token s rest)
    (hs : s = front ++ x :: back) : token.Hides front back := by
  cases hclose : closeQuotation quote text with
  | none => simp [hclose, enclosed] at h
  | some found =>
    obtain ⟨body, -, hbody, -⟩ := exists_quotationBody hclose
    simp only [hclose, enclosed, Reading.token.injEq] at h
    obtain ⟨rfl, htext, -⟩ := h
    obtain ⟨henclosed, hmarks⟩ := marks_of_quoted? hq
    have hne : x ≠ quote := by
      rintro rfl
      simp [single?_of_quoted? hq] at hx
    refine Token.hides_of_enclosed (t := body) (x := x) henclosed (by simp [hmarks, hne]) ?_
    rw [hmarks, ← hs, ← htext, hbody]

/-- **A delimiter in a token is the token, or stands between the marks of it.** -/
theorem delimiter_of_read (hx : single? x = some k) (h : read text = .token kind s rest)
    (hs : s = front ++ x :: back) :
    (kind = k ∧ front = [] ∧ back = []) ∨ kind.Hides front back := by
  have hmem : x ∈ s := by simp [hs]
  unfold read at h
  split at h
  · cases h
  · next c text =>
    split at h
    · next hc =>
      cases h
      obtain rfl := List.mem_singleton.1 hmem
      rw [hx] at hc
      cases hc
      obtain ⟨hfront, hback⟩ | ⟨-, hback⟩ := List.append_eq_singleton_iff.1 hs.symm
      · exact .inl ⟨rfl, hfront, (List.cons.inj hback).2⟩
      · cases hback
    · next hq => exact .inr (hides_of_quotation hx hq h hs)
    · next hnone _ =>
      split at h
      · exact .inr (hides_of_readSlash hx h hs)
      · split at h
        · exact absurd hmem (not_mem_of_run h (not_isSpace_of_single? hx))
        · split at h
          · exact absurd hmem (not_mem_of_run h (not_isWordChar_of_single? hx))
          · cases h
            rw [← List.mem_singleton.1 hmem, hx] at hnone
            cases hnone

/-! ## the stream of tokens -/

/-- A token of code, and the places where it begins and ends. -/
structure Occurrence where
  kind : Token
  start : Cursor
  stop : Cursor
  deriving DecidableEq

/-- The tokens that are read one after another from a place on, as far as they can be read. -/
def occurrences (c : Cursor) : List Occurrence :=
  match _h : next c with
  | .ok (some (kind, d)) => ⟨kind, c, d⟩ :: occurrences d
  | _ => []
termination_by c.rest.length
decreasing_by exact next_lt _h

/-- The occurrences lie end to end between the two places. -/
def EndToEnd (c : Cursor) : List Occurrence → Cursor → Prop
  | [], d => d = c
  | x :: xs, d => x.start = c ∧ EndToEnd x.stop xs d

/-- No token is read at the place: it is the end of the text, or a token begins there that has no
end. -/
def IsEnd (d : Cursor) : Prop :=
  d.rest = [] ∨ next d = .error (.unclosed .quotation (d.span 1))

/-- Tokens end with the text. -/
theorem rest_eq_nil_of_next (h : next c = .ok none) : c.rest = [] := by
  unfold next at h
  split at h
  · next hfinished => exact Reading.read_eq_finished_iff.1 hfinished
  · cases h
  · cases h

/-- **The tokens lie end to end**, each where it is read, and no token is read where they end. -/
theorem endToEnd_occurrences (c : Cursor) :
    ∃ d, EndToEnd c (occurrences c) d ∧ IsEnd d ∧
      ∀ x ∈ occurrences c, c.Reaches x.start ∧ next x.start = .ok (some (x.kind, x.stop)) := by
  fun_induction occurrences c with
  | case1 c kind d hn ih =>
    obtain ⟨e, hends, hend, hall⟩ := ih
    refine ⟨e, ⟨rfl, hends⟩, hend, List.forall_mem_cons.2 ⟨⟨.refl c, hn⟩, fun x hx => ?_⟩⟩
    exact ⟨(reaches_of_next hn).trans (hall x hx).1, (hall x hx).2⟩
  | case2 c hnone =>
    refine ⟨c, rfl, ?_, List.forall_mem_nil _⟩
    obtain ⟨-, herror⟩ | hnone := next_of_stop hnone
    · exact .inr herror
    · exact .inl (rest_eq_nil_of_next hnone)

/-- **Each place of the code that is covered lies in a token.** -/
theorem exists_occurrence (hd : EndToEnd c (occurrences c) d) (hp : c.Reaches p)
    (hlt : p.offset < d.offset) :
    ∃ x ∈ occurrences c, x.start.Reaches p ∧ p.offset < x.stop.offset := by
  fun_induction occurrences c with
  | case1 c kind e hn ih =>
    obtain hbefore | hahead := hp.lt_or_reaches (reaches_of_next hn)
    · exact ⟨_, List.mem_cons_self, hp, hbefore⟩
    · obtain ⟨x, hx, hin⟩ := ih hd.2 hahead
      exact ⟨x, List.mem_cons_of_mem _ hx, hin⟩
  | case2 c _ =>
    cases hd
    exact absurd hp.offset_le (Nat.not_le_of_lt hlt)

/-- A token and a place in it: its text before the place, the character there, and the text
behind. -/
theorem read_at (hn : next c = .ok (some (kind, d))) (hp : c.Reaches p)
    (hlt : p.offset < d.offset) (hx : p.rest.head? = some x) :
    ∃ rest, read c.rest = .token kind (c.textTo p ++ x :: (p.advance 1).textTo d) rest := by
  have hbehind := hp.advance_one_reaches (reaches_of_next hn) hlt
  obtain ⟨text, rest, hread, hd, htext⟩ := next_eq_some hn
  obtain ⟨tail, htail⟩ := List.head?_eq_some_iff.1 hx
  refine ⟨rest, hread.trans (congrArg (Reading.token kind · rest) ?_)⟩
  calc text = c.textTo d := by rw [hd, Cursor.textTo_advance, ← htext, List.take_left]
    _ = c.textTo p ++ (p.textTo (p.advance 1) ++ (p.advance 1).textTo d) := by
      rw [(Cursor.reaches_advance 1 p).textTo_append hbehind,
        hp.textTo_append ((Cursor.reaches_advance 1 p).trans hbehind)]
    _ = c.textTo p ++ x :: (p.advance 1).textTo d := by
      rw [Cursor.textTo_advance, htail]
      rfl

/-- **A delimiter of the code that is covered is a token of its own kind, or stands strictly within
a quotation or a comment.** -/
theorem delimiter_of_occurrences (hd : EndToEnd c (occurrences c) d) (hp : c.Reaches p)
    (hlt : p.offset < d.offset) (hx : p.rest.head? = some x) (hk : single? x = some k) :
    ∃ y ∈ occurrences c, y = ⟨k, p, p.advance 1⟩ ∨
      (y.start.Reaches p ∧ (p.advance 1).Reaches y.stop ∧
        y.kind.Hides (y.start.textTo p) ((p.advance 1).textTo y.stop)) := by
  obtain ⟨-, -, -, hall⟩ := endToEnd_occurrences c
  obtain ⟨y, hy, hstart, hstop⟩ := exists_occurrence hd hp hlt
  have hn := (hall y hy).2
  have hbehind := hstart.advance_one_reaches (reaches_of_next hn) hstop
  obtain ⟨rest, hread⟩ := read_at hn hstart hstop hx
  refine ⟨y, hy, ?_⟩
  obtain ⟨hkind, hfront, hback⟩ | hhides := delimiter_of_read hk hread rfl
  · refine .inl ?_
    rw [← hkind, hbehind.eq_of_textTo hback, ← hstart.eq_of_textTo hfront]
  · exact .inr ⟨hstart, hbehind, hhides⟩

/-- Occurrences that stand end to end lead ahead. -/
theorem EndToEnd.reaches {xs : List Occurrence} (h : EndToEnd c xs d)
    (hall : ∀ x ∈ xs, x.start.Reaches x.stop) : c.Reaches d := by
  induction xs generalizing c with
  | nil =>
    cases h
    exact .refl _
  | cons x xs ih =>
    obtain ⟨rfl, hrest⟩ := h
    obtain ⟨hx, hxs⟩ := List.forall_mem_cons.1 hall
    exact hx.trans (ih hrest hxs)

/-- **The tokens cover the code, and hide delimiters in quotations and comments only.**  They are
stretches of characters that lie end to end, up to the end of the source or to an error.  Each
delimiter that they cover is a token of its own kind or stands strictly within a quotation or a
comment.  And a quotation ends at the first quote that no backslash takes, if there is one and, but
for back quotes, the line does not break before it; otherwise its quote is an error. -/
theorem occurrences_cover (c : Cursor) :
    ∃ d, EndToEnd c (occurrences c) d ∧
      (d.offset = byteLength c.source ∨ next d = .error (.unclosed .quotation (d.span 1))) ∧
      (∀ x ∈ occurrences c, next x.start = .ok (some (x.kind, x.stop)) ∧
        x.start.offset < x.stop.offset ∧ Offsets.IsBoundary c.source x.start.offset ∧
        Offsets.IsBoundary c.source x.stop.offset) ∧
      (∀ p x kind, c.Reaches p → p.offset < d.offset → p.rest.head? = some x →
        single? x = some kind → ∃ y ∈ occurrences c, y = ⟨kind, p, p.advance 1⟩ ∨
          (y.start.Reaches p ∧ (p.advance 1).Reaches y.stop ∧
            y.kind.Hides (y.start.textTo p) ((p.advance 1).textTo y.stop))) ∧
      ∀ q quote text kind, q.rest = quote :: text → quoted? quote = some kind →
        (∀ body, ClosedByQuote quote text body →
          next q = .ok (some (kind, q.advance (body.length + 2)))) ∧
        ((∀ body, ¬ ClosedByQuote quote text body) →
          next q = .error (.unclosed .quotation (q.span 1))) := by
  obtain ⟨d, hd, hend, hall⟩ := endToEnd_occurrences c
  refine ⟨d, hd, ?_, fun x hx => ?_, fun p x kind hp hlt hx hk => ?_,
    fun q quote text kind hq hk => ?_⟩
  · refine hend.imp_left fun hrest => ?_
    have hsource := (hd.reaches fun x hx => reaches_of_next (hall x hx).2).source_eq
    rw [← hsource, Cursor.source, hrest, List.append_nil, byteLength_reverse, d.offset_eq]
  · obtain ⟨hreach, hn⟩ := hall x hx
    have hstop := reaches_of_next hn
    exact ⟨hn, hstop.offset_lt_iff.2 (next_lt hn), Cursor.isBoundary_offset hreach.source_eq,
      Cursor.isBoundary_offset (hreach.trans hstop).source_eq⟩
  · exact delimiter_of_occurrences hd hp hlt hx hk
  · exact next_of_quotation hk hq

/-- A parenthesis in a string is hidden, a quote that a backslash takes does not end the string, and
a quote with a line break behind it has no end. -/
theorem occurrences_of_call :
    let c := Cursor.start "f(\"\\\"(\") 'a\n'".toList
    (∃ y ∈ occurrences c,
      y.kind.Hides (y.start.textTo (c.advance 5)) (((c.advance 5).advance 1).textTo y.stop)) ∧
      next (c.advance 2) = .ok (some (.doubleQuoted, (c.advance 2).advance 5)) ∧
      next (c.advance 9) = .error (.unclosed .quotation ⟨9, 10⟩) := by
  intro c
  obtain ⟨d, hd, -, -, hdelimiters, hquotes⟩ := occurrences_cover c
  have hc : occurrences c = [⟨.word, c, c.advance 1⟩, ⟨.parenOpen, c.advance 1, c.advance 2⟩,
      ⟨.doubleQuoted, c.advance 2, c.advance 7⟩, ⟨.parenClose, c.advance 7, c.advance 8⟩,
      ⟨.space, c.advance 8, c.advance 9⟩] := by
    decide +kernel
  have hd : d = c.advance 9 := by
    rw [hc] at hd
    exact hd.2.2.2.2.2
  refine ⟨?_, ?_, ?_⟩
  · obtain ⟨y, hy, rfl | ⟨-, -, hhides⟩⟩ := hdelimiters (c.advance 5) '(' .parenOpen
      (Cursor.reaches_advance 5 c) (hd ▸ by decide +kernel) (by decide +kernel) rfl
    · rw [hc] at hy
      exact absurd hy (by decide +kernel)
    · exact ⟨y, hy, hhides⟩
  · have hbody : QuotationBody '"' ['\\', '"', '('] :=
      .escape (.char (by decide) (by decide) nofun .nil)
    exact (hquotes (c.advance 2) '"' ("\\\"(\") 'a\n'".toList) .doubleQuoted (by decide +kernel)
      rfl).1 _ ((closedByQuote_iff (by decide)).2 ⟨hbody, ") 'a\n'".toList, by decide +kernel⟩)
  · refine (hquotes (c.advance 9) '\'' ['a', '\n', '\''] .singleQuoted (by decide +kernel) rfl).2
      fun body hclosed => ?_
    obtain ⟨hbody, rest, htext⟩ := (closedByQuote_iff (by decide)).1 hclosed
    have hsome := closeQuotation_of_quotationBody (by decide) hbody rest
    rw [← htext, show closeQuotation '\'' ['a', '\n', '\''] = none by decide] at hsome
    cases hsome

end Code

end AtTemplate
