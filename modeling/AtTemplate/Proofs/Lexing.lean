import AtTemplate.Code.Token
import Mathlib.Data.List.Chain
import Mathlib.Data.List.TakeWhile

/-!
# AtTemplate.Proofs.Lexing

When code that is joined from tokens is read as the same tokens again.  A token ends where it does
because of the character that follows: with another one behind it, it may go on.

* `read_append` — a token is read again in front of a text unless it takes on the character that
  follows;
* `lex_flatMap_iff` — joined tokens are read again, blanks apart, exactly if no token takes on the
  first character of the next.
-/

namespace AtTemplate.Code

/-- A token and its characters. -/
structure Lexeme where
  kind : Token
  text : List Char
  deriving DecidableEq, Repr

/-- The tokens of a text, read one after another; none if one of them has no end. -/
def lex (text : List Char) : Option (List Lexeme) :=
  match _h : read text with
  | .finished => some []
  | .unclosed => none
  | .token kind s rest => (lex rest).map (⟨kind, s⟩ :: ·)
termination_by text.length
decreasing_by exact Reading.length_lt_of_read _h

/-- Whether a token goes on when the character follows that ends it otherwise. -/
def Token.takesOn : Token → Char → Bool
  | .word, c => isWordChar c
  | .space, c => isSpace c
  | .slash, c => c == '/' || c == '*'
  | .lineComment, c => c != '\n'
  | _, _ => false

/-- The token takes on nothing of the text. -/
def Token.EndsBefore (k : Token) (text : List Char) : Prop :=
  ∀ c, text.head? = some c → k.takesOn c = false

variable {k : Token} {text s rest after : List Char}

/-! ## a token in front of a text -/

/-- A quotation read one character at a time: a backslash takes the next one, and only a template
literal goes on over a line break. -/
theorem closeQuotation_cons (quote c : Char) (text : List Char) :
    closeQuotation quote (c :: text) =
      if c = quote then some ([c], text)
      else if c = '\\' then
        match text with
        | [] => none
        | d :: text => (closeQuotation quote text).map fun (s, rest) => (c :: d :: s, rest)
      else if c = '\n' ∧ quote ≠ '\x60' then none
      else (closeQuotation quote text).map fun (s, rest) => (c :: s, rest) := by
  cases text <;> rfl

/-- A comment read one character at a time: a star takes the next one. -/
theorem closeComment_cons (c : Char) (text : List Char) :
    closeComment (c :: text) =
      if c = '*' then
        match text with
        | [] => none
        | d :: text =>
          if d = '/' then some ([c, d], text)
          else (closeComment text).map fun (s, rest) => (c :: d :: s, rest)
      else (closeComment text).map fun (s, rest) => (c :: s, rest) := by
  cases text <;> rfl

/-- What follows a quotation does not change it. -/
theorem closeQuotation_append {quote : Char} (h : closeQuotation quote text = some (s, rest))
    (after : List Char) : closeQuotation quote (text ++ after) = some (s, rest ++ after) := by
  fun_induction closeQuotation quote text generalizing s <;>
    grind [closeQuotation_cons, Option.map_eq_some_iff]

/-- A quotation ends with its quote. -/
theorem closeQuotation_self {quote : Char} (h : closeQuotation quote text = some (s, rest)) :
    closeQuotation quote s = some (s, []) := by
  fun_induction closeQuotation quote text generalizing s <;>
    grind [closeQuotation_cons, Option.map_eq_some_iff]

/-- What follows a comment does not change it. -/
theorem closeComment_append (h : closeComment text = some (s, rest)) (after : List Char) :
    closeComment (text ++ after) = some (s, rest ++ after) := by
  fun_induction closeComment text generalizing s <;>
    grind [closeComment_cons, Option.map_eq_some_iff]

/-- A comment ends with its closing mark. -/
theorem closeComment_self (h : closeComment text = some (s, rest)) :
    closeComment s = some (s, []) := by
  fun_induction closeComment text generalizing s <;>
    grind [closeComment_cons, Option.map_eq_some_iff]

/-- A single character does not go on. -/
theorem takesOn_of_single? {c : Char} (h : single? c = some k) (d : Char) :
    k.takesOn d = false := by
  unfold single? at h
  split at h <;> cases h <;> rfl

/-- A quotation does not go on behind its quote. -/
theorem takesOn_of_quoted? {c : Char} (h : quoted? c = some k) (d : Char) :
    k.takesOn d = false := by
  unfold quoted? at h
  split at h <;> cases h <;> rfl

/-- A blank begins a run of blanks. -/
theorem read_of_isSpace {c : Char} (h : isSpace c = true) (text : List Char) :
    read (c :: text) = run .space isSpace (c :: text) := by
  simp only [isSpace, Bool.or_eq_true, beq_iff_eq] at h
  obtain (rfl | rfl) | rfl := h <;> rfl

/-- A letter begins a word. -/
theorem read_of_isWordStart {c : Char} (h : isWordStart c = true) (text : List Char) :
    read (c :: text) = run .word isWordChar (c :: text) := by
  have hs : single? c = none := by
    unfold single?
    split <;> first | rfl | cases h
  have hq : quoted? c = none := by
    unfold quoted?
    split <;> first | rfl | cases h
  have hc : c ≠ '/' := by
    rintro rfl
    cases h
  have hspace : isSpace c = false := by
    rw [Bool.eq_false_iff]
    intro hspace
    simp only [isSpace, Bool.or_eq_true, beq_iff_eq] at hspace
    obtain (rfl | rfl) | rfl := hspace <;> cases h
  simp [read, hs, hq, hc, hspace, h]

/-- The longest run of a class is a run on its own, and ends before another character. -/
theorem run_self {kind : Token} {inClass : Char → Bool}
    (h : run kind inClass text = .token k s rest) :
    kind = k ∧ run kind inClass s = .token k s [] ∧
      ∀ c, rest.head? = some c → inClass c = false := by
  simp only [run, Reading.token.injEq] at h
  obtain ⟨rfl, rfl, rfl⟩ := h
  have hall : ∀ c ∈ text.takeWhile inClass, inClass c = true := fun c hc =>
    List.all_eq_true.1 (List.all_takeWhile) c hc
  refine ⟨rfl, ?_, fun c hc => ?_⟩
  · rw [run, List.takeWhile_eq_self_iff.2 hall, List.dropWhile_eq_nil_iff.2 hall]
  · have := List.head?_dropWhile_not inClass text
    simpa [hc] using this

/-- A run of a class is read again in front of a character of another class. -/
theorem run_append {kind : Token} {inClass : Char → Bool}
    (h : run kind inClass text = .token k text [])
    (ha : ∀ c, after.head? = some c → inClass c = false) :
    run kind inClass (text ++ after) = .token k text after := by
  simp only [run, Reading.token.injEq] at h
  obtain ⟨rfl, htext, -⟩ := h
  have hall := List.takeWhile_eq_self_iff.1 htext
  have hnone : after.takeWhile inClass = [] ∧ after.dropWhile inClass = after := by
    cases after with
    | nil => exact ⟨rfl, rfl⟩
    | cons c after =>
      have hc := ha c rfl
      simp [hc]
  rw [run, List.takeWhile_append_of_pos hall, List.dropWhile_append_of_pos hall, hnone.1, hnone.2,
    List.append_nil]

/-- What a slash begins is read alone as well. -/
theorem readSlash_self (h : readSlash text = .token k s rest) :
    read s = .token k s [] ∧ k.EndsBefore rest := by
  unfold readSlash at h
  split at h
  · next text =>
    obtain ⟨rfl, hself, ha⟩ := run_self h
    obtain ⟨tail, rfl⟩ : ∃ tail, s = '/' :: '/' :: tail := by
      simp only [run, Reading.token.injEq] at h
      exact ⟨_, h.2.1.symm⟩
    exact ⟨hself, fun c hc => by simpa [Token.takesOn] using ha c hc⟩
  · next text =>
    unfold enclosed at h
    split at h
    · cases h
    · next t r hc =>
      cases h
      exact ⟨by simp [read, single?, quoted?, readSlash, enclosed, closeComment_self hc],
        fun _ _ => rfl⟩
  · next hslash hstar =>
    cases h
    refine ⟨rfl, fun c hc => ?_⟩
    obtain ⟨after, rfl⟩ := List.head?_eq_some_iff.1 hc
    have h1 : c ≠ '/' := by rintro rfl; exact hslash _ rfl
    have h2 : c ≠ '*' := by rintro rfl; exact hstar _ rfl
    simp [Token.takesOn, h1, h2]

/-- A token is read alone as well, and it ends before a character that it does not take on. -/
theorem read_self (h : read text = .token k s rest) :
    read s = .token k s [] ∧ k.EndsBefore rest := by
  have hne := Reading.ne_nil_of_read h
  have happ := Reading.append_of_read h
  unfold read at h
  split at h
  · cases h
  · next c text =>
    obtain ⟨tail, htail⟩ : ∃ tail, s = c :: tail := by
      obtain ⟨d, tail, rfl⟩ := List.exists_cons_of_ne_nil hne
      cases happ
      exact ⟨tail, rfl⟩
    split at h
    · next hs =>
      cases h
      exact ⟨by simp [read, hs], fun d _ => takesOn_of_single? hs d⟩
    · next hs hq =>
      unfold enclosed at h
      split at h
      · cases h
      · next hc =>
        cases h
        exact ⟨by simp [read, hs, hq, enclosed, closeQuotation_self hc],
          fun d _ => takesOn_of_quoted? hq d⟩
    · next hs hq =>
      split at h
      · exact readSlash_self h
      · next hc =>
        split at h
        · next hspace =>
          obtain ⟨rfl, hself, ha⟩ := run_self h
          refine ⟨?_, ha⟩
          rw [htail, read_of_isSpace hspace, ← htail, hself]
        · next hspace =>
          split at h
          · next hword =>
            obtain ⟨rfl, hself, ha⟩ := run_self h
            refine ⟨?_, ha⟩
            rw [htail, read_of_isWordStart hword, ← htail, hself]
          · next hword =>
            cases h
            exact ⟨by simp [read, hs, hq, hc, hspace, hword], fun _ _ => rfl⟩

/-- A token that begins with a slash is read alike in front of what it does not take on. -/
theorem readSlash_append (h : readSlash text = .token k ('/' :: text) [])
    (ha : k.EndsBefore after) : readSlash (text ++ after) = .token k ('/' :: text) after := by
  unfold readSlash at h
  split at h
  · next text =>
    obtain ⟨rfl, -, -⟩ := run_self h
    exact run_append h fun c hc => by simpa [Token.takesOn] using ha c hc
  · next text =>
    unfold enclosed at h
    split at h
    · cases h
    · next t r hc =>
      simp only [Reading.token.injEq] at h
      obtain ⟨rfl, ht, rfl⟩ := h
      rw [List.cons_append, readSlash, closeComment_append hc]
      simp [enclosed, ht]
  · next hslash hstar =>
    cases h
    cases after with
    | nil => rfl
    | cons c after =>
      have hc := ha c rfl
      simp only [Token.takesOn, Bool.or_eq_false_iff, beq_eq_false_iff_ne] at hc
      simp [readSlash, hc.1, hc.2]

/-- A token is read again in front of a text that it takes on nothing of. -/
theorem read_append (h : read text = .token k text []) (ha : k.EndsBefore after) :
    read (text ++ after) = .token k text after := by
  cases text with
  | nil => cases h
  | cons c text =>
    rw [List.cons_append]
    cases hs : single? c with
    | some kind =>
      simp only [read, hs, Reading.token.injEq] at h ⊢
      simp [h.1, h.2.2]
    | none =>
      cases hq : quoted? c with
      | some kind =>
        simp only [read, hs, hq, enclosed] at h ⊢
        split at h
        · cases h
        · next t r hclose =>
          simp only [Reading.token.injEq] at h
          obtain ⟨rfl, ht, rfl⟩ := h
          rw [closeQuotation_append hclose]
          simp [ht]
      | none =>
        by_cases hc : c = '/'
        · rw [hc] at h ⊢
          exact readSlash_append h ha
        · by_cases hspace : isSpace c = true
          · rw [read_of_isSpace hspace] at h ⊢
            obtain ⟨rfl, -, -⟩ := run_self h
            exact run_append h ha
          · by_cases hword : isWordStart c = true
            · rw [read_of_isWordStart hword] at h ⊢
              obtain ⟨rfl, -, -⟩ := run_self h
              exact run_append h ha
            · simp only [read, hs, hq, hc, hspace, hword] at h ⊢
              simp at h ⊢
              simp [h.1, h.2]

/-! ## the tokens of joined code -/

/-- The token stands at the end of a text that is read as nothing else. -/
def Lexeme.Alone (x : Lexeme) : Prop :=
  read x.text = .token x.kind x.text []

/-- The tokens of a text without the blanks. -/
def significant (xs : List Lexeme) : List Lexeme :=
  xs.filter (·.kind ≠ .space)

/-- No token takes on the first character of the next, unless both are blanks. -/
def Apart (xs : List Lexeme) : Prop :=
  xs.IsChain fun x y => x.kind = .space ∨ x.kind.EndsBefore y.text

variable {x : Lexeme} {xs : List Lexeme}

@[simp] theorem lex_nil : lex [] = some [] := by
  rw [lex]
  rfl

/-- A text is its first token and the tokens of what is left. -/
theorem lex_of_read (h : read text = .token k s rest) :
    lex text = (lex rest).map (⟨k, s⟩ :: ·) := by
  rw [lex]
  split
  · next h' => rw [h] at h'; cases h'
  · next h' => rw [h] at h'; cases h'
  · next h' => rw [h] at h'; cases h'; rfl

/-- A text that has tokens begins with the first of them. -/
theorem read_of_lex (hne : text ≠ []) (h : lex text = some xs) :
    ∃ k s rest ys, read text = .token k s rest ∧ lex rest = some ys ∧ xs = ⟨k, s⟩ :: ys := by
  rw [lex] at h
  split at h
  · next h' => exact absurd (Reading.read_eq_finished_iff.1 h') hne
  · cases h
  · next k s rest h' =>
    obtain ⟨ys, hys, rfl⟩ := Option.map_eq_some_iff.1 h
    exact ⟨k, s, rest, ys, h', hys, rfl⟩

/-- The tokens of a text make it up, and each is read alone as well. -/
theorem alone_of_lex (h : lex text = some xs) :
    xs.flatMap Lexeme.text = text ∧ ∀ x ∈ xs, x.Alone := by
  fun_induction lex text generalizing xs with
  | case1 text h' =>
    cases h
    exact ⟨(Reading.read_eq_finished_iff.1 h').symm, List.forall_mem_nil _⟩
  | case2 => cases h
  | case3 text k s rest h' ih =>
    obtain ⟨ys, hys, rfl⟩ := Option.map_eq_some_iff.1 h
    obtain ⟨htext, halone⟩ := ih hys
    refine ⟨?_, List.forall_mem_cons.2 ⟨(read_self h').1, halone⟩⟩
    rw [List.flatMap_cons, htext]
    exact Reading.append_of_read h'

/-- A text is blank at its head where blanks are read. -/
theorem kind_eq_space_iff {c : Char} (h : read (c :: text) = .token k s rest) :
    k = .space ↔ isSpace c = true := by
  constructor
  · rintro rfl
    unfold read single? quoted? readSlash enclosed run at h
    grind
  · intro hspace
    rw [read_of_isSpace hspace] at h
    cases h
    rfl

/-- Whether a token ends in front of a text is decided by its first character. -/
theorem Token.EndsBefore.of_append (hne : text ≠ []) :
    k.EndsBefore (text ++ after) ↔ k.EndsBefore text := by
  obtain ⟨c, text, rfl⟩ := List.exists_cons_of_ne_nil hne
  exact Iff.rfl

/-- Blanks in front of a text do not change its other tokens. -/
theorem significant_lex_of_space (hx : x.Alone) (hk : x.kind = .space) (text : List Char) :
    (lex (x.text ++ text)).map significant = (lex text).map significant := by
  have hdrop {text s rest : List Char} (h : read text = .token .space s rest) :
      (lex text).map significant = (lex rest).map significant := by
    rw [lex_of_read h, Option.map_map]
    rfl
  unfold Lexeme.Alone at hx
  rw [hk] at hx
  by_cases hends : Token.EndsBefore .space text
  · exact hdrop (read_append hx hends)
  · -- the blanks go on in the text, so that both begin with one token that is left out
    obtain ⟨c, after, rfl, hc⟩ : ∃ c after, text = c :: after ∧ isSpace c = true := by
      cases text with
      | nil => exact absurd nofun hends
      | cons c after =>
        by_cases hc : isSpace c = true
        · exact ⟨c, after, rfl, hc⟩
        · refine absurd ?_ hends
          rintro d ⟨⟩
          simpa [Token.takesOn] using hc
    obtain ⟨b, blanks, hb⟩ := List.exists_cons_of_ne_nil (Reading.ne_nil_of_read hx)
    have hbspace : isSpace b = true := (kind_eq_space_iff (hb ▸ hx)).1 rfl
    have hrun : run .space isSpace x.text = .token .space x.text [] := by
      rw [← hx, hb, read_of_isSpace hbspace]
    have hall : ∀ d ∈ x.text, isSpace d = true := by
      simp only [run, Reading.token.injEq] at hrun
      exact List.takeWhile_eq_self_iff.1 hrun.2.1
    have hread : read (x.text ++ c :: after) = .token .space
        (x.text ++ (c :: after).takeWhile isSpace) ((c :: after).dropWhile isSpace) := by
      rw [hb, List.cons_append, read_of_isSpace hbspace, ← List.cons_append, ← hb, run,
        List.takeWhile_append_of_pos hall, List.dropWhile_append_of_pos hall]
    rw [hdrop hread, hdrop (read_of_isSpace hc after)]

/-- A token ends before joined tokens if it ends before the first of them. -/
theorem Token.endsBefore_flatMap_iff (h : ∀ x ∈ xs, x.Alone) :
    k.EndsBefore (xs.flatMap Lexeme.text) ↔ ∀ y ∈ xs.head?, k.EndsBefore y.text := by
  cases xs with
  | nil => exact iff_of_true nofun nofun
  | cons y ys =>
    have hne := Reading.ne_nil_of_read (h y List.mem_cons_self)
    rw [List.flatMap_cons, EndsBefore.of_append hne]
    simp

/-- Blanks are left out of what is significant. -/
theorem significant_cons_of_space (hk : x.kind = .space) :
    significant (x :: xs) = significant xs :=
  List.filter_cons_of_neg (by simp [hk])

/-- Other tokens are kept. -/
theorem significant_cons (hk : x.kind ≠ .space) :
    significant (x :: xs) = x :: significant xs :=
  List.filter_cons_of_pos (by simp [hk])

/-- **Joined tokens are read again, blanks apart, exactly if no token takes on the first character
of the next.** -/
theorem lex_flatMap_iff (h : ∀ x ∈ xs, x.Alone) :
    (lex (xs.flatMap Lexeme.text)).map significant = some (significant xs) ↔ Apart xs := by
  induction xs with
  | nil => simp [Apart]
  | cons x xs ih =>
    obtain ⟨hx, hxs⟩ := List.forall_mem_cons.1 h
    have ih := ih hxs
    rw [List.flatMap_cons, Apart, List.isChain_cons]
    by_cases hk : x.kind = .space
    · rw [significant_lex_of_space hx hk, significant_cons_of_space hk, ih]
      simp [hk, Apart]
    · have hends : (∀ y ∈ xs.head?, x.kind = .space ∨ x.kind.EndsBefore y.text) ↔
          x.kind.EndsBefore (xs.flatMap Lexeme.text) := by
        rw [Token.endsBefore_flatMap_iff hxs]
        simp [hk]
      rw [hends, significant_cons hk]
      constructor
      · intro hlex
        obtain ⟨ys, hys, hsig⟩ := Option.map_eq_some_iff.1 hlex
        obtain ⟨c, tail, hc⟩ := List.exists_cons_of_ne_nil (Reading.ne_nil_of_read hx)
        obtain ⟨k, s, rest, zs, hread, hzs, rfl⟩ := read_of_lex (by simp [hc]) hys
        -- what is read first is no blank, so it is the first token again
        have hks : k ≠ .space := by
          unfold Lexeme.Alone at hx
          rw [hc] at hx hread
          rwa [ne_eq, kind_eq_space_iff hread, ← kind_eq_space_iff hx]
        rw [significant_cons hks] at hsig
        obtain ⟨rfl, htail⟩ := List.cons.inj hsig
        obtain rfl : rest = xs.flatMap Lexeme.text :=
          List.append_cancel_left (Reading.append_of_read hread)
        exact ⟨(read_self hread).2, ih.1 (by rw [hzs, Option.map_some, htail])⟩
      · rintro ⟨hends, hapart⟩
        obtain ⟨ys, hys, hsig⟩ := Option.map_eq_some_iff.1 (ih.2 hapart)
        rw [lex_of_read (read_append hx hends), hys, Option.map_some, Option.map_some,
          significant_cons hk, hsig]

end AtTemplate.Code
