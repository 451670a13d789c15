import AtTemplate.Code.Group
import AtTemplate.Proofs.Progress
import Mathlib.Data.List.Induction

/-!
# AtTemplate.Proofs.Groups

Where a group of code ends.  The search for the closing delimiter keeps one counter.  Here it is
held against the stream of tokens and a grammar: the group ends where the delimiters of its kind
that lie in between are balanced.

* `Walk.unique` — how far a walk has come fixes the tokens that it passed;
* `balanced_iff` — a word of delimiters is balanced exactly when a counter returns to zero;
* `closing?_eq_some_iff`, `exists_stops_of_closing?` — the two ways in which a search ends;
* `findClosing_eq` — **where a group ends, or which error says that it does not.**
-/

namespace AtTemplate.Code

variable {kind : Delimiter} {c d e p q : Cursor} {token : Token} {tokens u v w : List Token}
  {depth m n : Nat} {error : TemplateError}

/-! ## the stream of tokens -/

/-- The tokens that are read one after another from one place to another. -/
inductive Walk : Cursor → List Token → Cursor → Prop
  | nil (c : Cursor) : Walk c [] c
  | cons {c d e : Cursor} {token : Token} {tokens : List Token}
      (hn : next c = .ok (some (token, d))) (hw : Walk d tokens e) : Walk c (token :: tokens) e

/-- A walk leads ahead. -/
theorem Walk.reaches (h : Walk c tokens d) : c.Reaches d := by
  induction h with
  | nil c => exact .refl c
  | cons hn _ ih => exact (reaches_of_next hn).trans ih

/-- A walk that has left its first place passed the token there. -/
theorem walk_iff_of_next (hn : next c = .ok (some (token, d))) :
    Walk c tokens q ↔ (tokens = [] ∧ q = c) ∨ ∃ rest, tokens = token :: rest ∧ Walk d rest q := by
  constructor
  · intro h
    cases h with
    | nil => exact .inl ⟨rfl, rfl⟩
    | cons hn' hw =>
      rw [hn] at hn'
      cases hn'
      exact .inr ⟨_, rfl, hw⟩
  · rintro (⟨rfl, rfl⟩ | ⟨rest, rfl, hw⟩)
    · exact .nil q
    · exact .cons hn hw

/-- No walk leaves a place where no token is read. -/
theorem walk_iff_of_stop (hn : ∀ token d, next c ≠ .ok (some (token, d))) :
    Walk c tokens q ↔ tokens = [] ∧ q = c := by
  constructor
  · intro h
    cases h with
    | nil => exact ⟨rfl, rfl⟩
    | cons hn' _ => exact absurd hn' (hn _ _)
  · rintro ⟨rfl, rfl⟩
    exact .nil q

/-- Of two walks from one place, one goes on where the other ends. -/
theorem Walk.total (hu : Walk c u d) (hv : Walk c v e) :
    (∃ w, v = u ++ w ∧ Walk d w e) ∨ ∃ w, u = v ++ w ∧ Walk e w d := by
  induction hu generalizing v with
  | nil c => exact .inl ⟨v, rfl, hv⟩
  | @cons c c' d token u hn hw ih =>
    obtain ⟨rfl, rfl⟩ | ⟨v, rfl, hv⟩ := (walk_iff_of_next hn).1 hv
    · exact .inr ⟨_, rfl, .cons hn hw⟩
    · obtain ⟨w, rfl, h⟩ | ⟨w, rfl, h⟩ := ih ‹_›
      · exact .inl ⟨w, rfl, h⟩
      · exact .inr ⟨w, rfl, h⟩

/-- A walk that has passed a token has come nearer to the end of the text. -/
theorem Walk.lt_of_ne_nil (h : Walk c tokens d) (hne : tokens ≠ []) :
    d.rest.length < c.rest.length := by
  cases h with
  | nil => exact absurd rfl hne
  | cons hn hw => exact Nat.lt_of_le_of_lt hw.reaches.length_le (next_lt hn)

/-- **How far a walk has come fixes the tokens that it passed.** -/
theorem Walk.unique (hu : Walk c u d) (hv : Walk c v d) : u = v := by
  have hnil {w : List Token} (hw : Walk d w d) : w = [] := by
    rcases eq_or_ne w [] with h | hne
    · exact h
    · exact absurd (hw.lt_of_ne_nil hne) (Nat.lt_irrefl _)
  obtain ⟨w, rfl, hw⟩ | ⟨w, rfl, hw⟩ := hu.total hv
  · rw [hnil hw, List.append_nil]
  · rw [hnil hw, List.append_nil]

/-- No walk ends within a token that another one passes. -/
theorem Walk.lt_or_le (hd : Walk c u d) (hn : next d = .ok (some (token, e))) (hp : Walk c v p) :
    p.offset < d.offset ∨ p = d ∨ e.offset ≤ p.offset := by
  obtain ⟨w, rfl, hw⟩ | ⟨w, rfl, hw⟩ := hd.total hp
  · obtain ⟨-, rfl⟩ | ⟨w, rfl, hw⟩ := (walk_iff_of_next hn).1 hw
    · exact .inr (.inl rfl)
    · exact .inr (.inr (Walk.reaches ‹_›).offset_le)
  · rcases eq_or_ne w [] with rfl | hne
    · cases hw
      exact .inr (.inl rfl)
    · exact .inl (hw.reaches.offset_lt_iff.2 (hw.lt_of_ne_nil hne))

/-! ## balanced words -/

/-- Whether the token is a delimiter of the kind. -/
def Delimiter.counts (kind : Delimiter) (token : Token) : Bool :=
  token = kind.opening || token = kind.closing

/-- Every delimiter has its partner: a word is empty, or a word with a group behind it. -/
inductive Balanced (kind : Delimiter) : List Token → Prop
  | nil : Balanced kind []
  | group {front inner : List Token} (hf : Balanced kind front) (hi : Balanced kind inner) :
      Balanced kind (front ++ kind.opening :: (inner ++ [kind.closing]))

/-- A word that leaves groups open, each with a balanced word between its opening delimiter and
the next. -/
inductive Opens (kind : Delimiter) : Nat → List Token → Prop
  | balanced {word : List Token} (h : Balanced kind word) : Opens kind 0 word
  | group {depth : Nat} {front inner : List Token} (hf : Opens kind depth front)
      (hi : Balanced kind inner) : Opens kind (depth + 1) (front ++ kind.opening :: inner)

/-- How many groups are open behind tokens, where `depth` are open before them; none when a
delimiter closes a group that is not among these. -/
def depth? (kind : Delimiter) : Nat → List Token → Option Nat
  | depth, [] => some depth
  | depth, token :: tokens =>
    if token = kind.opening then depth? kind (depth + 1) tokens
    else if token = kind.closing then
      match depth with
      | 0 => none
      | depth + 1 => depth? kind depth tokens
    else depth? kind depth tokens

/-- No delimiter closes and opens a group. -/
theorem Delimiter.closing_ne_opening (kind : Delimiter) : kind.closing ≠ kind.opening := by
  cases kind <;> decide

@[simp] theorem depth?_nil : depth? kind depth [] = some depth := rfl

/-- An opening delimiter goes one level deeper. -/
@[simp] theorem depth?_opening :
    depth? kind depth (kind.opening :: tokens) = depth? kind (depth + 1) tokens := by
  simp [depth?]

/-- A closing delimiter cannot lead out of the outermost level. -/
@[simp] theorem depth?_closing_zero : depth? kind 0 (kind.closing :: tokens) = none := by
  simp [depth?, kind.closing_ne_opening]

/-- A closing delimiter leads one level up. -/
@[simp] theorem depth?_closing_succ :
    depth? kind (depth + 1) (kind.closing :: tokens) = depth? kind depth tokens := by
  simp [depth?, kind.closing_ne_opening]

/-- Other tokens stay on their level. -/
theorem depth?_of_not_counts (ho : token ≠ kind.opening) (hc : token ≠ kind.closing) :
    depth? kind depth (token :: tokens) = depth? kind depth tokens := by
  simp [depth?, ho, hc]

/-- Only the delimiters of the kind matter. -/
theorem depth?_filter :
    depth? kind depth (tokens.filter kind.counts) = depth? kind depth tokens := by
  induction tokens generalizing depth with
  | nil => rfl
  | cons token tokens ih =>
    by_cases ho : token = kind.opening
    · subst ho
      rw [List.filter_cons_of_pos (by simp [Delimiter.counts]), depth?_opening, depth?_opening, ih]
    · by_cases hc : token = kind.closing
      · subst hc
        rw [List.filter_cons_of_pos (by simp [Delimiter.counts])]
        cases depth with
        | zero => rw [depth?_closing_zero, depth?_closing_zero]
        | succ depth => rw [depth?_closing_succ, depth?_closing_succ, ih]
      · rw [List.filter_cons_of_neg (by simp [Delimiter.counts, ho, hc]), ih,
          depth?_of_not_counts ho hc]

/-- The groups that are open behind one word are open before the next. -/
theorem depth?_append_iff :
    depth? kind n (u ++ v) = some m ↔
      ∃ between, depth? kind n u = some between ∧ depth? kind between v = some m := by
  fun_induction depth? kind n u with
  | case1 => simp
  | case2 depth tokens ih => simpa using ih
  | case3 tokens ho => simp
  | case4 tokens ho depth ih => simpa using ih
  | case5 depth token tokens ho hc ih =>
    rw [List.cons_append, depth?_of_not_counts ho hc]
    exact ih

/-- Balanced words close what they open. -/
theorem depth?_of_balanced (h : Balanced kind w) (depth : Nat) :
    depth? kind depth w = some depth := by
  induction h generalizing depth with
  | nil => rw [depth?_nil]
  | group _ _ ihf ihi =>
    rw [depth?_append_iff]
    refine ⟨depth, ihf depth, ?_⟩
    rw [depth?_opening, depth?_append_iff]
    exact ⟨depth + 1, ihi (depth + 1), by simp⟩

/-- A word of delimiters leaves as many groups open as a counter says. -/
theorem opens_of_depth? (hw : ∀ token ∈ w, kind.counts token)
    (h : depth? kind 0 w = some m) : Opens kind m w := by
  induction w using List.reverseRecOn generalizing m with
  | nil =>
    cases h
    exact .balanced .nil
  | append_singleton w token ih =>
    obtain ⟨n, hn, hlast⟩ := depth?_append_iff.1 h
    have hopen := ih (fun t ht => hw t (List.mem_append_left _ ht)) hn
    have htoken : token = kind.opening ∨ token = kind.closing := by
      simpa [Delimiter.counts] using hw token (by simp)
    obtain rfl | rfl := htoken
    · -- a group begins, and nothing is in it yet
      obtain rfl : n + 1 = m := by simpa using hlast
      exact .group hopen .nil
    · -- the innermost group ends: it is part of what stands behind the opening delimiter before
      cases hopen with
      | balanced => simp at hlast
      | group hf hi =>
        obtain rfl := Option.some.inj (depth?_closing_succ.symm.trans hlast)
        cases hf with
        | balanced hf => simpa using Opens.balanced (.group hf hi)
        | group hf hi' => simpa using Opens.group hf (.group hi' hi)

/-- **A word of delimiters is balanced exactly when the counter returns to zero.** -/
theorem balanced_iff (hw : ∀ token ∈ w, kind.counts token) :
    Balanced kind w ↔ depth? kind 0 w = some 0 := by
  constructor
  · intro h
    exact depth?_of_balanced h 0
  · intro h
    cases opens_of_depth? hw h with
    | balanced h => exact h

/-- The delimiters of a stretch are balanced where it ends on the level that it began on. -/
theorem balanced_filter_iff :
    Balanced kind (tokens.filter kind.counts) ↔ depth? kind 0 tokens = some 0 := by
  rw [balanced_iff fun _ h => (List.mem_filter.1 h).2, depth?_filter]

/-! ## the search -/

/-- The delimiter that closes a group stands at the second place: the delimiters of the kind are
balanced from the first place up to it. -/
def Delimiter.Closes (kind : Delimiter) (c q : Cursor) : Prop :=
  ∃ tokens, Walk c tokens q ∧ StandsAt kind.closing q ∧ Balanced kind (tokens.filter kind.counts)

/-- A token that stands at the cursor is the next one. -/
theorem next_of_standsAt (h : StandsAt token c) : ∃ d, next c = .ok (some (token, d)) := by
  obtain ⟨text, rest, hr⟩ := h
  exact ⟨c.advance text.length, by simp [next, hr]⟩

/-- Only one token stands at a place. -/
theorem StandsAt.eq (h : StandsAt token c) {token' : Token} (ho : StandsAt token' c) :
    token = token' := by
  obtain ⟨_, _, hr⟩ := h
  obtain ⟨_, _, hr'⟩ := ho
  rw [hr] at hr'
  cases hr'
  rfl

/-- Where no token is read, the text ends or its next token has no end. -/
theorem next_of_stop (hn : ∀ token d, next c ≠ .ok (some (token, d))) :
    (read c.rest = .unclosed ∧ next c = .error (.unclosed .quotation (c.span 1))) ∨
      next c = .ok none := by
  cases hr : read c.rest with
  | finished => exact .inr (by simp [next, hr])
  | unclosed => exact .inl ⟨rfl, by simp [next, hr]⟩
  | token token text rest => exact absurd (by simp [next, hr]) (hn token (c.advance text.length))

/-- A token is read where a walk begins that comes to one. -/
theorem Walk.exists_next (h : Walk c tokens q) (hq : StandsAt token q) :
    ∃ token d, next c = .ok (some (token, d)) := by
  cases h with
  | nil => exact ⟨token, next_of_standsAt hq⟩
  | cons hn _ => exact ⟨_, _, hn⟩

/-- What a walk passes behind a token, it passes from the place of the token on. -/
theorem exists_walk_iff (hn : next c = .ok (some (token, d))) {P : List Token → Prop}
    (hne : ¬ (q = c ∧ P [])) :
    (∃ tokens, Walk c tokens q ∧ P tokens) ↔ ∃ tokens, Walk d tokens q ∧ P (token :: tokens) := by
  constructor
  · rintro ⟨tokens, hw, hp⟩
    obtain ⟨rfl, rfl⟩ | ⟨tokens, rfl, hw⟩ := (walk_iff_of_next hn).1 hw
    · exact absurd ⟨rfl, hp⟩ hne
    · exact ⟨tokens, ‹_›, hp⟩
  · rintro ⟨tokens, hw, hp⟩
    exact ⟨token :: tokens, .cons hn hw, hp⟩

/-- A walk ends here, since no token is read: the text has an end here, or its next token has
none. -/
def Stops (c d : Cursor) : Prop :=
  (∃ tokens, Walk c tokens d) ∧ ∀ token e, next d ≠ .ok (some (token, e))

/-- A walk that ends does so with a token more in front. -/
theorem Stops.of_next (hn : next c = .ok (some (token, d))) (h : Stops d e) : Stops c e := by
  obtain ⟨⟨tokens, hw⟩, he⟩ := h
  exact ⟨⟨_, .cons hn hw⟩, he⟩

/-- A walk ends where no token is read. -/
theorem Stops.self (hn : ∀ token d, next c ≠ .ok (some (token, d))) : Stops c c :=
  ⟨⟨[], .nil c⟩, hn⟩

/-- There is one place at which no token is read. -/
theorem Stops.unique (hd : Stops c d) (he : Stops c e) : d = e := by
  obtain ⟨⟨u, hu⟩, hd⟩ := hd
  obtain ⟨⟨v, hv⟩, he⟩ := he
  obtain ⟨w, rfl, hw⟩ | ⟨w, rfl, hw⟩ := hu.total hv
  · exact ((walk_iff_of_stop hd).1 hw).2.symm
  · exact ((walk_iff_of_stop he).1 hw).2

/-- **The delimiter that the search finds is the one at which its counter is at zero.** -/
theorem closing?_eq_some_iff :
    closing? kind depth c = .ok (some q) ↔
      ∃ tokens, Walk c tokens q ∧ StandsAt kind.closing q ∧ depth? kind depth tokens = some 0 := by
  fun_induction closing? kind depth c with
  | case1 _ c _ hn | case2 _ c hn =>
    refine iff_of_false (fun h => ?_) ?_
    · cases h
    · rintro ⟨tokens, hw, hq, -⟩
      obtain ⟨_, _, hn'⟩ := hw.exists_next hq
      rw [hn] at hn'
      cases hn'
  | case3 depth c d hn ih =>
    refine ih.trans ((exists_walk_iff hn ?_).trans ?_).symm
    · rintro ⟨rfl, hq, -⟩
      exact kind.closing_ne_opening (hq.eq (standsAt_of_next hn))
    · simp only [depth?_opening]
  | case4 c d hn _ =>
    constructor
    · intro h
      obtain rfl := Option.some.inj (Except.ok.inj h)
      exact ⟨[], .nil c, standsAt_of_next hn, rfl⟩
    · rintro ⟨tokens, hw, -, hdepth⟩
      obtain ⟨-, rfl⟩ | ⟨tokens, rfl, -⟩ := (walk_iff_of_next hn).1 hw
      · rfl
      · simp at hdepth
  | case5 c d depth hn _ ih =>
    refine ih.trans ((exists_walk_iff hn ?_).trans ?_).symm
    · rintro ⟨-, -, hdepth⟩
      simp at hdepth
    · simp only [Nat.succ_eq_add_one, depth?_closing_succ]
  | case6 depth c token d hn ho hc ih =>
    refine ih.trans ((exists_walk_iff hn ?_).trans ?_).symm
    · rintro ⟨rfl, hq, -⟩
      exact hc ((standsAt_of_next hn).eq hq)
    · simp only [depth?_of_not_counts ho hc]

/-- A search that finds nothing has come to the place at which no token is read. -/
theorem exists_stops_of_closing? (h : ∀ q, closing? kind depth c ≠ .ok (some q)) :
    ∃ d, Stops c d ∧ closing? kind depth c = (next d).map (·.map Prod.snd) := by
  fun_induction closing? kind depth c with
  | case1 depth c err hn => exact ⟨c, .self (by simp [hn]), by rw [hn]; rfl⟩
  | case2 depth c hn => exact ⟨c, .self (by simp [hn]), by rw [hn]; rfl⟩
  | case4 c => exact absurd rfl (h c)
  | case3 _ _ _ hn ih | case5 _ _ _ hn _ ih | case6 _ _ _ _ hn _ _ ih =>
    obtain ⟨e, he, heq⟩ := ih h
    exact ⟨e, he.of_next hn, heq⟩

/-- The first token of the stream that has no end stands at the second place. -/
def Fault (c d : Cursor) : Prop :=
  (∃ tokens, Walk c tokens d) ∧ read d.rest = .unclosed

/-- A walk ends at the first token without an end, or at the end of the text if all have one. -/
theorem Stops.fault_or (h : Stops c d) :
    (Fault c d ∧ next d = .error (.unclosed .quotation (d.span 1))) ∨
      ((∀ e, ¬ Fault c e) ∧ next d = .ok none) := by
  obtain ⟨hr, hn⟩ | hn := next_of_stop h.2
  · exact .inl ⟨⟨h.1, hr⟩, hn⟩
  · refine .inr ⟨fun e ⟨hwalk, hr⟩ => ?_, hn⟩
    have he : next e = .error (.unclosed .quotation (e.span 1)) := by simp [next, hr]
    rw [h.unique ⟨hwalk, by simp [he]⟩, he] at hn
    cases hn

/-- Only one token is the first without an end. -/
theorem Fault.unique (hd : Fault c d) (he : Fault c e) : d = e :=
  Stops.unique ⟨hd.1, by simp [next, hd.2]⟩ ⟨he.1, by simp [next, he.2]⟩

/-! ## the end of a group -/

/-- A quotation or a comment: nothing in it is a token of its own. -/
def Token.isEnclosed : Token → Bool
  | .doubleQuoted | .singleQuoted | .backQuoted | .lineComment | .blockComment => true
  | _ => false

/-- A closing delimiter is found where the search for it finds one. -/
theorem findClosing_eq_ok_iff_closing? :
    findClosing kind c = .ok q ↔ closing? kind 0 c = .ok (some q) := by
  unfold findClosing
  split <;> simp [*]

/-- A closing delimiter is found where it closes the group that is open at the cursor. -/
theorem findClosing_eq_ok_iff : findClosing kind c = .ok q ↔ kind.Closes c q := by
  rw [findClosing_eq_ok_iff_closing?, closing?_eq_some_iff, Delimiter.Closes]
  simp only [balanced_filter_iff]

/-- A search that fails has found no delimiter that closes the group. -/
theorem not_closes_of_error (h : findClosing kind c = .error error) (q : Cursor) :
    ¬ kind.Closes c q := by
  intro hq
  rw [findClosing_eq_ok_iff.2 hq] at h
  cases h

/-- The search of a group that does not end comes to the first token without an end, or else to the
end of the text. -/
theorem closing?_of_not_closes (h : ∀ q, ¬ kind.Closes c q) :
    (∃ d, Fault c d ∧ closing? kind 0 c = .error (.unclosed .quotation (d.span 1))) ∨
      ((∀ d, ¬ Fault c d) ∧ closing? kind 0 c = .ok none) := by
  have hsearch : ∀ q, closing? kind 0 c ≠ .ok (some q) := fun q hq =>
    h q (findClosing_eq_ok_iff.1 (findClosing_eq_ok_iff_closing?.2 hq))
  obtain ⟨d, hd, heq⟩ := exists_stops_of_closing? hsearch
  obtain ⟨hfault, hn⟩ | ⟨hnone, hn⟩ := hd.fault_or
  · exact .inl ⟨d, hfault, by rw [heq, hn]; rfl⟩
  · exact .inr ⟨hnone, by rw [heq, hn]; rfl⟩

/-- What is reported of a group that does not end: the first token without an end, or else the
group itself. -/
theorem findClosing_eq_error (h : ∀ q, ¬ kind.Closes c q) :
    (∃ d, Fault c d ∧ findClosing kind c = .error (.unclosed .quotation (d.span 1))) ∨
      ((∀ d, ¬ Fault c d) ∧
        findClosing kind c = .error (.unclosed kind.construct ⟨c.offset - 1, c.offset⟩)) := by
  obtain ⟨d, hfault, hsearch⟩ | ⟨hnone, hsearch⟩ := closing?_of_not_closes h
  · exact .inl ⟨d, hfault, by rw [findClosing, hsearch]⟩
  · exact .inr ⟨hnone, by rw [findClosing, hsearch]⟩

/-- **A group ends at the one delimiter up to which the delimiters of its kind are balanced.**  If
there is none, the error points at the first token without an end, and else at the character before
the group.  What stands in a quotation or in a comment is no delimiter of the stream. -/
theorem findClosing_eq (kind : Delimiter) (c : Cursor) :
    (∀ q, findClosing kind c = .ok q ↔ kind.Closes c q) ∧
    (∀ q q', kind.Closes c q → kind.Closes c q' → q = q') ∧
    ((∀ q, ¬ kind.Closes c q) →
      (∀ d, Fault c d → findClosing kind c = .error (.unclosed .quotation (d.span 1))) ∧
      ((∀ d, ¬ Fault c d) →
        findClosing kind c = .error (.unclosed kind.construct ⟨c.offset - 1, c.offset⟩))) ∧
    ∀ u v d e p token, Walk c u d → next d = .ok (some (token, e)) → token.isEnclosed = true →
      Walk c v p → StandsAt kind.opening p ∨ StandsAt kind.closing p →
      p.offset < d.offset ∨ e.offset ≤ p.offset := by
  refine ⟨fun q => findClosing_eq_ok_iff, fun q q' hq hq' => ?_, fun h => ?_, ?_⟩
  · have hfound := findClosing_eq_ok_iff.2 hq
    rw [findClosing_eq_ok_iff.2 hq'] at hfound
    exact (Except.ok.inj hfound).symm
  · obtain ⟨d, hd, herror⟩ | ⟨hnone, herror⟩ := findClosing_eq_error h
    · refine ⟨fun d' hfault => ?_, fun hnone => absurd hd (hnone d)⟩
      rw [hfault.unique hd, herror]
    · exact ⟨fun d hfault => absurd hfault (hnone d), fun _ => herror⟩
  · intro u v d e p token hd hn htoken hp hdelimiter
    obtain hlt | rfl | hle := hd.lt_or_le hn hp
    · exact .inl hlt
    · -- the delimiter would be the quotation or comment itself
      have hkind : kind.opening.isEnclosed = false ∧ kind.closing.isEnclosed = false := by
        cases kind <;> exact ⟨rfl, rfl⟩
      obtain h | h := hdelimiter
      · rw [(standsAt_of_next hn).eq h, hkind.1] at htoken
        cases htoken
      · rw [(standsAt_of_next hn).eq h, hkind.2] at htoken
        cases htoken
    · exact .inr hle

/-- A parenthesis in a quotation is passed over. -/
example : (findClosing .paren ((Cursor.start "@(f(')') + 1) x".toList).advance 2)).map
    Cursor.offset = .ok 12 := by
  decide +kernel

end AtTemplate.Code
