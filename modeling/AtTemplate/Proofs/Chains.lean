import AtTemplate.Scan.Turn
import Mathlib.Data.List.TakeWhile

/-!
# AtTemplate.Proofs.Chains

An expression that begins with a name and goes on with members, indices and calls.  The grammar of
such chains is given link by link.  Each link is told by the text behind the one before it, so the
chains that begin at a place are the beginnings of one of them.

* `Links.total` — of two chains from one place, one goes on where the other ends;
* `chainEnd_cases` — the search for the end of a chain comes to the last of its links, or to a
  group that has no end;
* `atSign_of_implicit` — **an at sign before a name writes the longest chain, and fails exactly
  where a group that goes on with a chain has no end.**
-/

namespace AtTemplate.Scan

open Code Text

variable {s : State} {c d e : Cursor} {text rest : List Char} {m n : Nat}
  {error error' : TemplateError}

/-! ## links and chains -/

/-- A link of a chain stands between the two places: a member, or an index or a call with the group
that ends at its closing delimiter. -/
inductive Link (c : Cursor) : Cursor → Prop
  | member {rest : List Char} (hr : c.rest = '.' :: rest) (hn : takeName rest ≠ []) :
      Link c (c.advance (1 + (takeName rest).length))
  | group {x : Char} {rest : List Char} {kind : Delimiter} {close : Cursor}
      (hr : c.rest = x :: rest) (hx : linkGroup? x = some kind)
      (hc : findClosing kind (c.advance 1) = .ok close) : Link c (close.advance 1)

/-- `n` links stand between the two places, one behind the other. -/
inductive Links : Nat → Cursor → Cursor → Prop
  | nil (c : Cursor) : Links 0 c c
  | cons {c d e : Cursor} {n : Nat} (h : Link c d) (hs : Links n d e) : Links (n + 1) c e

/-- A chain stands between the two places: a name, and `n` links behind it. -/
def Chain (n : Nat) (c d : Cursor) : Prop :=
  takeName c.rest ≠ [] ∧ Links n (c.advance (takeName c.rest).length) d

/-- The group that a chain would go on with has no end. -/
def BreaksOff (c : Cursor) (error : TemplateError) : Prop :=
  ∃ x rest kind, c.rest = x :: rest ∧ linkGroup? x = some kind ∧
    findClosing kind (c.advance 1) = .error error

/-- Neither a group nor a member goes on with a chain. -/
def EndsChain (text : List Char) : Prop :=
  (∀ x rest, text = x :: rest → linkGroup? x = none) ∧
    ∀ rest, text = '.' :: rest → takeName rest = []

/-! ## one chain at each place -/

theorem linkGroup?_point : linkGroup? '.' = none := rfl

/-- A link is told by the text where it begins. -/
theorem Link.unique (hd : Link c d) (he : Link c e) : d = e := by
  cases hd <;> cases he <;> grind [linkGroup?_point]

/-- A chain does not break off at a link. -/
theorem Link.not_breaksOff (h : Link c d) : ¬ BreaksOff c error := by
  rintro ⟨x, rest, kind, hr, hx, herror⟩
  cases h <;> grind [linkGroup?_point]

/-- A chain does not end in front of a link. -/
theorem Link.not_endsChain (h : Link c d) : ¬ EndsChain c.rest := by
  rintro ⟨hgroup, hmember⟩
  cases h <;> grind

/-- A chain breaks off with one error. -/
theorem BreaksOff.unique (h : BreaksOff c error) (h' : BreaksOff c error') : error = error' := by
  obtain ⟨x, rest, kind, hr, hx, h⟩ := h
  obtain ⟨x', rest', kind', hr', hx', h'⟩ := h'
  grind

/-- A chain that breaks off does not end there. -/
theorem BreaksOff.not_endsChain (h : BreaksOff c error) : ¬ EndsChain c.rest := by
  obtain ⟨x, rest, kind, hr, hx, -⟩ := h
  rintro ⟨hgroup, -⟩
  grind

/-- A link passes a character at least. -/
theorem Link.lt (h : Link c d) : c.Reaches d ∧ d.rest.length < c.rest.length := by
  cases h with
  | member hr hn =>
    refine ⟨Cursor.reaches_advance _ _, ?_⟩
    simp only [Cursor.rest_advance, hr, List.length_drop, List.length_cons]
    omega
  | group hr hx hc =>
    have hreach := (reaches_of_findClosing hc).1
    refine ⟨((Cursor.reaches_advance 1 c).trans hreach).trans (Cursor.reaches_advance _ _), ?_⟩
    have hle := hreach.length_le
    simp only [Cursor.rest_advance, hr, List.length_drop, List.length_cons] at hle ⊢
    omega

/-- **There are no more links than characters.** -/
theorem Links.le (h : Links n c d) : c.Reaches d ∧ n + d.rest.length ≤ c.rest.length := by
  induction h with
  | nil c => exact ⟨.refl c, by simp⟩
  | cons hl _ ih =>
    obtain ⟨hreach, hlt⟩ := hl.lt
    exact ⟨hreach.trans ih.1, by omega⟩

/-- **Of two chains from one place, one goes on where the other ends.** -/
theorem Links.total (hd : Links m c d) (he : Links n c e) :
    (∃ k, Links k d e) ∨ ∃ k, Links k e d := by
  induction hd generalizing n with
  | nil c => exact .inl ⟨n, he⟩
  | cons h hs ih =>
    cases he with
    | nil => exact .inr ⟨_, .cons h hs⟩
    | cons h' hs' =>
      cases h.unique h'
      exact ih hs'

/-- A chain that no link goes on with comes as far as any other from its place. -/
theorem Links.of_last (hd : Links m c d) (he : Links n c e) (hlast : ∀ f, ¬ Link e f) :
    ∃ k, Links k d e := by
  obtain h | ⟨k, h⟩ := hd.total he
  · exact h
  · cases h with
    | nil => exact ⟨0, .nil _⟩
    | cons hl => exact absurd hl (hlast _)

/-- Only one chain from a place is one that no link goes on with. -/
theorem Links.eq_of_last (hd : Links m c d) (he : Links n c e) (hlast : ∀ f, ¬ Link d f)
    (hlast' : ∀ f, ¬ Link e f) : d = e := by
  obtain ⟨k, h⟩ := hd.of_last he hlast'
  cases h with
  | nil => rfl
  | cons hl => exact absurd hl (hlast _)

/-! ## the search -/

/-- **The search for the end of a chain comes to the last of its links, or to a group that has no
end.** -/
theorem chainEnd_cases (c : Cursor) :
    (∃ n d, Links n c d ∧ EndsChain d.rest ∧ chainEnd c = .ok d) ∨
      ∃ n d error, Links n c d ∧ BreaksOff d error ∧ chainEnd c = .error error := by
  fun_induction chainEnd c with
  | case1 c hr =>
    refine .inl ⟨0, c, .nil c, ?_, rfl⟩
    simp [EndsChain, hr]
  | case2 c rest hname hr =>
    refine .inl ⟨0, c, .nil c, ⟨fun x tail hx => ?_, fun tail hx => ?_⟩, rfl⟩
    all_goals
      rw [hr] at hx
      cases hx
    · rfl
    · exact hname
  | case3 c rest hname hr ih =>
    have hlink : Link c _ := .member hr hname
    obtain ⟨n, d, hs, hend, hfound⟩ | ⟨n, d, error, hs, hbreak, hfound⟩ := ih
    · exact .inl ⟨n + 1, d, .cons hlink hs, hend, hfound⟩
    · exact .inr ⟨n + 1, d, error, .cons hlink hs, hbreak, hfound⟩
  | case4 c x rest hr hpoint hgroup =>
    refine .inl ⟨0, c, .nil c, ⟨fun y tail hy => ?_, fun tail hy => ?_⟩, rfl⟩
    all_goals
      rw [hr] at hy
      cases hy
    · exact hgroup
    · exact absurd rfl hpoint
  | case5 c x rest hr hpoint kind hgroup error herror =>
    exact .inr ⟨0, c, error, .nil c, ⟨x, rest, kind, hr, hgroup, herror⟩, rfl⟩
  | case6 c x rest hr hpoint kind hgroup close hclose ih =>
    have hlink : Link c _ := .group hr hgroup hclose
    obtain ⟨n, d, hs, hend, hfound⟩ | ⟨n, d, error, hs, hbreak, hfound⟩ := ih
    · exact .inl ⟨n + 1, d, .cons hlink hs, hend, hfound⟩
    · exact .inr ⟨n + 1, d, error, .cons hlink hs, hbreak, hfound⟩

/-- With other characters no chain goes on. -/
theorem endsChain_of_head (h : ∀ c, text.head? = some c → c ∉ ['.', '[', '(']) :
    EndsChain text := by
  constructor
  · rintro x rest rfl
    have hx := h x rfl
    unfold linkGroup?
    split
    · exact absurd hx (by decide)
    · exact absurd hx (by decide)
    · rfl
  · rintro rest rfl
    exact absurd (h '.' rfl) (by decide)

/-- Where nothing goes on with a chain, its end is found at once. -/
theorem chainEnd_of_endsChain (h : EndsChain c.rest) : chainEnd c = .ok c := by
  obtain ⟨n, d, hs, -, hfound⟩ | ⟨n, d, error, hs, hbreak, -⟩ := chainEnd_cases c
  · cases hs with
    | nil => exact hfound
    | cons hl => exact absurd h hl.not_endsChain
  · cases hs with
    | nil => exact absurd h hbreak.not_endsChain
    | cons hl => exact absurd h hl.not_endsChain

/-- The search ends at the last link of the longest chain. -/
theorem links_of_chainEnd (h : chainEnd c = .ok d) : EndsChain d.rest ∧ ∃ n, Links n c d := by
  obtain ⟨n, e, hs, hend, hfound⟩ | ⟨n, e, error, hs, hbreak, hfound⟩ := chainEnd_cases c
  · rw [hfound] at h
    cases h
    exact ⟨hend, n, hs⟩
  · rw [hfound] at h
    cases h

/-- **The search fails exactly where a chain breaks off.** -/
theorem chainEnd_eq_error_iff :
    chainEnd c = .error error ↔ ∃ n d, Links n c d ∧ BreaksOff d error := by
  obtain ⟨n, e, hs, hend, hfound⟩ | ⟨n, e, error', hs, hbreak, hfound⟩ := chainEnd_cases c
  · rw [hfound]
    refine iff_of_false nofun ?_
    rintro ⟨m, d, hs', hbreak⟩
    obtain rfl := hs'.eq_of_last hs (fun f hf => hf.not_breaksOff hbreak)
      (fun f hf => hf.not_endsChain hend)
    exact hbreak.not_endsChain hend
  · rw [hfound, Except.error.injEq]
    constructor
    · rintro rfl
      exact ⟨n, e, hs, hbreak⟩
    · rintro ⟨m, d, hs', hbreak'⟩
      obtain rfl := hs'.eq_of_last hs (fun f hf => hf.not_breaksOff hbreak')
        (fun f hf => hf.not_breaksOff hbreak)
      exact hbreak.unique hbreak'

/-! ## the last character of a chain -/

/-- A name is made of characters of names. -/
theorem isNameChar_of_mem_takeName {x : Char} (h : x ∈ takeName text) : isNameChar x = true := by
  cases text with
  | nil => cases h
  | cons y text =>
    simp only [takeName] at h
    split at h
    · next hy =>
      obtain rfl | h := List.mem_cons.1 h
      · exact isNameChar_of_isNameStart hy
      · exact List.mem_takeWhile_imp h
    · cases h

/-- No name ends with a point. -/
theorem getLast?_takeName (h : takeName text ≠ []) :
    ∃ x, (takeName text).getLast? = some x ∧ x ≠ '.' := by
  refine ⟨(takeName text).getLast h, List.getLast?_eq_some_getLast h, fun hpoint => ?_⟩
  have hname := isNameChar_of_mem_takeName (List.getLast_mem h)
  rw [hpoint] at hname
  exact absurd hname (by decide)

/-- The last character of a text that was moved over stands before the place behind it. -/
theorem previous?_of_getLast? {x : Char} (h : (c.rest.take n).getLast? = some x) :
    (c.advance n).previous? = some x := by
  rw [Cursor.previous?, Cursor.before_advance, List.head?_append, List.head?_reverse, h]
  rfl

theorem take_length_takeName (text : List Char) :
    text.take (takeName text).length = takeName text :=
  (List.prefix_iff_eq_take.1 ⟨_, takeName_append_drop text⟩).symm

/-- No link ends with a point. -/
theorem Link.previous? (h : Link c d) : ∃ x, d.previous? = some x ∧ x ≠ '.' := by
  cases h with
  | @member rest hr hn =>
    obtain ⟨x, hx, hpoint⟩ := getLast?_takeName hn
    refine ⟨x, previous?_of_getLast? ?_, hpoint⟩
    rw [hr, Nat.add_comm, List.take_succ_cons, take_length_takeName, List.getLast?_cons, hx]
    rfl
  | @group x rest kind close hr hx hc =>
    obtain ⟨y, hy, hpoint⟩ : ∃ y, single? y = some kind.closing ∧ y ≠ '.' := by
      cases kind
      · exact ⟨')', rfl, by decide⟩
      · exact ⟨']', rfl, by decide⟩
      · exact ⟨'}', rfl, by decide⟩
    obtain ⟨tail, htail⟩ := rest_of_standsAt hy (reaches_of_findClosing hc).2
    refine ⟨y, previous?_of_getLast? ?_, hpoint⟩
    rw [htail]
    rfl

/-- No point stands before the end of links that do not begin behind one. -/
theorem Links.previous? (h : Links n c d) (hc : ∃ x, c.previous? = some x ∧ x ≠ '.') :
    ∃ x, d.previous? = some x ∧ x ≠ '.' := by
  induction h with
  | nil => exact hc
  | cons hl _ ih => exact ih hl.previous?

/-- A chain leads ahead by more characters than it has links. -/
theorem Chain.lt (h : Chain n c d) : c.Reaches d ∧ n + d.rest.length < c.rest.length := by
  obtain ⟨hname, hlinks⟩ := h
  obtain ⟨hreach, hle⟩ := hlinks.le
  refine ⟨(Cursor.reaches_advance _ c).trans hreach, ?_⟩
  have hpos := List.length_pos_iff.2 hname
  have hshort := length_takeName_le c.rest
  rw [Cursor.rest_advance, List.length_drop] at hle
  omega

/-- No chain ends with a point. -/
theorem Chain.getLast?_textTo (h : Chain n c d) :
    ∃ x, (c.textTo d).getLast? = some x ∧ x ≠ '.' := by
  have hname : ∃ x, (c.advance (takeName c.rest).length).previous? = some x ∧ x ≠ '.' := by
    obtain ⟨x, hx, hpoint⟩ := getLast?_takeName h.1
    exact ⟨x, previous?_of_getLast? (by rwa [take_length_takeName]), hpoint⟩
  obtain ⟨x, hx, hpoint⟩ := h.2.previous? hname
  obtain ⟨⟨k, rfl⟩, hlt⟩ := h.lt
  have hne : c.rest.take k ≠ [] := by
    intro hnil
    have htake := congrArg List.length hnil
    rw [Cursor.rest_advance, List.length_drop] at hlt
    rw [List.length_take, List.length_nil] at htake
    omega
  have hlast := List.getLast?_eq_some_getLast hne
  rw [previous?_of_getLast? hlast, Option.some.injEq] at hx
  exact ⟨x, by rw [Cursor.textTo_advance, hlast, hx], hpoint⟩

/-! ## the expression -/

/-- An expression that begins with a name is written through the end of the longest chain. -/
theorem chain_of_implicitExpression {move : Move} (hname : takeName (s.cursor.advance 1).rest ≠ [])
    (h : s.implicitExpression = .ok move) :
    ∃ n stop, move = ⟨[.expression ((s.cursor.advance 1).textTo stop)], ⟨stop, s.stack⟩⟩ ∧
      Chain n (s.cursor.advance 1) stop ∧ EndsChain stop.rest := by
  simp only [State.implicitExpression] at h
  split at h
  · cases h
  · next stop hstop =>
    cases h
    obtain ⟨hend, n, hlinks⟩ := links_of_chainEnd hstop
    exact ⟨n, stop, rfl, ⟨hname, hlinks⟩, hend⟩

/-- It fails exactly where a chain breaks off. -/
theorem implicitExpression_eq_error_iff (hname : takeName (s.cursor.advance 1).rest ≠ []) :
    s.implicitExpression = .error error ↔
      ∃ n d, Chain n (s.cursor.advance 1) d ∧ BreaksOff d error := by
  let name := s.cursor.advance 1
  have hsearch : s.implicitExpression = .error error ↔
      chainEnd (name.advance (takeName name.rest).length) = .error error := by
    simp only [State.implicitExpression]
    split <;> simp_all [name]
  rw [hsearch, chainEnd_eq_error_iff]
  simp only [Chain, and_iff_right hname, name]

/-- A chain does not end in front of a group. -/
theorem EndsChain.head?_ne {x : Char} {kind : Delimiter} (h : EndsChain text)
    (hx : linkGroup? x = some kind) : text.head? ≠ some x := by
  intro hhead
  obtain ⟨rest, hr⟩ := List.head?_eq_some_iff.1 hhead
  rw [h.1 x rest hr] at hx
  cases hx

/-- A chain does not end in front of a member. -/
theorem EndsChain.isNameStart_eq_false {x : Char} (h : EndsChain ('.' :: x :: rest)) :
    isNameStart x = false := by
  have hnone := h.2 _ rfl
  by_contra hstart
  exact takeName_ne_nil_iff.2 ⟨x, rest, rfl, by simpa using hstart⟩ hnone

/-- Every chain from a place is the beginning of one that no link goes on with. -/
theorem Chain.textTo_prefix (hd : Chain m c d) (he : Chain n c e) (hend : EndsChain e.rest) :
    c.textTo d <+: c.textTo e := by
  obtain ⟨k, hs⟩ := hd.2.of_last he.2 fun f hf => hf.not_endsChain hend
  exact ⟨d.textTo e, hd.lt.1.textTo_append hs.le.1⟩

/-- An at sign that introduces an expression of this kind stands before a name. -/
theorem takeName_of_implicit {previous? : Option Char}
    (h : Directive.resolve previous? text = .implicit) : takeName text ≠ [] := by
  unfold Directive.resolve at h
  split at h <;> try cases h
  split at h
  · cases h
  · next hstart => exact takeName_ne_nil_iff.2 ⟨_, _, rfl, by simpa using hstart⟩

/-- **An at sign before a name writes the longest chain that begins there** and goes on behind it:
every other chain is a beginning of it, it does not end with a point, and no group and no member
follows.  It fails exactly where a chain comes to a group that has no end, and then as the search
for that end does.  A chain has fewer links than there are characters. -/
theorem atSign_of_implicit (hd : s.Introduces .implicit) :
    (∀ move, s.atSign = .ok move → ∃ n text stop,
      move = ⟨[.expression text], ⟨stop, s.stack⟩⟩ ∧ s.rest = '@' :: (text ++ stop.rest) ∧
      Chain n (s.cursor.advance 1) stop ∧ (s.cursor.advance 1).textTo stop = text ∧
      (∀ m d, Chain m (s.cursor.advance 1) d → (s.cursor.advance 1).textTo d <+: text) ∧
      text.getLast? ≠ some '.' ∧ stop.rest.head? ≠ some '[' ∧ stop.rest.head? ≠ some '(' ∧
      ∀ x rest, stop.rest = '.' :: x :: rest → isNameStart x = false) ∧
    (∀ error, s.atSign = .error error ↔
      ∃ n d, Chain n (s.cursor.advance 1) d ∧ BreaksOff d error) ∧
    ∀ n d, Chain n (s.cursor.advance 1) d → n < (s.cursor.advance 1).rest.length := by
  obtain ⟨tail, htail⟩ := List.head?_eq_some_iff.1 hd.1
  have hbehind : (s.cursor.advance 1).rest = s.rest.tail := by
    rw [Cursor.rest_advance, List.drop_one]
    rfl
  have hname : takeName (s.cursor.advance 1).rest ≠ [] := by
    rw [hbehind]
    exact takeName_of_implicit hd.2
  have hatSign : s.atSign = s.implicitExpression := by
    rw [State.atSign, hd.2]
  rw [hatSign]
  refine ⟨fun move hmove => ?_, fun error => implicitExpression_eq_error_iff hname,
    fun n d h => ?_⟩
  · obtain ⟨n, stop, rfl, hchain, hend⟩ := chain_of_implicitExpression hname hmove
    obtain ⟨x, hlast, hpoint⟩ := hchain.getLast?_textTo
    have hrest : s.rest = '@' :: ((s.cursor.advance 1).textTo stop ++ stop.rest) := by
      rw [hchain.lt.1.textTo_append_rest, hbehind, htail]
      rfl
    have hlast : ((s.cursor.advance 1).textTo stop).getLast? ≠ some '.' := by
      rw [hlast]
      simpa using hpoint
    exact ⟨n, _, stop, rfl, hrest, hchain, rfl, fun m d h => h.textTo_prefix hchain hend, hlast,
      hend.head?_ne rfl, hend.head?_ne rfl, fun x rest hr => (hr ▸ hend).isNameStart_eq_false⟩
  · have hshort := h.lt.2
    omega

/-- The point behind a call ends the sentence, not the chain; a call that is left open is reported
where the chain comes to it. -/
theorem atSign_of_member :
    (∃ n stop, Chain n ((State.start "@a.b[']'].f(x). Yes".toList).cursor.advance 1) stop ∧
      stop.rest = ". Yes".toList ∧
      ∀ m d, Chain m ((State.start "@a.b[']'].f(x). Yes".toList).cursor.advance 1) d →
        ((State.start "@a.b[']'].f(x). Yes".toList).cursor.advance 1).textTo d <+:
          "a.b[']'].f(x)".toList) ∧
    ∃ n d, Chain n ((State.start "@a.b(c".toList).cursor.advance 1) d ∧
      BreaksOff d (.unclosed .parenthesis ⟨4, 5⟩) := by
  let s := State.start "@a.b[']'].f(x). Yes".toList
  let t := State.start "@a.b(c".toList
  have hs : s.Introduces .implicit := by decide +kernel
  have ht : t.Introduces .implicit := by decide +kernel
  have hmove : s.atSign = .ok ⟨[.expression "a.b[']'].f(x)".toList], s.skip 14⟩ := by
    decide +kernel
  have herror : t.atSign = .error (.unclosed .parenthesis ⟨4, 5⟩) := by decide +kernel
  obtain ⟨n, text, stop, heq, -, hchain, -, hlongest, -⟩ := (atSign_of_implicit hs).1 _ hmove
  cases heq
  exact ⟨⟨n, _, hchain, by decide +kernel, hlongest⟩, ((atSign_of_implicit ht).2.1 _).1 herror⟩

end AtTemplate.Scan
