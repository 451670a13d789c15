import AtTemplate.Scan.Step

/-!
# AtTemplate.Scan.Turn

What a step of a scan can do.  `State.Turn` has one rule for each way in which a step leads on;
what is shown of every step is shown of every rule.

* `turn_of_step` — a step before the end of the source follows one of the rules;
* `step_of_at` — an at sign is looked at alike in all frames.
-/

namespace AtTemplate.Scan

open Code Text
open AtTemplate.Markup

namespace State

/-- An at sign stands at the cursor, and it introduces `d`. -/
def Introduces (s : State) (d : Directive) : Prop :=
  s.rest.head? = some '@' ∧ Directive.ofCursor s.cursor = d

instance (s : State) (d : Directive) : Decidable (s.Introduces d) :=
  inferInstanceAs (Decidable (_ ∧ _))

/-- The state in the frames around a block of code, of which `text` is the last token. -/
def outOf (s : State) (text : List Char) (below : List Frame) : State :=
  (s.skip text.length).within below

@[simp] theorem cursor_outOf (s : State) (text : List Char) (below : List Frame) :
    (s.outOf text below).cursor = s.cursor.advance text.length := rfl

/-- Behind a token stands what is left of the text once the token is cut off. -/
theorem rest_outOf {s : State} {kind : Token} {text rest : List Char}
    (h : Code.read s.rest = .token kind text rest) (below : List Frame) :
    (s.outOf text below).rest = rest := by
  rw [outOf, rest_within, rest_skip, ← Reading.append_of_read h, List.drop_left]

/-- The state at the next character that is not blank. -/
def skipBlanks (s : State) : State :=
  s.skip (leadingBlanks s.rest).length

@[simp] theorem cursor_skipBlanks (s : State) :
    s.skipBlanks.cursor = s.cursor.advance (leadingBlanks s.rest).length := rfl

@[simp] theorem frames_skipBlanks (s : State) : s.skipBlanks.frames = s.frames := rfl

@[simp] theorem rest_skipBlanks (s : State) : s.skipBlanks.rest = trimStart s.rest := by
  rw [skipBlanks, rest_skip, drop_length_leadingBlanks]

/-- The ways in which a step leads on from a state. -/
inductive Turn (s : State) : Move → Prop
  /-- Two at signs are one of text. -/
  | doubled (hd : s.Introduces .doubled) : Turn s ⟨[.text ['@']], s.skip 2⟩
  /-- An at sign that introduces nothing. -/
  | plain (hd : s.Introduces .plain) : Turn s s.plainSign
  /-- The rest of the line is text. -/
  | lineEscape (hd : s.Introduces .lineEscape) : Turn s s.escapeLine
  /-- A comment is left out. -/
  | comment {found : List Char} (hd : s.Introduces .comment)
      (hc : before? ['*', '@'] (s.rest.drop 2) = some found) :
      Turn s ⟨[], s.skip (2 + (found.length + 2))⟩
  /-- An expression in parentheses. -/
  | explicit {close : Cursor} (hd : s.Introduces .explicit)
      (hc : findClosing .paren (s.cursor.advance 2) = .ok close) :
      Turn s ⟨[.expression ((s.cursor.advance 2).textTo close)], ⟨close.advance 1, s.stack⟩⟩
  /-- An expression that begins with a name. -/
  | implicit {stop : Cursor} (hd : s.Introduces .implicit)
      (hc : chainEnd ((s.cursor.advance 1).advance (takeName (s.cursor.advance 1).rest).length) =
        .ok stop) :
      Turn s ⟨[.expression ((s.cursor.advance 1).textTo stop)], ⟨stop, s.stack⟩⟩
  /-- A clause begins a statement. -/
  | clause {keyword : Keyword} {brace : Cursor} (hd : s.Introduces (.clause keyword))
      (hb : (s.yieldToCode.skip 1).clauseBody keyword = .ok brace) :
      Turn s ((s.yieldToCode.skip 1).enterClause keyword brace)
  /-- A block of code without a clause. -/
  | openBlock (hd : s.Introduces .anonymousBlock) : Turn s s.yieldToCode.openBlock
  /-- Outside of any block nothing is closed. -/
  | closeNothing (hd : s.Introduces .closeBlock)
      (hf : FrameStack.splitAtBlock? s.frames = none) : Turn s ⟨[.text ['@', '}']], s.skip 2⟩
  /-- The innermost block is closed with all that lies in it. -/
  | closeInnermost {above below : List Frame} {block : BlockFrame} (hd : s.Introduces .closeBlock)
      (hf : FrameStack.splitAtBlock? s.frames = some (above, block, below))
      (hu : above.findSome? Frame.unclosed? = none) :
      Turn s ⟨[.closing (max 1 block.balance.braces.toNat)], (s.skip 2).within below⟩
  /-- Markup after an at sign. -/
  | openMarkup (hd : s.Introduces .markup) : Turn s s.yieldToCode.openMarkup
  /-- Text of the template or of markup within code is copied. -/
  | copy {n : Nat} (hn : 0 < n) (hs : s.rest.head? ≠ some '@') (hb : s.inBlock = false)
      (ha : s.inMarkup = true → s.rest.head? = some '<' → n = 1 ∨ commentOpening <+: s.rest) :
      Turn s (s.copy n)
  /-- Markup takes over from code. -/
  | enterMarkup {block : BlockFrame} {below : List Frame} (hf : s.frames = .block block :: below)
      (hp : block.balance.inParens = false) (hm : startsMarkup s.rest = true) :
      Turn s ⟨[], s.push (.markup (.opened s.cursor.offset))⟩
  /-- A token within a block. -/
  | token {block : BlockFrame} {below : List Frame} {kind : Token} {text rest : List Char}
      (hf : s.frames = .block block :: below) (hr : Code.read s.rest = .token kind text rest)
      (hk : kind ≠ .at) (hc : (block.balance.feed kind).isClosed = false) :
      Turn s ⟨[.token kind text], s.outOf text
        (.block { block with balance := block.balance.feed kind } :: below)⟩
  /-- The last token of a block, after which its statement ends. -/
  | lastToken {block : BlockFrame} {below : List Frame} {kind : Token} {text rest : List Char}
      (hf : s.frames = .block block :: below) (hr : Code.read s.rest = .token kind text rest)
      (hk : kind ≠ .at) (hc : (block.balance.feed kind).isClosed = true) :
      Turn s ⟨[.token kind text], s.outOf text below⟩
  /-- The last token of a block, after which a clause continues its statement. -/
  | nextClause {block : BlockFrame} {below : List Frame} {kind : Token} {text rest : List Char}
      {keyword next : Keyword} {brace : Cursor}
      (hf : s.frames = .block block :: below) (hr : Code.read s.rest = .token kind text rest)
      (hk : kind ≠ .at) (hc : (block.balance.feed kind).isClosed = true)
      (hw : block.clause? = some keyword)
      (hn : Keyword.ofLetters? (takeName (trimStart rest)) = some next)
      (hcont : keyword.continuedBy next = true)
      (hhead : next.headsClause ((trimStart rest).drop next.letters.length) = true)
      (hb : (s.outOf text below).skipBlanks.clauseBody next = .ok brace) :
      Turn s (((s.outOf text below).skipBlanks.enterClause next brace).precede
        [.token kind text, .blanks (leadingBlanks rest)])
  /-- Markup in which nothing is open ends with its line. -/
  | endLine {markup : MarkupFrame} {below : List Frame} (hf : s.frames = .markup markup :: below)
      (hm : markup.isSettled = true) (hs : s.rest.head? = some '\n') : Turn s (s.endLine below)
  /-- Markup in which nothing is open gives way to code before a closing brace. -/
  | leaveMarkup {markup : MarkupFrame} {below : List Frame}
      (hf : s.frames = .markup markup :: below) (hm : markup.isSettled = true)
      (hs : s.rest.head? = some '}') : Turn s ⟨[], s.within below⟩
  /-- Text without an element of its own begins. -/
  | openText {markup : MarkupFrame} {below : List Frame} (hf : s.frames = .markup markup :: below)
      (ht : markup.inText = false) (hs : textOpening <+: s.rest) :
      Turn s ⟨[], (s.skip textOpening.length).within
        (.markup { markup with inText := true } :: below)⟩
  /-- Text without an element of its own ends. -/
  | closeText {markup : MarkupFrame} {below : List Frame} (hf : s.frames = .markup markup :: below)
      (ht : markup.inText = true) (hs : textClosing <+: s.rest) :
      Turn s ⟨[], (s.skip textClosing.length).within
        (.markup { markup with inText := false } :: below)⟩
  /-- A closing tag ends the innermost element. -/
  | closingTag {markup : MarkupFrame} {below : List Frame} {tagEnd : Cursor} {element : Element}
      {elements : OpenElements} (hf : s.frames = .markup markup :: below)
      (ht : markup.inText = false) (hs : ['<', '/'] <+: s.rest) (hn : closingName s.rest ≠ [])
      (he : tagEnd = (s.cursor.advance (2 + (closingName s.rest).length)).advance
        ((leadingBlanks (s.rest.drop (2 + (closingName s.rest).length))).length + 1))
      (hc : markup.elements.close (String.ofList (closingName s.rest)) (s.cursor.spanTo tagEnd) =
        (.ok element, elements)) :
      Turn s ⟨[.text (s.cursor.textTo tagEnd)],
        ⟨tagEnd, ⟨.markup { markup with elements := elements } :: below⟩⟩⟩
  /-- An opening tag begins. -/
  | openingTag {markup : MarkupFrame} {below : List Frame} (hf : s.frames = .markup markup :: below)
      (ht : markup.inText = false) (hs : ¬ textOpening <+: s.rest)
      (hn : openingName s.rest ≠ []) : Turn s (s.openingTag (openingName s.rest))
  /-- An attribute value begins. -/
  | openValue {name : String} {span : Span} {below : List Frame} {c : Char}
      (hf : s.frames = .tag name span :: below) (hs : s.rest.head? = some c)
      (hc : c = '"' ∨ c = '\'') :
      Turn s ⟨[.text [c]], (s.skip 1).push (.attributeValue c s.cursor.offset)⟩
  /-- An opening tag ends and its element is open. -/
  | endTag {name : String} {span : Span} {markup : MarkupFrame} {outer : List Frame}
      (hf : s.frames = .tag name span :: .markup markup :: outer) (hs : s.rest.head? = some '>') :
      Turn s ⟨[.text ['>']], (s.skip 1).within
        (.markup { markup with elements := markup.elements.openElement name span } :: outer)⟩
  /-- An opening tag ends that closes itself. -/
  | endSelfClosing {name : String} {span : Span} {markup : MarkupFrame} {outer : List Frame}
      (hf : s.frames = .tag name span :: .markup markup :: outer) (hs : ['/', '>'] <+: s.rest) :
      Turn s ⟨[.text ['/', '>']], (s.skip 2).within (.markup markup :: outer)⟩
  /-- An attribute value ends. -/
  | closeValue {quote : Char} {openedAt : Nat} {below : List Frame}
      (hf : s.frames = .attributeValue quote openedAt :: below) (hs : s.rest.head? = some quote)
      (hq : quote ≠ '@') : Turn s ⟨[.text [quote]], (s.skip 1).within below⟩
  /-- A tag that does not lie in markup is given up. -/
  | loseTag {name : String} {span : Span} {below : List Frame} {n : Nat}
      (hf : s.frames = .tag name span :: below) (hb : (below.head?.any Frame.isMarkup) = false)
      (hn : 0 < n) : Turn s ⟨(s.copy n).written, (s.skip n).within below⟩
  /-- The frame of a construct that is read as a whole is given up. -/
  | loseWhole {frame : Frame} {below : List Frame} (hf : s.frames = frame :: below)
      (hw : frame.isWhole = true) : Turn s (.stay (s.within below))

variable {s : State} {m : Move}

/-! ## at signs -/

/-- A clause opens at the brace of its body. -/
theorem turn_of_openClause {keyword : Keyword} {t : State}
    (h : t.openClause keyword = .ok m) :
    ∃ brace, t.clauseBody keyword = .ok brace ∧ m = t.enterClause keyword brace := by
  unfold openClause at h
  split at h
  · cases h
  · next brace hb =>
    cases h
    exact ⟨brace, hb, rfl⟩

/-- Each directive is done with by one rule; only a brace that closes a block has two, with a block
open and without. -/
theorem turn_of_atSign (hs : s.rest.head? = some '@') (h : s.atSign = .ok m) : s.Turn m := by
  unfold atSign at h
  split at h
  case h_1 hd => cases h; exact .doubled ⟨hs, hd⟩
  case h_2 hd => cases h; exact .plain ⟨hs, hd⟩
  case h_3 hd => cases h; exact .lineEscape ⟨hs, hd⟩
  case h_4 hd =>
    unfold passComment at h
    split at h
    · cases h
    · next hc => cases h; exact .comment ⟨hs, hd⟩ hc
  case h_5 hd =>
    simp only [explicitExpression] at h
    split at h
    · cases h
    · next hc => cases h; exact .explicit ⟨hs, hd⟩ hc
  case h_6 hd =>
    simp only [implicitExpression] at h
    split at h
    · cases h
    · next hc => cases h; exact .implicit ⟨hs, hd⟩ hc
  case h_7 hd =>
    obtain ⟨brace, hb, rfl⟩ := turn_of_openClause h
    exact .clause ⟨hs, hd⟩ hb
  case h_8 hd => cases h; exact .openBlock ⟨hs, hd⟩
  case h_9 hd =>
    unfold closeInnermost at h
    split at h
    · next hf => cases h; exact .closeNothing ⟨hs, hd⟩ hf
    · next hf =>
      split at h
      · cases h
      · next hu => cases h; exact .closeInnermost ⟨hs, hd⟩ hf hu
  case h_10 hd => cases h; exact .openMarkup ⟨hs, hd⟩

/-- The keyword of a clause stands behind its at sign. -/
theorem takeName_of_introduces {keyword : Keyword} (hd : s.Introduces (.clause keyword)) :
    takeName (s.yieldToCode.skip 1).rest = keyword.letters := by
  rw [rest_skip, rest_yieldToCode, List.drop_one]
  exact Directive.takeName_of_clause hd.2

/-! ## the template's own text -/

/-- The state is in a block where the innermost frame is one. -/
theorem inBlock_eq (s : State) : s.inBlock = s.frames.head?.any Frame.isBlock := by
  cases hf : s.stack.frames <;> simp [inBlock, FrameStack.top?, frames, hf]

/-- The state is in markup where the innermost frame is one. -/
theorem inMarkup_eq (s : State) : s.inMarkup = s.frames.head?.any Frame.isMarkup := by
  cases hf : s.stack.frames <;> simp [inMarkup, FrameStack.top?, frames, hf]

/-- In a block, the innermost frame is a block. -/
theorem exists_block_of_inBlock (h : s.inBlock = true) :
    ∃ b below, s.frames = .block b :: below := by
  rw [inBlock_eq] at h
  cases hf : s.frames with
  | nil => rw [hf] at h; cases h
  | cons f below =>
    rw [hf] at h
    cases f with
    | block b => exact ⟨b, below, rfl⟩
    | _ => cases h

/-- Outside of all frames an at sign is looked at, and all up to the next one is copied. -/
theorem turn_of_stepText (hf : s.frames = []) (hs : s.rest ≠ []) (h : s.stepText = .ok m) :
    s.Turn m := by
  unfold stepText at h
  split at h
  · next h0 => exact absurd h0 hs
  · next c rest hc =>
    split at h
    · next hat => exact turn_of_atSign (by rw [hc, hat]; rfl) h
    · next hat =>
      cases h
      refine .copy ?_ ?_ ?_ ?_
      · simp [hc, hat]
      · simp [hc, hat]
      · simp [inBlock_eq, hf]
      · simp [inMarkup_eq, hf]

/-! ## blocks of code -/

/-- Only an at sign is read as one. -/
theorem head?_of_read_at {text t rest : List Char} (h : Code.read text = .token .at t rest) :
    text.head? = some '@' := by
  rw [(Reading.eq_of_read_single (c := '@') rfl h).2]
  rfl

/-- Behind a block, either nothing goes on or the next word is a keyword that may go on, with the
head of its clause and a body. -/
theorem turn_of_continueClause {keyword : Keyword} {t : State}
    (h : t.continueClause keyword = .ok m) :
    m = .stay t ∨ ∃ next brace, Keyword.ofLetters? (takeName (trimStart t.rest)) = some next ∧
      keyword.continuedBy next = true ∧
      next.headsClause ((trimStart t.rest).drop next.letters.length) = true ∧
      t.skipBlanks.clauseBody next = .ok brace ∧
      m = (t.skipBlanks.enterClause next brace).precede [.blanks (leadingBlanks t.rest)] := by
  simp only [continueClause] at h
  split at h
  · cases h; exact .inl rfl
  · next next hn =>
    split at h
    · next hc =>
      rw [Bool.and_eq_true] at hc
      obtain ⟨m', hm', rfl⟩ := Outcome.precede_eq_ok_iff.1 h
      obtain ⟨brace, hb, rfl⟩ := turn_of_openClause hm'
      have hl := Keyword.ofLetters?_eq_some_iff.1 hn
      exact .inr ⟨next, brace, hn, hc.1, by rw [hl]; exact hc.2, hb, rfl⟩
    · cases h; exact .inl rfl

/-- In a block an at sign is looked at, markup is entered, or a token is written, which may be the
last one of the block. -/
theorem turn_of_stepBlock {block : BlockFrame} {below : List Frame} (hs : s.rest ≠ [])
    (hf : s.frames = .block block :: below) (h : s.stepBlock id block below = .ok m) :
    s.Turn m := by
  unfold stepBlock at h
  split at h
  · next h0 => exact absurd (Reading.read_eq_finished_iff.1 h0) hs
  · cases h
  · next kind text rest hr =>
    split at h
    · next hk => exact turn_of_atSign (head?_of_read_at (hk ▸ hr)) h
    · next hk =>
      split at h
      · next ha =>
        cases h
        exact .enterMarkup hf (by simpa using ha.2.1) ha.2.2
      · simp only at h
        split at h
        · next hc =>
          obtain ⟨m', hm', rfl⟩ := Outcome.precede_eq_ok_iff.1 h
          change (s.outOf text below).afterBlock _ = _ at hm'
          unfold afterBlock at hm'
          split at hm'
          · cases hm'
            exact .lastToken hf hr hk hc
          · next keyword hw =>
            obtain rfl | ⟨next, brace, hn, hcont, hhead, hb, rfl⟩ := turn_of_continueClause hm'
            · exact .lastToken hf hr hk hc
            · rw [rest_outOf hr] at hn hhead ⊢
              exact .nextClause hf hr hk hc hw hn hcont hhead hb
        · next hc =>
          cases h
          exact .token hf hr hk (by simpa using hc)

/-! ## markup within code -/

/-- A comment of the markup is copied as text. -/
theorem turn_of_copyComment (hb : s.inBlock = false) (hp : commentOpening <+: s.rest)
    (h : s.copyComment = .ok m) : s.Turn m := by
  obtain ⟨rest, hr⟩ := hp
  unfold copyComment at h
  split at h
  · cases h
  · cases h
    refine .copy ?_ ?_ hb ?_
    · exact Nat.lt_of_lt_of_le (by decide) (Nat.le_add_right commentOpening.length _)
    · simp [← hr, commentOpening]
    · exact fun _ _ => .inr ⟨rest, hr⟩

/-- A closing tag that leads on ends the innermost element and is copied whole. -/
theorem turn_of_closingTag {markup : MarkupFrame} {below : List Frame}
    (hf : s.frames = .markup markup :: below) (ht : markup.inText = false)
    (hn : closingName s.rest ≠ [])
    (h : s.closingTag id (closingName s.rest) = .ok m) : s.Turn m := by
  have hp : ['<', '/'] <+: s.rest := by
    unfold closingName at hn
    split at hn
    · next text hr => exact ⟨text, by rw [hr]; rfl⟩
    · exact absurd rfl hn
  simp only [closingTag, hf] at h
  split at h
  · cases h
  · split at h
    · cases h
    · next element elements hc =>
      cases h
      exact .closingTag hf ht hp hn (by simp [rest]) hc
  · cases h

/-- An angle bracket begins or ends text without an element, a comment, a closing tag or an opening
tag; one that begins nothing is copied. -/
theorem turn_of_angle {markup : MarkupFrame} {below : List Frame}
    (hf : s.frames = .markup markup :: below) (hs : s.rest.head? = some '<')
    (h : s.angle id markup below = .ok m) : s.Turn m := by
  have hb : s.inBlock = false := by simp [inBlock_eq, hf, Frame.isBlock]
  have hcopy : s.Turn (s.copy 1) :=
    .copy (by omega) (by simp [hs]) hb fun _ _ => .inl rfl
  unfold angle at h
  split at h
  · next ht =>
    split at h
    · next hp => cases h; exact .closeText hf ht (List.isPrefixOf_iff_prefix.1 hp)
    · cases h; exact hcopy
  · next ht =>
    have ht : markup.inText = false := by simpa using ht
    split at h
    · next hp => cases h; exact .openText hf ht (List.isPrefixOf_iff_prefix.1 hp)
    · next hp =>
      split at h
      · next hc => exact turn_of_copyComment hb (List.isPrefixOf_iff_prefix.1 hc) h
      · split at h
        · next hn => exact turn_of_closingTag hf ht hn h
        · split at h
          · next hn =>
            cases h
            exact .openingTag hf ht (fun hpre => hp (List.isPrefixOf_iff_prefix.2 hpre)) hn
          · cases h; exact hcopy

/-- In markup, plain text is copied; where nothing is open the end of the line and a closing brace
lead back to code. -/
theorem turn_of_stepMarkup {markup : MarkupFrame} {below : List Frame} (hs : s.rest ≠ [])
    (hf : s.frames = .markup markup :: below) (h : s.stepMarkup id markup below = .ok m) :
    s.Turn m := by
  have hb : s.inBlock = false := by simp [inBlock_eq, hf, Frame.isBlock]
  unfold stepMarkup at h
  split at h
  · next h0 => exact absurd h0 hs
  · next c rest hc =>
    split at h
    · next hstop =>
      cases h
      refine .copy ?_ ?_ hb ?_
      · simp_all [plainLength]
      · rintro h'; simp_all [stopsText]
      · rintro - h'; simp_all [stopsText]
    · next hstop =>
      split at h
      · next hat => exact turn_of_atSign (by simp [hc, hat]) h
      · next hat =>
        split at h
        · next hlt => exact turn_of_angle hf (by simp [hc, hlt]) h
        · next hlt =>
          split at h
          · cases h
            exact .copy (by omega) (by simp [hc, hat]) hb fun _ _ => .inl rfl
          · next hset =>
            have hset : markup.isSettled = true := by simpa using hset
            split at h
            · next hnl => cases h; exact .endLine hf hset (by simp [hc, hnl])
            · next hnl =>
              cases h
              refine .leaveMarkup hf hset ?_
              simp_all [stopsText]

/-! ## tags and attribute values -/

/-- At its end a tag that lies in markup is left, and one that does not is given up. -/
theorem turn_of_endTag {name : String} {span : Span} {below : List Frame} {n : Nat}
    {selfClosing : Bool} (hf : s.frames = .tag name span :: below)
    (hn : selfClosing = false ∧ n = 1 ∧ s.rest.head? = some '>' ∨
      selfClosing = true ∧ n = 2 ∧ ['/', '>'] <+: s.rest)
    (h : endTag id selfClosing (s.copy n) = .ok m) : s.Turn m := by
  unfold endTag at h
  rw [state_copy, frames_skip, hf] at h
  split at h
  · next hb =>
    cases h
    cases hb
    obtain ⟨rfl, rfl, hs⟩ | ⟨rfl, rfl, rest, hr⟩ := hn
    · obtain ⟨rest, hr⟩ := List.head?_eq_some_iff.1 hs
      simpa [copy, hr] using Turn.endTag hf hs
    · simpa [copy, ← hr] using Turn.endSelfClosing hf ⟨rest, hr⟩
  · next hb =>
    cases h
    have hpos : 0 < n := by omega
    have hm : (below.head?.any Frame.isMarkup) = false := by
      cases below with
      | nil => rfl
      | cons f outer =>
        cases f with
        | markup markup => exact absurd rfl (hb name span markup outer)
        | _ => rfl
    have hd : (s.skip n).dropFrame = (s.skip n).within below := by
      simp only [frames] at hf
      simp [dropFrame, within, skip, FrameStack.pop, hf]
    rw [hd]
    exact .loseTag hf hm hpos

/-- Where nothing is plain, the text begins with a character that stops it. -/
theorem eq_cons_of_plainLength {stops : Char → Bool} {text after : List Char} {c : Char}
    (h : text.dropWhile (!stops ·) = c :: after) (h0 : ¬ 0 < plainLength stops text) :
    text = c :: after ∧ stops c = true := by
  have hnil : text.takeWhile (!stops ·) = [] := List.eq_nil_of_length_eq_zero (by
    unfold plainLength at h0; omega)
  have ht := List.takeWhile_append_dropWhile (p := (!stops ·)) (l := text)
  rw [hnil, h, List.nil_append] at ht
  constructor
  · exact ht.symm
  · have hc := List.head?_dropWhile_not (!stops ·) text
    simpa [h] using hc

/-- A plain run does not begin with a character that stops it. -/
theorem head?_ne_of_plainLength {stops : Char → Bool} {text : List Char} {c : Char}
    (hc : stops c = true) (h : 0 < plainLength stops text) : text.head? ≠ some c := by
  cases text with
  | nil => simp
  | cons d text =>
    intro hd
    obtain rfl := Option.some.inj hd
    simp [plainLength, hc] at h

/-- In a tag, all is copied up to its end or to the quote of a value. -/
theorem turn_of_stepTag {name : String} {span : Span} {below : List Frame}
    (hf : s.frames = .tag name span :: below) (h : s.stepTag id span = .ok m) : s.Turn m := by
  have hb : s.inBlock = false := by simp [inBlock_eq, hf, Frame.isBlock]
  have hm : s.inMarkup = false := by simp [inMarkup_eq, hf, Frame.isMarkup]
  unfold stepTag at h
  split at h
  · cases h
  · next c after hd =>
    split at h
    · next hpos =>
      cases h
      exact .copy hpos (head?_ne_of_plainLength (by decide) hpos) hb (by simp [hm])
    · next hpos =>
      obtain ⟨hs, hstop⟩ := eq_cons_of_plainLength hd hpos
      split at h
      · next hat => exact turn_of_atSign (by rw [hs, hat]; rfl) h
      · next hat =>
        split at h
        · next hgt => exact turn_of_endTag hf (.inl ⟨rfl, rfl, by rw [hs, hgt]; rfl⟩) h
        · next hgt =>
          split at h
          · next hsl =>
            split at h
            · next hnext =>
              obtain ⟨rest, rfl⟩ := List.head?_eq_some_iff.1 hnext
              exact turn_of_endTag hf (.inr ⟨rfl, rfl, rest, by rw [hs, hsl]; rfl⟩) h
            · cases h
              exact .copy (by omega) (by simp [hs, hat]) hb (by simp [hm])
          · next hsl =>
            cases h
            refine .openValue hf (by rw [hs]; rfl) ?_
            simp_all [stopsTag]

/-- In a value, all is copied up to the quote that ends it. -/
theorem turn_of_stepValue {quote : Char} {openedAt : Nat} {below : List Frame}
    (hf : s.frames = .attributeValue quote openedAt :: below) (h : s.stepValue id = .ok m) :
    s.Turn m := by
  have hb : s.inBlock = false := by simp [inBlock_eq, hf, Frame.isBlock]
  have hm : s.inMarkup = false := by simp [inMarkup_eq, hf, Frame.isMarkup]
  simp only [stepValue, hf] at h
  split at h
  · cases h
  · next c after hd =>
    split at h
    · next hpos =>
      cases h
      exact .copy hpos (head?_ne_of_plainLength (by simp [stopsValue]) hpos) hb (by simp [hm])
    · next hpos =>
      obtain ⟨hs, hstop⟩ := eq_cons_of_plainLength hd hpos
      split at h
      · next hat => exact turn_of_atSign (by rw [hs, hat]; rfl) h
      · next hat =>
        cases h
        obtain rfl : c = quote := by simpa [stopsValue, hat] using hstop
        simpa [copy, hs] using Turn.closeValue hf (by rw [hs]; rfl) hat

/-! ## all steps -/

/-- A step before the end of the source follows one of the rules. -/
theorem turn_of_step (hs : s.rest ≠ []) (h : s.step = .ok m) : s.Turn m := by
  have hdrop {frame : Frame} {below : List Frame} (hf : s.frames = frame :: below) :
      s.dropFrame = s.within below := by
    simp only [frames] at hf
    simp [dropFrame, within, FrameStack.pop, hf]
  unfold step stepWith at h
  split at h
  · next hf => exact turn_of_stepText hf hs h
  · next hf => exact turn_of_stepBlock hs hf h
  · next hf => exact turn_of_stepMarkup hs hf h
  · next hf => exact turn_of_stepTag hf h
  · next hf => exact turn_of_stepValue hf h
  all_goals
    next hf =>
      cases h
      rw [hdrop hf]
      exact .loseWhole hf rfl

end State

/-- A directive that is told by a character begins with an at sign and that character. -/
theorem rest_of_introduces {s : State} {d : Directive} {c : Char} (hd : s.Introduces d)
    (hm : d.mark? = some c) : ∃ rest, s.rest = '@' :: c :: rest := by
  obtain ⟨hs, hd⟩ := hd
  obtain ⟨after, ha⟩ := List.head?_eq_some_iff.1 hs
  rw [← hd] at hm
  obtain ⟨rest, hr⟩ := Directive.eq_cons_of_mark? hm
  have ha' : s.cursor.rest = '@' :: after := ha
  rw [ha'] at hr
  exact ⟨rest, by rw [ha]; exact congrArg _ hr⟩

/-- An at sign is looked at alike in all frames. -/
theorem step_of_at {s : State} (hw : (s.frames.head?.any Frame.isWhole) = false)
    (hs : s.rest.head? = some '@') : s.step = s.atSign := by
  obtain ⟨rest, hr⟩ := List.head?_eq_some_iff.1 hs
  unfold State.step State.stepWith
  split
  · simp [State.stepText, hr]
  · simp [State.stepBlock, hr, Code.read, Code.single?]
  · simp [State.stepMarkup, State.stopsText, hr]
  · simp [State.stepTag, State.stopsTag, State.plainLength, hr]
  · next hf => simp [State.stepValue, hf, State.stopsValue, State.plainLength, hr]
  all_goals
    next hf =>
      rw [hf] at hw
      cases hw

end AtTemplate.Scan
