import AtTemplate.Text.Bytes

/-!
# AtTemplate.Text.Quoted

Text between double quotes.  A quote, a backslash and the controls below the space are written
with a backslash, everything else as it is.  Reading accepts the same escapes, an escaped
slash, and any code unit in hexadecimal; two units of a surrogate pair make one character.

* `read_encode` — what is written is read back.
-/

namespace AtTemplate.Text.Quoted

/-! ## Writing -/

/-- The hexadecimal digit of a number below sixteen, in lower case. -/
def hexDigit (n : Nat) : Char :=
  Nat.digitChar n

/-- How one character is written between quotes. -/
def escape (c : Char) : List Char :=
  if c = '"' then ['\\', '"']
  else if c = '\\' then ['\\', '\\']
  else if c = '\x08' then ['\\', 'b']
  else if c = '\x0c' then ['\\', 'f']
  else if c = '\n' then ['\\', 'n']
  else if c = '\r' then ['\\', 'r']
  else if c = '\t' then ['\\', 't']
  else if c.toNat < 32 then
    ['\\', 'u', '0', '0', hexDigit (c.toNat / 16), hexDigit (c.toNat % 16)]
  else [c]

/-- Writes a text between quotes. -/
def encode (text : List Char) : List Char :=
  '"' :: (text.flatMap escape ++ ['"'])

/-! ## Reading -/

/-- What is wrong with a quoted text. -/
inductive Fault where
  /-- The text ends before its closing quote. -/
  | endOfText
  /-- A control below the space stands in it. -/
  | control
  /-- A backslash is followed by nothing that it can escape. -/
  | badEscape
  /-- A unit that is half of a surrogate pair stands alone. -/
  | loneSurrogate
  /-- The second half of a surrogate pair is missing. -/
  | brokenPair
  deriving DecidableEq, Repr

/-- A fault, and the place where it was found: `past` bytes behind the start of `rest`. -/
structure Failure where
  fault : Fault
  rest : List Char
  past : Nat
  deriving DecidableEq, Repr

/-- The value of a hexadecimal digit. -/
def hexValue? (c : Char) : Option Nat :=
  if '0' ≤ c ∧ c ≤ '9' then some (c.toNat - '0'.toNat)
  else if 'a' ≤ c ∧ c ≤ 'f' then some (c.toNat - 'a'.toNat + 10)
  else if 'A' ≤ c ∧ c ≤ 'F' then some (c.toNat - 'A'.toNat + 10)
  else none

/-- The value of four hexadecimal digits. -/
def hexUnit? : List Char → Option (Nat × List Char)
  | a :: b :: c :: d :: text =>
    match hexValue? a, hexValue? b, hexValue? c, hexValue? d with
    | some a, some b, some c, some d => some (((a * 16 + b) * 16 + c) * 16 + d, text)
    | _, _, _, _ => none
  | _ => none

/-- Reads a code unit of four hexadecimal digits.  Without them the fault lies behind the four
bytes that should have been digits. -/
def readUnit (text : List Char) : Except Failure (Nat × List Char) :=
  match hexUnit? text with
  | some found => .ok found
  | none =>
    if 4 ≤ byteLength (text.take 4) then .error ⟨.badEscape, text, 4⟩
    else .error ⟨.endOfText, [], 0⟩

/-- Reads the second half of a surrogate pair, whose first half is `high`. -/
def readPair (high : Nat) : List Char → Except Failure (Char × List Char)
  | [] => .error ⟨.endOfText, [], 0⟩
  | ['\\'] => .error ⟨.endOfText, [], 0⟩
  | '\\' :: 'u' :: text =>
    match readUnit text with
    | .error e => .error e
    | .ok (low, rest) =>
      if 0xDC00 ≤ low ∧ low ≤ 0xDFFF then
        .ok (Char.ofNat (0x10000 + (high - 0xD800) * 0x400 + (low - 0xDC00)), rest)
      else .error ⟨.loneSurrogate, rest, 0⟩
  | '\\' :: text => .error ⟨.brokenPair, text, 1⟩
  | text => .error ⟨.brokenPair, text, 1⟩

/-- Reads what follows a backslash. -/
def readEscape : List Char → Except Failure (Char × List Char)
  | [] => .error ⟨.endOfText, [], 0⟩
  | '"' :: text => .ok ('"', text)
  | '\\' :: text => .ok ('\\', text)
  | '/' :: text => .ok ('/', text)
  | 'b' :: text => .ok ('\x08', text)
  | 'f' :: text => .ok ('\x0c', text)
  | 'n' :: text => .ok ('\n', text)
  | 'r' :: text => .ok ('\r', text)
  | 't' :: text => .ok ('\t', text)
  | 'u' :: text =>
    match readUnit text with
    | .error e => .error e
    | .ok (unit, rest) =>
      if 0xDC00 ≤ unit ∧ unit ≤ 0xDFFF then .error ⟨.loneSurrogate, rest, 0⟩
      else if 0xD800 ≤ unit ∧ unit ≤ 0xDBFF then readPair unit rest
      else .ok (Char.ofNat unit, rest)
  | text => .error ⟨.badEscape, text, 1⟩

theorem length_lt_of_hexUnit? {text rest : List Char} {unit : Nat}
    (h : hexUnit? text = some (unit, rest)) : rest.length < text.length := by
  unfold hexUnit? at h
  split at h
  · split at h
    · simp only [Option.some.injEq, Prod.mk.injEq] at h
      simp [h.2]; omega
    · simp at h
  · simp at h

theorem length_lt_of_readUnit {text rest : List Char} {unit : Nat}
    (h : readUnit text = .ok (unit, rest)) : rest.length < text.length := by
  unfold readUnit at h
  split at h
  · next hu =>
    simp only [Except.ok.injEq] at h
    exact length_lt_of_hexUnit? (h ▸ hu)
  · split at h <;> simp at h

theorem length_lt_of_readPair {high : Nat} {text rest : List Char} {c : Char}
    (h : readPair high text = .ok (c, rest)) : rest.length < text.length := by
  unfold readPair at h
  split at h <;> try simp at h
  split at h
  · simp at h
  · next hu =>
    have := length_lt_of_readUnit hu
    split at h
    · simp only [Except.ok.injEq, Prod.mk.injEq] at h
      simp only [List.length_cons, ← h.2]; omega
    · simp at h

theorem length_lt_of_readEscape {text rest : List Char} {c : Char}
    (h : readEscape text = .ok (c, rest)) : rest.length < text.length := by
  unfold readEscape at h
  split at h <;> try (simp only [Except.ok.injEq, Prod.mk.injEq] at h; simp [h.2])
  · simp at h
  · split at h
    · simp at h
    · next hu =>
      have := length_lt_of_readUnit hu
      split at h
      · simp at h
      · split at h
        · have := length_lt_of_readPair h
          simp only [List.length_cons]; omega
        · simp only [Except.ok.injEq, Prod.mk.injEq] at h
          simp only [List.length_cons, ← h.2]; omega
  · simp at h

/-- Reads on behind `done`, the characters read so far, last one first, through the closing
quote. -/
def readFrom (done : List Char) (text : List Char) : Except Failure (List Char × List Char) :=
  match text with
  | [] => .error ⟨.endOfText, [], 0⟩
  | c :: text =>
    if c = '"' then .ok (done.reverse, text)
    else if c = '\\' then
      match _h : readEscape text with
      | .error e => .error e
      | .ok (d, rest) => readFrom (d :: done) rest
    else if c.toNat < 32 then .error ⟨.control, text, 0⟩
    else readFrom (c :: done) text
termination_by text.length
decreasing_by
  · have := length_lt_of_readEscape _h
    simp only [List.length_cons]; omega
  · simp

/-- Reads the text behind an opening quote, and divides it from what follows the closing
one. -/
def read (text : List Char) : Except Failure (List Char × List Char) :=
  readFrom [] text

/-- Reads a text that is quoted as a whole. -/
def decode? : List Char → Option (List Char)
  | '"' :: text =>
    match read text with
    | .ok (s, []) => some s
    | _ => none
  | _ => none

theorem length_lt_of_readFrom {done text s rest : List Char}
    (h : readFrom done text = .ok (s, rest)) : rest.length < text.length := by
  fun_induction readFrom done text <;> grind [→ length_lt_of_readEscape]

/-! ## What is written is read back -/

theorem hexValue?_hexDigit {n : Nat} (h : n < 16) : hexValue? (hexDigit n) = some n := by
  have : ∀ k : Fin 16, hexValue? (hexDigit k) = some k.val := by decide
  exact this ⟨n, h⟩

theorem readFrom_backslash {done text rest : List Char} {c : Char}
    (h : readEscape text = .ok (c, rest)) :
    readFrom done ('\\' :: text) = readFrom (c :: done) rest := by
  rw [readFrom]
  simp only [Char.reduceEq, if_false, if_true]
  split
  · next he => rw [h] at he; simp at he
  · next he => rw [h] at he; simp only [Except.ok.injEq, Prod.mk.injEq] at he; simp [he]

/-- Reading undoes the escape of one character. -/
theorem readFrom_escape (done : List Char) (c : Char) (text : List Char) :
    readFrom done (escape c ++ text) = readFrom (c :: done) text := by
  unfold escape
  split
  · next h => subst h; exact readFrom_backslash rfl
  · split
    · next h => subst h; exact readFrom_backslash rfl
    · split
      · next h => subst h; exact readFrom_backslash rfl
      · split
        · next h => subst h; exact readFrom_backslash rfl
        · split
          · next h => subst h; exact readFrom_backslash rfl
          · split
            · next h => subst h; exact readFrom_backslash rfl
            · split
              · next h => subst h; exact readFrom_backslash rfl
              · split
                · next hc =>
                  have h0 : hexValue? '0' = some 0 := by decide
                  have hu : hexUnit? ('0' :: '0' :: hexDigit (c.toNat / 16)
                      :: hexDigit (c.toNat % 16) :: text) = some (c.toNat, text) := by
                    simp only [hexUnit?, h0, hexValue?_hexDigit (show c.toNat / 16 < 16 by omega),
                      hexValue?_hexDigit (show c.toNat % 16 < 16 by omega)]
                    simp; omega
                  have hr : readEscape ('u' :: '0' :: '0' :: hexDigit (c.toNat / 16)
                      :: hexDigit (c.toNat % 16) :: text) = .ok (c, text) := by
                    simp only [readEscape, readUnit, hu]
                    rw [if_neg (by omega), if_neg (by omega), Char.ofNat_toNat]
                  exact readFrom_backslash hr
                · next hq hb _ _ _ _ _ hc =>
                  rw [List.singleton_append, readFrom]
                  simp [hq, hb, hc]

/-- What is written between quotes is read back, whatever follows. -/
theorem read_encode (s rest : List Char) :
    read ((encode s).tail ++ rest) = .ok (s, rest) := by
  have h (done : List Char) :
      readFrom done (s.flatMap escape ++ '"' :: rest) = .ok (done.reverse ++ s, rest) := by
    induction s generalizing done with
    | nil => simp [readFrom]
    | cons c s ih =>
      rw [List.flatMap_cons, List.append_assoc, readFrom_escape, ih]
      simp
  simpa [read, encode] using h []

/-- A text that is written between quotes is decoded to itself. -/
theorem decode?_encode (s : List Char) : decode? (encode s) = some s := by
  have h := read_encode s []
  simp only [encode, List.tail_cons, List.append_nil] at h
  simp [decode?, encode, h]

end AtTemplate.Text.Quoted
