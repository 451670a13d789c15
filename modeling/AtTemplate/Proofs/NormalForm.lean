import AtTemplate.Proofs.Run
import Mathlib.Data.List.Chain

/-!
# AtTemplate.Proofs.NormalForm

The normal form of a list of segments.  A scan writes its pieces as it comes to them, and where one
ends and the next begins depends on the frame, on what follows and on how far a step can see.  The
segments do not depend on that: they are the normal form of what is written, character by character.

* `add_cases` — a piece leaves no trace, is joined to the last segment, or is a segment of its own;
* `ofPieces_eq_self_iff` — the lists in normal form are those that nothing is joined in;
* `ofPieces_eq_ofPieces_iff` — pieces are joined to the same segments exactly when they have the
  same atoms;
* `normalForm_ofPieces` — **segments are in normal form, and one list of segments is that of all the
  ways to cut it into pieces.**
-/

namespace AtTemplate

namespace Segment

/-! ## the atoms of a segment -/

/-- What a list of segments consists of where nothing in it is joined: a character of text, one of
code, or an expression, which is never divided. -/
inductive Atom where
  | text (c : Char)
  | code (c : Char)
  | expression (source : String)
  deriving DecidableEq, Repr

/-- The atoms of a segment, in order. -/
def atoms : Segment → List Atom
  | .literal text => text.toList.map .text
  | .expression text => [.expression text]
  | .code text => text.toList.map .code

/-- The segment that an atom makes up on its own. -/
def Atom.segment : Atom → Segment
  | .text c => .literal (String.ofList [c])
  | .code c => .code (String.ofList [c])
  | .expression source => .expression source

/-- Whether a segment leaves no trace: it is empty, and no expression. -/
def isVoid : Segment → Bool
  | .literal text | .code text => text.isEmpty
  | .expression _ => false

/-- Whether two neighbours are one segment: both are text, or both are code. -/
def joins : Segment → Segment → Bool
  | .literal _, .literal _ | .code _, .code _ => true
  | _, _ => false

/-- The segment with more text at its end. -/
def extend (more : String) : Segment → Segment
  | .literal text => .literal (text ++ more)
  | .expression text => .expression (text ++ more)
  | .code text => .code (text ++ more)

variable {g h : Segment}

/-- A segment that leaves no trace has no atoms. -/
theorem atoms_of_isVoid (hg : g.isVoid = true) : g.atoms = [] := by
  cases g with
  | expression => cases hg
  | _ => simpa [isVoid, atoms] using hg

/-- The atoms of two segments that are joined are those of the one and of the other. -/
theorem atoms_extend (hj : g.joins h = true) : (g.extend h.text).atoms = g.atoms ++ h.atoms := by
  cases g <;> cases h <;> simp_all [joins, extend, Segment.text, atoms]

/-- Joining leaves no segment empty. -/
theorem isVoid_extend (hg : g.isVoid = false) (more : String) :
    (g.extend more).isVoid = false := by
  cases g <;> simp_all [extend, isVoid]

theorem joins_extend (more : String) : h.joins (g.extend more) = h.joins g := by
  cases g <;> cases h <;> rfl

end Segment

namespace Segments

open Segment

variable {pieces others segments : List Segment} {g : Segment}

/-- The atoms of several segments, in order. -/
def atoms (segments : List Segment) : List Atom :=
  segments.flatMap Segment.atoms

/-- A list of segments in which nothing is to be joined: no text and no code is empty, and neither
two texts nor two parts of code are neighbours. -/
structure IsNormal (segments : List Segment) : Prop where
  nonvoid : ∀ g ∈ segments, g.isVoid = false
  apart : segments.IsChain fun g h => g.joins h = false

@[simp] theorem atoms_append (p q : List Segment) : atoms (p ++ q) = atoms p ++ atoms q :=
  List.flatMap_append

@[simp] theorem atoms_singleton (g : Segment) : atoms [g] = g.atoms :=
  List.flatMap_singleton _ _

/-- Empty pieces have no atoms. -/
theorem atoms_filter (pieces : List Segment) :
    atoms (pieces.filter (!·.isVoid)) = atoms pieces := by
  induction pieces with
  | nil => rfl
  | cons g pieces ih =>
    by_cases hg : g.isVoid = true
    · rw [List.filter_cons_of_neg (by simp [hg]), ih]
      simp [atoms, atoms_of_isVoid hg]
    · rw [List.filter_cons_of_pos (by simp [hg])]
      exact congrArg (g.atoms ++ ·) ih

theorem isNormal_nil : IsNormal [] :=
  ⟨nofun, .nil⟩

/-- A segment may follow a list in normal form unless it is empty or joined to the last one. -/
theorem isNormal_concat_iff : IsNormal (segments ++ [g]) ↔
    IsNormal segments ∧ g.isVoid = false ∧ ∀ h ∈ segments.getLast?, h.joins g = false := by
  constructor
  · rintro ⟨hvoid, hapart⟩
    obtain ⟨hbefore, -, hlast⟩ := List.isChain_append.1 hapart
    have hsegments : IsNormal segments :=
      ⟨fun h hh => hvoid h (List.mem_append_left _ hh), hbefore⟩
    exact ⟨hsegments, hvoid g List.mem_concat_self, fun h hh => hlast h hh g rfl⟩
  · rintro ⟨⟨hvoid, hapart⟩, hg, hlast⟩
    refine ⟨fun h hh => ?_, List.isChain_append.2 ⟨hapart, .singleton g, fun h hh x hx => ?_⟩⟩
    · obtain hh | hh := List.mem_append.1 hh
      · exact hvoid h hh
      · rwa [List.mem_singleton.1 hh]
    · cases hx
      exact hlast h hh

/-! ## one piece -/

/-- **A piece leaves no trace, is joined to the last segment, or is a segment of its own.** -/
theorem add_cases (s : Segments) (g : Segment) :
    (g.isVoid = true ∧ s.add g = s) ∨
    (g.isVoid = false ∧ ∃ last rest, s = ⟨last :: rest⟩ ∧ last.joins g = true ∧
      s.add g = ⟨last.extend g.text :: rest⟩) ∨
    (g.isVoid = false ∧ (∀ last ∈ s.newestFirst.head?, last.joins g = false) ∧
      s.add g = ⟨g :: s.newestFirst⟩) := by
  obtain ⟨segments⟩ := s
  by_cases hg : g.isVoid = true
  · left
    cases g <;> simp_all [Segment.isVoid, add, addLiteral, addCode]
  · right
    cases segments with
    | nil => cases g <;> simp_all [Segment.isVoid, add, addLiteral, addCode, addExpression]
    | cons last rest =>
      cases g <;> cases last <;>
        simp_all [Segment.isVoid, Segment.joins, Segment.extend, Segment.text, add, addLiteral,
          addCode, addExpression]

/-- A segment that joins none stands by itself. -/
theorem add_of_not_joins {s : Segments} (hg : g.isVoid = false)
    (hlast : ∀ last ∈ s.newestFirst.head?, last.joins g = false) :
    s.add g = ⟨g :: s.newestFirst⟩ := by
  obtain ⟨hvoid, -⟩ | ⟨-, last, rest, rfl, hj, -⟩ | ⟨-, -, hadd⟩ := s.add_cases g
  · rw [hg] at hvoid
    cases hvoid
  · rw [hlast last rfl] at hj
    cases hj
  · exact hadd

/-- Behind the atoms of the segments come those of the piece. -/
theorem atoms_add (s : Segments) (g : Segment) :
    atoms (s.add g).toList = atoms s.toList ++ g.atoms := by
  obtain ⟨hg, hadd⟩ | ⟨-, last, rest, rfl, hj, hadd⟩ | ⟨-, -, hadd⟩ := s.add_cases g
  · rw [hadd, atoms_of_isVoid hg, List.append_nil]
  · simp [hadd, toList, atoms_extend hj]
  · simp [hadd, toList]

/-- Segments in normal form stay so as a piece is written. -/
theorem isNormal_add {s : Segments} (hs : IsNormal s.toList) (g : Segment) :
    IsNormal (s.add g).toList := by
  obtain ⟨-, hadd⟩ | ⟨-, last, rest, rfl, -, hadd⟩ | ⟨hg, hlast, hadd⟩ := s.add_cases g
  · rwa [hadd]
  · simp only [hadd, toList, List.reverse_cons, isNormal_concat_iff] at hs ⊢
    obtain ⟨hrest, hvoid, hjoins⟩ := hs
    -- the last segment grows, but stays of its kind
    refine ⟨hrest, isVoid_extend hvoid _, fun h hh => ?_⟩
    rw [joins_extend]
    exact hjoins h hh
  · rw [hadd, toList, List.reverse_cons, isNormal_concat_iff, List.getLast?_reverse]
    exact ⟨hs, hg, hlast⟩

/-- Where texts that are written one after the other are written as one, a text may be written
character by character. -/
theorem foldl_ofList_singleton (write : Segments → String → Segments)
    (hempty : ∀ s, write s "" = s) (happend : ∀ s a b, write (write s a) b = write s (a ++ b))
    (chars : List Char) (s : Segments) :
    chars.foldl (fun s c => write s (String.ofList [c])) s = write s (String.ofList chars) := by
  induction chars generalizing s with
  | nil => exact (hempty s).symm
  | cons c chars ih =>
    rw [List.foldl_cons, ih, happend, ← String.ofList_append, List.singleton_append]

/-- **A piece is written as its atoms are, one by one.** -/
theorem addAll_atoms_segment (s : Segments) (g : Segment) :
    s.addAll (g.atoms.map Atom.segment) = s.add g := by
  cases g with
  | literal text =>
    have hchars := foldl_ofList_singleton addLiteral (fun _ => rfl)
      addLiteral_addLiteral text.toList s
    rw [String.ofList_toList] at hchars
    rw [addAll, Segment.atoms, List.foldl_map, List.foldl_map]
    exact hchars
  | expression source => rfl
  | code text =>
    have hchars := foldl_ofList_singleton addCode (fun _ => rfl) addCode_addCode
      text.toList s
    rw [String.ofList_toList] at hchars
    rw [addAll, Segment.atoms, List.foldl_map, List.foldl_map]
    exact hchars

/-! ## all pieces -/

/-- Segments are built from atoms as they are from the pieces that these are of. -/
theorem addAll_atoms (s : Segments) (pieces : List Segment) :
    s.addAll ((atoms pieces).map Atom.segment) = s.addAll pieces := by
  induction pieces generalizing s with
  | nil => rfl
  | cons g pieces ih =>
    show s.addAll ((g.atoms ++ atoms pieces).map Atom.segment) = _
    rw [List.map_append, addAll_append, addAll_atoms_segment, ih, addAll_cons]

/-- The segments depend on the atoms of the pieces only. -/
theorem ofPieces_atoms (pieces : List Segment) :
    ofPieces ((atoms pieces).map Atom.segment) = ofPieces pieces :=
  congrArg toList (addAll_atoms empty pieces)

/-- Building segments keeps the atoms. -/
theorem atoms_addAll (s : Segments) (pieces : List Segment) :
    atoms (s.addAll pieces).toList = atoms s.toList ++ atoms pieces := by
  induction pieces generalizing s with
  | nil => exact (List.append_nil _).symm
  | cons g pieces ih =>
    rw [addAll_cons, ih, atoms_add, List.append_assoc]
    rfl

/-- **No atom is lost as pieces are joined**, and none is added or moved. -/
theorem atoms_ofPieces (pieces : List Segment) : atoms (ofPieces pieces) = atoms pieces :=
  atoms_addAll empty pieces

/-- Building segments keeps to the normal form. -/
theorem isNormal_addAll {s : Segments} (hs : IsNormal s.toList) (pieces : List Segment) :
    IsNormal (s.addAll pieces).toList := by
  induction pieces generalizing s with
  | nil => exact hs
  | cons g pieces ih => exact ih (isNormal_add hs g)

/-- **Segments are in normal form.** -/
theorem isNormal_ofPieces (pieces : List Segment) : IsNormal (ofPieces pieces) :=
  isNormal_addAll (s := empty) isNormal_nil pieces

/-- Nothing is joined in a list in normal form. -/
theorem addAll_of_isNormal (h : IsNormal segments) :
    empty.addAll segments = ⟨segments.reverse⟩ := by
  -- pieces are joined at the end of what is written, so the list is taken apart there
  induction segments using List.reverseRecOn with
  | nil => rfl
  | append_singleton segments g ih =>
    obtain ⟨hsegments, hg, hlast⟩ := isNormal_concat_iff.1 h
    rw [← List.head?_reverse] at hlast
    rw [addAll_append, ih hsegments, List.reverse_concat]
    exact add_of_not_joins hg hlast

/-- **The lists in normal form are those that nothing is joined in.** -/
theorem ofPieces_eq_self_iff : ofPieces segments = segments ↔ IsNormal segments := by
  constructor
  · intro h
    rw [← h]
    exact isNormal_ofPieces segments
  · intro h
    rw [ofPieces, addAll_of_isNormal h, toList, List.reverse_reverse]

/-- Whether a list is in normal form is told by writing it anew. -/
instance : DecidablePred IsNormal :=
  fun _ => decidable_of_iff _ ofPieces_eq_self_iff

example : IsNormal [.expression "", .expression ""] ∧ ¬ IsNormal [.literal "a", .literal "b"] := by
  decide

/-- **Pieces are joined to the same segments exactly when they have the same atoms.** -/
theorem ofPieces_eq_ofPieces_iff :
    ofPieces pieces = ofPieces others ↔ atoms pieces = atoms others := by
  constructor
  · intro h
    rw [← atoms_ofPieces pieces, h, atoms_ofPieces]
  · intro h
    rw [← ofPieces_atoms pieces, h, ofPieces_atoms]

/-- **Segments are in normal form, and do not depend on how they were cut into pieces.**  Whatever
pieces are written, no text and no code among the segments is empty, no two texts and no two parts
of code are neighbours, and the segments written anew are the same; so are exactly the lists that
have this form.  Two lists of pieces make up the same segments if and only if, with the empty ones
left out, they have the same characters of text and of code and the same expressions in the same
order.  The segments of a template are in normal form. -/
theorem normalForm_ofPieces :
    (∀ pieces, IsNormal (ofPieces pieces) ∧ ofPieces (ofPieces pieces) = ofPieces pieces) ∧
    (∀ segments, ofPieces segments = segments ↔ IsNormal segments) ∧
    (∀ pieces others, ofPieces pieces = ofPieces others ↔
      atoms (pieces.filter (!·.isVoid)) = atoms (others.filter (!·.isVoid))) ∧
    ∀ source segments, scan source = .ok segments → IsNormal segments := by
  refine ⟨fun pieces => ⟨isNormal_ofPieces pieces, ofPieces_ofPieces pieces⟩,
    fun _ => ofPieces_eq_self_iff, fun pieces others => ?_, fun source segments h => ?_⟩
  · rw [atoms_filter, atoms_filter, ofPieces_eq_ofPieces_iff]
  · obtain ⟨trace, t, -, -, -, rfl⟩ := Scan.scan_eq_ok_iff.1 h
    exact isNormal_ofPieces _

/-- A doubled at sign and a comment divide what is written, and expressions are never joined, not
even where nothing stands between them. -/
theorem normalForm_of_template :
    scan "é@@b@(x)@y@{ @* c *@f() }" =
        .ok [.literal "é@b", .expression "x", .expression "y", .code "{ f() }"] ∧
      IsNormal [.literal "é@b", .expression "x", .expression "y", .code "{ f() }"] ∧
      ofPieces [.literal "é", .literal "@b", .expression "x", .code "", .expression "y"] =
        ofPieces [.literal "é@", .literal "", .literal "b", .expression "x", .expression "y"] ∧
      ofPieces [.expression "x", .expression "y"] ≠ ofPieces [.expression "xy"] := by
  obtain ⟨-, -, hcuts, hscan⟩ := normalForm_ofPieces
  have htemplate : scan "é@@b@(x)@y@{ @* c *@f() }" =
      .ok [.literal "é@b", .expression "x", .expression "y", .code "{ f() }"] := by
    decide +kernel
  refine ⟨htemplate, hscan _ _ htemplate, (hcuts _ _).2 (by decide +kernel), fun h => ?_⟩
  exact absurd ((hcuts _ _).1 h) (by decide +kernel)

end Segments

end AtTemplate
