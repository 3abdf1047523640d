import ApiContract.Proofs.Regex.Anchoring

/-!
Which sources compile as patterns, and which texts the patterns pass.

A pattern passes the texts that its source matches from start to end, unless the source closes the
group that anchoring puts it into. Such a source is no expression on its own; it compiles all the
same, and the anchors then hold only a part of it.
-/

namespace ApiContract.Pattern

open Regex

variable {source : String} {piece : Piece} {p : Pattern}

theorem source_of_ofSource? (compiles : ofSource? source = some p) : p.source = source := by
  unfold ofSource? at compiles
  split at compiles
  · obtain rfl := Option.some.inj compiles
    rfl
  · cases compiles

/-- When a source that is valid alone compiles, and to what. -/
theorem ofPattern?_anchored_iff (isRead : read? source = some piece) {r : Regex} :
    ofPattern? (anchored source) = some r ↔
      (read? (source ++ ")$") = none ∧ piece.depth + 2 ≤ nestingLimit ∧
        unfolded piece.regex + 2 ≤ unfoldingLimit) ∧ r = Regex.betweenEnds piece.regex := by
  rw [ofPattern?_eq_some_iff]
  rcases read?_anchored isRead with ⟨isShown, isWhole⟩ | ⟨isHidden, none⟩
  · simp [isWhole, isShown, Piece.betweenEnds, unfolded_betweenEnds, and_assoc, eq_comm]
  · have notShown : read? (source ++ ")$") ≠ Option.none := Option.isSome_iff_ne_none.mp isHidden
    simp [none, notShown]

/-- The source is a valid expression alone, and this expression matches the whole text. -/
def MatchesWhole (p : Pattern) (text : String) : Prop :=
  ∃ r, ofPattern? p.source = some r ∧ Spans text.toList r 0 text.toList.length

/-- The source closes the group that anchoring puts it into. -/
def Escapes (p : Pattern) : Prop := ClosesGroup ({}, p.source.toList)

/-- The source matches the whole text; or it closes the group, and the anchored source, as it is then
read, matches somewhere in the text. -/
def Passes (p : Pattern) (text : String) : Prop :=
  p.MatchesWhole text ∨
    p.Escapes ∧ ∃ i ≤ text.toList.length, ∃ j, Spans text.toList p.regex i j

theorem isMatch_iff_of_read? (isRead : read? p.source = some piece) (text : String) :
    p.isMatch text = true ↔ Spans text.toList piece.regex 0 text.toList.length := by
  obtain ⟨-, same⟩ := (ofPattern?_anchored_iff isRead).mp p.compiled
  rw [isMatch, same, isMatch_betweenEnds_iff (counted_of_read? isRead)]

theorem read?_eq_none_iff (p : Pattern) : read? p.source = none ↔ p.Escapes := by
  obtain ⟨whole, isWhole, -⟩ := ofPattern?_eq_some_iff.mp p.compiled
  constructor
  · intro invalid
    rcases read?_of_anchored isWhole with valid | closes
    · rw [invalid] at valid
      cases valid
    · exact closes
  · exact read?_eq_none_of_closesGroup

theorem ofPattern?_source_iff (p : Pattern) {r : Regex} :
    ofPattern? p.source = some r ↔ ∃ piece, read? p.source = some piece ∧ piece.regex = r := by
  rw [ofPattern?_eq_some_iff]
  constructor
  · rintro ⟨piece, isRead, -, -, same⟩
    exact ⟨piece, isRead, same⟩
  · rintro ⟨piece, isRead, same⟩
    obtain ⟨⟨-, nesting, size⟩, -⟩ := (ofPattern?_anchored_iff isRead).mp p.compiled
    exact ⟨piece, isRead, by omega, by omega, same⟩

theorem matchesWhole_iff_of_read? (isRead : read? p.source = some piece) (text : String) :
    p.MatchesWhole text ↔ Spans text.toList piece.regex 0 text.toList.length := by
  simp only [MatchesWhole, ofPattern?_source_iff, isRead, Option.some.injEq]
  constructor
  · rintro ⟨r, ⟨_, rfl, rfl⟩, spans⟩
    exact spans
  · intro spans
    exact ⟨_, ⟨_, rfl, rfl⟩, spans⟩

theorem not_matchesWhole_of_escapes (escapes : p.Escapes) (text : String) :
    ¬p.MatchesWhole text := by
  rintro ⟨r, valid, -⟩
  obtain ⟨piece, isRead, -⟩ := p.ofPattern?_source_iff.mp valid
  rw [p.read?_eq_none_iff.mpr escapes] at isRead
  cases isRead

theorem isMatch_eq_true_iff (p : Pattern) (text : String) :
    p.isMatch text = true ↔ p.Passes text := by
  cases isRead : read? p.source with
  | some piece =>
    have anchors : ¬p.Escapes := by simp [← p.read?_eq_none_iff, isRead]
    rw [isMatch_iff_of_read? isRead, Passes, matchesWhole_iff_of_read? isRead]
    simp [anchors]
  | none =>
    have escapes := p.read?_eq_none_iff.mp isRead
    obtain ⟨whole, isWhole, -, -, same⟩ := ofPattern?_eq_some_iff.mp p.compiled
    have counted : p.regex.Counted := same ▸ counted_of_read? isWhole
    have notWhole := not_matchesWhole_of_escapes escapes text
    rw [isMatch, Regex.isMatch_iff counted]
    simp [Passes, escapes, notWhole]

def choice : Piece where
  regex := .alt (.set (Unicode.CodeSet.singleton 97)) (.set (Unicode.CodeSet.singleton 98))
  depth := 1

end ApiContract.Pattern
