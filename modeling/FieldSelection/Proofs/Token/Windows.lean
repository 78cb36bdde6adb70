import FieldSelection.Token.Stream
import Mathlib.Data.List.Basic

/-!
Contract: whatever is cut from a stream is a window of it.

Owns:
- `TokenStream.window`, the lexemes between two positions, with the end of the whole text;
- `Cut.bounds`, the positions between which a cut keeps lexemes, as one slice does;
- `TokenStream.CutsAgree`, the laws of all ways to cut, with their exact bounds.

Does not own: the reading of tokens from a stream (`FieldSelection.Proofs.Token.Reading`).

Every cut is first put as a slice. What is true of slices, that a slice of a slice is a
slice, then carries a whole sequence of cuts.
-/

set_option autoImplicit false

namespace FieldSelection

namespace TokenStream

/-- The lexemes from `start` up to, and without, `stop`. -/
def window (stream : TokenStream) (start stop : Nat) : TokenStream :=
  ⟨(stream.lexemes.take stop).drop start, stream.eof⟩

variable (stream : TokenStream)

/-! ## Slices -/

theorem slice?_eq_some_iff
    {start stop : Nat}
    {part : TokenStream} :
    stream.slice? start stop = some part
      ↔ (start ≤ stop ∧ stop ≤ stream.length) ∧ part = stream.window start stop := by
  unfold slice?
  by_cases bounded : start ≤ stop ∧ stop ≤ stream.length
  · rw [if_pos bounded]
    constructor
    · intro kept
      exact ⟨bounded, (Option.some.inj kept).symm⟩
    · intro kept
      rw [kept.2]
      rfl
  · rw [if_neg bounded]
    constructor
    · intro kept
      cases kept
    · intro kept
      exact absurd kept.1 bounded

theorem slice?_eq_none_iff
    {start stop : Nat} :
    stream.slice? start stop = none ↔ stop < start ∨ stream.length < stop := by
  unfold slice?
  by_cases bounded : start ≤ stop ∧ stop ≤ stream.length
  · rw [if_pos bounded]
    simp only [reduceCtorEq, false_iff]
    omega
  · rw [if_neg bounded]
    simp only [true_iff]
    omega

theorem length_window
    {start stop : Nat}
    (within : stop ≤ stream.length) :
    (stream.window start stop).length = stop - start := by
  have held : stop ≤ stream.lexemes.length := within
  show ((stream.lexemes.take stop).drop start).length = stop - start
  rw [List.length_drop, List.length_take, Nat.min_eq_left held]

theorem window_whole :
    stream.window 0 stream.length = stream := by
  show TokenStream.mk ((stream.lexemes.take stream.lexemes.length).drop 0) stream.eof = stream
  rw [List.take_length, List.drop_zero]

/-- A window of a window is a window. -/
theorem window_window
    {start stop first last : Nat}
    (within : start + last ≤ stop) :
    (stream.window start stop).window first last
      = stream.window (start + first) (start + last) := by
  show TokenStream.mk
      ((((stream.lexemes.take stop).drop start).take last).drop first) stream.eof
    = TokenStream.mk ((stream.lexemes.take (start + last)).drop (start + first)) stream.eof
  rw [List.take_drop, List.drop_drop, List.take_take, Nat.min_eq_left within]

/-- A window stands at its first lexeme, and an empty one at the end of the whole text. -/
theorem offset_window
    {start stop : Nat}
    (ordered : start ≤ stop)
    (within : stop ≤ stream.length) :
    (start < stop ∧ ∃ lexeme, stream.lexemes[start]? = some lexeme
        ∧ (stream.window start stop).offset = lexeme.offset)
      ∨ (start = stop ∧ (stream.window start stop).offset = stream.eof) := by
  have front : (stream.window start stop).first? = (stream.lexemes.take stop)[start]? := by
    show ((stream.lexemes.take stop).drop start).head? = _
    rw [List.head?_drop]
  by_cases empty : start = stop
  · right
    rw [List.getElem?_eq_none (by rw [empty]; exact List.length_take_le _ _)] at front
    refine ⟨empty, ?_⟩
    unfold offset
    rw [front]
    rfl
  · left
    have before : start < stop := by omega
    have held : start < stream.lexemes.length := by
      have : stop ≤ stream.lexemes.length := within
      omega
    rw [List.getElem?_take_of_lt before, List.getElem?_eq_getElem held] at front
    refine ⟨before, stream.lexemes[start], List.getElem?_eq_getElem held, ?_⟩
    unfold offset
    rw [front]

end TokenStream

/-! ## Every cut is a slice -/

/-- The positions between which a cut of a stream of `length` lexemes keeps them. -/
def Cut.bounds (length : Nat) : Cut → Nat × Nat
  | .take count => (0, count)
  | .splitFront count => (0, count)
  | .splitBack count => (count, length)
  | .slice start stop => (start, stop)
  | .sliceTo stop => (0, stop)
  | .sliceFrom start => (start, length)
  | .whole => (0, length)

namespace TokenStream

variable (stream : TokenStream)

theorem take?_eq_slice?
    (count : Nat) :
    stream.take? count = stream.slice? 0 count := by
  unfold take? slice?
  simp only [Nat.zero_le, true_and, List.drop_zero]

theorem take?_eq_none_iff
    {count : Nat} :
    stream.take? count = none ↔ stream.length < count := by
  rw [take?_eq_slice?, slice?_eq_none_iff]
  omega

/-- A split within bounds gives the back of the stream first, and then the front. -/
theorem split?_of_le
    {count : Nat}
    (within : count ≤ stream.length) :
    stream.split? count = some (stream.window count stream.length, stream.window 0 count) := by
  have whole : stream.lexemes.take stream.length = stream.lexemes := List.take_length
  unfold split? window
  rw [if_pos within, whole, List.splitAt_eq]
  rfl

theorem split?_eq_none_iff
    {count : Nat} :
    stream.split? count = none ↔ stream.length < count := by
  by_cases within : count ≤ stream.length
  · rw [stream.split?_of_le within]
    simp only [reduceCtorEq, false_iff]
    omega
  · unfold split?
    rw [if_neg within]
    simp only [true_iff]
    omega

/-- Every cut is a slice; it is out of bounds where the slice is. -/
theorem cut?_eq_slice?
    (cut : Cut) :
    stream.cut? cut
      = stream.slice? (cut.bounds stream.length).1 (cut.bounds stream.length).2 := by
  cases cut with
  | take count => exact stream.take?_eq_slice? count
  | splitFront count =>
      show (stream.split? count).map Prod.snd = stream.slice? 0 count
      by_cases within : count ≤ stream.length
      · rw [stream.split?_of_le within]
        exact (stream.slice?_eq_some_iff.2 ⟨⟨Nat.zero_le _, within⟩, rfl⟩).symm
      · rw [stream.split?_eq_none_iff.2 (by omega), stream.slice?_eq_none_iff.2 (by omega)]
        rfl
  | splitBack count =>
      show (stream.split? count).map Prod.fst = stream.slice? count stream.length
      by_cases within : count ≤ stream.length
      · rw [stream.split?_of_le within]
        exact (stream.slice?_eq_some_iff.2 ⟨⟨within, Nat.le_refl _⟩, rfl⟩).symm
      · rw [stream.split?_eq_none_iff.2 (by omega), stream.slice?_eq_none_iff.2 (by omega)]
        rfl
  | slice start stop => rfl
  | sliceTo stop => rfl
  | sliceFrom start => rfl
  | whole =>
      exact (stream.slice?_eq_some_iff.2
        ⟨⟨Nat.zero_le _, Nat.le_refl _⟩, stream.window_whole.symm⟩).symm

/-! ## A sequence of cuts -/

/-- One cut leads from a stream to a window of it, also where it is out of bounds. -/
theorem exists_window_of_cut
    (cut : Cut) :
    ∃ start stop, (start ≤ stop ∧ stop ≤ stream.length)
      ∧ (stream.cut? cut).getD stream = stream.window start stop := by
  cases kept : stream.cut? cut with
  | none =>
      exact ⟨0, stream.length, ⟨Nat.zero_le _, Nat.le_refl _⟩, stream.window_whole.symm⟩
  | some part =>
      rw [cut?_eq_slice?] at kept
      exact ⟨_, _, stream.slice?_eq_some_iff.1 kept⟩

/-- Cuts one after another lead to a window of the first stream. -/
theorem exists_window_of_cutAll
    (cuts : List Cut) :
    ∃ start stop, (start ≤ stop ∧ stop ≤ stream.length)
      ∧ stream.cutAll cuts = stream.window start stop := by
  induction cuts generalizing stream with
  | nil =>
      exact ⟨0, stream.length, ⟨Nat.zero_le _, Nat.le_refl _⟩, stream.window_whole.symm⟩
  | cons cut later inductionHypothesis =>
      obtain ⟨start, stop, bounded, next⟩ := stream.exists_window_of_cut cut
      obtain ⟨first, last, nextBounded, reached⟩ := inductionHypothesis (stream.window start stop)
      rw [length_window stream bounded.2] at nextBounded
      refine ⟨start + first, start + last, ⟨by omega, by omega⟩, ?_⟩
      show ((stream.cut? cut).getD stream).cutAll later = _
      rw [next, reached, window_window stream (by omega)]

/-! ## The ways to cut agree -/

/-- What the ways to cut one stream keep, when they are out of bounds, and what they have to do with
one another. -/
structure CutsAgree : Prop where
  /-- A step of a sequence keeps what one slice keeps, and is out of bounds where the slice is. -/
  cut?_eq_slice? : ∀ cut : Cut, stream.cut? cut
    = stream.slice? (cut.bounds stream.length).1 (cut.bounds stream.length).2
  /-- A slice within bounds is the window between its positions. -/
  slice?_eq_some_iff : ∀ start stop part, stream.slice? start stop = some part
    ↔ (start ≤ stop ∧ stop ≤ stream.length) ∧ part = stream.window start stop
  slice?_eq_none_iff : ∀ start stop,
    stream.slice? start stop = none ↔ stop < start ∨ stream.length < stop
  take?_eq_slice? : ∀ count, stream.take? count = stream.slice? 0 count
  sliceTo?_eq_take? : ∀ stop, stream.sliceTo? stop = stream.take? stop
  /-- As many lexemes can be taken as there are, and no more. -/
  take?_eq_none_iff : ∀ count, stream.take? count = none ↔ stream.length < count
  split?_eq_none_iff : ∀ count, stream.split? count = none ↔ stream.length < count
  sliceTo?_eq_none_iff : ∀ stop, stream.sliceTo? stop = none ↔ stream.length < stop
  sliceFrom?_eq_none_iff : ∀ start, stream.sliceFrom? start = none ↔ stream.length < start
  /-- A split consists of the lexemes from the position on and of those up to it, in this order. -/
  split?_eq_some_iff : ∀ count back front, stream.split? count = some (back, front)
    ↔ stream.sliceFrom? count = some back ∧ stream.take? count = some front
  /-- The halves of a split, put together, are the stream. -/
  append_of_split? : ∀ count back front, stream.split? count = some (back, front) →
    stream = ⟨front.lexemes ++ back.lexemes, stream.eof⟩
  /-- A count is an index if so many lexemes can be taken. -/
  sliceIndex_eq_ok_iff : ∀ count index, stream.sliceIndex count = .ok index
    ↔ index = count ∧ stream.take? count ≠ none
  /-- Else as many are asked for as are missing. -/
  sliceIndex_eq_error_iff : ∀ count needed, stream.sliceIndex count = .error needed
    ↔ needed = count - stream.length ∧ stream.take? count = none
  /-- A slice of a slice is a slice of the stream. -/
  slice?_of_slice? : ∀ start stop first last part inner,
    stream.slice? start stop = some part → part.slice? first last = some inner →
      stream.slice? (start + first) (start + last) = some inner

theorem split?_eq_some_iff
    {count : Nat}
    {back front : TokenStream} :
    stream.split? count = some (back, front)
      ↔ stream.sliceFrom? count = some back ∧ stream.take? count = some front := by
  unfold sliceFrom?
  rw [take?_eq_slice?, slice?_eq_some_iff, slice?_eq_some_iff]
  by_cases within : count ≤ stream.length
  · rw [stream.split?_of_le within]
    simp only [Option.some.injEq, Prod.mk.injEq, within, Nat.le_refl, Nat.zero_le, true_and]
    exact and_congr eq_comm eq_comm
  · rw [stream.split?_eq_none_iff.2 (by omega)]
    simp only [reduceCtorEq, within, false_and]

theorem append_of_split?
    {count : Nat}
    {back front : TokenStream}
    (halves : stream.split? count = some (back, front)) :
    stream = ⟨front.lexemes ++ back.lexemes, stream.eof⟩ := by
  have parts := stream.split?_eq_some_iff.1 halves
  unfold sliceFrom? at parts
  rw [take?_eq_slice?, slice?_eq_some_iff, slice?_eq_some_iff] at parts
  rw [parts.1.2, parts.2.2]
  have whole : stream.lexemes.take stream.length = stream.lexemes := List.take_length
  show stream = ⟨(stream.lexemes.take count).drop 0
    ++ (stream.lexemes.take stream.length).drop count, stream.eof⟩
  rw [whole, List.drop_zero, List.take_append_drop]

theorem slice?_of_slice?
    {start stop first last : Nat}
    {part inner : TokenStream}
    (outerKept : stream.slice? start stop = some part)
    (innerKept : part.slice? first last = some inner) :
    stream.slice? (start + first) (start + last) = some inner := by
  obtain ⟨outerBounds, rfl⟩ := stream.slice?_eq_some_iff.1 outerKept
  obtain ⟨innerBounds, rfl⟩ := (stream.window start stop).slice?_eq_some_iff.1 innerKept
  rw [stream.length_window outerBounds.2] at innerBounds
  rw [stream.window_window (by omega)]
  exact stream.slice?_eq_some_iff.2 ⟨⟨by omega, by omega⟩, rfl⟩

theorem cutsAgree : stream.CutsAgree where
  cut?_eq_slice? := stream.cut?_eq_slice?
  slice?_eq_some_iff _ _ _ := stream.slice?_eq_some_iff
  slice?_eq_none_iff _ _ := stream.slice?_eq_none_iff
  take?_eq_slice? := stream.take?_eq_slice?
  sliceTo?_eq_take? stop := (stream.take?_eq_slice? stop).symm
  take?_eq_none_iff _ := stream.take?_eq_none_iff
  split?_eq_none_iff _ := stream.split?_eq_none_iff
  sliceTo?_eq_none_iff _ := by
    unfold sliceTo?
    rw [slice?_eq_none_iff]
    omega
  sliceFrom?_eq_none_iff _ := by
    unfold sliceFrom?
    rw [slice?_eq_none_iff]
    omega
  split?_eq_some_iff _ _ _ := stream.split?_eq_some_iff
  append_of_split? _ _ _ := stream.append_of_split?
  sliceIndex_eq_ok_iff count index := by
    unfold sliceIndex
    rw [ne_eq, take?_eq_none_iff, Nat.not_lt]
    by_cases within : count ≤ stream.length
    · simp only [within, if_true, Except.ok.injEq, and_true]
      exact eq_comm
    · simp only [within, if_false, reduceCtorEq, and_false]
  sliceIndex_eq_error_iff count needed := by
    unfold sliceIndex
    rw [take?_eq_none_iff, ← Nat.not_le]
    by_cases within : count ≤ stream.length
    · simp only [within, if_true, reduceCtorEq, not_true_eq_false, and_false]
    · simp only [within, if_false, Except.error.injEq, not_false_eq_true, and_true]
      exact eq_comm
  slice?_of_slice? _ _ _ _ _ _ := stream.slice?_of_slice?

end TokenStream

/-- Cuts one after another, those out of bounds passed over, lead to a window of the lexemes that
they begin with. The end stays that of the whole text, and the offset is that of the first lexeme of
the window if there is one. On every stream each way to cut has its exact bounds, and the ways to
cut agree. -/
theorem TokenStream.cutAll_eq_window :
    (∀ (lexemes : List Lexeme) (eof : Nat) (cuts : List Cut), ∃ start stop,
        (start ≤ stop ∧ stop ≤ lexemes.length)
          ∧ cutAll ⟨lexemes, eof⟩ cuts = ⟨(lexemes.take stop).drop start, eof⟩
          ∧ ((start < stop ∧ ∃ lexeme, lexemes[start]? = some lexeme
                ∧ (cutAll ⟨lexemes, eof⟩ cuts).offset = lexeme.offset)
            ∨ (start = stop ∧ (cutAll ⟨lexemes, eof⟩ cuts).offset = eof)))
      ∧ ∀ stream : TokenStream, stream.CutsAgree := by
  refine ⟨?_, cutsAgree⟩
  intro lexemes eof cuts
  obtain ⟨start, stop, bounded, reached⟩ := exists_window_of_cutAll ⟨lexemes, eof⟩ cuts
  refine ⟨start, stop, bounded, reached, ?_⟩
  rw [reached]
  exact offset_window ⟨lexemes, eof⟩ bounded.1 bounded.2

/-- The second cut asks for too much and changes nothing; the third counts from the first. -/
example :
    TokenStream.cutAll ⟨[⟨.word "a", 0⟩, ⟨.slash, 1⟩, ⟨.word "b", 2⟩, ⟨.comma, 3⟩], 7⟩
        [.sliceFrom 1, .take 4, .slice 1 2]
      = ⟨[⟨.word "b", 2⟩], 7⟩ := by
  decide

end FieldSelection
