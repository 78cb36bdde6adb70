import FieldSelection.Node.Digest
import FieldSelection.Proofs.Node.Equality

/-!
Contract: which trees come to the same bytes when they are hashed.

Owns:
- the bytes of a unit, told from whatever follows them;
- `Node.ScopeFree`, the trees without sub-selections, whose bytes can be read back;
- the trees that are apart and have one digest.

Does not own: what is fed to a hash function for a node (`FieldSelection.Node.Digest`), or
the comparison of trees (`FieldSelection.Proofs.Node.Equality`).

The bytes say of every selector and of every field how it goes on, and where a word ends. So
they are a prefix code as long as no list stands inside a selector. The code is compared with
that of any tree: where the other one has a sub-selection, its number says so at once, before
any byte is taken for something else than it is.
-/

set_option autoImplicit false

namespace FieldSelection

/-! ## Bytes of units -/

theorem NumberFormat.length_bytes
    (format : NumberFormat)
    (number : Nat) :
    (format.bytes number).length = format.width.size := by
  unfold bytes
  split
  · rw [List.length_reverse, List.length_map, List.length_range]
  · rw [List.length_map, List.length_range]

theorem NumberFormat.bytes_ne_nil
    (format : NumberFormat)
    (number : Nat) :
    format.bytes number ≠ [] := by
  rw [← List.length_pos_iff, length_bytes]
  cases format.width <;> decide

theorem NumberFormat.bytes_zero_ne_bytes_one
    (format : NumberFormat) :
    format.bytes 0 ≠ format.bytes 1 := by
  obtain ⟨width, highestFirst⟩ := format
  cases width <;> cases highestFirst <;> decide

namespace DigestUnit

variable {format : NumberFormat} {units others : List DigestUnit} {after later : List UInt8}

/-- Numbers are as long as one another, so that the two alternatives are told apart whatever
follows. -/
theorem variant_zero_append_ne :
    (variant 0 :: units).flatMap (bytes format) ++ after
      ≠ (variant 1 :: others).flatMap (bytes format) ++ later := by
  intro same
  rw [List.flatMap_cons, List.flatMap_cons, List.append_assoc, List.append_assoc] at same
  have sameLength : (format.bytes 0).length = (format.bytes 1).length := by
    rw [format.length_bytes, format.length_bytes]
  exact format.bytes_zero_ne_bytes_one (List.append_inj_left same sameLength)

theorem append_eq_of_variant_append_eq
    {number : Nat}
    (same : (variant number :: units).flatMap (bytes format) ++ after
      = (variant number :: others).flatMap (bytes format) ++ later) :
    units.flatMap (bytes format) ++ after = others.flatMap (bytes format) ++ later := by
  rw [List.flatMap_cons, List.flatMap_cons, List.append_assoc, List.append_assoc] at same
  exact List.append_cancel_left same

/-- No byte of a character has all its bits set. -/
theorem textEnd_notMem_utf8EncodeChar
    (character : Char) :
    textEnd ∉ String.utf8EncodeChar character := by
  have small : ∀ number, number < 255 → textEnd ≠ UInt8.ofNat number := by
    intro number bound same
    have numbers := congrArg UInt8.toNat same
    rw [UInt8.toNat_ofNat', show textEnd.toNat = 255 from rfl] at numbers
    omega
  unfold String.utf8EncodeChar
  dsimp only
  split
  · simp only [List.mem_singleton]
    exact small _ (by omega)
  · split
    · simp only [List.mem_cons, List.not_mem_nil, or_false, not_or]
      exact ⟨small _ (by omega), small _ (by omega)⟩
    · split
      · simp only [List.mem_cons, List.not_mem_nil, or_false, not_or]
        exact ⟨small _ (by omega), small _ (by omega), small _ (by omega)⟩
      · simp only [List.mem_cons, List.not_mem_nil, or_false, not_or]
        exact ⟨small _ (by omega), small _ (by omega), small _ (by omega), small _ (by omega)⟩

/-- What stands before the first end of a text is the text, whatever follows. -/
theorem takeWhile_bytes_text
    (format : NumberFormat)
    (content : String)
    (after : List UInt8) :
    ((text content).bytes format ++ after).takeWhile (· != textEnd)
      = content.toList.flatMap String.utf8EncodeChar := by
  have inside : ∀ byte ∈ content.toList.flatMap String.utf8EncodeChar,
      (byte != textEnd) = true := by
    intro byte member
    obtain ⟨character, -, member⟩ := List.mem_flatMap.1 member
    rw [bne_iff_ne]
    intro same
    rw [same] at member
    exact textEnd_notMem_utf8EncodeChar character member
  rw [bytes, List.append_assoc, List.takeWhile_append_of_pos inside, List.singleton_append,
    List.takeWhile_cons_of_neg (by decide), List.append_nil]

theorem eq_of_text_append_eq
    {left right : String}
    (same : [text left].flatMap (bytes format) ++ after
      = [text right].flatMap (bytes format) ++ later) :
    left = right ∧ after = later := by
  rw [List.flatMap_singleton, List.flatMap_singleton] at same
  have sameBytes := congrArg (List.takeWhile (· != textEnd)) same
  rw [takeWhile_bytes_text, takeWhile_bytes_text] at sameBytes
  have sameText : left = right := by
    rw [← String.toByteArray_inj, ← String.utf8Encode_toList, ← String.utf8Encode_toList]
    exact congrArg List.toByteArray sameBytes
  rw [sameText] at same
  exact ⟨sameText, List.append_cancel_left same⟩

end DigestUnit

namespace Node

/-! ## Digests -/

/-- There is no sub-selection in the tree. -/
def ScopeFree : {shape : Shape} → Node shape → Prop
  | _, .literal _ => True
  | _, .star => True
  | _, .ofWord word => word.ScopeFree
  | _, .ofWildcard wildcard => wildcard.ScopeFree
  | _, .ofName name => name.ScopeFree
  | _, .ofSubSelection _ => False
  | _, .scope _ _ => False
  | _, .ofField field => field.ScopeFree
  | _, .ofChain chain => chain.ScopeFree
  | _, .slash init last => init.ScopeFree ∧ last.ScopeFree
  | _, .only alternative => alternative.ScopeFree
  | _, .cons alternative rest => alternative.ScopeFree ∧ rest.ScopeFree

/-- The digest of a selection is those of its alternatives, one after another and nothing else. -/
theorem digest_eq_flatMap :
    (selection : Selection) → selection.digest = selection.alternatives.flatMap digest
  | .only alternative => by simp [digest, alternatives]
  | .cons alternative rest => by
      rw [digest, alternatives, List.flatMap_cons, digest_eq_flatMap rest]

section Bytes

variable {format : NumberFormat}

theorem digestBytes_slash
    (init : Selector)
    (last : Field) :
    (slash init last).digestBytes format = init.digestBytes format ++ last.digestBytes format :=
  List.flatMap_append

theorem digestBytes_cons
    (alternative : Selector)
    (rest : Selection) :
    (cons alternative rest).digestBytes format
      = alternative.digestBytes format ++ rest.digestBytes format :=
  List.flatMap_append

theorem digestBytes_ne_nil
    (selection : Selection) :
    selection.digestBytes format ≠ [] := by
  have first : ∀ alternative : Selector, alternative.digestBytes format ≠ [] := by
    intro alternative
    cases alternative <;> exact List.append_ne_nil_of_left_ne_nil (format.bytes_ne_nil _) _
  cases selection with
  | only alternative => exact first alternative
  | cons alternative rest =>
      rw [digestBytes_cons]
      exact List.append_ne_nil_of_left_ne_nil (first alternative) _

/-- Whatever follows the bytes of a node without lists, the node is read back from the front. -/
theorem eq_of_digestBytes_append_eq
    {shape : Shape}
    {node : Node shape}
    (noList : shape ≠ .selection)
    (free : node.ScopeFree)
    {other : Node shape}
    {after later : List UInt8}
    (same : node.digestBytes format ++ after = other.digestBytes format ++ later) :
    node = other ∧ after = later := by
  induction node generalizing after later with
  | literal text =>
      cases other with
      | literal otherText =>
          have read := DigestUnit.eq_of_text_append_eq same
          rw [read.1]
          exact ⟨rfl, read.2⟩
  | star =>
      cases other with
      | star => exact ⟨rfl, same⟩
  | ofWord word inductionHypothesis =>
      cases other with
      | ofWord otherWord =>
          have read := inductionHypothesis nofun free (DigestUnit.append_eq_of_variant_append_eq same)
          rw [read.1]
          exact ⟨rfl, read.2⟩
      | ofWildcard otherWildcard => exact absurd same DigestUnit.variant_zero_append_ne
  | ofWildcard wildcard inductionHypothesis =>
      cases other with
      | ofWord otherWord => exact absurd same.symm DigestUnit.variant_zero_append_ne
      | ofWildcard otherWildcard =>
          have read := inductionHypothesis nofun free (DigestUnit.append_eq_of_variant_append_eq same)
          rw [read.1]
          exact ⟨rfl, read.2⟩
  | ofName name inductionHypothesis =>
      cases other with
      | ofName otherName =>
          have read := inductionHypothesis nofun free (DigestUnit.append_eq_of_variant_append_eq same)
          rw [read.1]
          exact ⟨rfl, read.2⟩
      | ofSubSelection otherSubSelection =>
          -- Here the other tree may have a list, and its first number tells.
          exact absurd same DigestUnit.variant_zero_append_ne
  | ofField field inductionHypothesis =>
      cases other with
      | ofField otherField =>
          have read := inductionHypothesis nofun free (DigestUnit.append_eq_of_variant_append_eq same)
          rw [read.1]
          exact ⟨rfl, read.2⟩
      | ofChain otherChain => exact absurd same DigestUnit.variant_zero_append_ne
  | ofChain chain inductionHypothesis =>
      cases other with
      | ofField otherField => exact absurd same.symm DigestUnit.variant_zero_append_ne
      | ofChain otherChain =>
          have read := inductionHypothesis nofun free (DigestUnit.append_eq_of_variant_append_eq same)
          rw [read.1]
          exact ⟨rfl, read.2⟩
  | slash init last initHypothesis lastHypothesis =>
      cases other with
      | slash otherInit otherLast =>
          rw [digestBytes_slash, digestBytes_slash, List.append_assoc, List.append_assoc] at same
          have initRead := initHypothesis nofun free.1 same
          have lastRead := lastHypothesis nofun free.2 initRead.2
          rw [initRead.1, lastRead.1]
          exact ⟨rfl, lastRead.2⟩
  | ofSubSelection | scope => exact absurd free id
  | only | cons => exact absurd rfl noList

/-- A selection without sub-selections has bytes of its own among all selections. -/
theorem eq_of_digestBytes_eq :
    {left right : Selection} →
      left.ScopeFree →
      left.digestBytes format = right.digestBytes format →
      left = right
  | .only left, .only right, (free : left.ScopeFree), same => by
      have padded : left.digestBytes format ++ [] = right.digestBytes format ++ [] := by
        rw [List.append_nil, List.append_nil]
        exact same
      have read := eq_of_digestBytes_append_eq (by decide) free padded
      rw [read.1]
  | .only left, .cons right rights, (free : left.ScopeFree), same => by
      have padded : left.digestBytes format ++ []
          = right.digestBytes format ++ rights.digestBytes format := by
        rw [List.append_nil, ← digestBytes_cons]
        exact same
      have read := eq_of_digestBytes_append_eq (by decide) free padded
      exact absurd read.2.symm rights.digestBytes_ne_nil
  | .cons left lefts, .only right, (free : left.ScopeFree ∧ lefts.ScopeFree), same => by
      have padded : left.digestBytes format ++ lefts.digestBytes format
          = right.digestBytes format ++ [] := by
        rw [List.append_nil, ← digestBytes_cons]
        exact same
      have read := eq_of_digestBytes_append_eq (by decide) free.1 padded
      exact absurd read.2 lefts.digestBytes_ne_nil
  | .cons left lefts, .cons right rights, (free : left.ScopeFree ∧ lefts.ScopeFree), same => by
      rw [digestBytes_cons, digestBytes_cons] at same
      have read := eq_of_digestBytes_append_eq (by decide) free.1 same
      rw [read.1, eq_of_digestBytes_eq free.2 read.2]

end Bytes

/-! ## Digests that are shared -/

/-- One alternative `name(first,second)`. -/
def bothWithin (name : Name) (first second : Selection) : Selection :=
  .only (.ofField (.ofSubSelection (.scope name
    (first.withAlternatives (first.alternatives ++ second.alternatives)))))

/-- The alternative `name(first)`, and those of `second` after it. -/
def firstWithin (name : Name) (first second : Selection) : Selection :=
  .cons (.ofField (.ofSubSelection (.scope name first))) second

/-- Where a body ends is not to be seen in a digest. -/
theorem digest_bothWithin
    (name : Name)
    (first second : Selection) :
    (bothWithin name first second).digest = (firstWithin name first second).digest := by
  have nonempty : first.alternatives ++ second.alternatives ≠ [] :=
    List.append_ne_nil_of_left_ne_nil first.alternatives_ne_nil _
  have joined : (first.withAlternatives (first.alternatives ++ second.alternatives)).digest
      = first.digest ++ second.digest := by
    rw [digest_eq_flatMap, alternatives_withAlternatives first nonempty, List.flatMap_append,
      ← digest_eq_flatMap, ← digest_eq_flatMap]
  simp [bothWithin, firstWithin, digest, joined]

theorem bothWithin_ne_firstWithin
    (name : Name)
    (first second : Selection) :
    bothWithin name first second ≠ firstWithin name first second := by
  unfold bothWithin firstWithin
  exact nofun

end Node

/-- Trees of one shape compare as equal exactly if they are one tree, down to the text of each word
and the order and number of alternatives. A clone is equal to its original. Equal trees have one
digest, and so come to the same bytes on every machine; a selection without sub-selections shares
its bytes with no other. With sub-selections this fails for every name and all lists of
alternatives: `name(first,second)` and `name(first),second` have one digest and are not equal. -/
theorem Node.equality_and_digest :
    (∀ {shape : Shape} (left right : Node shape),
        (left.equals right = true ↔ left = right)
          ∧ left.clone.equals left = true
          ∧ (left.equals right = true →
              left.digest = right.digest
                ∧ ∀ format, left.digestBytes format = right.digestBytes format))
      ∧ (∀ (format : NumberFormat) (left right : Selection),
          left.digestBytes format = right.digestBytes format →
          left.ScopeFree ∨ right.ScopeFree → left.equals right = true)
      ∧ ∀ (name : Name) (first second : Selection),
          (bothWithin name first second).digest = (firstWithin name first second).digest
            ∧ (∀ format, (bothWithin name first second).digestBytes format
                = (firstWithin name first second).digestBytes format)
            ∧ (bothWithin name first second).equals (firstWithin name first second) = false := by
  refine ⟨?_, ?_, ?_⟩
  · intro shape left right
    refine ⟨equals_iff left right, ?_, ?_⟩
    · rw [equals_iff]
      exact clone_eq left
    · intro equal
      rw [(equals_iff left right).1 equal]
      exact ⟨rfl, fun _ => rfl⟩
  · intro format left right same free
    rw [equals_iff]
    rcases free with leftFree | rightFree
    · exact eq_of_digestBytes_eq leftFree same
    · exact (eq_of_digestBytes_eq rightFree same.symm).symm
  · intro name first second
    have sameDigest := digest_bothWithin name first second
    refine ⟨sameDigest, ?_, ?_⟩
    · intro format
      exact congrArg (List.flatMap (DigestUnit.bytes format)) sameDigest
    · rw [← Bool.not_eq_true, equals_iff]
      exact bothWithin_ne_firstWithin name first second

/-- The first word looks like the number of an alternative. One list is made of its alternatives,
the other as a chain of constructors. -/
theorem Node.equality_and_digest_word_like_number :
    let number : Selector :=
      .ofChain (.slash (.ofField (.ofName (.ofWord (.literal "\x00\x00"))))
        (.ofName (.ofWildcard .star)))
    let word : Selector := .ofField (.ofName (.ofWord (.literal "é")))
    let format : NumberFormat := ⟨.two, true⟩
    (Selection.ofList number [word]).digestBytes format
        = (Node.cons number (.only word)).digestBytes format
      ∧ (Node.cons number (.only word)).ScopeFree
      ∧ (Selection.ofList number [word]).equals (.cons number (.only word)) = true
      ∧ (Selection.ofList number [word]).digest = (Node.cons number (.only word)).digest := by
  intro number word format
  have same : (Selection.ofList number [word]).digestBytes format
      = (Node.cons number (.only word)).digestBytes format := by decide
  have free : (Node.cons number (.only word)).ScopeFree :=
    ⟨⟨True.intro, True.intro⟩, True.intro⟩
  have equal := equality_and_digest.2.1 format _ _ same (.inr free)
  exact ⟨same, free, equal, ((equality_and_digest.1 _ _).2.2 equal).1⟩

/-- The lists `x(a)/t,u` and `x(a,t)/u` have digests of their own. They come to the same bytes where
the names behind the slashes begin with the bytes of a number. -/
example :
    let word (text : String) : Field := .ofName (.ofWord (.literal text))
    let chain (body : Selection) (last : Field) : Selector :=
      .ofChain (.slash (.ofField (.ofSubSelection (.scope (.ofWord (.literal "x")) body))) last)
    let left : Selection :=
      .cons (chain (.only (.ofField (word "a"))) (word "\x00\x00t")) (.only (.ofField (word "u")))
    let right : Selection :=
      .only (chain (.cons (.ofField (word "a")) (.only (.ofField (word "t")))) (word "\x00\x00u"))
    left.digest ≠ right.digest ∧ left.digestBytes ⟨.two, true⟩ = right.digestBytes ⟨.two, true⟩ := by
  decide

end FieldSelection
