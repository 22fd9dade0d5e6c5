import Wireframe.Name
import Wireframe.Style

/-! An anchor is a style body inside layout text: a name, a colon after it, and a body
that ends where the layout goes on. Cutting the anchors leaves the names in place. -/

namespace Wireframe

open Text

/-- Text that begins with a name and a colon: the name, the blanks between the two,
and what follows the colon. -/
structure Labelled where
  name : List Char
  gap : List Char
  after : List Char
  deriving Repr, DecidableEq

/-- Reads a name and a colon at the very start of a text. -/
def Labelled.ofText? : List Char → Option Labelled
  | [] => none
  | c :: rest =>
      let tail := rest.dropWhile Name.isTail
      match tail.dropWhile isBlank with
      | ':' :: after =>
          if Name.isHead c then
            some ⟨c :: rest.takeWhile Name.isTail, tail.takeWhile isBlank, after⟩
          else none
      | _ => none

theorem Labelled.length_after {text : List Char} {found : Labelled}
    (labelled : Labelled.ofText? text = some found) : found.after.length < text.length := by
  match text with
  | [] => simp [Labelled.ofText?] at labelled
  | c :: rest =>
      simp only [Labelled.ofText?] at labelled
      split at labelled
      next after colon =>
        split at labelled
        · obtain rfl := Option.some.inj labelled
          have skipped := congrArg List.length colon
          have := (List.dropWhile_suffix (l := rest.dropWhile Name.isTail) isBlank).length_le
          have := (List.dropWhile_suffix (l := rest) Name.isTail).length_le
          simp only [List.length_cons] at *
          omega
        · cases labelled
      · cases labelled

/-- The first label of a text with what stands before it. A label starts where no name
goes on: at the start, if `fresh`, and after every character that no name holds. -/
def Labelled.find? (fresh : Bool) : List Char → Option (List Char × Labelled)
  | [] => none
  | c :: rest =>
      match if fresh then Labelled.ofText? (c :: rest) else none with
      | some found => some ([], found)
      | none =>
          (Labelled.find? (!Name.isTail c) rest).map fun (before, found) =>
            (c :: before, found)

theorem Labelled.length_find {fresh : Bool} {text before : List Char} {found : Labelled}
    (labelled : Labelled.find? fresh text = some (before, found)) :
    found.after.length < text.length := by
  induction text generalizing fresh before with
  | nil => simp [Labelled.find?] at labelled
  | cons c rest ih =>
      simp only [Labelled.find?] at labelled
      split at labelled
      next first here =>
        split at here
        · obtain ⟨-, rfl⟩ := Prod.mk.inj (Option.some.inj labelled)
          exact Labelled.length_after here
        · cases here
      next =>
        obtain ⟨⟨later, other⟩, inner, same⟩ := Option.map_eq_some_iff.mp labelled
        obtain ⟨-, rfl⟩ := Prod.mk.inj same
        exact Nat.lt_succ_of_lt (ih inner)

/-- The characters at which a style body inside layout text ends. -/
def Anchor.isDelimiter (c : Char) : Bool :=
  c ∈ ['/', '+', '[', ']', '(', ')']

/-- A style body with the layout text before it, which ends in the name that the body
styles and blanks. -/
structure Anchor where
  before : List Char
  name : List Char
  gap : List Char
  body : List Char
  deriving Repr, DecidableEq

namespace Anchor

/-- The layout text that cutting the anchor leaves. -/
def kept (anchor : Anchor) : List Char :=
  anchor.before ++ anchor.name ++ anchor.gap

/-- What cutting the anchor removes. -/
def removed (anchor : Anchor) : List Char :=
  ':' :: anchor.body

def entity (anchor : Anchor) : String :=
  String.ofList anchor.name

def tokens (anchor : Anchor) : List String :=
  Style.tokens anchor.body

/-- The anchors of a text, from left to right, and the layout text after the last. -/
def decompose (text : List Char) : List Anchor × List Char :=
  match _found : Labelled.find? true text with
  | none => ([], text)
  | some (before, found) =>
      let anchor : Anchor :=
        ⟨before, found.name, found.gap, found.after.takeWhile (!isDelimiter ·)⟩
      let (anchors, last) := decompose (found.after.dropWhile (!isDelimiter ·))
      (anchor :: anchors, last)
  termination_by text.length
  decreasing_by
    have := Labelled.length_find _found
    have := (List.dropWhile_suffix (l := found.after) (!isDelimiter ·)).length_le
    omega

/-- The layout text without its anchors, trimmed. -/
def remainder (text : List Char) : List Char :=
  let (anchors, last) := decompose text
  trim (anchors.flatMap kept ++ last)

/-- The names with style tokens, in order; anchors without tokens count for nothing. -/
def styles (text : List Char) : List (String × List String) :=
  ((decompose text).1.map fun anchor => (anchor.entity, anchor.tokens)).filter
    fun (_, tokens) => !tokens.isEmpty

end Anchor

end Wireframe
