import Wireframe.Proofs.Html.Reading

/-! The tags of a page and the texts right after some of them. Those of a tree are nested, and
come from its elements. -/

namespace Wireframe

namespace Html

def Token.tag? : Token → Option Tag
  | .char _ => none
  | .tag found => some found

def tags (tokens : List Token) : List Tag :=
  tokens.filterMap Token.tag?

/-- Whether the elements that are open, the innermost first, and those that the tags open are
all closed by the tags, each inside the one around it. -/
def nests : List String → List Tag → Bool
  | around, [] => around.isEmpty
  | around, .declaration :: rest => nests around rest
  | around, .start name _ :: rest =>
      if isVoid name then nests around rest else nests (name :: around) rest
  | [], .stop _ :: _ => false
  | innermost :: around, .stop name :: rest => name == innermost && nests around rest

/-- The value of an attribute, as it is written. -/
def Tag.attribute? (key : String) : Tag → Option String
  | .start _ attributes => attributes.lookup key
  | .stop _ => none
  | .declaration => none

/-- Whether this is the first class of a tag. -/
def Tag.hasClass (name : String) (tag : Tag) : Bool :=
  (tag.attribute? "class").any fun value => value.toList.takeWhile (· ≠ ' ') == name.toList

theorem Tag.hasClass_eq {tag : Tag} {value first : String}
    (given : tag.attribute? "class" = some value)
    (word : value.toList.takeWhile (· ≠ ' ') = first.toList) (name : String) :
    tag.hasClass name = (first == name) := by
  rw [hasClass, given, Option.any_some, word, Bool.eq_iff_iff, beq_iff_eq, beq_iff_eq,
    String.toList_inj]

def Tag.opens (name : String) : Tag → Bool
  | .start other _ => name == other
  | .stop _ => false
  | .declaration => false

/-- The characters before the next tag. -/
def textAhead : List Token → List Char
  | .char c :: rest => c :: textAhead rest
  | _ => []

/-- The texts that come right after some of the tags. -/
def texts (keep : Tag → Bool) : List Token → List String
  | [] => []
  | .char _ :: rest => texts keep rest
  | .tag tag :: rest =>
      if keep tag then String.ofList (textAhead rest) :: texts keep rest else texts keep rest

/-! The tags of a tree. -/

theorem tags_append (first second : List Token) :
    tags (first ++ second) = tags first ++ tags second :=
  List.filterMap_append

theorem tags_chars (chars : List Char) : tags (chars.map .char) = [] := by
  simp [tags, List.filterMap_map, Function.comp_def, Token.tag?]

theorem tags_text (content : String) : tags (text content).tokens = [] :=
  tags_chars _

theorem tags_verbatim (content : String) : tags (verbatim content).tokens = [] :=
  tags_chars _

theorem tags_void (name : String) (attributes : List (String × String)) :
    tags (void name attributes).tokens = [.start name (written attributes)] :=
  rfl

theorem tags_element (name : String) (attributes : List (String × String))
    (children : List Html) : tags (element name attributes children).tokens =
      .start name (written attributes) :: (tags (tokensAll children) ++ [.stop name]) := by
  rw [tokens, ← List.singleton_append, tags_append, tags_append]
  rfl

theorem tags_nil : tags (tokensAll []) = [] :=
  rfl

theorem tags_cons (item : Html) (rest : List Html) :
    tags (tokensAll (item :: rest)) = tags item.tokens ++ tags (tokensAll rest) :=
  tags_append _ _

theorem tokensAll_append (first second : List Html) :
    tokensAll (first ++ second) = tokensAll first ++ tokensAll second := by
  induction first with
  | nil => rfl
  | cons item rest ih => rw [List.cons_append, tokensAll, tokensAll, ih, List.append_assoc]

mutual
theorem nests_tokens (around : List String) (rest : List Tag) : (html : Html) → html.Readable →
    nests around (tags html.tokens ++ rest) = nests around rest
  | .text content, _ => by rw [tags_text, List.nil_append]
  | .verbatim content, _ => by rw [tags_verbatim, List.nil_append]
  | .void name attributes, readable => by
      obtain ⟨-, isVoid, -⟩ := readable
      rw [tags_void, List.singleton_append, nests, if_pos isVoid]
  | .element name attributes children, readable => by
      obtain ⟨-, notVoid, -, within⟩ := readable
      rw [tags_element, List.cons_append, nests, if_neg notVoid, List.append_assoc,
        nests_tokensAll (name :: around) _ children within, List.singleton_append, nests,
        beq_self_eq_true, Bool.true_and]

theorem nests_tokensAll (around : List String) (rest : List Tag) : (items : List Html) →
    ReadableAll items → nests around (tags (tokensAll items) ++ rest) = nests around rest
  | [], _ => rfl
  | item :: others, readable => by
      rw [tags_cons, List.append_assoc, nests_tokens around _ item readable.1,
        nests_tokensAll around rest others readable.2]
end

/-! The texts of a tree. -/

section Texts

variable (keep : Tag → Bool)

mutual
/-- The texts that the elements with some of the tags begin with. -/
def kept : Html → List String
  | .text _ => []
  | .verbatim _ => []
  | .void _ _ => []
  | .element name attributes children =>
      if keep (.start name (written attributes)) then
        String.ofList (textAhead (tokensAll children)) :: keptAll children
      else keptAll children

def keptAll : List Html → List String
  | [] => []
  | item :: rest => item.kept ++ keptAll rest
end

theorem textAhead_append (front : List Token) (tag : Tag) (rest : List Token) :
    textAhead (front ++ .tag tag :: rest) = textAhead front := by
  induction front with
  | nil => rfl
  | cons token front ih =>
      cases token with
      | char c => rw [List.cons_append, textAhead, textAhead, ih]
      | tag _ => rfl

theorem textAhead_chars (chars : List Char) : textAhead (chars.map .char) = chars := by
  induction chars with
  | nil => rfl
  | cons c chars ih => rw [List.map_cons, textAhead, ih]

theorem texts_chars (chars : List Char) (rest : List Token) :
    texts keep (chars.map .char ++ rest) = texts keep rest := by
  induction chars with
  | nil => rfl
  | cons c chars ih => rw [List.map_cons, List.cons_append, texts, ih]

/-- The tags are of elements with content. -/
structure Encloses : Prop where
  notVoid : ∀ name attributes, isVoid name = true → keep (.start name attributes) = false
  notStop : ∀ name, keep (.stop name) = false

variable {keep}

mutual
theorem texts_tokens (encloses : Encloses keep) (rest : List Token) : (html : Html) →
    html.Readable → texts keep (html.tokens ++ rest) = html.kept keep ++ texts keep rest
  | .text _, _ => texts_chars keep _ rest
  | .verbatim _, _ => texts_chars keep _ rest
  | .void name attributes, readable => by
      obtain ⟨-, isVoid, -⟩ := readable
      rw [tokens, List.singleton_append, texts, encloses.notVoid name _ isVoid]
      rfl
  | .element name attributes children, readable => by
      obtain ⟨-, -, -, within⟩ := readable
      -- the text ahead ends at the stop tag at the latest, so what follows adds nothing to it
      have inside := texts_tokensAll encloses (.tag (.stop name) :: rest) children within
      have closed : texts keep (.tag (.stop name) :: rest) = texts keep rest := by
        rw [texts, encloses.notStop]
        rfl
      rw [closed] at inside
      rw [tokens, List.cons_append, List.append_assoc, List.singleton_append, texts,
        textAhead_append, inside, kept]
      split
      · rfl
      · rfl

theorem texts_tokensAll (encloses : Encloses keep) (rest : List Token) : (items : List Html) →
    ReadableAll items →
      texts keep (tokensAll items ++ rest) = keptAll keep items ++ texts keep rest
  | [], _ => rfl
  | item :: others, readable => by
      rw [tokensAll, List.append_assoc, texts_tokens encloses _ item readable.1,
        texts_tokensAll encloses rest others readable.2, keptAll, List.append_assoc]
end

end Texts

theorem keptAll_append (keep : Tag → Bool) (first second : List Html) :
    keptAll keep (first ++ second) = keptAll keep first ++ keptAll keep second := by
  induction first with
  | nil => rfl
  | cons item rest ih => rw [List.cons_append, keptAll, keptAll, ih, List.append_assoc]

theorem keptAll_eq_flatMap (keep : Tag → Bool) (items : List Html) :
    keptAll keep items = items.flatMap (kept keep) := by
  induction items with
  | nil => rfl
  | cons item rest ih => rw [keptAll, ih, List.flatMap_cons]

/-! Text between items makes no difference to their tags. -/

section Separated

variable (separator : String)

theorem tags_intersperse : (items : List Html) →
    tags (tokensAll (items.intersperse (.text separator))) = tags (tokensAll items)
  | [] => rfl
  | [_] => rfl
  | first :: second :: rest => by
      rw [List.intersperse_cons_cons, tags_cons, tags_cons, tags_text, List.nil_append,
        tags_intersperse (second :: rest), ← tags_cons]

theorem keptAll_intersperse (keep : Tag → Bool) : (items : List Html) →
    keptAll keep (items.intersperse (.text separator)) = keptAll keep items
  | [] => rfl
  | [_] => rfl
  | first :: second :: rest => by
      rw [List.intersperse_cons_cons, keptAll, keptAll, kept, List.nil_append,
        keptAll_intersperse keep (second :: rest)]
      rfl

theorem readableAll_intersperse : {items : List Html} → ReadableAll items →
    ReadableAll (items.intersperse (.text separator))
  | [], readable => readable
  | [_], readable => readable
  | _ :: _ :: _, readable => ⟨readable.1, trivial, readableAll_intersperse readable.2⟩

end Separated

end Html

end Wireframe
