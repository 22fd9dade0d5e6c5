import Wireframe.Json
import Wireframe.Toml.Text

/-! JSON objects whose values are texts, read back from their written form. -/

namespace Wireframe

namespace Text.Reader

section Steps

variable {α β : Type} {reader : Reader α} {text rest : List Char} {value : α}

theorem bind_of_some (reads : reader text = some (value, rest)) (next : α → Reader β) :
    (reader >>= next) text = next value rest := by
  simp [bind, StateT.bind, reads]

theorem bind_of_none (fails : reader text = none) (next : α → Reader β) :
    (reader >>= next) text = none := by
  simp [bind, StateT.bind, fails]

theorem orElse_apply (reader other : Reader α) (text : List Char) :
    (reader <|> other) text = (reader text).or (other text) := by
  cases taken : reader text <;> simp [HOrElse.hOrElse, OrElse.orElse, Alternative.orElse,
    StateT.orElse, taken]

theorem repeated_of_none (fails : reader text = none) : repeated reader text = ([], text) := by
  rw [repeated, fails]

theorem repeated_of_some (reads : reader text = some (value, rest))
    (shorter : rest.length < text.length) :
    repeated reader text = (value :: (repeated reader rest).1, (repeated reader rest).2) := by
  rw [repeated, reads]
  exact if_pos shorter

/-- A reader that takes what is written for each of some values, whatever comes after it,
takes all that is written for them. -/
theorem repeated_flatMap {write : α → List Char} (nonempty : ∀ value, write value ≠ [])
    (reads : ∀ value rest, reader (write value ++ rest) = some (value, rest))
    (values : List α) (fails : reader rest = none) :
    repeated reader (values.flatMap write ++ rest) = (values, rest) := by
  induction values with
  | nil => exact repeated_of_none fails
  | cons first later ih =>
      have taken := reads first (later.flatMap write ++ rest)
      have shorter : (later.flatMap write ++ rest).length <
          (write first ++ (later.flatMap write ++ rest)).length := by
        have long := List.length_pos_iff.mpr (nonempty first)
        simp only [List.length_append]
        omega
      rw [List.flatMap_cons, List.append_assoc, repeated_of_some taken shorter, ih]

theorem mapM_satisfy {accept : Char → Bool} {taken : List Char}
    (accepted : ∀ c ∈ taken, accept c) (places : List Nat) (same : places.length = taken.length)
    (rest : List Char) :
    (places.mapM fun _ => satisfy accept) (taken ++ rest) = some (taken, rest) := by
  induction taken generalizing places with
  | nil =>
      obtain rfl := List.length_eq_zero_iff.mp same
      rfl
  | cons c others ih =>
      obtain ⟨here, later⟩ := List.forall_mem_cons.mp accepted
      obtain ⟨place, places, rfl⟩ := List.exists_cons_of_length_eq_add_one same
      have first : satisfy accept (c :: (others ++ rest)) = some (c, others ++ rest) := if_pos here
      have following := ih later places (Nat.succ.inj same)
      rw [List.mapM_cons, List.cons_append, bind_of_some first, bind_of_some following]
      rfl

theorem exactly_append {accept : Char → Bool} {taken : List Char}
    (accepted : ∀ c ∈ taken, accept c) (rest : List Char) :
    exactly taken.length accept (taken ++ rest) = some (taken, rest) :=
  mapM_satisfy accepted (List.range taken.length) List.length_range rest

end Steps

end Text.Reader

namespace Json

namespace Grammar

open Text
open Toml.Grammar (hexValue? ofDigits charOf?)

def isGap (c : Char) : Bool :=
  c == ' ' || c == '\t' || c == '\n' || c == '\r'

def gap : Reader Unit :=
  discard (Reader.run isGap)

/-- The value of four hexadecimal digits. -/
def codeUnit : Reader Nat := do
  return ofDigits 16 (← Reader.exactly 4 fun c => (hexValue? c).isSome)

/-- The character of one code unit, or of a pair of surrogates. -/
def unicodeEscape : Reader Char := do
  let first ← codeUnit
  if 0xd800 ≤ first ∧ first < 0xdc00 then
    Reader.literal "\\u"
    let second ← codeUnit
    if 0xdc00 ≤ second ∧ second < 0xe000 then
      StateT.lift (charOf? (0x10000 + (first - 0xd800) * 0x400 + (second - 0xdc00)))
    else failure
  else StateT.lift (charOf? first)

def escapedChar : Reader Char := do
  let _ ← Reader.char '\\'
  match ← Reader.satisfy fun _ => true with
  | '"' => return '"'
  | '\\' => return '\\'
  | '/' => return '/'
  | 'b' => return '\x08'
  | 'f' => return '\x0c'
  | 'n' => return '\n'
  | 'r' => return '\r'
  | 't' => return '\t'
  | 'u' => unicodeEscape
  | _ => failure

/-- Control characters, quotes and backslashes never stand for themselves. -/
def plainChar : Reader Char :=
  Reader.satisfy fun c => 0x20 ≤ c.toNat && c != '"' && c != '\\'

def string : Reader String := do
  let _ ← Reader.char '"'
  let text ← Reader.many (plainChar <|> escapedChar)
  let _ ← Reader.char '"'
  return String.ofList text

def field : Reader (String × String) := do
  gap
  let key ← string
  gap
  let _ ← Reader.char ':'
  gap
  return (key, ← string)

def comma : Reader Unit := do
  gap
  discard (Reader.char ',')

def object : Reader (List (String × String)) := do
  gap
  let _ ← Reader.char '\x7b'
  let fields ← Reader.separated field comma <|> pure []
  gap
  let _ ← Reader.char '\x7d'
  gap
  return fields

end Grammar

/-- The fields of a text that is one object whose values are strings, in their order. -/
def fields? (text : String) : Option (List (String × String)) :=
  Text.Reader.whole? Grammar.object text.toList

/-- A field after what separates it from the text before. -/
def fieldText (lead : List Char) (field : String × String) : List Char :=
  lead ++ ((quote field.1).toList ++ ([':', ' '] ++ (quote field.2).toList))

/-- What stands between the braces of an object. -/
def objectText (lead next trail : List Char) : List (String × String) → List Char
  | [] => trail
  | first :: later =>
      fieldText lead first ++ (later.flatMap fun field => ',' :: fieldText next field) ++ trail

namespace Grammar

open Text
open Toml.Grammar (hexValue? ofDigits charOf?)

theorem hexValue?_hexDigit : ∀ value : Fin 16, hexValue? (hexDigit value) = some value.val := by
  decide

theorem codeUnit_hexDigit (high low : Fin 16) (rest : List Char) :
    codeUnit ('0' :: '0' :: hexDigit high.val :: hexDigit low.val :: rest) =
      some (16 * high.val + low.val, rest) := by
  have zero : hexValue? '0' = some 0 := by decide
  have accepted : ∀ c ∈ ['0', '0', hexDigit high.val, hexDigit low.val],
      (hexValue? c).isSome := by
    simp [hexValue?_hexDigit, zero]
  have value : ofDigits 16 ['0', '0', hexDigit high.val, hexDigit low.val] =
      16 * high.val + low.val := by
    simp [ofDigits, hexValue?_hexDigit, zero]
  have taken := Reader.exactly_append accepted rest
  rw [← value, codeUnit]
  exact Reader.bind_of_some taken _

theorem unicodeEscape_hexDigit {c : Char} (control : c.toNat < 0x20) (rest : List Char) :
    unicodeEscape ('0' :: '0' :: hexDigit (c.toNat / 16) :: hexDigit (c.toNat % 16) :: rest) =
      some (c, rest) := by
  have unit := codeUnit_hexDigit ⟨c.toNat / 16, by omega⟩ ⟨c.toNat % 16, by omega⟩ rest
  have code : 16 * (c.toNat / 16) + c.toNat % 16 = c.toNat := Nat.div_add_mod _ _
  have low : ¬ (0xd800 ≤ c.toNat ∧ c.toNat < 0xdc00) := by omega
  have valid : charOf? c.toNat = some c := by
    have code : c.toNat.isValidChar := c.valid
    rw [charOf?, if_pos code, Char.ofNat_toNat]
  rw [code] at unit
  rw [unicodeEscape, Reader.bind_of_some unit, if_neg low, valid]
  rfl

/-- Every character is read back from what it is written as. -/
theorem char_escapeChar (c : Char) (rest : List Char) :
    (plainChar <|> escapedChar) (escapeChar c ++ rest) = some (c, rest) := by
  unfold escapeChar
  split
  case h_1 | h_2 | h_3 | h_4 | h_5 | h_6 | h_7 => rfl
  case h_8 notQuote notBackslash _ _ _ _ _ =>
    split
    next control => exact unicodeEscape_hexDigit control rest
    next visible =>
      have plain : plainChar (c :: rest) = some (c, rest) := by
        have quote : c ≠ '"' := notQuote
        have backslash : c ≠ '\\' := notBackslash
        simp [plainChar, Reader.satisfy, quote, backslash, Nat.le_of_not_lt visible]
      rw [List.singleton_append, Reader.orElse_apply, plain]
      rfl

theorem escapeChar_ne_nil (c : Char) : escapeChar c ≠ [] := by
  unfold escapeChar
  split <;> try split
  all_goals exact List.cons_ne_nil _ _

theorem string_quote (text : String) (rest : List Char) :
    string ((quote text).toList ++ rest) = some (text, rest) := by
  have fails : (plainChar <|> escapedChar) ('"' :: rest) = none := rfl
  have inside := Reader.repeated_flatMap escapeChar_ne_nil char_escapeChar text.toList fails
  have written : (quote text).toList ++ rest =
      '"' :: (text.toList.flatMap escapeChar ++ '"' :: rest) := by simp [quote]
  have opened : Reader.char '"' ('"' :: (text.toList.flatMap escapeChar ++ '"' :: rest)) =
      some ('"', text.toList.flatMap escapeChar ++ '"' :: rest) := rfl
  have taken : Reader.many (plainChar <|> escapedChar)
      (text.toList.flatMap escapeChar ++ '"' :: rest) = some (text.toList, '"' :: rest) :=
    congrArg some inside
  have closed : Reader.char '"' ('"' :: rest) = some ('"', rest) := rfl
  rw [string, written, Reader.bind_of_some opened, Reader.bind_of_some taken,
    Reader.bind_of_some closed, String.ofList_toList]
  rfl

theorem gap_append {lead : List Char} (blank : ∀ c ∈ lead, isGap c) {first : Char}
    (solid : isGap first = false) (rest : List Char) :
    gap (lead ++ first :: rest) = some ((), first :: rest) := by
  have dropped : (lead ++ first :: rest).dropWhile isGap = first :: rest := by
    rw [List.dropWhile_append_of_pos blank]
    exact List.dropWhile_cons_of_neg (by simp [solid])
  exact congrArg (fun rest => some ((), rest)) dropped

theorem gap_cons {first : Char} (solid : isGap first = false) (rest : List Char) :
    gap (first :: rest) = some ((), first :: rest) :=
  gap_append (List.forall_mem_nil _) solid rest

theorem gap_quote {lead : List Char} (blank : ∀ c ∈ lead, isGap c) (text : String)
    (rest : List Char) :
    gap (lead ++ ((quote text).toList ++ rest)) = some ((), (quote text).toList ++ rest) := by
  have opened : (quote text).toList ++ rest =
      '"' :: (text.toList.flatMap escapeChar ++ '"' :: rest) := by simp [quote]
  rw [opened]
  exact gap_append blank rfl _

variable {lead next trail : List Char}

theorem field_fieldText (blank : ∀ c ∈ lead, isGap c) (written : String × String)
    (rest : List Char) : field (fieldText lead written ++ rest) = some (written, rest) := by
  obtain ⟨key, value⟩ := written
  have oneBlank : ∀ c ∈ [' '], isGap c := List.forall_mem_singleton.mpr rfl
  have ahead := gap_quote blank key (':' :: ' ' :: ((quote value).toList ++ rest))
  have between : gap (':' :: ' ' :: ((quote value).toList ++ rest)) =
      some ((), ':' :: ' ' :: ((quote value).toList ++ rest)) := gap_cons rfl _
  have colon : Reader.char ':' (':' :: ' ' :: ((quote value).toList ++ rest)) =
      some (':', ' ' :: ((quote value).toList ++ rest)) := rfl
  have behind := gap_quote oneBlank value rest
  have text : fieldText lead (key, value) ++ rest =
      lead ++ ((quote key).toList ++ (':' :: ' ' :: ((quote value).toList ++ rest))) := by
    simp [fieldText]
  rw [field, text, Reader.bind_of_some ahead, Reader.bind_of_some (string_quote key _),
    Reader.bind_of_some between, Reader.bind_of_some colon, ← List.singleton_append,
    Reader.bind_of_some behind, Reader.bind_of_some (string_quote value rest)]
  rfl

theorem field_eq_none (blank : ∀ c ∈ lead, isGap c) (rest : List Char) :
    field (lead ++ '\x7d' :: rest) = none := by
  have ahead : gap (lead ++ '\x7d' :: rest) = some ((), '\x7d' :: rest) :=
    gap_append blank rfl rest
  rw [field, Reader.bind_of_some ahead]
  rfl

theorem comma_eq_none (blank : ∀ c ∈ lead, isGap c) (rest : List Char) :
    comma (lead ++ '\x7d' :: rest) = none := by
  have ahead : gap (lead ++ '\x7d' :: rest) = some ((), '\x7d' :: rest) :=
    gap_append blank rfl rest
  rw [comma, Reader.bind_of_some ahead]
  rfl

theorem comma_field (blank : ∀ c ∈ next, isGap c) (written : String × String)
    (rest : List Char) :
    (comma *> field) (',' :: fieldText next written ++ rest) = some (written, rest) := by
  have separator : comma (',' :: (fieldText next written ++ rest)) =
      some ((), fieldText next written ++ rest) := rfl
  rw [List.cons_append, seqRight_eq_bind, Reader.bind_of_some separator]
  exact field_fieldText blank written rest

/-- All fields are taken, up to what stands in front of the closing brace. -/
theorem fields_objectText (blankLead : ∀ c ∈ lead, isGap c) (blankNext : ∀ c ∈ next, isGap c)
    (blankTrail : ∀ c ∈ trail, isGap c) (fields : List (String × String)) (rest : List Char) :
    (Reader.separated field comma <|> pure [])
        (objectText lead next trail fields ++ '\x7d' :: rest) =
      some (fields, trail ++ '\x7d' :: rest) := by
  cases fields with
  | nil =>
      have fails : Reader.separated field comma (trail ++ '\x7d' :: rest) = none :=
        Reader.bind_of_none (field_eq_none blankTrail rest) _
      rw [objectText, Reader.orElse_apply, fails]
      rfl
  | cons first later =>
      have nonempty : ∀ field : String × String, ',' :: fieldText next field ≠ [] :=
        fun field => List.cons_ne_nil _ _
      have fails : (comma *> field) (trail ++ '\x7d' :: rest) = none := by
        rw [seqRight_eq_bind]
        exact Reader.bind_of_none (comma_eq_none blankTrail rest) _
      have others := Reader.repeated_flatMap nonempty (comma_field blankNext) later fails
      have taken : Reader.many (comma *> field)
          ((later.flatMap fun field => ',' :: fieldText next field) ++
            (trail ++ '\x7d' :: rest)) = some (later, trail ++ '\x7d' :: rest) :=
        congrArg some others
      have whole : Reader.separated field comma
          (objectText lead next trail (first :: later) ++ '\x7d' :: rest) =
            some (first :: later, trail ++ '\x7d' :: rest) := by
        rw [Reader.separated, objectText, List.append_assoc, List.append_assoc,
          Reader.bind_of_some (field_fieldText blankLead first _), Reader.bind_of_some taken]
        rfl
      rw [Reader.orElse_apply, whole]
      rfl

theorem object_objectText (blankLead : ∀ c ∈ lead, isGap c) (blankNext : ∀ c ∈ next, isGap c)
    (blankTrail : ∀ c ∈ trail, isGap c) (fields : List (String × String)) :
    object ('\x7b' :: (objectText lead next trail fields ++ ['\x7d'])) = some (fields, []) := by
  have ahead : gap ('\x7b' :: (objectText lead next trail fields ++ ['\x7d'])) =
      some ((), '\x7b' :: (objectText lead next trail fields ++ ['\x7d'])) := gap_cons rfl _
  have opened : Reader.char '\x7b' ('\x7b' :: (objectText lead next trail fields ++ ['\x7d'])) =
      some ('\x7b', objectText lead next trail fields ++ ['\x7d']) := rfl
  have inside := fields_objectText blankLead blankNext blankTrail fields []
  have behind : gap (trail ++ ['\x7d']) = some ((), ['\x7d']) :=
    gap_append blankTrail rfl []
  rw [object, Reader.bind_of_some ahead, Reader.bind_of_some opened, Reader.bind_of_some inside,
    Reader.bind_of_some behind]
  rfl

end Grammar

section Fields

variable {lead next trail : List Char}

/-- An object is read back as the fields that it was written for. -/
theorem fields?_objectText (blankLead : ∀ c ∈ lead, Grammar.isGap c)
    (blankNext : ∀ c ∈ next, Grammar.isGap c) (blankTrail : ∀ c ∈ trail, Grammar.isGap c)
    (fields : List (String × String)) :
    fields? (String.ofList ('\x7b' :: (objectText lead next trail fields ++ ['\x7d']))) =
      some fields := by
  have taken := Grammar.object_objectText blankLead blankNext blankTrail fields
  have whole : (Grammar.object <* Text.Reader.atEnd)
      ('\x7b' :: (objectText lead next trail fields ++ ['\x7d'])) = some (fields, []) := by
    rw [seqLeft_eq_bind, Text.Reader.bind_of_some taken]
    rfl
  rw [fields?, Text.Reader.whole?, String.toList_ofList, whole]
  rfl

-- commas only separate, and controls have to be escaped
example : fields? "\x7b\"a\": \"b\",\x7d" = none := by cbv

example : fields? "\x7b\"a\": \"\n\"\x7d" = none := by cbv

end Fields

end Json

end Wireframe
