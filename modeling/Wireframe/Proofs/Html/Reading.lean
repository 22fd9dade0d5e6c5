import Wireframe.Proofs.Html.Escaping
import Mathlib.Data.List.Basic

/-! Pages read as a browser does, character by character, but that every `<` begins a tag, also
in titles and style sheets. What is written for a tree is read back as the characters and tags
of the tree. -/

namespace Wireframe

namespace Html

/-- A tag as it stands in a page, with the values of its attributes as they are written. -/
inductive Tag
  | start (name : String) (attributes : List (String × String))
  | stop (name : String)
  | declaration
  deriving Repr, DecidableEq

inductive Token
  | char (c : Char)
  | tag (tag : Tag)
  deriving Repr, DecidableEq

/-- Where a reader of a page stands. What it is in the middle of is kept backwards. -/
inductive Place
  | text
  | opened
  | declaration
  | stop (name : List Char)
  | start (name : List Char)
  | gap (name : String) (attributes : List (String × String))
  | key (name : String) (attributes : List (String × String)) (key : List Char)
  | assigned (name : String) (attributes : List (String × String)) (key : String)
  | quoted (name : String) (attributes : List (String × String)) (key : String) (quote : Char)
      (value : List Char)
  | bare (name : String) (attributes : List (String × String)) (key : String) (value : List Char)
  deriving Repr, DecidableEq

def isBlank (c : Char) : Bool :=
  c == ' ' || c == '\t' || c == '\n' || c == '\x0c' || c == '\r'

/-- What stands between the attributes of a tag. -/
def isGap (c : Char) : Bool :=
  isBlank c || c == '/'

def ofReversed (chars : List Char) : String :=
  String.ofList chars.reverse

def step : Place → Char → List Token × Place
  | .text, c => if c = '<' then ([], .opened) else ([.char c], .text)
  | .opened, c =>
      if c = '/' then ([], .stop [])
      else if c = '!' then ([], .declaration)
      else ([], .start [c])
  | .declaration, c => if c = '>' then ([.tag .declaration], .text) else ([], .declaration)
  | .stop name, c =>
      if c = '>' then ([.tag (.stop (ofReversed name))], .text) else ([], .stop (c :: name))
  | .start name, c =>
      if c = '>' then ([.tag (.start (ofReversed name) [])], .text)
      else if isGap c then ([], .gap (ofReversed name) [])
      else ([], .start (c :: name))
  | .gap name attributes, c =>
      if c = '>' then ([.tag (.start name attributes)], .text)
      else if isGap c then ([], .gap name attributes)
      else ([], .key name attributes [c])
  | .key name attributes key, c =>
      if c = '>' then ([.tag (.start name (attributes ++ [(ofReversed key, "")]))], .text)
      else if c = '=' then ([], .assigned name attributes (ofReversed key))
      else if isGap c then ([], .gap name (attributes ++ [(ofReversed key, "")]))
      else ([], .key name attributes (c :: key))
  | .assigned name attributes key, c =>
      if c = '>' then ([.tag (.start name (attributes ++ [(key, "")]))], .text)
      else if c = '"' ∨ c = '\'' then ([], .quoted name attributes key c [])
      else if isBlank c then ([], .assigned name attributes key)
      else ([], .bare name attributes key [c])
  | .quoted name attributes key quote value, c =>
      if c = quote then ([], .gap name (attributes ++ [(key, ofReversed value)]))
      else ([], .quoted name attributes key quote (c :: value))
  | .bare name attributes key value, c =>
      if c = '>' then ([.tag (.start name (attributes ++ [(key, ofReversed value)]))], .text)
      else if isBlank c then ([], .gap name (attributes ++ [(key, ofReversed value)]))
      else ([], .bare name attributes key (c :: value))

def scan : Place → List Char → List Token
  | _, [] => []
  | place, c :: rest => (step place c).1 ++ scan (step place c).2 rest

def read (page : String) : List Token :=
  scan .text page.toList

/-- The elements that have no end tag. -/
def isVoid (name : String) : Bool :=
  name == "meta"

/-! Reading some characters from one place to another. -/

/-- From one place, some characters are read as some tokens and lead to another place. -/
def Reads (place : Place) (chars : List Char) (tokens : List Token) (next : Place) : Prop :=
  ∀ rest, scan place (chars ++ rest) = tokens ++ scan next rest

namespace Reads

theorem nil (place : Place) : Reads place [] [] place := fun _ => rfl

theorem append {place middle next : Place} {front back : List Char} {before after : List Token}
    (first : Reads place front before middle) (second : Reads middle back after next) :
    Reads place (front ++ back) (before ++ after) next := by
  intro rest
  rw [List.append_assoc, first, second, List.append_assoc]

theorem single {place next : Place} {c : Char} {tokens : List Token}
    (stepped : step place c = (tokens, next)) : Reads place [c] tokens next := by
  intro rest
  rw [List.singleton_append, scan, stepped]

theorem cons {place middle next : Place} {c : Char} {chars : List Char} {tokens : List Token}
    (stepped : step place c = ([], middle)) (later : Reads middle chars tokens next) :
    Reads place (c :: chars) tokens next :=
  append (single stepped) later

/-- A name or a value is read as a whole. -/
theorem collect {place : List Char → Place} {chars : List Char}
    (stepped : ∀ c ∈ chars, ∀ before, step (place before) c = ([], place (c :: before)))
    (before : List Char) : Reads (place before) chars [] (place (chars.reverse ++ before)) := by
  induction chars generalizing before with
  | nil => exact nil _
  | cons c chars ih =>
      have later := ih (fun c member => stepped c (List.mem_cons_of_mem _ member)) (c :: before)
      rw [List.reverse_cons, List.append_assoc]
      exact cons (stepped c List.mem_cons_self before) later

theorem text {chars : List Char} (plain : '<' ∉ chars) :
    Reads .text chars (chars.map .char) .text := by
  induction chars with
  | nil => exact nil _
  | cons c chars ih =>
      rw [List.mem_cons, not_or] at plain
      have first : step .text c = ([.char c], .text) := if_neg (Ne.symm plain.1)
      exact append (single first) (ih plain.2)

theorem read {page : String} {tokens : List Token} (reads : Reads .text page.toList tokens .text) :
    Html.read page = tokens := by
  have whole := reads []
  rwa [List.append_nil, scan, List.append_nil] at whole

end Reads

/-! Names that are taken as they are written. -/

def IsName (name : String) : Prop :=
  name.toList ≠ [] ∧ name.toList.all fun c => c.isAlphanum || c == '-'

instance (name : String) : Decidable (IsName name) :=
  inferInstanceAs (Decidable (_ ∧ _))

section Names

variable {name key : String} {attributes : List (String × String)}

theorem IsName.notMem (isName : IsName name) {c : Char} (notAlphanum : c.isAlphanum = false)
    (notDash : c ≠ '-') : c ∉ name.toList := by
  intro member
  have plain := List.all_eq_true.mp isName.2 c member
  rw [notAlphanum, Bool.false_or, beq_iff_eq] at plain
  exact notDash plain

theorem IsName.ne (isName : IsName name) {c other : Char} (member : c ∈ name.toList)
    (notAlphanum : other.isAlphanum = false) (notDash : other ≠ '-') : c ≠ other :=
  ne_of_mem_of_not_mem member (isName.notMem notAlphanum notDash)

theorem IsName.isGap (isName : IsName name) {c : Char} (member : c ∈ name.toList) :
    isGap c = false := by
  rw [Bool.eq_false_iff]
  intro gap
  simp only [Html.isGap, isBlank, Bool.or_eq_true, beq_iff_eq] at gap
  rcases gap with ((((rfl | rfl) | rfl) | rfl) | rfl) | rfl
  all_goals exact isName.notMem (by decide) (by decide) member

theorem reads_start (isName : IsName name) :
    Reads .text ('<' :: name.toList) [] (.start name.toList.reverse) := by
  obtain ⟨head, tail, named⟩ := List.exists_cons_of_ne_nil isName.1
  have letter : ∀ c ∈ name.toList, ∀ before,
      step (.start before) c = ([], .start (c :: before)) := by
    intro c member before
    have notEnd : c ≠ '>' := isName.ne member (by decide) (by decide)
    rw [step, if_neg notEnd, isName.isGap member]
    rfl
  have first : step .opened head = ([], .start [head]) := by
    have member : head ∈ name.toList := named ▸ List.mem_cons_self
    have notStop : head ≠ '/' := isName.ne member (by decide) (by decide)
    have notDeclaration : head ≠ '!' := isName.ne member (by decide) (by decide)
    rw [step, if_neg notStop, if_neg notDeclaration]
  have opened : step .text '<' = ([], .opened) := rfl
  have rest : Reads (.start [head]) tail [] (.start (tail.reverse ++ [head])) := by
    refine Reads.collect (fun c member before => letter c ?_ before) [head]
    exact named ▸ List.mem_cons_of_mem _ member
  rw [named, List.reverse_cons]
  exact .cons opened (.cons first rest)

theorem reads_key (isName : IsName key) :
    Reads (.gap name attributes) key.toList [] (.key name attributes key.toList.reverse) := by
  obtain ⟨head, tail, named⟩ := List.exists_cons_of_ne_nil isName.1
  have notEnd : ∀ c ∈ key.toList, c ≠ '>' := fun c member =>
    isName.ne member (by decide) (by decide)
  have letter : ∀ c ∈ key.toList, ∀ before,
      step (.key name attributes before) c = ([], .key name attributes (c :: before)) := by
    intro c member before
    have notEqual : c ≠ '=' := isName.ne member (by decide) (by decide)
    rw [step, if_neg (notEnd c member), if_neg notEqual, isName.isGap member]
    rfl
  have first : step (.gap name attributes) head = ([], .key name attributes [head]) := by
    have member : head ∈ key.toList := named ▸ List.mem_cons_self
    rw [step, if_neg (notEnd head member), isName.isGap member]
    rfl
  have rest : Reads (.key name attributes [head]) tail []
      (.key name attributes (tail.reverse ++ [head])) := by
    refine Reads.collect (fun c member before => letter c ?_ before) [head]
    exact named ▸ List.mem_cons_of_mem _ member
  rw [named, List.reverse_cons]
  exact .cons first rest

theorem reads_quoted {quote : Char} {value : String} (unquoted : quote ∉ value.toList) :
    Reads (.quoted name attributes key quote []) (value.toList ++ [quote]) []
      (.gap name (attributes ++ [(key, value)])) := by
  have inside : ∀ c ∈ value.toList, ∀ before, step (.quoted name attributes key quote before) c =
      ([], .quoted name attributes key quote (c :: before)) := by
    intro c member before
    exact if_neg (ne_of_mem_of_not_mem member unquoted)
  have closed : step (.quoted name attributes key quote (value.toList.reverse ++ [])) quote =
      ([], .gap name (attributes ++ [(key, value)])) := by
    rw [step, if_pos rfl, ofReversed, List.append_nil, List.reverse_reverse, String.ofList_toList]
  exact (Reads.collect inside []).append (.single closed)

theorem reads_attribute (name : String) (attributes : List (String × String))
    (isName : IsName key) {value : String} (unquoted : '"' ∉ value.toList) :
    Reads (.gap name attributes) (" " ++ key ++ "=\"" ++ value ++ "\"").toList []
      (.gap name (attributes ++ [(key, value)])) := by
  have chars : (" " ++ key ++ "=\"" ++ value ++ "\"").toList =
      ' ' :: (key.toList ++ '=' :: '"' :: (value.toList ++ ['"'])) := by simp
  have assigned : step (.key name attributes key.toList.reverse) '=' =
      ([], .assigned name attributes key) := by
    rw [step, ofReversed, List.reverse_reverse, String.ofList_toList]
    rfl
  rw [chars]
  exact .cons rfl ((reads_key isName).append (.cons assigned (.cons rfl (reads_quoted unquoted))))

/-- The attributes as they stand in a page. -/
def written (attributes : List (String × String)) : List (String × String) :=
  attributes.map fun (key, value) => (key, escape value)

theorem written_cons (key value : String) (rest : List (String × String)) :
    written ((key, value) :: rest) = (key, escape value) :: written rest := rfl

theorem quote_notMem_escape (value : String) : '"' ∉ (escape value).toList := fun member =>
  absurd (isMarkup_escape value _ member) (by decide)

theorem reads_attributes (name : String) (read : List (String × String))
    (areNames : ∀ entry ∈ attributes, IsName entry.1) :
    Reads (.gap name read) (printAttributes attributes).toList []
      (.gap name (read ++ written attributes)) := by
  induction attributes generalizing read with
  | nil =>
      rw [written, List.map_nil, List.append_nil]
      exact .nil _
  | cons entry more ih =>
      obtain ⟨key, value⟩ := entry
      have first := reads_attribute name read (areNames _ List.mem_cons_self)
        (quote_notMem_escape value)
      have later := ih (read ++ [(key, escape value)])
        fun entry member => areNames entry (List.mem_cons_of_mem _ member)
      rw [printAttributes, String.toList_append, written_cons, List.append_cons]
      exact first.append later

/-- After the name of a tag, the reader is as good as between attributes. -/
theorem Reads.start_of_gap {chars : List Char} {tokens : List Token} {next : Place}
    (ends : chars.head? = some '>' ∨ chars.head? = some ' ')
    (reads : Reads (.gap name []) chars tokens next) :
    Reads (.start name.toList.reverse) chars tokens next := by
  have step_eq (c : Char) (ends : c = '>' ∨ c = ' ') :
      step (.start name.toList.reverse) c = step (.gap name []) c := by
    rw [step, step, ofReversed, List.reverse_reverse, String.ofList_toList]
    rcases ends with rfl | rfl
    · rfl
    · rfl
  cases chars with
  | nil => simp at ends
  | cons c chars =>
      have same := step_eq c (by simpa using ends)
      intro rest
      have whole := reads rest
      rwa [List.cons_append, scan, ← same] at whole

theorem reads_startTag (isName : IsName name) (areNames : ∀ entry ∈ attributes, IsName entry.1)
    {ending : List Char} (ends : ending = ['>'] ∨ ending = [' ', '/', '>']) :
    Reads .text ('<' :: (name.toList ++ ((printAttributes attributes).toList ++ ending)))
      [.tag (.start name (written attributes))] .text := by
  have closed : Reads (.gap name ([] ++ written attributes)) ending
      [.tag (.start name (written attributes))] .text := by
    rcases ends with rfl | rfl
    · exact .single rfl
    · exact .cons rfl (.cons rfl (.single rfl))
  have inside := (reads_attributes name [] areNames).append closed
  have bounded : ((printAttributes attributes).toList ++ ending).head? = some '>' ∨
      ((printAttributes attributes).toList ++ ending).head? = some ' ' := by
    cases attributes with
    | nil => rcases ends with rfl | rfl <;> simp [printAttributes]
    | cons entry more => simp [printAttributes]
  exact (reads_start isName).append (.start_of_gap bounded inside)

theorem reads_stopTag (isName : IsName name) :
    Reads .text ('<' :: '/' :: (name.toList ++ ['>'])) [.tag (.stop name)] .text := by
  have letter : ∀ c ∈ name.toList, ∀ before,
      step (.stop before) c = ([], .stop (c :: before)) := by
    intro c member before
    have notEnd : c ≠ '>' := isName.ne member (by decide) (by decide)
    exact if_neg notEnd
  have closed : step (.stop (name.toList.reverse ++ [])) '>' = ([.tag (.stop name)], .text) := by
    rw [step, if_pos rfl, ofReversed, List.append_nil, List.reverse_reverse, String.ofList_toList]
  exact .cons rfl (.cons rfl ((Reads.collect letter []).append (.single closed)))

end Names

/-! What is written for a tree is read back. -/

mutual
def tokens : Html → List Token
  | .text content => (escape content).toList.map .char
  | .verbatim content => content.toList.map .char
  | .void name attributes => [.tag (.start name (written attributes))]
  | .element name attributes children =>
      .tag (.start name (written attributes)) :: (tokensAll children ++ [.tag (.stop name)])

def tokensAll : List Html → List Token
  | [] => []
  | item :: rest => item.tokens ++ tokensAll rest
end

mutual
/-- A tree whose names can be read, without tags in what is taken verbatim, and with an end for
the elements that have one. -/
def Readable : Html → Prop
  | .text _ => True
  | .verbatim content => '<' ∉ content.toList
  | .void name attributes =>
      IsName name ∧ isVoid name ∧ ∀ entry ∈ attributes, IsName entry.1
  | .element name attributes children =>
      IsName name ∧ ¬ isVoid name ∧ (∀ entry ∈ attributes, IsName entry.1) ∧ ReadableAll children

def ReadableAll : List Html → Prop
  | [] => True
  | item :: rest => item.Readable ∧ ReadableAll rest
end

mutual
theorem reads_print : (html : Html) → html.Readable →
    Reads .text html.print.toList html.tokens .text
  | .text content, _ => by
      have plain : '<' ∉ (escape content).toList := fun member =>
        absurd (isMarkup_escape content _ member) (by decide)
      exact .text plain
  | .verbatim _, plain => .text plain
  | .void name attributes, readable => by
      obtain ⟨isName, -, areNames⟩ := readable
      have chars : (Html.void name attributes).print.toList =
          '<' :: (name.toList ++ ((printAttributes attributes).toList ++ [' ', '/', '>'])) := by
        simp [print]
      rw [chars]
      exact reads_startTag isName areNames (.inr rfl)
  | .element name attributes children, readable => by
      obtain ⟨isName, -, areNames, within⟩ := readable
      have chars : (Html.element name attributes children).print.toList =
          '<' :: (name.toList ++ ((printAttributes attributes).toList ++ ['>'])) ++
            ((printAll children).toList ++ '<' :: '/' :: (name.toList ++ ['>'])) := by
        simp [print]
      rw [chars]
      exact (reads_startTag isName areNames (.inl rfl)).append
        ((reads_printAll children within).append (reads_stopTag isName))

theorem reads_printAll : (items : List Html) → ReadableAll items →
    Reads .text (printAll items).toList (tokensAll items) .text
  | [], _ => .nil _
  | item :: rest, readable => by
      rw [printAll, String.toList_append]
      exact (reads_print item readable.1).append (reads_printAll rest readable.2)
end

theorem read_print {html : Html} (readable : html.Readable) : read html.print = html.tokens :=
  (reads_print html readable).read

theorem readableAll_append {first second : List Html} :
    ReadableAll (first ++ second) ↔ ReadableAll first ∧ ReadableAll second := by
  induction first with
  | nil => simp [ReadableAll]
  | cons item rest ih => rw [List.cons_append, ReadableAll, ReadableAll, ih, and_assoc]

theorem readableAll_iff {items : List Html} :
    ReadableAll items ↔ ∀ item ∈ items, item.Readable := by
  induction items with
  | nil => simp [ReadableAll]
  | cons item rest ih => rw [ReadableAll, ih, List.forall_mem_cons]

end Html

end Wireframe
