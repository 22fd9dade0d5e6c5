import Wireframe.Proofs.Grammar.Tiling

/-! What cutting the anchors of a text removes: every colon after a name where none goes on, with
the body after it, and nothing else. The pieces that are kept end where no name goes on, so the
tokens of what is left are those of the pieces. -/

namespace Wireframe

open Text

/-! The tokens of a text that is put together from others. -/

/-- The tokens of a text, without their places. -/
def Token.ofText? (text : List Char) : Option (List Token) :=
  (Lexeme.scan text).toOption.map (·.map (·.token))

namespace Lexeme

variable {offset stop : Nat} {text rest : List Char} {lexemes : List Lexeme}

/-- Where a text starts changes the places of its lexemes and not their tokens. -/
theorem Reads.exists_moved (reads : Reads offset text lexemes stop rest) (other : Nat) :
    ∃ moved place, Reads other text moved place rest ∧
      moved.map (·.token) = lexemes.map (·.token) := by
  induction reads generalizing other with
  | done => exact ⟨[], other, .done, rfl⟩
  | @blank offset stop c text rest lexemes blank _ ih =>
      obtain ⟨moved, place, reads, same⟩ := ih (other + c.utf8Size)
      exact ⟨moved, place, .blank blank reads, same⟩
  | @name offset stop name text rest lexemes plain ends _ ih =>
      obtain ⟨moved, place, reads, same⟩ := ih (other + byteSize name.toList)
      exact ⟨_, place, .name plain ends reads, by rw [List.map_cons, List.map_cons, same]⟩
  | @mark offset stop c token text rest lexemes mark _ ih =>
      obtain ⟨moved, place, reads, same⟩ := ih (other + c.utf8Size)
      exact ⟨_, place, .mark mark reads, by rw [List.map_cons, List.map_cons, same]⟩

theorem tokens_scanFrom (offset : Nat) (text : List Char) :
    (scanFrom offset text).toOption.map (·.map (·.token)) = Token.ofText? text := by
  have scan := scan_scanFrom offset text
  generalize scanFrom offset text = result at scan
  cases scan with
  | whole reads =>
      obtain ⟨moved, place, read, same⟩ := reads.exists_moved 0
      rw [Token.ofText?, read.scan]
      exact congrArg some same.symm
  | foreign reads foreign =>
      obtain ⟨moved, place, read, -⟩ := reads.exists_moved 0
      rw [Token.ofText?, Lexeme.scan, read.scanFrom, scanFrom_foreign foreign]
      rfl

end Lexeme

namespace Token

variable {front back text blanks : List Char}

theorem ofText?_append (ends : ∀ c, back.head? = some c → Name.isTail c = false) :
    ofText? (front ++ back) = do return (← ofText? front) ++ (← ofText? back) := by
  cases scanned : Lexeme.scan front with
  | error cause =>
      rw [ofText?, Lexeme.scan_append_of_error scanned, ofText?, scanned]
      rfl
  | ok lexemes =>
      obtain ⟨stop, reads⟩ := Lexeme.reads_of_scan scanned
      obtain ⟨taken, whole, -, change⟩ := reads.exists_change
      have goesOn : Lexeme.Reads 0 (front ++ back) lexemes stop back := by
        rw [whole, List.append_nil]
        refine change back fun c first tail => ?_
        rw [ends c first] at tail
        cases tail
      rw [← Lexeme.tokens_scanFrom stop back, ofText?, Lexeme.scan, goesOn.scanFrom, ofText?,
        scanned]
      cases Lexeme.scanFrom stop back with
      | error cause => rfl
      | ok others => simp [Except.map, Except.toOption]

theorem ofText?_blanks (blank : ∀ c ∈ blanks, isBlank c) (text : List Char) :
    ofText? (blanks ++ text) = ofText? text := by
  induction blanks with
  | nil => rfl
  | cons c rest ih =>
      obtain ⟨here, later⟩ := List.forall_mem_cons.mp blank
      have skips : Lexeme.scan (c :: rest ++ text) =
          Lexeme.scanFrom (0 + c.utf8Size) (rest ++ text) :=
        Lexeme.scanFrom_blank 0 here (rest ++ text)
      rw [← ih later, ofText?, skips, Lexeme.tokens_scanFrom]

theorem ofText?_trimStart (text : List Char) : ofText? (trimStart text) = ofText? text := by
  have blank : ∀ c ∈ text.takeWhile isBlank, isBlank c := fun _ => List.mem_takeWhile_imp
  have skipped := ofText?_blanks blank (trimStart text)
  rw [trimStart, List.takeWhile_append_dropWhile] at skipped
  exact skipped.symm

theorem ofText?_trimEnd (text : List Char) : ofText? (trimEnd text) = ofText? text := by
  have whole : trimEnd text ++ text.rtakeWhile isBlank = text :=
    List.rdropWhile_append_rtakeWhile
  have blank : ∀ c ∈ text.rtakeWhile isBlank, isBlank c := fun _ => List.mem_rtakeWhile_imp
  have nothing := ofText?_blanks blank []
  rw [List.append_nil] at nothing
  have ends : ∀ c, (text.rtakeWhile isBlank).head? = some c → Name.isTail c = false :=
    fun c first => Name.isTail_of_isBlank (blank c (List.mem_of_head? first))
  have joined := @ofText?_append (trimEnd text) _ ends
  rw [whole, nothing] at joined
  rw [joined]
  cases ofText? (trimEnd text) with
  | none => rfl
  | some tokens => simp [ofText?, Lexeme.scan, Lexeme.scanFrom, Except.toOption]

theorem ofText?_trim (text : List Char) : ofText? (trim text) = ofText? text := by
  rw [trim, ofText?_trimEnd, ofText?_trimStart]

end Token

namespace Labelled

variable {fresh : Bool} {text before : List Char} {found : Labelled}

/-- A label stands in a text: a name where none goes on, blanks, and a colon. -/
def Occurs (text : List Char) : Prop :=
  ∃ before name gap after, text = before ++ name ++ gap ++ ':' :: after ∧
    Name.IsPlain (String.ofList name) ∧ (∀ c ∈ gap, isBlank c) ∧
    ∀ c, before.getLast? = some c → Name.isTail c = false

theorem find?_ne_none {name gap after : List Char} (plain : Name.IsPlain (String.ofList name))
    (blank : ∀ c ∈ gap, isBlank c) (begins : before = [] → fresh = true)
    (ends : ∀ c, before.getLast? = some c → Name.isTail c = false) :
    find? fresh (before ++ (name ++ gap ++ ':' :: after)) ≠ none := by
  induction before generalizing fresh with
  | nil =>
      intro missing
      have here : ofText? (name ++ gap ++ ':' :: after) = some ⟨name, gap, after⟩ :=
        ofText?_eq_some_iff.mpr ⟨rfl, plain, blank⟩
      rw [List.nil_append, begins rfl] at missing
      rw [ofText?_eq_none_of_find? missing] at here
      cases here
  | cons c rest ih =>
      intro missing
      refine ih (fun empty => ?_) (fun last ending => ends last ?_)
        (find?_cons_eq_none_iff.mp missing).2
      · subst empty
        simp [ends c rfl]
      · rw [List.getLast?_cons, ending]
        rfl

/-- A text in which no label is found has none. -/
theorem not_occurs_of_find? (unlabelled : find? true text = none) : ¬ Occurs text := by
  rintro ⟨before, name, gap, after, rfl, plain, blank, ends⟩
  rw [List.append_assoc before, List.append_assoc before] at unlabelled
  exact find?_ne_none plain blank (fun _ => rfl) ends unlabelled

/-- A label is found where no name goes on. -/
theorem ends_of_find? (labelled : find? fresh text = some (before, found)) :
    (fresh = true ∧ before = []) ∨
      ∃ c, before.getLast? = some c ∧ Name.isTail c = false := by
  induction text generalizing fresh before with
  | nil => cases labelled
  | cons c rest ih =>
      simp only [find?] at labelled
      split at labelled
      next first here =>
        obtain ⟨rfl, -⟩ := Prod.mk.inj (Option.some.inj labelled)
        cases fresh with
        | true => exact .inl ⟨rfl, rfl⟩
        | false => cases here
      next =>
        obtain ⟨⟨later, other⟩, inner, same⟩ := Option.map_eq_some_iff.mp labelled
        obtain ⟨rfl, rfl⟩ := Prod.mk.inj same
        right
        rcases ih inner with ⟨notTail, rfl⟩ | ⟨last, ending, notTail⟩
        · exact ⟨c, rfl, by simpa using notTail⟩
        · refine ⟨last, ?_, notTail⟩
          rw [List.getLast?_cons, ending]
          rfl

end Labelled

namespace Anchor

/-- The text that is put together from anchors, each with what is kept before it, and from what
is kept after the last. -/
def assemble (anchors : List Anchor) (last : List Char) : List Char :=
  anchors.flatMap (fun anchor => anchor.kept ++ anchor.removed) ++ last

/-- A text is cut into anchors and what is kept before each of them and after the last. What is
kept before an anchor ends in a name, which begins where no name goes on, and blanks; what is
removed goes on up to a delimiter or the end of the text. -/
structure Cuts (text : List Char) (anchors : List Anchor) (last : List Char) : Prop where
  whole : text = assemble anchors last
  plain : ∀ anchor ∈ anchors, Name.IsPlain anchor.entity
  blank : ∀ anchor ∈ anchors, ∀ c ∈ anchor.gap, isBlank c
  fresh : ∀ front anchor back, anchors = front ++ anchor :: back →
    (front = [] ∧ anchor.before = []) ∨
      ∃ c, anchor.before.getLast? = some c ∧ Name.isTail c = false
  undelimited : ∀ anchor ∈ anchors, ∀ c ∈ anchor.body, isDelimiter c = false
  delimited : ∀ front anchor back, anchors = front ++ anchor :: back →
    Delimited (assemble back last)

variable {text last : List Char} {anchors : List Anchor} {anchor : Anchor}

theorem Cuts.nil (text : List Char) : Cuts text [] text where
  whole := rfl
  plain := nofun
  blank := nofun
  fresh := by simp
  undelimited := nofun
  delimited := by simp

/-- Where a text begins with a delimiter, a name is not at its start. -/
theorem Cuts.before_ne_nil (cuts : Cuts text (anchor :: anchors) last)
    (delimited : Delimited text) : anchor.before ≠ [] := by
  intro empty
  obtain ⟨head, tail, named, isHead, -⟩ :=
    Name.isPlain_ofList.mp (cuts.plain anchor List.mem_cons_self)
  have begins : text.head? = some head := by
    rw [cuts.whole]
    simp [assemble, kept, empty, named]
  have notTail := isTail_of_isDelimiter (delimited head begins)
  rw [Name.isTail_of_isHead isHead] at notTail
  cases notTail

theorem Cuts.cons (plain : Name.IsPlain anchor.entity) (blank : ∀ c ∈ anchor.gap, isBlank c)
    (fresh : anchor.before = [] ∨ ∃ c, anchor.before.getLast? = some c ∧ Name.isTail c = false)
    (undelimited : ∀ c ∈ anchor.body, isDelimiter c = false) (delimited : Delimited text)
    (cuts : Cuts text anchors last) :
    Cuts (anchor.kept ++ anchor.removed ++ text) (anchor :: anchors) last where
  whole := by
    rw [cuts.whole]
    simp [assemble]
  plain := List.forall_mem_cons.mpr ⟨plain, cuts.plain⟩
  blank := List.forall_mem_cons.mpr ⟨blank, cuts.blank⟩
  fresh := by
    intro front other back split
    cases front with
    | nil =>
        obtain ⟨rfl, -⟩ := List.cons.inj split
        exact fresh.imp_left fun empty => ⟨rfl, empty⟩
    | cons first front =>
        obtain ⟨-, rfl⟩ := List.cons.inj split
        refine .inr ((cuts.fresh front other back rfl).resolve_left ?_)
        rintro ⟨rfl, empty⟩
        exact cuts.before_ne_nil delimited empty
  undelimited := List.forall_mem_cons.mpr ⟨undelimited, cuts.undelimited⟩
  delimited := by
    intro front other back split
    cases front with
    | nil =>
        obtain ⟨-, rfl⟩ := List.cons.inj split
        exact cuts.whole ▸ delimited
    | cons first front =>
        obtain ⟨-, rfl⟩ := List.cons.inj split
        exact cuts.delimited front other back rfl

theorem cuts_decompose (text : List Char) : Cuts text (decompose text).1 (decompose text).2 := by
  induction text using decompose.induct with
  | case1 text unlabelled =>
      rw [decompose_of_none unlabelled]
      exact .nil text
  | case2 text before found labelled anchors last equal ih =>
      obtain ⟨split, plain, blank, -⟩ := Labelled.find?_eq_some labelled
      have fresh := (Labelled.ends_of_find? labelled).imp_left And.right
      have undelimited : ∀ c ∈ found.after.takeWhile (!isDelimiter ·), isDelimiter c = false :=
        fun c member => by simpa using List.mem_takeWhile_imp member
      let anchor : Anchor :=
        ⟨before, found.name, found.gap, found.after.takeWhile (!isDelimiter ·)⟩
      have joined : text =
          anchor.kept ++ anchor.removed ++ found.after.dropWhile (!isDelimiter ·) := by
        rw [split]
        simp [kept, removed, anchor]
      rw [decompose_of_some labelled, joined]
      exact .cons plain blank fresh undelimited (delimited_dropWhile found.after) ih

/-- The tokens of what is left are those of the pieces that are kept. -/
theorem ofText?_layoutText (text : List Char) : Token.ofText? (layoutText text) =
    (((decompose text).1.map kept ++ [(decompose text).2]).mapM Token.ofText?).map
      List.flatten := by
  induction text using decompose.induct with
  | case1 text unlabelled =>
      rw [layoutText_of_none unlabelled, decompose_of_none unlabelled]
      cases tokens : Token.ofText? text <;> simp [tokens]
  | case2 text before found labelled anchors last equal ih =>
      have ends : ∀ c, (layoutText (found.after.dropWhile (!isDelimiter ·))).head? = some c →
          Name.isTail c = false := by
        intro c first
        rw [head?_layoutText] at first
        exact isTail_of_isDelimiter (delimited_dropWhile found.after c first)
      rw [layoutText_of_some labelled, decompose_of_some labelled, Token.ofText?_append ends, ih,
        List.map_cons, List.cons_append, List.mapM_cons, kept]
      generalize Token.ofText? (before ++ found.name ++ found.gap) = first
      generalize List.mapM Token.ofText? _ = others
      cases first with
      | none => rfl
      | some tokens => cases others <;> rfl

end Anchor

/-- Cutting the anchors of a text removes them and nothing else. They style the names before
them, none of them is left, and no name is joined or split. -/
theorem Anchor.cutting_exact (text : List Char) : ∃ anchors last, Cuts text anchors last ∧
    remainder text = trim (anchors.flatMap kept ++ last) ∧
    styles text = (anchors.filter fun anchor => !(Style.tokens anchor.body).isEmpty).map
      (fun anchor => (anchor.entity, Style.tokens anchor.body)) ∧
    (¬ Labelled.Occurs (remainder text) ∧ remainder (remainder text) = remainder text ∧
      styles (remainder text) = []) ∧
    Token.ofText? (remainder text) =
      ((anchors.map kept ++ [last]).mapM Token.ofText?).map List.flatten ∧
    (trim text = text → (remainder text = text ↔ anchors = [])) := by
  refine ⟨_, _, cuts_decompose text, rfl, ?_, ⟨?_, remainder_remainder text, styles_remainder text⟩,
    ?_, remainder_eq_self_iff⟩
  · rw [styles, List.filter_map]
    rfl
  · exact Labelled.not_occurs_of_find? (Labelled.find?_trim (find?_layoutText text))
  · exact (Token.ofText?_trim (layoutText text)).trans (ofText?_layoutText text)

end Wireframe
