import Wireframe.Proofs.Grammar.Scanning

/-! The lexemes of a text, told by places alone: each of them stands in the text at its span, all
that is outside of the spans is blank, and blanks keep names apart. Scanning gives exactly these,
or stops where the longest beginning of the text that has any ends. -/

namespace Wireframe

open Text

theorem Token.foreign_iff {c : Char} : Foreign c ↔
    isBlank c = false ∧ c ∉ ['+', '/', '[', ']', '(', ')'] ∧ c.isAlpha = false := by
  have marks : ofChar? c = none ↔ c ∉ ['+', '/', '[', ']', '(', ')'] := by
    unfold ofChar?
    split <;> simp_all
  rw [← marks]
  constructor
  · intro foreign
    exact ⟨foreign.notBlank, foreign.notMark, foreign.notHead⟩
  · rintro ⟨notBlank, notMark, notHead⟩
    exact ⟨notBlank, notHead, notMark⟩

theorem Token.Legal.exists_cons {token : Token} (legal : token.Legal) : ∃ first rest,
    token.text.toList = first :: rest ∧ (token.isName = true → Name.isTail first) ∧
      (token.isName = false → Name.isTail first = false) := by
  cases named : token.isName with
  | true =>
      cases token with
      | name text =>
          obtain ⟨head, tail, split, isHead, -⟩ := legal text rfl
          exact ⟨head, tail, split, fun _ => Name.isTail_of_isHead isHead, nofun⟩
      | _ => cases named
  | false =>
      obtain ⟨c, single, -, notTail⟩ := exists_char_of_mark named
      exact ⟨c, [], single, nofun, fun _ => notTail⟩

theorem Name.isTail_of_isBlank {c : Char} (blank : isBlank c) : isTail c = false := by
  rw [← Bool.not_eq_true]
  intro tail
  rw [isBlank_of_isTail tail] at blank
  cases blank

namespace Lexeme

/-- A lexeme stands in a text that starts at `offset`: its span covers just its own text. -/
def StandsIn (offset : Nat) (text : List Char) (lexeme : Lexeme) : Prop :=
  ∃ before after, text = before ++ lexeme.token.text.toList ++ after ∧
    lexeme.span.start = offset + byteSize before ∧
    lexeme.span.stop = lexeme.span.start + byteSize lexeme.token.text.toList

/-- A position lies in the span of a lexeme. -/
def Holds (lexeme : Lexeme) (position : Nat) : Prop :=
  lexeme.span.start ≤ position ∧ position < lexeme.span.stop

/-- A text that starts at `offset` is made of lexemes and blanks. Two names that follow each
other have something between them, which is blank as all that no lexeme holds. -/
structure Tiles (offset : Nat) (text : List Char) (lexemes : List Lexeme) : Prop where
  legal : ∀ lexeme ∈ lexemes, lexeme.token.Legal
  stands : ∀ lexeme ∈ lexemes, lexeme.StandsIn offset text
  nonempty : ∀ lexeme ∈ lexemes, lexeme.span.start < lexeme.span.stop
  ordered : lexemes.Pairwise fun first second => first.span.stop ≤ second.span.start
  apart : lexemes.IsChain fun first second =>
    first.token.isName = true → second.token.isName = true → first.span.stop < second.span.start
  blank : ∀ before c after, text = before ++ c :: after →
    (∀ lexeme ∈ lexemes, ¬ lexeme.Holds (offset + byteSize before)) → isBlank c

/-! What is scanned is made of its lexemes. -/

section Scanned

variable {offset : Nat} {text front : List Char} {lexemes : List Lexeme} {lexeme : Lexeme}

theorem StandsIn.start_le (stands : lexeme.StandsIn offset text) : offset ≤ lexeme.span.start := by
  obtain ⟨before, -, -, start, -⟩ := stands
  omega

theorem StandsIn.append (stands : lexeme.StandsIn (offset + byteSize front) text) :
    lexeme.StandsIn offset (front ++ text) := by
  obtain ⟨before, after, rfl, start, stop⟩ := stands
  refine ⟨front ++ before, after, by simp, ?_, stop⟩
  rw [start, byteSize_append, Nat.add_assoc]

theorem Tiles.nil (offset : Nat) : Tiles offset [] [] where
  legal := nofun
  stands := nofun
  nonempty := nofun
  ordered := .nil
  apart := .nil
  blank := by simp

theorem Tiles.cons_blank {c : Char} (blank : isBlank c)
    (tiles : Tiles (offset + c.utf8Size) text lexemes) : Tiles offset (c :: text) lexemes where
  legal := tiles.legal
  stands := fun lexeme member => (show StandsIn (offset + byteSize [c]) text lexeme from
    tiles.stands lexeme member).append
  nonempty := tiles.nonempty
  ordered := tiles.ordered
  apart := tiles.apart
  blank := by
    intro before other after split free
    cases before with
    | nil =>
        obtain ⟨rfl, -⟩ := List.cons.inj split
        exact blank
    | cons first before =>
        obtain ⟨rfl, later⟩ := List.cons.inj split
        rw [byteSize_cons, ← Nat.add_assoc] at free
        exact tiles.blank before other after later free

theorem Tiles.cons {token : Token} (legal : token.Legal)
    (ends : token.isName = true → ∀ c, text.head? = some c → Name.isTail c = false)
    (tiles : Tiles (offset + byteSize token.text.toList) text lexemes) :
    Tiles offset (token.text.toList ++ text)
      (⟨token, ⟨offset, offset + byteSize token.text.toList⟩⟩ :: lexemes) where
  legal := List.forall_mem_cons.mpr ⟨legal, tiles.legal⟩
  stands := List.forall_mem_cons.mpr
    ⟨⟨[], text, rfl, rfl, rfl⟩, fun lexeme member => (tiles.stands lexeme member).append⟩
  nonempty := by
    obtain ⟨first, rest, split, -⟩ := legal.exists_cons
    have positive := first.utf8Size_pos
    refine List.forall_mem_cons.mpr ⟨?_, tiles.nonempty⟩
    simp only [split, byteSize_cons]
    omega
  ordered := List.pairwise_cons.mpr
    ⟨fun lexeme member => (tiles.stands lexeme member).start_le, tiles.ordered⟩
  apart := by
    refine tiles.apart.cons fun next first named nextNamed => ?_
    have member := List.mem_of_mem_head? first
    obtain ⟨before, after, split, start, -⟩ := tiles.stands next member
    cases before with
    | nil =>
        -- a name that stood right here would go on with this one
        obtain ⟨c, rest, begins, tail, -⟩ := (tiles.legal next member).exists_cons
        have notTail := ends named c (by rw [split, begins]; rfl)
        rw [tail nextNamed] at notTail
        cases notTail
    | cons c before =>
        have positive := c.utf8Size_pos
        rw [byteSize_cons] at start
        simp only
        omega
  blank := by
    intro before c after split free
    obtain ⟨notHere, later⟩ := List.forall_mem_cons.mp free
    have beyond : byteSize token.text.toList ≤ byteSize before := by
      simp only [Holds] at notHere
      omega
    obtain ⟨between, rfl, rest⟩ := exists_between split beyond
    rw [byteSize_append, ← Nat.add_assoc] at later
    exact tiles.blank between c after rest later

theorem Reads.exists_tiles {stop : Nat} {rest : List Char}
    (reads : Reads offset text lexemes stop rest) : ∃ taken,
      text = taken ++ rest ∧ stop = offset + byteSize taken ∧ Tiles offset taken lexemes := by
  induction reads with
  | @done offset rest => exact ⟨[], rfl, rfl, .nil offset⟩
  | @blank offset stop c text rest lexemes blank _ ih =>
      obtain ⟨taken, rfl, rfl, tiles⟩ := ih
      exact ⟨c :: taken, rfl, by rw [byteSize_cons, Nat.add_assoc], tiles.cons_blank blank⟩
  | @name offset stop name text rest lexemes plain ends _ ih =>
      obtain ⟨taken, rfl, rfl, tiles⟩ := ih
      have legal : Token.Legal (.name name) := fun _ same => Token.name.inj same ▸ plain
      refine ⟨name.toList ++ taken, by simp, by rw [byteSize_append, Nat.add_assoc],
        tiles.cons legal fun _ c first => ends c ?_⟩
      rw [List.head?_append, first, Option.some_or]
  | @mark offset stop c token text rest lexemes mark _ ih =>
      obtain ⟨taken, rfl, rfl, tiles⟩ := ih
      obtain ⟨single, notName, -, -⟩ := Token.mark_of_ofChar? mark
      have legal : token.Legal := fun name same => absurd same (notName name)
      have unnamed : ¬ token.isName = true := by
        cases token with
        | name text => exact absurd rfl (notName text)
        | _ => exact nofun
      have size : byteSize token.text.toList = c.utf8Size := by simp [single]
      have joined := Tiles.cons legal (fun named => absurd named unnamed) (size ▸ tiles)
      rw [size, single] at joined
      exact ⟨c :: taken, rfl, by rw [byteSize_cons, Nat.add_assoc], joined⟩

end Scanned

/-! What is made of lexemes is scanned so. -/

section Tiled

variable {offset : Nat} {text before after : List Char} {lexemes : List Lexeme} {token : Token}

theorem Reads.blanks {stop : Nat} {blanks rest : List Char} (blank : ∀ c ∈ blanks, isBlank c)
    (reads : Reads (offset + byteSize blanks) text lexemes stop rest) :
    Reads offset (blanks ++ text) lexemes stop rest := by
  induction blanks generalizing offset with
  | nil => exact reads
  | cons c others ih =>
      obtain ⟨here, later⟩ := List.forall_mem_cons.mp blank
      rw [byteSize_cons, ← Nat.add_assoc] at reads
      exact .blank here (ih later reads)

section First

variable {start : Nat} (tiles : Tiles offset (before ++ token.text.toList ++ after)
  (⟨token, ⟨start, start + byteSize token.text.toList⟩⟩ :: lexemes))
  (starts : start = offset + byteSize before)

include tiles starts

theorem Tiles.blank_before : ∀ c ∈ before, isBlank c := by
  intro c member
  obtain ⟨left, right, rfl⟩ := List.append_of_mem member
  have positive := c.utf8Size_pos
  rw [byteSize_append, byteSize_cons] at starts
  -- all lexemes start after this place
  refine tiles.blank left c (right ++ token.text.toList ++ after) (by simp) ?_
  intro lexeme listed held
  cases List.mem_cons.mp listed with
  | inl first =>
      subst first
      obtain ⟨least, -⟩ := held
      simp only at least
      omega
  | inr later =>
      have follows := List.rel_of_pairwise_cons tiles.ordered later
      obtain ⟨least, -⟩ := held
      simp only at follows
      omega

theorem Tiles.tail : Tiles (start + byteSize token.text.toList) after lexemes where
  legal := fun lexeme member => tiles.legal lexeme (.tail _ member)
  stands := by
    intro lexeme member
    obtain ⟨ahead, behind, split, stands, stop⟩ := tiles.stands lexeme (.tail _ member)
    have follows := List.rel_of_pairwise_cons tiles.ordered member
    have beyond : byteSize (before ++ token.text.toList) ≤ byteSize ahead := by
      simp only [byteSize_append] at follows ⊢
      omega
    rw [List.append_assoc ahead] at split
    obtain ⟨between, rfl, rest⟩ := exists_between split beyond
    refine ⟨between, behind, by rw [rest, List.append_assoc], ?_, stop⟩
    rw [stands, byteSize_append, byteSize_append, starts]
    omega
  nonempty := fun lexeme member => tiles.nonempty lexeme (.tail _ member)
  ordered := tiles.ordered.of_cons
  apart := tiles.apart.tail
  blank := by
    intro left c right split free
    refine tiles.blank (before ++ token.text.toList ++ left) c right (by simp [split]) ?_
    have position : offset + byteSize (before ++ token.text.toList ++ left) =
        start + byteSize token.text.toList + byteSize left := by
      simp only [byteSize_append, starts]
      omega
    rw [position, List.forall_mem_cons]
    refine ⟨fun held => ?_, free⟩
    obtain ⟨-, most⟩ := held
    simp only at most
    omega

/-- A name ends where no name goes on: at a blank, a mark, or the end of the text. -/
theorem Tiles.ends (named : token.isName = true) {c : Char} (first : after.head? = some c) :
    Name.isTail c = false := by
  obtain ⟨rest, rfl⟩ := List.head?_eq_some_iff.mp first
  have later := tiles.tail starts
  cases lexemes with
  | nil => exact Name.isTail_of_isBlank (later.blank [] c rest rfl (by simp))
  | cons next others =>
      obtain ⟨ahead, behind, split, stands, -⟩ := later.stands next List.mem_cons_self
      cases ahead with
      | nil =>
          -- the next lexeme begins here, so it is no name
          have unnamed : next.token.isName = false := by
            rw [← Bool.not_eq_true]
            intro nextNamed
            have separate := (List.isChain_cons_cons.mp tiles.apart).1 named nextNamed
            simp only [byteSize_nil] at separate stands
            omega
          obtain ⟨d, more, begins, -, notTail⟩ :=
            (later.legal next List.mem_cons_self).exists_cons
          rw [List.nil_append, begins] at split
          obtain ⟨rfl, -⟩ := List.cons.inj split
          exact notTail unnamed
      | cons d ahead =>
          have positive := d.utf8Size_pos
          rw [byteSize_cons] at stands
          refine Name.isTail_of_isBlank (later.blank [] c rest rfl ?_)
          intro lexeme member held
          obtain ⟨least, -⟩ := held
          rw [byteSize_nil] at least
          cases List.mem_cons.mp member with
          | inl same =>
              subst same
              omega
          | inr member =>
              have follows := List.rel_of_pairwise_cons later.ordered member
              have filled := later.nonempty next List.mem_cons_self
              omega

end First

theorem Tiles.exists_reads (tiles : Tiles offset text lexemes) :
    ∃ stop, Reads offset text lexemes stop [] := by
  induction lexemes generalizing offset text with
  | nil =>
      have blank : ∀ c ∈ text, isBlank c := by
        intro c member
        obtain ⟨left, right, split⟩ := List.append_of_mem member
        exact tiles.blank left c right split (by simp)
      have reads : Reads offset (text ++ []) [] (offset + byteSize text) [] := .blanks blank .done
      rw [List.append_nil] at reads
      exact ⟨_, reads⟩
  | cons lexeme rest ih =>
      obtain ⟨before, after, split, start, stop⟩ := tiles.stands lexeme List.mem_cons_self
      obtain ⟨token, first, last⟩ := lexeme
      simp only at split start stop
      subst split stop
      obtain ⟨stop, reads⟩ := ih (tiles.tail start)
      refine ⟨stop, ?_⟩
      have legal := tiles.legal _ List.mem_cons_self
      have ends := fun named c => tiles.ends start named (c := c)
      rw [List.append_assoc]
      subst start
      exact .blanks (tiles.blank_before rfl) (.cons legal ends reads)

theorem scan_eq_ok_iff : Lexeme.scan text = .ok lexemes ↔ Tiles 0 text lexemes := by
  constructor
  · intro scanned
    obtain ⟨stop, reads⟩ := reads_of_scan scanned
    obtain ⟨taken, whole, -, tiles⟩ := reads.exists_tiles
    rw [whole, List.append_nil]
    exact tiles
  · intro tiles
    obtain ⟨stop, reads⟩ := tiles.exists_reads
    exact reads.scan

end Tiled

/-! Where scanning stops. -/

section Stopped

variable {offset stop : Nat} {text rest front back : List Char} {lexemes : List Lexeme}
  {error : ScanError}

/-- What is left may be changed, as long as no name goes on into it that ended before. -/
theorem Reads.exists_change (reads : Reads offset text lexemes stop rest) : ∃ taken,
    text = taken ++ rest ∧ stop = offset + byteSize taken ∧
      ∀ other, (∀ c, other.head? = some c → Name.isTail c → rest.head? = some c) →
        Reads offset (taken ++ other) lexemes stop other := by
  induction reads with
  | @done offset rest => exact ⟨[], rfl, rfl, fun _ _ => .done⟩
  | @blank offset stop c text rest lexemes blank _ ih =>
      obtain ⟨taken, rfl, rfl, change⟩ := ih
      exact ⟨c :: taken, rfl, by rw [byteSize_cons, Nat.add_assoc],
        fun other same => .blank blank (change other same)⟩
  | @name offset stop name text rest lexemes plain ends _ ih =>
      obtain ⟨taken, rfl, rfl, change⟩ := ih
      refine ⟨name.toList ++ taken, by simp, by rw [byteSize_append, Nat.add_assoc], ?_⟩
      intro other same
      rw [List.append_assoc]
      refine .name plain (fun c first => ?_) (change other same)
      cases taken with
      | nil =>
          rw [← Bool.not_eq_true]
          intro tail
          rw [ends c (same c first tail)] at tail
          cases tail
      | cons d taken => exact ends c first
  | @mark offset stop c token text rest lexemes mark _ ih =>
      obtain ⟨taken, rfl, rfl, change⟩ := ih
      exact ⟨c :: taken, rfl, by rw [byteSize_cons, Nat.add_assoc],
        fun other same => .mark mark (change other same)⟩

theorem scanFrom_foreign {c : Char} (foreign : Token.Foreign c) (offset : Nat)
    (rest : List Char) : scanFrom offset (c :: rest) = .error ⟨c, offset⟩ := by
  rw [Lexeme.scanFrom, if_neg (by simp [foreign.notBlank]), if_neg (by simp [foreign.notHead])]
  simp only [foreign.notMark]

/-- Scanning stops at a character that nothing begins with. What stands before it is scanned,
and whatever follows it is not looked at. -/
theorem exists_of_scan_error (failed : Lexeme.scan text = .error error) : ∃ before after,
    text = before ++ error.char :: after ∧ error.offset = byteSize before ∧
      Token.Foreign error.char ∧ (∃ lexemes, Lexeme.scan before = .ok lexemes) ∧
      ∀ other, Lexeme.scan (before ++ error.char :: other) = .error error := by
  have scan := scan_scan text
  rw [failed] at scan
  cases scan with
  | @foreign lexemes c stop after reads foreign =>
      obtain ⟨before, rfl, place, change⟩ := reads.exists_change
      rw [Nat.zero_add] at place
      have alone := change [] nofun
      rw [List.append_nil] at alone
      refine ⟨before, after, rfl, place, foreign, ⟨lexemes, alone.scan⟩, ?_⟩
      intro other
      rw [Lexeme.scan, (change (c :: other) fun _ first _ => first).scanFrom,
        scanFrom_foreign foreign]
      rfl

theorem scan_append_of_error (failed : Lexeme.scan front = .error error) (back : List Char) :
    Lexeme.scan (front ++ back) = .error error := by
  obtain ⟨before, after, rfl, -, -, -, stops⟩ := exists_of_scan_error failed
  rw [List.append_assoc, List.cons_append]
  exact stops (after ++ back)

/-- The beginnings of a text that can be scanned are those up to where scanning stops. -/
theorem exists_scan_iff_of_error (failed : Lexeme.scan (front ++ back) = .error error) :
    (∃ lexemes, Lexeme.scan front = .ok lexemes) ↔ byteSize front ≤ error.offset := by
  obtain ⟨before, after, split, place, -, ⟨lexemes, scanned⟩, stops⟩ :=
    exists_of_scan_error failed
  rw [place]
  constructor
  · intro readable
    obtain ⟨others, read⟩ := readable
    by_contra longer
    obtain ⟨between, rfl, goesOn⟩ :=
      exists_between split.symm (show byteSize before ≤ byteSize front by omega)
    cases between with
    | nil => simp at longer
    | cons c between =>
        obtain ⟨rfl, -⟩ := List.cons.inj goesOn
        rw [stops between] at read
        cases read
  · intro within
    obtain ⟨between, rfl, -⟩ := exists_between split within
    cases shorter : Lexeme.scan front with
    | ok others => exact ⟨others, rfl⟩
    | error cause =>
        rw [scan_append_of_error shorter between] at scanned
        cases scanned

/-- The beginnings that can be scanned tell where scanning stops. -/
theorem scan_eq_error_of_beginnings {before after : List Char}
    (split : text = before ++ error.char :: after) (place : error.offset = byteSize before)
    (beginnings : ∀ front back, text = front ++ back →
      ((∃ lexemes, Lexeme.scan front = .ok lexemes) ↔ byteSize front ≤ error.offset)) :
    Lexeme.scan text = .error error := by
  have positive := error.char.utf8Size_pos
  cases scanned : Lexeme.scan text with
  | ok lexemes =>
      have whole := (beginnings text [] (by simp)).mp ⟨lexemes, scanned⟩
      rw [place, split, byteSize_append, byteSize_cons] at whole
      omega
  | error cause =>
      obtain ⟨other, rest, splitOther, placeOther, -, readable, -⟩ := exists_of_scan_error scanned
      have most := (beginnings other _ splitOther).mp readable
      have least : byteSize before ≤ cause.offset := by
        rw [split] at scanned
        exact (exists_scan_iff_of_error scanned).mp
          ((beginnings before _ split).mpr place.ge)
      rw [place] at most
      obtain ⟨between, rfl, goesOn⟩ := exists_between (splitOther.symm.trans split) most
      rw [placeOther, byteSize_append] at least
      obtain rfl := byteSize_eq_zero_iff.mp (show byteSize between = 0 by omega)
      obtain ⟨same, -⟩ := List.cons.inj goesOn
      rw [List.append_nil] at place
      obtain ⟨char, offset⟩ := error
      obtain ⟨otherChar, otherOffset⟩ := cause
      simp_all

end Stopped

end Lexeme

/-! Tokens with blanks between them. -/

namespace Token

/-- Tokens in a row, each after the blanks that it is paired with. -/
def spread (pieces : List (List Char × Token)) : List Char :=
  pieces.flatMap fun (blanks, token) => blanks ++ token.text.toList

/-- Blanks before tokens, which may be missing before the first one only. -/
structure Spaced (pieces : List (List Char × Token)) : Prop where
  blank : ∀ piece ∈ pieces, ∀ c ∈ piece.1, isBlank c
  between : ∀ piece ∈ pieces.tail, piece.1 ≠ []

variable {pieces : List (List Char × Token)}

theorem Spaced.ends (spaced : Spaced pieces) {piece : List Char × Token}
    {rest : List (List Char × Token)} (split : pieces = piece :: rest) {c : Char}
    (first : (spread rest).head? = some c) : Name.isTail c = false := by
  subst split
  cases rest with
  | nil => cases first
  | cons next others =>
      obtain ⟨blanks, token⟩ := next
      have blank := spaced.blank (blanks, token) (by simp)
      cases blanks with
      | nil => exact absurd rfl (spaced.between ([], token) List.mem_cons_self)
      | cons d blanks =>
          obtain rfl := Option.some.inj first
          exact Name.isTail_of_isBlank (blank d List.mem_cons_self)

theorem Spaced.exists_reads (spaced : Spaced pieces) (legal : ∀ piece ∈ pieces, piece.2.Legal)
    (offset : Nat) : ∃ lexemes stop,
      Lexeme.Reads offset (spread pieces) lexemes stop [] ∧
        lexemes.map (·.token) = pieces.map Prod.snd := by
  induction pieces generalizing offset with
  | nil => exact ⟨[], offset, .done, rfl⟩
  | cons piece rest ih =>
      have ends := fun c => spaced.ends rfl (c := c)
      obtain ⟨blanks, token⟩ := piece
      obtain ⟨legalHere, legalLater⟩ := List.forall_mem_cons.mp legal
      obtain ⟨blankHere, blankLater⟩ := List.forall_mem_cons.mp spaced.blank
      have spacedLater : Spaced rest :=
        ⟨blankLater, fun piece member => spaced.between piece (List.mem_of_mem_tail member)⟩
      obtain ⟨lexemes, stop, reads, same⟩ := ih spacedLater legalLater
        (offset + byteSize blanks + byteSize token.text.toList)
      rw [spread, List.flatMap_cons, ← spread, List.append_assoc]
      refine ⟨_, stop, .blanks blankHere (.cons legalHere (fun _ => ends) reads), ?_⟩
      rw [List.map_cons, List.map_cons, same]

end Token

/-- Scanning gives the lexemes that a text is made of, of which there are one kind at most. It
fails at the first character that nothing can begin with and that no name goes on into: what
stands before is scanned, and nothing that goes beyond. Tokens with blanks between them are
scanned one by one. -/
theorem Lexeme.scan_exact :
    (∀ text lexemes, Lexeme.scan text = .ok lexemes ↔ Tiles 0 text lexemes) ∧
      (∀ text first second, Tiles 0 text first → Tiles 0 text second → first = second) ∧
      (∀ text error, Lexeme.scan text = .error error ↔
        (∃ before after, text = before ++ error.char :: after ∧
          error.offset = byteSize before) ∧
        (isBlank error.char = false ∧ error.char ∉ ['+', '/', '[', ']', '(', ')'] ∧
          error.char.isAlpha = false) ∧
        ∀ front back, text = front ++ back →
          ((∃ lexemes, Lexeme.scan front = .ok lexemes) ↔ byteSize front ≤ error.offset)) ∧
      ∀ pieces, Token.Spaced pieces →
        ((∃ lexemes, Lexeme.scan (Token.spread pieces) = .ok lexemes ∧
            lexemes.map (·.token) = pieces.map Prod.snd) ↔
          ∀ name, .name name ∈ pieces.map Prod.snd → Name.IsPlain name) := by
  refine ⟨fun _ _ => scan_eq_ok_iff, ?_, ?_, ?_⟩
  · intro text first second tiles others
    exact Except.ok.inj ((scan_eq_ok_iff.mpr tiles).symm.trans (scan_eq_ok_iff.mpr others))
  · intro text error
    constructor
    · intro failed
      obtain ⟨before, after, split, place, foreign, -, -⟩ := exists_of_scan_error failed
      refine ⟨⟨before, after, split, place⟩, Token.foreign_iff.mp foreign, ?_⟩
      rintro front back rfl
      exact exists_scan_iff_of_error failed
    · rintro ⟨⟨before, after, split, place⟩, -, beginnings⟩
      exact scan_eq_error_of_beginnings split place beginnings
  · intro pieces spaced
    constructor
    · rintro ⟨lexemes, scanned, same⟩ name listed
      rw [← same] at listed
      obtain ⟨⟨token, span⟩, member, rfl⟩ := List.mem_map.mp listed
      exact (scan_eq_ok_iff.mp scanned).legal _ member name rfl
    · intro plain
      have legal : ∀ piece ∈ pieces, piece.2.Legal := fun piece member name named =>
        plain name (named ▸ List.mem_map_of_mem member)
      obtain ⟨lexemes, stop, reads, same⟩ := spaced.exists_reads legal 0
      exact ⟨lexemes, reads.scan, same⟩

end Wireframe
