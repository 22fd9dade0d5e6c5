import Mathlib.Data.List.Chain
import Wireframe.Proofs.Document.Anchor

/-! Scanning as a relation: which lexemes a text begins with, where they stand in it, and
what is left after them. Blanks count for nothing but their size, and a name goes on as long
as it can. -/

namespace Wireframe

open Text

/-- A character with which neither a blank nor a token begins. -/
structure Token.Foreign (c : Char) : Prop where
  notBlank : isBlank c = false
  notHead : Name.isHead c = false
  notMark : Token.ofChar? c = none

/-- A character that is a token on its own is that token's text, and is no blank and no
letter. -/
theorem Token.mark_of_ofChar? {c : Char} {token : Token} (mark : Token.ofChar? c = some token) :
    token.text.toList = [c] ∧ (∀ name, token ≠ .name name) ∧
      isBlank c = false ∧ Name.isHead c = false := by
  unfold Token.ofChar? at mark
  split at mark
  case h_7 => cases mark
  all_goals
    obtain rfl := Option.some.inj mark
    exact ⟨rfl, nofun, rfl, rfl⟩

namespace Lexeme

/-- The lexemes that a text at `offset` begins with, up to a place and what is left there. -/
inductive Reads : Nat → List Char → List Lexeme → Nat → List Char → Prop
  | done {offset : Nat} {rest : List Char} : Reads offset rest [] offset rest
  | blank {offset stop : Nat} {c : Char} {text rest : List Char} {lexemes : List Lexeme} :
      isBlank c → Reads (offset + c.utf8Size) text lexemes stop rest →
      Reads offset (c :: text) lexemes stop rest
  | name {offset stop : Nat} {name : String} {text rest : List Char} {lexemes : List Lexeme} :
      Name.IsPlain name → (∀ c, text.head? = some c → Name.isTail c = false) →
      Reads (offset + byteSize name.toList) text lexemes stop rest →
      Reads offset (name.toList ++ text)
        (⟨.name name, ⟨offset, offset + byteSize name.toList⟩⟩ :: lexemes) stop rest
  | mark {offset stop : Nat} {c : Char} {token : Token} {text rest : List Char}
      {lexemes : List Lexeme} :
      Token.ofChar? c = some token → Reads (offset + c.utf8Size) text lexemes stop rest →
      Reads offset (c :: text) (⟨token, ⟨offset, offset + c.utf8Size⟩⟩ :: lexemes) stop rest

end Lexeme

namespace Lexeme

theorem scanFrom_blank (offset : Nat) {c : Char} (blank : isBlank c) (rest : List Char) :
    scanFrom offset (c :: rest) = scanFrom (offset + c.utf8Size) rest := by
  rw [scanFrom, if_pos blank]

theorem scanFrom_name (offset : Nat) {name : String} {rest : List Char}
    (plain : Name.IsPlain name) (ends : ∀ c, rest.head? = some c → Name.isTail c = false) :
    scanFrom offset (name.toList ++ rest) =
      (scanFrom (offset + byteSize name.toList) rest).map
        (⟨.name name, ⟨offset, offset + byteSize name.toList⟩⟩ :: ·) := by
  obtain ⟨head, tail, named, isHead, isTail⟩ := plain
  obtain ⟨run, left⟩ := span_append isTail ends
  have whole : String.ofList (head :: tail) = name := by rw [← named, String.ofList_toList]
  have notBlank : ¬ isBlank head = true := by simp [Name.isBlank_of_isHead isHead]
  rw [named, List.cons_append, scanFrom, if_neg notBlank, if_pos isHead]
  simp only [run, left, whole]

theorem scanFrom_mark (offset : Nat) {c : Char} {token : Token}
    (mark : Token.ofChar? c = some token) (rest : List Char) :
    scanFrom offset (c :: rest) =
      (scanFrom (offset + c.utf8Size) rest).map
        (⟨token, ⟨offset, offset + c.utf8Size⟩⟩ :: ·) := by
  obtain ⟨-, -, notBlank, notHead⟩ := Token.mark_of_ofChar? mark
  rw [scanFrom, if_neg (by simp [notBlank]), if_neg (by simp [notHead])]
  simp only [mark]

/-- Scanning takes the lexemes that a text begins with and goes on after them. -/
theorem Reads.scanFrom {offset stop : Nat} {text rest : List Char} {lexemes : List Lexeme}
    (reads : Reads offset text lexemes stop rest) :
    Lexeme.scanFrom offset text = (Lexeme.scanFrom stop rest).map (lexemes ++ ·) := by
  induction reads with
  | @done offset rest => cases Lexeme.scanFrom offset rest <;> rfl
  | blank isBlank _ ih => rw [scanFrom_blank _ isBlank, ih]
  | @name offset stop name text rest lexemes plain ends _ ih =>
      rw [scanFrom_name offset plain ends, ih]
      cases Lexeme.scanFrom stop rest <;> rfl
  | @mark offset stop c token text rest lexemes mark _ ih =>
      rw [scanFrom_mark offset mark, ih]
      cases Lexeme.scanFrom stop rest <;> rfl

/-- What scanning gives: all lexemes of the text, or the first character after some of them
that nothing begins with. -/
inductive Scan (offset : Nat) (text : List Char) : Except ScanError (List Lexeme) → Prop
  | whole {lexemes : List Lexeme} {stop : Nat} :
      Reads offset text lexemes stop [] → Scan offset text (.ok lexemes)
  | foreign {lexemes : List Lexeme} {c : Char} {stop : Nat} {rest : List Char} :
      Reads offset text lexemes stop (c :: rest) → Token.Foreign c →
      Scan offset text (.error ⟨c, stop⟩)

theorem Scan.extend {offset next : Nat} {text rest : List Char} {lexeme : Lexeme}
    {result : Except ScanError (List Lexeme)} (scan : Scan next rest result)
    (extend : ∀ {lexemes stop last}, Reads next rest lexemes stop last →
      Reads offset text (lexeme :: lexemes) stop last) :
    Scan offset text (result.map (lexeme :: ·)) := by
  cases scan with
  | whole reads => exact .whole (extend reads)
  | foreign reads foreign => exact .foreign (extend reads) foreign

theorem scan_scanFrom (offset : Nat) (text : List Char) :
    Scan offset text (scanFrom offset text) := by
  induction offset, text using scanFrom.induct with
  | case1 offset =>
      rw [Lexeme.scanFrom]
      exact .whole .done
  | case2 offset c rest blank ih =>
      rw [scanFrom_blank offset blank]
      generalize Lexeme.scanFrom (offset + c.utf8Size) rest = result at ih
      cases ih with
      | whole reads => exact .whole (.blank blank reads)
      | foreign reads foreign => exact .foreign (.blank blank reads) foreign
  | case3 offset c rest notBlank head text stop ih =>
      -- the name takes all that it can, so it ends where no name goes on
      have isTail : ∀ other ∈ rest.takeWhile Name.isTail, Name.isTail other :=
        fun _ member => List.mem_takeWhile_imp member
      have plain : Name.IsPlain (String.ofList text) :=
        Name.isPlain_ofList.mpr ⟨c, _, rfl, head, isTail⟩
      have ends : ∀ other, (rest.dropWhile Name.isTail).head? = some other →
          Name.isTail other = false := by
        intro other first
        have stops := List.head?_dropWhile_not Name.isTail rest
        rwa [first] at stops
      have split : c :: rest = (String.ofList text).toList ++ rest.dropWhile Name.isTail := by
        rw [String.toList_ofList, List.cons_append, List.takeWhile_append_dropWhile]
      rw [split, scanFrom_name offset plain ends]
      rw [show stop = offset + byteSize (String.ofList text).toList by
        rw [String.toList_ofList]] at ih
      exact ih.extend (.name plain ends)
  | case4 offset c rest notBlank notHead token mark stop ih =>
      rw [scanFrom_mark offset mark]
      exact ih.extend (.mark mark)
  | case5 offset c rest notBlank notHead noMark =>
      rw [Lexeme.scanFrom, if_neg notBlank, if_neg notHead]
      simp only [noMark]
      exact .foreign .done ⟨by simpa using notBlank, by simpa using notHead, noMark⟩

theorem scan_scan (text : List Char) : Scan 0 text (Lexeme.scan text) :=
  scan_scanFrom 0 text

theorem Reads.scan {text : List Char} {lexemes : List Lexeme} {stop : Nat}
    (reads : Reads 0 text lexemes stop []) : Lexeme.scan text = .ok lexemes := by
  rw [Lexeme.scan, reads.scanFrom, Lexeme.scanFrom]
  simp [Except.map]

theorem reads_of_scan {text : List Char} {lexemes : List Lexeme}
    (scanned : Lexeme.scan text = .ok lexemes) : ∃ stop, Reads 0 text lexemes stop [] := by
  have result := scan_scan text
  rw [scanned] at result
  cases result with
  | whole reads => exact ⟨_, reads⟩

end Lexeme

namespace Token

def isName : Token → Bool
  | .name _ => true
  | _ => false

/-- A token that the notation can write. -/
def Legal (token : Token) : Prop :=
  ∀ name, token = .name name → Name.IsPlain name

theorem exists_char_of_mark {token : Token} (mark : token.isName = false) :
    ∃ c, token.text.toList = [c] ∧ ofChar? c = some token ∧ Name.isTail c = false := by
  cases token with
  | plus => exact ⟨'+', rfl, rfl, rfl⟩
  | slash => exact ⟨'/', rfl, rfl, rfl⟩
  | openBracket => exact ⟨'[', rfl, rfl, rfl⟩
  | closeBracket => exact ⟨']', rfl, rfl, rfl⟩
  | openParen => exact ⟨'(', rfl, rfl, rfl⟩
  | closeParen => exact ⟨')', rfl, rfl, rfl⟩
  | name text => cases mark

end Token

theorem Lexeme.Reads.cons {offset stop : Nat} {text rest : List Char} {lexemes : List Lexeme}
    {token : Token} (legal : token.Legal)
    (ends : token.isName = true → ∀ c, text.head? = some c → Name.isTail c = false)
    (reads : Reads (offset + byteSize token.text.toList) text lexemes stop rest) :
    Reads offset (token.text.toList ++ text)
      (⟨token, ⟨offset, offset + byteSize token.text.toList⟩⟩ :: lexemes) stop rest := by
  cases named : token.isName with
  | true =>
      cases token with
      | name text => exact .name (legal text rfl) (ends named) reads
      | _ => cases named
  | false =>
      obtain ⟨c, single, mark, -⟩ := Token.exists_char_of_mark named
      have size : byteSize token.text.toList = c.utf8Size := by simp [single]
      rw [size] at reads ⊢
      rw [single]
      exact .mark mark reads

/-! Tokens written without blanks between them. -/

namespace Token

/-- Tokens that can be told apart without blanks: names that the notation can write, no two
of them side by side. -/
structure Compact (tokens : List Token) : Prop where
  plain : ∀ name, .name name ∈ tokens → Name.IsPlain name
  apart : tokens.IsChain fun first second => first.isName = true → second.isName = false

def spell (tokens : List Token) : List Char :=
  tokens.flatMap (·.text.toList)

namespace Compact

variable {token : Token} {tokens later : List Token}

/-- A mark keeps apart what stands before it and after it. -/
theorem join (compact : Compact tokens) (mark : token.isName = false) (after : Compact later) :
    Compact (tokens ++ token :: later) where
  plain := by
    intro name member
    rcases List.mem_append.mp member with before | inRest
    · exact compact.plain name before
    · cases List.mem_cons.mp inRest with
      | inl same => rw [← same] at mark; cases mark
      | inr inLater => exact after.plain name inLater
  apart := by
    refine compact.apart.append (after.apart.cons ?_) ?_
    · intro _ _ named
      rw [mark] at named
      cases named
    · intro last _ first isFirst _
      obtain rfl := Option.some.inj isFirst
      exact mark

theorem tail (compact : Compact (token :: tokens)) : Compact tokens where
  plain := fun name member => compact.plain name (List.mem_cons_of_mem token member)
  apart := compact.apart.tail

/-- After a name stands nothing with which the name would go on. -/
theorem ends (compact : Compact (token :: tokens)) (named : token.isName = true) (c : Char)
    (first : (spell tokens).head? = some c) : Name.isTail c = false := by
  cases tokens with
  | nil => cases first
  | cons next rest =>
      have mark : next.isName = false := (List.isChain_cons_cons.mp compact.apart).1 named
      obtain ⟨other, single, -, notTail⟩ := exists_char_of_mark mark
      rw [spell, List.flatMap_cons, single] at first
      obtain rfl := Option.some.inj first
      exact notTail

/-- Compact tokens are read back from what they spell. -/
theorem exists_reads (compact : Compact tokens) (offset : Nat) : ∃ lexemes stop,
    Lexeme.Reads offset (spell tokens) lexemes stop [] ∧ lexemes.map (·.token) = tokens := by
  induction tokens generalizing offset with
  | nil => exact ⟨[], offset, .done, rfl⟩
  | cons token rest ih =>
      obtain ⟨lexemes, stop, reads, same⟩ :=
        ih compact.tail (offset + byteSize token.text.toList)
      have legal : token.Legal := fun name same =>
        compact.plain name (same ▸ List.mem_cons_self)
      rw [spell, List.flatMap_cons, ← spell]
      exact ⟨_, stop, .cons legal compact.ends reads, by rw [List.map_cons, same]⟩

theorem scan_spell (compact : Compact tokens) : ∃ lexemes,
    Lexeme.scan (spell tokens) = .ok lexemes ∧ lexemes.map (·.token) = tokens := by
  obtain ⟨lexemes, stop, reads, same⟩ := compact.exists_reads 0
  exact ⟨lexemes, reads.scan, same⟩

end Compact

end Token

end Wireframe
