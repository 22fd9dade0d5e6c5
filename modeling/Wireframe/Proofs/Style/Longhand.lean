import Mathlib.Data.List.Forall2
import Wireframe.Proofs.Style.Dictionary

/-! Style bodies in which some tokens are written out as the longhand of what they mean. Such a
body has the same tokens but for these, and ends where the other would. -/

namespace Wireframe

open Text

namespace Shorthand

variable {token other : String} {declaration : Declaration}

/-- Blanks around a token count for nothing. -/
theorem resolve_around {lead trail : List Char} (blankLead : ∀ c ∈ lead, isBlank c)
    (blankTrail : ∀ c ∈ trail, isBlank c) (token : List Char) :
    resolve (String.ofList (lead ++ token ++ trail)) = resolve (String.ofList token) := by
  rw [resolve, resolve, String.toList_ofList, String.toList_ofList, trim_append blankTrail,
    trim_blanks_append blankLead]

theorem resolve_trim (token : List Char) :
    resolve (String.ofList (trim token)) = resolve (String.ofList token) := by
  rw [resolve, resolve, String.toList_ofList, String.toList_ofList, trim_trim]

theorem resolve_empty : resolve "" = none := rfl

theorem toList_longhand (declaration : Declaration) : declaration.longhand.toList =
    declaration.key.toList ++ [' '] ++ declaration.value.toList := by
  simp [Declaration.longhand]

theorem longhand_ne_empty (declaration : Declaration) : declaration.longhand ≠ "" := by
  intro empty
  have text := toList_longhand declaration
  rw [empty] at text
  simp at text

theorem unpadded_longhand (resolved : resolve token = some declaration) :
    Unpadded declaration.longhand.toList := by
  have isName := isName_key resolved
  have isValue := isValue_value resolved
  have solid : Unpadded declaration.key.toList := unpadded_of_forall fun c member =>
    isBlank_of_isPropertyChar (isName.letters c member)
  rw [toList_longhand]
  exact solid.append [' '] isValue.unpadded isName.nonempty isValue.nonempty

/-- A character that stands in a longhand only if it stands in the token. -/
structure Foreign (sign : Char) : Prop where
  notLetter : isPropertyChar sign = false
  notBlank : sign ≠ ' '
  notUnit : sign ≠ '%'

theorem foreign_of_isDelimiter {c : Char} (delimiter : Anchor.isDelimiter c) : Foreign c := by
  rw [Anchor.isDelimiter, decide_eq_true_iff] at delimiter
  simp only [List.mem_cons, List.not_mem_nil, or_false] at delimiter
  rcases delimiter with rfl | rfl | rfl | rfl | rfl | rfl <;> constructor <;> decide

theorem notMem_longhand {sign : Char} (resolved : resolve token = some declaration)
    (foreign : Foreign sign) (absent : sign ∉ token.toList) :
    sign ∉ declaration.longhand.toList := by
  obtain ⟨head, tail, split, rule⟩ := exists_rule resolved
  have trimmed : sign ∉ trim token.toList := fun member =>
    absent ((trim_sublist token.toList).subset member)
  have each : ∀ word ∈ head :: tail, sign ∉ word := by
    intro word listed inside
    exact trimmed (mem_of_mem_words (split ▸ listed) sign inside).1
  have rest : sign ∉ [' '].intercalate tail :=
    (notMem_intercalate_iff foreign.notBlank).mpr fun word listed =>
      each word (List.mem_cons_of_mem _ listed)
  have value : sign ∉ declaration.value.toList := by
    cases rule with
    | background => rwa [String.toList_ofList]
    | radius =>
        have letters : ∀ c ∈ "px".toList, isPropertyChar c := by simp [isPropertyChar]
        have notUnit : sign ∉ "px".toList := by
          intro member
          have letter := letters sign member
          rw [foreign.notLetter] at letter
          cases letter
        rw [String.toList_ofList]
        exact notMem_pixels rest notUnit
    | named =>
        rw [String.toList_ofList]
        exact each head List.mem_cons_self
    | number => simpa [foreign.notUnit] using trimmed
    | percentage => rwa [String.toList_ofList]
    | property unnamed found =>
        obtain ⟨blanks, property⟩ := property?_eq_some_iff.mp found
        rw [property.whole] at trimmed
        exact fun member => trimmed (List.mem_append_right _ member)
  rw [toList_longhand]
  simp [notMem_key resolved foreign.notLetter, foreign.notBlank, value]

/-- A token, or the longhand of what it means. -/
inductive Spells (token : String) : String → Prop
  | same : Spells token token
  | longhand {declaration : Declaration} : resolve token = some declaration →
      Spells token declaration.longhand

theorem Spells.resolve_eq (spells : Spells token other) : resolve other = resolve token := by
  cases spells with
  | same => rfl
  | longhand resolved =>
      rw [resolved]
      exact resolve_longhand (isName_key resolved) (isValue_value resolved)

end Shorthand

namespace Style

open Shorthand

/-- A piece of a style body, and one where its token may be written out. -/
inductive WritesPiece : List Char → List Char → Prop
  | around {lead trail : List Char} {token other : String} : (∀ c ∈ lead, isBlank c) →
      (∀ c ∈ trail, isBlank c) → Spells token other →
      WritesPiece (lead ++ token.toList ++ trail) (lead ++ other.toList ++ trail)

/-- A style body, and one where some tokens are written out. -/
def WritesOut (body other : List Char) : Prop :=
  ∃ pieces, List.Forall₂ WritesPiece (body.splitOn ';') pieces ∧ other = [';'].intercalate pieces

section Piece

variable {piece other : List Char}

theorem WritesPiece.refl (piece : List Char) : WritesPiece piece piece := by
  have around := WritesPiece.around (List.forall_mem_nil _) (List.forall_mem_nil _)
    (@Spells.same (String.ofList piece))
  simpa using around

theorem WritesPiece.notMem (writes : WritesPiece piece other) {sign : Char}
    (foreign : Foreign sign) (absent : sign ∉ piece) : sign ∉ other := by
  cases writes with
  | around blankLead blankTrail spells =>
      cases spells with
      | same => exact absent
      | longhand resolved =>
          simp only [List.mem_append, not_or] at absent ⊢
          exact ⟨⟨absent.1.1, notMem_longhand resolved foreign absent.1.2⟩, absent.2⟩

theorem WritesPiece.spells_trim (writes : WritesPiece piece other) :
    Spells (String.ofList (trim piece)) (String.ofList (trim other)) := by
  cases writes with
  | around blankLead blankTrail spells =>
      cases spells with
      | same => exact .same
      | longhand resolved =>
          rw [trim_around blankLead blankTrail (unpadded_longhand resolved), String.ofList_toList,
            trim_append blankTrail, trim_blanks_append blankLead]
          apply Spells.longhand
          rwa [resolve_trim, String.ofList_toList]

theorem WritesPiece.solidEnd (writes : WritesPiece piece other) (ends : SolidEnd piece) :
    SolidEnd other := by
  cases writes with
  | @around lead trail token other blankLead blankTrail spells =>
      cases trail with
      | nil =>
          cases spells with
          | same => exact ends
          | @longhand declaration resolved =>
              have filled : declaration.longhand.toList ≠ [] := by
                simpa using longhand_ne_empty declaration
              rw [List.append_nil, SolidEnd, List.getLast?_append_of_ne_nil _ filled]
              exact (unpadded_longhand resolved).last
      | cons first rest =>
          obtain ⟨last, final⟩ := Option.ne_none_iff_exists'.mp
            (mt List.getLast?_eq_none_iff.mp (List.cons_ne_nil first rest))
          have solid := ends last (by rw [List.getLast?_append_of_ne_nil _ (by simp), final])
          rw [blankTrail last (List.mem_of_getLast? final)] at solid
          cases solid

/-- The token of a piece, if it is not blank. -/
def pieceTokens (piece : List Char) : List String :=
  if trim piece = [] then [] else [String.ofList (trim piece)]

theorem tokens_eq_flatMap (body : List Char) :
    tokens body = (body.splitOn ';').flatMap pieceTokens := by
  rw [tokens]
  induction body.splitOn ';' with
  | nil => rfl
  | cons piece rest ih =>
      rw [List.flatMap_cons, ← ih, pieceTokens, List.map_cons]
      split
      next empty => rw [List.filter_cons_of_neg (by simp [empty]), List.nil_append]
      next filled => rw [List.filter_cons_of_pos (by simp [filled])]; rfl

theorem WritesPiece.forall₂_tokens (writes : WritesPiece piece other) :
    List.Forall₂ Spells (pieceTokens piece) (pieceTokens other) := by
  have spells := writes.spells_trim
  rw [pieceTokens, pieceTokens]
  generalize trim other = target at spells
  generalize written : String.ofList target = token at spells
  cases spells with
  | same =>
      rw [String.ofList_inj.mp written]
      split
      · exact .nil
      · exact .cons .same .nil
  | @longhand declaration resolved =>
      have filled : trim piece ≠ [] := by
        intro empty
        rw [empty, String.ofList_nil, resolve_empty] at resolved
        cases resolved
      have longer : target ≠ [] := by
        rintro rfl
        exact longhand_ne_empty declaration written.symm
      rw [if_neg filled, if_neg longer]
      exact .cons (.longhand resolved) .nil

/-- Every way to write out the token of a piece can be had. -/
theorem exists_writesPiece {targets : List String}
    (spells : List.Forall₂ Spells (pieceTokens piece) targets) :
    ∃ other, WritesPiece piece other ∧ pieceTokens other = targets := by
  rw [pieceTokens] at spells
  split at spells
  next empty =>
    obtain rfl := List.forall₂_nil_left_iff.mp spells
    exact ⟨piece, .refl piece, if_pos empty⟩
  next filled =>
    obtain ⟨target, others, spell, rest, rfl⟩ := List.forall₂_cons_left_iff.mp spells
    obtain rfl := List.forall₂_nil_left_iff.mp rest
    obtain ⟨trail, blankTrail, whole⟩ := exists_trim piece
    have blankLead : ∀ c ∈ piece.takeWhile isBlank, isBlank c := fun _ => List.mem_takeWhile_imp
    have writes := WritesPiece.around blankLead blankTrail spell
    rw [String.toList_ofList, ← whole] at writes
    refine ⟨_, writes, ?_⟩
    have unpadded : Unpadded target.toList := by
      cases spell with
      | same =>
          rw [String.toList_ofList]
          exact trim_eq_self_iff.mp (trim_trim piece)
      | longhand resolved => exact unpadded_longhand resolved
    have longer : target.toList ≠ [] := by
      cases spell with
      | same => simpa using filled
      | longhand resolved => simpa using longhand_ne_empty _
    rw [pieceTokens, trim_around blankLead blankTrail unpadded, if_neg longer,
      String.ofList_toList]

end Piece

end Style

/-! Lists that are put together from others are related if these are. -/

theorem exists_forall₂_flatMap {α β γ δ : Type} {f : α → List β} {g : γ → List δ}
    {related : α → γ → Prop} {spells : β → δ → Prop} {items : List α} {targets : List δ}
    (each : ∀ item ∈ items, ∀ targets, List.Forall₂ spells (f item) targets →
      ∃ other, related item other ∧ g other = targets)
    (all : List.Forall₂ spells (items.flatMap f) targets) :
    ∃ others, List.Forall₂ related items others ∧ others.flatMap g = targets := by
  induction items generalizing targets with
  | nil =>
      obtain rfl := List.forall₂_nil_left_iff.mp all
      exact ⟨[], .nil, rfl⟩
  | cons item rest ih =>
      obtain ⟨here, later⟩ := List.forall_mem_cons.mp each
      have first := List.forall₂_take (f item).length all
      have second := List.forall₂_drop (f item).length all
      rw [List.flatMap_cons, List.take_left] at first
      rw [List.flatMap_cons, List.drop_left] at second
      obtain ⟨other, relates, taken⟩ := here _ first
      obtain ⟨others, relatesAll, dropped⟩ := ih later second
      refine ⟨other :: others, .cons relates relatesAll, ?_⟩
      rw [List.flatMap_cons, taken, dropped, List.take_append_drop]

namespace Style

open Shorthand

section Body

variable {body other : List Char}

theorem forall_notMem {pieces others : List (List Char)} {sign : Char}
    (writes : List.Forall₂ WritesPiece pieces others) (foreign : Foreign sign)
    (absent : ∀ piece ∈ pieces, sign ∉ piece) : ∀ other ∈ others, sign ∉ other := by
  induction writes with
  | nil => exact List.forall_mem_nil _
  | cons first _ ih =>
      obtain ⟨here, later⟩ := List.forall_mem_cons.mp absent
      exact List.forall_mem_cons.mpr ⟨first.notMem foreign here, ih later⟩

theorem foreign_semicolon : Foreign ';' :=
  ⟨by decide, by decide, by decide⟩

theorem splitOn_intercalate {pieces : List (List Char)}
    (writes : List.Forall₂ WritesPiece (body.splitOn ';') pieces) :
    ([';'].intercalate pieces).splitOn ';' = pieces := by
  apply List.splitOn_intercalate
  · exact forall_notMem writes foreign_semicolon fun _ => notMem_of_mem_splitOn
  · rintro rfl
    exact List.splitOn_ne_nil _ _ (List.forall₂_nil_right_iff.mp writes)

theorem WritesOut.notMem (writes : WritesOut body other) {sign : Char} (foreign : Foreign sign)
    (distinct : sign ≠ ';') (absent : sign ∉ body) : sign ∉ other := by
  obtain ⟨pieces, writes, rfl⟩ := writes
  have whole : [';'].intercalate (body.splitOn ';') = body := List.intercalate_splitOn ';'
  rw [← whole, notMem_intercalate_iff distinct] at absent
  exact (notMem_intercalate_iff distinct).mpr (forall_notMem writes foreign absent)

theorem WritesOut.solidEnd (writes : WritesOut body other) (ends : SolidEnd body) :
    SolidEnd other := by
  obtain ⟨pieces, writes, rfl⟩ := writes
  have whole : [';'].intercalate (body.splitOn ';') = body := List.intercalate_splitOn ';'
  rw [← whole] at ends
  generalize body.splitOn ';' = parts at writes ends
  induction writes with
  | nil => exact ends
  | @cons piece other rest others first later ih =>
      cases later with
      | nil =>
          rw [List.intercalate_singleton] at ends ⊢
          exact first.solidEnd ends
      | cons _ _ =>
          rw [List.intercalate_cons_cons, List.append_assoc, List.singleton_append,
            solidEnd_append_cons_iff (by decide)] at ends ⊢
          exact ih ends

theorem WritesOut.forall₂_tokens (writes : WritesOut body other) :
    List.Forall₂ Spells (tokens body) (tokens other) := by
  obtain ⟨pieces, writes, rfl⟩ := writes
  rw [tokens_eq_flatMap, tokens_eq_flatMap, splitOn_intercalate writes]
  exact List.rel_flatMap writes fun _ _ writes => writes.forall₂_tokens

/-- Any of the tokens of a body can be written out. -/
theorem exists_writesOut {targets : List String}
    (spells : List.Forall₂ Spells (tokens body) targets) :
    ∃ other, WritesOut body other ∧ tokens other = targets := by
  rw [tokens_eq_flatMap] at spells
  obtain ⟨pieces, writes, written⟩ :=
    exists_forall₂_flatMap (fun _ _ _ => exists_writesPiece) spells
  refine ⟨_, ⟨pieces, writes, rfl⟩, ?_⟩
  rw [tokens_eq_flatMap, splitOn_intercalate writes, written]

end Body

end Style

end Wireframe
