import Wireframe.Text.Blank

/-! Styles: a body of tokens between semicolons, each of which a resolver may turn
into a declaration, and the map that declarations are written into. -/

namespace Wireframe

/-- A property with its value. -/
structure Declaration where
  key : String
  value : String
  deriving Repr, DecidableEq

/-- The meaning of style tokens; some have none. -/
abbrev Resolver := String → Option Declaration

/-- The tokens of a style body: the trimmed pieces between semicolons that are not
empty. -/
def Style.tokens (body : List Char) : List String :=
  (((body.splitOn ';').map Text.trim).filter (· ≠ [])).map String.ofList

/-- A declaration for each of some properties, in the order of the keys. -/
structure StyleMap where
  declarations : List Declaration
  sorted : declarations.Pairwise (·.key < ·.key)
  deriving DecidableEq

namespace StyleMap

def empty : StyleMap :=
  ⟨[], .nil⟩

instance : Inhabited StyleMap := ⟨empty⟩

instance : Repr StyleMap := ⟨fun styles => reprPrec styles.declarations⟩

/-- The declarations with one written over that of its key, or at its place. -/
def insertInto (new : Declaration) : List Declaration → List Declaration
  | [] => [new]
  | old :: rest =>
      if new.key < old.key then new :: old :: rest
      else if old.key < new.key then old :: insertInto new rest
      else new :: rest

theorem mem_insertInto {new old : Declaration} {declarations : List Declaration}
    (member : old ∈ insertInto new declarations) : old = new ∨ old ∈ declarations := by
  induction declarations with
  | nil => simpa [insertInto] using member
  | cons first rest ih =>
      simp only [insertInto] at member
      split at member
      · simpa using member
      · split at member
        · rcases List.mem_cons.mp member with rfl | later
          · simp
          · rcases ih later with rfl | later <;> simp [*]
        · rcases List.mem_cons.mp member with rfl | later <;> simp [*]

theorem insertInto_sorted {new : Declaration} {declarations : List Declaration}
    (sorted : declarations.Pairwise (·.key < ·.key)) :
    (insertInto new declarations).Pairwise (·.key < ·.key) := by
  induction declarations with
  | nil => simp [insertInto]
  | cons first rest ih =>
      obtain ⟨below, sortedRest⟩ := List.pairwise_cons.mp sorted
      simp only [insertInto]
      split
      next before =>
        refine List.pairwise_cons.mpr ⟨fun old member => ?_, sorted⟩
        rcases List.mem_cons.mp member with rfl | later
        · exact before
        · exact String.lt_trans before (below old later)
      next notBefore =>
        split
        next after =>
          refine List.pairwise_cons.mpr ⟨fun old member => ?_, ih sortedRest⟩
          rcases mem_insertInto member with rfl | later
          · exact after
          · exact below old later
        next notAfter =>
          have same : new.key = first.key :=
            String.le_antisymm (String.not_lt.mp notAfter) (String.not_lt.mp notBefore)
          exact List.pairwise_cons.mpr ⟨fun old later => same ▸ below old later, sortedRest⟩

/-- Writes one declaration; the last one written for a key stays. -/
def insert (styles : StyleMap) (new : Declaration) : StyleMap :=
  ⟨insertInto new styles.declarations, insertInto_sorted styles.sorted⟩

/-- Writes declarations in order. -/
def insertAll (styles : StyleMap) (declarations : List Declaration) : StyleMap :=
  declarations.foldl insert styles

def ofList (declarations : List Declaration) : StyleMap :=
  empty.insertAll declarations

/-- Writes every declaration of `upper` over those of `lower`. -/
def overlay (lower upper : StyleMap) : StyleMap :=
  lower.insertAll upper.declarations

def get? (styles : StyleMap) (key : String) : Option String :=
  (styles.declarations.find? (·.key == key)).map (·.value)

theorem find?_insertInto {new : Declaration} {declarations : List Declaration}
    (sorted : declarations.Pairwise (·.key < ·.key)) (key : String) :
    (insertInto new declarations).find? (·.key == key) =
      if new.key = key then some new else declarations.find? (·.key == key) := by
  induction declarations with
  | nil => by_cases same : new.key = key <;> simp [insertInto, same]
  | cons first rest ih =>
      obtain ⟨below, sortedRest⟩ := List.pairwise_cons.mp sorted
      simp only [insertInto]
      split
      · by_cases same : new.key = key <;> simp [List.find?_cons, same]
      next notBefore =>
        split
        next after =>
          rw [List.find?_cons, List.find?_cons, ih sortedRest]
          by_cases same : new.key = key
          · have other : (first.key == key) = false := by
              refine beq_eq_false_iff_ne.mpr fun equal => String.lt_irrefl key ?_
              rwa [equal, same] at after
            simp [same, other]
          · simp [same]
        next notAfter =>
          have equal : new.key = first.key :=
            String.le_antisymm (String.not_lt.mp notAfter) (String.not_lt.mp notBefore)
          by_cases same : new.key = key
          · simp [same]
          · have other : first.key ≠ key := equal ▸ same
            simp [same, other]

/-- The last declaration written for a key is the one that is read. -/
theorem get?_insert (styles : StyleMap) (new : Declaration) (key : String) :
    (styles.insert new).get? key =
      if new.key = key then some new.value else styles.get? key := by
  simp only [get?, insert, find?_insertInto styles.sorted]
  split <;> rfl

@[simp] theorem get?_empty (key : String) : empty.get? key = none := rfl

theorem find?_eq_none_of_lt {key : String} {declarations : List Declaration}
    (above : ∀ declaration ∈ declarations, key < declaration.key) :
    declarations.find? (·.key == key) = none := by
  rw [List.find?_eq_none]
  intro declaration member
  rw [beq_iff_eq]
  rintro rfl
  exact String.lt_irrefl _ (above declaration member)

theorem get?_insertAll {declarations : List Declaration}
    (sorted : declarations.Pairwise (·.key < ·.key)) (styles : StyleMap) (key : String) :
    (styles.insertAll declarations).get? key =
      ((declarations.find? (·.key == key)).map (·.value)).or (styles.get? key) := by
  induction declarations generalizing styles with
  | nil => rfl
  | cons first rest ih =>
      obtain ⟨below, sortedRest⟩ := List.pairwise_cons.mp sorted
      have later := ih sortedRest (styles.insert first)
      rw [get?_insert] at later
      rw [insertAll, List.foldl_cons]
      refine later.trans ?_
      by_cases same : first.key = key
      · rw [find?_eq_none_of_lt (same ▸ below), if_pos same, List.find?_cons_of_pos (by simp [same])]
        rfl
      · rw [if_neg same, List.find?_cons_of_neg (by simp [same])]

/-- A declaration of the upper styles hides that of the lower ones for its key. -/
theorem get?_overlay (lower upper : StyleMap) (key : String) :
    (lower.overlay upper).get? key = (upper.get? key).or (lower.get? key) :=
  get?_insertAll upper.sorted lower key

end StyleMap

end Wireframe
