import Wireframe.Proofs.Document.Coverage

/-! The templates of a document, read off its source without edits: names in the order in
which they are first sighted, and for each the last value of every property and the last
content that it is given. -/

namespace Wireframe

mutual
/-- The containers of an expression with their contents, a container before those inside. -/
def Expr.contents : Expr → List (String × Expr)
  | .entity _ => []
  | .group _ children => Expr.contentsAll children
  | .container name content => (name, content) :: content.contents

def Expr.contentsAll : List Expr → List (String × Expr)
  | [] => []
  | item :: rest => item.contents ++ Expr.contentsAll rest
end

/-- What is said of names, in order. -/
structure Record where
  sightings : List (String × Nat)
  declarations : List (String × Declaration)
  contents : List (String × Expr)

namespace Record

def empty : Record :=
  ⟨[], [], []⟩

def sight (record : Record) (name : String) (line : Nat) : Record :=
  { record with sightings := record.sightings ++ [(name, line)] }

def declare (record : Record) (name : String) (declaration : Declaration) : Record :=
  { record with declarations := record.declarations ++ [(name, declaration)] }

def give (record : Record) (name : String) (content : Expr) : Record :=
  { record with contents := record.contents ++ [(name, content)] }

/-- The value that was last declared for a property of a name. -/
def value? (record : Record) (name key : String) : Option String :=
  (record.declarations.findRev? fun (owner, declaration) =>
    owner = name ∧ declaration.key = key).map (·.2.value)

/-- The content that a name was last given. -/
def content? (record : Record) (name : String) : Option Expr :=
  (record.contents.findRev? fun (owner, _) => owner = name).map (·.2)

theorem value?_declare (record : Record) (owner : String) (declaration : Declaration)
    (name key : String) :
    (record.declare owner declaration).value? name key =
      if owner = name ∧ declaration.key = key then some declaration.value
      else record.value? name key := by
  unfold value? declare
  rw [List.findRev?_eq_find?_reverse, List.reverse_append]
  by_cases same : owner = name ∧ declaration.key = key
  · simp [same]
  · simp [same, List.findRev?_eq_find?_reverse]

theorem content?_give (record : Record) (owner : String) (content : Expr) (name : String) :
    (record.give owner content).content? name =
      if owner = name then some content else record.content? name := by
  unfold content? give
  rw [List.findRev?_eq_find?_reverse, List.reverse_append]
  by_cases same : owner = name
  · simp [same]
  · simp [same, List.findRev?_eq_find?_reverse]

theorem value?_eq_none {record : Record} {name : String}
    (undeclared : ∀ pair ∈ record.declarations, pair.1 ≠ name) (key : String) :
    record.value? name key = none := by
  rw [value?, Option.map_eq_none_iff, List.findRev?_eq_find?_reverse, List.find?_eq_none]
  intro pair member
  simp [undeclared pair (List.mem_reverse.mp member)]

theorem content?_eq_none {record : Record} {name : String}
    (ungiven : ∀ pair ∈ record.contents, pair.1 ≠ name) : record.content? name = none := by
  rw [content?, Option.map_eq_none_iff, List.findRev?_eq_find?_reverse, List.find?_eq_none]
  intro pair member
  simp [ungiven pair (List.mem_reverse.mp member)]

end Record

namespace Registry

variable {registry : Registry} {record : Record} {name : String}

theorem ensure_of_mem (known : name ∈ registry.names) (line : Nat) :
    registry.ensure name line = registry :=
  if_pos (contains_iff_mem_names.mpr known)

theorem mem_templates_ensure {line : Nat} {template : Template} :
    template ∈ (registry.ensure name line).templates ↔
      template ∈ registry.templates ∨
        name ∉ registry.names ∧ template = Template.new name line := by
  simp only [ensure, contains_iff_mem_names]
  by_cases known : name ∈ registry.names
  · simp [known]
  · simp [known]

theorem mem_names_ensure {other : String} {line : Nat} :
    other ∈ (registry.ensure name line).names ↔ other ∈ registry.names ∨ other = name := by
  rw [names_ensure]
  by_cases known : name ∈ registry.names
  · rw [if_pos known]
    constructor
    · exact .inl
    · intro either
      obtain member | rfl := either
      · exact member
      · exact known
  · rw [if_neg known, List.mem_append, List.mem_singleton]

theorem mem_templates_modify {change : Template → Template} {template : Template} :
    template ∈ (registry.modify name change).templates ↔
      ∃ old ∈ registry.templates, (if old.name = name then change old else old) = template :=
  List.mem_map

/-- A registry that holds what a record says and nothing else. -/
structure Summarizes (registry : Registry) (record : Record) : Prop where
  names : registry.names = (record.sightings.map Prod.fst).eraseDups
  firstLine : ∀ template ∈ registry.templates,
    record.sightings.lookup template.name = some template.firstLine
  styles : ∀ template ∈ registry.templates, ∀ key,
    template.styles.get? key = record.value? template.name key
  content : ∀ template ∈ registry.templates, template.content = record.content? template.name
  declared : ∀ pair ∈ record.declarations, pair.1 ∈ registry.names
  given : ∀ pair ∈ record.contents, pair.1 ∈ registry.names

theorem summarizes_empty : empty.Summarizes .empty where
  names := rfl
  firstLine := nofun
  styles := nofun
  content := nofun
  declared := nofun
  given := nofun

namespace Summarizes

theorem mem_names_iff (summarizes : registry.Summarizes record) :
    name ∈ registry.names ↔ name ∈ record.sightings.map Prod.fst := by
  rw [summarizes.names, List.mem_eraseDups]

theorem lookup_eq_none (summarizes : registry.Summarizes record)
    (unknown : name ∉ registry.names) : record.sightings.lookup name = none := by
  rw [List.lookup_eq_none_iff]
  intro pair member
  rw [bne_iff_ne]
  intro same
  apply unknown
  rw [summarizes.mem_names_iff, same]
  exact List.mem_map_of_mem member

theorem names_sight (summarizes : registry.Summarizes record) (name : String) (line : Nat) :
    (registry.ensure name line).names =
      ((record.sight name line).sightings.map Prod.fst).eraseDups := by
  rw [names_ensure, Record.sight, List.map_append, List.eraseDups_append, ← summarizes.names]
  by_cases known : name ∈ registry.names
  · have seen := summarizes.mem_names_iff.mp known
    simp [known, seen, List.removeAll]
  · have unseen : name ∉ record.sightings.map Prod.fst := fun seen =>
      known (summarizes.mem_names_iff.mpr seen)
    simp [known, unseen, List.removeAll, List.eraseDups_cons]

theorem value?_eq_none (summarizes : registry.Summarizes record)
    (unknown : name ∉ registry.names) (key : String) : record.value? name key = none := by
  apply Record.value?_eq_none
  intro pair member same
  exact unknown (same ▸ summarizes.declared pair member)

theorem content?_eq_none (summarizes : registry.Summarizes record)
    (unknown : name ∉ registry.names) : record.content? name = none := by
  apply Record.content?_eq_none
  intro pair member same
  exact unknown (same ▸ summarizes.given pair member)

theorem sight (summarizes : registry.Summarizes record) (name : String) (line : Nat) :
    (registry.ensure name line).Summarizes (record.sight name line) where
  names := summarizes.names_sight name line
  firstLine := by
    intro template member
    rw [Record.sight, List.lookup_append]
    obtain old | ⟨unknown, rfl⟩ := mem_templates_ensure.mp member
    · rw [summarizes.firstLine template old, Option.some_or]
    · have unseen := summarizes.lookup_eq_none unknown
      simp [Template.new, unseen]
  styles := by
    intro template member key
    obtain old | ⟨unknown, rfl⟩ := mem_templates_ensure.mp member
    · exact summarizes.styles template old key
    · exact (summarizes.value?_eq_none unknown key).symm
  content := by
    intro template member
    obtain old | ⟨unknown, rfl⟩ := mem_templates_ensure.mp member
    · exact summarizes.content template old
    · exact (summarizes.content?_eq_none unknown).symm
  declared := fun pair member => mem_names_ensure.mpr (.inl (summarizes.declared pair member))
  given := fun pair member => mem_names_ensure.mpr (.inl (summarizes.given pair member))

/-- A change of one template, which the record tells as well. -/
theorem modify (summarizes : registry.Summarizes record) (known : name ∈ registry.names)
    {change : Template → Template} {later : Record}
    (keepsName : ∀ template, (change template).name = template.name)
    (keepsLine : ∀ template, (change template).firstLine = template.firstLine)
    (sightings : later.sightings = record.sightings)
    (styles : ∀ template ∈ registry.templates, ∀ key,
      (if template.name = name then change template else template).styles.get? key =
        later.value? template.name key)
    (content : ∀ template ∈ registry.templates,
      (if template.name = name then change template else template).content =
        later.content? template.name)
    (declared : ∀ pair ∈ later.declarations, pair ∈ record.declarations ∨ pair.1 = name)
    (given : ∀ pair ∈ later.contents, pair ∈ record.contents ∨ pair.1 = name) :
    (registry.modify name change).Summarizes later := by
  have names := names_modify registry name keepsName
  have sameName : ∀ template : Template,
      (if template.name = name then change template else template).name = template.name := by
    intro template
    split
    · exact keepsName template
    · rfl
  constructor
  case names =>
    rw [names, sightings]
    exact summarizes.names
  case firstLine =>
    intro template member
    obtain ⟨old, inRegistry, rfl⟩ := mem_templates_modify.mp member
    rw [sightings, sameName, summarizes.firstLine old inRegistry]
    split
    · rw [keepsLine]
    · rfl
  case styles =>
    intro template member key
    obtain ⟨old, inRegistry, rfl⟩ := mem_templates_modify.mp member
    rw [sameName]
    exact styles old inRegistry key
  case content =>
    intro template member
    obtain ⟨old, inRegistry, rfl⟩ := mem_templates_modify.mp member
    rw [sameName]
    exact content old inRegistry
  case declared =>
    intro pair member
    rw [names]
    obtain before | same := declared pair member
    · exact summarizes.declared pair before
    · exact same ▸ known
  case given =>
    intro pair member
    rw [names]
    obtain before | same := given pair member
    · exact summarizes.given pair before
    · exact same ▸ known

theorem declare (summarizes : registry.Summarizes record) (known : name ∈ registry.names)
    (declaration : Declaration) :
    (registry.modify name (Template.applyStyle declaration)).Summarizes
      (record.declare name declaration) := by
  refine summarizes.modify known ?name ?line ?sightings ?styles ?content ?declared ?given
  case name | line => exact fun _ => rfl
  case sightings => rfl
  case styles =>
    intro template member key
    have before := summarizes.styles template member key
    rw [Record.value?_declare]
    by_cases same : template.name = name
    · simp only [same, if_true, true_and, Template.applyStyle, StyleMap.get?_insert]
      rw [before, same]
    · rw [if_neg same, if_neg fun both => same both.1.symm]
      exact before
  case content =>
    intro template member
    have before := summarizes.content template member
    split
    · exact before
    · exact before
  case declared =>
    intro pair member
    exact (List.mem_append.mp member).imp_right fun last => by rw [List.mem_singleton.mp last]
  case given => exact fun _ => .inl

theorem give (summarizes : registry.Summarizes record) (known : name ∈ registry.names)
    (content : Expr) :
    (registry.modify name (Template.setContent content)).Summarizes
      (record.give name content) := by
  refine summarizes.modify known ?name ?line ?sightings ?styles ?content ?declared ?given
  case name | line => exact fun _ => rfl
  case sightings => rfl
  case styles =>
    intro template member key
    have before := summarizes.styles template member key
    split
    · exact before
    · exact before
  case content =>
    intro template member
    have before := summarizes.content template member
    rw [Record.content?_give]
    by_cases same : template.name = name
    · rw [if_pos same, if_pos same.symm]
      rfl
    · rw [if_neg same, if_neg (Ne.symm same)]
      exact before
  case declared => exact fun _ => .inl
  case given =>
    intro pair member
    exact (List.mem_append.mp member).imp_right fun last => by rw [List.mem_singleton.mp last]

theorem declareAll (summarizes : registry.Summarizes record) (known : name ∈ registry.names)
    (line : Nat) (declarations : List Declaration) :
    (registry.applyAll (declarations.map (.style name line))).Summarizes
      { record with declarations := record.declarations ++ declarations.map (name, ·) } := by
  induction declarations generalizing registry record with
  | nil => simpa [applyAll] using summarizes
  | cons declaration rest ih =>
      have declared := summarizes.declare known declaration
      have names : (registry.modify name (Template.applyStyle declaration)).names =
          registry.names := names_modify registry name fun _ => rfl
      have all := ih declared (names ▸ known)
      simpa [applyAll, apply, ensure_of_mem known, Record.declare] using all

/-- The styles of a line, for one entity after the other. -/
theorem style (summarizes : registry.Summarizes record) (resolve : Resolver) (line : Nat)
    (styled : List (String × List String)) :
    (registry.applyAll (styled.flatMap fun (entity, tokens) =>
        .sight entity line :: (tokens.filterMap resolve).map (.style entity line))).Summarizes
      { record with
        sightings := record.sightings ++ (styled.map Prod.fst).map (·, line)
        declarations := record.declarations ++ styled.flatMap fun (entity, tokens) =>
          (tokens.filterMap resolve).map (entity, ·) } := by
  induction styled generalizing registry record with
  | nil => simpa [applyAll] using summarizes
  | cons first rest ih =>
      obtain ⟨entity, tokens⟩ := first
      have seen := summarizes.sight entity line
      have known : entity ∈ (registry.ensure entity line).names := mem_names_ensure.mpr (.inr rfl)
      have declared := seen.declareAll known line (tokens.filterMap resolve)
      have all := ih declared
      simpa [applyAll, apply, Record.sight] using all

mutual
/-- An expression gives each name its last container's content. -/
theorem register {registry : Registry} {record : Record} (line : Nat) :
    (expression : Expr) → registry.Summarizes record →
    (registry.applyAll (expression.edits line)).Summarizes
      { record with
        sightings := record.sightings ++ expression.references.map (·, line)
        contents := record.contents ++ expression.contents }
  | .entity name, summarizes => by
      have seen := summarizes.sight name line
      simpa [Expr.edits, Expr.references, Expr.contents, applyAll, apply, Record.sight] using seen
  | .group _ children, summarizes => registerAll line children summarizes
  | .container name content, summarizes => by
      have seen := summarizes.sight name line
      have known : name ∈ (registry.ensure name line).names := mem_names_ensure.mpr (.inr rfl)
      have inside := register line content (seen.give known content)
      simpa [Expr.edits, Expr.references, Expr.contents, applyAll, apply, Record.sight,
        Record.give] using inside

theorem registerAll {registry : Registry} {record : Record} (line : Nat) :
    (items : List Expr) → registry.Summarizes record →
    (registry.applyAll (Expr.editsAll line items)).Summarizes
      { record with
        sightings := record.sightings ++ (Expr.referencesAll items).map (·, line)
        contents := record.contents ++ Expr.contentsAll items }
  | [], summarizes => by
      simpa [Expr.editsAll, Expr.referencesAll, Expr.contentsAll, applyAll] using summarizes
  | item :: rest, summarizes => by
      have later := registerAll line rest (register line item summarizes)
      simpa [Expr.editsAll, Expr.referencesAll, Expr.contentsAll, applyAll] using later
end

end Summarizes

end Registry

namespace Line

/-- The names that a line sights: those with style tokens, then those of its expression. -/
def sightings (line : Line) : List String :=
  line.styled.map Prod.fst ++ line.expression?.elim [] Expr.references

def declarations (resolve : Resolver) (line : Line) : List (String × Declaration) :=
  line.styled.flatMap fun (entity, tokens) => (tokens.filterMap resolve).map (entity, ·)

def contents (line : Line) : List (String × Expr) :=
  line.expression?.elim [] Expr.contents

end Line

namespace Registry.Summarizes

theorem line {registry : Registry} {record : Record} (summarizes : registry.Summarizes record)
    (resolve : Resolver) (number : Nat) (line : Line) :
    (registry.applyAll (line.edits resolve number)).Summarizes
      ⟨record.sightings ++ line.sightings.map (·, number),
        record.declarations ++ line.declarations resolve, record.contents ++ line.contents⟩ := by
  have styled := summarizes.style resolve number line.styled
  unfold Line.edits Line.sightings Line.declarations Line.contents
  rw [applyAll, List.foldl_append]
  cases line.expression? with
  | none => simpa [applyAll] using styled
  | some expression =>
      have registered := register number expression styled
      simpa [applyAll] using registered

theorem lines {registry : Registry} {record : Record} (summarizes : registry.Summarizes record)
    (resolve : Resolver) (numbered : List (List Char × Nat)) :
    (registry.applyAll (numbered.flatMap fun pair =>
        (Line.ofSource pair.1).edits resolve pair.2)).Summarizes
      ⟨record.sightings ++ numbered.flatMap fun pair =>
          (Line.ofSource pair.1).sightings.map (·, pair.2),
        record.declarations ++ numbered.flatMap fun pair =>
          (Line.ofSource pair.1).declarations resolve,
        record.contents ++ numbered.flatMap fun pair => (Line.ofSource pair.1).contents⟩ := by
  induction numbered generalizing registry record with
  | nil => simpa [applyAll] using summarizes
  | cons first rest ih =>
      have later := ih (summarizes.line resolve first.2 (Line.ofSource first.1))
      simpa [applyAll] using later

end Registry.Summarizes

theorem Line.Outcome.expressions {number : Nat} {raw : String} {line : Line}
    {statements : List Statement} {errors : List Diagnostic}
    (outcome : Outcome number raw line statements errors) :
    statements.filterMap Statement.expression? = line.expression?.toList := by
  cases outcome with
  | blank | style | layout | rejected => rfl

theorem Contribution.edits_ofLine (resolve : Resolver) (number : Nat) (source : List Char) :
    (ofLine resolve number source).edits = (Line.ofSource source).edits resolve number := by
  obtain ⟨statements, errors, -, equal⟩ := exists_outcome resolve number source
  rw [equal]

namespace Document

/-- What a source says of names; contents are those of the recorded expressions. -/
def record (resolve : Resolver) (source : String) : Record where
  sightings := (numbered source).flatMap fun (text, number) =>
    (Line.ofSource text).sightings.map (·, number)
  declarations := (numbered source).flatMap fun (text, _) =>
    (Line.ofSource text).declarations resolve
  contents := (parse resolve source).expressions.flatMap Expr.contents

variable (resolve : Resolver) (source : String)

theorem templates_parse : (parse resolve source).templates =
    Registry.empty.applyAll ((numbered source).flatMap fun pair =>
      (Line.ofSource pair.1).edits resolve pair.2) := by
  change Registry.empty.applyAll (List.flatMap _ (List.map _ (numbered source))) = _
  rw [List.flatMap_map]
  congr 2
  funext pair
  exact Contribution.edits_ofLine resolve pair.2 pair.1

theorem contents_parse : (parse resolve source).expressions.flatMap Expr.contents =
    (numbered source).flatMap fun pair => (Line.ofSource pair.1).contents := by
  rw [expressions, statements_parse, List.filterMap_flatMap, List.flatMap_assoc]
  congr 1
  funext pair
  rw [(Contribution.outcome_ofLine resolve pair.2 pair.1).expressions, Line.contents]
  cases (Line.ofSource pair.1).expression? <;> simp

/-- The templates are the names in the order of their first sightings, each with the last
value of each property and the content of its last container. -/
theorem templates_summarize :
    (parse resolve source).templates.Summarizes (record resolve source) ∧
      ∀ template ∈ (parse resolve source).templates.templates, template.defaultChildren =
        ((record resolve source).content? template.name).elim [] Expr.topLevel := by
  have summarizes : (parse resolve source).templates.Summarizes (record resolve source) := by
    have lines := Registry.summarizes_empty.lines resolve (numbered source)
    rw [templates_parse, record, contents_parse]
    exact lines
  refine ⟨summarizes, ?_⟩
  intro template member
  rw [Template.defaultChildren, summarizes.content template member]

end Document

end Wireframe
