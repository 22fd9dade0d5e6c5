import Wireframe.Component

/-! The command line: global options, a verb, and the options and the operand of the
verb. -/

namespace Wireframe

/-- The options of all verbs. -/
inductive OptionKey
  | root
  | verbose
  | output
  | config
  | framework
  | json
  deriving Repr, DecidableEq

namespace OptionKey

def takesValue : OptionKey → Bool
  | .verbose | .json => false
  | .root | .output | .config | .framework => true

def ofLong? : String → Option OptionKey
  | "root" => some .root
  | "verbose" => some .verbose
  | "output" => some .output
  | "config" => some .config
  | "framework" => some .framework
  | "json" => some .json
  | _ => none

def ofShort? : Char → Option OptionKey
  | 'v' => some .verbose
  | 'o' => some .output
  | 'c' => some .config
  | 'f' => some .framework
  | _ => none

end OptionKey

inductive Verb
  | preview
  | generate
  | check
  deriving Repr, DecidableEq

namespace Verb

def ofName? : String → Option Verb
  | "preview" => some .preview
  | "generate" => some .generate
  | "check" => some .check
  | _ => none

def globals : List OptionKey :=
  [.root, .verbose]

/-- The options that may stand after the verb. -/
def options : Verb → List OptionKey
  | .preview => globals ++ [.output, .config]
  | .generate => globals ++ [.output, .config, .framework]
  | .check => globals ++ [.json]

end Verb

/-- A part of a command line that has been understood. Flags have an empty value. -/
inductive Argument
  | option (key : OptionKey) (value : String)
  | operand (text : String)
  deriving Repr, DecidableEq

namespace Argument

def value? (key : OptionKey) : Argument → Option String
  | .option other value => if other = key then some value else none
  | .operand _ => none

def operand? : Argument → Option String
  | .option .. => none
  | .operand text => some text

/-- What one word of the command line is: arguments of its own, arguments and an option
whose value is the next word, or the mark after which all words are operands. -/
inductive Word
  | complete (arguments : List Argument)
  | awaits (arguments : List Argument) (key : OptionKey)
  | escape

/-- Reads short options behind one dash. What follows an option with a value is its
value, with or without an equals sign. -/
def ofCluster? (allowed : List OptionKey) : List Char → Option Word
  | [] => some (.complete [])
  | c :: rest => do
      let key ← OptionKey.ofShort? c
      if key ∉ allowed then none
      else if key.takesValue then
        match rest with
        | [] => some (.awaits [] key)
        | '=' :: value => some (.complete [.option key (String.ofList value)])
        | value => some (.complete [.option key (String.ofList value)])
      else
        match ← ofCluster? allowed rest with
        | .complete later => some (.complete (.option key "" :: later))
        | .awaits later last => some (.awaits (.option key "" :: later) last)
        | .escape => none

/-- Reads a long option without its dashes. -/
def ofLong? (allowed : List OptionKey) (text : List Char) : Option Word := do
  let key ← OptionKey.ofLong? (String.ofList (text.takeWhile (· ≠ '=')))
  if key ∉ allowed then none
  else
    match text.dropWhile (· ≠ '='), key.takesValue with
    | [], true => some (.awaits [] key)
    | _ :: value, true => some (.complete [.option key (String.ofList value)])
    | [], false => some (.complete [.option key ""])
    | _ :: _, false => none

def ofWord? (allowed : List OptionKey) (word : String) : Option Word :=
  match word.toList with
  | ['-', '-'] => some .escape
  | '-' :: '-' :: text => ofLong? allowed text
  | ['-'] => some (.complete [.operand word])
  | '-' :: text => ofCluster? allowed text
  | _ => some (.complete [.operand word])

/-- Tells whether a word cannot be the value of the option before it. -/
def isDashed (word : String) : Bool :=
  match word.toList with
  | '-' :: _ :: _ => true
  | _ => false

/-- Reads all words after the verb. -/
def readAll? (allowed : List OptionKey) : List String → Option (List Argument)
  | [] => some []
  | word :: rest =>
      match ofWord? allowed word with
      | none => none
      | some .escape => some (rest.map .operand)
      | some (.complete arguments) => (readAll? allowed rest).map (arguments ++ ·)
      | some (.awaits arguments key) =>
          match rest with
          | [] => none
          | value :: later =>
              if isDashed value then none
              else (readAll? allowed later).map ((arguments ++ [.option key value]) ++ ·)

/-- Reads the global options before the verb, the verb, and the words after it. -/
def readVerb? : List String → Option (List Argument × Verb × List String)
  | [] => none
  | word :: rest =>
      match ofWord? Verb.globals word with
      | none | some .escape => none
      | some (.complete [.operand name]) =>
          (Verb.ofName? name).map fun verb => ([], verb, rest)
      | some (.complete arguments) =>
          (readVerb? rest).map fun (others, verb, words) => (arguments ++ others, verb, words)
      | some (.awaits arguments key) =>
          match rest with
          | [] => none
          | value :: later =>
              if isDashed value then none
              else
                (readVerb? later).map fun (others, verb, words) =>
                  (arguments ++ [.option key value] ++ others, verb, words)

end Argument

/-- What the program is to do; without an input it reads the standard input. -/
inductive Command
  | preview (input : Option String) (output : String) (config : Option String)
  | generate (input output : Option String) (framework : Option Framework)
      (config : Option String)
  | check (input : Option String) (json : Bool)
  deriving Repr, DecidableEq

structure Invocation where
  roots : List String
  command : Command
  deriving Repr, DecidableEq

namespace Invocation

/-- At most one of some values. -/
def atMostOne? : List α → Option (Option α)
  | [] => some none
  | [value] => some (some value)
  | _ => none

/-- At most one path, which is not empty. -/
def path? (values : List String) : Option (Option String) :=
  if values.any (·.isEmpty) then none else atMostOne? values

def framework? (values : List String) : Option (Option Framework) := do
  match ← atMostOne? values with
  | none => some none
  | some name => (Framework.ofKeyword? name).map some

def defaultOutput : String := "luming.preview.html"

def command? (verb : Verb) (arguments : List Argument) : Option Command := do
  let values (key : OptionKey) := arguments.filterMap (Argument.value? key)
  let input ← path? (arguments.filterMap Argument.operand?)
  match verb with
  | .preview =>
      let output ← path? (values .output)
      return .preview input (output.getD defaultOutput) (← path? (values .config))
  | .generate =>
      return .generate input (← path? (values .output)) (← framework? (values .framework))
        (← path? (values .config))
  | .check => return .check input (← atMostOne? (values .json)).isSome

/-- Reads a command line; `none` if it is not used as it is meant to be. Roots given
after the verb replace those before it. -/
def ofWords? (words : List String) : Option Invocation := do
  let (before, verb, rest) ← Argument.readVerb? words
  let after ← Argument.readAll? verb.options rest
  let inner := after.filterMap (Argument.value? .root)
  let outer := before.filterMap (Argument.value? .root)
  return ⟨if inner.isEmpty then outer else inner, ← command? verb after⟩

end Invocation

end Wireframe
